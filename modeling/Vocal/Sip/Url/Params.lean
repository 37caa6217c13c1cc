import Vocal.Sip.Text.Match
import Vocal.Sip.Url

/-!
# The parameters of a url

The loops over the parameters of a url and of a telephone number. `parseParams_invariant` and
`decodeParams_invariant` carry a property over a loop from one parameter; `parseParams_sections` and
`decodeParams_sections` run a loop on parameters as they are written.
-/

namespace Vocal.Sip.Url

open Cut Data

/-- A parameter as it is written. -/
def sect (item : Data × Data) : Data := ';' :: item.1 ++ '=' :: item.2

/-- The parameter that `param` writes, if it does. -/
def item (key value : Data) : List (Data × Data) := if value ≠ [] then [(key, value)] else []

theorem flatMap_sect_item (key value : Data) : (item key value).flatMap sect = param key value := by
  rw [item, param]
  split
  · simp [sect]
  · rfl

/-- The names of the parameters of a url with a field of their own. -/
def urlKeys : List Data :=
  ["user".toList, "transport".toList, "ttl".toList, "maddr".toList, "method".toList]

/-- A parameter that a loop can read: the delimiters do not stand in it. -/
structure Readable (item : Data × Data) : Prop where
  key : '=' ∉ item.1
  value : ';' ∉ item.2

namespace SipTelSubscriberUser

theorem decodeParams_invariant {P : SipTelSubscriberUser → Prop} {data : Data}
    (hstep : ∀ (t : SipTelSubscriberUser) (key value : Data), '=' ∉ key → ';' ∉ value → (∀ c ∈ key, c ∈ data) →
      (∀ c ∈ value, c ∈ data) → P t → P (t.setParam key value)) {fuel : Nat} {t : SipTelSubscriberUser} {d : Data}
    (hd : ∀ c ∈ d, c ∈ data) (ht : P t) : P (decodeParams fuel t d) := by
  induction fuel generalizing t d with
  | zero => exact ht
  | succ fuel ih =>
    rw [decodeParams]
    rcases matchChar_cases d '=' with ⟨-, hmatch⟩ | ⟨key, rest, hkey, rfl, hmatch⟩
    · rw [hmatch]
      exact ht
    rw [hmatch]
    simp only
    have hkeymem : ∀ c ∈ key, c ∈ data := fun c hc => hd c (List.mem_append_left _ hc)
    have hrest : ∀ c ∈ rest, c ∈ data :=
      fun c hc => hd c (List.mem_append_right _ (List.mem_cons_of_mem _ hc))
    rcases matchChar_cases rest ';' with ⟨hvalue, hmatch⟩ | ⟨value, rest', hvalue, rfl, hmatch⟩
    · rw [hmatch]
      exact ih (by simp) (hstep _ _ _ hkey hvalue hkeymem hrest ht)
    · rw [hmatch]
      have hvaluemem : ∀ c ∈ value, c ∈ data := fun c hc => hrest c (List.mem_append_left _ hc)
      exact ih (fun c hc => hrest c (List.mem_append_right _ (List.mem_cons_of_mem _ hc)))
        (hstep _ _ _ hkey hvalue hkeymem hvaluemem ht)

theorem decodeParams_nil (fuel : Nat) (t : SipTelSubscriberUser) : decodeParams fuel t [] = t := by
  cases fuel with
  | zero => rfl
  | succ fuel =>
    rw [decodeParams, matchChar_not_found (by simp)]

theorem decodeParams_sections {key value : Data} {items : List (Data × Data)}
    (hread : ∀ i ∈ (key, value) :: items, Readable i) {fuel : Nat} (t : SipTelSubscriberUser)
    (hfuel : (key ++ '=' :: value ++ items.flatMap sect).length ≤ fuel) :
    decodeParams fuel t (key ++ '=' :: value ++ items.flatMap sect) =
      ((key, value) :: items).foldl (fun t i => t.setParam i.1 i.2) t := by
  induction items generalizing key value fuel t with
  | nil =>
    obtain ⟨hkey, hvalue⟩ := hread _ (List.mem_cons_self ..)
    rw [List.flatMap_nil, List.append_nil] at hfuel ⊢
    obtain ⟨fuel, rfl⟩ := Nat.exists_eq_add_of_lt (show 0 < fuel by simp at hfuel; omega)
    rw [Nat.zero_add, decodeParams, matchChar_found hkey]
    simp only
    rw [matchChar_not_found hvalue]
    simp only
    rw [decodeParams_nil]
    rfl
  | cons i items ih =>
    obtain ⟨hkey, hvalue⟩ := hread _ (List.mem_cons_self ..)
    have htext : key ++ '=' :: value ++ (i :: items).flatMap sect =
        key ++ '=' :: (value ++ ';' :: (i.1 ++ '=' :: i.2 ++ items.flatMap sect)) := by
      simp [sect]
    rw [htext] at hfuel ⊢
    have hlen : (i.1 ++ '=' :: i.2 ++ items.flatMap sect).length + 1 ≤ fuel := by
      simp at hfuel ⊢
      omega
    obtain ⟨fuel, rfl⟩ := Nat.exists_eq_add_of_lt (show 0 < fuel by omega)
    rw [Nat.zero_add, decodeParams, matchChar_found hkey]
    simp only
    rw [matchChar_found hvalue]
    simp only
    rw [ih (fun j hj => hread j (List.mem_cons_of_mem _ hj)) _ (by omega)]
    rfl

end SipTelSubscriberUser

namespace SipUrl

theorem parseParams_invariant {P : Scan → Prop} {data : Data} (hquestion : '?' ∉ data)
    (hstep : ∀ (s : Scan) (key value : Data), '=' ∉ key → ';' ∉ value → (∀ c ∈ key, c ∈ data) → (∀ c ∈ value, c ∈ data) →
      P s → P (parseParam s (removeSpaces key) value true)) {fuel : Nat} {s : Scan} {d : Data}
    (hd : ∀ c ∈ d, c ∈ data) (hs : P s) : P (parseParams fuel s d).1 := by
  induction fuel generalizing s d with
  | zero => exact hs
  | succ fuel ih =>
    rw [parseParams]
    rcases matchChar_cases d '=' with ⟨-, hmatch⟩ | ⟨key, rest, hkey, rfl, hmatch⟩
    · rw [hmatch]
      exact hs
    rw [hmatch]
    simp only
    have hkeymem : ∀ c ∈ key, c ∈ data := fun c hc => hd c (List.mem_append_left _ hc)
    have hrest : ∀ c ∈ rest, c ∈ data :=
      fun c hc => hd c (List.mem_append_right _ (List.mem_cons_of_mem _ hc))
    rcases matchChar_pair_cases rest ';' '?' with ⟨hvalue, -, hmatch⟩ |
      ⟨value, a, rest', hvalue, -, ha, rfl, hmatch⟩
    · rw [hmatch]
      exact ih (by simp) (hstep _ _ _ hkey hvalue hkeymem hrest hs)
    · rw [hmatch]
      have hne : a ≠ '?' := by
        rintro rfl
        exact hquestion (hrest _ (by simp))
      have hvaluemem : ∀ c ∈ value, c ∈ data := fun c hc => hrest c (List.mem_append_left _ hc)
      simp only
      rw [if_neg hne]
      exact ih (fun c hc => hrest c (List.mem_append_right _ (List.mem_cons_of_mem _ hc)))
        (hstep _ _ _ hkey hvalue hkeymem hvaluemem hs)

theorem parseParams_of_no_equal {fuel : Nat} {s : Scan} {d : Data} (h : '=' ∉ d) :
    parseParams fuel s d = (s, d) := by
  cases fuel with
  | zero => rfl
  | succ fuel =>
    rw [parseParams, matchChar_not_found h]

/-- What is left in the text after the parameters, as it is written. -/
def leftText (left : Data) : Data := if left ≠ [] then ';' :: left else []

theorem parseParams_sections {key value : Data} {items : List (Data × Data)} {left : Data}
    (hread : ∀ i ∈ (key, value) :: items, Readable i ∧ '?' ∉ i.2) (hleft : '=' ∉ left) {fuel : Nat} (s : Scan)
    (hfuel : (key ++ '=' :: value ++ items.flatMap sect ++ leftText left).length ≤ fuel) :
    parseParams fuel s (key ++ '=' :: value ++ items.flatMap sect ++ leftText left) =
      (((key, value) :: items).foldl (fun s i => parseParam s (removeSpaces i.1) i.2 true) s, left) := by
  induction items generalizing key value fuel s with
  | nil =>
    obtain ⟨⟨hkey, hvalue⟩, hquestion⟩ := hread _ (List.mem_cons_self ..)
    rw [List.flatMap_nil, List.append_nil] at hfuel ⊢
    obtain ⟨fuel, rfl⟩ := Nat.exists_eq_add_of_lt (show 0 < fuel by simp at hfuel; omega)
    rw [Nat.zero_add, List.append_assoc, List.cons_append, parseParams, matchChar_found hkey]
    simp only
    by_cases hnil : left = []
    · rw [hnil, leftText, if_neg (by simp), List.append_nil, matchChar_pair_not_found hvalue hquestion]
      simp only
      rw [parseParams_of_no_equal (by simp)]
      rfl
    · rw [leftText, if_pos hnil, matchChar_pair_found hvalue hquestion (Or.inl rfl)]
      simp only
      rw [if_neg (by decide), parseParams_of_no_equal hleft]
      rfl
  | cons i items ih =>
    obtain ⟨⟨hkey, hvalue⟩, hquestion⟩ := hread _ (List.mem_cons_self ..)
    have htext : key ++ '=' :: value ++ (i :: items).flatMap sect ++ leftText left =
        key ++ '=' :: (value ++ ';' :: (i.1 ++ '=' :: i.2 ++ items.flatMap sect ++ leftText left)) := by
      simp [sect]
    rw [htext] at hfuel ⊢
    have hlen : (i.1 ++ '=' :: i.2 ++ items.flatMap sect ++ leftText left).length + 1 ≤ fuel := by
      simp at hfuel ⊢
      omega
    obtain ⟨fuel, rfl⟩ := Nat.exists_eq_add_of_lt (show 0 < fuel by omega)
    rw [Nat.zero_add, parseParams, matchChar_found hkey]
    simp only
    rw [matchChar_pair_found hvalue hquestion (Or.inl rfl)]
    simp only
    rw [if_neg (by decide), ih (fun j hj => hread j (List.mem_cons_of_mem _ hj)) _ (by omega)]
    rfl

end SipUrl

end Vocal.Sip.Url
