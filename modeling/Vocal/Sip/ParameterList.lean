import Mathlib.Data.Char
import Mathlib.Data.List.Lex
import Vocal.Sip.Content.Headers

/-!
# Parameter lists

`SipParameterList` with any delimiter. `decode` goes over the text once: `scan` says which parameters it finds, those
that a delimiter ends and the one behind the last delimiter, whose value is kept as it is; they are stored one after
another in a map. A text holds no NUL, as those of a decoded message.
-/

namespace Vocal.Sip

theorem strLess_iff {x y : Data} : strLess x y = true ↔ x < y := by
  induction x generalizing y with
  | nil =>
    cases y with
    | nil => exact iff_of_false (by decide) (lt_irrefl _)
    | cons b y => exact iff_of_true rfl List.Lex.nil
  | cons a x ih =>
    cases y with
    | nil => exact iff_of_false Bool.false_ne_true (fun h => by cases h)
    | cons b y =>
      rw [strLess]
      by_cases hab : a = b
      · rw [if_pos hab, ih, hab]
        constructor
        · exact List.Lex.cons
        · intro h
          cases h with
          | cons h => exact h
          | rel h => exact absurd h (lt_irrefl b)
      · rw [if_neg hab, decide_eq_true_eq]
        constructor
        · exact fun h => List.Lex.rel (show a < b from h)
        · intro h
          cases h with
          | cons h => exact absurd rfl hab
          | rel h => exact h

namespace SipParameterList

/-! ### The code -/

/-- `SipParameterList::encode`, with the delimiter of the list. -/
def encodeWith (delimiter : Char) (l : SipParameterList) : Data :=
  ([delimiter] : Data).intercalate ((l.filter (·.1 ≠ [])).map encodeItem)

/-- A value that is done with. -/
def eaten (eatWhitespace : Bool) (value : Data) : Data := if eatWhitespace then value.removeSpaces else value

/-- The loop of `SipParameterList::decode`; the key and the value are those read so far. -/
def decodeLoopWith (delimiter : Char) (eatWhitespace : Bool) :
    SipParameterList → (key value : Data) → (inVal inQuotes : Bool) → Data → SipParameterList
  | l, key, value, _, _, [] => if key ≠ [] then l.setValue key value else l
  | l, key, value, false, inQuotes, c :: d =>
    if isspace c then decodeLoopWith delimiter eatWhitespace l key value false inQuotes d
    else if c = '=' then decodeLoopWith delimiter eatWhitespace l key value true inQuotes d
    else if c = delimiter then decodeLoopWith delimiter eatWhitespace (l.setValue key []) [] value false inQuotes d
    else decodeLoopWith delimiter eatWhitespace l (key ++ [c.toLower]) value false inQuotes d
  | l, key, value, true, inQuotes, c :: d =>
    if c = '"' then decodeLoopWith delimiter eatWhitespace l key (value ++ [c]) true (!inQuotes) d
    else if c = delimiter && !inQuotes then
      decodeLoopWith delimiter eatWhitespace (l.setValue key (eaten eatWhitespace value)) [] [] false inQuotes d
    else decodeLoopWith delimiter eatWhitespace l key (value ++ [c]) true inQuotes d

/-- `SipParameterList::decode` of a new list. -/
def decodeWith (delimiter : Char) (eatWhitespace : Bool) (data : Data) : SipParameterList :=
  decodeLoopWith delimiter eatWhitespace [] [] [] false false data

theorem encodeWith_semicolon (l : SipParameterList) : encodeWith ';' l = encode l := rfl

theorem decodeLoopWith_semicolon (l : SipParameterList) (key value : Data) (inVal inQuotes : Bool) (d : Data) :
    decodeLoopWith ';' true l key value inVal inQuotes d = decodeLoop l key value inVal inQuotes d := by
  fun_induction decodeLoop l key value inVal inQuotes d <;> simp_all [decodeLoopWith, eaten]

/-! ### Parameters of a text -/

/-- The parameters that a delimiter ends, and the one behind the last delimiter. -/
def scan (delimiter : Char) : (key value : Data) → (inVal inQuotes : Bool) → Data → List (Data × Data) × (Data × Data)
  | key, value, _, _, [] => ([], (key, value))
  | key, value, false, inQuotes, c :: d =>
    if isspace c then scan delimiter key value false inQuotes d
    else if c = '=' then scan delimiter key value true inQuotes d
    else if c = delimiter then
      let more := scan delimiter [] value false inQuotes d
      ((key, []) :: more.1, more.2)
    else scan delimiter (key ++ [c.toLower]) value false inQuotes d
  | key, value, true, inQuotes, c :: d =>
    if c = '"' then scan delimiter key (value ++ [c]) true (!inQuotes) d
    else if c = delimiter && !inQuotes then
      let more := scan delimiter [] [] false inQuotes d
      ((key, value) :: more.1, more.2)
    else scan delimiter key (value ++ [c]) true inQuotes d

/-- What is stored for the parameters, in their order. -/
def stores (eatWhitespace : Bool) (found : List (Data × Data) × (Data × Data)) : List (Data × Data) :=
  found.1.map (fun p => (p.1, eaten eatWhitespace p.2)) ++ if found.2.1 ≠ [] then [found.2] else []

/-- Stores parameters one after another. -/
def storeAll (l : SipParameterList) (params : List (Data × Data)) : SipParameterList :=
  params.foldl (fun l p => l.setValue p.1 p.2) l

variable {delimiter : Char} {eatWhitespace : Bool}

theorem eaten_nil (eatWhitespace : Bool) : eaten eatWhitespace [] = [] := by
  cases eatWhitespace <;> rfl

theorem decodeLoopWith_eq (l : SipParameterList) {key value : Data} {inVal : Bool} (hvalue : inVal = false → value = [])
    (inQuotes : Bool) (d : Data) :
    decodeLoopWith delimiter eatWhitespace l key value inVal inQuotes d =
      l.storeAll (stores eatWhitespace (scan delimiter key value inVal inQuotes d)) := by
  induction d generalizing l key value inVal inQuotes with
  | nil =>
    rw [decodeLoopWith, scan, stores]
    by_cases hkey : key = [] <;> simp [hkey, storeAll]
  | cons c d ih =>
    cases inVal with
    | false =>
      obtain rfl := hvalue rfl
      rw [decodeLoopWith, scan]
      split_ifs
      · exact ih l (fun _ => rfl) inQuotes
      · exact ih l (fun h => by cases h) inQuotes
      · rw [ih _ (fun _ => rfl)]
        simp [stores, storeAll, eaten_nil]
      · exact ih l (fun _ => rfl) inQuotes
    | true =>
      rw [decodeLoopWith, scan]
      split_ifs
      · exact ih l (fun h => by cases h) _
      · rw [ih _ (fun _ => rfl)]
        simp [stores, storeAll]
      · exact ih l (fun h => by cases h) _

theorem decodeWith_eq (d : Data) :
    decodeWith delimiter eatWhitespace d = storeAll [] (stores eatWhitespace (scan delimiter [] [] false false d)) :=
  decodeLoopWith_eq [] (fun _ => rfl) false d

/-! ### Maps in the order of their keys -/

/-- The keys of a map ascend. -/
def Ascending (l : SipParameterList) : Prop := l.Pairwise (·.1 < ·.1)

variable {l : SipParameterList} {key value : Data} {p : Data × Data} {params : List (Data × Data)}

theorem mem_setValue (h : l.Ascending) : p ∈ l.setValue key value ↔ p = (key, value) ∨ p ∈ l ∧ p.1 ≠ key := by
  induction l with
  | nil => simp [setValue]
  | cons a l ih =>
    obtain ⟨k, v⟩ := a
    obtain ⟨hless, hrest⟩ := List.pairwise_cons.mp h
    rw [setValue]
    split_ifs with hk hlt
    · have hne : p ∈ l → p.1 ≠ key := fun hp => hk ▸ (hless p hp).ne'
      rw [List.mem_cons, List.mem_cons]
      constructor
      · rintro (rfl | hp)
        · exact Or.inl rfl
        · exact Or.inr ⟨Or.inr hp, hne hp⟩
      · rintro (rfl | ⟨rfl | hp, hpk⟩)
        · exact Or.inl rfl
        · exact absurd hk hpk
        · exact Or.inr hp
    · have hlt' : key < k := strLess_iff.mp hlt
      have hne : p ∈ (k, v) :: l → p.1 ≠ key := by
        intro hp
        rcases List.mem_cons.mp hp with rfl | hp
        · exact hlt'.ne'
        · exact (hlt'.trans (hless p hp)).ne'
      rw [List.mem_cons]
      exact or_congr_right ⟨fun hp => ⟨hp, hne hp⟩, fun hp => hp.1⟩
    · rw [List.mem_cons, ih hrest, List.mem_cons]
      constructor
      · rintro (rfl | rfl | ⟨hp, hpk⟩)
        · exact Or.inr ⟨Or.inl rfl, hk⟩
        · exact Or.inl rfl
        · exact Or.inr ⟨Or.inr hp, hpk⟩
      · rintro (rfl | ⟨rfl | hp, hpk⟩)
        · exact Or.inr (Or.inl rfl)
        · exact Or.inl rfl
        · exact Or.inr (Or.inr ⟨hp, hpk⟩)

theorem Ascending.setValue (h : l.Ascending) : (l.setValue key value).Ascending := by
  induction l with
  | nil => exact List.pairwise_singleton ..
  | cons a l ih =>
    obtain ⟨k, v⟩ := a
    obtain ⟨hless, hrest⟩ := List.pairwise_cons.mp h
    rw [SipParameterList.setValue]
    split_ifs with hk hlt
    · exact List.pairwise_cons.mpr ⟨hk ▸ hless, hrest⟩
    · have hlt' : key < k := strLess_iff.mp hlt
      refine List.pairwise_cons.mpr ⟨fun q hq => ?_, h⟩
      rcases List.mem_cons.mp hq with rfl | hq
      · exact hlt'
      · exact hlt'.trans (hless q hq)
    · refine List.pairwise_cons.mpr ⟨fun q hq => ?_, ih hrest⟩
      rcases (mem_setValue hrest).mp hq with rfl | ⟨hq, -⟩
      · exact lt_of_le_of_ne (not_lt.mp fun h => hlt (strLess_iff.mpr h)) hk
      · exact hless q hq

theorem setValue_append (h : ∀ p ∈ l, p.1 < key) : l.setValue key value = l ++ [(key, value)] := by
  induction l with
  | nil => rfl
  | cons a l ih =>
    obtain ⟨k, v⟩ := a
    have hk : k < key := h (k, v) (List.mem_cons_self ..)
    rw [SipParameterList.setValue, if_neg hk.ne, if_neg (fun hlt => hk.asymm (strLess_iff.mp hlt)),
      ih fun q hq => h q (List.mem_cons_of_mem _ hq)]
    rfl

theorem storeAll_concat (params : List (Data × Data)) (p : Data × Data) :
    storeAll l (params ++ [p]) = (storeAll l params).setValue p.1 p.2 := by
  rw [storeAll, List.foldl_append]
  rfl

theorem ascending_storeAll (params : List (Data × Data)) : (storeAll [] params).Ascending := by
  induction params using List.reverseRecOn with
  | nil => exact List.Pairwise.nil
  | append_singleton params p ih =>
    rw [storeAll_concat]
    exact ih.setValue

theorem mem_storeAll :
    p ∈ storeAll [] params ↔ ∃ before after, params = before ++ p :: after ∧ ∀ q ∈ after, q.1 ≠ p.1 := by
  induction params using List.reverseRecOn with
  | nil => simp [storeAll]
  | append_singleton params a ih =>
    rw [storeAll_concat, mem_setValue (ascending_storeAll params), ih]
    constructor
    · rintro (rfl | ⟨⟨before, after, rfl, hafter⟩, hne⟩)
      · exact ⟨params, [], rfl, by simp⟩
      · refine ⟨before, after ++ [a], by simp, fun q hq => ?_⟩
        rcases List.mem_append.mp hq with hq | hq
        · exact hafter q hq
        · rw [List.mem_singleton.mp hq]
          exact hne.symm
    · rintro ⟨before, after, heq, hafter⟩
      rcases List.eq_nil_or_concat after with rfl | ⟨after, b, rfl⟩
      · obtain ⟨-, hp⟩ := List.append_inj' heq rfl
        exact Or.inl (List.singleton_injective hp).symm
      · rw [List.concat_eq_append] at heq hafter
        rw [← List.cons_append, ← List.append_assoc] at heq
        obtain ⟨hparams, hb⟩ := List.append_inj' heq rfl
        obtain rfl : a = b := List.singleton_injective hb
        exact Or.inr ⟨⟨before, after, hparams, fun q hq => hafter q (List.mem_append_left _ hq)⟩,
          (hafter a (by simp)).symm⟩

theorem storeAll_of_ascending (h : Ascending params) : storeAll [] params = params := by
  induction params using List.reverseRecOn with
  | nil => rfl
  | append_singleton params p ih =>
    obtain ⟨hparams, -, hless⟩ := List.pairwise_append.mp h
    rw [storeAll_concat, ih hparams, setValue_append fun q hq => hless q hq p (List.mem_singleton_self p)]

end SipParameterList

end Vocal.Sip
