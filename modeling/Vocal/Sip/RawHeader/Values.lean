import Vocal.Sip.RawHeader
import Vocal.Sip.Text.Match

/-!
# Values and commas

`splitValues` cuts the text of a header line at the commas outside quotes and brackets; `joinValues`
is what `SipRawHeader::encode` writes for the values of a list. `splitValues_joinValues_iff` says
exactly when the values come back.
-/

namespace Vocal.Sip

open Cut Data

namespace Nesting

theorem next_comma (n : Nesting) : n.next ',' = n := by
  simp [next]

end Nesting

/-- No comma of the text is outside quotes and brackets. -/
def NoOuterComma (v : Data) : Prop := cutOutside ",".toList .outside v = none

/-- The text closes its quotes and brackets. -/
def Closed (v : Data) : Prop := Nesting.outside.after v = .outside

theorem cutOutside_append {m x : Data} {n : Nesting} (hx : cutOutside m n x = none) (d : Data) :
    cutOutside m n (x ++ d) = (cutOutside m (n.after x) d).map fun p => (x ++ p.1, p.2) := by
  induction x generalizing n with
  | nil => simp [Nesting.after]
  | cons c x ih =>
    rw [cutOutside] at hx
    rw [List.cons_append, cutOutside]
    split at hx
    · cases hx
    · rename_i hc
      rw [if_neg hc, ih (Option.map_eq_none_iff.mp hx), Option.map_map]
      rfl

theorem cutOutside_eq_some {m d x y : Data} {n : Nesting} (h : cutOutside m n d = some (x, y)) :
    ∃ c, d = x ++ c :: y ∧ cutOutside m n x = none ∧ (n.after x).next c = .outside ∧ isIn c m := by
  induction d generalizing n x with
  | nil => cases h
  | cons c d ih =>
    rw [cutOutside] at h
    split at h
    · rename_i hc
      rw [Option.some.injEq, Prod.mk.injEq] at h
      obtain ⟨rfl, rfl⟩ := h
      rw [Bool.and_eq_true, decide_eq_true_eq] at hc
      exact ⟨c, rfl, rfl, hc.1, hc.2⟩
    · rename_i hc
      obtain ⟨⟨x', y'⟩, hcut, heq⟩ := Option.map_eq_some_iff.mp h
      simp only [Prod.mk.injEq] at heq
      obtain ⟨rfl, rfl⟩ := heq
      obtain ⟨c', rfl, hnone, hnext, hin⟩ := ih hcut
      refine ⟨c', rfl, ?_, hnext, hin⟩
      rw [cutOutside, if_neg hc, hnone]
      rfl

theorem cutOutside_comma {d x y : Data} (h : cutOutside ",".toList .outside d = some (x, y)) :
    d = x ++ ',' :: y ∧ NoOuterComma x ∧ Closed x := by
  obtain ⟨c, rfl, hnone, hnext, hin⟩ := cutOutside_eq_some h
  obtain rfl : c = ',' := by simpa [isIn] using hin
  rw [Nesting.next_comma] at hnext
  exact ⟨rfl, hnone, hnext⟩

theorem cutOutside_of_closed {x : Data} (hx : NoOuterComma x) (hc : Closed x) (y : Data) :
    cutOutside ",".toList .outside (x ++ ',' :: y) = some (x, y) := by
  rw [cutOutside_append hx, hc, cutOutside, Nesting.next_comma]
  simp [isIn]

theorem NoOuterComma.head_ne {v : Data} (h : NoOuterComma v) : v.head? ≠ some ',' := by
  intro hv
  obtain ⟨v', rfl⟩ : ∃ v', v = ',' :: v' := by
    cases v with
    | nil => cases hv
    | cons c v => exact ⟨v, by simpa using hv⟩
  rw [NoOuterComma, cutOutside, Nesting.next_comma] at h
  simp [isIn] at h

/-! ### Splitting -/

theorem length_parseOutsideQuotes {d found tmp : Data}
    (h : d.parseOutsideQuotes ",".toList = some (found, tmp)) : found.length + tmp.length < d.length := by
  obtain ⟨⟨x, y⟩, hcut, heq⟩ := Option.map_eq_some_iff.mp h
  simp only [Prod.mk.injEq] at heq
  obtain ⟨rfl, rfl⟩ := heq
  obtain ⟨rfl, -, -⟩ := cutOutside_comma hcut
  have hdrop := (List.dropWhile_suffix (l := y) (isIn · ",".toList)).length_le
  simp only [List.length_append, List.length_cons]
  omega

theorem splitLoop_fuel {fuel fuel' : Nat} {v : Data} (h : v.length < fuel) (h' : v.length < fuel') :
    splitLoop fuel v = splitLoop fuel' v := by
  induction fuel generalizing fuel' v with
  | zero => omega
  | succ fuel ih =>
    cases fuel' with
    | zero => omega
    | succ fuel' =>
      rw [splitLoop, splitLoop]
      cases hp : v.parseOutsideQuotes ",".toList with
      | none => rfl
      | some p =>
        obtain ⟨found, tmp⟩ := p
        have hlen := length_parseOutsideQuotes hp
        have htrim := length_trim_le (p := fun c : Char => decide (c = ' ')) tmp
        have hspaces : tmp.removeSpaces.length ≤ tmp.length := htrim
        simp only
        rw [ih (by omega : tmp.length < fuel) (by omega : tmp.length < fuel'),
          ih (by omega : tmp.removeSpaces.length < fuel) (by omega : tmp.removeSpaces.length < fuel')]

theorem splitValues_eq_singleton {v : Data} (h : NoOuterComma v) : splitValues v = [v] := by
  have hp : v.parseOutsideQuotes ",".toList = none := by
    rw [Data.parseOutsideQuotes, h]
    rfl
  rw [splitValues, splitLoop, hp]

theorem splitValues_comma {v found tmp : Data} (h : v.parseOutsideQuotes ",".toList = some (found, tmp)) :
    splitValues v = if found ≠ [] then found :: splitValues tmp.removeSpaces else splitValues tmp := by
  have hlen := length_parseOutsideQuotes h
  have hspaces : tmp.removeSpaces.length ≤ tmp.length := length_trim_le tmp
  rw [splitValues, splitLoop, h]
  simp only
  rw [splitLoop_fuel (by omega : tmp.length < v.length) (Nat.lt_succ_self tmp.length),
    splitLoop_fuel (by omega : tmp.removeSpaces.length < v.length) (Nat.lt_succ_self _)]
  rfl

theorem splitValues_cases (v : Data) :
    (NoOuterComma v ∧ splitValues v = [v]) ∨
      ∃ found rest, v = found ++ ',' :: rest ∧ NoOuterComma found ∧ Closed found ∧
        splitValues v =
          if found ≠ [] then found :: splitValues (Data.removeSpaces (rest.dropWhile (isIn · ",".toList)))
          else splitValues (rest.dropWhile (isIn · ",".toList)) := by
  cases h : cutOutside ",".toList .outside v with
  | none => exact Or.inl ⟨h, splitValues_eq_singleton h⟩
  | some p =>
    obtain ⟨found, rest⟩ := p
    obtain ⟨hv, hnone, hclosed⟩ := cutOutside_comma h
    refine Or.inr ⟨found, rest, hv, hnone, hclosed, splitValues_comma ?_⟩
    rw [Data.parseOutsideQuotes, h]
    rfl

/-- An induction along the cuts: what follows the first comma comes before the whole. -/
theorem splitValues_induction {motive : Data → Prop}
    (single : ∀ v, NoOuterComma v → splitValues v = [v] → motive v)
    (comma : ∀ v found rest, v = found ++ ',' :: rest → NoOuterComma found → Closed found →
      (∀ w, w.length ≤ rest.length → motive w) →
      splitValues v = (if found ≠ [] then
          found :: splitValues (Data.removeSpaces (rest.dropWhile (isIn · ",".toList)))
        else splitValues (rest.dropWhile (isIn · ",".toList))) → motive v) (v : Data) : motive v := by
  induction hn : v.length using Nat.strong_induction_on generalizing v with
  | _ n ih =>
    rcases splitValues_cases v with ⟨hnone, hsplit⟩ | ⟨found, rest, hv, hnone, hclosed, hsplit⟩
    · exact single v hnone hsplit
    · refine comma v found rest hv hnone hclosed ?_ hsplit
      intro w hw
      refine ih w.length ?_ w rfl
      rw [← hn, hv, List.length_append, List.length_cons]
      omega

theorem length_dropWhile_le (p : Char → Bool) (d : Data) : (d.dropWhile p).length ≤ d.length :=
  (List.dropWhile_suffix p).length_le

theorem length_removeSpaces_le (d : Data) : d.removeSpaces.length ≤ d.length := length_trim_le d

theorem mem_of_mem_removeSpaces_dropWhile {p : Char → Bool} {d : Data} {c : Char}
    (h : c ∈ Data.removeSpaces (d.dropWhile p)) : c ∈ d :=
  (List.dropWhile_suffix p).subset (mem_of_mem_trim h)

theorem mem_splitValues {v p : Data} (h : p ∈ splitValues v) : NoOuterComma p ∧ ∀ c ∈ p, c ∈ v := by
  induction v using splitValues_induction generalizing p with
  | single v hnone hsplit =>
    rw [hsplit, List.mem_singleton] at h
    subst h
    exact ⟨hnone, fun _ hc => hc⟩
  | comma v found rest hv hnone _ ih hsplit =>
    subst hv
    rw [hsplit] at h
    split at h
    · rcases List.mem_cons.mp h with rfl | h
      · exact ⟨hnone, fun c hc => List.mem_append_left _ hc⟩
      · obtain ⟨hp, hmem⟩ := ih _ ((length_removeSpaces_le _).trans (length_dropWhile_le _ _)) h
        refine ⟨hp, ?_⟩
        intro c hc
        apply List.mem_append_right
        apply List.mem_cons_of_mem
        exact mem_of_mem_removeSpaces_dropWhile (hmem c hc)
    · obtain ⟨hp, hmem⟩ := ih _ (length_dropWhile_le _ _) h
      refine ⟨hp, ?_⟩
      intro c hc
      apply List.mem_append_right
      apply List.mem_cons_of_mem
      exact (List.dropWhile_suffix _).subset (hmem c hc)

/-- The values with a separator each. -/
def weight (vs : List Data) : Nat := (vs.map (·.length + 1)).sum

@[simp] theorem weight_cons (v : Data) (vs : List Data) : weight (v :: vs) = v.length + 1 + weight vs := by
  simp [weight]

@[simp] theorem weight_nil : weight [] = 0 := rfl

/-- Splitting adds no text. -/
theorem weight_splitValues_le (v : Data) : weight (splitValues v) ≤ v.length + 1 := by
  induction v using splitValues_induction with
  | single v hnone hsplit => simp [hsplit]
  | comma v found rest hv hnone _ ih hsplit =>
    have hdrop := length_dropWhile_le (isIn · ",".toList) rest
    have hspaces := length_removeSpaces_le (rest.dropWhile (isIn · ",".toList))
    have hvlen : v.length = found.length + (rest.length + 1) := by
      rw [hv, List.length_append, List.length_cons]
    rw [hsplit]
    split
    · have := ih _ (hspaces.trans hdrop)
      rw [weight_cons]
      omega
    · have := ih _ hdrop
      omega

/-! ### Joining -/

/-- The values of a list as `SipRawHeader::encode` writes them; only the first may be empty. -/
def joinValues : List Data → Data
  | [] => []
  | v :: vs => v ++ vs.flatMap fun w => if w ≠ [] then ',' :: w else []

theorem joinValues_cons {v w : Data} (hw : w ≠ []) (vs : List Data) :
    joinValues (v :: w :: vs) = v ++ ',' :: joinValues (w :: vs) := by
  simp [joinValues, hw]

theorem length_joinValues_le (v : Data) (vs : List Data) :
    (joinValues (v :: vs)).length + 1 ≤ weight (v :: vs) := by
  induction vs generalizing v with
  | nil => simp [joinValues]
  | cons w vs ih =>
    by_cases hw : w = []
    · have h := ih v
      have hskip : joinValues (v :: w :: vs) = joinValues (v :: vs) := by simp [joinValues, hw]
      rw [hskip, weight_cons, weight_cons]
      rw [weight_cons] at h
      omega
    · have h := ih w
      rw [joinValues_cons hw, weight_cons, List.length_append, List.length_cons]
      omega

theorem ne_nil_of_length_joinValues {v : Data} {vs : List Data}
    (h : weight (v :: vs) ≤ (joinValues (v :: vs)).length + 1) : ∀ w ∈ vs, w ≠ [] := by
  induction vs generalizing v with
  | nil =>
    intro w hw
    cases hw
  | cons u vs ih =>
    by_cases hu : u = []
    · have hskip : joinValues (v :: u :: vs) = joinValues (v :: vs) := by simp [joinValues, hu]
      have hle := length_joinValues_le v vs
      rw [hskip] at h
      simp only [weight_cons] at h hle
      omega
    · rw [joinValues_cons hu, weight_cons, List.length_append, List.length_cons] at h
      have htail := ih (v := u) (by omega)
      intro w hw
      rcases List.mem_cons.mp hw with rfl | hw
      · exact hu
      · exact htail w hw

theorem length_joinValues {v : Data} {vs : List Data} (h : ∀ w ∈ vs, w ≠ []) :
    weight (v :: vs) = (joinValues (v :: vs)).length + 1 := by
  induction vs generalizing v with
  | nil => simp [joinValues]
  | cons u vs ih =>
    have hu := ih (v := u) fun w hw => h w (List.mem_cons_of_mem _ hw)
    rw [joinValues_cons (h u (List.mem_cons_self ..)), weight_cons, List.length_append, List.length_cons]
    omega

theorem head?_joinValues {v : Data} (hv : v ≠ []) (vs : List Data) :
    (joinValues (v :: vs)).head? = v.head? := head?_of_append hv

/-- What values after the first need to come back from the text of a list. -/
structure TailOk (vs : List Data) : Prop where
  ne_nil : ∀ v ∈ vs, v ≠ []
  head : ∀ v ∈ vs, v.head? ≠ some ' '
  last : ∀ v ∈ vs.getLast?, v.getLast? ≠ some ' '
  closed : ∀ v ∈ vs.dropLast, Closed v

/-- What the values of a list need to come back: the first does not begin like the end of a name and,
where there are several, none is empty, the others do not begin with a space, the last does not end
with one, and all but the last close their quotes and brackets. -/
structure Joinable (vs : List Data) : Prop where
  first : ∀ v ∈ vs.head?, ∀ c ∈ v.head?, isIn c SipRawHeader.nameEnd = false
  ne_nil : 2 ≤ vs.length → ∀ v ∈ vs, v ≠ []
  head : ∀ v ∈ vs.tail, v.head? ≠ some ' '
  last : 2 ≤ vs.length → ∀ v ∈ vs.getLast?, v.getLast? ≠ some ' '
  closed : ∀ v ∈ vs.dropLast, Closed v

theorem joinable_cons_cons_iff {v w : Data} {vs : List Data} :
    Joinable (v :: w :: vs) ↔ (∀ c ∈ v.head?, isIn c SipRawHeader.nameEnd = false) ∧ v ≠ [] ∧ Closed v ∧
      TailOk (w :: vs) := by
  constructor
  · intro h
    have hlen : 2 ≤ (v :: w :: vs).length := by simp
    have hne := h.ne_nil hlen
    have hclosed := h.closed
    rw [List.dropLast_cons_of_ne_nil (by simp)] at hclosed
    refine ⟨h.first v rfl, hne v (List.mem_cons_self ..), hclosed v (List.mem_cons_self ..), ?_, h.head, ?_, ?_⟩
    · intro u hu
      exact hne u (List.mem_cons_of_mem _ hu)
    · have hlast := h.last hlen
      rwa [List.getLast?_cons_cons] at hlast
    · intro u hu
      exact hclosed u (List.mem_cons_of_mem _ hu)
  · rintro ⟨hfirst, hv, hclosed, htail⟩
    refine ⟨?_, ?_, htail.head, ?_, ?_⟩
    · intro u hu
      obtain rfl : v = u := by simpa using hu
      exact hfirst
    · intro _ u hu
      rcases List.mem_cons.mp hu with rfl | hu
      · exact hv
      · exact htail.ne_nil u hu
    · intro _
      rw [List.getLast?_cons_cons]
      exact htail.last
    · rw [List.dropLast_cons_of_ne_nil (by simp)]
      intro u hu
      rcases List.mem_cons.mp hu with rfl | hu
      · exact hclosed
      · exact htail.closed u hu

theorem tailOk_cons_cons_iff {v w : Data} {vs : List Data} :
    TailOk (v :: w :: vs) ↔ v ≠ [] ∧ v.head? ≠ some ' ' ∧ Closed v ∧ TailOk (w :: vs) := by
  constructor
  · intro h
    have hclosed := h.closed
    have hlast := h.last
    rw [List.dropLast_cons_of_ne_nil (by simp)] at hclosed
    rw [List.getLast?_cons_cons] at hlast
    refine ⟨h.ne_nil v (List.mem_cons_self ..), h.head v (List.mem_cons_self ..),
      hclosed v (List.mem_cons_self ..), ?_, ?_, hlast, ?_⟩
    · intro u hu
      exact h.ne_nil u (List.mem_cons_of_mem _ hu)
    · intro u hu
      exact h.head u (List.mem_cons_of_mem _ hu)
    · intro u hu
      exact hclosed u (List.mem_cons_of_mem _ hu)
  · rintro ⟨hv, hhead, hclosed, htail⟩
    refine ⟨?_, ?_, ?_, ?_⟩
    · intro u hu
      rcases List.mem_cons.mp hu with rfl | hu
      · exact hv
      · exact htail.ne_nil u hu
    · intro u hu
      rcases List.mem_cons.mp hu with rfl | hu
      · exact hhead
      · exact htail.head u hu
    · rw [List.getLast?_cons_cons]
      exact htail.last
    · rw [List.dropLast_cons_of_ne_nil (by simp)]
      intro u hu
      rcases List.mem_cons.mp hu with rfl | hu
      · exact hclosed
      · exact htail.closed u hu

/-! ### Splitting what was joined -/

theorem splitValues_cons_iff {v w : Data} {vs : List Data} (hv : NoOuterComma v) (hw : NoOuterComma w)
    (hne : ∀ u ∈ w :: vs, u ≠ []) :
    splitValues (joinValues (v :: w :: vs)) = v :: w :: vs ↔
      v ≠ [] ∧ Closed v ∧ TrimmedOfSpaces (joinValues (w :: vs)) ∧
        splitValues (joinValues (w :: vs)) = w :: vs := by
  have hwne : w ≠ [] := hne w (List.mem_cons_self ..)
  have hlen := length_joinValues (v := w) fun u hu => hne u (List.mem_cons_of_mem _ hu)
  rw [joinValues_cons hwne]
  generalize hrest : joinValues (w :: vs) = rest at *
  constructor
  · intro h
    have hweight : weight (v :: w :: vs) = (v ++ ',' :: rest).length + 1 := by
      rw [weight_cons, hlen, List.length_append, List.length_cons]
      omega
    rcases splitValues_cases (v ++ ',' :: rest) with ⟨-, hsplit⟩ | ⟨found, rest', heq, -, hclosed, hsplit⟩
    · rw [h] at hsplit
      simp at hsplit
    · have hdrop := length_dropWhile_le (isIn · ",".toList) rest'
      have hspaces := length_removeSpaces_le (rest'.dropWhile (isIn · ",".toList))
      by_cases hfound : found = []
      · -- a text that begins with a comma loses it
        rw [if_neg (not_not.mpr hfound)] at hsplit
        have hle := weight_splitValues_le (rest'.dropWhile (isIn · ",".toList))
        rw [← hsplit, h, hweight, heq, List.length_append, List.length_cons] at hle
        omega
      · rw [if_pos hfound, h, List.cons.injEq] at hsplit
        obtain ⟨rfl, htail⟩ := hsplit
        obtain rfl : rest = rest' := by simpa using heq
        have hle := weight_splitValues_le (Data.removeSpaces (rest.dropWhile (isIn · ",".toList)))
        rw [← htail, hlen] at hle
        have hsame : rest.dropWhile (isIn · ",".toList) = rest :=
          (List.dropWhile_suffix _).eq_of_length (by omega)
        rw [hsame] at htail hle
        have htrimmed : TrimmedOfSpaces rest := trimmed_of_length (by simpa [Data.removeSpaces] using hle)
        refine ⟨hfound, hclosed, htrimmed, ?_⟩
        rw [Data.removeSpaces, trim_eq_self htrimmed] at htail
        exact htail.symm
  · rintro ⟨hvne, hclosed, htrimmed, hsplit⟩
    have hcomma : ∀ c ∈ rest.head?, isIn c ",".toList = false := by
      intro c hc
      rw [← hrest, head?_joinValues hwne] at hc
      have hne := hw.head_ne
      rw [Option.mem_def.mp hc] at hne
      simpa [isIn] using hne
    have hparse : Data.parseOutsideQuotes (v ++ ',' :: rest) ",".toList = some (v, rest) := by
      rw [Data.parseOutsideQuotes, cutOutside_of_closed hv hclosed, Option.map_some,
        dropWhile_eq_self_of_head hcomma]
    rw [splitValues_comma hparse, if_pos hvne, Data.removeSpaces, trim_eq_self htrimmed, hsplit]

theorem getLast?_joinValues_cons {w : Data} (hw : w ≠ []) (v : Data) (vs : List Data) :
    (joinValues (v :: w :: vs)).getLast? = (joinValues (w :: vs)).getLast? := by
  rw [joinValues_cons hw, List.getLast?_append, List.getLast?_cons]
  cases hlast : (joinValues (w :: vs)).getLast? with
  | none =>
    rw [List.getLast?_eq_none_iff] at hlast
    have hhead := head?_joinValues hw vs
    rw [hlast] at hhead
    exact absurd (List.head?_eq_none_iff.mp hhead.symm) hw
  | some c => simp

theorem splitValues_tail_iff {w : Data} {vs : List Data} (hcomma : ∀ u ∈ w :: vs, NoOuterComma u)
    (hne : ∀ u ∈ w :: vs, u ≠ []) :
    TrimmedOfSpaces (joinValues (w :: vs)) ∧ splitValues (joinValues (w :: vs)) = w :: vs ↔
      TailOk (w :: vs) := by
  induction vs generalizing w with
  | nil =>
    have hw := hcomma w (List.mem_cons_self ..)
    have hjoin : joinValues [w] = w := by simp [joinValues]
    rw [hjoin, splitValues_eq_singleton hw, trimmedOfSpaces_iff]
    constructor
    · rintro ⟨⟨hhead, hlast⟩, -⟩
      exact ⟨hne, by simpa using hhead, by simpa using hlast, by simp⟩
    · intro h
      exact ⟨⟨h.head w (List.mem_cons_self ..), h.last w rfl⟩, rfl⟩
  | cons u vs ih =>
    have hw := hcomma w (List.mem_cons_self ..)
    have hwne := hne w (List.mem_cons_self ..)
    have htail : ∀ x ∈ u :: vs, x ≠ [] := fun x hx => hne x (List.mem_cons_of_mem _ hx)
    have hcomma' : ∀ x ∈ u :: vs, NoOuterComma x := fun x hx => hcomma x (List.mem_cons_of_mem _ hx)
    have hune := htail u (List.mem_cons_self ..)
    rw [tailOk_cons_cons_iff, ← ih hcomma' htail, splitValues_cons_iff hw (hcomma' u (List.mem_cons_self ..)) htail,
      trimmedOfSpaces_iff, head?_joinValues hwne, getLast?_joinValues_cons hune]
    constructor
    · rintro ⟨⟨hhead, -⟩, -, hclosed, htrimmed, hsplit⟩
      exact ⟨hwne, hhead, hclosed, htrimmed, hsplit⟩
    · rintro ⟨-, hhead, hclosed, htrimmed, hsplit⟩
      exact ⟨⟨hhead, (trimmedOfSpaces_iff.mp htrimmed).2⟩, hwne, hclosed, htrimmed, hsplit⟩

theorem splitValues_joinValues_iff {vs : List Data} (hvs : vs ≠ []) (hcomma : ∀ v ∈ vs, NoOuterComma v) :
    splitValues ((joinValues vs).dropWhile (isIn · SipRawHeader.nameEnd)) = vs ↔ Joinable vs := by
  obtain ⟨v, vs, rfl⟩ := List.exists_cons_of_ne_nil hvs
  have hv := hcomma v (List.mem_cons_self ..)
  constructor
  · intro h
    have hdrop := length_dropWhile_le (isIn · SipRawHeader.nameEnd) (joinValues (v :: vs))
    have hsplit := weight_splitValues_le ((joinValues (v :: vs)).dropWhile (isIn · SipRawHeader.nameEnd))
    have hjoin := length_joinValues_le v vs
    rw [h] at hsplit
    have hne := ne_nil_of_length_joinValues (show weight (v :: vs) ≤ (joinValues (v :: vs)).length + 1 by omega)
    have hsame : (joinValues (v :: vs)).dropWhile (isIn · SipRawHeader.nameEnd) = joinValues (v :: vs) :=
      (List.dropWhile_suffix _).eq_of_length (by omega)
    have hfirst := head?_dropWhile (p := (isIn · SipRawHeader.nameEnd)) (joinValues (v :: vs))
    rw [hsame] at h hfirst
    cases vs with
    | nil =>
      have hjoin : joinValues [v] = v := by simp [joinValues]
      rw [hjoin] at hfirst
      exact ⟨by simpa using hfirst, by simp, by simp, by simp, by simp⟩
    | cons w vs =>
      have hcomma' : ∀ x ∈ w :: vs, NoOuterComma x := fun x hx => hcomma x (List.mem_cons_of_mem _ hx)
      obtain ⟨hvne, hclosed, htail⟩ :=
        (splitValues_cons_iff hv (hcomma' w (List.mem_cons_self ..)) hne).mp h
      rw [head?_joinValues hvne] at hfirst
      rw [joinable_cons_cons_iff]
      exact ⟨hfirst, hvne, hclosed, (splitValues_tail_iff hcomma' hne).mp htail⟩
  · intro h
    cases vs with
    | nil =>
      have hjoin : joinValues [v] = v := by simp [joinValues]
      rw [hjoin, dropWhile_eq_self_of_head (h.first v rfl), splitValues_eq_singleton hv]
    | cons w vs =>
      obtain ⟨hfirst, hvne, hclosed, htail⟩ := joinable_cons_cons_iff.mp h
      have hcomma' : ∀ x ∈ w :: vs, NoOuterComma x := fun x hx => hcomma x (List.mem_cons_of_mem _ hx)
      have hhead : ∀ c ∈ (joinValues (v :: w :: vs)).head?, isIn c SipRawHeader.nameEnd = false := by
        rw [head?_joinValues hvne]
        exact hfirst
      rw [dropWhile_eq_self_of_head hhead,
        splitValues_cons_iff hv (hcomma' w (List.mem_cons_self ..)) htail.ne_nil]
      exact ⟨hvne, hclosed, (splitValues_tail_iff hcomma' htail.ne_nil).mpr htail⟩

end Vocal.Sip
