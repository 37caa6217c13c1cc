import Vocal.Sip.Text

/-!
# Matching a character

Most parsers of the stack take a text apart with `Data::match` of one character. `match_cases` gives
its three outcomes as equations between texts, and `match_found`, `match_first` and
`match_not_found` compute them.
-/

namespace Vocal.Sip

open Cut

/-! ### Searching -/

theorem starts_of_find {pat str : Data} {i : Nat} (h : find pat str = some i) : pat <+: str.drop i := by
  induction str generalizing i with
  | nil =>
    rw [find] at h
    split at h
    · rename_i hnil
      rw [hnil]
      exact List.nil_prefix
    · cases h
  | cons c cs ih =>
    rw [find] at h
    split at h
    · rename_i hstarts
      rw [← Option.some.inj h]
      exact List.isPrefixOf_iff_prefix.mp hstarts
    · obtain ⟨j, hj, rfl⟩ := Option.map_eq_some_iff.mp h
      exact ih hj

theorem find_le {pat str : Data} {i : Nat} (h : find pat str = some i) : i + pat.length ≤ str.length := by
  induction str generalizing i with
  | nil =>
    rw [find] at h
    split at h
    · rename_i hnil
      rw [hnil, ← Option.some.inj h]
      simp
    · cases h
  | cons c cs ih =>
    rw [find] at h
    split at h
    · rename_i hstarts
      have := (List.isPrefixOf_iff_prefix.mp hstarts).length_le
      rw [← Option.some.inj h]
      omega
    · obtain ⟨j, hj, rfl⟩ := Option.map_eq_some_iff.mp h
      have := ih hj
      rw [List.length_cons]
      omega

theorem find_eq_some {pat str : Data} {i : Nat} (h : find pat str = some i) :
    str = str.take i ++ pat ++ str.drop (i + pat.length) := by
  obtain ⟨rest, hrest⟩ := starts_of_find h
  have hdrop : str.drop (i + pat.length) = rest := by
    rw [← List.drop_drop, ← hrest, List.drop_left]
  rw [hdrop, List.append_assoc, hrest, List.take_append_drop]

theorem find_eq_none_iff {pat d : Data} (hpat : pat ≠ []) : find pat d = none ↔ ¬ pat <:+: d := by
  induction d with
  | nil =>
    rw [find, if_neg hpat, List.infix_nil]
    exact iff_of_true rfl hpat
  | cons c d ih =>
    rw [find, List.infix_cons_iff, not_or, ← ih]
    split
    case isTrue h => exact iff_of_false (by rintro ⟨⟩) fun hn => hn.1 (List.isPrefixOf_iff_prefix.mp h)
    case isFalse h =>
      rw [Option.map_eq_none_iff]
      exact ⟨fun hnone => ⟨fun hp => h (List.isPrefixOf_iff_prefix.mpr hp), hnone⟩, fun hn => hn.2⟩

theorem find_eq_none {pat d : Data} {a : Char} (ha : a ∈ pat) (hd : a ∉ d) : find pat d = none := by
  rw [find_eq_none_iff (List.ne_nil_of_mem ha)]
  exact fun h => hd (h.subset ha)

/-! ### One character -/

theorem find_singleton_append {c : Char} {x : Data} (hx : c ∉ x) (rest : Data) :
    find [c] (x ++ c :: rest) = some x.length := by
  induction x with
  | nil => simp [find, List.isPrefixOf]
  | cons a x ih =>
    have ha : c ≠ a := fun h => hx (h ▸ List.mem_cons_self ..)
    rw [List.cons_append, find, ih fun h => hx (List.mem_cons_of_mem _ h)]
    simp [List.isPrefixOf, ha]

theorem find_singleton_eq_none {c : Char} {d : Data} (hd : c ∉ d) : find [c] d = none :=
  find_eq_none (List.mem_singleton_self c) hd

namespace Data

theorem match_not_found {c : Char} {d : Data} (hd : c ∉ d) : «match» d [c] = .NOT_FOUND := by
  rw [«match», find_singleton_eq_none hd]

theorem match_first (c : Char) (rest : Data) : «match» (c :: rest) [c] = .FIRST rest := by
  rw [«match», ← List.nil_append (c :: rest), find_singleton_append List.not_mem_nil]
  rfl

theorem match_found {c : Char} {x : Data} (hx : c ∉ x) (hne : x ≠ []) (rest : Data) :
    «match» (x ++ c :: rest) [c] = .FOUND x rest := by
  obtain ⟨n, hn⟩ := Nat.exists_eq_succ_of_ne_zero (List.length_pos_iff.mpr hne).ne'
  have hdrop : (x ++ c :: rest).drop (x.length + 1) = rest := by
    have hsplit : x ++ c :: rest = (x ++ [c]) ++ rest := by simp
    have hlen : x.length + 1 = (x ++ [c]).length := by simp
    rw [hsplit, hlen, List.drop_left]
  rw [«match», find_singleton_append hx, hn]
  simp only [MatchResult.FOUND.injEq]
  rw [← hn, List.length_singleton, hdrop]
  exact ⟨List.take_left, rfl⟩

theorem match_cases (d : Data) (c : Char) :
    (c ∉ d ∧ «match» d [c] = .NOT_FOUND) ∨
      (∃ rest, d = c :: rest ∧ «match» d [c] = .FIRST rest) ∨
      ∃ x rest, x ≠ [] ∧ c ∉ x ∧ d = x ++ c :: rest ∧ «match» d [c] = .FOUND x rest := by
  by_cases hd : c ∈ d
  · obtain ⟨x, rest, rfl, hx⟩ := List.eq_append_cons_of_mem hd
    cases hempty : x with
    | nil => exact Or.inr (Or.inl ⟨rest, rfl, match_first c rest⟩)
    | cons a x' =>
      have hne : x ≠ [] := by
        rw [hempty]
        simp
      rw [← hempty]
      exact Or.inr (Or.inr ⟨x, rest, hne, hx, rfl, match_found hx hne rest⟩)
  · exact Or.inl ⟨hd, match_not_found hd⟩

/-! ### Matching a set of characters -/

theorem isIn_singleton {a c : Char} : isIn a [c] = false ↔ a ≠ c := by
  simp [isIn]

theorem forall_isIn_singleton {d : Data} {c : Char} (h : c ∉ d) : ∀ a ∈ d, isIn a [c] = false := by
  intro a ha
  rw [isIn_singleton]
  rintro rfl
  exact h ha

theorem matchChar_not_found {d : Data} {c : Char} (h : c ∉ d) : matchChar d [c] = none :=
  cut_eq_none_iff.mpr (forall_isIn_singleton h)

theorem matchChar_found {x : Data} {c : Char} (h : c ∉ x) (rest : Data) :
    matchChar (x ++ c :: rest) [c] = some (x, c, rest) :=
  cut_append (forall_isIn_singleton h) (by simp [isIn])

theorem matchChar_cases (d : Data) (c : Char) :
    (c ∉ d ∧ matchChar d [c] = none) ∨
      ∃ x rest, c ∉ x ∧ d = x ++ c :: rest ∧ matchChar d [c] = some (x, c, rest) := by
  by_cases hd : c ∈ d
  · obtain ⟨x, rest, rfl, hx⟩ := List.eq_append_cons_of_mem hd
    exact Or.inr ⟨x, rest, hx, rfl, matchChar_found hx rest⟩
  · exact Or.inl ⟨hd, matchChar_not_found hd⟩

theorem forall_isIn_pair {d : Data} {b c : Char} (hb : b ∉ d) (hc : c ∉ d) :
    ∀ a ∈ d, isIn a [b, c] = false := by
  intro a ha
  have h₁ : a ≠ b := fun h => hb (h ▸ ha)
  have h₂ : a ≠ c := fun h => hc (h ▸ ha)
  simp [isIn, h₁, h₂]

theorem matchChar_pair_not_found {d : Data} {b c : Char} (hb : b ∉ d) (hc : c ∉ d) :
    matchChar d [b, c] = none :=
  cut_eq_none_iff.mpr (forall_isIn_pair hb hc)

theorem matchChar_pair_found {x : Data} {a b c : Char} (hb : b ∉ x) (hc : c ∉ x) (ha : a = b ∨ a = c)
    (rest : Data) : matchChar (x ++ a :: rest) [b, c] = some (x, a, rest) :=
  cut_append (forall_isIn_pair hb hc) (by rcases ha with rfl | rfl <;> simp [isIn])

theorem matchChar_pair_cases (d : Data) (b c : Char) :
    (b ∉ d ∧ c ∉ d ∧ matchChar d [b, c] = none) ∨
      ∃ x a rest, b ∉ x ∧ c ∉ x ∧ (a = b ∨ a = c) ∧ d = x ++ a :: rest ∧
        matchChar d [b, c] = some (x, a, rest) := by
  cases h : matchChar d [b, c] with
  | none =>
    have hnone := cut_eq_none_iff.mp h
    refine Or.inl ⟨fun hb => ?_, fun hc => ?_, rfl⟩
    · have := hnone b hb
      simp [isIn] at this
    · have := hnone c hc
      simp [isIn] at this
  | some r =>
    obtain ⟨x, a, rest⟩ := r
    obtain ⟨heq, hx, ha⟩ := cut_eq_some_iff.mp h
    refine Or.inr ⟨x, a, rest, fun hb => ?_, fun hc => ?_, by simpa [isIn] using ha, heq, rfl⟩
    · have := hx b hb
      simp [isIn] at this
    · have := hx c hc
      simp [isIn] at this

theorem parse_not_found {d : Data} {c : Char} (h : c ∉ d) : parse d [c] = none := by
  rw [parse, matchChar_not_found h]
  rfl

theorem parse_found {x : Data} {c : Char} (h : c ∉ x) (rest : Data) :
    parse (x ++ c :: rest) [c] = some (x, rest.dropWhile (isIn · [c])) := by
  rw [parse, matchChar_found h]
  rfl

theorem parse_found_of_head {x rest : Data} {c : Char} (h : c ∉ x) (hhead : rest.head? ≠ some c) :
    parse (x ++ c :: rest) [c] = some (x, rest) := by
  have hrest : rest.dropWhile (isIn · [c]) = rest := by
    apply dropWhile_eq_self_of_head
    intro a ha
    rw [isIn_singleton]
    rintro rfl
    exact hhead ha
  rw [parse_found h, hrest]

theorem parse_cases (d : Data) (c : Char) :
    (c ∉ d ∧ parse d [c] = none) ∨
      ∃ x rest, c ∉ x ∧ d = x ++ c :: rest ∧ parse d [c] = some (x, rest.dropWhile (isIn · [c])) := by
  rcases matchChar_cases d c with ⟨h, -⟩ | ⟨x, rest, hx, rfl, -⟩
  · exact Or.inl ⟨h, parse_not_found h⟩
  · exact Or.inr ⟨x, rest, hx, rfl, parse_found hx rest⟩

theorem head?_dropWhile_isIn {rest : Data} {c : Char} : (rest.dropWhile (isIn · [c])).head? ≠ some c := by
  intro h
  have := head?_dropWhile (p := (isIn · [c])) rest c h
  simp [isIn] at this

theorem mem_of_mem_dropWhile {rest : Data} {p : Char → Bool} {a : Char} (h : a ∈ rest.dropWhile p) : a ∈ rest :=
  (List.dropWhile_suffix p).subset h

/-! ### Spaces -/

abbrev TrimmedOfSpaces (d : Data) : Prop := Trimmed (fun c : Char => decide (c = ' ')) d

theorem trimmedOfSpaces_iff {d : Data} : TrimmedOfSpaces d ↔ d.head? ≠ some ' ' ∧ d.getLast? ≠ some ' ' := by
  rw [TrimmedOfSpaces, Trimmed]
  cases d.head? <;> cases d.getLast? <;> simp [Option.mem_def]

theorem trimmedOfSpaces_nil : TrimmedOfSpaces [] := ⟨by simp, by simp⟩

theorem removeSpaces_eq_self {d : Data} (h : TrimmedOfSpaces d) : d.removeSpaces = d := trim_eq_self h

theorem trimmedOfSpaces_removeSpaces (d : Data) : TrimmedOfSpaces d.removeSpaces := trimmed_trim d

theorem mem_of_mem_removeSpaces {d : Data} {c : Char} (h : c ∈ d.removeSpaces) : c ∈ d := mem_of_mem_trim h

end Data

end Vocal.Sip
