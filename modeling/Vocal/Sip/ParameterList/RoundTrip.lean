import Mathlib.Data.List.Nodup
import Mathlib.Data.List.Perm.Subperm
import Vocal.Sip.ParameterList

/-!
# Parameter lists that are written and read

Which texts have the same parameters when those that were read are written and read again: `decodeWith_encodeWith_iff`. An
empty key is not written, some values are put into quotes, and the last parameter, which was not trimmed and may have
an open quote, is written in the place of its key.
-/

namespace Vocal.Sip.SipParameterList

variable {delimiter : Char} {eatWhitespace q q' : Bool} {k v w d : Data} {p : Data × Data} {l : SipParameterList}

/-- The delimiters of the headers. -/
def IsDelimiter (c : Char) : Prop := c = ';' ∨ c = ','

/-- What is behind the last delimiter is last again, or is trimmed and has no open quote. -/
def LastKept (eatWhitespace : Bool) (found : List (Data × Data) × (Data × Data)) : Prop :=
  found.2.1 = [] ∨ (∀ p ∈ found.1, p.1 ≤ found.2.1) ∨
    (eaten eatWhitespace found.2.2 = found.2.2 ∧ Even (found.2.2.count '"'))

/-- The condition on the parameters of a text: no key is empty; the last value for a key that is written with quotes has
some or is empty; and what is behind the last delimiter is last again or is trimmed and has no open quote. -/
structure Kept (eatWhitespace : Bool) (found : List (Data × Data) × (Data × Data)) : Prop where
  keys : ∀ p ∈ found.1, p.1 ≠ []
  quoted : ∀ before p after, stores eatWhitespace found = before ++ p :: after → (∀ q ∈ after, q.1 ≠ p.1) →
    p.1 ∈ quotedKeys → p.2 = [] ∨ '"' ∈ p.2
  last : LastKept eatWhitespace found

/-! ### Quotes -/

/-- Whether a quote is open behind a value; none if a delimiter outside of quotes ends the value before. -/
def quotes (delimiter : Char) : Bool → Data → Option Bool
  | inQuotes, [] => some inQuotes
  | inQuotes, c :: v =>
    if c = '"' then quotes delimiter (!inQuotes) v
    else if c = delimiter && !inQuotes then none
    else quotes delimiter inQuotes v

theorem quotes_append (q : Bool) (v w : Data) :
    quotes delimiter q (v ++ w) = (quotes delimiter q v).bind fun q => quotes delimiter q w := by
  induction v generalizing q with
  | nil => rfl
  | cons c v ih =>
    rw [List.cons_append, quotes, quotes]
    split_ifs
    · exact ih _
    · rfl
    · exact ih _

theorem even_count_of_quotes (h : quotes delimiter q v = some q') : Even (v.count '"') ↔ q = q' := by
  induction v generalizing q with
  | nil =>
    obtain rfl := Option.some.inj h
    simp
  | cons c v ih =>
    rw [quotes] at h
    split_ifs at h with hc
    · rw [hc, List.count_cons_self, Nat.even_add_one, ih h]
      cases q <;> cases q' <;> simp
    · rw [List.count_cons_of_ne hc, ih h]

theorem quotes_spaces (hdelimiter : delimiter ≠ ' ') {s : Data} (hs : ∀ c ∈ s, decide (c = ' ') = true) :
    quotes delimiter q s = some q := by
  induction s with
  | nil => rfl
  | cons c s ih =>
    obtain rfl : c = ' ' := of_decide_eq_true (hs c (List.mem_cons_self ..))
    rw [quotes, if_neg (by decide), if_neg (by simp [hdelimiter.symm]), ih fun c hc => hs c (List.mem_cons_of_mem _ hc)]

theorem quotes_eaten (hdelimiter : delimiter ≠ ' ') (v : Data) :
    quotes delimiter q (eaten eatWhitespace v) = quotes delimiter q v := by
  cases eatWhitespace with
  | false => rfl
  | true =>
    obtain ⟨a, b, hv, ha, hb⟩ := Cut.exists_trim (p := (· = ' ')) v
    have htrim : eaten true v = Cut.trim (· = ' ') v := rfl
    rw [htrim]
    conv_rhs => rw [hv]
    rw [quotes_append, quotes_append, quotes_spaces hdelimiter ha, Option.bind_some]
    cases h : quotes delimiter q (Cut.trim (· = ' ') v) with
    | none => rfl
    | some q' => exact (quotes_spaces hdelimiter hb).symm

theorem eaten_eaten (v : Data) : eaten eatWhitespace (eaten eatWhitespace v) = eaten eatWhitespace v := by
  cases eatWhitespace with
  | false => rfl
  | true => exact Cut.trim_eq_self (Cut.trimmed_trim v)

theorem mem_eaten {c : Char} (hc : c ≠ ' ') : c ∈ eaten eatWhitespace v ↔ c ∈ v := by
  cases eatWhitespace with
  | false => exact Iff.rfl
  | true => exact ⟨Cut.mem_of_mem_trim, fun h => Cut.mem_trim_of_mem h (decide_eq_false hc)⟩

theorem count_eaten {c : Char} (hc : c ≠ ' ') (v : Data) : (eaten eatWhitespace v).count c = v.count c := by
  cases eatWhitespace with
  | false => rfl
  | true =>
    obtain ⟨a, b, hv, ha, hb⟩ := Cut.exists_trim (p := (· = ' ')) v
    have htrim : eaten true v = Cut.trim (· = ' ') v := rfl
    have hnone {s : Data} (hs : ∀ c ∈ s, decide (c = ' ') = true) : s.count c = 0 :=
      List.count_eq_zero_of_not_mem fun hmem => hc (of_decide_eq_true (hs c hmem))
    rw [htrim]
    conv_rhs => rw [hv]
    rw [List.count_append, List.count_append, hnone ha, hnone hb, Nat.zero_add, Nat.add_zero]

/-! ### What is found -/

/-- A key that is read as it is written. -/
def IsKey (delimiter : Char) (k : Data) : Prop :=
  ∀ c ∈ k, isspace c = false ∧ c ≠ '=' ∧ c ≠ delimiter ∧ c.toLower = c

theorem toLower_cases (c : Char) : c.toLower = c ∨ 97 ≤ c.toLower.toNat ∧ c.toLower.toNat ≤ 122 := by
  by_cases h : 'A'.val ≤ c.val ∧ c.val ≤ 'Z'.val
  · right
    have hlow : 65 ≤ c.val.toNat := h.1
    have hhigh : c.val.toNat ≤ 90 := h.2
    have hval : c.toLower.toNat = c.val.toNat + 32 := by
      unfold Char.toLower
      rw [dif_pos h]
      show (c.val + 32).toNat = _
      rw [UInt32.toNat_add, show (32 : UInt32).toNat = 32 from rfl]
      omega
    omega
  · left
    unfold Char.toLower
    rw [dif_neg h]

theorem toLower_toLower (c : Char) : c.toLower.toLower = c.toLower := by
  rcases toLower_cases c with h | ⟨hlow, -⟩
  · rw [h, h]
  · generalize c.toLower = b at hlow ⊢
    unfold Char.toLower
    rw [dif_neg]
    rintro ⟨-, hhigh⟩
    have hhigh' : b.toNat ≤ 90 := hhigh
    omega

theorem toLower_ne {a c : Char} (ha : a.toNat < 97) (hc : c ≠ a) : c.toLower ≠ a := by
  rcases toLower_cases c with h | ⟨hlow, -⟩
  · rwa [h]
  · rintro rfl
    omega

theorem isspace_toLower {c : Char} (h : isspace c = false) : isspace c.toLower = false := by
  rcases toLower_cases c with hc | ⟨hlow, -⟩
  · rwa [hc]
  · have hne {a : Char} (ha : a.toNat < 97) : decide (c.toLower = a) = false := by
      rw [decide_eq_false_iff_not]
      rintro rfl
      omega
    unfold isspace
    rw [hne (by decide), hne (by decide), hne (by decide), hne (by decide), hne (by decide), hne (by decide)]
    rfl

theorem IsDelimiter.lt (h : IsDelimiter delimiter) : delimiter.toNat < 97 := by
  rcases h with rfl | rfl <;> decide

theorem IsDelimiter.ne (h : IsDelimiter delimiter) : delimiter ≠ ' ' ∧ delimiter ≠ '=' ∧ delimiter ≠ '"' ∧
    isspace delimiter = false := by
  rcases h with rfl | rfl <;> decide

theorem IsKey.append {c : Char} (hk : IsKey delimiter k) (hdelimiter : IsDelimiter delimiter)
    (hspace : isspace c = false) (heq : c ≠ '=') (hc : c ≠ delimiter) : IsKey delimiter (k ++ [c.toLower]) := by
  intro b hb
  rcases List.mem_append.mp hb with hb | hb
  · exact hk b hb
  · rw [List.mem_singleton.mp hb]
    exact ⟨isspace_toLower hspace, toLower_ne (by decide) heq, toLower_ne hdelimiter.lt hc, toLower_toLower c⟩

/-- A parameter that is found: its value is not ended before. -/
structure Sound (delimiter : Char) (p : Data × Data) : Prop where
  key : IsKey delimiter p.1
  value : ∃ q, quotes delimiter false p.2 = some q

/-- A parameter without an open quote. -/
def Closed (delimiter : Char) (p : Data × Data) : Prop := IsKey delimiter p.1 ∧ quotes delimiter false p.2 = some false

theorem Closed.sound (h : Closed delimiter p) : Sound delimiter p := ⟨h.1, false, h.2⟩

theorem Sound.closed (h : Sound delimiter p) (heven : Even (p.2.count '"')) : Closed delimiter p := by
  obtain ⟨q, hq⟩ := h.value
  refine ⟨h.key, ?_⟩
  rw [hq, ← (even_count_of_quotes hq).mp heven]

/-- The state of the loop in which a key or a value is read. -/
def Reads (delimiter : Char) (k v : Data) (inVal inQuotes : Bool) : Prop :=
  IsKey delimiter k ∧ if inVal then quotes delimiter false v = some inQuotes else v = [] ∧ inQuotes = false

theorem reads_start : Reads delimiter [] [] false false :=
  ⟨fun _ hc => (List.not_mem_nil hc).elim, rfl, rfl⟩

theorem scan_sound (hdelimiter : IsDelimiter delimiter) {inVal inQuotes : Bool}
    (h : Reads delimiter k v inVal inQuotes) (d : Data) :
    (∀ p ∈ (scan delimiter k v inVal inQuotes d).1, Closed delimiter p) ∧
      Sound delimiter (scan delimiter k v inVal inQuotes d).2 := by
  induction d generalizing k v inVal inQuotes with
  | nil =>
    obtain ⟨hk, hv⟩ := h
    rw [scan]
    refine ⟨fun _ hp => (List.not_mem_nil hp).elim, hk, ?_⟩
    cases inVal with
    | false =>
      obtain ⟨rfl, -⟩ := hv
      exact ⟨false, rfl⟩
    | true => exact ⟨inQuotes, hv⟩
  | cons c d ih =>
    obtain ⟨hk, hv⟩ := h
    cases inVal with
    | false =>
      obtain ⟨rfl, rfl⟩ : v = [] ∧ inQuotes = false := hv
      rw [scan]
      split_ifs with hspace heq hc
      · exact ih ⟨hk, rfl, rfl⟩
      · exact ih ⟨hk, rfl⟩
      · obtain ⟨hmore, hlast⟩ := ih reads_start
        refine ⟨fun p hp => ?_, hlast⟩
        rcases List.mem_cons.mp hp with rfl | hp
        · exact ⟨hk, rfl⟩
        · exact hmore p hp
      · exact ih ⟨hk.append hdelimiter (Bool.eq_false_iff.mpr hspace) heq hc, rfl, rfl⟩
    | true =>
      have hv' : quotes delimiter false v = some inQuotes := hv
      have hnext (q : Bool) (hq : quotes delimiter inQuotes [c] = some q) :
          quotes delimiter false (v ++ [c]) = some q := by
        rw [quotes_append, hv', Option.bind_some, hq]
      rw [scan]
      split_ifs with hquote hend
      · refine ih ⟨hk, hnext _ ?_⟩
        rw [quotes, if_pos hquote, quotes]
      · obtain rfl : inQuotes = false := by simpa using (Bool.and_eq_true_iff.mp hend).2
        obtain ⟨hmore, hlast⟩ := ih reads_start
        refine ⟨fun p hp => ?_, hlast⟩
        rcases List.mem_cons.mp hp with rfl | hp
        · exact ⟨hk, hv'⟩
        · exact hmore p hp
      · refine ih ⟨hk, hnext _ ?_⟩
        rw [quotes, if_neg hquote, if_neg hend, quotes]

/-! ### What is written -/

/-- The value as it is written. -/
def written (p : Data × Data) : Data := if p.2 = [] then [] else encodeValue p.1 p.2

theorem encodeItem_eq (p : Data × Data) : encodeItem p = p.1 ++ if p.2 = [] then [] else '=' :: written p := by
  unfold encodeItem written
  by_cases h : p.2 = [] <;> simp [h]

theorem written_cases (p : Data × Data) :
    written p = p.2 ∨ written p = '"' :: p.2 ++ ['"'] ∧ p.1 ∈ quotedKeys ∧ p.2 ≠ [] ∧ '"' ∉ p.2 := by
  unfold written encodeValue
  by_cases h : p.2 = []
  · rw [if_pos h, h]
    exact Or.inl rfl
  · rw [if_neg h]
    by_cases hquoted : (quotedKeys.contains p.1 && !p.2.contains '"') = true
    · rw [if_pos hquoted]
      right
      simpa [h] using hquoted
    · rw [if_neg hquoted]
      exact Or.inl rfl

theorem quotes_of_notMem (h : '"' ∉ v) : quotes delimiter true v = some true := by
  induction v with
  | nil => rfl
  | cons c v ih =>
    rw [List.mem_cons, not_or] at h
    rw [quotes, if_neg (Ne.symm h.1), if_neg (by simp), ih h.2]

theorem quotes_written (h : quotes delimiter false p.2 = some q) : quotes delimiter false (written p) = some q := by
  rcases written_cases p with heq | ⟨heq, -, -, hnot⟩
  · rw [heq, h]
  · have hclosed : false = q := (even_count_of_quotes h).mp (by rw [List.count_eq_zero_of_not_mem hnot]; exact Even.zero)
    rw [heq, List.cons_append, quotes, if_pos rfl, quotes_append, Bool.not_false, quotes_of_notMem hnot, Option.bind_some,
      quotes, if_pos rfl, quotes, ← hclosed]
    rfl

/-- Parameters with delimiters between them. -/
def joined (delimiter : Char) (params : List (Data × Data)) : Data :=
  ([delimiter] : Data).intercalate (params.map encodeItem)

theorem joined_cons_cons (p b : Data × Data) (params : List (Data × Data)) :
    joined delimiter (p :: b :: params) = encodeItem p ++ delimiter :: joined delimiter (b :: params) := by
  simp [joined]

theorem scan_key (hk : IsKey delimiter k) (k' d : Data) :
    scan delimiter k' [] false false (k ++ d) = scan delimiter (k' ++ k) [] false false d := by
  induction k generalizing k' with
  | nil => simp
  | cons c k ih =>
    obtain ⟨hspace, heq, hc, hlower⟩ := hk c (List.mem_cons_self ..)
    rw [List.cons_append, scan, if_neg (Bool.eq_false_iff.mp hspace), if_neg heq, if_neg hc, hlower,
      ih (fun b hb => hk b (List.mem_cons_of_mem _ hb)), List.append_assoc, List.singleton_append]

theorem scan_value (h : quotes delimiter q w = some q') (k v d : Data) :
    scan delimiter k v true q (w ++ d) = scan delimiter k (v ++ w) true q' d := by
  induction w generalizing q v with
  | nil =>
    obtain rfl := Option.some.inj h
    rw [List.nil_append, List.append_nil]
  | cons c w ih =>
    rw [quotes] at h
    rw [List.cons_append, scan]
    split_ifs at h ⊢
    · rw [ih h, List.append_assoc, List.singleton_append]
    · rw [ih h, List.append_assoc, List.singleton_append]

theorem scan_item (hk : IsKey delimiter p.1) (hv : quotes delimiter false (written p) = some q) (d : Data) :
    scan delimiter [] [] false false (encodeItem p ++ d) =
      if p.2 = [] then scan delimiter p.1 [] false false d else scan delimiter p.1 (written p) true q d := by
  rw [encodeItem_eq, List.append_assoc, scan_key hk, List.nil_append]
  split
  · rfl
  · have hspace : ¬ isspace '=' = true := by decide
    rw [List.cons_append, scan, if_neg hspace, if_pos rfl, scan_value hv, List.nil_append]

theorem scan_item_next (hdelimiter : IsDelimiter delimiter) (hk : IsKey delimiter p.1)
    (hv : quotes delimiter false (written p) = some false) (d : Data) :
    scan delimiter [] [] false false (encodeItem p ++ delimiter :: d) =
      ((p.1, written p) :: (scan delimiter [] [] false false d).1, (scan delimiter [] [] false false d).2) := by
  obtain ⟨-, heq, hquote, hspace⟩ := hdelimiter.ne
  rw [scan_item hk hv]
  split
  · rename_i hempty
    have hnone : written p = [] := if_pos hempty
    rw [scan, if_neg (Bool.eq_false_iff.mp hspace), if_neg heq, if_pos rfl, hnone]
  · rw [scan, if_neg hquote, if_pos (by simp)]

theorem scan_item_last (hk : IsKey delimiter p.1) (hv : quotes delimiter false (written p) = some q) :
    scan delimiter [] [] false false (encodeItem p) = ([], (p.1, written p)) := by
  have hscan := scan_item hk hv []
  rw [List.append_nil] at hscan
  rw [hscan]
  split
  · rename_i hempty
    have hnone : written p = [] := if_pos hempty
    rw [scan, hnone]
  · rw [scan]

theorem scan_joined (hdelimiter : IsDelimiter delimiter) {before : List (Data × Data)}
    (hbefore : ∀ a ∈ before, Closed delimiter a) (hp : Sound delimiter p) :
    scan delimiter [] [] false false (joined delimiter (before ++ [p])) =
      (before.map fun a => (a.1, written a), (p.1, written p)) := by
  induction before with
  | nil =>
    obtain ⟨q, hv⟩ := hp.value
    simp only [List.nil_append, joined, List.map_cons, List.map_nil, List.intercalate_singleton]
    exact scan_item_last hp.key (quotes_written hv)
  | cons a before ih =>
    obtain ⟨hk, hv⟩ := hbefore a (List.mem_cons_self ..)
    obtain ⟨b, more, hmore⟩ := List.exists_cons_of_ne_nil (show before ++ [p] ≠ [] by simp)
    rw [List.cons_append, hmore, joined_cons_cons, scan_item_next hdelimiter hk (quotes_written hv), ← hmore,
      ih fun a ha => hbefore a (List.mem_cons_of_mem _ ha), List.map_cons]

theorem scan_goes_on (delimiter : Char) (k v : Data) (q : Bool) (d : Data) :
    ∃ x more, (scan delimiter k v true q d).1 ++ [(scan delimiter k v true q d).2] = (k, x) :: more ∧ v <+: x := by
  induction d generalizing v q with
  | nil => exact ⟨v, [], rfl, List.prefix_rfl⟩
  | cons c d ih =>
    rw [scan]
    split_ifs
    · obtain ⟨x, more, hscan, hx⟩ := ih (v ++ [c]) (!q)
      exact ⟨x, more, hscan, (List.prefix_append v [c]).trans hx⟩
    · exact ⟨v, _, rfl, List.prefix_rfl⟩
    · obtain ⟨x, more, hscan, hx⟩ := ih (v ++ [c]) q
      exact ⟨x, more, hscan, (List.prefix_append v [c]).trans hx⟩

/-- What is found of a parameter with an open quote takes in the delimiter behind it. -/
theorem scan_joined_open (hdelimiter : IsDelimiter delimiter) {before : List (Data × Data)}
    (hbefore : ∀ a ∈ before, Closed delimiter a)
    (hk : IsKey delimiter p.1) (hopen : quotes delimiter false p.2 = some true) (b : Data × Data)
    (after : List (Data × Data)) :
    ∃ x, (p.1, x) ∈ (scan delimiter [] [] false false (joined delimiter (before ++ p :: b :: after))).1 ++
        [(scan delimiter [] [] false false (joined delimiter (before ++ p :: b :: after))).2] ∧
      p.2.count delimiter < x.count delimiter := by
  have hquote := hdelimiter.ne.2.2.1
  induction before with
  | nil =>
    have hwritten : written p = p.2 := by
      rcases written_cases p with h | ⟨-, -, -, hnot⟩
      · exact h
      · have heven := even_count_of_quotes hopen
        rw [List.count_eq_zero_of_not_mem hnot] at heven
        exact absurd (heven.mp Even.zero) (by decide)
    have hne : p.2 ≠ [] := by
      intro h
      rw [h] at hopen
      cases hopen
    have hscan := scan_item (q := true) hk (hwritten ▸ hopen) (delimiter :: joined delimiter (b :: after))
    rw [if_neg hne, hwritten, scan, if_neg hquote, if_neg (by simp)] at hscan
    rw [List.nil_append, joined_cons_cons, hscan]
    obtain ⟨x, more, hfound, hx⟩ :=
      scan_goes_on delimiter p.1 (p.2 ++ [delimiter]) true (joined delimiter (b :: after))
    refine ⟨x, ?_, ?_⟩
    · rw [hfound]
      exact List.mem_cons_self ..
    · have hcount := hx.sublist.count_le delimiter
      rw [List.count_append, List.count_singleton_self] at hcount
      omega
  | cons a before ih =>
    obtain ⟨hka, hva⟩ := hbefore a (List.mem_cons_self ..)
    obtain ⟨x, hx, hcount⟩ := ih fun a ha => hbefore a (List.mem_cons_of_mem _ ha)
    obtain ⟨c, more, hmore⟩ := List.exists_cons_of_ne_nil (show before ++ p :: b :: after ≠ [] by simp)
    refine ⟨x, ?_, hcount⟩
    rw [List.cons_append, hmore, joined_cons_cons, scan_item_next hdelimiter hka (quotes_written hva), ← hmore]
    exact List.mem_cons_of_mem _ hx

/-! ### Room in a text -/

/-- The characters of a text that are not quotes. -/
def weight (d : Data) : Nat := d.countP (· ≠ '"')

/-- What a parameter takes of a text, with a delimiter. -/
def cost (p : Data × Data) : Nat := weight p.1 + (if p.2 = [] then 0 else 1 + weight p.2) + 1

theorem weight_append (v w : Data) : weight (v ++ w) = weight v + weight w := List.countP_append ..

theorem weight_cons (c : Char) (d : Data) : weight (c :: d) = weight d + if c = '"' then 0 else 1 := by
  unfold weight
  rw [List.countP_cons]
  by_cases h : c = '"' <;> simp [h]

theorem weight_singleton (c : Char) : weight [c] = if c = '"' then 0 else 1 := by
  rw [weight_cons]
  exact Nat.zero_add _

theorem weight_written (p : Data × Data) : weight (written p) = weight p.2 := by
  rcases written_cases p with h | ⟨h, -⟩
  · rw [h]
  · rw [h, List.cons_append, weight_cons, weight_append, weight_singleton, if_pos rfl, Nat.add_zero]

theorem cost_eaten_le (p : Data × Data) : cost (p.1, eaten eatWhitespace p.2) ≤ cost p := by
  have hle : weight (eaten eatWhitespace p.2) ≤ weight p.2 := by
    cases eatWhitespace with
    | false => exact le_rfl
    | true => exact (((List.rdropWhile_prefix ..).sublist.trans (List.dropWhile_suffix _).sublist)).countP_le
  unfold cost
  dsimp only
  by_cases h : p.2 = []
  · rw [h, eaten_nil]
  · rw [if_neg h]
    split <;> omega

theorem cost_le (k v : Data) : cost (k, v) ≤ weight k + (1 + weight v) + 1 := by
  unfold cost
  dsimp only
  split <;> omega

theorem weight_toLower_le (c : Char) : weight [c.toLower] ≤ if c = '"' then 0 else 1 := by
  rw [weight_singleton]
  split_ifs with hlow hsame
  · exact Nat.zero_le _
  · exact Nat.zero_le _
  · rename_i hsame
    exact absurd (by rw [hsame]; rfl) hlow
  · exact le_rfl

theorem cost_scan_le (hdelimiter : IsDelimiter delimiter) (k v : Data) (inVal : Bool) (hv : inVal = false → v = []) (q : Bool)
    (d : Data) :
    ((scan delimiter k v inVal q d).1.map cost).sum + cost (scan delimiter k v inVal q d).2 ≤
      weight k + (if inVal then 1 + weight v else 0) + 1 + weight d := by
  have hquote := hdelimiter.ne.2.2.1
  induction d generalizing k v inVal q with
  | nil =>
    rw [scan]
    unfold cost
    cases inVal with
    | false => simp [hv rfl, weight]
    | true => by_cases h : v = [] <;> simp [h, weight]
  | cons c d ih =>
    cases inVal with
    | false =>
      obtain rfl := hv rfl
      rw [scan, if_neg Bool.false_ne_true]
      split_ifs with hspace heq hc
      · have hmore := ih k [] false (fun _ => rfl) q
        rw [weight_cons]
        simp only [Bool.false_eq_true, if_false] at hmore
        omega
      · have hmore := ih k [] true (fun h => by cases h) q
        have hnil : weight [] = 0 := rfl
        rw [weight_cons, heq, if_neg (by decide)]
        rw [if_pos (rfl : true = true)] at hmore
        omega
      · have hmore := ih [] [] false (fun _ => rfl) q
        have hnil : weight [] = 0 := rfl
        have hcost : cost (k, []) = weight k + 0 + 1 := rfl
        rw [weight_cons, hc, if_neg hquote]
        simp only [Bool.false_eq_true, if_false, List.map_cons, List.sum_cons] at hmore ⊢
        omega
      · have hmore := ih (k ++ [c.toLower]) [] false (fun _ => rfl) q
        have hlower := weight_toLower_le c
        rw [weight_cons]
        rw [weight_append] at hmore
        simp only [Bool.false_eq_true, if_false] at hmore
        omega
    | true =>
      rw [scan, if_pos (rfl : true = true)]
      split_ifs with hc hend
      · have hmore := ih k (v ++ [c]) true (fun h => by cases h) (!q)
        rw [weight_append, weight_singleton, if_pos hc, if_pos (rfl : true = true)] at hmore
        rw [weight_cons, if_pos hc]
        omega
      · have hmore := ih [] [] false (fun _ => rfl) q
        have hnil : weight [] = 0 := rfl
        have hcost := cost_le k v
        rw [weight_cons, if_neg hc]
        simp only [Bool.false_eq_true, if_false, List.map_cons, List.sum_cons] at hmore ⊢
        omega
      · have hmore := ih k (v ++ [c]) true (fun h => by cases h) q
        rw [weight_append, weight_singleton, if_neg hc, if_pos (rfl : true = true)] at hmore
        rw [weight_cons, if_neg hc]
        omega

theorem cost_stores_le (hdelimiter : IsDelimiter delimiter) (eatWhitespace : Bool) (d : Data) :
    ((stores eatWhitespace (scan delimiter [] [] false false d)).map cost).sum ≤ weight d + 1 := by
  have hscan := cost_scan_le hdelimiter [] [] false (fun _ => rfl) false d
  have hnil : weight [] = 0 := rfl
  simp only [Bool.false_eq_true, if_false] at hscan
  generalize scan delimiter [] [] false false d = found at hscan ⊢
  have hended : ((found.1.map fun p => (p.1, eaten eatWhitespace p.2)).map cost).sum ≤ (found.1.map cost).sum := by
    rw [List.map_map]
    exact List.sum_le_sum fun p _ => cost_eaten_le p
  unfold stores
  rw [List.map_append, List.sum_append]
  split
  · simp only [List.map_cons, List.map_nil, List.sum_cons, List.sum_nil]
    omega
  · simp only [List.map_nil, List.sum_nil]
    omega

theorem weight_joined (hdelimiter : IsDelimiter delimiter) (p : Data × Data) (params : List (Data × Data)) :
    weight (joined delimiter (p :: params)) + 1 = ((p :: params).map cost).sum := by
  have hitem (p : Data × Data) : weight (encodeItem p) + 1 = cost p := by
    rw [encodeItem_eq, weight_append, cost]
    split
    · rfl
    · rw [weight_cons, weight_written, if_neg (by decide)]
      omega
  induction params generalizing p with
  | nil => simpa [joined] using hitem p
  | cons b params ih =>
    have hb := ih b
    have hp := hitem p
    rw [joined_cons_cons, weight_append, weight_cons, if_neg hdelimiter.ne.2.2.1, List.map_cons, List.sum_cons]
    omega

theorem cost_le_of_subset {params params' : List (Data × Data)} (hnodup : params.Nodup) (h : params ⊆ params') :
    (params.map cost).sum ≤ (params'.map cost).sum := by
  obtain ⟨l, hperm, hsub⟩ := hnodup.subperm h
  rw [← (hperm.map cost).sum_eq]
  exact (hsub.map cost).sum_le_sum (fun _ _ => Nat.zero_le _)

/-! ### Writing and reading -/

theorem decodeWith_joined (hdelimiter : IsDelimiter delimiter) {before : List (Data × Data)}
    (hbefore : ∀ a ∈ before, Closed delimiter a) (hp : Sound delimiter p)
    (hkey : p.1 ≠ []) (hascending : Ascending (before ++ [p])) :
    decodeWith delimiter eatWhitespace (joined delimiter (before ++ [p])) =
      before.map (fun a => (a.1, eaten eatWhitespace (written a))) ++ [(p.1, written p)] := by
  have hstores : stores eatWhitespace (before.map (fun a => (a.1, written a)), (p.1, written p)) =
      before.map (fun a => (a.1, eaten eatWhitespace (written a))) ++ [(p.1, written p)] := by
    unfold stores
    rw [if_pos hkey, List.map_map]
    rfl
  rw [decodeWith_eq, scan_joined hdelimiter hbefore hp, hstores]
  apply storeAll_of_ascending
  have hkeys : (before ++ [p]).map (·.1) =
      (before.map (fun a => (a.1, eaten eatWhitespace (written a))) ++ [(p.1, written p)]).map (·.1) := by
    simp
  have hpairwise := List.pairwise_map.mpr hascending
  rw [hkeys] at hpairwise
  exact List.pairwise_map.mp hpairwise

theorem Ascending.nodup_keys (h : l.Ascending) : (l.map (·.1)).Nodup := List.pairwise_map.mpr (h.imp fun hlt => hlt.ne)

theorem Ascending.nodup (h : l.Ascending) : l.Nodup := h.nodup_keys.of_map _

theorem Ascending.unique (h : l.Ascending) {a b : Data × Data} (ha : a ∈ l) (hb : b ∈ l) (hkey : a.1 = b.1) : a = b :=
  List.inj_on_of_nodup_map h.nodup_keys ha hb hkey

theorem one_le_cost (p : Data × Data) : 1 ≤ cost p := Nat.le_add_left ..

theorem mem_of_mem_storeAll {params : List (Data × Data)} (h : p ∈ storeAll [] params) : p ∈ params := by
  obtain ⟨before, after, rfl, -⟩ := mem_storeAll.mp h
  simp

theorem exists_mem_storeAll {params : List (Data × Data)} (h : p ∈ params) : ∃ a ∈ storeAll [] params, a.1 = p.1 := by
  induction params using List.reverseRecOn with
  | nil => cases h
  | append_singleton params b ih =>
    rw [storeAll_concat]
    have hascending := ascending_storeAll params
    by_cases hkey : b.1 = p.1
    · exact ⟨(b.1, b.2), (mem_setValue hascending).mpr (Or.inl rfl), hkey⟩
    · rcases List.mem_append.mp h with h | h
      · obtain ⟨a, ha, hap⟩ := ih h
        exact ⟨a, (mem_setValue hascending).mpr (Or.inr ⟨ha, fun hab => hkey (hab.symm.trans hap)⟩), hap⟩
      · rw [List.mem_singleton.mp h] at hkey
        exact absurd rfl hkey

theorem cost_le_of_read (hdelimiter : IsDelimiter delimiter) {params params' : List (Data × Data)} (hparams : params ≠ [])
    (hnodup : params'.Nodup)
    (h : params' ⊆ stores eatWhitespace (scan delimiter [] [] false false (joined delimiter params))) :
    (params'.map cost).sum ≤ (params.map cost).sum := by
  obtain ⟨a, rest, rfl⟩ := List.exists_cons_of_ne_nil hparams
  have hroom := cost_stores_le hdelimiter eatWhitespace (joined delimiter (a :: rest))
  rw [weight_joined hdelimiter] at hroom
  exact (cost_le_of_subset hnodup h).trans hroom

theorem decodeWith_nil : decodeWith delimiter eatWhitespace [] = [] := rfl

theorem keys_of_eq (hdelimiter : IsDelimiter delimiter) (hascending : l.Ascending)
    (h : decodeWith delimiter eatWhitespace (encodeWith delimiter l) = l) : ∀ p ∈ l, p.1 ≠ [] := by
  intro p hp hempty
  have hencode : encodeWith delimiter l = joined delimiter (l.filter (·.1 ≠ [])) := rfl
  rw [hencode] at h
  by_cases hnone : l.filter (·.1 ≠ []) = []
  · rw [hnone] at h
    have hnil : l = [] := h.symm.trans decodeWith_nil
    rw [hnil] at hp
    cases hp
  · have hsubset : l ⊆ stores eatWhitespace (scan delimiter [] [] false false (joined delimiter (l.filter (·.1 ≠ [])))) := by
      intro a ha
      rw [decodeWith_eq] at h
      rw [← h] at ha
      exact mem_of_mem_storeAll ha
    have hroom := cost_le_of_read hdelimiter hnone hascending.nodup hsubset
    have hpart : ((p :: l.filter (·.1 ≠ [])).map cost).sum ≤ (l.map cost).sum := by
      apply cost_le_of_subset
      · rw [List.nodup_cons]
        exact ⟨fun hmem => by simp [hempty] at hmem, hascending.nodup.filter _⟩
      · intro a ha
        rcases List.mem_cons.mp ha with rfl | ha
        · exact hp
        · exact (List.mem_filter.mp ha).1
    have hone := one_le_cost p
    rw [List.map_cons, List.sum_cons] at hpart
    omega

/-- A list with an open quote before its end is not read again. -/
theorem not_eq_of_open (hdelimiter : IsDelimiter delimiter) {before after : List (Data × Data)} {b : Data × Data}
    (hascending : Ascending (before ++ p :: b :: after))
    (hbefore : ∀ a ∈ before, Closed delimiter a)
    (hk : IsKey delimiter p.1) (hkey : p.1 ≠ []) (hopen : quotes delimiter false p.2 = some true) :
    decodeWith delimiter eatWhitespace (joined delimiter (before ++ p :: b :: after)) ≠ before ++ p :: b :: after := by
  intro h
  generalize hl : before ++ p :: b :: after = l at h hascending
  have hp : p ∈ l := by
    rw [← hl]
    simp
  obtain ⟨x, hx, hcount⟩ := scan_joined_open hdelimiter hbefore hk hopen b after
  rw [hl] at hx
  have hdelimiter' := hdelimiter.ne.1
  rw [decodeWith_eq] at h
  obtain ⟨y, hy, hcount'⟩ : ∃ y, (p.1, y) ∈ stores eatWhitespace (scan delimiter [] [] false false (joined delimiter l)) ∧
      y.count delimiter = x.count delimiter := by
    unfold stores
    rcases List.mem_append.mp hx with hx | hx
    · exact ⟨eaten eatWhitespace x, List.mem_append_left _ (List.mem_map.mpr ⟨_, hx, rfl⟩), count_eaten hdelimiter' x⟩
    · rw [← List.mem_singleton.mp hx, if_pos hkey]
      exact ⟨x, List.mem_append_right _ (List.mem_singleton_self _), rfl⟩
  have hnot : (p.1, y) ∉ l := by
    intro hmem
    have hsame := hascending.unique hmem hp rfl
    rw [← hsame] at hcount
    exact absurd hcount (by dsimp only; omega)
  have hsubset : (p.1, y) :: l ⊆ stores eatWhitespace (scan delimiter [] [] false false (joined delimiter l)) := by
    intro a ha
    rcases List.mem_cons.mp ha with rfl | ha
    · exact hy
    · rw [← h] at ha
      exact mem_of_mem_storeAll ha
  have hroom := cost_le_of_read hdelimiter (List.ne_nil_of_mem hp) (List.nodup_cons.mpr ⟨hnot, hascending.nodup⟩) hsubset
  have hone := one_le_cost (p.1, y)
  rw [List.map_cons, List.sum_cons] at hroom
  omega

/-! ### The round trip -/

theorem written_eq_iff (p : Data × Data) : written p = p.2 ↔ (p.1 ∈ quotedKeys → p.2 = [] ∨ '"' ∈ p.2) := by
  constructor
  · intro h hkey
    by_contra! hvalue
    obtain ⟨hne, hnot⟩ := hvalue
    have hcond : (quotedKeys.contains p.1 && !p.2.contains '"') = true := by simpa [hnot] using hkey
    have hlength := congrArg List.length h
    unfold written encodeValue at hlength
    rw [if_neg hne, if_pos hcond] at hlength
    simp at hlength
    omega
  · intro h
    rcases written_cases p with heq | ⟨-, hkey, hne, hnot⟩
    · exact heq
    · exact absurd (h hkey) (not_or.mpr ⟨hne, hnot⟩)

theorem eaten_written_eq_iff (p : Data × Data) :
    eaten eatWhitespace (written p) = p.2 ↔ eaten eatWhitespace p.2 = p.2 ∧ written p = p.2 := by
  constructor
  · intro h
    rcases written_cases p with heq | ⟨heq, -, -, hnot⟩
    · exact ⟨heq ▸ h, heq⟩
    · have hmem : '"' ∈ eaten eatWhitespace (written p) := (mem_eaten (by decide)).mpr (by simp [heq])
      exact absurd (h ▸ hmem) hnot
  · rintro ⟨heaten, heq⟩
    rw [heq, heaten]

theorem decodeWith_joined_eq_iff (hdelimiter : IsDelimiter delimiter) {before : List (Data × Data)}
    (hbefore : ∀ a ∈ before, Closed delimiter a) (hp : Sound delimiter p) (hkey : p.1 ≠ [])
    (hascending : Ascending (before ++ [p])) :
    decodeWith delimiter eatWhitespace (joined delimiter (before ++ [p])) = before ++ [p] ↔
      (∀ a ∈ before, eaten eatWhitespace a.2 = a.2) ∧ ∀ a ∈ before ++ [p], written a = a.2 := by
  have hsame : before.map (fun a => (a.1, eaten eatWhitespace (written a))) = before ↔
      ∀ a ∈ before, eaten eatWhitespace a.2 = a.2 ∧ written a = a.2 := by
    conv_lhs => rw [← List.map_id before, List.map_map, List.map_inj_left]
    refine forall₂_congr fun a _ => ?_
    rw [← eaten_written_eq_iff]
    exact Prod.ext_iff.trans (and_iff_right rfl)
  have hlast : (p.1, written p) = p ↔ written p = p.2 := Prod.ext_iff.trans (and_iff_right rfl)
  rw [decodeWith_joined hdelimiter hbefore hp hkey hascending, List.append_singleton_inj, hsame, hlast]
  constructor
  · rintro ⟨hbefore, hp⟩
    refine ⟨fun a ha => (hbefore a ha).1, fun a ha => ?_⟩
    rcases List.mem_append.mp ha with ha | ha
    · exact (hbefore a ha).2
    · rwa [List.mem_singleton.mp ha]
  · rintro ⟨heaten, hwritten⟩
    exact ⟨fun a ha => ⟨heaten a ha, hwritten a (List.mem_append_left _ ha)⟩, hwritten p (by simp)⟩

theorem mem_stores {found : List (Data × Data) × (Data × Data)} :
    p ∈ stores eatWhitespace found ↔
      (∃ a ∈ found.1, (a.1, eaten eatWhitespace a.2) = p) ∨ found.2.1 ≠ [] ∧ p = found.2 := by
  unfold stores
  rw [List.mem_append, List.mem_map]
  refine or_congr_right ?_
  split_ifs with h <;> simp [h]

theorem encodeWith_eq_joined (hkeys : ∀ p ∈ l, p.1 ≠ []) : encodeWith delimiter l = joined delimiter l := by
  unfold encodeWith joined
  rw [List.filter_eq_self.mpr fun p hp => decide_eq_true (hkeys p hp)]

section Found

variable {found : List (Data × Data) × (Data × Data)}

theorem keys_iff : (∀ p ∈ storeAll [] (stores eatWhitespace found), p.1 ≠ []) ↔ ∀ p ∈ found.1, p.1 ≠ [] := by
  constructor
  · intro h p hp
    have hmem : (p.1, eaten eatWhitespace p.2) ∈ stores eatWhitespace found := mem_stores.mpr (Or.inl ⟨p, hp, rfl⟩)
    obtain ⟨a, ha, hkey⟩ := exists_mem_storeAll hmem
    exact ne_of_eq_of_ne hkey.symm (h a ha)
  · intro h p hp
    rcases mem_stores.mp (mem_of_mem_storeAll hp) with ⟨a, ha, rfl⟩ | ⟨hkey, rfl⟩
    · exact h a ha
    · exact hkey

theorem quoted_iff : (∀ p ∈ storeAll [] (stores eatWhitespace found), written p = p.2) ↔
    ∀ before p after, stores eatWhitespace found = before ++ p :: after → (∀ q ∈ after, q.1 ≠ p.1) →
      p.1 ∈ quotedKeys → p.2 = [] ∨ '"' ∈ p.2 := by
  constructor
  · intro h before p after heq hafter
    exact (written_eq_iff p).mp (h p (mem_storeAll.mpr ⟨before, after, heq, hafter⟩))
  · intro h p hp
    obtain ⟨before, after, heq, hafter⟩ := mem_storeAll.mp hp
    exact (written_eq_iff p).mpr (h before p after heq hafter)

variable (hdelimiter : IsDelimiter delimiter)
  (hended : ∀ p ∈ found.1, Closed delimiter p) (hlast : Sound delimiter found.2)

include hdelimiter hended

theorem closed_or_last (hp : p ∈ storeAll [] (stores eatWhitespace found)) :
    Closed delimiter p ∧ eaten eatWhitespace p.2 = p.2 ∨ found.2.1 ≠ [] ∧ p = found.2 := by
  rcases mem_stores.mp (mem_of_mem_storeAll hp) with ⟨a, ha, rfl⟩ | hp
  · obtain ⟨hkey, hvalue⟩ := hended a ha
    exact Or.inl ⟨⟨hkey, (quotes_eaten hdelimiter.ne.1 a.2).trans hvalue⟩, eaten_eaten a.2⟩
  · exact Or.inr hp

include hlast

/-- Only the last of the map can have an open quote or be untrimmed. -/
theorem closed_of_last {before : List (Data × Data)}
    (h : LastKept eatWhitespace found) (hl : storeAll [] (stores eatWhitespace found) = before ++ [p]) :
    (∀ a ∈ before, Closed delimiter a ∧ eaten eatWhitespace a.2 = a.2) ∧ Sound delimiter p := by
  have hascending : Ascending (before ++ [p]) := hl ▸ ascending_storeAll _
  have hcases : ∀ a ∈ before ++ [p], Closed delimiter a ∧ eaten eatWhitespace a.2 = a.2 ∨ found.2.1 ≠ [] ∧ a = found.2 :=
    fun a ha => closed_or_last hdelimiter hended (hl ▸ ha)
  constructor
  · intro a ha
    rcases hcases a (List.mem_append_left _ ha) with ha' | ⟨hkey, rfl⟩
    · exact ha'
    · rcases h with hempty | hle | ⟨heaten, heven⟩
      · exact absurd hempty hkey
      · -- a greater key was stored for a parameter of the text
        have hless : found.2.1 < p.1 := (List.pairwise_append.mp hascending).2.2 _ ha p (List.mem_singleton_self p)
        have hp : p ∈ storeAll [] (stores eatWhitespace found) := by
          rw [hl]
          simp
        rcases mem_stores.mp (mem_of_mem_storeAll hp) with ⟨b, hb, rfl⟩ | ⟨-, rfl⟩
        · exact absurd hless (not_lt.mpr (hle b hb))
        · exact absurd hless (lt_irrefl _)
      · exact ⟨hlast.closed heven, heaten⟩
  · rcases hcases p (by simp) with ⟨hp, -⟩ | ⟨-, rfl⟩
    · exact hp.sound
    · exact hlast

theorem read_iff_of_last (hkeys : ∀ p ∈ storeAll [] (stores eatWhitespace found), p.1 ≠ [])
    (h : LastKept eatWhitespace found) :
    decodeWith delimiter eatWhitespace (encodeWith delimiter (storeAll [] (stores eatWhitespace found))) =
      storeAll [] (stores eatWhitespace found) ↔ ∀ p ∈ storeAll [] (stores eatWhitespace found), written p = p.2 := by
  have hascending := ascending_storeAll (stores eatWhitespace found)
  rw [encodeWith_eq_joined hkeys]
  rcases List.eq_nil_or_concat (storeAll [] (stores eatWhitespace found)) with hl | ⟨before, p, hl⟩
  · rw [hl]
    exact iff_of_true decodeWith_nil (fun p hp => (List.not_mem_nil hp).elim)
  · rw [List.concat_eq_append] at hl
    obtain ⟨hclosed, hp⟩ := closed_of_last hdelimiter hended hlast h hl
    rw [hl] at hkeys hascending ⊢
    rw [decodeWith_joined_eq_iff hdelimiter (fun a ha => (hclosed a ha).1) hp (hkeys p (by simp)) hascending]
    exact and_iff_right fun a ha => (hclosed a ha).2

omit hdelimiter hended hlast in
theorem last_mem (hkey : found.2.1 ≠ []) : found.2 ∈ storeAll [] (stores eatWhitespace found) := by
  refine mem_storeAll.mpr ⟨found.1.map fun p => (p.1, eaten eatWhitespace p.2), [], ?_, by simp⟩
  unfold stores
  rw [if_pos hkey]

omit hdelimiter hended hlast in
theorem le_of_end {before : List (Data × Data)} (hl : storeAll [] (stores eatWhitespace found) = before ++ [found.2]) :
    ∀ p ∈ found.1, p.1 ≤ found.2.1 := by
  intro p hp
  have hascending : Ascending (before ++ [found.2]) := hl ▸ ascending_storeAll _
  have hstored : (p.1, eaten eatWhitespace p.2) ∈ stores eatWhitespace found := mem_stores.mpr (Or.inl ⟨p, hp, rfl⟩)
  obtain ⟨a, ha, hsame⟩ := exists_mem_storeAll hstored
  have hle : a.1 ≤ found.2.1 := by
    rw [hl] at ha
    rcases List.mem_append.mp ha with ha | ha
    · exact ((List.pairwise_append.mp hascending).2.2 a ha _ (List.mem_singleton_self _)).le
    · rw [List.mem_singleton.mp ha]
  exact hsame ▸ hle

/-- A map that is read again has the last parameter at its end, or this is trimmed and has no open quote. -/
theorem last_of_eq (hkeys : ∀ p ∈ storeAll [] (stores eatWhitespace found), p.1 ≠ [])
    (h : decodeWith delimiter eatWhitespace (encodeWith delimiter (storeAll [] (stores eatWhitespace found))) =
      storeAll [] (stores eatWhitespace found)) :
    LastKept eatWhitespace found := by
  by_cases hkey : found.2.1 = []
  · exact Or.inl hkey
  right
  have hascending := ascending_storeAll (stores eatWhitespace found)
  rw [encodeWith_eq_joined hkeys] at h
  obtain ⟨before, after, hl⟩ := List.append_of_mem (last_mem hkey)
  rcases List.eq_nil_or_concat after with rfl | ⟨more, z, hafter⟩
  · exact Or.inl (le_of_end hl)
  · right
    rw [List.concat_eq_append] at hafter
    have hcases : ∀ a ∈ before ++ found.2 :: after,
        Closed delimiter a ∧ eaten eatWhitespace a.2 = a.2 ∨ found.2.1 ≠ [] ∧ a = found.2 :=
      fun a ha => closed_or_last hdelimiter hended (hl ▸ ha)
    rw [hl] at h hkeys hascending
    have hbefore : ∀ a ∈ before, Closed delimiter a := by
      intro a ha
      rcases hcases a (List.mem_append_left _ ha) with ⟨ha', -⟩ | ⟨-, rfl⟩
      · exact ha'
      · exact absurd ((List.pairwise_append.mp hascending).2.2 _ ha found.2 (List.mem_cons_self ..)) (lt_irrefl _)
    have hclosed : Closed delimiter found.2 := by
      obtain ⟨q, hq⟩ := hlast.value
      cases q with
      | false => exact ⟨hlast.key, hq⟩
      | true =>
        obtain ⟨b, rest, hcons⟩ := List.exists_cons_of_ne_nil (show after ≠ [] by rw [hafter]; simp)
        rw [hcons] at h hascending
        exact absurd h (not_eq_of_open hdelimiter hascending hbefore hlast.key hkey hq)
    have hall : ∀ a ∈ before ++ found.2 :: after, Closed delimiter a := by
      intro a ha
      rcases hcases a ha with ⟨ha', -⟩ | ⟨-, rfl⟩
      · exact ha'
      · exact hclosed
    have hsplit : before ++ found.2 :: after = (before ++ found.2 :: more) ++ [z] := by simp [hafter]
    rw [hsplit] at h hkeys hascending hall
    have heaten := ((decodeWith_joined_eq_iff hdelimiter (fun a ha => hall a (List.mem_append_left _ ha))
      (hall z (by simp)).sound (hkeys z (by simp)) hascending).mp h).1 found.2 (by simp)
    exact ⟨heaten, (even_count_of_quotes hclosed.2).mpr rfl⟩

end Found

/-- The parameters of a text are the same when they are written and read again if and only if no key is empty, the
values kept for some keys have quotes, and what is behind the last delimiter stays last or is trimmed and closed. -/
theorem decodeWith_encodeWith_iff (hdelimiter : IsDelimiter delimiter) (eatWhitespace : Bool) (text : Data) :
    decodeWith delimiter eatWhitespace (encodeWith delimiter (decodeWith delimiter eatWhitespace text)) =
      decodeWith delimiter eatWhitespace text ↔ Kept eatWhitespace (scan delimiter [] [] false false text) := by
  obtain ⟨hended, hlast⟩ := scan_sound hdelimiter reads_start text
  rw [decodeWith_eq text]
  constructor
  · intro h
    have hkeys := keys_of_eq hdelimiter (ascending_storeAll _) h
    have hgood := last_of_eq hdelimiter hended hlast hkeys h
    exact ⟨keys_iff.mp hkeys, quoted_iff.mp ((read_iff_of_last hdelimiter hended hlast hkeys hgood).mp h), hgood⟩
  · intro h
    exact (read_iff_of_last hdelimiter hended hlast (keys_iff.mpr h.keys) h.last).mpr (quoted_iff.mpr h.quoted)

/-- A value with quotes around a delimiter. -/
theorem decodeWith_encodeWith_iff_realm :
    decodeWith ',' true (encodeWith ',' (decodeWith ',' true "realm=\"a,b\", stale=no".toList)) =
      decodeWith ',' true "realm=\"a,b\", stale=no".toList ↔
      Kept true (scan ',' [] [] false false "realm=\"a,b\", stale=no".toList) :=
  decodeWith_encodeWith_iff (Or.inr rfl) true _

/-- The last value is not trimmed; it is written in front of another and is trimmed then. -/
theorem last_value_untrimmed :
    decodeWith ';' true (encodeWith ';' (decodeWith ';' true "b=1;a= x".toList)) ≠
      decodeWith ';' true "b=1;a= x".toList := by
  decide

-- quotes that are written are read as a part of the value
example : decodeWith ',' true (encodeWith ',' (decodeWith ',' true "realm=x".toList)) =
    [("realm".toList, "\"x\"".toList)] := by
  decide

end Vocal.Sip.SipParameterList
