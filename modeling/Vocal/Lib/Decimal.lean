import Mathlib.Data.BitVec

/-!
# Numbers as texts

The decimal form in which the output functions of C write a number, and `strtol` and `atoi`, which read it back:
`strtol_decimal` and `atoi_decimal`.
-/

namespace Vocal

/-- `isspace`. -/
def isspace (c : Char) : Bool := c ∈ [' ', '\t', '\n', '\x0b', '\x0c', '\r']

/-- The value of the digits in front of a text. -/
def digits : List Char → Nat → Nat
  | [], n => n
  | c :: rest, n => if c.isDigit then digits rest (10 * n + (c.toNat - '0'.toNat)) else n

/-- `strtol`, where `long` has `w` bits. -/
def strtol (w : Nat) (text : List Char) : Int :=
  let value : Int := match text.dropWhile isspace with
    | '-' :: rest => -(digits rest 0 : Int)
    | '+' :: rest => digits rest 0
    | rest => digits rest 0
  max (-2 ^ (w - 1)) (min value (2 ^ (w - 1) - 1))

/-- `atoi`. -/
def atoi (w : Nat) (text : List Char) : Int := (BitVec.ofInt 32 (strtol w text)).toInt

/-- The decimal form of a number, as `%d` and the output operators write it. -/
def decimal (n : Int) : List Char :=
  if 0 ≤ n then Nat.toDigits 10 n.toNat else '-' :: Nat.toDigits 10 (-n).toNat

/-- The decimal form with zeros in front up to a width, as `%02d` writes it. The sign counts. -/
def decimalPadded (width : Nat) (n : Int) : List Char :=
  if 0 ≤ n then List.replicate (width - (decimal n).length) '0' ++ decimal n
  else '-' :: (List.replicate (width - (decimal n).length) '0' ++ Nat.toDigits 10 (-n).toNat)

/-! ### The characters -/

/-- The characters of a number. -/
def isNumeric (c : Char) : Bool := c.isDigit || c = '-'

theorem isNumeric_of_mem_toDigits {n : Nat} {c : Char} (h : c ∈ Nat.toDigits 10 n) : isNumeric c = true := by
  rw [isNumeric, Nat.isDigit_of_mem_toDigits (by decide) (by decide) h]
  rfl

theorem isNumeric_of_mem_decimal {n : Int} {c : Char} (h : c ∈ decimal n) : isNumeric c = true := by
  rw [decimal] at h
  split at h
  · exact isNumeric_of_mem_toDigits h
  · rcases List.mem_cons.mp h with rfl | h
    · rfl
    · exact isNumeric_of_mem_toDigits h

theorem isNumeric_of_mem_decimalPadded {width : Nat} {n : Int} {c : Char} (h : c ∈ decimalPadded width n) :
    isNumeric c = true := by
  rw [decimalPadded] at h
  split at h
  · rcases List.mem_append.mp h with h | h
    · rw [List.eq_of_mem_replicate h]
      rfl
    · exact isNumeric_of_mem_decimal h
  · rcases List.mem_cons.mp h with rfl | h
    · rfl
    · rcases List.mem_append.mp h with h | h
      · rw [List.eq_of_mem_replicate h]
        rfl
      · exact isNumeric_of_mem_toDigits h

theorem decimal_ne_nil (n : Int) : decimal n ≠ [] := by
  rw [decimal]
  split
  · exact Nat.toDigits_ne_nil
  · simp

/-! ### The length -/

theorem toNat_lt_pow {n : Int} {k : Nat} (h : n < 10 ^ k) : n.toNat < 10 ^ k := by
  have hcast : ((10 ^ k : Nat) : Int) = 10 ^ k := by push_cast; rfl
  have hpos : 0 < 10 ^ k := Nat.pow_pos (by decide)
  omega

theorem length_toDigits_le {n k : Nat} (hk : 0 < k) (h : n < 10 ^ k) : (Nat.toDigits 10 n).length ≤ k :=
  (Nat.length_toDigits_le_iff (by decide) hk).mpr h

theorem length_decimal_le {n : Int} {k : Nat} (hk : 0 < k) (hlow : -10 ^ k < n) (hhigh : n < 10 ^ k) :
    (decimal n).length ≤ k + 1 := by
  rw [decimal]
  split
  · exact (length_toDigits_le hk (toNat_lt_pow hhigh)).trans (Nat.le_succ k)
  · exact Nat.succ_le_succ (length_toDigits_le hk (toNat_lt_pow (by omega)))

theorem length_decimalPadded_eq (width : Nat) (n : Int) :
    (decimalPadded width n).length = max width (decimal n).length := by
  rw [decimalPadded, decimal]
  split
  · rw [List.length_append, List.length_replicate]
    omega
  · rw [List.length_cons, List.length_append, List.length_replicate, List.length_cons]
    omega

theorem length_decimalPadded {n : Int} {width : Nat} (hwidth : 0 < width) (hlow : 0 ≤ n) (hhigh : n < 10 ^ width) :
    (decimalPadded width n).length = width := by
  have hlen : (decimal n).length ≤ width := by
    rw [decimal, if_pos hlow]
    exact length_toDigits_le hwidth (toNat_lt_pow hhigh)
  rw [length_decimalPadded_eq, max_eq_left hlen]

/-! ### Reading -/

theorem digits_append {x : List Char} (hx : ∀ c ∈ x, c.isDigit = true) (n : Nat) (rest : List Char) :
    digits (x ++ rest) n = digits rest (digits x n) := by
  induction x generalizing n with
  | nil => rfl
  | cons c x ih =>
    have hc := hx c (List.mem_cons_self ..)
    rw [List.cons_append, digits, if_pos hc, digits, if_pos hc, ih fun b hb => hx b (List.mem_cons_of_mem _ hb)]

theorem digits_digitChar : ∀ d < 10, ∀ n, digits [Nat.digitChar d] n = 10 * n + d := by
  intro d hd n
  have hchar : (Nat.digitChar d).isDigit = true ∧ (Nat.digitChar d).toNat - '0'.toNat = d := by
    revert d
    decide
  rw [digits, if_pos hchar.1, hchar.2, digits]

theorem digits_toDigits (n : Nat) : digits (Nat.toDigits 10 n) 0 = n := by
  induction n using Nat.strong_induction_on with
  | _ n ih =>
    by_cases hlt : n < 10
    · rw [Nat.toDigits_of_lt_base hlt, digits_digitChar n hlt, Nat.mul_zero, Nat.zero_add]
    · have hmod : n % 10 < 10 := Nat.mod_lt _ (by decide)
      have hdigits : ∀ c ∈ Nat.toDigits 10 (n / 10), c.isDigit = true :=
        fun c hc => Nat.isDigit_of_mem_toDigits (by decide) (by decide) hc
      rw [Nat.toDigits_of_base_le (by decide) (Nat.le_of_not_lt hlt), digits_append hdigits, ih (n / 10) (by omega),
        digits_digitChar _ hmod]
      omega

theorem not_isspace_of_isNumeric {c : Char} (h : isNumeric c = true) : isspace c = false := by
  rw [Bool.eq_false_iff]
  intro hspace
  have hcases : c = ' ' ∨ c = '\t' ∨ c = '\n' ∨ c = '\x0b' ∨ c = '\x0c' ∨ c = '\r' := by
    simpa [isspace] using hspace
  rcases hcases with rfl | rfl | rfl | rfl | rfl | rfl <;> revert h <;> decide

theorem dropWhile_isspace_decimal (n : Int) : (decimal n).dropWhile isspace = decimal n := by
  cases hd : decimal n with
  | nil => rfl
  | cons c x =>
    have hc : isNumeric c = true := isNumeric_of_mem_decimal (n := n) (by rw [hd]; exact List.mem_cons_self ..)
    rw [List.dropWhile_cons_of_neg (by simp [not_isspace_of_isNumeric hc])]

theorem strtol_decimal_eq (w : Nat) (n : Int) :
    strtol w (decimal n) = max (-2 ^ (w - 1)) (min n (2 ^ (w - 1) - 1)) := by
  rw [strtol, dropWhile_isspace_decimal]
  by_cases hpos : 0 ≤ n
  · have hdec : decimal n = Nat.toDigits 10 n.toNat := if_pos hpos
    have hdigit : ∀ c ∈ decimal n, c.isDigit = true := by
      intro c hc
      rw [hdec] at hc
      exact Nat.isDigit_of_mem_toDigits (by decide) (by decide) hc
    have hvalue : (digits (decimal n) 0 : Int) = n := by
      rw [hdec, digits_toDigits, Int.toNat_of_nonneg hpos]
    split
    · rename_i rest heq
      have hminus := hdigit '-' (by rw [heq]; exact List.mem_cons_self ..)
      exact absurd hminus (by decide)
    · rename_i rest heq
      have hplus := hdigit '+' (by rw [heq]; exact List.mem_cons_self ..)
      exact absurd hplus (by decide)
    · rw [hvalue]
  · have hdec : decimal n = '-' :: Nat.toDigits 10 (-n).toNat := if_neg hpos
    rw [hdec]
    simp only [digits_toDigits]
    rw [Int.toNat_of_nonneg (by omega), Int.neg_neg]

theorem strtol_decimal {w : Nat} {n : Int} (hlow : -2 ^ (w - 1) ≤ n) (hhigh : n < 2 ^ (w - 1)) :
    strtol w (decimal n) = n := by
  rw [strtol_decimal_eq, min_eq_left (by omega), max_eq_right hlow]

theorem atoi_decimal {w : Nat} (hw : 32 ≤ w) {n : Int} (hlow : -2 ^ 31 ≤ n) (hhigh : n < 2 ^ 31) :
    atoi w (decimal n) = n := by
  have hpow : (2 : Int) ^ 31 ≤ 2 ^ (w - 1) := by
    have hnat : 2 ^ 31 ≤ 2 ^ (w - 1) := Nat.pow_le_pow_right (by decide) (by omega)
    exact_mod_cast hnat
  rw [atoi, strtol_decimal (by omega) (by omega), BitVec.toInt_ofInt]
  exact Int.bmod_eq_of_le (by omega) (by omega)

/-! ### Digits that come back -/

theorem decimal_ofNat (n : Nat) : decimal n = Nat.toDigits 10 n := by
  rw [decimal, if_pos (Int.natCast_nonneg n), Int.toNat_natCast]

theorem isDigit_of_mem_decimal {n : Nat} {c : Char} (h : c ∈ decimal n) : c.isDigit = true := by
  rw [decimal_ofNat] at h
  exact Nat.isDigit_of_mem_toDigits (by decide) (by decide) h

theorem nonneg_of_isDigit {n : Int} (h : ∀ c ∈ decimal n, c.isDigit = true) : 0 ≤ n := by
  by_contra hneg
  rw [decimal, if_neg hneg] at h
  exact absurd (h '-' (List.mem_cons_self ..)) (by decide)

theorem decimal_atoi_iff {w : Nat} (hw : 32 ≤ w) {x : List Char} (hx : ∀ c ∈ x, c.isDigit = true) :
    decimal (atoi w x) = x ↔ ∃ n : Nat, n < 2 ^ 31 ∧ x = decimal n := by
  constructor
  · intro h
    have hnonneg : 0 ≤ atoi w x := nonneg_of_isDigit (by rwa [h])
    have hlt : atoi w x < 2 ^ 31 := BitVec.toInt_lt
    obtain ⟨n, hn⟩ := Int.eq_ofNat_of_zero_le hnonneg
    exact ⟨n, by omega, by rw [← hn, h]⟩
  · rintro ⟨n, hn, rfl⟩
    rw [atoi_decimal hw (by omega) (by omega)]

theorem decimal_unsigned_iff (w : Nat) {x : List Char} (hx : ∀ c ∈ x, c.isDigit = true) :
    decimal (BitVec.ofInt 32 (atoi w x)).toNat = x ↔ ∃ n : Nat, n < 2 ^ 32 ∧ n < 2 ^ (w - 1) ∧ x = decimal n := by
  have hvalue : ∀ n : Nat, ((BitVec.ofInt 32 (atoi w (decimal n))).toNat : Int) = min (n : Int) (2 ^ (w - 1) - 1) % 2 ^ 32 := by
    intro n
    have hpow : (1 : Int) ≤ 2 ^ (w - 1) := by
      exact_mod_cast Nat.one_le_two_pow
    rw [atoi, BitVec.ofInt_toInt, BitVec.toNat_ofInt, strtol_decimal_eq, max_eq_right (by omega),
      Int.toNat_of_nonneg (Int.emod_nonneg _ (by decide))]
    rfl
  constructor
  · intro h
    refine ⟨_, (BitVec.ofInt 32 (atoi w x)).isLt, ?_, h.symm⟩
    have hback := hvalue (BitVec.ofInt 32 (atoi w x)).toNat
    rw [h] at hback
    by_contra hge
    have hle : (2 : Int) ^ (w - 1) ≤ (BitVec.ofInt 32 (atoi w x)).toNat := by
      exact_mod_cast Nat.le_of_not_lt hge
    have hpow : (1 : Int) ≤ 2 ^ (w - 1) := by
      exact_mod_cast Nat.one_le_two_pow
    rw [min_eq_right (by omega)] at hback
    generalize (2 : Int) ^ (w - 1) = bound at hle hpow hback
    omega
  · rintro ⟨n, hn, hlong, rfl⟩
    have hback := hvalue n
    have hlong' : (n : Int) < 2 ^ (w - 1) := by exact_mod_cast hlong
    have hn' : (n : Int) < 2 ^ 32 := by exact_mod_cast hn
    rw [min_eq_left (by omega), Int.emod_eq_of_lt (Int.natCast_nonneg n) hn'] at hback
    rw [hback]

end Vocal
