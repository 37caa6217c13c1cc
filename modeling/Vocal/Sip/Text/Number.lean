import Mathlib.Data.Nat.Digits.Defs
import Vocal.Sip.Text

/-!
# Numbers as texts

`Data(int)` writes a number and `Data::convertInt` reads one. `convertInt_ofInt` says that every
`int` but the least is read back.
-/

namespace Vocal.Sip

/-! ### Natural numbers -/

/-- The digits of a number. -/
def Data.ofNat (n : Nat) : Data := if n = 0 then ['0'] else ((Nat.digits 10 n).map Nat.digitChar).reverse

/-- The value of a digit. -/
def digitVal (c : Char) : Nat := c.toNat - '0'.toNat

theorem digitVal_digitChar : ∀ d < 10, digitVal (Nat.digitChar d) = d := by
  decide

theorem isdigit_digitChar : ∀ d < 10, isdigit (Nat.digitChar d) = true := by
  decide

namespace Data

theorem ofDigits_ofNat (n : Nat) : Nat.ofDigits 10 ((ofNat n).reverse.map digitVal) = n := by
  rw [ofNat]
  split
  · rename_i h
    rw [h]
    rfl
  · have hdigits : ((Nat.digits 10 n).map Nat.digitChar).map digitVal = Nat.digits 10 n := by
      nth_rewrite 2 [← List.map_id (Nat.digits 10 n)]
      rw [List.map_map]
      apply List.map_congr_left
      intro d hd
      exact digitVal_digitChar d (Nat.digits_lt_base (by decide) hd)
    rw [List.reverse_reverse, hdigits, Nat.ofDigits_digits]

theorem ofNat_injective : Function.Injective ofNat := by
  intro n m h
  rw [← ofDigits_ofNat n, h, ofDigits_ofNat]

theorem ofNat_ne_nil (n : Nat) : ofNat n ≠ [] := by
  rw [ofNat]
  split
  · simp
  · rename_i h
    rw [ne_eq, List.reverse_eq_nil_iff, List.map_eq_nil_iff, Nat.digits_eq_nil_iff_eq_zero]
    exact h

theorem isdigit_of_mem_ofNat {n : Nat} {c : Char} (hc : c ∈ ofNat n) : isdigit c = true := by
  rw [ofNat] at hc
  split at hc
  · rw [List.mem_singleton.mp hc]
    rfl
  · rw [List.mem_reverse] at hc
    obtain ⟨d, hd, rfl⟩ := List.mem_map.mp hc
    exact isdigit_digitChar d (Nat.digits_lt_base (by decide) hd)

theorem ofNat_of_lt {n : Nat} (h : n < 10) : ofNat n = [Nat.digitChar n] := by
  rw [ofNat]
  split
  · rename_i h0
    rw [h0]
    rfl
  · rename_i h0
    rw [Nat.digits_of_lt 10 n h0 h]
    rfl

theorem ofNat_of_le {n : Nat} (h : 10 ≤ n) : ofNat n = ofNat (n / 10) ++ [Nat.digitChar (n % 10)] := by
  have hn : n ≠ 0 := by omega
  have hdiv : n / 10 ≠ 0 := by omega
  rw [ofNat, if_neg hn, ofNat, if_neg hdiv, Nat.digits_def' (by decide) (by omega), List.map_cons,
    List.reverse_cons]

end Data

/-! ### Reading -/

theorem intOfDigits_append {x : Data} (hx : ∀ c ∈ x, isdigit c = true) (val : Int) (y : Data) :
    intOfDigits val (x ++ y) = intOfDigits (intOfDigits val x) y := by
  induction x generalizing val with
  | nil => rfl
  | cons c x ih =>
    have hc := hx c (List.mem_cons_self ..)
    rw [List.cons_append, intOfDigits, if_pos hc, intOfDigits, if_pos hc,
      ih fun b hb => hx b (List.mem_cons_of_mem _ hb)]

theorem digitChar_toNat : ∀ d < 10, ((Nat.digitChar d).toNat - '0'.toNat : Int) = d := by
  decide

theorem intOfDigits_ofNat {n : Nat} (h : n < 2 ^ 31) : intOfDigits 0 (Data.ofNat n) = n := by
  induction n using Nat.strong_induction_on with
  | _ n ih =>
    have hstep : ∀ v d : Nat, d < 10 → v * 10 + d < 2 ^ 31 →
        intOfDigits v [Nat.digitChar d] = (v * 10 + d : Nat) := by
      intro v d hd hbound
      rw [intOfDigits, if_pos (isdigit_digitChar d hd), digitChar_toNat d hd, intOfDigits]
      rw [toInt32_of_bounds (by omega) (by omega)]
      push_cast
      rfl
    by_cases hlt : n < 10
    · rw [Data.ofNat_of_lt hlt]
      have := hstep 0 n hlt (by omega)
      simpa using this
    · have hmod : n % 10 < 10 := Nat.mod_lt _ (by decide)
      rw [Data.ofNat_of_le (by omega), intOfDigits_append fun c hc => Data.isdigit_of_mem_ofNat hc,
        ih (n / 10) (by omega) (by omega), hstep _ _ hmod (by omega)]
      congr 1
      omega

theorem intOfDigits_bounds {val : Int} (hlow : -2 ^ 31 ≤ val) (hhigh : val < 2 ^ 31) (d : Data) :
    -2 ^ 31 ≤ intOfDigits val d ∧ intOfDigits val d < 2 ^ 31 := by
  induction d generalizing val with
  | nil => exact ⟨hlow, hhigh⟩
  | cons c d ih =>
    rw [intOfDigits]
    split
    · exact ih (toInt32_bounds _).1 (toInt32_bounds _).2
    · exact ⟨hlow, hhigh⟩

theorem convertInt_bounds (d : Data) : -2 ^ 31 ≤ convertInt d ∧ convertInt d < 2 ^ 31 := by
  rw [convertInt]
  split
  · exact toInt32_bounds _
  · exact intOfDigits_bounds (by decide) (by decide) _

/-! ### Integers -/

/-- `Data(int)`. The least `int` has no opposite: its digits are written below `'0'`. -/
def Data.ofInt (val : Int) : Data :=
  if 0 ≤ val then Data.ofNat val.toNat
  else if val = -2 ^ 31 then "-./,),(-*,(".toList
  else '-' :: Data.ofNat (-val).toNat

theorem dropWhile_isspace_ofNat (n : Nat) : (Data.ofNat n).dropWhile isspace = Data.ofNat n := by
  apply Cut.dropWhile_eq_self_of_head
  intro c hc
  have hdigit := Data.isdigit_of_mem_ofNat (List.mem_of_mem_head? hc)
  rw [isdigit, Bool.and_eq_true, decide_eq_true_eq, decide_eq_true_eq] at hdigit
  rw [Bool.eq_false_iff]
  intro hspace
  have hcases : c = ' ' ∨ c = '\t' ∨ c = '\n' ∨ c = '\r' ∨ c = '\x0b' ∨ c = '\x0c' := by
    simpa [isspace, or_assoc] using hspace
  rcases hcases with rfl | rfl | rfl | rfl | rfl | rfl <;> revert hdigit <;> decide

theorem convertInt_ofNat {n : Nat} (h : n < 2 ^ 31) : convertInt (Data.ofNat n) = n := by
  rw [convertInt, dropWhile_isspace_ofNat]
  split
  · rename_i cs heq
    have hminus : '-' ∈ Data.ofNat n := by
      rw [heq]
      exact List.mem_cons_self ..
    exact absurd (Data.isdigit_of_mem_ofNat hminus) (by decide)
  · exact intOfDigits_ofNat h

theorem convertInt_ofInt {val : Int} (hlow : -2 ^ 31 < val) (hhigh : val < 2 ^ 31) :
    convertInt (Data.ofInt val) = val := by
  rw [Data.ofInt]
  split
  · rename_i hpos
    rw [convertInt_ofNat (by omega), Int.toNat_of_nonneg hpos]
  · rename_i hneg
    rw [if_neg (by omega), convertInt, List.dropWhile_cons_of_neg (by decide)]
    simp only
    rw [intOfDigits_ofNat (by omega), Int.toNat_of_nonneg (by omega), Int.neg_neg,
      toInt32_of_bounds (by omega) hhigh]

theorem convertInt_ofInt_min : convertInt (Data.ofInt (-2 ^ 31)) = 0 := by
  decide +kernel

end Vocal.Sip
