import Vocal.Sip.Text.Number

/-!
# Writing an int

`Data(int)` counts the digits of a number and then writes them from the last to the first, all in words of 32 bits that
wrap around. It writes what `Data.ofInt` says, so that every `int` but the least is read back by `convertInt`.
-/

namespace Vocal.Sip.Data

/-! ### The constructor -/

theorem toInt_div_ten (v : Int32) : (v / 10).toInt = v.toInt.tdiv 10 :=
  Int32.toInt_div_of_ne_right v 10 (by decide)

/-- `while (v /= 10) c++`. -/
def countLoop (v : Int32) : Nat := if _h : v / 10 = 0 then 0 else countLoop (v / 10) + 1
  termination_by v.toInt.natAbs
  decreasing_by
    have hne : v.toInt ≠ 0 := fun h => _h (Int32.toInt_inj.mp (by rw [toInt_div_ten, h]; rfl))
    rw [toInt_div_ten, Int.natAbs_tdiv]
    exact Nat.div_lt_self (by omega) (by decide)

/-- `'0' + v % 10`, where the remainder has the sign of `v`. -/
def digit (v : Int32) : Char := Char.ofNat (48 + v % 10).toInt.toNat

/-- The loop that writes digits below the index `n`, with no result if it came to write before the buffer. -/
def writeLoop (v : Int32) (mBuf : List Char) : Nat → Option (List Char)
  | 0 => if v = 0 then some mBuf else none
  | c + 1 => if v = 0 then some mBuf else writeLoop (v / 10) (mBuf.set c (digit v)) c

/-- `Data(int)`, as the `mLength` characters at `mBuf`. -/
def ofInt32 (val : Int32) : Option Data :=
  if val = 0 then some ['0']
  else
    let neg := decide (val < 0)
    let value := if neg then -val else val
    let c := if neg then countLoop value + 1 else countLoop value
    let mBuf := List.replicate (c + 2) '\x00'
    (writeLoop value mBuf (c + 1)).map fun mBuf => (if neg then mBuf.set 0 '-' else mBuf).take (c + 1)

/-! ### The loops -/

section loops

variable {v : Int32} {n : Nat}

theorem toInt_div_ten_of_natCast (hv : v.toInt = n) : (v / 10).toInt = (n / 10 : Nat) := by
  rw [toInt_div_ten, hv]
  exact Int.ofNat_tdiv n 10

theorem eq_zero_iff_of_natCast (hv : v.toInt = n) : v = 0 ↔ n = 0 := by
  rw [← Int32.toInt_inj, hv]
  exact Int.natCast_eq_zero

theorem ofNat_add_48 : ∀ d < 10, Char.ofNat (48 + d) = Nat.digitChar d := by
  decide

theorem digit_eq (hv : v.toInt = n) : digit v = Nat.digitChar (n % 10) := by
  have hmod : (v % 10).toInt = (n % 10 : Nat) := by
    rw [Int32.toInt_mod, hv]
    exact (Int.ofNat_tmod n 10).symm
  have hsum : (48 + v % 10).toInt = (48 + n % 10 : Nat) := by
    rw [Int32.toInt_add, hmod]
    exact Int.bmod_eq_of_le (by simp; omega) (by simp; omega)
  rw [digit, hsum, Int.toNat_natCast]
  exact ofNat_add_48 _ (Nat.mod_lt _ (by decide))

theorem countLoop_eq (hv : v.toInt = n) (hn : 0 < n) : countLoop v + 1 = (ofNat n).length := by
  induction n using Nat.strong_induction_on generalizing v with
  | _ n ih =>
    have hdiv := toInt_div_ten_of_natCast hv
    have hzero := eq_zero_iff_of_natCast hdiv
    rw [countLoop]
    by_cases hlt : n < 10
    · rw [dif_pos (hzero.mpr (Nat.div_eq_of_lt hlt)), ofNat_of_lt hlt]
      rfl
    · rw [dif_neg (mt hzero.mp (by omega)), ih (n / 10) (by omega) hdiv (by omega), @ofNat_of_le n (by omega),
        List.length_append]
      rfl

theorem writeLoop_zero (mBuf : List Char) (c : Nat) : writeLoop 0 mBuf c = some mBuf := by
  cases c <;> exact if_pos rfl

theorem drop_set_self {l : List Char} {i : Nat} (h : i < l.length) (a : Char) :
    (l.set i a).drop i = a :: l.drop (i + 1) := by
  rw [List.drop_set, if_neg (lt_irrefl i), Nat.sub_self, List.drop_eq_getElem_cons h, List.set_cons_zero]

theorem writeLoop_eq (hv : v.toInt = n) (hn : 0 < n) (mBuf : List Char) (k : Nat) (h : k + (ofNat n).length ≤ mBuf.length) :
    writeLoop v mBuf (k + (ofNat n).length) = some (mBuf.take k ++ ofNat n ++ mBuf.drop (k + (ofNat n).length)) := by
  induction n using Nat.strong_induction_on generalizing v mBuf with
  | _ n ih =>
    have hdiv := toInt_div_ten_of_natCast hv
    have hne : v ≠ 0 := fun h => absurd ((eq_zero_iff_of_natCast hv).mp h) (by omega)
    by_cases hlt : n < 10
    · have hzero : v / 10 = 0 := (eq_zero_iff_of_natCast hdiv).mpr (Nat.div_eq_of_lt hlt)
      rw [ofNat_of_lt hlt] at h ⊢
      rw [List.length_singleton] at h ⊢
      rw [writeLoop, if_neg hne, hzero, writeLoop_zero, digit_eq hv, Nat.mod_eq_of_lt hlt,
        List.set_eq_take_append_cons_drop, if_pos (Nat.lt_of_succ_le h), List.append_assoc]
      rfl
    · rw [@ofNat_of_le n (by omega)] at h ⊢
      rw [List.length_append, List.length_singleton, ← Nat.add_assoc] at h ⊢
      rw [writeLoop, if_neg hne, ih (n / 10) (by omega) hdiv (by omega) _ (by rw [List.length_set]; omega), digit_eq hv,
        List.take_set_of_le (by omega), drop_set_self (by omega), List.append_assoc, List.append_assoc, List.append_assoc]
      rfl

end loops

/-! ### The text -/

theorem ofInt32_of_pos {val : Int32} (h : 0 < val.toInt) : ofInt32 val = some (ofNat val.toInt.toNat) := by
  have hv : val.toInt = val.toInt.toNat := (Int.toNat_of_nonneg h.le).symm
  have hn : 0 < val.toInt.toNat := by omega
  have hzero : val ≠ 0 := fun heq => absurd ((eq_zero_iff_of_natCast hv).mp heq) (by omega)
  have hneg : ¬val < 0 := by
    rw [Int32.lt_iff_toInt_lt, Int32.toInt_zero]
    omega
  have hcount := countLoop_eq hv hn
  have hwrite := writeLoop_eq hv hn (List.replicate (countLoop val + 2) '\x00') 0 (by rw [List.length_replicate]; omega)
  rw [Nat.zero_add, ← hcount] at hwrite
  rw [ofInt32, if_neg hzero]
  simp only [hneg, decide_false, Bool.false_eq_true, if_false, hwrite, Option.map_some]
  rw [List.take_zero, List.nil_append, List.take_left' hcount.symm]

theorem ofInt32_of_neg {val : Int32} (h : val.toInt < 0) (hmin : val.toInt ≠ -2 ^ 31) :
    ofInt32 val = some ('-' :: ofNat (-val.toInt).toNat) := by
  have hlow := val.le_toInt
  have hvalue : (-val).toInt = ((-val.toInt).toNat : Int) := by
    rw [Int32.toInt_neg, Int.bmod_eq_of_le (by simp; omega) (by simp; omega)]
    omega
  have hn : 0 < (-val.toInt).toNat := by omega
  have hzero : val ≠ 0 := by
    rw [ne_eq, ← Int32.toInt_inj, Int32.toInt_zero]
    omega
  have hneg : val < 0 := by
    rw [Int32.lt_iff_toInt_lt, Int32.toInt_zero]
    exact h
  have hcount := countLoop_eq hvalue hn
  have hwrite := writeLoop_eq hvalue hn (List.replicate (countLoop (-val) + 1 + 2) '\x00') 1
    (by rw [List.length_replicate]; omega)
  rw [Nat.add_comm 1, ← hcount] at hwrite
  rw [ofInt32, if_neg hzero]
  simp only [hneg, decide_true, if_true, hwrite, Option.map_some, Option.some_inj]
  rw [List.take_replicate, List.append_assoc]
  simp only [Nat.min_eq_left (Nat.le_add_left 1 _), List.replicate_one, List.singleton_append, List.set_cons_zero,
    List.take_succ_cons]
  rw [List.take_left' hcount.symm]

theorem ofInt32_eq (val : Int32) : ofInt32 val = some (ofInt val.toInt) := by
  rcases lt_trichotomy val.toInt 0 with hneg | hzero | hpos
  · by_cases hmin : val.toInt = -2 ^ 31
    · have hval : val = Int32.minValue := Int32.toInt_inj.mp hmin
      rw [hval]
      decide +kernel
    · rw [ofInt32_of_neg hneg hmin, ofInt, if_neg (by omega), if_neg hmin]
  · have hval : val = 0 := Int32.toInt_inj.mp hzero
    rw [hval]
    rfl
  · rw [ofInt32_of_pos hpos, ofInt, if_pos hpos.le]

/-! ### Round trip -/

/-- An `int` is written and read again exactly if it is not the least. -/
theorem convertInt_ofInt32_iff (val : Int32) : (ofInt32 val).map convertInt = some val.toInt ↔ val ≠ Int32.minValue := by
  have hlow := val.le_toInt
  have hhigh := val.toInt_lt
  have hmin : val = Int32.minValue ↔ val.toInt = -2 ^ 31 := Int32.toInt_inj.symm
  rw [ofInt32_eq, Option.map_some, Option.some_inj, ne_eq, hmin]
  constructor
  · intro h heq
    rw [heq, convertInt_ofInt_min] at h
    exact absurd h (by decide)
  · intro hne
    exact convertInt_ofInt (by omega) (by omega)

/-- The least `int` is read as zero. -/
theorem convertInt_ofInt32_min :
    ¬∀ val : Int32, (ofInt32 val).map convertInt = some val.toInt := by
  intro h
  exact absurd (h Int32.minValue) (by decide +kernel)

end Vocal.Sip.Data
