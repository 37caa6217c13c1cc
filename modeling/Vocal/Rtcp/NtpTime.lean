import Vocal.Rtcp.Receiver

/-!
# Arithmetic of NTP times

A time counts seconds and parts of a second, of which there are 2^32, and all is computed in words of 32 bits. The
difference of two times is such a word too, of milliseconds, before it is widened to 64 bits.
-/

namespace Vocal.Rtcp.NtpTime

/-- `operator+` of milliseconds. -/
def plus (lhs : NtpTime) (msec : UInt32) : NtpTime :=
  let delayFrac := msec % 1000 * 4294967
  let seconds := lhs.seconds + msec / 1000
  let fractional := lhs.fractional + delayFrac
  { seconds := if lhs.fractional > fractional ∧ delayFrac > fractional then seconds + 1 else seconds
    fractional := fractional }

/-- `operator>`. -/
def gt (rhs lhs : NtpTime) : Bool :=
  if rhs.seconds = lhs.seconds then rhs.fractional > lhs.fractional else rhs.seconds > lhs.seconds

/-- The seconds and parts from a time up to a later one. -/
def span (late early : NtpTime) : NtpTime :=
  { seconds := if late.fractional < early.fractional then late.seconds - early.seconds - 1 else late.seconds - early.seconds
    fractional := late.fractional - early.fractional }

/-- The milliseconds of a difference, in a word of 32 bits. -/
def msResult (result : NtpTime) : UInt32 := result.seconds * 1000 + result.fractional / 4294967

/-- `operator-` of two times. A negative difference is negated before it is widened. -/
def minus (lhs rhs : NtpTime) : Int :=
  if lhs = rhs then 0
  else if gt lhs rhs then (msResult (span lhs rhs)).toNat
  else (-msResult (span rhs lhs)).toNat

/-! ### Ticks -/

/-- The parts of a second that a time counts in all. -/
def ticks (t : NtpTime) : Nat := t.seconds.toNat * 2 ^ 32 + t.fractional.toNat

/-- The milliseconds of so many parts of a second, as they are computed. -/
def elapsed (n : Nat) : Nat := n / 2 ^ 32 * 1000 + n % 2 ^ 32 / 4294967

variable {a b : NtpTime}

theorem ticks_inj : ticks a = ticks b ↔ a = b := by
  obtain ⟨s, f⟩ := a
  obtain ⟨s', f'⟩ := b
  have hf := f.toNat_lt
  have hf' := f'.toNat_lt
  simp only [ticks, mk.injEq, ← UInt32.toNat_inj]
  omega

theorem gt_iff : gt a b = true ↔ ticks b < ticks a := by
  have hf := a.fractional.toNat_lt
  have hf' := b.fractional.toNat_lt
  by_cases hs : a.seconds = b.seconds
  · have heq : a.seconds.toNat = b.seconds.toNat := congrArg UInt32.toNat hs
    rw [gt, if_pos hs, decide_eq_true_eq, gt_iff_lt, UInt32.lt_iff_toNat_lt, ticks, ticks]
    omega
  · have hne : a.seconds.toNat ≠ b.seconds.toNat := fun h => hs (UInt32.toNat_inj.mp h)
    rw [gt, if_neg hs, decide_eq_true_eq, gt_iff_lt, UInt32.lt_iff_toNat_lt, ticks, ticks]
    omega

theorem ticks_span (h : ticks b ≤ ticks a) : ticks (span a b) = ticks a - ticks b := by
  have hf := a.fractional.toNat_lt
  have hf' := b.fractional.toNat_lt
  have hs := a.seconds.toNat_lt
  have hs' := b.seconds.toNat_lt
  simp only [ticks, span, UInt32.lt_iff_toNat_lt] at h ⊢
  split <;> simp only [UInt32.toNat_sub, UInt32.toNat_one] <;> omega

theorem toNat_msResult (t : NtpTime) : (msResult t).toNat = elapsed (ticks t) % 2 ^ 32 := by
  have hf := t.fractional.toNat_lt
  have hseconds : ticks t / 2 ^ 32 = t.seconds.toNat := by
    rw [ticks]
    omega
  have hfractional : ticks t % 2 ^ 32 = t.fractional.toNat := by
    rw [ticks]
    omega
  rw [elapsed, hseconds, hfractional, msResult, UInt32.toNat_add, UInt32.toNat_mul, UInt32.toNat_div]
  exact Nat.mod_add_mod _ _ _

theorem minus_of_lt (h : ticks b < ticks a) : minus a b = (elapsed (ticks a - ticks b) % 2 ^ 32 : Nat) := by
  have hne : a ≠ b := fun heq => absurd h (by rw [heq]; exact lt_irrefl _)
  rw [minus, if_neg hne, if_pos (gt_iff.mpr h), toNat_msResult, ticks_span h.le]

/-- The difference of a time and a later one is the word that is missing to 2^32, and not negative. -/
theorem minus_of_gt (h : ticks a < ticks b) :
    minus a b = ((2 ^ 32 - elapsed (ticks b - ticks a) % 2 ^ 32) % 2 ^ 32 : Nat) := by
  have hne : a ≠ b := fun heq => absurd h (by rw [heq]; exact lt_irrefl _)
  have hgt : gt a b ≠ true := fun hgt => absurd (gt_iff.mp hgt) (by omega)
  rw [minus, if_neg hne, if_neg hgt, UInt32.toNat_neg, toNat_msResult, ticks_span h.le]
  rfl

theorem minus_self (a : NtpTime) : minus a a = 0 := by rw [minus, if_pos rfl]

/-! ### Sums -/

theorem ticks_plus {msec : UInt32} (h : ticks a + (msec.toNat / 1000 * 2 ^ 32 + msec.toNat % 1000 * 4294967) < 2 ^ 64) :
    ticks (plus a msec) = ticks a + (msec.toNat / 1000 * 2 ^ 32 + msec.toNat % 1000 * 4294967) := by
  have hf := a.fractional.toNat_lt
  have hs := a.seconds.toNat_lt
  have hdelay : (msec % 1000 * 4294967).toNat = msec.toNat % 1000 * 4294967 := by
    rw [UInt32.toNat_mul, UInt32.toNat_mod]
    exact Nat.mod_eq_of_lt (by simp; omega)
  have hseconds : (a.seconds + msec / 1000).toNat = (a.seconds.toNat + msec.toNat / 1000) % 2 ^ 32 := by
    rw [UInt32.toNat_add, UInt32.toNat_div]
    rfl
  have hfractional : (a.fractional + msec % 1000 * 4294967).toNat =
      (a.fractional.toNat + msec.toNat % 1000 * 4294967) % 2 ^ 32 := by
    rw [UInt32.toNat_add, hdelay]
  rw [ticks] at h
  by_cases hcarry : 2 ^ 32 ≤ a.fractional.toNat + msec.toNat % 1000 * 4294967
  · have hplus : plus a msec = ⟨a.seconds + msec / 1000 + 1, a.fractional + msec % 1000 * 4294967⟩ := by
      rw [plus, if_pos]
      simp only [gt_iff_lt, UInt32.lt_iff_toNat_lt, hfractional, hdelay]
      omega
    have hone : (a.seconds + msec / 1000 + 1).toNat = ((a.seconds + msec / 1000).toNat + 1) % 2 ^ 32 := UInt32.toNat_add ..
    rw [hplus, ticks, ticks]
    dsimp only
    rw [hone, hseconds, hfractional]
    omega
  · have hplus : plus a msec = ⟨a.seconds + msec / 1000, a.fractional + msec % 1000 * 4294967⟩ := by
      rw [plus, if_neg]
      simp only [gt_iff_lt, UInt32.lt_iff_toNat_lt, hfractional, hdelay]
      omega
    rw [hplus, ticks, ticks]
    dsimp only
    rw [hseconds, hfractional, Nat.mod_eq_of_lt (by omega), Nat.mod_eq_of_lt (by omega)]
    omega

theorem elapsed_msec (n : Nat) : elapsed (n / 1000 * 2 ^ 32 + n % 1000 * 4294967) = n := by
  rw [elapsed]
  omega

theorem plus_minus {msec : UInt32} (h : ticks a + (msec.toNat / 1000 * 2 ^ 32 + msec.toNat % 1000 * 4294967) < 2 ^ 64) :
    minus (plus a msec) a = msec.toNat := by
  have hplus := ticks_plus h
  have hmsec := msec.toNat_lt
  by_cases hzero : msec.toNat = 0
  · have heq : plus a msec = a := ticks_inj.mp (by simp [hplus, hzero])
    rw [heq, minus_self, hzero]
    rfl
  · rw [minus_of_lt (by omega), hplus, Nat.add_sub_cancel_left, elapsed_msec, Nat.mod_eq_of_lt hmsec]

/-! ### Differences -/

/-- What is expected of two times: sums and differences fit together, the sign of a difference is the order, and it is the
true one but for a millisecond. -/
structure Exact (a b : NtpTime) : Prop where
  plus_minus : ∀ msec : UInt32, ticks a + (msec.toNat / 1000 * 2 ^ 32 + msec.toNat % 1000 * 4294967) < 2 ^ 64 →
    minus (plus a msec) a = msec.toNat
  antisymm : minus a b = -minus b a
  gt_of_pos : 0 < minus a b → gt a b = true
  nonneg_of_gt : gt a b = true → 0 ≤ minus a b
  close : (2 ^ 32 * minus a b - 1000 * ((ticks a : Int) - ticks b)).natAbs ≤ 2 ^ 32

theorem minus_nonneg (a b : NtpTime) : 0 ≤ minus a b := by
  rw [minus]
  split_ifs
  · exact le_refl 0
  · exact Int.natCast_nonneg _
  · exact Int.natCast_nonneg _

/-- No difference is negative, so one and its opposite are both right only where both are nothing. -/
theorem exact_iff_zero (a b : NtpTime) :
    Exact a b ↔ minus a b = 0 ∧ minus b a = 0 ∧ (1000 * ((ticks a : Int) - ticks b)).natAbs ≤ 2 ^ 32 := by
  have hnonneg := minus_nonneg a b
  constructor
  · intro h
    have hanti := h.antisymm
    have hnonneg' := minus_nonneg b a
    have hclose := h.close
    have hzero : minus a b = 0 := by omega
    rw [hzero] at hclose
    exact ⟨hzero, by omega, by omega⟩
  · rintro ⟨hab, hba, hclose⟩
    refine ⟨fun msec => plus_minus, by omega, by omega, fun _ => hnonneg, ?_⟩
    rw [hab]
    omega

theorem zero_iff {n : Nat} :
    elapsed n % 2 ^ 32 = 0 ∧ (2 ^ 32 - elapsed n % 2 ^ 32) % 2 ^ 32 = 0 ∧ 1000 * n ≤ 2 ^ 32 ↔ n < 4294967 := by
  rw [elapsed]
  omega

/-- Differences are right of times that are less than a millisecond apart. -/
theorem exact_iff (a b : NtpTime) :
    Exact a b ↔ ticks a < ticks b + 4294967 ∧ ticks b < ticks a + 4294967 := by
  rw [exact_iff_zero]
  rcases lt_trichotomy (ticks a) (ticks b) with hlt | heq | hlt
  · have hzero := zero_iff (n := ticks b - ticks a)
    rw [minus_of_gt hlt, minus_of_lt hlt]
    omega
  · obtain rfl := ticks_inj.mp heq
    rw [minus_self]
    omega
  · have hzero := zero_iff (n := ticks a - ticks b)
    rw [minus_of_lt hlt, minus_of_gt hlt]
    omega

theorem not_exact : ¬Exact ⟨0, 0⟩ ⟨1, 0⟩ := fun h => absurd h.antisymm (by decide)

end Vocal.Rtcp.NtpTime
