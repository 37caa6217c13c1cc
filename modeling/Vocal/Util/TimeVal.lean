import Mathlib.Data.BitVec

/-!
# Times of seconds and microseconds

`TimeVal` is a `timeval` that is normalized after every step. The fields are of the type `long`, which has `w` bits. There is
no result where a number leaves its range.
-/

namespace Vocal.Util

/-- A number that a `long` holds. -/
def Fits (w : Nat) (n : Int) : Prop := -2 ^ (w - 1) ≤ n ∧ n < 2 ^ (w - 1)

instance (w : Nat) (n : Int) : Decidable (Fits w n) := inferInstanceAs (Decidable (_ ∧ _))

/-- A result of type `long`. -/
def long (w : Nat) (n : Int) : Option Int := if Fits w n then some n else none

/-- `timeval`. -/
structure Timeval where
  tv_sec : Int
  tv_usec : Int
  deriving DecidableEq, Repr

namespace TimeVal

/-- `TimeVal::normalize`. -/
def normalize (w : Nat) (t : Timeval) : Option Timeval := do
  let t ← if t.tv_usec < 0 then do
      let num_sec ← long w ((← long w (-t.tv_usec)).tdiv 1000000 + 1)
      if num_sec ≤ 0 then none
      let tv_sec ← long w (t.tv_sec - num_sec)
      let tv_usec ← long w (t.tv_usec + (← long w (num_sec * 1000000)))
      pure { tv_sec, tv_usec }
    else pure t
  if t.tv_usec ≥ 1000000 then do
    let tv_sec ← long w (t.tv_sec + t.tv_usec.tdiv 1000000)
    pure { tv_sec, tv_usec := t.tv_usec.tmod 1000000 }
  else pure t

/-- `TimeVal::operator+=` of a `timeval`. -/
def add (w : Nat) (t src : Timeval) : Option Timeval := do
  let tv_sec ← long w (t.tv_sec + src.tv_sec)
  let tv_usec ← long w (t.tv_usec + src.tv_usec)
  normalize w { tv_sec, tv_usec }

/-- `TimeVal::operator+=` of milliseconds. -/
def addMilliseconds (w : Nat) (t : Timeval) (src : Int) : Option Timeval := do
  let tv_sec ← long w (t.tv_sec + src.tdiv 1000)
  let tv_usec ← long w (t.tv_usec + src.tmod 1000 * 1000)
  normalize w { tv_sec, tv_usec }

/-- `TimeVal::operator-=` of a `timeval`. -/
def sub (w : Nat) (t src : Timeval) : Option Timeval := do
  let tv_sec ← long w (t.tv_sec - src.tv_sec)
  let tv_usec ← long w (t.tv_usec - src.tv_usec)
  normalize w { tv_sec, tv_usec }

/-- `TimeVal::operator-=` of milliseconds. Those that are no second are added here, too. -/
def subMilliseconds (w : Nat) (t : Timeval) (src : Int) : Option Timeval := do
  let tv_sec ← long w (t.tv_sec - src.tdiv 1000)
  let tv_usec ← long w (t.tv_usec + src.tmod 1000 * 1000)
  normalize w { tv_sec, tv_usec }

/-- The constructor from milliseconds. -/
def ofMilliseconds (w : Nat) (src : Int) : Option Timeval := addMilliseconds w ⟨0, 0⟩ src

/-- The constructor from a `timeval`, and the assignment of one. -/
def ofTimeval (w : Nat) (src : Timeval) : Option Timeval := normalize w src

/-- `operator<` of two `TimeVal`s. -/
def lt (t right : Timeval) : Bool :=
  if t.tv_sec < right.tv_sec then true
  else if t.tv_sec = right.tv_sec ∧ t.tv_usec < right.tv_usec then true
  else false

/-- `operator<` with a `timeval`. -/
def ltTimeval (w : Nat) (t src : Timeval) : Option Bool := (ofTimeval w src).map (lt t)

/-! ### Microseconds -/

/-- What a time denotes. -/
def micros (t : Timeval) : Int := t.tv_sec * 1000000 + t.tv_usec

structure Normalized (t : Timeval) : Prop where
  nonneg : 0 ≤ t.tv_usec
  lt : t.tv_usec < 1000000

/-- The normalized time that denotes a number. -/
def ofMicros (n : Int) : Timeval := ⟨n / 1000000, n % 1000000⟩

variable {w : Nat} {t u : Timeval} {n sec usec : Int}

theorem micros_ofMicros (n : Int) : micros (ofMicros n) = n := by
  rw [micros, ofMicros]
  dsimp only
  omega

theorem normalized_ofMicros (n : Int) : Normalized (ofMicros n) := by
  constructor <;> rw [ofMicros] <;> dsimp only <;> omega

theorem ofMicros_micros (h : Normalized t) : ofMicros (micros t) = t := by
  obtain ⟨sec, usec⟩ := t
  obtain ⟨h, h'⟩ := h
  dsimp only at h h'
  rw [ofMicros, micros, Timeval.mk.injEq]
  dsimp only
  omega

/-- The numbers that `normalize` forms of microseconds below zero. -/
def BorrowFits (w : Nat) (sec usec : Int) : Prop :=
  usec < 0 → Fits w (-usec) ∧ Fits w ((-usec / 1000000 + 1) * 1000000) ∧ Fits w (sec - (-usec / 1000000 + 1))

instance (w : Nat) (sec usec : Int) : Decidable (BorrowFits w sec usec) := inferInstanceAs (Decidable (_ → _))

theorem long_of_fits (h : Fits w n) : long w n = some n := if_pos h

theorem long_eq_some_iff {m : Int} : long w n = some m ↔ Fits w n ∧ n = m := by
  rw [long]
  split <;> simp_all

theorem pow_le (hw : 32 ≤ w) : (2 : Int) ^ 31 ≤ 2 ^ (w - 1) := by
  exact_mod_cast Nat.pow_le_pow_right (n := 2) (by decide) (by omega)

theorem normalize_of_nonneg (husec : 0 ≤ usec) (hn : Fits w ((sec * 1000000 + usec) / 1000000)) :
    normalize w ⟨sec, usec⟩ = some (ofMicros (sec * 1000000 + usec)) := by
  have hneg : ¬usec < 0 := by omega
  by_cases hge : usec ≥ 1000000
  · have hsec : (sec * 1000000 + usec) / 1000000 = sec + usec.tdiv 1000000 := by
      rw [Int.tdiv_eq_ediv_of_nonneg husec]
      omega
    have husec' : (sec * 1000000 + usec) % 1000000 = usec.tmod 1000000 := by
      rw [Int.tmod_eq_emod_of_nonneg husec]
      omega
    rw [hsec] at hn
    rw [ofMicros, hsec, husec']
    simp [normalize, hneg, hge, long_of_fits hn]
  · have hsec : (sec * 1000000 + usec) / 1000000 = sec := by omega
    have husec' : (sec * 1000000 + usec) % 1000000 = usec := by omega
    rw [ofMicros, hsec, husec']
    simp [normalize, hneg, hge]

theorem normalize_of_neg (hw : 32 ≤ w) (hneg : usec < 0) (hneg' : Fits w (-usec))
    (hadded : Fits w ((-usec / 1000000 + 1) * 1000000)) (hsec : Fits w (sec - (-usec / 1000000 + 1))) :
    normalize w ⟨sec, usec⟩ =
      normalize w ⟨sec - (-usec / 1000000 + 1), usec + (-usec / 1000000 + 1) * 1000000⟩ := by
  have hpow := pow_le hw
  have hdiv : (-usec).tdiv 1000000 = -usec / 1000000 := Int.tdiv_eq_ediv_of_nonneg (by omega)
  have hnum : Fits w (-usec / 1000000 + 1) := by
    rw [Fits] at *
    omega
  have hpos : ¬-usec / 1000000 + 1 ≤ 0 := by omega
  have husec' : Fits w (usec + (-usec / 1000000 + 1) * 1000000) := by
    rw [Fits] at *
    omega
  have hnonneg : ¬usec + (-usec / 1000000 + 1) * 1000000 < 0 := by omega
  rw [normalize, normalize]
  simp only [hneg, if_true, long_of_fits hneg', Option.bind_eq_bind, Option.bind_some, hdiv, long_of_fits hnum, hpos, if_false,
    long_of_fits hadded, long_of_fits husec', long_of_fits hsec, hnonneg]

theorem normalize_eq (hw : 32 ≤ w) (hn : Fits w ((sec * 1000000 + usec) / 1000000))
    (hborrow : BorrowFits w sec usec) : normalize w ⟨sec, usec⟩ = some (ofMicros (sec * 1000000 + usec)) := by
  by_cases hneg : usec < 0
  · obtain ⟨hneg', hadded, hsec⟩ := hborrow hneg
    have hsame : (sec - (-usec / 1000000 + 1)) * 1000000 + (usec + (-usec / 1000000 + 1) * 1000000) =
        sec * 1000000 + usec := by
      omega
    rw [normalize_of_neg hw hneg hneg' hadded hsec, normalize_of_nonneg (by omega) (by rwa [hsame]), hsame]
  · exact normalize_of_nonneg (by omega) hn

theorem borrowFits_of_normalize {r : Timeval} (h : normalize w ⟨sec, usec⟩ = some r) : BorrowFits w sec usec := by
  intro hneg
  have hdiv : (-usec).tdiv 1000000 = -usec / 1000000 := Int.tdiv_eq_ediv_of_nonneg (by omega)
  have hpos : ¬-usec / 1000000 + 1 ≤ 0 := by omega
  simp only [normalize, hneg, if_true, Option.bind_eq_bind, Option.bind_eq_some_iff, long_eq_some_iff] at h
  obtain ⟨minus, ⟨hminus, rfl⟩, num_sec, ⟨-, rfl⟩, hrest⟩ := h
  rw [hdiv, if_neg hpos] at hrest
  simp only [Option.bind_eq_some_iff, long_eq_some_iff] at hrest
  obtain ⟨tv_sec, ⟨hsec, -⟩, added, ⟨hadded, -⟩, -⟩ := hrest
  exact ⟨hminus, hadded, hsec⟩

/-- A result is the time that a number of microseconds denotes, if that is representable. -/
def Exact (w : Nat) (r : Option Timeval) (n : Int) : Prop := Fits w (n / 1000000) → r = some (ofMicros n)

theorem normalize_exact_iff (hw : 32 ≤ w) :
    Exact w (normalize w ⟨sec, usec⟩) (sec * 1000000 + usec) ↔
      (Fits w ((sec * 1000000 + usec) / 1000000) → BorrowFits w sec usec) :=
  ⟨fun h hn => borrowFits_of_normalize (h hn), fun h hn => normalize_eq hw hn (h hn)⟩

/-! ### Sums and differences -/

/-- A `timeval` with fields of type `long`. -/
structure Held (w : Nat) (t : Timeval) : Prop where
  sec : Fits w t.tv_sec
  usec : Fits w t.tv_usec

/-- What a sum of seconds and one of microseconds form. -/
def SumFits (w : Nat) (sec usec : Int) : Prop := Fits w sec ∧ Fits w usec ∧ BorrowFits w sec usec

instance (w : Nat) (sec usec : Int) : Decidable (SumFits w sec usec) := inferInstanceAs (Decidable (_ ∧ _))

/-- What all operators share: both sums and the normalization. -/
def combine (w : Nat) (sec usec : Int) : Option Timeval := do
  let tv_sec ← long w sec
  let tv_usec ← long w usec
  normalize w { tv_sec, tv_usec }

theorem combine_exact_iff (hw : 32 ≤ w) :
    Exact w (combine w sec usec) (sec * 1000000 + usec) ↔
      (Fits w ((sec * 1000000 + usec) / 1000000) → SumFits w sec usec) := by
  constructor
  · intro h hn
    have hsome := h hn
    simp only [combine, Option.bind_eq_bind, Option.bind_eq_some_iff, long_eq_some_iff] at hsome
    obtain ⟨s, ⟨hsec, rfl⟩, u, ⟨husec, rfl⟩, hnormalize⟩ := hsome
    exact ⟨hsec, husec, borrowFits_of_normalize hnormalize⟩
  · intro h hn
    obtain ⟨hsec, husec, hborrow⟩ := h hn
    rw [combine, long_of_fits hsec, long_of_fits husec]
    exact normalize_eq hw hn hborrow

theorem eq_ofMicros_of_nonneg {r : Timeval} (husec : 0 ≤ usec) (h : normalize w ⟨sec, usec⟩ = some r) :
    r = ofMicros (sec * 1000000 + usec) := by
  have hneg : ¬usec < 0 := by omega
  have hdiv : usec.tdiv 1000000 = usec / 1000000 := Int.tdiv_eq_ediv_of_nonneg husec
  have hmod : usec.tmod 1000000 = usec % 1000000 := Int.tmod_eq_emod_of_nonneg husec
  rw [ofMicros]
  by_cases hge : usec ≥ 1000000
  · simp only [normalize, hneg, hge, if_true, if_false, hdiv, hmod, Option.bind_eq_bind, Option.pure_def, Option.bind_some,
      Option.bind_eq_some_iff, long_eq_some_iff] at h
    obtain ⟨s, ⟨-, rfl⟩, h⟩ := h
    rw [← Option.some.inj h, Timeval.mk.injEq]
    omega
  · simp only [normalize, hneg, hge, if_false, Option.bind_eq_bind, Option.pure_def, Option.bind_some] at h
    rw [← Option.some.inj h, Timeval.mk.injEq]
    omega

theorem eq_ofMicros_of_normalize {r : Timeval} (hw : 32 ≤ w) (h : normalize w ⟨sec, usec⟩ = some r) :
    r = ofMicros (sec * 1000000 + usec) := by
  by_cases hneg : usec < 0
  · obtain ⟨hneg', hadded, hsec⟩ := borrowFits_of_normalize h hneg
    rw [normalize_of_neg hw hneg hneg' hadded hsec] at h
    rw [eq_ofMicros_of_nonneg (by omega) h]
    congr 1
    omega
  · exact eq_ofMicros_of_nonneg (by omega) h

/-- What is right of times, of a `timeval` and of milliseconds. -/
structure Right (w : Nat) (t u : Timeval) (m : Int) : Prop where
  ofTimeval : Exact w (ofTimeval w u) (micros u)
  ofMilliseconds : Exact w (ofMilliseconds w m) (m * 1000)
  add : Exact w (add w t u) (micros t + micros u)
  sub : Exact w (sub w t u) (micros t - micros u)
  addMilliseconds : Exact w (addMilliseconds w t m) (micros t + m * 1000)
  subMilliseconds : Exact w (subMilliseconds w t m) (micros t - m * 1000)
  add_sub_milliseconds : Fits w ((micros t + m * 1000) / 1000000) →
    (TimeVal.addMilliseconds w t m).bind (TimeVal.subMilliseconds w · m) = some t
  sub_add : Fits w ((micros t - micros u) / 1000000) → (TimeVal.sub w t u).bind (TimeVal.add w · u) = some t
  lt_iff : Fits w (micros u / 1000000) → Fits w ((micros t - micros u) / 1000000) →
    ∃ r, TimeVal.sub w t u = some r ∧ ltTimeval w t u = some (decide (micros r < 0))

/-- The milliseconds are whole seconds, and where a result is representable, so are the numbers formed on the way. -/
structure Proper (w : Nat) (t u : Timeval) (m : Int) : Prop where
  milliseconds : m.tmod 1000 = 0
  ofTimeval : Fits w (micros u / 1000000) → BorrowFits w u.tv_sec u.tv_usec
  add : Fits w ((micros t + micros u) / 1000000) → SumFits w (t.tv_sec + u.tv_sec) (t.tv_usec + u.tv_usec)
  sub : Fits w ((micros t - micros u) / 1000000) → SumFits w (t.tv_sec - u.tv_sec) (t.tv_usec - u.tv_usec)
  sub_add : Fits w ((micros t - micros u) / 1000000) →
    SumFits w ((ofMicros (micros t - micros u)).tv_sec + u.tv_sec) ((ofMicros (micros t - micros u)).tv_usec + u.tv_usec)

theorem fits_of_ofMicros (h : Normalized t) : micros t / 1000000 = t.tv_sec := by
  rw [← congrArg Timeval.tv_sec (ofMicros_micros h), ofMicros]

theorem combine_eq_some {r : Timeval} (hw : 32 ≤ w) (h : combine w sec usec = some r) : r = ofMicros (sec * 1000000 + usec) := by
  simp only [combine, Option.bind_eq_bind, Option.bind_eq_some_iff, long_eq_some_iff] at h
  obtain ⟨s, ⟨-, rfl⟩, u, ⟨-, rfl⟩, hnormalize⟩ := h
  exact eq_ofMicros_of_normalize hw hnormalize

section

variable {m : Int}

theorem add_exact_iff (hw : 32 ≤ w) : Exact w (add w t u) (micros t + micros u) ↔
    (Fits w ((micros t + micros u) / 1000000) → SumFits w (t.tv_sec + u.tv_sec) (t.tv_usec + u.tv_usec)) := by
  have hsum : micros t + micros u = (t.tv_sec + u.tv_sec) * 1000000 + (t.tv_usec + u.tv_usec) := by
    rw [micros, micros]
    omega
  rw [hsum]
  exact combine_exact_iff hw

theorem sub_exact_iff (hw : 32 ≤ w) : Exact w (sub w t u) (micros t - micros u) ↔
    (Fits w ((micros t - micros u) / 1000000) → SumFits w (t.tv_sec - u.tv_sec) (t.tv_usec - u.tv_usec)) := by
  have hsum : micros t - micros u = (t.tv_sec - u.tv_sec) * 1000000 + (t.tv_usec - u.tv_usec) := by
    rw [micros, micros]
    omega
  rw [hsum]
  exact combine_exact_iff hw

/-- What is left of milliseconds without the seconds moves a normalized time by less than a second. -/
theorem sumFits_of_lt (hw : 32 ≤ w) {rest : Int} (hnormal : Normalized t) (hsec : Fits w sec)
    (hrest : -1000000 < rest ∧ rest < 1000000) (hn : Fits w ((sec * 1000000 + (t.tv_usec + rest)) / 1000000)) :
    SumFits w sec (t.tv_usec + rest) := by
  have hpow := pow_le hw
  obtain ⟨hnonneg, hlt⟩ := hnormal
  refine ⟨hsec, ?_, ?_⟩
  · rw [Fits]
    omega
  · intro hneg
    have hone : -(t.tv_usec + rest) / 1000000 + 1 = 1 := by omega
    have hn' : (sec * 1000000 + (t.tv_usec + rest)) / 1000000 = sec - 1 := by omega
    rw [hn'] at hn
    rw [hone]
    refine ⟨?_, ?_, hn⟩ <;> rw [Fits] <;> omega

theorem milliseconds_parts (m : Int) :
    1000 * m.tdiv 1000 + m.tmod 1000 = m ∧ (-1000 < m.tmod 1000 ∧ m.tmod 1000 < 1000) ∧
      (0 ≤ m → 0 ≤ m.tmod 1000) ∧ (m ≤ 0 → m.tmod 1000 ≤ 0) := by
  refine ⟨Int.mul_tdiv_add_tmod m 1000, ⟨Int.lt_tmod_of_pos m (by decide), Int.tmod_lt_of_pos m (by decide)⟩,
    Int.tmod_nonneg 1000, fun hm => ?_⟩
  have hneg : 0 ≤ (-m).tmod 1000 := Int.tmod_nonneg 1000 (by omega)
  rw [Int.neg_tmod] at hneg
  omega

theorem addMilliseconds_exact (hw : 32 ≤ w) (ht : Held w t) (hnormal : Normalized t) :
    Exact w (addMilliseconds w t m) (micros t + m * 1000) := by
  obtain ⟨hm, hmod, hnonneg, hnonpos⟩ := milliseconds_parts m
  have hsum : micros t + m * 1000 = (t.tv_sec + m.tdiv 1000) * 1000000 + (t.tv_usec + m.tmod 1000 * 1000) := by
    rw [micros]
    omega
  rw [hsum]
  refine (combine_exact_iff hw).mpr fun hn => sumFits_of_lt hw hnormal ?_ (by omega) hn
  have hsec := ht.sec
  obtain ⟨husec, husec'⟩ := hnormal
  rw [Fits] at hn hsec ⊢
  omega

/-- The part of a second is added where it should be taken off. -/
theorem subMilliseconds_exact_iff (hw : 32 ≤ w) (hnormal : Normalized t)
    (hn : Fits w ((micros t - m * 1000) / 1000000)) :
    subMilliseconds w t m = some (ofMicros (micros t - m * 1000)) ↔ m.tmod 1000 = 0 := by
  obtain ⟨hm, hmod, -, -⟩ := milliseconds_parts m
  constructor
  · intro h
    have hsame := congrArg micros (combine_eq_some hw h)
    rw [micros_ofMicros, micros_ofMicros, micros] at hsame
    omega
  · intro hzero
    have hsum : micros t - m * 1000 = (t.tv_sec - m.tdiv 1000) * 1000000 + (t.tv_usec + m.tmod 1000 * 1000) := by
      rw [micros]
      omega
    have hsec : (micros t - m * 1000) / 1000000 = t.tv_sec - m.tdiv 1000 := by
      obtain ⟨husec, husec'⟩ := hnormal
      rw [micros]
      omega
    rw [hsum] at hn ⊢
    exact (combine_exact_iff hw).mpr (fun _ => sumFits_of_lt hw hnormal (by rw [← hsec, hsum]; exact hn) (by omega) hn) hn

theorem held_zero (hw : 32 ≤ w) : Held w ⟨0, 0⟩ := by
  have hpow := pow_le hw
  constructor <;> rw [Fits] <;> dsimp only <;> omega

theorem fits_or (hw : 32 ≤ w) (ht : Held w t) (hnormal : Normalized t) (hm : Fits 32 m) :
    Fits w ((micros t + m * 1000) / 1000000) ∨ Fits w ((micros t - m * 1000) / 1000000) := by
  have hpow := pow_le hw
  have hsec := ht.sec
  obtain ⟨husec, husec'⟩ := hnormal
  rw [Fits] at hm hsec
  rw [Fits, Fits, micros]
  omega

theorem lt_eq (ht : Normalized t) (hu : Normalized u) : lt t u = decide (micros t < micros u) := by
  obtain ⟨h₀, h₁⟩ := ht
  obtain ⟨h₂, h₃⟩ := hu
  rw [lt, micros, micros]
  split_ifs <;> symm <;> simp only [decide_eq_true_eq, decide_eq_false_iff_not] <;> omega

theorem add_sub_milliseconds_iff (hw : 32 ≤ w) (ht : Held w t) (hnormal : Normalized t)
    (hn : Fits w ((micros t + m * 1000) / 1000000)) :
    (addMilliseconds w t m).bind (subMilliseconds w · m) = some t ↔ m.tmod 1000 = 0 := by
  have hback : micros (ofMicros (micros t + m * 1000)) - m * 1000 = micros t := by
    rw [micros_ofMicros]
    omega
  have hfits : Fits w ((micros (ofMicros (micros t + m * 1000)) - m * 1000) / 1000000) := by
    rw [hback, fits_of_ofMicros hnormal]
    exact ht.sec
  have hsub := subMilliseconds_exact_iff hw (normalized_ofMicros _) hfits
  rw [hback, ofMicros_micros hnormal] at hsub
  rw [addMilliseconds_exact hw ht hnormal hn, Option.bind_some]
  exact hsub

theorem sub_add_iff (hw : 32 ≤ w) (ht : Held w t) (hnormal : Normalized t)
    (hsub : sub w t u = some (ofMicros (micros t - micros u))) :
    (sub w t u).bind (add w · u) = some t ↔
      SumFits w ((ofMicros (micros t - micros u)).tv_sec + u.tv_sec) ((ofMicros (micros t - micros u)).tv_usec + u.tv_usec) := by
  have hback : micros (ofMicros (micros t - micros u)) + micros u = micros t := by
    rw [micros_ofMicros]
    omega
  have hfits : Fits w (micros t / 1000000) := by
    rw [fits_of_ofMicros hnormal]
    exact ht.sec
  have hadd : Exact w (add w (ofMicros (micros t - micros u)) u) _ ↔ _ := add_exact_iff hw
  rw [hback, Exact, ofMicros_micros hnormal, imp_iff_right hfits, imp_iff_right hfits] at hadd
  rw [hsub, Option.bind_some]
  exact hadd

/-- All is right if and only if the milliseconds are whole seconds and no number on the way leaves its range. -/
theorem right_iff (hw : 32 ≤ w) (ht : Held w t) (hnormal : Normalized t) (hm : Fits 32 m) :
    Right w t u m ↔ Proper w t u m := by
  constructor
  · intro h
    refine ⟨?_, (normalize_exact_iff hw).mp h.ofTimeval, (add_exact_iff hw).mp h.add, (sub_exact_iff hw).mp h.sub, ?_⟩
    · rcases fits_or hw ht hnormal hm with hn | hn
      · exact (add_sub_milliseconds_iff hw ht hnormal hn).mp (h.add_sub_milliseconds hn)
      · exact (subMilliseconds_exact_iff hw hnormal hn).mp (h.subMilliseconds hn)
    · exact fun hn => (sub_add_iff hw ht hnormal (h.sub hn)).mp (h.sub_add hn)
  · intro h
    have hsub : Exact w (sub w t u) (micros t - micros u) := (sub_exact_iff hw).mpr h.sub
    have hzero : Exact w (ofMilliseconds w m) (micros ⟨0, 0⟩ + m * 1000) :=
      addMilliseconds_exact hw (held_zero hw) ⟨by decide, by decide⟩
    have hofTimeval : Exact w (ofTimeval w u) (micros u) := (normalize_exact_iff hw).mpr h.ofTimeval
    refine ⟨hofTimeval, ?_, (add_exact_iff hw).mpr h.add, hsub, addMilliseconds_exact hw ht hnormal, ?_, ?_, ?_, ?_⟩
    · simpa [micros] using hzero
    · exact fun hn => (subMilliseconds_exact_iff hw hnormal hn).mpr h.milliseconds
    · exact fun hn => (add_sub_milliseconds_iff hw ht hnormal hn).mpr h.milliseconds
    · exact fun hn => (sub_add_iff hw ht hnormal (hsub hn)).mpr (h.sub_add hn)
    · intro hn hn'
      have hneg : micros t < micros u ↔ micros t - micros u < 0 := by omega
      refine ⟨_, hsub hn', ?_⟩
      rw [ltTimeval, hofTimeval hn, Option.map_some, lt_eq hnormal (normalized_ofMicros _), micros_ofMicros, micros_ofMicros]
      simp only [hneg]

/-- A second and a half, and three seconds of milliseconds, where `long` has 64 bits. -/
theorem right_iff_seconds : Right 64 ⟨100, 0⟩ ⟨1, 500000⟩ 3000 :=
  (right_iff (by decide) ⟨by decide, by decide⟩ ⟨by decide, by decide⟩ (by decide)).mpr
    ⟨by decide, by decide, by decide, by decide, by decide⟩

/-- 500 ms that are added to 10 s and taken off again. -/
theorem not_right : ¬Right 64 ⟨10, 0⟩ ⟨0, 0⟩ 500 :=
  fun h => absurd (h.add_sub_milliseconds (by decide)) (by decide)

end

end TimeVal

end Vocal.Util
