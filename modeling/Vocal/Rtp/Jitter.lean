import Vocal.Lib.Machine
import Vocal.Rtcp.NtpTime

/-!
# The estimate of the jitter

`RtpReceiver` compares the time at which a packet comes with the time that its timestamp stands for. What this transit
differs by from the one before is a delay, and `jitter` is sixteen times the average of the delays. `bounds_run` is the
bound on the average, over runs of packets and sources.
-/

namespace Vocal.Rtp

open Rtcp (NtpTime)

/-! ### The receiver -/

/-- What `RtpReceiver` computes the jitter from. -/
structure Delays where
  seedNtpTime : NtpTime
  seedRtpTime : UInt32
  lastTransit_ms : UInt64
  /-- In milliseconds, sixteen times. -/
  jitter : Int32
  deriving DecidableEq

namespace Delays

/-- `RtpReceiver::initSource` at the time `now`. -/
def initSource (now : NtpTime) (rtpTime : UInt32) : Delays where
  seedNtpTime := now
  seedRtpTime := rtpTime
  lastTransit_ms := 0
  jitter := 0

def getJitter (s : Delays) : Int32 := s.jitter >>> 4

/-- `rtp2ntp`, with no result at a clock that stands still. -/
def rtp2ntp (s : Delays) (clockRate rtpTime : UInt32) : Option NtpTime :=
  if clockRate = 0 then none else some (s.seedNtpTime.plus ((rtpTime - s.seedRtpTime) * 1000 / clockRate))

/-- `int delay = transit - lastTransit_ms`, a difference of words of 64 bits. -/
def delay (s : Delays) (transit : Int64) : Int32 := (transit.toUInt64 - s.lastTransit_ms).toInt64.toInt32

/-- The delay is taken for one of a timestamp that wrapped. -/
def outOfBounds (delay : Int32) : Bool := delay > 500000 || delay < -500000

/-- The delay as it is counted. -/
def counted (s : Delays) (transit : Int64) : Int32 :=
  let delay := if outOfBounds (s.delay transit) then 0 else s.delay transit
  if delay < 0 then -delay else delay

def updateJitter (jitter delay : Int32) : Int32 := jitter + (delay - (jitter + 8) >>> 4)

/-- A packet with its transit; `again` is the time read for a new baseline. -/
def arrive (s : Delays) (transit : Int64) (rtpTime : UInt32) (again : NtpTime) : Delays :=
  let out := outOfBounds (s.delay transit)
  { seedNtpTime := if out then again else s.seedNtpTime
    seedRtpTime := if out then rtpTime else s.seedRtpTime
    lastTransit_ms := (if out then 0 else transit).toUInt64
    jitter := updateJitter s.jitter (s.counted transit) }

/-- What happens to a receiver: another source, or a packet read from the network at the time `now`. -/
inductive Event
  | initSource (now : NtpTime) (rtpTime : UInt32)
  | readNetwork (clockRate : UInt32) (now : NtpTime) (rtpTime : UInt32) (again : NtpTime)

/-- The transit of the packet of an event. -/
def transit (s : Delays) : Event → Option Int64
  | .initSource _ _ => none
  | .readNetwork clockRate now rtpTime _ => (s.rtp2ntp clockRate rtpTime).map fun tmpntp => .ofInt (now.minus tmpntp)

/-- The end of `readNetwork`, and `initSource`. -/
def step (s : Delays) (e : Event) : Option Delays :=
  match e with
  | .initSource now rtpTime => some (initSource now rtpTime)
  | .readNetwork _ _ rtpTime again => (s.transit e).map fun transit => s.arrive transit rtpTime again

end Delays

/-- A receiver from its first source on; it is gone after a division by zero. -/
def delays (now : NtpTime) (rtpTime : UInt32) : Machine (Option Delays) Delays.Event Unit where
  init := some (.initSource now rtpTime)
  step s e := (s.bind (·.step e), ())

namespace Delays

/-! ### Differences -/

/-- The difference of a transit and the last one. -/
def difference (s : Delays) (transit : Int64) : Int := transit.toInt - s.lastTransit_ms.toInt64.toInt

/-- The absolute difference that an event shows. -/
def differences (s : Option Delays) (e : Event) : List Nat :=
  (s.bind fun s => (s.transit e).map fun transit => (s.difference transit).natAbs).toList

def largest (l : List Nat) : Nat := l.foldr max 0

/-! ### Words -/

section words

variable {a b : Int32}

theorem toInt_shiftRight_four (a : Int32) : (a >>> 4).toInt = a.toInt / 16 := by
  have h : (a >>> 4).toInt = (a.toBitVec.sshiftRight 4).toInt := rfl
  rw [h, BitVec.toInt_sshiftRight, Int.shiftRight_eq_div_pow]
  rfl

theorem toInt_add_of_bounds (hlow : -2 ^ 31 ≤ a.toInt + b.toInt) (hhigh : a.toInt + b.toInt < 2 ^ 31) :
    (a + b).toInt = a.toInt + b.toInt := by
  rw [Int32.toInt_add]
  exact Int.bmod_eq_of_le (by simp; omega) (by simp; omega)

theorem toInt_sub_of_bounds (hlow : -2 ^ 31 ≤ a.toInt - b.toInt) (hhigh : a.toInt - b.toInt < 2 ^ 31) :
    (a - b).toInt = a.toInt - b.toInt := by
  rw [Int32.toInt_sub]
  exact Int.bmod_eq_of_le (by simp; omega) (by simp; omega)

theorem toInt_neg_of_bounds (hlow : -2 ^ 31 < a.toInt) : (-a).toInt = -a.toInt := by
  have hhigh := a.toInt_lt
  rw [Int32.toInt_neg]
  exact Int.bmod_eq_of_le (by simp; omega) (by simp; omega)

end words

/-! ### Delays -/

section delays

variable (s : Delays) (transit : Int64)

/-- The difference of unsigned words may wrap; as an `int` it is the true one, but for a multiple of 2^32. -/
theorem toInt_delay : (s.delay transit).toInt = (s.difference transit).bmod (2 ^ 32) := by
  rw [delay, Int64.toInt_toInt32, UInt64.toInt64_sub, Int64.toInt64_toUInt64, Int64.toInt_sub, difference,
    Int.bmod_bmod_of_dvd (by decide)]

theorem natAbs_bmod_le (x : Int) : (x.bmod (2 ^ 32)).natAbs ≤ x.natAbs := by
  rw [Int.bmod_def]
  split <;> omega

theorem outOfBounds_iff (d : Int32) : outOfBounds d = true ↔ 500000 < d.toInt.natAbs := by
  have hhigh : d > 500000 ↔ 500000 < d.toInt := Int32.lt_iff_toInt_lt
  have hlow : d < -500000 ↔ d.toInt < -500000 := Int32.lt_iff_toInt_lt
  rw [outOfBounds, Bool.or_eq_true, decide_eq_true_eq, decide_eq_true_eq, hhigh, hlow]
  omega

theorem toInt_counted : (s.counted transit).toInt =
    if 500000 < (s.delay transit).toInt.natAbs then 0 else ((s.delay transit).toInt.natAbs : Int) := by
  rw [counted]
  by_cases hout : 500000 < (s.delay transit).toInt.natAbs
  · rw [if_pos ((outOfBounds_iff _).mpr hout), if_pos hout]
    rfl
  · rw [if_neg (mt (outOfBounds_iff _).mp hout), if_neg hout]
    have hneg : s.delay transit < 0 ↔ (s.delay transit).toInt < 0 := Int32.lt_iff_toInt_lt
    by_cases hsign : (s.delay transit).toInt < 0
    · rw [if_pos (hneg.mpr hsign), toInt_neg_of_bounds (by omega)]
      omega
    · rw [if_neg (mt hneg.mp hsign)]
      omega

/-- What is counted is not negative, not more than the bound and not more than the true difference. -/
theorem counted_bounds : 0 ≤ (s.counted transit).toInt ∧ (s.counted transit).toInt ≤ 500000 ∧
    (s.counted transit).toInt ≤ (s.difference transit).natAbs := by
  have hle := natAbs_bmod_le (s.difference transit)
  rw [← toInt_delay] at hle
  rw [toInt_counted]
  split <;> omega

end delays

/-! ### The recurrence -/

/-- An average of `w` times what is counted, where `h` rounds. -/
def smooth (w h J D : Int) : Int := J + (D - (J + h) / w)

theorem smooth_bounds {w h J D M : Int} (hw : h < w) (hh : 0 ≤ h) (hJ : 0 ≤ J) (hJM : J < w * M + (w - h)) (hD : 0 ≤ D)
    (hDM : D ≤ M) : 0 ≤ smooth w h J D ∧ smooth w h J D < w * M + (w - h) := by
  have hdiv := Int.mul_ediv_add_emod (J + h) w
  have hrem := Int.emod_nonneg (J + h) (by omega : w ≠ 0)
  have hlt := Int.emod_lt_of_pos (J + h) (by omega : 0 < w)
  rw [smooth]
  generalize (J + h) / w = q at hdiv ⊢
  generalize (J + h) % w = r at hdiv hrem hlt
  constructor
  · -- the quotient is at most `J`
    have hq : q ≤ J := by
      by_contra hgt
      have hmul : w * (J + 1) ≤ w * q := Int.mul_le_mul_of_nonneg_left (by omega) (by omega)
      have hJw : J * 1 ≤ J * w := Int.mul_le_mul_of_nonneg_left (by omega) hJ
      rw [Int.mul_add, Int.mul_one, Int.mul_comm w J] at hmul
      omega
    omega
  · have hq : q ≤ M := by
      by_contra hgt
      have hmul : w * (M + 1) ≤ w * q := Int.mul_le_mul_of_nonneg_left (by omega) (by omega)
      rw [Int.mul_add, Int.mul_one] at hmul
      omega
    -- what is left of `J` grows with the quotient
    have hmul : (w - 1) * q ≤ (w - 1) * M := Int.mul_le_mul_of_nonneg_left hq (by omega)
    rw [Int.sub_mul, Int.sub_mul, Int.one_mul, Int.one_mul] at hmul
    omega

/-! ### A packet -/

/-- The words that a packet is counted with are the numbers that they stand for. -/
structure Exact (s : Delays) (transit : Int64) : Prop where
  /-- The difference may wrap as long as it is unsigned. -/
  delay : -2 ^ 31 ≤ s.difference transit → s.difference transit < 2 ^ 31 → (s.delay transit).toInt = s.difference transit
  delay_le : (s.delay transit).toInt.natAbs ≤ (s.difference transit).natAbs
  counted : (s.counted transit).toInt =
    if 500000 < (s.delay transit).toInt.natAbs then 0 else ((s.delay transit).toInt.natAbs : Int)
  rounded : (s.jitter + 8).toInt = s.jitter.toInt + 8
  change : (s.counted transit - (s.jitter + 8) >>> 4).toInt = (s.counted transit).toInt - (s.jitter.toInt + 8) / 16
  jitter : (updateJitter s.jitter (s.counted transit)).toInt = smooth 16 8 s.jitter.toInt (s.counted transit).toInt

/-- The jitter is not negative and below what an average of the delays `l` comes to. -/
structure Bounded (s : Delays) (l : List Nat) : Prop where
  nonneg : 0 ≤ s.jitter.toInt
  lt : s.jitter.toInt < 16 * largest l + 8
  /-- No delay that is counted is out of bounds. -/
  lt_bound : s.jitter.toInt < 16 * 500000 + 8

section packet

variable {s s' : Delays} {l : List Nat} {e : Event}

theorem Bounded.exact (hs : Bounded s l) (transit : Int64) : Exact s transit := by
  obtain ⟨hnonneg, -, hbound⟩ := hs
  obtain ⟨hcounted, hcounted', -⟩ := counted_bounds s transit
  have height : (8 : Int32).toInt = 8 := rfl
  have hrounded : (s.jitter + 8).toInt = s.jitter.toInt + 8 :=
    toInt_add_of_bounds (by rw [height]; omega) (by rw [height]; omega)
  have hshift : ((s.jitter + 8) >>> 4).toInt = (s.jitter.toInt + 8) / 16 := by
    rw [toInt_shiftRight_four, hrounded]
  have hchange : (s.counted transit - (s.jitter + 8) >>> 4).toInt = (s.counted transit).toInt - (s.jitter.toInt + 8) / 16 := by
    rw [toInt_sub_of_bounds (by omega) (by omega), hshift]
  refine ⟨fun hlow hhigh => ?_, ?_, toInt_counted s transit, hrounded, hchange, ?_⟩
  · rw [toInt_delay]
    exact Int.bmod_eq_of_le (by simp; omega) (by simp; omega)
  · rw [toInt_delay]
    exact natAbs_bmod_le _
  · rw [updateJitter, toInt_add_of_bounds (by omega) (by omega), hchange, smooth]

theorem largest_append (l l' : List Nat) : largest (l ++ l') = max (largest l) (largest l') := by
  induction l with
  | nil => exact (Nat.zero_max _).symm
  | cons a l ih =>
    have h : largest (a :: l) = max a (largest l) := rfl
    rw [List.cons_append, largest, List.foldr_cons, ← largest, ih, h, Nat.max_assoc]

theorem bounded_initSource (now : NtpTime) (rtpTime : UInt32) (l : List Nat) : Bounded (initSource now rtpTime) l :=
  ⟨le_refl 0, by simp [initSource]; omega, show (0 : Int32).toInt < 16 * 500000 + 8 by decide⟩

theorem Bounded.arrive (hs : Bounded s l) (transit : Int64) (rtpTime : UInt32) (again : NtpTime) :
    Bounded (s.arrive transit rtpTime again) (l ++ [(s.difference transit).natAbs]) := by
  have hjitter := (hs.exact transit).jitter
  obtain ⟨hcounted, hcounted', hdifference⟩ := counted_bounds s transit
  have hlargest : largest (l ++ [(s.difference transit).natAbs]) = max (largest l) (s.difference transit).natAbs := by
    rw [largest_append, largest, largest, List.foldr_cons, List.foldr_nil, Nat.max_zero]
  have hlt := hs.lt
  have hseen := smooth_bounds (w := 16) (h := 8) (M := largest (l ++ [(s.difference transit).natAbs])) (by decide) (by decide)
    hs.nonneg (by omega) hcounted (by omega)
  have hbound := smooth_bounds (w := 16) (h := 8) (M := 500000) (by decide) (by decide) hs.nonneg hs.lt_bound hcounted hcounted'
  rw [← hjitter] at hseen hbound
  exact ⟨hseen.1, hseen.2, hbound.2⟩

theorem Bounded.step (hs : Bounded s l) (h : s.step e = some s') : Bounded s' (l ++ differences (some s) e) := by
  cases e with
  | initSource now rtpTime =>
    cases h
    exact bounded_initSource now rtpTime _
  | readNetwork clockRate now rtpTime again =>
    obtain ⟨transit, htransit, rfl⟩ := Option.map_eq_some_iff.mp h
    rw [differences, Option.bind_some, htransit]
    exact hs.arrive transit rtpTime again

theorem Bounded.getJitter (hs : Bounded s l) : 0 ≤ s.getJitter.toInt ∧ s.getJitter.toInt ≤ largest l := by
  obtain ⟨hnonneg, hlt, -⟩ := hs
  rw [Delays.getJitter, toInt_shiftRight_four]
  omega

end packet

/-! ### Runs -/

theorem bounded_run (now : NtpTime) (rtpTime : UInt32) (ops : List Event) :
    ∀ s ∈ (delays now rtpTime).run (delays now rtpTime).init ops,
      Bounded s ((delays now rtpTime).log differences (delays now rtpTime).init ops) := by
  have hstep : ∀ (s : Option Delays) (l : List Nat) (e : Event), (∀ r ∈ s, Bounded r l) → True →
      ∀ r ∈ (delays now rtpTime).next s e, Bounded r (l ++ differences s e) := by
    intro s l e hs _ r hr
    obtain ⟨s, rfl, hnext⟩ := Option.bind_eq_some_iff.mp hr
    exact (hs s rfl).step hnext
  have hinit : ∀ r ∈ (delays now rtpTime).init, Bounded r [] := by
    intro r hr
    cases hr
    exact bounded_initSource now rtpTime []
  exact Machine.log_of_guarded hstep ops _ [] hinit (Machine.along_of_forall (fun _ _ => trivial) _)

/-- In every run the estimate stays between nothing and the largest difference that was seen, and the next packet is counted
without an overflow. -/
theorem jitter_bounds (now : NtpTime) (rtpTime : UInt32) (ops : List Event) (s : Delays)
    (h : (delays now rtpTime).run (delays now rtpTime).init ops = some s) :
    0 ≤ s.getJitter.toInt ∧
    s.getJitter.toInt ≤ largest ((delays now rtpTime).log differences (delays now rtpTime).init ops) ∧
    ∀ transit, Exact s transit := by
  have hs := bounded_run now rtpTime ops s h
  exact ⟨hs.getJitter.1, hs.getJitter.2, hs.exact⟩

/-- Two packets, one ten and one five milliseconds after their time. -/
def twoPackets : List Event :=
  [.readNetwork 8000 (NtpTime.plus ⟨0, 0⟩ 30) 160 ⟨0, 0⟩, .readNetwork 8000 (NtpTime.plus ⟨0, 0⟩ 45) 320 ⟨0, 0⟩]

theorem jitter_bounds_two : 0 ≤ (⟨⟨0, 0⟩, 0, 5, 14⟩ : Delays).getJitter.toInt ∧
    (⟨⟨0, 0⟩, 0, 5, 14⟩ : Delays).getJitter.toInt ≤ largest [10, 5] ∧
    Exact ⟨⟨0, 0⟩, 0, 5, 14⟩ 7 := by
  obtain ⟨hnonneg, hle, hexact⟩ := jitter_bounds ⟨0, 0⟩ 0 twoPackets ⟨⟨0, 0⟩, 0, 5, 14⟩ (by decide)
  exact ⟨hnonneg, hle, hexact 7⟩

/-- The difference of the transits of the two packets wraps before it is made an `int`. -/
theorem unsigned_difference_wraps :
    ¬∀ (now : NtpTime) (rtpTime : UInt32) (ops : List Event),
      (∀ s ∈ (delays now rtpTime).run (delays now rtpTime).init ops,
        0 ≤ s.getJitter.toInt ∧
        s.getJitter.toInt ≤ largest ((delays now rtpTime).log differences (delays now rtpTime).init ops)) ∧
      (delays now rtpTime).Along (fun s e => ∀ r ∈ s, ∀ transit ∈ r.transit e, r.lastTransit_ms ≤ transit.toUInt64)
        (delays now rtpTime).init ops := by
  intro h
  have hsecond := (h ⟨0, 0⟩ 0 twoPackets).2.2.1 ⟨⟨0, 0⟩, 0, 10, 10⟩ (by decide) 5 (by decide)
  exact absurd hsecond (by decide)

end Delays

end Vocal.Rtp
