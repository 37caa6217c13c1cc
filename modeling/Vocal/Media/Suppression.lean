import Mathlib.Algebra.BigOperators.Group.List.Basic
import Mathlib.Data.BitVec
import Vocal.Media.Negotiate

/-!
# Silence suppression

`sinkData` hands frames of audio to the RTP stack. With voice activity detection a frame is withheld once
silence lasts for the configured delay, and one is sent all the same after a longer time, lest the other side
take the session for dead. Two counts of samples decide it: `consecutiveSilentSamples` runs on through a
packet that is forced out, `consecutiveSilentSentSamples` starts anew with every packet.

A frame that decodes to no samples divides by zero (`no_samples_divide_by_zero`), and with a delay of zero a
frame that is not silent is withheld. `suppression_sound` shows the rest for all sequences of frames.
-/

namespace Vocal.Media.Vad

/-- `VADOptions`. -/
structure VADOptions where
  vad_on : Bool
  ms_before_suppression : UInt32
  force_send_ms : UInt32
  deriving DecidableEq, Repr

/-- What `decode` leaves in the buffer of 1024 bytes, read as samples of 16 bits. -/
structure DecodedFrame where
  samples : List Int16
  perSampleSize : Nat
  fits : samples.length * perSampleSize ≤ 1024
  deriving DecidableEq, Repr

/-- A frame that is given to `sinkData`, with what its codec and that of the session make of it. -/
structure AudioFrame where
  data : List UInt8
  type : VCodecType
  /-- The clock rate of its codec. -/
  clockRate : Int32
  decoded : DecodedFrame
  /-- The decoded frame in the encoding of the session; empty after an error. -/
  encoded : List UInt8
  deriving DecidableEq, Repr

def AudioFrame.decodedSamples (f : AudioFrame) : Nat := f.decoded.samples.length

/-- A call to `rtpStack`. -/
inductive StackCall
  | transmitEvent (event : UInt8)
  | transmitRaw (data : List UInt8)
  | notifyVADSuppression (length : Nat)
  deriving DecidableEq, Repr

/-- What is added to the payload cache. -/
structure RtpPldBuffer where
  data : List UInt8
  samples : Nat
  type : VCodecType
  deriving DecidableEq, Repr

/-- What `sinkData` does with a frame. -/
structure Sunk where
  call : Option StackCall
  cached : Option RtpPldBuffer
  deriving DecidableEq, Repr

structure MRtpSession where
  /-- The type of `myCodec`. -/
  myType : VCodecType
  vadOptions : VADOptions
  consecutiveSilentSamples : Nat := 0
  consecutiveSilentSentSamples : Nat := 0
  deriving DecidableEq, Repr

namespace MRtpSession

/-! ### The energy of a frame -/

/-- `average`, rounded towards zero. -/
def average (samples : List Int16) : Int := (samples.map Int16.toInt).sum.tdiv samples.length

/-- `sumOfSquares`, in 64 bits. -/
def sumOfSquares (samples : List Int16) : Nat :=
  ((samples.map fun x : Int16 => (x.toInt - average samples) ^ 2).sum % 2 ^ 64).toNat

/-- `isSilence`; none where it divides by zero. -/
def isSilence (d : DecodedFrame) : Option Bool :=
  if d.perSampleSize = 2 then
    if d.samples.length = 0 then none
    else some (sumOfSquares d.samples < 0x7e * 0x7e * d.samples.length)
  else some false

/-- The milliseconds that a count of samples takes, in 64 bits; none where it divides by zero. -/
def elapsedMs (samples : Nat) (clockRate : Int32) : Option Nat :=
  if clockRate.toInt = 0 then none
  else some (samples * 1000 % 2 ^ 64 / (clockRate.toInt % 2 ^ 64).toNat)

/-! ### `sinkData` -/

/-- The voice activity detection: the count of silent samples, and whether they are enough to suppress the
frame. -/
def detect (s : MRtpSession) (f : AudioFrame) : Option (MRtpSession × Bool) :=
  if s.vadOptions.vad_on then
    (isSilence f.decoded).bind fun silentPacket =>
      let count := if silentPacket then (s.consecutiveSilentSamples + f.decodedSamples) % 2 ^ 64 else 0
      (elapsedMs count f.clockRate).map fun consecSilenceMs =>
        ({ s with consecutiveSilentSamples := count },
          s.vadOptions.ms_before_suppression.toNat ≤ consecSilenceMs)
  else some (s, false)

/-- Whether the frame stays suppressed: not when nothing was sent for too long. -/
def staysSuppressed (s : MRtpSession) (f : AudioFrame) (suppress : Bool) : Option Bool :=
  if suppress then
    (elapsedMs s.consecutiveSilentSentSamples f.clockRate).map fun consecSilenceSentMs =>
      consecSilenceSentMs < s.vadOptions.force_send_ms.toNat
  else some false

/-- The frame is counted instead of sent. -/
def withhold (s : MRtpSession) (f : AudioFrame) : MRtpSession × Sunk :=
  ({ s with
      consecutiveSilentSentSamples := (s.consecutiveSilentSentSamples + f.decodedSamples) % 2 ^ 64 },
    ⟨some (.notifyVADSuppression f.data.length), some ⟨[], 0, s.myType⟩⟩)

/-- The frame is sent as it came or in the encoding of the session. -/
def transmit (s : MRtpSession) (f : AudioFrame) : MRtpSession × Sunk :=
  ({ s with consecutiveSilentSentSamples := 0 },
    if f.type = s.myType then ⟨some (.transmitRaw f.data), some ⟨f.data, 160, s.myType⟩⟩
    else if f.encoded ≠ [] then
      ⟨some (.transmitRaw f.encoded), some ⟨f.encoded, f.decodedSamples, s.myType⟩⟩
    else ⟨none, none⟩)

/-- `MRtpSession::sinkData`; none where it divides by zero. -/
def sinkData (s : MRtpSession) (f : AudioFrame) : Option (MRtpSession × Sunk) :=
  if f.type = DTMF_TONE then some (s, ⟨some (.transmitEvent (f.data.headD 0)), none⟩)
  else if f.type ≠ s.myType ∨ s.vadOptions.vad_on then
    (s.detect f).bind fun (s, suppress) =>
      (s.staysSuppressed f suppress).map fun suppress =>
        if suppress then s.withhold f else s.transmit f
  else
    some ({ s with consecutiveSilentSamples := 0, consecutiveSilentSentSamples := 0 },
      ⟨some (.transmitRaw f.data), some ⟨f.data, 160, s.myType⟩⟩)

/-- The frames one after the other, with what is done with each. -/
def sinkAll (s : MRtpSession) : List AudioFrame → Option (List (AudioFrame × Sunk))
  | [] => some []
  | f :: fs => (s.sinkData f).bind fun r => (sinkAll r.1 fs).map ((f, r.2) :: ·)

end MRtpSession

/-! ### The property -/

open Vad.MRtpSession

namespace AudioFrame

def Silent (f : AudioFrame) : Prop := isSilence f.decoded = some true

instance (f : AudioFrame) : Decidable f.Silent := inferInstanceAs (Decidable (_ = _))

/-- The frame has samples, where they are looked at. -/
def HasSamples (f : AudioFrame) : Prop := f.decoded.perSampleSize = 2 → f.decoded.samples ≠ []

instance (f : AudioFrame) : Decidable f.HasSamples := inferInstanceAs (Decidable (_ → _))

end AudioFrame

def Sunk.Withheld (o : Sunk) : Prop := ∃ length, o.call = some (.notifyVADSuppression length)

def Sunk.Sent (o : Sunk) : Prop := ∃ data, o.call = some (.transmitRaw data)

abbrev Trace := List (AudioFrame × Sunk)

namespace Trace

/-- The samples of all frames. -/
def samples (t : Trace) : Nat := (t.map (·.1.decodedSamples)).sum

def suppressStep (n : Nat) (x : AudioFrame × Sunk) : Nat :=
  match x.2.call with
  | some (.notifyVADSuppression _) => n + x.1.decodedSamples
  | some (.transmitRaw _) => 0
  | _ => n

/-- The samples withheld since the last packet that was sent. -/
def suppressed (t : Trace) : Nat := t.foldl suppressStep 0

/-- What is done with a frame after the others of `pre`. A withheld frame ends an unbroken run of silent
frames as long as the configured delay; one that is not silent is sent; and what has been withheld since the
last packet takes no longer than the force-send time and this frame. -/
structure SoundAt (o : VADOptions) (rate : Int32) (pre : Trace) (f : AudioFrame) (out : Sunk) : Prop where
  withheld : out.Withheld → ∃ early quiet, pre = early ++ quiet ∧ (∀ x ∈ quiet, x.1.Silent) ∧ f.Silent ∧
    o.ms_before_suppression.toNat * rate.toInt.toNat ≤ 1000 * (samples quiet + f.decodedSamples)
  sent : ¬ f.Silent → out.Sent
  bounded : out.Withheld →
    1000 * suppressed (pre ++ [(f, out)]) <
      o.force_send_ms.toNat * rate.toInt.toNat + 1000 * f.decodedSamples

/-- All frames of the trace. -/
def Sound (o : VADOptions) (rate : Int32) (t : Trace) : Prop :=
  ∀ pre f out post, t = pre ++ (f, out) :: post → SoundAt o rate pre f out

end Trace

/-- The condition on a frame: it has samples; it is silent unless the delay is positive or every frame is
forced out; and the codec of the session makes something of it. -/
structure Allowed (o : VADOptions) (myType : VCodecType) (f : AudioFrame) : Prop where
  samples : f.HasSamples
  delay : ¬ f.Silent → 0 < o.ms_before_suppression.toNat ∨ o.force_send_ms.toNat = 0
  coded : f.type ≠ myType → f.encoded ≠ []

/-! ### One frame -/

variable {s : MRtpSession} {f : AudioFrame} {o : VADOptions} {rate : Int32} {myType : VCodecType}

theorem isSilence_isSome_iff : (isSilence f.decoded).isSome ↔ f.HasSamples := by
  unfold isSilence AudioFrame.HasSamples
  by_cases hsize : f.decoded.perSampleSize = 2
  · by_cases hnil : f.decoded.samples = [] <;> simp [hsize, hnil]
  · simp [hsize]

theorem AudioFrame.Silent.decodedSamples_le (h : f.Silent) : f.decodedSamples ≤ 512 := by
  have hsize : f.decoded.perSampleSize = 2 := by
    by_contra hne
    unfold AudioFrame.Silent isSilence at h
    rw [if_neg hne] at h
    simp at h
  have hfits := f.decoded.fits
  rw [hsize] at hfits
  unfold AudioFrame.decodedSamples
  omega

/-- The milliseconds of `n` samples. -/
def msOf (rate : Int32) (n : Nat) : Nat := n * 1000 % 2 ^ 64 / rate.toInt.toNat

theorem elapsedMs_eq (hrate : 0 < rate.toInt) (n : Nat) : elapsedMs n rate = some (msOf rate n) := by
  have hlt := rate.toInt_lt
  have hmod : rate.toInt % 2 ^ 64 = rate.toInt := Int.emod_eq_of_lt (by omega) (by omega)
  unfold elapsedMs msOf
  rw [if_neg (by omega), hmod]

theorem le_of_le_msOf (hrate : 0 < rate.toInt) {ms n : Nat} (h : ms ≤ msOf rate n) :
    ms * rate.toInt.toNat ≤ 1000 * n := by
  unfold msOf at h
  rw [Nat.mul_comm n] at h
  have hpos : 0 < rate.toInt.toNat := by omega
  have hdiv := (Nat.le_div_iff_mul_le hpos).mp h
  have hmod := Nat.mod_le (1000 * n) (2 ^ 64)
  omega

theorem lt_of_msOf_lt (hrate : 0 < rate.toInt) {ms n : Nat} (hn : 1000 * n < 2 ^ 64) (h : msOf rate n < ms) :
    1000 * n < ms * rate.toInt.toNat := by
  unfold msOf at h
  rw [Nat.mul_comm n] at h
  have hpos : 0 < rate.toInt.toNat := by omega
  have hdiv := (Nat.div_lt_iff_lt_mul hpos).mp h
  rwa [Nat.mod_eq_of_lt hn] at hdiv

/-- The count of silent samples after the frame. -/
def silentCount (s : MRtpSession) (f : AudioFrame) (silent : Bool) : Nat :=
  if silent then (s.consecutiveSilentSamples + f.decodedSamples) % 2 ^ 64 else 0

theorem sinkData_cases (hvad : s.vadOptions.vad_on = true) (htype : f.type ≠ DTMF_TONE)
    (hrate : 0 < f.clockRate.toInt) {silent : Bool} (hsilent : isSilence f.decoded = some silent) :
    (s.vadOptions.ms_before_suppression.toNat ≤ msOf f.clockRate (silentCount s f silent) ∧
        msOf f.clockRate s.consecutiveSilentSentSamples < s.vadOptions.force_send_ms.toNat ∧
        s.sinkData f = some (withhold { s with consecutiveSilentSamples := silentCount s f silent } f)) ∨
      ((msOf f.clockRate (silentCount s f silent) < s.vadOptions.ms_before_suppression.toNat ∨
          s.vadOptions.force_send_ms.toNat ≤ msOf f.clockRate s.consecutiveSilentSentSamples) ∧
        s.sinkData f = some (transmit { s with consecutiveSilentSamples := silentCount s f silent } f)) := by
  have hdetect : s.detect f = some ({ s with consecutiveSilentSamples := silentCount s f silent },
      decide (s.vadOptions.ms_before_suppression.toNat ≤ msOf f.clockRate (silentCount s f silent))) := by
    unfold detect silentCount
    simp only [hvad, hsilent, elapsedMs_eq hrate, if_true, Option.bind_some, Option.map_some]
  have hstays := elapsedMs_eq hrate s.consecutiveSilentSentSamples
  unfold sinkData
  rw [if_neg htype, if_pos (Or.inr hvad), hdetect, Option.bind_some]
  by_cases hlong : s.vadOptions.ms_before_suppression.toNat ≤ msOf f.clockRate (silentCount s f silent)
  · by_cases hforce : msOf f.clockRate s.consecutiveSilentSentSamples < s.vadOptions.force_send_ms.toNat
    · left
      refine ⟨hlong, hforce, ?_⟩
      simp [staysSuppressed, hlong, hstays, hforce]
    · right
      refine ⟨Or.inr (by omega), ?_⟩
      simp [staysSuppressed, hlong, hstays, hforce]
  · right
    refine ⟨Or.inl (by omega), ?_⟩
    simp [staysSuppressed, hlong]

/-! ### All frames -/

namespace Trace

theorem samples_concat (t : Trace) (x : AudioFrame × Sunk) :
    samples (t ++ [x]) = samples t + x.1.decodedSamples := by
  simp [samples]

theorem suppressed_concat (t : Trace) (x : AudioFrame × Sunk) :
    suppressed (t ++ [x]) = suppressStep (suppressed t) x := by
  simp [suppressed]

/-- The trace ends in silent frames with at least `n` samples. -/
def EndsSilent (t : Trace) (n : Nat) : Prop :=
  ∃ early quiet, t = early ++ quiet ∧ (∀ x ∈ quiet, x.1.Silent) ∧ n ≤ samples quiet

end Trace

open Trace

/-- What the counts of the session mean after the trace `t`. -/
structure Counts (o : VADOptions) (myType : VCodecType) (s : MRtpSession) (t : Trace) : Prop where
  options : s.vadOptions = o
  type : s.myType = myType
  silent : EndsSilent t s.consecutiveSilentSamples
  sent : s.consecutiveSilentSentSamples = suppressed t
  small : 1000 * suppressed t < 2 ^ 63 + 512000

theorem endsSilent_concat {t : Trace} (h : EndsSilent t s.consecutiveSilentSamples) {silent : Bool}
    (hsilent : isSilence f.decoded = some silent) (out : Sunk) :
    EndsSilent (t ++ [(f, out)]) (silentCount s f silent) := by
  unfold silentCount
  cases silent with
  | false => exact ⟨t ++ [(f, out)], [], by simp, by simp, by simp⟩
  | true =>
    obtain ⟨early, quiet, rfl, hquiet, hle⟩ := h
    refine ⟨early, quiet ++ [(f, out)], by simp, ?_, ?_⟩
    · intro x hx
      rcases List.mem_append.mp hx with hx | hx
      · exact hquiet x hx
      · rw [List.mem_singleton.mp hx]
        exact hsilent
    · rw [samples_concat, if_pos rfl]
      have hmod := Nat.mod_le (s.consecutiveSilentSamples + f.decodedSamples) (2 ^ 64)
      dsimp only
      omega

theorem force_mul_rate_lt (force : UInt32) (rate : Int32) :
    force.toNat * rate.toInt.toNat < 2 ^ 63 := by
  have hforce := force.toNat_lt
  have hrate := rate.toInt_lt
  have hmul : force.toNat * rate.toInt.toNat ≤ 2 ^ 32 * (2 ^ 31 - 1) :=
    Nat.mul_le_mul (by omega) (by omega)
  omega

theorem transmit_sent (hcoded : f.type ≠ s.myType → f.encoded ≠ []) : (s.transmit f).2.Sent := by
  unfold transmit
  by_cases htype : f.type = s.myType
  · exact ⟨f.data, by simp [htype]⟩
  · exact ⟨f.encoded, by simp [htype, hcoded htype]⟩

theorem not_withheld_of_sent {out : Sunk} (h : out.Sent) : ¬ out.Withheld := by
  rintro ⟨length, hlength⟩
  obtain ⟨data, hdata⟩ := h
  rw [hdata] at hlength
  simp at hlength

theorem suppressed_sent {t : Trace} {out : Sunk} (h : out.Sent) : suppressed (t ++ [(f, out)]) = 0 := by
  obtain ⟨data, hdata⟩ := h
  rw [suppressed_concat]
  simp [suppressStep, hdata]

theorem suppressed_withhold (t : Trace) (s : MRtpSession) (f : AudioFrame) :
    suppressed (t ++ [(f, (s.withhold f).2)]) = suppressed t + f.decodedSamples := by
  rw [suppressed_concat]
  rfl

theorem Counts.withhold {t : Trace} (hends : ∀ out, EndsSilent (t ++ [(f, out)]) s.consecutiveSilentSamples)
    (hsent : s.consecutiveSilentSentSamples = suppressed t) (hlt : 1000 * suppressed t < 2 ^ 63)
    (hfew : f.decodedSamples ≤ 512) :
    Counts s.vadOptions s.myType (s.withhold f).1 (t ++ [(f, (s.withhold f).2)]) := by
  refine ⟨rfl, rfl, hends _, ?_, ?_⟩
  · rw [suppressed_withhold, ← hsent]
    apply Nat.mod_eq_of_lt
    omega
  · rw [suppressed_withhold]
    omega

theorem Counts.transmit {t : Trace} (hends : ∀ out, EndsSilent (t ++ [(f, out)]) s.consecutiveSilentSamples)
    (hcoded : f.type ≠ s.myType → f.encoded ≠ []) :
    Counts s.vadOptions s.myType (s.transmit f).1 (t ++ [(f, (s.transmit f).2)]) := by
  have htotal := suppressed_sent (t := t) (f := f) (transmit_sent hcoded)
  refine ⟨rfl, rfl, hends _, ?_, ?_⟩
  · rw [htotal]
    rfl
  · omega

/-- A frame that meets the condition is dealt with, and the counts keep their meaning. -/
theorem Counts.step {t : Trace} (h : Counts o myType s t) (hvad : o.vad_on = true)
    (htype : f.type ≠ DTMF_TONE) (hrate : 0 < f.clockRate.toInt) (hallowed : Allowed o myType f) :
    ∃ s' out, s.sinkData f = some (s', out) ∧ Counts o myType s' (t ++ [(f, out)]) ∧
      SoundAt o f.clockRate t f out := by
  obtain ⟨rfl, rfl, hcount, hsent, hsmall⟩ := h
  obtain ⟨silent, hsilent⟩ := Option.isSome_iff_exists.mp (isSilence_isSome_iff.mpr hallowed.samples)
  have hquiet : f.Silent ↔ silent = true := by
    unfold AudioFrame.Silent
    rw [hsilent, Option.some_inj]
  have hends := fun out => endsSilent_concat hcount hsilent out
  let s₁ : MRtpSession := { s with consecutiveSilentSamples := silentCount s f silent }
  rcases sinkData_cases hvad htype hrate hsilent with ⟨hlong, hforce, hsink⟩ | ⟨-, hsink⟩
  · -- withheld: the frame is silent, and the time to force one out is not over
    have hsilentFrame : f.Silent := by
      by_contra hnot
      have hfalse : silent = false := by simpa [hquiet] using hnot
      have hdelay := hallowed.delay hnot
      rw [hfalse] at hlong
      simp only [silentCount, Bool.false_eq_true, if_false, msOf, Nat.zero_mul, Nat.zero_mod,
        Nat.zero_div] at hlong
      omega
    have hforced := lt_of_msOf_lt hrate (by omega) hforce
    have hbound := force_mul_rate_lt s.vadOptions.force_send_ms f.clockRate
    have hms := le_of_le_msOf hrate hlong
    rw [hsent] at hforced
    have hcounts := Counts.withhold (s := s₁) hends hsent (by omega) hsilentFrame.decodedSamples_le
    refine ⟨(s₁.withhold f).1, (s₁.withhold f).2, hsink, hcounts, ?_, ?_, ?_⟩
    · intro _
      obtain ⟨early, quiet, ht, hall, hle⟩ := hcount
      have hmod := Nat.mod_le (s.consecutiveSilentSamples + f.decodedSamples) (2 ^ 64)
      rw [silentCount, if_pos (hquiet.mp hsilentFrame)] at hms
      exact ⟨early, quiet, ht, hall, hsilentFrame, by omega⟩
    · exact fun hnot => absurd hsilentFrame hnot
    · intro _
      rw [suppressed_withhold]
      omega
  · have hout := transmit_sent (s := s₁) hallowed.coded
    have hnot := not_withheld_of_sent hout
    have hcounts := Counts.transmit (s := s₁) hends hallowed.coded
    refine ⟨(s₁.transmit f).1, (s₁.transmit f).2, hsink, hcounts, ?_, ?_, ?_⟩
    · exact fun hheld => absurd hheld hnot
    · exact fun _ => hout
    · exact fun hheld => absurd hheld hnot

theorem Counts.sinkAll {frames : List AudioFrame} (hvad : o.vad_on = true) (hrate : 0 < rate.toInt)
    (haudio : ∀ f ∈ frames, f.type ≠ DTMF_TONE ∧ f.clockRate = rate)
    (hallowed : ∀ f ∈ frames, Allowed o myType f) :
    ∀ s done, Counts o myType s done → ∃ t, s.sinkAll frames = some t ∧ t.map (·.1) = frames ∧
      ∀ pre f out post, t = pre ++ (f, out) :: post → SoundAt o rate (done ++ pre) f out := by
  induction frames with
  | nil => exact fun s done _ => ⟨[], rfl, rfl, fun pre f out post h => by simp at h⟩
  | cons f frames ih =>
    intro s done h
    obtain ⟨⟨htype, hclock⟩, haudio⟩ := List.forall_mem_cons.mp haudio
    obtain ⟨hf, hallowed⟩ := List.forall_mem_cons.mp hallowed
    subst hclock
    obtain ⟨s', out, hsink, hcounts, hsound⟩ := h.step hvad htype hrate hf
    obtain ⟨t, hall, hframes, hrest⟩ := ih haudio hallowed s' _ hcounts
    refine ⟨(f, out) :: t, ?_, by simp [hframes], ?_⟩
    · rw [MRtpSession.sinkAll, hsink, Option.bind_some, hall]
      rfl
    · intro pre g out' post heq
      cases pre with
      | nil =>
        obtain ⟨hpair, rfl⟩ := List.cons.inj heq
        obtain ⟨rfl, rfl⟩ := Prod.mk.inj hpair
        rw [List.append_nil]
        exact hsound
      | cons x pre =>
        obtain ⟨rfl, hpost⟩ := List.cons.inj heq
        have hg := hrest pre g out' post hpost
        rwa [List.append_assoc, List.singleton_append] at hg

/-- A frame that is looked at and has no samples ends the session. -/
theorem sinkData_eq_none (hvad : s.vadOptions.vad_on = true) (htype : f.type ≠ DTMF_TONE)
    (hnone : ¬ f.HasSamples) : s.sinkData f = none := by
  have hsilence : isSilence f.decoded = none := by
    rw [← Option.not_isSome_iff_eq_none, isSilence_isSome_iff]
    exact hnone
  unfold sinkData detect
  rw [if_neg htype, if_pos (Or.inr hvad), if_pos hvad, hsilence]
  rfl

theorem vad_on_sinkData {s' : MRtpSession} {out : Sunk} (hvad : s.vadOptions.vad_on = true)
    (htype : f.type ≠ DTMF_TONE) (hrate : 0 < f.clockRate.toInt) (h : s.sinkData f = some (s', out)) :
    s'.vadOptions.vad_on = true := by
  cases hsilence : isSilence f.decoded with
  | none =>
    rw [sinkData_eq_none hvad htype] at h
    · simp at h
    · rw [← isSilence_isSome_iff, hsilence]
      simp
  | some silent =>
    rcases sinkData_cases hvad htype hrate hsilence with ⟨-, -, hsink⟩ | ⟨-, hsink⟩
    · rw [h] at hsink
      rw [show s' = _ from congrArg Prod.fst (Option.some.inj hsink)]
      exact hvad
    · rw [h] at hsink
      rw [show s' = _ from congrArg Prod.fst (Option.some.inj hsink)]
      exact hvad

theorem sinkAll_isSome_iff {frames : List AudioFrame} (hrate : 0 < rate.toInt)
    (haudio : ∀ f ∈ frames, f.type ≠ DTMF_TONE ∧ f.clockRate = rate) :
    ∀ s : MRtpSession, s.vadOptions.vad_on = true →
      ((s.sinkAll frames).isSome ↔ ∀ f ∈ frames, f.HasSamples) := by
  induction frames with
  | nil => simp [MRtpSession.sinkAll]
  | cons f frames ih =>
    intro s hvad
    obtain ⟨⟨htype, hclock⟩, haudio⟩ := List.forall_mem_cons.mp haudio
    rw [List.forall_mem_cons, MRtpSession.sinkAll]
    by_cases hsamples : f.HasSamples
    · obtain ⟨silent, hsilent⟩ := Option.isSome_iff_exists.mp (isSilence_isSome_iff.mpr hsamples)
      have hdone : ∃ r, s.sinkData f = some r := by
        rcases sinkData_cases hvad htype (by rw [hclock]; exact hrate) hsilent with ⟨-, -, h⟩ | ⟨-, h⟩
        · exact ⟨_, h⟩
        · exact ⟨_, h⟩
      obtain ⟨⟨s', out⟩, hsink⟩ := hdone
      have hvad' := vad_on_sinkData hvad htype (by rw [hclock]; exact hrate) hsink
      rw [hsink, Option.bind_some, Option.isSome_map, ih haudio s' hvad']
      exact (and_iff_right hsamples).symm
    · rw [sinkData_eq_none hvad htype hsamples]
      simp [hsamples]

/-- **Silence suppression**, with voice activity detection on. A sequence of frames is dealt with, without a
division by zero, exactly if each frame has samples; and if all frames meet the condition, each of them is
dealt with as it should be. -/
theorem suppression_sound (o : VADOptions) (myType : VCodecType) (rate : Int32) (frames : List AudioFrame)
    (hvad : o.vad_on = true) (hrate : 0 < rate.toInt)
    (haudio : ∀ f ∈ frames, f.type ≠ DTMF_TONE ∧ f.clockRate = rate) :
    ((sinkAll { myType := myType, vadOptions := o } frames).isSome ↔ ∀ f ∈ frames, f.HasSamples) ∧
    ((∀ f ∈ frames, Allowed o myType f) →
      ∃ t, sinkAll { myType := myType, vadOptions := o } frames = some t ∧ t.map (·.1) = frames ∧
        Sound o rate t) := by
  refine ⟨sinkAll_isSome_iff hrate haudio _ hvad, fun hallowed => ?_⟩
  have hstart : Counts o myType { myType := myType, vadOptions := o } [] :=
    ⟨rfl, rfl, ⟨[], [], rfl, by simp, Nat.zero_le _⟩, rfl, by decide⟩
  obtain ⟨t, hsink, hframes, hsound⟩ := Counts.sinkAll hvad hrate haudio hallowed _ _ hstart
  exact ⟨t, hsink, hframes, hsound⟩

/-- A frame of G711U data, decoded to 16-bit samples. -/
def pcmuFrame (samples : List Int16) (hfits : samples.length ≤ 512) : AudioFrame where
  data := samples.map fun _ => 0xff
  type := G711U
  clockRate := 8000
  decoded := ⟨samples, 2, by omega⟩
  encoded := []

/-- A frame without data stops the program. -/
theorem no_samples_divide_by_zero :
    sinkAll { myType := G711U, vadOptions := ⟨true, 500, 2000⟩ } [pcmuFrame [] (by decide)] = none := by
  decide

theorem suppression_sound_pcmu :
    ∃ t, sinkAll { myType := G711U, vadOptions := ⟨true, 0, 2000⟩ }
        [pcmuFrame [3, -3] (by decide), pcmuFrame [5, -5] (by decide)] = some t ∧
      Sound ⟨true, 0, 2000⟩ 8000 t := by
  have hallowed : ∀ f ∈ [pcmuFrame [3, -3] (by decide), pcmuFrame [5, -5] (by decide)],
      Allowed ⟨true, 0, 2000⟩ G711U f := by
    rintro f (_ | ⟨_, _ | ⟨_, hnil⟩⟩)
    · exact ⟨by decide, fun h => absurd (by decide) h, by decide⟩
    · exact ⟨by decide, fun h => absurd (by decide) h, by decide⟩
    · cases hnil
  obtain ⟨t, hsink, -, hsound⟩ := (suppression_sound ⟨true, 0, 2000⟩ G711U 8000
    [pcmuFrame [3, -3] (by decide), pcmuFrame [5, -5] (by decide)] rfl (by decide) (by decide)).2 hallowed
  exact ⟨t, hsink, hsound⟩

end Vocal.Media.Vad
