import Vocal.Rtp.Datagram

/-!
# Cycles of the sequence numbers

`updateSource` compares the number of a packet with that of the packet before it, whichever is the higher, and counts a
cycle where it is by more than 10000 below. `cycles_right_iff` says for which orders of the packets of a source the
cycles are counted once, and for which the number that is kept is the highest.
-/

namespace Vocal.Rtp

open Bytes
open Rtcp (Stop access_eq_ok bind_eq_ok ok_bind)

namespace Receiver

variable {n : Nat} {s s' : Receiver n} {d : Bytes} {src : UInt32} {ts : UInt16} {top last number : Int}

/-! ### Numbers of the stream -/

/-- A packet of the source with this number in the stream, of which its header has the last sixteen bits. -/
structure IsNumbered (src : UInt32) (number : Int) (d : Bytes) : Prop where
  sequence : ∃ ts, word16At d 2 = some ts ∧ (ts.toNat : Int) = number % 2 ^ 16
  source : word32At d 8 = some src

/-- The receiver listens to the source, which is not on probation. -/
structure Hears (s : Receiver n) (src : UInt32) : Prop where
  set : s.sourceSet = true
  ssrc : s.ssrc = src
  unlisted : ¬ (src = s.srcProbation ∧ s.probationSet = true)
  probation : 0 ≤ s.probation

/-- Each number is by less than half of the sequence space away from the highest before it. -/
def Displaced : Int → List Int → Prop
  | _, [] => True
  | top, number :: later => (number - top).natAbs < 2 ^ 15 ∧ Displaced (max top number) later

/-- `P` holds in every state of a run, for the highest number that was received. -/
def Along (P : Receiver n → Int → Prop) (s : Receiver n) (top : Int) : List (Int × Bytes) → Prop
  | [] => P s top
  | p :: later =>
    P s top ∧ ∃ refused s', s.updateSource p.2 = .ok (refused, s') ∧ Along P s' (max top p.1) later

/-- The number that the receiver keeps, with its cycles. -/
def extended (s : Receiver n) : Nat := s.recv_cycles.toNat * 2 ^ 16 + s.realPrevSeqRecv.toNat

/-- The cycles and the number that the receiver keeps make the highest number. -/
def TellsHighest (s : Receiver n) (top : Int) : Prop := s.extended = top

/-- Each wrap is counted once, so that the cycles and the last bits of the highest number make it. -/
def CountsCycles (s : Receiver n) (top : Int) : Prop := s.recv_cycles.toNat = top / 2 ^ 16

instance (s : Receiver n) (top : Int) : Decidable (s.TellsHighest top) := inferInstanceAs (Decidable (_ = _))

instance (s : Receiver n) (top : Int) : Decidable (s.CountsCycles top) := inferInstanceAs (Decidable (_ = _))

/-- The condition for the number: the packets are in order. -/
def Ascends : Int → List Int → Prop
  | _, [] => True
  | top, number :: later => (top ≤ number ∧ number < 2 ^ 48) ∧ Ascends number later

/-- The condition for the cycles: the number of a packet is by more than 10000 below that of the packet before it
exactly if it is the first of its cycle. -/
def Drops : (last top : Int) → List Int → Prop
  | _, _, [] => True
  | last, top, number :: later =>
    ((number % 2 ^ 16 + 10000 < last % 2 ^ 16 ↔ top / 2 ^ 16 < number / 2 ^ 16) ∧ number < 2 ^ 48) ∧
      Drops number (max top number) later

/-! ### One packet -/

theorem initSource_eq_ok (h : s.initSource d = .ok s') : s' = { s with buffer := s.buffer.clearJitterBuffer } := by
  obtain ⟨src, -, h⟩ := bind_eq_ok.mp h
  split_ifs at h
  obtain ⟨_, -, h⟩ := bind_eq_ok.mp h
  obtain ⟨_, -, h⟩ := bind_eq_ok.mp h
  exact (Except.ok.inj h).symm

theorem checkPacket_eq_ok {refused : Bool} (hts : word16At d 2 = some ts) (h : s.checkPacket d = .ok (refused, s')) :
    ∃ buffer, s' = { s.checkCycle ts with buffer := buffer } := by
  have hsequence : getSequence d = .ok ts := access_eq_ok.mpr hts
  rw [checkPacket, ok_bind hsequence] at h
  dsimp only at h
  split at h
  · cases h
  · obtain ⟨type, -, h⟩ := bind_eq_ok.mp h
    split_ifs at h
    · obtain ⟨-, rfl⟩ := Prod.mk.inj (Except.ok.inj h)
      exact ⟨s.buffer, rfl⟩
    · obtain ⟨s₁, hinit, h⟩ := bind_eq_ok.mp h
      obtain ⟨-, rfl⟩ := Prod.mk.inj (Except.ok.inj h)
      exact ⟨_, initSource_eq_ok hinit⟩
    · obtain ⟨-, rfl⟩ := Prod.mk.inj (Except.ok.inj h)
      exact ⟨s.buffer, rfl⟩

theorem exists_checkPacket_of_source (hprobation : 0 ≤ s.probation) (hsrc : word32At d 8 = some s.ssrc) :
    ∃ refused s', s.checkPacket d = .ok (refused, s') := by
  have hheader := header_of_source hsrc
  rw [RTP_HEADER] at hheader
  obtain ⟨ts, hts⟩ := exists_sequence (header_of_source hsrc)
  obtain ⟨t, ht⟩ := Option.isSome_iff_exists.mp (isSome_byteAt.mpr (by omega : 1 < d.length))
  have hinit := initSource_eq (s := s.checkCycle ts) hsrc
  have hprobation' : ¬ (s.checkCycle ts).probation < 0 := not_lt.mpr hprobation
  rw [checkPacket, ok_bind hts]
  dsimp only
  rw [if_neg hprobation', ok_bind (getPayloadType_eq ht), hinit]
  split_ifs
  · exact ⟨_, _, rfl⟩
  · exact ⟨_, _, rfl⟩
  · exact ⟨_, _, rfl⟩

theorem Hears.updateSource (h : s.Hears src) (hts : word16At d 2 = some ts) (hsrc : word32At d 8 = some src) :
    ∃ refused buffer, s.updateSource d = .ok (refused, { s.checkCycle ts with buffer := buffer }) ∧
      Hears { s.checkCycle ts with buffer := buffer } src := by
  obtain ⟨refused, s', hcheck⟩ := exists_checkPacket_of_source h.probation (h.ssrc ▸ hsrc : word32At d 8 = some s.ssrc)
  obtain ⟨buffer, rfl⟩ := checkPacket_eq_ok hts hcheck
  refine ⟨refused, buffer, ?_, h.set, h.ssrc, h.unlisted, h.probation⟩
  have hnew : ¬ ((!s.sourceSet) = true ∨ src ≠ s.ssrc) := by
    rw [h.set, h.ssrc]
    simp
  rw [Receiver.updateSource, ok_bind (getSSRC_eq hsrc), if_neg (fun hlisted => h.unlisted hlisted.2), if_neg hnew,
    ok_bind rfl]
  exact hcheck

theorem sourceSet_removeSource {flag : Bool} (h : s.removeSource src flag = .ok s') : s'.sourceSet = false := by
  unfold removeSource at h
  dsimp only at h
  split at h
  · obtain rfl := Except.ok.inj h
    rfl
  · split_ifs at h
    · obtain rfl := Except.ok.inj h
      rfl
    · obtain ⟨rtcp, -, h⟩ := bind_eq_ok.mp h
      obtain rfl := Except.ok.inj h
      rfl

theorem addTranInfo_eq_ok (h : s.addTranInfo = .ok s') : ∃ rtcpRecv, s' = { s with rtcpRecv := rtcpRecv } := by
  unfold addTranInfo at h
  split at h
  · obtain rfl := Except.ok.inj h
    exact ⟨s.rtcpRecv, rfl⟩
  · obtain ⟨rtcp, -, h⟩ := bind_eq_ok.mp h
    obtain rfl := Except.ok.inj h
    exact ⟨some rtcp, rfl⟩

theorem addSource_eq_ok {refused : Bool} (h : s.addSource d = .ok (refused, s')) :
    if refused then s'.sourceSet = s.sourceSet ∧ s'.ssrc = s.ssrc else s'.realPrevSeqRecv = 0 ∧ s'.recv_cycles = 0 := by
  obtain ⟨src, -, h⟩ := bind_eq_ok.mp h
  have hrest (r : Receiver n) (hunset : r.sourceSet = false)
      (hset : (if r.sourceSet = true ∧ src = r.srcProbation ∧ r.probationSet = true then pure (true, r)
        else do
          let s ← (r.setSource src).addTranInfo
          let s ← s.initSource d
          return (false, s)) = Except.ok (refused, s')) :
      refused = false ∧ s'.realPrevSeqRecv = 0 ∧ s'.recv_cycles = 0 := by
    rw [if_neg (by rw [hunset]; rintro ⟨⟨⟩, -⟩)] at hset
    obtain ⟨s₂, hadd, hset⟩ := bind_eq_ok.mp hset
    obtain ⟨s₃, hinit, hset⟩ := bind_eq_ok.mp hset
    obtain ⟨rfl, rfl⟩ := Prod.mk.inj (Except.ok.inj hset)
    obtain ⟨rtcpRecv, rfl⟩ := addTranInfo_eq_ok hadd
    rw [initSource_eq_ok hinit]
    exact ⟨rfl, rfl, rfl⟩
  split_ifs at h with hbusy hset
  · obtain ⟨rfl, rfl⟩ := Prod.mk.inj (Except.ok.inj h)
    exact ⟨rfl, rfl⟩
  · obtain ⟨s₁, hremove, h⟩ := bind_eq_ok.mp h
    obtain ⟨rfl, hstart⟩ := hrest s₁ (sourceSet_removeSource hremove) h
    exact hstart
  · obtain ⟨s₁, hsame, h⟩ := bind_eq_ok.mp h
    obtain rfl := Except.ok.inj hsame
    obtain ⟨rfl, hstart⟩ := hrest s (Bool.eq_false_iff.mpr hset) h
    exact hstart

theorem updateSource_new {refused : Bool} {s₀ : Receiver n} (hnew : ¬ (s₀.sourceSet = true ∧ s₀.ssrc = src))
    (hts : word16At d 2 = some ts) (hsrc : word32At d 8 = some src) (hstart : s₀.updateSource d = .ok (refused, s))
    (h : s.Hears src) : s.realPrevSeqRecv = ts ∧ s.recv_cycles = 0 := by
  have hother : (!s₀.sourceSet) = true ∨ src ≠ s₀.ssrc := by
    by_contra hsame
    rw [not_or] at hsame
    exact hnew ⟨by simpa using hsame.1, (not_not.mp hsame.2).symm⟩
  rw [Receiver.updateSource, ok_bind (getSSRC_eq hsrc)] at hstart
  by_cases hlisted : s₀.sourceSet = true ∧ src = s₀.srcProbation ∧ s₀.probationSet = true
  · rw [if_pos hlisted] at hstart
    obtain ⟨-, rfl⟩ := Prod.mk.inj (Except.ok.inj hstart)
    exact absurd ⟨h.set, h.ssrc⟩ hnew
  · rw [if_neg hlisted, if_pos hother] at hstart
    obtain ⟨⟨refused', s₁⟩, hadd, hrest⟩ := bind_eq_ok.mp hstart
    have hsource := addSource_eq_ok hadd
    cases refused' with
    | true =>
      obtain ⟨-, rfl⟩ := Prod.mk.inj (Except.ok.inj hrest)
      rw [if_pos rfl, h.set, h.ssrc] at hsource
      exact absurd ⟨hsource.1.symm, hsource.2.symm⟩ hnew
    | false =>
      rw [if_neg Bool.false_ne_true] at hsource
      obtain ⟨hprev, hcycles⟩ := hsource
      obtain ⟨buffer, rfl⟩ := checkPacket_eq_ok hts hrest
      refine ⟨rfl, ?_⟩
      show (if ts < s₁.realPrevSeqRecv ∧ _ then _ else _) = (0 : UInt32)
      rw [hprev, hcycles, if_neg]
      rintro ⟨hlt, -⟩
      exact UInt16.not_lt_zero hlt

/-! ### The numbers -/

/-- The number that is kept stays the highest exactly if the packet is not behind it. -/
theorem tellsHighest_checkCycle (h : s.TellsHighest top) (hts : (ts.toNat : Int) = number % 2 ^ 16)
    (hnear : (number - top).natAbs < 2 ^ 15) :
    (s.checkCycle ts).TellsHighest (max top number) ↔ top ≤ number ∧ number < 2 ^ 48 := by
  have hprev := UInt16.toNat_lt s.realPrevSeqRecv
  have hcycles := UInt32.toNat_lt s.recv_cycles
  unfold TellsHighest extended at h ⊢
  unfold checkCycle
  dsimp only
  by_cases hdrop : ts.toNat + 10000 < s.realPrevSeqRecv.toNat
  · rw [if_pos ⟨UInt16.lt_iff_toNat_lt.mpr (by omega), hdrop⟩, UInt32.toNat_add, UInt32.toNat_one]
    omega
  · rw [if_neg (fun hcycle => hdrop hcycle.2)]
    omega

/-- The cycles stay right exactly if the packet drops where it opens a cycle. -/
theorem countsCycles_checkCycle (h : s.CountsCycles top) (hlast : (s.realPrevSeqRecv.toNat : Int) = last % 2 ^ 16)
    (hts : (ts.toNat : Int) = number % 2 ^ 16) (hnear : (number - top).natAbs < 2 ^ 15) :
    (s.checkCycle ts).CountsCycles (max top number) ↔
      (number % 2 ^ 16 + 10000 < last % 2 ^ 16 ↔ top / 2 ^ 16 < number / 2 ^ 16) ∧ number < 2 ^ 48 := by
  have hcycles := UInt32.toNat_lt s.recv_cycles
  unfold CountsCycles at h ⊢
  unfold checkCycle
  dsimp only
  by_cases hdrop : ts.toNat + 10000 < s.realPrevSeqRecv.toNat
  · rw [if_pos ⟨UInt16.lt_iff_toNat_lt.mpr (by omega), hdrop⟩, UInt32.toNat_add, UInt32.toNat_one]
    have hdrop' : number % 2 ^ 16 + 10000 < last % 2 ^ 16 := by omega
    rw [iff_true_left hdrop']
    omega
  · rw [if_neg (fun hcycle => hdrop hcycle.2)]
    have hdrop' : ¬ number % 2 ^ 16 + 10000 < last % 2 ^ 16 := by omega
    rw [iff_false_left hdrop']
    omega

/-! ### Runs -/

theorem Hears.along_cons (h : s.Hears src) (P : Receiver n → Int → Prop) (top : Int) {p : Int × Bytes}
    (hp : IsNumbered src p.1 p.2) (later : List (Int × Bytes)) :
    ∃ ts buffer, (ts.toNat : Int) = p.1 % 2 ^ 16 ∧ Hears { s.checkCycle ts with buffer := buffer } src ∧
      (s.Along P top (p :: later) ↔ P s top ∧ Along P { s.checkCycle ts with buffer := buffer } (max top p.1) later) := by
  obtain ⟨ts, hts, hnumber⟩ := hp.sequence
  obtain ⟨refused, buffer, hupdate, hhears⟩ := h.updateSource hts hp.source
  refine ⟨ts, buffer, hnumber, hhears, ?_⟩
  rw [Along, hupdate]
  constructor
  · rintro ⟨hnow, _, _, heq, hlater⟩
    obtain ⟨rfl, rfl⟩ := Prod.mk.inj (Except.ok.inj heq)
    exact ⟨hnow, hlater⟩
  · rintro ⟨hnow, hlater⟩
    exact ⟨hnow, refused, _, rfl, hlater⟩

theorem Along.first {P : Receiver n → Int → Prop} {later : List (Int × Bytes)} (h : s.Along P top later) : P s top := by
  cases later with
  | nil => exact h
  | cons p later => exact h.1

theorem Hears.tellsHighest_iff (h : s.Hears src) (hnow : s.TellsHighest top) {later : List (Int × Bytes)}
    (hpackets : ∀ p ∈ later, IsNumbered src p.1 p.2) (hdisplaced : Displaced top (later.map (·.1))) :
    s.Along TellsHighest top later ↔ Ascends top (later.map (·.1)) := by
  induction later generalizing s top with
  | nil => exact iff_of_true hnow trivial
  | cons p later ih =>
    rw [List.map_cons, Displaced] at hdisplaced
    obtain ⟨hnear, hrest⟩ := hdisplaced
    obtain ⟨ts, buffer, hts, hhears, halong⟩ := h.along_cons TellsHighest top
      (hpackets p (List.mem_cons_self ..)) later
    have hstep : TellsHighest { s.checkCycle ts with buffer := buffer } (max top p.1) ↔ top ≤ p.1 ∧ p.1 < 2 ^ 48 :=
      tellsHighest_checkCycle hnow hts hnear
    have hlater : ∀ q ∈ later, IsNumbered src q.1 q.2 := fun q hq => hpackets q (List.mem_cons_of_mem _ hq)
    rw [halong, and_iff_right hnow, List.map_cons, Ascends]
    constructor
    · intro hall
      have hnext := hall.first
      have hrise := hstep.mp hnext
      have hascends := (ih hhears hnext hlater hrest).mp hall
      rw [max_eq_right hrise.1] at hascends
      exact ⟨hrise, hascends⟩
    · rintro ⟨hrise, hascends⟩
      rw [← max_eq_right hrise.1] at hascends
      exact (ih hhears (hstep.mpr hrise) hlater hrest).mpr hascends

theorem Hears.countsCycles_iff (h : s.Hears src) (hnow : s.CountsCycles top)
    (hlast : (s.realPrevSeqRecv.toNat : Int) = last % 2 ^ 16) {later : List (Int × Bytes)}
    (hpackets : ∀ p ∈ later, IsNumbered src p.1 p.2) (hdisplaced : Displaced top (later.map (·.1))) :
    s.Along CountsCycles top later ↔ Drops last top (later.map (·.1)) := by
  induction later generalizing s top last with
  | nil => exact iff_of_true hnow trivial
  | cons p later ih =>
    rw [List.map_cons, Displaced] at hdisplaced
    obtain ⟨hnear, hrest⟩ := hdisplaced
    obtain ⟨ts, buffer, hts, hhears, halong⟩ := h.along_cons CountsCycles top
      (hpackets p (List.mem_cons_self ..)) later
    have hstep := countsCycles_checkCycle hnow hlast hts hnear
    have hlater : ∀ q ∈ later, IsNumbered src q.1 q.2 := fun q hq => hpackets q (List.mem_cons_of_mem _ hq)
    rw [halong, and_iff_right hnow, List.map_cons, Drops, ← hstep]
    constructor
    · intro hall
      have hnext := hall.first
      exact ⟨hnext, (ih hhears hnext hts hlater hrest).mp hall⟩
    · rintro ⟨hnext, hdrops⟩
      exact (ih hhears hnext hts hlater hrest).mpr hdrops

/-- **Cycles.** For packets of one source, from the one with which the receiver begins to listen to it, each displaced
by less than half of the sequence space: the cycles with the number that the receiver keeps make the highest number in
every state exactly if no packet comes behind a later one, and the cycles are those of the highest number in every
state exactly if the number of a packet is by more than 10000 below that of the packet before it where it is the first
of its cycle, and nowhere else. -/
theorem cycles_right_iff (s₀ s : Receiver n) (src : UInt32) (refused : Bool) (first : Int × Bytes)
    (later : List (Int × Bytes)) (hnew : ¬ (s₀.sourceSet = true ∧ s₀.ssrc = src))
    (hstart : s₀.updateSource first.2 = .ok (refused, s)) (hhears : s.Hears src)
    (hpackets : ∀ p ∈ first :: later, IsNumbered src p.1 p.2) (hfirst : 0 ≤ first.1 ∧ first.1 < 2 ^ 16)
    (hdisplaced : Displaced first.1 (later.map (·.1))) :
    (s.Along TellsHighest first.1 later ↔ Ascends first.1 (later.map (·.1))) ∧
    (s.Along CountsCycles first.1 later ↔ Drops first.1 first.1 (later.map (·.1))) := by
  have hp := hpackets first (List.mem_cons_self ..)
  have hlater : ∀ q ∈ later, IsNumbered src q.1 q.2 := fun q hq => hpackets q (List.mem_cons_of_mem _ hq)
  obtain ⟨ts, hts, hnumber⟩ := hp.sequence
  obtain ⟨hprev, hcycles⟩ := updateSource_new hnew hts hp.source hstart hhears
  have htells : s.TellsHighest first.1 := by
    unfold TellsHighest extended
    rw [hprev, hcycles, UInt32.toNat_zero]
    omega
  have hcounts : s.CountsCycles first.1 := by
    unfold CountsCycles
    rw [hcycles, UInt32.toNat_zero]
    omega
  exact ⟨hhears.tellsHighest_iff htells hlater hdisplaced,
    hhears.countsCycles_iff hcounts (hprev ▸ hnumber) hlater hdisplaced⟩

/-- A packet of source 1 with this number. -/
def numbered (number : Nat) : Int × Bytes :=
  (number, [0x80, 0, .ofNat (number / 2 ^ 8), .ofNat number, 0, 0, 0, 0, 0, 0, 0, 1])

/-- A wrap and two packets that change places around it. -/
def late : List (Int × Bytes) := [numbered 65536, numbered 65535, numbered 65537]

theorem isNumbered_late : ∀ p ∈ numbered 65534 :: late, IsNumbered 1 p.1 p.2 := by
  intro p hp
  simp only [late, List.mem_cons, List.not_mem_nil, or_false] at hp
  rcases hp with rfl | rfl | rfl | rfl
  · exact ⟨⟨65534, by decide, by decide⟩, by decide⟩
  · exact ⟨⟨0, by decide, by decide⟩, by decide⟩
  · exact ⟨⟨65535, by decide, by decide⟩, by decide⟩
  · exact ⟨⟨1, by decide, by decide⟩, by decide⟩

theorem displaced_late : Displaced 65534 (late.map (·.1)) := by
  refine ⟨by decide, by decide, by decide, trivial⟩

def fresh : Receiver 1 := constructRtpReceiver Nat.one_pos 0 160 none

/-- The wrap is counted again when the late packet has been received. -/
theorem late_counted_twice :
    ∃ refused s, fresh.updateSource (numbered 65534).2 = .ok (refused, s) ∧ s.Hears 1 ∧
      ¬ s.Along TellsHighest 65534 late ∧ ¬ s.Along CountsCycles 65534 late ∧
      ∃ s', (late.foldlM (fun s p => do let r ← s.updateSource p.2; return r.2) s) = .ok s' ∧ s'.recv_cycles = 2 := by
  have hlate : ∀ p ∈ late, IsNumbered 1 p.1 p.2 := fun p hp => isNumbered_late p (List.mem_cons_of_mem _ hp)
  refine ⟨false, _, rfl, ⟨rfl, rfl, by decide, by decide⟩, fun hall => ?_, fun hall => ?_, _, rfl, by decide⟩
  · have hascends := (Hears.tellsHighest_iff ⟨rfl, rfl, by decide, by decide⟩ (by decide) hlate displaced_late).mp hall
    exact absurd hascends.2.1.1 (by decide)
  · have hdrops : Drops 65534 65534 (late.map (·.1)) :=
      (Hears.countsCycles_iff ⟨rfl, rfl, by decide, by decide⟩ (by decide) (by decide) hlate displaced_late).mp hall
    exact absurd (hdrops.2.2.1.1.mp (by decide)) (by decide)

theorem cycles_right_iff_late :
    ∃ refused s, fresh.updateSource (numbered 65534).2 = .ok (refused, s) ∧
      (s.Along TellsHighest 65534 late ↔ Ascends 65534 (late.map (·.1))) := by
  refine ⟨false, _, rfl, ?_⟩
  exact (cycles_right_iff fresh _ 1 false (numbered 65534) late (by decide) rfl ⟨rfl, rfl, by decide, by decide⟩
    isNumbered_late (by decide) displaced_late).1

end Receiver

end Vocal.Rtp
