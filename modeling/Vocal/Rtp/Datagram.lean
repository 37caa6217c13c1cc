import Vocal.Rtcp.Attached
import Vocal.Rtp.Receiver
import Vocal.Rtp.Sanity

/-!
# Datagrams that the RTP receiver takes

Which datagrams `getPacket` and `readNetwork` get through in a state that a receiver can come to: those that have the
bytes their header and their event are read from, and a packet for which the jitter buffer has its place.
-/

namespace Vocal.Rtp

open Bytes
open Rtcp (Stop access access_bind access_eq_ok bind_eq_ok ok_bind RtcpReceiver)

variable {d d' : Bytes} {b t : UInt8} {src : UInt32}

/-! ## Reads -/

theorem getPayloadType_eq (ht : byteAt d 1 = some t) : getPayloadType d = .ok (payloadType t) := access_bind ht _

theorem getPayloadLoc_eq (hb : byteAt d 0 = some b) : getPayloadLoc d = .ok (headerSize b) := access_bind hb _

theorem getPayloadUsage_eq (hb : byteAt d 0 = some b) :
    getPayloadUsage d = .ok ((d.length : Int) - headerSize b) := by
  have hsize : getPayloadSize d = .ok (packetAlloc - headerSize b) := access_bind hb _
  rw [getPayloadUsage, ok_bind hsize]
  exact congrArg Except.ok (by omega)

theorem getSSRC_eq (hsrc : word32At d 8 = some src) : getSSRC d = .ok src := access_eq_ok.mpr hsrc

theorem header_of_source (hsrc : word32At d 8 = some src) : RTP_HEADER ≤ d.length :=
  isSome_word32At.mp (Option.isSome_of_eq_some hsrc)

theorem exists_sequence (h : RTP_HEADER ≤ d.length) : ∃ ts, getSequence d = .ok ts := by
  rw [RTP_HEADER] at h
  obtain ⟨ts, hts⟩ := Option.isSome_iff_exists.mp (isSome_word16At.mpr (by omega : 2 + 2 ≤ d.length))
  exact ⟨ts, access_eq_ok.mpr hts⟩

theorem exists_rtpTime (h : RTP_HEADER ≤ d.length) : ∃ time, getRtpTime d = .ok time := by
  rw [RTP_HEADER] at h
  obtain ⟨time, htime⟩ := Option.isSome_iff_exists.mp (isSome_word32At.mpr (by omega : 4 + 4 ≤ d.length))
  exact ⟨time, access_eq_ok.mpr htime⟩

theorem exists_toPacket (h : RTP_HEADER ≤ d.length) : ∃ pkt, toPacket d = .ok pkt := by
  rw [RTP_HEADER] at h
  obtain ⟨b, hb⟩ := Option.isSome_iff_exists.mp (isSome_byteAt.mpr (by omega : 0 < d.length))
  obtain ⟨t, ht⟩ := Option.isSome_iff_exists.mp (isSome_byteAt.mpr (by omega : 1 < d.length))
  obtain ⟨ts, hts⟩ := exists_sequence h
  obtain ⟨time, htime⟩ := exists_rtpTime h
  rw [toPacket, ok_bind (getPayloadType_eq ht), ok_bind (getPayloadLoc_eq hb), ok_bind hts, ok_bind htime]
  exact ⟨_, rfl⟩

/-! ## Validity -/

/-- The payload type that `isValid` leaves. -/
def codec (t : UInt8) : Nat := if payloadType t = rtpPayloadPCMU_static then rtpPayloadPCMU else payloadType t

/-- The packet that `isValid` leaves. -/
def valid (d : Bytes) (t : UInt8) : Bytes :=
  if payloadType t = rtpPayloadPCMU_static then setPayloadType d rtpPayloadPCMU else d

@[simp] theorem length_valid (d : Bytes) (t : UInt8) : (valid d t).length = d.length := by
  rw [valid]
  split
  · rw [setPayloadType, List.length_modify]
  · rfl

theorem drop_valid (d : Bytes) (t : UInt8) {k : Nat} (hk : 2 ≤ k) : (valid d t).drop k = d.drop k := by
  rw [valid]
  split
  · refine List.ext_getElem? fun i => ?_
    rw [List.getElem?_drop, List.getElem?_drop, setPayloadType, List.getElem?_modify_ne _ _ (by omega)]
  · rfl

theorem byteAt_eq_getElem? (d : Bytes) (i : Nat) : byteAt d i = d[i]? := by
  rw [byteAt, List.head?_drop]

@[simp] theorem byteAt_valid_zero (d : Bytes) (t : UInt8) : byteAt (valid d t) 0 = byteAt d 0 := by
  rw [byteAt_eq_getElem?, byteAt_eq_getElem?, valid]
  split
  · rw [setPayloadType, List.getElem?_modify_ne _ _ (by omega)]
  · rfl

theorem exists_type_valid (ht : byteAt d 1 = some t) :
    ∃ t', byteAt (valid d t) 1 = some t' ∧ payloadType t' = codec t := by
  rw [byteAt_eq_getElem?] at ht ⊢
  rw [valid, codec]
  split
  · refine ⟨_, by rw [setPayloadType, List.getElem?_modify_eq, ht]; rfl, ?_⟩
    rw [payloadType, UInt8.toNat_ofNat']
    have := t.toNat_lt
    simp only [rtpPayloadPCMU]
    omega
  · exact ⟨t, ht, rfl⟩

@[simp] theorem byteAt_valid (d : Bytes) (t : UInt8) {i : Nat} (hi : 2 ≤ i) : byteAt (valid d t) i = byteAt d i := by
  rw [byteAt, byteAt, drop_valid d t hi]

@[simp] theorem word16At_valid (d : Bytes) (t : UInt8) {i : Nat} (hi : 2 ≤ i) :
    word16At (valid d t) i = word16At d i := by
  rw [word16At, word16At, drop_valid d t hi]

@[simp] theorem word32At_valid (d : Bytes) (t : UInt8) {i : Nat} (hi : 2 ≤ i) :
    word32At (valid d t) i = word32At d i := by
  rw [word32At, word32At, drop_valid d t hi]

theorem toPacket_valid (hb : byteAt d 0 = some b) (ht : byteAt d 1 = some t) : toPacket (valid d t) = toPacket d := by
  obtain ⟨t', ht', hcodec⟩ := exists_type_valid ht
  have hloc : 2 ≤ headerSize b := by
    rw [headerSize, RTP_HEADER]
    omega
  rw [toPacket, toPacket, ok_bind (getPayloadType_eq ht'), ok_bind (getPayloadType_eq ht),
    ok_bind (getPayloadLoc_eq ((byteAt_valid_zero d t).trans hb)), ok_bind (getPayloadLoc_eq hb), getSequence,
    getSequence, getRtpTime, getRtpTime, word16At_valid d t (by omega), word32At_valid d t (by omega),
    drop_valid d t hloc, hcodec, codec]
  split
  · rename_i hstatic
    rw [hstatic]
    rfl
  · rfl

theorem isValid_eq (hb : byteAt d 0 = some b) (hversion : version b = RTP_VERSION) (ht : byteAt d 1 = some t) :
    isValid d = .ok (true, valid d t) := by
  have hlen : d.length ≠ 0 := (isSome_byteAt.mp (Option.isSome_of_eq_some hb)).ne'
  rw [isValid, if_neg hlen, access_bind hb, if_neg (not_not.mpr hversion), ok_bind (getPayloadType_eq ht), valid]
  split <;> rfl

/-! ## The source -/

namespace Receiver

variable {n : Nat} {s s' : Receiver n}

/-- What every step of a receiver keeps: the buffer is sane, a source is valid, and the table has a receiver for the
source alone. -/
structure Consistent (s : Receiver n) : Prop where
  sane : s.buffer.verifyJbSanity = true
  valid : s.sourceSet = true → 0 ≤ s.probation
  attached : ∀ rtcp ∈ s.rtcpRecv, rtcp.Attached = {src | s.sourceSet = true ∧ src = s.ssrc}

/-- The packet of a source that is not listened to, or not yet, or one of comfort noise. -/
def Refuses (s : Receiver n) (src : UInt32) (type : Nat) : Prop :=
  (s.sourceSet = true ∧ src = s.srcProbation ∧ s.probationSet = true) ∨
    (s.sourceSet = true ∧ src ≠ s.ssrc ∧ s.probation < 4) ∨ type = rtpPayloadCN

/-- The packet of a new source, or of another format. -/
def Restarts (s : Receiver n) (src : UInt32) (type : Nat) : Prop :=
  s.sourceSet = false ∨ src ≠ s.ssrc ∨ type ≠ s.format

instance (s : Receiver n) (src : UInt32) (type : Nat) : Decidable (s.Refuses src type) :=
  inferInstanceAs (Decidable (_ ∨ _ ∨ _))

instance (s : Receiver n) (src : UInt32) (type : Nat) : Decidable (s.Restarts src type) :=
  inferInstanceAs (Decidable (_ ∨ _ ∨ _))

theorem sane_clear (s : RtpReceiver n) : s.clearJitterBuffer.verifyJbSanity = true :=
  (RtpReceiver.verifyJbSanity_iff _).mpr ⟨[], RtpReceiver.queue_clear s⟩

theorem not_clashes_clear (s : RtpReceiver n) (pkt : RtpPacket) : ¬ RtpReceiver.Clashes s.clearJitterBuffer pkt := by
  rintro ⟨lastPkt, hlast, -⟩
  rw [RtpReceiver.getLastRtpData_eq (RtpReceiver.queue_clear s)] at hlast
  cases hlast

/-- The state of a receiver after the source is gone. -/
def withoutSource (s : Receiver n) (src : UInt32) : Receiver n :=
  { s with probationSet := true, srcProbation := src, sourceSet := false, ssrc := 0, probation := -2 }

theorem exists_removeSource (h : s.Consistent) (hset : s.sourceSet = true) :
    ∃ rtcpRecv, s.removeSource s.ssrc false = .ok { s.withoutSource s.ssrc with rtcpRecv := rtcpRecv } ∧
      ∀ rtcp ∈ rtcpRecv, rtcp.Attached = ∅ := by
  cases hrtcp : s.rtcpRecv with
  | none =>
    refine ⟨none, ?_, by rintro _ ⟨⟩⟩
    simp only [removeSource, hrtcp, withoutSource]
  | some rtcp =>
    have hattached := h.attached rtcp hrtcp
    have hmem : s.ssrc ∈ rtcp.Attached := by
      rw [hattached]
      exact ⟨hset, rfl⟩
    obtain ⟨rtcp', hremove⟩ :=
      (Rtcp.removeTranInfo_ok_iff true).mpr (RtcpReceiver.attached_subset_known rtcp hmem)
    refine ⟨some rtcp', ?_, ?_⟩
    · simp only [removeSource, hrtcp, withoutSource, hremove, Bool.false_eq_true, if_false]
      rfl
    · rintro _ ⟨⟩
      rw [RtcpReceiver.attached_removeTranInfo hremove, hattached]
      ext x
      simp only [Set.mem_sdiff, Set.mem_ofPred_eq, Set.mem_singleton_iff, Set.mem_empty_iff_false, iff_false]
      tauto

theorem exists_addTranInfo (h : ∀ rtcp ∈ s.rtcpRecv, rtcp.Attached = ∅) :
    ∃ rtcpRecv, s.addTranInfo = .ok { s with rtcpRecv := rtcpRecv } ∧ ∀ rtcp ∈ rtcpRecv, rtcp.Attached = {s.ssrc} := by
  cases hrtcp : s.rtcpRecv with
  | none =>
    refine ⟨none, ?_, by rintro _ ⟨⟩⟩
    rw [addTranInfo, hrtcp]
    exact congrArg Except.ok (by rw [← hrtcp])
  | some rtcp =>
    have hempty := h rtcp hrtcp
    have hnotMem : s.ssrc ∉ rtcp.Attached := by
      rw [hempty]
      exact Set.notMem_empty _
    obtain ⟨rtcp', hadd, hattached⟩ := RtcpReceiver.exists_addTranInfo () hnotMem
    refine ⟨some rtcp', ?_, ?_⟩
    · simp only [addTranInfo, hrtcp, hadd]
      rfl
    · rintro _ ⟨⟩
      rw [hattached, hempty]
      ext x
      simp

theorem initSource_eq (hsrc : word32At d 8 = some s.ssrc) :
    s.initSource d = .ok { s with buffer := s.buffer.clearJitterBuffer } := by
  obtain ⟨ts, hts⟩ := exists_sequence (header_of_source hsrc)
  obtain ⟨time, htime⟩ := exists_rtpTime (header_of_source hsrc)
  rw [initSource, ok_bind (getSSRC_eq hsrc), if_neg (not_not.mpr rfl), ok_bind hts, ok_bind htime]
  rfl

theorem exists_addSource (h : s.Consistent) (hsrc : word32At d 8 = some src)
    (hnew : ¬ (s.sourceSet = true ∧ s.probation < 4)) :
    ∃ s', s.addSource d = .ok (false, s') ∧ s'.Consistent ∧ s'.sourceSet = true ∧ s'.ssrc = src ∧
      (s.sourceSet = false → s'.probationSet = s.probationSet) ∧
      s'.buffer = s.buffer.clearJitterBuffer ∧ s'.format = s.format ∧ s'.events = s.events := by
  have hrest (r : Receiver n) (hunset : r.sourceSet = false) (hempty : ∀ rtcp ∈ r.rtcpRecv, rtcp.Attached = ∅) :
      ∃ s', (if r.sourceSet = true ∧ src = r.srcProbation ∧ r.probationSet = true then pure (true, r)
          else do
            let s ← (r.setSource src).addTranInfo
            let s ← s.initSource d
            return (false, s)) = Except.ok (false, s') ∧ s'.Consistent ∧ s'.sourceSet = true ∧ s'.ssrc = src ∧
        s'.probationSet = r.probationSet ∧ s'.buffer = r.buffer.clearJitterBuffer ∧ s'.format = r.format ∧
        s'.events = r.events := by
    obtain ⟨rtcpRecv, hadd, hattached⟩ := exists_addTranInfo (s := r.setSource src) hempty
    rw [if_neg (by rw [hunset]; rintro ⟨⟨⟩, -⟩), ok_bind hadd, ok_bind (initSource_eq hsrc)]
    refine ⟨_, rfl, ⟨sane_clear _, fun _ => le_rfl, fun rtcp hrtcp => ?_⟩, rfl, rfl, rfl, rfl, rfl, rfl⟩
    rw [hattached rtcp hrtcp]
    ext x
    exact (and_iff_right rfl).symm
  rw [addSource, ok_bind (getSSRC_eq hsrc), if_neg hnew]
  cases hset : s.sourceSet with
  | false =>
    rw [if_neg Bool.false_ne_true, ok_bind rfl]
    have hempty : ∀ rtcp ∈ s.rtcpRecv, rtcp.Attached = ∅ := by
      intro rtcp hrtcp
      rw [h.attached rtcp hrtcp, hset]
      ext x
      simp
    obtain ⟨s', hs', hcons, hset', hssrc, hlist, hsame⟩ := hrest s hset hempty
    exact ⟨s', hs', hcons, hset', hssrc, fun _ => hlist, hsame⟩
  | true =>
    obtain ⟨rtcpRecv, hremove, hempty⟩ := exists_removeSource h hset
    rw [if_pos rfl, ok_bind hremove]
    obtain ⟨s', hs', hcons, hset', hssrc, -, hsame⟩ :=
      hrest { s.withoutSource s.ssrc with rtcpRecv := rtcpRecv } rfl hempty
    exact ⟨s', hs', hcons, hset', hssrc, by rintro ⟨⟩, hsame⟩

theorem exists_checkPacket (h : s.Consistent) (hset : s.sourceSet = true) (hsrc : word32At d 8 = some s.ssrc)
    (ht : byteAt d 1 = some t) (hstatic : payloadType t ≠ rtpPayloadPCMU_static) :
    ∃ s', s.checkPacket d = .ok (decide (payloadType t = rtpPayloadCN), s') ∧ s'.Consistent ∧
      s'.events = s.events ∧ 0 ≤ s'.probation ∧ s'.sourceSet = true ∧ s'.ssrc = s.ssrc ∧
      s'.probationSet = s.probationSet ∧
      (payloadType t ≠ rtpPayloadCN →
        s'.buffer = if payloadType t ≠ s.format then s.buffer.clearJitterBuffer else s.buffer) := by
  obtain ⟨ts, hts⟩ := exists_sequence (header_of_source hsrc)
  have hvalid := h.valid hset
  have hcycle : (s.checkCycle ts).Consistent := ⟨h.sane, h.valid, h.attached⟩
  rw [checkPacket, ok_bind hts]
  dsimp only
  rw [if_neg (show ¬ (s.checkCycle ts).probation < 0 from not_lt.mpr hvalid), ok_bind (getPayloadType_eq ht)]
  by_cases hcn : payloadType t = rtpPayloadCN
  · rw [if_pos (Or.inl hcn), decide_eq_true hcn]
    exact ⟨_, rfl, hcycle, rfl, hvalid, hset, rfl, rfl, fun hne => absurd hcn hne⟩
  · rw [if_neg (not_or.mpr ⟨hcn, hstatic⟩), decide_eq_false hcn]
    split
    · rw [ok_bind (initSource_eq (s := s.checkCycle ts) hsrc)]
      rename_i hformat
      exact ⟨_, rfl, ⟨sane_clear _, h.valid, h.attached⟩, rfl, hvalid, hset, rfl, rfl, fun _ => (if_pos hformat).symm⟩
    · rename_i hformat
      exact ⟨_, rfl, hcycle, rfl, hvalid, hset, rfl, rfl, fun _ => (if_neg hformat).symm⟩

theorem refuses_iff {type : Nat} (hlist : ¬(s.sourceSet = true ∧ src = s.srcProbation ∧ s.probationSet = true))
    (hnew : ¬(s.sourceSet = true ∧ src ≠ s.ssrc ∧ s.probation < 4)) :
    s.Refuses src type ↔ type = rtpPayloadCN := by
  rw [Refuses, or_iff_right hlist, or_iff_right hnew]

theorem exists_updateSource (h : s.Consistent) (hsrc : word32At d 8 = some src) (ht : byteAt d 1 = some t)
    (hstatic : payloadType t ≠ rtpPayloadPCMU_static) :
    ∃ s', s.updateSource d = .ok (decide (s.Refuses src (payloadType t)), s') ∧ s'.Consistent ∧
      s'.events = s.events ∧
      (¬ s.Refuses src (payloadType t) → 0 ≤ s'.probation ∧ s'.sourceSet = true ∧ s'.ssrc = src ∧
        ((s.sourceSet = true → s.ssrc = src) → s'.probationSet = s.probationSet) ∧
        s'.buffer = if s.Restarts src (payloadType t) then s.buffer.clearJitterBuffer else s.buffer) := by
  rw [updateSource, ok_bind (getSSRC_eq hsrc)]
  by_cases hlist : s.sourceSet = true ∧ src = s.srcProbation ∧ s.probationSet = true
  · have hrefuses : s.Refuses src (payloadType t) := Or.inl hlist
    rw [if_pos hlist, decide_eq_true hrefuses]
    exact ⟨s, rfl, h, rfl, fun hno => absurd hrefuses hno⟩
  rw [if_neg hlist]
  by_cases hnew : s.sourceSet = false ∨ src ≠ s.ssrc
  · have hnew' : (!s.sourceSet) = true ∨ src ≠ s.ssrc := hnew.imp_left fun hset => by rw [hset]; rfl
    rw [if_pos hnew']
    by_cases hbusy : s.sourceSet = true ∧ s.probation < 4
    · have hother : src ≠ s.ssrc := hnew.resolve_left (by rw [hbusy.1]; exact Bool.noConfusion)
      have hrefuses : s.Refuses src (payloadType t) := Or.inr (Or.inl ⟨hbusy.1, hother, hbusy.2⟩)
      have hadd : s.addSource d = .ok (true, { s with probation := s.probation + 1 }) := by
        rw [addSource, ok_bind (getSSRC_eq hsrc), if_pos hbusy]
        rfl
      rw [ok_bind hadd, decide_eq_true hrefuses]
      have hvalid := h.valid hbusy.1
      exact ⟨_, rfl, ⟨h.sane, fun _ => by dsimp only; omega, h.attached⟩, rfl, fun hno => absurd hrefuses hno⟩
    · have hrefuses : s.Refuses src (payloadType t) ↔ payloadType t = rtpPayloadCN :=
        refuses_iff hlist fun hr => hbusy ⟨hr.1, hr.2.2⟩
      obtain ⟨r, hadd, hr, hset, hssrc, hlist', hbuffer, hformat, hevents⟩ := exists_addSource h hsrc hbusy
      obtain ⟨s', hcheck, hs', hevents', hvalid, hset', hssrc', hlist'', hbuffer'⟩ :=
        exists_checkPacket hr hset (hssrc.symm ▸ hsrc) ht hstatic
      refine ⟨s', ?_, hs', hevents'.trans hevents,
        fun hno => ⟨hvalid, hset', hssrc'.trans hssrc, fun hsame => hlist''.trans (hlist' ?_), ?_⟩⟩
      · rw [ok_bind hadd, decide_eq_decide.mpr hrefuses]
        exact hcheck
      · exact hnew.elim id fun hother => Bool.eq_false_iff.mpr fun hset => hother (hsame hset).symm
      · have hrestarts : s.Restarts src (payloadType t) := hnew.imp_right Or.inl
        rw [hbuffer' (fun hcn => hno (hrefuses.mpr hcn)), hbuffer, if_pos hrestarts]
        split
        · rfl
        · rfl
  · obtain ⟨hset, hssrc⟩ := not_or.mp hnew
    have hset : s.sourceSet = true := Bool.eq_true_of_not_eq_false hset
    have hssrc : src = s.ssrc := not_not.mp hssrc
    have hnew' : ¬ ((!s.sourceSet) = true ∨ src ≠ s.ssrc) := by
      rw [hset]
      exact not_or.mpr ⟨Bool.false_ne_true, not_not.mpr hssrc⟩
    have hrefuses : s.Refuses src (payloadType t) ↔ payloadType t = rtpPayloadCN :=
      refuses_iff hlist fun hr => hr.2.1 hssrc
    obtain ⟨s', hcheck, hs', hevents', hvalid, hset', hssrc', hlist', hbuffer'⟩ :=
      exists_checkPacket h hset (hssrc ▸ hsrc) ht hstatic
    refine ⟨s', ?_, hs', hevents', fun hno => ⟨hvalid, hset', hssrc'.trans hssrc.symm, fun _ => hlist', ?_⟩⟩
    · rw [if_neg hnew', ok_bind rfl, decide_eq_decide.mpr hrefuses]
      exact hcheck
    · rw [hbuffer' (fun hcn => hno (hrefuses.mpr hcn))]
      refine if_congr ⟨fun hne => Or.inr (Or.inr hne), ?_⟩ rfl rfl
      rintro (hunset | hother | hne)
      · exact absurd (Or.inl hunset) hnew
      · exact absurd hssrc hother
      · exact hne

end Receiver

/-! ## Events -/

namespace RtpEventReceiver

variable {e : RtpEventReceiver}

/-- The bytes of an event that its reader looks at are there. -/
def EventFits (e : RtpEventReceiver) (d : Bytes) (type loc : Nat) : Prop :=
  if type = rtpPayloadDTMF_RFC2833 then
    loc + 2 ≤ d.length ∧ (e.keyEvent = .on → ∀ flags ∈ byteAt d (loc + 1), edge flags = true → loc + 4 ≤ d.length)
  else
    loc + 3 ≤ d.length ∧
      (e.keyEvent ≠ .on → ∀ digit ∈ byteAt d (loc + 2), digitType digit = 1 → loc + 4 ≤ d.length)

theorem recvEventRFC2833_ok_iff (hb : byteAt d 0 = some b) :
    (∃ e', e.recvEventRFC2833 d = .ok e') ↔ e.EventFits d rtpPayloadDTMF_RFC2833 (headerSize b) := by
  rw [EventFits, if_pos rfl, recvEventRFC2833, ok_bind (getPayloadUsage_eq hb)]
  by_cases hzero : (d.length : Int) - headerSize b = 0
  · rw [if_pos hzero]
    exact iff_of_false (by rintro ⟨_, ⟨⟩⟩) (by omega)
  rw [if_neg hzero, ok_bind (getPayloadLoc_eq hb)]
  cases hflags : byteAt d (headerSize b + 1) with
  | none =>
    have hlen := mt isSome_byteAt.mpr (Option.not_isSome_iff_eq_none.mpr hflags)
    exact iff_of_false (by rintro ⟨_, ⟨⟩⟩) (by omega)
  | some flags =>
    have hlen := isSome_byteAt.mp (Option.isSome_of_eq_some hflags)
    rw [access_bind rfl]
    by_cases hedge : edge flags = true
    · rw [if_pos hedge]
      by_cases hon : e.keyEvent = .on
      · rw [if_pos hon]
        constructor
        · rintro ⟨e', h⟩
          obtain ⟨low, -, h⟩ := bind_eq_ok.mp h
          obtain ⟨high, hhigh, -⟩ := bind_eq_ok.mp h
          have := isSome_byteAt.mp (Option.isSome_of_eq_some (access_eq_ok.mp hhigh))
          exact ⟨by omega, fun _ _ _ _ => by omega⟩
        · rintro ⟨-, hlast⟩
          have hlong := hlast hon flags rfl hedge
          obtain ⟨low, hlow⟩ :=
            Option.isSome_iff_exists.mp (isSome_byteAt.mpr (by omega : headerSize b + 2 < d.length))
          obtain ⟨high, hhigh⟩ :=
            Option.isSome_iff_exists.mp (isSome_byteAt.mpr (by omega : headerSize b + 3 < d.length))
          rw [access_bind hlow, access_bind hhigh]
          exact ⟨_, rfl⟩
      · rw [if_neg hon]
        exact iff_of_true ⟨e, rfl⟩ ⟨by omega, fun h => absurd h hon⟩
    · rw [if_neg hedge]
      refine iff_of_true ?_ ⟨by omega, ?_⟩
      · split
        · obtain ⟨event, hevent⟩ :=
            Option.isSome_iff_exists.mp (isSome_byteAt.mpr (by omega : headerSize b < d.length))
          rw [access_bind hevent]
          exact ⟨_, rfl⟩
        · exact ⟨e, rfl⟩
      · rintro - _ ⟨⟩ h
        exact absurd h hedge

theorem recvEventCiscoRTP_ok_iff (hb : byteAt d 0 = some b) :
    (∃ e', e.recvEventCiscoRTP d = .ok e') ↔ e.EventFits d rtpPayloadCiscoRtp (headerSize b) := by
  rw [EventFits, if_neg (by decide), recvEventCiscoRTP, ok_bind (getPayloadLoc_eq hb)]
  cases hdigit : byteAt d (headerSize b + 2) with
  | none =>
    have hlen := mt isSome_byteAt.mpr (Option.not_isSome_iff_eq_none.mpr hdigit)
    exact iff_of_false (by rintro ⟨_, ⟨⟩⟩) (by omega)
  | some digit =>
    have hlen := isSome_byteAt.mp (Option.isSome_of_eq_some hdigit)
    rw [access_bind rfl]
    by_cases hstart : e.keyEvent ≠ .on ∧ digitType digit = 1
    · rw [if_pos hstart]
      constructor
      · rintro ⟨e', h⟩
        obtain ⟨code, hcode, -⟩ := bind_eq_ok.mp h
        have := isSome_byteAt.mp (Option.isSome_of_eq_some (access_eq_ok.mp hcode))
        exact ⟨by omega, fun _ _ _ _ => by omega⟩
      · rintro ⟨-, hlast⟩
        have hlong := hlast hstart.1 digit rfl hstart.2
        obtain ⟨code, hcode⟩ :=
          Option.isSome_iff_exists.mp (isSome_byteAt.mpr (by omega : headerSize b + 3 < d.length))
        rw [access_bind hcode]
        exact ⟨_, rfl⟩
    · rw [if_neg hstart]
      refine iff_of_true ?_ ⟨by omega, ?_⟩
      · split
        · exact ⟨_, rfl⟩
        · exact ⟨e, rfl⟩
      · rintro hoff _ ⟨⟩ h
        exact absurd ⟨hoff, h⟩ hstart

theorem recvEvent_ok_iff (hset : e.DTMFInterface = true) {type : Nat} (htype : Receiver.IsEvent type)
    (hb : byteAt d 0 = some b) :
    (∃ e', e.recvEvent type d = .ok e') ↔ e.EventFits d type (headerSize b) := by
  have hset' : ¬ (!e.DTMFInterface) = true := by rw [hset]; exact Bool.false_ne_true
  rw [recvEvent, if_neg hset']
  rcases htype with rfl | rfl
  · rw [if_pos rfl]
    exact recvEventRFC2833_ok_iff hb
  · rw [if_neg (by decide), if_pos rfl]
    exact recvEventCiscoRTP_ok_iff hb

theorem eventFits_valid (b t : UInt8) (type : Nat) :
    e.EventFits (valid d t) type (headerSize b) ↔ e.EventFits d type (headerSize b) := by
  have hloc : 2 ≤ headerSize b := by
    rw [headerSize, RTP_HEADER]
    omega
  rw [EventFits, EventFits, length_valid, byteAt_valid d t (by omega), byteAt_valid d t (by omega)]

end RtpEventReceiver

/-! ## The whole receiver -/

namespace Receiver

variable {n : Nat} {s s' : Receiver n} {datagram : Bytes}

/-- The payload of a packet is not stored, or the buffer has its place for it. -/
def Places (s : RtpReceiver n) (d : Bytes) (loc : Nat) : Prop :=
  d.length = loc ∨ loc + 1012 < d.length ∨ ∀ pkt, toPacket d = .ok pkt → ¬ RtpReceiver.Clashes s pkt

/-- What the receiver reads of a datagram is there. One of the right version has a payload type. An event has the bytes
of an event. Every other packet has a source, and when it is not refused, a whole header and a place in the buffer. -/
def Fits (s : Receiver n) (d : Bytes) : Prop :=
  ∀ b ∈ byteAt d 0, version b = RTP_VERSION → ∃ t ∈ byteAt d 1,
    if IsEvent (payloadType t) then
      if s.events.DTMFInterface then s.events.EventFits d (payloadType t) (headerSize b)
      else headerSize b ≤ d.length ∧ (0 ≤ s.probation → Places s.buffer d (headerSize b))
    else ∃ src ∈ word32At d 8, ¬ s.Refuses src (codec t) →
      headerSize b ≤ d.length ∧ (¬ s.Restarts src (codec t) → Places s.buffer d (headerSize b))

/-- Both functions come to their end, and a packet that is taken has a payload within what was received. -/
def Robust (s : Receiver n) (datagram : Bytes) : Prop :=
  (∃ r, s.getPacket datagram = .ok r ∧
    (0 < r.1 → ∃ usage, getPayloadUsage r.2.1 = .ok usage ∧ 0 ≤ usage ∧ usage ≤ r.1 - RTP_HEADER)) ∧
  ∃ r, s.readNetwork datagram = .ok r

theorem store_ok_iff (hsane : s.buffer.verifyJbSanity = true) (hb : byteAt d 0 = some b)
    (hheader : headerSize b ≤ d.length) :
    (∃ r, s.store d = .ok r) ↔ (0 ≤ s.probation → Places s.buffer d (headerSize b)) := by
  rw [store]
  by_cases hprobation : s.probation < 0
  · rw [if_pos hprobation]
    exact iff_of_true ⟨_, rfl⟩ fun h => absurd hprobation (not_lt.mpr h)
  rw [if_neg hprobation, ok_bind (getPayloadUsage_eq hb), Places, imp_iff_right (not_lt.mp hprobation)]
  by_cases hsize : (d.length : Int) - headerSize b ≤ 0 ∨ 1012 < (d.length : Int) - headerSize b
  · rw [if_pos hsize]
    exact iff_of_true ⟨_, rfl⟩ (by omega)
  rw [if_neg hsize]
  obtain ⟨pkt, hpkt⟩ := exists_toPacket (d := d) (le_trans (Nat.le_add_right ..) hheader)
  obtain ⟨buffer, data, hstep, hkeeps⟩ := RtpReceiver.verifyJbSanity_step hsane (.packet pkt)
  obtain ⟨rfl, -⟩ := Prod.mk.inj (Option.some.inj hstep)
  have hplaces : (d.length = headerSize b ∨ headerSize b + 1012 < d.length ∨
      ∀ pkt, toPacket d = .ok pkt → ¬ RtpReceiver.Clashes s.buffer pkt) ↔ ¬ RtpReceiver.Clashes s.buffer pkt := by
    constructor
    · rintro (h | h | h)
      · omega
      · omega
      · exact h pkt hpkt
    · intro h
      refine Or.inr (Or.inr fun pkt' hpkt' => ?_)
      rwa [← Except.ok.inj (hpkt.symm.trans hpkt')]
  rw [ok_bind hpkt, hplaces]
  cases hnext : (s.buffer.readNetwork pkt).verifyJbSanity with
  | false =>
    refine iff_of_false ?_ fun h => Bool.false_ne_true (hnext.symm.trans (hkeeps.mpr h))
    rintro ⟨r, hr⟩
    dsimp only at hr
    rw [hnext] at hr
    cases hr
  | true =>
    refine iff_of_true ⟨(0, { s with buffer := s.buffer.readNetwork pkt }), ?_⟩ (hkeeps.mp hnext)
    dsimp only
    rw [if_pos hnext]
    rfl

theorem robust_taken (hget : s.getPacket datagram = .ok (d.length, d, s')) (hsane : s'.buffer.verifyJbSanity = true)
    (hb : byteAt d 0 = some b) :
    s.Robust datagram ↔ headerSize b ≤ d.length ∧ (0 ≤ s'.probation → Places s'.buffer d (headerSize b)) := by
  have hpos : 0 < d.length := isSome_byteAt.mp (Option.isSome_of_eq_some hb)
  have hread : s.readNetwork datagram = s'.store d := by
    rw [readNetwork, ok_bind hget]
    exact if_neg (by omega)
  have hheader : RTP_HEADER ≤ headerSize b := Nat.le_add_right ..
  rw [Robust, hread]
  constructor
  · rintro ⟨⟨r, hr, hrange⟩, hstore⟩
    obtain rfl := Except.ok.inj (hget.symm.trans hr)
    obtain ⟨usage, husage, hnonneg, -⟩ := hrange (by dsimp only; omega)
    have heq := Except.ok.inj ((getPayloadUsage_eq hb).symm.trans husage)
    have hle : headerSize b ≤ d.length := by omega
    exact ⟨hle, (store_ok_iff hsane hb hle).mp hstore⟩
  · rintro ⟨hle, hplaces⟩
    refine ⟨⟨_, hget, fun _ => ⟨_, getPayloadUsage_eq hb, ?_, ?_⟩⟩, ?_⟩
    · dsimp only
      omega
    · dsimp only
      omega
    · exact (store_ok_iff hsane hb hle).mpr hplaces

theorem robust_dropped {rv : Int} (hget : s.getPacket datagram = .ok (rv, d, s')) (hrv : rv ≤ 0) :
    s.Robust datagram := by
  refine ⟨⟨_, hget, fun hpos => absurd hpos (not_lt.mpr hrv)⟩, (rv, s'), ?_⟩
  rw [readNetwork, ok_bind hget]
  exact if_pos hrv

theorem not_robust {e : Stop} (hget : s.getPacket datagram = .error e) : ¬ s.Robust datagram := by
  rintro ⟨⟨r, hr, -⟩, -⟩
  rw [hget] at hr
  cases hr

theorem getPacket_eq (hd : datagram.take packetAlloc = d) (hb : byteAt d 0 = some b)
    (hversion : version b = RTP_VERSION) (ht : byteAt d 1 = some t) :
    s.getPacket datagram =
      if IsEvent (codec t) then
        if s.events.DTMFInterface then do
          let events ← s.events.recvEvent (codec t) (valid d t)
          return (0, valid d t, { s with events := events })
        else .ok ((valid d t).length, valid d t, s)
      else do
        let r ← s.updateSource (valid d t)
        return (if r.1 then -EINVAL else (valid d t).length, valid d t, r.2) := by
  obtain ⟨t', ht', hcodec⟩ := exists_type_valid ht
  have hlen : ¬ ((d.length : Int) = 0) := by
    have := isSome_byteAt.mp (Option.isSome_of_eq_some hb)
    omega
  rw [getPacket, hd]
  dsimp only
  rw [if_neg hlen, ok_bind (isValid_eq hb hversion ht)]
  dsimp only
  rw [if_neg (by decide), ok_bind (getPayloadType_eq ht'), hcodec, length_valid]
  rfl

theorem codec_ne (t : UInt8) : codec t ≠ rtpPayloadPCMU_static := by
  rw [codec]
  split
  · decide
  · assumption

theorem isEvent_codec (t : UInt8) : IsEvent (codec t) ↔ IsEvent (payloadType t) := by
  rw [codec]
  split
  · rename_i hstatic
    rw [hstatic]
    decide
  · rfl

theorem codec_of_isEvent (h : IsEvent (payloadType t)) : codec t = payloadType t := by
  rw [codec, if_neg]
  intro hstatic
  rw [hstatic] at h
  revert h
  decide

theorem places_valid (hb : byteAt d 0 = some b) (ht : byteAt d 1 = some t) (r : RtpReceiver n) :
    Places r (valid d t) (headerSize b) ↔ Places r d (headerSize b) := by
  rw [Places, Places, length_valid, toPacket_valid hb ht]

theorem getPacket_cases (s : Receiver n) (hd : datagram.take packetAlloc = d) :
    (byteAt d 0 = none ∧ s.getPacket datagram = .ok (0, d, s)) ∨
      (∃ b, byteAt d 0 = some b ∧ version b ≠ RTP_VERSION ∧ s.getPacket datagram = .ok (-EINVAL, d, s)) ∨
      (∃ b, byteAt d 0 = some b ∧ version b = RTP_VERSION ∧ byteAt d 1 = none ∧
        s.getPacket datagram = .error .beyond) ∨
      ∃ b t, byteAt d 0 = some b ∧ version b = RTP_VERSION ∧ byteAt d 1 = some t := by
  cases hb : byteAt d 0 with
  | none =>
    have hempty : d = [] := by
      have := mt isSome_byteAt.mpr (Option.not_isSome_iff_eq_none.mpr hb)
      exact List.eq_nil_of_length_eq_zero (by omega)
    refine Or.inl ⟨rfl, ?_⟩
    rw [getPacket, hd, hempty]
    rfl
  | some b =>
    have hlen := isSome_byteAt.mp (Option.isSome_of_eq_some hb)
    by_cases hversion : version b = RTP_VERSION
    · cases ht : byteAt d 1 with
      | none =>
        have hinvalid : isValid d = .error .beyond := by
          rw [isValid, if_neg hlen.ne', access_bind hb, if_neg (not_not.mpr hversion), getPayloadType, ht]
          rfl
        refine Or.inr (Or.inr (Or.inl ⟨b, rfl, hversion, rfl, ?_⟩))
        rw [getPacket, hd]
        dsimp only
        rw [if_neg (by omega), hinvalid]
        rfl
      | some t => exact Or.inr (Or.inr (Or.inr ⟨b, t, rfl, hversion, rfl⟩))
    · have hinvalid : isValid d = .ok (false, d) := by
        rw [isValid, if_neg hlen.ne', access_bind hb, if_pos hversion]
        rfl
      refine Or.inr (Or.inl ⟨b, rfl, hversion, ?_⟩)
      rw [getPacket, hd]
      dsimp only
      rw [if_neg (by omega), ok_bind hinvalid]
      rfl

theorem robust_iff_of_event (h : s.Consistent) (hd : datagram.take packetAlloc = d) (hb : byteAt d 0 = some b)
    (hversion : version b = RTP_VERSION) (ht : byteAt d 1 = some t) (hevent : IsEvent (payloadType t)) :
    s.Robust datagram ↔
      if s.events.DTMFInterface then s.events.EventFits d (payloadType t) (headerSize b)
      else headerSize b ≤ d.length ∧ (0 ≤ s.probation → Places s.buffer d (headerSize b)) := by
  have hget := getPacket_eq (s := s) hd hb hversion ht
  have hb' : byteAt (valid d t) 0 = some b := (byteAt_valid_zero d t).trans hb
  rw [if_pos ((isEvent_codec t).mpr hevent), codec_of_isEvent hevent] at hget
  cases hset : s.events.DTMFInterface with
  | true =>
    rw [hset, if_pos rfl] at hget
    rw [if_pos rfl, ← RtpEventReceiver.eventFits_valid b t, ← RtpEventReceiver.recvEvent_ok_iff hset hevent hb']
    cases hrecv : s.events.recvEvent (payloadType t) (valid d t) with
    | ok e =>
      rw [ok_bind hrecv] at hget
      exact iff_of_true (robust_dropped hget le_rfl) ⟨e, rfl⟩
    | error e =>
      rw [hrecv] at hget
      exact iff_of_false (not_robust hget) (by rintro ⟨_, ⟨⟩⟩)
  | false =>
    rw [hset, if_neg Bool.false_ne_true] at hget
    rw [if_neg Bool.false_ne_true, robust_taken hget h.sane hb', length_valid, places_valid hb ht]

theorem places_restarts (s : Receiver n) (src : UInt32) (type : Nat) (d : Bytes) (header : Nat) :
    Places (if s.Restarts src type then s.buffer.clearJitterBuffer else s.buffer) d header ↔
      (¬ s.Restarts src type → Places s.buffer d header) := by
  by_cases hrestarts : s.Restarts src type
  · rw [if_pos hrestarts]
    exact iff_of_true (Or.inr (Or.inr fun pkt _ => not_clashes_clear s.buffer pkt)) fun hno => absurd hrestarts hno
  · rw [if_neg hrestarts, imp_iff_right hrestarts]

theorem robust_iff_of_codec (h : s.Consistent) (hd : datagram.take packetAlloc = d) (hb : byteAt d 0 = some b)
    (hversion : version b = RTP_VERSION) (ht : byteAt d 1 = some t) (hevent : ¬ IsEvent (payloadType t)) :
    s.Robust datagram ↔ ∃ src ∈ word32At d 8, ¬ s.Refuses src (codec t) →
      headerSize b ≤ d.length ∧ (¬ s.Restarts src (codec t) → Places s.buffer d (headerSize b)) := by
  have hget := getPacket_eq (s := s) hd hb hversion ht
  have hb' : byteAt (valid d t) 0 = some b := (byteAt_valid_zero d t).trans hb
  rw [if_neg (mt (isEvent_codec t).mp hevent)] at hget
  cases hsrc : word32At d 8 with
  | none =>
    have hupdate : s.updateSource (valid d t) = .error .beyond := by
      rw [updateSource, getSSRC, word32At_valid d t (by omega), hsrc]
      rfl
    rw [hupdate] at hget
    exact iff_of_false (not_robust hget) (by rintro ⟨_, ⟨⟩, _⟩)
  | some src =>
    obtain ⟨t', ht', hcodec⟩ := exists_type_valid ht
    obtain ⟨s', hupdate, hs', -, hrest⟩ := exists_updateSource h ((word32At_valid d t (by omega)).trans hsrc) ht'
      (hcodec ▸ codec_ne t)
    rw [hcodec] at hupdate hrest
    rw [ok_bind hupdate] at hget
    by_cases hrefuses : s.Refuses src (codec t)
    · refine iff_of_true (robust_dropped hget ?_) ⟨src, rfl, fun hno => absurd hrefuses hno⟩
      dsimp only
      rw [decide_eq_true hrefuses, if_pos rfl]
      decide
    · obtain ⟨hprobation, -, -, -, hbuffer⟩ := hrest hrefuses
      rw [decide_eq_false hrefuses] at hget
      rw [robust_taken hget hs'.sane hb', length_valid, places_valid hb ht, imp_iff_right hprobation, hbuffer,
        places_restarts]
      constructor
      · intro hboth
        exact ⟨src, rfl, fun _ => hboth⟩
      · rintro ⟨_, ⟨⟩, hboth⟩
        exact hboth hrefuses

/-- In a consistent state the receiver gets through the datagrams that fit, and only through them. -/
theorem robust_iff_of_consistent (h : s.Consistent) (hd : datagram.take packetAlloc = d) :
    s.Robust datagram ↔ s.Fits d := by
  rcases s.getPacket_cases hd with ⟨hb, hget⟩ | ⟨b, hb, hversion, hget⟩ | ⟨b, hb, hversion, ht, hget⟩ |
    ⟨b, t, hb, hversion, ht⟩
  · refine iff_of_true (robust_dropped hget le_rfl) fun b hb' => ?_
    rw [hb] at hb'
    cases hb'
  · refine iff_of_true (robust_dropped hget (by decide)) fun b' hb' hversion' => ?_
    rw [hb] at hb'
    cases hb'
    exact absurd hversion' hversion
  · refine iff_of_false (not_robust hget) fun hfits => ?_
    obtain ⟨t, ht', -⟩ := hfits b hb hversion
    rw [ht] at ht'
    cases ht'
  · have hfits : s.Fits d ↔
        if IsEvent (payloadType t) then
          if s.events.DTMFInterface then s.events.EventFits d (payloadType t) (headerSize b)
          else headerSize b ≤ d.length ∧ (0 ≤ s.probation → Places s.buffer d (headerSize b))
        else ∃ src ∈ word32At d 8, ¬ s.Refuses src (codec t) →
          headerSize b ≤ d.length ∧ (¬ s.Restarts src (codec t) → Places s.buffer d (headerSize b)) := by
      constructor
      · intro hall
        obtain ⟨t', ht', hrest⟩ := hall b hb hversion
        rw [ht] at ht'
        cases ht'
        exact hrest
      · rintro hrest _ hb' -
        rw [hb] at hb'
        cases hb'
        exact ⟨t, ht, hrest⟩
    rw [hfits]
    by_cases hevent : IsEvent (payloadType t)
    · rw [if_pos hevent]
      exact robust_iff_of_event h hd hb hversion ht hevent
    · rw [if_neg hevent]
      exact robust_iff_of_codec h hd hb hversion ht hevent

/-! ## Runs -/

theorem consistent_getPacket (h : s.Consistent) {r : Int × Bytes × Receiver n} (hr : s.getPacket datagram = .ok r) :
    r.2.2.Consistent := by
  rcases s.getPacket_cases rfl with ⟨-, hget⟩ | ⟨b, -, -, hget⟩ | ⟨b, -, -, -, hget⟩ | ⟨b, t, hb, hversion, ht⟩
  · rw [← Except.ok.inj (hget.symm.trans hr)]
    exact h
  · rw [← Except.ok.inj (hget.symm.trans hr)]
    exact h
  · rw [hget] at hr
    cases hr
  rw [getPacket_eq rfl hb hversion ht] at hr
  split_ifs at hr
  · obtain ⟨events, -, hr⟩ := bind_eq_ok.mp hr
    rw [← Except.ok.inj hr]
    exact ⟨h.sane, h.valid, h.attached⟩
  · rw [← Except.ok.inj hr]
    exact h
  · obtain ⟨⟨refused, s'⟩, hupdate, hr⟩ := bind_eq_ok.mp hr
    rw [← Except.ok.inj hr]
    obtain ⟨src, hsrc, -⟩ := bind_eq_ok.mp hupdate
    obtain ⟨t', ht', hcodec⟩ := exists_type_valid ht
    obtain ⟨s'', hupdate', hs'', -⟩ := exists_updateSource h (access_eq_ok.mp hsrc) ht' (hcodec ▸ codec_ne t)
    obtain ⟨-, rfl⟩ := Prod.mk.inj (Except.ok.inj (hupdate'.symm.trans hupdate))
    exact hs''

theorem consistent_store (h : s.Consistent) {r : Int × Receiver n} (hr : s.store d = .ok r) : r.2.Consistent := by
  rw [store] at hr
  split_ifs at hr
  · rw [← Except.ok.inj hr]
    exact h
  · obtain ⟨len, -, hr⟩ := bind_eq_ok.mp hr
    split_ifs at hr
    · rw [← Except.ok.inj hr]
      exact h
    · obtain ⟨pkt, -, hr⟩ := bind_eq_ok.mp hr
      dsimp only at hr
      split_ifs at hr with hsane
      · rw [← Except.ok.inj hr]
        exact ⟨hsane, h.valid, h.attached⟩

theorem consistent_readNetwork (h : s.Consistent) {r : Int × Receiver n} (hr : s.readNetwork datagram = .ok r) :
    r.2.Consistent := by
  obtain ⟨⟨rv, d, s'⟩, hget, hr⟩ := bind_eq_ok.mp hr
  have hs' := consistent_getPacket h hget
  dsimp only at hr hs'
  split_ifs at hr
  · rw [← Except.ok.inj hr]
    exact hs'
  · exact consistent_store hs' hr

theorem consistent_retrieve (h : s.Consistent) (hr : s.retrieve = .ok s') : s'.Consistent := by
  obtain ⟨buffer, data, hstep, hkeeps⟩ := RtpReceiver.verifyJbSanity_step h.sane .retrieve
  have hretrieve : s.buffer.retrieve = some (buffer, data) := hstep
  rw [retrieve, hretrieve] at hr
  obtain rfl := Except.ok.inj hr
  refine ⟨hkeeps.mpr trivial, fun hset => ?_, h.attached⟩
  have hvalid := h.valid hset
  dsimp only
  split_ifs
  · omega
  · exact hvalid

theorem exists_removeSources (s : Receiver n) (removed : List (Rtcp.RtpTranInfo Unit)) :
    ∃ s', s.removeSources removed = .ok s' ∧ s'.buffer = s.buffer ∧ s'.rtcpRecv = s.rtcpRecv ∧
      ((∃ info ∈ removed, info.recv.isSome = true) → s'.sourceSet = false) ∧
      (s.sourceSet = false → s'.sourceSet = false) ∧
      ((∀ info ∈ removed, ¬ info.recv.isSome = true) → s' = s) := by
  induction removed generalizing s with
  | nil => exact ⟨s, rfl, rfl, rfl, by rintro ⟨_, ⟨⟩, _⟩, id, fun _ => rfl⟩
  | cons info removed ih =>
    rw [removeSources]
    by_cases hrecv : info.recv.isSome = true
    · have hremove : s.removeSource info.ssrc true = .ok (s.withoutSource info.ssrc) := by
        rw [removeSource]
        cases hrtcp : s.rtcpRecv <;> simp only [hrtcp, withoutSource, if_true]
      obtain ⟨s', hs', hbuffer, hrtcp, -, hset, -⟩ := ih (s.withoutSource info.ssrc)
      rw [if_pos hrecv, ok_bind hremove]
      exact ⟨s', hs', hbuffer, hrtcp, fun _ => hset rfl, fun _ => hset rfl,
        fun hnone => absurd hrecv (hnone info (List.mem_cons_self ..))⟩
    · obtain ⟨s', hs', hbuffer, hrtcp, hsome, hset, hnone⟩ := ih s
      rw [if_neg hrecv, ok_bind rfl]
      refine ⟨s', hs', hbuffer, hrtcp, ?_, hset, fun hall => hnone fun i hi => hall i (List.mem_cons_of_mem _ hi)⟩
      rintro ⟨i, hi, hisome⟩
      rcases List.mem_cons.mp hi with rfl | hi
      · exact absurd hisome hrecv
      · exact hsome ⟨i, hi, hisome⟩

theorem consistent_readRTCP (h : s.Consistent) {now : Rtcp.NtpTime} {p : Rtcp.RtcpPacket}
    (hr : s.readRTCP now p = .ok s') : s'.Consistent := by
  rw [readRTCP] at hr
  cases hrtcp : s.rtcpRecv with
  | none =>
    rw [hrtcp] at hr
    obtain rfl := Except.ok.inj hr
    exact h
  | some rtcp =>
    simp only [hrtcp] at hr
    split_ifs at hr
    · obtain ⟨⟨ret, rtcp'⟩, hread, hr⟩ := bind_eq_ok.mp hr
      obtain ⟨hsub, removed, hremoved, hiff⟩ := RtcpReceiver.kept_readRTCP RtcpReceiver.kept_detaches hread
      rw [List.nil_append] at hremoved
      have hattached : ({ rtcp with removed := [] } : RtcpReceiver Unit).Attached =
          {src | s.sourceSet = true ∧ src = s.ssrc} := h.attached rtcp hrtcp
      obtain ⟨r, hremove, hbuffer, hrtcp', hsome, -, hnone⟩ :=
        exists_removeSources { s with rtcpRecv := some rtcp' } removed
      dsimp only at hr hremoved hsub hiff
      rw [hremoved] at hr
      obtain rfl := Except.ok.inj (hremove.symm.trans hr)
      by_cases hgone : ∃ info ∈ removed, info.recv.isSome = true
      · have hset := hsome hgone
        refine ⟨hbuffer ▸ h.sane, fun hset' => ?_, fun rtcp'' hrtcp'' => ?_⟩
        · rw [hset] at hset'
          cases hset'
        · rw [hrtcp'] at hrtcp''
          obtain rfl := Option.some.inj hrtcp''
          rw [hset]
          refine Set.eq_empty_of_forall_notMem ?_ |>.trans (Set.eq_empty_of_forall_notMem ?_).symm
          · intro x hx
            refine hiff.mpr hgone (hsub.antisymm fun y hy => ?_)
            have hx' := hsub hx
            rw [hattached] at hx' hy
            rwa [hy.2, ← hx'.2]
          · rintro x ⟨⟨⟩, -⟩
      · obtain rfl := hnone fun info hinfo hisome => hgone ⟨info, hinfo, hisome⟩
        refine ⟨h.sane, h.valid, ?_⟩
        rintro _ ⟨⟩
        rw [not_not.mp (mt hiff.mp hgone)]
        exact hattached
    · obtain rfl := Except.ok.inj hr
      exact h

/-- Every state that a receiver can come to is consistent. -/
theorem Reachable.consistent (h : s.Reachable) : s.Consistent := by
  induction h with
  | @construct hn format sampleSize rtcpRecv hunknown =>
    refine ⟨(RtpReceiver.verifyJbSanity_iff _).mpr ⟨[], RtpReceiver.queue_init hn sampleSize⟩, by rintro ⟨⟩,
      fun rtcp hrtcp => ?_⟩
    ext src
    refine iff_of_false ?_ (by rintro ⟨⟨⟩, -⟩)
    rintro ⟨info, hinfo, hisome⟩
    rw [hunknown rtcp hrtcp src info hinfo] at hisome
    cases hisome
  | @step s s' op _ hstep ih =>
    cases op with
    | network datagram =>
      obtain ⟨r, hr, hstep⟩ := bind_eq_ok.mp hstep
      obtain rfl := Except.ok.inj hstep
      exact consistent_readNetwork ih hr
    | retrieve => exact consistent_retrieve ih hstep
    | rtcp now p => exact consistent_readRTCP ih hstep
    | setDTMFInterface set =>
      obtain rfl := Except.ok.inj hstep
      exact ⟨ih.sane, ih.valid, ih.attached⟩
    | setFormat format sampleSize =>
      obtain rfl := Except.ok.inj hstep
      exact ⟨ih.sane, ih.valid, ih.attached⟩

/-- Whatever a receiver has been through, it gets through the datagrams that fit, and only through them. -/
theorem readNetwork_robust_iff (h : s.Reachable) (datagram : Bytes) :
    s.Robust datagram ↔ s.Fits (datagram.take packetAlloc) :=
  robust_iff_of_consistent h.consistent rfl

/-- A packet of one sample. -/
def voiceDatagram : Bytes := [0x80, 0, 0, 1, 0, 0, 0, 0, 0, 0, 0, 7, 0xFF]

theorem readNetwork_robust_voice : (constructRtpReceiver (Nat.succ_pos 3) 0 160 none).Robust voiceDatagram := by
  refine (readNetwork_robust_iff (.construct (by rintro _ ⟨⟩)) voiceDatagram).mpr ?_
  rintro _ ⟨⟩ -
  refine ⟨0, rfl, ?_⟩
  rw [if_neg (by decide)]
  exact ⟨7, rfl, fun _ => ⟨by decide, fun hno => absurd (Or.inl rfl) hno⟩⟩

/-- An event without the event. -/
def emptyEvent : Bytes := [0x80, 100, 0, 1, 0, 0, 0, 0, 0, 0, 0, 7]

/-- A receiver with an interface for the keys fails an assertion on it. -/
theorem not_readNetwork_robust :
    ¬ ∀ (n : Nat) (s : Receiver n), s.Reachable → ∀ datagram, s.Robust datagram := by
  intro hall
  have hreach : Reachable (constructRtpReceiver (Nat.succ_pos 3) 0 160 none) := .construct (by rintro _ ⟨⟩)
  obtain ⟨⟨r, hr, -⟩, -⟩ := hall 4 _ (.step (.setDTMFInterface true) hreach rfl) emptyEvent
  cases hr

end Receiver

end Vocal.Rtp
