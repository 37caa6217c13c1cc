import Vocal.Rtp.Dtmf

/-!
# Audio without digits

The packets of a transmitter have consecutive numbers, and so has what the jitter buffer holds of them, silence included.
A buffer of fewer slots than there are numbers has its place for the next packet.
-/

namespace Vocal.Rtp

open Bytes
open Rtcp (Stop access_eq_ok bind_eq_ok ok_bind)

/-! ## Consecutive numbers -/

/-- Data with consecutive numbers from the first one on. -/
def Numbered : UInt16 → List RtpData → Prop
  | _, [] => True
  | seq, d :: q => d.rtp_seq_no = seq ∧ Numbered (seq + 1) q

variable {seq : UInt16} {q fill : List RtpData} {d : RtpData}

theorem succ_add_ofNat (seq : UInt16) (k : Nat) : seq + 1 + .ofNat k = seq + .ofNat (k + 1) := by
  rw [UInt16.ofNat_add, UInt16.add_assoc, UInt16.add_comm 1]
  rfl

theorem numbered_append : Numbered seq (q ++ fill) ↔ Numbered seq q ∧ Numbered (seq + .ofNat q.length) fill := by
  induction q generalizing seq with
  | nil =>
    rw [List.nil_append, List.length_nil, show UInt16.ofNat 0 = 0 from rfl, UInt16.add_zero]
    exact (and_iff_right trivial).symm
  | cons d q ih =>
    rw [List.cons_append, Numbered, Numbered, ih, succ_add_ofNat, List.length_cons, and_assoc]

theorem numbered_drop (h : Numbered seq q) (k : Nat) : Numbered (seq + .ofNat k) (q.drop k) := by
  induction k generalizing seq q with
  | zero =>
    rw [show UInt16.ofNat 0 = 0 from rfl, UInt16.add_zero, List.drop_zero]
    exact h
  | succ k ih =>
    cases q with
    | nil => trivial
    | cons d q =>
      rw [← succ_add_ofNat, List.drop_succ_cons]
      exact ih h.2

/-- The numbers end at this one. -/
def EndsAt (last : UInt16) (q : List RtpData) : Prop := ∃ seq, Numbered seq q ∧ seq + .ofNat q.length = last + 1

theorem endsAt_nil (last : UInt16) : EndsAt last [] :=
  ⟨last + 1, trivial, UInt16.add_zero _⟩

theorem endsAt_drop {last : UInt16} (h : EndsAt last q) {k : Nat} (hk : k ≤ q.length) : EndsAt last (q.drop k) := by
  obtain ⟨seq, hq, hlast⟩ := h
  refine ⟨_, numbered_drop hq k, ?_⟩
  rw [List.length_drop, UInt16.add_assoc, ← UInt16.ofNat_add, Nat.add_sub_cancel' hk, hlast]

theorem endsAt_append {last : UInt16} (h : EndsAt last q) (hd : d.rtp_seq_no = last + 1) :
    EndsAt (last + 1) (q ++ [d]) := by
  obtain ⟨seq, hq, hlast⟩ := h
  refine ⟨seq, numbered_append.mpr ⟨hq, hd.trans hlast.symm, trivial⟩, ?_⟩
  rw [List.length_append, List.length_singleton, UInt16.ofNat_add, ← UInt16.add_assoc, hlast]
  rfl

theorem EndsAt.last {last : UInt16} (h : EndsAt last (q ++ [d])) : d.rtp_seq_no = last := by
  obtain ⟨seq, hnumbered, hend⟩ := h
  have hnumber := (numbered_append.mp hnumbered).2.1
  rw [List.length_append, List.length_singleton, UInt16.ofNat_add, ← UInt16.add_assoc] at hend
  rw [hnumber]
  exact (UInt16.add_left_inj 1).mp hend

theorem RtpSeqDifference_next (last : UInt16) : RtpSeqDifference (last + 1) last = 1 := by
  have hlt := last.toNat_lt
  have hsucc : (last + 1).toNat = (last.toNat + 1) % 65536 := by simp [UInt16.toNat_add]
  have heq : last + 1 = last ↔ (last + 1).toNat = last.toNat := UInt16.toNat_inj.symm
  simp only [RtpSeqDifference, RTP_SEQ_MOD, heq, hsucc]
  split_ifs <;> omega

namespace RtpReceiver

variable {n : Nat} {s : RtpReceiver n} {l : List RtpData} {pkt : RtpPacket}

theorem numbered_primeSilence (pkt : RtpPacket) (m : Nat) (h : Queue s (l.rtake n)) :
    ∃ fill : List RtpData, fill.length = m ∧ Numbered (pkt.sequence - .ofNat m) fill ∧
      Queue (primeSilence pkt m s) ((l ++ fill).rtake n) := by
  induction m generalizing s l with
  | zero => exact ⟨[], rfl, trivial, by simpa [primeSilence] using h⟩
  | succ m ih =>
    obtain ⟨d, -, -, hseq, hnext, -⟩ := exists_silence h (pkt.rtpTime - s.sampleSize * .ofNat (m + 1))
      (pkt.sequence - .ofNat (m + 1))
    obtain ⟨fill, hlen, hfill, hq⟩ := ih hnext
    refine ⟨d :: fill, by rw [List.length_cons, hlen], ⟨hseq, ?_⟩, ?_⟩
    · have hnumber : pkt.sequence - .ofNat (m + 1) + 1 = pkt.sequence - .ofNat m := by
        rw [UInt16.ofNat_add]
        simp only [UInt16.sub_eq_add_neg, UInt16.neg_add, UInt16.add_assoc]
        rw [show -UInt16.ofNat 1 + 1 = 0 from by decide, UInt16.add_zero]
      rwa [hnumber]
    · rw [List.append_cons]
      exact hq

theorem exists_started (h : Queue s []) {last : UInt16} (hpkt : pkt.sequence = last + 1) :
    ∃ q, Queue (s.startBuffer pkt) q ∧ EndsAt (last + 1) q := by
  have hpos := s.playPos.pos
  obtain ⟨fill, hlen, hfill, hq⟩ := numbered_primeSilence pkt (n / 2 - 1) (l := []) (by simpa using h)
  have hshort : fill.length < n := by omega
  rw [List.nil_append, rtake_of_length_le hshort.le] at hq
  have happend := queue_append pkt hq (by omega)
  rw [rtake_append fill _ hshort.le hpos, if_pos hshort] at happend
  refine ⟨_, happend, endsAt_append ⟨_, hfill, ?_⟩ hpkt⟩
  rw [hlen, hpkt, UInt16.sub_add_cancel]

theorem patchSilence_next {lastPkt : RtpData} (hdiff : RtpSeqDifference pkt.sequence lastPkt.rtp_seq_no = 1)
    (s : RtpReceiver n) : patchSilence pkt (turns pkt lastPkt) lastPkt s = s := by
  rw [turns, hdiff]
  show patchSilence pkt 1 lastPkt s = s
  rw [patchSilence, hdiff]
  split
  · exact if_pos le_rfl
  · rfl

theorem patches_next {lastPkt : RtpData} (hdiff : RtpSeqDifference pkt.sequence lastPkt.rtp_seq_no = 1)
    (sampleSize : UInt32) :
    patches pkt sampleSize (turns pkt lastPkt) lastPkt.rtp_time lastPkt.rtp_seq_no = 0 := by
  rw [turns, hdiff]
  show patches pkt sampleSize 1 lastPkt.rtp_time lastPkt.rtp_seq_no = 0
  rw [patches, hdiff]
  split
  · exact if_pos le_rfl
  · rfl

/-- The first number of a full buffer is as many numbers away as there are slots. -/
theorem sequenceAt_playPos_ne (hn : n < 2 ^ 16) {last : UInt16} (h : Queue s q) (hq : EndsAt last q)
    (hpkt : pkt.sequence = last + 1) (hfull : q.length = n) : s.sequenceAt s.playPos ≠ some pkt.sequence := by
  intro hsame
  have hpos := s.playPos.pos
  obtain ⟨seq, hnumbered, hend⟩ := hq
  have hhead := sequenceAt_slot h (k := 0) (by omega)
  rw [Slots.slot_zero, hsame] at hhead
  obtain ⟨x, rest, hx⟩ := List.exists_cons_of_length_pos (l := q) (by omega)
  rw [hx] at hhead hnumbered
  have hnumber : pkt.sequence = seq := (Option.some.inj hhead).trans hnumbered.1
  rw [hfull, ← hpkt, hnumber] at hend
  have hzero := congrArg UInt16.toNat hend
  have := seq.toNat_lt
  rw [UInt16.toNat_add, UInt16.toNat_ofNat'] at hzero
  omega

theorem exists_next (hn : n < 2 ^ 16) {last : UInt16} (h : Queue s q) (hq : EndsAt last q)
    (hpkt : pkt.sequence = last + 1) :
    ¬ Clashes s pkt ∧ ∃ q', Queue (s.readNetwork pkt) q' ∧ EndsAt (last + 1) q' := by
  have hle := h.holds.le
  have hlast := getLastRtpData_eq h
  rcases List.eq_nil_or_concat q with rfl | ⟨q, lastPkt, rfl⟩
  · refine ⟨?_, ?_⟩
    · rintro ⟨lastPkt, hmem, -⟩
      rw [hlast] at hmem
      cases hmem
    · rw [readNetwork, hlast]
      exact exists_started h hpkt
  rw [List.concat_eq_append] at h hq hlast hle
  rw [List.getLast?_concat] at hlast
  have hdiff : RtpSeqDifference pkt.sequence lastPkt.rtp_seq_no = 1 := by
    rw [hpkt, hq.last, RtpSeqDifference_next]
  have hgreater : RtpSeqGreater pkt.sequence lastPkt.rtp_seq_no = true :=
    RtpSeqGreater_iff.mpr (by rw [hdiff]; exact Int.one_pos)
  have hfirst : (q ++ [lastPkt]).length = n → s.sequenceAt s.playPos ≠ some pkt.sequence :=
    sequenceAt_playPos_ne hn h hq hpkt
  constructor
  · rintro ⟨lastPkt', hmem, -, -, hclash⟩
    rw [hlast] at hmem
    obtain rfl := Option.some.inj hmem
    rw [if_pos hgreater, filled, patches_next hdiff, Nat.add_zero, count_eq h] at hclash
    have hfull : (q ++ [lastPkt]).length = n := le_antisymm hle hclash.1
    rw [hfull, Nat.sub_self, Slots.slot_zero] at hclash
    exact hfirst hfull hclash.2
  · have hread : s.readNetwork pkt = s.appendRtpData pkt := by
      rw [readNetwork, hlast]
      simp only
      rw [hdiff, if_neg (by have := s.playPos.pos; omega), if_pos hgreater, patchSilence_next hdiff]
    rw [hread]
    refine ⟨_, queue_append pkt h fun hfull _ => hfirst hfull, ?_⟩
    rw [List.rtake]
    exact endsAt_drop (endsAt_append hq hpkt) (Nat.sub_le ..)

end RtpReceiver

/-! ## A call -/

theorem sequence_toPacket {b : Bytes} {pkt : RtpPacket} (h : toPacket b = .ok pkt) : getSequence b = .ok pkt.sequence := by
  obtain ⟨type, -, h⟩ := bind_eq_ok.mp h
  obtain ⟨loc, -, h⟩ := bind_eq_ok.mp h
  obtain ⟨sequence, hsequence, h⟩ := bind_eq_ok.mp h
  obtain ⟨rtpTime, -, h⟩ := bind_eq_ok.mp h
  rw [← Except.ok.inj h, hsequence]

theorem OutPacket.getSequence_datagram (p : OutPacket) : getSequence (p.datagram.take packetAlloc) = .ok p.sequence :=
  access_eq_ok.mpr (word16At_ofWord16 p.sequence (ofWord32 p.timestamp ++ (ofWord32 p.ssrc ++ p.payload.take 1024)))

namespace Call

open Receiver (Consistent codec_ne getPacket_eq isEvent_codec exists_updateSource)

variable {n : Nat} {c c' : Call n}

/-- A call of audio so far: the receiver knows the transmitter alone, and its buffer holds consecutive numbers up to the
last one that was sent. -/
structure Tuned (c : Call n) : Prop where
  ready : c.Ready
  voice : c.tran.format ≠ rtpPayloadCN
  unlisted : c.recv.probationSet = false
  source : c.recv.sourceSet = true → c.recv.ssrc = c.tran.ssrc
  numbered : ∃ q, RtpReceiver.Queue c.recv.buffer q ∧ EndsAt c.tran.prevSequence q

/-- Audio that the receiver can store. -/
def Storable : CallOp → Prop
  | .audio data => 0 < data.length ∧ data.length ≤ 1012
  | .digit _ | .retrieve => True

theorem not_refuses (h : c.Tuned) (data : Bytes) :
    ¬ c.recv.Refuses (c.tran.transmitRaw data).2.ssrc (codec (c.tran.transmitRaw data).2.typeByte) := by
  rintro (⟨-, -, hlist⟩ | ⟨hset, hother, -⟩ | hcn)
  · rw [h.unlisted] at hlist
    cases hlist
  · exact hother (h.source hset).symm
  · rw [codec, OutPacket.payloadType_typeByte _ h.ready.format] at hcn
    split at hcn
    · exact absurd hcn (by decide)
    · exact h.voice hcn

/-- A packet of the transmitter in the buffer of the receiver, or in an empty one. -/
theorem exists_stored (h : c.Tuned) (hn : n < 2 ^ 16) {data : Bytes} {buffer : RtpReceiver n} {pkt : RtpPacket}
    (hbuffer : buffer = c.recv.buffer ∨ buffer = c.recv.buffer.clearJitterBuffer)
    (hpkt : toPacket ((c.tran.transmitRaw data).2.datagram.take packetAlloc) = .ok pkt) :
    ¬ RtpReceiver.Clashes buffer pkt ∧
      ∃ q, RtpReceiver.Queue (buffer.readNetwork pkt) q ∧ EndsAt (c.tran.transmitRaw data).1.prevSequence q := by
  have hsequence : pkt.sequence = c.tran.prevSequence + 1 :=
    Except.ok.inj ((sequence_toPacket hpkt).symm.trans (OutPacket.getSequence_datagram _))
  obtain ⟨q, hq, hend⟩ := h.numbered
  rcases hbuffer with rfl | rfl
  · exact RtpReceiver.exists_next hn hq hend hsequence
  · exact RtpReceiver.exists_next hn (RtpReceiver.queue_clear _) (endsAt_nil _) hsequence

theorem meets_of_tuned (h : c.Tuned) (hn : n < 2 ^ 16) (op : CallOp) : c.Meets op := by
  cases op with
  | digit event => trivial
  | retrieve => trivial
  | audio data => exact fun _ _ => Or.inr (Or.inr fun pkt hpkt => (exists_stored h hn (Or.inl rfl) hpkt).1)

theorem tuned_audio (h : c.Tuned) (hn : n < 2 ^ 16) {data : Bytes} (hdata : Storable (.audio data))
    (hstep : c.step (.audio data) = .ok c') : c'.Tuned := by
  have hready := ready_step h.ready hstep
  obtain ⟨recv, harrive, hstep⟩ := bind_eq_ok.mp hstep
  obtain ⟨⟨rv, r⟩, hr, harrive⟩ := bind_eq_ok.mp harrive
  obtain rfl := Except.ok.inj harrive
  obtain rfl := Except.ok.inj hstep
  have hrefuses := not_refuses h data
  have hformat := OutPacket.payloadType_typeByte (c.tran.transmitRaw data).2 h.ready.format
  have hb := OutPacket.byteAt_datagram_zero (c.tran.transmitRaw data).2
  have ht := OutPacket.byteAt_datagram_one (c.tran.transmitRaw data).2
  have hsrc := OutPacket.word32At_datagram (c.tran.transmitRaw data).2
  have hlen : ((c.tran.transmitRaw data).2.datagram.take packetAlloc).length = RTP_HEADER + data.length := by
    have hwhole : (c.tran.transmitRaw data).2.datagram.length = RTP_HEADER + data.length := OutPacket.length_datagram _
    have hshort : RTP_HEADER + data.length ≤ packetAlloc := Nat.add_le_add_left (le_trans hdata.2 (by decide)) _
    rw [List.length_take, hwhole, Nat.min_eq_right hshort]
  obtain ⟨t', ht', hcodec⟩ := exists_type_valid ht
  obtain ⟨s', hupdate, hs', -, hrest⟩ := exists_updateSource h.ready.consistent
    ((word32At_valid _ _ (by omega)).trans hsrc) ht' (hcodec ▸ codec_ne _)
  rw [hcodec] at hupdate hrest
  obtain ⟨hprobation, hset, hssrc, hlist, hbuffer⟩ := hrest hrefuses
  have hbuffer' : s'.buffer = c.recv.buffer ∨ s'.buffer = c.recv.buffer.clearJitterBuffer := by
    rw [hbuffer]
    split
    · exact Or.inr rfl
    · exact Or.inl rfl
  obtain ⟨pkt, hpkt⟩ := exists_toPacket (d := (c.tran.transmitRaw data).2.datagram.take packetAlloc)
    (by rw [hlen]; exact Nat.le_add_right ..)
  obtain ⟨hclash, q, hq, hend⟩ := exists_stored h hn hbuffer' hpkt
  have hsane : (s'.buffer.readNetwork pkt).verifyJbSanity = true :=
    (RtpReceiver.verifyJbSanity_iff _).mpr ⟨q, hq⟩
  have hevent : ¬ Receiver.IsEvent (codec (c.tran.transmitRaw data).2.typeByte) := by
    rw [isEvent_codec, hformat]
    exact h.ready.audio
  have hread : c.recv.readNetwork (c.tran.transmitRaw data).2.datagram =
      .ok (0, { s' with buffer := s'.buffer.readNetwork pkt }) := by
    rw [Receiver.readNetwork, getPacket_eq rfl hb rfl ht, if_neg hevent, ok_bind hupdate, decide_eq_false hrefuses]
    have hpos : ¬ ((valid ((c.tran.transmitRaw data).2.datagram.take packetAlloc)
        (c.tran.transmitRaw data).2.typeByte).length : Int) ≤ 0 := by
      rw [length_valid, hlen]
      have := hdata.1
      omega
    refine (if_neg hpos).trans ?_
    rw [Receiver.store, if_neg (not_lt.mpr hprobation), ok_bind (getPayloadUsage_eq ((byteAt_valid_zero _ _).trans hb)),
      length_valid, hlen]
    have hsize : ¬ (((RTP_HEADER + data.length : Nat) : Int) - headerSize 0x80 ≤ 0 ∨
        1012 < ((RTP_HEADER + data.length : Nat) : Int) - headerSize 0x80) := by
      have hheader : headerSize 0x80 = RTP_HEADER := rfl
      have := hdata.1
      have := hdata.2
      rw [hheader]
      omega
    rw [if_neg hsize, ok_bind ((toPacket_valid hb ht).trans hpkt)]
    dsimp only
    rw [if_pos hsane]
    rfl
  obtain ⟨-, rfl⟩ := Prod.mk.inj (Except.ok.inj (hread.symm.trans hr))
  refine ⟨hready, h.voice, (hlist h.source).trans h.unlisted, fun _ => hssrc, q, hq, hend⟩

theorem tuned_step (h : c.Tuned) (hn : n < 2 ^ 16) {op : CallOp} (hop : Storable op) (hstep : c.step op = .ok c') :
    c'.Tuned := by
  cases op with
  | digit event => exact absurd hstep (not_step_digit h.ready event)
  | audio data => exact tuned_audio h hn hop hstep
  | retrieve =>
    have hready := ready_step h.ready hstep
    obtain ⟨recv, hretrieve, hstep⟩ := bind_eq_ok.mp hstep
    obtain rfl := Except.ok.inj hstep
    obtain ⟨q, hq, hend⟩ := h.numbered
    obtain ⟨buffer, data, q', hbuffer, hreturned, hq'⟩ := RtpReceiver.exists_returned hq
    rw [Receiver.retrieve, hbuffer] at hretrieve
    obtain rfl := Except.ok.inj hretrieve
    refine ⟨hready, h.voice, h.unlisted, h.source, q', hq', ?_⟩
    cases hreturned with
    | empty => exact hend
    | next => exact endsAt_drop hend (k := 1) (Nat.succ_le_succ (Nat.zero_le _))
    | skip => exact endsAt_drop hend (k := 2) (Nat.succ_le_succ (Nat.succ_le_succ (Nat.zero_le _)))

theorem undisturbed_of_tuned (h : c.Tuned) (hn : n < 2 ^ 16) {ops : List CallOp} (hops : ∀ op ∈ ops, Storable op) :
    c.Undisturbed ops := by
  induction ops generalizing c with
  | nil => trivial
  | cons op ops ih =>
    refine ⟨meets_of_tuned h hn op, fun c' hstep => ?_⟩
    exact ih (tuned_step h hn (hops op (List.mem_cons_self ..)) hstep) fun o ho => hops o (List.mem_cons_of_mem _ ho)

/-- Where audio is of a size that the receiver stores, only digits stop it. -/
theorem delivers_iff_of_storable {tran : RtpTransmitter} {format : Nat} {sampleSize : UInt32}
    {rtcpRecv : Option (Rtcp.RtcpReceiver Unit)} (hn : 0 < n) (hmax : n ≤ JITTER_BUFFER_MAX)
    (hformat : tran.format < 2 ^ 7) (haudio : ¬ Receiver.IsEvent tran.format) (hvoice : tran.format ≠ rtpPayloadCN)
    (hunknown : ∀ rtcp ∈ rtcpRecv, ∀ src, ∀ info ∈ rtcp.tranInfoList src, info.recv = none) {ops : List CallOp}
    (hops : ∀ op ∈ ops, Storable op) :
    (new tran hn format sampleSize rtcpRecv).Delivers ops ↔ digits ops = [] := by
  have hready := ready_new format sampleSize hn hformat haudio hunknown
  have htuned : (new tran hn format sampleSize rtcpRecv).Tuned :=
    ⟨hready, hvoice, rfl, by rintro ⟨⟩, [], RtpReceiver.queue_init hn sampleSize, endsAt_nil _⟩
  rw [delivers_iff_of_ready hready]
  exact and_iff_left (undisturbed_of_tuned htuned (lt_of_le_of_lt hmax (by decide)) hops)

end Call

end Vocal.Rtp
