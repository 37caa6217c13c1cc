import Vocal.Rtp.Datagram
import Vocal.Rtp.Transmitter

/-!
# Keys in a call

What becomes of the packets of a transmitter at the receiver. The last packet of each digit has no payload, and the
receiver fails an assertion on it; audio arrives as long as the jitter buffer has its place for it.
-/

namespace Vocal.Rtp

open Bytes
open Rtcp (Stop access access_bind access_eq_ok bind_eq_ok ok_bind RtcpReceiver)

/-! ## The bytes of a packet -/

namespace OutPacket

variable (p : OutPacket)

theorem length_datagram : p.datagram.length = RTP_HEADER + p.payload.length := by
  simp only [datagram, List.length_cons, List.length_append, length_ofWord16, length_ofWord32, RTP_HEADER]
  omega

theorem take_datagram : p.datagram.take packetAlloc = { p with payload := p.payload.take 1024 }.datagram := rfl

theorem byteAt_datagram_zero : byteAt (p.datagram.take packetAlloc) 0 = some 0x80 := rfl

theorem byteAt_datagram_one : byteAt (p.datagram.take packetAlloc) 1 = some p.typeByte := rfl

theorem word32At_datagram : word32At (p.datagram.take packetAlloc) 8 = some p.ssrc :=
  word32At_ofWord32 p.ssrc (p.payload.take 1024)

theorem headerSize_le_datagram : headerSize 0x80 ≤ (p.datagram.take packetAlloc).length := by
  rw [take_datagram, length_datagram]
  exact Nat.le_add_right ..

theorem payloadType_typeByte (h : p.type < 2 ^ 7) : payloadType p.typeByte = p.type := by
  rw [payloadType, typeByte, UInt8.toNat_ofNat']
  split <;> omega

end OutPacket

namespace Receiver

variable {n : Nat} {s s' : Receiver n} {d datagram : Bytes} {b : UInt8} {p : OutPacket}

theorem robust_iff_readNetwork (hd : datagram.take packetAlloc = d) (hb : byteAt d 0 = some b)
    (hheader : headerSize b ≤ d.length) : s.Robust datagram ↔ ∃ r, s.readNetwork datagram = .ok r := by
  refine ⟨fun h => h.2, ?_⟩
  rintro ⟨r, hr⟩
  refine ⟨?_, r, hr⟩
  obtain ⟨⟨rv, d', s'⟩, hget, -⟩ := bind_eq_ok.mp hr
  refine ⟨_, hget, fun hpos => ?_⟩
  have hshape : byteAt d' 0 = some b ∧ d'.length = d.length ∧ rv = d.length := by
    dsimp only at hpos
    rcases s.getPacket_cases hd with ⟨-, hget'⟩ | ⟨_, -, -, hget'⟩ | ⟨_, -, -, -, hget'⟩ | ⟨b', t, hb', hversion, ht⟩
    · obtain ⟨rfl, -⟩ := Prod.mk.inj (Except.ok.inj (hget'.symm.trans hget))
      exact absurd hpos (lt_irrefl _)
    · obtain ⟨rfl, -⟩ := Prod.mk.inj (Except.ok.inj (hget'.symm.trans hget))
      exact absurd hpos (by decide)
    · rw [hget] at hget'
      cases hget'
    · have hvalid : byteAt (valid d t) 0 = some b := (byteAt_valid_zero d t).trans hb
      rw [getPacket_eq hd hb' hversion ht] at hget
      split_ifs at hget
      · obtain ⟨events, -, hget⟩ := bind_eq_ok.mp hget
        obtain ⟨rfl, -⟩ := Prod.mk.inj (Except.ok.inj hget)
        exact absurd hpos (lt_irrefl _)
      · obtain ⟨rfl, heq⟩ := Prod.mk.inj (Except.ok.inj hget)
        obtain ⟨rfl, -⟩ := Prod.mk.inj heq
        rw [length_valid]
        exact ⟨hvalid, rfl, rfl⟩
      · obtain ⟨⟨refused, r⟩, -, hget⟩ := bind_eq_ok.mp hget
        obtain ⟨rfl, heq⟩ := Prod.mk.inj (Except.ok.inj hget)
        obtain ⟨rfl, -⟩ := Prod.mk.inj heq
        rw [length_valid]
        cases refused with
        | true => exact absurd hpos (by rw [if_pos rfl]; decide)
        | false => exact ⟨hvalid, rfl, rfl⟩
  obtain ⟨hb', hlen, hrv⟩ := hshape
  have hle : RTP_HEADER ≤ headerSize b := Nat.le_add_right ..
  refine ⟨_, getPayloadUsage_eq hb', ?_, ?_⟩
  · dsimp only
    omega
  · dsimp only
    omega

/-- An audio packet of the transmitter: it is refused, or empties the buffer, or has its place in it. -/
def Takes (s : Receiver n) (p : OutPacket) : Prop :=
  ¬ s.Refuses p.ssrc (codec p.typeByte) → ¬ s.Restarts p.ssrc (codec p.typeByte) →
    Places s.buffer (p.datagram.take packetAlloc) RTP_HEADER

theorem readNetwork_audio_iff (h : s.Consistent) (htype : p.type < 2 ^ 7) (haudio : ¬ IsEvent p.type) :
    (∃ r, s.readNetwork p.datagram = .ok r) ↔ s.Takes p := by
  rw [← robust_iff_readNetwork rfl p.byteAt_datagram_zero p.headerSize_le_datagram, robust_iff_of_consistent h rfl,
    Fits, Takes]
  constructor
  · intro hfits hrefuses hrestarts
    obtain ⟨t, ht, hrest⟩ := hfits 0x80 p.byteAt_datagram_zero rfl
    obtain rfl := Option.some.inj (p.byteAt_datagram_one.symm.trans ht)
    rw [if_neg (by rwa [p.payloadType_typeByte htype])] at hrest
    obtain ⟨src, hsrc, hrest⟩ := hrest
    obtain rfl := Option.some.inj (p.word32At_datagram.symm.trans hsrc)
    exact (hrest hrefuses).2 hrestarts
  · rintro htakes b hb -
    obtain rfl := Option.some.inj (p.byteAt_datagram_zero.symm.trans hb)
    refine ⟨p.typeByte, p.byteAt_datagram_one, ?_⟩
    rw [if_neg (by rwa [p.payloadType_typeByte htype])]
    exact ⟨p.ssrc, p.word32At_datagram, fun hrefuses => ⟨p.headerSize_le_datagram, htakes hrefuses⟩⟩

theorem events_readNetwork_audio (h : s.Consistent) (htype : p.type < 2 ^ 7) (haudio : ¬ IsEvent p.type)
    {r : Int × Receiver n} (hr : s.readNetwork p.datagram = .ok r) : r.2.events = s.events := by
  obtain ⟨⟨rv, d, s'⟩, hget, hr⟩ := bind_eq_ok.mp hr
  have ht := p.byteAt_datagram_one
  have hs' : s'.events = s.events := by
    rw [getPacket_eq rfl p.byteAt_datagram_zero rfl ht, if_neg (by rwa [isEvent_codec, p.payloadType_typeByte htype])] at hget
    obtain ⟨⟨refused, t⟩, hupdate, hget⟩ := bind_eq_ok.mp hget
    obtain ⟨-, heq⟩ := Prod.mk.inj (Except.ok.inj hget)
    obtain ⟨-, rfl⟩ := Prod.mk.inj heq
    obtain ⟨src, hsrc, -⟩ := bind_eq_ok.mp hupdate
    obtain ⟨b, hb', hcodec⟩ := exists_type_valid ht
    obtain ⟨u, hupdate', -, hevents, -⟩ :=
      exists_updateSource h (access_eq_ok.mp hsrc) hb' (hcodec ▸ codec_ne p.typeByte)
    obtain ⟨-, rfl⟩ := Prod.mk.inj (Except.ok.inj (hupdate'.symm.trans hupdate))
    exact hevents
  rw [← hs']
  dsimp only at hr
  split_ifs at hr
  · rw [← Except.ok.inj hr]
  · rw [store] at hr
    split_ifs at hr
    · rw [← Except.ok.inj hr]
    · obtain ⟨len, -, hr⟩ := bind_eq_ok.mp hr
      split_ifs at hr
      · rw [← Except.ok.inj hr]
      · obtain ⟨pkt, -, hr⟩ := bind_eq_ok.mp hr
        dsimp only at hr
        split_ifs at hr
        rw [← Except.ok.inj hr]

end Receiver

namespace RtpEventReceiver

variable {e e' : RtpEventReceiver} {d : Bytes}

@[simp] theorem DTMFInterface_send (e : RtpEventReceiver) (event : Rtp.DTMFEvent) (duration : Nat) :
    (e.sendToDTMFInterface event duration).DTMFInterface = e.DTMFInterface := by
  rw [sendToDTMFInterface]
  split <;> rfl

theorem DTMFInterface_recvEventRFC2833 (h : e.recvEventRFC2833 d = .ok e') :
    e'.DTMFInterface = e.DTMFInterface := by
  obtain ⟨usage, -, h⟩ := bind_eq_ok.mp h
  by_cases hzero : usage = 0
  · rw [if_pos hzero] at h
    cases h
  rw [if_neg hzero] at h
  obtain ⟨loc, -, h⟩ := bind_eq_ok.mp h
  obtain ⟨flags, -, h⟩ := bind_eq_ok.mp h
  split_ifs at h
  · obtain ⟨low, -, h⟩ := bind_eq_ok.mp h
    obtain ⟨high, -, h⟩ := bind_eq_ok.mp h
    rw [← Except.ok.inj h]
    exact DTMFInterface_send ..
  · rw [← Except.ok.inj h]
  · obtain ⟨event, -, h⟩ := bind_eq_ok.mp h
    rw [← Except.ok.inj h]
  · rw [← Except.ok.inj h]

theorem DTMFInterface_recvEventCiscoRTP (h : e.recvEventCiscoRTP d = .ok e') :
    e'.DTMFInterface = e.DTMFInterface := by
  obtain ⟨loc, -, h⟩ := bind_eq_ok.mp h
  obtain ⟨digit, -, h⟩ := bind_eq_ok.mp h
  split_ifs at h
  · obtain ⟨code, -, h⟩ := bind_eq_ok.mp h
    rw [← Except.ok.inj h]
  · rw [← Except.ok.inj h]
    exact DTMFInterface_send ..
  · rw [← Except.ok.inj h]

theorem DTMFInterface_recvEvent {type : Nat} (h : e.recvEvent type d = .ok e') :
    e'.DTMFInterface = e.DTMFInterface := by
  rw [recvEvent] at h
  split_ifs at h
  · rw [← Except.ok.inj h]
  · exact DTMFInterface_recvEventRFC2833 h
  · exact DTMFInterface_recvEventCiscoRTP h
  · rw [← Except.ok.inj h]

end RtpEventReceiver

namespace Receiver

variable {n : Nat} {s : Receiver n} {p : OutPacket}

theorem readNetwork_event (hset : s.events.DTMFInterface = true) (htype : p.type = rtpPayloadDTMF_RFC2833) :
    s.readNetwork p.datagram = (do
      let events ← s.events.recvEvent rtpPayloadDTMF_RFC2833 (valid (p.datagram.take packetAlloc) p.typeByte)
      return (0, { s with events := events })) := by
  have hpayload : payloadType p.typeByte = rtpPayloadDTMF_RFC2833 := by
    rw [p.payloadType_typeByte (by rw [htype]; decide), htype]
  have hevent : IsEvent (payloadType p.typeByte) := Or.inl hpayload
  rw [readNetwork, getPacket_eq rfl p.byteAt_datagram_zero rfl p.byteAt_datagram_one,
    if_pos ((isEvent_codec _).mpr hevent), if_pos hset, codec_of_isEvent hevent, hpayload]
  cases s.events.recvEvent rtpPayloadDTMF_RFC2833 (valid (p.datagram.take packetAlloc) p.typeByte) with
  | error e => rfl
  | ok events => rfl

theorem interface_readNetwork_event (hset : s.events.DTMFInterface = true) (htype : p.type = rtpPayloadDTMF_RFC2833)
    {r : Int × Receiver n} (hr : s.readNetwork p.datagram = .ok r) : r.2.events.DTMFInterface = true := by
  rw [readNetwork_event hset htype] at hr
  obtain ⟨events, hrecv, hr⟩ := bind_eq_ok.mp hr
  rw [← Except.ok.inj hr]
  exact (RtpEventReceiver.DTMFInterface_recvEvent hrecv).trans hset

/-- The last packet of a digit has no payload. -/
theorem not_readNetwork_offedge (hset : s.events.DTMFInterface = true) (htype : p.type = rtpPayloadDTMF_RFC2833)
    (hempty : p.payload = []) {r : Int × Receiver n} : s.readNetwork p.datagram ≠ .ok r := by
  intro hr
  rw [readNetwork_event hset htype] at hr
  obtain ⟨events, hrecv, -⟩ := bind_eq_ok.mp hr
  have hb : byteAt (valid (p.datagram.take packetAlloc) p.typeByte) 0 = some 0x80 :=
    (byteAt_valid_zero _ _).trans p.byteAt_datagram_zero
  have hfits := (RtpEventReceiver.recvEvent_ok_iff hset (Or.inl rfl) hb).mp ⟨events, hrecv⟩
  rw [RtpEventReceiver.EventFits, if_pos rfl, length_valid, p.take_datagram, OutPacket.length_datagram, hempty] at hfits
  exact absurd hfits.1 (show ¬ headerSize 0x80 + 2 ≤ RTP_HEADER + 0 by decide)

end Receiver

/-! ## A call -/

namespace Call

variable {n : Nat} {c c' : Call n}

/-- An audio packet of the call finds its place. -/
def Meets (c : Call n) : CallOp → Prop
  | .audio data => c.recv.Takes (c.tran.transmitRaw data).2
  | .digit _ | .retrieve => True

/-- Every audio packet of a run finds its place. -/
def Undisturbed (c : Call n) : List CallOp → Prop
  | [] => True
  | op :: ops => c.Meets op ∧ ∀ c', c.step op = .ok c' → c'.Undisturbed ops

/-- A receiver with an interface, and a transmitter of audio. -/
structure Ready (c : Call n) : Prop where
  consistent : c.recv.Consistent
  interface : c.recv.events = { DTMFInterface := true }
  format : c.tran.format < 2 ^ 7
  audio : ¬ Receiver.IsEvent c.tran.format

theorem not_step_digit (h : c.Ready) (event : Fin 12) : c.step (.digit event) ≠ .ok c' := by
  intro hstep
  obtain ⟨recv, harrive, -⟩ := bind_eq_ok.mp hstep
  obtain ⟨r₁, h₁, harrive⟩ := bind_eq_ok.mp harrive
  have hset₁ := Receiver.interface_readNetwork_event (by rw [h.interface]) rfl h₁
  obtain ⟨r₂, h₂, harrive⟩ := bind_eq_ok.mp harrive
  have hset₂ := Receiver.interface_readNetwork_event hset₁ rfl h₂
  obtain ⟨r₃, h₃, -⟩ := bind_eq_ok.mp harrive
  exact Receiver.not_readNetwork_offedge hset₂ rfl rfl h₃

theorem step_audio_iff (h : c.Ready) (data : Bytes) :
    (∃ c', c.step (.audio data) = .ok c') ↔ c.Meets (.audio data) := by
  rw [Meets, ← Receiver.readNetwork_audio_iff h.consistent h.format h.audio]
  constructor
  · rintro ⟨c', hstep⟩
    obtain ⟨recv, harrive, -⟩ := bind_eq_ok.mp hstep
    obtain ⟨r, hr, -⟩ := bind_eq_ok.mp harrive
    exact ⟨r, hr⟩
  · rintro ⟨r, hr⟩
    refine ⟨{ tran := (c.tran.transmitRaw data).1, recv := r.2 }, ?_⟩
    rw [step, arrive, ok_bind hr]
    rfl

theorem ready_step {op : CallOp} (h : c.Ready) (hstep : c.step op = .ok c') : c'.Ready := by
  cases op with
  | digit event => exact absurd hstep (not_step_digit h event)
  | audio data =>
    obtain ⟨recv, harrive, hstep⟩ := bind_eq_ok.mp hstep
    obtain ⟨r, hr, harrive⟩ := bind_eq_ok.mp harrive
    obtain rfl := Except.ok.inj harrive
    obtain rfl := Except.ok.inj hstep
    refine ⟨Receiver.consistent_readNetwork h.consistent hr, ?_, h.format, h.audio⟩
    exact (Receiver.events_readNetwork_audio h.consistent h.format h.audio hr).trans h.interface
  | retrieve =>
    obtain ⟨recv, hretrieve, hstep⟩ := bind_eq_ok.mp hstep
    obtain rfl := Except.ok.inj hstep
    refine ⟨Receiver.consistent_retrieve h.consistent hretrieve, ?_, h.format, h.audio⟩
    rw [Receiver.retrieve] at hretrieve
    cases hbuffer : c.recv.buffer.retrieve with
    | none =>
      rw [hbuffer] at hretrieve
      cases hretrieve
    | some r =>
      rw [hbuffer] at hretrieve
      rw [← Except.ok.inj hretrieve]
      exact h.interface

theorem exists_step_retrieve (h : c.Ready) : ∃ c', c.step .retrieve = .ok c' := by
  obtain ⟨buffer, data, hstep, -⟩ := RtpReceiver.verifyJbSanity_step h.consistent.sane .retrieve
  have hretrieve : c.recv.buffer.retrieve = some (buffer, data) := hstep
  rw [step, Receiver.retrieve, hretrieve]
  exact ⟨_, rfl⟩

/-- The steps of a call come to their end exactly when no digit is sent and audio finds its place. -/
theorem step_ok_iff (h : c.Ready) (op : CallOp) :
    (∃ c', c.step op = .ok c') ↔ digits [op] = [] ∧ c.Meets op := by
  cases op with
  | digit event =>
    refine iff_of_false ?_ (by rintro ⟨⟨⟩, -⟩)
    rintro ⟨c', hstep⟩
    exact not_step_digit h event hstep
  | audio data => exact (step_audio_iff h data).trans (and_iff_right rfl).symm
  | retrieve => exact iff_of_true (exists_step_retrieve h) ⟨rfl, trivial⟩

theorem digits_cons (op : CallOp) (ops : List CallOp) : digits (op :: ops) = digits [op] ++ digits ops := by
  rw [digits, digits, digits, ← List.filterMap_append, List.singleton_append]

theorem delivers_iff_of_ready (h : c.Ready) (ops : List CallOp) :
    c.Delivers ops ↔ digits ops = [] ∧ c.Undisturbed ops := by
  induction ops generalizing c with
  | nil =>
    refine iff_of_true ⟨c, rfl, ?_⟩ ⟨rfl, trivial⟩
    rw [h.interface]
    rfl
  | cons op ops ih =>
    have hok := step_ok_iff h op
    rw [digits_cons, List.append_eq_nil_iff]
    constructor
    · rintro ⟨c'', hrun, hsent⟩
      obtain ⟨c', hstep, hrun⟩ := bind_eq_ok.mp hrun
      obtain ⟨hdigit, hmeets⟩ := hok.mp ⟨c', hstep⟩
      rw [digits_cons, hdigit, List.nil_append] at hsent
      obtain ⟨hdigits, hrest⟩ := (ih (ready_step h hstep)).mp ⟨c'', hrun, hsent⟩
      refine ⟨⟨hdigit, hdigits⟩, hmeets, fun c₁ hc₁ => ?_⟩
      rwa [← Except.ok.inj (hstep.symm.trans hc₁)]
    · rintro ⟨⟨hdigit, hdigits⟩, hmeets, hrest⟩
      obtain ⟨c', hstep⟩ := hok.mpr ⟨hdigit, hmeets⟩
      obtain ⟨c'', hrun, hsent⟩ := (ih (ready_step h hstep)).mpr ⟨hdigits, hrest c' hstep⟩
      refine ⟨c'', (ok_bind hstep _).trans hrun, ?_⟩
      rw [digits_cons, hdigit, List.nil_append]
      exact hsent

variable {tran : RtpTransmitter} {format : Nat} {sampleSize : UInt32} {rtcpRecv : Option (RtcpReceiver Unit)}

theorem ready_new (format : Nat) (sampleSize : UInt32) (hn : 0 < n) (hformat : tran.format < 2 ^ 7)
    (haudio : ¬ Receiver.IsEvent tran.format)
    (hunknown : ∀ rtcp ∈ rtcpRecv, ∀ src, ∀ info ∈ rtcp.tranInfoList src, info.recv = none) :
    (new tran hn format sampleSize rtcpRecv).Ready where
  consistent := (Receiver.Reachable.step (.setDTMFInterface true) (.construct hunknown) rfl).consistent
  interface := rfl
  format := hformat
  audio := haudio

/-- The interface of a new receiver gets the digits of a call, and the receiver stops at nothing, exactly when no digit
is sent and every audio packet finds its place. -/
theorem delivers_iff (hn : 0 < n) (hformat : tran.format < 2 ^ 7) (haudio : ¬ Receiver.IsEvent tran.format)
    (hunknown : ∀ rtcp ∈ rtcpRecv, ∀ src, ∀ info ∈ rtcp.tranInfoList src, info.recv = none) (ops : List CallOp) :
    (new tran hn format sampleSize rtcpRecv).Delivers ops ↔
      digits ops = [] ∧ (new tran hn format sampleSize rtcpRecv).Undisturbed ops :=
  delivers_iff_of_ready (ready_new format sampleSize hn hformat haudio hunknown) ops

/-- A transmitter of PCMU. -/
def voiceTransmitter : RtpTransmitter where
  ssrc := 7
  format := 0
  sampleSize := 160
  prevRtpTime := 0
  prevSequence := 0
  markerOnce := false

theorem delivers_voice : (new voiceTransmitter (Nat.succ_pos 3) 0 160 none).Delivers [.audio [0xFF], .retrieve] := by
  refine (delivers_iff (Nat.succ_pos 3) (by decide) (by decide) (by rintro _ ⟨⟩) _).mpr ⟨rfl, ?_, fun _ _ => ?_⟩
  · exact fun _ hno => absurd (Or.inl rfl) hno
  · exact ⟨trivial, fun _ _ => trivial⟩

/-- The receiver stops at the first digit. -/
theorem not_delivers :
    ¬ ∀ (n : Nat) (hn : 0 < n) (tran : RtpTransmitter) (ops : List CallOp), tran.format < 2 ^ 7 →
      ¬ Receiver.IsEvent tran.format → (new tran hn tran.format tran.sampleSize none).Delivers ops := by
  intro hall
  obtain ⟨c, hrun, -⟩ := hall 4 (Nat.succ_pos 3) voiceTransmitter [.digit 5] (by decide) (by decide)
  obtain ⟨c', hstep, -⟩ := bind_eq_ok.mp hrun
  exact not_step_digit (ready_new 0 160 (Nat.succ_pos 3) (by decide) (by decide) (by rintro _ ⟨⟩)) 5 hstep

end Call

end Vocal.Rtp
