import Vocal.Lib.Gaps
import Vocal.Rtp.Counted

/-!
# Losses that are reported

What `calcLostFrac` and `calcLostCount` tell of the packets of one source: the numbers that were passed over from the
first packet on, and their share of the numbers since the report before. They tell it as long as the numbers
stay between two wraps of the sixteen bits and every packet is counted.
-/

namespace Vocal.Rtp

open Bytes Gaps
open Rtcp (Stop RtpTranInfo Reception RtcpReceiver access access_bind access_eq_ok bind_eq_ok ok_bind)

namespace Counted

variable {n : Nat}

/-! ### Runs -/

/-- What can happen to a receiver. A packet comes with its number in the stream, of which its header has the last
sixteen bits. -/
inductive Op
  | packet (number : Nat) (datagram : Bytes)
  | retrieve
  | report (jitter : Int)

def Op.isReport : Op → Bool
  | report _ => true
  | _ => false

def step (c : Counted n) : Op → Except Stop (Counted n)
  | .packet _ datagram => do
    let (_, c) ← c.readNetwork datagram
    return c
  | .retrieve => c.retrieve
  | .report jitter => .ok ((c.report jitter).elim c (·.2))

def run (c : Counted n) (ops : List Op) : Except Stop (Counted n) := ops.foldlM step c

/-- A receiver before the first packet, with an RTCP receiver that knows no source. -/
def init (hn : 0 < n) (format : Nat) (sampleSize : UInt32) : Counted n where
  recv := Receiver.constructRtpReceiver hn format sampleSize (some { tranInfoList := fun _ => none })

/-- The numbers of the packets. -/
def numbers (ops : List Op) : List Nat :=
  ops.filterMap fun
    | .packet number _ => some number
    | _ => none

/-- The numbers that the last report was about. -/
def reported (ops : List Op) : List Nat := numbers (ops.reverse.dropWhile (!·.isReport)).reverse

/-! ### Packets of a source and reports on them -/

/-- A packet of the source, as far as it is read. -/
structure IsPacket (src : UInt32) (number : Nat) (d : Bytes) : Prop where
  version : ∃ b ∈ byteAt d 0, Rtp.version b = RTP_VERSION
  sequence : word16At d 2 = some (.ofNat number)
  source : word32At d 8 = some src

/-- All packets are of one source. -/
def OfSource (src : UInt32) (ops : List Op) : Prop :=
  ∀ number datagram, .packet number datagram ∈ ops → IsPacket src number (datagram.take packetAlloc)

/-- No number comes twice, and none behind a later one. -/
def InOrder (ops : List Op) : Prop := (numbers ops).Pairwise (· < ·)

/-- A report that tells the losses of the run, and the share of them since the last report. -/
def Tells (ops : List Op) (fraction count : UInt32) : Prop :=
  count.toNat = (gaps (numbers ops)).card ∧
    fraction.toNat =
      256 * (gaps (numbers ops) \ gaps (reported ops)).card / (span (numbers ops) \ span (reported ops)).card

/-- In every state with a packet, a report tells the losses. -/
def Accurate (c : Counted n) (ops : List Op) : Prop :=
  ∀ before behind, ops = before ++ behind → numbers before ≠ [] → ∀ c', c.run before = .ok c' →
    ∀ jitter, ∃ fraction count c'', c'.report jitter = some ((fraction, count), c'') ∧ Tells before fraction count

/-- The packet is counted: neither comfort noise nor an event nor of another format than the receiver's, unless it is
the first, with a payload that is taken; and no wrap is between it and those before. -/
def Counts (format : Nat) (before : List Op) (number : Nat) (d : Bytes) : Prop :=
  (∀ m ∈ numbers before, m / 2 ^ 16 = number / 2 ^ 16) ∧
    ∃ b ∈ byteAt d 0, ∃ t ∈ byteAt d 1, ¬ Receiver.IsEvent (codec t) ∧ codec t ≠ rtpPayloadCN ∧
      (numbers before = [] ∨ codec t = format) ∧ headerSize b < d.length ∧ d.length ≤ headerSize b + 1012

def AllCount (format : Nat) (ops : List Op) : Prop :=
  ∀ before number datagram behind, ops = before ++ .packet number datagram :: behind →
    Counts format before number (datagram.take packetAlloc)

/-! ## One packet -/

variable {c c' : Counted n} {d datagram : Bytes} {b t : UInt8} {src : UInt32} {ts : UInt16}

theorem getPacket_voice (hd : datagram.take packetAlloc = d) (hb : byteAt d 0 = some b)
    (hversion : version b = RTP_VERSION) (ht : byteAt d 1 = some t) (hevent : ¬ Receiver.IsEvent (codec t)) :
    c.getPacket datagram = do
      let r ← c.updateSource (valid d t)
      return (if r.1 then -Receiver.EINVAL else (valid d t).length, valid d t, r.2) := by
  obtain ⟨t', ht', hcodec⟩ := exists_type_valid ht
  have hlen : ¬ ((d.length : Int) = 0) := by
    have := isSome_byteAt.mp (Option.isSome_of_eq_some hb)
    omega
  rw [getPacket, hd]
  dsimp only
  rw [if_neg hlen, ok_bind (isValid_eq hb hversion ht)]
  dsimp only
  rw [if_neg (by decide), ok_bind (getPayloadType_eq ht'), hcodec, if_neg hevent, length_valid]

theorem initSource_ok (hsrc : word32At d 8 = some c.recv.ssrc) (hts : word16At d 2 = some ts) :
    c.initSource d =
      .ok { c with recv := { c.recv with buffer := c.recv.buffer.clearJitterBuffer }, seedSeq := ts } := by
  have hsequence : getSequence d = .ok ts := access_eq_ok.mpr hts
  rw [initSource, ok_bind (Receiver.initSource_eq hsrc), ok_bind hsequence]
  rfl

theorem checkPacket_voice (hprobation : 0 ≤ c.recv.probation) (hsrc : word32At d 8 = some c.recv.ssrc)
    (hts : word16At d 2 = some ts) (ht : byteAt d 1 = some t) (hcn : payloadType t ≠ rtpPayloadCN)
    (hstatic : payloadType t ≠ rtpPayloadPCMU_static) :
    c.checkPacket d = .ok (false,
      if payloadType t ≠ c.recv.format then
        { c with
          recv := { c.recv.checkCycle ts with buffer := c.recv.buffer.clearJitterBuffer }
          seedSeq := ts }
      else { c with recv := c.recv.checkCycle ts }) := by
  have hsequence : getSequence d = .ok ts := access_eq_ok.mpr hts
  have hprobation' : ¬ (c.recv.checkCycle ts).probation < 0 := not_lt.mpr hprobation
  rw [checkPacket, ok_bind hsequence]
  dsimp only
  rw [if_neg hprobation', ok_bind (getPayloadType_eq ht), if_neg (not_or.mpr ⟨hcn, hstatic⟩)]
  by_cases hformat : payloadType t ≠ c.recv.format
  · rw [if_pos hformat, if_pos (show payloadType t ≠ (c.recv.checkCycle ts).format from hformat)]
    exact ok_bind (initSource_ok (c := { c with recv := c.recv.checkCycle ts }) hsrc hts) _
  · rw [if_neg hformat, if_neg (show ¬ payloadType t ≠ (c.recv.checkCycle ts).format from hformat)]
    rfl

/-- What is known of a source behind packets from `first` to `last`. -/
structure Heard (src : UInt32) (first last count : Nat) (c : Counted n) : Prop where
  set : c.recv.sourceSet = true
  ssrc : c.recv.ssrc = src
  probation : 0 ≤ c.recv.probation
  prev : c.recv.realPrevSeqRecv = .ofNat last
  cycles : c.recv.recv_cycles = 0
  seed : c.seedSeq = .ofNat first
  received : c.packetReceived = .ofNat count

/-- What the table has of the last report. -/
def Recorded (src : UInt32) (l : List Nat) (c : Counted n) : Prop :=
  ∃ rtcp ∈ c.recv.rtcpRecv, ∃ info ∈ rtcp.tranInfoList src,
    info.recv.isSome = true ∧ info.expectedPrior = .ofNat (span l).card ∧ info.receivedPrior = .ofNat l.length

/-- A packet that is no event, nor comfort noise. -/
structure Voice (src : UInt32) (number : Nat) (t : UInt8) (d : Bytes) : Prop where
  type : byteAt d 1 = some t
  sequence : word16At d 2 = some (.ofNat number)
  source : word32At d 8 = some src
  notNoise : payloadType t ≠ rtpPayloadCN
  notStatic : payloadType t ≠ rtpPayloadPCMU_static

variable {first last count number : Nat} {l : List Nat}

theorem cycles_checkCycle (s : Receiver n) (h : s.realPrevSeqRecv ≤ ts) :
    (s.checkCycle ts).recv_cycles = s.recv_cycles :=
  if_neg fun hcycle => absurd hcycle.1 (UInt16.not_lt.mpr h)

/-- The table with a new source. -/
def listed (rtcp : RtcpReceiver Unit) (src : UInt32) : RtcpReceiver Unit :=
  { rtcp with tranInfoList := Function.update rtcp.tranInfoList src (some { ssrc := src, recv := some () }) }

theorem addSource_first {s : Receiver n} (hsrc : word32At d 8 = some src) (hset : s.sourceSet = false)
    {rtcp : RtcpReceiver Unit} (hrtcp : s.rtcpRecv = some rtcp) (hnone : rtcp.tranInfoList src = none) :
    s.addSource d = .ok (false,
      { s.setSource src with
        buffer := s.buffer.clearJitterBuffer
        rtcpRecv := some (listed rtcp src) }) := by
  have hadd : (s.setSource src).addTranInfo = .ok { s.setSource src with rtcpRecv := some (listed rtcp src) } := by
    have hrtcp' : (s.setSource src).rtcpRecv = some rtcp := hrtcp
    have hnone' : rtcp.tranInfoList (s.setSource src).ssrc = none := hnone
    simp only [Receiver.addTranInfo, hrtcp', RtcpReceiver.addTranInfo, hnone']
    rfl
  rw [Receiver.addSource, ok_bind (getSSRC_eq hsrc), if_neg (by rw [hset]; rintro ⟨⟨⟩, -⟩),
    if_neg (by rw [hset]; exact Bool.false_ne_true), ok_bind rfl]
  dsimp only
  rw [if_neg (by rw [hset]; rintro ⟨⟨⟩, -⟩), ok_bind hadd]
  exact ok_bind (Receiver.initSource_eq hsrc) _

theorem updateSource_first (hvoice : Voice src number t d) (hset : c.recv.sourceSet = false)
    {rtcp : RtcpReceiver Unit} (hrtcp : c.recv.rtcpRecv = some rtcp) (hnone : rtcp.tranInfoList src = none) :
    ∃ c', c.updateSource d = .ok (false, c') ∧ c'.recv.format = c.recv.format ∧
      c'.recv.probationSet = c.recv.probationSet ∧ Heard src number number 0 c' ∧ Recorded src [] c' := by
  have hsequence : getSequence d = .ok (.ofNat number) := access_eq_ok.mpr hvoice.sequence
  let s : Receiver n :=
    { c.recv.setSource src with
      buffer := c.recv.buffer.clearJitterBuffer
      rtcpRecv := some (listed rtcp src) }
  have hadd : c.addSource d = .ok (false, ⟨s, .ofNat number, 0⟩) := by
    rw [addSource, ok_bind (addSource_first hvoice.source hset hrtcp hnone)]
    exact ok_bind hsequence _
  have hcycles : (s.checkCycle (.ofNat number)).recv_cycles = 0 := cycles_checkCycle s (UInt16.zero_le ..)
  have hrecorded : ∃ rtcp' ∈ s.rtcpRecv, ∃ info ∈ rtcp'.tranInfoList src, info.recv.isSome = true ∧
      info.expectedPrior = .ofNat (span []).card ∧ info.receivedPrior = .ofNat ([] : List Nat).length :=
    ⟨_, rfl, _, Function.update_self .., rfl, rfl, rfl⟩
  rw [updateSource, ok_bind (getSSRC_eq hvoice.source), if_neg (by rw [hset]; rintro ⟨⟨⟩, -⟩),
    if_pos (Or.inl (by rw [hset]; rfl)), ok_bind hadd]
  dsimp only
  rw [if_neg Bool.false_ne_true,
    checkPacket_voice le_rfl hvoice.source hvoice.sequence hvoice.type hvoice.notNoise hvoice.notStatic]
  split_ifs
  · exact ⟨_, rfl, rfl, rfl, ⟨rfl, rfl, le_rfl, rfl, hcycles, rfl, rfl⟩, hrecorded⟩
  · exact ⟨_, rfl, rfl, rfl, ⟨rfl, rfl, le_rfl, rfl, hcycles, rfl, rfl⟩, hrecorded⟩

theorem updateSource_known (hvoice : Voice src number t d) (h : Heard src first last count c)
    (hunlisted : c.recv.probationSet = false) (hformat : payloadType t = c.recv.format) :
    c.updateSource d = .ok (false, { c with recv := c.recv.checkCycle (.ofNat number) }) := by
  have hsrc : word32At d 8 = some c.recv.ssrc := by rw [h.ssrc, hvoice.source]
  rw [updateSource, ok_bind (getSSRC_eq hvoice.source), if_neg (by rw [hunlisted]; rintro ⟨-, -, ⟨⟩⟩),
    if_neg (by rw [h.set, h.ssrc]; rintro (⟨⟨⟩⟩ | hne); exact hne rfl), ok_bind rfl]
  dsimp only
  rw [if_neg Bool.false_ne_true,
    checkPacket_voice h.probation hsrc hvoice.sequence hvoice.type hvoice.notNoise hvoice.notStatic,
    if_neg (not_not.mpr hformat)]

theorem store_voice (hprobation : 0 ≤ c.recv.probation) (hb : byteAt d 0 = some b) (hmin : headerSize b < d.length)
    (hmax : d.length ≤ headerSize b + 1012) {r : Int × Counted n} (h : c.store d = .ok r) :
    ∃ buffer, r.2 =
      { recv := { c.recv with buffer := buffer }, seedSeq := c.seedSeq, packetReceived := c.packetReceived + 1 } := by
  obtain ⟨⟨rv, s⟩, hstore, h⟩ := bind_eq_ok.mp h
  rw [Receiver.store, if_neg (not_lt.mpr hprobation), ok_bind (getPayloadUsage_eq hb), if_neg (by omega)] at hstore
  obtain ⟨pkt, -, hstore⟩ := bind_eq_ok.mp hstore
  dsimp only at hstore
  split_ifs at hstore
  obtain ⟨rfl, rfl⟩ := Prod.mk.inj (Except.ok.inj hstore)
  rw [← Except.ok.inj h]
  exact ⟨_, rfl⟩

theorem readNetwork_voice (hd : datagram.take packetAlloc = d) (hb : byteAt d 0 = some b)
    (hversion : version b = RTP_VERSION) (ht : byteAt d 1 = some t) (hevent : ¬ Receiver.IsEvent (codec t))
    (hmin : headerSize b < d.length) (hmax : d.length ≤ headerSize b + 1012)
    (hupdate : c.updateSource (valid d t) = .ok (false, c')) (hprobation : 0 ≤ c'.recv.probation)
    {r : Int × Counted n} (h : c.readNetwork datagram = .ok r) :
    ∃ buffer, r.2 =
      { recv := { c'.recv with buffer := buffer }, seedSeq := c'.seedSeq, packetReceived := c'.packetReceived + 1 } := by
  have hget : c.getPacket datagram = .ok ((valid d t).length, valid d t, c') := by
    rw [getPacket_voice hd hb hversion ht hevent, ok_bind hupdate]
    rfl
  rw [readNetwork, ok_bind hget] at h
  dsimp only at h
  rw [if_neg (by rw [length_valid]; omega)] at h
  refine store_voice hprobation ((byteAt_valid_zero d t).trans hb) ?_ ?_ h
  · rwa [length_valid]
  · rwa [length_valid]

/-! ## Reports -/

theorem toNat_expected (hle : first ≤ last) (hcycle : first / 2 ^ 16 = last / 2 ^ 16) (h : Heard src first last count c)
    (jitter : Int) : Rtcp.expected (c.reception jitter) = .ofNat (last + 1 - first) := by
  rw [← UInt32.toNat_inj, Rtcp.expected]
  simp only [reception, h.prev, h.cycles, h.seed, UInt32.toNat_add, UInt32.toNat_sub, UInt16.toNat_toUInt32,
    UInt16.toNat_ofNat', UInt32.toNat_ofNat', UInt32.toNat_zero, UInt32.toNat_one]
  omega

theorem toNat_calcLostFrac {s : RtpTranInfo Reception} {r : Reception} {E E₀ R R₀ : Nat}
    (hE : Rtcp.expected r = .ofNat E) (hE₀ : s.expectedPrior = .ofNat E₀) (hR : r.packetReceived = .ofNat R)
    (hR₀ : s.receivedPrior = .ofNat R₀) (hmax : E ≤ 2 ^ 16) (hprior : E₀ ≤ E) (hreceived : R₀ ≤ R)
    (hlost : R - R₀ ≤ E - E₀) :
    (Rtcp.calcLostFrac s r).1.toNat = 256 * (E - E₀ - (R - R₀)) / (E - E₀) := by
  have hinterval : (Rtcp.expected r - s.expectedPrior).toNat = E - E₀ := by
    rw [hE, hE₀, UInt32.toNat_sub, UInt32.toNat_ofNat', UInt32.toNat_ofNat']
    omega
  have hdiff : (Rtcp.expected r - s.expectedPrior - (r.packetReceived - s.receivedPrior)).toNat = E - E₀ - (R - R₀) := by
    rw [UInt32.toNat_sub, hinterval, hR, hR₀, UInt32.toNat_sub, UInt32.toNat_ofNat', UInt32.toNat_ofNat']
    omega
  rw [Rtcp.calcLostFrac]
  dsimp only
  split_ifs with hzero
  · rcases hzero with hzero | hzero
    · rw [hzero] at hinterval
      have hzero' : E - E₀ = 0 := hinterval.symm
      rw [hzero', Nat.div_zero]
      rfl
    · rw [UInt32.le_zero_iff.mp hzero] at hdiff
      have hzero' : E - E₀ - (R - R₀) = 0 := hdiff.symm
      rw [hzero', Nat.mul_zero, Nat.zero_div]
      rfl
  · rw [UInt32.toNat_div, hinterval, UInt32.toNat_shiftLeft, hdiff]
    have hshift : (E - E₀ - (R - R₀)) <<< ((8 : UInt32).toNat % 32) % 2 ^ 32 = 256 * (E - E₀ - (R - R₀)) := by
      rw [show (8 : UInt32).toNat % 32 = 8 by decide, Nat.shiftLeft_eq]
      omega
    rw [hshift]

/-- The entry of the source after a report. -/
def filed (c : Counted n) (rtcp : RtcpReceiver Unit) (info : RtpTranInfo Unit) : Counted n :=
  { c with recv := { c.recv with
    rtcpRecv := some { rtcp with tranInfoList := Function.update rtcp.tranInfoList c.recv.ssrc (some info) } } }

theorem report_heard (h : Heard src first last count c) {rtcp : RtcpReceiver Unit} (hrtcp : c.recv.rtcpRecv = some rtcp)
    {info : RtpTranInfo Unit} (hinfo : rtcp.tranInfoList src = some info) (hrecv : info.recv.isSome = true) (jitter : Int) :
    ∃ s r, r = c.reception jitter ∧ s.expectedPrior = info.expectedPrior ∧ s.receivedPrior = info.receivedPrior ∧
      c.report jitter = some (((Rtcp.calcLostFrac s r).1, Rtcp.calcLostCount r),
        c.filed rtcp (withRecv (Rtcp.calcLostFrac s r).2 info.recv)) := by
  obtain ⟨u, hu⟩ := Option.isSome_iff_exists.mp hrecv
  have hinfo' : rtcp.tranInfoList c.recv.ssrc = some info := by rw [h.ssrc, hinfo]
  refine ⟨withRecv info (some (c.reception jitter)), c.reception jitter, rfl, rfl, rfl, ?_⟩
  have hreportable : Rtcp.RtcpTransmitter.reportable (withRecv info (info.recv.map fun _ => c.reception jitter)) =
      some (c.reception jitter) := by
    rw [hu]
    exact Option.filter_eq_some_iff.mpr ⟨rfl, decide_eq_true h.probation⟩
  simp only [report, hrtcp, hinfo', hreportable]
  rw [hu]
  rfl

/-! ## Runs -/

variable {ops : List Op} {op : Op} {format : Nat}

theorem run_concat (c : Counted n) (ops : List Op) (op : Op) : c.run (ops ++ [op]) = c.run ops >>= (step · op) := by
  simp [run, List.foldlM_append]

theorem numbers_concat (ops : List Op) (op : Op) : numbers (ops ++ [op]) = numbers ops ++ numbers [op] :=
  List.filterMap_append

theorem reported_concat (ops : List Op) (op : Op) :
    reported (ops ++ [op]) = if op.isReport then numbers (ops ++ [op]) else reported ops := by
  rw [reported, List.reverse_append, List.reverse_singleton, List.singleton_append, List.dropWhile_cons]
  cases op.isReport with
  | true => simp
  | false => simp [reported]

theorem exists_reported_append (ops : List Op) : ∃ l, numbers ops = reported ops ++ l := by
  obtain ⟨behind, hbehind⟩ := List.dropWhile_suffix (l := ops.reverse) (!·.isReport)
  refine ⟨numbers behind.reverse, ?_⟩
  rw [reported, numbers, numbers, numbers, ← List.filterMap_append, ← List.reverse_append, hbehind, List.reverse_reverse]

theorem Heard.checkCycle (h : Heard src first last count c) (hle : UInt16.ofNat last ≤ .ofNat number) :
    Heard src first number count { c with recv := c.recv.checkCycle (.ofNat number) } :=
  ⟨h.set, h.ssrc, h.probation, rfl, (cycles_checkCycle c.recv (h.prev ▸ hle)).trans h.cycles, h.seed, h.received⟩

theorem Heard.stored (h : Heard src first last count c) (buffer : RtpReceiver n) :
    Heard src first last (count + 1)
      { recv := { c.recv with buffer := buffer }, seedSeq := c.seedSeq, packetReceived := c.packetReceived + 1 } :=
  ⟨h.set, h.ssrc, h.probation, h.prev, h.cycles, h.seed, by simp [h.received]⟩

/-- What a run that counts every packet comes to. -/
structure Inv (format : Nat) (src : UInt32) (ops : List Op) (c : Counted n) : Prop where
  ascending : (numbers ops).Pairwise (· < ·)
  cycle : ∀ m ∈ numbers ops, ∀ m' ∈ numbers ops, m / 2 ^ 16 = m' / 2 ^ 16
  format : c.recv.format = format
  unlisted : c.recv.probationSet = false
  fresh : numbers ops = [] → c.recv.sourceSet = false ∧ ∃ rtcp ∈ c.recv.rtcpRecv, ∀ x, rtcp.tranInfoList x = none
  heard : ∀ hl : numbers ops ≠ [],
    Heard src ((numbers ops).head hl) ((numbers ops).getLast hl) (numbers ops).length c ∧ Recorded src (reported ops) c

theorem inv_init (hn : 0 < n) (format : Nat) (sampleSize src : UInt32) : Inv format src [] (init hn format sampleSize) :=
  ⟨List.Pairwise.nil, by rintro _ ⟨⟩, rfl, rfl, fun _ => ⟨rfl, _, rfl, fun _ => rfl⟩, fun hl => absurd rfl hl⟩

theorem Inv.packet (h : Inv format src ops c) (hpacket : IsPacket src number (datagram.take packetAlloc))
    (hcounts : Counts format ops number (datagram.take packetAlloc))
    (hascending : (numbers ops ++ [number]).Pairwise (· < ·)) (hstep : c.step (.packet number datagram) = .ok c') :
    Inv format src (ops ++ [.packet number datagram]) c' := by
  obtain ⟨hcycle, b, hb, t, ht, hevent, hnoise, hformat, hmin, hmax⟩ := hcounts
  obtain ⟨⟨b', hb', hversion⟩, hsequence, hsource⟩ := hpacket
  obtain rfl := Option.some.inj (hb.symm.trans hb')
  obtain ⟨t', ht', hcodec⟩ := exists_type_valid ht
  obtain ⟨r, hread, hstep⟩ := bind_eq_ok.mp hstep
  obtain rfl := Except.ok.inj hstep
  have hvoice : Voice src number t' (valid (datagram.take packetAlloc) t) :=
    ⟨ht', (word16At_valid _ t le_rfl).trans hsequence, (word32At_valid _ t (by omega)).trans hsource,
      hcodec ▸ hnoise, hcodec ▸ Receiver.codec_ne t⟩
  have hnumbers : numbers (ops ++ [.packet number datagram]) = numbers ops ++ [number] := numbers_concat ..
  have hreported : reported (ops ++ [.packet number datagram]) = reported ops := reported_concat ..
  have hcycle' : ∀ m ∈ numbers ops ++ [number], m / 2 ^ 16 = number / 2 ^ 16 := by
    intro m hm
    rcases List.mem_append.mp hm with hm | hm
    · exact hcycle m hm
    · rw [List.mem_singleton.mp hm]
  -- what `updateSource` leaves, whether the packet is the first of the source or a further one
  have hupdate : ∃ c₁, c.updateSource (valid (datagram.take packetAlloc) t) = .ok (false, c₁) ∧
      c₁.recv.format = format ∧ c₁.recv.probationSet = false ∧
      Heard src ((numbers ops ++ [number]).head (by simp)) number (numbers ops).length c₁ ∧
      Recorded src (reported ops) c₁ := by
    by_cases hfirst : numbers ops = []
    · obtain ⟨hset, rtcp, hrtcp, hnone⟩ := h.fresh hfirst
      obtain ⟨c₁, hupdate, hf, hp, hheard, hrecorded⟩ := updateSource_first hvoice hset hrtcp (hnone src)
      obtain ⟨l, hl⟩ := exists_reported_append ops
      have hnothing : reported ops = [] := (List.append_eq_nil_iff.mp (hl.symm.trans hfirst)).1
      refine ⟨c₁, hupdate, hf.trans h.format, hp.trans h.unlisted, ?_, hnothing ▸ hrecorded⟩
      simpa [hfirst] using hheard
    · obtain ⟨hheard, hrecorded⟩ := h.heard hfirst
      have hlast : (numbers ops).getLast hfirst < number :=
        (List.pairwise_append.mp hascending).2.2 _ (List.getLast_mem hfirst) number (List.mem_singleton_self number)
      have hsame := hcycle _ (List.getLast_mem hfirst)
      have hle : UInt16.ofNat ((numbers ops).getLast hfirst) ≤ .ofNat number := by
        rw [UInt16.le_iff_toNat_le, UInt16.toNat_ofNat', UInt16.toNat_ofNat']
        omega
      have htype : payloadType t' = c.recv.format := by rw [hcodec, h.format, hformat.resolve_left hfirst]
      refine ⟨_, updateSource_known hvoice hheard h.unlisted htype, h.format, h.unlisted, ?_, hrecorded⟩
      rw [List.head_append_of_ne_nil hfirst]
      exact hheard.checkCycle hle
  obtain ⟨c₁, hupdate, hformat₁, hunlisted₁, hheard, hrecorded⟩ := hupdate
  obtain ⟨buffer, hr⟩ := readNetwork_voice rfl hb hversion ht hevent hmin hmax hupdate hheard.probation hread
  refine ⟨hnumbers ▸ hascending, ?_, ?_, ?_, ?_, ?_⟩
  · rw [hnumbers]
    exact fun m hm m' hm' => (hcycle' m hm).trans (hcycle' m' hm').symm
  · rw [hr]
    exact hformat₁
  · rw [hr]
    exact hunlisted₁
  · rw [hnumbers]
    exact fun hnil => absurd hnil (by simp)
  · intro hl
    rw [hr]
    refine ⟨?_, hreported ▸ hrecorded⟩
    have hstored := hheard.stored buffer
    simpa [hnumbers] using hstored

theorem Inv.retrieve (h : Inv format src ops c) (hstep : c.step .retrieve = .ok c') :
    Inv format src (ops ++ [.retrieve]) c' := by
  have hnumbers : numbers (ops ++ [.retrieve]) = numbers ops := by
    rw [numbers_concat]
    exact List.append_nil _
  have hreported : reported (ops ++ [.retrieve]) = reported ops := reported_concat ..
  obtain ⟨s, hretrieve, hstep⟩ := bind_eq_ok.mp hstep
  obtain rfl := Except.ok.inj hstep
  rw [Receiver.retrieve] at hretrieve
  split at hretrieve
  · cases hretrieve
  rename_i buffer jbp hbuffer
  obtain rfl := Except.ok.inj hretrieve
  refine ⟨hnumbers ▸ h.ascending, hnumbers ▸ h.cycle, h.format, h.unlisted, hnumbers ▸ h.fresh, ?_⟩
  simp only [hnumbers, hreported]
  intro hl
  obtain ⟨hheard, hrecorded⟩ := h.heard hl
  refine ⟨⟨hheard.set, hheard.ssrc, ?_, hheard.prev, hheard.cycles, hheard.seed, hheard.received⟩, hrecorded⟩
  have hprobation := hheard.probation
  dsimp only
  split_ifs
  · omega
  · exact hprobation

/-- A report keeps what is known of the source, and records what it is about. -/
theorem Inv.report (h : Inv format src ops c) {jitter : Int} (hstep : c.step (.report jitter) = .ok c') :
    Inv format src (ops ++ [.report jitter]) c' := by
  have hnumbers : numbers (ops ++ [.report jitter]) = numbers ops := by
    rw [numbers_concat]
    exact List.append_nil _
  have hreported : reported (ops ++ [.report jitter]) = numbers ops := (reported_concat ..).trans hnumbers
  obtain rfl := Except.ok.inj hstep
  by_cases hl : numbers ops = []
  · obtain ⟨hset, rtcp, hrtcp, hnone⟩ := h.fresh hl
    have hnothing : c.report jitter = none := by
      rw [Option.mem_def] at hrtcp
      simp only [Counted.report, hrtcp, hnone]
    rw [hnothing]
    exact ⟨hnumbers ▸ h.ascending, hnumbers ▸ h.cycle, h.format, h.unlisted, hnumbers ▸ h.fresh,
      fun hl' => absurd (hnumbers.trans hl) hl'⟩
  · obtain ⟨hheard, rtcp, hrtcp, info, hinfo, hrecv, -, -⟩ := h.heard hl
    obtain ⟨s, r, rfl, -, -, hreport⟩ := report_heard hheard hrtcp hinfo hrecv jitter
    rw [hreport]
    refine ⟨hnumbers ▸ h.ascending, hnumbers ▸ h.cycle, h.format, h.unlisted,
      fun hnil => absurd (hnumbers.symm.trans hnil) hl, ?_⟩
    simp only [hnumbers, hreported]
    intro _
    refine ⟨⟨hheard.set, hheard.ssrc, hheard.probation, hheard.prev, hheard.cycles, hheard.seed, hheard.received⟩, ?_⟩
    have hexpected := toNat_expected (head_le_getLast h.ascending hl)
      (h.cycle _ (List.head_mem hl) _ (List.getLast_mem hl)) hheard jitter
    rw [← card_span h.ascending hl] at hexpected
    refine ⟨_, rfl, withRecv (Rtcp.calcLostFrac s (c.reception jitter)).2 info.recv, ?_, hrecv, hexpected, hheard.received⟩
    rw [hheard.ssrc]
    exact Function.update_self ..

theorem Inv.step (h : Inv format src ops c) (op : Op)
    (hsource : ∀ number datagram, op = .packet number datagram → IsPacket src number (datagram.take packetAlloc))
    (hcounts : ∀ number datagram, op = .packet number datagram → Counts format ops number (datagram.take packetAlloc))
    (horder : InOrder (ops ++ [op])) (hstep : c.step op = .ok c') : Inv format src (ops ++ [op]) c' := by
  cases op with
  | packet number datagram =>
    have hascending : (numbers ops ++ [number]).Pairwise (· < ·) := by
      rw [InOrder, numbers_concat] at horder
      exact horder
    exact h.packet (hsource number datagram rfl) (hcounts number datagram rfl) hascending hstep
  | retrieve => exact h.retrieve hstep
  | report jitter => exact h.report hstep

theorem inv_run {hn : 0 < n} {sampleSize : UInt32} (hsource : OfSource src ops) (horder : InOrder ops)
    (hcounts : AllCount format ops) (hrun : (init hn format sampleSize).run ops = .ok c) : Inv format src ops c := by
  induction ops using List.reverseRecOn generalizing c with
  | nil =>
    obtain rfl := Except.ok.inj hrun
    exact inv_init hn format sampleSize src
  | append_singleton ops op ih =>
    rw [run_concat] at hrun
    obtain ⟨c₁, hc₁, hstep⟩ := bind_eq_ok.mp hrun
    have horder₁ : InOrder ops := by
      rw [InOrder, numbers_concat] at horder
      exact (List.pairwise_append.mp horder).1
    have hinv : Inv format src ops c₁ := by
      refine ih (fun number datagram hmem => hsource number datagram (List.mem_append_left _ hmem)) horder₁ ?_ hc₁
      intro before number datagram behind hops
      exact hcounts before number datagram (behind ++ [op]) (by rw [hops]; simp)
    refine hinv.step op ?_ ?_ horder hstep
    · rintro number datagram rfl
      exact hsource number datagram (List.mem_append_right _ (List.mem_singleton_self _))
    · rintro number datagram rfl
      exact hcounts ops number datagram [] rfl

theorem Inv.tells (h : Inv format src ops c) (hl : numbers ops ≠ []) (jitter : Int) :
    ∃ fraction count c', c.report jitter = some ((fraction, count), c') ∧ Tells ops fraction count := by
  obtain ⟨hheard, rtcp, hrtcp, info, hinfo, hrecv, hprior, hreceived⟩ := h.heard hl
  obtain ⟨s, r, rfl, hs, hs', hreport⟩ := report_heard hheard hrtcp hinfo hrecv jitter
  obtain ⟨l, hsplit⟩ := exists_reported_append ops
  have hcycle := h.cycle _ (List.head_mem hl) _ (List.getLast_mem hl)
  have hexpected := toNat_expected (head_le_getLast h.ascending hl) hcycle hheard jitter
  rw [← card_span h.ascending hl] at hexpected
  have hascending : (reported ops ++ l).Pairwise (· < ·) := hsplit ▸ h.ascending
  have hspan : span (reported ops) ⊆ span (numbers ops) := hsplit ▸ span_subset_append hascending
  have hgaps : gaps (reported ops) ⊆ gaps (numbers ops) := hsplit ▸ gaps_subset_append hascending
  have hmax : (span (numbers ops)).card ≤ 2 ^ 16 := by
    rw [card_span h.ascending hl]
    omega
  have hcard := card_gaps h.ascending
  have hcard₀ := card_gaps (List.pairwise_append.mp hascending).1
  have hspanLe := Finset.card_le_card hspan
  have hgapsLe := Finset.card_le_card hgaps
  have hlength : (reported ops).length ≤ (numbers ops).length := by
    rw [hsplit, List.length_append]
    omega
  refine ⟨_, _, _, hreport, ?_, ?_⟩
  · have hcount : (c.reception jitter).packetReceived = .ofNat (numbers ops).length := hheard.received
    rw [Rtcp.calcLostCount, hexpected, hcount, UInt32.toNat_sub, UInt32.toNat_ofNat', UInt32.toNat_ofNat']
    omega
  · rw [toNat_calcLostFrac hexpected (hs.trans hprior) hheard.received (hs'.trans hreceived) hmax hspanLe hlength
      (by omega), Finset.card_sdiff_of_subset hspan, Finset.card_sdiff_of_subset hgaps]
    congr 2
    omega

/-- Between two wraps, and when every packet is counted, every report of the run tells its losses. -/
theorem accurate_of_allCount (hn : 0 < n) (format : Nat) (sampleSize src : UInt32) {ops : List Op}
    (hsource : OfSource src ops) (horder : InOrder ops) (hcounts : AllCount format ops) :
    Accurate (init hn format sampleSize) ops := by
  rintro before behind rfl hl c hrun jitter
  have hbefore : InOrder before := by
    rw [InOrder, numbers, List.filterMap_append] at horder
    exact (List.pairwise_append.mp horder).1
  have hinv : Inv format src before c := by
    refine inv_run (fun number datagram hmem => hsource number datagram (List.mem_append_left _ hmem)) hbefore ?_ hrun
    intro before' number datagram behind' hops
    exact hcounts before' number datagram (behind' ++ behind) (by rw [hops]; simp)
  exact hinv.tells hl jitter

/-- A packet of one sample. -/
def sample (hi lo : UInt8) : Bytes := [0x80, 0, hi, lo, 0, 0, 0, 0, 0, 0, 0, 7, 0xFF]

theorem accurate_of_allCount_two :
    Accurate (init (Nat.succ_pos 3) 0 160) [.packet 5 (sample 0 5), .packet 8 (sample 0 8)] := by
  refine accurate_of_allCount (Nat.succ_pos 3) 0 160 7 ?_ (by simp [InOrder, numbers]) ?_
  · intro number datagram hmem
    rcases List.mem_pair.mp hmem with ⟨rfl, rfl⟩ | ⟨rfl, rfl⟩
    · exact ⟨⟨0x80, rfl, rfl⟩, rfl, rfl⟩
    · exact ⟨⟨0x80, rfl, rfl⟩, rfl, rfl⟩
  · rintro (_ | ⟨_, _ | ⟨_, _ | _⟩⟩) number datagram behind hops
    · cases hops
      exact ⟨by rintro _ ⟨⟩, 0x80, rfl, 0, rfl, by decide, by decide, Or.inl rfl, by decide, by decide⟩
    · cases hops
      exact ⟨by simp [numbers], 0x80, rfl, 0, rfl, by decide, by decide, Or.inr rfl, by decide, by decide⟩
    · simp at hops
    · simp at hops

/-- Nothing is lost between the last number of sixteen bits and the first. -/
theorem not_accurate :
    ¬ ∀ (n : Nat) (hn : 0 < n) (format : Nat) (sampleSize src : UInt32) (ops : List Op), OfSource src ops →
      InOrder ops → Accurate (init hn format sampleSize) ops := by
  intro hall
  have haccurate := hall 4 (Nat.succ_pos 3) 0 160 7
    [.packet 65535 (sample 255 255), .packet 65536 (sample 0 0)] ?_ (by simp [InOrder, numbers])
  · obtain ⟨fraction, count, c', hreport, hcount, -⟩ :=
      haccurate [.packet 65535 (sample 255 255), .packet 65536 (sample 0 0)] [] rfl (by simp [numbers]) _ rfl 0
    have hgaps : (gaps [65535, 65536]).card = 0 := by decide
    have hcount' : count = 4294901761 := (congrArg (fun r => r.1.2) (Option.some.inj hreport)).symm
    rw [hcount'] at hcount
    exact absurd (hcount.trans hgaps) (by decide)
  · intro number datagram hmem
    rcases List.mem_pair.mp hmem with ⟨rfl, rfl⟩ | ⟨rfl, rfl⟩
    · exact ⟨⟨0x80, rfl, rfl⟩, rfl, rfl⟩
    · exact ⟨⟨0x80, rfl, rfl⟩, rfl, rfl⟩

end Counted

end Vocal.Rtp
