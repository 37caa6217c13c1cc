import Vocal.Rtcp.Receiver

/-!
# The RTCP transmitter

`RtcpTransmitter::addSR`, `addSDES` and `addBYE`, which put a compound packet together in the memory of an `RtcpPacket`.
`allocData` clears as many bytes as it has allocated, but those behind them; a write that leaves the array has an outcome
of its own. Padding, which is not implemented, is left out, and the RTP time of the moment is an input.
-/

namespace Vocal.Rtcp

open Bytes

/-! ### The memory of a packet -/

namespace RtcpPacket

/-- The constructor. -/
def empty : RtcpPacket := .received [] (Nat.zero_le _)

def write (p : RtcpPacket) (off : Nat) (bytes : Bytes) : Except Stop RtcpPacket :=
  match Octets.store p.packetData off bytes with
  | some packetData => .ok { p with packetData }
  | none => .error .overrun

/-- `allocData`: the memory that is cleared is behind that which is allocated. -/
def allocData (p : RtcpPacket) (s : Nat) : Except Stop RtcpPacket :=
  if s ≤ p.unusedSize then
    write { p with unusedSize := p.unusedSize - s, unused_le := Nat.le_trans (Nat.sub_le ..) p.unused_le }
      (p.getTotalUsage + s) (List.replicate s 0)
  else .error .assertion

/-- A struct in the free memory that is allocated, and then filled. -/
def put (p : RtcpPacket) (bytes : Bytes) : Except Stop RtcpPacket := do
  let p' ← p.allocData bytes.length
  p'.write p.getTotalUsage bytes

end RtcpPacket

/-! ### What is sent -/

namespace NtpTime

def getMs (t : NtpTime) : Nat := t.seconds.toNat * 1000 + t.fractional.toNat / 4294967

/-- `operator>`. -/
def later (t t' : NtpTime) : Bool :=
  if t.seconds = t'.seconds then t'.fractional < t.fractional else t'.seconds < t.seconds

end NtpTime

/-- What an `RtpReceiver` tells of its source. -/
structure Reception where
  ssrc : UInt32
  probation : Int
  seedSeq : UInt32
  realPrevSeqRecv : UInt16
  recv_cycles : UInt32
  packetReceived : UInt32
  jitter : Int

/-- What is used of an `RtpTransmitter`. -/
structure RtpTransmitter where
  ssrc : UInt32
  rtpTime : UInt32
  packetSent : UInt32
  payloadSent : UInt32

/-- The setters of the texts assert their lengths. -/
structure RtcpTransmitter where
  tran : Option RtpTransmitter
  /-- The texts as they are without the zero behind them. -/
  SDESInfo : SDESdata
  /-- The table of the RTCP receiver, in the order of the sources. -/
  tranInfoList : List (RtpTranInfo Reception)
  length_lt : ∀ text, (SDESInfo text).length < 255
  zero_notMem : ∀ text, 0 ∉ SDESInfo text

/-- A header before its length is known. -/
def header (count : Nat) (type : UInt8) : Bytes := [.ofNat (RTP_VERSION * 2 ^ 6 + count % 2 ^ 5), type, 0, 0]

/-- The length field of a packet that starts at `head` and goes to the end. -/
def writeLength (p : RtcpPacket) (head : Nat) : Except Stop RtcpPacket :=
  p.write (head + 2) (ofWord16 (.ofNat ((p.getTotalUsage - head) / 4 - 1)))

def senderInfo (tran : RtpTransmitter) (now : NtpTime) : Bytes :=
  ofWord32 tran.ssrc ++ ofWord32 now.seconds ++ ofWord32 now.fractional ++ ofWord32 tran.rtpTime ++
    ofWord32 tran.packetSent ++ ofWord32 tran.payloadSent

/-- The number of packets that `calcLostFrac` and `calcLostCount` expect by now. -/
def expected (r : Reception) : UInt32 := r.recv_cycles + r.realPrevSeqRecv.toUInt32 - r.seedSeq + 1

def calcLostFrac (s : RtpTranInfo Reception) (r : Reception) : UInt32 × RtpTranInfo Reception :=
  let expected_interval := expected r - s.expectedPrior
  let received_interval := r.packetReceived - s.receivedPrior
  let lost_interval := expected_interval - received_interval
  let fraction : UInt32 :=
    if expected_interval = 0 ∨ lost_interval ≤ 0 then 0 else (lost_interval <<< 8) / expected_interval
  (fraction, { s with expectedPrior := expected r, receivedPrior := r.packetReceived })

def calcLostCount (r : Reception) : UInt32 := expected r - r.packetReceived

def lastSRDelay (now : NtpTime) (s : RtpTranInfo Reception) : UInt32 :=
  if s.lastSRTimestamp = 0 then 0
  else if now.later s.recvLastSRTimestamp then
    .ofInt ((now.getMs : Int) - s.recvLastSRTimestamp.getMs) * 65
  else 0

def reportBlock (now : NtpTime) (s : RtpTranInfo Reception) (r : Reception) : Bytes :=
  let lost := (calcLostCount r).toNat
  ofWord32 r.ssrc ++
    [.ofNat (calcLostFrac s r).1.toNat, .ofNat (lost / 2 ^ 16), .ofNat (lost / 2 ^ 8), .ofNat lost] ++
    ofWord16 (.ofNat r.recv_cycles.toNat) ++ ofWord16 r.realPrevSeqRecv ++ ofWord32 (.ofInt (r.jitter / 2 ^ 4)) ++
    ofWord32 s.lastSRTimestamp ++ ofWord32 (lastSRDelay now s)

namespace RtcpTransmitter

/-- What is reported of an entry of the table: nothing without a receiver or on probation. -/
def reportable (s : RtpTranInfo Reception) : Option Reception := s.recv.filter (0 ≤ ·.probation)

/-- The loop over the table. Each block is counted in the header. -/
def addReports (now : NtpTime) (head : Nat) :
    Nat → List (RtpTranInfo Reception) → RtcpPacket → Except Stop (RtcpPacket × List (RtpTranInfo Reception))
  | _, [], p => .ok (p, [])
  | count, s :: rest, p =>
    match reportable s with
    | none => do
      let (p, rest) ← addReports now head count rest p
      return (p, s :: rest)
    | some r => do
      let p ← p.put (reportBlock now s r)
      let p ← p.write head ((header (count + 1) 0).take 1)
      let (p, rest) ← addReports now head (count + 1) rest p
      return (p, (calcLostFrac s r).2 :: rest)

def addSR (t : RtcpTransmitter) (now : NtpTime) (p : RtcpPacket) :
    Except Stop (RtcpPacket × List (RtpTranInfo Reception)) := do
  let head := p.getTotalUsage
  let p ← p.put (header 0 (if t.tran.isSome then rtcpTypeSR else rtcpTypeRR))
  let p ← p.put (match t.tran with
    | some tran => senderInfo tran now
    | none => ofWord32 0)
  let (p, tranInfoList) ← addReports now head 0 t.tranInfoList p
  if (p.getTotalUsage - head) % 4 = 0 then
    let p ← writeLength p head
    return (p, tranInfoList)
  else .error .assertion

/-- The texts in the order of their items. -/
def texts : List SdesText := [.cname, .name, .email, .phone, .loc, .tool, .note]

/-- One item. `cpy_str` writes the text before it is allocated. -/
def addItem (type : UInt8) (text : Bytes) (p : RtcpPacket) : Except Stop RtcpPacket := do
  let item := p.getTotalUsage
  let length : UInt8 := .ofNat text.length
  let p ← p.allocData 2
  let p ← p.write (item + 2) text
  let p ← p.write (item + 1) [length]
  let p ← p.write item [type]
  p.allocData length.toNat

def addItems : List (SdesText × Bytes) → RtcpPacket → Except Stop RtcpPacket
  | [], p => .ok p
  | (text, bytes) :: items, p => do
    let p ← addItem text.type bytes p
    addItems items p

/-- Ends a packet on a count of 32 bits. -/
def pad (head : Nat) (p : RtcpPacket) : Except Stop RtcpPacket :=
  let usage := p.getTotalUsage - head
  if usage % 4 = 0 then .ok p else p.allocData (4 - usage % 4)

/-- A packet from its header to the end of its padding. -/
def framed (count : Nat) (type : UInt8) (body : RtcpPacket → Except Stop RtcpPacket) (p : RtcpPacket) :
    Except Stop RtcpPacket := do
  let head := p.getTotalUsage
  let p ← p.put (header count type)
  let p ← body p
  let p ← pad head p
  writeLength p head

/-- The items of the texts that are not empty. -/
def items (t : RtcpTransmitter) : List (SdesText × Bytes) :=
  (texts.filter fun text => t.SDESInfo text ≠ []).map fun text => (text, t.SDESInfo text)

/-- The chunk of a source. -/
def addChunk (ssrc : UInt32) (items : List (SdesText × Bytes)) (p : RtcpPacket) : Except Stop RtcpPacket := do
  let p ← p.put (ofWord32 ssrc)
  let p ← addItems items p
  p.put [0, 0]

/-- `addSDES` for all texts. -/
def addSDES (t : RtcpTransmitter) (p : RtcpPacket) : Except Stop RtcpPacket :=
  match t.tran with
  | none => .ok p
  | some tran => framed 1 rtcpTypeSDES (addChunk tran.ssrc t.items) p

/-- The reason to leave; its text is written before it is allocated. -/
def addReason (text : Bytes) (p : RtcpPacket) : Except Stop RtcpPacket := do
  let byeReason := p.getTotalUsage
  let length : UInt8 := .ofNat text.length
  let p ← p.allocData 1
  let p ← p.write byeReason [length]
  let p ← p.write (byeReason + 1) (text.take length.toNat)
  p.allocData length.toNat

/-- The source that leaves, and why. -/
def addLeaving (ssrc : UInt32) (reason : Option Bytes) (p : RtcpPacket) : Except Stop RtcpPacket := do
  let p ← p.put (ofWord32 ssrc)
  match reason with
  | some text => addReason text p
  | none => .ok p

def addBYE (t : RtcpTransmitter) (reason : Option Bytes) (p : RtcpPacket) : Except Stop RtcpPacket :=
  match t.tran with
  | none => .ok p
  | some tran => framed 1 rtcpTypeBYE (addLeaving tran.ssrc reason) p

/-- A BYE if the source leaves. -/
def addGoodbye (t : RtcpTransmitter) (bye : Option (Option Bytes)) (p : RtcpPacket) : Except Stop RtcpPacket :=
  match bye with
  | some reason => t.addBYE reason p
  | none => .ok p

/-- A compound packet of `addSR`, `addSDES` and, for a source that leaves, `addBYE`. `transmitRTCP` makes it without a BYE;
of the texts `transmitRTCPBYE` adds the CNAME alone. -/
def compound (t : RtcpTransmitter) (now : NtpTime) (bye : Option (Option Bytes)) : Except Stop RtcpPacket := do
  let (p, _) ← t.addSR now .empty
  let p ← t.addSDES p
  t.addGoodbye bye p

end RtcpTransmitter

end Vocal.Rtcp
