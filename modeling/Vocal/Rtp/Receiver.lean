import Vocal.Rtcp.Receiver
import Vocal.Rtp.JitterBuffer

/-!
# The RTP receiver

`RtpReceiver` from the datagram on: `getPacket` and `readNetwork`, the events of the telephone keys, the source that it
listens to and its entry in the table of the RTCP receiver. What `readNetwork` does with a packet that has passed all
checks is the part `buffer`. The statistics of delays are left out.
-/

namespace Vocal.Rtp

open Bytes
open Rtcp (Stop access RtcpReceiver)

/-! ### Packets as they come -/

def RTP_VERSION : Nat := 2

def rtpPayloadPCMU : Nat := 0
def rtpPayloadL16_mono : Nat := 11
def rtpPayloadPCMU_static : Nat := 13
def rtpPayloadCN : Nat := 19
def rtpPayloadDTMF_RFC2833 : Nat := 100
def rtpPayloadCiscoRtp : Nat := 121

/-- The header without the list of contributing sources. -/
def RTP_HEADER : Nat := 12

/-- `packetAlloc` of the packet that the receiver reads into. -/
def packetAlloc : Nat := RTP_HEADER + 1024

def version (b : UInt8) : Nat := b.toNat / 2 ^ 6
def count (b : UInt8) : Nat := b.toNat % 2 ^ 4
def payloadType (b : UInt8) : Nat := b.toNat % 2 ^ 7

/-- The place behind the list of contributing sources. -/
def headerSize (b : UInt8) : Nat := RTP_HEADER + 4 * count b

def getPayloadType (d : Bytes) : Except Stop Nat := do
  let b ← access (byteAt d 1)
  return payloadType b

/-- `setPayloadType`, which keeps the marker. -/
def setPayloadType (d : Bytes) (type : Nat) : Bytes := d.modify 1 fun b => .ofNat (b.toNat / 2 ^ 7 * 2 ^ 7 + type)

def getSequence (d : Bytes) : Except Stop UInt16 := access (word16At d 2)

def getRtpTime (d : Bytes) : Except Stop UInt32 := access (word32At d 4)

def getSSRC (d : Bytes) : Except Stop UInt32 := access (word32At d 8)

def getPayloadLoc (d : Bytes) : Except Stop Nat := do
  let b ← access (byteAt d 0)
  return headerSize b

def getPayloadSize (d : Bytes) : Except Stop Int := do
  let b ← access (byteAt d 0)
  return packetAlloc - headerSize b

/-- `unusedSize` is what the datagram leaves of the packet. -/
def getPayloadUsage (d : Bytes) : Except Stop Int := do
  let size ← getPayloadSize d
  return size - (packetAlloc - d.length)

/-- `isValid`, with the packet as it leaves it. -/
def isValid (d : Bytes) : Except Stop (Bool × Bytes) := do
  if d.length = 0 then return (false, d)
  else
    let b ← access (byteAt d 0)
    if version b ≠ RTP_VERSION then return (false, d)
    else
      let type ← getPayloadType d
      if type = rtpPayloadPCMU_static then return (true, setPayloadType d rtpPayloadPCMU)
      else return (true, d)

/-- Swaps the bytes of samples of two bytes; behind an odd one lies the cleared memory of the packet. -/
def swapBytes : Bytes → Bytes
  | a :: b :: rest => b :: a :: swapBytes rest
  | [_] => [0]
  | [] => []

def rtp_ntohl (type : Nat) (payload : Bytes) : Bytes :=
  if type = rtpPayloadL16_mono then swapBytes payload else payload

/-- What `readNetwork` takes from a packet. -/
def toPacket (d : Bytes) : Except Stop RtpPacket := do
  let type ← getPayloadType d
  let loc ← getPayloadLoc d
  let sequence ← getSequence d
  let rtpTime ← getRtpTime d
  return { payload := rtp_ntohl type (d.drop loc), sequence := sequence, rtpTime := rtpTime }

/-! ### Events -/

inductive DTMFEvent
  | null
  | digit0
  | digit1
  | digit2
  | digit3
  | digit4
  | digit5
  | digit6
  | digit7
  | digit8
  | digit9
  | digitStar
  | digitHash
  deriving DecidableEq, Repr

inductive KeyEvent
  | null
  | on
  | edge
  | off
  deriving DecidableEq, Repr

def DTMFToEvent : Nat → DTMFEvent
  | 0 => .digit0
  | 1 => .digit1
  | 2 => .digit2
  | 3 => .digit3
  | 4 => .digit4
  | 5 => .digit5
  | 6 => .digit6
  | 7 => .digit7
  | 8 => .digit8
  | 9 => .digit9
  | 10 => .digitStar
  | 11 => .digitHash
  | _ => .null

/-- `RtpEventReceiver`, with what the interface was sent. -/
structure RtpEventReceiver where
  /-- Whether there is an interface. -/
  DTMFInterface : Bool := false
  keyEvent : KeyEvent := .null
  DTMFEvent : Rtp.DTMFEvent := .null
  sent : List (Rtp.DTMFEvent × Nat) := []
  deriving DecidableEq, Repr

namespace RtpEventReceiver

def sendToDTMFInterface (e : RtpEventReceiver) (event : Rtp.DTMFEvent) (duration : Nat) : RtpEventReceiver :=
  if e.DTMFInterface then { e with sent := e.sent ++ [(event, duration)] } else e

/-- `RtpEventDTMFRFC2833::edge`. -/
def edge (b : UInt8) : Bool := b.toNat / 2 ^ 7 = 1

/-- A duration is in the order of the host, a little-endian one. -/
def recvEventRFC2833 (e : RtpEventReceiver) (d : Bytes) : Except Stop RtpEventReceiver := do
  let usage ← getPayloadUsage d
  if usage = 0 then throw .assertion
  else
    let loc ← getPayloadLoc d
    let flags ← access (byteAt d (loc + 1))
    if edge flags then
      if e.keyEvent = .on then
        let low ← access (byteAt d (loc + 2))
        let high ← access (byteAt d (loc + 3))
        return { e.sendToDTMFInterface e.DTMFEvent (low.toNat + 2 ^ 8 * high.toNat) with keyEvent := .null }
      else return e
    else if e.keyEvent = .null then
      let event ← access (byteAt d loc)
      return { e with keyEvent := .on, DTMFEvent := DTMFToEvent event.toNat }
    else return e

/-- `RtpEventDTMFCiscoRtp::digitType` and the `edge` that shares its byte. -/
def digitType (b : UInt8) : Nat := b.toNat / 2 ^ 5
def digitEdge (b : UInt8) : Nat := b.toNat % 2 ^ 5
def digitCode (b : UInt8) : Nat := b.toNat % 2 ^ 5

def recvEventCiscoRTP (e : RtpEventReceiver) (d : Bytes) : Except Stop RtpEventReceiver := do
  let loc ← getPayloadLoc d
  let b ← access (byteAt d (loc + 2))
  if e.keyEvent ≠ .on ∧ digitType b = 1 then
    let code ← access (byteAt d (loc + 3))
    return { e with keyEvent := .on, DTMFEvent := DTMFToEvent (digitCode code) }
  else if e.keyEvent = .on ∧ digitType b = 0 ∧ digitEdge b = 0 then
    return { e.sendToDTMFInterface e.DTMFEvent 20 with keyEvent := .null }
  else return e

def recvEvent (e : RtpEventReceiver) (type : Nat) (d : Bytes) : Except Stop RtpEventReceiver :=
  if !e.DTMFInterface then .ok e
  else if type = rtpPayloadDTMF_RFC2833 then e.recvEventRFC2833 d
  else if type = rtpPayloadCiscoRtp then e.recvEventCiscoRTP d
  else .ok e

end RtpEventReceiver

/-! ### The source -/

/-- `RtpReceiver` as a whole. -/
structure Receiver (n : Nat) where
  buffer : RtpReceiver n
  format : Nat
  events : RtpEventReceiver := {}
  sourceSet : Bool := false
  ssrc : UInt32 := 0
  probationSet : Bool := false
  srcProbation : UInt32 := 0
  probation : Int := -2
  realPrevSeqRecv : UInt16 := 0
  recv_cycles : UInt32 := 0
  rtcpRecv : Option (RtcpReceiver Unit)

namespace Receiver

variable {n : Nat}

/-- `removeSource`; a call from the RTCP receiver has the flag. -/
def removeSource (s : Receiver n) (src : UInt32) (flag : Bool) : Except Stop (Receiver n) :=
  let s := { s with probationSet := true, srcProbation := src, sourceSet := false, ssrc := 0, probation := -2 }
  match s.rtcpRecv with
  | none => .ok s
  | some rtcp =>
    if flag then .ok s
    else do
      let rtcp ← rtcp.removeTranInfo src true
      return { s with rtcpRecv := some rtcp }

/-- Tells the RTCP receiver about the source. -/
def addTranInfo (s : Receiver n) : Except Stop (Receiver n) :=
  match s.rtcpRecv with
  | none => .ok s
  | some rtcp => do
    let rtcp ← rtcp.addTranInfo s.ssrc ()
    return { s with rtcpRecv := some rtcp }

/-- `initSource`. The seeds that it reads are for the statistics. -/
def initSource (s : Receiver n) (d : Bytes) : Except Stop (Receiver n) := do
  let src ← getSSRC d
  if s.ssrc ≠ src then throw .assertion
  else
    let _ ← getSequence d
    let _ ← getRtpTime d
    return { s with buffer := s.buffer.clearJitterBuffer }

/-- The new source of `addSource`. -/
def setSource (s : Receiver n) (src : UInt32) : Receiver n :=
  { s with sourceSet := true, ssrc := src, probation := 0, realPrevSeqRecv := 0, recv_cycles := 0 }

/-- `addSource`; it tells whether the packet is refused. -/
def addSource (s : Receiver n) (d : Bytes) : Except Stop (Bool × Receiver n) := do
  let src ← getSSRC d
  if s.sourceSet ∧ s.probation < 4 then return (true, { s with probation := s.probation + 1 })
  else
    let s ← if s.sourceSet then s.removeSource s.ssrc false else .ok s
    if s.sourceSet ∧ src = s.srcProbation ∧ s.probationSet then return (true, s)
    else
      let s ← (s.setSource src).addTranInfo
      let s ← s.initSource d
      return (false, s)

/-- Counts a cycle when the numbers start again. -/
def checkCycle (s : Receiver n) (ts : UInt16) : Receiver n :=
  { s with
    realPrevSeqRecv := ts
    recv_cycles :=
      if ts < s.realPrevSeqRecv ∧ ts.toNat + 10000 < s.realPrevSeqRecv.toNat then s.recv_cycles + 1
      else s.recv_cycles }

/-- The last part of `updateSource`, for a packet of the source. -/
def checkPacket (s : Receiver n) (d : Bytes) : Except Stop (Bool × Receiver n) := do
  let ts ← getSequence d
  let s := s.checkCycle ts
  if s.probation < 0 then throw .assertion
  else
    let type ← getPayloadType d
    if type = rtpPayloadCN ∨ type = rtpPayloadPCMU_static then return (true, s)
    else if type ≠ s.format then
      let s ← s.initSource d
      return (false, s)
    else return (false, s)

/-- `updateSource`; it tells whether the packet is refused. -/
def updateSource (s : Receiver n) (d : Bytes) : Except Stop (Bool × Receiver n) := do
  let src ← getSSRC d
  if s.sourceSet ∧ src = s.srcProbation ∧ s.probationSet then return (true, s)
  else
    let (refused, s) ← if !s.sourceSet ∨ src ≠ s.ssrc then s.addSource d else .ok (false, s)
    if refused then return (true, s) else s.checkPacket d

/-! ### Packets -/

def EINVAL : Int := 22

/-- The payload types of events. -/
def IsEvent (type : Nat) : Prop := type = rtpPayloadDTMF_RFC2833 ∨ type = rtpPayloadCiscoRtp

instance (type : Nat) : Decidable (IsEvent type) := inferInstanceAs (Decidable (_ ∨ _))

/-- `getPacket` for a datagram, which is cut off at the end of the packet. -/
def getPacket (s : Receiver n) (datagram : Bytes) : Except Stop (Int × Bytes × Receiver n) := do
  let d := datagram.take packetAlloc
  let len : Int := d.length
  if len = 0 then return (0, d, s)
  else
    let (valid, d) ← isValid d
    if !valid then return (-EINVAL, d, s)
    else
      let type ← getPayloadType d
      if IsEvent type then
        if s.events.DTMFInterface then
          let events ← s.events.recvEvent type d
          return (0, d, { s with events := events })
        else return (len, d, s)
      else
        let (refused, s) ← s.updateSource d
        return (if refused then -EINVAL else len, d, s)

/-- The last part of `readNetwork`, for a packet that `getPacket` takes. -/
def store (s : Receiver n) (d : Bytes) : Except Stop (Int × Receiver n) := do
  if s.probation < 0 then return (-1, s)
  else
    let len ← getPayloadUsage d
    if len ≤ 0 ∨ 1012 < len then return (-2, s)
    else
      let pkt ← toPacket d
      let buffer := s.buffer.readNetwork pkt
      if buffer.verifyJbSanity then return (0, { s with buffer := buffer }) else throw .assertion

def readNetwork (s : Receiver n) (datagram : Bytes) : Except Stop (Int × Receiver n) := do
  let (rv, d, s) ← s.getPacket datagram
  if rv ≤ 0 then return (rv, s) else s.store d

/-! ### Runs -/

/-- `retrieve`. Its own assertions are those of the buffer. -/
def retrieve (s : Receiver n) : Except Stop (Receiver n) :=
  match s.buffer.retrieve with
  | none => .error .assertion
  | some (buffer, jbp) => .ok
    { s with
      buffer := buffer
      probation := if jbp.isSome ∧ 0 < s.probation then s.probation - 1 else s.probation }

/-- `removeSource`, called for the entries that the RTCP receiver has taken out. -/
def removeSources (s : Receiver n) : List (Rtcp.RtpTranInfo Unit) → Except Stop (Receiver n)
  | [] => .ok s
  | info :: removed => do
    let s ← if info.recv.isSome then s.removeSource info.ssrc true else .ok s
    s.removeSources removed

/-- `readRTCP` of the RTCP receiver for a packet that is valid. -/
def readRTCP (s : Receiver n) (now : Rtcp.NtpTime) (p : Rtcp.RtcpPacket) : Except Stop (Receiver n) :=
  match s.rtcpRecv with
  | none => .ok s
  | some rtcp =>
    if p.isValid then do
      let (_, rtcp) ← { rtcp with removed := [] }.readRTCP now p
      { s with rtcpRecv := some rtcp }.removeSources rtcp.removed
    else .ok s

/-- What can happen to a receiver. -/
inductive Op
  | network (datagram : Bytes)
  | retrieve
  | rtcp (now : Rtcp.NtpTime) (p : Rtcp.RtcpPacket)
  | setDTMFInterface (set : Bool)
  | setFormat (format : Nat) (sampleSize : UInt32)

def step (s : Receiver n) : Op → Except Stop (Receiver n)
  | .network datagram => do
    let (_, s) ← s.readNetwork datagram
    return s
  | .retrieve => s.retrieve
  | .rtcp now p => s.readRTCP now p
  | .setDTMFInterface set => .ok { s with events := { s.events with DTMFInterface := set } }
  | .setFormat format sampleSize => .ok { s with format := format, buffer := { s.buffer with sampleSize := sampleSize } }

/-- `constructRtpReceiver`, with the RTCP receiver of the session. -/
def constructRtpReceiver (hn : 0 < n) (format : Nat) (sampleSize : UInt32) (rtcpRecv : Option (RtcpReceiver Unit)) :
    Receiver n where
  buffer := { inPos := ⟨0, hn⟩, playPos := ⟨0, hn⟩, jitterBuffer := fun _ => none, sampleSize := sampleSize }
  format := format
  rtcpRecv := rtcpRecv

/-- The states that a receiver can come to. The RTCP receiver may know sources before, but no receiver of them. -/
inductive Reachable : Receiver n → Prop
  | construct {hn : 0 < n} {format : Nat} {sampleSize : UInt32} {rtcpRecv : Option (RtcpReceiver Unit)} :
      (∀ rtcp ∈ rtcpRecv, ∀ src, ∀ info ∈ rtcp.tranInfoList src, info.recv = none) →
      Reachable (constructRtpReceiver hn format sampleSize rtcpRecv)
  | step {s s' : Receiver n} (op : Op) : Reachable s → s.step op = .ok s' → Reachable s'

end Receiver

end Vocal.Rtp
