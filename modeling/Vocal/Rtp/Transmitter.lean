import Vocal.Rtp.Receiver

/-!
# The RTP transmitter

`RtpTransmitter::transmitRaw` and `RtpSession::transmitEvent`, with the bytes that go out, and a call: a transmitter whose
datagrams reach a receiver in their order.
-/

namespace Vocal.Rtp

open Bytes
open Rtcp (Stop)

/-- An `RtpPacket` that is put together. Its payload is in the order of the network. -/
structure OutPacket where
  marker : Bool := false
  type : Nat
  sequence : UInt16 := 0
  timestamp : UInt32 := 0
  ssrc : UInt32
  payload : Bytes := []

/-- The second byte of the header. -/
def OutPacket.typeByte (p : OutPacket) : UInt8 := .ofNat (p.type + if p.marker then 2 ^ 7 else 0)

/-- The bytes in use. Packets have the version, no padding, no extension and no contributing source. -/
def OutPacket.datagram (p : OutPacket) : Bytes :=
  0x80 :: p.typeByte :: (ofWord16 p.sequence ++ (ofWord32 p.timestamp ++ (ofWord32 p.ssrc ++ p.payload)))

structure RtpTransmitter where
  ssrc : UInt32
  format : Nat
  sampleSize : UInt32
  prevRtpTime : UInt32
  prevSequence : UInt16
  markerOnce : Bool

namespace RtpTransmitter

/-- `transmit`, with the packet as it goes out. The packet keeps its marker when it is used again. -/
def transmit (t : RtpTransmitter) (p : OutPacket) (eventFlag : Bool) : RtpTransmitter × OutPacket :=
  let p := { p with
    timestamp := t.prevRtpTime + t.sampleSize
    sequence := t.prevSequence + 1
    marker := p.marker || t.markerOnce }
  let t := { t with
    markerOnce := false
    prevSequence := p.sequence
    prevRtpTime := if eventFlag then t.prevRtpTime else p.timestamp }
  (t, p)

def transmitRaw (t : RtpTransmitter) (data : Bytes) : RtpTransmitter × OutPacket :=
  t.transmit { type := t.format, ssrc := t.ssrc, payload := data } false

/-- `RtpEventDTMFRFC2833` as `transmitEvent` fills it; the duration is in the order of the host. -/
def eventPayload (event : Nat) (edge : Bool) : Bytes :=
  [.ofNat event, .ofNat (0x0A + if edge then 2 ^ 7 else 0), 0xA0, 0x00]

/-- `transmitEvent`: three packets, the last of them without a payload. -/
def transmitEvent (t : RtpTransmitter) (event : Nat) : RtpTransmitter × List OutPacket :=
  let eventPacket : OutPacket := { type := rtpPayloadDTMF_RFC2833, ssrc := t.ssrc, payload := eventPayload event false }
  let onedge := t.transmit eventPacket true
  let on := onedge.1.transmit { onedge.2 with payload := eventPayload event true } true
  let offedge := on.1.transmit { on.2 with payload := [] } true
  (offedge.1, [onedge.2, on.2, offedge.2])

end RtpTransmitter

/-! ### A call -/

/-- What happens in a call. -/
inductive CallOp
  | digit (event : Fin 12)
  | audio (data : Bytes)
  /-- The receiver plays. -/
  | retrieve

/-- A transmitter, and the receiver at the other end. -/
structure Call (n : Nat) where
  tran : RtpTransmitter
  recv : Receiver n

namespace Call

variable {n : Nat}

/-- Datagrams that arrive one after the other. -/
def arrive (s : Receiver n) : List Bytes → Except Stop (Receiver n)
  | [] => .ok s
  | datagram :: datagrams => do
    let (_, s) ← s.readNetwork datagram
    arrive s datagrams

def step (c : Call n) : CallOp → Except Stop (Call n)
  | .digit event => do
    let sent := c.tran.transmitEvent event
    let recv ← arrive c.recv (sent.2.map (·.datagram))
    return { tran := sent.1, recv := recv }
  | .audio data => do
    let sent := c.tran.transmitRaw data
    let recv ← arrive c.recv [sent.2.datagram]
    return { tran := sent.1, recv := recv }
  | .retrieve => do
    let recv ← c.recv.retrieve
    return { c with recv := recv }

def run (c : Call n) : List CallOp → Except Stop (Call n)
  | [] => .ok c
  | op :: ops => do
    let c ← c.step op
    c.run ops

/-- The digits that are sent. -/
def digits (ops : List CallOp) : List DTMFEvent :=
  ops.filterMap fun
    | .digit event => some (DTMFToEvent event)
    | .audio _ | .retrieve => none

/-- The receiver does not stop, and its interface gets the digits that were sent. -/
def Delivers (c : Call n) (ops : List CallOp) : Prop :=
  ∃ c', c.run ops = .ok c' ∧ c'.recv.events.sent.map Prod.fst = digits ops

/-- A call with a new receiver that has an interface. -/
def new (tran : RtpTransmitter) (hn : 0 < n) (format : Nat) (sampleSize : UInt32)
    (rtcpRecv : Option (Rtcp.RtcpReceiver Unit)) : Call n where
  tran := tran
  recv := { Receiver.constructRtpReceiver hn format sampleSize rtcpRecv with events := { DTMFInterface := true } }

end Call

end Vocal.Rtp
