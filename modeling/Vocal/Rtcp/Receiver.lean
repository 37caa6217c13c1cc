import Mathlib.Logic.Function.Basic
import Vocal.Lib.Bytes

/-!
# The RTCP receiver

`RtcpReceiver::isValid` and `readRTCP` with the readers of the packets that a datagram is made of, and the table of the
known sources. A failed assertion, a read behind the datagram and a loop that does not come to its end have outcomes of
their own. The statistics of the delays are left out.
-/

namespace Vocal.Rtcp

open Bytes

/-! ### Packets -/

def RTP_VERSION : Nat := 2

def RTCP_PACKETSIZE : Nat := 2048

def rtcpTypeSR : UInt8 := 200
def rtcpTypeRR : UInt8 := 201
def rtcpTypeSDES : UInt8 := 202
def rtcpTypeBYE : UInt8 := 203
def rtcpTypeAPP : UInt8 := 204

structure RtcpPacket where
  packetData : Octets RTCP_PACKETSIZE
  unusedSize : Nat
  unused_le : unusedSize ≤ RTCP_PACKETSIZE

def RtcpPacket.getTotalUsage (p : RtcpPacket) : Nat := RTCP_PACKETSIZE - p.unusedSize

/-- The bytes in use. -/
def RtcpPacket.datagram (p : RtcpPacket) : Bytes := p.packetData.1.take p.getTotalUsage

/-- A packet into which a datagram was received. -/
def RtcpPacket.received (d : Bytes) (h : d.length ≤ RTCP_PACKETSIZE) : RtcpPacket where
  packetData := Octets.padded RTCP_PACKETSIZE d h
  unusedSize := RTCP_PACKETSIZE - d.length
  unused_le := Nat.sub_le ..

/-- `RtcpHeader::version`, with the two fields that share its byte. -/
def version (b : UInt8) : Nat := b.toNat / 2 ^ 6
def padding (b : UInt8) : Bool := b.toNat / 2 ^ 5 % 2 = 1
def count (b : UInt8) : Nat := b.toNat % 2 ^ 5

/-- The place behind a packet of this length. -/
def nextPacket (head : Nat) (length : UInt16) : Nat := head + (length.toNat + 1) * 4

/-- The loop of `isValid` over the headers; a turn moves on by four bytes at least. -/
def headersEnd (d : Bytes) : Nat → Nat → Nat
  | 0, head => head
  | turns + 1, head =>
    if head + 4 ≤ d.length ∧ (byteAt d head).any (version · = RTP_VERSION) then
      headersEnd d turns (nextPacket head ((word16At d (head + 2)).getD 0))
    else head

/-- `isValid`. The first header is read even from an empty packet. -/
def RtcpPacket.isValid (p : RtcpPacket) : Bool :=
  (byteAt p.packetData.1 1).any (fun type => type = rtcpTypeSR ∨ type = rtcpTypeRR) &&
    (byteAt p.packetData.1 0).all (!padding ·) &&
    headersEnd p.datagram p.getTotalUsage 0 = p.getTotalUsage

/-! ### Known sources -/

structure NtpTime where
  seconds : UInt32
  fractional : UInt32
  deriving DecidableEq, Repr

/-- The texts of an SDES packet. -/
inductive SdesText
  | cname
  | name
  | email
  | phone
  | loc
  | tool
  | note
  deriving DecidableEq, Repr

/-- The values of `RtcpSDESType` for the texts. -/
def SdesText.type : SdesText → UInt8
  | cname => 1
  | name => 2
  | email => 3
  | phone => 4
  | loc => 5
  | tool => 6
  | note => 7

def SdesText.ofType : UInt8 → Option SdesText
  | 1 => some cname
  | 2 => some name
  | 3 => some email
  | 4 => some phone
  | 5 => some loc
  | 6 => some tool
  | 7 => some note
  | _ => none

/-- `SDESdata`: an array for each text. -/
abbrev SDESdata := SdesText → Bytes

/-- `RtpTranInfo`; `ρ` is what is known of a receiver. -/
structure RtpTranInfo (ρ : Type) where
  ssrc : UInt32
  recv : Option ρ := none
  expectedPrior : UInt32 := 0
  receivedPrior : UInt32 := 0
  SDESInfo : SDESdata := fun _ => List.replicate 256 0
  lastSRTimestamp : UInt32 := 0
  recvLastSRTimestamp : NtpTime := ⟨0, 0⟩

structure RtcpReceiver (ρ : Type) where
  tranInfoList : UInt32 → Option (RtpTranInfo ρ)
  /-- The entries that were taken out without the flag; `removeSource` of their receivers was called. -/
  removed : List (RtpTranInfo ρ) := []

/-- Why a function does not come to its end. -/
inductive Stop
  | assertion
  /-- A byte behind the datagram is read. -/
  | beyond
  /-- A byte behind the packet is written. -/
  | overrun
  /-- A loop is not at its end. -/
  | endless
  deriving DecidableEq, Repr

/-- A read that is behind the datagram when it gives nothing. -/
def access {α : Type} : Option α → Except Stop α
  | some a => .ok a
  | none => .error .beyond

namespace RtcpReceiver

variable {ρ : Type}

/-- `addTranInfo` for a receiver, which must not find one in the table. -/
def addTranInfo (s : RtcpReceiver ρ) (src : UInt32) (recv : ρ) : Except Stop (RtcpReceiver ρ) :=
  match s.tranInfoList src with
  | none => .ok { s with tranInfoList := Function.update s.tranInfoList src (some { ssrc := src, recv := some recv }) }
  | some info =>
    if info.recv.isNone then
      .ok { s with tranInfoList := Function.update s.tranInfoList src (some { info with recv := some recv }) }
    else .error .assertion

/-- `findTranInfo`, which adds a source that is not known, and a change of what it finds. -/
def modifyTranInfo (s : RtcpReceiver ρ) (src : UInt32) (f : RtpTranInfo ρ → RtpTranInfo ρ) : RtcpReceiver ρ :=
  { s with tranInfoList := Function.update s.tranInfoList src (some (f ((s.tranInfoList src).getD { ssrc := src }))) }

def removeTranInfo (s : RtcpReceiver ρ) (src : UInt32) (flag : Bool) : Except Stop (RtcpReceiver ρ) :=
  match s.tranInfoList src with
  | none => .error .assertion
  | some info => .ok
    { tranInfoList := Function.update s.tranInfoList src none
      removed := if flag then s.removed else s.removed ++ [info] }

/-! ### The readers -/

/-- The report blocks. Only the last two words of each are used. -/
def readReports (d : Bytes) : Nat → Nat → Except Stop Unit
  | 0, _ => .ok ()
  | blocks + 1, block => do
    let _ ← access (word32At d (block + 16))
    let _ ← access (word32At d (block + 20))
    readReports d blocks (block + 24)

/-- What a source keeps of its report. -/
def stampSR (now : NtpTime) (ntpTimeSec ntpTimeFrac : UInt32) (info : RtpTranInfo ρ) : RtpTranInfo ρ :=
  { info with
    lastSRTimestamp := ntpTimeSec <<< 16 ||| (ntpTimeFrac >>> 16 &&& 0xFFFF)
    recvLastSRTimestamp := now }

def readSR (now : NtpTime) (d : Bytes) (head : Nat) (s : RtcpReceiver ρ) : Except Stop (RtcpReceiver ρ) := do
  let type ← access (byteAt d (head + 1))
  let blocks ← access (byteAt d head)
  if type = rtcpTypeSR then
    let ssrc ← access (word32At d (head + 4))
    let ntpTimeSec ← access (word32At d (head + 8))
    let ntpTimeFrac ← access (word32At d (head + 12))
    readReports d (count blocks) (head + 28)
    return s.modifyTranInfo ssrc (stampSR now ntpTimeSec ntpTimeFrac)
  else
    readReports d (count blocks) (head + 8)
    return s

/-- The bytes that `strncpy` takes: up to a zero, `n` at most. -/
def copied (src : Bytes) (n : Nat) : Option Bytes :=
  if n ≤ src.length ∨ 0 ∈ src then some ((src.take n).takeWhile (· ≠ 0)) else none

/-- `strncpy`, which fills up with zeros. A length is below 256, so that it stays within the arrays. -/
def strncpy (dst text : Bytes) (n : Nat) : Bytes := text ++ List.replicate (n - text.length) 0 ++ dst.drop n

def addSDESItem (d : Bytes) (src : UInt32) (item : Nat) (s : RtcpReceiver ρ) : Except Stop (RtcpReceiver ρ) := do
  let type ← access (byteAt d item)
  match SdesText.ofType type with
  | none => return s.modifyTranInfo src id
  | some text =>
    let length ← access (byteAt d (item + 1))
    let bytes ← access (copied (d.drop (item + 2)) (length.toNat + 1))
    return s.modifyTranInfo src fun info =>
      { info with SDESInfo :=
          Function.update info.SDESInfo text (strncpy (info.SDESInfo text) bytes (length.toNat + 1)) }

/-- The items of a chunk, up to the one of type zero. -/
def readItems (d : Bytes) (ssrc : UInt32) : Nat → Nat → RtcpReceiver ρ → Except Stop (Nat × RtcpReceiver ρ)
  | 0, _, _ => .error .endless
  | turns + 1, item, s => do
    let type ← access (byteAt d item)
    if type = 0 then return (item, s)
    else
      let s ← addSDESItem d ssrc item s
      let length ← access (byteAt d (item + 1))
      readItems d ssrc turns (item + 2 + length.toNat) s

/-- The chunks. The next one starts at the item that ends this one. -/
def readChunks (d : Bytes) (turns : Nat) : Nat → Nat → RtcpReceiver ρ → Except Stop (RtcpReceiver ρ)
  | 0, _, s => .ok s
  | chunks + 1, middle, s => do
    let ssrc ← access (word32At d middle)
    let (item, s) ← readItems d ssrc turns (middle + 4) s
    readChunks d turns chunks item s

def readSDES (d : Bytes) (turns head : Nat) (s : RtcpReceiver ρ) : Except Stop (RtcpReceiver ρ) := do
  let chunks ← access (byteAt d head)
  readChunks d turns (count chunks) (head + 4) s

/-- The sources that leave. -/
def readSources (d : Bytes) : Nat → Nat → RtcpReceiver ρ → Except Stop (RtcpReceiver ρ)
  | 0, _, s => .ok s
  | sources + 1, src, s => do
    let ssrc ← access (word32At d src)
    let s ← s.removeTranInfo ssrc false
    readSources d sources (src + 4) s

def readBYE (d : Bytes) (head : Nat) (s : RtcpReceiver ρ) : Except Stop (RtcpReceiver ρ) := do
  let sources ← access (byteAt d head)
  readSources d (count sources) (head + 4) s

def readAPP : Except Stop (RtcpReceiver ρ) := .error .assertion

/-- One turn of `readRTCP`, for the packet of this header. -/
def readPacket (now : NtpTime) (d : Bytes) (turns head : Nat) (type : UInt8) (s : RtcpReceiver ρ) :
    Except Stop (RtcpReceiver ρ) :=
  if type = rtcpTypeSR ∨ type = rtcpTypeRR then readSR now d head s
  else if type = rtcpTypeSDES then readSDES d turns head s
  else if type = rtcpTypeBYE then readBYE d head s
  else if type = rtcpTypeAPP then readAPP
  else .ok s

/-- The loop of `readRTCP`; `ret` tells whether somebody left. -/
def readPackets (now : NtpTime) (d : Bytes) (turns : Nat) :
    Nat → Nat → Int → RtcpReceiver ρ → Except Stop (Int × RtcpReceiver ρ)
  | 0, _, _, _ => .error .endless
  | packets + 1, head, ret, s =>
    if head < d.length then do
      let type ← access (byteAt d (head + 1))
      let s ← readPacket now d turns head type s
      let length ← access (word16At d (head + 2))
      readPackets now d turns packets (nextPacket head length) (if type = rtcpTypeBYE then 1 else ret) s
    else .ok (ret, s)

/-- `readRTCP`. Every turn of its loops takes a byte at least. -/
def readRTCP (now : NtpTime) (p : RtcpPacket) (s : RtcpReceiver ρ) : Except Stop (Int × RtcpReceiver ρ) :=
  readPackets now p.datagram (p.getTotalUsage + 1) (p.getTotalUsage + 1) 0 0 s

end RtcpReceiver

end Vocal.Rtcp
