import Vocal.Lib.Bytes
import Vocal.Lib.Slots

/-!
# The jitter buffer

The jitter buffer of `RtpReceiver`: `readNetwork` from the place where a packet has passed its checks,
`retrieve`, and what they call. The buffer has `cur_max_jbs` slots, a number from 1 to `JITTER_BUFFER_MAX` that is the
parameter `n` here. Where the source fails an assertion or reads through a null pointer there is no result.
-/

namespace Vocal.Rtp

/-! ### Sequence numbers and times -/

def RTP_SEQ_MOD : Nat := 2 ^ 16

def RTP_TIME_MOD : Nat := 2 ^ 32 - 1

/-- `a - b`, with wrapping taken into account. -/
def RtpSeqDifference (a b : UInt16) : Int :=
  if a = b then 0
  else if b.toNat < a.toNat then
    if RTP_SEQ_MOD / 2 < a.toNat - b.toNat then -((RTP_SEQ_MOD - a.toNat : Int) + b.toNat)
    else a.toNat - b.toNat
  else
    if RTP_SEQ_MOD / 2 < b.toNat - a.toNat then a.toNat + (RTP_SEQ_MOD - b.toNat : Int)
    else -(b.toNat - a.toNat : Int)

def RtpSeqGreater (a b : UInt16) : Bool := 0 < RtpSeqDifference a b

def RtpTimeGreater (a b : UInt32) : Bool :=
  if a = b then false
  else if b.toNat < a.toNat then
    if RTP_TIME_MOD / 2 < a.toNat - b.toNat then false else true
  else
    if RTP_TIME_MOD / 2 < b.toNat - a.toNat then true else false

/-! ### Data -/

/-- `RtpData`, a slot of the buffer. -/
structure RtpData where
  payload : Bytes := []
  is_silence_fill : Bool := false
  is_in_use : Bool := false
  rtp_seq_no : UInt16 := 0
  rtp_time : UInt32 := 0
  deriving DecidableEq

/-- A packet that was received, in host order. -/
structure RtpPacket where
  payload : Bytes
  sequence : UInt16
  rtpTime : UInt32
  deriving DecidableEq

/-- The most packets in a jitter buffer. -/
def JITTER_BUFFER_MAX : Nat := 1024

/-- The part of `RtpReceiver` that is the buffer; the slots are null until they are used. -/
structure RtpReceiver (n : Nat) where
  inPos : Fin n
  playPos : Fin n
  jitterBuffer : Fin n → Option RtpData
  sampleSize : UInt32

namespace RtpReceiver

variable {n : Nat}

/-! ### Positions -/

/-- `incrementInPos` and `incrementPlayPos`. -/
def incrementPos (pos : Fin n) : Fin n := if h : pos.val + 1 < n then ⟨pos.val + 1, h⟩ else ⟨0, pos.pos⟩

def incrementInPos (s : RtpReceiver n) : RtpReceiver n := { s with inPos := incrementPos s.inPos }

def incrementPlayPos (s : RtpReceiver n) : RtpReceiver n := { s with playPos := incrementPos s.playPos }

def calculatePreviousInPos (s : RtpReceiver n) (packets_ago : Nat) : Fin n :=
  have htmp : packets_ago % n < n := Nat.mod_lt _ s.inPos.pos
  have hpos := s.inPos.isLt
  if h : s.inPos.val < packets_ago % n then ⟨n - (packets_ago % n - s.inPos.val), by omega⟩
  else ⟨s.inPos.val - packets_ago % n, by omega⟩

/-- Whether a slot is there and in use. -/
def isInUse (s : RtpReceiver n) (i : Fin n) : Bool := (s.jitterBuffer i).any (·.is_in_use)

def getJitterPktsInQueueCount (s : RtpReceiver n) : Nat :=
  if s.inPos = s.playPos then if s.isInUse s.inPos then n else 0
  else if s.inPos.val < s.playPos.val then (n - s.playPos.val) + s.inPos.val
  else s.inPos.val - s.playPos.val

def getLastRtpData (s : RtpReceiver n) : Option RtpData :=
  if 0 < s.getJitterPktsInQueueCount then s.jitterBuffer (s.calculatePreviousInPos 1) else none

/-! ### Changes of the buffer -/

def clearJitterBuffer (s : RtpReceiver n) : RtpReceiver n :=
  { s with inPos := ⟨0, s.inPos.pos⟩, playPos := ⟨0, s.inPos.pos⟩, jitterBuffer := fun _ => none }

/-- Writes a slot. -/
def setSlot (s : RtpReceiver n) (i : Fin n) (d : Option RtpData) : RtpReceiver n :=
  { s with jitterBuffer := Function.update s.jitterBuffer i d }

/-- What is stored for a packet. -/
def voice (pkt : RtpPacket) : RtpData where
  payload := pkt.payload
  is_silence_fill := false
  is_in_use := true
  rtp_seq_no := pkt.sequence
  rtp_time := pkt.rtpTime

/-- The sequence number in a slot. -/
def sequenceAt (s : RtpReceiver n) (i : Fin n) : Option UInt16 := (s.jitterBuffer i).map (·.rtp_seq_no)

/-- `setRtpData`. In a full buffer the play position moves on from the slot, unless the packet is a
duplicate of what is in it. -/
def setRtpData (s : RtpReceiver n) (pkt : RtpPacket) (idx : Fin n) : RtpReceiver n :=
  let s :=
    if s.isInUse idx ∧ s.getJitterPktsInQueueCount = n ∧ s.playPos = idx ∧
        s.sequenceAt idx ≠ some pkt.sequence then
      s.incrementPlayPos
    else s
  s.setSlot idx (some (voice pkt))

def appendRtpData (s : RtpReceiver n) (pkt : RtpPacket) : RtpReceiver n :=
  (s.setRtpData pkt s.inPos).incrementInPos

/-- What is stored for silence; the payload of the slot stays. -/
def silence (s : RtpReceiver n) (rtp_time : UInt32) (rtp_seq : UInt16) : RtpData where
  payload := ((s.jitterBuffer s.inPos).map (·.payload)).getD []
  is_silence_fill := true
  is_in_use := true
  rtp_seq_no := rtp_seq
  rtp_time := rtp_time

def insertSilenceRtpData (s : RtpReceiver n) (rtp_time : UInt32) (rtp_seq : UInt16) : RtpReceiver n :=
  let moved :=
    if s.isInUse s.inPos ∧ s.getJitterPktsInQueueCount = n then s.incrementPlayPos else s
  (moved.setSlot s.inPos (some (s.silence rtp_time rtp_seq))).incrementInPos

/-! ### Packets -/

/-- Fills an empty buffer half with silence, one slot for each of the numbers before the packet's. -/
def primeSilence (pkt : RtpPacket) : Nat → RtpReceiver n → RtpReceiver n
  | 0, s => s
  | numprev + 1, s =>
    primeSilence pkt numprev (s.insertSilenceRtpData (pkt.rtpTime - s.sampleSize * .ofNat (numprev + 1))
      (pkt.sequence - .ofNat (numprev + 1)))

/-- The loop that patches a gap in the times with silence, from the last packet in the buffer on. A turn
brings the last number one nearer to the packet's, so that there are at most as many turns as numbers between
them. -/
def patchSilence (pkt : RtpPacket) : Nat → RtpData → RtpReceiver n → RtpReceiver n
  | 0, _, s => s
  | turns + 1, lastPkt, s =>
    if RtpTimeGreater (pkt.rtpTime - s.sampleSize) lastPkt.rtp_time then
      if RtpSeqDifference pkt.sequence lastPkt.rtp_seq_no ≤ 1 then s
      else
        let s := s.insertSilenceRtpData (lastPkt.rtp_time + s.sampleSize) (lastPkt.rtp_seq_no + 1)
        match s.getLastRtpData with
        | some lastPkt => patchSilence pkt turns lastPkt s
        | none => s
    else s

/-- The turns of `patchSilence`. -/
def turns (pkt : RtpPacket) (lastPkt : RtpData) : Nat :=
  (RtpSeqDifference pkt.sequence lastPkt.rtp_seq_no).toNat

/-- A packet for an empty buffer. -/
def startBuffer (s : RtpReceiver n) (pkt : RtpPacket) : RtpReceiver n :=
  (primeSilence pkt (n / 2 - 1) s).appendRtpData pkt

/-- A packet that is not later than the last one in the buffer. -/
def insertOutOfOrder (s : RtpReceiver n) (lastPkt : RtpData) (pkt : RtpPacket) : RtpReceiver n :=
  let sd := RtpSeqDifference lastPkt.rtp_seq_no pkt.sequence + 1
  if (s.getJitterPktsInQueueCount : Int) < sd then s
  else s.setRtpData pkt (s.calculatePreviousInPos sd.toNat)

/-- `readNetwork` for a packet that passed its checks. -/
def readNetwork (s : RtpReceiver n) (pkt : RtpPacket) : RtpReceiver n :=
  match s.getLastRtpData with
  | none => s.startBuffer pkt
  | some lastPkt =>
    if (n : Int) < RtpSeqDifference pkt.sequence lastPkt.rtp_seq_no then s.clearJitterBuffer.startBuffer pkt
    else if RtpSeqGreater pkt.sequence lastPkt.rtp_seq_no then
      (patchSilence pkt (turns pkt lastPkt) lastPkt s).appendRtpData pkt
    else s.insertOutOfOrder lastPkt pkt

/-! ### Playing -/

/-- Takes the data of a slot and marks it as free. -/
def take (s : RtpReceiver n) (jbp : RtpData) : RtpReceiver n :=
  (s.setSlot s.playPos (some { jbp with is_in_use := false })).incrementPlayPos

/-- The data in the play position, which is asserted to be in use. -/
def playing (s : RtpReceiver n) : Option RtpData := (s.jitterBuffer s.playPos).filter (·.is_in_use)

/-- `retrieve`: nothing from an empty buffer. Of a buffer that is more than half full it drops one silence. -/
def retrieve (s : RtpReceiver n) : Option (RtpReceiver n × Option RtpData) :=
  if s.getJitterPktsInQueueCount = 0 then some (s, none)
  else do
    let jbp ← s.playing
    if jbp.is_silence_fill ∧ 2 ≤ n ∧ n / 2 + 1 < s.getJitterPktsInQueueCount then
      let s := s.take jbp
      let jbp ← s.playing
      some (s.take jbp, some jbp)
    else some (s.take jbp, some jbp)

/-! ### The sanity check -/

/-- The conditions that `verifyJbSanity` asserts. -/
def verifyJbSanity (s : RtpReceiver n) : Bool :=
  let cnt := s.getJitterPktsInQueueCount
  (cnt = 0 || s.isInUse s.playPos) &&
    if cnt = n then (List.finRange n).all fun q => s.isInUse q
    else
      ((List.range cnt).all fun q =>
        let i : Int := s.inPos.val - q - 1
        let i := if i < 0 then i + n else i
        if h : i.toNat < n then s.isInUse ⟨i.toNat, h⟩ else false) &&
      ((List.range (n - cnt)).all fun q =>
        let i := s.inPos.val + q
        let i := if n ≤ i then i - n else i
        if h : i < n then !s.isInUse ⟨i, h⟩ else false)

end RtpReceiver

end Vocal.Rtp
