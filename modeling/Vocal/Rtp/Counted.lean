import Vocal.Rtcp.Transmitter
import Vocal.Rtp.Datagram

/-!
# What the RTP receiver counts

`RtpReceiver` with the counts that its reports are made from, and the reports: `seedSeq` and `packetReceived`
beside what `readNetwork` does otherwise, and `calcLostFrac` and `calcLostCount` for the entry of the source.
-/

namespace Vocal.Rtp

open Bytes
open Rtcp (Stop RtpTranInfo Reception RtcpReceiver bind_eq_ok ok_bind)

/-- A receiver with its counts. -/
structure Counted (n : Nat) where
  recv : Receiver n
  seedSeq : UInt16 := 0
  packetReceived : UInt32 := 0

namespace Counted

variable {n : Nat}

/-- `initSource`, with the seed of the sequence. -/
def initSource (c : Counted n) (d : Bytes) : Except Stop (Counted n) := do
  let recv ← c.recv.initSource d
  let ts ← getSequence d
  return { c with recv := recv, seedSeq := ts }

/-- `addSource`, with the counts of a new source. -/
def addSource (c : Counted n) (d : Bytes) : Except Stop (Bool × Counted n) := do
  let (refused, recv) ← c.recv.addSource d
  if refused then return (true, { c with recv := recv })
  else
    let ts ← getSequence d
    return (false, { recv := recv, seedSeq := ts, packetReceived := 0 })

/-- The last part of `updateSource`. -/
def checkPacket (c : Counted n) (d : Bytes) : Except Stop (Bool × Counted n) := do
  let ts ← getSequence d
  let c := { c with recv := c.recv.checkCycle ts }
  if c.recv.probation < 0 then throw .assertion
  else
    let type ← getPayloadType d
    if type = rtpPayloadCN ∨ type = rtpPayloadPCMU_static then return (true, c)
    else if type ≠ c.recv.format then
      let c ← c.initSource d
      return (false, c)
    else return (false, c)

def updateSource (c : Counted n) (d : Bytes) : Except Stop (Bool × Counted n) := do
  let src ← getSSRC d
  if c.recv.sourceSet ∧ src = c.recv.srcProbation ∧ c.recv.probationSet then return (true, c)
  else
    let (refused, c) ← if !c.recv.sourceSet ∨ src ≠ c.recv.ssrc then c.addSource d else .ok (false, c)
    if refused then return (true, c) else c.checkPacket d

def getPacket (c : Counted n) (datagram : Bytes) : Except Stop (Int × Bytes × Counted n) := do
  let d := datagram.take packetAlloc
  let len : Int := d.length
  if len = 0 then return (0, d, c)
  else
    let (valid, d) ← isValid d
    if !valid then return (-Receiver.EINVAL, d, c)
    else
      let type ← getPayloadType d
      if Receiver.IsEvent type then
        if c.recv.events.DTMFInterface then
          let events ← c.recv.events.recvEvent type d
          return (0, d, { c with recv := { c.recv with events := events } })
        else return (len, d, c)
      else
        let (refused, c) ← c.updateSource d
        return (if refused then -Receiver.EINVAL else len, d, c)

/-- The last part of `readNetwork`; a packet that is put into the buffer is counted. -/
def store (c : Counted n) (d : Bytes) : Except Stop (Int × Counted n) := do
  let (rv, recv) ← c.recv.store d
  return (rv, { c with recv := recv, packetReceived := if rv = 0 then c.packetReceived + 1 else c.packetReceived })

def readNetwork (c : Counted n) (datagram : Bytes) : Except Stop (Int × Counted n) := do
  let (rv, d, c) ← c.getPacket datagram
  if rv ≤ 0 then return (rv, c) else c.store d

def retrieve (c : Counted n) : Except Stop (Counted n) := do
  let recv ← c.recv.retrieve
  return { c with recv := recv }

/-! ### Reports -/

/-- What is told of the source; the jitter comes of the statistics of delays. -/
def reception (c : Counted n) (jitter : Int) : Reception where
  ssrc := c.recv.ssrc
  probation := c.recv.probation
  seedSeq := c.seedSeq.toUInt32
  realPrevSeqRecv := c.recv.realPrevSeqRecv
  recv_cycles := c.recv.recv_cycles
  packetReceived := c.packetReceived
  jitter := jitter

/-- An entry that has another receiver. -/
def withRecv {ρ ρ' : Type} (s : RtpTranInfo ρ) (recv : Option ρ') : RtpTranInfo ρ' :=
  { s with recv := recv }

/-- `calcLostFrac` and `calcLostCount`, where `addSR` comes to the entry of the source. -/
def report (c : Counted n) (jitter : Int) : Option ((UInt32 × UInt32) × Counted n) :=
  match c.recv.rtcpRecv with
  | none => none
  | some rtcp =>
    match rtcp.tranInfoList c.recv.ssrc with
    | none => none
    | some info =>
      let s := withRecv info (info.recv.map fun _ => c.reception jitter)
      match Rtcp.RtcpTransmitter.reportable s with
      | none => none
      | some r =>
        let (fraction, s) := Rtcp.calcLostFrac s r
        let tranInfoList := Function.update rtcp.tranInfoList c.recv.ssrc (some (withRecv s info.recv))
        some ((fraction, Rtcp.calcLostCount r),
          { c with recv := { c.recv with rtcpRecv := some { rtcp with tranInfoList := tranInfoList } } })

/-! ## The receiver below -/

variable {s s' : Receiver n} {c c' : Counted n} {d : Bytes}

theorem exists_sequence_of_initSource (h : s.initSource d = .ok s') : ∃ ts, getSequence d = .ok ts := by
  obtain ⟨src, -, h⟩ := bind_eq_ok.mp h
  split_ifs at h
  obtain ⟨ts, hts, -⟩ := bind_eq_ok.mp h
  exact ⟨ts, hts⟩

theorem exists_sequence_of_addSource (h : s.addSource d = .ok (false, s')) : ∃ ts, getSequence d = .ok ts := by
  obtain ⟨src, -, h⟩ := bind_eq_ok.mp h
  by_cases hbusy : s.sourceSet = true ∧ s.probation < 4
  · rw [if_pos hbusy] at h
    cases h
  rw [if_neg hbusy] at h
  split_ifs at h
  all_goals
    obtain ⟨s₁, -, h⟩ := bind_eq_ok.mp h
    dsimp only at h
    split_ifs at h
    · cases h
    obtain ⟨s₂, -, h⟩ := bind_eq_ok.mp h
    obtain ⟨s₃, hinit, -⟩ := bind_eq_ok.mp h
    exact exists_sequence_of_initSource hinit

/-- A result for the receiver alone. -/
def forget {α : Type} (r : α × Counted n) : α × Receiver n := (r.1, r.2.recv)

theorem recv_initSource (c : Counted n) (d : Bytes) : (c.initSource d).map recv = c.recv.initSource d := by
  cases h : c.recv.initSource d with
  | error e => rw [initSource, h]; rfl
  | ok s =>
    obtain ⟨ts, hts⟩ := exists_sequence_of_initSource h
    rw [initSource, ok_bind h, ok_bind hts]
    rfl

theorem recv_addSource (c : Counted n) (d : Bytes) : (c.addSource d).map forget = c.recv.addSource d := by
  cases h : c.recv.addSource d with
  | error e => rw [addSource, h]; rfl
  | ok r =>
    obtain ⟨refused, s⟩ := r
    rw [addSource, ok_bind h]
    cases refused with
    | true => rfl
    | false =>
      obtain ⟨ts, hts⟩ := exists_sequence_of_addSource h
      dsimp only
      rw [if_neg Bool.false_ne_true, ok_bind hts]
      rfl

theorem recv_checkPacket (c : Counted n) (d : Bytes) : (c.checkPacket d).map forget = c.recv.checkPacket d := by
  rw [checkPacket, Receiver.checkPacket]
  cases getSequence d with
  | error e => rfl
  | ok ts =>
    rw [ok_bind rfl, ok_bind rfl]
    dsimp only
    split_ifs
    · rfl
    · cases getPayloadType d with
      | error e => rfl
      | ok type =>
        rw [ok_bind rfl, ok_bind rfl]
        split_ifs
        · rfl
        · rw [← recv_initSource { c with recv := c.recv.checkCycle ts }]
          cases initSource { c with recv := c.recv.checkCycle ts } d <;> rfl
        · rfl

theorem recv_updateSource (c : Counted n) (d : Bytes) : (c.updateSource d).map forget = c.recv.updateSource d := by
  rw [updateSource, Receiver.updateSource]
  cases getSSRC d with
  | error e => rfl
  | ok src =>
    rw [ok_bind rfl, ok_bind rfl]
    split_ifs
    · rfl
    · rw [← recv_addSource]
      cases c.addSource d with
      | error e => rfl
      | ok r =>
        obtain ⟨refused, c'⟩ := r
        cases refused with
        | true => rfl
        | false => exact recv_checkPacket c' d
    · exact recv_checkPacket c d

theorem recv_getPacket (c : Counted n) (datagram : Bytes) :
    (c.getPacket datagram).map (fun r => (r.1, forget r.2)) = c.recv.getPacket datagram := by
  rw [getPacket, Receiver.getPacket]
  dsimp only
  by_cases hempty : ((datagram.take packetAlloc).length : Int) = 0
  · rw [if_pos hempty, if_pos hempty]
    rfl
  rw [if_neg hempty, if_neg hempty]
  cases isValid (datagram.take packetAlloc) with
  | error e => rfl
  | ok r =>
    obtain ⟨valid, d⟩ := r
    rw [ok_bind rfl, ok_bind rfl]
    cases valid with
    | false => rfl
    | true =>
      dsimp only
      rw [if_neg (by decide), if_neg (by decide)]
      cases getPayloadType d with
      | error e => rfl
      | ok type =>
        rw [ok_bind rfl, ok_bind rfl]
        split_ifs
        · cases c.recv.events.recvEvent type d <;> rfl
        · rfl
        · rw [← recv_updateSource]
          cases c.updateSource d <;> rfl

theorem recv_readNetwork (c : Counted n) (datagram : Bytes) :
    (c.readNetwork datagram).map forget = c.recv.readNetwork datagram := by
  rw [readNetwork, Receiver.readNetwork, ← recv_getPacket]
  cases c.getPacket datagram with
  | error e => rfl
  | ok r =>
    obtain ⟨rv, d, c'⟩ := r
    change Except.map forget (if rv ≤ 0 then pure (rv, c') else c'.store d) =
      if rv ≤ 0 then pure (rv, c'.recv) else c'.recv.store d
    split_ifs
    · rfl
    · rw [store]
      cases c'.recv.store d <;> rfl

end Counted

end Vocal.Rtp
