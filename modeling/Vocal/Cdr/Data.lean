import Mathlib.Data.BitVec

/-!
# Call detail records

What a gateway reports of a call (`CdrClient`) and the record that is kept and written for it (`CdrRadius`). A
text in an array of characters is the list of the characters in front of its end, which the array holds too.
`unsigned long` has `w` bits.
-/

namespace Vocal.Cdr

/-- `CdrCallEvent`; a code without a name is kept as it came. -/
inductive CdrCallEvent
  | CALL_UNKNOWN
  | CALL_START
  | CALL_UPDATE
  | CALL_RING
  | CALL_END
  | CALL_COMPLETE
  | CALL_BILL
  | other (code : Int)
  deriving DecidableEq, Repr

open CdrCallEvent

/-- `strncpy` into an array of the size. -/
def strncpy (src : List Char) (size : Nat) : List Char := src.take size

/-- `MIND_VSA_DTMF`. -/
def MIND_VSA_DTMF : Nat := 0

/-- `END_NORMAL`. -/
def END_NORMAL : Char := 'N'

/-- `END_ERROR`. -/
def END_ERROR : Char := 'E'

/-- `CdrClient`. -/
structure CdrClient (w : Nat) where
  callId : List Char := []
  callId_fits : callId.length < 256 := by decide
  userId : List Char := []
  recvId : List Char := []
  gwStartRing : BitVec w := 0
  gwStartRingMsec : Nat := 0
  gwStartTime : BitVec w := 0
  gwStartTimeMsec : Nat := 0
  gwEndTime : BitVec w := 0
  gwEndTimeMsec : Nat := 0
  originatorIp : List Char := []
  originatorLine : Int := 0
  terminatorIp : List Char := []
  terminatorLine : Int := 0
  callType : Char := '\x00'
  callParties : Int := 0
  callDisconnect : Char := '\x00'
  callEvent : CdrCallEvent := CALL_UNKNOWN
  protocolNum : Nat := MIND_VSA_DTMF
  callDirection : Char := '\x00'
  deriving DecidableEq, Repr

/-- `CdrRadius`, with the caller's number as the only one of the optional fields that something sets. -/
structure CdrRadius (w : Nat) where
  callId : List Char := []
  gwStartRing : BitVec w := 0
  gwStartRingMsec : Nat := 0
  gwEndTime : BitVec w := 0
  gwEndTimeMsec : Nat := 0
  callEvent : CdrCallEvent := CALL_UNKNOWN
  userId : List Char := []
  gwStartTime : BitVec w := 0
  gwStartTimeMsec : Nat := 0
  billingDuration : Nat := 0
  billingDurationMsec : Nat := 0
  originatorIp : List Char := []
  originatorLine : Int := 0
  terminatorIp : List Char := []
  terminatorLine : Int := 0
  E164CalledNum : List Char := []
  DTMFCalledNum : List Char := []
  callType : Char := '\x00'
  callParties : Int := 0
  callDisconnect : Char := '\x00'
  callDirection : Char := '\x00'
  ANI : List Char := []
  deriving DecidableEq, Repr

namespace CdrRadius

variable {w : Nat}

/-- What all branches of `update` but that of `CALL_END` copy. -/
def copyCall (r : CdrRadius w) (cli : CdrClient w) : CdrRadius w :=
  { r with
    callId := strncpy cli.callId 256
    userId := strncpy cli.userId 128
    billingDuration := 0
    billingDurationMsec := 0
    originatorIp := strncpy cli.originatorIp 24
    originatorLine := cli.originatorLine
    terminatorIp := strncpy cli.terminatorIp 24
    terminatorLine := cli.terminatorLine
    E164CalledNum := if cli.protocolNum = MIND_VSA_DTMF then r.E164CalledNum else strncpy cli.recvId 32
    DTMFCalledNum := if cli.protocolNum = MIND_VSA_DTMF then strncpy cli.recvId 32 else r.DTMFCalledNum
    callType := cli.callType
    callParties := cli.callParties
    callDirection := cli.callDirection }

def updateRing (r : CdrRadius w) (cli : CdrClient w) : CdrRadius w :=
  { r.copyCall cli with
    gwStartRing := cli.gwStartRing
    gwStartRingMsec := cli.gwStartRingMsec
    gwStartTime := cli.gwStartRing
    gwStartTimeMsec := cli.gwStartRingMsec
    gwEndTime := 0
    callDisconnect := END_NORMAL }

def updateStart (r : CdrRadius w) (cli : CdrClient w) : CdrRadius w :=
  { r.copyCall cli with
    gwStartTime := cli.gwStartTime
    gwStartTimeMsec := cli.gwStartTimeMsec
    gwEndTime := 0
    callDisconnect := END_NORMAL }

/-- The duration, from the start to the end of the record. -/
def bill (r : CdrRadius w) : CdrRadius w :=
  if r.gwEndTime < r.gwStartTime then { r with billingDuration := 0, billingDurationMsec := 0 }
  else
    let duration := (r.gwEndTime - r.gwStartTime).toNat % 2 ^ 32
    { r with
      billingDuration :=
        if 0 < duration ∧ r.gwEndTimeMsec < r.gwStartTimeMsec then duration - 1 else duration
      billingDurationMsec :=
        if r.gwEndTimeMsec < r.gwStartTimeMsec then 0 else r.gwEndTimeMsec - r.gwStartTimeMsec }

def updateEnd (r : CdrRadius w) (cli : CdrClient w) : CdrRadius w :=
  let r := { r with
    gwEndTime := cli.gwEndTime
    gwEndTimeMsec := cli.gwEndTimeMsec
    callDisconnect := cli.callDisconnect }
  -- the ring time is billed
  bill (if 0 < r.gwStartRing then
      { r with gwStartTime := r.gwStartRing, gwStartTimeMsec := r.gwStartRingMsec }
    else r)

def updateAll (r : CdrRadius w) (cli : CdrClient w) : CdrRadius w :=
  { r.copyCall cli with
    gwStartRing := cli.gwStartRing
    gwStartRingMsec := cli.gwStartRingMsec
    gwStartTime := cli.gwStartTime
    gwStartTimeMsec := cli.gwStartTimeMsec
    gwEndTime := cli.gwEndTime
    gwEndTimeMsec := cli.gwEndTimeMsec
    callDisconnect := END_ERROR }

/-- `CdrRadius::update`. -/
def update (r : CdrRadius w) (cli : CdrClient w) : CdrRadius w :=
  let r := { r with callEvent := cli.callEvent }
  if cli.callEvent = CALL_RING then r.updateRing cli
  else if cli.callEvent = CALL_START then r.updateStart cli
  else if cli.callEvent = CALL_END then r.updateEnd cli
  else r.updateAll cli

theorem bill_callId (r : CdrRadius w) : r.bill.callId = r.callId := by
  unfold bill
  split <;> rfl

theorem bill_gwEndTime (r : CdrRadius w) : r.bill.gwEndTime = r.gwEndTime := by
  unfold bill
  split <;> rfl

theorem update_end (r : CdrRadius w) {cli : CdrClient w} (h : cli.callEvent = CALL_END) :
    (r.update cli).callId = r.callId ∧ (r.update cli).gwEndTime = cli.gwEndTime := by
  rw [update, if_neg (by simp [h]), if_neg (by simp [h]), if_pos h]
  simp only [updateEnd]
  split
  · exact ⟨bill_callId _, bill_gwEndTime _⟩
  · exact ⟨bill_callId _, bill_gwEndTime _⟩

theorem strncpy_callId (cli : CdrClient w) : strncpy cli.callId 256 = cli.callId :=
  List.take_of_length_le cli.callId_fits.le

theorem update_callId (r : CdrRadius w) {cli : CdrClient w} (h : cli.callEvent ≠ CALL_END) :
    (r.update cli).callId = cli.callId := by
  rw [update]
  split_ifs <;> exact strncpy_callId cli

theorem update_event (r : CdrRadius w) {cli : CdrClient w} (h : cli.callEvent ≠ CALL_END) :
    (r.update cli).callEvent = cli.callEvent := by
  rw [update]
  split_ifs <;> rfl

end CdrRadius

end Vocal.Cdr
