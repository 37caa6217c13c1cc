import Vocal.Lib.Store
import Vocal.Sip.TransactionId

/-!
# Message containers, message pairs and calls

`SipMsgContainer`s are shared by reference between the transaction databases and the transports, so
they live in a store and the rest of the stack holds positions in it. A `SipMsgPair` and a
`SipCallContainer` have one owner each and are plain values; the index of a pair in its call stands
for the pointer that `findMsgPair` returns.
-/

namespace Vocal.Sip

open Store (deref)

/-- A reference to a `SipMsgContainer`. -/
abbrev Ref := Nat

/-- `NetworkAddress`: a resolved destination. A send asserts that its port is not negative. -/
structure NetworkAddress where
  ip4Address : Nat
  port : Nat
  deriving DecidableEq, Repr

structure SipMsgContainer where
  /-- `in`: the message, null after `clear`. -/
  msgIn : Option SipMsg
  /-- `in_encode`, kept as the message whose text it is; absent while the text is empty. -/
  inEncode : Option SipMsg
  netAddr : Option NetworkAddress
  transport : Data
  /-- The maximum number of transmissions (`getRetransmitMax`). -/
  retransCount : Int
  retransSoFar : Int
  trans_id : SipTransactionId
  nextTx : Nat
  wait_period : Int
  deriving DecidableEq, Repr

namespace SipMsgContainer

/-- `SipMsgContainer::clear`; the count of transmissions so far is not reset. -/
def clear (c : SipMsgContainer) : SipMsgContainer :=
  { c with
    msgIn := none
    inEncode := none
    netAddr := none
    transport := []
    retransCount := 1
    trans_id := .cleared
    nextTx := 0
    wait_period := 0 }

/-- `SipMsgContainer(const SipTransactionId&)`, with the message set. -/
def make (id : SipTransactionId) (msg : SipMsg) : SipMsgContainer where
  msgIn := some msg
  inEncode := none
  netAddr := none
  transport := []
  retransCount := 1
  retransSoFar := 0
  trans_id := id
  nextTx := 0
  wait_period := 0

/-- The container a transport builds for a message it received. -/
def received (msg : SipMsg) : SipMsgContainer := make (.ofMsg msg) msg

/-- `SipMsgContainer::matches`. -/
def «matches» (c : SipMsgContainer) (id : SipTransactionId) : Bool := id.equals c.trans_id

def setRetransmitMax (i : Int) (c : SipMsgContainer) : SipMsgContainer := { c with retransCount := i }

def setMsgIn (m : SipMsg) (c : SipMsgContainer) : SipMsgContainer := { c with msgIn := some m }

def setTransport (t : Data) (c : SipMsgContainer) : SipMsgContainer := { c with transport := t }

@[simp] theorem setRetransmitMax_trans_id (i : Int) (c : SipMsgContainer) :
    (c.setRetransmitMax i).trans_id = c.trans_id := rfl

@[simp] theorem setRetransmitMax_msgIn (i : Int) (c : SipMsgContainer) :
    (c.setRetransmitMax i).msgIn = c.msgIn := rfl

end SipMsgContainer

structure SipMsgPair where
  request : Option Ref
  response : Option Ref
  deriving DecidableEq, Repr

structure SipCallContainer where
  msgs : List SipMsgPair
  id : SipTransactionId
  /-- Sequence number of the last message, and whether it has been set yet. -/
  curSeqNum : Int
  setSeq : Bool
  /-- The call is purged once this time is not zero and past. -/
  purgeAt : Nat
  deriving DecidableEq, Repr

namespace SipCallContainer

def make (call_id : SipTransactionId) : SipCallContainer where
  msgs := []
  id := call_id
  curSeqNum := 0
  setSeq := false
  purgeAt := 0

def setCurSeqNum (call : SipCallContainer) (i : Int) : SipCallContainer :=
  { call with curSeqNum := i, setSeq := true }

def addMsgPair (call : SipCallContainer) (m : SipMsgPair) : SipCallContainer :=
  { call with msgs := call.msgs ++ [m] }

def setResponse (call : SipCallContainer) (i : Nat) (r : Ref) : SipCallContainer :=
  { call with msgs := call.msgs.modify i fun mp => { mp with response := some r } }

/-- The test of one pair in `findMsgPair(const SipTransactionId&)`. -/
def pairMatches (heap : List SipMsgContainer) (id : SipTransactionId) (mp : SipMsgPair) : Bool :=
  (deref heap mp.request).any (·.matches id) || (deref heap mp.response).any (·.matches id)

def findMsgPair (heap : List SipMsgContainer) (call : SipCallContainer) (id : SipTransactionId) :
    Option Nat :=
  call.msgs.findIdx? (pairMatches heap id)

/-- The message in the container a slot points to. -/
def slotMsg (heap : List SipMsgContainer) (slot : Option Ref) : Option SipMsg :=
  (deref heap slot).bind (·.msgIn)

/-- `findMsgPair(Method)`. -/
def findMsgPairOfMethod (heap : List SipMsgContainer) (call : SipCallContainer) (method : Method) :
    Option Nat :=
  call.msgs.findIdx? fun mp =>
    (slotMsg heap mp.request).any (·.getType = method) ||
      (slotMsg heap mp.response).any (·.getType = method)

/-- `SipCallContainer::stopAllRetrans`. -/
def stopAllRetrans (heap : List SipMsgContainer) (call : SipCallContainer) : List SipMsgContainer :=
  call.msgs.foldl
    (fun heap mp =>
      match mp.request with
      | some r => heap.modify r (.setRetransmitMax 0)
      | none => heap)
    heap

end SipCallContainer

/-- `SipTransceiver::myAppContext`. -/
inductive SipAppContext
  | APP_CONTEXT_GENERIC
  | APP_CONTEXT_PROXY
  deriving DecidableEq, Repr

def FILTER_RETRANS_COUNT : Int := 1

def MAX_RETRANS_COUNT : Int := 7

/-- `SipMsgQueue`: what `processRecv` hands up; the application acts on the last message. -/
abbrev SipMsgQueue := List SipMsg

/-! ### The table of calls -/

/-- `SipTransactionDB`: the containers allocated so far, and the calls by the local part of their
Call-ID. -/
structure SipTransactionDB where
  heap : List SipMsgContainer
  table : Data → Option SipCallContainer

namespace SipTransactionDB

def empty : SipTransactionDB := ⟨[], fun _ => none⟩

def getCallContainer (db : SipTransactionDB) (id : SipTransactionId) : Option SipCallContainer :=
  db.table id.call_id

/-- Writes a call through the pointer found under `k`. -/
def setCall (db : SipTransactionDB) (k : Data) (call : SipCallContainer) : SipTransactionDB :=
  { db with table := fun k' => if k' = k then some call else db.table k' }

def addCallContainer (db : SipTransactionDB) (m : SipCallContainer) : SipTransactionDB :=
  db.setCall m.id.call_id m

def updateContainer (db : SipTransactionDB) (r : Ref) (f : SipMsgContainer → SipMsgContainer) :
    SipTransactionDB :=
  { db with heap := db.heap.modify r f }

/-- `new SipMsgContainer`: the container gets the reference `db.heap.length`. -/
def newContainer (db : SipTransactionDB) (c : SipMsgContainer) : SipTransactionDB :=
  { db with heap := db.heap ++ [c] }

def setCallPurgeTimer (db : SipTransactionDB) (id : SipTransactionId) (expires_at : Nat) :
    SipTransactionDB :=
  match db.getCallContainer id with
  | some call => db.setCall id.call_id { call with purgeAt := expires_at }
  | none => db

/-- Whether `purgeOldCalls` removes a call. -/
def expired (now : Nat) (call : SipCallContainer) : Bool := call.purgeAt ≠ 0 && call.purgeAt < now

def purgeOldCalls (db : SipTransactionDB) (now : Nat) : SipTransactionDB :=
  { db with
    table := fun k =>
      match db.table k with
      | some call => if expired now call then none else some call
      | none => none }

@[simp] theorem setCall_heap (db : SipTransactionDB) (k : Data) (call : SipCallContainer) :
    (db.setCall k call).heap = db.heap := rfl

@[simp] theorem setCall_table_self (db : SipTransactionDB) (k : Data) (call : SipCallContainer) :
    (db.setCall k call).table k = some call := by
  simp [setCall]

theorem setCall_table_of_ne (db : SipTransactionDB) {k k' : Data} (call : SipCallContainer)
    (hne : k' ≠ k) : (db.setCall k call).table k' = db.table k' := by
  simp [setCall, hne]

@[simp] theorem updateContainer_table (db : SipTransactionDB) (r : Ref)
    (f : SipMsgContainer → SipMsgContainer) : (db.updateContainer r f).table = db.table := rfl

@[simp] theorem updateContainer_heap (db : SipTransactionDB) (r : Ref)
    (f : SipMsgContainer → SipMsgContainer) : (db.updateContainer r f).heap = db.heap.modify r f := rfl

@[simp] theorem newContainer_heap (db : SipTransactionDB) (c : SipMsgContainer) :
    (db.newContainer c).heap = db.heap ++ [c] := rfl

@[simp] theorem newContainer_table (db : SipTransactionDB) (c : SipMsgContainer) :
    (db.newContainer c).table = db.table := rfl

end SipTransactionDB

end Vocal.Sip
