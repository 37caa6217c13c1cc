import Mathlib.Data.List.Induction
import Mathlib.Logic.Function.Basic
import Vocal.Lib.Machine

/-!
# The accounting client

`RadiusStack`: requests to the accounting server wait in a table of 256 places for the reply with their id, and
each turn of the event loop (`tick`) reads a datagram and sends again what is due. The digest is any function
from bytes to sixteen of them, and what a transmission returns, what the datagrams hold and what stands in memory that was never
written comes from outside. There is no result where the source reads or writes outside of the receive buffer; requests
are taken to fit into their own buffers.
-/

namespace Vocal.Cdr

/-- `ACCT_VECTOR_LEN`. -/
def ACCT_VECTOR_LEN : Nat := 16

/-- `sizeof(BufType::AcctHdr)`. -/
def sizeofAcctHdr : Nat := 4 + ACCT_VECTOR_LEN

/-- `sizeof(BufType)`. -/
def sizeofBuffer : Nat := 4096

def PW_ACCOUNTING_REQUEST : UInt8 := 4

def PW_AUTHENTICATION_REQUEST : UInt8 := 1

def PW_USER_NAME : UInt8 := 1

def PW_PASSWORD : UInt8 := 2

def PW_NAS_IP_ADDRESS : UInt8 := 4

def PW_VENDOR_SPECIFIC : UInt8 := 26

def PW_CALLED_STATION_ID : UInt8 := 30

def PW_CALLING_STATION_ID : UInt8 := 31

def PW_ACCT_STATUS_TYPE : UInt8 := 40

def PW_ACCT_SESSION_ID : UInt8 := 44

/-- `AcctStatusType`, with the value that goes into a request. -/
inductive AcctStatusType
  | ACCT_START
  | ACCT_STOP
  | ACCT_ON
  | ACCT_OFF
  deriving DecidableEq, Repr

/-- The value in network order, in an `unsigned long` of eight bytes. The messages of the client, whose vendor attributes
are right with four bytes only, are modelled with four. -/
def AcctStatusType.bytes : AcctStatusType → List UInt8
  | .ACCT_START => [0, 0, 0, 1, 0, 0, 0, 0]
  | .ACCT_STOP => [0, 0, 0, 2, 0, 0, 0, 0]
  | .ACCT_ON => [0, 0, 0, 7, 0, 0, 0, 0]
  | .ACCT_OFF => [0, 0, 0, 8, 0, 0, 0, 0]

/-- `RadiusMessage`. `object` says which object it is; the send buffer is its used part. -/
structure RadiusMessage where
  object : Nat
  requestId : UInt8
  remainingRetries : Int
  sendBuffer : List UInt8
  nextTx : Nat
  deriving DecidableEq, Repr

/-- A transmission of a message, with what `doTransmit` returned. -/
structure Transmission where
  object : Nat
  time : Nat
  rv : Int
  length : Nat
  deriving DecidableEq, Repr

/-- All of the message was taken. -/
def Transmission.successful (t : Transmission) : Bool := t.rv = t.length

/-- The transmission counts against the retries. -/
def Transmission.counted (t : Transmission) : Bool := t.rv = t.length || t.rv ≠ 0

/-- `RadiusStack`, with the number of messages that were made and all their transmissions. -/
structure RadiusStack where
  retries : Int
  secretKey : List UInt8
  clientAddr : List UInt8
  pendingMessages : UInt8 → Option RadiusMessage := fun _ => none
  nextId : UInt8 := 0
  recvBuffer : List UInt8 := List.replicate sizeofBuffer 0
  acctStatusType : Nat := 8
  vsaCalls : List (UInt8 × List UInt8 × UInt8) := []
  created : Nat := 0
  sent : List Transmission := []

/-! ## Requests -/

/-- The bytes of an attribute. Its length is one byte, and what does not fit is overwritten by the next. -/
def addAttribute (type : UInt8) (value : List UInt8) : List UInt8 :=
  let length := UInt8.ofNat (value.length + 2)
  (type :: length :: value).take length.toNat

/-- `htons`. -/
def htons (n : Nat) : List UInt8 := [UInt8.ofNat (n / 256), UInt8.ofNat n]

/-- `ntohs`. -/
def ntohs (hi lo : UInt8) : Nat := hi.toNat * 256 + lo.toNat

/-- The request that `addHeader`, the attributes and `addMD5` make. -/
def request (md5 : List UInt8 → Vector UInt8 ACCT_VECTOR_LEN) (secretKey : List UInt8) (code id : UInt8)
    (attributes : List UInt8) : List UInt8 :=
  let start := code :: id :: htons (sizeofAcctHdr + attributes.length)
  start ++ (md5 (start ++ List.replicate ACCT_VECTOR_LEN 0 ++ attributes ++ secretKey)).toList ++ attributes

namespace RadiusStack

/-- The first free id of the search through all of them. -/
def freeId (s : RadiusStack) : Option UInt8 :=
  ((List.range 256).map UInt8.ofNat).find? fun id => (s.pendingMessages id).isNone

/-- `RadiusStack::findNextId`. -/
def findNextId (s : RadiusStack) : RadiusStack × Option UInt8 :=
  let s := { s with nextId := s.nextId + 1 }
  if (s.pendingMessages s.nextId).isNone then (s, some s.nextId) else (s, s.freeId)

/-- `RadiusStack::doSendRadius` on a pending message, where `doTransmit` returns `rv`; nothing is taken off
the retries if nothing was sent (`EAGAIN`). -/
def doSendRadius (s : RadiusStack) (now : Nat) (rv : Int) (m : RadiusMessage) :
    RadiusStack × RadiusMessage × Bool :=
  let s := { s with sent := s.sent ++ [⟨m.object, now, rv, m.sendBuffer.length⟩] }
  if rv = m.sendBuffer.length then (s, { m with remainingRetries := m.remainingRetries - 1 }, true)
  else if rv = 0 then (s, m, true)
  else (s, { m with remainingRetries := m.remainingRetries - 1 }, false)

/-- What the functions that make a request share: the message gets an id, is pending and is sent, whatever
comes of it. The constructor leaves `nextTx` as it finds it. -/
def createMsg (md5 : List UInt8 → Vector UInt8 ACCT_VECTOR_LEN) (s : RadiusStack) (code : UInt8) (attributes : List UInt8)
    (uninitialised now : Nat) (rv : Int) : RadiusStack :=
  match s.findNextId with
  | (s, none) => s
  | (s, some id) =>
    let m : RadiusMessage :=
      { object := s.created, requestId := id, remainingRetries := s.retries,
        sendBuffer := request md5 s.secretKey code id attributes, nextTx := uninitialised }
    let (s, m, _) := doSendRadius { s with created := s.created + 1 } now rv m
    { s with pendingMessages := Function.update s.pendingMessages id (some m) }

/-- The requests of the client. -/
inductive Request
  | acctOn
  | acctOff
  | acctStartCall (caller called callId : List UInt8)
  | acctStopCall (callId : List UInt8)
  | accessRqst (callId passwd : List UInt8)
  | other (code : UInt8) (attributes : List (UInt8 × List UInt8))
  deriving DecidableEq, Repr

/-- The code of a request. -/
def Request.code : Request → UInt8
  | .accessRqst .. => PW_AUTHENTICATION_REQUEST
  | .other code _ => code
  | _ => PW_ACCOUNTING_REQUEST

/-- The attributes that `createAcctOnMsg`, `createAcctOffMsg`, `createAcctStartCallMsg`, `createAcctStopCallMsg`
and `createAccessRqstMsg` add; those of the client's own requests are `other`. -/
def Request.attributes (clientAddr : List UInt8) : Request → List (UInt8 × List UInt8)
  | .acctOn => [(PW_ACCT_STATUS_TYPE, AcctStatusType.ACCT_ON.bytes), (PW_NAS_IP_ADDRESS, clientAddr)]
  | .acctOff => [(PW_ACCT_STATUS_TYPE, AcctStatusType.ACCT_OFF.bytes), (PW_NAS_IP_ADDRESS, clientAddr)]
  | .acctStartCall caller called callId =>
    [(PW_ACCT_STATUS_TYPE, AcctStatusType.ACCT_START.bytes), (PW_ACCT_SESSION_ID, callId),
      (PW_CALLING_STATION_ID, caller), (PW_CALLED_STATION_ID, called), (PW_USER_NAME, callId),
      (PW_NAS_IP_ADDRESS, clientAddr)]
  | .acctStopCall callId =>
    [(PW_ACCT_STATUS_TYPE, AcctStatusType.ACCT_STOP.bytes), (PW_ACCT_SESSION_ID, callId)]
  | .accessRqst callId passwd =>
    [(PW_PASSWORD, passwd), (PW_USER_NAME, callId), (PW_NAS_IP_ADDRESS, clientAddr)]
  | .other _ attributes => attributes

/-! ## Replies -/

/-- `ntohl` of a byte that was widened, where the host has the low byte first. -/
def ntohlByte (b : UInt8) : Nat := b.toNat <<< 24

/-- The loop of `evaluateRecvBuffer` over what is left of the buffer behind the pointer. The place goes on by
what the attributes hold, and `count` by what they say. -/
def evaluateAttributes (totalLen count : Nat) (rest : List UInt8) (s : RadiusStack) : Option RadiusStack :=
  if count < totalLen then
    match rest with
    | type :: len :: rest =>
      if len < 2 then evaluateAttributes totalLen (count + len.toNat) rest s
      else if type = PW_ACCT_STATUS_TYPE then
        match rest with
        | [] => none
        | b :: value =>
          evaluateAttributes totalLen (count + len.toNat) ((b :: value).drop (len.toNat - 2))
            { s with acctStatusType := ntohlByte b }
      else if type = PW_VENDOR_SPECIFIC then
        match rest.drop 4 with
        | vsaType :: vsaLength :: value =>
          evaluateAttributes totalLen (count + len.toNat) ((rest.drop 4).drop vsaLength.toNat)
            { s with vsaCalls := s.vsaCalls ++ [(vsaType, value, vsaLength)] }
        | _ => none
      else evaluateAttributes totalLen (count + len.toNat) (rest.drop (len.toNat - 2)) s
    | _ => none
  else some s
termination_by rest.length
decreasing_by all_goals (simp only [List.length_cons, List.length_drop]; omega)

/-- The fields of the header. -/
def idOf (d : List UInt8) : UInt8 := d.getD 1 0

def lengthOf (d : List UInt8) : Nat := ntohs (d.getD 2 0) (d.getD 3 0)

def authVector (d : List UInt8) : List UInt8 := (d.drop 4).take ACCT_VECTOR_LEN

/-- The bytes over which the digest of a reply is taken: its own, with the authenticator of the request in the
place of the reply's, and the secret behind. -/
def digestInput (secretKey : List UInt8) (m : RadiusMessage) (d : List UInt8) : List UInt8 :=
  d.take 4 ++ authVector m.sendBuffer ++ d.drop sizeofAcctHdr ++ secretKey

/-- `RadiusMessage::handleResponse` on the datagram `d` in the receive buffer. A wrong digest is only logged. -/
def handleMessage (s : RadiusStack) (m : RadiusMessage) (d : List UInt8) : Option RadiusStack :=
  let totalLen := lengthOf d
  if totalLen ≠ d.length then some s
  else if sizeofBuffer < totalLen + s.secretKey.length then none
  else
    let input := digestInput s.secretKey m d
    let s := { s with recvBuffer := input ++ s.recvBuffer.drop input.length }
    evaluateAttributes totalLen sizeofAcctHdr (s.recvBuffer.drop sizeofAcctHdr) s

/-- `RadiusStack::handleResponse`. -/
def handleResponse (s : RadiusStack) (d : List UInt8) : Option RadiusStack :=
  match s.pendingMessages (idOf d) with
  | some m => (s.handleMessage m d).map fun s =>
      { s with pendingMessages := Function.update s.pendingMessages m.requestId none }
  | none => some s

/-- The first half of `tick`: a datagram is received, of at most the size of the buffer. -/
def receive (s : RadiusStack) (d : List UInt8) : Option RadiusStack :=
  let d := d.take sizeofBuffer
  let s := { s with recvBuffer := d ++ s.recvBuffer.drop d.length }
  if sizeofAcctHdr ≤ d.length then s.handleResponse d else some s

/-! ## Sending again -/

/-- One turn of the loop of `tick`. -/
def tickSlot (now : Nat) (rvs : UInt8 → Int) (s : RadiusStack) (i : UInt8) : RadiusStack :=
  match s.pendingMessages i with
  | none => s
  | some m =>
    if m.nextTx ≤ now then
      let (s, m, ok) := s.doSendRadius now (rvs i) m
      if ok then { s with pendingMessages := Function.update s.pendingMessages i (some m) }
      else if m.remainingRetries ≤ 0 then
        { s with pendingMessages := Function.update s.pendingMessages i none }
      else
        { s with pendingMessages :=
          Function.update s.pendingMessages i (some { m with nextTx := now + 500 }) }
    else s

/-- The ids in the order of the loop. -/
def slots : List UInt8 := (List.range 256).map UInt8.ofNat

/-- `RadiusStack::tick`, with the datagram that is received, if one is, and what the transmissions return. -/
def tick (s : RadiusStack) (d : Option (List UInt8)) (now : Nat) (rvs : UInt8 → Int) : Option RadiusStack :=
  ((d.map s.receive).getD (some s)).map fun s => slots.foldl (tickSlot now rvs) s

inductive Op
  | create (r : Request) (uninitialised now : Nat) (rv : Int)
  | tick (d : Option (List UInt8)) (now : Nat) (rvs : UInt8 → Int)

/-- The stack from its start; nothing follows what has no result. -/
def machine (md5 : List UInt8 → Vector UInt8 ACCT_VECTOR_LEN) (retries : Int) (secretKey clientAddr : List UInt8) :
    Machine (Option RadiusStack) Op Unit where
  init := some { retries, secretKey, clientAddr }
  step
    | none, _ => (none, ())
    | some s, .create r uninitialised now rv =>
      (some (s.createMsg md5 r.code ((r.attributes s.clientAddr).flatMap fun p => addAttribute p.1 p.2)
        uninitialised now rv), ())
    | some s, .tick d now rvs => (s.tick d now rvs, ())

end RadiusStack

end Vocal.Cdr
