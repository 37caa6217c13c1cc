import Vocal.Lib.Comp

/-!
# The user agent of a call

`UaBase` with its two kinds, `UaClient` and `UaServer`: the data of one call leg and what it sends. A computation
may end before its time, in an exception of the source or because the process dies, and leaves the state it
reached behind.

Of a message the model has what the code of a call looks at: its code or method, the number in its CSeq, its
Contact and Record-Route headers, the urls of To and From and its session description.
-/

namespace Vocal.Ua

inductive Method
  | INVITE
  | ACK
  | BYE
  | CANCEL
  | INFO
  | OPTIONS
  | other
  deriving DecidableEq, Repr

inductive BaseUrl
  | SIP_URL (text : String)
  | TEL_URL (text : String)
  deriving DecidableEq, Repr

/-- Whether the cast to `SipUrl` gives a url. -/
def BaseUrl.isSip : BaseUrl → Bool
  | .SIP_URL _ => true
  | .TEL_URL _ => false

/-- A session description of the peer; `resumes` is the answer of `MediaController::resumeSession` to it. -/
structure SipSdp where
  resumes : Bool
  deriving DecidableEq, Repr

structure InviteMsg where
  cseq : Nat
  toUrl : BaseUrl
  fromUrl : BaseUrl
  /-- Whether the host of its Contact is the one of this user agent. -/
  contactHere : Bool
  contactList : List BaseUrl
  recordRouteList : List BaseUrl
  sdp : Option SipSdp
  deriving DecidableEq, Repr

/-- A request of any kind has what an INVITE has. -/
structure SipCommand extends InviteMsg where
  method : Method
  deriving DecidableEq, Repr

def InviteMsg.command (invite : InviteMsg) (method : Method) : SipCommand := { invite with method := method }

structure StatusMsg where
  statusCode : Nat
  /-- The method and the number of its CSeq. -/
  method : Method
  cseq : Nat
  contactList : List BaseUrl
  recordRouteList : List BaseUrl
  sdp : Option SipSdp
  deriving DecidableEq, Repr

/-- `StatusMsg(command, statusCode)`. -/
def SipCommand.status (cmd : SipCommand) (statusCode : Nat) : StatusMsg where
  statusCode := statusCode
  method := cmd.method
  cseq := cmd.cseq
  contactList := []
  recordRouteList := cmd.recordRouteList
  sdp := none

inductive AgentRole
  | A_CLIENT
  | A_SERVER
  deriving DecidableEq, Repr

/-- The states `U_STATE_…` of the user agent. -/
inductive UaState
  | IDLE
  | C_TRYING
  | S_TRYING
  | RINGING
  | INCALL
  | HOLD
  | REDIRECT
  | FAILURE
  | END
  deriving DecidableEq, Repr

/-- The states of the controller. -/
inductive ControlState
  | INIT
  | TRYING
  | UAC_RINGING
  | UAS_RINGING
  | IN_CALL
  | HOLD
  | TEAR_DOWN
  deriving DecidableEq, Repr

/-- What is handed to the SIP stack. -/
inductive Sent
  | request (method : Method) (cseq : Nat)
  | reply (statusCode : Nat) (method : Method)
  deriving DecidableEq, Repr

/-- How a computation can end before its time. -/
inductive Exit
  /-- `CInvalidStateException`. -/
  | invalidState
  /-- `CallAgent` goes through `myInvokee` after `setDeleted` has set it to null. -/
  | droppedInvokee
  /-- A failed assertion in one of the `UaState` classes. -/
  | uaStateAssert
  /-- Any other failed assertion or null pointer. -/
  | abort
  /-- A loop that does not end. -/
  | hang
  /-- The bound on the depth of `ControlState::end` is used up. -/
  | outOfFuel
  deriving DecidableEq, Repr

structure UaBase where
  myState : UaState
  myLocalCSeq : Nat
  myRequestMsg : InviteMsg
  myResponseMsg : Option StatusMsg
  myAckMsg : Option SipCommand
  myRouteList : List BaseUrl
  /-- Whether `myRemoteSdp` is set. The local description is there from the start. -/
  myRemoteSdp : Bool
  deriving DecidableEq, Repr

/-- The controller with its user agent. `myInvokee` is null exactly where `myActiveFlg` is false: `setDeleted` clears
both and nothing sets them again. The user agent itself outlives that: the event that is being worked on holds it. -/
structure CallAgent where
  myRole : AgentRole
  myState : ControlState
  myActiveFlg : Bool
  freedMedia : Bool
  agent : UaBase
  sent : List Sent
  deriving DecidableEq, Repr

abbrev AgentM := EStateM Exit CallAgent

namespace AgentM

/-- `try … catch (CInvalidStateException&)`. -/
def catchInvalidState (m : AgentM Unit) : AgentM Unit :=
  tryCatch m fun e => if e = .invalidState then pure () else throw e

/-- A failed assertion ends the process. -/
def assertOr (e : Exit) (b : Bool) : AgentM Unit :=
  if b then pure () else throw e

end AgentM

open AgentM

/-- `SipCSeq::getNextCSeq`. -/
def nextCSeq (n : Nat) : Nat := if n < 0x7fffffff then n + 1 else 0x7fffffff

namespace UaBase

def modifyAgent (f : UaBase → UaBase) : AgentM Unit := modify fun s => { s with agent := f s.agent }

def getAgent : AgentM UaBase := do return (← get).agent

/-- `UaState::changeState`. -/
def changeState (u : UaState) : AgentM Unit := modifyAgent fun a => { a with myState := u }

/-- `SipTransceiver::sendAsync` and `sendReply`. -/
def send (m : Sent) : AgentM Unit := modify fun s => { s with sent := s.sent ++ [m] }

def setResponse (msg : StatusMsg) : AgentM Unit := modifyAgent fun a => { a with myResponseMsg := some msg }

/-- The reply `statusCode` to the command `cmd`, kept as the response where `memorizeResponse` is set. -/
def sendReplyForRequest (cmd : SipCommand) (statusCode : Nat) (memorizeResponse : Bool) : AgentM Unit := do
  send (.reply statusCode cmd.method)
  if memorizeResponse then setResponse (cmd.status statusCode)

/-- The loop of `saveRouteList`. At a url of another kind it goes on without its next element. -/
def saveRoutes (reverse : Bool) : List BaseUrl → AgentM Unit
  | [] => pure ()
  | .TEL_URL _ :: _ => throw .hang
  | url :: rest => do
    modifyAgent fun a =>
      { a with myRouteList := if reverse then url :: a.myRouteList else a.myRouteList ++ [url] }
    saveRoutes reverse rest

def saveRouteList (recordRouteList contactList : List BaseUrl) (reverse : Bool) : AgentM Unit := do
  modifyAgent fun a => { a with myRouteList := [] }
  saveRoutes reverse recordRouteList
  match contactList.getLast? with
  | some contact => modifyAgent fun a => { a with myRouteList := a.myRouteList ++ [contact] }
  | none => pure ()

def ackStatus (msg : StatusMsg) : AgentM Unit := do
  if 200 ≤ msg.statusCode then send (.request .ACK msg.cseq)

/-- `UaBase::createReInvite`: the number of the new INVITE. The Contact is made from the url of From. -/
def createReInvite (srcMsg : SipCommand) : AgentM Nat := do
  assertOr .abort srcMsg.fromUrl.isSip
  let a ← getAgent
  assertOr .abort !a.myRouteList.isEmpty
  modifyAgent fun a => { a with myLocalCSeq := nextCSeq a.myLocalCSeq }
  return nextCSeq a.myLocalCSeq

/-- `UaClient::sendBye` and `UaServer::sendBye`; whether there is a message. The server does not count its BYE. -/
def sendBye : AgentM Bool := do
  let s ← get
  match s.myRole with
  | .A_CLIENT =>
    assertOr .abort s.agent.myResponseMsg.isSome
    modifyAgent fun a => { a with myLocalCSeq := nextCSeq a.myLocalCSeq }
    send (.request .BYE (nextCSeq s.agent.myLocalCSeq))
    return true
  | .A_SERVER =>
    if s.agent.myAckMsg.isNone then return false
    else
      send (.request .BYE (nextCSeq s.agent.myLocalCSeq))
      return true

/-- The re-INVITE of `UaStateInCall` and `UaStateInHold`: its tags come from the response. -/
def reInvite (cmd : SipCommand) : AgentM Unit := do
  let cseq ← createReInvite cmd
  assertOr .abort (← getAgent).myResponseMsg.isSome
  send (.request .INVITE cseq)

/-- The CANCEL of the stored request. -/
def sendCancelMsg : AgentM Unit := do
  send (.request .CANCEL (← getAgent).myRequestMsg.cseq)

end UaBase

end Vocal.Ua
