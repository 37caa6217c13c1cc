import Vocal.Lib.Machine
import Vocal.Ua.Base

/-!
# The controller and its user agent

`CallAgent` drives a user agent through the states of `ControlState`, and the states of the user agent (`UaState`
and its classes) call back into it. The calls go in a circle only through `ControlState::end`, whose loops and
depth are bounded here: `endC` stands for the call of `myState->end` one level down.
-/

namespace Vocal.Ua

open AgentM UaBase Vocal.Comp

def EINVAL : Int := 22

/-! ## Requests of the user agent -/

namespace UaStateIdle

def sendRequest (cmd : SipCommand) : AgentM Int := do
  if (← get).myRole = .A_CLIENT ∧ cmd.method = .INVITE then
    send (.request .INVITE cmd.cseq)
    changeState .C_TRYING
    return 0
  else return -1

end UaStateIdle

namespace UacStateTrying

def sendRequest (cmd : SipCommand) : AgentM Int := do
  if cmd.method = .CANCEL ∨ cmd.method = .BYE then
    sendCancelMsg
    changeState .FAILURE
    return 0
  else if cmd.method = .INVITE then
    send (.request .INVITE cmd.cseq)
    return 0
  else return -EINVAL

end UacStateTrying

namespace UaStateRinging

def sendRequest (cmd : SipCommand) : AgentM Int := do
  if cmd.method = .CANCEL ∨ cmd.method = .BYE then
    sendCancelMsg
    changeState .FAILURE
    return 0
  else return -EINVAL

end UaStateRinging

/-- `UaStateInCall::sendRequest` and `UaStateInHold::sendRequest`: `held` is the state after a re-INVITE, and only the
first takes the session description of an ACK over. -/
def sendInDialog (held : UaState) (ack : SipCommand → AgentM Unit) (cmd : SipCommand) : AgentM Int :=
  match cmd.method with
  | .BYE => do
    let _ ← sendBye
    changeState .END
    return 0
  | .INVITE => do
    reInvite cmd
    changeState held
    return 0
  | .ACK => do
    ack cmd
    return 0
  | .CANCEL => do
    sendCancelMsg
    changeState .END
    return 0
  | _ => return -EINVAL

/-- The ACK of the stored response. -/
def ackResponse : AgentM Unit := do
  match (← getAgent).myResponseMsg with
  | some msg => send (.request .ACK msg.cseq)
  | none => throw .uaStateAssert

namespace UaStateInCall

def sendRequest (cmd : SipCommand) : AgentM Int :=
  sendInDialog .HOLD (fun cmd => do
    match (← getAgent).myResponseMsg with
    | some msg =>
      ackStatus msg
      if cmd.sdp.isSome then modifyAgent fun a => { a with myRemoteSdp := true }
    | none => throw .uaStateAssert) cmd

end UaStateInCall

namespace UaStateInHold

def sendRequest (cmd : SipCommand) : AgentM Int := sendInDialog .INCALL (fun _ => ackResponse) cmd

end UaStateInHold

/-- `UaState::sendRequest` of the current state. The states that have none of their own refuse. -/
def sendRequest (cmd : SipCommand) : AgentM Int := do
  match (← getAgent).myState with
  | .IDLE => UaStateIdle.sendRequest cmd
  | .C_TRYING => UacStateTrying.sendRequest cmd
  | .RINGING => UaStateRinging.sendRequest cmd
  | .REDIRECT => return 0
  | .INCALL => UaStateInCall.sendRequest cmd
  | .HOLD => UaStateInHold.sendRequest cmd
  | .S_TRYING | .FAILURE | .END => return -1

/-! ## The controller's states -/

namespace ControlState

/-- `ControlState::changeState`. -/
def changeState (c : ControlState) : AgentM Unit := modify fun s => { s with myState := c }

def inCall : AgentM Unit := do
  match (← get).myState with
  | .TRYING | .UAC_RINGING | .UAS_RINGING | .HOLD => changeState .IN_CALL
  | _ => pure ()

def inHold : AgentM Unit := do
  match (← get).myState with
  | .IN_CALL => changeState .HOLD
  | _ => pure ()

def bye : AgentM Unit := do
  match (← get).myState with
  | .IN_CALL | .HOLD => changeState .TEAR_DOWN
  | _ => pure ()

def cancel : AgentM Unit := do
  match (← get).myState with
  | .TRYING | .UAC_RINGING | .UAS_RINGING => changeState .TEAR_DOWN
  | _ => pure ()

def canBye : ControlState → Bool
  | .HOLD => false
  | _ => true

end ControlState

namespace CallAgent

/-- A use of `myInvokee`. -/
def myInvokee : AgentM UaBase := do
  let s ← get
  assertOr .droppedInvokee s.myActiveFlg
  return s.agent

def setDeleted : AgentM Unit := modify fun s => { s with myActiveFlg := false }

def freeMedia : AgentM Unit := modify fun s => { s with freedMedia := true }

/-- The `inCall` of the controller; `startSession` needs the description of the peer. -/
def inCall : AgentM Unit := do
  ControlState.inCall
  assertOr .abort (← myInvokee).myRemoteSdp

def sendCancel : AgentM Int := do
  let a ← myInvokee
  sendRequest (a.myRequestMsg.command .CANCEL)

def placeCall : AgentM Unit := do
  let a ← myInvokee
  let _ ← sendRequest (a.myRequestMsg.command .INVITE)

/-- The number of turns that a loop around `myState->end` may take. -/
def turns : Nat := 2

section End

variable (endC : AgentM Int)

/-- `while (myState->end(*this) < 0)`. -/
def endLoop : Nat → AgentM Unit
  | 0 => throw .outOfFuel
  | n + 1 => do
    if (← endC) < 0 then endLoop n

def endCall : AgentM Unit := do
  if (← get).myActiveFlg then
    catchInvalidState do
      freeMedia
      ControlState.bye
      endLoop endC turns

def callFailed : AgentM Unit := do
  ControlState.cancel
  endLoop endC turns

def doCancel : AgentM Unit := catchInvalidState do
  freeMedia
  ControlState.cancel
  endLoop endC turns

def stopCall : AgentM Unit := do
  endLoop endC turns
  freeMedia

def doBye : AgentM Unit := do
  if (← get).myState.canBye then
    let _ ← myInvokee
    let _ ← sendBye
    endCall endC
  else endCall endC

end End

end CallAgent

/-! ## Replies of the user agent -/

section Replies

variable (endC : AgentM Int)

/-- A final reply to the stored request, kept as the response. -/
def sendFinal (statusCode : Nat) : AgentM Unit := do
  let a ← getAgent
  sendReplyForRequest (a.myRequestMsg.command .INVITE) statusCode true

namespace UasStateTrying

def sendStatus (statusCode : Nat) : AgentM Int := do
  let a ← getAgent
  if statusCode = 100 then return -1
  else if 180 ≤ statusCode ∧ statusCode < 200 then
    sendReplyForRequest (a.myRequestMsg.command .INVITE) statusCode true
    changeState .RINGING
    return 0
  else if 300 ≤ statusCode then
    sendFinal statusCode
    changeState .FAILURE
    return 0
  else if statusCode = 200 then
    assertOr .uaStateAssert a.myRequestMsg.toUrl.isSip
    sendFinal statusCode
    CallAgent.inCall
    changeState .INCALL
    return 0
  else return 0

end UasStateTrying

namespace UaStateRinging

def sendStatus (statusCode : Nat) : AgentM Int := do
  let a ← getAgent
  if statusCode < 200 then return -1
  else if 200 < statusCode ∧ statusCode < 400 ∨ 500 < statusCode then
    CallAgent.endCall endC
    changeState .IDLE
    return 0
  else if 400 ≤ statusCode ∧ statusCode < 500 then
    assertOr .uaStateAssert a.myRequestMsg.toUrl.isSip
    sendFinal statusCode
    CallAgent.callFailed endC
    changeState .FAILURE
    return 0
  else if a.myRequestMsg.toUrl.isSip then
    sendFinal statusCode
    CallAgent.inCall
    changeState .INCALL
    return 0
  else
    changeState .IDLE
    throw .invalidState

end UaStateRinging

/-- `UaStateInCall::sendStatus` and `UaStateInHold::sendStatus`. -/
def sendStatusInDialog (statusCode : Nat) : AgentM Int := do
  let a ← getAgent
  if statusCode = 200 then
    assertOr .uaStateAssert a.myRequestMsg.toUrl.isSip
    send (.reply statusCode .INVITE)
    return 0
  else if 200 < statusCode then
    sendReplyForRequest (a.myRequestMsg.command .INVITE) statusCode true
    return 0
  else return 0

/-- `UaState::sendStatus` of the current state. -/
def sendStatus (statusCode : Nat) : AgentM Int := do
  match (← getAgent).myState with
  | .S_TRYING => UasStateTrying.sendStatus statusCode
  | .RINGING => UaStateRinging.sendStatus endC statusCode
  | .INCALL | .HOLD => sendStatusInDialog statusCode
  | .IDLE | .C_TRYING | .REDIRECT | .FAILURE | .END => return -1

namespace CallAgent

/-- The loop at the end of `CallAgent::sendBusy`. -/
def busyLoop : Nat → AgentM Int
  | 0 => throw .outOfFuel
  | n + 1 => do
    if (← get).myState = .UAS_RINGING then return -1
    else
      let rv ← endC
      if 0 ≤ rv then return rv else busyLoop n

def sendBusy : AgentM Int := do
  let _ ← myInvokee
  let _ ← sendStatus endC 486
  ControlState.cancel
  busyLoop endC turns

end CallAgent

end Replies

open CallAgent

/-- `ControlState::end` of the current state, at most `n` calls deep. -/
def ControlState.endAt : Nat → AgentM Int
  | 0 => throw .outOfFuel
  | n + 1 => do
    match (← get).myState with
    | .INIT => return 0
    | .TEAR_DOWN =>
      ControlState.changeState .INIT
      setDeleted
      return 0
    | .IN_CALL | .HOLD =>
      doBye (endAt n)
      return 0
    | .TRYING | .UAC_RINGING =>
      let rv ← sendCancel
      if rv < 0 then ControlState.changeState .TEAR_DOWN
      return rv
    | .UAS_RINGING =>
      let rv ← sendBusy (endAt n)
      if rv < 0 then ControlState.changeState .TEAR_DOWN
      return rv

/-- `myState->end`. No call goes deeper than two. -/
def endState : AgentM Int := ControlState.endAt 2

namespace CallAgent

def doAuthentication : AgentM Unit := do
  let _ ← myInvokee
  modifyAgent fun a => { a with myRequestMsg := { a.myRequestMsg with cseq := nextCSeq a.myRequestMsg.cseq } }
  placeCall

/-- What `doResume`, `doResumeReinvite` and `reqResume` do with the answer of the media. -/
def resumeSession (sdp : SipSdp) : AgentM Unit :=
  if sdp.resumes then ControlState.inCall else stopCall endState

/-- `CallAgent::doResume` and `CallAgent::doResumeReinvite`. -/
def doResume (remoteSdp : Option SipSdp) : AgentM Unit := do
  let _ ← myInvokee
  modifyAgent fun a => { a with myRemoteSdp := remoteSdp.isSome }
  match remoteSdp with
  | some sdp => resumeSession sdp
  | none => throw .abort

def dohold : AgentM Unit := do
  let _ ← myInvokee
  ControlState.inHold

def reqResume : AgentM Unit := catchInvalidState do
  let a ← myInvokee
  match a.myRequestMsg.sdp with
  | some sdp =>
    let _ ← sendStatus endState 200
    let _ ← myInvokee
    resumeSession sdp
  | none => throw .abort

def holdAndResumeReinvite : AgentM Unit := catchInvalidState do
  let a ← myInvokee
  match a.myRequestMsg.sdp with
  | some sdp =>
    let _ ← sendStatus endState 200
    let _ ← myInvokee
    ControlState.inHold
    doResume (some sdp)
  | none => throw .abort

/-- The swap of To and From in `CallAgent::processHold`, for a request that came from the peer. -/
def swapToFrom (msg : InviteMsg) : InviteMsg := { msg with toUrl := msg.fromUrl, fromUrl := msg.toUrl }

def processHold : AgentM Unit := do
  let a ← myInvokee
  if !a.myRequestMsg.contactHere then
    assertOr .abort (a.myRequestMsg.toUrl.isSip && a.myRequestMsg.fromUrl.isSip)
    modifyAgent fun a => { a with myRequestMsg := swapToFrom a.myRequestMsg }
  assertOr .abort a.myRequestMsg.sdp.isSome
  let _ ← sendRequest ((← getAgent).myRequestMsg.command .INVITE)

def processResume : AgentM Unit := do
  let a ← myInvokee
  assertOr .abort a.myRequestMsg.sdp.isSome
  let _ ← sendRequest (a.myRequestMsg.command .INVITE)

def acceptCall : AgentM Unit := do
  if (← get).myRole = .A_SERVER then
    catchInvalidState do
      let a ← myInvokee
      if a.myRequestMsg.sdp.isSome then
        let _ ← sendStatus endState 200

end CallAgent

/-- `ControlState::recvStatus` of the current state. -/
def ControlState.recvStatus (msg : StatusMsg) : AgentM Unit := do
  match (← get).myState with
  | .TRYING =>
    if msg.statusCode = 200 then CallAgent.inCall
    else if msg.statusCode = 401 ∨ msg.statusCode = 407 then doAuthentication
    else if msg.statusCode = 302 ∧ msg.method = .INVITE then pure ()
    else if 200 < msg.statusCode then doCancel endState
    else if msg.statusCode = 180 ∨ msg.statusCode = 183 then ControlState.changeState .UAC_RINGING
  | .UAC_RINGING =>
    if msg.method = .INVITE then
      if msg.statusCode = 200 then CallAgent.inCall
      -- The branch for 401 and 407 stands behind this one, so a challenge ends the ringing call.
      else if 200 < msg.statusCode then doCancel endState
  | .HOLD =>
    if msg.statusCode = 200 ∧ msg.method = .INVITE then doResume msg.sdp
    else callFailed endState
  | _ => pure ()

/-- `ControlState::recvReq` of the current state. -/
def ControlState.recvReq (cmd : SipCommand) : AgentM Unit := do
  match (← get).myState with
  | .UAS_RINGING => if cmd.method = .BYE then doCancel endState
  | .HOLD => if cmd.method = .INVITE then reqResume
  | _ => pure ()

namespace CallAgent

/-- The INVITE to the first contact of a redirection, with a number from the local counter. -/
def redirect (msg : StatusMsg) : AgentM Unit := do
  let _ ← myInvokee
  assertOr .abort !msg.contactList.isEmpty
  let a ← getAgent
  modifyAgent fun a =>
    { a with
      myLocalCSeq := nextCSeq a.myLocalCSeq
      myRequestMsg := { a.myRequestMsg with cseq := nextCSeq a.myLocalCSeq } }
  send (.request .INVITE (nextCSeq a.myLocalCSeq))

def receivedStatus (msg : StatusMsg) : AgentM Unit := catchInvalidState do
  ControlState.recvStatus msg
  if msg.statusCode = 200 ∧ msg.method = .INVITE then ackStatus msg
  if msg.statusCode = 302 then redirect msg
  else if msg.statusCode = 480 then freeMedia

def receivedRequest (cmd : SipCommand) : AgentM Unit := ControlState.recvReq cmd

end CallAgent

/-! ## What the user agent receives -/

/-- The ACK that the states before the call is up send for a failure, unless it is a timeout. -/
def ackFailure (msg : StatusMsg) : AgentM Unit := do
  if msg.statusCode ≠ 408 then send (.request .ACK msg.cseq)

/-- The answer is kept, with its routes and its session description. -/
def saveAnswer (msg : StatusMsg) : AgentM Unit := do
  setResponse msg
  saveRouteList msg.recordRouteList msg.contactList true
  modifyAgent fun a => { a with myRemoteSdp := msg.sdp.isSome }

/-- "Sync up the sequence number": the stored response takes it over. -/
def syncResponse (msg : StatusMsg) : AgentM Unit := do
  match (← getAgent).myResponseMsg with
  | some response => setResponse { response with method := msg.method, cseq := msg.cseq }
  | none => throw .abort

def setLocalCSeq (cseq : Nat) : AgentM Unit := modifyAgent fun a => { a with myLocalCSeq := cseq }

namespace UacStateTrying

def recvStatus (msg : StatusMsg) : AgentM Unit := do
  if msg.statusCode = 200 then
    saveAnswer msg
    receivedStatus msg
    changeState .INCALL
  else if 200 < msg.statusCode then
    ackFailure msg
    if msg.statusCode = 401 ∨ msg.statusCode = 407 then receivedStatus msg
    else if msg.statusCode = 302 then
      if msg.contactList.isEmpty then
        changeState .IDLE
        callFailed endState
      else
        changeState .REDIRECT
        receivedStatus msg
    else
      changeState .IDLE
      receivedStatus msg
  else
    if 180 ≤ msg.statusCode then changeState .RINGING
    receivedStatus msg

end UacStateTrying

namespace UaStateRinging

def recvStatus (msg : StatusMsg) : AgentM Unit := do
  if msg.statusCode = 200 then
    saveAnswer msg
    syncResponse msg
    setLocalCSeq msg.cseq
    receivedStatus msg
    changeState .INCALL
  else if 200 < msg.statusCode then
    ackFailure msg
    receivedStatus msg
    changeState .IDLE

end UaStateRinging

namespace UaStateRedirect

def recvStatus (msg : StatusMsg) : AgentM Unit := do
  if msg.statusCode = 200 then
    saveAnswer msg
    receivedStatus msg
    changeState .INCALL
  else if 200 < msg.statusCode then
    ackFailure msg
    changeState .IDLE
    receivedStatus msg
  else
    if 180 ≤ msg.statusCode then changeState .RINGING
    receivedStatus msg

end UaStateRedirect

namespace UaStateInCall

def recvStatus (msg : StatusMsg) : AgentM Unit := do
  if 200 < msg.statusCode then send (.request .ACK msg.cseq)
  if msg.statusCode = 200 ∧ msg.method = .INVITE then
    syncResponse msg
    setLocalCSeq msg.cseq
  receivedStatus msg

end UaStateInCall

namespace UaStateInHold

def recvStatus (msg : StatusMsg) : AgentM Unit := do
  if 200 ≤ msg.statusCode ∧ msg.method = .INVITE then send (.request .ACK msg.cseq)
  if msg.statusCode = 200 ∧ msg.method = .INVITE then
    syncResponse msg
    dohold
  else receivedStatus msg

end UaStateInHold

namespace UaStateFailure

def recvStatus (msg : StatusMsg) : AgentM Unit := do
  assertOr .uaStateAssert ((← get).myRole = .A_CLIENT)
  if 200 < msg.statusCode then
    if msg.statusCode = 487 then send (.request .ACK msg.cseq)
    receivedStatus msg
    callFailed endState
    changeState .IDLE

end UaStateFailure

namespace UaStateEnd

def recvStatus (msg : StatusMsg) : AgentM Unit := do
  changeState .IDLE
  receivedStatus msg

end UaStateEnd

/-- `UaState::recvStatus` of the current state. -/
def recvStatus (msg : StatusMsg) : AgentM Unit := do
  match (← getAgent).myState with
  | .C_TRYING => UacStateTrying.recvStatus msg
  | .RINGING => UaStateRinging.recvStatus msg
  | .REDIRECT => UaStateRedirect.recvStatus msg
  | .INCALL => UaStateInCall.recvStatus msg
  | .HOLD => UaStateInHold.recvStatus msg
  | .FAILURE => UaStateFailure.recvStatus msg
  | .END => UaStateEnd.recvStatus msg
  | .IDLE | .S_TRYING => pure ()

namespace UaStateIdle

def recvRequest (cmd : SipCommand) : AgentM Unit := do
  if (← get).myRole = .A_SERVER ∧ cmd.method = .INVITE then
    saveRouteList cmd.recordRouteList cmd.contactList false
    sendReplyForRequest cmd 100 true
    if cmd.sdp.isSome then modifyAgent fun a => { a with myRemoteSdp := true }
    changeState .S_TRYING

end UaStateIdle

namespace UasStateTrying

def recvRequest (cmd : SipCommand) : AgentM Unit := do
  if cmd.method = .CANCEL ∨ cmd.method = .BYE then
    sendReplyForRequest cmd 200 true
    if cmd.method = .CANCEL then
      sendReplyForRequest ((← getAgent).myRequestMsg.command .INVITE) 487 true
      doCancel endState
    receivedRequest cmd
    changeState .FAILURE
  else if cmd.method = .INVITE then changeState .S_TRYING

end UasStateTrying

namespace UaStateRinging

/-- A CANCEL does not end the call here: that waits for the ACK. -/
def recvRequest (cmd : SipCommand) : AgentM Unit := do
  if cmd.method = .CANCEL ∨ cmd.method = .BYE then
    sendReplyForRequest cmd 200 true
    if cmd.method = .CANCEL then sendReplyForRequest ((← getAgent).myRequestMsg.command .INVITE) 487 true
    receivedRequest cmd
    changeState .FAILURE

end UaStateRinging

/-- `UaStateInCall::recvRequest` and `UaStateInHold::recvRequest`: they differ in what a re-INVITE does and in
OPTIONS. -/
def recvInDialog (reInvited : AgentM Unit) (cmd : SipCommand) (held : UaState) (options : AgentM Unit) :
    AgentM Unit :=
  match cmd.method with
  | .INFO => do
    sendReplyForRequest cmd 200 true
    receivedRequest cmd
  | .BYE => do
    sendReplyForRequest cmd 200 true
    endCall endState
    receivedRequest cmd
    changeState .IDLE
  | .ACK => do
    modifyAgent fun a => { a with myAckMsg := some cmd }
    receivedRequest cmd
  | .INVITE => do
    sendReplyForRequest cmd 100 false
    modifyAgent fun a => { a with myRequestMsg := cmd.toInviteMsg }
    reInvited
    changeState held
  | .CANCEL => do
    sendReplyForRequest cmd 200 true
    sendReplyForRequest cmd 487 true
    receivedRequest cmd
    endCall endState
    changeState .FAILURE
  | .OPTIONS => options
  | .other => pure ()

namespace UaStateInCall

def recvRequest (cmd : SipCommand) : AgentM Unit :=
  recvInDialog holdAndResumeReinvite cmd .HOLD (send (.reply 200 .OPTIONS))

end UaStateInCall

namespace UaStateInHold

def recvRequest (cmd : SipCommand) : AgentM Unit := recvInDialog reqResume cmd .INCALL (pure ())

end UaStateInHold

namespace UaStateFailure

def recvRequest (cmd : SipCommand) : AgentM Unit := do
  if cmd.method = .ACK ∧ (← get).myRole = .A_SERVER then
    callFailed endState
    changeState .IDLE

end UaStateFailure

/-- `UaState::recvRequest` of the current state. -/
def recvRequest (cmd : SipCommand) : AgentM Unit := do
  match (← getAgent).myState with
  | .IDLE => UaStateIdle.recvRequest cmd
  | .C_TRYING => receivedRequest cmd
  | .S_TRYING => UasStateTrying.recvRequest cmd
  | .RINGING => UaStateRinging.recvRequest cmd
  | .INCALL => UaStateInCall.recvRequest cmd
  | .HOLD => UaStateInHold.recvRequest cmd
  | .FAILURE => UaStateFailure.recvRequest cmd
  | .REDIRECT | .END => pure ()

/-! ## The call as a machine -/

/-- What reaches the call: a response (`generated` if the stack made it up itself), a request of the peer, and what the
user does. -/
inductive Op
  | status (msg : StatusMsg) (generated : Bool)
  | request (cmd : SipCommand)
  | accept
  | hold
  | resume
  | stop
  | purge
  | bye
  deriving DecidableEq, Repr

def Op.act : Op → AgentM Unit
  | .status msg _ => recvStatus msg
  | .request cmd => recvRequest cmd
  | .accept => acceptCall
  | .hold => processHold
  | .resume => processResume
  | .stop => stopCall endState
  | .purge => do
    stopCall endState
    endCall endState
  | .bye => doBye endState

structure Call where
  agent : CallAgent
  /-- How the process died. -/
  exit : Option Exit
  deriving DecidableEq, Repr

namespace Call

/-- The call can be reached: the process runs and `setDeleted` has not taken the agent out of `CallDB` and of the
call map. -/
def Live (c : Call) : Prop := c.exit = none ∧ c.agent.myActiveFlg = true

instance (c : Call) : Decidable c.Live := inferInstanceAs (Decidable (_ ∧ _))

def step (c : Call) (op : Op) : Call :=
  if c.Live then ⟨after op.act c.agent, Comp.exit op.act c.agent⟩ else c

def machine (start : CallAgent) : Machine Call Op Unit where
  init := ⟨start, none⟩
  step c op := (c.step op, ())

end Call

namespace CallAgent

/-- A controller as its constructor makes it, before the first message. -/
def fresh (role : AgentRole) (invite : InviteMsg) : CallAgent where
  myRole := role
  myState := .INIT
  myActiveFlg := true
  freedMedia := false
  agent :=
    { myState := .IDLE
      myLocalCSeq := invite.cseq
      myRequestMsg := invite
      myResponseMsg := none
      myAckMsg := none
      myRouteList := []
      myRemoteSdp := false }
  sent := []

/-- A call of this side: `StateInit::makeCall`. -/
def client (invite : InviteMsg) : CallAgent :=
  after (do ControlState.changeState .TRYING; placeCall) (fresh .A_CLIENT invite)

/-- A call of the peer, up to the 180 of `UaCallControl`. -/
def server (invite : InviteMsg) : CallAgent :=
  after (do
    recvRequest (invite.command .INVITE)
    ControlState.changeState .UAS_RINGING
    let _ ← sendStatus endState 180) (fresh .A_SERVER invite)

end CallAgent

end Vocal.Ua
