import Vocal.Ua.Closing
import Vocal.Ua.Handlers

/-!
# What holds of every part of a run

The role stays, the controller does not get back to the state it starts in, and where `q` holds no ACK is sent. All that
the agent does follows this relation, the parts that send an ACK for a `q` that is false.
-/

namespace Vocal.Ua

open AgentM UaBase Vocal.Comp CallAgent

structure Runs (q : Prop) (s t : CallAgent) : Prop where
  role : t.myRole = s.myRole
  trying : t.myState = .TRYING → s.myState = .TRYING
  acks : q → t.acks = s.acks

namespace Runs

variable {q : Prop}

theorem refl (s : CallAgent) : Runs q s s := ⟨rfl, id, fun _ => rfl⟩

theorem trans {s t u : CallAgent} (h : Runs q s t) (h' : Runs q t u) : Runs q s u :=
  ⟨h'.role.trans h.role, h.trying ∘ h'.trying, fun hq => (h'.acks hq).trans (h.acks hq)⟩

theorem bind {α β : Type} {m : AgentM α} {f : α → AgentM β} (hm : Moves (Runs q) m)
    (hf : ∀ a, Moves (Runs q) (f a)) : Moves (Runs q) (m >>= f) :=
  Moves.bind trans hm hf

theorem pure {α : Type} (a : α) : Moves (Runs q) (Pure.pure a : AgentM α) := Moves.pure refl a

theorem throw {α : Type} (e : Exit) : Moves (Runs q) (throw e : AgentM α) := Moves.throw refl e

theorem get : Moves (Runs q) (get : AgentM CallAgent) := refl

theorem assertOr (e : Exit) (b : Bool) : Moves (Runs q) (assertOr e b) :=
  Moves.ite (fun _ => Runs.pure ()) fun _ => Runs.throw e

theorem catchInvalidState {m : AgentM Unit} (hm : Moves (Runs q) m) : Moves (Runs q) (catchInvalidState m) := by
  intro s
  rw [after_catch]
  exact hm s

theorem of_closes {α : Type} {m : AgentM α} (h : Moves Closes m) : Moves (Runs q) m := fun s =>
  ⟨(h s).role, (h s).trying, fun _ => (h s).acks⟩

/-! ## The user agent -/

theorem modifyAgent (f : UaBase → UaBase) : Moves (Runs q) (modifyAgent f) := fun _ => ⟨rfl, id, fun _ => rfl⟩

theorem getAgent : Moves (Runs q) getAgent := refl

theorem changeState (u : UaState) : Moves (Runs q) (changeState u) := modifyAgent _

theorem send {m : Sent} (hm : q → m.isAck = false) : Moves (Runs q) (send m) := by
  refine fun s => ⟨rfl, id, fun hq => ?_⟩
  have h := acks_send s m
  rwa [hm hq] at h

theorem sendReplyForRequest (cmd : SipCommand) (statusCode : Nat) (memorizeResponse : Bool) :
    Moves (Runs q) (sendReplyForRequest cmd statusCode memorizeResponse) :=
  bind (send fun _ => rfl) fun _ => Moves.ite (fun _ => modifyAgent _) fun _ => pure ()

theorem saveRoutes (reverse : Bool) (urls : List BaseUrl) : Moves (Runs q) (saveRoutes reverse urls) := by
  induction urls with
  | nil => exact pure ()
  | cons url urls ih =>
    cases url with
    | SIP_URL text => exact bind (modifyAgent _) fun _ => ih
    | TEL_URL text => exact throw .hang

theorem saveRouteList (recordRouteList contactList : List BaseUrl) (reverse : Bool) :
    Moves (Runs q) (saveRouteList recordRouteList contactList reverse) := by
  refine bind (modifyAgent _) fun _ => bind (saveRoutes reverse recordRouteList) fun _ => ?_
  cases contactList.getLast? with
  | none => exact pure ()
  | some contact => exact modifyAgent _

theorem sendBye : Moves (Runs q) sendBye := by
  refine bind get fun s => ?_
  cases s.myRole with
  | A_CLIENT =>
    exact bind (assertOr _ _) fun _ => bind (modifyAgent _) fun _ => bind (send fun _ => rfl) fun _ => pure true
  | A_SERVER => exact Moves.ite (fun _ => pure false) fun _ => bind (send fun _ => rfl) fun _ => pure true

theorem reInvite (cmd : SipCommand) : Moves (Runs q) (reInvite cmd) := by
  refine bind ?_ fun cseq => bind getAgent fun a => bind (assertOr _ _) fun _ => send fun _ => rfl
  exact bind (assertOr _ _) fun _ => bind getAgent fun a => bind (assertOr _ _) fun _ =>
    bind (modifyAgent _) fun _ => pure _

theorem sendCancelMsg : Moves (Runs q) sendCancelMsg := bind getAgent fun _ => send fun _ => rfl

theorem sendInDialog (held : UaState) (ack : SipCommand → AgentM Unit) {cmd : SipCommand}
    (hmethod : cmd.method ≠ .ACK) : Moves (Runs q) (sendInDialog held ack cmd) := by
  unfold Ua.sendInDialog
  cases h : cmd.method with
  | ACK => exact (hmethod h).elim
  | BYE => exact bind sendBye fun _ => bind (changeState _) fun _ => pure 0
  | INVITE => exact bind (reInvite cmd) fun _ => bind (changeState _) fun _ => pure 0
  | CANCEL => exact bind sendCancelMsg fun _ => bind (changeState _) fun _ => pure 0
  | INFO | OPTIONS | other => exact pure _

theorem sendRequest {cmd : SipCommand} (hmethod : cmd.method ≠ .ACK) : Moves (Runs q) (sendRequest cmd) := by
  refine bind getAgent fun a => ?_
  cases a.myState with
  | IDLE =>
    exact bind get fun _ => Moves.ite
      (fun _ => bind (send fun _ => rfl) fun _ => bind (changeState _) fun _ => pure 0) fun _ => pure _
  | C_TRYING =>
    exact Moves.ite (fun _ => bind sendCancelMsg fun _ => bind (changeState _) fun _ => pure 0) fun _ =>
      Moves.ite (fun _ => bind (send fun _ => rfl) fun _ => pure 0) fun _ => pure _
  | RINGING =>
    exact Moves.ite (fun _ => bind sendCancelMsg fun _ => bind (changeState _) fun _ => pure 0) fun _ => pure _
  | INCALL => exact sendInDialog _ _ hmethod
  | HOLD => exact sendInDialog _ _ hmethod
  | REDIRECT | S_TRYING | FAILURE | END => exact pure _

/-! ## The controller -/

theorem control {c : ControlState} (hc : c ≠ .TRYING) : Moves (Runs q) (ControlState.changeState c) :=
  fun _ => ⟨rfl, fun h => (hc h).elim, fun _ => rfl⟩

theorem inCall : Moves (Runs q) ControlState.inCall := by
  refine bind get fun s => ?_
  cases s.myState with
  | TRYING | UAC_RINGING | UAS_RINGING | HOLD => exact control (by decide)
  | INIT | IN_CALL | TEAR_DOWN => exact pure ()

theorem inHold : Moves (Runs q) ControlState.inHold := by
  refine bind get fun s => ?_
  cases s.myState with
  | IN_CALL => exact control (by decide)
  | INIT | TRYING | UAC_RINGING | UAS_RINGING | HOLD | TEAR_DOWN => exact pure ()

theorem myInvokee : Moves (Runs q) myInvokee := of_closes closes_myInvokee

theorem startSession : Moves (Runs q) CallAgent.inCall :=
  bind inCall fun _ => bind myInvokee fun _ => assertOr _ _

theorem sendStatus (statusCode : Nat) : Moves (Runs q) (sendStatus endState statusCode) := by
  have hfinal : Moves (Runs q) (sendFinal statusCode) := bind getAgent fun _ => sendReplyForRequest _ _ _
  have hanswer : Moves (Runs q) (do
      sendFinal statusCode; CallAgent.inCall; Ua.UaBase.changeState .INCALL; return 0 : AgentM Int) :=
    bind hfinal fun _ => bind startSession fun _ => bind (changeState _) fun _ => pure 0
  refine bind getAgent fun a => ?_
  cases a.myState with
  | IDLE | C_TRYING | REDIRECT | FAILURE | END => exact pure _
  | S_TRYING =>
    refine bind getAgent fun a => Moves.ite (fun _ => pure _) fun _ => Moves.ite (fun _ => ?_) fun _ =>
      Moves.ite (fun _ => ?_) fun _ => Moves.ite (fun _ => ?_) fun _ => pure _
    · exact bind (sendReplyForRequest _ _ _) fun _ => bind (changeState _) fun _ => pure 0
    · exact bind hfinal fun _ => bind (changeState _) fun _ => pure 0
    · exact bind (assertOr _ _) fun _ => hanswer
  | RINGING =>
    refine bind getAgent fun a => Moves.ite (fun _ => pure _) fun _ => Moves.ite (fun _ => ?_) fun _ =>
      Moves.ite (fun _ => ?_) fun _ => Moves.ite (fun _ => hanswer) fun _ => ?_
    · exact bind (of_closes (closes_endCall closes_endState)) fun _ => bind (changeState _) fun _ => pure 0
    · exact bind (assertOr _ _) fun _ => bind hfinal fun _ =>
        bind (of_closes (closes_callFailed closes_endState)) fun _ => bind (changeState _) fun _ => pure 0
    · exact bind (changeState _) fun _ => throw _
  | INCALL | HOLD =>
    refine bind getAgent fun a => Moves.ite (fun _ => ?_) fun _ => Moves.ite (fun _ => ?_) fun _ => pure _
    · exact bind (assertOr _ _) fun _ => bind (send fun _ => rfl) fun _ => pure 0
    · exact bind (sendReplyForRequest _ _ _) fun _ => pure 0

theorem doBye : Moves (Runs q) (doBye endState) :=
  bind get fun _ => Moves.ite
    (fun _ => bind myInvokee fun _ => bind sendBye fun _ => of_closes (closes_endCall closes_endState))
    fun _ => of_closes (closes_endCall closes_endState)

theorem resumeSession (sdp : SipSdp) : Moves (Runs q) (resumeSession sdp) :=
  Moves.ite (fun _ => inCall) fun _ => of_closes (closes_stopCall closes_endState)

theorem doResume (remoteSdp : Option SipSdp) : Moves (Runs q) (doResume remoteSdp) := by
  refine bind myInvokee fun _ => bind (modifyAgent _) fun _ => ?_
  cases remoteSdp with
  | none => exact throw _
  | some sdp => exact resumeSession sdp

theorem reqResume : Moves (Runs q) reqResume := by
  refine catchInvalidState (bind myInvokee fun a => ?_)
  cases a.myRequestMsg.sdp with
  | none => exact throw _
  | some sdp => exact bind (sendStatus 200) fun _ => bind myInvokee fun _ => resumeSession sdp

theorem holdAndResumeReinvite : Moves (Runs q) holdAndResumeReinvite := by
  refine catchInvalidState (bind myInvokee fun a => ?_)
  cases a.myRequestMsg.sdp with
  | none => exact throw _
  | some sdp =>
    exact bind (sendStatus 200) fun _ => bind myInvokee fun _ => bind inHold fun _ => doResume (some sdp)

theorem recvReq (cmd : SipCommand) : Moves (Runs q) (ControlState.recvReq cmd) := by
  refine bind get fun s => ?_
  cases s.myState with
  | UAS_RINGING => exact Moves.ite (fun _ => of_closes (closes_doCancel closes_endState)) fun _ => pure ()
  | HOLD => exact Moves.ite (fun _ => reqResume) fun _ => pure ()
  | INIT | TRYING | UAC_RINGING | IN_CALL | TEAR_DOWN => exact pure ()

theorem invite (msg : InviteMsg) : Moves (Runs q) (Ua.sendRequest (msg.command .INVITE)) := by
  refine sendRequest fun h => ?_
  cases h

theorem placeCall : Moves (Runs q) placeCall := bind myInvokee fun _ => bind (invite _) fun _ => pure _

theorem recvInDialog {reInvited options : AgentM Unit} (hreInvited : Moves (Runs q) reInvited)
    (hoptions : Moves (Runs q) options) (cmd : SipCommand) (held : UaState) :
    Moves (Runs q) (recvInDialog reInvited cmd held options) := by
  have hend := of_closes (q := q) (closes_endCall closes_endState)
  unfold Ua.recvInDialog
  cases cmd.method with
  | INFO => exact bind (sendReplyForRequest _ _ _) fun _ => recvReq cmd
  | BYE =>
    exact bind (sendReplyForRequest _ _ _) fun _ => bind hend fun _ => bind (recvReq cmd) fun _ => changeState _
  | ACK => exact bind (modifyAgent _) fun _ => recvReq cmd
  | INVITE =>
    exact bind (sendReplyForRequest _ _ _) fun _ => bind (modifyAgent _) fun _ => bind hreInvited fun _ =>
      changeState _
  | CANCEL =>
    exact bind (sendReplyForRequest _ _ _) fun _ => bind (sendReplyForRequest _ _ _) fun _ =>
      bind (recvReq cmd) fun _ => bind hend fun _ => changeState _
  | OPTIONS => exact hoptions
  | other => exact pure ()

theorem recvRequest (cmd : SipCommand) : Moves (Runs q) (recvRequest cmd) := by
  have hfail : Moves (Runs q) (do receivedRequest cmd; Ua.UaBase.changeState .FAILURE) :=
    bind (recvReq cmd) fun _ => changeState _
  refine bind getAgent fun a => ?_
  cases a.myState with
  | IDLE =>
    refine bind get fun _ => Moves.ite (fun _ => ?_) fun _ => pure ()
    exact bind (saveRouteList _ _ _) fun _ => bind (sendReplyForRequest _ _ _) fun _ =>
      Moves.ite (fun _ => bind (modifyAgent _) fun _ => changeState _) fun _ => changeState _
  | C_TRYING => exact recvReq cmd
  | S_TRYING =>
    refine Moves.ite (fun _ => ?_) fun _ => Moves.ite (fun _ => changeState _) fun _ => pure ()
    refine bind (sendReplyForRequest _ _ _) fun _ => Moves.ite (fun _ => ?_) fun _ => hfail
    exact bind getAgent fun _ => bind (sendReplyForRequest _ _ _) fun _ =>
      bind (of_closes (closes_doCancel closes_endState)) fun _ => hfail
  | RINGING =>
    refine Moves.ite (fun _ => ?_) fun _ => pure ()
    exact bind (sendReplyForRequest _ _ _) fun _ => Moves.ite
      (fun _ => bind getAgent fun _ => bind (sendReplyForRequest _ _ _) fun _ => hfail) fun _ => hfail
  | INCALL => exact recvInDialog holdAndResumeReinvite (send fun _ => rfl) cmd .HOLD
  | HOLD => exact recvInDialog reqResume (pure ()) cmd .INCALL
  | FAILURE =>
    exact bind get fun _ => Moves.ite
      (fun _ => bind (of_closes (closes_callFailed closes_endState)) fun _ => changeState _) fun _ => pure ()
  | REDIRECT | END => exact pure ()

/-! ## Responses -/

theorem recvStatusControl (msg : StatusMsg) : Moves (Runs q) (ControlState.recvStatus msg) := by
  have hcancel := of_closes (q := q) (closes_doCancel closes_endState)
  refine bind get fun s => ?_
  cases s.myState with
  | TRYING =>
    exact Moves.ite (fun _ => startSession) fun _ => Moves.ite
      (fun _ => bind myInvokee fun _ => bind (modifyAgent _) fun _ => placeCall) fun _ => Moves.ite
      (fun _ => pure ()) fun _ => Moves.ite (fun _ => hcancel) fun _ =>
      Moves.ite (fun _ => control (by decide)) fun _ => pure ()
  | UAC_RINGING =>
    exact Moves.ite (fun _ => Moves.ite (fun _ => startSession) fun _ => Moves.ite (fun _ => hcancel) fun _ => pure ())
      fun _ => pure ()
  | HOLD => exact Moves.ite (fun _ => doResume _) fun _ => of_closes (closes_callFailed closes_endState)
  | INIT | UAS_RINGING | IN_CALL | TEAR_DOWN => exact pure ()

theorem tail {msg : StatusMsg} (h : q → ¬(msg.statusCode = 200 ∧ msg.method = .INVITE)) : Moves (Runs q) (do
    if msg.statusCode = 200 ∧ msg.method = .INVITE then ackStatus msg
    if msg.statusCode = 302 then redirect msg
    else if msg.statusCode = 480 then freeMedia) := by
  have hredirect : Moves (Runs q) (redirect msg) :=
    bind myInvokee fun _ => bind (assertOr _ _) fun _ => bind getAgent fun _ => bind (modifyAgent _) fun _ =>
      send fun _ => rfl
  have hrest : Moves (Runs q)
      (if msg.statusCode = 302 then redirect msg else if msg.statusCode = 480 then freeMedia else Pure.pure ()) :=
    Moves.ite (fun _ => hredirect) fun _ => Moves.ite (fun _ => of_closes closes_freed) fun _ => pure ()
  refine Moves.ite (fun h' => ?_) fun _ => hrest
  exact bind (Moves.ite (fun _ => send fun hq => (h hq h').elim) fun _ => pure ()) fun _ => hrest

theorem receivedStatus {msg : StatusMsg} (h : q → ¬(msg.statusCode = 200 ∧ msg.method = .INVITE)) :
    Moves (Runs q) (receivedStatus msg) :=
  catchInvalidState (bind (recvStatusControl msg) fun _ => tail h)

theorem act {op : Op} (hop : ∀ msg generated, op ≠ .status msg generated) : Moves (Runs q) op.act := by
  have hstop := of_closes (q := q) (closes_stopCall closes_endState)
  cases op with
  | status msg generated => exact (hop msg generated rfl).elim
  | request cmd => exact recvRequest cmd
  | accept =>
    refine bind get fun _ => Moves.ite (fun _ => catchInvalidState ?_) fun _ => pure ()
    exact bind myInvokee fun _ => Moves.ite (fun _ => bind (sendStatus 200) fun _ => pure _) fun _ => pure ()
  | hold =>
    have hsend : Moves (Runs q) (do
        let _ ← Ua.sendRequest ((← Ua.UaBase.getAgent).myRequestMsg.command .INVITE) : AgentM Unit) :=
      bind getAgent fun _ => bind (invite _) fun _ => pure _
    refine bind myInvokee fun _ => Moves.ite (fun _ => ?_) fun _ => bind (assertOr _ _) fun _ => hsend
    exact bind (assertOr _ _) fun _ => bind (modifyAgent _) fun _ => bind (assertOr _ _) fun _ => hsend
  | resume => exact bind myInvokee fun _ => bind (assertOr _ _) fun _ => bind (invite _) fun _ => pure _
  | stop => exact hstop
  | purge => exact bind hstop fun _ => of_closes (closes_endCall closes_endState)
  | bye => exact doBye

theorem saveAnswer (msg : StatusMsg) : Moves (Runs q) (saveAnswer msg) :=
  bind (modifyAgent _) fun _ => bind (saveRouteList _ _ _) fun _ => modifyAgent _

theorem syncResponse (msg : StatusMsg) : Moves (Runs q) (syncResponse msg) := by
  refine bind getAgent fun a => ?_
  cases a.myResponseMsg with
  | none => exact throw _
  | some response => exact modifyAgent _

theorem recvStatus (msg : StatusMsg) : Moves (Runs False) (recvStatus msg) := by
  have hreceived : Moves (Runs False) (CallAgent.receivedStatus msg) := receivedStatus False.elim
  exact Carries.recvStatus
    { refl := refl
      trans := trans
      agent := fun f _ => modifyAgent f
      sync := fun _ => modifyAgent _
      ack := send False.elim
      change := fun u _ => changeState u
      received := hreceived
      hold := fun _ => bind myInvokee fun _ => inHold
      answer := fun _ => bind hreceived fun _ => changeState .INCALL }
    (of_closes (closes_callFailed closes_endState))

/-- Every operation keeps the role and does not take the controller back to the state it starts in. -/
theorem operation (op : Op) : Moves (Runs False) op.act := by
  cases op with
  | status msg generated => exact recvStatus msg
  | _ => exact act (by simp)

end Runs

end Vocal.Ua
