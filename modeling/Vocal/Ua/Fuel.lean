import Vocal.Ua.Settled

/-!
# The bounds are never used up

The loops around `ControlState::end` take at most two turns and the calls go at most two deep, whatever the sends report.
So the bounds of the model cut no run short.
-/

namespace Vocal.Ua

open AgentM UaBase Vocal.Comp CallAgent

/-- The computation does not use its bounds up. -/
def Fueled {α : Type} (m : AgentM α) : Prop := Avoids .outOfFuel m

namespace Fueled

variable {α β : Type} {m : AgentM α} {f : α → AgentM β}

theorem bind (hm : Fueled m) (hf : ∀ a, Fueled (f a)) : Fueled (m >>= f) := Avoids.bind hm hf

theorem pure (a : α) : Fueled (Pure.pure a) := Avoids.pure a

theorem get : Fueled get := Avoids.get

theorem modifyAgent (f : UaBase → UaBase) : Fueled (modifyAgent f) := Avoids.modify _

theorem getAgent : Fueled getAgent := bind get fun _ => pure _

theorem changeState (u : UaState) : Fueled (changeState u) := modifyAgent _

theorem send (m : Sent) : Fueled (send m) := Avoids.modify _

theorem throw {e : Exit} (he : e ≠ .outOfFuel) : Fueled (throw e : AgentM α) := Avoids.throw he

theorem ite {c : Prop} [Decidable c] {n : AgentM α} (hm : Fueled m) (hn : Fueled n) : Fueled (if c then m else n) :=
  Avoids.ite hm hn

theorem assertOr {e : Exit} (he : e ≠ .outOfFuel) (b : Bool) : Fueled (assertOr e b) := ite (pure ()) (throw he)

theorem catchInvalidState {m : AgentM Unit} (hm : Fueled m) : Fueled (catchInvalidState m) :=
  Avoids.tryCatch hm fun _ he => ite (pure ()) (throw he)

theorem of_terminates (h : ∀ s, Terminates m s) : Fueled m := fun s hexit => ((h s).exit hexit).1 rfl

/-! ## The user agent -/

theorem sendReplyForRequest (cmd : SipCommand) (statusCode : Nat) (memorizeResponse : Bool) :
    Fueled (sendReplyForRequest cmd statusCode memorizeResponse) :=
  bind (send _) fun _ => ite (modifyAgent _) (pure ())

theorem saveRoutes (reverse : Bool) (urls : List BaseUrl) : Fueled (saveRoutes reverse urls) := by
  induction urls with
  | nil => exact pure ()
  | cons url urls ih =>
    cases url with
    | SIP_URL text => exact bind (modifyAgent _) fun _ => ih
    | TEL_URL text => exact throw (by decide)

theorem saveRouteList (recordRouteList contactList : List BaseUrl) (reverse : Bool) :
    Fueled (saveRouteList recordRouteList contactList reverse) := by
  refine bind (modifyAgent _) fun _ => bind (saveRoutes reverse recordRouteList) fun _ => ?_
  cases contactList.getLast? with
  | none => exact pure ()
  | some contact => exact modifyAgent _

theorem ackStatus (msg : StatusMsg) : Fueled (ackStatus msg) := ite (send _) (pure ())

theorem sendBye : Fueled sendBye := by
  refine bind get fun s => ?_
  cases s.myRole with
  | A_CLIENT =>
    exact bind (assertOr (by decide) _) fun _ => bind (modifyAgent _) fun _ => bind (send _) fun _ => pure true
  | A_SERVER => exact ite (pure false) (bind (send _) fun _ => pure true)

theorem reInvite (cmd : SipCommand) : Fueled (reInvite cmd) := by
  refine bind ?_ fun cseq => bind getAgent fun a => bind (assertOr (by decide) _) fun _ => send _
  exact bind (assertOr (by decide) _) fun _ => bind getAgent fun a => bind (assertOr (by decide) _) fun _ =>
    bind (modifyAgent _) fun _ => pure _

theorem sendCancelMsg : Fueled sendCancelMsg := bind getAgent fun _ => send _

theorem sendInDialog (held : UaState) {ack : SipCommand → AgentM Unit} (hack : ∀ cmd, Fueled (ack cmd))
    (cmd : SipCommand) : Fueled (sendInDialog held ack cmd) := by
  unfold Ua.sendInDialog
  cases cmd.method with
  | ACK => exact bind (hack cmd) fun _ => pure 0
  | BYE => exact bind sendBye fun _ => bind (changeState _) fun _ => pure 0
  | INVITE => exact bind (reInvite cmd) fun _ => bind (changeState _) fun _ => pure 0
  | CANCEL => exact bind sendCancelMsg fun _ => bind (changeState _) fun _ => pure 0
  | INFO | OPTIONS | other => exact pure _

theorem sendRequest (cmd : SipCommand) : Fueled (sendRequest cmd) := by
  refine bind getAgent fun a => ?_
  cases a.myState with
  | IDLE => exact bind get fun _ => ite (bind (send _) fun _ => bind (changeState _) fun _ => pure 0) (pure _)
  | C_TRYING =>
    exact ite (bind sendCancelMsg fun _ => bind (changeState _) fun _ => pure 0)
      (ite (bind (send _) fun _ => pure 0) (pure _))
  | RINGING => exact ite (bind sendCancelMsg fun _ => bind (changeState _) fun _ => pure 0) (pure _)
  | INCALL =>
    refine sendInDialog _ (fun cmd => bind getAgent fun a => ?_) cmd
    cases a.myResponseMsg with
    | none => exact throw (by decide)
    | some response => exact bind (ackStatus _) fun _ => ite (modifyAgent _) (pure ())
  | HOLD =>
    refine sendInDialog _ (fun cmd => bind getAgent fun a => ?_) cmd
    cases a.myResponseMsg with
    | none => exact throw (by decide)
    | some response => exact send _
  | REDIRECT | S_TRYING | FAILURE | END => exact pure _

/-! ## The states of the invoker -/

theorem control (c : ControlState) : Fueled (ControlState.changeState c) := Avoids.modify _

theorem freeMedia : Fueled freeMedia := Avoids.modify _

theorem myInvokee : Fueled myInvokee := bind get fun _ => bind (assertOr (by decide) _) fun _ => pure _

theorem inCall : Fueled ControlState.inCall := by
  refine bind get fun s => ?_
  cases s.myState <;> first | exact control _ | exact pure ()

theorem inHold : Fueled ControlState.inHold := by
  refine bind get fun s => ?_
  cases s.myState <;> first | exact control _ | exact pure ()

theorem startSession : Fueled CallAgent.inCall :=
  bind inCall fun _ => bind myInvokee fun _ => assertOr (by decide) _

end Fueled

theorem settles_endState : Settles endState := by
  have h := settles_endWith (fun _ answer => answer) 0
  rwa [endWith_answer] at h

namespace Fueled

theorem callFailed : Fueled (callFailed endState) := of_terminates settles_endState.ends_callFailed

theorem doCancel : Fueled (doCancel endState) := of_terminates settles_endState.ends_doCancel

theorem stopCall : Fueled (stopCall endState) := of_terminates settles_endState.ends_stopCall

theorem endCall : Fueled (endCall endState) := of_terminates settles_endState.ends_endCall

theorem doBye : Fueled (doBye endState) := of_terminates settles_endState.ends_doBye

/-! ## The handlers -/

theorem sendStatus (statusCode : Nat) : Fueled (sendStatus endState statusCode) := by
  have hfinal : Fueled (sendFinal statusCode) := bind getAgent fun _ => sendReplyForRequest _ _ _
  have hanswer : Fueled (do
      sendFinal statusCode; CallAgent.inCall; Ua.UaBase.changeState .INCALL; return 0 : AgentM Int) :=
    bind hfinal fun _ => bind startSession fun _ => bind (changeState _) fun _ => pure 0
  refine bind getAgent fun a => ?_
  cases a.myState with
  | IDLE | C_TRYING | REDIRECT | FAILURE | END => exact pure _
  | S_TRYING =>
    refine bind getAgent fun a => ite (pure _) (ite ?_ (ite ?_ (ite ?_ (pure _))))
    · exact bind (sendReplyForRequest _ _ _) fun _ => bind (changeState _) fun _ => pure 0
    · exact bind hfinal fun _ => bind (changeState _) fun _ => pure 0
    · exact bind (assertOr (by decide) _) fun _ => hanswer
  | RINGING =>
    refine bind getAgent fun a => ite (pure _) (ite ?_ (ite ?_ (ite hanswer ?_)))
    · exact bind endCall fun _ => bind (changeState _) fun _ => pure 0
    · exact bind (assertOr (by decide) _) fun _ => bind hfinal fun _ => bind callFailed fun _ =>
        bind (changeState _) fun _ => pure 0
    · exact bind (changeState _) fun _ => throw (by decide)
  | INCALL | HOLD =>
    refine bind getAgent fun a => ite ?_ (ite ?_ (pure _))
    · exact bind (assertOr (by decide) _) fun _ => bind (send _) fun _ => pure 0
    · exact bind (sendReplyForRequest _ _ _) fun _ => pure 0

theorem resumeSession (sdp : SipSdp) : Fueled (resumeSession sdp) := ite inCall stopCall

theorem doResume (remoteSdp : Option SipSdp) : Fueled (doResume remoteSdp) := by
  refine bind myInvokee fun _ => bind (modifyAgent _) fun _ => ?_
  cases remoteSdp with
  | none => exact throw (by decide)
  | some sdp => exact resumeSession sdp

theorem reqResume : Fueled reqResume := by
  refine catchInvalidState (bind myInvokee fun a => ?_)
  cases a.myRequestMsg.sdp with
  | none => exact throw (by decide)
  | some sdp => exact bind (sendStatus 200) fun _ => bind myInvokee fun _ => resumeSession sdp

theorem holdAndResumeReinvite : Fueled holdAndResumeReinvite := by
  refine catchInvalidState (bind myInvokee fun a => ?_)
  cases a.myRequestMsg.sdp with
  | none => exact throw (by decide)
  | some sdp =>
    exact bind (sendStatus 200) fun _ => bind myInvokee fun _ => bind inHold fun _ => doResume (some sdp)

theorem recvReq (cmd : SipCommand) : Fueled (ControlState.recvReq cmd) := by
  refine bind get fun s => ?_
  cases s.myState with
  | UAS_RINGING => exact ite doCancel (pure ())
  | HOLD => exact ite reqResume (pure ())
  | INIT | TRYING | UAC_RINGING | IN_CALL | TEAR_DOWN => exact pure ()

theorem recvInDialog {reInvited options : AgentM Unit} (hreInvited : Fueled reInvited) (hoptions : Fueled options)
    (cmd : SipCommand) (held : UaState) : Fueled (recvInDialog reInvited cmd held options) := by
  unfold Ua.recvInDialog
  cases cmd.method with
  | INFO => exact bind (sendReplyForRequest _ _ _) fun _ => recvReq cmd
  | BYE =>
    exact bind (sendReplyForRequest _ _ _) fun _ => bind endCall fun _ => bind (recvReq cmd) fun _ => changeState _
  | ACK => exact bind (modifyAgent _) fun _ => recvReq cmd
  | INVITE =>
    exact bind (sendReplyForRequest _ _ _) fun _ => bind (modifyAgent _) fun _ => bind hreInvited fun _ => changeState _
  | CANCEL =>
    exact bind (sendReplyForRequest _ _ _) fun _ => bind (sendReplyForRequest _ _ _) fun _ =>
      bind (recvReq cmd) fun _ => bind endCall fun _ => changeState _
  | OPTIONS => exact hoptions
  | other => exact pure ()

theorem recvRequest (cmd : SipCommand) : Fueled (recvRequest cmd) := by
  have hfail : Fueled (do receivedRequest cmd; Ua.UaBase.changeState .FAILURE) :=
    bind (recvReq cmd) fun _ => changeState _
  refine bind getAgent fun a => ?_
  cases a.myState with
  | IDLE =>
    refine bind get fun _ => ite ?_ (pure ())
    exact bind (saveRouteList _ _ _) fun _ => bind (sendReplyForRequest _ _ _) fun _ =>
      ite (bind (modifyAgent _) fun _ => changeState _) (changeState _)
  | C_TRYING => exact recvReq cmd
  | S_TRYING =>
    refine ite (bind (sendReplyForRequest _ _ _) fun _ => ite ?_ hfail) (ite (changeState _) (pure ()))
    exact bind getAgent fun _ => bind (sendReplyForRequest _ _ _) fun _ => bind doCancel fun _ => hfail
  | RINGING =>
    refine ite (bind (sendReplyForRequest _ _ _) fun _ => ite ?_ hfail) (pure ())
    exact bind getAgent fun _ => bind (sendReplyForRequest _ _ _) fun _ => hfail
  | INCALL => exact recvInDialog holdAndResumeReinvite (send _) cmd .HOLD
  | HOLD => exact recvInDialog reqResume (pure ()) cmd .INCALL
  | FAILURE => exact bind get fun _ => ite (bind callFailed fun _ => changeState _) (pure ())
  | REDIRECT | END => exact pure ()

theorem receivedStatus (msg : StatusMsg) : Fueled (receivedStatus msg) := by
  have hredirect : Fueled (redirect msg) :=
    bind myInvokee fun _ => bind (assertOr (by decide) _) fun _ => bind getAgent fun _ => bind (modifyAgent _) fun _ =>
      send _
  have hrest : Fueled
      (if msg.statusCode = 302 then redirect msg else if msg.statusCode = 480 then CallAgent.freeMedia else Pure.pure ()) :=
    ite hredirect (ite freeMedia (pure ()))
  refine catchInvalidState (bind (bind get fun s => ?_) fun _ => ite (bind (ackStatus _) fun _ => hrest) hrest)
  cases s.myState with
  | TRYING =>
    refine ite startSession (ite ?_ (ite (pure ()) (ite doCancel (ite (control _) (pure ())))))
    exact bind myInvokee fun _ => bind (modifyAgent _) fun _ => bind myInvokee fun _ => bind (sendRequest _) fun _ => pure _
  | UAC_RINGING => exact ite (ite startSession (ite doCancel (pure ()))) (pure ())
  | HOLD => exact ite (doResume _) callFailed
  | INIT | UAS_RINGING | IN_CALL | TEAR_DOWN => exact pure ()

theorem recvStatus (msg : StatusMsg) : Fueled (recvStatus msg) := by
  have hreceived := receivedStatus msg
  have hset (u : UaState) : Fueled (do Ua.UaBase.changeState u; CallAgent.receivedStatus msg) :=
    bind (changeState u) fun _ => hreceived
  have hsave : Fueled (saveAnswer msg) :=
    bind (modifyAgent _) fun _ => bind (saveRouteList _ _ _) fun _ => modifyAgent _
  have hsync : Fueled (syncResponse msg) := by
    refine bind getAgent fun a => ?_
    cases a.myResponseMsg with
    | none => exact throw (by decide)
    | some response => exact modifyAgent _
  have hanswer : Fueled (do CallAgent.receivedStatus msg; Ua.UaBase.changeState .INCALL) :=
    bind hreceived fun _ => changeState _
  have hack : Fueled (ackFailure msg) := ite (send _) (pure ())
  have hring : Fueled (if 180 ≤ msg.statusCode then do Ua.UaBase.changeState .RINGING; CallAgent.receivedStatus msg
      else CallAgent.receivedStatus msg) := ite (hset _) hreceived
  refine bind getAgent fun a => ?_
  cases a.myState with
  | IDLE | S_TRYING => exact pure ()
  | C_TRYING =>
    refine ite (bind hsave fun _ => hanswer) (ite (bind hack fun _ => ite hreceived (ite ?_ (hset _))) hring)
    exact ite (bind (changeState _) fun _ => callFailed) (hset _)
  | RINGING =>
    refine ite ?_ (ite (bind hack fun _ => bind hreceived fun _ => changeState _) (pure ()))
    exact bind hsave fun _ => bind hsync fun _ => bind (modifyAgent _) fun _ => hanswer
  | REDIRECT => exact ite (bind hsave fun _ => hanswer) (ite (bind hack fun _ => hset _) hring)
  | INCALL =>
    have hrest : Fueled (if msg.statusCode = 200 ∧ msg.method = .INVITE then do
          syncResponse msg; setLocalCSeq msg.cseq; CallAgent.receivedStatus msg
        else CallAgent.receivedStatus msg) :=
      ite (bind hsync fun _ => bind (modifyAgent _) fun _ => hreceived) hreceived
    exact ite (bind (send _) fun _ => hrest) hrest
  | HOLD =>
    have hrest : Fueled (if msg.statusCode = 200 ∧ msg.method = .INVITE then do syncResponse msg; dohold
        else CallAgent.receivedStatus msg) :=
      ite (bind hsync fun _ => bind myInvokee fun _ => inHold) hreceived
    exact ite (bind (send _) fun _ => hrest) hrest
  | FAILURE =>
    have hrest : Fueled (do CallAgent.receivedStatus msg; CallAgent.callFailed endState; Ua.UaBase.changeState .IDLE) :=
      bind hreceived fun _ => bind callFailed fun _ => changeState _
    exact bind get fun _ => bind (assertOr (by decide) _) fun _ =>
      ite (ite (bind (send _) fun _ => hrest) hrest) (pure ())
  | END => exact hset _

end Fueled

theorem operation_fueled (op : Op) : Fueled op.act := by
  have hsend : Fueled (do let _ ← sendRequest ((← getAgent).myRequestMsg.command .INVITE) : AgentM Unit) :=
    Fueled.bind Fueled.getAgent fun _ => Fueled.bind (Fueled.sendRequest _) fun _ => Fueled.pure _
  have hassert (b : Bool) : Fueled (assertOr .abort b) := Fueled.assertOr (by decide) b
  cases op with
  | status msg generated => exact Fueled.recvStatus msg
  | request cmd => exact Fueled.recvRequest cmd
  | accept =>
    refine Fueled.bind Fueled.get fun _ => Fueled.ite (Fueled.catchInvalidState ?_) (Fueled.pure ())
    exact Fueled.bind Fueled.myInvokee fun _ =>
      Fueled.ite (Fueled.bind (Fueled.sendStatus 200) fun _ => Fueled.pure _) (Fueled.pure ())
  | hold =>
    refine Fueled.bind Fueled.myInvokee fun _ => Fueled.ite ?_ (Fueled.bind (hassert _) fun _ => hsend)
    exact Fueled.bind (hassert _) fun _ => Fueled.bind (Fueled.modifyAgent _) fun _ =>
      Fueled.bind (hassert _) fun _ => hsend
  | resume =>
    exact Fueled.bind Fueled.myInvokee fun _ => Fueled.bind (hassert _) fun _ =>
      Fueled.bind (Fueled.sendRequest _) fun _ => Fueled.pure _
  | stop => exact Fueled.stopCall
  | purge => exact Fueled.bind Fueled.stopCall fun _ => Fueled.endCall
  | bye => exact Fueled.doBye

end Vocal.Ua
