import Vocal.Ua.Runs

/-!
# A controller that starts has no dialog

The controller leaves the state it starts in before the user agent gets into a dialog, in every run. Only there does a
refused INVITE go out again by itself.
-/

namespace Vocal.Ua

open AgentM UaBase Vocal.Comp CallAgent

/-- A part of a run that does not lead into a dialog. -/
def StaysOut (s t : CallAgent) : Prop := s.agent.myState.outside = true → t.agent.myState.outside = true

namespace StaysOut

variable {s t : CallAgent}

theorem refl (s : CallAgent) : StaysOut s s := id

theorem trans {s t u : CallAgent} (h : StaysOut s t) (h' : StaysOut t u) : StaysOut s u := h' ∘ h

theorem bind {α β : Type} {m : AgentM α} {f : α → AgentM β} (hm : Moves StaysOut m)
    (hf : ∀ a, Moves StaysOut (f a)) : Moves StaysOut (m >>= f) :=
  Moves.bind trans hm hf

theorem of_same (hua : t.agent.myState = s.agent.myState) : StaysOut s t := by
  unfold StaysOut
  rw [hua]
  exact id

theorem of_outside (h : t.agent.myState.outside = true) : StaysOut s t := fun _ => h

theorem of_closes (h : Closes s t) : StaysOut s t := by
  rcases h.ua with hua | hua | ⟨hua, hs⟩
  · exact of_same hua
  · exact of_outside (by rw [hua]; rfl)
  · intro hout
    rcases hs with hs | hs <;> rw [hs] at hout <;> cases hout

theorem myInvokee : Moves StaysOut myInvokee := fun s => of_closes (closes_myInvokee s)

/-- An INVITE flips the state of a dialog, but starts none. -/
theorem invite (msg : InviteMsg) : Moves StaysOut (sendRequest (msg.command .INVITE)) := by
  intro s hout
  cases hua : s.agent.myState with
  | INCALL | HOLD | END =>
    rw [hua] at hout
    cases hout
  | IDLE =>
    cases hrole : s.myRole <;>
      simp [after, sendRequest, getAgent, hua, UaStateIdle.sendRequest, hrole, InviteMsg.command, send,
        changeState, modifyAgent, UaState.outside]
  | C_TRYING =>
    simp [after, sendRequest, getAgent, hua, UacStateTrying.sendRequest, InviteMsg.command, send, UaState.outside]
  | RINGING =>
    simp [after, sendRequest, getAgent, hua, UaStateRinging.sendRequest, InviteMsg.command, UaState.outside]
  | REDIRECT | S_TRYING | FAILURE => simp [after, sendRequest, getAgent, hua, UaState.outside]

theorem doAuthentication : Moves StaysOut doAuthentication :=
  bind myInvokee fun _ => bind (fun _ => of_same rfl) fun _ => bind myInvokee fun _ =>
    bind (invite _) fun _ => refl

theorem inCall : Moves StaysOut ControlState.inCall := by
  intro s
  obtain ⟨c, hc⟩ := run_inCall s
  rw [after_of_ok hc]
  exact of_same rfl

theorem assertOr (e : Exit) (b : Bool) : Moves StaysOut (assertOr e b) := Moves.ite (fun _ => refl) fun _ => refl

theorem doResume (remoteSdp : Option SipSdp) : Moves StaysOut (doResume remoteSdp) := by
  refine bind myInvokee fun _ => bind (fun _ => of_same rfl) fun _ => ?_
  cases remoteSdp with
  | none => exact refl
  | some sdp => exact Moves.ite (fun _ => inCall) fun _ s => of_closes (closes_stopCall closes_endState s)

theorem receivedStatus (msg : StatusMsg) : Moves StaysOut (receivedStatus msg) := by
  intro s
  refine receivedStatus_of (P := StaysOut s) (fun _ _ hsame h => h.trans (of_same hsame.2)) ?_
  have hanswer : Moves StaysOut CallAgent.inCall := bind inCall fun _ => bind myInvokee fun _ => assertOr _ _
  have hcancel : Moves StaysOut (doCancel endState) := fun s => of_closes (closes_doCancel closes_endState s)
  have hfailed : Moves StaysOut (callFailed endState) := fun s => of_closes (closes_callFailed closes_endState s)
  have hrecv : Moves StaysOut (ControlState.recvStatus msg) := by
    refine bind refl fun s => ?_
    cases s.myState with
    | TRYING =>
      exact Moves.ite (fun _ => hanswer) fun _ => Moves.ite (fun _ => doAuthentication) fun _ =>
        Moves.ite (fun _ => refl) fun _ => Moves.ite (fun _ => hcancel) fun _ =>
        Moves.ite (fun _ _ => of_same rfl) fun _ => refl
    | UAC_RINGING =>
      exact Moves.ite (fun _ => Moves.ite (fun _ => hanswer) fun _ => Moves.ite (fun _ => hcancel) fun _ => refl)
        fun _ => refl
    | HOLD => exact Moves.ite (fun _ => doResume _) fun _ => hfailed
    | INIT | UAS_RINGING | IN_CALL | TEAR_DOWN => exact refl
  exact hrecv s

theorem recvStatus {msg : StatusMsg} (hcode : 200 < msg.statusCode) : Moves StaysOut (recvStatus msg) :=
  Carries.recvStatus
    { refl := refl
      trans := trans
      agent := fun f hf s => of_same (hf s.agent).1
      sync := fun _ _ => of_same rfl
      ack := fun _ => of_same rfl
      change := fun _ hu _ => of_outside hu
      received := receivedStatus msg
      hold := by
        refine fun _ => bind myInvokee fun _ s => ?_
        obtain ⟨c, hc⟩ := run_inHold s
        rw [after_of_ok hc]
        exact of_same rfl
      answer := fun h200 => by omega }
    fun s => of_closes (closes_callFailed closes_endState s)

end StaysOut

/-- The controller is in the state it starts in only before the call is up for the user agent. -/
def CallAgent.Early (s : CallAgent) : Prop := s.myState = .TRYING → s.agent.myState.outside = true

/-- A part of a run that keeps that. -/
def KeepsEarly (s t : CallAgent) : Prop := s.Early → t.Early

namespace KeepsEarly

variable {s t : CallAgent}

theorem refl (s : CallAgent) : KeepsEarly s s := id

theorem trans {s t u : CallAgent} (h : KeepsEarly s t) (h' : KeepsEarly t u) : KeepsEarly s u := h' ∘ h

theorem bind {α β : Type} {m : AgentM α} {f : α → AgentM β} (hm : Moves KeepsEarly m)
    (hf : ∀ a, Moves KeepsEarly (f a)) : Moves KeepsEarly (m >>= f) :=
  Moves.bind trans hm hf

theorem of_staysOut (htrying : t.myState = .TRYING → s.myState = .TRYING) (h : StaysOut s t) : KeepsEarly s t :=
  fun hs ht => h (hs (htrying ht))

theorem of_same (htrying : t.myState = .TRYING → s.myState = .TRYING)
    (hua : t.agent.myState = s.agent.myState) : KeepsEarly s t :=
  of_staysOut htrying (StaysOut.of_same hua)

theorem of_closes (h : Closes s t) : KeepsEarly s t := of_staysOut h.trying (StaysOut.of_closes h)

theorem myInvokee : Moves KeepsEarly myInvokee := fun s => of_closes (closes_myInvokee s)

theorem changeState {u : UaState} (h : u.outside = true) : Moves KeepsEarly (changeState u) := fun _ _ _ => h

theorem pure {α : Type} (a : α) : Moves KeepsEarly (Pure.pure a : AgentM α) := refl

theorem get : Moves KeepsEarly (get : AgentM CallAgent) := refl

theorem assertOr (e : Exit) (b : Bool) : Moves KeepsEarly (assertOr e b) :=
  Moves.ite (fun _ => pure ()) fun _ => refl

theorem invite (msg : InviteMsg) : Moves KeepsEarly (sendRequest (msg.command .INVITE)) := fun s =>
  of_staysOut (Runs.invite (q := False) msg s).trying (StaysOut.invite msg s)

theorem receivedStatus (msg : StatusMsg) : Moves KeepsEarly (receivedStatus msg) := by
  have hruns := @Runs.receivedStatus False msg False.elim
  exact fun s => of_staysOut (hruns s).trying (StaysOut.receivedStatus msg s)

theorem answering (s : CallAgent) : (after CallAgent.inCall s).myState ≠ .TRYING := by
  refine after_bind_of (P := fun t : CallAgent => t.myState ≠ .TRYING) ?_ fun _ t _ ht htrying => ?_
  · intro htrying
    have hs := (Runs.inCall (q := False) s).trying htrying
    simp [after, ControlState.inCall, hs, ControlState.changeState] at htrying
  · have hsession := Runs.bind (q := False) Runs.myInvokee fun a => Runs.assertOr .abort a.myRemoteSdp
    exact ht ((hsession t).trying htrying)

theorem answered {msg : StatusMsg} (hcode : msg.statusCode = 200) (s : CallAgent) :
    (after (CallAgent.receivedStatus msg) s).myState ≠ .TRYING := by
  have hruns := @Runs.receivedStatus False msg False.elim
  by_cases hs : s.myState = .TRYING
  case neg => exact fun ht => hs ((hruns s).trying ht)
  have hrecv : after (ControlState.recvStatus msg) s = after CallAgent.inCall s := by
    simp only [after, ControlState.recvStatus, run_get_bind, hs, hcode, if_true]
  refine receivedStatus_of (P := fun t : CallAgent => t.myState ≠ .TRYING) (fun _ _ hsame h => hsame.1 ▸ h) ?_
  rw [hrecv]
  exact answering s

theorem recvStatus (msg : StatusMsg) : Moves KeepsEarly (recvStatus msg) :=
  Carries.recvStatus
    { refl := refl
      trans := trans
      agent := fun f hf s => of_same id (hf s.agent).1
      sync := fun _ _ => of_same id rfl
      ack := fun _ => of_same id rfl
      change := fun _ hu => changeState hu
      received := receivedStatus msg
      hold := by
        refine fun _ => bind myInvokee fun _ s => ?_
        obtain ⟨c, hc⟩ := run_inHold s
        have hruns := (Runs.inHold (q := False) s).trying
        rw [after_of_ok hc] at hruns ⊢
        exact of_same hruns rfl
      answer := by
        intro hcode s
        refine after_bind (R := KeepsEarly) trans (receivedStatus msg s) fun _ t ht _ hcontrol => ?_
        have hup := answered hcode s
        rw [after_of_ok ht] at hup
        exact (hup hcontrol).elim }
    fun s => of_closes (closes_callFailed closes_endState s)

theorem modifyAgent {f : UaBase → UaBase} (hf : ∀ a, (f a).myState = a.myState) : Moves KeepsEarly (modifyAgent f) :=
  fun s => of_same id (hf s.agent)

theorem reply (cmd : SipCommand) (statusCode : Nat) (memorizeResponse : Bool) :
    Moves KeepsEarly (sendReplyForRequest cmd statusCode memorizeResponse) :=
  bind (fun _ => of_same id rfl) fun _ => Moves.ite (fun _ => modifyAgent fun _ => rfl) fun _ => pure ()

theorem catchInvalidState {m : AgentM Unit} (hm : Moves KeepsEarly m) : Moves KeepsEarly (catchInvalidState m) := by
  intro s
  rw [after_catch]
  exact hm s

theorem inCall : Moves KeepsEarly ControlState.inCall := fun s =>
  of_staysOut (Runs.inCall (q := False) s).trying (StaysOut.inCall s)

theorem accepted {m : AgentM Unit} (hm : Moves KeepsEarly m) :
    Moves KeepsEarly (do m; CallAgent.inCall; Ua.UaBase.changeState .INCALL; return 0 : AgentM Int) := by
  refine bind hm fun _ s _ => ?_
  have hup := answering s
  refine after_bind_of (P := fun t : CallAgent => t.Early) (fun ht => (hup ht).elim) fun _ t ht _ => ?_
  rw [after_of_ok ht] at hup
  exact fun htrying => (hup htrying).elim

theorem sendStatus : Moves KeepsEarly (sendStatus endState 200) := by
  have hfinal : Moves KeepsEarly (sendFinal 200) := bind refl fun _ => reply _ _ _
  refine bind refl fun a => ?_
  cases a.myState with
  | IDLE | C_TRYING | REDIRECT | FAILURE | END => exact pure _
  | S_TRYING => exact bind refl fun a => bind (assertOr _ _) fun _ => accepted hfinal
  | RINGING =>
    refine bind refl fun a => Moves.ite (fun h => by omega) fun _ => Moves.ite (fun h => by omega) fun _ =>
      Moves.ite (fun h => by omega) fun _ => Moves.ite (fun _ => accepted hfinal) fun _ => ?_
    exact bind (changeState (u := .IDLE) rfl) fun _ => Moves.throw refl _
  | INCALL | HOLD =>
    exact bind refl fun a => bind (assertOr _ _) fun _ => bind (fun _ => of_same id rfl) fun _ => pure _

theorem recvReq (cmd : SipCommand) : Moves KeepsEarly (ControlState.recvReq cmd) := by
  have hcancel : Moves KeepsEarly (doCancel endState) := fun s => of_closes (closes_doCancel closes_endState s)
  have hstop : Moves KeepsEarly (stopCall endState) := fun s => of_closes (closes_stopCall closes_endState s)
  have hresume : Moves KeepsEarly reqResume := by
    refine catchInvalidState (bind myInvokee fun a => ?_)
    cases a.myRequestMsg.sdp with
    | none => exact Moves.throw refl _
    | some sdp =>
      exact bind sendStatus fun _ => bind myInvokee fun _ => Moves.ite (fun _ => inCall) fun _ => hstop
  refine bind refl fun s => ?_
  cases s.myState with
  | UAS_RINGING => exact Moves.ite (fun _ => hcancel) fun _ => pure ()
  | HOLD => exact Moves.ite (fun _ => hresume) fun _ => pure ()
  | INIT | TRYING | UAC_RINGING | IN_CALL | TEAR_DOWN => exact pure ()

theorem saveRoutes (urls : List BaseUrl) : Moves KeepsEarly (saveRoutes false urls) := by
  induction urls with
  | nil => exact pure ()
  | cons url urls ih =>
    cases url with
    | SIP_URL text => exact bind (modifyAgent fun _ => rfl) fun _ => ih
    | TEL_URL text => exact Moves.throw refl _

theorem recvRequest (cmd : SipCommand) {s : CallAgent} (hout : s.agent.myState.outside = true) :
    KeepsEarly s (after (recvRequest cmd) s) := by
  have hfail : Moves KeepsEarly (do receivedRequest cmd; Ua.UaBase.changeState .FAILURE) :=
    bind (recvReq cmd) fun _ => changeState rfl
  have hrefuse {m : AgentM Unit} (hm : Moves KeepsEarly m) : Moves KeepsEarly (do
      sendReplyForRequest ((← getAgent).myRequestMsg.command .INVITE) 487 true; m) :=
    bind refl fun _ => bind (reply _ _ _) fun _ => hm
  refine after_bind (R := KeepsEarly) trans (refl s) fun a t ha => ?_
  cases ha
  cases hua : s.agent.myState with
  | INCALL | HOLD | END =>
    rw [hua] at hout
    cases hout
  | REDIRECT => exact refl s
  | C_TRYING => exact recvReq cmd s
  | IDLE =>
    have htrying : Moves KeepsEarly (Ua.UaBase.changeState .S_TRYING) := changeState rfl
    have hroutes : Moves KeepsEarly (saveRouteList cmd.recordRouteList cmd.contactList false) := by
      refine bind (modifyAgent fun _ => rfl) fun _ => bind (saveRoutes _) fun _ => ?_
      cases cmd.contactList.getLast? with
      | none => exact pure ()
      | some contact => exact modifyAgent fun _ => rfl
    refine bind get (fun _ => Moves.ite (fun _ => ?_) fun _ => pure ()) s
    exact bind hroutes fun _ => bind (reply _ _ _) fun _ =>
      Moves.ite (fun _ => bind (modifyAgent fun _ => rfl) fun _ => htrying) fun _ => htrying
  | S_TRYING =>
    have hcancel : Moves KeepsEarly (doCancel endState) := fun s => of_closes (closes_doCancel closes_endState s)
    refine Moves.ite (fun _ => bind (reply _ _ _) fun _ => ?_) (fun _ => ?_) s
    · exact Moves.ite (fun _ => hrefuse (bind hcancel fun _ => hfail)) fun _ => hfail
    · exact Moves.ite (fun _ => changeState rfl) fun _ => pure ()
  | RINGING =>
    refine Moves.ite (fun _ => bind (reply _ _ _) fun _ => ?_) (fun _ => pure ()) s
    exact Moves.ite (fun _ => hrefuse hfail) fun _ => hfail
  | FAILURE =>
    have hfailed : Moves KeepsEarly (callFailed endState) := fun s => of_closes (closes_callFailed closes_endState s)
    refine bind get (fun _ => Moves.ite (fun _ => bind hfailed fun _ => ?_) fun _ => pure ()) s
    exact changeState rfl

theorem operation (op : Op) : Moves KeepsEarly op.act := by
  intro s
  by_cases hout : s.agent.myState.outside = true
  case neg => exact fun hs ht => (hout (hs ((Runs.operation op s).trying ht))).elim
  have hstop : Moves KeepsEarly (stopCall endState) := fun s => of_closes (closes_stopCall closes_endState s)
  have hend : Moves KeepsEarly (endCall endState) := fun s => of_closes (closes_endCall closes_endState s)
  cases op with
  | status msg generated => exact recvStatus msg s
  | request cmd => exact recvRequest cmd hout
  | accept =>
    refine bind get (fun _ => Moves.ite (fun _ => catchInvalidState ?_) fun _ => pure ()) s
    exact bind myInvokee fun _ => Moves.ite (fun _ => bind sendStatus fun _ => pure _) fun _ => pure ()
  | hold =>
    have hsend : Moves KeepsEarly (do
        let _ ← sendRequest ((← getAgent).myRequestMsg.command .INVITE) : AgentM Unit) :=
      bind refl fun _ => bind (invite _) fun _ => pure _
    refine bind myInvokee (fun _ => Moves.ite (fun _ => ?_) fun _ => bind (assertOr _ _) fun _ => hsend) s
    exact bind (assertOr _ _) fun _ => bind (modifyAgent fun _ => rfl) fun _ => bind (assertOr _ _) fun _ => hsend
  | resume => exact bind myInvokee (fun _ => bind (assertOr _ _) fun _ => bind (invite _) fun _ => pure _) s
  | stop => exact hstop s
  | purge => exact bind hstop (fun _ => hend) s
  | bye =>
    have hbye : Moves KeepsEarly sendBye := by
      intro s
      rw [after, run_sendBye]
      cases s.myRole with
      | A_CLIENT => cases s.agent.myResponseMsg <;> exact of_same id rfl
      | A_SERVER => cases s.agent.myAckMsg <;> exact of_same id rfl
    exact bind get (fun _ => Moves.ite (fun _ => bind myInvokee fun _ => bind hbye fun _ => hend) fun _ => hend) s

end KeepsEarly

/-- A call of this side or of the peer, before anything else has reached it. -/
def CallAgent.Starts (start : CallAgent) (invite : InviteMsg) : Prop :=
  start = client invite ∨ start = server invite

theorem early_of_starts {start : CallAgent} {invite : InviteMsg} (h : start.Starts invite) : start.Early := by
  rcases h with rfl | rfl
  · exact fun _ => rfl
  · -- the controller of a server has never been in that state
    have hruns : Moves (Runs False) (do
        recvRequest (invite.command .INVITE)
        ControlState.changeState .UAS_RINGING
        let _ ← sendStatus endState 180) :=
      Runs.bind (Runs.recvRequest _) fun _ => Runs.bind (Runs.control (by decide)) fun _ =>
        Runs.bind (Runs.sendStatus 180) fun _ => Runs.pure _
    intro htrying
    have hfresh := (hruns (fresh .A_SERVER invite)).trying htrying
    cases hfresh

theorem early_of_reachable {start : CallAgent} {c : Call} (hstart : start.Early)
    (hc : (Call.machine start).Reachable c) : c.agent.Early := by
  refine Machine.Reachable.induct (P := fun c : Call => c.agent.Early) hstart (fun c op h => ?_) hc
  show (c.step op).agent.Early
  unfold Call.step
  split
  · exact KeepsEarly.operation op c.agent h
  · exact h

end Vocal.Ua
