import Vocal.Ua.Closing
import Vocal.Ua.Provisional

/-!
# How the controller can die

What the controller does in answer to a message does not go through the `myInvokee` that it has dropped itself, unless it
gives the call up at a 302 and then redirects it.
-/

namespace Vocal.Ua

open AgentM UaBase Vocal.Comp CallAgent

/-- The early ends that a message of the peer must not lead to: a use of the dropped user agent, and a failed assertion
of a `UaState` class. -/
def Exit.Kills : Exit → Prop
  | .droppedInvokee | .uaStateAssert => True
  | _ => False

/-- The other ones, except for the exception that the controller catches. -/
def Exit.Calm (e : Exit) : Prop := ¬e.Kills ∧ e ≠ .invalidState

theorem calm_abort : Exit.Calm .abort := ⟨id, by decide⟩

theorem calm_outOfFuel : Exit.Calm .outOfFuel := ⟨id, by decide⟩

theorem calm_hang : Exit.Calm .hang := ⟨id, by decide⟩

/-- The agent is there, or the controller is back at the start and does not ask for it. -/
def CallAgent.Sound (s : CallAgent) : Prop := s.myActiveFlg = true ∨ s.myState = .INIT

/-- Moreover no busy tone can be sent from the ringing. -/
def CallAgent.Quiet (s : CallAgent) : Prop :=
  s.Sound ∧ (s.myState = .UAS_RINGING → s.agent.myState ≠ .RINGING)

variable {s : CallAgent}

theorem sound_active (h : s.Sound) (hinit : s.myState ≠ .INIT) : s.myActiveFlg = true := h.resolve_right hinit

theorem quiet_dropped (s : CallAgent) : s.dropped.Quiet := ⟨Or.inr rfl, fun h => by cases h⟩

theorem quiet_of_ne (h : s.Sound) (hne : s.myState ≠ .UAS_RINGING) : s.Quiet := ⟨h, fun h' => (hne h').elim⟩

theorem ends_catch {Q : Unit → CallAgent → Prop} {m : AgentM Unit} (h : Ends Q Exit.Calm m s) :
    Ends Q Exit.Calm (catchInvalidState m) s := by
  cases hrun : m s with
  | ok a t =>
    rw [Ends, hrun] at h
    exact Ends.of_ok (run_catch_ok hrun) h
  | error e t =>
    rw [Ends, hrun] at h
    have hcatch : catchInvalidState m s = .error e t := by
      rw [catchInvalidState, run_tryCatch_error hrun]
      simp [h.2]
    exact Ends.of_error hcatch h

theorem ends_assertOr {Q : Unit → CallAgent → Prop} {e : Exit} (he : e.Calm) (h : Q () s) (b : Bool) :
    Ends Q Exit.Calm (assertOr e b) s := by
  cases b with
  | true => exact Ends.of_ok rfl h
  | false => exact Ends.of_error rfl he

theorem ends_myInvokee {Q : UaBase → CallAgent → Prop} (hactive : s.myActiveFlg = true) (h : Q s.agent s) :
    Ends Q Exit.Calm myInvokee s :=
  Ends.of_ok (run_myInvokee hactive) h

/-! ## The functions that end a call -/

theorem ends_cancel (h : s.Sound) : Ends (fun _ => CallAgent.Quiet) Exit.Calm ControlState.cancel s := by
  by_cases hpending : s.Pending
  · have hinit : s.myState ≠ .INIT := by
      rcases hpending with hs | hs | hs <;> simp [hs]
    have hactive := sound_active h hinit
    exact Ends.of_ok (run_cancel_pending hpending) ⟨Or.inl hactive, fun h' => by cases h'⟩
  · exact Ends.of_ok (run_cancel_of_not_pending hpending)
      (quiet_of_ne h fun hs => hpending (Or.inr (Or.inr hs)))

theorem ends_bye (h : s.Quiet) : Ends (fun _ => CallAgent.Quiet) Exit.Calm ControlState.bye s := by
  by_cases hup : s.Up
  · have hinit : s.myState ≠ .INIT := by
      rcases hup with hs | hs <;> simp [hs]
    have hactive := sound_active h.1 hinit
    exact Ends.of_ok (run_bye_up hup) ⟨Or.inl hactive, fun h' => by cases h'⟩
  · exact Ends.of_ok (run_bye_of_not_up hup) h

theorem ends_sendBye (h : s.Quiet) : Ends (fun _ => CallAgent.Quiet) Exit.Calm sendBye s := by
  rw [Ends, run_sendBye]
  cases s.myRole with
  | A_CLIENT =>
    cases s.agent.myResponseMsg with
    | none => exact calm_abort
    | some response => exact h
  | A_SERVER => cases s.agent.myAckMsg <;> exact h

theorem ends_sendStatus_busy {endC : AgentM Int} (h : s.Quiet) (hua : s.agent.myState ≠ .RINGING) :
    Ends (fun _ => CallAgent.Quiet) Exit.Calm (sendStatus endC 486) s := by
  cases hs : s.agent.myState with
  | RINGING => exact (hua hs).elim
  | IDLE | C_TRYING | REDIRECT | FAILURE | END =>
    have hrun : sendStatus endC 486 s = .ok (-1) s := by simp [sendStatus, getAgent, hs]
    exact Ends.of_ok hrun h
  | INCALL | HOLD =>
    have hrun : sendStatus endC 486 s =
        (do sendReplyForRequest (s.agent.myRequestMsg.command .INVITE) 486 true; return 0 : AgentM Int) s := by
      simp [sendStatus, getAgent, hs, sendStatusInDialog]
    rw [Ends, hrun]
    exact h
  | S_TRYING =>
    have hrun : sendStatus endC 486 s = (do sendFinal 486; changeState .FAILURE; return 0 : AgentM Int) s := by
      simp [sendStatus, getAgent, hs, UasStateTrying.sendStatus]
    rw [Ends, hrun]
    exact ⟨h.1, fun _ h' => by cases h'⟩

section EndC

variable {endC : AgentM Int} (hend : ∀ s, s.Quiet → Ends (fun _ => CallAgent.Quiet) Exit.Calm endC s)

include hend

theorem ends_endLoop (k : Nat) : ∀ s, s.Quiet → Ends (fun _ => CallAgent.Quiet) Exit.Calm (endLoop endC k) s := by
  induction k with
  | zero => exact fun s _ => Ends.of_error rfl calm_outOfFuel
  | succ k ih =>
    intro s hs
    refine (hend s hs).bind fun rv t ht => ?_
    by_cases hrv : rv < 0
    · rw [if_pos hrv]
      exact ih t ht
    · rw [if_neg hrv]
      exact Ends.of_ok rfl ht

theorem ends_callFailed (h : s.Sound) : Ends (fun _ => CallAgent.Quiet) Exit.Calm (callFailed endC) s :=
  (ends_cancel h).bind fun _ t ht => ends_endLoop hend turns t ht

theorem ends_doCancel (h : s.Sound) : Ends (fun _ => CallAgent.Quiet) Exit.Calm (doCancel endC) s := by
  refine ends_catch (Ends.bind (Q := fun _ => CallAgent.Sound) (Ends.of_ok rfl h) fun _ t ht => ?_)
  exact (ends_cancel ht).bind fun _ u hu => ends_endLoop hend turns u hu

theorem ends_stopCall (h : s.Quiet) : Ends (fun _ => CallAgent.Quiet) Exit.Calm (stopCall endC) s :=
  (ends_endLoop hend turns s h).bind fun _ _ ht => Ends.of_ok rfl ht

theorem ends_endCall (h : s.Quiet) : Ends (fun _ => CallAgent.Quiet) Exit.Calm (endCall endC) s := by
  cases hactive : s.myActiveFlg with
  | false => exact Ends.of_ok (run_endCall_inactive hactive) h
  | true =>
    have hrun : endCall endC s = catchInvalidState (do freeMedia; ControlState.bye; endLoop endC turns) s := by
      simp only [endCall, run_get_bind, hactive, if_true]
    unfold Ends
    rw [hrun]
    refine ends_catch (Ends.bind (Q := fun _ => CallAgent.Quiet) (Ends.of_ok rfl h) fun _ t ht => ?_)
    exact (ends_bye ht).bind fun _ u hu => ends_endLoop hend turns u hu

theorem ends_doBye (h : s.Quiet) (hactive : s.myActiveFlg = true) :
    Ends (fun _ => CallAgent.Quiet) Exit.Calm (doBye endC) s := by
  unfold Ends
  cases hcan : s.myState.canBye with
  | true =>
    simp only [doBye, run_get_bind, hcan, if_true]
    exact (ends_myInvokee hactive h).bind fun _ t ht => (ends_sendBye ht).bind fun _ u hu => ends_endCall hend hu
  | false =>
    simp only [doBye, run_get_bind, hcan, Bool.false_eq_true, if_false]
    exact ends_endCall hend h

theorem ends_busyLoop (k : Nat) : ∀ s, s.Quiet →
    Ends (fun rv t => t.Quiet ∧ (rv < 0 → t.myState = .UAS_RINGING)) Exit.Calm (busyLoop endC k) s := by
  induction k with
  | zero => exact fun s _ => Ends.of_error rfl calm_outOfFuel
  | succ k ih =>
    intro s hs
    unfold Ends
    by_cases h : s.myState = .UAS_RINGING
    · simpa [busyLoop, h] using hs
    · simp only [busyLoop, run_get_bind, h, if_false]
      refine (hend s hs).bind fun rv t ht => ?_
      by_cases hrv : 0 ≤ rv
      · rw [if_pos hrv]
        exact Ends.of_ok rfl ⟨ht, fun hneg => by omega⟩
      · rw [if_neg hrv]
        exact ih t ht

theorem ends_sendBusy (h : s.Quiet) (hs : s.myState = .UAS_RINGING) :
    Ends (fun rv t => t.Quiet ∧ (rv < 0 → t.myState = .UAS_RINGING)) Exit.Calm (sendBusy endC) s := by
  have hactive := sound_active h.1 (by simp [hs])
  refine Ends.bind (Q := fun _ t => t = s) (ends_myInvokee hactive rfl) fun _ t ht => ?_
  subst ht
  refine (ends_sendStatus_busy h (h.2 hs)).bind fun _ u hu => ?_
  exact (ends_cancel hu.1).bind fun _ v hv => ends_busyLoop hend turns v hv

end EndC

theorem ends_sendCancel (hactive : s.myActiveFlg = true) :
    Ends (fun _ t => t.myActiveFlg = true ∧ t.myState = s.myState) Exit.Calm sendCancel s := by
  refine Ends.bind (Q := fun _ t => t = s) (ends_myInvokee hactive rfl) fun _ t ht => ?_
  subst ht
  rw [Ends, run_sendRequest_cancel]
  cases t.agent.myState <;> exact ⟨hactive, rfl⟩

theorem ends_giveUp {rv : Int} (h : s.Quiet) (hactive : rv < 0 → s.myActiveFlg = true) :
    Ends (fun _ => CallAgent.Quiet) Exit.Calm
      (do if rv < 0 then ControlState.changeState .TEAR_DOWN
          return rv : AgentM Int) s := by
  by_cases hrv : rv < 0
  · simp only [hrv, if_true]
    exact Ends.of_ok rfl ⟨Or.inl (hactive hrv), fun h' => by cases h'⟩
  · simp only [hrv, if_false]
    exact Ends.of_ok rfl h

theorem ends_endAt (n : Nat) : ∀ s, s.Quiet → Ends (fun _ => CallAgent.Quiet) Exit.Calm (ControlState.endAt n) s := by
  induction n with
  | zero => exact fun s _ => Ends.of_error rfl calm_outOfFuel
  | succ n ih =>
    intro s hs
    cases h : s.myState with
    | INIT => exact Ends.of_ok (run_endAt_init h) hs
    | TEAR_DOWN => exact Ends.of_ok (run_endAt_tearDown h) (quiet_dropped s)
    | IN_CALL | HOLD =>
      have hactive := sound_active hs.1 (by simp [h])
      unfold Ends
      simp only [ControlState.endAt, run_get_bind, h]
      exact (ends_doBye ih hs hactive).bind fun _ t ht => Ends.of_ok rfl ht
    | TRYING | UAC_RINGING =>
      have hactive := sound_active hs.1 (by simp [h])
      unfold Ends
      simp only [ControlState.endAt, run_get_bind, h]
      refine (ends_sendCancel hactive).bind fun rv t ht => ?_
      exact ends_giveUp (quiet_of_ne (Or.inl ht.1) (by simp [ht.2, h])) fun _ => ht.1
    | UAS_RINGING =>
      unfold Ends
      simp only [ControlState.endAt, run_get_bind, h]
      refine (ends_sendBusy ih hs h).bind fun rv t ht => ?_
      exact ends_giveUp ht.1 fun hrv => sound_active ht.1.1 (by simp [ht.2 hrv])

theorem ends_endState : ∀ s, s.Quiet → Ends (fun _ => CallAgent.Quiet) Exit.Calm endState s := ends_endAt 2

/-! ## Responses -/

variable {msg : StatusMsg}

/-- The controller takes the agent out of the tables at a 302 with this method. -/
def CallAgent.DropsAt302 (s : CallAgent) (method : Method) : Prop :=
  s.myState = .TRYING ∧ method ≠ .INVITE ∨ s.myState = .UAC_RINGING ∧ method = .INVITE ∨ s.myState = .HOLD

theorem run_recvStatus_drops (hactive : s.myActiveFlg = true) (hcode : msg.statusCode = 302)
    (h : s.DropsAt302 msg.method) : ControlState.recvStatus msg s = .ok () s.freed.dropped := by
  rcases h with ⟨h, hmethod⟩ | ⟨h, hmethod⟩ | h
  · simp only [ControlState.recvStatus, run_get_bind, h, hcode, hmethod]
    exact run_doCancel_pending (Or.inl h)
  · simp only [ControlState.recvStatus, run_get_bind, h, hcode, hmethod]
    exact run_doCancel_pending (Or.inr (Or.inl h))
  · simp only [ControlState.recvStatus, run_get_bind, h, hcode]
    exact run_callFailed_hold hactive h

theorem exit_receivedStatus_drops (hactive : s.myActiveFlg = true) (hcode : msg.statusCode = 302)
    (h : s.DropsAt302 msg.method) : Comp.exit (receivedStatus msg) s = some .droppedInvokee := by
  have hredirect : redirect msg s.freed.dropped = .error .droppedInvokee s.freed.dropped :=
    run_bind_error (run_myInvokee_inactive rfl)
  have hbody : (do
      ControlState.recvStatus msg
      if msg.statusCode = 200 ∧ msg.method = .INVITE then ackStatus msg
      if msg.statusCode = 302 then redirect msg
      else if msg.statusCode = 480 then freeMedia : AgentM Unit) s = .error .droppedInvokee s.freed.dropped := by
    rw [run_bind_ok (run_recvStatus_drops hactive hcode h)]
    simp [hcode, hredirect]
  have hrun : receivedStatus msg s = .error .droppedInvokee s.freed.dropped := by
    rw [receivedStatus, catchInvalidState, run_tryCatch_error hbody]
    rfl
  exact exit_of_error hrun

theorem ends_redirect (hactive : s.myActiveFlg = true) :
    Ends (fun _ => CallAgent.Sound) Exit.Calm (redirect msg) s := by
  refine Ends.bind (Q := fun _ t => t = s) (ends_myInvokee hactive rfl) fun _ t ht => ?_
  subst ht
  refine Ends.bind (Q := fun _ u => u = t) (ends_assertOr calm_abort rfl _) fun _ u hu => ?_
  subst hu
  exact Or.inl hactive

theorem ends_inCall (hactive : s.myActiveFlg = true) :
    Ends (fun _ t => t.myActiveFlg = true) Exit.Calm CallAgent.inCall s := by
  obtain ⟨c, hc⟩ := run_inCall s
  refine Ends.bind (Q := fun _ t => t.myActiveFlg = true) (Ends.of_ok hc hactive) fun _ t ht => ?_
  refine Ends.bind (Q := fun _ u => u.myActiveFlg = true) (ends_myInvokee ht ht) fun _ u hu => ?_
  exact ends_assertOr calm_abort hu _

theorem ends_reInvite (cmd : SipCommand) (hactive : s.myActiveFlg = true) :
    Ends (fun _ t => t.myActiveFlg = true) Exit.Calm (reInvite cmd) s := by
  have hcreate : Ends (fun _ t => t.myActiveFlg = true) Exit.Calm (createReInvite cmd) s := by
    refine Ends.bind (Q := fun _ t => t.myActiveFlg = true) (ends_assertOr calm_abort hactive _) fun _ t ht => ?_
    refine Ends.bind (Q := fun _ u => u.myActiveFlg = true) (Ends.of_ok rfl ht) fun _ u hu => ?_
    exact Ends.bind (Q := fun _ v => v.myActiveFlg = true) (ends_assertOr calm_abort hu _) fun _ v hv =>
      Ends.of_ok rfl hv
  refine hcreate.bind fun _ t ht => ?_
  refine Ends.bind (Q := fun _ u => u.myActiveFlg = true) (Ends.of_ok rfl ht) fun _ u hu => ?_
  exact Ends.bind (Q := fun _ v => v.myActiveFlg = true) (ends_assertOr calm_abort hu _) fun _ v hv =>
      Ends.of_ok rfl hv

theorem ends_invite (invite : InviteMsg) (hactive : s.myActiveFlg = true) :
    Ends (fun _ t => t.myActiveFlg = true) Exit.Calm (sendRequest (invite.command .INVITE)) s := by
  have hdialog (held : UaState) (ack : SipCommand → AgentM Unit) :
      Ends (fun _ t => t.myActiveFlg = true) Exit.Calm (sendInDialog held ack (invite.command .INVITE)) s :=
    (ends_reInvite _ hactive).bind fun _ t ht => Ends.of_ok rfl ht
  unfold Ends
  cases hua : s.agent.myState with
  | IDLE =>
    cases hrole : s.myRole <;>
      simpa [sendRequest, getAgent, hua, UaStateIdle.sendRequest, hrole, InviteMsg.command, send, changeState,
        modifyAgent] using hactive
  | C_TRYING =>
    simpa [sendRequest, getAgent, hua, UacStateTrying.sendRequest, InviteMsg.command, send] using hactive
  | RINGING => simpa [sendRequest, getAgent, hua, UaStateRinging.sendRequest, InviteMsg.command] using hactive
  | REDIRECT | S_TRYING | FAILURE | END => simpa [sendRequest, getAgent, hua] using hactive
  | INCALL =>
    have hrun : sendRequest (invite.command .INVITE) s = UaStateInCall.sendRequest (invite.command .INVITE) s := by
      simp [sendRequest, getAgent, hua]
    rw [hrun]
    exact hdialog _ _
  | HOLD =>
    have hrun : sendRequest (invite.command .INVITE) s = UaStateInHold.sendRequest (invite.command .INVITE) s := by
      simp [sendRequest, getAgent, hua]
    rw [hrun]
    exact hdialog _ _

theorem ends_doAuthentication (hactive : s.myActiveFlg = true) :
    Ends (fun _ t => t.myActiveFlg = true) Exit.Calm doAuthentication s := by
  refine Ends.bind (Q := fun _ t => t.myActiveFlg = true) (ends_myInvokee hactive hactive) fun _ t ht => ?_
  refine Ends.bind (Q := fun _ u => u.myActiveFlg = true) (Ends.of_ok rfl ht) fun _ u hu => ?_
  refine Ends.bind (Q := fun _ v => v.myActiveFlg = true) (ends_myInvokee hu hu) fun _ v hv => ?_
  exact (ends_invite _ hv).bind fun _ w hw => Ends.of_ok rfl hw

theorem ends_resumeSession (sdp : SipSdp) (hactive : s.myActiveFlg = true)
    (hua : s.myState = .UAS_RINGING → s.agent.myState ≠ .RINGING) :
    Ends (fun _ => CallAgent.Sound) Exit.Calm (resumeSession sdp) s := by
  cases h : sdp.resumes with
  | true =>
    obtain ⟨c, hc⟩ := run_inCall s
    have hrun : resumeSession sdp s = .ok () { s with myState := c } := by simp [resumeSession, h, hc]
    exact Ends.of_ok hrun (Or.inl hactive)
  | false =>
    simp only [resumeSession, h, Bool.false_eq_true, if_false]
    exact (ends_stopCall ends_endState ⟨Or.inl hactive, hua⟩).mono fun _ _ ht => ht.1

theorem ends_doResume (remoteSdp : Option SipSdp) (hactive : s.myActiveFlg = true)
    (hua : s.myState = .UAS_RINGING → s.agent.myState ≠ .RINGING) :
    Ends (fun _ => CallAgent.Sound) Exit.Calm (doResume remoteSdp) s := by
  refine Ends.bind (Q := fun _ t => t = s) (ends_myInvokee hactive rfl) fun _ t ht => ?_
  subst ht
  cases remoteSdp with
  | none => exact Ends.of_error rfl calm_abort
  | some sdp =>
    have hrest : Ends (fun _ => CallAgent.Sound) Exit.Calm (resumeSession sdp)
        { t with agent := { t.agent with myRemoteSdp := true } } := ends_resumeSession sdp hactive hua
    exact hrest

theorem ends_recvStatusControl (hactive : s.myActiveFlg = true)
    (h : ¬(msg.statusCode = 302 ∧ s.DropsAt302 msg.method)) :
    Ends (fun _ t => t.Sound ∧ (msg.statusCode = 302 → t.myActiveFlg = true)) Exit.Calm
      (ControlState.recvStatus msg) s := by
  have hstay {m : AgentM Unit} (hm : Ends (fun _ t => t.myActiveFlg = true) Exit.Calm m s) :
      Ends (fun _ t => t.Sound ∧ (msg.statusCode = 302 → t.myActiveFlg = true)) Exit.Calm m s :=
    hm.mono fun _ t ht => ⟨Or.inl ht, fun _ => ht⟩
  have hleave {m : AgentM Unit} (hne : msg.statusCode ≠ 302) (hm : Ends (fun _ => CallAgent.Sound) Exit.Calm m s) :
      Ends (fun _ t => t.Sound ∧ (msg.statusCode = 302 → t.myActiveFlg = true)) Exit.Calm m s :=
    hm.mono fun _ t ht => ⟨ht, fun h302 => (hne h302).elim⟩
  have hpure : Ends (fun _ t => t.myActiveFlg = true) Exit.Calm (pure () : AgentM Unit) s := Ends.of_ok rfl hactive
  have hcancel : Ends (fun _ => CallAgent.Sound) Exit.Calm (doCancel endState) s :=
    (ends_doCancel ends_endState (Or.inl hactive)).mono fun _ t ht => ht.1
  refine Ends.get_bind ?_
  cases hs : s.myState with
  | INIT | UAS_RINGING | IN_CALL | TEAR_DOWN => exact hstay hpure
  | TRYING =>
    refine Ends.ite (fun _ => hstay (ends_inCall hactive)) fun _ => ?_
    refine Ends.ite (fun _ => hstay (ends_doAuthentication hactive)) fun _ => ?_
    refine Ends.ite (fun _ => hstay hpure) fun hredirect => ?_
    have hdrops (h302 : msg.statusCode = 302) : False :=
      h ⟨h302, Or.inl ⟨hs, fun hmethod => hredirect ⟨h302, hmethod⟩⟩⟩
    refine Ends.ite (fun _ => hleave hdrops hcancel) fun _ => ?_
    exact Ends.ite (fun _ => hstay (Ends.of_ok rfl hactive)) fun _ => hstay hpure
  | UAC_RINGING =>
    refine Ends.ite (fun hmethod => ?_) fun _ => hstay hpure
    have hdrops (h302 : msg.statusCode = 302) : False := h ⟨h302, Or.inr (Or.inl ⟨hs, hmethod⟩)⟩
    refine Ends.ite (fun _ => hstay (ends_inCall hactive)) fun _ => ?_
    exact Ends.ite (fun _ => hleave hdrops hcancel) fun _ => hstay hpure
  | HOLD =>
    have hdrops (h302 : msg.statusCode = 302) : False := h ⟨h302, Or.inr (Or.inr hs)⟩
    refine Ends.ite (fun _ => hleave hdrops (ends_doResume msg.sdp hactive (by simp [hs]))) fun _ => ?_
    exact hleave hdrops ((ends_callFailed ends_endState (Or.inl hactive)).mono fun _ t ht => ht.1)

theorem ends_receivedStatus (hactive : s.myActiveFlg = true)
    (h : ¬(msg.statusCode = 302 ∧ s.DropsAt302 msg.method)) :
    Ends (fun _ => CallAgent.Sound) Exit.Calm (receivedStatus msg) s := by
  refine ends_catch ((ends_recvStatusControl hactive h).bind fun _ t ht => ?_)
  have htail {u : CallAgent} (hu : u.Sound ∧ (msg.statusCode = 302 → u.myActiveFlg = true)) :
      Ends (fun _ => CallAgent.Sound) Exit.Calm
        (if msg.statusCode = 302 then redirect msg else if msg.statusCode = 480 then freeMedia else pure ()) u :=
    Ends.ite (fun h302 => ends_redirect (hu.2 h302)) fun _ =>
      Ends.ite (fun _ => Ends.of_ok rfl hu.1) fun _ => Ends.of_ok rfl hu.1
  have hack : Ends (fun _ u => u.Sound ∧ (msg.statusCode = 302 → u.myActiveFlg = true)) Exit.Calm
      (ackStatus msg) t :=
    Ends.ite (fun _ => Ends.of_ok rfl ht) fun _ => Ends.of_ok rfl ht
  exact Ends.ite (fun _ => hack.bind fun _ u hu => htail hu) fun _ => htail ht

end Vocal.Ua
