import Vocal.Ua.Calm

/-!
# Messages that kill the agent

The handlers of the user agent call the controller, which may take the agent out of the tables in the middle of them.
What is left of the handler then goes through the null `myInvokee` only at a 302, and only two assertions of the states
can fail on a message of the peer.
-/

namespace Vocal.Ua

open AgentM UaBase Vocal.Comp CallAgent

variable {s : CallAgent} {msg : StatusMsg}

/-! ## Responses -/

/-- The states that hand a 302 on to the controller; the first wants a contact. -/
def UaState.forwards302 (u : UaState) (contactList : List BaseUrl) : Prop :=
  match u with
  | .C_TRYING => contactList ≠ []
  | .RINGING | .REDIRECT | .INCALL | .HOLD | .FAILURE | .END => True
  | .IDLE | .S_TRYING => False

/-- The responses that kill the agent: any while a server waits for an ACK, and a 302 that makes the controller give the
call up. -/
def CallAgent.KilledByStatus (s : CallAgent) (msg : StatusMsg) : Prop :=
  s.agent.myState = .FAILURE ∧ s.myRole = .A_SERVER ∨
    msg.statusCode = 302 ∧ s.agent.myState.forwards302 msg.contactList ∧ s.DropsAt302 msg.method

/-- The agent `t` is there and its controller is where it was in `s`. -/
def CallAgent.StaysAs (s t : CallAgent) : Prop := t.myActiveFlg = true ∧ t.myState = s.myState

theorem ends_forwarded {t : CallAgent} (hstay : s.StaysAs t)
    (h : ¬(msg.statusCode = 302 ∧ s.DropsAt302 msg.method)) :
    Ends (fun _ => CallAgent.Sound) Exit.Calm (receivedStatus msg) t := by
  refine ends_receivedStatus hstay.1 ?_
  unfold CallAgent.DropsAt302 at *
  rwa [hstay.2]

theorem exit_forwarded {t : CallAgent} (hstay : s.StaysAs t) (hcode : msg.statusCode = 302)
    (h : s.DropsAt302 msg.method) : Comp.exit (receivedStatus msg) t = some .droppedInvokee := by
  refine exit_receivedStatus_drops hstay.1 hcode ?_
  unfold CallAgent.DropsAt302 at *
  rwa [hstay.2]

theorem ends_saveRouteList {P : CallAgent → Prop}
    (hP : ∀ t routes, P t → P { t with agent := { t.agent with myRouteList := routes } })
    (recordRouteList contactList : List BaseUrl) (reverse : Bool) (h : P s) :
    Ends (fun _ => P) Exit.Calm (saveRouteList recordRouteList contactList reverse) s := by
  have hroutes (urls : List BaseUrl) : ∀ t, P t → Ends (fun _ => P) Exit.Calm (saveRoutes reverse urls) t := by
    induction urls with
    | nil => exact fun t ht => Ends.of_ok rfl ht
    | cons url urls ih =>
      intro t ht
      cases url with
      | SIP_URL text => exact Ends.bind (Q := fun _ => P) (Ends.of_ok rfl (hP t _ ht)) fun _ u hu => ih u hu
      | TEL_URL text => exact Ends.of_error rfl calm_hang
  refine Ends.bind (Q := fun _ => P) (Ends.of_ok rfl (hP s [] h)) fun _ t ht => ?_
  refine (hroutes _ t ht).bind fun _ u hu => ?_
  cases contactList.getLast? with
  | none => exact Ends.of_ok rfl hu
  | some contact => exact Ends.of_ok rfl (hP u _ hu)

theorem ends_saveAnswer (hactive : s.myActiveFlg = true) :
    Ends (fun _ => s.StaysAs) Exit.Calm (saveAnswer msg) s := by
  refine Ends.bind (Q := fun _ => s.StaysAs) (Ends.of_ok rfl ⟨hactive, rfl⟩) fun _ t ht => ?_
  refine (ends_saveRouteList (fun _ _ h => h) _ _ _ ht).bind fun _ u hu => ?_
  exact Ends.of_ok rfl hu

theorem ends_syncResponse (hactive : s.myActiveFlg = true) :
    Ends (fun _ => s.StaysAs) Exit.Calm (syncResponse msg) s := by
  refine Ends.bind (Q := fun _ t => t = s) (Ends.of_ok rfl rfl) fun a t ht => ?_
  subst ht
  cases a.myResponseMsg with
  | none => exact Ends.of_error rfl calm_abort
  | some response => exact Ends.of_ok rfl ⟨hactive, rfl⟩

theorem CallAgent.StaysAs.trans {t u : CallAgent} (h : s.StaysAs t) (h' : t.StaysAs u) : s.StaysAs u :=
  ⟨h'.1, h'.2.trans h.2⟩

/-! ### The handlers of the states -/

/-- The controller takes the response from any agent that stays as `s`, and does not kill it. -/
def CallAgent.Hears (s : CallAgent) (msg : StatusMsg) : Prop :=
  ∀ t, s.StaysAs t → Ends (fun _ => CallAgent.Sound) Exit.Calm (receivedStatus msg) t

section handlers

variable {t : CallAgent}

theorem ends_done {α : Type} {m : AgentM α} {Q : α → CallAgent → Prop} (hm : Ends Q Exit.Calm m t) :
    Ends (fun _ _ => True) Exit.Calm m t :=
  hm.mono fun _ _ _ => trivial

theorem ends_ackFailure (ht : s.StaysAs t) : Ends (fun _ => s.StaysAs) Exit.Calm (ackFailure msg) t :=
  Ends.ite (fun _ => Ends.of_ok rfl ht) fun _ => Ends.of_ok rfl ht

theorem ends_setState (u : UaState) (ht : s.StaysAs t) : Ends (fun _ => s.StaysAs) Exit.Calm (changeState u) t :=
  Ends.of_ok rfl ht

theorem ends_answer (hactive : s.myActiveFlg = true) (hhears : s.Hears msg) :
    Ends (fun _ _ => True) Exit.Calm (do saveAnswer msg; receivedStatus msg; changeState .INCALL) s := by
  refine (ends_saveAnswer hactive).bind fun _ u hu => ?_
  exact (hhears u hu).bind fun _ v _ => Ends.of_ok rfl trivial

theorem ends_setState_received (u : UaState) (ht : s.StaysAs t) (hhears : s.Hears msg) :
    Ends (fun _ _ => True) Exit.Calm (do changeState u; receivedStatus msg) t :=
  (ends_setState u ht).bind fun _ v hv => ends_done (hhears v hv)

theorem ends_ring (hself : s.StaysAs s) (hhears : s.Hears msg) :
    Ends (fun _ _ => True) Exit.Calm (do
      if 180 ≤ msg.statusCode then changeState .RINGING
      receivedStatus msg) s := by
  refine Ends.ite (fun _ => ?_) fun _ => ends_done (hhears s hself)
  exact ends_setState_received .RINGING hself hhears

theorem ends_tryingStatus (hself : s.StaysAs s) (hother : msg.statusCode ≠ 302 → s.Hears msg)
    (hcontact : ¬msg.contactList.isEmpty → s.Hears msg) :
    Ends (fun _ _ => True) Exit.Calm (UacStateTrying.recvStatus msg) s := by
  refine Ends.ite (fun h200 => ends_answer hself.1 (hother (by omega))) fun _ => Ends.ite (fun _ => ?_) fun hgt => ?_
  · refine (ends_ackFailure hself).bind fun _ u hu => ?_
    refine Ends.ite (fun hauth => ends_done (hother (by omega) u hu)) fun _ => Ends.ite (fun _ => ?_) fun hne => ?_
    · refine Ends.ite (fun _ => ?_) fun h => ends_setState_received .REDIRECT hu (hcontact h)
      exact (ends_setState .IDLE hu).bind fun _ v hv => ends_done (ends_callFailed ends_endState (Or.inl hv.1))
    · exact ends_setState_received .IDLE hu (hother hne)
  · exact ends_ring hself (hother (by omega))

theorem ends_ringingStatus (hself : s.StaysAs s) (hhears : s.Hears msg) :
    Ends (fun _ _ => True) Exit.Calm (UaStateRinging.recvStatus msg) s := by
  refine Ends.ite (fun _ => ?_) fun _ => Ends.ite (fun _ => ?_) fun _ => Ends.of_ok rfl trivial
  · refine (ends_saveAnswer hself.1).bind fun _ u hu => ?_
    refine (ends_syncResponse hu.1).bind fun _ v hv => ?_
    refine Ends.bind (Q := fun _ => s.StaysAs) (Ends.of_ok rfl (hu.trans hv)) fun _ w hw => ?_
    exact (hhears w hw).bind fun _ x _ => Ends.of_ok rfl trivial
  · refine (ends_ackFailure hself).bind fun _ u hu => ?_
    exact (hhears u hu).bind fun _ v _ => Ends.of_ok rfl trivial

theorem ends_redirectStatus (hself : s.StaysAs s) (hhears : s.Hears msg) :
    Ends (fun _ _ => True) Exit.Calm (UaStateRedirect.recvStatus msg) s := by
  refine Ends.ite (fun _ => ends_answer hself.1 hhears) fun _ => Ends.ite (fun _ => ?_) fun _ => ends_ring hself hhears
  exact (ends_ackFailure hself).bind fun _ u hu => ends_setState_received .IDLE hu hhears

theorem ends_inCallStatus (hself : s.StaysAs s) (hhears : s.Hears msg) :
    Ends (fun _ _ => True) Exit.Calm (UaStateInCall.recvStatus msg) s := by
  have hrest {u : CallAgent} (hu : s.StaysAs u) : Ends (fun _ _ => True) Exit.Calm
      (if msg.statusCode = 200 ∧ msg.method = .INVITE then do
        syncResponse msg; setLocalCSeq msg.cseq; receivedStatus msg
      else receivedStatus msg) u := by
    refine Ends.ite (fun _ => ?_) fun _ => ends_done (hhears u hu)
    refine (ends_syncResponse hu.1).bind fun _ v hv => ?_
    refine Ends.bind (Q := fun _ => s.StaysAs) (Ends.of_ok rfl (hu.trans hv)) fun _ w hw => ?_
    exact ends_done (hhears w hw)
  refine Ends.ite (fun _ => ?_) fun _ => hrest hself
  exact Ends.bind (Q := fun _ => s.StaysAs) (Ends.of_ok rfl hself) fun _ u hu => hrest hu

theorem ends_inHoldStatus (hself : s.StaysAs s) (hhears : s.Hears msg) :
    Ends (fun _ _ => True) Exit.Calm (UaStateInHold.recvStatus msg) s := by
  have hrest {u : CallAgent} (hu : s.StaysAs u) : Ends (fun _ _ => True) Exit.Calm
      (if msg.statusCode = 200 ∧ msg.method = .INVITE then do syncResponse msg; dohold
      else receivedStatus msg) u := by
    refine Ends.ite (fun _ => ?_) fun _ => ends_done (hhears u hu)
    refine (ends_syncResponse hu.1).bind fun _ v hv => ?_
    refine (ends_myInvokee (Q := fun _ w => w = v) hv.1 rfl).bind fun _ w _ => ?_
    obtain ⟨c, hc⟩ := run_inHold w
    exact Ends.of_ok hc trivial
  refine Ends.ite (fun _ => ?_) fun _ => hrest hself
  exact Ends.bind (Q := fun _ => s.StaysAs) (Ends.of_ok rfl hself) fun _ u hu => hrest hu

theorem ends_failureStatus (hself : s.StaysAs s) (hrole : s.myRole = .A_CLIENT) (hhears : s.Hears msg) :
    Ends (fun _ _ => True) Exit.Calm (UaStateFailure.recvStatus msg) s := by
  have hrest {u : CallAgent} (hu : s.StaysAs u) : Ends (fun _ _ => True) Exit.Calm
      (do receivedStatus msg; callFailed endState; changeState .IDLE) u := by
    refine (hhears u hu).bind fun _ v hv => ?_
    exact (ends_callFailed ends_endState hv).bind fun _ w _ => Ends.of_ok rfl trivial
  refine Ends.get_bind (Ends.bind (Q := fun _ => s.StaysAs) ?_ fun _ u hu => ?_)
  · exact Ends.of_ok (by simp [hrole, assertOr]; rfl) hself
  · refine Ends.ite (fun _ => Ends.ite (fun _ => ?_) fun _ => hrest hu) fun _ => Ends.of_ok rfl trivial
    exact Ends.bind (Q := fun _ => s.StaysAs) (Ends.of_ok rfl hu) fun _ v hv => hrest hv

end handlers

theorem ends_recvStatus (hactive : s.myActiveFlg = true) (h : ¬s.KilledByStatus msg) :
    Ends (fun _ _ => True) Exit.Calm (recvStatus msg) s := by
  have hself : s.StaysAs s := ⟨hactive, rfl⟩
  have hother (hcode : msg.statusCode ≠ 302) : s.Hears msg :=
    fun _ ht => ends_forwarded ht fun hdrops => hcode hdrops.1
  -- this holds in all states but the first and the two that keep everything to themselves
  have hforward (hua : s.agent.myState.forwards302 msg.contactList) : s.Hears msg :=
    fun _ ht => ends_forwarded ht fun hdrops => h (Or.inr ⟨hdrops.1, hua, hdrops.2⟩)
  refine Ends.bind (Q := fun a t => a = s.agent ∧ t = s) (Ends.of_ok rfl ⟨rfl, rfl⟩) fun a t hget => ?_
  obtain ⟨rfl, rfl⟩ := hget
  cases hua : t.agent.myState with
  | IDLE | S_TRYING => exact Ends.of_ok rfl trivial
  | C_TRYING =>
    refine ends_tryingStatus hself hother fun hcontact => hforward ?_
    rw [hua]
    simpa [UaState.forwards302] using hcontact
  | RINGING => exact ends_ringingStatus hself (hforward (by rw [hua]; trivial))
  | REDIRECT => exact ends_redirectStatus hself (hforward (by rw [hua]; trivial))
  | INCALL => exact ends_inCallStatus hself (hforward (by rw [hua]; trivial))
  | HOLD => exact ends_inHoldStatus hself (hforward (by rw [hua]; trivial))
  | FAILURE =>
    have hrole : t.myRole = .A_CLIENT := by
      cases hrole : t.myRole with
      | A_CLIENT => rfl
      | A_SERVER => exact (h (Or.inl ⟨hua, hrole⟩)).elim
    exact ends_failureStatus hself hrole (hforward (by rw [hua]; trivial))
  | END => exact ends_setState_received .IDLE hself (hforward (by rw [hua]; trivial))

theorem exit_recvStatus (hactive : s.myActiveFlg = true) (h : s.KilledByStatus msg) :
    ∃ e, Comp.exit (recvStatus msg) s = some e ∧ e.Kills := by
  by_cases hassert : s.agent.myState = .FAILURE ∧ s.myRole = .A_SERVER
  · refine ⟨.uaStateAssert, ?_, trivial⟩
    simp [Comp.exit, recvStatus, getAgent, hassert.1, UaStateFailure.recvStatus, assertOr, hassert.2]
  · obtain ⟨hcode, hforwards, hdrops⟩ := h.resolve_left hassert
    refine ⟨.droppedInvokee, ?_, trivial⟩
    have hforward {t : CallAgent} (ht : s.StaysAs t) : Comp.exit (receivedStatus msg) t = some .droppedInvokee :=
      exit_forwarded ht hcode hdrops
    have hthen {m : AgentM Unit} {t : CallAgent} (ht : s.StaysAs t) :
        Comp.exit (do receivedStatus msg; m) t = some .droppedInvokee :=
      exit_bind_some (hforward ht)
    have hack : s.StaysAs { s with sent := s.sent ++ [.request .ACK msg.cseq] } := ⟨hactive, rfl⟩
    have hset (u : UaState) : s.StaysAs { s with
        agent := { s.agent with myState := u }, sent := s.sent ++ [.request .ACK msg.cseq] } := ⟨hactive, rfl⟩
    cases hua : s.agent.myState with
    | IDLE | S_TRYING =>
      rw [hua] at hforwards
      exact hforwards.elim
    | C_TRYING =>
      have hcontact : msg.contactList ≠ [] := by
        rw [hua] at hforwards
        exact hforwards
      have h := hforward (hset .REDIRECT)
      simpa [Comp.exit, recvStatus, getAgent, hua, UacStateTrying.recvStatus, hcode, ackFailure, send, changeState,
        modifyAgent, hcontact] using h
    | RINGING =>
      have h := hthen (m := changeState .IDLE) hack
      simpa [Comp.exit, recvStatus, getAgent, hua, UaStateRinging.recvStatus, hcode, ackFailure, send] using h
    | REDIRECT =>
      have h := hforward (hset .IDLE)
      simpa [Comp.exit, recvStatus, getAgent, hua, UaStateRedirect.recvStatus, hcode, ackFailure, send, changeState,
        modifyAgent] using h
    | INCALL =>
      have h := hforward hack
      simpa [Comp.exit, recvStatus, getAgent, hua, UaStateInCall.recvStatus, hcode, send] using h
    | HOLD =>
      by_cases hmethod : msg.method = .INVITE
      · have h := hforward hack
        simpa [Comp.exit, recvStatus, getAgent, hua, UaStateInHold.recvStatus, hcode, hmethod, send] using h
      · have h := hforward (t := s) ⟨hactive, rfl⟩
        simpa [Comp.exit, recvStatus, getAgent, hua, UaStateInHold.recvStatus, hcode, hmethod] using h
    | FAILURE =>
      have hrole : s.myRole = .A_CLIENT := by
        cases hrole : s.myRole with
        | A_CLIENT => rfl
        | A_SERVER => exact (hassert ⟨hua, hrole⟩).elim
      have h := hthen (m := do callFailed endState; changeState .IDLE) (t := s) ⟨hactive, rfl⟩
      simpa [Comp.exit, recvStatus, getAgent, hua, UaStateFailure.recvStatus, hcode, assertOr, hrole] using h
    | END =>
      have h := hforward (t := { s with agent := { s.agent with myState := .IDLE } }) ⟨hactive, rfl⟩
      simpa [Comp.exit, recvStatus, getAgent, hua, UaStateEnd.recvStatus, changeState, modifyAgent] using h

/-! ## Requests -/

variable {cmd : SipCommand}

/-- The requests that kill the agent: a re-INVITE with a session description whose To is no SIP url. -/
def CallAgent.KilledByRequest (s : CallAgent) (cmd : SipCommand) : Prop :=
  s.InDialog ∧ cmd.method = .INVITE ∧ cmd.sdp.isSome = true ∧ cmd.toUrl.isSip = false

theorem run_sendStatus_ok (endC : AgentM Int) (h : s.InDialog) :
    sendStatus endC 200 s =
      if s.agent.myRequestMsg.toUrl.isSip then .ok 0 { s with sent := s.sent ++ [.reply 200 .INVITE] }
      else .error .uaStateAssert s := by
  cases hto : s.agent.myRequestMsg.toUrl.isSip <;> rcases h with h | h <;>
    simp [sendStatus, getAgent, h, sendStatusInDialog, hto, assertOr, send]

theorem ends_sendStatus_ok (hactive : s.myActiveFlg = true) (h : s.InDialog)
    (hto : s.agent.myRequestMsg.toUrl.isSip = true) :
    Ends (fun _ t => t.myActiveFlg = true ∧ t.InDialog) Exit.Calm (sendStatus endState 200) s := by
  unfold Ends
  rw [run_sendStatus_ok _ h, if_pos hto]
  exact ⟨hactive, h⟩

theorem CallAgent.InDialog.not_ringing (h : s.InDialog) : s.agent.myState ≠ .RINGING := by
  rcases h with h | h <;> simp [h]

theorem ends_holdAndResumeReinvite (hactive : s.myActiveFlg = true) (h : s.InDialog)
    (hto : s.agent.myRequestMsg.sdp.isSome = true → s.agent.myRequestMsg.toUrl.isSip = true) :
    Ends (fun _ => CallAgent.Sound) Exit.Calm holdAndResumeReinvite s := by
  refine ends_catch (Ends.bind (Q := fun a t => a = s.agent ∧ t = s) (ends_myInvokee hactive ⟨rfl, rfl⟩)
    fun a t hget => ?_)
  obtain ⟨rfl, rfl⟩ := hget
  cases hsdp : t.agent.myRequestMsg.sdp with
  | none => exact Ends.of_error rfl calm_abort
  | some sdp =>
    refine (ends_sendStatus_ok hactive h (hto (by rw [hsdp]; rfl))).bind fun _ u hu => ?_
    refine Ends.bind (Q := fun _ v => v = u) (ends_myInvokee hu.1 rfl) fun _ v hv => ?_
    subst hv
    obtain ⟨c, hc⟩ := run_inHold v
    refine Ends.bind (Q := fun _ w => w.myActiveFlg = true ∧ w.InDialog) (Ends.of_ok hc hu) fun _ w hw => ?_
    exact ends_doResume (some sdp) hw.1 fun _ => hw.2.not_ringing

/-- `reqResume` outside of the ringing, where no 200 fails its assertion. -/
theorem ends_reqResume (hactive : s.myActiveFlg = true)
    (h : s.InDialog ∧ (s.agent.myRequestMsg.sdp.isSome = true → s.agent.myRequestMsg.toUrl.isSip = true) ∨
      s.agent.myState = .C_TRYING) :
    Ends (fun _ => CallAgent.Sound) Exit.Calm reqResume s := by
  refine ends_catch (Ends.bind (Q := fun a t => a = s.agent ∧ t = s) (ends_myInvokee hactive ⟨rfl, rfl⟩)
    fun a t hget => ?_)
  obtain ⟨rfl, rfl⟩ := hget
  cases hsdp : t.agent.myRequestMsg.sdp with
  | none => exact Ends.of_error rfl calm_abort
  | some sdp =>
    have hanswer : Ends (fun _ u => u.myActiveFlg = true ∧ u.agent.myState ≠ .RINGING) Exit.Calm
        (sendStatus endState 200) t := by
      rcases h with ⟨h, hto⟩ | h
      · exact (ends_sendStatus_ok hactive h (hto (by rw [hsdp]; rfl))).mono fun _ u hu => ⟨hu.1, hu.2.not_ringing⟩
      · have hrun : sendStatus endState 200 t = .ok (-1) t := by simp [sendStatus, getAgent, h]
        exact Ends.of_ok hrun ⟨hactive, by simp [h]⟩
    refine hanswer.bind fun _ u hu => ?_
    refine Ends.bind (Q := fun _ v => v = u) (ends_myInvokee hu.1 rfl) fun _ v hv => ?_
    subst hv
    exact ends_resumeSession sdp hu.1 fun _ => hu.2

theorem ends_recvReq (h : s.Sound) (hmethod : cmd.method ≠ .INVITE) :
    Ends (fun _ t => t = s ∨ t.Quiet) Exit.Calm (receivedRequest cmd) s := by
  have hstay : Ends (fun _ t => t = s ∨ t.Quiet) Exit.Calm (pure () : AgentM Unit) s := Ends.of_ok rfl (Or.inl rfl)
  refine Ends.get_bind ?_
  cases s.myState with
  | UAS_RINGING =>
    exact Ends.ite (fun _ => (ends_doCancel ends_endState h).mono fun _ t ht => Or.inr ht) fun _ => hstay
  | HOLD => exact Ends.ite (fun hm => (hmethod hm).elim) fun _ => hstay
  | INIT | TRYING | UAC_RINGING | IN_CALL | TEAR_DOWN => exact hstay

theorem ends_recvInDialog {reInvited options : AgentM Unit} (held : UaState) (hactive : s.myActiveFlg = true)
    (h : s.InDialog)
    (hreInvited : cmd.method = .INVITE → Ends (fun _ _ => True) Exit.Calm reInvited
      { s with
        agent := { s.agent with myRequestMsg := cmd.toInviteMsg }
        sent := s.sent ++ [.reply 100 cmd.method] })
    (hoptions : Ends (fun _ _ => True) Exit.Calm options s) :
    Ends (fun _ _ => True) Exit.Calm (recvInDialog reInvited cmd held options) s := by
  have hquiet : s.Quiet := ⟨Or.inl hactive, fun _ => h.not_ringing⟩
  have hreply {t : CallAgent} (statusCode : Nat) (ht : t.Quiet) :
      Ends (fun _ => CallAgent.Quiet) Exit.Calm (sendReplyForRequest cmd statusCode true) t :=
    Ends.of_ok rfl ht
  have hrequest {t : CallAgent} (ht : t.Quiet) (hmethod : cmd.method ≠ .INVITE) :
      Ends (fun _ => CallAgent.Quiet) Exit.Calm (receivedRequest cmd) t := by
    refine (ends_recvReq ht.1 hmethod).mono fun _ u hu => ?_
    rcases hu with rfl | hu
    · exact ht
    · exact hu
  have hdone {m : AgentM Unit} {t : CallAgent} (hm : Ends (fun _ => CallAgent.Quiet) Exit.Calm m t) :
      Ends (fun _ _ => True) Exit.Calm m t :=
    hm.mono fun _ _ _ => trivial
  unfold recvInDialog
  cases hmethod : cmd.method with
  | INFO => exact (hreply 200 hquiet).bind fun _ t ht => hdone (hrequest ht (by simp [hmethod]))
  | BYE =>
    refine (hreply 200 hquiet).bind fun _ t ht => (ends_endCall ends_endState ht).bind fun _ u hu => ?_
    exact (hrequest hu (by simp [hmethod])).bind fun _ v _ => Ends.of_ok rfl trivial
  | ACK =>
    refine Ends.bind (Q := fun _ => CallAgent.Quiet) (Ends.of_ok rfl hquiet) fun _ t ht => ?_
    exact hdone (hrequest ht (by simp [hmethod]))
  | INVITE =>
    have hrest := hreInvited hmethod
    rw [hmethod] at hrest
    have hthen : Ends (fun _ _ => True) Exit.Calm (do reInvited; changeState held) _ :=
      hrest.bind fun _ t _ => Ends.of_ok rfl trivial
    simpa [Ends, sendReplyForRequest, send, modifyAgent, hmethod] using hthen
  | CANCEL =>
    refine (hreply 200 hquiet).bind fun _ t ht => (hreply 487 ht).bind fun _ u hu => ?_
    refine (hrequest hu (by simp [hmethod])).bind fun _ v hv => ?_
    exact (ends_endCall ends_endState hv).bind fun _ w _ => Ends.of_ok rfl trivial
  | OPTIONS => exact hoptions
  | other => exact Ends.of_ok rfl trivial

theorem ends_changeState (u : UaState) : Ends (fun _ _ => True) Exit.Calm (changeState u) s :=
  Ends.of_ok rfl trivial

theorem ends_sendReplyForRequest (cmd : SipCommand) (statusCode : Nat) (h : s.Sound) :
    Ends (fun _ => CallAgent.Sound) Exit.Calm (sendReplyForRequest cmd statusCode true) s :=
  Ends.of_ok rfl h

theorem ends_ceased (h : s.Sound) (hmethod : cmd.method = .CANCEL ∨ cmd.method = .BYE) :
    Ends (fun _ _ => True) Exit.Calm (do receivedRequest cmd; changeState .FAILURE) s := by
  have hne : cmd.method ≠ .INVITE := by rcases hmethod with hm | hm <;> simp [hm]
  exact (ends_recvReq h hne).bind fun _ _ _ => ends_changeState _

theorem ends_idleRequest : Ends (fun _ _ => True) Exit.Calm (UaStateIdle.recvRequest cmd) s := by
  refine Ends.get_bind (Ends.ite (fun _ => ?_) fun _ => Ends.of_ok rfl trivial)
  refine (ends_saveRouteList (P := fun _ => True) (fun _ _ h => h) _ _ _ trivial).bind fun _ u _ => ?_
  refine Ends.bind (Q := fun _ _ => True) (Ends.of_ok rfl trivial) fun _ v _ => ?_
  refine Ends.ite (fun _ => ?_) fun _ => ends_changeState _
  exact Ends.bind (Q := fun _ _ => True) (Ends.of_ok rfl trivial) fun _ _ _ => ends_changeState _

theorem ends_clientRequest (hactive : s.myActiveFlg = true) (hua : s.agent.myState = .C_TRYING) :
    Ends (fun _ _ => True) Exit.Calm (receivedRequest cmd) s := by
  refine Ends.get_bind ?_
  cases s.myState with
  | UAS_RINGING =>
    refine Ends.ite (fun _ => ?_) fun _ => Ends.of_ok rfl trivial
    exact (ends_doCancel ends_endState (Or.inl hactive)).mono fun _ _ _ => trivial
  | HOLD =>
    refine Ends.ite (fun _ => ?_) fun _ => Ends.of_ok rfl trivial
    exact (ends_reqResume hactive (Or.inr hua)).mono fun _ _ _ => trivial
  | INIT | TRYING | UAC_RINGING | IN_CALL | TEAR_DOWN => exact Ends.of_ok rfl trivial

theorem ends_serverTryingRequest (h : s.Sound) :
    Ends (fun _ _ => True) Exit.Calm (UasStateTrying.recvRequest cmd) s := by
  refine Ends.ite (fun hmethod => ?_) fun _ => Ends.ite (fun _ => ends_changeState _) fun _ => Ends.of_ok rfl trivial
  refine (ends_sendReplyForRequest cmd 200 h).bind fun _ u hu => ?_
  refine Ends.ite (fun _ => ?_) fun _ => ends_ceased hu hmethod
  refine Ends.bind (Q := fun _ => CallAgent.Sound) (Ends.of_ok rfl hu) fun _ v hv => ?_
  refine (ends_sendReplyForRequest _ 487 hv).bind fun _ w hw => ?_
  exact (ends_doCancel ends_endState hw).bind fun _ x hx => ends_ceased hx.1 hmethod

theorem ends_ringingRequest (h : s.Sound) :
    Ends (fun _ _ => True) Exit.Calm (UaStateRinging.recvRequest cmd) s := by
  refine Ends.ite (fun hmethod => ?_) fun _ => Ends.of_ok rfl trivial
  refine (ends_sendReplyForRequest cmd 200 h).bind fun _ u hu => ?_
  refine Ends.ite (fun _ => ?_) fun _ => ends_ceased hu hmethod
  refine Ends.bind (Q := fun _ => CallAgent.Sound) (Ends.of_ok rfl hu) fun _ v hv => ?_
  exact (ends_sendReplyForRequest _ 487 hv).bind fun _ w hw => ends_ceased hw hmethod

theorem ends_recvRequest (hactive : s.myActiveFlg = true) (h : ¬s.KilledByRequest cmd) :
    Ends (fun _ _ => True) Exit.Calm (recvRequest cmd) s := by
  have hsound : s.Sound := Or.inl hactive
  refine Ends.bind (Q := fun a t => a = s.agent ∧ t = s) (Ends.of_ok rfl ⟨rfl, rfl⟩) fun a t hget => ?_
  obtain ⟨rfl, rfl⟩ := hget
  have hto {u : CallAgent} (hmethod : cmd.method = .INVITE) (hdialog : t.InDialog)
      (hu : u.agent.myRequestMsg = cmd.toInviteMsg) :
      u.agent.myRequestMsg.sdp.isSome = true → u.agent.myRequestMsg.toUrl.isSip = true := by
    rw [hu]
    intro hsdp
    cases hsip : cmd.toUrl.isSip with
    | true => rfl
    | false => exact (h ⟨hdialog, hmethod, hsdp, hsip⟩).elim
  cases hua : t.agent.myState with
  | IDLE => exact ends_idleRequest
  | C_TRYING => exact ends_clientRequest hactive hua
  | S_TRYING => exact ends_serverTryingRequest hsound
  | RINGING => exact ends_ringingRequest hsound
  | INCALL =>
    refine ends_recvInDialog .HOLD hactive (Or.inl hua) (fun hmethod => ?_) (Ends.of_ok rfl trivial)
    refine (ends_holdAndResumeReinvite ?_ ?_ ?_).mono fun _ _ _ => trivial
    · exact hactive
    · exact Or.inl hua
    · exact hto hmethod (Or.inl hua) rfl
  | HOLD =>
    refine ends_recvInDialog .INCALL hactive (Or.inr hua) (fun hmethod => ?_) (Ends.of_ok rfl trivial)
    refine (ends_reqResume ?_ (Or.inl ⟨?_, ?_⟩)).mono fun _ _ _ => trivial
    · exact hactive
    · exact Or.inr hua
    · exact hto hmethod (Or.inr hua) rfl
  | FAILURE =>
    refine Ends.get_bind (Ends.ite (fun _ => ?_) fun _ => Ends.of_ok rfl trivial)
    exact (ends_callFailed ends_endState hsound).bind fun _ _ _ => ends_changeState _
  | REDIRECT | END => exact Ends.of_ok rfl trivial

/-- A re-INVITE whose To is no SIP url fails the assertion of the 200. -/
theorem run_reInvited_assert {f : SipSdp → AgentM Unit} (hactive : s.myActiveFlg = true) (h : s.InDialog)
    (hsdp : s.agent.myRequestMsg.sdp.isSome = true) (hto : s.agent.myRequestMsg.toUrl.isSip = false) :
    catchInvalidState (do
      let a ← myInvokee
      match a.myRequestMsg.sdp with
      | some sdp =>
        let _ ← sendStatus endState 200
        f sdp
      | none => throw .abort) s = .error .uaStateAssert s := by
  obtain ⟨sdp, hsdp⟩ := Option.isSome_iff_exists.mp hsdp
  have hstatus : sendStatus endState 200 s = .error .uaStateAssert s := by
    rw [run_sendStatus_ok _ h, hto]
    rfl
  have hbody : (do
      let a ← myInvokee
      match a.myRequestMsg.sdp with
      | some sdp =>
        let _ ← sendStatus endState 200
        f sdp
      | none => throw .abort : AgentM Unit) s = .error .uaStateAssert s := by
    rw [run_bind_ok (run_myInvokee hactive), hsdp]
    exact run_bind_error hstatus
  rw [catchInvalidState, run_tryCatch_error hbody]
  rfl

theorem exit_recvRequest (hactive : s.myActiveFlg = true) (h : s.KilledByRequest cmd) :
    Comp.exit (recvRequest cmd) s = some .uaStateAssert := by
  obtain ⟨hdialog, hmethod, hsdp, hto⟩ := h
  rcases hdialog with hua | hua
  · have hreInvited : holdAndResumeReinvite
        { s with
          agent := { s.agent with myRequestMsg := cmd.toInviteMsg }
          sent := s.sent ++ [.reply 100 .INVITE] } = .error .uaStateAssert _ :=
      run_reInvited_assert (f := fun sdp => do let _ ← myInvokee; ControlState.inHold; doResume (some sdp)) hactive
        (Or.inl hua) hsdp hto
    have h := exit_bind_some (f := fun _ => changeState .HOLD) (exit_of_error hreInvited)
    simpa [Comp.exit, recvRequest, getAgent, hua, UaStateInCall.recvRequest, recvInDialog, hmethod,
      sendReplyForRequest, send, modifyAgent] using h
  · have hreInvited : reqResume
        { s with
          agent := { s.agent with myRequestMsg := cmd.toInviteMsg }
          sent := s.sent ++ [.reply 100 .INVITE] } = .error .uaStateAssert _ :=
      run_reInvited_assert (f := fun sdp => do let _ ← myInvokee; resumeSession sdp) hactive (Or.inr hua) hsdp hto
    have h := exit_bind_some (f := fun _ => changeState .INCALL) (exit_of_error hreInvited)
    simpa [Comp.exit, recvRequest, getAgent, hua, UaStateInHold.recvRequest, recvInDialog, hmethod,
      sendReplyForRequest, send, modifyAgent] using h

/-! ## Every run -/

/-- The messages of the peer that kill the agent. -/
def Call.KilledBy (c : Call) : Op → Prop
  | .status msg _ => c.agent.KilledByStatus msg
  | .request cmd => c.agent.KilledByRequest cmd
  | _ => False

def Op.Remote : Op → Prop
  | .status _ _ | .request _ => True
  | _ => False

/-- A message of the peer is worked on without a use of the dropped user agent and without a failed assertion. -/
def Call.Survives (c : Call) (op : Op) : Prop :=
  c.Live → op.Remote → ∀ e, (c.step op).exit = some e → ¬e.Kills

theorem survives_iff (c : Call) (op : Op) : c.Survives op ↔ (c.Live → ¬c.KilledBy op) := by
  refine imp_congr_right fun hlive => ?_
  have hexit : (c.step op).exit = Comp.exit op.act c.agent := by simp only [Call.step, if_pos hlive]
  rw [hexit]
  cases op with
  | status msg generated =>
    constructor
    · intro h hkilled
      obtain ⟨e, he, hkills⟩ := exit_recvStatus hlive.2 hkilled
      exact h trivial e he hkills
    · intro h _ e he
      exact ((ends_recvStatus hlive.2 h).exit he).1
  | request cmd =>
    constructor
    · intro h hkilled
      exact h trivial _ (exit_recvRequest hlive.2 hkilled) trivial
    · intro h _ e he
      exact ((ends_recvRequest hlive.2 h).exit he).1
  | _ => simp [Op.Remote, Call.KilledBy]

/-- Along every run the messages of the peer leave the agent alive exactly where none of them is one that kills it. -/
theorem remote_survives_iff (start : CallAgent) (ops : List Op) :
    (Call.machine start).Along Call.Survives (Call.machine start).init ops ↔
      (Call.machine start).Along (fun c op => c.Live → ¬c.KilledBy op) (Call.machine start).init ops :=
  Machine.along_congr survives_iff _ ops

/-- A redirection after the first ringing. -/
theorem redirect_kills_ringing_call :
    ¬(Call.machine (client firstInvite)).Along Call.Survives (Call.machine (client firstInvite)).init
      [response 180 1, response 302 1] := by
  intro h
  have hexit : ((Call.machine (client firstInvite)).run ⟨client firstInvite, none⟩
      [response 180 1, response 302 1]).exit = some .droppedInvokee := by decide
  exact h.2.1 (by decide) trivial _ hexit trivial

end Vocal.Ua
