import Vocal.Ua.Numbers
import Vocal.Ua.Provisional

/-!
# The numbers of a client's requests

A client draws the numbers of its re-INVITEs, BYEs and redirected INVITEs from its local counter, and those of INVITEs
that were challenged from the stored request. Only some of the answers bring the two together again. As long as the
counter is not behind the numbers already sent whenever it is drawn from, and no INVITE goes out again before the first
is answered, the numbers stay in order.
-/

namespace Vocal.Ua

open AgentM UaBase Vocal.Comp CallAgent

/-- While the first INVITE is pending, the stored request has the greatest number and there is no answer. -/
def CallAgent.Pends (s : CallAgent) : Prop :=
  s.myState = .TRYING → s.agent.myState = .C_TRYING ∨ s.agent.myState = .REDIRECT →
    s.Covers s.agent.myRequestMsg.cseq ∧ s.agent.myResponseMsg = none

variable {s t : CallAgent} {msg : StatusMsg} {cmd : SipCommand}

theorem pends_of_ne (hua : t.agent.myState ≠ .C_TRYING) (hua' : t.agent.myState ≠ .REDIRECT) : t.Pends :=
  fun _ h => (h.elim hua hua').elim

theorem pends_of_closes (h : Closes s t) (hs : s.Pends) : t.Pends := by
  intro ht hua
  have hcontrol := h.trying ht
  have hsame : t.agent.myState = s.agent.myState := by
    rcases h.ua with h' | h' | ⟨h', -⟩
    · exact h'
    · rw [h'] at hua
      rcases hua with hua | hua <;> cases hua
    · rw [h'] at hua
      rcases hua with hua | hua <;> cases hua
  rw [hsame] at hua
  have hquiet := h.silent (by simp [hcontrol])
  unfold CallAgent.Covers
  rw [hquiet.1, h.request, h.response (by simp [hcontrol])]
  exact hs hcontrol hua

/-! ## Challenges -/

/-- The agent after the INVITE that answers a challenge. -/
def CallAgent.challenged (s : CallAgent) : CallAgent :=
  { s with
    agent := { s.agent with
      myState := .C_TRYING
      myRequestMsg := { s.agent.myRequestMsg with cseq := nextCSeq s.agent.myRequestMsg.cseq } }
    sent := s.sent ++ [.request .INVITE (nextCSeq s.agent.myRequestMsg.cseq)] }

theorem after_receivedStatus_challenge (hs : s.myState = .TRYING)
    (hcode : msg.statusCode = 401 ∨ msg.statusCode = 407) :
    after (receivedStatus msg) s = after doAuthentication s := by
  have h200 : msg.statusCode ≠ 200 := by omega
  have h302 : msg.statusCode ≠ 302 := by omega
  have h480 : msg.statusCode ≠ 480 := by omega
  have hrecv : ControlState.recvStatus msg s = doAuthentication s := by
    simp only [ControlState.recvStatus, run_get_bind, hs, h200, if_false, hcode, if_true]
  rw [receivedStatus, after_catch]
  simp only [h200, false_and, if_false, h302, h480]
  refine after_bind_of (P := fun t => t = after doAuthentication s) ?_ fun _ t _ ht => ht
  rw [after, hrecv, after]

theorem run_doAuthentication (hactive : s.myActiveFlg = true) (hrole : s.myRole = .A_CLIENT)
    (hua : s.agent.myState = .C_TRYING ∨ s.agent.myState = .IDLE) : after doAuthentication s = s.challenged := by
  rcases hua with hua | hua
  · simp [after, doAuthentication, myInvokee, hactive, assertOr, modifyAgent, placeCall, sendRequest, getAgent, hua,
      UacStateTrying.sendRequest, InviteMsg.command, send, CallAgent.challenged]
  · simp [after, doAuthentication, myInvokee, hactive, assertOr, modifyAgent, placeCall, sendRequest, getAgent, hua,
      UaStateIdle.sendRequest, hrole, InviteMsg.command, send, changeState, CallAgent.challenged]

theorem challenged_numbers (s : CallAgent) :
    s.challenged.numbers = s.numbers ++ [nextCSeq s.agent.myRequestMsg.cseq] :=
  numbers_send ..

theorem plain_doAuthentication (hua : s.agent.myState = .RINGING ∨ s.agent.myState = .FAILURE) :
    Plain s (after doAuthentication s) ∧ (after doAuthentication s).myState = s.myState := by
  cases hactive : s.myActiveFlg with
  | false =>
    have hafter : after doAuthentication s = s := by
      rw [doAuthentication, after_of_error (run_bind_error (run_myInvokee_inactive hactive))]
    rw [hafter]
    exact ⟨Plain.refl s, rfl⟩
  | true =>
    rcases hua with hua | hua <;>
      simp [after, doAuthentication, myInvokee, hactive, assertOr, modifyAgent, placeCall, sendRequest, getAgent, hua,
        UaStateRinging.sendRequest, InviteMsg.command] <;> exact ⟨rfl, rfl, rfl⟩

theorem Plain.ordered (h : Plain s t) (hs : s.Ordered) : t.Ordered := by
  unfold CallAgent.Ordered at *
  rwa [h.numbers]

theorem Plain.covers (h : Plain s t) {n : Nat} (hs : s.Covers n) : t.Covers n := by
  unfold CallAgent.Covers at *
  rwa [h.numbers]

/-- The agent after an ACK, with its user agent in the state `u`. -/
def CallAgent.acked (s : CallAgent) (n : Nat) (u : UaState) : CallAgent :=
  { s with agent := { s.agent with myState := u }, sent := s.sent ++ [.request .ACK n] }

theorem plain_acked (s : CallAgent) (n : Nat) (u : UaState) : Plain s (s.acked n u) :=
  ⟨rfl, (numbers_send s _).trans (List.append_nil _), rfl⟩

theorem challenged_inOrder (hs : s.Ordered) (hcovers : s.Covers s.agent.myRequestMsg.cseq)
    (hresponse : s.agent.myResponseMsg = none) : s.challenged.Ordered ∧ s.challenged.Pends := by
  obtain ⟨hord, hcov⟩ := ordered_concat (challenged_numbers s) hs hcovers
  exact ⟨hord, fun _ _ => ⟨hcov, hresponse⟩⟩

theorem pends_settled (hua : s.agent.myState = .RINGING ∨ s.agent.myState = .FAILURE) :
    Ends (fun _ => CallAgent.Pends) (fun _ => True) (recvStatus msg) s := by
  have hset {u : UaState} (hu : u ≠ .C_TRYING) (hu' : u ≠ .REDIRECT) (t : CallAgent) :
      Ends (fun _ => CallAgent.Pends) (fun _ => True) (changeState u) t :=
    Ends.of_ok rfl (pends_of_ne hu hu')
  have hstay : s.Pends := by
    rcases hua with h | h <;> exact pends_of_ne (by simp [h]) (by simp [h])
  refine ends_getAgent ?_
  rcases hua with h | h
  · rw [h]
    refine Ends.ite (fun _ => ?_) fun _ => Ends.ite (fun _ => ?_) fun _ => Ends.of_ok rfl hstay
    · exact Ends.last fun _ _ => Ends.last fun _ _ => Ends.last fun _ _ => Ends.last fun _ =>
        hset (by decide) (by decide)
    · exact Ends.last fun _ _ => Ends.last fun _ => hset (by decide) (by decide)
  · rw [h]
    refine Ends.get_bind (Ends.bind (Q := fun _ t => t = s) ?_ fun _ t ht => ?_)
    · exact Ends.ite (fun _ => Ends.of_ok rfl rfl) fun _ => Ends.of_error rfl trivial
    have hrest (t : CallAgent) : Ends (fun _ => CallAgent.Pends) (fun _ => True)
        (do receivedStatus msg; callFailed endState; changeState .IDLE) t :=
      Ends.last fun _ _ => Ends.last fun _ => hset (by decide) (by decide)
    rw [ht]
    refine Ends.ite (fun _ => ?_) fun _ => Ends.of_ok rfl hstay
    exact Ends.ite (fun _ => Ends.last fun _ => hrest) fun _ => hrest s

theorem challenge_again (hactive : s.myActiveFlg = true) (hrole : s.myRole = .A_CLIENT) (hs : s.myState = .TRYING)
    (hcode : msg.statusCode = 401 ∨ msg.statusCode = 407) (hord : s.Ordered) (hpends : s.Pends) (u : UaState)
    (hu : u = .C_TRYING ∨ u = .IDLE) (hua : s.agent.myState = .C_TRYING ∨ s.agent.myState = .REDIRECT)
    (hafter : after (recvStatus msg) s = after (receivedStatus msg) (s.acked msg.cseq u)) :
    (after (recvStatus msg) s).Ordered ∧ Ends (fun _ => CallAgent.Pends) (fun _ => True) (recvStatus msg) s := by
  obtain ⟨hcovers, hresponse⟩ := hpends hs hua
  have hnumbers := plain_acked s msg.cseq u
  have hcontrol : (s.acked msg.cseq u).myState = .TRYING := hs
  have hinvited := run_doAuthentication (s := s.acked msg.cseq u) hactive hrole hu
  rw [after_receivedStatus_challenge hcontrol hcode, hinvited] at hafter
  have hnext := challenged_inOrder (hnumbers.ordered hord) (hnumbers.covers hcovers) hresponse
  rw [← hafter] at hnext
  exact ⟨hnext.1, Ends.of_after hnext.2⟩

/-- A challenge is answered with the next number of the stored request. -/
theorem recvStatus_challenge (hactive : s.myActiveFlg = true) (hrole : s.myRole = .A_CLIENT) (hs : s.myState = .TRYING)
    (hcode : msg.statusCode = 401 ∨ msg.statusCode = 407) (hout : s.agent.myState.outside = true) (hord : s.Ordered)
    (hpends : s.Pends) :
    (after (recvStatus msg) s).Ordered ∧ Ends (fun _ => CallAgent.Pends) (fun _ => True) (recvStatus msg) s := by
  have h200 : msg.statusCode ≠ 200 := by omega
  have hgt : 200 < msg.statusCode := by omega
  have h408 : msg.statusCode ≠ 408 := by omega
  have h487 : msg.statusCode ≠ 487 := by omega
  cases hua : s.agent.myState with
  | INCALL | HOLD | END =>
    rw [hua] at hout
    cases hout
  | IDLE | S_TRYING =>
    have hrun : recvStatus msg s = .ok () s := by simp [recvStatus, getAgent, hua]
    rw [after_of_ok hrun]
    exact ⟨hord, Ends.of_ok hrun hpends⟩
  | C_TRYING =>
    refine challenge_again hactive hrole hs hcode hord hpends .C_TRYING (Or.inl rfl) (Or.inl hua) ?_
    have hsame : ({ s.agent with myState := .C_TRYING } : UaBase) = s.agent := by rw [← hua]
    simp [after, recvStatus, getAgent, hua, UacStateTrying.recvStatus, h200, hgt, hcode, ackFailure, h408, send,
      CallAgent.acked, hsame]
  | REDIRECT =>
    refine challenge_again hactive hrole hs hcode hord hpends .IDLE (Or.inr rfl) (Or.inr hua) ?_
    simp [after, recvStatus, getAgent, hua, UaStateRedirect.recvStatus, h200, hgt, ackFailure, h408, send, changeState,
      modifyAgent, CallAgent.acked]
  | RINGING =>
    have hauth := plain_doAuthentication (s := s.acked msg.cseq .RINGING) (Or.inl rfl)
    have hcontrol : (s.acked msg.cseq .RINGING).myState = .TRYING := hs
    rw [← after_receivedStatus_challenge hcontrol hcode] at hauth
    have hsame : ({ s.agent with myState := .RINGING } : UaBase) = s.agent := by rw [← hua]
    have hafter : after (recvStatus msg) s =
        after (do receivedStatus msg; changeState .IDLE) (s.acked msg.cseq .RINGING) := by
      simp [after, recvStatus, getAgent, hua, UaStateRinging.recvStatus, h200, hgt, ackFailure, h408, send,
        CallAgent.acked, hsame]
    have hplain : Plain s (after (recvStatus msg) s) := by
      rw [hafter]
      exact (plain_acked s _ _).trans (after_bind Plain.trans hauth.1 fun _ _ _ => ⟨rfl, rfl, rfl⟩)
    exact ⟨hplain.ordered hord, pends_settled (Or.inl hua)⟩
  | FAILURE =>
    have hauth := plain_doAuthentication (Or.inr hua)
    rw [← after_receivedStatus_challenge hs hcode] at hauth
    have hafter : after (recvStatus msg) s =
        after (do receivedStatus msg; callFailed endState; changeState .IDLE) s := by
      simp [after, recvStatus, getAgent, hua, UaStateFailure.recvStatus, hrole, assertOr, hgt, h487]
    have hplain : Plain s (after (recvStatus msg) s) := by
      rw [hafter]
      refine after_bind Plain.trans hauth.1 fun _ t ht => ?_
      rw [after_of_ok ht] at hauth
      have hcontrol : t.myState ≠ .IN_CALL := by simp [hauth.2, hs]
      exact after_bind Plain.trans (Plain.of_closes (closes_callFailed closes_endState t) hcontrol) fun _ u _ =>
        Plain.changeState _ u
    exact ⟨hplain.ordered hord, pends_settled (Or.inr hua)⟩

/-! ## Other responses to the first INVITE -/

/-- The agent after the INVITE of a redirection. -/
def CallAgent.redirected (s : CallAgent) : CallAgent :=
  { s with
    agent := { s.agent with
      myLocalCSeq := nextCSeq s.agent.myLocalCSeq
      myRequestMsg := { s.agent.myRequestMsg with cseq := nextCSeq s.agent.myLocalCSeq } }
    sent := s.sent ++ [.request .INVITE (nextCSeq s.agent.myLocalCSeq)] }

theorem receivedStatus_failure_trying (hs : s.myState = .TRYING)
    (hauth : ¬(msg.statusCode = 401 ∨ msg.statusCode = 407)) (hcode : 200 < msg.statusCode) :
    (after (receivedStatus msg) s).agent.myState = s.agent.myState ∧
      (¬(msg.statusCode = 302 ∧ msg.method = .INVITE) → (after (receivedStatus msg) s).myState ≠ .TRYING) := by
  have h200 : msg.statusCode ≠ 200 := by omega
  refine receivedStatus_of (P := fun t => t.agent.myState = s.agent.myState ∧
    (¬(msg.statusCode = 302 ∧ msg.method = .INVITE) → t.myState ≠ .TRYING))
    (fun _ _ hsame h => ⟨hsame.2.trans h.1, fun hno => hsame.1 ▸ h.2 hno⟩) ?_
  have hafter : after (ControlState.recvStatus msg) s =
      after (if msg.statusCode = 302 ∧ msg.method = .INVITE then pure () else doCancel endState) s := by
    simp only [after, ControlState.recvStatus, run_get_bind, hs, h200, if_false, hauth, hcode, if_true]
  rw [hafter]
  split
  · exact ⟨rfl, fun h => (h (by assumption)).elim⟩
  · rw [endState, after_of_ok (run_doCancel_pending (Or.inl hs))]
    exact ⟨rfl, fun _ h => by cases h⟩

theorem run_receivedStatus_redirect (hs : s.myState = .TRYING) (hactive : s.myActiveFlg = true)
    (hcode : msg.statusCode = 302) (hmethod : msg.method = .INVITE) (hcontact : msg.contactList ≠ []) :
    receivedStatus msg s = .ok () s.redirected := by
  have hrecv : ControlState.recvStatus msg s = .ok () s := by
    simp [ControlState.recvStatus, hs, hcode, hmethod]
  refine run_catch_ok ((run_bind_ok hrecv).trans ?_)
  have hlist : msg.contactList.isEmpty = false := by
    cases h : msg.contactList with
    | nil => exact (hcontact h).elim
    | cons contact rest => rfl
  simp [hcode, redirect, myInvokee, hactive, assertOr, hlist, getAgent, modifyAgent, send, CallAgent.redirected]

theorem redirected_pends (hs : s.Ordered) (hcovers : s.Covers s.agent.myLocalCSeq)
    (hresponse : s.agent.myResponseMsg = none) : s.redirected.Pends := by
  have hnumbers : s.redirected.numbers = s.numbers ++ [nextCSeq s.agent.myLocalCSeq] := numbers_send ..
  exact fun _ _ => ⟨(ordered_concat hnumbers hs hcovers).2, hresponse⟩

/-- The user agent has given its INVITE up before the controller hears of the failure. -/
theorem pends_givenUp (hs : s.myState = .TRYING) (hauth : ¬(msg.statusCode = 401 ∨ msg.statusCode = 407))
    (hgt : 200 < msg.statusCode) :
    Ends (fun _ => CallAgent.Pends) (fun _ => True) (do changeState .IDLE; receivedStatus msg) s := by
  refine Ends.bind (Q := fun _ u => u.myState = s.myState ∧ u.agent.myState = .IDLE) (Ends.of_ok rfl ⟨rfl, rfl⟩)
    fun _ u hu => ?_
  have hua := (receivedStatus_failure_trying (hu.1.trans hs) hauth hgt).1
  exact Ends.of_after (pends_of_ne (by simp [hu.2, hua]) (by simp [hu.2, hua]))

theorem pends_ring (hactive : s.myActiveFlg = true) (hs : s.myState = .TRYING) (hpends : s.Pends)
    (hcode : msg.statusCode < 200) :
    Ends (fun _ => CallAgent.Pends) (fun _ => True)
      (do if 180 ≤ msg.statusCode then changeState .RINGING
          receivedStatus msg) s := by
  by_cases h180 : 180 ≤ msg.statusCode
  · simp only [h180, if_true]
    refine Ends.bind (Q := fun _ t => t.myActiveFlg = true ∧ t.agent.myState = .RINGING)
      (Ends.of_ok rfl ⟨hactive, rfl⟩) fun _ t ht => ?_
    have hua := receivedStatus_provisional_ua ht.1 hcode
    exact Ends.of_after (pends_of_ne (by simp [ht.2, hua]) (by simp [ht.2, hua]))
  · have hrun := run_receivedStatus_provisional hactive hcode
    have hno : ¬(msg.statusCode = 180 ∨ msg.statusCode = 183) := by omega
    simp only [hs, hno, if_false] at hrun
    simp only [h180, if_false]
    exact Ends.of_ok hrun hpends

theorem pends_redirection (hactive : s.myActiveFlg = true) (hs : s.myState = .TRYING) (hord : s.Ordered)
    (hresponse : s.agent.myResponseMsg = none) (hcovers : s.Covers s.agent.myLocalCSeq) (h302 : msg.statusCode = 302)
    (hcontact : msg.contactList ≠ []) :
    Ends (fun _ => CallAgent.Pends) (fun _ => True) (do changeState .REDIRECT; receivedStatus msg) s := by
  refine Ends.bind (Q := fun _ t => t = { s with agent := { s.agent with myState := .REDIRECT } }) (Ends.of_ok rfl rfl)
    fun _ t ht => ?_
  have hplain : Plain s t := by
    rw [ht]
    exact ⟨rfl, rfl, rfl⟩
  have hcontrol : t.myState = .TRYING := by rw [ht]; exact hs
  by_cases hmethod : msg.method = .INVITE
  · refine Ends.of_ok (run_receivedStatus_redirect hcontrol (by rw [ht]; exact hactive) h302 hmethod hcontact) ?_
    refine redirected_pends (hplain.ordered hord) ?_ (by rw [ht]; exact hresponse)
    rw [hplain.counter]
    exact hplain.covers hcovers
  · refine Ends.of_after fun htrying => ?_
    have hauth : ¬(msg.statusCode = 401 ∨ msg.statusCode = 407) := by omega
    exact ((receivedStatus_failure_trying hcontrol hauth (by omega)).2 (fun h => hmethod h.2) htrying).elim

theorem pends_recvStatus (hactive : s.myActiveFlg = true) (hs : s.myState = .TRYING)
    (hauth : ¬(msg.statusCode = 401 ∨ msg.statusCode = 407)) (hout : s.agent.myState.outside = true) (hord : s.Ordered)
    (hpends : s.Pends) (hcovers : s.DrawsAt msg → s.Covers s.agent.myLocalCSeq) :
    Ends (fun _ => CallAgent.Pends) (fun _ => True) (recvStatus msg) s := by
  have hanswer (t : CallAgent) : Ends (fun _ => CallAgent.Pends) (fun _ => True)
      (do saveAnswer msg; receivedStatus msg; changeState .INCALL) t :=
    Ends.last fun _ _ => Ends.last fun _ _ => Ends.of_ok rfl (pends_of_ne (by simp) (by simp))
  have hack : Ends (fun _ t => ∃ sent, t = { s with sent := sent } ∧ t.numbers = s.numbers) (fun _ => True)
      (ackFailure msg) s :=
    Ends.ite (fun _ => Ends.of_ok rfl ⟨_, rfl, (Plain.send rfl s).numbers⟩) fun _ => Ends.of_ok rfl ⟨s.sent, rfl, rfl⟩
  cases hua : s.agent.myState with
  | INCALL | HOLD | END =>
    rw [hua] at hout
    cases hout
  | RINGING => exact pends_settled (Or.inl hua)
  | FAILURE => exact pends_settled (Or.inr hua)
  | IDLE | S_TRYING =>
    refine ends_getAgent ?_
    rw [hua]
    exact Ends.of_ok rfl hpends
  | REDIRECT =>
    refine ends_getAgent ?_
    rw [hua]
    refine Ends.ite (fun _ => hanswer s) fun h200 => Ends.ite (fun hgt => ?_) fun hle =>
      pends_ring hactive hs hpends (by omega)
    refine hack.bind fun _ t ht => ?_
    obtain ⟨sent, rfl, -⟩ := ht
    exact pends_givenUp hs hauth hgt
  | C_TRYING =>
    refine ends_getAgent ?_
    rw [hua]
    refine Ends.ite (fun _ => hanswer s) fun h200 => Ends.ite (fun hgt => ?_) fun hle =>
      pends_ring hactive hs hpends (by omega)
    refine hack.bind fun _ t ht => Ends.ite (fun h => (hauth h).elim) fun _ => ?_
    obtain ⟨sent, rfl, hnumbers⟩ := ht
    have hplain : Plain s { s with sent := sent } := ⟨rfl, hnumbers, rfl⟩
    refine Ends.ite (fun h302 => Ends.ite (fun _ => ?_) fun hcontact => ?_) fun _ => pends_givenUp hs hauth hgt
    · exact Ends.bind (Q := fun _ t => t.agent.myState = .IDLE) (Ends.of_ok rfl rfl) fun _ t ht =>
        Ends.of_after (pends_of_closes (closes_callFailed closes_endState t)
          (pends_of_ne (by simp [ht]) (by simp [ht])))
    · have hlist : msg.contactList ≠ [] := fun h => hcontact (List.isEmpty_iff.mpr h)
      refine pends_redirection hactive hs (hplain.ordered hord) (hpends hs (Or.inl hua)).2 ?_ h302 hlist
      exact hplain.covers (hcovers (Or.inl ⟨h302, hlist, by simp [hua]⟩))

theorem pends_recvRequest (hrole : s.myRole = .A_CLIENT) (hs : s.myState = .TRYING)
    (hout : s.agent.myState.outside = true) (hpends : s.Pends) :
    Ends (fun _ => CallAgent.Pends) (fun _ => True) (recvRequest cmd) s := by
  have hset {u : UaState} (hu : u ≠ .C_TRYING) (hu' : u ≠ .REDIRECT) (t : CallAgent) :
      Ends (fun _ => CallAgent.Pends) (fun _ => True) (changeState u) t :=
    Ends.of_ok rfl (pends_of_ne hu hu')
  have hfail (t : CallAgent) :
      Ends (fun _ => CallAgent.Pends) (fun _ => True) (do receivedRequest cmd; changeState .FAILURE) t :=
    Ends.last fun _ => hset (by decide) (by decide)
  cases hua : s.agent.myState with
  | INCALL | HOLD | END =>
    rw [hua] at hout
    cases hout
  | IDLE =>
    refine Ends.of_ok (a := ()) (t := s) ?_ hpends
    simp [recvRequest, getAgent, hua, UaStateIdle.recvRequest, hrole]
  | C_TRYING =>
    refine Ends.of_ok (a := ()) (t := s) ?_ hpends
    simp [recvRequest, getAgent, hua, receivedRequest, ControlState.recvReq, hs]
  | REDIRECT =>
    refine Ends.of_ok (a := ()) (t := s) ?_ hpends
    simp [recvRequest, getAgent, hua]
  | FAILURE =>
    refine Ends.of_ok (a := ()) (t := s) ?_ hpends
    simp [recvRequest, getAgent, hua, UaStateFailure.recvRequest, hrole]
  | S_TRYING =>
    refine ends_getAgent ?_
    rw [hua]
    refine Ends.ite (fun _ => Ends.last fun _ t => Ends.ite (fun _ => ?_) fun _ => hfail t) fun _ =>
      Ends.ite (fun _ => hset (by decide) (by decide) s) fun _ => Ends.of_ok rfl hpends
    exact Ends.last fun _ _ => Ends.last fun _ _ => Ends.last fun _ => hfail
  | RINGING =>
    refine ends_getAgent ?_
    rw [hua]
    refine Ends.ite (fun _ => ?_) fun _ => Ends.of_ok rfl hpends
    refine Ends.last fun _ t => Ends.ite (fun _ => ?_) fun _ => hfail t
    exact Ends.last fun _ _ => Ends.last fun _ => hfail

/-! ## What the user does -/

/-- The agent with another stored request. -/
def CallAgent.withRequest (s : CallAgent) (invite : InviteMsg) : CallAgent :=
  { s with agent := { s.agent with myRequestMsg := invite } }

/-- A hold or a resume comes down to an INVITE with the stored request, whose ends it may swap. -/
theorem reInviting_of {P : CallAgent → Prop} {op : Op} (hop : op = .hold ∨ op = .resume)
    (hactive : s.myActiveFlg = true)
    (hstop : ∀ invite : InviteMsg, invite.cseq = s.agent.myRequestMsg.cseq → P (s.withRequest invite))
    (hsend : ∀ invite sent : InviteMsg, invite.cseq = s.agent.myRequestMsg.cseq →
      P (after (sendRequest (sent.command .INVITE)) (s.withRequest invite))) : P (after op.act s) := by
  have hsame : s.withRequest s.agent.myRequestMsg = s := rfl
  have hself : P s := hsame ▸ hstop _ rfl
  have hinvite (invite sent : InviteMsg) (hcseq : invite.cseq = s.agent.myRequestMsg.cseq) :
      P (after (do let _ ← sendRequest (sent.command .INVITE) : AgentM Unit) (s.withRequest invite)) :=
    after_bind_of (hsend invite sent hcseq) fun _ _ _ h => h
  have hstored (invite : InviteMsg) (hcseq : invite.cseq = s.agent.myRequestMsg.cseq) :
      P (after (do let _ ← sendRequest ((← getAgent).myRequestMsg.command .INVITE) : AgentM Unit)
        (s.withRequest invite)) :=
    hinvite invite invite hcseq
  have hassert {m : AgentM Unit} (invite : InviteMsg) (hcseq : invite.cseq = s.agent.myRequestMsg.cseq) (b : Bool)
      (hm : P (after m (s.withRequest invite))) : P (after (do assertOr .abort b; m) (s.withRequest invite)) := by
    refine after_bind_of ?_ fun _ t ht _ => ?_
    · rw [after_assertOr]
      exact hstop invite hcseq
    · rw [of_run_assertOr ht]
      exact hm
  have hinvokee : P (after myInvokee s) := by
    rw [after_of_ok (run_myInvokee hactive)]
    exact hself
  rcases hop with rfl | rfl
  · refine after_bind_of hinvokee fun a t ht _ => ?_
    obtain ⟨-, rfl, rfl⟩ := of_run_myInvokee ht
    cases hhere : t.agent.myRequestMsg.contactHere with
    | true =>
      exact hassert t.agent.myRequestMsg rfl t.agent.myRequestMsg.sdp.isSome (hstored _ rfl)
    | false =>
      refine hassert t.agent.myRequestMsg rfl _ (after_bind_of (hstop (swapToFrom t.agent.myRequestMsg) rfl) ?_)
      intro _ u hu _
      cases hu
      exact hassert (swapToFrom t.agent.myRequestMsg) rfl _ (hstored _ rfl)
  · refine after_bind_of hinvokee fun a t ht _ => ?_
    obtain ⟨-, rfl, rfl⟩ := of_run_myInvokee ht
    exact hassert t.agent.myRequestMsg rfl _ (hinvite _ _ rfl)

theorem ordered_reInvite (h : s.InStep) (cmd : SipCommand) : (after (reInvite cmd) s).Ordered := by
  cases hfrom : cmd.fromUrl.isSip with
  | false => simpa [after, reInvite, createReInvite, hfrom, assertOr] using h.1
  | true =>
    cases hroute : s.agent.myRouteList with
    | nil => simpa [after, reInvite, createReInvite, hfrom, hroute, assertOr, getAgent] using h.1
    | cons url urls =>
      cases hresponse : s.agent.myResponseMsg with
      | none =>
        have hafter : after (reInvite cmd) s =
            after (modifyAgent fun a => { a with myLocalCSeq := nextCSeq a.myLocalCSeq }) s := by
          simp [after, reInvite, createReInvite, hfrom, hroute, hresponse, assertOr, getAgent, modifyAgent]
        rw [hafter]
        exact h.1
      | some response =>
        have hafter : after (reInvite cmd) s = after (send (.request .INVITE (nextCSeq s.agent.myLocalCSeq)))
            (after (modifyAgent fun a => { a with myLocalCSeq := nextCSeq a.myLocalCSeq }) s) := by
          simp [after, reInvite, createReInvite, hfrom, hroute, hresponse, assertOr, getAgent, modifyAgent, send]
        rw [hafter]
        exact (ordered_concat (numbers_send ..) h.1 h.2).1

theorem ordered_invite (hs : s.Ordered) (hcovers : s.InDialog → s.Covers s.agent.myLocalCSeq)
    (hidle : s.agent.myState ≠ .IDLE) (htrying : s.agent.myState ≠ .C_TRYING) (invite : InviteMsg) :
    (after (sendRequest (invite.command .INVITE)) s).Ordered := by
  have hdialog (u : UaState) (h : s.InDialog) :
      (after (do reInvite (invite.command .INVITE); changeState u; return 0 : AgentM Int) s).Ordered :=
    after_bind_of (P := CallAgent.Ordered) (ordered_reInvite ⟨hs, hcovers h⟩ _) fun _ _ _ ht => ht
  cases hua : s.agent.myState with
  | IDLE => exact (hidle hua).elim
  | C_TRYING => exact (htrying hua).elim
  | RINGING | REDIRECT | S_TRYING | FAILURE | END =>
    simpa [after, sendRequest, getAgent, hua, UaStateRinging.sendRequest, InviteMsg.command] using hs
  | INCALL =>
    have hafter : after (sendRequest (invite.command .INVITE)) s =
        after (do reInvite (invite.command .INVITE); changeState .HOLD; return 0 : AgentM Int) s := by
      simp only [after, sendRequest, getAgent, bind_assoc, run_get_bind, pure_bind, hua, UaStateInCall.sendRequest,
        sendInDialog, InviteMsg.command]
    rw [hafter]
    exact hdialog .HOLD (Or.inl hua)
  | HOLD =>
    have hafter : after (sendRequest (invite.command .INVITE)) s =
        after (do reInvite (invite.command .INVITE); changeState .INCALL; return 0 : AgentM Int) s := by
      simp only [after, sendRequest, getAgent, bind_assoc, run_get_bind, pure_bind, hua, UaStateInHold.sendRequest,
        sendInDialog, InviteMsg.command]
    rw [hafter]
    exact hdialog .INCALL (Or.inr hua)

theorem pends_invite (hs : s.Pends) (hout : s.agent.myState.outside = true) (hidle : s.agent.myState ≠ .IDLE)
    (htrying : s.agent.myState ≠ .C_TRYING) (invite : InviteMsg) :
    (after (sendRequest (invite.command .INVITE)) s).Pends := by
  cases hua : s.agent.myState with
  | IDLE => exact (hidle hua).elim
  | C_TRYING => exact (htrying hua).elim
  | INCALL | HOLD | END =>
    rw [hua] at hout
    cases hout
  | RINGING | REDIRECT | S_TRYING | FAILURE =>
    simpa [after, sendRequest, getAgent, hua, UaStateRinging.sendRequest, InviteMsg.command] using hs

theorem counted_sendBye : Moves Counted sendBye := by
  intro s
  rw [after, run_sendBye]
  cases hrole : s.myRole with
  | A_SERVER =>
    cases s.agent.myAckMsg with
    | none => exact (Plain.refl s).counted
    | some ack => exact ⟨hrole.symm, fun h => by rw [hrole] at h; cases h⟩
  | A_CLIENT =>
    cases s.agent.myResponseMsg with
    | none => exact (Plain.refl s).counted
    | some response => exact ⟨hrole.symm, fun _ hs => ordered_concat (numbers_send ..) hs.1 hs.2⟩

/-! ## Runs -/

/-- Where a step draws a number from the local counter. -/
def CallAgent.Draws (s : CallAgent) : Op → Prop
  | .status msg _ => s.DrawsAt msg
  | .request cmd => s.DrawsOn cmd
  | .hold | .resume => s.InDialog
  | .stop | .purge => s.myState = .IN_CALL
  | .bye => s.myState ≠ .HOLD ∧ s.agent.myResponseMsg.isSome = true
  | .accept => False

/-- The counter is not behind where a number is drawn from it, and an INVITE that is pending or refused is not sent
again. -/
def CallAgent.InSync (s : CallAgent) (op : Op) : Prop :=
  (s.Draws op → s.Covers s.agent.myLocalCSeq) ∧
    (op = .hold ∨ op = .resume → s.agent.myState ≠ .IDLE ∧ s.agent.myState ≠ .C_TRYING)

/-- What holds of a client between two steps. -/
structure CallAgent.Tracked (s : CallAgent) : Prop where
  role : s.myRole = .A_CLIENT
  early : s.Early
  ordered : s.Ordered
  pends : s.Pends

theorem ordered_of {op : Op} (h : s.Tracked) (hsync : s.InSync op) (hdraws : s.Draws op → Counted s t)
    (hplain : ¬s.Draws op → Plain s t) : t.Ordered := by
  by_cases hd : s.Draws op
  · exact ((hdraws hd).inStep h.role ⟨h.ordered, hsync.1 hd⟩).1
  · exact (hplain hd).ordered h.ordered

theorem plain_bye (hrole : s.myRole = .A_CLIENT) (h : ¬s.Draws .bye) : Plain s (after (doBye endState) s) := by
  refine after_bind Plain.trans (Plain.refl s) fun t u hget => ?_
  cases hget
  cases hcan : s.myState.canBye with
  | false => exact plain_endCall s
  | true =>
    refine after_bind Plain.trans (Plain.myInvokee s) fun a t ht => ?_
    obtain ⟨-, -, rfl⟩ := of_run_myInvokee ht
    refine after_bind Plain.trans ?_ fun _ u _ => plain_endCall u
    -- there is no response whose tags the BYE could have
    have hresponse : t.agent.myResponseMsg = none := by
      by_contra hne
      refine h ⟨fun hhold => ?_, Option.isSome_iff_ne_none.mpr hne⟩
      rw [hhold] at hcan
      cases hcan
    have hafter : after sendBye t = t := by
      rw [after, run_sendBye]
      simp [hrole, hresponse]
    rw [hafter]
    exact Plain.refl t

theorem counted_bye : Moves Counted (doBye endState) := by
  have hend : Moves Counted (endCall endState) := fun s => (plain_endCall s).counted
  refine Moves.bind Counted.trans (fun s => (Plain.refl s).counted) fun s => Moves.ite (fun _ => ?_) fun _ => hend
  exact Moves.bind Counted.trans (fun s => (Plain.myInvokee s).counted) fun _ =>
    Moves.bind Counted.trans counted_sendBye fun _ => hend

theorem closes_purge : Moves Closes (Op.act .purge) :=
  Moves.bind Closes.trans (closes_stopCall closes_endState) fun _ => closes_endCall closes_endState

theorem after_accept (hrole : s.myRole = .A_CLIENT) : after (Op.act .accept) s = s := by
  simp [after, Op.act, acceptCall, hrole]

theorem ordered_step {op : Op} (hactive : s.myActiveFlg = true) (h : s.Tracked) (hsync : s.InSync op) :
    (after op.act s).Ordered := by
  have hinvite (hop : op = .hold ∨ op = .resume) (hdraws : s.InDialog → s.Draws op) : (after op.act s).Ordered := by
    obtain ⟨hidle, htrying⟩ := hsync.2 hop
    refine reInviting_of hop hactive (fun _ _ => h.ordered) fun invite sent _ => ?_
    exact ordered_invite (s := s.withRequest invite) h.ordered (fun hd => hsync.1 (hdraws hd)) hidle htrying sent
  have hcloses {m : AgentM Unit} (hm : Moves Closes m) (hop : op.act = m) (hdraws : s.myState = .IN_CALL → s.Draws op) :
      (after op.act s).Ordered := by
    rw [hop]
    refine ordered_of h hsync (fun _ => Counted.of_closes (hm s)) fun hno => Plain.of_closes (hm s) ?_
    exact fun hup => hno (hdraws hup)
  cases op with
  | status msg generated =>
    by_cases hauth : s.myState = .TRYING ∧ (msg.statusCode = 401 ∨ msg.statusCode = 407)
    · exact (recvStatus_challenge hactive h.role hauth.1 hauth.2 (h.early hauth.1) h.ordered h.pends).1
    · exact ordered_recvStatus h.role ⟨fun hs hcode => hauth ⟨hs, hcode⟩, False.elim⟩ h.ordered hsync.1
  | request cmd => exact ordered_of h hsync counted_recvRequest (plain_recvRequest h.role)
  | accept =>
    rw [after_accept h.role]
    exact h.ordered
  | hold => exact hinvite (Or.inl rfl) id
  | resume => exact hinvite (Or.inr rfl) id
  | stop => exact hcloses (closes_stopCall closes_endState) rfl id
  | purge => exact hcloses closes_purge rfl id
  | bye => exact ordered_of h hsync (fun _ => counted_bye s) (plain_bye h.role)

theorem pends_bye (hactive : s.myActiveFlg = true) (h : s.Tracked) :
    Ends (fun _ => CallAgent.Pends) (fun _ => True) (doBye endState) s := by
  have hend (t : CallAgent) (ht : t.Pends) : Ends (fun _ => CallAgent.Pends) (fun _ => True) (endCall endState) t :=
    Ends.of_after (pends_of_closes (closes_endCall closes_endState t) ht)
  refine Ends.get_bind (Ends.ite (fun _ => ?_) fun _ => hend s h.pends)
  refine Ends.bind (Q := fun _ t => t = s) (Ends.of_ok (run_myInvokee hactive) rfl) fun _ t ht => ?_
  refine Ends.bind (Q := fun _ => CallAgent.Pends) ?_ fun _ u hu => hend u hu
  rw [ht, Ends, run_sendBye, h.role]
  cases hresponse : s.agent.myResponseMsg with
  | none => exact trivial
  | some response =>
    intro hcontrol hua
    have hnone := (h.pends hcontrol hua).2
    rw [hresponse] at hnone
    cases hnone

/-- A step that the process survives leaves a pending INVITE in order. -/
theorem pends_step {op : Op} (hactive : s.myActiveFlg = true) (h : s.Tracked) (hsync : s.InSync op) :
    Ends (fun _ => CallAgent.Pends) (fun _ => True) op.act s := by
  by_cases hs : s.myState = .TRYING
  case neg => exact Ends.of_after fun ht => (hs ((Runs.operation op s).trying ht)).elim
  have hout := h.early hs
  have hinvite (hop : op = .hold ∨ op = .resume) : Ends (fun _ => CallAgent.Pends) (fun _ => True) op.act s := by
    obtain ⟨hidle, htrying⟩ := hsync.2 hop
    have hpends (invite : InviteMsg) (hcseq : invite.cseq = s.agent.myRequestMsg.cseq) :
        (s.withRequest invite).Pends := by
      intro hcontrol hua
      have hcovers := h.pends hcontrol hua
      rw [← hcseq] at hcovers
      exact hcovers
    refine Ends.of_after (reInviting_of hop hactive hpends fun invite sent hcseq => ?_)
    exact pends_invite (hpends invite hcseq) hout hidle htrying sent
  cases op with
  | status msg generated =>
    by_cases hauth : msg.statusCode = 401 ∨ msg.statusCode = 407
    · exact (recvStatus_challenge hactive h.role hs hauth hout h.ordered h.pends).2
    · exact pends_recvStatus hactive hs hauth hout h.ordered h.pends hsync.1
  | request cmd => exact pends_recvRequest h.role hs hout h.pends
  | accept =>
    refine Ends.of_after ?_
    rw [after_accept h.role]
    exact h.pends
  | hold => exact hinvite (Or.inl rfl)
  | resume => exact hinvite (Or.inr rfl)
  | stop => exact Ends.of_after (pends_of_closes (closes_stopCall closes_endState s) h.pends)
  | purge => exact Ends.of_after (pends_of_closes (closes_purge s) h.pends)
  | bye => exact pends_bye hactive h

theorem tracked_client (invite : InviteMsg) : (client invite).Tracked where
  role := rfl
  early := early_of_starts (Or.inl rfl)
  ordered := List.pairwise_singleton _ _
  pends := by
    refine fun _ _ => ⟨fun n hn _ => ?_, rfl⟩
    have hnumbers : (client invite).numbers = [invite.cseq] := rfl
    rw [hnumbers, List.mem_singleton] at hn
    exact Nat.le_of_eq hn

theorem tracked_step {c : Call} {op : Op} (hlive : c.Live) (h : c.agent.Tracked) (hsync : c.agent.InSync op) :
    (c.step op).agent.Ordered ∧ ((c.step op).exit = none → (c.step op).agent.Tracked) := by
  have hord := ordered_step hlive.2 h hsync
  have hpends := pends_step hlive.2 h hsync
  have hnext : (c.step op).agent = after op.act c.agent := by rw [Call.step, if_pos hlive]
  refine ⟨hnext ▸ hord, fun hexit => ?_⟩
  refine ⟨?_, ?_, hnext ▸ hord, step_of_ends hlive hexit hpends⟩
  · rw [hnext, (Runs.operation op c.agent).role]
    exact h.role
  · rw [hnext]
    exact KeepsEarly.operation op c.agent h.early

/-- The numbers of the INVITEs and BYEs of a client are in order in every state of a run that draws from its counter
only where the counter is not behind, and sends no INVITE again that is pending or refused. -/
theorem numbers_ordered (invite : InviteMsg) (ops : List Op)
    (h : (Call.machine (client invite)).Along (fun c op => c.Live → c.agent.InSync op)
      (Call.machine (client invite)).init ops) :
    (Call.machine (client invite)).Throughout (fun c => c.agent.Ordered) (Call.machine (client invite)).init ops := by
  have hstart := tracked_client invite
  refine Machine.Throughout.mono (P := fun c : Call => c.agent.Ordered ∧ (c.exit = none → c.agent.Tracked))
    (fun _ hc => hc.1) (Machine.throughout_of_guarded (fun c op hc hsync => ?_) ops _
      ⟨hstart.ordered, fun _ => hstart⟩ h)
  show (c.step op).agent.Ordered ∧ ((c.step op).exit = none → (c.step op).agent.Tracked)
  by_cases hlive : c.Live
  · exact tracked_step hlive (hc.2 hlive.1) (hsync hlive)
  · rw [Call.step, if_neg hlive]
    exact hc

/-- The challenged call rings before it is answered, which brings the counter up to the number of the second INVITE. -/
theorem numbers_ordered_rung : (Call.machine (client firstInvite)).Throughout (fun c => c.agent.Ordered)
    (Call.machine (client firstInvite)).init [response 401 1, response 180 2, response 200 2, .bye] := by
  have hop (statusCode cseq : Nat) (s : CallAgent) :
      response statusCode cseq = .hold ∨ response statusCode cseq = .resume →
        s.agent.myState ≠ .IDLE ∧ s.agent.myState ≠ .C_TRYING := by
    rintro (h | h) <;> cases h
  refine numbers_ordered firstInvite _ ⟨fun _ => ⟨fun h => ?_, hop 401 1 _⟩, fun _ => ⟨fun h => ?_, hop 180 2 _⟩,
    fun _ => ⟨fun h => ?_, hop 200 2 _⟩, fun _ => ⟨fun _ => ?_, ?_⟩, trivial⟩
  · rcases h with ⟨h, -⟩ | ⟨-, h⟩ <;> cases h
  · rcases h with ⟨h, -⟩ | ⟨-, h⟩ <;> cases h
  · rcases h with ⟨h, -⟩ | ⟨-, h⟩ <;> cases h
  · unfold CallAgent.Covers
    decide
  · rintro (h | h) <;> cases h

/-- The challenged call is answered at once: its BYE has the number of the second INVITE again. -/
theorem bye_repeats_challenged_invite : ¬(Call.machine (client firstInvite)).Throughout (fun c => c.agent.Ordered)
    (Call.machine (client firstInvite)).init [response 401 1, response 200 2, .bye] := by
  intro h
  have hlast := h.last
  revert hlast
  unfold CallAgent.Ordered
  decide

end Vocal.Ua
