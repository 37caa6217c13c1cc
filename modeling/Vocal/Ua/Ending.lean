import Vocal.Ua.CallAgent

/-!
# How calls end

`ControlState::end` and the functions of the controller that go through it. Where the call is up or the controller
has been told to give it up, they take the agent out of the tables, and the two loops around `end` never use up their
bound.
-/

namespace Vocal.Ua

open AgentM UaBase Vocal.Comp CallAgent

namespace CallAgent

/-- The agent after `StateTearDown::end`. -/
def dropped (s : CallAgent) : CallAgent := { s with myState := .INIT, myActiveFlg := false }

/-- The agent after `freeMedia`. -/
def freed (s : CallAgent) : CallAgent := { s with freedMedia := true }

/-- The call is not yet up: `cancel` takes the controller to the tear-down. -/
def Pending (s : CallAgent) : Prop :=
  s.myState = .TRYING ∨ s.myState = .UAC_RINGING ∨ s.myState = .UAS_RINGING

/-- The call is up: `bye` takes the controller to the tear-down. -/
def Up (s : CallAgent) : Prop := s.myState = .IN_CALL ∨ s.myState = .HOLD

/-- The call is up for the user agent. -/
def InDialog (s : CallAgent) : Prop := s.agent.myState = .INCALL ∨ s.agent.myState = .HOLD

instance (s : CallAgent) : Decidable s.Pending := inferInstanceAs (Decidable (_ ∨ _))

instance (s : CallAgent) : Decidable s.Up := inferInstanceAs (Decidable (_ ∨ _))

instance (s : CallAgent) : Decidable s.InDialog := inferInstanceAs (Decidable (_ ∨ _))

end CallAgent

variable {s : CallAgent} {n k : Nat}

theorem ends_getAgent {α : Type} {Q : α → CallAgent → Prop} {E : Exit → Prop} {f : UaBase → AgentM α}
    (h : Ends Q E (f s.agent) s) : Ends Q E (getAgent >>= f) s := h

section Steps

variable {c : Call} {op : Op}

/-- A call that can be reached after a step could be reached before. -/
theorem live_of_step (h : (c.step op).Live) : c.Live := by
  by_contra hlive
  rw [Call.step, if_neg hlive] at h
  exact hlive h

theorem step_of_ends {P : CallAgent → Prop} (hlive : c.Live) (hexit : (c.step op).exit = none)
    (h : Ends (fun _ => P) (fun _ => True) op.act c.agent) : P (c.step op).agent := by
  rw [Call.step, if_pos hlive] at hexit ⊢
  exact h.after hexit

end Steps

/-! ## Exact results -/

theorem run_catch_ok {m : AgentM Unit} {t : CallAgent} (h : m s = .ok () t) : catchInvalidState m s = .ok () t :=
  run_tryCatch_ok h _

/-- A failure that is caught leaves the state it has reached. -/
theorem after_catch (m : AgentM Unit) (s : CallAgent) : after (catchInvalidState m) s = after m s := by
  refine after_tryCatch_of (P := fun t => t = after m s) rfl fun e t _ ht => ?_
  by_cases he : e = .invalidState <;> simpa [after, he] using ht

theorem run_myInvokee (hactive : s.myActiveFlg = true) : myInvokee s = .ok s.agent s := by
  simp [myInvokee, hactive, assertOr]

theorem run_myInvokee_inactive (hactive : s.myActiveFlg = false) : myInvokee s = .error .droppedInvokee s := by
  simp [myInvokee, hactive, assertOr]

theorem of_run_myInvokee {a : UaBase} {t : CallAgent} (h : myInvokee s = .ok a t) :
    s.myActiveFlg = true ∧ a = s.agent ∧ t = s := by
  cases hactive : s.myActiveFlg with
  | false =>
    rw [run_myInvokee_inactive hactive] at h
    cases h
  | true =>
    rw [run_myInvokee hactive] at h
    cases h
    exact ⟨rfl, rfl, rfl⟩

theorem of_run_assertOr {e : Exit} {b : Bool} {t : CallAgent} (h : assertOr e b s = .ok () t) : t = s := by
  cases b with
  | false => cases h
  | true =>
    cases h
    rfl

theorem after_assertOr (e : Exit) (b : Bool) (s : CallAgent) : after (assertOr e b) s = s := by
  cases b <;> rfl

/-- A client hangs up with the next number of its local counter, a server without counting. -/
theorem run_sendBye (s : CallAgent) :
    sendBye s =
      match s.myRole with
      | .A_CLIENT =>
        if s.agent.myResponseMsg.isSome then
          .ok true { s with
            agent := { s.agent with myLocalCSeq := nextCSeq s.agent.myLocalCSeq }
            sent := s.sent ++ [.request .BYE (nextCSeq s.agent.myLocalCSeq)] }
        else .error .abort s
      | .A_SERVER =>
        if s.agent.myAckMsg.isSome then
          .ok true { s with sent := s.sent ++ [.request .BYE (nextCSeq s.agent.myLocalCSeq)] }
        else .ok false s := by
  cases hrole : s.myRole with
  | A_CLIENT =>
    cases hresponse : s.agent.myResponseMsg <;> simp [sendBye, hrole, hresponse, assertOr, modifyAgent, send]
  | A_SERVER => cases hack : s.agent.myAckMsg <;> simp [sendBye, hrole, hack, send]

theorem run_cancel_pending (h : s.Pending) : ControlState.cancel s = .ok () { s with myState := .TEAR_DOWN } := by
  rcases h with h | h | h <;> simp [ControlState.cancel, h, ControlState.changeState]

theorem run_cancel_of_not_pending (h : ¬s.Pending) : ControlState.cancel s = .ok () s := by
  unfold CallAgent.Pending at h
  cases hs : s.myState <;> simp_all [ControlState.cancel]

theorem run_inCall (s : CallAgent) : ∃ c, ControlState.inCall s = .ok () { s with myState := c } := by
  cases h : s.myState with
  | TRYING | UAC_RINGING | UAS_RINGING | HOLD =>
    exact ⟨.IN_CALL, by simp [ControlState.inCall, h, ControlState.changeState]⟩
  | INIT | IN_CALL | TEAR_DOWN =>
    have hrun : ControlState.inCall s = .ok () s := by simp [ControlState.inCall, h]
    exact ⟨s.myState, hrun⟩

theorem run_inHold (s : CallAgent) : ∃ c, ControlState.inHold s = .ok () { s with myState := c } := by
  cases h : s.myState with
  | IN_CALL => exact ⟨.HOLD, by simp [ControlState.inHold, h, ControlState.changeState]⟩
  | INIT | TRYING | UAC_RINGING | UAS_RINGING | HOLD | TEAR_DOWN =>
    have hrun : ControlState.inHold s = .ok () s := by simp [ControlState.inHold, h]
    exact ⟨s.myState, hrun⟩

theorem run_bye_up (h : s.Up) : ControlState.bye s = .ok () { s with myState := .TEAR_DOWN } := by
  rcases h with h | h <;> simp [ControlState.bye, h, ControlState.changeState]

theorem run_bye_of_not_up (h : ¬s.Up) : ControlState.bye s = .ok () s := by
  unfold CallAgent.Up at h
  cases hs : s.myState <;> simp_all [ControlState.bye]

theorem run_endAt_init (h : s.myState = .INIT) : ControlState.endAt (n + 1) s = .ok 0 s := by
  simp [ControlState.endAt, h]

theorem run_endAt_tearDown (h : s.myState = .TEAR_DOWN) : ControlState.endAt (n + 1) s = .ok 0 s.dropped := by
  simp [ControlState.endAt, h, ControlState.changeState, setDeleted, CallAgent.dropped]

theorem run_endLoop_ok {endC : AgentM Int} {rv : Int} {t : CallAgent} (h : endC s = .ok rv t) (hrv : 0 ≤ rv) :
    endLoop endC (k + 1) s = .ok () t := by
  rw [endLoop, run_bind_ok h]
  have hnot : ¬rv < 0 := by omega
  simp [hnot]

/-- An `end` one level down that is through with what has ended or is torn down. -/
structure Settled (endC : AgentM Int) : Prop where
  init : ∀ {s : CallAgent}, s.myState = .INIT → endC s = .ok 0 s
  tearDown : ∀ {s : CallAgent}, s.myState = .TEAR_DOWN → endC s = .ok 0 s.dropped

theorem settled_endAt (n : Nat) : Settled (ControlState.endAt (n + 1)) := ⟨run_endAt_init, run_endAt_tearDown⟩

theorem run_endCall_inactive {endC : AgentM Int} (hactive : s.myActiveFlg = false) : endCall endC s = .ok () s := by
  simp [endCall, hactive]

namespace Settled

variable {endC : AgentM Int}

theorem run_endLoop_tearDown (hend : Settled endC) (h : s.myState = .TEAR_DOWN) :
    endLoop endC (k + 1) s = .ok () s.dropped :=
  run_endLoop_ok (hend.tearDown h) (Int.le_refl 0)

theorem run_endCall_up (hend : Settled endC) (hactive : s.myActiveFlg = true) (h : s.Up) :
    endCall endC s = .ok () s.freed.dropped := by
  have hbye : ControlState.bye s.freed = .ok () { s.freed with myState := .TEAR_DOWN } := run_bye_up h
  have hbody : (do freeMedia; ControlState.bye; endLoop endC turns : AgentM Unit) s = .ok () s.freed.dropped := by
    rw [freeMedia, run_modify_bind]
    exact (run_bind_ok hbye).trans (hend.run_endLoop_tearDown rfl)
  simp only [endCall, run_get_bind, hactive, if_true]
  exact run_catch_ok hbody

theorem run_callFailed_pending (hend : Settled endC) (h : s.Pending) : callFailed endC s = .ok () s.dropped :=
  (run_bind_ok (run_cancel_pending h)).trans (hend.run_endLoop_tearDown rfl)

theorem run_doCancel_pending (hend : Settled endC) (h : s.Pending) : doCancel endC s = .ok () s.freed.dropped := by
  have hcancel : ControlState.cancel s.freed = .ok () { s.freed with myState := .TEAR_DOWN } :=
    run_cancel_pending h
  refine run_catch_ok ?_
  rw [freeMedia, run_modify_bind]
  exact (run_bind_ok hcancel).trans (hend.run_endLoop_tearDown rfl)

end Settled

theorem run_endLoop_tearDown (h : s.myState = .TEAR_DOWN) :
    endLoop (ControlState.endAt (n + 1)) (k + 1) s = .ok () s.dropped :=
  (settled_endAt n).run_endLoop_tearDown h

theorem run_endCall_up (hactive : s.myActiveFlg = true) (h : s.Up) :
    endCall (ControlState.endAt (n + 1)) s = .ok () s.freed.dropped :=
  (settled_endAt n).run_endCall_up hactive h

theorem run_callFailed_pending (h : s.Pending) :
    callFailed (ControlState.endAt (n + 1)) s = .ok () s.dropped :=
  (settled_endAt n).run_callFailed_pending h

theorem run_doCancel_pending (h : s.Pending) :
    doCancel (ControlState.endAt (n + 1)) s = .ok () s.freed.dropped :=
  (settled_endAt n).run_doCancel_pending h

theorem run_doBye_hold (hactive : s.myActiveFlg = true) (h : s.myState = .HOLD) :
    doBye (ControlState.endAt (n + 1)) s = .ok () s.freed.dropped := by
  have hcan : s.myState.canBye = false := by rw [h, ControlState.canBye]
  simp only [doBye, run_get_bind, hcan, Bool.false_eq_true, if_false]
  exact run_endCall_up hactive (Or.inr h)

theorem run_endAt_hold (hactive : s.myActiveFlg = true) (h : s.myState = .HOLD) :
    ControlState.endAt (n + 2) s = .ok 0 s.freed.dropped := by
  simp only [ControlState.endAt, run_get_bind, h]
  exact run_bind_ok (run_doBye_hold hactive h)

theorem run_callFailed_hold (hactive : s.myActiveFlg = true) (h : s.myState = .HOLD) :
    callFailed (ControlState.endAt (n + 2)) s = .ok () s.freed.dropped := by
  have hpending : ¬s.Pending := by simp [CallAgent.Pending, h]
  exact (run_bind_ok (run_cancel_of_not_pending hpending)).trans
    (run_endLoop_ok (run_endAt_hold hactive h) (Int.le_refl 0))

end Vocal.Ua
