import Vocal.Ua.Ending

/-!
# Ending a call, whatever the sends report

The results of this module hold for every `end` one level down that is through with what has ended or is torn down
(`Settled`), and for every report of the CANCEL that `ControlState::end` sends. A refusal always leads to the tear-down,
where `end` succeeds: so the loops take at most two turns, and the calls go at most two deep.
-/

namespace Vocal.Ua

open AgentM UaBase Vocal.Comp CallAgent

/-- Not a loop or a recursion that goes on for ever. -/
def Exit.Finite (e : Exit) : Prop := e ≠ .outOfFuel ∧ e ≠ .hang

instance (e : Exit) : Decidable e.Finite := inferInstanceAs (Decidable (_ ∧ _))

/-- `ControlState::end` of the current state; `report` is what the send of a CANCEL reports in place of the answer of the
user agent, and `endC` the `end` that it goes through. -/
def ControlState.endReporting (report : CallAgent → Int → Int) (endC : AgentM Int) : AgentM Int := do
  match (← get).myState with
  | .INIT => return 0
  | .TEAR_DOWN =>
    ControlState.changeState .INIT
    setDeleted
    return 0
  | .IN_CALL | .HOLD =>
    doBye endC
    return 0
  | .TRYING | .UAC_RINGING =>
    let answer ← sendCancel
    let rv := report (← get) answer
    if rv < 0 then ControlState.changeState .TEAR_DOWN
    return rv
  | .UAS_RINGING =>
    let rv ← sendBusy endC
    if rv < 0 then ControlState.changeState .TEAR_DOWN
    return rv

/-- `ControlState::end` with such reports, at most `n` calls deep. -/
def ControlState.endWith (report : CallAgent → Int → Int) : Nat → AgentM Int
  | 0 => throw .outOfFuel
  | n + 1 => ControlState.endReporting report (endWith report n)

theorem endWith_answer (n : Nat) : ControlState.endWith (fun _ answer => answer) n = ControlState.endAt n := by
  induction n with
  | zero => rfl
  | succ n ih =>
    funext s
    rw [ControlState.endWith, ih]
    cases h : s.myState <;> simp only [ControlState.endReporting, ControlState.endAt, run_get_bind, h] <;> rfl

variable {s : CallAgent} {report : CallAgent → Int → Int} {endC : AgentM Int}

theorem settled_endReporting (report : CallAgent → Int → Int) (endC : AgentM Int) :
    Settled (ControlState.endReporting report endC) where
  init h := by simp only [ControlState.endReporting, run_get_bind, h, run_pure]
  tearDown h := by
    simp only [ControlState.endReporting, run_get_bind, h]
    rfl

theorem settled_endWith (report : CallAgent → Int → Int) (n : Nat) : Settled (ControlState.endWith report (n + 1)) :=
  settled_endReporting report _

/-- The computation ends. -/
def Terminates {α : Type} (m : AgentM α) (s : CallAgent) : Prop := Ends (fun _ _ => True) Exit.Finite m s

namespace Settled

/-- In a call that is up `doBye` goes no deeper than the tear-down. -/
theorem ends_doBye_up (hend : Settled endC) (h : s.Up) : Terminates (doBye endC) s := by
  have hcall {t : CallAgent} (ht : t.Up) : Terminates (endCall endC) t := by
    cases hactive : t.myActiveFlg with
    | false => exact Ends.of_ok (run_endCall_inactive hactive) trivial
    | true => exact Ends.of_ok (hend.run_endCall_up hactive ht) trivial
  have hbye : Ends (fun _ => CallAgent.Up) Exit.Finite sendBye s := by
    rw [Ends, run_sendBye]
    cases s.myRole with
    | A_CLIENT =>
      cases s.agent.myResponseMsg with
      | none => exact (by decide : Exit.abort.Finite)
      | some response => exact h
    | A_SERVER => cases s.agent.myAckMsg <;> exact h
  refine Ends.get_bind (Ends.ite (fun _ => ?_) fun _ => hcall h)
  cases hactive : s.myActiveFlg with
  | false => exact Ends.of_error (run_bind_error (run_myInvokee_inactive hactive)) (by decide)
  | true =>
    refine Ends.bind (Q := fun _ t => t = s) (Ends.of_ok (run_myInvokee hactive) rfl) fun _ t ht => ?_
    rw [ht]
    exact hbye.bind fun _ u hu => hcall hu

theorem ends_busy (hend : Settled endC) (h : s.myState = .UAS_RINGING) :
    Ends (fun _ t => t.myState = .UAS_RINGING ∨ t.myState = .INIT) Exit.Finite (sendStatus endC 486) s := by
  have hfinal {t : CallAgent} (ht : t.myState = .UAS_RINGING) :
      Ends (fun _ u => u.myState = .UAS_RINGING) Exit.Finite (sendFinal 486) t :=
    Ends.of_ok rfl ht
  refine ends_getAgent ?_
  cases hua : s.agent.myState with
  | IDLE | C_TRYING | REDIRECT | FAILURE | END => exact Ends.of_ok rfl (Or.inl h)
  | INCALL | HOLD => exact Ends.of_ok rfl (Or.inl h)
  | S_TRYING => exact Ends.of_ok rfl (Or.inl h)
  | RINGING =>
    refine ends_getAgent (Ends.ite (fun hlt => by omega) fun _ => Ends.ite (fun hno => by omega) fun _ =>
      Ends.ite (fun _ => ?_) fun hno => by omega)
    refine Ends.bind (Q := fun _ t => t = s) (Ends.ite (fun _ => Ends.of_ok rfl rfl) fun _ =>
      Ends.of_error rfl (by decide)) fun _ t ht => ?_
    refine (hfinal (ht ▸ h)).bind fun _ u hu => ?_
    refine Ends.bind (Q := fun _ v => v.myState = .INIT)
      (Ends.of_ok (hend.run_callFailed_pending (Or.inr (Or.inr hu))) rfl) fun _ v hv => ?_
    exact Ends.of_ok rfl (Or.inr hv)

theorem ends_busyLoop (hend : Settled endC) (k : Nat) (h : s.myState = .INIT ∨ s.myState = .TEAR_DOWN) :
    Terminates (busyLoop endC (k + 1)) s := by
  refine Ends.get_bind (Ends.ite (fun hr => ?_) fun _ => ?_)
  · rcases h with h | h
    · rw [h] at hr
      cases hr
    · rw [h] at hr
      cases hr
  · have hzero : Ends (fun rv _ => rv = 0) Exit.Finite endC s := by
      rcases h with h | h
      · exact Ends.of_ok (hend.init h) rfl
      · exact Ends.of_ok (hend.tearDown h) rfl
    refine hzero.bind fun rv u hrv => ?_
    rw [hrv]
    exact Ends.of_ok rfl trivial

theorem ends_sendBusy_ringing (hend : Settled endC) (h : s.myState = .UAS_RINGING) : Terminates (sendBusy endC) s := by
  cases hactive : s.myActiveFlg with
  | false => exact Ends.of_error (run_bind_error (run_myInvokee_inactive hactive)) (by decide)
  | true =>
    refine Ends.bind (Q := fun _ t => t = s) (Ends.of_ok (run_myInvokee hactive) rfl) fun _ t ht => ?_
    rw [ht]
    refine (hend.ends_busy h).bind fun _ u hu => ?_
    rcases hu with hu | hu
    · have hcancel := run_cancel_pending (Or.inr (Or.inr hu))
      exact Ends.bind (Q := fun _ v => v.myState = .TEAR_DOWN) (Ends.of_ok hcancel rfl) fun _ v hv =>
        hend.ends_busyLoop 1 (Or.inr hv)
    · have hcancel := run_cancel_of_not_pending (s := u) (by simp [CallAgent.Pending, hu])
      exact Ends.bind (Q := fun _ v => v.myState = .INIT) (Ends.of_ok hcancel hu) fun _ v hv =>
        hend.ends_busyLoop 1 (Or.inl hv)

end Settled

theorem terminates_sendCancel (s : CallAgent) : Terminates sendCancel s := by
  cases hactive : s.myActiveFlg with
  | false => exact Ends.of_error (run_bind_error (run_myInvokee_inactive hactive)) (by decide)
  | true =>
    refine Ends.bind (Q := fun _ t => t = s) (Ends.of_ok (run_myInvokee hactive) rfl) fun _ t ht => ?_
    refine ends_getAgent ?_
    cases t.agent.myState with
    | IDLE => exact Ends.get_bind (Ends.ite (fun h => absurd h.2 (by rintro ⟨⟩)) fun _ => Ends.of_ok rfl trivial)
    | C_TRYING | RINGING | REDIRECT | INCALL | HOLD | S_TRYING | FAILURE | END => exact Ends.of_ok rfl trivial

theorem endReporting_settles (hend : Settled endC) (report : CallAgent → Int → Int) (s : CallAgent) :
    Ends (fun rv t => rv < 0 → t.myState = .TEAR_DOWN) Exit.Finite (ControlState.endReporting report endC) s := by
  have hgive {t : CallAgent} (rv : Int) : Ends (fun rv t => rv < 0 → t.myState = .TEAR_DOWN) Exit.Finite
      (do if rv < 0 then ControlState.changeState .TEAR_DOWN
          return rv : AgentM Int) t := by
    by_cases hrv : rv < 0
    · simp only [hrv, if_true]
      exact Ends.of_ok rfl fun _ => rfl
    · simp only [hrv, if_false]
      exact Ends.of_ok rfl fun h => (hrv h).elim
  refine Ends.get_bind ?_
  cases hs : s.myState with
  | INIT => exact Ends.of_ok rfl fun h => by omega
  | TEAR_DOWN => exact Ends.of_ok rfl fun h => by omega
  | IN_CALL => exact (hend.ends_doBye_up (Or.inl hs)).bind fun _ t _ => Ends.of_ok rfl fun h => by omega
  | HOLD => exact (hend.ends_doBye_up (Or.inr hs)).bind fun _ t _ => Ends.of_ok rfl fun h => by omega
  | TRYING | UAC_RINGING => exact (terminates_sendCancel s).bind fun answer t _ => Ends.get_bind (hgive _)
  | UAS_RINGING => exact (hend.ends_sendBusy_ringing hs).bind fun rv t _ => hgive rv

/-! ## The functions that end a call -/

/-- An `end` that always comes to its end, and in the tear-down where it refuses. -/
structure Settles (endC : AgentM Int) : Prop extends Settled endC where
  refusal : ∀ s, Ends (fun rv t => rv < 0 → t.myState = .TEAR_DOWN) Exit.Finite endC s

theorem settles_endWith (report : CallAgent → Int → Int) (n : Nat) : Settles (ControlState.endWith report (n + 2)) where
  toSettled := settled_endWith report _
  refusal := endReporting_settles (settled_endWith report n) report

theorem terminates_catchInvalidState {m : AgentM Unit} (hm : Terminates m s) : Terminates (catchInvalidState m) s := by
  cases hrun : m s with
  | ok a t => exact Ends.of_ok (run_tryCatch_ok hrun _) trivial
  | error e t =>
    have he : e.Finite := by
      rw [Terminates, Ends, hrun] at hm
      exact hm
    have hcatch : catchInvalidState m s = (if e = .invalidState then pure () else throw e : AgentM Unit) t :=
      run_tryCatch_error hrun _
    by_cases hinvalid : e = .invalidState
    · exact Ends.of_ok (hcatch.trans (by rw [if_pos hinvalid, run_pure])) trivial
    · exact Ends.of_error (hcatch.trans (by rw [if_neg hinvalid, run_throw])) he

theorem terminates_cancel {α : Type} {f : Unit → AgentM α} (h : ∀ t, Terminates (f ()) t) :
    Terminates (ControlState.cancel >>= f) s := by
  by_cases hpending : s.Pending
  · exact Ends.bind (Q := fun _ _ => True) (Ends.of_ok (run_cancel_pending hpending) trivial) fun _ t _ => h t
  · exact Ends.bind (Q := fun _ _ => True) (Ends.of_ok (run_cancel_of_not_pending hpending) trivial) fun _ t _ => h t

theorem terminates_bye {α : Type} {f : Unit → AgentM α} (h : ∀ t, Terminates (f ()) t) :
    Terminates (ControlState.bye >>= f) s := by
  by_cases hup : s.Up
  · exact Ends.bind (Q := fun _ _ => True) (Ends.of_ok (run_bye_up hup) trivial) fun _ t _ => h t
  · exact Ends.bind (Q := fun _ _ => True) (Ends.of_ok (run_bye_of_not_up hup) trivial) fun _ t _ => h t

theorem terminates_sendBye (s : CallAgent) : Terminates sendBye s := by
  rw [Terminates, Ends, run_sendBye]
  cases s.myRole with
  | A_CLIENT =>
    cases s.agent.myResponseMsg with
    | none => exact (by decide : Exit.abort.Finite)
    | some response => trivial
  | A_SERVER => cases s.agent.myAckMsg <;> trivial

namespace Settles

/-- The loop around `end` takes at most two turns. -/
theorem ends_endLoop (hend : Settles endC) (s : CallAgent) : Terminates (endLoop endC turns) s :=
  (hend.refusal s).bind fun _ _ ht => Ends.ite
    (fun hrv => Ends.of_ok (hend.run_endLoop_tearDown (ht hrv)) trivial) fun _ => Ends.of_ok rfl trivial

theorem ends_callFailed (hend : Settles endC) (s : CallAgent) : Terminates (callFailed endC) s :=
  terminates_cancel hend.ends_endLoop

theorem ends_doCancel (hend : Settles endC) (s : CallAgent) : Terminates (doCancel endC) s :=
  terminates_catchInvalidState (Ends.bind (Q := fun _ _ => True) (Ends.of_ok rfl trivial) fun _ _ _ =>
    terminates_cancel hend.ends_endLoop)

theorem ends_stopCall (hend : Settles endC) (s : CallAgent) : Terminates (stopCall endC) s :=
  (hend.ends_endLoop s).bind fun _ _ _ => Ends.of_ok rfl trivial

theorem ends_endCall (hend : Settles endC) (s : CallAgent) : Terminates (endCall endC) s :=
  Ends.get_bind (Ends.ite
    (fun _ => terminates_catchInvalidState (Ends.bind (Q := fun _ _ => True) (Ends.of_ok rfl trivial) fun _ _ _ =>
      terminates_bye hend.ends_endLoop))
    fun _ => Ends.of_ok rfl trivial)

theorem ends_doBye (hend : Settles endC) (s : CallAgent) : Terminates (doBye endC) s := by
  refine Ends.get_bind (Ends.ite (fun _ => ?_) fun _ => hend.ends_endCall s)
  cases hactive : s.myActiveFlg with
  | false => exact Ends.of_error (run_bind_error (run_myInvokee_inactive hactive)) (by decide)
  | true =>
    exact Ends.bind (Q := fun _ _ => True) (Ends.of_ok (run_myInvokee hactive) trivial) fun _ t _ =>
      (terminates_sendBye t).bind fun _ u _ => hend.ends_endCall u

theorem ends_sendStatus (hend : Settles endC) (s : CallAgent) : Terminates (sendStatus endC 486) s := by
  refine ends_getAgent ?_
  cases s.agent.myState with
  | IDLE | C_TRYING | REDIRECT | FAILURE | END | INCALL | HOLD | S_TRYING => exact Ends.of_ok rfl trivial
  | RINGING =>
    refine ends_getAgent (Ends.ite (fun hlt => by omega) fun _ => Ends.ite (fun hno => by omega) fun _ =>
      Ends.ite (fun _ => ?_) fun hno => by omega)
    refine Ends.bind (Q := fun _ _ => True) (Ends.ite (fun _ => Ends.of_ok rfl trivial) fun _ =>
      Ends.of_error rfl (by decide)) fun _ t _ => ?_
    refine Ends.bind (Q := fun _ _ => True) (Ends.of_ok rfl trivial) fun _ u _ => ?_
    exact (hend.ends_callFailed u).bind fun _ v _ => Ends.of_ok rfl trivial

theorem ends_sendBusy (hend : Settles endC) (s : CallAgent) : Terminates (sendBusy endC) s := by
  have hloop (t : CallAgent) : Terminates (busyLoop endC turns) t := by
    refine Ends.get_bind (Ends.ite (fun _ => Ends.of_ok rfl trivial) fun _ => (hend.refusal t).bind fun rv u hu => ?_)
    exact Ends.ite (fun _ => Ends.of_ok rfl trivial) fun hrv => hend.ends_busyLoop 0 (Or.inr (hu (by omega)))
  cases hactive : s.myActiveFlg with
  | false => exact Ends.of_error (run_bind_error (run_myInvokee_inactive hactive)) (by decide)
  | true =>
    exact Ends.bind (Q := fun _ _ => True) (Ends.of_ok (run_myInvokee hactive) trivial) fun _ t _ =>
      (hend.ends_sendStatus t).bind fun _ u _ => terminates_cancel hloop

end Settles

/-- The functions that go through `ControlState::end`. -/
inductive Ending
  | doBye
  | endCall
  | doCancel
  | callFailed
  | stopCall
  | sendBusy
  deriving DecidableEq, Repr

def Ending.act (endC : AgentM Int) : Ending → AgentM Unit
  | .doBye => CallAgent.doBye endC
  | .endCall => CallAgent.endCall endC
  | .doCancel => CallAgent.doCancel endC
  | .callFailed => CallAgent.callFailed endC
  | .stopCall => CallAgent.stopCall endC
  | .sendBusy => do let _ ← CallAgent.sendBusy endC

/-- Ending always ends: from any state of the agent and whatever the sends report, the loops around `ControlState::end`
take at most two turns each, and the calls through it go at most two deep. -/
theorem ending_ends (report : CallAgent → Int → Int) (n : Nat) (e : Ending) (s : CallAgent) :
    Terminates (e.act (ControlState.endWith report (n + 2))) s := by
  have hend := settles_endWith report n
  cases e with
  | doBye => exact hend.ends_doBye s
  | endCall => exact hend.ends_endCall s
  | doCancel => exact hend.ends_doCancel s
  | callFailed => exact hend.ends_callFailed s
  | stopCall => exact hend.ends_stopCall s
  | sendBusy => exact (hend.ends_sendBusy s).bind fun _ _ _ => Ends.of_ok rfl trivial

end Vocal.Ua
