import Vocal.Ua.Provisional
import Vocal.Ua.Runs

/-!
# The ACKs of a client

Only the handlers of responses send an ACK, and `receivedStatus` for the 200 to an INVITE; nothing else that the agent
does adds one.
-/

namespace Vocal.Ua

open AgentM UaBase Vocal.Comp CallAgent

/-- Whether the user agent of a client sends an ACK of its own for a response other than the 200 to an INVITE. -/
def UaState.acks (u : UaState) (msg : StatusMsg) : Bool :=
  match u with
  | .C_TRYING | .RINGING | .REDIRECT => 200 < msg.statusCode && msg.statusCode != 408
  | .INCALL => 200 < msg.statusCode
  | .HOLD => 200 ≤ msg.statusCode && msg.method == .INVITE
  | .FAILURE => msg.statusCode == 487
  | .IDLE | .S_TRYING | .END => false

variable {s : CallAgent} {msg : StatusMsg}

theorem acks_after_ack {c : Prop} [Decidable c] {m : AgentM Unit} (hm : Moves (Runs True) m) (n : Nat) :
    (after (do if c then send (.request .ACK n)
               m) s).acks = s.acks + if c then 1 else 0 := by
  by_cases hc : c
  · have hafter : after (do if c then send (.request .ACK n)
                            m) s = after m { s with sent := s.sent ++ [.request .ACK n] } := by
      simp [after, hc, send]
    rw [hafter, (hm _).acks trivial, acks_send, if_pos hc]
    rfl
  · have hafter : after (do if c then send (.request .ACK n)
                            m) s = after m s := by
      simp [after, hc]
    rw [hafter, (hm _).acks trivial, if_neg hc]
    rfl

theorem acks_pending {recv m : AgentM Unit} (hfailure : 200 < msg.statusCode → recv = do ackFailure msg; m)
    (hm : Moves (Runs True) m) (hrecv : ¬200 < msg.statusCode → Moves (Runs True) recv) :
    (after recv s).acks = s.acks + if (200 < msg.statusCode && msg.statusCode != 408) = true then 1 else 0 := by
  by_cases hgt : 200 < msg.statusCode
  · have hafter : after recv s = after (do
        if msg.statusCode ≠ 408 then send (.request .ACK msg.cseq)
        m) s := by
      rw [hfailure hgt]
      by_cases h408 : msg.statusCode = 408 <;> simp [after, ackFailure, h408, send]
    rw [hafter, acks_after_ack hm]
    simp [hgt]
  · rw [(hrecv hgt s).acks trivial]
    simp [hgt]

theorem after_getAgent {α : Type} (f : UaBase → AgentM α) : after (getAgent >>= f) s = after (f s.agent) s := rfl

/-! ### The handlers of the states -/

section handlers

variable (s) (hmsg : ¬(msg.statusCode = 200 ∧ msg.method = .INVITE))
include hmsg

theorem runs_received : Moves (Runs True) (receivedStatus msg) := Runs.receivedStatus fun _ => hmsg

theorem runs_set (u : UaState) : Moves (Runs True) (do changeState u; receivedStatus msg) :=
  Runs.bind (Runs.changeState u) fun _ => runs_received hmsg

theorem runs_answer : Moves (Runs True) (do saveAnswer msg; receivedStatus msg; changeState .INCALL) :=
  Runs.bind (Runs.saveAnswer msg) fun _ => Runs.bind (runs_received hmsg) fun _ => Runs.changeState _

theorem acks_trying : (after (UacStateTrying.recvStatus msg) s).acks =
    s.acks + if UaState.C_TRYING.acks msg then 1 else 0 := by
  refine acks_pending (m :=
    if msg.statusCode = 401 ∨ msg.statusCode = 407 then receivedStatus msg
    else if msg.statusCode = 302 then
      if msg.contactList.isEmpty then do changeState .IDLE; callFailed endState
      else do changeState .REDIRECT; receivedStatus msg
    else do changeState .IDLE; receivedStatus msg) ?_ ?_ ?_
  · intro hgt
    have h200 : msg.statusCode ≠ 200 := by omega
    simp only [UacStateTrying.recvStatus, h200, if_false, hgt, if_true]
  · have hfailed := Runs.of_closes (q := True) (closes_callFailed closes_endState)
    refine Moves.ite (fun _ => runs_received hmsg) fun _ => Moves.ite (fun _ => ?_) fun _ => runs_set hmsg _
    exact Moves.ite (fun _ => Runs.bind (Runs.changeState _) fun _ => hfailed) fun _ => runs_set hmsg _
  · intro hgt
    exact Moves.ite (fun _ => runs_answer hmsg) fun _ => Moves.ite (fun h => (hgt h).elim) fun _ =>
      Moves.ite (fun _ => runs_set hmsg _) fun _ => runs_received hmsg

theorem acks_ringing : (after (UaStateRinging.recvStatus msg) s).acks =
    s.acks + if UaState.RINGING.acks msg then 1 else 0 := by
  refine acks_pending (m := do receivedStatus msg; changeState .IDLE) ?_ ?_ ?_
  · intro hgt
    have h200 : msg.statusCode ≠ 200 := by omega
    simp only [UaStateRinging.recvStatus, h200, if_false, hgt, if_true]
  · exact Runs.bind (runs_received hmsg) fun _ => Runs.changeState .IDLE
  · intro hgt
    refine Moves.ite (fun _ => ?_) fun _ => Moves.ite (fun h => (hgt h).elim) fun _ => Runs.pure ()
    exact Runs.bind (Runs.saveAnswer msg) fun _ => Runs.bind (Runs.syncResponse msg) fun _ =>
      Runs.bind (Runs.modifyAgent _) fun _ => Runs.bind (runs_received hmsg) fun _ => Runs.changeState _

theorem acks_redirect : (after (UaStateRedirect.recvStatus msg) s).acks =
    s.acks + if UaState.REDIRECT.acks msg then 1 else 0 := by
  refine acks_pending (m := do changeState .IDLE; receivedStatus msg) ?_ (runs_set hmsg .IDLE) ?_
  · intro hgt
    have h200 : msg.statusCode ≠ 200 := by omega
    simp only [UaStateRedirect.recvStatus, h200, if_false, hgt, if_true]
  · intro hgt
    exact Moves.ite (fun _ => runs_answer hmsg) fun _ => Moves.ite (fun h => (hgt h).elim) fun _ =>
      Moves.ite (fun _ => runs_set hmsg _) fun _ => runs_received hmsg

theorem acks_inCall : (after (UaStateInCall.recvStatus msg) s).acks =
    s.acks + if UaState.INCALL.acks msg then 1 else 0 := by
  have hafter : after (UaStateInCall.recvStatus msg) s = after (do
      if 200 < msg.statusCode then send (.request .ACK msg.cseq)
      receivedStatus msg) s := by
    simp [after, UaStateInCall.recvStatus, hmsg]
  rw [hafter, acks_after_ack (runs_received hmsg)]
  simp [UaState.acks]

theorem acks_inHold : (after (UaStateInHold.recvStatus msg) s).acks =
    s.acks + if UaState.HOLD.acks msg then 1 else 0 := by
  have hafter : after (UaStateInHold.recvStatus msg) s = after (do
      if 200 ≤ msg.statusCode ∧ msg.method = .INVITE then send (.request .ACK msg.cseq)
      receivedStatus msg) s := by
    simp [after, UaStateInHold.recvStatus, hmsg]
  rw [hafter, acks_after_ack (runs_received hmsg)]
  simp [UaState.acks]

theorem acks_failure (hrole : s.myRole = .A_CLIENT) : (after (UaStateFailure.recvStatus msg) s).acks =
    s.acks + if UaState.FAILURE.acks msg then 1 else 0 := by
  by_cases hgt : 200 < msg.statusCode
  · have hrest : Moves (Runs True) (do receivedStatus msg; callFailed endState; changeState .IDLE) :=
      Runs.bind (runs_received hmsg) fun _ => Runs.bind (Runs.of_closes (closes_callFailed closes_endState)) fun _ =>
        Runs.changeState .IDLE
    have hafter : after (UaStateFailure.recvStatus msg) s = after (do
        if msg.statusCode = 487 then send (.request .ACK msg.cseq)
        receivedStatus msg
        callFailed endState
        changeState .IDLE) s := by
      simp [after, UaStateFailure.recvStatus, assertOr, hrole, hgt]
    rw [hafter, acks_after_ack hrest]
    simp [UaState.acks]
  · have hafter : after (UaStateFailure.recvStatus msg) s = s := by
      simp [after, UaStateFailure.recvStatus, assertOr, hrole, hgt]
    have h487 : msg.statusCode ≠ 487 := by omega
    simp [hafter, UaState.acks, h487]

theorem acks_end : (after (UaStateEnd.recvStatus msg) s).acks = s.acks :=
  (runs_set hmsg .IDLE s).acks trivial

end handlers

theorem acks_recvStatus (hrole : s.myRole = .A_CLIENT) (hmsg : ¬(msg.statusCode = 200 ∧ msg.method = .INVITE)) :
    (after (recvStatus msg) s).acks = s.acks + if s.agent.myState.acks msg then 1 else 0 := by
  rw [recvStatus, after_getAgent]
  cases hua : s.agent.myState with
  | IDLE | S_TRYING => rfl
  | C_TRYING => exact acks_trying s hmsg
  | RINGING => exact acks_ringing s hmsg
  | REDIRECT => exact acks_redirect s hmsg
  | INCALL => exact acks_inCall s hmsg
  | HOLD => exact acks_inHold s hmsg
  | FAILURE => exact acks_failure s hmsg hrole
  | END => exact acks_end s hmsg

/-- The states in which a failure of an INVITE has to get its ACK. -/
def UaState.awaitsFinal : UaState → Bool
  | .C_TRYING | .RINGING | .REDIRECT | .INCALL | .HOLD | .FAILURE => true
  | .IDLE | .S_TRYING | .END => false

/-- The discipline at one step: an ACK only for a final response to an INVITE, and exactly one for each that is above
200, unless it is the timeout that the stack has made up. -/
def AckRight (c : Call) : Op → Prop
  | .status msg generated =>
    (¬(200 ≤ msg.statusCode ∧ msg.method = .INVITE) →
      (c.step (.status msg generated)).agent.acks = c.agent.acks) ∧
    (200 < msg.statusCode → msg.method = .INVITE → ¬(generated = true ∧ msg.statusCode = 408) →
      c.agent.agent.myState.awaitsFinal = true →
        (c.step (.status msg generated)).agent.acks = c.agent.acks + 1)
  | op => (c.step op).agent.acks = c.agent.acks

/-- The responses that each state treats as it should. -/
def AckCondition (c : Call) : Op → Prop
  | .status msg generated =>
    match c.agent.agent.myState with
    | .C_TRYING | .RINGING | .REDIRECT =>
      if msg.method = .INVITE then msg.statusCode = 408 → generated = true
      else 200 < msg.statusCode → msg.statusCode = 408
    | .INCALL => 200 < msg.statusCode → msg.method = .INVITE
    | .FAILURE =>
      if msg.method = .INVITE then
        200 < msg.statusCode → msg.statusCode = 487 ∨ generated = true ∧ msg.statusCode = 408
      else msg.statusCode ≠ 487
    | .IDLE | .S_TRYING | .HOLD | .END => True
  | _ => True

theorem ackRight_iff {c : Call} (hlive : c.Live) (hrole : c.agent.myRole = .A_CLIENT) (op : Op) :
    AckRight c op ↔ AckCondition c op := by
  have hnext : (c.step op).agent = after op.act c.agent := by simp only [Call.step, if_pos hlive]
  cases op with
  | status msg generated =>
    simp only [AckRight, hnext, AckCondition, Op.act]
    by_cases hmsg : msg.statusCode = 200 ∧ msg.method = .INVITE
    · cases hua : c.agent.agent.myState <;> simp [hmsg.1, hmsg.2]
    · rw [acks_recvStatus hrole hmsg]
      by_cases hmethod : msg.method = .INVITE
      · have h200 : msg.statusCode ≠ 200 := fun h => hmsg ⟨h, hmethod⟩
        cases hua : c.agent.agent.myState <;> simp [UaState.acks, UaState.awaitsFinal, hmethod] <;> grind
      · cases hua : c.agent.agent.myState <;> simp [UaState.acks, hmethod]
  | _ =>
    simp only [AckRight, AckCondition, hnext, iff_true]
    exact (Runs.act (by simp) c.agent).acks trivial

/-- Along every run a client keeps the discipline exactly where each response is one that its state treats as it
should. -/
theorem ack_discipline_iff (start : CallAgent) (ops : List Op) :
    (Call.machine start).Along (fun c op => c.Live → c.agent.myRole = .A_CLIENT → AckRight c op)
        (Call.machine start).init ops ↔
      (Call.machine start).Along (fun c op => c.Live → c.agent.myRole = .A_CLIENT → AckCondition c op)
        (Call.machine start).init ops :=
  Machine.along_congr
    (fun _ op => forall_congr' fun hlive => forall_congr' fun hrole => ackRight_iff hlive hrole op) _ ops

/-- After a CANCEL the INVITE fails with another code than 487: no ACK. -/
theorem busy_after_cancel_not_acked : ¬(Call.machine (client firstInvite)).Along
    (fun c op => c.Live → c.agent.myRole = .A_CLIENT → AckRight c op) (Call.machine (client firstInvite)).init
    [.stop, response 486 1] := by
  intro h
  have hlast := h.2.1 (by decide) (by decide)
  have hack := hlast.2 (by decide) (by decide) (by decide) (by decide)
  revert hack
  decide

end Vocal.Ua
