import Vocal.Ua.Ending

/-!
# What the controller can do on its own

Two relations between the agent before and after a part of the controller has run, whether it ends early or not.
`Acts` holds for all that the controller does in answer to the peer; `Closes`, which says more, for the functions that
end a call. Each is shown once for each function, and the properties of whole runs follow from their fields.
-/

namespace Vocal.Ua

open AgentM UaBase Vocal.Comp CallAgent

/-- The greatest number that `SipCSeq` counts to. -/
def maxCSeq : Nat := 0x7fffffff

/-- The number of an INVITE or a BYE. -/
def Sent.number? : Sent → Option Nat
  | .request .INVITE n => some n
  | .request .BYE n => some n
  | _ => none

def Sent.isAck : Sent → Bool
  | .request .ACK _ => true
  | _ => false

namespace CallAgent

/-- The numbers of the INVITEs and BYEs sent, in their order. -/
def numbers (s : CallAgent) : List Nat := s.sent.filterMap Sent.number?

def acks (s : CallAgent) : Nat := s.sent.countP Sent.isAck

/-- Each number below the greatest is followed by greater ones only. -/
def Ordered (s : CallAgent) : Prop := s.numbers.Pairwise fun a b => a < maxCSeq → a < b

/-- The counter `c` is not behind the numbers sent so far. -/
def Covers (s : CallAgent) (c : Nat) : Prop := ∀ n ∈ s.numbers, n < maxCSeq → n ≤ c

/-- The local counter covers the numbers, and these are in order. -/
def InStep (s : CallAgent) : Prop := s.Ordered ∧ s.Covers s.agent.myLocalCSeq

end CallAgent

theorem nextCSeq_gt {a c : Nat} (ha : a < maxCSeq) (h : a ≤ c) : a < nextCSeq c := by
  unfold nextCSeq maxCSeq at *
  split <;> omega

theorem ordered_concat {s t : CallAgent} {c : Nat} (hnum : t.numbers = s.numbers ++ [nextCSeq c])
    (hs : s.Ordered) (hc : s.Covers c) : t.Ordered ∧ t.Covers (nextCSeq c) := by
  constructor
  · unfold CallAgent.Ordered
    rw [hnum, List.pairwise_append]
    refine ⟨hs, List.pairwise_singleton _ _, ?_⟩
    intro a ha b hb hlt
    rw [List.mem_singleton.mp hb]
    exact nextCSeq_gt hlt (hc a ha hlt)
  · intro n hn hlt
    rw [hnum, List.mem_append, List.mem_singleton] at hn
    rcases hn with hn | rfl
    · exact Nat.le_of_lt (nextCSeq_gt hlt (hc n hn hlt))
    · exact Nat.le_refl _

/-- What the controller can do. -/
structure Acts (s t : CallAgent) : Prop where
  role : t.myRole = s.myRole
  active : t.myActiveFlg = true → s.myActiveFlg = true
  /-- The controller does not start again. -/
  trying : t.myState = .TRYING → s.myState = .TRYING
  acks : t.acks = s.acks
  /-- The user agent changes its state only where it sends a CANCEL or a refusal. -/
  ua : t.agent.myState = s.agent.myState ∨ t.agent.myState = .FAILURE ∨
    t.agent.myState = .END ∧ (s.agent.myState = .INCALL ∨ s.agent.myState = .HOLD)
  counts : s.myRole = .A_CLIENT → s.InStep → t.InStep

/-- What the functions that end a call can do. -/
structure Closes (s t : CallAgent) : Prop extends Acts s t where
  control : t.myState = s.myState ∨ t.myState = .TEAR_DOWN ∨ t.myState = .INIT
  /-- Only a call that is up ends with a BYE. -/
  silent : s.myState ≠ .IN_CALL → t.numbers = s.numbers ∧ t.agent.myLocalCSeq = s.agent.myLocalCSeq
  request : t.agent.myRequestMsg = s.agent.myRequestMsg
  response : s.myState ≠ .UAS_RINGING → t.agent.myResponseMsg = s.agent.myResponseMsg

theorem Acts.refl (s : CallAgent) : Acts s s :=
  ⟨rfl, id, id, rfl, Or.inl rfl, fun _ h => h⟩

theorem Acts.trans {s t u : CallAgent} (h : Acts s t) (h' : Acts t u) : Acts s u where
  role := h'.role.trans h.role
  active := h.active ∘ h'.active
  trying := h.trying ∘ h'.trying
  acks := h'.acks.trans h.acks
  ua := by
    rcases h'.ua with hu | hu | ⟨hu, ht⟩
    · rw [hu]
      exact h.ua
    · exact Or.inr (Or.inl hu)
    · refine Or.inr (Or.inr ⟨hu, ?_⟩)
      rcases h.ua with hs | hs | ⟨hs, _⟩
      · rwa [← hs]
      · rw [hs] at ht
        rcases ht with ht | ht <;> cases ht
      · rw [hs] at ht
        rcases ht with ht | ht <;> cases ht
  counts hrole hs := h'.counts (h.role.trans hrole) (h.counts hrole hs)

theorem Closes.refl (s : CallAgent) : Closes s s :=
  ⟨Acts.refl s, Or.inl rfl, fun _ => ⟨rfl, rfl⟩, rfl, fun _ => rfl⟩

theorem Closes.ne_of_ne {s t : CallAgent} (h : Closes s t) {c : ControlState} (hs : s.myState ≠ c)
    (htear : c ≠ .TEAR_DOWN) (hinit : c ≠ .INIT) : t.myState ≠ c := by
  rcases h.control with ht | ht | ht <;> rw [ht]
  · exact hs
  · exact htear.symm
  · exact hinit.symm

theorem Closes.trans {s t u : CallAgent} (h : Closes s t) (h' : Closes t u) : Closes s u where
  toActs := h.toActs.trans h'.toActs
  control := by
    rcases h'.control with hu | hu
    · rw [hu]
      exact h.control
    · exact Or.inr hu
  silent hs := by
    have ht := h.ne_of_ne hs (by decide) (by decide)
    exact ⟨(h'.silent ht).1.trans (h.silent hs).1, (h'.silent ht).2.trans (h.silent hs).2⟩
  request := h'.request.trans h.request
  response hs := by
    have ht := h.ne_of_ne hs (by decide) (by decide)
    exact (h'.response ht).trans (h.response hs)

/-! ## Elementary changes -/

theorem InStep.congr {s t : CallAgent} (hnum : t.numbers = s.numbers)
    (hlocal : t.agent.myLocalCSeq = s.agent.myLocalCSeq) (h : s.InStep) : t.InStep := by
  unfold CallAgent.InStep CallAgent.Ordered CallAgent.Covers at *
  rwa [hnum, hlocal]

theorem numbers_send (s : CallAgent) (m : Sent) :
    ({ s with sent := s.sent ++ [m] } : CallAgent).numbers = s.numbers ++ m.number?.toList := by
  cases h : m.number? <;> simp [CallAgent.numbers, List.filterMap_append, h]

theorem acks_send (s : CallAgent) (m : Sent) :
    ({ s with sent := s.sent ++ [m] } : CallAgent).acks = s.acks + if m.isAck then 1 else 0 := by
  simp [CallAgent.acks, List.countP_append, List.countP_singleton]

theorem Closes.quiet {s t : CallAgent} (hnum : t.numbers = s.numbers) (hacks : t.acks = s.acks)
    (hlocal : t.agent.myLocalCSeq = s.agent.myLocalCSeq) (hrole : t.myRole = s.myRole)
    (hactive : t.myActiveFlg = true → s.myActiveFlg = true)
    (hcontrol : t.myState = s.myState ∨ t.myState = .TEAR_DOWN ∨ t.myState = .INIT)
    (hua : t.agent.myState = s.agent.myState ∨ t.agent.myState = .FAILURE ∨
      t.agent.myState = .END ∧ (s.agent.myState = .INCALL ∨ s.agent.myState = .HOLD))
    (hrequest : t.agent.myRequestMsg = s.agent.myRequestMsg)
    (hresponse : s.myState ≠ .UAS_RINGING → t.agent.myResponseMsg = s.agent.myResponseMsg) : Closes s t where
  role := hrole
  active := hactive
  trying h := by
    rcases hcontrol with hc | hc | hc <;> rw [hc] at h
    · exact h
    · cases h
    · cases h
  acks := hacks
  ua := hua
  counts _ := InStep.congr hnum hlocal
  control := hcontrol
  silent _ := ⟨hnum, hlocal⟩
  request := hrequest
  response := hresponse

theorem closes_tearDown (s : CallAgent) : Closes s { s with myState := .TEAR_DOWN } :=
  Closes.quiet rfl rfl rfl rfl id (Or.inr (Or.inl rfl)) (Or.inl rfl) rfl fun _ => rfl

theorem closes_dropped (s : CallAgent) : Closes s s.dropped :=
  Closes.quiet rfl rfl rfl rfl (fun h => by cases h) (Or.inr (Or.inr rfl)) (Or.inl rfl) rfl fun _ => rfl

theorem closes_freed (s : CallAgent) : Closes s s.freed :=
  Closes.quiet rfl rfl rfl rfl id (Or.inl rfl) (Or.inl rfl) rfl fun _ => rfl

/-- The agent after a CANCEL, with its user agent in the state `u`. -/
def CallAgent.cancelled (s : CallAgent) (u : UaState) : CallAgent :=
  { s with
    agent := { s.agent with myState := u }
    sent := s.sent ++ [.request .CANCEL s.agent.myRequestMsg.cseq] }

theorem closes_cancelled {s : CallAgent} {u : UaState}
    (hu : u = .FAILURE ∨ u = .END ∧ (s.agent.myState = .INCALL ∨ s.agent.myState = .HOLD)) :
    Closes s (s.cancelled u) := by
  refine Closes.quiet ?_ ?_ rfl rfl id (Or.inl rfl) (Or.inr hu) rfl fun _ => rfl
  · simp [CallAgent.cancelled, CallAgent.numbers, Sent.number?]
  · simp [CallAgent.cancelled, CallAgent.acks, Sent.isAck]

theorem run_sendRequest_cancel (s : CallAgent) (invite : InviteMsg) :
    sendRequest (invite.command .CANCEL) s =
      match s.agent.myState with
      | .C_TRYING | .RINGING => .ok 0 (s.cancelled .FAILURE)
      | .INCALL | .HOLD => .ok 0 (s.cancelled .END)
      | .REDIRECT => .ok 0 s
      | .IDLE | .S_TRYING | .FAILURE | .END => .ok (-1) s := by
  cases h : s.agent.myState <;>
    simp [sendRequest, getAgent, h, UaStateIdle.sendRequest, UacStateTrying.sendRequest,
      UaStateRinging.sendRequest, UaStateInCall.sendRequest, UaStateInHold.sendRequest, sendInDialog,
      sendCancelMsg, send, changeState, modifyAgent, CallAgent.cancelled, InviteMsg.command]

/-! ## The functions that end a call -/

theorem closes_myInvokee (s : CallAgent) : Closes s (after myInvokee s) := by
  cases hactive : s.myActiveFlg with
  | false =>
    rw [after_of_error (run_myInvokee_inactive hactive)]
    exact Closes.refl s
  | true =>
    rw [after_of_ok (run_myInvokee hactive)]
    exact Closes.refl s

theorem closes_catch {m : AgentM Unit} {s : CallAgent} (h : Closes s (after m s)) :
    Closes s (after (catchInvalidState m) s) := by
  rwa [after_catch]

theorem closes_sendCancel (s : CallAgent) : Closes s (after sendCancel s) := by
  refine after_bind Closes.trans (closes_myInvokee s) fun a t _ => ?_
  rw [after, run_sendRequest_cancel]
  cases h : t.agent.myState with
  | C_TRYING | RINGING => exact closes_cancelled (Or.inl rfl)
  | INCALL => exact closes_cancelled (Or.inr ⟨rfl, Or.inl h⟩)
  | HOLD => exact closes_cancelled (Or.inr ⟨rfl, Or.inr h⟩)
  | _ => exact Closes.refl t

theorem closes_sendBye {s : CallAgent} (h : s.myState = .IN_CALL) : Closes s (after sendBye s) := by
  rw [after, run_sendBye]
  cases hrole : s.myRole with
  | A_SERVER =>
    cases s.agent.myAckMsg with
    | none => exact Closes.refl s
    | some ack =>
      refine ⟨⟨hrole.symm, id, id, acks_send .., Or.inl rfl, fun hclient => ?_⟩, Or.inl rfl, fun hs => (hs h).elim, rfl,
        fun _ => rfl⟩
      rw [hrole] at hclient
      cases hclient
  | A_CLIENT =>
    cases s.agent.myResponseMsg with
    | none => exact Closes.refl s
    | some response =>
      exact ⟨⟨hrole.symm, id, id, acks_send .., Or.inl rfl, fun _ hs => ordered_concat (numbers_send ..) hs.1 hs.2⟩,
        Or.inl rfl, fun hs => (hs h).elim, rfl, fun _ => rfl⟩

theorem closes_cancel (s : CallAgent) : Closes s (after ControlState.cancel s) := by
  by_cases h : s.Pending
  · rw [after_of_ok (run_cancel_pending h)]
    exact closes_tearDown s
  · rw [after_of_ok (run_cancel_of_not_pending h)]
    exact Closes.refl s

theorem closes_bye (s : CallAgent) : Closes s (after ControlState.bye s) := by
  by_cases h : s.Up
  · rw [after_of_ok (run_bye_up h)]
    exact closes_tearDown s
  · rw [after_of_ok (run_bye_of_not_up h)]
    exact Closes.refl s

theorem closes_failure (s : CallAgent) : Closes s (after (changeState .FAILURE) s) :=
  Closes.quiet rfl rfl rfl rfl id (Or.inl rfl) (Or.inr (Or.inl rfl)) rfl fun _ => rfl

theorem closes_reply {s : CallAgent} (h : s.myState = .UAS_RINGING) (statusCode : Nat) (method : Method)
    (response : StatusMsg) :
    Closes s { s with
      agent := { s.agent with myResponseMsg := some response }
      sent := s.sent ++ [.reply statusCode method] } := by
  refine Closes.quiet ?_ ?_ rfl rfl id (Or.inl rfl) (Or.inl rfl) rfl fun hne => (hne h).elim
  · simp [CallAgent.numbers, Sent.number?]
  · simp [CallAgent.acks, Sent.isAck]

theorem closes_sendFinal {s : CallAgent} (h : s.myState = .UAS_RINGING) (statusCode : Nat) :
    Closes s (after (sendFinal statusCode) s) :=
  closes_reply h statusCode .INVITE _

section EndC

variable {endC : AgentM Int} (hend : Moves Closes endC)

include hend

theorem closes_endLoop (k : Nat) : Moves Closes (endLoop endC k) := by
  induction k with
  | zero => exact fun s => Closes.refl s
  | succ k ih =>
    intro s
    refine after_bind Closes.trans (hend s) fun rv t _ => ?_
    by_cases hrv : rv < 0
    · rw [if_pos hrv]
      exact ih t
    · rw [if_neg hrv]
      exact Closes.refl t

theorem closes_callFailed : Moves Closes (callFailed endC) :=
  Moves.bind Closes.trans closes_cancel fun _ => closes_endLoop hend turns

theorem closes_doCancel : Moves Closes (doCancel endC) := fun s =>
  closes_catch (after_bind Closes.trans (closes_freed s) fun _ t _ =>
    after_bind Closes.trans (closes_cancel t) fun _ u _ => closes_endLoop hend turns u)

theorem closes_stopCall : Moves Closes (stopCall endC) :=
  Moves.bind Closes.trans (closes_endLoop hend turns) fun _ => closes_freed

theorem closes_endCall : Moves Closes (endCall endC) := by
  intro s
  cases hactive : s.myActiveFlg with
  | false =>
    rw [after_of_ok (run_endCall_inactive hactive)]
    exact Closes.refl s
  | true =>
    have h : after (endCall endC) s =
        after (catchInvalidState (do freeMedia; ControlState.bye; endLoop endC turns)) s := by
      simp only [after, endCall, run_get_bind, hactive, if_true]
    rw [h]
    exact closes_catch (after_bind Closes.trans (closes_freed s) fun _ t _ =>
      after_bind Closes.trans (closes_bye t) fun _ u _ => closes_endLoop hend turns u)

theorem closes_doBye {s : CallAgent} (h : s.Up) : Closes s (after (doBye endC) s) := by
  rcases h with h | h
  · have hcan : s.myState.canBye = true := by rw [h]; rfl
    have hafter : after (doBye endC) s = after (do let _ ← myInvokee; let _ ← sendBye; endCall endC) s := by
      simp only [after, doBye, run_get_bind, hcan, if_true]
    rw [hafter]
    refine after_bind Closes.trans (closes_myInvokee s) fun a t hinvokee => ?_
    obtain ⟨-, -, rfl⟩ := of_run_myInvokee hinvokee
    exact after_bind Closes.trans (closes_sendBye h) fun _ u _ => closes_endCall hend u
  · have hcan : s.myState.canBye = false := by rw [h]; rfl
    have hafter : after (doBye endC) s = after (endCall endC) s := by
      simp only [after, doBye, run_get_bind, hcan, Bool.false_eq_true, if_false]
    rw [hafter]
    exact closes_endCall hend s

theorem closes_sendStatus_busy {s : CallAgent} (h : s.myState = .UAS_RINGING) :
    Closes s (after (sendStatus endC 486) s) := by
  have hset (u : CallAgent) : Closes u (after (do changeState .FAILURE; return 0 : AgentM Int) u) := closes_failure u
  cases hua : s.agent.myState with
  | IDLE | C_TRYING | REDIRECT | FAILURE | END =>
    have hafter : after (sendStatus endC 486) s = s := by simp [after, sendStatus, getAgent, hua]
    rw [hafter]
    exact Closes.refl s
  | INCALL | HOLD =>
    have hafter : after (sendStatus endC 486) s =
        after (sendReplyForRequest (s.agent.myRequestMsg.command .INVITE) 486 true) s := by
      simp [after, sendStatus, getAgent, hua, sendStatusInDialog, sendReplyForRequest, send, setResponse,
        modifyAgent]
    rw [hafter]
    exact closes_reply h 486 .INVITE _
  | S_TRYING =>
    have hafter : after (sendStatus endC 486) s =
        after (do sendFinal 486; changeState .FAILURE; return 0 : AgentM Int) s := by
      simp [after, sendStatus, getAgent, hua, UasStateTrying.sendStatus]
    rw [hafter]
    exact after_bind Closes.trans (closes_sendFinal h 486) fun _ t _ => hset t
  | RINGING =>
    cases hto : s.agent.myRequestMsg.toUrl.isSip with
    | false =>
      have hafter : after (sendStatus endC 486) s = s := by
        simp [after, sendStatus, getAgent, hua, UaStateRinging.sendStatus, hto, assertOr]
      rw [hafter]
      exact Closes.refl s
    | true =>
      have hafter : after (sendStatus endC 486) s =
          after (do sendFinal 486; callFailed endC; changeState .FAILURE; return 0 : AgentM Int) s := by
        simp [after, sendStatus, getAgent, hua, UaStateRinging.sendStatus, hto, assertOr]
      rw [hafter]
      exact after_bind Closes.trans (closes_sendFinal h 486) fun _ t _ =>
        after_bind Closes.trans (closes_callFailed hend t) fun _ u _ => hset u

theorem closes_busyLoop (k : Nat) : Moves Closes (busyLoop endC k) := by
  induction k with
  | zero => exact fun s => Closes.refl s
  | succ k ih =>
    intro s
    by_cases h : s.myState = .UAS_RINGING
    · have hafter : after (busyLoop endC (k + 1)) s = s := by simp [after, busyLoop, h]
      rw [hafter]
      exact Closes.refl s
    · have hafter : after (busyLoop endC (k + 1)) s =
          after (endC >>= fun rv => if 0 ≤ rv then return rv else busyLoop endC k) s := by
        simp [after, busyLoop, h]
      rw [hafter]
      refine after_bind Closes.trans (hend s) fun rv t _ => ?_
      by_cases hrv : 0 ≤ rv
      · rw [if_pos hrv]
        exact Closes.refl t
      · rw [if_neg hrv]
        exact ih t

theorem closes_sendBusy {s : CallAgent} (h : s.myState = .UAS_RINGING) : Closes s (after (sendBusy endC) s) := by
  refine after_bind Closes.trans (closes_myInvokee s) fun a t hinvokee => ?_
  obtain ⟨-, -, rfl⟩ := of_run_myInvokee hinvokee
  exact after_bind Closes.trans (closes_sendStatus_busy hend h) fun _ u _ =>
    after_bind Closes.trans (closes_cancel u) fun _ v _ => closes_busyLoop hend turns v

end EndC

theorem closes_giveUp (rv : Int) :
    Moves Closes (do if rv < 0 then ControlState.changeState .TEAR_DOWN
                     return rv : AgentM Int) := by
  intro s
  by_cases hrv : rv < 0
  · have hafter : after (do if rv < 0 then ControlState.changeState .TEAR_DOWN
                            return rv : AgentM Int) s = { s with myState := .TEAR_DOWN } := by
      simp [after, hrv, ControlState.changeState]
    rw [hafter]
    exact closes_tearDown s
  · have hafter : after (do if rv < 0 then ControlState.changeState .TEAR_DOWN
                            return rv : AgentM Int) s = s := by
      simp [after, hrv]
    rw [hafter]
    exact Closes.refl s

theorem closes_endAt (n : Nat) : Moves Closes (ControlState.endAt n) := by
  induction n with
  | zero => exact fun s => Closes.refl s
  | succ n ih =>
    intro s
    cases h : s.myState with
    | INIT =>
      rw [after_of_ok (run_endAt_init h)]
      exact Closes.refl s
    | TEAR_DOWN =>
      rw [after_of_ok (run_endAt_tearDown h)]
      exact closes_dropped s
    | IN_CALL | HOLD =>
      have hafter : after (ControlState.endAt (n + 1)) s =
          after (do doBye (ControlState.endAt n); return 0 : AgentM Int) s := by
        simp only [after, ControlState.endAt, run_get_bind, h]
      rw [hafter]
      exact after_bind Closes.trans (closes_doBye ih (by simp [CallAgent.Up, h])) fun _ t _ => Closes.refl t
    | TRYING | UAC_RINGING =>
      have hafter : after (ControlState.endAt (n + 1)) s =
          after (sendCancel >>= fun rv => do
            if rv < 0 then ControlState.changeState .TEAR_DOWN
            return rv) s := by
        simp only [after, ControlState.endAt, run_get_bind, h]
      rw [hafter]
      exact after_bind Closes.trans (closes_sendCancel s) fun rv t _ => closes_giveUp rv t
    | UAS_RINGING =>
      have hafter : after (ControlState.endAt (n + 1)) s =
          after (sendBusy (ControlState.endAt n) >>= fun rv => do
            if rv < 0 then ControlState.changeState .TEAR_DOWN
            return rv) s := by
        simp only [after, ControlState.endAt, run_get_bind, h]
      rw [hafter]
      exact after_bind Closes.trans (closes_sendBusy ih h) fun rv t _ => closes_giveUp rv t

theorem closes_endState : Moves Closes endState := closes_endAt 2

end Vocal.Ua
