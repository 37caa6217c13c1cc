import Vocal.Ua.Ending

/-!
# The handlers of responses

The handlers of all states are put together from few parts. A relation that each of these parts follows is followed by
every response.
-/

namespace Vocal.Ua

open AgentM UaBase Vocal.Comp CallAgent

/-- Neither of the two machines changes its state. -/
def SameStates (s t : CallAgent) : Prop := t.myState = s.myState ∧ t.agent.myState = s.agent.myState

theorem SameStates.trans {s t u : CallAgent} (h : SameStates s t) (h' : SameStates t u) : SameStates s u :=
  ⟨h'.1.trans h.1, h'.2.trans h.2⟩

theorem sameStates_tail (msg : StatusMsg) : Moves SameStates (do
    if msg.statusCode = 200 ∧ msg.method = .INVITE then ackStatus msg
    if msg.statusCode = 302 then redirect msg
    else if msg.statusCode = 480 then freeMedia) := by
  have hrefl (s : CallAgent) : SameStates s s := ⟨rfl, rfl⟩
  have hassert (e : Exit) (b : Bool) : Moves SameStates (assertOr e b) :=
    Moves.ite (fun _ => Moves.pure hrefl ()) fun _ => Moves.throw hrefl e
  have hinvokee : Moves SameStates myInvokee :=
    Moves.bind SameStates.trans hrefl fun s => Moves.bind SameStates.trans (hassert _ _) fun _ => Moves.pure hrefl _
  have hredirect : Moves SameStates (redirect msg) :=
    Moves.bind SameStates.trans hinvokee fun _ => Moves.bind SameStates.trans (hassert _ _) fun _ =>
      Moves.bind SameStates.trans hrefl fun _ => Moves.bind SameStates.trans (fun _ => ⟨rfl, rfl⟩) fun _ _ => ⟨rfl, rfl⟩
  have hrest : Moves SameStates
      (if msg.statusCode = 302 then redirect msg else if msg.statusCode = 480 then freeMedia else pure ()) :=
    Moves.ite (fun _ => hredirect) fun _ => Moves.ite (fun _ _ => ⟨rfl, rfl⟩) fun _ => Moves.pure hrefl ()
  have hack : Moves SameStates (ackStatus msg) := Moves.ite (fun _ _ => ⟨rfl, rfl⟩) fun _ => Moves.pure hrefl ()
  exact Moves.ite (fun _ => Moves.bind SameStates.trans hack fun _ => hrest) fun _ => hrest

/-- The controller's state decides what `receivedStatus` leaves of both. -/
theorem receivedStatus_of {P : CallAgent → Prop} (hP : ∀ s t, SameStates s t → P s → P t) {msg : StatusMsg}
    {s : CallAgent} (h : P (after (ControlState.recvStatus msg) s)) : P (after (receivedStatus msg) s) := by
  rw [receivedStatus, after_catch]
  exact after_bind_of h fun _ t _ ht => hP _ _ (sameStates_tail msg t) ht

/-- The states before a dialog and after a refusal. -/
def UaState.outside : UaState → Bool
  | .INCALL | .HOLD | .END => false
  | .IDLE | .C_TRYING | .S_TRYING | .RINGING | .REDIRECT | .FAILURE => true

/-- The states that give the call up at `msg`. -/
def UaState.GivesUp (u : UaState) (msg : StatusMsg) : Prop :=
  u = .FAILURE ∧ 200 < msg.statusCode ∨ u = .C_TRYING ∧ msg.statusCode = 302 ∧ msg.contactList = []

/-- A relation that the parts of the handlers of `msg` follow. -/
structure Carries (R : CallAgent → CallAgent → Prop) (msg : StatusMsg) : Prop where
  refl : ∀ s, R s s
  trans : ∀ {s t u}, R s t → R t u → R s u
  /-- Changes of the user agent that leave its state and its counter. -/
  agent : ∀ f : UaBase → UaBase, (∀ a, (f a).myState = a.myState ∧ (f a).myLocalCSeq = a.myLocalCSeq) →
    Moves R (modifyAgent f)
  sync : msg.statusCode = 200 → Moves R (setLocalCSeq msg.cseq)
  ack : Moves R (send (.request .ACK msg.cseq))
  change : ∀ u : UaState, u.outside = true → Moves R (changeState u)
  received : Moves R (receivedStatus msg)
  hold : msg.statusCode = 200 → Moves R dohold
  answer : msg.statusCode = 200 → Moves R (do receivedStatus msg; changeState .INCALL)

namespace Carries

variable {R : CallAgent → CallAgent → Prop} {msg : StatusMsg} (h : Carries R msg)

include h

theorem bind {α β : Type} {m : AgentM α} {f : α → AgentM β} (hm : Moves R m) (hf : ∀ a, Moves R (f a)) :
    Moves R (m >>= f) :=
  Moves.bind h.trans hm hf

theorem saveRoutes (urls : List BaseUrl) : Moves R (saveRoutes true urls) := by
  induction urls with
  | nil => exact Moves.pure h.refl ()
  | cons url urls ih =>
    cases url with
    | SIP_URL text => exact h.bind (h.agent _ fun _ => ⟨rfl, rfl⟩) fun _ => ih
    | TEL_URL text => exact Moves.throw h.refl _

theorem saveAnswer : Moves R (saveAnswer msg) := by
  refine h.bind (h.agent _ fun _ => ⟨rfl, rfl⟩) fun _ => h.bind ?_ fun _ => h.agent _ fun _ => ⟨rfl, rfl⟩
  refine h.bind (h.agent _ fun _ => ⟨rfl, rfl⟩) fun _ => h.bind (h.saveRoutes msg.recordRouteList) fun _ => ?_
  cases msg.contactList.getLast? with
  | none => exact Moves.pure h.refl ()
  | some contact => exact h.agent _ fun _ => ⟨rfl, rfl⟩

theorem syncResponse : Moves R (syncResponse msg) := by
  refine h.bind h.refl fun a => ?_
  cases a.myResponseMsg with
  | none => exact Moves.throw h.refl _
  | some response => exact h.agent _ fun _ => ⟨rfl, rfl⟩

theorem recvStatus_from {s : CallAgent} (hfailed : s.agent.myState.GivesUp msg → Moves R (callFailed endState)) :
    R s (after (recvStatus msg) s) := by
  have hack : Moves R (ackFailure msg) := Moves.ite (fun _ => h.ack) fun _ => Moves.pure h.refl ()
  have hset {u : UaState} (hu : u.outside = true) : Moves R (do changeState u; receivedStatus msg) :=
    h.bind (h.change u hu) fun _ => h.received
  have hring : Moves R (if 180 ≤ msg.statusCode then do changeState .RINGING; receivedStatus msg
      else receivedStatus msg) :=
    Moves.ite (fun _ => hset rfl) fun _ => h.received
  have hidle : Moves R (changeState .IDLE) := h.change .IDLE rfl
  refine after_bind h.trans (h.refl s) fun a t hget => ?_
  cases hget
  cases hua : s.agent.myState with
  | IDLE | S_TRYING => exact h.refl s
  | C_TRYING =>
    refine Moves.ite (fun h200 => h.bind h.saveAnswer fun _ => h.answer h200) (fun _ =>
      Moves.ite (fun _ => h.bind hack fun _ => ?_) fun _ => hring) s
    refine Moves.ite (fun _ => h.received) fun _ => Moves.ite (fun h302 => ?_) fun _ => hset rfl
    refine Moves.ite (fun hempty => h.bind hidle fun _ => hfailed ?_) fun _ => hset rfl
    exact Or.inr ⟨hua, h302, List.isEmpty_iff.mp hempty⟩
  | RINGING =>
    refine Moves.ite (fun h200 => ?_) (fun _ => Moves.ite (fun _ => ?_) fun _ => Moves.pure h.refl ()) s
    · exact h.bind h.saveAnswer fun _ => h.bind h.syncResponse fun _ => h.bind (h.sync h200) fun _ => h.answer h200
    · exact h.bind hack fun _ => h.bind h.received fun _ => hidle
  | REDIRECT =>
    refine Moves.ite (fun h200 => h.bind h.saveAnswer fun _ => h.answer h200) (fun _ =>
      Moves.ite (fun _ => ?_) fun _ => hring) s
    exact h.bind hack fun _ => hset rfl
  | INCALL =>
    have hrest : Moves R
        (if msg.statusCode = 200 ∧ msg.method = .INVITE then do
          Ua.syncResponse msg; setLocalCSeq msg.cseq; receivedStatus msg
        else receivedStatus msg) :=
      Moves.ite (fun h200 => h.bind h.syncResponse fun _ => h.bind (h.sync h200.1) fun _ => h.received)
        fun _ => h.received
    exact Moves.ite (fun _ => h.bind h.ack fun _ => hrest) (fun _ => hrest) s
  | HOLD =>
    have hrest : Moves R
        (if msg.statusCode = 200 ∧ msg.method = .INVITE then do Ua.syncResponse msg; dohold
        else receivedStatus msg) :=
      Moves.ite (fun h200 => h.bind h.syncResponse fun _ => h.hold h200.1) fun _ => h.received
    exact Moves.ite (fun _ => h.bind h.ack fun _ => hrest) (fun _ => hrest) s
  | FAILURE =>
    have hassert (b : Bool) : Moves R (assertOr .uaStateAssert b) :=
      Moves.ite (fun _ => Moves.pure h.refl ()) fun _ => Moves.throw h.refl _
    have hread : Moves R (get : AgentM CallAgent) := h.refl
    refine h.bind hread (fun s => h.bind (hassert _) fun _ => Moves.ite (fun hgt => ?_) fun _ => Moves.pure h.refl ()) s
    have hrest : Moves R (do receivedStatus msg; callFailed endState; changeState .IDLE) :=
      h.bind h.received fun _ => h.bind (hfailed (Or.inl ⟨hua, hgt⟩)) fun _ => hidle
    exact Moves.ite (fun _ => h.bind h.ack fun _ => hrest) fun _ => hrest
  | END => exact hset rfl s

theorem recvStatus (hfailed : Moves R (callFailed endState)) : Moves R (recvStatus msg) :=
  fun _ => h.recvStatus_from fun _ => hfailed

end Carries

end Vocal.Ua
