import Vocal.Ua.Early

/-!
# What responses do to the numbers

Most of what a client does sends no INVITE and no BYE (`Silent`) or draws their numbers from its local counter
(`Counted`). The handlers of responses follow both relations, apart from the answer to a challenge: its number comes
from the stored request.
-/

namespace Vocal.Ua

open AgentM UaBase Vocal.Comp CallAgent

/-- No number is sent and the counter stays. -/
structure Plain (s t : CallAgent) : Prop where
  role : t.myRole = s.myRole
  numbers : t.numbers = s.numbers
  counter : t.agent.myLocalCSeq = s.agent.myLocalCSeq

/-- No number is sent. -/
def Silent (s t : CallAgent) : Prop := t.numbers = s.numbers

/-- Numbers are drawn from the local counter. -/
structure Counted (s t : CallAgent) : Prop where
  role : t.myRole = s.myRole
  inStep : s.myRole = .A_CLIENT → s.InStep → t.InStep

theorem Counted.trans {s t u : CallAgent} (h : Counted s t) (h' : Counted t u) : Counted s u :=
  ⟨h'.role.trans h.role, fun hrole hs => h'.inStep (h.role.trans hrole) (h.inStep hrole hs)⟩

theorem Counted.of_closes {s t : CallAgent} (h : Closes s t) : Counted s t := ⟨h.role, h.counts⟩

namespace Plain

variable {s t u : CallAgent}

theorem refl (s : CallAgent) : Plain s s := ⟨rfl, rfl, rfl⟩

theorem trans (h : Plain s t) (h' : Plain t u) : Plain s u :=
  ⟨h'.role.trans h.role, h'.numbers.trans h.numbers, h'.counter.trans h.counter⟩

theorem silent (h : Plain s t) : Silent s t := h.numbers

theorem counted (h : Plain s t) : Counted s t := ⟨h.role, fun _ => InStep.congr h.numbers h.counter⟩

/-- The functions that end a call send a number only where the call is up. -/
theorem of_closes (h : Closes s t) (hs : s.myState ≠ .IN_CALL) : Plain s t :=
  ⟨h.role, (h.silent hs).1, (h.silent hs).2⟩

theorem bind {α β : Type} {m : AgentM α} {f : α → AgentM β} (hm : Moves Plain m) (hf : ∀ a, Moves Plain (f a)) :
    Moves Plain (m >>= f) :=
  Moves.bind trans hm hf

theorem modifyAgent {f : UaBase → UaBase} (hf : ∀ a, (f a).myLocalCSeq = a.myLocalCSeq) :
    Moves Plain (modifyAgent f) :=
  fun s => ⟨rfl, rfl, hf s.agent⟩

theorem changeState (u : UaState) : Moves Plain (changeState u) := modifyAgent fun _ => rfl

theorem pure {α : Type} (a : α) : Moves Plain (Pure.pure a : AgentM α) := refl

theorem send {m : Sent} (hm : m.number? = none) : Moves Plain (send m) := by
  intro s
  have hnum := numbers_send s m
  rw [hm] at hnum
  exact ⟨rfl, hnum.trans (List.append_nil _), rfl⟩

theorem reply (cmd : SipCommand) (statusCode : Nat) (memorizeResponse : Bool) :
    Moves Plain (sendReplyForRequest cmd statusCode memorizeResponse) :=
  bind (send rfl) fun _ => Moves.ite (fun _ => modifyAgent fun _ => rfl) fun _ => refl

theorem assertOr (e : Exit) (b : Bool) : Moves Plain (assertOr e b) := Moves.ite (fun _ => refl) fun _ => refl

theorem myInvokee : Moves Plain myInvokee := by
  intro s
  cases hactive : s.myActiveFlg with
  | false =>
    rw [after_of_error (run_myInvokee_inactive hactive)]
    exact refl s
  | true =>
    rw [after_of_ok (run_myInvokee hactive)]
    exact refl s

theorem inCall : Moves Plain ControlState.inCall := by
  intro s
  obtain ⟨c, hc⟩ := run_inCall s
  rw [after_of_ok hc]
  exact ⟨rfl, rfl, rfl⟩

theorem inHold : Moves Plain ControlState.inHold := by
  intro s
  obtain ⟨c, hc⟩ := run_inHold s
  rw [after_of_ok hc]
  exact ⟨rfl, rfl, rfl⟩

end Plain

/-! ## Responses other than challenges -/

/-- The controller does not answer a challenge, and where `g` holds it does not hang up. -/
def CallAgent.Clear (msg : StatusMsg) (g : Prop) (s : CallAgent) : Prop :=
  (s.myState = .TRYING → ¬(msg.statusCode = 401 ∨ msg.statusCode = 407)) ∧ (g → s.myState ≠ .IN_CALL)

/-- The relation `V`, from states that are clear to states that are. -/
def While (V : CallAgent → CallAgent → Prop) (msg : StatusMsg) (g : Prop) (s t : CallAgent) : Prop :=
  s.Clear msg g → t.Clear msg g ∧ V s t

section While

variable {V : CallAgent → CallAgent → Prop} {msg : StatusMsg} {g : Prop} (hplain : ∀ s t, Plain s t → V s t)
  (htrans : ∀ {s t u}, V s t → V t u → V s u)

include htrans in
theorem while_trans {s t u : CallAgent} (h : While V msg g s t) (h' : While V msg g t u) : While V msg g s u := by
  intro hs
  obtain ⟨ht, hst⟩ := h hs
  obtain ⟨hu, htu⟩ := h' ht
  exact ⟨hu, htrans hst htu⟩

include hplain in
theorem while_plain {s t : CallAgent} (hcontrol : t.myState = s.myState) (h : Plain s t) : While V msg g s t := by
  intro hs
  refine ⟨?_, hplain s t h⟩
  unfold CallAgent.Clear at *
  rwa [hcontrol]

include hplain in
theorem while_closes {s t : CallAgent} (h : Closes s t) (hs : s.myState ≠ .IN_CALL) : While V msg g s t := by
  intro hclear
  exact ⟨⟨hclear.1 ∘ h.trying, fun _ => h.ne_of_ne hs (by decide) (by decide)⟩, hplain s t (Plain.of_closes h hs)⟩

end While

variable {s t : CallAgent} {msg : StatusMsg} {g : Prop}

theorem plain_resumeSession {sdp : SipSdp} (hs : s.myState = .IN_CALL → sdp.resumes) :
    Plain s (after (resumeSession sdp) s) := by
  unfold resumeSession
  split
  · exact Plain.inCall s
  · exact Plain.of_closes (closes_stopCall closes_endState s) fun hup => absurd (hs hup) ‹_›

theorem plain_doResume (hs : s.myState ≠ .IN_CALL) (remoteSdp : Option SipSdp) :
    Plain s (after (doResume remoteSdp) s) := by
  refine after_bind Plain.trans (Plain.myInvokee s) fun a t ht => ?_
  obtain ⟨-, -, rfl⟩ := of_run_myInvokee ht
  refine after_bind Plain.trans ⟨rfl, rfl, rfl⟩ fun _ u hu => ?_
  have hcontrol : u.myState = t.myState := by
    cases hu
    rfl
  rw [← hcontrol] at hs
  cases remoteSdp with
  | none => exact Plain.refl u
  | some sdp => exact plain_resumeSession fun hup => absurd hup hs

theorem plain_recvStatus (hclear : s.Clear msg g) : Plain s (after (ControlState.recvStatus msg) s) := by
  have hanswer : Moves Plain CallAgent.inCall :=
    Plain.bind Plain.inCall fun _ => Plain.bind Plain.myInvokee fun _ => Plain.assertOr _ _
  have hcancel (h : s.myState ≠ .IN_CALL) : Plain s (after (doCancel endState) s) :=
    Plain.of_closes (closes_doCancel closes_endState s) h
  refine after_bind Plain.trans (Plain.refl s) fun t u hget => ?_
  cases hget
  cases hs : s.myState with
  | INIT | UAS_RINGING | IN_CALL | TEAR_DOWN => exact Plain.refl s
  | TRYING =>
    have hauth := hclear.1 hs
    show Plain s (after (if msg.statusCode = 200 then _ else _) s)
    split
    · exact hanswer s
    split
    · exact Plain.refl s
    split
    · exact hcancel (by simp [hs])
    split
    · exact ⟨rfl, rfl, rfl⟩
    · exact Plain.refl s
  | UAC_RINGING =>
    show Plain s (after (if msg.method = .INVITE then _ else _) s)
    split
    · split
      · exact hanswer s
      split
      · exact hcancel (by simp [hs])
      · exact Plain.refl s
    · exact Plain.refl s
  | HOLD =>
    show Plain s (after (if msg.statusCode = 200 ∧ msg.method = .INVITE then _ else _) s)
    split
    · exact plain_doResume (by simp [hs]) msg.sdp
    · exact Plain.of_closes (closes_callFailed closes_endState s) (by simp [hs])

theorem notUp_recvStatus (hcode : 200 < msg.statusCode) (hclear : s.Clear msg g) (hs : s.myState ≠ .IN_CALL) :
    (after (ControlState.recvStatus msg) s).myState ≠ .IN_CALL := by
  have h200 : msg.statusCode ≠ 200 := by omega
  have hcancel := (closes_doCancel closes_endState s).ne_of_ne hs (by decide) (by decide)
  have hfailed := (closes_callFailed closes_endState s).ne_of_ne hs (by decide) (by decide)
  cases hc : s.myState with
  | INIT | UAS_RINGING | TEAR_DOWN => simp [after, ControlState.recvStatus, hc]
  | IN_CALL => exact (hs hc).elim
  | TRYING =>
    have hafter : after (ControlState.recvStatus msg) s =
        after (if msg.statusCode = 302 ∧ msg.method = .INVITE then pure () else doCancel endState) s := by
      simp only [after, ControlState.recvStatus, run_get_bind, hc, h200, if_false, hclear.1 hc, hcode, if_true]
    rw [hafter]
    split
    · exact hs
    · exact hcancel
  | UAC_RINGING =>
    have hafter : after (ControlState.recvStatus msg) s =
        after (if msg.method = .INVITE then doCancel endState else pure ()) s := by
      simp only [after, ControlState.recvStatus, run_get_bind, hc, h200, if_false, hcode, if_true]
    rw [hafter]
    split
    · exact hcancel
    · exact hs
  | HOLD =>
    have hafter : after (ControlState.recvStatus msg) s = after (callFailed endState) s := by
      simp only [after, ControlState.recvStatus, run_get_bind, hc, h200, false_and, if_false]
    rw [hafter]
    exact hfailed

section Responses

variable {V : CallAgent → CallAgent → Prop} (hplain : ∀ s t, Plain s t → V s t)
  (htrans : ∀ {s t u}, V s t → V t u → V s u) (hg : g → 200 < msg.statusCode)
  (hredirect : msg.statusCode = 302 → Moves V (redirect msg))

include hplain htrans hg hredirect

theorem while_receivedStatus : Moves (While V msg g) (receivedStatus msg) := by
  intro s hclear
  refine ⟨⟨fun ht => ?_, fun h => ?_⟩, ?_⟩
  · have hruns := @Runs.receivedStatus False msg False.elim
    exact hclear.1 ((hruns s).trying ht)
  · exact receivedStatus_of (P := fun t => t.myState ≠ .IN_CALL) (fun _ _ hsame ht => hsame.1 ▸ ht)
      (notUp_recvStatus (hg h) hclear (hclear.2 h))
  · rw [receivedStatus, after_catch]
    refine after_bind htrans (hplain _ _ (plain_recvStatus hclear)) fun _ t _ => ?_
    have hrest : Moves V
        (if msg.statusCode = 302 then redirect msg else if msg.statusCode = 480 then freeMedia else pure ()) :=
      Moves.ite hredirect fun _ =>
        Moves.ite (fun _ s => hplain _ _ ⟨rfl, rfl, rfl⟩) fun _ s => hplain _ _ (Plain.refl s)
    have hack : Moves V (ackStatus msg) :=
      Moves.ite (fun _ s => hplain _ _ (Plain.send rfl s)) fun _ s => hplain _ _ (Plain.refl s)
    exact Moves.ite (fun _ => Moves.bind (R := V) htrans hack fun _ => hrest) (fun _ => hrest) t

theorem while_recvStatus (hsync : msg.statusCode = 200 → Moves V (setLocalCSeq msg.cseq))
    (hfailed : s.agent.myState.GivesUp msg → Moves (While V msg g) (callFailed endState)) :
    While V msg g s (after (recvStatus msg) s) := by
  have hreceived := while_receivedStatus hplain htrans hg hredirect
  have hquiet {f : UaBase → UaBase} (hf : ∀ a, (f a).myLocalCSeq = a.myLocalCSeq) :
      Moves (While V msg g) (modifyAgent f) :=
    fun s => while_plain hplain rfl (Plain.modifyAgent hf s)
  refine Carries.recvStatus_from
    { refl := fun s => while_plain hplain rfl (Plain.refl s)
      trans := while_trans (V := V) htrans
      agent := fun f hf => hquiet fun a => (hf a).2
      sync := fun h200 s hclear => ⟨hclear, hsync h200 s⟩
      ack := fun s => while_plain hplain rfl (Plain.send rfl s)
      change := fun _ _ => hquiet fun _ => rfl
      received := hreceived
      hold := ?_
      answer := fun _ => Moves.bind (while_trans (V := V) htrans) hreceived fun _ => hquiet fun _ => rfl } hfailed
  intro h200 s hclear
  have hhold : Moves Plain dohold := Plain.bind Plain.myInvokee fun _ => Plain.inHold
  have hruns := Runs.bind (q := False) Runs.myInvokee fun _ => Runs.inHold
  have hno : ¬g := fun h => by
    have := hg h
    omega
  exact ⟨⟨hclear.1 ∘ (hruns s).trying, fun h => (hno h).elim⟩, hplain _ _ (hhold s)⟩

end Responses

theorem counted_redirect (msg : StatusMsg) : Moves Counted (redirect msg) := by
  refine Moves.bind Counted.trans (fun s => (Plain.myInvokee s).counted) fun _ =>
    Moves.bind Counted.trans (fun s => (Plain.assertOr _ _ s).counted) fun _ s => ?_
  exact ⟨rfl, fun _ hs => ordered_concat (numbers_send ..) hs.1 hs.2⟩

theorem plain_redirect (hcontact : msg.contactList = []) : Moves Plain (redirect msg) := by
  refine Plain.bind Plain.myInvokee fun _ s => ?_
  simp [after, hcontact, AgentM.assertOr, Plain.refl]

/-- Where the response draws a number from the local counter. -/
def CallAgent.DrawsAt (s : CallAgent) (msg : StatusMsg) : Prop :=
  msg.statusCode = 302 ∧ msg.contactList ≠ [] ∧ s.agent.myState ≠ .IDLE ∨
    s.agent.myState.GivesUp msg ∧ s.myState = .IN_CALL

theorem UaState.GivesUp.code {u : UaState} (h : u.GivesUp msg) : 200 < msg.statusCode := by
  rcases h with h | h <;> omega

theorem ordered_recvStatus (hrole : s.myRole = .A_CLIENT) (hclear : s.Clear msg False) (hs : s.Ordered)
    (hcovers : s.DrawsAt msg → s.Covers s.agent.myLocalCSeq) : (after (recvStatus msg) s).Ordered := by
  have hcall : Moves Closes (callFailed endState) := closes_callFailed closes_endState
  by_cases hdraws : s.DrawsAt msg
  · have hgt : 200 < msg.statusCode := by
      rcases hdraws with h | h
      · omega
      · exact h.1.code
    have hcounted : While Counted msg False s (after (recvStatus msg) s) := by
      refine while_recvStatus (fun _ _ => Plain.counted) Counted.trans False.elim (fun _ => counted_redirect msg)
        (fun h200 => by omega) fun _ t ht => ?_
      exact ⟨⟨ht.1 ∘ (hcall t).trying, False.elim⟩, Counted.of_closes (hcall t)⟩
    exact ((hcounted hclear).2.inStep hrole ⟨hs, hcovers hdraws⟩).1
  · have hsilent : While Silent msg (s.agent.myState.GivesUp msg) s (after (recvStatus msg) s) := by
      by_cases hidle : s.agent.myState = .IDLE
      · have hafter : after (recvStatus msg) s = s := by simp [after, recvStatus, getAgent, hidle]
        rw [hafter]
        exact fun hclear => ⟨hclear, rfl⟩
      · refine while_recvStatus (fun _ _ => Plain.silent) (fun h h' => h'.trans h) UaState.GivesUp.code ?_
          (fun _ _ => rfl) fun hgives t ht => ?_
        · intro h302 t
          refine (plain_redirect ?_ t).silent
          by_contra hcontact
          exact hdraws (Or.inl ⟨h302, hcontact, hidle⟩)
        · exact while_closes (fun _ _ => Plain.silent) (hcall t) (ht.2 hgives) ht
    have hnum := (hsilent ⟨hclear.1, fun hgives hup => hdraws (Or.inr ⟨hgives, hup⟩)⟩).2
    unfold CallAgent.Ordered at *
    rwa [hnum]

/-! ## Requests of the peer -/

variable {cmd : SipCommand}

theorem plain_endCall : Moves Plain (endCall endState) := by
  intro s
  by_cases hup : s.Up
  · cases hactive : s.myActiveFlg with
    | false =>
      rw [after_of_ok (run_endCall_inactive hactive)]
      exact Plain.refl s
    | true =>
      rw [endState, after_of_ok (run_endCall_up hactive hup)]
      exact ⟨rfl, rfl, rfl⟩
  · exact Plain.of_closes (closes_endCall closes_endState s) fun h => hup (Or.inl h)

theorem plain_recvReq (hmethod : cmd.method ≠ .INVITE) : Moves Plain (ControlState.recvReq cmd) := by
  intro s
  refine after_bind Plain.trans (Plain.refl s) fun t u hget => ?_
  cases hget
  cases hs : s.myState with
  | INIT | TRYING | UAC_RINGING | IN_CALL | TEAR_DOWN => exact Plain.refl s
  | HOLD =>
    show Plain s (after (if cmd.method = .INVITE then _ else _) s)
    rw [if_neg hmethod]
    exact Plain.refl s
  | UAS_RINGING =>
    show Plain s (after (if cmd.method = .BYE then _ else _) s)
    split
    · exact Plain.of_closes (closes_doCancel closes_endState s) (by simp [hs])
    · exact Plain.refl s

theorem plain_sendStatus_ok (hua : s.agent.myState = .C_TRYING ∨ s.InDialog) :
    Plain s (after (sendStatus endState 200) s) ∧ (after (sendStatus endState 200) s).myState = s.myState := by
  rcases hua with hua | hua
  · have hafter : after (sendStatus endState 200) s = s := by simp [after, sendStatus, getAgent, hua]
    rw [hafter]
    exact ⟨Plain.refl s, rfl⟩
  · have hrun : sendStatus endState 200 s = sendStatusInDialog 200 s := by
      rcases hua with hua | hua <;> simp [sendStatus, getAgent, hua]
    have hafter : after (sendStatus endState 200) s = after (sendStatusInDialog 200) s := by rw [after, hrun, after]
    rw [hafter]
    cases hto : s.agent.myRequestMsg.toUrl.isSip with
    | false =>
      have hstay : after (sendStatusInDialog 200) s = s := by
        simp [after, sendStatusInDialog, getAgent, hto, AgentM.assertOr]
      rw [hstay]
      exact ⟨Plain.refl s, rfl⟩
    | true =>
      have hsent : after (sendStatusInDialog 200) s = after (send (.reply 200 .INVITE)) s := by
        simp [after, sendStatusInDialog, getAgent, hto, AgentM.assertOr, UaBase.send]
      rw [hsent]
      exact ⟨Plain.send rfl s, rfl⟩

section ReInvited

variable {V : CallAgent → CallAgent → Prop} (hplain : ∀ s t, Plain s t → V s t)
  (htrans : ∀ {s t u}, V s t → V t u → V s u)

include hplain htrans

/-- An INVITE of the peer is answered, and what `f` makes of its session description follows. -/
theorem reInvited_of {f : SipSdp → AgentM Unit} (hua : s.agent.myState = .C_TRYING ∨ s.InDialog)
    (hf : ∀ sdp ∈ s.agent.myRequestMsg.sdp, ∀ t, t.myState = s.myState → V t (after (f sdp) t)) :
    V s (after (catchInvalidState do
      let a ← myInvokee
      match a.myRequestMsg.sdp with
      | some sdp =>
        let _ ← sendStatus endState 200
        f sdp
      | none => throw .abort) s) := by
  rw [after_catch]
  refine after_bind htrans (hplain _ _ (Plain.myInvokee s)) fun a t ht => ?_
  obtain ⟨-, rfl, rfl⟩ := of_run_myInvokee ht
  cases hsdp : t.agent.myRequestMsg.sdp with
  | none => exact hplain _ _ (Plain.refl t)
  | some sdp =>
    have hsent := plain_sendStatus_ok hua
    refine after_bind htrans (hplain _ _ hsent.1) fun _ u hu => ?_
    rw [after_of_ok hu] at hsent
    exact hf sdp hsdp u hsent.2

end ReInvited

theorem plain_reqResume (hua : s.agent.myState = .C_TRYING ∨ s.InDialog)
    (hs : s.myState = .IN_CALL → ∀ sdp ∈ s.agent.myRequestMsg.sdp, sdp.resumes) : Plain s (after reqResume s) := by
  refine reInvited_of (fun _ _ => id) Plain.trans hua fun sdp hsdp t ht => ?_
  refine after_bind Plain.trans (Plain.myInvokee t) fun a u hu => ?_
  obtain ⟨-, -, rfl⟩ := of_run_myInvokee hu
  exact plain_resumeSession fun hup => hs (ht.symm.trans hup) sdp hsdp

theorem counted_reqResume (hua : s.InDialog) : Counted s (after reqResume s) := by
  refine reInvited_of (fun _ _ => Plain.counted) Counted.trans (Or.inr hua) fun sdp _ t _ => ?_
  refine after_bind Counted.trans (Plain.myInvokee t).counted fun a u _ => ?_
  unfold resumeSession
  split
  · exact (Plain.inCall u).counted
  · exact Counted.of_closes (closes_stopCall closes_endState u)

theorem notUp_inHold (h : ControlState.inHold s = .ok () t) : t.myState ≠ .IN_CALL := by
  cases hs : s.myState <;> simp [ControlState.inHold, hs, ControlState.changeState] at h <;> simp [← h, hs]

theorem plain_holdAndResumeReinvite (hua : s.InDialog) : Plain s (after holdAndResumeReinvite s) := by
  refine reInvited_of (fun _ _ => id) Plain.trans (Or.inr hua) fun sdp _ t _ => ?_
  refine after_bind Plain.trans (Plain.myInvokee t) fun a u hu => ?_
  obtain ⟨-, -, rfl⟩ := of_run_myInvokee hu
  refine after_bind Plain.trans (Plain.inHold u) fun _ v hv =>
    plain_doResume (notUp_inHold hv) (some sdp)

theorem plain_recvInDialog {reInvited options : AgentM Unit} (hmethod : cmd.method ≠ .INVITE)
    (hoptions : Moves Plain options) (held : UaState) : Moves Plain (recvInDialog reInvited cmd held options) := by
  unfold recvInDialog
  cases h : cmd.method with
  | INVITE => exact (hmethod h).elim
  | INFO => exact Plain.bind (Plain.reply _ _ _) fun _ => plain_recvReq hmethod
  | ACK => exact Plain.bind (Plain.modifyAgent fun _ => rfl) fun _ => plain_recvReq hmethod
  | BYE =>
    exact Plain.bind (Plain.reply _ _ _) fun _ => Plain.bind plain_endCall fun _ =>
      Plain.bind (plain_recvReq hmethod) fun _ => Plain.changeState _
  | CANCEL =>
    exact Plain.bind (Plain.reply _ _ _) fun _ => Plain.bind (Plain.reply _ _ _) fun _ =>
      Plain.bind (plain_recvReq hmethod) fun _ => Plain.bind plain_endCall fun _ => Plain.changeState _
  | OPTIONS => exact hoptions
  | other => exact Plain.refl

theorem recvInDialog_invite {V : CallAgent → CallAgent → Prop} (hplain : ∀ s t, Plain s t → V s t)
    (htrans : ∀ {s t u}, V s t → V t u → V s u) {reInvited options : AgentM Unit} (held : UaState)
    (hmethod : cmd.method = .INVITE)
    (hre : ∀ t : CallAgent, t.agent.myState = s.agent.myState → t.myState = s.myState →
      t.agent.myRequestMsg = cmd.toInviteMsg → V t (after reInvited t)) :
    V s (after (recvInDialog reInvited cmd held options) s) := by
  unfold recvInDialog
  rw [hmethod]
  refine after_bind htrans (hplain _ _ (Plain.reply _ _ _ s)) fun _ t ht => ?_
  refine after_bind htrans (hplain _ _ ⟨rfl, rfl, rfl⟩) fun _ u hu => ?_
  refine after_bind htrans (hre u ?_ ?_ ?_) fun _ v _ => hplain _ _ ⟨rfl, rfl, rfl⟩
  · cases hu
    cases ht
    rfl
  · cases hu
    cases ht
    rfl
  · cases hu
    rfl

/-- Where a request draws a number from the local counter: a re-INVITE that cannot be resumed is answered with a BYE. -/
def CallAgent.DrawsOn (s : CallAgent) (cmd : SipCommand) : Prop :=
  s.myState = .IN_CALL ∧
    (s.agent.myState = .HOLD ∧ cmd.method = .INVITE ∧ (∃ sdp ∈ cmd.toInviteMsg.sdp, sdp.resumes = false) ∨
      s.agent.myState = .S_TRYING ∧ cmd.method = .CANCEL)

theorem recvRequest_cancelled {V : CallAgent → CallAgent → Prop} (hplain : ∀ s t, Plain s t → V s t)
    (htrans : ∀ {s t u}, V s t → V t u → V s u) (hmethod : cmd.method ≠ .INVITE) {m : AgentM Unit}
    (hm : cmd.method = .CANCEL → ∀ t : CallAgent, t.myState = s.myState → V t (after m t)) :
    V s (after (do
      sendReplyForRequest cmd 200 true
      if cmd.method = .CANCEL then
        sendReplyForRequest ((← getAgent).myRequestMsg.command .INVITE) 487 true
        m
      receivedRequest cmd
      changeState .FAILURE) s) := by
  have hfail : Moves V (do receivedRequest cmd; changeState .FAILURE) := fun t =>
    hplain _ _ (Plain.bind (plain_recvReq hmethod) (fun _ => Plain.changeState _) t)
  refine after_bind htrans (hplain _ _ (Plain.reply _ _ _ s)) fun _ t ht => ?_
  by_cases hcancel : cmd.method = .CANCEL
  · have hafter : after (do
        if cmd.method = .CANCEL then
          sendReplyForRequest ((← getAgent).myRequestMsg.command .INVITE) 487 true
          m
        receivedRequest cmd
        changeState .FAILURE) t = after (do
        sendReplyForRequest (t.agent.myRequestMsg.command .INVITE) 487 true
        m
        receivedRequest cmd
        changeState .FAILURE) t := by
      simp [after, hcancel, getAgent]
    rw [hafter]
    refine after_bind htrans (hplain _ _ (Plain.reply _ _ _ t)) fun _ u hu => ?_
    refine after_bind htrans (hm hcancel u ?_) fun _ v _ => hfail v
    cases hu
    cases ht
    rfl
  · simp only [hcancel, if_false]
    exact hfail t

theorem plain_recvRequest (hrole : s.myRole = .A_CLIENT) (hno : ¬s.DrawsOn cmd) :
    Plain s (after (recvRequest cmd) s) := by
  have hid (s t : CallAgent) : Plain s t → Plain s t := id
  refine after_bind Plain.trans (Plain.refl s) fun a t hget => ?_
  cases hget
  cases hua : s.agent.myState with
  | REDIRECT | END => exact Plain.refl s
  | IDLE =>
    have hplain : Plain s (after (UaStateIdle.recvRequest cmd) s) := by
      simp [after, UaStateIdle.recvRequest, hrole, Plain.refl]
    exact hplain
  | FAILURE =>
    have hplain : Plain s (after (UaStateFailure.recvRequest cmd) s) := by
      simp [after, UaStateFailure.recvRequest, hrole, Plain.refl]
    exact hplain
  | C_TRYING =>
    by_cases hmethod : cmd.method = .INVITE
    · have hresume (hs : s.myState = .HOLD) := plain_reqResume (Or.inl hua) (show s.myState = .IN_CALL → _ by simp [hs])
      have hplain : Plain s (after (ControlState.recvReq cmd) s) := by
        refine after_bind Plain.trans (Plain.refl s) fun t u hget => ?_
        cases hget
        cases hs : s.myState with
        | INIT | TRYING | UAC_RINGING | IN_CALL | TEAR_DOWN => exact Plain.refl s
        | UAS_RINGING => simp [after, hmethod, Plain.refl]
        | HOLD => simpa [after, hmethod] using hresume hs
      exact hplain
    · exact plain_recvReq hmethod s
  | S_TRYING =>
    show Plain s (after (UasStateTrying.recvRequest cmd) s)
    unfold UasStateTrying.recvRequest
    split
    · have hmethod : cmd.method ≠ .INVITE := by grind
      refine recvRequest_cancelled hid Plain.trans hmethod fun hcancel t ht => ?_
      refine Plain.of_closes (closes_doCancel closes_endState t) fun hup => ?_
      exact hno ⟨ht.symm.trans hup, Or.inr ⟨hua, hcancel⟩⟩
    · exact Moves.ite (fun _ => Plain.changeState _) (fun _ => Plain.pure ()) s
  | RINGING =>
    show Plain s (after (UaStateRinging.recvRequest cmd) s)
    unfold UaStateRinging.recvRequest
    split
    · have hmethod : cmd.method ≠ .INVITE := by grind
      exact recvRequest_cancelled hid Plain.trans (m := pure ()) hmethod fun _ t _ => Plain.refl t
    · exact Plain.refl s
  | INCALL =>
    by_cases hmethod : cmd.method = .INVITE
    · refine recvInDialog_invite hid Plain.trans .HOLD hmethod fun t ht _ _ => plain_holdAndResumeReinvite (Or.inl ?_)
      rw [ht, hua]
    · exact plain_recvInDialog hmethod (Plain.send rfl) .HOLD s
  | HOLD =>
    by_cases hmethod : cmd.method = .INVITE
    · refine recvInDialog_invite hid Plain.trans .INCALL hmethod fun t ht hcontrol hrequest =>
        plain_reqResume (Or.inr (Or.inr (ht.trans hua))) fun hup sdp hsdp => ?_
      rw [hrequest] at hsdp
      by_contra hresumes
      exact hno ⟨hcontrol.symm.trans hup, Or.inl ⟨hua, hmethod, sdp, hsdp, Bool.eq_false_iff.mpr hresumes⟩⟩
    · exact plain_recvInDialog hmethod (Plain.pure ()) .INCALL s

theorem counted_recvRequest (h : s.DrawsOn cmd) : Counted s (after (recvRequest cmd) s) := by
  refine after_bind Counted.trans (Plain.refl s).counted fun a t hget => ?_
  cases hget
  rcases h with ⟨-, ⟨hua, hmethod, -⟩ | ⟨hua, hmethod⟩⟩
  · rw [hua]
    exact recvInDialog_invite (fun _ _ => Plain.counted) Counted.trans .INCALL hmethod fun t ht _ _ =>
      counted_reqResume (Or.inr (ht.trans hua))
  · rw [hua]
    show Counted s (after (UasStateTrying.recvRequest cmd) s)
    unfold UasStateTrying.recvRequest
    rw [if_pos (Or.inl hmethod)]
    exact recvRequest_cancelled (fun _ _ => Plain.counted) Counted.trans (by simp [hmethod]) fun _ t _ =>
      Counted.of_closes (closes_doCancel closes_endState t)

end Vocal.Ua
