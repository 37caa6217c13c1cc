import Mathlib.Algebra.Ring.Parity
import Vocal.Ua.Early
import Vocal.Ua.Provisional

/-!
# Failed re-INVITEs

The user agent changes its state when it sends a re-INVITE, not when the peer accepts it, and a failure does not change
it back. Each re-INVITE of the peer changes it too, so that after a failure the state is the old one exactly where the
peer has sent an odd number of them.
-/

namespace Vocal.Ua

open AgentM UaBase Vocal.Comp CallAgent

/-- The other state of a dialog. -/
def UaState.flip : UaState → UaState
  | .INCALL => .HOLD
  | .HOLD => .INCALL
  | u => u

/-- The state of a dialog after a request of the peer. -/
def UaState.onRequest (u : UaState) : Method → UaState
  | .INVITE => u.flip
  | .BYE => .IDLE
  | .CANCEL => .FAILURE
  | _ => u

/-- The states in which requests and provisional responses keep the user agent after the peer has hung up. -/
def UaState.over : UaState → Bool
  | .IDLE | .S_TRYING | .FAILURE => true
  | _ => false

variable {s : CallAgent} {cmd : SipCommand} {msg : StatusMsg}

/-! ## Within the dialog -/

theorem ends_invite_flips (invite : InviteMsg) (h : s.InDialog) :
    Ends (fun _ t => t.agent.myState = s.agent.myState.flip) (fun _ => True)
      (sendRequest (invite.command .INVITE)) s := by
  have hflip (u : UaState) : Ends (fun _ t => t.agent.myState = u) (fun _ => True)
      (do reInvite (invite.command .INVITE); changeState u; return 0 : AgentM Int) s :=
    Ends.last fun _ _ => Ends.of_ok rfl rfl
  refine ends_getAgent ?_
  rcases h with h | h
  · rw [h]
    exact hflip .HOLD
  · rw [h]
    exact hflip .INCALL

/-- What a hold or a resume has sent is a re-INVITE, and it is taken for accepted. -/
theorem ends_reInvite_flips {op : Op} (hop : op = .hold ∨ op = .resume) (hactive : s.myActiveFlg = true)
    (h : s.InDialog) : Ends (fun _ t => t.agent.myState = s.agent.myState.flip) (fun _ => True) op.act s := by
  have hsend {t : CallAgent} (ht : t.agent.myState = s.agent.myState) (invite : InviteMsg) :
      Ends (fun _ u => u.agent.myState = s.agent.myState.flip) (fun _ => True)
        (do let _ ← sendRequest (invite.command .INVITE) : AgentM Unit) t := by
    have hdialog : t.InDialog := by
      unfold CallAgent.InDialog
      rwa [ht]
    have hsent := ends_invite_flips invite hdialog
    rw [ht] at hsent
    exact hsent.bind fun _ _ hu => Ends.of_ok rfl hu
  have hassert {t : CallAgent} (ht : t.agent.myState = s.agent.myState) (b : Bool) :
      Ends (fun _ u => u.agent.myState = s.agent.myState) (fun _ => True) (assertOr .abort b) t :=
    Ends.ite (fun _ => Ends.of_ok rfl ht) fun _ => Ends.of_error rfl trivial
  have hinvokee : Ends (fun _ t => t.agent.myState = s.agent.myState) (fun _ => True) myInvokee s :=
    Ends.of_ok (run_myInvokee hactive) rfl
  rcases hop with rfl | rfl
  · refine hinvokee.bind fun a t ht => Ends.ite (fun _ => ?_) fun _ => ?_
    · refine (hassert ht _).bind fun _ u hu => ?_
      refine Ends.bind (Q := fun _ v => v.agent.myState = s.agent.myState) (Ends.of_ok rfl hu) fun _ v hv => ?_
      exact (hassert hv _).bind fun _ w hw => ends_getAgent (hsend hw _)
    · exact (hassert ht _).bind fun _ u hu => ends_getAgent (hsend hu _)
  · exact hinvokee.bind fun a t ht => (hassert ht _).bind fun _ u hu => hsend hu _

theorem run_recvReq_other (hbye : cmd.method ≠ .BYE) (hinvite : cmd.method ≠ .INVITE) :
    ControlState.recvReq cmd s = .ok () s := by
  cases hs : s.myState <;> simp [ControlState.recvReq, hs, hbye, hinvite]

theorem ends_recvInDialog_state (reInvited options : AgentM Unit) (cmd : SipCommand) (held : UaState)
    (hoptions : Ends (fun _ t => t.agent.myState = s.agent.myState) (fun _ => True) options s)
    (hheld : held = s.agent.myState.flip) :
    Ends (fun _ t => t.agent.myState = s.agent.myState.onRequest cmd.method) (fun _ => True)
      (recvInDialog reInvited cmd held options) s := by
  unfold recvInDialog
  cases hmethod : cmd.method with
  | INFO | ACK =>
    have hkeep {m : AgentM Unit} {t : CallAgent} (hm : m s = .ok () t) (ht : t.agent.myState = s.agent.myState) :
        Ends (fun _ u => u.agent.myState = s.agent.myState) (fun _ => True) (do m; receivedRequest cmd) s := by
      refine Ends.of_ok (a := ()) (t := t) ?_ ht
      rw [run_bind_ok hm]
      exact run_recvReq_other (by simp [hmethod]) (by simp [hmethod])
    exact hkeep rfl rfl
  | BYE => exact Ends.last fun _ _ => Ends.last fun _ _ => Ends.last fun _ _ => Ends.of_ok rfl rfl
  | INVITE =>
    rw [hheld]
    exact Ends.last fun _ _ => Ends.last fun _ _ => Ends.last fun _ _ => Ends.of_ok rfl rfl
  | CANCEL =>
    exact Ends.last fun _ _ => Ends.last fun _ _ => Ends.last fun _ _ => Ends.last fun _ _ => Ends.of_ok rfl rfl
  | OPTIONS => exact hoptions
  | other => exact Ends.of_ok rfl rfl

theorem ends_recvRequest_dialog (h : s.InDialog) :
    Ends (fun _ t => t.agent.myState = s.agent.myState.onRequest cmd.method) (fun _ => True) (recvRequest cmd) s := by
  refine ends_getAgent ?_
  rcases h with h | h
  · have hcall := ends_recvInDialog_state (s := s) holdAndResumeReinvite (send (.reply 200 .OPTIONS)) cmd .HOLD
      (Ends.of_ok rfl rfl) (by rw [h]; rfl)
    rw [h] at hcall ⊢
    exact hcall
  · have hhold := ends_recvInDialog_state (s := s) reqResume (pure ()) cmd .INCALL (Ends.of_ok rfl rfl) (by rw [h]; rfl)
    rw [h] at hhold ⊢
    exact hhold

theorem recvStatus_provisional_dialog (hactive : s.myActiveFlg = true) (h : s.InDialog) (hcode : msg.statusCode < 200) :
    (after (recvStatus msg) s).agent.myState = s.agent.myState := by
  have h200 : msg.statusCode ≠ 200 := by omega
  have hgt : ¬200 < msg.statusCode := by omega
  have hge : ¬200 ≤ msg.statusCode := by omega
  have hafter : after (recvStatus msg) s = after (receivedStatus msg) s := by
    rcases h with h | h
    · simp [after, recvStatus, getAgent, h, UaStateInCall.recvStatus, h200, hgt]
    · simp [after, recvStatus, getAgent, h, UaStateInHold.recvStatus, h200, hge]
  rw [hafter]
  exact receivedStatus_provisional_ua hactive hcode

/-! ## After the peer has hung up -/

theorem ends_recvRequest_over (h : s.agent.myState.over = true) :
    Ends (fun _ t => t.agent.myState.over = true) (fun _ => True) (recvRequest cmd) s := by
  have hset (u : UaState) (hu : u.over = true) (t : CallAgent) :
      Ends (fun _ v => v.agent.myState.over = true) (fun _ => True) (changeState u) t :=
    Ends.of_ok rfl hu
  refine ends_getAgent ?_
  cases hua : s.agent.myState with
  | C_TRYING | RINGING | INCALL | HOLD | REDIRECT | END =>
    rw [hua] at h
    cases h
  | IDLE =>
    refine Ends.get_bind (Ends.ite (fun _ => ?_) fun _ => Ends.of_ok rfl h)
    exact Ends.last fun _ _ => Ends.last fun _ _ =>
      Ends.ite (fun _ => Ends.last fun _ => hset .S_TRYING rfl) fun _ => hset .S_TRYING rfl _
  | S_TRYING =>
    refine Ends.ite (fun _ => Ends.last fun _ _ => Ends.ite (fun _ => ?_) fun _ => ?_) fun _ =>
      Ends.ite (fun _ => ?_) fun _ => ?_
    · exact Ends.last fun _ _ => Ends.last fun _ _ => Ends.last fun _ _ => Ends.last fun _ => hset .FAILURE rfl
    · exact Ends.last fun _ => hset .FAILURE rfl
    · exact hset .S_TRYING rfl s
    · exact Ends.of_ok rfl h
  | FAILURE =>
    exact Ends.get_bind (Ends.ite (fun _ => Ends.last fun _ => hset .IDLE rfl) fun _ => Ends.of_ok rfl h)

theorem ends_recvStatus_over (h : s.agent.myState.over = true) (hcode : msg.statusCode < 200) :
    Ends (fun _ t => t.agent.myState.over = true) (fun _ => True) (recvStatus msg) s := by
  have hgt : ¬200 < msg.statusCode := by omega
  refine ends_getAgent ?_
  cases hua : s.agent.myState with
  | C_TRYING | RINGING | INCALL | HOLD | REDIRECT | END =>
    rw [hua] at h
    cases h
  | IDLE | S_TRYING => exact Ends.of_ok rfl h
  | FAILURE =>
    refine Ends.get_bind (Ends.bind (Q := fun _ t => t = s) ?_ fun _ t ht => ?_)
    · exact Ends.ite (fun _ => Ends.of_ok rfl rfl) fun _ => Ends.of_error rfl trivial
    · rw [if_neg hgt, ht]
      exact Ends.of_ok rfl h

/-! ## The failure -/

theorem receivedStatus_failure_state (hactive : s.myActiveFlg = true) (hs : s.myState ≠ .TRYING)
    (hmethod : msg.method = .INVITE) (hcode : 300 ≤ msg.statusCode) :
    (after (receivedStatus msg) s).agent.myState = s.agent.myState := by
  have h200 : msg.statusCode ≠ 200 := by omega
  have hgt : 200 < msg.statusCode := by omega
  have hrecv : (after (ControlState.recvStatus msg) s).agent.myState = s.agent.myState := by
    cases hc : s.myState with
    | TRYING => exact (hs hc).elim
    | INIT | UAS_RINGING | IN_CALL | TEAR_DOWN => simp [after, ControlState.recvStatus, hc]
    | UAC_RINGING =>
      have hrun : ControlState.recvStatus msg s = doCancel endState s := by
        simp [ControlState.recvStatus, hc, hmethod, h200, hgt]
      rw [after, hrun, endState, run_doCancel_pending (Or.inr (Or.inl hc))]
      rfl
    | HOLD =>
      have hrun : ControlState.recvStatus msg s = callFailed endState s := by
        simp [ControlState.recvStatus, hc, h200]
      rw [after, hrun, endState, run_callFailed_hold hactive hc]
      rfl
  exact receivedStatus_of (P := fun t : CallAgent => t.agent.myState = s.agent.myState)
    (fun _ _ hsame h => hsame.2.trans h) hrecv

theorem recvStatus_failure_dialog (hactive : s.myActiveFlg = true) (hs : s.myState ≠ .TRYING) (h : s.InDialog)
    (hmethod : msg.method = .INVITE) (hcode : 300 ≤ msg.statusCode) :
    (after (recvStatus msg) s).agent.myState = s.agent.myState := by
  have h200 : msg.statusCode ≠ 200 := by omega
  have hgt : 200 < msg.statusCode := by omega
  have hge : 200 ≤ msg.statusCode := by omega
  have hafter : after (recvStatus msg) s =
      after (receivedStatus msg) { s with sent := s.sent ++ [.request .ACK msg.cseq] } := by
    rcases h with h | h
    · simp [after, recvStatus, getAgent, h, UaStateInCall.recvStatus, h200, hgt, send]
    · simp [after, recvStatus, getAgent, h, UaStateInHold.recvStatus, h200, hge, hmethod, send]
  rw [hafter]
  exact receivedStatus_failure_state (s := { s with sent := s.sent ++ [.request .ACK msg.cseq] }) hactive hs hmethod
    hcode

/-! ## What comes in between -/

/-- A request of the peer or a provisional response. -/
def Op.Between : Op → Prop
  | .status msg _ => msg.statusCode < 200
  | .request _ => True
  | _ => False

/-- A re-INVITE of the peer. -/
def Op.reInvites : Op → Bool
  | .request cmd => cmd.method == .INVITE
  | _ => false

/-- A BYE or a CANCEL of the peer. -/
def Op.hangsUp : Op → Bool
  | .request cmd => cmd.method == .BYE || cmd.method == .CANCEL
  | _ => false

variable {c : Call} {op : Op} {start : CallAgent}

theorem live_of_run {ops : List Op} (h : ((Call.machine start).run c ops).Live) : c.Live := by
  induction ops generalizing c with
  | nil => exact h
  | cons op ops ih => exact live_of_step (ih h)

theorem between_over (hop : op.Between) (hlive : c.Live) (hnext : (c.step op).Live)
    (h : c.agent.agent.myState.over = true) : (c.step op).agent.agent.myState.over = true := by
  refine step_of_ends (P := fun t => t.agent.myState.over = true) hlive hnext.1 ?_
  cases op with
  | status msg generated => exact ends_recvStatus_over h hop
  | request cmd => exact ends_recvRequest_over h
  | _ => exact hop.elim

theorem run_between_over {between : List Op} (hbetween : ∀ op ∈ between, op.Between)
    (hlive : ((Call.machine start).run c between).Live) (h : c.agent.agent.myState.over = true) :
    ((Call.machine start).run c between).agent.agent.myState.over = true := by
  induction between generalizing c with
  | nil => exact h
  | cons op ops ih =>
    have hnext : (c.step op).Live := live_of_run hlive
    refine ih (fun op' hop' => hbetween op' (List.mem_cons_of_mem _ hop')) hlive ?_
    exact between_over (hbetween op (List.mem_cons_self ..)) (live_of_step hnext) hnext h

theorem between_dialog (hop : op.Between) (hlive : c.Live) (hnext : (c.step op).Live) (h : c.agent.InDialog) :
    if op.hangsUp then (c.step op).agent.agent.myState.over = true
    else (c.step op).agent.agent.myState =
      if op.reInvites then c.agent.agent.myState.flip else c.agent.agent.myState := by
  cases op with
  | status msg generated =>
    have hstate := recvStatus_provisional_dialog hlive.2 h hop
    rw [Call.step, if_pos hlive]
    simpa [Op.hangsUp, Op.reInvites, Op.act] using hstate
  | request cmd =>
    have hstate := step_of_ends (P := fun t => t.agent.myState = c.agent.agent.myState.onRequest cmd.method) hlive
      hnext.1 (ends_recvRequest_dialog h)
    cases hmethod : cmd.method <;> simp [hstate, hmethod, Op.hangsUp, Op.reInvites, UaState.onRequest, UaState.over]
  | _ => exact hop.elim

theorem inDialog_flip {t : CallAgent} (h : s.InDialog)
    (ht : t.agent.myState = s.agent.myState.flip ∨ t.agent.myState = s.agent.myState) : t.InDialog := by
  unfold CallAgent.InDialog at *
  rcases ht with ht | ht <;> rcases h with h | h <;> simp [ht, h, UaState.flip]

theorem run_between {between : List Op} (hbetween : ∀ op ∈ between, op.Between)
    (hlive : ((Call.machine start).run c between).Live) (h : c.agent.InDialog) :
    if between.any Op.hangsUp then ((Call.machine start).run c between).agent.agent.myState.over = true
    else ((Call.machine start).run c between).agent.agent.myState =
      UaState.flip^[between.countP Op.reInvites] c.agent.agent.myState := by
  induction between generalizing c with
  | nil => simp
  | cons op ops ih =>
    have hnext : (c.step op).Live := live_of_run hlive
    have hstep := between_dialog (hbetween op (List.mem_cons_self ..)) (live_of_step hnext) hnext h
    have hrest (op' : Op) (hop' : op' ∈ ops) : op'.Between := hbetween op' (List.mem_cons_of_mem _ hop')
    rw [Machine.run_cons] at hlive ⊢
    rw [List.any_cons]
    cases hhang : op.hangsUp with
    | true =>
      rw [if_pos hhang] at hstep
      rw [Bool.true_or, if_pos rfl]
      exact run_between_over hrest hlive hstep
    | false =>
      rw [if_neg (by simp [hhang])] at hstep
      have hdialog : (c.step op).agent.InDialog := by
        refine inDialog_flip h ?_
        rw [hstep]
        split
        · exact Or.inl rfl
        · exact Or.inr rfl
      have hcount : UaState.flip^[(op :: ops).countP Op.reInvites] c.agent.agent.myState =
          UaState.flip^[ops.countP Op.reInvites] (c.step op).agent.agent.myState := by
        rw [hstep, List.countP_cons]
        cases op.reInvites with
        | true => rfl
        | false => rfl
      rw [Bool.false_or, hcount]
      exact ih hrest hlive hdialog

theorem flip_involutive : Function.Involutive UaState.flip := by
  intro u
  cases u <;> rfl

/-- The re-INVITE of this side and those of the peer leave the state it was in exactly where they are even in number. -/
theorem flips_eq_iff (h : s.InDialog) (k : Nat) :
    UaState.flip^[k] s.agent.myState.flip = s.agent.myState ↔ Odd k := by
  have hne : s.agent.myState.flip ≠ s.agent.myState := by
    rcases h with h | h <;> rw [h] <;> decide
  rcases Nat.even_or_odd k with hk | hk
  · rw [flip_involutive.iterate_even hk]
    exact ⟨fun heq => (hne heq).elim, fun hodd => (Nat.not_even_iff_odd.mpr hodd hk).elim⟩
  · rw [flip_involutive.iterate_odd hk]
    exact ⟨fun _ => hk, fun _ => flip_involutive _⟩

theorem inDialog_flips {t : CallAgent} {k : Nat} (h : s.InDialog)
    (ht : t.agent.myState = UaState.flip^[k] s.agent.myState) : t.InDialog := by
  refine inDialog_flip h ?_
  rcases Nat.even_or_odd k with hk | hk
  · rw [flip_involutive.iterate_even hk] at ht
    exact Or.inr ht
  · rw [flip_involutive.iterate_odd hk] at ht
    exact Or.inl ht

theorem outside_of_over {u : UaState} (h : u.over = true) : u.outside = true := by
  cases u <;> first | rfl | cases h

theorem not_outside_of_inDialog (h : s.InDialog) : s.agent.myState.outside = false := by
  rcases h with h | h <;> rw [h] <;> rfl

/-- A hold or a resume of a dialog that the peer refuses leaves the user agent in its old state exactly where the peer
has in between neither hung up nor sent an even number of re-INVITEs. -/
theorem refused_reInvite_restores_iff {invite : InviteMsg} (hstart : start.Starts invite)
    (hc : (Call.machine start).Reachable c) (hlive : c.Live) (hdialog : c.agent.InDialog)
    (hop : op = .hold ∨ op = .resume) (hsent : (c.step op).exit = none) {between : List Op}
    (hbetween : ∀ op ∈ between, op.Between) (hlast : ((Call.machine start).run (c.step op) between).Live)
    (hmethod : msg.method = .INVITE) (hcode : 300 ≤ msg.statusCode) (generated : Bool) :
    ((Call.machine start).run c (op :: (between ++ [.status msg generated]))).agent.agent.myState =
        c.agent.agent.myState ↔
      between.any Op.hangsUp = false ∧ Odd (between.countP Op.reInvites) := by
  have hgt : 200 < msg.statusCode := by omega
  have hflip : (c.step op).agent.agent.myState = c.agent.agent.myState.flip :=
    step_of_ends (P := fun t => t.agent.myState = c.agent.agent.myState.flip) hlive hsent
      (ends_reInvite_flips hop hlive.2 hdialog)
  have hnext : (c.step op).agent.InDialog := inDialog_flip hdialog (Or.inl hflip)
  have hrun := run_between hbetween hlast hnext
  rw [Machine.run_cons, Machine.run_concat]
  -- the state before the failure is `d`
  show ((((Call.machine start).run (c.step op) between).step (.status msg generated)).agent.agent.myState = _) ↔ _
  have hreach : (Call.machine start).Reachable ((Call.machine start).run (c.step op) between) :=
    (hc.next op).run between
  generalize (Call.machine start).run (c.step op) between = d at *
  rw [Call.step, if_pos hlast]
  cases hhang : between.any Op.hangsUp with
  | true =>
    rw [if_pos hhang] at hrun
    have hout : (after (Op.status msg generated).act d.agent).agent.myState.outside = true :=
      StaysOut.recvStatus hgt d.agent (outside_of_over hrun)
    simp only [Bool.true_eq_false, false_and, iff_false]
    intro heq
    rw [heq, not_outside_of_inDialog hdialog] at hout
    cases hout
  | false =>
    rw [if_neg (by simp [hhang])] at hrun
    have hd : d.agent.InDialog := inDialog_flips hnext hrun
    have hcontrol : d.agent.myState ≠ .TRYING := by
      intro htrying
      have hout := early_of_reachable (early_of_starts hstart) hreach htrying
      rw [not_outside_of_inDialog hd] at hout
      cases hout
    have hstay := recvStatus_failure_dialog hlast.2 hcontrol hd hmethod hcode
    have hstate : (after (Op.status msg generated).act d.agent).agent.myState = d.agent.agent.myState := hstay
    rw [hstate, hrun, hflip, flips_eq_iff hdialog]
    simp

/-- A re-INVITE of the peer. -/
def peerInvite : Op :=
  .request
    { cseq := 1
      toUrl := .SIP_URL "sip:alice@here"
      fromUrl := .SIP_URL "sip:bob@there"
      contactHere := false
      contactList := [.SIP_URL "sip:bob@there"]
      recordRouteList := []
      sdp := some ⟨true⟩
      method := .INVITE }

/-- The hold crosses a re-INVITE of the peer and is refused: the call is back in its state. -/
theorem refused_reInvite_restores_crossed :
    ((Call.machine (client firstInvite)).run
        ((Call.machine (client firstInvite)).run (Call.machine (client firstInvite)).init
          [response 180 1, response 200 1])
        (.hold :: ([peerInvite] ++ [response 486 2]))).agent.agent.myState = .INCALL := by
  have hbetween : ∀ op ∈ [peerInvite], op.Between := by
    intro op hop
    rw [List.mem_singleton.mp hop]
    exact trivial
  refine ((refused_reInvite_restores_iff (Or.inl rfl) ⟨[response 180 1, response 200 1], rfl⟩ ?_ ?_ (Or.inl rfl) ?_
    hbetween ?_ ?_ ?_ false).mpr ⟨?_, ?_⟩).trans ?_ <;> decide

/-- A hold that is refused leaves the call on hold. -/
theorem refused_hold_stays :
    ¬((Call.machine (client firstInvite)).run (Call.machine (client firstInvite)).init
        [response 180 1, response 200 1, .hold, response 486 2]).agent.agent.myState =
      ((Call.machine (client firstInvite)).run (Call.machine (client firstInvite)).init
        [response 180 1, response 200 1]).agent.agent.myState := by
  decide

end Vocal.Ua
