import Vocal.Ua.Ending

/-!
# Provisional responses

A response below 200 is not to end a call. The controller tears a held call down at any response but the 200 to its
INVITE, so the call survives exactly where the controller is not in the hold or the state of the user agent keeps the
response to itself.
-/

namespace Vocal.Ua

open AgentM UaBase Vocal.Comp CallAgent

/-- A BYE or a CANCEL. -/
def Sent.isHangup : Sent → Bool
  | .request .BYE _ => true
  | .request .CANCEL _ => true
  | _ => false

/-- The call goes on: the controller is not taken to the tear-down or back to the start, no BYE and no CANCEL is sent
and the media session is not freed. -/
def GoesOn (s t : CallAgent) : Prop :=
  (t.myState = .TEAR_DOWN ∨ t.myState = .INIT → t.myState = s.myState) ∧
    t.sent.filter Sent.isHangup = s.sent.filter Sent.isHangup ∧ t.freedMedia = s.freedMedia

def Op.Provisional : Op → Prop
  | .status msg _ => msg.statusCode < 200
  | _ => False

/-- The states that hand a provisional response on to the controller. -/
def UaState.forwards : UaState → Bool
  | .C_TRYING | .REDIRECT | .INCALL | .HOLD | .END => true
  | .IDLE | .S_TRYING | .RINGING | .FAILURE => false

/-- A held call whose user agent hands the response on. -/
def Call.HeldForwarding (c : Call) : Prop :=
  c.Live ∧ c.agent.myState = .HOLD ∧ c.agent.agent.myState.forwards = true

variable {s : CallAgent} {msg : StatusMsg}

theorem goesOn_refl (s : CallAgent) : GoesOn s s := ⟨fun _ => rfl, rfl, rfl⟩

theorem run_receivedStatus_provisional (hactive : s.myActiveFlg = true) (hcode : msg.statusCode < 200) :
    receivedStatus msg s =
      match s.myState with
      | .TRYING =>
        if msg.statusCode = 180 ∨ msg.statusCode = 183 then .ok () { s with myState := .UAC_RINGING } else .ok () s
      | .HOLD => .ok () s.freed.dropped
      | _ => .ok () s := by
  have h200 : msg.statusCode ≠ 200 := by omega
  have hgt : ¬200 < msg.statusCode := by omega
  have h302 : msg.statusCode ≠ 302 := by omega
  have h480 : msg.statusCode ≠ 480 := by omega
  have h401 : ¬(msg.statusCode = 401 ∨ msg.statusCode = 407) := by omega
  -- without the parts for 200, 302 and 480 only the controller's state is left
  have htail {t : CallAgent} (h : ControlState.recvStatus msg s = .ok () t) : receivedStatus msg s = .ok () t := by
    refine run_catch_ok ?_
    rw [run_bind_ok h]
    simp [h200, h302, h480]
  cases h : s.myState with
  | TRYING =>
    have hrecv : ControlState.recvStatus msg s =
        if msg.statusCode = 180 ∨ msg.statusCode = 183 then .ok () { s with myState := .UAC_RINGING }
        else .ok () s := by
      simp [ControlState.recvStatus, h, h200, h401, h302, hgt, ControlState.changeState]
    by_cases hring : msg.statusCode = 180 ∨ msg.statusCode = 183
    · rw [if_pos hring] at hrecv ⊢
      exact htail hrecv
    · rw [if_neg hring] at hrecv ⊢
      exact htail hrecv
  | HOLD =>
    refine htail ?_
    simp only [ControlState.recvStatus, run_get_bind, h, h200, false_and, if_false]
    exact run_callFailed_hold hactive h
  | UAC_RINGING => exact htail (by simp [ControlState.recvStatus, h, h200, hgt])
  | INIT | UAS_RINGING | IN_CALL | TEAR_DOWN => exact htail (by simp [ControlState.recvStatus, h])

theorem receivedStatus_provisional_ua (hactive : s.myActiveFlg = true) (hcode : msg.statusCode < 200) :
    (after (receivedStatus msg) s).agent.myState = s.agent.myState := by
  rw [after, run_receivedStatus_provisional hactive hcode]
  cases hs : s.myState with
  | TRYING => by_cases hring : msg.statusCode = 180 ∨ msg.statusCode = 183 <;> simp [hring]
  | HOLD | INIT | UAC_RINGING | UAS_RINGING | IN_CALL | TEAR_DOWN => rfl

theorem goesOn_receivedStatus_iff (hactive : s.myActiveFlg = true) (hcode : msg.statusCode < 200) :
    GoesOn s (after (receivedStatus msg) s) ↔ s.myState ≠ .HOLD := by
  rw [after, run_receivedStatus_provisional hactive hcode]
  cases h : s.myState with
  | TRYING =>
    by_cases hring : msg.statusCode = 180 ∨ msg.statusCode = 183
    · simp [hring, GoesOn]
    · simp [hring, goesOn_refl]
  | HOLD => simp [GoesOn, CallAgent.freed, CallAgent.dropped, h]
  | INIT | UAC_RINGING | UAS_RINGING | IN_CALL | TEAR_DOWN => simp [goesOn_refl]

theorem goesOn_forwarded_iff (u : UaState) (hactive : s.myActiveFlg = true) (hcode : msg.statusCode < 200) :
    GoesOn s (after (do changeState u; receivedStatus msg) s) ↔ s.myState ≠ .HOLD := by
  have hua : ({ s with agent := { s.agent with myState := u } } : CallAgent).myActiveFlg = true := hactive
  exact goesOn_receivedStatus_iff hua hcode

theorem goesOn_recvStatus_iff (hactive : s.myActiveFlg = true) (hcode : msg.statusCode < 200) :
    GoesOn s (after (recvStatus msg) s) ↔ ¬(s.myState = .HOLD ∧ s.agent.myState.forwards = true) := by
  have h200 : msg.statusCode ≠ 200 := by omega
  have hgt : ¬200 < msg.statusCode := by omega
  have hge : ¬200 ≤ msg.statusCode := by omega
  have hplain := goesOn_receivedStatus_iff hactive hcode
  -- the first 18x takes the two states of a pending INVITE to the ringing
  have hring : GoesOn s (after (do
      if 180 ≤ msg.statusCode then changeState .RINGING
      receivedStatus msg) s) ↔ s.myState ≠ .HOLD := by
    by_cases h180 : 180 ≤ msg.statusCode
    · simpa [h180] using goesOn_forwarded_iff .RINGING hactive hcode
    · simpa [h180] using hplain
  cases hua : s.agent.myState with
  | IDLE | S_TRYING =>
    have hafter : after (recvStatus msg) s = s := by simp [after, recvStatus, getAgent, hua]
    simp [hafter, goesOn_refl, UaState.forwards]
  | RINGING =>
    have hafter : after (recvStatus msg) s = s := by
      simp [after, recvStatus, getAgent, hua, UaStateRinging.recvStatus, h200, hgt]
    simp [hafter, goesOn_refl, UaState.forwards]
  | FAILURE =>
    have hafter : after (recvStatus msg) s = s := by
      cases hrole : s.myRole <;>
        simp [after, recvStatus, getAgent, hua, UaStateFailure.recvStatus, hgt, assertOr, hrole]
    simp [hafter, goesOn_refl, UaState.forwards]
  | C_TRYING =>
    have hafter : after (recvStatus msg) s = after (do
        if 180 ≤ msg.statusCode then changeState .RINGING
        receivedStatus msg) s := by
      simp [after, recvStatus, getAgent, hua, UacStateTrying.recvStatus, h200, hgt]
    rw [hafter, hring]
    simp [UaState.forwards]
  | REDIRECT =>
    have hafter : after (recvStatus msg) s = after (do
        if 180 ≤ msg.statusCode then changeState .RINGING
        receivedStatus msg) s := by
      simp [after, recvStatus, getAgent, hua, UaStateRedirect.recvStatus, h200, hgt]
    rw [hafter, hring]
    simp [UaState.forwards]
  | INCALL =>
    have hafter : after (recvStatus msg) s = after (receivedStatus msg) s := by
      simp [after, recvStatus, getAgent, hua, UaStateInCall.recvStatus, h200, hgt]
    rw [hafter, hplain]
    simp [UaState.forwards]
  | HOLD =>
    have hafter : after (recvStatus msg) s = after (receivedStatus msg) s := by
      simp [after, recvStatus, getAgent, hua, UaStateInHold.recvStatus, h200, hge]
    rw [hafter, hplain]
    simp [UaState.forwards]
  | END =>
    have hafter : after (recvStatus msg) s = after (do changeState .IDLE; receivedStatus msg) s := by
      simp [after, recvStatus, getAgent, hua, UaStateEnd.recvStatus]
    rw [hafter, goesOn_forwarded_iff .IDLE hactive hcode]
    simp [UaState.forwards]

/-- Along every run the provisional responses leave the call going exactly where none of them reaches a held call. -/
theorem provisional_goesOn_iff (start : CallAgent) (ops : List Op) :
    (Call.machine start).Along (fun c op => op.Provisional → GoesOn c.agent (c.step op).agent)
        (Call.machine start).init ops ↔
      (Call.machine start).Along (fun c op => op.Provisional → ¬c.HeldForwarding) (Call.machine start).init ops := by
  refine Machine.along_congr (fun c op => ?_) _ ops
  cases op with
  | status msg generated =>
    refine imp_congr_right fun hcode => ?_
    by_cases hlive : c.Live
    · have hnext : (c.step (.status msg generated)).agent = after (recvStatus msg) c.agent := by
        simp only [Call.step, if_pos hlive, Op.act]
      rw [hnext, goesOn_recvStatus_iff hlive.2 hcode]
      simp [Call.HeldForwarding, hlive]
    · have hnext : c.step (.status msg generated) = c := by simp only [Call.step, if_neg hlive]
      simp [hnext, goesOn_refl, Call.HeldForwarding, hlive]
  | _ => simp [Op.Provisional]

/-- An INVITE of this side. -/
def firstInvite : InviteMsg where
  cseq := 1
  toUrl := .SIP_URL "sip:bob@there"
  fromUrl := .SIP_URL "sip:alice@here"
  contactHere := true
  contactList := [.SIP_URL "sip:alice@here"]
  recordRouteList := []
  sdp := some ⟨true⟩

/-- A response of the peer to an INVITE of this side. -/
def response (statusCode cseq : Nat) : Op :=
  .status
    { statusCode := statusCode
      method := .INVITE
      cseq := cseq
      contactList := [.SIP_URL "sip:bob@there"]
      recordRouteList := []
      sdp := some ⟨true⟩ } false

/-- The call is answered, put on hold, and the 100 to the INVITE that takes it back tears it down. -/
theorem trying_ends_held_call : ¬(Call.machine (client firstInvite)).Along
    (fun c op => op.Provisional → GoesOn c.agent (c.step op).agent) (Call.machine (client firstInvite)).init
    [response 180 1, response 200 1, .hold, response 200 2, .resume, response 100 3] := by
  intro h
  have hlast := h.2.2.2.2.2.1 (show 100 < 200 by decide)
  revert hlast
  unfold GoesOn
  decide

end Vocal.Ua
