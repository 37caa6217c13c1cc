import Vocal.Sip.SentRequestDB.Isolation
import Vocal.Sip.SentResponseDB.Isolation

/-!
# Isolation of calls

Two runs of a database are compared, one with all operations and one without those of a call `b`. A
call `a` is isolated from `b` if the operations of `a` are answered alike in both runs and both end in
databases that show the same call under the local part of `a`, with the same containers.

Calls are isolated if the local parts of their Call-IDs differ. The local part alone is the key of a
call, so two calls that differ in the host only share one container.
-/

namespace Vocal.Sip

/-- The operation is about the call `c`. -/
def SipSentRequestDB.Op.isOf (c : SipCallId) : SipSentRequestDB.Op → Bool
  | .processSend _ msg => msg.headers.callId = c
  | .processRecv response => response.headers.callId = c
  | .setCallPurgeTimer id _ => id.call_id = c.localid
  | .purgeOldCalls _ => false

/-- The operation is about the call `c`. -/
def SipSentResponseDB.Op.isOf (c : SipCallId) : SipSentResponseDB.Op → Bool
  | .processSend response => response.headers.callId = c
  | .processRecv _ msg => msg.headers.callId = c
  | .setCallPurgeTimer id _ => id.call_id = c.localid
  | .purgeOldCalls _ => false

/-- Whatever is processed, the call `a` is as it would be without the operations of the call `b`. -/
def Isolated {ι : Type} (M : Machine SipTransactionDB ι (Option SipMsgQueue))
    (isOf : SipCallId → ι → Bool) (a b : SipCallId) : Prop :=
  ∀ ops : List ι,
    Alike a.localid (M.run M.init ops) (M.run M.init (ops.filter (!isOf b ·))) ∧
      (M.outs M.init ops).filter (isOf a ·.1) =
        (M.outs M.init (ops.filter (!isOf b ·))).filter (isOf a ·.1)

section unwinding

variable {ι : Type} {M : Machine SipTransactionDB ι (Option SipMsgQueue)} {call : ι → Option Data}
  {isOf : SipCallId → ι → Bool}

/-- Isolation from what one step does: it stays within its call and depends on that alone. -/
theorem isolated_of_steps (hinit : M.init = .empty)
    (hcall : ∀ c op, isOf c op = true → call op = some c.localid)
    (hwithin : ∀ db op j, Owned db → call op = some j → Within j db (M.next db op))
    (howned : ∀ db op, Owned db → Owned (M.next db op))
    (hagree : ∀ k db db' op, Alike k db db' → (∀ j, call op = some j → j = k) →
      Alike k (M.next db op) (M.next db' op) ∧ M.out db op = M.out db' op)
    {a b : SipCallId} (hne : a.localid ≠ b.localid) : Isolated M isOf a b := by
  intro ops
  have hrun := M.run_filter (!isOf b ·) (isOf a)
    (R := fun db db' => Alike a.localid db db' ∧ Owned db ∧ Owned db') ?_ ?_ ?_ ops M.init M.init ?_
  · exact ⟨hrun.1.1, hrun.2⟩
  · intro op hseen
    cases hb : isOf b op with
    | false => rfl
    | true => exact absurd (Option.some.inj ((hcall a op hseen).symm.trans (hcall b op hb))) hne
  · intro db db' op ⟨halike, hdb, hdb'⟩ hskip
    have hb : isOf b op = true := by simpa using hskip
    exact ⟨halike.within (Ne.symm hne) (hwithin db op _ hdb (hcall b op hb)), howned db op hdb, hdb'⟩
  · intro db db' op ⟨halike, hdb, hdb'⟩ _
    by_cases hop : ∀ j, call op = some j → j = a.localid
    · obtain ⟨hnext, hout⟩ := hagree _ db db' op halike hop
      exact ⟨⟨hnext, howned db op hdb, howned db' op hdb'⟩, fun _ => hout⟩
    · -- an operation of a third call
      push Not at hop
      obtain ⟨j, hj, hja⟩ := hop
      have hleft := halike.within hja (hwithin db op j hdb hj)
      have hright := (hleft.symm.within hja (hwithin db' op j hdb' hj)).symm
      refine ⟨⟨hright, howned db op hdb, howned db' op hdb'⟩, fun hseen => ?_⟩
      exact absurd (Option.some.inj (hj.symm.trans (hcall a op hseen))) hja
  · rw [hinit]
    exact ⟨⟨_, Sim.empty _⟩, Owned.empty, Owned.empty⟩

end unwinding

theorem SipSentRequestDB.call_of_isOf (c : SipCallId) (op : SipSentRequestDB.Op)
    (h : op.isOf c = true) : op.call = some c.localid := by
  cases op with
  | processSend now msg => exact congrArg some (congrArg SipCallId.localid (of_decide_eq_true h))
  | processRecv response => exact congrArg some (congrArg SipCallId.localid (of_decide_eq_true h))
  | setCallPurgeTimer id t => exact congrArg some (of_decide_eq_true h)
  | purgeOldCalls now => cases h

theorem SipSentResponseDB.call_of_isOf (c : SipCallId) (op : SipSentResponseDB.Op)
    (h : op.isOf c = true) : op.call = some c.localid := by
  cases op with
  | processSend response => exact congrArg some (congrArg SipCallId.localid (of_decide_eq_true h))
  | processRecv tag msg => exact congrArg some (congrArg SipCallId.localid (of_decide_eq_true h))
  | setCallPurgeTimer id t => exact congrArg some (of_decide_eq_true h)
  | purgeOldCalls now => cases h

/-- **Call isolation.** Calls whose Call-IDs differ in the local part are isolated from each other in
both databases. -/
theorem calls_isolated (ctx : SipAppContext) {a b : SipCallId} (hne : a.localid ≠ b.localid) :
    Isolated (sentRequestDB ctx) SipSentRequestDB.Op.isOf a b ∧
      Isolated (sentResponseDB ctx) SipSentResponseDB.Op.isOf a b := by
  constructor
  · exact isolated_of_steps rfl SipSentRequestDB.call_of_isOf
      (fun _ _ _ hdb hop => SipSentRequestDB.next_within hdb hop) (fun _ op h => SipSentRequestDB.next_owned h op)
      (fun _ _ _ _ halike hop => SipSentRequestDB.next_agree halike hop) hne
  · exact isolated_of_steps rfl SipSentResponseDB.call_of_isOf
      (fun _ _ _ hdb hop => SipSentResponseDB.next_within hdb hop) (fun _ op h => SipSentResponseDB.next_owned h op)
      (fun _ _ _ _ halike hop => SipSentResponseDB.next_agree halike hop) hne

theorem calls_isolated_numbered :
    Isolated (sentRequestDB .APP_CONTEXT_GENERIC) SipSentRequestDB.Op.isOf
        ⟨"1".toList, "x".toList⟩ ⟨"2".toList, "x".toList⟩ ∧
      Isolated (sentResponseDB .APP_CONTEXT_GENERIC) SipSentResponseDB.Op.isOf
        ⟨"1".toList, "x".toList⟩ ⟨"2".toList, "x".toList⟩ :=
  calls_isolated .APP_CONTEXT_GENERIC (by decide)

/-- A request of the call `c` with the given method and number. -/
def requestIn (c : SipCallId) (type : Method) (notStatus : type ≠ .SIP_STATUS) (cseq method : Data) :
    SipCommand where
  type := type
  notStatus := notStatus
  requestUrl := .sipUrl { host := "x".toList, user := some "a".toList }
  headers :=
    { (inviteFrom "y".toList c.localid).headers with
      callId := c
      cseq := ⟨cseq, method⟩ }

/-- The ACK of the call `1@y` sets the number of the call `1@x`, whose BYE is then rejected. -/
theorem calls_of_one_localid_interfere :
    ¬∀ (ctx : SipAppContext) (a b : SipCallId), a ≠ b →
      Isolated (sentRequestDB ctx) SipSentRequestDB.Op.isOf a b ∧
        Isolated (sentResponseDB ctx) SipSentResponseDB.Op.isOf a b := by
  intro h
  let a : SipCallId := ⟨"1".toList, "x".toList⟩
  let b : SipCallId := ⟨"1".toList, "y".toList⟩
  have houts := ((h .APP_CONTEXT_GENERIC a b (by decide)).2
    [.processRecv [] (requestIn a .SIP_INVITE (by decide) "1".toList "INVITE".toList),
      .processRecv [] (requestIn b .SIP_ACK (by decide) "9".toList "ACK".toList),
      .processRecv [] (requestIn a .SIP_BYE (by decide) "2".toList "BYE".toList)]).2
  have hdelivered := congrArg (List.map fun entry => entry.2.isSome) houts
  revert hdelivered
  decide

end Vocal.Sip
