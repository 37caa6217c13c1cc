import Mathlib.Data.List.Induction
import Vocal.Sip.SentRequestDB

/-!
# What the application gets on the client side

`response_solicited_and_final_once`: a response goes up only for a request that an earlier
`processSend` stored in a call that was kept since, and after a final response no other final
response of the transaction goes up while the call is kept.
-/

namespace Vocal.Sip.SipSentRequestDB

open Store (deref Keeps)

variable {ctx : SipAppContext} {s : SipTransactionDB} {response : StatusMsg} {msg : SipCommand}

/-! ### Where pairs come from -/

theorem Sent.origin {s' : SipTransactionDB} (hsent : Sent s msg s') (hok : DbOk s) {k : Data}
    {key : Bool × Data × Data × Data} (hpair : HasPair k key (fun _ => True) s') :
    HasPair k key (fun _ => True) s ∨
      msg.transId.call_id = k ∧ msg.transId.key = key ∧ ¬ Stored msg.transId s := by
  have hkeeps : Keeps (·.trans_id) s.heap s'.heap :=
    (Keeps.append _ _ _).trans (hsent.stops.keeps fun _ => rfl)
  obtain ⟨c, hget, hstopped⟩ := hsent.getElem?
  cases hsent with
  | repeated => exact Or.inl (hpair.back hok hkeeps fun call hcall => ⟨call, hcall, rfl⟩)
  | stored s' call call' hcall hnew _ hmsgs htable =>
    by_cases hk : k = msg.transId.call_id
    swap
    · refine Or.inl (hpair.back hok hkeeps fun call hcall => ⟨call, ?_, rfl⟩)
      rw [htable, SipTransactionDB.setCall_table_of_ne _ _ hk] at hcall
      exact hcall
    subst hk
    obtain ⟨call'', mp, hcall'', hmem, hkey, _⟩ := hpair
    rw [htable, SipTransactionDB.setCall_table_self, Option.some_inj] at hcall''
    rw [← hcall'', hmsgs] at hmem
    rcases List.mem_append.mp hmem with hold | hlast
    · -- a pair the call had already
      rcases hcall with hcall | ⟨_, rfl⟩
      · have hmpOk := (hok _ call hcall).pairs mp hold
        exact Or.inl ⟨call, mp, hcall, hold, (requestKey_of_keeps hkeeps rfl hmpOk) ▸ hkey, trivial⟩
      · cases hold
    · refine Or.inr ⟨rfl, ?_, ?_⟩
      · have hid : c.trans_id = msg.transId := by
          rcases hstopped with rfl | rfl
          · exact sentContainer_trans_id msg
          · exact sentContainer_trans_id msg
        rw [List.mem_singleton.mp hlast, requestKey, Store.deref_some, hget, Option.map_some,
          Option.some_inj, hid] at hkey
        exact hkey
      · rintro ⟨call₀, mp₀, hcall₀, hmem₀, hkey₀, _⟩
        rcases hcall with hcall | ⟨hnone, _⟩
        · obtain rfl := Option.some.inj (hcall₀.symm.trans hcall)
          exact hnew mp₀ hmem₀ hkey₀
        · rw [hnone] at hcall₀; cases hcall₀

theorem Responded.origin {out : SipTransactionDB × Option SipMsgQueue}
    (hresp : Responded ctx s response out) (hok : DbOk s) {k : Data}
    {key : Bool × Data × Data × Data} (hpair : HasPair k key (fun _ => True) out.1) :
    HasPair k key (fun _ => True) s := by
  refine hpair.back hok ((Keeps.append _ _ _).trans (hresp.stops.keeps fun _ => rfl)) ?_
  intro call' hcall'
  cases hresp with
  | unmatched => exact ⟨call', hcall', rfl⟩
  | forwarded s' call i mp r _ _ _ _ _ _ htable => exact ⟨call', htable ▸ hcall', rfl⟩
  | ignored s' call i mp r _ _ _ _ _ _ _ htable => exact ⟨call', htable ▸ hcall', rfl⟩
  | final s' call i mp r queue _ hcall _ _ _ _ _ _ htable =>
    rw [htable] at hcall'
    by_cases hk : k = response.transId.call_id
    · rw [hk, SipTransactionDB.setCall_table_self, Option.some_inj] at hcall'
      exact ⟨call, hk ▸ hcall, hcall' ▸ setResponse_requests call i _⟩
    · rw [SipTransactionDB.setCall_table_of_ne _ _ hk] at hcall'
      exact ⟨call', hcall', rfl⟩

/-- The step lemma: a pair was there before, or this step's send stored it. -/
theorem next_origin (hok : DbOk s) (op : Op) {k : Data} {key : Bool × Data × Data × Data}
    (hpair : HasPair k key (fun _ => True) ((sentRequestDB ctx).next s op)) :
    HasPair k key (fun _ => True) s ∨
      ∃ now msg, op = .processSend now msg ∧ msg.transId.call_id = k ∧ msg.transId.key = key ∧
        ¬ Stored msg.transId s := by
  cases op with
  | processSend now msg =>
    rcases (processSend_sent hok now msg).origin hok hpair with hold | ⟨hk, hkey, hnew⟩
    · exact Or.inl hold
    · exact Or.inr ⟨now, msg, rfl, hk, hkey, hnew⟩
  | processRecv response => exact Or.inl ((recv_responded hok ctx response).origin hok hpair)
  | setCallPurgeTimer id t =>
    refine Or.inl (hpair.back hok ?_ ?_)
    · rw [show ((sentRequestDB ctx).next s (.setCallPurgeTimer id t)).heap = s.heap from
        setCallPurgeTimer_heap _ _ _]
      exact Keeps.refl _ _
    · intro call' hcall'
      obtain ⟨call, hcall, hmsgs⟩ := setCallPurgeTimer_table hcall'
      exact ⟨call, hcall, by rw [hmsgs]⟩
  | purgeOldCalls now =>
    have hheap : Keeps (·.trans_id) s.heap (s.purgeOldCalls now).heap := Keeps.refl _ _
    exact Or.inl (hpair.back hok hheap fun call' hcall' => ⟨call', purgeOldCalls_table hcall', rfl⟩)

/-- The run `ops` stored a request with the id `key` in the call `k`, which was kept since. -/
def StoredIn (ctx : SipAppContext) (ops : List Op) (k : Data) (key : Bool × Data × Data × Data) :
    Prop :=
  ∃ pre now msg post, ops = pre ++ .processSend now msg :: post ∧
    msg.transId.call_id = k ∧ msg.transId.key = key ∧
    ¬ Stored msg.transId ((sentRequestDB ctx).run .empty pre) ∧
    (sentRequestDB ctx).Throughout (CallKept k)
      ((sentRequestDB ctx).next ((sentRequestDB ctx).run .empty pre) (.processSend now msg)) post

/-- The run lemma: every pair was stored by a send of the run. -/
theorem storedIn_of_hasPair (ctx : SipAppContext) (ops : List Op) {k : Data}
    {key : Bool × Data × Data × Data}
    (hpair : HasPair k key (fun _ => True) ((sentRequestDB ctx).run .empty ops)) :
    StoredIn ctx ops k key := by
  induction ops using List.reverseRecOn with
  | nil =>
    obtain ⟨call, mp, hcall, _⟩ := hpair
    cases hcall
  | append_singleton ops op ih =>
    have hok : DbOk ((sentRequestDB ctx).run .empty ops) := reachable_ok ⟨ops, rfl⟩
    have hkept : CallKept k ((sentRequestDB ctx).run .empty (ops ++ [op])) := by
      obtain ⟨call, mp, hcall, _⟩ := hpair
      rw [CallKept, hcall]
      rfl
    rw [Machine.run_concat] at hpair hkept
    rcases next_origin hok op hpair with hold | ⟨now, msg, rfl, hk, hkey, hnew⟩
    · obtain ⟨pre, now, msg, post, rfl, hk, hkey, hnew, hthrough⟩ := ih hold
      refine ⟨pre, now, msg, post ++ [op], by simp, hk, hkey, hnew, hthrough.concat ?_⟩
      rw [Machine.run_append, Machine.run_cons] at hkept
      rw [Machine.run_concat]
      exact hkept
    · exact ⟨ops, now, msg, [], rfl, hk, hkey, hnew, hkept⟩

/-! ### Responses -/

theorem Responded.stored {out : SipTransactionDB × Option SipMsgQueue}
    (hresp : Responded ctx s response out) (hout : out.2.isSome) : Stored response.transId s := by
  cases hresp with
  | unmatched => cases hout
  | forwarded s' call i mp r _ hcall hmp hkey =>
    exact ⟨call, mp, hcall, List.mem_of_getElem? hmp, hkey, trivial⟩
  | ignored => cases hout
  | final s' call i mp r queue _ hcall hmp hkey =>
    exact ⟨call, mp, hcall, List.mem_of_getElem? hmp, hkey, trivial⟩

theorem Responded.final_stored {out : SipTransactionDB × Option SipMsgQueue}
    (hresp : Responded ctx s response out) (hok : DbOk s) (hout : out.2.isSome)
    (hfinal : ¬ Forwarded ctx response) :
    HasPair response.transId.call_id response.transId.key (fun mp => mp.response.isSome) out.1 := by
  have hkeeps : Keeps (·.trans_id) s.heap out.1.heap :=
    (Keeps.append _ _ _).trans (hresp.stops.keeps fun _ => rfl)
  cases hresp with
  | unmatched => cases hout
  | forwarded s' call i mp r hforward => exact absurd hforward hfinal
  | ignored => cases hout
  | final s' call i mp r queue _ hcall hmp hkey _ _ _ _ htable =>
    have hget : (call.setResponse i s.heap.length).msgs[i]? =
        some { mp with response := some s.heap.length } := by
      simp [SipCallContainer.setResponse, hmp]
    refine ⟨_, _, by rw [htable, SipTransactionDB.setCall_table_self], List.mem_of_getElem? hget, ?_,
      rfl⟩
    exact (requestKey_of_keeps hkeeps rfl
      ((hok _ call hcall).pairs mp (List.mem_of_getElem? hmp))).trans hkey

theorem Responded.ignored_of_hasPair {out : SipTransactionDB × Option SipMsgQueue}
    (hresp : Responded ctx s response out) (hok : DbOk s) (hfinal : ¬ Forwarded ctx response)
    (hpair : HasPair response.transId.call_id response.transId.key
      (fun mp => mp.response.isSome) s) : out.2 = none := by
  cases hresp with
  | unmatched => rfl
  | forwarded s' call i mp r hforward => exact absurd hforward hfinal
  | ignored => rfl
  | final s' call i mp r queue _ hcall hmp hkey _ hnone =>
    obtain ⟨call', mp', hcall', hmem', hkey', hsome⟩ := hpair
    obtain rfl := Option.some.inj (hcall'.symm.trans hcall)
    obtain rfl := (hok _ call' hcall).pair_unique hmem' (List.mem_of_getElem? hmp) hkey' hkey
    rw [hnone] at hsome
    cases hsome

/-- **Client transactions.** In every run outside the proxy context, a response that goes up answers
a request that the run stored and whose call was kept since; and once a final response went up, no
final response of the same transaction does while the call is kept, whatever is processed in
between. -/
theorem response_solicited_and_final_once (hctx : ctx ≠ .APP_CONTEXT_PROXY) (ops : List Op)
    (response : StatusMsg)
    (hout : ((sentRequestDB ctx).out ((sentRequestDB ctx).run .empty ops)
      (.processRecv response)).isSome) :
    StoredIn ctx ops response.transId.call_id response.transId.key ∧
    (200 ≤ response.statusCode → ∀ (ops' : List Op) (response' : StatusMsg),
      (sentRequestDB ctx).Throughout (CallKept response.transId.call_id)
        ((sentRequestDB ctx).run .empty (ops ++ [.processRecv response])) ops' →
      response'.transId.equals response.transId = true →
      response'.transId.call_id = response.transId.call_id → 200 ≤ response'.statusCode →
      (sentRequestDB ctx).out ((sentRequestDB ctx).run .empty (ops ++ .processRecv response :: ops'))
        (.processRecv response') = none) := by
  have hok : DbOk ((sentRequestDB ctx).run .empty ops) := reachable_ok ⟨ops, rfl⟩
  have hresp := recv_responded hok ctx response
  have hforward : ∀ r : StatusMsg, 200 ≤ r.statusCode → ¬ Forwarded ctx r := by
    rintro r hfinal (hlt | ⟨hproxy, _⟩)
    · omega
    · exact hctx hproxy
  refine ⟨storedIn_of_hasPair ctx ops (hresp.stored hout), ?_⟩
  intro hfinal ops' response' hkept hid hcallId hfinal'
  have hfirst := hresp.final_stored hok hout (hforward response hfinal)
  rw [Machine.run_concat] at hkept
  obtain ⟨hok', hpair⟩ := Machine.run_of_guarded
    (P := fun s => DbOk s ∧ HasPair response.transId.call_id response.transId.key
      (fun mp => mp.response.isSome) s)
    (fun s op hs hk => ⟨next_ok ctx s op hs.1,
      hs.2.keepsCalls (fun _ _ _ hresp h => hresp h) hs.1 (next_grows ctx hs.1 op) hk⟩)
    ops' _ ⟨(hresp.ok hok).1, hfirst⟩ hkept.along
  rw [← hcallId, ← SipTransactionId.equals_iff.mp hid] at hpair
  rw [Machine.run_append, Machine.run_cons]
  exact (recv_responded hok' ctx response').ignored_of_hasPair hok' (hforward response' hfinal') hpair

theorem response_solicited_and_final_once_invite :
    (sentRequestDB .APP_CONTEXT_GENERIC).out ((sentRequestDB .APP_CONTEXT_GENERIC).run .empty
      [.processSend 0 (inviteFrom "h".toList "1".toList),
        .processRecv (.ofCommand "t".toList (inviteFrom "h".toList "1".toList) 200)])
      (.processRecv (.ofCommand "t".toList (inviteFrom "h".toList "1".toList) 200)) = none :=
  (response_solicited_and_final_once (by decide) [.processSend 0 (inviteFrom "h".toList "1".toList)]
    (.ofCommand "t".toList (inviteFrom "h".toList "1".toList) 200) (by decide)).2 (by decide) [] _
    (by change CallKept _ _; unfold CallKept; decide) (by decide) rfl (by decide)

end Vocal.Sip.SipSentRequestDB
