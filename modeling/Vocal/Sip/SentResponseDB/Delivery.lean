import Vocal.Sip.SentResponseDB

/-!
# Duplicate requests

A request that has joined a call leaves a pair in it, and the pair stays as long as the call does.
From then on a request with the same id in the same call takes the duplicate branch and nothing
goes up to the application (`request_handed_up_once`).

The duplicate branch was to answer from the store. It puts the container of the retransmitted
request where the response was, so after the first retransmission the stored response is gone
(`retransmission_evicts_response`).
-/

namespace Vocal.Sip.SipSentResponseDB

open Store (deref Keeps)

variable {ctx : SipAppContext} {tag : Data} {s : SipTransactionDB} {msg : SipCommand}

/-- The message in the response slot of the pair that `id` finds. -/
def storedResponse (db : SipTransactionDB) (id : SipTransactionId) : Option SipMsg := do
  let call ← db.getCallContainer id
  let i ← call.findMsgPair db.heap id
  let mp ← call.msgs[i]?
  SipCallContainer.slotMsg db.heap mp.response

theorem storedResponse_of_pair {db : SipTransactionDB} (hok : DbOk db) {id : SipTransactionId}
    {call : SipCallContainer} (hcall : db.table id.call_id = some call) {i : Nat} {mp : SipMsgPair}
    (hmp : call.msgs[i]? = some mp) (hkey : requestKey db.heap mp = some id.key) :
    storedResponse db id = SipCallContainer.slotMsg db.heap mp.response := by
  have hfind := (findMsgPair_eq_some_iff (hok _ call hcall) id i).mpr ⟨mp, hmp, hkey⟩
  simp only [storedResponse, SipTransactionDB.getCallContainer, hcall, Option.bind_eq_bind,
    Option.bind_some, hfind, hmp]

theorem run_hasPair (hctx : ctx ≠ .APP_CONTEXT_PROXY) {k : Data} {key : Bool × Data × Data × Data}
    {P : SipMsgPair → Prop} (hP : ∀ mp mp', mp'.request = mp.request →
      (mp.response.isSome → mp'.response.isSome) → P mp → P mp')
    (hok : DbOk s) (hpair : HasPair k key P s) {ops : List Op}
    (hkept : (sentResponseDB ctx).Throughout (CallKept k) s ops) :
    DbOk ((sentResponseDB ctx).run s ops) ∧ HasPair k key P ((sentResponseDB ctx).run s ops) := by
  refine Machine.run_of_guarded (P := fun s => DbOk s ∧ HasPair k key P s) ?_ ops s ⟨hok, hpair⟩
    hkept.along
  rintro s op ⟨hok, hpair⟩ hkept
  exact ⟨next_ok hctx s op hok, hpair.keepsCalls hP hok (next_grows hctx hok op) hkept⟩

theorem Received.hasPair {out : SipTransactionDB × Option SipMsgQueue}
    (hrecv : Received tag s msg out) (hok : DbOk s)
    (htype : ¬ (msg.type = .SIP_ACK ∨ msg.type = .SIP_CANCEL)) (hcall : (callFor s msg).isSome) :
    HasPair msg.transId.call_id msg.transId.key (fun _ => True) out.1 := by
  have hgrow := (hrecv.ok hok).2
  -- a duplicate has found its pair; that pair is still there afterwards
  have hold : ∀ (call : SipCallContainer) (i : Nat) (mp : SipMsgPair),
      s.table msg.transId.call_id = some call → call.msgs[i]? = some mp →
      requestKey s.heap mp = some msg.transId.key →
      HasPair msg.transId.call_id msg.transId.key (fun _ => True) out.1 := by
    intro call i mp hcall hmp hkey
    obtain ⟨call', hcall', _⟩ := hgrow.calls _ call hcall
    exact HasPair.keepsCalls (fun _ _ _ _ h => h) hok hgrow.keepsCalls (by rw [hcall']; rfl)
      ⟨call, mp, hcall, List.mem_of_getElem? hmp, hkey, trivial⟩
  cases hrecv with
  | stray hnone => rw [hnone] at hcall; cases hcall
  | answered db' call i mp old hcall hmp hkey => exact hold call i mp hcall hmp hkey
  | pending call i mp hcall hmp hkey => exact hold call i mp hcall hmp hkey
  | acknowledged db' call queue hack => exact absurd hack htype
  | accepted db' call _ _ _ _ hheap htable =>
    refine ⟨_, ⟨some s.heap.length, none⟩, by rw [htable, SipTransactionDB.setCall_table_self], ?_, ?_,
      trivial⟩
    · split <;> simp [SipCallContainer.addMsgPair, SipCallContainer.setCurSeqNum]
    · rw [requestKey, Store.deref_some, hheap, Store.getElem?_alloc]; rfl
  | rejected db' call _ _ _ _ _ hheap htable =>
    obtain ⟨c, hid, _, n, hheap⟩ := hheap
    refine ⟨_, ⟨some s.heap.length, some (s.heap.length + 1)⟩,
      by rw [htable, SipTransactionDB.setCall_table_self], by simp [SipCallContainer.addMsgPair], ?_,
      trivial⟩
    rw [requestKey, Store.deref_some, hheap]
    simp [hid]

/-- A request whose id has a pair in its call takes the duplicate branch: nothing is handed up, and
a stored response makes way for the request. -/
theorem Received.duplicate {out : SipTransactionDB × Option SipMsgQueue}
    (hrecv : Received tag s msg out) (hok : DbOk s) {P : SipMsgPair → Prop}
    (hpair : HasPair msg.transId.call_id msg.transId.key P s) :
    out.2 = none ∧ ((∀ mp, P mp → mp.response.isSome) →
      storedResponse out.1 msg.transId = some (.command msg)) := by
  obtain ⟨call, mp, hcall, hmem, hkey, hp⟩ := hpair
  obtain ⟨i, hi⟩ := List.mem_iff_getElem?.mp hmem
  have hfor : callFor s msg = some call := by rw [callFor, hcall]
  have hfirst : ∀ call', callFor s msg = some call' →
      ¬ ∀ mp ∈ call'.msgs, requestKey s.heap mp ≠ some msg.transId.key := by
    intro call' hcall' hnew
    rw [hfor, Option.some_inj] at hcall'
    exact hnew mp (hcall' ▸ hmem) hkey
  have hfind : call.findMsgPair s.heap msg.transId = some i :=
    (findMsgPair_eq_some_iff (hok _ call hcall) _ i).mpr ⟨mp, hi, hkey⟩
  have hok' := (hrecv.ok hok).1
  cases hrecv with
  | stray hnone => rw [hfor] at hnone; cases hnone
  | answered db' call' j mp' old hcall' hmp' hkey' _ hheap htable =>
    refine ⟨rfl, fun _ => ?_⟩
    obtain rfl := Option.some.inj (hcall'.symm.trans hcall)
    have hj : call'.findMsgPair s.heap msg.transId = some j :=
      (findMsgPair_eq_some_iff (hok _ call' hcall') _ j).mpr ⟨mp', hmp', hkey'⟩
    have htab : db'.table msg.transId.call_id = some (call'.setResponse j s.heap.length) := by
      rw [htable, SipTransactionDB.setCall_table_self]
    have hget : db'.heap[s.heap.length]? = some (requestContainer msg) := by
      rw [hheap, ← List.length_modify (SipMsgContainer.setRetransmitMax 0) s.heap old]
      exact Store.getElem?_alloc _ _
    have hmp'' : (call'.setResponse j s.heap.length).msgs[j]? =
        some { mp' with response := some s.heap.length } := by
      simp [SipCallContainer.setResponse, hmp']
    have hkeeps : Keeps (·.trans_id) s.heap db'.heap := by
      rw [hheap]
      exact (Keeps.modify _ old (g := .setRetransmitMax 0) fun _ => rfl).trans (Keeps.append _ _ _)
    have hpairOk := (hok _ call' hcall').pairs mp' (List.mem_of_getElem? hmp')
    rw [storedResponse_of_pair hok' htab hmp'' ((requestKey_of_keeps hkeeps rfl hpairOk).trans hkey'),
      SipCallContainer.slotMsg, Store.deref_some, hget]
    rfl
  | pending call' j mp' hcall' hmp' hkey' hresp =>
    refine ⟨rfl, fun hsome => ?_⟩
    obtain rfl := Option.some.inj (hcall'.symm.trans hcall)
    have hj : call'.findMsgPair s.heap msg.transId = some j :=
      (findMsgPair_eq_some_iff (hok _ call' hcall') _ j).mpr ⟨mp', hmp', hkey'⟩
    obtain rfl := Option.some.inj (hj.symm.trans hfind)
    obtain rfl := Option.some.inj (hmp'.symm.trans hi)
    have := hsome _ hp
    rw [hresp] at this
    cases this
  | acknowledged db' call' queue _ hcall' hnew => exact absurd hnew (hfirst call' hcall')
  | accepted db' call' _ hcall' hnew => exact absurd hnew (hfirst call' hcall')
  | rejected db' call' _ hcall' hnew => exact absurd hnew (hfirst call' hcall')

/-- **At-most-once delivery.** Once a request other than ACK and CANCEL has created or joined a
call, no later request of that call with an equal id is handed up while the call is kept, whatever
is sent and received in between. -/
theorem request_handed_up_once (hctx : ctx ≠ .APP_CONTEXT_PROXY)
    (hs : (sentResponseDB ctx).Reachable s)
    (htype : ¬ (msg.type = .SIP_ACK ∨ msg.type = .SIP_CANCEL)) (hcall : (callFor s msg).isSome)
    (ops : List Op) (hkept : (sentResponseDB ctx).Throughout (CallKept msg.transId.call_id)
      ((sentResponseDB ctx).next s (.processRecv tag msg)) ops)
    (tag' : Data) (msg' : SipCommand) (hid : msg'.transId.equals msg.transId = true)
    (hcallId : msg'.transId.call_id = msg.transId.call_id) :
    (sentResponseDB ctx).out ((sentResponseDB ctx).run
      ((sentResponseDB ctx).next s (.processRecv tag msg)) ops) (.processRecv tag' msg') = none := by
  have hok := reachable_ok hctx hs
  have hfirst := (recv_received hctx hok tag msg).hasPair hok htype hcall
  obtain ⟨hok', hpair⟩ := run_hasPair hctx (fun _ _ _ _ h => h)
    (next_ok hctx s (.processRecv tag msg) hok) hfirst hkept
  rw [← hcallId, ← SipTransactionId.equals_iff.mp hid] at hpair
  exact ((recv_received hctx hok' tag' msg').duplicate hok' hpair).1

/-! ### Two calls, one id -/

theorem request_handed_up_once_invite :
    (sentResponseDB .APP_CONTEXT_GENERIC).out
      ((sentResponseDB .APP_CONTEXT_GENERIC).run ((sentResponseDB .APP_CONTEXT_GENERIC).next .empty
        (.processRecv [] (inviteFrom "h".toList "1".toList))) [])
      (.processRecv [] (inviteFrom "h".toList "1".toList)) = none :=
  request_handed_up_once (by decide) (Machine.reachable_init _) (by decide) (by decide) []
    (by change CallKept _ _; unfold CallKept; decide) [] _ (by decide) rfl

/-- The From host and the Call-ID run together in the id: `h` with `12` and `h1` with `2` give equal
ids in two calls, and both INVITEs are handed up. -/
theorem equal_ids_both_handed_up :
    (inviteFrom "h1".toList "2".toList).transId.equals (inviteFrom "h".toList "12".toList).transId = true ∧
      (callFor .empty (inviteFrom "h".toList "12".toList)).isSome ∧
      CallKept "12".toList ((sentResponseDB .APP_CONTEXT_GENERIC).next .empty
        (.processRecv [] (inviteFrom "h".toList "12".toList))) ∧
      (sentResponseDB .APP_CONTEXT_GENERIC).out ((sentResponseDB .APP_CONTEXT_GENERIC).next .empty
        (.processRecv [] (inviteFrom "h".toList "12".toList)))
        (.processRecv [] (inviteFrom "h1".toList "2".toList)) =
          some [.command (inviteFrom "h1".toList "2".toList)] := by
  refine ⟨by decide, by decide, ?_, by decide⟩
  unfold CallKept
  decide

/-! ### Retransmissions of an answered request -/

/-- The response is stored by `processSend`: its pair is in the call and has no response yet. -/
def Stores (s : SipTransactionDB) (response : StatusMsg) : Prop :=
  200 ≤ response.statusCode ∧
    HasPair response.transId.call_id response.transId.key (fun mp => mp.response = none) s

/-- A retransmitted request is answered from the store: nothing goes up, and the pair still holds
the response. -/
def AnsweredFromStore (ctx : SipAppContext) (s : SipTransactionDB) (tag : Data) (msg : SipCommand)
    (response : StatusMsg) : Prop :=
  (sentResponseDB ctx).out s (.processRecv tag msg) = none ∧
    storedResponse ((sentResponseDB ctx).next s (.processRecv tag msg)) msg.transId =
      some (.status response)

instance (ctx : SipAppContext) (s : SipTransactionDB) (tag : Data) (msg : SipCommand)
    (response : StatusMsg) : Decidable (AnsweredFromStore ctx s tag msg response) :=
  inferInstanceAs (Decidable (_ ∧ _))

theorem Stores.hasPair (hctx : ctx ≠ .APP_CONTEXT_PROXY) (hok : DbOk s) {response : StatusMsg}
    (hstores : Stores s response) :
    HasPair response.transId.call_id response.transId.key (fun mp => mp.response.isSome)
      ((sentResponseDB ctx).next s (.processSend response)) := by
  obtain ⟨hfinal, call, mp, hcall, hmem, hkey, hresp⟩ := hstores
  obtain ⟨i, hi⟩ := List.mem_iff_getElem?.mp hmem
  have htable := processSend_stores ctx hok hfinal hcall hi hkey hresp
  have hget : (call.setResponse i s.heap.length).msgs[i]? =
      some { mp with response := some s.heap.length } := by
    simp [SipCallContainer.setResponse, hi]
  refine ⟨call.setResponse i s.heap.length, { mp with response := some s.heap.length }, ?_,
    List.mem_of_getElem? hget, ?_, rfl⟩
  · rw [show ((sentResponseDB ctx).next s (.processSend response)).table = _ from htable,
      SipTransactionDB.setCall_table_self]
  · have hkeeps := (next_grows hctx hok (.processSend response)).heap
    exact (requestKey_of_keeps hkeeps rfl ((hok _ call hcall).pairs mp hmem)).trans hkey

/-- **A retransmission evicts the response.** After `processSend` has stored a final response, and
whatever else is processed while the call is kept, a retransmission of the request is not handed up;
but it is never answered from the store: the request itself is then in the response slot. -/
theorem retransmission_evicts_response (hs : (sentResponseDB ctx).Reachable s)
    {response : StatusMsg} (hstores : Stores s response)
    (ops : List Op) (hkept : (sentResponseDB ctx).Throughout (CallKept response.transId.call_id)
      ((sentResponseDB ctx).next s (.processSend response)) ops)
    (hid : msg.transId.equals response.transId = true)
    (hcallId : msg.transId.call_id = response.transId.call_id) :
    let s' := (sentResponseDB ctx).run ((sentResponseDB ctx).next s (.processSend response)) ops
    (sentResponseDB ctx).out s' (.processRecv tag msg) = none ∧
      storedResponse ((sentResponseDB ctx).next s' (.processRecv tag msg)) msg.transId =
        some (.command msg) ∧
      ¬ AnsweredFromStore ctx s' tag msg response := by
  have hctx : ctx ≠ .APP_CONTEXT_PROXY := by
    rintro rfl
    exact (reachable_noPairs hs).not_hasPair hstores.2
  have hok := reachable_ok hctx hs
  obtain ⟨hok', hpair⟩ := run_hasPair hctx (fun _ _ _ hresp h => hresp h)
    (next_ok hctx s (.processSend response) hok) (hstores.hasPair hctx hok) hkept
  rw [← hcallId, ← SipTransactionId.equals_iff.mp hid] at hpair
  obtain ⟨hout, hslot⟩ := (recv_received hctx hok' tag msg).duplicate hok' hpair
  have hevicted := hslot fun _ h => h
  refine ⟨hout, hevicted, ?_⟩
  rintro ⟨_, hstored⟩
  rw [show storedResponse ((sentResponseDB ctx).next _ (.processRecv tag msg)) msg.transId =
    some (.command msg) from hevicted] at hstored
  cases hstored

/-- The state after an INVITE was received. -/
def invited : SipTransactionDB :=
  (sentResponseDB .APP_CONTEXT_GENERIC).next .empty
    (.processRecv [] (inviteFrom "h".toList "1".toList))

theorem retransmission_evicts_response_invite :
    storedResponse ((sentResponseDB .APP_CONTEXT_GENERIC).next
      ((sentResponseDB .APP_CONTEXT_GENERIC).run ((sentResponseDB .APP_CONTEXT_GENERIC).next invited
        (.processSend (.ofCommand "t".toList (inviteFrom "h".toList "1".toList) 200))) [])
      (.processRecv [] (inviteFrom "h".toList "1".toList)))
      (inviteFrom "h".toList "1".toList).transId =
        some (.command (inviteFrom "h".toList "1".toList)) :=
  (retransmission_evicts_response ((Machine.reachable_init _).next _)
    ⟨by decide, _, ⟨some 0, none⟩, rfl, by decide, by decide, rfl⟩ []
    (by change CallKept _ _; unfold CallKept; decide) (by decide) rfl).2.1

/-- An INVITE is received and answered with 200; its retransmission takes the 200's place. -/
theorem invite_retransmission_evicts_ok :
    let invite := inviteFrom "h".toList "1".toList
    let ok := StatusMsg.ofCommand "t".toList invite 200
    let s := (sentResponseDB .APP_CONTEXT_GENERIC).run .empty [.processRecv [] invite, .processSend ok]
    storedResponse s invite.transId = some (.status ok) ∧
      ¬ AnsweredFromStore .APP_CONTEXT_GENERIC s [] invite ok := by
  decide

end Vocal.Sip.SipSentResponseDB
