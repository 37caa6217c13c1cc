import Vocal.Sip.SentResponseDB.Slots

/-!
# The order of CSeq numbers in a call

The requests that `processRecv` hands up in one call should have increasing CSeq numbers. The number
of the call is only compared once it is set, and the request that opens the call does not set it: an
ACK, a CANCEL or a request after one of them does. `cseq_ordered_iff` says exactly when the order
holds nevertheless.
-/

namespace Vocal.Sip.SipSentResponseDB

open Store (deref Keeps)
open SipCallContainer (slotMsg)

variable {ctx : SipAppContext} {s : SipTransactionDB} {tag : Data} {msg : SipCommand} {k : Data}

/-- A request that the order is about. -/
def Ordinary (msg : SipCommand) : Prop := ¬ (msg.type = .SIP_ACK ∨ msg.type = .SIP_CANCEL)

instance (msg : SipCommand) : Decidable (Ordinary msg) := inferInstanceAs (Decidable (¬ _))

/-- The CSeq number that a step hands up in the call `k`: the request is the last of the queue. -/
def handedUp (ctx : SipAppContext) (k : Data) (s : SipTransactionDB) : Op → List Int
  | .processRecv tag msg =>
    if msg.transId.call_id = k ∧ Ordinary msg ∧ (callFor s msg).isSome ∧
        ((sentResponseDB ctx).out s (.processRecv tag msg)).isSome then [msg.cseqNumber]
    else []
  | _ => []

/-- The database together with the CSeq numbers handed up so far in the call `k`. The list ends with
the call. -/
def watched (ctx : SipAppContext) (k : Data) :
    Machine (SipTransactionDB × List Int) Op (Option SipMsgQueue) where
  init := (.empty, [])
  step s op :=
    let s' := (sentResponseDB ctx).next s.1 op
    ((s', if (s'.table k).isSome then s.2 ++ handedUp ctx k s.1 op else []),
      (sentResponseDB ctx).out s.1 op)

/-- The CSeq number of the request in a slot. -/
def requestSeq (heap : List SipMsgContainer) (slot : Option Ref) : Option Int :=
  match slotMsg heap slot with
  | some (.command c) => some c.cseqNumber
  | _ => none

/-- The CSeq numbers of the requests stored in a call; one that was turned into a 400 is not a
request any more. -/
def requestSeqs (heap : List SipMsgContainer) (call : SipCallContainer) : List Int :=
  (call.msgs.map (·.request)).filterMap (requestSeq heap)

/-- A request that the call `k` has not seen, with the number of a stored request or a lower one. -/
def Late (k : Data) (s : SipTransactionDB) (msg : SipCommand) (call : SipCallContainer) : Prop :=
  msg.transId.call_id = k ∧ Ordinary msg ∧ s.table k = some call ∧
    call.findMsgPair s.heap msg.transId = none ∧
    ∃ n ∈ requestSeqs s.heap call, msg.cseqNumber ≤ n

/-- A late request finds the call's number set, and not below its own. -/
def SeqArmed (k : Data) (s : SipTransactionDB) : Op → Prop
  | .processRecv _ msg =>
    ∀ call, Late k s msg call → call.setSeq = true ∧ msg.cseqNumber ≤ call.curSeqNum
  | _ => True

/-- A late request is not handed up and is answered with the generated 400. -/
def RejectsLate (ctx : SipAppContext) (k : Data) (s : SipTransactionDB) : Op → Prop
  | .processRecv tag msg =>
    ∀ call, Late k s msg call → (sentResponseDB ctx).out s (.processRecv tag msg) = none ∧
      storedResponse ((sentResponseDB ctx).next s (.processRecv tag msg)) msg.transId =
        some (.status (outOfOrder tag msg))
  | _ => True

/-! ### The stored requests are those handed up -/

/-- The numbers stored for the call `k`. -/
def seqsOf (k : Data) (s : SipTransactionDB) : List Int :=
  match s.table k with
  | some call => requestSeqs s.heap call
  | none => []

theorem seqsOf_of_call {call : SipCallContainer} (hcall : s.table k = some call) :
    seqsOf k s = requestSeqs s.heap call := by
  rw [seqsOf, hcall]

theorem requestSeqs_keeps {heap heap' : List SipMsgContainer} (hk : Keeps (·.msgIn) heap heap')
    {call call' : SipCallContainer} (hok : CallOk heap call)
    (hreq : call'.msgs.map (·.request) = call.msgs.map (·.request)) :
    requestSeqs heap' call' = requestSeqs heap call := by
  rw [requestSeqs, requestSeqs, hreq]
  refine List.filterMap_congr ?_
  intro slot hslot
  obtain ⟨mp, hmp, rfl⟩ := List.mem_map.mp hslot
  obtain ⟨c, hc⟩ := (hok.pairs mp hmp).request
  obtain ⟨c', hc', hsame⟩ := hk.deref hc
  rw [requestSeq, requestSeq, slotMsg, slotMsg, hc, hc', Option.bind_some, Option.bind_some, hsame]

theorem requestSeqs_addMsgPair (heap : List SipMsgContainer) (call : SipCallContainer)
    (mp : SipMsgPair) : requestSeqs heap (call.addMsgPair mp) =
      requestSeqs heap call ++ (requestSeq heap mp.request).toList := by
  rw [requestSeqs, SipCallContainer.addMsgPair, List.map_append, List.filterMap_append]
  cases h : requestSeq heap mp.request <;> simp [requestSeqs, h]

theorem seqsOf_keeps {s' : SipTransactionDB} (hok : DbOk s) (hk : Keeps (·.msgIn) s.heap s'.heap)
    (htable : ∀ call', s'.table k = some call' → ∃ call, s.table k = some call ∧
      call'.msgs.map (·.request) = call.msgs.map (·.request)) (hkept : (s'.table k).isSome) :
    seqsOf k s' = seqsOf k s := by
  obtain ⟨call', hcall'⟩ := Option.isSome_iff_exists.mp hkept
  obtain ⟨call, hcall, hreq⟩ := htable call' hcall'
  rw [seqsOf_of_call hcall', seqsOf_of_call hcall]
  exact requestSeqs_keeps hk (hok k call hcall) hreq

theorem seqsOf_processSend (hok : DbOk s) (response : StatusMsg)
    (hkept : ((processSend ctx s response).table k).isSome) :
    seqsOf k (processSend ctx s response) = seqsOf k s := by
  refine seqsOf_keeps hok ((processSend_keeps ctx s response).of_id _) ?_ hkept
  intro call' hcall'
  rcases processSend_table ctx hok response with htable | ⟨call, i, mp, _, hcall, _, _, _, htable⟩
  · exact ⟨call', htable ▸ hcall', rfl⟩
  · rw [htable] at hcall'
    by_cases hk : k = response.transId.call_id
    · rw [hk, SipTransactionDB.setCall_table_self, Option.some_inj] at hcall'
      exact ⟨call, hk ▸ hcall, hcall' ▸ setResponse_requests call i _⟩
    · rw [SipTransactionDB.setCall_table_of_ne _ _ hk] at hcall'
      exact ⟨call', hcall', rfl⟩

theorem seqsOf_same {s' : SipTransactionDB} (hok : DbOk s) (hk : Keeps (·.msgIn) s.heap s'.heap)
    (htable : s'.table k = s.table k) : seqsOf k s' = seqsOf k s := by
  cases hcall : s.table k with
  | none => rw [seqsOf, seqsOf, htable, hcall]
  | some call =>
    rw [seqsOf_of_call hcall, seqsOf_of_call (htable.trans hcall)]
    exact requestSeqs_keeps hk (hok k call hcall) rfl

theorem requestSeqs_callFor {call : SipCallContainer} (hcall : callFor s msg = some call) :
    requestSeqs s.heap call = seqsOf msg.transId.call_id s := by
  unfold callFor at hcall
  split at hcall
  · rename_i call' hcall'
    rw [seqsOf_of_call hcall', Option.some.inj hcall]
  · rename_i hnone
    split at hcall
    · rw [seqsOf, hnone, ← Option.some.inj hcall]; rfl
    · cases hcall

theorem seqsOf_update {s' : SipTransactionDB} (hok : DbOk s) (hk : Keeps (·.msgIn) s.heap s'.heap)
    {call' : SipCallContainer} (htable : s'.table = (s.setCall msg.transId.call_id call').table)
    {l : List Int} (hcall : requestSeqs s'.heap call' = seqsOf msg.transId.call_id s ++ l) :
    seqsOf k s' = seqsOf k s ++ if msg.transId.call_id = k then l else [] := by
  by_cases hkey : msg.transId.call_id = k
  · subst hkey
    rw [if_pos rfl, ← hcall]
    exact seqsOf_of_call (by rw [htable, SipTransactionDB.setCall_table_self])
  · rw [if_neg hkey, List.append_nil]
    refine seqsOf_same hok hk ?_
    rw [htable, SipTransactionDB.setCall_table_of_ne _ _ (Ne.symm hkey)]

theorem Received.seqsOf {out : SipTransactionDB × Option SipMsgQueue}
    (hrecv : Received tag s msg out) (hok : DbOk s) (k : Data) :
    SipSentResponseDB.seqsOf k out.1 = SipSentResponseDB.seqsOf k s ++
      if msg.transId.call_id = k ∧ Ordinary msg ∧ (callFor s msg).isSome ∧ out.2.isSome then
        [msg.cseqNumber]
      else [] := by
  have hk := hrecv.keepsMsg
  cases hrecv with
  | stray hnone => simp [seqsOf_same hok hk rfl, hnone]
  | answered db' call i mp old hcall _ _ _ _ htable =>
    rw [seqsOf_update (l := []) hok hk htable]
    · simp
    · rw [List.append_nil, seqsOf_of_call hcall]
      exact requestSeqs_keeps hk (hok _ call hcall) (setResponse_requests call i _)
  | pending => simp [seqsOf_same hok hk rfl]
  | acknowledged db' call queue htype hcall _ _ _ htable =>
    rw [seqsOf_update (l := []) hok hk htable]
    · simp [Ordinary, htype]
    · rw [List.append_nil, ← requestSeqs_callFor hcall]
      refine requestSeqs_keeps hk (callFor_ok hok hcall) ?_
      split <;> rfl
  | accepted db' call htype hcall _ _ hheap htable =>
    rw [seqsOf_update (l := [msg.cseqNumber]) hok hk htable]
    · simp [Ordinary, htype, hcall]
    · have hseq : requestSeq db'.heap (some s.heap.length) = some msg.cseqNumber := by
        rw [requestSeq, slotMsg, Store.deref_some, hheap, Store.getElem?_alloc]; rfl
      have hmsgs : ∀ c : SipCallContainer, requestSeqs db'.heap
          (if call.setSeq then c.setCurSeqNum msg.cseqNumber else c) = requestSeqs db'.heap c := by
        intro c
        split <;> rfl
      rw [hmsgs, requestSeqs_addMsgPair, hseq, ← requestSeqs_callFor hcall,
        requestSeqs_keeps hk (callFor_ok hok hcall) rfl]
      rfl
  | rejected db' call htype hcall _ _ _ hheap htable =>
    rw [seqsOf_update (l := []) hok hk htable]
    · simp
    · obtain ⟨c, _, hmsg, n, hheap⟩ := hheap
      have hseq : requestSeq db'.heap (some s.heap.length) = none := by
        rw [requestSeq, slotMsg, Store.deref_some, hheap]
        simp [hmsg]
      rw [requestSeqs_addMsgPair, hseq, ← requestSeqs_callFor hcall,
        requestSeqs_keeps hk (callFor_ok hok hcall) rfl]
      rfl

/-! ### The watched run -/

/-- The log is what the call stores. -/
structure WatchOk (k : Data) (s : SipTransactionDB × List Int) : Prop where
  db : DbOk s.1
  log : s.2 = seqsOf k s.1

theorem WatchOk.init (k : Data) : WatchOk k (.empty, []) := ⟨DbOk.empty, rfl⟩

theorem WatchOk.next (hctx : ctx ≠ .APP_CONTEXT_PROXY) (s : SipTransactionDB × List Int) (op : Op)
    (h : WatchOk k s) : WatchOk k ((watched ctx k).next s op) := by
  refine ⟨next_ok hctx s.1 op h.db, ?_⟩
  change (if (((sentResponseDB ctx).next s.1 op).table k).isSome then
    s.2 ++ handedUp ctx k s.1 op else []) = seqsOf k ((sentResponseDB ctx).next s.1 op)
  by_cases hkept : (((sentResponseDB ctx).next s.1 op).table k).isSome
  swap
  · rw [if_neg hkept, seqsOf, Option.not_isSome_iff_eq_none.mp hkept]
  rw [if_pos hkept, h.log]
  cases op with
  | processSend response =>
    exact (List.append_nil _).trans (seqsOf_processSend h.db response hkept).symm
  | processRecv tag msg => exact ((recv_received hctx h.db tag msg).seqsOf h.db k).symm
  | setCallPurgeTimer id t =>
    refine (List.append_nil _).trans (seqsOf_keeps h.db ?_ ?_ hkept).symm
    · rw [show ((sentResponseDB ctx).next s.1 (.setCallPurgeTimer id t)).heap = s.1.heap from
        setCallPurgeTimer_heap _ _ _]
      exact Keeps.refl _ _
    · intro call' hcall'
      obtain ⟨call, hcall, hmsgs⟩ := setCallPurgeTimer_table hcall'
      exact ⟨call, hcall, by rw [hmsgs]⟩
  | purgeOldCalls now =>
    have hheap : Keeps (·.msgIn) s.1.heap (s.1.purgeOldCalls now).heap := Keeps.refl _ _
    refine (List.append_nil _).trans (seqsOf_keeps h.db hheap ?_ hkept).symm
    intro call' hcall'
    exact ⟨call', purgeOldCalls_table hcall', rfl⟩

/-- A late request goes up, unless the call's number is set and not below its own; then it is
answered with the 400. -/
theorem Received.late {out : SipTransactionDB × Option SipMsgQueue}
    (hrecv : Received tag s msg out) (hok : DbOk s) {call : SipCallContainer}
    (hlate : Late k s msg call) :
    (out.2.isSome ∧ ¬ (call.setSeq = true ∧ msg.cseqNumber ≤ call.curSeqNum)) ∨
      ((call.setSeq = true ∧ msg.cseqNumber ≤ call.curSeqNum) ∧ out.2 = none ∧
        storedResponse out.1 msg.transId = some (.status (outOfOrder tag msg))) := by
  obtain ⟨rfl, hord, hcall, hfind, _⟩ := hlate
  have hfor : callFor s msg = some call := by rw [callFor, hcall]
  have hnew := (findMsgPair_eq_none_iff (hok _ call hcall) _).mp hfind
  have hold : ∀ (call' : SipCallContainer) (i : Nat) (mp : SipMsgPair),
      s.table msg.transId.call_id = some call' → call'.msgs[i]? = some mp →
      requestKey s.heap mp ≠ some msg.transId.key := by
    intro call' i mp hcall' hmp
    obtain rfl := Option.some.inj (hcall'.symm.trans hcall)
    exact hnew mp (List.mem_of_getElem? hmp)
  have hok' := (hrecv.ok hok).1
  cases hrecv with
  | stray hnone => rw [hfor] at hnone; cases hnone
  | answered db' call' i mp old hcall' hmp hkey => exact absurd hkey (hold call' i mp hcall' hmp)
  | pending call' i mp hcall' hmp hkey => exact absurd hkey (hold call' i mp hcall' hmp)
  | acknowledged db' call' queue htype => exact absurd htype hord
  | accepted db' call' _ hcall' _ hseq =>
    obtain rfl := Option.some.inj (hcall'.symm.trans hfor)
    refine Or.inl ⟨rfl, ?_⟩
    rintro ⟨hset, hle⟩
    have := hseq hset
    omega
  | rejected db' call' _ hcall' _ hset hseq hheap htable =>
    obtain rfl := Option.some.inj (hcall'.symm.trans hfor)
    obtain ⟨c, hid, _, n, hheap⟩ := hheap
    refine Or.inr ⟨⟨hset, hseq⟩, rfl, ?_⟩
    have hmp : (call'.addMsgPair ⟨some s.heap.length, some (s.heap.length + 1)⟩).msgs[
        call'.msgs.length]? = some ⟨some s.heap.length, some (s.heap.length + 1)⟩ := by
      simp [SipCallContainer.addMsgPair]
    rw [storedResponse_of_pair hok' (by rw [htable, SipTransactionDB.setCall_table_self]) hmp]
    · rw [slotMsg, Store.deref_some, hheap]
      simp [responseContainer, SipMsgContainer.make, SipMsgContainer.setTransport]
    · rw [requestKey, Store.deref_some, hheap]
      simp [hid]

theorem rejectsLate_of_armed (hctx : ctx ≠ .APP_CONTEXT_PROXY) (hok : DbOk s) (op : Op)
    (harmed : SeqArmed k s op) : RejectsLate ctx k s op := by
  cases op with
  | processRecv tag msg =>
    intro call hlate
    rcases (recv_received hctx hok tag msg).late hok hlate with ⟨_, hnot⟩ | ⟨_, hrejected⟩
    · exact absurd (harmed call hlate) hnot
    · exact hrejected
  | _ => trivial

theorem late_of_log {w : SipTransactionDB × List Int} (h : WatchOk k w)
    {out : SipTransactionDB × Option SipMsgQueue} (hrecv : Received tag w.1 msg out)
    (hkey : msg.transId.call_id = k) (hord : Ordinary msg) (hsome : out.2.isSome) {n : Int}
    (hn : n ∈ w.2) (hle : msg.cseqNumber ≤ n) : ∃ call, Late k w.1 msg call := by
  rw [h.log] at hn
  cases hcall : w.1.table k with
  | none => rw [seqsOf, hcall] at hn; cases hn
  | some call =>
    rw [seqsOf_of_call hcall] at hn
    refine ⟨call, hkey, hord, hcall, ?_, n, hn, hle⟩
    cases hfind : call.findMsgPair w.1.heap msg.transId with
    | none => rfl
    | some i =>
      obtain ⟨mp, hmp, hmpKey⟩ := (findMsgPair_eq_some_iff (h.db k call hcall) _ i).mp hfind
      have hpair : HasPair msg.transId.call_id msg.transId.key (fun _ => True) w.1 :=
        ⟨call, mp, hkey ▸ hcall, List.mem_of_getElem? hmp, hmpKey, trivial⟩
      rw [(hrecv.duplicate h.db hpair).1] at hsome
      cases hsome

/-- The step lemma: an ordered log stays ordered exactly if a late request finds the number set. -/
theorem next_ordered_iff (hctx : ctx ≠ .APP_CONTEXT_PROXY) {w : SipTransactionDB × List Int}
    (h : WatchOk k w) (hsorted : w.2.Pairwise (· < ·)) (op : Op) :
    ((watched ctx k).next w op).2.Pairwise (· < ·) ↔ SeqArmed k w.1 op := by
  have hnext : ((watched ctx k).next w op).2 = if (((sentResponseDB ctx).next w.1 op).table k).isSome
      then w.2 ++ handedUp ctx k w.1 op else [] := rfl
  cases op with
  | processRecv tag msg =>
    have hrecv := recv_received hctx h.db tag msg
    have hlog : ((watched ctx k).next w (.processRecv tag msg)).2 =
        w.2 ++ handedUp ctx k w.1 (.processRecv tag msg) := by
      rw [(h.next hctx w (.processRecv tag msg)).log, h.log]
      exact hrecv.seqsOf h.db k
    rw [hlog, List.pairwise_append]
    constructor
    · rintro ⟨_, _, hall⟩ call hlate
      rcases hrecv.late h.db hlate with ⟨hup, _⟩ | ⟨harmed, _⟩
      · obtain ⟨hkey, hord, hcall, _, n, hn, hle⟩ := hlate
        have hfor : (callFor w.1 msg).isSome := by rw [callFor, hkey, hcall]; rfl
        have hlt := hall n (by rw [h.log, seqsOf_of_call hcall]; exact hn) msg.cseqNumber
          (by rw [handedUp, if_pos ⟨hkey, hord, hfor, hup⟩]; exact List.mem_singleton_self _)
        omega
      · exact harmed
    · intro harmed
      refine ⟨hsorted, ?_, ?_⟩
      · rw [handedUp]; split <;> simp
      · intro n hn m hm
        rw [handedUp] at hm
        split at hm
        swap
        · cases hm
        rename_i hup
        obtain ⟨hkey, hord, _, hsome⟩ := hup
        rw [List.mem_singleton.mp hm]
        by_contra hlt
        obtain ⟨call, hlate⟩ := late_of_log h hrecv hkey hord hsome hn (by omega)
        rcases hrecv.late h.db hlate with ⟨_, hnot⟩ | ⟨_, hnone, _⟩
        · exact hnot (harmed call hlate)
        · rw [show (sentResponseDB ctx).out w.1 (.processRecv tag msg) = none from hnone] at hsome
          cases hsome
  | _ =>
    refine iff_of_true ?_ trivial
    rw [hnext]
    split
    · exact (List.append_nil w.2).symm ▸ hsorted
    · exact List.Pairwise.nil

/-- **CSeq order, exactly.** In every run of the user agent and for every call, the requests handed
up have increasing CSeq numbers and late requests are answered with a 400, if and only if every late
request comes when the call's number is set and not below its own. -/
theorem cseq_ordered_iff (hctx : ctx ≠ .APP_CONTEXT_PROXY) (k : Data) (ops : List Op) :
    ((watched ctx k).Throughout (fun w => w.2.Pairwise (· < ·)) (.empty, []) ops ∧
      (watched ctx k).Along (fun w => RejectsLate ctx k w.1) (.empty, []) ops) ↔
      (watched ctx k).Along (fun w => SeqArmed k w.1) (.empty, []) ops := by
  have hiff := Machine.throughout_iff_along (M := watched ctx k) (WatchOk.next hctx)
    (fun w op h hsorted => next_ordered_iff hctx h hsorted op) ops _ (WatchOk.init k) List.Pairwise.nil
  constructor
  · rintro ⟨hsorted, _⟩
    exact hiff.mp hsorted
  · intro harmed
    refine ⟨hiff.mpr harmed, ?_⟩
    exact Machine.Along.imp (fun w op h _ => WatchOk.next hctx w op h)
      (fun w op h => rejectsLate_of_armed hctx h.db op) ops _ (WatchOk.init k) harmed

/-- A BYE in the call of `inviteFrom`, with the CSeq number `cseq`. -/
def byeFrom (host localid cseq : Data) : SipCommand :=
  let invite := inviteFrom host localid
  { invite with
    type := .SIP_BYE
    notStatus := by decide
    headers := { invite.headers with cseq := ⟨cseq, "BYE".toList⟩ } }

theorem cseq_ordered_iff_bye :
    (watched .APP_CONTEXT_GENERIC "1".toList).Throughout (fun w => w.2.Pairwise (· < ·)) (.empty, [])
      [.processRecv [] (inviteFrom "h".toList "1".toList),
        .processRecv [] (byeFrom "h".toList "1".toList "3".toList)] := by
  refine ((cseq_ordered_iff (by decide) "1".toList _).mpr ?_).1
  refine ⟨?_, ?_, trivial⟩
  · rintro call ⟨_, _, hcall, _⟩
    cases hcall
  · rintro call ⟨_, _, hcall, _, n, hn, hle⟩
    have hseqs : seqsOf "1".toList ((watched .APP_CONTEXT_GENERIC "1".toList).next (.empty, [])
        (.processRecv [] (inviteFrom "h".toList "1".toList))).1 = [1] := by
      decide
    rw [← seqsOf_of_call hcall, hseqs] at hn
    rw [List.mem_singleton.mp hn] at hle
    exact absurd hle (by decide)

/-- An INVITE with CSeq 1 opens a call and a BYE with CSeq 1 follows: both are handed up, and the
second is not above the first. -/
theorem bye_not_above_invite :
    ((watched .APP_CONTEXT_GENERIC "1".toList).run (.empty, [])
      [.processRecv [] (inviteFrom "h".toList "1".toList),
        .processRecv [] (byeFrom "h".toList "1".toList "1".toList)]).2 = [1, 1] ∧
    ¬ ((watched .APP_CONTEXT_GENERIC "1".toList).run (.empty, [])
      [.processRecv [] (inviteFrom "h".toList "1".toList),
        .processRecv [] (byeFrom "h".toList "1".toList "1".toList)]).2.Pairwise (· < ·) := by
  decide

end Vocal.Sip.SipSentResponseDB
