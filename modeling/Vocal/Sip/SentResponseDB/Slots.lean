import Vocal.Sip.SentResponseDB.Delivery

/-!
# Requests and responses in their slots

A pair is typed if its request slot holds a request and its response slot a response to it, or
nothing. Two branches of `processRecv` break this: the retransmission of an answered request puts
the request into the response slot, and an out-of-order request has its container turned into the
400. Every other operation keeps it, so a run stays typed exactly as long as it takes neither branch
(`slots_typed_iff`).
-/

namespace Vocal.Sip.SipSentResponseDB

open Store (deref Keeps)
open SipCallContainer (slotMsg)

variable {ctx : SipAppContext} {s : SipTransactionDB}

/-- The request slot holds a request; the response slot is empty or holds a response with its id. -/
def PairTyped (heap : List SipMsgContainer) (mp : SipMsgPair) : Prop :=
  ∃ cmd, slotMsg heap mp.request = some (.command cmd) ∧
    (mp.response = none ∨ ∃ status, slotMsg heap mp.response = some (.status status) ∧
      status.transId.equals cmd.transId = true)

def SlotsTyped (db : SipTransactionDB) : Prop :=
  ∀ k call, db.table k = some call → ∀ mp ∈ call.msgs, PairTyped db.heap mp

/-- The two branches are not taken: a retransmitted request has no response yet, and a new one is
in order. -/
def SlotsSafe (ctx : SipAppContext) (s : SipTransactionDB) : Op → Prop
  | .processRecv _ msg =>
    match callFor s msg with
    | none => True
    | some call =>
      match call.findMsgPair s.heap msg.transId with
      | some i => (call.msgs[i]?).bind (·.response) = none
      | none =>
        ctx ≠ .APP_CONTEXT_PROXY → ¬ (msg.type = .SIP_ACK ∨ msg.type = .SIP_CANCEL) →
          call.setSeq = true → call.curSeqNum < msg.cseqNumber
  | _ => True

/-- A container's id is the id of its message. -/
def HeapOk (heap : List SipMsgContainer) : Prop :=
  ∀ (r : Ref) (c : SipMsgContainer) (m : SipMsg), heap[r]? = some c → c.msgIn = some m →
    c.trans_id = .ofMsg m

/-! ### The ids of containers -/

theorem HeapOk.append {heap : List SipMsgContainer} (h : HeapOk heap) {l : List SipMsgContainer}
    (hl : ∀ c ∈ l, ∀ m, c.msgIn = some m → c.trans_id = .ofMsg m) : HeapOk (heap ++ l) := by
  intro r c m hr hm
  by_cases hlt : r < heap.length
  · rw [List.getElem?_append_left hlt] at hr
    exact h r c m hr hm
  · rw [List.getElem?_append_right (Nat.le_of_not_lt hlt)] at hr
    exact hl c (List.mem_of_getElem? hr) m hm

theorem HeapOk.setRetransmitMax {heap : List SipMsgContainer} (h : HeapOk heap) (r : Ref) (n : Int) :
    HeapOk (heap.modify r (.setRetransmitMax n)) := by
  intro i c m hi hm
  rw [List.getElem?_modify] at hi
  obtain ⟨c', hc', rfl⟩ := Option.map_eq_some_iff.mp hi
  split at hm
  · rename_i heq
    rw [if_pos heq]
    exact h i c' m hc' hm
  · rename_i hne
    rw [if_neg hne]
    exact h i c' m hc' hm

theorem heapOk_requestContainer (msg : SipCommand) (m : SipMsg)
    (hm : (requestContainer msg).msgIn = some m) : (requestContainer msg).trans_id = .ofMsg m :=
  Option.some.inj hm ▸ rfl

theorem heapOk_responseContainer (response : StatusMsg) (n : Int) (m : SipMsg)
    (hm : ((responseContainer response).setRetransmitMax n).msgIn = some m) :
    ((responseContainer response).setRetransmitMax n).trans_id = .ofMsg m :=
  Option.some.inj hm ▸ rfl

theorem heapOk_processSend (h : HeapOk s.heap) (response : StatusMsg) :
    HeapOk (processSend ctx s response).heap := by
  obtain ⟨n, hheap⟩ := processSend_heap ctx s response
  rw [hheap]
  exact h.append (by simpa using heapOk_responseContainer response n)

theorem Received.heapOk {tag : Data} {msg : SipCommand} {out : SipTransactionDB × Option SipMsgQueue}
    (hrecv : Received tag s msg out) (h : HeapOk s.heap) : HeapOk out.1.heap := by
  have hnew : HeapOk (s.heap ++ [requestContainer msg]) :=
    h.append (by simpa using heapOk_requestContainer msg)
  cases hrecv with
  | stray => exact hnew
  | answered db' call i mp old _ _ _ _ hheap =>
    rw [hheap]
    exact (h.setRetransmitMax old 0).append (by simpa using heapOk_requestContainer msg)
  | pending => exact h.append (by simp [SipMsgContainer.clear])
  | acknowledged db' call queue _ _ _ _ hheap =>
    rcases hheap with hheap | ⟨r, hheap⟩
    · rw [hheap]; exact hnew
    · rw [hheap]; exact hnew.setRetransmitMax r 0
  | accepted db' call _ _ _ _ hheap => rw [hheap]; exact hnew
  | rejected db' call _ _ _ _ _ hheap =>
    obtain ⟨c, hid, hmsg, n, hheap⟩ := hheap
    rw [hheap]
    refine h.append ?_
    intro c' hc' m hm
    rcases List.mem_pair.mp hc' with rfl | rfl
    · rw [hmsg, Option.some_inj] at hm
      rw [hid, ← hm]
      exact (transId_ofCommand tag msg 400).symm
    · exact heapOk_responseContainer _ n m hm

/-! ### One step -/

theorem slotMsg_keeps {heap heap' : List SipMsgContainer} (hk : Keeps (·.msgIn) heap heap')
    {slot : Option Ref} {m : SipMsg} (hm : slotMsg heap slot = some m) :
    slotMsg heap' slot = some m := by
  obtain ⟨c, hc, hmsg⟩ := Option.bind_eq_some_iff.mp hm
  obtain ⟨c', hc', hsame⟩ := hk.deref hc
  exact Option.bind_eq_some_iff.mpr ⟨c', hc', hsame.trans hmsg⟩

theorem PairTyped.keeps {heap heap' : List SipMsgContainer} (hk : Keeps (·.msgIn) heap heap')
    {mp : SipMsgPair} (h : PairTyped heap mp) : PairTyped heap' mp := by
  obtain ⟨cmd, hreq, hresp⟩ := h
  refine ⟨cmd, slotMsg_keeps hk hreq, ?_⟩
  rcases hresp with hnone | ⟨status, hst, hid⟩
  · exact Or.inl hnone
  · exact Or.inr ⟨status, slotMsg_keeps hk hst, hid⟩

theorem transId_of_requestKey {heap : List SipMsgContainer} (hheap : HeapOk heap) {mp : SipMsgPair}
    {cmd : SipCommand} (hcmd : slotMsg heap mp.request = some (.command cmd))
    {key : Bool × Data × Data × Data} (hkey : requestKey heap mp = some key) :
    cmd.transId.key = key := by
  obtain ⟨c, hc, hmsg⟩ := Option.bind_eq_some_iff.mp hcmd
  cases hreq : mp.request with
  | none => rw [hreq] at hc; simp at hc
  | some r =>
    rw [hreq, Store.deref_some] at hc
    rw [requestKey, hreq, Store.deref_some, hc, Option.map_some, Option.some_inj,
      hheap r c _ hc hmsg] at hkey
    exact hkey

theorem SlotsTyped.keeps {db db' : SipTransactionDB} (h : SlotsTyped db)
    (hk : Keeps (·.msgIn) db.heap db'.heap)
    (htable : ∀ k call', db'.table k = some call' → ∃ call, db.table k = some call ∧
      call'.msgs = call.msgs) : SlotsTyped db' := by
  intro k call' hcall' mp hmp
  obtain ⟨call, hcall, hmsgs⟩ := htable k call' hcall'
  exact (h k call hcall mp (hmsgs ▸ hmp)).keeps hk

theorem SlotsTyped.update {db db' : SipTransactionDB} (h : SlotsTyped db)
    (hk : Keeps (·.msgIn) db.heap db'.heap) {k : Data} {call : SipCallContainer}
    (htable : db'.table = (db.setCall k call).table)
    (hcall : ∀ mp ∈ call.msgs, PairTyped db'.heap mp) : SlotsTyped db' := by
  intro k' call' hcall' mp hmp
  rw [htable] at hcall'
  by_cases hkk : k' = k
  · rw [hkk, SipTransactionDB.setCall_table_self, Option.some_inj] at hcall'
    exact hcall mp (hcall' ▸ hmp)
  · rw [SipTransactionDB.setCall_table_of_ne _ _ hkk] at hcall'
    exact (h k' call' hcall' mp hmp).keeps hk

theorem slotsTyped_processSend (hok : DbOk s) (hheap : HeapOk s.heap) (h : SlotsTyped s)
    (response : StatusMsg) : SlotsTyped (processSend ctx s response) := by
  have hk := (processSend_keeps ctx s response).of_id SipMsgContainer.msgIn
  obtain ⟨n, hsend⟩ := processSend_heap ctx s response
  rcases processSend_table ctx hok response with htable | ⟨call, i, mp, _, hcall, hmp, hkey, _, htable⟩
  · exact h.keeps hk fun k call' hcall' => ⟨call', by rw [← htable]; exact hcall', rfl⟩
  · refine h.update hk htable ?_
    intro q hq
    obtain ⟨j, hj⟩ := List.mem_iff_getElem?.mp hq
    rw [SipCallContainer.setResponse, List.getElem?_modify] at hj
    obtain ⟨p, hp, rfl⟩ := Option.map_eq_some_iff.mp hj
    have htyped := (h _ call hcall p (List.mem_of_getElem? hp)).keeps hk
    by_cases hij : i = j
    · obtain rfl := Option.some.inj ((hij ▸ hp).symm.trans hmp)
      obtain ⟨cmd, hreq, _⟩ := h _ call hcall p (List.mem_of_getElem? hp)
      rw [if_pos hij]
      refine ⟨cmd, slotMsg_keeps hk hreq, Or.inr ⟨response, ?_, ?_⟩⟩
      · rw [slotMsg, Store.deref_some, hsend, Store.getElem?_alloc]; rfl
      · rw [SipTransactionId.equals_iff]
        exact (transId_of_requestKey hheap hreq hkey).symm
    · rw [if_neg hij]
      exact htyped

theorem callFor_typed {msg : SipCommand} (h : SlotsTyped s) {call : SipCallContainer}
    (hcall : callFor s msg = some call) : ∀ mp ∈ call.msgs, PairTyped s.heap mp := by
  unfold callFor at hcall
  split at hcall
  · rename_i call' hcall'
    exact Option.some.inj hcall ▸ h _ call' hcall'
  · split at hcall
    · rw [← Option.some.inj hcall]
      simp [SipCallContainer.make]
    · cases hcall

theorem Received.keepsMsg {tag : Data} {msg : SipCommand}
    {out : SipTransactionDB × Option SipMsgQueue} (hrecv : Received tag s msg out) :
    Keeps (·.msgIn) s.heap out.1.heap := by
  have happend : ∀ l, Keeps (·.msgIn) s.heap (s.heap ++ l) := Keeps.append _ _
  cases hrecv with
  | stray => exact happend _
  | answered db' call i mp old _ _ _ _ hheap =>
    rw [hheap]
    exact (Keeps.modify _ old (g := .setRetransmitMax 0) fun _ => rfl).trans (Keeps.append _ _ _)
  | pending => exact happend _
  | acknowledged db' call queue _ _ _ _ hheap =>
    rcases hheap with hheap | ⟨r, hheap⟩
    · rw [hheap]; exact happend _
    · rw [hheap]; exact (happend _).trans (Keeps.modify _ _ fun _ => rfl)
  | accepted db' call _ _ _ _ hheap => rw [hheap]; exact happend _
  | rejected db' call _ _ _ _ _ hheap =>
    obtain ⟨c, _, _, n, hheap⟩ := hheap
    rw [hheap]; exact happend _

/-- A receive keeps the slots typed exactly if it takes neither of the two branches. -/
theorem Received.typed_iff {tag : Data} {msg : SipCommand} (hctx : ctx ≠ .APP_CONTEXT_PROXY)
    {out : SipTransactionDB × Option SipMsgQueue} (hrecv : Received tag s msg out) (hok : DbOk s)
    (h : SlotsTyped s) : SlotsTyped out.1 ↔ SlotsSafe ctx s (.processRecv tag msg) := by
  have hk := hrecv.keepsMsg
  have hfind : ∀ (call : SipCallContainer) (i : Nat) (mp : SipMsgPair),
      s.table msg.transId.call_id = some call → call.msgs[i]? = some mp →
      requestKey s.heap mp = some msg.transId.key →
      (SlotsSafe ctx s (.processRecv tag msg) ↔ mp.response = none) := by
    intro call i mp hcall hmp hkey
    have hi := (findMsgPair_eq_some_iff (hok _ call hcall) _ i).mpr ⟨mp, hmp, hkey⟩
    simp only [SlotsSafe, callFor, hcall, hi, hmp, Option.bind_some]
  have hfirst : ∀ call : SipCallContainer, callFor s msg = some call →
      (∀ mp ∈ call.msgs, requestKey s.heap mp ≠ some msg.transId.key) →
      (SlotsSafe ctx s (.processRecv tag msg) ↔ (¬ (msg.type = .SIP_ACK ∨ msg.type = .SIP_CANCEL) →
        call.setSeq = true → call.curSeqNum < msg.cseqNumber)) := by
    intro call hcall hnew
    have hnone := (findMsgPair_eq_none_iff (callFor_ok hok hcall) _).mpr hnew
    simp only [SlotsSafe, hcall, hnone, ne_eq, hctx, not_false_eq_true, true_implies]
  cases hrecv with
  | stray hnone =>
    refine iff_of_true (h.keeps hk fun k call hcall => ⟨call, hcall, rfl⟩) ?_
    simp only [SlotsSafe, hnone]
  | answered db' call i mp old hcall hmp hkey hresp hheap htable =>
    refine iff_of_false ?_ (by rw [hfind call i mp hcall hmp hkey, hresp]; simp)
    intro htyped
    have hget : db'.heap[s.heap.length]? = some (requestContainer msg) := by
      rw [hheap, ← List.length_modify (SipMsgContainer.setRetransmitMax 0) s.heap old]
      exact Store.getElem?_alloc _ _
    have hpair := htyped msg.transId.call_id (call.setResponse i s.heap.length)
      (by rw [htable, SipTransactionDB.setCall_table_self]) { mp with response := some s.heap.length }
      (List.mem_of_getElem? (i := i) (by simp [SipCallContainer.setResponse, hmp]))
    obtain ⟨cmd, _, hnone | ⟨status, hst, _⟩⟩ := hpair
    · cases hnone
    · rw [slotMsg, Store.deref_some, hget] at hst
      cases hst
  | pending call i mp hcall hmp hkey hresp =>
    exact iff_of_true (h.keeps hk fun k call hcall => ⟨call, hcall, rfl⟩)
      (by rw [hfind call i mp hcall hmp hkey, hresp])
  | acknowledged db' call queue htype hcall hnew hqueue hheap htable =>
    refine iff_of_true (h.update hk htable ?_) ((hfirst call hcall hnew).mpr (absurd htype))
    intro mp hmp
    refine (callFor_typed h hcall mp ?_).keeps hk
    split at hmp <;> exact hmp
  | accepted db' call htype hcall hnew hseq hheap htable =>
    refine iff_of_true (h.update hk htable ?_) ((hfirst call hcall hnew).mpr fun _ => hseq)
    intro mp hmp
    have hmem : mp ∈ call.msgs ++ [⟨some s.heap.length, none⟩] := by
      split at hmp <;> exact hmp
    rcases List.mem_append.mp hmem with hold | hnew
    · exact (callFor_typed h hcall mp hold).keeps hk
    · rw [List.mem_singleton.mp hnew]
      refine ⟨msg, ?_, Or.inl rfl⟩
      rw [slotMsg, Store.deref_some, hheap, Store.getElem?_alloc]; rfl
  | rejected db' call htype hcall hnew hset hseq hheap htable =>
    refine iff_of_false ?_ ?_
    · intro htyped
      obtain ⟨c, _, hmsg, n, hheap⟩ := hheap
      obtain ⟨cmd, hreq, _⟩ := htyped msg.transId.call_id _
        (by rw [htable, SipTransactionDB.setCall_table_self])
        ⟨some s.heap.length, some (s.heap.length + 1)⟩ (by simp [SipCallContainer.addMsgPair])
      rw [slotMsg, Store.deref_some, hheap] at hreq
      simp [hmsg] at hreq
    · intro hsafe
      have := (hfirst call hcall hnew).mp hsafe htype hset
      omega

theorem next_typed_iff (hctx : ctx ≠ .APP_CONTEXT_PROXY) (hok : DbOk s) (hheap : HeapOk s.heap)
    (h : SlotsTyped s) (op : Op) :
    SlotsTyped ((sentResponseDB ctx).next s op) ↔ SlotsSafe ctx s op := by
  cases op with
  | processSend response => exact iff_of_true (slotsTyped_processSend hok hheap h response) trivial
  | processRecv tag msg => exact (recv_received hctx hok tag msg).typed_iff hctx hok h
  | setCallPurgeTimer id t =>
    have hk : Keeps (·.msgIn) s.heap (s.setCallPurgeTimer id t).heap := by
      rw [setCallPurgeTimer_heap]
      exact Keeps.refl _ _
    exact iff_of_true (h.keeps hk fun k call' hcall' => setCallPurgeTimer_table hcall') trivial
  | purgeOldCalls now =>
    refine iff_of_true (h.keeps (Keeps.refl _ _) ?_) trivial
    exact fun k call' hcall' => ⟨call', purgeOldCalls_table hcall', rfl⟩

theorem heapOk_next (hctx : ctx ≠ .APP_CONTEXT_PROXY) (hok : DbOk s) (hheap : HeapOk s.heap)
    (op : Op) : HeapOk ((sentResponseDB ctx).next s op).heap := by
  cases op with
  | processSend response => exact heapOk_processSend hheap response
  | processRecv tag msg => exact (recv_received hctx hok tag msg).heapOk hheap
  | setCallPurgeTimer id t =>
    change HeapOk (s.setCallPurgeTimer id t).heap
    rw [setCallPurgeTimer_heap]
    exact hheap
  | purgeOldCalls now => exact hheap

theorem NoPairs.slots {s : SipTransactionDB} (h : NoPairs s) (op : Op) :
    SlotsTyped s ∧ SlotsSafe .APP_CONTEXT_PROXY s op := by
  refine ⟨fun k call hcall mp hmp => ?_, ?_⟩
  · rw [h k call hcall] at hmp
    cases hmp
  · cases op with
    | processRecv tag msg =>
      cases hcall : callFor s msg with
      | none => simp only [SlotsSafe, hcall]
      | some call =>
        have hmsgs : call.msgs = [] := by
          unfold callFor at hcall
          split at hcall
          · rename_i call' hcall'
            exact Option.some.inj hcall ▸ h _ call' hcall'
          · split at hcall
            · rw [← Option.some.inj hcall]; rfl
            · cases hcall
        have hnone : call.findMsgPair s.heap msg.transId = none := by
          rw [SipCallContainer.findMsgPair, hmsgs]; rfl
        simp only [SlotsSafe, hcall, hnone]
        exact fun hctx => absurd rfl hctx
    | _ => trivial

/-- **Slot typing, exactly.** In every run, all states have typed slots if and only if no step
receives a retransmission of an answered request or an out-of-order request. -/
theorem slots_typed_iff (ctx : SipAppContext) (ops : List Op) :
    (sentResponseDB ctx).Throughout SlotsTyped .empty ops ↔
      (sentResponseDB ctx).Along (SlotsSafe ctx) .empty ops := by
  have hempty : SlotsTyped .empty := fun _ _ hcall => by cases hcall
  by_cases hctx : ctx = .APP_CONTEXT_PROXY
  · subst hctx
    refine Machine.throughout_iff_along (I := fun s => (sentResponseDB _).Reachable s)
      (fun s op hs => hs.next op) ?_ ops .empty (Machine.reachable_init _) hempty
    intro s op hs _
    exact iff_of_true ((reachable_noPairs (hs.next op)).slots op).1 ((reachable_noPairs hs).slots op).2
  · refine Machine.throughout_iff_along (I := fun s => DbOk s ∧ HeapOk s.heap) ?_ ?_ ops .empty
      ⟨DbOk.empty, fun r c m hr => by cases hr⟩ hempty
    · rintro s op ⟨hok, hheap⟩
      exact ⟨next_ok hctx s op hok, heapOk_next hctx hok hheap op⟩
    · rintro s op ⟨hok, hheap⟩ h
      exact next_typed_iff hctx hok hheap h op

/-- An INVITE is received, answered with 200 and received again: the response slot of its pair then
holds the request. -/
theorem answered_invite_breaks_slots :
    ¬ SlotsTyped ((sentResponseDB .APP_CONTEXT_GENERIC).run .empty
      [.processRecv [] (inviteFrom "h".toList "1".toList),
        .processSend (.ofCommand "t".toList (inviteFrom "h".toList "1".toList) 200),
        .processRecv [] (inviteFrom "h".toList "1".toList)]) := by
  intro h
  obtain ⟨cmd, _, hnone | ⟨status, hst, _⟩⟩ := h "1".toList _ rfl ⟨some 0, some 2⟩ (by decide)
  · cases hnone
  · have hslot : slotMsg ((sentResponseDB .APP_CONTEXT_GENERIC).run .empty
        [.processRecv [] (inviteFrom "h".toList "1".toList),
          .processSend (.ofCommand "t".toList (inviteFrom "h".toList "1".toList) 200),
          .processRecv [] (inviteFrom "h".toList "1".toList)]).heap (some 2) =
        some (.command (inviteFrom "h".toList "1".toList)) := by
      decide
    rw [hslot] at hst
    cases hst

end Vocal.Sip.SipSentResponseDB
