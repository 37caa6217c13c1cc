import Vocal.Lib.Machine
import Vocal.Sip.Pairs

/-!
# The database of sent requests

`SipSentRequestDB` stands between the application and the transport on the client side: requests go
out through `processSend`, responses come in through `processRecv`, which stops the retransmission
of the request and filters repeated final responses.

`sentRequestDB ctx` is the database as a machine: any order of sends, receives, purge timers and
purges.
-/

namespace Vocal.Sip

open Store (deref Keeps)
open SipCallContainer (slotMsg)

namespace SipSentRequestDB

/-- The transport of the request's url. The source casts every url to a `SipUrl`; only those that
are have a transport parameter. -/
def transportOf : BaseUrl → Data
  | .sipUrl u => u.transportParam
  | _ => []

/-- The container `processSend` puts a request in. -/
def sentContainer (msg : SipCommand) : SipMsgContainer :=
  let c := (SipMsgContainer.make msg.transId (.command msg)).setTransport (transportOf msg.requestUrl)
  if msg.type ≠ .SIP_ACK then c.setRetransmitMax MAX_RETRANS_COUNT else c

/-- A request the call has not seen: a CANCEL stops the retransmission of the others, and after a
CANCEL or a BYE the call is purged ten seconds later. -/
def storeRequest (now : Nat) (db : SipTransactionDB) (call : SipCallContainer) (msg : SipCommand)
    (retVal : Ref) : SipTransactionDB :=
  let heap := if msg.type = .SIP_CANCEL then call.stopAllRetrans db.heap else db.heap
  let call :=
    if msg.type = .SIP_CANCEL ∨ msg.type = .SIP_BYE then
      { call with purgeAt := (now + 10 * 1000) % 2 ^ 64 }
    else call
  { db with heap }.setCall msg.transId.call_id (call.addMsgPair ⟨some retVal, none⟩)

/-- `SipSentRequestDB::processSend` at the time `now`; the container it returns is the one allocated
first. -/
def processSend (now : Nat) (db : SipTransactionDB) (msg : SipCommand) : SipTransactionDB :=
  let id := msg.transId
  let retVal := db.heap.length
  let db := db.newContainer (sentContainer msg)
  match db.getCallContainer id with
  | some call =>
    match call.findMsgPair db.heap id with
    | some i =>
      -- two identical requests from application
      if ((call.msgs[i]?).bind (·.request)).isSome then db else storeRequest now db call msg retVal
    | none => storeRequest now db call msg retVal
  | none =>
    let call := .make id
    storeRequest now (db.addCallContainer call) call msg retVal

/-- A response that is handed up without looking at the stored one: provisional, or for a proxy the
200 of an INVITE. -/
def Forwarded (ctx : SipAppContext) (response : StatusMsg) : Prop :=
  response.statusCode < 200 ∨
    (ctx = .APP_CONTEXT_PROXY ∧ response.statusCode = 200 ∧
      isEqualNoCase response.headers.cseq.method INVITE_METHOD)

instance (ctx : SipAppContext) (response : StatusMsg) : Decidable (Forwarded ctx response) :=
  inferInstanceAs (Decidable (_ ∨ _))

/-- `SipSentRequestDB::processRecv` of the response in the container `msgContainer`. -/
def processRecv (ctx : SipAppContext) (db : SipTransactionDB) (msgContainer : Ref)
    (response : StatusMsg) : SipTransactionDB × Option SipMsgQueue :=
  let id := response.transId
  match db.getCallContainer id with
  | none => (db, none)
  | some call =>
    match call.findMsgPair db.heap id with
    | none => (db, none)
    | some i =>
      let request := (call.msgs[i]?).bind (·.request)
      -- cancel its retransmission
      let db := match request with
        | some r => db.updateContainer r (.setRetransmitMax 0)
        | none => db
      if Forwarded ctx response then (db, some [.status response])
      else
        match (call.msgs[i]?).bind (·.response) with
        | some _ => (db, none)
        | none =>
          (db.setCall id.call_id (call.setResponse i msgContainer),
            some ((slotMsg db.heap request).toList ++ [.status response]))

inductive Op
  | processSend (now : Nat) (msg : SipCommand)
  | processRecv (response : StatusMsg)
  | setCallPurgeTimer (id : SipTransactionId) (expires_at : Nat)
  | purgeOldCalls (now : Nat)

/-- The container a response arrives in. -/
def receivedContainer (response : StatusMsg) : SipMsgContainer := .received (.status response)

/-- A response arrives: the transport builds its container, the database processes it. -/
def recv (ctx : SipAppContext) (db : SipTransactionDB) (response : StatusMsg) :
    SipTransactionDB × Option SipMsgQueue :=
  processRecv ctx (db.newContainer (receivedContainer response)) db.heap.length response

def step (ctx : SipAppContext) (db : SipTransactionDB) : Op → SipTransactionDB × Option SipMsgQueue
  | .processSend now msg => (processSend now db msg, none)
  | .processRecv response => recv ctx db response
  | .setCallPurgeTimer id t => (db.setCallPurgeTimer id t, none)
  | .purgeOldCalls now => (db.purgeOldCalls now, none)

/-! ### What a send does -/

variable {db : SipTransactionDB} {msg : SipCommand} {response : StatusMsg} {ctx : SipAppContext}

/-- The call has a pair for the id. -/
def Stored (id : SipTransactionId) (db : SipTransactionDB) : Prop :=
  HasPair id.call_id id.key (fun _ => True) db

/-- What `processSend` can do, with the database it ends in. -/
inductive Sent (db : SipTransactionDB) (msg : SipCommand) : SipTransactionDB → Prop
  /-- The application repeats a request: its container is not stored. -/
  | repeated (hstored : Stored msg.transId db) : Sent db msg (db.newContainer (sentContainer msg))
  /-- A new request: stored in a pair of its own; a CANCEL stops others. -/
  | stored (db' : SipTransactionDB) (call call' : SipCallContainer)
      (hcall : db.table msg.transId.call_id = some call ∨
        db.table msg.transId.call_id = none ∧ call = .make msg.transId)
      (hnew : ∀ mp ∈ call.msgs, requestKey db.heap mp ≠ some msg.transId.key)
      (hheap : db'.heap = db.heap ++ [sentContainer msg] ∨
        db'.heap = call.stopAllRetrans (db.heap ++ [sentContainer msg]))
      (hmsgs : call'.msgs = call.msgs ++ [⟨some db.heap.length, none⟩])
      (htable : db'.table = (db.setCall msg.transId.call_id call').table) : Sent db msg db'

@[simp] theorem sentContainer_trans_id (msg : SipCommand) :
    (sentContainer msg).trans_id = msg.transId := by
  unfold sentContainer
  split <;> rfl

@[simp] theorem sentContainer_msgIn (msg : SipCommand) :
    (sentContainer msg).msgIn = some (.command msg) := by
  unfold sentContainer
  split <;> rfl

@[simp] theorem sentContainer_inEncode (msg : SipCommand) : (sentContainer msg).inEncode = none := by
  unfold sentContainer
  split <;> rfl

theorem storeRequest_sent (now : Nat) {db₂ : SipTransactionDB} {call : SipCallContainer}
    (hcall : db.table msg.transId.call_id = some call ∨
      db.table msg.transId.call_id = none ∧ call = .make msg.transId)
    (hnew : ∀ mp ∈ call.msgs, requestKey db.heap mp ≠ some msg.transId.key)
    (hheap : db₂.heap = db.heap ++ [sentContainer msg])
    (htable : ∀ c, (db₂.setCall msg.transId.call_id c).table =
      (db.setCall msg.transId.call_id c).table) :
    Sent db msg (storeRequest now db₂ call msg db.heap.length) := by
  refine .stored _ call _ hcall hnew ?_ ?_ (htable _)
  · by_cases hcancel : msg.type = .SIP_CANCEL
    · right; simp only [storeRequest, if_pos hcancel, SipTransactionDB.setCall_heap, hheap]
    · left; simp only [storeRequest, if_neg hcancel, SipTransactionDB.setCall_heap, hheap]
  · split <;> rfl

/-- **What a send can do.** -/
theorem processSend_sent (h : DbOk db) (now : Nat) (msg : SipCommand) :
    Sent db msg (processSend now db msg) := by
  unfold processSend
  dsimp only [SipTransactionDB.getCallContainer, SipTransactionDB.newContainer_table]
  cases hcall : db.table msg.transId.call_id with
  | none =>
    refine storeRequest_sent now (Or.inr ⟨hcall, rfl⟩) (by simp [SipCallContainer.make]) rfl ?_
    intro c
    funext k
    by_cases hk : k = msg.transId.call_id
    · simp [hk]
    · rw [SipTransactionDB.setCall_table_of_ne _ _ hk, SipTransactionDB.setCall_table_of_ne _ _ hk]
      exact SipTransactionDB.setCall_table_of_ne _ _ hk
  | some call =>
    have hcallOk := h _ call hcall
    have hfind : call.findMsgPair (db.newContainer (sentContainer msg)).heap msg.transId =
        call.findMsgPair db.heap msg.transId :=
      findMsgPair_of_keeps (Keeps.append _ _ _) hcallOk _
    simp only [hfind]
    cases hpair : call.findMsgPair db.heap msg.transId with
    | none =>
      exact storeRequest_sent now (Or.inl hcall) ((findMsgPair_eq_none_iff hcallOk _).mp hpair) rfl
        fun _ => rfl
    | some i =>
      obtain ⟨mp, hmp, hkey⟩ := (findMsgPair_eq_some_iff hcallOk _ i).mp hpair
      have hreq := (hcallOk.pairs mp (List.mem_of_getElem? hmp)).request_isSome
      simp only [hmp, Option.bind_some, hreq, if_true]
      exact .repeated ⟨call, mp, hcall, List.mem_of_getElem? hmp, hkey, trivial⟩

theorem Sent.stops {db' : SipTransactionDB} (hsent : Sent db msg db') :
    Stops (db.heap ++ [sentContainer msg]) db'.heap := by
  cases hsent with
  | repeated => exact Store.Evolves.refl Stopped.refl _
  | stored db' call call' _ _ hheap =>
    rcases hheap with hheap | hheap
    · rw [hheap]; exact Store.Evolves.refl Stopped.refl _
    · rw [hheap]; exact Stops.stopAllRetrans _ call

theorem Sent.getElem? {db' : SipTransactionDB} (hsent : Sent db msg db') :
    ∃ c, db'.heap[db.heap.length]? = some c ∧ Stopped (sentContainer msg) c :=
  hsent.stops _ _ (Store.getElem?_alloc _ _)

theorem Sent.ok {db' : SipTransactionDB} (hsent : Sent db msg db') (h : DbOk db) :
    DbOk db' ∧ DbGrows db db' := by
  have hkeeps : Keeps (·.trans_id) db.heap db'.heap :=
    (Keeps.append _ _ _).trans (hsent.stops.keeps fun _ => rfl)
  obtain ⟨c, hget, hstopped⟩ := hsent.getElem?
  have hid : c.trans_id = msg.transId := by
    rcases hstopped with rfl | rfl
    · exact sentContainer_trans_id msg
    · exact sentContainer_trans_id msg
  cases hsent with
  | repeated => exact ⟨h.keeps hkeeps rfl, DbGrows.of_heap hkeeps rfl⟩
  | stored db' call call' hcall hnew _ hmsgs htable =>
    have hcallOk : CallOk db.heap call := by
      rcases hcall with hcall | ⟨_, rfl⟩
      · exact h _ call hcall
      · exact CallOk.make _ _
    have hadd : CallOk db'.heap (call.addMsgPair ⟨some db.heap.length, none⟩) := by
      refine (hcallOk.keeps hkeeps).addMsgPair hget fun mp hmp => ?_
      rw [requestKey_of_keeps hkeeps rfl (hcallOk.pairs mp hmp), hid]
      exact hnew mp hmp
    refine ⟨h.update hkeeps htable (hadd.of_msgs hmsgs), DbGrows.update hkeeps htable ?_⟩
    intro c hc
    rcases hcall with hcall | ⟨hnone, _⟩
    · obtain rfl := Option.some.inj (hc.symm.trans hcall)
      exact (CallGrows.addMsgPair c _).trans (CallGrows.of_msgs hmsgs)
    · rw [hnone] at hc; cases hc

theorem Sent.new_pair {db' : SipTransactionDB} (hsent : Sent db msg db')
    (hnew : ¬ Stored msg.transId db) :
    ∃ call mp, db'.table msg.transId.call_id = some call ∧ mp ∈ call.msgs ∧
      mp.request = some db.heap.length := by
  cases hsent with
  | repeated hstored => exact absurd hstored hnew
  | stored db' call call' _ _ _ hmsgs htable =>
    refine ⟨call', ⟨some db.heap.length, none⟩, ?_, ?_, rfl⟩
    · rw [htable, SipTransactionDB.setCall_table_self]
    · rw [hmsgs]
      exact List.mem_append_right _ (List.mem_singleton_self _)

/-! ### What a receive does -/

/-- What `recv` can do, with the database and the queue it ends in. -/
inductive Responded (ctx : SipAppContext) (db : SipTransactionDB) (response : StatusMsg) :
    SipTransactionDB × Option SipMsgQueue → Prop
  /-- No request for it. -/
  | unmatched (hnone : ¬ Stored response.transId db) :
      Responded ctx db response (db.newContainer (receivedContainer response), none)
  /-- Handed up without being stored. -/
  | forwarded (db' : SipTransactionDB) (call : SipCallContainer) (i : Nat) (mp : SipMsgPair) (r : Ref)
      (hforward : Forwarded ctx response) (hcall : db.table response.transId.call_id = some call)
      (hmp : call.msgs[i]? = some mp) (hkey : requestKey db.heap mp = some response.transId.key)
      (hreq : mp.request = some r)
      (hheap : db'.heap = (db.heap ++ [receivedContainer response]).modify r (.setRetransmitMax 0))
      (htable : db'.table = db.table) :
      Responded ctx db response (db', some [.status response])
  /-- The transaction has its final response: this one is ignored. -/
  | ignored (db' : SipTransactionDB) (call : SipCallContainer) (i : Nat) (mp : SipMsgPair) (r : Ref)
      (hforward : ¬ Forwarded ctx response) (hcall : db.table response.transId.call_id = some call)
      (hmp : call.msgs[i]? = some mp) (hkey : requestKey db.heap mp = some response.transId.key)
      (hreq : mp.request = some r) (hresp : mp.response.isSome)
      (hheap : db'.heap = (db.heap ++ [receivedContainer response]).modify r (.setRetransmitMax 0))
      (htable : db'.table = db.table) :
      Responded ctx db response (db', none)
  /-- The first final response: stored, and handed up with the request. -/
  | final (db' : SipTransactionDB) (call : SipCallContainer) (i : Nat) (mp : SipMsgPair) (r : Ref)
      (queue : SipMsgQueue)
      (hforward : ¬ Forwarded ctx response) (hcall : db.table response.transId.call_id = some call)
      (hmp : call.msgs[i]? = some mp) (hkey : requestKey db.heap mp = some response.transId.key)
      (hreq : mp.request = some r) (hresp : mp.response = none)
      (hqueue : queue.getLast? = some (.status response))
      (hheap : db'.heap = (db.heap ++ [receivedContainer response]).modify r (.setRetransmitMax 0))
      (htable : db'.table =
        (db.setCall response.transId.call_id (call.setResponse i db.heap.length)).table) :
      Responded ctx db response (db', some queue)

/-- **What a receive can do.** -/
theorem recv_responded (h : DbOk db) (ctx : SipAppContext) (response : StatusMsg) :
    Responded ctx db response (recv ctx db response) := by
  unfold recv processRecv
  dsimp only [SipTransactionDB.getCallContainer, SipTransactionDB.newContainer_table]
  cases hcall : db.table response.transId.call_id with
  | none =>
    refine .unmatched ?_
    rintro ⟨call, mp, hcall', _⟩
    rw [hcall] at hcall'
    cases hcall'
  | some call =>
    have hcallOk := h _ call hcall
    have hfind : call.findMsgPair (db.newContainer (receivedContainer response)).heap
        response.transId = call.findMsgPair db.heap response.transId :=
      findMsgPair_of_keeps (Keeps.append _ _ _) hcallOk _
    simp only [hfind]
    cases hpair : call.findMsgPair db.heap response.transId with
    | none =>
      refine .unmatched ?_
      rintro ⟨call', mp, hcall', hmem, hkey, _⟩
      obtain rfl := Option.some.inj (hcall'.symm.trans hcall)
      exact (findMsgPair_eq_none_iff hcallOk _).mp hpair mp hmem hkey
    | some i =>
      obtain ⟨mp, hmp, hkey⟩ := (findMsgPair_eq_some_iff hcallOk _ i).mp hpair
      obtain ⟨r, hreq⟩ := Option.isSome_iff_exists.mp
        (hcallOk.pairs mp (List.mem_of_getElem? hmp)).request_isSome
      simp only [hmp, Option.bind_some, hreq]
      split
      · rename_i hforward
        exact .forwarded _ call i mp r hforward hcall hmp hkey hreq rfl rfl
      · rename_i hforward
        split
        · rename_i old hresp
          exact .ignored _ call i mp r hforward hcall hmp hkey hreq (by rw [hresp]; rfl) rfl rfl
        · rename_i hresp
          exact .final _ call i mp r _ hforward hcall hmp hkey hreq hresp (by simp) rfl rfl

theorem Responded.stops {out : SipTransactionDB × Option SipMsgQueue}
    (hresp : Responded ctx db response out) :
    Stops (db.heap ++ [receivedContainer response]) out.1.heap := by
  cases hresp with
  | unmatched => exact Store.Evolves.refl Stopped.refl _
  | forwarded db' call i mp r _ _ _ _ _ hheap => rw [hheap]; exact Stops.setRetransmitMax _ r
  | ignored db' call i mp r _ _ _ _ _ _ hheap => rw [hheap]; exact Stops.setRetransmitMax _ r
  | final db' call i mp r queue _ _ _ _ _ _ _ hheap => rw [hheap]; exact Stops.setRetransmitMax _ r

theorem Responded.ok {out : SipTransactionDB × Option SipMsgQueue}
    (hresp : Responded ctx db response out) (h : DbOk db) : DbOk out.1 ∧ DbGrows db out.1 := by
  have hkeeps : Keeps (·.trans_id) db.heap out.1.heap :=
    (Keeps.append _ _ _).trans (hresp.stops.keeps fun _ => rfl)
  obtain ⟨c, hget, hstopped⟩ := hresp.stops _ _ (Store.getElem?_alloc _ _)
  cases hresp with
  | unmatched => exact ⟨h.keeps hkeeps rfl, DbGrows.of_heap hkeeps rfl⟩
  | forwarded db' call i mp r _ _ _ _ _ _ htable =>
    exact ⟨h.keeps hkeeps htable, DbGrows.of_heap hkeeps htable⟩
  | ignored db' call i mp r _ _ _ _ _ _ _ htable =>
    exact ⟨h.keeps hkeeps htable, DbGrows.of_heap hkeeps htable⟩
  | final db' call i mp r queue _ hcall hmp hkey _ _ _ _ htable =>
    have hid : c.trans_id = response.transId := by
      rcases hstopped with rfl | rfl
      · rfl
      · rfl
    have hkey' := requestKey_of_keeps hkeeps rfl ((h _ call hcall).pairs mp (List.mem_of_getElem? hmp))
    refine ⟨h.update hkeeps htable (((h _ call hcall).keeps hkeeps).setResponse hmp hget
      (by rw [hkey', hkey, hid])), DbGrows.update hkeeps htable ?_⟩
    intro c hc
    obtain rfl := Option.some.inj (hc.symm.trans hcall)
    exact CallGrows.setResponse _ i _

theorem Responded.stopped {out : SipTransactionDB × Option SipMsgQueue}
    (hresp : Responded ctx db response out) (h : DbOk db) (hstored : Stored response.transId db) :
    ∃ call mp r c, out.1.table response.transId.call_id = some call ∧ mp ∈ call.msgs ∧
      mp.request = some r ∧ requestKey out.1.heap mp = some response.transId.key ∧
      out.1.heap[r]? = some c ∧ c.retransCount = 0 := by
  have hkeeps : Keeps (·.trans_id) db.heap out.1.heap :=
    (Keeps.append _ _ _).trans (hresp.stops.keeps fun _ => rfl)
  -- the request that was found, and its container afterwards
  have hfound : ∀ (db' : SipTransactionDB) (call : SipCallContainer) (mp : SipMsgPair) (r : Ref),
      db.table response.transId.call_id = some call → mp ∈ call.msgs → mp.request = some r →
      db'.heap = (db.heap ++ [receivedContainer response]).modify r (.setRetransmitMax 0) →
      ∃ c, db'.heap[r]? = some c ∧ c.retransCount = 0 := by
    intro db' call mp r hcall hmem hreq hheap
    obtain ⟨c, hc⟩ := ((h _ call hcall).pairs mp hmem).request
    rw [hreq, Store.deref_some] at hc
    refine ⟨c.setRetransmitMax 0, ?_, rfl⟩
    simp [hheap, Store.getElem?_append_of_some hc]
  cases hresp with
  | unmatched hnone => exact absurd hstored hnone
  | forwarded db' call i mp r _ hcall hmp hkey hreq hheap htable =>
    have hmem := List.mem_of_getElem? hmp
    obtain ⟨c, hc, hzero⟩ := hfound db' call mp r hcall hmem hreq hheap
    exact ⟨call, mp, r, c, htable ▸ hcall, hmem, hreq,
      (requestKey_of_keeps hkeeps rfl ((h _ call hcall).pairs mp hmem)).trans hkey, hc, hzero⟩
  | ignored db' call i mp r _ hcall hmp hkey hreq _ hheap htable =>
    have hmem := List.mem_of_getElem? hmp
    obtain ⟨c, hc, hzero⟩ := hfound db' call mp r hcall hmem hreq hheap
    exact ⟨call, mp, r, c, htable ▸ hcall, hmem, hreq,
      (requestKey_of_keeps hkeeps rfl ((h _ call hcall).pairs mp hmem)).trans hkey, hc, hzero⟩
  | final db' call i mp r queue _ hcall hmp hkey hreq _ _ hheap htable =>
    have hmem := List.mem_of_getElem? hmp
    obtain ⟨c, hc, hzero⟩ := hfound db' call mp r hcall hmem hreq hheap
    have hget : (call.setResponse i db.heap.length).msgs[i]? =
        some { mp with response := some db.heap.length } := by
      simp [SipCallContainer.setResponse, hmp]
    exact ⟨_, _, r, c, by rw [htable, SipTransactionDB.setCall_table_self], List.mem_of_getElem? hget,
      hreq, (requestKey_of_keeps hkeeps rfl ((h _ call hcall).pairs mp hmem)).trans hkey, hc, hzero⟩

end SipSentRequestDB

/-- The database of sent requests as a machine. -/
def sentRequestDB (ctx : SipAppContext) :
    Machine SipTransactionDB SipSentRequestDB.Op (Option SipMsgQueue) where
  init := .empty
  step := SipSentRequestDB.step ctx

namespace SipSentRequestDB

theorem next_ok (ctx : SipAppContext) (s : SipTransactionDB) (op : Op) (h : DbOk s) :
    DbOk ((sentRequestDB ctx).next s op) := by
  cases op with
  | processSend now msg => exact ((processSend_sent h now msg).ok h).1
  | processRecv response => exact ((recv_responded h ctx response).ok h).1
  | setCallPurgeTimer id t => exact h.setCallPurgeTimer id t
  | purgeOldCalls now => exact h.purgeOldCalls now

theorem reachable_ok {ctx : SipAppContext} {s : SipTransactionDB}
    (hs : (sentRequestDB ctx).Reachable s) : DbOk s :=
  hs.induct DbOk.empty (next_ok ctx)

theorem next_grows (ctx : SipAppContext) {s : SipTransactionDB} (h : DbOk s) (op : Op) :
    KeepsCalls s ((sentRequestDB ctx).next s op) := by
  cases op with
  | processSend now msg => exact ((processSend_sent h now msg).ok h).2.keepsCalls
  | processRecv response => exact ((recv_responded h ctx response).ok h).2.keepsCalls
  | setCallPurgeTimer id t => exact (DbGrows.setCallPurgeTimer s id t).keepsCalls
  | purgeOldCalls now => exact KeepsCalls.purgeOldCalls s now

end SipSentRequestDB

end Vocal.Sip
