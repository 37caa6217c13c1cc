import Vocal.Lib.Machine
import Vocal.Sip.Pairs

/-!
# The database of sent responses

`SipSentResponseDB` stands between the transport and the application on the server side: requests
come in through `processRecv`, responses go out through `processSend`. `processRecv` answers with
the queue for the application, or with nothing when the request is filtered.

`sentResponseDB ctx` is the database as a machine: any order of sends, receives, purge timers and
purges.
-/

namespace Vocal.Sip

open Store (deref Keeps)

namespace SipSentResponseDB

/-- Storing a final response in the pair it answers; a pair that has one keeps it. -/
def storeResponse (heap : List SipMsgContainer) (call : SipCallContainer) (id : SipTransactionId)
    (retVal : Ref) : SipCallContainer :=
  match call.findMsgPair heap id with
  | some i =>
    if ((call.msgs[i]?).bind (·.response)).isSome then call else call.setResponse i retVal
  | none => call

/-- `SipSentResponseDB::processSend`; the container it returns is the one allocated first. -/
def processSend (ctx : SipAppContext) (db : SipTransactionDB) (response : StatusMsg) :
    SipTransactionDB :=
  let id := response.transId
  let retVal := db.heap.length
  let db := db.newContainer
    ((SipMsgContainer.make id (.status response)).setTransport response.headers.via.transport)
  -- if its a final response then update the transactionDB
  if 200 ≤ response.statusCode then
    match db.getCallContainer id with
    | some call =>
      let db := db.setCall id.call_id (storeResponse db.heap call id retVal)
      -- make the transport retrans it repeatedly
      if response.toBeRetransmitted ∧ ctx ≠ .APP_CONTEXT_PROXY then
        db.updateContainer retVal (.setRetransmitMax MAX_RETRANS_COUNT)
      else db
    | none => db
  else db

/-- A duplicate request: with a response stored, the new container takes the response's place; with
none, the container is cleared. -/
def recvDuplicate (db : SipTransactionDB) (k : Data) (call : SipCallContainer) (i : Nat)
    (msgContainer : Ref) : SipTransactionDB :=
  match (call.msgs[i]?).bind (·.response) with
  | some oldResponse =>
    -- turn off retrans for oldster, put new msgContainer in place
    ((db.updateContainer oldResponse (.setRetransmitMax 0)).setCall k
      (call.setResponse i msgContainer)).updateContainer msgContainer
        (.setRetransmitMax FILTER_RETRANS_COUNT)
  | none => db.updateContainer msgContainer .clear

/-- The queue for the application. An ACK brings the INVITE's pair along and stops the
retransmission of its response. -/
def deliver (db : SipTransactionDB) (call : SipCallContainer) (msg : SipCommand) :
    SipTransactionDB × SipMsgQueue :=
  if msg.type = .SIP_ACK then
    match (call.findMsgPairOfMethod db.heap .SIP_INVITE).bind (call.msgs[·]?) with
    | some mp =>
      let pairMsgs :=
        ((deref db.heap mp.request).bind (·.msgIn)).toList ++
          ((deref db.heap mp.response).bind (·.msgIn)).toList
      let db := match mp.response with
        | some r => db.updateContainer r (.setRetransmitMax 0)
        | none => db
      (db, pairMsgs ++ [.command msg])
    | none => (db, [.command msg])
  else (db, [.command msg])

/-- The response to a request that is out of order. -/
def outOfOrder (tag : Data) (msg : SipCommand) : StatusMsg :=
  { StatusMsg.ofCommand tag msg 400 with reasonPhrase := "Sequence number out of order".toList }

/-- The out-of-order branch: the request's container is turned into the 400, which is also sent. -/
def reject (ctx : SipAppContext) (tag : Data) (db : SipTransactionDB) (msgContainer : Ref)
    (msg : SipCommand) : SipTransactionDB :=
  let statusMsg := outOfOrder tag msg
  processSend ctx
    (db.updateContainer msgContainer fun c =>
      ((c.setMsgIn (.status statusMsg)).setTransport statusMsg.headers.via.transport).setRetransmitMax 1)
    statusMsg

/-- A request received for the first time; `mp` is the pair found without a request, if any. -/
def recvFirst (ctx : SipAppContext) (tag : Data) (db : SipTransactionDB) (k : Data)
    (call : SipCallContainer) (mp : Option Nat) (msgContainer : Ref) (msg : SipCommand) :
    SipTransactionDB × Option SipMsgQueue :=
  let msgSeqNumber := msg.cseqNumber
  let storedSeqNum := call.curSeqNum
  let up (call : SipCallContainer) : SipTransactionDB × Option SipMsgQueue :=
    let (db, queue) := deliver (db.setCall k call) call msg
    (db, some queue)
  if ctx ≠ .APP_CONTEXT_PROXY then
    if ¬ (msg.type = .SIP_ACK ∨ msg.type = .SIP_CANCEL) then
      let call := if mp.isNone then call.addMsgPair ⟨some msgContainer, none⟩ else call
      if call.setSeq then
        if storedSeqNum < msgSeqNumber then
          -- bump up the next sequence only if not ACK or CANCEL
          up (call.setCurSeqNum msgSeqNumber)
        else (reject ctx tag (db.setCall k call) msgContainer msg, none)
      else up call
    else if storedSeqNum < msgSeqNumber then up (call.setCurSeqNum msgSeqNumber)
    else up call
  else up call

/-- An INVITE without a call creates one. -/
def openCall (db : SipTransactionDB) (msg : SipCommand) : SipTransactionDB :=
  match db.getCallContainer msg.transId with
  | some _ => db
  | none =>
    if msg.type = .SIP_INVITE then db.addCallContainer (.make msg.transId) else db

/-- `SipSentResponseDB::processRecv` of the request `msg` in the container `msgContainer`. `tag` is
the random To tag of a response generated on the way. -/
def processRecv (ctx : SipAppContext) (tag : Data) (db : SipTransactionDB) (msgContainer : Ref)
    (msg : SipCommand) : SipTransactionDB × Option SipMsgQueue :=
  let id := msg.transId
  let db := openCall db msg
  match db.getCallContainer id with
  | none =>
    -- no transaction found or created for this message, so just proxy it up
    (db, some [.command msg])
  | some call =>
    let mp := call.findMsgPair db.heap id
    match mp with
    | some i =>
      if ((call.msgs[i]?).bind (·.request)).isSome then
        (recvDuplicate db id.call_id call i msgContainer, none)
      else recvFirst ctx tag db id.call_id call mp msgContainer msg
    | none => recvFirst ctx tag db id.call_id call mp msgContainer msg

/-- The calls an application and a transport make. A received message comes in a fresh container. -/
inductive Op
  | processSend (response : StatusMsg)
  | processRecv (tag : Data) (msg : SipCommand)
  | setCallPurgeTimer (id : SipTransactionId) (expires_at : Nat)
  | purgeOldCalls (now : Nat)

/-- The container a request arrives in. -/
def requestContainer (msg : SipCommand) : SipMsgContainer := .received (.command msg)

/-- A request arrives: the transport builds its container, the database processes it. -/
def recv (ctx : SipAppContext) (db : SipTransactionDB) (tag : Data) (msg : SipCommand) :
    SipTransactionDB × Option SipMsgQueue :=
  processRecv ctx tag (db.newContainer (requestContainer msg)) db.heap.length msg

def step (ctx : SipAppContext) (db : SipTransactionDB) : Op → SipTransactionDB × Option SipMsgQueue
  | .processSend response => (processSend ctx db response, none)
  | .processRecv tag msg => recv ctx db tag msg
  | .setCallPurgeTimer id t => (db.setCallPurgeTimer id t, none)
  | .purgeOldCalls now => (db.purgeOldCalls now, none)

/-! ### What a send does -/

/-- The container `processSend` puts the response in, but for its retransmission count. -/
def responseContainer (response : StatusMsg) : SipMsgContainer :=
  (SipMsgContainer.make response.transId (.status response)).setTransport response.headers.via.transport

theorem processSend_heap (ctx : SipAppContext) (db : SipTransactionDB) (response : StatusMsg) :
    ∃ n : Int, (processSend ctx db response).heap =
      db.heap ++ [(responseContainer response).setRetransmitMax n] := by
  unfold processSend
  dsimp only
  split
  · split
    · split
      · exact ⟨MAX_RETRANS_COUNT, Store.modify_alloc _ _ _⟩
      · exact ⟨1, rfl⟩
    · exact ⟨1, rfl⟩
  · exact ⟨1, rfl⟩

theorem processSend_table_of_call (ctx : SipAppContext) {db : SipTransactionDB} {response : StatusMsg}
    (hfinal : 200 ≤ response.statusCode) {call : SipCallContainer}
    (hcall : db.table response.transId.call_id = some call) :
    (processSend ctx db response).table = (db.setCall response.transId.call_id
      (storeResponse (db.heap ++ [responseContainer response]) call response.transId
        db.heap.length)).table := by
  simp only [processSend, if_pos hfinal, SipTransactionDB.getCallContainer,
    SipTransactionDB.newContainer_table, hcall]
  split <;> rfl

theorem processSend_stores (ctx : SipAppContext) {db : SipTransactionDB} (h : DbOk db)
    {response : StatusMsg} (hfinal : 200 ≤ response.statusCode) {call : SipCallContainer}
    (hcall : db.table response.transId.call_id = some call) {i : Nat} {mp : SipMsgPair}
    (hmp : call.msgs[i]? = some mp) (hkey : requestKey db.heap mp = some response.transId.key)
    (hresp : mp.response = none) :
    (processSend ctx db response).table =
      (db.setCall response.transId.call_id (call.setResponse i db.heap.length)).table := by
  -- the lookup sees the heap with the new container, which no pair holds yet
  have hcallOk := h _ call hcall
  have hfind : call.findMsgPair (db.heap ++ [responseContainer response]) response.transId = some i := by
    rw [findMsgPair_of_keeps (Keeps.append _ _ _) hcallOk, findMsgPair_eq_some_iff hcallOk]
    exact ⟨mp, hmp, hkey⟩
  rw [processSend_table_of_call ctx hfinal hcall, storeResponse, hfind]
  simp [hmp, hresp]

theorem processSend_table (ctx : SipAppContext) {db : SipTransactionDB} (h : DbOk db)
    (response : StatusMsg) :
    (processSend ctx db response).table = db.table ∨
      ∃ call i mp, 200 ≤ response.statusCode ∧ db.table response.transId.call_id = some call ∧
        call.msgs[i]? = some mp ∧ requestKey db.heap mp = some response.transId.key ∧
        mp.response = none ∧ (processSend ctx db response).table =
          (db.setCall response.transId.call_id (call.setResponse i db.heap.length)).table := by
  by_cases hfinal : 200 ≤ response.statusCode
  swap
  · left
    simp only [processSend, if_neg hfinal, SipTransactionDB.newContainer_table]
  cases hcall : db.table response.transId.call_id with
  | none =>
    left
    simp only [processSend, if_pos hfinal, SipTransactionDB.getCallContainer,
      SipTransactionDB.newContainer_table, hcall]
  | some call =>
    have hcallOk := h _ call hcall
    cases hfind : call.findMsgPair db.heap response.transId with
    | none =>
      left
      rw [processSend_table_of_call ctx hfinal hcall, storeResponse,
        findMsgPair_of_keeps (Keeps.append _ _ _) hcallOk, hfind, setCall_eq_self hcall]
    | some i =>
      obtain ⟨mp, hmp, hkey⟩ := (findMsgPair_eq_some_iff hcallOk _ i).mp hfind
      cases hresp : mp.response with
      | some old =>
        left
        rw [processSend_table_of_call ctx hfinal hcall, storeResponse,
          findMsgPair_of_keeps (Keeps.append _ _ _) hcallOk, hfind]
        simp [hmp, hresp, setCall_eq_self hcall]
      | none =>
        right
        exact ⟨call, i, mp, hfinal, rfl, hmp, hkey, hresp,
          processSend_stores ctx h hfinal hcall hmp hkey hresp⟩

theorem processSend_keeps (ctx : SipAppContext) (db : SipTransactionDB) (response : StatusMsg) :
    Keeps id db.heap (processSend ctx db response).heap := by
  obtain ⟨n, hheap⟩ := processSend_heap ctx db response
  rw [hheap]
  exact Keeps.append _ _ _

theorem processSend_ok (ctx : SipAppContext) {db : SipTransactionDB} (h : DbOk db)
    (response : StatusMsg) : DbOk (processSend ctx db response) := by
  obtain ⟨n, hheap⟩ := processSend_heap ctx db response
  have hkeeps := (processSend_keeps ctx db response).of_id SipMsgContainer.trans_id
  rcases processSend_table ctx h response with htable | ⟨call, i, mp, _, hcall, hmp, hkey, _, htable⟩
  · exact h.keeps hkeeps htable
  · have hget : (processSend ctx db response).heap[db.heap.length]? =
        some ((responseContainer response).setRetransmitMax n) := by
      rw [hheap]; exact Store.getElem?_alloc _ _
    have hkey' := requestKey_of_keeps hkeeps rfl ((h _ call hcall).pairs mp (List.mem_of_getElem? hmp))
    exact h.update hkeeps htable
      (((h _ call hcall).keeps hkeeps).setResponse hmp hget (by rw [hkey', hkey]; rfl))

theorem processSend_grows (ctx : SipAppContext) {db : SipTransactionDB} (h : DbOk db)
    (response : StatusMsg) : DbGrows db (processSend ctx db response) := by
  have hkeeps := (processSend_keeps ctx db response).of_id SipMsgContainer.trans_id
  rcases processSend_table ctx h response with htable | ⟨call, i, mp, _, hcall, _, _, _, htable⟩
  · exact DbGrows.of_heap hkeeps htable
  · refine DbGrows.update hkeeps htable ?_
    intro call' hcall'
    obtain rfl := Option.some.inj (hcall'.symm.trans hcall)
    exact CallGrows.setResponse _ i _

/-! ### What a receive does -/

/-- The call a request finds or, being an INVITE, creates. -/
def callFor (db : SipTransactionDB) (msg : SipCommand) : Option SipCallContainer :=
  match db.table msg.transId.call_id with
  | some call => some call
  | none => if msg.type = .SIP_INVITE then some (.make msg.transId) else none

/-- What `recv` can do outside the proxy context, with the database and the queue it ends in. -/
inductive Received (tag : Data) (db : SipTransactionDB) (msg : SipCommand) :
    SipTransactionDB × Option SipMsgQueue → Prop
  /-- No call: the request is passed up and nothing is recorded. -/
  | stray (hcall : callFor db msg = none) :
      Received tag db msg (db.newContainer (requestContainer msg), some [.command msg])
  /-- A duplicate of an answered request: its container replaces the response. -/
  | answered (db' : SipTransactionDB) (call : SipCallContainer) (i : Nat) (mp : SipMsgPair) (old : Ref)
      (hcall : db.table msg.transId.call_id = some call) (hmp : call.msgs[i]? = some mp)
      (hkey : requestKey db.heap mp = some msg.transId.key) (hresp : mp.response = some old)
      (hheap : db'.heap = (db.heap.modify old (.setRetransmitMax 0)) ++ [requestContainer msg])
      (htable : db'.table = (db.setCall msg.transId.call_id (call.setResponse i db.heap.length)).table) :
      Received tag db msg (db', none)
  /-- A duplicate of a request without a response: its container is cleared. -/
  | pending (call : SipCallContainer) (i : Nat) (mp : SipMsgPair)
      (hcall : db.table msg.transId.call_id = some call) (hmp : call.msgs[i]? = some mp)
      (hkey : requestKey db.heap mp = some msg.transId.key) (hresp : mp.response = none) :
      Received tag db msg
        (db.newContainer (requestContainer msg).clear, none)
  /-- A first ACK or CANCEL: passed up; an ACK may stop one retransmission. -/
  | acknowledged (db' : SipTransactionDB) (call : SipCallContainer) (queue : SipMsgQueue)
      (htype : msg.type = .SIP_ACK ∨ msg.type = .SIP_CANCEL) (hcall : callFor db msg = some call)
      (hnew : ∀ mp ∈ call.msgs, requestKey db.heap mp ≠ some msg.transId.key)
      (hqueue : queue.getLast? = some (.command msg))
      (hheap : db'.heap = db.heap ++ [requestContainer msg] ∨ ∃ r,
        db'.heap = (db.heap ++ [requestContainer msg]).modify r (.setRetransmitMax 0))
      (htable : db'.table = (db.setCall msg.transId.call_id
        (if call.curSeqNum < msg.cseqNumber then call.setCurSeqNum msg.cseqNumber else call)).table) :
      Received tag db msg (db', some queue)
  /-- A first request in order, or in a call whose number is not set: stored and passed up. -/
  | accepted (db' : SipTransactionDB) (call : SipCallContainer)
      (htype : ¬ (msg.type = .SIP_ACK ∨ msg.type = .SIP_CANCEL)) (hcall : callFor db msg = some call)
      (hnew : ∀ mp ∈ call.msgs, requestKey db.heap mp ≠ some msg.transId.key)
      (hseq : call.setSeq → call.curSeqNum < msg.cseqNumber)
      (hheap : db'.heap = db.heap ++ [requestContainer msg])
      (htable : db'.table = (db.setCall msg.transId.call_id
        (if call.setSeq then (call.addMsgPair ⟨some db.heap.length, none⟩).setCurSeqNum msg.cseqNumber
          else call.addMsgPair ⟨some db.heap.length, none⟩)).table) :
      Received tag db msg (db', some [.command msg])
  /-- A first request out of order: stored with its container turned into the 400, and answered. -/
  | rejected (db' : SipTransactionDB) (call : SipCallContainer)
      (htype : ¬ (msg.type = .SIP_ACK ∨ msg.type = .SIP_CANCEL)) (hcall : callFor db msg = some call)
      (hnew : ∀ mp ∈ call.msgs, requestKey db.heap mp ≠ some msg.transId.key)
      (hset : call.setSeq = true) (hseq : msg.cseqNumber ≤ call.curSeqNum)
      (hheap : ∃ c, c.trans_id = msg.transId ∧ c.msgIn = some (.status (outOfOrder tag msg)) ∧
        ∃ n, db'.heap = db.heap ++ [c, (responseContainer (outOfOrder tag msg)).setRetransmitMax n])
      (htable : db'.table = (db.setCall msg.transId.call_id
        (call.addMsgPair ⟨some db.heap.length, some (db.heap.length + 1)⟩)).table) :
      Received tag db msg (db', none)

section received

variable {ctx : SipAppContext} {tag : Data} {db db₂ : SipTransactionDB} {msg : SipCommand}

theorem received_reject (h : DbOk db) (htype : ¬ (msg.type = .SIP_ACK ∨ msg.type = .SIP_CANCEL))
    {call : SipCallContainer} (hcall : callFor db msg = some call) (hcallOk : CallOk db.heap call)
    (hnew : ∀ mp ∈ call.msgs, requestKey db.heap mp ≠ some msg.transId.key)
    (hset : call.setSeq = true) (hseq : msg.cseqNumber ≤ call.curSeqNum)
    (hheap : db₂.heap = db.heap ++ [requestContainer msg])
    (htable : db₂.table = (db.setCall msg.transId.call_id
      (call.addMsgPair ⟨some db.heap.length, none⟩)).table) :
    Received tag db msg (reject ctx tag db₂ db.heap.length msg, none) := by
  -- the container after the branch has rewritten it
  let f : SipMsgContainer → SipMsgContainer := fun c =>
    ((c.setMsgIn (.status (outOfOrder tag msg))).setTransport
      (outOfOrder tag msg).headers.via.transport).setRetransmitMax 1
  let db₃ := db₂.updateContainer db.heap.length f
  have hid : (outOfOrder tag msg).transId = msg.transId := transId_ofCommand tag msg 400
  have hheap₃ : db₃.heap = db.heap ++ [f (requestContainer msg)] := by
    rw [SipTransactionDB.updateContainer_heap, hheap, Store.modify_alloc]
  have hkeeps : Keeps (·.trans_id) db.heap db₃.heap := by rw [hheap₃]; exact Keeps.append _ _ _
  have hget : db₃.heap[db.heap.length]? = some (f (requestContainer msg)) := by
    rw [hheap₃]; exact Store.getElem?_alloc _ _
  have hlen : db₃.heap.length = db.heap.length + 1 := by rw [hheap₃]; simp
  have hcallOk₃ : CallOk db₃.heap (call.addMsgPair ⟨some db.heap.length, none⟩) := by
    refine (hcallOk.keeps hkeeps).addMsgPair hget ?_
    intro mp hmp
    rw [requestKey_of_keeps hkeeps rfl (hcallOk.pairs mp hmp)]
    exact hnew mp hmp
  have hok₃ : DbOk db₃ := h.update hkeeps htable hcallOk₃
  have hcall₃ : db₃.table (outOfOrder tag msg).transId.call_id =
      some (call.addMsgPair ⟨some db.heap.length, none⟩) := by
    rw [hid, SipTransactionDB.updateContainer_table, htable, SipTransactionDB.setCall_table_self]
  obtain ⟨n, hsend⟩ := processSend_heap ctx db₃ (outOfOrder tag msg)
  refine .rejected _ call htype hcall hnew hset hseq ?_ ?_
  · refine ⟨f (requestContainer msg), rfl, rfl, n, ?_⟩
    rw [show (reject ctx tag db₂ db.heap.length msg).heap = _ from hsend, hheap₃]
    simp
  · have hfinal : 200 ≤ (outOfOrder tag msg).statusCode := by simp [outOfOrder, StatusMsg.ofCommand]
    have hmp : (call.addMsgPair ⟨some db.heap.length, none⟩).msgs[call.msgs.length]? =
        some ⟨some db.heap.length, none⟩ := by
      simp [SipCallContainer.addMsgPair]
    have hstore := processSend_stores ctx hok₃ hfinal hcall₃ hmp
      (by rw [requestKey, Store.deref_some, hget, hid]; rfl) rfl
    rw [show (reject ctx tag db₂ db.heap.length msg).table = _ from hstore, hid]
    funext k
    by_cases hk : k = msg.transId.call_id
    · rw [hk, SipTransactionDB.setCall_table_self, SipTransactionDB.setCall_table_self, hlen]
      simp only [SipCallContainer.setResponse, SipCallContainer.addMsgPair, Store.modify_alloc]
    · rw [SipTransactionDB.setCall_table_of_ne _ _ hk, SipTransactionDB.setCall_table_of_ne _ _ hk,
        SipTransactionDB.updateContainer_table, htable, SipTransactionDB.setCall_table_of_ne _ _ hk]

theorem deliver_of_ne_ack (db : SipTransactionDB) (call : SipCallContainer) (h : msg.type ≠ .SIP_ACK) :
    deliver db call msg = (db, [.command msg]) := by
  rw [deliver, if_neg h]

/-- The queue ends in the message; an ACK stops at most one retransmission. -/
theorem deliver_spec (db : SipTransactionDB) (call : SipCallContainer) (msg : SipCommand) :
    (deliver db call msg).2.getLast? = some (.command msg) ∧
      (deliver db call msg).1.table = db.table ∧
      ((deliver db call msg).1.heap = db.heap ∨
        ∃ r, (deliver db call msg).1.heap = db.heap.modify r (.setRetransmitMax 0)) := by
  unfold deliver
  split
  · split
    · rename_i mp _
      refine ⟨by simp, ?_⟩
      dsimp only
      split
      · rename_i r _
        exact ⟨rfl, Or.inr ⟨r, rfl⟩⟩
      · exact ⟨rfl, Or.inl rfl⟩
    · exact ⟨by simp, rfl, Or.inl rfl⟩
  · exact ⟨by simp, rfl, Or.inl rfl⟩

theorem received_first (hctx : ctx ≠ .APP_CONTEXT_PROXY) (h : DbOk db) {call : SipCallContainer}
    (hcall : callFor db msg = some call) (hcallOk : CallOk db.heap call)
    (hnew : ∀ mp ∈ call.msgs, requestKey db.heap mp ≠ some msg.transId.key)
    (hheap : db₂.heap = db.heap ++ [requestContainer msg])
    (htable : ∀ c, (db₂.setCall msg.transId.call_id c).table = (db.setCall msg.transId.call_id c).table) :
    Received tag db msg
      (recvFirst ctx tag db₂ msg.transId.call_id call none db.heap.length msg) := by
  by_cases htype : msg.type = .SIP_ACK ∨ msg.type = .SIP_CANCEL
  · have hup : recvFirst ctx tag db₂ msg.transId.call_id call none db.heap.length msg =
        ((deliver (db₂.setCall msg.transId.call_id
            (if call.curSeqNum < msg.cseqNumber then call.setCurSeqNum msg.cseqNumber else call))
            (if call.curSeqNum < msg.cseqNumber then call.setCurSeqNum msg.cseqNumber else call) msg).1,
          some (deliver (db₂.setCall msg.transId.call_id
            (if call.curSeqNum < msg.cseqNumber then call.setCurSeqNum msg.cseqNumber else call))
            (if call.curSeqNum < msg.cseqNumber then call.setCurSeqNum msg.cseqNumber else call) msg).2) := by
      rw [recvFirst, if_pos hctx, if_neg (not_not_intro htype)]
      split <;> rfl
    rw [hup]
    obtain ⟨hqueue, htab, hh⟩ := deliver_spec (db₂.setCall msg.transId.call_id
      (if call.curSeqNum < msg.cseqNumber then call.setCurSeqNum msg.cseqNumber else call))
      (if call.curSeqNum < msg.cseqNumber then call.setCurSeqNum msg.cseqNumber else call) msg
    refine .acknowledged _ call _ htype hcall hnew hqueue ?_ (htab.trans (htable _))
    rw [SipTransactionDB.setCall_heap, hheap] at hh
    exact hh
  · have hne : msg.type ≠ .SIP_ACK := fun h => htype (Or.inl h)
    cases hset : call.setSeq with
    | false =>
      have hup : recvFirst ctx tag db₂ msg.transId.call_id call none db.heap.length msg =
          (db₂.setCall msg.transId.call_id (call.addMsgPair ⟨some db.heap.length, none⟩),
            some [.command msg]) := by
        simp [recvFirst, hctx, htype, SipCallContainer.addMsgPair, hset, deliver_of_ne_ack _ _ hne]
      rw [hup]
      exact .accepted _ call htype hcall hnew (by simp [hset]) hheap (by simp [hset, htable])
    | true =>
      by_cases hseq : call.curSeqNum < msg.cseqNumber
      · have hup : recvFirst ctx tag db₂ msg.transId.call_id call none db.heap.length msg =
            (db₂.setCall msg.transId.call_id
              ((call.addMsgPair ⟨some db.heap.length, none⟩).setCurSeqNum msg.cseqNumber),
              some [.command msg]) := by
          simp [recvFirst, hctx, htype, SipCallContainer.addMsgPair, hset, hseq,
            deliver_of_ne_ack _ _ hne]
        rw [hup]
        exact .accepted _ call htype hcall hnew (fun _ => hseq) hheap (by simp [hset, htable])
      · have hup : recvFirst ctx tag db₂ msg.transId.call_id call none db.heap.length msg =
            (reject ctx tag (db₂.setCall msg.transId.call_id
              (call.addMsgPair ⟨some db.heap.length, none⟩)) db.heap.length msg, none) := by
          simp [recvFirst, hctx, htype, SipCallContainer.addMsgPair, hset, hseq]
        rw [hup]
        exact received_reject h htype hcall hcallOk hnew hset (by omega) hheap (htable _)

theorem received_duplicate (h : DbOk db) {call : SipCallContainer} {i : Nat} {mp : SipMsgPair}
    (hcall : db.table msg.transId.call_id = some call) (hmp : call.msgs[i]? = some mp)
    (hkey : requestKey db.heap mp = some msg.transId.key) :
    Received tag db msg
      (recvDuplicate (db.newContainer (requestContainer msg)) msg.transId.call_id call i
        db.heap.length, none) := by
  unfold recvDuplicate
  simp only [hmp, Option.bind_some]
  cases hresp : mp.response with
  | none =>
    have hclear : (db.newContainer (requestContainer msg)).updateContainer db.heap.length
        SipMsgContainer.clear = db.newContainer (requestContainer msg).clear := by
      rw [SipTransactionDB.updateContainer, SipTransactionDB.newContainer_heap, Store.modify_alloc]
      rfl
    simp only [hclear]
    exact .pending call i mp hcall hmp hkey hresp
  | some old =>
    refine .answered _ call i mp old hcall hmp hkey hresp ?_ rfl
    obtain ⟨c, hc, _⟩ := ((h _ call hcall).pairs mp (List.mem_of_getElem? hmp)).response old hresp
    have hlen : db.heap.length = (db.heap.modify old (SipMsgContainer.setRetransmitMax 0)).length := by
      simp
    simp only [SipTransactionDB.updateContainer_heap, SipTransactionDB.setCall_heap,
      SipTransactionDB.newContainer_heap]
    rw [Store.modify_append (Store.lt_of_getElem? hc), hlen, Store.modify_alloc]
    rfl

theorem openCall_of_some {call : SipCallContainer} (hcall : db.table msg.transId.call_id = some call) :
    openCall db msg = db := by
  simp only [openCall, SipTransactionDB.getCallContainer, hcall]

theorem openCall_of_none (hcall : db.table msg.transId.call_id = none) :
    openCall db msg =
      if msg.type = .SIP_INVITE then db.setCall msg.transId.call_id (.make msg.transId) else db := by
  simp only [openCall, SipTransactionDB.getCallContainer, hcall, SipTransactionDB.addCallContainer,
    SipCallContainer.make]

theorem recv_eq (ctx : SipAppContext) (db : SipTransactionDB) (tag : Data) (msg : SipCommand) :
    recv ctx db tag msg =
      match db.table msg.transId.call_id with
      | none =>
        if msg.type = .SIP_INVITE then
          recvFirst ctx tag ((db.newContainer (requestContainer msg)).setCall msg.transId.call_id
            (.make msg.transId)) msg.transId.call_id (.make msg.transId) none db.heap.length msg
        else (db.newContainer (requestContainer msg), some [.command msg])
      | some call =>
        match call.findMsgPair (db.newContainer (requestContainer msg)).heap msg.transId with
        | some i =>
          if ((call.msgs[i]?).bind (·.request)).isSome then
            (recvDuplicate (db.newContainer (requestContainer msg)) msg.transId.call_id call i
              db.heap.length, none)
          else
            recvFirst ctx tag (db.newContainer (requestContainer msg)) msg.transId.call_id call (some i)
              db.heap.length msg
        | none =>
          recvFirst ctx tag (db.newContainer (requestContainer msg)) msg.transId.call_id call none
            db.heap.length msg := by
  unfold recv processRecv
  dsimp only
  cases hcall : db.table msg.transId.call_id with
  | none =>
    rw [openCall_of_none (by exact hcall)]
    by_cases hinvite : msg.type = .SIP_INVITE
    · simp only [if_pos hinvite, SipTransactionDB.getCallContainer, SipTransactionDB.setCall_table_self]
      rfl
    · simp only [if_neg hinvite, SipTransactionDB.getCallContainer, SipTransactionDB.newContainer_table,
        hcall]
  | some call =>
    rw [openCall_of_some (by exact hcall)]
    simp only [SipTransactionDB.getCallContainer, SipTransactionDB.newContainer_table, hcall]
    cases call.findMsgPair (db.newContainer (requestContainer msg)).heap msg.transId <;> rfl

/-- **What a receive can do** outside the proxy context. -/
theorem recv_received (hctx : ctx ≠ .APP_CONTEXT_PROXY) (h : DbOk db) (tag : Data)
    (msg : SipCommand) : Received tag db msg (recv ctx db tag msg) := by
  rw [recv_eq]
  cases hcall : db.table msg.transId.call_id with
  | none =>
    dsimp only
    split
    · -- the INVITE opens a call, which has no pair yet
      rename_i hinvite
      have hfor : callFor db msg = some (.make msg.transId) := by simp [callFor, hcall, hinvite]
      refine received_first hctx h hfor (CallOk.make _ _) (by simp [SipCallContainer.make]) rfl ?_
      intro c
      funext k
      by_cases hk : k = msg.transId.call_id
      · simp [hk]
      · simp [SipTransactionDB.setCall_table_of_ne, hk]
    · rename_i hinvite
      exact .stray (by simp [callFor, hcall, hinvite])
  | some call =>
    have hfor : callFor db msg = some call := by simp [callFor, hcall]
    have hcallOk := h _ call hcall
    have hfind : call.findMsgPair (db.newContainer (requestContainer msg)).heap msg.transId =
        call.findMsgPair db.heap msg.transId :=
      findMsgPair_of_keeps (Keeps.append _ _ _) hcallOk _
    dsimp only
    rw [hfind]
    cases hpair : call.findMsgPair db.heap msg.transId with
    | none =>
      exact received_first hctx h hfor hcallOk ((findMsgPair_eq_none_iff hcallOk _).mp hpair) rfl
        fun _ => rfl
    | some i =>
      obtain ⟨mp, hmp, hkey⟩ := (findMsgPair_eq_some_iff hcallOk _ i).mp hpair
      have hreq := (hcallOk.pairs mp (List.mem_of_getElem? hmp)).request_isSome
      simp only [hmp, Option.bind_some, hreq, if_true]
      exact received_duplicate h hcall hmp hkey

theorem callFor_ok (h : DbOk db) {call : SipCallContainer} (hcall : callFor db msg = some call) :
    CallOk db.heap call := by
  unfold callFor at hcall
  split at hcall
  · rename_i call' hcall'
    exact Option.some.inj hcall ▸ h _ call' hcall'
  · split at hcall
    · exact Option.some.inj hcall ▸ CallOk.make _ _
    · cases hcall

theorem callFor_grows {call call' : SipCallContainer} (hcall : callFor db msg = some call)
    (hgrow : CallGrows call call') :
    ∀ c, db.table msg.transId.call_id = some c → CallGrows c call' := by
  intro c hc
  rw [callFor, hc] at hcall
  exact Option.some.inj hcall ▸ hgrow

theorem Received.ok {out : SipTransactionDB × Option SipMsgQueue} (hrecv : Received tag db msg out)
    (h : DbOk db) : DbOk out.1 ∧ DbGrows db out.1 := by
  have happend : ∀ l, Keeps (·.trans_id) db.heap (db.heap ++ l) := Keeps.append _ _
  cases hrecv with
  | stray => exact ⟨h.keeps (happend _) rfl, DbGrows.of_heap (happend _) rfl⟩
  | answered db' call i mp old hcall hmp hkey hresp hheap htable =>
    have hkeeps : Keeps (·.trans_id) db.heap db'.heap := by
      rw [hheap]
      exact (Keeps.modify _ old (g := .setRetransmitMax 0) fun _ => rfl).trans (Keeps.append _ _ _)
    have hget : db'.heap[db.heap.length]? = some (requestContainer msg) := by
      rw [hheap, ← List.length_modify (SipMsgContainer.setRetransmitMax 0) db.heap old]
      exact Store.getElem?_alloc _ _
    have hkey' := requestKey_of_keeps hkeeps rfl ((h _ call hcall).pairs mp (List.mem_of_getElem? hmp))
    refine ⟨h.update hkeeps htable (((h _ call hcall).keeps hkeeps).setResponse hmp hget
      (by rw [hkey', hkey]; rfl)), DbGrows.update hkeeps htable ?_⟩
    intro c hc
    obtain rfl := Option.some.inj (hc.symm.trans hcall)
    exact CallGrows.setResponse _ i _
  | pending => exact ⟨h.keeps (happend _) rfl, DbGrows.of_heap (happend _) rfl⟩
  | acknowledged db' call queue htype hcall hnew hqueue hheap htable =>
    have hkeeps : Keeps (·.trans_id) db.heap db'.heap := by
      rcases hheap with hheap | ⟨r, hheap⟩
      · rw [hheap]; exact happend _
      · rw [hheap]; exact (happend _).trans (Keeps.modify _ _ fun _ => rfl)
    have hmsgs : (if call.curSeqNum < msg.cseqNumber then call.setCurSeqNum msg.cseqNumber
        else call).msgs = call.msgs := by
      split <;> rfl
    exact ⟨h.update hkeeps htable (((callFor_ok h hcall).keeps hkeeps).of_msgs hmsgs),
      DbGrows.update hkeeps htable (callFor_grows hcall (CallGrows.of_msgs hmsgs))⟩
  | accepted db' call htype hcall hnew hseq hheap htable =>
    have hkeeps : Keeps (·.trans_id) db.heap db'.heap := by rw [hheap]; exact happend _
    have hget : db'.heap[db.heap.length]? = some (requestContainer msg) := by
      rw [hheap]; exact Store.getElem?_alloc _ _
    have hmsgs : (if call.setSeq then
        (call.addMsgPair ⟨some db.heap.length, none⟩).setCurSeqNum msg.cseqNumber
        else call.addMsgPair ⟨some db.heap.length, none⟩).msgs =
          (call.addMsgPair ⟨some db.heap.length, none⟩).msgs := by
      split <;> rfl
    have hadd : CallOk db'.heap (call.addMsgPair ⟨some db.heap.length, none⟩) := by
      refine ((callFor_ok h hcall).keeps hkeeps).addMsgPair hget fun mp hmp => ?_
      rw [requestKey_of_keeps hkeeps rfl ((callFor_ok h hcall).pairs mp hmp)]
      exact hnew mp hmp
    exact ⟨h.update hkeeps htable (hadd.of_msgs hmsgs), DbGrows.update hkeeps htable
      (callFor_grows hcall ((CallGrows.addMsgPair call _).trans (CallGrows.of_msgs hmsgs)))⟩
  | rejected db' call htype hcall hnew hset hseq hheap htable =>
    obtain ⟨c, hid, _, n, hheap⟩ := hheap
    have hkeeps : Keeps (·.trans_id) db.heap db'.heap := by rw [hheap]; exact happend _
    have hget : db'.heap[db.heap.length]? = some c := by rw [hheap]; simp
    have hget' : db'.heap[db.heap.length + 1]? =
        some ((responseContainer (outOfOrder tag msg)).setRetransmitMax n) := by
      rw [hheap]; simp
    have hadd : CallOk db'.heap (call.addMsgPair ⟨some db.heap.length, none⟩) := by
      refine ((callFor_ok h hcall).keeps hkeeps).addMsgPair hget fun mp hmp => ?_
      rw [requestKey_of_keeps hkeeps rfl ((callFor_ok h hcall).pairs mp hmp), hid]
      exact hnew mp hmp
    have hfull : CallOk db'.heap
        (call.addMsgPair ⟨some db.heap.length, some (db.heap.length + 1)⟩) := by
      have hmp : (call.addMsgPair ⟨some db.heap.length, none⟩).msgs[call.msgs.length]? =
          some ⟨some db.heap.length, none⟩ := by
        simp [SipCallContainer.addMsgPair]
      have := hadd.setResponse hmp hget' (by
        rw [requestKey, Store.deref_some, hget, Option.map_some, hid]
        exact congrArg some (congrArg _ (transId_ofCommand tag msg 400).symm))
      simpa only [SipCallContainer.setResponse, SipCallContainer.addMsgPair, Store.modify_alloc]
        using this
    exact ⟨h.update hkeeps htable hfull,
      DbGrows.update hkeeps htable (callFor_grows hcall (CallGrows.addMsgPair call _))⟩

end received

end SipSentResponseDB

/-- The database of sent responses as a machine. -/
def sentResponseDB (ctx : SipAppContext) :
    Machine SipTransactionDB SipSentResponseDB.Op (Option SipMsgQueue) where
  init := .empty
  step := SipSentResponseDB.step ctx

namespace SipSentResponseDB

variable {ctx : SipAppContext}

theorem next_ok (hctx : ctx ≠ .APP_CONTEXT_PROXY) (s : SipTransactionDB) (op : Op) (h : DbOk s) :
    DbOk ((sentResponseDB ctx).next s op) := by
  cases op with
  | processSend response => exact processSend_ok ctx h response
  | processRecv tag msg => exact ((recv_received hctx h tag msg).ok h).1
  | setCallPurgeTimer id t => exact h.setCallPurgeTimer id t
  | purgeOldCalls now => exact h.purgeOldCalls now

theorem reachable_ok (hctx : ctx ≠ .APP_CONTEXT_PROXY) {s : SipTransactionDB}
    (hs : (sentResponseDB ctx).Reachable s) : DbOk s :=
  hs.induct DbOk.empty (next_ok hctx)

theorem next_grows (hctx : ctx ≠ .APP_CONTEXT_PROXY) {s : SipTransactionDB} (h : DbOk s) (op : Op) :
    KeepsCalls s ((sentResponseDB ctx).next s op) := by
  cases op with
  | processSend response => exact (processSend_grows ctx h response).keepsCalls
  | processRecv tag msg => exact ((recv_received hctx h tag msg).ok h).2.keepsCalls
  | setCallPurgeTimer id t => exact (DbGrows.setCallPurgeTimer s id t).keepsCalls
  | purgeOldCalls now => exact KeepsCalls.purgeOldCalls s now

/-! ### The proxy context -/

/-- No call has a pair. -/
def NoPairs (db : SipTransactionDB) : Prop := ∀ k call, db.table k = some call → call.msgs = []

theorem NoPairs.setCall {db : SipTransactionDB} (h : NoPairs db) (k : Data) {call : SipCallContainer}
    (hcall : call.msgs = []) : NoPairs (db.setCall k call) := by
  intro k' call' hcall'
  by_cases hk : k' = k
  · rw [hk, SipTransactionDB.setCall_table_self, Option.some_inj] at hcall'
    exact hcall' ▸ hcall
  · rw [SipTransactionDB.setCall_table_of_ne _ _ hk] at hcall'
    exact h k' call' hcall'

theorem NoPairs.ok {db : SipTransactionDB} (h : NoPairs db) : DbOk db := by
  intro k call hcall
  exact ⟨by rw [h k call hcall]; simp, by rw [h k call hcall]; exact List.Pairwise.nil⟩

theorem NoPairs.not_hasPair {db : SipTransactionDB} (h : NoPairs db) {k : Data}
    {key : Bool × Data × Data × Data} {P : SipMsgPair → Prop} : ¬ HasPair k key P db := by
  rintro ⟨call, mp, hcall, hmem, _⟩
  rw [h k call hcall] at hmem
  cases hmem

theorem noPairs_processSend (ctx : SipAppContext) {db : SipTransactionDB} (h : NoPairs db)
    (response : StatusMsg) : NoPairs (processSend ctx db response) := by
  rcases processSend_table ctx h.ok response with htable | ⟨call, i, mp, _, hcall, hmp, _⟩
  · intro k call hcall
    exact h k call (htable ▸ hcall)
  · rw [h _ call hcall] at hmp
    cases hmp

theorem noPairs_openCall {db : SipTransactionDB} (h : NoPairs db) (msg : SipCommand) :
    NoPairs (openCall db msg) := by
  cases hcall : db.table msg.transId.call_id with
  | some call => rw [openCall_of_some hcall]; exact h
  | none =>
    rw [openCall_of_none hcall]
    split
    · exact h.setCall _ rfl
    · exact h

theorem noPairs_recv {db : SipTransactionDB} (h : NoPairs db) (tag : Data) (msg : SipCommand) :
    NoPairs (recv .APP_CONTEXT_PROXY db tag msg).1 := by
  have hnew : NoPairs (db.newContainer (requestContainer msg)) := h
  have hopen := noPairs_openCall hnew msg
  unfold recv processRecv
  dsimp only [SipTransactionDB.getCallContainer]
  split
  · exact hopen
  · rename_i call hcall
    have hmsgs := hopen _ call hcall
    -- a call without pairs finds none, so the request is new and goes up
    rw [show call.findMsgPair (openCall (db.newContainer (requestContainer msg)) msg).heap
      msg.transId = none by rw [SipCallContainer.findMsgPair, hmsgs]; rfl]
    obtain ⟨_, htable, _⟩ := deliver_spec
      ((openCall (db.newContainer (requestContainer msg)) msg).setCall msg.transId.call_id call) call msg
    intro k call' hcall'
    refine (hopen.setCall msg.transId.call_id hmsgs) k call' ?_
    rw [← htable]
    simpa [recvFirst] using hcall'

theorem reachable_noPairs {s : SipTransactionDB}
    (hs : (sentResponseDB .APP_CONTEXT_PROXY).Reachable s) : NoPairs s := by
  refine hs.induct (P := NoPairs) (fun _ _ hcall => by cases hcall) ?_
  intro s op h
  cases op with
  | processSend response => exact noPairs_processSend _ h response
  | processRecv tag msg => exact noPairs_recv h tag msg
  | setCallPurgeTimer id t =>
    change NoPairs (s.setCallPurgeTimer id t)
    unfold SipTransactionDB.setCallPurgeTimer
    split
    · rename_i call hcall
      exact h.setCall _ (h _ call hcall)
    · exact h
  | purgeOldCalls now => exact fun k call hcall => h k call (purgeOldCalls_table hcall)

end SipSentResponseDB

end Vocal.Sip
