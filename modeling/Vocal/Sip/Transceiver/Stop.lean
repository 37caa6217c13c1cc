import Vocal.Sip.SentRequestDB.Delivery
import Vocal.Sip.Transceiver
import Vocal.Sip.UdpConnection.Budget

/-!
# A response stops the request

`processRecv` stops a request by setting the maximum of the container that the database stores. This
reaches every container of the transaction in the send queue only if the queue holds no other one:
`Tracked` says that every queued request is stored, under an id that no other stored request has.

A request that the application sends a second time is queued and not stored, and goes on after the
response (`resent_invite_not_stopped`). In runs without such sends the response stops the request
(`response_stops_request`).
-/

namespace Vocal.Sip.SipTransceiver

open Store (deref Keeps)

variable {ctx : SipAppContext} {t t' : SipTransceiver} {tag : Data} {S : Bool × Data × Data × Data → Prop}

/-- The table stores the container as a request. -/
def IsStored (table : Data → Option SipCallContainer) (r : Ref) : Prop :=
  ∃ k call mp, table k = some call ∧ mp ∈ call.msgs ∧ mp.request = some r

/-- Some call stores a request with the id. -/
def Holds (key : Bool × Data × Data × Data) (t : SipTransceiver) : Prop :=
  ∃ k, HasPair k key (fun _ => True) t.sentRequestDB

/-- The container of a request in the queue is stored, and stopped if its id is in `S`. -/
def QueuedOk (S : Bool × Data × Data × Data → Prop) (table : Data → Option SipCallContainer) (r : Ref)
    (c : SipMsgContainer) : Prop :=
  0 ≤ c.retransSoFar ∧ ∀ cmd, c.inEncode = some (.command cmd) →
    c.trans_id = cmd.transId ∧ IsStored table r ∧ (S cmd.transId.key → c.retransCount ≤ 0)

def Queued (S : Bool × Data × Data × Data → Prop) (table : Data → Option SipCallContainer)
    (u : SipUdpConnection) : Prop :=
  u.QueueAll (QueuedOk S table)

/-- The queued requests are stored, each id once; those with an id in `S` are stored and stopped. -/
structure Tracked (S : Bool × Data × Data × Data → Prop) (t : SipTransceiver) : Prop where
  db : DbOk t.sentRequestDB
  unique : ∀ k k' key, HasPair k key (fun _ => True) t.sentRequestDB →
    HasPair k' key (fun _ => True) t.sentRequestDB → k = k'
  held : ∀ key, S key → Holds key t
  queued : Queued S t.sentRequestTable t.udpConnection

/-- The datagram carries no request with an id in `S`. -/
def Quiet (S : Bool × Data × Data × Data → Prop) (e : Transmission) : Prop :=
  ∀ cmd, e.encoded = some (.command cmd) → ¬ S cmd.transId.key

/-- From `t` to `t'` no request is forgotten and no request with an id in `S` is sent. -/
structure Advances (S : Bool × Data × Data × Data → Prop) (t t' : SipTransceiver) : Prop where
  tracked : Tracked S t'
  grows : DbGrows t.sentRequestDB t'.sentRequestDB
  wire : ∃ l, t'.udpConnection.wire = t.udpConnection.wire ++ l ∧ ∀ e ∈ l, Quiet S e

/-- The condition: a request that is sent has an id that no stored request has; a response whose id
a stored request has belongs to that request's call; and no call is purged. -/
def OneContainer (t : SipTransceiver) : Op → Prop
  | .sendAsync _ sipMessage _ =>
    sipMessage.checkMaxForwards = true → ¬ Holds sipMessage.transId.key t
  | .receiveNB tcp _ => ∀ response, t.nextMessage tcp = some (.status response) →
    ∀ k, HasPair k response.transId.key (fun _ => True) t.sentRequestDB →
      k = response.transId.call_id
  | .tick _ now _ => t.lastPurge + 5000 < now →
    ∀ k call, t.sentRequestTable k = some call → SipTransactionDB.expired now call = false
  | _ => True

/-! ### Containers in the queue -/

theorem QueuedOk.stopped {table table' : Data → Option SipCallContainer} {r : Ref}
    {c c' : SipMsgContainer} (h : QueuedOk S table r c) (hc : Stopped c c')
    (htable : IsStored table r → IsStored table' r) : QueuedOk S table' r c' := by
  obtain ⟨hcount, hstored⟩ := h
  rcases hc with rfl | rfl
  · refine ⟨hcount, fun cmd hcmd => ?_⟩
    obtain ⟨hid, hst, hmax⟩ := hstored cmd hcmd
    exact ⟨hid, htable hst, hmax⟩
  · refine ⟨hcount, fun cmd hcmd => ?_⟩
    obtain ⟨hid, hst, _⟩ := hstored cmd hcmd
    exact ⟨hid, htable hst, fun _ => Int.le_refl 0⟩

theorem Queued.stops {table table' : Data → Option SipCallContainer} {u u' : SipUdpConnection}
    (h : Queued S table u) (hsendQ : u'.sendQ = u.sendQ) (hstops : Stops u.heap u'.heap)
    (htable : ∀ r, IsStored table r → IsStored table' r) : Queued S table' u' := by
  intro r hr
  obtain ⟨c, hc, hok⟩ := h r (hsendQ ▸ hr)
  obtain ⟨c', hc', hstopped⟩ := hstops r c hc
  exact ⟨c', hc', hok.stopped hstopped (htable r)⟩

theorem counted_queuedOk {table : Data → Option SipCallContainer} {r : Ref} {c : SipMsgContainer}
    (now : Nat) (h : QueuedOk S table r c) : QueuedOk S table r (SipUdpConnection.counted now c) := by
  obtain ⟨hcount, hstored⟩ := h
  refine ⟨by rw [SipUdpConnection.counted_retransSoFar]; omega, fun cmd hcmd => ?_⟩
  rw [SipUdpConnection.counted_inEncode] at hcmd
  rw [SipUdpConnection.counted_trans_id, SipUdpConnection.counted_retransCount]
  exact hstored cmd hcmd

theorem queued_round {table : Data → Option SipCallContainer} {u : SipUdpConnection} {now : Nat}
    {r : Ref} {c : SipMsgContainer} {out : SipUdpConnection × Bool}
    (hround : SipUdpConnection.Rounded now u r c out) (hr : r ∈ u.sendQ) (hc : u.heap[r]? = some c)
    (h : Queued S table u) :
    Queued S table out.1 ∧ Keeps (·.trans_id) u.heap out.1.heap ∧
      ∃ l, out.1.wire = u.wire ++ l ∧ ∀ e ∈ l, Quiet S e := by
  have hok : QueuedOk S table r c := SipUdpConnection.QueueAll.get h hr hc
  refine ⟨hround.queueAll hr hc (counted_queuedOk now) h, ?_⟩
  cases hround with
  | dropped => exact ⟨Keeps.refl _ _, [], by simp, by simp⟩
  | again => exact ⟨Keeps.refl _ _, [], by simp, by simp⟩
  | attempted u' hleft hheap hwire _ =>
    refine ⟨?_, ?_⟩
    · change Keeps _ u.heap u'.heap
      rw [hheap]
      exact Keeps.modify _ _ fun c => SipUdpConnection.counted_trans_id now c
    · rcases hwire with hwire | hwire
      · exact ⟨[], by rw [List.append_nil]; exact hwire, by simp⟩
      · refine ⟨[_], hwire, ?_⟩
        intro e he cmd hcmd hS
        rw [List.mem_singleton.mp he] at hcmd
        obtain ⟨hcount, hstored⟩ := hok
        have := (hstored cmd hcmd).2.2 hS
        omega

theorem queued_tick {table : Data → Option SipCallContainer} {u : SipUdpConnection}
    (h : Queued S table u) (arrived : Option SipMsg) (now : Nat) (rounds : Nat → Round) :
    Queued S table (u.tick arrived now rounds) ∧
      Keeps (·.trans_id) u.heap (u.tick arrived now rounds).heap ∧
      ∃ l, (u.tick arrived now rounds).wire = u.wire ++ l ∧ ∀ e ∈ l, Quiet S e := by
  unfold SipUdpConnection.tick
  refine SipUdpConnection.sendLoop_induct (P := fun u' => Queued S table u' ∧
    Keeps (·.trans_id) u.heap u'.heap ∧ ∃ l, u'.wire = u.wire ++ l ∧ ∀ e ∈ l, Quiet S e) ?_ _ _ _ ?_
  swap
  · exact ⟨h, Keeps.refl _ _, [], by simp, by simp⟩
  rintro u₁ r c out ⟨h₁, hkeeps₁, l₁, hwire₁, hquiet₁⟩ hr hc _ hround
  obtain ⟨h₂, hkeeps₂, l₂, hwire₂, hquiet₂⟩ := queued_round hround hr hc h₁
  refine ⟨h₂, hkeeps₁.trans hkeeps₂, l₁ ++ l₂, by rw [hwire₂, hwire₁, List.append_assoc], ?_⟩
  intro e he
  rcases List.mem_append.mp he with he | he
  · exact hquiet₁ e he
  · exact hquiet₂ e he

/-! ### One step -/

theorem Advances.refl (h : Tracked S t) : Advances S t t := ⟨h, DbGrows.refl _, [], by simp, by simp⟩

theorem Advances.trans {t'' : SipTransceiver} (h₁ : Advances S t t') (h₂ : Advances S t' t'') :
    Advances S t t'' := by
  obtain ⟨l₁, hwire₁, hquiet₁⟩ := h₁.wire
  obtain ⟨l₂, hwire₂, hquiet₂⟩ := h₂.wire
  refine ⟨h₂.tracked, h₁.grows.trans h₂.grows, l₁ ++ l₂,
    by rw [hwire₂, hwire₁, List.append_assoc], ?_⟩
  intro e he
  rcases List.mem_append.mp he with he | he
  · exact hquiet₁ e he
  · exact hquiet₂ e he

theorem IsStored.grows {db db' : SipTransactionDB} (hgrows : DbGrows db db') {r : Ref}
    (h : IsStored db.table r) : IsStored db'.table r := by
  obtain ⟨k, call, mp, hcall, hmem, hreq⟩ := h
  obtain ⟨call', hcall', hcalls⟩ := hgrows.calls k call hcall
  obtain ⟨i, hi⟩ := List.mem_iff_getElem?.mp hmem
  obtain ⟨mp', hmp', hreq', _⟩ := hcalls i mp hi
  exact ⟨k, call', mp', hcall', List.mem_of_getElem? hmp', hreq'.trans hreq⟩

theorem Tracked.held_grows (h : Tracked S t) (hgrows : DbGrows t.sentRequestDB t'.sentRequestDB) :
    ∀ key, S key → Holds key t' := by
  intro key hS
  obtain ⟨k, hpair⟩ := h.held key hS
  exact ⟨k, hpair.grows h.db hgrows⟩

/-- An operation of a database: it stops retransmissions and leaves the queue alone. -/
theorem Tracked.advance (h : Tracked S t) (hok : DbOk t'.sentRequestDB)
    (hgrows : DbGrows t.sentRequestDB t'.sentRequestDB)
    (hunique : ∀ k k' key, HasPair k key (fun _ => True) t'.sentRequestDB →
      HasPair k' key (fun _ => True) t'.sentRequestDB → k = k')
    (hsendQ : t'.udpConnection.sendQ = t.udpConnection.sendQ) (hstops : Stops t.heap t'.heap)
    (hwire : t'.udpConnection.wire = t.udpConnection.wire) : Advances S t t' :=
  ⟨⟨hok, hunique, h.held_grows hgrows, Queued.stops h.queued hsendQ hstops fun _ => .grows hgrows⟩,
    hgrows, [], by rw [List.append_nil]; exact hwire, by simp⟩

theorem Tracked.advance_back (h : Tracked S t) (hok : DbOk t'.sentRequestDB)
    (hgrows : DbGrows t.sentRequestDB t'.sentRequestDB)
    (hback : ∀ k key, HasPair k key (fun _ => True) t'.sentRequestDB →
      HasPair k key (fun _ => True) t.sentRequestDB)
    (hsendQ : t'.udpConnection.sendQ = t.udpConnection.sendQ) (hstops : Stops t.heap t'.heap)
    (hwire : t'.udpConnection.wire = t.udpConnection.wire) : Advances S t t' :=
  h.advance hok hgrows
    (fun k k' key hk hk' => h.unique k k' key (hback k key hk) (hback k' key hk')) hsendQ hstops hwire

theorem Tracked.advance_frame (h : Tracked S t) (htable : t'.sentRequestTable = t.sentRequestTable)
    (hsendQ : t'.udpConnection.sendQ = t.udpConnection.sendQ) (hstops : Stops t.heap t'.heap)
    (hwire : t'.udpConnection.wire = t.udpConnection.wire) : Advances S t t' := by
  have hkeeps : Keeps (·.trans_id) t.sentRequestDB.heap t'.sentRequestDB.heap :=
    hstops.keeps fun _ => rfl
  exact h.advance_back (h.db.keeps hkeeps htable) (DbGrows.of_heap hkeeps htable)
    (fun k key hpair => hpair.of_heap h.db hkeeps htable) hsendQ hstops hwire

theorem Tracked.send (h : Tracked S t) {r : Ref} {c : SipMsgContainer} (hc : t.heap[r]? = some c)
    (hnew : c.inEncode = none)
    (hmsg : ∀ cmd, c.msgIn = some (.command cmd) → c.trans_id = cmd.transId ∧
      IsStored t.sentRequestTable r ∧ ¬ S cmd.transId.key)
    (dest : Option NetworkAddress) : Advances S t (t.send r dest) := by
  by_cases htcp : isEqualNoCase c.transport TCP ∨ c.transport = "tcp".toList
  · have hsend : t.send r dest = { t with tcpSendQ := t.tcpSendQ ++ [r] } := by
      simp only [SipTransceiver.send, hc, if_pos htcp]
    rw [hsend]
    exact h.advance_frame rfl rfl (Store.Evolves.refl Stopped.refl _) rfl
  have hsend : t.send r dest = { t with udpConnection := t.udpConnection.send r dest } := by
    simp only [SipTransceiver.send, hc, if_neg htcp]
  -- a container that differs from `c` in what the transport sets
  have hset : ∀ (c' : SipMsgContainer) (u' : SipUdpConnection), c'.trans_id = c.trans_id →
      (r ∈ u'.sendQ → 0 ≤ c'.retransSoFar) → c'.inEncode = c.msgIn →
      u'.heap = t.udpConnection.heap.modify r (fun _ => c') → u'.wire = t.udpConnection.wire →
      (∀ r' ∈ u'.sendQ, r' ∈ t.udpConnection.sendQ ∨ r' = r) →
      Advances S t { t with udpConnection := u' } := by
    intro c' u' hid hcount hencode hheap hwire hsendQ
    have hkeeps : Keeps (·.trans_id) t.sentRequestDB.heap u'.heap := by
      rw [hheap]
      exact Keeps.replace hc hid
    have hgrows : DbGrows t.sentRequestDB ⟨u'.heap, t.sentRequestTable⟩ := DbGrows.of_heap hkeeps rfl
    refine ⟨⟨h.db.keeps hkeeps rfl, ?_, h.held_grows hgrows, ?_⟩, hgrows, [], by simp [hwire], by simp⟩
    · intro k k' key hk hk'
      exact h.unique k k' key (hk.of_heap h.db hkeeps rfl) (hk'.of_heap h.db hkeeps rfl)
    · refine SipUdpConnection.QueueAll.modify h.queued hc hheap hsendQ fun hr => ⟨hcount hr, ?_⟩
      intro cmd hcmd
      rw [hencode] at hcmd
      obtain ⟨hcid, hstored, hnot⟩ := hmsg cmd hcmd
      exact ⟨hid.trans hcid, hstored, fun hS => absurd hS hnot⟩
  rw [hsend]
  rcases SipUdpConnection.send_cases hc dest with
    ⟨c', hheap, hzero, _, hid, hencode, hsendQ, hwire⟩ | ⟨_, hunresolved⟩
  · refine hset c' _ hid (fun _ => hzero.ge) (hencode hnew) hheap hwire ?_
    intro r' hr'
    rw [hsendQ] at hr'
    exact (List.mem_append.mp hr').imp_right List.mem_singleton.mp
  · rw [hunresolved]
    refine hset { c with inEncode := c.msgIn } _ rfl ?_ rfl rfl rfl fun _ hr' => Or.inl hr'
    intro hr
    exact (SipUdpConnection.QueueAll.get h.queued hr hc).1

theorem Holds.advances {key : Bool × Data × Data × Data} (hok : DbOk t.sentRequestDB)
    (hadvance : Advances S t t') (h : Holds key t) : Holds key t' := by
  obtain ⟨k, hpair⟩ := h
  exact ⟨k, hpair.grows hok hadvance.grows⟩

theorem advances_sendAsync (h : Tracked S t) (now : Nat) (msg : SipCommand)
    (dest : Option NetworkAddress)
    (hone : msg.checkMaxForwards = true → ¬ Holds msg.transId.key t) :
    Advances S t (t.sendAsync now msg dest) ∧
      (msg.checkMaxForwards = true → Holds msg.transId.key (t.sendAsync now msg dest)) := by
  unfold sendAsync
  split
  swap
  · rename_i hmax
    exact ⟨Advances.refl h, fun hpass => absurd hpass hmax⟩
  rename_i hmax
  have hsent := SipSentRequestDB.processSend_sent h.db now msg
  have hfresh : ¬ Holds msg.transId.key t := hone hmax
  generalize hdb : SipSentRequestDB.processSend now t.sentRequestDB msg = db' at hsent
  obtain ⟨hok, hgrows⟩ := hsent.ok h.db
  have hstops : Stops t.heap db'.heap :=
    Store.Evolves.trans Stopped.trans (Store.Evolves.append Stopped.refl _ _) hsent.stops
  have horigin : ∀ k key, HasPair k key (fun _ => True) db' →
      HasPair k key (fun _ => True) t.sentRequestDB ∨
        msg.transId.call_id = k ∧ msg.transId.key = key := by
    intro k key hpair
    rcases hsent.origin h.db hpair with hold | ⟨hk, hkey, _⟩
    · exact Or.inl hold
    · exact Or.inr ⟨hk, hkey⟩
  have hadvance : Advances S t (t.setRequestDB db') := by
    refine h.advance hok hgrows ?_ rfl hstops rfl
    intro k k' key hk hk'
    rcases horigin k key hk with hold | ⟨rfl, rfl⟩
    · rcases horigin k' key hk' with hold' | ⟨rfl, rfl⟩
      · exact h.unique k k' key hold hold'
      · exact absurd ⟨k, hold⟩ hfresh
    · rcases horigin k' _ hk' with hold' | ⟨rfl, _⟩
      · exact absurd ⟨k', hold'⟩ hfresh
      · rfl
  obtain ⟨c, hget, hstopped⟩ := hsent.getElem?
  have hc : c.msgIn = some (.command msg) ∧ c.trans_id = msg.transId ∧ c.inEncode = none := by
    rcases hstopped with rfl | rfl
    · simp
    · exact ⟨by simp, by simp, SipSentRequestDB.sentContainer_inEncode msg⟩
  obtain ⟨call, mp, hcall, hmem, hreq⟩ := hsent.new_pair fun hstored => hfresh ⟨_, hstored⟩
  have hpair : Holds msg.transId.key (t.setRequestDB db') := by
    refine ⟨_, call, mp, hcall, hmem, ?_, trivial⟩
    rw [requestKey, hreq, Store.deref_some, ← hc.2.1]
    exact congrArg _ hget
  have hsend : Advances S (t.setRequestDB db') ((t.setRequestDB db').send t.heap.length dest) := by
    refine hadvance.tracked.send hget hc.2.2 ?_ dest
    intro cmd hcmd
    obtain rfl : msg = cmd := by simpa using hc.1.symm.trans hcmd
    exact ⟨hc.2.1, ⟨_, call, mp, hcall, hmem, hreq⟩, fun hS => hfresh (h.held _ hS)⟩
  exact ⟨hadvance.trans hsend, fun _ => hpair.advances hadvance.tracked.db hsend⟩

theorem advances_sendReply (h : Tracked S t) (response : StatusMsg) (dest : Option NetworkAddress) :
    Advances S t (t.sendReply ctx response dest) := by
  have hadvance : Advances S t
      (t.setResponseDB (SipSentResponseDB.processSend ctx t.sentResponseDB response)) :=
    h.advance_frame rfl rfl (SipSentResponseDB.processSend_stops ctx t.sentResponseDB response) rfl
  obtain ⟨n, hheap⟩ := SipSentResponseDB.processSend_heap ctx t.sentResponseDB response
  have hget : (t.setResponseDB (SipSentResponseDB.processSend ctx t.sentResponseDB response)).heap[
      t.heap.length]? = some ((SipSentResponseDB.responseContainer response).setRetransmitMax n) := by
    change (SipSentResponseDB.processSend ctx t.sentResponseDB response).heap[t.heap.length]? = _
    rw [hheap]
    exact Store.getElem?_alloc _ _
  refine hadvance.trans (hadvance.tracked.send hget rfl ?_ dest)
  intro cmd hcmd
  cases hcmd

theorem advances_setCallPurgeTimer (h : Tracked S t) (id : SipTransactionId) (n : Nat) :
    Advances S t (t.setCallPurgeTimer id n) := by
  have hheap := setCallPurgeTimer_heap t.sentRequestDB id n
  have hdb : (t.setCallPurgeTimer id n).sentRequestDB = t.sentRequestDB.setCallPurgeTimer id n := by
    change (⟨t.sentRequestDB.heap, (t.sentRequestDB.setCallPurgeTimer id n).table⟩ :
      SipTransactionDB) = _
    rw [← hheap]
  refine h.advance_back ?_ ?_ ?_ rfl (Store.Evolves.refl Stopped.refl _) rfl
  · rw [hdb]; exact h.db.setCallPurgeTimer id n
  · rw [hdb]; exact DbGrows.setCallPurgeTimer _ id n
  · intro k key hpair
    rw [hdb] at hpair
    refine hpair.back h.db (by rw [hheap]; exact Keeps.refl _ _) fun call' hcall' => ?_
    obtain ⟨call, hcall, hmsgs⟩ := setCallPurgeTimer_table hcall'
    exact ⟨call, hcall, by rw [hmsgs]⟩

theorem advances_tick (h : Tracked S t) (arrived : Option SipMsg) (now : Nat) (rounds : Nat → Round)
    (hone : t.lastPurge + 5000 < now →
      ∀ k call, t.sentRequestTable k = some call → SipTransactionDB.expired now call = false) :
    Advances S t (t.tick arrived now rounds) := by
  obtain ⟨hqueued, hkeeps, hwire⟩ := queued_tick h.queued arrived now rounds
  let t₁ := { t with udpConnection := t.udpConnection.tick arrived now rounds }
  have hgrows : DbGrows t.sentRequestDB t₁.sentRequestDB := DbGrows.of_heap hkeeps rfl
  have hadvance : Advances S t t₁ := by
    refine ⟨⟨h.db.keeps hkeeps rfl, ?_, h.held_grows hgrows, hqueued⟩, hgrows, hwire⟩
    intro k k' key hk hk'
    exact h.unique k k' key (hk.of_heap h.db hkeeps rfl) (hk'.of_heap h.db hkeeps rfl)
  unfold tick
  dsimp only
  split
  swap
  · exact hadvance
  rename_i hdue
  refine hadvance.trans (hadvance.tracked.advance_frame ?_ rfl (Store.Evolves.refl Stopped.refl _) rfl)
  funext k
  cases hcall : t.sentRequestTable k with
  | none => simp [SipTransactionDB.purgeOldCalls, sentRequestDB, hcall]
  | some call =>
    simp [SipTransactionDB.purgeOldCalls, sentRequestDB, hcall, hone hdue k call hcall]

theorem advances_receiveNB (ctx : SipAppContext) (h : Tracked S t) (tcp : Option SipMsg) (tag : Data) :
    Advances S t (t.receiveNB ctx tcp tag).1 := by
  let t₁ := { t with
    udpConnection := { t.udpConnection with rcvFifo := t.udpConnection.rcvFifo.tail } }
  have hfifo : Advances S t t₁ :=
    h.advance_frame rfl rfl (Store.Evolves.refl Stopped.refl _) rfl
  unfold receiveNB
  dsimp only
  split
  · exact hfifo
  · rename_i response _
    have hresp := SipSentRequestDB.recv_responded hfifo.tracked.db ctx response
    obtain ⟨hok, hgrows⟩ := hresp.ok hfifo.tracked.db
    have hstops : Stops t₁.heap (SipSentRequestDB.recv ctx t₁.sentRequestDB response).1.heap :=
      Store.Evolves.trans Stopped.trans (Store.Evolves.append Stopped.refl _ _) hresp.stops
    exact hfifo.trans (hfifo.tracked.advance_back hok hgrows
      (fun k key hpair => hresp.origin hfifo.tracked.db hpair) rfl hstops rfl)
  · rename_i command _
    exact hfifo.trans (hfifo.tracked.advance_frame rfl rfl
      (SipSentResponseDB.recv_stops ctx t₁.sentResponseDB tag command) rfl)

/-- The step lemma. -/
theorem advances_next (h : Tracked S t) (op : Op) (hone : OneContainer t op) :
    Advances S t ((transceiver ctx).next t op) := by
  cases op with
  | sendAsync now sipMessage dest => exact (advances_sendAsync h now sipMessage dest hone).1
  | sendReply sipMessage dest => exact advances_sendReply h sipMessage dest
  | setCallPurgeTimer forCall expire_at_ms => exact advances_setCallPurgeTimer h forCall expire_at_ms
  | tick arrived now rounds => exact advances_tick h arrived now rounds hone
  | receiveNB tcp tag => exact advances_receiveNB ctx h tcp tag

/-- The run lemma. -/
theorem advances_run (ops : List Op) (h : Tracked S t)
    (hone : (transceiver ctx).Along OneContainer t ops) :
    Advances S t ((transceiver ctx).run t ops) := by
  refine Machine.run_of_guarded (P := Advances S t) ?_ ops t (Advances.refl h) hone
  intro t' op hadvance hop
  exact hadvance.trans (advances_next hadvance.tracked op hop)

/-! ### The response -/

/-- A response of a stored request stops every queued request with its id. -/
theorem tracked_response (ctx : SipAppContext) (h : Tracked (fun _ => False) t) {tcp : Option SipMsg} {response : StatusMsg}
    (hone : OneContainer t (.receiveNB tcp tag))
    (hmsg : t.nextMessage tcp = some (.status response)) (hheld : Holds response.transId.key t) :
    Tracked (· = response.transId.key) (t.receiveNB ctx tcp tag).1 := by
  obtain ⟨⟨hok', hunique', _, hqueued'⟩, hgrows, _⟩ := advances_receiveNB ctx h tcp tag
  obtain ⟨k, hpair⟩ := hheld
  obtain rfl := hone response hmsg k hpair
  refine ⟨hok', hunique', ?_, ?_⟩
  · rintro key rfl
    exact ⟨_, hpair.grows h.db hgrows⟩
  -- the request of the transaction that was stopped
  obtain ⟨call, mp, r₀, c₀, hcall, hmem, hreq, hkey, hc₀, hzero⟩ :=
    (SipSentRequestDB.recv_responded h.db ctx response).stopped h.db hpair
  have hdb : (t.receiveNB ctx tcp tag).1.sentRequestDB =
      (SipSentRequestDB.recv ctx t.sentRequestDB response).1 := by
    simp only [receiveNB, hmsg]
    rfl
  rw [← hdb] at hcall hkey hc₀
  intro r hr
  obtain ⟨c, hc, hcount, hstored⟩ := hqueued' r hr
  refine ⟨c, hc, hcount, fun cmd hcmd => ?_⟩
  obtain ⟨hid, ⟨k', call', mp', hcall', hmem', hreq'⟩, _⟩ := hstored cmd hcmd
  refine ⟨hid, ⟨k', call', mp', hcall', hmem', hreq'⟩, fun hS => ?_⟩
  have hkey' : requestKey (t.receiveNB ctx tcp tag).1.sentRequestDB.heap mp' =
      some response.transId.key := by
    rw [requestKey, hreq', Store.deref_some,
      show (t.receiveNB ctx tcp tag).1.sentRequestDB.heap[r]? = some c from hc, Option.map_some, hid, hS]
  obtain rfl := hunique' k' _ _ ⟨call', mp', hcall', hmem', hkey', trivial⟩
    ⟨call, mp, hcall, hmem, hkey, trivial⟩
  obtain rfl := Option.some.inj (hcall'.symm.trans hcall)
  obtain rfl := (hok' _ call' hcall).pair_unique hmem' hmem hkey' hkey
  obtain rfl := Option.some.inj (hreq'.symm.trans hreq)
  obtain rfl := Option.some.inj (hc.symm.trans hc₀)
  exact hzero.le

theorem tracked_empty : Tracked (fun _ => False) empty := by
  refine ⟨DbOk.empty, ?_, fun _ hS => hS.elim, fun r hr => by cases hr⟩
  rintro k k' key ⟨call, mp, hcall, _⟩
  cases hcall

theorem holds_of_sent {ops : List Op} (hone : (transceiver ctx).Along OneContainer .empty ops)
    {now : Nat} {msg : SipCommand} {dest : Option NetworkAddress}
    (hsent : .sendAsync now msg dest ∈ ops) (hmax : msg.checkMaxForwards = true) :
    Holds msg.transId.key ((transceiver ctx).run .empty ops) := by
  obtain ⟨pre, post, rfl⟩ := List.append_of_mem hsent
  obtain ⟨hpre, hop, hpost⟩ := ((transceiver ctx).along_append _ _ _ _).mp hone
  have htracked := (advances_run pre tracked_empty hpre).tracked
  obtain ⟨hadvance, hholds⟩ := advances_sendAsync htracked now msg dest hop
  rw [Machine.run_append, Machine.run_cons]
  exact (hholds hmax).advances hadvance.tracked.db (advances_run post hadvance.tracked hpost)

/-- **A response stops the request.** In every run that meets the condition, once `receiveNB` has
processed a response whose id equals that of a request that was sent, no datagram carries a request
with that id. -/
theorem response_stops_request (pre post : List Op) (tcp : Option SipMsg) (tag : Data)
    (hone : (transceiver ctx).Along OneContainer .empty (pre ++ .receiveNB tcp tag :: post))
    {response : StatusMsg}
    (hmsg : ((transceiver ctx).run .empty pre).nextMessage tcp = some (.status response))
    {now : Nat} {msg : SipCommand} {dest : Option NetworkAddress}
    (hsent : .sendAsync now msg dest ∈ pre) (hmax : msg.checkMaxForwards = true)
    (hid : response.transId.equals msg.transId = true) :
    ∃ l, ((transceiver ctx).run .empty (pre ++ .receiveNB tcp tag :: post)).udpConnection.wire =
        ((transceiver ctx).run .empty (pre ++ [.receiveNB tcp tag])).udpConnection.wire ++ l ∧
      ∀ e ∈ l, ∀ cmd, e.encoded = some (.command cmd) → cmd.transId.equals response.transId = false := by
  obtain ⟨hpre, hop, hpost⟩ := ((transceiver ctx).along_append _ _ _ _).mp hone
  have htracked := (advances_run pre tracked_empty hpre).tracked
  have hheld : Holds response.transId.key ((transceiver ctx).run .empty pre) := by
    rw [SipTransactionId.equals_iff.mp hid]
    exact holds_of_sent hpre hsent hmax
  have hstopped := tracked_response ctx htracked hop hmsg hheld
  obtain ⟨l, hwire, hquiet⟩ := (advances_run post hstopped hpost).wire
  rw [Machine.run_append, Machine.run_cons, Machine.run_concat]
  refine ⟨l, hwire, ?_⟩
  intro e he cmd hcmd
  rw [← Bool.not_eq_true, SipTransactionId.equals_iff]
  exact hquiet e he cmd hcmd

/-- The INVITE of the runs below, and its response. -/
def invite : SipCommand := inviteFrom "h".toList "1".toList

def ok : StatusMsg := .ofCommand "t".toList invite 200

/-- The INVITE is sent, goes out, and is answered. -/
def answered : List Op :=
  [.sendAsync 0 invite (some ⟨1, 5060⟩), .tick (some (.status ok)) 0 SipUdpConnection.delivering]

theorem response_stops_request_invite :
    ∃ l, ((transceiver .APP_CONTEXT_GENERIC).run .empty (answered ++
        [.receiveNB none [], .tick none 600 SipUdpConnection.delivering])).udpConnection.wire =
        ((transceiver .APP_CONTEXT_GENERIC).run .empty
          (answered ++ [.receiveNB none []])).udpConnection.wire ++ l ∧
      ∀ e ∈ l, ∀ cmd, e.encoded = some (.command cmd) → cmd.transId.equals ok.transId = false := by
  have hsent : .sendAsync 0 invite (some ⟨1, 5060⟩) ∈ answered := List.mem_cons_self ..
  refine response_stops_request answered [.tick none 600 SipUdpConnection.delivering] none [] ?_
    (by decide) hsent (by decide) (by decide)
  refine ⟨?_, ?_, ?_, ?_, trivial⟩
  · rintro _ ⟨k, call, mp, hcall, _⟩
    cases hcall
  · intro hdue
    exact absurd hdue (by decide)
  · rintro response hmsg k ⟨call, mp, hcall, _⟩
    obtain rfl : ok = response := by
      have hok : ((transceiver .APP_CONTEXT_GENERIC).run .empty answered).nextMessage none =
          some (.status ok) := by decide
      simpa using hok.symm.trans hmsg
    by_contra hk
    have hnone : ((transceiver .APP_CONTEXT_GENERIC).run .empty answered).sentRequestTable k = none := by
      have hne : ¬ k = invite.transId.call_id := hk
      exact (if_neg hne).trans (if_neg hne)
    rw [show ((transceiver .APP_CONTEXT_GENERIC).run .empty answered).sentRequestTable k = some call
      from hcall] at hnone
    cases hnone
  · intro hdue
    exact absurd hdue (by decide)

/-- The application sends the INVITE twice and the response arrives: the second container is sent
again. -/
theorem resent_invite_not_stopped :
    let t₀ := (transceiver .APP_CONTEXT_GENERIC).run .empty
      (.sendAsync 0 invite (some ⟨1, 5060⟩) :: answered)
    let t := (transceiver .APP_CONTEXT_GENERIC).next t₀ (.receiveNB none [])
    let t' := (transceiver .APP_CONTEXT_GENERIC).next t (.tick none 600 SipUdpConnection.delivering)
    t₀.nextMessage none = some (.status ok) ∧ ok.transId.equals invite.transId = true ∧
      t'.udpConnection.wire = t.udpConnection.wire ++ [⟨1, some (.command invite), 500, 600⟩] := by
  decide

end Vocal.Sip.SipTransceiver
