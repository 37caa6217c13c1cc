import Vocal.Sip.Container

/-!
# What the transaction databases keep

Both databases store message pairs and look them up with `findMsgPair`. Two facts carry every
argument about them:

* `DbOk`: each pair has a request, a stored response has the request's transaction id, and no two
  pairs of a call share an id. Then `findMsgPair` is the lookup of the request's id
  (`findMsgPair_eq_some_iff`, `findMsgPair_eq_none_iff`).
* `DbGrows`: an operation only appends pairs to a call, never replaces a request, and never empties
  a response slot.
-/

namespace Vocal.Sip

open Store (deref Keeps)
open SipCallContainer (pairMatches)

/-- The id a pair is found by. -/
def requestKey (heap : List SipMsgContainer) (mp : SipMsgPair) : Option (Bool × Data × Data × Data) :=
  (deref heap mp.request).map (·.trans_id.key)

structure PairOk (heap : List SipMsgContainer) (mp : SipMsgPair) : Prop where
  request : ∃ c, deref heap mp.request = some c
  response : ∀ r, mp.response = some r → ∃ c, heap[r]? = some c ∧ requestKey heap mp = some c.trans_id.key

structure CallOk (heap : List SipMsgContainer) (call : SipCallContainer) : Prop where
  pairs : ∀ mp ∈ call.msgs, PairOk heap mp
  distinct : call.msgs.Pairwise fun a b => requestKey heap a ≠ requestKey heap b

def DbOk (db : SipTransactionDB) : Prop :=
  ∀ k call, db.table k = some call → CallOk db.heap call

/-- `call` became `call'`: pairs may have been appended and responses stored. -/
def CallGrows (call call' : SipCallContainer) : Prop :=
  ∀ (i : Nat) (mp : SipMsgPair), call.msgs[i]? = some mp →
    ∃ mp', call'.msgs[i]? = some mp' ∧ mp'.request = mp.request ∧
      (mp.response.isSome → mp'.response.isSome)

structure DbGrows (db db' : SipTransactionDB) : Prop where
  heap : Keeps (·.trans_id) db.heap db'.heap
  calls : ∀ k call, db.table k = some call → ∃ call', db'.table k = some call' ∧ CallGrows call call'

/-- A container stays as it is, or its retransmission is stopped. -/
def Stopped (c c' : SipMsgContainer) : Prop := c' = c ∨ c' = c.setRetransmitMax 0

/-- What a database does to the containers that it did not allocate itself. -/
abbrev Stops (heap heap' : List SipMsgContainer) : Prop := Store.Evolves Stopped heap heap'

/-! ### Stopping retransmissions -/

theorem Stopped.refl (c : SipMsgContainer) : Stopped c c := Or.inl rfl

theorem Stopped.trans (a b c : SipMsgContainer) (hab : Stopped a b) (hbc : Stopped b c) :
    Stopped a c := by
  rcases hab with rfl | rfl
  · exact hbc
  · rcases hbc with rfl | rfl
    · exact Or.inr rfl
    · exact Or.inr rfl

theorem Stops.setRetransmitMax (heap : List SipMsgContainer) (r : Ref) :
    Stops heap (heap.modify r (.setRetransmitMax 0)) :=
  Store.Evolves.modify Stopped.refl heap r fun _ => Or.inr rfl

theorem Stops.stopAllRetrans (heap : List SipMsgContainer) (call : SipCallContainer) :
    Stops heap (call.stopAllRetrans heap) := by
  unfold SipCallContainer.stopAllRetrans
  induction call.msgs generalizing heap with
  | nil => exact Store.Evolves.refl Stopped.refl heap
  | cons mp msgs ih =>
    rw [List.foldl_cons]
    refine Store.Evolves.trans Stopped.trans ?_ (ih _)
    split
    · exact Stops.setRetransmitMax heap _
    · exact Store.Evolves.refl Stopped.refl heap

theorem Stops.keeps {β : Type} {f : SipMsgContainer → β} (hf : ∀ c, f (c.setRetransmitMax 0) = f c)
    {heap heap' : List SipMsgContainer} (h : Stops heap heap') : Keeps f heap heap' := by
  refine Store.Evolves.mono ?_ h
  rintro c c' (rfl | rfl)
  · rfl
  · exact hf c

/-! ### Lookups -/

theorem PairOk.request_isSome {heap : List SipMsgContainer} {mp : SipMsgPair} (h : PairOk heap mp) :
    mp.request.isSome := by
  obtain ⟨c, hc⟩ := h.request
  cases hreq : mp.request with
  | none => rw [hreq] at hc; simp at hc
  | some r => rfl

theorem pairMatches_iff {heap : List SipMsgContainer} {mp : SipMsgPair} (h : PairOk heap mp)
    (id : SipTransactionId) : pairMatches heap id mp = true ↔ requestKey heap mp = some id.key := by
  obtain ⟨c, hc⟩ := h.request
  have hkey : requestKey heap mp = some c.trans_id.key := by rw [requestKey, hc]; rfl
  have hreq : (deref heap mp.request).any (·.matches id) = true ↔ c.trans_id.key = id.key := by
    rw [hc, Option.any_some, SipMsgContainer.matches, SipTransactionId.equals_iff]
    exact eq_comm
  rw [pairMatches, Bool.or_eq_true, hreq, hkey, Option.some_inj]
  refine ⟨fun hor => ?_, Or.inl⟩
  rcases hor with hmatch | hmatch
  · exact hmatch
  · -- the response slot can only repeat the request's id
    cases hresp : mp.response with
    | none => rw [hresp] at hmatch; simp at hmatch
    | some r =>
      obtain ⟨c', hc', hkey'⟩ := h.response r hresp
      rw [hresp, Store.deref_some, hc', Option.any_some, SipMsgContainer.matches,
        SipTransactionId.equals_iff] at hmatch
      rw [hkey, Option.some_inj] at hkey'
      rw [hkey', hmatch]

theorem findMsgPair_eq_none_iff {heap : List SipMsgContainer} {call : SipCallContainer}
    (h : CallOk heap call) (id : SipTransactionId) :
    call.findMsgPair heap id = none ↔ ∀ mp ∈ call.msgs, requestKey heap mp ≠ some id.key := by
  rw [SipCallContainer.findMsgPair, List.findIdx?_eq_none_iff]
  constructor
  · intro hnone mp hmp hkey
    have := hnone mp hmp
    rw [(pairMatches_iff (h.pairs mp hmp) id).mpr hkey] at this
    cases this
  · intro hne mp hmp
    rw [← Bool.not_eq_true]
    exact fun hm => hne mp hmp ((pairMatches_iff (h.pairs mp hmp) id).mp hm)

theorem findMsgPair_eq_some_iff {heap : List SipMsgContainer} {call : SipCallContainer}
    (h : CallOk heap call) (id : SipTransactionId) (i : Nat) :
    call.findMsgPair heap id = some i ↔
      ∃ mp, call.msgs[i]? = some mp ∧ requestKey heap mp = some id.key := by
  rw [SipCallContainer.findMsgPair, List.findIdx?_eq_some_iff_getElem]
  constructor
  · rintro ⟨hlt, hmatch, _⟩
    exact ⟨call.msgs[i], List.getElem?_eq_getElem hlt,
      (pairMatches_iff (h.pairs _ (List.getElem_mem hlt)) id).mp hmatch⟩
  · rintro ⟨mp, hmp, hkey⟩
    obtain ⟨hlt, rfl⟩ := List.getElem?_eq_some_iff.mp hmp
    refine ⟨hlt, (pairMatches_iff (h.pairs _ (List.getElem_mem hlt)) id).mpr hkey, ?_⟩
    intro j hj
    rw [pairMatches_iff (h.pairs _ (List.getElem_mem _)) id, ← hkey]
    exact List.pairwise_iff_getElem.mp h.distinct j i (by omega) hlt hj

theorem CallOk.pair_unique {heap : List SipMsgContainer} {call : SipCallContainer}
    (h : CallOk heap call) {id : SipTransactionId} {mp mp' : SipMsgPair} (hmp : mp ∈ call.msgs)
    (hmp' : mp' ∈ call.msgs) (hkey : requestKey heap mp = some id.key)
    (hkey' : requestKey heap mp' = some id.key) : mp = mp' := by
  obtain ⟨i, hi⟩ := List.mem_iff_getElem?.mp hmp
  obtain ⟨j, hj⟩ := List.mem_iff_getElem?.mp hmp'
  have hfind := (findMsgPair_eq_some_iff h id i).mpr ⟨mp, hi, hkey⟩
  have hfind' := (findMsgPair_eq_some_iff h id j).mpr ⟨mp', hj, hkey'⟩
  obtain rfl := Option.some.inj (hfind.symm.trans hfind')
  exact Option.some.inj (hi.symm.trans hj)

/-! ### The invariant is kept by the elementary updates -/

theorem requestKey_of_keeps {heap heap' : List SipMsgContainer}
    (hk : Keeps (·.trans_id) heap heap') {mp mp' : SipMsgPair} (hreq : mp'.request = mp.request)
    (hok : PairOk heap mp) : requestKey heap' mp' = requestKey heap mp := by
  obtain ⟨c, hc⟩ := hok.request
  obtain ⟨c', hc', hid⟩ := hk.deref hc
  rw [requestKey, requestKey, hreq, hc, hc', Option.map_some, Option.map_some, hid]

theorem PairOk.keeps {heap heap' : List SipMsgContainer} (hk : Keeps (·.trans_id) heap heap')
    {mp : SipMsgPair} (h : PairOk heap mp) : PairOk heap' mp := by
  constructor
  · obtain ⟨c, hc⟩ := h.request
    obtain ⟨c', hc', _⟩ := hk.deref hc
    exact ⟨c', hc'⟩
  · intro r hr
    obtain ⟨c, hc, hkey⟩ := h.response r hr
    obtain ⟨c', hc', hid⟩ := hk r c hc
    change c'.trans_id = c.trans_id at hid
    exact ⟨c', hc', by rw [requestKey_of_keeps hk rfl h, hkey, hid]⟩

theorem CallOk.keeps {heap heap' : List SipMsgContainer} (hk : Keeps (·.trans_id) heap heap')
    {call : SipCallContainer} (h : CallOk heap call) : CallOk heap' call := by
  refine ⟨fun mp hmp => (h.pairs mp hmp).keeps hk, ?_⟩
  refine h.distinct.imp_of_mem ?_
  intro a b ha hb hne
  rwa [requestKey_of_keeps hk rfl (h.pairs a ha), requestKey_of_keeps hk rfl (h.pairs b hb)]

theorem findMsgPair_of_keeps {heap heap' : List SipMsgContainer} (hk : Keeps (·.trans_id) heap heap')
    {call : SipCallContainer} (h : CallOk heap call) (id : SipTransactionId) :
    call.findMsgPair heap' id = call.findMsgPair heap id := by
  ext i
  simp only [findMsgPair_eq_some_iff h, findMsgPair_eq_some_iff (h.keeps hk)]
  refine exists_congr fun mp => and_congr_right fun hmp => ?_
  rw [requestKey_of_keeps hk rfl (h.pairs mp (List.mem_of_getElem? hmp))]

theorem CallOk.make (heap : List SipMsgContainer) (id : SipTransactionId) :
    CallOk heap (.make id) :=
  ⟨by simp [SipCallContainer.make], by simp [SipCallContainer.make]⟩

theorem CallOk.of_msgs {heap : List SipMsgContainer} {call call' : SipCallContainer}
    (h : CallOk heap call) (hmsgs : call'.msgs = call.msgs) : CallOk heap call' :=
  ⟨by rw [hmsgs]; exact h.pairs, by rw [hmsgs]; exact h.distinct⟩

theorem CallOk.addMsgPair {heap : List SipMsgContainer} {call : SipCallContainer}
    (h : CallOk heap call) {r : Ref} {c : SipMsgContainer} (hr : heap[r]? = some c)
    (hnew : ∀ mp ∈ call.msgs, requestKey heap mp ≠ some c.trans_id.key) :
    CallOk heap (call.addMsgPair ⟨some r, none⟩) := by
  have hpair : PairOk heap ⟨some r, none⟩ := ⟨⟨c, hr⟩, by simp⟩
  have hkey : requestKey heap ⟨some r, none⟩ = some c.trans_id.key := by simp [requestKey, hr]
  refine ⟨?_, ?_⟩
  · intro mp hmp
    rcases List.mem_append.mp hmp with hmp | hmp
    · exact h.pairs mp hmp
    · rw [List.mem_singleton.mp hmp]; exact hpair
  · refine List.pairwise_append.mpr ⟨h.distinct, List.pairwise_singleton _ _, ?_⟩
    intro a ha b hb
    rw [List.mem_singleton.mp hb, hkey]
    exact hnew a ha

theorem CallOk.setResponse {heap : List SipMsgContainer} {call : SipCallContainer}
    (h : CallOk heap call) {i : Nat} {mp : SipMsgPair} (hmp : call.msgs[i]? = some mp) {r : Ref}
    {c : SipMsgContainer} (hr : heap[r]? = some c) (hkey : requestKey heap mp = some c.trans_id.key) :
    CallOk heap (call.setResponse i r) := by
  have hget : ∀ (j : Nat) (q : SipMsgPair), (call.setResponse i r).msgs[j]? = some q →
      ∃ p, call.msgs[j]? = some p ∧ q.request = p.request ∧ PairOk heap q := by
    intro j q hq
    rw [SipCallContainer.setResponse, List.getElem?_modify] at hq
    obtain ⟨p, hp, rfl⟩ := Option.map_eq_some_iff.mp hq
    have hok := h.pairs p (List.mem_of_getElem? hp)
    by_cases hij : i = j
    · subst hij
      rw [hmp] at hp
      obtain rfl := Option.some.inj hp
      refine ⟨mp, hmp, by simp, ?_⟩
      simp only [if_true]
      refine ⟨hok.request, ?_⟩
      intro r' hr'
      obtain rfl := Option.some.inj hr'
      exact ⟨c, hr, hkey⟩
    · exact ⟨p, hp, by simp [hij], by simpa [hij] using hok⟩
  refine ⟨?_, ?_⟩
  · intro q hq
    obtain ⟨j, hj⟩ := List.mem_iff_getElem?.mp hq
    exact (hget j q hj).choose_spec.2.2
  · rw [List.pairwise_iff_getElem]
    intro a b ha hb hab
    obtain ⟨p, hp, hpr, _⟩ := hget a _ (List.getElem?_eq_getElem ha)
    obtain ⟨q, hq, hqr, _⟩ := hget b _ (List.getElem?_eq_getElem hb)
    obtain ⟨ha', rfl⟩ := List.getElem?_eq_some_iff.mp hp
    obtain ⟨hb', rfl⟩ := List.getElem?_eq_some_iff.mp hq
    rw [requestKey, requestKey, hpr, hqr]
    exact List.pairwise_iff_getElem.mp h.distinct a b ha' hb' hab

theorem setResponse_requests (call : SipCallContainer) (i : Nat) (r : Ref) :
    (call.setResponse i r).msgs.map (·.request) = call.msgs.map (·.request) := by
  refine List.ext_getElem? ?_
  intro j
  rw [SipCallContainer.setResponse, List.getElem?_map, List.getElem?_map, List.getElem?_modify]
  cases call.msgs[j]? with
  | none => rfl
  | some mp =>
    by_cases hij : i = j
    · simp [hij]
    · simp [hij]

theorem setCall_eq_self {db : SipTransactionDB} {k : Data} {call : SipCallContainer}
    (hcall : db.table k = some call) : db.setCall k call = db := by
  have htable : (fun k' => if k' = k then some call else db.table k') = db.table := by
    funext k'
    split
    · rename_i hk; rw [hk, hcall]
    · rfl
  rw [SipTransactionDB.setCall, htable]

theorem DbOk.setCall {db : SipTransactionDB} (h : DbOk db) {k : Data} {call : SipCallContainer}
    (hcall : CallOk db.heap call) : DbOk (db.setCall k call) := by
  intro k' call' hk'
  by_cases hkk : k' = k
  · subst hkk
    rw [SipTransactionDB.setCall_table_self, Option.some_inj] at hk'
    exact hk' ▸ hcall
  · rw [SipTransactionDB.setCall_table_of_ne _ _ hkk] at hk'
    exact h k' call' hk'

theorem DbOk.keeps {db db' : SipTransactionDB} (h : DbOk db)
    (hk : Keeps (·.trans_id) db.heap db'.heap) (htable : db'.table = db.table) : DbOk db' :=
  fun k call hcall => (h k call (htable ▸ hcall)).keeps hk

theorem DbOk.update {db db' : SipTransactionDB} (h : DbOk db)
    (hk : Keeps (·.trans_id) db.heap db'.heap) {k : Data} {call : SipCallContainer}
    (htable : db'.table = (db.setCall k call).table) (hcall : CallOk db'.heap call) : DbOk db' := by
  have hok : DbOk { db with heap := db'.heap } := h.keeps hk rfl
  have hset := hok.setCall (k := k) hcall
  intro k' call' hcall'
  exact hset k' call' (by rw [htable] at hcall'; exact hcall')

theorem DbOk.setCallPurgeTimer {db : SipTransactionDB} (h : DbOk db) (id : SipTransactionId)
    (t : Nat) : DbOk (db.setCallPurgeTimer id t) := by
  unfold SipTransactionDB.setCallPurgeTimer
  split
  · rename_i call hcall
    exact h.setCall ((h _ call hcall).of_msgs rfl)
  · exact h

theorem setCallPurgeTimer_heap (db : SipTransactionDB) (id : SipTransactionId) (t : Nat) :
    (db.setCallPurgeTimer id t).heap = db.heap := by
  unfold SipTransactionDB.setCallPurgeTimer
  split <;> rfl

/-- The timer of a call leaves its pairs and its sequence number alone. -/
theorem setCallPurgeTimer_table {db : SipTransactionDB} {id : SipTransactionId} {t : Nat} {k : Data}
    {call' : SipCallContainer} (hcall' : (db.setCallPurgeTimer id t).table k = some call') :
    ∃ call, db.table k = some call ∧ call'.msgs = call.msgs := by
  unfold SipTransactionDB.setCallPurgeTimer at hcall'
  split at hcall'
  · rename_i call hcall
    by_cases hk : k = id.call_id
    · rw [hk, SipTransactionDB.setCall_table_self, Option.some_inj] at hcall'
      exact ⟨call, hk ▸ hcall, hcall' ▸ rfl⟩
    · rw [SipTransactionDB.setCall_table_of_ne _ _ hk] at hcall'
      exact ⟨call', hcall', rfl⟩
  · exact ⟨call', hcall', rfl⟩

theorem DbOk.empty : DbOk .empty := fun _ _ hcall => by cases hcall

/-! ### Growth -/

theorem CallGrows.refl (call : SipCallContainer) : CallGrows call call :=
  fun _ mp hmp => ⟨mp, hmp, rfl, id⟩

theorem CallGrows.of_msgs {call call' : SipCallContainer} (hmsgs : call'.msgs = call.msgs) :
    CallGrows call call' :=
  fun _ mp hmp => ⟨mp, by rw [hmsgs]; exact hmp, rfl, id⟩

theorem CallGrows.trans {c₁ c₂ c₃ : SipCallContainer} (h₁ : CallGrows c₁ c₂) (h₂ : CallGrows c₂ c₃) :
    CallGrows c₁ c₃ := by
  intro i mp hmp
  obtain ⟨mp', hmp', hreq, hresp⟩ := h₁ i mp hmp
  obtain ⟨mp'', hmp'', hreq', hresp'⟩ := h₂ i mp' hmp'
  exact ⟨mp'', hmp'', hreq'.trans hreq, fun h => hresp' (hresp h)⟩

theorem CallGrows.addMsgPair (call : SipCallContainer) (mp : SipMsgPair) :
    CallGrows call (call.addMsgPair mp) :=
  fun _ q hq => ⟨q, Store.getElem?_append_of_some hq [mp], rfl, id⟩

theorem CallGrows.setResponse (call : SipCallContainer) (i : Nat) (r : Ref) :
    CallGrows call (call.setResponse i r) := by
  intro j q hq
  rw [SipCallContainer.setResponse, List.getElem?_modify, hq]
  by_cases hij : i = j
  · exact ⟨_, rfl, by simp [hij], by simp [hij]⟩
  · exact ⟨_, rfl, by simp [hij], by simp [hij]⟩

theorem DbGrows.refl (db : SipTransactionDB) : DbGrows db db :=
  ⟨Keeps.refl _ _, fun _ call hcall => ⟨call, hcall, CallGrows.refl call⟩⟩

theorem DbGrows.trans {d₁ d₂ d₃ : SipTransactionDB} (h₁ : DbGrows d₁ d₂) (h₂ : DbGrows d₂ d₃) :
    DbGrows d₁ d₃ := by
  refine ⟨h₁.heap.trans h₂.heap, ?_⟩
  intro k call hcall
  obtain ⟨call', hcall', hgrow⟩ := h₁.calls k call hcall
  obtain ⟨call'', hcall'', hgrow'⟩ := h₂.calls k call' hcall'
  exact ⟨call'', hcall'', hgrow.trans hgrow'⟩

theorem DbGrows.of_heap {db db' : SipTransactionDB} (hk : Keeps (·.trans_id) db.heap db'.heap)
    (htable : db'.table = db.table) : DbGrows db db' :=
  ⟨hk, fun _ call hcall => ⟨call, by rw [htable]; exact hcall, CallGrows.refl call⟩⟩

theorem DbGrows.setCall {db : SipTransactionDB} {k : Data} {call' : SipCallContainer}
    (hgrow : ∀ call, db.table k = some call → CallGrows call call') :
    DbGrows db (db.setCall k call') := by
  refine ⟨Keeps.refl _ _, ?_⟩
  intro k' call hcall
  by_cases hkk : k' = k
  · subst hkk
    exact ⟨call', SipTransactionDB.setCall_table_self _ _ _, hgrow call hcall⟩
  · exact ⟨call, by rw [SipTransactionDB.setCall_table_of_ne _ _ hkk]; exact hcall, CallGrows.refl call⟩

theorem DbGrows.update {db db' : SipTransactionDB} (hk : Keeps (·.trans_id) db.heap db'.heap)
    {k : Data} {call' : SipCallContainer} (htable : db'.table = (db.setCall k call').table)
    (hgrow : ∀ call, db.table k = some call → CallGrows call call') : DbGrows db db' := by
  refine ⟨hk, ?_⟩
  rw [htable]
  exact (DbGrows.setCall hgrow).calls

theorem DbGrows.setCallPurgeTimer (db : SipTransactionDB) (id : SipTransactionId) (t : Nat) :
    DbGrows db (db.setCallPurgeTimer id t) := by
  unfold SipTransactionDB.setCallPurgeTimer
  split
  · rename_i call hcall
    refine DbGrows.setCall ?_
    intro call' hcall'
    obtain rfl := Option.some.inj (hcall'.symm.trans hcall)
    exact CallGrows.of_msgs rfl
  · exact DbGrows.refl db

/-! ### Purges -/

/-- Like `DbGrows`, for operations that may remove calls: those that stay have only grown. -/
structure KeepsCalls (db db' : SipTransactionDB) : Prop where
  heap : Keeps (·.trans_id) db.heap db'.heap
  calls : ∀ k call call', db.table k = some call → db'.table k = some call' → CallGrows call call'

theorem DbGrows.keepsCalls {db db' : SipTransactionDB} (h : DbGrows db db') : KeepsCalls db db' := by
  refine ⟨h.heap, ?_⟩
  intro k call call' hcall hcall'
  obtain ⟨call'', hcall'', hgrow⟩ := h.calls k call hcall
  rw [hcall', Option.some_inj] at hcall''
  exact hcall'' ▸ hgrow

theorem purgeOldCalls_table {db : SipTransactionDB} {now : Nat} {k : Data} {call : SipCallContainer}
    (hcall : (db.purgeOldCalls now).table k = some call) : db.table k = some call := by
  simp only [SipTransactionDB.purgeOldCalls] at hcall
  split at hcall
  · rename_i call' hcall'
    split at hcall
    · cases hcall
    · rw [hcall', hcall]
  · cases hcall

theorem DbOk.purgeOldCalls {db : SipTransactionDB} (h : DbOk db) (now : Nat) :
    DbOk (db.purgeOldCalls now) :=
  fun k call hcall => h k call (purgeOldCalls_table hcall)

theorem KeepsCalls.purgeOldCalls (db : SipTransactionDB) (now : Nat) :
    KeepsCalls db (db.purgeOldCalls now) := by
  refine ⟨Keeps.refl _ _, ?_⟩
  intro k call call' hcall hcall'
  rw [purgeOldCalls_table hcall', Option.some_inj] at hcall
  exact hcall ▸ CallGrows.refl _

/-- The call with key `k` is in the table. -/
def CallKept (k : Data) (s : SipTransactionDB) : Prop := (s.table k).isSome

/-- The call `k` has a pair with the id `key`, which satisfies `P`. -/
def HasPair (k : Data) (key : Bool × Data × Data × Data) (P : SipMsgPair → Prop)
    (db : SipTransactionDB) : Prop :=
  ∃ call mp, db.table k = some call ∧ mp ∈ call.msgs ∧ requestKey db.heap mp = some key ∧ P mp

theorem HasPair.keepsCalls {db db' : SipTransactionDB} {k : Data} {key : Bool × Data × Data × Data}
    {P : SipMsgPair → Prop} (hP : ∀ mp mp', mp'.request = mp.request →
      (mp.response.isSome → mp'.response.isSome) → P mp → P mp')
    (hok : DbOk db) (hkeeps : KeepsCalls db db') (hk : (db'.table k).isSome)
    (h : HasPair k key P db) : HasPair k key P db' := by
  obtain ⟨call, mp, hcall, hmem, hkey, hp⟩ := h
  obtain ⟨call', hcall'⟩ := Option.isSome_iff_exists.mp hk
  obtain ⟨i, hi⟩ := List.mem_iff_getElem?.mp hmem
  obtain ⟨mp', hmp', hreq, hresp⟩ := hkeeps.calls k call call' hcall hcall' i mp hi
  refine ⟨call', mp', hcall', List.mem_of_getElem? hmp', ?_, hP mp mp' hreq hresp hp⟩
  rw [requestKey_of_keeps hkeeps.heap hreq ((hok k call hcall).pairs mp hmem), hkey]

theorem HasPair.grows {db db' : SipTransactionDB} {k : Data} {key : Bool × Data × Data × Data}
    (hok : DbOk db) (hgrows : DbGrows db db') (h : HasPair k key (fun _ => True) db) :
    HasPair k key (fun _ => True) db' := by
  obtain ⟨call, mp, hcall, hmp⟩ := h
  obtain ⟨call', hcall', _⟩ := hgrows.calls k call hcall
  exact HasPair.keepsCalls (fun _ _ _ _ h => h) hok hgrows.keepsCalls (by rw [hcall']; rfl)
    ⟨call, mp, hcall, hmp⟩

theorem HasPair.back {db db' : SipTransactionDB} {k : Data} {key : Bool × Data × Data × Data}
    (hok : DbOk db) (hk : Keeps (·.trans_id) db.heap db'.heap)
    (htable : ∀ call', db'.table k = some call' → ∃ call, db.table k = some call ∧
      call'.msgs.map (·.request) = call.msgs.map (·.request))
    (h : HasPair k key (fun _ => True) db') : HasPair k key (fun _ => True) db := by
  obtain ⟨call', mp', hcall', hmem', hkey, _⟩ := h
  obtain ⟨call, hcall, hreqs⟩ := htable call' hcall'
  have hmem : mp'.request ∈ call.msgs.map (·.request) := by
    rw [← hreqs]
    exact List.mem_map_of_mem hmem'
  obtain ⟨mp, hmp, hreq⟩ := List.mem_map.mp hmem
  refine ⟨call, mp, hcall, hmp, ?_, trivial⟩
  rw [← requestKey_of_keeps hk hreq.symm ((hok k call hcall).pairs mp hmp), hkey]

theorem HasPair.of_heap {db db' : SipTransactionDB} {k : Data} {key : Bool × Data × Data × Data}
    (h : HasPair k key (fun _ => True) db') (hok : DbOk db)
    (hk : Keeps (·.trans_id) db.heap db'.heap) (htable : db'.table = db.table) :
    HasPair k key (fun _ => True) db :=
  h.back hok hk fun call hcall => ⟨call, htable ▸ hcall, rfl⟩

end Vocal.Sip
