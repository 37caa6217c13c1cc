import Vocal.Sip.CallIsolation
import Vocal.Sip.SentResponseDB

/-!
# The database of sent responses keeps calls apart

A message stays within the call of its Call-ID's local part (`next_within`), and what it does there
depends on that call alone (`next_agree`).
-/

namespace Vocal.Sip.SipSentResponseDB

open Store (deref)

variable {ctx : SipAppContext} {tag : Data} {k : Data} {db db' : SipTransactionDB}

/-! ### Staying within the call -/

theorem storeResponse_owned {heap : List SipMsgContainer} {call : SipCallContainer}
    (h : CallOwned k heap call) (id : SipTransactionId) {r : Nat} {c : SipMsgContainer}
    (hc : heap[r]? = some c) (hown : Own k c) : CallOwned k heap (storeResponse heap call id r) := by
  unfold storeResponse
  split
  · split
    · exact h
    · exact h.setResponse _ hc hown
  · exact h

theorem processSend_within (ctx : SipAppContext) (hdb : Owned db) (response : StatusMsg) :
    Within response.transId.call_id db (processSend ctx db response) := by
  have hown : Own response.transId.call_id (responseContainer response) := ⟨rfl, rfl⟩
  have hnew : Within response.transId.call_id db (db.newContainer (responseContainer response)) :=
    .newContainer hdb hown.notForeign
  have hdb₁ := hnew.owned hdb
  have hget : (db.newContainer (responseContainer response)).heap[db.heap.length]? =
      some (responseContainer response) := Store.getElem?_alloc _ _
  unfold processSend
  dsimp only
  split
  · split
    · rename_i call hcall
      have hset := Within.setCall (storeResponse_owned (hdb₁ _ call hcall) response.transId hget hown)
      split
      · exact hnew.trans (hset.trans (.stop (hset.owned hdb₁) hget hown _))
      · exact hnew.trans hset
    · exact hnew
  · exact hnew

theorem deliver_within (hdb : Owned db) {call : SipCallContainer} (hcall : CallOwned k db.heap call)
    (msg : SipCommand) : Within k db (deliver db call msg).1 := by
  unfold deliver
  split
  · split
    · rename_i mp hmp
      obtain ⟨i, _, hi⟩ := Option.bind_eq_some_iff.mp hmp
      dsimp only
      split
      · rename_i r hr
        obtain ⟨c, hc, hown⟩ := hcall mp (List.mem_of_getElem? hi) r (.inr hr)
        exact .stop hdb hc hown 0
      · exact .refl hdb
    · exact .refl hdb
  · exact .refl hdb

theorem reject_within (hdb : Owned db) {r : Nat} {c : SipMsgContainer} {msg : SipCommand}
    (hc : db.heap[r]? = some c) (hown : Own msg.transId.call_id c) :
    Within msg.transId.call_id db (reject ctx tag db r msg) := by
  have hupdate := Within.updateContainer (f := fun c =>
    ((c.setMsgIn (.status (outOfOrder tag msg))).setTransport
      (outOfOrder tag msg).headers.via.transport).setRetransmitMax 1) hdb hc hown ⟨rfl, hown.2⟩
  refine hupdate.trans ?_
  have hsend := processSend_within ctx (hupdate.owned hdb) (outOfOrder tag msg)
  rw [show (outOfOrder tag msg).transId = msg.transId from transId_ofCommand tag msg 400] at hsend
  exact hsend

theorem recvFirst_within (hdb : Owned db) {call : SipCallContainer} {msg : SipCommand}
    (hcall : CallOwned msg.transId.call_id db.heap call) (mp : Option Nat) {r : Nat}
    {c : SipMsgContainer} (hc : db.heap[r]? = some c) (hown : Own msg.transId.call_id c) :
    Within msg.transId.call_id db
      (recvFirst ctx tag db msg.transId.call_id call mp r msg).1 := by
  have hup : ∀ call', CallOwned msg.transId.call_id db.heap call' →
      Within msg.transId.call_id db
        (deliver (db.setCall msg.transId.call_id call') call' msg).1 := by
    intro call' hcall'
    have hset := Within.setCall hcall'
    exact hset.trans (deliver_within (hset.owned hdb) hcall' msg)
  have hadd : CallOwned msg.transId.call_id db.heap
      (if mp.isNone then call.addMsgPair ⟨some r, none⟩ else call) := by
    split
    · exact hcall.addMsgPair hc hown
    · exact hcall
  unfold recvFirst
  dsimp only
  revert hadd
  generalize (if mp.isNone = true then call.addMsgPair ⟨some r, none⟩ else call) = added
  intro hadd
  split
  · split
    · split
      · split
        · exact hup _ (hadd.of_msgs rfl)
        · have hset := Within.setCall hadd
          exact hset.trans (reject_within (hset.owned hdb) hc hown)
      · exact hup _ hadd
    · split
      · exact hup _ (hcall.of_msgs rfl)
      · exact hup _ hcall
  · exact hup _ hcall

theorem recvDuplicate_within (hdb : Owned db) {call : SipCallContainer} {msg : SipCommand}
    (hcall : db.table msg.transId.call_id = some call) (i : Nat) :
    Within msg.transId.call_id db (recvDuplicate (db.newContainer (requestContainer msg))
      msg.transId.call_id call i db.heap.length) := by
  have hown : Own msg.transId.call_id (requestContainer msg) := ⟨rfl, rfl⟩
  have hnew := Within.newContainer hdb hown.notForeign
  have hcallOwned := hnew.slots call hcall
  have hget : (db.newContainer (requestContainer msg)).heap[db.heap.length]? =
      some (requestContainer msg) := Store.getElem?_alloc _ _
  unfold recvDuplicate
  split
  · rename_i old hold
    obtain ⟨mp, hmp, hresp⟩ := Option.bind_eq_some_iff.mp hold
    obtain ⟨c, hc, hc'⟩ := hcallOwned mp (List.mem_of_getElem? hmp) old (.inr hresp)
    have hstop := Within.stop (hnew.owned hdb) hc hc' 0
    obtain ⟨c₂, hget₂, hown₂⟩ := hstop.kept_own _ _ hget hown
    have hset := Within.setCall ((hstop.slots call hcall).setResponse i hget₂ hown₂)
    refine hnew.trans (hstop.trans (hset.trans ?_))
    exact .stop (hset.owned (hstop.owned (hnew.owned hdb))) hget₂ hown₂ _
  · -- the container is cleared before anything refers to it
    rw [SipTransactionDB.updateContainer, SipTransactionDB.newContainer_heap, Store.modify_alloc]
    exact Within.newContainer hdb (notForeign_clear _ _)

theorem recv_within (ctx : SipAppContext) (hdb : Owned db) (tag : Data) (msg : SipCommand) :
    Within msg.transId.call_id db (recv ctx db tag msg).1 := by
  have hown : Own msg.transId.call_id (requestContainer msg) := ⟨rfl, rfl⟩
  have hnew := Within.newContainer hdb hown.notForeign
  have hdb₁ := hnew.owned hdb
  have hget : (db.newContainer (requestContainer msg)).heap[db.heap.length]? =
      some (requestContainer msg) := Store.getElem?_alloc _ _
  rw [recv_eq]
  cases hcall : db.table msg.transId.call_id with
  | none =>
    dsimp only
    split
    · have hset : Within _ (db.newContainer (requestContainer msg)) _ :=
        .setCall (CallOwned.make (k := msg.transId.call_id) msg.transId)
      exact hnew.trans (hset.trans (recvFirst_within (hset.owned hdb₁) (CallOwned.make _) _ hget hown))
    · exact hnew
  | some call =>
    dsimp only
    split
    · split
      · exact recvDuplicate_within hdb hcall _
      · exact hnew.trans (recvFirst_within hdb₁ (hdb₁ _ call hcall) _ hget hown)
    · exact hnew.trans (recvFirst_within hdb₁ (hdb₁ _ call hcall) _ hget hown)

/-! ### Depending on the call alone -/

/-- Databases that show the same call, with equal answers. -/
def Agree (k : Data) (x y : SipTransactionDB × Option SipMsgQueue) : Prop :=
  Alike k x.1 y.1 ∧ x.2 = y.2

section sim

variable {ρ : Nat → Nat → Prop} {call call' : SipCallContainer}

theorem storeResponse_rel (h : Sim k ρ db db') (hcall : CallRel ρ call call') (id : SipTransactionId)
    {r r' : Nat} (hr : ρ r r') :
    CallRel ρ (storeResponse db.heap call id r) (storeResponse db'.heap call' id r') := by
  unfold storeResponse
  rw [h.findMsgPair_eq hcall]
  cases call'.findMsgPair db'.heap id with
  | none => exact hcall
  | some i =>
    dsimp only
    rw [isSome_of_rel (hcall.response i)]
    split
    · exact hcall
    · exact hcall.setResponse i hr

theorem processSend_sim (ctx : SipAppContext) (h : Sim k ρ db db') {response : StatusMsg}
    (hk : response.transId.call_id = k) :
    Alike k (processSend ctx db response) (processSend ctx db' response) := by
  have hown : Own k (responseContainer response) := ⟨rfl, hk⟩
  obtain ⟨ρ₁, -, hnew, h₁⟩ := h.newContainer hown.notForeign
  unfold processSend
  dsimp only [SipTransactionDB.getCallContainer]
  rw [hk]
  split
  · rcases h₁.call_cases with ⟨hnone, hnone'⟩ | ⟨call, call', hsome, hsome', hcall⟩
    · simp only [SipTransactionDB.newContainer_table] at hnone hnone'
      simp only [SipTransactionDB.newContainer_table, hnone, hnone']
      exact ⟨ρ₁, h₁⟩
    · simp only [SipTransactionDB.newContainer_table] at hsome hsome'
      simp only [SipTransactionDB.newContainer_table, hsome, hsome']
      have hset := h₁.setCall (storeResponse_rel h₁ hcall response.transId hnew)
      by_cases hresend : response.toBeRetransmitted = true ∧ ctx ≠ .APP_CONTEXT_PROXY
      · rw [if_pos hresend, if_pos hresend]
        exact ⟨ρ₁, hset.stop hnew _⟩
      · rw [if_neg hresend, if_neg hresend]
        exact ⟨ρ₁, hset⟩
  · exact ⟨ρ₁, h₁⟩

theorem deliver_sim (h : Sim k ρ db db') (hcall : CallRel ρ call call') (msg : SipCommand) :
    Alike k (deliver db call msg).1 (deliver db' call' msg).1 ∧
      (deliver db call msg).2 = (deliver db' call' msg).2 := by
  unfold deliver
  split
  · rw [h.findMsgPairOfMethod_eq hcall]
    have hrel : Option.Rel (PairRel ρ)
        ((call'.findMsgPairOfMethod db'.heap .SIP_INVITE).bind (call.msgs[·]?))
        ((call'.findMsgPairOfMethod db'.heap .SIP_INVITE).bind (call'.msgs[·]?)) := by
      cases call'.findMsgPairOfMethod db'.heap .SIP_INVITE with
      | none => exact .none
      | some i => exact forall₂_getElem? hcall.msgs i
    revert hrel
    generalize (call'.findMsgPairOfMethod db'.heap .SIP_INVITE).bind (call.msgs[·]?) = x
    generalize (call'.findMsgPairOfMethod db'.heap .SIP_INVITE).bind (call'.msgs[·]?) = y
    intro hrel
    cases hrel with
    | none => exact ⟨⟨ρ, h⟩, rfl⟩
    | @some mp mp' hp =>
      dsimp only
      refine ⟨?_, by rw [h.deref_eq hp.request, h.deref_eq hp.response]⟩
      obtain ⟨-, hresp⟩ := hp
      revert hresp
      generalize mp.response = x
      generalize mp'.response = y
      intro hresp
      cases hresp with
      | none => exact ⟨ρ, h⟩
      | some hr => exact ⟨ρ, h.stop hr 0⟩
  · exact ⟨⟨ρ, h⟩, rfl⟩

theorem reject_sim (h : Sim k ρ db db') {msg : SipCommand} (hk : msg.transId.call_id = k) {r r' : Nat}
    (hr : ρ r r') {c : SipMsgContainer} (hc : db.heap[r]? = some c) (hown : Own k c) :
    Alike k (reject ctx tag db r msg) (reject ctx tag db' r' msg) := by
  have hid : (outOfOrder tag msg).transId.call_id = k := by
    rw [show (outOfOrder tag msg).transId = msg.transId from transId_ofCommand tag msg 400, hk]
  refine processSend_sim ctx (h.updateContainer hr fun c' hc' _ => ?_) hid
  obtain rfl := Option.some.inj (hc.symm.trans hc')
  exact Own.notForeign ⟨rfl, hown.2⟩

theorem recvFirst_sim (h : Sim k ρ db db') (hcall : CallRel ρ call call') {msg : SipCommand}
    (hk : msg.transId.call_id = k) (mp : Option Nat) {r r' : Nat} (hr : ρ r r') {c : SipMsgContainer}
    (hc : db.heap[r]? = some c) (hown : Own k c) :
    Agree k (recvFirst ctx tag db k call mp r msg) (recvFirst ctx tag db' k call' mp r' msg) := by
  have hup : ∀ c c', CallRel ρ c c' →
      Agree k ((deliver (db.setCall k c) c msg).1, some (deliver (db.setCall k c) c msg).2)
        ((deliver (db'.setCall k c') c' msg).1, some (deliver (db'.setCall k c') c' msg).2) := by
    intro c c' hrel
    obtain ⟨halike, hqueue⟩ := deliver_sim (h.setCall hrel) hrel msg
    exact ⟨halike, congrArg some hqueue⟩
  have hadd : CallRel ρ (if mp.isNone then call.addMsgPair ⟨some r, none⟩ else call)
      (if mp.isNone then call'.addMsgPair ⟨some r', none⟩ else call') := by
    split
    · exact hcall.addMsgPair hr
    · exact hcall
  unfold recvFirst
  dsimp only
  revert hadd
  generalize (if mp.isNone = true then call.addMsgPair ⟨some r, none⟩ else call) = added
  generalize (if mp.isNone = true then call'.addMsgPair ⟨some r', none⟩ else call') = added'
  intro hadd
  rw [hcall.curSeqNum, hadd.setSeq]
  split
  · split
    · split
      · split
        · exact hup _ _ (hadd.setCurSeqNum _)
        · exact ⟨reject_sim (h.setCall hadd) hk hr hc hown, rfl⟩
      · exact hup _ _ hadd
    · split
      · exact hup _ _ (hcall.setCurSeqNum _)
      · exact hup _ _ hcall
  · exact hup _ _ hcall

theorem recvDuplicate_sim (h : Sim k ρ db db') (hcall : CallRel ρ call call') (i : Nat) {r r' : Nat}
    (hr : ρ r r') :
    Alike k (recvDuplicate db k call i r) (recvDuplicate db' k call' i r') := by
  unfold recvDuplicate
  have hresp := hcall.response i
  revert hresp
  generalize (call.msgs[i]?).bind (·.response) = x
  generalize (call'.msgs[i]?).bind (·.response) = y
  intro hresp
  cases hresp with
  | none => exact ⟨ρ, h.updateContainer hr fun _ _ _ => notForeign_clear _ _⟩
  | some hold => exact ⟨ρ, ((h.stop hold 0).setCall (hcall.setResponse i hr)).stop hr _⟩

theorem recv_agree (ctx : SipAppContext) (h : Sim k ρ db db') (tag : Data) {msg : SipCommand}
    (hk : msg.transId.call_id = k) : Agree k (recv ctx db tag msg) (recv ctx db' tag msg) := by
  have hown : Own k (requestContainer msg) := ⟨rfl, hk⟩
  obtain ⟨ρ₁, -, hnew, h₁⟩ := h.newContainer hown.notForeign
  have hget : (db.newContainer (requestContainer msg)).heap[db.heap.length]? =
      some (requestContainer msg) := Store.getElem?_alloc _ _
  rw [recv_eq, recv_eq, hk]
  rcases h₁.call_cases with ⟨hnone, hnone'⟩ | ⟨call, call', hsome, hsome', hcall⟩
  · simp only [SipTransactionDB.newContainer_table] at hnone hnone'
    rw [hnone, hnone']
    dsimp only
    split
    · exact recvFirst_sim (h₁.setCall (CallRel.make _)) (CallRel.make _) hk _ hnew hget hown
    · exact ⟨⟨ρ₁, h₁⟩, rfl⟩
  · simp only [SipTransactionDB.newContainer_table] at hsome hsome'
    rw [hsome, hsome']
    dsimp only
    rw [h₁.findMsgPair_eq hcall]
    cases call'.findMsgPair (db'.newContainer (requestContainer msg)).heap msg.transId with
    | none => exact recvFirst_sim h₁ hcall hk none hnew hget hown
    | some i =>
      dsimp only
      rw [isSome_of_rel (hcall.request i)]
      split
      · exact ⟨recvDuplicate_sim h₁ hcall i hnew, rfl⟩
      · exact recvFirst_sim h₁ hcall hk (some i) hnew hget hown

end sim

/-! ### Steps -/

/-- The local part of the Call-ID that an operation is about; a purge is about all calls. -/
def Op.call : Op → Option Data
  | .processSend response => some response.transId.call_id
  | .processRecv _ msg => some msg.transId.call_id
  | .setCallPurgeTimer id _ => some id.call_id
  | .purgeOldCalls _ => none

theorem next_within (hdb : Owned db) {op : Op} {j : Data} (hop : op.call = some j) :
    Within j db ((sentResponseDB ctx).next db op) := by
  cases op with
  | processSend response =>
    obtain rfl := Option.some.inj hop
    exact processSend_within ctx hdb response
  | processRecv tag msg =>
    obtain rfl := Option.some.inj hop
    exact recv_within ctx hdb tag msg
  | setCallPurgeTimer id t =>
    obtain rfl := Option.some.inj hop
    exact .setCallPurgeTimer hdb id t
  | purgeOldCalls now => cases hop

theorem next_owned (hdb : Owned db) (op : Op) : Owned ((sentResponseDB ctx).next db op) := by
  cases hop : op.call with
  | some j => exact (next_within hdb hop).owned hdb
  | none =>
    cases op with
    | purgeOldCalls now => exact hdb.purgeOldCalls now
    | processSend response => cases hop
    | processRecv tag msg => cases hop
    | setCallPurgeTimer id t => cases hop

theorem next_agree (h : Alike k db db') {op : Op} (hop : ∀ j, op.call = some j → j = k) :
    Alike k ((sentResponseDB ctx).next db op) ((sentResponseDB ctx).next db' op) ∧
      (sentResponseDB ctx).out db op = (sentResponseDB ctx).out db' op := by
  obtain ⟨ρ, h⟩ := h
  cases op with
  | processSend response => exact ⟨processSend_sim ctx h (hop _ rfl), rfl⟩
  | processRecv tag msg => exact recv_agree ctx h tag (hop _ rfl)
  | setCallPurgeTimer id t => exact ⟨⟨ρ, h.setCallPurgeTimer (hop _ rfl) t⟩, rfl⟩
  | purgeOldCalls now => exact ⟨⟨ρ, h.purgeOldCalls now⟩, rfl⟩

end Vocal.Sip.SipSentResponseDB
