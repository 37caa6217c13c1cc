import Vocal.Sip.CallIsolation
import Vocal.Sip.SentRequestDB

/-!
# The database of sent requests keeps calls apart

As for the sent responses: a message stays within the call of its Call-ID's local part
(`next_within`), and what it does there depends on that call alone (`next_agree`). A CANCEL stops every
request of its own call and no other.
-/

namespace Vocal.Sip.SipSentRequestDB

open Store (deref)
open SipCallContainer (slotMsg)

variable {ctx : SipAppContext} {k : Data} {db db' : SipTransactionDB}

/-- The body of `stopAllRetrans`. -/
def stopRequest (heap : List SipMsgContainer) (mp : SipMsgPair) : List SipMsgContainer :=
  match mp.request with
  | some r => heap.modify r (.setRetransmitMax 0)
  | none => heap

/-- The retransmission that a response cancels. -/
def stopFound (db : SipTransactionDB) (request : Option Ref) : SipTransactionDB :=
  match request with
  | some r => db.updateContainer r (.setRetransmitMax 0)
  | none => db

theorem stopAllRetrans_eq (heap : List SipMsgContainer) (call : SipCallContainer) :
    call.stopAllRetrans heap = call.msgs.foldl stopRequest heap := rfl

/-! ### Staying within the call -/

theorem stopRequest_within (hdb : Owned db) {mp : SipMsgPair}
    (hmp : ∀ r, mp.Holds r → ∃ c, db.heap[r]? = some c ∧ Own k c) :
    Within k db { db with heap := stopRequest db.heap mp } := by
  unfold stopRequest
  split
  · rename_i r hr
    obtain ⟨c, hc, hown⟩ := hmp r (.inl hr)
    exact .stop hdb hc hown 0
  · exact .refl hdb

theorem stopRequests_within {msgs : List SipMsgPair} (hdb : Owned db)
    (hmsgs : ∀ mp ∈ msgs, ∀ r, mp.Holds r → ∃ c, db.heap[r]? = some c ∧ Own k c) :
    Within k db { db with heap := msgs.foldl stopRequest db.heap } := by
  induction msgs generalizing db with
  | nil => exact .refl hdb
  | cons mp msgs ih =>
    have hstop := stopRequest_within hdb (hmsgs mp (List.mem_cons_self ..))
    refine hstop.trans (ih (hstop.owned hdb) ?_)
    intro mp' hmp' r hr
    obtain ⟨c, hc, hown⟩ := hmsgs mp' (List.mem_cons_of_mem _ hmp') r hr
    exact hstop.kept_own r c hc hown

theorem stopIfCancel_within (hdb : Owned db) {call : SipCallContainer} (hcall : CallOwned k db.heap call)
    (cancel : Prop) [Decidable cancel] :
    Within k db { db with heap := if cancel then call.stopAllRetrans db.heap else db.heap } := by
  by_cases h : cancel
  · rw [if_pos h, stopAllRetrans_eq]
    exact stopRequests_within hdb hcall
  · rw [if_neg h]
    exact .refl hdb

theorem own_sentContainer (msg : SipCommand) : Own msg.transId.call_id (sentContainer msg) := by
  refine ⟨?_, ?_⟩
  · rw [sentContainer_msgIn]
    rfl
  · rw [sentContainer_trans_id]

theorem storeRequest_within (now : Nat) (hdb : Owned db) {call : SipCallContainer} {msg : SipCommand}
    (hcall : CallOwned msg.transId.call_id db.heap call) {r : Nat} {c : SipMsgContainer}
    (hc : db.heap[r]? = some c) (hown : Own msg.transId.call_id c) :
    Within msg.transId.call_id db (storeRequest now db call msg r) := by
  have hstop := stopIfCancel_within hdb hcall (msg.type = .SIP_CANCEL)
  obtain ⟨c', hc', hown'⟩ := hstop.kept_own r c hc hown
  refine hstop.trans (.setCall (CallOwned.addMsgPair ?_ hc' hown'))
  refine CallOwned.of_msgs (hcall.mono fun r c => hstop.kept_own r c) ?_
  split <;> rfl

theorem processSend_within (now : Nat) (hdb : Owned db) (msg : SipCommand) :
    Within msg.transId.call_id db (processSend now db msg) := by
  have hown := own_sentContainer msg
  have hnew := Within.newContainer hdb hown.notForeign
  have hdb₁ := hnew.owned hdb
  have hget : (db.newContainer (sentContainer msg)).heap[db.heap.length]? =
      some (sentContainer msg) := Store.getElem?_alloc _ _
  unfold processSend
  dsimp only
  split
  · rename_i call hcall
    have hstore := storeRequest_within now hdb₁ (hdb₁ _ call hcall) hget hown
    split
    · split
      · exact hnew
      · exact hnew.trans hstore
    · exact hnew.trans hstore
  · have hset : Within _ (db.newContainer (sentContainer msg)) _ :=
      .setCall (CallOwned.make (k := msg.transId.call_id) msg.transId)
    exact hnew.trans (hset.trans
      (storeRequest_within now (hset.owned hdb₁) (CallOwned.make _) hget hown))

theorem recv_within (ctx : SipAppContext) (hdb : Owned db) (response : StatusMsg) :
    Within response.transId.call_id db (recv ctx db response).1 := by
  have hown : Own response.transId.call_id (receivedContainer response) := ⟨rfl, rfl⟩
  have hnew := Within.newContainer hdb hown.notForeign
  have hdb₁ := hnew.owned hdb
  have hget : (db.newContainer (receivedContainer response)).heap[db.heap.length]? =
      some (receivedContainer response) := Store.getElem?_alloc _ _
  unfold recv processRecv
  dsimp only
  split
  · exact hnew
  · rename_i call hcall
    split
    · exact hnew
    · rename_i i _
      have hstop : Within response.transId.call_id (db.newContainer (receivedContainer response))
          (stopFound (db.newContainer (receivedContainer response))
            ((call.msgs[i]?).bind (·.request))) := by
        unfold stopFound
        split
        · rename_i r hr
          obtain ⟨mp, hmp, hreq⟩ := Option.bind_eq_some_iff.mp hr
          obtain ⟨c, hc, hc'⟩ := hdb₁ _ call hcall mp (List.mem_of_getElem? hmp) r (.inl hreq)
          exact .stop hdb₁ hc hc' 0
        · exact .refl hdb₁
      split
      · exact hnew.trans hstop
      · split
        · exact hnew.trans hstop
        · obtain ⟨c, hc, hown'⟩ := hstop.kept_own _ _ hget hown
          refine hnew.trans (hstop.trans (.setCall (CallOwned.setResponse ?_ i hc hown')))
          exact (hdb₁ _ call hcall).mono fun r c => hstop.kept_own r c

/-! ### Depending on the call alone -/

section sim

variable {ρ : Nat → Nat → Prop} {call call' : SipCallContainer}

theorem stopRequest_sim (h : Sim k ρ db db') {mp mp' : SipMsgPair} (hp : PairRel ρ mp mp') :
    Sim k ρ { db with heap := stopRequest db.heap mp } { db' with heap := stopRequest db'.heap mp' } := by
  unfold stopRequest
  obtain ⟨hreq, -⟩ := hp
  revert hreq
  generalize mp.request = x
  generalize mp'.request = y
  intro hreq
  cases hreq with
  | none => exact h
  | some hr => exact h.stop hr 0

theorem stopRequests_sim {msgs msgs' : List SipMsgPair} (hmsgs : List.Forall₂ (PairRel ρ) msgs msgs') :
    ∀ {db db' : SipTransactionDB}, Sim k ρ db db' →
      Sim k ρ { db with heap := msgs.foldl stopRequest db.heap }
        { db' with heap := msgs'.foldl stopRequest db'.heap } := by
  induction hmsgs with
  | nil => intro db db' h; exact h
  | cons hp _ ih => intro db db' h; exact ih (stopRequest_sim h hp)

theorem stopIfCancel_sim (h : Sim k ρ db db') (hcall : CallRel ρ call call') (cancel : Prop)
    [Decidable cancel] :
    Sim k ρ { db with heap := if cancel then call.stopAllRetrans db.heap else db.heap }
      { db' with heap := if cancel then call'.stopAllRetrans db'.heap else db'.heap } := by
  by_cases hcancel : cancel
  · simp only [if_pos hcancel, stopAllRetrans_eq]
    exact stopRequests_sim hcall.msgs h
  · simp only [if_neg hcancel]
    exact h

theorem storeRequest_sim (now : Nat) (h : Sim k ρ db db') (hcall : CallRel ρ call call')
    {msg : SipCommand} (hk : msg.transId.call_id = k) {r r' : Nat} (hr : ρ r r') :
    Alike k (storeRequest now db call msg r) (storeRequest now db' call' msg r') := by
  have hstop := stopIfCancel_sim h hcall (msg.type = .SIP_CANCEL)
  unfold storeRequest
  dsimp only
  rw [hk]
  refine ⟨ρ, hstop.setCall (CallRel.addMsgPair ?_ hr)⟩
  by_cases hends : msg.type = .SIP_CANCEL ∨ msg.type = .SIP_BYE
  · rw [if_pos hends, if_pos hends]
    exact hcall.setPurgeTimer _
  · rw [if_neg hends, if_neg hends]
    exact hcall

theorem processSend_sim (now : Nat) (h : Sim k ρ db db') {msg : SipCommand}
    (hk : msg.transId.call_id = k) : Alike k (processSend now db msg) (processSend now db' msg) := by
  have hown : Own k (sentContainer msg) := hk ▸ own_sentContainer msg
  obtain ⟨ρ₁, -, hnew, h₁⟩ := h.newContainer hown.notForeign
  unfold processSend
  dsimp only [SipTransactionDB.getCallContainer]
  rw [hk]
  rcases h₁.call_cases with ⟨hnone, hnone'⟩ | ⟨call, call', hsome, hsome', hcall⟩
  · simp only [SipTransactionDB.newContainer_table] at hnone hnone'
    simp only [SipTransactionDB.newContainer_table, hnone, hnone', SipTransactionDB.addCallContainer,
      SipCallContainer.make, hk]
    exact storeRequest_sim now (h₁.setCall (CallRel.make _)) (CallRel.make _) hk hnew
  · simp only [SipTransactionDB.newContainer_table] at hsome hsome'
    simp only [SipTransactionDB.newContainer_table, hsome, hsome']
    rw [h₁.findMsgPair_eq hcall]
    cases call'.findMsgPair (db'.newContainer (sentContainer msg)).heap msg.transId with
    | none => exact storeRequest_sim now h₁ hcall hk hnew
    | some i =>
      dsimp only
      rw [isSome_of_rel (hcall.request i)]
      split
      · exact ⟨ρ₁, h₁⟩
      · exact storeRequest_sim now h₁ hcall hk hnew

theorem stopFound_sim (h : Sim k ρ db db') {request request' : Option Ref}
    (hreq : Option.Rel ρ request request') : Sim k ρ (stopFound db request) (stopFound db' request') := by
  cases hreq with
  | none => exact h
  | some hr => exact h.stop hr 0

theorem recv_agree (ctx : SipAppContext) (h : Sim k ρ db db') {response : StatusMsg}
    (hk : response.transId.call_id = k) :
    Alike k (recv ctx db response).1 (recv ctx db' response).1 ∧
      (recv ctx db response).2 = (recv ctx db' response).2 := by
  have hown : Own k (receivedContainer response) := ⟨rfl, hk⟩
  obtain ⟨ρ₁, -, hnew, h₁⟩ := h.newContainer hown.notForeign
  unfold recv processRecv
  dsimp only [SipTransactionDB.getCallContainer]
  rw [hk]
  rcases h₁.call_cases with ⟨hnone, hnone'⟩ | ⟨call, call', hsome, hsome', hcall⟩
  · rw [hnone, hnone']
    exact ⟨⟨ρ₁, h₁⟩, rfl⟩
  · rw [hsome, hsome']
    dsimp only
    rw [h₁.findMsgPair_eq hcall]
    cases call'.findMsgPair (db'.newContainer (receivedContainer response)).heap response.transId with
    | none => exact ⟨⟨ρ₁, h₁⟩, rfl⟩
    | some i =>
      dsimp only
      have hreq := hcall.request i
      have hresp := hcall.response i
      revert hreq hresp
      generalize (call.msgs[i]?).bind (·.request) = request
      generalize (call'.msgs[i]?).bind (·.request) = request'
      generalize (call.msgs[i]?).bind (·.response) = stored
      generalize (call'.msgs[i]?).bind (·.response) = stored'
      intro hreq hresp
      have hstop := stopFound_sim h₁ hreq
      split
      · exact ⟨⟨ρ₁, hstop⟩, rfl⟩
      · cases hresp with
        | some _ => exact ⟨⟨ρ₁, hstop⟩, rfl⟩
        | none =>
          refine ⟨⟨ρ₁, hstop.setCall (hcall.setResponse i hnew)⟩, ?_⟩
          exact congrArg (fun msg => some (Option.toList msg ++ [SipMsg.status response]))
            (hstop.slotMsg_eq hreq)

end sim

/-! ### Steps -/

/-- The local part of the Call-ID that an operation is about; a purge is about all calls. -/
def Op.call : Op → Option Data
  | .processSend _ msg => some msg.transId.call_id
  | .processRecv response => some response.transId.call_id
  | .setCallPurgeTimer id _ => some id.call_id
  | .purgeOldCalls _ => none

theorem next_within (hdb : Owned db) {op : Op} {j : Data} (hop : op.call = some j) :
    Within j db ((sentRequestDB ctx).next db op) := by
  cases op with
  | processSend now msg =>
    obtain rfl := Option.some.inj hop
    exact processSend_within now hdb msg
  | processRecv response =>
    obtain rfl := Option.some.inj hop
    exact recv_within ctx hdb response
  | setCallPurgeTimer id t =>
    obtain rfl := Option.some.inj hop
    exact .setCallPurgeTimer hdb id t
  | purgeOldCalls now => cases hop

theorem next_owned (hdb : Owned db) (op : Op) : Owned ((sentRequestDB ctx).next db op) := by
  cases hop : op.call with
  | some j => exact (next_within hdb hop).owned hdb
  | none =>
    cases op with
    | purgeOldCalls now => exact hdb.purgeOldCalls now
    | processSend now msg => cases hop
    | processRecv response => cases hop
    | setCallPurgeTimer id t => cases hop

theorem next_agree (h : Alike k db db') {op : Op} (hop : ∀ j, op.call = some j → j = k) :
    Alike k ((sentRequestDB ctx).next db op) ((sentRequestDB ctx).next db' op) ∧
      (sentRequestDB ctx).out db op = (sentRequestDB ctx).out db' op := by
  obtain ⟨ρ, h⟩ := h
  cases op with
  | processSend now msg => exact ⟨processSend_sim now h (hop _ rfl), rfl⟩
  | processRecv response => exact recv_agree ctx h (hop _ rfl)
  | setCallPurgeTimer id t => exact ⟨⟨ρ, h.setCallPurgeTimer (hop _ rfl) t⟩, rfl⟩
  | purgeOldCalls now => exact ⟨⟨ρ, h.purgeOldCalls now⟩, rfl⟩

end Vocal.Sip.SipSentRequestDB
