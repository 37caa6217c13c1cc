import Vocal.Lib.Machine
import Vocal.Sip.Container

/-!
# Calls that do not touch each other

A call is the container found under the local part `k` of its Call-ID. `Within j db db'` says what a
message of the call `j` may do to a database: change the call `j` and containers of its messages, and
allocate such containers. `Sim k ρ db db'` says that two databases show the same call `k`: `ρ` matches
the containers of its messages one to one, matched containers are equal, and the calls found under `k`
are equal up to `ρ`. The primitive changes of a database keep `Sim`, and what stays within another call
keeps it on one side alone.
-/

namespace Vocal.Sip

open Store (deref)

/-- The container holds a message of the call `k`. -/
def Own (k : Data) (c : SipMsgContainer) : Prop := c.msgIn.isSome ∧ c.trans_id.call_id = k

/-- The container holds no message of a call other than `k`. -/
def NotForeign (k : Data) (c : SipMsgContainer) : Prop := ∀ i, i ≠ k → ¬Own i c

theorem Own.notForeign {k : Data} {c : SipMsgContainer} (h : Own k c) : NotForeign k c :=
  fun _ hne hown => hne (hown.2.symm.trans h.2)

theorem NotForeign.setRetransmitMax {k : Data} {c : SipMsgContainer} (h : NotForeign k c) (n : Int) :
    NotForeign k (c.setRetransmitMax n) := h

theorem Own.setRetransmitMax {k : Data} {c : SipMsgContainer} (h : Own k c) (n : Int) :
    Own k (c.setRetransmitMax n) := h

theorem notForeign_clear (k : Data) (c : SipMsgContainer) : NotForeign k c.clear := by
  intro i _ hown
  exact absurd hown.1 (by simp [SipMsgContainer.clear])

/-- The pair refers to the container `r`. -/
def SipMsgPair.Holds (mp : SipMsgPair) (r : Nat) : Prop := mp.request = some r ∨ mp.response = some r

/-- The pairs of the call refer to containers of its own messages. -/
def CallOwned (k : Data) (heap : List SipMsgContainer) (call : SipCallContainer) : Prop :=
  ∀ mp ∈ call.msgs, ∀ r, mp.Holds r → ∃ c, heap[r]? = some c ∧ Own k c

def Owned (db : SipTransactionDB) : Prop :=
  ∀ k call, db.table k = some call → CallOwned k db.heap call

section owned

variable {k : Data} {heap heap' : List SipMsgContainer} {call : SipCallContainer}

theorem CallOwned.make (id : SipTransactionId) : CallOwned k heap (.make id) := by
  intro mp hmp
  simp [SipCallContainer.make] at hmp

theorem CallOwned.of_msgs {call' : SipCallContainer} (h : CallOwned k heap call)
    (hmsgs : call'.msgs = call.msgs) : CallOwned k heap call' := by
  intro mp hmp
  exact h mp (hmsgs ▸ hmp)

theorem CallOwned.mono (h : CallOwned k heap call)
    (hkept : ∀ (r : Nat) c, heap[r]? = some c → Own k c → ∃ c', heap'[r]? = some c' ∧ Own k c') :
    CallOwned k heap' call := by
  intro mp hmp r hr
  obtain ⟨c, hc, hown⟩ := h mp hmp r hr
  exact hkept r c hc hown

theorem CallOwned.setResponse (h : CallOwned k heap call) (i : Nat) {r : Nat} {c : SipMsgContainer}
    (hc : heap[r]? = some c) (hown : Own k c) : CallOwned k heap (call.setResponse i r) := by
  intro mp hmp r' hr'
  obtain ⟨n, hn⟩ := List.mem_iff_getElem?.mp hmp
  simp only [SipCallContainer.setResponse, List.getElem?_modify] at hn
  obtain ⟨mp₀, hmp₀, rfl⟩ := Option.map_eq_some_iff.mp hn
  have hmem := List.mem_of_getElem? hmp₀
  by_cases hi : i = n
  · rw [if_pos hi] at hr'
    rcases hr' with hr' | hr'
    · exact h mp₀ hmem r' (.inl hr')
    · obtain rfl := Option.some.inj hr'
      exact ⟨c, hc, hown⟩
  · rw [if_neg hi] at hr'
    exact h mp₀ hmem r' hr'

theorem CallOwned.addMsgPair (h : CallOwned k heap call) {r : Nat} {c : SipMsgContainer}
    (hc : heap[r]? = some c) (hown : Own k c) : CallOwned k heap (call.addMsgPair ⟨some r, none⟩) := by
  intro mp hmp r' hr'
  rcases List.mem_append.mp hmp with hmp | hmp
  · exact h mp hmp r' hr'
  · rw [List.mem_singleton] at hmp
    subst hmp
    rcases hr' with hr' | hr'
    · obtain rfl := Option.some.inj hr'
      exact ⟨c, hc, hown⟩
    · cases hr'

end owned

/-! ### Staying within a call -/

/-- What the messages of the call `j` may do to a database. -/
structure Within (j : Data) (db db' : SipTransactionDB) : Prop where
  table : ∀ i, i ≠ j → db'.table i = db.table i
  kept : ∀ (r : Nat) c, db.heap[r]? = some c →
    ∃ c', db'.heap[r]? = some c' ∧ (c' = c ∨ Own j c ∧ Own j c')
  fresh : ∀ (r : Nat) c, db'.heap[r]? = some c → db.heap.length ≤ r → NotForeign j c
  slots : ∀ call, db'.table j = some call → CallOwned j db'.heap call

namespace Within

variable {j : Data} {db db' db'' : SipTransactionDB}

theorem refl (h : Owned db) : Within j db db where
  table _ _ := rfl
  kept _ c hc := ⟨c, hc, .inl rfl⟩
  fresh r c hc hr := by
    have := Store.lt_of_getElem? hc
    omega
  slots call hcall := h j call hcall

theorem trans (h₁ : Within j db db') (h₂ : Within j db' db'') : Within j db db'' where
  table i hi := (h₂.table i hi).trans (h₁.table i hi)
  kept r c hc := by
    obtain ⟨c', hc', h⟩ := h₁.kept r c hc
    obtain ⟨c'', hc'', h'⟩ := h₂.kept r c' hc'
    refine ⟨c'', hc'', ?_⟩
    rcases h with rfl | ⟨hown, hown'⟩
    · exact h'
    · rcases h' with rfl | ⟨_, hown''⟩
      · exact .inr ⟨hown, hown'⟩
      · exact .inr ⟨hown, hown''⟩
  fresh r c hc hr := by
    by_cases hlt : db'.heap.length ≤ r
    · exact h₂.fresh r c hc hlt
    · obtain ⟨c', hc'⟩ : ∃ c', db'.heap[r]? = some c' := ⟨_, List.getElem?_eq_getElem (by omega)⟩
      obtain ⟨c'', hc'', h⟩ := h₂.kept r c' hc'
      obtain rfl := Option.some.inj (hc''.symm.trans hc)
      rcases h with rfl | ⟨_, hown⟩
      · exact h₁.fresh r _ hc' hr
      · exact hown.notForeign
  slots := h₂.slots

theorem owned (h : Within j db db') (hdb : Owned db) : Owned db' := by
  intro i call hcall
  by_cases hi : i = j
  · subst hi
    exact h.slots call hcall
  · rw [h.table i hi] at hcall
    refine (hdb i call hcall).mono fun r c hc hown => ?_
    obtain ⟨c', hc', hsame⟩ := h.kept r c hc
    rcases hsame with rfl | ⟨hown', _⟩
    · exact ⟨_, hc', hown⟩
    · exact absurd hown (hown'.notForeign i hi)

theorem kept_own (h : Within j db db') (r : Nat) (c : SipMsgContainer) (hc : db.heap[r]? = some c)
    (hown : Own j c) : ∃ c', db'.heap[r]? = some c' ∧ Own j c' := by
  obtain ⟨c', hc', hsame⟩ := h.kept r c hc
  rcases hsame with rfl | ⟨_, hown'⟩
  · exact ⟨_, hc', hown⟩
  · exact ⟨c', hc', hown'⟩

theorem newContainer (hdb : Owned db) {c : SipMsgContainer} (hc : NotForeign j c) :
    Within j db (db.newContainer c) where
  table _ _ := rfl
  kept r c' hc' := ⟨c', Store.getElem?_append_of_some hc' _, .inl rfl⟩
  fresh r c' hc' hr := by
    have hlt : r < (db.heap ++ [c]).length := Store.lt_of_getElem? hc'
    rw [List.length_append, List.length_singleton] at hlt
    obtain rfl : r = db.heap.length := by omega
    rw [SipTransactionDB.newContainer_heap, Store.getElem?_alloc] at hc'
    exact Option.some.inj hc' ▸ hc
  slots call hcall :=
    (hdb j call hcall).mono fun r c' hc' hown => ⟨c', Store.getElem?_append_of_some hc' _, hown⟩

theorem setCall {call : SipCallContainer} (hcall : CallOwned j db.heap call) :
    Within j db (db.setCall j call) where
  table _ hi := SipTransactionDB.setCall_table_of_ne db call hi
  kept _ c hc := ⟨c, hc, .inl rfl⟩
  fresh r c hc hr := by
    have : r < db.heap.length := Store.lt_of_getElem? hc
    omega
  slots call' hcall' := by
    rw [SipTransactionDB.setCall_table_self] at hcall'
    exact Option.some.inj hcall' ▸ hcall

theorem updateContainer (hdb : Owned db) {r : Nat} {c : SipMsgContainer}
    {f : SipMsgContainer → SipMsgContainer} (hc : db.heap[r]? = some c) (hown : Own j c)
    (hf : Own j (f c)) : Within j db (db.updateContainer r f) := by
  have hkept : ∀ (r' : Nat) c', db.heap[r']? = some c' →
      ∃ c'', (db.heap.modify r f)[r']? = some c'' ∧ (c'' = c' ∨ Own j c' ∧ Own j c'') := by
    intro r' c' hc'
    rw [List.getElem?_modify, hc']
    by_cases hr : r = r'
    · subst hr
      obtain rfl := Option.some.inj (hc.symm.trans hc')
      exact ⟨f c, by simp, .inr ⟨hown, hf⟩⟩
    · exact ⟨c', by simp [hr], .inl rfl⟩
  refine ⟨fun _ _ => rfl, hkept, ?_, ?_⟩
  · intro r' c' hc' hr'
    have := Store.lt_of_getElem? hc'
    rw [SipTransactionDB.updateContainer_heap, List.length_modify] at this
    omega
  · intro call hcall
    refine (hdb j call hcall).mono fun r' c' hc' hown' => ?_
    obtain ⟨c'', hc'', hsame⟩ := hkept r' c' hc'
    rcases hsame with rfl | ⟨_, hown''⟩
    · exact ⟨_, hc'', hown'⟩
    · exact ⟨c'', hc'', hown''⟩

theorem stop (hdb : Owned db) {r : Nat} {c : SipMsgContainer} (hc : db.heap[r]? = some c)
    (hown : Own j c) (n : Int) : Within j db (db.updateContainer r (.setRetransmitMax n)) :=
  updateContainer hdb hc hown (hown.setRetransmitMax n)

end Within

/-! ### Databases that show the same call -/

/-- The slots of the pairs match. -/
structure PairRel (ρ : Nat → Nat → Prop) (mp mp' : SipMsgPair) : Prop where
  request : Option.Rel ρ mp.request mp'.request
  response : Option.Rel ρ mp.response mp'.response

/-- The calls are equal up to the matching of containers. -/
structure CallRel (ρ : Nat → Nat → Prop) (call call' : SipCallContainer) : Prop where
  msgs : List.Forall₂ (PairRel ρ) call.msgs call'.msgs
  id : call.id = call'.id
  curSeqNum : call.curSeqNum = call'.curSeqNum
  setSeq : call.setSeq = call'.setSeq
  purgeAt : call.purgeAt = call'.purgeAt

/-- Both databases show the same call `k`; `ρ` matches the containers of its messages. -/
structure Sim (k : Data) (ρ : Nat → Nat → Prop) (db db' : SipTransactionDB) : Prop where
  inj : ∀ a b a' b', ρ a b → ρ a' b' → (a = a' ↔ b = b')
  same : ∀ a b, ρ a b → ∃ c, db.heap[a]? = some c ∧ db'.heap[b]? = some c ∧ NotForeign k c
  covers : ∀ (a : Nat) c, db.heap[a]? = some c → Own k c → ∃ b, ρ a b
  covered : ∀ (b : Nat) c, db'.heap[b]? = some c → Own k c → ∃ a, ρ a b
  call : Option.Rel (CallRel ρ) (db.table k) (db'.table k)

def Alike (k : Data) (db db' : SipTransactionDB) : Prop := ∃ ρ, Sim k ρ db db'

theorem optionRel_mono {α β : Type} {R S : α → β → Prop} (hRS : ∀ a b, R a b → S a b) {x : Option α}
    {y : Option β} (h : Option.Rel R x y) : Option.Rel S x y := by
  cases h with
  | some h => exact .some (hRS _ _ h)
  | none => exact .none

theorem optionRel_symm {α β : Type} {R : α → β → Prop} {x : Option α} {y : Option β}
    (h : Option.Rel R x y) : Option.Rel (fun b a => R a b) y x := by
  cases h with
  | some h => exact .some h
  | none => exact .none

theorem forall₂_getElem? {α β : Type} {R : α → β → Prop} {l : List α} {l' : List β}
    (h : List.Forall₂ R l l') (i : Nat) : Option.Rel R l[i]? l'[i]? := by
  induction h generalizing i with
  | nil => exact .none
  | cons hab _ ih =>
    cases i with
    | zero => exact .some hab
    | succ i => exact ih i

theorem forall₂_findIdx? {α β : Type} {R : α → β → Prop} {p : α → Bool} {q : β → Bool} {l : List α}
    {l' : List β} (h : List.Forall₂ R l l') (hpq : ∀ a b, R a b → p a = q b) :
    l.findIdx? p = l'.findIdx? q := by
  induction h with
  | nil => rfl
  | cons hab _ ih => rw [List.findIdx?_cons, List.findIdx?_cons, hpq _ _ hab, ih]

theorem forall₂_modify {α β : Type} {R : α → β → Prop} {f : α → α} {g : β → β} {l : List α}
    {l' : List β} (h : List.Forall₂ R l l') (hfg : ∀ a b, R a b → R (f a) (g b)) (i : Nat) :
    List.Forall₂ R (l.modify i f) (l'.modify i g) := by
  induction h generalizing i with
  | nil => cases i <;> exact .nil
  | cons hab hl ih =>
    cases i with
    | zero => exact .cons (hfg _ _ hab) hl
    | succ i => exact .cons hab (ih i)

namespace CallRel

variable {ρ ρ' : Nat → Nat → Prop} {call call' : SipCallContainer}

theorem mono (hρ : ∀ a b, ρ a b → ρ' a b) (h : CallRel ρ call call') : CallRel ρ' call call' where
  msgs := h.msgs.imp fun _ _ hp => ⟨optionRel_mono hρ hp.request, optionRel_mono hρ hp.response⟩
  id := h.id
  curSeqNum := h.curSeqNum
  setSeq := h.setSeq
  purgeAt := h.purgeAt

theorem make (id : SipTransactionId) : CallRel ρ (.make id) (.make id) := ⟨.nil, rfl, rfl, rfl, rfl⟩

theorem setResponse (h : CallRel ρ call call') (i : Nat) {r r' : Nat} (hr : ρ r r') :
    CallRel ρ (call.setResponse i r) (call'.setResponse i r') where
  msgs := by
    refine forall₂_modify h.msgs (fun mp mp' hp => ?_) i
    exact ⟨hp.request, .some hr⟩
  id := h.id
  curSeqNum := h.curSeqNum
  setSeq := h.setSeq
  purgeAt := h.purgeAt

theorem addMsgPair (h : CallRel ρ call call') {r r' : Nat} (hr : ρ r r') :
    CallRel ρ (call.addMsgPair ⟨some r, none⟩) (call'.addMsgPair ⟨some r', none⟩) where
  msgs := List.rel_append h.msgs (.cons ⟨.some hr, .none⟩ .nil)
  id := h.id
  curSeqNum := h.curSeqNum
  setSeq := h.setSeq
  purgeAt := h.purgeAt

theorem setCurSeqNum (h : CallRel ρ call call') (n : Int) :
    CallRel ρ (call.setCurSeqNum n) (call'.setCurSeqNum n) :=
  ⟨h.msgs, h.id, rfl, rfl, h.purgeAt⟩

theorem setPurgeTimer (h : CallRel ρ call call') (t : Nat) :
    CallRel ρ { call with purgeAt := t } { call' with purgeAt := t } :=
  ⟨h.msgs, h.id, h.curSeqNum, h.setSeq, rfl⟩

theorem slot {field : SipMsgPair → Option Nat} (h : CallRel ρ call call') (i : Nat)
    (hfield : ∀ mp mp', PairRel ρ mp mp' → Option.Rel ρ (field mp) (field mp')) :
    Option.Rel ρ ((call.msgs[i]?).bind field) ((call'.msgs[i]?).bind field) := by
  have hrel := forall₂_getElem? h.msgs i
  revert hrel
  generalize call.msgs[i]? = x
  generalize call'.msgs[i]? = y
  intro hrel
  cases hrel with
  | none => exact .none
  | some hp => exact hfield _ _ hp

theorem response (h : CallRel ρ call call') (i : Nat) :
    Option.Rel ρ ((call.msgs[i]?).bind (·.response)) ((call'.msgs[i]?).bind (·.response)) :=
  h.slot i fun _ _ hp => hp.response

theorem request (h : CallRel ρ call call') (i : Nat) :
    Option.Rel ρ ((call.msgs[i]?).bind (·.request)) ((call'.msgs[i]?).bind (·.request)) :=
  h.slot i fun _ _ hp => hp.request

end CallRel

theorem isSome_of_rel {α β : Type} {R : α → β → Prop} {x : Option α} {y : Option β}
    (h : Option.Rel R x y) : x.isSome = y.isSome := by
  cases h <;> rfl

namespace Sim

variable {k : Data} {ρ : Nat → Nat → Prop} {db db' : SipTransactionDB}

theorem empty (k : Data) : Sim k (fun _ _ => False) .empty .empty where
  inj _ _ _ _ h := h.elim
  same _ _ h := h.elim
  covers _ _ h := by simp [SipTransactionDB.empty] at h
  covered _ _ h := by simp [SipTransactionDB.empty] at h
  call := .none

theorem within (h : Sim k ρ db db') {j : Data} {db₁ : SipTransactionDB} (hj : j ≠ k)
    (hin : Within j db db₁) : Sim k ρ db₁ db' where
  inj := h.inj
  same a b hab := by
    obtain ⟨c, hc, hc', hk⟩ := h.same a b hab
    obtain ⟨c₁, hc₁, hsame⟩ := hin.kept a c hc
    rcases hsame with rfl | ⟨hown, _⟩
    · exact ⟨_, hc₁, hc', hk⟩
    · exact absurd hown (hk j hj)
  covers a c hc hown := by
    by_cases ha : db.heap.length ≤ a
    · exact absurd hown (hin.fresh a c hc ha k (Ne.symm hj))
    · obtain ⟨c₀, hc₀⟩ : ∃ c₀, db.heap[a]? = some c₀ := ⟨_, List.getElem?_eq_getElem (by omega)⟩
      obtain ⟨c₁, hc₁, hsame⟩ := hin.kept a c₀ hc₀
      obtain rfl := Option.some.inj (hc₁.symm.trans hc)
      rcases hsame with rfl | ⟨_, hown'⟩
      · exact h.covers a _ hc₀ hown
      · exact absurd hown (hown'.notForeign k (Ne.symm hj))
  covered := h.covered
  call := by
    rw [hin.table k (Ne.symm hj)]
    exact h.call

theorem deref_eq (h : Sim k ρ db db') {slot slot' : Option Ref} (hslot : Option.Rel ρ slot slot') :
    deref db.heap slot = deref db'.heap slot' := by
  cases hslot with
  | none => rfl
  | some hab =>
    obtain ⟨c, hc, hc', _⟩ := h.same _ _ hab
    rw [Store.deref_some, Store.deref_some, hc, hc']

theorem slotMsg_eq (h : Sim k ρ db db') {slot slot' : Option Ref} (hslot : Option.Rel ρ slot slot') :
    SipCallContainer.slotMsg db.heap slot = SipCallContainer.slotMsg db'.heap slot' := by
  rw [SipCallContainer.slotMsg, SipCallContainer.slotMsg, h.deref_eq hslot]

theorem findMsgPair_eq (h : Sim k ρ db db') {call call' : SipCallContainer} (hcall : CallRel ρ call call')
    (id : SipTransactionId) : call.findMsgPair db.heap id = call'.findMsgPair db'.heap id := by
  refine forall₂_findIdx? hcall.msgs fun mp mp' hp => ?_
  rw [SipCallContainer.pairMatches, SipCallContainer.pairMatches, h.deref_eq hp.request,
    h.deref_eq hp.response]

theorem findMsgPairOfMethod_eq (h : Sim k ρ db db') {call call' : SipCallContainer}
    (hcall : CallRel ρ call call') (method : Method) :
    call.findMsgPairOfMethod db.heap method = call'.findMsgPairOfMethod db'.heap method := by
  refine forall₂_findIdx? hcall.msgs fun mp mp' hp => ?_
  rw [h.slotMsg_eq hp.request, h.slotMsg_eq hp.response]

theorem call_cases (h : Sim k ρ db db') :
    (db.table k = none ∧ db'.table k = none) ∨
      ∃ call call', db.table k = some call ∧ db'.table k = some call' ∧ CallRel ρ call call' := by
  cases htab : db.table k with
  | none =>
    cases htab' : db'.table k with
    | none => exact .inl ⟨rfl, rfl⟩
    | some call' =>
      have hcall := h.call
      rw [htab, htab'] at hcall
      cases hcall
  | some call =>
    have hcall := h.call
    rw [htab] at hcall
    cases htab' : db'.table k with
    | none =>
      rw [htab'] at hcall
      cases hcall
    | some call' =>
      rw [htab'] at hcall
      cases hcall with
      | some hcall => exact .inr ⟨call, call', rfl, rfl, hcall⟩

theorem setCall (h : Sim k ρ db db') {call call' : SipCallContainer} (hcall : CallRel ρ call call') :
    Sim k ρ (db.setCall k call) (db'.setCall k call') where
  inj := h.inj
  same := h.same
  covers := h.covers
  covered := h.covered
  call := by
    rw [SipTransactionDB.setCall_table_self, SipTransactionDB.setCall_table_self]
    exact .some hcall

theorem updateContainer (h : Sim k ρ db db') {r r' : Nat} (hr : ρ r r')
    {f : SipMsgContainer → SipMsgContainer}
    (hf : ∀ c, db.heap[r]? = some c → NotForeign k c → NotForeign k (f c)) :
    Sim k ρ (db.updateContainer r f) (db'.updateContainer r' f) where
  inj := h.inj
  same a b hab := by
    obtain ⟨c, hc, hc', hk⟩ := h.same a b hab
    simp only [SipTransactionDB.updateContainer_heap, List.getElem?_modify, hc, hc']
    by_cases ha : r = a
    · have hb : r' = b := (h.inj _ _ _ _ hr hab).mp ha
      exact ⟨f c, by simp [ha], by simp [hb], hf c (ha ▸ hc) hk⟩
    · have hb : r' ≠ b := fun hb => ha ((h.inj _ _ _ _ hr hab).mpr hb)
      exact ⟨c, by simp [ha], by simp [hb], hk⟩
  covers a c hc hown := by
    rw [SipTransactionDB.updateContainer_heap, List.getElem?_modify] at hc
    by_cases ha : r = a
    · exact ⟨r', ha ▸ hr⟩
    · exact h.covers a c (by simpa [ha] using hc) hown
  covered b c hc hown := by
    rw [SipTransactionDB.updateContainer_heap, List.getElem?_modify] at hc
    by_cases hb : r' = b
    · exact ⟨r, hb ▸ hr⟩
    · exact h.covered b c (by simpa [hb] using hc) hown
  call := h.call

theorem stop (h : Sim k ρ db db') {r r' : Nat} (hr : ρ r r') (n : Int) :
    Sim k ρ (db.updateContainer r (.setRetransmitMax n)) (db'.updateContainer r' (.setRetransmitMax n)) :=
  h.updateContainer hr fun _ _ hk => hk.setRetransmitMax n

theorem newContainer (h : Sim k ρ db db') {c : SipMsgContainer} (hc : NotForeign k c) :
    ∃ ρ', (∀ a b, ρ a b → ρ' a b) ∧ ρ' db.heap.length db'.heap.length ∧
      Sim k ρ' (db.newContainer c) (db'.newContainer c) := by
  have hlt : ∀ a b, ρ a b → a < db.heap.length ∧ b < db'.heap.length := by
    intro a b hab
    obtain ⟨c', hc', hc'', _⟩ := h.same a b hab
    exact ⟨Store.lt_of_getElem? hc', Store.lt_of_getElem? hc''⟩
  refine ⟨fun a b => ρ a b ∨ (a = db.heap.length ∧ b = db'.heap.length), fun _ _ => .inl,
    .inr ⟨rfl, rfl⟩, ?_⟩
  have hcover : ∀ (heap : List SipMsgContainer) (a : Nat) c', (heap ++ [c])[a]? = some c' →
      heap[a]? = some c' ∨ a = heap.length := by
    intro heap a c' hc'
    have := Store.lt_of_getElem? hc'
    rw [List.length_append, List.length_singleton] at this
    by_cases ha : a < heap.length
    · exact .inl (by rwa [List.getElem?_append_left ha] at hc')
    · exact .inr (by omega)
  refine ⟨?_, ?_, ?_, ?_, ?_⟩
  · rintro a b a' b' (hab | ⟨rfl, rfl⟩) (hab' | ⟨rfl, rfl⟩)
    · exact h.inj a b a' b' hab hab'
    · have := hlt a b hab
      omega
    · have := hlt a' b' hab'
      omega
    · exact ⟨fun _ => rfl, fun _ => rfl⟩
  · rintro a b (hab | ⟨rfl, rfl⟩)
    · obtain ⟨c', hc', hc'', hk⟩ := h.same a b hab
      exact ⟨c', Store.getElem?_append_of_some hc' _, Store.getElem?_append_of_some hc'' _, hk⟩
    · exact ⟨c, Store.getElem?_alloc _ _, Store.getElem?_alloc _ _, hc⟩
  · intro a c' hc' hown
    rcases hcover _ a c' hc' with hc' | rfl
    · obtain ⟨b, hab⟩ := h.covers a c' hc' hown
      exact ⟨b, .inl hab⟩
    · exact ⟨db'.heap.length, .inr ⟨rfl, rfl⟩⟩
  · intro b c' hc' hown
    rcases hcover _ b c' hc' with hc' | rfl
    · obtain ⟨a, hab⟩ := h.covered b c' hc' hown
      exact ⟨a, .inl hab⟩
    · exact ⟨db.heap.length, .inr ⟨rfl, rfl⟩⟩
  · exact optionRel_mono (fun _ _ => CallRel.mono fun _ _ => .inl) h.call

theorem symm (h : Sim k ρ db db') : Sim k (fun b a => ρ a b) db' db where
  inj b a b' a' hab hab' := (h.inj a b a' b' hab hab').symm
  same b a hab := by
    obtain ⟨c, hc, hc', hk⟩ := h.same a b hab
    exact ⟨c, hc', hc, hk⟩
  covers := h.covered
  covered := h.covers
  call := by
    rcases h.call_cases with ⟨hnone, hnone'⟩ | ⟨call, call', hsome, hsome', hcall⟩
    · rw [hnone, hnone']
      exact .none
    · rw [hsome, hsome']
      refine .some ⟨?_, hcall.id.symm, hcall.curSeqNum.symm, hcall.setSeq.symm, hcall.purgeAt.symm⟩
      refine hcall.msgs.flip.imp fun mp mp' hp => ⟨?_, ?_⟩
      · exact optionRel_symm hp.request
      · exact optionRel_symm hp.response

theorem setCallPurgeTimer (h : Sim k ρ db db') {id : SipTransactionId} (hid : id.call_id = k) (t : Nat) :
    Sim k ρ (db.setCallPurgeTimer id t) (db'.setCallPurgeTimer id t) := by
  unfold SipTransactionDB.setCallPurgeTimer SipTransactionDB.getCallContainer
  rw [hid]
  rcases h.call_cases with ⟨hnone, hnone'⟩ | ⟨call, call', hsome, hsome', hcall⟩
  · rw [hnone, hnone']
    exact h
  · rw [hsome, hsome']
    exact h.setCall (hcall.setPurgeTimer t)

theorem purgeOldCalls (h : Sim k ρ db db') (now : Nat) :
    Sim k ρ (db.purgeOldCalls now) (db'.purgeOldCalls now) where
  inj := h.inj
  same := h.same
  covers := h.covers
  covered := h.covered
  call := by
    simp only [SipTransactionDB.purgeOldCalls]
    rcases h.call_cases with ⟨hnone, hnone'⟩ | ⟨call, call', hsome, hsome', hcall⟩
    · rw [hnone, hnone']
      exact .none
    · rw [hsome, hsome']
      have hexpired : SipTransactionDB.expired now call = SipTransactionDB.expired now call' := by
        rw [SipTransactionDB.expired, SipTransactionDB.expired, hcall.purgeAt]
      dsimp only
      rw [hexpired]
      by_cases hold : SipTransactionDB.expired now call' = true
      · rw [if_pos hold, if_pos hold]
        exact .none
      · rw [if_neg hold, if_neg hold]
        exact .some hcall

end Sim

theorem Alike.within {k j : Data} {db db₁ db' : SipTransactionDB} (h : Alike k db db') (hj : j ≠ k)
    (hin : Within j db db₁) : Alike k db₁ db' := by
  obtain ⟨ρ, h⟩ := h
  exact ⟨ρ, h.within hj hin⟩

theorem Alike.symm {k : Data} {db db' : SipTransactionDB} (h : Alike k db db') : Alike k db' db := by
  obtain ⟨ρ, h⟩ := h
  exact ⟨_, h.symm⟩

theorem Within.setCallPurgeTimer {db : SipTransactionDB} (hdb : Owned db) (id : SipTransactionId) (t : Nat) :
    Within id.call_id db (db.setCallPurgeTimer id t) := by
  unfold SipTransactionDB.setCallPurgeTimer SipTransactionDB.getCallContainer
  cases hcall : db.table id.call_id with
  | none => exact .refl hdb
  | some call => exact .setCall ((hdb _ call hcall).of_msgs rfl)

theorem Owned.empty : Owned .empty := by
  intro k call hcall
  cases hcall

theorem Owned.purgeOldCalls {db : SipTransactionDB} (hdb : Owned db) (now : Nat) :
    Owned (db.purgeOldCalls now) := by
  intro k call hcall
  simp only [SipTransactionDB.purgeOldCalls] at hcall
  cases htab : db.table k with
  | none => rw [htab] at hcall; cases hcall
  | some call' =>
    rw [htab] at hcall
    dsimp only at hcall
    split at hcall
    · cases hcall
    · exact Option.some.inj hcall ▸ hdb k call' htab

end Vocal.Sip
