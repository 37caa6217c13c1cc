import Vocal.Cdr.Radius

/-!
# Replies to accounting requests

A reply with the id of a pending message completes it, also if its length or its digest is wrong.
-/

namespace Vocal.Cdr.RadiusStack

variable {md5 : List UInt8 → Vector UInt8 ACCT_VECTOR_LEN} {retries : Int} {secretKey clientAddr : List UInt8}
  {s s' : RadiusStack} {m : RadiusMessage} {now : Nat} {rv : Int} {rvs : UInt8 → Int}

/-! ## What holds of every message in the table -/

/-- Each message of the table is one that may be in its place. -/
def AllPending (Q : UInt8 → RadiusMessage → Prop) (s : RadiusStack) : Prop :=
  ∀ id m, s.pendingMessages id = some m → Q id m

/-- Sending a message again changes nothing that the table relies on. -/
def Lasting (Q : UInt8 → RadiusMessage → Prop) : Prop :=
  ∀ id m remainingRetries nextTx, Q id m →
    Q id { m with remainingRetries := remainingRetries, nextTx := nextTx }

def Keyed (s : RadiusStack) : Prop := ∀ id m, s.pendingMessages id = some m → m.requestId = id

variable {Q : UInt8 → RadiusMessage → Prop}

theorem allPending_update {id : UInt8} {o : Option RadiusMessage} (hs : s.AllPending Q)
    (ho : ∀ m, o = some m → Q id m) :
    ∀ i m, Function.update s.pendingMessages id o i = some m → Q i m := by
  intro i m h
  by_cases hi : i = id
  · subst hi
    rw [Function.update_self] at h
    exact ho m h
  · rw [Function.update_of_ne hi] at h
    exact hs i m h

/-- The transmission that `doSendRadius` makes. -/
def transmission (m : RadiusMessage) (now : Nat) (rv : Int) : Transmission :=
  ⟨m.object, now, rv, m.sendBuffer.length⟩

/-- The retries that are left behind a transmission. -/
def retriesLeft (m : RadiusMessage) (now : Nat) (rv : Int) : Int :=
  m.remainingRetries - if (transmission m now rv).counted then 1 else 0

/-- Sending writes to the log, and changes nothing of a message but the retries it has left. -/
theorem doSendRadius_spec (s : RadiusStack) (now : Nat) (rv : Int) (m : RadiusMessage) :
    s.doSendRadius now rv m = ({ s with sent := s.sent ++ [transmission m now rv] },
      { m with remainingRetries := retriesLeft m now rv },
      decide (rv = m.sendBuffer.length ∨ rv = 0)) := by
  unfold doSendRadius
  split_ifs with hlen hzero
  · simp [retriesLeft, transmission, Transmission.counted, hlen]
  · have hempty : (0 : Int) ≠ m.sendBuffer.length := hzero ▸ hlen
    simp [retriesLeft, transmission, Transmission.counted, hzero, hempty]
  · simp [retriesLeft, transmission, Transmission.counted, hlen, hzero]

theorem mem_slots (id : UInt8) : id ∈ slots :=
  List.mem_map.mpr ⟨id.toNat, List.mem_range.mpr id.toNat_lt, UInt8.ofNat_toNat⟩

/-- The id that is found is free, and if there is none all are taken. -/
theorem findNextId_spec (s : RadiusStack) : ∃ next o, s.findNextId = ({ s with nextId := next }, o) ∧
    (∀ id, o = some id → s.pendingMessages id = none) ∧
    (o = none → ∀ id, (s.pendingMessages id).isSome = true) := by
  unfold findNextId
  dsimp only
  split_ifs with hfree
  · refine ⟨_, _, rfl, fun id hid => ?_, fun h => by cases h⟩
    obtain rfl := Option.some.inj hid
    exact Option.isNone_iff_eq_none.mp hfree
  · refine ⟨_, _, rfl, fun id hid => ?_, fun hnone id => ?_⟩
    · rw [freeId] at hid
      have hnone := List.find?_some hid
      exact Option.isNone_iff_eq_none.mp hnone
    · have htaken := List.find?_eq_none.mp hnone id (mem_slots id)
      exact Option.isSome_iff_ne_none.mpr fun h => htaken (Option.isNone_iff_eq_none.mpr h)

theorem createMsg_cases (md5 : List UInt8 → Vector UInt8 ACCT_VECTOR_LEN) (s : RadiusStack) (code : UInt8)
    (attributes : List UInt8) (uninitialised now : Nat) (rv : Int) :
    (∃ next, s.createMsg md5 code attributes uninitialised now rv = { s with nextId := next }) ∨
    ∃ next id m, s.pendingMessages id = none ∧ m.object = s.created ∧ m.requestId = id ∧
      m.sendBuffer = request md5 s.secretKey code id attributes ∧ m.remainingRetries = s.retries ∧ m.nextTx = uninitialised ∧
      s.createMsg md5 code attributes uninitialised now rv = { s with
        nextId := next
        created := s.created + 1
        sent := s.sent ++ [transmission m now rv]
        pendingMessages := Function.update s.pendingMessages id
          (some { m with remainingRetries := retriesLeft m now rv }) } := by
  obtain ⟨next, o, hnext, hfree, -⟩ := s.findNextId_spec
  unfold createMsg
  rw [hnext]
  cases o with
  | none => exact Or.inl ⟨next, rfl⟩
  | some id =>
    dsimp only
    rw [doSendRadius_spec]
    exact Or.inr ⟨next, id, ⟨s.created, id, s.retries, request md5 s.secretKey code id attributes, uninitialised⟩,
      hfree id rfl, rfl, rfl, rfl, rfl, rfl, rfl⟩

/-- One place of the loop: nothing is due, or the message was sent again and is kept, dropped or put off. -/
theorem tickSlot_cases (now : Nat) (rvs : UInt8 → Int) (s : RadiusStack) (i : UInt8) :
    s.tickSlot now rvs i = s ∧ (∀ m, s.pendingMessages i = some m → now < m.nextTx) ∨
    ∃ m, s.pendingMessages i = some m ∧ m.nextTx ≤ now ∧ ∃ o,
      s.tickSlot now rvs i = { s with
        sent := s.sent ++ [transmission m now (rvs i)]
        pendingMessages := Function.update s.pendingMessages i o } ∧
      (o = some { m with remainingRetries := retriesLeft m now (rvs i) } ∧
          (rvs i = m.sendBuffer.length ∨ rvs i = 0) ∨
        ¬ (rvs i = m.sendBuffer.length ∨ rvs i = 0) ∧ (o = none ∧ retriesLeft m now (rvs i) ≤ 0 ∨
          o = some { m with remainingRetries := retriesLeft m now (rvs i), nextTx := now + 500 } ∧
            0 < retriesLeft m now (rvs i))) := by
  unfold tickSlot
  cases hm : s.pendingMessages i with
  | none => exact Or.inl ⟨rfl, fun m h => by cases h⟩
  | some m =>
    by_cases hdue : m.nextTx ≤ now
    · refine Or.inr ⟨m, rfl, hdue, ?_⟩
      simp only [if_pos hdue, doSendRadius_spec]
      split_ifs with hok hleft
      · exact ⟨_, rfl, Or.inl ⟨rfl, of_decide_eq_true hok⟩⟩
      · exact ⟨_, rfl, Or.inr ⟨fun h => hok (decide_eq_true h), Or.inl ⟨rfl, hleft⟩⟩⟩
      · exact ⟨_, rfl, Or.inr ⟨fun h => hok (decide_eq_true h), Or.inr ⟨rfl, Int.not_le.mp hleft⟩⟩⟩
    · refine Or.inl ⟨if_neg hdue, fun m' h => ?_⟩
      obtain rfl := Option.some.inj h
      exact Nat.lt_of_not_le hdue

theorem evaluateAttributes_spec (totalLen count : Nat) (rest : List UInt8) (s s' : RadiusStack)
    (h : evaluateAttributes totalLen count rest s = some s') :
    ∃ status calls, s' = { s with acctStatusType := status, vsaCalls := calls } := by
  fun_induction evaluateAttributes totalLen count rest s with
  | case1 count s hlt type len rest hlen ih => exact ih h
  | case2 => cases h
  | case3 count s hlt len b value hlen ih =>
    obtain ⟨status, calls, rfl⟩ := ih h
    exact ⟨status, calls, rfl⟩
  | case4 count s hlt len rest hlen vsaType vsaLength value hdrop hstatus ih =>
    obtain ⟨status, calls, rfl⟩ := ih h
    exact ⟨status, calls, rfl⟩
  | case5 => cases h
  | case6 count s hlt type len rest hlen hstatus hvendor ih => exact ih h
  | case7 => cases h
  | case8 => exact ⟨_, _, (Option.some.inj h).symm⟩

theorem handleMessage_spec {d : List UInt8} (h : s.handleMessage m d = some s') :
    ∃ buffer status calls,
      s' = { s with recvBuffer := buffer, acctStatusType := status, vsaCalls := calls } := by
  unfold handleMessage at h
  dsimp only at h
  split_ifs at h
  · exact ⟨_, _, _, (Option.some.inj h).symm⟩
  · obtain ⟨status, calls, rfl⟩ := evaluateAttributes_spec _ _ _ _ _ h
    exact ⟨_, status, calls, rfl⟩

/-- What a datagram does to the table: nothing, or the message with its id is gone. -/
theorem receive_cases {d : List UInt8} (h : s.receive d = some s') :
    (∃ buffer, s' = { s with recvBuffer := buffer } ∧ ((d.take sizeofBuffer).length < sizeofAcctHdr ∨
      s.pendingMessages (idOf (d.take sizeofBuffer)) = none)) ∨
    ∃ m buffer status calls, sizeofAcctHdr ≤ (d.take sizeofBuffer).length ∧
      s.pendingMessages (idOf (d.take sizeofBuffer)) = some m ∧
      s' = { s with
        recvBuffer := buffer
        acctStatusType := status
        vsaCalls := calls
        pendingMessages := Function.update s.pendingMessages m.requestId none } := by
  unfold receive at h
  dsimp only at h
  split_ifs at h with hlen
  · unfold handleResponse at h
    split at h
    · rename_i m hm
      obtain ⟨s₁, hs₁, rfl⟩ := Option.map_eq_some_iff.mp h
      obtain ⟨buffer, status, calls, rfl⟩ := handleMessage_spec hs₁
      exact Or.inr ⟨m, buffer, status, calls, hlen, hm, rfl⟩
    · rename_i hnone
      exact Or.inl ⟨_, (Option.some.inj h).symm, Or.inr hnone⟩
  · exact Or.inl ⟨_, (Option.some.inj h).symm, Or.inl (Nat.lt_of_not_le hlen)⟩

theorem AllPending.tickSlot (hQ : Lasting Q) (hs : s.AllPending Q) (i : UInt8) :
    (s.tickSlot now rvs i).AllPending Q := by
  obtain ⟨hsame, -⟩ | ⟨m, hm, -, o, hstep, ho⟩ := tickSlot_cases now rvs s i
  · rwa [hsame]
  · rw [hstep]
    apply allPending_update hs
    intro m' hm'
    have hsend := hQ i m (retriesLeft m now (rvs i))
    rcases ho with ⟨rfl, -⟩ | ⟨-, ⟨rfl, -⟩ | ⟨rfl, -⟩⟩
    · obtain rfl := Option.some.inj hm'
      exact hsend m.nextTx (hs i m hm)
    · cases hm'
    · obtain rfl := Option.some.inj hm'
      exact hsend (now + 500) (hs i m hm)

theorem AllPending.slots (hQ : Lasting Q) (l : List UInt8) (hs : s.AllPending Q) :
    (l.foldl (RadiusStack.tickSlot now rvs) s).AllPending Q := by
  induction l generalizing s with
  | nil => exact hs
  | cons i l ih => exact ih (hs.tickSlot hQ i)

theorem AllPending.receive {d : List UInt8} (hs : s.AllPending Q) (h : s.receive d = some s') :
    s'.AllPending Q := by
  obtain ⟨buffer, rfl, -⟩ | ⟨m, buffer, status, calls, -, -, rfl⟩ := receive_cases h
  · exact hs
  · exact allPending_update hs (fun m h => by cases h)

theorem AllPending.tick (hQ : Lasting Q) {d : Option (List UInt8)} (hs : s.AllPending Q)
    (h : s.tick d now rvs = some s') : s'.AllPending Q := by
  obtain ⟨s₁, hs₁, rfl⟩ := Option.map_eq_some_iff.mp h
  apply AllPending.slots hQ
  cases d with
  | none =>
    obtain rfl := Option.some.inj hs₁
    exact hs
  | some d => exact hs.receive hs₁

theorem AllPending.createMsg (hQ : Lasting Q) (hs : s.AllPending Q) {code : UInt8} {attributes : List UInt8}
    {uninitialised : Nat} (hnew : ∀ id m, m.requestId = id →
      m.sendBuffer = request md5 s.secretKey code id attributes → Q id m) :
    (s.createMsg md5 code attributes uninitialised now rv).AllPending Q := by
  obtain ⟨next, hsame⟩ | ⟨next, id, m, -, -, hid, hbuffer, -, -, hcreated⟩ :=
    createMsg_cases md5 s code attributes uninitialised now rv
  · rw [hsame]
    exact hs
  · rw [hcreated]
    apply allPending_update hs
    intro m' hm'
    obtain rfl := Option.some.inj hm'
    exact hQ id m _ m.nextTx (hnew id m hid hbuffer)

theorem keyed_of_reachable (h : (machine md5 retries secretKey clientAddr).Reachable (some s)) : s.Keyed := by
  have hQ : Lasting fun id m => m.requestId = id := fun id m _ _ hid => hid
  refine Machine.Reachable.induct (P := fun o => ∀ s, o = some s → s.Keyed) (fun s hs => ?_)
    (fun o op hprev s hs => ?_) h s rfl
  · obtain rfl := Option.some.inj hs
    exact fun id m h => by cases h
  · cases o with
    | none => cases hs
    | some s₀ =>
      have hs₀ : s₀.AllPending fun id m => m.requestId = id := hprev s₀ rfl
      cases op with
      | create r uninitialised now rv =>
        obtain rfl := Option.some.inj hs
        exact hs₀.createMsg hQ fun id m hid _ => hid
      | tick d now rvs => exact hs₀.tick hQ hs

/-! ## Authentic replies -/

/-- The reply is one to a pending message, has the length it says and the digest that the message and the
secret give. -/
def Authentic (md5 : List UInt8 → Vector UInt8 ACCT_VECTOR_LEN) (s : RadiusStack) (d : List UInt8) : Prop :=
  ∃ m, s.pendingMessages (idOf d) = some m ∧ lengthOf d = d.length ∧
    authVector d = (md5 (digestInput s.secretKey m d)).toList

/-- What a reply may change. -/
def SameState (s s' : RadiusStack) : Prop :=
  s'.pendingMessages = s.pendingMessages ∧ s'.acctStatusType = s.acctStatusType ∧ s'.vsaCalls = s.vsaCalls

/-- A datagram that is not authentic changes nothing. -/
def OnlyAuthentic (md5 : List UInt8 → Vector UInt8 ACCT_VECTOR_LEN) (s : RadiusStack) (d : List UInt8) : Prop :=
  ¬ Authentic md5 s (d.take sizeofBuffer) → ∃ s', s.receive d = some s' ∧ SameState s s'

/-- A datagram with the id of a pending message takes it from the table, whatever else it holds. -/
theorem not_sameState {d : List UInt8} (hs : s.Keyed) (hlen : sizeofAcctHdr ≤ (d.take sizeofBuffer).length)
    (hm : s.pendingMessages (idOf (d.take sizeofBuffer)) = some m) (h : s.receive d = some s') :
    ¬ SameState s s' := by
  rintro ⟨hsame, -, -⟩
  obtain ⟨buffer, -, hshort | hnone⟩ | ⟨m', buffer, status, calls, -, hm', rfl⟩ := receive_cases h
  · omega
  · rw [hm] at hnone
    cases hnone
  · have hgone := congrFun hsame m'.requestId
    dsimp only at hgone
    rw [Function.update_self, hs _ m' hm', hm'] at hgone
    cases hgone

/-- Of the datagrams that are not authentic, those and only those change nothing that are too short for a
header or have no pending message. -/
theorem onlyAuthentic_iff (h : (machine md5 retries secretKey clientAddr).Reachable (some s)) (d : List UInt8) :
    OnlyAuthentic md5 s d ↔ (d.take sizeofBuffer).length < sizeofAcctHdr ∨
      s.pendingMessages (idOf (d.take sizeofBuffer)) = none ∨ Authentic md5 s (d.take sizeofBuffer) := by
  constructor
  · intro honly
    by_cases hauth : Authentic md5 s (d.take sizeofBuffer)
    · exact Or.inr (Or.inr hauth)
    obtain ⟨s', hs', hsame⟩ := honly hauth
    obtain ⟨buffer, -, hshort | hnone⟩ | ⟨m, buffer, status, calls, hlen, hm, -⟩ := receive_cases hs'
    · exact Or.inl hshort
    · exact Or.inr (Or.inl hnone)
    · exact absurd hsame (not_sameState (keyed_of_reachable h) hlen hm hs')
  · rintro (hshort | hnone | hauth) hno
    · refine ⟨_, if_neg (Nat.not_le.mpr hshort), rfl, rfl, rfl⟩
    · by_cases hlen : sizeofAcctHdr ≤ (d.take sizeofBuffer).length
      · refine ⟨{ s with recvBuffer := d.take sizeofBuffer ++ s.recvBuffer.drop (d.take sizeofBuffer).length },
          ?_, rfl, rfl, rfl⟩
        unfold receive
        dsimp only
        rw [if_pos hlen, handleResponse]
        dsimp only
        rw [hnone]
      · exact ⟨_, if_neg hlen, rfl, rfl, rfl⟩
    · exact absurd hauth hno

/-- The stack behind its first request. -/
def started : RadiusStack :=
  ({ retries := 5, secretKey := [115], clientAddr := [] } : RadiusStack).createMsg
    (fun _ => Vector.replicate ACCT_VECTOR_LEN 0) PW_ACCOUNTING_REQUEST
    ((Request.acctOn.attributes []).flatMap fun p => addAttribute p.1 p.2) 0 0 32

theorem reachable_started :
    (machine (fun _ => Vector.replicate ACCT_VECTOR_LEN 0) 5 [115] []).Reachable (some started) :=
  ⟨[.create .acctOn 0 0 32], rfl⟩

/-- A reply to a request that was never made. -/
theorem onlyAuthentic_iff_stray :
    (machine (fun _ => Vector.replicate ACCT_VECTOR_LEN 0) 5 [115] []).Reachable (some started) ∧
      OnlyAuthentic (fun _ => Vector.replicate ACCT_VECTOR_LEN 0) started ([5, 9, 0, 20] ++ List.replicate 16 0) :=
  ⟨reachable_started, (onlyAuthentic_iff reachable_started _).mpr (Or.inr (Or.inl (by decide)))⟩

/-- A reply that says it has no length completes the first request. -/
theorem not_onlyAuthentic : ¬ ∀ (md5 : List UInt8 → Vector UInt8 ACCT_VECTOR_LEN) (retries : Int)
    (secretKey clientAddr : List UInt8) (s : RadiusStack) (d : List UInt8),
    (machine md5 retries secretKey clientAddr).Reachable (some s) → OnlyAuthentic md5 s d := by
  intro h
  obtain ⟨s', hs', hsame⟩ := h _ 5 [115] [] started ([5, 1, 0, 0] ++ List.replicate 16 0) reachable_started
    (fun hauth => by
      obtain ⟨m, -, hlen, -⟩ := hauth
      exact absurd hlen (by decide))
  obtain ⟨m, hm⟩ : ∃ m, started.pendingMessages
      (idOf (List.take sizeofBuffer ([5, 1, 0, 0] ++ List.replicate 16 0))) = some m := ⟨_, rfl⟩
  exact not_sameState (keyed_of_reachable reachable_started) (by decide) hm hs' hsame

end Vocal.Cdr.RadiusStack
