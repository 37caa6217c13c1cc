import Vocal.Cdr.Radius.Replies

/-!
# The retries of an accounting request

Only a transmission that fails puts a message off and takes it from the table at the end. As long as no message
is sent again successfully, each has one successful transmission at most, its transmissions are half a second
apart and it is gone when its retries are used up.
-/

namespace Vocal.Cdr.RadiusStack

variable {md5 : List UInt8 → Vector UInt8 ACCT_VECTOR_LEN} {retries : Int} {secretKey clientAddr : List UInt8}
  {s s' : RadiusStack} {m : RadiusMessage} {now : Nat} {rvs : UInt8 → Int} {i id : UInt8}

/-- The transmissions of a message. -/
def transmissions (s : RadiusStack) (k : Nat) : List Transmission := s.sent.filter (·.object = k)

/-- The transmissions that count against the retries of a message. -/
def used (s : RadiusStack) (k : Nat) : Nat := (s.transmissions k).countP (·.counted)

/-- The budget of each message. -/
structure WithinBudget (s : RadiusStack) : Prop where
  successes : ∀ k < s.created, ((s.transmissions k).countP (·.successful) : Int) ≤ s.retries
  spaced : ∀ k, (s.transmissions k).Pairwise fun t t' => t.time + 500 ≤ t'.time

/-- What is still pending behind a tick at which it was due has retries left. -/
def Freed (md5 : List UInt8 → Vector UInt8 ACCT_VECTOR_LEN) (retries : Int) (secretKey clientAddr : List UInt8)
    (o : Option RadiusStack) (op : Op) : Prop :=
  ∀ s d now rvs, o = some s → op = .tick d now rvs →
    ∀ s', (machine md5 retries secretKey clientAddr).next o op = some s' →
      ∀ id m, s.pendingMessages id = some m → m.nextTx ≤ now →
        ∀ m', s'.pendingMessages id = some m' → (s'.used m'.object : Int) < s'.retries

/-- No message that is due is sent again successfully or put off by the socket. -/
def NoneResent (now : Nat) (rvs : UInt8 → Int) (s : RadiusStack) : Prop :=
  ∀ id m, s.pendingMessages id = some m → m.nextTx ≤ now → ¬ (rvs id = m.sendBuffer.length ∨ rvs id = 0)

/-- A request is made with a retry to use, and on memory that holds a time half a second ahead; a tick sends
nothing again successfully. -/
def Fails : Option RadiusStack → Op → Prop
  | some s, .create _ uninitialised now _ => 1 ≤ s.retries ∧ now + 500 ≤ uninitialised
  | some s, .tick _ now rvs => s.NoneResent now rvs
  | none, _ => True

/-! ## The invariant -/

structure Inv (s : RadiusStack) : Prop where
  budget : WithinBudget s
  fresh : ∀ t ∈ s.sent, t.object < s.created
  known : ∀ id m, s.pendingMessages id = some m → m.object < s.created
  apart : ∀ id id' m m', s.pendingMessages id = some m → s.pendingMessages id' = some m' →
    m.object = m'.object → id = id'
  waits : ∀ id m, s.pendingMessages id = some m → ∀ t ∈ s.transmissions m.object, t.time + 500 ≤ m.nextTx
  left : ∀ id m, s.pendingMessages id = some m → m.remainingRetries = s.retries - s.used m.object

theorem Inv.shrink {s' : RadiusStack} (hs : s.Inv) (hsent : s'.sent = s.sent) (hcreated : s'.created = s.created)
    (hretries : s'.retries = s.retries)
    (hpending : ∀ id m, s'.pendingMessages id = some m → s.pendingMessages id = some m) : s'.Inv := by
  have htrans : ∀ k, s'.transmissions k = s.transmissions k := fun k => by simp [transmissions, hsent]
  refine ⟨⟨fun k hk => ?_, fun k => ?_⟩, ?_, fun id m h => ?_, fun id id' m m' h h' => ?_, fun id m h => ?_,
    fun id m h => ?_⟩
  · rw [htrans, hretries]
    exact hs.budget.successes k (hcreated ▸ hk)
  · rw [htrans]
    exact hs.budget.spaced k
  · rw [hsent, hcreated]
    exact hs.fresh
  · rw [hcreated]
    exact hs.known id m (hpending id m h)
  · exact hs.apart id id' m m' (hpending id m h) (hpending id' m' h')
  · rw [htrans]
    exact hs.waits id m (hpending id m h)
  · rw [hretries, used, htrans]
    exact hs.left id m (hpending id m h)

theorem transmissions_append {t : Transmission} (h : s'.sent = s.sent ++ [t]) (k : Nat) :
    s'.transmissions k = s.transmissions k ++ if t.object = k then [t] else [] := by
  simp only [transmissions, h, List.filter_append]
  by_cases hk : t.object = k <;> simp [hk]

theorem Inv.transmit {t : Transmission} (hs : s.Inv) (i : UInt8) (mᵢ : RadiusMessage) (hsent : s'.sent = s.sent ++ [t])
    (hcreated : s.created ≤ s'.created) (hretries : s'.retries = s.retries) (hfresh : t.object < s'.created)
    (hpending : ∀ id m, s'.pendingMessages id = some m →
      id = i ∧ m = mᵢ ∨ s.pendingMessages id = some m ∧ m.object ≠ t.object)
    (hobject : mᵢ.object = t.object) (hbudget : s'.WithinBudget)
    (hwaits : ∀ t' ∈ s'.transmissions mᵢ.object, t'.time + 500 ≤ mᵢ.nextTx)
    (hleft : mᵢ.remainingRetries = s'.retries - s'.used mᵢ.object) : s'.Inv := by
  have hsame : ∀ m : RadiusMessage, m.object ≠ t.object → s'.transmissions m.object = s.transmissions m.object := by
    intro m hne
    rw [transmissions_append hsent, if_neg (Ne.symm hne), List.append_nil]
  refine ⟨hbudget, fun t' ht => ?_, fun id m h => ?_, fun id id' m₁ m₂ h₁ h₂ heq => ?_, fun id m h => ?_,
    fun id m h => ?_⟩
  · rw [hsent] at ht
    rcases List.mem_append.mp ht with ht | ht
    · exact Nat.lt_of_lt_of_le (hs.fresh t' ht) hcreated
    · rw [List.mem_singleton.mp ht]
      exact hfresh
  · obtain ⟨-, rfl⟩ | ⟨h, -⟩ := hpending id m h
    · rw [hobject]
      exact hfresh
    · exact Nat.lt_of_lt_of_le (hs.known id m h) hcreated
  · obtain ⟨hid, hm₁⟩ | ⟨hold₁, hne₁⟩ := hpending id m₁ h₁
    · obtain ⟨hid', -⟩ | ⟨-, hne₂⟩ := hpending id' m₂ h₂
      · rw [hid, hid']
      · exact absurd (by rw [← heq, hm₁, hobject]) hne₂
    · obtain ⟨-, hm₂⟩ | ⟨hold₂, -⟩ := hpending id' m₂ h₂
      · exact absurd (by rw [heq, hm₂, hobject]) hne₁
      · exact hs.apart id id' m₁ m₂ hold₁ hold₂ heq
  · obtain ⟨-, rfl⟩ | ⟨h, hne⟩ := hpending id m h
    · exact hwaits
    · rw [hsame m hne]
      exact hs.waits id m h
  · obtain ⟨-, rfl⟩ | ⟨h, hne⟩ := hpending id m h
    · exact hleft
    · rw [used, hsame m hne, hretries]
      exact hs.left id m h

theorem Inv.failed (hs : s.Inv) (hm : s.pendingMessages i = some m) (hdue : m.nextTx ≤ now)
    (hfail : ¬ (rvs i = m.sendBuffer.length ∨ rvs i = 0)) (o : Option RadiusMessage)
    (ho : o = none ∨ o = some { m with remainingRetries := retriesLeft m now (rvs i), nextTx := now + 500 }) :
    ({ s with
      sent := s.sent ++ [transmission m now (rvs i)]
      pendingMessages := Function.update s.pendingMessages i o }).Inv := by
  have hsucc : (transmission m now (rvs i)).successful = false := by
    exact decide_eq_false fun h => hfail (Or.inl h)
  have hcount : (transmission m now (rvs i)).counted = true := by
    have hne : rvs i ≠ 0 := fun h => hfail (Or.inr h)
    simp [transmission, Transmission.counted, hne]
  have hobject : (transmission m now (rvs i)).object = m.object := rfl
  have hlate : ∀ t ∈ s.transmissions m.object, t.time + 500 ≤ now :=
    fun t ht => Nat.le_trans (hs.waits i m hm t ht) hdue
  refine hs.transmit i { m with remainingRetries := retriesLeft m now (rvs i), nextTx := now + 500 } rfl
    (Nat.le_refl _) rfl (hs.known i m hm) (fun id m' h => ?_) rfl ⟨fun k hk => ?_, fun k => ?_⟩ (fun t ht => ?_) ?_
  · replace h : Function.update s.pendingMessages i o id = some m' := h
    by_cases hid : id = i
    · subst hid
      rw [Function.update_self] at h
      rcases ho with rfl | rfl
      · cases h
      · exact Or.inl ⟨rfl, (Option.some.inj h).symm⟩
    · rw [Function.update_of_ne hid] at h
      exact Or.inr ⟨h, fun heq => hid (hs.apart id i m' m h hm heq)⟩
  · rw [transmissions_append rfl, List.countP_append]
    have hzero : (if (transmission m now (rvs i)).object = k then [transmission m now (rvs i)] else []).countP
        (·.successful) = 0 := by
      split_ifs <;> simp [hsucc]
    rw [hzero]
    exact hs.budget.successes k hk
  · rw [transmissions_append rfl]
    split_ifs with hk
    · refine List.pairwise_append.mpr ⟨hs.budget.spaced k, List.pairwise_singleton _ _, fun t ht t' ht' => ?_⟩
      rw [List.mem_singleton.mp ht']
      exact hlate t (by rwa [← hobject, hk])
    · rw [List.append_nil]
      exact hs.budget.spaced k
  · rw [transmissions_append rfl, if_pos hobject] at ht
    rcases List.mem_append.mp ht with ht | ht
    · exact Nat.le_trans (hlate t ht) (Nat.le_add_right ..)
    · rw [List.mem_singleton.mp ht]
      exact Nat.le_refl _
  · have hleft := hs.left _ m hm
    rw [used] at hleft
    rw [used, transmissions_append rfl, if_pos hobject, List.countP_append]
    simp only [retriesLeft, hcount, List.countP_singleton, if_true, hleft]
    push_cast
    omega

/-- What a place of the table holds when the loop has passed it. -/
def Settled (now : Nat) (s : RadiusStack) (id : UInt8) : Prop :=
  ∀ m, s.pendingMessages id = some m → now < m.nextTx ∧ 0 < m.remainingRetries

/-- One turn of the loop, where nothing is sent again successfully. -/
theorem Inv.tickSlot (hs : s.Inv) (hnone : s.NoneResent now rvs) (i : UInt8) :
    (s.tickSlot now rvs i).Inv ∧ (s.tickSlot now rvs i).NoneResent now rvs ∧
      (s.tickSlot now rvs i).retries = s.retries ∧
      (∀ m, s.pendingMessages i = some m → m.nextTx ≤ now → (s.tickSlot now rvs i).Settled now i) ∧
      (∀ id, id ≠ i → (s.tickSlot now rvs i).pendingMessages id = s.pendingMessages id) ∧
      (s.Settled now i → (s.tickSlot now rvs i).Settled now i) := by
  obtain ⟨hsame, hwait⟩ | ⟨m, hm, hdue, o, hstep, ⟨-, hok⟩ | ⟨hfail, ho⟩⟩ := tickSlot_cases now rvs s i
  · rw [hsame]
    refine ⟨hs, hnone, rfl, fun m hm hdue => ?_, fun id _ => rfl, id⟩
    exact absurd (hwait m hm) (Nat.not_lt.mpr hdue)
  · exact absurd hok (hnone i m hm hdue)
  · have hnew : ∀ m', o = some m' → now < m'.nextTx ∧ 0 < m'.remainingRetries := by
      intro m' hm'
      rcases ho with ⟨rfl, -⟩ | ⟨rfl, hpos⟩
      · cases hm'
      · obtain rfl := Option.some.inj hm'
        exact ⟨by dsimp only; omega, hpos⟩
    have hsettled : (s.tickSlot now rvs i).Settled now i := by
      intro m' hm'
      rw [hstep] at hm'
      exact hnew m' (by simpa using hm')
    refine ⟨?_, ?_, by rw [hstep], fun m' _ _ => hsettled, fun id hid => ?_, fun _ => hsettled⟩
    · rw [hstep]
      exact hs.failed hm hdue hfail o (ho.imp And.left And.left)
    · intro id m' hm' hdue'
      by_cases hid : id = i
      · subst hid
        exact absurd (hsettled m' hm').1 (Nat.not_lt.mpr hdue')
      · rw [hstep] at hm'
        exact hnone id m' (by simpa [Function.update_of_ne hid] using hm') hdue'
    · rw [hstep]
      exact Function.update_of_ne hid _ _

theorem Inv.tickSlots (l : List UInt8) (hs : s.Inv) (hnone : s.NoneResent now rvs) :
    (l.foldl (RadiusStack.tickSlot now rvs) s).Inv ∧
      (l.foldl (RadiusStack.tickSlot now rvs) s).retries = s.retries ∧
      ∀ id, (s.Settled now id ∨ id ∈ l ∧ ∃ m, s.pendingMessages id = some m ∧ m.nextTx ≤ now) →
        (l.foldl (RadiusStack.tickSlot now rvs) s).Settled now id := by
  induction l generalizing s with
  | nil =>
    refine ⟨hs, rfl, fun id h => ?_⟩
    rcases h with h | ⟨h, -⟩
    · exact h
    · cases h
  | cons i l ih =>
    obtain ⟨hinv, hnone', hretries, hsettles, hframe, hstays⟩ := hs.tickSlot hnone i
    obtain ⟨hinv', hretries', hall⟩ := ih hinv hnone'
    refine ⟨hinv', hretries'.trans hretries, fun id h => hall id ?_⟩
    by_cases hid : id = i
    · subst hid
      rcases h with h | ⟨-, m, hm, hdue⟩
      · exact Or.inl (hstays h)
      · exact Or.inl (hsettles m hm hdue)
    · rcases h with h | ⟨hmem, m, hm, hdue⟩
      · left
        intro m hm
        rw [hframe id hid] at hm
        exact h m hm
      · refine Or.inr ⟨(List.mem_cons.mp hmem).resolve_left hid, m, ?_, hdue⟩
        rw [hframe id hid, hm]

theorem Inv.transmissions_created (hs : s.Inv) : s.transmissions s.created = [] := by
  rw [transmissions, List.filter_eq_nil_iff]
  intro t ht
  simpa using Nat.ne_of_lt (hs.fresh t ht)

theorem Inv.createMsg (hs : s.Inv) (hretries : 1 ≤ s.retries) (code : UInt8) (attributes : List UInt8)
    {uninitialised : Nat} (hahead : now + 500 ≤ uninitialised) (rv : Int) :
    (s.createMsg md5 code attributes uninitialised now rv).Inv := by
  obtain ⟨next, hsame⟩ | ⟨next, id, m, hfree, hobject, -, -, hleft, hnext, hnew⟩ :=
    createMsg_cases md5 s code attributes uninitialised now rv
  · rw [hsame]
    exact hs.shrink rfl rfl rfl fun _ _ h => h
  rw [hnew]
  have hobj : (transmission m now rv).object = s.created := hobject
  have hself : (transmission m now rv).object = m.object := rfl
  refine hs.transmit id { m with remainingRetries := retriesLeft m now rv } rfl (Nat.le_succ _) rfl ?_ (fun id' m' h => ?_) rfl
    ⟨fun k hk => ?_, fun k => ?_⟩ (fun t ht => ?_) ?_
  · rw [hobj]
    exact Nat.lt_succ_self _
  · replace h : Function.update s.pendingMessages id (some { m with remainingRetries := retriesLeft m now rv }) id' =
        some m' := h
    by_cases hid : id' = id
    · subst hid
      rw [Function.update_self] at h
      exact Or.inl ⟨rfl, (Option.some.inj h).symm⟩
    · rw [Function.update_of_ne hid] at h
      exact Or.inr ⟨h, fun heq => absurd (hs.known id' m' h) (by rw [heq, hobj]; exact Nat.lt_irrefl _)⟩
  · rw [transmissions_append rfl, List.countP_append, hobj]
    split_ifs with heq
    · -- the first transmission is the only one
      rw [← heq, hs.transmissions_created, List.countP_nil, Nat.zero_add]
      have hone : [transmission m now rv].countP (·.successful) ≤ 1 := List.countP_le_length
      dsimp only
      omega
    · rw [List.countP_nil, Nat.add_zero]
      exact hs.budget.successes k (Nat.lt_of_le_of_ne (Nat.le_of_lt_succ hk) (Ne.symm heq))
  · rw [transmissions_append rfl, hobj]
    split_ifs with heq
    · rw [← heq, hs.transmissions_created]
      exact List.pairwise_singleton _ _
    · rw [List.append_nil]
      exact hs.budget.spaced k
  · rw [transmissions_append rfl, if_pos hself, hobject, hs.transmissions_created,
      List.nil_append] at ht
    rw [List.mem_singleton.mp ht]
    dsimp only
    rw [hnext]
    exact hahead
  · rw [used, transmissions_append rfl, if_pos hself]
    dsimp only
    rw [hobject, hs.transmissions_created, List.nil_append, retriesLeft, hleft, List.countP_singleton]
    split_ifs <;> rfl

theorem Inv.receive {d : List UInt8} (hs : s.Inv) (h : s.receive d = some s') :
    s'.Inv ∧ s'.retries = s.retries ∧
      ∀ id m, s'.pendingMessages id = some m → s.pendingMessages id = some m := by
  have hpending : ∀ id m, s'.pendingMessages id = some m → s.pendingMessages id = some m := by
    intro id m hm
    obtain ⟨buffer, rfl, -⟩ | ⟨m', buffer, status, calls, -, -, rfl⟩ := receive_cases h
    · exact hm
    · by_cases hid : id = m'.requestId
      · rw [hid] at hm
        simp at hm
      · simpa [Function.update_of_ne hid] using hm
  obtain ⟨buffer, rfl, -⟩ | ⟨m', buffer, status, calls, -, -, rfl⟩ := receive_cases h
  · exact ⟨hs.shrink rfl rfl rfl hpending, rfl, hpending⟩
  · exact ⟨hs.shrink rfl rfl rfl hpending, rfl, hpending⟩

/-- A turn of the event loop, with or without a datagram. -/
theorem Inv.tick {d : Option (List UInt8)} (hs : s.Inv) (hnone : s.NoneResent now rvs)
    (h : s.tick d now rvs = some s') : s'.Inv ∧ s'.retries = s.retries ∧
      ∀ id m, s.pendingMessages id = some m → m.nextTx ≤ now → s'.Settled now id := by
  obtain ⟨s₁, hs₁, rfl⟩ := Option.map_eq_some_iff.mp h
  obtain ⟨hinv, hretries, hpending⟩ : s₁.Inv ∧ s₁.retries = s.retries ∧
      ∀ id m, s₁.pendingMessages id = some m → s.pendingMessages id = some m := by
    cases d with
    | none =>
      obtain rfl := Option.some.inj hs₁
      exact ⟨hs, rfl, fun _ _ h => h⟩
    | some d => exact hs.receive hs₁
  have hnone₁ : s₁.NoneResent now rvs := fun id m hm => hnone id m (hpending id m hm)
  obtain ⟨hinv', hretries', hsettled⟩ := hinv.tickSlots slots hnone₁
  refine ⟨hinv', hretries'.trans hretries, fun id m hm hdue => hsettled id ?_⟩
  cases hm₁ : s₁.pendingMessages id with
  | none =>
    left
    intro m' hm'
    rw [hm₁] at hm'
    cases hm'
  | some m₁ =>
    have hmm : m₁ = m := Option.some.inj ((hpending id m₁ hm₁).symm.trans hm)
    exact Or.inr ⟨mem_slots id, m₁, rfl, hmm ▸ hdue⟩

/-- The invariant of a stack, if there is one. -/
def InvState (o : Option RadiusStack) : Prop := ∀ s, o = some s → s.Inv

theorem invState_next (o : Option RadiusStack) (op : Op) (hinv : InvState o) (hop : Fails o op) :
    InvState ((machine md5 retries secretKey clientAddr).next o op) := by
  intro s' hs'
  cases o with
  | none => cases hs'
  | some s =>
    have hs := hinv s rfl
    cases op with
    | create r uninitialised now rv =>
      obtain rfl := Option.some.inj hs'
      exact hs.createMsg hop.1 _ _ hop.2 rv
    | tick d now rvs => exact (hs.tick hop hs').1

theorem freed_of_inv (o : Option RadiusStack) (op : Op) (hinv : InvState o) (hop : Fails o op) :
    Freed md5 retries secretKey clientAddr o op := by
  rintro s d now rvs rfl rfl s' hs' id m hm hdue m' hm'
  obtain ⟨hinv', hretries, hsettled⟩ := (hinv s rfl).tick hop hs'
  have hleft := (hsettled id m hm hdue m' hm').2
  rw [hinv'.left id m' hm'] at hleft
  omega

theorem invState_init : InvState (machine md5 retries secretKey clientAddr).init := by
  intro s hs
  obtain rfl := Option.some.inj hs
  refine ⟨⟨fun k hk => absurd hk (Nat.not_lt_zero k), fun k => List.Pairwise.nil⟩, fun t ht => ?_,
    fun id m h => ?_, fun id id' m m' h => ?_, fun id m h => ?_, fun id m h => ?_⟩
  · cases ht
  · cases h
  · cases h
  · cases h
  · cases h

/-- In every run in which no due message is sent again successfully, each message is within its budget at all
times, and is gone when its retries are used up. -/
theorem withinBudget_of_fails (md5 : List UInt8 → Vector UInt8 ACCT_VECTOR_LEN) (retries : Int)
    (secretKey clientAddr : List UInt8) (ops : List Op)
    (h : (machine md5 retries secretKey clientAddr).Along Fails
      (machine md5 retries secretKey clientAddr).init ops) :
    (machine md5 retries secretKey clientAddr).Throughout (fun o => ∀ s, o = some s → s.WithinBudget)
        (machine md5 retries secretKey clientAddr).init ops ∧
      (machine md5 retries secretKey clientAddr).Along (Freed md5 retries secretKey clientAddr)
        (machine md5 retries secretKey clientAddr).init ops :=
  ⟨(Machine.throughout_of_guarded invState_next ops _ invState_init h).mono fun _ ho s hs => (ho s hs).budget,
    Machine.Along.imp invState_next freed_of_inv ops _ invState_init h⟩

/-- A request with two retries that is sent once, and then fails. -/
theorem withinBudget_of_fails_twice :
    let M := machine (fun _ => Vector.replicate ACCT_VECTOR_LEN 0) 2 [115] []
    let ops : List Op := [.create .acctOn 700 0 32, .tick none 400 fun _ => -1, .tick none 900 fun _ => -1]
    M.Along Fails M.init ops ∧ M.Throughout (fun o => ∀ s, o = some s → s.WithinBudget) M.init ops := by
  intro M ops
  have hops : M.Along Fails M.init ops :=
    ⟨⟨by decide, by decide⟩, fun id m _ _ => by dsimp only; omega, fun id m _ _ => by dsimp only; omega, trivial⟩
  exact ⟨hops, (withinBudget_of_fails _ 2 [115] [] ops hops).1⟩

/-- A request with one retry that is sent successfully twice, a second apart. -/
theorem not_withinBudget : ¬ ∀ (md5 : List UInt8 → Vector UInt8 ACCT_VECTOR_LEN) (retries : Int)
    (secretKey clientAddr : List UInt8) (ops : List Op),
    (machine md5 retries secretKey clientAddr).Throughout (fun o => ∀ s, o = some s → s.WithinBudget)
      (machine md5 retries secretKey clientAddr).init ops := by
  intro h
  have hlast := (h (fun _ => Vector.replicate ACCT_VECTOR_LEN 0) 1 [115] []
    [.create .acctOn 0 0 32, .tick none 1000 fun _ => 32]).last
  have hrun : ((machine (fun _ => Vector.replicate ACCT_VECTOR_LEN 0) 1 [115] []).run
      (machine (fun _ => Vector.replicate ACCT_VECTOR_LEN 0) 1 [115] []).init
      [.create .acctOn 0 0 32, .tick none 1000 fun _ => 32]).map
        (fun s => (s.created, (s.transmissions 0).countP (·.successful), s.retries)) = some (1, 2, 1) := by
    decide +kernel
  obtain ⟨s, hs, hcount⟩ := Option.map_eq_some_iff.mp hrun
  obtain ⟨hcreated, hcount, hretries⟩ := Prod.mk.inj hcount |>.imp_right Prod.mk.inj
  have hbudget := (hlast s hs).successes 0 (by omega)
  rw [hcount, hretries] at hbudget
  exact absurd hbudget (by decide)

end Vocal.Cdr.RadiusStack
