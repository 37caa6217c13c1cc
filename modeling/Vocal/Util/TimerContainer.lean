import Vocal.Lib.Machine
import Vocal.Util.TimeVal
import Mathlib.Logic.Function.Basic
import Mathlib.Data.List.Count

/-!
# Timers

`TimerContainer`: entries in the order of their expiry, and a map from the message of an entry to the one that was
added last for it. Each entry carries the number of the call that added it, which nothing reads. There is no result where a
`long` of a time overflows.
-/

namespace Vocal.Util

variable {Id : Type}

/-! ## Entries -/

/-- The time that is given to `add`. -/
inductive When
  | milliseconds (time : Int)
  | timeVal (time : Timeval)
  deriving DecidableEq, Repr

/-- `TimerEntry`, with its message as its identity and the number of the call that added it. -/
structure TimerEntry (Id : Type) where
  absExpires : Timeval
  msg : Id
  serial : Nat
  deriving DecidableEq, Repr

namespace TimerEntry

/-- The expiry that the constructors set. -/
def expiry (w : Nat) (now : Timeval) (relative : Bool) : When → Option Timeval
  | .milliseconds time =>
    let start := if relative then now else ⟨0, 0⟩
    if 0 < time then TimeVal.addMilliseconds w start time else some start
  | .timeVal time => if relative then TimeVal.add w time now else some time

/-- `operator<`. -/
def lt (e f : TimerEntry Id) : Bool := TimeVal.lt e.absExpires f.absExpires

/-- `TimerEntry::hasExpired`. -/
def hasExpired (now : Timeval) (e : TimerEntry Id) : Bool := TimeVal.lt e.absExpires now

/-! ### The order -/

theorem lt_iff {t u : Timeval} :
    TimeVal.lt t u = true ↔ t.tv_sec < u.tv_sec ∨ t.tv_sec = u.tv_sec ∧ t.tv_usec < u.tv_usec := by
  rw [TimeVal.lt]
  split_ifs <;> simp <;> omega

theorem not_lt_iff {t u : Timeval} :
    TimeVal.lt t u = false ↔ ¬(t.tv_sec < u.tv_sec ∨ t.tv_sec = u.tv_sec ∧ t.tv_usec < u.tv_usec) := by
  rw [← lt_iff, Bool.not_eq_true]

variable {e f g : TimerEntry Id}

theorem not_lt_self (e : TimerEntry Id) : e.lt e = false := by
  rw [lt, not_lt_iff]
  omega

theorem not_lt_trans (hef : f.lt e = false) (hfg : g.lt f = false) : g.lt e = false := by
  rw [lt, not_lt_iff] at hef hfg ⊢
  omega

theorem not_lt_of_lt (h : e.lt f = true) : f.lt e = false := by
  rw [lt, lt_iff] at h
  rw [lt, not_lt_iff]
  omega

theorem hasExpired_of_lt {now now' : Timeval} (hlt : f.lt e = true) (he : e.hasExpired now = true)
    (hnow : TimeVal.lt now' now = false) : f.hasExpired now' = true := by
  rw [lt, lt_iff] at hlt
  rw [hasExpired, lt_iff] at he ⊢
  rw [not_lt_iff] at hnow
  omega

end TimerEntry

/-! ## The container -/

/-- `TimerContainer`, with the number of calls of `add`. -/
structure TimerContainer (Id : Type) where
  timerSet : List (TimerEntry Id) := []
  idToTimer : Id → Option (TimerEntry Id) := fun _ => none
  adds : Nat := 0

namespace TimerContainer

/-- The insertion into a multiset: behind the entries that expire at the same time. -/
def insert (e : TimerEntry Id) : List (TimerEntry Id) → List (TimerEntry Id)
  | [] => [e]
  | f :: rest => if e.lt f then e :: f :: rest else f :: insert e rest

/-- What stands before the entries that expire with `e`, these entries, and what stands behind them. -/
def equalRange (timerSet : List (TimerEntry Id)) (e : TimerEntry Id) :
    List (TimerEntry Id) × List (TimerEntry Id) × List (TimerEntry Id) :=
  let rest := timerSet.dropWhile (·.lt e)
  (timerSet.takeWhile (·.lt e), rest.takeWhile (!e.lt ·), rest.dropWhile (!e.lt ·))

variable {e f : TimerEntry Id} {l : List (TimerEntry Id)}

theorem insert_perm (e : TimerEntry Id) (l : List (TimerEntry Id)) : (insert e l).Perm (e :: l) := by
  induction l with
  | nil => exact .refl _
  | cons f l ih =>
    rw [insert]
    split_ifs
    · exact .refl _
    · exact (ih.cons f).trans (.swap e f l)

theorem equalRange_append (l : List (TimerEntry Id)) (e : TimerEntry Id) :
    (equalRange l e).1 ++ (equalRange l e).2.1 ++ (equalRange l e).2.2 = l := by
  rw [equalRange, List.append_assoc, List.takeWhile_append_dropWhile, List.takeWhile_append_dropWhile]

/-- The entries stand in the order of their expiry. -/
def Sorted (l : List (TimerEntry Id)) : Prop := l.Pairwise fun e f => f.lt e = false

theorem Sorted.insert (h : Sorted l) (e : TimerEntry Id) : Sorted (insert e l) := by
  induction l with
  | nil => exact List.pairwise_singleton _ _
  | cons f l ih =>
    obtain ⟨hf, hl⟩ := List.pairwise_cons.mp h
    rw [TimerContainer.insert]
    split_ifs with hlt
    · refine List.pairwise_cons.mpr ⟨fun g hg => ?_, h⟩
      rcases List.mem_cons.mp hg with rfl | hg
      · exact TimerEntry.not_lt_of_lt hlt
      · exact TimerEntry.not_lt_trans (TimerEntry.not_lt_of_lt hlt) (hf g hg)
    · refine List.pairwise_cons.mpr ⟨fun g hg => ?_, ih hl⟩
      rcases List.mem_cons.mp ((insert_perm e l).mem_iff.mp hg) with rfl | hg
      · simpa using hlt
      · exact hf g hg

theorem mem_takeWhile_of_forall {α : Type} {keep : α → Bool} {l l' : List α} {a : α} (h : ∀ b ∈ l, keep b = true)
    (ha : keep a = true) : a ∈ (l ++ a :: l').takeWhile keep := by
  rw [List.takeWhile_append_of_pos h, List.takeWhile_cons_of_pos ha]
  simp

theorem mem_equalRange (h : Sorted l) (he : e ∈ l) : e ∈ (equalRange l e).2.1 := by
  have hrest : e ∈ l.dropWhile (·.lt e) := by
    rw [← List.takeWhile_append_dropWhile (p := (·.lt e)) (l := l)] at he
    refine (List.mem_append.mp he).resolve_left fun hmem => ?_
    have hlt := List.all_eq_true.mp List.all_takeWhile e hmem
    simp [TimerEntry.not_lt_self] at hlt
  have hsorted : Sorted (l.dropWhile (·.lt e)) := h.sublist (List.dropWhile_sublist _)
  obtain ⟨a, b, hab⟩ := List.append_of_mem hrest
  rw [equalRange]
  dsimp only
  rw [hab] at hsorted ⊢
  obtain ⟨-, -, ha⟩ := List.pairwise_append.mp hsorted
  exact mem_takeWhile_of_forall (fun f hf => by simpa using ha f hf e (List.mem_cons_self ..))
    (by simp [TimerEntry.not_lt_self])

section

variable [DecidableEq Id]

/-- The first entry of a message, and the others. -/
def eraseFirst (id : Id) : List (TimerEntry Id) → Option (TimerEntry Id × List (TimerEntry Id))
  | [] => none
  | f :: rest => if f.msg = id then some (f, rest) else (eraseFirst id rest).map fun p => (p.1, f :: p.2)

/-- `TimerContainer::postAdd`. -/
def postAdd (s : TimerContainer Id) (e : TimerEntry Id) : TimerContainer Id :=
  { timerSet := insert e s.timerSet
    idToTimer := Function.update s.idToTimer e.msg (some e)
    adds := s.adds + 1 }

/-- `TimerContainer::add`. -/
def add (w : Nat) (s : TimerContainer Id) (now : Timeval) (msg : Id) (time : When) (relative : Bool) :
    Option (TimerEntry Id × TimerContainer Id) :=
  (TimerEntry.expiry w now relative time).map fun absExpires =>
    (⟨absExpires, msg, s.adds⟩, s.postAdd ⟨absExpires, msg, s.adds⟩)

/-- What a call comes to. -/
inductive Event (Id : Type)
  | added (e : TimerEntry Id)
  | cancelled (e : TimerEntry Id)
  | notFound
  | asserted
  | delivered (e : TimerEntry Id)
  | unavailable
  | stopped
  deriving DecidableEq, Repr

open Event

/-- `TimerContainer::cancel`. It asserts that the entry of the map is among the others. -/
def cancel (s : TimerContainer Id) (id : Id) : Option (TimerContainer Id) × Event Id :=
  match s.idToTimer id with
  | none => (some s, notFound)
  | some j =>
    let range := equalRange s.timerSet j
    match eraseFirst id range.2.1 with
    | none => (none, asserted)
    | some (e, rest) =>
      (some { s with
        timerSet := range.1 ++ rest ++ range.2.2
        idToTimer := Function.update s.idToTimer id none }, cancelled e)

/-- `TimerContainer::getMessage`, which throws where `messageAvailable` does not hold. -/
def getMessage (s : TimerContainer Id) (now : Timeval) : TimerContainer Id × Event Id :=
  match s.timerSet with
  | [] => (s, unavailable)
  | e :: rest =>
    if e.hasExpired now then
      ({ s with timerSet := rest, idToTimer := Function.update s.idToTimer e.msg none }, delivered e)
    else (s, unavailable)

inductive Call (Id : Type)
  | add (msg : Id) (time : When) (relative : Bool)
  | cancel (id : Id)
  | getMessage
  deriving DecidableEq, Repr

/-- A call and the time that the clock shows. -/
structure Op (Id : Type) where
  now : Timeval
  call : Call Id
  deriving DecidableEq, Repr

/-- The container from its start; nothing follows what has no result. -/
def machine (w : Nat) : Machine (Option (TimerContainer Id)) (Op Id) (Event Id) where
  init := some {}
  step
    | none, _ => (none, stopped)
    | some s, ⟨now, .add msg time relative⟩ =>
      match s.add w now msg time relative with
      | none => (none, stopped)
      | some (e, s) => (some s, added e)
    | some s, ⟨_, .cancel id⟩ => s.cancel id
    | some s, ⟨now, .getMessage⟩ => ((s.getMessage now).1, (s.getMessage now).2)

/-! ## What happened -/

/-- The entries that were added, delivered and cancelled by an event. -/
def Event.adds : Event Id → List (TimerEntry Id)
  | .added e => [e]
  | _ => []

def Event.delivers : Event Id → List (TimerEntry Id)
  | .delivered e => [e]
  | _ => []

def Event.cancels : Event Id → List (TimerEntry Id)
  | .cancelled e => [e]
  | _ => []

/-- The entries of a run. -/
def added (outs : List (Op Id × Event Id)) : List (TimerEntry Id) := outs.flatMap (·.2.adds)

def deliveries (outs : List (Op Id × Event Id)) : List (TimerEntry Id) := outs.flatMap (·.2.delivers)

def cancellations (outs : List (Op Id × Event Id)) : List (TimerEntry Id) := outs.flatMap (·.2.cancels)

/-- The call adds the message, of which an entry is pending. -/
def AddsPending (id : Id) (s : Option (TimerContainer Id)) (op : Op Id) : Prop :=
  ∃ time relative, op.call = .add id time relative ∧ ∃ c ∈ s, ∃ e ∈ c.timerSet, e.msg = id

/-- The clock never goes back. -/
def Clocked (ops : List (Op Id)) : Prop := ops.Pairwise fun o o' => TimeVal.lt o'.now o.now = false

/-- What is right of the calls of a container: the assertion of `cancel` holds, each entry that is added is delivered, cancelled or
pending, once, and what is pending can be delivered; no entry is delivered before it expires; one that is delivered behind one that
expires later was added in between, expired; and of a message that is never added while it is pending no entry is delivered behind its
cancellation, but one that was added since. -/
structure Consistent (w : Nat) (ops : List (Op Id)) : Prop where
  not_asserted : ∀ x ∈ (machine w).outs (machine w).init ops, x.2 ≠ .asserted
  once : ∀ s, (machine w).run (machine w).init ops = some s →
    (added ((machine w).outs (machine w).init ops)).Nodup ∧
      (added ((machine w).outs (machine w).init ops)).Perm
        (deliveries ((machine w).outs (machine w).init ops) ++ cancellations ((machine w).outs (machine w).init ops) ++
          s.timerSet)
  drained : ∀ s, (machine w).run (machine w).init ops = some s → ∀ now, (∀ e ∈ s.timerSet, e.hasExpired now = true) →
    deliveries ((machine w).outs (some s) (List.replicate s.timerSet.length ⟨now, .getMessage⟩)) = s.timerSet
  expired : ∀ op e, (op, .delivered e) ∈ (machine w).outs (machine w).init ops → e.hasExpired op.now = true
  ordered : ∀ before o d mid o' d' behind,
    (machine w).outs (machine w).init ops = before ++ (o, .delivered d) :: mid ++ (o', .delivered d') :: behind →
    d'.lt d = true → ∃ op, (op, .added d') ∈ mid ∧ d'.hasExpired op.now = true
  cancelled : ∀ id, (machine w).Along (fun s op => ¬AddsPending id s op) (machine w).init ops →
    ∀ before o e mid o' d behind,
      (machine w).outs (machine w).init ops = before ++ (o, .cancelled e) :: mid ++ (o', .delivered d) :: behind →
      o.call = .cancel id → d.msg = id → ∃ op, (op, .added d) ∈ mid

/-! ## One call -/

variable {c c' : TimerContainer Id} {w : Nat} {op : Op Id} {id : Id}

theorem eraseFirst_eq_some {l' : List (TimerEntry Id)} (h : eraseFirst id l = some (e, l')) :
    e.msg = id ∧ ∃ a b, l = a ++ e :: b ∧ l' = a ++ b := by
  induction l generalizing l' with
  | nil => cases h
  | cons f l ih =>
    rw [eraseFirst] at h
    split_ifs at h with hf
    · obtain ⟨rfl, rfl⟩ := Prod.mk.inj (Option.some.inj h)
      exact ⟨hf, [], l, rfl, rfl⟩
    · obtain ⟨⟨e', l''⟩, hrest, heq⟩ := Option.map_eq_some_iff.mp h
      obtain ⟨rfl, rfl⟩ := Prod.mk.inj heq
      obtain ⟨hid, a, b, rfl, rfl⟩ := ih hrest
      exact ⟨hid, f :: a, b, rfl, rfl⟩

theorem exists_eraseFirst (he : e ∈ l) : ∃ p, eraseFirst e.msg l = some p := by
  induction l with
  | nil => cases he
  | cons f l ih =>
    rw [eraseFirst]
    split_ifs with hf
    · exact ⟨_, rfl⟩
    · rcases List.mem_cons.mp he with rfl | he
      · exact absurd rfl hf
      · obtain ⟨p, hp⟩ := ih he
        exact ⟨_, congrArg (Option.map _) hp⟩

/-- The entries are in order, and the map holds for a message one of its entries. -/
structure Inv (c : TimerContainer Id) : Prop where
  sorted : Sorted c.timerSet
  mapped : ∀ id e, c.idToTimer id = some e → e.msg = id ∧ e ∈ c.timerSet

/-- What a call can come to, and what it leaves. -/
inductive Outcome (c : TimerContainer Id) (op : Op Id) : Option (TimerContainer Id) → Event Id → Prop
  | stopped : Outcome c op none .stopped
  | added (e : TimerEntry Id) (hserial : e.serial = c.adds) (hcall : ∃ time relative, op.call = .add e.msg time relative) :
      Outcome c op (some (c.postAdd e)) (.added e)
  | notFound : Outcome c op (some c) .notFound
  | cancelled (e : TimerEntry Id) (a b : List (TimerEntry Id)) (hset : c.timerSet = a ++ e :: b)
      (hcall : op.call = .cancel e.msg) :
      Outcome c op (some { c with timerSet := a ++ b, idToTimer := Function.update c.idToTimer e.msg none }) (.cancelled e)
  | delivered (e : TimerEntry Id) (rest : List (TimerEntry Id)) (hset : c.timerSet = e :: rest)
      (hexpired : e.hasExpired op.now = true) (hcall : op.call = .getMessage) :
      Outcome c op (some { c with timerSet := rest, idToTimer := Function.update c.idToTimer e.msg none }) (.delivered e)
  | unavailable : Outcome c op (some c) .unavailable

theorem outcome_cancel (h : Inv c) (hcall : op.call = .cancel id) : Outcome c op (c.cancel id).1 (c.cancel id).2 := by
  rw [cancel]
  split
  · exact .notFound
  · rename_i j hj
    obtain ⟨rfl, hmem⟩ := h.mapped id j hj
    obtain ⟨⟨e, rest⟩, herase⟩ := exists_eraseFirst (mem_equalRange h.sorted hmem)
    obtain ⟨hid, a, b, hrange, rfl⟩ := eraseFirst_eq_some herase
    simp only [herase]
    have hset := equalRange_append c.timerSet j
    rw [hrange] at hset
    have houtcome : Outcome c op _ _ := .cancelled e ((equalRange c.timerSet j).1 ++ a)
      (b ++ (equalRange c.timerSet j).2.2) (by simpa using hset.symm) (by rw [hid, hcall])
    simpa [hid] using houtcome

theorem outcome_getMessage (hcall : op.call = .getMessage) :
    Outcome c op (some (c.getMessage op.now).1) (c.getMessage op.now).2 := by
  rw [getMessage]
  split
  · exact .unavailable
  · rename_i e rest hset
    split_ifs with hexpired
    · exact .delivered e rest hset hexpired hcall
    · exact .unavailable

/-- One call of a container. -/
theorem outcome (h : Inv c) (op : Op Id) : Outcome c op ((machine w).next (some c) op) ((machine w).out (some c) op) := by
  obtain ⟨now, call⟩ := op
  cases call with
  | add msg time relative =>
    rw [Machine.next, Machine.out]
    simp only [machine]
    rw [add]
    cases hexpiry : TimerEntry.expiry w now relative time with
    | none => exact .stopped
    | some absExpires => exact .added ⟨absExpires, msg, c.adds⟩ rfl ⟨time, relative, rfl⟩
  | cancel id => exact outcome_cancel h rfl
  | getMessage => exact @outcome_getMessage _ _ _ ⟨now, .getMessage⟩ rfl

theorem Inv.mapped_of_erase (h : Inv c) {a b : List (TimerEntry Id)} (hset : c.timerSet = a ++ e :: b) (id : Id)
    (f : TimerEntry Id) (hf : Function.update c.idToTimer e.msg none id = some f) : f.msg = id ∧ f ∈ a ++ b := by
  rw [Function.update_apply] at hf
  split_ifs at hf with hid
  obtain ⟨hmsg, hmem⟩ := h.mapped id f hf
  have hne : f ≠ e := fun heq => hid (by rw [← hmsg, heq])
  rw [hset] at hmem
  refine ⟨hmsg, ?_⟩
  simpa [hne] using hmem

theorem Inv.of_outcome {ev : Event Id} (h : Inv c) (houtcome : Outcome c op (some c') ev) : Inv c' := by
  cases houtcome with
  | added e hserial hcall =>
    refine ⟨h.sorted.insert e, fun id f hf => ?_⟩
    rw [postAdd] at hf
    dsimp only at hf
    rw [Function.update_apply] at hf
    split_ifs at hf with hid
    · obtain rfl := Option.some.inj hf
      exact ⟨hid.symm, (insert_perm _ _).mem_iff.mpr (List.mem_cons_self ..)⟩
    · obtain ⟨hmsg, hmem⟩ := h.mapped id f hf
      exact ⟨hmsg, (insert_perm _ _).mem_iff.mpr (List.mem_cons_of_mem e hmem)⟩
  | notFound => exact h
  | unavailable => exact h
  | cancelled e a b hset hcall =>
    have hsorted := h.sorted
    rw [hset] at hsorted
    exact ⟨hsorted.sublist ((List.sublist_cons_self e b).append_left a), h.mapped_of_erase hset⟩
  | delivered e rest hset hexpired hcall =>
    have hsorted := h.sorted
    rw [hset] at hsorted
    exact ⟨(List.pairwise_cons.mp hsorted).2, h.mapped_of_erase (a := []) hset⟩

/-! ## Runs -/

theorem next_none (op : Op Id) : (machine w).next none op = none := rfl

theorem run_none (ops : List (Op Id)) : (machine w).run none ops = none := by
  induction ops with
  | nil => rfl
  | cons op ops ih => rwa [Machine.run_cons, next_none]

theorem inv_next (s : Option (TimerContainer Id)) (op : Op Id) (h : ∀ c ∈ s, Inv c) :
    ∀ c ∈ (machine w).next s op, Inv c := by
  intro c' hc'
  cases s with
  | none => cases hc'
  | some c =>
    have houtcome := outcome (w := w) (h c rfl) op
    rw [Option.mem_def.mp hc'] at houtcome
    exact (h c rfl).of_outcome houtcome

theorem inv_run (s : Option (TimerContainer Id)) (h : ∀ c ∈ s, Inv c) (ops : List (Op Id)) :
    ∀ c ∈ (machine w).run s ops, Inv c :=
  Machine.run_of_step (fun s op hs => inv_next s op hs) ops s h

theorem inv_init : ∀ c ∈ (@machine Id _ w).init, Inv c := by
  rintro c ⟨⟩
  exact ⟨List.Pairwise.nil, fun id e he => by cases he⟩

theorem exists_outcome {s : Option (TimerContainer Id)} (h : ∀ c ∈ s, Inv c) {ev : Event Id} (hev : (machine w).out s op = ev)
    (hne : ev ≠ .stopped) : ∃ c, s = some c ∧ Inv c ∧ Outcome c op ((machine w).next s op) ev := by
  cases s with
  | none => exact absurd hev.symm hne
  | some c => exact ⟨c, rfl, h c rfl, hev ▸ outcome (h c rfl) op⟩

/-- An entry is pending before a call or added by it, as often as it is delivered, cancelled or pending behind it. -/
theorem count_of_outcome {ev : Event Id} (h : Outcome c op (some c') ev) (e : TimerEntry Id) :
    c.timerSet.count e + ev.adds.count e = ev.delivers.count e + ev.cancels.count e + c'.timerSet.count e := by
  cases h with
  | added f hserial hcall =>
    have hperm := (insert_perm f c.timerSet).count_eq e
    rw [List.count_cons] at hperm
    simp only [Event.adds, Event.delivers, Event.cancels, postAdd, List.count_nil, List.count_cons]
    omega
  | notFound => simp [Event.adds, Event.delivers, Event.cancels]
  | unavailable => simp [Event.adds, Event.delivers, Event.cancels]
  | cancelled f a b hset hcall =>
    rw [hset]
    simp only [Event.adds, Event.delivers, Event.cancels, List.count_nil, List.count_cons, List.count_append]
    omega
  | delivered f rest hset hexpired hcall =>
    rw [hset]
    simp only [Event.adds, Event.delivers, Event.cancels, List.count_nil, List.count_cons]
    omega

theorem count_run (ops : List (Op Id)) {c : TimerContainer Id} (h : Inv c) (hrun : (machine w).run (some c) ops = some c')
    (e : TimerEntry Id) :
    c.timerSet.count e + (added ((machine w).outs (some c) ops)).count e =
      (deliveries ((machine w).outs (some c) ops)).count e + (cancellations ((machine w).outs (some c) ops)).count e +
        c'.timerSet.count e := by
  induction ops generalizing c with
  | nil =>
    obtain rfl := Option.some.inj hrun
    simp [Machine.outs, added, deliveries, cancellations]
  | cons op ops ih =>
    rw [Machine.run_cons] at hrun
    cases hnext : (machine w).next (some c) op with
    | none =>
      rw [hnext, run_none] at hrun
      cases hrun
    | some c₁ =>
      have houtcome := outcome (w := w) h op
      rw [hnext] at houtcome hrun
      have hstep := count_of_outcome houtcome e
      have hrest := ih (h.of_outcome houtcome) hrun
      simp only [added, deliveries, cancellations, Machine.outs, List.flatMap_cons, List.count_append, hnext] at hrest ⊢
      omega

theorem mem_or_added_of_run {ops : List (Op Id)} (h : Inv c) (hrun : (machine w).run (some c) ops = some c')
    (he : e ∈ c'.timerSet) : e ∈ c.timerSet ∨ ∃ op, (op, .added e) ∈ (machine w).outs (some c) ops := by
  have hcount := count_run ops h hrun e
  have hpos : 0 < c'.timerSet.count e := List.count_pos_iff.mpr he
  rcases Nat.eq_zero_or_pos ((added ((machine w).outs (some c) ops)).count e) with hzero | hadded
  · exact Or.inl (List.count_pos_iff.mp (by omega))
  · obtain ⟨⟨op, ev⟩, hmem, hev⟩ := List.mem_flatMap.mp (List.count_pos_iff.mp hadded)
    refine Or.inr ⟨op, ?_⟩
    cases ev with
    | added f =>
      obtain rfl := List.mem_singleton.mp hev
      exact hmem
    | _ => cases hev

theorem added_outs_none (ops : List (Op Id)) : added ((machine w).outs none ops) = [] := by
  induction ops with
  | nil => rfl
  | cons op ops ih => exact ih

theorem added_rising (ops : List (Op Id)) {c : TimerContainer Id} (h : Inv c) :
    (added ((machine w).outs (some c) ops)).Pairwise (·.serial < ·.serial) ∧
      ∀ e ∈ added ((machine w).outs (some c) ops), c.adds ≤ e.serial := by
  induction ops generalizing c with
  | nil => exact ⟨List.Pairwise.nil, fun e he => by cases he⟩
  | cons op ops ih =>
    have houtcome := outcome (w := w) h op
    simp only [added, Machine.outs, List.flatMap_cons]
    generalize (machine w).out (some c) op = ev at houtcome ⊢
    cases hnext : (machine w).next (some c) op with
    | none =>
      have hnil := added_outs_none (w := w) ops
      rw [added] at hnil
      rw [hnext] at houtcome
      rw [hnil]
      cases houtcome with
      | stopped => exact ⟨List.Pairwise.nil, fun e he => by cases he⟩
    | some c₁ =>
      rw [hnext] at houtcome
      obtain ⟨hpairwise, hle⟩ := ih (h.of_outcome houtcome)
      rw [added] at hpairwise hle
      cases houtcome with
      | added f hserial hcall =>
        refine ⟨List.pairwise_cons.mpr ⟨fun g hg => ?_, hpairwise⟩, fun g hg => ?_⟩
        · have hg' := hle g hg
          rw [postAdd] at hg'
          dsimp only at hg'
          omega
        · rcases List.mem_cons.mp hg with rfl | hg
          · exact hserial.ge
          · exact (Nat.le_succ _).trans (hle g hg)
      | _ => exact ⟨hpairwise, hle⟩

/-! ### Delivery -/

theorem deliveries_of_expired {now : Timeval} (hexpired : ∀ e ∈ c.timerSet, e.hasExpired now = true) :
    deliveries ((machine w).outs (some c) (List.replicate c.timerSet.length ⟨now, .getMessage⟩)) = c.timerSet := by
  induction hset : c.timerSet generalizing c with
  | nil => rfl
  | cons e rest ih =>
    have hstep : c.getMessage now =
        ({ c with timerSet := rest, idToTimer := Function.update c.idToTimer e.msg none }, .delivered e) := by
      rw [getMessage]
      simp only [hset]
      rw [if_pos (hexpired e (by rw [hset]; exact List.mem_cons_self ..))]
    have hnext : (machine w).next (some c) ⟨now, .getMessage⟩ =
        some { c with timerSet := rest, idToTimer := Function.update c.idToTimer e.msg none } :=
      congrArg (fun p : TimerContainer Id × Event Id => some p.1) hstep
    have hout : (machine w).out (some c) ⟨now, .getMessage⟩ = .delivered e := congrArg Prod.snd hstep
    have hrest := ih (c := { c with timerSet := rest, idToTimer := Function.update c.idToTimer e.msg none })
      (fun f hf => hexpired f (by rw [hset]; exact List.mem_cons_of_mem e hf)) rfl
    rw [List.length_cons, List.replicate_succ, Machine.outs, hnext, hout, deliveries, List.flatMap_cons]
    rw [deliveries] at hrest
    rw [hrest]
    rfl

theorem delivered_cases {s : Option (TimerContainer Id)} (h : ∀ c ∈ s, Inv c) (hev : (machine w).out s op = .delivered e) :
    e.hasExpired op.now = true ∧ ∃ c c', s = some c ∧ (machine w).next s op = some c' ∧ e ∈ c.timerSet ∧
      ∀ f ∈ c'.timerSet, f.lt e = false := by
  obtain ⟨c, rfl, hinv, houtcome⟩ := exists_outcome h hev (by simp)
  have hsorted := hinv.sorted
  generalize (machine w).next (some c) op = s' at houtcome
  cases houtcome with
  | delivered _ rest hset hexpired hcall =>
    rw [hset] at hsorted
    exact ⟨hexpired, c, _, rfl, rfl, by rw [hset]; exact List.mem_cons_self .., (List.pairwise_cons.mp hsorted).1⟩

theorem exists_of_mem_outs {ops : List (Op Id)} {s : Option (TimerContainer Id)} (h : ∀ c ∈ s, Inv c) {ev : Event Id}
    (hmem : (op, ev) ∈ (machine w).outs s ops) :
    ∃ s' : Option (TimerContainer Id), (∀ c ∈ s', Inv c) ∧ (machine w).out s' op = ev := by
  obtain ⟨before, behind, hsplit⟩ := List.append_of_mem hmem
  obtain ⟨ops₁, ops₂, rfl, -, hrest⟩ := (machine w).exists_of_outs_eq_append hsplit
  obtain ⟨ops', rfl, hout, -⟩ := (machine w).exists_of_outs_eq_cons hrest
  exact ⟨_, inv_run s h ops₁, hout⟩

theorem exists_of_outs {ops : List (Op Id)} {before mid behind : List (Op Id × Event Id)} {o o' : Op Id} {ev ev' : Event Id}
    (h : (machine w).outs (machine w).init ops = before ++ (o, ev) :: mid ++ (o', ev') :: behind) :
    ∃ ops₁ ops₂ ops₃, ops = ops₁ ++ o :: ops₂ ++ o' :: ops₃ ∧
      (machine w).out ((machine w).run (machine w).init ops₁) o = ev ∧
      (machine w).outs ((machine w).run (machine w).init (ops₁ ++ [o])) ops₂ = mid ∧
      (machine w).out ((machine w).run (machine w).init (ops₁ ++ o :: ops₂)) o' = ev' := by
  obtain ⟨first, last, rfl, hfirst, hlast⟩ := (machine w).exists_of_outs_eq_append h
  obtain ⟨ops₁, rest, rfl, -, hrest⟩ := (machine w).exists_of_outs_eq_append hfirst
  obtain ⟨ops₂, rfl, hout, hmid⟩ := (machine w).exists_of_outs_eq_cons hrest
  obtain ⟨ops₃, rfl, hout', -⟩ := (machine w).exists_of_outs_eq_cons hlast
  refine ⟨ops₁, ops₂, ops₃, rfl, hout, ?_, hout'⟩
  rw [Machine.run_concat]
  exact hmid

/-- An entry that is delivered was pending behind an earlier call, or was added since. -/
theorem added_of_delivered {ops₁ ops₂ : List (Op Id)} {o' : Op Id} {d : TimerEntry Id}
    (hout' : (machine w).out ((machine w).run (machine w).init (ops₁ ++ ops₂)) o' = .delivered d)
    (hrun : (machine w).run (machine w).init ops₁ = some c) (hnot : d ∉ c.timerSet) :
    ∃ op, (op, .added d) ∈ (machine w).outs (some c) ops₂ := by
  obtain ⟨-, c₂, -, hrun₂, -, hd, -⟩ := delivered_cases (inv_run _ inv_init _) hout'
  rw [Machine.run_append, hrun] at hrun₂
  exact (mem_or_added_of_run (inv_run _ inv_init ops₁ c hrun) hrun₂ hd).resolve_left hnot

/-! ### Messages that are not added while they are pending -/

/-- The number of entries of a message that are pending. -/
def pending (id : Id) (c : TimerContainer Id) : Nat := c.timerSet.countP fun e => e.msg = id

theorem pending_le_of_outcome {ev : Event Id} (h : Outcome c op (some c') ev) (hone : pending id c ≤ 1)
    (hnot : ¬AddsPending id (some c) op) : pending id c' ≤ 1 := by
  cases h with
  | added e hserial hcall =>
    rw [pending, postAdd]
    dsimp only
    rw [(insert_perm e c.timerSet).countP_eq, List.countP_cons]
    by_cases hid : e.msg = id
    · obtain ⟨time, relative, hcall⟩ := hcall
      have hzero : pending id c = 0 := by
        rw [pending, List.countP_eq_zero]
        intro f hf hmsg
        exact hnot ⟨time, relative, by rw [← hid, hcall], c, rfl, f, hf, by simpa using hmsg⟩
      rw [pending] at hzero
      simp [hzero, hid]
    · rw [pending] at hone
      simpa [hid] using hone
  | notFound => exact hone
  | unavailable => exact hone
  | cancelled e a b hset hcall =>
    rw [pending, hset, List.countP_append, List.countP_cons] at hone
    rw [pending, List.countP_append]
    omega
  | delivered e rest hset hexpired hcall =>
    rw [pending, hset, List.countP_cons] at hone
    exact (Nat.le_add_right _ _).trans hone

theorem pending_run {ops : List (Op Id)} (h : (machine w).Along (fun s op => ¬AddsPending id s op) (machine w).init ops) :
    ∀ c ∈ (machine w).run (machine w).init ops, pending id c ≤ 1 := by
  have hstep : ∀ (s : Option (TimerContainer Id)) op, ((∀ c ∈ s, Inv c) ∧ ∀ c ∈ s, pending id c ≤ 1) →
      ¬AddsPending id s op → (∀ c ∈ (machine w).next s op, Inv c) ∧ ∀ c ∈ (machine w).next s op, pending id c ≤ 1 := by
    rintro s op ⟨hinv, hone⟩ hnot
    refine ⟨inv_next s op hinv, fun c' hc' => ?_⟩
    cases s with
    | none => cases hc'
    | some c =>
      have houtcome := outcome (w := w) (hinv c rfl) op
      rw [Option.mem_def.mp hc'] at houtcome
      exact pending_le_of_outcome houtcome (hone c rfl) hnot
  refine (Machine.run_of_guarded hstep ops _ ⟨inv_init, ?_⟩ h).2
  rintro c ⟨⟩
  exact Nat.zero_le 1

theorem not_pending_of_cancelled {s : Option (TimerContainer Id)} (h : ∀ c ∈ s, Inv c) (hone : ∀ c ∈ s, pending id c ≤ 1)
    (hev : (machine w).out s op = .cancelled e) (hcall : op.call = .cancel id) :
    ∃ c', (machine w).next s op = some c' ∧ ∀ f ∈ c'.timerSet, f.msg ≠ id := by
  obtain ⟨c, rfl, -, houtcome⟩ := exists_outcome h hev (by simp)
  generalize (machine w).next (some c) op = s' at houtcome
  cases houtcome with
  | cancelled _ a b hset hcall' =>
    have hid : e.msg = id := by
      rw [hcall] at hcall'
      cases hcall'
      rfl
    have hle := hone c rfl
    rw [pending, hset, List.countP_append, List.countP_cons, if_pos (by simpa using hid)] at hle
    have hzero : (a ++ b).countP (fun f => f.msg = id) = 0 := by
      rw [List.countP_append]
      omega
    exact ⟨_, rfl, fun f hf hmsg => List.countP_eq_zero.mp hzero f hf (by simpa using hmsg)⟩

/-! ## The container over its runs -/

/-- All calls of a container are right. -/
theorem entries_consistent (w : Nat) {ops : List (Op Id)} (hclock : Clocked ops) : Consistent w ops := by
  constructor
  · rintro ⟨op, ev⟩ hmem rfl
    obtain ⟨s, hs, hev⟩ := exists_of_mem_outs inv_init hmem
    obtain ⟨c, rfl, -, houtcome⟩ := exists_outcome hs hev (by simp)
    generalize (machine w).next (some c) op = s' at houtcome
    cases houtcome
  · intro c hrun
    refine ⟨?_, List.perm_iff_count.mpr fun e => ?_⟩
    · exact (added_rising ops (inv_init (w := w) _ rfl)).1.imp fun hlt heq => by simp [heq] at hlt
    · have hcount := count_run ops (inv_init (w := w) _ rfl) hrun e
      rw [List.count_nil, Nat.zero_add] at hcount
      rw [List.count_append, List.count_append]
      exact hcount
  · exact fun c _ now hexpired => deliveries_of_expired hexpired
  · intro op e hmem
    obtain ⟨s, hs, hev⟩ := exists_of_mem_outs inv_init hmem
    exact (delivered_cases hs hev).1
  · intro before o d mid o' d' behind hsplit hlt
    obtain ⟨ops₁, ops₂, ops₃, rfl, hout, hmid, hout'⟩ := exists_of_outs hsplit
    obtain ⟨hexpired, c, c', hrun, hnext, -, hfirst⟩ := delivered_cases (inv_run _ inv_init ops₁) hout
    have hrun' : (machine w).run (machine w).init (ops₁ ++ [o]) = some c' := by
      rw [Machine.run_concat, hnext]
    have hnot : d' ∉ c'.timerSet := fun hmem => by simp [hfirst d' hmem] at hlt
    rw [show ops₁ ++ o :: ops₂ = ops₁ ++ [o] ++ ops₂ by simp] at hout'
    obtain ⟨op, hadded⟩ := added_of_delivered hout' hrun' hnot
    have hlater : TimeVal.lt op.now o.now = false := by
      rw [Clocked, List.append_assoc, List.pairwise_append] at hclock
      exact (List.pairwise_cons.mp hclock.2.1).1 op (List.mem_append_left _ ((machine w).mem_of_mem_outs hadded))
    rw [hrun'] at hmid
    rw [hmid] at hadded
    exact ⟨op, hadded, TimerEntry.hasExpired_of_lt hlt hexpired hlater⟩
  · intro id honce before o e mid o' d behind hsplit hcall hid
    obtain ⟨ops₁, ops₂, ops₃, rfl, hout, hmid, hout'⟩ := exists_of_outs hsplit
    rw [List.append_assoc, Machine.along_append] at honce
    obtain ⟨c', hnext, hnone⟩ := not_pending_of_cancelled (inv_run _ inv_init ops₁) (pending_run honce.1) hout hcall
    have hrun' : (machine w).run (machine w).init (ops₁ ++ [o]) = some c' := by
      rw [Machine.run_concat, hnext]
    rw [show ops₁ ++ o :: ops₂ = ops₁ ++ [o] ++ ops₂ by simp] at hout'
    obtain ⟨op, hadded⟩ := added_of_delivered hout' hrun' fun hmem => hnone d hmem hid
    rw [hrun'] at hmid
    rw [hmid] at hadded
    exact ⟨op, hadded⟩

/-- Two timers, of which one is cancelled. -/
theorem consistent_two : Consistent 64
    [⟨⟨10, 0⟩, .add 'a' (.milliseconds 500) true⟩, ⟨⟨10, 0⟩, .add 'b' (.milliseconds 200) true⟩, ⟨⟨11, 0⟩, .cancel 'a'⟩,
      ⟨⟨11, 0⟩, .getMessage⟩] :=
  entries_consistent 64 (by simp [Clocked]; decide)

/-- An entry for 3 s, which is past, is added when the one for 5 s has been delivered. -/
theorem not_deliveries_ordered :
    ¬(deliveries ((machine 64).outs (machine 64).init
      [⟨⟨10, 0⟩, .add 'a' (.timeVal ⟨5, 0⟩) false⟩, ⟨⟨10, 0⟩, .getMessage⟩, ⟨⟨10, 0⟩, .add 'b' (.timeVal ⟨3, 0⟩) false⟩,
        ⟨⟨10, 0⟩, .getMessage⟩])).Pairwise fun e f => f.lt e = false := by
  have hdeliveries : deliveries ((machine 64).outs (machine 64).init
      [⟨⟨10, 0⟩, .add 'a' (.timeVal ⟨5, 0⟩) false⟩, ⟨⟨10, 0⟩, .getMessage⟩, ⟨⟨10, 0⟩, .add 'b' (.timeVal ⟨3, 0⟩) false⟩,
        ⟨⟨10, 0⟩, .getMessage⟩]) = [⟨⟨5, 0⟩, 'a', 0⟩, ⟨⟨3, 0⟩, 'b', 1⟩] := by decide
  rw [hdeliveries]
  intro h
  exact absurd ((List.pairwise_cons.mp h).1 ⟨⟨3, 0⟩, 'b', 1⟩ (List.mem_singleton_self _)) (by decide)

end

end TimerContainer

end Vocal.Util
