import Vocal.Lib.Ring

/-!
# The queue of samples

`CircularBuffer`: a ring of fixed size. Where its two positions meet it is empty, so that one element fewer than its size
can be stored; `bytesAvailable` counts that element. `fifo_and_storesReported_iff` shows that the
buffer is a queue all the same, and that a put of as many elements as are reported never stores the last.
-/

namespace Vocal.Util

open Vocal.Ring

structure CircularBuffer (T : Type) where
  myBuffer : List T
  myStartUsed : Nat
  myEndUsed : Nat
  mySize : Nat
  deriving DecidableEq, Repr

namespace CircularBuffer

variable {T : Type}

/-! ### The code -/

/-- The constructor, with the array as `new` gives it. -/
def ofMemory (memory : List T) : CircularBuffer T := ⟨memory, 0, 0, memory.length⟩

def used (b : CircularBuffer T) : Int :=
  let used : Int := b.myEndUsed - b.myStartUsed
  if used < 0 then b.mySize + used else used

def available (b : CircularBuffer T) : Int := b.mySize - b.used

def bytesAvailable (b : CircularBuffer T) : Int := b.available

def bytesUsed (b : CircularBuffer T) : Int := b.used

/-- The assertions of `get` and `put` that are always true. -/
def Inside (b : CircularBuffer T) : Prop := b.myStartUsed < b.mySize ∧ b.myEndUsed < b.mySize

instance (b : CircularBuffer T) : Decidable b.Inside := inferInstanceAs (Decidable (_ ∧ _))

/-- The loop of `get`, with fuel: the elements that are copied. -/
def getLoop : Nat → CircularBuffer T → Int → Option (List T × CircularBuffer T)
  | 0, _, _ => none
  | fuel + 1, b, maxSize =>
    if b.myStartUsed ≠ b.myEndUsed ∧ maxSize ≠ 0 then
      b.myBuffer[b.myStartUsed]?.bind fun x =>
        (getLoop fuel { b with myStartUsed := (b.myStartUsed + 1) % b.mySize } (maxSize - 1)).map fun out =>
          (x :: out.1, out.2)
    else some ([], b)

/-- `get`: the elements that are returned; none where an assertion fails. -/
def get (b : CircularBuffer T) (maxSize : Int) : Option (List T × CircularBuffer T) :=
  if maxSize ≤ b.mySize ∧ b.Inside then
    (getLoop b.mySize b maxSize).bind fun out => if out.2.Inside then some out else none
  else none

/-- The loop of `put`: the number of elements that have no room. -/
def putLoop (b : CircularBuffer T) : List T → Nat × CircularBuffer T
  | [] => (0, b)
  | x :: data =>
    let next := (b.myEndUsed + 1) % b.mySize
    if next ≠ b.myStartUsed then
      putLoop { b with myBuffer := b.myBuffer.set b.myEndUsed x, myEndUsed := next } data
    else (data.length + 1, b)

/-- `put`; none where an assertion fails. -/
def put (b : CircularBuffer T) (data : List T) : Option (Nat × CircularBuffer T) :=
  if b.Inside then
    let out := b.putLoop data
    if out.2.Inside then some out else none
  else none

/-! ### Runs -/

inductive Op (T : Type)
  | put (data : List T)
  | get (maxSize : Int)
  | bytesAvailable
  | bytesUsed

/-- What an operation did. A put comes with the free space that is reported just before it, and with what it returns. -/
inductive Did (T : Type)
  | put (data : List T) (available : Int) (left : Nat)
  | got (data : List T)
  | reported (bytes : Int)
  deriving DecidableEq, Repr

def step (b : CircularBuffer T) : Op T → Option (Did T × CircularBuffer T)
  | .put data => (b.put data).map fun out => (.put data b.bytesAvailable out.1, out.2)
  | .get maxSize => (b.get maxSize).map fun out => (.got out.1, out.2)
  | .bytesAvailable => some (.reported b.bytesAvailable, b)
  | .bytesUsed => some (.reported b.bytesUsed, b)

def run (b : CircularBuffer T) : List (Op T) → Option (List (Did T) × CircularBuffer T)
  | [] => some ([], b)
  | op :: ops => (b.step op).bind fun out => (run out.2 ops).map fun rest => (out.1 :: rest.1, rest.2)

/-- The elements that an operation stores. -/
def Did.stored : Did T → List T
  | .put data _ left => data.take (data.length - left)
  | _ => []

/-- The elements that an operation takes out. -/
def Did.taken : Did T → List T
  | .got data => data
  | _ => []

/-! ### What is stored -/

/-- The buffer stores the elements `l`: they lie in the ring from the start on, and the end is behind them. -/
structure Stores (b : CircularBuffer T) (l : List T) : Prop where
  length : b.myBuffer.length = b.mySize
  lt : l.length < b.mySize
  start : b.myStartUsed < b.mySize
  finish : b.myEndUsed = (b.myStartUsed + l.length) % b.mySize
  cells : cells b.myBuffer b.myStartUsed l.length = l

variable {b b' : CircularBuffer T} {l : List T}

theorem stores_ofMemory {memory : List T} (h : 0 < memory.length) : (ofMemory memory).Stores [] :=
  ⟨rfl, h, h, (Nat.zero_mod _).symm, cells_zero ..⟩

theorem Stores.inside (h : b.Stores l) : b.Inside := by
  refine ⟨h.start, ?_⟩
  rw [h.finish]
  exact Nat.mod_lt _ (by have hlt := h.lt; omega)

theorem Stores.finish_cases (h : b.Stores l) :
    b.myEndUsed = b.myStartUsed + l.length ∨ b.myEndUsed + b.mySize = b.myStartUsed + l.length := by
  rw [h.finish]
  exact add_mod_cases h.start h.lt.le

theorem Stores.bytesUsed (h : b.Stores l) : b.bytesUsed = l.length := by
  have hcases := h.finish_cases
  have hstart := h.start
  have hlt := h.lt
  unfold CircularBuffer.bytesUsed used
  dsimp only
  split <;> omega

theorem Stores.bytesAvailable (h : b.Stores l) : b.bytesAvailable = b.mySize - l.length := by
  have hused := h.bytesUsed
  unfold CircularBuffer.bytesUsed at hused
  rw [CircularBuffer.bytesAvailable, available, hused]

/-- The number of elements that are returned: all for a negative number. -/
def count (l : List T) (maxSize : Int) : Nat := if maxSize < 0 then l.length else maxSize.toNat

theorem Stores.tail {x : T} (h : b.Stores (x :: l)) :
    b.myBuffer[b.myStartUsed]? = some x ∧
      Stores { b with myStartUsed := (b.myStartUsed + 1) % b.mySize } l := by
  have hstart := h.start
  have hlt := h.lt
  have hlen := h.length
  have hcells := h.cells
  rw [List.length_cons] at hlt hcells
  have hfirst : (Ring.cells b.myBuffer b.myStartUsed (l.length + 1))[0]? = _ := getElem?_cells (by omega) (by omega)
  have hrest : (Ring.cells b.myBuffer b.myStartUsed (l.length + 1)).drop 1 = _ := drop_cells (by omega) (by omega)
  rw [hcells] at hfirst hrest
  rw [Nat.add_zero, hlen, Nat.mod_eq_of_lt hstart] at hfirst
  refine ⟨hfirst.symm, hlen, by show l.length < b.mySize; omega, Nat.mod_lt _ (by omega), ?_, ?_⟩
  · show b.myEndUsed = ((b.myStartUsed + 1) % b.mySize + l.length) % b.mySize
    rw [h.finish, Nat.mod_add_mod, List.length_cons]
    congr 1
    omega
  · show Ring.cells b.myBuffer ((b.myStartUsed + 1) % b.mySize) l.length = l
    rw [← hlen, cells_mod]
    exact hrest.symm

theorem Stores.getLoop (h : b.Stores l) {fuel : Nat} (hfuel : l.length < fuel) (maxSize : Int) :
    ∃ b', CircularBuffer.getLoop fuel b maxSize = some (l.take (count l maxSize), b') ∧
      b'.Stores (l.drop (count l maxSize)) := by
  induction l generalizing b fuel maxSize with
  | nil =>
    obtain ⟨fuel, rfl⟩ : ∃ n, fuel = n + 1 := ⟨fuel - 1, by omega⟩
    have hcases := h.finish_cases
    have hstart := h.start
    have hmeet : b.myStartUsed = b.myEndUsed := by
      rw [List.length_nil] at hcases
      have hinside := h.inside.2
      omega
    refine ⟨b, ?_, ?_⟩
    · rw [CircularBuffer.getLoop, if_neg (fun hne => hne.1 hmeet), List.take_nil]
    · rw [List.drop_nil]
      exact h
  | cons x l ih =>
    rw [List.length_cons] at hfuel
    obtain ⟨fuel, rfl⟩ : ∃ n, fuel = n + 1 := ⟨fuel - 1, by omega⟩
    rw [CircularBuffer.getLoop]
    by_cases hzero : maxSize = 0
    · have hnone : count (x :: l) maxSize = 0 := by rw [hzero]; rfl
      refine ⟨b, ?_, ?_⟩
      · rw [if_neg (fun hne => hne.2 hzero), hnone, List.take_zero]
      · rw [hnone, List.drop_zero]
        exact h
    · have hne : b.myStartUsed ≠ b.myEndUsed := by
        have hcases := h.finish_cases
        have hlt := h.lt
        rw [List.length_cons] at hcases hlt
        omega
      obtain ⟨hfirst, htail⟩ := h.tail
      obtain ⟨b', hloop, hstores⟩ := ih htail (by omega : l.length < fuel) (maxSize - 1)
      have hcount : count (x :: l) maxSize = count l (maxSize - 1) + 1 := by
        unfold count
        rw [List.length_cons]
        split_ifs <;> omega
      refine ⟨b', ?_, ?_⟩
      · rw [if_pos ⟨hne, hzero⟩, hfirst, Option.bind_some, hloop, Option.map_some, hcount, List.take_succ_cons]
      · rw [hcount, List.drop_succ_cons]
        exact hstores

theorem Stores.get (h : b.Stores l) {maxSize : Int} (hmax : maxSize ≤ b.mySize) :
    ∃ b', b.get maxSize = some (l.take (count l maxSize), b') ∧ b'.Stores (l.drop (count l maxSize)) := by
  obtain ⟨b', hloop, hstores⟩ := h.getLoop h.lt maxSize
  refine ⟨b', ?_, hstores⟩
  unfold CircularBuffer.get
  rw [if_pos ⟨hmax, h.inside⟩, hloop, Option.bind_some, if_pos hstores.inside]

theorem Stores.push (h : b.Stores l) {x : T} (hroom : l.length + 1 < b.mySize) :
    Stores { b with myBuffer := b.myBuffer.set b.myEndUsed x, myEndUsed := (b.myEndUsed + 1) % b.mySize } (l ++ [x]) := by
  have hwrites : Writes b.myBuffer b.myEndUsed [x] _ := writes_set (by rw [h.length]; exact h.inside.2)
  rw [h.finish, ← h.length] at hwrites
  have hcells := hwrites.cells (by rw [h.length, List.length_singleton]; omega)
  rw [h.length, ← h.finish, h.cells, List.length_singleton] at hcells
  refine ⟨by rw [List.length_set]; exact h.length, ?_, h.start, ?_, ?_⟩
  · rw [List.length_append, List.length_singleton]
    exact hroom
  · show (b.myEndUsed + 1) % b.mySize = (b.myStartUsed + (l ++ [x]).length) % b.mySize
    rw [h.finish, Nat.mod_add_mod, List.length_append, List.length_singleton, Nat.add_assoc]
  · rw [List.length_append, List.length_singleton]
    exact hcells

/-- There is room for another element exactly if two cells are free. -/
theorem Stores.next_ne_iff (h : b.Stores l) :
    (b.myEndUsed + 1) % b.mySize ≠ b.myStartUsed ↔ l.length + 1 < b.mySize := by
  have hcases := h.finish_cases
  have hstart := h.start
  have hlt := h.lt
  have hend := h.inside.2
  by_cases hlast : b.myEndUsed + 1 = b.mySize
  · rw [hlast, Nat.mod_self]
    omega
  · rw [Nat.mod_eq_of_lt (by omega)]
    omega

/-- The loop of `put` stores elements behind the others until one cell is free. -/
theorem Stores.putLoop (h : b.Stores l) (data : List T) :
    (b.putLoop data).1 = data.length - (b.mySize - 1 - l.length) ∧
      (b.putLoop data).2.Stores (l ++ data.take (data.length - (b.putLoop data).1)) := by
  induction data generalizing b l with
  | nil =>
    refine ⟨(Nat.zero_sub _).symm, ?_⟩
    rw [List.take_nil, List.append_nil]
    exact h
  | cons x data ih =>
    have hnext := h.next_ne_iff
    have hlt := h.lt
    rw [CircularBuffer.putLoop]
    by_cases hroom : l.length + 1 < b.mySize
    · obtain ⟨hleft, hstores⟩ := ih (h.push (x := x) hroom)
      dsimp only at hleft hstores ⊢
      rw [List.length_append, List.length_singleton] at hleft
      rw [if_pos (hnext.mpr hroom)]
      generalize hout : CircularBuffer.putLoop { b with
        myBuffer := b.myBuffer.set b.myEndUsed x, myEndUsed := (b.myEndUsed + 1) % b.mySize } data = out at *
      refine ⟨?_, ?_⟩
      · rw [hleft, List.length_cons]
        omega
      · have hcount : (x :: data).length - out.1 = data.length - out.1 + 1 := by
          rw [List.length_cons]
          omega
        rw [hcount, List.take_succ_cons, List.append_cons]
        exact hstores
    · rw [if_neg (fun hne => hroom (hnext.mp hne))]
      dsimp only
      refine ⟨?_, ?_⟩
      · rw [List.length_cons]
        omega
      · rw [List.length_cons, Nat.sub_self, List.take_zero, List.append_nil]
        exact h

theorem Stores.put (h : b.Stores l) (data : List T) :
    ∃ left b', b.put data = some (left, b') ∧ left = data.length - (b.mySize - 1 - l.length) ∧
      b'.Stores (l ++ data.take (data.length - left)) := by
  obtain ⟨hleft, hstores⟩ := h.putLoop data
  refine ⟨(b.putLoop data).1, (b.putLoop data).2, ?_, hleft, hstores⟩
  unfold CircularBuffer.put
  dsimp only
  rw [if_pos h.inside, if_pos hstores.inside]

theorem Stores.put_all_iff (h : b.Stores l) {data : List T} {left : Nat} (hput : b.put data = some (left, b')) :
    left = 0 ↔ data.length < b.bytesAvailable := by
  obtain ⟨left', b'', hput', hleft, -⟩ := h.put data
  obtain ⟨rfl, -⟩ := Prod.mk.inj (Option.some.inj (hput.symm.trans hput'))
  have hlt := h.lt
  rw [h.bytesAvailable, hleft]
  omega

theorem Stores.step (h : b.Stores l) {op : Op T} {did : Did T} (hstep : b.step op = some (did, b')) :
    ∃ l', b'.Stores l' ∧ l ++ did.stored = did.taken ++ l' ∧
      ∀ data available left, did = .put data available left → (left = 0 ↔ data.length < available) := by
  cases op with
  | put data =>
    obtain ⟨⟨left, b₁⟩, hput, hout⟩ := Option.map_eq_some_iff.mp hstep
    obtain ⟨rfl, rfl⟩ := Prod.mk.inj hout
    obtain ⟨left', b₂, hput', -, hstores⟩ := h.put data
    obtain ⟨rfl, rfl⟩ := Prod.mk.inj (Option.some.inj (hput.symm.trans hput'))
    refine ⟨_, hstores, rfl, ?_⟩
    rintro data' available left' heq
    obtain ⟨rfl, rfl, rfl⟩ := Did.put.inj heq
    exact h.put_all_iff hput
  | get maxSize =>
    obtain ⟨⟨out, b₁⟩, hget, hout⟩ := Option.map_eq_some_iff.mp hstep
    obtain ⟨rfl, rfl⟩ := Prod.mk.inj hout
    have hmax : maxSize ≤ b.mySize := by
      unfold CircularBuffer.get at hget
      split at hget
      · rename_i hassert
        exact hassert.1
      · cases hget
    obtain ⟨b₂, hget', hstores⟩ := h.get hmax
    obtain ⟨rfl, rfl⟩ := Prod.mk.inj (Option.some.inj (hget.symm.trans hget'))
    refine ⟨_, hstores, ?_, fun _ _ _ heq => by cases heq⟩
    show l ++ [] = l.take _ ++ l.drop _
    rw [List.append_nil, List.take_append_drop]
  | bytesAvailable | bytesUsed =>
    obtain ⟨rfl, rfl⟩ := Prod.mk.inj (Option.some.inj hstep)
    exact ⟨l, h, by simp [Did.stored, Did.taken], fun _ _ _ heq => by cases heq⟩

/-- A run takes out what it stores, up to the elements that stay. -/
theorem Stores.run (h : b.Stores l) {ops : List (Op T)} {did : List (Did T)} (hrun : b.run ops = some (did, b')) :
    ∃ l', b'.Stores l' ∧ l ++ did.flatMap Did.stored = did.flatMap Did.taken ++ l' ∧
      ∀ data available left, .put data available left ∈ did → (left = 0 ↔ data.length < available) := by
  induction ops generalizing b l did with
  | nil =>
    obtain ⟨rfl, rfl⟩ := Prod.mk.inj (Option.some.inj hrun)
    exact ⟨l, h, by simp, by simp⟩
  | cons op ops ih =>
    rw [CircularBuffer.run] at hrun
    obtain ⟨⟨first, b₁⟩, hstep, hrest⟩ := Option.bind_eq_some_iff.mp hrun
    obtain ⟨⟨rest, b₂⟩, htail, hout⟩ := Option.map_eq_some_iff.mp hrest
    obtain ⟨rfl, rfl⟩ := Prod.mk.inj hout
    obtain ⟨l₁, hstores, hmoved, hfirst⟩ := h.step hstep
    obtain ⟨l', hlast, hall, hlater⟩ := ih hstores htail
    refine ⟨l', hlast, ?_, ?_⟩
    · rw [List.flatMap_cons, List.flatMap_cons, ← List.append_assoc, hmoved, List.append_assoc, hall, List.append_assoc]
    · intro data available left hmem
      rcases List.mem_cons.mp hmem with heq | hmem
      · exact hfirst data available left heq.symm
      · exact hlater data available left hmem

/-- Elements come out in the order in which they were stored: those that came out are the first of them, and the next
calls give the others. -/
def Fifo (did : List (Did T)) (b : CircularBuffer T) : Prop :=
  ∃ l, did.flatMap Did.stored = did.flatMap Did.taken ++ l ∧ b.bytesUsed = l.length ∧
    ∀ maxSize ≤ (b.mySize : Int), (b.get maxSize).map (·.1) = some (l.take (count l maxSize))

/-- A put of as many elements as the free space that is reported just before stores all of them. -/
def StoresReported (did : List (Did T)) : Prop :=
  ∀ data available left, .put data available left ∈ did → data.length = available → left = 0

/-- **A queue of fixed size.** In every run on a new buffer elements come out as in a queue; and the puts of as many
elements as the free space that is reported store all of them exactly if the run has no such put. -/
theorem fifo_and_storesReported_iff (memory : List T) (ops : List (Op T)) (did : List (Did T)) (b : CircularBuffer T)
    (hsize : 0 < memory.length) (hrun : (ofMemory memory).run ops = some (did, b)) :
    Fifo did b ∧
    (StoresReported did ↔ ∀ data available left, .put data available left ∈ did → data.length ≠ available) := by
  obtain ⟨l, hstores, hall, hputs⟩ := (stores_ofMemory hsize).run hrun
  rw [List.nil_append] at hall
  refine ⟨⟨l, hall, hstores.bytesUsed, ?_⟩, ?_, ?_⟩
  · intro maxSize hmax
    obtain ⟨b', hget, -⟩ := hstores.get hmax
    rw [hget, Option.map_some]
  · intro hreported data available left hmem hexact
    have hlt := (hputs data available left hmem).mp (hreported data available left hmem hexact)
    omega
  · intro hnone data available left hmem hexact
    exact absurd hexact (hnone data available left hmem)

/-- Two elements where two are reported to be free. -/
theorem put_reported_leaves_one :
    ∃ b, (ofMemory [0, 0]).run [.bytesAvailable, .put [7, 8]] = some ([.reported 2, .put [7, 8] 2 1], b) :=
  ⟨_, rfl⟩

theorem fifo_and_storesReported_iff_put_get :
    ∃ did b, (ofMemory [0, 0, 0]).run [.put [7, 8], .get 1, .put [9], .get 1] = some (did, b) ∧
      did.flatMap Did.taken = [7, 8] ∧ Fifo did b := by
  refine ⟨_, _, rfl, rfl, ?_⟩
  exact (fifo_and_storesReported_iff [0, 0, 0] [.put [7, 8], .get 1, .put [9], .get 1] _ _ (by decide) rfl).1

end CircularBuffer

end Vocal.Util
