import Vocal.Util.IOBufferv

/-!
# The buffer as a queue

Runs of the operations of `IOBufferv`. `byteQueue` shows that what comes out is what was put in, in order, and that the
ring keeps its form. `charAt` looks at one byte and has its own arithmetic for the end of the ring, which is one off:
`charAt_eq_iff`.
-/

namespace Vocal.Util.IOBufferv

open Vocal.Ring

/-! ### Operations -/

/-- The operations. Before `fakeAppend`, somebody puts `bytes` into the memory from the head on, around the end. -/
inductive Op
  | append (source : List UInt8)
  | fakeAppend (bytes : List UInt8) (len : Nat)
  | ensureCapacity (max_length : Nat)
  | peekBytes (len_to_get : Nat)
  | dropFromTail (len : Nat)
  | clear
  | read (max_to_read : Int) (desc desc' : Descriptor)
  | recvFrom (max_to_read : Int) (desc : Descriptor)

/-- One operation. -/
def step (u : IOBufferv) : Op → Option IOBufferv
  | .append source => some (u.append source)
  | .fakeAppend bytes len => some (fakeAppend { u with iobuf := copyAround u.iobuf u.head bytes } len)
  | .ensureCapacity max_length => some (u.ensureCapacity max_length)
  | .peekBytes _ => some u
  | .dropFromTail len => u.dropFromTail len
  | .clear => some u.clear
  | .read max_to_read desc desc' => (u.read max_to_read desc desc').map (·.buffer)
  | .recvFrom max_to_read desc => (u.recvFrom max_to_read desc).map (·.buffer)

def run (u : IOBufferv) (ops : List Op) : Option IOBufferv := ops.foldlM step u

/-- The bytes that an operation puts in. -/
def added (u : IOBufferv) : Op → List UInt8
  | .append source => source
  | .fakeAppend bytes _ => bytes
  | .read max_to_read desc desc' => (u.read max_to_read desc desc').elim [] fun out => delivered out.calls
  | .recvFrom max_to_read desc => (u.recvFrom max_to_read desc).elim [] fun out => delivered out.calls
  | _ => []

/-- The bytes at the front that an operation takes out. -/
def taken (u : IOBufferv) : Op → List UInt8
  | .dropFromTail len => (u.peekBytes len).getD []
  | .clear => (u.peekBytes u.cur_len).getD []
  | _ => []

/-- What `f` writes down along a run. -/
def along (f : IOBufferv → Op → List UInt8) (u : IOBufferv) : List Op → List UInt8
  | [] => []
  | op :: ops => f u op ++ ((u.step op).elim [] fun u => along f u ops)

def appended (u : IOBufferv) (ops : List Op) : List UInt8 := u.along added ops

def dropped (u : IOBufferv) (ops : List Op) : List UInt8 := u.along taken ops

/-- The operations whose assertion holds: no more is dropped than there is. -/
def Allowed (u : IOBufferv) : Op → Prop
  | .dropFromTail len => len ≤ u.cur_len
  | _ => True

/-- `fakeAppend` counts the bytes that were put in, and there is room for them, in one piece or in two. -/
def Counted (u : IOBufferv) : Op → Prop
  | .fakeAppend bytes len => len = bytes.length ∧ u.cur_len + len ≤ u.max_len
  | _ => True

/-- In each step of the run. -/
def RunCounted (u : IOBufferv) : List Op → Prop
  | [] => True
  | op :: ops => u.Counted op ∧ ∀ u', u.step op = some u' → RunCounted u' ops

def Reachable (u : IOBufferv) : Prop :=
  ∃ my_len ops, (ofLength my_len).RunCounted ops ∧ (ofLength my_len).run ops = some u

variable {u u' : IOBufferv} {l : List UInt8}

/-! ### Runs -/

theorem run_cons (u : IOBufferv) (op : Op) (ops : List Op) : u.run (op :: ops) = (u.step op).bind (·.run ops) := rfl

theorem Stores.fakeAppend (h : u.Stores l) {bytes : List UInt8} (hfit : u.cur_len + bytes.length ≤ u.max_len) :
    Stores (IOBufferv.fakeAppend { u with iobuf := copyAround u.iobuf u.head bytes } bytes.length) (l ++ bytes) := by
  have hlt := h.head_lt
  have hlen := h.length
  exact h.writes hfit (writes_copyAround (by omega) (by omega)) rfl

/-- What an operation does to the bytes that are stored. -/
theorem Stores.step (h : u.Stores l) {op : Op} (hallowed : u.Allowed op) (hcounted : u.Counted op) :
    ∃ u' l', u.step op = some u' ∧ u'.Stores l' ∧ l ++ u.added op = u.taken op ++ l' := by
  cases op with
  | append source => exact ⟨_, _, rfl, h.append source, rfl⟩
  | fakeAppend bytes len =>
    obtain ⟨rfl, hfit⟩ := hcounted
    exact ⟨_, _, rfl, h.fakeAppend hfit, rfl⟩
  | ensureCapacity max_length => exact ⟨_, _, rfl, h.ensureCapacity max_length, by simp [added, taken]⟩
  | peekBytes len_to_get => exact ⟨_, _, rfl, h, by simp [added, taken]⟩
  | dropFromTail len =>
    have hlen : len ≤ u.cur_len := hallowed
    obtain ⟨u', hdrop, hstores⟩ := h.dropFromTail hlen
    refine ⟨u', l.drop len, hdrop, hstores, ?_⟩
    show l ++ [] = (u.peekBytes len).getD [] ++ l.drop len
    rw [h.peekBytes, if_pos hlen, Option.getD_some, List.take_append_drop, List.append_nil]
  | clear =>
    refine ⟨_, _, rfl, h.clear, ?_⟩
    show l ++ [] = (u.peekBytes u.cur_len).getD [] ++ []
    rw [h.peekBytes_cur_len, Option.getD_some]
  | read max_to_read desc desc' =>
    obtain ⟨out, hread, hstores⟩ := h.read max_to_read desc desc'
    exact ⟨out.buffer, _, by simp [IOBufferv.step, hread], hstores, by simp [added, taken, hread]⟩
  | recvFrom max_to_read desc =>
    obtain ⟨out, hread, hstores⟩ := h.recvFrom max_to_read desc
    exact ⟨out.buffer, _, by simp [IOBufferv.step, hread], hstores, by simp [added, taken, hread]⟩

theorem Stores.step_isSome_iff (h : u.Stores l) (op : Op) : (u.step op).isSome ↔ u.Allowed op := by
  constructor
  · intro hsome
    cases op with
    | dropFromTail len =>
      by_contra hnot
      have hlt : u.cur_len < len := not_le.mp hnot
      have hnone : u.step (.dropFromTail len) = none := dropFromTail_eq_none hlt
      rw [hnone] at hsome
      cases hsome
    | append | fakeAppend | ensureCapacity | peekBytes | clear | read | recvFrom => trivial
  · intro hallowed
    cases op with
    | fakeAppend => rfl
    | append | ensureCapacity | peekBytes | dropFromTail | clear | read | recvFrom =>
      obtain ⟨u', l', hstep, -, -⟩ := h.step hallowed trivial
      rw [hstep]
      rfl

/-- A run takes out what it puts in, up to the bytes that stay. -/
theorem Stores.run (h : u.Stores l) {ops : List Op} (hcounted : u.RunCounted ops) (hrun : u.run ops = some u') :
    ∃ l', u'.Stores l' ∧ l ++ u.appended ops = u.dropped ops ++ l' := by
  induction ops generalizing u l with
  | nil =>
    obtain rfl := Option.some.inj hrun
    exact ⟨l, h, by simp [appended, dropped, along]⟩
  | cons op ops ih =>
    obtain ⟨hop, hops⟩ := hcounted
    rw [run_cons] at hrun
    obtain ⟨v, hstep, hrest⟩ := Option.bind_eq_some_iff.mp hrun
    have hallowed := (h.step_isSome_iff op).mp (Option.isSome_of_eq_some hstep)
    obtain ⟨v', m, hstep', hstores, hmoved⟩ := h.step hallowed hop
    obtain rfl := Option.some.inj (hstep.symm.trans hstep')
    obtain ⟨l', hlast, hall⟩ := ih hstores (hops _ hstep) hrest
    refine ⟨l', hlast, ?_⟩
    have happended : u.appended (op :: ops) = u.added op ++ v.appended ops := by
      rw [appended, along, hstep, Option.elim_some, appended]
    have hdropped : u.dropped (op :: ops) = u.taken op ++ v.dropped ops := by
      rw [dropped, along, hstep, Option.elim_some, dropped]
    rw [happended, hdropped, ← List.append_assoc, hmoved, List.append_assoc, hall, List.append_assoc]

theorem Reachable.stores (h : u.Reachable) : ∃ l, u.Stores l := by
  obtain ⟨my_len, ops, hcounted, hrun⟩ := h
  obtain ⟨l, hstores, -⟩ := (stores_ofLength my_len).run hcounted hrun
  exact ⟨l, hstores⟩

/-- `charAt`; none where its assertion fails and behind the memory. -/
def charAt (u : IOBufferv) (idx : Nat) : Option UInt8 :=
  if idx ≤ u.cur_len then
    if idx ≤ u.max_len - u.tail then u.iobuf[u.tail + idx]?
    else u.iobuf[idx - (u.max_len - u.tail)]?
  else none

theorem Stores.charAt (h : u.Stores l) {i : Nat} (hi : i < u.cur_len) :
    u.charAt i = if i = u.max_len - u.tail then none else l[i]? := by
  have htail := h.tail
  have hle := h.le
  have hlen := h.length
  have hget : l[i]? = u.iobuf[(u.tail + i) % u.max_len]? := by
    rw [← h.cells, Ring.getElem?_cells hi (by omega), hlen]
  unfold IOBufferv.charAt
  rw [if_pos hi.le, hget]
  by_cases hend : i = u.max_len - u.tail
  · -- the comparison lets the position through that is behind the last byte of the ring
    rw [if_pos hend, if_pos hend.le]
    apply List.getElem?_eq_none
    omega
  · rw [if_neg hend]
    by_cases hfront : i ≤ u.max_len - u.tail
    · rw [if_pos hfront, Nat.mod_eq_of_lt (by omega)]
    · rw [if_neg hfront, Nat.mod_eq_sub_mod (by omega), Nat.mod_eq_of_lt (by omega)]
      congr 1
      omega

/-- **Single bytes.** In every state, `charAt` gives the byte that `peekBytes` gives exactly if the byte is not the one
at the beginning of the memory, where the ring goes around. -/
theorem charAt_eq_iff (u : IOBufferv) (hu : u.Reachable) (i : Nat) (hi : i < u.cur_len) :
    u.charAt i = (u.peekBytes u.cur_len).bind (·[i]?) ↔ i ≠ u.max_len - u.tail := by
  obtain ⟨l, h⟩ := hu.stores
  have hlt : i < l.length := h.cur_len ▸ hi
  rw [h.charAt hi, h.peekBytes_cur_len, Option.bind_some]
  by_cases hend : i = u.max_len - u.tail
  · rw [if_pos hend, List.getElem?_eq_getElem hlt]
    simp [hend]
  · rw [if_neg hend]
    exact iff_of_true rfl hend

/-- Operations after which the bytes go around the end. -/
def wrapping : List Op := [.append (List.replicate 150 1), .dropFromTail 100, .append (List.replicate 100 2)]

set_option maxRecDepth 4000 in
theorem charAt_behind_memory :
    ∃ u, (ofLength 0).run wrapping = some u ∧ 100 < u.cur_len ∧ u.charAt 100 = none ∧
      (u.peekBytes u.cur_len).bind (·[100]?) = some 2 := by
  refine ⟨_, rfl, ?_, ?_, ?_⟩
  · decide
  · decide
  · decide

set_option maxRecDepth 4000 in
theorem charAt_eq_iff_wrapped :
    ∃ u, (ofLength 0).run wrapping = some u ∧
      (u.charAt 3 = (u.peekBytes u.cur_len).bind (·[3]?) ↔ 3 ≠ u.max_len - u.tail) := by
  refine ⟨_, rfl, ?_⟩
  have hcounted : (ofLength 0).RunCounted wrapping :=
    ⟨trivial, fun _ _ => ⟨trivial, fun _ _ => ⟨trivial, fun _ _ => trivial⟩⟩⟩
  exact charAt_eq_iff _ ⟨0, wrapping, hcounted, rfl⟩ 3 (by decide)

end Vocal.Util.IOBufferv
