import Vocal.Lib.Ring

/-!
# The byte buffer of a connection

`IOBufferv`: a ring of bytes that grows. `head` is where the next byte goes and `tail` where the oldest is; where the
two meet, `cur_len` tells whether the ring is empty or full. `Stores` says which bytes are in it, and the lemmas what each
operation does to them.

Sizes are natural numbers. New memory holds zeros here, which are not looked at.
-/

namespace Vocal.Util

open Vocal.Ring

structure IOBufferv where
  iobuf : List UInt8
  max_len : Nat
  cur_len : Nat := 0
  head : Nat := 0
  tail : Nat := 0
  eof : Bool := false
  deriving DecidableEq, Repr

namespace IOBufferv

/-! ### The code -/

def ofSize (m_len : Nat) : IOBufferv := { iobuf := List.replicate m_len 0, max_len := m_len }

/-- The default constructor. -/
def empty : IOBufferv := ofSize 200

/-- The constructor with a length. -/
def ofLength (my_len : Int) : IOBufferv := ofSize (max 200 (min my_len 100000)).toNat

def isEmpty (u : IOBufferv) : Bool := u.cur_len = 0

/-- `getMaxContigFree`; none where its assertion fails. -/
def getMaxContigFree (u : IOBufferv) : Option Nat :=
  if u.head = u.tail then
    if !u.isEmpty then some 0
    else if u.head = 0 then some u.max_len
    else none
  else if u.tail < u.head then some (u.max_len - u.head)
  else some (u.tail - u.head - 1)

/-- The bytes that `peekBytes` copies; none where it returns -1. -/
def peekBytes (u : IOBufferv) (len_to_get : Nat) : Option (List UInt8) :=
  if u.cur_len < len_to_get then none
  else if len_to_get ≤ u.max_len - u.tail then some ((u.iobuf.drop u.tail).take len_to_get)
  else
    let mlen := u.max_len - u.tail
    some ((u.iobuf.drop u.tail).take mlen ++ u.iobuf.take (len_to_get - mlen))

/-- `ensureCapacity`. The bytes in the buffer are copied to the new memory, which `peekBytes` does not refuse. -/
def ensureCapacity (u : IOBufferv) (max_length : Nat) : IOBufferv :=
  if u.max_len < max_length then
    { u with
      iobuf := copy (List.replicate (max_length + u.max_len) 0) 0 ((u.peekBytes u.cur_len).getD [])
      tail := 0
      head := u.cur_len
      max_len := u.max_len + max_length }
  else u

/-- `dropFromTail`; none where its assertion fails. -/
def dropFromTail (u : IOBufferv) (len : Nat) : Option IOBufferv :=
  if u.cur_len = len then some { u with head := 0, tail := 0, cur_len := u.cur_len - len }
  else if len < u.cur_len then
    some { u with
      tail := if u.tail + len < u.max_len then u.tail + len else len - (u.max_len - u.tail)
      cur_len := u.cur_len - len }
  else none

def clear (u : IOBufferv) : IOBufferv := { u with head := 0, tail := 0, cur_len := 0, eof := false }

def append (u : IOBufferv) (source : List UInt8) : IOBufferv :=
  let u := u.ensureCapacity (u.cur_len + source.length)
  if u.max_len ≤ u.head + source.length then
    let mlen := u.max_len - u.head
    { u with
      iobuf := copy (copy u.iobuf u.head (source.take mlen)) 0 (source.drop mlen)
      head := source.length - mlen
      cur_len := u.cur_len + source.length }
  else
    { u with
      iobuf := copy u.iobuf u.head source
      head := u.head + source.length
      cur_len := u.cur_len + source.length }

/-- `fakeAppend`, which moves the head over bytes that are there already. -/
def fakeAppend (u : IOBufferv) (len : Nat) : IOBufferv :=
  { u with
    head := if u.max_len ≤ u.head + len then len - (u.max_len - u.head) else u.head + len
    cur_len := u.cur_len + len }

/-- Bytes that are read into the memory from the head on, and then counted. -/
def receive (u : IOBufferv) (bytes : List UInt8) : IOBufferv :=
  fakeAppend { u with iobuf := copy u.iobuf u.head bytes } bytes.length

/-! ### Descriptors -/

/-- What a descriptor answers to a request; an error comes with `errno`. -/
inductive Received
  | bytes (bytes : List UInt8)
  | error (errno : Int)
  deriving DecidableEq, Repr

def EAGAIN : Int := 11
def EINTR : Int := 4

/-- A descriptor, which gives no more bytes than it is asked for. -/
structure Descriptor where
  read : Nat → Received
  fits : ∀ n bytes, read n = .bytes bytes → bytes.length ≤ n

/-- What a call to `read` or `recvFrom` returns, the buffer after it, and the requests to the descriptor with their
answers. -/
structure ReadOut where
  ret : Int
  buffer : IOBufferv
  calls : List (Nat × Received)
  deriving DecidableEq, Repr

/-- The rounds of `read`, for each of which there is a descriptor; after a round that gives no more than was asked
for, there is no other. -/
def readRounds (max_to_read : Nat) : List Descriptor → Nat → IOBufferv → Option ReadOut
  | [], sofar, u => some ⟨sofar, u, []⟩
  | desc :: rounds, sofar, u =>
    if max_to_read ≤ sofar then some ⟨sofar, u, []⟩
    else
      u.getMaxContigFree.bind fun ctg =>
        let to_rd := min (max_to_read - sofar) ctg
        let this_round := desc.read to_rd
        match this_round with
        | .bytes bytes =>
          if 0 < bytes.length then
            let sofar := sofar + bytes.length
            if bytes.length ≤ to_rd then some ⟨sofar, u.receive bytes, [(to_rd, this_round)]⟩
            else
              (readRounds max_to_read rounds sofar (u.receive bytes)).map fun out =>
                { out with calls := (to_rd, this_round) :: out.calls }
          else if sofar = 0 then some ⟨-1, { u with eof := true }, [(to_rd, this_round)]⟩
          else some ⟨sofar, u, [(to_rd, this_round)]⟩
        | .error errno =>
          if errno ≠ EAGAIN ∧ errno ≠ EINTR ∧ sofar = 0 then some ⟨-1, u, [(to_rd, this_round)]⟩
          else some ⟨sofar, u, [(to_rd, this_round)]⟩

/-- `IOBufferv::read`, without a stream for debugging. -/
def read (u : IOBufferv) (max_to_read : Int) (desc desc' : Descriptor) : Option ReadOut :=
  if max_to_read ≤ 0 then some ⟨0, u, []⟩
  else readRounds max_to_read.toNat [desc, desc'] 0 (u.ensureCapacity (u.cur_len + max_to_read.toNat))

/-- `IOBufferv::recvFrom`, without the address of the sender. -/
def recvFrom (u : IOBufferv) (max_to_read : Int) (desc : Descriptor) : Option ReadOut :=
  if max_to_read ≤ 0 then some ⟨0, u, []⟩
  else
    let u := u.ensureCapacity max_to_read.toNat
    u.getMaxContigFree.bind fun ctg =>
      let this_round := desc.read max_to_read.toNat
      let calls := [(max_to_read.toNat, this_round)]
      match this_round with
      | .bytes bytes =>
        if 0 < bytes.length then
          some ⟨bytes.length, if ctg < max_to_read.toNat then u.append bytes else u.receive bytes, calls⟩
        else some ⟨-1, u, calls⟩
      | .error errno => some ⟨if errno ≠ EAGAIN ∧ errno ≠ EINTR then -1 else 0, u, calls⟩

/-! ### What is stored -/

/-- The buffer stores the bytes `l`: they lie in the ring from the tail on, the head is behind them, and an empty
buffer starts at 0. -/
structure Stores (u : IOBufferv) (l : List UInt8) : Prop where
  length : u.iobuf.length = u.max_len
  cur_len : l.length = u.cur_len
  le : u.cur_len ≤ u.max_len
  tail : u.tail < u.max_len
  head : u.head = (u.tail + u.cur_len) % u.max_len
  empty : u.cur_len = 0 → u.head = 0 ∧ u.tail = 0
  cells : cells u.iobuf u.tail u.cur_len = l

variable {u u' : IOBufferv} {l : List UInt8}

theorem stores_ofSize {m_len : Nat} (h : 0 < m_len) : (ofSize m_len).Stores [] := by
  refine ⟨List.length_replicate .., rfl, Nat.zero_le _, h, ?_, fun _ => ⟨rfl, rfl⟩, cells_zero ..⟩
  exact (Nat.zero_mod m_len).symm

theorem stores_empty : empty.Stores [] := stores_ofSize (by decide)

theorem stores_ofLength (my_len : Int) : (ofLength my_len).Stores [] := by
  apply stores_ofSize
  omega

theorem Stores.peekBytes (h : u.Stores l) (n : Nat) :
    u.peekBytes n = if n ≤ u.cur_len then some (l.take n) else none := by
  have htail := h.tail
  have hle := h.le
  have hlen := h.length
  unfold IOBufferv.peekBytes
  by_cases hn : n ≤ u.cur_len
  · rw [if_neg (by omega), if_pos hn, ← h.cells, take_cells hn]
    by_cases hfit : n ≤ u.max_len - u.tail
    · rw [if_pos hfit, cells_of_le (by omega)]
    · have htake : (u.iobuf.drop u.tail).take (u.max_len - u.tail) = u.iobuf.drop u.tail := by
        apply List.take_of_length_le
        rw [List.length_drop]
        omega
      rw [if_neg hfit, cells_of_ge (by omega) (by omega) (by omega), hlen]
      dsimp only
      rw [htake]
  · rw [if_pos (by omega), if_neg hn]

theorem Stores.peekBytes_cur_len (h : u.Stores l) : u.peekBytes u.cur_len = some l := by
  rw [h.peekBytes, if_pos le_rfl, ← h.cur_len, List.take_length]

theorem Stores.ensureCapacity (h : u.Stores l) (max_length : Nat) : (u.ensureCapacity max_length).Stores l := by
  unfold IOBufferv.ensureCapacity
  split
  · rename_i hgrow
    have hle := h.le
    have htail := h.tail
    have hlen : (List.replicate (max_length + u.max_len) (0 : UInt8)).length = max_length + u.max_len :=
      List.length_replicate ..
    rw [h.peekBytes_cur_len, Option.getD_some]
    refine ⟨?_, h.cur_len, ?_, ?_, ?_, ?_, ?_⟩
    · rw [length_copy]
      · rw [hlen, Nat.add_comm]
      · rw [hlen, h.cur_len]
        omega
    · show u.cur_len ≤ u.max_len + max_length
      omega
    · show 0 < u.max_len + max_length
      omega
    · show u.cur_len = (0 + u.cur_len) % (u.max_len + max_length)
      rw [Nat.zero_add, Nat.mod_eq_of_lt (by omega)]
    · exact fun hzero => ⟨hzero, rfl⟩
    · have hwrites : Writes (List.replicate (max_length + u.max_len) (0 : UInt8)) 0 l _ :=
        writes_copy (by rw [hlen, h.cur_len]; omega)
      have hcells := Writes.cells (n := 0) (by rwa [Nat.zero_mod]) (by rw [hlen, h.cur_len]; omega)
      rw [Nat.zero_add, cells_zero, List.nil_append, h.cur_len] at hcells
      exact hcells
  · exact h

theorem le_max_len_ensureCapacity (u : IOBufferv) (max_length : Nat) :
    max_length ≤ (u.ensureCapacity max_length).max_len := by
  unfold IOBufferv.ensureCapacity
  split
  · exact Nat.le_add_left ..
  · omega

@[simp] theorem cur_len_ensureCapacity (u : IOBufferv) (max_length : Nat) :
    (u.ensureCapacity max_length).cur_len = u.cur_len := by
  unfold IOBufferv.ensureCapacity
  split <;> rfl

theorem Stores.head_lt (h : u.Stores l) : u.head < u.max_len := by
  have htail := h.tail
  rw [h.head]
  exact Nat.mod_lt _ (by omega)

theorem Stores.head_cases (h : u.Stores l) :
    u.head = u.tail + u.cur_len ∨ u.head + u.max_len = u.tail + u.cur_len := by
  rw [h.head]
  exact add_mod_cases h.tail h.le

/-- Bytes are written behind those in the buffer, and the head is moved behind them. -/
theorem Stores.writes (h : u.Stores l) {bytes iobuf : List UInt8} {head : Nat}
    (hfit : u.cur_len + bytes.length ≤ u.max_len) (hwrites : Writes u.iobuf u.head bytes iobuf)
    (hhead : head = if u.max_len ≤ u.head + bytes.length then bytes.length - (u.max_len - u.head)
      else u.head + bytes.length) :
    Stores { u with iobuf := iobuf, head := head, cur_len := u.cur_len + bytes.length } (l ++ bytes) := by
  have htail := h.tail
  have hle := h.le
  have hlt := h.head_lt
  have hnext : head = (u.tail + (u.cur_len + bytes.length)) % u.max_len := by
    have hmod : (u.tail + (u.cur_len + bytes.length)) % u.max_len = (u.head + bytes.length) % u.max_len := by
      rw [h.head, Nat.mod_add_mod, Nat.add_assoc]
    rw [hmod, hhead]
    split
    · rename_i hwrap
      rw [Nat.mod_eq_sub_mod hwrap, Nat.mod_eq_of_lt (by omega)]
      omega
    · exact (Nat.mod_eq_of_lt (by omega)).symm
  refine ⟨hwrites.length.trans h.length, ?_, hfit, htail, hnext, ?_, ?_⟩
  · rw [List.length_append, h.cur_len]
  · intro hzero
    have hsum : u.cur_len + bytes.length = 0 := hzero
    have hcur : u.cur_len = 0 := by omega
    have hbytes : bytes.length = 0 := by omega
    obtain ⟨hhead0, htail0⟩ := h.empty hcur
    refine ⟨?_, htail0⟩
    show head = 0
    rw [hnext, htail0, hcur, hbytes, Nat.zero_mod]
  · have hwrites' : Writes u.iobuf ((u.tail + u.cur_len) % u.iobuf.length) bytes iobuf := by
      rw [h.length, ← h.head]
      exact hwrites
    have hcells := hwrites'.cells (by rw [h.length]; exact hfit)
    rw [h.cells] at hcells
    exact hcells

theorem Stores.append (h : u.Stores l) (source : List UInt8) : (u.append source).Stores (l ++ source) := by
  have hstores := h.ensureCapacity (u.cur_len + source.length)
  have hfit := le_max_len_ensureCapacity u (u.cur_len + source.length)
  have hcur := cur_len_ensureCapacity u (u.cur_len + source.length)
  unfold IOBufferv.append
  dsimp only
  generalize u.ensureCapacity (u.cur_len + source.length) = v at hstores hfit hcur ⊢
  have htail := hstores.tail
  have hle := hstores.le
  have hlt := hstores.head_lt
  rw [← hcur] at hfit
  by_cases hwrap : v.max_len ≤ v.head + source.length
  · rw [if_pos hwrap]
    have htake : (source.take (v.max_len - v.head)).length = v.max_len - v.head := by
      rw [List.length_take]
      omega
    have hdrop : (source.drop (v.max_len - v.head)).length = source.length - (v.max_len - v.head) :=
      List.length_drop ..
    have hroom : source.length ≤ v.max_len := by omega
    have hwrites : Writes v.iobuf v.head (source.take (v.max_len - v.head) ++ source.drop (v.max_len - v.head)) _ :=
      writes_copy_copy (by rw [htake, hstores.length]; omega) (by rw [hdrop]; omega)
    rw [List.take_append_drop] at hwrites
    exact hstores.writes hfit hwrites (by rw [if_pos hwrap])
  · rw [if_neg hwrap]
    have hwrites : Writes v.iobuf v.head source _ := writes_copy (by rw [hstores.length]; omega)
    exact hstores.writes hfit hwrites (by rw [if_neg hwrap])

theorem Stores.getMaxContigFree (h : u.Stores l) :
    ∃ free, u.getMaxContigFree = some free ∧ u.head + free ≤ u.max_len ∧ u.cur_len + free ≤ u.max_len := by
  have htail := h.tail
  have hle := h.le
  have hempty := h.empty
  have hlt := h.head_lt
  have hcases := h.head_cases
  unfold IOBufferv.getMaxContigFree isEmpty
  by_cases hmeet : u.head = u.tail
  · rw [if_pos hmeet]
    by_cases hzero : u.cur_len = 0
    · obtain ⟨hhead0, -⟩ := hempty hzero
      exact ⟨u.max_len, by simp [hzero, hhead0], by omega, by omega⟩
    · exact ⟨0, by simp [hzero], by omega, by omega⟩
  · rw [if_neg hmeet]
    by_cases hbehind : u.tail < u.head
    · exact ⟨u.max_len - u.head, by rw [if_pos hbehind], by omega, by omega⟩
    · exact ⟨u.tail - u.head - 1, by rw [if_neg hbehind], by omega, by omega⟩

theorem Stores.receive (h : u.Stores l) {bytes : List UInt8} (hend : u.head + bytes.length ≤ u.max_len)
    (hfit : u.cur_len + bytes.length ≤ u.max_len) : (u.receive bytes).Stores (l ++ bytes) :=
  h.writes hfit (writes_copy (by rw [h.length]; exact hend)) rfl

theorem Stores.dropFromTail (h : u.Stores l) {n : Nat} (hn : n ≤ u.cur_len) :
    ∃ u', u.dropFromTail n = some u' ∧ u'.Stores (l.drop n) := by
  have htail := h.tail
  have hle := h.le
  have hlen := h.length
  unfold IOBufferv.dropFromTail
  by_cases hall : u.cur_len = n
  · rw [if_pos hall]
    refine ⟨_, rfl, hlen, ?_, Nat.le_trans (Nat.sub_le ..) hle, by show 0 < u.max_len; omega, ?_, fun _ => ⟨rfl, rfl⟩, ?_⟩
    · rw [List.length_drop, h.cur_len]
    · show 0 = (0 + (u.cur_len - n)) % u.max_len
      rw [hall, Nat.sub_self, Nat.zero_mod]
    · show Ring.cells u.iobuf 0 (u.cur_len - n) = l.drop n
      rw [hall, Nat.sub_self, cells_zero, List.drop_of_length_le]
      rw [h.cur_len, hall]
  · rw [if_neg hall, if_pos (by omega)]
    have hnext : (if u.tail + n < u.max_len then u.tail + n else n - (u.max_len - u.tail)) =
        (u.tail + n) % u.max_len := by
      split
      · rename_i hlt
        exact (Nat.mod_eq_of_lt hlt).symm
      · rename_i hwrap
        rw [Nat.mod_eq_sub_mod (by omega), Nat.mod_eq_of_lt (by omega)]
        omega
    rw [hnext]
    refine ⟨_, rfl, hlen, ?_, Nat.le_trans (Nat.sub_le ..) hle, Nat.mod_lt _ (by omega), ?_, ?_, ?_⟩
    · rw [List.length_drop, h.cur_len]
    · show u.head = ((u.tail + n) % u.max_len + (u.cur_len - n)) % u.max_len
      rw [Nat.mod_add_mod, h.head]
      congr 1
      omega
    · intro hzero
      have : u.cur_len - n = 0 := hzero
      omega
    · show Ring.cells u.iobuf ((u.tail + n) % u.max_len) (u.cur_len - n) = l.drop n
      rw [← hlen, cells_mod, ← drop_cells hn (by omega), h.cells]

theorem dropFromTail_eq_none {n : Nat} (hn : u.cur_len < n) : u.dropFromTail n = none := by
  unfold IOBufferv.dropFromTail
  rw [if_neg (by omega), if_neg (by omega)]

theorem Stores.clear (h : u.Stores l) : u.clear.Stores [] := by
  have htail := h.tail
  refine ⟨h.length, rfl, Nat.zero_le _, by show 0 < u.max_len; omega, ?_, fun _ => ⟨rfl, rfl⟩, cells_zero ..⟩
  exact (Nat.zero_mod u.max_len).symm

/-! ### Reading from a descriptor -/

/-- The bytes that a descriptor gave. -/
def delivered (calls : List (Nat × Received)) : List UInt8 :=
  calls.flatMap fun call =>
    match call.2 with
    | .bytes bytes => bytes
    | .error _ => []

/-- What `read` makes of the answer to its request. -/
def answered (u : IOBufferv) (to_rd : Nat) (this_round : Received) : ReadOut :=
  match this_round with
  | .bytes bytes =>
    if 0 < bytes.length then ⟨bytes.length, u.receive bytes, [(to_rd, this_round)]⟩
    else ⟨-1, { u with eof := true }, [(to_rd, this_round)]⟩
  | .error errno => ⟨if errno ≠ EAGAIN ∧ errno ≠ EINTR then -1 else 0, u, [(to_rd, this_round)]⟩

/-- There is one round. -/
theorem readRounds_eq {max_to_read free : Nat} (hmax : 0 < max_to_read) (hfree : u.getMaxContigFree = some free)
    (desc desc' : Descriptor) :
    readRounds max_to_read [desc, desc'] 0 u =
      some (u.answered (min max_to_read free) (desc.read (min max_to_read free))) := by
  rw [readRounds, if_neg (by omega), hfree, Option.bind_some, Nat.sub_zero]
  dsimp only
  unfold answered
  cases hread : desc.read (min max_to_read free) with
  | bytes bytes =>
    have hle := desc.fits _ _ hread
    dsimp only
    by_cases hpos : 0 < bytes.length
    · rw [if_pos hpos, if_pos hpos, if_pos hle, Nat.zero_add]
    · rw [if_neg hpos, if_neg hpos, if_pos rfl]
  | error errno =>
    dsimp only
    by_cases herr : errno ≠ EAGAIN ∧ errno ≠ EINTR
    · rw [if_pos herr, if_pos ⟨herr.1, herr.2, rfl⟩]
    · rw [if_neg herr, if_neg fun h => herr ⟨h.1, h.2.1⟩]
      rfl

theorem Stores.setEof (h : u.Stores l) (eof : Bool) : Stores { u with eof := eof } l :=
  ⟨h.length, h.cur_len, h.le, h.tail, h.head, h.empty, h.cells⟩

theorem Stores.answered (h : u.Stores l) {free to_rd : Nat} (hfree : u.getMaxContigFree = some free) (hle : to_rd ≤ free)
    (desc : Descriptor) :
    (u.answered to_rd (desc.read to_rd)).buffer.Stores (l ++ delivered (u.answered to_rd (desc.read to_rd)).calls) := by
  obtain ⟨free', hfree', hend, hfit⟩ := h.getMaxContigFree
  obtain rfl := Option.some.inj (hfree.symm.trans hfree')
  unfold IOBufferv.answered
  cases hread : desc.read to_rd with
  | bytes bytes =>
    have hbytes := desc.fits _ _ hread
    dsimp only
    split
    · have hdelivered : delivered [(to_rd, .bytes bytes)] = bytes := by simp [delivered]
      rw [hdelivered]
      exact h.receive (by omega) (by omega)
    · rename_i hzero
      obtain rfl : bytes = [] := List.eq_nil_of_length_eq_zero (by omega)
      have hdelivered : delivered [(to_rd, .bytes [])] = [] := rfl
      rw [hdelivered, List.append_nil]
      exact h.setEof true
  | error errno =>
    have hdelivered : delivered [(to_rd, .error errno)] = [] := rfl
    rw [hdelivered, List.append_nil]
    exact h

/-- `read` makes one request, for no more than has room in one piece. -/
theorem Stores.read_eq (h : u.Stores l) {max_to_read : Int} (hmax : 0 < max_to_read) (desc desc' : Descriptor) :
    ∃ free, (u.ensureCapacity (u.cur_len + max_to_read.toNat)).getMaxContigFree = some free ∧
      u.read max_to_read desc desc' =
        some ((u.ensureCapacity (u.cur_len + max_to_read.toNat)).answered (min max_to_read.toNat free)
          (desc.read (min max_to_read.toNat free))) := by
  obtain ⟨free, hfree, -⟩ := (h.ensureCapacity (u.cur_len + max_to_read.toNat)).getMaxContigFree
  refine ⟨free, hfree, ?_⟩
  unfold IOBufferv.read
  rw [if_neg (by omega), readRounds_eq (by omega) hfree]

theorem Stores.read (h : u.Stores l) (max_to_read : Int) (desc desc' : Descriptor) :
    ∃ out, u.read max_to_read desc desc' = some out ∧ out.buffer.Stores (l ++ delivered out.calls) := by
  by_cases hmax : max_to_read ≤ 0
  · refine ⟨⟨0, u, []⟩, if_pos hmax, ?_⟩
    have hdelivered : delivered [] = [] := rfl
    rw [hdelivered, List.append_nil]
    exact h
  · obtain ⟨free, hfree, hread⟩ := h.read_eq (by omega : 0 < max_to_read) desc desc'
    exact ⟨_, hread, (h.ensureCapacity _).answered hfree (Nat.min_le_right ..) desc⟩

theorem Stores.recvFrom (h : u.Stores l) (max_to_read : Int) (desc : Descriptor) :
    ∃ out, u.recvFrom max_to_read desc = some out ∧ out.buffer.Stores (l ++ delivered out.calls) := by
  by_cases hmax : max_to_read ≤ 0
  · refine ⟨⟨0, u, []⟩, if_pos hmax, ?_⟩
    have hdelivered : delivered [] = [] := rfl
    rw [hdelivered, List.append_nil]
    exact h
  · have hgrown := h.ensureCapacity max_to_read.toNat
    obtain ⟨free, hfree, hend, hfit⟩ := hgrown.getMaxContigFree
    unfold IOBufferv.recvFrom
    dsimp only
    rw [if_neg hmax, hfree, Option.bind_some]
    cases hread : desc.read max_to_read.toNat with
    | bytes bytes =>
      have hbytes := desc.fits _ _ hread
      have hdelivered : delivered [(max_to_read.toNat, .bytes bytes)] = bytes := by simp [delivered]
      dsimp only
      by_cases hpos : 0 < bytes.length
      · rw [if_pos hpos]
        refine ⟨_, rfl, ?_⟩
        rw [hdelivered]
        dsimp only
        split
        · exact hgrown.append bytes
        · exact hgrown.receive (by omega) (by omega)
      · rw [if_neg hpos]
        obtain rfl : bytes = [] := List.eq_nil_of_length_eq_zero (by omega)
        refine ⟨_, rfl, ?_⟩
        rw [hdelivered, List.append_nil]
        exact hgrown
    | error errno =>
      have hdelivered : delivered [(max_to_read.toNat, .error errno)] = [] := rfl
      refine ⟨_, rfl, ?_⟩
      rw [hdelivered, List.append_nil]
      exact hgrown

end IOBufferv

end Vocal.Util
