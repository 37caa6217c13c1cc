import Vocal.Util.IOBufferv.Queue

/-!
# The end of a connection

`read` takes an answer without bytes for the end of the connection. It asks for as much as has room in one piece, which
can be nothing: in a ring that goes around its end the last free byte is never used, so that a request for that byte is
a request for none. `read_right_iff` says that `read` is right in all other states.
-/

namespace Vocal.Util.IOBufferv

variable {u : IOBufferv} {l : List UInt8}

/-- The call sets the flag for the end of the file, whatever it was before. -/
def SetsEof (u : IOBufferv) (max_to_read : Int) (desc desc' : Descriptor) : Prop :=
  ∃ out, read { u with eof := false } max_to_read desc desc' = some out ∧ out.buffer.eof = true

/-- `read` as it should be: it finds the end of the file only where the descriptor gave nothing when it was asked for
something, and otherwise adds to the stored bytes `l` those that the descriptor gave. -/
def ReadsRight (u : IOBufferv) (l : List UInt8) (max_to_read : Int) (desc desc' : Descriptor) : Prop :=
  ∃ out, u.read max_to_read desc desc' = some out ∧
    (u.SetsEof max_to_read desc desc' → ∃ n, 1 ≤ n ∧ (n, .bytes []) ∈ out.calls) ∧
    (¬ u.SetsEof max_to_read desc desc' → out.buffer.Stores (l ++ delivered out.calls))

/-- The descriptor has an answer to a request that is no error. -/
def Descriptor.Answers (desc : Descriptor) (n : Nat) : Prop := ∃ bytes, desc.read n = .bytes bytes

/-- The last free byte in a ring that goes around its end. -/
def LastByte (u : IOBufferv) : Prop := u.head < u.tail ∧ u.cur_len + 1 = u.max_len

theorem Stores.getMaxContigFree_eq_zero_iff (h : u.Stores l) (hroom : u.cur_len < u.max_len) :
    u.getMaxContigFree = some 0 ↔ u.LastByte := by
  have htail := h.tail
  have hcases := h.head_cases
  have hlt := h.head_lt
  unfold IOBufferv.getMaxContigFree isEmpty LastByte
  by_cases hmeet : u.head = u.tail
  · have hzero : u.cur_len = 0 := by omega
    obtain ⟨hhead0, -⟩ := h.empty hzero
    simp only [hmeet, hzero, decide_true, Bool.not_true, Bool.false_eq_true, if_false, if_true]
    rw [if_pos (by omega), Option.some.injEq]
    omega
  · rw [if_neg hmeet]
    by_cases hbehind : u.tail < u.head
    · rw [if_pos hbehind, Option.some.injEq]
      omega
    · rw [if_neg hbehind, Option.some.injEq]
      omega

/-- A request is for nothing only where the last byte is asked for. -/
theorem Stores.request_eq_zero_iff (h : u.Stores l) {m free : Nat} (hm : 0 < m)
    (hfree : (u.ensureCapacity (u.cur_len + m)).getMaxContigFree = some free) :
    min m free = 0 ↔ m = 1 ∧ u.LastByte := by
  have hgrown := h.ensureCapacity (u.cur_len + m)
  have hfit := le_max_len_ensureCapacity u (u.cur_len + m)
  have hcur := cur_len_ensureCapacity u (u.cur_len + m)
  have hzero := hgrown.getMaxContigFree_eq_zero_iff (by omega)
  rw [hfree, Option.some.injEq] at hzero
  have hmin : min m free = 0 ↔ free = 0 := by omega
  rw [hmin, hzero]
  unfold LastByte
  by_cases hgrow : u.max_len < u.cur_len + m
  · -- in new memory the bytes start at 0
    have htail : (u.ensureCapacity (u.cur_len + m)).tail = 0 := by
      unfold IOBufferv.ensureCapacity
      rw [if_pos hgrow]
    rw [htail]
    omega
  · have hsame : u.ensureCapacity (u.cur_len + m) = u := if_neg hgrow
    rw [hsame]
    omega

theorem ensureCapacity_setEof (u : IOBufferv) (eof : Bool) (n : Nat) :
    ensureCapacity { u with eof := eof } n = { u.ensureCapacity n with eof := eof } := by
  unfold IOBufferv.ensureCapacity
  split <;> rfl

theorem eof_answered (u : IOBufferv) (n : Nat) (r : Received) :
    (u.answered n r).buffer.eof = true ↔ u.eof = true ∨ r = .bytes [] := by
  unfold answered
  cases r with
  | bytes bytes =>
    cases bytes with
    | nil => simp
    | cons b bytes => simp [receive, fakeAppend]
  | error errno => simp

theorem Stores.setsEof_iff (h : u.Stores l) {max_to_read : Int} (hmax : 0 < max_to_read) {free : Nat}
    (hfree : (u.ensureCapacity (u.cur_len + max_to_read.toNat)).getMaxContigFree = some free) (desc desc' : Descriptor) :
    u.SetsEof max_to_read desc desc' ↔ desc.read (min max_to_read.toNat free) = .bytes [] := by
  obtain ⟨free', hfree', hread⟩ := (h.setEof false).read_eq hmax desc desc'
  rw [ensureCapacity_setEof] at hread hfree'
  have hfree'' : (u.ensureCapacity (u.cur_len + max_to_read.toNat)).getMaxContigFree = some free' := hfree'
  obtain rfl := Option.some.inj (hfree.symm.trans hfree'')
  unfold SetsEof
  rw [hread]
  constructor
  · rintro ⟨out, hout, heof⟩
    obtain rfl := Option.some.inj hout
    rw [eof_answered] at heof
    rcases heof with heof | heof
    · cases heof
    · exact heof
  · intro hnil
    exact ⟨_, rfl, (eof_answered ..).mpr (Or.inr hnil)⟩

theorem mem_calls_answered {n k : Nat} {r r' : Received} : (k, r') ∈ (u.answered n r).calls ↔ k = n ∧ r' = r := by
  unfold answered
  cases r with
  | bytes bytes =>
    dsimp only
    split <;> simp
  | error errno => simp

/-- **The end of the file.** In every state and whatever the descriptor answers, `read` is right exactly if it is not
asked for one byte where the last free byte is the one behind which the ring goes on, and the descriptor then has an
answer. -/
theorem read_right_iff (u : IOBufferv) (l : List UInt8) (h : u.Stores l) (max_to_read : Int)
    (desc desc' : Descriptor) :
    u.ReadsRight l max_to_read desc desc' ↔ ¬ (max_to_read = 1 ∧ u.LastByte ∧ desc.Answers 0) := by
  by_cases hmax : 0 < max_to_read
  · obtain ⟨free, hfree, hread⟩ := h.read_eq hmax desc desc'
    have hzero := h.request_eq_zero_iff (by omega) hfree
    have hstores := (h.ensureCapacity _).answered hfree (Nat.min_le_right max_to_read.toNat free) desc
    have hset := h.setsEof_iff hmax hfree desc desc'
    unfold ReadsRight
    rw [hread, hset]
    constructor
    · rintro ⟨out, hout, heof, -⟩ ⟨hone, hlast, bytes, hbytes⟩
      obtain rfl := Option.some.inj hout
      have hnone : min max_to_read.toNat free = 0 := hzero.mpr ⟨by omega, hlast⟩
      have hnil : bytes = [] := List.eq_nil_of_length_eq_zero (Nat.le_zero.mp (desc.fits 0 bytes hbytes))
      rw [hnone] at heof
      obtain ⟨n, hn, hcall⟩ := heof (hnil ▸ hbytes)
      obtain ⟨hn0, -⟩ := mem_calls_answered.mp hcall
      omega
    · intro hnot
      refine ⟨_, rfl, ?_, fun _ => hstores⟩
      intro hnil
      refine ⟨min max_to_read.toNat free, ?_, mem_calls_answered.mpr ⟨rfl, hnil.symm⟩⟩
      by_contra hlt
      have hnone : min max_to_read.toNat free = 0 := by omega
      obtain ⟨hone, hlast⟩ := hzero.mp hnone
      exact hnot ⟨by omega, hlast, [], hnone ▸ hnil⟩
  · have hread : ∀ v : IOBufferv, v.read max_to_read desc desc' = some ⟨0, v, []⟩ := fun v => if_pos (by omega)
    refine iff_of_true ?_ (by omega)
    refine ⟨_, hread u, ?_, fun _ => ?_⟩
    · rintro ⟨out, hout, heof⟩
      rw [hread] at hout
      obtain rfl := Option.some.inj hout
      cases heof
    · have hdelivered : delivered [] = [] := rfl
      rw [hdelivered, List.append_nil]
      exact h

/-- A descriptor that always has bytes. -/
def ready : Descriptor := ⟨fun n => .bytes (List.replicate n 7), by simp⟩

/-- Operations that leave one free byte, behind which the ring goes on. -/
def almostFull : List Op := [.append (List.replicate 150 1), .dropFromTail 100, .append (List.replicate 149 2)]

set_option maxRecDepth 4000 in
/-- Bytes are waiting, and `read` reports the end of the file. -/
theorem read_of_none_is_eof :
    ∃ u, (ofLength 0).run almostFull = some u ∧ u.SetsEof 1 ready ready ∧
      ∃ out, u.read 1 ready ready = some out ∧ out.ret = -1 ∧ out.calls = [(0, .bytes [])] := by
  refine ⟨_, rfl, ⟨_, rfl, by decide⟩, ⟨_, rfl, by decide, by decide⟩⟩

theorem read_right_iff_empty :
    ReadsRight empty [] 1 ready ready ↔ ¬ ((1 : Int) = 1 ∧ empty.LastByte ∧ ready.Answers 0) :=
  read_right_iff empty [] stores_empty 1 ready ready

end Vocal.Util.IOBufferv
