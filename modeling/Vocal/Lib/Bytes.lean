import Mathlib.Data.Vector.Basic

/-!
# Bytes

Words in network order, reads of a buffer that do not leave it, writes into an array, and single bytes and words of a
buffer at an offset, when the buffer has all of their bytes.
-/

namespace Vocal

abbrev Bytes := List UInt8

/-- An array of `n` bytes. -/
abbrev Octets (n : Nat) := List.Vector UInt8 n

namespace Bytes

/-! ### Words -/

/-- The bytes of a word of 16 bits, the higher one first. -/
def ofWord16 (w : UInt16) : Bytes := [.ofNat (w.toNat / 2 ^ 8), .ofNat w.toNat]

/-- The bytes of a word of 32 bits, the highest one first. -/
def ofWord32 (w : UInt32) : Bytes :=
  [.ofNat (w.toNat / 2 ^ 24), .ofNat (w.toNat / 2 ^ 16), .ofNat (w.toNat / 2 ^ 8), .ofNat w.toNat]

def word16 (a b : UInt8) : UInt16 := .ofNat (a.toNat * 2 ^ 8 + b.toNat)

def word32 (a b c d : UInt8) : UInt32 :=
  .ofNat (a.toNat * 2 ^ 24 + b.toNat * 2 ^ 16 + c.toNat * 2 ^ 8 + d.toNat)

theorem word16_ofNat (n : Nat) : word16 (.ofNat (n / 2 ^ 8)) (.ofNat n) = .ofNat n := by
  apply UInt16.toNat_inj.mp
  simp only [word16, UInt16.toNat_ofNat', UInt8.toNat_ofNat']
  omega

@[simp] theorem word16_ofWord16 (w : UInt16) :
    word16 (.ofNat (w.toNat / 2 ^ 8)) (.ofNat w.toNat) = w := by
  rw [word16_ofNat, UInt16.ofNat_toNat]

@[simp] theorem word32_ofWord32 (w : UInt32) :
    word32 (.ofNat (w.toNat / 2 ^ 24)) (.ofNat (w.toNat / 2 ^ 16)) (.ofNat (w.toNat / 2 ^ 8)) (.ofNat w.toNat) =
      w := by
  have hw := w.toNat_lt
  apply UInt32.toNat_inj.mp
  simp only [word32, UInt32.toNat_ofNat', UInt8.toNat_ofNat']
  omega

theorem ofWord16_word16 (a b : UInt8) : ofWord16 (word16 a b) = [a, b] := by
  have ha := a.toNat_lt
  have hb := b.toNat_lt
  simp only [ofWord16, word16, UInt16.toNat_ofNat', List.cons.injEq, and_true]
  refine ⟨?_, ?_⟩ <;> · apply UInt8.toNat_inj.mp; rw [UInt8.toNat_ofNat']; omega

theorem ofWord32_word32 (a b c d : UInt8) : ofWord32 (word32 a b c d) = [a, b, c, d] := by
  have ha := a.toNat_lt
  have hb := b.toNat_lt
  have hc := c.toNat_lt
  have hd := d.toNat_lt
  simp only [ofWord32, word32, UInt32.toNat_ofNat', List.cons.injEq, and_true]
  refine ⟨?_, ?_, ?_, ?_⟩ <;> · apply UInt8.toNat_inj.mp; rw [UInt8.toNat_ofNat']; omega

@[simp] theorem length_ofWord16 (w : UInt16) : (ofWord16 w).length = 2 := rfl

@[simp] theorem length_ofWord32 (w : UInt32) : (ofWord32 w).length = 4 := rfl

theorem toNat_word16 (a b : UInt8) : (word16 a b).toNat = a.toNat * 2 ^ 8 + b.toNat := by
  have ha := a.toNat_lt
  have hb := b.toNat_lt
  simp only [word16, UInt16.toNat_ofNat']
  omega

/-! ### Reads -/

/-- The `n` bytes at an offset, when the buffer has them. -/
def slice (buf : Bytes) (off n : Nat) : Option Bytes :=
  if off + n ≤ buf.length then some ((buf.drop off).take n) else none

theorem slice_append (x rest : Bytes) : slice (x ++ rest) 0 x.length = some x := by
  simp [slice]

theorem length_slice {buf x : Bytes} {off n : Nat} (h : slice buf off n = some x) : x.length = n := by
  rw [slice] at h
  split at h
  · rename_i hle
    rw [← Option.some.inj h, List.length_take, List.length_drop]
    omega
  · cases h

end Bytes

/-! ### Writes -/

namespace Octets

variable {α : Type} {n : Nat}

/-- Writes at an offset, when the array has room for all of it. -/
def store (dst : List.Vector α n) (off : Nat) (src : List α) : Option (List.Vector α n) :=
  if h : off + src.length ≤ n then
    some ⟨dst.1.take off ++ (src ++ dst.1.drop (off + src.length)), by simp [dst.2]; omega⟩
  else none

theorem store_eq_none_iff {dst : List.Vector α n} {off : Nat} {src : List α} :
    store dst off src = none ↔ n < off + src.length := by
  simp [store]

/-- What is written has room, and the array around it stays as it is. -/
theorem store_eq_some_iff {dst dst' : List.Vector α n} {off : Nat} {src : List α} :
    store dst off src = some dst' ↔
      off + src.length ≤ n ∧ dst'.1 = dst.1.take off ++ (src ++ dst.1.drop (off + src.length)) := by
  rw [store]
  split_ifs with h
  · constructor
    · intro heq
      exact ⟨h, congrArg Subtype.val (Option.some.inj heq).symm⟩
    · rintro ⟨-, hval⟩
      exact congrArg some (Subtype.ext hval.symm)
  · simp [h]

theorem exists_store {dst : List.Vector α n} {off : Nat} {src : List α} (h : off + src.length ≤ n) :
    ∃ dst', store dst off src = some dst' := ⟨_, dif_pos h⟩

section

variable {dst dst' : List.Vector α n} {off : Nat} {src : List α} (h : store dst off src = some dst')

include h

theorem take_store {k : Nat} (hk : k ≤ off) : dst'.1.take k = dst.1.take k := by
  obtain ⟨hle, hval⟩ := store_eq_some_iff.mp h
  have hlen : (dst.1.take off).length = off := by
    rw [List.length_take, dst.2]
    omega
  rw [hval, List.take_append_of_le_length (by omega), List.take_take, min_eq_left hk]

theorem drop_store {k : Nat} (hk : off + src.length ≤ k) : dst'.1.drop k = dst.1.drop k := by
  obtain ⟨hle, hval⟩ := store_eq_some_iff.mp h
  have hlen : (dst.1.take off ++ src).length = off + src.length := by
    rw [List.length_append, List.length_take, dst.2]
    omega
  rw [hval, ← List.append_assoc, List.drop_append, List.drop_eq_nil_of_le (by omega), List.nil_append, List.drop_drop,
    hlen]
  congr 1
  omega

theorem take_store_end : dst'.1.take (off + src.length) = dst.1.take off ++ src := by
  obtain ⟨hle, hval⟩ := store_eq_some_iff.mp h
  have hlen : (dst.1.take off ++ src).length = off + src.length := by
    rw [List.length_append, List.length_take, dst.2]
    omega
  rw [hval, ← List.append_assoc, ← hlen, List.take_left]

theorem take_store_middle {x y z : List α} (hdst : dst.1.take (off + (y.length + z.length)) = x ++ (y ++ z))
    (hx : x.length = off) (hy : y.length = src.length) :
    dst'.1.take (off + (y.length + z.length)) = x ++ (src ++ z) := by
  have hfirst : dst.1.take off = x := by
    have htake := congrArg (List.take off) hdst
    rwa [List.take_take, min_eq_left (Nat.le_add_right _ _), List.take_left' hx] at htake
  have hlast : (dst.1.drop (off + src.length)).take z.length = z := by
    have hdrop := congrArg (List.drop (off + y.length)) hdst
    rw [List.drop_take, ← List.append_assoc, List.drop_left' (by rw [List.length_append, hx])] at hdrop
    rw [← hy]
    rwa [show off + (y.length + z.length) - (off + y.length) = z.length by omega] at hdrop
  rw [show off + (y.length + z.length) = off + src.length + z.length by omega, List.take_add, take_store_end h,
    drop_store h (Nat.le_refl _), hlast, hfirst, List.append_assoc]

end

/-- The array that starts with these bytes, and has zeros after them. -/
def padded (n : Nat) (l : Bytes) (h : l.length ≤ n) : Octets n :=
  ⟨l ++ List.replicate (n - l.length) 0, by simp; omega⟩

theorem take_padded {l : Bytes} (h : l.length ≤ n) : (padded n l h).1.take l.length = l := by
  simp [padded]

theorem store_replicate {l : Bytes} (h : l.length ≤ n) :
    store (List.Vector.replicate n 0) 0 l = some (padded n l h) := by
  rw [store, dif_pos (by omega)]
  congr 1
  apply Subtype.ext
  show List.take 0 (List.replicate n 0) ++ (l ++ List.drop (0 + l.length) (List.replicate n 0)) = _
  simp [padded]

theorem store_zero_padded {l : Bytes} (h : l.length < n) :
    store (padded n l h.le) l.length [0] = some (padded n l h.le) := by
  rw [store, dif_pos (by simp; omega)]
  congr 1
  apply Subtype.ext
  have hzeros : List.replicate (n - l.length) (0 : UInt8) = 0 :: List.replicate (n - l.length - 1) 0 := by
    rw [← List.replicate_succ]
    congr 1
    omega
  simp [padded, hzeros, List.drop_append]

end Octets

end Vocal

namespace Vocal.Bytes

/-! ### Reads at an offset -/

def byteAt (buf : Bytes) (off : Nat) : Option UInt8 := (buf.drop off).head?

def word16At (buf : Bytes) (off : Nat) : Option UInt16 :=
  match buf.drop off with
  | a :: b :: _ => some (word16 a b)
  | _ => none

def word32At (buf : Bytes) (off : Nat) : Option UInt32 :=
  match buf.drop off with
  | a :: b :: c :: d :: _ => some (word32 a b c d)
  | _ => none

variable {buf x y : Bytes} {off : Nat}

theorem isSome_byteAt : (byteAt buf off).isSome = true ↔ off < buf.length := by
  rw [byteAt, List.isSome_head?, ne_eq, List.drop_eq_nil_iff, not_le]

theorem isSome_word16At : (word16At buf off).isSome = true ↔ off + 2 ≤ buf.length := by
  have hlen : (buf.drop off).length = buf.length - off := List.length_drop
  rw [word16At]
  split
  · rename_i hdrop
    rw [hdrop, List.length_cons, List.length_cons] at hlen
    exact iff_of_true rfl (by omega)
  · rename_i hno
    refine iff_of_false Bool.false_ne_true fun hle => ?_
    obtain ⟨a, l, hdrop⟩ := List.exists_cons_of_length_pos (l := buf.drop off) (by omega)
    rw [hdrop, List.length_cons] at hlen
    obtain ⟨b, l, rfl⟩ := List.exists_cons_of_length_pos (l := l) (by omega)
    exact hno a b l hdrop

theorem isSome_word32At : (word32At buf off).isSome = true ↔ off + 4 ≤ buf.length := by
  have hlen : (buf.drop off).length = buf.length - off := List.length_drop
  rw [word32At]
  split
  · rename_i hdrop
    rw [hdrop, List.length_cons, List.length_cons, List.length_cons, List.length_cons] at hlen
    exact iff_of_true rfl (by omega)
  · rename_i hno
    refine iff_of_false Bool.false_ne_true fun hle => ?_
    obtain ⟨a, l, hdrop⟩ := List.exists_cons_of_length_pos (l := buf.drop off) (by omega)
    rw [hdrop, List.length_cons] at hlen
    obtain ⟨b, l, rfl⟩ := List.exists_cons_of_length_pos (l := l) (by omega)
    rw [List.length_cons] at hlen
    obtain ⟨c, l, rfl⟩ := List.exists_cons_of_length_pos (l := l) (by omega)
    rw [List.length_cons] at hlen
    obtain ⟨d, l, rfl⟩ := List.exists_cons_of_length_pos (l := l) (by omega)
    exact hno a b c d l hdrop

/-! ### Buffers put together -/

theorem drop_length_add (x y : Bytes) (off : Nat) : (x ++ y).drop (x.length + off) = y.drop off := by
  rw [List.drop_append, List.drop_eq_nil_of_le (Nat.le_add_right ..), List.nil_append, Nat.add_sub_cancel_left]

theorem byteAt_append (x y : Bytes) (off : Nat) : byteAt (x ++ y) (x.length + off) = byteAt y off := by
  rw [byteAt, byteAt, drop_length_add]

theorem word16At_append (x y : Bytes) (off : Nat) : word16At (x ++ y) (x.length + off) = word16At y off := by
  rw [word16At, word16At, drop_length_add]

theorem word32At_append (x y : Bytes) (off : Nat) : word32At (x ++ y) (x.length + off) = word32At y off := by
  rw [word32At, word32At, drop_length_add]

@[simp] theorem byteAt_cons_zero (b : UInt8) (y : Bytes) : byteAt (b :: y) 0 = some b := rfl

@[simp] theorem word16At_ofWord16 (w : UInt16) (y : Bytes) : word16At (ofWord16 w ++ y) 0 = some w :=
  congrArg some (word16_ofWord16 w)

@[simp] theorem word32At_ofWord32 (w : UInt32) (y : Bytes) : word32At (ofWord32 w ++ y) 0 = some w :=
  congrArg some (word32_ofWord32 w)

end Vocal.Bytes
