import Mathlib.Data.List.Rotate

/-!
# Memory in a ring

An array that is used around its end. What lies in it from a position on is read off the array rotated to that
position, so that writing and dropping are lists put together and taken apart.
-/

namespace Vocal.Ring

variable {α : Type} {mem mem' xs : List α} {start i k n : Nat}

/-- The `n` cells from `start` on, around the end. -/
def cells (mem : List α) (start n : Nat) : List α := (mem.rotate start).take n

/-- The array after `xs` is written to the position `i`. -/
def copy (mem : List α) (i : Nat) (xs : List α) : List α := mem.take i ++ xs ++ mem.drop (i + xs.length)

/-- `mem'` is the array after `xs` is written from `start` on, around the end. -/
structure Writes (mem : List α) (start : Nat) (xs mem' : List α) : Prop where
  length : mem'.length = mem.length
  rotate : mem'.rotate start = xs ++ (mem.rotate start).drop xs.length

theorem add_mod_cases {size : Nat} (hstart : start < size) (hn : n ≤ size) :
    (start + n) % size = start + n ∨ (start + n) % size + size = start + n := by
  by_cases hwrap : size ≤ start + n
  · right
    rw [Nat.mod_eq_sub_mod hwrap, Nat.mod_eq_of_lt (by omega)]
    omega
  · left
    exact Nat.mod_eq_of_lt (by omega)

theorem rotate_append {l l' : List α} (h : l.length = n) : (l ++ l').rotate n = l' ++ l := by
  rw [← h, List.rotate_append_length_eq]

@[simp] theorem length_copy (h : i + xs.length ≤ mem.length) : (copy mem i xs).length = mem.length := by
  simp only [copy, List.length_append, List.length_take, List.length_drop]
  omega

@[simp] theorem cells_zero (mem : List α) (start : Nat) : cells mem start 0 = [] := by
  simp [cells]

theorem cells_of_le (h : start + n ≤ mem.length) : cells mem start n = (mem.drop start).take n := by
  rw [cells, List.rotate_eq_drop_append_take (by omega), List.take_append_of_le_length]
  rw [List.length_drop]
  omega

theorem cells_of_ge (hstart : start ≤ mem.length) (h : mem.length ≤ start + n) (hn : n ≤ mem.length) :
    cells mem start n = mem.drop start ++ mem.take (n - (mem.length - start)) := by
  rw [cells, List.rotate_eq_drop_append_take hstart, List.take_append, List.take_of_length_le, List.take_take,
    List.length_drop, Nat.min_eq_left]
  · omega
  · rw [List.length_drop]
    omega

theorem take_cells (h : k ≤ n) : (cells mem start n).take k = cells mem start k := by
  rw [cells, List.take_take, Nat.min_eq_left h, cells]

theorem getElem?_cells (hi : i < n) (hn : n ≤ mem.length) :
    (cells mem start n)[i]? = mem[(start + i) % mem.length]? := by
  rw [cells, List.getElem?_take_of_lt hi, List.getElem?_rotate (by omega), Nat.add_comm]

theorem drop_cells (hk : k ≤ n) (hn : n ≤ mem.length) :
    (cells mem start n).drop k = cells mem (start + k) (n - k) := by
  have hlen : n - k ≤ ((mem.rotate start).drop k).length := by
    rw [List.length_drop, List.length_rotate]
    omega
  have hturn : (mem.rotate start).rotate k = (mem.rotate start).drop k ++ (mem.rotate start).take k :=
    List.rotate_eq_drop_append_take (by rw [List.length_rotate]; omega)
  rw [cells, cells, ← List.rotate_rotate, hturn, List.take_append_of_le_length hlen, List.drop_take]

theorem cells_mod (mem : List α) (start n : Nat) : cells mem (start % mem.length) n = cells mem start n := by
  rw [cells, List.rotate_mod, cells]

/-! ### Writing -/

theorem writes_copy (h : start + xs.length ≤ mem.length) : Writes mem start xs (copy mem start xs) := by
  refine ⟨length_copy h, ?_⟩
  have hstart : start ≤ mem.length := by omega
  have htake : (mem.take start).length = start := by simp [hstart]
  rw [List.rotate_eq_drop_append_take hstart, copy, List.append_assoc,
    List.drop_append_of_le_length (by rw [List.length_drop]; omega), List.drop_drop]
  rw [rotate_append htake, List.append_assoc]

theorem writes_set {x : α} (h : start < mem.length) : Writes mem start [x] (mem.set start x) := by
  have hcopy : mem.set start x = copy mem start [x] := by
    rw [List.set_eq_take_append_cons_drop, if_pos h, copy, List.append_assoc, List.singleton_append,
      List.length_singleton]
  rw [hcopy]
  exact writes_copy h

/-- In two pieces, the second at the beginning. -/
theorem writes_copy_copy {ys : List α} (hend : start + xs.length = mem.length) (hys : ys.length ≤ start) :
    Writes mem start (xs ++ ys) (copy (copy mem start xs) 0 ys) := by
  have hstart : start ≤ mem.length := by omega
  have hcopy : copy mem start xs = mem.take start ++ xs := by
    rw [copy, hend, List.drop_length, List.append_nil]
  have htake : (mem.take start).length = start := by simp [hstart]
  have hmem : copy (copy mem start xs) 0 ys = ys ++ (mem.take start).drop ys.length ++ xs := by
    rw [hcopy, copy, List.take_zero, List.nil_append, Nat.zero_add,
      List.drop_append_of_le_length (by omega), List.append_assoc]
  have hlen : (ys ++ (mem.take start).drop ys.length).length = start := by
    rw [List.length_append, List.length_drop]
    omega
  refine ⟨?_, ?_⟩
  · rw [hmem, List.length_append, hlen]
    exact hend
  · rw [hmem, rotate_append hlen, List.rotate_eq_drop_append_take hstart, List.append_assoc, List.length_append,
      ← List.drop_drop, List.drop_append_of_le_length (by rw [List.length_drop]; omega), List.drop_drop, hend,
      List.drop_length, List.nil_append]

/-- Writing from `start` on, and what does not fit before the end at the beginning. -/
def copyAround (mem : List α) (start : Nat) (xs : List α) : List α :=
  copy (copy mem start (xs.take (mem.length - start))) 0 (xs.drop (mem.length - start))

theorem writes_copyAround (hstart : start ≤ mem.length) (h : xs.length ≤ mem.length) :
    Writes mem start xs (copyAround mem start xs) := by
  by_cases hfit : xs.length ≤ mem.length - start
  · have hsame : copyAround mem start xs = copy mem start xs := by
      rw [copyAround, List.take_of_length_le hfit, List.drop_of_length_le hfit]
      simp [copy]
    rw [hsame]
    exact writes_copy (by omega)
  · have hwrites : Writes mem start (xs.take (mem.length - start) ++ xs.drop (mem.length - start)) _ :=
      writes_copy_copy (by rw [List.length_take]; omega) (by rw [List.length_drop]; omega)
    rw [List.take_append_drop] at hwrites
    exact hwrites

theorem Writes.cells (h : Writes mem ((start + n) % mem.length) xs mem') (hn : n + xs.length ≤ mem.length) :
    cells mem' start (n + xs.length) = cells mem start n ++ xs := by
  have hturn : ((mem'.rotate start).rotate n) = xs ++ ((mem.rotate start).rotate n).drop xs.length := by
    have hrotate := h.rotate
    rw [List.rotate_mod, ← h.length, List.rotate_mod] at hrotate
    rw [List.rotate_rotate, List.rotate_rotate]
    exact hrotate
  have hlist : mem'.rotate start =
      (mem.rotate start).take n ++ (xs ++ (mem.rotate start).drop (n + xs.length)) := by
    have hsplit : (mem.rotate start).rotate n =
        (mem.rotate start).drop n ++ (mem.rotate start).take n :=
      List.rotate_eq_drop_append_take (by rw [List.length_rotate]; omega)
    have htake : ((mem.rotate start).take n).length = n := by
      rw [List.length_take, List.length_rotate]
      omega
    have hdrop : xs.length ≤ ((mem.rotate start).drop n).length := by
      rw [List.length_drop, List.length_rotate]
      omega
    rw [← List.rotate_eq_rotate (n := n), hturn, hsplit, List.drop_append_of_le_length hdrop, List.drop_drop,
      rotate_append htake, List.append_assoc]
  rw [Ring.cells, Ring.cells, hlist, ← List.append_assoc, List.take_left']
  rw [List.length_append, List.length_take, List.length_rotate]
  omega

end Vocal.Ring
