import Mathlib.Data.Fin.Basic
import Mathlib.Data.List.Basic
import Mathlib.Logic.Function.Basic

/-!
# Queues in a ring of slots

A queue that lies in consecutive slots of a ring, from the slot that is played next. `Holds` relates the slots
to the queue; the lemmas say what the operations on the slots do to it. A slot without a value is free.
-/

namespace Vocal.Slots

variable {α : Type} {n j k : Nat} {play : Fin n}

/-- The slot a number of slots after another. -/
def slot (play : Fin n) (k : Nat) : Fin n := ⟨(play + k) % n, Nat.mod_lt _ play.pos⟩

theorem val_slot (play : Fin n) (hk : k ≤ n) :
    (slot play k).val = if play.val + k < n then play.val + k else play.val + k - n := by
  have hplay := play.isLt
  show (play.val + k) % n = _
  split
  · rename_i hlt
    exact Nat.mod_eq_of_lt hlt
  · rename_i hge
    rw [Nat.mod_eq_sub_mod (Nat.le_of_not_lt hge), Nat.mod_eq_of_lt (by omega)]

@[simp] theorem slot_zero (play : Fin n) : slot play 0 = play :=
  Fin.ext (Nat.mod_eq_of_lt play.isLt)

@[simp] theorem slot_turn (play : Fin n) : slot play n = play := by
  apply Fin.ext
  rw [val_slot play le_rfl, if_neg (by omega)]
  omega

theorem slot_slot (play : Fin n) (j k : Nat) : slot (slot play j) k = slot play (j + k) := by
  apply Fin.ext
  show ((play.val + j) % n + k) % n = (play.val + (j + k)) % n
  rw [Nat.mod_add_mod, Nat.add_assoc]

theorem slot_inj (hj : j < n) (hk : k < n) (h : slot play j = slot play k) : j = k := by
  have hval := congrArg Fin.val h
  have hplay := play.isLt
  rw [val_slot play hj.le, val_slot play hk.le] at hval
  split_ifs at hval <;> omega

theorem exists_slot (play i : Fin n) : ∃ k < n, slot play k = i := by
  have hplay := play.isLt
  have hi := i.isLt
  by_cases hle : play.val ≤ i.val
  · refine ⟨i - play, by omega, Fin.ext ?_⟩
    rw [val_slot play (by omega), if_pos (by omega)]
    omega
  · refine ⟨n - play + i, by omega, Fin.ext ?_⟩
    rw [val_slot play (by omega), if_neg (by omega)]
    omega

/-! ### Queues -/

/-- The slots from `play` on hold the queue, and the others are free. -/
structure Holds (slots : Fin n → Option α) (play : Fin n) (q : List α) : Prop where
  le : q.length ≤ n
  item : ∀ k < n, slots (slot play k) = q[k]?

variable {slots : Fin n → Option α} {q q' : List α} {x y : α}

namespace Holds

theorem empty (play : Fin n) : Holds (fun _ => (none : Option α)) play [] :=
  ⟨Nat.zero_le _, fun _ _ => rfl⟩

theorem unique (h : Holds slots play q) (h' : Holds slots play q') : q = q' := by
  apply List.ext_getElem?
  intro k
  by_cases hk : k < n
  · rw [← h.item k hk, ← h'.item k hk]
  · have hle := h.le
    have hle' := h'.le
    rw [List.getElem?_eq_none (by omega), List.getElem?_eq_none (by omega)]

theorem head (h : Holds slots play q) : slots play = q.head? := by
  have hitem := h.item 0 play.pos
  rw [slot_zero] at hitem
  rw [hitem, List.head?_eq_getElem?]

theorem push (h : Holds slots play q) (hlt : q.length < n) (x : α) :
    Holds (Function.update slots (slot play q.length) (some x)) play (q ++ [x]) := by
  refine ⟨by simp; omega, fun k hk => ?_⟩
  by_cases hend : k = q.length
  · rw [hend, Function.update_self]
    simp
  · rw [Function.update_of_ne fun heq => hend (slot_inj hk hlt heq), h.item k hk]
    rcases Nat.lt_or_gt_of_ne hend with hbefore | hafter
    · rw [List.getElem?_append_left hbefore]
    · rw [List.getElem?_eq_none (by omega), List.getElem?_eq_none (by simp; omega)]

theorem item_next (h : Holds slots play (x :: q)) (hk : k + 1 < n) (v : Option α) :
    Function.update slots play v (slot (slot play 1) k) = q[k]? := by
  rw [slot_slot, Nat.add_comm 1 k]
  have hne : slot play (k + 1) ≠ play := by
    intro heq
    rw [← slot_zero play, slot_slot, Nat.zero_add] at heq
    exact absurd (slot_inj hk (by omega) heq) (by omega)
  rw [Function.update_of_ne hne, h.item (k + 1) hk]
  simp

theorem pop (h : Holds slots play (x :: q)) : Holds (Function.update slots play none) (slot play 1) q := by
  have hle : q.length + 1 ≤ n := h.le
  refine ⟨by omega, fun k hk => ?_⟩
  by_cases hlast : k + 1 = n
  · rw [slot_slot, Nat.add_comm 1 k, hlast, slot_turn, Function.update_self, List.getElem?_eq_none (by omega)]
  · exact h.item_next (by omega) none

theorem rotate (h : Holds slots play (x :: q)) (hfull : q.length + 1 = n) (y : α) :
    Holds (Function.update slots play (some y)) (slot play 1) (q ++ [y]) := by
  refine ⟨by simp [hfull], fun k hk => ?_⟩
  by_cases hlast : k + 1 = n
  · rw [slot_slot, Nat.add_comm 1 k, hlast, slot_turn, Function.update_self]
    have hend : k = q.length := by omega
    rw [hend]
    simp
  · rw [h.item_next (by omega) (some y), List.getElem?_append_left (by omega)]

theorem set (h : Holds slots play q) (hk : k < q.length) (y : α) :
    Holds (Function.update slots (slot play k) (some y)) play (q.set k y) := by
  have hle := h.le
  refine ⟨by simpa using hle, fun j hj => ?_⟩
  by_cases hjk : j = k
  · rw [hjk, Function.update_self, List.getElem?_set_self hk]
  · rw [Function.update_of_ne fun heq => hjk (slot_inj hj (by omega) heq), h.item j hj,
      List.getElem?_set_ne (Ne.symm hjk)]

end Holds

end Vocal.Slots
