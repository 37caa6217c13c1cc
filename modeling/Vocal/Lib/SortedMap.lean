import Mathlib.Data.List.Induction
import Mathlib.Order.Lattice

/-!
# Maps as sorted lists

A map as the list of its entries in the order of the keys, which is the order in which it is written out.
-/

namespace Vocal.SortedMap

variable {K V : Type} [LinearOrder K] {k : K} {v : V} {m : List (K × V)} {p : K × V}

/-- Sets the value of a key. -/
def insert (k : K) (v : V) : List (K × V) → List (K × V)
  | [] => [(k, v)]
  | p :: m => if k < p.1 then (k, v) :: p :: m else if k = p.1 then (k, v) :: m else p :: insert k v m

/-- The keys increase. -/
def Sorted (m : List (K × V)) : Prop := m.Pairwise fun p q => p.1 < q.1

theorem mem_of_mem_insert (hp : p ∈ insert k v m) : p = (k, v) ∨ p ∈ m := by
  induction m with
  | nil => exact Or.inl (List.mem_singleton.mp hp)
  | cons q m ih =>
    rw [insert] at hp
    split_ifs at hp
    · exact List.mem_cons.mp hp
    · exact (List.mem_cons.mp hp).imp_right (List.mem_cons_of_mem q)
    · rcases List.mem_cons.mp hp with rfl | hp
      · exact Or.inr (List.mem_cons_self ..)
      · exact (ih hp).imp_right (List.mem_cons_of_mem q)

theorem sorted_nil : Sorted ([] : List (K × V)) := List.Pairwise.nil

theorem Sorted.insert (h : Sorted m) : Sorted (insert k v m) := by
  induction m with
  | nil => exact List.pairwise_singleton _ _
  | cons q m ih =>
    obtain ⟨hq, hm⟩ := List.pairwise_cons.mp h
    rw [SortedMap.insert]
    split_ifs with hlt heq
    · refine List.pairwise_cons.mpr ⟨fun p hp => ?_, h⟩
      rcases List.mem_cons.mp hp with rfl | hp
      · exact hlt
      · exact hlt.trans (hq p hp)
    · refine List.pairwise_cons.mpr ⟨fun p hp => ?_, hm⟩
      rw [heq]
      exact hq p hp
    · refine List.pairwise_cons.mpr ⟨fun p hp => ?_, ih hm⟩
      rcases mem_of_mem_insert hp with rfl | hp
      · exact lt_of_le_of_ne (not_lt.mp hlt) (Ne.symm heq)
      · exact hq p hp

theorem insert_of_forall_lt (h : ∀ p ∈ m, p.1 < k) : insert k v m = m ++ [(k, v)] := by
  induction m with
  | nil => rfl
  | cons q m ih =>
    have hq := h q (List.mem_cons_self ..)
    rw [insert, if_neg hq.not_gt, if_neg hq.ne', ih fun p hp => h p (List.mem_cons_of_mem q hp)]
    rfl

theorem length_insert_le : (insert k v m).length ≤ m.length + 1 := by
  induction m with
  | nil => exact Nat.le_refl _
  | cons q m ih =>
    rw [insert]
    split_ifs
    · exact Nat.le_refl _
    · exact Nat.le_succ _
    · exact Nat.succ_le_succ ih

theorem foldl_insert (h : Sorted m) : m.foldl (fun acc p => insert p.1 p.2 acc) [] = m := by
  induction m using List.reverseRecOn with
  | nil => rfl
  | append_singleton m p ih =>
    obtain ⟨hm, -, hlt⟩ := List.pairwise_append.mp h
    rw [List.foldl_append, ih hm]
    exact insert_of_forall_lt fun q hq => hlt q hq p (List.mem_singleton_self p)

/-- The value of a key. -/
def lookup (k : K) : List (K × V) → Option V
  | [] => none
  | p :: m => if k = p.1 then some p.2 else lookup k m

@[simp] theorem lookup_nil : lookup k ([] : List (K × V)) = none := rfl

@[simp] theorem lookup_insert : lookup k (insert k v m) = some v := by
  induction m with
  | nil => simp [insert, lookup]
  | cons p m ih =>
    rw [insert]
    split_ifs with hlt heq
    · exact if_pos rfl
    · exact if_pos rfl
    · rw [lookup, if_neg heq, ih]

theorem lookup_insert_of_ne {k' : K} (hne : k' ≠ k) : lookup k' (insert k v m) = lookup k' m := by
  induction m with
  | nil => simp [insert, lookup, hne]
  | cons p m ih =>
    rw [insert]
    split_ifs with hlt heq
    · rw [lookup, if_neg hne]
    · rw [lookup, lookup, if_neg hne, if_neg (heq ▸ hne)]
    · rw [lookup, lookup, ih]

theorem mem_of_lookup (h : lookup k m = some v) : (k, v) ∈ m := by
  induction m with
  | nil => cases h
  | cons p m ih =>
    rw [lookup] at h
    split_ifs at h with heq
    · obtain rfl := Option.some.inj h
      rw [heq]
      exact List.mem_cons_self ..
    · exact List.mem_cons_of_mem p (ih h)

theorem Sorted.lookup_of_mem (h : Sorted m) (hp : p ∈ m) : lookup p.1 m = some p.2 := by
  induction m with
  | nil => cases hp
  | cons q m ih =>
    obtain ⟨hq, hm⟩ := List.pairwise_cons.mp h
    rw [lookup]
    rcases List.mem_cons.mp hp with rfl | hp
    · exact if_pos rfl
    · rw [if_neg (hq p hp).ne', ih hm hp]

theorem Sorted.filter (h : Sorted m) (keep : K × V → Bool) : Sorted (m.filter keep) :=
  List.Pairwise.filter keep h

theorem Sorted.lookup_filter (h : Sorted m) (keep : K × V → Bool) :
    lookup k (m.filter keep) = (lookup k m).filter fun v => keep (k, v) := by
  rw [Option.ext_iff]
  intro v
  rw [Option.filter_eq_some_iff]
  constructor
  · intro hv
    obtain ⟨hmem, hkeep⟩ := List.mem_filter.mp (mem_of_lookup hv)
    exact ⟨h.lookup_of_mem hmem, hkeep⟩
  · rintro ⟨hv, hkeep⟩
    exact (h.filter keep).lookup_of_mem (List.mem_filter.mpr ⟨mem_of_lookup hv, hkeep⟩)

end Vocal.SortedMap
