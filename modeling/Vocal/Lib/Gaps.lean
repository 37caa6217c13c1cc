import Mathlib.Order.Interval.Finset.Nat

/-!
# Gaps of ascending numbers

The numbers between the first and the last of a list, and those of them that the list passes over.
-/

namespace Vocal.Gaps

/-- From the first number to the last. -/
def span (l : List Nat) : Finset Nat :=
  match l with
  | [] => ∅
  | a :: l => Finset.Icc a ((a :: l).getLast (List.cons_ne_nil a l))

/-- The numbers that are passed over. -/
def gaps (l : List Nat) : Finset Nat := span l \ l.toFinset

variable {a m : Nat} {l l' : List Nat}

theorem le_of_mem (h : (a :: l).Pairwise (· < ·)) (hm : m ∈ a :: l) : a ≤ m := by
  rcases List.mem_cons.mp hm with rfl | hm
  · exact le_rfl
  · exact (List.rel_of_pairwise_cons h hm).le

theorem le_getLast (h : l.Pairwise (· < ·)) (hl : l ≠ []) (hm : m ∈ l) : m ≤ l.getLast hl := by
  induction l using List.reverseRecOn with
  | nil => cases hm
  | append_singleton l b ih =>
    rw [List.getLast_append_singleton]
    rcases List.mem_append.mp hm with hm | hm
    · exact ((List.pairwise_append.mp h).2.2 m hm b (List.mem_singleton_self b)).le
    · exact (List.mem_singleton.mp hm).le

theorem toFinset_subset_span (h : l.Pairwise (· < ·)) : l.toFinset ⊆ span l := by
  intro m hm
  rw [List.mem_toFinset] at hm
  cases l with
  | nil => cases hm
  | cons a l => exact Finset.mem_Icc.mpr ⟨le_of_mem h hm, le_getLast h _ hm⟩

theorem card_gaps (h : l.Pairwise (· < ·)) : (gaps l).card + l.length = (span l).card := by
  have hnodup : l.Nodup := h.imp ne_of_lt
  rw [← List.toFinset_card_of_nodup hnodup]
  exact Finset.card_sdiff_add_card_eq_card (toFinset_subset_span h)

theorem span_subset_append (h : (l ++ l').Pairwise (· < ·)) : span l ⊆ span (l ++ l') := by
  cases l with
  | nil => exact Finset.empty_subset _
  | cons a l =>
    refine Finset.Icc_subset_Icc le_rfl (le_getLast h _ ?_)
    exact List.mem_append_left l' (List.getLast_mem _)

theorem gaps_subset_append (h : (l ++ l').Pairwise (· < ·)) : gaps l ⊆ gaps (l ++ l') := by
  intro m hm
  obtain ⟨hspan, hnot⟩ := Finset.mem_sdiff.mp hm
  refine Finset.mem_sdiff.mpr ⟨span_subset_append h hspan, ?_⟩
  rw [List.mem_toFinset, List.mem_append]
  rintro (hl | hl')
  · exact hnot (List.mem_toFinset.mpr hl)
  · cases l with
    | nil => cases hspan
    | cons a l =>
      have hlast := (List.pairwise_append.mp h).2.2 _ (List.getLast_mem (List.cons_ne_nil a l)) m hl'
      exact absurd (Finset.mem_Icc.mp hspan).2 (not_le.mpr hlast)

theorem card_span (h : l.Pairwise (· < ·)) (hl : l ≠ []) : (span l).card = l.getLast hl + 1 - l.head hl := by
  cases l with
  | nil => exact absurd rfl hl
  | cons a l => rw [span, Nat.card_Icc, List.head_cons]

theorem head_le_getLast (h : l.Pairwise (· < ·)) (hl : l ≠ []) : l.head hl ≤ l.getLast hl :=
  le_getLast h hl (List.head_mem hl)

end Vocal.Gaps
