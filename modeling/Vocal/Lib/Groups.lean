import Mathlib.Data.List.Basic

/-!
# Lists in groups

A list made of groups tells its groups when the items of each have a key of their own, or when each begins where an item
of one kind stands.
-/

namespace Vocal.Groups

variable {α κ : Type}

/-- Each group has the items of its key. -/
def Keyed (key : α → κ) : List κ → List (List α) → Prop := List.Forall₂ fun k group => ∀ a ∈ group, key a = k

theorem mem_keys {key : α → κ} {keys : List κ} {groups : List (List α)} (h : Keyed key keys groups) {a : α}
    (ha : a ∈ groups.flatten) : key a ∈ keys := by
  induction h with
  | nil => cases ha
  | cons hgroup _ ih =>
    rw [List.flatten_cons, List.mem_append] at ha
    rcases ha with ha | ha
    · exact hgroup _ ha ▸ List.mem_cons_self
    · exact List.mem_cons_of_mem _ (ih ha)

theorem append_inj_of_forall {p : α → Prop} {x y x' y' : List α} (hx : ∀ a ∈ x, p a) (hy : ∀ a ∈ y, ¬ p a)
    (hx' : ∀ a ∈ x', p a) (hy' : ∀ a ∈ y', ¬ p a) : x ++ y = x' ++ y' ↔ x = x' ∧ y = y' := by
  classical
  refine ⟨fun h => ?_, fun ⟨h, h'⟩ => by rw [h, h']⟩
  have hfilter := congrArg (List.filter fun a => decide (p a)) h
  have hnil : ∀ {z : List α}, (∀ a ∈ z, ¬ p a) → z.filter (fun a => decide (p a)) = [] := fun hz =>
    List.filter_eq_nil_iff.mpr fun a ha => mt of_decide_eq_true (hz a ha)
  have hself : ∀ {z : List α}, (∀ a ∈ z, p a) → z.filter (fun a => decide (p a)) = z := fun hz =>
    List.filter_eq_self.mpr fun a ha => decide_eq_true (hz a ha)
  rw [List.filter_append, List.filter_append, hself hx, hself hx', hnil hy, hnil hy', List.append_nil,
    List.append_nil] at hfilter
  exact ⟨hfilter, List.append_cancel_left (hfilter ▸ h)⟩

theorem flatten_inj_of_keyed {key : α → κ} {keys : List κ} (hkeys : keys.Nodup) {groups groups' : List (List α)}
    (h : Keyed key keys groups) (h' : Keyed key keys groups') :
    groups.flatten = groups'.flatten ↔ groups = groups' := by
  induction h generalizing groups' with
  | nil => cases h' with | nil => exact iff_of_true rfl rfl
  | cons hgroup hgroups ih =>
    cases h' with
    | cons hgroup' hgroups' =>
      obtain ⟨hk, hnodup⟩ := List.nodup_cons.mp hkeys
      rw [List.flatten_cons, List.flatten_cons, append_inj_of_forall hgroup (fun a ha => ?_) hgroup' (fun a ha => ?_),
        ih hnodup hgroups', List.cons.injEq]
      · rintro rfl
        exact hk (mem_keys hgroups ha)
      · rintro rfl
        exact hk (mem_keys hgroups' ha)

theorem append_inj_of_head {p : α → Prop} {x y x' y' : List α} (hx : ∀ a ∈ x, ¬ p a) (hy : ∀ a ∈ y.head?, p a)
    (hx' : ∀ a ∈ x', ¬ p a) (hy' : ∀ a ∈ y'.head?, p a) : x ++ y = x' ++ y' ↔ x = x' ∧ y = y' := by
  induction x generalizing x' with
  | nil =>
    cases x' with
    | nil => simp
    | cons a x' =>
      refine iff_of_false (fun h => ?_) fun h => nomatch h.1
      rw [List.nil_append] at h
      exact hx' a List.mem_cons_self (hy a (h ▸ rfl))
  | cons a x ih =>
    cases x' with
    | nil =>
      refine iff_of_false (fun h => ?_) fun h => nomatch h.1
      rw [List.nil_append] at h
      exact hx a List.mem_cons_self (hy' a (h ▸ rfl))
    | cons a' x' =>
      rw [List.cons_append, List.cons_append, List.cons.injEq, List.cons.injEq,
        ih (fun b hb => hx b (List.mem_cons_of_mem a hb)) (fun b hb => hx' b (List.mem_cons_of_mem a' hb)), and_assoc]

/-- A group that begins with the only item of a kind in it. -/
def Block (p : α → Prop) (group : List α) : Prop := ∃ a rest, group = a :: rest ∧ p a ∧ ∀ b ∈ rest, ¬ p b

theorem head?_flatten_of_block {p : α → Prop} {groups : List (List α)} (h : ∀ group ∈ groups, Block p group) :
    ∀ a ∈ groups.flatten.head?, p a := by
  cases groups with
  | nil => simp
  | cons group groups =>
    obtain ⟨a, rest, rfl, ha, -⟩ := h group List.mem_cons_self
    rintro b hb
    obtain rfl := Option.some.inj hb
    exact ha

theorem flatten_inj_of_block {p : α → Prop} {groups groups' : List (List α)} (h : ∀ group ∈ groups, Block p group)
    (h' : ∀ group ∈ groups', Block p group) : groups.flatten = groups'.flatten ↔ groups = groups' := by
  induction groups generalizing groups' with
  | nil =>
    cases groups' with
    | nil => exact iff_of_true rfl rfl
    | cons group' groups' =>
      obtain ⟨a, rest, rfl, -, -⟩ := h' group' List.mem_cons_self
      exact iff_of_false (fun h => nomatch h) (fun h => nomatch h)
  | cons group groups ih =>
    obtain ⟨⟨a, rest, rfl, ha, hrest⟩, hgroups⟩ := List.forall_mem_cons.mp h
    cases groups' with
    | nil => exact iff_of_false (fun h => nomatch h) (fun h => nomatch h)
    | cons group' groups' =>
      obtain ⟨⟨a', rest', rfl, ha', hrest'⟩, hgroups'⟩ := List.forall_mem_cons.mp h'
      rw [List.flatten_cons, List.flatten_cons, List.cons_append, List.cons_append, List.cons.injEq, List.cons.injEq,
        List.cons.injEq, append_inj_of_head hrest (head?_flatten_of_block hgroups) hrest'
          (head?_flatten_of_block hgroups'), ih hgroups hgroups', and_assoc]

end Vocal.Groups
