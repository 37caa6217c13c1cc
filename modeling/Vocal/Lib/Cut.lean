import Mathlib.Data.List.DropRight

/-!
# Cutting lists

`cut p l` cuts a list at its first element that satisfies `p`: the elements before, the element and
those after it. `cut_eq_some_iff` describes the cut without the search, and `cut_append` computes it.
`cutFrom` looks for the element with a state that goes on with each one. `trim p l` drops the elements
that satisfy `p` from both ends. `Woven` puts pieces together again.
-/

namespace Vocal.Cut

variable {α : Type} {p q : α → Bool}

/-- The first element that satisfies `p`, with what stands before and after it. -/
def cut (p : α → Bool) : List α → Option (List α × α × List α)
  | [] => none
  | a :: l => if p a then some ([], a, l) else (cut p l).map fun c => (a :: c.1, c.2)

theorem cut_eq_none_iff {l : List α} : cut p l = none ↔ ∀ a ∈ l, p a = false := by
  induction l with
  | nil => simp [cut]
  | cons a l ih =>
    rw [cut]
    cases ha : p a with
    | true => simp [ha]
    | false => simp [ha, ih]

theorem cut_append {x y : List α} {a : α} (hx : ∀ b ∈ x, p b = false) (ha : p a = true) :
    cut p (x ++ a :: y) = some (x, a, y) := by
  induction x with
  | nil => simp [cut, ha]
  | cons b x ih =>
    rw [List.cons_append, cut, hx b (List.mem_cons_self ..), ih fun c hc => hx c (List.mem_cons_of_mem _ hc)]
    rfl

theorem cut_eq_some_iff {l x y : List α} {a : α} :
    cut p l = some (x, a, y) ↔ l = x ++ a :: y ∧ (∀ b ∈ x, p b = false) ∧ p a = true := by
  constructor
  · intro h
    induction l generalizing x with
    | nil => cases h
    | cons b l ih =>
      rw [cut] at h
      cases hb : p b with
      | true =>
        rw [hb, if_pos rfl, Option.some.injEq, Prod.mk.injEq, Prod.mk.injEq] at h
        obtain ⟨rfl, rfl, rfl⟩ := h
        exact ⟨rfl, by simp, hb⟩
      | false =>
        rw [hb, if_neg (by simp)] at h
        obtain ⟨⟨x', a', y'⟩, hc, heq⟩ := Option.map_eq_some_iff.mp h
        simp only [Prod.mk.injEq] at heq
        obtain ⟨rfl, rfl, rfl⟩ := heq
        obtain ⟨rfl, hx', ha'⟩ := ih hc
        refine ⟨rfl, ?_, ha'⟩
        intro c hc'
        rcases List.mem_cons.mp hc' with rfl | hc'
        · exact hb
        · exact hx' c hc'
  · rintro ⟨rfl, hx, ha⟩
    exact cut_append hx ha

theorem append_cons_inj [DecidableEq α] {a : α} {x y z z' : List α} (hx : a ∉ x) (hy : a ∉ y) :
    x ++ a :: z = y ++ a :: z' ↔ x = y ∧ z = z' := by
  refine ⟨fun h => ?_, fun ⟨h, h'⟩ => by rw [h, h']⟩
  have hcut := congrArg (cut (fun b : α => decide (b = a))) h
  have hnot : ∀ t : List α, a ∉ t → ∀ b ∈ t, decide (b = a) = false := by
    intro t ht b hb
    rw [decide_eq_false_iff_not]
    rintro rfl
    exact ht hb
  rw [cut_append (hnot x hx) (by simp), cut_append (hnot y hy) (by simp), Option.some_inj] at hcut
  exact ⟨congrArg (·.1) hcut, congrArg (·.2.2) hcut⟩

/-! ### Cutting with a state -/

section cutFrom

variable {σ α : Type} (look : σ → α → σ × Bool)

/-- The first element that `look` finds, with the state after it, what stands before it and what stands behind. -/
def cutFrom : σ → List α → Option (σ × List α × α × List α)
  | _, [] => none
  | s, a :: l =>
    if (look s a).2 then some ((look s a).1, [], a, l)
    else (cutFrom (look s a).1 l).map fun c => (c.1, a :: c.2.1, c.2.2)

/-- The state after a list in which nothing is found. -/
def stateAfter (s : σ) (l : List α) : σ := l.foldl (fun s a => (look s a).1) s

variable {look}

theorem cutFrom_eq_some {s s' : σ} {l x y : List α} {a : α} (h : cutFrom look s l = some (s', x, a, y)) :
    l = x ++ a :: y ∧ look (stateAfter look s x) a = (s', true) := by
  induction l generalizing s x with
  | nil => cases h
  | cons b l ih =>
    rw [cutFrom] at h
    split at h
    · rename_i hb
      cases h
      exact ⟨rfl, Prod.ext rfl hb⟩
    · obtain ⟨⟨s₁, x₁, a₁, y₁⟩, hc, heq⟩ := Option.map_eq_some_iff.mp h
      cases heq
      obtain ⟨rfl, hlook⟩ := ih hc
      exact ⟨rfl, hlook⟩

theorem cutFrom_map {p : α → Bool} (hp : ∀ s a, (look s a).2 = p a) (s : σ) (l : List α) :
    (cutFrom look s l).map (·.2) = cut p l := by
  induction l generalizing s with
  | nil => rfl
  | cons a l ih =>
    rw [cutFrom, cut, hp, ← ih (look s a).1]
    split
    · rfl
    · rw [Option.map_map, Option.map_map]
      rfl

end cutFrom

/-! ### Trimming -/

/-- Drops the elements that satisfy `p` from both ends. -/
def trim (p : α → Bool) (l : List α) : List α := (l.dropWhile p).rdropWhile p

/-- No element at either end satisfies `p`. -/
def Trimmed (p : α → Bool) (l : List α) : Prop :=
  (∀ a ∈ l.head?, p a = false) ∧ ∀ a ∈ l.getLast?, p a = false

theorem dropWhile_eq_self_of_head {l : List α} (h : ∀ a ∈ l.head?, p a = false) : l.dropWhile p = l := by
  cases l with
  | nil => rfl
  | cons a l => rw [List.dropWhile_cons_of_neg (by simp [h a rfl])]

theorem rdropWhile_eq_self_of_getLast {l : List α} (h : ∀ a ∈ l.getLast?, p a = false) :
    l.rdropWhile p = l := by
  rw [List.rdropWhile_eq_self_iff]
  intro hl
  rw [h _ (List.getLast?_eq_some_getLast hl)]
  exact Bool.false_ne_true

theorem head?_dropWhile (l : List α) : ∀ a ∈ (l.dropWhile p).head?, p a = false := by
  intro a ha
  have h := List.head?_dropWhile_not p l
  rw [Option.mem_def.mp ha] at h
  exact h

theorem getLast?_rdropWhile (l : List α) : ∀ a ∈ (l.rdropWhile p).getLast?, p a = false := by
  intro a ha
  rw [List.rdropWhile, List.getLast?_reverse] at ha
  exact head?_dropWhile _ a ha

theorem trim_eq_self {l : List α} (h : Trimmed p l) : trim p l = l := by
  rw [trim, dropWhile_eq_self_of_head h.1, rdropWhile_eq_self_of_getLast h.2]

theorem trim_append_right {l s : List α} (hl : Trimmed p l) (hs : ∀ a ∈ s, p a = true) (hne : l ≠ []) :
    trim p (l ++ s) = l := by
  have hdrop : (l ++ s).dropWhile p = l ++ s := by
    apply dropWhile_eq_self_of_head
    intro a ha
    apply hl.1 a
    cases l with
    | nil => exact absurd rfl hne
    | cons b l => exact ha
  have hrev : (s.reverse ++ l.reverse).dropWhile p = l.reverse.dropWhile p :=
    List.dropWhile_append_of_pos fun a ha => hs a (List.mem_reverse.mp ha)
  rw [trim, hdrop, List.rdropWhile, List.reverse_append, hrev]
  exact rdropWhile_eq_self_of_getLast hl.2

theorem head?_of_append {l m : List α} (hl : l ≠ []) : (l ++ m).head? = l.head? := by
  cases l with
  | nil => exact absurd rfl hl
  | cons a l => rfl

theorem trimmed_trim (l : List α) : Trimmed p (trim p l) := by
  refine ⟨?_, getLast?_rdropWhile _⟩
  intro a ha
  obtain ⟨m, hm⟩ : trim p l <+: l.dropWhile p := List.rdropWhile_prefix _ _
  have hne : trim p l ≠ [] := by
    intro h
    rw [h] at ha
    cases ha
  refine head?_dropWhile l a ?_
  rw [← hm, head?_of_append hne]
  exact ha

theorem length_trim_le (l : List α) : (trim p l).length ≤ l.length :=
  (List.rdropWhile_prefix _ _).length_le.trans (List.dropWhile_suffix p).length_le

/-- Only a list that is trimmed keeps its length. -/
theorem trimmed_of_length {l : List α} (h : l.length ≤ (trim p l).length) : Trimmed p l := by
  have hdrop := (List.dropWhile_suffix (l := l) p).length_le
  have hrdrop := (List.rdropWhile_prefix (p := p) (l := l.dropWhile p)).length_le
  have heq : trim p l = l := by
    have h₁ : l.dropWhile p = l :=
      (List.dropWhile_suffix (l := l) p).eq_of_length (by rw [trim] at h; omega)
    have h₂ : (l.dropWhile p).rdropWhile p = l.dropWhile p :=
      (List.rdropWhile_prefix (p := p) (l := l.dropWhile p)).eq_of_length (by rw [trim] at h; omega)
    rw [trim, h₂, h₁]
  rw [← heq]
  exact trimmed_trim l

theorem mem_trim_of_mem {l : List α} {a : α} (ha : a ∈ l) (hp : p a = false) : a ∈ trim p l := by
  have hdrop : a ∈ l.dropWhile p := by
    rw [← List.takeWhile_append_dropWhile (p := p) (l := l)] at ha
    rcases List.mem_append.mp ha with ha | ha
    · rw [List.mem_takeWhile_imp ha] at hp
      cases hp
    · exact ha
  rw [trim]
  rw [← List.rdropWhile_append_rtakeWhile (p := p) (l := l.dropWhile p)] at hdrop
  rcases List.mem_append.mp hdrop with h | h
  · exact h
  · rw [List.mem_rtakeWhile_imp h] at hp
    cases hp

theorem exists_trim (l : List α) :
    ∃ a b, l = a ++ trim p l ++ b ∧ (∀ x ∈ a, p x = true) ∧ ∀ x ∈ b, p x = true := by
  refine ⟨l.takeWhile p, (l.dropWhile p).rtakeWhile p, ?_, fun x hx => List.mem_takeWhile_imp hx,
    fun x hx => List.mem_rtakeWhile_imp hx⟩
  unfold trim
  rw [List.append_assoc, List.rdropWhile_append_rtakeWhile, List.takeWhile_append_dropWhile]

theorem mem_of_mem_trim {l : List α} {a : α} (ha : a ∈ trim p l) : a ∈ l :=
  (List.dropWhile_suffix p).subset ((List.rdropWhile_prefix _ _).subset ha)

/-! ### Pieces and gaps -/

/-- The list is the pieces in order, with a gap of the kind between any two. -/
inductive Woven (Gap : List α → Prop) : List (List α) → List α → Prop
  | last (piece : List α) : Woven Gap [piece] piece
  | cons {pieces : List (List α)} {l : List α} (piece gap : List α) :
      Gap gap → Woven Gap pieces l → Woven Gap (piece :: pieces) (piece ++ gap ++ l)

end Vocal.Cut
