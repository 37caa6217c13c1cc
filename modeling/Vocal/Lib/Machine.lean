import Mathlib.Data.List.Basic

/-!
# Machines: runs, guarded runs and invariants

A machine takes one operation at a time and answers each with an output. The rules below carry a
property over a whole run: from one step (`run_of_step`), from one step that meets a condition
(`run_of_guarded`), and back from the states of a run to the conditions its steps meet
(`throughout_iff_along`).
-/

namespace Vocal

/-- A deterministic machine with operations `ι` and outputs `ο`. -/
structure Machine (σ ι ο : Type) where
  init : σ
  step : σ → ι → σ × ο

namespace Machine

variable {σ ι ο : Type} (M : Machine σ ι ο)

def next (s : σ) (op : ι) : σ := (M.step s op).1

def out (s : σ) (op : ι) : ο := (M.step s op).2

/-- The state after the operations `ops`, started in `s`. -/
def run (s : σ) : List ι → σ
  | [] => s
  | op :: ops => run (M.next s op) ops

/-- The operations of the run from `s` with their outputs. -/
def outs (s : σ) : List ι → List (ι × ο)
  | [] => []
  | op :: ops => (op, M.out s op) :: outs (M.next s op) ops

def Reachable (s : σ) : Prop := ∃ ops, s = M.run M.init ops

/-- Every step of the run from `s` meets the condition `G` on its operation and the state before. -/
def Along (G : σ → ι → Prop) (s : σ) : List ι → Prop
  | [] => True
  | op :: ops => G s op ∧ Along G (M.next s op) ops

/-- `P` holds in every state of the run from `s`, the first and the last included. -/
def Throughout (P : σ → Prop) (s : σ) : List ι → Prop
  | [] => P s
  | op :: ops => P s ∧ Throughout P (M.next s op) ops

@[simp] theorem run_nil (s : σ) : M.run s [] = s := rfl

@[simp] theorem run_cons (s : σ) (op : ι) (ops : List ι) :
    M.run s (op :: ops) = M.run (M.next s op) ops := rfl

theorem run_append (s : σ) (l₁ l₂ : List ι) : M.run s (l₁ ++ l₂) = M.run (M.run s l₁) l₂ := by
  induction l₁ generalizing s with
  | nil => rfl
  | cons op ops ih => exact ih _

theorem run_concat (s : σ) (ops : List ι) (op : ι) :
    M.run s (ops ++ [op]) = M.next (M.run s ops) op := by
  rw [run_append]; rfl

theorem along_append (G : σ → ι → Prop) (s : σ) (l₁ l₂ : List ι) :
    M.Along G s (l₁ ++ l₂) ↔ M.Along G s l₁ ∧ M.Along G (M.run s l₁) l₂ := by
  induction l₁ generalizing s with
  | nil => simp [Along]
  | cons op ops ih => simp only [List.cons_append, Along, ih, run_cons, and_assoc]

theorem exists_of_outs_eq_append {s : σ} {ops : List ι} {l₁ l₂ : List (ι × ο)} (h : M.outs s ops = l₁ ++ l₂) :
    ∃ ops₁ ops₂, ops = ops₁ ++ ops₂ ∧ M.outs s ops₁ = l₁ ∧ M.outs (M.run s ops₁) ops₂ = l₂ := by
  induction l₁ generalizing s ops with
  | nil => exact ⟨[], ops, rfl, rfl, h⟩
  | cons x l₁ ih =>
    cases ops with
    | nil => cases h
    | cons op ops =>
      obtain ⟨hx, hrest⟩ := List.cons.inj h
      obtain ⟨ops₁, ops₂, rfl, hl₁, hl₂⟩ := ih hrest
      exact ⟨op :: ops₁, ops₂, rfl, by rw [outs, hl₁, hx], hl₂⟩

theorem mem_of_mem_outs {s : σ} {ops : List ι} {x : ι × ο} (h : x ∈ M.outs s ops) : x.1 ∈ ops := by
  induction ops generalizing s with
  | nil => cases h
  | cons op ops ih =>
    rcases List.mem_cons.mp h with rfl | h
    · exact List.mem_cons_self ..
    · exact List.mem_cons_of_mem op (ih h)

theorem exists_of_outs_eq_cons {s : σ} {ops : List ι} {x : ι × ο} {l : List (ι × ο)} (h : M.outs s ops = x :: l) :
    ∃ ops', ops = x.1 :: ops' ∧ M.out s x.1 = x.2 ∧ M.outs (M.next s x.1) ops' = l := by
  cases ops with
  | nil => cases h
  | cons op ops =>
    obtain ⟨rfl, hrest⟩ := List.cons.inj h
    exact ⟨ops, rfl, rfl, hrest⟩

theorem reachable_init : M.Reachable M.init := ⟨[], rfl⟩

theorem Reachable.run {M : Machine σ ι ο} {s : σ} (hs : M.Reachable s) (ops : List ι) :
    M.Reachable (M.run s ops) := by
  obtain ⟨pre, rfl⟩ := hs
  exact ⟨pre ++ ops, (M.run_append _ _ _).symm⟩

theorem Reachable.next {M : Machine σ ι ο} {s : σ} (hs : M.Reachable s) (op : ι) :
    M.Reachable (M.next s op) :=
  hs.run [op]

variable {M}

/-- The invariant rule for steps that meet a condition. -/
theorem run_of_guarded {P : σ → Prop} {G : σ → ι → Prop}
    (hstep : ∀ s op, P s → G s op → P (M.next s op)) :
    ∀ (ops : List ι) (s : σ), P s → M.Along G s ops → P (M.run s ops) := by
  intro ops
  induction ops with
  | nil => intro s hs _; exact hs
  | cons op ops ih => intro s hs halong; exact ih _ (hstep s op hs halong.1) halong.2

/-- What `f` writes down along the run from `s`. -/
def log (M : Machine σ ι ο) {α : Type} (f : σ → ι → List α) (s : σ) : List ι → List α
  | [] => []
  | op :: ops => f s op ++ log M f (M.next s op) ops

theorem log_of_guarded {α : Type} {f : σ → ι → List α} {P : σ → List α → Prop} {G : σ → ι → Prop}
    (hstep : ∀ s l op, P s l → G s op → P (M.next s op) (l ++ f s op)) :
    ∀ (ops : List ι) (s : σ) (l : List α), P s l → M.Along G s ops → P (M.run s ops) (l ++ M.log f s ops) := by
  intro ops
  induction ops with
  | nil =>
    intro s l hs _
    rw [log, List.append_nil]
    exact hs
  | cons op ops ih =>
    intro s l hs halong
    rw [log, ← List.append_assoc]
    exact ih _ _ (hstep s l op hs halong.1) halong.2

/-- Two runs, one with only the operations that are kept. If the others preserve a relation between
the states by themselves, and a kept one preserves it and answers alike when it is seen, then the
relation holds at the end and what is seen is the same. -/
theorem run_filter {R : σ → σ → Prop} (keep seen : ι → Bool)
    (hseen : ∀ op, seen op = true → keep op = true)
    (hskip : ∀ s t op, R s t → keep op = false → R (M.next s op) t)
    (hkeep : ∀ s t op, R s t → keep op = true →
      R (M.next s op) (M.next t op) ∧ (seen op = true → M.out s op = M.out t op)) :
    ∀ (ops : List ι) (s t : σ), R s t →
      R (M.run s ops) (M.run t (ops.filter keep)) ∧
        (M.outs s ops).filter (seen ·.1) = (M.outs t (ops.filter keep)).filter (seen ·.1) := by
  intro ops
  induction ops with
  | nil => intro s t hR; exact ⟨hR, rfl⟩
  | cons op ops ih =>
    intro s t hR
    cases hop : keep op with
    | false =>
      have hunseen : seen op = false := by
        cases hs : seen op with
        | false => rfl
        | true => rw [hseen op hs] at hop; cases hop
      obtain ⟨hrun, houts⟩ := ih _ t (hskip s t op hR hop)
      rw [List.filter_cons_of_neg (by simp [hop])]
      refine ⟨hrun, ?_⟩
      rw [outs, List.filter_cons_of_neg (by simp [hunseen]), houts]
    | true =>
      obtain ⟨hnext, hout⟩ := hkeep s t op hR hop
      obtain ⟨hrun, houts⟩ := ih _ _ hnext
      rw [List.filter_cons_of_pos hop]
      refine ⟨hrun, ?_⟩
      rw [outs, outs]
      cases hs : seen op with
      | false =>
        rw [List.filter_cons_of_neg (by simp [hs]), List.filter_cons_of_neg (by simp [hs]), houts]
      | true =>
        rw [List.filter_cons_of_pos (by simp [hs]), List.filter_cons_of_pos (by simp [hs]), houts,
          hout hs]

theorem along_of_forall {G : ι → Prop} {ops : List ι} (h : ∀ op ∈ ops, G op) (s : σ) :
    M.Along (fun _ op => G op) s ops := by
  induction ops generalizing s with
  | nil => trivial
  | cons op ops ih =>
    exact ⟨h op (List.mem_cons_self ..), ih (fun op' hop' => h op' (List.mem_cons_of_mem _ hop')) _⟩

theorem Along.and {G R : σ → ι → Prop} {ops : List ι} {s : σ} (hG : M.Along G s ops)
    (hR : M.Along R s ops) : M.Along (fun s op => G s op ∧ R s op) s ops := by
  induction ops generalizing s with
  | nil => trivial
  | cons op ops ih => exact ⟨⟨hG.1, hR.1⟩, ih hG.2 hR.2⟩

/-- A condition that the steps meet, together with an invariant of such steps, gives what it implies
at each step. -/
theorem Along.imp {I : σ → Prop} {G R : σ → ι → Prop} (hI : ∀ s op, I s → G s op → I (M.next s op))
    (himp : ∀ s op, I s → G s op → R s op) :
    ∀ (ops : List ι) (s : σ), I s → M.Along G s ops → M.Along R s ops := by
  intro ops
  induction ops with
  | nil => intro s _ _; trivial
  | cons op ops ih =>
    intro s hs halong
    exact ⟨himp s op hs halong.1, ih _ (hI s op hs halong.1) halong.2⟩

theorem along_congr {G R : σ → ι → Prop} (h : ∀ s op, G s op ↔ R s op) (s : σ) (ops : List ι) :
    M.Along G s ops ↔ M.Along R s ops := by
  induction ops generalizing s with
  | nil => exact Iff.rfl
  | cons op ops ih => exact and_congr (h s op) (ih _)

theorem run_of_step {P : σ → Prop} (hstep : ∀ s op, P s → P (M.next s op)) (ops : List ι) (s : σ)
    (hs : P s) : P (M.run s ops) := by
  induction ops generalizing s with
  | nil => exact hs
  | cons op ops ih => exact ih _ (hstep s op hs)

theorem Reachable.induct {P : σ → Prop} (hinit : P M.init)
    (hstep : ∀ s op, P s → P (M.next s op)) {s : σ} (hs : M.Reachable s) : P s := by
  obtain ⟨ops, rfl⟩ := hs
  exact run_of_step hstep ops _ hinit

theorem Throughout.head {P : σ → Prop} {s : σ} {ops : List ι} (h : M.Throughout P s ops) : P s := by
  cases ops with
  | nil => exact h
  | cons op ops => exact h.1

theorem Throughout.last {P : σ → Prop} {s : σ} {ops : List ι} (h : M.Throughout P s ops) :
    P (M.run s ops) := by
  induction ops generalizing s with
  | nil => exact h
  | cons op ops ih => exact ih h.2

theorem Throughout.concat {P : σ → Prop} {s : σ} {ops : List ι} {op : ι} (h : M.Throughout P s ops)
    (hlast : P (M.run s (ops ++ [op]))) : M.Throughout P s (ops ++ [op]) := by
  induction ops generalizing s with
  | nil => exact ⟨h, hlast⟩
  | cons op' ops ih => exact ⟨h.1, ih h.2 hlast⟩

theorem throughout_of_guarded {P : σ → Prop} {G : σ → ι → Prop}
    (hstep : ∀ s op, P s → G s op → P (M.next s op)) :
    ∀ (ops : List ι) (s : σ), P s → M.Along G s ops → M.Throughout P s ops := by
  intro ops
  induction ops with
  | nil => intro s hs _; exact hs
  | cons op ops ih => intro s hs halong; exact ⟨hs, ih _ (hstep s op hs halong.1) halong.2⟩

theorem Throughout.mono {P Q : σ → Prop} (hPQ : ∀ s, P s → Q s) {s : σ} {ops : List ι}
    (h : M.Throughout P s ops) : M.Throughout Q s ops := by
  induction ops generalizing s with
  | nil => exact hPQ s h
  | cons op ops ih => exact ⟨hPQ s h.1, ih h.2⟩

theorem Throughout.along {P : σ → Prop} {s : σ} {ops : List ι} (h : M.Throughout P s ops) :
    M.Along (fun s op => P (M.next s op)) s ops := by
  induction ops generalizing s with
  | nil => trivial
  | cons op ops ih => exact ⟨h.2.head, ih h.2⟩

/-- Where a step from a state that satisfies `P` (and the invariant `I`) ends in one exactly if it
meets `G`, all states of a run satisfy `P` exactly if all its steps meet `G`. -/
theorem throughout_iff_along {I P : σ → Prop} {G : σ → ι → Prop}
    (hI : ∀ s op, I s → I (M.next s op))
    (hstep : ∀ s op, I s → P s → (P (M.next s op) ↔ G s op)) :
    ∀ (ops : List ι) (s : σ), I s → P s → (M.Throughout P s ops ↔ M.Along G s ops) := by
  intro ops
  induction ops with
  | nil => intro s _ hP; exact ⟨fun _ => trivial, fun _ => hP⟩
  | cons op ops ih =>
    intro s hs hP
    constructor
    · rintro ⟨_, hrest⟩
      exact ⟨(hstep s op hs hP).mp hrest.head, (ih _ (hI s op hs) hrest.head).mp hrest⟩
    · rintro ⟨hG, hrest⟩
      have hnext := (hstep s op hs hP).mpr hG
      exact ⟨hP, (ih _ (hI s op hs) hnext).mpr hrest⟩

end Machine

end Vocal
