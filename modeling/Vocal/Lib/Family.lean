import Mathlib.Data.List.Basic
import Mathlib.Logic.Function.Basic

/-!
# Families of machines

One machine for each key, each with its own state, and a sequence of operations of which each is for one key. An
operation may fail, and then the run has no result. `runAt` runs one machine alone; a run of the family is the
runs of its machines side by side (`run_isSome_iff`, `runAt_of_run`).
-/

namespace Vocal.Family

variable {κ σ ι ο : Type} [DecidableEq κ] (key : ι → κ) (act : ι → σ → Option (σ × ο))

/-- The operation goes to the machine of its key. -/
def step (c : κ → σ) (op : ι) : Option ((κ → σ) × ο) :=
  (act op (c (key op))).map fun x => (Function.update c (key op) x.1, x.2)

/-- The run of the family, with the outputs. -/
def run (c : κ → σ) : List ι → Option ((κ → σ) × List ο)
  | [] => some (c, [])
  | op :: ops => (step key act c op).bind fun x => (run x.1 ops).map fun y => (y.1, x.2 :: y.2)

/-- The run of one machine, with the outputs. -/
def runAt (s : σ) : List ι → Option (σ × List ο)
  | [] => some (s, [])
  | op :: ops => (act op s).bind fun x => (runAt x.1 ops).map fun y => (y.1, x.2 :: y.2)

/-- The operations for one key. -/
def opsAt (k : κ) (ops : List ι) : List ι := ops.filter (key · = k)

/-- The outputs of the operations for one key. -/
def outsAt (k : κ) : List ι → List ο → List ο
  | op :: ops, o :: os => if key op = k then o :: outsAt k ops os else outsAt k ops os
  | _, _ => []

variable {key act}

theorem opsAt_cons_self (op : ι) (ops : List ι) : opsAt key (key op) (op :: ops) = op :: opsAt key (key op) ops :=
  List.filter_cons_of_pos (by simp)

theorem opsAt_cons_of_ne {k : κ} {op : ι} (h : key op ≠ k) (ops : List ι) :
    opsAt key k (op :: ops) = opsAt key k ops := List.filter_cons_of_neg (by simpa using h)

theorem step_eq_some {c c' : κ → σ} {op : ι} {o : ο} (h : step key act c op = some (c', o)) :
    ∃ s, act op (c (key op)) = some (s, o) ∧ c' = Function.update c (key op) s := by
  unfold step at h
  obtain ⟨x, hx, heq⟩ := Option.map_eq_some_iff.mp h
  obtain ⟨rfl, rfl⟩ := Prod.mk.inj heq
  exact ⟨x.1, hx, rfl⟩

theorem step_of_ne {c c' : κ → σ} {op : ι} {o : ο} (h : step key act c op = some (c', o)) {k : κ}
    (hk : k ≠ key op) : c' k = c k := by
  obtain ⟨s, -, rfl⟩ := step_eq_some h
  exact Function.update_of_ne hk s c

theorem run_cons_eq_some {c c' : κ → σ} {op : ι} {ops : List ι} {outs : List ο}
    (h : run key act c (op :: ops) = some (c', outs)) :
    ∃ s o os, act op (c (key op)) = some (s, o) ∧
      run key act (Function.update c (key op) s) ops = some (c', os) ∧ outs = o :: os := by
  unfold run at h
  obtain ⟨⟨c₁, o⟩, hstep, hrest⟩ := Option.bind_eq_some_iff.mp h
  obtain ⟨⟨c₂, os⟩, hrun, heq⟩ := Option.map_eq_some_iff.mp hrest
  obtain ⟨rfl, rfl⟩ := Prod.mk.inj heq
  obtain ⟨s, hact, rfl⟩ := step_eq_some hstep
  exact ⟨s, o, os, hact, hrun, rfl⟩

/-- What each machine ends in, and answers, in a run of the family is what it does alone. -/
theorem runAt_of_run {c c' : κ → σ} {ops : List ι} {outs : List ο} (h : run key act c ops = some (c', outs))
    (k : κ) : runAt act (c k) (opsAt key k ops) = some (c' k, outsAt key k ops outs) := by
  induction ops generalizing c outs with
  | nil =>
    obtain ⟨rfl, rfl⟩ := Prod.mk.inj (Option.some.inj h)
    rfl
  | cons op ops ih =>
    obtain ⟨s, o, os, hact, hrun, rfl⟩ := run_cons_eq_some h
    have hk := ih hrun
    by_cases hop : key op = k
    · subst hop
      rw [Function.update_self] at hk
      rw [opsAt_cons_self, runAt, hact, Option.bind_some, hk, outsAt, if_pos rfl]
      rfl
    · rw [Function.update_of_ne (Ne.symm hop)] at hk
      rw [opsAt_cons_of_ne hop, outsAt, if_neg hop, hk]

theorem run_isSome_iff (c : κ → σ) (ops : List ι) :
    (run key act c ops).isSome ↔ ∀ k, (runAt act (c k) (opsAt key k ops)).isSome := by
  constructor
  · intro h k
    obtain ⟨⟨c', outs⟩, hrun⟩ := Option.isSome_iff_exists.mp h
    rw [runAt_of_run hrun k]
    rfl
  · intro h
    induction ops generalizing c with
    | nil => rfl
    | cons op ops ih =>
      have hop := h (key op)
      rw [opsAt_cons_self, runAt] at hop
      obtain ⟨y, hy⟩ := Option.isSome_iff_exists.mp hop
      obtain ⟨⟨s, o⟩, hact, hrest⟩ := Option.bind_eq_some_iff.mp hy
      obtain ⟨z, hz, -⟩ := Option.map_eq_some_iff.mp hrest
      have hstep : step key act c op = some (Function.update c (key op) s, o) := by rw [step, hact]; rfl
      rw [run, hstep, Option.bind_some, Option.isSome_map]
      refine ih (Function.update c (key op) s) fun k => ?_
      by_cases hk : key op = k
      · subst hk
        rw [Function.update_self, hz]
        rfl
      · rw [Function.update_of_ne (Ne.symm hk), ← opsAt_cons_of_ne hk]
        exact h k

end Vocal.Family
