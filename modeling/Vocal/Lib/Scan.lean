import Mathlib.Data.List.Basic

/-!
# Scanning lists

`scan stop l` takes elements off a list up to the first one at which to stop. The question whether to stop may itself
fail, and the scan fails with it. `scan_eq_ok_iff` and `scan_eq_error_iff` describe both ends without the recursion.
-/

namespace Vocal.Scan

variable {α ε : Type} {stop : α → Except ε Bool}

/-- The elements in front of the first one at which to stop, and the rest. -/
def scan (stop : α → Except ε Bool) : List α → Except ε (List α × List α)
  | [] => .ok ([], [])
  | a :: l => do
    if ← stop a then return ([], a :: l)
    let (x, rest) ← scan stop l
    return (a :: x, rest)

theorem scan_cons_true {a : α} {l : List α} (h : stop a = .ok true) : scan stop (a :: l) = .ok ([], a :: l) := by
  rw [scan, h]
  rfl

theorem scan_cons_false {a : α} {l : List α} (h : stop a = .ok false) :
    scan stop (a :: l) = (scan stop l).map fun x => (a :: x.1, x.2) := by
  rw [scan, h]
  cases hl : scan stop l with
  | error e => simp [bind, Except.bind, Except.map]
  | ok x => simp [bind, Except.bind, Except.map, pure, Except.pure]

theorem scan_cons_error {a : α} {l : List α} {e : ε} (h : stop a = .error e) : scan stop (a :: l) = .error e := by
  rw [scan, h]
  rfl

theorem scan_append {x rest : List α} (hx : ∀ a ∈ x, stop a = .ok false) (hrest : ∀ a ∈ rest.head?, stop a = .ok true) :
    scan stop (x ++ rest) = .ok (x, rest) := by
  induction x with
  | nil =>
    cases rest with
    | nil => rfl
    | cons a rest => exact scan_cons_true (hrest a rfl)
  | cons a x ih =>
    rw [List.cons_append, scan_cons_false (hx a (List.mem_cons_self ..)), ih fun b hb => hx b (List.mem_cons_of_mem _ hb)]
    rfl

theorem scan_eq_ok_iff {l x rest : List α} :
    scan stop l = .ok (x, rest) ↔
      l = x ++ rest ∧ (∀ a ∈ x, stop a = .ok false) ∧ ∀ a ∈ rest.head?, stop a = .ok true := by
  constructor
  · intro h
    induction l generalizing x with
    | nil =>
      obtain ⟨rfl, rfl⟩ : [] = x ∧ [] = rest := by simpa [scan] using h
      simp
    | cons a l ih =>
      cases ha : stop a with
      | error e =>
        rw [scan_cons_error ha] at h
        cases h
      | ok b =>
        cases b with
        | true =>
          rw [scan_cons_true ha] at h
          obtain ⟨rfl, rfl⟩ : [] = x ∧ a :: l = rest := by simpa using h
          simpa using ha
        | false =>
          rw [scan_cons_false ha] at h
          cases hl : scan stop l with
          | error e =>
            rw [hl] at h
            cases h
          | ok y =>
            rw [hl] at h
            obtain ⟨rfl, rfl⟩ : a :: y.1 = x ∧ y.2 = rest := by simpa [Except.map] using h
            obtain ⟨rfl, hx, hrest⟩ := ih hl
            refine ⟨rfl, ?_, hrest⟩
            intro b hb
            rcases List.mem_cons.mp hb with rfl | hb
            · exact ha
            · exact hx b hb
  · rintro ⟨rfl, hx, hrest⟩
    exact scan_append hx hrest

theorem exists_of_scan_eq_error {l : List α} {e : ε} (h : scan stop l = .error e) : ∃ a ∈ l, stop a = .error e := by
  induction l with
  | nil => cases h
  | cons a l ih =>
    cases ha : stop a with
    | error e' =>
      rw [scan_cons_error ha, Except.error.injEq] at h
      exact ⟨a, List.mem_cons_self .., by rw [ha, h]⟩
    | ok b =>
      cases b with
      | true =>
        rw [scan_cons_true ha] at h
        cases h
      | false =>
        rw [scan_cons_false ha] at h
        cases hl : scan stop l with
        | ok y =>
          rw [hl] at h
          cases h
        | error e' =>
          rw [hl] at h
          obtain rfl : e' = e := by simpa [Except.map] using h
          obtain ⟨b, hb, hstop⟩ := ih hl
          exact ⟨b, List.mem_cons_of_mem _ hb, hstop⟩

end Vocal.Scan
