import Mathlib.Data.List.Basic

/-!
# Computations that keep their state when they fail

A computation of `EStateM` reads and writes a state and may stop early; the state it has reached by then stays. The
rules below follow a reflexive and transitive relation between states through a computation: `Moves R m` says that `m`
takes every state to one related to it, whether it stops early or not.
-/

namespace Vocal.Comp

variable {ε σ α β : Type}

/-- The state in which a computation ends, early or not. -/
def after (m : EStateM ε σ α) (s : σ) : σ :=
  match m s with
  | .ok _ t => t
  | .error _ t => t

/-- Why it ends early. -/
def exit (m : EStateM ε σ α) (s : σ) : Option ε :=
  match m s with
  | .ok _ _ => none
  | .error e _ => some e

section Run

variable {m : EStateM ε σ α} {f : α → EStateM ε σ β} {s t : σ}

@[simp] theorem run_pure (a : α) (s : σ) : (pure a : EStateM ε σ α) s = .ok a s := rfl

@[simp] theorem run_throw (e : ε) (s : σ) : (throw e : EStateM ε σ α) s = .error e s := rfl

@[simp] theorem run_get (s : σ) : (get : EStateM ε σ σ) s = .ok s s := rfl

@[simp] theorem run_modify (g : σ → σ) (s : σ) : (modify g : EStateM ε σ PUnit) s = .ok ⟨⟩ (g s) := rfl

@[simp] theorem run_ite (c : Prop) [Decidable c] (m n : EStateM ε σ α) (s : σ) :
    (if c then m else n) s = if c then m s else n s := by
  split <;> rfl

theorem run_bind_ok {a : α} (h : m s = .ok a t) : (m >>= f) s = f a t := by
  show EStateM.bind m f s = _
  rw [EStateM.bind, h]

theorem run_bind_error {e : ε} (h : m s = .error e t) : (m >>= f) s = .error e t := by
  show EStateM.bind m f s = _
  rw [EStateM.bind, h]

@[simp] theorem run_get_bind (f : σ → EStateM ε σ β) (s : σ) : (get >>= f) s = f s s := rfl

@[simp] theorem run_modify_bind (g : σ → σ) (f : PUnit → EStateM ε σ β) (s : σ) :
    ((modify g : EStateM ε σ PUnit) >>= f) s = f ⟨⟩ (g s) := rfl

@[simp] theorem run_pure_bind (a : α) (f : α → EStateM ε σ β) (s : σ) :
    ((pure a : EStateM ε σ α) >>= f) s = f a s := rfl

@[simp] theorem run_throw_bind (e : ε) (f : α → EStateM ε σ β) (s : σ) :
    ((throw e : EStateM ε σ α) >>= f) s = .error e s := rfl

@[simp] theorem run_map_modify (f : PUnit → β) (g : σ → σ) (s : σ) :
    (f <$> (modify g : EStateM ε σ PUnit)) s = .ok (f ⟨⟩) (g s) := rfl

@[simp] theorem run_map_throw (f : α → β) (e : ε) (s : σ) :
    (f <$> (throw e : EStateM ε σ α)) s = .error e s := rfl

theorem run_tryCatch_ok {a : α} (h : m s = .ok a t) (g : ε → EStateM ε σ α) : tryCatch m g s = .ok a t := by
  show EStateM.tryCatch m g s = _
  rw [EStateM.tryCatch, h]

theorem run_tryCatch_error {e : ε} (h : m s = .error e t) (g : ε → EStateM ε σ α) : tryCatch m g s = g e t := by
  show EStateM.tryCatch m g s = _
  rw [EStateM.tryCatch, h]
  rfl

theorem after_of_ok {a : α} (h : m s = .ok a t) : after m s = t := by rw [after, h]

theorem after_of_error {e : ε} (h : m s = .error e t) : after m s = t := by rw [after, h]

theorem exit_of_ok {a : α} (h : m s = .ok a t) : exit m s = none := by rw [exit, h]

theorem exit_of_error {e : ε} (h : m s = .error e t) : exit m s = some e := by rw [exit, h]

theorem exit_bind_ok {a : α} (h : m s = .ok a t) : exit (m >>= f) s = exit (f a) t := by
  rw [exit, run_bind_ok h, exit]

theorem exit_bind_some {e : ε} (h : exit m s = some e) : exit (m >>= f) s = some e := by
  cases hrun : m s with
  | ok a t =>
    rw [exit_of_ok hrun] at h
    cases h
  | error e' t =>
    rw [exit_of_error hrun] at h
    rw [exit_of_error (run_bind_error hrun), h]

end Run

section Moves

variable (R : σ → σ → Prop)

/-- `m` moves every state along `R`. -/
def Moves (m : EStateM ε σ α) : Prop := ∀ s, R s (after m s)

variable {R} {m : EStateM ε σ α} {f : α → EStateM ε σ β} {s : σ}

theorem after_bind_of {P : σ → Prop} (hm : P (after m s)) (hf : ∀ a t, m s = .ok a t → P t → P (after (f a) t)) :
    P (after (m >>= f) s) := by
  cases h : m s with
  | ok a t =>
    rw [after_of_ok h] at hm
    have hrun : after (m >>= f) s = after (f a) t := by rw [after, run_bind_ok h, after]
    rw [hrun]
    exact hf a t h hm
  | error e t =>
    rw [after_of_error h] at hm
    rwa [after_of_error (run_bind_error h)]

theorem after_tryCatch_of {P : σ → Prop} {g : ε → EStateM ε σ α} (hm : P (after m s))
    (hg : ∀ e t, m s = .error e t → P t → P (after (g e) t)) : P (after (tryCatch m g) s) := by
  cases h : m s with
  | ok a t =>
    rw [after_of_ok h] at hm
    rwa [after_of_ok (run_tryCatch_ok h g)]
  | error e t =>
    rw [after_of_error h] at hm
    have hrun : after (tryCatch m g) s = after (g e) t := by rw [after, run_tryCatch_error h, after]
    rw [hrun]
    exact hg e t h hm

/-- The rule for a sequence: what follows is needed where the first part ends well. -/
theorem after_bind (htrans : ∀ {a b c}, R a b → R b c → R a c) (hm : R s (after m s))
    (hf : ∀ a t, m s = .ok a t → R t (after (f a) t)) : R s (after (m >>= f) s) :=
  after_bind_of (P := R s) hm fun a t h ht => htrans ht (hf a t h)

theorem Moves.bind (htrans : ∀ {a b c}, R a b → R b c → R a c) (hm : Moves R m) (hf : ∀ a, Moves R (f a)) :
    Moves R (m >>= f) :=
  fun s => after_bind htrans (hm s) fun a t _ => hf a t

theorem Moves.pure (hrefl : ∀ s, R s s) (a : α) : Moves R (Pure.pure a : EStateM ε σ α) := hrefl

theorem Moves.throw (hrefl : ∀ s, R s s) (e : ε) : Moves R (throw e : EStateM ε σ α) := hrefl

theorem Moves.ite {c : Prop} [Decidable c] {n : EStateM ε σ α} (hm : c → Moves R m) (hn : ¬c → Moves R n) :
    Moves R (if c then m else n) := by
  by_cases h : c
  · rw [if_pos h]
    exact hm h
  · rw [if_neg h]
    exact hn h

end Moves

section Ends

/-- From `s` the computation ends well with `Q`, or early for a reason in `E`. -/
def Ends (Q : α → σ → Prop) (E : ε → Prop) (m : EStateM ε σ α) (s : σ) : Prop :=
  match m s with
  | .ok a t => Q a t
  | .error e _ => E e

variable {Q : α → σ → Prop} {E : ε → Prop} {m : EStateM ε σ α} {f : α → EStateM ε σ β} {s t : σ}

theorem Ends.of_ok {a : α} (h : m s = .ok a t) (ht : Q a t) : Ends Q E m s := by
  rw [Ends, h]
  exact ht

theorem Ends.of_error {e : ε} (h : m s = .error e t) (he : E e) : Ends Q E m s := by
  rw [Ends, h]
  exact he

theorem Ends.of_after {P : σ → Prop} (h : P (Comp.after m s)) : Ends (fun _ => P) (fun _ => True) m s := by
  cases hrun : m s with
  | ok a t =>
    rw [after_of_ok hrun] at h
    exact Ends.of_ok hrun h
  | error e t => exact Ends.of_error hrun trivial

theorem Ends.mono {Q' : α → σ → Prop} (hm : Ends Q E m s) (h : ∀ a t, Q a t → Q' a t) : Ends Q' E m s := by
  cases hrun : m s with
  | ok a t =>
    rw [Ends, hrun] at hm
    exact Ends.of_ok hrun (h a t hm)
  | error e t =>
    rw [Ends, hrun] at hm
    exact Ends.of_error hrun hm

theorem Ends.bind {Q' : β → σ → Prop} (hm : Ends Q E m s) (hf : ∀ a t, Q a t → Ends Q' E (f a) t) :
    Ends Q' E (m >>= f) s := by
  cases hrun : m s with
  | ok a t =>
    rw [Ends, hrun] at hm
    rw [Ends, run_bind_ok hrun]
    exact hf a t hm
  | error e t =>
    rw [Ends, hrun] at hm
    exact Ends.of_error (run_bind_error hrun) hm

theorem Ends.ite {c : Prop} [Decidable c] {n : EStateM ε σ α} (hm : c → Ends Q E m s) (hn : ¬c → Ends Q E n s) :
    Ends Q E (if c then m else n) s := by
  by_cases h : c
  · rw [if_pos h]
    exact hm h
  · rw [if_neg h]
    exact hn h

theorem Ends.get_bind {g : σ → EStateM ε σ α} (h : Ends Q E (g s) s) : Ends Q E (get >>= g) s := h

theorem Ends.exit (hm : Ends Q E m s) {e : ε} (he : Comp.exit m s = some e) : E e := by
  cases hrun : m s with
  | ok a t =>
    rw [exit_of_ok hrun] at he
    cases he
  | error e' t =>
    rw [exit_of_error hrun] at he
    rw [Ends, hrun] at hm
    cases he
    exact hm

theorem Ends.last {Q' : β → σ → Prop} (hf : ∀ a t, Ends Q' (fun _ => True) (f a) t) :
    Ends Q' (fun _ => True) (m >>= f) s := by
  cases hrun : m s with
  | ok a t =>
    rw [Ends, run_bind_ok hrun]
    exact hf a t
  | error e t => exact Ends.of_error (run_bind_error hrun) trivial

theorem Ends.after {P : σ → Prop} (hm : Ends (fun _ => P) E m s) (h : Comp.exit m s = none) :
    P (Comp.after m s) := by
  cases hrun : m s with
  | ok a t =>
    rw [Ends, hrun] at hm
    rw [after_of_ok hrun]
    exact hm
  | error e t =>
    rw [exit_of_error hrun] at h
    cases h

end Ends

section Avoids

variable {x : ε} {m : EStateM ε σ α} {f : α → EStateM ε σ β}

/-- The computation never ends early for the reason `x`. -/
def Avoids (x : ε) (m : EStateM ε σ α) : Prop := ∀ s, exit m s ≠ some x

theorem Avoids.bind (hm : Avoids x m) (hf : ∀ a, Avoids x (f a)) : Avoids x (m >>= f) := by
  intro s
  cases hrun : m s with
  | ok a t =>
    rw [exit_bind_ok hrun]
    exact hf a t
  | error e t =>
    have he := hm s
    rw [exit_of_error hrun] at he
    rwa [exit_of_error (run_bind_error hrun)]

theorem Avoids.pure (a : α) : Avoids x (Pure.pure a : EStateM ε σ α) := fun _ h => by cases h

theorem Avoids.get : Avoids x (get : EStateM ε σ σ) := fun _ h => by cases h

theorem Avoids.modify (g : σ → σ) : Avoids x (modify g : EStateM ε σ PUnit) := fun _ h => by cases h

theorem Avoids.throw {e : ε} (he : e ≠ x) : Avoids x (throw e : EStateM ε σ α) := fun _ h => he (Option.some.inj h)

theorem Avoids.ite {c : Prop} [Decidable c] {n : EStateM ε σ α} (hm : Avoids x m) (hn : Avoids x n) :
    Avoids x (if c then m else n) := by
  split
  · exact hm
  · exact hn

theorem Avoids.tryCatch {g : ε → EStateM ε σ α} (hm : Avoids x m) (hg : ∀ e, e ≠ x → Avoids x (g e)) :
    Avoids x (tryCatch m g) := by
  intro s
  cases hrun : m s with
  | ok a t =>
    rw [exit_of_ok (run_tryCatch_ok hrun g)]
    exact Option.some_ne_none x |>.symm
  | error e t =>
    have he := hm s
    rw [exit_of_error hrun] at he
    have hcatch : exit (MonadExcept.tryCatch m g) s = exit (g e) t := by rw [exit, run_tryCatch_error hrun, exit]
    rw [hcatch]
    exact hg e (fun h => he (congrArg some h)) t

end Avoids

end Vocal.Comp
