import Mathlib.Data.List.Basic

/-!
# Stores: objects shared by reference

A store is the list of the objects allocated so far and a reference is a position in it. Objects
are never freed, so a reference stays good: `Evolves R h h'` says that every object of `h` is still
in `h'` and has changed as `R` allows, and `Keeps f h h'` that the observation `f` of it is
unchanged.
-/

namespace Vocal.Store

variable {α β : Type}

/-- Every object of `h` is still in `h'`, changed as `R` allows. -/
def Evolves (R : α → α → Prop) (h h' : List α) : Prop :=
  ∀ (r : Nat) (a : α), h[r]? = some a → ∃ a', h'[r]? = some a' ∧ R a a'

/-- Every object of `h` is still in `h'`, with the same `f`. -/
def Keeps (f : α → β) (h h' : List α) : Prop := Evolves (fun a a' => f a' = f a) h h'

/-- The object a nullable reference points to. -/
def deref (h : List α) (slot : Option Nat) : Option α := slot.bind (h[·]?)

@[simp] theorem deref_none (h : List α) : deref h none = none := rfl

@[simp] theorem deref_some (h : List α) (r : Nat) : deref h (some r) = h[r]? := rfl

theorem getElem?_alloc (h : List α) (a : α) : (h ++ [a])[h.length]? = some a := by simp

theorem getElem?_append_of_some {h : List α} {r : Nat} {a : α} (hr : h[r]? = some a) (l : List α) :
    (h ++ l)[r]? = some a := by
  obtain ⟨hlt, _⟩ := List.getElem?_eq_some_iff.mp hr
  rw [List.getElem?_append_left hlt, hr]

theorem modify_alloc (h : List α) (a : α) (g : α → α) :
    (h ++ [a]).modify h.length g = h ++ [g a] := by
  induction h with
  | nil => rfl
  | cons b h ih => rw [List.cons_append, List.length_cons, List.modify_succ_cons, ih]; rfl

theorem modify_append {h : List α} {r : Nat} (hr : r < h.length) (l : List α) (g : α → α) :
    (h ++ l).modify r g = h.modify r g ++ l := by
  induction h generalizing r with
  | nil => simp at hr
  | cons b h ih =>
    cases r with
    | zero => rfl
    | succ r =>
      have hlt : r < h.length := by simpa using hr
      rw [List.cons_append, List.modify_succ_cons, List.modify_succ_cons, ih hlt, List.cons_append]

theorem lt_of_getElem? {h : List α} {r : Nat} {a : α} (hr : h[r]? = some a) : r < h.length :=
  (List.getElem?_eq_some_iff.mp hr).1

namespace Evolves

variable {R : α → α → Prop} {h h' h'' : List α}

theorem refl (hR : ∀ a, R a a) (h : List α) : Evolves R h h := fun _ a ha => ⟨a, ha, hR a⟩

theorem trans (hR : ∀ a b c, R a b → R b c → R a c) (h₁ : Evolves R h h') (h₂ : Evolves R h' h'') :
    Evolves R h h'' := by
  intro r a ha
  obtain ⟨a', ha', hr⟩ := h₁ r a ha
  obtain ⟨a'', ha'', hr'⟩ := h₂ r a' ha'
  exact ⟨a'', ha'', hR _ _ _ hr hr'⟩

theorem append (hR : ∀ a, R a a) (h l : List α) : Evolves R h (h ++ l) :=
  fun _ a ha => ⟨a, getElem?_append_of_some ha l, hR a⟩

theorem modify (hR : ∀ a, R a a) (h : List α) (r : Nat) {g : α → α} (hg : ∀ a, R a (g a)) :
    Evolves R h (h.modify r g) := by
  intro i a ha
  rw [List.getElem?_modify, ha]
  by_cases hi : r = i
  · exact ⟨g a, by simp [hi], hg a⟩
  · exact ⟨a, by simp [hi], hR a⟩

theorem modify_fresh {r : Nat} {g : α → α} (hk : Evolves R h h') (hr : h.length ≤ r) :
    Evolves R h (h'.modify r g) := by
  intro i a ha
  obtain ⟨a', ha', hf⟩ := hk i a ha
  have hne : r ≠ i := by
    have := lt_of_getElem? ha
    omega
  exact ⟨a', by rw [List.getElem?_modify, ha']; simp [hne], hf⟩

theorem mono {S : α → α → Prop} (hRS : ∀ a b, R a b → S a b) (hk : Evolves R h h') :
    Evolves S h h' := by
  intro r a ha
  obtain ⟨a', ha', hr⟩ := hk r a ha
  exact ⟨a', ha', hRS a a' hr⟩

end Evolves

namespace Keeps

variable {f : α → β} {h h' h'' : List α}

theorem refl (f : α → β) (h : List α) : Keeps f h h := Evolves.refl (R := fun a a' => f a' = f a) (fun _ => rfl) h

theorem trans (h₁ : Keeps f h h') (h₂ : Keeps f h' h'') : Keeps f h h'' :=
  Evolves.trans (fun _ _ _ hab hbc => hbc.trans hab) h₁ h₂

theorem append (f : α → β) (h l : List α) : Keeps f h (h ++ l) :=
  Evolves.append (R := fun a a' => f a' = f a) (fun _ => rfl) h l

theorem modify (h : List α) (r : Nat) {g : α → α} (hg : ∀ a, f (g a) = f a) :
    Keeps f h (h.modify r g) :=
  Evolves.modify (R := fun a a' => f a' = f a) (fun _ => rfl) h r hg

theorem replace {r : Nat} {a b : α} (ha : h[r]? = some a) (hb : f b = f a) :
    Keeps f h (h.modify r fun _ => b) := by
  intro i a' ha'
  rw [List.getElem?_modify, ha']
  by_cases hi : r = i
  · subst hi
    obtain rfl := Option.some.inj (ha.symm.trans ha')
    exact ⟨b, by simp, hb⟩
  · exact ⟨a', by simp [hi], rfl⟩

theorem of_id {γ : Type} (hk : Keeps id h h') (g : α → γ) : Keeps g h h' :=
  Evolves.mono (fun _ _ haa => congrArg g haa) hk

theorem deref {slot : Option Nat} (hk : Keeps f h h') {a : α} (ha : deref h slot = some a) :
    ∃ a', Store.deref h' slot = some a' ∧ f a' = f a := by
  cases slot with
  | none => simp at ha
  | some r => exact hk r a ha

end Keeps

end Vocal.Store
