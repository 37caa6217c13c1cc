import Mathlib.Order.Preorder.Chain
import Mathlib.Order.RelClasses
import Mathlib.Order.RelIso.Set

/-!
# Weak orders on a set

Strict weak orders, as a map needs them of its keys, on the elements of a set. A relation that compares several fields
and holds as soon as one of them is smaller is such an order only where the fields agree on which element is smaller.
-/

namespace Vocal.WeakOrder

variable {α β : Type} {r : α → α → Prop} {rs : List (α → α → Prop)} {S : Set α} {x y z : α}

/-- `r` is a strict weak order on the elements of `S`. -/
abbrev On (r : α → α → Prop) (S : Set α) : Prop := IsStrictWeakOrder S (Subrel r (· ∈ S))

theorem On.irrefl (h : On r S) (hx : x ∈ S) : ¬ r x x := h.toIsStrictOrder.toIrrefl.irrefl ⟨x, hx⟩

theorem On.trans (h : On r S) (hx : x ∈ S) (hy : y ∈ S) (hz : z ∈ S) (hxy : r x y) (hyz : r y z) : r x z :=
  h.toIsStrictOrder.toIsTrans.trans ⟨x, hx⟩ ⟨y, hy⟩ ⟨z, hz⟩ hxy hyz

theorem On.asymm (h : On r S) (hx : x ∈ S) (hy : y ∈ S) (hxy : r x y) : ¬ r y x :=
  fun hyx => h.irrefl hx (h.trans hx hy hx hxy hyx)

theorem On.incomp (h : On r S) (hx : x ∈ S) (hy : y ∈ S) (hz : z ∈ S) (hxy : ¬ r x y ∧ ¬ r y x)
    (hyz : ¬ r y z ∧ ¬ r z y) : ¬ r x z ∧ ¬ r z x :=
  h.incomp_trans ⟨x, hx⟩ ⟨y, hy⟩ ⟨z, hz⟩ hxy hyz

theorem On.intro (hirrefl : ∀ x ∈ S, ¬ r x x) (htrans : ∀ x ∈ S, ∀ y ∈ S, ∀ z ∈ S, r x y → r y z → r x z)
    (hincomp : ∀ x ∈ S, ∀ y ∈ S, ∀ z ∈ S, ¬ r x y ∧ ¬ r y x → ¬ r y z ∧ ¬ r z y → ¬ r x z ∧ ¬ r z x) : On r S where
  irrefl x := hirrefl x x.2
  trans x y z := htrans x x.2 y y.2 z z.2
  incomp_trans x y z := hincomp x x.2 y y.2 z z.2

theorem isStrictWeakOrder_lt [LinearOrder β] (f : α → β) : IsStrictWeakOrder α fun x y => f x < f y where
  irrefl x := lt_irrefl (f x)
  trans _ _ _ := lt_trans
  incomp_trans x y z hxy hyz := by
    have heq : f x = f y := le_antisymm (not_lt.mp hxy.2) (not_lt.mp hxy.1)
    rw [heq]
    exact hyz

theorem connected (h : IsStrictWeakOrder α r) (hxy : r x y) (z : α) : r x z ∨ r z y := by
  by_contra hnot
  rw [not_or] at hnot
  obtain ⟨hxz, hzy⟩ := hnot
  have hzx : ¬ r z x := fun hzx => hzy (h.trans z x y hzx hxy)
  have hyz : ¬ r y z := fun hyz => hxz (h.trans x y z hxy hyz)
  exact (h.incomp_trans x z y ⟨hxz, hzx⟩ ⟨hzy, hyz⟩).1 hxy

/-! ### One of several fields -/

/-- One of the relations holds. -/
def Any (rs : List (α → α → Prop)) (x y : α) : Prop := ∃ r ∈ rs, r x y

/-- In none of the relations is `y` before `x`. -/
def Below (rs : List (α → α → Prop)) (x y : α) : Prop := ∀ r ∈ rs, ¬ r y x

theorem below_iff : Below rs x y ↔ ¬ Any rs y x := by
  simp [Below, Any]

/-- The elements of the set are a chain for all relations together exactly where the relation is an order. -/
theorem on_any_iff (hrs : ∀ r ∈ rs, IsStrictWeakOrder α r) : On (Any rs) S ↔ IsChain (Below rs) S := by
  constructor
  · intro h x hx y hy _
    by_cases hyx : Any rs y x
    · right
      rw [below_iff]
      exact h.asymm hy hx hyx
    · left
      rwa [below_iff]
  · intro hchain
    have hirrefl (x : α) : ¬ Any rs x x := fun ⟨r, hr, hxx⟩ => (hrs r hr).irrefl x hxx
    have hbelow {x y : α} (hx : x ∈ S) (hy : y ∈ S) (hxy : Any rs x y) : Below rs x y := by
      have hne : x ≠ y := by
        rintro rfl
        exact hirrefl x hxy
      rcases hchain hx hy hne with hle | hge
      · exact hle
      · exact absurd hxy (below_iff.mp hge)
    refine On.intro (fun x _ => hirrefl x) ?_ ?_
    · rintro x - y hy z hz ⟨r, hr, hxy⟩ hyz
      have hzy := hbelow hy hz hyz r hr
      exact ⟨r, hr, (connected (hrs r hr) hxy z).resolve_right hzy⟩
    · rintro x - y - z - ⟨hxy, hyx⟩ ⟨hyz, hzy⟩
      have hsame (r : α → α → Prop) (hr : r ∈ rs) : ¬ r x z ∧ ¬ r z x :=
        (hrs r hr).incomp_trans x y z ⟨fun h => hxy ⟨r, hr, h⟩, fun h => hyx ⟨r, hr, h⟩⟩
          ⟨fun h => hyz ⟨r, hr, h⟩, fun h => hzy ⟨r, hr, h⟩⟩
      exact ⟨fun ⟨r, hr, h⟩ => (hsame r hr).1 h, fun ⟨r, hr, h⟩ => (hsame r hr).2 h⟩

end Vocal.WeakOrder
