import Vocal.Lib.SortedMap

/-!
# Sorting into buckets

A map from keys to lists, to which elements are added under their keys, lists them in the order of the keys, and under
one key in the order in which they came. It lists each of them as often as it came: `collect_perm`.
-/

namespace Vocal.Buckets

open SortedMap (insert lookup Sorted)

variable {K V : Type} [LinearOrder K]

/-- Adds an element behind those of its key. -/
def push (k : K) (x : V) (m : List (K × List V)) : List (K × List V) := insert k ((lookup k m).getD [] ++ [x]) m

/-- The elements in the order of their keys. -/
def elements (m : List (K × List V)) : List V := m.flatMap (·.2)

/-- All elements of a list under their keys. -/
def collect (key : V → K) (l : List V) : List (K × List V) := l.foldl (fun m x => push (key x) x m) []

variable {k : K} {x : V} {m : List (K × List V)}

theorem lookup_of_forall_lt (h : ∀ p ∈ m, k < p.1) : lookup k m = none := by
  induction m with
  | nil => rfl
  | cons p m ih =>
    rw [lookup, if_neg (h p (List.mem_cons_self ..)).ne]
    exact ih fun q hq => h q (List.mem_cons_of_mem p hq)

theorem elements_push_perm (hm : Sorted m) : (elements (push k x m)).Perm (x :: elements m) := by
  rw [push]
  induction m with
  | nil => exact List.Perm.refl _
  | cons p m ih =>
    obtain ⟨hp, hm⟩ := List.pairwise_cons.mp hm
    rw [SortedMap.insert]
    split_ifs with hlt heq
    · have hnone : lookup k (p :: m) = none := by
        refine lookup_of_forall_lt fun q hq => ?_
        rcases List.mem_cons.mp hq with rfl | hq
        · exact hlt
        · exact hlt.trans (hp q hq)
      rw [hnone]
      exact List.Perm.refl _
    · rw [lookup, if_pos heq]
      show (p.2 ++ [x] ++ elements m).Perm (x :: (p.2 ++ elements m))
      rw [List.append_assoc]
      exact List.perm_middle
    · rw [lookup, if_neg heq]
      show (p.2 ++ elements (insert k _ m)).Perm (x :: (p.2 ++ elements m))
      exact ((ih hm).append_left p.2).trans List.perm_middle

/-- What the elements added so far leave behind. -/
structure Collected (l : List V) (m : List (K × List V)) : Prop where
  sorted : Sorted m
  perm : (elements m).Perm l

theorem Collected.push {l : List V} (h : Collected l m) : Collected (l ++ [x]) (push k x m) where
  sorted := h.sorted.insert
  perm := (elements_push_perm h.sorted).trans ((h.perm.cons x).trans (List.perm_append_singleton x l).symm)

theorem collected_collect (key : V → K) (l : List V) : Collected l (collect key l) := by
  induction l using List.reverseRecOn with
  | nil => exact ⟨SortedMap.sorted_nil, List.Perm.refl _⟩
  | append_singleton l x ih =>
    rw [collect, List.foldl_append]
    exact ih.push

theorem collect_perm (key : V → K) (l : List V) : (elements (collect key l)).Perm l := (collected_collect key l).perm

end Vocal.Buckets
