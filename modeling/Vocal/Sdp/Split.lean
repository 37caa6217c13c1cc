import Vocal.Sdp.Decode
import Vocal.Sip.RawHeader.Lines
import Vocal.Sip.Text.Match

/-!
# Texts in pieces

What `split` and `textOf` leave of a text, and when the pieces give the text back: `joined_split_eq_iff`. A block of
separators is one separator to them.
-/

namespace Vocal.Sdp

open Sip (Data isIn CRLF)
open Sip.Data (parse_not_found parse_found parse_found_of_head parse_cases head?_dropWhile_isIn)

variable {c : Char} {x y : Data}

theorem split_of_notMem (h : c ∉ x) : split x [c] = [x] := by
  rw [split]
  split
  next heq =>
    rw [parse_not_found h] at heq
    cases heq
  next => rfl

theorem split_append (h : c ∉ x) (y : Data) : split (x ++ c :: y) [c] = x :: split (y.dropWhile (isIn · [c])) [c] := by
  rw [split]
  split
  next heq =>
    rw [parse_found h, Option.some_inj] at heq
    obtain ⟨rfl, rfl⟩ := Prod.mk.inj heq
    rfl
  next heq =>
    rw [parse_found h] at heq
    cases heq

theorem dropWhile_isIn_of_head (h : y.head? ≠ some c) : y.dropWhile (isIn · [c]) = y := by
  refine Cut.dropWhile_eq_self_of_head fun a ha => ?_
  rw [Sip.Data.isIn_singleton]
  rintro rfl
  exact h ha

theorem split_append_of_head (h : c ∉ x) (hy : y.head? ≠ some c) : split (x ++ c :: y) [c] = x :: split y [c] := by
  rw [split_append h, dropWhile_isIn_of_head hy]

/-- The items behind a first one, a separator in front of each. -/
def joined (c : Char) : List Data → Data
  | [] => []
  | x :: rest => x ++ rest.flatMap (c :: ·)

theorem split_joined (hx : c ∉ x) {items : List Data} (h : ∀ y ∈ items, y ≠ [] ∧ c ∉ y) :
    split (x ++ items.flatMap (c :: ·)) [c] = x :: items := by
  induction items generalizing x with
  | nil =>
    rw [List.flatMap_nil, List.append_nil]
    exact split_of_notMem hx
  | cons y items ih =>
    obtain ⟨hne, hy⟩ := h y List.mem_cons_self
    have hhead : (y ++ items.flatMap (c :: ·)).head? ≠ some c := by
      cases y with
      | nil => exact absurd rfl hne
      | cons a y =>
        rintro heq
        exact hy (Option.some.inj heq ▸ List.mem_cons_self)
    rw [List.flatMap_cons, List.cons_append, split_append_of_head hx hhead,
      ih hy fun z hz => h z (List.mem_cons_of_mem y hz)]

theorem split_ne_nil (t : Data) (c : Char) : split t [c] ≠ [] := by
  rcases parse_cases t c with ⟨hc, -⟩ | ⟨x, rest, hx, rfl, -⟩
  · rw [split_of_notMem hc]
    exact List.cons_ne_nil _ _
  · rw [split_append hx]
    exact List.cons_ne_nil _ _

theorem joined_split_of_notMem (h : c ∉ x) : joined c (split x [c]) = x := by
  rw [split_of_notMem h]
  exact List.append_nil x

theorem joined_split_append (h : c ∉ x) (y : Data) :
    joined c (split (x ++ c :: y) [c]) = x ++ c :: joined c (split (y.dropWhile (isIn · [c])) [c]) := by
  rw [split_append h]
  cases hsplit : split (y.dropWhile (isIn · [c])) [c] with
  | nil => exact absurd hsplit (split_ne_nil _ c)
  | cons z rest => rfl

theorem length_joined_split_le (t : Data) (c : Char) : (joined c (split t [c])).length ≤ t.length := by
  induction ht : t.length using Nat.strong_induction_on generalizing t with
  | _ n ih =>
    subst ht
    rcases parse_cases t c with ⟨hc, -⟩ | ⟨x, rest, hx, rfl, hparse⟩
    · rw [joined_split_of_notMem hc]
    · have hle := ih _ (length_parse hparse) _ rfl
      have hdrop := (List.dropWhile_suffix (l := rest) (isIn · [c])).length_le
      rw [joined_split_append hx, List.length_append, List.length_append, List.length_cons, List.length_cons]
      omega

theorem pair_infix_append (hx : c ∉ x) (y : Data) : [c, c] <:+: x ++ c :: y ↔ [c, c] <:+: c :: y := by
  induction x with
  | nil => exact Iff.rfl
  | cons a x ih =>
    rw [List.cons_append, List.infix_cons_iff, ih fun h => hx (List.mem_cons_of_mem a h)]
    refine ⟨fun h => h.resolve_left ?_, Or.inr⟩
    rintro ⟨e, he⟩
    exact hx ((List.cons.inj he).1 ▸ List.mem_cons_self)

theorem pair_infix_cons_of_head (hy : y.head? ≠ some c) : [c, c] <:+: c :: y ↔ [c, c] <:+: y := by
  rw [List.infix_cons_iff]
  refine ⟨fun h => h.resolve_left ?_, Or.inr⟩
  rintro ⟨e, he⟩
  rw [← (List.cons.inj he).2] at hy
  exact hy rfl

/-- A text comes back from its pieces unless a separator stands there twice. -/
theorem joined_split_eq_iff (t : Data) (c : Char) : joined c (split t [c]) = t ↔ ¬ [c, c] <:+: t := by
  induction ht : t.length using Nat.strong_induction_on generalizing t with
  | _ n ih =>
    subst ht
    rcases parse_cases t c with ⟨hc, -⟩ | ⟨x, rest, hx, rfl, hparse⟩
    · rw [joined_split_of_notMem hc]
      exact iff_of_true rfl fun h => hc (h.subset List.mem_cons_self)
    · have hrest := ih _ (length_parse hparse) _ rfl
      rw [joined_split_append hx, List.append_cancel_left_eq, List.cons_inj_right]
      by_cases hhead : rest.head? = some c
      · obtain ⟨more, rfl⟩ := List.head?_eq_some_iff.mp hhead
        refine iff_of_false (fun heq => ?_) (not_not.mpr ⟨x, more, by simp⟩)
        have hle := length_joined_split_le ((c :: more).dropWhile (isIn · [c])) c
        have hdrop := (List.dropWhile_suffix (l := more) (isIn · [c])).length_le
        rw [heq, List.dropWhile_cons_of_pos (by simp [isIn]), List.length_cons] at hle
        omega
      · rw [dropWhile_isIn_of_head hhead] at hrest ⊢
        rw [hrest, pair_infix_append hx, pair_infix_cons_of_head hhead]

theorem joined_split_dropWhile_eq_iff (y : Data) (c : Char) :
    joined c (split (y.dropWhile (isIn · [c])) [c]) = y ↔ ¬ [c, c] <:+: c :: y := by
  have h := joined_split_eq_iff ([] ++ c :: y) c
  rwa [joined_split_append List.not_mem_nil, List.nil_append, List.nil_append, List.cons_inj_right] at h

/-! ### Lines -/

theorem textOf_line {letter : Char} (h : letter ≠ '=') (text : Data) :
    textOf (line letter text) = text.dropWhile (isIn · ['=']) := by
  have hletter : '=' ∉ [letter] := fun hmem => h (List.mem_singleton.mp hmem).symm
  rw [textOf, line, ← List.singleton_append, parse_found hletter]

theorem head?_line (letter : Char) (text : Data) : (line letter text).head? = some letter := rfl

theorem line_inj {letter : Char} {x y : Data} : line letter x = line letter y ↔ x = y := by
  rw [line, line, List.cons_inj_right, List.cons_inj_right]

/-- A separator that stands first is lost. -/
theorem dropWhile_isIn_eq_self_iff : x.dropWhile (isIn · [c]) = x ↔ x.head? ≠ some c := by
  refine ⟨fun h heq => ?_, dropWhile_isIn_of_head⟩
  rw [← h] at heq
  exact head?_dropWhile_isIn heq

end Vocal.Sdp
