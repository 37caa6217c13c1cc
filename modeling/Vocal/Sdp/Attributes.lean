import Vocal.Sdp.Again

/-!
# Attributes that are decoded and written again

The encoder writes one direction and then the attributes with a value. So the attributes of a session come back when they
stand in that order and none of them changes: `attributesAgain_eq_iff`.
-/

namespace Vocal.Sdp

open Cut (append_cons_inj)
open Sip (Data)

def AttributeLine.direction? : AttributeLine → Option Direction
  | direction d => some d
  | value _ _ => none

/-- The value that the decoder makes of an attribute. -/
def AttributeLine.value? : AttributeLine → Option ValueAttribute
  | direction _ => none
  | value name v =>
    some { attrib := stripped '=' name.chars, value := joined ':' (split (stripped ':' v.chars) [':']) }

theorem setAttribute_direction (a : SdpAttributes) (d : Direction) :
    a.setAttribute (stripped '=' (AttributeLine.direction d).text) =
      { a with
        recvonly := a.recvonly || decide (d = .recvonly), sendonly := a.sendonly || decide (d = .sendonly),
        sendrecv := a.sendrecv || decide (d = .sendrecv) } := by
  have hstripped : stripped '=' (AttributeLine.direction d).text = d.text := by
    cases d <;> decide
  have hsplit : split d.text [':'] = [d.text] := split_of_notMem (by cases d <;> decide)
  rw [hstripped, SdpAttributes.setAttribute, hsplit]
  dsimp only
  cases d with
  | recvonly =>
    rw [if_pos (by decide)]
    simp
  | sendonly =>
    rw [if_neg (by decide), if_neg (by decide), if_pos (by decide)]
    simp
  | sendrecv =>
    rw [if_neg (by decide), if_pos (by decide)]
    simp

theorem setAttribute_value (a : SdpAttributes) (name : Field [':']) (v : Text) :
    a.setAttribute (stripped '=' (AttributeLine.value name v).text) =
      a.addValueAttribute
        { attrib := stripped '=' name.chars, value := joined ':' (split (stripped ':' v.chars) [':']) } := by
  have hname : ':' ∉ stripped '=' name.chars := fun h =>
    name.notMem ':' (List.mem_singleton_self _) (mem_of_mem_stripped h)
  have hstripped : stripped '=' (AttributeLine.value name v).text = stripped '=' name.chars ++ ':' :: v.chars :=
    stripped_append _ (by simp)
  rw [hstripped, SdpAttributes.setAttribute, split_append hname]
  cases hsplit : split (stripped ':' v.chars) [':'] with
  | nil => exact absurd hsplit (split_ne_nil _ _)
  | cons x rest =>
    rw [stripped] at hsplit
    rw [hsplit]
    rfl

theorem foldl_setAttribute (a : SdpAttributes) (ls : List AttributeLine) :
    ls.foldl (fun a l => a.setAttribute (stripped '=' l.text)) a =
      { recvonly := a.recvonly || decide (.recvonly ∈ ls.filterMap AttributeLine.direction?),
        sendonly := a.sendonly || decide (.sendonly ∈ ls.filterMap AttributeLine.direction?),
        sendrecv := a.sendrecv || decide (.sendrecv ∈ ls.filterMap AttributeLine.direction?),
        valueAttributes := a.valueAttributes ++ ls.filterMap AttributeLine.value? } := by
  induction ls generalizing a with
  | nil => simp
  | cons l ls ih =>
    rw [List.foldl_cons, ih]
    cases l with
    | direction d =>
      rw [setAttribute_direction, List.filterMap_cons_some (show AttributeLine.direction? (.direction d) = some d from rfl),
        List.filterMap_cons_none (show AttributeLine.value? (.direction d) = none from rfl)]
      cases d with
      | recvonly => simp
      | sendonly => simp
      | sendrecv => simp
    | value name v =>
      rw [setAttribute_value, List.filterMap_cons_none (show AttributeLine.direction? (.value name v) = none from rfl),
        List.filterMap_cons_some (show AttributeLine.value? (.value name v) = some _ from rfl)]
      simp [SdpAttributes.addValueAttribute]

/-- The line of the first direction that is set, in the order of the encoder. -/
def directionLines (ds : List Direction) : List Data :=
  if .recvonly ∈ ds then [line 'a' Direction.recvonly.text]
  else if .sendonly ∈ ds then [line 'a' Direction.sendonly.text]
  else if .sendrecv ∈ ds then [line 'a' Direction.sendrecv.text] else []

/-- What the encoder writes of attributes that it decoded one after another. -/
def attributesAgain (ls : List AttributeLine) : List Data :=
  directionLines (ls.filterMap AttributeLine.direction?) ++ (ls.filterMap AttributeLine.value?).map ValueAttribute.encode

theorem encode_foldl_setAttribute (ls : List AttributeLine) :
    (ls.foldl (fun a l => a.setAttribute (stripped '=' l.text)) ({} : SdpAttributes)).encode = attributesAgain ls := by
  rw [foldl_setAttribute, SdpAttributes.encode, attributesAgain, directionLines]
  simp only [Bool.false_or, decide_eq_true_eq, List.nil_append]
  rfl

theorem directionLines_singleton (d : Direction) : directionLines [d] = [line 'a' d.text] := by
  cases d <;> rfl

theorem length_directionLines_le (ds : List Direction) : (directionLines ds).length ≤ 1 := by
  rw [directionLines]
  split_ifs <;> simp

theorem colon_notMem_directionLines {ds : List Direction} {x : Data} (h : x ∈ directionLines ds) : ':' ∉ x := by
  rw [directionLines] at h
  split_ifs at h
  · rw [List.mem_singleton.mp h]
    decide
  · rw [List.mem_singleton.mp h]
    decide
  · rw [List.mem_singleton.mp h]
    decide
  · cases h

theorem AttributeLine.colon_mem_line_iff (l : AttributeLine) : ':' ∈ line 'a' l.text ↔ l.direction? = none := by
  cases l with
  | direction d => exact iff_of_false (by cases d <;> decide) (by rintro ⟨⟩)
  | value name v => exact iff_of_true (by simp [line, AttributeLine.text]) rfl

/-- The attribute is written again as it is. -/
def AttributeLine.Kept : AttributeLine → Prop
  | direction _ => True
  | value name v => name.chars.head? ≠ some '=' ∧ ¬ [':', ':'] <:+: name.chars ++ ':' :: v.chars

theorem AttributeLine.kept_value_iff (name : Field [':']) (v : Text) :
    ValueAttribute.encode
        { attrib := stripped '=' name.chars, value := joined ':' (split (stripped ':' v.chars) [':']) } =
      line 'a' (value name v).text ↔ (value name v).Kept := by
  have hname := name.notMem ':' (List.mem_singleton_self _)
  rw [ValueAttribute.encode, line_inj, text, append_cons_inj (fun h => hname (mem_of_mem_stripped h)) hname,
    stripped_eq_self_iff, joined_split_stripped_eq_iff, Kept, pair_infix_append hname]

theorem exists_parts {α β : Type} {f : α → β} {l : List α} {x y : List β} (h : x ++ y = l.map f) {p : β → Prop}
    (hx : ∀ b ∈ x, p b) (hy : ∀ b ∈ y, ¬ p b) :
    ∃ l₁ l₂, l = l₁ ++ l₂ ∧ x = l₁.map f ∧ y = l₂.map f ∧ (∀ a ∈ l₁, p (f a)) ∧ ∀ a ∈ l₂, ¬ p (f a) := by
  obtain ⟨l₁, l₂, rfl, rfl, rfl⟩ := List.map_eq_append_iff.mp h.symm
  exact ⟨l₁, l₂, rfl, rfl, rfl, fun a ha => hx _ (List.mem_map_of_mem ha), fun a ha => hy _ (List.mem_map_of_mem ha)⟩

theorem exists_parts_of_ordered {α : Type} {rank : α → Nat} {l : List α} (h : (l.map rank).Pairwise (· ≤ ·)) {k : Nat}
    (hk : ∀ a ∈ l, k ≤ rank a) :
    ∃ l₁ l₂, l = l₁ ++ l₂ ∧ (∀ a ∈ l₁, rank a = k) ∧ (∀ a ∈ l₂, k < rank a) ∧ (l₂.map rank).Pairwise (· ≤ ·) := by
  induction l with
  | nil => exact ⟨[], [], rfl, by simp, by simp, List.Pairwise.nil⟩
  | cons a l ih =>
    obtain ⟨ha, hl⟩ := List.pairwise_cons.mp h
    rcases (hk a List.mem_cons_self).eq_or_lt with heq | hlt
    · obtain ⟨l₁, l₂, rfl, h₁, h₂, h₃⟩ := ih hl fun b hb => hk b (List.mem_cons_of_mem a hb)
      exact ⟨a :: l₁, l₂, rfl, List.forall_mem_cons.mpr ⟨heq.symm, h₁⟩, h₂, h₃⟩
    · refine ⟨[], a :: l, rfl, by simp, List.forall_mem_cons.mpr ⟨hlt, fun b hb => ?_⟩, h⟩
      exact hlt.trans_le (ha _ (List.mem_map_of_mem hb))

/-- The place of an attribute in the order of the encoder, behind the entries for payload types. -/
def AttributeLine.rank : AttributeLine → Nat
  | direction _ => 1
  | value _ _ => 2

/-- The attributes stand in the order of the encoder, with at most one direction, and each is kept. -/
structure AttributesKept (ls : List AttributeLine) : Prop where
  ordered : (ls.map AttributeLine.rank).Pairwise (· ≤ ·)
  direction : (ls.filterMap AttributeLine.direction?).length ≤ 1
  kept : ∀ l ∈ ls, l.Kept

theorem values_again_iff {ls : List AttributeLine} (h : ∀ l ∈ ls, l.direction? = none) :
    (ls.filterMap AttributeLine.value?).map ValueAttribute.encode = ls.map (fun l => line 'a' l.text) ↔
      ∀ l ∈ ls, l.Kept := by
  induction ls with
  | nil => simp
  | cons l ls ih =>
    obtain ⟨hl, hls⟩ := List.forall_mem_cons.mp h
    cases l with
    | direction d => cases hl
    | value name v =>
      rw [List.filterMap_cons_some (show AttributeLine.value? (.value name v) = some _ from rfl), List.map_cons,
        List.map_cons, List.cons.injEq, ih hls, List.forall_mem_cons, AttributeLine.kept_value_iff]

theorem filterMap_direction_eq_nil {ls : List AttributeLine} (h : ∀ l ∈ ls, l.direction? = none) :
    ls.filterMap AttributeLine.direction? = [] := List.filterMap_eq_nil_iff.mpr h

theorem exists_directions {ls : List AttributeLine} (h : ∀ l ∈ ls, l.direction? ≠ none) :
    ∃ ds : List Direction, ls = ds.map .direction := by
  induction ls with
  | nil => exact ⟨[], rfl⟩
  | cons l ls ih =>
    obtain ⟨hl, hls⟩ := List.forall_mem_cons.mp h
    obtain ⟨ds, rfl⟩ := ih hls
    cases l with
    | direction d => exact ⟨d :: ds, rfl⟩
    | value name v => exact absurd rfl hl

theorem filterMap_map_direction (ds : List Direction) :
    (ds.map AttributeLine.direction).filterMap AttributeLine.direction? = ds ∧
      (ds.map AttributeLine.direction).filterMap AttributeLine.value? = [] := by
  rw [List.filterMap_map, List.filterMap_map]
  exact ⟨List.filterMap_some .., List.filterMap_eq_nil_iff.mpr fun _ _ => rfl⟩

theorem attributesAgain_append {ds : List Direction} {ls : List AttributeLine} (h : ∀ l ∈ ls, l.direction? = none) :
    attributesAgain (ds.map .direction ++ ls) =
      directionLines ds ++ (ls.filterMap AttributeLine.value?).map ValueAttribute.encode := by
  rw [attributesAgain, List.filterMap_append, List.filterMap_append, filterMap_direction_eq_nil h,
    (filterMap_map_direction ds).1, (filterMap_map_direction ds).2, List.append_nil, List.nil_append]

theorem AttributeLine.rank_of_value {l : AttributeLine} (h : l.direction? = none) : l.rank = 2 := by
  cases l with
  | direction d => cases h
  | value name v => rfl

theorem AttributeLine.direction_of_rank {l : AttributeLine} : l.direction? = none ↔ l.rank ≠ 1 := by
  cases l with
  | direction d => exact iff_of_false (by rintro ⟨⟩) (not_not.mpr rfl)
  | value name v => exact iff_of_true rfl (by decide : 2 ≠ 1)

theorem AttributeLine.one_le_rank (l : AttributeLine) : 1 ≤ l.rank := by
  cases l with
  | direction d => exact le_refl 1
  | value name v => exact one_le_two

theorem pairwise_le_of_forall_eq {l : List Nat} {k : Nat} (h : ∀ a ∈ l, a = k) : l.Pairwise (· ≤ ·) := by
  refine List.pairwise_of_forall_mem_list fun a ha b hb => ?_
  rw [h a ha, h b hb]

theorem colon_mem_encode (v : ValueAttribute) : ':' ∈ v.encode := by
  simp [ValueAttribute.encode, line]

theorem attributesAgain_eq_iff (ls : List AttributeLine) :
    attributesAgain ls = ls.map (fun l => line 'a' l.text) ↔ AttributesKept ls := by
  constructor
  · intro h
    obtain ⟨l₁, l₂, rfl, hx, hy, h₁, h₂⟩ := exists_parts (p := fun b => ':' ∉ b) h
      (fun b hb => colon_notMem_directionLines hb) fun b hb => by
        obtain ⟨v, -, rfl⟩ := List.mem_map.mp hb
        exact not_not.mpr (colon_mem_encode v)
    obtain ⟨ds, rfl⟩ := exists_directions fun l hl => mt l.colon_mem_line_iff.mpr (h₁ l hl)
    have hvalues : ∀ l ∈ l₂, l.direction? = none := fun l hl => l.colon_mem_line_iff.mp (not_not.mp (h₂ l hl))
    have hds : ds.length ≤ 1 := by
      have hle := length_directionLines_le
        ((ds.map AttributeLine.direction ++ l₂).filterMap AttributeLine.direction?)
      rwa [hx, List.length_map, List.length_map] at hle
    rw [List.filterMap_append, (filterMap_map_direction ds).2, List.nil_append, values_again_iff hvalues] at hy
    refine ⟨?_, ?_, ?_⟩
    · rw [List.map_append, List.pairwise_append]
      refine ⟨pairwise_le_of_forall_eq (k := 1) fun a ha => ?_, pairwise_le_of_forall_eq (k := 2) fun a ha => ?_,
        fun a ha b hb => ?_⟩
      · simp only [List.map_map, List.mem_map] at ha
        obtain ⟨d, -, rfl⟩ := ha
        rfl
      · obtain ⟨l, hl, rfl⟩ := List.mem_map.mp ha
        exact AttributeLine.rank_of_value (hvalues l hl)
      · simp only [List.map_map, List.mem_map] at ha
        obtain ⟨d, -, rfl⟩ := ha
        obtain ⟨l, hl, rfl⟩ := List.mem_map.mp hb
        exact l.one_le_rank
    · rw [List.filterMap_append, (filterMap_map_direction ds).1, filterMap_direction_eq_nil hvalues, List.append_nil]
      exact hds
    · intro l hl
      rcases List.mem_append.mp hl with hl | hl
      · obtain ⟨d, -, rfl⟩ := List.mem_map.mp hl
        exact trivial
      · exact hy l hl
  · rintro ⟨hordered, hdirection, hkept⟩
    obtain ⟨l₁, l₂, rfl, h₁, h₂, -⟩ := exists_parts_of_ordered hordered fun l _ => l.one_le_rank
    obtain ⟨ds, rfl⟩ := exists_directions fun l hl => mt AttributeLine.direction_of_rank.mp (not_not.mpr (h₁ l hl))
    have hvalues : ∀ l ∈ l₂, l.direction? = none := fun l hl => AttributeLine.direction_of_rank.mpr (h₂ l hl).ne'
    rw [List.filterMap_append, (filterMap_map_direction ds).1, filterMap_direction_eq_nil hvalues,
      List.append_nil] at hdirection
    rw [attributesAgain_append hvalues, List.map_append,
      (values_again_iff hvalues).mpr fun l hl => hkept l (List.mem_append_right _ hl)]
    congr 1
    rcases ds with _ | ⟨d, _ | ⟨d', ds⟩⟩
    · rfl
    · exact directionLines_singleton d
    · simp at hdirection

end Vocal.Sdp
