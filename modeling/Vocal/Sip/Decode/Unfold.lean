import Vocal.Sip.Decode

/-!
# Lines that stay folded

`removeLWS` goes over the text once. The spaces that it writes for the end of a line continue the line before, so that a
fold behind an empty line leaves another one: `removeLWS_unfolds_iff`.
-/

namespace Vocal.Sip

/-- The text begins with the end of a line that is continued. -/
def startsFold (d : Data) : Prop := ∃ c y, d = '\r' :: '\n' :: c :: y ∧ Data.isBlank c

/-- A line is continued behind an empty line. -/
def FoldsAfterEmptyLine (d : Data) : Prop := ∃ x y, d = x ++ '\r' :: '\n' :: y ∧ startsFold y

/-- The white space that folds lines. -/
def isWhite (c : Char) : Bool := isIn c " \t\r\n".toList

theorem folds_cons {a : Char} {d : Data} : Folds (a :: d) ↔ startsFold (a :: d) ∨ Folds d := by
  constructor
  · rintro ⟨x, c, y, heq, hc⟩
    cases x with
    | nil => exact Or.inl ⟨c, y, heq, hc⟩
    | cons b x =>
      obtain ⟨rfl, rfl⟩ := List.cons.inj heq
      exact Or.inr ⟨x, c, y, rfl, hc⟩
  · rintro (⟨c, y, heq, hc⟩ | ⟨x, c, y, rfl, hc⟩)
    · exact ⟨[], c, y, heq, hc⟩
    · exact ⟨a :: x, c, y, rfl, hc⟩

theorem foldsAfterEmptyLine_cons {a : Char} {d : Data} :
    FoldsAfterEmptyLine (a :: d) ↔ (∃ y, a = '\r' ∧ d = '\n' :: y ∧ startsFold y) ∨ FoldsAfterEmptyLine d := by
  constructor
  · rintro ⟨x, y, heq, hfold⟩
    cases x with
    | nil =>
      obtain ⟨rfl, rfl⟩ := List.cons.inj heq
      exact Or.inl ⟨y, rfl, rfl, hfold⟩
    | cons b x =>
      obtain ⟨rfl, rfl⟩ := List.cons.inj heq
      exact Or.inr ⟨x, y, rfl, hfold⟩
  · rintro (⟨y, rfl, rfl, hfold⟩ | ⟨x, y, rfl, hfold⟩)
    · exact ⟨[], y, rfl, hfold⟩
    · exact ⟨a :: x, y, rfl, hfold⟩

namespace Data

theorem startsBlank_removeLWS (d : Data) : (removeLWS d).startsBlank = true ↔ d.startsBlank = true ∨ startsFold d := by
  cases d with
  | nil =>
    rw [removeLWS]
    constructor
    · exact Or.inl
    · rintro (hblank | ⟨c, y, hnil, -⟩)
      · exact hblank
      · cases hnil
  | cons a d =>
    rcases removeLWS_cases a d with ⟨c, y, rfl, rfl, hc, heq⟩ | ⟨hkeep, heq⟩
    · rw [heq]
      exact iff_of_true rfl (Or.inr ⟨c, y, rfl, hc⟩)
    · rw [heq]
      constructor
      · exact Or.inl
      · rintro (hblank | ⟨c, y, hfold, hc⟩)
        · exact hblank
        · obtain ⟨rfl, rfl⟩ := List.cons.inj hfold
          rw [hkeep c y rfl rfl] at hc
          cases hc

theorem removeLWS_newline (d : Data) : removeLWS ('\n' :: d) = '\n' :: removeLWS d :=
  removeLWS_cons fun _ _ h => absurd h (by decide)

/-- A fold at the front of the result is left where nothing was unfolded at the front. -/
theorem startsFold_removeLWS {a : Char} {d : Data} (hkeep : ∀ c y, a = '\r' → d = '\n' :: c :: y → isBlank c = false) :
    startsFold (a :: removeLWS d) ↔ ∃ y, a = '\r' ∧ d = '\n' :: y ∧ startsFold y := by
  constructor
  · rintro ⟨c, z, heq, hc⟩
    obtain ⟨rfl, hrest⟩ := List.cons.inj heq
    cases d with
    | nil => cases hrest
    | cons b y =>
      rcases removeLWS_cases b y with ⟨_, _, -, -, -, hfold⟩ | ⟨-, hcons⟩
      · rw [hfold] at hrest
        cases (List.cons.inj hrest).1
      · rw [hcons] at hrest
        obtain ⟨rfl, htail⟩ := List.cons.inj hrest
        refine ⟨y, rfl, rfl, ?_⟩
        have hstart : (removeLWS y).startsBlank = true := by
          rw [htail]
          exact hc
        rcases (startsBlank_removeLWS y).mp hstart with hblank | hfold
        · cases y with
          | nil => cases hblank
          | cons c' y =>
            have hc' : isBlank c' = true := hblank
            rw [hkeep c' y rfl rfl] at hc'
            cases hc'
        · exact hfold
  · rintro ⟨y, rfl, rfl, c, z, rfl, hc⟩
    rw [removeLWS_newline, removeLWS_fold hc]
    exact ⟨' ', ' ' :: removeLWS (c :: z), rfl, by decide⟩

theorem folds_removeLWS_iff (d : Data) : Folds (removeLWS d) ↔ FoldsAfterEmptyLine d := by
  induction hn : d.length using Nat.strong_induction_on generalizing d with
  | _ n ih =>
    cases d with
    | nil =>
      refine iff_of_false ?_ ?_
      · rintro ⟨x, c, y, heq, -⟩
        cases x <;> cases heq
      · rintro ⟨x, y, heq, -⟩
        cases x <;> cases heq
    | cons a d =>
      rw [List.length_cons] at hn
      rcases removeLWS_cases a d with ⟨c, y, rfl, rfl, hc, heq⟩ | ⟨hkeep, heq⟩
      · have hnot : ∀ z : Data, ¬ startsFold (' ' :: z) := by
          rintro z ⟨_, _, hz, -⟩
          cases (List.cons.inj hz).1
        have hback : FoldsAfterEmptyLine ('\r' :: '\n' :: c :: y) ↔ FoldsAfterEmptyLine (c :: y) := by
          rw [foldsAfterEmptyLine_cons, foldsAfterEmptyLine_cons (a := '\n'), or_iff_right, or_iff_right]
          · rintro ⟨_, h, -⟩
            cases h
          · rintro ⟨_, -, h, c', y', hfold, -⟩
            obtain ⟨-, rfl⟩ := List.cons.inj h
            obtain ⟨rfl, -⟩ := List.cons.inj hfold
            cases hc
        rw [List.length_cons] at hn
        rw [heq, folds_cons, folds_cons, or_iff_right (hnot _), or_iff_right (hnot _), ih _ (by omega) _ rfl, hback]
      · rw [heq, folds_cons, foldsAfterEmptyLine_cons, startsFold_removeLWS hkeep, ih _ (by omega) _ rfl]

theorem filter_removeLWS (d : Data) : (removeLWS d).filter (!isWhite ·) = d.filter (!isWhite ·) := by
  fun_induction removeLWS d with
  | case1 => rfl
  | case2 c d hc ih =>
    have hspace : ∀ z : Data, (' ' :: z).filter (!isWhite ·) = z.filter (!isWhite ·) := fun _ => rfl
    have hreturn : ∀ z : Data, ('\r' :: '\n' :: z).filter (!isWhite ·) = z.filter (!isWhite ·) := fun _ => rfl
    rw [hspace, hspace, hreturn, ih]
  | case3 c d hc ih => rw [List.filter_cons_of_neg (by decide), List.filter_cons_of_neg (by decide), ih]
  | case4 c d _ ih => rw [List.filter_cons, List.filter_cons, ih]

/-- **Unfolding.** `removeLWS` leaves no folded line and does nothing when it is applied again, and keeps what is not
white space, exactly if no line is continued behind an empty line. -/
theorem removeLWS_unfolds_iff (d : Data) :
    (¬ Folds (removeLWS d) ∧ removeLWS (removeLWS d) = removeLWS d ∧
      (removeLWS d).filter (!isWhite ·) = d.filter (!isWhite ·)) ↔ ¬ FoldsAfterEmptyLine d := by
  rw [removeLWS_eq_self_iff, folds_removeLWS_iff]
  constructor
  · exact fun h => h.1
  · exact fun h => ⟨h, h, filter_removeLWS d⟩

theorem removeLWS_leaves_fold :
    removeLWS "a\r\n\r\n b".toList = "a\r\n   b".toList ∧ Folds (removeLWS "a\r\n\r\n b".toList) ∧
      removeLWS (removeLWS "a\r\n\r\n b".toList) ≠ removeLWS "a\r\n\r\n b".toList :=
  ⟨by decide, ⟨['a'], ' ', "  b".toList, by decide, by decide⟩, by decide⟩

end Data

end Vocal.Sip
