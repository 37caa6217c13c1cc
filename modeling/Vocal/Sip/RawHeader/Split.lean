import Vocal.Sip.RawHeader.Values

/-!
# Splitting and joining again

`SipRawHeader::decode` cuts the text of a header line with a loop that takes off a value at each comma outside
quotes and brackets. `Splits` is that loop without a bound on its turns. It ends on every text, and what it takes
off is the text with commas and spaces between the values, see `splitting`.

The commas of empty elements are dropped: `Route: ,<sip:a>` has one value (`empty_element_is_lost`).
-/

namespace Vocal.Sip

open Cut

/-- The turns of the loop up to its end. -/
inductive Splits : Data → List Data → Prop
  | single {headerValue : Data} : headerValue.parseOutsideQuotes ",".toList = none → Splits headerValue [headerValue]
  | found {headerValue found tmp : Data} {values : List Data} :
      headerValue.parseOutsideQuotes ",".toList = some (found, tmp) → found ≠ [] →
      Splits tmp.removeSpaces values → Splits headerValue (found :: values)
  | empty {headerValue tmp : Data} {values : List Data} :
      headerValue.parseOutsideQuotes ",".toList = some ([], tmp) → Splits tmp values → Splits headerValue values

/-- A comma with spaces next to it. -/
def IsComma (gap : Data) : Prop := ∃ a b, gap = a ++ ',' :: b ∧ (∀ c ∈ a, c = ' ') ∧ ∀ c ∈ b, c = ' '

/-- One comma or several, with nothing or spaces between them and next to them. -/
def IsCommas (gap : Data) : Prop := ',' ∈ gap ∧ ∀ c ∈ gap, c = ',' ∨ c = ' '

/-- The text is the values in order, with a gap of the kind for each comma of the values when joined; `lead` and
`trail` say what may stand in front of them and after them. -/
def JoinsTo (lead gap trail : Data → Prop) (values : List Data) (text : Data) : Prop :=
  ∃ x body y, text = x ++ body ++ y ∧ lead x ∧ Woven gap values body ∧ trail y

/-- An element of the text is empty: the text begins with a comma, or there are only spaces between two commas
that are outside. -/
def HasEmpty (text : Data) : Prop :=
  text.head? = some ',' ∨ ∃ x s y, text = x ++ ',' :: (s ++ ',' :: y) ∧ Closed x ∧ ∀ c ∈ s, c = ' '

/-! ### The loop ends -/

theorem splits_splitValues (v : Data) : Splits v (splitValues v) := by
  induction hn : v.length using Nat.strong_induction_on generalizing v with
  | _ n ih =>
    cases hp : v.parseOutsideQuotes ",".toList with
    | none =>
      have hv : splitValues v = [v] := by
        unfold splitValues splitLoop
        rw [hp]
      rw [hv]
      exact .single hp
    | some p =>
      obtain ⟨found, tmp⟩ := p
      have hlen := length_parseOutsideQuotes hp
      have hspaces := length_removeSpaces_le tmp
      rw [splitValues_comma hp]
      by_cases hfound : found = []
      · subst hfound
        rw [if_neg (not_not.mpr rfl)]
        exact .empty hp (ih tmp.length (by omega) tmp rfl)
      · rw [if_pos hfound]
        exact .found hp hfound (ih tmp.removeSpaces.length (by omega) _ rfl)

/-! ### Joining -/

theorem exists_removeSpaces (d : Data) :
    ∃ a b, d = a ++ d.removeSpaces ++ b ∧ (∀ c ∈ a, c = ' ') ∧ ∀ c ∈ b, c = ' ' := by
  obtain ⟨a, b, hd, ha, hb⟩ := exists_trim (p := fun c : Char => decide (c = ' ')) d
  exact ⟨a, b, hd, fun c hc => of_decide_eq_true (ha c hc), fun c hc => of_decide_eq_true (hb c hc)⟩

theorem exists_dropCommas (d : Data) :
    ∃ a, d = a ++ d.dropWhile (isIn · ",".toList) ∧ ∀ c ∈ a, c = ',' := by
  refine ⟨d.takeWhile (isIn · ",".toList), List.takeWhile_append_dropWhile.symm, ?_⟩
  intro c hc
  have h := List.mem_takeWhile_imp hc
  simpa [isIn] using h

theorem JoinsTo.cons (lead : Data → Prop) {lead' gap trail : Data → Prop} {values : List Data} {w g b : Data}
    (h : JoinsTo lead' gap trail values w) (hlead : lead []) (hgap : ∀ x, lead' x → gap (g ++ x))
    (htrail : ∀ y, trail y → trail (y ++ b)) (found : Data) :
    JoinsTo lead gap trail (found :: values) (found ++ (g ++ (w ++ b))) := by
  obtain ⟨x, body, y, rfl, hx, hbody, hy⟩ := h
  refine ⟨[], found ++ (g ++ x) ++ body, y ++ b, ?_, hlead, .cons found _ (hgap x hx) hbody, htrail y hy⟩
  simp only [List.nil_append, List.append_assoc]

theorem spaces_append {x y : Data} (hx : ∀ c ∈ x, c = ' ') (hy : ∀ c ∈ y, c = ' ') : ∀ c ∈ x ++ y, c = ' ' := by
  intro c hc
  rcases List.mem_append.mp hc with hc | hc
  · exact hx c hc
  · exact hy c hc

/-- What is left out is a run of commas at the start, commas and spaces between two values and spaces at the end. -/
theorem joinsTo_splitValues (v : Data) :
    JoinsTo (fun x => ∀ c ∈ x, c = ',') IsCommas (fun y => ∀ c ∈ y, c = ' ') (splitValues v) v := by
  induction v using splitValues_induction with
  | single v _ hsplit =>
    rw [hsplit]
    exact ⟨[], v, [], by simp, by simp, .last v, by simp⟩
  | comma v found rest hv _ _ ih hsplit =>
    obtain ⟨commas, hrest, hcommas⟩ := exists_dropCommas rest
    have hdrop := length_dropWhile_le (isIn · ",".toList) rest
    generalize rest.dropWhile (isIn · ",".toList) = tmp at *
    rw [hsplit]
    split
    · obtain ⟨a, b, htmp, ha, hb⟩ := exists_removeSpaces tmp
      have hgap : ∀ x : Data, (∀ c ∈ x, c = ',') → IsCommas (',' :: (commas ++ a) ++ x) := by
        intro x hx
        refine ⟨List.mem_cons_self .., ?_⟩
        intro c hc
        simp only [List.cons_append, List.mem_cons, List.mem_append] at hc
        rcases hc with hc | (hc | hc) | hc
        · exact Or.inl hc
        · exact Or.inl (hcommas c hc)
        · exact Or.inr (ha c hc)
        · exact Or.inl (hx c hc)
      have hjoins := (ih _ ((length_removeSpaces_le tmp).trans hdrop)).cons (fun x => ∀ c ∈ x, c = ',')
        (by simp) hgap (fun y hy => spaces_append hy hb) found
      have htext : v = found ++ (',' :: (commas ++ a) ++ (Data.removeSpaces tmp ++ b)) := by
        rw [hv, hrest]
        nth_rewrite 1 [htmp]
        simp only [List.append_assoc, List.cons_append]
      rw [htext]
      exact hjoins
    · rename_i hfound
      obtain rfl : found = [] := not_not.mp hfound
      obtain ⟨x, body, y, hw, hx, hbody, hy⟩ := ih tmp hdrop
      refine ⟨',' :: (commas ++ x), body, y, ?_, ?_, hbody, hy⟩
      · rw [hv, hrest, hw]
        simp only [List.nil_append, List.append_assoc, List.cons_append]
      · intro c hc
        simp only [List.mem_cons, List.mem_append] at hc
        rcases hc with hc | hc | hc
        · exact hc
        · exact hcommas c hc
        · exact hx c hc

theorem after_append (n : Nesting) (x y : Data) : n.after (x ++ y) = (n.after x).after y := List.foldl_append

theorem after_spaces (n : Nesting) {a : Data} (ha : ∀ c ∈ a, c = ' ') : n.after a = n := by
  induction a with
  | nil => rfl
  | cons c a ih =>
    obtain rfl := ha c (List.mem_cons_self ..)
    have hnext : n.next ' ' = n := by simp [Nesting.next]
    unfold Nesting.after
    rw [List.foldl_cons, hnext]
    exact ih fun c hc => ha c (List.mem_cons_of_mem _ hc)

theorem hasEmpty_of_rest {found a w b : Data} (hclosed : Closed found) (ha : ∀ c ∈ a, c = ' ') (h : HasEmpty w) :
    HasEmpty (found ++ ',' :: (a ++ w ++ b)) := by
  right
  rcases h with hhead | ⟨x, s, y, rfl, hx, hs⟩
  · obtain ⟨w', rfl⟩ : ∃ w', w = ',' :: w' := by
      cases w with
      | nil => cases hhead
      | cons c w => exact ⟨w, by simpa using hhead⟩
    exact ⟨found, a, w' ++ b, by simp, hclosed, ha⟩
  · refine ⟨found ++ ',' :: (a ++ x), s, y ++ b, by simp, ?_, hs⟩
    have hcons : Nesting.outside.after (found ++ ',' :: (a ++ x)) = Nesting.outside.after (a ++ x) := by
      rw [after_append, hclosed]
      rfl
    unfold Closed
    rw [hcons, after_append, after_spaces _ ha]
    exact hx

theorem joinsTo_of_not_hasEmpty {v : Data} (h : ¬ HasEmpty v) :
    JoinsTo (fun x => ∀ c ∈ x, c = ' ') IsComma (fun y => ∀ c ∈ y, c = ' ') (splitValues v) v := by
  induction v using splitValues_induction with
  | single v _ hsplit =>
    rw [hsplit]
    exact ⟨[], v, [], by simp, by simp, .last v, by simp⟩
  | comma v found rest hv _ hclosed ih hsplit =>
    have hfound : found ≠ [] := by
      rintro rfl
      exact h (Or.inl (by rw [hv]; rfl))
    have hcomma : ∀ c ∈ rest.head?, isIn c ",".toList = false := by
      intro c hc
      by_contra hin
      obtain rfl : c = ',' := by simpa [isIn] using hin
      obtain ⟨rest', rfl⟩ := List.head?_eq_some_iff.mp hc
      exact h (Or.inr ⟨found, [], rest', hv, hclosed, by simp⟩)
    rw [hsplit, if_pos hfound, dropWhile_eq_self_of_head hcomma]
    obtain ⟨a, b, hrest, ha, hb⟩ := exists_removeSpaces rest
    have hne : ¬ HasEmpty (Data.removeSpaces rest) := by
      intro hempty
      apply h
      rw [hv, hrest]
      exact hasEmpty_of_rest hclosed ha hempty
    have hgap : ∀ x : Data, (∀ c ∈ x, c = ' ') → IsComma (',' :: a ++ x) :=
      fun x hx => ⟨[], a ++ x, rfl, by simp, spaces_append ha hx⟩
    have hjoins := (ih _ (length_removeSpaces_le rest) hne).cons (fun x => ∀ c ∈ x, c = ' ')
      (by simp) hgap (fun y hy => spaces_append hy hb) found
    have htext : v = found ++ (',' :: a ++ (Data.removeSpaces rest ++ b)) := by
      rw [hv]
      nth_rewrite 1 [hrest]
      simp only [List.append_assoc, List.cons_append]
    rw [htext]
    exact hjoins

theorem splitValues_ne_nil (v : Data) : splitValues v ≠ [] := by
  induction v using splitValues_induction with
  | single v _ hsplit =>
    rw [hsplit]
    simp
  | comma v found rest _ _ _ ih hsplit =>
    rw [hsplit]
    split
    · simp
    · exact ih _ (length_dropWhile_le _ _)

theorem closed_splitValues (v : Data) : ∀ x ∈ (splitValues v).dropLast, Closed x := by
  induction v using splitValues_induction with
  | single v _ hsplit =>
    rw [hsplit]
    simp
  | comma v found rest _ _ hclosed ih hsplit =>
    have hdrop := length_dropWhile_le (isIn · ",".toList) rest
    rw [hsplit]
    split
    · have htail := ih _ ((length_removeSpaces_le (rest.dropWhile (isIn · ",".toList))).trans hdrop)
      rw [List.dropLast_cons_of_ne_nil (splitValues_ne_nil _)]
      intro x hx
      rcases List.mem_cons.mp hx with rfl | hx
      · exact hclosed
      · exact htail x hx
    · exact ih _ hdrop

/-! ### Lines -/

/-- The loop ends on the value of every line, no value has a comma outside, and each but the last closes its
quotes and brackets. The values joined again are the text of the line up to spaces and empty elements, and up to
spaces where no element is empty. -/
theorem splitting (headerData headerName headerValue : Data)
    (hline : headerData.parse SipRawHeader.nameEnd = some (headerName, headerValue))
    (hmultiple : isMultiple (headerTypeDecode (str2lower headerName)) = true) :
    ∃ values, Splits headerValue values ∧
      SipRawHeader.decode headerData =
        some (values.map fun value => ⟨headerTypeDecode (str2lower headerName), headerName, value⟩) ∧
      (∀ value ∈ values, NoOuterComma value) ∧ (∀ value ∈ values.dropLast, Closed value) ∧
      JoinsTo (fun x => ∀ c ∈ x, c = ',') IsCommas (fun y => ∀ c ∈ y, c = ' ') values headerValue ∧
      (¬ HasEmpty headerValue →
        JoinsTo (fun x => ∀ c ∈ x, c = ' ') IsComma (fun y => ∀ c ∈ y, c = ' ') values headerValue) := by
  refine ⟨splitValues headerValue, splits_splitValues headerValue, ?_, ?_, closed_splitValues headerValue,
    joinsTo_splitValues headerValue, joinsTo_of_not_hasEmpty⟩
  · unfold SipRawHeader.decode
    rw [hline, Option.map_some]
    simp only
    rw [if_pos hmultiple]
  · intro value h
    exact (mem_splitValues h).1

/-- Two routes, the first with a comma in quotes. -/
theorem splitting_route :
    ∃ values, Splits "\"a,b\" <sip:a> ,  <sip:b>".toList values ∧
      (∀ value ∈ values, NoOuterComma value) ∧
      JoinsTo (fun x => ∀ c ∈ x, c = ',') IsCommas (fun y => ∀ c ∈ y, c = ' ') values
        "\"a,b\" <sip:a> ,  <sip:b>".toList := by
  obtain ⟨values, hsplits, -, hcomma, -, hjoins, -⟩ :=
    splitting "Route: \"a,b\" <sip:a> ,  <sip:b>".toList "Route".toList "\"a,b\" <sip:a> ,  <sip:b>".toList
      (by decide) (by decide)
  exact ⟨values, hsplits, hcomma, hjoins⟩

/-- The comma of an empty element is lost: joining the one value of the line does not give its text. -/
theorem empty_element_is_lost :
    SipRawHeader.decode "Route: ,<sip:a>".toList =
        some [⟨.SIP_ROUTE_HDR, "Route".toList, "<sip:a>".toList⟩] ∧
      ¬ JoinsTo (fun x => ∀ c ∈ x, c = ' ') IsComma (fun y => ∀ c ∈ y, c = ' ') ["<sip:a>".toList]
        ",<sip:a>".toList := by
  refine ⟨by decide, ?_⟩
  rintro ⟨x, body, y, htext, hx, hbody, -⟩
  have hhead : (x ++ body ++ y).head? = some ',' := by
    rw [← htext]
    rfl
  cases hbody with
  | last =>
    cases x with
    | nil => exact absurd hhead (by simp)
    | cons c x =>
      obtain rfl := hx c (List.mem_cons_self ..)
      exact absurd hhead (by simp)
  | cons _ _ _ hrest => cases hrest

end Vocal.Sip
