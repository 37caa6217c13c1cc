import Vocal.Sip.RawHeader

/-!
# Header blocks as lines

`blockLines` cuts a text into the lines that `SipRawHeaderContainer::decode` reads, and
`headersOf` gives the headers that a line holds. `decode_headers` says that the container is made of
the headers of these lines, in their order. `encodeLines` gives the lines that `encode` writes.
-/

namespace Vocal.Sip

open Cut

namespace Data

theorem getLine_append {x rest : Data} (hx : '\n' ∉ x) : getLine (x ++ '\n' :: rest) = some (chopCR x, rest) := by
  have hcut : cut (fun c : Char => decide (c = '\n')) (x ++ '\n' :: rest) = some (x, '\n', rest) := by
    apply cut_append
    · intro b hb
      rw [decide_eq_false_iff_not]
      rintro rfl
      exact hx hb
    · simp
  rw [getLine, hcut]
  rfl

theorem getLine_eq_none {d : Data} (hd : '\n' ∉ d) : getLine d = none := by
  have hcut : cut (fun c : Char => decide (c = '\n')) d = none := by
    rw [cut_eq_none_iff]
    intro b hb
    rw [decide_eq_false_iff_not]
    rintro rfl
    exact hd hb
  rw [getLine, hcut]
  rfl

theorem chopCR_append_cr (x : Data) : chopCR (x ++ ['\r']) = x := by
  simp [chopCR]

theorem exists_chopCR (x : Data) : ∃ q, (q = [] ∨ q = ['\r']) ∧ x = chopCR x ++ q := by
  rw [chopCR]
  split
  · rename_i hcr
    obtain ⟨x', rfl⟩ := List.getLast?_eq_some_iff.mp hcr
    exact ⟨['\r'], Or.inr rfl, by rw [List.dropLast_concat]⟩
  · exact ⟨[], Or.inl rfl, (List.append_nil x).symm⟩

theorem mem_of_mem_chopCR {x : Data} {c : Char} (h : c ∈ chopCR x) : c ∈ x := by
  rw [chopCR] at h
  split at h
  · exact List.dropLast_subset _ h
  · exact h

theorem mem_chopCR {x : Data} {c : Char} (h : c ∈ x) (hc : c ≠ '\r') : c ∈ chopCR x := by
  obtain ⟨q, hq, heq⟩ := exists_chopCR x
  rw [heq] at h
  rcases List.mem_append.mp h with h | h
  · exact h
  · rcases hq with rfl | rfl
    · cases h
    · exact absurd (List.mem_singleton.mp h) hc

theorem chopCR_append {x : Data} {c : Char} (hx : x.getLast? = some c) (hc : c ≠ '\r') (y : Data) :
    chopCR (x ++ y) = x ++ chopCR y := by
  rw [chopCR, chopCR, List.getLast?_append]
  cases hy : y.getLast? with
  | none =>
    rw [List.getLast?_eq_none_iff] at hy
    subst hy
    simp [hx, hc]
  | some b =>
    have hne : y ≠ [] := by
      rintro rfl
      cases hy
    by_cases hb : b = '\r'
    · simp [hb, List.dropLast_append_of_ne_nil hne]
    · simp [hb]

theorem line_cases (d : Data) : (∃ x rest, '\n' ∉ x ∧ d = x ++ '\n' :: rest) ∨ '\n' ∉ d := by
  by_cases hd : '\n' ∈ d
  · left
    obtain ⟨x, rest, rfl, hx⟩ := List.eq_append_cons_of_mem hd
    exact ⟨x, rest, hx, rfl⟩
  · exact Or.inr hd

end Data

/-! ### The lines of a text -/

/-- The complete lines of a text, up to the first empty one. -/
def blockLines (d : Data) : List Data := ((d.splitOn '\n').dropLast.map Data.chopCR).takeWhile (· ≠ [])

theorem blockLines_append {x : Data} (hx : '\n' ∉ x) (rest : Data) :
    blockLines (x ++ '\n' :: rest) =
      if Data.chopCR x = [] then [] else Data.chopCR x :: blockLines rest := by
  rw [blockLines, List.splitOn_append_cons_self_of_not_mem hx,
    List.dropLast_cons_of_ne_nil (List.splitOn_ne_nil _ _), List.map_cons, List.takeWhile_cons]
  simp [blockLines]

theorem blockLines_eq_nil {d : Data} (hd : '\n' ∉ d) : blockLines d = [] := by
  rw [blockLines, List.splitOn_eq_singleton hd]
  rfl

theorem blockLines_flatMap {ls : List Data} (h : ∀ l ∈ ls, l ≠ [] ∧ '\n' ∉ l) :
    blockLines (ls.flatMap (· ++ CRLF)) = ls := by
  induction ls with
  | nil => rfl
  | cons l ls ih =>
    obtain ⟨hne, hl⟩ := h l (List.mem_cons_self ..)
    have hcr : '\n' ∉ l ++ ['\r'] := by simp [hl]
    have hsplit : (l :: ls).flatMap (· ++ CRLF) = (l ++ ['\r']) ++ '\n' :: ls.flatMap (· ++ CRLF) := by
      simp [CRLF]
    rw [hsplit, blockLines_append hcr, Data.chopCR_append_cr, if_neg hne,
      ih fun l' hl' => h l' (List.mem_cons_of_mem _ hl')]

/-! ### The headers of a line -/

namespace SipRawHeader

/-- The headers of a type that a line holds. -/
def headersOf (type : SipHeaderType) (line : Data) : List SipRawHeader :=
  ((decode line).getD []).filter (·.headerType = type)

theorem decode_eq_some {line : Data} {hs : List SipRawHeader} (h : decode line = some hs) :
    ∃ headerName headerValue, line.parse nameEnd = some (headerName, headerValue) ∧
      hs = (if isMultiple (headerTypeDecode (str2lower headerName)) then splitValues headerValue
        else [headerValue]).map fun value => ⟨headerTypeDecode (str2lower headerName), headerName, value⟩ := by
  obtain ⟨⟨headerName, headerValue⟩, hparse, rfl⟩ := Option.map_eq_some_iff.mp h
  exact ⟨headerName, headerValue, hparse, rfl⟩

end SipRawHeader

namespace SipRawHeaderContainer

open SipRawHeader (headersOf)

theorem insertManyHeader_decode {line : Data} {hs : List SipRawHeader} (c : SipRawHeaderContainer)
    (h : SipRawHeader.decode line = some hs) (type : SipHeaderType) :
    c.insertManyHeader hs type = c type ++ headersOf type line := by
  rw [insertManyHeader, headersOf, h, Option.getD_some]
  obtain ⟨headerName, headerValue, -, rfl⟩ := SipRawHeader.decode_eq_some h
  generalize (if isMultiple _ then splitValues headerValue else [headerValue]) = values
  generalize headerTypeDecode _ = t
  cases values with
  | nil => simp
  | cons v vs =>
    by_cases ht : t = type
    · simp [ht, List.filter_map, Function.comp_def]
    · simp [ht, List.filter_map, Function.comp_def]

theorem decodeLoop_headers {fuel : Nat} {c : SipRawHeaderContainer} {d : Data} (hfuel : d.length < fuel) :
    ((decodeLoop fuel c d).parseError = false ↔
        ∀ l ∈ blockLines d, SipRawHeader.decode l ≠ none) ∧
      ((decodeLoop fuel c d).parseError = false → ∀ type,
        (decodeLoop fuel c d).headers type = c type ++ (blockLines d).flatMap (headersOf type)) := by
  induction fuel generalizing c d with
  | zero => omega
  | succ fuel ih =>
    rcases Data.line_cases d with ⟨x, rest, hx, rfl⟩ | hd
    · rw [decodeLoop, Data.getLine_append hx, blockLines_append hx]
      by_cases hempty : Data.chopCR x = []
      · simp [hempty]
      · have hrest : rest.length < fuel := by
          simp only [List.length_append, List.length_cons] at hfuel
          omega
        rw [if_neg hempty]
        cases hdec : SipRawHeader.decode (Data.chopCR x) with
        | none => simp [hempty, hdec]
        | some hs =>
          simp only [hempty, if_false, hdec]
          obtain ⟨hok, hheaders⟩ := ih (c := c.insertManyHeader hs) hrest
          refine ⟨?_, ?_⟩
          · rw [hok]
            simp [hdec]
          · intro h type
            rw [hheaders h type, insertManyHeader_decode c hdec, List.flatMap_cons, List.append_assoc]
    · rw [decodeLoop, Data.getLine_eq_none hd, blockLines_eq_nil hd]
      simp

theorem decode_parseError (d : Data) :
    (decode d).parseError = false ↔ ∀ l ∈ blockLines d, SipRawHeader.decode l ≠ none :=
  (decodeLoop_headers (Nat.lt_succ_self _)).1

theorem decode_headers {d : Data} (h : (decode d).parseError = false) (type : SipHeaderType) :
    (decode d).headers type = (blockLines d).flatMap (headersOf type) :=
  (decodeLoop_headers (Nat.lt_succ_self _)).2 h type

end SipRawHeaderContainer

end Vocal.Sip
