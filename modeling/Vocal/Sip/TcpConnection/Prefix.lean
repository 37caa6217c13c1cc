import Vocal.Sip.TcpConnection.Framing

/-!
# Later bytes and the boundary of a message

`isFullMsg` looks for the length header in all of the bytes that have come, those behind the message included. A boundary
stays where it is when that search does; a length header of the next message can move it.
-/

namespace Vocal.Sip

/-- The header has no line that raises. -/
def NotBare (str : Data) : Prop := ∀ line, lengthLine (header str) = some line → ¬ Bare line

/-- The bytes behind the header, as the `int` that the code compares with their length, are enough. -/
def HasBody (str : Data) : Prop := contentLength (header str) ≤ toInt32 (str.length - headerEnd str)

/-- The end of the message that the header gives. -/
def messageEnd (str : Data) : Int := toInt32 (headerEnd str + contentLength (header str))

/-- A text is reported as complete. -/
def Complete (str : Data) (n : Int) : Prop := isFullMsg str = some n ∧ n ≠ -1

theorem isFullMsg_iff {str : Data} {n : Int} (hn : n ≠ -1) :
    isFullMsg str = some n ↔ NotBare str ∧ headerEnds str = true ∧ HasBody str ∧ messageEnd str = n := by
  have hvalue : ∀ read : Int, (if read = -1 then 0 else read) = contentLength (header str) →
      ((if headerEnds str = true ∧ (if read = -1 then 0 else read) ≤ toInt32 (str.length - headerEnd str) ∧
          0 < str.length then toInt32 (headerEnd str + if read = -1 then 0 else read) else -1) = n ↔
        headerEnds str = true ∧ HasBody str ∧ messageEnd str = n) := by
    intro read hread
    rw [hread, HasBody, messageEnd]
    by_cases hends : headerEnds str = true
    · have hpos : 0 < str.length := Nat.lt_of_lt_of_le (headerEnd_pos hends) (headerEnd_le str)
      by_cases hbody : contentLength (header str) ≤ toInt32 (str.length - headerEnd str)
      · rw [if_pos ⟨hends, hbody, hpos⟩]
        exact ⟨fun h => ⟨hends, hbody, h⟩, fun h => h.2.2⟩
      · rw [if_neg fun h => hbody h.2.1]
        exact ⟨fun h => absurd h.symm hn, fun h => absurd h.2.1 hbody⟩
    · rw [if_neg fun h => hends h.1]
      exact ⟨fun h => absurd h.symm hn, fun h => absurd h.1 hends⟩
  rw [isFullMsg_eq, NotBare]
  cases hline : lengthLine (header str) with
  | none =>
    have hlength : contentLength (header str) = 0 := by rw [contentLength, hline, Option.elim_none]
    rw [Option.elim_none, Option.map_some, Option.some_inj, hvalue (-1) ((if_pos rfl).trans hlength.symm)]
    exact ⟨fun h => ⟨by rintro _ ⟨⟩, h⟩, fun h => h.2⟩
  | some line =>
    have hlength : contentLength (header str) = declared line := by rw [contentLength, hline, Option.elim_some]
    rw [Option.elim_some]
    rcases getContentLength_of_lengthLine hline with ⟨hbare, hnone⟩ | ⟨hbare, hread, hknown⟩
    · rw [hnone, Option.map_none]
      exact iff_of_false (fun h => Option.some_ne_none n h.symm) fun h => h.1 line rfl hbare
    · rw [hread, Option.map_some, Option.some_inj, hvalue _ ((if_neg hknown).trans hlength.symm)]
      refine ⟨fun h => ⟨fun line' heq => ?_, h⟩, fun h => h.2⟩
      obtain rfl := Option.some.inj heq
      exact hbare

/-! ### The header in a longer text -/

theorem completeLines_append (text more : Data) : completeLines text <+: completeLines (text ++ more) := by
  have h := completeLines_take (text ++ more) text.length
  rwa [List.take_left] at h

theorem headerLines_append {lines : List Data} {nonBlank : Bool} (h : foundBlank lines nonBlank = true)
    (more : List Data) :
    headerLines (lines ++ more) nonBlank = headerLines lines nonBlank ∧ foundBlank (lines ++ more) nonBlank = true := by
  induction lines generalizing nonBlank with
  | nil => cases h
  | cons line lines ih =>
    rw [foundBlank] at h
    rw [List.cons_append, headerLines, headerLines, foundBlank]
    split at h
    · rename_i hblank
      rw [if_pos hblank, if_pos hblank, if_pos hblank]
      cases nonBlank with
      | true => exact ⟨rfl, rfl⟩
      | false =>
        obtain ⟨hlines, hfound⟩ := ih h
        exact ⟨congrArg _ hlines, hfound⟩
    · rename_i hblank
      rw [if_neg hblank, if_neg hblank, if_neg hblank]
      obtain ⟨hlines, hfound⟩ := ih h
      exact ⟨congrArg _ hlines, hfound⟩

theorem header_append {s t : Data} (hends : headerEnds s = true) (hstart : searchPos (s ++ t) = searchPos s) :
    header (s ++ t) = header s ∧ headerEnds (s ++ t) = true ∧ headerEnd (s ++ t) = headerEnd s := by
  have hdrop : (s ++ t).drop (searchPos s) = s.drop (searchPos s) ++ t :=
    List.drop_append_of_le_length (searchPos_le s)
  obtain ⟨more, hmore⟩ := completeLines_append (s.drop (searchPos s)) t
  obtain ⟨hlines, hfound⟩ := headerLines_append hends more
  have hheader : header (s ++ t) = header s := by rw [header, hstart, hdrop, ← hmore, hlines, header]
  refine ⟨hheader, ?_, ?_⟩
  · rw [headerEnds, hstart, hdrop, ← hmore, hfound]
  · rw [headerEnd, headerEnd, hheader, hstart]

/-! ### The boundary -/

/-- What keeps the boundary of `s` when `t` comes behind it: the search lands at the same place, and the bytes behind the
header are still enough as an `int`. When it lands elsewhere, the header there has to end the message at the same byte;
that takes a number that wraps an `int`. -/
def KeepsBoundary (s t : Data) : Prop :=
  if searchPos (s ++ t) = searchPos s then contentLength (header s) ≤ toInt32 ((s ++ t).length - headerEnd s)
  else NotBare (s ++ t) ∧ headerEnds (s ++ t) = true ∧ HasBody (s ++ t) ∧ messageEnd (s ++ t) = messageEnd s

theorem isFullMsg_append_iff {s : Data} {n : Int} (h : Complete s n) (t : Data) :
    isFullMsg (s ++ t) = some n ↔ KeepsBoundary s t := by
  obtain ⟨hreport, hn⟩ := h
  obtain ⟨hbare, hends, hbody, hend⟩ := (isFullMsg_iff hn).mp hreport
  rw [isFullMsg_iff hn, KeepsBoundary]
  split
  · rename_i hstart
    obtain ⟨hheader, hends', hend'⟩ := header_append hends hstart
    rw [NotBare, HasBody, messageEnd, hheader, hend']
    exact ⟨fun h => h.2.2.1, fun h => ⟨hbare, hends', h, hend⟩⟩
  · rw [hend]

/-- Later bytes leave the boundary of a complete message where it is exactly under this condition. -/
theorem boundary_kept_iff (s t : Data) :
    (∀ n, Complete s n → isFullMsg (s ++ t) = some n) ↔ ∀ n, Complete s n → KeepsBoundary s t :=
  forall₂_congr fun _ h => isFullMsg_append_iff h t

/-- A message with a short length header, and the next one with a long one. -/
theorem not_boundary_kept :
    ¬ ∀ n, Complete "A\r\nl:0\r\n\r\n".toList n →
      isFullMsg ("A\r\nl:0\r\n\r\n".toList ++ "B\r\nContent-Length:0\r\n\r\n".toList) = some n :=
  fun h => absurd (h 10 ⟨by decide, by decide⟩) (by decide)

theorem le_headerEnd_of_starts {str pat : Data} (hpat : '\n' ∉ pat) (hstarts : pat <+: str.drop (searchPos str))
    (hends : headerEnds str = true) : searchPos str + pat.length ≤ headerEnd str := by
  rw [headerEnds] at hends
  rw [headerEnd, header]
  rcases line_cases (str.drop (searchPos str)) with hnone | ⟨line, rest, htext, hline⟩
  · rw [completeLines_of_not_mem hnone] at hends
    cases hends
  · rw [htext] at hstarts
    have hle : pat.length ≤ line.length := by
      by_contra hlt
      have hinitial : line ++ ['\n'] <+: pat := by
        refine List.prefix_of_prefix_length_le ⟨rest, by simp⟩ hstarts ?_
        rw [List.length_append, List.length_singleton]
        omega
      exact hpat (hinitial.subset (by simp))
    rw [htext, completeLines_line hline, headerLines, bytes, List.map_cons, List.sum_cons]
    omega

/-- Where the search lands elsewhere, the boundary can only stay because of a number that is negative as an `int`. -/
theorem contentLength_neg_of_moved {s t : Data} {n : Int} (h : Complete s n) (hmoved : searchPos (s ++ t) ≠ searchPos s)
    (hlength : (s ++ t).length < 2 ^ 31) (hkeeps : KeepsBoundary s t) : contentLength (header (s ++ t)) < 0 := by
  obtain ⟨-, -, hbody, -⟩ := (isFullMsg_iff h.2).mp h.1
  rw [KeepsBoundary, if_neg hmoved] at hkeeps
  obtain ⟨-, hends, hbody', hend⟩ := hkeeps
  have hbehind : s.length < headerEnd (s ++ t) := by
    have hfound := searchPos_take (s ++ t) s.length
    rw [List.take_left] at hfound
    obtain ⟨pat, hpat, hstarts, hlt, -⟩ := hfound.resolve_left fun heq => hmoved heq.symm
    have hnewline : '\n' ∉ pat := by rcases hpat with rfl | rfl <;> decide
    exact Nat.lt_of_lt_of_le hlt (le_headerEnd_of_starts hnewline hstarts hends)
  have hle := headerEnd_le s
  have hle' := headerEnd_le (s ++ t)
  have hbounds : ∀ lines, -2 ^ 31 ≤ contentLength lines := by
    intro lines
    rw [contentLength]
    cases lengthLine lines with
    | none =>
      rw [Option.elim_none]
      omega
    | some line =>
      have := (declared_bounds line).1
      rw [Option.elim_some]
      omega
  have hlow := hbounds (header s)
  have hlow' := hbounds (header (s ++ t))
  rw [List.length_append] at hlength hle'
  rw [HasBody, List.length_append, toInt32_of_bounds (by omega) (by omega)] at hbody'
  rw [HasBody, toInt32_of_bounds (by omega) (by omega)] at hbody
  rw [messageEnd, messageEnd, toInt32_of_bounds (by omega) (by omega), toInt32_of_bounds (by omega) (by omega)] at hend
  omega

theorem isFullMsg_append_of_name {s t : Data} {n : Int} (h : Complete s n)
    (hname : (find CONTENT_LENGTH s).isSome = true) (hlength : (s ++ t).length < 2 ^ 31) :
    isFullMsg (s ++ t) = some n := by
  have hstart : searchPos (s ++ t) = searchPos s := by
    have hfind := find_take CONTENT_LENGTH (by decide) (s ++ t) s.length
    rw [List.take_left] at hfind
    obtain ⟨pos, hpos⟩ := Option.isSome_iff_exists.mp hname
    rw [hpos] at hfind
    rw [searchPos, searchPos, hpos, (Option.filter_eq_some_iff.mp hfind.symm).1]
  obtain ⟨-, -, hbody, -⟩ := (isFullMsg_iff h.2).mp h.1
  have hend := headerEnd_le s
  rw [List.length_append] at hlength
  rw [HasBody, toInt32_of_bounds (by omega) (by omega)] at hbody
  rw [isFullMsg_append_iff h, KeepsBoundary, if_pos hstart, List.length_append,
    toInt32_of_bounds (by omega) (by omega)]
  omega

end Vocal.Sip
