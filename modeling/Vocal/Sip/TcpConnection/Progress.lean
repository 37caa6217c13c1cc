import Vocal.Sip.TcpConnection.FullMsg
import Vocal.Sip.Text.Match

/-!
# The extraction loop goes forward

The length that a message declares goes through `atoi` into an `int` and is added to the end of its
header. A number from 2^31 on becomes negative, and a length header with nothing after its name
raises. `extraction_progress_iff` says exactly on which bytes the loop stays within its buffer and
ends.
-/

namespace Vocal.Sip

open Framing (Verdict extract)

/-! ### Bounds -/

theorem searchPos_le (str : Data) : searchPos str ≤ str.length := by
  unfold searchPos
  split
  · rename_i pos hpos
    have := find_le hpos
    omega
  · cases hshort : find CONTENT_LENGTH_SHORT str with
    | none => simp
    | some pos =>
      have := find_le hshort
      simp only [Option.getD_some]
      omega

theorem bytes_completeLines_le (text : Data) : bytes (completeLines text) ≤ text.length := by
  induction text with
  | nil => simp [completeLines, bytes]
  | cons c cs ih =>
    rw [completeLines]
    split
    · simp only [bytes, List.map_cons, List.sum_cons, List.length_nil, List.length_cons] at ih ⊢
      omega
    · split
      · simp [bytes]
      · rename_i line lines heq
        rw [heq] at ih
        simp only [bytes, List.map_cons, List.sum_cons, List.length_cons] at ih ⊢
        omega

theorem bytes_headerLines_le (lines : List Data) (nonBlank : Bool) :
    bytes (headerLines lines nonBlank) ≤ bytes lines := by
  induction lines generalizing nonBlank with
  | nil => simp [headerLines]
  | cons line lines ih =>
    have hrest := fun nb => ih nb
    simp only [headerLines, bytes, List.map_cons, List.sum_cons] at hrest ⊢
    split
    · split
      · simp
      · have := hrest false
        omega
    · have := hrest true
      omega

theorem headerEnd_le (str : Data) : headerEnd str ≤ str.length := by
  have hlines := bytes_headerLines_le (completeLines (str.drop (searchPos str)))
    (decide (searchPos str ≠ 0))
  have htext := bytes_completeLines_le (str.drop (searchPos str))
  have hpos := searchPos_le str
  rw [List.length_drop] at htext
  rw [headerEnd, header]
  omega

theorem headerEnd_pos {str : Data} (h : headerEnds str = true) : 0 < headerEnd str := by
  unfold headerEnds at h
  unfold headerEnd header
  cases hlines : completeLines (str.drop (searchPos str)) with
  | nil => rw [hlines] at h; cases h
  | cons line lines =>
    simp only [headerLines, bytes, List.map_cons, List.sum_cons]
    omega

theorem peekRcvd_length_le (rcvBuf : Data) :
    (peekRcvd rcvBuf).length ≤ rcvBuf.length ∧ (peekRcvd rcvBuf).length < MX_SIP_MSG_LEN := by
  have htake : (peekRcvd rcvBuf).length ≤ (rcvBuf.take (MX_SIP_MSG_LEN - 1)).length :=
    (List.takeWhile_prefix _).length_le
  rw [List.length_take] at htake
  have : MX_SIP_MSG_LEN = 65536 := rfl
  omega

/-! ### One look -/

/-- The line consists of the name of the length header alone. -/
def Bare (line : Data) : Prop := lengthName line = some line.length

/-- The length that a line declares: after the name and one more character. -/
def declared (line : Data) : Int :=
  atoi ((line.drop ((lengthName line).getD 0 + 1)).takeWhile isdigit)

/-- The condition on the text: the header line that gives the length has something after its name,
and where the header is complete, the number, cut to an `int`, is not so far below zero that it
takes away the header (or does so by exactly one more byte). -/
def LengthFits (str : Data) : Prop :=
  ∀ line, lengthLine (header str) = some line →
    ¬ Bare line ∧ (headerEnds str = true → 0 ≤ declared line ∨
      1 ≤ headerEnd str + declared line ∨ headerEnd str + declared line = -1)

/-- `isFullMsg` reports an incomplete message, or a length within the text. -/
def ReportsLength (str : Data) : Prop :=
  ∃ n, isFullMsg str = some n ∧ (n = -1 ∨ 1 ≤ n ∧ n ≤ str.length)

theorem lengthName_le {line : Data} {n : Nat} (h : lengthName line = some n) : n ≤ line.length := by
  simp only [lengthName] at h
  have hlen : ∀ {pat : Data}, pat.isPrefixOf (str2lower (line.take CONTENT_LENGTH.length)) = true →
      pat.length ≤ line.length := by
    intro pat hpat
    have := (List.isPrefixOf_iff_prefix.mp hpat).length_le
    rw [str2lower, List.length_map, List.length_take] at this
    omega
  split at h
  · rename_i hpat
    have := hlen hpat
    rw [← Option.some.inj h]
    simpa [str2lower] using this
  · split at h
    · rename_i hpat
      have := hlen hpat
      rw [← Option.some.inj h]
      simpa [str2lower] using this
    · cases h

theorem getContentLength_of_lengthLine {lines : List Data} {line : Data}
    (h : lengthLine lines = some line) :
    (Bare line ∧ getContentLength line = none) ∨
      (¬ Bare line ∧ getContentLength line = some (declared line) ∧ declared line ≠ -1) := by
  have hvalue : getContentLength line ≠ some (-1) := by simpa using List.find?_some h
  unfold getContentLength at hvalue ⊢
  unfold Bare declared
  cases hname : lengthName line with
  | none => simp [hname] at hvalue
  | some n =>
    have hle := lengthName_le hname
    rw [hname] at hvalue
    dsimp only at hvalue ⊢
    by_cases hbare : n = line.length
    · left
      exact ⟨by rw [hbare], by rw [if_pos (by omega)]⟩
    · right
      rw [if_neg (by omega)] at hvalue ⊢
      refine ⟨fun heq => hbare (Option.some.inj heq), rfl, ?_⟩
      intro heq
      exact hvalue (congrArg some heq)

theorem declared_bounds (line : Data) : -2 ^ 31 ≤ declared line ∧ declared line < 2 ^ 31 := by
  unfold declared atoi
  exact toInt32_bounds _

/-- The length that header lines declare: zero if none of them names it. -/
def contentLength (lines : List Data) : Int := (lengthLine lines).elim 0 declared

theorem isFullMsg_of_not_bare {str : Data} (hlen : str.length < MX_SIP_MSG_LEN)
    (hbare : ∀ line, lengthLine (header str) = some line → ¬ Bare line) :
    isFullMsg str = some (if headerEnds str = true ∧
        headerEnd str + contentLength (header str) ≤ str.length then
      headerEnd str + contentLength (header str) else -1) := by
  have hmax : MX_SIP_MSG_LEN = 65536 := rfl
  have hend := headerEnd_le str
  -- the value, for the content length that the loop has at its end
  have hvalue : ∀ read n : Int, (if read = -1 then 0 else read) = n → -2 ^ 31 ≤ n ∧ n < 2 ^ 31 →
      (if headerEnds str = true ∧ (if read = -1 then 0 else read) ≤
          toInt32 (str.length - headerEnd str) ∧ 0 < str.length then
        toInt32 (headerEnd str + if read = -1 then 0 else read) else -1) =
      if headerEnds str = true ∧ headerEnd str + n ≤ str.length then headerEnd str + n else -1 := by
    intro read n hn hbounds
    rw [hn, toInt32_of_bounds (v := str.length - headerEnd str) (by omega) (by omega)]
    by_cases hblank : headerEnds str = true
    · have hpos := headerEnd_pos hblank
      by_cases hle : headerEnd str + n ≤ str.length
      · rw [if_pos ⟨hblank, by omega, by omega⟩, if_pos ⟨hblank, hle⟩,
          toInt32_of_bounds (by omega) (by omega)]
      · rw [if_neg (fun h => hle (by omega)), if_neg (fun h => hle h.2)]
    · rw [if_neg (fun h => hblank h.1), if_neg (fun h => hblank h.1)]
  rw [isFullMsg_eq, contentLength]
  cases hline : lengthLine (header str) with
  | none => exact congrArg some (hvalue (-1) 0 rfl (by omega))
  | some line =>
    rw [Option.elim_some, Option.elim_some]
    rcases getContentLength_of_lengthLine hline with ⟨hraises, _⟩ | ⟨_, hread, hknown⟩
    · exact absurd hraises (hbare line hline)
    · rw [hread, Option.map_some, hvalue _ _ (if_neg hknown) (declared_bounds line)]

/-- **One look, exactly.** -/
theorem reportsLength_iff {str : Data} (hlen : str.length < MX_SIP_MSG_LEN) :
    ReportsLength str ↔ LengthFits str := by
  by_cases hbare : ∀ line, lengthLine (header str) = some line → ¬ Bare line
  · have hvalue := isFullMsg_of_not_bare hlen hbare
    have hfits : LengthFits str ↔ (headerEnds str = true → 0 ≤ contentLength (header str) ∨
        1 ≤ headerEnd str + contentLength (header str) ∨
        headerEnd str + contentLength (header str) = -1) := by
      unfold LengthFits contentLength
      cases hline : lengthLine (header str) with
      | none => simp
      | some line =>
        rw [Option.elim_some]
        constructor
        · intro h; exact (h line rfl).2
        · intro h line' heq
          obtain rfl := Option.some.inj heq
          exact ⟨hbare line hline, h⟩
    rw [hfits, ReportsLength, hvalue]
    have hend := headerEnd_le str
    by_cases hblank : headerEnds str = true
    · have hpos := headerEnd_pos hblank
      by_cases hle : headerEnd str + contentLength (header str) ≤ str.length
      · rw [if_pos ⟨hblank, hle⟩]
        constructor
        · rintro ⟨n, hn, hrange⟩ _
          have := Option.some.inj hn
          omega
        · intro h
          have := h hblank
          exact ⟨_, rfl, by omega⟩
      · rw [if_neg (fun h => hle h.2)]
        refine iff_of_true ⟨-1, rfl, Or.inl rfl⟩ fun _ => ?_
        omega
    · rw [if_neg (fun h => hblank h.1)]
      exact iff_of_true ⟨-1, rfl, Or.inl rfl⟩ fun h => absurd h hblank
  · -- a line raises
    obtain ⟨line, hline, hraises⟩ : ∃ line, lengthLine (header str) = some line ∧ Bare line := by
      push Not at hbare
      exact hbare
    refine iff_of_false ?_ fun hfits => (hfits line hline).1 hraises
    rintro ⟨n, hn, _⟩
    rw [isFullMsg_eq, hline, Option.elim_some] at hn
    rcases getContentLength_of_lengthLine hline with ⟨_, hnone⟩ | ⟨hnot, _⟩
    · rw [hnone] at hn
      cases hn
    · exact hnot hraises

/-! ### The loop -/

/-- The bytes that a later round of the extraction loop starts with. -/
inductive Reached (rcvBuf : Data) : Data → Prop
  | start : Reached rcvBuf rcvBuf
  | next {buf : Data} {n : Nat} (hbuf : Reached rcvBuf buf) (hlook : look buf = .complete n) :
      Reached rcvBuf (buf.drop n)

/-- A round removes at least one byte and at most those there are, and `isFullMsg` raises nothing and
reports a length within the text. -/
def Progress (buf : Data) : Prop :=
  ReportsLength (peekRcvd buf) ∧ ∀ n, look buf = .complete n → 1 ≤ n ∧ n ≤ buf.length

/-- The step lemma. -/
theorem progress_iff (buf : Data) : Progress buf ↔ LengthFits (peekRcvd buf) := by
  obtain ⟨hle, hmax⟩ := peekRcvd_length_le buf
  rw [← reportsLength_iff hmax]
  refine ⟨fun h => h.1, fun h => ⟨h, fun n hn => ?_⟩⟩
  obtain ⟨m, hm, hrange⟩ := h
  rw [look, hm] at hn
  dsimp only at hn
  split at hn
  · cases hn
  · rename_i hne
    have := hrange.resolve_left hne
    rw [if_pos (by omega)] at hn
    have := Verdict.complete.inj hn
    omega

theorem look_of_progress {buf : Data} (h : Progress buf) :
    look buf = .waits ∨ ∃ n, look buf = .complete n ∧ 1 ≤ n ∧ n ≤ buf.length := by
  obtain ⟨⟨m, hm, hrange⟩, hcomplete⟩ := h
  obtain ⟨hle, _⟩ := peekRcvd_length_le buf
  rcases hrange with rfl | hrange
  · left
    simp [look, hm]
  · right
    have hlook : look buf = .complete m.toNat := by
      rw [look, hm]
      dsimp only
      rw [if_neg (by omega), if_pos (by omega)]
    exact ⟨_, hlook, hcomplete _ hlook⟩

theorem extract_isSome {rcvBuf : Data} (h : ∀ buf, Reached rcvBuf buf → Progress buf) :
    ∀ fuel buf, Reached rcvBuf buf → buf.length < fuel → (extract look fuel buf).isSome := by
  intro fuel
  induction fuel with
  | zero => intro buf _ hlt; omega
  | succ fuel ih =>
    intro buf hbuf hlt
    rcases look_of_progress (h buf hbuf) with hwait | ⟨n, hcomplete, hn⟩
    · simp [extract, hwait]
    · have := ih (buf.drop n) (.next hbuf hcomplete) (by rw [List.length_drop]; omega)
      simpa [extract, hcomplete] using this

/-- **Progress, exactly.** For all received bytes: every round of the extraction loop stays within its
bytes and the loop ends, if and only if in every round the declared length fits. -/
theorem extraction_progress_iff (rcvBuf : Data) :
    ((∀ buf, Reached rcvBuf buf → Progress buf) ∧ (processMsgsIfReady rcvBuf).isSome) ↔
      ∀ buf, Reached rcvBuf buf → LengthFits (peekRcvd buf) := by
  constructor
  · rintro ⟨h, _⟩ buf hbuf
    exact (progress_iff buf).mp (h buf hbuf)
  · intro h
    have hprogress : ∀ buf, Reached rcvBuf buf → Progress buf := fun buf hbuf =>
      (progress_iff buf).mpr (h buf hbuf)
    exact ⟨hprogress, extract_isSome hprogress _ _ .start (Nat.lt_succ_self _)⟩

/-- A length header with nothing after its name raises `out_of_range`; and a length that the `int`
wraps to -15 takes away the whole header, so that zero bytes are reported and the loop stalls. -/
theorem bare_raises_and_wrapped_stalls :
    isFullMsg "Content-Length:\n\n".toList = none ∧
      isFullMsg "l: 4294967281\n\n".toList = some 0 ∧
      look "l: 4294967281\n\n".toList = .complete 0 := by
  decide

end Vocal.Sip
