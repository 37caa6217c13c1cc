import Vocal.Lib.Framing
import Vocal.Sip.Text

/-!
# Finding complete messages in a TCP stream

`processMsgsIfReady` looks at the bytes received on a connection and takes complete messages off
them. `isFullMsg` decides whether there is one: it searches the text for a length header, reads the
lines from there up to a blank line and the length from the first line that names it.

`isFullMsg_eq` describes the loop by the complete lines that follow the position found.
-/

namespace Vocal.Sip

open Framing (Verdict)

def CONTENT_LENGTH : Data := "Content-Length:".toList

def CONTENT_LENGTH_SHORT : Data := "l:".toList

/-- The value of a text of digits. -/
def digitsValue (digits : Data) : Nat :=
  digits.foldl (fun n c => 10 * n + (c.toNat - '0'.toNat)) 0

/-- `atoi` of a text of digits: `strtol` stops at `LONG_MAX`, and the result is cut to an `int`. -/
def atoi (digits : Data) : Int := toInt32 (min (digitsValue digits) (2 ^ 63 - 1) : Nat)

/-- `get_next_line`: the text up to the next newline and the position after it; without a newline
the rest of the text, and no position (`npos`). -/
def get_next_line (str : Data) (old_pos : Nat) : Data × Option Nat :=
  match (str.drop old_pos).findIdx? (· = '\n') with
  | some i => ((str.drop old_pos).take i, some (old_pos + i + 1))
  | none => (str.drop old_pos, none)

/-- The length of the name of the length header at the front of a line. -/
def lengthName (str : Data) : Option Nat :=
  let x := str2lower (str.take CONTENT_LENGTH.length)
  if (str2lower CONTENT_LENGTH).isPrefixOf x then some CONTENT_LENGTH.length
  else if (str2lower CONTENT_LENGTH_SHORT).isPrefixOf x then some CONTENT_LENGTH_SHORT.length
  else none

/-- `getContentLength`: -1 for a line that is not the length header. One character after the name is
skipped; there is no result if `substr` raises `out_of_range` because there is none. -/
def getContentLength (str : Data) : Option Int :=
  match lengthName str with
  | none => some (-1)
  | some pos =>
    if str.length < pos + 1 then none
    else some (atoi ((str.drop (pos + 1)).takeWhile isdigit))

def isBlankLine (str : Data) : Bool :=
  str = "\n\r".toList || str = "\n".toList || str = "\r".toList || str = []

/-- Where `isFullMsg` starts: at the first length header in the usual spelling, else at the first
short one, else at the front. -/
def searchPos (str : Data) : Nat :=
  match find CONTENT_LENGTH str with
  | some pos => pos
  | none => (find CONTENT_LENGTH_SHORT str).getD 0

/-- The loop of `isFullMsg`: the position after the blank line and the content length, if there is a
blank line. There is no result if a line raises `out_of_range`. -/
def scan (str : Data) : Nat → Nat → Int → Bool → Option (Option (Nat × Int))
  | 0, _, _, _ => some none
  | fuel + 1, pos, contentLen, foundNonBlank =>
    match get_next_line str pos with
    | (_, none) => some none
    | (myLine, some pos) =>
      (if contentLen = -1 then getContentLength myLine else some contentLen).bind fun contentLen =>
        if isBlankLine myLine then
          if foundNonBlank then some (some (pos, contentLen))
          else scan str fuel pos contentLen foundNonBlank
        else scan str fuel pos contentLen true

/-- `isFullMsg`: the length of the message at the front of the text, or -1; no result if it raises
`out_of_range`. -/
def isFullMsg (str : Data) : Option Int :=
  let pos := searchPos str
  (scan str (str.length + 1) pos (-1) (pos ≠ 0)).map fun found =>
    match found with
    | none => -1
    | some (pos, contentLen) =>
      let remainingBytes := toInt32 (str.length - pos)
      let contentLen := if contentLen = -1 then 0 else contentLen
      if contentLen ≤ remainingBytes ∧ 0 < str.length then toInt32 (pos + contentLen) else -1

def MX_SIP_MSG_LEN : Nat := 65536

/-- What `peekRcvdBytes` leaves in the buffer, read as a C string. -/
def peekRcvd (rcvBuf : Data) : Data :=
  (rcvBuf.take (MX_SIP_MSG_LEN - 1)).takeWhile (· ≠ '\x00')

/-- One look of `processMsgsIfReady` at the received bytes. It fails if `isFullMsg` raises, or if
`consumeRcvdBytes` is to drop a negative number of bytes or more than there are. -/
def look (rcvBuf : Data) : Verdict :=
  match isFullMsg (peekRcvd rcvBuf) with
  | none => .fails
  | some bufLen =>
    if bufLen = -1 then .waits
    else if 0 ≤ bufLen ∧ bufLen ≤ rcvBuf.length then .complete bufLen.toNat
    else .fails

/-- `processMsgsIfReady`: the bytes that stay, and the texts of the messages in order. Every text is
the front of the received bytes, since `isFullMsg` never reports more than it was given. -/
def processMsgsIfReady (rcvBuf : Data) : Option (Data × List Data) :=
  Framing.extract look (rcvBuf.length + 1) rcvBuf

/-- Bytes are read from the connection and `processMsgsIfReady` runs: the bytes that stay, and the
texts of all messages so far. -/
def receive (s : Option (Data × List Data)) (chunk : Data) : Option (Data × List Data) :=
  s.bind fun (rcvBuf, msgs) =>
    (processMsgsIfReady (rcvBuf ++ chunk)).map fun (rest, msgs') => (rest, msgs ++ msgs')

/-! ### Lines -/

/-- The lines of a text that are ended by a newline. -/
def completeLines : Data → List Data
  | [] => []
  | c :: cs =>
    if c = '\n' then [] :: completeLines cs
    else
      match completeLines cs with
      | [] => []
      | line :: lines => (c :: line) :: lines

theorem completeLines_of_not_mem {text : Data} (h : '\n' ∉ text) : completeLines text = [] := by
  induction text with
  | nil => rfl
  | cons c cs ih =>
    rw [List.mem_cons, not_or] at h
    rw [completeLines, if_neg (Ne.symm h.1), ih h.2]

theorem completeLines_line {line : Data} (h : '\n' ∉ line) (rest : Data) :
    completeLines (line ++ '\n' :: rest) = line :: completeLines rest := by
  induction line with
  | nil => simp [completeLines]
  | cons c cs ih =>
    rw [List.mem_cons, not_or] at h
    rw [List.cons_append, completeLines, if_neg (Ne.symm h.1), ih h.2]

theorem line_cases (text : Data) :
    '\n' ∉ text ∨ ∃ line rest, text = line ++ '\n' :: rest ∧ '\n' ∉ line := by
  induction text with
  | nil => exact Or.inl (by simp)
  | cons c cs ih =>
    by_cases hc : c = '\n'
    · exact Or.inr ⟨[], cs, by rw [hc]; rfl, by simp⟩
    · rcases ih with hnone | ⟨line, rest, rfl, hline⟩
      · left
        rw [List.mem_cons, not_or]
        exact ⟨Ne.symm hc, hnone⟩
      · right
        refine ⟨c :: line, rest, rfl, ?_⟩
        rw [List.mem_cons, not_or]
        exact ⟨Ne.symm hc, hline⟩

theorem findIdx?_newline_of_not_mem {text : Data} (h : '\n' ∉ text) :
    text.findIdx? (· = '\n') = none := by
  rw [List.findIdx?_eq_none_iff]
  intro c hc
  rw [decide_eq_false_iff_not]
  rintro rfl
  exact h hc

theorem get_next_line_of_not_mem {str : Data} {pos : Nat} (h : '\n' ∉ str.drop pos) :
    get_next_line str pos = (str.drop pos, none) := by
  rw [get_next_line, findIdx?_newline_of_not_mem h]

theorem get_next_line_line {str line rest : Data} {pos : Nat}
    (hstr : str.drop pos = line ++ '\n' :: rest) (hline : '\n' ∉ line) :
    get_next_line str pos = (line, some (pos + line.length + 1)) := by
  have hfound : (str.drop pos).findIdx? (· = '\n') = some line.length := by
    rw [hstr, List.findIdx?_append, findIdx?_newline_of_not_mem hline]
    simp [List.findIdx?_cons]
  rw [get_next_line, hfound]
  simp only [hstr, List.take_left]

/-- The loop over the complete lines. -/
def scanLines : List Data → Nat → Int → Bool → Option (Option (Nat × Int))
  | [], _, _, _ => some none
  | line :: lines, pos, contentLen, foundNonBlank =>
    (if contentLen = -1 then getContentLength line else some contentLen).bind fun contentLen =>
      if isBlankLine line then
        if foundNonBlank then some (some (pos + line.length + 1, contentLen))
        else scanLines lines (pos + line.length + 1) contentLen foundNonBlank
      else scanLines lines (pos + line.length + 1) contentLen true

theorem completeLines_length_le (text : Data) : (completeLines text).length ≤ text.length := by
  induction text with
  | nil => simp [completeLines]
  | cons c cs ih =>
    rw [completeLines]
    split
    · simpa using ih
    · split
      · simp
      · rename_i line lines heq
        rw [heq] at ih
        simp only [List.length_cons] at ih ⊢
        omega

theorem scan_eq (str : Data) :
    ∀ fuel pos contentLen nonBlank, (completeLines (str.drop pos)).length < fuel →
      scan str fuel pos contentLen nonBlank =
        scanLines (completeLines (str.drop pos)) pos contentLen nonBlank := by
  intro fuel
  induction fuel with
  | zero => intro pos contentLen nonBlank h; omega
  | succ fuel ih =>
    intro pos contentLen nonBlank h
    rcases line_cases (str.drop pos) with hnone | ⟨line, rest, hstr, hline⟩
    · rw [completeLines_of_not_mem hnone, scan, get_next_line_of_not_mem hnone]
      rfl
    · have hrest : str.drop (pos + line.length + 1) = rest := by
        rw [Nat.add_assoc, ← List.drop_drop, hstr]
        simp
      have hlines : completeLines (str.drop pos) = line :: completeLines rest := by
        rw [hstr, completeLines_line hline]
      rw [hlines] at h ⊢
      rw [scan, get_next_line_line hstr hline, scanLines]
      dsimp only
      congr 1
      funext contentLen'
      rw [List.length_cons] at h
      have hih := fun nb => ih (pos + line.length + 1) contentLen' nb (by rw [hrest]; omega)
      simp only [hrest] at hih
      rw [hih, hih]

/-! ### The header lines -/

/-- The lines the loop reads: up to the first blank line after a line that is not. -/
def headerLines : List Data → Bool → List Data
  | [], _ => []
  | line :: lines, foundNonBlank =>
    line :: (if isBlankLine line then if foundNonBlank then [] else headerLines lines false
      else headerLines lines true)

/-- Whether the lines end in such a blank line. -/
def foundBlank : List Data → Bool → Bool
  | [], _ => false
  | line :: lines, foundNonBlank =>
    if isBlankLine line then foundNonBlank || foundBlank lines false else foundBlank lines true

/-- The bytes of lines, with their newlines. -/
def bytes (lines : List Data) : Nat := (lines.map (·.length + 1)).sum

/-- The first line from which a content length is read, or which raises. -/
def lengthLine (lines : List Data) : Option Data :=
  lines.find? fun line => getContentLength line ≠ some (-1)

theorem scanLines_known {contentLen : Int} (hknown : contentLen ≠ -1) :
    ∀ lines pos nonBlank, scanLines lines pos contentLen nonBlank =
      some (if foundBlank lines nonBlank then
        some (pos + bytes (headerLines lines nonBlank), contentLen) else none) := by
  intro lines
  induction lines with
  | nil => intro pos nonBlank; rfl
  | cons line lines ih =>
    intro pos nonBlank
    rw [scanLines, if_neg hknown, Option.bind_some, foundBlank, headerLines, bytes]
    cases isBlankLine line <;> cases nonBlank <;>
      simp [ih, bytes, Nat.add_assoc]

theorem scanLines_eq :
    ∀ lines pos nonBlank, scanLines lines pos (-1) nonBlank =
      ((lengthLine (headerLines lines nonBlank)).elim (some (-1)) getContentLength).map fun contentLen =>
        if foundBlank lines nonBlank then
          some (pos + bytes (headerLines lines nonBlank), contentLen) else none := by
  intro lines
  induction lines with
  | nil => intro pos nonBlank; rfl
  | cons line lines ih =>
    intro pos nonBlank
    rw [scanLines, if_pos rfl]
    by_cases hline : getContentLength line = some (-1)
    · -- the length is still open
      rw [hline, Option.bind_some, foundBlank, headerLines]
      cases isBlankLine line <;> cases nonBlank <;>
        simp [ih, lengthLine, hline, bytes, Nat.add_assoc]
    · have hfirst : lengthLine (headerLines (line :: lines) nonBlank) = some line := by
        rw [headerLines, lengthLine, List.find?_cons_of_pos (by simpa using hline)]
      rw [hfirst, Option.elim_some]
      cases hvalue : getContentLength line with
      | none => rfl
      | some contentLen =>
        have hknown : contentLen ≠ -1 := by
          rintro rfl
          exact hline hvalue
        rw [Option.bind_some, Option.map_some, foundBlank, headerLines, bytes]
        cases isBlankLine line <;> cases nonBlank <;>
          simp [scanLines_known hknown, bytes, Nat.add_assoc]

/-- The header lines of a text, from the position where the search starts. -/
def header (str : Data) : List Data :=
  headerLines (completeLines (str.drop (searchPos str))) (searchPos str ≠ 0)

/-- The header ends in a blank line. -/
def headerEnds (str : Data) : Bool :=
  foundBlank (completeLines (str.drop (searchPos str))) (searchPos str ≠ 0)

/-- The position after the header. -/
def headerEnd (str : Data) : Nat := searchPos str + bytes (header str)

theorem isFullMsg_eq (str : Data) :
    isFullMsg str = ((lengthLine (header str)).elim (some (-1)) getContentLength).map fun contentLen =>
      if headerEnds str = true ∧ (if contentLen = -1 then 0 else contentLen) ≤
          toInt32 (str.length - headerEnd str) ∧ 0 < str.length then
        toInt32 (headerEnd str + if contentLen = -1 then 0 else contentLen)
      else -1 := by
  have hfuel : (completeLines (str.drop (searchPos str))).length < str.length + 1 := by
    have := completeLines_length_le (str.drop (searchPos str))
    rw [List.length_drop] at this
    omega
  rw [isFullMsg]
  dsimp only
  rw [scan_eq str _ _ _ _ hfuel, scanLines_eq, Option.map_map]
  congr 1
  funext contentLen
  rw [Function.comp_apply, headerEnds, headerEnd, header]
  cases foundBlank (completeLines (str.drop (searchPos str))) (decide (searchPos str ≠ 0)) with
  | false => simp
  | true => simp

end Vocal.Sip
