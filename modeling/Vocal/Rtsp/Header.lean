import Vocal.Rtsp.PreParse

/-!
# Header lines

What `preParse` makes of a header line: the name of the header is the first word of the line, and its body stands behind the
colon and the blanks that follow it.
-/

namespace Vocal.Rtsp

open Sip (Data CRLF)
open Scan (scan scan_append scan_eq_ok_iff)

variable {mask : Char → Bool} {text aLine x y : Data} {msg : RtspMsg} {offset : Nat}

theorem scan_of_ascii (h : Ascii text) :
    scan (entry mask) text = .ok (text.takeWhile fun c => !mask c, text.dropWhile fun c => !mask c) := by
  refine scan_entry_eq_ok_iff.mpr ⟨List.takeWhile_append_dropWhile.symm, ?_, ?_, ?_⟩
  · exact fun c hc => h c ((List.takeWhile_prefix _).subset hc)
  · intro c hc
    simpa using List.mem_takeWhile_imp hc
  · intro c hc
    have hmask := List.head?_dropWhile_not (fun c => !mask c) text
    rw [Option.mem_def.mp hc] at hmask
    exact ⟨h c ((List.dropWhile_suffix _).subset (List.mem_of_mem_head? hc)), by simpa using hmask⟩

/-- The first word of a line. -/
def firstWord (aLine : Data) : Data := aLine.takeWhile fun c => !myMaskNonWord c

/-- What stands behind the first word of a line. -/
def behindWord (aLine : Data) : Data := aLine.dropWhile fun c => !myMaskNonWord c

theorem firstWord_append_behindWord (aLine : Data) : firstWord aLine ++ behindWord aLine = aLine :=
  List.takeWhile_append_dropWhile

theorem colon_mem_behindWord : ':' ∈ behindWord aLine ↔ ':' ∈ aLine := by
  have hword : ':' ∉ firstWord aLine := fun h => absurd (List.mem_takeWhile_imp h) (by decide)
  rw [← firstWord_append_behindWord aLine, List.mem_append, or_iff_right hword, firstWord_append_behindWord]

/-- The header that a line is for. -/
def headerOf (aLine : Data) : RtspHeadersType := RtspUtil.getHeaderInNumber (firstWord aLine)

/-- The name of an unknown header fits where it is copied. -/
def NameFits (aLine : Data) : Prop := headerOf aLine = .RTSP_UNKNOWN_HDR → (firstWord aLine).length < 32

instance (aLine : Data) : Decidable (NameFits aLine) := inferInstanceAs (Decidable (_ → _))

namespace CharDataParser

theorem parseUntil_of_ascii (h : Ascii text) :
    parseUntil ⟨text, 0⟩ (entry mask) =
      .ok (text.takeWhile fun c => !mask c, text.dropWhile (fun c => !mask c) ≠ [], ⟨text.dropWhile fun c => !mask c, 0⟩) := by
  rw [parseUntil_of_scan (p := ⟨text, 0⟩) (scan_of_ascii h), if_neg (by simp)]

theorem getNextWord_of_splitLine {rest : Data} {bytesDecoded : Nat} (h : splitLine text = some (aLine, rest))
    (hascii : Ascii aLine) :
    getNextWord ⟨text, bytesDecoded⟩ = .ok (firstWord aLine, true, ⟨behindWord aLine ++ rest, bytesDecoded⟩) := by
  have hbehind : behindWord aLine ≠ [] := by
    rw [behindWord, ne_eq, List.dropWhile_eq_nil_iff]
    intro hword
    obtain ⟨x, -, ⟨rfl, -⟩ | ⟨c, hc, -, rfl, -⟩⟩ := splitLine_eq_some h
    · exact absurd (hword '\n' (by simp [CRLF])) (by decide)
    · have hnonword : myMaskNonWord c = true := by
        rcases myMaskEol_eq_true_iff.mp hc with rfl | rfl <;> decide
      exact absurd (hword c (by simp)) (by simp [hnonword])
  have hscan : scan (entry myMaskNonWord) text = .ok (firstWord aLine, behindWord aLine ++ rest) := by
    have hfirst : scan (entry myMaskNonWord) aLine = .ok (firstWord aLine, behindWord aLine) := scan_of_ascii hascii
    obtain ⟨-, hword, hmask, hhead⟩ := scan_entry_eq_ok_iff.mp hfirst
    refine scan_entry_eq_ok_iff.mpr ⟨?_, hword, hmask, ?_⟩
    · rw [eq_append_of_splitLine h, ← List.append_assoc, firstWord_append_behindWord]
    · rw [Cut.head?_of_append hbehind]
      exact hhead
  rw [getNextWord, parseUntil_of_scan (p := ⟨text, bytesDecoded⟩) hscan, if_neg (by simp [hbehind])]
  simp [hbehind]

theorem getNextWord_of_ascii (h : Ascii text) :
    getNextWord ⟨text, 0⟩ = .ok (firstWord text, behindWord text ≠ [], ⟨behindWord text, 0⟩) :=
  parseUntil_of_ascii h

theorem parseThru_of_not_mem {c : Char} (h : c ∉ text) : parseThru ⟨text, 0⟩ c = .ok (text, false, ⟨[], 0⟩) := by
  have hscan : scan (ε := Stop) (fun d => .ok (d = c)) text = .ok (text, []) := by
    refine scan_eq_ok_iff.mpr ⟨by rw [List.append_nil], ?_, by simp⟩
    intro d hd
    have hne : d ≠ c := fun heq => h (heq ▸ hd)
    simp [hne]
  rw [parseThru, parseUntil_of_scan (p := ⟨text, 0⟩) hscan, if_neg (by simp)]
  simp [bind, Except.bind, pure, Except.pure]

theorem parseThru_append {c : Char} (h : c ∉ x) : parseThru ⟨x ++ c :: y, 0⟩ c = .ok (x ++ [c], true, ⟨y, 0⟩) := by
  have hscan : scan (ε := Stop) (fun d => .ok (d = c)) (x ++ c :: y) = .ok (x, c :: y) := by
    refine scan_eq_ok_iff.mpr ⟨rfl, ?_, by simp⟩
    intro d hd
    have hne : d ≠ c := fun heq => h (heq ▸ hd)
    simp [hne]
  rw [parseThru, parseUntil_of_scan (p := ⟨x ++ c :: y, 0⟩) hscan, if_neg (by simp)]
  rfl

end CharDataParser

namespace RtspMsgParser

/-- The place of the body of a header, in a line whose colon stands in front of `y`. -/
def bodyPlace (aLine y : Data) (offset : Nat) : HeaderValueData :=
  let behind := y.dropWhile fun c => !myMaskNonSpace c
  { offset := offset + (aLine.length - behind.length), len := behind.length }

theorem readHeader_of_unknown (hascii : Ascii aLine) (h : headerOf aLine = .RTSP_UNKNOWN_HDR) :
    readHeader msg aLine offset = if (firstWord aLine).length < 32 then .ok msg else .error .outOfBounds := by
  rw [readHeader, CharDataParser.getNextWord, CharDataParser.parseUntil_of_ascii hascii]
  have h' : RtspUtil.getHeaderInNumber (aLine.takeWhile fun c => !myMaskNonWord c) = .RTSP_UNKNOWN_HDR := h
  simp only [bind, Except.bind, h', if_true, firstWord]
  rfl

theorem readHeader_of_not_mem (hascii : Ascii aLine) (h : headerOf aLine ≠ .RTSP_UNKNOWN_HDR) (hcolon : ':' ∉ aLine) :
    readHeader msg aLine offset = .ok (msg.setHeadersMap (headerOf aLine) none) := by
  rw [readHeader, CharDataParser.getNextWord, CharDataParser.parseUntil_of_ascii hascii]
  have h' : RtspUtil.getHeaderInNumber (aLine.takeWhile fun c => !myMaskNonWord c) ≠ .RTSP_UNKNOWN_HDR := h
  have hr := CharDataParser.parseThru_of_not_mem (colon_mem_behindWord.not.mpr hcolon)
  rw [behindWord] at hr
  simp only [bind, Except.bind, if_neg h', hr]
  rfl

theorem readHeader_of_colon (hascii : Ascii aLine) (h : headerOf aLine ≠ .RTSP_UNKNOWN_HDR) (hx : ':' ∉ x)
    (hbehind : behindWord aLine = x ++ ':' :: y) :
    readHeader msg aLine offset = .ok (msg.setHeadersMap (headerOf aLine) (some (bodyPlace aLine y offset))) := by
  have hline : firstWord aLine ++ (x ++ ':' :: y) = aLine := by rw [← hbehind, firstWord_append_behindWord]
  have hy : Ascii y := by
    intro c hc
    refine hascii c ?_
    rw [← hline]
    simp [hc]
  rw [readHeader, CharDataParser.getNextWord, CharDataParser.parseUntil_of_ascii hascii]
  have h' : RtspUtil.getHeaderInNumber (aLine.takeWhile fun c => !myMaskNonWord c) ≠ .RTSP_UNKNOWN_HDR := h
  have hthru := CharDataParser.parseThru_append (y := y) hx
  rw [← hbehind, behindWord] at hthru
  simp only [bind, Except.bind, if_neg h', hthru, CharDataParser.getThruSpaces, CharDataParser.parseUntil_of_ascii hy]
  have hlength : aLine.length =
      (firstWord aLine).length + (x ++ [':']).length + (y.takeWhile fun c => !myMaskNonSpace c).length +
        (y.dropWhile fun c => !myMaskNonSpace c).length := by
    have hparts := congrArg List.length hline
    have hsplit := congrArg List.length (List.takeWhile_append_dropWhile (p := fun c => !myMaskNonSpace c) (l := y))
    simp only [List.length_append, List.length_cons, List.length_nil] at hparts hsplit ⊢
    omega
  have hplace : bodyPlace aLine y offset =
      { offset := offset + (firstWord aLine).length + (x ++ [':']).length + (y.takeWhile fun c => !myMaskNonSpace c).length,
        len := offset + aLine.length -
          (offset + (firstWord aLine).length + (x ++ [':']).length + (y.takeWhile fun c => !myMaskNonSpace c).length) } := by
    rw [bodyPlace, HeaderValueData.mk.injEq]
    omega
  rw [hplace]
  rfl

end RtspMsgParser

end Vocal.Rtsp
