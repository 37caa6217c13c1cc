import Vocal.Rtsp.Header

/-!
# Arbitrary bytes

Which bytes a connection can receive at a call of `preParse` without an access outside its bounds, an assertion or memory that
was given back: `Harmless`. `readAll_robust`: a run is sound if and only if all its calls are harmless.
-/

namespace Vocal.Rtsp

open Sip (Data CRLF)
open RtspMsgParser

variable {text aLine rest hdrs data : Data} {msg msg' : RtspMsg} {offset bytesDecoded : Nat} {lengthRead : Bool}
  {p : CharDataParser}

/-! ### What does no harm -/

/-- Whether the headers have a body for the content length, behind one more line. -/
def lengthBehind (lengthRead : Bool) (aLine : Data) : Bool :=
  if headerOf aLine = .RTSP_CONTENT_LENGTH_HDR then aLine.contains ':' else lengthRead

/-- Header lines that do no harm. A content length may not be read in front of the empty line, as the headers are kept only
then. -/
def HarmlessHeaders (bytesDecoded : Nat) (lengthRead : Bool) (text : Data) : Prop :=
  match _h : splitLine text with
  | none => if text = [] then lengthRead = false else Ascii text ∧ bytesDecoded = 0
  | some (aLine, rest) =>
    Readable bytesDecoded aLine rest ∧ ¬(aLine = ['\r'] ∧ rest = []) ∧
      (aLine = CRLF ∨ NameFits aLine ∧ HarmlessHeaders bytesDecoded (lengthBehind lengthRead aLine) rest)
  termination_by text.length
  decreasing_by exact length_lt_of_splitLine _h

/-- Bytes that do no harm from the start line on. -/
def HarmlessStart (bytesDecoded : Nat) (data : Data) : Prop :=
  match splitLine data with
  | none => Ascii data ∧ bytesDecoded = 0
  | some (aLine, rest) => Readable bytesDecoded aLine rest ∧ HarmlessHeaders bytesDecoded false rest

/-- A call of `preParse`: the bytes that are left, the number of those decoded and the message that was saved. -/
structure Call where
  data : Data
  bytesDecoded : Nat
  savedMsg : Option RtspMsg

/-- The part of a line that is saved may only be continued, and the body of a message that is saved may not. -/
def Call.Harmless (call : Call) : Prop :=
  match call.savedMsg with
  | none => HarmlessStart call.bytesDecoded call.data
  | some msg =>
    match msg.myCompletionFlag with
    | .RTSP_MSG_NEW => HarmlessStart call.bytesDecoded call.data
    | .RTSP_MSG_STRTLINE_COMPLETE => splitLine call.data = none ∧ Ascii call.data ∧ call.bytesDecoded = 0
    | .RTSP_MSG_HEADERS_COMPLETE | .RTSP_MSG_COMPLETE => False

/-- What is reported is bad data, if anything. -/
def OnlyBadData {α : Type} (r : Except Stop α) : Prop := ∀ e, r = .error e → e = .RtspBadDataException

/-! ### Headers -/

/-- A message in front of a header line, behind others that stand in the same read. -/
structure Received (msg : RtspMsg) (hdrs : Data) : Prop where
  ascii : Ascii hdrs
  headers : msg.myHeaders = []
  incomp : msg.myIncompHeader = []
  length : msg.myContentLength = 0
  places : ∀ header hvd, msg.myHeaderMap header = some hvd →
    0 < hvd.offset + hvd.len ∧ hvd.offset + hvd.len ≤ hdrs.length

theorem bodyPlace_end {y : Data} (h : y.length ≤ aLine.length) :
    (bodyPlace aLine y offset).offset + (bodyPlace aLine y offset).len = offset + aLine.length := by
  have hle := (List.dropWhile_suffix (l := y) fun c => !myMaskNonSpace c).length_le
  rw [bodyPlace]
  dsimp only
  omega

theorem readHeader_eq (msg : RtspMsg) (offset : Nat) (hascii : Ascii aLine) (hfits : NameFits aLine) :
    (headerOf aLine = .RTSP_UNKNOWN_HDR ∧ readHeader msg aLine offset = .ok msg) ∨
      ∃ place : Option HeaderValueData, headerOf aLine ≠ .RTSP_UNKNOWN_HDR ∧
        readHeader msg aLine offset = .ok (msg.setHeadersMap (headerOf aLine) place) ∧
        place.isSome = aLine.contains ':' ∧ ∀ hvd, place = some hvd → hvd.offset + hvd.len = offset + aLine.length := by
  by_cases hunknown : headerOf aLine = .RTSP_UNKNOWN_HDR
  · exact .inl ⟨hunknown, by rw [readHeader_of_unknown hascii hunknown, if_pos (hfits hunknown)]⟩
  · refine .inr ?_
    by_cases hcolon : ':' ∈ aLine
    · obtain ⟨x, y, hbehind, hx⟩ := List.eq_append_cons_of_mem (colon_mem_behindWord.mpr hcolon)
      have hlength : y.length ≤ aLine.length := by
        rw [← firstWord_append_behindWord aLine, hbehind]
        simp
        omega
      refine ⟨_, hunknown, readHeader_of_colon hascii hunknown hx hbehind, ?_, ?_⟩
      · simpa using hcolon
      · intro hvd hhvd
        rw [← Option.some.inj hhvd, bodyPlace_end hlength]
    · exact ⟨none, hunknown, readHeader_of_not_mem hascii hunknown hcolon, by simpa using hcolon, by simp⟩

theorem Received.readHeader (h : Received msg hdrs) (hascii : Ascii aLine) (hne : aLine ≠ []) (hfits : NameFits aLine) :
    ∃ msg', RtspMsgParser.readHeader msg aLine hdrs.length = .ok msg' ∧ Received msg' (hdrs ++ aLine) ∧
      (msg'.myHeaderMap .RTSP_CONTENT_LENGTH_HDR).isSome =
        lengthBehind (msg.myHeaderMap .RTSP_CONTENT_LENGTH_HDR).isSome aLine := by
  have hpos := List.length_pos_iff.mpr hne
  rcases readHeader_eq msg hdrs.length hascii hfits with ⟨hunknown, hread⟩ | ⟨place, hknown, hread, hsome, hend⟩
  · refine ⟨msg, hread, ?_, ?_⟩
    · exact { h with
        ascii := ascii_append.mpr ⟨h.ascii, hascii⟩
        places := fun header hvd hmap => by
          have hplace := h.places header hvd hmap
          rw [List.length_append]
          omega }
    · rw [lengthBehind, if_neg (by rw [hunknown]; decide)]
  · refine ⟨_, hread, ?_, ?_⟩
    · refine ⟨ascii_append.mpr ⟨h.ascii, hascii⟩, h.headers, h.incomp, h.length, ?_⟩
      intro header hvd hmap
      rw [List.length_append]
      by_cases heq : header = headerOf aLine
      · have hplace : place = some hvd := by simpa [RtspMsg.setHeadersMap, heq] using hmap
        have hvdEnd := hend hvd hplace
        omega
      · have hplace := h.places header hvd (by simpa [RtspMsg.setHeadersMap, heq] using hmap)
        omega
    · by_cases heq : headerOf aLine = .RTSP_CONTENT_LENGTH_HDR
      · simp [lengthBehind, RtspMsg.setHeadersMap, heq, hsome]
      · simp [lengthBehind, RtspMsg.setHeadersMap, heq, Ne.symm heq]

/-! ### The content length and the body -/

theorem exists_getNextInteger (h : Ascii text) : ∃ value, CharDataParser.getNextInteger ⟨text, 0⟩ = .ok value := by
  cases hscan : Scan.scan (fun c => (entry myMaskDigit c).map not) text with
  | error e =>
    obtain ⟨c, hc, hentry⟩ := Scan.exists_of_scan_eq_error hscan
    rw [entry, if_pos (h c hc)] at hentry
    cases hentry
  | ok r =>
    rw [CharDataParser.getNextInteger, hscan]
    simp only [bind, Except.bind]
    split <;> exact ⟨_, rfl⟩

theorem exists_getContentLength (msg : RtspMsg) (hascii : Ascii msg.myHeaders)
    (hplace : ∀ hvd, msg.myHeaderMap .RTSP_CONTENT_LENGTH_HDR = some hvd → hvd.offset + hvd.len ≤ msg.myHeaders.length) :
    ∃ value, msg.getContentLength = .ok { msg with myContentLength := value } := by
  rw [RtspMsg.getContentLength]
  split
  · rw [RtspMsg.getHdrBodyValue]
    split
    · exact ⟨0, rfl⟩
    · rename_i hvd hmap
      have hbody : Ascii ((msg.myHeaders.drop hvd.offset).take hvd.len) := fun c hc =>
        hascii c ((List.drop_suffix _ _).subset ((List.take_prefix _ _).subset hc))
      obtain ⟨value, hvalue⟩ := exists_getNextInteger hbody
      rw [RtspMsg.hdrBody, if_pos (hplace hvd hmap)]
      exact ⟨value.getD 0, by simp only [bind, Except.bind, hvalue]; rfl⟩
  · exact ⟨_, rfl⟩

theorem onlyBadData_ok {α : Type} (a : α) : OnlyBadData (.ok a) := fun _ h => by cases h

theorem onlyBadData_error_iff {α : Type} {e : Stop} : OnlyBadData (.error e : Except Stop α) ↔ e = .RtspBadDataException :=
  ⟨fun h => h e rfl, fun he e' h => by rw [← Except.error.inj h, he]⟩

/-- Where the bytes end between two header lines, the content length is sought beyond the headers that are kept. -/
theorem Received.onlyBadData_exhausted (h : Received msg hdrs) :
    OnlyBadData (readEnd msg .exhausted p) ↔ (msg.myHeaderMap .RTSP_CONTENT_LENGTH_HDR).isSome = false := by
  cases hmap : msg.myHeaderMap .RTSP_CONTENT_LENGTH_HDR with
  | none =>
    have hlength : msg.getContentLength = .ok { msg with myContentLength := 0 } := by
      rw [RtspMsg.getContentLength, if_pos h.length, RtspMsg.getHdrBodyValue, hmap]
      rfl
    have hend : readEnd msg .exhausted p = .error .RtspBadDataException := by
      rw [readEnd, hlength]
      rfl
    rw [hend, onlyBadData_error_iff]
    simp
  | some hvd =>
    have hbeyond : ¬hvd.offset + hvd.len ≤ msg.myHeaders.length := by
      have hplace := h.places _ hvd hmap
      rw [h.headers, List.length_nil]
      omega
    have hlength : msg.getContentLength = .error .outOfBounds := by
      rw [RtspMsg.getContentLength, if_pos h.length, RtspMsg.getHdrBodyValue, hmap]
      simp only [RtspMsg.hdrBody, if_neg hbeyond]
      rfl
    have hend : readEnd msg .exhausted p = .error .outOfBounds := by
      rw [readEnd, hlength]
      rfl
    rw [hend, onlyBadData_error_iff]
    simp

theorem exists_readBody {value : BitVec 32} (h : msg.getContentLength = .ok { msg with myContentLength := value }) :
    ∃ r, readBody msg text = .ok r := by
  rw [readBody, h]
  simp only [bind, Except.bind]
  split_ifs <;> exact ⟨_, rfl⟩

theorem Received.readBody (h : Received msg hdrs) (hascii : Ascii aLine) (text : Data) :
    ∃ r, RtspMsgParser.readBody { msg with
      myHeaders := msg.myHeaders ++ (hdrs ++ aLine), myCompletionFlag := .RTSP_MSG_HEADERS_COMPLETE } text = .ok r := by
  obtain ⟨value, hvalue⟩ := exists_getContentLength { msg with
      myHeaders := msg.myHeaders ++ (hdrs ++ aLine), myCompletionFlag := .RTSP_MSG_HEADERS_COMPLETE }
    (by simpa [h.headers] using ascii_append.mpr ⟨h.ascii, hascii⟩)
    (fun hvd hmap => by
      have hplace := h.places _ hvd hmap
      simp only [h.headers, List.nil_append, List.length_append]
      omega)
  exact exists_readBody hvalue

/-! ### The loop over the header lines -/

theorem harmlessHeaders_nil : HarmlessHeaders bytesDecoded lengthRead [] ↔ lengthRead = false := by
  rw [HarmlessHeaders]
  exact Iff.rfl

theorem harmlessHeaders_of_none (h : splitLine text = none) (hne : text ≠ []) :
    HarmlessHeaders bytesDecoded lengthRead text ↔ Ascii text ∧ bytesDecoded = 0 := by
  rw [HarmlessHeaders]
  split
  · rw [if_neg hne]
  · simp_all

theorem harmlessHeaders_of_some (h : splitLine text = some (aLine, rest)) :
    HarmlessHeaders bytesDecoded lengthRead text ↔
      Readable bytesDecoded aLine rest ∧ ¬(aLine = ['\r'] ∧ rest = []) ∧
        (aLine = CRLF ∨ NameFits aLine ∧ HarmlessHeaders bytesDecoded (lengthBehind lengthRead aLine) rest) := by
  rw [HarmlessHeaders]
  split
  · simp_all
  · rename_i l r heq
    obtain ⟨rfl, rfl⟩ : aLine = l ∧ rest = r := by simpa [h] using heq
    rfl

theorem not_onlyBadData {α : Type} : ¬OnlyBadData (.error .outOfBounds : Except Stop α) := by
  rw [onlyBadData_error_iff]
  decide

theorem onlyBadData_readHeaders (h : Received msg hdrs) :
    OnlyBadData ((readHeaders msg hdrs hdrs.length ⟨text, bytesDecoded⟩).bind fun r => readEnd r.1 r.2.1 r.2.2) ↔
      HarmlessHeaders bytesDecoded (msg.myHeaderMap .RTSP_CONTENT_LENGTH_HDR).isSome text := by
  induction hn : text.length using Nat.strong_induction_on generalizing text msg hdrs with
  | _ n ih =>
    cases hsplit : splitLine text with
    | none =>
      by_cases hne : text = []
      · subst hne
        rw [readHeaders_of_nil rfl, harmlessHeaders_nil]
        exact h.onlyBadData_exhausted (p := ⟨[], bytesDecoded⟩)
      · rw [harmlessHeaders_of_none hsplit hne]
        by_cases hread : Ascii text ∧ bytesDecoded = 0
        · obtain ⟨hascii, rfl⟩ := hread
          rw [readHeaders_of_incomplete hne (CharDataParser.getNextLine_of_splitLine_none hsplit hascii)]
          exact iff_of_true (onlyBadData_ok _) ⟨hascii, rfl⟩
        · rw [readHeaders_of_error hne (CharDataParser.getNextLine_of_not_ascii hsplit hread)]
          exact iff_of_false not_onlyBadData hread
    | some l =>
      obtain ⟨aLine, rest⟩ := l
      rw [harmlessHeaders_of_some hsplit]
      by_cases hread : Readable bytesDecoded aLine rest
      · rw [readHeaders_of_line (CharDataParser.getNextLine_of_splitLine hsplit hread), if_neg (by rw [h.incomp]; simp),
          isEmptyLine]
        by_cases hlone : aLine = ['\r'] ∧ rest = []
        · rw [if_pos hlone]
          exact iff_of_false not_onlyBadData fun hharmless => hharmless.2.1 hlone
        · rw [if_neg hlone]
          by_cases hempty : aLine = CRLF
          · obtain ⟨r, hr⟩ := h.readBody hread.1 rest
            simp only [Except.bind, hempty, decide_true, if_true, readEnd]
            rw [hempty] at hr
            rw [hr]
            exact iff_of_true (onlyBadData_ok r) ⟨hempty ▸ hread, by simp [CRLF], .inl trivial⟩
          · simp only [Except.bind, hempty, decide_false, false_or]
            by_cases hfits : NameFits aLine
            · obtain ⟨msg', hheader, hreceived, hlength⟩ := h.readHeader hread.1 (ne_nil_of_splitLine hsplit) hfits
              have hrest := ih rest.length (hn ▸ length_lt_of_splitLine hsplit) hreceived rfl
              rw [List.length_append, hlength] at hrest
              simp only [Except.bind] at hrest
              simp [hheader, hrest, hread, hlone, hfits]
            · have hunknown : headerOf aLine = .RTSP_UNKNOWN_HDR := by
                by_contra hknown
                exact hfits fun hu => absurd hu hknown
              have hlong : ¬(firstWord aLine).length < 32 := fun hlt => hfits fun _ => hlt
              rw [readHeader_of_unknown hread.1 hunknown, if_neg hlong]
              exact iff_of_false not_onlyBadData fun hharmless => hfits hharmless.2.2.1
      · have hne : text ≠ [] := by
          rintro rfl
          cases hsplit
        rw [readHeaders_of_error hne (CharDataParser.getNextLine_of_not_readable hsplit hread)]
        exact iff_of_false not_onlyBadData fun hharmless => hread hharmless.1

/-! ### What is saved -/

/-- A message that is saved has its start line in part, or a header line, or its body. -/
structure Saved (msg : RtspMsg) : Prop where
  ascii : Ascii msg.myStartLine
  start : msg.myCompletionFlag = .RTSP_MSG_NEW → Received msg []
  half : msg.myCompletionFlag = .RTSP_MSG_STRTLINE_COMPLETE → msg.myIncompHeader ≠ []

theorem frame_readHeader (h : readHeader msg aLine offset = .ok msg') : ∃ map, msg' = { msg with myHeaderMap := map } := by
  rw [readHeader] at h
  cases hword : CharDataParser.getNextWord { text := aLine } with
  | error e =>
    rw [hword] at h
    cases h
  | ok r =>
    rw [hword] at h
    simp only [bind, Except.bind] at h
    split_ifs at h
    · exact ⟨_, (Except.ok.inj h).symm⟩
    · cases hcolon : CharDataParser.parseThru r.2.2 ':' with
      | error e =>
        rw [hcolon] at h
        cases h
      | ok c =>
        rw [hcolon] at h
        simp only at h
        split_ifs at h
        · exact ⟨_, (Except.ok.inj h).symm⟩
        · cases hspaces : CharDataParser.getThruSpaces c.2.2 with
          | error e =>
            rw [hspaces] at h
            cases h
          | ok b =>
            rw [hspaces] at h
            exact ⟨_, (Except.ok.inj h).symm⟩

theorem frame_getContentLength (h : msg.getContentLength = .ok msg') :
    ∃ value, msg' = { msg with myContentLength := value } := by
  rw [RtspMsg.getContentLength] at h
  split at h
  · cases hvalue : msg.getHdrBodyValue .RTSP_CONTENT_LENGTH_HDR with
    | error e =>
      rw [hvalue] at h
      cases h
    | ok value =>
      rw [hvalue] at h
      exact ⟨value, (Except.ok.inj h).symm⟩
  · exact ⟨_, (Except.ok.inj h).symm⟩

theorem frame_readHeaders {p p' : CharDataParser} {headersEnd : HeadersEnd}
    (h : readHeaders msg hdrs offset p = .ok (msg', headersEnd, p')) :
    msg'.myStartLine = msg.myStartLine ∧
      (headersEnd = .incomplete → msg'.myCompletionFlag = msg.myCompletionFlag ∧ msg'.myIncompHeader ≠ []) := by
  induction msg, hdrs, offset, p using readHeaders.induct with
  | case1 msg hdrs offset p hnil =>
    rw [readHeaders_of_nil hnil] at h
    simp only [Except.ok.injEq, Prod.mk.injEq] at h
    obtain ⟨rfl, rfl, -⟩ := h
    exact ⟨rfl, by simp⟩
  | case2 msg hdrs offset p hne e hline =>
    rw [readHeaders_of_error hne hline] at h
    cases h
  | case3 msg hdrs offset p hne aLine q hline =>
    rw [readHeaders_of_incomplete hne hline] at h
    simp only [Except.ok.injEq, Prod.mk.injEq] at h
    obtain ⟨rfl, rfl, -⟩ := h
    obtain ⟨rfl, -⟩ := CharDataParser.eq_of_getNextLine hline
    exact ⟨rfl, fun _ => ⟨rfl, hne⟩⟩
  | case4 msg hdrs offset p hne aLine q hline hfreed ih => exact absurd (readHeaders_line_cases hline h).1 hfreed
  | case5 msg hdrs offset p hne aLine q hline hfreed ih =>
    obtain ⟨-, ⟨rfl, rfl, -⟩ | ⟨m, hheader, h⟩⟩ := readHeaders_line_cases hline h
    · exact ⟨rfl, by simp⟩
    · obtain ⟨map, rfl⟩ := frame_readHeader hheader
      exact ih { msg with myHeaderMap := map } h

theorem frame_readBody (h : readBody msg text = .ok (msg', rest)) :
    msg'.myStartLine = msg.myStartLine ∧
      (msg'.myCompletionFlag = .RTSP_MSG_COMPLETE ∨ msg'.myCompletionFlag = .RTSP_MSG_HEADERS_COMPLETE) := by
  rw [readBody] at h
  cases hlength : msg.getContentLength with
  | error e =>
    rw [hlength] at h
    cases h
  | ok m =>
    obtain ⟨value, rfl⟩ := frame_getContentLength hlength
    rw [hlength] at h
    simp only [bind, Except.bind, pure, Except.pure] at h
    split_ifs at h <;> obtain ⟨rfl, -⟩ := Prod.mk.inj (Except.ok.inj h) <;> simp

theorem frame_readRest {p : CharDataParser} (h : readRest msg p = .ok (msg', rest)) :
    msg'.myStartLine = msg.myStartLine ∧
      (msg'.myCompletionFlag = .RTSP_MSG_COMPLETE ∨ msg'.myCompletionFlag = .RTSP_MSG_HEADERS_COMPLETE ∨
        msg'.myCompletionFlag = msg.myCompletionFlag ∧ msg'.myIncompHeader ≠ []) := by
  obtain ⟨m, headersEnd, q, hheaders, ⟨hend, rfl, -⟩ | ⟨-, hread⟩⟩ := readRest_cases h
  · obtain ⟨hstart, hhalf⟩ := frame_readHeaders hheaders
    exact ⟨hstart, .inr (.inr (hhalf hend))⟩
  · obtain ⟨hstart, -⟩ := frame_readHeaders hheaders
    obtain ⟨hbody, hflag⟩ := frame_readBody hread
    refine ⟨hbody.trans hstart, ?_⟩
    rcases hflag with hflag | hflag
    · exact .inl hflag
    · exact .inr (.inl hflag)

theorem Saved.readFrom (h : Saved msg) (hread : readFrom msg ⟨data, bytesDecoded⟩ = .ok (msg', rest)) :
    Ascii msg'.myStartLine ∧ (msg'.myCompletionFlag ≠ .RTSP_MSG_COMPLETE → Saved msg') := by
  rw [RtspMsgParser.readFrom] at hread
  split at hread
  · rename_i hnew
    cases hline : CharDataParser.getNextLine ⟨data, bytesDecoded⟩ with
    | error e =>
      rw [hline] at hread
      cases hread
    | ok r =>
      obtain ⟨aLine, found, q⟩ := r
      rw [hline] at hread
      have hascii : Ascii (msg.myStartLine ++ aLine) := ascii_append.mpr ⟨h.ascii, CharDataParser.ascii_of_getNextLine hline⟩
      cases found with
      | false =>
        obtain ⟨rfl, -⟩ := Prod.mk.inj (Except.ok.inj hread)
        refine ⟨hascii, fun _ => ⟨hascii, fun _ => ?_, ?_⟩⟩
        · exact { h.start hnew with }
        · simp [hnew]
      | true =>
        obtain ⟨hstart, hflag⟩ := frame_readRest hread
        have hascii' : Ascii msg'.myStartLine := by rw [hstart]; exact hascii
        refine ⟨hascii', fun hcomplete => ⟨hascii', ?_, ?_⟩⟩ <;> rcases hflag with hflag | hflag | ⟨hflag, hhalf⟩ <;>
          simp_all
  · rename_i hstrt
    obtain ⟨hstart, hflag⟩ := frame_readRest hread
    have hascii : Ascii msg'.myStartLine := by rw [hstart]; exact h.ascii
    refine ⟨hascii, fun hcomplete => ⟨hascii, ?_, ?_⟩⟩ <;> rcases hflag with hflag | hflag | ⟨hflag, hhalf⟩ <;> simp_all
  all_goals
    cases hbody : RtspMsgParser.readBody msg data <;> rw [hbody] at hread <;> cases hread

/-! ### A call -/

theorem eq_outOfBounds_of_getNextInteger {e : Stop} (h : p.getNextInteger = .error e) : e = .outOfBounds := by
  rw [CharDataParser.getNextInteger] at h
  cases hscan : Scan.scan (fun c => (entry myMaskDigit c).map not) p.text with
  | error e' =>
    rw [hscan] at h
    obtain ⟨c, -, hc⟩ := Scan.exists_of_scan_eq_error hscan
    cases hentry : entry myMaskDigit c with
    | error e'' =>
      rw [hentry] at hc
      rw [← Except.error.inj h, ← Except.error.inj hc]
      exact eq_outOfBounds_of_entry hentry
    | ok b =>
      rw [hentry] at hc
      cases hc
  | ok r =>
    rw [hscan] at h
    simp only [bind, Except.bind] at h
    split at h <;> cases h

theorem eq_outOfBounds_of_getHdrBodyValue {header : RtspHeadersType} {e : Stop} (h : msg.getHdrBodyValue header = .error e) :
    e = .outOfBounds := by
  rw [RtspMsg.getHdrBodyValue] at h
  split at h
  · cases h
  · rename_i hvd hmap
    rw [RtspMsg.hdrBody] at h
    split at h
    · cases hvalue : CharDataParser.getNextInteger ⟨(msg.myHeaders.drop hvd.offset).take hvd.len, 0⟩ with
      | error e' =>
        simp only [bind, Except.bind, hvalue] at h
        rw [← Except.error.inj h]
        exact eq_outOfBounds_of_getNextInteger hvalue
      | ok value =>
        simp only [bind, Except.bind, hvalue] at h
        cases h
    · exact (Except.error.inj h).symm

theorem eq_outOfBounds_of_readBody {e : Stop} (h : readBody msg text = .error e) : e = .outOfBounds := by
  rw [readBody] at h
  cases hlength : msg.getContentLength with
  | ok m =>
    rw [hlength] at h
    simp only [bind, Except.bind, pure, Except.pure] at h
    split_ifs at h
  | error e' =>
    rw [hlength] at h
    rw [← Except.error.inj h]
    rw [RtspMsg.getContentLength] at hlength
    split at hlength
    · cases hvalue : msg.getHdrBodyValue .RTSP_CONTENT_LENGTH_HDR with
      | error e'' =>
        rw [hvalue] at hlength
        rw [← Except.error.inj hlength]
        exact eq_outOfBounds_of_getHdrBodyValue hvalue
      | ok value =>
        rw [hvalue] at hlength
        cases hlength
    · cases hlength

theorem Received.isSome_nil (h : Received msg []) : (msg.myHeaderMap .RTSP_CONTENT_LENGTH_HDR).isSome = false := by
  cases hmap : msg.myHeaderMap .RTSP_CONTENT_LENGTH_HDR with
  | none => rfl
  | some hvd =>
    have hplace := h.places _ hvd hmap
    rw [List.length_nil] at hplace
    omega

theorem Received.onlyBadData_readRest (h : Received msg []) :
    OnlyBadData (readRest msg ⟨text, bytesDecoded⟩) ↔ HarmlessHeaders bytesDecoded false text := by
  rw [readRest, h.headers, h.incomp, ← h.isSome_nil]
  exact onlyBadData_readHeaders h

theorem harmlessStart_of_none (h : splitLine data = none) : HarmlessStart bytesDecoded data ↔ Ascii data ∧ bytesDecoded = 0 := by
  rw [HarmlessStart, h]

theorem harmlessStart_of_some (h : splitLine data = some (aLine, rest)) :
    HarmlessStart bytesDecoded data ↔ Readable bytesDecoded aLine rest ∧ HarmlessHeaders bytesDecoded false rest := by
  rw [HarmlessStart, h]

theorem Received.onlyBadData_readFrom (h : Received msg []) (hnew : msg.myCompletionFlag = .RTSP_MSG_NEW) :
    OnlyBadData (readFrom msg ⟨data, bytesDecoded⟩) ↔ HarmlessStart bytesDecoded data := by
  rw [readFrom, hnew]
  cases hsplit : splitLine data with
  | none =>
    rw [harmlessStart_of_none hsplit]
    by_cases hread : Ascii data ∧ bytesDecoded = 0
    · obtain ⟨hascii, rfl⟩ := hread
      rw [CharDataParser.getNextLine_of_splitLine_none hsplit hascii]
      exact iff_of_true (onlyBadData_ok _) ⟨hascii, rfl⟩
    · rw [CharDataParser.getNextLine_of_not_ascii hsplit hread]
      exact iff_of_false not_onlyBadData hread
  | some l =>
    obtain ⟨aLine, rest⟩ := l
    rw [harmlessStart_of_some hsplit]
    by_cases hread : Readable bytesDecoded aLine rest
    · have hreceived : Received { msg with
          myStartLine := msg.myStartLine ++ aLine, myCompletionFlag := .RTSP_MSG_STRTLINE_COMPLETE } [] := { h with }
      rw [CharDataParser.getNextLine_of_splitLine hsplit hread]
      rw [and_iff_right hread]
      exact hreceived.onlyBadData_readRest
    · rw [CharDataParser.getNextLine_of_not_readable hsplit hread]
      exact iff_of_false not_onlyBadData fun hharmless => hread hharmless.1

theorem onlyBadData_readRest_half (h : msg.myIncompHeader ≠ []) (hne : data ≠ []) :
    OnlyBadData (readRest msg ⟨data, bytesDecoded⟩) ↔ splitLine data = none ∧ Ascii data ∧ bytesDecoded = 0 := by
  rw [readRest]
  cases hsplit : splitLine data with
  | none =>
    by_cases hread : Ascii data ∧ bytesDecoded = 0
    · obtain ⟨hascii, rfl⟩ := hread
      rw [readHeaders_of_incomplete hne (CharDataParser.getNextLine_of_splitLine_none hsplit hascii)]
      exact iff_of_true (onlyBadData_ok _) ⟨rfl, hascii, rfl⟩
    · rw [readHeaders_of_error hne (CharDataParser.getNextLine_of_not_ascii hsplit hread)]
      exact iff_of_false not_onlyBadData fun hharmless => hread hharmless.2
  | some l =>
    obtain ⟨aLine, rest⟩ := l
    refine iff_of_false ?_ (by simp)
    by_cases hread : Readable bytesDecoded aLine rest
    · rw [readHeaders_of_line (CharDataParser.getNextLine_of_splitLine hsplit hread), if_pos h]
      exact onlyBadData_error_iff.not.mpr (by decide)
    · rw [readHeaders_of_error hne (CharDataParser.getNextLine_of_not_readable hsplit hread)]
      exact not_onlyBadData

theorem newRtspMsg_eq (firstWord : Data) :
    ∃ cls unknown, newRtspMsg firstWord = { cls := cls, myFirstWordUnknown := unknown } := by
  rw [newRtspMsg]
  split
  · exact ⟨_, _, rfl⟩
  · split <;> exact ⟨_, _, rfl⟩

theorem received_newRtspMsg (firstWord : Data) : Received (newRtspMsg firstWord) [] := by
  obtain ⟨cls, unknown, heq⟩ := newRtspMsg_eq firstWord
  rw [heq]
  exact ⟨ascii_nil, rfl, rfl, rfl, by simp⟩

theorem saved_newRtspMsg (firstWord : Data) : Saved (newRtspMsg firstWord) := by
  have hreceived := received_newRtspMsg firstWord
  obtain ⟨cls, unknown, heq⟩ := newRtspMsg_eq firstWord
  rw [heq] at hreceived ⊢
  exact ⟨ascii_nil, fun _ => hreceived, by simp⟩

theorem exists_getNextWord (h : HarmlessStart bytesDecoded data) :
    ∃ r, CharDataParser.getNextWord ⟨data, bytesDecoded⟩ = .ok r := by
  cases hsplit : splitLine data with
  | none =>
    obtain ⟨hascii, rfl⟩ := (harmlessStart_of_none hsplit).mp h
    exact ⟨_, CharDataParser.getNextWord_of_ascii hascii⟩
  | some l =>
    have hread := ((harmlessStart_of_some hsplit).mp h).1
    exact ⟨_, CharDataParser.getNextWord_of_splitLine hsplit hread.1⟩

theorem eq_outOfBounds_of_createRtspMsg {e : Stop} (h : createRtspMsg p = .error e) : e = .outOfBounds := by
  rw [createRtspMsg] at h
  cases hword : p.getNextWord with
  | error e' =>
    rw [hword] at h
    rw [← Except.error.inj h]
    exact CharDataParser.eq_outOfBounds_of_parseUntil hword
  | ok r =>
    rw [hword] at h
    cases h

theorem createRtspMsg_of_word {r : Data × Bool × CharDataParser} (h : p.getNextWord = .ok r) :
    createRtspMsg p = .ok (newRtspMsg r.1) := by
  rw [createRtspMsg, h]
  rfl

/-- A call reports at most bad data if and only if it is harmless. -/
theorem onlyBadData_preParse {savedMsg : Option RtspMsg} (h : ∀ msg, savedMsg = some msg → Saved msg) (hne : data ≠ []) :
    OnlyBadData (preParse data bytesDecoded savedMsg) ↔ Call.Harmless ⟨data, bytesDecoded, savedMsg⟩ := by
  cases savedMsg with
  | none =>
    rw [Call.Harmless, preParse]
    cases hcreate : createRtspMsg ⟨data, bytesDecoded⟩ with
    | error e =>
      rw [eq_outOfBounds_of_createRtspMsg hcreate]
      refine iff_of_false not_onlyBadData fun hharmless => ?_
      obtain ⟨r, hr⟩ := exists_getNextWord hharmless
      rw [createRtspMsg_of_word hr] at hcreate
      cases hcreate
    | ok m =>
      obtain ⟨r, hr⟩ : ∃ r, CharDataParser.getNextWord ⟨data, bytesDecoded⟩ = .ok r := by
        cases hword : CharDataParser.getNextWord ⟨data, bytesDecoded⟩ with
        | ok r => exact ⟨r, rfl⟩
        | error e =>
          rw [createRtspMsg, hword] at hcreate
          cases hcreate
      obtain rfl : newRtspMsg r.1 = m := by
        rw [createRtspMsg_of_word hr] at hcreate
        exact Except.ok.inj hcreate
      obtain ⟨cls, unknown, heq⟩ := newRtspMsg_eq r.1
      exact (received_newRtspMsg r.1).onlyBadData_readFrom (by rw [heq])
  | some m =>
    have hsaved := h m rfl
    rw [Call.Harmless, preParse]
    cases hflag : m.myCompletionFlag with
    | RTSP_MSG_NEW => simpa [hflag] using (hsaved.start hflag).onlyBadData_readFrom hflag
    | RTSP_MSG_STRTLINE_COMPLETE =>
      simpa [hflag, readFrom] using onlyBadData_readRest_half (hsaved.half hflag) hne
    | RTSP_MSG_HEADERS_COMPLETE =>
      have hbody : ¬OnlyBadData (readFrom m ⟨data, bytesDecoded⟩) := by
        rw [readFrom, hflag]
        cases hread : readBody m data with
        | ok r => exact onlyBadData_error_iff.not.mpr (by decide)
        | error e =>
          rw [eq_outOfBounds_of_readBody hread]
          exact not_onlyBadData
      simpa [hflag] using hbody
    | RTSP_MSG_COMPLETE => simp [hflag, throw, throwThe, MonadExceptOf.throw, onlyBadData_error_iff]

theorem ascii_of_preParse {savedMsg : Option RtspMsg} (h : ∀ msg, savedMsg = some msg → Saved msg)
    (hparse : preParse data bytesDecoded savedMsg = .ok (msg, rest)) :
    Ascii msg.myStartLine ∧ (msg.myCompletionFlag ≠ .RTSP_MSG_COMPLETE → Saved msg) := by
  cases savedMsg with
  | none =>
    rw [preParse, createRtspMsg] at hparse
    cases hword : CharDataParser.getNextWord ⟨data, bytesDecoded⟩ with
    | error e =>
      rw [hword] at hparse
      cases hparse
    | ok r =>
      rw [hword] at hparse
      exact (saved_newRtspMsg r.1).readFrom hparse
  | some m =>
    rw [preParse] at hparse
    split at hparse
    · cases hparse
    · exact (h m rfl).readFrom hparse

namespace RtspTcpBuffer

variable {buffer buffer' : RtspTcpBuffer} {reads : List Data}

/-- What a connection keeps between two calls. -/
def Kept (buffer : RtspTcpBuffer) : Prop := ∀ msg, buffer.mySavedRtspMsg = some msg → Saved msg

theorem exists_derive (h : Ascii msg.myStartLine) : ∃ cls, derive msg = .ok { msg with cls := cls } := by
  rw [derive]
  split
  · rw [createRtspMsg_of_word (CharDataParser.getNextWord_of_ascii h)]
    exact ⟨_, rfl⟩
  · exact ⟨_, rfl⟩

theorem onlyBadData_readMessage (h : Kept buffer) (hne : data ≠ []) :
    OnlyBadData (buffer.readMessage bytesDecoded data) ↔ Call.Harmless ⟨data, bytesDecoded, buffer.mySavedRtspMsg⟩ := by
  rw [← onlyBadData_preParse h hne, readMessage]
  cases hparse : preParse data bytesDecoded buffer.mySavedRtspMsg with
  | error e => exact onlyBadData_error_iff.trans onlyBadData_error_iff.symm
  | ok r =>
    obtain ⟨m, rest⟩ := r
    refine iff_of_true ?_ (onlyBadData_ok _)
    obtain ⟨cls, hcls⟩ := exists_derive (ascii_of_preParse h hparse).1
    simp only [bind, Except.bind, hcls]
    split_ifs
    · exact onlyBadData_ok _
    · exact onlyBadData_error_iff.mpr rfl
    · exact onlyBadData_ok _

theorem Kept.readMessage (h : Kept buffer) (hread : buffer.readMessage bytesDecoded data = .ok (buffer', rest)) :
    Kept buffer' := by
  rw [RtspTcpBuffer.readMessage] at hread
  cases hparse : preParse data bytesDecoded buffer.mySavedRtspMsg with
  | error e =>
    rw [hparse] at hread
    cases hread
  | ok r =>
    obtain ⟨m, rest'⟩ := r
    obtain ⟨hascii, hsaved⟩ := ascii_of_preParse h hparse
    obtain ⟨cls, hcls⟩ := exists_derive hascii
    rw [hparse] at hread
    simp only [bind, Except.bind, hcls] at hread
    split_ifs at hread with hcomplete
    · obtain ⟨rfl, -⟩ := Prod.mk.inj (Except.ok.inj hread)
      intro msg hmsg
      cases hmsg
    · obtain ⟨rfl, -⟩ := Prod.mk.inj (Except.ok.inj hread)
      intro msg hmsg
      rw [← Option.some.inj hmsg]
      exact hsaved hcomplete

/-! ### Runs -/

/-- The calls of `preParse` in a run: with the bytes that are left of a read, and the reads that follow. -/
inductive Called : RtspTcpBuffer → Nat → Data → List Data → Call → Prop
  | here {buffer : RtspTcpBuffer} {bytesDecoded : Nat} {data : Data} {reads : List Data} (hne : data ≠ []) :
    Called buffer bytesDecoded data reads ⟨data, bytesDecoded, buffer.mySavedRtspMsg⟩
  | message {buffer buffer' : RtspTcpBuffer} {bytesDecoded : Nat} {data rest : Data} {reads : List Data} {call : Call}
    (hne : data ≠ []) (hread : buffer.readMessage bytesDecoded data = .ok (buffer', rest))
    (hcall : Called buffer' (bytesDecoded + (data.length - rest.length)) rest reads call) :
    Called buffer bytesDecoded data reads call
  | read {buffer : RtspTcpBuffer} {bytesDecoded : Nat} {data : Data} {reads : List Data} {call : Call}
    (hcall : Called buffer 0 data reads call) : Called buffer bytesDecoded [] (data :: reads) call

/-- What stops a run, with the bytes that are left of a read, and the reads that follow. -/
def stopOf (buffer : RtspTcpBuffer) (bytesDecoded : Nat) (data : Data) (reads : List Data) : Option Stop :=
  match buffer.readMessages bytesDecoded data with
  | (buffer, none) => (buffer.readAll reads).2
  | (_, some e) => some e

theorem readMessages_nil : buffer.readMessages bytesDecoded [] = (buffer, none) := by rw [readMessages, dif_pos rfl]

theorem readMessages_of_error {e : Stop} (hne : data ≠ []) (h : buffer.readMessage bytesDecoded data = .error e) :
    buffer.readMessages bytesDecoded data = (buffer, some e) := by
  rw [readMessages, dif_neg hne]
  split <;> simp_all

theorem readMessages_of_ok (hne : data ≠ []) (h : buffer.readMessage bytesDecoded data = .ok (buffer', rest)) :
    buffer.readMessages bytesDecoded data = buffer'.readMessages (bytesDecoded + (data.length - rest.length)) rest := by
  rw [readMessages, dif_neg hne]
  split <;> simp_all

theorem stopOf_nil : stopOf buffer bytesDecoded [] reads = (buffer.readAll reads).2 := by rw [stopOf, readMessages_nil]

theorem readAll_cons : (buffer.readAll (data :: reads)).2 = stopOf buffer 0 data reads := by
  rw [readAll, stopOf, readTcpData]
  split <;> simp_all

theorem stopOf_of_error {e : Stop} (hne : data ≠ []) (h : buffer.readMessage bytesDecoded data = .error e) :
    stopOf buffer bytesDecoded data reads = some e := by
  rw [stopOf, readMessages_of_error hne h]

theorem stopOf_of_ok (hne : data ≠ []) (h : buffer.readMessage bytesDecoded data = .ok (buffer', rest)) :
    stopOf buffer bytesDecoded data reads =
      stopOf buffer' (bytesDecoded + (data.length - rest.length)) rest reads := by
  rw [stopOf, readMessages_of_ok hne h, stopOf]

theorem harmless_iff_of_nil
    (hnil : ∀ {buffer bytesDecoded}, Kept buffer → ((∀ call, Called buffer bytesDecoded [] reads call → call.Harmless) ↔
      ∀ e ∈ stopOf buffer bytesDecoded [] reads, e = .RtspBadDataException)) (h : Kept buffer) :
    (∀ call, Called buffer bytesDecoded data reads call → call.Harmless) ↔
      ∀ e ∈ stopOf buffer bytesDecoded data reads, e = .RtspBadDataException := by
  induction hn : data.length using Nat.strong_induction_on generalizing buffer bytesDecoded data with
  | _ n ih =>
    by_cases hne : data = []
    · subst hne
      exact hnil h
    · have hcall : OnlyBadData (buffer.readMessage bytesDecoded data) ↔ _ := onlyBadData_readMessage h hne
      cases hread : buffer.readMessage bytesDecoded data with
      | error e =>
        rw [hread, onlyBadData_error_iff] at hcall
        rw [stopOf_of_error hne hread]
        constructor
        · intro hall e' he'
          rw [← Option.some.inj he']
          exact hcall.mpr (hall _ (.here hne))
        · intro hstop call hcalled
          have hharmless := hcall.mp (hstop e rfl)
          cases hcalled with
          | here => exact hharmless
          | message hne' hread' => rw [hread] at hread'; cases hread'
          | read => exact absurd rfl hne
      | ok r =>
        obtain ⟨buffer', rest⟩ := r
        have hlt := (progress_of_readMessage hread hne).2
        rw [hread] at hcall
        rw [stopOf_of_ok hne hread, ← ih rest.length (hn ▸ hlt) (h.readMessage hread) rfl]
        constructor
        · exact fun hall call hcalled => hall call (.message hne hread hcalled)
        · intro hall call hcalled
          cases hcalled with
          | here => exact hcall.mp (onlyBadData_ok _)
          | message hne' hread' hcalled =>
            rw [hread] at hread'
            obtain ⟨rfl, rfl⟩ := Prod.mk.inj (Except.ok.inj hread')
            exact hall call hcalled
          | read => exact absurd rfl hne

theorem harmless_iff_stopOf (h : Kept buffer) :
    (∀ call, Called buffer bytesDecoded data reads call → call.Harmless) ↔
      ∀ e ∈ stopOf buffer bytesDecoded data reads, e = .RtspBadDataException := by
  induction reads generalizing buffer bytesDecoded data with
  | nil =>
    refine harmless_iff_of_nil ?_ h
    intro buffer bytesDecoded hkept
    rw [stopOf_nil]
    refine iff_of_true ?_ (by simp [readAll])
    rintro call (⟨hne⟩ | ⟨hne, -, -⟩)
    all_goals exact absurd rfl hne
  | cons d reads ih =>
    refine harmless_iff_of_nil ?_ h
    intro buffer bytesDecoded hkept
    rw [stopOf_nil, readAll_cons, ← ih hkept]
    constructor
    · exact fun hall call hcalled => hall call (.read hcalled)
    · intro hall call hcalled
      cases hcalled with
      | here hne => exact absurd rfl hne
      | message hne => exact absurd rfl hne
      | read hcalled => exact hall call hcalled

theorem ne_nil_of_called {call : Call} (h : Called buffer bytesDecoded data reads call) : call.data ≠ [] := by
  induction h with
  | here hne => exact hne
  | message _ _ _ ih => exact ih
  | read _ ih => exact ih

theorem kept_of_called {call : Call} (h : Called buffer bytesDecoded data reads call) (hkept : Kept buffer) :
    ∀ msg, call.savedMsg = some msg → Saved msg := by
  induction h with
  | here => exact hkept
  | message _ hread _ ih => exact ih (hkept.readMessage hread)
  | read _ ih => exact ih hkept

theorem kept_nil : Kept {} := fun _ h => by cases h

/-- What a call is to do: it returns with at least one byte decoded and no more than are left, or it reports bad data. -/
structure Sound (call : Call) : Prop where
  onlyBadData : OnlyBadData (preParse call.data call.bytesDecoded call.savedMsg)
  progress : ∀ msg rest, preParse call.data call.bytesDecoded call.savedMsg = .ok (msg, rest) →
    rest <:+ call.data ∧ rest.length < call.data.length

/-- A run of reads is sound, and each call in it is, if and only if its calls are harmless. -/
theorem readAll_robust (reads : List Data) :
    ((∀ e ∈ (({} : RtspTcpBuffer).readAll reads).2, e = .RtspBadDataException) ∧
        ∀ call, Called {} 0 [] reads call → Sound call) ↔
      ∀ call, Called {} 0 [] reads call → call.Harmless := by
  have hstop : (∀ call, Called {} 0 [] reads call → call.Harmless) ↔ ∀ e ∈ stopOf {} 0 [] reads, e = .RtspBadDataException :=
    harmless_iff_stopOf kept_nil
  rw [stopOf_nil] at hstop
  rw [hstop]
  refine and_iff_left_of_imp fun hrun call hcalled => ?_
  have hne := ne_nil_of_called hcalled
  have hharmless := (onlyBadData_preParse (kept_of_called hcalled kept_nil) hne).mpr (hstop.mpr hrun call hcalled)
  exact ⟨hharmless, fun msg rest hparse => progress_of_preParse hparse hne⟩

/-- The name of an unknown header that is longer than the buffer for its copy. -/
theorem not_readAll_robust :
    ¬∀ e ∈ (({} : RtspTcpBuffer).readAll
      ["OPTIONS * RTSP/1.0".toList ++ (CRLF ++ (List.replicate 40 'x' ++ (CRLF ++ CRLF)))]).2,
        e = .RtspBadDataException := by
  intro hrun
  rw [readAll_cons] at hrun
  have hstart : HarmlessStart 0 ("OPTIONS * RTSP/1.0".toList ++ (CRLF ++ (List.replicate 40 'x' ++ (CRLF ++ CRLF)))) :=
    (harmless_iff_stopOf kept_nil).mpr hrun _ (.here (by simp))
  have hheaders := ((harmlessStart_of_some (splitLine_crlf (noEol_of_all (by decide)))).mp hstart).2
  obtain ⟨-, -, hcrlf | ⟨hfits, -⟩⟩ := (harmlessHeaders_of_some (splitLine_crlf (noEol_of_all (by decide)))).mp hheaders
  · exact absurd hcrlf (by decide)
  · exact absurd hfits (by decide)

end RtspTcpBuffer

end Vocal.Rtsp
