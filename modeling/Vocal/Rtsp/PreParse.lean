import Vocal.Rtsp.Lines
import Vocal.Rtsp.Msg

/-!
# Receiving messages

`RtspMsgParser::preParse` takes one message off the bytes of a read, and `RtspTcpBuffer::readTcpData` one after another.
The bytes that are decoded already stand in front of those that are left. The parser takes the number of all the bytes of
the read for that of those left to it, so its text ends as far beyond the read as bytes are decoded.
-/

namespace Vocal.Rtsp

open Sip (Data CRLF)

namespace RtspMsgParser

/-- A new message, whose class goes by the first word. -/
def newRtspMsg (firstWord : Data) : RtspMsg :=
  if isEqualNoCase firstWord "RTSP".toList then { cls := .RtspResponse }
  else match RtspUtil.getMethodInNumber firstWord with
    | .RTSP_ANNOUNCE_MTHD => { cls := .RtspAnnounceMsg }
    | .RTSP_DESCRIBE_MTHD => { cls := .RtspDescribeMsg }
    | .RTSP_PLAY_MTHD => { cls := .RtspPlayMsg }
    | .RTSP_RECORD_MTHD => { cls := .RtspRecordMsg }
    | .RTSP_PAUSE_MTHD => { cls := .RtspPauseMsg }
    | .RTSP_SETUP_MTHD => { cls := .RtspSetupMsg }
    | .RTSP_TEARDOWN_MTHD => { cls := .RtspTeardownMsg }
    | .RTSP_GET_PARAMETER_MTHD => { cls := .RtspRequest }
    | .RTSP_OPTIONS_MTHD => { cls := .RtspOptionsMsg }
    | .RTSP_REDIRECT_MTHD => { cls := .RtspRequest }
    | .RTSP_SET_PARAMETER_MTHD => { cls := .RtspSetParameterMsg }
    | .RTSP_NULL_MTHD | .RTSP_UNKNOWN_MTHD => { cls := .RtspMsg, myFirstWordUnknown := true }

def createRtspMsg (strtLine : CharDataParser) : Except Stop RtspMsg := do
  let (firstWord, _) ← strtLine.getNextWord
  return newRtspMsg firstWord

/-- The part of `preParse` for a header line that stands at an offset of the headers. The name of an unknown header is
copied, for the log, to a buffer of 32 characters. -/
def readHeader (msg : RtspMsg) (aLine : Data) (newHdrOffset : Nat) : Except Stop RtspMsg := do
  let (aHeader, _, lineParser) ← CharDataParser.getNextWord { text := aLine }
  let headerNum := RtspUtil.getHeaderInNumber aHeader
  if headerNum = .RTSP_UNKNOWN_HDR then
    if aHeader.length < 32 then return msg else throw .outOfBounds
  let (tmpData, found, lineParser) ← lineParser.parseThru ':'
  if !found then return msg.setHeadersMap headerNum none
  let (spaces, _) ← lineParser.getThruSpaces
  let hdrBdyOffset := newHdrOffset + aHeader.length + tmpData.length + spaces.length
  return msg.setHeadersMap headerNum (some { offset := hdrBdyOffset, len := newHdrOffset + aLine.length - hdrBdyOffset })

/-- How the loop over the header lines ends: with a line that is not complete, with the bytes of the read, or with the
empty line. -/
inductive HeadersEnd
  | incomplete
  | exhausted
  | foundEmptyLine
  deriving DecidableEq, Repr

/-- The loop of `preParse` over the header lines. `hdrs` are those in front of the next one in this read. A line that
began in an earlier read is put together in memory that is given back before the line is looked at. -/
def readHeaders (msg : RtspMsg) (hdrs : Data) (newHdrOffset : Nat) (charParser : CharDataParser) :
    Except Stop (RtspMsg × HeadersEnd × CharDataParser) :=
  if charParser.text = [] then .ok (msg, .exhausted, charParser) else
    match _h : charParser.getNextLine with
    | .error e => .error e
    | .ok (aLine, false, charParser) =>
      .ok ({ msg with myIncompHeader := aLine, myHeaders := msg.myHeaders ++ (hdrs ++ aLine) }, .incomplete, charParser)
    | .ok (aLine, true, charParser) => do
      if msg.myIncompHeader ≠ [] then throw .freed
      if ← isEmptyLine aLine charParser.text then
        return ({ msg with myHeaders := msg.myHeaders ++ (hdrs ++ aLine), myCompletionFlag := .RTSP_MSG_HEADERS_COMPLETE },
          .foundEmptyLine, charParser)
      let msg ← readHeader msg aLine newHdrOffset
      readHeaders msg (hdrs ++ aLine) (newHdrOffset + aLine.length) charParser
  termination_by charParser.text.length
  decreasing_by exact (CharDataParser.progress_of_getNextLine _h).2 (CharDataParser.text_ne_nil_of_getNextLine _h)

/-- The part of `preParse` behind the empty line, at the bytes that are left. -/
def readBody (msg : RtspMsg) (text : Data) : Except Stop (RtspMsg × Data) := do
  let msg ← msg.getContentLength
  let contentLen := msg.myContentLength.toInt
  if contentLen > 0 then
    if contentLen - msg.myMsgBody.length > text.length then
      return ({ msg with
        myCompletionFlag := .RTSP_MSG_HEADERS_COMPLETE, myHasBody := true, myMsgBody := msg.myMsgBody ++ text }, [])
    let contentLen := (contentLen - msg.myMsgBody.length).toNat
    return ({ msg with
      myCompletionFlag := .RTSP_MSG_COMPLETE, myHasBody := true, myMsgBody := msg.myMsgBody ++ text.take contentLen },
      text.drop contentLen)
  return ({ msg with myCompletionFlag := .RTSP_MSG_COMPLETE, myHasBody := false }, text)

/-- The part of `preParse` behind the loop over the header lines. -/
def readEnd (msg : RtspMsg) (headersEnd : HeadersEnd) (charParser : CharDataParser) : Except Stop (RtspMsg × Data) :=
  match headersEnd with
  | .incomplete => return (msg, charParser.text)
  | .exhausted => do
    let _ ← msg.getContentLength
    throw .RtspBadDataException
  | .foundEmptyLine => readBody msg charParser.text

/-- The part of `preParse` behind the start line. -/
def readRest (msg : RtspMsg) (charParser : CharDataParser) : Except Stop (RtspMsg × Data) := do
  let r ← readHeaders msg [] (msg.myHeaders.length - msg.myIncompHeader.length) charParser
  readEnd r.1 r.2.1 r.2.2

/-- The part of `preParse` from the start line on, for a message in one of its states. -/
def readFrom (msg : RtspMsg) (stream : CharDataParser) : Except Stop (RtspMsg × Data) :=
  match msg.myCompletionFlag with
  | .RTSP_MSG_NEW => do
    let (aLine, found, charParser) ← stream.getNextLine
    let msg := { msg with myStartLine := msg.myStartLine ++ aLine }
    if !found then return (msg, charParser.text)
    readRest { msg with myCompletionFlag := .RTSP_MSG_STRTLINE_COMPLETE } charParser
  | .RTSP_MSG_STRTLINE_COMPLETE => readRest msg stream
  | .RTSP_MSG_HEADERS_COMPLETE | .RTSP_MSG_COMPLETE => do
    let _ ← readBody msg stream.text
    -- no line was read, so `aLine` has no characters, which its destructor asserts
    throw .assertion

/-- `preParse`, at the bytes left of a read: the message and what is left behind it. -/
def preParse (data : Data) (bytesDecoded : Nat) (savedMsg : Option RtspMsg) : Except Stop (RtspMsg × Data) :=
  let stream : CharDataParser := { text := data, beyond := bytesDecoded }
  match savedMsg with
  | none => createRtspMsg stream >>= (readFrom · stream)
  | some msg => if msg.myCompletionFlag = .RTSP_MSG_COMPLETE then throw .assertion else readFrom msg stream

/-! ### What is decoded -/

section

variable {msg msg' : RtspMsg} {hdrs aLine data text rest : Data} {newHdrOffset bytesDecoded : Nat} {p p' : CharDataParser}
  {headersEnd : HeadersEnd} {e : Stop}

theorem readHeaders_of_nil (h : p.text = []) : readHeaders msg hdrs newHdrOffset p = .ok (msg, .exhausted, p) := by
  rw [readHeaders, if_pos h]

theorem readHeaders_of_error (hne : p.text ≠ []) (h : p.getNextLine = .error e) :
    readHeaders msg hdrs newHdrOffset p = .error e := by
  rw [readHeaders, if_neg hne]
  split <;> simp_all

theorem readHeaders_of_incomplete (hne : p.text ≠ []) (h : p.getNextLine = .ok (aLine, false, p')) :
    readHeaders msg hdrs newHdrOffset p =
      .ok ({ msg with myIncompHeader := aLine, myHeaders := msg.myHeaders ++ (hdrs ++ aLine) }, .incomplete, p') := by
  rw [readHeaders, if_neg hne]
  split <;> simp_all

theorem readHeaders_of_line (h : p.getNextLine = .ok (aLine, true, p')) :
    readHeaders msg hdrs newHdrOffset p =
      if msg.myIncompHeader ≠ [] then .error .freed
      else (isEmptyLine aLine p'.text).bind fun empty =>
        if empty then
          .ok ({ msg with
            myHeaders := msg.myHeaders ++ (hdrs ++ aLine), myCompletionFlag := .RTSP_MSG_HEADERS_COMPLETE },
            .foundEmptyLine, p')
        else (readHeader msg aLine newHdrOffset).bind fun msg =>
          readHeaders msg (hdrs ++ aLine) (newHdrOffset + aLine.length) p' := by
  rw [readHeaders, if_neg (CharDataParser.text_ne_nil_of_getNextLine h)]
  split
  · simp_all
  · simp_all
  · rename_i l q heq
    obtain ⟨rfl, rfl⟩ : aLine = l ∧ p' = q := by simpa [h] using heq
    split <;> rfl

/-- What the loop did with a complete line: it was the empty one, or a header with the loop behind it. -/
theorem readHeaders_line_cases {q : CharDataParser} (hline : p.getNextLine = .ok (aLine, true, q))
    (h : readHeaders msg hdrs newHdrOffset p = .ok (msg', headersEnd, p')) :
    msg.myIncompHeader = [] ∧
      (msg' = { msg with
          myHeaders := msg.myHeaders ++ (hdrs ++ aLine), myCompletionFlag := .RTSP_MSG_HEADERS_COMPLETE } ∧
        headersEnd = .foundEmptyLine ∧ p' = q ∨
      ∃ m, readHeader msg aLine newHdrOffset = .ok m ∧
        readHeaders m (hdrs ++ aLine) (newHdrOffset + aLine.length) q = .ok (msg', headersEnd, p')) := by
  rw [readHeaders_of_line hline] at h
  split at h
  · cases h
  rename_i hincomp
  refine ⟨not_not.mp hincomp, ?_⟩
  cases hempty : isEmptyLine aLine q.text with
  | error e =>
    rw [hempty] at h
    cases h
  | ok empty =>
    rw [hempty] at h
    cases empty with
    | true =>
      simp only [Except.bind, if_true, Except.ok.injEq, Prod.mk.injEq] at h
      obtain ⟨rfl, rfl, rfl⟩ := h
      exact Or.inl ⟨rfl, rfl, rfl⟩
    | false =>
      cases hheader : readHeader msg aLine newHdrOffset with
      | error e =>
        rw [hheader] at h
        cases h
      | ok m =>
        rw [hheader] at h
        exact Or.inr ⟨m, rfl, h⟩

theorem readRest_cases (h : readRest msg p = .ok (msg', rest)) :
    ∃ m headersEnd q,
      readHeaders msg [] (msg.myHeaders.length - msg.myIncompHeader.length) p = .ok (m, headersEnd, q) ∧
        (headersEnd = .incomplete ∧ msg' = m ∧ rest = q.text ∨
          headersEnd = .foundEmptyLine ∧ readBody m q.text = .ok (msg', rest)) := by
  rw [readRest] at h
  cases hheaders : readHeaders msg [] (msg.myHeaders.length - msg.myIncompHeader.length) p with
  | error e =>
    rw [hheaders] at h
    cases h
  | ok r =>
    obtain ⟨m, headersEnd, q⟩ := r
    rw [hheaders] at h
    have hend : readEnd m headersEnd q = .ok (msg', rest) := h
    refine ⟨m, headersEnd, q, rfl, ?_⟩
    cases headersEnd with
    | incomplete =>
      obtain ⟨rfl, rfl⟩ := Prod.mk.inj (Except.ok.inj hend)
      exact Or.inl ⟨rfl, rfl, rfl⟩
    | exhausted =>
      rw [readEnd] at hend
      cases hlength : m.getContentLength <;> rw [hlength] at hend <;> cases hend
    | foundEmptyLine => exact Or.inr ⟨rfl, hend⟩

theorem progress_of_readHeaders (h : readHeaders msg hdrs newHdrOffset p = .ok (msg', headersEnd, p')) :
    p'.text <:+ p.text ∧ (p.text ≠ [] → p'.text.length < p.text.length) := by
  induction msg, hdrs, newHdrOffset, p using readHeaders.induct with
  | case1 msg hdrs offset p hnil =>
    rw [readHeaders_of_nil hnil] at h
    obtain ⟨-, -, rfl⟩ : msg = msg' ∧ .exhausted = headersEnd ∧ p = p' := by simpa using h
    exact ⟨List.suffix_refl _, fun hne => absurd hnil hne⟩
  | case2 msg hdrs offset p hne e hline =>
    rw [readHeaders_of_error hne hline] at h
    cases h
  | case3 msg hdrs offset p hne aLine q hline =>
    rw [readHeaders_of_incomplete hne hline] at h
    simp only [Except.ok.injEq, Prod.mk.injEq] at h
    obtain ⟨-, -, rfl⟩ := h
    exact CharDataParser.progress_of_getNextLine hline
  | case4 msg hdrs offset p hne aLine q hline hfreed ih => exact absurd (readHeaders_line_cases hline h).1 hfreed
  | case5 msg hdrs offset p hne aLine q hline hfreed ih =>
    have hprogress := CharDataParser.progress_of_getNextLine hline
    obtain ⟨-, ⟨-, -, rfl⟩ | ⟨m, -, h⟩⟩ := readHeaders_line_cases hline h
    · exact hprogress
    · obtain ⟨hsuffix, -⟩ := ih m h
      exact ⟨hsuffix.trans hprogress.1, fun hne => hsuffix.length_le.trans_lt (hprogress.2 hne)⟩

theorem suffix_of_readBody (h : readBody msg text = .ok (msg', rest)) : rest <:+ text := by
  rw [readBody] at h
  cases hlength : msg.getContentLength with
  | error e =>
    rw [hlength] at h
    cases h
  | ok m =>
    rw [hlength] at h
    simp only [bind, Except.bind, pure, Except.pure] at h
    split_ifs at h
    · obtain ⟨-, rfl⟩ := Prod.mk.inj (Except.ok.inj h)
      exact List.nil_suffix
    · obtain ⟨-, rfl⟩ := Prod.mk.inj (Except.ok.inj h)
      exact List.drop_suffix _ _
    · obtain ⟨-, rfl⟩ := Prod.mk.inj (Except.ok.inj h)
      exact List.suffix_refl _

theorem progress_of_readRest (h : readRest msg p = .ok (msg', rest)) :
    rest <:+ p.text ∧ (p.text ≠ [] → rest.length < p.text.length) := by
  obtain ⟨m, headersEnd, q, hheaders, ⟨-, -, rfl⟩ | ⟨-, hbody⟩⟩ := readRest_cases h
  · exact progress_of_readHeaders hheaders
  · have hprogress := progress_of_readHeaders hheaders
    have hsuffix := suffix_of_readBody hbody
    exact ⟨hsuffix.trans hprogress.1, fun hne => hsuffix.length_le.trans_lt (hprogress.2 hne)⟩

theorem progress_of_readFrom (h : readFrom msg p = .ok (msg', rest)) (hne : p.text ≠ []) :
    rest <:+ p.text ∧ rest.length < p.text.length := by
  rw [readFrom] at h
  split at h
  · cases hline : p.getNextLine with
    | error e =>
      rw [hline] at h
      cases h
    | ok r =>
      obtain ⟨aLine, found, q⟩ := r
      obtain ⟨hsuffix, hlt⟩ := CharDataParser.progress_of_getNextLine hline
      rw [hline] at h
      cases found with
      | false =>
        obtain ⟨-, rfl⟩ := Prod.mk.inj (Except.ok.inj h)
        exact ⟨hsuffix, hlt hne⟩
      | true =>
        obtain ⟨hrest, -⟩ := progress_of_readRest h
        exact ⟨hrest.trans hsuffix, hrest.length_le.trans_lt (hlt hne)⟩
  · obtain ⟨hrest, hlt⟩ := progress_of_readRest h
    exact ⟨hrest, hlt hne⟩
  all_goals cases hbody : readBody msg p.text <;> rw [hbody] at h <;> cases h

theorem progress_of_preParse {savedMsg : Option RtspMsg} (h : preParse data bytesDecoded savedMsg = .ok (msg, rest))
    (hne : data ≠ []) : rest <:+ data ∧ rest.length < data.length := by
  cases savedMsg with
  | none =>
    rw [preParse] at h
    cases hcreate : createRtspMsg ⟨data, bytesDecoded⟩ with
    | error e =>
      rw [hcreate] at h
      cases h
    | ok m =>
      rw [hcreate] at h
      exact progress_of_readFrom h hne
  | some m =>
    rw [preParse] at h
    split at h
    · cases h
    · exact progress_of_readFrom h hne

end

end RtspMsgParser

/-! ### The buffer of a connection -/

structure RtspTcpBuffer where
  mySavedRtspMsg : Option RtspMsg := none
  myRecvFifo : List RtspMsg := []

namespace RtspTcpBuffer

/-- A complete message that was created from a part of its first word gets its class from the whole start line. -/
def derive (msg : RtspMsg) : Except Stop RtspMsg :=
  if msg.myFirstWordUnknown then
    (RtspMsgParser.createRtspMsg { text := msg.myStartLine }).map fun newMsg => { msg with cls := newMsg.cls }
  else .ok msg

/-- What the loop of `readTcpData` does once, at the bytes left of a read: the buffer, and what is left then. -/
def readMessage (buffer : RtspTcpBuffer) (bytesDecoded : Nat) (data : Data) : Except Stop (RtspTcpBuffer × Data) := do
  let (msg, rest) ← RtspMsgParser.preParse data bytesDecoded buffer.mySavedRtspMsg
  if msg.myCompletionFlag = .RTSP_MSG_COMPLETE then
    let msg ← derive msg
    return ({ mySavedRtspMsg := none, myRecvFifo := buffer.myRecvFifo ++ [msg] }, rest)
  else if rest ≠ [] then throw .RtspBadDataException
  else return ({ buffer with mySavedRtspMsg := some msg }, rest)

theorem progress_of_readMessage {buffer buffer' : RtspTcpBuffer} {bytesDecoded : Nat} {data rest : Data}
    (h : buffer.readMessage bytesDecoded data = .ok (buffer', rest)) (hne : data ≠ []) :
    rest <:+ data ∧ rest.length < data.length := by
  rw [readMessage] at h
  cases hparse : RtspMsgParser.preParse data bytesDecoded buffer.mySavedRtspMsg with
  | error e =>
    rw [hparse] at h
    cases h
  | ok r =>
    obtain ⟨msg, rest'⟩ := r
    have hprogress := RtspMsgParser.progress_of_preParse hparse hne
    rw [hparse] at h
    simp only [bind, Except.bind, pure, Except.pure] at h
    split_ifs at h
    · cases hderive : derive msg with
      | error e =>
        rw [hderive] at h
        cases h
      | ok m =>
        rw [hderive] at h
        obtain ⟨-, rfl⟩ := Prod.mk.inj (Except.ok.inj h)
        exact hprogress
    · obtain ⟨-, rfl⟩ := Prod.mk.inj (Except.ok.inj h)
      exact hprogress

/-- The loop of `readTcpData`, and what stops it. -/
def readMessages (buffer : RtspTcpBuffer) (bytesDecoded : Nat) (data : Data) : RtspTcpBuffer × Option Stop :=
  if _hne : data = [] then (buffer, none) else
    match _h : buffer.readMessage bytesDecoded data with
    | .error e => (buffer, some e)
    | .ok (buffer, rest) => readMessages buffer (bytesDecoded + (data.length - rest.length)) rest
  termination_by data.length
  decreasing_by exact (progress_of_readMessage _h _hne).2

/-- `readTcpData`, of the bytes that a read gives. -/
def readTcpData (buffer : RtspTcpBuffer) (data : Data) : RtspTcpBuffer × Option Stop := buffer.readMessages 0 data

/-- One read after another, up to the first that is stopped. -/
def readAll (buffer : RtspTcpBuffer) : List Data → RtspTcpBuffer × Option Stop
  | [] => (buffer, none)
  | data :: reads =>
    match buffer.readTcpData data with
    | (buffer, none) => readAll buffer reads
    | (buffer, some e) => (buffer, some e)

end RtspTcpBuffer

end Vocal.Rtsp
