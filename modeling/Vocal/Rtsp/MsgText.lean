import Vocal.Rtsp.Robust

/-!
# The text of a message

A well-formed message in its parts, and what `preParse` makes of it when all of it stands in one read: `readRest_text`.
-/

namespace Vocal.Rtsp

open Sip (Data CRLF)
open Scan (scan)
open RtspMsgParser

/-! ### Messages in their parts -/

/-- A header line: a name, a colon, blanks and a value. -/
structure HeaderText where
  name : Data
  blanks : Data
  value : Data
  noColon : ':' ∉ name
  noEol : ∀ c ∈ name ++ (blanks ++ value), myMaskEol c = false
  blank : ∀ c ∈ blanks, c = '\t' ∨ c = ' '
  notBlank : ∀ c ∈ value.head?, ¬(c = '\t' ∨ c = ' ')

/-- The line without its end. -/
def HeaderText.line (l : HeaderText) : Data := l.name ++ ':' :: (l.blanks ++ l.value)

def HeaderText.text (l : HeaderText) : Data := l.line ++ CRLF

/-- The value of a header, of the last line that has its name. -/
def valueOf (headers : List HeaderText) (header : RtspHeadersType) : Option Data :=
  (headers.reverse.find? fun l => RtspUtil.getHeaderInNumber l.name = header).map (·.value)

/-- The first words of the start lines that are known. -/
def startWords : List Data := "RTSP".toList :: (RtspUtil.myMethods.map (·.2)).filter (· ≠ [])

/-- A well-formed message: the content length is that of the body. -/
structure MsgText where
  startLine : Data
  headers : List HeaderText
  body : Data
  noEol : ∀ c ∈ startLine, myMaskEol c = false
  known : ∃ word ∈ startWords, isEqualNoCase (firstWord startLine) word = true
  digitsOnly : ∀ v ∈ valueOf headers .RTSP_CONTENT_LENGTH_HDR, v ≠ [] ∧ ∀ c ∈ v, c.isDigit = true
  length : ((valueOf headers .RTSP_CONTENT_LENGTH_HDR).map (digits · 0)).getD 0 = body.length

/-- The header lines, with their ends. -/
def headerLines (headers : List HeaderText) : Data := headers.flatMap HeaderText.text

/-- What follows the characters of the start line. -/
def MsgText.behind (m : MsgText) : Data := CRLF ++ (headerLines m.headers ++ (CRLF ++ m.body))

def MsgText.text (m : MsgText) : Data := m.startLine ++ m.behind

/-- A header line that the parser takes for what it is: its characters have entries in the masks, its leading word is for the
same header as its name, and if for none it fits where it is copied. -/
structure HeaderText.Fits (l : HeaderText) : Prop where
  ascii : Ascii l.line
  header : RtspUtil.getHeaderInNumber (firstWord l.name) = RtspUtil.getHeaderInNumber l.name
  short : RtspUtil.getHeaderInNumber l.name = .RTSP_UNKNOWN_HDR → (firstWord l.name).length < 32

structure MsgText.Fits (m : MsgText) : Prop where
  ascii : Ascii m.startLine
  headers : ∀ l ∈ m.headers, l.Fits

/-- A message that has what a text says. -/
structure Framed (m : MsgText) (msg : RtspMsg) : Prop where
  cls : msg.cls = (newRtspMsg (firstWord m.startLine)).cls
  startLine : msg.myStartLine = m.startLine ++ CRLF
  headers : msg.myHeaders = headerLines m.headers ++ CRLF
  values : ∀ header, header ≠ .RTSP_UNKNOWN_HDR →
    msg.getHdrBodyData header true = .ok ((valueOf m.headers header).getD [])
  hasBody : msg.myHasBody = decide (m.body ≠ [])
  body : msg.myMsgBody = m.body

/-! ### Header lines -/

variable {l : HeaderText} {msg : RtspMsg} {hdrs rest : Data} {headers done : List HeaderText}

theorem takeWhile_append_cons {p : Char → Bool} {c : Char} (hc : p c = false) (x y : Data) :
    (x ++ c :: y).takeWhile p = x.takeWhile p := by
  induction x with
  | nil => rw [List.nil_append, List.takeWhile_cons_of_neg (by simp [hc]), List.takeWhile_nil]
  | cons a x ih =>
    rw [List.cons_append, List.takeWhile_cons, List.takeWhile_cons, ih]

theorem dropWhile_append_cons {p : Char → Bool} {c : Char} (hc : p c = false) (x y : Data) :
    (x ++ c :: y).dropWhile p = x.dropWhile p ++ c :: y := by
  have hwhole := List.takeWhile_append_dropWhile (p := p) (l := x ++ c :: y)
  have hpart := List.takeWhile_append_dropWhile (p := p) (l := x)
  rw [takeWhile_append_cons hc] at hwhole
  refine List.append_cancel_left (hwhole.trans ?_)
  rw [← List.append_assoc, hpart]

theorem HeaderText.text_eq (l : HeaderText) : l.text = l.name ++ ':' :: (l.blanks ++ (l.value ++ CRLF)) := by
  rw [text, line]
  simp

theorem HeaderText.firstWord_text (l : HeaderText) : firstWord l.text = firstWord l.name := by
  rw [l.text_eq]
  exact takeWhile_append_cons (by decide) _ _

theorem HeaderText.behindWord_text (l : HeaderText) :
    behindWord l.text = behindWord l.name ++ ':' :: (l.blanks ++ (l.value ++ CRLF)) := by
  rw [l.text_eq]
  exact dropWhile_append_cons (by decide) _ _

theorem HeaderText.dropWhile_blanks (l : HeaderText) :
    (l.blanks ++ (l.value ++ CRLF)).dropWhile (fun c => !myMaskNonSpace c) = l.value ++ CRLF := by
  have hblanks : ∀ c ∈ l.blanks, (!myMaskNonSpace c) = true := by
    intro c hc
    rcases l.blank c hc with rfl | rfl <;> rfl
  rw [List.dropWhile_append_of_pos hblanks]
  refine Cut.dropWhile_eq_self_of_head fun c hc => ?_
  cases hvalue : l.value with
  | nil =>
    rw [hvalue] at hc
    obtain rfl : '\r' = c := Option.some.inj hc
    rfl
  | cons a value =>
    rw [hvalue] at hc
    obtain rfl : a = c := Option.some.inj hc
    have hblank := l.notBlank a (by rw [hvalue]; rfl)
    simp only [myMaskNonSpace, Bool.not_not, Bool.or_eq_false_iff, beq_eq_false_iff_ne]
    exact not_or.mp hblank

theorem HeaderText.noEol_line (l : HeaderText) : ∀ c ∈ l.line, myMaskEol c = false := by
  intro c hc
  rcases List.mem_append.mp hc with hname | hrest
  · exact l.noEol c (List.mem_append_left _ hname)
  · rcases List.mem_cons.mp hrest with rfl | hrest
    · rfl
    · exact l.noEol c (List.mem_append_right _ hrest)

/-- The place of the value among the headers. -/
def HeaderText.place (l : HeaderText) (offset : Nat) : HeaderValueData :=
  bodyPlace l.text (l.blanks ++ (l.value ++ CRLF)) offset

theorem HeaderText.place_eq (l : HeaderText) (offset : Nat) :
    l.place offset = { offset := offset + (l.name.length + 1 + l.blanks.length), len := l.value.length + 2 } := by
  have hcrlf : CRLF.length = 2 := rfl
  rw [place, bodyPlace, l.dropWhile_blanks, l.text_eq]
  simp only [List.length_append, List.length_cons, hcrlf, HeaderValueData.mk.injEq, and_true]
  omega

theorem HeaderText.Fits.ascii_text (h : l.Fits) : Ascii l.text := ascii_append.mpr ⟨h.ascii, ascii_crlf⟩

theorem HeaderText.Fits.readHeader (h : l.Fits) (offset : Nat) :
    RtspMsgParser.readHeader msg l.text offset = .ok
      (if RtspUtil.getHeaderInNumber l.name = .RTSP_UNKNOWN_HDR then msg
        else msg.setHeadersMap (RtspUtil.getHeaderInNumber l.name) (some (l.place offset))) := by
  have hheader : headerOf l.text = RtspUtil.getHeaderInNumber l.name := by rw [headerOf, l.firstWord_text, h.header]
  by_cases hunknown : RtspUtil.getHeaderInNumber l.name = .RTSP_UNKNOWN_HDR
  · rw [readHeader_of_unknown h.ascii_text (hheader.trans hunknown), l.firstWord_text, if_pos (h.short hunknown),
      if_pos hunknown]
  · have hcolon : ':' ∉ behindWord l.name := fun hmem => l.noColon (colon_mem_behindWord.mp hmem)
    rw [readHeader_of_colon h.ascii_text (hheader ▸ hunknown) hcolon l.behindWord_text, if_neg hunknown, hheader]
    rfl

/-! ### The values of the headers -/

/-- The map of a message gives the values that stand in header lines. -/
structure Holds (map : RtspHeadersType → Option HeaderValueData) (hdrs : Data) (headers : List HeaderText) : Prop where
  values : ∀ header, header ≠ .RTSP_UNKNOWN_HDR →
    (map header).map (fun hvd => (hdrs.drop hvd.offset).take hvd.len) = (valueOf headers header).map (· ++ CRLF)
  places : ∀ header hvd, map header = some hvd → hvd.offset + hvd.len ≤ hdrs.length

theorem holds_nil : Holds (fun _ => none) [] [] := ⟨fun _ _ => rfl, fun _ _ h => by cases h⟩

theorem valueOf_append (headers : List HeaderText) (l : HeaderText) (header : RtspHeadersType) :
    valueOf (headers ++ [l]) header =
      if RtspUtil.getHeaderInNumber l.name = header then some l.value else valueOf headers header := by
  rw [valueOf, valueOf, List.reverse_append, List.reverse_singleton, List.singleton_append, List.find?_cons]
  by_cases hheader : RtspUtil.getHeaderInNumber l.name = header
  · simp [hheader]
  · simp [hheader]

theorem slice_append {hvd : HeaderValueData} (h : hvd.offset + hvd.len ≤ hdrs.length) (more : Data) :
    ((hdrs ++ more).drop hvd.offset).take hvd.len = (hdrs.drop hvd.offset).take hvd.len := by
  rw [List.drop_append_of_le_length (by omega), List.take_append_of_le_length (by rw [List.length_drop]; omega)]

theorem Holds.append {map : RtspHeadersType → Option HeaderValueData} (h : Holds map hdrs headers) (more : Data) :
    Holds map (hdrs ++ more) headers := by
  refine ⟨fun header hknown => ?_, fun header hvd hmap => ?_⟩
  · rw [← h.values header hknown]
    cases hmap : map header with
    | none => rfl
    | some hvd => exact congrArg some (slice_append (h.places header hvd hmap) more)
  · have hplace := h.places header hvd hmap
    rw [List.length_append]
    omega

theorem HeaderText.slice_place (l : HeaderText) (hdrs : Data) :
    ((hdrs ++ l.text).drop (l.place hdrs.length).offset).take (l.place hdrs.length).len = l.value ++ CRLF := by
  have hcrlf : CRLF.length = 2 := rfl
  have htext : hdrs ++ l.text = (hdrs ++ l.name ++ ':' :: l.blanks) ++ (l.value ++ CRLF) := by
    rw [l.text_eq]
    simp
  rw [l.place_eq, htext]
  dsimp only
  rw [List.drop_left' (by simp only [List.length_append, List.length_cons]; omega), List.take_of_length_le]
  rw [List.length_append, hcrlf]

theorem Holds.readHeader (h : Holds msg.myHeaderMap hdrs headers) (hfits : l.Fits) :
    ∃ map, RtspMsgParser.readHeader msg l.text hdrs.length = .ok { msg with myHeaderMap := map } ∧
      Holds map (hdrs ++ l.text) (headers ++ [l]) := by
  have happend := h.append l.text
  rw [hfits.readHeader]
  by_cases hunknown : RtspUtil.getHeaderInNumber l.name = .RTSP_UNKNOWN_HDR
  · refine ⟨msg.myHeaderMap, by rw [if_pos hunknown], fun header hknown => ?_, happend.places⟩
    rw [happend.values header hknown, valueOf_append, if_neg fun heq => hknown (heq.symm.trans hunknown)]
  · rw [if_neg hunknown]
    refine ⟨_, rfl, fun header hknown => ?_, fun header hvd hmap => ?_⟩
    · rw [valueOf_append]
      by_cases heq : RtspUtil.getHeaderInNumber l.name = header
      · rw [if_pos heq, if_pos heq.symm]
        exact congrArg some (l.slice_place hdrs)
      · rw [if_neg heq, if_neg fun h => heq h.symm]
        exact happend.values header hknown
    · by_cases heq : RtspUtil.getHeaderInNumber l.name = header
      · rw [if_pos heq.symm] at hmap
        obtain rfl := Option.some.inj hmap
        have hcrlf : CRLF.length = 2 := rfl
        rw [l.place_eq, l.text_eq]
        simp only [List.length_append, List.length_cons, hcrlf]
        omega
      · rw [if_neg fun h => heq h.symm] at hmap
        exact happend.places header hvd hmap

/-! ### The loop over the header lines -/

theorem readHeaders_crlf (hincomp : msg.myIncompHeader = []) (rest : Data) (bytesDecoded offset : Nat) :
    readHeaders msg hdrs offset ⟨CRLF ++ rest, bytesDecoded⟩ = .ok
      ({ msg with myHeaders := msg.myHeaders ++ (hdrs ++ CRLF), myCompletionFlag := .RTSP_MSG_HEADERS_COMPLETE },
        .foundEmptyLine, ⟨rest, bytesDecoded⟩) := by
  have hline : CharDataParser.getNextLine ⟨CRLF ++ rest, bytesDecoded⟩ = .ok (CRLF, true, ⟨rest, bytesDecoded⟩) :=
    CharDataParser.getNextLine_crlf ascii_nil (by simp)
  rw [readHeaders_of_line hline, if_neg (by rw [hincomp]; simp)]
  rfl

theorem readHeaders_lines (hincomp : msg.myIncompHeader = []) (h : Holds msg.myHeaderMap hdrs done)
    (hfits : ∀ l ∈ headers, l.Fits) (rest : Data) (bytesDecoded : Nat) :
    ∃ map, readHeaders msg hdrs hdrs.length ⟨headerLines headers ++ (CRLF ++ rest), bytesDecoded⟩ = .ok
        ({ msg with
          myHeaderMap := map
          myHeaders := msg.myHeaders ++ (hdrs ++ headerLines headers ++ CRLF)
          myCompletionFlag := .RTSP_MSG_HEADERS_COMPLETE }, .foundEmptyLine, ⟨rest, bytesDecoded⟩) ∧
      Holds map (hdrs ++ headerLines headers) (done ++ headers) := by
  induction headers generalizing msg hdrs done with
  | nil =>
    refine ⟨msg.myHeaderMap, ?_, by simpa [headerLines] using h⟩
    simpa [headerLines] using readHeaders_crlf hincomp rest bytesDecoded hdrs.length
  | cons l headers ih =>
    obtain ⟨hl, hheaders⟩ := List.forall_mem_cons.mp hfits
    obtain ⟨map, hheader, hholds⟩ := h.readHeader hl
    have htext : headerLines (l :: headers) ++ (CRLF ++ rest) =
        l.line ++ (CRLF ++ (headerLines headers ++ (CRLF ++ rest))) := by
      simp [headerLines, HeaderText.text]
    have hline : CharDataParser.getNextLine ⟨headerLines (l :: headers) ++ (CRLF ++ rest), bytesDecoded⟩ =
        .ok (l.text, true, ⟨headerLines headers ++ (CRLF ++ rest), bytesDecoded⟩) := by
      rw [htext]
      exact CharDataParser.getNextLine_crlf hl.ascii l.noEol_line
    have hempty : isEmptyLine l.text (headerLines headers ++ (CRLF ++ rest)) = .ok false := by
      have hcolon : ':' ∈ l.text := by simp [HeaderText.text, HeaderText.line]
      have hcrlf : l.text ≠ CRLF := fun heq => absurd (heq ▸ hcolon) (by decide)
      have hcr : l.text ≠ ['\r'] := fun heq => absurd (heq ▸ hcolon) (by decide)
      rw [isEmptyLine, if_neg fun hboth => hcr hboth.1, decide_eq_false hcrlf]
    have hincomp' : RtspMsg.myIncompHeader { msg with myHeaderMap := map } = [] := hincomp
    obtain ⟨map', hrest, hholds'⟩ := ih hincomp' hholds hheaders
    refine ⟨map', ?_, ?_⟩
    · rw [readHeaders_of_line hline, if_neg (by rw [hincomp]; simp), hempty]
      simp only [Except.bind, hheader]
      rw [List.length_append] at hrest
      refine hrest.trans ?_
      simp [headerLines]
    · have hlines : headerLines (l :: headers) = l.text ++ headerLines headers := rfl
      rw [hlines, ← List.append_assoc, List.append_cons]
      exact hholds'

/-! ### Values and the body -/

theorem hdrBody_of_le {hvd : HeaderValueData} (h : hvd.offset + hvd.len ≤ msg.myHeaders.length) :
    msg.hdrBody hvd = .ok ⟨(msg.myHeaders.drop hvd.offset).take hvd.len, 0⟩ := by rw [RtspMsg.hdrBody, if_pos h]

theorem valueOf_mem {header : RtspHeadersType} {v : Data} (h : v ∈ valueOf headers header) :
    ∃ l ∈ headers, l.value = v := by
  obtain ⟨l, hl, rfl⟩ := Option.map_eq_some_iff.mp h
  exact ⟨l, List.mem_reverse.mp (List.mem_of_find?_eq_some hl), rfl⟩

/-- A header without an entry has no value, and the entry of another leads to its value. -/
theorem Holds.entry_cases (h : Holds msg.myHeaderMap msg.myHeaders headers) {header : RtspHeadersType}
    (hknown : header ≠ .RTSP_UNKNOWN_HDR) :
    (msg.myHeaderMap header = none ∧ valueOf headers header = none) ∨
      ∃ hvd v, msg.myHeaderMap header = some hvd ∧ valueOf headers header = some v ∧
        msg.hdrBody hvd = .ok ⟨v ++ CRLF, 0⟩ := by
  have hvalue := h.values header hknown
  cases hmap : msg.myHeaderMap header with
  | none =>
    rw [hmap, Option.map_none, eq_comm, Option.map_eq_none_iff] at hvalue
    exact Or.inl ⟨rfl, hvalue⟩
  | some hvd =>
    rw [hmap, Option.map_some, eq_comm, Option.map_eq_some_iff] at hvalue
    obtain ⟨v, hv, hslice⟩ := hvalue
    exact Or.inr ⟨hvd, v, rfl, hv, by rw [hdrBody_of_le (h.places header hvd hmap), ← hslice]⟩

theorem Holds.getHdrBodyData (h : Holds msg.myHeaderMap msg.myHeaders headers) (hfits : ∀ l ∈ headers, l.Fits)
    {header : RtspHeadersType} (hknown : header ≠ .RTSP_UNKNOWN_HDR) :
    msg.getHdrBodyData header true = .ok ((valueOf headers header).getD []) := by
  rw [RtspMsg.getHdrBodyData]
  rcases h.entry_cases hknown with ⟨hmap, hv⟩ | ⟨hvd, v, hmap, hv, hbody⟩
  · rw [hmap, hv]
    rfl
  · obtain ⟨l, hl, rfl⟩ := valueOf_mem hv
    have hascii : Ascii l.value := fun c hc => (hfits l hl).ascii c (by simp [HeaderText.line, hc])
    have heol : ∀ c ∈ l.value, myMaskEol c = false := fun c hc => l.noEol c (by simp [hc])
    have hscan : scan (entry myMaskEol) (l.value ++ CRLF) = .ok (l.value, CRLF) :=
      scan_entry_eq_ok_iff.mpr ⟨rfl, hascii, heol, by simp [CRLF, myMaskEol]⟩
    have hparse := CharDataParser.parseUntil_of_scan (p := ⟨l.value ++ CRLF, 0⟩) hscan
    rw [if_neg (by simp)] at hparse
    rw [hmap, hv]
    simp only [hbody, bind, Except.bind, if_true, hparse]
    rfl

theorem getNextInteger_digits {v : Data} (hne : v ≠ []) (hv : ∀ c ∈ v, c.isDigit = true) :
    CharDataParser.getNextInteger ⟨v ++ CRLF, 0⟩ = .ok (some (BitVec.ofNat 32 (digits v 0))) := by
  have hscan : scan (fun c => (entry myMaskDigit c).map not) (v ++ CRLF) = .ok (v, CRLF) :=
    scan_digits hv (by rintro d ⟨⟩; exact ⟨by decide, rfl⟩)
  rw [CharDataParser.getNextInteger, hscan]
  simp only [bind, Except.bind, if_neg hne, pure, Except.pure]
  exact congrArg (fun value => Except.ok (some value)) (foldl_digits hv 0)

theorem Holds.getContentLength (h : Holds msg.myHeaderMap msg.myHeaders headers) (hlength : msg.myContentLength = 0)
    (hdigits : ∀ v ∈ valueOf headers .RTSP_CONTENT_LENGTH_HDR, v ≠ [] ∧ ∀ c ∈ v, c.isDigit = true) :
    msg.getContentLength = .ok { msg with
      myContentLength := BitVec.ofNat 32 (((valueOf headers .RTSP_CONTENT_LENGTH_HDR).map (digits · 0)).getD 0) } := by
  rw [RtspMsg.getContentLength, if_pos hlength, RtspMsg.getHdrBodyValue]
  have hknown : RtspHeadersType.RTSP_CONTENT_LENGTH_HDR ≠ .RTSP_UNKNOWN_HDR := by decide
  rcases h.entry_cases hknown with ⟨hmap, hv⟩ | ⟨hvd, v, hmap, hv, hbody⟩
  · rw [hmap, hv]
    rfl
  · obtain ⟨hne, hv'⟩ := hdigits v hv
    rw [hmap, hv]
    simp only [hbody, bind, Except.bind, getNextInteger_digits hne hv']
    rfl

theorem readBody_text {n : Nat} {body : Data} (h : msg.getContentLength = .ok { msg with myContentLength := BitVec.ofNat 32 n })
    (hn : n = body.length) (hlt : body.length < 2 ^ 31) (hbody : msg.myMsgBody = []) :
    readBody msg (body ++ rest) = .ok
      ({ msg with
        myContentLength := BitVec.ofNat 32 n
        myCompletionFlag := .RTSP_MSG_COMPLETE
        myHasBody := decide (body ≠ [])
        myMsgBody := body }, rest) := by
  subst hn
  have hint : (BitVec.ofNat 32 body.length).toInt = body.length := by
    have hnat : (BitVec.ofNat 32 body.length).toNat = body.length := by
      rw [BitVec.toNat_ofNat, Nat.mod_eq_of_lt (by omega)]
    rw [BitVec.toInt_eq_toNat_of_lt (by omega), hnat]
  rw [readBody, h]
  simp only [bind, Except.bind, hint, hbody, List.length_nil, List.nil_append, List.length_append]
  by_cases hempty : body = []
  · subst hempty
    rfl
  · have hpos := List.length_pos_iff.mpr hempty
    rw [if_pos (by omega), if_neg (by omega)]
    simp [hempty, pure, Except.pure]

/-! ### A message in one read -/

theorem readRest_of_headers {msg' : RtspMsg} {p q : CharDataParser}
    (h : readHeaders msg [] (msg.myHeaders.length - msg.myIncompHeader.length) p = .ok (msg', .foundEmptyLine, q)) :
    readRest msg p = readBody msg' q.text := by
  rw [readRest, h]
  rfl

/-- A message of which the start line was read. -/
def startRead (cls : RtspMsgClass) (unknown : Bool) (startLine : Data) : RtspMsg :=
  { cls, myFirstWordUnknown := unknown, myStartLine := startLine, myCompletionFlag := .RTSP_MSG_STRTLINE_COMPLETE }

namespace MsgText

/-- The message in front of its body. -/
def headersRead (m : MsgText) (cls : RtspMsgClass) (unknown : Bool) (map : RtspHeadersType → Option HeaderValueData) :
    RtspMsg :=
  { startRead cls unknown (m.startLine ++ CRLF) with
    myHeaderMap := map
    myHeaders := headerLines m.headers ++ CRLF
    myCompletionFlag := .RTSP_MSG_HEADERS_COMPLETE }

/-- The message with its body. -/
def bodyRead (m : MsgText) (cls : RtspMsgClass) (unknown : Bool) (map : RtspHeadersType → Option HeaderValueData) :
    RtspMsg :=
  { m.headersRead cls unknown map with
    myContentLength := BitVec.ofNat 32 m.body.length
    myCompletionFlag := .RTSP_MSG_COMPLETE
    myHasBody := decide (m.body ≠ [])
    myMsgBody := m.body }

variable {m : MsgText} {cls : RtspMsgClass} {unknown : Bool} {map : RtspHeadersType → Option HeaderValueData}

theorem behind_append (m : MsgText) (rest : Data) :
    m.behind ++ rest = CRLF ++ (headerLines m.headers ++ (CRLF ++ (m.body ++ rest))) := by simp [behind]

theorem readBody_headersRead (hlt : m.body.length < 2 ^ 31) (h : Holds map (headerLines m.headers ++ CRLF) m.headers) :
    readBody (m.headersRead cls unknown map) (m.body ++ rest) = .ok (m.bodyRead cls unknown map, rest) := by
  have hholds : Holds (m.headersRead cls unknown map).myHeaderMap (m.headersRead cls unknown map).myHeaders m.headers := h
  have hlength := hholds.getContentLength rfl m.digitsOnly
  rw [m.length] at hlength
  exact readBody_text hlength rfl hlt rfl

theorem readRest_text (hfits : m.Fits) (hlt : m.body.length < 2 ^ 31) (cls : RtspMsgClass) (unknown : Bool) (rest : Data)
    (bytesDecoded : Nat) :
    ∃ map, Holds map (headerLines m.headers ++ CRLF) m.headers ∧
      readRest (startRead cls unknown (m.startLine ++ CRLF))
        ⟨headerLines m.headers ++ (CRLF ++ (m.body ++ rest)), bytesDecoded⟩ = .ok (m.bodyRead cls unknown map, rest) := by
  have hstart : Holds (startRead cls unknown (m.startLine ++ CRLF)).myHeaderMap [] [] := holds_nil
  obtain ⟨map, hheaders, hholds⟩ := readHeaders_lines rfl hstart hfits.headers (m.body ++ rest) bytesDecoded
  have hkept : Holds map (headerLines m.headers ++ CRLF) m.headers := by
    rw [List.nil_append, List.nil_append] at hholds
    exact hholds.append CRLF
  refine ⟨map, hkept, ?_⟩
  exact (readRest_of_headers hheaders).trans (readBody_headersRead hlt hkept)

theorem framed_bodyRead (hfits : m.Fits) (h : Holds map (headerLines m.headers ++ CRLF) m.headers) :
    Framed m (m.bodyRead (newRtspMsg (firstWord m.startLine)).cls unknown map) where
  cls := rfl
  startLine := rfl
  headers := rfl
  values _ hknown := h.getHdrBodyData hfits.headers hknown
  hasBody := rfl
  body := rfl

end MsgText

end Vocal.Rtsp
