import Vocal.Sip.From
import Vocal.Sip.RawHeader.Lines

/-!
# Decoding a message

`SipMsg::decode` up to the text that it hands to the parser of the content. The whole text is
unfolded and trimmed first, before the headers are told from the body; then the start line is checked, the
headers are read line by line and what they leave is the body. The start line is parsed apart. Its errors are
caught, but for a request whose url is refused with an exception that `scanSipRequestLine` does not announce, which
ends the process. `decode_mime_iff` says for which bodies the content is handed on as it was received.
-/

namespace Vocal.Sip

open Cut

/-- `dataToMethod`. -/
def dataToMethod (data : Data) : Method :=
  if isEqualNoCase data INVITE_METHOD then .SIP_INVITE
  else if isEqualNoCase data "CANCEL".toList then .SIP_CANCEL
  else if isEqualNoCase data "REFER".toList then .SIP_REFER
  else if isEqualNoCase data "ACK".toList then .SIP_ACK
  else if isEqualNoCase data "BYE".toList then .SIP_BYE
  else if isEqualNoCase data "INFO".toList then .SIP_INFO
  else if isEqualNoCase data "OPTIONS".toList then .SIP_OPTIONS
  else if isEqualNoCase data "REGISTER".toList then .SIP_REGISTER
  else if isEqualNoCase data "SUBSCRIBE".toList then .SIP_SUBSCRIBE
  else if isEqualNoCase data "NOTIFY".toList then .SIP_NOTIFY
  else if data = "SIP/2.0".toList then .SIP_STATUS
  else if isEqualNoCase data "MESSAGE".toList then .SIP_MESSAGE
  else .SIP_UNKNOWN

/-- The white space that `SipMsg::decode` skips in front of a message. -/
def isLeading (c : Char) : Bool := c = ' ' || c = '\r' || c = '\n' || c = '\t'

/-- Whether the text after the method is a url and the version of the protocol. -/
def isReallySip (startline : Data) : Bool :=
  match startline.matchChar " \t".toList with
  | none => false
  | some (_, _, version) =>
    match version.matchChar "/".toList with
    | none => false
    | some (protocol, _, _) => isEqualNoCase protocol "sip".toList

/-- The method at the front of a start line, and what follows it. -/
def splitMethod (startline : Data) : Data × Data :=
  match startline.matchChar " \t".toList with
  | none => ([], startline)
  | some (method, _, afterMethod) => (method, afterMethod)

/-- The checks of `SipMsg::decode` on the start line. -/
def startOk (startline : Data) : Bool :=
  dataToMethod (splitMethod startline).1 = .SIP_STATUS || isReallySip (splitMethod startline).2

/-- A message whose headers are read and whose content is not parsed yet. -/
structure RawMsg where
  sipMethod : Method
  startLine : Data
  /-- The text given to `parseMime`. -/
  mime : Data
  headerError : Bool
  headers : SipRawHeaderContainer

/-- `SipMsg::parse` of what follows the start line, up to `parseMime`. -/
def RawMsg.parse (sipMethod : Method) (startLine msg : Data) : RawMsg :=
  let decoded := SipRawHeaderContainer.decode msg
  { sipMethod, startLine, mime := decoded.rest, headerError := decoded.parseError,
    headers := decoded.headers }

/-- `SipMsg::decode`. -/
def RawMsg.decode (data : Data) : Option RawMsg :=
  let data := (Data.removeLWS (data.dropWhile isLeading)).removeSpaces
  match data.getLine with
  | none => none
  | some (startline, msg) =>
    if startOk startline then some (.parse (dataToMethod (splitMethod startline).1) startline msg) else none

/-! ### Unfolding -/

/-- A line of the text is continued on the next one. -/
def Folds (d : Data) : Prop := ∃ x c y, d = x ++ '\r' :: '\n' :: c :: y ∧ Data.isBlank c

namespace Data

/-- The text begins with what continues a line. -/
def startsBlank (d : Data) : Bool := d.head?.any isBlank

theorem removeLWS_cons {a : Char} {d : Data}
    (h : ∀ c y, a = '\r' → d = '\n' :: c :: y → isBlank c = false) :
    removeLWS (a :: d) = a :: removeLWS d := by
  rw [removeLWS.eq_def]
  split
  · rename_i heq
    cases heq
  · rename_i c y heq
    obtain ⟨rfl, rfl⟩ := List.cons.inj heq
    rw [if_neg (by simp [h c y rfl rfl])]
  · rename_i heq
    obtain ⟨rfl, rfl⟩ := List.cons.inj heq
    rfl

theorem removeLWS_fold {c : Char} {y : Data} (hc : isBlank c) :
    removeLWS ('\r' :: '\n' :: c :: y) = ' ' :: ' ' :: removeLWS (c :: y) := by
  rw [removeLWS, if_pos hc]

theorem removeLWS_cases (a : Char) (d : Data) :
    (∃ c y, a = '\r' ∧ d = '\n' :: c :: y ∧ isBlank c ∧
      removeLWS (a :: d) = ' ' :: ' ' :: removeLWS (c :: y)) ∨
      ((∀ c y, a = '\r' → d = '\n' :: c :: y → isBlank c = false) ∧
        removeLWS (a :: d) = a :: removeLWS d) := by
  by_cases h : ∃ c y, a = '\r' ∧ d = '\n' :: c :: y ∧ isBlank c
  · obtain ⟨c, y, rfl, rfl, hc⟩ := h
    exact Or.inl ⟨c, y, rfl, rfl, hc, removeLWS_fold hc⟩
  · have hkeep : ∀ c y, a = '\r' → d = '\n' :: c :: y → isBlank c = false := by
      intro c y ha hd
      rw [Bool.eq_false_iff]
      intro hc
      exact h ⟨c, y, ha, hd, hc⟩
    exact Or.inr ⟨hkeep, removeLWS_cons hkeep⟩

theorem length_removeLWS (d : Data) : (removeLWS d).length = d.length := by
  fun_induction removeLWS d with
  | case1 => rfl
  | case2 c d hc ih => simpa using ih
  | case3 c d hc ih => simpa using ih
  | case4 c d _ ih => simpa using ih

theorem getLast?_removeLWS (d : Data) : (removeLWS d).getLast? = d.getLast? := by
  fun_induction removeLWS d with
  | case1 => rfl
  | case2 c d hc ih => simp [List.getLast?_cons, ih]
  | case3 c d hc ih => simp [List.getLast?_cons, ih]
  | case4 c d _ ih => simp [List.getLast?_cons, ih]

theorem removeLWS_eq_self_iff {d : Data} : removeLWS d = d ↔ ¬Folds d := by
  constructor
  · rintro hself ⟨x, c, y, rfl, hc⟩
    induction x with
    | nil =>
      rw [List.nil_append, removeLWS_fold hc] at hself
      cases (List.cons.inj hself).1
    | cons a x ih =>
      rw [List.cons_append] at hself
      rcases removeLWS_cases a (x ++ '\r' :: '\n' :: c :: y) with ⟨c', y', rfl, _, _, heq⟩ | ⟨-, heq⟩
      · rw [heq] at hself
        cases (List.cons.inj hself).1
      · rw [heq] at hself
        exact ih (List.cons.inj hself).2
  · intro hfolds
    induction d with
    | nil => rfl
    | cons a d ih =>
      rcases removeLWS_cases a d with ⟨c, y, rfl, rfl, hc, -⟩ | ⟨-, heq⟩
      · exact absurd ⟨[], c, y, rfl, hc⟩ hfolds
      · rw [heq, ih]
        rintro ⟨x, c, y, rfl, hc⟩
        exact hfolds ⟨a :: x, c, y, rfl, hc⟩

theorem removeLWS_line {l rest : Data} (hl : '\n' ∉ l)
    (h : l.getLast? = some '\r' → startsBlank rest = false) :
    removeLWS (l ++ '\n' :: rest) = l ++ '\n' :: removeLWS rest := by
  induction l with
  | nil => exact removeLWS_cons fun _ _ h => absurd h (by decide)
  | cons a l ih =>
    rw [List.cons_append, removeLWS_cons, ih]
    · rfl
    · exact fun hmem => hl (List.mem_cons_of_mem _ hmem)
    · intro hlast
      apply h
      rw [List.getLast?_cons, hlast]
      rfl
    · rintro c y rfl heq
      cases l with
      | nil =>
        obtain ⟨-, rfl⟩ := List.cons.inj heq
        simpa [startsBlank] using h rfl
      | cons b l =>
        obtain ⟨rfl, -⟩ := List.cons.inj heq
        simp at hl

theorem removeLWS_folded_line {l rest : Data} (hl : '\n' ∉ l) (h : startsBlank rest) :
    removeLWS (l ++ '\r' :: '\n' :: rest) = l ++ ' ' :: ' ' :: removeLWS rest := by
  induction l with
  | nil =>
    cases rest with
    | nil => cases h
    | cons c y => exact removeLWS_fold (by simpa [startsBlank] using h)
  | cons a l ih =>
    rw [List.cons_append, removeLWS_cons, ih]
    · rfl
    · exact fun hmem => hl (List.mem_cons_of_mem _ hmem)
    · rintro c y rfl heq
      cases l with
      | nil => cases (List.cons.inj heq).1
      | cons b l =>
        obtain ⟨rfl, -⟩ := List.cons.inj heq
        simp at hl

end Data

/-! ### Message texts -/

/-- Whether `BaseUrl::decode` of the url of a request returns, or throws what `scanSipRequestLine` catches: the exception of
a SIP url. -/
def urlReturns (data : Data) : Bool :=
  match data.match ":".toList with
  | .FOUND urlType _ =>
    if isEqualNoCase urlType "sip".toList then
      match data.matchChar "?".toList with
      | some (_, _, escData) => (Url.EmbeddedObj.fastDecode escData).isSome
      | none => true
    else (Url.BaseUrl.decode data).isSome
  | _ => true

/-- A request line or a status line, with or without a carriage return. -/
def IsStartLine (l : Data) : Prop :=
  '\n' ∉ l ∧
    ((∃ method uri protocol version, l = method ++ ' ' :: (uri ++ ' ' :: (protocol ++ '/' :: version)) ∧
      method ≠ [] ∧ (∀ c ∈ method, isLeading c = false) ∧ (∀ c ∈ uri, isIn c " \t".toList = false) ∧
      urlReturns uri ∧ isEqualNoCase protocol "sip".toList) ∨
    ∃ status, l = "SIP/2.0 ".toList ++ status)

/-- A line of a header, or one that continues it. -/
def IsHeaderLine (l : Data) : Prop := '\n' ∉ l ∧ ∃ c ∈ l, isIn c SipRawHeader.nameEnd

/-- A text that consists of a start line, header lines, an empty line and a body. -/
structure MsgText where
  startLine : Data
  headerLines : List Data
  emptyLine : Data
  body : Data
  start : IsStartLine startLine
  header : ∀ l ∈ headerLines, IsHeaderLine l
  empty : emptyLine = "\n".toList ∨ emptyLine = "\r\n".toList

namespace MsgText

/-- Lines with their ends. -/
def block (ls : List Data) : Data := ls.flatMap (· ++ ['\n'])

def text (m : MsgText) : Data :=
  m.startLine ++ '\n' :: (block m.headerLines ++ (m.emptyLine ++ m.body))

end MsgText

open MsgText (block)

theorem block_cons (l : Data) (ls : List Data) (tail : Data) :
    block (l :: ls) ++ tail = l ++ '\n' :: (block ls ++ tail) := by
  simp [block]

/-! ### Unfolding the headers -/

theorem line_eq_chopCR (l rest : Data) :
    ∃ q, '\n' ∉ q ∧ l ++ '\n' :: rest = Data.chopCR l ++ (q ++ '\n' :: rest) := by
  obtain ⟨q, hq, heq⟩ := Data.exists_chopCR l
  refine ⟨q, ?_, ?_⟩
  · rcases hq with rfl | rfl <;> decide
  · rw [← List.append_assoc, ← heq]

/-- The first of the lines stays at the front of a line, which takes in some of those that follow. -/
theorem removeLWS_block {l : Data} {ls : List Data} {tail : Data} (hl : ∀ x ∈ l :: ls, '\n' ∉ x)
    (htail : tail.startsBlank = false) :
    ∃ q ls', ls' <:+ ls ∧ '\n' ∉ q ∧
      Data.removeLWS (block (l :: ls) ++ tail) =
        Data.chopCR l ++ (q ++ '\n' :: Data.removeLWS (block ls' ++ tail)) := by
  induction ls generalizing l with
  | nil =>
    obtain ⟨q, hq, heq⟩ := line_eq_chopCR l (Data.removeLWS tail)
    refine ⟨q, [], List.suffix_rfl, hq, ?_⟩
    have hblank : (block [] ++ tail).startsBlank = false := htail
    rw [block_cons, Data.removeLWS_line (hl l (List.mem_cons_self ..)) fun _ => hblank]
    exact heq
  | cons u us ih =>
    have hnl := hl l (List.mem_cons_self ..)
    rw [block_cons]
    by_cases hfold : l.getLast? = some '\r' ∧ Data.startsBlank (block (u :: us) ++ tail)
    · obtain ⟨hcr, hblank⟩ := hfold
      obtain ⟨q, ls', hsuffix, hq, heq⟩ := ih fun x hx => hl x (List.mem_cons_of_mem _ hx)
      obtain ⟨l', rfl⟩ := List.getLast?_eq_some_iff.mp hcr
      have hl' : '\n' ∉ l' := fun h => hnl (List.mem_append_left _ h)
      have hu := hl u (List.mem_cons_of_mem _ (List.mem_cons_self ..))
      refine ⟨' ' :: ' ' :: (Data.chopCR u ++ q), ls', hsuffix.trans (List.suffix_cons _ _), ?_, ?_⟩
      · have hchop : '\n' ∉ Data.chopCR u := fun h => hu (Data.mem_of_mem_chopCR h)
        simp [hchop, hq]
      · rw [List.append_assoc, List.singleton_append, Data.removeLWS_folded_line hl' hblank, heq,
          Data.chopCR_append_cr]
        simp
    · have hkeep : l.getLast? = some '\r' → Data.startsBlank (block (u :: us) ++ tail) = false := by
        intro hcr
        rw [Bool.eq_false_iff]
        exact fun hblank => hfold ⟨hcr, hblank⟩
      obtain ⟨q, hq, heq⟩ := line_eq_chopCR l (Data.removeLWS (block (u :: us) ++ tail))
      refine ⟨q, u :: us, List.suffix_rfl, hq, ?_⟩
      rw [Data.removeLWS_line hnl hkeep]
      exact heq

/-! ### Reading the headers -/

theorem SipRawHeader.decode_ne_none {line : Data} (h : ∃ c ∈ line, isIn c nameEnd) : decode line ≠ none := by
  intro hnone
  have hcut : cut (isIn · nameEnd) line = none := by
    rw [decode, Data.parse, Data.matchChar] at hnone
    exact Option.map_eq_none_iff.mp (Option.map_eq_none_iff.mp hnone)
  obtain ⟨c, hc, hin⟩ := h
  rw [cut_eq_none_iff.mp hcut c hc] at hin
  cases hin

theorem decodeLoop_rest_line (fuel : Nat) (c : SipRawHeaderContainer) (rest : Data) {x : Data} (hx : '\n' ∉ x) :
    (SipRawHeaderContainer.decodeLoop (fuel + 1) c (x ++ '\n' :: rest)).rest = rest ∨
      ∃ c', (SipRawHeaderContainer.decodeLoop (fuel + 1) c (x ++ '\n' :: rest)).rest =
        (SipRawHeaderContainer.decodeLoop fuel c' rest).rest := by
  rw [SipRawHeaderContainer.decodeLoop, Data.getLine_append hx]
  by_cases hempty : Data.chopCR x = []
  · simp [hempty]
  · cases hdec : SipRawHeader.decode (Data.chopCR x) with
    | none => simp [hempty, hdec]
    | some hs =>
      simp only [hempty, if_false, hdec]
      exact Or.inr ⟨_, rfl⟩

theorem decodeLoop_rest_suffix (fuel : Nat) (c : SipRawHeaderContainer) (d : Data) :
    (SipRawHeaderContainer.decodeLoop fuel c d).rest <:+ d := by
  induction fuel generalizing c d with
  | zero => exact List.suffix_rfl
  | succ fuel ih =>
    rcases Data.line_cases d with ⟨x, rest, hx, rfl⟩ | hd
    · have hrest : rest <:+ x ++ '\n' :: rest := ⟨x ++ ['\n'], by simp⟩
      rcases decodeLoop_rest_line fuel c rest hx with heq | ⟨c', heq⟩
      · rw [heq]
        exact hrest
      · rw [heq]
        exact (ih c' rest).trans hrest
    · have hstop : (SipRawHeaderContainer.decodeLoop (fuel + 1) c d).rest = d := by
        rw [SipRawHeaderContainer.decodeLoop, Data.getLine_eq_none hd]
      exact ⟨[], hstop⟩

/-- The header lines are read, whatever their folding, and leave what follows them. -/
theorem decodeLoop_block {ls : List Data} {tail : Data} (hls : ∀ l ∈ ls, IsHeaderLine l)
    (htail : tail.startsBlank = false) {fuel : Nat} {c : SipRawHeaderContainer}
    (hfuel : (Data.removeLWS (block ls ++ tail)).length < fuel) :
    ∃ fuel' c', tail.length < fuel' ∧
      SipRawHeaderContainer.decodeLoop fuel c (Data.removeLWS (block ls ++ tail)) =
        SipRawHeaderContainer.decodeLoop fuel' c' (Data.removeLWS tail) := by
  induction hn : ls.length using Nat.strong_induction_on generalizing ls fuel c with
  | _ n ih =>
    cases ls with
    | nil =>
      rw [Data.length_removeLWS] at hfuel
      exact ⟨fuel, c, hfuel, rfl⟩
    | cons l ls =>
      obtain ⟨hnl, b, hb, hin⟩ := hls l (List.mem_cons_self ..)
      obtain ⟨q, ls', hsuffix, hq, heq⟩ :=
        removeLWS_block (fun x (hx : x ∈ l :: ls) => (hls x hx).1) htail
      have hbcr : b ≠ '\r' := by
        rintro rfl
        cases hin
      have hx : '\n' ∉ Data.chopCR l ++ q := by
        rw [List.mem_append, not_or]
        exact ⟨fun h => hnl (Data.mem_of_mem_chopCR h), hq⟩
      have hbx : b ∈ Data.chopCR (Data.chopCR l ++ q) :=
        Data.mem_chopCR (List.mem_append_left _ (Data.mem_chopCR hb hbcr)) hbcr
      have hne : Data.chopCR (Data.chopCR l ++ q) ≠ [] := List.ne_nil_of_mem hbx
      obtain ⟨hs, hdec⟩ := Option.ne_none_iff_exists'.mp (SipRawHeader.decode_ne_none ⟨b, hbx, hin⟩)
      rw [heq] at hfuel
      cases fuel with
      | zero => omega
      | succ fuel =>
        simp only [List.length_append, List.length_cons] at hfuel
        obtain ⟨fuel', c', hfuel', hloop⟩ := ih ls'.length
          (by
            have := hsuffix.length_le
            rw [← hn, List.length_cons]
            omega)
          (fun x hx => hls x (List.mem_cons_of_mem _ (hsuffix.subset hx)))
          (c := c.insertManyHeader hs)
          (by omega : (Data.removeLWS (block ls' ++ tail)).length < fuel) rfl
        refine ⟨fuel', c', hfuel', ?_⟩
        rw [heq, ← List.append_assoc, SipRawHeaderContainer.decodeLoop, Data.getLine_append hx]
        simp only [hne, if_false, hdec]
        exact hloop

/-! ### Reading the start line -/

theorem startOk_request {method uri protocol : Data} (hmethod : ∀ c ∈ method, isLeading c = false)
    (huri : ∀ c ∈ uri, isIn c " \t".toList = false) (hprotocol : isEqualNoCase protocol "sip".toList)
    (version : Data) :
    startOk (method ++ ' ' :: (uri ++ ' ' :: (protocol ++ '/' :: version))) = true := by
  have hblank : ∀ c ∈ method, isIn c " \t".toList = false := by
    intro c hc
    have := hmethod c hc
    simp_all [isLeading, isIn]
  have hslash : ∀ c ∈ protocol, isIn c "/".toList = false := by
    intro c hc
    have hlower : c.toLower ∈ protocol.map Char.toLower := List.mem_map_of_mem hc
    rw [isEqualNoCase, decide_eq_true_eq] at hprotocol
    rw [hprotocol] at hlower
    rw [Bool.eq_false_iff]
    intro hin
    obtain rfl : c = '/' := by simpa [isIn] using hin
    revert hlower
    decide
  rw [startOk, splitMethod, Data.matchChar, cut_append hblank (by decide)]
  simp only
  rw [isReallySip, Data.matchChar, cut_append huri (by decide)]
  simp only
  rw [Data.matchChar, cut_append hslash (by decide)]
  simp only
  rw [hprotocol, Bool.or_true]

theorem startOk_status (status : Data) : startOk ("SIP/2.0 ".toList ++ status) = true := by
  have hcut : cut (isIn · " \t".toList) ("SIP/2.0 ".toList ++ status) = some ("SIP/2.0".toList, ' ', status) :=
    cut_append (x := "SIP/2.0".toList) (forall_isIn_eq_false (by decide)) (by decide)
  rw [startOk, splitMethod, Data.matchChar, hcut]
  simp only
  rw [show dataToMethod "SIP/2.0".toList = .SIP_STATUS by decide]
  rfl

theorem IsStartLine.startOk_append {l : Data} (h : IsStartLine l) (q : Data) :
    startOk (Data.chopCR (Data.chopCR l ++ q)) = true := by
  obtain ⟨-, ⟨method, uri, protocol, version, rfl, -, hmethod, huri, -, hprotocol⟩ | ⟨status, rfl⟩⟩ := h
  · have hsplit : ∀ v, method ++ ' ' :: (uri ++ ' ' :: (protocol ++ '/' :: v)) =
        (method ++ ' ' :: (uri ++ ' ' :: (protocol ++ ['/']))) ++ v := by
      intro v
      simp
    have hlast : (method ++ ' ' :: (uri ++ ' ' :: (protocol ++ ['/']))).getLast? = some '/' := by
      simp [List.getLast?_append, List.getLast?_cons]
    rw [hsplit, Data.chopCR_append hlast (by decide), List.append_assoc, Data.chopCR_append hlast (by decide),
      ← hsplit]
    exact startOk_request hmethod huri hprotocol _
  · have hlast : ("SIP/2.0 ".toList).getLast? = some ' ' := by decide
    rw [Data.chopCR_append hlast (by decide), List.append_assoc, Data.chopCR_append hlast (by decide)]
    exact startOk_status _

theorem IsStartLine.exists_cons {l : Data} (h : IsStartLine l) : ∃ a l', l = a :: l' ∧ isLeading a = false := by
  obtain ⟨-, ⟨method, uri, protocol, version, rfl, hne, hmethod, -⟩ | ⟨status, rfl⟩⟩ := h
  · obtain ⟨c, method, rfl⟩ := List.exists_cons_of_ne_nil hne
    exact ⟨c, _, rfl, hmethod c (List.mem_cons_self ..)⟩
  · exact ⟨'S', _, rfl, by decide⟩

namespace RawMsg

theorem decode_eq {data d startline msg : Data}
    (hd : (Data.removeLWS (data.dropWhile isLeading)).removeSpaces = d)
    (hline : d.getLine = some (startline, msg)) :
    decode data =
      if startOk startline then some (parse (dataToMethod (splitMethod startline).1) startline msg) else none := by
  rw [decode, hd]
  simp only [hline]

theorem getLast?_mime {data : Data} {raw : RawMsg} (h : decode data = some raw) :
    raw.mime.getLast? ≠ some ' ' := by
  generalize hd : (Data.removeLWS (data.dropWhile isLeading)).removeSpaces = d
  cases hline : d.getLine with
  | none =>
    rw [decode, hd] at h
    simp [hline] at h
  | some p =>
    obtain ⟨startline, msg⟩ := p
    have hmime : raw.mime = (SipRawHeaderContainer.decode msg).rest := by
      rw [decode_eq hd hline] at h
      split at h
      · rw [Option.some.injEq] at h
        rw [← h]
        rfl
      · cases h
    have hsuffix : raw.mime <:+ d := by
      rw [hmime]
      refine (decodeLoop_rest_suffix _ _ _).trans ?_
      obtain ⟨⟨x, c, y⟩, hcut, heq⟩ := Option.map_eq_some_iff.mp hline
      obtain ⟨rfl, -, -⟩ := cut_eq_some_iff.mp hcut
      simp only [Prod.mk.injEq] at heq
      rw [← heq.2]
      exact ⟨x ++ [c], by simp⟩
    obtain ⟨front, hfront⟩ := hsuffix
    intro hlast
    have hspace : d.getLast? = some ' ' := by
      rw [← hfront, List.getLast?_append, hlast]
      rfl
    rw [← hd] at hspace
    exact absurd (getLast?_rdropWhile _ _ hspace) (by decide)

end RawMsg

/-! ### Telling the headers from the body -/

/-- A blank at the front of the body makes the empty line a part of a header. -/
theorem decodeLoop_rest_ne {fuel : Nat} {c : SipRawHeaderContainer} {body : Data}
    (hfuel : body.length + 2 < fuel) :
    (SipRawHeaderContainer.decodeLoop fuel c (' ' :: ' ' :: Data.removeLWS body)).rest ≠ body := by
  intro h
  have hlen := Data.length_removeLWS body
  cases fuel with
  | zero => omega
  | succ fuel =>
    rcases Data.line_cases (' ' :: ' ' :: Data.removeLWS body) with ⟨x, rest, hx, heq⟩ | hd
    · have hlonger : 2 ≤ x.length := by
        rcases x with _ | ⟨a, _ | ⟨b, x⟩⟩
        · simp at heq
        · simp at heq
        · simp
      have hsuffix : (SipRawHeaderContainer.decodeLoop (fuel + 1) c (x ++ '\n' :: rest)).rest <:+ rest := by
        rcases decodeLoop_rest_line fuel c rest hx with hstop | ⟨c', hgo⟩
        · exact ⟨[], hstop⟩
        · rw [hgo]
          exact decodeLoop_rest_suffix _ _ _
      rw [← heq, h] at hsuffix
      have hle := hsuffix.length_le
      have htotal := congrArg List.length heq
      simp only [List.length_cons, List.length_append] at htotal
      omega
    · rw [SipRawHeaderContainer.decodeLoop, Data.getLine_eq_none hd] at h
      have htotal := congrArg List.length h
      simp only [List.length_cons] at htotal
      omega

theorem decodeLoop_rest_emptyLine {fuel : Nat} {c : SipRawHeaderContainer} {emptyLine body : Data}
    (hempty : emptyLine = "\n".toList ∨ emptyLine = "\r\n".toList) :
    (SipRawHeaderContainer.decodeLoop (fuel + 1) c (emptyLine ++ body)).rest = body := by
  have hline : (emptyLine ++ body).getLine = some ([], body) := by
    rcases hempty with rfl | rfl
    · exact Data.getLine_append (x := []) (by simp)
    · exact Data.getLine_append (x := ['\r']) (by decide)
  rw [SipRawHeaderContainer.decodeLoop, hline]
  simp

theorem decodeLoop_rest_iff {fuel : Nat} {c : SipRawHeaderContainer} {emptyLine body : Data}
    (hempty : emptyLine = "\n".toList ∨ emptyLine = "\r\n".toList)
    (hfuel : (emptyLine ++ body).length < fuel) :
    (SipRawHeaderContainer.decodeLoop fuel c (Data.removeLWS (emptyLine ++ body))).rest = body ↔
      ¬Folds (emptyLine ++ body) := by
  by_cases hborder : emptyLine = "\r\n".toList ∧ body.startsBlank
  · obtain ⟨rfl, hblank⟩ := hborder
    have hfold : Data.removeLWS ("\r\n".toList ++ body) = ' ' :: ' ' :: Data.removeLWS body :=
      Data.removeLWS_folded_line (l := []) (by simp) hblank
    rw [← Data.removeLWS_eq_self_iff, hfold]
    have hlen : body.length + 2 < fuel := by simpa using hfuel
    have hspace : ' ' :: ' ' :: Data.removeLWS body ≠ "\r\n".toList ++ body := by
      intro h
      cases (List.cons.inj h).1
    simp only [decodeLoop_rest_ne hlen, hspace]
  · have hkeep : Data.removeLWS (emptyLine ++ body) = emptyLine ++ Data.removeLWS body := by
      rcases hempty with rfl | rfl
      · exact Data.removeLWS_line (l := []) (by simp) (by simp)
      · apply Data.removeLWS_line (l := ['\r']) (by decide)
        intro _
        rw [Bool.eq_false_iff]
        exact fun hblank => hborder ⟨rfl, hblank⟩
    cases fuel with
    | zero => omega
    | succ fuel =>
      rw [← Data.removeLWS_eq_self_iff, hkeep, decodeLoop_rest_emptyLine hempty, List.append_cancel_left_eq]

namespace MsgText

variable (m : MsgText)

theorem emptyLine_startsBlank : (m.emptyLine ++ m.body).startsBlank = false := by
  rcases m.empty with h | h
  · rw [h]
    rfl
  · rw [h]
    rfl

theorem getLast?_text (h : m.body.getLast? ≠ some ' ') : m.text.getLast? ≠ some ' ' := by
  rw [text, List.getLast?_append, List.getLast?_cons, List.getLast?_append, List.getLast?_append]
  rcases m.empty with hempty | hempty
  · rw [hempty]
    cases hbody : m.body.getLast? with
    | none => simp
    | some c => simpa [hbody] using h
  · rw [hempty]
    cases hbody : m.body.getLast? with
    | none => simp
    | some c => simpa [hbody] using h

theorem decode_text (h : m.body.getLast? ≠ some ' ') :
    ∃ raw fuel c, RawMsg.decode m.text = some raw ∧ (m.emptyLine ++ m.body).length < fuel ∧
      raw.mime =
        (SipRawHeaderContainer.decodeLoop fuel c (Data.removeLWS (m.emptyLine ++ m.body))).rest := by
  have hlines : ∀ x ∈ m.startLine :: m.headerLines, '\n' ∉ x := by
    intro x hx
    rcases List.mem_cons.mp hx with rfl | hx
    · exact m.start.1
    · exact (m.header x hx).1
  obtain ⟨q, ls', hsuffix, hq, heq⟩ := removeLWS_block hlines m.emptyLine_startsBlank
  rw [block_cons] at heq
  -- neither end of the unfolded text is a space
  have htrim : (Data.removeLWS (m.text.dropWhile isLeading)).removeSpaces = Data.removeLWS m.text := by
    obtain ⟨a, l', hstart, ha⟩ := m.start.exists_cons
    have htext : ∃ d, m.text = a :: d := ⟨_, by rw [text, hstart, List.cons_append]⟩
    obtain ⟨d, hd⟩ := htext
    have hhead : Data.removeLWS m.text = a :: Data.removeLWS d := by
      rw [hd]
      apply Data.removeLWS_cons
      rintro c y rfl
      cases ha
    rw [hd, dropWhile_eq_self_of_head (by simpa using ha), ← hd, Data.removeSpaces]
    apply trim_eq_self
    refine ⟨?_, ?_⟩
    · rw [hhead]
      intro c hc
      obtain rfl : a = c := by simpa using hc
      rw [decide_eq_false_iff_not]
      rintro rfl
      cases ha
    · rw [Data.getLast?_removeLWS]
      intro c hc
      have := m.getLast?_text h
      rw [Option.mem_def.mp hc] at this
      simpa using this
  have hx : '\n' ∉ Data.chopCR m.startLine ++ q := by
    rw [List.mem_append, not_or]
    exact ⟨fun hmem => m.start.1 (Data.mem_of_mem_chopCR hmem), hq⟩
  have hline : (Data.removeLWS m.text).getLine =
      some (Data.chopCR (Data.chopCR m.startLine ++ q),
        Data.removeLWS (block ls' ++ (m.emptyLine ++ m.body))) := by
    rw [text, heq, ← List.append_assoc]
    exact Data.getLine_append hx
  obtain ⟨fuel, c, hfuel, hloop⟩ := decodeLoop_block
    (fun l hl => m.header l (hsuffix.subset hl)) m.emptyLine_startsBlank (c := .empty) (Nat.lt_succ_self _)
  rw [RawMsg.decode_eq htrim hline, if_pos (m.start.startOk_append q)]
  refine ⟨_, fuel, c, rfl, hfuel, ?_⟩
  rw [← hloop]
  rfl

/-- The text of a body is handed on as it is exactly when neither the empty line nor a line of the
body is continued by a blank and the body does not end in a space. -/
theorem decode_mime_iff :
    (RawMsg.decode m.text).map (·.mime) = some m.body ↔
      ¬Folds (m.emptyLine ++ m.body) ∧ m.body.getLast? ≠ some ' ' := by
  by_cases hspace : m.body.getLast? = some ' '
  · have hne : (RawMsg.decode m.text).map (·.mime) ≠ some m.body := by
      intro h
      obtain ⟨raw, hraw, hmime⟩ := Option.map_eq_some_iff.mp h
      apply RawMsg.getLast?_mime hraw
      rw [hmime, hspace]
    simp [hne, hspace]
  · obtain ⟨raw, fuel, c, hraw, hfuel, hmime⟩ := m.decode_text hspace
    rw [hraw, Option.map_some, Option.some.injEq, hmime, decodeLoop_rest_iff m.empty hfuel]
    simp [hspace]

/-- A request whose body begins with a space. -/
def indented : MsgText where
  startLine := "OPTIONS sip:a SIP/2.0\r".toList
  headerLines := ["To: a\r".toList]
  emptyLine := "\r\n".toList
  body := " b".toList
  start := by
    refine ⟨by decide, Or.inl ⟨"OPTIONS".toList, "sip:a".toList, "SIP".toList, "2.0\r".toList, rfl, by decide,
      ?_, forall_isIn_eq_false (by decide), by decide, by decide⟩⟩
    exact fun c hc => by simpa using List.all_eq_true.mp (by decide : "OPTIONS".toList.all (!isLeading ·)) c hc
  header := by
    intro l hl
    rw [List.mem_singleton.mp hl]
    exact ⟨by decide, ':', by decide, by decide⟩
  empty := Or.inr rfl

/-- The empty line before it is taken for a fold: the content parser is given three spaces and `b`. -/
theorem decode_mime_indented :
    (RawMsg.decode indented.text).map (·.mime) = some "   b".toList ∧
      (RawMsg.decode indented.text).map (·.mime) ≠ some indented.body := by
  decide +kernel

end MsgText

end Vocal.Sip
