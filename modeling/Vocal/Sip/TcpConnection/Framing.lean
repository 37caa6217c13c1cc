import Mathlib.Data.List.TakeWhile
import Vocal.Sip.TcpConnection.Progress

/-!
# Framing of well-formed messages

The text of a message is its start line and header lines, a blank line and the body, with a length
header in any spelling that SIP allows. `messages_framed` cuts a stream of such messages right,
however it arrives, if the search of `isFullMsg` lands in the header of the message that is next,
and what the code reads as the length from there is the length of the body.

Other messages are cut wrong: a short length header is passed over when the usual spelling occurs
later in the stream (`compact_length_merges`).
-/

namespace Vocal.Sip

open Framing (Verdict Frames)

/-- A length header as SIP allows it: either name in any case, blanks on both sides of the colon and
at the end. -/
def LengthHeader (text : Data) (n : Nat) : Prop :=
  ∃ name blanks blanks' digits blanks'' : Data,
    text = name ++ blanks ++ ':' :: blanks' ++ digits ++ blanks'' ∧
    (str2lower name = "content-length".toList ∨ str2lower name = "l".toList) ∧
    (∀ c ∈ blanks ++ blanks' ++ blanks'', c = ' ' ∨ c = '\t') ∧
    digits ≠ [] ∧ (∀ c ∈ digits, isdigit c = true) ∧ digitsValue digits = n

/-- A line that continues the header before it. -/
def Continues (line : Data) : Prop := line.head? = some ' ' ∨ line.head? = some '\t'

/-- Lines that a header can hold, without their ends. -/
def HeaderText (lines : List Data) : Prop := ∀ line ∈ lines, line ≠ [] ∧ '\r' ∉ line ∧ '\n' ∉ line

/-- Lines as they are sent. -/
def encodeLines (lines : List Data) : Data := (lines.map (· ++ CRLF)).flatten

/-- A well-formed message, as text. -/
structure SipText where
  startLine : Data
  headers : List Data
  body : Data
  hlines : HeaderText (startLine :: headers)
  hlength : ∃ pre line folds post, headers = pre ++ line :: (folds ++ post) ∧
    (∀ fold ∈ folds, Continues fold) ∧ (∀ next ∈ post.head?, ¬ Continues next) ∧
    LengthHeader (line ++ folds.flatten) body.length

def SipText.lines (m : SipText) : List Data := m.startLine :: m.headers

def SipText.encode (m : SipText) : Data := encodeLines m.lines ++ CRLF ++ m.body

/-- The lines as `get_next_line` gives them. -/
def received (lines : List Data) : List Data := lines.map (· ++ ['\r'])

/-- Position `p` of the lines is in one of them, where `q` is left of it and `post` follows. -/
def InLine (lines : List Data) (p : Nat) (q : Data) (post : List Data) : Prop :=
  q ≠ [] ∧ ∃ pre a, lines = pre ++ (a ++ q) :: post ∧ p = (encodeLines pre).length + a.length

/-- The condition on a message and what follows it: it has no NUL and fits into the buffer, the
search lands in one of its header lines, and the length read from there is that of its body. -/
structure ReadableAt (m : SipText) (rest : Data) : Prop where
  noNul : '\x00' ∉ m.encode
  fits : m.encode.length < MX_SIP_MSG_LEN
  lands : ∃ q post,
    InLine m.lines (searchPos ((m.encode ++ rest).take (MX_SIP_MSG_LEN - 1))) q post ∧
      contentLength (received (q :: post)) = m.body.length

/-- The condition on a list of messages. -/
def Readable : List SipText → Prop
  | [] => True
  | m :: ms => ReadableAt m (ms.map SipText.encode).flatten ∧ Readable ms

/-! ### The search -/

theorem find_take (pat : Data) (hpat : pat ≠ []) (str : Data) (n : Nat) :
    find pat (str.take n) = (find pat str).filter fun i => i + pat.length ≤ n := by
  have hpos := List.length_pos_iff.mpr hpat
  induction str generalizing n with
  | nil => simp [find, hpat]
  | cons c cs ih =>
    cases n with
    | zero =>
      rw [List.take_zero, find, if_neg hpat]
      symm
      rw [Option.filter_eq_none_iff]
      intro i _
      simp only [decide_eq_true_eq]
      omega
    | succ n =>
      rw [List.take_succ_cons, find, find]
      by_cases hstarts : pat <+: c :: cs
      · have hpart : pat <+: c :: cs.take n ↔ pat.length ≤ n + 1 := by
          rw [← List.take_succ_cons, List.prefix_take_iff]
          exact ⟨fun h => h.2, fun h => ⟨hstarts, h⟩⟩
        rw [if_pos (List.isPrefixOf_iff_prefix.mpr hstarts)]
        by_cases hlen : pat.length ≤ n + 1
        · rw [if_pos (List.isPrefixOf_iff_prefix.mpr (hpart.mpr hlen))]
          simp [Option.filter, hlen]
        · rw [if_neg (fun h => hlen (hpart.mp (List.isPrefixOf_iff_prefix.mp h))), ih]
          -- a later occurrence is not in the part either
          rw [Option.filter_some, if_neg (by simpa using hlen), Option.map_eq_none_iff,
            Option.filter_eq_none_iff]
          intro i _
          simp only [decide_eq_true_eq]
          omega
      · have hpart : ¬ pat <+: c :: cs.take n := by
          rw [← List.take_succ_cons]
          exact fun h => hstarts (h.trans (List.take_prefix _ _))
        rw [if_neg (fun h => hpart (List.isPrefixOf_iff_prefix.mp h)),
          if_neg (fun h => hstarts (List.isPrefixOf_iff_prefix.mp h)), ih]
        cases find pat cs with
        | none => rfl
        | some i =>
          simp only [Option.filter_some, Option.map_some, decide_eq_true_eq]
          by_cases hle : i + pat.length ≤ n
          · rw [if_pos hle, if_pos (by omega)]; rfl
          · rw [if_neg hle, if_neg (by omega)]; rfl

/-- The search in a cut text finds the same place, or the place found in the whole is cut off and the
search stays at the front or finds a short name. -/
theorem searchPos_take (str : Data) (n : Nat) :
    searchPos (str.take n) = searchPos str ∨
      ∃ pat, (pat = CONTENT_LENGTH ∨ pat = CONTENT_LENGTH_SHORT) ∧
        pat <+: str.drop (searchPos str) ∧ n < searchPos str + pat.length ∧
        (searchPos (str.take n) = 0 ∨
          CONTENT_LENGTH_SHORT <+: (str.take n).drop (searchPos (str.take n))) := by
  have hlong := find_take CONTENT_LENGTH (by decide) str n
  have hshort := find_take CONTENT_LENGTH_SHORT (by decide) str n
  unfold searchPos
  rw [hlong]
  cases hwhole : find CONTENT_LENGTH str with
  | some pos =>
    by_cases hle : pos + CONTENT_LENGTH.length ≤ n
    · left
      simp [Option.filter, hle]
    · right
      refine ⟨CONTENT_LENGTH, Or.inl rfl, starts_of_find hwhole, by simpa using hle, ?_⟩
      simp only [Option.filter_some, hle, decide_false, Bool.false_eq_true, if_false]
      cases hpart : find CONTENT_LENGTH_SHORT (str.take n) with
      | none => exact Or.inl rfl
      | some pos' => exact Or.inr (starts_of_find hpart)
  | none =>
    simp only [Option.filter_none]
    cases hwhole' : find CONTENT_LENGTH_SHORT str with
    | none =>
      left
      rw [hshort, hwhole', Option.filter_none]
    | some pos =>
      by_cases hle : pos + CONTENT_LENGTH_SHORT.length ≤ n
      · left
        rw [hshort, hwhole']
        simp [Option.filter, hle]
      · right
        refine ⟨CONTENT_LENGTH_SHORT, Or.inr rfl, starts_of_find hwhole', by simpa using hle, Or.inl ?_⟩
        rw [hshort, hwhole', Option.filter_some, if_neg (by simpa using hle)]
        rfl

/-! ### The lines of a header -/

theorem encodeLines_cons (line : Data) (lines : List Data) :
    encodeLines (line :: lines) = line ++ CRLF ++ encodeLines lines := rfl

theorem encodeLines_append (lines lines' : List Data) :
    encodeLines (lines ++ lines') = encodeLines lines ++ encodeLines lines' := by
  simp [encodeLines]

theorem completeLines_encodeLines {lines : List Data} (h : HeaderText lines) (text : Data) :
    completeLines (encodeLines lines ++ text) = received lines ++ completeLines text := by
  induction lines with
  | nil => rfl
  | cons line lines ih =>
    obtain ⟨⟨_, _, hnewline⟩, hrest⟩ := List.forall_mem_cons.mp h
    have hline : '\n' ∉ line ++ ['\r'] := by simpa using hnewline
    rw [encodeLines_cons, show line ++ CRLF ++ encodeLines lines ++ text =
      line ++ ['\r'] ++ '\n' :: (encodeLines lines ++ text) by simp [CRLF],
      completeLines_line hline, ih hrest]
    rfl

theorem completeLines_take (text : Data) (n : Nat) :
    completeLines (text.take n) <+: completeLines text := by
  induction text generalizing n with
  | nil => simp
  | cons c cs ih =>
    cases n with
    | zero => exact List.nil_prefix
    | succ n =>
      rw [List.take_succ_cons, completeLines, completeLines]
      split
      · exact List.cons_prefix_cons.mpr ⟨rfl, ih n⟩
      · have hstarts := ih n
        cases hpart : completeLines (cs.take n) with
        | nil => exact List.nil_prefix
        | cons line lines =>
          rw [hpart] at hstarts
          obtain ⟨lines', hwhole⟩ := hstarts
          rw [← hwhole]
          exact ⟨lines', rfl⟩

theorem inLine_of_getElem? {lines : List Data} {p : Nat} {c : Char}
    (hget : (encodeLines lines ++ CRLF)[p]? = some c) (hc : c ≠ '\r' ∧ c ≠ '\n') :
    ∃ q post, InLine lines p q post := by
  induction lines generalizing p with
  | nil =>
    have hmem : c ∈ CRLF := List.mem_of_getElem? hget
    simp [CRLF, hc] at hmem
  | cons line lines ih =>
    rw [encodeLines_cons, List.append_assoc, List.append_assoc] at hget
    by_cases hline : p < line.length
    · refine ⟨line.drop p, lines, by simpa using hline, [], line.take p, by simp, ?_⟩
      simp [encodeLines]
      omega
    · rw [List.getElem?_append_right (by omega)] at hget
      by_cases hend : p - line.length < CRLF.length
      · rw [List.getElem?_append_left hend] at hget
        have hmem : c ∈ CRLF := List.mem_of_getElem? hget
        simp [CRLF, hc] at hmem
      · rw [List.getElem?_append_right (by omega)] at hget
        obtain ⟨q, post, hq, pre, a, hlines, hp⟩ := ih hget
        refine ⟨q, post, hq, line :: pre, a, by rw [hlines]; rfl, ?_⟩
        rw [encodeLines_cons, List.length_append, List.length_append]
        omega

theorem InLine.headerText {lines : List Data} {p : Nat} {q : Data} {post : List Data}
    (h : InLine lines p q post) (hlines : HeaderText lines) : HeaderText (q :: post) := by
  obtain ⟨hq, pre, a, rfl, _⟩ := h
  intro line hline
  rcases List.mem_cons.mp hline with rfl | hpost
  · obtain ⟨_, hreturn, hnewline⟩ := hlines (a ++ line) (by simp)
    exact ⟨hq, fun hmem => hreturn (List.mem_append_right a hmem),
      fun hmem => hnewline (List.mem_append_right a hmem)⟩
  · exact hlines line (by simp [hpost])

theorem InLine.drop {lines : List Data} {p : Nat} {q : Data} {post : List Data}
    (h : InLine lines p q post) (text : Data) :
    (encodeLines lines ++ text).drop p = encodeLines (q :: post) ++ text := by
  obtain ⟨_, pre, a, rfl, rfl⟩ := h
  rw [encodeLines_append, encodeLines_cons, encodeLines_cons, ← List.drop_drop]
  simp

theorem InLine.length {lines : List Data} {p : Nat} {q : Data} {post : List Data}
    (h : InLine lines p q post) :
    p + (encodeLines (q :: post)).length = (encodeLines lines).length := by
  obtain ⟨_, pre, a, rfl, rfl⟩ := h
  simp only [encodeLines_append, encodeLines_cons, List.length_append]
  omega

/-- What is found at the position and has no carriage return lies in the line. -/
theorem InLine.length_le_of_starts {lines : List Data} {p : Nat} {q pat : Data}
    {post : List Data} (h : InLine lines p q post) (hpat : '\r' ∉ pat) (text : Data)
    (hstarts : pat <+: (encodeLines lines ++ text).drop p) : pat.length ≤ q.length := by
  by_contra hlt
  rw [h.drop, encodeLines_cons] at hstarts
  have hq : q ++ ['\r'] <+: pat := by
    refine List.prefix_of_prefix_length_le ⟨'\n' :: (encodeLines post ++ text), ?_⟩ hstarts ?_
    · simp [CRLF]
    · rw [List.length_append, List.length_singleton]
      omega
  exact hpat (hq.subset (by simp))

theorem not_blank_of_mem_received {lines : List Data} (h : HeaderText lines) :
    ∀ line ∈ received lines, isBlankLine line = false := by
  intro line hline
  obtain ⟨text, htext, rfl⟩ := List.mem_map.mp hline
  obtain ⟨hne, _, hnewline⟩ := h text htext
  cases text with
  | nil => exact absurd rfl hne
  | cons c cs =>
    have hc : c ≠ '\n' := by
      rintro rfl
      exact hnewline (List.mem_cons_self ..)
    simp [isBlankLine, hc]

theorem not_mem_take_lengthName {line : Data} {n : Nat} (h : lengthName line = some n) :
    '\r' ∉ line.take n := by
  have hname : ∀ pat : Data, str2lower pat <+: str2lower (line.take CONTENT_LENGTH.length) →
      pat.length ≤ CONTENT_LENGTH.length → '\r' ∉ str2lower pat → '\r' ∉ line.take pat.length := by
    intro pat hstarts hlen hpat hmem
    have heq : str2lower pat = str2lower (line.take pat.length) := by
      have := List.prefix_iff_eq_take.mp hstarts
      rwa [str2lower, str2lower, List.length_map, ← List.map_take, List.take_take,
        Nat.min_eq_left hlen] at this
    rw [heq] at hpat
    exact hpat (List.mem_map_of_mem (f := Char.toLower) hmem)
  simp only [lengthName] at h
  split at h
  · rename_i hpat
    rw [← Option.some.inj h]
    exact hname CONTENT_LENGTH (List.isPrefixOf_iff_prefix.mp hpat) (by decide) (by decide)
  · split at h
    · rename_i hpat
      rw [← Option.some.inj h]
      exact hname CONTENT_LENGTH_SHORT (List.isPrefixOf_iff_prefix.mp hpat) (by decide) (by decide)
    · cases h

theorem not_bare_of_mem_received {lines : List Data} : ∀ line ∈ received lines, ¬ Bare line := by
  intro line hline hbare
  obtain ⟨text, _, rfl⟩ := List.mem_map.mp hline
  have hname := not_mem_take_lengthName hbare
  rw [List.take_length] at hname
  exact hname (by simp)

theorem headerLines_of_not_blank {lines : List Data} (h : ∀ line ∈ lines, isBlankLine line = false)
    (nonBlank : Bool) : headerLines lines nonBlank = lines ∧ foundBlank lines nonBlank = false := by
  induction lines generalizing nonBlank with
  | nil => exact ⟨rfl, rfl⟩
  | cons line lines ih =>
    obtain ⟨hline, hrest⟩ := List.forall_mem_cons.mp h
    obtain ⟨hread, hfound⟩ := ih hrest true
    simp [headerLines, foundBlank, hline, hread, hfound]

theorem headerLines_of_blank {lines : List Data} (h : ∀ line ∈ lines, isBlankLine line = false)
    (nonBlank : Bool) (hnonBlank : lines ≠ [] ∨ nonBlank = true) {blank : Data}
    (hblank : isBlankLine blank = true) (rest : List Data) :
    headerLines (lines ++ blank :: rest) nonBlank = lines ++ [blank] ∧
      foundBlank (lines ++ blank :: rest) nonBlank = true := by
  induction lines generalizing nonBlank with
  | nil =>
    obtain rfl := hnonBlank.resolve_left (fun hne => hne rfl)
    simp [headerLines, foundBlank, hblank]
  | cons line lines ih =>
    obtain ⟨hline, hrest⟩ := List.forall_mem_cons.mp h
    obtain ⟨hread, hfound⟩ := ih hrest true (Or.inr rfl)
    simp [headerLines, foundBlank, hline, hread, hfound]

theorem bytes_received (lines : List Data) : bytes (received lines) = (encodeLines lines).length := by
  induction lines with
  | nil => rfl
  | cons line lines ih =>
    rw [encodeLines_cons, List.length_append, ← ih]
    simp [bytes, received, CRLF]

/-! ### One look -/

theorem isFullMsg_waits {lines : List Data} (hlines : HeaderText lines) {n : Nat}
    (hn : n < (encodeLines lines).length + 2) {view : Data} (hlen : view.length < MX_SIP_MSG_LEN)
    (hview : view = (encodeLines lines ++ CRLF).take n) {q : Data} {post : List Data}
    (hplace : InLine lines (searchPos view) q post) : isFullMsg view = some (-1) := by
  have hrest : HeaderText (q :: post) := hplace.headerText hlines
  have hleft : view.drop (searchPos view) =
      (encodeLines (q :: post) ++ ['\r']).take (n - searchPos view) := by
    have hlength := hplace.length
    refine (congrArg (List.drop (searchPos view)) hview).trans ?_
    rw [List.drop_take, hplace.drop, show CRLF = ['\r'] ++ ['\n'] from rfl, ← List.append_assoc,
      List.take_append_of_le_length]
    rw [List.length_append, List.length_singleton]
    omega
  have hread : completeLines (view.drop (searchPos view)) <+: received (q :: post) := by
    have := completeLines_take (encodeLines (q :: post) ++ ['\r']) (n - searchPos view)
    rwa [← hleft, completeLines_encodeLines hrest, show completeLines ['\r'] = [] from rfl,
      List.append_nil] at this
  obtain ⟨hheader, hfound⟩ := headerLines_of_not_blank
    (fun line hline => not_blank_of_mem_received hrest line (hread.subset hline))
    (decide (searchPos view ≠ 0))
  have hends : headerEnds view = false := hfound
  rw [isFullMsg_of_not_bare hlen, hends]
  · simp
  · intro line hline
    have hmem := List.mem_of_find?_eq_some hline
    rw [header, hheader] at hmem
    exact not_bare_of_mem_received line (hread.subset hmem)

theorem isFullMsg_reports {lines : List Data} (hlines : HeaderText lines) {view text : Data}
    (hlen : view.length < MX_SIP_MSG_LEN) (hview : view = encodeLines lines ++ (CRLF ++ text))
    {q : Data} {post : List Data} (hplace : InLine lines (searchPos view) q post) {n : Nat}
    (hn : contentLength (received (q :: post)) = n) :
    isFullMsg view = some (if (encodeLines lines).length + 2 + n ≤ view.length then
      (((encodeLines lines).length + 2 + n : Nat) : Int) else -1) := by
  have hrest : HeaderText (q :: post) := hplace.headerText hlines
  have hleft : view.drop (searchPos view) = encodeLines (q :: post) ++ (CRLF ++ text) :=
    (congrArg (List.drop (searchPos view)) hview).trans (hplace.drop _)
  have hread : completeLines (view.drop (searchPos view)) =
      received (q :: post) ++ ['\r'] :: completeLines text := by
    rw [hleft, completeLines_encodeLines hrest]
    rfl
  obtain ⟨hheader, hfound⟩ := headerLines_of_blank (not_blank_of_mem_received hrest)
    (decide (searchPos view ≠ 0)) (Or.inl (by simp [received]))
    (show isBlankLine ['\r'] = true by decide) (completeLines text)
  rw [← hread] at hheader hfound
  have hheader' : header view = received (q :: post ++ [[]]) := by
    rw [header, hheader, received, received, List.map_append]
    rfl
  have hends : headerEnds view = true := hfound
  have hend : headerEnd view = (encodeLines lines).length + 2 := by
    rw [headerEnd, hheader', bytes_received, encodeLines_append, List.length_append, ← Nat.add_assoc,
      hplace.length]
    rfl
  have hlength : contentLength (header view) = n := by
    have hblank : lengthLine (received [[]]) = none := by decide
    rw [lengthLine] at hblank
    rw [← hn, hheader', contentLength, contentLength, received, List.map_append, lengthLine,
      lengthLine, List.find?_append, ← received, ← received, hblank, Option.or_none]
  rw [isFullMsg_of_not_bare hlen, hlength, hends, hend]
  · congr 1
    exact if_congr ⟨fun h => by omega, fun h => ⟨rfl, by omega⟩⟩ rfl rfl
  · intro line hline
    have hmem := List.mem_of_find?_eq_some hline
    rw [hheader'] at hmem
    exact not_bare_of_mem_received line hmem


theorem peekRcvd_take {text : Data} (hnul : '\x00' ∉ text) (j : Nat) :
    peekRcvd (text.take j) = (text.take (MX_SIP_MSG_LEN - 1)).take j := by
  rw [peekRcvd, List.take_take, List.take_take, Nat.min_comm, List.takeWhile_eq_self_iff]
  intro c hc
  have hmem := (List.take_prefix _ _).subset hc
  simp only [decide_eq_true_eq]
  rintro rfl
  exact hnul hmem

theorem SipText.length_encode (m : SipText) :
    m.encode.length = (encodeLines m.lines).length + 2 + m.body.length := by
  rw [SipText.encode, List.length_append, List.length_append]
  rfl

theorem stream_eq (m : SipText) (rest : Data) :
    m.encode ++ rest = encodeLines m.lines ++ CRLF ++ (m.body ++ rest) := by
  simp [SipText.encode]

theorem take_stream_of_lt (m : SipText) (rest : Data) {j : Nat} (hmax : j ≤ MX_SIP_MSG_LEN - 1)
    (hj : j < (encodeLines m.lines).length + 2) :
    ((m.encode ++ rest).take (MX_SIP_MSG_LEN - 1)).take j = (encodeLines m.lines ++ CRLF).take j := by
  rw [List.take_take, Nat.min_eq_left hmax, stream_eq, List.take_append_of_le_length]
  rw [List.length_append]
  exact Nat.le_of_lt hj

theorem take_stream_of_le (m : SipText) (rest : Data) {j : Nat}
    (hheader : (encodeLines m.lines).length + 2 ≤ MX_SIP_MSG_LEN - 1)
    (hj : (encodeLines m.lines).length + 2 ≤ j) :
    ((m.encode ++ rest).take (MX_SIP_MSG_LEN - 1)).take j = encodeLines m.lines ++
      (CRLF ++ (m.body ++ rest).take (min j (MX_SIP_MSG_LEN - 1) - ((encodeLines m.lines).length + 2))) := by
  rw [List.take_take, stream_eq, List.take_append, List.take_of_length_le, List.append_assoc, List.length_append]
  · rfl
  · rw [List.length_append, show CRLF.length = 2 from rfl]
    omega

theorem lt_of_starts {m : SipText} {rest pat q : Data} {post : List Data} {i j : Nat} (hpat : '\r' ∉ pat)
    (hplace : InLine m.lines i q post)
    (hstarts : pat <+: ((m.encode ++ rest).take (MX_SIP_MSG_LEN - 1)).drop i) (hcut : j < i + pat.length) :
    j < (encodeLines m.lines).length + 2 := by
  have hq : pat.length ≤ q.length := by
    refine hplace.length_le_of_starts hpat (CRLF ++ (m.body ++ rest)) ?_
    rw [← List.append_assoc, ← stream_eq]
    rw [List.drop_take] at hstarts
    exact hstarts.trans (List.take_prefix _ _)
  have := hplace.length
  rw [encodeLines_cons, List.length_append, List.length_append] at this
  omega

/-- `isFullMsg` decides right about every part of the stream that has arrived. -/
theorem isFullMsg_take {m : SipText} {rest : Data} (h : ReadableAt m rest) (j : Nat) :
    isFullMsg (((m.encode ++ rest).take (MX_SIP_MSG_LEN - 1)).take j) =
      some (if j < m.encode.length then -1 else (m.encode.length : Int)) := by
  obtain ⟨_, hfits, q, post, hplace, hlength⟩ := h
  have hmax : MX_SIP_MSG_LEN = 65536 := rfl
  have hlines : HeaderText m.lines := m.hlines
  have hencode := m.length_encode
  have hlen : (((m.encode ++ rest).take (MX_SIP_MSG_LEN - 1)).take j).length < MX_SIP_MSG_LEN := by
    simp only [List.length_take]
    omega
  have hshort : j < (encodeLines m.lines).length + 2 →
      ((m.encode ++ rest).take (MX_SIP_MSG_LEN - 1)).take j = (encodeLines m.lines ++ CRLF).take j :=
    fun hj => take_stream_of_lt m rest (by omega) hj
  rcases searchPos_take ((m.encode ++ rest).take (MX_SIP_MSG_LEN - 1)) j with
    hsame | ⟨pat, hpat, hstarts, hcut, hfound⟩
  · rw [← hsame] at hplace
    by_cases hj : j < (encodeLines m.lines).length + 2
    · rw [isFullMsg_waits hlines hj hlen (hshort hj) hplace, if_pos (by omega)]
    · have hview := take_stream_of_le m rest (by omega) (Nat.le_of_not_lt hj)
      rw [isFullMsg_reports hlines hlen hview hplace hlength]
      simp only [List.length_take, List.length_append]
      congr 1
      by_cases hlt : j < m.encode.length
      · rw [if_neg (by omega), if_pos hlt]
      · rw [if_pos (by omega), if_neg hlt, hencode]
  · have hj : j < (encodeLines m.lines).length + 2 := by
      refine lt_of_starts ?_ hplace hstarts hcut
      rcases hpat with rfl | rfl <;> decide
    have hplace' : ∃ q post, InLine m.lines
        (searchPos (((m.encode ++ rest).take (MX_SIP_MSG_LEN - 1)).take j)) q post := by
      rcases hfound with hzero | hshort'
      · rw [hzero]
        refine ⟨m.startLine, m.headers, (m.hlines _ (List.mem_cons_self ..)).1, [], [], rfl, rfl⟩
      · rw [hshort hj] at hshort' ⊢
        refine inLine_of_getElem? (c := 'l') ?_ (by decide)
        obtain ⟨text, htext⟩ := hshort'
        have hget := congrArg (·[0]?) htext
        rw [List.getElem?_drop, Nat.add_zero, List.getElem?_take] at hget
        split at hget
        · exact hget.symm
        · cases hget
    obtain ⟨q', post', hplace'⟩ := hplace'
    rw [isFullMsg_waits hlines hj hlen (hshort hj) hplace', if_pos (by omega)]

theorem look_take {m : SipText} {rest : Data} (h : ReadableAt m rest) (hrest : '\x00' ∉ rest)
    (j : Nat) : look ((m.encode ++ rest).take j) =
      if j < m.encode.length then .waits else .complete m.encode.length := by
  have hnul : '\x00' ∉ m.encode ++ rest := by simp [h.noNul, hrest]
  rw [look, peekRcvd_take hnul, isFullMsg_take h]
  dsimp only
  by_cases hlt : j < m.encode.length
  · rw [if_pos hlt, if_pos rfl, if_pos hlt]
  · rw [if_neg hlt, if_neg (by omega), if_neg hlt, if_pos, Int.toNat_natCast]
    rw [List.length_take, List.length_append]
    omega


/-! ### The stream -/

theorem Readable.noNul {ms : List SipText} (h : Readable ms) :
    '\x00' ∉ (ms.map SipText.encode).flatten := by
  induction ms with
  | nil => simp
  | cons m ms ih =>
    rw [List.map_cons, List.flatten_cons, List.mem_append, not_or]
    exact ⟨h.1.noNul, ih h.2⟩

theorem frames_of_readable {ms : List SipText} (h : Readable ms) :
    Frames look (ms.map SipText.encode) := by
  induction ms with
  | nil => exact (by decide : look [] = .waits)
  | cons m ms ih =>
    refine ⟨?_, fun j => look_take h.1 h.2.noNul j, ih h.2⟩
    have := m.length_encode
    omega

/-- **Messages are framed.** Readable messages are extracted as they were sent, in order and with no
byte left, however the stream is cut. -/
theorem messages_framed (ms : List SipText) (hread : Readable ms) (chunks : List Data)
    (hchunks : chunks.flatten = (ms.map SipText.encode).flatten) :
    chunks.foldl receive (some ([], [])) = some ([], ms.map SipText.encode) :=
  Framing.feed_flatten (frames_of_readable hread) hchunks

/-- A message whose length header is in the usual spelling. -/
def okText : SipText where
  startLine := "OK".toList
  headers := ["Content-Length: 2".toList]
  body := "hi".toList
  hlines := by unfold HeaderText; decide
  hlength := ⟨[], "Content-Length: 2".toList, [], [], rfl, by simp, by simp,
    "Content-Length".toList, [], " ".toList, "2".toList, [], by decide, by decide, by simp, by decide,
    List.forall_mem_singleton.mpr rfl, by decide⟩

/-- A message whose length header has the short name. -/
def byeText : SipText where
  startLine := "BYE".toList
  headers := ["l: 0".toList]
  body := []
  hlines := by unfold HeaderText; decide
  hlength := ⟨[], "l: 0".toList, [], [], rfl, by simp, by simp,
    "l".toList, [], " ".toList, "0".toList, [], by decide, by decide, by simp, by decide,
    List.forall_mem_singleton.mpr rfl, by decide⟩

theorem messages_framed_ok_bye :
    Readable [okText, byeText] ∧
      ["OK\r\nCont".toList, "ent-Length: 2\r\n\r\nhiBYE\r".toList, "\nl: 0\r\n\r\n".toList].foldl
        receive (some ([], [])) = some ([], [okText.encode, byeText.encode]) := by
  have hread : Readable [okText, byeText] := by
    refine ⟨⟨by decide, by decide, "Content-Length: 2".toList, [], ⟨by decide, ["OK".toList], [], ?_⟩, ?_⟩,
      ⟨by decide, by decide, "l: 0".toList, [], ⟨by decide, ["BYE".toList], [], ?_⟩, ?_⟩, trivial⟩
    all_goals decide
  exact ⟨hread, messages_framed [okText, byeText] hread _ (by decide)⟩

/-- The messages in the other order are taken for one. -/
theorem compact_length_merges :
    [byeText.encode ++ okText.encode].flatten = ([byeText, okText].map SipText.encode).flatten ∧
      [byeText.encode ++ okText.encode].foldl receive (some ([], [])) =
        some ([], [byeText.encode ++ okText.encode]) ∧
      [byeText.encode ++ okText.encode].foldl receive (some ([], [])) ≠
        some ([], [byeText, okText].map SipText.encode) := by
  decide

end Vocal.Sip
