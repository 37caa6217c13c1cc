import Vocal.Rtsp.MsgText

/-!
# Framing

A list of well-formed messages arrives in reads. `readAll_framed`: each message gets into the fifo as it is, if every read ends
behind a message or is a part of a start line.
-/

namespace Vocal.Rtsp

open Sip (Data CRLF)
open RtspMsgParser

/-! ### First words -/

variable {x y : Data}

theorem isEqualNoCase_congr (h : x.map Char.toLower = y.map Char.toLower) (data : Data) :
    isEqualNoCase x data = isEqualNoCase y data := by rw [isEqualNoCase, isEqualNoCase, h]

theorem newRtspMsg_congr (h : x.map Char.toLower = y.map Char.toLower) : newRtspMsg x = newRtspMsg y := by
  have hnil : x = [] ↔ y = [] := by
    rw [← List.map_eq_nil_iff (f := Char.toLower), h, List.map_eq_nil_iff]
  have hmethod : RtspUtil.getMethodInNumber x = RtspUtil.getMethodInNumber y := by
    simp only [RtspUtil.getMethodInNumber, hnil, isEqualNoCase_congr h]
  rw [newRtspMsg, newRtspMsg, hmethod, isEqualNoCase_congr h]

theorem isEqualNoCase_iff : isEqualNoCase x y = true ↔ x.map Char.toLower = y.map Char.toLower := by
  rw [isEqualNoCase, beq_iff_eq]

/-- No first word is the beginning of another one. -/
theorem unambiguous_startWords :
    (startWords.all fun a => startWords.all fun b =>
      !(a.map Char.toLower).isPrefixOf (b.map Char.toLower) || a.map Char.toLower == b.map Char.toLower) = true := by
  decide

theorem mem_startWords_of_known (h : (newRtspMsg x).myFirstWordUnknown = false) :
    ∃ word ∈ startWords, isEqualNoCase x word = true := by
  rw [newRtspMsg] at h
  split at h
  case isTrue hrtsp => exact ⟨_, List.mem_cons_self, hrtsp⟩
  case isFalse =>
    have hmethod : ¬ RtspUtil.getMethodInNumber x = .RTSP_UNKNOWN_MTHD := by
      intro hunknown
      rw [hunknown] at h
      cases h
    rw [RtspUtil.getMethodInNumber] at hmethod
    by_cases hnil : x = []
    · exact absurd (if_pos hnil) hmethod
    · rw [if_neg hnil] at hmethod
      cases hfind : RtspUtil.myMethods.find? fun m => isEqualNoCase x m.2 with
      | none =>
        rw [hfind] at hmethod
        exact absurd rfl hmethod
      | some m =>
        have hequal := List.find?_some hfind
        refine ⟨m.2, List.mem_cons_of_mem _ (List.mem_filter.mpr ⟨?_, ?_⟩), hequal⟩
        · exact List.mem_map_of_mem (List.mem_of_find?_eq_some hfind)
        · rw [decide_eq_true_eq]
          intro hempty
          have hlower := isEqualNoCase_iff.mp hequal
          rw [hempty] at hlower
          exact hnil (List.map_eq_nil_iff.mp hlower)

theorem firstWord_begins (h : x <+: y) : firstWord x <+: firstWord y := by
  obtain ⟨z, rfl⟩ := h
  rw [firstWord, firstWord, List.takeWhile_append]
  split
  · rename_i hall
    rw [(List.takeWhile_prefix _).eq_of_length hall]
    exact List.prefix_append _ _
  · exact List.prefix_refl _

theorem newRtspMsg_of_begins (hbegins : x <+: y) (hknown : (newRtspMsg (firstWord x)).myFirstWordUnknown = false)
    (h : ∃ word ∈ startWords, isEqualNoCase (firstWord y) word = true) :
    newRtspMsg (firstWord x) = newRtspMsg (firstWord y) := by
  obtain ⟨a, ha, hxa⟩ := mem_startWords_of_known hknown
  obtain ⟨b, hb, hyb⟩ := h
  have hlower := (firstWord_begins hbegins).map Char.toLower
  rw [isEqualNoCase_iff.mp hxa, isEqualNoCase_iff.mp hyb] at hlower
  have hfree := List.all_eq_true.mp (List.all_eq_true.mp unambiguous_startWords a ha) b hb
  rw [List.isPrefixOf_iff_prefix.mpr hlower, Bool.not_true, Bool.false_or, beq_iff_eq] at hfree
  exact newRtspMsg_congr ((isEqualNoCase_iff.mp hxa).trans (hfree.trans (isEqualNoCase_iff.mp hyb).symm))

/-! ### One message -/

/-- What is saved of a start line when a part of it was read: the class goes by the part that came first. -/
inductive Pending : Data → Option RtspMsg → Prop
  | nothing : Pending [] none
  | part {first pending : Data} (hne : pending ≠ []) (h : first <+: pending) :
    Pending pending (some { newRtspMsg (firstWord first) with myStartLine := pending })

variable {m : MsgText} {pending s rest data : Data} {savedMsg : Option RtspMsg} {bytesDecoded : Nat}

theorem readFrom_text (hfits : m.Fits) (hstart : m.startLine = pending ++ s) (cls : RtspMsgClass) (unknown : Bool)
    (rest : Data) (bytesDecoded : Nat) :
    readFrom { cls, myFirstWordUnknown := unknown, myStartLine := pending } ⟨s ++ (m.behind ++ rest), bytesDecoded⟩ =
      readRest (startRead cls unknown (m.startLine ++ CRLF))
        ⟨headerLines m.headers ++ (CRLF ++ (m.body ++ rest)), bytesDecoded⟩ := by
  have hascii := hfits.ascii
  have heol := m.noEol
  rw [hstart] at hascii heol
  have hline : CharDataParser.getNextLine ⟨s ++ (m.behind ++ rest), bytesDecoded⟩ =
      .ok (s ++ CRLF, true, ⟨headerLines m.headers ++ (CRLF ++ (m.body ++ rest)), bytesDecoded⟩) := by
    rw [m.behind_append]
    exact CharDataParser.getNextLine_crlf (ascii_append.mp hascii).2 fun c hc => heol c (List.mem_append_right _ hc)
  simp only [readFrom]
  rw [hline, hstart, List.append_assoc]
  rfl

theorem firstWord_crlf (x : Data) : firstWord (x ++ CRLF) = firstWord x := takeWhile_append_cons (by decide) x ['\n']

theorem createRtspMsg_text (hfits : m.Fits) (rest : Data) (bytesDecoded : Nat) :
    createRtspMsg ⟨m.startLine ++ (m.behind ++ rest), bytesDecoded⟩ = .ok (newRtspMsg (firstWord m.startLine)) := by
  have hsplit : splitLine (m.startLine ++ (m.behind ++ rest)) =
      some (m.startLine ++ CRLF, headerLines m.headers ++ (CRLF ++ (m.body ++ rest))) := by
    rw [m.behind_append]
    exact splitLine_crlf m.noEol
  rw [createRtspMsg_of_word
    (CharDataParser.getNextWord_of_splitLine hsplit (ascii_append.mpr ⟨hfits.ascii, ascii_crlf⟩)), firstWord_crlf]

theorem preParse_text (h : Pending pending savedMsg) (hstart : m.startLine = pending ++ s) (hfits : m.Fits)
    (hlt : m.body.length < 2 ^ 31) (rest : Data) (bytesDecoded : Nat) :
    ∃ cls unknown map, (unknown = false → cls = (newRtspMsg (firstWord m.startLine)).cls) ∧
      Holds map (headerLines m.headers ++ CRLF) m.headers ∧
      preParse (s ++ (m.behind ++ rest)) bytesDecoded savedMsg = .ok (m.bodyRead cls unknown map, rest) := by
  cases h with
  | nothing =>
    rw [List.nil_append] at hstart
    obtain ⟨cls, unknown, hnew⟩ := newRtspMsg_eq (firstWord m.startLine)
    obtain ⟨map, hholds, hrest⟩ := MsgText.readRest_text hfits hlt cls unknown rest bytesDecoded
    have hread := readFrom_text hfits (List.nil_append m.startLine).symm cls unknown rest bytesDecoded
    refine ⟨cls, unknown, map, fun _ => by rw [hnew], hholds, ?_⟩
    rw [← hstart, preParse, createRtspMsg_text hfits, hnew]
    exact hread.trans hrest
  | @part first pending _ hfirst =>
    obtain ⟨cls, unknown, hnew⟩ := newRtspMsg_eq (firstWord first)
    obtain ⟨map, hholds, hrest⟩ := MsgText.readRest_text hfits hlt cls unknown rest bytesDecoded
    have hread := readFrom_text hfits hstart cls unknown rest bytesDecoded
    refine ⟨cls, unknown, map, fun hknown => ?_, hholds, ?_⟩
    · have hwhole : newRtspMsg (firstWord first) = newRtspMsg (firstWord m.startLine) := by
        refine newRtspMsg_of_begins (hfirst.trans ?_) (by rw [hnew]; exact hknown) m.known
        rw [hstart]
        exact List.prefix_append _ _
      rw [← hwhole, hnew]
    · rw [hnew, preParse]
      exact hread.trans hrest

theorem readFrom_part (hascii : Ascii data) (heol : ∀ c ∈ data, myMaskEol c = false) (cls : RtspMsgClass) (unknown : Bool)
    (pending : Data) :
    readFrom { cls, myFirstWordUnknown := unknown, myStartLine := pending } ⟨data, 0⟩ =
      .ok ({ cls, myFirstWordUnknown := unknown, myStartLine := pending ++ data }, []) := by
  simp only [readFrom]
  rw [CharDataParser.getNextLine_of_splitLine_none (splitLine_eq_none_iff.mpr heol) hascii]
  rfl

theorem preParse_part (h : Pending pending savedMsg) (hascii : Ascii data) (heol : ∀ c ∈ data, myMaskEol c = false) :
    ∃ first, first <+: pending ++ data ∧
      preParse data 0 savedMsg = .ok ({ newRtspMsg (firstWord first) with myStartLine := pending ++ data }, []) := by
  cases h with
  | nothing =>
    obtain ⟨cls, unknown, hnew⟩ := newRtspMsg_eq (firstWord data)
    refine ⟨data, List.prefix_refl _, ?_⟩
    rw [preParse, createRtspMsg_of_word (CharDataParser.getNextWord_of_ascii hascii), hnew]
    exact readFrom_part hascii heol cls unknown []
  | @part first pending _ hfirst =>
    obtain ⟨cls, unknown, hnew⟩ := newRtspMsg_eq (firstWord first)
    refine ⟨first, hfirst.trans (List.prefix_append _ _), ?_⟩
    rw [hnew, preParse]
    exact readFrom_part hascii heol cls unknown pending

/-! ### Reads -/

namespace RtspTcpBuffer

variable {buffer : RtspTcpBuffer}

theorem readMessage_text (h : Pending pending buffer.mySavedRtspMsg) (hstart : m.startLine = pending ++ s) (hfits : m.Fits)
    (hlt : m.body.length < 2 ^ 31) (rest : Data) (bytesDecoded : Nat) :
    ∃ msg, Framed m msg ∧ buffer.readMessage bytesDecoded (s ++ (m.behind ++ rest)) =
      .ok ({ mySavedRtspMsg := none, myRecvFifo := buffer.myRecvFifo ++ [msg] }, rest) := by
  obtain ⟨cls, unknown, map, hcls, hholds, hparse⟩ := preParse_text h hstart hfits hlt rest bytesDecoded
  refine ⟨m.bodyRead (newRtspMsg (firstWord m.startLine)).cls unknown map, MsgText.framed_bodyRead hfits hholds, ?_⟩
  have hderive : derive (m.bodyRead cls unknown map) =
      .ok (m.bodyRead (newRtspMsg (firstWord m.startLine)).cls unknown map) := by
    cases unknown with
    | false =>
      rw [hcls rfl]
      rfl
    | true =>
      have hascii : Ascii (m.startLine ++ CRLF) := ascii_append.mpr ⟨hfits.ascii, ascii_crlf⟩
      have hcreate : createRtspMsg ⟨m.startLine ++ CRLF, 0⟩ = .ok (newRtspMsg (firstWord m.startLine)) := by
        rw [createRtspMsg_of_word (CharDataParser.getNextWord_of_ascii hascii), firstWord_crlf]
      exact congrArg (Except.map fun newMsg => { m.bodyRead cls true map with cls := newMsg.cls }) hcreate
  rw [readMessage, hparse]
  have hcomplete : (m.bodyRead cls unknown map).myCompletionFlag = .RTSP_MSG_COMPLETE := rfl
  simp only [bind, Except.bind, hcomplete, if_true, hderive]
  rfl

theorem readMessage_part (h : Pending pending buffer.mySavedRtspMsg) (hne : data ≠ []) (hascii : Ascii data)
    (heol : ∀ c ∈ data, myMaskEol c = false) :
    ∃ msg, Pending (pending ++ data) (some msg) ∧
      buffer.readMessage 0 data = .ok ({ buffer with mySavedRtspMsg := some msg }, []) := by
  obtain ⟨first, hfirst, hparse⟩ := preParse_part h hascii heol
  obtain ⟨cls, unknown, hnew⟩ := newRtspMsg_eq (firstWord first)
  refine ⟨_, .part (List.append_ne_nil_of_right_ne_nil pending hne) hfirst, ?_⟩
  rw [readMessage, hparse, hnew]
  rfl

/-- The messages, one behind the other. -/
def texts (ms : List MsgText) : Data := ms.flatMap MsgText.text

theorem texts_append (ms ms' : List MsgText) : texts (ms ++ ms') = texts ms ++ texts ms' := List.flatMap_append

theorem texts_cons (m : MsgText) (ms : List MsgText) : texts (m :: ms) = m.startLine ++ (m.behind ++ texts ms) := by
  rw [texts, List.flatMap_cons, MsgText.text, List.append_assoc]
  rfl

theorem length_body_le {ms : List MsgText} (h : m ∈ ms) : m.body.length ≤ (texts ms).length := by
  obtain ⟨before, after, rfl⟩ := List.append_of_mem h
  rw [texts_append, texts_cons, m.behind_append]
  simp only [List.length_append]
  omega

theorem behind_ne_nil (m : MsgText) (rest : Data) : m.behind ++ rest ≠ [] := by simp [MsgText.behind, CRLF]

theorem readMessages_text {ms : List MsgText} (h : Pending pending buffer.mySavedRtspMsg) (hstart : m.startLine = pending ++ s)
    (hfits : ∀ m' ∈ m :: ms, m'.Fits) (hlt : ∀ m' ∈ m :: ms, m'.body.length < 2 ^ 31) (bytesDecoded : Nat) :
    ∃ msgs, List.Forall₂ Framed (m :: ms) msgs ∧ buffer.readMessages bytesDecoded (s ++ (m.behind ++ texts ms)) =
      ({ mySavedRtspMsg := none, myRecvFifo := buffer.myRecvFifo ++ msgs }, none) := by
  induction ms generalizing m buffer pending s bytesDecoded with
  | nil =>
    obtain ⟨hm, -⟩ := List.forall_mem_cons.mp hfits
    obtain ⟨hbody, -⟩ := List.forall_mem_cons.mp hlt
    obtain ⟨msg, hframed, hread⟩ := readMessage_text h hstart hm hbody (texts []) bytesDecoded
    refine ⟨[msg], .cons hframed .nil, ?_⟩
    rw [readMessages_of_ok (List.append_ne_nil_of_right_ne_nil s (behind_ne_nil m _)) hread]
    exact readMessages_nil
  | cons m' ms ih =>
    obtain ⟨hm, hms⟩ := List.forall_mem_cons.mp hfits
    obtain ⟨hbody, hbodies⟩ := List.forall_mem_cons.mp hlt
    obtain ⟨msg, hframed, hread⟩ := readMessage_text h hstart hm hbody (texts (m' :: ms)) bytesDecoded
    have hnothing : Pending [] (⟨none, buffer.myRecvFifo ++ [msg]⟩ : RtspTcpBuffer).mySavedRtspMsg := .nothing
    obtain ⟨msgs, hmsgs, hrest⟩ := ih hnothing rfl hms hbodies
      (bytesDecoded + ((s ++ (m.behind ++ texts (m' :: ms))).length - (texts (m' :: ms)).length))
    refine ⟨msg :: msgs, .cons hframed hmsgs, ?_⟩
    rw [readMessages_of_ok (List.append_ne_nil_of_right_ne_nil s (behind_ne_nil m _)) hread]
    rw [← texts_cons] at hrest
    rw [hrest, List.append_assoc, List.singleton_append]

/-! ### Runs -/

/-- A read that ends behind a message, or is a part of the start line of one. -/
def CutsWell (ms : List MsgText) (before read : Data) : Prop :=
  (∃ done rest, ms = done ++ rest ∧ before ++ read = texts done) ∨
    ∃ done m rest, ms = done ++ m :: rest ∧ texts done <+: before ∧ before ++ read <+: texts done ++ m.startLine

/-- What has arrived: the messages that are done are in the fifo, and a part of the next start line is saved. -/
structure Arrived (done rest : List MsgText) (pending : Data) (buffer : RtspTcpBuffer) : Prop where
  framed : List.Forall₂ Framed done buffer.myRecvFifo
  saved : Pending pending buffer.mySavedRtspMsg
  start : pending = [] ∨ ∃ m ∈ rest.head?, pending <+: m.startLine

variable {ms done rest' : List MsgText} {read : Data}

theorem length_startLine_lt (m : MsgText) (ms : List MsgText) : m.startLine.length < (texts (m :: ms)).length := by
  have hpos := List.length_pos_iff.mpr (behind_ne_nil m (texts ms))
  rw [texts_cons, List.length_append]
  omega

theorem Arrived.length_pending_lt (h : Arrived done rest' pending buffer) {ms' ms'' : List MsgText}
    (hrest : rest' = m :: ms' ++ ms'') : pending.length < (texts (m :: ms')).length := by
  have hlt := length_startLine_lt m ms'
  rcases h.start with rfl | ⟨m', hm', hbegins⟩
  · exact Nat.lt_of_le_of_lt (Nat.zero_le _) hlt
  · obtain rfl : m = m' := by simpa [hrest] using hm'
    exact Nat.lt_of_le_of_lt hbegins.length_le hlt

theorem Arrived.readTcpData_whole (h : Arrived done rest' pending buffer) {ms' ms'' : List MsgText}
    (hrest : rest' = ms' ++ ms'') (hne : read ≠ []) (htext : pending ++ read = texts ms') (hfits : ∀ m ∈ rest', m.Fits)
    (hlt : read.length < 2 ^ 31) :
    ∃ buffer', buffer.readTcpData read = (buffer', none) ∧ Arrived (done ++ ms') ms'' [] buffer' := by
  cases ms' with
  | nil => exact absurd (List.append_eq_nil_iff.mp htext).2 hne
  | cons m ms' =>
    have hbegins : pending <+: m.startLine := by
      rcases h.start with rfl | ⟨m', hm', hbegins⟩
      · exact List.nil_prefix
      · obtain rfl : m = m' := by simpa [hrest] using hm'
        exact hbegins
    obtain ⟨s, hs⟩ := hbegins
    have hread : read = s ++ (m.behind ++ texts ms') := by
      rw [texts_cons, ← hs, List.append_assoc] at htext
      exact List.append_cancel_left htext
    have hmem : ∀ m' ∈ m :: ms', m' ∈ rest' := fun m' hm' => hrest ▸ List.mem_append_left _ hm'
    have hbody : ∀ m' ∈ m :: ms', m'.body.length < 2 ^ 31 := by
      have hlength := congrArg List.length hread
      rw [m.behind_append] at hlength
      simp only [List.length_append] at hlength
      intro m' hm'
      rcases List.mem_cons.mp hm' with rfl | hm'
      · omega
      · have hle := length_body_le hm'
        omega
    obtain ⟨msgs, hmsgs, hreads⟩ := readMessages_text h.saved hs.symm (fun m' hm' => hfits m' (hmem m' hm')) hbody 0
    rw [readTcpData, hread, hreads]
    exact ⟨_, rfl, ⟨List.rel_append h.framed hmsgs, .nothing, .inl rfl⟩⟩

theorem Arrived.readTcpData_part (h : Arrived done (m :: ms) pending buffer) (hne : read ≠ [])
    (hbegins : pending ++ read <+: m.startLine) (hfits : m.Fits) :
    ∃ buffer', buffer.readTcpData read = (buffer', none) ∧ Arrived done (m :: ms) (pending ++ read) buffer' := by
  have hmem : ∀ c ∈ read, c ∈ m.startLine := fun c hc => hbegins.subset (List.mem_append_right _ hc)
  obtain ⟨msg, hsaved, hread⟩ := readMessage_part h.saved hne (fun c hc => hfits.ascii c (hmem c hc))
    fun c hc => m.noEol c (hmem c hc)
  rw [readTcpData, readMessages_of_ok hne hread, readMessages_nil]
  exact ⟨_, rfl, ⟨h.framed, hsaved, .inr ⟨m, rfl, hbegins⟩⟩⟩

/-- What a read does. -/
theorem Arrived.step (h : Arrived done rest' pending buffer) (hms : ms = done ++ rest') (hne : read ≠ [])
    (hcut : CutsWell ms (texts done ++ pending) read) (hfits : ∀ m ∈ ms, m.Fits) (hlt : read.length < 2 ^ 31) :
    ∃ done' rest'' pending' buffer', ms = done' ++ rest'' ∧ texts done ++ pending ++ read = texts done' ++ pending' ∧
      buffer.readTcpData read = (buffer', none) ∧ Arrived done' rest'' pending' buffer' := by
  have hpos := List.length_pos_iff.mpr hne
  rcases hcut with ⟨done', rest'', hms', htext⟩ | ⟨done', m, rest'', hms', hbefore, hbegins⟩
  · rcases List.append_eq_append_iff.mp (hms.symm.trans hms') with ⟨as, rfl, hrest⟩ | ⟨cs, rfl, -⟩
    · rw [texts_append, List.append_assoc, List.append_cancel_left_eq] at htext
      obtain ⟨buffer', hread, harrived⟩ := h.readTcpData_whole hrest hne htext
        (fun m hm => hfits m (hms ▸ List.mem_append_right _ hm)) hlt
      exact ⟨_, _, [], buffer', hms', by rw [texts_append, List.append_assoc, htext, List.append_nil], hread, harrived⟩
    · -- the messages that are done do not end behind the read
      have hlength := congrArg List.length htext
      simp only [texts_append, List.length_append] at hlength
      omega
  · obtain rfl : done' = done := by
      rcases List.append_eq_append_iff.mp (hms.symm.trans hms') with ⟨as, rfl, hrest⟩ | ⟨cs, rfl, hrest⟩
      · cases as with
        | nil => exact List.append_nil _
        | cons m' as =>
          have hpending := h.length_pending_lt hrest
          have hle := hbefore.length_le
          rw [texts_append, List.length_append, List.length_append] at hle
          omega
      · cases cs with
        | nil => exact (List.append_nil _).symm
        | cons m' cs =>
          obtain ⟨rfl, -⟩ := List.cons.inj hrest
          have hlt' := length_startLine_lt m cs
          have hle := hbegins.length_le
          simp only [texts_append, List.length_append] at hle
          omega
    obtain rfl : rest' = m :: rest'' := List.append_cancel_left (hms.symm.trans hms')
    rw [List.append_assoc, List.prefix_append_right_inj] at hbegins
    obtain ⟨buffer', hread, harrived⟩ := h.readTcpData_part hne hbegins
      (hfits m (hms ▸ List.mem_append_right _ List.mem_cons_self))
    exact ⟨_, _, _, buffer', hms, List.append_assoc _ _ _, hread, harrived⟩

theorem Arrived.readAll {reads : List Data} (h : Arrived done rest' pending buffer) (hms : ms = done ++ rest')
    (hreads : ∀ read ∈ reads, read ≠ [] ∧ read.length < 2 ^ 31) (hfits : ∀ m ∈ ms, m.Fits)
    (hcuts : ∀ before read after, reads = before ++ read :: after →
      CutsWell ms (texts done ++ pending ++ before.flatten) read) :
    ∃ done' rest'' pending' buffer', ms = done' ++ rest'' ∧
      texts done ++ pending ++ reads.flatten = texts done' ++ pending' ∧
      RtspTcpBuffer.readAll buffer reads = (buffer', none) ∧ Arrived done' rest'' pending' buffer' := by
  induction reads generalizing done rest' pending buffer with
  | nil => exact ⟨done, rest', pending, buffer, hms, List.append_nil _, rfl, h⟩
  | cons read reads ih =>
    obtain ⟨⟨hne, hlt⟩, hreads⟩ := List.forall_mem_cons.mp hreads
    have hcut := hcuts [] read reads rfl
    rw [List.flatten_nil, List.append_nil] at hcut
    obtain ⟨done', rest'', pending', buffer', hms', htext, hread, harrived⟩ := h.step hms hne hcut hfits hlt
    have hcuts' : ∀ before read after, reads = before ++ read :: after →
        CutsWell ms (texts done' ++ pending' ++ before.flatten) read := by
      intro before read' after heq
      have hcut' := hcuts (read :: before) read' after (by rw [heq, List.cons_append])
      rw [List.flatten_cons, ← List.append_assoc, htext] at hcut'
      exact hcut'
    obtain ⟨done₂, rest₂, pending₂, buffer₂, hms₂, htext₂, hrun, harrived₂⟩ := ih harrived hms' hreads hcuts'
    refine ⟨done₂, rest₂, pending₂, buffer₂, hms₂, ?_, ?_, harrived₂⟩
    · rw [List.flatten_cons, ← List.append_assoc, htext, htext₂]
    · rw [RtspTcpBuffer.readAll, hread]
      exact hrun

theorem arrived_nil (ms : List MsgText) : Arrived [] ms [] {} := ⟨.nil, .nothing, .inl rfl⟩

theorem Arrived.eq_nil (h : Arrived done rest' pending buffer) (htext : texts done ++ pending = texts (done ++ rest')) :
    rest' = [] ∧ buffer.mySavedRtspMsg = none := by
  rw [texts_append, List.append_cancel_left_eq] at htext
  cases rest' with
  | nil =>
    refine ⟨rfl, ?_⟩
    have hsaved := h.saved
    rw [show pending = [] from htext] at hsaved
    cases hsaved' : buffer.mySavedRtspMsg with
    | none => rfl
    | some msg =>
      rw [hsaved'] at hsaved
      cases hsaved with
      | part hne => exact absurd rfl hne
  | cons m ms' =>
    have hlt := h.length_pending_lt (List.append_nil _).symm
    rw [htext] at hlt
    exact absurd hlt (Nat.lt_irrefl _)

/-- A run of reads that cut well, over all of some messages: nothing stops it, each message gets into the fifo as it is, and at
every place of the run those are there that have arrived. -/
theorem readAll_framed (size : Nat) (hsize : size < 2 ^ 31) {ms : List MsgText} (hfits : ∀ m ∈ ms, m.Fits)
    {reads : List Data} (hreads : ∀ read ∈ reads, read ≠ [] ∧ read.length ≤ size) (htext : reads.flatten = texts ms)
    (hcuts : ∀ before read after, reads = before ++ read :: after → CutsWell ms before.flatten read) :
    (∃ msgs, List.Forall₂ Framed ms msgs ∧
        ({} : RtspTcpBuffer).readAll reads = ({ mySavedRtspMsg := none, myRecvFifo := msgs }, none)) ∧
      ∀ before after, reads = before ++ after → ∃ done rest pending buffer, ms = done ++ rest ∧
        before.flatten = texts done ++ pending ∧ ({} : RtspTcpBuffer).readAll before = (buffer, none) ∧
        Arrived done rest pending buffer := by
  have hrun : ∀ before after, reads = before ++ after → ∃ done rest pending buffer, ms = done ++ rest ∧
      before.flatten = texts done ++ pending ∧ ({} : RtspTcpBuffer).readAll before = (buffer, none) ∧
      Arrived done rest pending buffer := by
    intro before after heq
    refine (arrived_nil ms).readAll rfl (fun read hread => ?_) hfits fun before' read after' heq' => ?_
    · obtain ⟨hne, hle⟩ := hreads read (heq ▸ List.mem_append_left _ hread)
      exact ⟨hne, by omega⟩
    · exact hcuts before' read (after' ++ after) (by rw [heq, heq', List.append_assoc, List.cons_append])
  refine ⟨?_, hrun⟩
  obtain ⟨done, rest, pending, buffer, rfl, hall, hread, harrived⟩ := hrun reads [] (List.append_nil _).symm
  obtain ⟨rfl, hsaved⟩ := harrived.eq_nil (hall.symm.trans htext)
  rw [List.append_nil]
  refine ⟨buffer.myRecvFifo, harrived.framed, hread.trans ?_⟩
  rw [← hsaved]

theorem readTcpData_startLine (hfits : m.Fits) :
    ({} : RtspTcpBuffer).readTcpData (m.startLine ++ CRLF) = ({}, some .RtspBadDataException) := by
  obtain ⟨cls, unknown, hnew⟩ := newRtspMsg_eq (firstWord m.startLine)
  have hsplit : splitLine (m.startLine ++ CRLF) = some (m.startLine ++ CRLF, []) := splitLine_crlf m.noEol
  have hascii : Ascii (m.startLine ++ CRLF) := ascii_append.mpr ⟨hfits.ascii, ascii_crlf⟩
  have hline : CharDataParser.getNextLine ⟨m.startLine ++ CRLF, 0⟩ = .ok (m.startLine ++ CRLF, true, ⟨[], 0⟩) :=
    CharDataParser.getNextLine_crlf hfits.ascii m.noEol
  have hread : ({} : RtspTcpBuffer).readMessage 0 (m.startLine ++ CRLF) = .error .RtspBadDataException := by
    rw [readMessage, preParse]
    dsimp only
    rw [createRtspMsg_of_word (CharDataParser.getNextWord_of_splitLine hsplit hascii), firstWord_crlf, hnew]
    simp only [bind, Except.bind, readFrom, hline]
    simp only [readRest, readHeaders_of_nil]
    rfl
  exact readMessages_of_error (List.append_ne_nil_of_right_ne_nil _ (by simp [CRLF])) hread

/-- A header line with a blank behind the colon. -/
def cseq : HeaderText where
  name := "CSeq".toList
  blanks := [' ']
  value := ['7']
  noColon := by simp
  noEol := noEol_of_all (by decide)
  blank := by simp
  notBlank := by simp

def contentLength : HeaderText where
  name := "Content-Length".toList
  blanks := [' ']
  value := ['2']
  noColon := by simp
  noEol := noEol_of_all (by decide)
  blank := by simp
  notBlank := by simp

/-- A message with two headers and a body. -/
def setParameter : MsgText where
  startLine := "SET_PARAMETER * RTSP/1.0".toList
  headers := [cseq, contentLength]
  body := "hi".toList
  noEol := noEol_of_all (by decide)
  known := ⟨"SET_PARAMETER".toList, by simp [startWords, RtspUtil.myMethods], by decide⟩
  digitsOnly v hv := by
    obtain rfl : ['2'] = v := Option.some.inj hv
    exact ⟨by simp, by simp⟩
  length := by decide

theorem fits_cseq : cseq.Fits := by
  have hname : firstWord cseq.name = cseq.name := by decide
  exact ⟨ascii_of_all (by decide), congrArg _ hname, fun _ => by decide⟩

theorem fits_contentLength : contentLength.Fits := by
  have hname : firstWord contentLength.name = contentLength.name := by decide
  exact ⟨ascii_of_all (by decide), congrArg _ hname, fun _ => by decide⟩

theorem fits_setParameter : setParameter.Fits := by
  refine ⟨ascii_of_all (by decide), ?_⟩
  exact List.forall_mem_cons.mpr ⟨fits_cseq, List.forall_mem_singleton.mpr fits_contentLength⟩

theorem readAll_framed_setParameter :
    (∃ msgs, List.Forall₂ Framed [setParameter] msgs ∧
        ({} : RtspTcpBuffer).readAll [setParameter.startLine, setParameter.behind] =
          ({ mySavedRtspMsg := none, myRecvFifo := msgs }, none)) ∧
      ∀ before after, [setParameter.startLine, setParameter.behind] = before ++ after → ∃ done rest pending buffer,
        [setParameter] = done ++ rest ∧ before.flatten = texts done ++ pending ∧
        ({} : RtspTcpBuffer).readAll before = (buffer, none) ∧ Arrived done rest pending buffer := by
  refine readAll_framed 1024 (by decide) (by simpa using fits_setParameter) ?_ ?_ ?_
  · rw [List.forall_mem_cons, List.forall_mem_singleton]
    exact ⟨⟨by decide, by decide⟩, ⟨by decide, by decide⟩⟩
  · simp [texts, MsgText.text]
  · intro before read after heq
    cases before with
    | nil =>
      obtain ⟨rfl, -⟩ := List.cons.inj heq
      exact .inr ⟨[], setParameter, [], rfl, List.nil_prefix, by simp [texts]⟩
    | cons part before =>
      obtain ⟨hpart, hrest⟩ := List.cons.inj heq
      cases before with
      | nil =>
        obtain ⟨hread, -⟩ := List.cons.inj hrest
        rw [← hpart, ← hread]
        exact .inl ⟨[setParameter], [], rfl, by simp [texts, MsgText.text]⟩
      | cons part' before => simp at hrest

theorem not_readAll_framed : ¬ ∀ size : Nat, size < 2 ^ 31 → ∀ (ms : List MsgText) (reads : List Data),
    (∀ read ∈ reads, read ≠ [] ∧ read.length ≤ size) → reads.flatten = texts ms →
    ∃ msgs, List.Forall₂ Framed ms msgs ∧
      ({} : RtspTcpBuffer).readAll reads = ({ mySavedRtspMsg := none, myRecvFifo := msgs }, none) := by
  intro h
  obtain ⟨msgs, -, hrun⟩ := h 1024 (by decide) [setParameter]
    [setParameter.startLine ++ CRLF, headerLines setParameter.headers ++ (CRLF ++ setParameter.body)]
    (by rw [List.forall_mem_cons, List.forall_mem_singleton]; exact ⟨⟨by decide, by decide⟩, ⟨by decide, by decide⟩⟩)
    (by simp [texts, MsgText.text, MsgText.behind])
  rw [readAll, readTcpData_startLine fits_setParameter] at hrun
  cases hrun

end RtspTcpBuffer

end Vocal.Rtsp
