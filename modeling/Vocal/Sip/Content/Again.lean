import Vocal.Sip.Content.Length

/-!
# Content that is parsed again

The accessors of the list of parts parse the body unless this was done; `forceParse` parses it every time.
`contentList_kept_iff` says which requests leave the list as the first parse left it. A request that throws an exception
leaves the parts in front of the one that could not be read.
-/

namespace Vocal.Sip.SipContentDataContainer

variable (strict : Bool) (sdp : Data → Option Data)

/-! ### Requests -/

/-- The requests to parse a body. -/
inductive Request
  /-- `getNumContentData` and `getContentData`. -/
  | accessor
  | forceParse

/-- The loop of `parseMultiMime`: the list and the text that it leaves, also where a part throws an exception. -/
def multiMimeLeft (boundary : Data) : Nat → List SipContentData → Data → List SipContentData × Data
  | 0, mimeDataList, mimeData => (mimeDataList, mimeData)
  | fuel + 1, mimeDataList, mimeData =>
    if mimeData = [] then (mimeDataList, mimeData)
    else
      match Data.«match» mimeData (boundary ++ CRLF) with
      | .NOT_FOUND => (mimeDataList, mimeData)
      | .FIRST rest => (mimeDataList, rest)
      | .FOUND singleMimeData rest =>
        match parsePart strict sdp singleMimeData with
        | none => (mimeDataList, rest)
        | some part => multiMimeLeft boundary fuel (mimeDataList ++ part.toList) rest

/-- What `parse` leaves when it throws an exception. -/
def thrown (c : SipContentDataContainer) : SipContentDataContainer :=
  if c.contentType.type = "multipart".toList then
    let boundary := "--".toList ++ c.contentType.myParamList.getValue "boundary".toList
    match c.mimeData.getLine with
    | none => c
    | some (_, rest) =>
      let (mimeDataList, mimeData) := multiMimeLeft strict sdp boundary (rest.length + 1) c.mimeDataList rest
      { c with actualBoundary := boundary, mimeDataList, mimeData }
  else c

/-- What `parse` leaves. -/
def parseLeft (c : SipContentDataContainer) : SipContentDataContainer :=
  match parse strict sdp c with
  | some (_, c') => c'
  | none => thrown strict sdp c

def request (c : SipContentDataContainer) : Request → SipContentDataContainer
  | .accessor => if c.isParsed then c else parseLeft strict sdp c
  | .forceParse => parseLeft strict sdp c

/-- The content after requests. -/
def requested (c : SipContentDataContainer) (requests : List Request) : SipContentDataContainer :=
  requests.foldl (request strict sdp) c

/-! ### Bodies with parts -/

/-- A body that is a part: one of a class of its own, or any that is not empty. -/
def IsPart (h : PartHeaders) (body : Data) : Prop :=
  let subType := (h.contentType.map (·.subtype)).getD "plain".toList
  if isEqualNoCase subType "SDP".toList then sdp body ≠ none
  else isEqualNoCase subType "ISUP".toList ∨ isEqualNoCase subType "OSP".toList ∨ body ≠ []

/-- The texts in front of the boundary lines. -/
def pieces (boundary : Data) : Nat → Data → List Data
  | 0, _ => []
  | fuel + 1, mimeData =>
    if mimeData = [] then []
    else
      match Data.«match» mimeData (boundary ++ CRLF) with
      | .FOUND singleMimeData rest => singleMimeData :: pieces boundary fuel rest
      | _ => []

/-- A text between boundary lines with a part behind its headers. -/
def HasPart (piece : Data) : Prop :=
  ∃ h rest, parsePartHeaders strict (piece.length + 1) {} piece = some (h, rest) ∧ IsPart sdp h rest

/-- One of the texts has a part, and none before it throws an exception. -/
def SomeHasPart (found : List Data) : Prop :=
  ∃ before piece after, found = before ++ piece :: after ∧ (∀ p ∈ before, parsePart strict sdp p ≠ none) ∧
    HasPart strict sdp piece

/-- The text that is left has a part: it is not multipart and is one, or it begins with the boundary line again and
there is one between those that follow. -/
def PartIsLeft (c : SipContentDataContainer) : Prop :=
  if c.contentType.type = "multipart".toList then
    let boundary := c.contentType.myParamList.getValue "boundary".toList
    boundary ≠ [] ∧ ∃ rest, c.mimeData.getLine = some ("--".toList ++ boundary, rest) ∧
      SomeHasPart strict sdp (pieces ("--".toList ++ boundary) (rest.length + 1) rest)
  else IsPart sdp ⟨some c.contentType, some c.contentLength, some c.contentDisposition⟩ c.mimeData

variable {strict sdp} {c c' : SipContentDataContainer} {boundary piece : Data} {found : List Data}

theorem parseSingleMime_iff {h : PartHeaders} {body : Data} :
    (∃ p, parseSingleMime sdp body h = some (some p)) ↔ IsPart sdp h body := by
  unfold parseSingleMime IsPart
  dsimp only
  split_ifs with hsdp hisup hosp hbody
  · cases hread : sdp body <;> simp
  · exact iff_of_true ⟨_, rfl⟩ (Or.inl hisup)
  · exact iff_of_true ⟨_, rfl⟩ (Or.inr (Or.inl hosp))
  · exact iff_of_true ⟨_, rfl⟩ (Or.inr (Or.inr hbody))
  · have hnone : ¬ ∃ p : SipContentData, (some none : Option (Option SipContentData)) = some (some p) := by
      rintro ⟨p, hp⟩
      cases hp
    refine iff_of_false hnone ?_
    rintro (h | h | h)
    · exact hisup h
    · exact hosp h
    · exact hbody h

theorem parsePart_iff : (∃ p, parsePart strict sdp piece = some (some p)) ↔ HasPart strict sdp piece := by
  unfold parsePart HasPart
  constructor
  · rintro ⟨p, hp⟩
    obtain ⟨⟨h, rest⟩, hheaders, hbody⟩ := Option.bind_eq_some_iff.mp hp
    exact ⟨h, rest, hheaders, parseSingleMime_iff.mp ⟨p, hbody⟩⟩
  · rintro ⟨h, rest, hheaders, hpart⟩
    obtain ⟨p, hp⟩ := parseSingleMime_iff.mpr hpart
    exact ⟨p, Option.bind_eq_some_iff.mpr ⟨(h, rest), hheaders, hp⟩⟩

theorem not_someHasPart_nil : ¬ SomeHasPart strict sdp [] := by
  rintro ⟨before, piece, after, hfound, -⟩
  simp at hfound

theorem someHasPart_cons :
    SomeHasPart strict sdp (piece :: found) ↔
      HasPart strict sdp piece ∨ parsePart strict sdp piece ≠ none ∧ SomeHasPart strict sdp found := by
  constructor
  · rintro ⟨before, p, after, hfound, hbefore, hp⟩
    cases before with
    | nil =>
      obtain ⟨rfl, -⟩ := List.cons.inj hfound
      exact Or.inl hp
    | cons b before =>
      obtain ⟨rfl, hmore⟩ := List.cons.inj hfound
      exact Or.inr ⟨hbefore _ (List.mem_cons_self ..), before, p, after, hmore,
        fun q hq => hbefore q (List.mem_cons_of_mem _ hq), hp⟩
  · rintro (hp | ⟨hread, before, p, after, rfl, hbefore, hp⟩)
    · exact ⟨[], piece, found, rfl, fun _ hq => (List.not_mem_nil hq).elim, hp⟩
    · refine ⟨piece :: before, p, after, rfl, fun q hq => ?_, hp⟩
      rcases List.mem_cons.mp hq with rfl | hq
      · exact hread
      · exact hbefore q hq

/-! ### What a parse leaves -/

theorem multiMimeLeft_of_loop {fuel : Nat} {l l' : List SipContentData} {d d' : Data} {success : Bool}
    (h : parseMultiMimeLoop strict sdp boundary fuel l d = some (success, l', d')) :
    multiMimeLeft strict sdp boundary fuel l d = (l', d') := by
  induction fuel generalizing l d with
  | zero =>
    cases h
    rfl
  | succ fuel ih =>
    rw [parseMultiMimeLoop] at h
    rw [multiMimeLeft]
    split_ifs at h ⊢ with hempty
    · cases h
      rfl
    · cases hmatch : Data.«match» d (boundary ++ CRLF) with
      | NOT_FOUND =>
        rw [hmatch] at h
        cases h
        rfl
      | FIRST rest =>
        rw [hmatch] at h
        cases h
        rfl
      | FOUND singleMimeData rest =>
        rw [hmatch] at h
        obtain ⟨part, hpart, hmore⟩ := Option.bind_eq_some_iff.mp h
        dsimp only
        rw [hpart]
        exact ih hmore

theorem prefix_multiMimeLeft (strict : Bool) (sdp : Data → Option Data) (boundary : Data) (fuel : Nat)
    (l : List SipContentData) (d : Data) :
    l <+: (multiMimeLeft strict sdp boundary fuel l d).1 := by
  induction fuel generalizing l d with
  | zero => exact List.prefix_rfl
  | succ fuel ih =>
    rw [multiMimeLeft]
    split_ifs with hempty
    · exact List.prefix_rfl
    · split
      · exact List.prefix_rfl
      · exact List.prefix_rfl
      · split
        · exact List.prefix_rfl
        · exact (List.prefix_append ..).trans (ih ..)

theorem multiMimeLeft_eq_iff (boundary : Data) (fuel : Nat) (l : List SipContentData) (d : Data) :
    (multiMimeLeft strict sdp boundary fuel l d).1 = l ↔ ¬ SomeHasPart strict sdp (pieces boundary fuel d) := by
  induction fuel generalizing d with
  | zero => exact iff_of_true rfl not_someHasPart_nil
  | succ fuel ih =>
    rw [multiMimeLeft, pieces]
    split_ifs with hempty
    · exact iff_of_true rfl not_someHasPart_nil
    · cases Data.«match» d (boundary ++ CRLF) with
      | NOT_FOUND => exact iff_of_true rfl not_someHasPart_nil
      | FIRST rest => exact iff_of_true rfl not_someHasPart_nil
      | FOUND singleMimeData rest =>
        dsimp only
        rw [someHasPart_cons, ← parsePart_iff]
        cases hpart : parsePart strict sdp singleMimeData with
        | none => simp
        | some part =>
          cases part with
          | none => simpa using ih rest
          | some p =>
            have hlonger := (prefix_multiMimeLeft strict sdp boundary fuel (l ++ [p]) rest).length_le
            refine iff_of_false (fun h => ?_) (fun h => h (Or.inl ⟨p, rfl⟩))
            have hsame : (multiMimeLeft strict sdp boundary fuel (l ++ [p]) rest).1 = l := h
            rw [hsame, List.length_append, List.length_singleton] at hlonger
            omega

theorem parseLeft_of_single (htype : c.contentType.type ≠ "multipart".toList) :
    (parseLeft strict sdp c).mimeDataList = c.mimeDataList ↔
      ¬ IsPart sdp ⟨some c.contentType, some c.contentLength, some c.contentDisposition⟩ c.mimeData := by
  rw [← parseSingleMime_iff]
  unfold parseLeft thrown parse
  rw [if_neg htype, if_neg htype]
  cases hpart : parseSingleMime sdp c.mimeData ⟨some c.contentType, some c.contentLength, some c.contentDisposition⟩ with
  | none => simp
  | some part => cases part <;> simp

theorem parseLeft_of_multi (htype : c.contentType.type = "multipart".toList)
    (hboundary : c.contentType.myParamList.getValue "boundary".toList = boundary) (hne : boundary ≠ []) {rest : Data}
    (hline : c.mimeData.getLine = some ("--".toList ++ boundary, rest)) :
    (parseLeft strict sdp c).mimeDataList =
      (multiMimeLeft strict sdp ("--".toList ++ boundary) (rest.length + 1) c.mimeDataList rest).1 := by
  unfold parseLeft thrown parse parseMultiMime
  rw [if_pos htype, if_pos htype]
  dsimp only
  rw [hboundary, if_pos hne, hline]
  dsimp only
  rw [if_neg (not_not.mpr rfl)]
  cases hloop : parseMultiMimeLoop strict sdp ("--".toList ++ boundary) (rest.length + 1) c.mimeDataList rest with
  | none => rfl
  | some r =>
    obtain ⟨success, l, d⟩ := r
    rw [multiMimeLeft_of_loop hloop]
    rfl

theorem parseLeft_of_unread (htype : c.contentType.type = "multipart".toList)
    (hline : c.contentType.myParamList.getValue "boundary".toList = [] ∨
      ∀ rest, c.mimeData.getLine ≠ some ("--".toList ++ c.contentType.myParamList.getValue "boundary".toList, rest)) :
    (parseLeft strict sdp c).mimeDataList = c.mimeDataList := by
  unfold parseLeft parse parseMultiMime
  rw [if_pos htype]
  dsimp only
  by_cases hne : c.contentType.myParamList.getValue "boundary".toList = []
  · rw [if_neg (not_not.mpr hne)]
    rfl
  · rw [if_pos hne]
    have hother := hline.resolve_left hne
    cases hget : c.mimeData.getLine with
    | none => rfl
    | some r =>
      obtain ⟨mimeBoundary, rest⟩ := r
      have hdiffer : mimeBoundary ≠ "--".toList ++ c.contentType.myParamList.getValue "boundary".toList := by
        rintro rfl
        exact hother rest hget
      dsimp only
      rw [if_pos hdiffer]
      rfl

/-- A parse adds nothing to the list if and only if no part is left. -/
theorem mimeDataList_parseLeft_eq_iff :
    (parseLeft strict sdp c).mimeDataList = c.mimeDataList ↔ ¬ PartIsLeft strict sdp c := by
  unfold PartIsLeft
  by_cases htype : c.contentType.type = "multipart".toList
  · rw [if_pos htype]
    dsimp only
    by_cases hline : c.contentType.myParamList.getValue "boundary".toList ≠ [] ∧
        ∃ rest, c.mimeData.getLine = some ("--".toList ++ c.contentType.myParamList.getValue "boundary".toList, rest)
    · obtain ⟨hne, rest, hget⟩ := hline
      rw [parseLeft_of_multi htype rfl hne hget, multiMimeLeft_eq_iff]
      refine not_congr ⟨fun h => ⟨hne, rest, hget, h⟩, ?_⟩
      rintro ⟨-, rest', hget', h⟩
      rw [hget] at hget'
      cases hget'
      exact h
    · rw [not_and_or, not_not, not_exists] at hline
      refine iff_of_true (parseLeft_of_unread htype hline) ?_
      rintro ⟨hne, rest, hget, -⟩
      rcases hline with hempty | hother
      · exact hne hempty
      · exact hother rest hget
  · rw [if_neg htype]
    exact parseLeft_of_single htype

/-! ### Runs -/

theorem isParsed_parseLeft (h : c.isParsed = true) : (parseLeft strict sdp c).isParsed = true := by
  unfold parseLeft
  cases hparse : parse strict sdp c with
  | some r => exact parse_isParsed hparse
  | none =>
    unfold thrown
    dsimp only
    split_ifs
    · cases c.mimeData.getLine with
      | none => exact h
      | some r => exact h
    · exact h

theorem isParsed_request (h : c.isParsed = true) (r : Request) : (request strict sdp c r).isParsed = true := by
  cases r with
  | accessor =>
    rw [request, if_pos h]
    exact h
  | forceParse => exact isParsed_parseLeft h

theorem requested_concat (requests : List Request) (r : Request) :
    requested strict sdp c (requests ++ [r]) = request strict sdp (requested strict sdp c requests) r := by
  rw [requested, List.foldl_append]
  rfl

theorem isParsed_requested (h : c.isParsed = true) (requests : List Request) :
    (requested strict sdp c requests).isParsed = true := by
  induction requests using List.reverseRecOn with
  | nil => exact h
  | append_singleton requests r ih =>
    rw [requested_concat]
    exact isParsed_request ih r

/-- Once an operation has parsed the body, all requests leave the list as it is if and only if no `forceParse` comes
when a part is left. -/
theorem contentList_kept_iff {headers : SipHeaderType → Data} {op : Op} (hop : op ≠ .encodeBody)
    (h : step strict sdp headers c op = some c') (requests : List Request) :
    (∀ before, before <+: requests → (requested strict sdp c' before).mimeDataList = c'.mimeDataList) ↔
      ∀ before, before ++ [.forceParse] <+: requests → ¬ PartIsLeft strict sdp (requested strict sdp c' before) := by
  have hparsed := isParsed_of_step hop h
  constructor
  · intro hkept before hbefore
    have hnow := hkept before ((List.prefix_append ..).trans hbefore)
    have hnext := hkept (before ++ [.forceParse]) hbefore
    rw [requested_concat, ← hnow] at hnext
    exact mimeDataList_parseLeft_eq_iff.mp hnext
  · intro hnone before
    induction before using List.reverseRecOn with
    | nil => exact fun _ => rfl
    | append_singleton before r ih =>
      intro hbefore
      rw [requested_concat, ← ih ((List.prefix_append ..).trans hbefore)]
      cases r with
      | accessor => rw [request, if_pos (isParsed_requested hparsed before)]
      | forceParse => exact mimeDataList_parseLeft_eq_iff.mpr (hnone before hbefore)

/-- The content of a message with a text of two letters, as it is received. -/
def text : SipContentDataContainer := decode "hi".toList ⟨"2".toList⟩ (.ofTypes "text".toList "plain".toList) {}

theorem contentList_kept_iff_text : ∃ c', step true some (fun _ => []) text .getContentData = some c' ∧
    ((∀ before, before <+: [.accessor, .forceParse] →
      (requested true some c' before).mimeDataList = c'.mimeDataList) ↔
      ∀ before, before ++ [.forceParse] <+: [.accessor, .forceParse] →
        ¬ PartIsLeft true some (requested true some c' before)) :=
  ⟨_, rfl, @contentList_kept_iff true some text _ (fun _ => []) .getContentData (fun h => by cases h) rfl _⟩

/-- The text is stored a second time. -/
theorem forceParse_adds_again : ∃ c', step true some (fun _ => []) text .getContentData = some c' ∧
    c'.mimeDataList.length = 1 ∧ (requested true some c' [.forceParse]).mimeDataList.length = 2 :=
  ⟨_, rfl, rfl, rfl⟩

end Vocal.Sip.SipContentDataContainer
