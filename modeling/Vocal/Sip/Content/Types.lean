import Vocal.Sip.Content
import Vocal.Sip.ParameterList.RoundTrip
import Vocal.Sip.RawHeader.RoundTrip

/-!
# Content headers that are written and read

A content type comes back from the line that is written for it if it has the form in which `decode` leaves one and no
colon in its text: `SipContentType.decode_value`. Of a disposition it is enough that its line is accepted.
-/

namespace Vocal.Sip

open Cut

theorem match_crlf {d : Data} (hd : '\n' ∉ d) : Data.«match» d CRLF = .NOT_FOUND := by
  rw [Data.«match», find_eq_none (a := '\n') (by decide) hd]

theorem dropLead_append {x : Data} (hne : x ≠ []) (h : SipRawHeader.dropLead x = x) (y : Data) :
    SipRawHeader.dropLead (x ++ y) = x ++ y := by
  obtain ⟨c, x, rfl⟩ := List.exists_cons_of_ne_nil hne
  rw [SipRawHeader.dropLead, List.dropWhile_eq_self_iff] at h
  have hc : ¬isIn c SipRawHeader.nameEnd = true := h (Nat.succ_pos _)
  exact List.dropWhile_cons_of_neg hc

/-! ### Parameters -/

/-- Parameters as `decode` stores them. The keys ascend; the values have quotes where they are written with quotes; and
all but the last are trimmed and have no open quote. -/
structure SipParameterList.Plain (l : SipParameterList) : Prop where
  ascending : l.Ascending
  keys : ∀ p ∈ l, p.1 ≠ []
  sound : ∀ p ∈ l, Sound ';' p
  quoted : ∀ p ∈ l, p.1 ∈ quotedKeys → p.2 = [] ∨ '"' ∈ p.2
  inner : ∀ before p, l = before ++ [p] → ∀ a ∈ before, Even (a.2.count '"') ∧ a.2.removeSpaces = a.2

theorem SipParameterList.Plain.nil : SipParameterList.Plain [] := by
  refine ⟨List.Pairwise.nil, by simp, by simp, by simp, fun before p h => ?_⟩
  simp at h

theorem SipParameterList.Plain.decode_eq {l : SipParameterList} (h : l.Plain) :
    SipParameterList.decode [] (' ' :: l.encode) = l := by
  have hdecode : SipParameterList.decode [] (' ' :: l.encode) = decodeWith ';' true (encodeWith ';' l) := by
    rw [SipParameterList.decode, decodeLoop, if_pos (by decide), decodeWith, decodeLoopWith_semicolon,
      encodeWith_semicolon]
  rw [hdecode]
  rcases List.eq_nil_or_concat l with rfl | ⟨before, p, rfl⟩
  · rfl
  · rw [List.concat_eq_append] at h ⊢
    have hinner := h.inner before p rfl
    rw [encodeWith_eq_joined h.keys, decodeWith_joined_eq_iff (Or.inl rfl)]
    · exact ⟨fun a ha => (hinner a ha).2, fun a ha => (written_eq_iff a).mpr (h.quoted a ha)⟩
    · exact fun a ha => (h.sound a (List.mem_append_left _ ha)).closed (hinner a ha).1
    · exact h.sound p (by simp)
    · exact h.keys p (by simp)
    · exact h.ascending

/-! ### Content-Type -/

namespace SipContentType

/-- A content type as `decode` leaves one, from which a line can be written that is read as it is: the text has no
colon and no line end. -/
structure Plain (ct : SipContentType) : Prop where
  line : ':' ∉ ct.value ∧ '\n' ∉ ct.value
  type : ct.type ≠ [] ∧ '/' ∉ ct.type
  typeLower : str2lower ct.type = ct.type
  typeTrimmed : ct.type.removeSpaces = ct.type ∧ SipRawHeader.dropLead ct.type = ct.type
  subtype : ';' ∉ ct.subtype ∧ (ct.myParamList ≠ [] → ct.subtype ≠ [])
  subtypeLower : str2lower ct.subtype = ct.subtype
  params : ct.myParamList.Plain

variable {ct : SipContentType}

theorem value_eq (ct : SipContentType) : ct.value =
    ct.type ++ '/' :: (ct.subtype ++ if ct.myParamList ≠ [] then "; ".toList ++ ct.myParamList.encode else []) := by
  rw [value, List.append_assoc, List.cons_append]

theorem Plain.scanSipContentType (h : ct.Plain) (strict : Bool) :
    scanSipContentType strict ct.value = some ct := by
  obtain ⟨hne, hslash⟩ := h.type
  obtain ⟨hsemicolon, hsubtype⟩ := h.subtype
  have hafter : afterColon ct.value = ct.value := by
    rw [afterColon, show ":".toList = [':'] from rfl, Data.match_not_found h.line.1]
  have htype : setType {} ct.type.removeSpaces = { type := ct.type } := by
    rw [h.typeTrimmed.1, setType, h.typeLower]
  rw [SipContentType.scanSipContentType, hafter, value_eq, show "/".toList = ['/'] from rfl, Data.match_found hslash hne]
  simp only [htype, show ";".toList = [';'] from rfl]
  by_cases hparams : ct.myParamList = []
  · rw [if_neg (not_not.mpr hparams), List.append_nil, Data.match_not_found hsemicolon]
    simp only [setSubType, h.subtypeLower, ← hparams]
  · have hsplit : ct.subtype ++ ("; ".toList ++ ct.myParamList.encode) =
        ct.subtype ++ ';' :: ' ' :: ct.myParamList.encode := rfl
    rw [if_pos hparams, hsplit, Data.match_found hsemicolon (hsubtype hparams)]
    simp only [setSubType, h.subtypeLower, h.params.decode_eq]

theorem Plain.decode_value (h : ct.Plain) (strict : Bool) :
    decode strict (SipRawHeader.dropLead ct.value) = some ct := by
  have hvalue : ct.value ≠ [] := by simp [value_eq]
  have hstart : SipRawHeader.dropLead ct.value = ct.value := by
    rw [value_eq]
    exact dropLead_append h.type.1 h.typeTrimmed.2 _
  rw [hstart, decode, if_neg hvalue, match_crlf h.line.2]
  exact h.scanSipContentType strict

/-- The lines that `encode` writes, for a value without line ends. -/
def headerLines (ct : SipContentType) : List Data :=
  if ct.type = [] then [] else ["Content-Type: ".toList ++ ct.value]

theorem encode_eq_lines (h : '\n' ∉ ct.value) : ct.encode = ct.headerLines.flatMap (· ++ CRLF) := by
  rw [encode, headerLines]
  split
  · rfl
  · have hnl : '\n' ∉ "Content-Type: ".toList ++ ct.value := by
      rw [List.mem_append, not_or]
      exact ⟨by decide, h⟩
    simp only [match_crlf hnl, List.flatMap_singleton]

/-- The header as a reader of the message finds it. -/
def read (strict : Bool) (text : Data) : Option SipContentType :=
  text.getLine.bind fun (line, _) =>
    (line.parse SipRawHeader.nameEnd).bind fun (_, headerValue) => decode strict headerValue

end SipContentType

/-! ### Content-Disposition -/

namespace SipContentDisposition

/-- The parameters that are written. -/
def pieces (cd : SipContentDisposition) : List Data :=
  (if cd.handleparm ≠ [] then [HANDLING_PARM ++ '=' :: cd.handleparm] else []) ++
    (if cd.attr ≠ [] ∧ cd.value ≠ [] then [cd.attr ++ '=' :: cd.value] else [])

/-- A disposition whose line is accepted. -/
structure Plain (cd : SipContentDisposition) : Prop where
  type : cd.dispositiontype ≠ [] ∧ ';' ∉ cd.dispositiontype ∧
    SipRawHeader.dropLead cd.dispositiontype = cd.dispositiontype
  handling : cd.handleparm ≠ [] →
    (isEqualNoCase cd.handleparm "required".toList || isEqualNoCase cd.handleparm "optional".toList) = true
  pieces : ∀ x ∈ cd.pieces, ';' ∉ x
  attr : '=' ∉ cd.attr ∧ isEqualNoCase cd.attr HANDLING_PARM = false

variable {strict : Bool} {cd : SipContentDisposition}

/-- What is written of a disposition. -/
def written (cd : SipContentDisposition) : Data := cd.dispositiontype ++ cd.pieces.flatMap (';' :: ·)

def headerLines (cd : SipContentDisposition) : List Data :=
  if cd.dispositiontype = [] ∧ cd.handleparm = [] ∧ cd.attr = [] then []
  else ["Content-Disposition: ".toList ++ cd.written]

theorem encode_eq_lines (cd : SipContentDisposition) : cd.encode = cd.headerLines.flatMap (· ++ CRLF) := by
  rw [encode, headerLines]
  split
  · rfl
  · unfold written pieces
    split_ifs <;> simp

end SipContentDisposition

/-! ### The headers of a part -/

def SipContentLength.headerLine (cl : SipContentLength) : Data := "Content-Length: ".toList ++ cl.number

namespace SipContentData

/-- The lines of the headers of a part. -/
def headerLines (p : SipContentData) : List Data :=
  (p.contentType.map (·.headerLines)).getD [] ++ (p.contentLength.map fun cl => [cl.headerLine]).getD [] ++
    (p.contentDisposition.map (·.headerLines)).getD []

end SipContentData

namespace SipContentDataContainer

variable {strict : Bool}

end SipContentDataContainer

end Vocal.Sip
