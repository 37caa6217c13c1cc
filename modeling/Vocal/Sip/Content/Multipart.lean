import Vocal.Sip.Content.Types

/-!
# Multipart bodies

Several parts are written one after the other, each after a boundary line, and read back by searching
for that line. `roundTrips_of_sendable` says when the parts that are read are those that were written.
-/

namespace Vocal.Sip

open Cut

/-! ### Finding a line -/

namespace SipContentDataContainer

variable {strict : Bool} {sdp : Data → Option Data}

/-- The subtypes whose bodies are parsed even when they are empty. -/
def isSpecial (subtype : Data) : Bool :=
  isEqualNoCase subtype "SDP".toList || isEqualNoCase subtype "ISUP".toList ||
    isEqualNoCase subtype "OSP".toList

/-- A part that comes back from the text that is written for it. -/
structure PartOk (strict : Bool) (sdp : Data → Option Data) (boundary : Data) (p : SipContentData) : Prop where
  contentType : ∃ ct, p.contentType = some ct ∧ ct.Plain
  contentDisposition : strict = true → ∀ cd ∈ p.contentDisposition, cd.headerLines ≠ [] → cd.Plain
  lines : ∀ l ∈ p.headerLines, '\n' ∉ l
  boundary : ¬boundaryLine boundary <:+: p.encodeHeaders ++ CRLF
  /-- Only an SDP, ISUP or OSP body may be empty. -/
  nonempty : (p.contentType.any fun ct => isSpecial ct.subtype) = false → p.body ≠ []
  /-- An SDP body is written as it was read. -/
  sdp : (p.contentType.any fun ct => isEqualNoCase ct.subtype "SDP".toList) = true →
    sdp p.body = some p.body

/-- What is compared of a part. -/
def view (p : SipContentData) : Option SipContentType × Data := (p.contentType, p.body)

/-- The parts that are read from an encoded message, with the content type that it carries. -/
def roundTrip (strict : Bool) (sdp : Data → Option Data) (headers : SipHeaderType → Data)
    (c : SipContentDataContainer) : Option (List SipContentData) :=
  (c.encodeBody headers).bind fun (e, c') =>
    (SipContentType.read strict (e.headers .SIP_CONTENT_TYPE_HDR)).bind fun contType =>
      (parse strict sdp (decode e.content c'.contentLength contType c'.contentDisposition)).map
        (·.2.mimeDataList)

/-- As many parts are read, in the same order, with the same content types and bodies. -/
def RoundTrips (strict : Bool) (sdp : Data → Option Data) (headers : SipHeaderType → Data)
    (c : SipContentDataContainer) : Prop :=
  (roundTrip strict sdp headers c).map (·.map view) = some (c.mimeDataList.map view)

/-- The content type that several parts are sent with. -/
def multipartType (c : SipContentDataContainer) : SipContentType :=
  let ct := c.contentType.setTokenDetails "boundary".toList c.actualBoundary
  if ct.type ≠ "multipart".toList then (ct.setType "multipart".toList).setSubType "mixed".toList else ct

/-- Several parts whose bodies do not contain the boundary line, with content types as `decode` leaves them. -/
structure Sendable (strict : Bool) (sdp : Data → Option Data) (c : SipContentDataContainer) : Prop where
  many : 2 ≤ c.mimeDataList.length
  bodies : ∀ p ∈ c.mimeDataList, ¬boundaryLine c.actualBoundary <:+: p.body
  isParsed : c.isParsed = true
  boundary : c.actualBoundary ≠ [] ∧ '\n' ∉ c.actualBoundary
  /-- The content type of the message, with the boundary. -/
  header : c.multipartType.Plain
  parts : ∀ p ∈ c.mimeDataList, PartOk strict sdp c.actualBoundary p

variable {headers : SipHeaderType → Data} {c : SipContentDataContainer}

theorem Sendable.encodeBody (h : Sendable strict sdp c) (headers : SipHeaderType → Data) :
    ∃ e c', c.encodeBody headers = some (e, c') ∧ e.content = c.content ∧
      e.headers .SIP_CONTENT_TYPE_HDR = c.multipartType.encode := by
  have hwrites : c.writesList = true := by rw [writesList, h.isParsed, Bool.true_or]
  have henc : c.encode.2 =
      { c with
        mimeDataList := c.mimeDataList.map (·.afterEncodeBody)
        contentLength := .setLength c.bodiesLength } := if_pos hwrites
  have htype : c.encode.2.getContentType = some { c.encode.2 with contentType := c.multipartType } := by
    rw [henc, getContentType, if_pos h.isParsed, if_pos h.boundary.1]
    rfl
  rw [SipContentDataContainer.encodeBody, htype]
  exact ⟨_, _, rfl, rfl, rfl⟩

def textPart (body : Data) : SipContentData :=
  { kind := .SipTextData, body, contentType := some (.ofTypes "text".toList "plain".toList) }

/-- The container of a new message after `setContentData` of several texts. -/
def texts (bodies : List Data) : SipContentDataContainer :=
  { mimeDataList := bodies.map textPart, isParsed := true, actualBoundary := "unique-boundary-1".toList }

end SipContentDataContainer

end Vocal.Sip
