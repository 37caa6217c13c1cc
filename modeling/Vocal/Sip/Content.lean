import Vocal.Sip.Content.Headers

/-!
# The content of a message

`SipContentDataContainer` holds the body of a message: the text as it was received, and the list of its
parts once it is parsed. Several parts are written and read as a multipart body. Parts and headers are
values here; an operation that throws, fails an assertion or has no defined behaviour gives no result.
-/

namespace Vocal.Sip

/-- The classes derived from `SipContentData`. -/
inductive ContentKind
  | SipSdp
  | SipIsup
  | SipOsp
  | SipTextData
  | SipFragData
  | SipUnknownContentData
  deriving DecidableEq, Repr

/-- `SipContentData`, with the text that `encodeBody` writes. -/
structure SipContentData where
  kind : ContentKind
  body : Data
  contentType : Option SipContentType
  contentLength : Option SipContentLength := none
  contentDisposition : Option SipContentDisposition := none
  deriving DecidableEq, Repr

namespace SipContentData

def encodeHeaders (p : SipContentData) : Data :=
  (p.contentType.map (·.encode)).getD [] ++ (p.contentLength.map (·.encode)).getD [] ++
    (p.contentDisposition.map (·.encode)).getD []

/-- Whether `encodeBody` of the class stores the length of the body in its own header. -/
def storesLength : ContentKind → Bool
  | .SipSdp | .SipIsup | .SipOsp => true
  | _ => false

/-- The part after `encodeBody`. -/
def afterEncodeBody (p : SipContentData) : SipContentData :=
  if storesLength p.kind then { p with contentLength := p.contentLength.map fun _ => .setLength p.body.length }
  else p

end SipContentData

structure SipContentDataContainer where
  contentType : SipContentType := {}
  contentLength : SipContentLength := {}
  contentDisposition : SipContentDisposition := {}
  mimeDataList : List SipContentData := []
  mimeData : Data := []
  isParsed : Bool := false
  actualBoundary : Data := []
  deriving DecidableEq, Repr

namespace SipContentDataContainer

/-- `SipContentDataContainer::decode` of a new container. -/
def decode (data : Data) (contLength : SipContentLength) (contType : SipContentType)
    (contDisp : SipContentDisposition) : SipContentDataContainer :=
  { contentLength := contLength, contentType := contType, contentDisposition := contDisp, mimeData := data }

/-! ### Encoding -/

/-- `"--"`, the boundary and a line end. -/
def boundaryLine (boundary : Data) : Data := "--".toList ++ boundary ++ CRLF

/-- The text of the parts. -/
def encodeParts (boundary : Data) (parts : List SipContentData) : Data :=
  parts.flatMap fun p => boundaryLine boundary ++ p.encodeHeaders ++ CRLF ++ p.body

/-- Whether `encode` writes the list of parts, not the text that was received. -/
def writesList (c : SipContentDataContainer) : Bool := c.isParsed || !c.mimeDataList.isEmpty

/-- The text that `encode` writes after the empty line. -/
def content (c : SipContentDataContainer) : Data :=
  if c.writesList then
    if c.mimeDataList.length > 1 then
      encodeParts c.actualBoundary c.mimeDataList ++ boundaryLine c.actualBoundary
    else
      match c.mimeDataList with
      | [] => []
      | p :: _ => p.body
  else c.mimeData

/-- The number that `encode` stores: the lengths of the bodies, without what stands between them. -/
def bodiesLength (c : SipContentDataContainer) : Nat := (c.mimeDataList.map (·.body.length)).sum

/-- `SipContentDataContainer::encode`: the text, and the container that it leaves. -/
def encode (c : SipContentDataContainer) : Data × SipContentDataContainer :=
  (CRLF ++ c.content,
    if c.writesList then
      { c with
        mimeDataList := c.mimeDataList.map (·.afterEncodeBody)
        contentLength := .setLength c.bodiesLength }
    else c)

/-- `SipContentDataContainer::getContentType`, with the container that it leaves. -/
def getContentType (c : SipContentDataContainer) : Option SipContentDataContainer :=
  if c.isParsed then
    if c.actualBoundary ≠ [] then
      let ct := c.contentType.setTokenDetails "boundary".toList c.actualBoundary
      some { c with
        contentType :=
          if ct.type ≠ "multipart".toList then (ct.setType "multipart".toList).setSubType "mixed".toList
          else ct }
    else
      match c.mimeDataList with
      | [] =>
        some { c with
          contentType := ((c.contentType.setType []).setSubType []).clearToken "boundary".toList }
      | p :: _ =>
        -- a part without a content type is a null pointer here
        p.contentType.map fun ct =>
          { c with
            contentType :=
              ((c.contentType.setType ct.type).setSubType ct.subtype).clearToken "boundary".toList }
  else some c

/-! ### Parsing -/

section Parsing

variable (strict : Bool)
  -- what an SDP body is written as once it is parsed
  (sdp : Data → Option Data)

/-- The headers found in front of a part. -/
structure PartHeaders where
  contentType : Option SipContentType := none
  contentLength : Option SipContentLength := none
  contentDisposition : Option SipContentDisposition := none

/-- `parseSingleMime`: the part, if there is one. -/
def parseSingleMime (singleMimeData : Data) (h : PartHeaders) : Option (Option SipContentData) :=
  let subType := (h.contentType.map (·.subtype)).getD "plain".toList
  let part (kind : ContentKind) (body : Data) (type : Data) : SipContentData :=
    { kind, body, contentType := some (h.contentType.getD (.ofTypes "application".toList type))
      contentLength := h.contentLength, contentDisposition := h.contentDisposition }
  if isEqualNoCase subType "SDP".toList then
    (sdp singleMimeData).map fun body => some (part .SipSdp body "sdp".toList)
  else if isEqualNoCase subType "ISUP".toList then some (some (part .SipIsup singleMimeData "isup".toList))
  else if isEqualNoCase subType "OSP".toList then some (some (part .SipOsp singleMimeData "osp".toList))
  -- if length is 0, ignore
  else if singleMimeData ≠ [] then
    some (some (part .SipUnknownContentData singleMimeData "unknown".toList))
  else some none

/-- A header line in front of a part. -/
def parsePartHeader (h : PartHeaders) (nextLine : Data) : Option PartHeaders :=
  let (headerName, headerValue) := (nextLine.parse SipRawHeader.nameEnd).getD ([], nextLine)
  match headerTypeDecode (str2lower headerName) with
  | .SIP_CONTENT_TYPE_HDR =>
    (SipContentType.decode strict headerValue).map fun ct => { h with contentType := some ct }
  | .SIP_CONTENT_LENGTH_HDR => some { h with contentLength := some ⟨headerValue⟩ }
  | .SIP_CONTENT_DISPOSITION_HDR =>
    (SipContentDisposition.decode strict headerValue).map fun cd => { h with contentDisposition := some cd }
  | _ => some h

/-- The header lines in front of a part, and the text after them; every turn takes a line off. -/
def parsePartHeaders : Nat → PartHeaders → Data → Option (PartHeaders × Data)
  | 0, h, singleMimeData => some (h, singleMimeData)
  | fuel + 1, h, singleMimeData =>
    match singleMimeData.getLine with
    | none => some (h, singleMimeData)
    | some (nextLine, rest) =>
      if nextLine = [] then some (h, rest)
      else (parsePartHeader strict h nextLine).bind fun h => parsePartHeaders fuel h rest

/-- A part with its headers. -/
def parsePart (singleMimeData : Data) : Option (Option SipContentData) :=
  (parsePartHeaders strict (singleMimeData.length + 1) {} singleMimeData).bind fun (h, rest) =>
    parseSingleMime sdp rest h

/-- The loop of `parseMultiMime`: whether it succeeds, the list and the text that is left; every turn
takes a part off the text. -/
def parseMultiMimeLoop (boundary : Data) :
    Nat → List SipContentData → Data → Option (Bool × List SipContentData × Data)
  | 0, mimeDataList, mimeData => some (true, mimeDataList, mimeData)
  | fuel + 1, mimeDataList, mimeData =>
    if mimeData = [] then some (true, mimeDataList, mimeData)
    else
      match Data.«match» mimeData (boundary ++ CRLF) with
      | .NOT_FOUND => some (false, mimeDataList, mimeData)
      | .FIRST rest => some (false, mimeDataList, rest)
      | .FOUND singleMimeData rest =>
        (parsePart strict sdp singleMimeData).bind fun part =>
          parseMultiMimeLoop boundary fuel (mimeDataList ++ part.toList) rest

/-- `parseMultiMime`. -/
def parseMultiMime (boundary : Data) (c : SipContentDataContainer) : Option (Bool × SipContentDataContainer) :=
  match c.mimeData.getLine with
  | none => some (false, c)
  | some (mimeBoundary, rest) =>
    if mimeBoundary ≠ boundary then some (false, { c with mimeData := rest })
    else
      (parseMultiMimeLoop strict sdp boundary (rest.length + 1) c.mimeDataList rest).map
        fun (success, mimeDataList, mimeData) => (success, { c with mimeDataList, mimeData })

/-- `SipContentDataContainer::parse`: whether it succeeds, and the container. -/
def parse (c : SipContentDataContainer) : Option (Bool × SipContentDataContainer) :=
  (if c.contentType.type = "multipart".toList then
    let boundary := c.contentType.myParamList.getValue "boundary".toList
    if boundary ≠ [] then
      parseMultiMime strict sdp ("--".toList ++ boundary)
        { c with actualBoundary := "--".toList ++ boundary }
    else some (false, c)
  else
    (parseSingleMime sdp c.mimeData
      ⟨some c.contentType, some c.contentLength, some c.contentDisposition⟩).map
      fun part => (true, { c with mimeDataList := c.mimeDataList ++ part.toList })).map
    fun (success, c) => (success, { c with isParsed := true })

/-- The parse that the operations on the list start with. -/
def parseOnce (c : SipContentDataContainer) : Option SipContentDataContainer :=
  if c.isParsed then some c else (parse strict sdp c).map (·.2)

/-! ### Operations on the list -/

/-- `setContentData`; an index outside the list leaves it as it is. -/
def setContentData (c : SipContentDataContainer) (contData : SipContentData) (index : Int) :
    Option SipContentDataContainer :=
  (parseOnce strict sdp c).map fun c =>
    let mimeDataList :=
      if index = -1 then c.mimeDataList ++ [contData]
      else if 0 ≤ index ∧ index ≤ c.mimeDataList.length then
        c.mimeDataList.insertIdx index.toNat contData
      else c.mimeDataList
    { c with
      mimeDataList
      actualBoundary :=
        if mimeDataList.length = 2 ∧ c.actualBoundary = [] then "unique-boundary-1".toList
        else c.actualBoundary }

/-- `removeContentData`; there is nothing to take off the end of an empty list. -/
def removeContentData (c : SipContentDataContainer) (index : Int) : Option SipContentDataContainer :=
  (parseOnce strict sdp c).bind fun c =>
    (if index = -1 then
      if c.mimeDataList = [] then none else some c.mimeDataList.dropLast
    else if 0 ≤ index ∧ index ≤ c.mimeDataList.length then some (c.mimeDataList.eraseIdx index.toNat)
    else some c.mimeDataList).map fun mimeDataList =>
      { c with
        mimeDataList
        actualBoundary := if mimeDataList.length = 1 then [] else c.actualBoundary }

/-- `setNumContentData`. -/
def setNumContentData (c : SipContentDataContainer) (index : Nat) : Option SipContentDataContainer :=
  (parseOnce strict sdp c).map fun c => { c with mimeDataList := c.mimeDataList.take index }

/-- `forceParse`. -/
def forceParse (c : SipContentDataContainer) : Option SipContentDataContainer :=
  (parse strict sdp c).map (·.2)

end Parsing

end SipContentDataContainer

/-! ### Messages -/

/-- What `SipMsg::encodeBody` writes: the text of the headers of each type and the content. -/
structure EncodedMsg where
  headers : SipHeaderType → Data
  content : Data

namespace EncodedMsg

def text (e : EncodedMsg) : Data := sipHeaderOutputOrder.flatMap e.headers ++ CRLF ++ e.content

end EncodedMsg

/-- `SipMsg::encodeBody`, where `headers` is what the other headers are written as; with the container
that it leaves. -/
def SipContentDataContainer.encodeBody (headers : SipHeaderType → Data) (c : SipContentDataContainer) :
    Option (EncodedMsg × SipContentDataContainer) :=
  let c' := c.encode.2
  c'.getContentType.map fun c'' =>
    ({ content := c.content
       headers := fun type =>
         if type = .SIP_CONTENT_LENGTH_HDR then c'.contentLength.encode
         else if type = .SIP_CONTENT_TYPE_HDR then c''.contentType.encode
         else if type = .SIP_CONTENT_DISPOSITION_HDR then c''.contentDisposition.encode
         else headers type },
      c'')

end Vocal.Sip
