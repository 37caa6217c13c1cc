import Vocal.Sip.Content.Headers
import Vocal.Sip.From
import Vocal.Sip.Headers
import Vocal.Sip.Url.Key

/-!
# Classes of headers

The classes of headers that the functions on whole messages look into: `SipExpires`, `SipContact`,
`SipRecordRoute`, `SipRoute` and those of the content, each with its reader and its writer. The other classes
are a parameter. The readers are those of the strict mode, and give no result where the source throws.
-/

namespace Vocal.Sip

open Url (param)

/-! ### Expires -/

structure SipExpires where
  delta : Data := []
  deriving DecidableEq, Repr

namespace SipExpires

/-- `scanSipExpires`. -/
def decode (tmpdata : Data) : SipExpires := if tmpdata.all isdigit then ⟨tmpdata⟩ else ⟨"3600".toList⟩

def encode (e : SipExpires) : Data := if e.delta ≠ [] then "Expires: ".toList ++ e.delta ++ CRLF else []

end SipExpires

/-! ### Contact -/

/-- The parameters of a url as they are written in a Contact. -/
def Url.SipUrl.getUrlParam (u : Url.SipUrl) : Data :=
  param "transport".toList u.transportParam ++ param "ttl".toList u.ttlParam ++
    param "maddr".toList u.maddrParam ++ param "user".toList u.userParam ++
    param "method".toList u.methodParam ++ param u.otherName u.otherParam ++
    (match u.EscObj with | some e => '?' :: e | none => []) ++
    (if u.headers ≠ [] then '?' :: u.headers else [])

structure SipContact where
  url : Option Url.BaseUrl := none
  displayName : Data := []
  qValue : Data := []
  expires : SipExpires := {}
  bexpires : Bool := false
  wildCard : Bool := false
  myParameterList : SipParameterList := []
  deriving DecidableEq

namespace SipContact

/-- The parameters, of which two have a field of their own. -/
def scanContactParam (c : SipContact) (data : Data) : SipContact :=
  let list := c.myParameterList.decode data
  let c :=
    match list.find? (·.1 = "expires".toList) with
    | some i =>
      { c with expires := .decode i.2, bexpires := true, myParameterList := list.clearValue "expires".toList }
    | none => { c with myParameterList := list }
  match c.myParameterList.find? (·.1 = "q".toList) with
  | some i => { c with qValue := i.2, myParameterList := c.myParameterList.clearValue "q".toList }
  | none => c

def parse (tmpdata : Data) : Option SipContact :=
  match Data.match tmpdata ['<'] with
  | .NOT_FOUND =>
    match Data.match tmpdata [';'] with
    | .NOT_FOUND => (Url.BaseUrl.decode tmpdata).map fun url => { url := some url }
    | .FIRST _ => none
    | .FOUND value data => (Url.BaseUrl.decode value).map fun url => scanContactParam { url := some url } data
  | .FIRST data =>
    match Data.match data ['>'] with
    | .NOT_FOUND => some {}
    | .FIRST _ => none
    | .FOUND tempval data =>
      (Url.BaseUrl.decode tempval).map fun url =>
        match Data.match data [';'] with
        | .FIRST testdata => scanContactParam { url := some url } testdata
        | _ => { url := some url }
  | .FOUND sipdata data =>
    match Data.match data ['>'] with
    | .FOUND urlvalue data =>
      (Url.BaseUrl.decode urlvalue).bind fun url =>
        match Data.match data [';'] with
        | .NOT_FOUND => some { url := some url, displayName := sipdata }
        | .FIRST sipdata1 => some (scanContactParam { url := some url, displayName := sipdata } sipdata1)
        | .FOUND _ _ => none
    | _ => some { displayName := sipdata }

def decode (contactstr : Data) : Option SipContact :=
  if contactstr = [] then some {}
  else if contactstr = "*".toList then some { wildCard := true }
  else parse contactstr

def urlText (c : SipContact) : Data :=
  match c.url with
  | none => []
  | some (.sipUrl u) => '<' :: u.getNameAddr ++ u.getUrlParam ++ ['>']
  | some url => '<' :: url.encode ++ ['>']

def encode (c : SipContact) : Data :=
  if c.wildCard then "Contact: *".toList ++ CRLF
  else
    "Contact: ".toList ++ c.displayName ++ c.urlText ++
      (if c.myParameterList.encode ≠ [] then ';' :: c.myParameterList.encode else []) ++
      (if c.bexpires then ";expires=".toList ++ c.expires.delta else []) ++
      (if c.qValue ≠ [] then ";q=".toList ++ c.qValue else []) ++ CRLF

/-- The comparison of urls that may be missing. -/
def urlEqual : Option Url.BaseUrl → Option Url.BaseUrl → Option Bool
  | none, none => some true
  | some a, some b => a.areEqual b
  | _, _ => some false

/-- `operator==`. -/
def equals (c src : SipContact) : Option Bool :=
  if c.wildCard then some src.wildCard
  else if c.qValue = src.qValue && c.myParameterList = src.myParameterList then urlEqual c.url src.url
  else some false

end SipContact

/-! ### Record-Route and Route -/

structure SipRecordRoute where
  url : Option Url.BaseUrl := none
  displayname : Data := []
  deriving DecidableEq

structure SipRoute where
  url : Option Url.BaseUrl := none
  displayname : Data := []
  deriving DecidableEq

namespace SipRecordRoute

/-- `parseUrl`. -/
def parseUrl (displayname tmpurl : Data) : Option SipRecordRoute :=
  match Data.match tmpurl ['>'] with
  | .FOUND urlvalue _ => (Url.BaseUrl.decode urlvalue).map fun url => ⟨some url, displayname⟩
  | _ => none

def decode (newData : Data) : Option SipRecordRoute :=
  if newData = [] then some {}
  else
    match Data.match newData ['<'] with
    | .NOT_FOUND => none
    | .FIRST data => parseUrl [] data
    | .FOUND sipdata data => parseUrl sipdata data

/-- The url in its brackets; of its parameters only some are written. -/
def urlText (u : Url.SipUrl) : Data :=
  '<' :: u.getNameAddr ++
    (if u.transportParam = "tcp".toList then ";transport=tcp".toList else []) ++
    param "maddr".toList u.maddrParam ++ (if u.lrParam then ";lr".toList else []) ++ ['>']

def encode (r : SipRecordRoute) : Data :=
  r.displayname ++ match r.url with
    | some (.sipUrl u) => urlText u
    | _ => []

/-- `operator==`. -/
def equals (r src : SipRecordRoute) : Option Bool :=
  (SipContact.urlEqual r.url src.url).map fun equal => equal && r.displayname = src.displayname

end SipRecordRoute

namespace SipRoute

/-- The constructor from a Record-Route header. -/
def ofRecordRoute (rr : SipRecordRoute) : SipRoute := ⟨rr.url, rr.displayname⟩

/-- The reader does what that of `SipRecordRoute` does. -/
def decode (srcData : Data) : Option SipRoute := (SipRecordRoute.decode srcData).map ofRecordRoute

/-- The display name is overwritten with the opening bracket. -/
def encode (r : SipRoute) : Data :=
  match r.url with
  | some (.sipUrl u) => if r.displayname ≠ [] ∨ u.getNameAddr ≠ [] then SipRecordRoute.urlText u else []
  | _ => []

/-- `operator==`. -/
def equals (r src : SipRoute) : Option Bool :=
  (SipContact.urlEqual r.url src.url).map fun equal => equal && r.displayname = src.displayname

end SipRoute

/-! ### All classes -/

/-- A header of one of the classes above, or of another class. -/
inductive Header (K : Type)
  | expires (h : SipExpires)
  | contact (h : SipContact)
  | recordRoute (h : SipRecordRoute)
  | route (h : SipRoute)
  | contentType (h : SipContentType)
  | contentLength (h : SipContentLength)
  | contentDisposition (h : SipContentDisposition)
  | other (h : K)
  deriving DecidableEq

namespace Header

variable {K : Type} [SipHeader K]

def decodeHeader (type : SipHeaderType) (value local_ip : Data) : Option (Option (Header K)) :=
  match type with
  | .SIP_EXPIRES_HDR => some (some (expires (.decode value)))
  | .SIP_CONTACT_HDR => (SipContact.decode value).map fun h => some (contact h)
  | .SIP_RECORD_ROUTE_HDR => (SipRecordRoute.decode value).map fun h => some (recordRoute h)
  | .SIP_ROUTE_HDR => (SipRoute.decode value).map fun h => some (route h)
  | .SIP_CONTENT_TYPE_HDR => (SipContentType.decode true value).map fun h => some (contentType h)
  | .SIP_CONTENT_LENGTH_HDR => some (some (contentLength ⟨value⟩))
  | .SIP_CONTENT_DISPOSITION_HDR =>
    (SipContentDisposition.decode true value).map fun h => some (contentDisposition h)
  | type => (SipHeader.decodeHeader type value local_ip).map (·.map other)

def encode : Header K → Data
  | expires h => h.encode
  | contact h => h.encode
  | recordRoute h => h.encode
  | route h => h.encode
  | contentType h => h.encode
  | contentLength h => h.encode
  | contentDisposition h => h.encode
  | other h => SipHeader.encode h

/-- `duplicate`, by the copy constructors. -/
def duplicate : Header K → Header K
  | contentType h => contentType { h with type := str2lower h.type, subtype := str2lower h.subtype }
  | other h => other (SipHeader.duplicate h)
  | h => h

/-- `compareSipHeader`; headers of different classes are not equal. -/
def compareSipHeader : Header K → Header K → Option Bool
  | expires a, expires b => some (a = b)
  | contact a, contact b => a.equals b
  | recordRoute a, recordRoute b => a.equals b
  | route a, route b => a.equals b
  | contentType a, contentType b => some (a = b)
  | contentLength a, contentLength b => some (a = b)
  | contentDisposition a, contentDisposition b => some (a = b)
  | other a, other b => SipHeader.compareSipHeader a b
  | _, _ => some false

instance : SipHeader (Header K) := ⟨decodeHeader, encode, duplicate, compareSipHeader⟩

end Header

/-- No other classes. -/
instance : SipHeader Empty := ⟨fun _ _ _ => some none, Empty.elim, id, Empty.elim⟩

end Vocal.Sip
