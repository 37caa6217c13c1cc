import Vocal.Sip.Text

/-!
# Raw headers

The headers of a message before they are parsed: `SipRawHeaderContainer` keeps, for each type of
header, the list of the values found, as texts. Reading a header line cuts the values of most types at
their commas; writing joins the values of some of them again and gives the others a line each.
-/

namespace Vocal.Sip

/-- `SipHeaderType`, in the order of the table. -/
inductive SipHeaderType
  | SIP_ACCEPT_HDR
  | SIP_ACCEPT_ENCODING_HDR
  | SIP_ACCEPT_LANGUAGE_HDR
  | SIP_ALLOW_HDR
  | SIP_ALSO_HDR
  | SIP_AUTHORIZATION_HDR
  | SIP_CALLID_HDR
  | SIP_CALL_LEG_HDR
  | SIP_CONTACT_HDR
  | SIP_CONTENT_DATA_HDR
  | SIP_CONTENT_DISPOSITION_HDR
  | SIP_CONTENT_ENCODING_HDR
  | SIP_CONTENT_LANGUAGE_HDR
  | SIP_CONTENT_LENGTH_HDR
  | SIP_CONTENT_TYPE_HDR
  | SIP_CSEQ_HDR
  | SIP_DATE_HDR
  | SIP_DIVERSION_HDR
  | SIP_ENCRYPTION_HDR
  | SIP_EXPIRES_HDR
  | SIP_EVENT_HDR
  | SIP_FROM_HDR
  | SIP_HIDE_HDR
  | SIP_IN_REPLY_TO_HDR
  | SIP_MAX_FORWARDS_HDR
  | SIP_MIME_VERSION_HDR
  | SIP_ORGANIZATION_HDR
  | SIP_OSP_AUTHORIZATION_HDR
  | SIP_PRIORITY_HDR
  | SIP_PROXY_AUTHENTICATE_HDR
  | SIP_PROXY_AUTHORIZATION_HDR
  | SIP_PROXY_REQUIRE_HDR
  | SIP_RECORD_ROUTE_HDR
  | SIP_REFERRED_BY_HDR
  | SIP_REFER_TO_HDR
  | SIP_REPLACES_HDR
  | SIP_REQUIRE_HDR
  | SIP_RESPONSE_KEY_HDR
  | SIP_RETRY_AFTER_HDR
  | SIP_ROUTE_HDR
  | SIP_SERVER_HDR
  | SIP_SESSION_HDR
  | SIP_SUBJECT_HDR
  | SIP_SUBSCRIPTION_NOTIFY_HDR
  | SIP_SUPPORTED_HDR
  | SIP_TIMESTAMP_HDR
  | SIP_TO_HDR
  | SIP_TRANSFER_TO_HDR
  | SIP_UNSUPPORTED_HDR
  | SIP_USER_AGENT_HDR
  | SIP_VIA_HDR
  | SIP_WARNING_HDR
  | SIP_WWW_AUTHENTICATE_HDR
  | SIP_SESSION_EXPIRES_HDR
  | SIP_MIN_SE_HDR
  | SIP_UNKNOWN_HDR
  deriving DecidableEq, Repr

/-- A row of the table of headers. -/
structure SipHeaderNames where
  type : SipHeaderType
  lowerName : Data
  upperName : Data
  shortName : Data

def sipHeaderTable : List SipHeaderNames :=
  [
    ⟨.SIP_ACCEPT_HDR, "accept".toList, "Accept".toList, "".toList⟩,
    ⟨.SIP_ACCEPT_ENCODING_HDR, "accept-encoding".toList, "Accept-Encoding".toList, "".toList⟩,
    ⟨.SIP_ACCEPT_LANGUAGE_HDR, "accept-language".toList, "Accept-Language".toList, "".toList⟩,
    ⟨.SIP_ALLOW_HDR, "allow".toList, "Allow".toList, "".toList⟩,
    ⟨.SIP_ALSO_HDR, "also".toList, "Also".toList, "".toList⟩,
    ⟨.SIP_AUTHORIZATION_HDR, "authorization".toList, "Authorization".toList, "".toList⟩,
    ⟨.SIP_CALLID_HDR, "call-id".toList, "Call-ID".toList, "i".toList⟩,
    ⟨.SIP_CALL_LEG_HDR, "call-leg".toList, "Call-Leg".toList, "".toList⟩,
    ⟨.SIP_CONTACT_HDR, "contact".toList, "Contact".toList, "m".toList⟩,
    ⟨.SIP_CONTENT_DATA_HDR, "content-data".toList, "Content-Data".toList, "".toList⟩,
    ⟨.SIP_CONTENT_DISPOSITION_HDR, "content-disposition".toList, "Content-Disposition".toList, "".toList⟩,
    ⟨.SIP_CONTENT_ENCODING_HDR, "content-encoding".toList, "Content-Encoding".toList, "e".toList⟩,
    ⟨.SIP_CONTENT_LANGUAGE_HDR, "content-language".toList, "Content-Language".toList, "".toList⟩,
    ⟨.SIP_CONTENT_LENGTH_HDR, "content-length".toList, "Content-Length".toList, "l".toList⟩,
    ⟨.SIP_CONTENT_TYPE_HDR, "content-type".toList, "Content-Type".toList, "c".toList⟩,
    ⟨.SIP_CSEQ_HDR, "cseq".toList, "CSeq".toList, "".toList⟩,
    ⟨.SIP_DATE_HDR, "date".toList, "Date".toList, "".toList⟩,
    ⟨.SIP_DIVERSION_HDR, "diversion".toList, "Diversion".toList, "".toList⟩,
    ⟨.SIP_ENCRYPTION_HDR, "encryption".toList, "Encryption".toList, "".toList⟩,
    ⟨.SIP_EXPIRES_HDR, "expires".toList, "Expires".toList, "".toList⟩,
    ⟨.SIP_EVENT_HDR, "event".toList, "Event".toList, "".toList⟩,
    ⟨.SIP_FROM_HDR, "from".toList, "From".toList, "f".toList⟩,
    ⟨.SIP_HIDE_HDR, "hide".toList, "Hide".toList, "".toList⟩,
    ⟨.SIP_IN_REPLY_TO_HDR, "in-reply-to".toList, "In-Reply-To".toList, "".toList⟩,
    ⟨.SIP_MAX_FORWARDS_HDR, "max-forwards".toList, "Max-Forwards".toList, "".toList⟩,
    ⟨.SIP_MIME_VERSION_HDR, "mime-version".toList, "Mime-Version".toList, "".toList⟩,
    ⟨.SIP_ORGANIZATION_HDR, "organization".toList, "Organization".toList, "".toList⟩,
    ⟨.SIP_OSP_AUTHORIZATION_HDR, "osp-authorization-token".toList, "OSP-Authorization-Token".toList, "".toList⟩,
    ⟨.SIP_PRIORITY_HDR, "priority".toList, "Priority".toList, "".toList⟩,
    ⟨.SIP_PROXY_AUTHENTICATE_HDR, "proxy-authenticate".toList, "Proxy-Authenticate".toList, "".toList⟩,
    ⟨.SIP_PROXY_AUTHORIZATION_HDR, "proxy-authorization".toList, "Proxy-Authorization".toList, "".toList⟩,
    ⟨.SIP_PROXY_REQUIRE_HDR, "proxy-require".toList, "Proxy-Require".toList, "".toList⟩,
    ⟨.SIP_RECORD_ROUTE_HDR, "record-route".toList, "Record-Route".toList, "".toList⟩,
    ⟨.SIP_REFERRED_BY_HDR, "referred-by".toList, "Referred-By".toList, "b".toList⟩,
    ⟨.SIP_REFER_TO_HDR, "refer-to".toList, "Refer-To".toList, "r".toList⟩,
    ⟨.SIP_REPLACES_HDR, "replaces".toList, "Replaces".toList, "".toList⟩,
    ⟨.SIP_REQUIRE_HDR, "require".toList, "Require".toList, "".toList⟩,
    ⟨.SIP_RESPONSE_KEY_HDR, "response-key".toList, "Response-Key".toList, "".toList⟩,
    ⟨.SIP_RETRY_AFTER_HDR, "retry-after".toList, "Retry-After".toList, "".toList⟩,
    ⟨.SIP_ROUTE_HDR, "route".toList, "Route".toList, "".toList⟩,
    ⟨.SIP_SERVER_HDR, "server".toList, "Server".toList, "".toList⟩,
    ⟨.SIP_SESSION_HDR, "session".toList, "Session".toList, "".toList⟩,
    ⟨.SIP_SUBJECT_HDR, "subject".toList, "Subject".toList, "s".toList⟩,
    ⟨.SIP_SUBSCRIPTION_NOTIFY_HDR, "subscription-notify".toList, "Subscription-Notify".toList, "".toList⟩,
    ⟨.SIP_SUPPORTED_HDR, "supported".toList, "Supported".toList, "k".toList⟩,
    ⟨.SIP_TIMESTAMP_HDR, "timestamp".toList, "Timestamp".toList, "".toList⟩,
    ⟨.SIP_TO_HDR, "to".toList, "To".toList, "t".toList⟩,
    ⟨.SIP_TRANSFER_TO_HDR, "transfer-to".toList, "Transfer-To".toList, "".toList⟩,
    ⟨.SIP_UNSUPPORTED_HDR, "unsupported".toList, "Unsupported".toList, "".toList⟩,
    ⟨.SIP_USER_AGENT_HDR, "user-agent".toList, "User-Agent".toList, "".toList⟩,
    ⟨.SIP_VIA_HDR, "via".toList, "Via".toList, "v".toList⟩,
    ⟨.SIP_WARNING_HDR, "warning".toList, "Warning".toList, "".toList⟩,
    ⟨.SIP_WWW_AUTHENTICATE_HDR, "www-authenticate".toList, "WWW-Authenticate".toList, "".toList⟩,
    ⟨.SIP_SESSION_EXPIRES_HDR, "session-expires".toList, "Session-Expires".toList, "x".toList⟩,
    ⟨.SIP_MIN_SE_HDR, "min-se".toList, "Min-SE".toList, "".toList⟩,
    ⟨.SIP_UNKNOWN_HDR, "".toList, "".toList, "".toList⟩
  ]

/-- The first row with the name; an empty name is that of the first row without a short name. -/
def headerTypeDecode (headerName : Data) : SipHeaderType :=
  match sipHeaderTable.find? fun row => headerName = row.lowerName || headerName = row.shortName with
  | some row => row.type
  | none => .SIP_UNKNOWN_HDR

def headerTypeEncode (type : SipHeaderType) : Data :=
  match sipHeaderTable.find? (·.type = type) with
  | some row => row.upperName
  | none => []

/-- The order in which `encode` writes the headers. -/
def sipHeaderOutputOrder : List SipHeaderType :=
  [
    .SIP_VIA_HDR, .SIP_TO_HDR, .SIP_FROM_HDR, .SIP_DATE_HDR, .SIP_TRANSFER_TO_HDR,
    .SIP_CALLID_HDR, .SIP_CSEQ_HDR, .SIP_PRIORITY_HDR, .SIP_PROXY_AUTHORIZATION_HDR,
    .SIP_OSP_AUTHORIZATION_HDR, .SIP_MAX_FORWARDS_HDR, .SIP_ORGANIZATION_HDR, .SIP_SUBJECT_HDR,
    .SIP_HIDE_HDR, .SIP_EXPIRES_HDR, .SIP_RESPONSE_KEY_HDR, .SIP_REFER_TO_HDR,
    .SIP_REFERRED_BY_HDR, .SIP_REPLACES_HDR, .SIP_SERVER_HDR, .SIP_ROUTE_HDR, .SIP_REQUIRE_HDR,
    .SIP_RECORD_ROUTE_HDR, .SIP_CONTACT_HDR, .SIP_ACCEPT_HDR, .SIP_ACCEPT_ENCODING_HDR,
    .SIP_ACCEPT_LANGUAGE_HDR, .SIP_ALLOW_HDR, .SIP_ALSO_HDR, .SIP_AUTHORIZATION_HDR,
    .SIP_CALL_LEG_HDR, .SIP_CONTENT_DATA_HDR, .SIP_CONTENT_DISPOSITION_HDR,
    .SIP_CONTENT_ENCODING_HDR, .SIP_CONTENT_LANGUAGE_HDR, .SIP_DIVERSION_HDR,
    .SIP_ENCRYPTION_HDR, .SIP_IN_REPLY_TO_HDR, .SIP_MIME_VERSION_HDR,
    .SIP_PROXY_AUTHENTICATE_HDR, .SIP_PROXY_REQUIRE_HDR, .SIP_RETRY_AFTER_HDR, .SIP_SESSION_HDR,
    .SIP_SUBSCRIPTION_NOTIFY_HDR, .SIP_SUPPORTED_HDR, .SIP_TIMESTAMP_HDR, .SIP_UNSUPPORTED_HDR,
    .SIP_USER_AGENT_HDR, .SIP_WARNING_HDR, .SIP_WWW_AUTHENTICATE_HDR, .SIP_EVENT_HDR,
    .SIP_SESSION_EXPIRES_HDR, .SIP_MIN_SE_HDR, .SIP_CONTENT_TYPE_HDR, .SIP_CONTENT_LENGTH_HDR,
    .SIP_UNKNOWN_HDR
  ]

/-- The types whose line holds several values. -/
def isMultiple : SipHeaderType → Bool
  | .SIP_VIA_HDR | .SIP_DIVERSION_HDR | .SIP_ACCEPT_HDR | .SIP_ACCEPT_ENCODING_HDR
  | .SIP_ACCEPT_LANGUAGE_HDR | .SIP_RECORD_ROUTE_HDR | .SIP_SUPPORTED_HDR | .SIP_CONTENT_LANGUAGE_HDR
  | .SIP_ALLOW_HDR | .SIP_CONTENT_ENCODING_HDR | .SIP_PROXY_REQUIRE_HDR | .SIP_REQUIRE_HDR
  | .SIP_ROUTE_HDR | .SIP_UNSUPPORTED_HDR | .SIP_IN_REPLY_TO_HDR | .SIP_WARNING_HDR
  | .SIP_CONTACT_HDR => true
  | _ => false

/-- The types that are written as one line. -/
def isList : SipHeaderType → Bool
  | .SIP_ACCEPT_HDR | .SIP_ACCEPT_ENCODING_HDR | .SIP_ACCEPT_LANGUAGE_HDR | .SIP_CONTENT_ENCODING_HDR
  | .SIP_RECORD_ROUTE_HDR | .SIP_SUPPORTED_HDR | .SIP_CONTENT_LANGUAGE_HDR | .SIP_ALLOW_HDR
  | .SIP_PROXY_REQUIRE_HDR | .SIP_REQUIRE_HDR | .SIP_ROUTE_HDR => true
  | _ => false

/-! ### Cutting at commas -/

/-- Inside double quotes, inside angle brackets. -/
structure Nesting where
  inDoubleQuotes : Bool
  inAngleBrackets : Bool
  deriving DecidableEq, Repr

namespace Nesting

def outside : Nesting := ⟨false, false⟩

/-- The `switch` of `parseOutsideQuotes`. -/
def next (n : Nesting) (c : Char) : Nesting :=
  if c = '"' then (if n.inAngleBrackets then n else { n with inDoubleQuotes := !n.inDoubleQuotes })
  else if c = '<' then (if n.inDoubleQuotes then n else { n with inAngleBrackets := true })
  else if c = '>' then (if n.inDoubleQuotes then n else { n with inAngleBrackets := false })
  else n

/-- After a text. -/
def after (n : Nesting) (d : Data) : Nesting := d.foldl next n

end Nesting

/-- The text before the first character of the set that is outside, and the rest after it. -/
def cutOutside (m : Data) : Nesting → Data → Option (Data × Data)
  | _, [] => none
  | n, c :: d =>
    if n.next c = .outside && isIn c m then some ([], d)
    else (cutOutside m (n.next c) d).map fun x => (c :: x.1, x.2)

/-- `Data::parseOutsideQuotes`, minding quotes and angle brackets. -/
def Data.parseOutsideQuotes (d m : Data) : Option (Data × Data) :=
  (cutOutside m .outside d).map fun x => (x.1, x.2.dropWhile (isIn · m))

/-- The loop of `SipRawHeader::decode` over the values of a line. -/
def splitLoop : Nat → Data → List Data
  | 0, headerValue => [headerValue]
  | fuel + 1, headerValue =>
    match headerValue.parseOutsideQuotes ",".toList with
    | none => [headerValue]
    | some (found, tmp) =>
      if found ≠ [] then found :: splitLoop fuel tmp.removeSpaces
      -- no text prior to the comma
      else splitLoop fuel tmp

/-- The values of a line; every turn of the loop takes a comma off the text. -/
def splitValues (headerValue : Data) : List Data := splitLoop (headerValue.length + 1) headerValue

/-! ### Headers and containers -/

/-- `SipRawHeader`, not parsed yet. -/
structure SipRawHeader where
  headerType : SipHeaderType
  headerNameOriginal : Data
  headerValue : Data
  deriving DecidableEq, Repr

namespace SipRawHeader

/-- What separates the name of a header from its value. -/
def nameEnd : Data := ": \t".toList

/-- `SipRawHeader::decode`: the header with those linked to it, or no result for a line that is not
a header. -/
def decode (headerData : Data) : Option (List SipRawHeader) :=
  (headerData.parse nameEnd).map fun (headerName, headerValue) =>
    let headerType := headerTypeDecode (str2lower headerName)
    (if isMultiple headerType then splitValues headerValue else [headerValue]).map
      fun value => ⟨headerType, headerName, value⟩

/-- What `operator==` compares of headers that are not parsed. -/
def key (h : SipRawHeader) : SipHeaderType × Data × Data :=
  (h.headerType, h.headerValue,
    if h.headerType = .SIP_UNKNOWN_HDR then str2lower h.headerNameOriginal else [])

/-- `encodeShallowPutsName`. -/
def encodeShallowPutsName (h : SipRawHeader) : Data :=
  (if h.headerType ≠ .SIP_UNKNOWN_HDR then headerTypeEncode h.headerType else h.headerNameOriginal) ++
    ": ".toList ++ h.headerValue ++ CRLF

/-- `encodeShallowNoName`. -/
def encodeShallowNoName (h : SipRawHeader) (comma : Bool) : Data :=
  if h.headerValue ≠ [] then (if comma then [','] else []) ++ h.headerValue else []

/-- `SipRawHeader::encode` of a header and those linked to it. -/
def encode : List SipRawHeader → Data
  | [] => []
  | h :: hs =>
    if isList h.headerType then
      headerTypeEncode h.headerType ++ ": ".toList ++ encodeShallowNoName h false ++
        hs.flatMap (encodeShallowNoName · true) ++ CRLF
    else (h :: hs).flatMap encodeShallowPutsName

end SipRawHeader

/-- `SipRawHeaderContainer`: the headers of each type, in order. -/
abbrev SipRawHeaderContainer := SipHeaderType → List SipRawHeader

namespace SipRawHeaderContainer

def empty : SipRawHeaderContainer := fun _ => []

/-- The header and those linked to it go to the end of the list of their type. -/
def insertManyHeader (c : SipRawHeaderContainer) (header : List SipRawHeader) : SipRawHeaderContainer :=
  fun type => if header.head?.map (·.headerType) = some type then c type ++ header else c type

/-- What `decode` ends in: whether a line was no header, the headers and the text that is left. -/
structure Decoded where
  parseError : Bool
  headers : SipRawHeaderContainer
  rest : Data

/-- The loop of `SipRawHeaderContainer::decode`, up to an empty line or the last complete line. -/
def decodeLoop : Nat → SipRawHeaderContainer → Data → Decoded
  | 0, c, headers => ⟨false, c, headers⟩
  | fuel + 1, c, headers =>
    match headers.getLine with
    | none => ⟨false, c, headers⟩
    | some (oneLine, headers) =>
      if oneLine = [] then ⟨false, c, headers⟩
      else
        match SipRawHeader.decode oneLine with
        | none => ⟨true, c, headers⟩
        | some oneHeader => decodeLoop fuel (c.insertManyHeader oneHeader) headers

/-- `SipRawHeaderContainer::decode`; every turn of the loop takes a line off the text. -/
def decode (headers : Data) : Decoded := decodeLoop (headers.length + 1) empty headers

/-- `SipRawHeaderContainer::encode`. -/
def encode (c : SipRawHeaderContainer) : Data :=
  sipHeaderOutputOrder.flatMap fun type => SipRawHeader.encode (c type)

/-- `SipRawHeaderContainer::operator==` for headers that are not parsed. -/
def Same (c c' : SipRawHeaderContainer) : Prop :=
  ∀ type, (c type).map SipRawHeader.key = (c' type).map SipRawHeader.key

end SipRawHeaderContainer

end Vocal.Sip
