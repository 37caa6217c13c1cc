import Vocal.Sip.Text

/-!
# SIP urls

`SipUrl` with its reader `fastDecode` and its writer, the users it can hold and the embedded headers
after a question mark. The urls of `Vocal.Sip.Message` are what the transaction layer reads of these.

A reader gives no result where the source rejects the text. The reader of embedded headers also gives
none where the source does not return or leaves its buffer.
-/

namespace Vocal.Sip.Url

/-- A parameter that is written when it has a value. -/
def param (key value : Data) : Data := if value ≠ [] then ';' :: key ++ '=' :: value else []

/-! ### Telephone numbers -/

/-- `SipTelSubscriberUser`. -/
structure SipTelSubscriberUser where
  isGlobalPhoneNumber : Bool := false
  basePhoneNumber : Data := []
  isdnSubAddress : Data := []
  postDial : Data := []
  phoneContext : Data := []
  serviceProvider : Data := []
  futureExtensionName : Data := []
  futureExtensionValue : Data := []
  deriving DecidableEq, Repr

namespace SipTelSubscriberUser

/-- One parameter of the number. -/
def setParam (t : SipTelSubscriberUser) (key value : Data) : SipTelSubscriberUser :=
  if key = "isub".toList then { t with isdnSubAddress := value }
  else if key = "postd".toList then { t with postDial := value }
  else if key = "phone-context".toList then { t with phoneContext := value }
  else if key = "tsp".toList then { t with serviceProvider := value }
  else { t with futureExtensionName := key, futureExtensionValue := value }

/-- The loop over the parameters; every turn takes an equals sign off the text. -/
def decodeParams : Nat → SipTelSubscriberUser → Data → SipTelSubscriberUser
  | 0, t, _ => t
  | fuel + 1, t, phoneData =>
    match Data.matchChar phoneData ['='] with
    | none => t
    | some (key, _, rest) =>
      match Data.matchChar rest [';'] with
      | some (value, _, rest) => decodeParams fuel (t.setParam key value) rest
      | none => decodeParams fuel (t.setParam key rest) []

/-- The number without the text up to the first plus signs, if it has any. -/
def dropPlus (data : Data) : Bool × Data :=
  match Data.parse data ['+'] with
  | some (_, rest) => (true, rest)
  | none => (false, data)

def decode (data : Data) : SipTelSubscriberUser :=
  let t : SipTelSubscriberUser := { isGlobalPhoneNumber := (dropPlus data).1 }
  match Data.parse (dropPlus data).2 [';'] with
  | none => { t with basePhoneNumber := (dropPlus data).2 }
  | some (base, rest) => decodeParams rest.length { t with basePhoneNumber := base } rest

def encode (t : SipTelSubscriberUser) : Data :=
  (if t.isGlobalPhoneNumber then ['+'] else []) ++ t.basePhoneNumber

def getTelParams (t : SipTelSubscriberUser) : Data :=
  param "isub".toList t.isdnSubAddress ++ param "postd".toList t.postDial ++
  param "phone-context".toList t.phoneContext ++ param "tsp".toList t.serviceProvider ++
  (if t.futureExtensionName ≠ [] then param t.futureExtensionName t.futureExtensionValue else [])

end SipTelSubscriberUser

/-! ### Users -/

/-- `BaseUser` with its implementations; a `SipUser` is its text. -/
inductive BaseUser
  | sipUser (user : Data)
  | telUser (user : SipTelSubscriberUser)
  deriving DecidableEq, Repr

namespace BaseUser

def encode : BaseUser → Data
  | sipUser user => user
  | telUser user => user.encode

def getTelParams : BaseUser → Data
  | sipUser _ => []
  | telUser user => user.getTelParams

end BaseUser

/-! ### Embedded headers -/

namespace EmbeddedObj

/-- `doForwardEscape`. -/
def doForwardEscape (src : Data) : Data :=
  src.flatMap fun c =>
    if c = ' ' then "%20".toList else if c = ':' then "%3A".toList else if c = ',' then "%2C".toList
    else if c = '@' then "%40".toList else if c = ';' then "%3B".toList else if c = '>' then "%3E".toList
    else if c = '=' then "%3D".toList else if c = '<' then "%3C".toList else [c]

/-- The codes that `doReverseEscape` knows. -/
def escapes : List Data :=
  ["20".toList, "2C".toList, "2c".toList, "3D".toList, "3d".toList, "3B".toList, "3b".toList, "40".toList,
    "3A".toList, "3a".toList, "3c".toList, "3C".toList, "3e".toList, "3E".toList]

/-- Whether `doReverseEscape` comes to an end: it stays at a percent sign whose code it does not know. -/
def reversible : Data → Bool
  | [] => true
  | '%' :: a :: b :: d => escapes.contains [a, b] && reversible d
  | '%' :: _ => false
  | _ :: d => reversible d

/-- `doReverseEscape` stays in its buffer of 512 bytes. It reads three bytes past the end of the text,
and the byte before the text when this starts with a percent sign. -/
def inBuffer (src : Data) : Bool := src.head? ≠ some '%' && src.length ≤ 509

/-- `fastDecode`: the text that is written for the headers. -/
def fastDecode (src : Data) : Option Data :=
  if src.contains '%' then if reversible src && inBuffer src then some src else none
  else some (doForwardEscape src)

end EmbeddedObj

/-! ### Urls -/

/-- `SipUrl`; of the embedded headers the text is kept that is written for them. -/
structure SipUrl where
  schemeName : Data := "sip".toList
  user : Option BaseUser := none
  passwd : Data := []
  host : Data := []
  port : Data := []
  transportParam : Data := []
  ttlParam : Data := []
  maddrParam : Data := []
  userParam : Data := []
  methodParam : Data := []
  otherParam : Data := []
  otherName : Data := []
  headers : Data := []
  lrParam : Bool := false
  ipv6Addr : Bool := false
  EscObj : Option Data := none
  deriving DecidableEq, Repr

namespace SipUrl

/-! ### The host -/

/-- What is read of the host and the port, with the rest of the text. -/
structure HostPort where
  host : Data
  hostValid : Bool := true
  port : Data := []
  portValid : Bool := false
  rest : Data := []
  deriving DecidableEq, Repr

/-- What follows the host: a port, up to a semicolon, or nothing. -/
def afterHost (host : Data) (hostValid : Bool) (matched : Char) (myData : Data) : HostPort :=
  if matched = ':' then
    match Data.matchChar myData [';'] with
    | some (port, _, rest) => ⟨host, hostValid, port, true, rest⟩
    | none => ⟨host, hostValid, myData, true, []⟩
  else ⟨host, hostValid, [], false, myData⟩

/-- `parseIpv6Address`: the address in its brackets, and the rest. -/
def parseIpv6Address (inData : Data) : Option (Data × Data) :=
  (Data.matchChar inData [']']).map fun c => ('[' :: c.1 ++ [']'], c.2.2)

/-- The host and the port. After a user, an address in brackets with nothing after it is replaced by the
rest of the text. -/
def parseHostPort (userValid : Bool) (myData : Data) : Option HostPort :=
  match Data.matchChar myData ['['] with
  | some (_, _, rest) =>
    (parseIpv6Address rest).map fun address =>
      match Data.matchChar address.2 [':', ';'] with
      | some (_, matched, rest) => afterHost address.1 true matched rest
      | none =>
        if userValid then { host := address.2 } else { host := address.1, rest := address.2 }
  | none =>
    match Data.matchChar myData [':', ';'] with
    | some (host, matched, rest) => some (afterHost host (host ≠ []) matched rest)
    | none => some { host := myData }

/-! ### The parameters -/

/-- What the loop over the parameters works on. -/
structure Scan where
  url : SipUrl
  userInfo : Data
  userParamValid : Bool := false
  deriving DecidableEq, Repr

/-- One parameter. Others than those of the url go to the telephone number, or are kept as the other
parameter. -/
def parseParam (s : Scan) (key value : Data) (matchedParam : Bool) : Scan :=
  if key = "user".toList then { s with url := { s.url with userParam := value }, userParamValid := true }
  else if key = "transport".toList then { s with url := { s.url with transportParam := value } }
  else if key = "ttl".toList then { s with url := { s.url with ttlParam := value } }
  else if key = "maddr".toList then { s with url := { s.url with maddrParam := value } }
  else if key = "method".toList then { s with url := { s.url with methodParam := value } }
  else if matchedParam then
    if s.url.userParam = "phone".toList then
      { s with userInfo := s.userInfo ++ ';' :: key ++ '=' :: value }
    else { s with url := { s.url with otherName := key, otherParam := value } }
  else s

/-- The loop over the parameters, with the text it leaves; every turn takes an equals sign off the
text. -/
def parseParams : Nat → Scan → Data → Scan × Data
  | 0, s, myData => (s, myData)
  | fuel + 1, s, myData =>
    match Data.matchChar myData ['='] with
    | none => (s, myData)
    | some (key, _, rest) =>
      match Data.matchChar rest [';', '?'] with
      | none => parseParams fuel (parseParam s key.removeSpaces rest true) []
      | some (value, matched, rest) =>
        if matched = '?' then
          let s := { s with url := { s.url with headers := rest } }
          parseParams fuel (parseParam s key.removeSpaces value false) []
        else parseParams fuel (parseParam s key.removeSpaces value true) rest

/-- The user, once the parameters are read. -/
def makeUser (s : Scan) (userValid : Bool) : Option BaseUser :=
  if userValid then
    if !s.userParamValid || s.url.userParam = "ip".toList then some (.sipUser s.userInfo)
    else some (.telUser (.decode s.userInfo))
  else none

/-- `fastDecode` of what follows the host and the port. -/
def finish (url : SipUrl) (userValid : Bool) (userInfo : Data) (hp : HostPort) : Option SipUrl :=
  if !hp.hostValid then none
  else if hp.portValid && !hp.port.all isdigit then none
  else
    let url := { url with host := hp.host, port := hp.port }
    let (s, rest) := parseParams hp.rest.length ⟨url, userInfo, false⟩ hp.rest
    some { s.url with
      lrParam := s.url.lrParam || rest = "lr".toList
      user := makeUser s userValid }

/-- `fastDecode` of a text without embedded headers. -/
def decodeBody (EscObj : Option Data) (myData : Data) : Option SipUrl :=
  match Data.parse myData [':'] with
  | none => none
  | some (urlType, rest) =>
    if !isEqualNoCase urlType "sip".toList then none
    else
      let url : SipUrl := { schemeName := urlType, EscObj := EscObj }
      match Data.matchChar rest ['@'] with
      | some (userInfo, _, rest) => (parseHostPort true rest).bind (finish url true userInfo)
      | none => (parseHostPort false rest).bind (finish url false [])

def fastDecode (myData : Data) : Option SipUrl :=
  match Data.matchChar myData ['?'] with
  | some (body, _, escData) => (EmbeddedObj.fastDecode escData).bind fun e => decodeBody (some e) body
  | none => decodeBody none myData

/-! ### Writing -/

/-- The user and the password, when the user is not blank. -/
def userText (u : SipUrl) : Data :=
  match u.user with
  | some user =>
    if Data.removeSpaces user.encode ≠ [] then
      user.encode ++ (if u.passwd ≠ [] then ':' :: u.passwd else []) ++ ['@']
    else []
  | none => []

def portText (u : SipUrl) : Data := if u.port ≠ [] ∧ u.port ≠ "0".toList then ':' :: u.port else []

def paramText (u : SipUrl) : Data :=
  param "transport".toList u.transportParam ++ param "ttl".toList u.ttlParam ++
  param "maddr".toList u.maddrParam ++ param "user".toList u.userParam ++
  param "method".toList u.methodParam ++ (if u.lrParam then ";lr".toList else []) ++
  param u.otherName u.otherParam

/-- The parameters of the telephone number. -/
def telText (u : SipUrl) : Data :=
  match u.user with
  | some user => user.getTelParams
  | none => []

def encode (u : SipUrl) : Data :=
  u.schemeName ++ ':' :: u.userText ++ (if u.ipv6Addr then '[' :: u.host ++ [']'] else u.host) ++
    u.portText ++ u.paramText ++ (match u.EscObj with | some e => '?' :: e | none => []) ++
    (if u.headers ≠ [] then '?' :: u.headers else []) ++ u.telText

/-- The value, or the default. -/
def orDefault (value default : Data) : Data := if value = [] then default else value

/-- `operator==`. -/
def equals (a b : SipUrl) : Bool :=
  a.user = b.user && isEqualNoCase a.schemeName b.schemeName && a.passwd = b.passwd &&
  isEqualNoCase a.host b.host && isEqualNoCase a.ttlParam b.ttlParam && a.maddrParam = b.maddrParam &&
  isEqualNoCase a.userParam b.userParam && a.methodParam = b.methodParam &&
  isEqualNoCase a.otherParam b.otherParam && isEqualNoCase a.headers b.headers &&
  orDefault a.port "5060".toList = orDefault b.port "5060".toList &&
  orDefault a.transportParam "udp".toList = orDefault b.transportParam "udp".toList

end SipUrl

end Vocal.Sip.Url
