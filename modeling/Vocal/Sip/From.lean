import Mathlib.Data.Char
import Mathlib.Data.List.Lex
import Vocal.Lib.SortedMap
import Vocal.Sip.Url

/-!
# From headers

`SipFrom` with its reader and its writer, over the kinds of urls that `BaseUrl::decode` makes. The reader is
that of the strict mode, for a header that was just made; it gives no result where the source throws.
-/

namespace Vocal.Sip.Url

open Data

/-! ### Kinds of urls -/

/-- `ImpBaseUrl`, the urls of instant messages and of presence. -/
structure ImpBaseUrl where
  schemeName : Data
  user : Data := []
  host : Data := []
  deriving DecidableEq, Repr

namespace ImpBaseUrl

/-- `fastDecode`, for the scheme of the class. -/
def fastDecode (schemeName myData : Data) : Option ImpBaseUrl :=
  match Data.parse myData [':'] with
  | none => none
  | some (urlType, rest) =>
    if !isEqualNoCase urlType schemeName then none
    else
      match Data.matchChar rest ['@'] with
      | none => none
      | some (user, _, host) =>
        if (Data.matchChar host [';']).isSome then none else some { schemeName, user, host }

def encode (u : ImpBaseUrl) : Data :=
  u.schemeName ++ ':' :: (if u.user ≠ [] then u.user ++ ['@'] else []) ++ u.host

/-- `operator==`. -/
def equals (a b : ImpBaseUrl) : Bool :=
  isEqualNoCase a.schemeName b.schemeName && isEqualNoCase a.user b.user && isEqualNoCase a.host b.host

end ImpBaseUrl

structure TelUrl where
  schemeName : Data
  user : SipTelSubscriberUser
  deriving DecidableEq, Repr

namespace TelUrl

def fastDecode (myData : Data) : Option TelUrl :=
  match Data.parse myData [':'] with
  | none => none
  | some (urlType, rest) =>
    if !isEqualNoCase urlType "tel".toList then none
    else if rest = [] then none
    else some { schemeName := urlType, user := .decode rest }

/-- `encode`; `encodeWithParams` of the user is the number alone. -/
def encode (u : TelUrl) : Data := u.schemeName ++ ':' :: u.user.encode

end TelUrl

/-- The classes of urls; an `UnknownUrl` is its text. -/
inductive BaseUrl
  | sipUrl (u : SipUrl)
  | telUrl (u : TelUrl)
  | imUrl (u : ImpBaseUrl)
  | presUrl (u : ImpBaseUrl)
  | unknownUrl (myUrl : Data)
  deriving DecidableEq, Repr

namespace BaseUrl

/-- `decode`; the scheme is what is in front of the first colon. -/
def decode (data : Data) : Option BaseUrl :=
  match Data.match data [':'] with
  | .FOUND urlType _ =>
    if isEqualNoCase urlType "sip".toList then (SipUrl.fastDecode data).map .sipUrl
    else if isEqualNoCase urlType "tel".toList then (TelUrl.fastDecode data).map .telUrl
    else if isEqualNoCase urlType "im".toList then (ImpBaseUrl.fastDecode "im".toList data).map .imUrl
    else if isEqualNoCase urlType "pres".toList then (ImpBaseUrl.fastDecode "pres".toList data).map .presUrl
    else some (.unknownUrl data)
  | _ => some (.unknownUrl data)

def encode : BaseUrl → Data
  | sipUrl u => u.encode
  | telUrl u => u.encode
  | imUrl u => u.encode
  | presUrl u => u.encode
  | unknownUrl myUrl => myUrl

/-- `areEqual`. A `TelUrl` looks for a url of the type `SIP_URL`, and then the cast to `TelUrl` throws. -/
def areEqual : BaseUrl → BaseUrl → Option Bool
  | sipUrl a, sipUrl b => some (a.equals b)
  | telUrl _, sipUrl _ => none
  | imUrl a, imUrl b => some (a.equals b)
  | presUrl a, presUrl b => some (a.equals b)
  | unknownUrl a, unknownUrl b => some (a = b)
  | _, _ => some false

end BaseUrl

/-! ### The header -/

/-- `TokenMapFrom`, in the order of the tokens. -/
abbrev TokenMap := List (Data × Data)

structure SipFrom where
  displayName : Data := []
  fromUrl : BaseUrl
  tag : Data := []
  tokenMap : TokenMap := []
  deriving DecidableEq

namespace SipFrom

/-- The parameters behind the address. -/
structure AddrParams where
  tag : Data := []
  tokenMap : TokenMap := []
  deriving DecidableEq

namespace AddrParams

def setToken (p : AddrParams) (token value : Data) : AddrParams :=
  { p with tokenMap := SortedMap.insert token value p.tokenMap }

def parseTag (p : AddrParams) (ltoken vdata : Data) : AddrParams :=
  if isEqualNoCase ltoken "tag".toList then { p with tag := removeSpaces vdata }
  else p.setToken (removeSpaces ltoken) (removeSpaces vdata)

def parseAddrParamExt (p : AddrParams) (newdat : Data) : AddrParams :=
  match Data.match newdat ['='] with
  | .NOT_FOUND => p.setToken newdat []
  | .FIRST _ => p
  | .FOUND parmvalue checkdata => p.parseTag (removeSpaces parmvalue) checkdata

/-- The loop over the parameters; every turn takes a semicolon off the text. -/
def parseAddrParam : Nat → AddrParams → Data → AddrParams
  | 0, p, _ => p
  | fuel + 1, p, addrparm =>
    match Data.match addrparm [';'] with
    | .NOT_FOUND => p.parseAddrParamExt addrparm
    | .FIRST rest => parseAddrParam fuel p rest
    | .FOUND parm rest => parseAddrParam fuel (p.parseAddrParamExt parm) rest

end AddrParams

/-- The parameters in a text. -/
def addrParams (data : Data) : AddrParams := AddrParams.parseAddrParam (data.length + 1) {} data

/-- The header of its parts. -/
def ofParts (displayName : Data) (fromUrl : BaseUrl) (p : AddrParams) : SipFrom :=
  ⟨displayName, fromUrl, p.tag, p.tokenMap⟩

/-- `parseUrl`: the address up to the closing bracket and the parameters behind it. A text behind the bracket
without semicolons is left out. -/
def parseUrl (displayName data : Data) : Option SipFrom :=
  match Data.match data ['>'] with
  | .FOUND avalue rest =>
    (BaseUrl.decode (removeSpaces avalue)).bind fun fromUrl =>
      match Data.match (removeSpaces rest) [';'] with
      | .FOUND _ _ => none
      | .FIRST te => some (ofParts displayName fromUrl (addrParams te))
      | .NOT_FOUND => some (ofParts displayName fromUrl {})
  | _ => none

/-- `scanSipFrom`: the name is all that is in front of the first opening bracket. -/
def scanSipFrom (data : Data) : Option SipFrom :=
  match Data.match data ['<'] with
  | .NOT_FOUND =>
    match Data.match data [';'] with
    | .NOT_FOUND => (BaseUrl.decode data).map fun fromUrl => ofParts [] fromUrl {}
    | .FIRST _ => none
    | .FOUND value rest => (BaseUrl.decode value).map fun fromUrl => ofParts [] fromUrl (addrParams rest)
  | .FIRST rest => parseUrl [] rest
  | .FOUND sipdata rest => parseUrl sipdata rest

def decode (fromstr : Data) : Option SipFrom := scanSipFrom fromstr

/-! ### Writing -/

/-- The display name, in quotes unless it has them. -/
def nameText (f : SipFrom) : Data :=
  let dispName := removeSpaces f.displayName
  if dispName ≠ [] then
    (if dispName.head? ≠ some '"' then ['"'] else []) ++ dispName ++
      (if dispName.getLast? ≠ some '"' then ['"'] else []) ++ [' ']
  else []

def tokenText (token : Data × Data) : Data :=
  token.1 ++ if token.2 ≠ [] then '=' :: token.2 else []

/-- The parameters as they are written, each behind a semicolon. -/
def pieces (f : SipFrom) : List Data :=
  (if f.tag ≠ [] then ["tag=".toList ++ f.tag] else []) ++ f.tokenMap.map tokenText

/-- The value part of `encode`. -/
def value (f : SipFrom) : Data :=
  f.nameText ++ '<' :: f.fromUrl.encode ++ '>' :: f.pieces.flatMap (';' :: ·)

def encode (f : SipFrom) : Data := "From: ".toList ++ f.value ++ CRLF

/-- `operator==`; no result where the comparison of the urls throws. -/
def equals (a b : SipFrom) : Option Bool :=
  (a.fromUrl.areEqual b.fromUrl).map fun equal => equal && a.tag = b.tag && a.tokenMap = b.tokenMap

end SipFrom

end Vocal.Sip.Url
