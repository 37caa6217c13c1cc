import Vocal.Sip.Content.Headers

/-!
# Digest authentication

`SipCommand::setAuthDigest`, which puts an authorization into a request, and `SipCommand::checkAuthDigest`,
which checks one, over the digest of `digest.cxx`. MD5 is a parameter. The client hashes the qop, the cnonce and
the nonce count where it has them; the server passes empty texts for them, so what it computes is the same only
without a qop (`digestAgreement`).
-/

namespace Vocal.Sip

/-- A text as C functions see it, up to the first NUL. -/
def Data.c_str (d : Data) : Data := d.takeWhile (· ≠ '\x00')

/-! ### The digest -/

def CvtHex (Bin : Octets 16) : Data := convertToHex Bin.1

/-- The bytes of a hash, as they are hashed again. -/
def hashText (hash : Octets 16) : Data := hash.1.map fun b => Char.ofNat b.toNat

def MD5_SESS : Data := "md5-sess".toList

section Digest

variable (md5 : Data → Octets 16)

/-- The user, the realm and the password. -/
def a1Plain (pszUserName pszRealm pszPassword : Data) : Data :=
  pszUserName ++ ':' :: pszRealm ++ ':' :: pszPassword

/-- The text whose hash is H(A1). -/
def a1Text (pszAlg pszUserName pszRealm pszPassword pszNonce pszCNonce : Data) : Data :=
  let plain := a1Plain pszUserName pszRealm pszPassword
  if pszAlg = MD5_SESS then hashText (md5 plain) ++ ':' :: pszNonce ++ ':' :: pszCNonce else plain

def DigestCalcHA1 (pszAlg pszUserName pszRealm pszPassword pszNonce pszCNonce : Data) : Data :=
  CvtHex (md5 (a1Text md5 pszAlg pszUserName pszRealm pszPassword pszNonce pszCNonce))

/-- The text whose hash is H(A2). -/
def a2Text (pszQop pszMethod pszDigestUri HEntity : Data) : Data :=
  pszMethod ++ ':' :: pszDigestUri ++ if pszQop = "auth-int".toList then ':' :: HEntity else []

def DigestCalcHA2 (pszQop pszMethod pszDigestUri HEntity : Data) : Data :=
  CvtHex (md5 (a2Text pszQop pszMethod pszDigestUri HEntity))

/-- The text whose hash is the response. -/
def responseText (HA1 pszNonce pszNonceCount pszCNonce pszQop HA2Hex : Data) : Data :=
  HA1 ++ ':' :: pszNonce ++ ':' ::
    ((if pszQop ≠ [] then pszNonceCount ++ ':' :: pszCNonce ++ ':' :: pszQop ++ [':'] else []) ++ HA2Hex)

def DigestCalcResponse (HA1 pszNonce pszNonceCount pszCNonce pszQop pszMethod pszDigestUri HEntity : Data) : Data :=
  CvtHex (md5 (responseText HA1 pszNonce pszNonceCount pszCNonce pszQop
    (DigestCalcHA2 md5 pszQop pszMethod pszDigestUri HEntity)))

/-- The arguments of `SipDigest::form_SIPdigest`, as C strings. -/
structure DigestInput where
  nonce : Data
  user : Data
  pwd : Data
  method : Data
  requestURI : Data
  realm : Data
  qop : Data := []
  cnonce : Data := []
  alg : Data
  noncecount : Data := []
  deriving DecidableEq, Repr

namespace DigestInput

def HA1 (i : DigestInput) : Data := DigestCalcHA1 md5 i.alg i.user i.realm i.pwd i.nonce i.cnonce

/-- The entity hash is an array of zeros: it is never computed. -/
def HEntity : Data := List.replicate 32 '\x00'

def HA2 (i : DigestInput) : Data := DigestCalcHA2 md5 i.qop i.method i.requestURI HEntity

/-- What is hashed for the response. -/
def text (i : DigestInput) : Data :=
  responseText (i.HA1 md5) i.nonce i.noncecount i.cnonce i.qop (i.HA2 md5)

end DigestInput

/-- `SipDigest::form_SIPdigest`. -/
def form_SIPdigest (i : DigestInput) : Data :=
  DigestCalcResponse md5 (i.HA1 md5) i.nonce i.noncecount i.cnonce i.qop i.method i.requestURI
    DigestInput.HEntity

end Digest

/-! ### Authorization headers -/

def AUTH_DIGEST : Data := "Digest".toList

/-- `SipAuthorization` and `SipProxyAuthorization`. -/
structure SipAuthorization where
  myAuthScheme : Data := []
  myParamList : SipParameterList := []
  deriving DecidableEq, Repr

namespace SipAuthorization

def setTokenDetails (a : SipAuthorization) (paramName paramValue : Data) : SipAuthorization :=
  { a with myParamList := a.myParamList.setValue paramName paramValue }

/-- A token that is only set when its value is not empty. -/
def setToken (a : SipAuthorization) (paramName paramValue : Data) : SipAuthorization :=
  if paramValue.c_str ≠ [] then a.setTokenDetails paramName paramValue else a

/-- A value from its first quote on, two characters shorter. -/
def stripQuotes (tokenstr : Data) : Data :=
  match find ['"'] tokenstr with
  | some pos => (tokenstr.drop (pos + 1)).take (tokenstr.length - 2)
  | none => tokenstr

def getTokenValue (a : SipAuthorization) (token : Data) : Data :=
  stripQuotes (a.myParamList.getValue token).c_str

end SipAuthorization

/-- The parts of a request that the digest is about. -/
structure AuthorizedCommand where
  method : Data
  authorization : SipAuthorization := {}
  proxyAuth : SipAuthorization := {}
  deriving DecidableEq, Repr

/-- The arguments of `setAuthDigest`. -/
structure DigestParams where
  nonce : Data
  user : Data
  pwd : Data
  method : Data
  realm : Data
  requestURI : Data
  qop : Data
  cnonce : Data
  alg : Data
  noncecount : Data
  opaqueValue : Data
  deriving DecidableEq, Repr

/-- What the client hashes. -/
def DigestParams.input (p : DigestParams) : DigestInput where
  nonce := p.nonce.c_str
  user := p.user.c_str
  pwd := p.pwd.c_str
  method := p.method.c_str
  requestURI := p.requestURI.c_str
  realm := p.realm.c_str
  qop := p.qop.c_str
  cnonce := p.cnonce.c_str
  alg := p.alg.c_str
  noncecount := p.noncecount.c_str

namespace AuthorizedCommand

section Commands

variable (md5 : Data → Octets 16)

/-- `SipCommand::setAuthDigest`. -/
def setAuthDigest (c : AuthorizedCommand) (p : DigestParams) : AuthorizedCommand :=
  let response := form_SIPdigest md5 p.input
  let authorization := { c.authorization with myAuthScheme := AUTH_DIGEST }
  { c with
    authorization := authorization
      |>.setToken "username".toList p.user
      |>.setToken "realm".toList p.realm
      |>.setToken "nonce".toList p.nonce
      |>.setToken "response".toList response
      |>.setToken "qop".toList p.qop
      |>.setToken "uri".toList p.requestURI
      |>.setToken "cnonce".toList p.cnonce
      |>.setToken "nc".toList p.noncecount
      |>.setToken "opaque".toList p.opaqueValue
      |>.setToken "algorithm".toList p.alg }

/-- What the server hashes for a request with this algorithm. -/
def checkInput (c : AuthorizedCommand) (nonce user pwd realm requestURI algorithm : Data) : DigestInput where
  nonce := nonce.c_str
  user := user.c_str
  pwd := pwd.c_str
  method := c.method.c_str
  requestURI := requestURI.c_str
  realm := realm.c_str
  alg := algorithm.c_str

/-- `SipCommand::checkAuthDigest`. -/
def checkAuthDigest (c : AuthorizedCommand) (nonce user pwd realm requestURI : Data) (authReg : Bool) : Bool :=
  let header := if authReg then c.authorization else c.proxyAuth
  if !isEqualNoCase header.myAuthScheme AUTH_DIGEST then false
  else
    let checksum := header.getTokenValue "response".toList
    let algorithm := header.getTokenValue "algorithm".toList
    let msgNonce := header.getTokenValue "nonce".toList
    if !isEqualNoCase nonce msgNonce then false
    else if checksum.length = 0 then false
    else
      let response := form_SIPdigest md5 (c.checkInput nonce user pwd realm requestURI algorithm)
      checksum.c_str = response.c_str

end Commands

end AuthorizedCommand

end Vocal.Sip
