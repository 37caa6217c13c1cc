import Vocal.Sip.NetworkAddress
import Vocal.Sip.Text.Number

/-!
# The Via header

`SipVia` with its reader and its writer. A reader gives no result where the source throws an exception;
`strict` is `SipParserMode::sipParserMode()`, without which nothing is thrown and what was read before
is kept. `parseHost` passes the address of a single character as a C string, so the set it matches is
that character with the bytes that follow it in memory: these are the parameter `after`.
-/

namespace Vocal.Sip

/-- What is left where the source throws an exception. -/
def throwUnless {α : Type} (strict : Bool) (a : α) : Option α := if strict then none else some a

/-- `SipVia`. -/
structure SipViaHeader where
  host : Data := []
  port : Data := "5060".toList
  protocolName : Data := "SIP".toList
  protocolVersion : Data := "2.0".toList
  transport : Data := "UDP".toList
  receivedHost : Data := []
  branchToken : Data := []
  comment : Data := []
  ttl : Data := []
  extparm : Data := []
  extvalue : Data := []
  maddr : Data := []
  viaBranch : Bool := false
  viaComment : Bool := false
  viaReceived : Bool := false
  viaHidden : Bool := false
  viaTtl : Bool := false
  viaMaddr : Bool := false
  rport : Bool := false
  rportValue : Data := []
  deriving DecidableEq, Repr

namespace SipViaHeader

def HIDDEN : Data := "hidden".toList
def RECEIVED : Data := "received".toList
def BRANCH : Data := "branch".toList
def MADDR_PARM : Data := "maddr".toList
def TTL : Data := "ttl".toList
def RPORT : Data := "rport".toList

/-! ### Fields -/

def setTtl (v : SipViaHeader) (newttl : Data) : SipViaHeader :=
  { v with ttl := newttl, viaTtl := v.viaTtl || newttl ≠ [] }

def setMaddr (v : SipViaHeader) (newmaddr : Data) : SipViaHeader :=
  { v with maddr := newmaddr, viaMaddr := v.viaMaddr || newmaddr ≠ [] }

/-- The form in which the received host is kept. -/
def bracketed (recvdhost : Data) : Data :=
  if NetworkAddress.is_valid_ip6_addr recvdhost then '[' :: recvdhost ++ [']'] else recvdhost

def setReceivedhost (v : SipViaHeader) (recvdhost : Data) : SipViaHeader :=
  { v with
    receivedHost := bracketed recvdhost
    viaReceived := v.viaReceived || bracketed recvdhost ≠ [] }

def setBranch (v : SipViaHeader) (newtoken : Data) : SipViaHeader :=
  { v with branchToken := newtoken, viaBranch := newtoken ≠ [] }

def setComment (v : SipViaHeader) (newcomment : Data) : SipViaHeader :=
  { v with comment := newcomment, viaComment := v.viaComment || newcomment ≠ [] }

def setRPort (v : SipViaHeader) (port : Data) : SipViaHeader := { v with rportValue := port, rport := true }

def setPort (v : SipViaHeader) (newport : Int) : SipViaHeader := { v with port := Data.ofInt newport }

def getPort (v : SipViaHeader) : Int := convertInt v.port

/-! ### Reading -/

/-- What `parseHost` makes of the text before the port; a text with a space inside is not kept. -/
def parseHostdata (v : SipViaHeader) (hostdata : Data) : SipViaHeader :=
  match Data.«match» hostdata [' '] with
  | .FIRST rest => { v with host := rest }
  | .NOT_FOUND => { v with host := hostdata }
  | .FOUND _ _ => v

def parseHost (after : Data) (v : SipViaHeader) (newHost : Data) : SipViaHeader :=
  match Data.«match» newHost [']'] with
  | .FOUND hostdata rest =>
    let hostport :=
      match Data.matchChar rest (':' :: after) with
      | some (_, _, rest) => rest
      | none => rest
    (parseHostdata v (hostdata ++ [']'])).setPort (convertInt hostport)
  | .FIRST _ => v
  | .NOT_FOUND =>
    match Data.«match» newHost [':'] with
    | .FOUND hostdata hostport => (parseHostdata v hostdata).setPort (convertInt hostport)
    | .FIRST _ => v
    | .NOT_FOUND => { v with host := newHost.removeSpaces }

def parseBranch (v : SipViaHeader) (branchdata : Data) : SipViaHeader :=
  match Data.«match» branchdata.removeSpaces ['('] with
  | .FOUND branchval brdat =>
    match Data.«match» brdat [')'] with
    | .FOUND brval _ => (v.setBranch branchval).setComment brval
    | _ => v.setBranch branchval
  | .NOT_FOUND => v.setBranch branchdata.removeSpaces
  | .FIRST _ => v

def parseViaParm (strict : Bool) (v : SipViaHeader) (viaparm parmvalue : Data) : Option SipViaHeader :=
  if isEqualNoCase viaparm MADDR_PARM then some (v.setMaddr parmvalue)
  else if isEqualNoCase viaparm RECEIVED then some (v.setReceivedhost parmvalue)
  else if isEqualNoCase viaparm TTL then
    if 0 ≤ convertInt parmvalue ∧ convertInt parmvalue ≤ 255 then some (v.setTtl parmvalue)
    else throwUnless strict v
  else if isEqualNoCase viaparm BRANCH then some (v.parseBranch parmvalue)
  else if isEqualNoCase viaparm RPORT then some (v.setRPort parmvalue)
  else some { v with extparm := viaparm, extvalue := parmvalue }

def parseViaParmHidden (strict : Bool) (v : SipViaHeader) (data : Data) : Option SipViaHeader :=
  if isEqualNoCase data.removeSpaces HIDDEN then some { v with viaHidden := true }
  else
    match Data.«match» data.removeSpaces ['='] with
    | .NOT_FOUND =>
      if isEqualNoCase data.removeSpaces.removeSpaces RPORT then some { v with rport := true }
      else throwUnless strict v
    | .FIRST _ => throwUnless strict v
    | .FOUND value viaparm =>
      if viaparm ≠ [] then parseViaParm strict v value.removeSpaces viaparm.removeSpaces else some v

/-- The loop of `parseViaParms`; every turn takes a semicolon off the text. -/
def parseViaParmsLoop (strict : Bool) : Nat → SipViaHeader → Data → Option SipViaHeader
  | 0, v, _ => some v
  | fuel + 1, v, viaparms =>
    if viaparms = [] then some v
    else
      match Data.«match» viaparms [';'] with
      | .NOT_FOUND => parseViaParmHidden strict v viaparms
      | .FIRST rest => if strict then none else parseViaParmsLoop strict fuel v rest
      | .FOUND parm rest =>
        (parseViaParmHidden strict v parm).bind fun v => parseViaParmsLoop strict fuel v rest

def parseViaParms (strict : Bool) (v : SipViaHeader) (data : Data) : Option SipViaHeader :=
  parseViaParmsLoop strict data.length v data

/-- `parseRestVia` after the transport: the host with the parameters or the comment. -/
def parseSentBy (strict : Bool) (after : Data) (v : SipViaHeader) (hostviadata : Data) :
    Option SipViaHeader :=
  match Data.«match» hostviadata [';'] with
  | .NOT_FOUND =>
    match Data.«match» hostviadata ['('] with
    | .NOT_FOUND => some (v.parseHost after hostviadata)
    | .FIRST _ => throwUnless strict v
    | .FOUND commentvalue ddata =>
      match Data.«match» ddata [')'] with
      | .FOUND cvalue _ => some ((v.parseHost after commentvalue).setComment cvalue)
      | _ => throwUnless strict (v.parseHost after commentvalue)
  | .FIRST _ => throwUnless strict v
  | .FOUND hostdata parmsviadata => parseViaParms strict (v.parseHost after hostdata) parmsviadata

def parseRestVia (strict : Bool) (after : Data) (v : SipViaHeader) (restdata : Data) :
    Option SipViaHeader :=
  match Data.«match» restdata.removeSpaces [' '] with
  | .FOUND transdata viarestdata =>
    parseSentBy strict after { v with transport := transdata.removeSpaces } viarestdata
  | _ => throwUnless strict v

def scanSipVia (strict : Bool) (after : Data) (tmpdata : Data) : Option SipViaHeader :=
  match Data.«match» tmpdata ['/'] with
  | .FOUND viadata data =>
    let v : SipViaHeader := { protocolName := viadata.removeSpaces }
    match Data.«match» data ['/'] with
    | .FOUND newviadata newdata =>
      parseRestVia strict after { v with protocolVersion := newviadata } newdata
    | _ => throwUnless strict v
  | _ => throwUnless strict {}

/-- The constructor from a text. -/
def decode (strict : Bool) (after : Data) (data : Data) : Option SipViaHeader :=
  if data = [] then some {} else scanSipVia strict after data

/-! ### Writing -/

def formOtherparms (v : SipViaHeader) : Data :=
  (if v.viaHidden then ';' :: HIDDEN else []) ++
  (if v.viaTtl then ';' :: TTL ++ '=' :: v.ttl else []) ++
  (if v.rport then ';' :: RPORT ++ (if v.rportValue ≠ [] then '=' :: v.rportValue else []) else []) ++
  (if v.viaMaddr then ';' :: MADDR_PARM ++ '=' :: v.maddr else []) ++
  (if v.viaReceived then ';' :: RECEIVED ++ '=' :: v.receivedHost else []) ++
  (if v.viaBranch then ';' :: BRANCH ++ '=' :: v.branchToken else []) ++
  (if v.viaComment then '(' :: v.comment ++ [')'] else [])

/-- The value that `SipVia::encode` writes. -/
def value (v : SipViaHeader) : Data :=
  v.protocolName ++ "/2.0/".toList ++ v.transport ++ ' ' :: v.host ++ ':' :: Data.ofInt v.getPort ++
    v.formOtherparms

def encode (v : SipViaHeader) : Data := "Via: ".toList ++ v.value ++ CRLF

end SipViaHeader

end Vocal.Sip
