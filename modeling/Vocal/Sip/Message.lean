import Mathlib.Algebra.Order.BigOperators.Group.List
import Mathlib.Algebra.Order.Ring.Int
import Mathlib.Algebra.Order.Ring.Nat

/-!
# SIP messages

The parts of a decoded SIP message that the transaction layer reads: the start line, the To, From,
Call-ID and CSeq headers and the first Via. Text is a list of characters, one for each byte; a
decoded message holds no NUL, since `SipMsg::decode` is given a C string.
-/

namespace Vocal.Sip

abbrev Data := List Char

/-- `Method` of `symbols.hxx`. -/
inductive Method
  | SIP_UNKNOWN
  | SIP_INVITE
  | SIP_ACK
  | SIP_OPTIONS
  | SIP_BYE
  | SIP_CANCEL
  | SIP_REGISTER
  | SIP_INFO
  | SIP_TRANSFER
  | SIP_REFER
  | SIP_STATUS
  | SIP_SUBSCRIBE
  | SIP_NOTIFY
  | SIP_MESSAGE
  | SIP_UNKNOWNEXTN
  | SIP_INVALIDMSG
  deriving DecidableEq, Repr

def INVITE_METHOD : Data := "INVITE".toList

/-- `isEqualNoCase`, which also compares a text with a `Literal`. -/
def isEqualNoCase (left right : Data) : Bool := left.map Char.toLower = right.map Char.toLower

theorem isEqualNoCase_iff {a b : Data} : isEqualNoCase a b = true ↔ a.map Char.toLower = b.map Char.toLower := by
  rw [isEqualNoCase, decide_eq_true_eq]

theorem length_eq_of_isEqualNoCase {a b : Data} (h : isEqualNoCase a b = true) : a.length = b.length := by
  simpa using congrArg List.length (isEqualNoCase_iff.mp h)

/-- Two's complement: what a C `int` keeps of a value. -/
def toInt32 (v : Int) : Int := v.bmod (2 ^ 32)

theorem toInt32_of_bounds {v : Int} (hlow : -2 ^ 31 ≤ v) (hhigh : v < 2 ^ 31) : toInt32 v = v := by
  simp only [toInt32, Int.bmod]
  omega

theorem toInt32_bounds (v : Int) : -2 ^ 31 ≤ toInt32 v ∧ toInt32 v < 2 ^ 31 := by
  simp only [toInt32, Int.bmod]
  omega

/-- `isspace` of the C locale. -/
def isspace (c : Char) : Bool :=
  c = ' ' || c = '\t' || c = '\n' || c = '\r' || c = '\x0b' || c = '\x0c'

def isdigit (c : Char) : Bool := '0' ≤ c && c ≤ '9'

/-- The digits at the front of a text as a number, each step kept in an `int`. -/
def intOfDigits (val : Int) : Data → Int
  | [] => val
  | c :: cs => if isdigit c then intOfDigits (toInt32 (val * 10 + (c.toNat - '0'.toNat : Int))) cs else val

/-- `Data::convertInt`. -/
def convertInt (d : Data) : Int :=
  match d.dropWhile isspace with
  | '-' :: cs => toInt32 (-intOfDigits 0 cs)
  | cs => intOfDigits 0 cs

/-! ### Urls -/

/-- `SipUrl`: the parts of the name address and the transport parameter. -/
structure SipUrl where
  schemeName : Data := "sip".toList
  /-- The encoded user, absent when the url has none. -/
  user : Option Data := none
  passwd : Data := []
  host : Data
  ipv6Addr : Bool := false
  port : Data := []
  transportParam : Data := []
  deriving DecidableEq, Repr

/-- `SipUrl::getNameAddr`: the url up to its parameters. -/
def SipUrl.getNameAddr (u : SipUrl) : Data :=
  (if u.schemeName ≠ [] then u.schemeName ++ [':'] else []) ++
  (match u.user with
    | some user =>
      -- `removeSpaces` leaves nothing exactly of a text of blanks
      if user.any (· ≠ ' ') then
        user ++ (if u.passwd ≠ [] then ':' :: u.passwd else []) ++ ['@']
      else []
    | none => []) ++
  (if u.ipv6Addr then '[' :: u.host ++ [']'] else u.host) ++
  (if u.port ≠ [] ∧ u.port ≠ ['0'] then ':' :: u.port else [])

/-- `ImpBaseUrl`, of the `im` and `pres` urls. -/
structure ImpBaseUrl where
  schemeName : Data
  user : Data
  host : Data
  deriving DecidableEq, Repr

def ImpBaseUrl.getNameAddr (u : ImpBaseUrl) : Data :=
  (if u.schemeName ≠ [] then u.schemeName ++ [':'] else []) ++
  (if u.user ≠ [] then u.user ++ ['@'] else []) ++ u.host

/-- `BaseUrl` with its implementations. -/
inductive BaseUrl
  | sipUrl (u : SipUrl)
  | telUrl (userValue : Data)
  | impUrl (u : ImpBaseUrl)
  | unknownUrl (myUrl : Data)
  | nullUrl
  deriving DecidableEq, Repr

/-- `getUniqueKey` of each implementation. -/
def BaseUrl.getUniqueKey : BaseUrl → Data
  | .sipUrl u => u.getNameAddr
  | .telUrl userValue => userValue
  | .impUrl u => u.getNameAddr
  | .unknownUrl myUrl => myUrl
  | .nullUrl => "null-url".toList

/-! ### Headers -/

structure SipCallId where
  localid : Data
  host : Data
  deriving DecidableEq, Repr

def SipCallId.getCallIdData (c : SipCallId) : Data :=
  c.localid ++ (if c.host ≠ [] then '@' :: c.host else [])

structure SipCSeq where
  cseq : Data
  method : Data
  deriving DecidableEq, Repr

structure SipVia where
  transport : Data
  branch : Data
  deriving DecidableEq, Repr

/-- The headers every message carries; `via` is `getVia(0)`. -/
structure SipHeaders where
  toUrl : Option BaseUrl
  toTag : Data
  fromUrl : Option BaseUrl
  callId : SipCallId
  cseq : SipCSeq
  via : SipVia
  deriving DecidableEq, Repr

/-! ### Messages -/

/-- `SipCommand`: a request. -/
structure SipCommand where
  type : Method
  notStatus : type ≠ .SIP_STATUS := by decide
  requestUrl : BaseUrl
  maxForwards : Int := 70
  headers : SipHeaders
  deriving DecidableEq, Repr

structure StatusMsg where
  statusCode : Int
  reasonPhrase : Data
  headers : SipHeaders
  deriving DecidableEq, Repr

inductive SipMsg
  | command (c : SipCommand)
  | status (s : StatusMsg)
  deriving DecidableEq, Repr

namespace SipMsg

def headers : SipMsg → SipHeaders
  | command c => c.headers
  | status s => s.headers

def getType : SipMsg → Method
  | command c => c.type
  | status _ => .SIP_STATUS

end SipMsg

/-- The number in the CSeq header, as the stack reads it. -/
def SipCommand.cseqNumber (c : SipCommand) : Int := convertInt c.headers.cseq.cseq

/-- `SipCommand::checkMaxForwards`. -/
def SipCommand.checkMaxForwards (c : SipCommand) : Bool := 0 ≤ c.maxForwards

/-- `StatusMsg(SipCommand&, int)`: the mandatory headers are copied; a To without a tag gets the
random `statusToTag` in responses 101 to 499. -/
def StatusMsg.ofCommand (statusToTag : Data) (command : SipCommand) (statusCode : Int) : StatusMsg where
  statusCode := statusCode
  reasonPhrase := []
  headers :=
    if 100 < statusCode ∧ statusCode < 500 ∧ command.headers.toTag = [] then
      { command.headers with toTag := statusToTag }
    else command.headers

/-- `StatusMsg::toBeRetransmitted`. -/
def StatusMsg.toBeRetransmitted (s : StatusMsg) : Bool :=
  isEqualNoCase s.headers.cseq.method INVITE_METHOD && 200 ≤ s.statusCode

end Vocal.Sip
