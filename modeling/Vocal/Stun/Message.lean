import Vocal.Lib.Bytes

/-!
# STUN messages

The messages of `stun.h` and `stunEncodeMessage`. The structures with a size keep it within their
array. The HMAC is a parameter: a function of the key and the bytes that gives 20 bytes.
-/

namespace Vocal.Stun

open Bytes

/-! ### Messages -/

def STUN_MAX_STRING : Nat := 256

def STUN_MAX_UNKNOWN_ATTRIBUTES : Nat := 4

theorem zero_le_string : (0 : UInt16).toNat ≤ STUN_MAX_STRING := Nat.zero_le _

theorem zero_le_attributes : (0 : UInt16).toNat ≤ STUN_MAX_UNKNOWN_ATTRIBUTES := Nat.zero_le _

def IPv4Family : UInt8 := 0x01

/-- The attributes that are known. -/
inductive AtrType
  | MappedAddress
  | ResponseAddress
  | ChangeRequest
  | SourceAddress
  | ChangedAddress
  | Username
  | Password
  | MessageIntegrity
  | ErrorCode
  | UnknownAttribute
  | ReflectedFrom
  deriving DecidableEq, Repr

namespace AtrType

def code : AtrType → UInt16
  | MappedAddress => 0x0001
  | ResponseAddress => 0x0002
  | ChangeRequest => 0x0003
  | SourceAddress => 0x0004
  | ChangedAddress => 0x0005
  | Username => 0x0006
  | Password => 0x0007
  | MessageIntegrity => 0x0008
  | ErrorCode => 0x0009
  | UnknownAttribute => 0x000A
  | ReflectedFrom => 0x000B

/-- The attribute with this code. -/
def ofCode (c : UInt16) : Option AtrType :=
  match c.toNat with
  | 1 => some MappedAddress
  | 2 => some ResponseAddress
  | 3 => some ChangeRequest
  | 4 => some SourceAddress
  | 5 => some ChangedAddress
  | 6 => some Username
  | 7 => some Password
  | 8 => some MessageIntegrity
  | 9 => some ErrorCode
  | 10 => some UnknownAttribute
  | 11 => some ReflectedFrom
  | _ => none

@[simp] theorem ofCode_code (t : AtrType) : ofCode t.code = some t := by
  cases t <;> rfl

end AtrType

def BindRequestMsg : UInt16 := 0x0001

def BindResponseMsg : UInt16 := 0x0101

def BindErrorResponseMsg : UInt16 := 0x0111

def SharedSecretRequestMsg : UInt16 := 0x0002

def SharedSecretResponseMsg : UInt16 := 0x0102

structure StunMsgHdr where
  msgType : UInt16 := 0
  msgLength : UInt16 := 0
  id : Octets 16 := .replicate 16 0
  deriving DecidableEq

structure StunAddress4 where
  port : UInt16 := 0
  addr : UInt32 := 0
  deriving DecidableEq

structure StunAtrAddress4 where
  pad : UInt8 := 0
  family : UInt8 := 0
  ipv4 : StunAddress4 := {}
  deriving DecidableEq

structure StunAtrChangeRequest where
  value : UInt32 := 0
  deriving DecidableEq

structure StunAtrError where
  pad : UInt16 := 0
  errorClass : UInt8 := 0
  number : UInt8 := 0
  reason : Octets STUN_MAX_STRING := .replicate _ 0
  sizeReason : UInt16 := 0
  bound : sizeReason.toNat ≤ STUN_MAX_STRING := by first | exact zero_le_string | decide
  deriving DecidableEq

structure StunAtrUnknown where
  attrType : List.Vector UInt16 STUN_MAX_UNKNOWN_ATTRIBUTES := .replicate _ 0
  numAttributes : UInt16 := 0
  bound : numAttributes.toNat ≤ STUN_MAX_UNKNOWN_ATTRIBUTES := by first | exact zero_le_attributes | decide
  deriving DecidableEq

structure StunAtrString where
  value : Octets STUN_MAX_STRING := .replicate _ 0
  sizeValue : UInt16 := 0
  bound : sizeValue.toNat ≤ STUN_MAX_STRING := by first | exact zero_le_string | decide
  deriving DecidableEq

structure StunAtrIntegrity where
  hash : Octets 20 := .replicate 20 0
  deriving DecidableEq

/-- `StunMessage`; the defaults are what `memset` leaves. -/
structure StunMessage where
  msgHdr : StunMsgHdr := {}
  hasMappedAddress : Bool := false
  mappedAddress : StunAtrAddress4 := {}
  hasResponseAddress : Bool := false
  responseAddress : StunAtrAddress4 := {}
  hasChangeRequest : Bool := false
  changeRequest : StunAtrChangeRequest := {}
  hasSourceAddress : Bool := false
  sourceAddress : StunAtrAddress4 := {}
  hasChangedAddress : Bool := false
  changedAddress : StunAtrAddress4 := {}
  hasUsername : Bool := false
  username : StunAtrString := {}
  hasPassword : Bool := false
  password : StunAtrString := {}
  hasMessageIntegrity : Bool := false
  messageIntegrity : StunAtrIntegrity := {}
  hasErrorCode : Bool := false
  errorCode : StunAtrError := {}
  hasUnknownAttributes : Bool := false
  unknownAttributes : StunAtrUnknown := {}
  hasReflectedFrom : Bool := false
  reflectedFrom : StunAtrAddress4 := {}
  deriving DecidableEq

/-- The bytes of the string. -/
def StunAtrString.text (atr : StunAtrString) : Bytes := atr.value.1.take atr.sizeValue.toNat

/-- The bytes of the reason. -/
def StunAtrError.text (atr : StunAtrError) : Bytes := atr.reason.1.take atr.sizeReason.toNat

/-- The attributes that are listed. -/
def StunAtrUnknown.types (atr : StunAtrUnknown) : List UInt16 := atr.attrType.1.take atr.numAttributes.toNat

/-! ### Encoding -/

def encode16 (data : UInt16) : Bytes := ofWord16 data

def encode32 (data : UInt32) : Bytes := ofWord32 data

def encodeAtrAddress4 (type : AtrType) (atr : StunAtrAddress4) : Bytes :=
  encode16 type.code ++ encode16 8 ++
    (atr.pad :: IPv4Family :: (encode16 atr.ipv4.port ++ encode32 atr.ipv4.addr))

def encodeAtrChangeRequest (atr : StunAtrChangeRequest) : Bytes :=
  encode16 AtrType.ChangeRequest.code ++ encode16 4 ++ encode32 atr.value

def encodeAtrError (atr : StunAtrError) : Bytes :=
  encode16 AtrType.ErrorCode.code ++ encode16 (6 + atr.sizeReason) ++
    (encode16 atr.pad ++ atr.errorClass :: atr.number :: atr.text)

def encodeAtrUnknown (atr : StunAtrUnknown) : Bytes :=
  encode16 AtrType.UnknownAttribute.code ++ encode16 (2 + 2 * atr.numAttributes) ++ atr.types.flatMap encode16

/-- `encodeAtrString`, which asserts that the size is a multiple of 4. -/
def encodeAtrString (type : AtrType) (atr : StunAtrString) : Option Bytes :=
  if atr.sizeValue % 4 = 0 then some (encode16 type.code ++ encode16 atr.sizeValue ++ atr.text) else none

def encodeAtrIntegrity (atr : StunAtrIntegrity) : Bytes :=
  encode16 AtrType.MessageIntegrity.code ++ encode16 20 ++ atr.hash.1

/-- What is written for an attribute that may be missing. -/
def whenPresent (has : Bool) (atr : Bytes) : Bytes := if has then atr else []

/-- A string that may be missing. -/
def encodeString (has : Bool) (type : AtrType) (atr : StunAtrString) : Option Bytes :=
  if has then encodeAtrString type atr else some []

/-- The attributes in front of the message integrity. -/
def encodeAttributes (msg : StunMessage) : Option Bytes := do
  let username ← encodeString msg.hasUsername .Username msg.username
  let password ← encodeString msg.hasPassword .Password msg.password
  some (whenPresent msg.hasMappedAddress (encodeAtrAddress4 .MappedAddress msg.mappedAddress) ++
    whenPresent msg.hasResponseAddress (encodeAtrAddress4 .ResponseAddress msg.responseAddress) ++
    whenPresent msg.hasChangeRequest (encodeAtrChangeRequest msg.changeRequest) ++
    whenPresent msg.hasSourceAddress (encodeAtrAddress4 .SourceAddress msg.sourceAddress) ++
    whenPresent msg.hasChangedAddress (encodeAtrAddress4 .ChangedAddress msg.changedAddress) ++
    username ++ password ++
    whenPresent msg.hasErrorCode (encodeAtrError msg.errorCode) ++
    whenPresent msg.hasUnknownAttributes (encodeAtrUnknown msg.unknownAttributes) ++
    whenPresent msg.hasReflectedFrom (encodeAtrAddress4 .ReflectedFrom msg.reflectedFrom))

/-- The header with this length. -/
def encodeHeader (hdr : StunMsgHdr) (msgLength : UInt16) : Bytes :=
  encode16 hdr.msgType ++ encode16 msgLength ++ hdr.id.1

section Hmac

variable (computeHmac : Bytes → Bytes → Octets 20)

/-- The message integrity, when there is a password. It covers what is written so far, where the length
is still 0. -/
def encodeIntegrity (password : StunAtrString) (buf : Bytes) : Bytes :=
  whenPresent (0 < password.sizeValue) (encodeAtrIntegrity ⟨computeHmac password.text buf⟩)

/-- `stunEncodeMessage`: no result where an assertion fails. -/
def stunEncodeMessage (msg : StunMessage) (password : StunAtrString) : Option Bytes := do
  let attributes ← encodeAttributes msg
  let integrity := encodeIntegrity computeHmac password (encodeHeader msg.msgHdr 0 ++ attributes)
  some (encodeHeader msg.msgHdr (.ofNat (attributes ++ integrity).length) ++ (attributes ++ integrity))

end Hmac

end Vocal.Stun
