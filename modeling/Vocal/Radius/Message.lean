import Vocal.Lib.Tlv

/-!
# RADIUS messages

`RadiusMessage` of the RADIUS stack. A message is its raw bytes, in an array of 4096 of them, and the list of its
attributes. The digest is any function from bytes to sixteen of them; a secret is the bytes in front of its NUL.
-/

namespace Vocal.Radius

def RadiusPacketHeaderSize : Nat := 20

def RadiusMinPacketSize : Nat := RadiusPacketHeaderSize

def RadiusMaxPacketSize : Nat := 4096

def RadiusAuthenticatorLength : Nat := 16

def RadiusMaxAttributeLength : Nat := 255

def RP_ACCESS_REQUEST : UInt8 := 1

def RP_ACCESS_ACCEPT : UInt8 := 2

def RP_ACCESS_REJECT : UInt8 := 3

def RP_ACCOUNTING_REQUEST : UInt8 := 4

def RP_ACCOUNTING_RESPONSE : UInt8 := 5

def RP_ACCESS_CHALLENGE : UInt8 := 11

def RA_USER_PASSWORD : UInt8 := 2

def RA_NAS_IP_ADDRESS : UInt8 := 4

def RA_VENDOR_SPECIFIC : UInt8 := 26

/-- What ends a function without a result: an exception, an assertion, or an access outside of an array. -/
inductive Failure
  | vRadiusException (description : String)
  | assertion
  | outside
  deriving DecidableEq, Repr

open Failure

/-- A write into an array. -/
def access {α : Type} (o : Option α) : Except Failure α := o.elim (.error outside) .ok

/-- An `assert`. -/
def check (p : Prop) [Decidable p] : Except Failure Unit := if p then .ok () else .error assertion

/-! ## Data and attributes -/

/-- `RadiusData`. -/
structure RadiusData where
  bytes : Bytes
  fits : bytes.length ≤ RadiusMaxPacketSize
  deriving DecidableEq, Repr

namespace RadiusData

/-- The constructor, which takes no more than it can hold. -/
def ofBytes (val : Bytes) : RadiusData := ⟨val.take RadiusMaxPacketSize, List.length_take_le _ _⟩

/-- `RadiusData::append`. -/
def append (d : RadiusData) (val : Bytes) : Except Failure RadiusData :=
  if h : d.bytes.length + val.length ≤ RadiusMaxPacketSize then
    .ok ⟨d.bytes ++ val, by rw [List.length_append]; exact h⟩
  else .error (vRadiusException "Buffer overflow")

end RadiusData

/-- `RadiusAttribute`, as its constructors leave it: only a vendor attribute has a vendor, and a password has a
multiple of sixteen bytes. -/
structure RadiusAttribute where
  type : UInt8
  value : RadiusData
  vendorId : UInt32
  vendor_iff : type = RA_VENDOR_SPECIFIC ↔ vendorId ≠ 0
  password_mod : type = RA_USER_PASSWORD → value.bytes.length % 16 = 0
  deriving DecidableEq

namespace RadiusAttribute

/-- The bytes of a password up to the next multiple of sixteen. -/
def expanded (value : Bytes) : Bytes := value ++ List.replicate (16 - value.length % 16) 0

theorem length_expanded (value : Bytes) : (expanded value).length = value.length + (16 - value.length % 16) := by
  simp [expanded]

/-- The constructor of `RadiusAttribute`. A password is expanded in an array of 255 bytes. -/
def make (type : UInt8) (value : RadiusData) (vendorId : UInt32) : Except Failure RadiusAttribute :=
  if hvendor : type = RA_VENDOR_SPECIFIC ↔ vendorId ≠ 0 then
    if htype : type = RA_USER_PASSWORD ∧ value.bytes.length % 16 ≠ 0 then
      if hfits : (expanded value.bytes).length ≤ RadiusMaxAttributeLength then
        .ok ⟨type, ⟨expanded value.bytes, Nat.le_trans hfits (by decide)⟩, vendorId, hvendor, fun _ => by
          dsimp only
          rw [length_expanded]
          omega⟩
      else .error outside
    else .ok ⟨type, value, vendorId, hvendor, fun h => not_not.mp fun hmod => htype ⟨h, hmod⟩⟩
  else .error assertion

/-- `RadiusAttribute::length`. -/
def length (a : RadiusAttribute) : Nat := a.value.bytes.length + 2 + (if a.vendorId = 0 then 0 else 4)

/-- `RadiusAttribute::encode`. -/
def encode (a : RadiusAttribute) : Except Failure RadiusData := do
  let msgDat := RadiusData.ofBytes []
  let msgDat ← msgDat.append [a.type]
  if a.type = RA_VENDOR_SPECIFIC then
    let msgDat ← msgDat.append [.ofNat (a.value.bytes.length + 6)]
    let msgDat ← msgDat.append (Bytes.ofWord32 a.vendorId)
    msgDat.append a.value.bytes
  else
    let msgDat ← msgDat.append [.ofNat (a.value.bytes.length + 2)]
    msgDat.append a.value.bytes

/-- The attribute as a type and what follows its length. -/
def toTlv (a : RadiusAttribute) : Tlv.Attribute :=
  (a.type, if a.type = RA_VENDOR_SPECIFIC then Bytes.ofWord32 a.vendorId ++ a.value.bytes else a.value.bytes)

theorem toTlv_of_vendor {a : RadiusAttribute} (h : a.type = RA_VENDOR_SPECIFIC) :
    a.toTlv = (a.type, Bytes.ofWord32 a.vendorId ++ a.value.bytes) := by
  rw [toTlv, if_pos h]

theorem toTlv_of_ne {a : RadiusAttribute} (h : a.type ≠ RA_VENDOR_SPECIFIC) : a.toTlv = (a.type, a.value.bytes) := by
  rw [toTlv, if_neg h]

theorem length_eq (a : RadiusAttribute) : a.length = (Tlv.encode a.toTlv).length := by
  rw [length, Tlv.length_encode, toTlv]
  by_cases h : a.type = RA_VENDOR_SPECIFIC
  · rw [if_neg (a.vendor_iff.mp h), if_pos h, List.length_append, Bytes.length_ofWord32]
    omega
  · rw [if_pos (not_not.mp fun hne => h (a.vendor_iff.mpr hne)), if_neg h]

end RadiusAttribute

theorem RadiusData.append_of_le {d : RadiusData} {val : Bytes} (h : d.bytes.length + val.length ≤ RadiusMaxPacketSize) :
    d.append val = .ok ⟨d.bytes ++ val, by rw [List.length_append]; exact h⟩ := dif_pos h

theorem RadiusAttribute.encode_eq {a : RadiusAttribute} (h : a.length ≤ RadiusMaxPacketSize) :
    ∃ d, a.encode = .ok d ∧ d.bytes = Tlv.encode a.toTlv := by
  have hlen : (RadiusData.ofBytes []).bytes.length = 0 := rfl
  rw [length_eq, Tlv.length_encode] at h
  rw [encode, RadiusData.append_of_le (by simp [hlen, RadiusMaxPacketSize])]
  by_cases htype : a.type = RA_VENDOR_SPECIFIC
  · simp only [toTlv, if_pos htype, List.length_append, Bytes.length_ofWord32] at h
    simp only [if_pos htype, bind, Except.bind]
    rw [RadiusData.append_of_le (by simp [hlen, RadiusMaxPacketSize])]
    dsimp only
    rw [RadiusData.append_of_le (by simp [hlen, RadiusMaxPacketSize])]
    dsimp only
    rw [RadiusData.append_of_le (by simp [hlen]; omega)]
    refine ⟨_, rfl, ?_⟩
    simp [Tlv.encode, toTlv, if_pos htype, RadiusData.ofBytes, Nat.add_comm, Nat.add_left_comm]
  · simp only [toTlv, if_neg htype] at h
    simp only [if_neg htype, bind, Except.bind]
    rw [RadiusData.append_of_le (by simp [hlen, RadiusMaxPacketSize])]
    dsimp only
    rw [RadiusData.append_of_le (by simp [hlen]; omega)]
    refine ⟨_, rfl, ?_⟩
    simp [Tlv.encode, toTlv, if_neg htype, RadiusData.ofBytes]

/-! ## Messages -/

/-- `RawMessage`: the header, with its length as a number, and the array behind it. -/
structure RawMessage where
  code : UInt8
  identifier : UInt8
  length : UInt16
  authenticator : Octets RadiusAuthenticatorLength
  rest : Octets (RadiusMaxPacketSize - RadiusPacketHeaderSize)
  deriving DecidableEq

namespace RawMessage

def header (d : RawMessage) : Bytes := d.code :: d.identifier :: Bytes.ofWord16 d.length ++ d.authenticator.1

/-- The bytes of the array. -/
def buffer (d : RawMessage) : Bytes := d.header ++ d.rest.1

/-- The bytes of the message. -/
def bytes (d : RawMessage) : Bytes := d.buffer.take d.length.toNat

/-- What is received is copied into the array. -/
def ofBytes (memory : RawMessage) (val : Bytes) (h : RadiusMinPacketSize ≤ val.length) : Except Failure RawMessage :=
  (access (Octets.store memory.rest 0 (val.drop RadiusPacketHeaderSize))).map fun rest =>
    { code := val.getD 0 0
      identifier := val.getD 1 0
      length := Bytes.word16 (val.getD 2 0) (val.getD 3 0)
      authenticator := ⟨(val.drop 4).take RadiusAuthenticatorLength, by
        have hle : 20 ≤ val.length := h
        rw [List.length_take, List.length_drop]
        show min 16 _ = 16
        omega⟩
      rest := rest }

/-- A write into the array at an offset behind the header. -/
def memcpy (d : RawMessage) (offset : Nat) (src : Bytes) : Except Failure RawMessage :=
  (access (Octets.store d.rest (offset - RadiusPacketHeaderSize) src)).map fun rest => { d with rest }

end RawMessage

/-- `RadiusMessage`. -/
structure RadiusMessage where
  requestAuthenticator : Octets RadiusAuthenticatorLength
  attributes : List RadiusAttribute
  data : RawMessage
  deriving DecidableEq

/-! ### Passwords -/

/-- The `i`th sixteen bytes. -/
def block (p : Bytes) (i : Nat) : Bytes := (p.drop (16 * i)).take 16

def xor (a b : Bytes) : Bytes := List.zipWith (· ^^^ ·) a b

section

variable (md5 : Bytes → Octets RadiusAuthenticatorLength) (secret authenticator : Bytes)

/-- The loop of `encodeUserPassword`: each block is hidden by the digest of the secret and the hidden block in
front of it. -/
def encodeBlocks (p : Bytes) : Nat → Bytes
  | 0 => []
  | i + 1 =>
    let newPassword := encodeBlocks p i
    newPassword ++ xor (block p i) (md5 (secret ++ if i = 0 then authenticator else block newPassword (i - 1))).1

/-- The loop of `decodeUserPassword`, which begins with the last block. -/
def decodeBlocks (p : Bytes) : Nat → Bytes
  | 0 => []
  | i + 1 =>
    decodeBlocks p i ++ xor (block p i) (md5 (secret ++ if i = 0 then authenticator else block p (i - 1))).1

/-- What `encodeUserPassword` and `decodeUserPassword` share: both write into an array of 256 bytes. -/
def convertPassword (blocks : Bytes → Nat → Bytes) (oldPassword : Bytes) : Except Failure Bytes := do
  check (secret.length < 256)
  check (oldPassword.length % 16 = 0)
  if oldPassword.length ≤ 256 then .ok (blocks oldPassword (oldPassword.length / 16)) else .error outside

/-- `RadiusMessage::encodeUserPassword`. -/
def encodeUserPassword : Bytes → Except Failure Bytes := convertPassword secret (encodeBlocks md5 secret authenticator)

/-- `RadiusMessage::decodeUserPassword`. -/
def decodeUserPassword : Bytes → Except Failure Bytes := convertPassword secret (decodeBlocks md5 secret authenticator)

end

/-! ### Messages that are sent -/

namespace RadiusMessage

/-- What the constructors for a request and for a response write; `memory` is what stands in the object. -/
def ofHeader (memory : RadiusMessage) (code identifier : UInt8) (requestAuthenticator : Octets RadiusAuthenticatorLength) :
    RadiusMessage where
  requestAuthenticator := requestAuthenticator
  attributes := []
  data :=
    { memory.data with
      code := code
      identifier := identifier
      length := .ofNat RadiusPacketHeaderSize
      authenticator := .replicate _ 0 }

/-- The constructor for a request. -/
def request (memory : RadiusMessage) (code : UInt8) : Except Failure RadiusMessage := do
  check (code = RP_ACCOUNTING_REQUEST ∨ code = RP_ACCESS_REQUEST)
  return ofHeader memory code 0 (.replicate _ 0)

/-- The constructor for a response. -/
def response (memory : RadiusMessage) (code requestId : UInt8) (requestAuth : Octets RadiusAuthenticatorLength) :
    Except Failure RadiusMessage := do
  check (code = RP_ACCOUNTING_RESPONSE ∨ code = RP_ACCESS_REJECT ∨ code = RP_ACCESS_CHALLENGE ∨ code = RP_ACCESS_ACCEPT)
  return ofHeader memory code requestId requestAuth

/-- `RadiusMessage::setIdentifier`. -/
def setIdentifier (m : RadiusMessage) (id : UInt8) : RadiusMessage := { m with data := { m.data with identifier := id } }

/-- `RadiusMessage::add`. -/
def add (m : RadiusMessage) (attr : RadiusAttribute) : Except Failure (RadiusMessage × Bool) := do
  let attrLen := attr.length
  let currLen := m.data.length.toNat
  if RadiusMaxPacketSize < currLen + attrLen then return (m, false)
  let encoded ← attr.encode
  let data ← m.data.memcpy currLen (encoded.bytes.take attrLen)
  return ({ m with attributes := m.attributes ++ [attr], data := { data with length := .ofNat (currLen + attrLen) } }, true)

/-- Adds attributes, as long as they are taken. -/
def addAll : RadiusMessage → List RadiusAttribute → Except Failure (Option RadiusMessage)
  | m, [] => return some m
  | m, attr :: attrs => do
    match ← m.add attr with
    | (m, true) => addAll m attrs
    | (_, false) => return none

/-- `RadiusMessage::get`; the exception of a type that is not there is caught by its callers. -/
def get (m : RadiusMessage) (attrType : UInt8) : Option RadiusAttribute := m.attributes.find? (·.type = attrType)

variable (md5 : Bytes → Octets RadiusAuthenticatorLength) (secret : Bytes)

/-- `RadiusMessage::calcAccessRequestAuthenticator`, with the bytes of the time. The input of the digest is put
together in an array of 256 bytes. -/
def calcAccessRequestAuthenticator (time : Octets 4) (m : RadiusMessage) : Except Failure RadiusMessage :=
  match m.get RA_NAS_IP_ADDRESS with
  | none => .ok m
  | some a =>
    let hashInput := time.1 ++ a.value.bytes ++ [m.data.identifier]
    if hashInput.length ≤ 256 then
      .ok { m with requestAuthenticator := md5 hashInput, data := { m.data with authenticator := md5 hashInput } }
    else .error outside

/-- The loop of `hideUserPassword` over the attributes. The offset does not go on behind a password. -/
def replacePassword (hiddenPassword : Bytes) : List RadiusAttribute → Nat → RawMessage → Except Failure RawMessage
  | [], _, d => .ok d
  | a :: as, offset, d =>
    if a.type = RA_USER_PASSWORD then do
      let d ← d.memcpy (offset + 2) hiddenPassword
      replacePassword hiddenPassword as offset d
    else replacePassword hiddenPassword as (offset + a.length) d

/-- `RadiusMessage::hideUserPassword`. -/
def hideUserPassword (m : RadiusMessage) : Except Failure RadiusMessage := do
  check (m.data.code = RP_ACCESS_REQUEST)
  match m.get RA_USER_PASSWORD with
  | none => .ok m
  | some a =>
    let hiddenPassword ← encodeUserPassword md5 secret m.data.authenticator.1 a.value.bytes
    let data ← replacePassword hiddenPassword m.attributes RadiusPacketHeaderSize m.data
    return { m with data }

/-- The message with an authenticator in its header and the secret behind it. -/
def withSecret (m : RadiusMessage) (authenticator : Octets RadiusAuthenticatorLength) : Except Failure RawMessage := do
  let msgLen := m.data.length.toNat
  check (msgLen + secret.length ≤ RadiusMaxPacketSize)
  RawMessage.memcpy { m.data with authenticator } msgLen secret

/-- `RadiusMessage::calcResponseAuthenticator`. -/
def calcResponseAuthenticator (m : RadiusMessage) : Except Failure RadiusMessage := do
  let data ← m.withSecret secret m.requestAuthenticator
  let auth := md5 (data.buffer.take (m.data.length.toNat + secret.length))
  return { m with data := { data with authenticator := auth } }

/-- `RadiusMessage::calcAccountingRequestAuthenticator`. -/
def calcAccountingRequestAuthenticator (m : RadiusMessage) : Except Failure RadiusMessage := do
  let data ← m.withSecret secret (.replicate _ 0)
  let auth := md5 (data.buffer.take (m.data.length.toNat + secret.length))
  return { m with requestAuthenticator := auth, data := { data with authenticator := auth } }

/-- `RadiusMessage::calcAuthenticator`. -/
def calcAuthenticator (time : Octets 4) (m : RadiusMessage) : Except Failure RadiusMessage := do
  if m.data.code = RP_ACCESS_REQUEST then
    let m ← m.calcAccessRequestAuthenticator md5 time
    m.hideUserPassword md5 secret
  else if m.data.code = RP_ACCESS_ACCEPT ∨ m.data.code = RP_ACCESS_REJECT ∨ m.data.code = RP_ACCOUNTING_RESPONSE ∨
      m.data.code = RP_ACCESS_CHALLENGE then
    m.calcResponseAuthenticator md5 secret
  else if m.data.code = RP_ACCOUNTING_REQUEST then m.calcAccountingRequestAuthenticator md5 secret
  else .error assertion

/-! ### Messages that are received -/

/-- The body of the loop of `decodeAttributes`, on the type of an attribute and what follows its length. -/
def decodeAttribute (code : UInt8) (authenticator : Bytes) (attrType : UInt8) (value : Bytes) :
    Except Failure RadiusAttribute :=
  if attrType = RA_VENDOR_SPECIFIC then
    match value with
    | a :: b :: c :: d :: x :: y :: z :: more =>
      RadiusAttribute.make attrType (.ofBytes (x :: y :: z :: more)) (Bytes.word32 a b c d)
    | _ => .error (vRadiusException "VSA has invalid length")
  else if attrType = RA_USER_PASSWORD then
    if code ≠ RP_ACCESS_REQUEST then .error (vRadiusException "User-Password Attribute in Access-Request")
    else if value.length % 16 ≠ 0 then .error (vRadiusException "Invalid User-Password Attribute Length")
    else do
      let password ← decodeUserPassword md5 secret authenticator value
      RadiusAttribute.make attrType (.ofBytes password) 0
  else RadiusAttribute.make attrType (.ofBytes value) 0

/-- The loop of `RadiusMessage::decodeAttributes` over the bytes that are left. The length of an attribute that
is only a type is the byte behind the message. -/
def decodeAttributes (code : UInt8) (authenticator : Bytes) (behind : UInt8) : Bytes → Except Failure (List RadiusAttribute)
  | [] => .ok []
  | attrType :: rest =>
    let attrLen := rest.headD behind
    if attrLen.toNat < 2 ∨ rest.length + 1 < attrLen.toNat then
      .error (vRadiusException "Invalid Attribute length")
    else do
      let attr ← decodeAttribute md5 secret code authenticator attrType (rest.tail.take (attrLen.toNat - 2))
      let attrs ← decodeAttributes code authenticator behind (rest.tail.drop (attrLen.toNat - 2))
      return attr :: attrs
termination_by bytes => bytes.length
decreasing_by simp only [List.length_drop, List.length_tail, List.length_cons]; omega

/-- `RadiusMessage::verifyAccountingRequestAuthenticator`. -/
def verifyAccountingRequestAuthenticator (m : RadiusMessage) : Except Failure (RadiusMessage × Bool) := do
  check (m.data.code = RP_ACCOUNTING_REQUEST)
  let auth := m.data.authenticator
  let m ← m.calcAccountingRequestAuthenticator md5 secret
  return (m, auth = m.data.authenticator)

/-- The end of the constructor for a message that is received. -/
def verifyRequest (m : RadiusMessage) : Except Failure RadiusMessage := do
  if m.data.code = RP_ACCOUNTING_REQUEST then
    let (m, verified) ← m.verifyAccountingRequestAuthenticator md5 secret
    if verified then return m else throw (vRadiusException "Accounting Request Authentication failed")
  else return m

/-- The constructor for a message that is received. `memory` is what stands in the object, and `behind` the byte
behind its array. -/
def receive (memory : RadiusMessage) (behind : UInt8) (rawMsg : RadiusData) : Except Failure RadiusMessage := do
  if h : RadiusMinPacketSize ≤ rawMsg.bytes.length then
    let data ← RawMessage.ofBytes memory.data rawMsg.bytes h
    if rawMsg.bytes.length ≠ data.length.toNat then
      throw (vRadiusException "Packet size and length field don't match")
    let attributes ← decodeAttributes md5 secret data.code data.authenticator.1
      (data.rest.1.getD (rawMsg.bytes.length - RadiusPacketHeaderSize) behind) (rawMsg.bytes.drop RadiusPacketHeaderSize)
    verifyRequest md5 secret { memory with attributes, data }
  else throw (vRadiusException "Invalid packet size")

/-- `RadiusMessage::verifyResponseAuthenticator`. -/
def verifyResponseAuthenticator (reqAuth : Octets RadiusAuthenticatorLength) (m : RadiusMessage) :
    Except Failure (RadiusMessage × Bool) := do
  check (m.data.code = RP_ACCESS_ACCEPT ∨ m.data.code = RP_ACCESS_REJECT ∨ m.data.code = RP_ACCOUNTING_RESPONSE)
  let respAuth := m.data.authenticator
  let m ← calcResponseAuthenticator md5 secret { m with requestAuthenticator := reqAuth }
  return (m, respAuth = m.data.authenticator)

end RadiusMessage

end Vocal.Radius
