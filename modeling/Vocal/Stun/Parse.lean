import Vocal.Stun.Message

/-!
# The STUN parser

`stunParseMessage` with the parsers of the attributes. A read past the end of the buffer and a write past
the end of an array stop it with a fault of their own, and so does a loop that does not come to its end.
-/

namespace Vocal.Stun

open Bytes

/-- Why nothing is parsed. -/
inductive Fault
  /-- The parser returns `false`. -/
  | rejected
  /-- The parser leaves the buffer or an array of the message. -/
  | outOfBounds
  /-- The loop is not at its end. -/
  | unfinished
  deriving DecidableEq, Repr

abbrev Parsed (α : Type) := Except Fault α

/-- An access that is out of bounds when it gives nothing. -/
def access {α : Type} : Option α → Parsed α
  | some a => .ok a
  | none => .error .outOfBounds

/-! ### Reads -/

def readByte (body : Bytes) (off : Nat) : Parsed UInt8 := access (body.drop off).head?

def read16 (body : Bytes) (off : Nat) : Parsed UInt16 :=
  match body.drop off with
  | a :: b :: _ => .ok (word16 a b)
  | _ => .error .outOfBounds

def read32 (body : Bytes) (off : Nat) : Parsed UInt32 :=
  match body.drop off with
  | a :: b :: c :: d :: _ => .ok (word32 a b c d)
  | _ => .error .outOfBounds

/-- `memcpy` from the buffer to the start of an array. -/
def memcpy {n : Nat} (dst : Octets n) (body : Bytes) (off length : Nat) : Parsed (Octets n) := do
  let src ← access (slice body off length)
  access (Octets.store dst 0 src)

/-! ### Attributes -/

def stunParseAtrAddress (body : Bytes) (hdrLen : Nat) : Parsed StunAtrAddress4 :=
  if hdrLen ≠ 8 then .error .rejected
  else do
    let pad ← readByte body 0
    let family ← readByte body 1
    if family = IPv4Family then
      let port ← read16 body 2
      let addr ← read32 body 4
      return { pad, family, ipv4 := { port, addr } }
    else .error .rejected

def stunParseAtrChangeRequest (body : Bytes) (hdrLen : Nat) : Parsed StunAtrChangeRequest :=
  if hdrLen ≠ 4 then .error .rejected
  else do
    let value ← read32 body 0
    return { value }

/-- `sizeof(StunAtrError)`. -/
def sizeofStunAtrError : Nat := 262

/-- The size is cut to 16 bits, so that it is large for a length below 4. -/
def stunParseAtrError (body : Bytes) (hdrLen : Nat) (result : StunAtrError) : Parsed StunAtrError :=
  if sizeofStunAtrError ≤ hdrLen then .error .rejected
  else do
    let pad ← read16 body 0
    let errorClass ← readByte body 2
    let number ← readByte body 3
    let sizeReason : UInt16 := .ofNat hdrLen - 4
    let reason ← memcpy result.reason body 4 sizeReason.toNat
    let reason ← access (Octets.store reason sizeReason.toNat [0])
    if h : sizeReason.toNat ≤ STUN_MAX_STRING then
      return { pad, errorClass, number, reason, sizeReason, bound := h }
    else .error .outOfBounds

/-- `sizeof(StunAtrUnknown)`. -/
def sizeofStunAtrUnknown : Nat := 10

/-- The loop over the attributes that are listed. -/
def readTypes (body : Bytes) : Nat → List.Vector UInt16 STUN_MAX_UNKNOWN_ATTRIBUTES →
    Parsed (List.Vector UInt16 STUN_MAX_UNKNOWN_ATTRIBUTES)
  | 0, attrType => .ok attrType
  | i + 1, attrType => do
    let attrType ← readTypes body i attrType
    let type ← read16 body (2 * i)
    access (Octets.store attrType i [type])

def stunParseAtrUnknown (body : Bytes) (hdrLen : Nat) (result : StunAtrUnknown) : Parsed StunAtrUnknown :=
  if sizeofStunAtrUnknown ≤ hdrLen then .error .rejected
  else if hdrLen % 4 ≠ 0 then .error .rejected
  else do
    let numAttributes : UInt16 := .ofNat (hdrLen / 4)
    let attrType ← readTypes body numAttributes.toNat result.attrType
    if h : numAttributes.toNat ≤ STUN_MAX_UNKNOWN_ATTRIBUTES then
      return { attrType, numAttributes, bound := h }
    else .error .outOfBounds

def stunParseAtrString (body : Bytes) (hdrLen : Nat) (result : StunAtrString) : Parsed StunAtrString :=
  if h : STUN_MAX_STRING ≤ hdrLen then .error .rejected
  else if hdrLen % 4 ≠ 0 then .error .rejected
  else do
    let value ← memcpy result.value body 0 hdrLen
    let value ← access (Octets.store value hdrLen [0])
    return { value, sizeValue := .ofNat hdrLen, bound := by simp at h ⊢; omega }

def stunParseAtrIntegrity (body : Bytes) (hdrLen : Nat) (result : StunAtrIntegrity) : Parsed StunAtrIntegrity :=
  if hdrLen ≠ 20 then .error .rejected
  else do
    let hash ← memcpy result.hash body 0 hdrLen
    return { hash }

/-! ### Messages -/

/-- The `switch` over the type of an attribute. Types above 0x7FFF may be unknown. -/
def parseAttribute (msg : StunMessage) (atrType : UInt16) (attrLen : Nat) (body : Bytes) : Parsed StunMessage :=
  match AtrType.ofCode atrType with
  | some .MappedAddress => do
    let atr ← stunParseAtrAddress body attrLen
    return { msg with hasMappedAddress := true, mappedAddress := atr }
  | some .ResponseAddress => do
    let atr ← stunParseAtrAddress body attrLen
    return { msg with hasResponseAddress := true, responseAddress := atr }
  | some .ChangeRequest => do
    let atr ← stunParseAtrChangeRequest body attrLen
    return { msg with hasChangeRequest := true, changeRequest := atr }
  | some .SourceAddress => do
    let atr ← stunParseAtrAddress body attrLen
    return { msg with hasSourceAddress := true, sourceAddress := atr }
  | some .ChangedAddress => do
    let atr ← stunParseAtrAddress body attrLen
    return { msg with hasChangedAddress := true, changedAddress := atr }
  | some .Username => do
    let atr ← stunParseAtrString body attrLen msg.username
    return { msg with hasUsername := true, username := atr }
  | some .Password => do
    let atr ← stunParseAtrString body attrLen msg.password
    return { msg with hasPassword := true, password := atr }
  | some .MessageIntegrity => do
    let atr ← stunParseAtrIntegrity body attrLen msg.messageIntegrity
    return { msg with hasMessageIntegrity := true, messageIntegrity := atr }
  | some .ErrorCode => do
    let atr ← stunParseAtrError body attrLen msg.errorCode
    return { msg with hasErrorCode := true, errorCode := atr }
  | some .UnknownAttribute => do
    let atr ← stunParseAtrUnknown body attrLen msg.unknownAttributes
    return { msg with hasUnknownAttributes := true, unknownAttributes := atr }
  | some .ReflectedFrom => do
    let atr ← stunParseAtrAddress body attrLen
    return { msg with hasReflectedFrom := true, reflectedFrom := atr }
  | none => if atrType ≤ 0x7FFF then .error .rejected else return msg

/-- The loop over the attributes. What is left of the buffer is as long as `size`, which is checked when
the loop is entered. -/
def parseAttributes : Nat → StunMessage → Bytes → Parsed StunMessage
  | _, msg, [] => .ok msg
  | 0, _, _ :: _ => .error .unfinished
  | turns + 1, msg, b :: body => do
    let attrLen ← read16 (b :: body) 2
    let atrType ← read16 (b :: body) 0
    if (b :: body).length < attrLen.toNat + 4 then .error .rejected
    else
      let msg ← parseAttribute msg atrType attrLen.toNat ((b :: body).drop 4)
      parseAttributes turns msg ((b :: body).drop (4 + attrLen.toNat))

/-- `sizeof(StunMsgHdr)`. -/
def sizeofStunMsgHdr : Nat := 20

/-- The header in front of a message. -/
def parseHeader (buf : Bytes) : Parsed StunMsgHdr := do
  let msgType ← read16 buf 0
  let msgLength ← read16 buf 2
  let id ← memcpy (.replicate 16 0) buf 4 16
  return { msgType, msgLength, id }

def stunParseMessage (buf : Bytes) : Parsed StunMessage :=
  if buf.length < sizeofStunMsgHdr then .error .rejected
  else do
    let msgHdr ← parseHeader buf
    if msgHdr.msgLength.toNat + sizeofStunMsgHdr ≠ buf.length then .error .rejected
    else parseAttributes buf.length { msgHdr } (buf.drop sizeofStunMsgHdr)

end Vocal.Stun
