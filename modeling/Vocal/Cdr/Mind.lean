import Vocal.Cdr.Format
import Vocal.Cdr.Radius
import Vocal.Lib.Tlv

/-!
# Accounting messages

The messages that `MindClient` sends at the start and at the end of a call. They are written into the send buffer
of a `RadiusMessage`; `unsigned long` has four bytes, as the offsets in the vendor attributes want it. A message
is well formed exactly if no value is too long for the byte that counts it and the secret still fits into the
buffer behind the attributes.
-/

namespace Vocal.Cdr

/-! ## The send buffer -/

/-- `m_sendBuffer` and `m_sendBufferLen`. -/
structure SendBuffer where
  buffer : Octets sizeofBuffer
  len : Nat

namespace SendBuffer

/-- The part that is sent. -/
def used (m : SendBuffer) : Bytes := m.buffer.1.take m.len

/-- Writes behind the used part, which grows by `length`. -/
def write (m : SendBuffer) (bytes : Bytes) (length : UInt8) : Option SendBuffer :=
  (Octets.store m.buffer m.len bytes).map fun buffer => ⟨buffer, m.len + length.toNat⟩

/-- `RadiusMessage::addHeader`. -/
def addHeader (type requestId : UInt8) : SendBuffer :=
  ⟨Octets.padded sizeofBuffer [type, requestId] (by simp [sizeofBuffer]), sizeofAcctHdr⟩

/-- `RadiusMessage::addAttribute`. The value of a number is its bytes. -/
def addAttribute (m : SendBuffer) (type : UInt8) (value : Bytes) : Option SendBuffer :=
  let length := UInt8.ofNat (value.length + 2)
  m.write (type :: length :: value) length

/-- `RadiusMessage::addVsaAttribute`. The value of a number is its bytes. -/
def addVsaAttribute (m : SendBuffer) (vsaType : UInt8) (value : Bytes) (vendorId : UInt32) : Option SendBuffer :=
  let length := UInt8.ofNat (value.length + 8)
  m.write (PW_VENDOR_SPECIFIC :: length :: Bytes.ofWord32 vendorId ++
    vsaType :: UInt8.ofNat (value.length + 2) :: value) length

/-- `RadiusMessage::addMD5`. The secret is copied up to its first NUL, and counted up to its end. -/
def addMD5 (md5 : Bytes → Vector UInt8 ACCT_VECTOR_LEN) (secretKey : Bytes) (m : SendBuffer) : Option SendBuffer := do
  let buffer ← Octets.store m.buffer m.len (secretKey.takeWhile (· ≠ 0) ++ [0])
  let buffer ← Octets.store buffer 2 (htons m.len)
  let buffer ← Octets.store buffer 4 (List.replicate ACCT_VECTOR_LEN 0)
  let input ← Bytes.slice buffer.1 0 (m.len + secretKey.length)
  let buffer ← Octets.store buffer 4 (md5 input).toList
  return { m with buffer }

end SendBuffer

/-! ## The messages of a call -/

namespace MindClient

def VENDOR_ID : UInt32 := 999

def PW_ACCT_SESSION_TIME : UInt8 := 46

def MIND_VSA_CALLER_ID_TYPE : UInt8 := 1

def MIND_VSA_ORIGINATE_ADDRESS : UInt8 := 2

def MIND_VSA_CALL_DIRECTION : UInt8 := 8

def MIND_VSA_CALL_INFO : UInt8 := 9

def MIND_VSA_CALL_PARTIES : UInt8 := 10

def MIND_VSA_OUTBOUND_TYPE : UInt8 := 12

def MIND_VSA_QUERY_REQUEST : UInt8 := 13

def MIND_VSA_START_TIME : UInt8 := 14

def MIND_VSA_PROTOCOL_NUMBER : UInt8 := 15

def MIND_VSA_CDR : UInt8 := 17

def MIND_VSA_ANI_CODE : UInt8 := 2

def MIND_VSA_E164 : UInt8 := 1

def ACCT_START : UInt32 := 1

def ACCT_STOP : UInt32 := 2

/-- The byte of a `char`. -/
def byte (c : Char) : UInt8 := .ofNat c.toNat

/-- The bytes of a text. -/
def bytes (text : List Char) : Bytes := text.map byte

/-- The bytes of an `unsigned long` in network order. -/
def htonl (t : BitVec 32) : Bytes := Bytes.ofWord32 (.ofBitVec t)

/-- `MindClient::addMindCdr`. -/
def addMindCdr (ref : CdrRadius 32) (m : SendBuffer) : Option SendBuffer :=
  let text := ref.mindCdrVsaFormat
  let vsaLength := 2 + UInt8.ofNat text.length
  let totalLength := 4 + 2 + vsaLength
  m.write (PW_VENDOR_SPECIFIC :: totalLength :: Bytes.ofWord32 VENDOR_ID ++ MIND_VSA_CDR :: vsaLength :: bytes text)
    totalLength

/-- The number that was called: the number as it was dialled, or else the one in E.164 format. -/
def calledNum (ref : CdrRadius 32) : List Char :=
  if ref.DTMFCalledNum = [] then ref.E164CalledNum else ref.DTMFCalledNum

/-- The kind of the number that was called. -/
def protocolNum (ref : CdrRadius 32) : UInt8 :=
  if ref.DTMFCalledNum = [] then MIND_VSA_E164 else .ofNat MIND_VSA_DTMF

variable (md5 : Bytes → Vector UInt8 ACCT_VECTOR_LEN) (secretKey : Bytes) (clientAddr : Octets 4) (id : UInt8)

/-- The message of `MindClient::sendAcctStartCallMsg`. -/
def sendAcctStartCallMsg (ref : CdrRadius 32) : Option SendBuffer := do
  let m := SendBuffer.addHeader PW_ACCOUNTING_REQUEST id
  let m ← m.addAttribute PW_ACCT_STATUS_TYPE (Bytes.ofWord32 ACCT_START)
  let m ← m.addAttribute PW_ACCT_SESSION_ID (bytes ref.callId)
  let m ← m.addAttribute PW_CALLED_STATION_ID (bytes (calledNum ref))
  let m ← m.addAttribute PW_CALLING_STATION_ID (bytes ref.userId)
  let m ← m.addVsaAttribute MIND_VSA_PROTOCOL_NUMBER [protocolNum ref] VENDOR_ID
  let m ← m.addVsaAttribute MIND_VSA_CALLER_ID_TYPE [MIND_VSA_ANI_CODE] VENDOR_ID
  let m ← m.addAttribute PW_USER_NAME (bytes ref.userId)
  let m ← m.addVsaAttribute MIND_VSA_CALL_INFO [byte ref.callType] VENDOR_ID
  let m ← m.addVsaAttribute MIND_VSA_CALL_PARTIES [.ofInt ref.callParties] VENDOR_ID
  let m ← m.addVsaAttribute MIND_VSA_OUTBOUND_TYPE [1] VENDOR_ID
  let m ← m.addVsaAttribute MIND_VSA_QUERY_REQUEST [1] VENDOR_ID
  let m ← m.addVsaAttribute MIND_VSA_START_TIME (htonl ref.gwStartTime) VENDOR_ID
  let m ← m.addAttribute PW_NAS_IP_ADDRESS clientAddr.1
  let m ← m.addVsaAttribute MIND_VSA_ORIGINATE_ADDRESS clientAddr.1 VENDOR_ID
  let m ← m.addVsaAttribute MIND_VSA_CALL_DIRECTION [byte ref.callDirection] VENDOR_ID
  m.addMD5 md5 secretKey

/-- The message of `MindClient::sendAcctStopCallMsg`. -/
def sendAcctStopCallMsg (ref : CdrRadius 32) : Option SendBuffer := do
  let m := SendBuffer.addHeader PW_ACCOUNTING_REQUEST id
  let m ← m.addAttribute PW_ACCT_STATUS_TYPE (Bytes.ofWord32 ACCT_STOP)
  let m ← m.addAttribute PW_ACCT_SESSION_ID (bytes ref.callId)
  let m ← m.addAttribute PW_CALLING_STATION_ID (bytes ref.userId)
  let m ← m.addAttribute PW_ACCT_SESSION_TIME (htonl (ref.gwEndTime - ref.gwStartTime))
  let m ← addMindCdr ref m
  let m ← m.addVsaAttribute MIND_VSA_CALL_DIRECTION [byte ref.callDirection] VENDOR_ID
  let m ← m.addVsaAttribute MIND_VSA_CALLER_ID_TYPE [MIND_VSA_ANI_CODE] VENDOR_ID
  let m ← m.addVsaAttribute MIND_VSA_START_TIME (htonl ref.gwStartTime) VENDOR_ID
  m.addMD5 md5 secretKey

end MindClient

/-! ## Well-formed messages -/

/-- The walk over what is sent finds the attributes, a vendor attribute counts the bytes behind the vendor's id,
and the header counts all of the bytes. -/
structure SendBuffer.WellFormed (m : SendBuffer) (attributes : List Tlv.Attribute) : Prop where
  walk_eq : Tlv.walk (m.used.drop sizeofAcctHdr) = some attributes
  vsaLength_eq : ∀ a ∈ attributes, a.1 = PW_VENDOR_SPECIFIC → (a.2.getD 5 0).toNat + 6 = a.2.length + 2
  length_eq : ntohs (m.used.getD 2 0) (m.used.getD 3 0) = m.len

namespace MindClient

/-- A vendor attribute: the id of the vendor, and the vendor's own type, length and value. -/
def vsa (vsaType : UInt8) (value : Bytes) : Tlv.Attribute :=
  (PW_VENDOR_SPECIFIC, Bytes.ofWord32 VENDOR_ID ++ vsaType :: .ofNat (value.length + 2) :: value)

/-- The attributes of a message at the start of a call. -/
def startAttributes (clientAddr : Octets 4) (ref : CdrRadius 32) : List Tlv.Attribute :=
  [(PW_ACCT_STATUS_TYPE, Bytes.ofWord32 ACCT_START), (PW_ACCT_SESSION_ID, bytes ref.callId),
    (PW_CALLED_STATION_ID, bytes (calledNum ref)), (PW_CALLING_STATION_ID, bytes ref.userId),
    vsa MIND_VSA_PROTOCOL_NUMBER [protocolNum ref], vsa MIND_VSA_CALLER_ID_TYPE [MIND_VSA_ANI_CODE],
    (PW_USER_NAME, bytes ref.userId), vsa MIND_VSA_CALL_INFO [byte ref.callType],
    vsa MIND_VSA_CALL_PARTIES [.ofInt ref.callParties], vsa MIND_VSA_OUTBOUND_TYPE [1],
    vsa MIND_VSA_QUERY_REQUEST [1], vsa MIND_VSA_START_TIME (htonl ref.gwStartTime),
    (PW_NAS_IP_ADDRESS, clientAddr.1), vsa MIND_VSA_ORIGINATE_ADDRESS clientAddr.1,
    vsa MIND_VSA_CALL_DIRECTION [byte ref.callDirection]]

/-- The attributes of a message at the end of a call. -/
def stopAttributes (ref : CdrRadius 32) : List Tlv.Attribute :=
  [(PW_ACCT_STATUS_TYPE, Bytes.ofWord32 ACCT_STOP), (PW_ACCT_SESSION_ID, bytes ref.callId),
    (PW_CALLING_STATION_ID, bytes ref.userId),
    (PW_ACCT_SESSION_TIME, htonl (ref.gwEndTime - ref.gwStartTime)), vsa MIND_VSA_CDR (bytes ref.mindCdrVsaFormat),
    vsa MIND_VSA_CALL_DIRECTION [byte ref.callDirection], vsa MIND_VSA_CALLER_ID_TYPE [MIND_VSA_ANI_CODE],
    vsa MIND_VSA_START_TIME (htonl ref.gwStartTime)]

end MindClient

/-! ### Messages in general -/

namespace SendBuffer

variable {md5 : Bytes → Vector UInt8 ACCT_VECTOR_LEN} {secretKey : Bytes} {m m' : SendBuffer}

def add (m : SendBuffer) (a : Tlv.Attribute) : Option SendBuffer := m.addAttribute a.1 a.2

def addAll (m : SendBuffer) (as : List Tlv.Attribute) : Option SendBuffer := as.foldlM add m

theorem addVsaAttribute_eq (m : SendBuffer) (vsaType : UInt8) (value : Bytes) :
    m.addVsaAttribute vsaType value MindClient.VENDOR_ID = m.add (MindClient.vsa vsaType value) := by
  have hlength : (MindClient.vsa vsaType value).2.length + 2 = value.length + 8 := by
    simp [MindClient.vsa, Bytes.length_ofWord32]
    omega
  simp only [addVsaAttribute, add, addAttribute, hlength]
  rfl

theorem addMindCdr_eq (ref : CdrRadius 32) (m : SendBuffer) :
    MindClient.addMindCdr ref m = m.add (MindClient.vsa MindClient.MIND_VSA_CDR (MindClient.bytes ref.mindCdrVsaFormat)) := by
  have hvsa : 2 + UInt8.ofNat ref.mindCdrVsaFormat.length =
      UInt8.ofNat ((MindClient.bytes ref.mindCdrVsaFormat).length + 2) := by
    rw [MindClient.bytes, List.length_map, UInt8.ofNat_add, UInt8.add_comm]
    rfl
  have htotal : 4 + 2 + UInt8.ofNat ((MindClient.bytes ref.mindCdrVsaFormat).length + 2) =
      UInt8.ofNat ((MindClient.bytes ref.mindCdrVsaFormat).length + 8) := by
    rw [show (8 : Nat) = 2 + 6 from rfl, ← Nat.add_assoc, UInt8.ofNat_add _ 6, UInt8.add_comm]
    rfl
  rw [← addVsaAttribute_eq]
  simp only [MindClient.addMindCdr, addVsaAttribute, hvsa, htotal]

theorem used_add {a : Tlv.Attribute} (ha : a.2.length ≤ Tlv.maxValue) (h : m.add a = some m') :
    m'.used = m.used ++ Tlv.encode a ∧ m'.len = m.len + (Tlv.encode a).length := by
  obtain ⟨buffer, hstore, rfl⟩ := Option.map_eq_some_iff.mp h
  have hend := Octets.take_store_end hstore
  rw [Tlv.toNat_length ha]
  simp only [List.length_cons] at hend
  exact ⟨hend, by simp⟩

theorem used_addAll {as : List Tlv.Attribute} (has : ∀ a ∈ as, a.2.length ≤ Tlv.maxValue)
    (h : m.addAll as = some m') :
    m'.used = m.used ++ Tlv.encodeAll as ∧ m'.len = m.len + (Tlv.encodeAll as).length := by
  induction as generalizing m with
  | nil =>
    obtain rfl := Option.some.inj h
    simp
  | cons a as ih =>
    rw [addAll, List.foldlM_cons] at h
    obtain ⟨m₁, hadd, hrest⟩ := Option.bind_eq_some_iff.mp h
    obtain ⟨hused₁, hlen₁⟩ := used_add (has a (by simp)) hadd
    obtain ⟨hused, hlen⟩ := ih (fun b hb => has b (by simp [hb])) hrest
    rw [hused, hlen, hused₁, hlen₁, Tlv.encodeAll_cons, List.length_append, List.append_assoc]
    exact ⟨rfl, by omega⟩

theorem exists_addAll {as : List Tlv.Attribute} (has : ∀ a ∈ as, a.2.length ≤ Tlv.maxValue)
    (hfits : m.len + (Tlv.encodeAll as).length ≤ sizeofBuffer) : ∃ m', m.addAll as = some m' := by
  induction as generalizing m with
  | nil => exact ⟨m, rfl⟩
  | cons a as ih =>
    rw [Tlv.encodeAll_cons, List.length_append, Tlv.length_encode] at hfits
    obtain ⟨buffer, hstore⟩ : ∃ buffer, Octets.store m.buffer m.len (Tlv.encode a) = some buffer :=
      Octets.exists_store (by rw [Tlv.length_encode]; omega)
    have hadd : m.add a = some ⟨buffer, m.len + (UInt8.ofNat (a.2.length + 2)).toNat⟩ :=
      congrArg (Option.map _) hstore
    obtain ⟨-, hlen⟩ := used_add (has a (by simp)) hadd
    obtain ⟨m', hm'⟩ := ih (m := ⟨buffer, m.len + (UInt8.ofNat (a.2.length + 2)).toNat⟩)
      (fun b hb => has b (by simp [hb])) (by rw [hlen, Tlv.length_encode]; omega)
    refine ⟨m', ?_⟩
    rw [addAll, List.foldlM_cons, hadd]
    exact hm'

/-- What `strcpy` and the digest take of the secret fits behind the attributes. -/
def HasRoom (secretKey : Bytes) (len : Nat) : Prop :=
  len + (secretKey.takeWhile (· ≠ 0)).length < sizeofBuffer ∧ len + secretKey.length ≤ sizeofBuffer

instance (secretKey : Bytes) (len : Nat) : Decidable (HasRoom secretKey len) := inferInstanceAs (Decidable (_ ∧ _))

theorem ntohs_htons {n : Nat} (h : n < 2 ^ 16) :
    ntohs (UInt8.ofNat (n / 256)) (UInt8.ofNat n) = n := by
  simp only [ntohs, UInt8.toNat_ofNat']
  omega

theorem addMD5_spec (hlen : sizeofAcctHdr ≤ m.len) (h : m.addMD5 md5 secretKey = some m') :
    HasRoom secretKey m.len ∧ m'.len = m.len ∧ m'.used.drop sizeofAcctHdr = m.used.drop sizeofAcctHdr ∧
      m'.used.getD 2 0 = .ofNat (m.len / 256) ∧ m'.used.getD 3 0 = .ofNat m.len := by
  obtain ⟨b₁, h₁, h⟩ := Option.bind_eq_some_iff.mp h
  obtain ⟨b₂, h₂, h⟩ := Option.bind_eq_some_iff.mp h
  obtain ⟨b₃, h₃, h⟩ := Option.bind_eq_some_iff.mp h
  obtain ⟨input, hinput, h⟩ := Option.bind_eq_some_iff.mp h
  obtain ⟨b₄, h₄, h⟩ := Option.bind_eq_some_iff.mp h
  obtain rfl := Option.some.inj h
  have hroom := (Octets.store_eq_some_iff.mp h₁).1
  have hread : m.len + secretKey.length ≤ sizeofBuffer := by
    rw [Bytes.slice] at hinput
    split at hinput
    · rename_i hle
      rw [b₃.2] at hle
      omega
    · cases hinput
  have hdigest : (md5 input).toList.length = 16 := Vector.length_toList
  have hlen' : 20 ≤ m.len := hlen
  have hdrop : b₄.1.drop sizeofAcctHdr = b₁.1.drop sizeofAcctHdr := by
    rw [Octets.drop_store h₄ (by rw [hdigest]; decide), Octets.drop_store h₃ (by simp; decide),
      Octets.drop_store h₂ (by simp [htons]; decide)]
  have hfields : b₄.1.take 4 = b₁.1.take 2 ++ htons m.len := by
    rw [Octets.take_store h₄ (by decide), Octets.take_store h₃ (by decide)]
    exact Octets.take_store_end h₂
  have htwo : (b₁.1.take 2).length = 2 := by
    rw [List.length_take, b₁.2]
    rfl
  have hget : ∀ i < 4, (b₄.1.take m.len).getD i 0 = (b₁.1.take 2 ++ htons m.len).getD i 0 := by
    intro i hi
    rw [← hfields, List.getD_eq_getElem?_getD, List.getD_eq_getElem?_getD, List.getElem?_take_of_lt (by omega),
      List.getElem?_take_of_lt hi]
  rw [List.length_append, List.length_singleton] at hroom
  refine ⟨⟨by omega, hread⟩, rfl, ?_, ?_, ?_⟩
  · rw [used, used, List.drop_take, List.drop_take, hdrop, ← List.drop_take, ← List.drop_take,
      Octets.take_store h₁ (Nat.le_refl _)]
  · rw [used, hget 2 (by decide), List.getD_eq_getElem?_getD, List.getElem?_append_right (by omega), htwo]
    rfl
  · rw [used, hget 3 (by decide), List.getD_eq_getElem?_getD, List.getElem?_append_right (by omega), htwo]
    rfl

theorem exists_addMD5 (md5 : Bytes → Vector UInt8 ACCT_VECTOR_LEN) (h : HasRoom secretKey m.len) :
    ∃ m', m.addMD5 md5 secretKey = some m' := by
  obtain ⟨hroom, hread⟩ := h
  obtain ⟨b₁, h₁⟩ : ∃ b, Octets.store m.buffer m.len (secretKey.takeWhile (· ≠ 0) ++ [0]) = some b :=
    Octets.exists_store (by rw [List.length_append, List.length_singleton]; omega)
  obtain ⟨b₂, h₂⟩ : ∃ b, Octets.store b₁ 2 (htons m.len) = some b := Octets.exists_store (by simp [htons, sizeofBuffer])
  obtain ⟨b₃, h₃⟩ : ∃ b, Octets.store b₂ 4 (List.replicate ACCT_VECTOR_LEN 0) = some b :=
    Octets.exists_store (by simp [ACCT_VECTOR_LEN, sizeofBuffer])
  have hslice : Bytes.slice b₃.1 0 (m.len + secretKey.length) =
      some ((b₃.1.drop 0).take (m.len + secretKey.length)) := by
    rw [Bytes.slice, if_pos (by rw [b₃.2]; omega)]
  obtain ⟨b₄, h₄⟩ : ∃ b, Octets.store b₃ 4 (md5 ((b₃.1.drop 0).take (m.len + secretKey.length))).toList = some b :=
    Octets.exists_store (by rw [Vector.length_toList]; decide)
  refine ⟨{ m with buffer := b₄ }, ?_⟩
  simp only [addMD5, h₁, h₂, h₃, hslice, h₄, Option.bind_eq_bind, Option.bind_some, pure]

/-- The value can be counted, and that of a vendor attribute is. -/
def Counted (a : Tlv.Attribute) : Prop :=
  a.2.length ≤ Tlv.maxValue ∧ (a.1 = PW_VENDOR_SPECIFIC → (a.2.getD 5 0).toNat + 6 = a.2.length + 2)

theorem exists_wellFormed_iff (type id : UInt8) (as : List Tlv.Attribute) :
    (∃ m, ((addHeader type id).addAll as).bind (addMD5 md5 secretKey) = some m ∧ m.WellFormed as) ↔
      (∀ a ∈ as, Counted a) ∧ HasRoom secretKey (sizeofAcctHdr + (Tlv.encodeAll as).length) := by
  have hheader : (addHeader type id).len = sizeofAcctHdr := rfl
  have hheader' : (addHeader type id).used.length = sizeofAcctHdr := by
    rw [used, List.length_take, (addHeader type id).buffer.2]
    rfl
  constructor
  · rintro ⟨m, hm, hwell⟩
    obtain ⟨m₁, hall, hmd5⟩ := Option.bind_eq_some_iff.mp hm
    have hvalues := (Tlv.encodeAll_of_walk hwell.walk_eq).2
    obtain ⟨-, hlen⟩ := used_addAll hvalues hall
    rw [hheader] at hlen
    obtain ⟨hroom, -⟩ := addMD5_spec (by omega) hmd5
    rw [hlen] at hroom
    exact ⟨fun a ha => ⟨hvalues a ha, hwell.vsaLength_eq a ha⟩, hroom⟩
  · rintro ⟨hcounted, hroom⟩
    have hvalues : ∀ a ∈ as, a.2.length ≤ Tlv.maxValue := fun a ha => (hcounted a ha).1
    obtain ⟨m₁, hall⟩ := exists_addAll (m := addHeader type id) hvalues
      (by rw [hheader]; exact Nat.le_trans (Nat.le_add_right _ _) hroom.2)
    obtain ⟨hused, hlen⟩ := used_addAll hvalues hall
    rw [hheader] at hlen
    obtain ⟨m₂, hmd5⟩ := exists_addMD5 md5 (hlen ▸ hroom)
    obtain ⟨-, hlen₂, hdrop, hhigh, hlow⟩ := addMD5_spec (by omega) hmd5
    refine ⟨m₂, Option.bind_eq_some_iff.mpr ⟨m₁, hall, hmd5⟩, ?_, fun a ha => (hcounted a ha).2, ?_⟩
    · rw [hdrop, hused, ← hheader', List.drop_left]
      exact Tlv.walk_encodeAll hvalues
    · have hle : m₁.len ≤ 4096 := by
        rw [hlen]
        exact Nat.le_trans (Nat.le_add_right _ _) hroom.2
      rw [hhigh, hlow, hlen₂]
      exact ntohs_htons (by omega)

end SendBuffer

/-! ### The lengths of the texts -/

namespace CdrRadius

variable {r : CdrRadius 32}

/-- The record as its arrays and numbers hold it: the texts end within their arrays. -/
structure Terminated (r : CdrRadius 32) : Prop where
  texts_fit : ∀ p ∈ r.texts, p.1.length < p.2 ∧ '\x00' ∉ p.1
  originatorLine_fits : -2 ^ 15 ≤ r.originatorLine ∧ r.originatorLine < 2 ^ 15
  terminatorLine_fits : -2 ^ 15 ≤ r.terminatorLine ∧ r.terminatorLine < 2 ^ 15
  callParties_fits : -2 ^ 31 ≤ r.callParties ∧ r.callParties < 2 ^ 31

/-- The number of characters of the last part of the text. It ends at an enumeration that is not set. -/
def partyLength (r : CdrRadius 32) : Nat :=
  r.userId.length + r.E164CalledNum.length + r.DTMFCalledNum.length + 3 +
    if r.callDirection = '\x00' then 0
    else if r.callType = '\x00' then 1
    else if r.callDisconnect = '\x00' then 4 + (decimalPadded 2 r.callParties).length
    else 10 + (decimalPadded 2 r.callParties).length + r.ANI.length

/-- The number of characters of the text of a record. -/
def textLength (r : CdrRadius 32) : Nat :=
  30 + (decimal r.gwStartTime.toNat).length + (decimalPadded 3 ((toInt32 r.billingDuration).tdiv 360)).length +
    (decimalPadded 2 (toInt32 (r.billingDuration - r.billingDuration % 360 / 60 * 60))).length +
    (4 + r.originatorIp.length + (decimal r.originatorLine).length + r.terminatorIp.length +
      (decimal r.terminatorLine).length) + r.partyLength

theorem takeWhile_append_of_not_mem {x : List Char} (hnul : '\x00' ∉ x) (rest : List Char) :
    (x ++ rest).takeWhile (· ≠ '\x00') = x ++ rest.takeWhile (· ≠ '\x00') :=
  List.takeWhile_append_of_pos fun c hc => by simpa using ne_of_mem_of_not_mem hc hnul

theorem copied_of_not_mem {x : List Char} (hnul : '\x00' ∉ x) (hlen : x.length < 256) : copied x = x := by
  have htake : x.takeWhile (· ≠ '\x00') = x := by
    simpa using takeWhile_append_of_not_mem hnul []
  simp only [copied, htake, Nat.mod_eq_of_lt hlen, List.take_length]

theorem nul_not_mem_decimal (n : Int) : '\x00' ∉ decimal n :=
  fun h => absurd (isNumeric_of_mem_decimal h) (by decide)

theorem nul_not_mem_decimalPadded (width : Nat) (n : Int) : '\x00' ∉ decimalPadded width n :=
  fun h => absurd (isNumeric_of_mem_decimalPadded h) (by decide)

theorem nul_not_mem_timeText (t : Tm) : '\x00' ∉ timeText t := by
  simp [timeText, nul_not_mem_decimalPadded]

theorem length_decimal_of_word {n : Int} (hlow : -2 ^ 31 ≤ n) (hhigh : n < 2 ^ 32) : (decimal n).length ≤ 11 :=
  length_decimal_le (by decide) (by omega) (by omega)

theorem length_decimalPadded_of_word {n : Int} {width : Nat} (hwidth : width ≤ 11) (hlow : -2 ^ 31 ≤ n)
    (hhigh : n < 2 ^ 32) : (decimalPadded width n).length ≤ 11 := by
  rw [length_decimalPadded_eq]
  exact max_le hwidth (length_decimal_of_word hlow hhigh)

theorem toInt32_bounds (n : Nat) : -2 ^ 31 ≤ toInt32 n ∧ toInt32 n < 2 ^ 31 := by
  have hlow := BitVec.le_toInt (BitVec.ofNat 32 n)
  have hhigh := BitVec.toInt_lt (x := BitVec.ofNat 32 n)
  rw [toInt32]
  omega

theorem length_year {n : Int} (hlow : 1000 ≤ n) (hhigh : n < 10000) : (decimalPadded 2 n).length = 4 := by
  have hle := length_toDigits_le (n := n.toNat) (k := 4) (by decide) (by omega)
  have hnot : ¬ (Nat.toDigits 10 n.toNat).length ≤ 3 := by
    rw [Nat.length_toDigits_le_iff (by decide) (by decide)]
    omega
  rw [length_decimalPadded_eq, decimal, if_pos (by omega)]
  omega

theorem length_startText (r : CdrRadius 32) : (copied r.startText).length = 22 := by
  have hlow := BitVec.le_toInt r.gwStartTime
  have hhigh := BitVec.toInt_lt (x := r.gwStartTime)
  obtain ⟨hyear, hmon, hday, -⟩ := gmtime_bounds (t := r.gwStartTime.toInt) (by omega) (by omega)
  have htime := length_timeText (t := r.gwStartTime.toInt) (by omega) (by omega)
  have hyear : (decimalPadded 2 (1900 + (gmtime r.gwStartTime.toInt).year)).length = 4 :=
    length_year (by omega) (by omega)
  have hmon : (decimalPadded 2 ((gmtime r.gwStartTime.toInt).mon + 1)).length = 2 :=
    length_decimalPadded (by decide) (by omega) (by omega)
  have hday : (decimalPadded 2 (gmtime r.gwStartTime.toInt).mday).length = 2 :=
    length_decimalPadded (by decide) (by omega) (by omega)
  have hlen : r.startText.length = 22 := by
    simp only [startText, List.length_append, List.length_cons, List.length_nil, htime, hyear, hmon, hday]
  rw [copied_of_not_mem (by simp [startText, nul_not_mem_decimalPadded, nul_not_mem_timeText]) (by omega), hlen]

theorem length_billingText (r : CdrRadius 32) : (copied r.billingText).length =
    8 + (decimal r.gwStartTime.toNat).length + (decimalPadded 3 ((toInt32 r.billingDuration).tdiv 360)).length +
    (decimalPadded 2 (toInt32 (r.billingDuration - r.billingDuration % 360 / 60 * 60))).length := by
  have hduration := toInt32_bounds r.billingDuration
  have hquotient : ((toInt32 r.billingDuration).tdiv 360).natAbs = (toInt32 r.billingDuration).natAbs / 360 :=
    Int.natAbs_tdiv _ _
  have hstart := length_decimal_of_word (n := r.gwStartTime.toNat) (by omega) (by have := r.gwStartTime.isLt; omega)
  have hhour : (decimalPadded 3 ((toInt32 r.billingDuration).tdiv 360)).length ≤ 11 :=
    length_decimalPadded_of_word (by decide) (by omega) (by omega)
  have hmin : (decimalPadded 2 ((r.billingDuration % 360 / 60 : Nat) : Int)).length = 2 :=
    length_decimalPadded (by decide) (by omega) (by omega)
  have hrest := toInt32_bounds (r.billingDuration - r.billingDuration % 360 / 60 * 60)
  have hsec : (decimalPadded 2 (toInt32 (r.billingDuration - r.billingDuration % 360 / 60 * 60))).length ≤ 11 :=
    length_decimalPadded_of_word (by decide) (by omega) (by omega)
  have hlen : r.billingText.length =
      8 + (decimal r.gwStartTime.toNat).length + (decimalPadded 3 ((toInt32 r.billingDuration).tdiv 360)).length +
      (decimalPadded 2 (toInt32 (r.billingDuration - r.billingDuration % 360 / 60 * 60))).length := by
    simp only [billingText, List.length_append, List.length_cons, List.length_nil, hmin]
    omega
  rw [copied_of_not_mem (by simp [billingText, nul_not_mem_decimal, nul_not_mem_decimalPadded]) (by omega), hlen]

theorem length_gatewayText (h : r.Terminated) : (copied r.gatewayText).length =
    4 + r.originatorIp.length + (decimal r.originatorLine).length + r.terminatorIp.length +
      (decimal r.terminatorLine).length := by
  obtain ⟨horig, horig₀⟩ := h.texts_fit (r.originatorIp, 24) (by simp [texts])
  obtain ⟨hterm, hterm₀⟩ := h.texts_fit (r.terminatorIp, 24) (by simp [texts])
  have hline := h.originatorLine_fits
  have hline' := h.terminatorLine_fits
  have hnumber := length_decimal_of_word (n := r.originatorLine) (by omega) (by omega)
  have hnumber' := length_decimal_of_word (n := r.terminatorLine) (by omega) (by omega)
  have hlen : r.gatewayText.length = 4 + r.originatorIp.length + (decimal r.originatorLine).length +
      r.terminatorIp.length + (decimal r.terminatorLine).length := by
    simp only [gatewayText, List.length_append, List.length_cons, List.length_nil]
    omega
  dsimp only at horig hterm horig₀ hterm₀
  rw [copied_of_not_mem (by simp [gatewayText, nul_not_mem_decimal, horig₀, hterm₀]) (by omega), hlen]

theorem length_partyText (h : r.Terminated) : (copied r.partyText).length = r.partyLength := by
  obtain ⟨huser, huser₀⟩ := h.texts_fit (r.userId, 128) (by simp [texts])
  obtain ⟨he164, he164₀⟩ := h.texts_fit (r.E164CalledNum, 32) (by simp [texts])
  obtain ⟨hdtmf, hdtmf₀⟩ := h.texts_fit (r.DTMFCalledNum, 32) (by simp [texts])
  obtain ⟨hani, hani₀⟩ := h.texts_fit (r.ANI, 32) (by simp [texts])
  have hparties := h.callParties_fits
  have hnumber : (decimalPadded 2 r.callParties).length ≤ 11 :=
    length_decimalPadded_of_word (by decide) (by omega) (by omega)
  dsimp only at huser huser₀ he164 he164₀ hdtmf hdtmf₀ hani hani₀
  have htake : (r.partyText.takeWhile (· ≠ '\x00')).length = r.partyLength := by
    have hani' : (r.ANI.takeWhile fun c => !decide (c = '\x00')) = r.ANI := by
      simpa using takeWhile_append_of_not_mem hani₀ []
    simp only [partyText, List.append_assoc, List.cons_append, takeWhile_append_of_not_mem huser₀,
      takeWhile_append_of_not_mem he164₀, takeWhile_append_of_not_mem hdtmf₀,
      takeWhile_append_of_not_mem (nul_not_mem_decimalPadded _ _), List.takeWhile_cons, partyLength]
    by_cases hdirection : r.callDirection = '\x00'
    · simp [hdirection]
      omega
    · by_cases htype : r.callType = '\x00'
      · simp [hdirection, htype]
        omega
      · by_cases hdisconnect : r.callDisconnect = '\x00'
        · simp [hdirection, htype, hdisconnect]
          omega
        · simp [hdirection, htype, hdisconnect, hani']
          omega
  have hle : r.partyLength < 256 := by
    rw [partyLength]
    split_ifs <;> omega
  rw [copied]
  simp only [htake, Nat.mod_eq_of_lt hle, List.length_take, min_self]

theorem length_mindCdrVsaFormat (h : r.Terminated) : r.mindCdrVsaFormat.length = r.textLength := by
  simp only [mindCdrVsaFormat, List.length_append, length_startText, length_billingText, length_gatewayText h,
    length_partyText h, textLength]
  omega

end CdrRadius

namespace MindClient

variable {r : CdrRadius 32}

theorem sendAcctStartCallMsg_eq (md5 : Bytes → Vector UInt8 ACCT_VECTOR_LEN) (secretKey : Bytes)
    (clientAddr : Octets 4) (id : UInt8) (r : CdrRadius 32) :
    sendAcctStartCallMsg md5 secretKey clientAddr id r =
      ((SendBuffer.addHeader PW_ACCOUNTING_REQUEST id).addAll (startAttributes clientAddr r)).bind
        (SendBuffer.addMD5 md5 secretKey) := by
  simp only [sendAcctStartCallMsg, SendBuffer.addVsaAttribute_eq, SendBuffer.addAll, startAttributes,
    List.foldlM_cons, List.foldlM_nil, Option.bind_eq_bind, Option.bind_assoc, Option.pure_def, Option.bind_some]
  rfl

theorem sendAcctStopCallMsg_eq (md5 : Bytes → Vector UInt8 ACCT_VECTOR_LEN) (secretKey : Bytes) (id : UInt8)
    (r : CdrRadius 32) :
    sendAcctStopCallMsg md5 secretKey id r =
      ((SendBuffer.addHeader PW_ACCOUNTING_REQUEST id).addAll (stopAttributes r)).bind
        (SendBuffer.addMD5 md5 secretKey) := by
  simp only [sendAcctStopCallMsg, SendBuffer.addVsaAttribute_eq, SendBuffer.addMindCdr_eq, SendBuffer.addAll,
    stopAttributes, List.foldlM_cons, List.foldlM_nil, Option.bind_eq_bind, Option.bind_assoc, Option.pure_def,
    Option.bind_some]
  rfl

/-- The bytes of a message at the start of a call. -/
def startLength (r : CdrRadius 32) : Nat := 127 + r.callId.length + (calledNum r).length + 2 * r.userId.length

/-- The bytes of a message at the end of a call. -/
def stopLength (r : CdrRadius 32) : Nat := 74 + r.callId.length + r.userId.length + r.textLength

@[simp] theorem length_vsa (vsaType : UInt8) (value : Bytes) : (vsa vsaType value).2.length = value.length + 6 := by
  simp [vsa]
  omega

@[simp] theorem length_bytes (text : List Char) : (bytes text).length = text.length := List.length_map _

@[simp] theorem length_htonl (t : BitVec 32) : (htonl t).length = 4 := rfl

theorem length_startAttributes (clientAddr : Octets 4) (r : CdrRadius 32) :
    sizeofAcctHdr + (Tlv.encodeAll (startAttributes clientAddr r)).length = startLength r := by
  have haddr : clientAddr.1.length = 4 := clientAddr.2
  simp only [startAttributes, Tlv.encodeAll_cons, Tlv.encodeAll_nil, List.length_append, Tlv.length_encode,
    length_vsa, length_bytes, length_htonl, Bytes.length_ofWord32, List.length_cons, List.length_nil, haddr,
    startLength, sizeofAcctHdr, ACCT_VECTOR_LEN]
  omega

theorem length_stopAttributes (h : r.Terminated) :
    sizeofAcctHdr + (Tlv.encodeAll (stopAttributes r)).length = stopLength r := by
  simp only [stopAttributes, Tlv.encodeAll_cons, Tlv.encodeAll_nil, List.length_append, Tlv.length_encode,
    length_vsa, length_bytes, length_htonl, Bytes.length_ofWord32, List.length_cons, List.length_nil,
    CdrRadius.length_mindCdrVsaFormat h, stopLength, sizeofAcctHdr, ACCT_VECTOR_LEN]
  omega

theorem counted_vsa (vsaType : UInt8) (value : Bytes) : SendBuffer.Counted (vsa vsaType value) ↔ value.length ≤ 247 := by
  have hget : (vsa vsaType value).2.getD 5 0 = UInt8.ofNat (value.length + 2) := rfl
  rw [SendBuffer.Counted, hget, length_vsa, UInt8.toNat_ofNat', Tlv.maxValue]
  constructor
  · rintro ⟨hle, -⟩
    omega
  · intro hle
    exact ⟨by omega, fun _ => by omega⟩

theorem counted_of_ne {type : UInt8} (htype : type ≠ PW_VENDOR_SPECIFIC) (value : Bytes) :
    SendBuffer.Counted (type, value) ↔ value.length ≤ 253 :=
  ⟨fun h => h.1, fun h => ⟨h, fun heq => absurd heq htype⟩⟩

theorem length_calledNum (h : r.Terminated) : (calledNum r).length < 32 := by
  rw [calledNum]
  split_ifs with hempty
  · exact (h.texts_fit (r.E164CalledNum, 32) (by simp [CdrRadius.texts])).1
  · exact (h.texts_fit (r.DTMFCalledNum, 32) (by simp [CdrRadius.texts])).1

theorem counted_startAttributes (h : r.Terminated) (clientAddr : Octets 4) :
    (∀ a ∈ startAttributes clientAddr r, SendBuffer.Counted a) ↔ r.callId.length ≤ 253 := by
  have huser : r.userId.length < 128 := (h.texts_fit (r.userId, 128) (by simp [CdrRadius.texts])).1
  have hcalled := length_calledNum h
  have haddr : clientAddr.1.length = 4 := clientAddr.2
  simp only [startAttributes, List.forall_mem_cons, counted_vsa,
    counted_of_ne (show PW_ACCT_STATUS_TYPE ≠ PW_VENDOR_SPECIFIC by decide),
    counted_of_ne (show PW_ACCT_SESSION_ID ≠ PW_VENDOR_SPECIFIC by decide),
    counted_of_ne (show PW_CALLED_STATION_ID ≠ PW_VENDOR_SPECIFIC by decide),
    counted_of_ne (show PW_CALLING_STATION_ID ≠ PW_VENDOR_SPECIFIC by decide),
    counted_of_ne (show PW_USER_NAME ≠ PW_VENDOR_SPECIFIC by decide),
    counted_of_ne (show PW_NAS_IP_ADDRESS ≠ PW_VENDOR_SPECIFIC by decide),
    length_bytes, length_htonl, Bytes.length_ofWord32, List.length_cons, List.length_nil, haddr]
  constructor
  · rintro ⟨-, hcallId, -⟩
    exact hcallId
  · intro hcallId
    refine ⟨?_, hcallId, ?_, ?_, ?_, ?_, ?_, ?_, ?_, ?_, ?_, ?_, ?_, ?_, ?_, by simp⟩ <;> omega

theorem counted_stopAttributes (h : r.Terminated) :
    (∀ a ∈ stopAttributes r, SendBuffer.Counted a) ↔ r.callId.length ≤ 253 ∧ r.textLength ≤ 247 := by
  have huser : r.userId.length < 128 := (h.texts_fit (r.userId, 128) (by simp [CdrRadius.texts])).1
  simp only [stopAttributes, List.forall_mem_cons, counted_vsa,
    counted_of_ne (show PW_ACCT_STATUS_TYPE ≠ PW_VENDOR_SPECIFIC by decide),
    counted_of_ne (show PW_ACCT_SESSION_ID ≠ PW_VENDOR_SPECIFIC by decide),
    counted_of_ne (show PW_CALLING_STATION_ID ≠ PW_VENDOR_SPECIFIC by decide),
    counted_of_ne (show PW_ACCT_SESSION_TIME ≠ PW_VENDOR_SPECIFIC by decide),
    length_bytes, length_htonl, Bytes.length_ofWord32, List.length_cons, List.length_nil,
    CdrRadius.length_mindCdrVsaFormat h]
  constructor
  · rintro ⟨-, hcallId, -, -, htext, -⟩
    exact ⟨hcallId, htext⟩
  · rintro ⟨hcallId, htext⟩
    refine ⟨?_, hcallId, ?_, ?_, htext, ?_, ?_, ?_, by simp⟩ <;> omega

/-- Both messages of a call are well formed exactly if the id of the call has at most 253 characters and the text
of the record at most 247, and the secret has room behind the attributes. -/
theorem wellFormed_iff (md5 : Bytes → Vector UInt8 ACCT_VECTOR_LEN) (secretKey : Bytes) (clientAddr : Octets 4)
    (id : UInt8) {r : CdrRadius 32} (h : r.Terminated) :
    ((∃ m, sendAcctStartCallMsg md5 secretKey clientAddr id r = some m ∧
        m.WellFormed (startAttributes clientAddr r)) ∧
      ∃ m, sendAcctStopCallMsg md5 secretKey id r = some m ∧ m.WellFormed (stopAttributes r)) ↔
    r.callId.length ≤ 253 ∧ r.textLength ≤ 247 ∧
      SendBuffer.HasRoom secretKey (startLength r) ∧ SendBuffer.HasRoom secretKey (stopLength r) := by
  rw [sendAcctStartCallMsg_eq, sendAcctStopCallMsg_eq, SendBuffer.exists_wellFormed_iff,
    SendBuffer.exists_wellFormed_iff, length_startAttributes, length_stopAttributes h, counted_startAttributes h,
    counted_stopAttributes h]
  constructor
  · rintro ⟨⟨hcallId, hstart⟩, ⟨-, htext⟩, hstop⟩
    exact ⟨hcallId, htext, hstart, hstop⟩
  · rintro ⟨hcallId, htext, hstart, hstop⟩
    exact ⟨⟨hcallId, hstart⟩, ⟨hcallId, htext⟩, hstop⟩

/-- A call of seven seconds. -/
def sampleCall : CdrRadius 32 :=
  { callId := "1".toList, userId := "6000".toList, gwStartTime := 951827696, gwEndTime := 951827703, billingDuration := 7
    DTMFCalledNum := "6001".toList, callType := 'V', callParties := 1, callDisconnect := 'N', callDirection := 'O' }

theorem terminated_sampleCall : sampleCall.Terminated :=
  ⟨by decide, by decide, by decide, by decide⟩

theorem wellFormed_sampleCall :
    sampleCall.Terminated ∧
      (∃ m, sendAcctStartCallMsg (fun _ => Vector.replicate ACCT_VECTOR_LEN 0) [115] ⟨[127, 0, 0, 1], rfl⟩ 1 sampleCall =
        some m ∧ m.WellFormed (startAttributes ⟨[127, 0, 0, 1], rfl⟩ sampleCall)) ∧
      ∃ m, sendAcctStopCallMsg (fun _ => Vector.replicate ACCT_VECTOR_LEN 0) [115] 1 sampleCall = some m ∧
        m.WellFormed (stopAttributes sampleCall) :=
  ⟨terminated_sampleCall, (wellFormed_iff _ _ _ _ terminated_sampleCall).mpr
    ⟨by decide, by decide, by decide, by decide⟩⟩

/-- A call whose id has 254 characters. -/
def longCall : CdrRadius 32 := { sampleCall with callId := List.replicate 254 'a' }

theorem terminated_longCall : longCall.Terminated := by
  refine ⟨fun p hp => ?_, by decide, by decide, by decide⟩
  rcases List.mem_cons.mp hp with rfl | hp
  · have hlen : longCall.callId.length = 254 := List.length_replicate
    exact ⟨by rw [hlen]; decide, fun hnul => absurd (List.eq_of_mem_replicate hnul) (by decide)⟩
  · exact terminated_sampleCall.texts_fit p (List.mem_cons_of_mem _ hp)

/-- The length of the id is counted as zero. -/
theorem not_wellFormed : ¬ ∀ (md5 : Bytes → Vector UInt8 ACCT_VECTOR_LEN) (secretKey : Bytes)
    (clientAddr : Octets 4) (id : UInt8) (r : CdrRadius 32), r.Terminated →
    (∃ m, sendAcctStartCallMsg md5 secretKey clientAddr id r = some m ∧
        m.WellFormed (startAttributes clientAddr r)) ∧
      ∃ m, sendAcctStopCallMsg md5 secretKey id r = some m ∧ m.WellFormed (stopAttributes r) := by
  intro h
  obtain ⟨-, m, -, hwell⟩ := h (fun _ => Vector.replicate ACCT_VECTOR_LEN 0) [115] ⟨[127, 0, 0, 1], rfl⟩ 1 longCall
    terminated_longCall
  have hcallId := (Tlv.encodeAll_of_walk hwell.walk_eq).2 (PW_ACCT_SESSION_ID, bytes longCall.callId)
    (by simp [stopAttributes])
  rw [length_bytes, longCall, List.length_replicate, Tlv.maxValue] at hcallId
  omega

end MindClient

end Vocal.Cdr
