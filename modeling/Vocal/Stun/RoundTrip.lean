import Vocal.Stun.Overlap

/-!
# STUN messages are read back

Which messages `stunParseMessage` gives back from the bytes that `stunEncodeMessage` writes. The error
code and the unknown attributes are written with a length that is two bytes too large: the parser takes
the bytes of the next attribute for theirs.
-/

namespace Vocal.Stun

open Bytes

/-! ### The bytes -/

namespace StunMessage

/-- The attributes up to the password. -/
def front (m : StunMessage) : Bytes :=
  whenPresent m.hasMappedAddress (encodeAtrAddress4 .MappedAddress m.mappedAddress) ++
  (whenPresent m.hasResponseAddress (encodeAtrAddress4 .ResponseAddress m.responseAddress) ++
  (whenPresent m.hasChangeRequest (encodeAtrChangeRequest m.changeRequest) ++
  (whenPresent m.hasSourceAddress (encodeAtrAddress4 .SourceAddress m.sourceAddress) ++
  (whenPresent m.hasChangedAddress (encodeAtrAddress4 .ChangedAddress m.changedAddress) ++
  (whenPresent m.hasUsername
    (encode16 AtrType.Username.code ++ encode16 m.username.sizeValue ++ m.username.text) ++
  whenPresent m.hasPassword
    (encode16 AtrType.Password.code ++ encode16 m.password.sizeValue ++ m.password.text))))))

/-- The attributes whose lengths are too large. -/
def middle (m : StunMessage) : Bytes :=
  whenPresent m.hasErrorCode (encodeAtrError m.errorCode) ++
  whenPresent m.hasUnknownAttributes (encodeAtrUnknown m.unknownAttributes)

/-- The sizes of the strings are multiples of 4. -/
def Aligned (m : StunMessage) : Prop :=
  (m.hasUsername = true → m.username.sizeValue.toNat % 4 = 0) ∧
  (m.hasPassword = true → m.password.sizeValue.toNat % 4 = 0)

end StunMessage

/-- The last attributes. -/
def closing (hasReflectedFrom : Bool) (r : StunAtrAddress4) (hasIntegrity : Bool) (i : StunAtrIntegrity) : Bytes :=
  whenPresent hasReflectedFrom (encodeAtrAddress4 .ReflectedFrom r) ++
  whenPresent hasIntegrity (encodeAtrIntegrity i)

theorem mod_four_iff (w : UInt16) : w % 4 = 0 ↔ w.toNat % 4 = 0 := by
  rw [← UInt16.toNat_inj, UInt16.toNat_mod]
  rfl

theorem encodeAtrString_eq_some_iff {type : AtrType} {a : StunAtrString} {x : Bytes} :
    encodeAtrString type a = some x ↔
      a.sizeValue.toNat % 4 = 0 ∧ x = encode16 type.code ++ encode16 a.sizeValue ++ a.text := by
  rw [encodeAtrString, ← mod_four_iff]
  split
  · rename_i h
    simp [h, eq_comm]
  · rename_i h
    simp [h]

theorem encodeString_eq_some_iff {has : Bool} {type : AtrType} {a : StunAtrString} {x : Bytes} :
    encodeString has type a = some x ↔
      (has = true → a.sizeValue.toNat % 4 = 0) ∧
        x = whenPresent has (encode16 type.code ++ encode16 a.sizeValue ++ a.text) := by
  cases has with
  | false => simp [encodeString, whenPresent, eq_comm]
  | true => simp [encodeString, whenPresent, encodeAtrString_eq_some_iff]

theorem encodeAttributes_eq_some_iff {m : StunMessage} {x : Bytes} :
    encodeAttributes m = some x ↔
      m.Aligned ∧ x = m.front ++ (m.middle ++
        whenPresent m.hasReflectedFrom (encodeAtrAddress4 .ReflectedFrom m.reflectedFrom)) := by
  rw [encodeAttributes]
  simp only [bind, Option.bind_eq_some_iff, encodeString_eq_some_iff]
  constructor
  · rintro ⟨username, ⟨huser, rfl⟩, password, ⟨hpass, rfl⟩, h⟩
    refine ⟨⟨huser, hpass⟩, ?_⟩
    rw [← Option.some.inj h, StunMessage.front, StunMessage.middle]
    simp only [List.append_assoc]
  · rintro ⟨⟨huser, hpass⟩, rfl⟩
    refine ⟨_, ⟨huser, rfl⟩, _, ⟨hpass, rfl⟩, ?_⟩
    rw [StunMessage.front, StunMessage.middle]
    simp only [List.append_assoc]

variable (computeHmac : Bytes → Bytes → Octets 20)

/-- The message integrity that is written. -/
def integrityOf (m : StunMessage) (password : StunAtrString) : StunAtrIntegrity :=
  ⟨computeHmac password.text (encodeHeader m.msgHdr 0 ++ (m.front ++ (m.middle ++
    whenPresent m.hasReflectedFrom (encodeAtrAddress4 .ReflectedFrom m.reflectedFrom))))⟩

/-- What is written after the header. -/
def encodedBody (m : StunMessage) (password : StunAtrString) : Bytes :=
  m.front ++ (m.middle ++ closing m.hasReflectedFrom m.reflectedFrom (0 < password.sizeValue)
    (integrityOf computeHmac m password))

theorem stunEncodeMessage_eq_some_iff {m : StunMessage} {password : StunAtrString} {buf : Bytes} :
    stunEncodeMessage computeHmac m password = some buf ↔
      m.Aligned ∧ buf = encodeHeader m.msgHdr (.ofNat (encodedBody computeHmac m password).length) ++
        encodedBody computeHmac m password := by
  rw [stunEncodeMessage]
  simp only [bind, Option.bind_eq_some_iff, encodeAttributes_eq_some_iff]
  have hbody : ∀ x, x = m.front ++ (m.middle ++
      whenPresent m.hasReflectedFrom (encodeAtrAddress4 .ReflectedFrom m.reflectedFrom)) →
      x ++ encodeIntegrity computeHmac password (encodeHeader m.msgHdr 0 ++ x) =
        encodedBody computeHmac m password := by
    rintro x rfl
    rw [encodedBody, closing, encodeIntegrity, integrityOf]
    simp only [List.append_assoc]
  constructor
  · rintro ⟨x, ⟨haligned, hx⟩, h⟩
    rw [hbody x hx] at h
    exact ⟨haligned, (Option.some.inj h).symm⟩
  · rintro ⟨haligned, rfl⟩
    refine ⟨_, ⟨haligned, rfl⟩, ?_⟩
    rw [hbody _ rfl]

/-! ### Lengths -/

theorem length_whenPresent_le (has : Bool) (x : Bytes) : (whenPresent has x).length ≤ x.length := by
  cases has
  · exact Nat.zero_le _
  · exact le_rfl

theorem length_types (a : StunAtrUnknown) : a.types.length = a.numAttributes.toNat := by
  have hbound := a.bound
  rw [StunAtrUnknown.types, List.length_take, a.attrType.2]
  omega

theorem length_reason (a : StunAtrError) : a.text.length = a.sizeReason.toNat := by
  have hbound := a.bound
  rw [StunAtrError.text, List.length_take, a.reason.2]
  omega

@[simp] theorem length_encode16 (w : UInt16) : (encode16 w).length = 2 := rfl

@[simp] theorem length_encode32 (w : UInt32) : (encode32 w).length = 4 := rfl

@[simp] theorem length_encodeAtrAddress4 (type : AtrType) (a : StunAtrAddress4) :
    (encodeAtrAddress4 type a).length = 12 := rfl

@[simp] theorem length_encodeAtrIntegrity (a : StunAtrIntegrity) : (encodeAtrIntegrity a).length = 24 := by
  simp [encodeAtrIntegrity, a.hash.2]

theorem length_encodedBody_lt (m : StunMessage) (password : StunAtrString) :
    (encodedBody computeHmac m password).length < 2 ^ 16 := by
  have huser := length_text m.username
  have hpass := length_text m.password
  have herror := length_reason m.errorCode
  have htypes := length_types m.unknownAttributes
  have h₁ := m.username.bound
  have h₂ := m.password.bound
  have h₃ := m.errorCode.bound
  have h₄ := m.unknownAttributes.bound
  have hpresent := length_whenPresent_le
  have hsum : (encodedBody computeHmac m password).length ≤
      12 + (12 + (8 + (12 + (12 + (4 + m.username.text.length + (4 + m.password.text.length)))))) +
        ((8 + m.errorCode.text.length) + (4 + 2 * m.unknownAttributes.types.length) + (12 + 24)) := by
    simp only [encodedBody, StunMessage.front, StunMessage.middle, closing, List.length_append]
    refine Nat.add_le_add (Nat.add_le_add (hpresent _ _) (Nat.add_le_add (hpresent _ _)
      (Nat.add_le_add (hpresent _ _) (Nat.add_le_add (hpresent _ _) (Nat.add_le_add (hpresent _ _)
      (Nat.add_le_add ((hpresent _ _).trans ?_) ((hpresent _ _).trans ?_)))))))
      (Nat.add_le_add (Nat.add_le_add ((hpresent _ _).trans ?_) ((hpresent _ _).trans ?_))
      (Nat.add_le_add (hpresent _ _) ((hpresent _ _).trans ?_)))
    · simp
      omega
    · simp
      omega
    · simp [encodeAtrError]
      omega
    · simp [encodeAtrUnknown]
      omega
    · simp
  simp only [STUN_MAX_STRING, STUN_MAX_UNKNOWN_ATTRIBUTES] at h₁ h₂ h₃ h₄
  omega

/-! ### The header -/

theorem parseHeader_encode (hdr : StunMsgHdr) (len : UInt16) (body : Bytes) :
    parseHeader (encodeHeader hdr len ++ body) = .ok { hdr with msgLength := len } := by
  obtain ⟨type, len', id⟩ := hdr
  have htype : read16 (encodeHeader ⟨type, len', id⟩ len ++ body) 0 = .ok type :=
    congrArg Except.ok (word16_ofWord16 type)
  have hlen : read16 (encodeHeader ⟨type, len', id⟩ len ++ body) 2 = .ok len :=
    congrArg Except.ok (word16_ofWord16 len)
  have hslice : slice (encodeHeader ⟨type, len', id⟩ len ++ body) 4 16 = some id.1 := by
    have hid := id.2
    rw [slice, if_pos (by simp [encodeHeader, hid]; omega)]
    have hdrop : (encodeHeader ⟨type, len', id⟩ len ++ body).drop 4 = id.1 ++ body := rfl
    rw [hdrop, List.take_left' hid]
  have hstore : Octets.store (List.Vector.replicate 16 0) 0 id.1 = some id := by
    rw [Octets.store_replicate id.2.le]
    congr 1
    apply Subtype.ext
    simp [Octets.padded, id.2]
  rw [parseHeader, htype, hlen, memcpy, hslice]
  simp only [access, bind, Except.bind, hstore]
  rfl

theorem stunParseMessage_encode (hdr : StunMsgHdr) {body : Bytes} (hlt : body.length < 2 ^ 16) :
    stunParseMessage (encodeHeader hdr (.ofNat body.length) ++ body) =
      parseRest { msgHdr := { hdr with msgLength := .ofNat body.length } } body := by
  have hheader : (encodeHeader hdr (.ofNat body.length)).length = sizeofStunMsgHdr := by
    simp [encodeHeader, hdr.id.2, sizeofStunMsgHdr]
  have hlen : (UInt16.ofNat body.length).toNat = body.length := by
    rw [UInt16.toNat_ofNat', Nat.mod_eq_of_lt hlt]
  rw [stunParseMessage, if_neg (by rw [List.length_append, hheader]; omega),
    parseHeader_encode]
  show (if _ then _ else _) = _
  rw [if_neg (by rw [hlen, List.length_append, hheader]; omega),
    List.drop_left' hheader, parseRest]
  apply parseAttributes_turns
  · rw [List.length_append]
    omega
  · exact le_rfl

/-! ### The attributes up to the password -/

namespace StunMessage

/-- The strings do not fill their arrays. -/
def Fits (m : StunMessage) : Prop :=
  (m.hasUsername = true → m.username.sizeValue.toNat < STUN_MAX_STRING) ∧
  (m.hasPassword = true → m.password.sizeValue.toNat < STUN_MAX_STRING)

/-- The address as it is read back. -/
def restoredAddress (a : StunAtrAddress4) : StunAtrAddress4 := { a with family := IPv4Family }

/-- The message when the attributes up to the password are parsed. -/
def readFront (m : StunMessage) (msgHdr : StunMsgHdr) : StunMessage :=
  let msg : StunMessage := { msgHdr }
  let msg := msg.putAddress .MappedAddress m.hasMappedAddress (restoredAddress m.mappedAddress)
  let msg := msg.putAddress .ResponseAddress m.hasResponseAddress (restoredAddress m.responseAddress)
  let msg := msg.putChangeRequest m.hasChangeRequest m.changeRequest
  let msg := msg.putAddress .SourceAddress m.hasSourceAddress (restoredAddress m.sourceAddress)
  let msg := msg.putAddress .ChangedAddress m.hasChangedAddress (restoredAddress m.changedAddress)
  let msg := msg.putUsername m.hasUsername m.username.restored
  msg.putPassword m.hasPassword m.password.restored

end StunMessage

open StunMessage in
theorem parseRest_front {m : StunMessage} (haligned : m.Aligned) (msgHdr : StunMsgHdr) (rest : Bytes) :
    (m.Fits → parseRest { msgHdr } (m.front ++ rest) = parseRest (m.readFront msgHdr) rest) ∧
    (¬m.Fits → parseRest { msgHdr } (m.front ++ rest) = .error .rejected) := by
  obtain ⟨huser, hpass⟩ := haligned
  have hfront : parseRest { msgHdr } (m.front ++ rest) =
      parseRest ((((({ msgHdr } : StunMessage).putAddress .MappedAddress m.hasMappedAddress
        (restoredAddress m.mappedAddress)).putAddress .ResponseAddress m.hasResponseAddress
        (restoredAddress m.responseAddress)).putChangeRequest m.hasChangeRequest m.changeRequest).putAddress
        .SourceAddress m.hasSourceAddress (restoredAddress m.sourceAddress) |>.putAddress .ChangedAddress
        m.hasChangedAddress (restoredAddress m.changedAddress))
        (whenPresent m.hasUsername
          (encode16 AtrType.Username.code ++ encode16 m.username.sizeValue ++ m.username.text) ++
        (whenPresent m.hasPassword
          (encode16 AtrType.Password.code ++ encode16 m.password.sizeValue ++ m.password.text) ++ rest)) := by
    rw [front, List.append_assoc, parseRest_address rfl, List.append_assoc, parseRest_address rfl,
      List.append_assoc, parseRest_changeRequest, List.append_assoc, parseRest_address rfl,
      List.append_assoc, parseRest_address rfl, List.append_assoc]
    rfl
  have hlong : ∀ size : Nat, ¬STUN_MAX_STRING ≤ size ↔ size < STUN_MAX_STRING := fun _ => Nat.not_le
  rw [hfront, parseRest_string (parseAttribute_username rfl) (StunMessage.putUsername_false _) huser,
    parseRest_string (parseAttribute_password rfl) (StunMessage.putPassword_false _) hpass]
  constructor
  · rintro ⟨hfits, hfits'⟩
    rw [if_neg (fun h => (hlong _).mpr (hfits h.1) h.2), if_neg (fun h => (hlong _).mpr (hfits' h.1) h.2)]
    rfl
  · intro hnot
    by_cases hname : m.hasUsername = true ∧ STUN_MAX_STRING ≤ m.username.sizeValue.toNat
    · rw [if_pos hname]
    · rw [if_neg hname, if_pos]
      by_contra hword
      refine hnot ⟨fun h => ?_, fun h => ?_⟩
      · exact (hlong _).mp fun hle => hname ⟨h, hle⟩
      · exact (hlong _).mp fun hle => hword ⟨h, hle⟩

/-! ### The last attributes -/

/-- The message when the last attributes are parsed, too. -/
def StunMessage.readClosing (msg : StunMessage) (r : Bool) (a : StunAtrAddress4) (i : Bool)
    (h : StunAtrIntegrity) : StunMessage :=
  (msg.putAddress .ReflectedFrom r (StunMessage.restoredAddress a)).putIntegrity i h

theorem parseRest_closing (msg : StunMessage) (r : Bool) (a : StunAtrAddress4) (i : Bool)
    (h : StunAtrIntegrity) : parseRest msg (closing r a i h) = .ok (msg.readClosing r a i h) := by
  rw [closing, parseRest_address rfl, ← List.append_nil (whenPresent i _), parseRest_integrity, parseRest_nil]
  rfl

/-- The last attributes without their first two bytes are rejected. -/
theorem parseRest_drop_closing (msg : StunMessage) {r i : Bool} (hne : r = true ∨ i = true)
    (a : StunAtrAddress4) (h : StunAtrIntegrity) :
    parseRest msg ((closing r a i h).drop 2) = .error .rejected := by
  cases r with
  | true =>
    have htext : (closing true a i h).drop 2 =
        0 :: 8 :: a.pad :: 1 :: (encode16 a.ipv4.port ++ encode32 a.ipv4.addr ++
          whenPresent i (encodeAtrIntegrity h)) := rfl
    rw [htext, parseRest_cons]
    split
    · rfl
    · have hlen : (word16 a.pad 1).toNat ≠ 20 := by
        rw [toNat_word16]
        simp
        omega
      have htype : AtrType.ofCode (word16 0 8) = some .MessageIntegrity := rfl
      rw [parseAttribute, htype]
      simp only
      rw [stunParseAtrIntegrity, if_pos hlen]
      rfl
  | false =>
    obtain rfl : i = true := by simpa using hne
    obtain ⟨⟨hash, hlen⟩⟩ := h
    obtain ⟨x, y, z, w, hash, rfl⟩ := word16_cases (by omega : 4 ≤ hash.length)
    have htext : (closing false a true ⟨⟨x :: y :: z :: w :: hash, hlen⟩⟩).drop 2 =
        0 :: 20 :: x :: y :: z :: w :: hash := rfl
    rw [htext, parseRest_cons]
    split
    · rfl
    · rfl

/-! ### The attributes whose lengths are too large -/

theorem length_closing (r : Bool) (a : StunAtrAddress4) (i : Bool) (h : StunAtrIntegrity) :
    (closing r a i h).length = (if r then 12 else 0) + (if i then 24 else 0) := by
  cases r <;> cases i <;> simp [closing, whenPresent]

/-- A length that is two bytes too large makes the last attributes unreadable. -/
theorem parseRest_oversized (msg m' : StunMessage) (type : UInt16) {len : UInt16} {content : Bytes}
    (hlen : len.toNat = content.length + 2) (r : Bool) (a : StunAtrAddress4) (i : Bool) (h : StunAtrIntegrity) :
    parseRest msg (encode16 type ++ encode16 len ++ (content ++ closing r a i h)) ≠ .ok m' := by
  rw [parseRest_head]
  split
  · intro hok
    cases hok
  · rename_i hle
    have hclosing := length_closing r a i h
    have hdrop : (content ++ closing r a i h).drop len.toNat = (closing r a i h).drop 2 := by
      rw [hlen, List.drop_append, List.drop_eq_nil_of_le (by omega), List.nil_append]
      congr 1
      omega
    have hne : r = true ∨ i = true := by
      by_contra hno
      rw [not_or, Bool.not_eq_true, Bool.not_eq_true] at hno
      rw [hno.1, hno.2] at hclosing
      rw [List.length_append] at hle
      simp only [Bool.false_eq_true, if_false] at hclosing
      rw [hno.1, hno.2] at hle
      omega
    rw [hdrop]
    intro hok
    obtain ⟨msg₁, -, hrest⟩ := bind_eq_ok hok
    rw [parseRest_drop_closing msg₁ hne] at hrest
    cases hrest

theorem toNat_errorLength (e : StunAtrError) : (6 + e.sizeReason).toNat = e.sizeReason.toNat + 6 := by
  have hbound := e.bound
  simp only [STUN_MAX_STRING] at hbound
  rw [UInt16.toNat_add, show (6 : UInt16).toNat = 6 from rfl]
  omega

theorem toNat_unknownLength (u : StunAtrUnknown) :
    (2 + 2 * u.numAttributes).toNat = 2 * u.numAttributes.toNat + 2 := by
  have hbound := u.bound
  simp only [STUN_MAX_UNKNOWN_ATTRIBUTES] at hbound
  rw [UInt16.toNat_add, UInt16.toNat_mul, show (2 : UInt16).toNat = 2 from rfl]
  omega

theorem parseRest_only_error (msg m' : StunMessage) (e : StunAtrError) (r : Bool) (a : StunAtrAddress4)
    (i : Bool) (h : StunAtrIntegrity) :
    parseRest msg (encodeAtrError e ++ closing r a i h) ≠ .ok m' := by
  have hlen := toNat_errorLength e
  have htext := length_reason e
  rw [encodeAtrError, List.append_assoc]
  apply parseRest_oversized
  rw [hlen]
  simp [htext]
  omega

theorem parseRest_only_unknown (msg m' : StunMessage) (u : StunAtrUnknown) (r : Bool) (a : StunAtrAddress4)
    (i : Bool) (h : StunAtrIntegrity) :
    parseRest msg (encodeAtrUnknown u ++ closing r a i h) ≠ .ok m' := by
  have hlen := toNat_unknownLength u
  have htypes := length_types u
  rw [encodeAtrUnknown, List.append_assoc]
  apply parseRest_oversized
  rw [hlen]
  simp [htypes]
  omega

/-! ### Error code and unknown attributes together -/

section Shifted

variable {msg m' : StunMessage} {r i : Bool} {a : StunAtrAddress4} {h : StunAtrIntegrity}

theorem family_closing : ((closing r a i h).drop 1).head? ≠ some IPv4Family := by
  cases r with
  | true =>
    show some (11 : UInt8) ≠ some IPv4Family
    decide
  | false =>
    cases i with
    | true =>
      show some (8 : UInt8) ≠ some IPv4Family
      decide
    | false =>
      show none ≠ some IPv4Family
      decide

theorem shifted_none : parseRest msg (0 :: 2 :: closing r a i h) ≠ .ok m' := by
  intro hok
  cases r with
  | true =>
    have htext : closing true a i h = 0 :: 11 :: (closing true a i h).drop 2 := rfl
    rw [htext, parseRest_cons] at hok
    split at hok
    · cases hok
    · obtain ⟨msg₁, hattr, -⟩ := bind_eq_ok hok
      obtain ⟨b, hb, -⟩ := bind_eq_ok hattr
      exact absurd (stunParseAtrAddress_ok hb).1 (by decide)
  | false =>
    cases i with
    | true =>
      have htext : closing false a true h = 0 :: 8 :: 0 :: 20 :: h.hash.1 := rfl
      rw [htext, parseRest_cons] at hok
      split at hok
      · cases hok
      · obtain ⟨msg₁, hattr, -⟩ := bind_eq_ok hok
        obtain ⟨b, hb, -⟩ := bind_eq_ok hattr
        exact absurd (stunParseAtrAddress_ok hb).2 (by simp [IPv4Family])
    | false =>
      rw [show closing false a false h = [] from rfl, parseRest_short (by simp) (by simp)] at hok
      cases hok

theorem shifted_one (type : UInt16) :
    parseRest msg (0 :: 4 :: (encode16 type ++ closing r a i h)) ≠ .ok m' := by
  intro hok
  have hhead := parseRest_head msg AtrType.SourceAddress.code type (closing r a i h)
  rw [show encode16 AtrType.SourceAddress.code ++ encode16 type ++ closing r a i h =
    0 :: 4 :: (encode16 type ++ closing r a i h) from rfl] at hhead
  rw [hhead] at hok
  split at hok
  · cases hok
  · obtain ⟨msg₁, hattr, -⟩ := bind_eq_ok hok
    obtain ⟨b, hb, -⟩ := bind_eq_ok hattr
    exact family_closing (stunParseAtrAddress_ok hb).2

/-- What follows two listed attributes without the first, when that is 0: the other one is taken for a
type, and the type of the next attribute for its length. -/
theorem shifted_zero (type : UInt16) (hnone : msg.unknownAttributes = {})
    (hnum : m'.unknownAttributes.numAttributes.toNat = 2)
    (htypes : m'.unknownAttributes.types.head? = some 0) (hne : r = true ∨ i = true) :
    parseRest msg (encode16 type ++ closing r a i h) ≠ .ok m' := by
  intro hok
  cases r with
  | true =>
    have htext : encode16 type ++ closing true a i h = encode16 type ++ encode16 11 ++
      (0 :: 8 :: a.pad :: 1 :: (encode16 a.ipv4.port ++ encode32 a.ipv4.addr) ++
        whenPresent i (encodeAtrIntegrity h)) := rfl
    rw [htext, parseRest_head] at hok
    split at hok
    · cases hok
    · rename_i hle
      cases i with
      | false => exact hle (show 10 < 11 by decide)
      | true =>
        obtain ⟨msg₁, -, hrest⟩ := bind_eq_ok hok
        obtain ⟨⟨hash, hlen⟩⟩ := h
        match hash, hlen with
        | x :: hash, hlen =>
          have hdrop : (0 :: 8 :: a.pad :: 1 :: (encode16 a.ipv4.port ++ encode32 a.ipv4.addr) ++
              whenPresent true (encodeAtrIntegrity ⟨⟨x :: hash, hlen⟩⟩)).drop (11 : UInt16).toNat =
              8 :: 0 :: 20 :: x :: hash := rfl
          rw [hdrop, parseRest_cons] at hrest
          split at hrest
          · cases hrest
          · cases hrest
  | false =>
    obtain rfl : i = true := by simpa using hne
    have htext : encode16 type ++ closing false a true h = encode16 type ++ encode16 8 ++
      (0 :: 20 :: h.hash.1) := rfl
    have hhash := h.hash.2
    rw [htext, parseRest_head, if_neg (by simp [hhash])] at hok
    obtain ⟨msg₁, hattr, hrest⟩ := bind_eq_ok hok
    have hlen : ((0 :: 20 :: h.hash.1).drop (8 : UInt16).toNat).length = 14 := by
      rw [List.length_drop, List.length_cons, List.length_cons, hhash]
      rfl
    by_cases hlater : m'.unknownAttributes = msg₁.unknownAttributes
    · rcases parseAttribute_cases hattr with ⟨-, hsame⟩ | ⟨e, he, rfl⟩ | ⟨-, u, hu, rfl⟩ | ⟨b, hb, rfl⟩
      · rw [hlater, hsame, hnone] at hnum
        cases hnum
      · rw [hlater, hnone] at hnum
        cases hnum
      · obtain ⟨⟨hash, hhash'⟩⟩ := h
        match hash, hhash' with
        | x :: y :: hash, hhash' =>
          have hparse : stunParseAtrUnknown (0 :: 20 :: x :: y :: hash) 8 {} =
              .ok { attrType := ⟨[20, word16 x y, 0, 0], rfl⟩, numAttributes := 2 } := rfl
          rw [hnone] at hu
          have hu' := Except.ok.inj (hparse.symm.trans hu)
          rw [hlater, ← hu'] at htypes
          have htwenty : some (20 : UInt16) = some 0 := htypes
          cases htwenty
      · rw [hlater, hnone] at hnum
        cases hnum
    · exact parseRest_fourteen hlen hlater hnum hrest

/-- Two listed attributes are taken for a user name, and no length of it leaves a message behind it. -/
theorem shifted_two (len type : UInt16) (herror : m'.errorCode.sizeReason ≠ msg.errorCode.sizeReason)
    (hnone : msg.unknownAttributes = {}) (hreflected : msg.hasReflectedFrom = false)
    (hnum : m'.unknownAttributes.numAttributes = 2) (htypes : m'.unknownAttributes.types = [len, type])
    (hr : m'.hasReflectedFrom = r) :
    parseRest msg (encode16 6 ++ encode16 len ++ (encode16 type ++ closing r a i h)) ≠ .ok m' := by
  intro hok
  have hhead := parseRest_head msg AtrType.Username.code len (encode16 type ++ closing r a i h)
  have hok' := hhead.symm.trans hok
  split at hok'
  · cases hok'
  obtain ⟨msg₁, hattr, hrest⟩ := bind_eq_ok hok'
  obtain ⟨s, hs, hmsg⟩ := bind_eq_ok hattr
  obtain ⟨-, hfour⟩ := stunParseAtrString_ok hs
  cases hmsg
  have hcost := parseRest_cost hrest
  have hclosing := length_closing r a i h
  rw [List.length_drop, List.length_append, length_encode16, hclosing] at hcost
  have hchange : m'.unknownAttributes ≠ msg.unknownAttributes := by
    intro hsame
    rw [hsame, hnone] at hnum
    cases hnum
  have hsize : m'.unknownAttributes.numAttributes.toNat = 2 := by
    rw [hnum]
    rfl
  -- Both attributes take twenty bytes, and twelve more if there is an address after them.
  have hneed : 20 + (if r then 12 else 0) ≤ cost { msg with hasUsername := true, username := s } m' := by
    rw [cost, if_neg herror, if_neg hchange, hsize, hr, hreflected]
    cases r <;> simp
  have hne : r = true ∨ i = true := by
    cases r <;> cases i <;> simp at hneed hcost ⊢
    omega
  have hsmall : len.toNat = 0 ∨ len.toNat = 4 := by
    cases r <;> cases i <;> simp at hneed hcost hne <;> omega
  rcases hsmall with hzero | hfour'
  · rw [hzero, List.drop_zero] at hrest
    have hlen : len = 0 := UInt16.toNat_inj.mp hzero
    have hfirst : m'.unknownAttributes.types.head? = some 0 := by
      rw [htypes, hlen]
      rfl
    exact absurd hrest (shifted_zero type hnone hsize hfirst hne)
  · rw [hfour'] at hrest
    have hdrop : (encode16 type ++ closing r a i h).drop 4 = (closing r a i h).drop 2 := rfl
    rw [hdrop, parseRest_drop_closing _ hne] at hrest
    cases hrest

theorem shifted_unknown {u : StunAtrUnknown} (herror : m'.errorCode.sizeReason ≠ msg.errorCode.sizeReason)
    (hnone : msg.unknownAttributes = {}) (hreflected : msg.hasReflectedFrom = false)
    (hnum : m'.unknownAttributes.numAttributes = u.numAttributes) (htypes : m'.unknownAttributes.types = u.types)
    (hr : m'.hasReflectedFrom = r) :
    parseRest msg (encode16 (2 + 2 * u.numAttributes) ++ (u.types.flatMap encode16 ++ closing r a i h)) ≠
      .ok m' := by
  intro hok
  have htwo : u.numAttributes.toNat ≤ 2 := by
    rw [← hnum]
    exact parseRest_numAttributes (by rw [hnone]; decide) hok
  have hlist := length_types u
  match hu : u.types, hlist with
  | [], hlist =>
    have hzero : u.numAttributes = 0 := UInt16.toNat_inj.mp hlist.symm
    rw [hzero, hu] at hok
    exact shifted_none hok
  | [type], hlist =>
    have hone : u.numAttributes = 1 := UInt16.toNat_inj.mp hlist.symm
    rw [hone, hu] at hok
    exact shifted_one type hok
  | [len, type], hlist =>
    have hnum2 : u.numAttributes = 2 := UInt16.toNat_inj.mp hlist.symm
    rw [hnum2, hu, List.flatMap_cons, List.flatMap_cons, List.flatMap_nil, List.append_nil,
      List.append_assoc (encode16 len), ← List.append_assoc (encode16 _) (encode16 len)] at hok
    exact shifted_two len type herror hnone hreflected (hnum.trans hnum2) (htypes.trans hu) hr hok
  | _ :: _ :: _ :: _, hlist =>
    simp at hlist
    omega

theorem parseRest_both {e : StunAtrError} {u : StunAtrUnknown} (hnone : msg.unknownAttributes = {})
    (hreflected : msg.hasReflectedFrom = false) (herror : m'.errorCode.sizeReason = e.sizeReason)
    (hnum : m'.unknownAttributes.numAttributes = u.numAttributes) (htypes : m'.unknownAttributes.types = u.types)
    (hr : m'.hasReflectedFrom = r) :
    parseRest msg (encodeAtrError e ++ (encodeAtrUnknown u ++ closing r a i h)) ≠ .ok m' := by
  intro hok
  have hlen := toNat_errorLength e
  have hreason := length_reason e
  rw [encodeAtrError, List.append_assoc, parseRest_head] at hok
  split at hok
  · cases hok
  · obtain ⟨msg₁, hattr, hrest⟩ := bind_eq_ok hok
    obtain ⟨e', he', hmsg⟩ := bind_eq_ok hattr
    have hsize := stunParseAtrError_ok he'
    cases hmsg
    have hcontent : (encode16 e.pad ++ e.errorClass :: e.number :: e.text).length = e.sizeReason.toNat + 4 := by
      simp [hreason]
      omega
    have hdrop : (encode16 e.pad ++ e.errorClass :: e.number :: e.text ++
        (encodeAtrUnknown u ++ closing r a i h)).drop (6 + e.sizeReason).toNat =
        encode16 (2 + 2 * u.numAttributes) ++ (u.types.flatMap encode16 ++ closing r a i h) := by
      rw [hlen, List.drop_append, List.drop_eq_nil_of_le (by omega), List.nil_append, hcontent,
        show e.sizeReason.toNat + 6 - (e.sizeReason.toNat + 4) = 2 by omega]
      simp [encodeAtrUnknown]
      rfl
    rw [hdrop] at hrest
    have hother : m'.errorCode.sizeReason ≠ e'.sizeReason := by
      rw [herror]
      intro heq
      rw [hlen, ← heq] at hsize
      omega
    exact absurd hrest (shifted_unknown hother hnone hreflected hnum htypes hr)

end Shifted

/-! ### The messages that are read back -/

/-- An address attribute that is in both messages or in none. -/
def SameAddress (has has' : Bool) (a a' : StunAtrAddress4) : Prop := has' = has ∧ (has = true → a' = a)

/-- A string attribute that is in both messages or in none. -/
def SameString (has has' : Bool) (s s' : StunAtrString) : Prop :=
  has' = has ∧ (has = true → s'.sizeValue = s.sizeValue ∧ s'.text = s.text)

/-- The same attributes are present, with the same contents. The contents of the message integrity are
not taken from the message but from the password. -/
structure Same (m m' : StunMessage) : Prop where
  mapped : SameAddress m.hasMappedAddress m'.hasMappedAddress m.mappedAddress m'.mappedAddress
  response : SameAddress m.hasResponseAddress m'.hasResponseAddress m.responseAddress m'.responseAddress
  change : m'.hasChangeRequest = m.hasChangeRequest ∧
    (m.hasChangeRequest = true → m'.changeRequest = m.changeRequest)
  source : SameAddress m.hasSourceAddress m'.hasSourceAddress m.sourceAddress m'.sourceAddress
  changed : SameAddress m.hasChangedAddress m'.hasChangedAddress m.changedAddress m'.changedAddress
  username : SameString m.hasUsername m'.hasUsername m.username m'.username
  password : SameString m.hasPassword m'.hasPassword m.password m'.password
  integrity : m'.hasMessageIntegrity = m.hasMessageIntegrity
  error : m'.hasErrorCode = m.hasErrorCode ∧
    (m.hasErrorCode = true → m'.errorCode.pad = m.errorCode.pad ∧
      m'.errorCode.errorClass = m.errorCode.errorClass ∧ m'.errorCode.number = m.errorCode.number ∧
      m'.errorCode.sizeReason = m.errorCode.sizeReason ∧ m'.errorCode.text = m.errorCode.text)
  unknown : m'.hasUnknownAttributes = m.hasUnknownAttributes ∧
    (m.hasUnknownAttributes = true →
      m'.unknownAttributes.numAttributes = m.unknownAttributes.numAttributes ∧
      m'.unknownAttributes.types = m.unknownAttributes.types)
  reflected : SameAddress m.hasReflectedFrom m'.hasReflectedFrom m.reflectedFrom m'.reflectedFrom

/-- What is encoded is parsed as the same message, with the length of what was encoded and the HMAC of
the password. -/
def RoundTrips (m : StunMessage) (password : StunAtrString) : Prop :=
  ∃ buf m', stunEncodeMessage computeHmac m password = some buf ∧ stunParseMessage buf = .ok m' ∧
    m'.msgHdr = { m.msgHdr with msgLength := .ofNat (buf.length - sizeofStunMsgHdr) } ∧
    (0 < password.sizeValue → m'.messageIntegrity = integrityOf computeHmac m password) ∧ Same m m'

/-- The messages that are read back. -/
structure Restorable (m : StunMessage) (password : StunAtrString) : Prop where
  aligned : m.Aligned
  fits : m.Fits
  error : m.hasErrorCode = false
  unknown : m.hasUnknownAttributes = false
  mapped : m.hasMappedAddress = true → m.mappedAddress.family = IPv4Family
  response : m.hasResponseAddress = true → m.responseAddress.family = IPv4Family
  source : m.hasSourceAddress = true → m.sourceAddress.family = IPv4Family
  changed : m.hasChangedAddress = true → m.changedAddress.family = IPv4Family
  reflected : m.hasReflectedFrom = true → m.reflectedFrom.family = IPv4Family
  integrity : m.hasMessageIntegrity = decide (0 < password.sizeValue)

theorem restoredAddress_eq_iff (a : StunAtrAddress4) :
    StunMessage.restoredAddress a = a ↔ a.family = IPv4Family := by
  obtain ⟨pad, family, ipv4⟩ := a
  simp [StunMessage.restoredAddress, eq_comm]

/-- The message that is parsed when nothing is shifted. -/
def StunMessage.reread (m : StunMessage) (password : StunAtrString) : StunMessage :=
  (m.readFront { m.msgHdr with msgLength := .ofNat (encodedBody computeHmac m password).length }).readClosing
    m.hasReflectedFrom m.reflectedFrom (0 < password.sizeValue) (integrityOf computeHmac m password)

theorem sameAddress_restored_iff {has : Bool} {a b : StunAtrAddress4} :
    SameAddress has (false || has) a (if has then StunMessage.restoredAddress a else b) ↔
      (has = true → a.family = IPv4Family) := by
  cases has
  · simp [SameAddress]
  · simp [SameAddress, restoredAddress_eq_iff]

theorem sameString_restored (has : Bool) (s t : StunAtrString) :
    SameString has (false || has) s (if has then s.restored else t) := by
  cases has
  · simp [SameString]
  · simp only [SameString, Bool.or_true, if_true, true_and]
    exact fun _ => ⟨rfl, text_restored s⟩

theorem same_reread_iff {m : StunMessage} {password : StunAtrString} (herror : m.hasErrorCode = false)
    (hunknown : m.hasUnknownAttributes = false) :
    Same m (m.reread computeHmac password) ↔
      (m.hasMappedAddress = true → m.mappedAddress.family = IPv4Family) ∧
      (m.hasResponseAddress = true → m.responseAddress.family = IPv4Family) ∧
      (m.hasSourceAddress = true → m.sourceAddress.family = IPv4Family) ∧
      (m.hasChangedAddress = true → m.changedAddress.family = IPv4Family) ∧
      (m.hasReflectedFrom = true → m.reflectedFrom.family = IPv4Family) ∧
      m.hasMessageIntegrity = decide (0 < password.sizeValue) := by
  constructor
  · intro h
    exact ⟨sameAddress_restored_iff.mp h.mapped, sameAddress_restored_iff.mp h.response,
      sameAddress_restored_iff.mp h.source, sameAddress_restored_iff.mp h.changed,
      sameAddress_restored_iff.mp h.reflected, h.integrity.symm⟩
  · rintro ⟨hmapped, hresponse, hsource, hchanged, hreflected, hintegrity⟩
    exact {
      mapped := sameAddress_restored_iff.mpr hmapped
      response := sameAddress_restored_iff.mpr hresponse
      change := ⟨Bool.false_or _, fun h => if_pos h⟩
      source := sameAddress_restored_iff.mpr hsource
      changed := sameAddress_restored_iff.mpr hchanged
      username := sameString_restored _ _ _
      password := sameString_restored _ _ _
      integrity := hintegrity.symm
      error := ⟨herror.symm, fun h => by rw [herror] at h; cases h⟩
      unknown := ⟨hunknown.symm, fun h => by rw [hunknown] at h; cases h⟩
      reflected := sameAddress_restored_iff.mpr hreflected }

theorem stunParseMessage_encoded (m : StunMessage) (password : StunAtrString) :
    stunParseMessage (encodeHeader m.msgHdr (.ofNat (encodedBody computeHmac m password).length) ++
        encodedBody computeHmac m password) =
      parseRest { msgHdr := { m.msgHdr with
        msgLength := .ofNat (encodedBody computeHmac m password).length } }
        (encodedBody computeHmac m password) :=
  stunParseMessage_encode m.msgHdr (length_encodedBody_lt computeHmac m password)

theorem parseRest_encodedBody {m : StunMessage} (haligned : m.Aligned) (password : StunAtrString)
    (msgHdr : StunMsgHdr) :
    (m.Fits → parseRest { msgHdr } (encodedBody computeHmac m password) =
      parseRest (m.readFront msgHdr) (m.middle ++ closing m.hasReflectedFrom m.reflectedFrom
        (0 < password.sizeValue) (integrityOf computeHmac m password))) ∧
    (¬m.Fits → parseRest { msgHdr } (encodedBody computeHmac m password) = .error .rejected) :=
  parseRest_front haligned msgHdr _

theorem middle_nil {m : StunMessage} (herror : m.hasErrorCode = false)
    (hunknown : m.hasUnknownAttributes = false) : m.middle = [] := by
  rw [StunMessage.middle, herror, hunknown]
  rfl

theorem middle_both {m m' : StunMessage} {password : StunAtrString} {msgHdr : StunMsgHdr}
    (hok : parseRest (m.readFront msgHdr) (m.middle ++ closing m.hasReflectedFrom m.reflectedFrom
      (0 < password.sizeValue) (integrityOf computeHmac m password)) = .ok m') :
    m.hasErrorCode = m.hasUnknownAttributes := by
  rw [StunMessage.middle] at hok
  cases herror : m.hasErrorCode with
  | false =>
    cases hunknown : m.hasUnknownAttributes with
    | false => rfl
    | true =>
      rw [herror, hunknown] at hok
      exact absurd hok (parseRest_only_unknown _ _ _ _ _ _ _)
  | true =>
    cases hunknown : m.hasUnknownAttributes with
    | false =>
      rw [herror, hunknown] at hok
      simp only [whenPresent, if_true, Bool.false_eq_true, if_false, List.append_nil] at hok
      exact absurd hok (parseRest_only_error _ _ _ _ _ _ _)
    | true => rfl

/-- A message with an error code or unknown attributes is not parsed as the same. -/
theorem middle_empty {m m' : StunMessage} {password : StunAtrString} {msgHdr : StunMsgHdr}
    (hok : parseRest (m.readFront msgHdr) (m.middle ++ closing m.hasReflectedFrom m.reflectedFrom
      (0 < password.sizeValue) (integrityOf computeHmac m password)) = .ok m') (hsame : Same m m') :
    m.hasErrorCode = false ∧ m.hasUnknownAttributes = false := by
  have hboth := middle_both computeHmac hok
  cases herror : m.hasErrorCode with
  | false => exact ⟨rfl, hboth ▸ herror⟩
  | true =>
    have hunknown : m.hasUnknownAttributes = true := hboth ▸ herror
    rw [StunMessage.middle, herror, hunknown] at hok
    simp only [whenPresent, if_true, List.append_assoc] at hok
    obtain ⟨-, -, -, hsize, -⟩ := hsame.error.2 herror
    obtain ⟨hnum, htypes⟩ := hsame.unknown.2 hunknown
    exact absurd hok (parseRest_both rfl rfl hsize hnum htypes hsame.reflected.1)

theorem parse_reread {m : StunMessage} (haligned : m.Aligned) (hfits : m.Fits) (herror : m.hasErrorCode = false)
    (hunknown : m.hasUnknownAttributes = false) (password : StunAtrString) :
    stunParseMessage (encodeHeader m.msgHdr (.ofNat (encodedBody computeHmac m password).length) ++
      encodedBody computeHmac m password) = .ok (m.reread computeHmac password) := by
  rw [stunParseMessage_encoded, (parseRest_encodedBody computeHmac haligned password _).1 hfits,
    middle_nil herror hunknown]
  exact parseRest_closing _ _ _ _ _

theorem parse_encoded_ok {m m' : StunMessage} (haligned : m.Aligned) {password : StunAtrString}
    (hok : stunParseMessage (encodeHeader m.msgHdr (.ofNat (encodedBody computeHmac m password).length) ++
      encodedBody computeHmac m password) = .ok m') :
    m.Fits ∧ parseRest
      (m.readFront { m.msgHdr with msgLength := .ofNat (encodedBody computeHmac m password).length })
      (m.middle ++ closing m.hasReflectedFrom m.reflectedFrom (0 < password.sizeValue)
        (integrityOf computeHmac m password)) = .ok m' := by
  obtain ⟨hfits, hlong⟩ := parseRest_encodedBody computeHmac haligned password
    { m.msgHdr with msgLength := .ofNat (encodedBody computeHmac m password).length }
  rw [stunParseMessage_encoded] at hok
  have hfit : m.Fits := by
    by_contra hno
    rw [hlong hno] at hok
    cases hok
  rw [hfits hfit] at hok
  exact ⟨hfit, hok⟩

/-- Exactly the messages without an error code and unknown attributes, with strings that leave room in
their arrays, IPv4 addresses and a message integrity that goes with the password are read back. -/
theorem stunRoundTrips_iff (m : StunMessage) (password : StunAtrString) :
    RoundTrips computeHmac m password ↔ Restorable m password := by
  constructor
  · rintro ⟨buf, m', henc, hok, -, -, hsame⟩
    obtain ⟨haligned, rfl⟩ := (stunEncodeMessage_eq_some_iff computeHmac).mp henc
    obtain ⟨hfit, hrest⟩ := parse_encoded_ok computeHmac haligned hok
    obtain ⟨herror, hunknown⟩ := middle_empty computeHmac hrest hsame
    have hm' : m' = m.reread computeHmac password :=
      Except.ok.inj (hok.symm.trans (parse_reread computeHmac haligned hfit herror hunknown password))
    rw [hm'] at hsame
    obtain ⟨hmapped, hresponse, hsource, hchanged, hreflected, hintegrity⟩ :=
      (same_reread_iff computeHmac herror hunknown).mp hsame
    exact ⟨haligned, hfit, herror, hunknown, hmapped, hresponse, hsource, hchanged, hreflected, hintegrity⟩
  · intro h
    refine ⟨_, m.reread computeHmac password, (stunEncodeMessage_eq_some_iff computeHmac).mpr ⟨h.aligned, rfl⟩,
      parse_reread computeHmac h.aligned h.fits h.error h.unknown password, ?_, ?_, ?_⟩
    · have hlen : (encodeHeader m.msgHdr (.ofNat (encodedBody computeHmac m password).length) ++
          encodedBody computeHmac m password).length - sizeofStunMsgHdr =
          (encodedBody computeHmac m password).length := by
        simp [encodeHeader, m.msgHdr.id.2, sizeofStunMsgHdr]
        omega
      rw [hlen]
      rfl
    · intro hpos
      exact if_pos (decide_eq_true hpos)
    · exact (same_reread_iff computeHmac h.error h.unknown).mpr
        ⟨h.mapped, h.response, h.source, h.changed, h.reflected, h.integrity⟩

/-- An error code without a reason: its length says 6 where 4 bytes follow, and the message is rejected. -/
theorem not_roundTrips_error_code :
    ¬RoundTrips (fun _ _ => .replicate 20 0)
      { msgHdr := { msgType := BindErrorResponseMsg }, hasErrorCode := true,
        errorCode := { errorClass := 4, number := 1 } } {} := by
  rintro ⟨buf, m', henc, hok, -⟩
  obtain rfl := Option.some.inj (henc.symm.trans rfl)
  cases hok

end Vocal.Stun
