import Vocal.Stun.Parse

/-!
# Parsing attributes that were encoded

The loop of the parser on one attribute (`parseRest_cons`), and on each attribute that the encoder
writes. The messages that are parsed are described by one update for each attribute.
-/

namespace Vocal.Stun

open Bytes

variable {msg : StunMessage} {body rest : Bytes}

/-! ### The loop -/

theorem read16_ok {body : Bytes} {off : Nat} (h : off + 2 ≤ body.length) : ∃ w, read16 body off = .ok w := by
  rw [read16]
  have hlen : 2 ≤ (body.drop off).length := by
    rw [List.length_drop]
    omega
  match body.drop off, hlen with
  | a :: b :: _, _ => exact ⟨_, rfl⟩

theorem read16_short {body : Bytes} {off : Nat} (h : body.length < off + 2) :
    read16 body off = .error .outOfBounds := by
  rw [read16]
  have hlen : (body.drop off).length < 2 := by
    rw [List.length_drop]
    omega
  match body.drop off, hlen with
  | [], _ => rfl
  | [_], _ => rfl

theorem parseAttributes_turns {turns turns' : Nat} (h : body.length ≤ turns) (h' : body.length ≤ turns') :
    parseAttributes turns msg body = parseAttributes turns' msg body := by
  induction turns generalizing turns' msg body with
  | zero =>
    obtain rfl : body = [] := List.eq_nil_of_length_eq_zero (by omega)
    cases turns' <;> rfl
  | succ turns ih =>
    cases body with
    | nil => cases turns' <;> rfl
    | cons b body =>
      cases turns' with
      | zero => simp at h'
      | succ turns' =>
        rw [parseAttributes, parseAttributes]
        congr 1
        funext attrLen
        congr 1
        funext atrType
        split
        · rfl
        · congr 1
          funext msg
          have hlen : ((b :: body).drop (4 + attrLen.toNat)).length ≤ body.length := by
            rw [List.length_drop, List.length_cons]
            omega
          rw [List.length_cons] at h h'
          exact ih (by omega) (by omega)

/-- The loop with enough turns. -/
def parseRest (msg : StunMessage) (body : Bytes) : Parsed StunMessage := parseAttributes body.length msg body

@[simp] theorem parseRest_nil (msg : StunMessage) : parseRest msg [] = .ok msg := rfl

theorem parseRest_short (hne : body ≠ []) (h : body.length < 4) :
    parseRest msg body = .error .outOfBounds := by
  obtain ⟨b, body, rfl⟩ := List.exists_cons_of_ne_nil hne
  rw [parseRest, List.length_cons, parseAttributes, read16_short h]
  rfl

theorem parseRest_cons (msg : StunMessage) (a b c d : UInt8) (body : Bytes) :
    parseRest msg (a :: b :: c :: d :: body) =
      if body.length < (word16 c d).toNat then .error .rejected
      else
        parseAttribute msg (word16 a b) (word16 c d).toNat body >>= fun msg =>
          parseRest msg (body.drop (word16 c d).toNat) := by
  rw [parseRest, List.length_cons, parseAttributes]
  simp only [read16, List.drop_succ_cons, List.drop_zero]
  show (if _ then _ else _) = _
  by_cases hlen : body.length < (word16 c d).toNat
  · rw [if_pos hlen, if_pos (by simp; omega)]
  · rw [if_neg hlen, if_neg (by simp; omega)]
    congr 1
    funext msg'
    rw [Nat.add_comm 4, parseRest]
    apply parseAttributes_turns
    · simp
      omega
    · exact le_rfl

theorem parseRest_head (msg : StunMessage) (type len : UInt16) (body : Bytes) :
    parseRest msg (encode16 type ++ encode16 len ++ body) =
      if body.length < len.toNat then .error .rejected
      else parseAttribute msg type len.toNat body >>= fun msg => parseRest msg (body.drop len.toNat) := by
  have h := parseRest_cons msg (.ofNat (type.toNat / 2 ^ 8)) (.ofNat type.toNat) (.ofNat (len.toNat / 2 ^ 8))
    (.ofNat len.toNat) body
  rw [word16_ofWord16, word16_ofWord16] at h
  exact h

theorem parseRest_attribute (msg : StunMessage) (type len : UInt16) {content : Bytes}
    (hlen : content.length = len.toNat) (rest : Bytes) :
    parseRest msg (encode16 type ++ encode16 len ++ content ++ rest) =
      parseAttribute msg type len.toNat (content ++ rest) >>= fun msg => parseRest msg rest := by
  rw [List.append_assoc, parseRest_head, if_neg (by rw [List.length_append]; omega), ← hlen, List.drop_left]

theorem error_bind {α β : Type} (fault : Fault) (f : α → Parsed β) :
    ((.error fault : Parsed α) >>= f) = .error fault := rfl

theorem bind_eq_ok {α β : Type} {x : Parsed α} {f : α → Parsed β} {b : β} (h : (x >>= f) = .ok b) :
    ∃ a, x = .ok a ∧ f a = .ok b := by
  cases x with
  | error e => cases h
  | ok a => exact ⟨a, rfl, h⟩

theorem word16_cases {body : Bytes} (h : 4 ≤ body.length) :
    ∃ a b c d tail, body = a :: b :: c :: d :: tail := by
  match body, h with
  | a :: b :: c :: d :: tail, _ => exact ⟨a, b, c, d, tail, rfl⟩

/-- What holds of the bytes and the two messages when it holds at the end of the loop and one attribute
keeps it. -/
theorem parseRest_induction {R : Nat → StunMessage → StunMessage → Prop} (hnil : ∀ m, R 0 m m)
    (hstep : ∀ msg msg₁ m' type len body n, parseAttribute msg type len body = .ok msg₁ → R n msg₁ m' →
      R (4 + len + n) msg m') {m' : StunMessage} (h : parseRest msg body = .ok m') : R body.length msg m' := by
  induction hn : body.length using Nat.strong_induction_on generalizing msg body with
  | _ n ih =>
    by_cases hne : body = []
    · subst hne
      cases h
      rw [← hn]
      exact hnil _
    · by_cases hshort : body.length < 4
      · rw [parseRest_short hne hshort] at h
        cases h
      · obtain ⟨a, b, c, d, tail, rfl⟩ := word16_cases (Nat.le_of_not_lt hshort)
        rw [parseRest_cons] at h
        split at h
        · cases h
        · rename_i hle
          obtain ⟨msg₁, hattr, hrest⟩ := bind_eq_ok h
          have hlen : n = 4 + (word16 c d).toNat + (tail.drop (word16 c d).toNat).length := by
            rw [← hn, List.length_drop]
            simp
            omega
          rw [hlen]
          refine hstep _ _ _ _ _ _ _ hattr (ih _ ?_ hrest rfl)
          omega

theorem stunParseMessage_ok {buf : Bytes} {m : StunMessage} (h : stunParseMessage buf = .ok m) :
    ∃ msgHdr, parseHeader buf = .ok msgHdr ∧ parseRest { msgHdr } (buf.drop sizeofStunMsgHdr) = .ok m := by
  rw [stunParseMessage] at h
  split at h
  · cases h
  · obtain ⟨msgHdr, hheader, h⟩ := bind_eq_ok h
    split at h
    · cases h
    · have hturns : parseAttributes buf.length { msgHdr } (buf.drop sizeofStunMsgHdr) =
          parseRest { msgHdr } (buf.drop sizeofStunMsgHdr) :=
        parseAttributes_turns (by rw [List.length_drop]; omega) le_rfl
      exact ⟨msgHdr, hheader, hturns.symm.trans h⟩

/-! ### The attributes -/

theorem stunParseAtrAddress_encode (a : StunAtrAddress4) (rest : Bytes) :
    stunParseAtrAddress (a.pad :: IPv4Family :: (encode16 a.ipv4.port ++ encode32 a.ipv4.addr) ++ rest) 8 =
      .ok { a with family := IPv4Family } := by
  obtain ⟨pad, family, ⟨port, addr⟩⟩ := a
  have hport : read16 (pad :: IPv4Family :: (encode16 port ++ encode32 addr) ++ rest) 2 = .ok port :=
    congrArg Except.ok (word16_ofWord16 port)
  have haddr : read32 (pad :: IPv4Family :: (encode16 port ++ encode32 addr) ++ rest) 4 = .ok addr :=
    congrArg Except.ok (word32_ofWord32 addr)
  rw [stunParseAtrAddress, if_neg (by simp)]
  simp only [hport, haddr]
  rfl

theorem stunParseAtrChangeRequest_encode (a : StunAtrChangeRequest) (rest : Bytes) :
    stunParseAtrChangeRequest (encode32 a.value ++ rest) 4 = .ok a := by
  have hvalue : read32 (encode32 a.value ++ rest) 0 = .ok a.value :=
    congrArg Except.ok (word32_ofWord32 a.value)
  rw [stunParseAtrChangeRequest, if_neg (by simp), hvalue]
  rfl

theorem stunParseAtrIntegrity_encode (hash : Octets 20) (rest : Bytes) (result : StunAtrIntegrity) :
    stunParseAtrIntegrity (hash.1 ++ rest) 20 result = .ok ⟨hash⟩ := by
  have hlen := hash.2
  have hslice : slice (hash.1 ++ rest) 0 20 = some hash.1 := by
    have h := slice_append hash.1 rest
    rwa [hlen] at h
  have hstore : Octets.store result.hash 0 hash.1 = some hash := by
    rw [Octets.store, dif_pos (by omega)]
    congr 1
    apply Subtype.ext
    simp
  rw [stunParseAtrIntegrity, if_neg (by simp), memcpy, hslice]
  simp only [access, bind, Except.bind, hstore]
  rfl

theorem length_text (a : StunAtrString) : a.text.length = a.sizeValue.toNat := by
  have hbound := a.bound
  rw [StunAtrString.text, List.length_take, a.value.2]
  omega

/-- The string with zeros after its bytes. -/
def StunAtrString.restored (a : StunAtrString) : StunAtrString :=
  { a with value := Octets.padded _ a.text ((length_text a).trans_le a.bound) }

theorem text_restored (a : StunAtrString) : a.restored.text = a.text := by
  have hle : a.text.length ≤ STUN_MAX_STRING := (length_text a).trans_le a.bound
  have hsize : a.restored.text = (Octets.padded STUN_MAX_STRING a.text hle).1.take a.text.length :=
    congrArg (List.take · (Octets.padded STUN_MAX_STRING a.text hle).1) (length_text a).symm
  rw [hsize, Octets.take_padded hle]

theorem stunParseAtrString_encode (a : StunAtrString) (rest : Bytes) (hlt : a.sizeValue.toNat < STUN_MAX_STRING)
    (hfour : a.sizeValue.toNat % 4 = 0) :
    stunParseAtrString (a.text ++ rest) a.sizeValue.toNat {} = .ok a.restored := by
  have hlen := length_text a
  have hslice : slice (a.text ++ rest) 0 a.sizeValue.toNat = some a.text := by
    rw [← hlen]
    exact slice_append a.text rest
  have hle : a.text.length ≤ STUN_MAX_STRING := by omega
  have hzero : Octets.store (Octets.padded _ a.text hle) a.sizeValue.toNat [0] =
      some (Octets.padded _ a.text hle) := by
    rw [← hlen]
    exact Octets.store_zero_padded (by omega)
  rw [stunParseAtrString, dif_neg (by omega), if_neg (by omega), memcpy, hslice]
  simp only [access, bind, Except.bind, Octets.store_replicate hle, hzero, pure, Except.pure]
  congr 1
  rw [StunAtrString.restored]
  congr 1
  exact UInt16.ofNat_toNat

theorem stunParseAtrString_long {len : Nat} (h : STUN_MAX_STRING ≤ len) (result : StunAtrString) :
    stunParseAtrString body len result = .error .rejected := by
  rw [stunParseAtrString, dif_pos h]

theorem stunParseAtrString_text {a : StunAtrString} (hfour : a.sizeValue.toNat % 4 = 0) (rest : Bytes) :
    stunParseAtrString (a.text ++ rest) a.sizeValue.toNat {} =
      if STUN_MAX_STRING ≤ a.sizeValue.toNat then .error .rejected else .ok a.restored := by
  split
  · rename_i hlong
    exact stunParseAtrString_long hlong _
  · rename_i hlong
    exact stunParseAtrString_encode a rest (by omega) hfour

/-! ### What an attribute has to be -/

theorem stunParseAtrAddress_ok {len : Nat} {a : StunAtrAddress4} (h : stunParseAtrAddress body len = .ok a) :
    len = 8 ∧ (body.drop 1).head? = some IPv4Family := by
  rw [stunParseAtrAddress] at h
  split at h
  · cases h
  · rename_i hlen
    obtain ⟨pad, hpad, h⟩ := bind_eq_ok h
    obtain ⟨family, hfamily, h⟩ := bind_eq_ok h
    split at h
    · rename_i hv4
      refine ⟨by omega, ?_⟩
      rw [readByte] at hfamily
      cases hhead : (body.drop 1).head? with
      | none =>
        rw [hhead] at hfamily
        cases hfamily
      | some b =>
        rw [hhead] at hfamily
        cases hfamily
        rw [hv4]
    · cases h

theorem stunParseAtrString_ok {len : Nat} {result a : StunAtrString}
    (h : stunParseAtrString body len result = .ok a) : len < STUN_MAX_STRING ∧ len % 4 = 0 := by
  rw [stunParseAtrString] at h
  split at h
  · cases h
  · split at h
    · cases h
    · omega

theorem stunParseAtrString_size {len : Nat} {result a : StunAtrString}
    (h : stunParseAtrString body len result = .ok a) : a.sizeValue.toNat = len := by
  have hlt := (stunParseAtrString_ok h).1
  rw [stunParseAtrString, dif_neg (by omega)] at h
  split at h
  · cases h
  · obtain ⟨_, -, h⟩ := bind_eq_ok h
    obtain ⟨_, -, h⟩ := bind_eq_ok h
    cases h
    rw [STUN_MAX_STRING] at hlt
    show (UInt16.ofNat len).toNat = len
    rw [UInt16.toNat_ofNat']
    omega

theorem stunParseAtrError_ok {len : Nat} {result a : StunAtrError}
    (h : stunParseAtrError body len result = .ok a) : a.sizeReason.toNat + 4 = len := by
  rw [stunParseAtrError] at h
  split at h
  · cases h
  · rename_i hlen
    obtain ⟨_, -, h⟩ := bind_eq_ok h
    obtain ⟨_, -, h⟩ := bind_eq_ok h
    obtain ⟨_, -, h⟩ := bind_eq_ok h
    obtain ⟨_, -, h⟩ := bind_eq_ok h
    obtain ⟨_, -, h⟩ := bind_eq_ok h
    split at h
    · rename_i hbound
      cases h
      have hsize : (UInt16.ofNat len - 4).toNat = (2 ^ 16 - 4 + len % 2 ^ 16) % 2 ^ 16 := by
        rw [UInt16.toNat_sub, UInt16.toNat_ofNat']
        rfl
      simp only [STUN_MAX_STRING, sizeofStunAtrError] at hbound hlen
      show (UInt16.ofNat len - 4).toNat + 4 = len
      omega
    · cases h

theorem stunParseAtrUnknown_ok {len : Nat} {result a : StunAtrUnknown}
    (h : stunParseAtrUnknown body len result = .ok a) : 4 * a.numAttributes.toNat = len ∧ len ≤ 8 := by
  rw [stunParseAtrUnknown] at h
  split at h
  · cases h
  · rename_i hlen
    split at h
    · cases h
    · rename_i hfour
      obtain ⟨_, -, h⟩ := bind_eq_ok h
      split at h
      · cases h
        simp only [sizeofStunAtrUnknown] at hlen
        show 4 * (UInt16.ofNat (len / 4)).toNat = len ∧ len ≤ 8
        rw [UInt16.toNat_ofNat']
        omega
      · cases h

/-! ### The message -/

namespace StunMessage

/-- Adds an address to a message, if there is one. -/
def putAddress (msg : StunMessage) (type : AtrType) (has : Bool) (a : StunAtrAddress4) : StunMessage :=
  match type with
  | .MappedAddress =>
    { msg with
      hasMappedAddress := msg.hasMappedAddress || has
      mappedAddress := if has then a else msg.mappedAddress }
  | .ResponseAddress =>
    { msg with
      hasResponseAddress := msg.hasResponseAddress || has
      responseAddress := if has then a else msg.responseAddress }
  | .SourceAddress =>
    { msg with
      hasSourceAddress := msg.hasSourceAddress || has
      sourceAddress := if has then a else msg.sourceAddress }
  | .ChangedAddress =>
    { msg with
      hasChangedAddress := msg.hasChangedAddress || has
      changedAddress := if has then a else msg.changedAddress }
  | .ReflectedFrom =>
    { msg with
      hasReflectedFrom := msg.hasReflectedFrom || has
      reflectedFrom := if has then a else msg.reflectedFrom }
  | _ => msg

def putChangeRequest (msg : StunMessage) (has : Bool) (a : StunAtrChangeRequest) : StunMessage :=
  { msg with
    hasChangeRequest := msg.hasChangeRequest || has
    changeRequest := if has then a else msg.changeRequest }

def putUsername (msg : StunMessage) (has : Bool) (a : StunAtrString) : StunMessage :=
  { msg with
    hasUsername := msg.hasUsername || has
    username := if has then a else msg.username }

theorem putUsername_false (msg : StunMessage) (a : StunAtrString) : msg.putUsername false a = msg := by
  simp [putUsername]

def putPassword (msg : StunMessage) (has : Bool) (a : StunAtrString) : StunMessage :=
  { msg with
    hasPassword := msg.hasPassword || has
    password := if has then a else msg.password }

theorem putPassword_false (msg : StunMessage) (a : StunAtrString) : msg.putPassword false a = msg := by
  simp [putPassword]

def putIntegrity (msg : StunMessage) (has : Bool) (a : StunAtrIntegrity) : StunMessage :=
  { msg with
    hasMessageIntegrity := msg.hasMessageIntegrity || has
    messageIntegrity := if has then a else msg.messageIntegrity }

end StunMessage

/-- The attributes that are addresses. -/
def AtrType.isAddress : AtrType → Bool
  | MappedAddress | ResponseAddress | SourceAddress | ChangedAddress | ReflectedFrom => true
  | _ => false

theorem parseAttribute_address {type : AtrType} (htype : type.isAddress = true) (len : Nat) (body : Bytes) :
    parseAttribute msg type.code len body =
      (stunParseAtrAddress body len).map (msg.putAddress type true) := by
  rw [parseAttribute, AtrType.ofCode_code]
  cases type with
  | MappedAddress | ResponseAddress | SourceAddress | ChangedAddress | ReflectedFrom =>
    cases stunParseAtrAddress body len with
    | error f => rfl
    | ok a => simp [StunMessage.putAddress, Except.map, bind, Except.bind, pure, Except.pure]
  | _ => cases htype

theorem parseRest_address {type : AtrType} (htype : type.isAddress = true) (msg : StunMessage) (has : Bool)
    (a : StunAtrAddress4) (rest : Bytes) :
    parseRest msg (whenPresent has (encodeAtrAddress4 type a) ++ rest) =
      parseRest (msg.putAddress type has { a with family := IPv4Family }) rest := by
  cases has with
  | false =>
    have hput : msg.putAddress type false { a with family := IPv4Family } = msg := by
      cases type <;> simp [StunMessage.putAddress]
    rw [hput]
    rfl
  | true =>
    rw [whenPresent, if_pos rfl, encodeAtrAddress4,
      parseRest_attribute msg type.code 8 rfl, parseAttribute_address htype]
    rw [show (8 : UInt16).toNat = 8 from rfl, stunParseAtrAddress_encode]
    rfl

theorem parseRest_changeRequest (msg : StunMessage) (has : Bool) (a : StunAtrChangeRequest) (rest : Bytes) :
    parseRest msg (whenPresent has (encodeAtrChangeRequest a) ++ rest) =
      parseRest (msg.putChangeRequest has a) rest := by
  cases has with
  | false => simp [whenPresent, StunMessage.putChangeRequest]
  | true =>
    rw [whenPresent, if_pos rfl, encodeAtrChangeRequest, parseRest_attribute msg _ 4 rfl,
      parseAttribute, AtrType.ofCode_code]
    simp only
    rw [show (4 : UInt16).toNat = 4 from rfl, stunParseAtrChangeRequest_encode]
    simp [StunMessage.putChangeRequest, bind, Except.bind, pure, Except.pure]

theorem parseRest_integrity (msg : StunMessage) (has : Bool) (a : StunAtrIntegrity) (rest : Bytes) :
    parseRest msg (whenPresent has (encodeAtrIntegrity a) ++ rest) = parseRest (msg.putIntegrity has a) rest := by
  cases has with
  | false => simp [whenPresent, StunMessage.putIntegrity]
  | true =>
    rw [whenPresent, if_pos rfl, encodeAtrIntegrity, parseRest_attribute msg _ 20 a.hash.2,
      parseAttribute, AtrType.ofCode_code]
    simp only
    rw [show (20 : UInt16).toNat = 20 from rfl, stunParseAtrIntegrity_encode]
    simp [StunMessage.putIntegrity, bind, Except.bind, pure, Except.pure]

theorem parseAttribute_username (hempty : msg.username = {}) (len : Nat) (body : Bytes) :
    parseAttribute msg AtrType.Username.code len body = (stunParseAtrString body len {}).map (msg.putUsername true) := by
  rw [parseAttribute, AtrType.ofCode_code]
  simp only
  rw [hempty]
  cases stunParseAtrString body len {} <;> simp [StunMessage.putUsername, Except.map, bind, Except.bind, pure, Except.pure]

theorem parseAttribute_password (hempty : msg.password = {}) (len : Nat) (body : Bytes) :
    parseAttribute msg AtrType.Password.code len body = (stunParseAtrString body len {}).map (msg.putPassword true) := by
  rw [parseAttribute, AtrType.ofCode_code]
  simp only
  rw [hempty]
  cases stunParseAtrString body len {} <;> simp [StunMessage.putPassword, Except.map, bind, Except.bind, pure, Except.pure]

/-- A text that goes into an empty field of the message, if it is there. -/
theorem parseRest_string {type : AtrType} {put : Bool → StunAtrString → StunMessage}
    (hparse : ∀ len body, parseAttribute msg type.code len body = (stunParseAtrString body len {}).map (put true))
    (hkept : ∀ a, put false a = msg) {has : Bool} {a : StunAtrString} (hfour : has = true → a.sizeValue.toNat % 4 = 0)
    (rest : Bytes) :
    parseRest msg (whenPresent has (encode16 type.code ++ encode16 a.sizeValue ++ a.text) ++ rest) =
      if has = true ∧ STUN_MAX_STRING ≤ a.sizeValue.toNat then .error .rejected
      else parseRest (put has a.restored) rest := by
  cases has with
  | false => simp [whenPresent, hkept]
  | true =>
    rw [whenPresent, if_pos rfl, parseRest_attribute msg _ _ (length_text a), hparse]
    simp only [true_and]
    rw [stunParseAtrString_text (hfour rfl)]
    split <;> rfl

end Vocal.Stun
