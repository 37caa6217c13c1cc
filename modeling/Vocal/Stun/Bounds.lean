import Vocal.Stun.Attributes

/-!
# The parser stays within its bounds

Which buffers `stunParseMessage` reads without leaving them, or the arrays of the message. Every attribute
that fits in the buffer either is accepted or rejected, but for error codes of some lengths, which leave
the array of the reason.
-/

namespace Vocal.Stun

open Bytes

variable {msg : StunMessage} {body : Bytes} {len : Nat}

/-! ### Reads and writes -/

theorem readByte_ok (body : Bytes) (off : Nat) (h : off + 1 ≤ body.length) :
    ∃ b, readByte body off = .ok b ∧ (body.drop off).head? = some b := by
  have hlen : 1 ≤ (body.drop off).length := by
    rw [List.length_drop]
    omega
  obtain ⟨b, rest, hbody⟩ := List.exists_cons_of_length_pos hlen
  rw [readByte, hbody]
  exact ⟨b, rfl, rfl⟩

theorem read32_ok (body : Bytes) (off : Nat) (h : off + 4 ≤ body.length) : ∃ w, read32 body off = .ok w := by
  have hlen : 4 ≤ (body.drop off).length := by
    rw [List.length_drop]
    omega
  rw [read32]
  match body.drop off, hlen with
  | a :: b :: c :: d :: _, _ => exact ⟨_, rfl⟩

theorem readByte_cases (body : Bytes) (off : Nat) :
    (∃ b, readByte body off = .ok b) ∨ readByte body off = .error .outOfBounds := by
  rw [readByte]
  cases (body.drop off).head? with
  | none => exact Or.inr rfl
  | some b => exact Or.inl ⟨b, rfl⟩

theorem read16_cases (body : Bytes) (off : Nat) :
    (∃ w, read16 body off = .ok w) ∨ read16 body off = .error .outOfBounds := by
  by_cases h : off + 2 ≤ body.length
  · exact Or.inl (read16_ok h)
  · exact Or.inr (read16_short (by omega))

theorem memcpy_ok {n : Nat} (dst : Octets n) (body : Bytes) (off len : Nat) (hbody : off + len ≤ body.length)
    (hdst : len ≤ n) : ∃ dst', memcpy dst body off len = .ok dst' := by
  have hslice : slice body off len = some ((body.drop off).take len) := by
    rw [slice, if_pos hbody]
  have hlen := length_slice hslice
  obtain ⟨dst', hstore⟩ : ∃ dst', Octets.store dst 0 ((body.drop off).take len) = some dst' := by
    rw [Octets.store, dif_pos (by omega)]
    exact ⟨_, rfl⟩
  refine ⟨dst', ?_⟩
  rw [memcpy, hslice]
  show access (Octets.store dst 0 _) = _
  rw [hstore]
  rfl

theorem memcpy_outOfBounds {n : Nat} (dst : Octets n) (body : Bytes) (off : Nat) {len : Nat} (hdst : n < len) :
    memcpy dst body off len = .error .outOfBounds := by
  rw [memcpy]
  cases hslice : slice body off len with
  | none => rfl
  | some src =>
    have hlen := length_slice hslice
    show access (Octets.store dst 0 src) = _
    rw [Octets.store_eq_none_iff.mpr (by omega)]
    rfl

theorem store_ok {α : Type} {n off : Nat} (dst : List.Vector α n) (a : α) (h : off < n) :
    ∃ dst', access (Octets.store dst off [a]) = .ok dst' := by
  rw [Octets.store, dif_pos (by simp; omega)]
  exact ⟨_, rfl⟩

/-! ### The attributes -/

theorem stunParseAtrAddress_spec (hle : len ≤ body.length) :
    (len = 8 ∧ (body.drop 1).head? = some IPv4Family ∧ ∃ a, stunParseAtrAddress body len = .ok a) ∨
    (¬(len = 8 ∧ (body.drop 1).head? = some IPv4Family) ∧ stunParseAtrAddress body len = .error .rejected) := by
  rw [stunParseAtrAddress]
  split
  · rename_i hlen
    exact Or.inr ⟨fun h => hlen h.1, rfl⟩
  · rename_i hlen
    obtain ⟨pad, hpad, -⟩ := readByte_ok body 0 (by omega)
    obtain ⟨family, hfamily, hhead⟩ := readByte_ok body 1 (by omega)
    obtain ⟨port, hport⟩ := read16_ok (by omega : 2 + 2 ≤ body.length)
    obtain ⟨addr, haddr⟩ := read32_ok body 4 (by omega)
    simp only [hpad, hfamily, hport, haddr, hhead, bind, Except.bind]
    by_cases hv4 : family = IPv4Family
    · rw [if_pos hv4]
      exact Or.inl ⟨by omega, by rw [hv4], _, rfl⟩
    · rw [if_neg hv4]
      exact Or.inr ⟨fun h => hv4 (Option.some.inj h.2), rfl⟩

theorem stunParseAtrChangeRequest_spec (hle : len ≤ body.length) :
    (len = 4 ∧ ∃ a, stunParseAtrChangeRequest body len = .ok a) ∨
    (len ≠ 4 ∧ stunParseAtrChangeRequest body len = .error .rejected) := by
  rw [stunParseAtrChangeRequest]
  split
  · rename_i hlen
    exact Or.inr ⟨hlen, rfl⟩
  · rename_i hlen
    obtain ⟨value, hvalue⟩ := read32_ok body 0 (by omega)
    rw [hvalue]
    exact Or.inl ⟨by omega, _, rfl⟩

theorem stunParseAtrString_spec (hle : len ≤ body.length) (result : StunAtrString) :
    ((len < STUN_MAX_STRING ∧ len % 4 = 0) ∧ ∃ a, stunParseAtrString body len result = .ok a) ∨
    (¬(len < STUN_MAX_STRING ∧ len % 4 = 0) ∧ stunParseAtrString body len result = .error .rejected) := by
  rw [stunParseAtrString]
  split
  · rename_i hlong
    exact Or.inr ⟨by omega, rfl⟩
  · rename_i hlong
    split
    · rename_i hfour
      exact Or.inr ⟨by omega, rfl⟩
    · rename_i hfour
      obtain ⟨value, hvalue⟩ := memcpy_ok result.value body 0 len (by omega) (by omega)
      obtain ⟨value', hvalue'⟩ := store_ok value 0 (by omega : len < STUN_MAX_STRING)
      simp only [hvalue, hvalue', bind, Except.bind]
      exact Or.inl ⟨by omega, _, rfl⟩

theorem stunParseAtrIntegrity_spec (hle : len ≤ body.length) (result : StunAtrIntegrity) :
    (len = 20 ∧ ∃ a, stunParseAtrIntegrity body len result = .ok a) ∨
    (len ≠ 20 ∧ stunParseAtrIntegrity body len result = .error .rejected) := by
  rw [stunParseAtrIntegrity]
  split
  · rename_i hlen
    exact Or.inr ⟨hlen, rfl⟩
  · rename_i hlen
    obtain ⟨hash, hhash⟩ := memcpy_ok result.hash body 0 len (by omega) (by omega)
    rw [hhash]
    exact Or.inl ⟨by omega, _, rfl⟩

theorem readTypes_ok {n : Nat} (hbody : 2 * n ≤ body.length) (hn : n ≤ STUN_MAX_UNKNOWN_ATTRIBUTES)
    (attrType : List.Vector UInt16 STUN_MAX_UNKNOWN_ATTRIBUTES) : ∃ t, readTypes body n attrType = .ok t := by
  induction n with
  | zero => exact ⟨_, rfl⟩
  | succ n ih =>
    obtain ⟨t, ht⟩ := ih (by omega) (by omega)
    obtain ⟨type, htype⟩ := read16_ok (by omega : 2 * n + 2 ≤ body.length)
    obtain ⟨t', ht'⟩ := store_ok t type (by omega : n < STUN_MAX_UNKNOWN_ATTRIBUTES)
    exact ⟨t', by rw [readTypes, ht]; simp only [bind, Except.bind, htype, ht']⟩

theorem stunParseAtrUnknown_spec (hle : len ≤ body.length) (result : StunAtrUnknown) :
    ((len < sizeofStunAtrUnknown ∧ len % 4 = 0) ∧ ∃ a, stunParseAtrUnknown body len result = .ok a) ∨
    (¬(len < sizeofStunAtrUnknown ∧ len % 4 = 0) ∧
      stunParseAtrUnknown body len result = .error .rejected) := by
  rw [stunParseAtrUnknown]
  split
  · rename_i hlong
    exact Or.inr ⟨by omega, rfl⟩
  · rename_i hlong
    split
    · rename_i hfour
      exact Or.inr ⟨by omega, rfl⟩
    · rename_i hfour
      simp only [sizeofStunAtrUnknown] at hlong ⊢
      have hnum : (UInt16.ofNat (len / 4)).toNat = len / 4 := by
        rw [UInt16.toNat_ofNat']
        omega
      have hfits : (UInt16.ofNat (len / 4)).toNat ≤ STUN_MAX_UNKNOWN_ATTRIBUTES := by
        rw [hnum, STUN_MAX_UNKNOWN_ATTRIBUTES]
        omega
      obtain ⟨t, ht⟩ := readTypes_ok (by omega : 2 * (UInt16.ofNat (len / 4)).toNat ≤ body.length) hfits result.attrType
      simp only [ht, bind, Except.bind]
      rw [dif_pos hfits]
      exact Or.inl ⟨by omega, _, rfl⟩

/-- The lengths of an error code that leave the array of the reason, or the buffer. -/
def BadErrorLength (len : Nat) : Prop := len < sizeofStunAtrError ∧ (len < 4 ∨ 260 ≤ len)

theorem stunParseAtrError_spec (hle : len ≤ body.length) (result : StunAtrError) :
    (BadErrorLength len ∧ stunParseAtrError body len result = .error .outOfBounds) ∨
    (¬BadErrorLength len ∧ len < sizeofStunAtrError ∧ ∃ a, stunParseAtrError body len result = .ok a) ∨
    (¬BadErrorLength len ∧ ¬len < sizeofStunAtrError ∧ stunParseAtrError body len result = .error .rejected) := by
  rw [stunParseAtrError]
  split
  · rename_i hlong
    exact Or.inr (Or.inr ⟨fun h => absurd h.1 (by omega), by omega, rfl⟩)
  · rename_i hlong
    have hsize : (UInt16.ofNat len - 4).toNat = (2 ^ 16 - 4 + len % 2 ^ 16) % 2 ^ 16 := by
      rw [UInt16.toNat_sub, UInt16.toNat_ofNat']
      rfl
    simp only [sizeofStunAtrError] at hlong
    by_cases hshort : len < 4
    · -- The size is at least 65532, and the reason has 256 bytes.
      have hcopy := memcpy_outOfBounds result.reason body 4
        (by rw [hsize, STUN_MAX_STRING]; omega : STUN_MAX_STRING < (UInt16.ofNat len - 4).toNat)
      refine Or.inl ⟨⟨by rw [sizeofStunAtrError]; omega, Or.inl hshort⟩, ?_⟩
      rcases read16_cases body 0 with ⟨pad, hpad⟩ | hpad
      · rcases readByte_cases body 2 with ⟨errorClass, hclass⟩ | hclass
        · rcases readByte_cases body 3 with ⟨number, hnumber⟩ | hnumber
          · simp only [hpad, hclass, hnumber, hcopy, bind, Except.bind]
          · simp only [hpad, hclass, hnumber, bind, Except.bind]
        · simp only [hpad, hclass, bind, Except.bind]
      · simp only [hpad, bind, Except.bind]
    · have hreason : (UInt16.ofNat len - 4).toNat = len - 4 := by
        rw [hsize]
        omega
      obtain ⟨pad, hpad⟩ := read16_ok (by omega : 0 + 2 ≤ body.length)
      obtain ⟨errorClass, hclass, -⟩ := readByte_ok body 2 (by omega)
      obtain ⟨number, hnumber, -⟩ := readByte_ok body 3 (by omega)
      simp only [hpad, hclass, hnumber, hreason, bind, Except.bind]
      by_cases hcopy : STUN_MAX_STRING < len - 4
      · rw [memcpy_outOfBounds result.reason body 4 hcopy]
        rw [STUN_MAX_STRING] at hcopy
        exact Or.inl ⟨⟨by rw [sizeofStunAtrError]; omega, by omega⟩, rfl⟩
      · obtain ⟨reason, hcopied⟩ := memcpy_ok result.reason body 4 (len - 4) (by omega) (by omega)
        rw [hcopied]
        simp only
        by_cases hfull : len - 4 = STUN_MAX_STRING
        · rw [Octets.store_eq_none_iff.mpr (by simp; omega)]
          rw [STUN_MAX_STRING] at hfull
          exact Or.inl ⟨⟨by rw [sizeofStunAtrError]; omega, by omega⟩, rfl⟩
        · obtain ⟨reason', hzero⟩ := store_ok reason 0 (by omega : len - 4 < STUN_MAX_STRING)
          rw [hzero]
          simp only
          rw [dif_pos (by omega)]
          rw [STUN_MAX_STRING] at hcopy hfull
          refine Or.inr (Or.inl ⟨fun hbad => ?_, by rw [sizeofStunAtrError]; omega, _, rfl⟩)
          have := hbad.2
          omega

/-! ### The loop -/

/-- The attributes that are accepted, when their length is not a bad one. -/
def Accepted (type : UInt16) (len : Nat) (body : Bytes) : Prop :=
  match AtrType.ofCode type with
  | some .MappedAddress | some .ResponseAddress | some .SourceAddress | some .ChangedAddress
  | some .ReflectedFrom => len = 8 ∧ (body.drop 1).head? = some IPv4Family
  | some .ChangeRequest => len = 4
  | some .Username | some .Password => len < STUN_MAX_STRING ∧ len % 4 = 0
  | some .MessageIntegrity => len = 20
  | some .ErrorCode => len < sizeofStunAtrError
  | some .UnknownAttribute => len < sizeofStunAtrUnknown ∧ len % 4 = 0
  | none => 0x7FFF < type

/-- The attributes that make the parser leave its bounds. -/
def BadAttribute (type : UInt16) (len : Nat) : Prop :=
  AtrType.ofCode type = some .ErrorCode ∧ BadErrorLength len

theorem parseAttribute_spec (msg : StunMessage) (type : UInt16) (hle : len ≤ body.length) :
    (BadAttribute type len ∧ parseAttribute msg type len body = .error .outOfBounds) ∨
    (¬BadAttribute type len ∧ Accepted type len body ∧ ∃ m', parseAttribute msg type len body = .ok m') ∨
    (¬BadAttribute type len ∧ ¬Accepted type len body ∧
      parseAttribute msg type len body = .error .rejected) := by
  have haddress := stunParseAtrAddress_spec hle
  unfold BadAttribute Accepted parseAttribute
  cases AtrType.ofCode type with
  | none =>
    refine Or.inr ?_
    simp only [reduceCtorEq, false_and, not_false_eq_true, true_and]
    split
    · rename_i hsmall
      exact Or.inr ⟨by simpa using hsmall, rfl⟩
    · rename_i hlarge
      exact Or.inl ⟨by simpa using hlarge, _, rfl⟩
  | some t =>
    cases t with
    | ErrorCode =>
      rcases stunParseAtrError_spec hle msg.errorCode with ⟨hbad, h⟩ | ⟨hgood, hlen, a, h⟩ | ⟨hgood, hlen, h⟩
      · exact Or.inl ⟨⟨rfl, hbad⟩, by rw [h]; rfl⟩
      · exact Or.inr (Or.inl ⟨fun hbad => hgood hbad.2, hlen, _, by rw [h]; rfl⟩)
      · exact Or.inr (Or.inr ⟨fun hbad => hgood hbad.2, hlen, by rw [h]; rfl⟩)
    | ChangeRequest =>
      refine Or.inr ?_
      rcases stunParseAtrChangeRequest_spec hle with ⟨hlen, a, h⟩ | ⟨hlen, h⟩
      · exact Or.inl ⟨by simp, hlen, _, by rw [h]; rfl⟩
      · exact Or.inr ⟨by simp, hlen, by rw [h]; rfl⟩
    | Username =>
      refine Or.inr ?_
      rcases stunParseAtrString_spec hle msg.username with ⟨hlen, a, h⟩ | ⟨hlen, h⟩
      · exact Or.inl ⟨by simp, hlen, _, by rw [h]; rfl⟩
      · exact Or.inr ⟨by simp, hlen, by rw [h]; rfl⟩
    | Password =>
      refine Or.inr ?_
      rcases stunParseAtrString_spec hle msg.password with ⟨hlen, a, h⟩ | ⟨hlen, h⟩
      · exact Or.inl ⟨by simp, hlen, _, by rw [h]; rfl⟩
      · exact Or.inr ⟨by simp, hlen, by rw [h]; rfl⟩
    | MessageIntegrity =>
      refine Or.inr ?_
      rcases stunParseAtrIntegrity_spec hle msg.messageIntegrity with ⟨hlen, a, h⟩ | ⟨hlen, h⟩
      · exact Or.inl ⟨by simp, hlen, _, by rw [h]; rfl⟩
      · exact Or.inr ⟨by simp, hlen, by rw [h]; rfl⟩
    | UnknownAttribute =>
      refine Or.inr ?_
      rcases stunParseAtrUnknown_spec hle msg.unknownAttributes with ⟨hlen, a, h⟩ | ⟨hlen, h⟩
      · exact Or.inl ⟨by simp, hlen, _, by rw [h]; rfl⟩
      · exact Or.inr ⟨by simp, hlen, by rw [h]; rfl⟩
    | MappedAddress | ResponseAddress | SourceAddress | ChangedAddress | ReflectedFrom =>
      refine Or.inr ?_
      rcases haddress with ⟨hlen, hfamily, a, h⟩ | ⟨hlen, h⟩
      · exact Or.inl ⟨by simp, ⟨hlen, hfamily⟩, _, by rw [h]; rfl⟩
      · exact Or.inr ⟨by simp, hlen, by rw [h]; rfl⟩

/-- What the loop comes to after attributes that fit in the buffer and are accepted. -/
inductive Reaches : Bytes → Bytes → Prop
  | refl (body : Bytes) : Reaches body body
  | step {a b c d : UInt8} {body rest : Bytes} (hfits : (word16 c d).toNat ≤ body.length)
      (hgood : ¬BadAttribute (word16 a b) (word16 c d).toNat)
      (haccepted : Accepted (word16 a b) (word16 c d).toNat body)
      (hrest : Reaches (body.drop (word16 c d).toNat) rest) : Reaches (a :: b :: c :: d :: body) rest

/-- There is an attribute header, unless nothing is left, and an attribute that fits is not a bad one. -/
def Guarded : Bytes → Prop
  | [] => True
  | a :: b :: c :: d :: body =>
    (word16 c d).toNat ≤ body.length → ¬BadAttribute (word16 a b) (word16 c d).toNat
  | _ => False

theorem guarded_short {body : Bytes} (hne : body ≠ []) (h : body.length < 4) : ¬Guarded body := by
  match body, hne, h with
  | [_], _, _ => exact id
  | [_, _], _, _ => exact id
  | [_, _, _], _, _ => exact id

theorem parseRest_bounds (msg : StunMessage) (body : Bytes) :
    parseRest msg body ≠ .error .unfinished ∧
      (parseRest msg body ≠ .error .outOfBounds ↔ ∀ rest, Reaches body rest → Guarded rest) := by
  induction hn : body.length using Nat.strong_induction_on generalizing msg body with
  | _ n ih =>
    by_cases hne : body = []
    · subst hne
      refine ⟨by simp, fun _ rest hrest => ?_, fun _ => by simp⟩
      cases hrest
      trivial
    by_cases hshort : body.length < 4
    · rw [parseRest_short hne hshort]
      refine ⟨by simp, fun h => absurd rfl h, fun h => ?_⟩
      exact absurd (h body (.refl body)) (guarded_short hne hshort)
    obtain ⟨a, b, c, d, body, rfl⟩ := word16_cases (Nat.le_of_not_lt hshort)
    rw [parseRest_cons]
    split
    · rename_i hlong
      refine ⟨by simp, fun _ rest hrest => ?_, fun _ => by simp⟩
      cases hrest with
      | refl => exact fun hfits => absurd hfits (by omega)
      | step hfits => omega
    · rename_i hfits
      rcases parseAttribute_spec msg (word16 a b) (Nat.le_of_not_lt hfits) with
        ⟨hbad, h⟩ | ⟨hgood, haccepted, m', h⟩ | ⟨hgood, hno, h⟩
      · rw [h]
        refine ⟨by simp [error_bind], fun h => absurd rfl h, fun hall => ?_⟩
        exact absurd hbad (hall _ (.refl _) (Nat.le_of_not_lt hfits))
      · rw [h]
        obtain ⟨hend, hiff⟩ := ih (body.drop (word16 c d).toNat).length
          (by rw [← hn, List.length_drop]; simp; omega) m' _ rfl
        refine ⟨hend, hiff.trans ⟨fun hall rest hrest => ?_, fun hall rest hrest => ?_⟩⟩
        · cases hrest with
          | refl => exact fun _ => hgood
          | step _ _ _ hrest => exact hall rest hrest
        · exact hall rest (.step (Nat.le_of_not_lt hfits) hgood haccepted hrest)
      · rw [h]
        refine ⟨by simp [error_bind], fun _ rest hrest => ?_, fun _ => by simp [error_bind]⟩
        cases hrest with
        | refl => exact fun _ => hgood
        | step _ _ haccepted => exact absurd haccepted hno

/-! ### Messages -/

theorem parseHeader_ok {buf : Bytes} (h : sizeofStunMsgHdr ≤ buf.length) :
    ∃ hdr, parseHeader buf = .ok hdr ∧ read16 buf 2 = .ok hdr.msgLength := by
  simp only [sizeofStunMsgHdr] at h
  obtain ⟨type, htype⟩ := read16_ok (by omega : 0 + 2 ≤ buf.length)
  obtain ⟨length, hlength⟩ := read16_ok (by omega : 2 + 2 ≤ buf.length)
  obtain ⟨id, hid⟩ := memcpy_ok (List.Vector.replicate 16 0) buf 4 16 (by omega) le_rfl
  refine ⟨⟨type, length, id⟩, ?_, hlength⟩
  rw [parseHeader, htype, hlength, hid]
  rfl

/-- The parser always comes to its end, and it stays within its bounds exactly when every attribute that
it comes to has a header, and no error code that fits in the buffer has a length below 4, or of 260 or
261. -/
theorem stunParseMessage_bounds_iff (buf : Bytes) :
    stunParseMessage buf ≠ .error .unfinished ∧
      (stunParseMessage buf ≠ .error .outOfBounds ↔
        ∀ len, read16 buf 2 = .ok len → len.toNat + sizeofStunMsgHdr = buf.length →
          ∀ rest, Reaches (buf.drop sizeofStunMsgHdr) rest → Guarded rest) := by
  rw [stunParseMessage]
  split
  · rename_i hshort
    exact ⟨by simp, fun _ len _ hlen => by omega, fun _ => by simp⟩
  · rename_i hlong
    obtain ⟨hdr, hheader, hlength⟩ := parseHeader_ok (Nat.le_of_not_lt hlong)
    rw [hheader]
    show (if _ then _ else _) ≠ _ ∧ ((if _ then _ else _) ≠ _ ↔ _)
    split
    · rename_i hdiffers
      refine ⟨by simp, fun _ len hlen heq => ?_, fun _ => by simp⟩
      rw [hlength] at hlen
      cases hlen
      exact absurd heq hdiffers
    · rename_i hequal
      have hequal' : hdr.msgLength.toNat + sizeofStunMsgHdr = buf.length := by omega
      have hturns : parseAttributes buf.length { msgHdr := hdr } (buf.drop sizeofStunMsgHdr) =
          parseRest { msgHdr := hdr } (buf.drop sizeofStunMsgHdr) :=
        parseAttributes_turns (by rw [List.length_drop]; omega) le_rfl
      rw [hturns]
      obtain ⟨hend, hiff⟩ := parseRest_bounds { msgHdr := hdr } (buf.drop sizeofStunMsgHdr)
      refine ⟨hend, hiff.trans ⟨fun hall len _ _ => hall, fun hall => ?_⟩⟩
      exact hall hdr.msgLength hlength hequal'

/-- A message with one byte after its header: the header of an attribute is read past the end. -/
theorem stunParseMessage_one_byte :
    stunParseMessage ([0, 1, 0, 1] ++ List.replicate 16 0 ++ [0]) = .error .outOfBounds := by
  rfl

end Vocal.Stun
