import Vocal.Radius.Digest

/-!
# Robustness of the receiver

A message that is received is refused with an exception, or its attributes are the bytes that came. An assertion
is reached exactly if a vendor attribute has the vendor zero, or a request for accounting has no room for the
secret behind it.
-/

namespace Vocal.Radius

open Failure

/-! ## Attributes that the receiver takes -/

/-- `RadiusMessage::encodeAttributes`. -/
def encodeAttributes (attributes : List RadiusAttribute) : Except Failure RadiusData :=
  attributes.foldlM (fun msg a => do msg.append (← a.encode).bytes) (.ofBytes [])

/-- The attribute `a` is what `r` is in clear. -/
structure Clear (md5 : Bytes → Octets RadiusAuthenticatorLength) (secret authenticator : Bytes)
    (r a : RadiusAttribute) : Prop where
  type_eq : a.type = r.type
  vendorId_eq : a.vendorId = r.vendorId
  value_eq : r.type ≠ RA_USER_PASSWORD → a.value = r.value
  password_eq : r.type = RA_USER_PASSWORD →
    decodeUserPassword md5 secret authenticator r.value.bytes = .ok a.value.bytes

/-- An exception, or a message whose attributes, with the passwords as they came, are the bytes behind the
header. -/
def Robust (md5 : Bytes → Octets RadiusAuthenticatorLength) (secret : Bytes) (rawMsg : RadiusData) :
    Except Failure RadiusMessage → Prop
  | .ok m => ∃ received d, encodeAttributes received = .ok d ∧ d.bytes = rawMsg.bytes.drop RadiusPacketHeaderSize ∧
      List.Forall₂ (Clear md5 secret ((rawMsg.bytes.drop 4).take RadiusAuthenticatorLength)) received m.attributes
  | .error (vRadiusException _) => True
  | .error _ => False

/-- An attribute that the receiver takes. -/
structure Accepted (code : UInt8) (a : Tlv.Attribute) : Prop where
  length_le : a.2.length ≤ Tlv.maxValue
  vendor : a.1 = RA_VENDOR_SPECIFIC → 7 ≤ a.2.length ∧ a.2.take 4 ≠ [0, 0, 0, 0]
  password : a.1 = RA_USER_PASSWORD → code = RP_ACCESS_REQUEST ∧ a.2.length % 16 = 0

/-- A vendor attribute whose vendor is zero. -/
structure ZeroVendor (a : Tlv.Attribute) : Prop where
  length_le : a.2.length ≤ Tlv.maxValue
  type_eq : a.1 = RA_VENDOR_SPECIFIC
  le_length : 7 ≤ a.2.length
  vendor_eq : a.2.take 4 = [0, 0, 0, 0]

/-- The bytes are attributes that the receiver takes. -/
def WellFormed (code : UInt8) (bytes : Bytes) : Prop :=
  ∃ as, (∀ a ∈ as, Accepted code a) ∧ bytes = Tlv.encodeAll as

/-- The first attribute that the receiver does not take has the vendor zero. -/
def ReachesZeroVendor (code : UInt8) (bytes : Bytes) : Prop :=
  ∃ as z rest, (∀ a ∈ as, Accepted code a) ∧ ZeroVendor z ∧ bytes = Tlv.encodeAll as ++ (Tlv.encode z ++ rest)

/-! ## One attribute -/

theorem password_ne_vendor : RA_USER_PASSWORD ≠ RA_VENDOR_SPECIFIC := by decide

section

variable {md5 : Bytes → Octets RadiusAuthenticatorLength} {secret authenticator : Bytes} {code : UInt8}

theorem ofBytes_of_le {x : Bytes} (h : x.length ≤ RadiusMaxPacketSize) : (RadiusData.ofBytes x).bytes = x :=
  List.take_of_length_le h

theorem make_of_ne (type : UInt8) (value : RadiusData) (vendorId : UInt32)
    (hvendor : type = RA_VENDOR_SPECIFIC ↔ vendorId ≠ 0)
    (hpassword : type = RA_USER_PASSWORD → value.bytes.length % 16 = 0) :
    RadiusAttribute.make type value vendorId = .ok ⟨type, value, vendorId, hvendor, hpassword⟩ := by
  rw [RadiusAttribute.make, dif_pos hvendor, dif_neg fun h => h.2 (hpassword h.1)]

theorem decodeUserPassword_eq (hsecret : secret.length < 256) {p : Bytes} (hmod : p.length % 16 = 0)
    (hlen : p.length ≤ 256) :
    decodeUserPassword md5 secret authenticator p =
      .ok (decodeBlocks md5 secret authenticator p (p.length / 16)) := by
  simp only [decodeUserPassword, convertPassword, check, if_pos hsecret, if_pos hmod, if_pos hlen]
  rfl

theorem word32_eq_zero_iff (a b c d : UInt8) : Bytes.word32 a b c d = 0 ↔ [a, b, c, d] = [0, 0, 0, 0] := by
  have ha := a.toNat_lt
  have hb := b.toNat_lt
  have hc := c.toNat_lt
  have hd := d.toNat_lt
  rw [Bytes.word32, ← UInt32.toNat_inj, UInt32.toNat_ofNat']
  simp only [List.cons.injEq, and_true, ← UInt8.toNat_inj]
  constructor
  · intro h
    have hsum : a.toNat * 2 ^ 24 + b.toNat * 2 ^ 16 + c.toNat * 2 ^ 8 + d.toNat = 0 := by
      have hzero : (0 : UInt32).toNat = 0 := rfl
      omega
    refine ⟨?_, ?_, ?_, ?_⟩ <;> · show _ = 0; omega
  · rintro ⟨h₁, h₂, h₃, h₄⟩
    rw [h₁, h₂, h₃, h₄]
    rfl

theorem exists_cons_of_seven_le {value : Bytes} (h : 7 ≤ value.length) :
    ∃ a b c d x y z more, value = a :: b :: c :: d :: x :: y :: z :: more :=
  match value, h with
  | a :: b :: c :: d :: x :: y :: z :: more, _ => ⟨a, b, c, d, x, y, z, more, rfl⟩

variable (md5 secret authenticator code) in
theorem decodeAttribute_vendor {value : Bytes} (hlen : value.length ≤ Tlv.maxValue) :
    (Accepted code (RA_VENDOR_SPECIFIC, value) ∧ ∃ attr,
        RadiusMessage.decodeAttribute md5 secret code authenticator RA_VENDOR_SPECIFIC value = .ok attr ∧
        attr.toTlv = (RA_VENDOR_SPECIFIC, value)) ∨
      (ZeroVendor (RA_VENDOR_SPECIFIC, value) ∧
        RadiusMessage.decodeAttribute md5 secret code authenticator RA_VENDOR_SPECIFIC value = .error assertion) ∨
      (value.length < 7 ∧ ∃ d,
        RadiusMessage.decodeAttribute md5 secret code authenticator RA_VENDOR_SPECIFIC value =
          .error (vRadiusException d)) := by
  unfold RadiusMessage.decodeAttribute
  rw [if_pos rfl]
  by_cases hseven : 7 ≤ value.length
  · obtain ⟨a, b, c, d, x, y, z, more, rfl⟩ := exists_cons_of_seven_le hseven
    dsimp only
    have hfits : (x :: y :: z :: more).length ≤ RadiusMaxPacketSize := by
      simp only [List.length_cons, Tlv.maxValue, RadiusMaxPacketSize] at hlen ⊢
      omega
    have htake : (a :: b :: c :: d :: x :: y :: z :: more).take 4 = [a, b, c, d] := rfl
    by_cases hzero : Bytes.word32 a b c d = 0
    · refine Or.inr (Or.inl ⟨⟨hlen, rfl, hseven, ?_⟩, ?_⟩)
      · rw [htake]
        exact (word32_eq_zero_iff a b c d).mp hzero
      · rw [RadiusAttribute.make, dif_neg (by simp [hzero])]
    · refine Or.inl ⟨⟨hlen, fun _ => ⟨hseven, ?_⟩, fun h => absurd h.symm password_ne_vendor⟩, _,
        make_of_ne _ _ _ (by simp [hzero]) fun h => absurd h (by decide), ?_⟩
      · rw [htake]
        exact fun h => hzero ((word32_eq_zero_iff a b c d).mpr h)
      · rw [RadiusAttribute.toTlv_of_vendor rfl]
        dsimp only
        rw [ofBytes_of_le hfits, Bytes.ofWord32_word32]
        rfl
  · refine Or.inr (Or.inr ⟨Nat.lt_of_not_le hseven, "VSA has invalid length", ?_⟩)
    split
    · rename_i a b c d x y z more
      exact absurd (by simp only [List.length_cons]; omega) hseven
    · rfl

variable (md5 authenticator code) in
theorem decodeAttribute_password (hsecret : secret.length < 256) {value : Bytes} (hlen : value.length ≤ Tlv.maxValue) :
    (code = RP_ACCESS_REQUEST ∧ value.length % 16 = 0 ∧ ∃ r attr,
        RadiusMessage.decodeAttribute md5 secret code authenticator RA_USER_PASSWORD value = .ok attr ∧
        r.toTlv = (RA_USER_PASSWORD, value) ∧ Clear md5 secret authenticator r attr) ∨
      (¬ (code = RP_ACCESS_REQUEST ∧ value.length % 16 = 0) ∧ ∃ d,
        RadiusMessage.decodeAttribute md5 secret code authenticator RA_USER_PASSWORD value =
          .error (vRadiusException d)) := by
  unfold RadiusMessage.decodeAttribute
  rw [if_neg password_ne_vendor, if_pos rfl]
  by_cases hcode : code = RP_ACCESS_REQUEST
  · rw [if_neg (not_not.mpr hcode)]
    by_cases hmod : value.length % 16 = 0
    · have hle : value.length ≤ 256 := Nat.le_trans hlen (by decide)
      have hclear : (decodeBlocks md5 secret authenticator value (value.length / 16)).length = value.length := by
        rw [length_decodeBlocks (by omega)]
        omega
      have hbytes := ofBytes_of_le (x := value) (Nat.le_trans hlen (by decide))
      have hclear' := ofBytes_of_le (x := decodeBlocks md5 secret authenticator value (value.length / 16))
        (by rw [hclear]; exact Nat.le_trans hlen (by decide))
      rw [if_neg (not_not.mpr hmod), decodeUserPassword_eq hsecret hmod hle]
      have hmake := make_of_ne RA_USER_PASSWORD
        (.ofBytes (decodeBlocks md5 secret authenticator value (value.length / 16))) 0 (by decide)
        fun _ => by rw [hclear', hclear]; exact hmod
      refine Or.inl ⟨hcode, hmod, ⟨RA_USER_PASSWORD, .ofBytes value, 0, by decide, fun _ => by rw [hbytes]; exact hmod⟩, _,
        hmake, ?_, rfl, rfl, ?_, ?_⟩
      · rw [RadiusAttribute.toTlv_of_ne password_ne_vendor]
        dsimp only
        rw [hbytes]
      · exact fun hne => absurd rfl hne
      · intro _
        dsimp only
        rw [hbytes, hclear', decodeUserPassword_eq hsecret hmod hle]
    · rw [if_pos hmod]
      exact Or.inr ⟨fun h => hmod h.2, _, rfl⟩
  · rw [if_pos hcode]
    exact Or.inr ⟨fun h => hcode h.1, _, rfl⟩

variable (md5 secret authenticator code) in
theorem decodeAttribute_other {type : UInt8} (hvendor : type ≠ RA_VENDOR_SPECIFIC) (hpassword : type ≠ RA_USER_PASSWORD)
    {value : Bytes} (hlen : value.length ≤ RadiusMaxPacketSize) :
    ∃ attr, RadiusMessage.decodeAttribute md5 secret code authenticator type value = .ok attr ∧
      attr.toTlv = (type, value) := by
  unfold RadiusMessage.decodeAttribute
  rw [if_neg hvendor, if_neg hpassword,
    make_of_ne _ _ _ (by simp [hvendor]) fun h => absurd h hpassword]
  refine ⟨_, rfl, ?_⟩
  rw [RadiusAttribute.toTlv_of_ne hvendor]
  dsimp only
  rw [ofBytes_of_le hlen]

theorem clear_self {a : RadiusAttribute} (h : a.type ≠ RA_USER_PASSWORD) : Clear md5 secret authenticator a a :=
  ⟨rfl, rfl, fun _ => rfl, fun h' => absurd h' h⟩

variable (md5 authenticator code) in
theorem decodeAttribute_cases (hsecret : secret.length < 256) {a : Tlv.Attribute} (ha : a.2.length ≤ Tlv.maxValue) :
    (Accepted code a ∧ ∃ r attr, RadiusMessage.decodeAttribute md5 secret code authenticator a.1 a.2 = .ok attr ∧
        r.toTlv = a ∧ Clear md5 secret authenticator r attr) ∨
      (ZeroVendor a ∧ RadiusMessage.decodeAttribute md5 secret code authenticator a.1 a.2 = .error assertion) ∨
      (¬ Accepted code a ∧ ¬ ZeroVendor a ∧
        ∃ d, RadiusMessage.decodeAttribute md5 secret code authenticator a.1 a.2 = .error (vRadiusException d)) := by
  obtain ⟨type, value⟩ := a
  by_cases hvendor : type = RA_VENDOR_SPECIFIC
  · subst hvendor
    rcases decodeAttribute_vendor md5 secret authenticator code ha with
      ⟨hacc, attr, hok, htlv⟩ | hzero | ⟨hlt, hex⟩
    · have htype : attr.type = RA_VENDOR_SPECIFIC := congrArg Prod.fst htlv
      exact Or.inl ⟨hacc, attr, attr, hok, htlv, clear_self (by rw [htype]; decide)⟩
    · exact Or.inr (Or.inl hzero)
    · refine Or.inr (Or.inr ⟨fun h => ?_, fun h => ?_, hex⟩)
      · exact absurd (h.vendor rfl).1 (Nat.not_le.mpr hlt)
      · exact absurd h.le_length (Nat.not_le.mpr hlt)
  · have hnot : ¬ ZeroVendor (type, value) := fun h => hvendor h.type_eq
    by_cases hpassword : type = RA_USER_PASSWORD
    · subst hpassword
      rcases decodeAttribute_password md5 authenticator code hsecret ha with
        ⟨hcode, hmod, hex⟩ | ⟨hrefused, hex⟩
      · exact Or.inl ⟨⟨ha, fun h => absurd h password_ne_vendor, fun _ => ⟨hcode, hmod⟩⟩, hex⟩
      · exact Or.inr (Or.inr ⟨fun h => hrefused (h.password rfl), hnot, hex⟩)
    · obtain ⟨attr, hok, htlv⟩ := decodeAttribute_other md5 secret authenticator code hvendor hpassword
        (Nat.le_trans ha (by decide))
      have htype : attr.type = type := congrArg Prod.fst htlv
      exact Or.inl ⟨⟨ha, fun h => absurd h hvendor, fun h => absurd h hpassword⟩, attr, attr, hok, htlv,
        clear_self (by rw [htype]; exact hpassword)⟩

/-! ## All attributes -/

theorem wellFormed_append_iff {a : Tlv.Attribute} {next : Bytes} (ha : Accepted code a) :
    WellFormed code (Tlv.encode a ++ next) ↔ WellFormed code next := by
  constructor
  · rintro ⟨as, has, heq⟩
    cases as with
    | nil => simp [Tlv.encode] at heq
    | cons b as =>
      obtain ⟨-, hnext⟩ := Tlv.encode_append_inj ha.length_le (has b (by simp)).length_le heq
      exact ⟨as, fun c hc => has c (by simp [hc]), hnext⟩
  · rintro ⟨as, has, rfl⟩
    exact ⟨a :: as, List.forall_mem_cons.mpr ⟨ha, has⟩, rfl⟩

theorem reachesZeroVendor_append_iff {a : Tlv.Attribute} {next : Bytes} (ha : Accepted code a) (hz : ¬ ZeroVendor a) :
    ReachesZeroVendor code (Tlv.encode a ++ next) ↔ ReachesZeroVendor code next := by
  constructor
  · rintro ⟨as, z, rest, has, hzero, heq⟩
    cases as with
    | nil =>
      obtain ⟨rfl, -⟩ := Tlv.encode_append_inj ha.length_le hzero.length_le heq
      exact absurd hzero hz
    | cons b as =>
      rw [Tlv.encodeAll_cons, List.append_assoc] at heq
      obtain ⟨-, hnext⟩ := Tlv.encode_append_inj ha.length_le (has b (by simp)).length_le heq
      exact ⟨as, z, rest, fun c hc => has c (by simp [hc]), hzero, hnext⟩
  · rintro ⟨as, z, rest, has, hzero, rfl⟩
    exact ⟨a :: as, z, rest, List.forall_mem_cons.mpr ⟨ha, has⟩, hzero, by rw [Tlv.encodeAll_cons, List.append_assoc]⟩

theorem not_zeroVendor_of_accepted {a : Tlv.Attribute} (ha : Accepted code a) : ¬ ZeroVendor a :=
  fun hz => (ha.vendor hz.type_eq).2 hz.vendor_eq

theorem not_wellFormed_append {a : Tlv.Attribute} {next : Bytes} (hlen : a.2.length ≤ Tlv.maxValue)
    (ha : ¬ Accepted code a) : ¬ WellFormed code (Tlv.encode a ++ next) := by
  rintro ⟨as, has, heq⟩
  cases as with
  | nil => simp [Tlv.encode] at heq
  | cons b as =>
    obtain ⟨rfl, -⟩ := Tlv.encode_append_inj hlen (has b (by simp)).length_le heq
    exact ha (has a (by simp))

theorem not_reachesZeroVendor_append {a : Tlv.Attribute} {next : Bytes} (hlen : a.2.length ≤ Tlv.maxValue)
    (ha : ¬ Accepted code a) (hz : ¬ ZeroVendor a) : ¬ ReachesZeroVendor code (Tlv.encode a ++ next) := by
  rintro ⟨as, z, rest, has, hzero, heq⟩
  cases as with
  | nil =>
    obtain ⟨rfl, -⟩ := Tlv.encode_append_inj hlen hzero.length_le heq
    exact hz hzero
  | cons b as =>
    rw [Tlv.encodeAll_cons, List.append_assoc] at heq
    obtain ⟨rfl, -⟩ := Tlv.encode_append_inj hlen (has b (by simp)).length_le heq
    exact ha (has a (by simp))

theorem not_begins (code : UInt8) {b : Bytes} (hne : b ≠ [])
    (h : ∀ a next, a.2.length ≤ Tlv.maxValue → b ≠ Tlv.encode a ++ next) :
    ¬ WellFormed code b ∧ ¬ ReachesZeroVendor code b := by
  refine ⟨?_, ?_⟩
  · rintro ⟨as, has, rfl⟩
    cases as with
    | nil => exact hne rfl
    | cons c as => exact h c _ (has c (by simp)).length_le rfl
  · rintro ⟨as, z, rest, has, hzero, rfl⟩
    cases as with
    | nil => exact h z rest hzero.length_le rfl
    | cons c as =>
      exact h c (Tlv.encodeAll as ++ (Tlv.encode z ++ rest)) (has c (by simp)).length_le
        (by rw [Tlv.encodeAll_cons, List.append_assoc])

variable (md5 authenticator code) in
/-- What becomes of the bytes behind the header. -/
theorem decodeAttributes_cases (hsecret : secret.length < 256) (behind : UInt8) (bytes : Bytes) :
    (WellFormed code bytes ∧ ¬ ReachesZeroVendor code bytes ∧ ∃ received attrs,
        RadiusMessage.decodeAttributes md5 secret code authenticator behind bytes = .ok attrs ∧
        Tlv.encodeAll (received.map RadiusAttribute.toTlv) = bytes ∧
        List.Forall₂ (Clear md5 secret authenticator) received attrs) ∨
      (¬ WellFormed code bytes ∧ ReachesZeroVendor code bytes ∧
        RadiusMessage.decodeAttributes md5 secret code authenticator behind bytes = .error assertion) ∨
      (¬ WellFormed code bytes ∧ ¬ ReachesZeroVendor code bytes ∧ ∃ d,
        RadiusMessage.decodeAttributes md5 secret code authenticator behind bytes = .error (vRadiusException d)) := by
  induction hn : bytes.length using Nat.strong_induction_on generalizing bytes with
  | _ n ih =>
    cases bytes with
    | nil =>
      refine Or.inl ⟨⟨[], by simp, rfl⟩, ?_, [], [], by rw [RadiusMessage.decodeAttributes], rfl, .nil⟩
      rintro ⟨as, z, rest, -, -, heq⟩
      simp [Tlv.encode] at heq
    | cons attrType rest =>
      rw [RadiusMessage.decodeAttributes]
      split_ifs with hbad
      · -- the length counts less than the attribute's own two bytes, or more than there are
        obtain ⟨hwell, hreach⟩ := not_begins code (b := attrType :: rest) (by simp) fun a next ha heq => by
          simp only [Tlv.encode, List.cons_append, List.cons.injEq] at heq
          obtain ⟨-, rfl⟩ := heq
          rw [List.headD_cons, Tlv.toNat_length ha] at hbad
          simp only [List.length_cons, List.length_append] at hbad
          omega
        exact Or.inr (Or.inr ⟨hwell, hreach, _, rfl⟩)
      · cases rest with
        | nil =>
          simp only [List.headD_nil, List.length_nil] at hbad
          omega
        | cons length more =>
          rw [List.headD_cons, List.tail_cons]
          simp only [List.headD_cons, List.length_cons] at hbad hn
          obtain ⟨hbytes, hlen⟩ := Tlv.encode_take_append_drop attrType (n := length) (r := more) (by omega) (by omega)
          have hnext := ih (more.drop (length.toNat - 2)).length (by rw [List.length_drop]; omega) _ rfl
          rw [← hbytes]
          rcases decodeAttribute_cases md5 authenticator code hsecret
            (a := (attrType, more.take (length.toNat - 2))) hlen with
            ⟨hacc, r, attr, hok, htlv, hclear⟩ | ⟨hzero, herr⟩ | ⟨hnot, hz, d, herr⟩
          · rw [wellFormed_append_iff hacc, reachesZeroVendor_append_iff hacc (not_zeroVendor_of_accepted hacc), hok]
            rcases hnext with ⟨hwell, hreach, received, attrs, hoks, hall, hclears⟩ | ⟨hwell, hreach, herr⟩ |
              ⟨hwell, hreach, d, herr⟩
            · refine Or.inl ⟨hwell, hreach, r :: received, attr :: attrs, ?_, ?_, .cons hclear hclears⟩
              · simp only [bind, Except.bind, hoks, pure, Except.pure]
              · rw [List.map_cons, Tlv.encodeAll_cons, htlv, hall]
            · exact Or.inr (Or.inl ⟨hwell, hreach, by simp only [bind, Except.bind, herr]⟩)
            · exact Or.inr (Or.inr ⟨hwell, hreach, d, by simp only [bind, Except.bind, herr]⟩)
          · refine Or.inr (Or.inl ⟨not_wellFormed_append hlen fun h => not_zeroVendor_of_accepted h hzero,
              ⟨[], _, _, by simp, hzero, rfl⟩, ?_⟩)
            simp only [bind, Except.bind, herr]
          · refine Or.inr (Or.inr ⟨not_wellFormed_append hlen hnot, not_reachesZeroVendor_append hlen hnot hz, d, ?_⟩)
            simp only [bind, Except.bind, herr]

/-! ## The constructor -/

theorem encodeAttributes_eq {as : List RadiusAttribute} {d : RadiusData}
    (h : (d.bytes ++ Tlv.encodeAll (as.map RadiusAttribute.toTlv)).length ≤ RadiusMaxPacketSize) :
    ∃ d', as.foldlM (fun msg a => do RadiusData.append msg (← RadiusAttribute.encode a).bytes) d = .ok d' ∧
      d'.bytes = d.bytes ++ Tlv.encodeAll (as.map RadiusAttribute.toTlv) := by
  induction as generalizing d with
  | nil => exact ⟨d, rfl, by simp⟩
  | cons a as ih =>
    rw [List.map_cons, Tlv.encodeAll_cons] at h ⊢
    obtain ⟨e, hencode, hbytes⟩ := a.encode_eq (by
      rw [a.length_eq]
      simp only [List.length_append] at h
      omega)
    have hfits : d.bytes.length + e.bytes.length ≤ RadiusMaxPacketSize := by
      rw [hbytes]
      simp only [List.length_append] at h
      omega
    obtain ⟨d', hfold, hd'⟩ := ih (d := ⟨d.bytes ++ e.bytes, by rw [List.length_append]; exact hfits⟩)
      (by simpa only [hbytes, List.append_assoc] using h)
    refine ⟨d', ?_, ?_⟩
    · rw [List.foldlM_cons, hencode]
      simp only [bind, Except.bind, RadiusData.append_of_le hfits]
      exact hfold
    · rw [hd', ← hbytes, List.append_assoc]

theorem RawMessage.ofBytes_eq (memory : RawMessage) {val : Bytes} (h : RadiusMinPacketSize ≤ val.length)
    (hmax : val.length ≤ RadiusMaxPacketSize) :
    ∃ data, RawMessage.ofBytes memory val h = .ok data ∧ data.code = val.getD 0 0 ∧
      data.length = Bytes.word16 (val.getD 2 0) (val.getD 3 0) ∧
      data.authenticator.1 = (val.drop 4).take RadiusAuthenticatorLength ∧
      data.header = val.take RadiusPacketHeaderSize ∧
      data.rest.1.take (val.length - RadiusPacketHeaderSize) = val.drop RadiusPacketHeaderSize := by
  obtain ⟨rest, hstore⟩ : ∃ rest, Octets.store memory.rest 0 (val.drop RadiusPacketHeaderSize) = some rest :=
    Octets.exists_store (by
      rw [List.length_drop, Nat.zero_add]
      exact Nat.sub_le_sub_right hmax _)
  obtain ⟨a, b, c, d, more, rfl⟩ : ∃ a b c d more, val = a :: b :: c :: d :: more :=
    match val, h with
    | a :: b :: c :: d :: more, _ => ⟨a, b, c, d, more, rfl⟩
  have hend := Octets.take_store_end hstore
  rw [List.take_zero, List.nil_append, Nat.zero_add, List.length_drop] at hend
  refine ⟨_, by rw [RawMessage.ofBytes, hstore]; rfl, rfl, rfl, rfl, ?_, hend⟩
  show a :: b :: Bytes.ofWord16 (Bytes.word16 c d) ++ _ = _
  rw [Bytes.ofWord16_word16]
  rfl

variable (md5 secret) in
theorem receive_eq (memory : RadiusMessage) (behind : UInt8) (rawMsg : RadiusData)
    (hmin : RadiusMinPacketSize ≤ rawMsg.bytes.length)
    (hlen : (Bytes.word16 (rawMsg.bytes.getD 2 0) (rawMsg.bytes.getD 3 0)).toNat = rawMsg.bytes.length) :
    ∃ data byte, data.bytes = rawMsg.bytes ∧ data.code = rawMsg.bytes.getD 0 0 ∧
      data.length.toNat = rawMsg.bytes.length ∧
      data.authenticator.1 = (rawMsg.bytes.drop 4).take RadiusAuthenticatorLength ∧
      RadiusMessage.receive md5 secret memory behind rawMsg = (do
        let attributes ← RadiusMessage.decodeAttributes md5 secret data.code data.authenticator.1 byte
          (rawMsg.bytes.drop RadiusPacketHeaderSize)
        RadiusMessage.verifyRequest md5 secret { memory with attributes, data }) := by
  obtain ⟨data, hok, hcode, hlength, hauth, hheader, hrest⟩ := RawMessage.ofBytes_eq memory.data hmin rawMsg.fits
  rw [← hlength] at hlen
  refine ⟨data, data.rest.1.getD (rawMsg.bytes.length - RadiusPacketHeaderSize) behind, ?_, hcode, hlen, hauth, ?_⟩
  · rw [RawMessage.bytes_eq (by rw [hlen]; exact hmin), hheader, hlen, hrest, List.take_append_drop]
  · rw [RadiusMessage.receive, dif_pos hmin, hok]
    simp only [bind, Except.bind, hlen, ne_eq, not_true_eq_false, if_false]

variable (md5 secret) in
theorem receive_of_ne (memory : RadiusMessage) (behind : UInt8) {rawMsg : RadiusData}
    (hmin : RadiusMinPacketSize ≤ rawMsg.bytes.length)
    (hlen : (Bytes.word16 (rawMsg.bytes.getD 2 0) (rawMsg.bytes.getD 3 0)).toNat ≠ rawMsg.bytes.length) :
    ∃ d, RadiusMessage.receive md5 secret memory behind rawMsg = .error (vRadiusException d) := by
  obtain ⟨data, hok, -, hlength, -⟩ := RawMessage.ofBytes_eq memory.data hmin rawMsg.fits
  rw [← hlength] at hlen
  refine ⟨"Packet size and length field don't match", ?_⟩
  rw [RadiusMessage.receive, dif_pos hmin, hok]
  simp only [bind, Except.bind, ne_eq, hlen.symm, not_false_eq_true, if_true]
  rfl

variable (md5 secret) in
theorem verifyRequest_accounting (m : RadiusMessage) (hcode : m.data.code = RP_ACCOUNTING_REQUEST)
    (hmin : RadiusPacketHeaderSize ≤ m.data.length.toNat) :
    (m.data.length.toNat + secret.length ≤ RadiusMaxPacketSize ∧ m.data.authenticator = m.accountingDigest md5 secret ∧
        ∃ m', m.verifyRequest md5 secret = .ok m' ∧ m'.attributes = m.attributes ∧ m'.data.code = m.data.code) ∨
      (m.data.length.toNat + secret.length ≤ RadiusMaxPacketSize ∧
        m.data.authenticator ≠ m.accountingDigest md5 secret ∧
        ∃ d, m.verifyRequest md5 secret = .error (vRadiusException d)) ∨
      (RadiusMaxPacketSize < m.data.length.toNat + secret.length ∧ m.verifyRequest md5 secret = .error assertion) := by
  rcases Nat.lt_or_ge RadiusMaxPacketSize (m.data.length.toNat + secret.length) with hlong | hfits
  · refine Or.inr (Or.inr ⟨hlong, ?_⟩)
    simp only [RadiusMessage.verifyRequest, RadiusMessage.verifyAccountingRequestAuthenticator, check, if_pos hcode,
      RadiusMessage.calcAccountingRequestAuthenticator_of_lt md5 secret m hlong, bind, Except.bind]
  · obtain ⟨rest, hok, -⟩ := RadiusMessage.calcAccountingRequestAuthenticator_of_le md5 secret m hmin hfits
    have hverify : m.verifyAccountingRequestAuthenticator md5 secret = .ok ({ m with
        requestAuthenticator := m.accountingDigest md5 secret
        data := m.digested (m.accountingDigest md5 secret) rest },
        m.data.authenticator = m.accountingDigest md5 secret) := by
      simp only [RadiusMessage.verifyAccountingRequestAuthenticator, check, if_pos hcode, hok, bind, Except.bind,
        pure, Except.pure]
      rfl
    by_cases hauth : m.data.authenticator = m.accountingDigest md5 secret
    · refine Or.inl ⟨hfits, hauth, { m with
        requestAuthenticator := m.accountingDigest md5 secret
        data := m.digested (m.accountingDigest md5 secret) rest }, ?_, rfl, rfl⟩
      simp only [RadiusMessage.verifyRequest, if_pos hcode, hverify, bind, Except.bind, hauth, decide_true, if_true]
      rfl
    · refine Or.inr (Or.inl ⟨hfits, hauth, "Accounting Request Authentication failed", ?_⟩)
      simp only [RadiusMessage.verifyRequest, if_pos hcode, hverify, bind, Except.bind, hauth, decide_false]
      rfl

variable (md5 secret) in
theorem verifyRequest_of_ne {m : RadiusMessage} (hcode : m.data.code ≠ RP_ACCOUNTING_REQUEST) :
    m.verifyRequest md5 secret = .ok m := by
  simp only [RadiusMessage.verifyRequest, if_neg hcode]
  rfl

theorem robust_of_decoded {rawMsg : RadiusData} {m : RadiusMessage} {received : List RadiusAttribute}
    (hall : Tlv.encodeAll (received.map RadiusAttribute.toTlv) = rawMsg.bytes.drop RadiusPacketHeaderSize)
    (hclear : List.Forall₂ (Clear md5 secret ((rawMsg.bytes.drop 4).take RadiusAuthenticatorLength)) received m.attributes) :
    Robust md5 secret rawMsg (.ok m) := by
  have hfits : ((RadiusData.ofBytes []).bytes ++ Tlv.encodeAll (received.map RadiusAttribute.toTlv)).length ≤
      RadiusMaxPacketSize := by
    rw [hall]
    have hle := rawMsg.fits
    simp only [RadiusData.ofBytes, List.take_nil, List.nil_append, List.length_drop]
    omega
  obtain ⟨d, hok, hd⟩ := encodeAttributes_eq hfits
  exact ⟨received, d, hok, by rw [hd, hall]; rfl, hclear⟩

end

/-- The received message is refused or taken as it came exactly if no vendor attribute behind attributes that are
taken has the vendor zero, and the secret has room behind a request for accounting. -/
theorem receive_robust_iff (md5 : Bytes → Octets RadiusAuthenticatorLength) {secret : Bytes} (hsecret : secret.length < 256)
    (memory : RadiusMessage) (behind : UInt8) (rawMsg : RadiusData) :
    Robust md5 secret rawMsg (RadiusMessage.receive md5 secret memory behind rawMsg) ↔
      (RadiusMinPacketSize ≤ rawMsg.bytes.length →
        (Bytes.word16 (rawMsg.bytes.getD 2 0) (rawMsg.bytes.getD 3 0)).toNat = rawMsg.bytes.length →
        ¬ ReachesZeroVendor (rawMsg.bytes.getD 0 0) (rawMsg.bytes.drop RadiusPacketHeaderSize) ∧
        ¬ (rawMsg.bytes.getD 0 0 = RP_ACCOUNTING_REQUEST ∧
          WellFormed RP_ACCOUNTING_REQUEST (rawMsg.bytes.drop RadiusPacketHeaderSize) ∧
          RadiusMaxPacketSize < rawMsg.bytes.length + secret.length)) := by
  by_cases hmin : RadiusMinPacketSize ≤ rawMsg.bytes.length
  · by_cases hlen : (Bytes.word16 (rawMsg.bytes.getD 2 0) (rawMsg.bytes.getD 3 0)).toNat = rawMsg.bytes.length
    · obtain ⟨data, byte, -, hcode, hlength, hauth, hreceive⟩ := receive_eq md5 secret memory behind rawMsg hmin hlen
      rw [hreceive, ← hcode, ← hlength]
      simp only [hlength, hmin, hlen, forall_const]
      rcases decodeAttributes_cases md5 data.authenticator.1 data.code hsecret byte
        (rawMsg.bytes.drop RadiusPacketHeaderSize) with
        ⟨hwell, hreach, received, attrs, hok, hall, hclear⟩ | ⟨-, hreach, herr⟩ | ⟨hwell, hreach, d, herr⟩
      · rw [hauth] at hclear
        rw [hok]
        simp only [bind, Except.bind]
        by_cases haccounting : data.code = RP_ACCOUNTING_REQUEST
        · rcases verifyRequest_accounting md5 secret { memory with attributes := attrs, data } haccounting
            (by rw [hlength]; exact hmin) with
            ⟨hfits, -, m', hverify, hattrs, -⟩ | ⟨hfits, -, d, hverify⟩ | ⟨hlong, hverify⟩
          · rw [hverify]
            exact iff_of_true (robust_of_decoded hall (hattrs ▸ hclear))
              ⟨hreach, fun h => absurd h.2.2 (Nat.not_lt.mpr (hlength ▸ hfits))⟩
          · rw [hverify]
            exact iff_of_true trivial ⟨hreach, fun h => absurd h.2.2 (Nat.not_lt.mpr (hlength ▸ hfits))⟩
          · rw [hverify]
            exact iff_of_false id fun h => h.2 ⟨haccounting, haccounting ▸ hwell, hlength ▸ hlong⟩
        · rw [verifyRequest_of_ne md5 secret haccounting]
          exact iff_of_true (robust_of_decoded hall hclear) ⟨hreach, fun h => haccounting h.1⟩
      · rw [herr]
        exact iff_of_false id fun h => h.1 hreach
      · rw [herr]
        exact iff_of_true trivial ⟨hreach, fun h => hwell (h.1 ▸ h.2.1)⟩
    · obtain ⟨d, herr⟩ := receive_of_ne md5 secret memory behind hmin hlen
      rw [herr]
      exact iff_of_true trivial fun _ h => absurd h hlen
  · rw [RadiusMessage.receive, dif_neg hmin]
    exact iff_of_true trivial fun h => absurd h hmin

/-- An Access-Request with a vendor attribute whose vendor is zero. -/
def zeroVendorRequest : RadiusData :=
  ⟨[1, 0, 0, 29] ++ List.replicate 16 0 ++ [26, 9, 0, 0, 0, 0, 1, 2, 3], by decide⟩

/-- The same with another vendor. -/
def vendorRequest : RadiusData :=
  ⟨[1, 0, 0, 29] ++ List.replicate 16 0 ++ [26, 9, 0, 0, 0, 9, 1, 2, 3], by decide⟩

/-- An object before its constructor. -/
def blank : RadiusMessage := ⟨.replicate _ 0, [], ⟨0, 0, 0, .replicate _ 0, .replicate _ 0⟩⟩

theorem receive_robust_vendorRequest :
    ([115] : Bytes).length < 256 ∧
      Robust (fun _ => .replicate _ 0) [115] vendorRequest
        (RadiusMessage.receive (fun _ => .replicate _ 0) [115] blank 0 vendorRequest) := by
  refine ⟨by decide, (receive_robust_iff (fun _ => .replicate _ 0) (by decide) blank 0 vendorRequest).mpr
    fun _ _ => ⟨?_, fun h => absurd h.1 (by decide)⟩⟩
  have hacc : Accepted 1 (26, [0, 0, 0, 9, 1, 2, 3]) :=
    ⟨by decide, fun _ => ⟨by decide, by decide⟩, fun h => absurd h.symm password_ne_vendor⟩
  show ¬ ReachesZeroVendor 1 (Tlv.encode (26, [0, 0, 0, 9, 1, 2, 3]) ++ [])
  rw [reachesZeroVendor_append_iff hacc (not_zeroVendor_of_accepted hacc)]
  rintro ⟨as, z, rest, -, -, heq⟩
  simp [Tlv.encode] at heq

/-- The vendor zero reaches the assertion of the attribute. -/
theorem not_receive_robust : ¬ ∀ (md5 : Bytes → Octets RadiusAuthenticatorLength) (secret : Bytes),
    secret.length < 256 → ∀ (memory : RadiusMessage) (behind : UInt8) (rawMsg : RadiusData),
      Robust md5 secret rawMsg (RadiusMessage.receive md5 secret memory behind rawMsg) := by
  intro h
  have hrobust := h (fun _ => .replicate _ 0) [115] (by decide) blank 0 zeroVendorRequest
  obtain ⟨data, byte, -, hcode, -, -, hreceive⟩ := receive_eq (fun _ => .replicate _ 0) [115] blank 0
    zeroVendorRequest (by decide) (by decide)
  rcases decodeAttributes_cases (fun _ => .replicate _ 0) data.authenticator.1 data.code
    (show ([115] : Bytes).length < 256 by decide)
    byte (zeroVendorRequest.bytes.drop RadiusPacketHeaderSize) with ⟨-, hnot, -⟩ | ⟨-, -, herr⟩ | ⟨-, hnot, -⟩
  · exact hnot ⟨[], (26, [0, 0, 0, 0, 1, 2, 3]), [], by simp, ⟨by decide, rfl, by decide, rfl⟩, rfl⟩
  · rw [hreceive, herr] at hrobust
    exact hrobust
  · exact hnot ⟨[], (26, [0, 0, 0, 0, 1, 2, 3]), [], by simp, ⟨by decide, rfl, by decide, rfl⟩, rfl⟩

end Vocal.Radius
