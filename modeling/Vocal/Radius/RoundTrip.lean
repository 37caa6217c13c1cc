import Mathlib.Algebra.Order.BigOperators.Group.List
import Mathlib.Algebra.Order.Ring.Nat
import Vocal.Radius.Receive
import Vocal.Radius.Send

/-!
# Requests from one end to the other

What a caller puts into a request is what the receiver with the same secret finds in it, where a password is in a
request for access, and both it and the address of the sender leave room for the arrays in which they are worked
on.
-/

namespace Vocal.Radius

open Failure RadiusMessage

/-! ## What is sent -/

/-- What a caller gives to the constructor of an attribute. -/
structure Given where
  type : UInt8
  value : RadiusData
  vendorId : UInt32
  deriving DecidableEq

namespace Given

/-- The value, where a password has zeros up to a multiple of sixteen. -/
def padded (g : Given) : Bytes :=
  if g.type = RA_USER_PASSWORD ∧ g.value.bytes.length % 16 ≠ 0 then RadiusAttribute.expanded g.value.bytes
  else g.value.bytes

/-- The bytes of the attribute. -/
def length (g : Given) : Nat := g.padded.length + 2 + if g.type = RA_VENDOR_SPECIFIC then 4 else 0

/-- What the receiver should find. -/
def view (g : Given) : UInt8 × Bytes × UInt32 := (g.type, g.padded, g.vendorId)

end Given

/-- What the receiver finds. -/
def RadiusAttribute.view (a : RadiusAttribute) : UInt8 × Bytes × UInt32 := (a.type, a.value.bytes, a.vendorId)

/-- A request with these attributes is made, given its authenticator, sent and received. -/
def transmit (md5 : Bytes → Octets RadiusAuthenticatorLength) (secret : Bytes) (time : Octets 4)
    (memory memory' : RadiusMessage) (behind code id : UInt8) (gs : List Given) :
    Except Failure (Option RadiusMessage) := do
  let as ← gs.mapM fun g => RadiusAttribute.make g.type g.value g.vendorId
  let m ← RadiusMessage.request memory code
  match ← (m.setIdentifier id).addAll as with
  | none => return none
  | some m =>
    let m ← m.calcAuthenticator md5 secret time
    let m' ← RadiusMessage.receive md5 secret memory' behind (.ofBytes m.data.bytes)
    return some m'

/-- A request that can be made: its values can be counted, it has at most one password, and it has room for the
secret. -/
structure Sendable (secret : Bytes) (code : UInt8) (gs : List Given) : Prop where
  code_mem : code = RP_ACCESS_REQUEST ∨ code = RP_ACCOUNTING_REQUEST
  vendor_iff : ∀ g ∈ gs, (g.type = RA_VENDOR_SPECIFIC ↔ g.vendorId ≠ 0)
  value_le : ∀ g ∈ gs, g.type ≠ RA_VENDOR_SPECIFIC → g.value.bytes.length ≤ 253
  vendor_value : ∀ g ∈ gs, g.type = RA_VENDOR_SPECIFIC → 3 ≤ g.value.bytes.length ∧ g.value.bytes.length ≤ 249
  onePassword : gs.countP (·.type = RA_USER_PASSWORD) ≤ 1
  total_le : RadiusPacketHeaderSize + (gs.map Given.length).sum + secret.length ≤ RadiusMaxPacketSize

/-- Passwords and addresses that the two ends can work on. -/
structure Workable (secret : Bytes) (code : UInt8) (gs : List Given) : Prop where
  password_code : ∀ g ∈ gs, g.type = RA_USER_PASSWORD → code = RP_ACCESS_REQUEST ∧ secret.length < 256
  password_le : ∀ g ∈ gs, g.type = RA_USER_PASSWORD → g.value.bytes.length ≤ 240
  address_le : code = RP_ACCESS_REQUEST → ∀ g, gs.find? (·.type = RA_NAS_IP_ADDRESS) = some g → g.value.bytes.length ≤ 251

/-! ## Attributes that are made -/

theorem make_padded {g : Given} (hvendor : g.type = RA_VENDOR_SPECIFIC ↔ g.vendorId ≠ 0)
    (hpassword : g.type = RA_USER_PASSWORD → g.value.bytes.length ≤ 240) :
    ∃ a, RadiusAttribute.make g.type g.value g.vendorId = .ok a ∧ a.view = g.view := by
  rw [RadiusAttribute.make, dif_pos hvendor]
  by_cases hmod : g.type = RA_USER_PASSWORD ∧ g.value.bytes.length % 16 ≠ 0
  · have hle := hpassword hmod.1
    have hfits : (RadiusAttribute.expanded g.value.bytes).length ≤ RadiusMaxAttributeLength := by
      rw [RadiusAttribute.length_expanded]
      show _ ≤ 255
      omega
    rw [dif_pos hmod, dif_pos hfits]
    refine ⟨_, rfl, ?_⟩
    rw [RadiusAttribute.view, Given.view, Given.padded, if_pos hmod]
  · rw [dif_neg hmod]
    refine ⟨_, rfl, ?_⟩
    rw [RadiusAttribute.view, Given.view, Given.padded, if_neg hmod]

theorem mapM_make {gs : List Given} (hvendor : ∀ g ∈ gs, (g.type = RA_VENDOR_SPECIFIC ↔ g.vendorId ≠ 0))
    (hpassword : ∀ g ∈ gs, g.type = RA_USER_PASSWORD → g.value.bytes.length ≤ 240) :
    ∃ as, gs.mapM (fun g => RadiusAttribute.make g.type g.value g.vendorId) = .ok as ∧
      as.map RadiusAttribute.view = gs.map Given.view := by
  induction gs with
  | nil => exact ⟨[], rfl, rfl⟩
  | cons g gs ih =>
    obtain ⟨a, hmake, hview⟩ := make_padded (hvendor g (by simp)) (hpassword g (by simp))
    obtain ⟨as, hmap, hviews⟩ := ih (fun g' hg => hvendor g' (by simp [hg])) fun g' hg => hpassword g' (by simp [hg])
    refine ⟨a :: as, ?_, by rw [List.map_cons, List.map_cons, hview, hviews]⟩
    rw [List.mapM_cons, hmake]
    simp only [bind, Except.bind, hmap, pure, Except.pure]

/-! ## Attributes that are received -/

theorem decodeAttribute_toTlv (md5 : Bytes → Octets RadiusAuthenticatorLength) (secret authenticator : Bytes)
    (code : UInt8) {a : RadiusAttribute} (hpassword : a.type ≠ RA_USER_PASSWORD)
    (hvendor : a.type = RA_VENDOR_SPECIFIC → 3 ≤ a.value.bytes.length) :
    decodeAttribute md5 secret code authenticator a.type a.toTlv.2 = .ok a := by
  have hdata : RadiusData.ofBytes a.value.bytes = a.value := by
    rw [RadiusData.ofBytes, RadiusData.mk.injEq]
    exact List.take_of_length_le a.value.fits
  unfold decodeAttribute
  by_cases htype : a.type = RA_VENDOR_SPECIFIC
  · obtain ⟨x, y, z, more, hvalue⟩ : ∃ x y z more, a.value.bytes = x :: y :: z :: more := by
      have hlen := hvendor htype
      rcases hbytes : a.value.bytes with _ | ⟨x, _ | ⟨y, _ | ⟨z, more⟩⟩⟩
      · simp [hbytes] at hlen
      · simp [hbytes] at hlen
      · simp [hbytes] at hlen
      · exact ⟨x, y, z, more, rfl⟩
    rw [if_pos htype, RadiusAttribute.toTlv_of_vendor htype, hvalue]
    simp only [Bytes.ofWord32, List.cons_append, List.nil_append, Bytes.word32_ofWord32]
    rw [← hvalue, hdata]
    exact make_of_ne _ _ _ a.vendor_iff a.password_mod
  · have hzero : a.vendorId = 0 := not_not.mp fun hne => htype (a.vendor_iff.mpr hne)
    rw [if_neg htype, if_neg hpassword, RadiusAttribute.toTlv_of_ne htype, hdata, ← hzero]
    exact make_of_ne _ _ _ a.vendor_iff a.password_mod

/-- A hidden password is decoded as it was. -/
theorem decodeAttribute_hidden {md5 : Bytes → Octets RadiusAuthenticatorLength} {secret authenticator hidden : Bytes}
    {a : RadiusAttribute} (hpassword : a.type = RA_USER_PASSWORD)
    (hlen : hidden.length = a.value.bytes.length)
    (hdecode : decodeUserPassword md5 secret authenticator hidden = .ok a.value.bytes) :
    decodeAttribute md5 secret RP_ACCESS_REQUEST authenticator a.type hidden = .ok a := by
  have hdata : RadiusData.ofBytes a.value.bytes = a.value := by
    rw [RadiusData.ofBytes, RadiusData.mk.injEq]
    exact List.take_of_length_le a.value.fits
  have hvendor : a.type ≠ RA_VENDOR_SPECIFIC := by
    rw [hpassword]
    exact password_ne_vendor
  have hzero : a.vendorId = 0 := not_not.mp fun hne => hvendor (a.vendor_iff.mpr hne)
  unfold decodeAttribute
  rw [if_neg hvendor, if_pos hpassword, if_neg (by simp), if_neg (by rw [hlen]; simpa using a.password_mod hpassword),
    hdecode]
  simp only [bind, Except.bind, hdata]
  rw [← hzero]
  exact make_of_ne _ _ _ a.vendor_iff a.password_mod

theorem decodeAttributes_encodeAll {md5 : Bytes → Octets RadiusAuthenticatorLength} {secret authenticator : Bytes}
    {code behind : UInt8} {as : List RadiusAttribute} {f : RadiusAttribute → Tlv.Attribute}
    (h : ∀ a ∈ as, (f a).2.length ≤ Tlv.maxValue ∧ decodeAttribute md5 secret code authenticator (f a).1 (f a).2 = .ok a) :
    decodeAttributes md5 secret code authenticator behind (Tlv.encodeAll (as.map f)) = .ok as := by
  induction as with
  | nil => rw [List.map_nil, Tlv.encodeAll_nil, decodeAttributes]
  | cons a as ih =>
    obtain ⟨hlen, hok⟩ := h a (by simp)
    have hlength := Tlv.toNat_length hlen
    have hrest := ih fun b hb => h b (by simp [hb])
    rw [List.map_cons, Tlv.encodeAll_cons]
    simp only [Tlv.encode, List.cons_append]
    rw [decodeAttributes]
    simp only [List.headD_cons, List.tail_cons, hlength]
    rw [if_neg (by simp), Nat.add_sub_cancel, List.take_left, List.drop_left, hok]
    simp only [bind, Except.bind, hrest, pure, Except.pure]

/-! ## Requests that are sent -/

section

variable {md5 : Bytes → Octets RadiusAuthenticatorLength} {secret : Bytes} {time : Octets 4} {code : UInt8}
  {as : List RadiusAttribute} {m : RadiusMessage}

/-- What can be sent, of the attributes as they were made. -/
structure Ready (secret : Bytes) (code : UInt8) (as : List RadiusAttribute) : Prop where
  code_mem : code = RP_ACCESS_REQUEST ∨ code = RP_ACCOUNTING_REQUEST
  value_le : ∀ a ∈ as, a.toTlv.2.length ≤ Tlv.maxValue
  vendor_value : ∀ a ∈ as, a.type = RA_VENDOR_SPECIFIC → 3 ≤ a.value.bytes.length
  onePassword : as.countP (·.type = RA_USER_PASSWORD) ≤ 1
  total_le : RadiusPacketHeaderSize + (encoded as).length + secret.length ≤ RadiusMaxPacketSize
  password_code : ∀ a ∈ as, a.type = RA_USER_PASSWORD → code = RP_ACCESS_REQUEST ∧ secret.length < 256
  address_le : code = RP_ACCESS_REQUEST → ∀ a, as.find? (·.type = RA_NAS_IP_ADDRESS) = some a → a.value.bytes.length ≤ 251

/-- A message whose bytes are those of the attributes, with the password hidden, and whose authenticator is right. -/
structure Sealed (md5 : Bytes → Octets RadiusAuthenticatorLength) (secret : Bytes) (as : List RadiusAttribute)
    (hidden : Bytes) (m : RadiusMessage) : Prop where
  length_eq : m.data.length.toNat = RadiusPacketHeaderSize + (encoded as).length
  take_eq : m.data.rest.1.take (encoded as).length = Tlv.encodeAll (as.map (hiddenTlv hidden))
  length_hidden : ∀ a ∈ as, a.type = RA_USER_PASSWORD → hidden.length = a.value.bytes.length
  hidden_eq : ∀ a ∈ as, a.type = RA_USER_PASSWORD →
    decodeUserPassword md5 secret m.data.authenticator.1 hidden = .ok a.value.bytes
  authenticator_eq : m.data.code = RP_ACCOUNTING_REQUEST → m.data.authenticator = m.accountingDigest md5 secret

theorem eq_of_countP_le_one {p : RadiusAttribute → Bool} (h : as.countP p ≤ 1) {a b : RadiusAttribute} (ha : a ∈ as)
    (hpa : p a = true) (hb : b ∈ as) (hpb : p b = true) : a = b := by
  rw [List.countP_eq_length_filter] at h
  have ha' : a ∈ as.filter p := List.mem_filter.mpr ⟨ha, hpa⟩
  have hb' : b ∈ as.filter p := List.mem_filter.mpr ⟨hb, hpb⟩
  generalize as.filter p = l at h ha' hb'
  match l, h with
  | [c], _ => rw [List.mem_singleton.mp ha', List.mem_singleton.mp hb']

theorem encodeUserPassword_eq (md5 : Bytes → Octets RadiusAuthenticatorLength) (authenticator : Bytes)
    (hsecret : secret.length < 256) {p : Bytes} (hmod : p.length % 16 = 0) (hlen : p.length ≤ 256) :
    ∃ hidden, encodeUserPassword md5 secret authenticator p = .ok hidden ∧ hidden.length = p.length ∧
      decodeUserPassword md5 secret authenticator hidden = .ok p := by
  have hlength : (encodeBlocks md5 secret authenticator p (p.length / 16)).length = p.length := by
    rw [length_encodeBlocks (by omega)]
    omega
  refine ⟨encodeBlocks md5 secret authenticator p (p.length / 16), ?_, hlength, ?_⟩
  · simp only [encodeUserPassword, convertPassword, check, if_pos hsecret, if_pos hmod, if_pos hlen]
    rfl
  · rw [decodeUserPassword_eq hsecret (by rw [hlength]; exact hmod) (by rw [hlength]; exact hlen), hlength,
      decodeBlocks_encodeBlocks (by omega) (Nat.le_refl _), List.take_of_length_le (by omega)]

theorem hideUserPassword_sealed (hready : Ready secret RP_ACCESS_REQUEST m.attributes)
    (hlength : m.data.length.toNat = RadiusPacketHeaderSize + (encoded m.attributes).length)
    (htake : m.data.rest.1.take (encoded m.attributes).length = encoded m.attributes)
    (hcode : m.data.code = RP_ACCESS_REQUEST) :
    ∃ m' hidden, m.hideUserPassword md5 secret = .ok m' ∧ Sealed md5 secret m.attributes hidden m' ∧
      m'.data.code = RP_ACCESS_REQUEST := by
  have hnot : RP_ACCESS_REQUEST ≠ RP_ACCOUNTING_REQUEST := by decide
  simp only [hideUserPassword, check, if_pos hcode, RadiusMessage.get]
  cases hget : m.attributes.find? (·.type = RA_USER_PASSWORD) with
  | none =>
    have hnone : ∀ a ∈ m.attributes, a.type ≠ RA_USER_PASSWORD := by simpa using List.find?_eq_none.mp hget
    refine ⟨m, [], rfl, ⟨hlength, ?_, fun a ha h => absurd h (hnone a ha), fun a ha h => absurd h (hnone a ha),
      fun h => absurd (hcode.symm.trans h) hnot⟩, hcode⟩
    rw [htake, map_hiddenTlv hnone]
    rfl
  | some a =>
    have ha := List.mem_of_find?_eq_some hget
    have htype : a.type = RA_USER_PASSWORD := by simpa using List.find?_some hget
    have honly : ∀ b ∈ m.attributes, b.type = RA_USER_PASSWORD → b = a := fun b hb hbtype =>
      eq_of_countP_le_one hready.onePassword hb (by simpa using hbtype) ha (by simpa using htype)
    have hle := hready.value_le a ha
    rw [RadiusAttribute.toTlv_of_ne (by rw [htype]; exact password_ne_vendor)] at hle
    obtain ⟨hidden, hencode, hhidden, hdecode⟩ := encodeUserPassword_eq md5 m.data.authenticator.1
      (hready.password_code a ha htype).2 (a.password_mod htype) (Nat.le_trans hle (by decide))
    obtain ⟨rest, hreplace, hrest⟩ := replacePassword_eq (x := []) (d := m.data) hready.onePassword
      (fun b hb hbtype => by rw [honly b hb hbtype, hhidden]) (by simpa using htake)
    refine ⟨{ m with data := { m.data with rest } }, hidden, ?_, ⟨hlength, by simpa using hrest, fun b hb hbtype => ?_,
      fun b hb hbtype => ?_, fun h => absurd (hcode.symm.trans h) hnot⟩, hcode⟩
    · simp only [bind, Except.bind, hencode]
      rw [show RadiusPacketHeaderSize = RadiusPacketHeaderSize + ([] : Bytes).length from rfl, hreplace]
      rfl
    · rw [honly b hb hbtype, hhidden]
    · rw [honly b hb hbtype]
      exact hdecode

theorem calcAccessRequestAuthenticator_eq (md5 : Bytes → Octets RadiusAuthenticatorLength) (time : Octets 4)
    (haddress : ∀ a, m.attributes.find? (·.type = RA_NAS_IP_ADDRESS) = some a → a.value.bytes.length ≤ 251) :
    ∃ requestAuthenticator authenticator, m.calcAccessRequestAuthenticator md5 time =
      .ok { m with requestAuthenticator, data := { m.data with authenticator } } := by
  rw [calcAccessRequestAuthenticator, RadiusMessage.get]
  cases hget : m.attributes.find? (·.type = RA_NAS_IP_ADDRESS) with
  | none => exact ⟨m.requestAuthenticator, m.data.authenticator, rfl⟩
  | some a =>
    have hle := haddress a hget
    have htime : time.1.length = 4 := time.2
    dsimp only
    rw [if_pos (by simp only [List.length_append, htime, List.length_singleton]; omega)]
    exact ⟨_, _, rfl⟩

theorem calcAccountingRequestAuthenticator_sealed (md5 : Bytes → Octets RadiusAuthenticatorLength)
    (hready : Ready secret RP_ACCOUNTING_REQUEST m.attributes)
    (hm : m.Consistent) :
    ∃ m', m.calcAccountingRequestAuthenticator md5 secret = .ok m' ∧ Sealed md5 secret m.attributes [] m' ∧
      m'.data.code = m.data.code := by
  have hnone : ∀ a ∈ m.attributes, a.type ≠ RA_USER_PASSWORD := fun a ha htype =>
    absurd (hready.password_code a ha htype).1 (by decide)
  have hlength := hm.length_eq
  have htotal := hready.total_le
  obtain ⟨rest, hok, hrest⟩ := calcAccountingRequestAuthenticator_of_le md5 secret m hm.le_length (by omega)
  refine ⟨_, hok, ⟨hlength, ?_, fun a ha h => absurd h (hnone a ha), fun a ha h => absurd h (hnone a ha), fun _ => ?_⟩, rfl⟩
  · rw [hlength, Nat.add_sub_cancel_left] at hrest
    rw [map_hiddenTlv hnone]
    exact hrest.trans hm.take_eq
  · exact (accountingDigest_of_digested md5 secret hm.le_length hrest rfl).symm

theorem calcAuthenticator_accounting (md5 : Bytes → Octets RadiusAuthenticatorLength) (secret : Bytes) (time : Octets 4)
    (hcode : m.data.code = RP_ACCOUNTING_REQUEST) :
    m.calcAuthenticator md5 secret time = m.calcAccountingRequestAuthenticator md5 secret := by
  rw [calcAuthenticator, hcode, if_neg (by decide), if_neg (by decide), if_pos rfl]

theorem calcAuthenticator_sealed (md5 : Bytes → Octets RadiusAuthenticatorLength) (time : Octets 4)
    (hready : Ready secret m.data.code m.attributes) (hm : m.Consistent) :
    ∃ m' hidden, m.calcAuthenticator md5 secret time = .ok m' ∧ Sealed md5 secret m.attributes hidden m' ∧
      m'.data.code = m.data.code := by
  rcases hready.code_mem with haccess | haccounting
  · obtain ⟨requestAuthenticator, authenticator, hcalc⟩ :=
      calcAccessRequestAuthenticator_eq md5 time (hready.address_le haccess)
    rw [calcAuthenticator, if_pos haccess, hcalc, haccess]
    exact hideUserPassword_sealed (m := { m with requestAuthenticator, data := { m.data with authenticator } })
      (haccess ▸ hready) hm.length_eq hm.take_eq haccess
  · obtain ⟨m', hcalc, hsealed, hcode⟩ :=
      calcAccountingRequestAuthenticator_sealed md5 (haccounting ▸ hready) hm
    exact ⟨m', [], (calcAuthenticator_accounting md5 secret time haccounting).trans hcalc, hsealed, hcode⟩

theorem decodeAttributes_sealed (hready : Ready secret m.data.code as) {hidden : Bytes}
    (hsealed : Sealed md5 secret as hidden m) (behind : UInt8) :
    decodeAttributes md5 secret m.data.code m.data.authenticator.1 behind (Tlv.encodeAll (as.map (hiddenTlv hidden))) =
      .ok as := by
  refine decodeAttributes_encodeAll fun a ha => ?_
  have hle := hready.value_le a ha
  by_cases hpassword : a.type = RA_USER_PASSWORD
  · have hvendor : a.type ≠ RA_VENDOR_SPECIFIC := by
      rw [hpassword]
      exact password_ne_vendor
    have hlen := hsealed.length_hidden a ha hpassword
    rw [RadiusAttribute.toTlv_of_ne hvendor] at hle
    rw [hiddenTlv, if_pos hpassword, (hready.password_code a ha hpassword).1]
    refine ⟨by rw [hlen]; exact hle, ?_⟩
    have hdecode := decodeAttribute_hidden hpassword hlen (hsealed.hidden_eq a ha hpassword)
    rwa [hpassword] at hdecode
  · rw [hiddenTlv, if_neg hpassword]
    exact ⟨hle, decodeAttribute_toTlv md5 secret _ _ hpassword (hready.vendor_value a ha)⟩

theorem receive_bytes (md5 : Bytes → Octets RadiusAuthenticatorLength) (secret : Bytes) (memory : RadiusMessage)
    (behind : UInt8) {d : RawMessage} (hmin : RadiusPacketHeaderSize ≤ d.length.toNat)
    (hmax : d.length.toNat ≤ RadiusMaxPacketSize) :
    ∃ data byte, data.bytes = d.bytes ∧ data.code = d.code ∧ data.length.toNat = d.length.toNat ∧
      data.authenticator = d.authenticator ∧
      receive md5 secret memory behind (.ofBytes d.bytes) = (do
        let attributes ← decodeAttributes md5 secret d.code d.authenticator.1 byte (d.bytes.drop RadiusPacketHeaderSize)
        verifyRequest md5 secret { memory with attributes, data }) := by
  have hlen := RawMessage.length_bytes hmin hmax
  have hsent : (RadiusData.ofBytes d.bytes).bytes = d.bytes := ofBytes_of_le (by rw [hlen]; exact hmax)
  have hfirst : d.bytes.getD 0 0 = d.code := by
    rw [RawMessage.bytes_eq hmin]
    rfl
  have hword : Bytes.word16 (d.bytes.getD 2 0) (d.bytes.getD 3 0) = d.length := by
    rw [RawMessage.bytes_eq hmin]
    exact Bytes.word16_ofWord16 d.length
  obtain ⟨data, byte, hbytes, hcode, hlength, hauth, hreceive⟩ := receive_eq md5 secret memory behind
    (.ofBytes d.bytes) (by rw [hsent, hlen]; exact hmin) (by rw [hsent, hword, hlen])
  rw [hsent] at hbytes hcode hlength hauth hreceive
  have hauth' : data.authenticator = d.authenticator :=
    Subtype.ext (hauth.trans (RawMessage.take_bytes_authenticator hmin))
  refine ⟨data, byte, hbytes, hcode.trans hfirst, hlength.trans hlen, hauth', ?_⟩
  rw [hreceive, hcode, hfirst, hauth']

/-- What was sent is received. -/
theorem receive_sealed (hready : Ready secret m.data.code as) {hidden : Bytes} (hsealed : Sealed md5 secret as hidden m)
    (memory : RadiusMessage) (behind : UInt8) :
    ∃ m', receive md5 secret memory behind (.ofBytes m.data.bytes) = .ok m' ∧ m'.attributes = as := by
  have htotal := hready.total_le
  have hlength := hsealed.length_eq
  have hmin : RadiusPacketHeaderSize ≤ m.data.length.toNat := by omega
  have hdrop : m.data.bytes.drop RadiusPacketHeaderSize = Tlv.encodeAll (as.map (hiddenTlv hidden)) := by
    rw [RawMessage.bytes_eq hmin, List.drop_left' m.data.length_header, hlength, Nat.add_sub_cancel_left,
      hsealed.take_eq]
  obtain ⟨data, byte, hbytes, hcode, hlength', hauth, hreceive⟩ := receive_bytes md5 secret memory behind hmin (by omega)
  have hmin' : RadiusPacketHeaderSize ≤ data.length.toNat := by
    rw [hlength']
    exact hmin
  rw [hreceive, hdrop, decodeAttributes_sealed hready hsealed byte]
  simp only [bind, Except.bind]
  by_cases haccounting : m.data.code = RP_ACCOUNTING_REQUEST
  · have hdigest : data.authenticator = accountingDigest md5 secret { memory with attributes := as, data } := by
      rw [accountingDigest_of_bytes md5 secret hmin hmin' hbytes, ← hsealed.authenticator_eq haccounting, hauth]
    rcases verifyRequest_accounting md5 secret { memory with attributes := as, data } (hcode.trans haccounting) hmin' with
      ⟨-, -, m', hok, hattrs, -⟩ | ⟨-, hne, -⟩ | ⟨hlong, -⟩
    · exact ⟨m', hok, hattrs⟩
    · exact absurd hdigest hne
    · dsimp only at hlong
      omega
  · exact ⟨_, verifyRequest_of_ne md5 secret (by rw [hcode]; exact haccounting), rfl⟩

/-! ## The round trip -/

variable {gs : List Given}

/-- The number of bytes of an attribute. -/
def viewLength (v : UInt8 × Bytes × UInt32) : Nat := v.2.1.length + 2 + if v.1 = RA_VENDOR_SPECIFIC then 4 else 0

theorem RadiusAttribute.length_eq_viewLength (a : RadiusAttribute) : a.length = viewLength a.view := by
  rw [RadiusAttribute.length, viewLength, RadiusAttribute.view]
  by_cases htype : a.type = RA_VENDOR_SPECIFIC
  · rw [if_neg (a.vendor_iff.mp htype), if_pos htype]
  · rw [if_pos (not_not.mp fun hne => htype (a.vendor_iff.mpr hne)), if_neg htype]

theorem length_encoded (as : List RadiusAttribute) :
    (encoded as).length = ((as.map RadiusAttribute.view).map viewLength).sum := by
  induction as with
  | nil => rfl
  | cons a as ih =>
    rw [encoded_cons, List.length_append, ← a.length_eq, a.length_eq_viewLength, ih, List.map_cons, List.map_cons,
      List.sum_cons]

theorem length_padded_le {g : Given} (h : g.value.bytes.length ≤ 240) : g.padded.length ≤ 240 := by
  rw [Given.padded]
  split_ifs with hmod
  · rw [RadiusAttribute.length_expanded]
    omega
  · exact h

theorem padded_of_ne {g : Given} (h : g.type ≠ RA_USER_PASSWORD) : g.padded = g.value.bytes :=
  if_neg fun hand => h hand.1

theorem ready_of_view (hsendable : Sendable secret code gs) (hworkable : Workable secret code gs)
    (hview : as.map RadiusAttribute.view = gs.map Given.view) : Ready secret code as := by
  have hgiven : ∀ a ∈ as, ∃ g ∈ gs, g.type = a.type ∧ g.padded = a.value.bytes := by
    intro a ha
    have hmem : a.view ∈ gs.map Given.view := hview ▸ List.mem_map_of_mem ha
    obtain ⟨g, hg, heq⟩ := List.mem_map.mp hmem
    exact ⟨g, hg, congrArg Prod.fst heq, congrArg (fun v => v.2.1) heq⟩
  refine ⟨hsendable.code_mem, fun a ha => ?_, fun a ha htype => ?_, ?_, ?_, fun a ha htype => ?_, fun haccess a hfind => ?_⟩
  · obtain ⟨g, hg, htype, hpadded⟩ := hgiven a ha
    by_cases hvendor : a.type = RA_VENDOR_SPECIFIC
    · have hle := (hsendable.vendor_value g hg (htype.trans hvendor)).2
      rw [padded_of_ne (by rw [htype, hvendor]; exact password_ne_vendor.symm)] at hpadded
      rw [RadiusAttribute.toTlv_of_vendor hvendor, List.length_append, Bytes.length_ofWord32, ← hpadded]
      show _ ≤ 253
      omega
    · rw [RadiusAttribute.toTlv_of_ne hvendor, ← hpadded]
      by_cases hpassword : g.type = RA_USER_PASSWORD
      · exact Nat.le_trans (length_padded_le (hworkable.password_le g hg hpassword)) (by decide)
      · rw [padded_of_ne hpassword]
        exact hsendable.value_le g hg (htype ▸ hvendor)
  · obtain ⟨g, hg, htype', hpadded⟩ := hgiven a ha
    rw [← hpadded, padded_of_ne (by rw [htype', htype]; exact password_ne_vendor.symm)]
    exact (hsendable.vendor_value g hg (htype'.trans htype)).1
  · have hcount := congrArg (List.countP fun v => decide (v.1 = RA_USER_PASSWORD)) hview
    rw [List.countP_map, List.countP_map] at hcount
    exact Nat.le_trans (Nat.le_of_eq hcount) hsendable.onePassword
  · rw [length_encoded, hview, List.map_map]
    exact hsendable.total_le
  · obtain ⟨g, hg, htype', -⟩ := hgiven a ha
    exact hworkable.password_code g hg (htype'.trans htype)
  · have hfinds := congrArg (List.find? fun v => decide (v.1 = RA_NAS_IP_ADDRESS)) hview
    rw [List.find?_map, List.find?_map] at hfinds
    have hfind' : as.find? ((fun v => decide (v.1 = RA_NAS_IP_ADDRESS)) ∘ RadiusAttribute.view) = some a := hfind
    rw [hfind', Option.map_some, eq_comm, Option.map_eq_some_iff] at hfinds
    obtain ⟨g, hg, heq⟩ := hfinds
    have hpred := List.find?_some hg
    have htype : g.type = RA_NAS_IP_ADDRESS := of_decide_eq_true hpred
    have hpadded : g.padded = a.value.bytes := congrArg (fun v => v.2.1) heq
    rw [← hpadded, padded_of_ne (by rw [htype]; decide)]
    exact hworkable.address_le haccess g hg

end

/-- What is put into a request is what the receiver with the same secret finds in it, with the password in clear
again. -/
theorem transmit_eq (md5 : Bytes → Octets RadiusAuthenticatorLength) {secret : Bytes} (time : Octets 4)
    (memory memory' : RadiusMessage) (behind : UInt8) {code : UInt8} (id : UInt8) {gs : List Given}
    (hsendable : Sendable secret code gs) (hworkable : Workable secret code gs) :
    ∃ m, transmit md5 secret time memory memory' behind code id gs = .ok (some m) ∧
      m.attributes.map RadiusAttribute.view = gs.map Given.view := by
  obtain ⟨as, hmake, hview⟩ := mapM_make hsendable.vendor_iff hworkable.password_le
  have hready := ready_of_view hsendable hworkable hview
  have hrequest : RadiusMessage.request memory code = .ok (ofHeader memory code 0 (.replicate _ 0)) := by
    simp only [RadiusMessage.request, check, if_pos hsendable.code_mem.symm]
    rfl
  have htotal := hready.total_le
  obtain ⟨data, hadd, hcons, hcode, -, -⟩ := addAll_of_le as
    (show Consistent ((ofHeader memory code 0 (.replicate _ 0)).setIdentifier id) from ⟨rfl, rfl⟩)
    (by show RadiusPacketHeaderSize + _ ≤ _; omega)
  have hready' : Ready secret data.code as := by
    rw [hcode]
    exact hready
  obtain ⟨m, hidden, hcalc, hsealed, hcode'⟩ := calcAuthenticator_sealed md5 time
    (m := { requestAuthenticator := .replicate _ 0, attributes := as, data }) hready' hcons
  obtain ⟨m', hreceive, hattrs⟩ := receive_sealed (m := m) (by rw [hcode']; exact hready') hsealed memory' behind
  refine ⟨m', ?_, by rw [hattrs, hview]⟩
  have hadd' : ((ofHeader memory code 0 (.replicate _ 0)).setIdentifier id).addAll as =
      .ok (some { requestAuthenticator := .replicate _ 0, attributes := as, data }) := hadd
  simp only [transmit, hmake, hrequest, bind, Except.bind, hadd', hcalc, hreceive, pure, Except.pure]

/-- A name, a password and an address. -/
def sampleAttributes : List Given :=
  [⟨1, ⟨[98, 111, 98], by decide⟩, 0⟩, ⟨RA_USER_PASSWORD, ⟨[97], by decide⟩, 0⟩,
    ⟨RA_NAS_IP_ADDRESS, ⟨[127, 0, 0, 1], by decide⟩, 0⟩]

theorem transmit_sampleAttributes :
    (Sendable [115] RP_ACCESS_REQUEST sampleAttributes ∧ Workable [115] RP_ACCESS_REQUEST sampleAttributes) ∧
      ∃ m, transmit (fun _ => .replicate _ 7) [115] (.replicate _ 0) blank blank 0 RP_ACCESS_REQUEST 1 sampleAttributes =
          .ok (some m) ∧
        m.attributes.map RadiusAttribute.view = sampleAttributes.map Given.view := by
  have hsendable : Sendable [115] RP_ACCESS_REQUEST sampleAttributes :=
    ⟨Or.inl rfl, by decide, by decide, by decide, by decide, by decide⟩
  have hworkable : Workable [115] RP_ACCESS_REQUEST sampleAttributes := by
    refine ⟨by decide, by decide, fun _ g hg => ?_⟩
    obtain rfl : _ = g := Option.some.inj hg
    decide
  exact ⟨⟨hsendable, hworkable⟩, transmit_eq _ _ _ _ _ _ hsendable hworkable⟩

/-- A request for accounting with a password is refused. -/
theorem not_transmit : ¬ ∀ (md5 : Bytes → Octets RadiusAuthenticatorLength) (secret : Bytes) (time : Octets 4)
    (memory memory' : RadiusMessage) (behind code id : UInt8) (gs : List Given), Sendable secret code gs →
    ∃ m, transmit md5 secret time memory memory' behind code id gs = .ok (some m) ∧
      m.attributes.map RadiusAttribute.view = gs.map Given.view := by
  intro h
  obtain ⟨m, htransmit, -⟩ := h (fun _ => .replicate _ 0) [115] (.replicate _ 0) blank blank 0 RP_ACCOUNTING_REQUEST 1
    [⟨RA_USER_PASSWORD, ⟨[], by decide⟩, 0⟩] ⟨Or.inr rfl, by decide, by decide, by decide, by decide, by decide⟩
  obtain ⟨a, hmake, htlv⟩ : ∃ a : RadiusAttribute, RadiusAttribute.make RA_USER_PASSWORD ⟨[], by decide⟩ 0 = .ok a ∧
      a.toTlv = (RA_USER_PASSWORD, []) := ⟨⟨RA_USER_PASSWORD, ⟨[], by decide⟩, 0, by decide, by decide⟩, rfl, rfl⟩
  have hencoded : encoded [a] = [2, 2] := by
    rw [encoded_cons, htlv]
    rfl
  obtain ⟨data, hadd, hcons, hcode, -, -⟩ := addAll_of_le [a]
    (show Consistent ((ofHeader blank RP_ACCOUNTING_REQUEST 0 (.replicate _ 0)).setIdentifier 1) from ⟨rfl, rfl⟩)
    (by rw [hencoded]; decide)
  have hadd' : ((ofHeader blank RP_ACCOUNTING_REQUEST 0 (.replicate _ 0)).setIdentifier 1).addAll [a] =
      .ok (some { requestAuthenticator := .replicate _ 0, attributes := [a], data }) := hadd
  have hlength : data.length.toNat = 22 := by
    have heq := hcons.length_eq
    simp only [ofHeader, setIdentifier, List.nil_append, hencoded] at heq
    exact heq
  have htake : data.rest.1.take 2 = [2, 2] := by
    have heq := hcons.take_eq
    simp only [ofHeader, setIdentifier, List.nil_append, hencoded] at heq
    exact heq
  obtain ⟨rest, hcalc, hrest⟩ := calcAccountingRequestAuthenticator_of_le (fun _ => .replicate _ 0) [115]
    { requestAuthenticator := .replicate _ 0, attributes := [a], data } hcons.le_length (by
      show data.length.toNat + 1 ≤ 4096
      omega)
  generalize hdigested : digested _ _ _ = d at hcalc
  have hcode' : d.code = RP_ACCOUNTING_REQUEST := hdigested ▸ hcode
  have hlength' : d.length.toNat = 22 := hdigested ▸ hlength
  have hbytes : d.bytes.drop RadiusPacketHeaderSize = Tlv.encode (RA_USER_PASSWORD, []) ++ [] := by
    rw [RawMessage.bytes_eq (by rw [hlength']; decide), List.drop_left' d.length_header, hlength']
    simp only [hlength] at hrest
    rw [← hdigested]
    exact hrest.trans htake
  obtain ⟨data', byte, -, -, -, -, hreceive⟩ := receive_bytes (fun _ => .replicate _ 0) [115] blank 0 (d := d)
    (by rw [hlength']; decide) (by rw [hlength']; decide)
  have hrefused : ¬ Accepted d.code (RA_USER_PASSWORD, []) := fun hacc =>
    absurd (hcode'.symm.trans (hacc.password rfl).1) (by decide)
  have hrequest : RadiusMessage.request blank RP_ACCOUNTING_REQUEST =
      .ok (ofHeader blank RP_ACCOUNTING_REQUEST 0 (.replicate _ 0)) := rfl
  have hcalc' := (calcAuthenticator_accounting (fun _ => .replicate _ 0) [115] (.replicate _ 0)
    (m := { requestAuthenticator := .replicate _ 0, attributes := [a], data }) hcode).trans hcalc
  rw [hbytes] at hreceive
  rcases decodeAttributes_cases (fun _ => .replicate _ 0) d.authenticator.1 d.code
    (show ([115] : Bytes).length < 256 by decide) byte (Tlv.encode (RA_USER_PASSWORD, []) ++ []) with
    ⟨hwell, -⟩ | ⟨-, hreach, -⟩ | ⟨-, -, e, herr⟩
  · exact not_wellFormed_append (Nat.zero_le _) hrefused hwell
  · exact not_reachesZeroVendor_append (Nat.zero_le _) hrefused (fun hz => absurd hz.type_eq password_ne_vendor) hreach
  · rw [herr] at hreceive
    simp only [transmit, List.mapM_cons, List.mapM_nil, hmake, hrequest, bind, Except.bind, pure, Except.pure, hadd', hcalc',
      hreceive] at htransmit
    cases htransmit

end Vocal.Radius
