import Vocal.Radius.Digest

/-!
# Messages that are put together

The raw bytes of a message follow its list of attributes while attributes are added, and hiding a password
changes nothing but its own bytes.
-/

namespace Vocal.Radius

open Failure

/-- The bytes of attributes. -/
def encoded (as : List RadiusAttribute) : Bytes := Tlv.encodeAll (as.map RadiusAttribute.toTlv)

theorem encoded_cons (a : RadiusAttribute) (as : List RadiusAttribute) :
    encoded (a :: as) = Tlv.encode a.toTlv ++ encoded as := rfl

theorem encoded_append (as bs : List RadiusAttribute) : encoded (as ++ bs) = encoded as ++ encoded bs := by
  rw [encoded, List.map_append, Tlv.encodeAll_append, encoded, encoded]

namespace RadiusMessage

/-- The length in the header and the bytes behind it are those of the attributes. -/
structure Consistent (m : RadiusMessage) : Prop where
  length_eq : m.data.length.toNat = RadiusPacketHeaderSize + (encoded m.attributes).length
  take_eq : m.data.rest.1.take (encoded m.attributes).length = encoded m.attributes

theorem Consistent.le_length {m : RadiusMessage} (h : m.Consistent) : RadiusPacketHeaderSize ≤ m.data.length.toNat := by
  rw [h.length_eq]
  exact Nat.le_add_right _ _

theorem consistent_ofHeader (memory : RadiusMessage) (code identifier : UInt8)
    (requestAuthenticator : Octets RadiusAuthenticatorLength) :
    (ofHeader memory code identifier requestAuthenticator).Consistent := ⟨rfl, rfl⟩

theorem add_of_le {m : RadiusMessage} (hm : m.Consistent) {a : RadiusAttribute}
    (h : m.data.length.toNat + a.length ≤ RadiusMaxPacketSize) :
    ∃ data, m.add a = .ok ({ m with attributes := m.attributes ++ [a], data }, true) ∧
      RadiusMessage.Consistent { m with attributes := m.attributes ++ [a], data } ∧ data.code = m.data.code ∧
      data.identifier = m.data.identifier ∧ data.authenticator = m.data.authenticator := by
  obtain ⟨e, hencode, hbytes⟩ := a.encode_eq (by omega)
  have hlen := hm.length_eq
  have ha := a.length_eq
  have htake : e.bytes.take a.length = Tlv.encode a.toTlv := by rw [hbytes, ha, List.take_length]
  obtain ⟨rest, hstore⟩ : ∃ rest, Octets.store m.data.rest (m.data.length.toNat - RadiusPacketHeaderSize)
      (e.bytes.take a.length) = some rest := Octets.exists_store (by
    rw [htake, ← ha]
    have hmin := hm.le_length
    omega)
  have hend := Octets.take_store_end hstore
  rw [show m.data.length.toNat - RadiusPacketHeaderSize = (encoded m.attributes).length by omega, htake,
    hm.take_eq] at hend
  have hencoded : encoded (m.attributes ++ [a]) = encoded m.attributes ++ Tlv.encode a.toTlv := by
    rw [encoded_append]
    simp [encoded]
  refine ⟨{ m.data with rest, length := .ofNat (m.data.length.toNat + a.length) }, ?_, ⟨?_, ?_⟩, rfl, rfl, rfl⟩
  · simp only [add, if_neg (Nat.not_lt.mpr h), hencode, bind, Except.bind, RawMessage.memcpy, access, hstore,
      Option.elim, Except.map, pure, Except.pure]
  · have hmax : RadiusMaxPacketSize = 4096 := rfl
    simp only [hencoded, List.length_append, ← ha, UInt16.toNat_ofNat']
    omega
  · simp only [hencoded, List.length_append]
    exact hend

theorem add_of_lt {m : RadiusMessage} {a : RadiusAttribute} (h : RadiusMaxPacketSize < m.data.length.toNat + a.length) :
    m.add a = .ok (m, false) := by
  simp only [add, if_pos h]
  rfl

/-- What is added leaves the message consistent. -/
theorem addAll_cases {m : RadiusMessage} (hm : m.Consistent) (as : List RadiusAttribute) :
    m.addAll as = .ok none ∨ ∃ m', m.addAll as = .ok (some m') ∧ m'.Consistent ∧ m'.data.code = m.data.code ∧
      m'.requestAuthenticator = m.requestAuthenticator := by
  induction as generalizing m with
  | nil => exact Or.inr ⟨m, rfl, hm, rfl, rfl⟩
  | cons a as ih =>
    rcases Nat.lt_or_ge RadiusMaxPacketSize (m.data.length.toNat + a.length) with hlong | hfits
    · refine Or.inl ?_
      simp only [addAll, add_of_lt hlong, bind, Except.bind]
      rfl
    · obtain ⟨data, hadd, hcons, hcode, -, -⟩ := add_of_le hm hfits
      rcases ih hcons with hnone | ⟨m', hsome, hcons', hcode', hauth'⟩
      · exact Or.inl (by simpa only [addAll, hadd, bind, Except.bind] using hnone)
      · exact Or.inr ⟨m', by simpa only [addAll, hadd, bind, Except.bind] using hsome, hcons', hcode'.trans hcode, hauth'⟩

theorem addAll_of_le {m : RadiusMessage} (as : List RadiusAttribute) (hm : m.Consistent)
    (h : m.data.length.toNat + (encoded as).length ≤ RadiusMaxPacketSize) :
    ∃ data, m.addAll as = .ok (some { m with attributes := m.attributes ++ as, data }) ∧
      RadiusMessage.Consistent { m with attributes := m.attributes ++ as, data } ∧ data.code = m.data.code ∧
      data.identifier = m.data.identifier ∧ data.authenticator = m.data.authenticator := by
  induction as generalizing m with
  | nil =>
    refine ⟨m.data, ?_, ?_, rfl, rfl, rfl⟩
    · rw [addAll, List.append_nil]
      rfl
    · rw [List.append_nil]
      exact hm
  | cons a as ih =>
    rw [encoded_cons, List.length_append, ← a.length_eq] at h
    obtain ⟨data, hadd, hcons, hcode, hid, hauth⟩ := add_of_le hm (a := a) (by omega)
    have hlen := hcons.length_eq
    have hlen' := hm.length_eq
    simp only [encoded_append, List.length_append] at hlen
    have hsingle : (encoded [a]).length = a.length := by
      rw [a.length_eq]
      simp [encoded]
    obtain ⟨data', hall, hcons', hcode', hid', hauth'⟩ := ih hcons (by
      show data.length.toNat + _ ≤ _
      omega)
    rw [List.append_assoc] at hall hcons'
    refine ⟨data', ?_, hcons', hcode'.trans hcode, hid'.trans hid, hauth'.trans hauth⟩
    simp only [addAll, hadd, bind, Except.bind]
    exact hall

/-- The bytes of an attribute, where a password is hidden. -/
def hiddenTlv (hiddenPassword : Bytes) (a : RadiusAttribute) : Tlv.Attribute :=
  if a.type = RA_USER_PASSWORD then (RA_USER_PASSWORD, hiddenPassword) else a.toTlv

theorem map_hiddenTlv {hiddenPassword : Bytes} {as : List RadiusAttribute} (h : ∀ a ∈ as, a.type ≠ RA_USER_PASSWORD) :
    as.map (hiddenTlv hiddenPassword) = as.map RadiusAttribute.toTlv :=
  List.map_congr_left fun a ha => by rw [hiddenTlv, if_neg (h a ha)]

theorem replacePassword_of_ne {hiddenPassword : Bytes} {as : List RadiusAttribute}
    (h : ∀ a ∈ as, a.type ≠ RA_USER_PASSWORD) (offset : Nat) (d : RawMessage) :
    replacePassword hiddenPassword as offset d = .ok d := by
  induction as generalizing offset with
  | nil => rfl
  | cons a as ih =>
    rw [replacePassword, if_neg (h a (by simp)), ih fun b hb => h b (by simp [hb])]

theorem replacePassword_eq {hiddenPassword : Bytes} {as : List RadiusAttribute}
    (hone : as.countP (·.type = RA_USER_PASSWORD) ≤ 1)
    (hlen : ∀ a ∈ as, a.type = RA_USER_PASSWORD → a.value.bytes.length = hiddenPassword.length) {x : Bytes}
    {d : RawMessage} (htake : d.rest.1.take (x.length + (encoded as).length) = x ++ encoded as) :
    ∃ rest, replacePassword hiddenPassword as (RadiusPacketHeaderSize + x.length) d = .ok { d with rest } ∧
      rest.1.take (x.length + (encoded as).length) = x ++ Tlv.encodeAll (as.map (hiddenTlv hiddenPassword)) := by
  induction as generalizing x d with
  | nil => exact ⟨d.rest, rfl, htake⟩
  | cons a as ih =>
    rw [encoded_cons] at htake ⊢
    by_cases hpassword : a.type = RA_USER_PASSWORD
    · have hnone : ∀ b ∈ as, b.type ≠ RA_USER_PASSWORD := by
        rw [List.countP_cons_of_pos (by simpa using hpassword)] at hone
        have hzero : as.countP (·.type = RA_USER_PASSWORD) = 0 := by omega
        simpa using List.countP_eq_zero.mp hzero
      have hvalue := hlen a (by simp) hpassword
      have htlv : Tlv.encode a.toTlv = [RA_USER_PASSWORD, .ofNat (hiddenPassword.length + 2)] ++ a.value.bytes := by
        rw [RadiusAttribute.toTlv_of_ne (by rw [hpassword]; decide), hpassword, Tlv.encode, ← hvalue]
        rfl
      have hsum : x.length + (Tlv.encode a.toTlv ++ encoded as).length =
          (x.length + 2) + (a.value.bytes.length + (encoded as).length) := by
        rw [htlv]
        simp only [List.length_append, List.length_cons, List.length_nil]
        omega
      have hfits : (x.length + 2) + (a.value.bytes.length + (encoded as).length) ≤
          RadiusMaxPacketSize - RadiusPacketHeaderSize := by
        have hle := congrArg List.length htake
        rw [hsum] at hle
        simp only [List.length_take, List.length_append, d.rest.2, htlv, List.length_cons, List.length_nil] at hle
        omega
      obtain ⟨rest, hstore⟩ : ∃ rest, Octets.store d.rest (x.length + 2) hiddenPassword = some rest :=
        Octets.exists_store (by omega)
      refine ⟨rest, ?_, ?_⟩
      · rw [replacePassword, if_pos hpassword, RawMessage.memcpy,
          show RadiusPacketHeaderSize + x.length + 2 - RadiusPacketHeaderSize = x.length + 2 by omega, hstore]
        exact replacePassword_of_ne hnone _ _
      · rw [hsum] at htake ⊢
        rw [htlv, List.append_assoc, ← List.append_assoc x] at htake
        rw [Octets.take_store_middle hstore htake (by simp) hvalue, List.map_cons, Tlv.encodeAll_cons,
          map_hiddenTlv hnone, hiddenTlv, if_pos hpassword]
        simp [Tlv.encode, encoded]
    · have hcount : as.countP (·.type = RA_USER_PASSWORD) ≤ 1 := by
        rwa [List.countP_cons_of_neg (by simpa using hpassword)] at hone
      have hlength : x.length + (Tlv.encode a.toTlv ++ encoded as).length =
          (x ++ Tlv.encode a.toTlv).length + (encoded as).length := by
        simp only [List.length_append]
        omega
      rw [hlength, ← List.append_assoc] at htake
      obtain ⟨rest, hok, hrest⟩ := ih hcount (fun b hb => hlen b (by simp [hb])) htake
      refine ⟨rest, ?_, ?_⟩
      · rw [replacePassword, if_neg hpassword, a.length_eq]
        rw [List.length_append, ← Nat.add_assoc] at hok
        exact hok
      · rw [hlength, hrest, List.map_cons, Tlv.encodeAll_cons, hiddenTlv, if_neg hpassword, List.append_assoc]

end RadiusMessage

end Vocal.Radius
