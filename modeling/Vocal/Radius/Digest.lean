import Vocal.Radius.Message

/-!
# Authenticators and hidden passwords

The authenticators of a response and of a request for accounting are digests of the message with an authenticator
in its header, and the secret behind it. The secret is written behind the message, so that only what is not sent
changes.

The sender hides the blocks of a password one behind the other, and the receiver uncovers them from the last one
on.
-/

namespace Vocal.Radius

open Failure

namespace RawMessage

theorem length_header (d : RawMessage) : d.header.length = RadiusPacketHeaderSize := by
  have hlen : d.authenticator.1.length = 16 := d.authenticator.2
  simp [header, hlen, RadiusPacketHeaderSize]

theorem bytes_eq {d : RawMessage} (h : RadiusPacketHeaderSize ≤ d.length.toNat) :
    d.bytes = d.header ++ d.rest.1.take (d.length.toNat - RadiusPacketHeaderSize) := by
  rw [bytes, buffer, List.take_append, length_header, List.take_of_length_le (by rw [length_header]; exact h)]

theorem bytes_congr {d : RawMessage} (h : RadiusPacketHeaderSize ≤ d.length.toNat)
    {rest : Octets (RadiusMaxPacketSize - RadiusPacketHeaderSize)}
    (hrest : rest.1.take (d.length.toNat - RadiusPacketHeaderSize) =
      d.rest.1.take (d.length.toNat - RadiusPacketHeaderSize)) : { d with rest }.bytes = d.bytes := by
  rw [bytes_eq (d := { d with rest }) h, bytes_eq h, hrest]
  rfl

theorem length_bytes {d : RawMessage} (hmin : RadiusPacketHeaderSize ≤ d.length.toNat)
    (hmax : d.length.toNat ≤ RadiusMaxPacketSize) : d.bytes.length = d.length.toNat := by
  rw [bytes_eq hmin, List.length_append, length_header, List.length_take, d.rest.2]
  omega

theorem bytes_authenticator {d : RawMessage} (hmin : RadiusPacketHeaderSize ≤ d.length.toNat)
    (authenticator : Octets RadiusAuthenticatorLength) :
    { d with authenticator }.bytes = d.bytes.take 4 ++ (authenticator.1 ++ d.bytes.drop RadiusPacketHeaderSize) := by
  have hdrop : d.bytes.drop RadiusPacketHeaderSize = d.rest.1.take (d.length.toNat - RadiusPacketHeaderSize) := by
    rw [bytes_eq hmin, List.drop_left' d.length_header]
  rw [hdrop, bytes_eq hmin, bytes_eq (d := { d with authenticator }) hmin]
  rfl

theorem take_bytes_authenticator {d : RawMessage} (hmin : RadiusPacketHeaderSize ≤ d.length.toNat) :
    (d.bytes.drop 4).take RadiusAuthenticatorLength = d.authenticator.1 := by
  have hauth : d.authenticator.1.length = RadiusAuthenticatorLength := d.authenticator.2
  rw [bytes_eq hmin]
  show ((d.authenticator.1 ++ _).take RadiusAuthenticatorLength) = _
  rw [List.take_left' hauth]

end RawMessage

namespace RadiusMessage

/-- The message with another authenticator in its header. -/
def signed (m : RadiusMessage) (authenticator : Octets RadiusAuthenticatorLength) : Bytes :=
  { m.data with authenticator }.bytes

/-- What becomes of a message when a digest of it is calculated: behind the message stands something else. -/
def digested (m : RadiusMessage) (authenticator : Octets RadiusAuthenticatorLength)
    (rest : Octets (RadiusMaxPacketSize - RadiusPacketHeaderSize)) : RawMessage :=
  { m.data with authenticator, rest }

/-- A digest that was calculated leaves what the next one is calculated of. -/
theorem signed_of_digested {m m' : RadiusMessage} {a : Octets RadiusAuthenticatorLength}
    {rest : Octets (RadiusMaxPacketSize - RadiusPacketHeaderSize)} (hmin : RadiusPacketHeaderSize ≤ m.data.length.toNat)
    (hrest : rest.1.take (m.data.length.toNat - RadiusPacketHeaderSize) =
      m.data.rest.1.take (m.data.length.toNat - RadiusPacketHeaderSize)) (hdata : m'.data = m.digested a rest)
    (b : Octets RadiusAuthenticatorLength) : m'.signed b = m.signed b := by
  rw [signed, hdata]
  exact RawMessage.bytes_congr (d := { m.data with authenticator := b }) hmin hrest

variable (md5 : Bytes → Octets RadiusAuthenticatorLength) (secret : Bytes) (m : RadiusMessage)

theorem withSecret_of_lt (authenticator : Octets RadiusAuthenticatorLength)
    (h : RadiusMaxPacketSize < m.data.length.toNat + secret.length) :
    m.withSecret secret authenticator = .error assertion := by
  simp only [withSecret, check, if_neg (Nat.not_le.mpr h), bind, Except.bind]

theorem withSecret_of_le (authenticator : Octets RadiusAuthenticatorLength)
    (hmin : RadiusPacketHeaderSize ≤ m.data.length.toNat)
    (h : m.data.length.toNat + secret.length ≤ RadiusMaxPacketSize) :
    ∃ rest, m.withSecret secret authenticator = .ok (m.digested authenticator rest) ∧
      rest.1.take (m.data.length.toNat - RadiusPacketHeaderSize) =
        m.data.rest.1.take (m.data.length.toNat - RadiusPacketHeaderSize) ∧
      (m.digested authenticator rest).buffer.take (m.data.length.toNat + secret.length) =
        m.signed authenticator ++ secret := by
  obtain ⟨rest, hstore⟩ : ∃ rest, Octets.store m.data.rest (m.data.length.toNat - RadiusPacketHeaderSize) secret =
      some rest := Octets.exists_store (by omega)
  refine ⟨rest, ?_, Octets.take_store hstore (Nat.le_refl _), ?_⟩
  · simp only [withSecret, check, if_pos h, bind, Except.bind, RawMessage.memcpy, access, hstore, Option.elim,
      Except.map, digested]
  · have hend := Octets.take_store_end hstore
    have hsum : m.data.length.toNat + secret.length - RadiusPacketHeaderSize =
        m.data.length.toNat - RadiusPacketHeaderSize + secret.length := by omega
    rw [signed, RawMessage.bytes_eq (d := { m.data with authenticator }) hmin, RawMessage.buffer, List.take_append,
      RawMessage.length_header, hsum]
    show _ ++ rest.1.take _ = _
    rw [hend, List.take_of_length_le (by rw [RawMessage.length_header]; omega), List.append_assoc]
    rfl

/-- The digest of a response. -/
def responseDigest : Octets RadiusAuthenticatorLength := md5 (m.signed m.requestAuthenticator ++ secret)

/-- The digest of a request for accounting. -/
def accountingDigest : Octets RadiusAuthenticatorLength := md5 (m.signed (.replicate _ 0) ++ secret)

variable {m} in
theorem accountingDigest_of_digested {m' : RadiusMessage} {a : Octets RadiusAuthenticatorLength}
    {rest : Octets (RadiusMaxPacketSize - RadiusPacketHeaderSize)} (hmin : RadiusPacketHeaderSize ≤ m.data.length.toNat)
    (hrest : rest.1.take (m.data.length.toNat - RadiusPacketHeaderSize) =
      m.data.rest.1.take (m.data.length.toNat - RadiusPacketHeaderSize)) (hdata : m'.data = m.digested a rest) :
    m'.accountingDigest md5 secret = m.accountingDigest md5 secret := by
  rw [accountingDigest, signed_of_digested hmin hrest hdata, accountingDigest]

variable {m} in
theorem accountingDigest_of_bytes {m' : RadiusMessage} (hmin : RadiusPacketHeaderSize ≤ m.data.length.toNat)
    (hmin' : RadiusPacketHeaderSize ≤ m'.data.length.toNat) (hbytes : m'.data.bytes = m.data.bytes) :
    m'.accountingDigest md5 secret = m.accountingDigest md5 secret := by
  have hsigned : m'.signed (.replicate _ 0) = m.signed (.replicate _ 0) :=
    (RawMessage.bytes_authenticator hmin' _).trans (by rw [hbytes]; exact (RawMessage.bytes_authenticator hmin _).symm)
  rw [accountingDigest, hsigned, accountingDigest]

theorem calcResponseAuthenticator_of_lt (h : RadiusMaxPacketSize < m.data.length.toNat + secret.length) :
    m.calcResponseAuthenticator md5 secret = .error assertion := by
  simp only [calcResponseAuthenticator, withSecret_of_lt secret m _ h, bind, Except.bind]

theorem calcResponseAuthenticator_of_le (hmin : RadiusPacketHeaderSize ≤ m.data.length.toNat)
    (h : m.data.length.toNat + secret.length ≤ RadiusMaxPacketSize) :
    ∃ rest, m.calcResponseAuthenticator md5 secret =
        .ok { m with data := m.digested (m.responseDigest md5 secret) rest } ∧
      rest.1.take (m.data.length.toNat - RadiusPacketHeaderSize) =
        m.data.rest.1.take (m.data.length.toNat - RadiusPacketHeaderSize) := by
  obtain ⟨rest, hok, hsame, hbuffer⟩ := withSecret_of_le secret m m.requestAuthenticator hmin h
  refine ⟨rest, ?_, hsame⟩
  simp only [calcResponseAuthenticator, hok, bind, Except.bind, hbuffer, pure, Except.pure]
  rfl

theorem calcAccountingRequestAuthenticator_of_lt (h : RadiusMaxPacketSize < m.data.length.toNat + secret.length) :
    m.calcAccountingRequestAuthenticator md5 secret = .error assertion := by
  simp only [calcAccountingRequestAuthenticator, withSecret_of_lt secret m _ h, bind, Except.bind]

theorem calcAccountingRequestAuthenticator_of_le (hmin : RadiusPacketHeaderSize ≤ m.data.length.toNat)
    (h : m.data.length.toNat + secret.length ≤ RadiusMaxPacketSize) :
    ∃ rest, m.calcAccountingRequestAuthenticator md5 secret =
        .ok { m with
          requestAuthenticator := m.accountingDigest md5 secret
          data := m.digested (m.accountingDigest md5 secret) rest } ∧
      rest.1.take (m.data.length.toNat - RadiusPacketHeaderSize) =
        m.data.rest.1.take (m.data.length.toNat - RadiusPacketHeaderSize) := by
  obtain ⟨rest, hok, hsame, hbuffer⟩ := withSecret_of_le secret m (.replicate _ 0) hmin h
  refine ⟨rest, ?_, hsame⟩
  simp only [calcAccountingRequestAuthenticator, hok, bind, Except.bind, hbuffer, pure, Except.pure]
  rfl

end RadiusMessage

/-! ### Hidden passwords -/

theorem xor_xor {a b : Bytes} (h : a.length ≤ b.length) : xor (xor a b) b = a := by
  apply List.ext_getElem
  · simp [xor, h]
  · intro i h₁ h₂
    have hb : i < b.length := by omega
    calc (xor (xor a b) b)[i] = a[i] ^^^ b[i] ^^^ b[i] := by simp only [xor, List.getElem_zipWith]
      _ = a[i] := by rw [UInt8.xor_assoc, UInt8.xor_self, UInt8.xor_zero]

theorem length_xor {a b : Bytes} (h : a.length ≤ b.length) : (xor a b).length = a.length := by
  simp [xor, h]

theorem length_block {p : Bytes} {i : Nat} (h : 16 * (i + 1) ≤ p.length) : (block p i).length = 16 := by
  rw [block, List.length_take, List.length_drop]
  omega

theorem take_succ_block (p : Bytes) (i : Nat) : p.take (16 * (i + 1)) = p.take (16 * i) ++ block p i := by
  rw [block, Nat.mul_add, List.take_add]

theorem block_take (p : Bytes) {i n : Nat} (h : i < n) : block (p.take (16 * n)) i = block p i := by
  rw [block, block, List.drop_take, List.take_take]
  congr 1
  omega

theorem length_digest (d : Octets RadiusAuthenticatorLength) : d.1.length = 16 := d.2

section

variable {md5 : Bytes → Octets RadiusAuthenticatorLength} {secret authenticator p : Bytes}

theorem xor_block {i : Nat} (h : 16 * (i + 1) ≤ p.length) (digest : Octets RadiusAuthenticatorLength) :
    (xor (block p i) digest.1).length = 16 ∧ xor (xor (block p i) digest.1) digest.1 = block p i := by
  have hle : (block p i).length ≤ digest.1.length := by rw [length_block h, length_digest]
  exact ⟨by rw [length_xor hle, length_block h], xor_xor hle⟩

theorem length_encodeBlocks {n : Nat} (h : 16 * n ≤ p.length) :
    (encodeBlocks md5 secret authenticator p n).length = 16 * n := by
  induction n with
  | zero => rfl
  | succ i ih =>
    rw [encodeBlocks, List.length_append, ih (by omega), (xor_block h _).1]
    omega

theorem length_decodeBlocks {n : Nat} (h : 16 * n ≤ p.length) :
    (decodeBlocks md5 secret authenticator p n).length = 16 * n := by
  induction n with
  | zero => rfl
  | succ i ih =>
    rw [decodeBlocks, List.length_append, ih (by omega), (xor_block h _).1]
    omega

theorem take_encodeBlocks {i n : Nat} (h : 16 * n ≤ p.length) (hi : i ≤ n) :
    (encodeBlocks md5 secret authenticator p n).take (16 * i) = encodeBlocks md5 secret authenticator p i := by
  induction n with
  | zero =>
    obtain rfl : i = 0 := by omega
    rfl
  | succ n ih =>
    rcases Nat.lt_or_eq_of_le hi with hlt | rfl
    · rw [encodeBlocks, List.take_append_of_le_length (by rw [length_encodeBlocks (by omega)]; omega),
        ih (by omega) (by omega)]
    · exact List.take_of_length_le (by rw [length_encodeBlocks h])

theorem block_append {a b : Bytes} {i : Nat} (ha : a.length = 16 * i) (hb : b.length = 16) : block (a ++ b) i = b := by
  rw [block, ← ha, List.drop_left, ← hb, List.take_length]

theorem block_encodeBlocks {i n : Nat} (h : 16 * n ≤ p.length) (hi : i < n) :
    block (encodeBlocks md5 secret authenticator p n) i =
      xor (block p i) (md5 (secret ++ if i = 0 then authenticator else
        block (encodeBlocks md5 secret authenticator p i) (i - 1))).1 := by
  rw [← block_take _ (Nat.lt_succ_self i), take_encodeBlocks h hi, encodeBlocks,
    block_append (length_encodeBlocks (by omega)) (xor_block (by omega) _).1]

theorem decodeBlocks_encodeBlocks {i n : Nat} (h : 16 * n ≤ p.length) (hi : i ≤ n) :
    decodeBlocks md5 secret authenticator (encodeBlocks md5 secret authenticator p n) i = p.take (16 * i) := by
  induction i with
  | zero => rfl
  | succ i ih =>
    -- the digest is taken over the hidden block in front, on both sides
    have hprev : i ≠ 0 → block (encodeBlocks md5 secret authenticator p n) (i - 1) =
        block (encodeBlocks md5 secret authenticator p i) (i - 1) := by
      intro hne
      rw [← take_encodeBlocks h (Nat.le_of_succ_le hi), block_take _ (by omega)]
    have hkey : (if i = 0 then authenticator else block (encodeBlocks md5 secret authenticator p n) (i - 1)) =
        if i = 0 then authenticator else block (encodeBlocks md5 secret authenticator p i) (i - 1) := by
      split_ifs with hzero
      · rfl
      · exact hprev hzero
    rw [decodeBlocks, ih (by omega), block_encodeBlocks h (by omega), hkey, (xor_block (by omega) _).2,
      take_succ_block]

end

end Vocal.Radius
