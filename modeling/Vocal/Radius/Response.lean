import Vocal.Radius.RoundTrip

/-!
# Verdicts on responses

A verification writes the authenticator that it calculates into the message, so that the next one finds the
message authentic. A challenge, which the stack can build, reaches an assertion of the verification.
-/

namespace Vocal.Radius

open Failure RadiusMessage

/-! ## Responses and their verdicts -/

/-- The verdicts of a number of verifications of one message. -/
def verdicts (md5 : Bytes → Octets RadiusAuthenticatorLength) (secret : Bytes) (reqAuth : Octets RadiusAuthenticatorLength) :
    Nat → RadiusMessage → Except Failure (List Bool)
  | 0, _ => .ok []
  | n + 1, m => do
    let (m, verdict) ← m.verifyResponseAuthenticator md5 secret reqAuth
    let rest ← verdicts md5 secret reqAuth n m
    return verdict :: rest

/-- The authenticator that was received is the digest of code, id, length, the authenticator of the request, the
attributes and the secret. -/
def Authentic (md5 : Bytes → Octets RadiusAuthenticatorLength) (secret : Bytes) (reqAuth : Octets RadiusAuthenticatorLength)
    (rawMsg : RadiusData) : Prop :=
  (rawMsg.bytes.drop 4).take RadiusAuthenticatorLength =
    (md5 (rawMsg.bytes.take 4 ++ (reqAuth.1 ++ rawMsg.bytes.drop RadiusPacketHeaderSize) ++ secret)).1

instance (md5 : Bytes → Octets RadiusAuthenticatorLength) (secret : Bytes) (reqAuth : Octets RadiusAuthenticatorLength)
    (rawMsg : RadiusData) : Decidable (Authentic md5 secret reqAuth rawMsg) := inferInstanceAs (Decidable (_ = _))

/-- The types of a response that the stack can build. -/
def responseCodes : List UInt8 := [RP_ACCOUNTING_RESPONSE, RP_ACCESS_REJECT, RP_ACCESS_CHALLENGE, RP_ACCESS_ACCEPT]

/-- The response that the stack builds. -/
def respond (md5 : Bytes → Octets RadiusAuthenticatorLength) (secret : Bytes) (time : Octets 4)
    (memory : RadiusMessage) (code requestId : UInt8) (reqAuth : Octets RadiusAuthenticatorLength)
    (as : List RadiusAttribute) : Except Failure (Option RadiusMessage) := do
  let m ← RadiusMessage.response memory code requestId reqAuth
  match ← m.addAll as with
  | none => return none
  | some m => return some (← m.calcAuthenticator md5 secret time)

/-- The verification of the message returns true. -/
def Verifies (md5 : Bytes → Octets RadiusAuthenticatorLength) (secret : Bytes) (reqAuth : Octets RadiusAuthenticatorLength)
    (m : RadiusMessage) : Prop :=
  ∃ m', m.verifyResponseAuthenticator md5 secret reqAuth = .ok (m', true)

/-! ## One verification -/

section

variable {md5 : Bytes → Octets RadiusAuthenticatorLength} {secret : Bytes} {reqAuth : Octets RadiusAuthenticatorLength}
  {m : RadiusMessage}

/-- The digest with which a message is compared. -/
def expectedDigest (md5 : Bytes → Octets RadiusAuthenticatorLength) (secret : Bytes)
    (reqAuth : Octets RadiusAuthenticatorLength) (m : RadiusMessage) : Octets RadiusAuthenticatorLength :=
  md5 (m.signed reqAuth ++ secret)

theorem verifyResponse_of_code (hcode : ¬ (m.data.code = RP_ACCESS_ACCEPT ∨ m.data.code = RP_ACCESS_REJECT ∨
      m.data.code = RP_ACCOUNTING_RESPONSE)) :
    m.verifyResponseAuthenticator md5 secret reqAuth = .error assertion := by
  simp only [verifyResponseAuthenticator, check, if_neg hcode, bind, Except.bind]

theorem verifyResponse_of_lt (hcode : m.data.code = RP_ACCESS_ACCEPT ∨ m.data.code = RP_ACCESS_REJECT ∨
      m.data.code = RP_ACCOUNTING_RESPONSE)
    (h : RadiusMaxPacketSize < m.data.length.toNat + secret.length) :
    m.verifyResponseAuthenticator md5 secret reqAuth = .error assertion := by
  simp only [verifyResponseAuthenticator, check, if_pos hcode, bind, Except.bind,
    calcResponseAuthenticator_of_lt md5 secret { m with requestAuthenticator := reqAuth } h]

theorem verifyResponse_of_le (md5 : Bytes → Octets RadiusAuthenticatorLength) (secret : Bytes)
    (reqAuth : Octets RadiusAuthenticatorLength)
    (hcode : m.data.code = RP_ACCESS_ACCEPT ∨ m.data.code = RP_ACCESS_REJECT ∨ m.data.code = RP_ACCOUNTING_RESPONSE)
    (hmin : RadiusPacketHeaderSize ≤ m.data.length.toNat) (h : m.data.length.toNat + secret.length ≤ RadiusMaxPacketSize) :
    ∃ m', m.verifyResponseAuthenticator md5 secret reqAuth =
        .ok (m', m.data.authenticator = expectedDigest md5 secret reqAuth m) ∧
      m'.data.code = m.data.code ∧ m'.data.length = m.data.length ∧
      m'.data.authenticator = expectedDigest md5 secret reqAuth m ∧
      expectedDigest md5 secret reqAuth m' = expectedDigest md5 secret reqAuth m := by
  obtain ⟨rest, hcalc, hrest⟩ :=
    calcResponseAuthenticator_of_le md5 secret { m with requestAuthenticator := reqAuth } hmin h
  refine ⟨{ m with
    requestAuthenticator := reqAuth
    data := m.digested (expectedDigest md5 secret reqAuth m) rest }, ?_, rfl, rfl, rfl, ?_⟩
  · simp only [verifyResponseAuthenticator, check, if_pos hcode, bind, Except.bind, hcalc]
    rfl
  · rw [expectedDigest, expectedDigest, signed_of_digested hmin hrest rfl]

theorem verdicts_of_authentic (hcode : m.data.code = RP_ACCESS_ACCEPT ∨ m.data.code = RP_ACCESS_REJECT ∨
      m.data.code = RP_ACCOUNTING_RESPONSE)
    (hmin : RadiusPacketHeaderSize ≤ m.data.length.toNat) (h : m.data.length.toNat + secret.length ≤ RadiusMaxPacketSize)
    (hauth : m.data.authenticator = expectedDigest md5 secret reqAuth m) (n : Nat) :
    verdicts md5 secret reqAuth n m = .ok (List.replicate n true) := by
  induction n generalizing m with
  | zero => rfl
  | succ n ih =>
    obtain ⟨m', hverify, hcode', hlength', hauth', hdigest⟩ := verifyResponse_of_le md5 secret reqAuth hcode hmin h
    rw [verdicts, hverify]
    simp only [bind, Except.bind, hauth, decide_true]
    rw [ih (by rwa [hcode']) (by rwa [hlength']) (by rwa [hlength']) (by rw [hauth', hdigest])]
    rfl

/-- The verdicts are those that the authenticator deserves exactly if the type is one that is verified, the secret
has room, and the message is verified once or is authentic. -/
theorem verdicts_eq_replicate_iff (hmin : RadiusPacketHeaderSize ≤ m.data.length.toNat) (n : Nat) :
    verdicts md5 secret reqAuth n m =
        .ok (List.replicate n (m.data.authenticator = expectedDigest md5 secret reqAuth m)) ↔
      n = 0 ∨ ((m.data.code = RP_ACCESS_ACCEPT ∨ m.data.code = RP_ACCESS_REJECT ∨ m.data.code = RP_ACCOUNTING_RESPONSE) ∧
        m.data.length.toNat + secret.length ≤ RadiusMaxPacketSize ∧
        (n = 1 ∨ m.data.authenticator = expectedDigest md5 secret reqAuth m)) := by
  cases n with
  | zero => exact iff_of_true rfl (Or.inl rfl)
  | succ n =>
    by_cases hcode : m.data.code = RP_ACCESS_ACCEPT ∨ m.data.code = RP_ACCESS_REJECT ∨
        m.data.code = RP_ACCOUNTING_RESPONSE
    · rcases Nat.lt_or_ge RadiusMaxPacketSize (m.data.length.toNat + secret.length) with hlong | hfits
      · rw [verdicts, verifyResponse_of_lt hcode hlong]
        refine iff_of_false (fun h => by cases h) ?_
        rintro (hzero | ⟨-, hfits, -⟩)
        · cases hzero
        · exact absurd hlong (Nat.not_lt.mpr hfits)
      · obtain ⟨m', hverify, hcode', hlength', hauth', hdigest⟩ := verifyResponse_of_le md5 secret reqAuth hcode hmin hfits
        have hrest := verdicts_of_authentic (m := m') (by rwa [hcode']) (by rwa [hlength']) (by rwa [hlength'])
          (by rw [hauth', hdigest]) n
        rw [verdicts, hverify]
        simp only [bind, Except.bind, hrest, pure, Except.pure, List.replicate_succ, Except.ok.injEq, List.cons.injEq,
          true_and, hcode, hfits]
        by_cases hauthentic : m.data.authenticator = expectedDigest md5 secret reqAuth m
        · simp [hauthentic]
        · cases n with
          | zero => simp
          | succ n => simp [hauthentic, List.replicate_succ]
    · rw [verdicts, verifyResponse_of_code hcode]
      refine iff_of_false (fun h => by cases h) ?_
      rintro (hzero | ⟨hcode', -⟩)
      · cases hzero
      · exact hcode hcode'

/-! ## Responses that are received -/

variable (md5 secret reqAuth) in
theorem expectedDigest_eq (hmin : RadiusPacketHeaderSize ≤ m.data.length.toNat) :
    expectedDigest md5 secret reqAuth m =
      md5 (m.data.bytes.take 4 ++ (reqAuth.1 ++ m.data.bytes.drop RadiusPacketHeaderSize) ++ secret) := by
  rw [expectedDigest, signed, RawMessage.bytes_authenticator hmin]

theorem receive_data {memory : RadiusMessage} {behind : UInt8} {rawMsg : RadiusData}
    (h : receive md5 secret memory behind rawMsg = .ok m) :
    RadiusPacketHeaderSize ≤ rawMsg.bytes.length ∧ m.data.code = rawMsg.bytes.getD 0 0 ∧
      (m.data.code ≠ RP_ACCOUNTING_REQUEST → m.data.bytes = rawMsg.bytes ∧
        m.data.length.toNat = rawMsg.bytes.length ∧
        m.data.authenticator.1 = (rawMsg.bytes.drop 4).take RadiusAuthenticatorLength) := by
  by_cases hmin : RadiusMinPacketSize ≤ rawMsg.bytes.length
  · by_cases hlen : (Bytes.word16 (rawMsg.bytes.getD 2 0) (rawMsg.bytes.getD 3 0)).toNat = rawMsg.bytes.length
    · obtain ⟨data, byte, hbytes, hcode, hlength, hauth, hreceive⟩ := receive_eq md5 secret memory behind rawMsg hmin hlen
      rw [hreceive] at h
      obtain ⟨attrs, -, hverify⟩ : ∃ attrs, decodeAttributes md5 secret data.code data.authenticator.1 byte
          (rawMsg.bytes.drop RadiusPacketHeaderSize) = .ok attrs ∧
          verifyRequest md5 secret { memory with attributes := attrs, data } = .ok m := by
        cases hdecode : decodeAttributes md5 secret data.code data.authenticator.1 byte
            (rawMsg.bytes.drop RadiusPacketHeaderSize) with
        | error e =>
          rw [hdecode] at h
          cases h
        | ok attrs =>
          rw [hdecode] at h
          exact ⟨attrs, rfl, h⟩
      by_cases haccounting : data.code = RP_ACCOUNTING_REQUEST
      · rcases verifyRequest_accounting md5 secret { memory with attributes := attrs, data } haccounting
          (by rw [hlength]; exact hmin) with ⟨-, -, m', hok, -, hcode'⟩ | ⟨-, -, d, herr⟩ | ⟨-, herr⟩
        · rw [hok] at hverify
          obtain rfl := Except.ok.inj hverify
          exact ⟨hmin, hcode'.trans hcode, fun hne => absurd (hcode'.trans haccounting) hne⟩
        · rw [herr] at hverify
          cases hverify
        · rw [herr] at hverify
          cases hverify
      · rw [verifyRequest_of_ne md5 secret haccounting] at hverify
        obtain rfl := Except.ok.inj hverify
        exact ⟨hmin, hcode, fun _ => ⟨hbytes, hlength, hauth⟩⟩
    · obtain ⟨d, herr⟩ := receive_of_ne md5 secret memory behind hmin hlen
      rw [herr] at h
      cases h
  · rw [receive, dif_neg hmin] at h
    cases h

/-! ## Responses that are built -/

section Built

variable {time : Octets 4} {memory : RadiusMessage} {code requestId : UInt8} {as : List RadiusAttribute}

theorem respond_of_addAll (hcodes : code ∈ responseCodes)
    (hadd : (ofHeader memory code requestId reqAuth).addAll as = .ok (some m)) :
    respond md5 secret time memory code requestId reqAuth as = (m.calcResponseAuthenticator md5 secret).map some := by
  have hcode : code = RP_ACCOUNTING_RESPONSE ∨ code = RP_ACCESS_REJECT ∨ code = RP_ACCESS_CHALLENGE ∨
      code = RP_ACCESS_ACCEPT := by simpa [responseCodes] using hcodes
  have hkept : m.data.code = code := by
    rcases addAll_cases (consistent_ofHeader memory code requestId reqAuth) as with hnone | ⟨m', hsome, -, hcode', -⟩
    · rw [hnone] at hadd
      cases hadd
    · obtain rfl : m' = m := by simpa [hsome] using hadd
      exact hcode'
  have hcalc : m.calcAuthenticator md5 secret time = m.calcResponseAuthenticator md5 secret := by
    rw [calcAuthenticator, hkept, if_neg, if_pos]
    · rcases hcode with rfl | rfl | rfl | rfl <;> decide
    · rcases hcode with rfl | rfl | rfl | rfl <;> decide
  simp only [respond, RadiusMessage.response, check, if_pos hcode, bind, Except.bind, pure, Except.pure, hadd, hcalc]
  cases m.calcResponseAuthenticator md5 secret with
  | error e => rfl
  | ok m' => rfl

/-- With a long secret the digest is not calculated. -/
theorem respond_of_lt (hcodes : code ∈ responseCodes)
    (hadd : (ofHeader memory code requestId reqAuth).addAll as = .ok (some m))
    (hlong : RadiusMaxPacketSize < m.data.length.toNat + secret.length) :
    respond md5 secret time memory code requestId reqAuth as = .error assertion := by
  rw [respond_of_addAll hcodes hadd, calcResponseAuthenticator_of_lt md5 secret m hlong]
  rfl

theorem respond_spec (h : respond md5 secret time memory code requestId reqAuth as = .ok (some m)) :
    code ∈ responseCodes ∧ m.data.code = code ∧ RadiusPacketHeaderSize ≤ m.data.length.toNat ∧
      m.data.length.toNat + secret.length ≤ RadiusMaxPacketSize ∧
      m.data.authenticator = expectedDigest md5 secret reqAuth m := by
  by_cases hcodes : code ∈ responseCodes
  · rcases addAll_cases (consistent_ofHeader memory code requestId reqAuth) as with hnone | ⟨m₁, hadd, hcons, hcode₁, hauth₁⟩
    · have hcode := by simpa [responseCodes] using hcodes
      simp only [respond, RadiusMessage.response, check, if_pos hcode, bind, Except.bind, pure, Except.pure, hnone] at h
      cases h
    · rcases Nat.lt_or_ge RadiusMaxPacketSize (m₁.data.length.toNat + secret.length) with hlong | hfits
      · rw [respond_of_lt hcodes hadd hlong] at h
        cases h
      · obtain ⟨rest, hok, hrest⟩ := calcResponseAuthenticator_of_le md5 secret m₁ hcons.le_length hfits
        rw [respond_of_addAll hcodes hadd, hok] at h
        simp only [Except.map, Except.ok.injEq, Option.some.injEq] at h
        subst h
        refine ⟨hcodes, hcode₁, hcons.le_length, hfits, ?_⟩
        rw [expectedDigest, signed_of_digested hcons.le_length hrest rfl]
        have hauth : m₁.requestAuthenticator = reqAuth := hauth₁
        rw [← hauth]
        rfl
  · have hcode : ¬(code = RP_ACCOUNTING_RESPONSE ∨ code = RP_ACCESS_REJECT ∨ code = RP_ACCESS_CHALLENGE ∨
        code = RP_ACCESS_ACCEPT) := by simpa [responseCodes] using hcodes
    simp only [respond, RadiusMessage.response, check, if_neg hcode, bind, Except.bind] at h
    cases h

end Built

theorem verifies_iff (hcodes : m.data.code ∈ responseCodes) (hmin : RadiusPacketHeaderSize ≤ m.data.length.toNat)
    (hfits : m.data.length.toNat + secret.length ≤ RadiusMaxPacketSize)
    (hauth : m.data.authenticator = expectedDigest md5 secret reqAuth m) :
    Verifies md5 secret reqAuth m ↔ m.data.code ≠ RP_ACCESS_CHALLENGE := by
  by_cases hcode : m.data.code = RP_ACCESS_ACCEPT ∨ m.data.code = RP_ACCESS_REJECT ∨ m.data.code = RP_ACCOUNTING_RESPONSE
  · obtain ⟨m', hverify, -⟩ := verifyResponse_of_le md5 secret reqAuth hcode hmin hfits
    refine iff_of_true ⟨m', by simpa only [hauth, decide_true] using hverify⟩ ?_
    rcases hcode with h | h | h <;> · rw [h]; decide
  · have hchallenge : m.data.code = RP_ACCESS_CHALLENGE := by
      simp only [responseCodes, List.mem_cons, List.not_mem_nil, or_false] at hcodes
      tauto
    refine iff_of_false ?_ (not_not.mpr hchallenge)
    rintro ⟨m', hverify⟩
    rw [verifyResponse_of_code hcode] at hverify
    cases hverify

end

/-- The verdicts on a response that was received are right exactly if there are none, or it is no challenge, has
room for the secret, and is verified once or is authentic; a response that was built verifies, where it was built
and where it is received, exactly if it is no challenge. -/
theorem verdicts_right_iff (md5 : Bytes → Octets RadiusAuthenticatorLength) (secret : Bytes)
    (reqAuth : Octets RadiusAuthenticatorLength) :
    (∀ s memory behind rawMsg m, receive md5 s memory behind rawMsg = .ok m → m.data.code ∈ responseCodes →
      ∀ n, verdicts md5 secret reqAuth n m = .ok (List.replicate n (decide (Authentic md5 secret reqAuth rawMsg))) ↔
        n = 0 ∨ (m.data.code ≠ RP_ACCESS_CHALLENGE ∧ rawMsg.bytes.length + secret.length ≤ RadiusMaxPacketSize ∧
          (n = 1 ∨ Authentic md5 secret reqAuth rawMsg))) ∧
    ∀ time memory code requestId as m, respond md5 secret time memory code requestId reqAuth as = .ok (some m) →
      ((Verifies md5 secret reqAuth m ∧ ∀ s memory' behind m', receive md5 s memory' behind (.ofBytes m.data.bytes) = .ok m' →
          Verifies md5 secret reqAuth m') ↔ code ≠ RP_ACCESS_CHALLENGE) := by
  refine ⟨fun s memory behind rawMsg m hreceive hcodes n => ?_,
    fun time memory code requestId as m hrespond => ?_⟩
  · have hne : m.data.code ≠ RP_ACCOUNTING_REQUEST := by
      intro h
      rw [h] at hcodes
      exact absurd hcodes (by decide)
    obtain ⟨hmin, -, hdata⟩ := receive_data hreceive
    obtain ⟨hbytes, hlength, hauthenticator⟩ := hdata hne
    have hmin' : RadiusPacketHeaderSize ≤ m.data.length.toNat := hlength ▸ hmin
    have hauth : Authentic md5 secret reqAuth rawMsg ↔ m.data.authenticator = expectedDigest md5 secret reqAuth m := by
      rw [Authentic, ← hauthenticator, ← hbytes, ← expectedDigest_eq md5 secret reqAuth hmin']
      exact Subtype.ext_iff.symm
    have hcode : (m.data.code = RP_ACCESS_ACCEPT ∨ m.data.code = RP_ACCESS_REJECT ∨
        m.data.code = RP_ACCOUNTING_RESPONSE) ↔ m.data.code ≠ RP_ACCESS_CHALLENGE := by
      simp only [responseCodes, List.mem_cons, List.not_mem_nil, or_false] at hcodes
      rcases hcodes with h | h | h | h <;> · rw [h]; decide
    rw [decide_eq_decide.mpr hauth, verdicts_eq_replicate_iff hmin', hcode, hlength, hauth]
  · obtain ⟨hcodes, hcode, hmin, hfits, hauth⟩ := respond_spec hrespond
    rw [← hcode] at hcodes ⊢
    rw [verifies_iff hcodes hmin hfits hauth]
    refine ⟨fun h => h.1, fun h => ⟨h, fun s memory' behind m' hreceive => ?_⟩⟩
    have hlen := RawMessage.length_bytes hmin (by omega)
    have hsent : (RadiusData.ofBytes m.data.bytes).bytes = m.data.bytes := ofBytes_of_le (by rw [hlen]; omega)
    obtain ⟨-, hcode', hdata⟩ := receive_data hreceive
    have hcode'' : m'.data.code = m.data.code := by
      rw [hcode', hsent, RawMessage.bytes_eq hmin]
      rfl
    have hne : m'.data.code ≠ RP_ACCOUNTING_REQUEST := by
      intro hfour
      rw [← hcode'', hfour] at hcodes
      exact absurd hcodes (by decide)
    obtain ⟨hbytes, hlength, hauthenticator⟩ := hdata hne
    rw [hsent] at hbytes hlength hauthenticator
    rw [hlen] at hlength
    have hauth' : m'.data.authenticator = m.data.authenticator :=
      Subtype.ext (hauthenticator.trans (RawMessage.take_bytes_authenticator hmin))
    refine (verifies_iff (by rw [hcode'']; exact hcodes) (by rw [hlength]; exact hmin) (by rw [hlength]; exact hfits) ?_).mpr
      (by rw [hcode'']; exact h)
    rw [hauth', hauth, expectedDigest_eq md5 secret reqAuth hmin,
      expectedDigest_eq md5 secret reqAuth (by rw [hlength]; exact hmin), hbytes]

/-- An Access-Accept without attributes. -/
def acceptResponse (byte : UInt8) : RadiusData := ⟨[2, 0, 0, 20] ++ List.replicate 16 byte, by simp [RadiusMaxPacketSize]⟩

theorem receive_acceptResponse (byte : UInt8) :
    ∃ m, receive (fun _ => .replicate _ 0) [115] blank 0 (acceptResponse byte) = .ok m ∧ m.data.code = RP_ACCESS_ACCEPT := by
  have hlen : (acceptResponse byte).bytes.length = 20 := rfl
  have hword : (Bytes.word16 0 20).toNat = 20 := by decide
  obtain ⟨data, b, -, hcode, -, -, hreceive⟩ := receive_eq (fun _ => .replicate _ 0) [115] blank 0 (acceptResponse byte)
    (by rw [hlen]; decide) (hword.trans hlen.symm)
  have hcode' : data.code = RP_ACCESS_ACCEPT := hcode
  have hempty : (acceptResponse byte).bytes.drop RadiusPacketHeaderSize = [] := rfl
  refine ⟨{ blank with attributes := [], data }, ?_, hcode'⟩
  rw [hreceive, hempty, decodeAttributes]
  exact verifyRequest_of_ne _ _ (by rw [hcode']; decide)

theorem verdicts_right_acceptResponse :
    ∃ m, receive (fun _ => .replicate _ 0) [115] blank 0 (acceptResponse 0) = .ok m ∧
      verdicts (fun _ => .replicate _ 0) [115] (.replicate _ 9) 3 m =
        .ok (List.replicate 3 (decide (Authentic (fun _ => .replicate _ 0) [115] (.replicate _ 9) (acceptResponse 0)))) := by
  obtain ⟨m, hreceive, hcode⟩ := receive_acceptResponse 0
  refine ⟨m, hreceive, ((verdicts_right_iff _ _ _).1 _ _ _ _ m hreceive (by rw [hcode]; decide) 3).mpr
    (Or.inr ⟨by rw [hcode]; decide, by decide, Or.inr rfl⟩)⟩

/-- A forged Access-Accept is taken the second time. -/
theorem not_verdicts_right : ¬ ∀ (md5 : Bytes → Octets RadiusAuthenticatorLength) (secret : Bytes)
    (reqAuth : Octets RadiusAuthenticatorLength),
    (∀ s memory behind rawMsg m, receive md5 s memory behind rawMsg = .ok m → m.data.code ∈ responseCodes →
      ∀ n, verdicts md5 secret reqAuth n m = .ok (List.replicate n (decide (Authentic md5 secret reqAuth rawMsg)))) ∧
    ∀ time memory code requestId as m, respond md5 secret time memory code requestId reqAuth as = .ok (some m) →
      Verifies md5 secret reqAuth m ∧ ∀ s memory' behind m', receive md5 s memory' behind (.ofBytes m.data.bytes) = .ok m' →
        Verifies md5 secret reqAuth m' := by
  intro h
  obtain ⟨m, hreceive, hcode⟩ := receive_acceptResponse 1
  have hverdicts := (h (fun _ => .replicate _ 0) [115] (.replicate _ 9)).1 _ _ _ _ m hreceive (by rw [hcode]; decide) 2
  obtain ⟨hmin, -, hdata⟩ := receive_data hreceive
  obtain ⟨-, hlength, hauth⟩ := hdata (by rw [hcode]; decide)
  obtain ⟨m', hverify, hcode', hlength', hauth', hdigest⟩ := verifyResponse_of_le (fun _ => .replicate _ 0)
    [115] (.replicate _ 9) (Or.inl hcode) (hlength ▸ hmin) (by rw [hlength]; decide)
  obtain ⟨m'', hverify', -⟩ := verifyResponse_of_le (m := m') (fun _ => .replicate _ 0) [115] (.replicate _ 9)
    (by rw [hcode']; exact Or.inl hcode) (by rw [hlength']; exact hlength ▸ hmin) (by rw [hlength', hlength]; decide)
  simp only [verdicts, hverify, hverify', bind, Except.bind, pure, Except.pure, hauth', hdigest, decide_true,
    Except.ok.injEq, List.replicate, List.cons.injEq] at hverdicts
  -- the second verdict is true, and should be what the authenticator deserves
  have hforged : ¬ Authentic (fun _ => .replicate _ 0) [115] (.replicate _ 9) (acceptResponse 1) := by decide
  have hsecond := hverdicts.2.1
  rw [decide_eq_false hforged] at hsecond
  cases hsecond

end Vocal.Radius
