import Vocal.Stun.Answers

/-!
# The check of the message integrity

What the encoder signs and what the server checks. The encoder signs the bytes before the attribute while
the length in the header is 0; the server computes the HMAC of the same bytes with the length filled in, and
compares it with the first 20 bytes of the datagram, which are the header (`agrees_iff`).
-/

namespace Vocal.Stun

open Bytes

variable (computeHmac : Bytes → Bytes → Octets 20)

/-! ### The bytes under the HMAC -/

/-- What is in front of the message integrity, with this length in the header. -/
def covered (m : StunMessage) (msgLength : UInt16) : Bytes :=
  encodeHeader m.msgHdr msgLength ++ (m.front ++ (m.middle ++
    whenPresent m.hasReflectedFrom (encodeAtrAddress4 .ReflectedFrom m.reflectedFrom)))

/-- The length in the header of what is encoded. -/
def encodedLength (m : StunMessage) (password : StunAtrString) : UInt16 :=
  .ofNat (encodedBody computeHmac m password).length

theorem length_encodeHeader (hdr : StunMsgHdr) (len : UInt16) : (encodeHeader hdr len).length = 20 := by
  simp [encodeHeader, hdr.id.2]

theorem encoded_eq_covered (m : StunMessage) {password : StunAtrString} (hpos : 0 < password.sizeValue) :
    encodeHeader m.msgHdr (.ofNat (encodedBody computeHmac m password).length) ++
        encodedBody computeHmac m password =
      covered m (encodedLength computeHmac m password) ++
        encodeAtrIntegrity (integrityOf computeHmac m password) := by
  have hclosing : closing m.hasReflectedFrom m.reflectedFrom (0 < password.sizeValue)
      (integrityOf computeHmac m password) =
      whenPresent m.hasReflectedFrom (encodeAtrAddress4 .ReflectedFrom m.reflectedFrom) ++
        encodeAtrIntegrity (integrityOf computeHmac m password) := by
    rw [closing, decide_eq_true hpos]
    rfl
  rw [covered, encodedLength, List.append_assoc, List.append_assoc, List.append_assoc, ← hclosing]
  rfl

/-- The header happens to be the HMAC that the server computes. -/
def HeaderMatches (m : StunMessage) (password : StunAtrString) : Prop :=
  encodeHeader m.msgHdr (encodedLength computeHmac m password) =
    (computeHmac (ascii "1234") (covered m (encodedLength computeHmac m password))).1

theorem integrityChecks_encoded (m : StunMessage) {password : StunAtrString}
    (hpos : 0 < password.sizeValue) :
    integrityChecks computeHmac (encodeHeader m.msgHdr (.ofNat (encodedBody computeHmac m password).length) ++
      encodedBody computeHmac m password) = true ↔ HeaderMatches computeHmac m password := by
  have hheader := length_encodeHeader m.msgHdr (encodedLength computeHmac m password)
  have hintegrity : (encodeAtrIntegrity (integrityOf computeHmac m password)).length = 24 := by
    simp [encodeAtrIntegrity]
  have hfront : ∀ rest, (covered m (encodedLength computeHmac m password) ++ rest).take 20 =
      encodeHeader m.msgHdr (encodedLength computeHmac m password) := by
    intro rest
    rw [covered, List.append_assoc, ← hheader, List.take_left]
  have hcovered : (covered m (encodedLength computeHmac m password) ++
      encodeAtrIntegrity (integrityOf computeHmac m password)).length - 20 - 4 =
      (covered m (encodedLength computeHmac m password)).length := by
    rw [List.length_append, hintegrity]
    omega
  rw [encoded_eq_covered computeHmac m hpos, integrityChecks, decide_eq_true_eq, hfront, hcovered,
    List.take_left, HeaderMatches]

/-! ### The answer to a user with a password -/

theorem cString_restored (s : StunAtrString) : cString s.restored.value.1 = cString s.text := by
  show cString (s.text ++ List.replicate _ 0) = _
  rw [cString, cString, List.takeWhile_append]
  split
  · rename_i hall
    rw [List.takeWhile_replicate]
    simpa using ((List.takeWhile_sublist _).eq_of_length hall).symm
  · rfl

theorem bindResponse_type (env : Surroundings) (req : StunMessage) («from» myAddr altAddr : StunAddress4)
    (resp : StunMessage) :
    (bindResponse computeHmac env req «from» myAddr altAddr resp).resp.msgHdr.msgType = BindResponseMsg ∧
    (bindResponse computeHmac env req «from» myAddr altAddr resp).resp.hasMessageIntegrity =
      resp.hasMessageIntegrity := by
  simp only [bindResponse]
  cases hname : (req.hasUsername && decide (0 < req.username.sizeValue)) <;>
    cases hlong : (req.hasUsername && decide (64 < req.username.sizeValue)) <;> simp

/-- The server's check accepts the datagram. -/
def Verified (env : Surroundings) (buf : Bytes) («from» myAddr altAddr : StunAddress4) : Prop :=
  ∃ ans, stunServerProcessMsg computeHmac env buf «from» myAddr altAddr = some ans ∧
    ans.resp.msgHdr.msgType = BindResponseMsg ∧ ans.resp.hasMessageIntegrity = true

/-- The server answers the datagram with an error. -/
def Refused (env : Surroundings) (buf : Bytes) («from» myAddr altAddr : StunAddress4) : Prop :=
  ∃ ans, stunServerProcessMsg computeHmac env buf «from» myAddr altAddr = some ans ∧
    ans.resp.msgHdr.msgType = BindErrorResponseMsg

variable {computeHmac} {env : Surroundings} {buf : Bytes} {req m : StunMessage} {password : StunAtrString}
  {«from» myAddr altAddr : StunAddress4}

theorem Verified.parsed (h : Verified computeHmac env buf «from» myAddr altAddr) :
    ∃ req, stunParseMessage buf = .ok req := by
  obtain ⟨ans, hans, -⟩ := h
  exact parsed_of_answer hans

theorem Refused.parsed (h : Refused computeHmac env buf «from» myAddr altAddr) :
    ∃ req, stunParseMessage buf = .ok req := by
  obtain ⟨ans, hans, -⟩ := h
  exact parsed_of_answer hans

/-- The answer to a binding request of the user that is known is decided by the check alone. -/
theorem answer_known (hbind : req.msgHdr.msgType = BindRequestMsg) (hintegrity : req.hasMessageIntegrity = true)
    (huser : req.hasUsername = true) (htest : cString req.username.value.1 = ascii "test") :
    answer computeHmac env buf req «from» myAddr altAddr =
      if integrityChecks computeHmac buf then
        some (bindResponse computeHmac env req «from» myAddr altAddr
          { hasMessageIntegrity := true, hasUsername := true, username := req.username })
      else some { resp := stunCreateErrorResponse {} 4 3 "Unknown username. Try test with password 1234" } := by
  have hsecret : req.msgHdr.msgType ≠ SharedSecretRequestMsg := by
    rw [hbind]
    decide
  rw [answer, if_neg hsecret, if_pos hbind, hintegrity, huser, if_neg (by decide), if_neg (by decide),
    if_pos htest]

theorem bind_of_answer {ans : Answer} (hans : answer computeHmac env buf req «from» myAddr altAddr = some ans)
    (htype : ans.resp.msgHdr.msgType ≠ SharedSecretResponseMsg) : req.msgHdr.msgType = BindRequestMsg := by
  rcases answer_cases hans with ⟨-, rfl⟩ | ⟨hbind, -⟩
  · exact absurd rfl htype
  · exact hbind

theorem verified_iff (hparse : stunParseMessage buf = .ok req) (hintegrity : req.hasMessageIntegrity = true)
    (huser : req.hasUsername = true) (htest : cString req.username.value.1 = ascii "test") :
    Verified computeHmac env buf «from» myAddr altAddr ↔
      req.msgHdr.msgType = BindRequestMsg ∧ integrityChecks computeHmac buf = true := by
  rw [Verified, stunServerProcessMsg, hparse]
  constructor
  · rintro ⟨ans, hans, htype, hhas⟩
    have hbind : req.msgHdr.msgType = BindRequestMsg := bind_of_answer hans (by rw [htype]; decide)
    refine ⟨hbind, ?_⟩
    by_contra hcheck
    simp only [answer_known hbind hintegrity huser htest, if_neg hcheck] at hans
    cases hans
    cases hhas
  · rintro ⟨hbind, hcheck⟩
    obtain ⟨htype, hhas⟩ := bindResponse_type computeHmac env req «from» myAddr altAddr
      { hasMessageIntegrity := true, hasUsername := true, username := req.username }
    simp only [answer_known hbind hintegrity huser htest, if_pos hcheck]
    exact ⟨_, rfl, htype, hhas⟩

theorem refused_iff (hparse : stunParseMessage buf = .ok req) (hintegrity : req.hasMessageIntegrity = true)
    (huser : req.hasUsername = true) (htest : cString req.username.value.1 = ascii "test") :
    Refused computeHmac env buf «from» myAddr altAddr ↔
      req.msgHdr.msgType = BindRequestMsg ∧ ¬integrityChecks computeHmac buf = true := by
  rw [Refused, stunServerProcessMsg, hparse]
  constructor
  · rintro ⟨ans, hans, htype⟩
    have hbind : req.msgHdr.msgType = BindRequestMsg := bind_of_answer hans (by rw [htype]; decide)
    refine ⟨hbind, fun hcheck => ?_⟩
    simp only [answer_known hbind hintegrity huser htest, if_pos hcheck] at hans
    cases hans
    rw [(bindResponse_type computeHmac env req «from» myAddr altAddr _).1] at htype
    cases htype
  · rintro ⟨hbind, hcheck⟩
    simp only [answer_known hbind hintegrity huser htest, if_neg hcheck]
    exact ⟨_, rfl, rfl⟩

/-! ### Agreement -/

/-- What was encoded with the password of the user is accepted, and what was encoded with a key that gives
another HMAC is answered with an error. -/
structure Agrees (computeHmac : Bytes → Bytes → Octets 20) (env : Surroundings) (m : StunMessage)
    (password : StunAtrString) (buf : Bytes) («from» myAddr altAddr : StunAddress4) : Prop where
  accepts : password.text = ascii "1234" → Verified computeHmac env buf «from» myAddr altAddr
  refuses : computeHmac password.text (covered m 0) ≠ computeHmac (ascii "1234") (covered m 0) →
    Refused computeHmac env buf «from» myAddr altAddr

/-- A binding request without an error code and unknown attributes, with strings that leave room. -/
structure Readable (m : StunMessage) : Prop where
  bind : m.msgHdr.msgType = BindRequestMsg
  fits : m.Fits
  error : m.hasErrorCode = false
  unknown : m.hasUnknownAttributes = false

/-- The requests for which encoder and server agree: readable ones whose header happens to be the HMAC if
the password is right, and happens not to be if it is wrong. -/
structure Agreeable (computeHmac : Bytes → Bytes → Octets 20) (m : StunMessage) (password : StunAtrString) :
    Prop where
  own : password.text = ascii "1234" → Readable m ∧ HeaderMatches computeHmac m password
  other : computeHmac password.text (covered m 0) ≠ computeHmac (ascii "1234") (covered m 0) →
    Readable m ∧ ¬HeaderMatches computeHmac m password

theorem reread_verdict (haligned : m.Aligned) (hfits : m.Fits) (herror : m.hasErrorCode = false)
    (hunknown : m.hasUnknownAttributes = false) (huser : m.hasUsername = true)
    (htest : cString m.username.text = ascii "test") (hpos : 0 < password.sizeValue)
    (hbuf : buf = encodeHeader m.msgHdr (.ofNat (encodedBody computeHmac m password).length) ++
      encodedBody computeHmac m password) :
    (Verified computeHmac env buf «from» myAddr altAddr ↔
      m.msgHdr.msgType = BindRequestMsg ∧ HeaderMatches computeHmac m password) ∧
    (Refused computeHmac env buf «from» myAddr altAddr ↔
      m.msgHdr.msgType = BindRequestMsg ∧ ¬HeaderMatches computeHmac m password) := by
  subst hbuf
  have hparse := parse_reread computeHmac haligned hfits herror hunknown password
  have hintegrity : (m.reread computeHmac password).hasMessageIntegrity = true :=
    (Bool.false_or _).trans (decide_eq_true hpos)
  have hhas : (m.reread computeHmac password).hasUsername = true := (Bool.false_or _).trans huser
  have hname : (m.reread computeHmac password).username = m.username.restored := if_pos huser
  have hknown : cString (m.reread computeHmac password).username.value.1 = ascii "test" := by
    rw [hname, cString_restored, htest]
  rw [verified_iff hparse hintegrity hhas hknown, refused_iff hparse hintegrity hhas hknown,
    integrityChecks_encoded computeHmac m hpos]
  exact ⟨Iff.rfl, Iff.rfl⟩

theorem readable_of_parsed (haligned : m.Aligned)
    (hparsed : ∃ req, stunParseMessage (encodeHeader m.msgHdr (.ofNat (encodedBody computeHmac m password).length) ++
      encodedBody computeHmac m password) = .ok req) :
    (m.Fits ∧ m.hasErrorCode = false ∧ m.hasUnknownAttributes = false) ∨
      (m.hasErrorCode = true ∧ m.hasUnknownAttributes = true) := by
  obtain ⟨req, hparse⟩ := hparsed
  obtain ⟨hfits, hrest⟩ := parse_encoded_ok computeHmac haligned hparse
  have hboth := middle_both computeHmac hrest
  cases herror : m.hasErrorCode with
  | false => exact Or.inl ⟨hfits, rfl, hboth ▸ herror⟩
  | true => exact Or.inr ⟨rfl, hboth ▸ herror⟩

/-- Encoder and server agree on the agreeable requests, and on no others without both an error code and
unknown attributes. -/
theorem agrees_iff (hbuf : stunEncodeMessage computeHmac m password = some buf) (hpos : 0 < password.sizeValue)
    (huser : m.hasUsername = true) (htest : cString m.username.text = ascii "test") :
    (Agreeable computeHmac m password → Agrees computeHmac env m password buf «from» myAddr altAddr) ∧
    (Agrees computeHmac env m password buf «from» myAddr altAddr →
      Agreeable computeHmac m password ∨ (m.hasErrorCode = true ∧ m.hasUnknownAttributes = true)) := by
  obtain ⟨haligned, hbytes⟩ := (stunEncodeMessage_eq_some_iff computeHmac).mp hbuf
  constructor
  · intro h
    constructor
    · intro hown
      obtain ⟨hread, hmatch⟩ := h.own hown
      exact (reread_verdict haligned hread.fits hread.error hread.unknown huser htest hpos hbytes).1.mpr
        ⟨hread.bind, hmatch⟩
    · intro hother
      obtain ⟨hread, hmatch⟩ := h.other hother
      exact (reread_verdict haligned hread.fits hread.error hread.unknown huser htest hpos hbytes).2.mpr
        ⟨hread.bind, hmatch⟩
  · intro h
    by_cases hboth : m.hasErrorCode = true ∧ m.hasUnknownAttributes = true
    · exact Or.inr hboth
    · refine Or.inl ⟨fun hown => ?_, fun hother => ?_⟩
      · have hverified := h.accepts hown
        obtain ⟨hfits, herror, hunknown⟩ :=
          (readable_of_parsed haligned (hbytes ▸ hverified.parsed)).resolve_right hboth
        obtain ⟨hbind, hmatch⟩ :=
          (reread_verdict haligned hfits herror hunknown huser htest hpos hbytes).1.mp hverified
        exact ⟨⟨hbind, hfits, herror, hunknown⟩, hmatch⟩
      · have hrefused := h.refuses hother
        obtain ⟨hfits, herror, hunknown⟩ :=
          (readable_of_parsed haligned (hbytes ▸ hrefused.parsed)).resolve_right hboth
        obtain ⟨hbind, hmatch⟩ :=
          (reread_verdict haligned hfits herror hunknown huser htest hpos hbytes).2.mp hrefused
        exact ⟨⟨hbind, hfits, herror, hunknown⟩, hmatch⟩

theorem toNat_size_le (text : Bytes) (h : text.length ≤ STUN_MAX_STRING) :
    (UInt16.ofNat text.length).toNat ≤ STUN_MAX_STRING := by
  have hlt : text.length < UInt16.size := by
    simp only [STUN_MAX_STRING] at h
    show _ < 65536
    omega
  rw [UInt16.toNat_ofNat_of_lt' hlt]
  exact h

/-- A string attribute with this text. -/
def shortString (text : Bytes) (h : text.length ≤ STUN_MAX_STRING) : StunAtrString where
  value := Octets.padded _ text h
  sizeValue := .ofNat text.length
  bound := toNat_size_le text h

/-- A binding request of the user that is known. -/
def testRequest : StunMessage :=
  { msgHdr := { msgType := BindRequestMsg }, hasUsername := true,
    username := shortString (ascii "test") (by decide) }

/-- The password of that user. -/
def testPassword : StunAtrString := shortString (ascii "1234") (by decide)

theorem agrees_iff_test :
    ∃ buf, stunEncodeMessage (fun _ _ => .replicate 20 0) testRequest testPassword = some buf ∧
      (Agreeable (fun _ _ => .replicate 20 0) testRequest testPassword →
        Agrees (fun _ _ => .replicate 20 0) ⟨0, 0, 0⟩ testRequest testPassword buf ⟨5000, 1⟩ ⟨3478, 2⟩ ⟨3479, 3⟩) ∧
      (Agrees (fun _ _ => .replicate 20 0) ⟨0, 0, 0⟩ testRequest testPassword buf ⟨5000, 1⟩ ⟨3478, 2⟩ ⟨3479, 3⟩ →
        Agreeable (fun _ _ => .replicate 20 0) testRequest testPassword ∨
          (testRequest.hasErrorCode = true ∧ testRequest.hasUnknownAttributes = true)) :=
  ⟨_, rfl, agrees_iff rfl (by decide) rfl (by decide)⟩

/-- The request that is encoded with the password of the user is refused, here with an HMAC of 20 zeros,
because the header is not the HMAC. -/
theorem not_agrees_test :
    ∃ buf, stunEncodeMessage (fun _ _ => .replicate 20 0) testRequest testPassword = some buf ∧
      testPassword.text = ascii "1234" ∧
      ¬Agrees (fun _ _ => .replicate 20 0) ⟨0, 0, 0⟩ testRequest testPassword buf ⟨5000, 1⟩ ⟨3478, 2⟩
        ⟨3479, 3⟩ := by
  refine ⟨_, rfl, by decide, fun h => ?_⟩
  obtain ⟨ans, hans, -, hhas⟩ := h.accepts (by decide)
  obtain rfl := Option.some.inj hans
  cases hhas

end Vocal.Stun
