import Vocal.Stun.RoundTrip
import Vocal.Stun.Server

/-!
# What the server answers

Which requests the server answers as it should (`answersRight_iff`), and which of them it answers from the
right socket (`honest_iff`).
-/

namespace Vocal.Stun

open Bytes

variable {computeHmac : Bytes → Bytes → Octets 20} {env : Surroundings} {buf : Bytes} {req : StunMessage}
  {«from» myAddr altAddr : StunAddress4} {ans : Answer}

/-! ### Requests that were parsed -/

/-- What holds of every message that was parsed. -/
structure ParsedMessage (m : StunMessage) : Prop where
  no_response : m.hasResponseAddress = false → m.responseAddress = {}
  username : m.hasUsername = true → m.username.sizeValue.toNat % 4 = 0

theorem ParsedMessage.parseAttribute {msg msg₁ : StunMessage} {type : UInt16} {len : Nat} {body : Bytes}
    (h : parseAttribute msg type len body = .ok msg₁) (hmsg : ParsedMessage msg) : ParsedMessage msg₁ := by
  rw [Stun.parseAttribute] at h
  cases hof : AtrType.ofCode type with
  | none =>
    rw [hof] at h
    simp only at h
    split at h
    · cases h
    · cases h
      exact hmsg
  | some t =>
    rw [hof] at h
    cases t with
    | ResponseAddress =>
      obtain ⟨a, -, h⟩ := bind_eq_ok h
      cases h
      refine ⟨fun h => ?_, hmsg.username⟩
      cases h
    | Username =>
      obtain ⟨a, ha, h⟩ := bind_eq_ok h
      cases h
      refine ⟨hmsg.no_response, fun _ => ?_⟩
      obtain ⟨hlt, hfour⟩ := stunParseAtrString_ok ha
      rw [stunParseAtrString_size ha]
      exact hfour
    | _ =>
      obtain ⟨a, -, h⟩ := bind_eq_ok h
      cases h
      exact ⟨hmsg.no_response, hmsg.username⟩

theorem parsedMessage_of_parse (h : stunParseMessage buf = .ok req) : ParsedMessage req := by
  obtain ⟨msgHdr, -, hrest⟩ := stunParseMessage_ok h
  refine parseRest_induction (R := fun _ msg m' => ParsedMessage msg → ParsedMessage m') ?_ ?_ hrest ?_
  · exact fun _ hm => hm
  · exact fun _ _ _ _ _ _ _ hattr hnext hmsg => hnext (hmsg.parseAttribute hattr)
  · exact ⟨fun _ => rfl, fun h => by cases h⟩

/-! ### Answers -/

theorem stunEncodeMessage_isSome_iff (m : StunMessage) (password : StunAtrString) :
    (stunEncodeMessage computeHmac m password).isSome ↔ m.Aligned := by
  rw [Option.isSome_iff_exists]
  constructor
  · rintro ⟨buf, hbuf⟩
    exact ((stunEncodeMessage_eq_some_iff computeHmac).mp hbuf).1
  · intro haligned
    exact ⟨_, (stunEncodeMessage_eq_some_iff computeHmac).mpr ⟨haligned, rfl⟩⟩

/-- The answer has the id of the request, goes where the request says, has its user name and is encoded
without an assertion that fails. -/
structure AnswersRight (computeHmac : Bytes → Bytes → Octets 20) (req : StunMessage) («from» : StunAddress4)
    (ans : Answer) : Prop where
  id : ans.resp.msgHdr.id = req.msgHdr.id
  destination :
    ans.destination = some (if req.hasResponseAddress then req.responseAddress.ipv4 else «from»)
  username : req.hasUsername = true → ans.resp.hasUsername = true ∧
    ans.resp.username.sizeValue = req.username.sizeValue ∧ ans.resp.username.text = req.username.text
  encodes : (stunEncodeMessage computeHmac ans.resp ans.hmacPassword).isSome

/-- The requests that are answered right: binding requests with a response address that has a port, if
they have one, and without a user name or with one that passed the check. -/
structure Answerable (computeHmac : Bytes → Bytes → Octets 20) (buf : Bytes) (req : StunMessage)
    («from» : StunAddress4) : Prop where
  bind : req.msgHdr.msgType = BindRequestMsg
  response : req.hasResponseAddress = true →
    req.responseAddress.ipv4.port ≠ 0 ∨ req.responseAddress.ipv4 = «from»
  username : (req.hasMessageIntegrity = false ∧ req.hasUsername = false) ∨
    (req.hasMessageIntegrity = true ∧ req.hasUsername = true ∧
      cString req.username.value.1 = ascii "test" ∧ integrityChecks computeHmac buf = true)

theorem bindResponse_spec (computeHmac : Bytes → Bytes → Octets 20) (env : Surroundings) (req : StunMessage)
    («from» myAddr altAddr : StunAddress4) (resp : StunMessage) :
    (bindResponse computeHmac env req «from» myAddr altAddr resp).resp.msgHdr.id = req.msgHdr.id ∧
    (bindResponse computeHmac env req «from» myAddr altAddr resp).resp.hasUsername =
      (resp.hasUsername || (req.hasUsername && decide (0 < req.username.sizeValue))) ∧
    (bindResponse computeHmac env req «from» myAddr altAddr resp).resp.username =
      (if req.hasUsername && 0 < req.username.sizeValue then copyValue resp.username req.username
        else resp.username) ∧
    (bindResponse computeHmac env req «from» myAddr altAddr resp).resp.hasPassword = resp.hasPassword := by
  simp only [bindResponse]
  cases hname : (req.hasUsername && decide (0 < req.username.sizeValue)) <;>
    cases hlong : (req.hasUsername && decide (64 < req.username.sizeValue)) <;> simp

theorem destination_iff (hreq : ParsedMessage req) (resp : StunMessage) :
    (bindResponse computeHmac env req «from» myAddr altAddr resp).destination =
        some (if req.hasResponseAddress then req.responseAddress.ipv4 else «from») ↔
      (req.hasResponseAddress = true →
        req.responseAddress.ipv4.port ≠ 0 ∨ req.responseAddress.ipv4 = «from») := by
  show some (if req.responseAddress.ipv4.port = 0 then «from» else req.responseAddress.ipv4) = _ ↔ _
  cases hresponse : req.hasResponseAddress with
  | false =>
    rw [hreq.no_response hresponse]
    simp
  | true =>
    by_cases hport : req.responseAddress.ipv4.port = 0
    · simp [hport, eq_comm]
    · simp [hport]

theorem answersRight_plain_iff (hreq : ParsedMessage req) :
    AnswersRight computeHmac req «from» (bindResponse computeHmac env req «from» myAddr altAddr {}) ↔
      (req.hasResponseAddress = true →
        req.responseAddress.ipv4.port ≠ 0 ∨ req.responseAddress.ipv4 = «from») ∧ req.hasUsername = false := by
  obtain ⟨hid, hhas, hname, hpass⟩ := bindResponse_spec computeHmac env req «from» myAddr altAddr {}
  constructor
  · intro h
    refine ⟨(destination_iff hreq {}).mp h.destination, ?_⟩
    by_contra huser
    rw [Bool.not_eq_false] at huser
    obtain ⟨hecho, hsize, -⟩ := h.username huser
    rw [hhas, huser] at hecho
    have hpos : 0 < req.username.sizeValue := by simpa using hecho
    rw [hname, huser, if_pos (by simpa using hpos)] at hsize
    have hzero : (0 : UInt16) = req.username.sizeValue := hsize
    rw [← hzero] at hpos
    exact absurd hpos (by decide)
  · rintro ⟨hresponse, huser⟩
    refine ⟨hid, (destination_iff hreq {}).mpr hresponse, fun h => absurd h (by simp [huser]), ?_⟩
    rw [stunEncodeMessage_isSome_iff]
    refine ⟨fun h => ?_, fun h => ?_⟩
    · rw [hhas, huser] at h
      cases h
    · rw [hpass] at h
      cases h

theorem text_copyValue_self (s : StunAtrString) : copyValue s s = s := by
  have hvalue : (copyValue s s).value = s.value := by
    apply Subtype.ext
    show s.text ++ s.value.1.drop s.text.length = s.value.1
    rw [length_text]
    exact List.take_append_drop _ _
  obtain ⟨value, sizeValue, bound⟩ := s
  exact congrArg (StunAtrString.mk · sizeValue bound) hvalue

theorem answersRight_checked_iff (hreq : ParsedMessage req) (huser : req.hasUsername = true) :
    AnswersRight computeHmac req «from» (bindResponse computeHmac env req «from» myAddr altAddr
        { hasMessageIntegrity := true, hasUsername := true, username := req.username }) ↔
      (req.hasResponseAddress = true →
        req.responseAddress.ipv4.port ≠ 0 ∨ req.responseAddress.ipv4 = «from») := by
  obtain ⟨hid, hhas, hname, hpass⟩ := bindResponse_spec computeHmac env req «from» myAddr altAddr
    { hasMessageIntegrity := true, hasUsername := true, username := req.username }
  have hsame : (bindResponse computeHmac env req «from» myAddr altAddr
      { hasMessageIntegrity := true, hasUsername := true, username := req.username }).resp.username =
      req.username := by
    rw [hname, text_copyValue_self, ite_self]
  rw [← destination_iff hreq { hasMessageIntegrity := true, hasUsername := true, username := req.username }]
  constructor
  · exact fun h => h.destination
  · intro hdest
    refine ⟨hid, hdest, fun _ => ⟨hhas, by rw [hsame], by rw [hsame]⟩, ?_⟩
    rw [stunEncodeMessage_isSome_iff]
    refine ⟨fun _ => ?_, fun h => ?_⟩
    · rw [hsame]
      exact hreq.username huser
    · rw [hpass] at h
      cases h

theorem not_answersRight_of_no_destination (h : ans.destination = none) :
    ¬AnswersRight computeHmac req «from» ans := by
  intro hright
  have := hright.destination
  rw [h] at this
  cases this

theorem parsed_of_answer (hans : stunServerProcessMsg computeHmac env buf «from» myAddr altAddr = some ans) :
    ∃ req, stunParseMessage buf = .ok req := by
  rw [stunServerProcessMsg] at hans
  split at hans
  · exact ⟨_, ‹_›⟩
  · cases hans

/-- The answers: the one to a shared secret request, the binding response without the check and after it, and
the two errors. -/
theorem answer_cases (hans : answer computeHmac env buf req «from» myAddr altAddr = some ans) :
    (req.msgHdr.msgType = SharedSecretRequestMsg ∧
      ans = { resp := stunCreateSharedSecretResponse computeHmac env req «from» {} }) ∨
    req.msgHdr.msgType = BindRequestMsg ∧
      (req.hasMessageIntegrity = false ∧ ans = bindResponse computeHmac env req «from» myAddr altAddr {} ∨
      req.hasMessageIntegrity = true ∧
        (req.hasUsername = false ∧
          ans = { resp := stunCreateErrorResponse {} 4 32 "No UserName and contains MessageIntegrity" } ∨
        req.hasUsername = true ∧
          (cString req.username.value.1 ≠ ascii "test" ∧
            ans = bindResponse computeHmac env req «from» myAddr altAddr {} ∨
          cString req.username.value.1 = ascii "test" ∧
            (integrityChecks computeHmac buf = true ∧
              ans = bindResponse computeHmac env req «from» myAddr altAddr
                { hasMessageIntegrity := true, hasUsername := true, username := req.username } ∨
            ¬integrityChecks computeHmac buf = true ∧
              ans = { resp :=
                stunCreateErrorResponse {} 4 3 "Unknown username. Try test with password 1234" })))) := by
  rw [answer] at hans
  split at hans
  · rename_i hsecret
    exact Or.inl ⟨hsecret, (Option.some.inj hans).symm⟩
  · split at hans
    · rename_i hbind
      refine Or.inr ⟨hbind, ?_⟩
      cases hintegrity : req.hasMessageIntegrity with
      | false =>
        rw [hintegrity] at hans
        exact Or.inl ⟨rfl, (Option.some.inj hans).symm⟩
      | true =>
        refine Or.inr ⟨rfl, ?_⟩
        cases huser : req.hasUsername with
        | false =>
          rw [hintegrity, huser] at hans
          exact Or.inl ⟨rfl, (Option.some.inj hans).symm⟩
        | true =>
          rw [hintegrity, huser, if_neg (by decide), if_neg (by decide)] at hans
          refine Or.inr ⟨rfl, ?_⟩
          split at hans
          · rename_i htest
            refine Or.inr ⟨htest, ?_⟩
            split at hans
            · exact Or.inl ⟨‹_›, (Option.some.inj hans).symm⟩
            · exact Or.inr ⟨‹_›, (Option.some.inj hans).symm⟩
          · exact Or.inl ⟨‹_›, (Option.some.inj hans).symm⟩
    · cases hans

theorem Answerable.plain (h : Answerable computeHmac buf req «from») (hintegrity : req.hasMessageIntegrity = false) :
    req.hasUsername = false := by
  rcases h.username with ⟨-, huser⟩ | ⟨hyes, -⟩
  · exact huser
  · rw [hintegrity] at hyes
    cases hyes

theorem Answerable.checked (h : Answerable computeHmac buf req «from») (hintegrity : req.hasMessageIntegrity = true) :
    req.hasUsername = true ∧ cString req.username.value.1 = ascii "test" ∧
      integrityChecks computeHmac buf = true := by
  rcases h.username with ⟨hno, -⟩ | ⟨-, hchecked⟩
  · rw [hintegrity] at hno
    cases hno
  · exact hchecked

/-- Exactly the answerable requests are answered right. -/
theorem answersRight_iff (hparse : stunParseMessage buf = .ok req)
    (hans : stunServerProcessMsg computeHmac env buf «from» myAddr altAddr = some ans) :
    AnswersRight computeHmac req «from» ans ↔ Answerable computeHmac buf req «from» := by
  have hreq := parsedMessage_of_parse hparse
  rw [stunServerProcessMsg, hparse] at hans
  rcases answer_cases hans with ⟨hsecret, rfl⟩ | ⟨hbind, ⟨hintegrity, rfl⟩ | ⟨hintegrity, hrest⟩⟩
  · refine iff_of_false (not_answersRight_of_no_destination rfl) fun h => ?_
    have hbind := h.bind
    rw [hsecret] at hbind
    cases hbind
  · rw [answersRight_plain_iff hreq]
    constructor
    · exact fun h => ⟨hbind, h.1, Or.inl ⟨hintegrity, h.2⟩⟩
    · exact fun h => ⟨h.response, h.plain hintegrity⟩
  rcases hrest with ⟨huser, rfl⟩ | ⟨huser, ⟨htest, rfl⟩ | ⟨htest, ⟨hcheck, rfl⟩ | ⟨hcheck, rfl⟩⟩⟩
  · refine iff_of_false (not_answersRight_of_no_destination rfl) fun h => ?_
    have hyes := (h.checked hintegrity).1
    rw [huser] at hyes
    cases hyes
  · rw [answersRight_plain_iff hreq]
    refine iff_of_false (fun h => ?_) fun h => htest (h.checked hintegrity).2.1
    have hno := h.2
    rw [huser] at hno
    cases hno
  · rw [answersRight_checked_iff hreq huser]
    exact ⟨fun h => ⟨hbind, h, Or.inr ⟨hintegrity, huser, htest, hcheck⟩⟩, fun h => h.response⟩
  · refine iff_of_false (not_answersRight_of_no_destination rfl) fun h => ?_
    exact hcheck (h.checked hintegrity).2.2

/-- A request of this type without attributes. -/
def bareRequest (type : UInt8) : Bytes := [0, type, 0, 0] ++ List.replicate 16 0

theorem answersRight_iff_bare :
    ∃ req ans, stunParseMessage (bareRequest 1) = .ok req ∧
      stunServerProcessMsg (fun _ _ => .replicate 20 0) ⟨0, 0, 0⟩ (bareRequest 1) ⟨5000, 1⟩ ⟨3478, 2⟩ ⟨3479, 3⟩ =
        some ans ∧
      (AnswersRight (fun _ _ => .replicate 20 0) req ⟨5000, 1⟩ ans ↔
        Answerable (fun _ _ => .replicate 20 0) (bareRequest 1) req ⟨5000, 1⟩) :=
  ⟨_, _, rfl, rfl, answersRight_iff rfl rfl⟩

/-- A shared secret request: the user name has 67 bytes, and `encodeAtrString` asserts that they are a
multiple of 4. -/
theorem shared_secret_not_encoded :
    ∃ req ans, stunParseMessage (bareRequest 2) = .ok req ∧
      stunServerProcessMsg (fun _ _ => .replicate 20 0) ⟨0, 0, 0⟩ (bareRequest 2) ⟨5000, 1⟩ ⟨3478, 2⟩ ⟨3479, 3⟩ =
        some ans ∧
      stunEncodeMessage (fun _ _ => .replicate 20 0) ans.resp ans.hmacPassword = none ∧
      ¬AnswersRight (fun _ _ => .replicate 20 0) req ⟨5000, 1⟩ ans := by
  refine ⟨_, _, rfl, rfl, rfl, fun h => ?_⟩
  have := h.destination
  cases this

/-! ### The socket of an answer -/

/-- The answer says where it comes from: its source address is that of the socket, which differs from the
receiving one as it was requested, and its changed address differs in both. -/
structure Honest (info : StunServerInfo) (recv : Socket) (req : StunMessage) (sent : Sent) : Prop where
  source : sent.resp.sourceAddress.ipv4 = info.address sent.socket
  changeIp : (info.address sent.socket).addr ≠ (info.address recv).addr ↔
    req.changeRequest.value &&& ChangeIpFlag ≠ 0
  changePort : (info.address sent.socket).port ≠ (info.address recv).port ↔
    req.changeRequest.value &&& ChangePortFlag ≠ 0
  changedIp : sent.resp.changedAddress.ipv4.addr ≠ (info.address recv).addr
  changedPort : sent.resp.changedAddress.ipv4.port ≠ (info.address recv).port

theorem bindResponse_addresses (computeHmac : Bytes → Bytes → Octets 20) (env : Surroundings)
    (req : StunMessage) («from» myAddr altAddr : StunAddress4) (resp : StunMessage) :
    (bindResponse computeHmac env req «from» myAddr altAddr resp).resp.sourceAddress.ipv4 =
      { port := if req.changeRequest.value &&& ChangePortFlag ≠ 0 then altAddr.port else myAddr.port
        addr := if req.changeRequest.value &&& ChangeIpFlag ≠ 0 then altAddr.addr else myAddr.addr } ∧
    (bindResponse computeHmac env req «from» myAddr altAddr resp).resp.changedAddress.ipv4 = altAddr := by
  simp only [bindResponse, decide_eq_true_eq]
  cases hname : (req.hasUsername && decide (0 < req.username.sizeValue)) <;>
    cases hlong : (req.hasUsername && decide (64 < req.username.sizeValue)) <;> simp

theorem answer_source {computeHmac : Bytes → Bytes → Octets 20}
    (hans : answer computeHmac env buf req «from» myAddr altAddr = some ans)
    (hsource : ans.resp.hasSourceAddress = true) :
    ∃ resp, ans = bindResponse computeHmac env req «from» myAddr altAddr resp := by
  rcases answer_cases hans with ⟨-, rfl⟩ | ⟨-, ⟨-, rfl⟩ | ⟨-, ⟨-, rfl⟩ | ⟨-, ⟨-, rfl⟩ | ⟨-, ⟨-, rfl⟩ | ⟨-, rfl⟩⟩⟩⟩⟩
  · cases hsource
  · exact ⟨_, rfl⟩
  · cases hsource
  · exact ⟨_, rfl⟩
  · exact ⟨_, rfl⟩
  · cases hsource

theorem sent_addresses {info : StunServerInfo} {recv : Socket} {dest : StunAddress4} {sent : Sent}
    (hparse : stunParseMessage buf = .ok req)
    (hsent : stunServerProcess computeHmac env info recv buf «from» dest = some sent)
    (hsource : sent.resp.hasSourceAddress = true) :
    let myAddr := if recv.recvAlt then info.altAddr else info.myAddr
    let altAddr := if recv.recvAlt then info.myAddr else info.altAddr
    sent.socket = sendSocket recv.recvAlt (req.changeRequest.value &&& ChangeIpFlag ≠ 0)
      (req.changeRequest.value &&& ChangePortFlag ≠ 0) ∧
    sent.resp.sourceAddress.ipv4 =
      { port := if req.changeRequest.value &&& ChangePortFlag ≠ 0 then altAddr.port else myAddr.port
        addr := if req.changeRequest.value &&& ChangeIpFlag ≠ 0 then altAddr.addr else myAddr.addr } ∧
    sent.resp.changedAddress.ipv4 = altAddr := by
  intro myAddr altAddr
  simp only [stunServerProcess, stunServerProcessMsg, hparse, Option.bind_eq_bind,
    Option.bind_eq_some_iff] at hsent
  obtain ⟨ans, hans, bytes, -, hsent⟩ := hsent
  split at hsent
  · cases hsent
  · cases hsent
    obtain ⟨resp, rfl⟩ := answer_source hans hsource
    exact ⟨rfl, bindResponse_addresses computeHmac env req «from» myAddr altAddr resp⟩

/-- Only answers to what was received on the first address and port are honest. -/
theorem honest_iff {info : StunServerInfo} {recv : Socket} {dest : StunAddress4} {sent : Sent}
    (hparse : stunParseMessage buf = .ok req)
    (hsent : stunServerProcess computeHmac env info recv buf «from» dest = some sent)
    (hsource : sent.resp.hasSourceAddress = true) :
    Honest info recv req sent ↔
      recv = .myFd ∧ info.myAddr.addr ≠ info.altAddr.addr ∧ info.myAddr.port ≠ info.altAddr.port := by
  obtain ⟨hsocket, haddress, hchanged⟩ := sent_addresses hparse hsent hsource
  constructor
  · intro h
    have hip := h.changedIp
    have hport := h.changedPort
    have hfrom := congrArg StunAddress4.port h.source
    rw [haddress, hsocket] at hfrom
    rw [hchanged] at hip hport
    cases recv with
    | myFd => exact ⟨rfl, Ne.symm hip, Ne.symm hport⟩
    | altPortFd => exact absurd rfl hport
    | altIpFd => exact absurd rfl hport
    | altIpPortFd =>
      -- the port it was received on counts as the server's own, but the socket has the other one
      exfalso
      cases hcp : decide (req.changeRequest.value &&& ChangePortFlag ≠ 0) <;>
        cases hci : decide (req.changeRequest.value &&& ChangeIpFlag ≠ 0) <;>
        simp_all [sendSocket, Socket.recvAlt, StunServerInfo.address]
  · rintro ⟨rfl, hip, hport⟩
    by_cases hci : req.changeRequest.value &&& ChangeIpFlag = 0 <;>
      by_cases hcp : req.changeRequest.value &&& ChangePortFlag = 0 <;>
      constructor <;>
      simp [hsocket, haddress, hchanged, hci, hcp, sendSocket, Socket.recvAlt, StunServerInfo.address,
        Ne.symm hip, Ne.symm hport]

/-- A server with two addresses and two ports. -/
def twoAddresses : StunServerInfo := ⟨⟨3478, 2⟩, ⟨3479, 3⟩⟩

theorem honest_iff_myFd :
    ∃ req sent, stunParseMessage (bareRequest 1) = .ok req ∧
      stunServerProcess (fun _ _ => .replicate 20 0) ⟨0, 0, 0⟩ twoAddresses .myFd (bareRequest 1) ⟨5000, 1⟩
        ⟨0, 0⟩ = some sent ∧
      sent.resp.hasSourceAddress = true ∧
      (Honest twoAddresses .myFd req sent ↔ Socket.myFd = .myFd ∧
        twoAddresses.myAddr.addr ≠ twoAddresses.altAddr.addr ∧
        twoAddresses.myAddr.port ≠ twoAddresses.altAddr.port) := by
  obtain ⟨req, hparse⟩ : ∃ req, stunParseMessage (bareRequest 1) = .ok req := ⟨_, rfl⟩
  obtain ⟨sent, hsent, hsource⟩ : ∃ sent, stunServerProcess (fun _ _ => .replicate 20 0) ⟨0, 0, 0⟩
      twoAddresses .myFd (bareRequest 1) ⟨5000, 1⟩ ⟨0, 0⟩ = some sent ∧
      sent.resp.hasSourceAddress = true := ⟨_, rfl, rfl⟩
  exact ⟨req, sent, hparse, hsent, hsource, honest_iff hparse hsent hsource⟩

/-- A request that comes in on the second address and the second port: the answer goes out from the first
port and says that it comes from the second. -/
theorem not_honest_altIpPortFd :
    ∃ req sent, stunParseMessage (bareRequest 1) = .ok req ∧
      stunServerProcess (fun _ _ => .replicate 20 0) ⟨0, 0, 0⟩ twoAddresses .altIpPortFd (bareRequest 1)
        ⟨5000, 1⟩ ⟨0, 0⟩ = some sent ∧
      sent.resp.hasSourceAddress = true ∧ sent.socket = .altIpFd ∧
      sent.resp.sourceAddress.ipv4 = ⟨3479, 3⟩ ∧ ¬Honest twoAddresses .altIpPortFd req sent := by
  refine ⟨_, _, rfl, rfl, rfl, rfl, rfl, fun h => ?_⟩
  have hport := congrArg StunAddress4.port h.source
  exact absurd hport (by decide)

end Vocal.Stun
