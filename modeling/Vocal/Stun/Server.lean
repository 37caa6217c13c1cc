import Vocal.Stun.Parse

/-!
# The STUN server

`stunServerProcessMsg`, which answers one datagram, and `stunServerProcess`, which chooses the socket for
the answer. The clock and the random number that go into a user name, and what an uninitialised variable
holds, are parameters.
-/

namespace Vocal.Stun

open Bytes

/-! ### Strings -/

def ascii (s : String) : Bytes := s.toList.map fun c => .ofNat c.toNat

/-- The string in an array, up to the first NUL. -/
def cString (value : Bytes) : Bytes := value.takeWhile (· ≠ 0)

/-- A digit of `hexmap`. -/
def hexDigit (n : Nat) : UInt8 := .ofNat (if n < 10 then n + 48 else n + 87)

def toHex (buffer : Bytes) : Bytes :=
  buffer.flatMap fun b => [hexDigit (b.toNat / 16), hexDigit (b.toNat % 16)]

/-- What `sprintf` writes for `%08lx`. -/
def hex32 (w : UInt32) : Bytes := toHex (ofWord32 w)

/-- The value of a hexadecimal digit. -/
def ofHexDigit (b : UInt8) : Option Nat :=
  if 48 ≤ b.toNat ∧ b.toNat ≤ 57 then some (b.toNat - 48)
  else if 97 ≤ b.toNat ∧ b.toNat ≤ 102 then some (b.toNat - 87)
  else if 65 ≤ b.toNat ∧ b.toNat ≤ 70 then some (b.toNat - 55)
  else none

/-- The digits at the start of a text. -/
def hexDigits (text : Bytes) : List Nat := (text.map ofHexDigit).takeWhile (·.isSome) |>.filterMap id

/-- The text without its prefix `0x`, when a digit follows that. -/
def dropHexMark : Bytes → Bytes
  | 48 :: x :: text => if (x = 120 ∨ x = 88) ∧ hexDigits text ≠ [] then text else 48 :: x :: text
  | text => text

/-- `sscanf` with `%lx`: white space, a sign, digits. A number that is too large becomes the largest. -/
def sscanfHex (value : Bytes) : Option UInt32 :=
  let text := value.dropWhile fun b => b = 32 ∨ (9 ≤ b.toNat ∧ b.toNat ≤ 13)
  let negative := text.head? = some 45
  let text := if negative ∨ text.head? = some 43 then text.tail else text
  let digits := hexDigits (dropHexMark text)
  let number := digits.foldl (fun n d => 16 * n + d) 0
  if digits = [] then none
  else if 2 ^ 32 ≤ number then some (.ofNat (2 ^ 32 - 1))
  else some (if negative then - .ofNat number else .ofNat number)

section Server

variable (computeHmac : Bytes → Bytes → Octets 20)

/-! ### User names and passwords -/

/-- What the server takes from its surroundings. -/
structure Surroundings where
  /-- `stunGetSystemTimeSecs` -/
  time : UInt64
  /-- `stunRand` -/
  rand : UInt32
  /-- what `source` holds when nothing is scanned into it -/
  source : UInt32

theorem length_toHex (buffer : Bytes) : (toHex buffer).length = 2 * buffer.length := by
  induction buffer with
  | nil => rfl
  | cons b buffer ih =>
    rw [toHex, List.flatMap_cons, List.length_append, ← toHex, ih, List.length_cons]
    simp
    omega

/-- The text that is signed: the address, a random number and the time. -/
def userNameText (source : StunAddress4) (time : UInt64) (rand : UInt32) : Bytes :=
  let time := time - time % 20 * 60
  hex32 source.addr ++ ascii ":" ++ hex32 rand ++ ascii ":" ++ hex32 (.ofNat time.toNat) ++ ascii ":"

/-- `stunCreateUserName`. -/
def stunCreateUserName (env : Surroundings) (source : StunAddress4) : StunAtrString :=
  let text := userNameText source env.time env.rand
  let buffer := text ++ toHex (computeHmac (ascii "Jason") text).1
  have hlen : buffer.length = 67 := by
    simp [buffer, text, userNameText, length_toHex, hex32, ascii]
  { value := Octets.padded _ buffer (by rw [hlen]; decide), sizeValue := 67 }

/-- `stunCreatePassword`. -/
def stunCreatePassword (username : StunAtrString) : StunAtrString :=
  let hex := toHex (computeHmac (ascii "Fluffy") (cString username.value.1)).1
  have hlen : hex.length = 40 := by
    simp [hex, length_toHex]
  { value := Octets.padded _ hex (by rw [hlen]; decide), sizeValue := 40 }

/-! ### Answers -/

/-- What `stunServerProcessMsg` gives its caller; a destination only where it sets one. -/
structure Answer where
  resp : StunMessage
  destination : Option StunAddress4 := none
  hmacPassword : StunAtrString := {}
  changePort : Bool := false
  changeIp : Bool := false

/-- `strcpy` of a text into the reason of an error code. -/
def setReason (atr : StunAtrError) (msg : Bytes) : StunAtrError :=
  if h : msg.length < STUN_MAX_STRING then
    { atr with reason := ⟨msg ++ 0 :: atr.reason.1.drop (msg.length + 1), by simp [atr.reason.2]; omega⟩ }
  else atr

/-- `stunCreateErrorResponse`. -/
def stunCreateErrorResponse (resp : StunMessage) (cl number : UInt8) (msg : String) : StunMessage :=
  { resp with
    msgHdr := { resp.msgHdr with msgType := BindErrorResponseMsg }
    hasErrorCode := true
    errorCode := setReason { resp.errorCode with errorClass := cl, number } (ascii msg) }

/-- `stunCreateSharedSecretResponse`. -/
def stunCreateSharedSecretResponse (env : Surroundings) (request : StunMessage) (source : StunAddress4)
    (response : StunMessage) : StunMessage :=
  let username := stunCreateUserName computeHmac env source
  { response with
    msgHdr := { response.msgHdr with msgType := SharedSecretResponseMsg, id := request.msgHdr.id }
    hasUsername := true
    username
    hasPassword := true
    password := stunCreatePassword computeHmac username }

/-- The check of the message integrity, which compares the HMAC with the start of the datagram. -/
def integrityChecks (buf : Bytes) : Bool :=
  buf.take 20 = (computeHmac (ascii "1234") (buf.take (buf.length - 20 - 4))).1

/-- The bytes of a string over those of another. -/
def copyValue (dst src : StunAtrString) : StunAtrString :=
  { dst with
    value := ⟨src.text ++ dst.value.1.drop src.text.length, by
      have h₁ := src.value.2
      have h₂ := dst.value.2
      simp [StunAtrString.text, h₁, h₂]⟩ }

def ChangeIpFlag : UInt32 := 4

def ChangePortFlag : UInt32 := 2

/-- The source of a user name of more than 64 bytes. -/
def reflectedFrom (env : Surroundings) (username : StunAtrString) : StunAtrAddress4 :=
  { ipv4 := { port := 0, addr := (sscanfHex (cString username.value.1)).getD env.source } }

/-- The answer to a binding request, to be sent with the username and the flag in `resp`. -/
def bindResponse (env : Surroundings) (req : StunMessage) («from» myAddr altAddr : StunAddress4)
    (resp : StunMessage) : Answer :=
  let respondTo := if req.responseAddress.ipv4.port = 0 then «from» else req.responseAddress.ipv4
  let mapped := if req.mappedAddress.ipv4.port = 0 then «from» else req.mappedAddress.ipv4
  let changeIp : Bool := req.changeRequest.value &&& ChangeIpFlag ≠ 0
  let changePort : Bool := req.changeRequest.value &&& ChangePortFlag ≠ 0
  let resp : StunMessage := { resp with
    msgHdr := { resp.msgHdr with msgType := BindResponseMsg, id := req.msgHdr.id }
    hasMappedAddress := true
    mappedAddress := { resp.mappedAddress with ipv4 := mapped }
    hasSourceAddress := true
    sourceAddress := { resp.sourceAddress with
      ipv4 :=
        { port := if changePort then altAddr.port else myAddr.port
          addr := if changeIp then altAddr.addr else myAddr.addr } }
    hasChangedAddress := true
    changedAddress := { resp.changedAddress with ipv4 := altAddr } }
  let resp : StunMessage :=
    if req.hasUsername && 0 < req.username.sizeValue then
      { resp with hasUsername := true, username := copyValue resp.username req.username }
    else resp
  let resp : StunMessage :=
    if req.hasUsername && 64 < req.username.sizeValue then
      { resp with hasReflectedFrom := true, reflectedFrom := reflectedFrom env req.username }
    else resp
  { resp
    destination := some respondTo
    hmacPassword :=
      if req.hasMessageIntegrity && req.hasUsername then stunCreatePassword computeHmac req.username else {}
    changePort
    changeIp }

/-- The answer to a request that was parsed. -/
def answer (env : Surroundings) (buf : Bytes) (req : StunMessage) («from» myAddr altAddr : StunAddress4) :
    Option Answer :=
  if req.msgHdr.msgType = SharedSecretRequestMsg then
    some { resp := stunCreateSharedSecretResponse computeHmac env req «from» {} }
  else if req.msgHdr.msgType = BindRequestMsg then
    if !req.hasMessageIntegrity then some (bindResponse computeHmac env req «from» myAddr altAddr {})
    else if !req.hasUsername then
      some { resp := stunCreateErrorResponse {} 4 32 "No UserName and contains MessageIntegrity" }
    else if cString req.username.value.1 = ascii "test" then
      if integrityChecks computeHmac buf then
        some (bindResponse computeHmac env req «from» myAddr altAddr
          { hasMessageIntegrity := true, hasUsername := true, username := req.username })
      else some { resp := stunCreateErrorResponse {} 4 3 "Unknown username. Try test with password 1234" }
    else some (bindResponse computeHmac env req «from» myAddr altAddr {})
  else none

/-- `stunServerProcessMsg`: no answer where it returns `false`, or the parser leaves its bounds. -/
def stunServerProcessMsg (env : Surroundings) (buf : Bytes) («from» myAddr altAddr : StunAddress4) :
    Option Answer :=
  match stunParseMessage buf with
  | .ok req => answer computeHmac env buf req «from» myAddr altAddr
  | .error _ => none

/-! ### The sockets -/

structure StunServerInfo where
  myAddr : StunAddress4
  altAddr : StunAddress4

/-- The sockets that `stunInitServer` opens. -/
inductive Socket
  | myFd
  | altPortFd
  | altIpFd
  | altIpPortFd
  deriving DecidableEq, Repr

/-- The address and the port a socket is bound to. -/
def StunServerInfo.address (info : StunServerInfo) : Socket → StunAddress4
  | .myFd => info.myAddr
  | .altPortFd => { port := info.altAddr.port, addr := info.myAddr.addr }
  | .altIpFd => { port := info.myAddr.port, addr := info.altAddr.addr }
  | .altIpPortFd => info.altAddr

/-- Whether the socket is one of the alternate address. -/
def Socket.recvAlt : Socket → Bool
  | .myFd | .altPortFd => false
  | .altIpFd | .altIpPortFd => true

/-- An answer on its way. -/
structure Sent where
  socket : Socket
  resp : StunMessage
  buf : Bytes
  dest : StunAddress4

/-- The socket for an answer. -/
def sendSocket (recvAlt changeIp changePort : Bool) : Socket :=
  let sendAlt := recvAlt != changeIp
  if !changePort then
    if !sendAlt then .myFd else .altIpFd
  else
    if !sendAlt then .altPortFd else .altIpPortFd

/-- `stunServerProcess` for a datagram that was received on a socket. The destination is `dest` where
`stunServerProcessMsg` does not set it. -/
def stunServerProcess (env : Surroundings) (info : StunServerInfo) (recv : Socket) (msg : Bytes)
    («from» dest : StunAddress4) : Option Sent := do
  let ans ← stunServerProcessMsg computeHmac env msg «from»
    (if recv.recvAlt then info.altAddr else info.myAddr) (if recv.recvAlt then info.myAddr else info.altAddr)
  let buf ← stunEncodeMessage computeHmac ans.resp ans.hmacPassword
  let dest := ans.destination.getD dest
  if dest.addr = 0 ∨ dest.port = 0 then none
  else some ⟨sendSocket recv.recvAlt ans.changeIp ans.changePort, ans.resp, buf, dest⟩

end Server

end Vocal.Stun
