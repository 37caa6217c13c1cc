import Vocal.Sdp.Session

/-!
# Decoding session descriptions

Each kind of line has its own splitter. Numbers are read by `atoi` and `strtol`; `w` is the width of `long`.
-/

namespace Vocal.Sdp

open Sip (Data find isIn)

theorem length_parse {d set x rest : Data} (h : d.parse set = some (x, rest)) : rest.length < d.length := by
  rw [Data.parse, Option.map_eq_some_iff] at h
  obtain ⟨⟨x', c, more⟩, hcut, heq⟩ := h
  obtain ⟨rfl, rfl⟩ := Prod.mk.inj heq
  obtain ⟨rfl, -, -⟩ := Cut.cut_eq_some_iff.mp hcut
  have hdrop := (List.dropWhile_suffix (l := more) (isIn · set)).length_le
  simp only [List.length_append, List.length_cons]
  omega

/-- `split`, and the loops written out like it: the pieces between the blocks of characters of the set. -/
def split (d set : Data) : List Data :=
  match _h : d.parse set with
  | some (x, rest) => x :: split rest set
  | none => [d]
  termination_by d.length
  decreasing_by exact length_parse _h

/-- The text behind the letter of a line, as `parse("=")` leaves it. -/
def textOf (line : Data) : Data :=
  match line.parse ['='] with
  | some (_, rest) => rest
  | none => line

/-! ### The kinds of lines -/

/-- `SdpMulticast::setTtl`: a number out of range is not set. -/
def SdpMulticast.setTtl (m : SdpMulticast) (ttlval : Int) : SdpMulticast :=
  if ttlval < 0 ∨ ttlval > 255 then m else { m with ttl := ttlval }

/-- The part of `SdpConnection::SdpConnection` behind the slashes. -/
def SdpConnection.readMulticast (memory : Memory) (w : Nat) (connectionList : List Data) : Option SdpMulticast :=
  match connectionList with
  | _ :: ttl :: more =>
    let m := SdpMulticast.setTtl { address := [], ttl := memory.ttl } (atoi w ttl)
    some (match more with
      | numAddr :: _ => { m with numAddress := atoi w numAddr }
      | [] => m)
  | _ => none

/-- `SdpConnection::SdpConnection`. -/
def SdpConnection.decode (memory : Memory) (w : Nat) (str : Data) : Except SDPErrorType SdpConnection :=
  let connectionList := split str ['/']
  let multicast := readMulticast memory w connectionList
  match split (connectionList.headD []) [' '] with
  | nType :: aType :: addr :: _ =>
    if nType ≠ SdpNetworkTypeIN then .error .UNKNOWN_NETTYPE
    else if aType ≠ SdpAddressTypeIP4 ∧ aType ≠ SdpAddressTypeIP6 then .error .UNKNOWN_ADDRTYPE
    else
      .ok { networktype := .Internet, addresstype := if aType = SdpAddressTypeIP4 then .IPV4 else .IPV6,
            address := if multicast.isSome then [] else addr,
            multicast := multicast.map fun m => { m with address := addr } }
  | _ => .ok { networktype := memory.networktype, addresstype := memory.addresstype, address := [], multicast }

/-- `SdpBandwidth::SdpBandwidth`. -/
def SdpBandwidth.decode (w : Nat) (s : Data) : Except SDPErrorType SdpBandwidth :=
  match split s [':'] with
  | x :: y :: _ =>
    if x = "AS".toList then .ok { modifier := .AS, value := atoi w y }
    else if x = "CT".toList then .ok { modifier := .CT, value := atoi w y }
    else if x = "RR".toList then .ok { modifier := .RR, value := atoi w y }
    else .error .UNDEF_MODIFIER
  | _ => .error .PARAM_NUMERR

/-- `SdpEncryptkey::SdpEncryptkey`: what is split for the method has lost the method. -/
def SdpEncryptkey.decode (s : Data) : Except SDPErrorType SdpEncryptkey :=
  let (tmp_Data, s) := (s.parse [':']).getD ([], s)
  if tmp_Data = "uri".toList then .ok { encrypt_method := .URI, encrypt_key := s }
  else match split s [':'] with
    | [x] => if x = "prompt".toList then .ok { encrypt_method := .Prompt } else .error .UNKNOWN_ENCRYPT_METHOD
    | [x, y] =>
      if x = "clear".toList then .ok { encrypt_method := .Clear, encrypt_key := y }
      else if x = "base64".toList then .ok { encrypt_method := .Base64, encrypt_key := y }
      else if x = "prompt".toList then .ok { encrypt_method := .Prompt }
      else .error .UNKNOWN_ENCRYPT_METHOD
    | _ => .error .UNKNOWN_ENCRYPT_METHOD

/-- The `r` lines of `SdpTime::SdpTime`. -/
def SdpTimeRepeat.decode (line : Data) : Except SDPErrorType SdpTimeRepeat :=
  match split (textOf line) [' '] with
  | interval :: activeDuration :: offsetList => .ok { interval, activeDuration, offsetList }
  | _ => .error .PARAM_NUMERR

/-- `SdpTime::SdpTime`, of a `t` line and the `r` lines behind it. -/
def SdpTime.decode (t : Data) (rs : List Data) : Except SDPErrorType SdpTime :=
  match split (textOf t) [' '] with
  | [startTime, stopTime] => do return { startTime, stopTime, repeatList := ← rs.mapM SdpTimeRepeat.decode }
  | _ => .error .PARAM_NUMERR

/-- The adjustments of a `z` line. -/
def zoneAdjustments : List Data → List SdpZoneAdjustment
  | adjustment_time :: offset :: rest => { adjustment_time, offset } :: zoneAdjustments rest
  | [adjustment_time] => [{ adjustment_time, offset := ['0'] }]
  | [] => []

/-- `SdpAttributes::setAttribute`. -/
def SdpAttributes.setAttribute (a : SdpAttributes) (s : Data) : SdpAttributes :=
  match split s [':'] with
  | [] => a
  | [x] =>
    if x = "recvonly".toList then { a with recvonly := true }
    else if x = "sendrecv".toList then { a with sendrecv := true }
    else if x = "sendonly".toList then { a with sendonly := true }
    else a
  | initial :: value :: rest =>
    a.addValueAttribute { attrib := initial, value := value ++ rest.flatMap fun more => ':' :: more }

/-- The part of `MediaAttributes::setAttribute` behind the name of the attribute. -/
def SdpRtpMapAttribute.decode (memory : Memory) (w : Nat) (attrib : Data) : Except SDPErrorType SdpRtpMapAttribute :=
  match split attrib [' '] with
  | x0 :: x1 :: _ =>
    let encodList := split x1 ['/']
    .ok { payloadType := atoi w x0, encodingName := encodList.headD [],
          clockrate := (encodList[1]?.map (atoi w)).getD memory.clockrate,
          encodingParms := (encodList[2]?.map (atoi w)).getD 0 }
  | _ => .error .PARAM_NUMERR

/-- `MediaAttributes::setAttribute`: the name `rtpmap` may stand anywhere. -/
def MediaAttributes.setAttribute (memory : Memory) (w : Nat) (a : MediaAttributes) (attrib : Data) :
    Except SDPErrorType MediaAttributes :=
  match attrib.match "rtpmap:".toList with
  | .FIRST rest | .FOUND _ rest => (SdpRtpMapAttribute.decode memory w rest).map a.addmap
  | .NOT_FOUND => .ok { a with toSdpAttributes := a.toSdpAttributes.setAttribute attrib }

/-! ### Media -/

namespace SdpMedia

/-- The `m` line of `SdpMedia::SdpMedia`. -/
def readAnnouncement (w : Nat) (m : SdpMedia) (line : Data) : Except SDPErrorType SdpMedia :=
  match split (textOf line) [' '] with
  | media :: portDetails :: transport :: format :: more =>
    let portList := split portDetails ['/']
    .ok { m with
      mediaTypeString := media
      mediaType := if media = "audio".toList then .Audio else if media = "video".toList then .Video else .Unknown
      port := atoi w (portList.headD [])
      numPorts := match portList with
        | [_, numPorts] => atoi w numPorts
        | _ => 0
      transportType :=
        if transport = SdpMediaTransportRTPAVP then .RTP
        else if transport = SdpMediaTransportUDP then .UDP else m.transportType
      formatList := (format :: more).map (atoi w) }
  | _ => .error .PARAM_NUMERR

/-- What `SdpMedia::SdpMedia` throws for an exception of a part. -/
def failed {α : Type} : Except SDPErrorType α → Except SDPErrorType α := Except.mapError fun _ => .FAILED

/-- A turn of the loop of `SdpMedia::SdpMedia`. -/
def readLine (memory : Memory) (w : Nat) (m : SdpMedia) (line : Data) : Except SDPErrorType SdpMedia :=
  match line.head? with
  | some 'm' => m.readAnnouncement w line
  | some 'a' => do
    let attributes ← failed ((m.mediaAttrib.getD {}).setAttribute memory w (textOf line))
    return { m with mediaAttrib := some attributes }
  | some 'b' => do
    let bandwidth ← failed (SdpBandwidth.decode w (textOf line))
    return { m with bandwidth := some bandwidth }
  | some 'k' => do
    let key ← failed (SdpEncryptkey.decode (textOf line))
    return { m with encryptkey := some key }
  | some 'c' => do
    let connection ← failed (SdpConnection.decode memory w (textOf line))
    return { m with connection := some connection }
  | some 'i' => .ok { m with mediaInfo := textOf line }
  | some '\r' | some '\n' => .ok m
  | _ => .error .UNKNOWN_FIELD

/-- `SdpMedia::SdpMedia`, of the lines of a block, the first of which is its `m` line. -/
def decode (memory : Memory) (w : Nat) (mediaDetails : List Data) : Except SDPErrorType SdpMedia :=
  mediaDetails.foldlM (readLine memory w) { transportType := memory.transportType }

end SdpMedia

/-! ### Sessions -/

namespace SdpSession

/-- The `o` line of `SdpSession::decode`: what stands before the first wrong field is set. -/
def readOrigin (w : Nat) (sess : SdpSession) (s : Data) : SdpSession :=
  match split s [' '] with
  | username :: sessionId :: version :: nType :: aType :: address :: _ =>
    let sess := { sess with
      username
      sessionId := (BitVec.ofInt 32 (atoi w sessionId)).toNat
      version := (BitVec.ofInt 32 (atoi w version)).toNat }
    if nType ≠ SdpNetworkTypeIN then sess
    else if aType = SdpAddressTypeIP4 then { sess with networkType := .Internet, addressType := .IPV4, address }
    else if aType = SdpAddressTypeIP6 then { sess with networkType := .Internet, addressType := .IPV6, address }
    else { sess with networkType := .Internet }
  | _ => sess

/-- A line of `SdpSession::decode` that is read by itself; none when it ends the decoding. -/
def readLine (memory : Memory) (w : Nat) (sess : SdpSession) (line : Data) : Option SdpSession :=
  match line.head? with
  | some 'o' => some (sess.readOrigin w (textOf line))
  | some 's' => some { sess with sessionName := textOf line }
  | some 'i' => some { sess with sessionInfo := textOf line }
  | some 'u' => some { sess with uriInfo := textOf line }
  | some 'e' => some { sess with emailList := sess.emailList ++ [textOf line] }
  | some 'p' => some { sess with phoneList := sess.phoneList ++ [textOf line] }
  | some 'c' =>
    match SdpConnection.decode memory w (textOf line) with
    | .ok conn => some { sess with connection := some ((sess.connection.map (·.assign conn)).getD conn) }
    | .error _ => none
  | some 'z' => some { sess with zoneAdjustmentList :=
      sess.zoneAdjustmentList ++ zoneAdjustments (split (textOf line) [' ']) }
  -- bandwidths and keys are optional: an incorrect one is left out
  | some 'b' =>
    match SdpBandwidth.decode w (textOf line) with
    | .ok bandwidth => some { sess with bandwidth := some bandwidth }
    | .error _ => some sess
  | some 'k' =>
    match SdpEncryptkey.decode (textOf line) with
    | .ok encryptkey => some { sess with encryptkey := some encryptkey }
    | .error _ => some sess
  | some 'a' => some { sess with attrib := some ((sess.attrib.getD {}).setAttribute (textOf line)) }
  | _ => some sess

/-- A time, with its `r` lines, that is not right is left out. -/
def readTime (sess : SdpSession) (t : Data) (rs : List Data) : SdpSession :=
  match SdpTime.decode t rs with
  | .ok time => { sess with sdpTimeList := sess.sdpTimeList ++ [time] }
  | .error _ => sess

/-- A block of media lines ends the decoding when a part of it is wrong, and is left out when it is not one. -/
def readMedia (memory : Memory) (w : Nat) (sess : SdpSession) (mediaDetails : List Data) : Option SdpSession :=
  match SdpMedia.decode memory w mediaDetails with
  | .ok media => some (sess.addMedia media)
  | .error .FAILED => none
  | .error _ => some sess

/-- The loop of `SdpSession::decode`. The loops inside it that collect the lines of one kind step back by a line at
their end, so what they collect is a turn of this one for each. -/
def readLines (memory : Memory) (w : Nat) (sess : SdpSession) : List Data → Option SdpSession
  | [] => some sess
  | line :: lines =>
    match line.head? with
    | some 't' =>
      readLines memory w (sess.readTime line (lines.takeWhile fun l => l.head? = some 'r'))
        (lines.dropWhile fun l => l.head? = some 'r')
    | some 'm' =>
      match sess.readMedia memory w (line :: lines.takeWhile fun l => l.head? ≠ some 'm') with
      | some sess => readLines memory w sess (lines.dropWhile fun l => l.head? ≠ some 'm')
      | none => none
    | _ =>
      match sess.readLine memory w line with
      | some sess => readLines memory w sess lines
      | none => none
  termination_by lines => lines.length
  decreasing_by
    all_goals simp only [List.length_cons]
    · have hle := (List.dropWhile_suffix (l := lines) fun l => l.head? = some 'r').length_le
      omega
    · have hle := (List.dropWhile_suffix (l := lines) fun l => l.head? ≠ some 'm').length_le
      omega
    · omega

/-- `SdpSession::decode` of lines. A description that is not accepted leaves the session in parts. -/
def decodeLines (memory : Memory) (w : Nat) (sess : SdpSession) (lines : List Data) : Option SdpSession :=
  if lines.length < 3 then none
  else match lines with
    | [] => none
    | version :: rest =>
      if version ≠ "v=0\r".toList ∧ version ≠ "v=0".toList then none
      else (readLines memory w { sess with sdpTimeList := [] } rest).map fun sess => { sess with isValid := true }

/-- The loop of `SdpSession::decode` that takes the lines off the text. An empty line is left out. -/
def linesOf (buffer : Data) : List Data :=
  match _h : buffer.getLine with
  | some (tmp, rest) => if tmp.length > 0 then tmp :: linesOf rest else linesOf rest
  | none => if buffer.length > 0 then [buffer] else []
  termination_by buffer.length
  decreasing_by
    all_goals
      rw [Data.getLine, Option.map_eq_some_iff] at _h
      obtain ⟨⟨x, c, more⟩, hcut, heq⟩ := _h
      obtain ⟨rfl, rfl⟩ := Prod.mk.inj heq
      obtain ⟨rfl, -, -⟩ := Cut.cut_eq_some_iff.mp hcut
      simp only [List.length_append, List.length_cons]
      omega

/-- `SdpSession::decode`. -/
def decode (memory : Memory) (w : Nat) (sess : SdpSession) (buffer : Data) : Option SdpSession :=
  decodeLines memory w sess (linesOf buffer)

end SdpSession

end Vocal.Sdp
