import Vocal.Sdp.Split

/-!
# Copies of session descriptions

`SdpSession::operator=` and the operators that it uses. A session without a connection gets one from its media when it is
copied; the text of the copy has that line more: `SdpSession.assign_eq`.
-/

namespace Vocal.Sdp

open Sip (Data)

/-- What ends a copy before its end. -/
inductive CopyStop
  | assertion
  | thrown (e : SDPErrorType)
  deriving DecidableEq, Repr

/-- How an optional member is copied: into a new object when there was none. -/
def assignMember {α : Type} (assign : α → α → α) (fresh : α) (member newMember : Option α) : Option α :=
  newMember.map (assign (member.getD fresh))

/-! ### Attributes -/

namespace SdpAttributes

def flushValueAttributes (a : SdpAttributes) : SdpAttributes := { a with valueAttributes := [] }

def copyValueAttributes (a attrib : SdpAttributes) : SdpAttributes :=
  attrib.valueAttributes.foldl addValueAttribute a.flushValueAttributes

/-- `SdpAttributes::operator=`. -/
def assign (a attrib : SdpAttributes) : SdpAttributes :=
  copyValueAttributes
    { a with recvonly := attrib.recvonly, sendonly := attrib.sendonly, sendrecv := attrib.sendrecv } attrib

theorem foldl_addValueAttribute (values : List ValueAttribute) (a : SdpAttributes) :
    values.foldl addValueAttribute a = { a with valueAttributes := a.valueAttributes ++ values } := by
  induction values generalizing a with
  | nil => rw [List.foldl_nil, List.append_nil]
  | cons v values ih =>
    rw [List.foldl_cons, ih]
    simp only [addValueAttribute, List.append_assoc, List.singleton_append]

@[simp] theorem assign_eq (a attrib : SdpAttributes) : a.assign attrib = attrib := by
  rw [assign, copyValueAttributes, foldl_addValueAttribute]
  rfl

end SdpAttributes

namespace MediaAttributes

def flushrtpmap (a : MediaAttributes) : MediaAttributes := { a with rtpmap := [] }

/-- `MediaAttributes::operator=`: the entries are only replaced when there are new ones. -/
def assign (a attrib : MediaAttributes) : MediaAttributes :=
  let copied : MediaAttributes := { a with toSdpAttributes := a.toSdpAttributes.assign attrib.toSdpAttributes }
  if attrib.rtpmap.length > 0 then
    attrib.rtpmap.foldl addmap (if copied.rtpmap.length > 0 then copied.flushrtpmap else copied)
  else copied

theorem foldl_addmap (entries : List SdpRtpMapAttribute) (a : MediaAttributes) :
    entries.foldl addmap a = { a with rtpmap := a.rtpmap ++ entries } := by
  induction entries generalizing a with
  | nil => rw [List.foldl_nil, List.append_nil]
  | cons r entries ih =>
    rw [List.foldl_cons, ih]
    simp only [addmap, List.append_assoc, List.singleton_append]

/-- The entries of the target stay when the source has none. -/
theorem assign_eq (a attrib : MediaAttributes) :
    a.assign attrib = { attrib with rtpmap := if attrib.rtpmap = [] then a.rtpmap else attrib.rtpmap } := by
  rw [assign, SdpAttributes.assign_eq]
  dsimp only
  cases hnew : attrib.rtpmap with
  | nil => rfl
  | cons r entries =>
    rw [if_pos (List.length_pos_of_ne_nil (List.cons_ne_nil r entries)), if_neg (List.cons_ne_nil r entries), foldl_addmap]
    cases hold : a.rtpmap with
    | nil => rfl
    | cons q old => rfl

theorem assign_eq_iff (a attrib : MediaAttributes) :
    a.assign attrib = attrib ↔ (attrib.rtpmap = [] → a.rtpmap = []) := by
  rw [assign_eq]
  by_cases hnew : attrib.rtpmap = []
  · rw [if_pos hnew]
    constructor
    · intro heq _
      rw [← hnew, ← congrArg MediaAttributes.rtpmap heq]
    · intro h
      rw [h hnew, ← hnew]
  · rw [if_neg hnew]
    exact iff_of_true rfl fun h => absurd h hnew

end MediaAttributes

/-! ### Connections -/

theorem SdpConnection.encode_assign (c connection : SdpConnection) : (c.assign connection).encode = connection.encode := by
  rw [encode, encode, assign]
  cases hmulticast : connection.multicast with
  | none => rfl
  | some multicast => rfl

/-- The text of which a session makes its connection when a medium has one. -/
def SdpConnection.finalconn (c : SdpConnection) : Data :=
  "IN ".toList ++ (if c.addresstype = .IPV4 then "IP4 ".toList else "IP6 ".toList) ++ c.address

theorem headD_split_append {c : Char} {x : Data} (h : c ∉ x) (y : Data) :
    ∃ z, (split (x ++ y) [c]).headD [] = x ++ z := by
  rcases Sip.Data.parse_cases y c with ⟨hy, -⟩ | ⟨z, rest, hz, rfl, -⟩
  · rw [split_of_notMem (List.mem_append.not.mpr (not_or.mpr ⟨h, hy⟩))]
    exact ⟨y, rfl⟩
  · rw [← List.append_assoc, split_append (List.mem_append.not.mpr (not_or.mpr ⟨h, hz⟩))]
    exact ⟨z, rfl⟩

/-- The address type in that text. -/
def SdpConnection.addrType (c : SdpConnection) : Data :=
  if c.addresstype = .IPV4 then SdpAddressTypeIP4 else SdpAddressTypeIP6

namespace SdpConnection

theorem addrType_cases (c : SdpConnection) : c.addrType = SdpAddressTypeIP4 ∨ c.addrType = SdpAddressTypeIP6 := by
  rw [addrType]
  split
  · exact Or.inl rfl
  · exact Or.inr rfl

theorem finalconn_eq (c : SdpConnection) :
    c.finalconn = SdpNetworkTypeIN ++ ' ' :: (c.addrType ++ ' ' :: c.address) := by
  rw [finalconn, addrType]
  split
  · rfl
  · rfl

theorem split_types (c : SdpConnection) (z : Data) :
    split (SdpNetworkTypeIN ++ ' ' :: (c.addrType ++ ' ' :: z)) [' '] =
      SdpNetworkTypeIN :: c.addrType :: split (z.dropWhile (Sip.isIn · [' '])) [' '] := by
  rcases c.addrType_cases with htype | htype
  · rw [htype, split_append_of_head (by decide) (by simp [SdpAddressTypeIP4]), split_append (by decide)]
  · rw [htype, split_append_of_head (by decide) (by simp [SdpAddressTypeIP6]), split_append (by decide)]

theorem decode_of_types {memory : Memory} {w : Nat} {c : SdpConnection} {text addr : Data} {more : List Data}
    (h : split ((split text ['/']).headD []) [' '] = SdpNetworkTypeIN :: c.addrType :: addr :: more) :
    decode memory w text = .ok
      { networktype := .Internet
        addresstype := if c.addrType = SdpAddressTypeIP4 then .IPV4 else .IPV6
        address := if (readMulticast memory w (split text ['/'])).isSome then [] else addr
        multicast := (readMulticast memory w (split text ['/'])).map fun m => { m with address := addr } } := by
  rw [decode, h]
  dsimp only
  rw [if_neg (not_not.mpr rfl), if_neg]
  rcases c.addrType_cases with htype | htype
  · exact fun hno => hno.1 htype
  · exact fun hno => hno.2 htype

theorem exists_decode_finalconn (memory : Memory) (w : Nat) (c : SdpConnection) :
    ∃ conn, decode memory w c.finalconn = .ok conn := by
  have hslash : '/' ∉ SdpNetworkTypeIN ++ ' ' :: (c.addrType ++ [' ']) := by
    rcases c.addrType_cases with htype | htype
    · simp [htype, SdpNetworkTypeIN, SdpAddressTypeIP4]
    · simp [htype, SdpNetworkTypeIN, SdpAddressTypeIP6]
  have hcut : c.finalconn = SdpNetworkTypeIN ++ ' ' :: (c.addrType ++ [' ']) ++ c.address := by simp [finalconn_eq]
  obtain ⟨z, hz⟩ := headD_split_append hslash c.address
  obtain ⟨addr, more, haddr⟩ := List.exists_cons_of_ne_nil (split_ne_nil (z.dropWhile (Sip.isIn · [' '])) ' ')
  have hpieces := c.split_types z
  rw [haddr] at hpieces
  refine ⟨_, decode_of_types (Eq.trans ?_ hpieces)⟩
  rw [hcut, hz]
  simp

/-- A plain address comes back. -/
theorem decode_finalconn {memory : Memory} {w : Nat} {c : SdpConnection} (hslash : '/' ∉ c.address)
    (hblank : ' ' ∉ c.address) :
    decode memory w c.finalconn = .ok
      { networktype := .Internet, addresstype := if c.addresstype = .IPV4 then .IPV4 else .IPV6, address := c.address } := by
  have htype : (if c.addrType = SdpAddressTypeIP4 then AddressType.IPV4 else .IPV6) =
      if c.addresstype = .IPV4 then .IPV4 else .IPV6 := by
    rw [addrType]
    split <;> rfl
  have hwhole : split c.finalconn ['/'] = [c.finalconn] := by
    refine split_of_notMem ?_
    rcases c.addrType_cases with haddr | haddr
    · simp [finalconn_eq, haddr, SdpNetworkTypeIN, SdpAddressTypeIP4, hslash]
    · simp [finalconn_eq, haddr, SdpNetworkTypeIN, SdpAddressTypeIP6, hslash]
  have haddress : split (c.address.dropWhile (Sip.isIn · [' '])) [' '] = [c.address] := by
    rw [dropWhile_isIn_of_head fun hhead => hblank (List.mem_of_mem_head? hhead), split_of_notMem hblank]
  have hpieces : split ((split c.finalconn ['/']).headD []) [' '] =
      [SdpNetworkTypeIN, c.addrType, c.address] := by
    rw [hwhole, List.headD_cons, finalconn_eq, split_types, haddress]
  rw [decode_of_types hpieces, hwhole, htype]
  rfl

end SdpConnection

/-! ### Media -/

namespace SdpMedia

/-- `SdpMedia::operator=`. There is an assertion that the other one has a format. -/
def assign (m newMedia : SdpMedia) : Except CopyStop SdpMedia :=
  match newMedia.getFormatList with
  | none => .error .assertion
  | some newFormatList => .ok
    { mediaType := newMedia.mediaType, mediaTypeString := newMedia.mediaTypeString, port := newMedia.port,
      numPorts := newMedia.numPorts, transportType := newMedia.transportType, mediaInfo := newMedia.mediaInfo,
      formatList := newFormatList
      mediaAttrib := assignMember .assign {} m.mediaAttrib newMedia.mediaAttrib
      connection := assignMember .assign {} m.connection newMedia.connection
      bandwidth := assignMember (fun _ b => b) {} m.bandwidth newMedia.bandwidth
      encryptkey := assignMember (fun _ k => k) {} m.encryptkey newMedia.encryptkey }

theorem getFormatList_eq (m : SdpMedia) : m.getFormatList = if m.formatList = [] then none else some m.formatList := by
  rw [getFormatList]
  cases m.formatList with
  | nil => rfl
  | cons f fs => rfl

theorem assign_of_nil {m newMedia : SdpMedia} (h : newMedia.formatList = []) :
    m.assign newMedia = .error .assertion := by
  rw [assign, getFormatList_eq, if_pos h]

theorem assign_of_ne_nil {m newMedia : SdpMedia} (h : newMedia.formatList ≠ []) :
    m.assign newMedia = .ok
      { newMedia with
        mediaAttrib := assignMember .assign {} m.mediaAttrib newMedia.mediaAttrib
        connection := assignMember .assign {} m.connection newMedia.connection } := by
  rw [assign, getFormatList_eq, if_neg h]
  simp only [assignMember, Option.map_id']

/-- A copy of a medium in a new object. -/
def copied (m : SdpMedia) : SdpMedia := { m with connection := m.connection.map (SdpConnection.assign {}) }

theorem assign_new {newMedia : SdpMedia} (h : newMedia.formatList ≠ []) :
    ({} : SdpMedia).assign newMedia = .ok newMedia.copied := by
  have hattrib : assignMember MediaAttributes.assign {} none newMedia.mediaAttrib = newMedia.mediaAttrib := by
    cases newMedia.mediaAttrib with
    | none => rfl
    | some attrib => exact congrArg some ((MediaAttributes.assign_eq_iff {} attrib).mpr fun _ => rfl)
  rw [assign_of_ne_nil h, hattrib]
  rfl

theorem encode_assignMember (c connection : Option SdpConnection) :
    (assignMember .assign {} c connection).map SdpConnection.encode = connection.map SdpConnection.encode := by
  cases connection with
  | none => rfl
  | some connection => exact congrArg some (SdpConnection.encode_assign (c.getD {}) connection)

theorem encode_copied (m : SdpMedia) : m.copied.encode = m.encode := by
  have hconnection := encode_assignMember none m.connection
  rw [encode, encode, copied]
  dsimp only
  rw [← hconnection]
  rfl

end SdpMedia

/-! ### Sessions -/

namespace SdpSession

def flushMediaList (s : SdpSession) : SdpSession := { s with mediaList := [] }

/-- A turn of the loop of `SdpSession::operator=`. -/
def assignMedia (memory : Memory) (w : Nat) (s : SdpSession) (newMedia : SdpMedia) : Except CopyStop SdpSession := do
  let media ← ({} : SdpMedia).assign newMedia
  let s := s.addMedia media
  match s.connection, media.mediaType, media.connection with
  | none, .Audio, some newc =>
    match SdpConnection.decode memory w newc.finalconn with
    | .ok connection => return { s with connection := some connection }
    | .error e => throw (.thrown e)
  | _, _, _ => return s

/-- `SdpSession::operator=`. -/
def assign (memory : Memory) (w : Nat) (s x : SdpSession) : Except CopyStop SdpSession := do
  let s : SdpSession := { s with
    protocolVersion := x.protocolVersion, username := x.username, sessionId := x.sessionId, version := x.version,
    networkType := x.networkType, addressType := x.addressType, address := x.address, sessionName := x.sessionName,
    sessionInfo := x.sessionInfo, uriInfo := x.uriInfo, emailList := x.emailList, phoneList := x.phoneList,
    connection := assignMember .assign {} s.connection x.connection
    bandwidth := assignMember (fun _ b => b) {} s.bandwidth x.bandwidth
    sdpTimeList := x.sdpTimeList, zoneAdjustmentList := x.zoneAdjustmentList
    encryptkey := assignMember (fun _ k => k) {} s.encryptkey x.encryptkey
    attrib := assignMember .assign {} s.attrib x.attrib }
  let s ← x.mediaList.foldlM (assignMedia memory w) s.flushMediaList
  return { s with isValid := x.isValid }

/-- The copy constructor, of what the memory of the new object holds. -/
def copy (memory : Memory) (w : Nat) (s x : SdpSession) : Except CopyStop SdpSession :=
  assign memory w { s with connection := none, attrib := none, bandwidth := none, encryptkey := none, mediaList := [] } x

/-- The connection that the copy of a medium gives to a session without one. -/
def derivedConnection (memory : Memory) (w : Nat) (m : SdpMedia) : Option SdpConnection :=
  if m.mediaType = .Audio then
    m.copied.connection.bind fun c => (SdpConnection.decode memory w c.finalconn).toOption
  else none

theorem assignMedia_of_ne_nil {memory : Memory} {w : Nat} {s : SdpSession} {m : SdpMedia} (h : m.formatList ≠ []) :
    s.assignMedia memory w m = .ok
      { s with
        mediaList := s.mediaList ++ [m.copied]
        connection := s.connection.or (derivedConnection memory w m) } := by
  have htype : m.copied.mediaType = m.mediaType := rfl
  rw [assignMedia, SdpMedia.assign_new h, derivedConnection]
  dsimp only [bind, Except.bind, addMedia]
  rw [htype]
  cases hsession : s.connection with
  | some c =>
    rfl
  | none =>
    rw [Option.none_or]
    by_cases haudio : m.mediaType = .Audio
    · rw [haudio, if_pos rfl]
      cases m.copied.connection with
      | none =>
        rfl
      | some newc =>
        obtain ⟨connection, hdecode⟩ := newc.exists_decode_finalconn memory w
        dsimp only [Option.bind_some]
        rw [hdecode]
        rfl
    · rw [if_neg haudio]
      cases htype' : m.mediaType with
      | Audio => exact absurd htype' haudio
      | Video => rfl
      | Unknown => rfl

theorem assignMedia_of_nil {memory : Memory} {w : Nat} {s : SdpSession} {m : SdpMedia} (h : m.formatList = []) :
    s.assignMedia memory w m = .error .assertion := by
  rw [assignMedia, SdpMedia.assign_of_nil h]
  rfl

/-- The media are added in their order, and the first one that has a connection for the session gives it. -/
theorem foldlM_assignMedia {memory : Memory} {w : Nat} {medias : List SdpMedia} (h : ∀ m ∈ medias, m.formatList ≠ [])
    (s : SdpSession) :
    medias.foldlM (assignMedia memory w) s = .ok
      { s with
        mediaList := s.mediaList ++ medias.map SdpMedia.copied
        connection := s.connection.or (medias.findSome? (derivedConnection memory w)) } := by
  induction medias generalizing s with
  | nil =>
    rw [List.foldlM_nil, List.map_nil, List.append_nil, List.findSome?_nil, Option.or_none]
    rfl
  | cons m medias ih =>
    obtain ⟨hm, hmedias⟩ := List.forall_mem_cons.mp h
    rw [List.foldlM_cons, assignMedia_of_ne_nil hm]
    refine (ih hmedias _).trans (congrArg Except.ok ?_)
    have hfirst : (m :: medias).findSome? (derivedConnection memory w) =
        (derivedConnection memory w m).or (medias.findSome? (derivedConnection memory w)) := by
      rw [List.findSome?_cons]
      cases derivedConnection memory w m with
      | none => rfl
      | some c => rfl
    rw [hfirst, ← Option.or_assoc, List.map_cons]
    simp only [List.append_assoc, List.singleton_append]

theorem foldlM_assignMedia_of_nil {memory : Memory} {w : Nat} {medias : List SdpMedia}
    (h : ∃ m ∈ medias, m.formatList = []) (s : SdpSession) :
    medias.foldlM (assignMedia memory w) s = .error .assertion := by
  induction medias generalizing s with
  | nil => simp at h
  | cons m medias ih =>
    rw [List.foldlM_cons]
    by_cases hm : m.formatList = []
    · rw [assignMedia_of_nil hm]
      rfl
    · rw [assignMedia_of_ne_nil hm]
      obtain ⟨m', hmem, hnil⟩ := h
      rcases List.mem_cons.mp hmem with rfl | hmem
      · exact absurd hnil hm
      · exact ih ⟨m', hmem, hnil⟩ _

/-- The connection of the copy of a session. -/
def copiedConnection (memory : Memory) (w : Nat) (s x : SdpSession) : Option SdpConnection :=
  (assignMember .assign {} s.connection x.connection).or (x.mediaList.findSome? (derivedConnection memory w))

theorem assign_eq {memory : Memory} {w : Nat} {s x : SdpSession} (h : ∀ m ∈ x.mediaList, m.formatList ≠ []) :
    s.assign memory w x = .ok
      { x with connection := copiedConnection memory w s x, mediaList := x.mediaList.map SdpMedia.copied } := by
  have hattrib : assignMember SdpAttributes.assign {} s.attrib x.attrib = x.attrib := by
    cases x.attrib with
    | none => rfl
    | some attrib => exact congrArg some (SdpAttributes.assign_eq _ attrib)
  rw [assign, foldlM_assignMedia h]
  dsimp only [bind, Except.bind]
  rw [hattrib]
  simp only [assignMember, Option.map_id', flushMediaList, List.nil_append]
  rfl

theorem assign_of_nil {memory : Memory} {w : Nat} {s x : SdpSession} (h : ∃ m ∈ x.mediaList, m.formatList = []) :
    s.assign memory w x = .error .assertion := by
  rw [assign, foldlM_assignMedia_of_nil h]
  rfl

/-- The session with the connection that a copy of it has. -/
def withConnection (memory : Memory) (w : Nat) (x : SdpSession) : SdpSession :=
  { x with connection := x.connection.or (x.mediaList.findSome? (derivedConnection memory w)) }

theorem encodeLines_copied (memory : Memory) (w : Nat) (s x : SdpSession) :
    ({ x with connection := copiedConnection memory w s x, mediaList := x.mediaList.map SdpMedia.copied } :
      SdpSession).encodeLines = (x.withConnection memory w).encodeLines := by
  have hmedia : (x.mediaList.map SdpMedia.copied).flatMap SdpMedia.encode = x.mediaList.flatMap SdpMedia.encode := by
    rw [List.flatMap_map]
    exact List.flatMap_congr fun m _ => m.encode_copied
  have hconnection : (copiedConnection memory w s x).map SdpConnection.encode =
      (x.withConnection memory w).connection.map SdpConnection.encode := by
    rw [copiedConnection, withConnection]
    cases hx : x.connection with
    | none => rfl
    | some c => exact congrArg some (SdpConnection.encode_assign _ c)
  rw [encodeLines, encodeLines]
  dsimp only
  rw [hmedia, hconnection]
  rfl

theorem encode_assign {memory : Memory} {w : Nat} (s : SdpSession) {x : SdpSession}
    (h : ∀ m ∈ x.mediaList, m.formatList ≠ []) :
    ∃ s', s.assign memory w x = .ok s' ∧ s'.encode = (x.withConnection memory w).encode := by
  refine ⟨_, assign_eq h, ?_⟩
  rw [encode, encode, encodeLines_copied]

theorem assign_eq_assertion_iff {memory : Memory} {w : Nat} {s x : SdpSession} :
    s.assign memory w x = .error .assertion ↔ ∃ m ∈ x.mediaList, m.formatList = [] := by
  refine ⟨fun hstop => by_contra fun hnone => ?_, assign_of_nil⟩
  have hformats : ∀ m ∈ x.mediaList, m.formatList ≠ [] := fun m hm hnil => hnone ⟨m, hm, hnil⟩
  rw [assign_eq hformats] at hstop
  cases hstop

end SdpSession

theorem SdpMedia.encode_assign {m newMedia : SdpMedia} (hformat : newMedia.formatList ≠ [])
    (hrtpmap : ∀ attrib ∈ newMedia.mediaAttrib, attrib.rtpmap = [] → ∀ old ∈ m.mediaAttrib, old.rtpmap = []) :
    ∃ m', m.assign newMedia = .ok m' ∧ m'.encode = newMedia.encode := by
  have hattrib : assignMember MediaAttributes.assign {} m.mediaAttrib newMedia.mediaAttrib = newMedia.mediaAttrib := by
    cases hnew : newMedia.mediaAttrib with
    | none => rfl
    | some attrib =>
      refine congrArg some ((MediaAttributes.assign_eq_iff _ attrib).mpr fun hnil => ?_)
      cases hold : m.mediaAttrib with
      | none => rfl
      | some old => exact hrtpmap attrib hnew hnil old hold
  refine ⟨_, assign_of_ne_nil hformat, ?_⟩
  rw [hattrib, encode, encode]
  dsimp only
  rw [encode_assignMember]
  rfl

/-- A copy has the text of what it is a copy of, except for the connection that a session without one gets from its
media. -/
theorem assign_copies (memory : Memory) (w : Nat) {s x : SdpSession} (hx : ∀ m ∈ x.mediaList, m.formatList ≠ [])
    {m newMedia : SdpMedia} (hformat : newMedia.formatList ≠ [])
    (hrtpmap : ∀ attrib ∈ newMedia.mediaAttrib, attrib.rtpmap = [] → ∀ old ∈ m.mediaAttrib, old.rtpmap = []) :
    (∃ s', s.assign memory w x = .ok s' ∧ s'.encode = (x.withConnection memory w).encode) ∧
      (∃ s', s.copy memory w x = .ok s' ∧ s'.encode = (x.withConnection memory w).encode) ∧
      ∃ m', m.assign newMedia = .ok m' ∧ m'.encode = newMedia.encode :=
  ⟨SdpSession.encode_assign s hx, SdpSession.encode_assign _ hx, SdpMedia.encode_assign hformat hrtpmap⟩

/-- A call of which only the medium has a connection. -/
def callOfMedia : SdpSession :=
  { isValid := true, sessionId := 1, version := 1, sessionName := ['-'],
    sdpTimeList := [{ startTime := ['0'], stopTime := ['0'] }]
    mediaList := [{ port := 5004, connection := some { address := "10.0.0.1".toList } }] }

/-- An object whose memory holds zeros. -/
def zeroed : Memory :=
  { networktype := .Unknown, addresstype := .Unknown, transportType := .Unknown, ttl := 0, clockrate := 0 }

theorem assign_copies_callOfMedia :
    (∃ s', (SdpSession.initial 0).assign zeroed 32 callOfMedia = .ok s' ∧
        s'.encode = (callOfMedia.withConnection zeroed 32).encode) ∧
      (∃ s', (SdpSession.initial 0).copy zeroed 32 callOfMedia = .ok s' ∧
        s'.encode = (callOfMedia.withConnection zeroed 32).encode) ∧
      ∃ m', SdpMedia.assign { mediaAttrib := some { rtpmap := [{ payloadType := 3, encodingName := [], clockrate := 8000 }] } }
          { port := 5004, mediaAttrib := none } = .ok m' ∧
        m'.encode = ({ port := 5004, mediaAttrib := none } : SdpMedia).encode :=
  assign_copies zeroed 32 (by simp [callOfMedia]) (by simp) (by simp)

theorem not_assign_copies : ¬ ∀ (memory : Memory) (w : Nat) (s x : SdpSession),
    ∃ s', s.assign memory w x = .ok s' ∧ s'.encode = x.encode := by
  intro h
  obtain ⟨s', hassign, hencode⟩ := h zeroed 32 (SdpSession.initial 0) callOfMedia
  have hformats : ∀ m ∈ callOfMedia.mediaList, m.formatList ≠ [] := by simp [callOfMedia]
  obtain ⟨s'', hcopied, hencode'⟩ := SdpSession.encode_assign (SdpSession.initial 0) hformats
  obtain rfl := Except.ok.inj (hassign.symm.trans hcopied)
  have hderived : callOfMedia.withConnection zeroed 32 =
      { callOfMedia with connection := some { address := "10.0.0.1".toList } } := by
    have hdecode : SdpConnection.decode zeroed 32 (SdpConnection.finalconn { address := "10.0.0.1".toList }) =
        .ok { address := "10.0.0.1".toList } := SdpConnection.decode_finalconn (by simp) (by simp)
    have hfirst : SdpSession.derivedConnection zeroed 32
        { port := 5004, connection := some { address := "10.0.0.1".toList } } = some { address := "10.0.0.1".toList } :=
      congrArg Except.toOption hdecode
    simp only [SdpSession.withConnection, callOfMedia, List.findSome?_cons, hfirst, Option.none_or]
  rw [hencode', hderived] at hencode
  revert hencode
  decide

end Vocal.Sdp
