import Vocal.Lib.Groups
import Vocal.Sdp.MediaAttributes

/-!
# Blocks of media lines that are decoded and written again

The decoder takes each line of a block by itself, and an incorrect one ends the decoding of the description.
-/

namespace Vocal.Sdp

open Sip (Data)

/-! ### The announcement -/

theorem MediaBlock.split_portText (b : MediaBlock) :
    split b.portText ['/'] = b.port.chars :: (b.numPorts.map (·.chars)).toList := by
  have htext : b.portText = b.port.chars ++ (b.numPorts.map (·.chars)).toList.flatMap ('/' :: ·) := by
    rw [portText]
    cases b.numPorts <;> simp
  rw [htext]
  refine Separate.split_eq ⟨Number.notMem rfl, ?_⟩
  cases b.numPorts with
  | none => simp
  | some n => simpa using ⟨n.ne_nil, Number.notMem (n := n) (c := '/') rfl⟩

theorem MediaBlock.blank_notMem_portText (b : MediaBlock) : ' ' ∉ b.portText := by
  rw [portText, List.mem_append, not_or]
  refine ⟨Number.notMem rfl, ?_⟩
  cases b.numPorts with
  | none => simp
  | some n => simpa using Number.notMem (n := n) (c := ' ') rfl

theorem MediaBlock.transport_facts (b : MediaBlock) : b.transport ≠ [] ∧ ' ' ∉ b.transport := by
  rw [transport]
  split_ifs
  · exact ⟨by decide, by decide⟩
  · exact ⟨by decide, by decide⟩

theorem MediaBlock.separate (b : MediaBlock) :
    Separate ' ' b.media.chars (b.portText :: b.transport :: (b.format :: b.formats).map (·.chars)) := by
  refine ⟨b.media.notMem ' ' (List.mem_singleton_self _), ?_⟩
  rw [List.forall_mem_cons, List.forall_mem_cons]
  refine ⟨⟨List.append_ne_nil_of_left_ne_nil b.port.ne_nil _, b.blank_notMem_portText⟩, b.transport_facts, ?_⟩
  rw [List.forall_mem_map]
  exact fun n _ => ⟨n.ne_nil, Number.notMem rfl⟩

/-- What the decoder makes of the announcement. -/
def MediaBlock.announced (w : Nat) (b : MediaBlock) : SdpMedia :=
  { mediaTypeString := stripped '=' b.media.chars
    mediaType :=
      if stripped '=' b.media.chars = "audio".toList then .Audio
      else if stripped '=' b.media.chars = "video".toList then .Video else .Unknown
    port := atoi w b.port.chars
    numPorts := (b.numPorts.map fun n => atoi w n.chars).getD 0
    transportType := if b.udp then .UDP else .RTP
    formatList := (b.format :: b.formats).map fun n => atoi w n.chars }

theorem readLine_announcement (memory : Memory) (w : Nat) (b : MediaBlock) :
    SdpMedia.readLine memory w { transportType := memory.transportType } (line 'm' b.text) = .ok (b.announced w) := by
  have hsplit : split (textOf (line 'm' b.text)) [' '] =
      stripped '=' b.media.chars :: b.portText :: b.transport :: (b.format :: b.formats).map (·.chars) := by
    rw [textOf_line (by decide)]
    show split (stripped '=' b.text) [' '] = _
    rw [MediaBlock.text, stripped_append _ (head?_flatMap_cons (by decide) _), b.separate.stripped.split_eq]
  have htransport : (if b.transport = SdpMediaTransportRTPAVP then TransportType.RTP
      else if b.transport = SdpMediaTransportUDP then .UDP else memory.transportType) =
        if b.udp then .UDP else .RTP := by
    rw [MediaBlock.transport]
    cases b.udp <;> rfl
  show SdpMedia.readAnnouncement w _ _ = _
  rw [SdpMedia.readAnnouncement, hsplit, List.map_cons]
  dsimp only
  rw [b.split_portText, htransport, MediaBlock.announced, List.map_cons, List.map_map]
  cases b.numPorts with
  | none => rfl
  | some n => rfl

/-- What the encoder writes of the announcement. -/
def MediaBlock.again (w : Nat) (b : MediaBlock) : Data :=
  stripped '=' b.media.chars ++ ((decimal (atoi w b.port.chars) ++ optional ((b.numPorts.map fun n => atoi w n.chars).getD 0)) ::
    b.transport :: (b.format :: b.formats).map fun n => decimal (atoi w n.chars)).flatMap (' ' :: ·)

theorem encode_announced (w : Nat) (b : MediaBlock) : (b.announced w).encodeMediaAnnouncement = line 'm' (b.again w) := by
  have htransport : (b.announced w).transportType.transportTypeString = b.transport := by
    rw [MediaBlock.announced, MediaBlock.transport]
    cases b.udp <;> rfl
  rw [SdpMedia.encodeMediaAnnouncement, htransport, MediaBlock.again]
  have hmedia : (b.announced w).mediaTypeString = stripped '=' b.media.chars := rfl
  have hport : (b.announced w).port = atoi w b.port.chars := rfl
  have hnum : (b.announced w).numPorts = (b.numPorts.map fun n => atoi w n.chars).getD 0 := rfl
  have hformats : (b.announced w).formatList = (b.format :: b.formats).map fun n => atoi w n.chars := rfl
  rw [hmedia, hport, hnum, hformats]
  simp [spaced_eq, optional, List.flatMap_map]

/-- The announcement is written again as it is. -/
structure MediaBlock.AnnouncementKept (b : MediaBlock) : Prop where
  media : b.media.chars.head? ≠ some '='
  port : b.port.Fits 0 (2 ^ 31)
  numPorts : ∀ n ∈ b.numPorts, n.Fits 1 (2 ^ 31)
  formats : ∀ n ∈ b.format :: b.formats, n.Fits 0 (2 ^ 31)

theorem MediaBlock.port_eq_iff {w : Nat} (hw : 32 ≤ w) (b : MediaBlock) :
    decimal (atoi w b.port.chars) ++ optional ((b.numPorts.map fun n => atoi w n.chars).getD 0) = b.portText ↔
      b.port.Fits 0 (2 ^ 31) ∧ ∀ n ∈ b.numPorts, n.Fits 1 (2 ^ 31) := by
  rw [portText]
  cases b.numPorts with
  | none =>
    have hnone : optional ((Option.map (fun n : Number => atoi w n.chars) none).getD 0) = [] := rfl
    rw [hnone, List.append_nil, List.append_nil, b.port.decimal_atoi_iff hw]
    simp
  | some numPorts =>
    simp only [Option.map_some, Option.getD_some, Option.mem_some_iff, forall_eq']
    rw [← b.port.decimal_atoi_iff hw, ← numPorts.optional_atoi_iff hw]
    refine ⟨append_optional_inj (decimal_notMem rfl) (Number.notMem rfl), fun ⟨h, h'⟩ => by rw [h, h']⟩

theorem MediaBlock.again_eq_iff {w : Nat} (hw : 32 ≤ w) (b : MediaBlock) : b.again w = b.text ↔ b.AnnouncementKept := by
  have hseparate : Separate ' ' (stripped '=' b.media.chars)
      ((decimal (atoi w b.port.chars) ++ optional ((b.numPorts.map fun n => atoi w n.chars).getD 0)) ::
        b.transport :: (b.format :: b.formats).map fun n => decimal (atoi w n.chars)) := by
    have hnumPorts : ' ' ∉ optional ((b.numPorts.map fun n => atoi w n.chars).getD 0) := by
      rcases optional_eq ((b.numPorts.map fun n => atoi w n.chars).getD 0) with h | h
      · rw [h]
        exact List.not_mem_nil
      · rw [h, List.mem_cons, not_or]
        exact ⟨by decide, decimal_notMem rfl⟩
    refine ⟨b.separate.stripped.head, ?_⟩
    rw [List.forall_mem_cons, List.forall_mem_cons, List.forall_mem_map, List.mem_append, not_or]
    exact ⟨⟨List.append_ne_nil_of_left_ne_nil (decimal_ne_nil _) _, decimal_notMem rfl, hnumPorts⟩, b.transport_facts,
      fun n _ => ⟨decimal_ne_nil _, decimal_notMem rfl⟩⟩
  rw [again, text, hseparate.eq_iff b.separate, stripped_eq_self_iff, List.cons.injEq, List.cons.injEq, b.port_eq_iff hw,
    List.map_inj_left]
  constructor
  · rintro ⟨hmedia, ⟨hport, hnum⟩, -, hformats⟩
    exact ⟨hmedia, hport, hnum, fun n hn => (n.decimal_atoi_iff hw).mp (hformats n hn)⟩
  · rintro ⟨hmedia, hport, hnum, hformats⟩
    exact ⟨hmedia, ⟨hport, hnum⟩, rfl, fun n hn => (n.decimal_atoi_iff hw).mpr (hformats n hn)⟩

/-! ### The lines behind the announcement -/

theorem foldlM_append_ok {α σ ε : Type} {f : σ → α → Except ε σ} {l l' : List α} {s s' : σ}
    (h : l.foldlM f s = .ok s') : (l ++ l').foldlM f s = l'.foldlM f s' := by
  rw [List.foldlM_append, h]
  rfl

theorem foldlM_append_error {α σ ε : Type} {f : σ → α → Except ε σ} {l l' : List α} {s : σ} {e : ε}
    (h : l.foldlM f s = .error e) : (l ++ l').foldlM f s = .error e := by
  rw [List.foldlM_append, h]
  rfl

section

variable (memory : Memory) (w : Nat)

theorem foldlM_info (m : SdpMedia) (i : Option Text) :
    (i.map fun i => line 'i' i.chars).toList.foldlM (SdpMedia.readLine memory w) m =
      .ok { m with mediaInfo := (i.map fun i => stripped '=' i.chars).getD m.mediaInfo } := by
  cases i with
  | none => rfl
  | some i =>
    have hread : SdpMedia.readLine memory w m (line 'i' i.chars) = .ok { m with mediaInfo := textOf (line 'i' i.chars) } :=
      rfl
    rw [textOf_line (by decide)] at hread
    rw [Option.map_some, Option.toList_some, List.foldlM_cons, hread]
    rfl

theorem foldlM_connection (c : Option ConnectionLine) :
    ∃ conn : Option SdpConnection, conn.map SdpConnection.encode = (c.map fun c => line 'c' (c.again memory w)) ∧
      ∀ m : SdpMedia, m.connection = none →
        (c.map fun c => line 'c' c.text).toList.foldlM (SdpMedia.readLine memory w) m =
          .ok { m with connection := conn } := by
  cases c with
  | none => exact ⟨none, rfl, fun m h => h ▸ rfl⟩
  | some c =>
    obtain ⟨conn, hdecode, hencode⟩ := decode_connection memory w c
    refine ⟨some conn, congrArg some hencode, fun m _ => ?_⟩
    have hread : SdpMedia.readLine memory w m (line 'c' c.text) =
        (SdpMedia.failed (SdpConnection.decode memory w (textOf (line 'c' c.text)))).bind fun connection =>
          .ok { m with connection := some connection } := rfl
    rw [textOf_line (by decide)] at hread
    rw [Option.map_some, Option.toList_some, List.foldlM_cons, hread]
    show (SdpMedia.failed (SdpConnection.decode memory w (stripped '=' c.text))).bind _ >>= _ = _
    rw [hdecode]
    rfl

theorem foldlM_bandwidth (b : Option BandwidthLine) :
    ∃ bw : Option SdpBandwidth, bw.map SdpBandwidth.encode = (b.map fun b => line 'b' (b.again w)) ∧
      ∀ m : SdpMedia, m.bandwidth = none →
        (b.map fun b => line 'b' b.text).toList.foldlM (SdpMedia.readLine memory w) m =
          .ok { m with bandwidth := bw } := by
  cases b with
  | none => exact ⟨none, rfl, fun m h => h ▸ rfl⟩
  | some b =>
    obtain ⟨bw, hdecode, hencode⟩ := decode_bandwidth w b
    refine ⟨some bw, congrArg some hencode, fun m _ => ?_⟩
    have hread : SdpMedia.readLine memory w m (line 'b' b.text) =
        (SdpMedia.failed (SdpBandwidth.decode w (textOf (line 'b' b.text)))).bind fun bandwidth =>
          .ok { m with bandwidth := some bandwidth } := rfl
    rw [textOf_line (by decide)] at hread
    rw [Option.map_some, Option.toList_some, List.foldlM_cons, hread]
    show (SdpMedia.failed (SdpBandwidth.decode w (stripped '=' b.text))).bind _ >>= _ = _
    rw [hdecode]
    rfl

/-- What the decoder makes of a key. -/
def keyOf : Option KeyLine → Except SDPErrorType (Option SdpEncryptkey)
  | none => .ok none
  | some k => (SdpEncryptkey.decode (stripped '=' k.text)).map some

theorem foldlM_key (m : SdpMedia) (hm : m.encryptkey = none) (k : Option KeyLine) :
    (k.map fun k => line 'k' k.text).toList.foldlM (SdpMedia.readLine memory w) m =
      (SdpMedia.failed (keyOf k)).map fun key => { m with encryptkey := key } := by
  cases k with
  | none =>
    show Except.ok m = .ok { m with encryptkey := none }
    rw [← hm]
  | some k =>
    have hread : SdpMedia.readLine memory w m (line 'k' k.text) =
        (SdpMedia.failed (SdpEncryptkey.decode (textOf (line 'k' k.text)))).bind fun key =>
          .ok { m with encryptkey := some key } := rfl
    rw [textOf_line (by decide)] at hread
    rw [Option.map_some, Option.toList_some, List.foldlM_cons, hread, keyOf]
    show (SdpMedia.failed (SdpEncryptkey.decode (stripped '=' k.text))).bind _ >>= _ = _
    cases SdpEncryptkey.decode (stripped '=' k.text) with
    | error e => rfl
    | ok key => rfl

theorem foldlM_attributes (m : SdpMedia) (ls : List MediaAttributeLine) :
    (ls.map fun l => line 'a' l.text).foldlM (SdpMedia.readLine memory w) m =
      (SdpMedia.failed ((ls.map fun l => stripped '=' l.text).foldlM (MediaAttributes.setAttribute memory w)
        (m.mediaAttrib.getD {}))).map fun a => { m with mediaAttrib := if ls = [] then m.mediaAttrib else some a } := by
  induction ls generalizing m with
  | nil => rfl
  | cons l ls ih =>
    have hread : SdpMedia.readLine memory w m (line 'a' l.text) =
        (SdpMedia.failed ((m.mediaAttrib.getD {}).setAttribute memory w (textOf (line 'a' l.text)))).bind fun a =>
          .ok { m with mediaAttrib := some a } := rfl
    rw [textOf_line (by decide)] at hread
    rw [List.map_cons, List.map_cons, List.foldlM_cons, List.foldlM_cons, hread]
    show (SdpMedia.failed (MediaAttributes.setAttribute memory w (m.mediaAttrib.getD {}) (stripped '=' l.text))).bind _
      >>= _ = _
    cases MediaAttributes.setAttribute memory w (m.mediaAttrib.getD {}) (stripped '=' l.text) with
    | error e => rfl
    | ok a =>
      refine (ih { m with mediaAttrib := some a }).trans ?_
      cases ls with
      | nil => rfl
      | cons l' ls => rfl

theorem decode_block (b : MediaBlock) :
    ∃ (conn : Option SdpConnection) (bw : Option SdpBandwidth),
      conn.map SdpConnection.encode = (b.connection.map fun c => line 'c' (c.again memory w)) ∧
      bw.map SdpBandwidth.encode = (b.bandwidth.map fun b => line 'b' (b.again w)) ∧
      SdpMedia.decode memory w b.lines = (SdpMedia.failed (keyOf b.key)).bind fun key =>
        (SdpMedia.failed ((b.attributes.map fun l => stripped '=' l.text).foldlM
          (MediaAttributes.setAttribute memory w) {})).map fun a =>
            { b.announced w with
              mediaInfo := (b.info.map fun i => stripped '=' i.chars).getD [], connection := conn, bandwidth := bw,
              encryptkey := key, mediaAttrib := if b.attributes = [] then none else some a } := by
  obtain ⟨conn, hconn, hreadConn⟩ := foldlM_connection memory w b.connection
  obtain ⟨bw, hbw, hreadBw⟩ := foldlM_bandwidth memory w b.bandwidth
  refine ⟨conn, bw, hconn, hbw, ?_⟩
  have hannouncement : [line 'm' b.text].foldlM (SdpMedia.readLine memory w) { transportType := memory.transportType } =
      .ok (b.announced w) := by
    rw [List.foldlM_cons, readLine_announcement]
    rfl
  have hlines : b.lines = [line 'm' b.text] ++ ((b.info.map fun i => line 'i' i.chars).toList ++
      ((b.connection.map fun c => line 'c' c.text).toList ++ ((b.bandwidth.map fun b => line 'b' b.text).toList ++
        ((b.key.map fun k => line 'k' k.text).toList ++ b.attributes.map fun a => line 'a' a.text)))) := by
    simp [MediaBlock.lines]
  rw [SdpMedia.decode, hlines, foldlM_append_ok hannouncement, foldlM_append_ok (foldlM_info memory w _ b.info),
    foldlM_append_ok (hreadConn _ rfl), foldlM_append_ok (hreadBw _ rfl)]
  cases hkey : keyOf b.key with
  | error e =>
    refine foldlM_append_error (e := SDPErrorType.FAILED) ?_
    rw [foldlM_key memory w _ rfl, hkey]
    rfl
  | ok key =>
    rw [List.foldlM_append, foldlM_key memory w _ rfl, hkey]
    exact foldlM_attributes memory w _ b.attributes

theorem decode_block_error {b : MediaBlock} {e : SDPErrorType} (h : SdpMedia.decode memory w b.lines = .error e) :
    e = .FAILED := by
  obtain ⟨conn, bw, -, -, hdecode⟩ := decode_block memory w b
  rw [hdecode] at h
  cases hkey : keyOf b.key with
  | error e' =>
    rw [hkey] at h
    exact (Except.error.inj h).symm
  | ok key =>
    rw [hkey] at h
    cases hattr : (b.attributes.map fun l => stripped '=' l.text).foldlM (MediaAttributes.setAttribute memory w) {} with
    | error e' =>
      rw [hattr] at h
      exact (Except.error.inj h).symm
    | ok a =>
      rw [hattr] at h
      cases h

end

/-! ### Blocks that come back -/

/-- The lines of a block, in groups of one kind each. -/
def mediaLetters : List (Option Char) := [some 'm', some 'i', some 'c', some 'b', some 'k', some 'a']

def MediaBlock.groups (b : MediaBlock) : List (List Data) :=
  [[line 'm' b.text], (b.info.map fun i => line 'i' i.chars).toList, (b.connection.map fun c => line 'c' c.text).toList,
    (b.bandwidth.map fun b => line 'b' b.text).toList, (b.key.map fun k => line 'k' k.text).toList,
    b.attributes.map fun a => line 'a' a.text]

theorem MediaBlock.flatten_groups (b : MediaBlock) : b.groups.flatten = b.lines := by
  simp [groups, lines]

def SdpMedia.groups (m : SdpMedia) : List (List Data) :=
  [[m.encodeMediaAnnouncement], if m.mediaInfo.length > 0 then [line 'i' m.mediaInfo] else [],
    (m.connection.map SdpConnection.encode).toList, (m.bandwidth.map SdpBandwidth.encode).toList,
    (m.encryptkey.map SdpEncryptkey.encode).getD [], (m.mediaAttrib.map MediaAttributes.encode).getD []]

theorem SdpMedia.flatten_groups (m : SdpMedia) : m.groups.flatten = m.encode := by
  simp [groups, encode]

theorem head?_of_mem_toList {α : Type} {o : Option α} {f : α → Data} {letter : Char}
    (h : ∀ a, (f a).head? = some letter) : ∀ x ∈ (o.map f).toList, x.head? = some letter := by
  intro x hx
  rw [Option.mem_toList] at hx
  obtain ⟨a, -, rfl⟩ := Option.map_eq_some_iff.mp hx
  exact h a

theorem MediaBlock.keyed (b : MediaBlock) : Groups.Keyed List.head? mediaLetters b.groups := by
  refine .cons ?_ (.cons ?_ (.cons ?_ (.cons ?_ (.cons ?_ (.cons ?_ .nil)))))
  · simp [line]
  · exact head?_of_mem_toList fun _ => rfl
  · exact head?_of_mem_toList fun _ => rfl
  · exact head?_of_mem_toList fun _ => rfl
  · exact head?_of_mem_toList fun _ => rfl
  · rw [List.forall_mem_map]
    exact fun _ _ => rfl

theorem head?_of_mem_encode_key {k : SdpEncryptkey} : ∀ x ∈ k.encode, x.head? = some 'k' := by
  intro x hx
  rw [SdpEncryptkey.encode] at hx
  cases hmethod : k.encrypt_method <;> simp only [hmethod, List.mem_singleton, List.not_mem_nil] at hx <;> rw [hx] <;> rfl

theorem head?_of_mem_encode_attributes {a : SdpAttributes} : ∀ x ∈ a.encode, x.head? = some 'a' := by
  intro x hx
  rw [SdpAttributes.encode, List.mem_append] at hx
  rcases hx with hx | hx
  · split_ifs at hx
    · rw [List.mem_singleton.mp hx]
      rfl
    · rw [List.mem_singleton.mp hx]
      rfl
    · rw [List.mem_singleton.mp hx]
      rfl
    · cases hx
  · obtain ⟨v, -, rfl⟩ := List.mem_map.mp hx
    rfl

theorem SdpMedia.keyed (m : SdpMedia) : Groups.Keyed List.head? mediaLetters m.groups := by
  refine .cons ?_ (.cons ?_ (.cons ?_ (.cons ?_ (.cons ?_ (.cons ?_ .nil)))))
  · simp [encodeMediaAnnouncement, line]
  · split
    · simp [line]
    · simp
  · exact head?_of_mem_toList fun _ => rfl
  · exact head?_of_mem_toList fun _ => rfl
  · cases m.encryptkey with
    | none => simp
    | some k => exact head?_of_mem_encode_key
  · cases m.mediaAttrib with
    | none => simp
    | some a =>
      intro x hx
      rcases List.mem_append.mp hx with hx | hx
      · obtain ⟨r, -, rfl⟩ := List.mem_map.mp hx
        rfl
      · exact head?_of_mem_encode_attributes x hx

theorem SdpMedia.encode_eq_lines_iff (m : SdpMedia) (b : MediaBlock) : m.encode = b.lines ↔ m.groups = b.groups := by
  rw [← m.flatten_groups, ← b.flatten_groups]
  exact Groups.flatten_inj_of_keyed (by decide) m.keyed b.keyed

theorem block_of_keyed {x : Data} {groups : List (List Data)}
    (h : Groups.Keyed List.head? mediaLetters ([x] :: groups)) :
    Groups.Block (fun l : Data => l.head? = some 'm') ([x] :: groups).flatten := by
  cases h with
  | cons hx hgroups =>
    refine ⟨x, groups.flatten, rfl, hx x (List.mem_singleton_self x), fun l hl => ?_⟩
    have hmem := Groups.mem_keys hgroups hl
    intro hm
    rw [hm] at hmem
    exact absurd hmem (by decide)

theorem MediaBlock.block (b : MediaBlock) : Groups.Block (fun l : Data => l.head? = some 'm') b.lines :=
  b.flatten_groups ▸ block_of_keyed b.keyed

theorem SdpMedia.block (m : SdpMedia) : Groups.Block (fun l : Data => l.head? = some 'm') m.encode :=
  m.flatten_groups ▸ block_of_keyed m.keyed

/-- A text that is written again as it is, unless it is left out for being empty. -/
structure Text.Kept (t : Text) : Prop where
  head : t.chars.head? ≠ some '='
  ne_nil : t.chars ≠ []

/-- What is written of a text that may be left out. -/
def written (letter : Char) (x : Data) : List Data := if x.length > 0 then [line letter x] else []

theorem written_eq_iff (letter : Char) (t : Option Text) :
    written letter ((t.map fun t => stripped '=' t.chars).getD []) = (t.map fun t => line letter t.chars).toList ↔
      ∀ t' ∈ t, t'.Kept := by
  cases t with
  | none => exact iff_of_true rfl (by rintro _ ⟨⟩)
  | some t =>
    simp only [Option.map_some, Option.getD_some, Option.toList_some, Option.mem_some_iff, forall_eq', written]
    constructor
    · intro h
      split at h
      case isTrue hlen =>
        rw [List.singleton_inj, line_inj] at h
        refine ⟨stripped_eq_self_iff.mp h, ?_⟩
        rwa [h, gt_iff_lt, List.length_pos_iff] at hlen
      case isFalse => cases h
    · intro h
      rw [stripped_eq_self_iff.mpr h.head, if_pos (List.length_pos_iff.mpr h.ne_nil)]

theorem keyOf_eq_iff (k : Option KeyLine) :
    (∃ key, keyOf k = .ok key ∧
      (key.map SdpEncryptkey.encode).getD [] = (k.map fun k => line 'k' k.text).toList) ↔ ∀ k' ∈ k, k'.Known := by
  cases k with
  | none => exact iff_of_true ⟨none, rfl, rfl⟩ (by rintro _ ⟨⟩)
  | some k =>
    simp only [Option.mem_some_iff, forall_eq', Option.map_some, Option.toList_some, ← KeyLine.again_eq_iff, keyOf,
      KeyLine.again]
    cases SdpEncryptkey.decode (stripped '=' k.text) with
    | error e => exact iff_of_false (by rintro ⟨_, ⟨⟩, _⟩) (by rintro ⟨⟩)
    | ok key =>
      refine ⟨?_, fun h => ⟨some key, rfl, Option.some.inj h⟩⟩
      rintro ⟨key', hkey, h⟩
      obtain rfl := Except.ok.inj hkey
      exact congrArg some h

theorem mediaAttrib_eq_iff {memory : Memory} {w : Nat} (ls : List MediaAttributeLine) :
    (∃ a, (ls.map fun l => stripped '=' l.text).foldlM (MediaAttributes.setAttribute memory w) {} = .ok a ∧
      ((if ls = [] then none else some a).map MediaAttributes.encode).getD [] = ls.map fun l => line 'a' l.text) ↔
      Reproduced memory w ls := by
  cases ls with
  | nil => exact iff_of_true ⟨{}, rfl, rfl⟩ ⟨{}, rfl, rfl⟩
  | cons l ls => exact Iff.rfl

/-- Each line of the block is kept. -/
structure MediaBlock.Kept (b : MediaBlock) : Prop where
  announcement : b.AnnouncementKept
  info : ∀ i ∈ b.info, i.Kept
  connection : ∀ c ∈ b.connection, c.Fits
  bandwidth : ∀ bw ∈ b.bandwidth, bw.value.Fits 0 (2 ^ 31)
  key : ∀ k ∈ b.key, k.Known
  attributes : MediaAttributesKept b.attributes

theorem toList_map_inj {α β : Type} {f g : α → β} (o : Option α) :
    (o.map f).toList = (o.map g).toList ↔ ∀ a ∈ o, f a = g a := by
  cases o with
  | none => simp
  | some a => simp

theorem bandwidth_eq_iff {w : Nat} (hw : 32 ≤ w) (b : Option BandwidthLine) :
    (b.map fun b => line 'b' (b.again w)).toList = (b.map fun b => line 'b' b.text).toList ↔
      ∀ bw ∈ b, bw.value.Fits 0 (2 ^ 31) := by
  rw [toList_map_inj]
  exact forall₂_congr fun bw _ => line_inj.trans (BandwidthLine.again_eq_iff hw)

theorem MediaBlock.Kept.decode {b : MediaBlock} (h : b.Kept) (memory : Memory) {w : Nat} (hw : 32 ≤ w) :
    ∃ media, SdpMedia.decode memory w b.lines = .ok media ∧ media.encode = b.lines := by
  obtain ⟨conn, bw, hconn, hbw, hdecode⟩ := decode_block memory w b
  obtain ⟨key, hkey, hkeyLines⟩ := (keyOf_eq_iff b.key).mpr h.key
  obtain ⟨a, ha, haLines⟩ := (mediaAttrib_eq_iff b.attributes).mpr
    ((reproduced_iff hw _).mpr h.attributes : Reproduced memory w b.attributes)
  rw [hkey, ha] at hdecode
  refine ⟨_, hdecode, (SdpMedia.encode_eq_lines_iff _ b).mpr ?_⟩
  refine congrArg₂ List.cons ?_ (congrArg₂ List.cons ?_ (congrArg₂ List.cons ?_ (congrArg₂ List.cons ?_
    (congrArg₂ List.cons hkeyLines (congrArg₂ List.cons haLines rfl)))))
  · exact congrArg (fun x => [x]) ((encode_announced w b).trans
      (congrArg (line 'm') ((b.again_eq_iff hw).mpr h.announcement)))
  · exact (written_eq_iff 'i' b.info).mpr h.info
  · refine (congrArg Option.toList hconn).trans ((toList_map_inj _).mpr fun c hc => ?_)
    rw [(h.connection c hc).again_eq hw]
  · exact (congrArg Option.toList hbw).trans ((bandwidth_eq_iff hw _).mpr h.bandwidth)

/-- A block that comes back has lines that are kept, as what memory holds in place of a time to live is no number. -/
theorem MediaBlock.kept_of_decode {b : MediaBlock} {memory : Memory} (hmemory : memory.ttl < 0) {w : Nat} (hw : 32 ≤ w)
    {media : SdpMedia} (hdecode : SdpMedia.decode memory w b.lines = .ok media) (h : media.encode = b.lines) : b.Kept := by
  obtain ⟨conn, bw, hconn, hbw, hblock⟩ := decode_block memory w b
  rw [hdecode] at hblock
  cases hkey : keyOf b.key with
  | error e =>
    rw [hkey] at hblock
    cases hblock
  | ok key =>
    cases ha : (b.attributes.map fun l => stripped '=' l.text).foldlM (MediaAttributes.setAttribute memory w) {} with
    | error e =>
      rw [hkey, ha] at hblock
      cases hblock
    | ok a =>
      rw [hkey, ha] at hblock
      obtain rfl := Except.ok.inj hblock
      have hgroups := (SdpMedia.encode_eq_lines_iff _ b).mp h
      simp only [SdpMedia.groups, groups, List.cons.injEq, and_true] at hgroups
      obtain ⟨hannouncement, hinfo, hconnection, hbandwidth, hkeyLines, haLines⟩ := hgroups
      refine ⟨?_, ?_, fun c hc => ?_, ?_, (keyOf_eq_iff _).mp ⟨key, hkey, hkeyLines⟩,
        (reproduced_iff hw _).mp ((mediaAttrib_eq_iff _).mp ⟨a, ha, haLines⟩)⟩
      · exact (b.again_eq_iff hw).mp (line_inj.mp ((encode_announced w b).symm.trans hannouncement))
      · exact (written_eq_iff 'i' b.info).mp hinfo
      · rw [hconn] at hconnection
        exact ConnectionLine.fits_of_again hmemory hw (line_inj.mp ((toList_map_inj _).mp hconnection c hc))
      · rw [hbw] at hbandwidth
        exact (bandwidth_eq_iff hw _).mp hbandwidth

end Vocal.Sdp
