import Vocal.Sdp.Clean
import Vocal.Sdp.Lines

/-!
# The round trip of a description

`RoundTrips` says that `SdpSession::decode` accepts a description and that `encode` gives its lines back. It holds of the
descriptions whose lines are all kept: `description_roundTrips_iff`.
-/

namespace Vocal.Sdp

open Sip (Data CRLF)

namespace Description

/-- The session that the lines in front of the media leave. -/
def read (w : Nat) (d : Description) (connection : Option SdpConnection) (bandwidth : Option SdpBandwidth)
    (sdpTimeList : List SdpTime) : SdpSession :=
  { username := stripped '=' d.origin.username.chars
    sessionId := readId w d.origin.sessionId
    version := readId w d.origin.version
    addressType := if d.origin.ip6 then .IPV6 else .IPV4
    address := d.origin.address.chars
    sessionName := stripped '=' d.sessionName.chars
    sessionInfo := (d.info.map fun i => stripped '=' i.chars).getD []
    uriInfo := (d.uri.map fun u => stripped '=' u.chars).getD []
    emailList := d.emails.map fun e => stripped '=' e.chars
    phoneList := d.phones.map fun p => stripped '=' p.chars
    connection, bandwidth, sdpTimeList
    zoneAdjustmentList := (d.zones.map fun z => zoneAdjustments (split (stripped '=' z.text) [' '])).getD []
    encryptkey := (keyOf d.key).toOption.join
    attrib := if d.attributes = [] then none
      else some (d.attributes.foldl (fun a l => a.setAttribute (stripped '=' l.text)) {}) }

/-- The lines in front of the times, and those behind them. -/
def front (d : Description) : List Data :=
  [line 'o' d.origin.text] ++ ([line 's' d.sessionName.chars] ++ ((d.info.map fun i => line 'i' i.chars).toList ++
    ((d.uri.map fun u => line 'u' u.chars).toList ++ ((d.emails.map fun e => line 'e' e.chars) ++
      ((d.phones.map fun p => line 'p' p.chars) ++ ((d.connection.map fun c => line 'c' c.text).toList ++
        (d.bandwidth.map fun b => line 'b' b.text).toList))))))

def back (d : Description) : List Data :=
  (d.zones.map fun z => line 'z' z.text).toList ++ ((d.key.map fun k => line 'k' k.text).toList ++
    d.attributes.map fun a => line 'a' a.text)

theorem sessionLines_eq (d : Description) : d.sessionLines = d.front ++ (d.times.flatMap TimeLine.lines ++ d.back) := by
  simp [sessionLines, front, back]

theorem head?_front (d : Description) : ∀ l ∈ d.front, l.head? ≠ some 't' ∧ l.head? ≠ some 'm' := by
  have hkeyed : Groups.Keyed List.head? [some 'o', some 's', some 'i', some 'u', some 'e', some 'p', some 'c', some 'b']
      [[line 'o' d.origin.text], [line 's' d.sessionName.chars], (d.info.map fun i => line 'i' i.chars).toList,
        (d.uri.map fun u => line 'u' u.chars).toList, d.emails.map fun e => line 'e' e.chars,
        d.phones.map fun p => line 'p' p.chars, (d.connection.map fun c => line 'c' c.text).toList,
        (d.bandwidth.map fun b => line 'b' b.text).toList] := by
    refine .cons (by simp [line]) (.cons (by simp [line]) (.cons (head?_of_mem_toList fun _ => rfl)
      (.cons (head?_of_mem_toList fun _ => rfl) (.cons (by simp [line]) (.cons (by simp [line])
        (.cons (head?_of_mem_toList fun _ => rfl) (.cons (head?_of_mem_toList fun _ => rfl) .nil)))))))
  intro l hl
  have hmem : l.head? ∈ [some 'o', some 's', some 'i', some 'u', some 'e', some 'p', some 'c', some 'b'] :=
    Groups.mem_keys hkeyed (by simpa [front] using hl)
  constructor
  · rintro h
    rw [h] at hmem
    exact absurd hmem (by decide)
  · rintro h
    rw [h] at hmem
    exact absurd hmem (by decide)

theorem head?_back (d : Description) : ∀ l ∈ d.back, l.head? ∈ [some 'z', some 'k', some 'a'] := by
  have hkeyed : Groups.Keyed List.head? [some 'z', some 'k', some 'a']
      [(d.zones.map fun z => line 'z' z.text).toList, (d.key.map fun k => line 'k' k.text).toList,
        d.attributes.map fun a => line 'a' a.text] :=
    .cons (head?_of_mem_toList fun _ => rfl) (.cons (head?_of_mem_toList fun _ => rfl) (.cons (by simp [line]) .nil))
  exact fun l hl => Groups.mem_keys hkeyed (by simpa [back] using hl)

theorem readLines_sessionLines (memory : Memory) (w : Nat) (d : Description) :
    ∃ (conn : Option SdpConnection) (bw : Option SdpBandwidth) (times : List SdpTime),
      conn.map SdpConnection.encode = (d.connection.map fun c => line 'c' (c.again memory w)) ∧
      bw.map SdpBandwidth.encode = (d.bandwidth.map fun b => line 'b' (b.again w)) ∧
      times.map SdpTime.encode = d.times.map TimeLine.again ∧
      ∀ (time : Nat) (rest : List Data), (∀ l ∈ rest.head?, l.head? = some 'm') →
        SdpSession.readLines memory w { SdpSession.initial time with sdpTimeList := [] } (d.sessionLines ++ rest) =
          SdpSession.readLines memory w (d.read w conn bw times) rest := by
  obtain ⟨conn, hconn, hreadConn⟩ := SdpSession.foldlM_connection memory w d.connection
  obtain ⟨bw, hbw, hreadBw⟩ := SdpSession.foldlM_bandwidth memory w d.bandwidth
  obtain ⟨times, htimes, hreadTimes⟩ := SdpSession.readLines_times memory w d.times
  refine ⟨conn, bw, times, hconn, hbw, htimes, fun time rest hrest => ?_⟩
  have hone : ∀ {sess sess' : SdpSession} {l : Data}, SdpSession.readLine memory w sess l = some sess' →
      [l].foldlM (SdpSession.readLine memory w) sess = some sess' := by
    intro sess sess' l h
    rw [List.foldlM_cons, h]
    rfl
  have hfront : d.front.foldlM (SdpSession.readLine memory w) { SdpSession.initial time with sdpTimeList := [] } =
      some { d.read w conn bw [] with zoneAdjustmentList := [], encryptkey := none, attrib := none } := by
    rw [front, foldlM_append_some (hone (SdpSession.readLine_origin ..)),
      foldlM_append_some (hone (SdpSession.readLine_name ..)), foldlM_append_some (SdpSession.foldlM_info _ _ _ _ rfl),
      foldlM_append_some (SdpSession.foldlM_uri _ _ _ _ rfl), foldlM_append_some (SdpSession.foldlM_emails ..),
      foldlM_append_some (SdpSession.foldlM_phones ..), foldlM_append_some (hreadConn _ rfl)]
    exact hreadBw _ rfl
  have hback : d.back.foldlM (SdpSession.readLine memory w)
      { d.read w conn bw times with zoneAdjustmentList := [], encryptkey := none, attrib := none } =
        some (d.read w conn bw times) := by
    rw [back, foldlM_append_some (SdpSession.foldlM_zones ..), foldlM_append_some (SdpSession.foldlM_key _ _ _ _ rfl)]
    exact SdpSession.foldlM_attributes ..
  have hnot : ∀ l ∈ (d.back ++ rest).head?, l.head? ≠ some 'r' := by
    intro l hl hr
    rw [List.head?_append, Option.mem_def, Option.or_eq_some_iff] at hl
    rcases hl with hl | ⟨-, hl⟩
    · have hmem := d.head?_back l (List.mem_of_head? hl)
      rw [hr] at hmem
      exact absurd hmem (by decide)
    · exact absurd ((hrest l hl).symm.trans hr) (by decide)
  have hplain : ∀ l ∈ d.back, l.head? ≠ some 't' ∧ l.head? ≠ some 'm' := by
    intro l hl
    have hmem := d.head?_back l hl
    constructor
    · intro h
      rw [h] at hmem
      exact absurd hmem (by decide)
    · intro h
      rw [h] at hmem
      exact absurd hmem (by decide)
  rw [sessionLines_eq, List.append_assoc, SdpSession.readLines_append _ _ _ d.head?_front hfront, List.append_assoc,
    hreadTimes _ _ hnot]
  exact SdpSession.readLines_append _ _ _ hplain hback

end Description

/-! ### The decoder over the whole text -/

section

variable {memory : Memory} {w : Nat}

theorem readMedia_lines (sess : SdpSession) (b : MediaBlock) :
    sess.readMedia memory w b.lines = (SdpMedia.decode memory w b.lines).toOption.map sess.addMedia := by
  rw [SdpSession.readMedia]
  cases hdecode : SdpMedia.decode memory w b.lines with
  | ok media => rfl
  | error e =>
    obtain rfl := decode_block_error memory w hdecode
    rfl

theorem foldlM_readMedia_iff {bs : List MediaBlock} {sess sess' : SdpSession} :
    bs.foldlM (fun sess b => sess.readMedia memory w b.lines) sess = some sess' ↔
      ∃ medias, List.Forall₂ (fun b media => SdpMedia.decode memory w b.lines = .ok media) bs medias ∧
        sess' = { sess with mediaList := sess.mediaList ++ medias } := by
  induction bs generalizing sess with
  | nil =>
    constructor
    · intro h
      obtain rfl := Option.some.inj h
      exact ⟨[], .nil, by rw [List.append_nil]⟩
    · rintro ⟨medias, hmedias, rfl⟩
      cases hmedias
      rw [List.append_nil]
      rfl
  | cons b bs ih =>
    rw [List.foldlM_cons, readMedia_lines]
    cases hdecode : SdpMedia.decode memory w b.lines with
    | error e =>
      refine iff_of_false (by rintro ⟨⟩) ?_
      rintro ⟨medias, hmedias, -⟩
      cases hmedias with
      | cons h _ => cases hdecode.symm.trans h
    | ok media =>
      refine (@ih (sess.addMedia media)).trans ⟨?_, ?_⟩
      · rintro ⟨medias, hmedias, rfl⟩
        refine ⟨media :: medias, .cons hdecode hmedias, ?_⟩
        rw [SdpSession.addMedia, List.append_assoc]
        rfl
      · rintro ⟨medias, hmedias, rfl⟩
        cases hmedias with
        | cons h hmedias =>
          obtain rfl := Except.ok.inj (hdecode.symm.trans h)
          refine ⟨_, hmedias, ?_⟩
          rw [SdpSession.addMedia, List.append_assoc]
          rfl

theorem decode_text (memory : Memory) (w : Nat) (d : Description) :
    ∃ (conn : Option SdpConnection) (bw : Option SdpBandwidth) (times : List SdpTime),
      conn.map SdpConnection.encode = (d.connection.map fun c => line 'c' (c.again memory w)) ∧
      bw.map SdpBandwidth.encode = (d.bandwidth.map fun b => line 'b' (b.again w)) ∧
      times.map SdpTime.encode = d.times.map TimeLine.again ∧
      ∀ time sess, SdpSession.decode memory w (SdpSession.initial time) d.text = some sess ↔
        ∃ medias, List.Forall₂ (fun b media => SdpMedia.decode memory w b.lines = .ok media) d.media medias ∧
          sess = { d.read w conn bw times with isValid := true, mediaList := medias } := by
  obtain ⟨conn, bw, times, hconn, hbw, htimes, hread⟩ := d.readLines_sessionLines memory w
  refine ⟨conn, bw, times, hconn, hbw, htimes, fun time sess => ?_⟩
  have hblocks : ∀ g ∈ d.media.map MediaBlock.lines, Groups.Block (fun l : Data => l.head? = some 'm') g := by
    rw [List.forall_mem_map]
    exact fun b _ => b.block
  have hlines : SdpSession.linesOf d.text = d.lines := linesOf_ofLines d.clean
  have hcons : d.lines = line 'v' ['0'] :: (d.sessionLines ++ d.media.flatMap MediaBlock.lines) := rfl
  have hlength : ¬ (line 'v' ['0'] :: (d.sessionLines ++ d.media.flatMap MediaBlock.lines)).length < 3 := by
    simp [Description.sessionLines]
  have hdecode : SdpSession.decodeLines memory w (SdpSession.initial time) d.lines =
      (SdpSession.readLines memory w { SdpSession.initial time with sdpTimeList := [] }
        (d.sessionLines ++ d.media.flatMap MediaBlock.lines)).map fun sess => { sess with isValid := true } := by
    rw [hcons]
    refine (if_neg hlength).trans ?_
    exact if_neg fun h => h.2 rfl
  have hmedia : ∀ l ∈ (d.media.flatMap MediaBlock.lines).head?, l.head? = some 'm' :=
    Groups.head?_flatten_of_block hblocks
  rw [SdpSession.decode, hlines, hdecode, hread time _ hmedia, SdpSession.readLines_media, Option.map_eq_some_iff]
  simp only [foldlM_readMedia_iff]
  constructor
  · rintro ⟨sess', ⟨medias, hmedias, rfl⟩, rfl⟩
    exact ⟨medias, hmedias, rfl⟩
  · rintro ⟨medias, hmedias, rfl⟩
    exact ⟨_, ⟨medias, hmedias, rfl⟩, rfl⟩

end

/-! ### The lines that are written -/

/-- The letter of a line, where the repetitions of a time belong to it. -/
def letterOf (l : Data) : Option Char := if l.head? = some 'r' then some 't' else l.head?

def sessionLetters : List (Option Char) :=
  [some 'v', some 'o', some 's', some 'i', some 'u', some 'e', some 'p', some 'c', some 'b', some 't', some 'z', some 'k',
    some 'a']

theorem letterOf_eq {l : Data} {c : Char} (h : l.head? = some c) (hc : c ≠ 'r') : letterOf l = some c := by
  rw [letterOf, h, if_neg fun heq => hc (Option.some.inj heq)]

theorem letterOf_line {letter : Char} (h : letter ≠ 'r') (x : Data) : letterOf (line letter x) = some letter :=
  letterOf_eq rfl h

theorem letterOf_optional {α : Type} {o : Option α} {f : α → Data} {letter : Char} (hletter : letter ≠ 'r')
    (h : ∀ a, (f a).head? = some letter) : ∀ l ∈ (o.map f).toList, letterOf l = some letter :=
  fun l hl => letterOf_eq (head?_of_mem_toList h l hl) hletter

theorem letterOf_list {α : Type} {xs : List α} {f : α → Data} {letter : Char} (hletter : letter ≠ 'r')
    (h : ∀ a, (f a).head? = some letter) : ∀ l ∈ xs.map f, letterOf l = some letter := by
  rw [List.forall_mem_map]
  exact fun a _ => letterOf_eq (h a) hletter

theorem letterOf_written {letter : Char} (hletter : letter ≠ 'r') (x : Data) :
    ∀ l ∈ written letter x, letterOf l = some letter := by
  intro l hl
  rw [written] at hl
  split at hl
  · rw [List.mem_singleton.mp hl]
    exact letterOf_line hletter x
  · cases hl

def Description.groups (d : Description) : List (List Data) :=
  [[line 'v' ['0']], [line 'o' d.origin.text], [line 's' d.sessionName.chars],
    (d.info.map fun i => line 'i' i.chars).toList, (d.uri.map fun u => line 'u' u.chars).toList,
    d.emails.map fun e => line 'e' e.chars, d.phones.map fun p => line 'p' p.chars,
    (d.connection.map fun c => line 'c' c.text).toList, (d.bandwidth.map fun b => line 'b' b.text).toList,
    d.times.flatMap TimeLine.lines, (d.zones.map fun z => line 'z' z.text).toList,
    (d.key.map fun k => line 'k' k.text).toList, d.attributes.map fun a => line 'a' a.text]

theorem Description.lines_eq (d : Description) : d.lines = d.groups.flatten ++ d.media.flatMap MediaBlock.lines := by
  simp [lines, sessionLines, groups]

theorem Description.keyed (d : Description) : Groups.Keyed letterOf sessionLetters d.groups := by
  have hone : ∀ {letter : Char} {x : Data}, letter ≠ 'r' → ∀ l ∈ [line letter x], letterOf l = some letter :=
    fun hletter l hl => List.mem_singleton.mp hl ▸ letterOf_line hletter _
  refine .cons (hone (by decide)) (.cons (hone (by decide)) (.cons (hone (by decide))
    (.cons (letterOf_optional (by decide) fun _ => rfl) (.cons (letterOf_optional (by decide) fun _ => rfl)
    (.cons (letterOf_list (by decide) fun _ => rfl) (.cons (letterOf_list (by decide) fun _ => rfl)
    (.cons (letterOf_optional (by decide) fun _ => rfl) (.cons (letterOf_optional (by decide) fun _ => rfl)
    (.cons ?_ (.cons (letterOf_optional (by decide) fun _ => rfl) (.cons (letterOf_optional (by decide) fun _ => rfl)
    (.cons (letterOf_list (by decide) fun _ => rfl) .nil))))))))))))
  rw [List.forall_mem_flatMap]
  intro t _ l hl
  rcases List.mem_cons.mp hl with rfl | hl
  · rfl
  · obtain ⟨r, -, rfl⟩ := List.mem_map.mp hl
    rfl

def SdpSession.groups (s : SdpSession) : List (List Data) :=
  [[line 'v' (decimal s.protocolVersion)], [s.encodeOrigin], [line 's' s.sessionName], written 'i' s.sessionInfo,
    written 'u' s.uriInfo, s.emailList.map (line 'e'), s.phoneList.map (line 'p'),
    (s.connection.map SdpConnection.encode).toList, (s.bandwidth.map SdpBandwidth.encode).toList,
    s.sdpTimeList.flatMap SdpTime.encode, s.encodeTimeZoneAdjustment, (s.encryptkey.map SdpEncryptkey.encode).getD [],
    (s.attrib.map SdpAttributes.encode).getD []]

theorem SdpSession.encodeLines_eq {s : SdpSession} (h : s.isValid = true) :
    s.encodeLines = s.groups.flatten ++ s.mediaList.flatMap SdpMedia.encode := by
  rw [encodeLines, h]
  simp [groups, written]

theorem SdpSession.keyed (s : SdpSession) : Groups.Keyed letterOf sessionLetters s.groups := by
  have hone : ∀ {letter : Char} {x : Data}, letter ≠ 'r' → ∀ l ∈ [line letter x], letterOf l = some letter :=
    fun hletter l hl => List.mem_singleton.mp hl ▸ letterOf_line hletter _
  refine .cons (hone (by decide)) (.cons (hone (by decide)) (.cons (hone (by decide))
    (.cons (letterOf_written (by decide) _) (.cons (letterOf_written (by decide) _)
    (.cons (letterOf_list (by decide) fun _ => rfl) (.cons (letterOf_list (by decide) fun _ => rfl)
    (.cons (letterOf_optional (by decide) fun _ => rfl) (.cons (letterOf_optional (by decide) fun _ => rfl)
    (.cons ?_ (.cons ?_ (.cons ?_ (.cons ?_ .nil))))))))))))
  · rw [List.forall_mem_flatMap]
    intro t _ l hl
    rcases List.mem_cons.mp hl with rfl | hl
    · rfl
    · obtain ⟨r, -, rfl⟩ := List.mem_map.mp hl
      rfl
  · rw [encodeTimeZoneAdjustment]
    split
    · rintro _ ⟨⟩
    · exact hone (by decide)
  · cases s.encryptkey with
    | none => rintro _ ⟨⟩
    | some k => exact fun l hl => letterOf_eq (head?_of_mem_encode_key l hl) (by decide)
  · cases s.attrib with
    | none => rintro _ ⟨⟩
    | some a => exact fun l hl => letterOf_eq (head?_of_mem_encode_attributes l hl) (by decide)

theorem not_media_of_keyed {groups : List (List Data)} (h : Groups.Keyed letterOf sessionLetters groups) :
    ∀ l ∈ groups.flatten, ¬ l.head? = some 'm' := by
  intro l hl hm
  have hmem := Groups.mem_keys h hl
  rw [letterOf_eq hm (by decide)] at hmem
  exact absurd hmem (by decide)

theorem encodeLines_eq_iff {s : SdpSession} (h : s.isValid = true) (d : Description) :
    s.encodeLines = d.lines ↔ s.groups = d.groups ∧ s.mediaList.map SdpMedia.encode = d.media.map MediaBlock.lines := by
  have hmedia : ∀ g ∈ s.mediaList.map SdpMedia.encode, Groups.Block (fun l : Data => l.head? = some 'm') g := by
    rw [List.forall_mem_map]
    exact fun m _ => m.block
  have hblocks : ∀ g ∈ d.media.map MediaBlock.lines, Groups.Block (fun l : Data => l.head? = some 'm') g := by
    rw [List.forall_mem_map]
    exact fun b _ => b.block
  rw [SdpSession.encodeLines_eq h, d.lines_eq, List.flatMap_def, List.flatMap_def,
    Groups.append_inj_of_head (not_media_of_keyed s.keyed) (Groups.head?_flatten_of_block hmedia)
      (not_media_of_keyed d.keyed) (Groups.head?_flatten_of_block hblocks),
    Groups.flatten_inj_of_keyed (by decide) s.keyed d.keyed, Groups.flatten_inj_of_block hmedia hblocks]

/-! ### Descriptions that come back -/

/-- Each line is written again as it is. -/
structure Description.Kept (w : Nat) (d : Description) : Prop where
  username : d.origin.username.chars.head? ≠ some '='
  sessionId : d.origin.sessionId.Fits 0 (min (2 ^ 32) (2 ^ (w - 1)))
  version : d.origin.version.Fits 0 (min (2 ^ 32) (2 ^ (w - 1)))
  sessionName : d.sessionName.chars.head? ≠ some '='
  info : ∀ i ∈ d.info, i.Kept
  uri : ∀ u ∈ d.uri, u.Kept
  emails : ∀ e ∈ d.emails, e.chars.head? ≠ some '='
  phones : ∀ p ∈ d.phones, p.chars.head? ≠ some '='
  connection : ∀ c ∈ d.connection, c.Fits
  bandwidth : ∀ bw ∈ d.bandwidth, bw.value.Fits 0 (2 ^ 31)
  times : ∀ t ∈ d.times, t.start.chars.head? ≠ some '=' ∧ ∀ r ∈ t.repeats, r.interval.chars.head? ≠ some '='
  zones : ∀ z ∈ d.zones, z.time.chars.head? ≠ some '='
  key : ∀ k ∈ d.key, k.Known
  attributes : AttributesKept d.attributes
  media : ∀ b ∈ d.media, b.Kept

/-- The decoder accepts the text in any memory and at any time, and the encoder gives its lines back. -/
def Description.RoundTrips (w : Nat) (d : Description) : Prop :=
  ∀ (memory : Memory) (time : Nat), ∃ sess,
    SdpSession.decode memory w (SdpSession.initial time) d.text = some sess ∧ sess.encodeLines = d.lines ∧
      sess.encode = some d.text

theorem texts_eq_iff (letter : Char) (ts : List Text) :
    (ts.map fun t => stripped '=' t.chars).map (line letter) = ts.map (fun t => line letter t.chars) ↔
      ∀ t ∈ ts, t.chars.head? ≠ some '=' := by
  rw [List.map_map, List.map_inj_left]
  exact forall₂_congr fun t _ => line_inj.trans stripped_eq_self_iff

theorem block_times (ts : List TimeLine) :
    (∀ g ∈ ts.map TimeLine.again, Groups.Block (fun l : Data => l.head? = some 't') g) ∧
      ∀ g ∈ ts.map TimeLine.lines, Groups.Block (fun l : Data => l.head? = some 't') g := by
  have hrepeats : ∀ (rs : List RepeatLine) (f : RepeatLine → Data),
      ∀ l ∈ rs.map fun r => line 'r' (f r), ¬ l.head? = some 't' := by
    intro rs f l hl h
    obtain ⟨r, -, rfl⟩ := List.mem_map.mp hl
    exact absurd (Option.some.inj (h : some 'r' = some 't')) (by decide)
  rw [List.forall_mem_map, List.forall_mem_map]
  exact ⟨fun t _ => ⟨_, _, rfl, rfl, hrepeats _ _⟩, fun t _ => ⟨_, _, rfl, rfl, hrepeats _ _⟩⟩

theorem times_eq_iff (ts : List TimeLine) :
    (ts.map TimeLine.again).flatten = ts.flatMap TimeLine.lines ↔
      ∀ t ∈ ts, t.start.chars.head? ≠ some '=' ∧ ∀ r ∈ t.repeats, r.interval.chars.head? ≠ some '=' := by
  rw [List.flatMap_def, Groups.flatten_inj_of_block (block_times ts).1 (block_times ts).2, List.map_inj_left]
  exact forall₂_congr fun t _ => TimeLine.again_eq_iff

theorem zones_eq_iff {s : SdpSession} {z : Option ZoneLine}
    (h : s.zoneAdjustmentList = (z.map fun z => zoneAdjustments (split (stripped '=' z.text) [' '])).getD []) :
    s.encodeTimeZoneAdjustment = (z.map fun z => line 'z' z.text).toList ↔
      ∀ z' ∈ z, z'.time.chars.head? ≠ some '=' := by
  cases z with
  | none =>
    rw [SdpSession.encodeTimeZoneAdjustment, h]
    exact iff_of_true rfl (by rintro _ ⟨⟩)
  | some z =>
    rw [encode_zones h, Option.map_some, Option.toList_some, List.singleton_inj, line_inj, ZoneLine.again_eq_iff]
    simp

theorem key_eq_iff (k : Option KeyLine) :
    ((keyOf k).toOption.join.map SdpEncryptkey.encode).getD [] = (k.map fun k => line 'k' k.text).toList ↔
      ∀ k' ∈ k, k'.Known := by
  rw [← keyOf_eq_iff]
  cases hkey : keyOf k with
  | error e =>
    cases k with
    | none => cases hkey
    | some k => exact iff_of_false (by rintro ⟨⟩) (by rintro ⟨_, ⟨⟩, _⟩)
  | ok key =>
    refine ⟨fun h => ⟨key, rfl, h⟩, ?_⟩
    rintro ⟨key', hkey', h⟩
    obtain rfl := Except.ok.inj hkey'
    exact h

theorem attrib_eq_iff (ls : List AttributeLine) :
    (((if ls = [] then none else some (ls.foldl (fun a l => a.setAttribute (stripped '=' l.text)) {})).map
      SdpAttributes.encode).getD []) = ls.map (fun l => line 'a' l.text) ↔ AttributesKept ls := by
  rw [← attributesAgain_eq_iff, ← encode_foldl_setAttribute]
  cases ls with
  | nil => exact iff_of_true rfl rfl
  | cons l ls => exact Iff.rfl

theorem encodeOrigin_read (w : Nat) (d : Description) (conn : Option SdpConnection) (bw : Option SdpBandwidth)
    (times : List SdpTime) : (d.read w conn bw times).encodeOrigin = line 'o' (d.origin.again w) := by
  have htype : (d.read w conn bw times).addressType.addressTypeString = addrType d.origin.ip6 := by
    rw [Description.read]
    cases d.origin.ip6 <;> rfl
  have hnetwork : (d.read w conn bw times).networkType.networkTypeString = SdpNetworkTypeIN := rfl
  rw [SdpSession.encodeOrigin, htype, hnetwork, OriginLine.again]
  simp [Description.read]

theorem groups_read_iff {memory : Memory} {w : Nat} (hw : 32 ≤ w) {d : Description} {conn : Option SdpConnection}
    {bw : Option SdpBandwidth} {times : List SdpTime}
    (hconn : conn.map SdpConnection.encode = d.connection.map fun c => line 'c' (c.again memory w))
    (hbw : bw.map SdpBandwidth.encode = d.bandwidth.map fun b => line 'b' (b.again w))
    (htimes : times.map SdpTime.encode = d.times.map TimeLine.again) :
    (d.read w conn bw times).groups = d.groups ↔
      (d.origin.username.chars.head? ≠ some '=' ∧ d.origin.sessionId.Fits 0 (min (2 ^ 32) (2 ^ (w - 1))) ∧
        d.origin.version.Fits 0 (min (2 ^ 32) (2 ^ (w - 1)))) ∧
      d.sessionName.chars.head? ≠ some '=' ∧ (∀ i ∈ d.info, i.Kept) ∧ (∀ u ∈ d.uri, u.Kept) ∧
      (∀ e ∈ d.emails, e.chars.head? ≠ some '=') ∧ (∀ p ∈ d.phones, p.chars.head? ≠ some '=') ∧
      (∀ c ∈ d.connection, c.again memory w = c.text) ∧ (∀ bw ∈ d.bandwidth, bw.value.Fits 0 (2 ^ 31)) ∧
      (∀ t ∈ d.times, t.start.chars.head? ≠ some '=' ∧ ∀ r ∈ t.repeats, r.interval.chars.head? ≠ some '=') ∧
      (∀ z ∈ d.zones, z.time.chars.head? ≠ some '=') ∧ (∀ k ∈ d.key, k.Known) ∧ AttributesKept d.attributes := by
  have hconnection : (conn.map SdpConnection.encode).toList = (d.connection.map fun c => line 'c' c.text).toList ↔
      ∀ c ∈ d.connection, c.again memory w = c.text := by
    rw [hconn, toList_map_inj]
    exact forall₂_congr fun c _ => line_inj
  have hbandwidth := bandwidth_eq_iff hw d.bandwidth
  rw [← hbw] at hbandwidth
  have htime := times_eq_iff d.times
  rw [← htimes, ← List.flatMap_def] at htime
  have hversion : line 'v' (decimal (d.read w conn bw times).protocolVersion) = line 'v' ['0'] := by
    have hzero : decimal 0 = ['0'] := by decide
    exact congrArg _ hzero
  have hname : line 's' (d.read w conn bw times).sessionName = line 's' d.sessionName.chars ↔
      d.sessionName.chars.head? ≠ some '=' := line_inj.trans stripped_eq_self_iff
  simp only [SdpSession.groups, Description.groups, List.cons.injEq, and_true]
  rw [encodeOrigin_read, @line_inj 'o', OriginLine.again_eq_iff]
  refine (and_iff_right hversion).trans (and_congr Iff.rfl (and_congr hname ?_))
  refine and_congr (written_eq_iff 'i' d.info) (and_congr (written_eq_iff 'u' d.uri) ?_)
  refine and_congr (texts_eq_iff 'e' d.emails) (and_congr (texts_eq_iff 'p' d.phones) ?_)
  refine and_congr hconnection (and_congr hbandwidth (and_congr htime ?_))
  exact and_congr (zones_eq_iff rfl) (and_congr (key_eq_iff d.key) (attrib_eq_iff d.attributes))

theorem map_encode_of_kept (memory : Memory) {w : Nat} (hw : 32 ≤ w) {bs : List MediaBlock} (h : ∀ b ∈ bs, b.Kept) :
    ∃ medias, List.Forall₂ (fun b media => SdpMedia.decode memory w b.lines = .ok media) bs medias ∧
      medias.map SdpMedia.encode = bs.map MediaBlock.lines := by
  induction bs with
  | nil => exact ⟨[], .nil, rfl⟩
  | cons b bs ih =>
    obtain ⟨hb, hbs⟩ := List.forall_mem_cons.mp h
    obtain ⟨media, hdecode, hencode⟩ := hb.decode memory hw
    obtain ⟨medias, hdecodes, hencodes⟩ := ih hbs
    exact ⟨media :: medias, .cons hdecode hdecodes, by rw [List.map_cons, List.map_cons, hencode, hencodes]⟩

theorem kept_of_map_encode {memory : Memory} (hmemory : memory.ttl < 0) {w : Nat} (hw : 32 ≤ w) {bs : List MediaBlock}
    {medias : List SdpMedia}
    (hdecode : List.Forall₂ (fun b media => SdpMedia.decode memory w b.lines = .ok media) bs medias)
    (h : medias.map SdpMedia.encode = bs.map MediaBlock.lines) : ∀ b ∈ bs, b.Kept := by
  induction hdecode with
  | nil => exact by rintro _ ⟨⟩
  | cons hmedia _ ih =>
    obtain ⟨hencode, hencodes⟩ := List.cons.inj h
    exact List.forall_mem_cons.mpr ⟨MediaBlock.kept_of_decode hmemory hw hmedia hencode, ih hencodes⟩

/-- What comes back has lines that are kept, as memory may hold a negative time to live. -/
theorem Description.kept_of_roundTrips {w : Nat} (hw : 32 ≤ w) {d : Description} (h : d.RoundTrips w) : d.Kept w := by
  let memory : Memory :=
    { networktype := .Unknown, addresstype := .Unknown, transportType := .Unknown, ttl := -1, clockrate := 0 }
  have hmemory : memory.ttl < 0 := by decide
  obtain ⟨conn, bw, times, hconn, hbw, htimes, hdecode⟩ := decode_text memory w d
  obtain ⟨sess, hsess, hlines, -⟩ := h memory 0
  obtain ⟨medias, hmedias, rfl⟩ := (hdecode 0 sess).mp hsess
  obtain ⟨hgroups, hmedia⟩ := (encodeLines_eq_iff rfl d).mp hlines
  obtain ⟨⟨husername, hid, hversion⟩, hname, hinfo, huri, hemails, hphones, hconnection, hbandwidth, htime, hzones,
    hkey, hattributes⟩ := (groups_read_iff hw hconn hbw htimes).mp hgroups
  exact ⟨husername, hid, hversion, hname, hinfo, huri, hemails, hphones,
    fun c hc => ConnectionLine.fits_of_again hmemory hw (hconnection c hc), hbandwidth, htime, hzones, hkey,
    hattributes, kept_of_map_encode hmemory hw hmedias hmedia⟩

theorem Description.Kept.roundTrips {w : Nat} (hw : 32 ≤ w) {d : Description} (h : d.Kept w)
    (hlength : d.text.length < SdpSession.SdpTextPayloadLength) : d.RoundTrips w := by
  intro memory time
  obtain ⟨conn, bw, times, hconn, hbw, htimes, hdecode⟩ := decode_text memory w d
  obtain ⟨medias, hmedias, hencode⟩ := map_encode_of_kept memory hw h.media
  refine ⟨{ d.read w conn bw times with isValid := true, mediaList := medias },
    (hdecode time _).mpr ⟨medias, hmedias, rfl⟩, ?_⟩
  have hgroups : (d.read w conn bw times).groups = d.groups := (groups_read_iff hw hconn hbw htimes).mpr
    ⟨⟨h.username, h.sessionId, h.version⟩, h.sessionName, h.info, h.uri, h.emails, h.phones,
      fun c hc => (h.connection c hc).again_eq hw memory, h.bandwidth, h.times, h.zones, h.key, h.attributes⟩
  have hlines := (encodeLines_eq_iff (s := { d.read w conn bw times with isValid := true, mediaList := medias })
    rfl d).mpr ⟨hgroups, hencode⟩
  refine ⟨hlines, ?_⟩
  rw [SdpSession.encode, hlines]
  exact if_pos hlength

/-- The round trip of a text that fits the buffer of the encoder: it comes back if and only if each line is kept. -/
theorem Description.description_roundTrips_iff {w : Nat} (hw : 32 ≤ w) {d : Description}
    (hlength : d.text.length < SdpSession.SdpTextPayloadLength) : d.RoundTrips w ↔ d.Kept w :=
  ⟨kept_of_roundTrips hw, fun h => h.roundTrips hw hlength⟩

/-- Digits of a text. -/
def Number.of (chars : Data) (ne_nil : chars ≠ []) (h : chars.all Char.isDigit = true) : Number :=
  { chars, ne_nil, isDigit := List.all_eq_true.mp h }

/-- A field of a text. -/
def Field.of {separators : Data} (chars : Data) (cr : '\r' ∉ chars) (lf : '\n' ∉ chars) (ne_nil : chars ≠ [])
    (h : separators.all (fun c => !chars.elem c) = true) : Field separators :=
  { chars, cr, lf, ne_nil,
    notMem := fun c hc hmem => by
      have helem := List.all_eq_true.mp h c hc
      rw [List.elem_eq_true_of_mem hmem] at helem
      cases helem }

/-- A call with one audio line. -/
def audioCall (key : Option KeyLine) : Description where
  origin :=
    { username := .of ['-'] (by decide) (by decide) (by decide) (by decide)
      sessionId := .of "12".toList (by decide) (by decide)
      version := .of ['3'] (by decide) (by decide)
      ip6 := false
      address := .of "10.0.0.1".toList (by decide) (by decide) (by decide) (by decide) }
  sessionName := ⟨"call".toList, by decide, by decide⟩
  info := none
  uri := none
  emails := []
  phones := []
  connection := some
    { ip6 := false
      address := .of "224.2.1.1".toList (by decide) (by decide) (by decide) (by decide)
      multicast := some (.of "127".toList (by decide) (by decide), some (.of ['3'] (by decide) (by decide))) }
  bandwidth := none
  times := [{
    start := .of ['0'] (by decide) (by decide) (by decide) (by decide)
    stop := .of ['0'] (by decide) (by decide) (by decide) (by decide)
    repeats := [] }]
  zones := none
  key
  attributes := [.direction .recvonly]
  media := [{
    media := .of "audio".toList (by decide) (by decide) (by decide) (by decide)
    port := .of "5004".toList (by decide) (by decide)
    numPorts := none
    udp := false
    format := .of ['0'] (by decide) (by decide)
    formats := []
    info := none
    connection := none
    bandwidth := none
    key := none
    attributes := [.rtpmap {
      payload := .of ['0'] (by decide) (by decide)
      name := .of "PCMU".toList (by decide) (by decide) (by decide) (by decide)
      rate := .of "8000".toList (by decide) (by decide)
      parms := none }] }]

theorem audioCall_kept : (audioCall (some .prompt)).Kept 64 where
  username := by decide
  sessionId := ⟨12, by decide, by decide, by decide⟩
  version := ⟨3, by decide, by decide, by decide⟩
  sessionName := by decide
  info := by rintro _ ⟨⟩
  uri := by rintro _ ⟨⟩
  emails := by rintro _ ⟨⟩
  phones := by rintro _ ⟨⟩
  connection := by
    rintro c hc p hp
    obtain rfl := Option.some.inj hc
    obtain rfl := Option.some.inj hp
    refine ⟨⟨127, by decide, by decide, by decide⟩, fun n hn => ?_⟩
    obtain rfl := Option.some.inj hn
    exact ⟨3, by decide, by decide, by decide⟩
  bandwidth := by rintro _ ⟨⟩
  times := by
    rintro t ht
    obtain rfl := List.mem_singleton.mp ht
    exact ⟨by decide, by rintro _ ⟨⟩⟩
  zones := by rintro _ ⟨⟩
  key := by
    rintro k hk
    obtain rfl := Option.some.inj hk
    exact trivial
  attributes := ⟨by decide, by decide, fun l hl => List.mem_singleton.mp hl ▸ trivial⟩
  media := by
    rintro b hb
    obtain rfl := List.mem_singleton.mp hb
    refine ⟨⟨by decide, ⟨5004, by decide, by decide, by decide⟩, by rintro _ ⟨⟩, fun n hn => ?_⟩,
      by rintro _ ⟨⟩, by rintro _ ⟨⟩, by rintro _ ⟨⟩, by rintro _ ⟨⟩, ?_⟩
    · obtain rfl := List.mem_singleton.mp hn
      exact ⟨0, by decide, by decide, by decide⟩
    · refine ⟨by decide, fun r hr => ?_, ⟨by decide, by decide, by rintro _ ⟨⟩⟩, by rintro _ ⟨⟩⟩
      obtain rfl := MediaAttributeLine.rtpmap.inj (List.mem_singleton.mp hr)
      exact ⟨⟨0, by decide, by decide, by decide⟩, ⟨8000, by decide, by decide, by decide⟩, by rintro _ ⟨⟩⟩

set_option maxRecDepth 2000 in
theorem Description.description_roundTrips_iff_audioCall : (audioCall (some .prompt)).RoundTrips 64 :=
  (Description.description_roundTrips_iff (by decide) (by decide)).mpr audioCall_kept

/-- A key of the session that is given in clear is lost. -/
theorem Description.not_description_roundTrips :
    ¬ (audioCall (some (.clear ⟨"secret".toList, by decide, by decide⟩))).RoundTrips 64 :=
  fun h => (kept_of_roundTrips (by decide) h).key _ rfl

end Vocal.Sdp
