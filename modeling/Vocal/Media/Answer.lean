import Vocal.Media.Negotiate

/-!
# What an answer must keep of its offer

`ValidAnswer` is the purpose of an answer: its numbers are numbers of the audio lines of the offer, in their order,
each once and with the encoding it has there, and none is missing whose encoding is registered. `Agreed` says of an
offer that its numbers are the ones under which this side lists the codecs.
-/

namespace Vocal.Media

open Sip (Data isEqualNoCase)
open Sdp

/-! ### Encodings -/

/-- The encoding that a line gives a payload number: that of its entry, and without one, of a static number, the
registered one. -/
def denoted (caps : MediaCapability) (m : SdpMedia) (n : Int) : Option Data :=
  match m.mediaAttrib.bind fun a => a.getRtpmapAttributeValue n with
  | some rtpMap => some rtpMap.encodingName
  | none => if n < 96 then (caps.myCodecMap.find? fun p => (p.1 : Int) = n).map (·.2.encodingName) else none

/-- Both are known, and are one but for the case of their letters. -/
def SameEncoding (x y : Option Data) : Prop := ∃ a ∈ x, ∃ b ∈ y, isEqualNoCase a b = true

/-- A codec of this encoding is registered. -/
def Registered (caps : MediaCapability) (x : Option Data) : Prop :=
  ∃ p ∈ caps.myCodecMap, SameEncoding x (some p.2.encodingName)

/-! ### Answers -/

/-- The payload numbers of the audio lines of an offer, each with its line. -/
def offered (offer : SdpSession) : List (SdpMedia × Int) := (audioLines offer).flatMap fun m => m.formatList.map (m, ·)

structure ValidAnswer (caps : MediaCapability) (offer : SdpSession) (answer : SdpMedia) : Prop where
  nodup : answer.formatList.Nodup
  sublist : answer.formatList.Sublist ((offered offer).map (·.2))
  denotes : ∀ a ∈ answer.formatList, ∃ m, (m, a) ∈ offered offer ∧ ∃ name, denoted caps answer a = some name ∧
    SameEncoding (denoted caps m a) (some name)
  complete : ∀ p ∈ offered offer, Registered caps (denoted caps p.1 p.2) → p.2 ∈ answer.formatList

/-- The codec that supports a number. -/
def codecFor (caps : MediaCapability) (offer : SdpSession) (n : Int) : Option CodecAdaptor :=
  (caps.isSupported offer n).bind caps.getCodec

/-- A codec is listed under this number behind the numbers `before`: under its own type, and Speex under the first
dynamic number that is not among them. -/
def ListedAs (before : List Int) (c : CodecAdaptor) (n : Int) : Prop :=
  if c.type = SPEEX then n ∈ dynamicNumbers ∧ n ∉ before ∧ ∀ i ∈ dynamicNumbers, i < n → i ∈ before else n = c.type

/-- The numbers of an offer behind the supported numbers `before`. A supported one stands there for the first time,
has in its line the encoding of the codec that supports it, and is the number under which that codec is listed. One
that is not supported has no encoding that is registered. -/
def Agreed (caps : MediaCapability) (offer : SdpSession) : List Int → List (SdpMedia × Int) → Prop
  | _, [] => True
  | before, (m, n) :: rest =>
    match codecFor caps offer n with
    | some c => n ∉ before ∧ SameEncoding (denoted caps m n) (some c.encodingName) ∧ ListedAs before c n ∧
        Agreed caps offer (before ++ [n]) rest
    | none => ¬ Registered caps (denoted caps m n) ∧ Agreed caps offer before rest

/-! ### The codecs of an offer -/

variable {caps : MediaCapability} {offer : SdpSession}

theorem MediaCapability.getCodec_of_mem {p : VCodecType × CodecAdaptor} (hp : p ∈ caps.myCodecMap) :
    caps.getCodec p.1 = some p.2 := caps.sorted.lookup_of_mem hp

theorem MediaCapability.isSupported_of_lt {n : Int} (h : n < 96) :
    caps.isSupported offer n = (caps.myCodecMap.find? fun p => (p.1 : Int) = n).map (·.1) :=
  if_neg (not_le.mpr h)

theorem MediaCapability.isSupported_of_le {n : Int} (h : 96 ≤ n) :
    caps.isSupported offer n =
      (caps.myCodecMap.find? fun p => 96 ≤ p.1 && checkType offer n p.2.encodingName).map (·.1) :=
  if_pos h

theorem codecFor_of_lt {n : Int} (h : n < 96) :
    codecFor caps offer n = (caps.myCodecMap.find? fun p => (p.1 : Int) = n).map (·.2) := by
  rw [codecFor, MediaCapability.isSupported_of_lt h]
  cases hfind : caps.myCodecMap.find? fun p => (p.1 : Int) = n with
  | none => rfl
  | some p => exact MediaCapability.getCodec_of_mem (List.mem_of_find?_eq_some hfind)

theorem codecFor_of_le {n : Int} (h : 96 ≤ n) :
    codecFor caps offer n =
      (caps.myCodecMap.find? fun p => 96 ≤ p.1 && checkType offer n p.2.encodingName).map (·.2) := by
  rw [codecFor, MediaCapability.isSupported_of_le h]
  cases hfind : caps.myCodecMap.find? fun p => 96 ≤ p.1 && checkType offer n p.2.encodingName with
  | none => rfl
  | some p => exact MediaCapability.getCodec_of_mem (List.mem_of_find?_eq_some hfind)

theorem codecFor_eq_some {n : Int} {c : CodecAdaptor} (h : codecFor caps offer n = some c) :
    (c.type, c) ∈ caps.myCodecMap ∧ ((n < 96 ∧ (c.type : Int) = n) ∨
      (96 ≤ n ∧ 96 ≤ c.type ∧ checkType offer n c.encodingName = true)) := by
  rcases lt_or_ge n 96 with hn | hn
  · rw [codecFor_of_lt hn, Option.map_eq_some_iff] at h
    obtain ⟨p, hfind, rfl⟩ := h
    have hmem := List.mem_of_find?_eq_some hfind
    have htype := caps.type_eq p hmem
    have hpred := List.find?_some hfind
    rw [decide_eq_true_eq] at hpred
    exact ⟨htype ▸ hmem, Or.inl ⟨hn, htype ▸ hpred⟩⟩
  · rw [codecFor_of_le hn, Option.map_eq_some_iff] at h
    obtain ⟨p, hfind, rfl⟩ := h
    have hmem := List.mem_of_find?_eq_some hfind
    have htype := caps.type_eq p hmem
    have hpred := List.find?_some hfind
    rw [Bool.and_eq_true, decide_eq_true_eq] at hpred
    exact ⟨htype ▸ hmem, Or.inr ⟨hn, htype ▸ hpred.1, hpred.2⟩⟩

/-- The supported numbers, each with its codec. -/
def accepted (caps : MediaCapability) (offer : SdpSession) (ps : List (SdpMedia × Int)) : List (Int × CodecAdaptor) :=
  ps.filterMap fun p => (codecFor caps offer p.2).map fun c => (p.2, c)

theorem accepted_cons_none {p : SdpMedia × Int} (hc : codecFor caps offer p.2 = none) (ps : List (SdpMedia × Int)) :
    accepted caps offer (p :: ps) = accepted caps offer ps :=
  List.filterMap_cons_none (by rw [hc]; rfl)

theorem accepted_cons_some {p : SdpMedia × Int} {c : CodecAdaptor} (hc : codecFor caps offer p.2 = some c)
    (ps : List (SdpMedia × Int)) : accepted caps offer (p :: ps) = (p.2, c) :: accepted caps offer ps :=
  List.filterMap_cons_some (by rw [hc]; rfl)

theorem getFormatList_getD (m : SdpMedia) : m.getFormatList.getD [] = m.formatList := by
  rw [SdpMedia.getFormatList]
  cases m.formatList with
  | nil => rfl
  | cons n ns => rfl

theorem map_getCodec_acList :
    (acList caps offer).map caps.getCodec = ((accepted caps offer (offered offer)).map (·.2)).map some := by
  rw [acList, accepted, offered, List.filterMap_flatMap]
  simp only [List.map_flatMap, getFormatList_getD, List.filterMap_map, List.map_filterMap]
  refine List.flatMap_congr fun m _ => List.filterMap_congr fun n _ => ?_
  show (caps.isSupported offer n).map caps.getCodec =
    (((codecFor caps offer n).map fun c => (n, c)).map (·.2)).map some
  cases hs : caps.isSupported offer n with
  | none => rw [codecFor, hs]; rfl
  | some t =>
    obtain ⟨c, hc⟩ : ∃ c, caps.getCodec t = some c := by
      rw [MediaCapability.isSupported] at hs
      split at hs
      all_goals
        obtain ⟨p, hfind, rfl⟩ := Option.map_eq_some_iff.mp hs
        exact ⟨p.2, MediaCapability.getCodec_of_mem (List.mem_of_find?_eq_some hfind)⟩
    rw [codecFor, hs]
    show some (caps.getCodec t) = (((caps.getCodec t).map fun c => (n, c)).map (·.2)).map some
    rw [hc]
    rfl

/-! ### The entries of an answer -/

/-- The number under which a codec is listed behind entries with the payload types `used`. -/
def number (used : List Int) (c : CodecAdaptor) : Option Int :=
  if c.type = SPEEX then dynamicNumbers.find? (· ∉ used) else some c.type

/-- The entries that codecs are given: the number that is listed, the payload type and the codec. -/
def entries (memory : Nat → Int) : List Int → List CodecAdaptor → List (Option Int × Int × CodecAdaptor)
  | _, [] => []
  | used, c :: cs =>
    (number used c, (number used c).getD (memory 0), c) ::
      entries (fun i => memory (i + 1)) (used ++ [(number used c).getD (memory 0)]) cs

theorem isNone_getRtpmapAttributeValue (a : MediaAttributes) (i : Int) :
    (a.getRtpmapAttributeValue i).isNone = decide (i ∉ a.rtpmap.map (·.payloadType)) := by
  rw [MediaAttributes.getRtpmapAttributeValue, Bool.eq_iff_iff, Option.isNone_iff_eq_none, List.find?_eq_none]
  simp

/-- What an entry looks like from outside. -/
def entryOf (r : SdpRtpMapAttribute) : Int × Data := (r.payloadType, r.encodingName)

theorem addMediaAttribute_eq (memory : Int) {m : SdpMedia} {a : MediaAttributes} (hm : m.mediaAttrib = some a)
    (c : CodecAdaptor) :
    ∃ m' a', addMediaAttribute memory m (some c) = some m' ∧ m'.mediaAttrib = some a' ∧
      m'.formatList = m.formatList ++ (number (a.rtpmap.map (·.payloadType)) c).toList ∧
      a'.rtpmap.map entryOf =
        a.rtpmap.map entryOf ++ [((number (a.rtpmap.map (·.payloadType)) c).getD memory, c.encodingName)] := by
  have hnumber : (if c.type = SPEEX then dynamicNumbers.find? fun i => (a.getRtpmapAttributeValue i).isNone
      else some (c.type : Int)) = number (a.rtpmap.map (·.payloadType)) c := by
    simp only [number, isNone_getRtpmapAttributeValue]
  simp only [addMediaAttribute, hm, hnumber]
  refine ⟨_, _, rfl, rfl, ?_, ?_⟩
  · cases number (a.rtpmap.map (·.payloadType)) c with
    | none => exact (List.append_nil _).symm
    | some i => rfl
  · exact List.map_append

theorem addMediaAttributes_eq (memory : Nat → Int) {m : SdpMedia} {a : MediaAttributes} (hm : m.mediaAttrib = some a)
    (cs : List CodecAdaptor) :
    ∃ m' a', addMediaAttributes memory m (cs.map some) = some m' ∧ m'.mediaAttrib = some a' ∧
      m'.formatList = m.formatList ++ (entries memory (a.rtpmap.map (·.payloadType)) cs).filterMap (·.1) ∧
      a'.rtpmap.map entryOf = a.rtpmap.map entryOf ++
        (entries memory (a.rtpmap.map (·.payloadType)) cs).map fun e => (e.2.1, e.2.2.encodingName) := by
  induction cs generalizing memory m a with
  | nil => exact ⟨m, a, rfl, hm, (List.append_nil _).symm, (List.append_nil _).symm⟩
  | cons c cs ih =>
    obtain ⟨m', a', hadd, hm', hformats, hentries⟩ := addMediaAttribute_eq (memory 0) hm c
    obtain ⟨m'', a'', hadds, hm'', hformats', hentries'⟩ := ih (fun i => memory (i + 1)) hm'
    have hpayloads : a'.rtpmap.map (·.payloadType) = a.rtpmap.map (·.payloadType) ++
        [(number (a.rtpmap.map (·.payloadType)) c).getD (memory 0)] := by
      have h := congrArg (List.map Prod.fst) hentries
      rw [List.map_append, List.map_map, List.map_map] at h
      exact h
    refine ⟨m'', a'', ?_, hm'', ?_, ?_⟩
    · rw [List.map_cons, addMediaAttributes, hadd]
      exact hadds
    · rw [hformats', hformats, hpayloads, entries, List.append_assoc]
      cases number (a.rtpmap.map (·.payloadType)) c with
      | none => rfl
      | some i => rfl
    · rw [hentries', hentries, hpayloads, entries, List.append_assoc]
      rfl

theorem mediaList_setHost (sdpSess : SdpSession) (hostAddr : Data) :
    (setHost sdpSess hostAddr).mediaList = sdpSess.mediaList := by
  rw [setHost]
  split
  · rfl
  · rfl

theorem negotiateSdp_eq (caps : MediaCapability) (memory : Nat → Int) (sdpSess : SdpSession) (localAddr : Data)
    (localPort : Int) (offer : SdpSession) :
    ∃ sess answer a, negotiateSdp caps memory sdpSess localAddr localPort offer = some sess ∧
      sess.mediaList = sdpSess.mediaList ++ [answer] ∧ answer.mediaAttrib = some a ∧
      answer.formatList = (entries memory [] ((accepted caps offer (offered offer)).map (·.2))).filterMap (·.1) ∧
      a.rtpmap.map entryOf =
        (entries memory [] ((accepted caps offer (offered offer)).map (·.2))).map fun e =>
          (e.2.1, e.2.2.encodingName) := by
  obtain ⟨answer, a, hadd, ha, hformats, hentries⟩ := addMediaAttributes_eq memory
    (m := ((((({} : SdpMedia).clearFormatList).setMediaType .Audio).setPort localPort).setMediaAttributes {})) rfl
    ((accepted caps offer (offered offer)).map (·.2))
  refine ⟨{ (setHost sdpSess localAddr).addMedia answer with sessionName := "Vocal-Media-Lib".toList }, answer, a, ?_,
    ?_, ha, hformats, hentries⟩
  · rw [negotiateSdp, map_getCodec_acList, hadd]
    rfl
  · show (setHost sdpSess localAddr).mediaList ++ [answer] = _
    rw [mediaList_setHost]

/-! ### Answers whose entries all have their numbers -/

theorem find?_of_nodup {α β : Type} [DecidableEq β] (key : α → β) {l : List α} (hnodup : (l.map key).Nodup) {x : α}
    (hx : x ∈ l) : l.find? (fun y => key y = key x) = some x := by
  induction l with
  | nil => cases hx
  | cons y l ih =>
    rw [List.map_cons, List.nodup_cons] at hnodup
    rcases List.mem_cons.mp hx with rfl | hx
    · exact List.find?_cons_of_pos (decide_eq_true rfl)
    · have hne : key y ≠ key x := fun heq => hnodup.1 (heq ▸ List.mem_map_of_mem hx)
      rw [List.find?_cons_of_neg (by simpa using hne)]
      exact ih hnodup.2 hx

/-- An entry whose number is listed. -/
def listedEntry (q : Int × CodecAdaptor) : Option Int × Int × CodecAdaptor := (some q.1, q.1, q.2)

theorem filterMap_listedEntry (qs : List (Int × CodecAdaptor)) :
    (qs.map listedEntry).filterMap (·.1) = qs.map (·.1) := by
  rw [List.filterMap_map]
  exact List.filterMap_eq_map_iff_forall_eq_some.mpr fun _ _ => rfl

theorem denoted_of_listed {answer : SdpMedia} {a : MediaAttributes} (ha : answer.mediaAttrib = some a)
    {qs : List (Int × CodecAdaptor)}
    (hentries : a.rtpmap.map entryOf = (qs.map listedEntry).map fun e => (e.2.1, e.2.2.encodingName))
    (hnodup : (qs.map (·.1)).Nodup) {q : Int × CodecAdaptor} (hq : q ∈ qs) :
    denoted caps answer q.1 = some q.2.encodingName := by
  have hmap : (a.rtpmap.map entryOf).map (·.1) = qs.map (·.1) := by
    rw [hentries, List.map_map, List.map_map]
    rfl
  have hmem : (q.1, q.2.encodingName) ∈ a.rtpmap.map entryOf := by
    rw [hentries, List.map_map]
    exact List.mem_map_of_mem hq
  obtain ⟨r, hr, hentry⟩ := List.mem_map.mp hmem
  obtain ⟨htype, hname⟩ := Prod.mk.inj hentry
  rw [List.map_map] at hmap
  have hfind := find?_of_nodup (·.payloadType) (hmap.symm ▸ hnodup) hr
  rw [denoted, ha]
  show (match a.getRtpmapAttributeValue q.1 with
    | some rtpMap => some rtpMap.encodingName
    | none => _) = _
  rw [MediaAttributes.getRtpmapAttributeValue, ← htype, hfind]
  exact congrArg some hname

/-! ### Offers that agree -/

/-- What is found in a list that increases is the least of what is looked for. -/
theorem find?_eq_some_of_increasing {l : List Int} (hl : l.Pairwise (· < ·)) {p : Int → Bool} {n : Int} :
    l.find? p = some n ↔ n ∈ l ∧ p n = true ∧ ∀ i ∈ l, i < n → p i = false := by
  induction l with
  | nil => simp
  | cons k l ih =>
    obtain ⟨hk, hl⟩ := List.pairwise_cons.mp hl
    cases hp : p k with
    | true =>
      rw [List.find?_cons_of_pos hp, Option.some_inj]
      constructor
      · rintro rfl
        refine ⟨List.mem_cons_self, hp, fun i hi hlt => ?_⟩
        rcases List.mem_cons.mp hi with rfl | hi
        · exact absurd hlt (lt_irrefl i)
        · exact absurd hlt (hk i hi).not_gt
      · rintro ⟨hn, -, hleast⟩
        rcases List.mem_cons.mp hn with rfl | hn
        · rfl
        · exact absurd (hleast k List.mem_cons_self (hk n hn)) (by simp [hp])
    | false =>
      rw [List.find?_cons_of_neg (by simp [hp]), ih hl]
      constructor
      · rintro ⟨hn, hpn, hleast⟩
        refine ⟨List.mem_cons_of_mem k hn, hpn, fun i hi hlt => ?_⟩
        rcases List.mem_cons.mp hi with rfl | hi
        · exact hp
        · exact hleast i hi hlt
      · rintro ⟨hn, hpn, hleast⟩
        refine ⟨?_, hpn, fun i hi => hleast i (List.mem_cons_of_mem k hi)⟩
        rcases List.mem_cons.mp hn with rfl | hn
        · rw [hp] at hpn
          cases hpn
        · exact hn

theorem increasing_dynamicNumbers : dynamicNumbers.Pairwise (· < ·) := by
  rw [dynamicNumbers, List.pairwise_map]
  exact List.Pairwise.imp Int.ofNat_lt.mpr (List.pairwise_lt_range' _)

theorem number_eq_some {used : List Int} {c : CodecAdaptor} {n : Int} : number used c = some n ↔ ListedAs used c n := by
  rw [number, ListedAs]
  split
  · rw [find?_eq_some_of_increasing increasing_dynamicNumbers]
    simp only [decide_eq_true_eq, decide_eq_false_iff_not, not_not]
  · exact Option.some_inj.trans eq_comm

theorem Agreed.entries_eq {before : List Int} {ps : List (SdpMedia × Int)} (h : Agreed caps offer before ps)
    (memory : Nat → Int) :
    entries memory before ((accepted caps offer ps).map (·.2)) = (accepted caps offer ps).map listedEntry := by
  induction ps generalizing memory before with
  | nil => rfl
  | cons p ps ih =>
    obtain ⟨m, n⟩ := p
    rw [Agreed] at h
    cases hc : codecFor caps offer n with
    | none =>
      rw [hc] at h
      rw [accepted_cons_none hc]
      exact ih h.2 memory
    | some c =>
      rw [hc] at h
      obtain ⟨-, -, hlisted, hrest⟩ := h
      rw [accepted_cons_some hc, List.map_cons, List.map_cons, entries,
        number_eq_some.mpr hlisted]
      exact congrArg _ (ih hrest fun i => memory (i + 1))

theorem Agreed.nodup {before : List Int} {ps : List (SdpMedia × Int)} (h : Agreed caps offer before ps)
    (hbefore : before.Nodup) : (before ++ (accepted caps offer ps).map (·.1)).Nodup := by
  induction ps generalizing before with
  | nil =>
    rw [accepted, List.filterMap_nil, List.map_nil, List.append_nil]
    exact hbefore
  | cons p ps ih =>
    obtain ⟨m, n⟩ := p
    rw [Agreed] at h
    cases hc : codecFor caps offer n with
    | none =>
      rw [hc] at h
      rw [accepted_cons_none hc]
      exact ih h.2 hbefore
    | some c =>
      rw [hc] at h
      obtain ⟨hn, -, -, hrest⟩ := h
      rw [accepted_cons_some hc, List.map_cons, List.append_cons]
      exact ih hrest (List.concat_eq_append ▸ hbefore.concat hn)

theorem Agreed.forall_mem {before : List Int} {ps : List (SdpMedia × Int)} (h : Agreed caps offer before ps)
    {p : SdpMedia × Int} (hp : p ∈ ps) :
    (∀ c, codecFor caps offer p.2 = some c → SameEncoding (denoted caps p.1 p.2) (some c.encodingName)) ∧
      (codecFor caps offer p.2 = none → ¬ Registered caps (denoted caps p.1 p.2)) := by
  induction ps generalizing before with
  | nil => cases hp
  | cons q ps ih =>
    obtain ⟨m, n⟩ := q
    rw [Agreed] at h
    cases hc : codecFor caps offer n with
    | none =>
      rw [hc] at h
      rcases List.mem_cons.mp hp with rfl | hp
      · exact ⟨fun c hc' => (Option.some_ne_none c (hc'.symm.trans hc)).elim, fun _ => h.1⟩
      · exact ih h.2 hp
    | some c =>
      rw [hc] at h
      obtain ⟨-, hsame, -, hrest⟩ := h
      rcases List.mem_cons.mp hp with rfl | hp
      · exact ⟨fun c' hc' => Option.some.inj (hc.symm.trans hc') ▸ hsame, fun hc' =>
          (Option.some_ne_none c (hc.symm.trans hc')).elim⟩
      · exact ih hrest hp

theorem mem_accepted {ps : List (SdpMedia × Int)} {q : Int × CodecAdaptor} :
    q ∈ accepted caps offer ps ↔ codecFor caps offer q.1 = some q.2 ∧ ∃ m, (m, q.1) ∈ ps := by
  rw [accepted, List.mem_filterMap]
  constructor
  · rintro ⟨⟨m, n⟩, hp, heq⟩
    obtain ⟨c, hc, rfl⟩ := Option.map_eq_some_iff.mp heq
    exact ⟨hc, m, hp⟩
  · rintro ⟨hc, m, hp⟩
    exact ⟨(m, q.1), hp, by rw [hc]; rfl⟩

theorem sublist_accepted (ps : List (SdpMedia × Int)) :
    ((accepted caps offer ps).map (·.1)).Sublist (ps.map (·.2)) := by
  induction ps with
  | nil => exact List.Sublist.slnil
  | cons p ps ih =>
    cases hc : codecFor caps offer p.2 with
    | none =>
      rw [accepted_cons_none hc]
      exact ih.cons _
    | some c =>
      rw [accepted_cons_some hc]
      exact ih.cons_cons _

theorem Agreed.validAnswer (h : Agreed caps offer [] (offered offer)) (memory : Nat → Int) {answer : SdpMedia}
    {a : MediaAttributes} (ha : answer.mediaAttrib = some a)
    (hformats : answer.formatList =
      (entries memory [] ((accepted caps offer (offered offer)).map (·.2))).filterMap (·.1))
    (hentries : a.rtpmap.map entryOf = (entries memory [] ((accepted caps offer (offered offer)).map (·.2))).map fun e =>
      (e.2.1, e.2.2.encodingName)) : ValidAnswer caps offer answer := by
  rw [h.entries_eq, filterMap_listedEntry] at hformats
  rw [h.entries_eq] at hentries
  have hnodup := h.nodup List.nodup_nil
  rw [List.nil_append] at hnodup
  refine ⟨hformats ▸ hnodup, hformats ▸ sublist_accepted _, fun n hn => ?_, fun p hp hregistered => ?_⟩
  · rw [hformats] at hn
    obtain ⟨q, hq, rfl⟩ := List.mem_map.mp hn
    obtain ⟨hc, m, hm⟩ := mem_accepted.mp hq
    exact ⟨m, hm, _, denoted_of_listed ha hentries hnodup hq, (h.forall_mem hm).1 _ hc⟩
  · cases hc : codecFor caps offer p.2 with
    | none => exact absurd hregistered ((h.forall_mem hp).2 hc)
    | some c =>
      rw [hformats]
      exact List.mem_map_of_mem (f := (·.1)) ((mem_accepted (q := (p.2, c))).mpr ⟨hc, p.1, hp⟩)

/-! ### Offers without ambiguity -/

/-- No number is offered twice, and the first line gives no dynamic number an encoding that it does not denote where it
is offered. -/
structure Unambiguous (caps : MediaCapability) (offer : SdpSession) : Prop where
  nodup : ((offered offer).map (·.2)).Nodup
  first : ∀ p ∈ offered offer, 96 ≤ p.2 → ∀ name, checkType offer p.2 name = true →
    SameEncoding (denoted caps p.1 p.2) (some name)

theorem Unambiguous.eq_of_mem (h : Unambiguous caps offer) {m m' : SdpMedia} {n : Int} (hm : (m, n) ∈ offered offer)
    (hm' : (m', n) ∈ offered offer) : m = m' :=
  congrArg Prod.fst (List.inj_on_of_nodup_map h.nodup hm hm' rfl)

theorem mem_entries {memory : Nat → Int} {used : List Int} {cs : List CodecAdaptor}
    {e : Option Int × Int × CodecAdaptor} (he : e ∈ entries memory used cs) :
    (∀ n, e.1 = some n → e.2.1 = n) ∧ ∃ used, e.1 = number used e.2.2 := by
  induction cs generalizing memory used with
  | nil => cases he
  | cons c cs ih =>
    rw [entries] at he
    rcases List.mem_cons.mp he with rfl | he
    · refine ⟨fun n hn => ?_, used, rfl⟩
      show (number used c).getD _ = n
      rw [show number used c = some n from hn]
      rfl
    · exact ih he

theorem map_entries (memory : Nat → Int) (used : List Int) (cs : List CodecAdaptor) :
    (entries memory used cs).map (·.2.2) = cs := by
  induction cs generalizing memory used with
  | nil => rfl
  | cons c cs ih => exact congrArg _ (ih _ _)

theorem length_entries (memory : Nat → Int) (used : List Int) (cs : List CodecAdaptor) :
    (entries memory used cs).length = cs.length :=
  (List.length_map (·.2.2)).symm.trans (congrArg List.length (map_entries memory used cs))

theorem exists_listed {es : List (Option Int × Int × CodecAdaptor)} (hsome : ∀ e ∈ es, e.1.isSome)
    (hpayload : ∀ e ∈ es, ∀ n, e.1 = some n → e.2.1 = n) :
    ∃ qs : List (Int × CodecAdaptor), es = qs.map listedEntry := by
  induction es with
  | nil => exact ⟨[], rfl⟩
  | cons e es ih =>
    obtain ⟨qs, rfl⟩ := ih (fun e he => hsome e (List.mem_cons_of_mem _ he)) fun e he =>
      hpayload e (List.mem_cons_of_mem _ he)
    obtain ⟨number, payload, c⟩ := e
    obtain ⟨n, rfl⟩ := Option.isSome_iff_exists.mp (hsome _ List.mem_cons_self)
    obtain rfl : payload = n := hpayload _ List.mem_cons_self n rfl
    exact ⟨(_, c) :: qs, rfl⟩

theorem eq_of_sublist_of_nodup {α : Type} {l l' whole : List α} (hl : l.Sublist whole) (hl' : l'.Sublist whole)
    (hnodup : whole.Nodup) (hmem : ∀ x, x ∈ l ↔ x ∈ l') : l = l' := by
  induction whole generalizing l l' with
  | nil => rw [List.sublist_nil.mp hl, List.sublist_nil.mp hl']
  | cons x whole ih =>
    obtain ⟨hx, hnodup⟩ := List.nodup_cons.mp hnodup
    rcases List.sublist_cons_iff.mp hl with hl | ⟨r, rfl, hr⟩
    · have hxl : x ∉ l := fun h => hx (hl.subset h)
      rcases List.sublist_cons_iff.mp hl' with hl' | ⟨r', rfl, -⟩
      · exact ih hl hl' hnodup hmem
      · exact absurd ((hmem x).mpr List.mem_cons_self) hxl
    · rcases List.sublist_cons_iff.mp hl' with hl' | ⟨r', rfl, hr'⟩
      · exact absurd (hl'.subset ((hmem x).mp List.mem_cons_self)) hx
      · rw [ih hr hr' hnodup fun y => ?_]
        have hy := hmem y
        rw [List.mem_cons, List.mem_cons] at hy
        by_cases heq : y = x
        · rw [heq]
          exact ⟨fun h => absurd (hr.subset h) hx, fun h => absurd (hr'.subset h) hx⟩
        · simpa [heq] using hy

section

variable {memory : Nat → Int} {answer : SdpMedia} {a : MediaAttributes}

theorem Unambiguous.mem_formatList (h : Unambiguous caps offer)
    (hformats : answer.formatList =
      (entries memory [] ((accepted caps offer (offered offer)).map (·.2))).filterMap (·.1))
    (hvalid : ValidAnswer caps offer answer) {q : Int × CodecAdaptor} (hq : q ∈ accepted caps offer (offered offer)) :
    q.1 ∈ answer.formatList := by
  obtain ⟨hc, m, hm⟩ := mem_accepted.mp hq
  obtain ⟨hmap, ⟨hlt, htype⟩ | ⟨hle, -, hcheck⟩⟩ := codecFor_eq_some hc
  · have hmem : q.2 ∈ (entries memory [] ((accepted caps offer (offered offer)).map (·.2))).map (·.2.2) := by
      rw [map_entries]
      exact List.mem_map_of_mem hq
    obtain ⟨e, he, heq⟩ := List.mem_map.mp hmem
    obtain ⟨-, used, hnumber⟩ := mem_entries he
    rw [hformats]
    refine List.mem_filterMap.mpr ⟨e, he, ?_⟩
    rw [hnumber, heq, number_eq_some, ListedAs, if_neg, htype]
    intro hspeex
    rw [hspeex] at htype
    have : (SPEEX : Int) = 2000 := rfl
    omega
  · exact hvalid.complete _ hm ⟨_, hmap, h.first _ hm hle _ hcheck⟩

theorem Unambiguous.entries_eq (h : Unambiguous caps offer)
    (hformats : answer.formatList =
      (entries memory [] ((accepted caps offer (offered offer)).map (·.2))).filterMap (·.1))
    (hvalid : ValidAnswer caps offer answer) :
    entries memory [] ((accepted caps offer (offered offer)).map (·.2)) =
      (accepted caps offer (offered offer)).map listedEntry := by
  have hsub : ((accepted caps offer (offered offer)).map (·.1)).Sublist ((offered offer).map (·.2)) := sublist_accepted _
  have hnodup := h.nodup.sublist hsub
  have hsubset : (accepted caps offer (offered offer)).map (·.1) ⊆ answer.formatList := by
    intro n hn
    obtain ⟨q, hq, rfl⟩ := List.mem_map.mp hn
    exact h.mem_formatList hformats hvalid hq
  have hlength : answer.formatList.length ≤ ((accepted caps offer (offered offer)).map (·.1)).length := by
    have hle := List.length_filterMap_le (·.1) (entries memory [] ((accepted caps offer (offered offer)).map (·.2)))
    rw [← hformats, length_entries, List.length_map] at hle
    rwa [List.length_map]
  -- the answer has no more numbers than there are supported ones, so it has no others
  have hperm := (hnodup.subperm hsubset).perm_of_length_le hlength
  have hnumbers : answer.formatList = (accepted caps offer (offered offer)).map (·.1) :=
    eq_of_sublist_of_nodup hvalid.sublist hsub h.nodup fun n => hperm.symm.mem_iff
  have hall : ∀ e ∈ entries memory [] ((accepted caps offer (offered offer)).map (·.2)), e.1.isSome := by
    rw [← List.filterMap_length_eq_length, ← hformats, hnumbers, length_entries, List.length_map, List.length_map]
  obtain ⟨qs, hqs⟩ := exists_listed hall fun e he => (mem_entries he).1
  have hcodecs : qs.map (·.2) = (accepted caps offer (offered offer)).map (·.2) := by
    rw [← map_entries memory [] ((accepted caps offer (offered offer)).map (·.2)), hqs, List.map_map]
    rfl
  rw [hqs, filterMap_listedEntry, hnumbers] at hformats
  obtain rfl : qs = accepted caps offer (offered offer) := by
    rw [List.zip_of_prod hformats.symm hcodecs, ← List.zip_of_prod rfl rfl]
  exact hqs

theorem agreed_of_entries {before : List Int} {ps : List (SdpMedia × Int)}
    (hentries : entries memory before ((accepted caps offer ps).map (·.2)) = (accepted caps offer ps).map listedEntry)
    (hnodup : (before ++ (accepted caps offer ps).map (·.1)).Nodup)
    (hsame : ∀ p ∈ ps, ∀ c, codecFor caps offer p.2 = some c →
      SameEncoding (denoted caps p.1 p.2) (some c.encodingName))
    (hnone : ∀ p ∈ ps, codecFor caps offer p.2 = none → ¬ Registered caps (denoted caps p.1 p.2)) :
    Agreed caps offer before ps := by
  induction ps generalizing memory before with
  | nil => exact trivial
  | cons p ps ih =>
    obtain ⟨m, n⟩ := p
    have hsame' : ∀ p ∈ ps, ∀ c, codecFor caps offer p.2 = some c →
        SameEncoding (denoted caps p.1 p.2) (some c.encodingName) := fun p hp => hsame p (List.mem_cons_of_mem _ hp)
    have hnone' : ∀ p ∈ ps, codecFor caps offer p.2 = none → ¬ Registered caps (denoted caps p.1 p.2) :=
      fun p hp => hnone p (List.mem_cons_of_mem _ hp)
    rw [Agreed]
    cases hc : codecFor caps offer n with
    | none =>
      rw [accepted_cons_none hc] at hentries hnodup
      exact ⟨hnone (m, n) List.mem_cons_self hc, ih hentries hnodup hsame' hnone'⟩
    | some c =>
      rw [accepted_cons_some hc] at hentries hnodup
      rw [List.map_cons, List.map_cons, entries] at hentries
      obtain ⟨hhead, hrest⟩ := List.cons.inj hentries
      have hnumber : number before c = some n := congrArg (·.1) hhead
      rw [hnumber] at hrest
      rw [List.map_cons, List.append_cons] at hnodup
      have hn : n ∉ before := fun hmem =>
        List.disjoint_of_nodup_append (List.Nodup.of_append_left hnodup) hmem (List.mem_singleton_self n)
      exact ⟨hn, hsame (m, n) List.mem_cons_self c hc, number_eq_some.mp hnumber, ih hrest hnodup hsame' hnone'⟩

/-- The numbers of an offer with a valid answer agree. -/
theorem Unambiguous.agreed (h : Unambiguous caps offer) (ha : answer.mediaAttrib = some a)
    (hformats : answer.formatList =
      (entries memory [] ((accepted caps offer (offered offer)).map (·.2))).filterMap (·.1))
    (hentries : a.rtpmap.map entryOf = (entries memory [] ((accepted caps offer (offered offer)).map (·.2))).map fun e =>
      (e.2.1, e.2.2.encodingName))
    (hvalid : ValidAnswer caps offer answer) : Agreed caps offer [] (offered offer) := by
  have hlisted := h.entries_eq hformats hvalid
  rw [hlisted, filterMap_listedEntry] at hformats
  rw [hlisted] at hentries
  have hnodup : ((accepted caps offer (offered offer)).map (·.1)).Nodup := hformats ▸ hvalid.nodup
  refine agreed_of_entries hlisted (by rwa [List.nil_append]) (fun p hp c hc => ?_) fun p hp hnone hregistered => ?_
  · have hq : (p.2, c) ∈ accepted caps offer (offered offer) := mem_accepted.mpr ⟨hc, p.1, hp⟩
    obtain ⟨m, hm, name, hname, hsame⟩ := hvalid.denotes p.2 (hformats ▸ List.mem_map_of_mem (f := (·.1)) hq)
    have hcodec : denoted caps answer p.2 = some c.encodingName := denoted_of_listed ha hentries hnodup hq
    rw [hcodec, Option.some_inj] at hname
    rw [h.eq_of_mem (m := p.1) hp hm, hname]
    exact hsame
  · have hmem := hvalid.complete p hp hregistered
    rw [hformats] at hmem
    obtain ⟨q, hq, heq⟩ := List.mem_map.mp hmem
    have hc := (mem_accepted.mp hq).1
    rw [heq, hnone] at hc
    cases hc

end

/-! ### The answer of `negotiateSdp` -/

/-- The media line that `negotiateSdp` adds is a valid answer. -/
def AnsweredValidly (caps : MediaCapability) (memory : Nat → Int) (sdpSess : SdpSession) (localAddr : Data)
    (localPort : Int) (offer : SdpSession) : Prop :=
  ∃ sess answer, negotiateSdp caps memory sdpSess localAddr localPort offer = some sess ∧
    sess.mediaList = sdpSess.mediaList ++ [answer] ∧ ValidAnswer caps offer answer

/-- An offer whose numbers are those under which the codecs are listed is answered validly, and of the offers without
ambiguity no other is. -/
theorem negotiateSdp_valid (caps : MediaCapability) (memory : Nat → Int) (sdpSess : SdpSession) (localAddr : Data)
    (localPort : Int) (offer : SdpSession) :
    (Agreed caps offer [] (offered offer) → AnsweredValidly caps memory sdpSess localAddr localPort offer) ∧
      (Unambiguous caps offer →
        (AnsweredValidly caps memory sdpSess localAddr localPort offer ↔ Agreed caps offer [] (offered offer))) := by
  obtain ⟨sess, answer, a, hsess, hlist, ha, hformats, hentries⟩ :=
    negotiateSdp_eq caps memory sdpSess localAddr localPort offer
  have henough : Agreed caps offer [] (offered offer) → AnsweredValidly caps memory sdpSess localAddr localPort offer :=
    fun hagreed => ⟨sess, answer, hsess, hlist, hagreed.validAnswer memory ha hformats hentries⟩
  refine ⟨henough, fun hunambiguous => ⟨?_, henough⟩⟩
  rintro ⟨sess', answer', hsess', hlist', hvalid⟩
  obtain rfl := Option.some.inj (hsess.symm.trans hsess')
  obtain rfl := List.singleton_inj.mp (List.append_cancel_left (hlist.symm.trans hlist'))
  exact hunambiguous.agreed ha hformats hentries hvalid

/-- The codecs of a telephone. -/
def phoneCapability : MediaCapability :=
  (MediaCapability.empty.addCodec { type := DTMF_TONE, encodingName := "telephone-event".toList }).addCodec
    { type := G711U, encodingName := "PCMU".toList }

/-- An offer of one audio line, of the PCM encoding and events under a number. -/
def eventOffer (n : Int) : SdpSession :=
  (SdpSession.initial 0).addMedia
    { port := 4136, formatList := [0, n],
      mediaAttrib := some { rtpmap := [{ payloadType := 0, encodingName := "pcmu".toList, clockrate := 8000 },
        { payloadType := n, encodingName := "telephone-event".toList, clockrate := 8000 }] } }

/-- Events under their local number are answered. -/
theorem negotiateSdp_valid_events :
    Agreed phoneCapability (eventOffer 100) [] (offered (eventOffer 100)) ∧
      Unambiguous phoneCapability (eventOffer 100) ∧
      AnsweredValidly phoneCapability (fun _ => 0) (.initial 0) "192.168.123.10".toList 10000 (eventOffer 100) := by
  have hagreed : Agreed phoneCapability (eventOffer 100) [] (offered (eventOffer 100)) := by
    have haudio : codecFor phoneCapability (eventOffer 100) 0 =
        some { type := G711U, encodingName := "PCMU".toList } := by decide
    have hevents : codecFor phoneCapability (eventOffer 100) 100 =
        some { type := DTMF_TONE, encodingName := "telephone-event".toList } := by decide
    refine (?_ : Agreed _ _ [] [(_, 0), (_, 100)])
    rw [Agreed, haudio]
    refine ⟨List.not_mem_nil, ⟨_, rfl, _, rfl, by decide⟩, rfl, ?_⟩
    rw [Agreed, hevents]
    exact ⟨by decide, ⟨_, rfl, _, rfl, by decide⟩, rfl, trivial⟩
  refine ⟨hagreed, ⟨by decide, fun p hp hle name hcheck => ?_⟩, (negotiateSdp_valid _ _ _ _ _ _).1 hagreed⟩
  rcases List.mem_pair.mp (show p ∈ [(_, 0), (_, 100)] from hp) with rfl | rfl
  · exact absurd hle (by decide)
  · obtain ⟨r, hr, hname⟩ := List.any_eq_true.mp hcheck
    rw [Bool.and_eq_true, decide_eq_true_eq] at hname
    rcases List.mem_pair.mp hr with rfl | rfl
    · exact absurd hname.1 (by decide)
    · exact ⟨_, rfl, name, rfl, hname.2⟩

/-- Events under another number are answered with the local number, which was not offered. -/
theorem not_negotiateSdp_valid : ¬ ∀ (caps : MediaCapability) (memory : Nat → Int) (sdpSess : SdpSession)
    (localAddr : Data) (localPort : Int) (offer : SdpSession),
    AnsweredValidly caps memory sdpSess localAddr localPort offer := by
  intro h
  obtain ⟨sess, answer, hsess, hlist, hvalid⟩ :=
    h phoneCapability (fun _ => 0) (.initial 0) "192.168.123.10".toList 10000 (eventOffer 101)
  obtain ⟨sess', answer', a, hsess', hlist', -, hformats, -⟩ :=
    negotiateSdp_eq phoneCapability (fun _ => 0) (.initial 0) "192.168.123.10".toList 10000 (eventOffer 101)
  obtain rfl := Option.some.inj (hsess.symm.trans hsess')
  obtain rfl := List.singleton_inj.mp (List.append_cancel_left (hlist.symm.trans hlist'))
  have hmem : (100 : Int) ∈ answer.formatList := by
    rw [hformats]
    decide
  exact absurd (hvalid.sublist.subset hmem) (by decide)

end Vocal.Media
