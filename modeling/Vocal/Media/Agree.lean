import Mathlib.Data.Char
import Mathlib.Data.List.Lex
import Vocal.Media.Offer

/-!
# Two ends on one codec

`MediaSession::addToSession` looks for a format that its own description and that of the peer have in common, and makes
the RTP session with it. Each end walks through the list of the peer, and yet both ends find the first format of the
offer that the answer kept: `addToSession_agree`.

There is no result where the source fails an assertion.
-/

namespace Vocal.Media

open Sip (Data)
open Sdp

/-! ### The codec of a format -/

/-- `MediaCapability::getCodec` of a text: an encoding name, and when no codec has it a number. -/
def MediaCapability.getCodecNamed (caps : MediaCapability) (codecName : Data) : Option CodecAdaptor :=
  match caps.myCodecMap.find? fun p => p.2.encodingName = codecName with
  | some p => some p.2
  | none => (caps.myCodecMap.find? fun p => (p.2.type : Int) = atoi 64 codecName).map (·.2)

/-- The copy constructor and `commonInit` of the classes for G726. -/
def copyG726 (encodingName : String) (cAdp : CodecAdaptor) : CodecAdaptor :=
  { cAdp with
    encodingName := encodingName.toList, clockRate := 8000, myMediaType := .Audio,
    attrValueMap := SortedMap.insert "ptime".toList "20".toList cAdp.attrValueMap }

/-- The copies that `getCodecAdaptor` makes of codecs with a state. -/
def copyOf (cAdp : CodecAdaptor) : Option CodecAdaptor :=
  if cAdp.type = G726_16 then some (copyG726 "g726-16" cAdp)
  else if cAdp.type = G729 then some { cAdp with encodingName := "G729".toList, myMediaType := .Audio }
  else if cAdp.type = SPEEX then some { cAdp with encodingName := "SPEEX".toList, myMediaType := .Audio }
  else if cAdp.type = G726_24 then some (copyG726 "g726-24" cAdp)
  else if cAdp.type = G726_32 then some (copyG726 "g726-32" cAdp)
  else if cAdp.type = G726_40 then some (copyG726 "g726-40" cAdp)
  else none

/-- `strncasecmp` with `speex`. -/
def isSpeex (encodingName : Data) : Bool := (encodingName.take 5).map Char.toLower = "speex".toList

/-- The name under which `getCodecAdaptor` looks for a codec, and the rate. -/
def formatName (fmt : Int) (lMedia : SdpMedia) : Option (Data × Int) :=
  if fmt ≥ rtpPayloadDynMin then do
    let rtpMap ← (← lMedia.mediaAttrib).getRtpmapAttributeValue fmt
    return if isSpeex rtpMap.encodingName then ("SPEEX".toList, rtpMap.clockrate) else (decimal fmt, 8000)
  else some (decimal fmt, 8000)

/-- `MediaSession::getCodecAdaptor`. -/
def getCodecAdaptor (caps : MediaCapability) (fmt : Int) (lMedia : SdpMedia) : Option CodecAdaptor := do
  let name ← formatName fmt lMedia
  let cAdp ← caps.getCodecNamed name.1
  return match copyOf cAdp with
    | some copy => { copy with rtpType := fmt, clockRate := name.2 }
    | none => cAdp

/-! ### The RTP session -/

def rtpPayloadPCMU : Int := 0
def rtpPayloadG726_32 : Int := 2
def rtpPayloadPCMA : Int := 8
def rtpPayloadG729 : Int := 18
def rtpPayloadG726_40 : Int := 21
def rtpPayloadG726_24 : Int := 22
def rtpPayloadG726_16 : Int := 23

/-- `MRtpSession`, with what its constructor hands to the stack. -/
structure MRtpSession where
  localAddr : Data
  localPort : Int
  remoteAddr : Data
  remotePort : Int
  myCodec : CodecAdaptor
  /-- The format of the packets. -/
  pType : Int
  deriving DecidableEq, Repr

/-- `MRtpSession::convertAdapterTypeToRtpType`. -/
def convertAdapterTypeToRtpType (ct : VCodecType) (negotiatedRtpPayloadType : Int) : Option Int :=
  if ct = G711U then some rtpPayloadPCMU
  else if ct = G711A then some rtpPayloadPCMA
  else if ct = G729 then some rtpPayloadG729
  else if ct = G726_16 then some rtpPayloadG726_16
  else if ct = G726_24 then some rtpPayloadG726_24
  else if ct = G726_32 then some rtpPayloadG726_32
  else if ct = G726_40 then some rtpPayloadG726_40
  else if ct = SPEEX then
    if rtpPayloadDynMin ≤ negotiatedRtpPayloadType ∧ negotiatedRtpPayloadType ≤ rtpPayloadDynMax then
      some negotiatedRtpPayloadType
    else none
  else some rtpPayloadPCMU

/-! ### The descriptions of both ends -/

/-- The loops over the formats of both lists: the first of the peer that is listed here. -/
def commonFormat (rfmList lfmList : List Int) : Option Int := rfmList.find? fun fmt => fmt ∈ lfmList

/-- The format for two lines. -/
def lineFormat (rMedia lMedia : SdpMedia) : Option Int :=
  if lMedia.mediaType ≠ rMedia.mediaType then none
  else do commonFormat (← rMedia.getFormatList) (← lMedia.getFormatList)

/-- The first local line with a format for a line of the peer. -/
def findLine (rMedia : SdpMedia) (lmList : List SdpMedia) : Option (SdpMedia × Int) :=
  lmList.findSome? fun lMedia => (lineFormat rMedia lMedia).map fun fmt => (lMedia, fmt)

/-- The address of a line, which is that of the session when it has none of its own. -/
def lineAddr (sdp : SdpSession) (media : SdpMedia) : Data :=
  match media.connection with
  | some connection => connection.address
  | none => (sdp.connection.map (·.address)).getD []

/-- What one line of the peer makes of the session. -/
def addLine (caps : MediaCapability) (localSdp remoteSdp : SdpSession) (myRtpSession : Option MRtpSession)
    (rMedia : SdpMedia) : Option (Option MRtpSession) :=
  match findLine rMedia localSdp.mediaList with
  | none => some myRtpSession
  | some found => do
    let cAdp ← getCodecAdaptor caps found.2 found.1
    let lAddr := lineAddr localSdp found.1
    let rAddr := lineAddr remoteSdp rMedia
    if lAddr = [] ∨ rAddr = [] then return myRtpSession
    let pType ← convertAdapterTypeToRtpType cAdp.type found.2
    return some ⟨lAddr, found.1.port, rAddr, rMedia.port, cAdp, pType⟩

/-- `MediaSession::addToSession`: a session that it has stays. -/
def addToSession (caps : MediaCapability) (localSdp remoteSdp : SdpSession) (myRtpSession : Option MRtpSession) :
    Option (Option MRtpSession) :=
  if myRtpSession.isSome then some myRtpSession
  else remoteSdp.mediaList.foldlM (addLine caps localSdp remoteSdp) none

/-! ### Static codecs -/

variable {caps : MediaCapability} {cAdp : CodecAdaptor} {n : VCodecType} {localSdp remoteSdp offer : SdpSession}

/-- All codecs that are registered have static numbers. -/
def MediaCapability.IsStatic (caps : MediaCapability) : Prop := ∀ p ∈ caps.myCodecMap, p.2.IsStatic

theorem MediaCapability.mem_of_getCodec (h : caps.getCodec n = some cAdp) : (n, cAdp) ∈ caps.myCodecMap :=
  SortedMap.mem_of_lookup h

theorem MediaCapability.type_of_getCodec (h : caps.getCodec n = some cAdp) : cAdp.type = n :=
  caps.type_eq _ (MediaCapability.mem_of_getCodec h)

theorem MediaCapability.IsStatic.natCast_lt (hstatic : caps.IsStatic) (h : caps.getCodec n = some cAdp) :
    (n : Int) < 96 := by
  rw [← MediaCapability.type_of_getCodec h]
  exact_mod_cast (hstatic _ (MediaCapability.mem_of_getCodec h)).type_lt

theorem MediaCapability.IsStatic.getCodecNamed_decimal (hstatic : caps.IsStatic) (h : caps.getCodec n = some cAdp) :
    caps.getCodecNamed (decimal n) = some cAdp := by
  have hlt := hstatic.natCast_lt h
  have hnone : (caps.myCodecMap.find? fun p => p.2.encodingName = decimal n) = none := by
    rw [List.find?_eq_none]
    intro p hp
    rw [decide_eq_true_eq]
    exact (hstatic p hp).encodingName_ne n
  have hfind : (caps.myCodecMap.find? fun p => (p.2.type : Int) = (n : Int)) = some (n, cAdp) := by
    have hkeys : caps.myCodecMap.map (·.2.type) = caps.myCodecMap.map (·.1) := List.map_congr_left caps.type_eq
    have hnodup : (caps.myCodecMap.map (·.2.type)).Nodup := by
      rw [hkeys]
      exact List.pairwise_map.mpr (caps.sorted.imp fun h => h.ne)
    have hfind := find?_of_nodup (·.2.type) hnodup (MediaCapability.mem_of_getCodec h)
    simpa only [Int.natCast_inj, MediaCapability.type_of_getCodec h] using hfind
  rw [MediaCapability.getCodecNamed, hnone, atoi_decimal (by decide) (by omega) (by omega)]
  simp only [hfind, Option.map_some]

theorem type_copyOf {copy : CodecAdaptor} (h : copyOf cAdp = some copy) : copy.type = cAdp.type := by
  rw [copyOf] at h
  split_ifs at h
  all_goals
    obtain rfl := Option.some.inj h
    rfl

theorem exists_getCodecAdaptor (hstatic : caps.IsStatic) (h : caps.getCodec n = some cAdp) (lMedia : SdpMedia) :
    ∃ c, getCodecAdaptor caps n lMedia = some c ∧ c.type = n := by
  have hname : formatName n lMedia = some (decimal n, 8000) := if_neg (not_le.mpr (hstatic.natCast_lt h))
  rw [getCodecAdaptor, hname]
  simp only [Option.bind_eq_bind, Option.bind_some, hstatic.getCodecNamed_decimal h]
  refine ⟨_, rfl, ?_⟩
  cases hcopy : copyOf cAdp with
  | none => exact MediaCapability.type_of_getCodec h
  | some copy => exact (type_copyOf hcopy).trans (MediaCapability.type_of_getCodec h)

theorem convertAdapterTypeToRtpType_of_isStatic (h : cAdp.IsStatic) (fmt : Int) :
    convertAdapterTypeToRtpType cAdp.type fmt = some (cAdp.type : Int) := by
  obtain ⟨q, hq, hcodec⟩ := h.exists_entry
  rw [hcodec]
  simp only [staticEntries, List.mem_cons, List.not_mem_nil, or_false] at hq
  rcases hq with rfl | rfl | rfl | rfl | rfl | rfl | rfl <;> rfl

/-! ### Lines in common -/

theorem mem_of_commonFormat {rfmList lfmList : List Int} {fmt : Int} (h : commonFormat rfmList lfmList = some fmt) :
    fmt ∈ rfmList ∧ fmt ∈ lfmList := by
  rw [commonFormat] at h
  have hlisted := List.find?_some h
  rw [decide_eq_true_eq] at hlisted
  exact ⟨List.mem_of_find?_eq_some h, hlisted⟩

theorem getFormatList_of_ne_nil {media : SdpMedia} (h : media.formatList ≠ []) :
    media.getFormatList = some media.formatList := if_pos (List.length_pos_iff.mpr h)

theorem OneLine.lineAddr {sess : SdpSession} {addr : Data} {formats : List Int} (h : OneLine sess addr formats)
    {media : SdpMedia} (hmedia : media ∈ sess.mediaList) : lineAddr sess media = addr := by
  obtain ⟨m, hlist, -, hconnection, -⟩ := h.line
  rw [hlist, List.mem_singleton] at hmedia
  rw [hmedia, Media.lineAddr, hconnection]
  simp only [h.address, Option.getD_some]

theorem addToSession_of_oneLine (hstatic : caps.IsStatic) {lAddr rAddr : Data} {lfmList rfmList : List Int}
    (hlocal : OneLine localSdp lAddr lfmList) (hremote : OneLine remoteSdp rAddr rfmList) (hlAddr : lAddr ≠ [])
    (hrAddr : rAddr ≠ []) (hfmt : commonFormat rfmList lfmList = some (n : Int)) (h : caps.getCodec n = some cAdp) :
    ∃ session, addToSession caps localSdp remoteSdp none = some (some session) ∧ session.pType = n ∧
      session.myCodec.type = n := by
  obtain ⟨lMedia, hlList, hlType, -, hlFormats⟩ := id hlocal.line
  obtain ⟨rMedia, hrList, hrType, -, hrFormats⟩ := id hremote.line
  obtain ⟨c, hadaptor, htype⟩ := exists_getCodecAdaptor hstatic h lMedia
  obtain ⟨hrMem, hlMem⟩ := mem_of_commonFormat hfmt
  have hformat : lineFormat rMedia lMedia = some (n : Int) := by
    rw [lineFormat, if_neg (not_not.mpr (hlType.trans hrType.symm)),
      getFormatList_of_ne_nil (hrFormats ▸ List.ne_nil_of_mem hrMem),
      getFormatList_of_ne_nil (hlFormats ▸ List.ne_nil_of_mem hlMem), hlFormats, hrFormats]
    exact hfmt
  have hfound : findLine rMedia localSdp.mediaList = some (lMedia, (n : Int)) := by
    rw [findLine, hlList, List.findSome?_cons, hformat]
    rfl
  have hpType : convertAdapterTypeToRtpType c.type n = some (n : Int) := by
    have hconvert := convertAdapterTypeToRtpType_of_isStatic (hstatic _ (MediaCapability.mem_of_getCodec h)) n
    rw [htype]
    rwa [MediaCapability.type_of_getCodec h] at hconvert
  have hl := hlocal.lineAddr (hlList ▸ List.mem_singleton_self lMedia)
  have hr := hremote.lineAddr (hrList ▸ List.mem_singleton_self rMedia)
  have hadd : addLine caps localSdp remoteSdp none rMedia =
      some (some ⟨lAddr, lMedia.port, rAddr, rMedia.port, c, n⟩) := by
    rw [addLine, hfound]
    simp only [hadaptor, Option.bind_eq_bind, Option.bind_some, hl, hr, hlAddr, hrAddr, or_self, if_false, hpType]
    rfl
  refine ⟨⟨lAddr, lMedia.port, rAddr, rMedia.port, c, n⟩, ?_, rfl, htype⟩
  rw [addToSession, if_neg (by decide), hrList, List.foldlM_cons, hadd]
  rfl

/-! ### The answer -/

/-- The first number of an offer that the other side supports. -/
def firstSupported (caps : MediaCapability) (offer : SdpSession) : Option Int :=
  ((audioLines offer).flatMap (·.formatList)).find? fun n => (caps.isSupported offer n).isSome

theorem map_accepted {line : SdpMedia} {formats : List Int} (hlt : ∀ n ∈ formats, n < 96) :
    (accepted caps offer (formats.map (line, ·))).map (fun q => (q.2.type : Int)) =
      formats.filter fun n => (caps.isSupported offer n).isSome := by
  induction formats with
  | nil => rfl
  | cons n formats ih =>
    have hn : n < 96 := hlt n (List.mem_cons_self ..)
    have hsome : (caps.isSupported offer n).isSome = (codecFor caps offer n).isSome := by
      rw [codecFor_of_lt hn, MediaCapability.isSupported_of_lt hn, Option.isSome_map, Option.isSome_map]
    have hrest := ih fun m hm => hlt m (List.mem_cons_of_mem n hm)
    rw [accepted] at hrest ⊢
    rw [List.map_cons, List.filterMap_cons, List.filter_cons, hsome]
    cases hc : codecFor caps offer n with
    | none => exact hrest
    | some c =>
      have htype : (c.type : Int) = n := by
        rcases (codecFor_eq_some hc).2 with ⟨-, htype⟩ | ⟨hle, -⟩
        · exact htype
        · omega
      show (c.type : Int) :: _ = n :: _
      rw [htype]
      exact congrArg (n :: ·) hrest

theorem oneLine_negotiateSdp (hstatic : caps.IsStatic) {addr : Data} {formats : List Int}
    (h : OneLine offer addr formats) (hlt : ∀ n ∈ formats, n < 96) (memory : Nat → Int) (time : Nat)
    (localAddr : Data) (localPort : Int) :
    ∃ answer, negotiateSdp caps memory (.initial time) localAddr localPort offer = some answer ∧
      OneLine answer localAddr (formats.filter fun n => (caps.isSupported offer n).isSome) := by
  obtain ⟨m, hlist, htype, -, hformats⟩ := h.line
  have hoffered : offered offer = formats.map (m, ·) := by
    rw [offered, audioLines, hlist, ← hformats, List.filter_cons_of_pos (by rw [htype]; rfl)]
    exact List.append_nil _
  have hspeex : ∀ c ∈ (accepted caps offer (offered offer)).map (·.2), c.type ≠ SPEEX := by
    intro c hc
    obtain ⟨q, hq, rfl⟩ := List.mem_map.mp hc
    obtain ⟨p, hp, hcodec⟩ := List.mem_filterMap.mp hq
    obtain ⟨c, hfor, rfl⟩ := Option.map_eq_some_iff.mp hcodec
    exact (hstatic _ (codecFor_eq_some hfor).1).ne_speex
  obtain ⟨line, hadd, hgrows⟩ := grows_addMediaAttributes memory
    (m := (((({} : SdpMedia).clearFormatList).setMediaType .Audio).setPort localPort).setMediaAttributes {}) rfl hspeex
  refine ⟨{ (setHost (.initial time) localAddr).addMedia line with sessionName := "Vocal-Media-Lib".toList }, ?_,
    ⟨line, ?_, hgrows.mediaType, hgrows.connection, ?_⟩, address_setHost _ localAddr⟩
  · rw [negotiateSdp, map_getCodec_acList, hadd]
    rfl
  · show (setHost (.initial time) localAddr).mediaList ++ [line] = [line]
    rw [mediaList_setHost]
    rfl
  · rw [hgrows.formatList, hoffered, List.map_map]
    exact map_accepted hlt

/-! ### Both ends -/

/-- An endpoint whose codecs have static numbers, with the address of the port that it reserved. -/
structure Endpoint where
  caps : MediaCapability
  isStatic : caps.IsStatic
  localAddr : Data
  localAddr_ne : localAddr ≠ []
  localPort : Int

theorem CodecAdaptor.IsStatic.setPriority (h : cAdp.IsStatic) (pri : Int) :
    { cAdp with myPriority := pri }.IsStatic := by
  obtain ⟨q, hq, hcodec⟩ := h.exists_entry
  have hmem : codec q.1 q.2 pri ∈ staticCodecs pri := List.mem_map_of_mem (f := fun q => codec q.1 q.2 pri) hq
  rw [hcodec]
  exact hmem

theorem MediaCapability.IsStatic.addCodec (hstatic : caps.IsStatic) (h : cAdp.IsStatic) :
    (caps.addCodec cAdp).IsStatic := by
  rw [MediaCapability.addCodec]
  split
  · exact hstatic
  · intro p hp
    rcases SortedMap.mem_of_mem_insert hp with rfl | hp
    · exact h
    · exact hstatic p hp

theorem MediaCapability.IsStatic.registerCodec (hstatic : caps.IsStatic) {prio_map : VCodecType → Option Int}
    (h : (prio_map cAdp.type).isSome → cAdp.IsStatic) : (registerCodec prio_map caps cAdp).IsStatic := by
  rw [Media.registerCodec]
  cases hprio : prio_map cAdp.type with
  | none => exact hstatic
  | some priority =>
    have hcodec : cAdp.IsStatic := h (by rw [hprio]; rfl)
    exact hstatic.addCodec (hcodec.setPriority priority)

theorem isStatic_registerCodecs {prio_map : VCodecType → Option Int} {cAdps : List CodecAdaptor}
    (h : ∀ cAdp ∈ cAdps, (prio_map cAdp.type).isSome → cAdp.IsStatic) : (registerCodecs prio_map cAdps).IsStatic := by
  have hrun : ∀ caps : MediaCapability, caps.IsStatic → (cAdps.foldl (registerCodec prio_map) caps).IsStatic := by
    induction cAdps with
    | nil => exact fun caps hcaps => hcaps
    | cons c cAdps ih =>
      intro caps hcaps
      exact ih (fun d hd => h d (List.mem_cons_of_mem c hd)) _ (hcaps.registerCodec (h c (List.mem_cons_self ..)))
  exact hrun .empty (by rintro p ⟨⟩)

theorem isStatic_defaultCodecs {prio_map : VCodecType → Option Int} (USE_VOICE_AGE USE_SPEEX : Bool)
    (hevents : prio_map DTMF_TONE = none) (hspeex : prio_map SPEEX = none) :
    (registerCodecs prio_map (defaultCodecs USE_VOICE_AGE USE_SPEEX)).IsStatic := by
  have hall : ∀ a b, ∀ c ∈ defaultCodecs a b, c.IsStatic ∨ c.type = DTMF_TONE ∨ c.type = SPEEX := by decide
  refine isStatic_registerCodecs fun c hc hprio => ?_
  rcases hall _ _ c hc with h | h | h
  · exact h
  · rw [h, hevents] at hprio
    cases hprio
  · rw [h, hspeex] at hprio
    cases hprio

/-- An endpoint as its configuration makes it. -/
def Endpoint.configured (prio_map : VCodecType → Option Int) (hevents : prio_map DTMF_TONE = none)
    (hspeex : prio_map SPEEX = none) (localAddr : Data) (localAddr_ne : localAddr ≠ []) (localPort : Int) : Endpoint :=
  ⟨registerCodecs prio_map (defaultCodecs true false), isStatic_defaultCodecs true false hevents hspeex, localAddr,
    localAddr_ne, localPort⟩

theorem mem_offeredNumbers (hstatic : caps.IsStatic) {k : Int} :
    k ∈ offeredNumbers caps ↔ ∃ n cAdp, caps.getCodec n = some cAdp ∧ k = (n : Int) := by
  rw [offeredNumbers, List.mem_map]
  constructor
  · rintro ⟨c, hc, rfl⟩
    obtain ⟨⟨p, hp, rfl⟩, -⟩ := MediaCapability.mem_getSupportedAudioCodecs.mp hc
    exact ⟨p.1, p.2, MediaCapability.getCodec_of_mem hp, by rw [caps.type_eq p hp]⟩
  · rintro ⟨n, c, hcodec, rfl⟩
    have hmem := MediaCapability.mem_of_getCodec hcodec
    refine ⟨c, MediaCapability.mem_getSupportedAudioCodecs.mpr ⟨⟨_, hmem, rfl⟩, (hstatic _ hmem).audio⟩, ?_⟩
    rw [MediaCapability.type_of_getCodec hcodec]

theorem isSome_isSupported {k : Int} (hk : k < 96) :
    (caps.isSupported offer k).isSome = true ↔ ∃ n cAdp, caps.getCodec n = some cAdp ∧ k = (n : Int) := by
  rw [MediaCapability.isSupported_of_lt hk, Option.isSome_map, List.find?_isSome]
  constructor
  · rintro ⟨p, hp, heq⟩
    exact ⟨p.1, p.2, MediaCapability.getCodec_of_mem hp, (of_decide_eq_true heq).symm⟩
  · rintro ⟨n, c, hcodec, rfl⟩
    exact ⟨_, MediaCapability.mem_of_getCodec hcodec, decide_eq_true rfl⟩

/-- The first format of a list that is kept is the first one in common from either end. -/
theorem commonFormat_filter (formats : List Int) (keep : Int → Bool) :
    commonFormat formats (formats.filter keep) = formats.find? keep ∧
      commonFormat (formats.filter keep) formats = formats.find? keep := by
  rw [commonFormat, commonFormat, ← List.head?_filter, ← List.head?_filter, ← List.head?_filter]
  constructor
  · refine congrArg List.head? (List.filter_congr fun n hn => ?_)
    rw [Bool.eq_iff_iff, decide_eq_true_eq, List.mem_filter]
    exact and_iff_right hn
  · refine congrArg List.head? (List.filter_eq_self.mpr fun n hn => ?_)
    exact decide_eq_true (List.mem_of_mem_filter hn)

/-- Both ends of a call make an RTP session with the first format of the offer that the answerer supports, and with
codecs of one type. -/
theorem addToSession_agree (offerer answerer : Endpoint) (memory memory' : Nat → Int) (sdpDesc : SdpSession)
    (time : Nat) (m : VSdpMode)
    (hcommon : ∃ n, (offerer.caps.getCodec n).isSome ∧ (answerer.caps.getCodec n).isSome) :
    ∃ offer answer fmt session session',
      setStandardSdp offerer.caps memory sdpDesc offerer.localAddr offerer.localPort m = some offer ∧
      negotiateSdp answerer.caps memory' (.initial time) answerer.localAddr answerer.localPort offer = some answer ∧
      addToSession offerer.caps offer answer none = some (some session) ∧
      addToSession answerer.caps answer offer none = some (some session') ∧
      firstSupported answerer.caps offer = some fmt ∧ session.pType = fmt ∧ session'.pType = fmt ∧
      session.myCodec.type = session'.myCodec.type := by
  obtain ⟨n, hn, hn'⟩ := hcommon
  obtain ⟨c, hc⟩ := Option.isSome_iff_exists.mp hn
  obtain ⟨d, hd⟩ := Option.isSome_iff_exists.mp hn'
  have hmem : (n : Int) ∈ offeredNumbers offerer.caps := (mem_offeredNumbers offerer.isStatic).mpr ⟨n, c, hc, rfl⟩
  have hlt : ∀ k ∈ offeredNumbers offerer.caps, k < 96 := by
    intro k hk
    obtain ⟨t, e, he, rfl⟩ := (mem_offeredNumbers offerer.isStatic).mp hk
    exact offerer.isStatic.natCast_lt he
  obtain ⟨offer, hoffer, hofferLine⟩ := oneLine_setStandardSdp offerer.isStatic (List.ne_nil_of_mem hmem) memory
    sdpDesc offerer.localAddr offerer.localPort m
  obtain ⟨answer, hanswer, hanswerLine⟩ := oneLine_negotiateSdp answerer.isStatic hofferLine hlt memory' time
    answerer.localAddr answerer.localPort
  -- The first supported number of the offer is registered at both ends.
  have hfirst : ∃ fmt, ((offeredNumbers offerer.caps).find? fun k => (answerer.caps.isSupported offer k).isSome) =
      some fmt := by
    rw [← Option.isSome_iff_exists, List.find?_isSome]
    exact ⟨_, hmem, (isSome_isSupported (hlt _ hmem)).mpr ⟨n, d, hd, rfl⟩⟩
  obtain ⟨fmt, hfmt⟩ := hfirst
  have hfmtMem := List.mem_of_find?_eq_some hfmt
  obtain ⟨t, cAdp, hcAdp, rfl⟩ := (mem_offeredNumbers offerer.isStatic).mp hfmtMem
  have hsupported := List.find?_some hfmt
  obtain ⟨t', cAdp', hcAdp', heq⟩ := (isSome_isSupported (hlt _ hfmtMem)).mp hsupported
  obtain rfl := Int.natCast_inj.mp heq
  have hcommon := commonFormat_filter (offeredNumbers offerer.caps) fun k => (answerer.caps.isSupported offer k).isSome
  rw [hfmt] at hcommon
  obtain ⟨session, hsession, hpType, htype⟩ := addToSession_of_oneLine offerer.isStatic hofferLine hanswerLine
    offerer.localAddr_ne answerer.localAddr_ne hcommon.2 hcAdp
  obtain ⟨session', hsession', hpType', htype'⟩ := addToSession_of_oneLine answerer.isStatic hanswerLine hofferLine
    answerer.localAddr_ne offerer.localAddr_ne hcommon.1 hcAdp'
  refine ⟨offer, answer, t, session, session', hoffer, hanswer, hsession, hsession', ?_, hpType, hpType',
    htype.trans htype'.symm⟩
  obtain ⟨line, hlist, hlineType, -, hformats⟩ := hofferLine.line
  rw [firstSupported, audioLines, hlist, List.filter_cons_of_pos (by rw [hlineType]; rfl), ← hfmt, ← hformats]
  exact congrArg (List.find? _) (List.append_nil _)

/-- A phone that prefers G729. -/
def voiceAgePhone : Endpoint :=
  .configured (fun cType => if cType = G729 then some 5 else if cType = G711U then some 1 else none) rfl rfl
    "192.0.2.1".toList (by decide) 4000

/-- A phone that knows G711 alone. -/
def plainPhone : Endpoint :=
  .configured (fun cType => if cType = G711U then some 0 else if cType = G711A then some 0 else none) rfl rfl
    "192.0.2.2".toList (by decide) 5000

theorem addToSession_agree_phones :
    ∃ offer answer fmt session session',
      setStandardSdp voiceAgePhone.caps (fun _ => 0) (.initial 0) voiceAgePhone.localAddr voiceAgePhone.localPort
        .VSDP_SND_RECV = some offer ∧
      negotiateSdp plainPhone.caps (fun _ => 0) (.initial 1) plainPhone.localAddr plainPhone.localPort offer =
        some answer ∧
      addToSession voiceAgePhone.caps offer answer none = some (some session) ∧
      addToSession plainPhone.caps answer offer none = some (some session') ∧
      firstSupported plainPhone.caps offer = some fmt ∧ session.pType = fmt ∧ session'.pType = fmt ∧
      session.myCodec.type = session'.myCodec.type :=
  addToSession_agree voiceAgePhone plainPhone (fun _ => 0) (fun _ => 0) (.initial 0) 1 .VSDP_SND_RECV
    ⟨G711U, by decide, by decide⟩

end Vocal.Media
