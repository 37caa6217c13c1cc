import Vocal.Lib.Buckets
import Vocal.Media.Answer

/-!
# The offer of an endpoint

`MediaController` registers the codecs to which its configuration gives a priority, and `setStandardSdp` offers those of
audio by priority. The codecs of `staticCodecs` have the numbers under which packets carry them.
-/

namespace Vocal.Media

open SortedMap (insert)
open Buckets (collect elements)
open Sip (Data)
open Sdp

/-! ### The adaptors -/

/-- The constructor that the adaptors share but for their values. -/
def codec (cType : VCodecType) (encodingName : String) (priority : Int) : CodecAdaptor :=
  { type := cType, myPriority := priority, encodingName := encodingName.toList,
    attrValueMap := [("ptime".toList, "20".toList)] }

def codecG711U : Int → CodecAdaptor := codec G711U "PCMU"
def codecG711A : Int → CodecAdaptor := codec G711A "PCMA"
def codecG726_16 : Int → CodecAdaptor := codec G726_16 "g726-16"
def codecG726_24 : Int → CodecAdaptor := codec G726_24 "g726-24"
def codecG726_32 : Int → CodecAdaptor := codec G726_32 "g726-32"
def codecG726_40 : Int → CodecAdaptor := codec G726_40 "g726-40"
def codecG729a : Int → CodecAdaptor := codec G729 "G729"
def codecSpeex : Int → CodecAdaptor := codec SPEEX "SPEEX"

def codecTelEvent (priority : Int) : CodecAdaptor :=
  { codec DTMF_TONE "telephone-event" priority with attrValueMap := [("fmtp".toList, "100 0-15".toList)] }

/-- The adaptors with static payload numbers. -/
def staticCodecs (priority : Int) : List CodecAdaptor :=
  [codecG711U priority, codecG711A priority, codecG726_16 priority, codecG726_24 priority, codecG726_32 priority,
    codecG726_40 priority, codecG729a priority]

def CodecAdaptor.IsStatic (cAdp : CodecAdaptor) : Prop := cAdp ∈ staticCodecs cAdp.myPriority

instance (cAdp : CodecAdaptor) : Decidable cAdp.IsStatic := inferInstanceAs (Decidable (_ ∈ _))

/-- The adaptors that the constructor of `MediaController` makes. -/
def defaultCodecs (USE_VOICE_AGE USE_SPEEX : Bool) : List CodecAdaptor :=
  [codecG711U 0, codecG711A 0] ++ (if USE_VOICE_AGE then [codecG729a 0] else []) ++
    (if USE_SPEEX then [codecSpeex 0] else []) ++
    [codecG726_16 0, codecG726_24 0, codecG726_32 0, codecG726_40 0, codecTelEvent 0]

/-- A codec that has a priority in the configuration is registered with it. -/
def registerCodec (prio_map : VCodecType → Option Int) (caps : MediaCapability) (cAdp : CodecAdaptor) :
    MediaCapability :=
  match prio_map cAdp.type with
  | some priority => caps.addCodec { cAdp with myPriority := priority }
  | none => caps

/-- The constructor of `MediaController`. -/
def registerCodecs (prio_map : VCodecType → Option Int) (cAdps : List CodecAdaptor) : MediaCapability :=
  cAdps.foldl (registerCodec prio_map) .empty

/-! ### The offer -/

/-- `MediaCapability::getSupportedAudioCodecs`: the highest priority comes first. -/
def MediaCapability.getSupportedAudioCodecs (caps : MediaCapability) : List CodecAdaptor :=
  elements (collect (fun cAdp => OrderDual.toDual cAdp.myPriority)
    ((caps.myCodecMap.map (·.2)).filter fun cAdp => cAdp.myMediaType = .Audio))

inductive VSdpMode
  | VSDP_SND
  | VSDP_RECV
  | VSDP_SND_RECV
  deriving DecidableEq, Repr

/-- The switch of `setStandardSdp`. -/
def VSdpMode.set (mediaAttrib : MediaAttributes) : VSdpMode → MediaAttributes
  | .VSDP_SND => { mediaAttrib with sendonly := true }
  | .VSDP_RECV => { mediaAttrib with recvonly := true }
  | .VSDP_SND_RECV => { mediaAttrib with sendrecv := true }

/-- The audio line of `setStandardSdp`. -/
def standardMedia (memory : Nat → Int) (port : Int) (m : VSdpMode) (cList : List CodecAdaptor) : Option SdpMedia := do
  let sdpMedia := (((({} : SdpMedia).clearFormatList).setMediaType .Audio).setPort port).setMediaAttributes (m.set {})
  let sdpMedia ← addMediaAttributes memory sdpMedia (cList.map some)
  return { sdpMedia with mediaAttrib := sdpMedia.mediaAttrib.map fun mediaAttrib => m.set mediaAttrib }

/-- `setStandardSdp`. -/
def setStandardSdp (caps : MediaCapability) (memory : Nat → Int) (sdpDesc : SdpSession) (hostAddr : Data) (port : Int)
    (m : VSdpMode) : Option SdpSession := do
  let sdpDesc := { setHost sdpDesc hostAddr with mediaList := [] }
  let cList := caps.getSupportedAudioCodecs
  if cList.isEmpty then return { sdpDesc with sessionName := "Vocal-Media-Lib".toList }
  let sdpMedia ← standardMedia memory port m cList
  return { sdpDesc.addMedia sdpMedia with sessionName := "Vocal-Media-Lib".toList }

/-! ### The codecs by priority -/

variable {caps : MediaCapability} {cAdp : CodecAdaptor}

theorem MediaCapability.getSupportedAudioCodecs_perm (caps : MediaCapability) :
    caps.getSupportedAudioCodecs.Perm
      ((caps.myCodecMap.map (·.2)).filter fun cAdp => cAdp.myMediaType = .Audio) := Buckets.collect_perm _ _

theorem MediaCapability.mem_getSupportedAudioCodecs :
    cAdp ∈ caps.getSupportedAudioCodecs ↔ (∃ p ∈ caps.myCodecMap, p.2 = cAdp) ∧ cAdp.myMediaType = .Audio := by
  rw [caps.getSupportedAudioCodecs_perm.mem_iff, List.mem_filter, List.mem_map, decide_eq_true_eq]

/-! ### Static codecs -/

/-- The types and names of the adaptors with static numbers. -/
def staticEntries : List (VCodecType × String) :=
  [(G711U, "PCMU"), (G711A, "PCMA"), (G726_16, "g726-16"), (G726_24, "g726-24"), (G726_32, "g726-32"),
    (G726_40, "g726-40"), (G729, "G729")]

theorem CodecAdaptor.IsStatic.exists_entry (h : cAdp.IsStatic) :
    ∃ q ∈ staticEntries, cAdp = codec q.1 q.2 cAdp.myPriority := by
  have heq : staticCodecs cAdp.myPriority = staticEntries.map fun q => codec q.1 q.2 cAdp.myPriority := rfl
  rw [CodecAdaptor.IsStatic, heq, List.mem_map] at h
  obtain ⟨q, hq, hcodec⟩ := h
  exact ⟨q, hq, hcodec.symm⟩

theorem CodecAdaptor.IsStatic.type_lt (h : cAdp.IsStatic) : cAdp.type < 96 := by
  have hall : ∀ q ∈ staticEntries, q.1 < 96 := by decide
  obtain ⟨q, hq, hcodec⟩ := h.exists_entry
  rw [hcodec]
  exact hall q hq

theorem CodecAdaptor.IsStatic.audio (h : cAdp.IsStatic) : cAdp.myMediaType = .Audio := by
  obtain ⟨q, -, hcodec⟩ := h.exists_entry
  rw [hcodec]
  rfl

theorem CodecAdaptor.IsStatic.encodingName_ne (h : cAdp.IsStatic) (n : Int) : cAdp.encodingName ≠ decimal n := by
  have hall : (staticEntries.all fun q => q.2.toList.any fun c => !isNumeric c) = true := by decide
  obtain ⟨q, hq, hcodec⟩ := h.exists_entry
  obtain ⟨c, hmem, hc⟩ := List.any_eq_true.mp (List.all_eq_true.mp hall q hq)
  have hname : cAdp.encodingName = q.2.toList := by rw [hcodec, codec]
  intro heq
  rw [← hname, heq] at hmem
  rw [isNumeric_of_mem_decimal hmem] at hc
  cases hc

theorem CodecAdaptor.IsStatic.ne_speex (h : cAdp.IsStatic) : cAdp.type ≠ SPEEX :=
  (h.type_lt.trans (by decide : 96 < 2000)).ne

/-! ### The line of a description -/

/-- A media line grows by formats at its end. -/
structure Grows (m m' : SdpMedia) (formats : List Int) : Prop where
  mediaType : m'.mediaType = m.mediaType
  connection : m'.connection = m.connection
  mediaAttrib : m'.mediaAttrib.isSome = true
  formatList : m'.formatList = m.formatList ++ formats

theorem grows_addMediaAttribute (memory : Int) {m : SdpMedia} (hm : m.mediaAttrib.isSome = true)
    (hc : cAdp.type ≠ SPEEX) :
    ∃ m', addMediaAttribute memory m (some cAdp) = some m' ∧ Grows m m' [(cAdp.type : Int)] := by
  obtain ⟨a, ha⟩ := Option.isSome_iff_exists.mp hm
  simp only [addMediaAttribute, ha, if_neg hc]
  exact ⟨_, rfl, rfl, rfl, rfl, rfl⟩

theorem grows_addMediaAttributes (memory : Nat → Int) {m : SdpMedia} (hm : m.mediaAttrib.isSome = true)
    {cs : List CodecAdaptor} (hcs : ∀ c ∈ cs, c.type ≠ SPEEX) :
    ∃ m', addMediaAttributes memory m (cs.map some) = some m' ∧ Grows m m' (cs.map fun c => (c.type : Int)) := by
  induction cs generalizing memory m with
  | nil => exact ⟨m, rfl, rfl, rfl, hm, (List.append_nil _).symm⟩
  | cons c cs ih =>
    obtain ⟨m', hadd, hgrows⟩ := grows_addMediaAttribute (memory 0) hm (hcs c (List.mem_cons_self ..))
    obtain ⟨m'', hadds, hgrows'⟩ :=
      ih (fun i => memory (i + 1)) hgrows.mediaAttrib fun d hd => hcs d (List.mem_cons_of_mem c hd)
    refine ⟨m'', ?_, hgrows'.mediaType.trans hgrows.mediaType, hgrows'.connection.trans hgrows.connection,
      hgrows'.mediaAttrib, ?_⟩
    · rw [List.map_cons, addMediaAttributes, hadd]
      exact hadds
    · rw [hgrows'.formatList, hgrows.formatList, List.append_assoc]
      rfl

/-- A description of one audio line, which is reached under the address of the session. -/
structure OneLine (sess : SdpSession) (addr : Data) (formats : List Int) : Prop where
  line : ∃ m, sess.mediaList = [m] ∧ m.mediaType = .Audio ∧ m.connection = none ∧ m.formatList = formats
  address : sess.connection.map (·.address) = some addr

theorem address_setHost (sdpSess : SdpSession) (hostAddr : Data) :
    (setHost sdpSess hostAddr).connection.map (·.address) = some hostAddr := by
  rw [setHost]
  split
  · rfl
  · rfl

/-- The numbers that a side offers. -/
def offeredNumbers (caps : MediaCapability) : List Int := caps.getSupportedAudioCodecs.map fun c => (c.type : Int)

theorem oneLine_setStandardSdp (hstatic : ∀ p ∈ caps.myCodecMap, p.2.IsStatic) (hne : offeredNumbers caps ≠ [])
    (memory : Nat → Int) (sdpDesc : SdpSession) (hostAddr : Data) (port : Int) (m : VSdpMode) :
    ∃ offer, setStandardSdp caps memory sdpDesc hostAddr port m = some offer ∧
      OneLine offer hostAddr (offeredNumbers caps) := by
  have hspeex : ∀ c ∈ caps.getSupportedAudioCodecs, c.type ≠ SPEEX := by
    intro c hc
    obtain ⟨⟨p, hp, rfl⟩, -⟩ := MediaCapability.mem_getSupportedAudioCodecs.mp hc
    exact (hstatic p hp).ne_speex
  have hisEmpty : caps.getSupportedAudioCodecs.isEmpty = false := by
    rw [List.isEmpty_eq_false_iff]
    exact fun h => hne (by rw [offeredNumbers, h, List.map_nil])
  obtain ⟨line, hadd, hgrows⟩ := grows_addMediaAttributes memory
    (m := (((({} : SdpMedia).clearFormatList).setMediaType .Audio).setPort port).setMediaAttributes (m.set {})) rfl
    hspeex
  simp only [setStandardSdp, standardMedia, hisEmpty, hadd]
  refine ⟨_, rfl, ⟨_, rfl, hgrows.mediaType, hgrows.connection, hgrows.formatList⟩, ?_⟩
  exact address_setHost sdpDesc hostAddr

end Vocal.Media
