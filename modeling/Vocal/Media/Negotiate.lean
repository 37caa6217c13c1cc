import Vocal.Lib.SortedMap
import Vocal.Sdp.Session

/-!
# The answer to an offer

`negotiateSdp` answers with the codecs of `MediaCapability` that the audio lines of an offer list. Static payload
types are found by their numbers, dynamic ones by the names of their encodings.
-/

namespace Vocal.Media

open SortedMap (insert lookup Sorted)
open Sip (Data find isEqualNoCase)
open Sdp

/-- `VCodecType`: the numbers under which codecs are registered. -/
abbrev VCodecType := Nat

def G711U : VCodecType := 0
def G726_32 : VCodecType := 2
def G711A : VCodecType := 8
def G729 : VCodecType := 18
def G726_40 : VCodecType := 21
def G726_24 : VCodecType := 22
def G726_16 : VCodecType := 23
def DTMF_TONE : VCodecType := 100
def SPEEX : VCodecType := 2000

def rtpPayloadDynMin : Nat := 96
def rtpPayloadDynMax : Nat := 127

inductive VMediaType
  | None
  | Audio
  | Video
  deriving DecidableEq, Repr

/-- `CodecAdaptor`, with what a description tells of it. -/
structure CodecAdaptor where
  type : VCodecType
  myPriority : Int := 0
  encodingName : Data
  clockRate : Int := 8000
  /-- The number in packets; -1 is that of the type. -/
  rtpType : Int := -1
  myMediaType : VMediaType := .Audio
  attrValueMap : List (Data × Data) := []
  deriving DecidableEq, Repr

/-! ### The registered codecs -/

/-- `MediaCapability`: the codecs, in the order of their types. -/
structure MediaCapability where
  myCodecMap : List (VCodecType × CodecAdaptor)
  sorted : Sorted myCodecMap
  type_eq : ∀ p ∈ myCodecMap, p.2.type = p.1

/-- `checkType`: an entry of the first line of the offer gives the number the name. -/
def checkType (sdp : SdpSession) (realPayloadType : Int) (eventName : Data) : Bool :=
  match sdp.mediaList with
  | [] => false
  | first :: _ =>
    match first.mediaAttrib with
    | none => false
    | some attributes => attributes.rtpmap.any fun rtpMap =>
        rtpMap.payloadType = realPayloadType && isEqualNoCase rtpMap.encodingName eventName

namespace MediaCapability

def empty : MediaCapability := ⟨[], SortedMap.sorted_nil, by simp⟩

/-- `MediaCapability::getCodec` of a number. -/
def getCodec (caps : MediaCapability) (cType : VCodecType) : Option CodecAdaptor := lookup cType caps.myCodecMap

/-- `MediaCapability::addCodec`: the first codec of a type stays. -/
def addCodec (caps : MediaCapability) (cAdp : CodecAdaptor) : MediaCapability :=
  if (caps.getCodec cAdp.type).isSome then caps
  else
    { myCodecMap := insert cAdp.type cAdp caps.myCodecMap
      sorted := caps.sorted.insert
      type_eq := fun p hp => by
        rcases SortedMap.mem_of_mem_insert hp with rfl | hp
        · rfl
        · exact caps.type_eq p hp }

/-- `MediaCapability::isSupported`, with the type of the codec that supports the number. -/
def isSupported (caps : MediaCapability) (remoteSdp : SdpSession) (payloadType : Int) : Option VCodecType :=
  if payloadType ≥ 96 then
    (caps.myCodecMap.find? fun p => 96 ≤ p.1 && checkType remoteSdp payloadType p.2.encodingName).map (·.1)
  else
    (caps.myCodecMap.find? fun p => (p.1 : Int) = payloadType).map (·.1)

end MediaCapability

/-! ### Writing the answer -/

/-- The numbers of the loop of `addMediaAttribute`. -/
def dynamicNumbers : List Int := (List.range' rtpPayloadDynMin (rtpPayloadDynMax - rtpPayloadDynMin)).map Int.ofNat

/-- `addMediaAttribute`; none when an assertion fails. The payload type of the new entry is what its memory holds
when no number is free. -/
def addMediaAttribute (memory : Int) (sdpMedia : SdpMedia) (cAdp : Option CodecAdaptor) : Option SdpMedia :=
  match cAdp, sdpMedia.mediaAttrib with
  | some cAdp, some mediaAttrib =>
    let number : Option Int :=
      if cAdp.type = SPEEX then dynamicNumbers.find? fun i => (mediaAttrib.getRtpmapAttributeValue i).isNone
      else some cAdp.type
    let rtpMapAttrib : SdpRtpMapAttribute :=
      { payloadType := number.getD memory, encodingName := cAdp.encodingName, clockrate := cAdp.clockRate }
    let values := cAdp.attrValueMap.map fun p => ({ attrib := p.1, value := p.2 } : ValueAttribute)
    let sdpMedia := match number with
      | some i => sdpMedia.addFormat i
      | none => sdpMedia
    some (sdpMedia.setMediaAttributes
      { mediaAttrib.addmap rtpMapAttrib with valueAttributes := mediaAttrib.valueAttributes ++ values })
  | _, _ => none

/-- The codecs are added one after another, each in its own memory. -/
def addMediaAttributes (memory : Nat → Int) : SdpMedia → List (Option CodecAdaptor) → Option SdpMedia
  | sdpMedia, [] => some sdpMedia
  | sdpMedia, cAdp :: rest => do
    addMediaAttributes (fun i => memory (i + 1)) (← addMediaAttribute (memory 0) sdpMedia cAdp) rest

/-- `setHost`. -/
def setHost (sdpSess : SdpSession) (hostAddr : Data) : SdpSession :=
  if (find [':'] hostAddr).isSome then
    { sdpSess with addressType := .IPV6, address := hostAddr }.setConnection { address := hostAddr, addresstype := .IPV6 }
  else { sdpSess with address := hostAddr }.setConnection { address := hostAddr }

/-- The audio lines of an offer. -/
def audioLines (offer : SdpSession) : List SdpMedia := offer.mediaList.filter fun m => m.mediaType = .Audio

/-- The types that `negotiateSdp` puts into its list. -/
def acList (caps : MediaCapability) (remoteSdp : SdpSession) : List VCodecType :=
  (audioLines remoteSdp).flatMap fun m => (m.getFormatList.getD []).filterMap (caps.isSupported remoteSdp)

/-- `negotiateSdp`. -/
def negotiateSdp (caps : MediaCapability) (memory : Nat → Int) (sdpSess : SdpSession) (localAddr : Data)
    (localPort : Int) (remoteSdp : SdpSession) : Option SdpSession := do
  let sdpSess := setHost sdpSess localAddr
  let sdpMedia := (((({} : SdpMedia).clearFormatList).setMediaType .Audio).setPort localPort).setMediaAttributes {}
  let sdpMedia ← addMediaAttributes memory sdpMedia ((acList caps remoteSdp).map caps.getCodec)
  return { sdpSess.addMedia sdpMedia with sessionName := "Vocal-Media-Lib".toList }

end Vocal.Media
