import Vocal.Lib.Decimal
import Vocal.Sip.Text

/-!
# Session descriptions

`SdpSession` and the objects it holds, and how each puts its lines to the stream of `encode`. A text holds no NUL
character. A field that no constructor of its class sets keeps what its memory holds.
-/

namespace Vocal.Sdp

open Sip (Data CRLF)

inductive SDPErrorType
  | UNKNOWN_NETTYPE
  | UNKNOWN_ADDRTYPE
  | PARAM_NUMERR
  | UNDEF_MODIFIER
  | UNKNOWN_FIELD
  | UNKNOWN_ENCRYPT_METHOD
  | FAILED
  deriving DecidableEq, Repr

inductive NetworkType
  | Unknown
  | Internet
  deriving DecidableEq, Repr

inductive AddressType
  | Unknown
  | IPV4
  | IPV6
  deriving DecidableEq, Repr

inductive TransportType
  | Unknown
  | RTP
  | UDP
  deriving DecidableEq, Repr

inductive SdpMediaType
  | Unknown
  | Audio
  | Video
  deriving DecidableEq, Repr

inductive SdpBandwidthModifierType
  | AS
  | CT
  | RR
  deriving DecidableEq, Repr

inductive EncryptMethod
  | Unknown
  | Clear
  | Base64
  | URI
  | Prompt
  deriving DecidableEq, Repr

/-- What the memory of an object holds in the fields that are read and may never have been set. -/
structure Memory where
  networktype : NetworkType
  addresstype : AddressType
  transportType : TransportType
  ttl : Int
  clockrate : Int
  deriving DecidableEq, Repr

def SdpNetworkTypeIN : Data := "IN".toList
def SdpAddressTypeIP4 : Data := "IP4".toList
def SdpAddressTypeIP6 : Data := "IP6".toList
def SdpMediaTransportRTPAVP : Data := "RTP/AVP".toList
def SdpMediaTransportUDP : Data := "UDP".toList

def NetworkType.networkTypeString : NetworkType → Data
  | Internet => SdpNetworkTypeIN
  | Unknown => []

def AddressType.addressTypeString : AddressType → Data
  | IPV4 => SdpAddressTypeIP4
  | IPV6 => SdpAddressTypeIP6
  | Unknown => []

def TransportType.transportTypeString : TransportType → Data
  | RTP => SdpMediaTransportRTPAVP
  | UDP => SdpMediaTransportUDP
  | Unknown => []

def SdpBandwidthModifierType.modifierString : SdpBandwidthModifierType → Data
  | AS => "AS".toList
  | CT => "CT".toList
  | RR => "RR".toList

/-- A line of its letter and its text. The stream gets it with a carriage return and a line feed. -/
def line (letter : Char) (text : Data) : Data := letter :: '=' :: text

/-! ### Connections, bandwidths, keys, times -/

structure SdpMulticast where
  address : Data
  ttl : Int
  numAddress : Int := 0
  deriving DecidableEq, Repr

def SdpMulticast.encode (m : SdpMulticast) : Data :=
  m.address ++ '/' :: decimal m.ttl ++ (if m.numAddress > 0 then '/' :: decimal m.numAddress else [])

structure SdpConnection where
  networktype : NetworkType := .Internet
  addresstype : AddressType := .IPV4
  address : Data := "0.0.0.0".toList
  multicast : Option SdpMulticast := none
  deriving DecidableEq, Repr

def SdpConnection.encode (c : SdpConnection) : Data :=
  line 'c' (c.networktype.networkTypeString ++ ' ' :: c.addresstype.addressTypeString ++ ' ' ::
    (match c.multicast with
    | some multicast => multicast.encode
    | none => c.address))

/-- `SdpConnection::operator=`: the address of a multicast connection stays. -/
def SdpConnection.assign (c connection : SdpConnection) : SdpConnection :=
  { networktype := connection.networktype, addresstype := connection.addresstype,
    address := if connection.multicast.isSome then c.address else connection.address,
    multicast := connection.multicast }

structure SdpBandwidth where
  modifier : SdpBandwidthModifierType := .AS
  value : Int := 64
  deriving DecidableEq, Repr

def SdpBandwidth.encode (b : SdpBandwidth) : Data := line 'b' (b.modifier.modifierString ++ ':' :: decimal b.value)

structure SdpEncryptkey where
  encrypt_method : EncryptMethod := .Unknown
  encrypt_key : Data := []
  deriving DecidableEq, Repr

/-- `SdpEncryptkey::encode`: no line of an unknown method. -/
def SdpEncryptkey.encode (k : SdpEncryptkey) : List Data :=
  match k.encrypt_method with
  | .Clear => [line 'k' ("clear".toList ++ ':' :: k.encrypt_key)]
  | .Base64 => [line 'k' ("base64".toList ++ ':' :: k.encrypt_key)]
  | .URI => [line 'k' ("uri".toList ++ ':' :: k.encrypt_key)]
  | .Prompt => [line 'k' "prompt".toList]
  | .Unknown => []

/-- The items, with a blank in front of each. -/
def spaced (items : List Data) : Data := items.flatMap fun item => ' ' :: item

structure SdpTimeRepeat where
  interval : Data
  activeDuration : Data
  offsetList : List Data := []
  deriving DecidableEq, Repr

def SdpTimeRepeat.encode (r : SdpTimeRepeat) : Data :=
  line 'r' (r.interval ++ ' ' :: r.activeDuration ++ spaced r.offsetList)

structure SdpTime where
  startTime : Data
  stopTime : Data
  repeatList : List SdpTimeRepeat := []
  deriving DecidableEq, Repr

def SdpTime.encode (t : SdpTime) : List Data :=
  line 't' (t.startTime ++ ' ' :: t.stopTime) :: t.repeatList.map SdpTimeRepeat.encode

structure SdpZoneAdjustment where
  adjustment_time : Data
  offset : Data
  deriving DecidableEq, Repr

/-! ### Attributes -/

structure ValueAttribute where
  attrib : Data
  value : Data
  deriving DecidableEq, Repr

def ValueAttribute.encode (v : ValueAttribute) : Data := line 'a' (v.attrib ++ ':' :: v.value)

structure SdpAttributes where
  recvonly : Bool := false
  sendonly : Bool := false
  sendrecv : Bool := false
  valueAttributes : List ValueAttribute := []
  deriving DecidableEq, Repr

def SdpAttributes.addValueAttribute (a : SdpAttributes) (v : ValueAttribute) : SdpAttributes :=
  { a with valueAttributes := a.valueAttributes ++ [v] }

def SdpAttributes.encode (a : SdpAttributes) : List Data :=
  (if a.recvonly then [line 'a' "recvonly".toList]
    else if a.sendonly then [line 'a' "sendonly".toList]
    else if a.sendrecv then [line 'a' "sendrecv".toList] else []) ++
  a.valueAttributes.map ValueAttribute.encode

structure SdpRtpMapAttribute where
  payloadType : Int
  encodingName : Data
  clockrate : Int
  encodingParms : Int := 0
  deriving DecidableEq, Repr

def SdpRtpMapAttribute.encode (r : SdpRtpMapAttribute) : Data :=
  line 'a' ("rtpmap:".toList ++ decimal r.payloadType ++ ' ' :: r.encodingName ++ '/' :: decimal r.clockrate ++
    (if r.encodingParms ≥ 1 then '/' :: decimal r.encodingParms else []))

structure MediaAttributes extends SdpAttributes where
  rtpmap : List SdpRtpMapAttribute := []
  deriving DecidableEq, Repr

namespace MediaAttributes

def addmap (a : MediaAttributes) (rtpattrib : SdpRtpMapAttribute) : MediaAttributes :=
  { a with rtpmap := a.rtpmap ++ [rtpattrib] }

/-- `MediaAttributes::getRtpmapAttributeValue`: the first entry for the number. -/
def getRtpmapAttributeValue (a : MediaAttributes) (payload_type : Int) : Option SdpRtpMapAttribute :=
  a.rtpmap.find? fun r => r.payloadType = payload_type

def encode (a : MediaAttributes) : List Data := a.rtpmap.map SdpRtpMapAttribute.encode ++ a.toSdpAttributes.encode

end MediaAttributes

/-! ### Media and sessions -/

structure SdpMedia where
  mediaType : SdpMediaType := .Audio
  mediaTypeString : Data := "audio".toList
  port : Int := -1
  numPorts : Int := 0
  transportType : TransportType := .RTP
  formatList : List Int := [0]
  mediaAttrib : Option MediaAttributes := none
  connection : Option SdpConnection := none
  bandwidth : Option SdpBandwidth := none
  encryptkey : Option SdpEncryptkey := none
  mediaInfo : Data := []
  deriving DecidableEq, Repr

namespace SdpMedia

def addFormat (m : SdpMedia) (fmt : Int) : SdpMedia := { m with formatList := m.formatList ++ [fmt] }

/-- `SdpMedia::getFormatList`: none when there is no format. -/
def getFormatList (m : SdpMedia) : Option (List Int) := if m.formatList.length > 0 then some m.formatList else none

def clearFormatList (m : SdpMedia) : SdpMedia := { m with formatList := [] }

/-- `SdpMedia::setMediaType` of a media type: it sets the text alone. -/
def setMediaType (m : SdpMedia) : SdpMediaType → SdpMedia
  | .Audio => { m with mediaTypeString := "audio".toList }
  | .Video => { m with mediaTypeString := "video".toList }
  | .Unknown => { m with mediaTypeString := "unknown".toList }

def setPort (m : SdpMedia) (newport : Int) : SdpMedia := { m with port := newport }

def setMediaAttributes (m : SdpMedia) (attributes : MediaAttributes) : SdpMedia :=
  { m with mediaAttrib := some attributes }

def encodeMediaAnnouncement (m : SdpMedia) : Data :=
  line 'm' (m.mediaTypeString ++ ' ' :: decimal m.port ++
    (if m.numPorts > 0 then '/' :: decimal m.numPorts else []) ++ ' ' :: m.transportType.transportTypeString ++
    spaced (m.formatList.map decimal))

def encode (m : SdpMedia) : List Data :=
  m.encodeMediaAnnouncement :: (if m.mediaInfo.length > 0 then [line 'i' m.mediaInfo] else []) ++
    (m.connection.map SdpConnection.encode).toList ++ (m.bandwidth.map SdpBandwidth.encode).toList ++
    ((m.encryptkey.map SdpEncryptkey.encode).getD []) ++ ((m.mediaAttrib.map MediaAttributes.encode).getD [])

end SdpMedia

structure SdpSession where
  isValid : Bool := false
  protocolVersion : Int := 0
  username : Data := "-".toList
  sessionId : Nat
  version : Nat
  networkType : NetworkType := .Internet
  addressType : AddressType := .IPV4
  address : Data := "0.0.0.0".toList
  sessionName : Data := []
  sessionInfo : Data := []
  uriInfo : Data := []
  emailList : List Data := []
  phoneList : List Data := []
  connection : Option SdpConnection := none
  bandwidth : Option SdpBandwidth := none
  sdpTimeList : List SdpTime
  zoneAdjustmentList : List SdpZoneAdjustment := []
  encryptkey : Option SdpEncryptkey := none
  attrib : Option SdpAttributes := none
  mediaList : List SdpMedia := []
  deriving DecidableEq, Repr

namespace SdpSession

/-- The default constructor, at a time of NTP. -/
def initial (time : Nat) : SdpSession :=
  { sessionId := time % 2 ^ 32, version := time % 2 ^ 32,
    sdpTimeList := [{ startTime := decimal (time % 2 ^ 32 : Nat), stopTime := ['0'] }] }

def setConnection (s : SdpSession) (conn : SdpConnection) : SdpSession :=
  { s with connection := some ((s.connection.getD {}).assign conn) }

def addMedia (s : SdpSession) (media : SdpMedia) : SdpSession := { s with mediaList := s.mediaList ++ [media] }

def encodeOrigin (s : SdpSession) : Data :=
  line 'o' (s.username ++ ' ' :: decimal s.sessionId ++ ' ' :: decimal s.version ++
    ' ' :: s.networkType.networkTypeString ++ ' ' :: s.addressType.addressTypeString ++ ' ' :: s.address)

def encodeTimeZoneAdjustment (s : SdpSession) : List Data :=
  match s.zoneAdjustmentList with
  | [] => []
  | z :: zs => [line 'z' (z.adjustment_time ++ ' ' :: z.offset ++
      zs.flatMap fun z => ' ' :: z.adjustment_time ++ ' ' :: z.offset)]

/-- What `encode` puts to its stream. -/
def encodeLines (s : SdpSession) : List Data :=
  if !s.isValid then [] else
    line 'v' (decimal s.protocolVersion) :: s.encodeOrigin :: line 's' s.sessionName ::
      (if s.sessionInfo.length > 0 then [line 'i' s.sessionInfo] else []) ++
      (if s.uriInfo.length > 0 then [line 'u' s.uriInfo] else []) ++
      s.emailList.map (line 'e') ++ s.phoneList.map (line 'p') ++
      (s.connection.map SdpConnection.encode).toList ++ (s.bandwidth.map SdpBandwidth.encode).toList ++
      s.sdpTimeList.flatMap SdpTime.encode ++ s.encodeTimeZoneAdjustment ++
      ((s.encryptkey.map SdpEncryptkey.encode).getD []) ++ ((s.attrib.map SdpAttributes.encode).getD []) ++
      s.mediaList.flatMap SdpMedia.encode

def SdpTextPayloadLength : Nat := 2024

/-- The lines as they stand in the text, each with its end. -/
def ofLines (lines : List Data) : Data := lines.flatMap (· ++ CRLF)

/-- `SdpSession::encode`. The stream writes into a buffer of fixed length: a text that leaves no room for the NUL
behind it is read on past that end, whatever stands there. -/
def encode (s : SdpSession) : Option Data :=
  if (ofLines s.encodeLines).length < SdpTextPayloadLength then some (ofLines s.encodeLines) else none

end SdpSession

end Vocal.Sdp
