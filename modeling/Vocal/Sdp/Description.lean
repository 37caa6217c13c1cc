import Vocal.Sdp.Session

/-!
# Descriptions in the order of the encoder

The texts that the decoder is made for: one line for each kind of information, in the order in which `encode` writes
them, with single blanks between their fields. The numbers are digits, as they are written. Only the attributes of a
session or of a media line stand in any order.
-/

namespace Vocal.Sdp

open Sip (Data CRLF)

/-- A text without the end of a line. -/
structure Text where
  chars : Data
  cr : '\r' ∉ chars
  lf : '\n' ∉ chars

/-- A field: some text without the characters that separate it from the next one. -/
structure Field (separators : Data) extends Text where
  ne_nil : chars ≠ []
  notMem : ∀ c ∈ separators, c ∉ chars

/-- Digits. -/
structure Number where
  chars : Data
  ne_nil : chars ≠ []
  isDigit : ∀ c ∈ chars, c.isDigit = true

/-- The name of an address type, that of version 6 or of version 4. -/
def addrType (ip6 : Bool) : Data := if ip6 then SdpAddressTypeIP6 else SdpAddressTypeIP4

structure OriginLine where
  username : Field [' ']
  sessionId : Number
  version : Number
  ip6 : Bool
  address : Field [' ']

def OriginLine.text (o : OriginLine) : Data :=
  o.username.chars ++ [o.sessionId.chars, o.version.chars, SdpNetworkTypeIN, addrType o.ip6,
    o.address.chars].flatMap (' ' :: ·)

structure ConnectionLine where
  ip6 : Bool
  address : Field [' ', '/']
  /-- The time to live and the number of addresses of a multicast address. -/
  multicast : Option (Number × Option Number)

/-- What stands behind the address. -/
def ConnectionLine.multicastText (c : ConnectionLine) : Data :=
  match c.multicast with
  | none => []
  | some (ttl, none) => '/' :: ttl.chars
  | some (ttl, some numAddr) => '/' :: ttl.chars ++ '/' :: numAddr.chars

def ConnectionLine.text (c : ConnectionLine) : Data :=
  SdpNetworkTypeIN ++ ' ' :: addrType c.ip6 ++ ' ' :: c.address.chars ++ c.multicastText

structure BandwidthLine where
  modifier : SdpBandwidthModifierType
  value : Number

def BandwidthLine.text (b : BandwidthLine) : Data := b.modifier.modifierString ++ ':' :: b.value.chars

inductive KeyLine
  | clear (key : Text)
  | base64 (key : Text)
  | uri (key : Text)
  | prompt

def KeyLine.text : KeyLine → Data
  | clear key => "clear".toList ++ ':' :: key.chars
  | base64 key => "base64".toList ++ ':' :: key.chars
  | uri key => "uri".toList ++ ':' :: key.chars
  | prompt => "prompt".toList

structure RepeatLine where
  interval : Field [' ']
  duration : Field [' ']
  offsets : List (Field [' '])

def RepeatLine.text (r : RepeatLine) : Data :=
  r.interval.chars ++ (r.duration.chars :: r.offsets.map (·.chars)).flatMap (' ' :: ·)

structure TimeLine where
  start : Field [' ']
  stop : Field [' ']
  repeats : List RepeatLine

def TimeLine.text (t : TimeLine) : Data := t.start.chars ++ [t.stop.chars].flatMap (' ' :: ·)

def TimeLine.lines (t : TimeLine) : List Data := line 't' t.text :: t.repeats.map fun r => line 'r' r.text

/-- A time and its offset, and more of them. -/
structure ZoneLine where
  time : Field [' ']
  offset : Field [' ']
  more : List (Field [' '] × Field [' '])

def ZoneLine.text (z : ZoneLine) : Data :=
  z.time.chars ++ (z.offset.chars :: z.more.flatMap fun p => [p.1.chars, p.2.chars]).flatMap (' ' :: ·)

inductive Direction
  | recvonly
  | sendonly
  | sendrecv
  deriving DecidableEq

def Direction.text : Direction → Data
  | recvonly => "recvonly".toList
  | sendonly => "sendonly".toList
  | sendrecv => "sendrecv".toList

/-- An attribute that the decoder knows. `SdpAttributes` drops a property that is none of the directions, so it has no line
here. -/
inductive AttributeLine
  | direction (d : Direction)
  | value (name : Field [':']) (value : Text)

def AttributeLine.text : AttributeLine → Data
  | direction d => d.text
  | value name v => name.chars ++ ':' :: v.chars

structure RtpMapLine where
  payload : Number
  name : Field [' ', '/']
  rate : Number
  parms : Option Number

def RtpMapLine.parmsText (r : RtpMapLine) : Data :=
  match r.parms with
  | some parms => '/' :: parms.chars
  | none => []

/-- What stands behind the name of the attribute. -/
def RtpMapLine.detail (r : RtpMapLine) : Data :=
  r.payload.chars ++ ' ' :: (r.name.chars ++ '/' :: r.rate.chars ++ r.parmsText)

inductive MediaAttributeLine
  | rtpmap (r : RtpMapLine)
  | other (a : AttributeLine) (h : ∀ name value, a = .value name value → name.chars ≠ "rtpmap".toList)

def MediaAttributeLine.text : MediaAttributeLine → Data
  | rtpmap r => "rtpmap:".toList ++ r.detail
  | other a _ => a.text

structure MediaBlock where
  media : Field [' ']
  port : Number
  numPorts : Option Number
  udp : Bool
  format : Number
  formats : List Number
  info : Option Text
  connection : Option ConnectionLine
  bandwidth : Option BandwidthLine
  key : Option KeyLine
  attributes : List MediaAttributeLine

def MediaBlock.portText (m : MediaBlock) : Data :=
  m.port.chars ++
    (match m.numPorts with
    | some numPorts => '/' :: numPorts.chars
    | none => [])

def MediaBlock.transport (m : MediaBlock) : Data := if m.udp then SdpMediaTransportUDP else SdpMediaTransportRTPAVP

def MediaBlock.text (m : MediaBlock) : Data :=
  m.media.chars ++ (m.portText :: m.transport :: (m.format :: m.formats).map (·.chars)).flatMap (' ' :: ·)

def MediaBlock.lines (m : MediaBlock) : List Data :=
  line 'm' m.text :: (m.info.map fun i => line 'i' i.chars).toList ++
    (m.connection.map fun c => line 'c' c.text).toList ++ (m.bandwidth.map fun b => line 'b' b.text).toList ++
    (m.key.map fun k => line 'k' k.text).toList ++ m.attributes.map fun a => line 'a' a.text

structure Description where
  origin : OriginLine
  sessionName : Text
  info : Option Text
  uri : Option Text
  emails : List Text
  phones : List Text
  connection : Option ConnectionLine
  bandwidth : Option BandwidthLine
  times : List TimeLine
  zones : Option ZoneLine
  key : Option KeyLine
  attributes : List AttributeLine
  media : List MediaBlock

namespace Description

/-- The lines behind the version and in front of the media. -/
def sessionLines (d : Description) : List Data :=
  line 'o' d.origin.text :: line 's' d.sessionName.chars :: (d.info.map fun i => line 'i' i.chars).toList ++
    (d.uri.map fun u => line 'u' u.chars).toList ++ (d.emails.map fun e => line 'e' e.chars) ++
    (d.phones.map fun p => line 'p' p.chars) ++ (d.connection.map fun c => line 'c' c.text).toList ++
    (d.bandwidth.map fun b => line 'b' b.text).toList ++ d.times.flatMap TimeLine.lines ++
    (d.zones.map fun z => line 'z' z.text).toList ++ (d.key.map fun k => line 'k' k.text).toList ++
    d.attributes.map fun a => line 'a' a.text

def lines (d : Description) : List Data := line 'v' ['0'] :: d.sessionLines ++ d.media.flatMap MediaBlock.lines

def text (d : Description) : Data := SdpSession.ofLines d.lines

end Description

end Vocal.Sdp
