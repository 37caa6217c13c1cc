import Vocal.Lib.Decimal
import Vocal.Rtsp.PreParse

/-!
# The transport header

`RtspTransportSpec` and `RtspTransportHdr`: a header is written as alternatives with commas between them, each with
parameters that end with semicolons, and what is read is the first alternative that is suitable. A parameter is taken by its
first letter.
-/

namespace Vocal.Rtsp

open Sip (Data CRLF)

/-! ### More of the parser -/

namespace CharDataParser

/-- `getCurChar`. Behind the last character that is left to the parser another one may be read. -/
def getCurChar (p : CharDataParser) : Except Stop Char :=
  match p.text with
  | [] => .error .outOfBounds
  | c :: _ => .ok c

def getThruLength (p : CharDataParser) (length : Nat) : CharDataParser := { p with text := p.text.drop length }

/-- `parseThru` of the characters in a mask. -/
def parseThruMask (p : CharDataParser) (mask : Char → Bool) : Except Stop (Data × Bool × CharDataParser) := do
  let (x, rest) ← Scan.scan (fun c => (entry mask c).map not) p.text
  if rest = [] ∧ p.beyond > 0 then throw .outOfBounds
  return (x, x ≠ [], { p with text := rest })

/-- `getNextInteger`, with the parser behind the digits. -/
def takeInteger (p : CharDataParser) : Except Stop (Option (BitVec 32) × CharDataParser) := do
  let (numberChar, found, p) ← p.parseThruMask myMaskDigit
  if found then
    return (some (numberChar.foldl (fun value c => value * 10 + BitVec.ofNat 32 (c.toNat - '0'.toNat)) 0), p)
  else return (none, p)

theorem text_parseUntil {p p' : CharDataParser} {stop : Char → Except Stop Bool} {x : Data} {found : Bool}
    (h : p.parseUntil stop = .ok (x, found, p')) : p.text = x ++ p'.text ∧ (found = true → p'.text ≠ []) := by
  cases hscan : Scan.scan stop p.text with
  | error e =>
    rw [parseUntil_of_scan_error hscan] at h
    cases h
  | ok r =>
    rw [parseUntil_of_scan (show Scan.scan stop p.text = .ok (r.1, r.2) from hscan)] at h
    split_ifs at h
    cases h
    exact ⟨(Scan.scan_eq_ok_iff.mp hscan).1, of_decide_eq_true⟩

theorem length_getThruSpaces {p p' : CharDataParser} {x : Data} {found : Bool} (h : p.getThruSpaces = .ok (x, found, p')) :
    p'.text.length ≤ p.text.length := by
  rw [(text_parseUntil h).1, List.length_append]
  exact Nat.le_add_left ..

theorem length_parseThru {p p' : CharDataParser} {c : Char} {x : Data} (h : p.parseThru c = .ok (x, true, p')) :
    p'.text.length < p.text.length := by
  rw [parseThru] at h
  cases huntil : p.parseUntil fun d => .ok (d = c) with
  | error e =>
    rw [huntil] at h
    cases h
  | ok r =>
    obtain ⟨y, found, q⟩ := r
    rw [huntil] at h
    cases h
    obtain ⟨htext, hne⟩ := text_parseUntil huntil
    have hpos := List.length_pos_iff.mpr (hne rfl)
    rw [htext, List.length_append, List.length_drop]
    omega

end CharDataParser

/-! ### One alternative -/

/-- `operator==` compares all fields. -/
structure RtspTransportSpec where
  myIsTcp : Bool := false
  myIsMulticast : Bool := false
  myIsRecord : Bool := false
  myIsAppend : Bool := false
  myDestination : Data := []
  mySource : Data := []
  myClientPortA : UInt16 := 0
  myClientPortB : UInt16 := 0
  myServerPortA : UInt16 := 0
  myServerPortB : UInt16 := 0
  deriving DecidableEq, Repr

namespace RtspTransportSpec

open CharDataParser

/-- `reset` leaves what the constructor does. -/
def reset : RtspTransportSpec := {}

def parseProtocol (spec : RtspTransportSpec) (paramParser : CharDataParser) : Except Stop RtspTransportSpec := do
  let (param, _, paramParser) ← paramParser.getNextWord
  if isEqualNoCase param "RTP".toList then
    let (param, _, paramParser) ← (paramParser.getThruLength 1).getNextWord
    if isEqualNoCase param "AVP".toList then
      let (param, found, _) ← (paramParser.getThruLength 1).getNextWord
      if found ∧ isEqualNoCase param "TCP".toList then return { spec with myIsTcp := true } else return spec
    else return spec
  else return spec

def parseMulticastOrMode (spec : RtspTransportSpec) (paramParser : CharDataParser) : Except Stop RtspTransportSpec := do
  let (param, _, paramParser) ← paramParser.getNextWord
  if isEqualNoCase param "multicast".toList then return { spec with myIsMulticast := true }
  else if isEqualNoCase param "mode".toList then
    let (_, _, paramParser) ← paramParser.parseThruMask myMaskNonWord
    let (param, _) ← paramParser.getNextWord
    if isEqualNoCase param "RECORD".toList then return { spec with myIsRecord := true } else return spec
  else return spec

/-- `parseUnicast`, which only looks at the word for the log. -/
def parseUnicast (spec : RtspTransportSpec) (paramParser : CharDataParser) : Except Stop RtspTransportSpec := do
  let _ ← paramParser.getNextWord
  return spec

/-- The host of `parseDestination` and `parseSource`, without the semicolon behind it. The last character of an empty
host is read in front of it. -/
def parseHost (paramParser : CharDataParser) : Except Stop Data := do
  let (param, _) ← (paramParser.getThruLength 1).parseUntil (entry myMaskEolSpace)
  match param.getLast? with
  | none => throw .outOfBounds
  | some c => return if c = ';' then param.dropLast else param

def parseDestination (spec : RtspTransportSpec) (paramParser : CharDataParser) : Except Stop RtspTransportSpec := do
  let (param, _, paramParser) ← paramParser.getNextWord
  if isEqualNoCase param "destination".toList then
    let host ← parseHost paramParser
    return { spec with myDestination := host }
  else return spec

def parseSource (spec : RtspTransportSpec) (paramParser : CharDataParser) : Except Stop RtspTransportSpec := do
  let (param, _, paramParser) ← paramParser.getNextWord
  if isEqualNoCase param "source".toList then
    let host ← parseHost paramParser
    return { spec with mySource := host }
  else return spec

def parseAppend (spec : RtspTransportSpec) (paramParser : CharDataParser) : Except Stop RtspTransportSpec := do
  let (param, _) ← paramParser.getNextWord
  if isEqualNoCase param "append".toList then return { spec with myIsAppend := true } else return spec

def parseClientPort (spec : RtspTransportSpec) (paramParser : CharDataParser) : Except Stop RtspTransportSpec := do
  let (param, _, paramParser) ← paramParser.getNextWord
  if isEqualNoCase param "client_port".toList then
    let (clientPort, paramParser) ← (paramParser.getThruLength 1).takeInteger
    match clientPort with
    | none => return spec
    | some a =>
      let spec := { spec with myClientPortA := .ofNat a.toNat }
      let (clientPort, _) ← (paramParser.getThruLength 1).takeInteger
      match clientPort with
      | none => return spec
      | some b => return { spec with myClientPortB := .ofNat b.toNat }
  else return spec

/-- The `switch` of `parse` over the first letter of a parameter. -/
def parseParam (spec : RtspTransportSpec) (oneParamData : Data) : Except Stop RtspTransportSpec := do
  let paramParser : CharDataParser := { text := oneParamData }
  let c ← paramParser.getCurChar
  if c = 'R' then spec.parseProtocol paramParser
  else if c = 'm' then spec.parseMulticastOrMode paramParser
  else if c = 'u' then spec.parseUnicast paramParser
  else if c = 'd' then spec.parseDestination paramParser
  else if c = 's' then spec.parseSource paramParser
  else if c = 'a' then spec.parseAppend paramParser
  else if c = 'c' then spec.parseClientPort paramParser
  else return spec

/-- `parse`. The last parameter is what has no semicolon behind it. -/
def parse (spec : RtspTransportSpec) (parser : CharDataParser) : Except Stop RtspTransportSpec :=
  match _h : parser.parseThru ';' with
  | .error e => .error e
  | .ok (oneParamData, false, _) => spec.parseParam oneParamData
  | .ok (oneParamData, true, behind) =>
    match spec.parseParam oneParamData with
    | .error e => .error e
    | .ok spec =>
      match _hspaces : behind.getThruSpaces with
      | .error e => .error e
      | .ok (_, _, rest) => spec.parse rest
  termination_by parser.text.length
  decreasing_by exact Nat.lt_of_le_of_lt (length_getThruSpaces _hspaces) (length_parseThru _h)

/-- `itos`. -/
def itos (port : UInt16) : Data := decimal port.toNat

/-- The two ports of `encode`. The second is written behind the first only. -/
def encodePorts (name : Data) (a b : UInt16) : Data :=
  if a ≠ 0 then name ++ "=".toList ++ itos a ++ (if b ≠ 0 then "-".toList ++ itos b else []) ++ ";".toList else []

def encodeHost (name host : Data) : Data :=
  if 0 < host.length then name ++ "=".toList ++ host ++ ";".toList else []

def encode (spec : RtspTransportSpec) : Data :=
  (if !spec.myIsTcp && !spec.myIsMulticast then "RTP/AVP;unicast;".toList
    else if spec.myIsTcp then "RTP/AVP/TCP;unicast;".toList
    else "RTP/AVP;multicast;".toList) ++
  encodeHost "destination".toList spec.myDestination ++
  encodeHost "source".toList spec.mySource ++
  (if spec.myIsAppend then "append;".toList else []) ++
  encodePorts "client_port".toList spec.myClientPortA spec.myClientPortB ++
  encodePorts "server_port".toList spec.myServerPortA spec.myServerPortB ++
  (if spec.myIsRecord then "mode=\"RECORD\"".toList else "mode=\"PLAY\"".toList)

end RtspTransportSpec

/-! ### The header -/

/-- `isSuitableSpec`. -/
def isSuitableSpec (spec : RtspTransportSpec) : Bool :=
  if spec.myIsTcp || spec.myIsMulticast then false
  else if spec.myClientPortA = 0 then false
  else true

/-- `parseTransportHeader`: the first suitable alternative. Each is parsed into a spec that was reset. -/
def parseTransportHeader (parser : CharDataParser) : Except Stop (Option RtspTransportSpec) :=
  match _h : parser.parseThru ',' with
  | .error e => .error e
  | .ok (oneSpecData, false, _) => do
    let spec ← RtspTransportSpec.reset.parse { text := oneSpecData }
    return if isSuitableSpec spec then some spec else none
  | .ok (oneSpecData, true, behind) =>
    match RtspTransportSpec.reset.parse { text := oneSpecData } with
    | .error e => .error e
    | .ok spec =>
      if isSuitableSpec spec then .ok (some spec)
      else
        match _hspaces : behind.getThruSpaces with
        | .error e => .error e
        | .ok (_, _, rest) => parseTransportHeader rest
  termination_by parser.text.length
  decreasing_by
    exact Nat.lt_of_le_of_lt (CharDataParser.length_getThruSpaces _hspaces) (CharDataParser.length_parseThru _h)

/-- `RtspTransportHdr`: the text to be sent. -/
structure RtspTransportHdr where
  myTransport : Data := []

namespace RtspTransportHdr

def appendTransportSpec (hdr : RtspTransportHdr) (transSpec : RtspTransportSpec) : RtspTransportHdr :=
  { myTransport :=
      (if hdr.myTransport.length = 0 then "Transport: ".toList else hdr.myTransport ++ ",".toList) ++ transSpec.encode }

def encode (hdr : RtspTransportHdr) : Data := if 0 < hdr.myTransport.length then hdr.myTransport ++ CRLF else []

end RtspTransportHdr

/-- `getTransport` of a message that was not asked before. -/
def RtspMsg.getTransport (msg : RtspMsg) : Except Stop (Option RtspTransportSpec) :=
  match msg.myHeaderMap .RTSP_TRANSPORT_HDR with
  | none => .ok none
  | some hvd => do
    let transpParser ← msg.hdrBody hvd
    parseTransportHeader transpParser

end Vocal.Rtsp
