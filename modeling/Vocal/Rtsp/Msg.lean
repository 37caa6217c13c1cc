import Vocal.Rtsp.CharData

/-!
# Messages

The state of a message that is received, and what is read of its headers.
-/

namespace Vocal.Rtsp

open Sip (Data CRLF)

inductive RtspMethodsType
  | RTSP_NULL_MTHD
  | RTSP_ANNOUNCE_MTHD
  | RTSP_DESCRIBE_MTHD
  | RTSP_PLAY_MTHD
  | RTSP_RECORD_MTHD
  | RTSP_SETUP_MTHD
  | RTSP_TEARDOWN_MTHD
  | RTSP_PAUSE_MTHD
  | RTSP_GET_PARAMETER_MTHD
  | RTSP_OPTIONS_MTHD
  | RTSP_REDIRECT_MTHD
  | RTSP_SET_PARAMETER_MTHD
  | RTSP_UNKNOWN_MTHD
  deriving DecidableEq, Repr

inductive RtspHeadersType
  | RTSP_ACCEPT_HDR
  | RTSP_CSEQ_HDR
  | RTSP_RANGE_HDR
  | RTSP_SESSION_HDR
  | RTSP_TRANSPORT_HDR
  | RTSP_BLOCKSIZE_HDR
  | RTSP_CONTENT_BASE_HDR
  | RTSP_CONTENT_LENGTH_HDR
  | RTSP_CONTENT_TYPE_HDR
  | RTSP_ACCEPT_ENCODING_HDR
  | RTSP_ACCEPT_LANGUAGE_HDR
  | RTSP_ALLOW_HDR
  | RTSP_AUTHORIZATION_HDR
  | RTSP_BANDWIDTH_HDR
  | RTSP_CACHE_CONTROL_HDR
  | RTSP_CONFERENCE_HDR
  | RTSP_CONNECTION_HDR
  | RTSP_CONTENT_ENCODING_HDR
  | RTSP_CONTENT_LANGUAGE_HDR
  | RTSP_CONTENT_LOCATION_HDR
  | RTSP_DATE_HDR
  | RTSP_EXPIRES_HDR
  | RTSP_FROM_HDR
  | RTSP_HOST_HDR
  | RTSP_IF_MATCH_HDR
  | RTSP_IF_MODIFIED_SINCE_HDR
  | RTSP_LAST_MODIFIED_HDR
  | RTSP_LOCATION_HDR
  | RTSP_PROXY_AUTHENTICATE_HDR
  | RTSP_PROXY_REQUIRE_HDR
  | RTSP_PUBLIC_HDR
  | RTSP_REFERER_HDR
  | RTSP_RETRY_AFTER_HDR
  | RTSP_REQUIRE_HDR
  | RTSP_RTP_INFO_HDR
  | RTSP_SCALE_HDR
  | RTSP_SERVER_HDR
  | RTSP_SPEED_HDR
  | RTSP_TIMESTAMP_HDR
  | RTSP_UNSUPPORTED_HDR
  | RTSP_USER_AGENT_HDR
  | RTSP_VARY_HDR
  | RTSP_VIA_HDR
  | RTSP_WWW_AUTHENTICATE_HDR
  | RTSP_UNKNOWN_HDR
  deriving DecidableEq, Repr

namespace RtspUtil

def myMethods : List (RtspMethodsType × Data) :=
  [(.RTSP_NULL_MTHD, "".toList),
    (.RTSP_ANNOUNCE_MTHD, "ANNOUNCE".toList),
    (.RTSP_DESCRIBE_MTHD, "DESCRIBE".toList),
    (.RTSP_PLAY_MTHD, "PLAY".toList),
    (.RTSP_RECORD_MTHD, "RECORD".toList),
    (.RTSP_SETUP_MTHD, "SETUP".toList),
    (.RTSP_TEARDOWN_MTHD, "TEARDOWN".toList),
    (.RTSP_PAUSE_MTHD, "PAUSE".toList),
    (.RTSP_GET_PARAMETER_MTHD, "GET_PARAMETER".toList),
    (.RTSP_OPTIONS_MTHD, "OPTIONS".toList),
    (.RTSP_REDIRECT_MTHD, "REDIRECT".toList),
    (.RTSP_SET_PARAMETER_MTHD, "SET_PARAMETER".toList)]

def myHeaders : List (RtspHeadersType × Data) :=
  [(.RTSP_ACCEPT_HDR, "Accept".toList),
    (.RTSP_CSEQ_HDR, "Cseq".toList),
    (.RTSP_RANGE_HDR, "Range".toList),
    (.RTSP_SESSION_HDR, "Session".toList),
    (.RTSP_TRANSPORT_HDR, "Transport".toList),
    (.RTSP_BLOCKSIZE_HDR, "Blocksize".toList),
    (.RTSP_CONTENT_BASE_HDR, "Content-Base".toList),
    (.RTSP_CONTENT_LENGTH_HDR, "Content-length".toList),
    (.RTSP_CONTENT_TYPE_HDR, "Content-Type".toList),
    (.RTSP_ACCEPT_ENCODING_HDR, "Accept-Encoding".toList),
    (.RTSP_ACCEPT_LANGUAGE_HDR, "Accept-Language".toList),
    (.RTSP_ALLOW_HDR, "Allow".toList),
    (.RTSP_AUTHORIZATION_HDR, "Authorization".toList),
    (.RTSP_BANDWIDTH_HDR, "Bandwidth".toList),
    (.RTSP_CACHE_CONTROL_HDR, "Cache-Control".toList),
    (.RTSP_CONFERENCE_HDR, "Conference".toList),
    (.RTSP_CONNECTION_HDR, "Connection".toList),
    (.RTSP_CONTENT_ENCODING_HDR, "Content-Encoding".toList),
    (.RTSP_CONTENT_LANGUAGE_HDR, "Content-Language".toList),
    (.RTSP_CONTENT_LOCATION_HDR, "Content-Location".toList),
    (.RTSP_DATE_HDR, "Date".toList),
    (.RTSP_EXPIRES_HDR, "Expires".toList),
    (.RTSP_FROM_HDR, "From".toList),
    (.RTSP_HOST_HDR, "Host".toList),
    (.RTSP_IF_MATCH_HDR, "If-Match".toList),
    (.RTSP_IF_MODIFIED_SINCE_HDR, "If-Modified-Since".toList),
    (.RTSP_LAST_MODIFIED_HDR, "Last-Modified".toList),
    (.RTSP_LOCATION_HDR, "Location".toList),
    (.RTSP_PROXY_AUTHENTICATE_HDR, "Proxy-Authenticate".toList),
    (.RTSP_PROXY_REQUIRE_HDR, "Proxy-Require".toList),
    (.RTSP_PUBLIC_HDR, "Public".toList),
    (.RTSP_REFERER_HDR, "Referer".toList),
    (.RTSP_RETRY_AFTER_HDR, "Retry-After".toList),
    (.RTSP_REQUIRE_HDR, "Require".toList),
    (.RTSP_RTP_INFO_HDR, "RTP-Info".toList),
    (.RTSP_SCALE_HDR, "Scale".toList),
    (.RTSP_SERVER_HDR, "Server".toList),
    (.RTSP_SPEED_HDR, "Speed".toList),
    (.RTSP_TIMESTAMP_HDR, "Timestamp".toList),
    (.RTSP_UNSUPPORTED_HDR, "Unsupported".toList),
    (.RTSP_USER_AGENT_HDR, "User-Agent".toList),
    (.RTSP_VARY_HDR, "Vary".toList),
    (.RTSP_VIA_HDR, "Via".toList),
    (.RTSP_WWW_AUTHENTICATE_HDR, "WWW-Authenticate".toList)]

/-- `getHeaderInNumber`, `RTSP_UNKNOWN_HDR` where no header has the name. -/
def getHeaderInNumber (hdrData : Data) : RtspHeadersType :=
  if hdrData = [] then .RTSP_UNKNOWN_HDR
  else ((myHeaders.find? fun h => isEqualNoCase hdrData h.2).map (·.1)).getD .RTSP_UNKNOWN_HDR

/-- `getMethodInNumber`. The number that it returns for an empty word is that of no method. -/
def getMethodInNumber (methodData : Data) : RtspMethodsType :=
  if methodData = [] then .RTSP_UNKNOWN_MTHD
  else ((myMethods.find? fun m => isEqualNoCase methodData m.2).map (·.1)).getD .RTSP_UNKNOWN_MTHD

end RtspUtil

/-- The classes of messages. -/
inductive RtspMsgClass
  | RtspMsg
  | RtspResponse
  | RtspRequest
  | RtspAnnounceMsg
  | RtspDescribeMsg
  | RtspPlayMsg
  | RtspRecordMsg
  | RtspPauseMsg
  | RtspSetupMsg
  | RtspTeardownMsg
  | RtspOptionsMsg
  | RtspSetParameterMsg
  deriving DecidableEq, Repr

inductive RtspMsgCompletionType
  | RTSP_MSG_NEW
  | RTSP_MSG_STRTLINE_COMPLETE
  | RTSP_MSG_HEADERS_COMPLETE
  | RTSP_MSG_COMPLETE
  deriving DecidableEq, Repr

structure HeaderValueData where
  offset : Nat
  len : Nat
  deriving DecidableEq, Repr

/-- `RtspMsg`, with its class. A header that the map has not, or has with the offset -1, has no place in it. -/
structure RtspMsg where
  cls : RtspMsgClass
  myStartLine : Data := []
  myHeaders : Data := []
  myHeaderMap : RtspHeadersType → Option HeaderValueData := fun _ => none
  myContentLength : BitVec 32 := 0
  myHasBody : Bool := false
  myMsgBody : Data := []
  myCompletionFlag : RtspMsgCompletionType := .RTSP_MSG_NEW
  myIncompHeader : Data := []
  myFirstWordUnknown : Bool := false

namespace RtspMsg

def setHeadersMap (msg : RtspMsg) (hdrType : RtspHeadersType) (hvd : Option HeaderValueData) : RtspMsg :=
  { msg with myHeaderMap := fun header => if header = hdrType then hvd else msg.myHeaderMap header }

/-- The part of the headers that the map gives for a header. -/
def hdrBody (msg : RtspMsg) (hvd : HeaderValueData) : Except Stop CharDataParser :=
  if hvd.offset + hvd.len ≤ msg.myHeaders.length then .ok { text := (msg.myHeaders.drop hvd.offset).take hvd.len }
  else .error .outOfBounds

def getHdrBodyValue (msg : RtspMsg) (header : RtspHeadersType) : Except Stop (BitVec 32) :=
  match msg.myHeaderMap header with
  | none => .ok 0
  | some hvd => do
    let numDataParser ← msg.hdrBody hvd
    return (← numDataParser.getNextInteger).getD 0

/-- `getHdrBodyData`: with `full` up to the end of the line, else up to the first blank. -/
def getHdrBodyData (msg : RtspMsg) (header : RtspHeadersType) (full : Bool) : Except Stop Data :=
  match msg.myHeaderMap header with
  | none => .ok []
  | some hvd => do
    let bodyParser ← msg.hdrBody hvd
    let (theFirstBody, found, _) ← bodyParser.parseUntil (entry (if full then myMaskEol else myMaskEolSpace))
    return if found then theFirstBody else []

/-- `getContentLength`, which keeps the value that it reads. -/
def getContentLength (msg : RtspMsg) : Except Stop RtspMsg :=
  if msg.myContentLength = 0 then
    (msg.getHdrBodyValue .RTSP_CONTENT_LENGTH_HDR).map fun value => { msg with myContentLength := value }
  else .ok msg

end RtspMsg

end Vocal.Rtsp
