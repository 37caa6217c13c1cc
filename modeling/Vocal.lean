import Vocal.Sip.Decode
import Vocal.Sip.RawHeader.RoundTrip
import Vocal.Sip.RawHeader.Split
import Vocal.Sip.TcpConnection.Send
import Vocal.Sip.UdpConnection.Backoff
import Vocal.Sip.UdpConnection.Reports
import Vocal.Sip.Content.Length
import Vocal.Sip.Content.Multipart
import Vocal.Sip.Via.RoundTrip
import Vocal.Sip.From.RoundTrip
import Vocal.Sip.TransactionId
import Vocal.Sip.SentResponseDB.Order
import Vocal.Sip.SentRequestDB.Delivery
import Vocal.Sip.CallIsolation.Calls
import Vocal.Sip.UdpConnection.Budget
import Vocal.Sip.Transceiver.Stop
import Vocal.Sip.Transceiver.Nat
import Vocal.Sip.TcpConnection.Coherence
import Vocal.Sip.TcpConnection.Framing
import Vocal.Stun.Bounds
import Vocal.Stun.Integrity
import Vocal.Sip.Loop
import Vocal.Sip.Authorization.Agreement
import Vocal.Sip.MaxForwards
import Vocal.Rtp.Order
import Vocal.Cdr.Purge
import Vocal.Cdr.Billing
import Vocal.Cdr.Radius.Retries
import Vocal.Cdr.Radius.Table
import Vocal.Cdr.File
import Vocal.Cdr.Mind
import Vocal.Radius.Response
import Vocal.Sdp.Copy
import Vocal.Sdp.RoundTrip
import Vocal.Media.Agree
import Vocal.Ua.Fuel
import Vocal.Ua.Ack
import Vocal.Ua.Survival
import Vocal.Ua.ReInvite
import Vocal.Ua.CSeq
import Vocal.Media.Exclusive
import Vocal.Ua.Routes
import Vocal.Sip.TcpConnection.Prefix
import Vocal.Rtcp.RoundTrip
import Vocal.Rtcp.Loss
import Vocal.Rtsp.Framing
import Vocal.Rtsp.TransportTrip
import Vocal.Rtp.Stream
import Vocal.Rtsp.Robust
import Vocal.Rtcp.NtpTime
import Vocal.Cdr.Duration
import Vocal.Cdr.Radius.Walk
import Vocal.Cdr.Oldest
import Vocal.Util.DnsResolver
import Vocal.Util.TimerContainer
import Vocal.Media.Suppression
import Vocal.Sip.Url.Key
import Vocal.Sip.Headers.Assign
import Vocal.Sip.Headers.RouteSet
import Vocal.Sip.Content.Again
import Vocal.Sip.ParameterList.RoundTrip
import Vocal.Sip.Order
import Vocal.Sip.Decode.Unfold
import Vocal.Rtp.Cycles
import Vocal.Util.IOBufferv.Queue
import Vocal.Util.IOBufferv.EndOfFile
import Vocal.Util.Connection
import Vocal.Util.CircularBuffer
import Vocal.Util.Base64
import Vocal.Sip.Text.Int
import Vocal.Sip.Text.Buffer
import Vocal.Rtp.Jitter
