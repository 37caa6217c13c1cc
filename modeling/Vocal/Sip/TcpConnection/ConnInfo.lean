import Mathlib.Data.Finmap
import Mathlib.Data.Finset.Max
import Vocal.Lib.Machine
import Vocal.Sip.Container
import Vocal.Sip.TcpConnection.FullMsg

/-!
# The table of TCP connections

`NTcpConnInfo` indexes the connections by descriptor, by the transactions they carry and by the
destination they lead to. The objects are shared by the three maps, so they live in a store. The
operations that the source leaves undefined, that abort or that do not end have no result.

`connInfo` is the table as a machine. The sockets are its environment: what `connect`, `accept`,
`read` and `write` answer is part of the operations.
-/

namespace Vocal.Sip

/-- `NTcpStuff` with its `Connection`. -/
structure NTcpStuff where
  /-- The descriptor, -1 once the connection is closed. -/
  connId : Int
  rcvBuf : Data
  /-- The key it was recorded under; `peer_ip` and `peer_port` are its parts. -/
  peer : Data
  deriving DecidableEq, Repr

def NTcpStuff.isLive (t : NTcpStuff) : Prop := 0 ≤ t.connId

instance (t : NTcpStuff) : Decidable t.isLive := inferInstanceAs (Decidable (0 ≤ t.connId))

/-- What `SipMsg::decode` gives of a message: the urls of its Contact headers beside it. -/
structure Decoded where
  msg : SipMsg
  contacts : List (Option BaseUrl)

structure NTcpConnInfo where
  /-- The connections made so far. -/
  conns : List NTcpStuff
  /-- The listening connection, which `TcpServerSocket` holds too. -/
  serverConn : Ref
  myMap : Finmap fun _ : Int => Ref
  /-- A map ordered by `operator<`, which compares what `key` gives. -/
  idMap : Bool × Data × Data × Data → Option Ref
  myDestinationMap : Data → Option Ref

/-- A connection that `accept` gives, or -1 without one; what the first `read` answers. -/
structure Accepted where
  clientId : Int
  peerIp : Data
  read : Option Data

/-- What `select` and the sockets answer during a tick. A `read` that fails gives nothing. -/
structure Sockets where
  input_fds : Int → Bool
  accepted : Accepted
  reads : Int → Option Data
  written : Int → Int

namespace NTcpConnInfo

/-! ### One connection -/

def getConnId (s : NTcpConnInfo) (r : Ref) : Int := (s.conns[r]?).elim (-1) NTcpStuff.connId

def getRcvBuf (s : NTcpConnInfo) (r : Ref) : Data := (s.conns[r]?).elim [] NTcpStuff.rcvBuf

def isLive (s : NTcpConnInfo) (r : Ref) : Prop := 0 ≤ s.getConnId r

instance (s : NTcpConnInfo) (r : Ref) : Decidable (s.isLive r) :=
  inferInstanceAs (Decidable (0 ≤ s.getConnId r))

def updateConn (s : NTcpConnInfo) (r : Ref) (g : NTcpStuff → NTcpStuff) : NTcpConnInfo :=
  { s with conns := s.conns.modify r g }

/-- `Connection::close`. -/
def close (s : NTcpConnInfo) (r : Ref) : NTcpConnInfo := s.updateConn r fun t => { t with connId := -1 }

def setRcvBuf (s : NTcpConnInfo) (r : Ref) (rcvBuf : Data) : NTcpConnInfo :=
  s.updateConn r fun t => { t with rcvBuf := rcvBuf }

/-- `Connection::read`: a closed connection has no descriptor to read from. -/
def read (s : NTcpConnInfo) (r : Ref) (answer : Option Data) : Option Data :=
  if s.getConnId r < 0 then none else answer

def tryWrite (s : NTcpConnInfo) (r : Ref) (written : Int) : NTcpConnInfo :=
  if written < 0 then s.close r else s

/-! ### The maps -/

def getCurrent (s : NTcpConnInfo) (fd : Int) : Option Ref := s.myMap.lookup fd

def getStatusMsgConn (s : NTcpConnInfo) (msg : SipMsg) : Option Ref :=
  s.idMap (SipTransactionId.ofMsg msg).key

def setStatusMsgConn (s : NTcpConnInfo) (msg : SipMsg) (fd : Int) : NTcpConnInfo :=
  match s.getCurrent fd with
  | some t => { s with idMap := Function.update s.idMap (SipTransactionId.ofMsg msg).key (some t) }
  | none => s

def delIdMapEntry (s : NTcpConnInfo) (id : SipTransactionId) : NTcpConnInfo :=
  { s with idMap := Function.update s.idMap id.key none }

/-- `delConn`: smart pointers are compared by the object they point to. -/
def delConn (s : NTcpConnInfo) (fd : Int) : NTcpConnInfo :=
  match s.myMap.lookup fd with
  | none => s
  | some del =>
    close
      { s with
        myMap := s.myMap.erase fd
        idMap := fun id => if s.idMap id = some del then none else s.idMap id
        myDestinationMap := fun key =>
          if s.myDestinationMap key = some del then none else s.myDestinationMap key } del

def notifyDestination (s : NTcpConnInfo) (dest_key : Data) (connInfo : Ref) : NTcpConnInfo :=
  { s with myDestinationMap := Function.update s.myDestinationMap dest_key (some connInfo) }

/-- `setConnNPeerIp`; every caller gives the descriptor of the new connection. -/
def setConnNPeerIp (s : NTcpConnInfo) (fd : Int) (peer : Data) : NTcpConnInfo :=
  { s with
    conns := s.conns ++ [⟨fd, [], peer⟩]
    myMap := s.myMap.insert fd s.conns.length
    myDestinationMap := Function.update s.myDestinationMap peer (some s.conns.length) }

/-! ### New connections -/

/-- The key of `createOrGetPersistentConnection`. -/
def destinationKey (ipName : Data) (port : Int) : Data := ipName ++ ':' :: (toString port).toList

/-- `createOrGetPersistentConnection`, for an address given by `getIpName` and `getPort`. A
connection that is found is asserted to be live and then not used. `connId` is the descriptor that
`connect` gives, or -1; the client socket closes it again when it goes out of scope. -/
def createOrGetPersistentConnection (s : NTcpConnInfo) (ipName : Data) (port : Int) (connId : Int) :
    Option (NTcpConnInfo × Ref) :=
  let key := destinationKey ipName port
  if ∀ conn ∈ s.myDestinationMap key, s.isLive conn then
    let r := s.conns.length
    let s := s.setConnNPeerIp connId key
    some (if 2 < connId then s.close r else s, r)
  else none

/-- The branch of `tcpReadOrAccept` for the listening socket: the table and the number of bytes read
from the new connection. -/
def accept (s : NTcpConnInfo) (a : Accepted) : NTcpConnInfo × Int :=
  let r := s.conns.length
  let s := s.setConnNPeerIp a.clientId a.peerIp
  match s.read r a.read with
  | none => (s.delConn a.clientId, -1)
  | some bytes => (s.setRcvBuf r bytes, bytes.length)

def tcpReadOrAccept (s : NTcpConnInfo) (tcpfd : Int) (sockets : Sockets) : Option (NTcpConnInfo × Int) :=
  if tcpfd = s.getConnId s.serverConn then some (s.accept sockets.accepted)
  else (s.getCurrent tcpfd).map fun r =>
    match s.read r (sockets.reads tcpfd) with
    | none => (s.delConn tcpfd, -1)
    | some bytes => (s.setRcvBuf r (s.getRcvBuf r ++ bytes), bytes.length)

/-! ### Messages -/

/-- The key under which a message maps its connection: the last Contact of a REGISTER. -/
def contactKey (m : Decoded) : Option Data :=
  if m.msg.getType = .SIP_REGISTER then
    match m.contacts.getLast? with
    | some (some (.sipUrl u)) => some (u.host ++ ':' :: u.port)
    | _ => none
  else none

/-- What `processMsgsIfReady` records of a message on the connection `connInfo` with descriptor
`fd`. -/
def recordMsg (connInfo : Ref) (fd : Int) (s : NTcpConnInfo) (m : Decoded) : NTcpConnInfo :=
  if m.msg.getType ≠ .SIP_STATUS ∧ m.msg.getType ≠ .SIP_ACK then
    let s := s.setStatusMsgConn m.msg fd
    match contactKey m with
    | some cAddr => s.notifyDestination cAddr connInfo
    | none => s
  else s

/-- `SipTcpConnection::processMsgsIfReady`, with what it does to the table. -/
def processMsgsIfReady (decode : Data → Option Decoded) (s : NTcpConnInfo) (connInfo : Ref) :
    Option NTcpConnInfo :=
  (Sip.processMsgsIfReady (s.getRcvBuf connInfo)).map fun (rest, texts) =>
    (texts.filterMap decode).foldl (recordMsg connInfo (s.getConnId connInfo))
      (s.setRcvBuf connInfo rest)

/-! ### The loops over the main map -/

/-- The descriptor after `last` in the main map, or the first one. -/
def nextFd (s : NTcpConnInfo) (last : Option Int) : Option Int :=
  (s.myMap.keys.filter fun fd => last.all (· < fd)).min

/-- A loop over the main map, which the rounds change. An iterator goes on from its descriptor. -/
def loop (round : NTcpConnInfo → Int → Option NTcpConnInfo) :
    Nat → Option Int → NTcpConnInfo → Option NTcpConnInfo
  | 0, _, _ => none
  | fuel + 1, last, s =>
    match s.nextFd last with
    | none => some s
    | some fd => (round s fd).bind (loop round fuel (some fd))

/-- One round of `tick`. There is no result if the entry of the iterator was erased. -/
def tickRound (decode : Data → Option Decoded) (sockets : Sockets) (s : NTcpConnInfo) (mapfd : Int) :
    Option NTcpConnInfo :=
  let read? :=
    if sockets.input_fds mapfd then
      (s.tcpReadOrAccept mapfd sockets).bind fun (s, rv) =>
        if 0 < rv then (s.getCurrent mapfd).bind (s.processMsgsIfReady decode) else some s
    else some s
  read?.bind fun s => (s.getCurrent mapfd).map fun r => s.tryWrite r (sockets.written mapfd)

/-- `tick`. The only descriptor that a round can add is that of the accepted connection. -/
def tick (decode : Data → Option Decoded) (sockets : Sockets) (s : NTcpConnInfo) : Option NTcpConnInfo :=
  loop (tickRound decode sockets) (s.myMap.keys.card + 2) none s

def writeTick (sockets : Sockets) (s : NTcpConnInfo) : Option NTcpConnInfo :=
  loop (fun s fd => (s.getCurrent fd).map fun r => s.tryWrite r (sockets.written fd))
    (s.myMap.keys.card + 2) none s

/-! ### The machine -/

inductive Op
  | accept (a : Accepted)
  | createOrGetPersistentConnection (ipName : Data) (port connId : Int)
  | getStatusMsgConn (msg : SipMsg)
  | setStatusMsgConn (msg : SipMsg) (fd : Int)
  | delIdMapEntry (id : SipTransactionId)
  | delConn (fd : Int)
  | tick (sockets : Sockets)
  | writeTick (sockets : Sockets)

/-- One operation on the table: the table after it, if it is defined, and the connection returned. -/
def step (decode : Data → Option Decoded) (s : NTcpConnInfo) : Op → Option NTcpConnInfo × Option Ref
  | .accept a => (some (s.accept a).1, none)
  | .createOrGetPersistentConnection ipName port connId =>
    let result := s.createOrGetPersistentConnection ipName port connId
    (result.map Prod.fst, result.map Prod.snd)
  | .getStatusMsgConn msg => (some s, s.getStatusMsgConn msg)
  | .setStatusMsgConn msg fd => (some (s.setStatusMsgConn msg fd), none)
  | .delIdMapEntry id => (some (s.delIdMapEntry id), none)
  | .delConn fd => (some (s.delConn fd), none)
  | .tick sockets => (s.tick decode sockets, none)
  | .writeTick sockets => (s.writeTick sockets, none)

/-- The table that `SipTcpConnection` starts with: its listening socket has the descriptor `fd`. -/
def listening (fd : Int) (local_ip : Data) : NTcpConnInfo :=
  setConnNPeerIp ⟨[], 0, ∅, fun _ => none, fun _ => none⟩ fd local_ip

end NTcpConnInfo

/-- The table as a machine. After an operation without result nothing is defined. -/
def connInfo (decode : Data → Option Decoded) (fd : Int) (local_ip : Data) :
    Machine (Option NTcpConnInfo) NTcpConnInfo.Op (Option Ref) where
  init := some (.listening fd local_ip)
  step s op :=
    match s with
    | some s => s.step decode op
    | none => (none, none)

end Vocal.Sip
