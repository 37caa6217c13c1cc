import Vocal.Sip.SentRequestDB
import Vocal.Sip.SentResponseDB
import Vocal.Sip.UdpConnection

/-!
# The transceiver

`SipTransceiver` puts the two databases and the transports together. A sent message goes through its
database, which returns a container for the transport; a received one goes from the transport
through the other database to the application. All of them hold the same containers.

The TCP connection only appears as the queue that containers are handed to and as a source of
messages.
-/

namespace Vocal.Sip

open Store (deref Keeps)

def TCP : Data := "TCP".toList

structure SipTransceiver where
  /-- The UDP connection, with the store of all containers. -/
  udpConnection : SipUdpConnection
  tcpSendQ : List Ref
  /-- The tables of the databases. -/
  sentRequestTable : Data → Option SipCallContainer
  sentResponseTable : Data → Option SipCallContainer
  lastPurge : Nat

namespace SipTransceiver

def heap (t : SipTransceiver) : List SipMsgContainer := t.udpConnection.heap

def sentRequestDB (t : SipTransceiver) : SipTransactionDB := ⟨t.heap, t.sentRequestTable⟩

def sentResponseDB (t : SipTransceiver) : SipTransactionDB := ⟨t.heap, t.sentResponseTable⟩

/-- The transceiver after an operation on `sentRequestDB`. -/
def setRequestDB (t : SipTransceiver) (db : SipTransactionDB) : SipTransceiver :=
  { t with
    udpConnection := { t.udpConnection with heap := db.heap }
    sentRequestTable := db.table }

/-- The transceiver after an operation on `sentResponseDB`. -/
def setResponseDB (t : SipTransceiver) (db : SipTransactionDB) : SipTransceiver :=
  { t with
    udpConnection := { t.udpConnection with heap := db.heap }
    sentResponseTable := db.table }

/-- `SipTransceiver::send` of the container `r`; `dest` is what its destination resolves to. -/
def send (t : SipTransceiver) (r : Ref) (dest : Option NetworkAddress) : SipTransceiver :=
  match t.heap[r]? with
  | none => t
  | some c =>
    if isEqualNoCase c.transport TCP ∨ c.transport = "tcp".toList then { t with tcpSendQ := t.tcpSendQ ++ [r] }
    else { t with udpConnection := t.udpConnection.send r dest }

/-- `SipTransceiver::sendAsync`. -/
def sendAsync (t : SipTransceiver) (now : Nat) (sipMessage : SipCommand)
    (dest : Option NetworkAddress) : SipTransceiver :=
  if sipMessage.checkMaxForwards then
    (t.setRequestDB (SipSentRequestDB.processSend now t.sentRequestDB sipMessage)).send t.heap.length
      dest
  else t

/-- `SipTransceiver::sendReply`. -/
def sendReply (ctx : SipAppContext) (t : SipTransceiver) (sipMessage : StatusMsg)
    (dest : Option NetworkAddress) : SipTransceiver :=
  (t.setResponseDB (SipSentResponseDB.processSend ctx t.sentResponseDB sipMessage)).send t.heap.length
    dest

def setCallPurgeTimer (t : SipTransceiver) (forCall : SipTransactionId) (expire_at_ms : Nat) :
    SipTransceiver :=
  { t with
    sentRequestTable := (t.sentRequestDB.setCallPurgeTimer forCall expire_at_ms).table
    sentResponseTable := (t.sentResponseDB.setCallPurgeTimer forCall expire_at_ms).table }

/-- `SipTransceiver::tick`: the transports, and every five seconds the purge. -/
def tick (t : SipTransceiver) (arrived : Option SipMsg) (now : Nat) (rounds : Nat → Round) :
    SipTransceiver :=
  let t := { t with udpConnection := t.udpConnection.tick arrived now rounds }
  if t.lastPurge + 5000 < now then
    { t with
      sentRequestTable := (t.sentRequestDB.purgeOldCalls now).table
      sentResponseTable := (t.sentResponseDB.purgeOldCalls now).table
      lastPurge := now }
  else t

/-- The message that `receiveNB` takes: from UDP first, and if nothing is there, from TCP. -/
def nextMessage (t : SipTransceiver) (tcp : Option SipMsg) : Option SipMsg :=
  t.udpConnection.rcvFifo.head? <|> tcp

/-- `SipTransceiver::receiveNB`; `tcp` is the message that the TCP connection has, if any. -/
def receiveNB (ctx : SipAppContext) (t : SipTransceiver) (tcp : Option SipMsg) (tag : Data) :
    SipTransceiver × Option SipMsgQueue :=
  let msg := t.nextMessage tcp
  let t := { t with
    udpConnection := { t.udpConnection with rcvFifo := t.udpConnection.rcvFifo.tail } }
  match msg with
  | none => (t, none)
  | some (.status response) =>
    let (db, msgQ) := SipSentRequestDB.recv ctx t.sentRequestDB response
    (t.setRequestDB db, msgQ)
  | some (.command command) =>
    let (db, msgQ) := SipSentResponseDB.recv ctx t.sentResponseDB tag command
    (t.setResponseDB db, msgQ)

inductive Op
  | sendAsync (now : Nat) (sipMessage : SipCommand) (dest : Option NetworkAddress)
  | sendReply (sipMessage : StatusMsg) (dest : Option NetworkAddress)
  | setCallPurgeTimer (forCall : SipTransactionId) (expire_at_ms : Nat)
  | tick (arrived : Option SipMsg) (now : Nat) (rounds : Nat → Round)
  | receiveNB (tcp : Option SipMsg) (tag : Data)

def step (ctx : SipAppContext) (t : SipTransceiver) : Op → SipTransceiver × Option SipMsgQueue
  | .sendAsync now sipMessage dest => (t.sendAsync now sipMessage dest, none)
  | .sendReply sipMessage dest => (t.sendReply ctx sipMessage dest, none)
  | .setCallPurgeTimer forCall expire_at_ms => (t.setCallPurgeTimer forCall expire_at_ms, none)
  | .tick arrived now rounds => (t.tick arrived now rounds, none)
  | .receiveNB tcp tag => t.receiveNB ctx tcp tag

def empty : SipTransceiver := ⟨.empty, [], fun _ => none, fun _ => none, 0⟩

end SipTransceiver

/-- The transceiver as a machine. -/
def transceiver (ctx : SipAppContext) :
    Machine SipTransceiver SipTransceiver.Op (Option SipMsgQueue) where
  init := .empty
  step := SipTransceiver.step ctx

/-! ### The databases only stop retransmissions -/

namespace SipSentResponseDB

theorem processSend_stops (ctx : SipAppContext) (db : SipTransactionDB) (response : StatusMsg) :
    Stops db.heap (processSend ctx db response).heap := by
  obtain ⟨n, hheap⟩ := processSend_heap ctx db response
  rw [hheap]
  exact Store.Evolves.append Stopped.refl _ _

theorem openCall_heap (db : SipTransactionDB) (msg : SipCommand) : (openCall db msg).heap = db.heap := by
  unfold openCall
  split
  · rfl
  · split <;> rfl

theorem deliver_stops (db : SipTransactionDB) (call : SipCallContainer) (msg : SipCommand) :
    Stops db.heap (deliver db call msg).1.heap := by
  obtain ⟨_, _, hheap | ⟨r, hheap⟩⟩ := deliver_spec db call msg
  · rw [hheap]; exact Store.Evolves.refl Stopped.refl _
  · rw [hheap]; exact Stops.setRetransmitMax _ r

theorem recvFirst_stops (ctx : SipAppContext) (tag : Data) {heap : List SipMsgContainer}
    {db : SipTransactionDB} (hheap : Stops heap db.heap) (k : Data) (call : SipCallContainer)
    (mp : Option Nat) {r : Ref} (hr : heap.length ≤ r) (msg : SipCommand) :
    Stops heap (recvFirst ctx tag db k call mp r msg).1.heap := by
  have hup : ∀ call', Stops heap (deliver (db.setCall k call') call' msg).1.heap := fun call' =>
    Store.Evolves.trans Stopped.trans hheap (deliver_stops (db.setCall k call') call' msg)
  have hreject : ∀ call', Stops heap (reject ctx tag (db.setCall k call') r msg).heap := by
    intro call'
    unfold reject
    refine Store.Evolves.trans Stopped.trans ?_ (processSend_stops ctx _ _)
    exact Store.Evolves.modify_fresh hheap hr
  unfold recvFirst
  dsimp only
  split
  swap
  · exact hup _
  split
  · generalize (if mp.isNone = true then call.addMsgPair ⟨some r, none⟩ else call) = call'
    split
    · split
      · exact hup _
      · exact hreject _
    · exact hup _
  · split
    · exact hup _
    · exact hup _

theorem recvDuplicate_stops {heap : List SipMsgContainer} {db : SipTransactionDB}
    (hheap : Stops heap db.heap) (k : Data) (call : SipCallContainer) (i : Nat) {r : Ref}
    (hr : heap.length ≤ r) : Stops heap (recvDuplicate db k call i r).heap := by
  unfold recvDuplicate
  split
  · exact Store.Evolves.modify_fresh
      (Store.Evolves.trans Stopped.trans hheap (Stops.setRetransmitMax _ _)) hr
  · exact Store.Evolves.modify_fresh hheap hr

theorem recv_stops (ctx : SipAppContext) (db : SipTransactionDB) (tag : Data) (msg : SipCommand) :
    Stops db.heap (recv ctx db tag msg).1.heap := by
  have hheap : Stops db.heap (openCall (db.newContainer (requestContainer msg)) msg).heap := by
    rw [openCall_heap]
    exact Store.Evolves.append Stopped.refl _ _
  unfold recv processRecv
  dsimp only
  split
  · exact hheap
  · split
    · split
      · exact recvDuplicate_stops hheap _ _ _ (Nat.le_refl _)
      · exact recvFirst_stops ctx tag hheap _ _ _ (Nat.le_refl _) msg
    · exact recvFirst_stops ctx tag hheap _ _ _ (Nat.le_refl _) msg

end SipSentResponseDB

end Vocal.Sip
