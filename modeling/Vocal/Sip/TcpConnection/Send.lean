import Vocal.Sip.TcpConnection.ConnInfo

/-!
# Sending over TCP

`prepareEvent` looks for the connection of a message, puts its text into the buffer of the connection and returns.
With persistent connections the line that follows asserts that the message was a response: every request that has
an address ends there, after its connection was made. A response is written to the connection its transaction is
recorded with, which may be missing or closed by then. `prepareEvent_settled_iff` says which messages get through.

Where the source fails an assertion or follows a null pointer there is no result.
-/

namespace Vocal.Sip

/-- `SipTcpConnection`, as far as it sends. -/
structure SipTcpConnection where
  /-- The containers of the whole stack. -/
  heap : List SipMsgContainer
  sendQ : List Ref
  tcpConnInfo : NTcpConnInfo
  /-- The messages whose text was put into the buffer of each connection, the oldest first. The buffer grows as
  needed, and what the socket takes of it does not show in what `prepareEvent` does. -/
  written : Ref → List SipMsg

/-- What the network gives for the address of a request: its name, and the descriptor of the new connection or
-1. -/
structure Connecting where
  ipName : Data
  connId : Int

/-- What `prepareEvent` finds for a message: a value to return at once, or the connection to use, null if there is
none, with the table after the search. -/
inductive Chosen
  | failed (rv : Int)
  | conn (tcpConnInfo : NTcpConnInfo) (conn : Option Ref)

def EINVAL : Int := 22

namespace SipTcpConnection

/-- The first half of `prepareEvent`. -/
def chooseConn (t : SipTcpConnection) (c : SipMsgContainer) (msg : SipMsg) (net : Connecting) : Option Chosen :=
  if msg.getType = .SIP_STATUS then some (.conn t.tcpConnInfo (t.tcpConnInfo.getStatusMsgConn msg))
  else
    match c.netAddr with
    | none => some (.failed (-EINVAL))
    | some na =>
      (t.tcpConnInfo.createOrGetPersistentConnection net.ipName na.port net.connId).map fun x =>
        .conn x.1 (some x.2)

/-- `cacheEncode` of a container. -/
def cacheEncode (t : SipTcpConnection) (sipMsg : Ref) : SipTcpConnection :=
  { t with heap := t.heap.modify sipMsg fun c => { c with inEncode := c.msgIn } }

/-- `NTcpStuff::writeData` of the text of a message; what the writes return is not looked at. -/
def writeData (t : SipTcpConnection) (conn : Ref) (msg : SipMsg) : SipTcpConnection :=
  { t with written := Function.update t.written conn (t.written conn ++ [msg]) }

/-- The lines after the write, with `USE_PERSISTENT_TCP`. -/
def afterWrite (t : SipTcpConnection) (msg : SipMsg) : Option SipTcpConnection :=
  -- assert(type == SIP_STATUS)
  if msg.getType ≠ .SIP_STATUS then none
  else
    match msg with
    | .status statusMsg =>
      if 200 ≤ statusMsg.statusCode then
        some { t with tcpConnInfo := t.tcpConnInfo.delIdMapEntry (.ofMsg msg) }
      else some t
    | .command _ => some t

/-- The second half of `prepareEvent`. -/
def transmit (t : SipTcpConnection) (sipMsg : Ref) (msg : SipMsg) : Chosen → Option (SipTcpConnection × Int)
  | .failed rv => some (t, rv)
  | .conn _ none => none
  | .conn tcpConnInfo (some conn) =>
    (afterWrite ((({ t with tcpConnInfo := tcpConnInfo }).cacheEncode sipMsg).writeData conn msg) msg).map (·, 0)

/-- `SipTcpConnection::prepareEvent`. -/
def prepareEvent (t : SipTcpConnection) (sipMsg : Ref) (net : Connecting) : Option (SipTcpConnection × Int) :=
  (t.heap[sipMsg]?).bind fun c => c.msgIn.bind fun msg => (t.chooseConn c msg net).bind (t.transmit sipMsg msg)

/-- The loop of `tick` over the queue; a container without a message is given up. -/
def sendLoop (net : Ref → Connecting) : List Ref → SipTcpConnection → Option SipTcpConnection
  | [], t => some t
  | r :: q, t =>
    if (t.heap[r]?).bind (·.msgIn) = none then sendLoop net q { t with sendQ := q }
    else (t.prepareEvent r (net r)).bind fun x => sendLoop net q { x.1 with sendQ := q }

/-- `SipTcpConnection::tick`. -/
def tick (decode : Data → Option Decoded) (sockets : Sockets) (net : Ref → Connecting) (t : SipTcpConnection) :
    Option SipTcpConnection :=
  (t.tcpConnInfo.tick decode sockets).bind fun info =>
    (sendLoop net t.sendQ { t with tcpConnInfo := info }).bind fun t =>
      (t.tcpConnInfo.writeTick sockets).map fun info => { t with tcpConnInfo := info }

/-! ### What is promised -/

/-- The message is put into the buffer of a live connection, and nothing else is. -/
def Queues (t t' : SipTcpConnection) (msg : SipMsg) : Prop :=
  ∃ conn, t'.tcpConnInfo.isLive conn ∧
    t'.written = Function.update t.written conn (t.written conn ++ [msg])

/-- The message is queued on a live connection and 0 returned, or everything stays and a negative value is
returned. -/
def Settled (t : SipTcpConnection) (msg : SipMsg) (out : Option (SipTcpConnection × Int)) : Prop :=
  ∃ t' rv, out = some (t', rv) ∧ (rv = 0 ∧ Queues t t' msg ∨ rv < 0 ∧ t' = t)

/-- A response is recorded with a live connection, a request has no address. -/
def Sendable (t : SipTcpConnection) (c : SipMsgContainer) (msg : SipMsg) : Prop :=
  if msg.getType = .SIP_STATUS then
    ∃ conn, t.tcpConnInfo.getStatusMsgConn msg = some conn ∧ t.tcpConnInfo.isLive conn
  else c.netAddr = none

variable {t t' : SipTcpConnection} {sipMsg : Ref} {c : SipMsgContainer} {msg : SipMsg} {rv : Int}

/-! ### One message -/

theorem prepareEvent_eq (net : Connecting) (hc : t.heap[sipMsg]? = some c) (hmsg : c.msgIn = some msg) :
    t.prepareEvent sipMsg net = (t.chooseConn c msg net).bind (t.transmit sipMsg msg) := by
  unfold prepareEvent
  rw [hc, Option.bind_some, hmsg, Option.bind_some]

theorem prepareEvent_request {na : NetworkAddress} (net : Connecting) (hc : t.heap[sipMsg]? = some c)
    (hmsg : c.msgIn = some msg) (htype : msg.getType ≠ .SIP_STATUS) (hna : c.netAddr = some na) :
    t.prepareEvent sipMsg net = none := by
  have hchoose : t.chooseConn c msg net =
      (t.tcpConnInfo.createOrGetPersistentConnection net.ipName na.port net.connId).map fun x =>
        .conn x.1 (some x.2) := by
    unfold chooseConn
    rw [if_neg htype, hna]
  rw [prepareEvent_eq net hc hmsg, hchoose]
  cases t.tcpConnInfo.createOrGetPersistentConnection net.ipName na.port net.connId with
  | none => rfl
  | some x =>
    show (afterWrite _ msg).map _ = none
    unfold afterWrite
    rw [if_pos htype]
    rfl

theorem prepareEvent_no_address (net : Connecting) (hc : t.heap[sipMsg]? = some c) (hmsg : c.msgIn = some msg)
    (htype : msg.getType ≠ .SIP_STATUS) (hna : c.netAddr = none) :
    t.prepareEvent sipMsg net = some (t, -EINVAL) := by
  have hchoose : t.chooseConn c msg net = some (.failed (-EINVAL)) := by
    unfold chooseConn
    rw [if_neg htype, hna]
  rw [prepareEvent_eq net hc hmsg, hchoose]
  rfl

theorem chooseConn_status (c : SipMsgContainer) (net : Connecting) (htype : msg.getType = .SIP_STATUS) :
    t.chooseConn c msg net = some (.conn t.tcpConnInfo (t.tcpConnInfo.getStatusMsgConn msg)) := by
  unfold chooseConn
  rw [if_pos htype]

theorem prepareEvent_no_conn (net : Connecting) (hc : t.heap[sipMsg]? = some c) (hmsg : c.msgIn = some msg)
    (htype : msg.getType = .SIP_STATUS) (hconn : t.tcpConnInfo.getStatusMsgConn msg = none) :
    t.prepareEvent sipMsg net = none := by
  rw [prepareEvent_eq net hc hmsg, chooseConn_status c net htype, hconn]
  rfl

theorem prepareEvent_status {conn : Ref} (net : Connecting) (hc : t.heap[sipMsg]? = some c)
    (hmsg : c.msgIn = some msg) (htype : msg.getType = .SIP_STATUS)
    (hconn : t.tcpConnInfo.getStatusMsgConn msg = some conn) :
    ∃ t', t.prepareEvent sipMsg net = some (t', 0) ∧ t'.heap = (t.cacheEncode sipMsg).heap ∧
      t'.tcpConnInfo.conns = t.tcpConnInfo.conns ∧
      t'.written = Function.update t.written conn (t.written conn ++ [msg]) := by
  have hafter : ∃ t', afterWrite ((t.cacheEncode sipMsg).writeData conn msg) msg = some t' ∧
      t'.heap = (t.cacheEncode sipMsg).heap ∧ t'.tcpConnInfo.conns = t.tcpConnInfo.conns ∧
      t'.written = Function.update t.written conn (t.written conn ++ [msg]) := by
    unfold afterWrite
    rw [if_neg (not_not.mpr htype)]
    cases msg with
    | command m => exact ⟨_, rfl, rfl, rfl, rfl⟩
    | status statusMsg =>
      by_cases hcode : 200 ≤ statusMsg.statusCode
      · simp only [if_pos hcode]
        exact ⟨_, rfl, rfl, rfl, rfl⟩
      · simp only [if_neg hcode]
        exact ⟨_, rfl, rfl, rfl, rfl⟩
  obtain ⟨t', ht', hkeeps⟩ := hafter
  refine ⟨t', ?_, hkeeps⟩
  rw [prepareEvent_eq net hc hmsg, chooseConn_status c net htype, hconn]
  show (afterWrite ((t.cacheEncode sipMsg).writeData conn msg) msg).map _ = _
  rw [ht']
  rfl

theorem isLive_congr_conns {s s' : NTcpConnInfo} (h : s'.conns = s.conns) (conn : Ref) :
    s'.isLive conn ↔ s.isLive conn := by
  unfold NTcpConnInfo.isLive NTcpConnInfo.getConnId
  rw [h]

theorem update_concat_inj {f : Ref → List SipMsg} {conn conn' : Ref}
    (h : Function.update f conn (f conn ++ [msg]) = Function.update f conn' (f conn' ++ [msg])) : conn = conn' := by
  by_contra hne
  have hat := congrFun h conn
  rw [Function.update_self, Function.update_of_ne hne] at hat
  simp at hat

/-- **Sending.** For every table, every message and whatever the network answers: the message is queued on a live
connection, or everything stays and an error is returned, exactly if it is a response that is recorded with a live
connection, or a request without an address. -/
theorem prepareEvent_settled_iff (t : SipTcpConnection) (sipMsg : Ref) (c : SipMsgContainer) (msg : SipMsg)
    (net : Connecting) (hc : t.heap[sipMsg]? = some c) (hmsg : c.msgIn = some msg) :
    Settled t msg (t.prepareEvent sipMsg net) ↔ Sendable t c msg := by
  unfold Sendable
  by_cases htype : msg.getType = .SIP_STATUS
  · rw [if_pos htype]
    cases hconn : t.tcpConnInfo.getStatusMsgConn msg with
    | none =>
      rw [prepareEvent_no_conn net hc hmsg htype hconn]
      constructor
      · rintro ⟨t', rv, hout, -⟩
        cases hout
      · rintro ⟨conn, hnone, -⟩
        cases hnone
    | some conn =>
      obtain ⟨t', hout, -, hconns, hwritten⟩ := prepareEvent_status net hc hmsg htype hconn
      rw [hout]
      constructor
      · rintro ⟨t'', rv, heq, hsettled⟩
        obtain ⟨rfl, rfl⟩ := Prod.mk.inj (Option.some.inj heq)
        rcases hsettled with ⟨-, conn', hlive, hwritten'⟩ | ⟨hneg, -⟩
        · obtain rfl := update_concat_inj (hwritten.symm.trans hwritten')
          exact ⟨conn, rfl, (isLive_congr_conns hconns conn).mp hlive⟩
        · exact absurd hneg (lt_irrefl 0)
      · rintro ⟨conn', heq, hlive⟩
        obtain rfl := Option.some.inj heq
        exact ⟨t', 0, rfl, Or.inl ⟨rfl, conn, (isLive_congr_conns hconns conn).mpr hlive, hwritten⟩⟩
  · rw [if_neg htype]
    cases hna : c.netAddr with
    | none =>
      rw [prepareEvent_no_address net hc hmsg htype hna]
      exact ⟨fun _ => rfl, fun _ => ⟨t, -EINVAL, rfl, Or.inr ⟨by decide, rfl⟩⟩⟩
    | some na =>
      rw [prepareEvent_request net hc hmsg htype hna]
      constructor
      · rintro ⟨t', rv, hout, -⟩
        cases hout
      · intro hnone
        cases hnone

/-- A response to an INVITE, in a table whose first connection is recorded for every transaction. -/
def answering : SipTcpConnection where
  heap := [.received (.status (.ofCommand [] (inviteFrom "h".toList "1".toList) 200))]
  sendQ := [0]
  tcpConnInfo := ⟨[⟨7, [], "h".toList⟩], 0, ∅, fun _ => some 0, fun _ => none⟩
  written := fun _ => []

theorem prepareEvent_settled_answer :
    Settled answering (.status (.ofCommand [] (inviteFrom "h".toList "1".toList) 200))
      (answering.prepareEvent 0 ⟨[], -1⟩) := by
  refine (prepareEvent_settled_iff answering 0 _ _ ⟨[], -1⟩ rfl rfl).mpr ?_
  exact ⟨0, rfl, by decide⟩

/-- An INVITE with an address, in the table that a connection starts with. -/
def calling : SipTcpConnection where
  heap := [{ SipMsgContainer.received (.command (inviteFrom "h".toList "1".toList)) with
    netAddr := some ⟨16909060, 5060⟩ }]
  sendQ := [0]
  tcpConnInfo := .listening 3 "h".toList
  written := fun _ => []

/-- The assertion after the write fails for an INVITE. -/
theorem request_fails_assertion :
    ¬ Settled calling (.command (inviteFrom "h".toList "1".toList))
      (calling.prepareEvent 0 ⟨"1.2.3.4".toList, 5⟩) := by
  rw [prepareEvent_request ⟨"1.2.3.4".toList, 5⟩ rfl rfl (by decide) rfl]
  rintro ⟨t', rv, hout, -⟩
  cases hout

/-! ### The queue -/

theorem prepareEvent_keeps {net : Connecting} (h : t.prepareEvent sipMsg net = some (t', rv)) :
    (∀ (r : Ref) (c : SipMsgContainer), t.heap[r]? = some c →
      ∃ c' : SipMsgContainer, t'.heap[r]? = some c' ∧ c'.msgIn = c.msgIn ∧ c'.netAddr = c.netAddr) ∧
      ∀ conn, t.written conn <+: t'.written conn := by
  obtain ⟨c, hc, h'⟩ := Option.bind_eq_some_iff.mp h
  obtain ⟨msg, hmsg, -⟩ := Option.bind_eq_some_iff.mp h'
  by_cases htype : msg.getType = .SIP_STATUS
  · cases hconn : t.tcpConnInfo.getStatusMsgConn msg with
    | none =>
      rw [prepareEvent_no_conn net hc hmsg htype hconn] at h
      cases h
    | some conn =>
      obtain ⟨t'', hout, hheap, -, hwritten⟩ := prepareEvent_status net hc hmsg htype hconn
      rw [hout] at h
      obtain ⟨rfl, -⟩ := Prod.mk.inj (Option.some.inj h)
      refine ⟨?_, ?_⟩
      · intro r c hr
        rw [hheap]
        unfold cacheEncode
        by_cases heq : sipMsg = r
        · subst heq
          exact ⟨{ c with inEncode := c.msgIn }, by simp [hr], rfl, rfl⟩
        · exact ⟨c, by simp [hr, heq], rfl, rfl⟩
      · intro conn'
        rw [hwritten]
        by_cases heq : conn' = conn
        · subst heq
          rw [Function.update_self]
          exact List.prefix_append ..
        · rw [Function.update_of_ne heq]
  · cases hna : c.netAddr with
    | some na =>
      rw [prepareEvent_request net hc hmsg htype hna] at h
      cases h
    | none =>
      rw [prepareEvent_no_address net hc hmsg htype hna] at h
      obtain ⟨rfl, -⟩ := Prod.mk.inj (Option.some.inj h)
      exact ⟨fun r c hr => ⟨c, hr, rfl, rfl⟩, fun _ => List.prefix_rfl⟩

/-- The loop gets through the queue only if no request in it has an address, and then nothing that was written is
lost. -/
theorem sendLoop_keeps {net : Ref → Connecting} {q : List Ref} (h : sendLoop net q t = some t') :
    (∀ r ∈ q, ∀ c msg, t.heap[r]? = some c → c.msgIn = some msg → msg.getType ≠ .SIP_STATUS → c.netAddr = none) ∧
      ∀ conn, t.written conn <+: t'.written conn := by
  induction q generalizing t with
  | nil =>
    obtain rfl := Option.some.inj h
    exact ⟨fun r hr => absurd hr List.not_mem_nil, fun _ => List.prefix_rfl⟩
  | cons r q ih =>
    unfold sendLoop at h
    by_cases hnull : (t.heap[r]?).bind (·.msgIn) = none
    · rw [if_pos hnull] at h
      obtain ⟨hrequests, hwritten⟩ := ih h
      refine ⟨?_, hwritten⟩
      intro r' hr' c msg hc hmsg
      rcases List.mem_cons.mp hr' with rfl | hr'
      · rw [hc, Option.bind_some, hmsg] at hnull
        cases hnull
      · exact hrequests r' hr' c msg hc hmsg
    · rw [if_neg hnull] at h
      obtain ⟨x, hx, h⟩ := Option.bind_eq_some_iff.mp h
      obtain ⟨hheap, hgrown⟩ := prepareEvent_keeps hx
      obtain ⟨hrequests, hwritten⟩ := ih h
      refine ⟨?_, fun conn => (hgrown conn).trans (hwritten conn)⟩
      intro r' hr' c msg hc hmsg htype
      rcases List.mem_cons.mp hr' with rfl | hr'
      · -- a request with an address does not come back
        cases hna : c.netAddr with
        | none => rfl
        | some na =>
          rw [prepareEvent_request (net r') hc hmsg htype hna] at hx
          cases hx
      · obtain ⟨c', hc', hmsg', hna'⟩ := hheap r' c hc
        rw [← hna']
        exact hrequests r' hr' c' msg hc' (hmsg'.trans hmsg) htype

theorem tick_requests {decode : Data → Option Decoded} {sockets : Sockets} {net : Ref → Connecting}
    (h : t.tick decode sockets net = some t') :
    (∀ r ∈ t.sendQ, ∀ c msg, t.heap[r]? = some c → c.msgIn = some msg → msg.getType ≠ .SIP_STATUS →
      c.netAddr = none) ∧ ∀ conn, t.written conn <+: t'.written conn := by
  obtain ⟨info, -, h⟩ := Option.bind_eq_some_iff.mp h
  obtain ⟨t'', hloop, h⟩ := Option.bind_eq_some_iff.mp h
  obtain ⟨info', -, rfl⟩ := Option.map_eq_some_iff.mp h
  obtain ⟨hrequests, hwritten⟩ := sendLoop_keeps hloop
  exact ⟨hrequests, hwritten⟩

end SipTcpConnection

end Vocal.Sip
