import Mathlib.Algebra.Order.BigOperators.Group.List
import Mathlib.Algebra.Order.Ring.Nat
import Vocal.Lib.Machine
import Vocal.Sip.Container

/-!
# The UDP connection

`SipUdpConnection` keeps the containers to be sent in a heap ordered by `nextTx`. `tick` sends those
that are due, counts the transmission and queues the container again while its maximum is not
reached. The databases hold the same containers by reference and lower the maximum in between.

`udpConnection` is the connection as a machine over the store of containers: containers are
allocated, handed to `send`, their maximum is changed, and the connection ticks.
-/

namespace Vocal.Sip

def retransmitTimeInitial : Int := 500

def retransmitTimeMax : Int := 4000

/-! ### The errors `tick` tells apart -/

def ECONNREFUSED : Int := 111

def EHOSTDOWN : Int := 112

def EHOSTUNREACH : Int := 113

def EAGAIN : Int := 11

def EINTR : Int := 4

/-- A datagram that the socket took. -/
structure Transmission where
  container : Ref
  /-- The message that was encoded in it. -/
  encoded : Option SipMsg
  /-- The time it was scheduled for, and the time it was sent at. -/
  nextTx : Nat
  now : Nat
  deriving DecidableEq, Repr

/-- What the environment answers in one round of the send loop. -/
structure Round where
  /-- Which of the containers with the least time is on top of the heap. -/
  tie : Nat
  random : Nat
  /-- The result of `udpSend`: the bytes written, or `-errno`. -/
  status : Int
  /-- The random To tags of the responses generated in the round. -/
  statusToTag : Data × Data

structure SipUdpConnection where
  /-- The containers of the whole stack. -/
  heap : List SipMsgContainer
  sendQ : List Ref
  /-- A received container holds its message and the message's id, and nobody else holds it yet. -/
  rcvFifo : List SipMsg
  randomLosePercent : Int
  /-- The datagrams sent so far, the oldest first. -/
  wire : List Transmission

namespace SipUdpConnection

def nextTxOf (u : SipUdpConnection) (r : Ref) : Nat := ((u.heap[r]?).map (·.nextTx)).getD 0

/-- `sendQ.top()`: one of the containers with the least `nextTx`. -/
def top (u : SipUdpConnection) (tie : Nat) : Option Ref :=
  let least := u.sendQ.filter fun r => u.sendQ.all fun r' => u.nextTxOf r ≤ u.nextTxOf r'
  least[tie % least.length]?

/-- What `tick` makes of the result of `udpSend`: nothing if it should try again later, 0 for a
success, else the status code of the failure. -/
def retStatus (status : Int) : Option Int :=
  if status < 0 then
    if status = -ECONNREFUSED then some 403
    else if status = -EHOSTDOWN then some 408
    else if status = -EHOSTUNREACH then some 404
    else if status = -EAGAIN ∨ status = -EINTR then none
    else some 400
  else if status = 0 then none
  else some 0

/-- The error response that is put into the stack as if it was received. -/
def failureReport (tag : Data) (c : SipMsgContainer) (code : Int) : List SipMsg :=
  match c.inEncode with
  | some (.command cmd) => [.status (.ofCommand tag cmd code)]
  | _ => []

/-- The container after a transmission: counted, and scheduled again if its maximum is not reached. -/
def counted (now : Nat) (c : SipMsgContainer) : SipMsgContainer :=
  let c := { c with retransSoFar := c.retransSoFar + 1 }
  if c.retransSoFar < c.retransCount then
    let wait :=
      if c.wait_period = 0 then retransmitTimeInitial
      else if c.wait_period < retransmitTimeMax then c.wait_period * 2
      else c.wait_period
    { c with wait_period := wait, nextTx := ((now + wait) % 2 ^ 64).toNat }
  else c

@[simp] theorem counted_retransSoFar (now : Nat) (c : SipMsgContainer) :
    (counted now c).retransSoFar = c.retransSoFar + 1 := by
  simp only [counted]
  split <;> rfl

@[simp] theorem counted_retransCount (now : Nat) (c : SipMsgContainer) :
    (counted now c).retransCount = c.retransCount := by
  simp only [counted]
  split <;> rfl

@[simp] theorem counted_inEncode (now : Nat) (c : SipMsgContainer) :
    (counted now c).inEncode = c.inEncode := by
  simp only [counted]
  split <;> rfl

@[simp] theorem counted_msgIn (now : Nat) (c : SipMsgContainer) :
    (counted now c).msgIn = c.msgIn := by
  simp only [counted]
  split <;> rfl

@[simp] theorem counted_trans_id (now : Nat) (c : SipMsgContainer) :
    (counted now c).trans_id = c.trans_id := by
  simp only [counted]
  split <;> rfl

/-- The rest of a round, after the transmission ended with `code`. -/
def afterSend (now : Nat) (rd : Round) (r : Ref) (c : SipMsgContainer) (code : Int)
    (u : SipUdpConnection) : SipUdpConnection :=
  let u := { u with heap := u.heap.modify r (counted now) }
  if c.retransSoFar + 1 < c.retransCount then { u with sendQ := u.sendQ ++ [r] }
  else if code ≠ 0 ∧ c.msgIn.any (fun m => m.getType ≠ .SIP_ACK ∧ m.getType ≠ .SIP_STATUS) then
    -- no more retransmits, and status was a failure
    { u with rcvFifo := u.rcvFifo ++ failureReport rd.statusToTag.2 c code }
  else u

/-- A round for the container `c` that was popped; the loop goes on unless the result is `false`. -/
def sendRound (now : Nat) (rd : Round) (r : Ref) (c : SipMsgContainer) (u : SipUdpConnection) :
    SipUdpConnection × Bool :=
  if c.retransSoFar < c.retransCount then
    if u.randomLosePercent = 0 ∨ u.randomLosePercent ≤ (rd.random % 100 : Nat) then
      match retStatus rd.status with
      | none => ({ u with sendQ := u.sendQ ++ [r] }, false)
      | some code =>
        let u :=
          if code = 0 then { u with wire := u.wire ++ [⟨r, c.inEncode, c.nextTx, now⟩] } else u
        let u :=
          if code ≠ 0 ∧ c.msgIn.any (fun m => m.getType ≠ .SIP_STATUS) then
            { u with rcvFifo := u.rcvFifo ++ failureReport rd.statusToTag.1 c code }
          else u
        (afterSend now rd r c code u, true)
    else (afterSend now rd r c 0 u, true)
  else (u, true)

/-- The send loop of `tick`. -/
def sendLoop (now : Nat) (rounds : Nat → Round) : Nat → Nat → SipUdpConnection → SipUdpConnection
  | 0, _, u => u
  | fuel + 1, i, u =>
    match (u.top (rounds i).tie).bind fun r => (u.heap[r]?).map (r, ·) with
    | none => u
    | some (r, c) =>
      if now < c.nextTx then u
      else
        match sendRound now (rounds i) r c { u with sendQ := u.sendQ.erase r } with
        | (u', true) => sendLoop now rounds fuel (i + 1) u'
        | (u', false) => u'

/-- The transmissions a container has left. -/
def left (u : SipUdpConnection) (r : Ref) : Nat :=
  ((u.heap[r]?).map fun c => (c.retransCount - c.retransSoFar).toNat).getD 0

/-- The rounds that the send loop can make at most. -/
def work (u : SipUdpConnection) : Nat := (u.sendQ.map fun r => u.left r + 1).sum

/-- `SipUdpConnection::tick`, with the message read from the socket, if any. -/
def tick (u : SipUdpConnection) (arrived : Option SipMsg) (now : Nat) (rounds : Nat → Round) :
    SipUdpConnection :=
  let u := { u with rcvFifo := u.rcvFifo ++ arrived.toList }
  sendLoop now rounds u.work 0 u

/-- `SipUdpConnection::send` of the container `r`. `dest` is what the destination resolves to; if it
does not, the container is not queued. -/
def send (u : SipUdpConnection) (r : Ref) (dest : Option NetworkAddress) : SipUdpConnection :=
  match u.heap[r]? with
  | none => u
  | some c =>
    let push (c : SipMsgContainer) : SipUdpConnection :=
      { u with
        heap := u.heap.modify r fun _ => { c with retransSoFar := 0 }
        sendQ := u.sendQ ++ [r] }
    if c.inEncode = none then
      let c := { c with inEncode := c.msgIn }
      if c.netAddr = none then
        match dest with
        | none => { u with heap := u.heap.modify r fun _ => c }
        | some na => push { c with netAddr := some na }
      else push c
    else push c

/-- The operations on the connection and on the containers it shares. -/
inductive Op
  | newContainer (c : SipMsgContainer)
  | setRetransmitMax (r : Ref) (i : Int)
  | send (r : Ref) (dest : Option NetworkAddress)
  | getNextMessage
  | setRandomLosePercent (percent : Int)
  | tick (arrived : Option SipMsg) (now : Nat) (rounds : Nat → Round)

def step (u : SipUdpConnection) : Op → SipUdpConnection × Option SipMsg
  | .newContainer c => ({ u with heap := u.heap ++ [c] }, none)
  | .setRetransmitMax r i => ({ u with heap := u.heap.modify r (.setRetransmitMax i) }, none)
  | .send r dest => (u.send r dest, none)
  | .getNextMessage => ({ u with rcvFifo := u.rcvFifo.tail }, u.rcvFifo.head?)
  | .setRandomLosePercent percent =>
    (if 0 ≤ percent ∧ percent ≤ 100 then { u with randomLosePercent := percent } else u, none)
  | .tick arrived now rounds => (u.tick arrived now rounds, none)

def empty : SipUdpConnection := ⟨[], [], [], 0, []⟩

/-! ### What a round does -/

/-- What a round of the send loop can do with the container `c` at `r`, and whether the loop goes
on. -/
inductive Rounded (now : Nat) (u : SipUdpConnection) (r : Ref) (c : SipMsgContainer) :
    SipUdpConnection × Bool → Prop
  /-- The maximum is reached: the container leaves the queue. -/
  | dropped (hdone : c.retransCount ≤ c.retransSoFar) :
      Rounded now u r c ({ u with sendQ := u.sendQ.erase r }, true)
  /-- The socket asks to try again. -/
  | again : Rounded now u r c ({ u with sendQ := u.sendQ.erase r ++ [r] }, false)
  /-- The transmission is counted; the datagram may be lost or refused. -/
  | attempted (u' : SipUdpConnection) (hleft : c.retransSoFar < c.retransCount)
      (hheap : u'.heap = u.heap.modify r (counted now))
      (hwire : u'.wire = u.wire ∨ u'.wire = u.wire ++ [⟨r, c.inEncode, c.nextTx, now⟩])
      (hsendQ : u'.sendQ = if c.retransSoFar + 1 < c.retransCount then u.sendQ.erase r ++ [r]
        else u.sendQ.erase r) :
      Rounded now u r c (u', true)

variable {u : SipUdpConnection} {now : Nat} {rd : Round} {r : Ref} {c : SipMsgContainer}

theorem afterSend_attempted {u₁ : SipUdpConnection} {code : Int}
    (hleft : c.retransSoFar < c.retransCount) (hheap : u₁.heap = u.heap)
    (hwire : u₁.wire = u.wire ∨ u₁.wire = u.wire ++ [⟨r, c.inEncode, c.nextTx, now⟩])
    (hsendQ : u₁.sendQ = u.sendQ.erase r) :
    Rounded now u r c (afterSend now rd r c code u₁, true) := by
  refine .attempted _ hleft ?_ ?_ ?_
  · unfold afterSend
    split
    · exact congrArg _ hheap
    · split <;> exact congrArg _ hheap
  · unfold afterSend
    split
    · exact hwire
    · split <;> exact hwire
  · unfold afterSend
    split
    · exact congrArg (· ++ [r]) hsendQ
    · split <;> exact hsendQ

theorem sendRound_rounded (now : Nat) (rd : Round) (r : Ref) (c : SipMsgContainer)
    (u : SipUdpConnection) :
    Rounded now u r c (sendRound now rd r c { u with sendQ := u.sendQ.erase r }) := by
  unfold sendRound
  split
  swap
  · exact .dropped (by omega)
  rename_i hleft
  split
  swap
  · exact afterSend_attempted hleft rfl (Or.inl rfl) rfl
  split
  · exact .again
  · rename_i code _
    refine afterSend_attempted hleft ?_ ?_ ?_
    · dsimp only
      split <;> split <;> rfl
    · dsimp only
      by_cases hcode : code = 0
      · right
        simp [hcode]
      · left
        simp only [if_neg hcode]
        split <;> rfl
    · dsimp only
      split <;> split <;> rfl

theorem top_mem {tie : Nat} (h : u.top tie = some r) : r ∈ u.sendQ :=
  List.mem_of_mem_filter (List.mem_of_getElem? h)

theorem top_eq_none {tie : Nat} (h : u.sendQ = []) : u.top tie = none := by
  simp [top, h]

/-- The loop rule: what every round keeps, the loop keeps. -/
theorem sendLoop_induct {P : SipUdpConnection → Prop} {rounds : Nat → Round}
    (hround : ∀ u r c out, P u → r ∈ u.sendQ → u.heap[r]? = some c → c.nextTx ≤ now →
      Rounded now u r c out → P out.1) :
    ∀ fuel i u, P u → P (sendLoop now rounds fuel i u) := by
  intro fuel
  induction fuel with
  | zero => intro i u hu; exact hu
  | succ fuel ih =>
    intro i u hu
    rw [sendLoop]
    split
    · exact hu
    · rename_i r c htop
      obtain ⟨r', hr', hc⟩ := Option.bind_eq_some_iff.mp htop
      obtain ⟨c', hc', hpair⟩ := Option.map_eq_some_iff.mp hc
      obtain ⟨rfl, rfl⟩ := Prod.mk.inj hpair
      split
      · exact hu
      · have hP := hround u _ _ _ hu (top_mem hr') hc' (by omega)
          (sendRound_rounded now (rounds i) _ _ u)
        split
        · rename_i u' heq
          rw [heq] at hP
          exact ih _ _ hP
        · rename_i u' heq
          rw [heq] at hP
          exact hP

/-! ### The containers in the queue -/

/-- Every reference in the queue points to a container, and `P` holds of it. -/
def QueueAll (P : Ref → SipMsgContainer → Prop) (u : SipUdpConnection) : Prop :=
  ∀ r ∈ u.sendQ, ∃ c, u.heap[r]? = some c ∧ P r c

theorem QueueAll.get {P : Ref → SipMsgContainer → Prop} (h : QueueAll P u) (hr : r ∈ u.sendQ)
    (hc : u.heap[r]? = some c) : P r c := by
  obtain ⟨c', hc', hP⟩ := h r hr
  rw [hc, Option.some_inj] at hc'
  exact hc' ▸ hP

theorem QueueAll.modify {P : Ref → SipMsgContainer → Prop} {u' : SipUdpConnection}
    {f : SipMsgContainer → SipMsgContainer} (h : QueueAll P u) (hc : u.heap[r]? = some c)
    (hheap : u'.heap = u.heap.modify r f) (hsendQ : ∀ r' ∈ u'.sendQ, r' ∈ u.sendQ ∨ r' = r)
    (hf : r ∈ u'.sendQ → P r (f c)) : QueueAll P u' := by
  intro r' hr'
  rw [hheap]
  by_cases hrr : r = r'
  · subst hrr
    exact ⟨f c, by simp [hc], hf hr'⟩
  · obtain ⟨c', hc', hP⟩ := h r' ((hsendQ r' hr').resolve_right (Ne.symm hrr))
    exact ⟨c', by simp [hc', hrr], hP⟩

theorem Rounded.queueAll {P : Ref → SipMsgContainer → Prop} {out : SipUdpConnection × Bool}
    (hround : Rounded now u r c out) (hr : r ∈ u.sendQ) (hc : u.heap[r]? = some c)
    (hP : P r c → P r (counted now c)) (h : QueueAll P u) : QueueAll P out.1 := by
  cases hround with
  | dropped => exact fun r' hr' => h r' (List.mem_of_mem_erase hr')
  | again =>
    intro r' hr'
    rcases List.mem_append.mp hr' with hold | hnew
    · exact h r' (List.mem_of_mem_erase hold)
    · exact h r' (List.mem_singleton.mp hnew ▸ hr)
  | attempted u' _ hheap _ hsendQ =>
    refine h.modify hc hheap ?_ fun _ => hP (h.get hr hc)
    intro r' hr'
    rw [show (u', true).1.sendQ = _ from hsendQ] at hr'
    split at hr'
    · rcases List.mem_append.mp hr' with hold | hnew
      · exact Or.inl (List.mem_of_mem_erase hold)
      · exact Or.inr (List.mem_singleton.mp hnew)
    · exact Or.inl (List.mem_of_mem_erase hr')

/-! ### The loop ends -/

theorem left_of_getElem? (hc : u.heap[r]? = some c) :
    u.left r = (c.retransCount - c.retransSoFar).toNat := by
  rw [left, hc]
  rfl

theorem left_counted_le {u' : SipUdpConnection}
    (hheap : u'.heap = u.heap.modify r (counted now)) (r' : Ref) : u'.left r' ≤ u.left r' := by
  cases hc : u.heap[r']? with
  | none => simp [left, hheap, List.getElem?_modify, hc]
  | some c =>
    by_cases hr : r = r'
    · have hc' : u'.heap[r']? = some (counted now c) := by
        simp [hheap, hc, hr]
      rw [left_of_getElem? hc, left_of_getElem? hc', counted_retransSoFar, counted_retransCount]
      omega
    · have hc' : u'.heap[r']? = some c := by simp [hheap, hc, hr]
      exact le_of_eq (by rw [left_of_getElem? hc, left_of_getElem? hc'])

/-- Every round that goes on uses up some of the work. -/
theorem Rounded.work_lt {out : SipUdpConnection × Bool} (hround : Rounded now u r c out)
    (hr : r ∈ u.sendQ) (hc : u.heap[r]? = some c) (hon : out.2 = true) : out.1.work < u.work := by
  have herase := List.sum_map_erase (fun r => u.left r + 1) hr
  cases hround with
  | dropped hdone =>
    change ((u.sendQ.erase r).map fun r => u.left r + 1).sum < u.work
    rw [work, ← herase]
    omega
  | again => cases hon
  | attempted u' hleft hheap _ hsendQ =>
    have hle : ((u.sendQ.erase r).map fun r => u'.left r + 1).sum ≤
        ((u.sendQ.erase r).map fun r => u.left r + 1).sum :=
      List.sum_le_sum fun r' _ => Nat.add_le_add_right (left_counted_le hheap r') 1
    have hc' : u'.heap[r]? = some (counted now c) := by simp [hheap, hc]
    have hold := left_of_getElem? hc
    have hnew := left_of_getElem? hc'
    rw [counted_retransSoFar, counted_retransCount] at hnew
    change u'.work < u.work
    rw [work, work, hsendQ, ← herase]
    split
    · rw [List.map_append, List.sum_append, List.map_singleton, List.sum_singleton]
      omega
    · omega

theorem sendLoop_fuel {rounds : Nat → Round} :
    ∀ fuel i u k, u.work ≤ fuel →
      sendLoop now rounds (fuel + k) i u = sendLoop now rounds fuel i u := by
  intro fuel
  induction fuel with
  | zero =>
    intro i u k hwork
    have hempty : u.sendQ = [] := by
      cases hq : u.sendQ with
      | nil => rfl
      | cons r q => simp [work, hq] at hwork
    cases k with
    | zero => rfl
    | succ k => simp [sendLoop, top_eq_none hempty]
  | succ fuel ih =>
    intro i u k hwork
    rw [Nat.add_right_comm, sendLoop, sendLoop]
    split
    · rfl
    · rename_i r c htop
      obtain ⟨r', hr', hc⟩ := Option.bind_eq_some_iff.mp htop
      obtain ⟨c', hc', hpair⟩ := Option.map_eq_some_iff.mp hc
      obtain ⟨rfl, rfl⟩ := Prod.mk.inj hpair
      split
      · rfl
      · have hlt := (sendRound_rounded now (rounds i) r' c' u).work_lt (top_mem hr') hc'
        split
        · rename_i u' heq
          rw [heq] at hlt
          have hlt' : u'.work < u.work := hlt rfl
          exact ih _ _ k (by omega)
        · rfl

/-! ### What a send does -/

theorem send_cases (hc : u.heap[r]? = some c) (dest : Option NetworkAddress) :
    (∃ c', (u.send r dest).heap = u.heap.modify r (fun _ => c') ∧ c'.retransSoFar = 0 ∧
        c'.retransCount = c.retransCount ∧ c'.trans_id = c.trans_id ∧
        (c.inEncode = none → c'.inEncode = c.msgIn) ∧
        (u.send r dest).sendQ = u.sendQ ++ [r] ∧ (u.send r dest).wire = u.wire) ∨
      (dest = none ∧ u.send r dest =
        { u with heap := u.heap.modify r fun _ => { c with inEncode := c.msgIn } }) := by
  simp only [send, hc]
  split
  · split
    · split
      · exact Or.inr ⟨rfl, rfl⟩
      · exact Or.inl ⟨_, rfl, rfl, rfl, rfl, fun _ => rfl, rfl, rfl⟩
    · exact Or.inl ⟨_, rfl, rfl, rfl, rfl, fun _ => rfl, rfl, rfl⟩
  · rename_i hencoded
    exact Or.inl ⟨_, rfl, rfl, rfl, rfl, fun hnone => absurd hnone hencoded, rfl, rfl⟩

theorem send_of_none (hc : u.heap[r]? = none) (dest : Option NetworkAddress) : u.send r dest = u := by
  simp only [send, hc]

end SipUdpConnection

/-- The connection as a machine. -/
def udpConnection : Machine SipUdpConnection SipUdpConnection.Op (Option SipMsg) where
  init := .empty
  step := SipUdpConnection.step

namespace SipUdpConnection

/-- The step rule: a property of the containers, the queue and the wire is kept by an operation if
the rounds keep it and the operations on containers do. -/
theorem next_induct {P : SipUdpConnection → Prop} {u : SipUdpConnection} (hu : P u) (op : Op)
    (hframe : ∀ u u' : SipUdpConnection, u'.heap = u.heap → u'.sendQ = u.sendQ → u'.wire = u.wire →
      P u → P u')
    (hround : ∀ now u r c out, P u → r ∈ u.sendQ → u.heap[r]? = some c → c.nextTx ≤ now →
      Rounded now u r c out → P out.1)
    (hnew : ∀ c, op = .newContainer c → P { u with heap := u.heap ++ [c] })
    (hmax : ∀ r i, op = .setRetransmitMax r i →
      P { u with heap := u.heap.modify r (.setRetransmitMax i) })
    (hsend : ∀ r dest, op = .send r dest → P (u.send r dest)) : P (udpConnection.next u op) := by
  cases op with
  | newContainer c => exact hnew c rfl
  | setRetransmitMax r i => exact hmax r i rfl
  | send r dest => exact hsend r dest rfl
  | getNextMessage => exact hframe u _ rfl rfl rfl hu
  | setRandomLosePercent percent =>
    change P (if 0 ≤ percent ∧ percent ≤ 100 then { u with randomLosePercent := percent } else u)
    split
    · exact hframe u _ rfl rfl rfl hu
    · exact hu
  | tick arrived now rounds =>
    exact sendLoop_induct (hround now) _ _ _ (hframe u _ rfl rfl rfl hu)

end SipUdpConnection

end Vocal.Sip
