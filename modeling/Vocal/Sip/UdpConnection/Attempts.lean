import Vocal.Sip.UdpConnection

/-!
# Attempts to transmit

`tick` counts each transmission it tries, whether the socket takes the datagram, refuses it, or `tick` drops it
itself to simulate loss. `attempts` writes them down, with the error responses that `tick` puts into the stack for
them; nothing else gets into the receive queue than these and what arrives (`tick_rcvFifo`), and nothing else on
the wire than the attempts that the socket took (`tick_wire`).
-/

namespace Vocal.Sip

/-- A transmission that was counted. -/
structure Attempt where
  container : Ref
  /-- The container when it was popped. -/
  before : SipMsgContainer
  now : Nat
  /-- The result of `udpSend`, unless the datagram was dropped to simulate loss. -/
  status : Option Int
  /-- The error responses put into the receive queue. -/
  reports : List SipMsg

/-- `udpSend` returned an error. -/
abbrev Attempt.Failed (e : Attempt) : Prop := e.status.any (· < 0) = true

/-- The datagram that the socket took. -/
def Attempt.transmission (e : Attempt) : Option Transmission :=
  match e.status with
  | some status => if 0 < status then some ⟨e.container, e.before.inEncode, e.before.nextTx, e.now⟩ else none
  | none => none

/-- The maximum is reached with it. -/
abbrev Attempt.Last (e : Attempt) : Prop := e.before.retransCount ≤ e.before.retransSoFar + 1

namespace SipUdpConnection

/-- The error responses for a transmission that ended with `code`: one for the failure, and one because there
are no more retransmits. -/
def reportsOf (rd : Round) (c : SipMsgContainer) (code : Int) : List SipMsg :=
  (if code ≠ 0 ∧ c.msgIn.any (fun m => m.getType ≠ .SIP_STATUS) then failureReport rd.statusToTag.1 c code else []) ++
    if ¬ c.retransSoFar + 1 < c.retransCount ∧ code ≠ 0 ∧
        c.msgIn.any (fun m => m.getType ≠ .SIP_ACK ∧ m.getType ≠ .SIP_STATUS) then
      failureReport rd.statusToTag.2 c code
    else []

/-- The attempt of a round for the container `c` that was popped, if it makes one. -/
def attempt (randomLosePercent : Int) (now : Nat) (rd : Round) (r : Ref) (c : SipMsgContainer) : Option Attempt :=
  if c.retransSoFar < c.retransCount then
    if randomLosePercent = 0 ∨ randomLosePercent ≤ (rd.random % 100 : Nat) then
      (retStatus rd.status).map fun code => ⟨r, c, now, some rd.status, reportsOf rd c code⟩
    else some ⟨r, c, now, none, []⟩
  else none

/-- The attempts of `sendLoop`. -/
def loopAttempts (now : Nat) (rounds : Nat → Round) : Nat → Nat → SipUdpConnection → List Attempt
  | 0, _, _ => []
  | fuel + 1, i, u =>
    match (u.top (rounds i).tie).bind fun r => (u.heap[r]?).map (r, ·) with
    | none => []
    | some (r, c) =>
      if now < c.nextTx then []
      else
        (attempt u.randomLosePercent now (rounds i) r c).toList ++
          match sendRound now (rounds i) r c { u with sendQ := u.sendQ.erase r } with
          | (u', true) => loopAttempts now rounds fuel (i + 1) u'
          | (_, false) => []

/-- The attempts of an operation. -/
def attempts (u : SipUdpConnection) : Op → List Attempt
  | .tick arrived now rounds =>
    let u := { u with rcvFifo := u.rcvFifo ++ arrived.toList }
    loopAttempts now rounds u.work 0 u
  | _ => []

/-! ### Rounds -/

variable {u : SipUdpConnection} {now : Nat} {rd : Round} {r : Ref} {c : SipMsgContainer}

/-- What a round can do, with the attempt it makes. -/
inductive Tried (now : Nat) (rd : Round) (u : SipUdpConnection) (r : Ref) (c : SipMsgContainer) :
    Option Attempt → SipUdpConnection × Bool → Prop
  | idle (out : SipUdpConnection × Bool) (hheap : out.1.heap = u.heap) (hrcv : out.1.rcvFifo = u.rcvFifo)
      (hwire : out.1.wire = u.wire)
      (hsendQ : out.1.sendQ = u.sendQ.erase r ∨ out.1.sendQ = u.sendQ.erase r ++ [r]) : Tried now rd u r c none out
  | tried (status : Option Int) (code : Int) (u' : SipUdpConnection) (hleft : c.retransSoFar < c.retransCount)
      (hcode : code ≠ 0 ↔ status.any (· < 0) = true) (hheap : u'.heap = u.heap.modify r (counted now))
      (hrcv : u'.rcvFifo = u.rcvFifo ++ reportsOf rd c code)
      (hwire : u'.wire = u.wire ++ (Attempt.transmission ⟨r, c, now, status, reportsOf rd c code⟩).toList)
      (hsendQ : u'.sendQ = if c.retransSoFar + 1 < c.retransCount then u.sendQ.erase r ++ [r]
        else u.sendQ.erase r) :
      Tried now rd u r c (some ⟨r, c, now, status, reportsOf rd c code⟩) (u', true)

theorem retStatus_ne_zero {status code : Int} (h : retStatus status = some code) : code ≠ 0 ↔ status < 0 := by
  unfold retStatus ECONNREFUSED EHOSTDOWN EHOSTUNREACH EAGAIN EINTR at h
  split at h
  · rename_i hneg
    refine ⟨fun _ => hneg, fun _ => ?_⟩
    rintro rfl
    split at h
    · cases h
    · split at h
      · cases h
      · split at h
        · cases h
        · split at h
          · cases h
          · cases h
  · rename_i hneg
    split at h
    · cases h
    · obtain rfl := Option.some.inj h
      exact ⟨fun hne => absurd rfl hne, fun hlt => absurd hlt hneg⟩

theorem reportsOf_zero (rd : Round) (c : SipMsgContainer) : reportsOf rd c 0 = [] := by
  simp [reportsOf]

theorem afterSend_rcvFifo (now : Nat) (rd : Round) (r : Ref) (c : SipMsgContainer) (code : Int) (u : SipUdpConnection) :
    (afterSend now rd r c code u).rcvFifo = u.rcvFifo ++
      if ¬ c.retransSoFar + 1 < c.retransCount ∧ code ≠ 0 ∧
          c.msgIn.any (fun m => m.getType ≠ .SIP_ACK ∧ m.getType ≠ .SIP_STATUS) then
        failureReport rd.statusToTag.2 c code
      else [] := by
  unfold afterSend
  by_cases hmore : c.retransSoFar + 1 < c.retransCount
  · rw [if_pos hmore, if_neg (fun h => h.1 hmore), List.append_nil]
  · rw [if_neg hmore]
    by_cases hfail : code ≠ 0 ∧ c.msgIn.any (fun m => m.getType ≠ .SIP_ACK ∧ m.getType ≠ .SIP_STATUS)
    · rw [if_pos hfail, if_pos ⟨hmore, hfail⟩]
    · rw [if_neg hfail, if_neg (fun h => hfail h.2), List.append_nil]

theorem afterSend_heap (now : Nat) (rd : Round) (r : Ref) (c : SipMsgContainer) (code : Int) (u : SipUdpConnection) :
    (afterSend now rd r c code u).heap = u.heap.modify r (counted now) := by
  unfold afterSend
  split
  · rfl
  · split <;> rfl

theorem afterSend_sendQ (now : Nat) (rd : Round) (r : Ref) (c : SipMsgContainer) (code : Int) (u : SipUdpConnection) :
    (afterSend now rd r c code u).sendQ =
      if c.retransSoFar + 1 < c.retransCount then u.sendQ ++ [r] else u.sendQ := by
  unfold afterSend
  split
  · rfl
  · split <;> rfl

theorem afterSend_wire (now : Nat) (rd : Round) (r : Ref) (c : SipMsgContainer) (code : Int) (u : SipUdpConnection) :
    (afterSend now rd r c code u).wire = u.wire := by
  unfold afterSend
  split
  · rfl
  · split <;> rfl

theorem retStatus_eq_zero {status code : Int} (h : retStatus status = some code) : code = 0 ↔ 0 < status := by
  have hne := retStatus_ne_zero h
  have hzero : status ≠ 0 := by
    rintro rfl
    cases h
  constructor
  · intro hcode
    have hneg : ¬ status < 0 := fun hlt => hne.mpr hlt hcode
    omega
  · intro hpos
    by_contra hcode
    have hneg := hne.mp hcode
    omega

theorem sendRound_tried (now : Nat) (rd : Round) (r : Ref) (c : SipMsgContainer) (u : SipUdpConnection) :
    Tried now rd u r c (attempt u.randomLosePercent now rd r c)
      (sendRound now rd r c { u with sendQ := u.sendQ.erase r }) := by
  unfold sendRound attempt
  by_cases hleft : c.retransSoFar < c.retransCount
  · rw [if_pos hleft, if_pos hleft]
    by_cases hlose : u.randomLosePercent = 0 ∨ u.randomLosePercent ≤ (rd.random % 100 : Nat)
    · rw [if_pos hlose, if_pos hlose]
      cases hret : retStatus rd.status with
      | none => exact .idle _ rfl rfl rfl (Or.inr rfl)
      | some code =>
        rw [Option.map_some]
        refine .tried _ code _ hleft ?_ ?_ ?_ ?_ ?_
        · rw [retStatus_ne_zero hret]
          simp
        · rw [afterSend_heap]
          split <;> split <;> rfl
        · rw [afterSend_rcvFifo]
          unfold reportsOf
          rw [← List.append_assoc]
          congr 1
          by_cases hfail : code ≠ 0 ∧ c.msgIn.any (fun m => m.getType ≠ .SIP_STATUS)
          · rw [if_pos hfail, if_pos hfail, if_neg hfail.1]
          · rw [if_neg hfail, if_neg hfail, List.append_nil]
            split <;> rfl
        · rw [afterSend_wire]
          unfold Attempt.transmission
          simp only
          rw [← if_congr (retStatus_eq_zero hret) rfl rfl]
          by_cases hcode : code = 0
          · simp [hcode]
          · rw [if_neg hcode, if_neg hcode]
            split <;> simp
        · rw [afterSend_sendQ]
          split <;> split <;> split <;> rfl
    · rw [if_neg hlose, if_neg hlose]
      have hnone : ([] : List SipMsg) = reportsOf rd c 0 := (reportsOf_zero rd c).symm
      rw [hnone]
      refine .tried none 0 _ hleft (by simp) (afterSend_heap ..) ?_ ?_ (afterSend_sendQ ..)
      · rw [afterSend_rcvFifo]
        simp [reportsOf_zero]
      · rw [afterSend_wire]
        simp [Attempt.transmission]
  · rw [if_neg hleft, if_neg hleft]
    exact .idle _ rfl rfl rfl (Or.inl rfl)

theorem count_requeue {q : List Ref} {r' : Ref} (hr' : r' ∈ q) : (q.erase r' ++ [r']).count r = q.count r := by
  apply List.Perm.count_eq
  exact (List.perm_append_comm).trans (List.perm_cons_erase hr').symm

/-- A round queues no container that was not queued. -/
theorem Tried.count_le {r' : Ref} {e : Option Attempt} {out : SipUdpConnection × Bool}
    (htried : Tried now rd u r' c e out) (hr' : r' ∈ u.sendQ) (r : Ref) :
    out.1.sendQ.count r ≤ u.sendQ.count r := by
  have hqueue : out.1.sendQ = u.sendQ.erase r' ∨ out.1.sendQ = u.sendQ.erase r' ++ [r'] := by
    cases htried with
    | idle out _ _ _ hsendQ => exact hsendQ
    | tried status code u' _ _ _ _ _ hsendQ =>
      dsimp only
      rw [hsendQ]
      split
      · exact Or.inr rfl
      · exact Or.inl rfl
  rcases hqueue with hqueue | hqueue
  · rw [hqueue]
    exact List.Sublist.count_le r List.erase_sublist
  · rw [hqueue, count_requeue hr']

theorem Tried.mem_sendQ {r' : Ref} {e : Option Attempt} {out : SipUdpConnection × Bool}
    (htried : Tried now rd u r' c e out) (hr' : r' ∈ u.sendQ) (hr : r ∈ out.1.sendQ) : r ∈ u.sendQ := by
  have hpos := List.count_pos_iff.mpr hr
  have hle := htried.count_le hr' r
  exact List.count_pos_iff.mp (by omega)

/-! ### Sends -/

theorem send_container {c' : SipMsgContainer} {dest : Option NetworkAddress} (hc : u.heap[r]? = some c)
    (hc' : (u.send r dest).heap[r]? = some c') :
    c'.msgIn = c.msgIn ∧ c'.wait_period = c.wait_period ∧
      c'.inEncode = if c.inEncode = none then c.msgIn else c.inEncode := by
  have hmodify : ∀ c₁, (u.heap.modify r fun _ => c₁)[r]? = some c' → c₁ = c' := by
    intro c₁ h
    simpa [hc] using h
  unfold send at hc'
  simp only [hc] at hc'
  by_cases henc : c.inEncode = none
  · rw [if_pos henc] at hc' ⊢
    split at hc'
    · split at hc'
      · rw [← hmodify _ hc']
        exact ⟨rfl, rfl, rfl⟩
      · rw [← hmodify _ hc']
        exact ⟨rfl, rfl, rfl⟩
    · rw [← hmodify _ hc']
      exact ⟨rfl, rfl, rfl⟩
  · rw [if_neg henc] at hc' ⊢
    rw [← hmodify _ hc']
    exact ⟨rfl, rfl, rfl⟩

theorem length_heap_send (u : SipUdpConnection) (r : Ref) (dest : Option NetworkAddress) :
    (u.send r dest).heap.length = u.heap.length := by
  cases hc : u.heap[r]? with
  | none => rw [send_of_none hc]
  | some c =>
    rcases send_cases hc dest with ⟨c', hheap, _⟩ | ⟨_, hsend⟩
    · rw [hheap, List.length_modify]
    · rw [hsend]
      exact List.length_modify ..

theorem send_other {r' : Ref} (dest : Option NetworkAddress) (hne : r' ≠ r) :
    (u.send r' dest).heap[r]? = u.heap[r]? ∧ (u.send r' dest).sendQ.count r = u.sendQ.count r := by
  cases hc : u.heap[r']? with
  | none =>
    rw [send_of_none hc]
    exact ⟨rfl, rfl⟩
  | some c =>
    rcases send_cases hc dest with ⟨c', hheap, _, _, _, _, hsendQ, _⟩ | ⟨_, hsend⟩
    · refine ⟨?_, ?_⟩
      · rw [hheap]
        simp [hne]
      · rw [hsendQ, List.count_append, List.count_singleton, if_neg (by simpa using hne), Nat.add_zero]
    · rw [hsend]
      exact ⟨by simp [hne], rfl⟩

/-! ### Loops and runs -/

/-- The loop rule with the attempts made so far. -/
theorem loopAttempts_induct {P : SipUdpConnection → List Attempt → Prop} {rounds : Nat → Round}
    (hround : ∀ u l rd r c e out, P u l → r ∈ u.sendQ → u.heap[r]? = some c → c.nextTx ≤ now →
      Tried now rd u r c e out → P out.1 (l ++ e.toList)) :
    ∀ fuel i u l, P u l → P (sendLoop now rounds fuel i u) (l ++ loopAttempts now rounds fuel i u) := by
  intro fuel
  induction fuel with
  | zero =>
    intro i u l hu
    rw [loopAttempts, List.append_nil]
    exact hu
  | succ fuel ih =>
    intro i u l hu
    rw [sendLoop, loopAttempts]
    cases htop : (u.top (rounds i).tie).bind fun r => (u.heap[r]?).map (r, ·) with
    | none =>
      rw [List.append_nil]
      exact hu
    | some p =>
      obtain ⟨r, c⟩ := p
      obtain ⟨r', hr', hc⟩ := Option.bind_eq_some_iff.mp htop
      obtain ⟨c', hc', hpair⟩ := Option.map_eq_some_iff.mp hc
      obtain ⟨rfl, rfl⟩ := Prod.mk.inj hpair
      simp only
      by_cases hdue : now < c'.nextTx
      · rw [if_pos hdue, if_pos hdue, List.append_nil]
        exact hu
      · rw [if_neg hdue, if_neg hdue]
        have hP := hround u l _ _ _ _ _ hu (top_mem hr') hc' (by omega) (sendRound_tried now (rounds i) r' c' u)
        rw [← List.append_assoc]
        generalize sendRound now (rounds i) r' c' { u with sendQ := u.sendQ.erase r' } = out at hP
        obtain ⟨u', on⟩ := out
        cases on with
        | true => exact ih _ _ _ hP
        | false =>
          rw [List.append_nil]
          exact hP

theorem sendLoop_appends {β : Type} {p : SipUdpConnection → List β} {f : Attempt → List β} {rounds : Nat → Round}
    (hround : ∀ u rd r c e out, Tried now rd u r c e out → p out.1 = p u ++ e.toList.flatMap f) (fuel i : Nat)
    (u : SipUdpConnection) :
    p (sendLoop now rounds fuel i u) = p u ++ (loopAttempts now rounds fuel i u).flatMap f := by
  refine loopAttempts_induct (P := fun u' l => p u' = p u ++ l.flatMap f) ?_ fuel i u [] (by simp)
  intro u' l rd r c e out hu _ _ _ htried
  rw [hround u' rd r c e out htried, hu, List.flatMap_append, List.append_assoc]

theorem tick_rcvFifo (u : SipUdpConnection) (arrived : Option SipMsg) (now : Nat) (rounds : Nat → Round) :
    (u.tick arrived now rounds).rcvFifo =
      u.rcvFifo ++ arrived.toList ++ (u.attempts (.tick arrived now rounds)).flatMap (·.reports) := by
  refine sendLoop_appends (p := (·.rcvFifo)) ?_ _ _ _
  intro u rd r c e out htried
  cases htried with
  | idle out _ hrcv _ _ => simp [hrcv]
  | tried status code u' _ _ _ hrcv _ _ => simp [hrcv]

theorem tick_wire (u : SipUdpConnection) (arrived : Option SipMsg) (now : Nat) (rounds : Nat → Round) :
    (u.tick arrived now rounds).wire =
      u.wire ++ (u.attempts (.tick arrived now rounds)).flatMap (·.transmission.toList) := by
  refine sendLoop_appends (p := (·.wire)) ?_ _ _ _
  intro u rd r c e out htried
  cases htried with
  | idle out _ _ hwire _ => simp [hwire]
  | tried status code u' _ _ _ _ hwire _ => simp [hwire]

/-- The step rule with the attempts made so far. -/
theorem attempts_induct {P : SipUdpConnection → List Attempt → Prop} {l : List Attempt} (hu : P u l) (op : Op)
    (hframe : ∀ u u' : SipUdpConnection, u'.heap = u.heap → u'.sendQ = u.sendQ → P u l → P u' l)
    (hround : ∀ now u l rd r c e out, P u l → r ∈ u.sendQ → u.heap[r]? = some c → c.nextTx ≤ now →
      Tried now rd u r c e out → P out.1 (l ++ e.toList))
    (hnew : ∀ c, op = .newContainer c → P { u with heap := u.heap ++ [c] } l)
    (hmax : ∀ r i, op = .setRetransmitMax r i → P { u with heap := u.heap.modify r (.setRetransmitMax i) } l)
    (hsend : ∀ r dest, op = .send r dest → P (u.send r dest) l) :
    P (udpConnection.next u op) (l ++ u.attempts op) := by
  cases op with
  | tick arrived now rounds => exact loopAttempts_induct (hround now) _ _ _ _ (hframe u _ rfl rfl hu)
  | newContainer c =>
    rw [attempts, List.append_nil]
    · exact hnew c rfl
    · simp
  | setRetransmitMax r i =>
    rw [attempts, List.append_nil]
    · exact hmax r i rfl
    · simp
  | send r dest =>
    rw [attempts, List.append_nil]
    · exact hsend r dest rfl
    · simp
  | getNextMessage =>
    rw [attempts, List.append_nil]
    · exact hframe u _ rfl rfl hu
    · simp
  | setRandomLosePercent percent =>
    rw [attempts, List.append_nil]
    · change P (if 0 ≤ percent ∧ percent ≤ 100 then { u with randomLosePercent := percent } else u) l
      split
      · exact hframe u _ rfl rfl hu
      · exact hu
    · simp

end SipUdpConnection

end Vocal.Sip
