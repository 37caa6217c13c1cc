import Mathlib.Tactic.IntervalCases
import Mathlib.Tactic.Positivity
import Vocal.Sip.UdpConnection.Attempts
import Vocal.Sip.UdpConnection.Budget

/-!
# The back-off schedule

`setRetransTime` writes two static members that `tick` does not read: the gaps between the transmissions of a
request are those of the constants, whatever was set. So what `setRetransTime` promises is kept for the values of
the constants and for no others, see `keepsSchedule_iff`.
-/

namespace Vocal.Sip

/-- The gap after the transmission with the number `k`, from 0. -/
def backoff (initial max : Int) (k : Nat) : Int := min (initial * 2 ^ k) max

/-- The static members of `SipUdpConnection`. -/
structure RetransTime where
  Udpretransmitimeinitial : Int32
  Udpretransmittimemax : Int32

namespace RetransTime

def initial : RetransTime := ⟨.ofInt retransmitTimeInitial, .ofInt retransmitTimeMax⟩

/-- `SipUdpConnection::setRetransTime`. -/
def setRetransTime (_ : RetransTime) (initial max : Int32) : RetransTime := ⟨initial, max⟩

end RetransTime

namespace SipUdpConnection

/-- The operations of the connection, and the static one. -/
inductive TimedOp
  | setRetransTime (initial max : Int32)
  | conn (op : Op)

/-- The connection with the static members. -/
def timedConnection : Machine (RetransTime × SipUdpConnection) TimedOp (Option SipMsg) where
  init := (.initial, .empty)
  step s
    | .setRetransTime initial max => ((s.1.setRetransTime initial max, s.2), none)
    | .conn op => ((s.1, (s.2.step op).1), (s.2.step op).2)

/-- The attempts of an operation. -/
def timedAttempts (s : RetransTime × SipUdpConnection) : TimedOp → List Attempt
  | .setRetransTime _ _ => []
  | .conn op => s.2.attempts op

/-- The operation is none of `send` for the container. -/
def TimedNotSent (r : Ref) : TimedOp → Prop
  | .setRetransTime _ _ => True
  | .conn op => NotSent r op

/-- The operation does not set the times. -/
def KeepsTimes : TimedOp → Prop
  | .setRetransTime _ _ => False
  | .conn _ => True

/-- The attempts of one container follow the schedule: one that is not the last schedules the next exactly
`backoff initial max k` later, and the next is made at that time or after it. The clock has 64 bits, and where it
does not wrap at least as much time is between the two. -/
def Scheduled (initial max : Int) (l : List Attempt) : Prop :=
  ∀ k e, l[k]? = some e →
    (¬ e.Last → ((counted e.now e.before).nextTx : Int) = (e.now + backoff initial max k) % 2 ^ 64) ∧
      ∀ e', l[k + 1]? = some e' →
        (e'.before.nextTx : Int) = (e.now + backoff initial max k) % 2 ^ 64 ∧ e'.before.nextTx ≤ e'.now ∧
          (e.now + backoff initial max k < 2 ^ 64 → e.now + backoff initial max k ≤ e'.now)

/-- After `setRetransTime(initial, max)`, in every run, the attempts of every container that is handed to `send`
once follow the schedule. No wait is set in a container before it is sent. -/
def KeepsSchedule (initial max : Int32) : Prop :=
  ∀ pre mid post r dest c,
    (∀ op ∈ pre ++ mid ++ post, TimedNotSent r op) → (∀ op ∈ mid ++ post, KeepsTimes op) →
    (timedConnection.run timedConnection.init (pre ++ .setRetransTime initial max :: mid)).2.heap[r]? = some c →
    c.wait_period = 0 →
    Scheduled initial.toInt max.toInt
      ((timedConnection.log timedAttempts
        (timedConnection.run timedConnection.init (pre ++ .setRetransTime initial max :: mid))
        (.conn (.send r dest) :: post)).filter (·.container = r))

/-! ### The schedule of the constants -/

/-- The wait that is set in a container after `k` attempts. -/
def waited : Nat → Int
  | 0 => 0
  | k + 1 => backoff 500 4000 k

/-- A queued container with the attempts `l` behind it. -/
def Pending (l : List Attempt) (c : SipMsgContainer) : Prop :=
  c.wait_period = waited l.length ∧ ∀ e, l.getLast? = some e → (c.nextTx : Int) = (e.now + waited l.length) % 2 ^ 64

/-- Each attempt was pending before and made in time. -/
def Paced (l : List Attempt) : Prop :=
  ∀ k e, l[k]? = some e → Pending (l.take k) e.before ∧ e.before.nextTx ≤ e.now

theorem paced_concat {l : List Attempt} {e : Attempt} (hl : Paced l) (he : Pending l e.before)
    (hdue : e.before.nextTx ≤ e.now) : Paced (l ++ [e]) := by
  intro k e' hk
  by_cases hlt : k < l.length
  · rw [List.getElem?_append_left hlt] at hk
    rw [List.take_append_of_le_length hlt.le]
    exact hl k e' hk
  · obtain ⟨hk', hget⟩ := List.getElem?_eq_some_iff.mp hk
    rw [List.length_append, List.length_singleton] at hk'
    obtain rfl : k = l.length := by omega
    obtain rfl : e = e' := by simpa using hk
    rw [List.take_left]
    exact ⟨he, hdue⟩

theorem pow_le_of_backoff_lt {k : Nat} (h : backoff 500 4000 k < 4000) : k ≤ 2 := by
  unfold backoff at h
  by_contra hk
  have hpow : (2 : Int) ^ 3 ≤ 2 ^ k := pow_le_pow_right₀ (by norm_num) (by omega)
  omega

theorem waited_succ (k : Nat) :
    waited (k + 1) = if waited k = 0 then retransmitTimeInitial
      else if waited k < retransmitTimeMax then waited k * 2 else waited k := by
  unfold retransmitTimeInitial retransmitTimeMax
  cases k with
  | zero => rfl
  | succ k =>
    have hne : backoff 500 4000 k ≠ 0 := by
      have hpow : (0 : Int) < 2 ^ k := by positivity
      unfold backoff
      omega
    show backoff 500 4000 (k + 1) = _
    rw [waited, if_neg hne]
    by_cases hlt : backoff 500 4000 k < 4000
    · rw [if_pos hlt]
      have hk := pow_le_of_backoff_lt hlt
      interval_cases k <;> decide
    · rw [if_neg hlt]
      unfold backoff at *
      rw [pow_succ]
      omega

theorem wait_period_counted {l : List Attempt} {c : SipMsgContainer} (now : Nat) (h : Pending l c)
    (hmore : c.retransSoFar + 1 < c.retransCount) :
    (counted now c).wait_period = waited (l.length + 1) ∧
      ((counted now c).nextTx : Int) = (now + waited (l.length + 1)) % 2 ^ 64 := by
  rw [waited_succ, ← h.1]
  unfold counted
  simp only
  rw [if_pos hmore]
  refine ⟨rfl, ?_⟩
  show ((_ : Int).toNat : Int) = _
  rw [Int.toNat_of_nonneg (Int.emod_nonneg _ (by norm_num))]

theorem Pending.concat {l : List Attempt} {e : Attempt} (h : Pending l e.before) (hmore : ¬ e.Last) :
    Pending (l ++ [e]) (counted e.now e.before) := by
  obtain ⟨hwait, hnext⟩ := wait_period_counted e.now h (by unfold Attempt.Last at hmore; omega)
  unfold Pending
  rw [List.length_append, List.length_singleton]
  refine ⟨hwait, ?_⟩
  intro e' he'
  obtain rfl : e = e' := by simpa using he'
  exact hnext

theorem Paced.scheduled {l : List Attempt} (h : Paced l) : Scheduled 500 4000 l := by
  intro k e hk
  obtain ⟨hlt, -⟩ := List.getElem?_eq_some_iff.mp hk
  have hlen : (l.take k).length = k := by
    rw [List.length_take]
    omega
  refine ⟨?_, ?_⟩
  · intro hmore
    obtain ⟨-, hnext⟩ := wait_period_counted e.now (h k e hk).1 (by unfold Attempt.Last at hmore; omega)
    rw [hlen] at hnext
    exact hnext
  · intro e' hk'
    obtain ⟨⟨-, hnext⟩, hdue⟩ := h (k + 1) e' hk'
    obtain ⟨hlt', -⟩ := List.getElem?_eq_some_iff.mp hk'
    have hlen' : (l.take (k + 1)).length = k + 1 := by
      rw [List.length_take]
      omega
    have hlast : (l.take (k + 1)).getLast? = some e := by
      rw [List.take_add_one, hk, Option.toList_some, List.getLast?_concat]
    have hnext' := hnext e hlast
    rw [hlen', waited] at hnext'
    refine ⟨hnext', hdue, ?_⟩
    intro hwrap
    have hpos : 0 ≤ backoff 500 4000 k := by
      have hpow : (0 : Int) < 2 ^ k := by positivity
      unfold backoff
      omega
    have hmod : ((e.now : Int) + backoff 500 4000 k) % 2 ^ 64 = e.now + backoff 500 4000 k :=
      Int.emod_eq_of_lt (by omega) hwrap
    omega

/-! ### Runs -/

/-- The container is queued once at most, its attempts are in time, and while it is queued the next is pending. -/
structure Pacing (r : Ref) (u : SipUdpConnection) (l : List Attempt) : Prop where
  alloc : r < u.heap.length
  once : u.sendQ.count r ≤ 1
  paced : Paced (l.filter (·.container = r))
  pending : r ∈ u.sendQ → ∀ c, u.heap[r]? = some c → Pending (l.filter (·.container = r)) c

variable {u : SipUdpConnection} {now : Nat} {rd : Round} {r : Ref} {c : SipMsgContainer}

theorem Tried.pacing {r' : Ref} {l : List Attempt} {e : Option Attempt} {out : SipUdpConnection × Bool}
    (htried : Tried now rd u r' c e out) (hr' : r' ∈ u.sendQ) (hc : u.heap[r']? = some c) (hdue : c.nextTx ≤ now)
    (h : Pacing r u l) : Pacing r out.1 (l ++ e.toList) := by
  obtain ⟨halloc, honce, hpaced, hpending⟩ := h
  have hcount := htried.count_le hr' r
  have hmem : r ∈ out.1.sendQ → r ∈ u.sendQ := htried.mem_sendQ hr'
  cases htried with
  | idle out hheap _ _ _ =>
    rw [Option.toList_none, List.append_nil]
    refine ⟨hheap ▸ halloc, hcount.trans honce, hpaced, ?_⟩
    intro hr
    rw [hheap]
    exact hpending (hmem hr)
  | tried status code u' hleft _ hheap _ _ hsendQ =>
    let e : Attempt := ⟨r', c, now, status, reportsOf rd c code⟩
    show Pacing r u' (l ++ [e])
    have halloc' : r < u'.heap.length := by
      rw [hheap, List.length_modify]
      exact halloc
    by_cases hrr : r' = r
    · -- the attempt is the container's own
      subst hrr
      have hbefore := hpending hr' c hc
      have hfilter : (l ++ [e]).filter (·.container = r') = l.filter (·.container = r') ++ [e] := by
        simp [e]
      refine ⟨halloc', hcount.trans honce, ?_, ?_⟩
      · rw [hfilter]
        exact paced_concat hpaced hbefore hdue
      · intro hr c' hc'
        have hmore : c.retransSoFar + 1 < c.retransCount := by
          by_contra hlast
          rw [hsendQ, if_neg hlast] at hr
          have hpos := List.count_pos_iff.mpr hr
          rw [List.count_erase_self] at hpos
          omega
        obtain rfl : counted now c = c' := by
          have hget : u'.heap[r']? = some (counted now c) := by simp [hheap, hc]
          exact Option.some.inj (hget.symm.trans hc')
        have hlast : ¬ e.Last := by
          unfold Attempt.Last
          show ¬ c.retransCount ≤ c.retransSoFar + 1
          omega
        rw [hfilter]
        exact Pending.concat (e := e) hbefore hlast
    · have hfilter : (l ++ [e]).filter (·.container = r) = l.filter (·.container = r) := by
        simp [e, hrr]
      refine ⟨halloc', hcount.trans honce, hfilter ▸ hpaced, ?_⟩
      intro hr c' hc'
      have hget : u'.heap[r]? = u.heap[r]? := by simp [hheap, hrr]
      rw [hfilter]
      exact hpending (hmem hr) c' (hget ▸ hc')

theorem pacing_next {l : List Attempt} (op : Op) (hnot : NotSent r op) (h : Pacing r u l) :
    Pacing r (udpConnection.next u op) (l ++ u.attempts op) := by
  refine attempts_induct (P := Pacing r) h op ?_ ?_ ?_ ?_ ?_
  · rintro u u' hheap hsendQ ⟨halloc, honce, hpaced, hpending⟩
    exact ⟨hheap ▸ halloc, hsendQ ▸ honce, hpaced, by rw [hheap, hsendQ]; exact hpending⟩
  · intro now u l rd r' c e out h hr' hc hdue htried
    exact htried.pacing hr' hc hdue h
  · intro c _
    refine ⟨?_, h.once, h.paced, ?_⟩
    · show r < (u.heap ++ [c]).length
      rw [List.length_append]
      exact Nat.lt_add_right _ h.alloc
    · intro hr c' hc'
      refine h.pending hr c' ?_
      rw [← hc']
      exact (List.getElem?_append_left h.alloc).symm
  · intro r' i _
    refine ⟨?_, h.once, h.paced, ?_⟩
    · show r < (u.heap.modify r' _).length
      rw [List.length_modify]
      exact h.alloc
    · intro hr c' hc'
      rw [show ({ u with heap := u.heap.modify r' (.setRetransmitMax i) } : SipUdpConnection).heap[r]? =
        (u.heap.modify r' (.setRetransmitMax i))[r]? from rfl, List.getElem?_modify] at hc'
      obtain ⟨c, hc, hset⟩ := Option.map_eq_some_iff.mp hc'
      have hpending := h.pending hr c hc
      subst hset
      split
      · exact hpending
      · exact hpending
  · rintro r' dest rfl
    have hne : r' ≠ r := hnot
    obtain ⟨hheap, hcount⟩ := send_other (u := u) dest hne
    refine ⟨?_, hcount ▸ h.once, h.paced, ?_⟩
    · rw [length_heap_send]
      exact h.alloc
    · intro hr c hc
      refine h.pending ?_ c (hheap ▸ hc)
      rw [← List.count_pos_iff, ← hcount]
      exact List.count_pos_iff.mpr hr

theorem pacing_send {dest : Option NetworkAddress} (hc : u.heap[r]? = some c) (hwait : c.wait_period = 0)
    (hqueue : r ∉ u.sendQ) : Pacing r (u.send r dest) [] := by
  have hzero : u.sendQ.count r = 0 := List.count_eq_zero.mpr hqueue
  have hlt : r < u.heap.length := (List.getElem?_eq_some_iff.mp hc).1
  have hpending : ∀ c', (u.send r dest).heap[r]? = some c' → Pending [] c' := by
    intro c' hc'
    refine ⟨(send_container hc hc').2.1.trans hwait, ?_⟩
    intro e he
    cases he
  refine ⟨?_, ?_, ?_, fun _ => hpending⟩
  · rw [length_heap_send]
    exact hlt
  · rcases send_cases hc dest with ⟨c', _, _, _, _, _, hsendQ, _⟩ | ⟨_, hsend⟩
    · rw [hsendQ, List.count_append, hzero, List.count_singleton]
      simp
    · rw [hsend]
      exact hzero.le.trans (Nat.zero_le 1)
  · intro k e hk
    cases hk

/-! ### The times that are set -/

theorem unsent_run (ops : List TimedOp) (hnot : ∀ op ∈ ops, TimedNotSent r op) :
    Unsent r (timedConnection.run timedConnection.init ops).2 := by
  refine Machine.run_of_guarded (P := fun (s : RetransTime × SipUdpConnection) => Unsent r s.2)
    (G := fun _ => TimedNotSent r) ?_ ops _ ⟨by simp [timedConnection, empty], rfl⟩ (Machine.along_of_forall hnot _)
  intro s op h hop
  cases op with
  | setRetransTime initial max => exact h
  | conn op => exact unsent_next op hop h

theorem scheduled_of_constants (initial max : Int32) (hinitial : initial.toInt = 500) (hmax : max.toInt = 4000) :
    KeepsSchedule initial max := by
  intro pre mid post r dest c hnot _ hc hwait
  rw [hinitial, hmax]
  generalize hs : timedConnection.run timedConnection.init (pre ++ .setRetransTime initial max :: mid) = s at *
  have hunsent : Unsent r s.2 := by
    rw [← hs]
    apply unsent_run
    intro op hop
    rcases List.mem_append.mp hop with hop | hop
    · exact hnot op (by simp [hop])
    · rcases List.mem_cons.mp hop with rfl | hop
      · trivial
      · exact hnot op (by simp [hop])
  have hrun := Machine.log_of_guarded (M := timedConnection) (P := fun s l => Pacing r s.2 l)
    (G := fun _ => TimedNotSent r) (f := timedAttempts) ?_ post (timedConnection.next s (.conn (.send r dest))) []
    (pacing_send hc hwait hunsent.1) (Machine.along_of_forall (fun op hop => hnot op (by simp [hop])) _)
  · exact hrun.paced.scheduled
  · intro s l op h hop
    cases op with
    | setRetransTime initial max =>
      rw [timedAttempts, List.append_nil]
      exact h
    | conn op => exact pacing_next op hop h

/-- What the operations on the connection write down does not depend on the static members. -/
theorem log_conn (s : RetransTime × SipUdpConnection) (ops : List Op) :
    timedConnection.log timedAttempts s (ops.map .conn) = udpConnection.log attempts s.2 ops := by
  induction ops generalizing s with
  | nil => rfl
  | cons op ops ih =>
    rw [List.map_cons, Machine.log, Machine.log, ih]
    rfl

/-- An INVITE with a maximum of 6. -/
def unansweredInvite : SipMsgContainer :=
  (SipMsgContainer.received (.command (inviteFrom "h".toList "1".toList))).setRetransmitMax 6

/-- The connection with the INVITE, which is then sent and never answered. -/
def beforeInvite : SipUdpConnection := ⟨[unansweredInvite], [], [], 0, []⟩

/-- Ticks at the times of the constants. -/
def inviteTicks : List Op := [0, 500, 1500, 3500, 7500, 11500].map fun now => .tick none now delivering

theorem times_inviteTicks :
    ((udpConnection.log attempts beforeInvite (.send 0 (some ⟨1, 5060⟩) :: inviteTicks)).filter
      (·.container = 0)).map (fun e => (e.before.nextTx, e.now)) =
        [(0, 0), (500, 500), (1500, 1500), (3500, 3500), (7500, 7500), (11500, 11500)] := by
  decide

theorem gap_of_times {initial max : Int} {l : List Attempt} {times : List (Nat × Nat)} {k t t' n n' : Nat}
    (h : Scheduled initial max l) (htimes : l.map (fun e => (e.before.nextTx, e.now)) = times)
    (hk : times[k]? = some (n, t)) (hk' : times[k + 1]? = some (n', t')) :
    (n' : Int) = (t + backoff initial max k) % 2 ^ 64 := by
  subst htimes
  rw [List.getElem?_map] at hk hk'
  obtain ⟨e, he, heq⟩ := Option.map_eq_some_iff.mp hk
  obtain ⟨e', he', heq'⟩ := Option.map_eq_some_iff.mp hk'
  obtain ⟨rfl, rfl⟩ := Prod.mk.inj heq
  obtain ⟨rfl, rfl⟩ := Prod.mk.inj heq'
  exact ((h k e he).2 e' he').1

theorem gaps_of_keepsSchedule {initial max : Int32} (h : KeepsSchedule initial max) :
    ((500 : Nat) : Int) = ((0 : Nat) + backoff initial.toInt max.toInt 0) % 2 ^ 64 ∧
      ((11500 : Nat) : Int) = ((7500 : Nat) + backoff initial.toInt max.toInt 4) % 2 ^ 64 := by
  have hscheduled : Scheduled initial.toInt max.toInt
      ((udpConnection.log attempts beforeInvite (.send 0 (some ⟨1, 5060⟩) :: inviteTicks)).filter (·.container = 0)) := by
    have hinvite := h [] [.conn (.newContainer unansweredInvite)] (inviteTicks.map .conn) 0 (some ⟨1, 5060⟩)
      unansweredInvite ?_ ?_ rfl rfl
    · rw [← log_conn (.initial, beforeInvite)]
      exact hinvite
    · intro op hop
      rcases List.mem_append.mp hop with hnew | htick
      · rw [List.mem_singleton.mp hnew]
        trivial
      · obtain ⟨_, hmem, rfl⟩ := List.mem_map.mp htick
        obtain ⟨now, -, rfl⟩ := List.mem_map.mp hmem
        trivial
    · intro op hop
      rcases List.mem_append.mp hop with hnew | htick
      · rw [List.mem_singleton.mp hnew]
        trivial
      · obtain ⟨_, -, rfl⟩ := List.mem_map.mp htick
        trivial
  exact ⟨gap_of_times (k := 0) hscheduled times_inviteTicks rfl rfl,
    gap_of_times (k := 4) hscheduled times_inviteTicks rfl rfl⟩

/-- **The back-off schedule** is kept for the times of the constants, and for no others. -/
theorem keepsSchedule_iff (initial max : Int32) (hinitial : 0 < initial.toInt) (hle : initial.toInt ≤ max.toInt) :
    KeepsSchedule initial max ↔ initial = 500 ∧ max = 4000 := by
  constructor
  · intro h
    obtain ⟨hfirst, hlater⟩ := gaps_of_keepsSchedule h
    have hmax := max.toInt_lt
    have hpow : initial.toInt ≤ initial.toInt * 2 ^ 4 := by omega
    unfold backoff at hfirst hlater
    rw [pow_zero, mul_one] at hfirst
    have hi : initial.toInt = 500 := by omega
    have hm : max.toInt = 4000 := by omega
    exact ⟨Int32.toInt_inj.mp hi, Int32.toInt_inj.mp hm⟩
  · rintro ⟨rfl, rfl⟩
    exact scheduled_of_constants 500 4000 rfl rfl

theorem keepsSchedule_default : KeepsSchedule 500 4000 :=
  (keepsSchedule_iff 500 4000 (by decide) (by decide)).mpr ⟨rfl, rfl⟩

/-- Other times are set and not used. -/
theorem not_keepsSchedule_second : ¬ KeepsSchedule 1000 4000 := by
  intro h
  have hfirst := (gaps_of_keepsSchedule h).1
  revert hfirst
  decide

end SipUdpConnection

end Vocal.Sip
