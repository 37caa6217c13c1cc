import Vocal.Sip.UdpConnection

/-!
# The retransmission budget

A container handed to `send` is transmitted at most as often as its maximum says at that time, never
before the time it is scheduled for, and never after its maximum was set to 0
(`retransmission_budget`). Maxima may be lowered at any time, and the clock may do what it wants.
-/

namespace Vocal.Sip.SipUdpConnection

variable {u : SipUdpConnection} {now : Nat} {r : Ref} {c : SipMsgContainer}

/-- The number of datagrams sent from the container. -/
def sent (r : Ref) (u : SipUdpConnection) : Nat := u.wire.countP (·.container = r)

/-- A maximum is only ever lowered. -/
def Lowers (u : SipUdpConnection) : Op → Prop
  | .setRetransmitMax r i => ∀ c, u.heap[r]? = some c → i ≤ c.retransCount
  | _ => True

/-- The operation does not hand the container to `send`. -/
def NotSent (r : Ref) : Op → Prop
  | .send r' _ => r' ≠ r
  | _ => True

/-! ### Scheduled times -/

/-- No datagram was sent before its time. -/
def OnTime (u : SipUdpConnection) : Prop := ∀ e ∈ u.wire, e.nextTx ≤ e.now

theorem Rounded.onTime {out : SipUdpConnection × Bool} (hround : Rounded now u r c out)
    (hdue : c.nextTx ≤ now) (h : OnTime u) : OnTime out.1 := by
  cases hround with
  | dropped => exact h
  | again => exact h
  | attempted u' _ _ hwire =>
    rcases hwire with hwire | hwire
    · intro e he
      exact h e (hwire ▸ he)
    · intro e he
      rw [hwire] at he
      rcases List.mem_append.mp he with hold | hnew
      · exact h e hold
      · rw [List.mem_singleton.mp hnew]
        exact hdue

theorem send_wire (u : SipUdpConnection) (r : Ref) (dest : Option NetworkAddress) :
    (u.send r dest).wire = u.wire := by
  cases hc : u.heap[r]? with
  | none => rw [send_of_none hc]
  | some c =>
    rcases send_cases hc dest with ⟨c', _, _, _, _, _, _, hwire⟩ | ⟨_, hsend⟩
    · exact hwire
    · rw [hsend]

theorem onTime_next (op : Op) (h : OnTime u) : OnTime (udpConnection.next u op) := by
  refine next_induct h op ?_ ?_ ?_ ?_ ?_
  · intro u u' _ _ hwire h e he
    exact h e (hwire ▸ he)
  · intro now u r c out h _ _ hdue hround
    exact hround.onTime hdue h
  · intro c _; exact h
  · intro r i _; exact h
  · intro r dest _ e he
    exact h e (send_wire u r dest ▸ he)

/-! ### Containers in the queue -/

/-- A queued container has a count of transmissions. -/
def QueueOk (u : SipUdpConnection) : Prop := QueueAll (fun _ c => 0 ≤ c.retransSoFar) u

theorem Rounded.queueOk {out : SipUdpConnection × Bool} (hround : Rounded now u r c out)
    (hr : r ∈ u.sendQ) (hc : u.heap[r]? = some c) (h : QueueOk u) : QueueOk out.1 := by
  refine hround.queueAll hr hc ?_ h
  intro hcount
  rw [counted_retransSoFar]
  omega

theorem queueOk_next (op : Op) (h : QueueOk u) : QueueOk (udpConnection.next u op) := by
  refine next_induct h op ?_ ?_ ?_ ?_ ?_
  · intro u u' hheap hsendQ _ h r hr
    rw [hheap]
    exact h r (hsendQ ▸ hr)
  · intro now u r c out h hr hc _ hround
    exact hround.queueOk hr hc h
  · intro c _ r hr
    obtain ⟨c', hc', hcount⟩ := h r hr
    exact ⟨c', Store.getElem?_append_of_some hc' [c], hcount⟩
  · intro r i _
    cases hc : u.heap[r]? with
    | none =>
      intro r' hr'
      obtain ⟨c', hc', hcount⟩ := h r' hr'
      have hne : r ≠ r' := by rintro rfl; rw [hc] at hc'; cases hc'
      exact ⟨c', by simp [hc', hne], hcount⟩
    | some c =>
      have hcount : r ∈ u.sendQ → 0 ≤ c.retransSoFar := fun hr => QueueAll.get h hr hc
      exact QueueAll.modify h hc rfl (fun _ hr' => Or.inl hr') hcount
  · intro r dest _
    cases hc : u.heap[r]? with
    | none => rw [send_of_none hc]; exact h
    | some c =>
      rcases send_cases hc dest with ⟨c', hheap, hzero, _, _, _, hsendQ, _⟩ | ⟨_, hsend⟩
      · refine QueueAll.modify h hc hheap ?_ fun _ => hzero.ge
        intro r' hr'
        rw [hsendQ] at hr'
        exact (List.mem_append.mp hr').imp_right List.mem_singleton.mp
      · have hcount : r ∈ u.sendQ → 0 ≤ c.retransSoFar := fun hr => QueueAll.get h hr hc
        rw [hsend]
        exact QueueAll.modify h hc rfl (fun _ hr' => Or.inl hr') hcount

/-! ### The budget -/

/-- The container had `n` datagrams sent when it was handed to `send` with the maximum `m`: since
then it was counted at most `m` times, and every datagram was counted. -/
def Budget (r : Ref) (m : Int) (n : Nat) (u : SipUdpConnection) : Prop :=
  ∃ c, u.heap[r]? = some c ∧ c.retransCount ≤ m ∧ 0 ≤ c.retransSoFar ∧
    (c.retransSoFar ≤ m ∨ c.retransSoFar = 0) ∧ (sent r u : Int) ≤ n + c.retransSoFar

theorem Budget.sent_le {m : Int} {n : Nat} (h : Budget r m n u) : sent r u ≤ n + m.toNat := by
  obtain ⟨c, _, _, _, hbounded, hsent⟩ := h
  omega

theorem sent_attempted {u' : SipUdpConnection} {r' : Ref}
    (hwire : u'.wire = u.wire ∨ u'.wire = u.wire ++ [⟨r', c.inEncode, c.nextTx, now⟩]) :
    sent r u' = sent r u ∨ r' = r ∧ sent r u' = sent r u + 1 := by
  rcases hwire with hwire | hwire
  · exact Or.inl (by rw [sent, sent, hwire])
  · rw [sent, sent, hwire, List.countP_append, List.countP_singleton]
    by_cases hr : r' = r
    · exact Or.inr ⟨hr, by simp [hr]⟩
    · exact Or.inl (by simp [hr])

theorem Rounded.budget {out : SipUdpConnection × Bool} {r₀ : Ref} {m : Int} {n : Nat}
    (hround : Rounded now u r c out) (hc : u.heap[r]? = some c) (h : Budget r₀ m n u) :
    Budget r₀ m n out.1 := by
  obtain ⟨c₀, hc₀, hmax, hcount, hbounded, hsent⟩ := h
  cases hround with
  | dropped => exact ⟨c₀, hc₀, hmax, hcount, hbounded, hsent⟩
  | again => exact ⟨c₀, hc₀, hmax, hcount, hbounded, hsent⟩
  | attempted u' hleft hheap hwire _ =>
    have hsent' := sent_attempted (r := r₀) hwire
    by_cases hrr : r = r₀
    · -- the transmission is the container's own
      subst hrr
      obtain rfl := Option.some.inj (hc.symm.trans hc₀)
      refine ⟨counted now c, by simp [hheap, hc], by simpa using hmax, ?_, ?_, ?_⟩
      · rw [counted_retransSoFar]; omega
      · rw [counted_retransSoFar]; omega
      · rw [counted_retransSoFar]
        change (sent r u' : Int) ≤ _
        omega
    · rcases hsent' with hsame | ⟨heq, _⟩
      · refine ⟨c₀, by simp [hheap, hrr, hc₀], hmax, hcount, hbounded, ?_⟩
        change (sent r₀ u' : Int) ≤ _
        omega
      · exact absurd heq hrr

theorem budget_next {r₀ : Ref} {m : Int} {n : Nat} (op : Op) (hlower : Lowers u op)
    (hnot : NotSent r₀ op) (h : Budget r₀ m n u) : Budget r₀ m n (udpConnection.next u op) := by
  refine next_induct h op ?_ ?_ ?_ ?_ ?_
  · rintro u u' hheap _ hwire ⟨c₀, hc₀, hmax, hcount, hbounded, hsent⟩
    exact ⟨c₀, hheap ▸ hc₀, hmax, hcount, hbounded, by rw [sent, hwire]; exact hsent⟩
  · intro now u r c out h _ hc _ hround
    exact hround.budget hc h
  · rintro c -
    obtain ⟨c₀, hc₀, hmax, hcount, hbounded, hsent⟩ := h
    exact ⟨c₀, Store.getElem?_append_of_some hc₀ [c], hmax, hcount, hbounded, hsent⟩
  · rintro r i rfl
    obtain ⟨c₀, hc₀, hmax, hcount, hbounded, hsent⟩ := h
    by_cases hrr : r = r₀
    · subst hrr
      have hle := hlower c₀ hc₀
      refine ⟨c₀.setRetransmitMax i, by simp [hc₀], ?_, hcount, hbounded, hsent⟩
      exact le_trans hle hmax
    · exact ⟨c₀, by simp [hrr, hc₀], hmax, hcount, hbounded, hsent⟩
  · rintro r dest rfl
    obtain ⟨c₀, hc₀, hmax, hcount, hbounded, hsent⟩ := h
    have hget : (u.send r dest).heap[r₀]? = some c₀ := by
      cases hc : u.heap[r]? with
      | none => rw [send_of_none hc]; exact hc₀
      | some c =>
        have hrr : r ≠ r₀ := hnot
        rcases send_cases hc dest with ⟨c', hheap, _⟩ | ⟨_, hsend⟩
        · simp [hheap, hrr, hc₀]
        · simp [hsend, hrr, hc₀]
    exact ⟨c₀, hget, hmax, hcount, hbounded, by rw [sent, send_wire]; exact hsent⟩

theorem budget_send (hc : u.heap[r]? = some c) (na : NetworkAddress) :
    Budget r c.retransCount (sent r u) (udpConnection.next u (.send r (some na))) := by
  rcases send_cases hc (some na) with ⟨c', hheap, hzero, hmax, _, _, _, hwire⟩ | ⟨hnone, _⟩
  · refine ⟨c', ?_, hmax.le, hzero.ge, Or.inr hzero, ?_⟩
    · change (u.send r (some na)).heap[r]? = some c'
      simp [hheap, hc]
    · change ((u.send r (some na)).wire.countP _ : Int) ≤ _
      rw [hwire, hzero, sent]
      omega
  · cases hnone

/-! ### A maximum of zero -/

/-- The container's maximum is not positive, and `n` datagrams were sent from it. -/
structure Silent (r : Ref) (n : Nat) (u : SipUdpConnection) : Prop where
  queue : QueueOk u
  max : ∃ c, u.heap[r]? = some c ∧ c.retransCount ≤ 0
  sent : sent r u = n

theorem Rounded.silent {out : SipUdpConnection × Bool} {r₀ : Ref} {n : Nat}
    (hround : Rounded now u r c out) (hr : r ∈ u.sendQ) (hc : u.heap[r]? = some c)
    (h : Silent r₀ n u) : Silent r₀ n out.1 := by
  have hqueue := hround.queueOk hr hc h.queue
  obtain ⟨c₀, hc₀, hmax⟩ := h.max
  cases hround with
  | dropped => exact ⟨hqueue, ⟨c₀, hc₀, hmax⟩, h.sent⟩
  | again => exact ⟨hqueue, ⟨c₀, hc₀, hmax⟩, h.sent⟩
  | attempted u' hleft hheap hwire _ =>
    by_cases hrr : r = r₀
    · -- a queued container with a maximum of zero is not sent
      subst hrr
      obtain rfl := Option.some.inj (hc.symm.trans hc₀)
      have := QueueAll.get h.queue hr hc
      omega
    · rcases sent_attempted (r := r₀) hwire with hsent | ⟨heq, _⟩
      · exact ⟨hqueue, ⟨c₀, by simp [hheap, hrr, hc₀], hmax⟩, hsent.trans h.sent⟩
      · exact absurd heq hrr

theorem silent_next {n : Nat} (op : Op) (hlower : Lowers u op) (h : Silent r n u) :
    Silent r n (udpConnection.next u op) := by
  have hqueue := queueOk_next op h.queue
  refine next_induct h op ?_ ?_ ?_ ?_ ?_
  · rintro u u' hheap hsendQ hwire ⟨hqueue, ⟨c, hc, hmax⟩, hsent⟩
    refine ⟨?_, ⟨c, hheap ▸ hc, hmax⟩, by rw [SipUdpConnection.sent, hwire]; exact hsent⟩
    intro r hr
    rw [hheap]
    exact hqueue r (hsendQ ▸ hr)
  · intro now u r c out h hr hc _ hround
    exact hround.silent hr hc h
  · rintro c rfl
    obtain ⟨c₀, hc₀, hmax⟩ := h.max
    exact ⟨hqueue, ⟨c₀, Store.getElem?_append_of_some hc₀ [c], hmax⟩, h.sent⟩
  · rintro r' i rfl
    obtain ⟨c₀, hc₀, hmax⟩ := h.max
    refine ⟨hqueue, ?_, h.sent⟩
    by_cases hrr : r' = r
    · subst hrr
      exact ⟨c₀.setRetransmitMax i, by simp [hc₀], le_trans (hlower c₀ hc₀) hmax⟩
    · exact ⟨c₀, by simp [hrr, hc₀], hmax⟩
  · rintro r' dest rfl
    obtain ⟨c₀, hc₀, hmax⟩ := h.max
    refine ⟨hqueue, ?_, by rw [SipUdpConnection.sent, send_wire]; exact h.sent⟩
    cases hc : u.heap[r']? with
    | none => exact ⟨c₀, by rw [send_of_none hc]; exact hc₀, hmax⟩
    | some c =>
      by_cases hrr : r' = r
      · subst hrr
        obtain rfl := Option.some.inj (hc.symm.trans hc₀)
        rcases send_cases hc dest with ⟨c', hheap, _, hcount, _⟩ | ⟨_, hsend⟩
        · exact ⟨c', by simp [hheap, hc], hcount ▸ hmax⟩
        · exact ⟨{ c with inEncode := c.msgIn }, by simp [hsend, hc], hmax⟩
      · rcases send_cases hc dest with ⟨c', hheap, _⟩ | ⟨_, hsend⟩
        · exact ⟨c₀, by simp [hheap, hrr, hc₀], hmax⟩
        · exact ⟨c₀, by simp [hsend, hrr, hc₀], hmax⟩

/-! ### Containers never handed to `send` -/

/-- The container is not in the queue and nothing was sent from it. -/
def Unsent (r : Ref) (u : SipUdpConnection) : Prop := r ∉ u.sendQ ∧ sent r u = 0

theorem unsent_next (op : Op) (hnot : NotSent r op) (h : Unsent r u) :
    Unsent r (udpConnection.next u op) := by
  refine next_induct h op ?_ ?_ ?_ ?_ ?_
  · rintro u u' _ hsendQ hwire ⟨hmem, hsent⟩
    exact ⟨hsendQ ▸ hmem, by rw [sent, hwire]; exact hsent⟩
  · rintro now u r' c out ⟨hmem, hsent⟩ hr' _ _ hround
    have hne : r' ≠ r := by rintro rfl; exact hmem hr'
    have herase : r ∉ u.sendQ.erase r' := fun hr => hmem (List.mem_of_mem_erase hr)
    have hpush : r ∉ u.sendQ.erase r' ++ [r'] := by
      intro hr
      rcases List.mem_append.mp hr with hold | hnew
      · exact herase hold
      · exact hne (List.mem_singleton.mp hnew).symm
    cases hround with
    | dropped => exact ⟨herase, hsent⟩
    | again => exact ⟨hpush, hsent⟩
    | attempted u' _ _ hwire hsendQ =>
      refine ⟨?_, ?_⟩
      · rw [show (u', true).1.sendQ = _ from hsendQ]
        split
        · exact hpush
        · exact herase
      · rcases sent_attempted (r := r) hwire with hsame | ⟨heq, _⟩
        · exact hsame.trans hsent
        · exact absurd heq hne
  · intro c _; exact h
  · intro r' i _; exact h
  · rintro r' dest rfl
    have hne : r' ≠ r := hnot
    refine ⟨?_, by rw [sent, send_wire]; exact h.2⟩
    cases hc : u.heap[r']? with
    | none => rw [send_of_none hc]; exact h.1
    | some c =>
      rcases send_cases hc dest with ⟨c', _, _, _, _, _, hsendQ, _⟩ | ⟨_, hsend⟩
      · rw [hsendQ]
        intro hr
        rcases List.mem_append.mp hr with hold | hnew
        · exact h.1 hold
        · exact hne (List.mem_singleton.mp hnew).symm
      · rw [hsend]; exact h.1

theorem reachable_queueOk (hu : udpConnection.Reachable u) : QueueOk u :=
  hu.induct (fun _ hr => by cases hr) fun _ op h => queueOk_next op h

/-- **The retransmission budget.** In every run in which maxima are only lowered:
* no datagram is sent before the time its container is scheduled for;
* from a container that is handed to `send` once, at most as many datagrams are sent as its maximum
  says at that time;
* once a container's maximum is 0, no more datagrams are sent from it. -/
theorem retransmission_budget (ops : List Op) (hlower : udpConnection.Along Lowers .empty ops) :
    (∀ e ∈ (udpConnection.run .empty ops).wire, e.nextTx ≤ e.now) ∧
    (∀ pre r na post c, ops = pre ++ .send r (some na) :: post → (∀ op ∈ pre ++ post, NotSent r op) →
      (udpConnection.run .empty pre).heap[r]? = some c →
      sent r (udpConnection.run .empty ops) ≤ c.retransCount.toNat) ∧
    (∀ pre post r c, ops = pre ++ post → (udpConnection.run .empty pre).heap[r]? = some c →
      c.retransCount = 0 →
      sent r (udpConnection.run .empty ops) = sent r (udpConnection.run .empty pre)) := by
  refine ⟨?_, ?_, ?_⟩
  · exact Machine.run_of_step (P := OnTime) (fun _ op h => onTime_next op h) ops .empty
      (fun _ he => by cases he)
  · rintro pre r na post c rfl hnot hc
    have hpre : ∀ op ∈ pre, NotSent r op := fun op hop => hnot op (List.mem_append_left _ hop)
    have hpost : ∀ op ∈ post, NotSent r op := fun op hop => hnot op (List.mem_append_right _ hop)
    have hunsent : Unsent r (udpConnection.run .empty pre) :=
      Machine.run_of_guarded (fun _ op h hop => unsent_next op hop h) pre _ ⟨by simp [empty], rfl⟩
        (Machine.along_of_forall hpre _)
    have hlower' := ((udpConnection.along_append _ _ _ _).mp hlower).2.2
    have hbudget := Machine.run_of_guarded (fun _ op h hop => budget_next op hop.1 hop.2 h) post _
      (budget_send hc na) (hlower'.and (Machine.along_of_forall hpost _))
    have hle := hbudget.sent_le
    rw [hunsent.2, Nat.zero_add] at hle
    rw [Machine.run_append, Machine.run_cons]
    exact hle
  · rintro pre post r c rfl hc hzero
    have hpost := ((udpConnection.along_append _ _ _ _).mp hlower).2
    have hsilent : Silent r (sent r (udpConnection.run .empty pre)) (udpConnection.run .empty pre) :=
      ⟨reachable_queueOk ⟨pre, rfl⟩, ⟨c, hc, hzero.le⟩, rfl⟩
    rw [Machine.run_append]
    exact (Machine.run_of_guarded (fun _ op h hlow => silent_next op hlow h) post _ hsilent hpost).sent

/-- Every datagram goes out. -/
def delivering : Nat → Round := fun _ => ⟨0, 0, 100, [], []⟩

/-- An INVITE with a maximum of 2 is sent, and stopped after the first transmission. -/
def stoppedInvite : List Op :=
  [.newContainer ((SipMsgContainer.received
      (.command (inviteFrom "h".toList "1".toList))).setRetransmitMax 2),
    .send 0 (some ⟨1, 5060⟩), .tick none 0 delivering, .setRetransmitMax 0 0, .tick none 600 delivering]

theorem retransmission_budget_invite :
    sent 0 (udpConnection.run .empty stoppedInvite) ≤ 2 ∧
      sent 0 (udpConnection.run .empty stoppedInvite) =
        sent 0 (udpConnection.run .empty (stoppedInvite.take 4)) := by
  have hlower : udpConnection.Along Lowers .empty stoppedInvite := by
    refine ⟨trivial, trivial, trivial, ?_, trivial, trivial⟩
    intro c hc
    have hmax : ((udpConnection.run .empty (stoppedInvite.take 3)).heap[0]?).map (·.retransCount) =
        some 2 := by
      decide
    rw [show (udpConnection.run .empty (stoppedInvite.take 3)).heap[0]? = some c from hc,
      Option.map_some, Option.some_inj] at hmax
    rw [hmax]
    decide
  obtain ⟨_, hbudget, hsilent⟩ := retransmission_budget stoppedInvite hlower
  constructor
  · refine hbudget (stoppedInvite.take 1) 0 ⟨1, 5060⟩ (stoppedInvite.drop 2) _ rfl ?_ rfl
    intro op hop
    rcases List.mem_append.mp hop with hpre | hpost
    · rw [List.mem_singleton.mp hpre]; trivial
    · rcases hpost with _ | ⟨_, _ | ⟨_, _ | ⟨_, hnil⟩⟩⟩
      · trivial
      · trivial
      · trivial
      · cases hnil
  · exact hsilent (stoppedInvite.take 4) (stoppedInvite.drop 4) 0 _ rfl rfl rfl

end Vocal.Sip.SipUdpConnection
