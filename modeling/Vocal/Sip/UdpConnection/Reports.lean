import Vocal.Sip.UdpConnection.Attempts
import Vocal.Sip.UdpConnection.Budget

/-!
# Error responses

`tick` puts an error response into the stack for each transmission that fails, though it tries again later, and a
second one when the last transmission fails. So a request whose destination refuses it once is answered twice
(`refused_twice`); `reports_le_one_iff` says for which outcomes of its transmissions it is answered at most once.
-/

namespace Vocal.Sip.SipUdpConnection

variable {u : SipUdpConnection} {now : Nat} {rd : Round} {r : Ref} {c : SipMsgContainer} {m : SipCommand}

/-- The attempts of a container, from the time it is allocated. -/
def requestAttempts (pre : List Op) (c : SipMsgContainer) (post : List Op) : List Attempt :=
  (udpConnection.log attempts (udpConnection.run .empty (pre ++ [.newContainer c])) post).filter
    (·.container = (udpConnection.run .empty pre).heap.length)

/-- The error responses that are put into the stack for it. -/
def requestReports (pre : List Op) (c : SipMsgContainer) (post : List Op) : List SipMsg :=
  (requestAttempts pre c post).flatMap (·.reports)

/-- The error responses for an attempt to transmit the request `m`. -/
def reportCount (m : SipCommand) (e : Attempt) : Nat :=
  (if e.Failed then 1 else 0) + if e.Failed ∧ e.Last ∧ m.type ≠ .SIP_ACK then 1 else 0

/-- An error response to the request. -/
def IsReport (m : SipCommand) (report : SipMsg) : Prop := ∃ tag code, report = .status (.ofCommand tag m code)

/-- The container holds the request, and so does its text once it is queued; the attempts made are reported as
`reportCount` says. -/
structure Requested (r : Ref) (m : SipCommand) (u : SipUdpConnection) (l : List Attempt) : Prop where
  holds : ∃ c, u.heap[r]? = some c ∧ c.msgIn = some (.command m) ∧
    (c.inEncode = none ∨ c.inEncode = some (.command m))
  queued : r ∈ u.sendQ → ∀ c, u.heap[r]? = some c → c.inEncode = some (.command m)
  counts : ∀ e ∈ l, e.container = r → e.reports.length = reportCount m e ∧ ∀ report ∈ e.reports, IsReport m report

/-! ### Attempts -/

theorem failureReport_of_request (henc : c.inEncode = some (.command m)) (tag : Data) (code : Int) :
    failureReport tag c code = [.status (.ofCommand tag m code)] := by
  unfold failureReport
  rw [henc]

theorem reportsOf_eq {status : Option Int} {code : Int} (rd : Round) (hm : m.type ≠ .SIP_STATUS)
    (hmsg : c.msgIn = some (.command m)) (henc : c.inEncode = some (.command m))
    (hcode : code ≠ 0 ↔ status.any (· < 0) = true) :
    reportsOf rd c code =
      (if status.any (· < 0) = true then [.status (.ofCommand rd.statusToTag.1 m code)] else []) ++
        if status.any (· < 0) = true ∧ c.retransCount ≤ c.retransSoFar + 1 ∧ m.type ≠ .SIP_ACK then
          [.status (.ofCommand rd.statusToTag.2 m code)]
        else [] := by
  have hfirst : (code ≠ 0 ∧ c.msgIn.any (fun m => m.getType ≠ .SIP_STATUS) = true) ↔
      status.any (· < 0) = true := by
    rw [hmsg, ← hcode]
    simp [SipMsg.getType, hm]
  have hsecond : (¬ c.retransSoFar + 1 < c.retransCount ∧ code ≠ 0 ∧
      c.msgIn.any (fun m => m.getType ≠ .SIP_ACK ∧ m.getType ≠ .SIP_STATUS) = true) ↔
        status.any (· < 0) = true ∧ c.retransCount ≤ c.retransSoFar + 1 ∧ m.type ≠ .SIP_ACK := by
    rw [hmsg, ← hcode, not_lt]
    simp only [SipMsg.getType, Option.any_some, decide_eq_true_eq, hm, ne_eq, not_false_eq_true, and_true]
    exact and_left_comm
  unfold reportsOf
  rw [if_congr hfirst rfl rfl, if_congr hsecond rfl rfl, failureReport_of_request henc, failureReport_of_request henc]

theorem reportsOf_of_request {status : Option Int} {code : Int} (now : Nat) (rd : Round) (r : Ref) (hm : m.type ≠ .SIP_STATUS)
    (hmsg : c.msgIn = some (.command m)) (henc : c.inEncode = some (.command m))
    (hcode : code ≠ 0 ↔ status.any (· < 0) = true) :
    (reportsOf rd c code).length = reportCount m ⟨r, c, now, status, reportsOf rd c code⟩ ∧
      ∀ report ∈ reportsOf rd c code, IsReport m report := by
  have heq := reportsOf_eq rd hm hmsg henc hcode
  constructor
  · show _ = (if status.any (· < 0) = true then 1 else 0) +
      if status.any (· < 0) = true ∧ c.retransCount ≤ c.retransSoFar + 1 ∧ m.type ≠ .SIP_ACK then 1 else 0
    rw [heq, List.length_append]
    congr 1
    · split <;> rfl
    · split <;> rfl
  · intro report hreport
    rw [heq] at hreport
    rcases List.mem_append.mp hreport with h | h
    · split at h
      · exact ⟨_, _, List.mem_singleton.mp h⟩
      · cases h
    · split at h
      · exact ⟨_, _, List.mem_singleton.mp h⟩
      · cases h

theorem Tried.requested {r' : Ref} {l : List Attempt} {e : Option Attempt} {out : SipUdpConnection × Bool}
    (htried : Tried now rd u r' c e out) (hr' : r' ∈ u.sendQ) (hc : u.heap[r']? = some c)
    (hm : m.type ≠ .SIP_STATUS) (h : Requested r m u l) : Requested r m out.1 (l ++ e.toList) := by
  obtain ⟨⟨c₀, hc₀, hmsg, henc⟩, hqueued, hcounts⟩ := h
  have hmem : r ∈ out.1.sendQ → r ∈ u.sendQ := htried.mem_sendQ hr'
  cases htried with
  | idle out hheap _ _ _ =>
    rw [Option.toList_none, List.append_nil]
    refine ⟨⟨c₀, hheap ▸ hc₀, hmsg, henc⟩, ?_, hcounts⟩
    intro hr
    rw [hheap]
    exact hqueued (hmem hr)
  | tried status code u' _ hcode hheap _ _ _ =>
    show Requested r m u' (l ++ [⟨r', c, now, status, reportsOf rd c code⟩])
    by_cases hrr : r' = r
    · -- the attempt is the container's own
      subst hrr
      obtain rfl := Option.some.inj (hc.symm.trans hc₀)
      have hget : u'.heap[r']? = some (counted now c) := by simp [hheap, hc]
      have hreports := reportsOf_of_request now rd r' hm hmsg (hqueued hr' c hc) hcode
      refine ⟨⟨_, hget, by rwa [counted_msgIn], by rwa [counted_inEncode]⟩, ?_, ?_⟩
      · intro _ c' hc'
        obtain rfl := Option.some.inj (hget.symm.trans hc')
        rw [counted_inEncode]
        exact hqueued hr' c hc
      · intro e he hcontainer
        rcases List.mem_append.mp he with he | he
        · exact hcounts e he hcontainer
        · rw [List.mem_singleton.mp he]
          exact hreports
    · have hget : u'.heap[r]? = u.heap[r]? := by simp [hheap, hrr]
      refine ⟨⟨c₀, hget ▸ hc₀, hmsg, henc⟩, ?_, ?_⟩
      · intro hr c' hc'
        exact hqueued (hmem hr) c' (hget ▸ hc')
      · intro e he hcontainer
        rcases List.mem_append.mp he with he | he
        · exact hcounts e he hcontainer
        · rw [List.mem_singleton.mp he] at hcontainer
          exact absurd hcontainer hrr

theorem requested_next {l : List Attempt} (op : Op) (hm : m.type ≠ .SIP_STATUS) (h : Requested r m u l) :
    Requested r m (udpConnection.next u op) (l ++ u.attempts op) := by
  refine attempts_induct (P := Requested r m) h op ?_ ?_ ?_ ?_ ?_
  · rintro u u' hheap hsendQ ⟨hholds, hqueued, hcounts⟩
    exact ⟨hheap ▸ hholds, by rw [hheap, hsendQ]; exact hqueued, hcounts⟩
  · intro now u l rd r' c e out h hr' hc _ htried
    exact htried.requested hr' hc hm h
  · intro c _
    obtain ⟨⟨c₀, hc₀, hmsg, henc⟩, hqueued, hcounts⟩ := h
    have hget : (u.heap ++ [c])[r]? = some c₀ := Store.getElem?_append_of_some hc₀ [c]
    refine ⟨⟨c₀, hget, hmsg, henc⟩, ?_, hcounts⟩
    intro hr c' hc'
    obtain rfl := Option.some.inj (hget.symm.trans hc')
    exact hqueued hr c₀ hc₀
  · intro r' i _
    obtain ⟨⟨c₀, hc₀, hmsg, henc⟩, hqueued, hcounts⟩ := h
    have hget : (u.heap.modify r' (.setRetransmitMax i))[r]? =
        some (if r' = r then c₀.setRetransmitMax i else c₀) := by
      simp [List.getElem?_modify, hc₀]
    have hsame : ∀ c', c' = (if r' = r then c₀.setRetransmitMax i else c₀) →
        c'.msgIn = c₀.msgIn ∧ c'.inEncode = c₀.inEncode := by
      rintro c' rfl
      split
      · exact ⟨rfl, rfl⟩
      · exact ⟨rfl, rfl⟩
    obtain ⟨hmsg', henc'⟩ := hsame _ rfl
    refine ⟨⟨_, hget, hmsg'.trans hmsg, henc' ▸ henc⟩, ?_, hcounts⟩
    intro hr c' hc'
    obtain rfl := Option.some.inj (hget.symm.trans hc')
    exact henc'.trans (hqueued hr c₀ hc₀)
  · intro r' dest _
    obtain ⟨⟨c₀, hc₀, hmsg, henc⟩, hqueued, hcounts⟩ := h
    by_cases hrr : r' = r
    · -- the request is encoded when it is queued
      subst hrr
      have hlt : r' < (u.send r' dest).heap.length := by
        rw [length_heap_send]
        exact (List.getElem?_eq_some_iff.mp hc₀).1
      have hencoded : ∀ c', (u.send r' dest).heap[r']? = some c' →
          c'.msgIn = some (.command m) ∧ c'.inEncode = some (.command m) := by
        intro c' hc'
        obtain ⟨hmsg', -, henc'⟩ := send_container hc₀ hc'
        refine ⟨hmsg'.trans hmsg, ?_⟩
        rcases henc with hnone | hsome
        · rw [henc', if_pos hnone, hmsg]
        · rw [henc', if_neg (by simp [hsome]), hsome]
      have hget := List.getElem?_eq_getElem hlt
      obtain ⟨hmsg', henc'⟩ := hencoded _ hget
      exact ⟨⟨_, hget, hmsg', Or.inr henc'⟩, fun _ c' hc' => (hencoded c' hc').2, hcounts⟩
    · obtain ⟨hheap, hcount⟩ := send_other (u := u) dest hrr
      refine ⟨⟨c₀, hheap ▸ hc₀, hmsg, henc⟩, ?_, hcounts⟩
      intro hr c' hc'
      refine hqueued ?_ c' (hheap ▸ hc')
      rw [← List.count_pos_iff, ← hcount]
      exact List.count_pos_iff.mpr hr

/-! ### Runs -/

theorem requested_run (pre post : List Op) (hm : m.type ≠ .SIP_STATUS) (hmsg : c.msgIn = some (.command m))
    (henc : c.inEncode = none) :
    ∀ e ∈ requestAttempts pre c post, e.reports.length = reportCount m e ∧ ∀ report ∈ e.reports, IsReport m report := by
  have hstart : Requested (udpConnection.run .empty pre).heap.length m
      (udpConnection.run .empty (pre ++ [.newContainer c])) [] := by
    rw [Machine.run_concat]
    have hget : ((udpConnection.run .empty pre).heap ++ [c])[(udpConnection.run .empty pre).heap.length]? = some c := by
      simp
    refine ⟨⟨c, hget, hmsg, Or.inl henc⟩, ?_, by simp⟩
    intro hr
    obtain ⟨c', hc', -⟩ := reachable_queueOk ⟨pre, rfl⟩ _ hr
    exact absurd (List.getElem?_eq_some_iff.mp hc').1 (lt_irrefl _)
  have hrun := Machine.log_of_guarded (M := udpConnection) (P := Requested _ m) (G := fun _ _ => True)
    (fun s l op h _ => requested_next op hm h) post _ [] hstart (Machine.along_of_forall (fun _ _ => trivial) _)
  intro e he
  obtain ⟨he, hcontainer⟩ := List.mem_filter.mp he
  exact hrun.counts e he (of_decide_eq_true hcontainer)

/-- A list of numbers, each the sum of what two conditions say, where the second implies the first, is at most 1 if
the first holds once at most, and the second never. -/
theorem sum_le_one_iff {α : Type} {l : List α} {n : α → Nat} {p q : α → Prop} [DecidablePred p] [DecidablePred q]
    (hn : ∀ a ∈ l, n a = (if p a then 1 else 0) + if p a ∧ q a then 1 else 0) :
    (l.map n).sum ≤ 1 ↔ l.countP p ≤ 1 ∧ ∀ a ∈ l, p a → ¬ q a := by
  have hsum : (l.map n).sum = l.countP p + l.countP fun a => p a ∧ q a := by
    induction l with
    | nil => rfl
    | cons a l ih =>
      rw [List.map_cons, List.sum_cons, hn a (List.mem_cons_self ..), List.countP_cons, List.countP_cons,
        ih fun b hb => hn b (List.mem_cons_of_mem _ hb)]
      simp only [decide_eq_true_eq]
      omega
  have hle : (l.countP fun a => p a ∧ q a) ≤ l.countP p :=
    List.countP_mono_left fun a _ h => by simpa using (of_decide_eq_true h).1
  have hzero : (l.countP fun a => p a ∧ q a) = 0 ↔ ∀ a ∈ l, p a → ¬ q a := by
    rw [List.countP_eq_zero]
    simp
  rw [hsum, ← hzero]
  omega

/-- **Error responses.** A tick puts what arrives and the error responses of its attempts into the receive queue,
and nothing else. For each request, over every run and whatever its transmissions end with, those of its attempts
are responses to it; there is at most one exactly if at most one transmission fails, and, unless the request is an
ACK, not one that reaches the maximum. -/
theorem reports_le_one_iff (pre post : List Op) (c : SipMsgContainer) (m : SipCommand) (hm : m.type ≠ .SIP_STATUS)
    (hmsg : c.msgIn = some (.command m)) (henc : c.inEncode = none) :
    (∀ u arrived now rounds, (tick u arrived now rounds).rcvFifo =
      u.rcvFifo ++ arrived.toList ++ (u.attempts (.tick arrived now rounds)).flatMap (·.reports)) ∧
    (∀ report ∈ requestReports pre c post, IsReport m report) ∧
      ((requestReports pre c post).length ≤ 1 ↔
        (requestAttempts pre c post).countP (·.Failed) ≤ 1 ∧
          ∀ e ∈ requestAttempts pre c post, e.Failed → e.Last → m.type = .SIP_ACK) := by
  have hrun := requested_run pre post hm hmsg henc
  refine ⟨tick_rcvFifo, ?_, ?_⟩
  · intro report hreport
    obtain ⟨e, he, hmem⟩ := List.mem_flatMap.mp hreport
    exact (hrun e he).2 report hmem
  · have hn : ∀ e ∈ requestAttempts pre c post, e.reports.length =
        (if e.Failed then 1 else 0) + if e.Failed ∧ e.Last ∧ m.type ≠ .SIP_ACK then 1 else 0 :=
      fun e he => (hrun e he).1
    unfold requestReports
    rw [List.length_flatMap, sum_le_one_iff hn]
    simp only [not_and, not_not, ne_eq]

def invite : SipCommand := inviteFrom "h".toList "1".toList

/-- The destination refuses every datagram. -/
def refusing : Nat → Round := fun _ => ⟨0, 0, -ECONNREFUSED, [], []⟩

def refusedTwice : List Op := [.send 0 (some ⟨1, 5060⟩), .tick none 0 refusing, .tick none 500 refusing]

theorem reports_of_invite :
    (requestReports [] (.received (.command invite)) refusedTwice).length ≤ 1 ↔
      (requestAttempts [] (.received (.command invite)) refusedTwice).countP (·.Failed) ≤ 1 ∧
        ∀ e ∈ requestAttempts [] (.received (.command invite)) refusedTwice,
          e.Failed → e.Last → invite.type = .SIP_ACK :=
  (reports_le_one_iff [] refusedTwice _ invite (by decide) rfl rfl).2.2

/-- An INVITE that is sent once and refused is answered twice. -/
theorem refused_twice :
    (requestReports [] (.received (.command invite)) [.send 0 (some ⟨1, 5060⟩), .tick none 0 refusing]).length = 2 ∧
      (udpConnection.run .empty [.newContainer (.received (.command invite)), .send 0 (some ⟨1, 5060⟩),
        .tick none 0 refusing]).rcvFifo =
        requestReports [] (.received (.command invite)) [.send 0 (some ⟨1, 5060⟩), .tick none 0 refusing] := by
  decide

end Vocal.Sip.SipUdpConnection
