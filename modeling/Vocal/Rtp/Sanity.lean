import Vocal.Rtp.Queue

/-!
# Sanity of the jitter buffer

The loops and the operations as steps on the queue, and from them when a run keeps the buffer in the shape
that `verifyJbSanity` asserts. Two branches of `setRtpData` lose it: a packet behind a full queue whose first
value has the packet's own number, and a late packet for the play position of a full buffer with another
number in it.
-/

namespace Vocal.Rtp

/-! ### Differences of sequence numbers -/

theorem RtpSeqDifference_comm (a b : UInt16) : RtpSeqDifference a b = -RtpSeqDifference b a := by
  have ha := a.toNat_lt
  have hb := b.toNat_lt
  have heq : a = b ↔ a.toNat = b.toNat := UInt16.toNat_inj.symm
  have heq' : b = a ↔ b.toNat = a.toNat := UInt16.toNat_inj.symm
  simp only [RtpSeqDifference, RTP_SEQ_MOD, heq, heq']
  split_ifs <;> omega

theorem RtpSeqGreater_iff {a b : UInt16} : RtpSeqGreater a b = true ↔ 0 < RtpSeqDifference a b :=
  decide_eq_true_iff

theorem RtpSeqDifference_succ {a b : UInt16} (h : 1 < RtpSeqDifference a b) :
    RtpSeqDifference a (b + 1) = RtpSeqDifference a b - 1 := by
  have ha := a.toNat_lt
  have hb := b.toNat_lt
  have hsucc : (b + 1).toNat = (b.toNat + 1) % 65536 := by simp [UInt16.toNat_add]
  have heq : a = b ↔ a.toNat = b.toNat := UInt16.toNat_inj.symm
  have heq' : a = b + 1 ↔ a.toNat = (b + 1).toNat := UInt16.toNat_inj.symm
  simp only [RtpSeqDifference, RTP_SEQ_MOD, heq, heq', hsucc] at h ⊢
  split_ifs at h
  all_goals split_ifs <;> omega

namespace RtpReceiver

open Slots (slot Holds)

variable {n : Nat} {s : RtpReceiver n} {q l : List RtpData} {pkt : RtpPacket} {lastPkt : RtpData}

/-! ### Silence -/

theorem getLast?_rtake_append (l : List RtpData) (d : RtpData) (hpos : 0 < n) :
    ((l ++ [d]).rtake n).getLast? = some d := by
  obtain ⟨m, rfl⟩ := Nat.exists_eq_add_one_of_ne_zero hpos.ne'
  rw [List.rtake_concat_succ, List.getLast?_append]
  rfl

@[simp] theorem sampleSize_insertSilence (s : RtpReceiver n) (rtp_time : UInt32) (rtp_seq : UInt16) :
    (s.insertSilenceRtpData rtp_time rtp_seq).sampleSize = s.sampleSize := by
  rw [insertSilenceRtpData]
  split <;> rfl

theorem exists_silence (h : Queue s (l.rtake n)) (rtp_time : UInt32) (rtp_seq : UInt16) :
    ∃ d : RtpData, d.is_silence_fill = true ∧ d.rtp_time = rtp_time ∧ d.rtp_seq_no = rtp_seq ∧
      Queue (s.insertSilenceRtpData rtp_time rtp_seq) ((l ++ [d]).rtake n) ∧
      (s.insertSilenceRtpData rtp_time rtp_seq).getLastRtpData = some d := by
  have hnext := queue_insertSilence h rtp_time rtp_seq
  rw [rtake_append_rtake l _ s.playPos.pos] at hnext
  refine ⟨s.silence rtp_time rtp_seq, rfl, rfl, rfl, hnext, ?_⟩
  rw [getLastRtpData_eq hnext, getLast?_rtake_append l _ s.playPos.pos]

theorem queue_primeSilence (pkt : RtpPacket) (m : Nat) (h : Queue s (l.rtake n)) :
    ∃ fill : List RtpData, fill.length = m ∧ (∀ d ∈ fill, d.is_silence_fill = true) ∧
      Queue (primeSilence pkt m s) ((l ++ fill).rtake n) := by
  induction m generalizing s l with
  | zero => exact ⟨[], rfl, by simp, by simpa [primeSilence] using h⟩
  | succ m ih =>
    obtain ⟨d, hd, -, -, hnext, -⟩ := exists_silence h (pkt.rtpTime - s.sampleSize * .ofNat (m + 1))
      (pkt.sequence - .ofNat (m + 1))
    obtain ⟨fill, hlen, hfill, hq⟩ := ih hnext
    refine ⟨d :: fill, by simp [hlen], List.forall_mem_cons.mpr ⟨hd, hfill⟩, ?_⟩
    rw [List.append_cons]
    exact hq

/-- The number of silences that `patchSilence` inserts after a number and a time. -/
def patches (pkt : RtpPacket) (sampleSize : UInt32) : Nat → UInt32 → UInt16 → Nat
  | 0, _, _ => 0
  | turns + 1, rtp_time, rtp_seq =>
    if RtpTimeGreater (pkt.rtpTime - sampleSize) rtp_time then
      if RtpSeqDifference pkt.sequence rtp_seq ≤ 1 then 0
      else patches pkt sampleSize turns (rtp_time + sampleSize) (rtp_seq + 1) + 1
    else 0

theorem queue_patchSilence (pkt : RtpPacket) (m : Nat) (lastPkt : RtpData) (h : Queue s (l.rtake n)) :
    ∃ fill : List RtpData, fill.length = patches pkt s.sampleSize m lastPkt.rtp_time lastPkt.rtp_seq_no ∧
      (∀ d ∈ fill, d.is_silence_fill = true) ∧
      Queue (patchSilence pkt m lastPkt s) ((l ++ fill).rtake n) := by
  induction m generalizing s l lastPkt with
  | zero => exact ⟨[], rfl, by simp, by simpa [patchSilence] using h⟩
  | succ m ih =>
    rw [patchSilence, patches]
    split
    · split
      · exact ⟨[], rfl, by simp, by simpa using h⟩
      · obtain ⟨d, hd, htime, hseq, hnext, hlast⟩ :=
          exists_silence h (lastPkt.rtp_time + s.sampleSize) (lastPkt.rtp_seq_no + 1)
        obtain ⟨fill, hlen, hfill, hq⟩ := ih d hnext
        rw [htime, hseq, sampleSize_insertSilence] at hlen
        refine ⟨d :: fill, ?_, List.forall_mem_cons.mpr ⟨hd, hfill⟩, ?_⟩
        · rw [List.length_cons, hlen]
        · simp only [hlast]
          rw [List.append_cons]
          exact hq
    · exact ⟨[], rfl, by simp, by simpa using h⟩

/-- The loop ends by itself before it runs out of turns. -/
theorem patchSilence_turns (h : Queue s (l.rtake n)) {m : Nat} (hm : turns pkt lastPkt ≤ m) :
    patchSilence pkt (m + 1) lastPkt s = patchSilence pkt m lastPkt s := by
  induction m generalizing s l lastPkt with
  | zero =>
    rw [turns] at hm
    rw [patchSilence, patchSilence]
    split
    · rw [if_pos (by omega)]
    · rfl
  | succ m ih =>
    rw [patchSilence, patchSilence]
    split
    · split
      · rfl
      · rename_i hdiff
        obtain ⟨d, -, -, hseq, hnext, hlast⟩ :=
          exists_silence h (lastPkt.rtp_time + s.sampleSize) (lastPkt.rtp_seq_no + 1)
        simp only [hlast]
        apply ih hnext
        rw [turns] at hm
        rw [turns, hseq, RtpSeqDifference_succ (by omega)]
        omega
    · rfl

theorem patches_lt (sampleSize rtp_time : UInt32) {rtp_seq : UInt16} (m : Nat)
    (hpos : 0 < RtpSeqDifference pkt.sequence rtp_seq) :
    (patches pkt sampleSize m rtp_time rtp_seq : Int) < RtpSeqDifference pkt.sequence rtp_seq := by
  induction m generalizing rtp_time rtp_seq with
  | zero => simpa [patches] using hpos
  | succ m ih =>
    rw [patches]
    split_ifs with htime hdiff
    · simpa using hpos
    · have hsucc := RtpSeqDifference_succ (lt_of_not_ge hdiff)
      have hlt := @ih (rtp_time + sampleSize) (rtp_seq + 1) (by omega)
      omega
    · simpa using hpos

/-! ### Packets -/

theorem rtake_of_length_le (hle : q.length ≤ n) : q.rtake n = q := by
  rw [List.rtake, Nat.sub_eq_zero_of_le hle, List.drop_zero]

theorem queue_startBuffer (pkt : RtpPacket) (h : Queue s []) :
    ∃ fill : List RtpData, (∀ d ∈ fill, d.is_silence_fill = true) ∧
      Queue (s.startBuffer pkt) (fill ++ [voice pkt]) := by
  have hpos := s.playPos.pos
  obtain ⟨fill, hlen, hfill, hq⟩ := queue_primeSilence pkt (n / 2 - 1) (l := []) (by simpa using h)
  refine ⟨fill, hfill, ?_⟩
  have hshort : fill.length < n := by omega
  rw [List.nil_append, rtake_of_length_le hshort.le] at hq
  have happend := queue_append pkt hq (by omega)
  rwa [rtake_append fill _ hshort.le hpos, if_pos hshort] at happend

/-- The values in the buffer together with the silence that is patched in before a packet. -/
def filled (s : RtpReceiver n) (pkt : RtpPacket) (lastPkt : RtpData) : Nat :=
  s.getJitterPktsInQueueCount +
    patches pkt s.sampleSize (turns pkt lastPkt) lastPkt.rtp_time lastPkt.rtp_seq_no

/-- The defect: a packet for which `setRtpData` moves only one of the positions. A packet that is behind the
last one meets its own number in the play position, or a late one meets another number there, each time in a
full buffer. -/
def Clashes (s : RtpReceiver n) (pkt : RtpPacket) : Prop :=
  ∃ lastPkt ∈ s.getLastRtpData, RtpSeqDifference pkt.sequence lastPkt.rtp_seq_no ≤ n ∧ 1 < n ∧
    if RtpSeqGreater pkt.sequence lastPkt.rtp_seq_no then
      n ≤ s.filled pkt lastPkt ∧
        s.sequenceAt (slot s.playPos (s.filled pkt lastPkt - n)) = some pkt.sequence
    else
      s.getJitterPktsInQueueCount = n ∧ RtpSeqDifference lastPkt.rtp_seq_no pkt.sequence + 1 = n ∧
        s.sequenceAt s.playPos ≠ some pkt.sequence

/-- What a packet does to the queue. -/
inductive Received (n : Nat) (pkt : RtpPacket) : List RtpData → List RtpData → Prop
  /-- It starts an empty buffer, or one that was emptied because the packet is far ahead. -/
  | start {q fill : List RtpData} :
      (∀ lastPkt ∈ q.getLast?, (n : Int) < RtpSeqDifference pkt.sequence lastPkt.rtp_seq_no) →
      (∀ d ∈ fill, d.is_silence_fill = true) → Received n pkt q (fill ++ [voice pkt])
  /-- It is behind the last one. -/
  | append {q fill : List RtpData} {lastPkt : RtpData} : q.getLast? = some lastPkt →
      RtpSeqGreater pkt.sequence lastPkt.rtp_seq_no = true →
      (∀ d ∈ fill, d.is_silence_fill = true) →
      Received n pkt q ((q ++ fill ++ [voice pkt]).rtake n)
  /-- It is too late. -/
  | drop {q : List RtpData} : Received n pkt q q
  /-- It is late and takes the place of a value. -/
  | set {q : List RtpData} {lastPkt : RtpData} {k : Nat} : q.getLast? = some lastPkt →
      RtpSeqGreater pkt.sequence lastPkt.rtp_seq_no = false → k < q.length →
      RtpSeqDifference lastPkt.rtp_seq_no pkt.sequence + 1 = (q.length - k : Nat) →
      Received n pkt q (q.set k (voice pkt))

/-- The buffer behind the silence that is patched in before a packet: when it is full, what is in the play
position was in the buffer before. -/
theorem queue_patched (h : Queue s q) (hpos : 0 < RtpSeqDifference pkt.sequence lastPkt.rtp_seq_no)
    (hearly : RtpSeqDifference pkt.sequence lastPkt.rtp_seq_no ≤ n) :
    ∃ fill : List RtpData, (∀ d ∈ fill, d.is_silence_fill = true) ∧
      Queue (patchSilence pkt (turns pkt lastPkt) lastPkt s) ((q ++ fill).rtake n) ∧
      (((q ++ fill).rtake n).length = n ↔ n ≤ s.filled pkt lastPkt) ∧
      (n ≤ s.filled pkt lastPkt → (patchSilence pkt (turns pkt lastPkt) lastPkt s).sequenceAt
          (patchSilence pkt (turns pkt lastPkt) lastPkt s).playPos =
        s.sequenceAt (slot s.playPos (s.filled pkt lastPkt - n))) := by
  have hle := h.holds.le
  have hn := s.playPos.pos
  obtain ⟨fill, hlen, hfill, hq⟩ :=
    queue_patchSilence pkt (turns pkt lastPkt) lastPkt ((rtake_of_length_le hle).symm ▸ h)
  have hlt := patches_lt s.sampleSize lastPkt.rtp_time (turns pkt lastPkt) hpos
  have hfilled : s.filled pkt lastPkt = q.length + fill.length := by rw [filled, count_eq h, hlen]
  have hlength : ((q ++ fill).rtake n).length = q.length + fill.length - (q.length + fill.length - n) := by
    rw [List.rtake, List.length_drop, List.length_append]
  refine ⟨fill, hfill, hq, by omega, fun hfull => ?_⟩
  have hhead := sequenceAt_slot hq (by omega : 0 < ((q ++ fill).rtake n).length)
  rw [Slots.slot_zero] at hhead
  rw [hhead, hfilled, sequenceAt_slot h (by omega), List.rtake, List.getElem?_drop, Nat.add_zero,
    List.length_append, List.getElem?_append_left (by omega)]

/-- A packet that does not meet the defect changes the queue as it should. -/
theorem exists_received (h : Queue s q) (hok : ¬ Clashes s pkt) :
    ∃ q', Received n pkt q q' ∧ Queue (s.readNetwork pkt) q' := by
  have hlast := getLastRtpData_eq h
  rw [readNetwork]
  cases hq : q.getLast? with
  | none =>
    rw [hlast, hq]
    rw [List.getLast?_eq_none_iff] at hq
    subst hq
    obtain ⟨fill, hfill, hstart⟩ := queue_startBuffer pkt h
    exact ⟨_, .start (by simp) hfill, hstart⟩
  | some lastPkt =>
    rw [hlast, hq]
    rw [hq] at hlast
    simp only
    split_ifs with hearly hgreater
    · obtain ⟨fill, hfill, hstart⟩ := queue_startBuffer pkt (queue_clear s)
      exact ⟨_, .start (by simpa [hq] using hearly) hfill, hstart⟩
    · obtain ⟨fill, hfill, hpatched, hfull, hhead⟩ :=
        queue_patched h (RtpSeqGreater_iff.mp hgreater) (not_lt.mp hearly)
      have happend := queue_append pkt hpatched ?_
      · rw [rtake_append_rtake _ _ s.playPos.pos] at happend
        exact ⟨_, .append hq hgreater hfill, happend⟩
      · intro hlen hn hseq
        have hfilled := hfull.mp hlen
        rw [hhead hfilled] at hseq
        exact hok ⟨lastPkt, hlast, not_lt.mp hearly, hn, by rw [if_pos hgreater]; exact ⟨hfilled, hseq⟩⟩
    · rw [insertOutOfOrder, count_eq h]
      split_ifs with hold
      · exact ⟨q, .drop, h⟩
      · have hdiff : 0 ≤ RtpSeqDifference lastPkt.rtp_seq_no pkt.sequence := by
          rw [RtpSeqDifference_comm]
          rw [RtpSeqGreater_iff] at hgreater
          omega
        obtain ⟨sd, hsd⟩ := Int.eq_ofNat_of_zero_le hdiff
        rw [hsd] at hold ⊢
        rw [calculatePreviousInPos_eq h (by omega) (by omega)]
        refine ⟨_, .set hq (Bool.eq_false_iff.mpr hgreater) (k := q.length - (sd + 1)) (by omega)
          (by omega), queue_set h (by omega) ?_⟩
        intro hzero hfull hn
        by_contra hseq
        refine hok ⟨lastPkt, hlast, not_lt.mp hearly, hn, ?_⟩
        rw [if_neg hgreater, count_eq h]
        exact ⟨hfull, by omega, hseq⟩

theorem not_queue_readNetwork (h : Queue s q) (hclash : Clashes s pkt) {q' : List RtpData} :
    ¬ Queue (s.readNetwork pkt) q' := by
  obtain ⟨lastPkt, hlast, hearly, hn, hclash⟩ := hclash
  rw [readNetwork, hlast]
  simp only
  rw [if_neg (not_lt.mpr hearly)]
  split
  · rename_i hgreater
    rw [if_pos hgreater] at hclash
    obtain ⟨fill, -, hpatched, hfull, hhead⟩ := queue_patched h (RtpSeqGreater_iff.mp hgreater) hearly
    exact not_queue_append hpatched (hfull.mpr hclash.1) hn ((hhead hclash.1).trans hclash.2)
  · rename_i hlate
    rw [if_neg hlate, count_eq h] at hclash
    obtain ⟨hfull, hsd, hseq⟩ := hclash
    rw [insertOutOfOrder, count_eq h, if_neg (by omega), hsd, Int.toNat_natCast,
      calculatePreviousInPos_eq h (by omega) (by omega), hfull, Nat.sub_self, Slots.slot_zero]
    exact not_queue_set h hfull hn hseq

/-! ### Playing -/

/-- What `retrieve` takes from the queue. -/
inductive Returned : List RtpData → Option RtpData → List RtpData → Prop
  | empty : Returned [] none []
  | next {d : RtpData} {q : List RtpData} : Returned (d :: q) (some d) q
  /-- One silence is dropped. -/
  | skip {x d : RtpData} {q : List RtpData} : x.is_silence_fill = true → Returned (x :: d :: q) (some d) q

theorem playing_eq (h : Queue s q) : s.playing = q.head? := h.holds.head

theorem queue_take {d : RtpData} (h : Queue s (d :: q)) (jbp : RtpData) : Queue (s.take jbp) q := by
  constructor
  · show Holds (s.setSlot s.playPos (some { jbp with is_in_use := false })).live (incrementPos s.playPos) q
    rw [live_setSlot, incrementPos_eq]
    exact h.holds.pop
  · show s.inPos = slot (incrementPos s.playPos) q.length
    rw [h.inPos, incrementPos_eq, Slots.slot_slot, List.length_cons, Nat.add_comm]

theorem exists_returned (h : Queue s q) :
    ∃ s' d q', s.retrieve = some (s', d) ∧ Returned q d q' ∧ Queue s' q' := by
  have hplaying := playing_eq h
  rw [retrieve, count_eq h]
  cases q with
  | nil => exact ⟨s, none, [], if_pos rfl, .empty, h⟩
  | cons x q =>
    rw [if_neg (by simp), hplaying, List.head?_cons, Option.bind_eq_bind, Option.bind_some]
    have htake := queue_take h x
    split
    · rename_i hdrop
      obtain ⟨hsilence, -, hlen⟩ := hdrop
      obtain ⟨d, q, rfl⟩ := List.exists_cons_of_length_pos (l := q) (by rw [List.length_cons] at hlen; omega)
      refine ⟨(s.take x).take d, some d, q, ?_, .skip hsilence, queue_take htake d⟩
      simp only [playing_eq htake, List.head?_cons, Option.bind_some]
    · exact ⟨s.take x, some x, q, rfl, .next, htake⟩

/-! ### Runs -/

/-- The operations on the buffer. -/
inductive Op
  | packet (pkt : RtpPacket)
  | retrieve

/-- One operation: a packet is read, or data is retrieved for playing. -/
def step (s : RtpReceiver n) : Op → Option (RtpReceiver n × Option RtpData)
  | .packet pkt => some (s.readNetwork pkt, none)
  | .retrieve => s.retrieve

/-- The receiver as `constructRtpReceiver` leaves it. -/
def init (n : Nat) (hn : 0 < n) (sampleSize : UInt32) : RtpReceiver n where
  inPos := ⟨0, hn⟩
  playPos := ⟨0, hn⟩
  jitterBuffer := fun _ => none
  sampleSize := sampleSize

/-- A run of operations, up to the first that has no result. -/
def run (s : RtpReceiver n) : List Op → Option (RtpReceiver n)
  | [] => some s
  | op :: ops => do
    let (s, _) ← s.step op
    s.run ops

/-- The operation does not meet the defect. -/
def Keeps (s : RtpReceiver n) : Op → Prop
  | .packet pkt => ¬ Clashes s pkt
  | .retrieve => True

/-- No operation of the run meets the defect. -/
def KeepsAll (s : RtpReceiver n) : List Op → Prop
  | [] => True
  | op :: ops => s.Keeps op ∧ ∀ next ∈ s.step op, next.1.KeepsAll ops

instance (s : RtpReceiver n) (pkt : RtpPacket) : Decidable (Clashes s pkt) :=
  inferInstanceAs (Decidable (∃ lastPkt ∈ s.getLastRtpData, _))

instance (s : RtpReceiver n) : (op : Op) → Decidable (s.Keeps op)
  | .packet pkt => inferInstanceAs (Decidable (¬ Clashes s pkt))
  | .retrieve => isTrue trivial

instance decidableKeepsAll (s : RtpReceiver n) : (ops : List Op) → Decidable (s.KeepsAll ops)
  | [] => isTrue trivial
  | op :: ops =>
    have : ∀ next : RtpReceiver n × Option RtpData, Decidable (next.1.KeepsAll ops) :=
      fun next => decidableKeepsAll next.1 ops
    inferInstanceAs (Decidable (s.Keeps op ∧ ∀ next ∈ s.step op, next.1.KeepsAll ops))

theorem queue_init (hn : 0 < n) (sampleSize : UInt32) : Queue (init n hn sampleSize) [] :=
  ⟨Holds.empty _, (Slots.slot_zero _).symm⟩

/-- A step of a sane receiver has a result; it is sane again when the step does not meet the defect. -/
theorem verifyJbSanity_step (h : s.verifyJbSanity = true) (op : Op) :
    ∃ s' d, s.step op = some (s', d) ∧ (s'.verifyJbSanity = true ↔ s.Keeps op) := by
  obtain ⟨q, hq⟩ := (verifyJbSanity_iff s).mp h
  cases op with
  | packet pkt =>
    refine ⟨_, none, rfl, ?_⟩
    rw [verifyJbSanity_iff]
    constructor
    · rintro ⟨q', hq'⟩ hclash
      exact not_queue_readNetwork hq hclash hq'
    · intro hok
      obtain ⟨q', -, hq'⟩ := exists_received hq hok
      exact ⟨q', hq'⟩
  | retrieve =>
    obtain ⟨s', d, q', hstep, -, hq'⟩ := exists_returned hq
    refine ⟨s', d, hstep, ?_⟩
    rw [verifyJbSanity_iff]
    exact iff_of_true ⟨q', hq'⟩ trivial

/-- The states of a run are sane, each of them, when no step meets the defect, and only then. -/
theorem sane_run_iff (h : s.verifyJbSanity = true) (ops : List Op) :
    (∀ k, ∃ s', s.run (ops.take k) = some s' ∧ s'.verifyJbSanity = true) ↔ s.KeepsAll ops := by
  induction ops generalizing s with
  | nil => exact iff_of_true (fun k => ⟨s, by simp [run], h⟩) trivial
  | cons op ops ih =>
    obtain ⟨s', d, hstep, hsane⟩ := verifyJbSanity_step h op
    have hrun : ∀ k, s.run ((op :: ops).take (k + 1)) = s'.run (ops.take k) := by
      intro k
      rw [List.take_succ_cons, run, hstep]
      rfl
    constructor
    · intro hall
      obtain ⟨t, ht, hone⟩ := hall 1
      rw [hrun 0, List.take_zero, run, Option.some.injEq] at ht
      subst ht
      refine ⟨hsane.mp hone, fun next hnext => ?_⟩
      rw [hstep, Option.mem_some_iff] at hnext
      subst hnext
      exact (ih hone).mp fun k => by rw [← hrun k]; exact hall (k + 1)
    · rintro ⟨hkeeps, hrest⟩ k
      cases k with
      | zero => exact ⟨s, rfl, h⟩
      | succ k =>
        rw [hrun k]
        exact (ih (hsane.mpr hkeeps)).mpr (hrest (s', d) hstep) k

/-- From the start the sanity check passes after every operation of a run exactly when no packet of it meets
the defect. -/
theorem jitter_buffer_sane_iff (hn : 0 < n) (_hmax : n ≤ JITTER_BUFFER_MAX) (sampleSize : UInt32) (ops : List Op) :
    (∀ k, ∃ s, (init n hn sampleSize).run (ops.take k) = some s ∧ s.verifyJbSanity = true) ↔
      (init n hn sampleSize).KeepsAll ops :=
  sane_run_iff ((verifyJbSanity_iff _).mpr ⟨[], queue_init hn sampleSize⟩) ops

/-- A packet with one byte of payload. -/
def frame (sequence : UInt16) (rtpTime : UInt32) : RtpPacket where
  payload := [0]
  sequence := sequence
  rtpTime := rtpTime

/-- Packets in order, one that is lost and patched, and a late one. -/
def lateRun : List Op :=
  [.packet (frame 10 0), .packet (frame 12 320), .packet (frame 11 160), .retrieve, .packet (frame 13 480)]

theorem jitter_buffer_sane_late_packet :
    (init 4 (Nat.succ_pos 3) 160).KeepsAll lateRun ∧
      ∀ k, ∃ s, (init 4 (Nat.succ_pos 3) 160).run (lateRun.take k) = some s ∧ s.verifyJbSanity = true := by
  have hkeeps : (init 4 (Nat.succ_pos 3) 160).KeepsAll lateRun := by decide
  exact ⟨hkeeps, (jitter_buffer_sane_iff (Nat.succ_pos 3) (by decide) 160 lateRun).mpr hkeeps⟩

/-- A buffer of two slots holds 10 and 12, which came without a gap in the times; 11 moves the play position
away from the insert position. -/
theorem not_jitter_buffer_sane :
    ¬ ∀ (n : Nat) (hn : 0 < n), n ≤ JITTER_BUFFER_MAX → ∀ (sampleSize : UInt32) (ops : List Op) (k : Nat),
      ∃ s, (init n hn sampleSize).run (ops.take k) = some s ∧ s.verifyJbSanity = true := by
  intro hall
  obtain ⟨s, hrun, hsane⟩ := hall 2 (Nat.succ_pos 1) (by decide) 160
    [.packet (frame 10 0), .packet (frame 12 160), .packet (frame 11 80)] 3
  have hinsane : ∀ s ∈ (init 2 (Nat.succ_pos 1) 160).run [.packet (frame 10 0), .packet (frame 12 160),
      .packet (frame 11 80)], s.verifyJbSanity = false := by decide
  rw [hinsane s hrun] at hsane
  exact Bool.false_ne_true hsane

end RtpReceiver

end Vocal.Rtp
