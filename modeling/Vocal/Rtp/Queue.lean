import Mathlib.Data.List.DropRight
import Vocal.Rtp.JitterBuffer

/-!
# The jitter buffer as a queue

The slots in use hold a queue, from the play position to the insert position. `Queue` relates a receiver to
it; it can be given for exactly the receivers that pass `verifyJbSanity` (`verifyJbSanity_iff`). The other
lemmas say what each operation does to the queue.
-/

namespace Vocal.Rtp.RtpReceiver

open Slots (slot Holds)

variable {n : Nat} {s : RtpReceiver n} {q : List RtpData}

/-- What is in a slot that is in use. -/
def live (s : RtpReceiver n) (i : Fin n) : Option RtpData := (s.jitterBuffer i).filter (·.is_in_use)

/-- The receiver holds this queue. -/
structure Queue (s : RtpReceiver n) (q : List RtpData) : Prop where
  holds : Holds s.live s.playPos q
  inPos : s.inPos = slot s.playPos q.length

theorem isInUse_eq (s : RtpReceiver n) (i : Fin n) : s.isInUse i = (s.live i).isSome := by
  rw [isInUse, live]
  cases s.jitterBuffer i with
  | none => rfl
  | some d => cases h : d.is_in_use <;> simp [h]

theorem isInUse_slot (h : Queue s q) {k : Nat} (hk : k < n) :
    s.isInUse (slot s.playPos k) = decide (k < q.length) := by
  rw [isInUse_eq, h.holds.item k hk, Bool.eq_iff_iff]
  simp

theorem incrementPos_eq (pos : Fin n) : incrementPos pos = slot pos 1 := by
  have hpos := pos.isLt
  apply Fin.ext
  rw [incrementPos, Slots.val_slot pos (by omega)]
  split
  · rfl
  · simp only
    omega

theorem val_calculatePreviousInPos (s : RtpReceiver n) (packets_ago : Nat) :
    (s.calculatePreviousInPos packets_ago).val =
      if s.inPos.val < packets_ago % n then n - (packets_ago % n - s.inPos.val)
      else s.inPos.val - packets_ago % n := by
  rw [calculatePreviousInPos]
  split <;> rfl

theorem calculatePreviousInPos_eq (h : Queue s q) {sd : Nat} (hpos : 0 < sd) (hsd : sd ≤ q.length) :
    s.calculatePreviousInPos sd = slot s.playPos (q.length - sd) := by
  have hle := h.holds.le
  have hplay := s.playPos.isLt
  have hin := congrArg Fin.val h.inPos
  have hinLt := s.inPos.isLt
  rw [Slots.val_slot s.playPos hle] at hin
  apply Fin.ext
  rw [Slots.val_slot s.playPos (by omega), val_calculatePreviousInPos]
  by_cases hlt : sd < n
  · rw [Nat.mod_eq_of_lt hlt]
    split_ifs at hin with hwrap
    all_goals split_ifs <;> omega
  · rw [show sd = n by omega, Nat.mod_self, if_neg (by omega)]
    split_ifs at hin with hwrap
    all_goals split_ifs <;> omega

theorem count_eq (h : Queue s q) : s.getJitterPktsInQueueCount = q.length := by
  have hle := h.holds.le
  have hplay := s.playPos.isLt
  have hin := congrArg Fin.val h.inPos
  rw [Slots.val_slot s.playPos hle] at hin
  have huse := isInUse_slot h s.playPos.pos
  rw [Slots.slot_zero] at huse
  rw [getJitterPktsInQueueCount]
  split
  · rename_i heq
    have hval := congrArg Fin.val heq
    rw [heq, huse]
    simp only [decide_eq_true_eq]
    split_ifs at hin with hwrap
    all_goals split_ifs <;> omega
  · rename_i hne
    have hval : s.inPos.val ≠ s.playPos.val := fun heq => hne (Fin.ext heq)
    split_ifs at hin with hwrap
    all_goals split_ifs <;> omega

theorem getLastRtpData_eq (h : Queue s q) : s.getLastRtpData = q.getLast? := by
  rw [getLastRtpData, count_eq h]
  by_cases hne : q = []
  · simp [hne]
  · have hpos : 0 < q.length := List.length_pos_iff.mpr hne
    have hle := h.holds.le
    rw [if_pos hpos, calculatePreviousInPos_eq h Nat.one_pos hpos]
    have hitem := h.holds.item (q.length - 1) (by omega)
    rw [List.getLast?_eq_getElem?, ← hitem, live]
    have huse := isInUse_slot h (by omega : q.length - 1 < n)
    rw [decide_eq_true (by omega), isInUse] at huse
    cases hd : s.jitterBuffer (slot s.playPos (q.length - 1)) with
    | none => rfl
    | some d =>
      rw [hd] at huse
      rw [Option.filter_some, if_pos (by simpa using huse)]

/-! ### Operations -/

theorem queue_clear (s : RtpReceiver n) : Queue s.clearJitterBuffer [] := by
  refine ⟨?_, (Slots.slot_zero _).symm⟩
  exact Holds.empty _

theorem live_setSlot (s : RtpReceiver n) (i : Fin n) (d : RtpData) :
    (s.setSlot i (some d)).live = Function.update s.live i (if d.is_in_use then some d else none) := by
  funext k
  by_cases hk : k = i
  · subst hk
    rw [Function.update_self]
    simp [live, setSlot, Option.filter_some]
  · rw [Function.update_of_ne hk]
    simp [live, setSlot, hk]

theorem inPos_eq_playPos (h : Queue s q) (hfull : q.length = n) : s.inPos = s.playPos := by
  rw [h.inPos, hfull, Slots.slot_turn]

theorem isInUse_inPos (h : Queue s q) : s.isInUse s.inPos = true ↔ q.length = n := by
  rcases Nat.lt_or_eq_of_le h.holds.le with hlt | hfull
  · rw [h.inPos, isInUse_slot h hlt]
    simp [hlt.ne]
  · have huse := isInUse_slot h s.playPos.pos
    rw [Slots.slot_zero, hfull] at huse
    rw [inPos_eq_playPos h hfull, huse]
    simp [hfull, s.playPos.pos]

theorem queue_push (h : Queue s q) (hlt : q.length < n) {d : RtpData} (hd : d.is_in_use = true) :
    Queue (s.setSlot s.inPos (some d)).incrementInPos (q ++ [d]) := by
  constructor
  · show Holds (s.setSlot s.inPos (some d)).live s.playPos (q ++ [d])
    rw [live_setSlot, if_pos hd, h.inPos]
    exact h.holds.push hlt d
  · show incrementPos s.inPos = _
    rw [incrementPos_eq, h.inPos, Slots.slot_slot, List.length_append]
    rfl

theorem queue_rotate (h : Queue s q) (hfull : q.length = n) {d : RtpData} (hd : d.is_in_use = true) :
    Queue (s.incrementPlayPos.setSlot s.inPos (some d)).incrementInPos (q.tail ++ [d]) := by
  have hpos := s.playPos.pos
  obtain ⟨x, rest, rfl⟩ := List.exists_cons_of_length_pos (hfull ▸ hpos)
  rw [List.length_cons] at hfull
  constructor
  · show Holds (s.incrementPlayPos.setSlot s.inPos (some d)).live (incrementPos s.playPos) (rest ++ [d])
    rw [live_setSlot, if_pos hd, incrementPos_eq, inPos_eq_playPos h hfull]
    exact h.holds.rotate hfull d
  · show incrementPos s.inPos = slot (incrementPos s.playPos) (rest ++ [d]).length
    rw [List.length_append, incrementPos_eq, incrementPos_eq, inPos_eq_playPos h hfull]
    simp only [List.length_singleton, hfull, Slots.slot_turn]

theorem rtake_append (q : List RtpData) (d : RtpData) (hle : q.length ≤ n) (hpos : 0 < n) :
    (q ++ [d]).rtake n = if q.length < n then q ++ [d] else q.tail ++ [d] := by
  rw [List.rtake, List.length_append, List.length_singleton]
  split
  · rename_i hlt
    rw [Nat.sub_eq_zero_of_le hlt, List.drop_zero]
  · rw [show q.length + 1 - n = 1 by omega, List.drop_append_of_le_length (by omega), List.drop_one]

theorem rtake_append_rtake (l : List RtpData) (d : RtpData) (hpos : 0 < n) :
    (l.rtake n ++ [d]).rtake n = (l ++ [d]).rtake n := by
  simp only [List.rtake, List.length_append, List.length_drop, List.length_singleton]
  by_cases hle : l.length ≤ n
  · simp [Nat.sub_eq_zero_of_le hle]
  · rw [← List.drop_append_of_le_length (by omega), List.drop_drop]
    congr 1
    omega

theorem queue_insertSilence (h : Queue s q) (rtp_time : UInt32) (rtp_seq : UInt16) :
    Queue (s.insertSilenceRtpData rtp_time rtp_seq) ((q ++ [s.silence rtp_time rtp_seq]).rtake n) := by
  have hle := h.holds.le
  rw [insertSilenceRtpData, rtake_append q _ hle s.playPos.pos, count_eq h]
  by_cases hlt : q.length < n
  · rw [if_pos hlt, if_neg (by omega)]
    exact queue_push h hlt rfl
  · have hfull : q.length = n := by omega
    rw [if_neg hlt, if_pos ⟨(isInUse_inPos h).mpr hfull, hfull⟩]
    exact queue_rotate h hfull rfl

/-! ### Packets in their slots -/

variable {pkt : RtpPacket} {k : Nat}

theorem isInUse_setSlot (s : RtpReceiver n) (i j : Fin n) {d : RtpData} (hd : d.is_in_use = true)
    (hj : s.isInUse j = true) : (s.setSlot i (some d)).isInUse j = true := by
  by_cases hij : j = i
  · subst hij
    simp [isInUse, setSlot, hd]
  · simpa [isInUse, setSlot, hij] using hj

theorem isInUse_of_full (h : Queue s q) (hfull : q.length = n) (i : Fin n) : s.isInUse i = true := by
  obtain ⟨k, hk, rfl⟩ := Slots.exists_slot s.playPos i
  rw [isInUse_slot h hk]
  exact decide_eq_true (by omega)

theorem sequenceAt_slot (h : Queue s q) (hk : k < q.length) :
    s.sequenceAt (slot s.playPos k) = q[k]?.map (·.rtp_seq_no) := by
  have hle := h.holds.le
  have huse := isInUse_slot h (by omega : k < n)
  rw [decide_eq_true hk, isInUse] at huse
  rw [← h.holds.item k (by omega), sequenceAt, live]
  cases hd : s.jitterBuffer (slot s.playPos k) with
  | none => rfl
  | some d =>
    rw [hd] at huse
    rw [Option.filter_some, if_pos (by simpa using huse)]

/-- When all slots are in use, the positions have to be the same. -/
theorem not_queue_of_isInUse (hall : ∀ i, s.isInUse i = true) (hne : s.inPos ≠ s.playPos) : ¬ Queue s q := by
  intro h
  have hpos := s.playPos.pos
  have hlast := isInUse_slot h (Nat.sub_lt hpos Nat.one_pos)
  rw [hall] at hlast
  have hlt := of_decide_eq_true hlast.symm
  have hle := h.holds.le
  exact hne (inPos_eq_playPos h (by omega))

theorem incrementPos_ne (hn : 1 < n) (pos : Fin n) : incrementPos pos ≠ pos := by
  intro heq
  rw [incrementPos_eq, ← Slots.slot_zero pos, Slots.slot_slot] at heq
  exact absurd (Slots.slot_inj hn (by omega) heq) (by omega)

theorem incrementPlayPos_of_one (hn : ¬ 1 < n) (s : RtpReceiver n) : s.incrementPlayPos = s := by
  have hpos := s.playPos.isLt
  have hinc := (incrementPos s.playPos).isLt
  have heq : incrementPos s.playPos = s.playPos := Fin.ext (by omega)
  rw [incrementPlayPos, heq]

theorem queue_append (pkt : RtpPacket) (h : Queue s q)
    (hseq : q.length = n → 1 < n → s.sequenceAt s.playPos ≠ some pkt.sequence) :
    Queue (s.appendRtpData pkt) ((q ++ [voice pkt]).rtake n) := by
  have hle := h.holds.le
  rw [appendRtpData, setRtpData, rtake_append q _ hle s.playPos.pos, count_eq h]
  by_cases hlt : q.length < n
  · rw [if_pos hlt, if_neg (by omega)]
    exact queue_push h hlt rfl
  · have hfull : q.length = n := by omega
    have hpos := inPos_eq_playPos h hfull
    rw [if_neg hlt]
    split
    · exact queue_rotate h hfull rfl
    · rename_i hdup
      -- A duplicate leaves the play position; in a buffer of one slot it has nowhere else to go.
      have hone : ¬ 1 < n := by
        intro hn
        exact hdup ⟨(isInUse_inPos h).mpr hfull, hfull, hpos.symm, hpos ▸ hseq hfull hn⟩
      have hrot := queue_rotate h hfull (d := voice pkt) rfl
      rwa [incrementPlayPos_of_one hone] at hrot

theorem not_queue_append (h : Queue s q) (hfull : q.length = n) (hn : 1 < n)
    (hseq : s.sequenceAt s.playPos = some pkt.sequence) {q' : List RtpData} :
    ¬ Queue (s.appendRtpData pkt) q' := by
  have hpos := inPos_eq_playPos h hfull
  rw [appendRtpData, setRtpData, if_neg fun hc => hc.2.2.2 (hpos ▸ hseq)]
  apply not_queue_of_isInUse
  · intro i
    exact isInUse_setSlot s s.inPos i rfl (isInUse_of_full h hfull i)
  · show incrementPos s.inPos ≠ s.playPos
    rw [hpos]
    exact incrementPos_ne hn _

theorem queue_set (h : Queue s q) (hk : k < q.length)
    (hseq : k = 0 → q.length = n → 1 < n → s.sequenceAt s.playPos = some pkt.sequence) :
    Queue (s.setRtpData pkt (slot s.playPos k)) (q.set k (voice pkt)) := by
  have hle := h.holds.le
  have hset : Queue (s.setSlot (slot s.playPos k) (some (voice pkt))) (q.set k (voice pkt)) := by
    constructor
    · rw [live_setSlot, if_pos (show (voice pkt).is_in_use = true from rfl)]
      exact h.holds.set hk _
    · rw [List.length_set]
      exact h.inPos
  rw [setRtpData, count_eq h]
  split
  · rename_i hmove
    obtain ⟨-, hfull, hplay, hne⟩ := hmove
    have hzero : k = 0 := by
      rw [← Slots.slot_zero s.playPos, Slots.slot_slot, Nat.zero_add] at hplay
      exact (Slots.slot_inj s.playPos.pos (by omega) hplay).symm
    have hone : ¬ 1 < n := by
      intro hn
      rw [← hplay] at hne
      exact hne (hseq hzero hfull hn)
    rwa [incrementPlayPos_of_one hone]
  · exact hset

theorem not_queue_set (h : Queue s q) (hfull : q.length = n) (hn : 1 < n)
    (hseq : s.sequenceAt s.playPos ≠ some pkt.sequence) {q' : List RtpData} :
    ¬ Queue (s.setRtpData pkt s.playPos) q' := by
  rw [setRtpData, count_eq h, if_pos ⟨isInUse_of_full h hfull _, hfull, rfl, hseq⟩]
  apply not_queue_of_isInUse
  · intro i
    exact isInUse_setSlot _ s.playPos i rfl (isInUse_of_full h hfull i)
  · show s.inPos ≠ incrementPos s.playPos
    rw [inPos_eq_playPos h hfull]
    exact (incrementPos_ne hn _).symm

/-! ### The sanity check -/

theorem count_le (s : RtpReceiver n) : s.getJitterPktsInQueueCount ≤ n := by
  have hplay := s.playPos.isLt
  have hin := s.inPos.isLt
  rw [getJitterPktsInQueueCount]
  split_ifs <;> omega

theorem inPos_eq_slot (s : RtpReceiver n) : s.inPos = slot s.playPos s.getJitterPktsInQueueCount := by
  have hplay := s.playPos.isLt
  have hin := s.inPos.isLt
  by_cases heq : s.inPos = s.playPos
  · rw [getJitterPktsInQueueCount, if_pos heq]
    split
    · rw [Slots.slot_turn, heq]
    · rw [Slots.slot_zero, heq]
  · have hval : s.inPos.val ≠ s.playPos.val := fun hv => heq (Fin.ext hv)
    apply Fin.ext
    rw [Slots.val_slot s.playPos (count_le s), getJitterPktsInQueueCount, if_neg heq]
    split_ifs <;> omega

theorem previous_slot (s : RtpReceiver n) (hk : k < s.getJitterPktsInQueueCount) :
    (if (s.inPos.val - k - 1 : Int) < 0 then (s.inPos.val - k - 1 : Int) + n
      else s.inPos.val - k - 1).toNat =
      (slot s.playPos (s.getJitterPktsInQueueCount - 1 - k)).val := by
  have hle := count_le s
  have hplay := s.playPos.isLt
  have hin := congrArg Fin.val (inPos_eq_slot s)
  rw [Slots.val_slot s.playPos hle] at hin
  rw [Slots.val_slot s.playPos (by omega)]
  split_ifs at hin
  all_goals split_ifs <;> omega

theorem next_slot (s : RtpReceiver n) (hk : k < n - s.getJitterPktsInQueueCount) :
    (if n ≤ s.inPos.val + k then s.inPos.val + k - n else s.inPos.val + k) =
      (slot s.playPos (s.getJitterPktsInQueueCount + k)).val := by
  have hle := count_le s
  have hplay := s.playPos.isLt
  have hin := congrArg Fin.val (inPos_eq_slot s)
  rw [Slots.val_slot s.playPos hle] at hin
  rw [Slots.val_slot s.playPos (by omega)]
  split_ifs at hin
  all_goals split_ifs <;> omega

theorem dite_eq_of_val (f : Fin n → Bool) {m : Nat} {i : Fin n} (hm : m = i.val) :
    (if h : m < n then f ⟨m, h⟩ else false) = f i := by
  subst hm
  rw [dif_pos i.isLt]

theorem verifyJbSanity_eq (s : RtpReceiver n) :
    s.verifyJbSanity = true ↔
      (s.getJitterPktsInQueueCount = 0 ∨ s.isInUse s.playPos = true) ∧
      if s.getJitterPktsInQueueCount = n then ∀ i, s.isInUse i = true
      else
        (∀ k < s.getJitterPktsInQueueCount,
          s.isInUse (slot s.playPos (s.getJitterPktsInQueueCount - 1 - k)) = true) ∧
        ∀ k < n - s.getJitterPktsInQueueCount,
          s.isInUse (slot s.playPos (s.getJitterPktsInQueueCount + k)) = false := by
  rw [verifyJbSanity, Bool.and_eq_true, Bool.or_eq_true, decide_eq_true_eq]
  refine and_congr_right fun _ => ?_
  split
  · simp
  · rw [Bool.and_eq_true, List.all_eq_true, List.all_eq_true]
    simp only [List.mem_range]
    refine and_congr (forall_congr' fun k => forall_congr' fun hk => ?_)
      (forall_congr' fun k => forall_congr' fun hk => ?_)
    · rw [dite_eq_of_val (fun i => s.isInUse i) (previous_slot s hk)]
    · rw [dite_eq_of_val (fun i => !s.isInUse i) (next_slot s hk), Bool.not_eq_true']

/-- The check asks for exactly the counted slots, from the play position on, to be in use. -/
theorem verifyJbSanity_iff_isInUse (s : RtpReceiver n) :
    s.verifyJbSanity = true ↔
      ∀ k < n, s.isInUse (slot s.playPos k) = decide (k < s.getJitterPktsInQueueCount) := by
  rw [verifyJbSanity_eq]
  have hle := count_le s
  have hpos := s.playPos.pos
  constructor
  · rintro ⟨-, hslots⟩ k hk
    split at hslots
    · rename_i hfull
      rw [hslots, decide_eq_true (by omega)]
    · obtain ⟨hused, hfree⟩ := hslots
      by_cases hlt : k < s.getJitterPktsInQueueCount
      · have hk' := hused (s.getJitterPktsInQueueCount - 1 - k) (by omega)
        rw [Nat.sub_sub_self (by omega)] at hk'
        rw [hk', decide_eq_true hlt]
      · have hk' := hfree (k - s.getJitterPktsInQueueCount) (by omega)
        rw [Nat.add_sub_cancel' (by omega)] at hk'
        rw [hk', decide_eq_false hlt]
  · intro hslots
    constructor
    · have hplay := hslots 0 hpos
      rw [Slots.slot_zero] at hplay
      rw [hplay, decide_eq_true_eq]
      omega
    · split
      · rename_i hfull
        intro i
        obtain ⟨k, hk, rfl⟩ := Slots.exists_slot s.playPos i
        rw [hslots k hk, decide_eq_true (by omega)]
      · refine ⟨fun k hk => ?_, fun k hk => ?_⟩
        · rw [hslots _ (by omega), decide_eq_true (by omega)]
        · rw [hslots _ (by omega), decide_eq_false (by omega)]

/-- The check passes exactly when the slots in use hold a queue. -/
theorem verifyJbSanity_iff (s : RtpReceiver n) : s.verifyJbSanity = true ↔ ∃ q, Queue s q := by
  rw [verifyJbSanity_iff_isInUse]
  constructor
  · intro hslots
    refine ⟨(List.range s.getJitterPktsInQueueCount).map fun k => (s.live (slot s.playPos k)).getD {}, ?_, ?_⟩
    · refine ⟨by simpa using count_le s, fun k hk => ?_⟩
      have huse := hslots k hk
      rw [isInUse_eq] at huse
      by_cases hlt : k < s.getJitterPktsInQueueCount
      · rw [decide_eq_true hlt] at huse
        obtain ⟨d, hd⟩ := Option.isSome_iff_exists.mp huse
        simp [List.getElem?_range hlt, hd]
      · rw [decide_eq_false hlt, Option.isSome_eq_false_iff, Option.isNone_iff_eq_none] at huse
        rw [huse, List.getElem?_eq_none (by simpa using hlt)]
    · rw [List.length_map, List.length_range]
      exact inPos_eq_slot s
  · rintro ⟨q, h⟩ k hk
    rw [isInUse_slot h hk, count_eq h]

end Vocal.Rtp.RtpReceiver
