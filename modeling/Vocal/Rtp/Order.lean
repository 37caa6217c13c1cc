import Vocal.Rtp.Sanity

/-!
# Order of the packets that are played

The receiver remembers no number that was played, and it places a late packet by its distance from the last
one in the buffer. So the order of what is played rests on two conditions, `Fits`: a packet for an empty
buffer is later than the last voice packet played, and a late packet falls between the voice packets that are
before and after it.
-/

namespace Vocal.Rtp

/-! ### A window of sequence numbers -/

/-- The number counted from the start of a window. -/
def key (base seq : UInt16) : Nat := (seq - base).toNat

/-- A number lies in the half of the space that starts at `base`. -/
def Within (base seq : UInt16) : Prop := key base seq < 2 ^ 15

instance (base seq : UInt16) : Decidable (Within base seq) := inferInstanceAs (Decidable (_ < _))

variable {base a b c : UInt16}

/-- In a window the difference of the source is a difference of positions. -/
theorem RtpSeqDifference_eq_key (ha : Within base a) (hb : Within base b) :
    RtpSeqDifference a b = key base a - key base b := by
  have haLt := a.toNat_lt
  have hbLt := b.toNat_lt
  have hbase := base.toNat_lt
  have heq : a = b ↔ a.toNat = b.toNat := UInt16.toNat_inj.symm
  simp only [Within, key, UInt16.toNat_sub] at ha hb ⊢
  simp only [RtpSeqDifference, RTP_SEQ_MOD, heq]
  split_ifs <;> omega

theorem RtpSeqGreater_iff_key (ha : Within base a) (hb : Within base b) :
    RtpSeqGreater a b = true ↔ key base b < key base a := by
  rw [RtpSeqGreater_iff, RtpSeqDifference_eq_key ha hb]
  omega

namespace RtpReceiver

open Slots (slot Holds)

variable {n : Nat} {s : RtpReceiver n} {q q' fill : List RtpData} {played : List UInt16} {pkt : RtpPacket}

/-! ### Voice in a queue -/

/-- The numbers of the voice packets of a queue. -/
def voiceNumbers (q : List RtpData) : List UInt16 := (q.filter fun d => !d.is_silence_fill).map (·.rtp_seq_no)

@[simp] theorem voiceNumbers_nil : voiceNumbers [] = [] := rfl

@[simp] theorem voiceNumbers_append (q q' : List RtpData) :
    voiceNumbers (q ++ q') = voiceNumbers q ++ voiceNumbers q' := by
  rw [voiceNumbers, List.filter_append, List.map_append]
  rfl

@[simp] theorem voiceNumbers_voice (pkt : RtpPacket) : voiceNumbers [voice pkt] = [pkt.sequence] := rfl

theorem voiceNumbers_fill (hfill : ∀ d ∈ fill, d.is_silence_fill = true) : voiceNumbers fill = [] := by
  rw [voiceNumbers, List.map_eq_nil_iff, List.filter_eq_nil_iff]
  intro d hd
  rw [hfill d hd]
  simp

theorem mem_voiceNumbers {v : UInt16} :
    v ∈ voiceNumbers q ↔ ∃ d ∈ q, d.is_silence_fill = false ∧ d.rtp_seq_no = v := by
  simp [voiceNumbers, and_assoc]

theorem voiceNumbers_sublist (h : q'.Sublist q) : (voiceNumbers q').Sublist (voiceNumbers q) :=
  (h.filter _).map _

/-- The numbers of voice packets, from the first played to the last in the buffer, get larger. -/
structure Ordered (base : UInt16) (played : List UInt16) (q : List RtpData) : Prop where
  increasing : (played ++ voiceNumbers q).Pairwise fun a b => key base a < key base b
  within : ∀ v ∈ played ++ voiceNumbers q, Within base v
  last : ∀ d ∈ q.getLast?, d.is_silence_fill = false

namespace Ordered

theorem le_last (h : Ordered base played q) {lastPkt : RtpData} (hlast : q.getLast? = some lastPkt) {v : UInt16}
    (hv : v ∈ played ++ voiceNumbers q) : key base v ≤ key base lastPkt.rtp_seq_no := by
  obtain ⟨rest, rfl⟩ := List.getLast?_eq_some_iff.mp hlast
  have hvoice : voiceNumbers [lastPkt] = [lastPkt.rtp_seq_no] := by
    simp [voiceNumbers, h.last lastPkt hlast]
  have hincreasing := h.increasing
  rw [voiceNumbers_append, hvoice, ← List.append_assoc] at hincreasing hv
  rcases List.mem_append.mp hv with hbefore | hself
  · exact (List.pairwise_append.mp hincreasing).2.2 v hbefore _ (List.mem_singleton_self _) |>.le
  · rw [List.mem_singleton.mp hself]

theorem within_last (h : Ordered base played q) {lastPkt : RtpData} (hlast : q.getLast? = some lastPkt) :
    Within base lastPkt.rtp_seq_no := by
  apply h.within
  apply List.mem_append_right
  exact mem_voiceNumbers.mpr ⟨lastPkt, List.mem_of_getLast? hlast, h.last lastPkt hlast, rfl⟩

theorem push (h : Ordered base played q) (hwithin : Within base pkt.sequence) {l : List RtpData}
    (hsub : (voiceNumbers l).Sublist (voiceNumbers q))
    (hlater : ∀ v ∈ played ++ voiceNumbers l, key base v < key base pkt.sequence) :
    Ordered base played (l ++ [voice pkt]) := by
  have hall : (played ++ voiceNumbers l).Sublist (played ++ voiceNumbers q) := hsub.append_left played
  refine ⟨?_, ?_, by simp [voice]⟩
  · rw [voiceNumbers_append, voiceNumbers_voice, ← List.append_assoc, List.pairwise_append]
    exact ⟨h.increasing.sublist hall, List.pairwise_singleton _ _, by simpa using hlater⟩
  · rw [voiceNumbers_append, voiceNumbers_voice, ← List.append_assoc]
    intro v hv
    rcases List.mem_append.mp hv with hold | hnew
    · exact h.within v (hall.subset hold)
    · rwa [List.mem_singleton.mp hnew]

theorem set (h : Ordered base played q) (hwithin : Within base pkt.sequence) {k : Nat} (hk : k < q.length)
    (hbefore : ∀ v ∈ played ++ voiceNumbers (q.take k), key base v < key base pkt.sequence)
    (hafter : ∀ v ∈ voiceNumbers (q.drop (k + 1)), key base pkt.sequence < key base v) :
    Ordered base played (q.set k (voice pkt)) := by
  have hset : voiceNumbers (q.set k (voice pkt)) =
      voiceNumbers (q.take k) ++ ([pkt.sequence] ++ voiceNumbers (q.drop (k + 1))) := by
    rw [List.set_eq_take_append_cons_drop, if_pos hk, ← List.singleton_append, voiceNumbers_append,
      voiceNumbers_append, voiceNumbers_voice]
  have hsub : (played ++ voiceNumbers (q.take k) ++ voiceNumbers (q.drop (k + 1))).Sublist
      (played ++ voiceNumbers q) := by
    rw [List.append_assoc, ← voiceNumbers_append]
    apply List.Sublist.append_left
    apply voiceNumbers_sublist
    nth_rewrite 3 [← List.take_append_drop k q]
    exact (List.drop_sublist_drop_left q k.le_succ).append_left _
  obtain ⟨htake, hdrop, hcross⟩ := List.pairwise_append.mp (h.increasing.sublist hsub)
  refine ⟨?_, ?_, ?_⟩
  · rw [hset, ← List.append_assoc, List.pairwise_append]
    refine ⟨htake, ?_, ?_⟩
    · rw [List.singleton_append, List.pairwise_cons]
      exact ⟨hafter, hdrop⟩
    · intro a ha b hb
      rcases List.mem_append.mp hb with hnew | hb
      · rw [List.mem_singleton.mp hnew]
        exact hbefore a ha
      · exact hcross a ha b hb
  · intro v hv
    rw [hset, ← List.append_assoc] at hv
    rcases List.mem_append.mp hv with hv | hv
    · exact h.within v (hsub.subset (List.mem_append_left _ hv))
    · rcases List.mem_append.mp hv with hnew | hv
      · rwa [List.mem_singleton.mp hnew]
      · exact h.within v (hsub.subset (List.mem_append_right _ hv))
  · intro d hd
    rw [List.getLast?_eq_getElem?, List.length_set, List.getElem?_set] at hd
    split_ifs at hd with hlast
    · rw [← Option.mem_some_iff.mp hd]
      rfl
    · exact h.last d (by rwa [List.getLast?_eq_getElem?])

end Ordered

/-! ### Steps -/

/-- The place in the queue that a packet takes which is not behind the last one; below 0 it is too late. -/
def place (s : RtpReceiver n) (lastPkt : RtpData) (pkt : RtpPacket) : Int :=
  s.getJitterPktsInQueueCount - (RtpSeqDifference lastPkt.rtp_seq_no pkt.sequence + 1)

/-- The packet keeps the order, given the last number that was played: into an empty buffer it comes after
it, and a late packet that is not too late comes after it and falls between the voice packets before and after
its place. -/
def Fits (s : RtpReceiver n) (last : Option UInt16) (pkt : RtpPacket) : Prop :=
  (s.getLastRtpData = none → last.all (RtpSeqGreater pkt.sequence) = true) ∧
  ∀ lastPkt ∈ s.getLastRtpData,
    RtpSeqGreater pkt.sequence lastPkt.rtp_seq_no = false → 0 ≤ s.place lastPkt pkt →
      last.all (RtpSeqGreater pkt.sequence) = true ∧
      ∀ k < s.getJitterPktsInQueueCount, ∀ d ∈ s.live (slot s.playPos k), d.is_silence_fill = false →
        (k < s.place lastPkt pkt → RtpSeqGreater pkt.sequence d.rtp_seq_no = true) ∧
        (s.place lastPkt pkt < k → RtpSeqGreater d.rtp_seq_no pkt.sequence = true)

theorem Ordered.lt_of_last (h : Ordered base played q) (hwithin : Within base pkt.sequence)
    (hlast : played.getLast?.all (RtpSeqGreater pkt.sequence) = true) {v : UInt16} (hv : v ∈ played) :
    key base v < key base pkt.sequence := by
  obtain ⟨rest, w, hplayed⟩ := (List.eq_nil_or_concat played).resolve_left (List.ne_nil_of_mem hv)
  rw [List.concat_eq_append] at hplayed
  subst hplayed
  have hw : Within base w := h.within w (by simp)
  have hgreater := (RtpSeqGreater_iff_key hwithin hw).mp (by simpa using hlast)
  rcases List.mem_append.mp hv with hv | hv
  · have hincreasing := (List.pairwise_append.mp h.increasing).1
    exact ((List.pairwise_append.mp hincreasing).2.2 v hv w (List.mem_singleton_self w)).trans hgreater
  · rwa [List.mem_singleton.mp hv]

theorem ordered_received (hq : Queue s q) (h : Ordered base played q) (hwithin : Within base pkt.sequence)
    (hfits : s.Fits played.getLast? pkt) (hreceived : Received n pkt q q') : Ordered base played q' := by
  obtain ⟨hempty, hfits⟩ := hfits
  rw [getLastRtpData_eq hq] at hempty hfits
  cases hreceived with
  | start hearly hfill =>
    rename_i fill
    apply h.push hwithin
    · rw [voiceNumbers_fill hfill]
      exact List.nil_sublist _
    · rw [voiceNumbers_fill hfill, List.append_nil]
      intro v hv
      cases hlast : q.getLast? with
      | none => exact h.lt_of_last hwithin (hempty hlast) hv
      | some lastPkt =>
        have hgreater := hearly lastPkt hlast
        rw [RtpSeqDifference_eq_key hwithin (h.within_last hlast)] at hgreater
        have hle := h.le_last hlast (List.mem_append_left _ hv)
        omega
  | append hlast hgreater hfill =>
    rename_i fill lastPkt
    have hkey := (RtpSeqGreater_iff_key hwithin (h.within_last hlast)).mp hgreater
    obtain ⟨m, rfl⟩ := Nat.exists_eq_add_one_of_ne_zero s.playPos.pos.ne'
    rw [List.rtake_concat_succ]
    have hsub : (voiceNumbers ((q ++ fill).rtake m)).Sublist (voiceNumbers q) := by
      have hrtake := voiceNumbers_sublist (List.drop_sublist ((q ++ fill).length - m) (q ++ fill))
      rwa [voiceNumbers_append, voiceNumbers_fill hfill, List.append_nil] at hrtake
    apply h.push hwithin hsub
    intro v hv
    exact (h.le_last hlast ((hsub.append_left played).subset hv)).trans_lt hkey
  | drop => exact h
  | set hlast hlate hk hplace =>
    rename_i lastPkt k
    have hat : s.place lastPkt pkt = k := by
      rw [place, count_eq hq, hplace]
      omega
    simp only [count_eq hq] at hfits
    obtain ⟨hafterPlayed, hbetween⟩ := hfits lastPkt hlast hlate (by omega)
    rw [hat] at hbetween
    have hitem : ∀ j d, q[j]? = some d → d.is_silence_fill = false → Within base d.rtp_seq_no ∧
        (j < k → RtpSeqGreater pkt.sequence d.rtp_seq_no = true) ∧
        (k < j → RtpSeqGreater d.rtp_seq_no pkt.sequence = true) := by
      intro j d hd hvoice
      have hj : j < q.length := (List.getElem?_eq_some_iff.mp hd).1
      have hlive := (hq.holds.item j (hj.trans_le hq.holds.le)).trans hd
      have hfit := hbetween j hj d hlive hvoice
      refine ⟨h.within _ (List.mem_append_right _ ?_), fun hlt => hfit.1 (by omega), fun hlt => hfit.2 (by omega)⟩
      exact mem_voiceNumbers.mpr ⟨d, List.mem_of_getElem? hd, hvoice, rfl⟩
    apply h.set hwithin hk
    · intro v hv
      rcases List.mem_append.mp hv with hv | hv
      · exact h.lt_of_last hwithin hafterPlayed hv
      · obtain ⟨d, hd, hvoice, rfl⟩ := mem_voiceNumbers.mp hv
        obtain ⟨j, hj⟩ := List.mem_iff_getElem?.mp hd
        rw [List.getElem?_take] at hj
        split_ifs at hj with hlt
        obtain ⟨hd, hgreater, -⟩ := hitem j d hj hvoice
        exact (RtpSeqGreater_iff_key hwithin hd).mp (hgreater hlt)
    · intro v hv
      obtain ⟨d, hd, hvoice, rfl⟩ := mem_voiceNumbers.mp hv
      obtain ⟨j, hj⟩ := List.mem_iff_getElem?.mp hd
      rw [List.getElem?_drop] at hj
      obtain ⟨hd, -, hgreater⟩ := hitem _ d hj hvoice
      exact (RtpSeqGreater_iff_key hd hwithin).mp (hgreater (by omega))

theorem ordered_returned {d : Option RtpData} (h : Ordered base played q) (hreturned : Returned q d q') :
    Ordered base (played ++ voiceNumbers d.toList) q' := by
  have hvoices : played ++ voiceNumbers d.toList ++ voiceNumbers q' = played ++ voiceNumbers q := by
    rw [List.append_assoc, ← voiceNumbers_append]
    cases hreturned with
    | empty => rfl
    | next => rfl
    | skip hsilence =>
      rename_i x d
      show _ = played ++ voiceNumbers ([x] ++ d :: q')
      have hx : voiceNumbers [x] = [] := voiceNumbers_fill (by simpa using hsilence)
      rw [voiceNumbers_append [x], hx]
      rfl
  refine ⟨by rw [hvoices]; exact h.increasing, by rw [hvoices]; exact h.within, fun e he => h.last e ?_⟩
  cases hreturned with
  | empty => exact he
  | next => rw [List.getLast?_cons, he]; rfl
  | skip hsilence => rw [List.getLast?_cons, List.getLast?_cons, he]; rfl

/-! ### Runs -/

/-- A step with the assertions that `verifyJbSanity` makes at its end. -/
def assertedStep (s : RtpReceiver n) (op : Op) : Option (RtpReceiver n × Option RtpData) :=
  (s.step op).filter (·.1.verifyJbSanity)

/-- The numbers of the voice packets that a run returns, up to a failed assertion. -/
def voicePlayed (s : RtpReceiver n) : List Op → List UInt16
  | [] => []
  | op :: ops => (s.assertedStep op).elim [] fun next => voiceNumbers next.2.toList ++ next.1.voicePlayed ops

/-- The operation keeps the order, given the voice played before. -/
def FitsOp (s : RtpReceiver n) (played : List UInt16) : Op → Prop
  | .packet pkt => s.Fits played.getLast? pkt
  | .retrieve => True

/-- Every operation of the run keeps the order. -/
def FitsAll (s : RtpReceiver n) (played : List UInt16) : List Op → Prop
  | [] => True
  | op :: ops => s.FitsOp played op ∧
      ∀ next ∈ s.assertedStep op, next.1.FitsAll (played ++ voiceNumbers next.2.toList) ops

instance (s : RtpReceiver n) (last : Option UInt16) (pkt : RtpPacket) : Decidable (s.Fits last pkt) :=
  inferInstanceAs (Decidable (_ ∧ ∀ lastPkt ∈ s.getLastRtpData, _))

instance (s : RtpReceiver n) (played : List UInt16) : (op : Op) → Decidable (s.FitsOp played op)
  | .packet pkt => inferInstanceAs (Decidable (s.Fits played.getLast? pkt))
  | .retrieve => isTrue trivial

instance decidableFitsAll (s : RtpReceiver n) (played : List UInt16) :
    (ops : List Op) → Decidable (s.FitsAll played ops)
  | [] => isTrue trivial
  | op :: ops =>
    have : ∀ next : RtpReceiver n × Option RtpData,
        Decidable (next.1.FitsAll (played ++ voiceNumbers next.2.toList) ops) :=
      fun next => decidableFitsAll next.1 _ ops
    inferInstanceAs (Decidable (s.FitsOp played op ∧
      ∀ next ∈ s.assertedStep op, next.1.FitsAll (played ++ voiceNumbers next.2.toList) ops))

theorem ordered_step (hq : Queue s q) (h : Ordered base played q) {op : Op}
    (hwithin : ∀ pkt, op = .packet pkt → Within base pkt.sequence) (hfits : s.FitsOp played op)
    {s' : RtpReceiver n} {d : Option RtpData} (hstep : s.assertedStep op = some (s', d)) :
    ∃ q', Queue s' q' ∧ Ordered base (played ++ voiceNumbers d.toList) q' := by
  obtain ⟨hstep, hsane⟩ := Option.filter_eq_some_iff.mp hstep
  cases op with
  | packet pkt =>
    rw [step, Option.some.injEq, Prod.mk.injEq] at hstep
    obtain ⟨rfl, rfl⟩ := hstep
    obtain ⟨q₁, hq₁⟩ := (verifyJbSanity_iff _).mp hsane
    obtain ⟨q', hreceived, hq'⟩ := exists_received hq fun hclash => not_queue_readNetwork hq hclash hq₁
    refine ⟨q', hq', ?_⟩
    rw [Option.toList_none, voiceNumbers_nil, List.append_nil]
    exact ordered_received hq h (hwithin pkt rfl) hfits hreceived
  | retrieve =>
    obtain ⟨s₁, d₁, q', hretrieve, hreturned, hq'⟩ := exists_returned hq
    rw [step, hretrieve, Option.some.injEq, Prod.mk.injEq] at hstep
    obtain ⟨rfl, rfl⟩ := hstep
    exact ⟨q', hq', ordered_returned h hreturned⟩

theorem ordered_run (hq : Queue s q) (h : Ordered base played q) (ops : List Op)
    (hwithin : ∀ pkt, .packet pkt ∈ ops → Within base pkt.sequence) (hfits : s.FitsAll played ops) :
    ∃ q', Ordered base (played ++ s.voicePlayed ops) q' := by
  induction ops generalizing s q played with
  | nil => exact ⟨q, by rwa [voicePlayed, List.append_nil]⟩
  | cons op ops ih =>
    rw [voicePlayed]
    cases hstep : s.assertedStep op with
    | none => exact ⟨q, by rwa [Option.elim_none, List.append_nil]⟩
    | some next =>
      obtain ⟨hfit, hrest⟩ := hfits
      obtain ⟨q', hq', hordered⟩ := ordered_step hq h (fun pkt hop => hwithin pkt (by simp [hop])) hfit hstep
      obtain ⟨q₂, hq₂⟩ := ih hq' hordered (fun pkt hpkt => hwithin pkt (List.mem_cons_of_mem _ hpkt))
        (hrest next hstep)
      exact ⟨q₂, by rwa [Option.elim_some, ← List.append_assoc]⟩

/-- The voice packets that a run returns have increasing numbers, none of them twice, when the packets keep
the order. -/
theorem voicePlayed_increasing (hn : 0 < n) (_hmax : n ≤ JITTER_BUFFER_MAX) (sampleSize : UInt32) (base : UInt16)
    (ops : List Op)
    (hwithin : ∀ pkt, .packet pkt ∈ ops → Within base pkt.sequence)
    (hfits : (init n hn sampleSize).FitsAll [] ops) :
    ((init n hn sampleSize).voicePlayed ops).Pairwise (fun a b => RtpSeqGreater b a = true) ∧
      ((init n hn sampleSize).voicePlayed ops).Nodup := by
  have hstart : Ordered base [] [] := ⟨List.Pairwise.nil, by simp, by simp⟩
  obtain ⟨q, hordered⟩ := ordered_run (queue_init hn sampleSize) hstart ops hwithin hfits
  rw [List.nil_append] at hordered
  have hincreasing := (List.pairwise_append.mp hordered.increasing).1
  refine ⟨hincreasing.imp_of_mem ?_, hincreasing.imp ?_⟩
  · intro a b ha hb hlt
    exact (RtpSeqGreater_iff_key (hordered.within b (List.mem_append_left _ hb))
      (hordered.within a (List.mem_append_left _ ha))).mpr hlt
  · rintro a b hlt rfl
    exact lt_irrefl _ hlt

theorem voicePlayed_increasing_late_packet :
    (init 4 (Nat.succ_pos 3) 160).FitsAll [] (lateRun ++ [.retrieve, .retrieve, .retrieve]) ∧
      ((init 4 (Nat.succ_pos 3) 160).voicePlayed (lateRun ++ [.retrieve, .retrieve, .retrieve])).Pairwise
        (fun a b => RtpSeqGreater b a = true) := by
  have hfits : (init 4 (Nat.succ_pos 3) 160).FitsAll [] (lateRun ++ [.retrieve, .retrieve, .retrieve]) := by
    decide
  refine ⟨hfits, (voicePlayed_increasing (Nat.succ_pos 3) (by decide) 160 0 _ ?_ hfits).1⟩
  simp [lateRun, frame, Within, key]

/-- A duplicate of a packet that was played comes when the buffer is empty, and is played again. -/
theorem not_voicePlayed_increasing :
    ¬ ∀ (n : Nat) (hn : 0 < n), n ≤ JITTER_BUFFER_MAX → ∀ (sampleSize : UInt32) (base : UInt16) (ops : List Op),
      (∀ pkt, .packet pkt ∈ ops → Within base pkt.sequence) →
      ((init n hn sampleSize).voicePlayed ops).Pairwise (fun a b => RtpSeqGreater b a = true) := by
  intro hall
  have htwice := hall 2 (Nat.succ_pos 1) (by decide) 160 0 [.packet (frame 10 0), .retrieve, .packet (frame 10 0), .retrieve]
    (by simp [frame, Within, key])
  exact absurd htwice (by decide)

end RtpReceiver

end Vocal.Rtp
