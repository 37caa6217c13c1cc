import Vocal.Cdr.Bills

/-!
# Purging the cache

Which calls `purgeCache` removes. The limits of the source are written in milliseconds and its times are in
seconds, and a time ahead of the clock gives an age that wraps around.
-/

namespace Vocal.Cdr.CdrCache

open CdrCallEvent

variable {w : Nat} {ring : Bool} {s : CdrCache w} {id : List Char} {now : BitVec w} {ref : CdrRadius w}

/-! ## What is to be removed -/

/-- The end of a call, and its start as long as it has not ended. -/
def lastTime (ref : CdrRadius w) : BitVec w :=
  if ref.callEvent = CALL_BILL ∨ ref.gwEndTime ≠ 0 then ref.gwEndTime else ref.gwStartTime

/-- The age of a call in seconds, none if it is ahead of the clock. -/
def age (now : BitVec w) (ref : CdrRadius w) : Nat := now.toNat - (lastTime ref).toNat

/-- More than ten seconds for a billed call, and more than a day for any. -/
def Overdue (now : BitVec w) (ref : CdrRadius w) : Prop :=
  ref.callEvent = CALL_BILL ∧ 10 < age now ref ∨ 24 * 60 * 60 < age now ref

/-- A later end of the call is billed with its time, whatever comes in between. -/
def BilledLater (ring : Bool) (s : CdrCache w) (id : List Char) : Prop :=
  ∀ ops, (machine ring).Along (Keeps id) s ops → ∀ dat, (events id ops).find? endsCall = some dat →
    ∃ new, ((machine ring).run s ops).file = s.file ++ new ∧
      dat.gwEndTime ∈ (bills id new).map (·.gwEndTime)

/-- Exactly the overdue calls are removed; the others stay as they are, and are billed when they end. -/
structure PurgesOverdue (ring : Bool) (now : BitVec w) (s : CdrCache w) : Prop where
  removed : ∀ id ref, SortedMap.lookup id s.cdrMap = some ref →
    (SortedMap.lookup id (s.purgeCache now).cdrMap = none ↔ Overdue now ref)
  kept : ∀ id ref, SortedMap.lookup id s.cdrMap = some ref → ¬ Overdue now ref →
    SortedMap.lookup id (s.purgeCache now).cdrMap = some ref ∧
      (ref.callEvent ≠ CALL_BILL → BilledLater ring (s.purgeCache now) id)

/-! ## What the wrong unit and the wrapping leave -/

/-- The limit of a call in seconds. -/
def limit (ref : CdrRadius w) : Nat := if ref.callEvent = CALL_BILL then 10 else 24 * 60 * 60

/-- The age is on the same side of the limit and of a thousand times the limit; a time ahead of the clock is
so far ahead that the difference wraps to a small one. A bill without an end time is judged by its start too. -/
def SameSide (now : BitVec w) (ref : CdrRadius w) : Prop :=
  if ref.callEvent = CALL_BILL ∧ ref.gwEndTime = 0 then
    1000 * 10 < now.toNat ∨
      (10 < now.toNat ↔ 1000 * (24 * 60 * 60) < (now - ref.gwStartTime).toNat)
  else if (lastTime ref).toNat ≤ now.toNat then
    now.toNat - (lastTime ref).toNat ≤ limit ref ∨ 1000 * limit ref < now.toNat - (lastTime ref).toNat
  else 2 ^ w ≤ (lastTime ref).toNat - now.toNat + 1000 * limit ref

theorem toNat_sub_of_le {t : BitVec w} (h : t.toNat ≤ now.toNat) :
    (now - t).toNat = now.toNat - t.toNat :=
  BitVec.toNat_sub_of_le h

theorem toNat_sub_of_lt {t : BitVec w} (h : now.toNat < t.toNat) :
    (now - t).toNat = 2 ^ w - (t.toNat - now.toNat) := by
  rw [BitVec.toNat_sub, Nat.mod_eq_of_lt] <;> omega

/-- A call with one limit, for which the source compares the wrapping difference with a thousand times it. -/
theorem agree_iff {t : BitVec w} {L : Nat} :
    (1000 * L < (now - t).toNat ↔ L < now.toNat - t.toNat) ↔
      if t.toNat ≤ now.toNat then now.toNat - t.toNat ≤ L ∨ 1000 * L < now.toNat - t.toNat
      else 2 ^ w ≤ t.toNat - now.toNat + 1000 * L := by
  split_ifs with h
  · rw [toNat_sub_of_le h]
    omega
  · have hlt := Nat.lt_of_not_le h
    have ht := t.isLt
    rw [toNat_sub_of_lt hlt]
    omega

theorem expired_iff : expired now ref = true ↔
    (ref.callEvent = CALL_BILL ∧ CDR_BILL_LIFE < (now - ref.gwEndTime).toNat) ∨
    (ref.gwEndTime ≠ 0 ∧ CDR_MAX_LIFE < (now - ref.gwEndTime).toNat) ∨
    (ref.gwEndTime = 0 ∧ CDR_MAX_LIFE < (now - ref.gwStartTime).toNat) := by
  simp [expired, or_assoc]

theorem expired_of_not_bill (h : ref.callEvent ≠ CALL_BILL) :
    expired now ref = true ↔ 1000 * (24 * 60 * 60) < (now - lastTime ref).toNat := by
  rw [expired_iff, lastTime]
  by_cases h0 : ref.gwEndTime = 0
  · simp only [h, h0, CDR_MAX_LIFE, false_and, ne_eq, not_true, or_false, false_or, true_and, if_false]
  · simp only [h, h0, CDR_MAX_LIFE, false_and, ne_eq, not_false_eq_true, or_false, false_or, true_and,
      if_true]

theorem expired_of_bill (h : ref.callEvent = CALL_BILL) (h0 : ref.gwEndTime ≠ 0) :
    expired now ref = true ↔ 1000 * 10 < (now - lastTime ref).toNat := by
  rw [expired_iff, lastTime, if_pos (Or.inl h)]
  simp only [h, h0, CDR_MAX_LIFE, CDR_BILL_LIFE, ne_eq, not_false_eq_true, false_and, or_false, true_and]
  omega

theorem expired_of_bill_zero (h : ref.callEvent = CALL_BILL) (h0 : ref.gwEndTime = 0) :
    expired now ref = true ↔
      1000 * 10 < now.toNat ∨ 1000 * (24 * 60 * 60) < (now - ref.gwStartTime).toNat := by
  rw [expired_iff]
  simp [h, h0, CDR_MAX_LIFE, CDR_BILL_LIFE]

/-- The source removes a call that is overdue, and no other, exactly on the same side. -/
theorem expired_iff_overdue : (expired now ref = true ↔ Overdue now ref) ↔ SameSide now ref := by
  by_cases hbill : ref.callEvent = CALL_BILL
  · have hover : Overdue now ref ↔ 10 < now.toNat - (lastTime ref).toNat := by
      simp only [Overdue, hbill, age, true_and]
      omega
    have hlimit : limit ref = 10 := if_pos hbill
    by_cases h0 : ref.gwEndTime = 0
    · have hlast : lastTime ref = 0 := by rw [lastTime, if_pos (Or.inl hbill), h0]
      have hzero : (lastTime ref).toNat = 0 := by rw [hlast]; exact BitVec.toNat_zero
      rw [SameSide, if_pos ⟨hbill, h0⟩, expired_of_bill_zero hbill h0, hover, hzero, Nat.sub_zero]
      omega
    · rw [SameSide, if_neg (fun h => h0 h.2), expired_of_bill hbill h0, hover, hlimit]
      exact agree_iff
  · have hover : Overdue now ref ↔ 24 * 60 * 60 < now.toNat - (lastTime ref).toNat := by
      simp [Overdue, hbill, age]
    have hlimit : limit ref = 24 * 60 * 60 := if_neg hbill
    rw [SameSide, if_neg (fun h => hbill h.1), expired_of_not_bill hbill, hover, hlimit]
    exact agree_iff

/-! ## Calls that stay -/

theorem file_run (ring : Bool) (ops : List (Op w)) (s : CdrCache w) :
    ∃ new, ((machine ring).run s ops).file = s.file ++ new := by
  induction ops generalizing s with
  | nil => exact ⟨[], (List.append_nil _).symm⟩
  | cons op ops ih =>
    obtain ⟨new, hnew⟩ := ih ((machine ring).next s op)
    rw [Machine.run_cons, hnew]
    cases op with
    | add dat =>
      change ∃ new', (s.add ring dat).file ++ new = s.file ++ new'
      rw [add_file, List.append_assoc]
      exact ⟨_, rfl⟩
    | purge now => exact ⟨new, rfl⟩

theorem billedLater_of_open (hs : s.WellFormed) (href : SortedMap.lookup id s.cdrMap = some ref)
    (hopen : ref.callEvent ≠ CALL_BILL) : BilledLater ring s id := by
  intro ops hkept dat hdat
  obtain ⟨new, hnew⟩ := file_run ring ops s
  refine ⟨new, hnew, ?_⟩
  have hperm := endTimes_run ops s hs hkept
  have hdue : due ring (SortedMap.lookup id s.cdrMap) (events id ops) = some dat := by
    rw [href, due, if_neg hopen, hdat]
  rw [hnew, bills_append, List.map_append, hdue] at hperm
  rw [((List.perm_append_left_iff _).mp hperm).mem_iff]
  simp

theorem wellFormed_of_reachable (hs : (machine ring).Reachable s) : s.WellFormed :=
  hs.induct wellFormed_init fun _ op hs => wellFormed_next hs op

/-- Exactly the overdue calls are removed if and only if each cached call has an age on the same side of its
limit in both units. -/
theorem purgesOverdue_iff (ring : Bool) (now : BitVec w) (s : CdrCache w) (hs : s.WellFormed) :
    PurgesOverdue ring now s ↔
      ∀ id ref, SortedMap.lookup id s.cdrMap = some ref → SameSide now ref := by
  have hgone : ∀ id ref, SortedMap.lookup id s.cdrMap = some ref →
      (SortedMap.lookup id (s.purgeCache now).cdrMap = none ↔ expired now ref = true) := by
    intro id ref href
    rw [hs.lookup_purge, href]
    simp
  constructor
  · intro h id ref href
    rw [← expired_iff_overdue, ← hgone id ref href]
    exact h.removed id ref href
  · intro h
    refine ⟨fun id ref href => ?_, fun id ref href hover => ?_⟩
    · rw [hgone id ref href]
      exact expired_iff_overdue.mpr (h id ref href)
    · have hexp : expired now ref ≠ true :=
        fun hexp => hover ((expired_iff_overdue.mpr (h id ref href)).mp hexp)
      have hstay : SortedMap.lookup id (s.purgeCache now).cdrMap = some ref := by
        rw [hs.lookup_purge, href]
        simpa using hexp
      exact ⟨hstay, fun hopen => billedLater_of_open hs.purge hstay hopen⟩

/-- A billed call of five seconds and a started call of an hour are kept. -/
theorem purgesOverdue_iff_recent :
    let s : CdrCache 64 := { cdrMap := [(['a'], { callId := ['a'], callEvent := CALL_BILL, gwEndTime := 9995 }),
      (['b'], { callId := ['b'], callEvent := CALL_START, gwStartTime := 6400 })] }
    s.WellFormed ∧ PurgesOverdue false 10000 s := by
  intro s
  have hs : s.WellFormed := by
    refine ⟨?_, fun id ref h => ?_⟩
    · simp only [s, SortedMap.Sorted, List.pairwise_cons, List.mem_singleton, forall_eq]
      exact ⟨by decide, by simp⟩
    · have hmem := SortedMap.mem_of_lookup h
      simp only [s, List.mem_cons, List.not_mem_nil, or_false, Prod.mk.injEq] at hmem
      obtain ⟨rfl, rfl⟩ | ⟨rfl, rfl⟩ := hmem <;> rfl
  refine ⟨hs, (purgesOverdue_iff false 10000 s hs).mpr fun id ref h => ?_⟩
  have hmem := SortedMap.mem_of_lookup h
  simp only [s, List.mem_cons, List.not_mem_nil, or_false, Prod.mk.injEq] at hmem
  obtain ⟨rfl, rfl⟩ | ⟨rfl, rfl⟩ := hmem <;> simp [SameSide, lastTime, limit]

/-- An open call that started five seconds ahead of the clock is removed. -/
theorem not_purgesOverdue : ¬ ∀ (ring : Bool) (now : BitVec 64) (s : CdrCache 64), s.WellFormed →
    PurgesOverdue ring now s := by
  intro h
  have hs : (CdrCache.mk [(['a'], { callId := ['a'], callEvent := CALL_START, gwStartTime := (105 : BitVec 64) })]
      []).WellFormed := by
    refine ⟨List.pairwise_singleton _ _, fun id ref h => ?_⟩
    have hmem := SortedMap.mem_of_lookup h
    simp only [List.mem_singleton, Prod.mk.injEq] at hmem
    obtain ⟨rfl, rfl⟩ := hmem
    rfl
  have hpurge := (h false 100 _ hs).removed ['a'] _ rfl
  have hover := hpurge.mp (by decide)
  simp [Overdue, age, lastTime] at hover

end Vocal.Cdr.CdrCache
