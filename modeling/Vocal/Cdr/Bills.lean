import Vocal.Cdr.Cache

/-!
# One bill per call

What the billing file holds of a call after any sequence of events: the dumps of the events that came as bills
already, and the one bill of the cache. The state of a call is the record cached for it.
-/

namespace Vocal.Cdr.CdrCache

open CdrCallEvent

variable {w : Nat} {ring : Bool} {s : CdrCache w} {dat : CdrClient w} {id : List Char}

/-- The bills of a call in the file. -/
def bills (id : List Char) (file : List (CdrRadius w)) : List (CdrRadius w) :=
  file.filter fun r => r.callId = id && r.callEvent = CALL_BILL

/-- The events of a call among the operations, in their order. -/
def events (id : List Char) : List (Op w) → List (CdrClient w)
  | [] => []
  | .add dat :: ops => if dat.callId = id then dat :: events id ops else events id ops
  | .purge _ :: ops => events id ops

def endsCall (dat : CdrClient w) : Bool := dat.callEvent = CALL_END

/-- The first end of a call behind the first event that opens it. -/
def closing (ring : Bool) : List (CdrClient w) → Option (CdrClient w)
  | [] => none
  | dat :: rest => if opens ring dat then rest.find? endsCall else closing ring rest

/-- No purge removes the record of the call. -/
def Keeps (id : List Char) (s : CdrCache w) : Op w → Prop
  | .add _ => True
  | .purge now => ∀ ref ∈ SortedMap.lookup id s.cdrMap, expired now ref = false

/-- One bill for a call that is opened and then ended, with the time of its end, and none for another; the
events of other calls do not count. -/
def OneBill (ring : Bool) (id : List Char) (ops : List (Op w)) : Prop :=
  (bills id ((machine ring).run (machine ring).init ops).file).map (·.gwEndTime) =
    ((closing ring (events id ops)).map (·.gwEndTime)).toList

/-! ## The file and the cached record -/

/-- The end that the record of a call waits for. -/
def due (ring : Bool) : Option (CdrRadius w) → List (CdrClient w) → Option (CdrClient w)
  | none, rest => closing ring rest
  | some ref, rest => if ref.callEvent = CALL_BILL then none else rest.find? endsCall

/-- What one event does to a call: it closes the call, and is its end, or the call goes on waiting for the
same end. -/
theorem merge_due (ring : Bool) (old : Option (CdrRadius w)) (dat : CdrClient w) (rest : List (CdrClient w)) :
    (∃ bill, (merge ring old dat).2 = some bill ∧ bill.callEvent = CALL_BILL ∧
      bill.gwEndTime = dat.gwEndTime ∧ (merge ring old dat).1 = some bill ∧
      due ring old (dat :: rest) = some dat) ∨
    (merge ring old dat).2 = none ∧
      due ring old (dat :: rest) = due ring (merge ring old dat).1 rest := by
  cases old with
  | none =>
    simp only [merge]
    split_ifs with ho
    · refine Or.inr ⟨rfl, ?_⟩
      have hopen : (({} : CdrRadius w).update dat).callEvent ≠ CALL_BILL := by
        rw [CdrRadius.update_event]
        · rcases opens_iff.mp ho with ⟨he, -⟩ | ⟨he, -⟩ <;> simp [he]
        · rcases opens_iff.mp ho with ⟨he, -⟩ | ⟨he, -⟩ <;> simp [he]
      rw [due, closing, if_pos ho, due, if_neg hopen]
    · refine Or.inr ⟨rfl, ?_⟩
      rw [due, closing, if_neg ho, due]
  | some ref =>
    simp only [merge]
    split_ifs with hbill hstart hend
    · refine Or.inr ⟨rfl, ?_⟩
      rw [due, due, if_pos hbill, if_pos hbill]
    · refine Or.inr ⟨rfl, ?_⟩
      have hne : dat.callEvent ≠ CALL_END := by
        rcases hstart with ⟨he, -⟩ | he <;> simp [he]
      have hopen : (ref.update dat).callEvent ≠ CALL_BILL := by
        rw [CdrRadius.update_event ref hne]
        rcases hstart with ⟨he, -⟩ | he <;> simp [he]
      rw [due, due, if_neg hbill, if_neg hopen]
      exact List.find?_cons_of_neg (by simpa [endsCall] using hne)
    · refine Or.inl ⟨_, rfl, rfl, (ref.update_end hend).2, rfl, ?_⟩
      rw [due, if_neg hbill]
      exact List.find?_cons_of_pos (by simpa [endsCall] using hend)
    · refine Or.inr ⟨rfl, ?_⟩
      rw [due, due, if_neg hbill, if_neg hbill]
      exact List.find?_cons_of_neg (by simpa [endsCall] using hend)

theorem bills_append (file file' : List (CdrRadius w)) :
    bills id (file ++ file') = bills id file ++ bills id file' :=
  List.filter_append ..

theorem bills_add_of_ne (hs : s.WellFormed) (hne : dat.callId ≠ id) :
    bills id (s.add ring dat).file = bills id s.file := by
  rw [add_file, bills_append]
  refine List.append_right_eq_self.mpr (List.filter_eq_nil_iff.mpr fun r hr => ?_)
  have hid : r.callId = dat.callId := by
    rcases List.mem_cons.mp hr with rfl | hr
    · exact dump_callId
    · obtain ⟨bill, hbill, -, -, hnew, -⟩ | ⟨hnone, -⟩ :=
        merge_due ring (SortedMap.lookup dat.callId s.cdrMap) dat []
      · rw [hbill] at hr
        obtain rfl : r = bill := List.mem_singleton.mp hr
        exact merge_callId (fun ref hold => hs.keyed _ ref hold) hnew
      · rw [hnone] at hr
        cases hr
  simp [hid, hne]

/-- The events of a call that came as bills. -/
def reported (dats : List (CdrClient w)) : List (CdrClient w) := dats.filter (·.callEvent = CALL_BILL)

theorem bills_dump (h : dat.callId = id) :
    (bills id [dump dat]).map (·.gwEndTime) = (reported [dat]).map (·.gwEndTime) := by
  by_cases he : dat.callEvent = CALL_BILL
  · simp [bills, reported, dump_callId, dump_callEvent, dump_gwEndTime, h, he]
  · simp [bills, reported, dump_callId, dump_callEvent, h, he]

/-- What the file holds of a call behind a run from any state, up to the order: the bills it held, the events
that came as bills, and the one bill that was due. -/
theorem endTimes_run (ops : List (Op w)) (s : CdrCache w) (hs : s.WellFormed)
    (hkept : (machine ring).Along (Keeps id) s ops) :
    ((bills id ((machine ring).run s ops).file).map (·.gwEndTime)).Perm
      ((bills id s.file).map (·.gwEndTime) ++ ((reported (events id ops)).map (·.gwEndTime) ++
        ((due ring (SortedMap.lookup id s.cdrMap) (events id ops)).map (·.gwEndTime)).toList)) := by
  induction ops generalizing s with
  | nil =>
    have hdue : due ring (SortedMap.lookup id s.cdrMap) [] = none := by
      cases SortedMap.lookup id s.cdrMap with
      | none => rfl
      | some ref => simp [due]
    simp [events, reported, hdue]
  | cons op ops ih =>
    have hrest := ih ((machine ring).next s op) (wellFormed_next hs op) hkept.2
    rw [Machine.run_cons]
    refine hrest.trans ?_
    cases op with
    | purge now =>
      have hlook : SortedMap.lookup id (s.purgeCache now).cdrMap = SortedMap.lookup id s.cdrMap := by
        rw [hs.lookup_purge]
        cases href : SortedMap.lookup id s.cdrMap with
        | none => rfl
        | some ref => simp [hkept.1 ref href]
      change List.Perm ((bills id s.file).map _ ++ (_ ++ ((due ring (SortedMap.lookup id
        (s.purgeCache now).cdrMap) (events id ops)).map _).toList)) _
      rw [hlook]
      exact List.Perm.refl _
    | add dat =>
      change List.Perm ((bills id (s.add ring dat).file).map _ ++ (_ ++ ((due ring (SortedMap.lookup id
        (s.add ring dat).cdrMap) (events id ops)).map _).toList)) _
      by_cases hid : dat.callId = id
      · rw [events, if_pos hid]
        have hlook : SortedMap.lookup id (s.add ring dat).cdrMap =
            (merge ring (SortedMap.lookup id s.cdrMap) dat).1 := hid ▸ lookup_add
        have hrep : reported (dat :: events id ops) = reported [dat] ++ reported (events id ops) :=
          List.filter_append [dat] _
        rw [hlook, add_file, hid, bills_append, ← List.singleton_append, bills_append, hrep, List.map_append,
          List.map_append, List.map_append, bills_dump hid]
        -- the dump stands for the event; the bill, if there is one, is the one that was due
        obtain ⟨bill, hbill, hev, hend, hnew, hdue⟩ | ⟨hnone, hdue⟩ :=
          merge_due ring (SortedMap.lookup id s.cdrMap) dat (events id ops)
        · have hcall : bill.callId = id := by
            rw [← hid] at hnew ⊢
            exact merge_callId (fun ref hold => hs.keyed _ ref hold) hnew
          have hlate : due ring (some bill) (events id ops) = none := by rw [due, if_pos hev]
          have hb : (bills id [bill]).map (·.gwEndTime) = [dat.gwEndTime] := by
            simp [bills, hcall, hev, hend]
          rw [hbill, hnew, hdue, hlate, Option.toList_some, hb]
          simp only [Option.map_none, Option.toList_none, Option.map_some, Option.toList_some,
            List.append_nil, List.append_assoc]
          exact ((List.perm_append_comm.append_left _)).append_left _
        · rw [hnone, hdue]
          simp [bills]
      · rw [events, if_neg hid, bills_add_of_ne hs hid, lookup_add_of_ne (Ne.symm hid)]

/-- A call has the one bill that is due to it exactly if no event of it came as a bill. -/
theorem oneBill_iff (ring : Bool) (id : List Char) (ops : List (Op w))
    (hkept : (machine ring).Along (Keeps id) (machine ring).init ops) :
    OneBill ring id ops ↔ ∀ dat ∈ events id ops, dat.callEvent ≠ CALL_BILL := by
  have hperm := endTimes_run ops (machine ring).init wellFormed_init hkept
  rw [show bills id (machine ring : Machine (CdrCache w) (Op w) Unit).init.file = [] from rfl,
    show due ring (SortedMap.lookup id (machine ring : Machine (CdrCache w) (Op w) Unit).init.cdrMap)
      (events id ops) = closing ring (events id ops) from rfl, List.map_nil, List.nil_append] at hperm
  constructor
  · intro hone dat hdat hbill
    rw [OneBill] at hone
    have hlen := hperm.length_eq
    rw [hone, List.length_append, List.length_map] at hlen
    have hmem : dat ∈ reported (events id ops) := List.mem_filter.mpr ⟨hdat, by simpa using hbill⟩
    have hpos := List.length_pos_of_mem hmem
    omega
  · intro hnone
    have hrep : reported (events id ops) = [] :=
      List.filter_eq_nil_iff.mpr fun dat hdat => by simpa using hnone dat hdat
    rw [hrep, List.map_nil, List.nil_append] at hperm
    rw [OneBill]
    cases hclose : (closing ring (events id ops)).map (·.gwEndTime) with
    | none =>
      rw [hclose] at hperm
      exact hperm.eq_nil
    | some t =>
      rw [hclose] at hperm
      exact List.perm_singleton.mp hperm

/-- A call that rings, starts and ends while another one starts is billed once. -/
theorem oneBill_iff_answered :
    let call : List Char := ['c']
    let ops : List (Op 64) := [.add { callId := ['c'], callEvent := CALL_RING, gwStartRing := 5 },
      .add { callId := ['c'], callEvent := CALL_START, gwStartTime := 7 },
      .add { callId := ['d'], callEvent := CALL_START, gwStartTime := 8 }, .purge 9,
      .add { callId := ['c'], callEvent := CALL_END, gwEndTime := 12 },
      .add { callId := ['c'], callEvent := CALL_END, gwEndTime := 13 }]
    (machine false).Along (Keeps call) (machine false).init ops ∧ OneBill false call ops := by
  have hkept : (machine false).Along (Keeps ['c']) (machine false).init
      [.add { callId := ['c'], callEvent := CALL_RING, gwStartRing := 5 },
      .add { callId := ['c'], callEvent := CALL_START, gwStartTime := 7 },
      .add { callId := ['d'], callEvent := CALL_START, gwStartTime := 8 }, .purge (9 : BitVec 64),
      .add { callId := ['c'], callEvent := CALL_END, gwEndTime := 12 },
      .add { callId := ['c'], callEvent := CALL_END, gwEndTime := 13 }] := by
    refine ⟨trivial, trivial, trivial, fun ref href => ?_, trivial, trivial, trivial⟩
    obtain rfl := Option.some.inj href
    decide
  exact ⟨hkept, (oneBill_iff false _ _ hkept).mpr (by decide)⟩

/-- An event that comes as a bill is in the file as a bill, although the call was never opened. -/
theorem not_oneBill : ¬ ∀ (ring : Bool) (id : List Char) (ops : List (Op 64)),
    (machine ring).Along (Keeps id) (machine ring).init ops → OneBill ring id ops := by
  intro h
  have hone := h false ['c'] [.add { callId := ['c'], callEvent := CALL_BILL }] ⟨trivial, trivial⟩
  rw [OneBill] at hone
  exact absurd hone (by decide)

end Vocal.Cdr.CdrCache
