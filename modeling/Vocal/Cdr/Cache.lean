import Mathlib.Data.Char
import Mathlib.Data.List.Lex
import Vocal.Cdr.Data
import Vocal.Lib.Machine
import Vocal.Lib.SortedMap

/-!
# The cache of calls

`CdrCache`: every event that arrives is dumped to the billing file, and the events of a call are merged into
the record that is cached for it, which is written once more when the call ends. The file is the list of the
records written to it.
-/

namespace Vocal.Cdr

open CdrCallEvent

/-- `CDR_MAX_LIFE`. -/
def CDR_MAX_LIFE : Nat := 86400 * 1000

/-- `CDR_BILL_LIFE`. -/
def CDR_BILL_LIFE : Nat := 10 * 1000

/-- `CdrCache`, with the map in the order of the call ids. -/
structure CdrCache (w : Nat) where
  cdrMap : List (List Char × CdrRadius w) := []
  file : List (CdrRadius w) := []
  deriving DecidableEq, Repr

namespace CdrCache

variable {w : Nat}

def writeCdr (s : CdrCache w) (ref : CdrRadius w) : CdrCache w := { s with file := s.file ++ [ref] }

/-- The record that is dumped for an event. -/
def dump (dat : CdrClient w) : CdrRadius w :=
  { ({} : CdrRadius w).update { dat with callEvent := CALL_UNKNOWN } with callEvent := dat.callEvent }

/-- `CdrCache::add`. -/
def add (billRingTime : Bool) (s : CdrCache w) (dat : CdrClient w) : CdrCache w :=
  let s := s.writeCdr (dump dat)
  match SortedMap.lookup dat.callId s.cdrMap with
  | some ref =>
    if ref.callEvent = CALL_BILL then s
    else if (dat.callEvent = CALL_RING ∧ billRingTime = true) ∨ dat.callEvent = CALL_START then
      { s with cdrMap := SortedMap.insert dat.callId (ref.update dat) s.cdrMap }
    else if dat.callEvent = CALL_END then
      let ref := { ref.update dat with callEvent := CALL_BILL }
      ({ s with cdrMap := SortedMap.insert dat.callId ref s.cdrMap }).writeCdr ref
    else s
  | none =>
    if (dat.callEvent = CALL_START ∧ 0 < dat.gwStartTime) ∨
        (dat.callEvent = CALL_RING ∧ billRingTime = true ∧ 0 < dat.gwStartRing) then
      { s with cdrMap := SortedMap.insert dat.callId (({} : CdrRadius w).update dat) s.cdrMap }
    else s

/-- The condition of `purgeCache`. -/
def expired (now : BitVec w) (ref : CdrRadius w) : Bool :=
  (ref.callEvent = CALL_BILL && decide (CDR_BILL_LIFE < (now - ref.gwEndTime).toNat)) ||
  (ref.gwEndTime ≠ 0 && decide (CDR_MAX_LIFE < (now - ref.gwEndTime).toNat)) ||
  (ref.gwEndTime = 0 && decide (CDR_MAX_LIFE < (now - ref.gwStartTime).toNat))

/-- The loop of `purgeCache` over what is left of the map. -/
def purgeFrom (now : BitVec w) : List (List Char × CdrRadius w) → List (List Char × CdrRadius w)
  | [] => []
  | (id, ref) :: rest => if expired now ref then purgeFrom now rest else (id, ref) :: purgeFrom now rest

/-- `CdrCache::purgeCache`. -/
def purgeCache (now : BitVec w) (s : CdrCache w) : CdrCache w :=
  { s with cdrMap := purgeFrom now s.cdrMap }

inductive Op (w : Nat)
  | add (dat : CdrClient w)
  | purge (now : BitVec w)
  deriving DecidableEq

/-- The cache from its start. -/
def machine (billRingTime : Bool) : Machine (CdrCache w) (Op w) Unit where
  init := {}
  step
    | s, .add dat => (s.add billRingTime dat, ())
    | s, .purge now => (s.purgeCache now, ())

/-! ## One call -/

/-- An event that opens a call. -/
def opens (billRingTime : Bool) (dat : CdrClient w) : Bool :=
  (dat.callEvent = CALL_START && decide (0 < dat.gwStartTime)) ||
  (dat.callEvent = CALL_RING && billRingTime && decide (0 < dat.gwStartRing))

/-- What an event does to the record of its call, and the bill it writes. -/
def merge (billRingTime : Bool) (old : Option (CdrRadius w)) (dat : CdrClient w) :
    Option (CdrRadius w) × Option (CdrRadius w) :=
  match old with
  | some ref =>
    if ref.callEvent = CALL_BILL then (some ref, none)
    else if (dat.callEvent = CALL_RING ∧ billRingTime = true) ∨ dat.callEvent = CALL_START then
      (some (ref.update dat), none)
    else if dat.callEvent = CALL_END then
      let ref := { ref.update dat with callEvent := CALL_BILL }
      (some ref, some ref)
    else (some ref, none)
  | none => if opens billRingTime dat then (some (({} : CdrRadius w).update dat), none) else (none, none)

variable {ring : Bool} {s : CdrCache w} {dat : CdrClient w} {id : List Char} {now : BitVec w}

theorem opens_iff : opens ring dat = true ↔ (dat.callEvent = CALL_START ∧ 0 < dat.gwStartTime) ∨
    (dat.callEvent = CALL_RING ∧ ring = true ∧ 0 < dat.gwStartRing) := by
  simp [opens, and_assoc]

theorem add_file : (s.add ring dat).file =
    s.file ++ dump dat :: (merge ring (SortedMap.lookup dat.callId s.cdrMap) dat).2.toList := by
  unfold add merge
  simp only [writeCdr, opens_iff]
  split <;> split_ifs <;> simp

theorem lookup_add : SortedMap.lookup dat.callId (s.add ring dat).cdrMap =
    (merge ring (SortedMap.lookup dat.callId s.cdrMap) dat).1 := by
  unfold add merge
  simp only [writeCdr, opens_iff]
  split <;> rename_i h <;> split_ifs <;> simp [h]

theorem lookup_add_of_ne (hne : id ≠ dat.callId) :
    SortedMap.lookup id (s.add ring dat).cdrMap = SortedMap.lookup id s.cdrMap := by
  unfold add
  simp only [writeCdr]
  split <;> split_ifs <;> first | rfl | exact SortedMap.lookup_insert_of_ne hne

theorem purgeFrom_eq_filter (m : List (List Char × CdrRadius w)) :
    purgeFrom now m = m.filter fun p => !expired now p.2 := by
  induction m with
  | nil => rfl
  | cons p m ih =>
    rw [purgeFrom, List.filter_cons]
    cases expired now p.2 with
    | true => simpa using ih
    | false => simpa using ih

/-! ## The invariant of the map -/

/-- The map is in order and each record has the id of its key. -/
structure WellFormed (s : CdrCache w) : Prop where
  sorted : SortedMap.Sorted s.cdrMap
  keyed : ∀ id ref, SortedMap.lookup id s.cdrMap = some ref → ref.callId = id

theorem sorted_add (h : SortedMap.Sorted s.cdrMap) : SortedMap.Sorted (s.add ring dat).cdrMap := by
  unfold add
  simp only [writeCdr]
  split <;> split_ifs <;> first | exact h | exact h.insert

theorem dump_callId : (dump dat).callId = dat.callId :=
  CdrRadius.strncpy_callId dat

theorem dump_gwEndTime : (dump dat).gwEndTime = dat.gwEndTime := rfl

theorem dump_callEvent : (dump dat).callEvent = dat.callEvent := rfl

theorem merge_callId {old : Option (CdrRadius w)} {ref : CdrRadius w}
    (hold : ∀ ref, old = some ref → ref.callId = dat.callId)
    (h : (merge ring old dat).1 = some ref) : ref.callId = dat.callId := by
  unfold merge at h
  split at h
  · rename_i r
    have hr := hold r rfl
    have hend : (r.update dat).callId = dat.callId := by
      by_cases he : dat.callEvent = CALL_END
      · rw [(r.update_end he).1, hr]
      · exact r.update_callId he
    split_ifs at h <;> obtain rfl := Option.some.inj h
    · exact hr
    · exact hend
    · exact hend
    · exact hr
  · split_ifs at h with ho
    obtain rfl := Option.some.inj h
    apply CdrRadius.update_callId
    rcases opens_iff.mp ho with ⟨he, -⟩ | ⟨he, -⟩ <;> simp [he]

theorem WellFormed.add (hs : s.WellFormed) : (s.add ring dat).WellFormed := by
  refine ⟨sorted_add hs.sorted, fun id ref h => ?_⟩
  by_cases hid : id = dat.callId
  · subst hid
    rw [lookup_add] at h
    exact merge_callId (fun ref hold => hs.keyed _ ref hold) h
  · rw [lookup_add_of_ne hid] at h
    exact hs.keyed id ref h

theorem WellFormed.lookup_purge (hs : s.WellFormed) : SortedMap.lookup id (s.purgeCache now).cdrMap =
    (SortedMap.lookup id s.cdrMap).filter fun ref => !expired now ref := by
  simp only [purgeCache]
  rw [purgeFrom_eq_filter]
  exact hs.sorted.lookup_filter _

theorem WellFormed.purge (hs : s.WellFormed) : (s.purgeCache now).WellFormed := by
  refine ⟨?_, fun id ref h => ?_⟩
  · simp only [purgeCache]
    rw [purgeFrom_eq_filter]
    exact hs.sorted.filter _
  · rw [hs.lookup_purge] at h
    exact hs.keyed id ref (Option.filter_eq_some_iff.mp h).1

theorem wellFormed_next (hs : s.WellFormed) (op : Op w) : ((machine ring).next s op).WellFormed := by
  cases op with
  | add dat => exact hs.add
  | purge now => exact hs.purge

theorem wellFormed_init : (machine ring : Machine (CdrCache w) (Op w) Unit).init.WellFormed :=
  ⟨SortedMap.sorted_nil, fun id ref h => by cases h⟩

end CdrCache

end Vocal.Cdr
