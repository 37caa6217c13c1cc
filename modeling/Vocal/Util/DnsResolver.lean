import Mathlib.Data.BitVec
import Mathlib.Data.List.Perm.Basic

/-!
# Balancing the load of servers

`DnsResolver` keeps the records of a name by their priority, and mixes those of one priority by their weights and by
random numbers. There is no result where an access is outside of the list or an assertion fails.
-/

namespace Vocal.Util

/-- `DnsRecord`. -/
structure DnsRecord where
  qtype : Int := 0
  priority : Int := 0
  weight : Int := 0
  port : Int := 0
  target : String := ""
  address : String := ""
  deriving DecidableEq, Repr

/-- `DnsResolver`: the records, how many they are, and which is the next to hand out. -/
structure DnsResolver where
  ready : Bool
  numDns : Nat
  curIdx : Nat
  vDns : List DnsRecord

namespace DnsResolver

/-- A sum as an `int`. -/
def addInt (a b : Int) : Int := (a + b).bmod (2 ^ 32)

/-- The loop of `findPriorityRange`. -/
def rangeEnd (v : List DnsRecord) (prio : Int) (endIdx : Nat) : Nat :=
  if h : endIdx < v.length then
    if prio = v[endIdx].priority then rangeEnd v prio (endIdx + 1) else endIdx
  else endIdx
termination_by v.length - endIdx

/-- `DnsResolver::findPriorityRange`. -/
def findPriorityRange (v : List DnsRecord) (startIdx : Nat) : Option Nat :=
  if h : startIdx < v.length then some (rangeEnd v v[startIdx].priority (startIdx + 1) - 1) else none

/-- The loop of `addWeights`, from `x` on. -/
def addWeightsFrom (v : List DnsRecord) (endIdx x : Nat) (sumOfWeights : Int) : Option Int :=
  if x ≤ endIdx then
    v[x]?.bind fun r => addWeightsFrom v endIdx (x + 1) (addInt sumOfWeights r.weight)
  else some sumOfWeights
termination_by endIdx + 1 - x

/-- `DnsResolver::addWeights`. -/
def addWeights (v : List DnsRecord) (startIdx endIdx : Nat) : Option Int := addWeightsFrom v endIdx startIdx 0

section

/- How `randWeight < curWeight` comes out, of a random number, the sum of the weights and the current weight, and the random numbers
in turn. -/
variable (below : Nat → Int → Int → Bool) (rand : Nat → Nat)

/-- The inner loop of `sortByWeight`, from `j` on. -/
def select (v : List DnsRecord) (random : Nat) (sumOfWeights : Int) (endIdx j : Nat) (curWeight : Int) : Option Nat :=
  if j ≤ endIdx then
    v[j]?.bind fun r =>
      let curWeight := addInt curWeight r.weight
      if below random sumOfWeights curWeight then some j else select v random sumOfWeights endIdx (j + 1) curWeight
  else some j
termination_by endIdx + 1 - j

/-- The two records change their places. -/
def swap (v : List DnsRecord) (i j : Nat) : Option (List DnsRecord) :=
  if i ≠ j then
    v[i]?.bind fun tRec => v[j]?.map fun r => (v.set i r).set j tRec
  else some v

/-- The outer loop of `sortByWeight`, from `i` on, with the number of random numbers that were taken. -/
def sortFrom (endIdx i : Nat) (v : List DnsRecord) (taken : Nat) : Option (List DnsRecord × Nat) :=
  if i < endIdx then
    (addWeights v i endIdx).bind fun sumOfWeights =>
    (select below v (rand taken) sumOfWeights endIdx i 0).bind fun j =>
    (swap v i (if endIdx < j then endIdx else j)).bind fun v =>
    sortFrom endIdx (i + 1) v (taken + 1)
  else some (v, taken)
termination_by endIdx - i

/-- `DnsResolver::sortByWeight`. -/
def sortByWeight (v : List DnsRecord) (taken startIdx endIdx : Nat) : Option (List DnsRecord × Nat) :=
  if v.length ≤ 1 then some (v, taken)
  else (addWeights v startIdx endIdx).bind fun sumOfWeights =>
    if sumOfWeights = 0 then some (v, taken) else sortFrom below rand endIdx startIdx v taken

/-- The loop of `loadBalance`, with the iterator `i` and the end of the range before `startIdx`. -/
def balanceFrom : Nat → List DnsRecord → Nat → Nat → Nat → Option (List DnsRecord × Nat)
  | 0, _, _, _, _ => none
  | fuel + 1, v, taken, i, startIdx =>
    if i = v.length then some (v, taken)
    else v[i]?.bind fun _ => (findPriorityRange v startIdx).bind fun endIdx =>
      if startIdx = endIdx then balanceFrom fuel v taken (i + 1) (endIdx + 1)
      else (sortByWeight below rand v taken startIdx endIdx).bind fun sorted =>
        balanceFrom fuel sorted.1 sorted.2 (i + (endIdx + 1 - startIdx)) (endIdx + 1)

/-- `DnsResolver::loadBalance`. Each turn of the loop takes at least one record. -/
def loadBalance (s : DnsResolver) : Option DnsResolver :=
  if s.vDns.length ≤ 1 then some s
  else (balanceFrom below rand (s.vDns.length + 1) s.vDns 0 0 0).map fun sorted => { s with vDns := sorted.1 }

end

/-- `DnsResolver::getNextRecord`. -/
def getNextRecord (s : DnsResolver) : Option (Option DnsRecord × DnsResolver) :=
  if s.ready = false then some (none, s)
  else if s.numDns ≤ s.curIdx then some (none, s)
  else s.vDns[s.curIdx]?.map fun r => (some r, { s with curIdx := s.curIdx + 1 })

/-- The records of a number of calls of `getNextRecord`. -/
def getRecords : Nat → DnsResolver → Option (List (Option DnsRecord))
  | 0, _ => some []
  | n + 1, s => s.getNextRecord.bind fun next => (getRecords n next.2).map (next.1 :: ·)

/-! ## What a range keeps -/

variable (below : Nat → Int → Int → Bool) (rand : Nat → Nat) {v v' : List DnsRecord}

/-- The records are the same, and so is the priority at each place. -/
structure Kept (v v' : List DnsRecord) : Prop where
  perm : v'.Perm v
  priorities : v'.map DnsRecord.priority = v.map DnsRecord.priority

theorem Kept.refl (v : List DnsRecord) : Kept v v := ⟨.refl v, rfl⟩

theorem Kept.trans {v'' : List DnsRecord} (h : Kept v v') (h' : Kept v' v'') : Kept v v'' :=
  ⟨h'.perm.trans h.perm, h'.priorities.trans h.priorities⟩

theorem Kept.length_eq (h : Kept v v') : v'.length = v.length := h.perm.length_eq

/-- The order by priority depends on the priorities alone. -/
theorem Kept.sorted (h : Kept v v') (hsorted : v.Pairwise (·.priority ≤ ·.priority)) :
    v'.Pairwise (·.priority ≤ ·.priority) := by
  have hmap : (v.map DnsRecord.priority).Pairwise (· ≤ ·) := List.pairwise_map.mpr hsorted
  rw [← h.priorities] at hmap
  exact List.pairwise_map.mp hmap

/-- The places from the first to the last have one priority. -/
def SamePriority (v : List DnsRecord) (prio : Int) (first last : Nat) : Prop :=
  last < v.length ∧ ∀ x, first ≤ x → x ≤ last → (v.map DnsRecord.priority)[x]? = some prio

theorem SamePriority.of_kept {prio : Int} {first last : Nat} (h : SamePriority v prio first last) (hkept : Kept v v') :
    SamePriority v' prio first last := by
  rw [SamePriority, hkept.length_eq, hkept.priorities]
  exact h

theorem SamePriority.mono {prio : Int} {first first' last : Nat} (h : SamePriority v prio first last) (hle : first ≤ first') :
    SamePriority v prio first' last :=
  ⟨h.1, fun x hfirst hlast => h.2 x (hle.trans hfirst) hlast⟩

theorem set_of_getElem?_eq {α : Type} {l : List α} {i : Nat} {a : α} (h : l[i]? = some a) : l.set i a = l := by
  obtain ⟨hi, rfl⟩ := List.getElem?_eq_some_iff.mp h
  exact List.set_getElem_self hi

theorem exists_swap {prio : Int} {first last i j : Nat} (h : SamePriority v prio first last) (hi : first ≤ i ∧ i ≤ last)
    (hj : first ≤ j ∧ j ≤ last) : ∃ v', swap v i j = some v' ∧ Kept v v' := by
  obtain ⟨hlast, hsame⟩ := h
  have hiv : i < v.length := by omega
  have hjv : j < v.length := by omega
  by_cases hij : i = j
  · exact ⟨v, by rw [swap, if_neg (not_not.mpr hij)], .refl v⟩
  · refine ⟨(v.set i v[j]).set j v[i], ?_, List.set_set_perm hiv hjv, ?_⟩
    · rw [swap, if_pos hij, List.getElem?_eq_getElem hiv, List.getElem?_eq_getElem hjv]
      rfl
    · have hpi : v[i].priority = prio := by simpa [hiv] using hsame i hi.1 hi.2
      have hpj : v[j].priority = prio := by simpa [hjv] using hsame j hj.1 hj.2
      rw [List.map_set, List.map_set, hpj, hpi, set_of_getElem?_eq (hsame i hi.1 hi.2), set_of_getElem?_eq (hsame j hj.1 hj.2)]

theorem exists_addWeightsFrom {endIdx : Nat} (h : endIdx < v.length) (x : Nat) (sum : Int) :
    ∃ n, addWeightsFrom v endIdx x sum = some n := by
  fun_induction addWeightsFrom v endIdx x sum with
  | case1 x sum hle ih =>
    rw [List.getElem?_eq_getElem (by omega)]
    exact ih _
  | case2 x sum hle => exact ⟨sum, rfl⟩

theorem exists_select {endIdx : Nat} (h : endIdx < v.length) (random : Nat) (sum : Int) (j : Nat) (cur : Int) :
    ∃ j', select below v random sum endIdx j cur = some j' ∧ j ≤ j' := by
  induction hn : endIdx + 1 - j generalizing j cur with
  | zero => exact ⟨j, by rw [select, if_neg (by omega)], le_refl j⟩
  | succ n ih =>
    rw [select, if_pos (by omega), List.getElem?_eq_getElem (by omega), Option.bind_some]
    dsimp only
    split_ifs
    · exact ⟨j, rfl, le_refl j⟩
    · obtain ⟨j', hj', hle⟩ := ih (j + 1) _ (by omega)
      exact ⟨j', hj', by omega⟩

/-- A turn of the loop changes two places of the range. -/
theorem exists_sortFrom {prio : Int} {endIdx i : Nat} (h : SamePriority v prio i endIdx) (taken : Nat) :
    ∃ sorted, sortFrom below rand endIdx i v taken = some sorted ∧ Kept v sorted.1 := by
  induction hn : endIdx - i generalizing i v taken with
  | zero => exact ⟨(v, taken), by rw [sortFrom, if_neg (by omega)], .refl v⟩
  | succ n ih =>
    obtain ⟨sum, hsum⟩ := exists_addWeightsFrom h.1 i 0
    obtain ⟨j, hj, hle⟩ := exists_select below h.1 (rand taken) sum i 0
    obtain ⟨v', hswap, hkept⟩ := exists_swap (i := i) (j := if endIdx < j then endIdx else j) h (by omega)
      (by split_ifs <;> omega)
    obtain ⟨sorted, hsorted, hkept'⟩ := ih ((h.mono (Nat.le_succ i)).of_kept hkept) (taken + 1) (by omega)
    refine ⟨sorted, ?_, hkept.trans hkept'⟩
    rw [sortFrom, if_pos (by omega), addWeights, hsum, Option.bind_some, hj, Option.bind_some, hswap, Option.bind_some, hsorted]

theorem exists_sortByWeight {prio : Int} {startIdx endIdx : Nat} (h : SamePriority v prio startIdx endIdx) (taken : Nat) :
    ∃ sorted, sortByWeight below rand v taken startIdx endIdx = some sorted ∧ Kept v sorted.1 := by
  rw [sortByWeight]
  split_ifs
  · exact ⟨(v, taken), rfl, .refl v⟩
  · obtain ⟨sum, hsum⟩ := exists_addWeightsFrom h.1 startIdx 0
    rw [addWeights, hsum, Option.bind_some]
    split_ifs
    · exact ⟨(v, taken), rfl, .refl v⟩
    · exact exists_sortFrom below rand h taken

/-! ## The ranges -/

theorem rangeEnd_spec (prio : Int) (endIdx : Nat) (h : endIdx ≤ v.length) :
    (endIdx ≤ rangeEnd v prio endIdx ∧ rangeEnd v prio endIdx ≤ v.length) ∧
      ∀ x, endIdx ≤ x → x < rangeEnd v prio endIdx → (v.map DnsRecord.priority)[x]? = some prio := by
  fun_induction rangeEnd v prio endIdx with
  | case1 endIdx hlt hprio ih =>
    obtain ⟨⟨hle, hlast⟩, hsame⟩ := ih hlt
    refine ⟨⟨by omega, hlast⟩, fun x hx hx' => ?_⟩
    rcases Nat.eq_or_lt_of_le hx with rfl | hx
    · simp [hlt, hprio]
    · exact hsame x hx hx'
  | case2 endIdx hlt hprio => exact ⟨⟨le_refl _, h⟩, fun x hx hx' => by omega⟩
  | case3 endIdx hlt => exact ⟨⟨le_refl _, h⟩, fun x hx hx' => by omega⟩

theorem exists_findPriorityRange {startIdx : Nat} (h : startIdx < v.length) :
    ∃ endIdx prio, findPriorityRange v startIdx = some endIdx ∧ startIdx ≤ endIdx ∧ SamePriority v prio startIdx endIdx := by
  obtain ⟨⟨hle, hlast⟩, hsame⟩ := rangeEnd_spec v[startIdx].priority (startIdx + 1) h
  refine ⟨_, v[startIdx].priority, by rw [findPriorityRange, dif_pos h], by omega, by omega, fun x hx hx' => ?_⟩
  rcases Nat.eq_or_lt_of_le hx with rfl | hx
  · simp [h]
  · exact hsame x hx (by omega)

theorem exists_balanceFrom {fuel i : Nat} (hi : i ≤ v.length) (hfuel : v.length - i < fuel) (taken : Nat) :
    ∃ sorted, balanceFrom below rand fuel v taken i i = some sorted ∧ Kept v sorted.1 := by
  induction fuel generalizing i v taken with
  | zero => omega
  | succ fuel ih =>
    rw [balanceFrom]
    by_cases hend : i = v.length
    · exact ⟨(v, taken), if_pos hend, .refl v⟩
    · have hlt : i < v.length := by omega
      obtain ⟨endIdx, prio, hrange, hle, hsame⟩ := exists_findPriorityRange hlt
      have hlast := hsame.1
      rw [if_neg hend, List.getElem?_eq_getElem hlt, Option.bind_some, hrange, Option.bind_some]
      by_cases hone : i = endIdx
      · rw [if_pos hone, ← hone]
        exact ih (by omega) (by omega) taken
      · obtain ⟨sorted, hsorted, hkept⟩ := exists_sortByWeight below rand hsame taken
        have hlength := hkept.length_eq
        rw [if_neg hone, hsorted, Option.bind_some, show i + (endIdx + 1 - i) = endIdx + 1 by omega]
        obtain ⟨sorted', hsorted', hkept'⟩ := ih (v := sorted.1) (i := endIdx + 1) (by omega) (by omega) sorted.2
        exact ⟨sorted', hsorted', hkept.trans hkept'⟩

/-! ## The records that are handed out -/

theorem getRecords_eq {s : DnsResolver} (hready : s.ready = true) (hnum : s.numDns = s.vDns.length) (more : Nat) :
    s.getRecords (s.vDns.length - s.curIdx + more) =
      some ((s.vDns.drop s.curIdx).map some ++ List.replicate more none) := by
  induction hn : s.vDns.length - s.curIdx generalizing s with
  | zero =>
    rw [List.drop_of_length_le (by omega), Nat.zero_add, List.map_nil, List.nil_append]
    induction more with
    | zero => rfl
    | succ more ih =>
      rw [getRecords, getNextRecord, if_neg (by simp [hready]), if_pos (by omega), Option.bind_some, ih]
      rfl
  | succ n ih =>
    have hlt : s.curIdx < s.vDns.length := by omega
    have hnext := ih (s := { s with curIdx := s.curIdx + 1 }) hready hnum (by dsimp only; omega)
    rw [Nat.succ_add, getRecords, getNextRecord, if_neg (by simp [hready]), if_neg (by omega),
      List.getElem?_eq_getElem hlt, Option.map_some, Option.bind_some, hnext, List.drop_eq_getElem_cons hlt]
    rfl

/-- `loadBalance` comes to an end with the same records in an order by priority, and each of them is then handed out once. -/
theorem loadBalance_keeps {s : DnsResolver} (hready : s.ready = true)
    (hnum : s.numDns = s.vDns.length) (hcur : s.curIdx = 0) (hsorted : s.vDns.Pairwise (·.priority ≤ ·.priority)) :
    ∃ s', s.loadBalance below rand = some s' ∧ s'.vDns.Perm s.vDns ∧ s'.vDns.Pairwise (·.priority ≤ ·.priority) ∧
      ∀ more, s'.getRecords (s.vDns.length + more) = some (s'.vDns.map some ++ List.replicate more none) := by
  obtain ⟨v', hbalance, hkept⟩ : ∃ v', s.loadBalance below rand = some { s with vDns := v' } ∧ Kept s.vDns v' := by
    rw [loadBalance]
    split_ifs
    · exact ⟨s.vDns, rfl, .refl _⟩
    · obtain ⟨sorted, hsorted, hkept⟩ := exists_balanceFrom below rand (Nat.zero_le s.vDns.length)
        (Nat.lt_add_one s.vDns.length) 0
      exact ⟨sorted.1, by rw [hsorted]; rfl, hkept⟩
  refine ⟨_, hbalance, hkept.perm, hkept.sorted hsorted, fun more => ?_⟩
  have hrecords := getRecords_eq (s := { s with vDns := v' }) hready (hnum.trans hkept.length_eq.symm) more
  simpa only [hcur, Nat.sub_zero, List.drop_zero, hkept.length_eq] using hrecords

/-- Three records of two priorities, by exact random weights. -/
theorem loadBalance_keeps_three :
    ∃ s', loadBalance (fun random sum cur => decide (random * sum < cur * 32767)) (fun n => 9973 * n)
        ⟨true, 3, 0, [{ priority := 1, weight := 0 }, { priority := 1, weight := 7 }, { priority := 2 }]⟩ = some s' ∧
      s'.vDns.Perm [{ priority := 1, weight := 0 }, { priority := 1, weight := 7 }, { priority := 2 }] ∧
      s'.vDns.Pairwise (·.priority ≤ ·.priority) ∧
      ∀ more, s'.getRecords (3 + more) = some (s'.vDns.map some ++ List.replicate more none) :=
  loadBalance_keeps _ _ rfl rfl rfl (by decide)

end DnsResolver

end Vocal.Util
