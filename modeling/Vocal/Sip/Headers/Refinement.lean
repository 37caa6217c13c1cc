import Vocal.Lib.Family
import Vocal.Sip.Headers

/-!
# The headers of each type as a plain list

The operations of `SipRawHeaderContainer` walk along chains of linked headers. What they do to the headers of a
type is what the operations of lists say that `onList` names, whatever the order in which they are called and
whatever the container held before, and they leave the headers of the other types alone.
-/

namespace Vocal.Sip.HeaderLists

open LazyHeader

variable {H : Type}

/-- A call of an operation of the container. -/
inductive Op (H : Type)
  | insertManyHeader (header : LazyHeader H) (next : List (LazyHeader H))
  | insertHeader (header : LazyHeader H) (pos : Int)
  | appendHeader (type : SipHeaderType) (p : Option H) (local_ip : Data) (pos : Int)
  | removeHeader (type : SipHeaderType) (index : Int)
  | setNumHeaders (type : SipHeaderType) (number : Int)
  | getHeaderOrCreate (type : SipHeaderType) (local_ip : Data) (index : Int)

/-- The type of header that the call is about. -/
def Op.type : Op H → SipHeaderType
  | .insertManyHeader header _ | .insertHeader header _ => header.headerType
  | .appendHeader type .. | .removeHeader type _ | .setNumHeaders type _ | .getHeaderOrCreate type .. => type

/-- The container after a call, with the header it returns. -/
def call (c : HeaderLists H) : Op H → Option (HeaderLists H × Option (LazyHeader H))
  | .insertManyHeader header next => some (c.insertManyHeader header next, none)
  | .insertHeader header pos => (c.insertHeader header pos).map (·, none)
  | .appendHeader type p local_ip pos => (c.appendHeader type p local_ip pos).map (·, none)
  | .removeHeader type index => (c.removeHeader type index).map (·, none)
  | .setNumHeaders type number => (c.setNumHeaders type number).map (·, none)
  | .getHeaderOrCreate type local_ip index =>
    some ((c.getHeaderOrCreate type local_ip index).1, some (c.getHeaderOrCreate type local_ip index).2)

def calls (c : HeaderLists H) : List (Op H) → Option (HeaderLists H × List (Option (LazyHeader H)))
  | [] => some (c, [])
  | op :: ops => (c.call op).bind fun x => (calls x.1 ops).map fun y => (y.1, x.2 :: y.2)

/-! ### The same on a list

Positions count from 0, and -1 is the end. An insertion may be at the end too; a removal there takes nothing
off. -/

variable {α : Type}

def putAt (l : List α) (a : α) (pos : Int) : Option (List α) :=
  if pos = -1 then some (l ++ [a])
  else if 0 ≤ pos ∧ pos ≤ l.length then some (l.insertIdx pos.toNat a)
  else none

def takeAt (l : List α) (index : Int) : Option (List α) :=
  if index = -1 then some l.dropLast
  else if 0 ≤ index ∧ index ≤ l.length then some (l.eraseIdx index.toNat)
  else none

def cutTo (l : List α) (number : Int) : Option (List α) :=
  if 0 ≤ number then some (l.take number.toNat) else none

/-- At least a number of elements, the missing ones blank. -/
def padTo (blank : α) (l : List α) (n : Nat) : List α := l ++ List.replicate (n - l.length) blank

/-- The list long enough for the position, and the element there; a negative position is the last. -/
def reach (l : List α) (blank : α) (index : Int) : List α × Option α :=
  if 0 ≤ index then (padTo blank l (index.toNat + 1), (padTo blank l (index.toNat + 1))[index.toNat]?)
  else (padTo blank l 1, (padTo blank l 1).getLast?)

/-- A call on the list of the headers of its type. -/
def onList : Op H → List (LazyHeader H) → Option (List (LazyHeader H) × Option (LazyHeader H))
  | .insertManyHeader header next, l => some (l ++ header :: next, none)
  | .insertHeader header pos, l => (putAt l header pos).map (·, none)
  | .appendHeader type p local_ip pos, l => (putAt l (ofHeader type p local_ip) pos).map (·, none)
  | .removeHeader _ index, l => (takeAt l index).map (·, none)
  | .setNumHeaders _ number, l => (cutTo l number).map (·, none)
  | .getHeaderOrCreate type local_ip index, l => some (reach l (blank type local_ip) index)

/-! ### The walks -/

theorem insertManyWalk_eq (header l : List (LazyHeader H)) : insertManyWalk header l = l ++ header := by
  induction l with
  | nil => rfl
  | cons n ns ih => rw [insertManyWalk, ih, List.cons_append]

theorem insertWalk_neg {pos : Int} (hpos : pos < 0) (header : LazyHeader H) (l : List (LazyHeader H)) :
    insertWalk header l pos = if pos = -1 then some (l ++ [header]) else none := by
  induction l with
  | nil =>
    unfold insertWalk
    rw [List.nil_append]
    exact if_congr (by omega) rfl rfl
  | cons n ns ih =>
    unfold insertWalk
    rw [if_pos (by omega), if_neg (by omega), ih]
    split_ifs <;> rfl

theorem insertWalk_nat (header : LazyHeader H) (l : List (LazyHeader H)) (pos : Nat) :
    insertWalk header l pos = if pos ≤ l.length then some (l.insertIdx pos header) else none := by
  induction l generalizing pos with
  | nil =>
    unfold insertWalk
    cases pos with
    | zero => rfl
    | succ pos => rw [if_neg (by omega), if_neg (by simp)]
  | cons n ns ih =>
    unfold insertWalk
    cases pos with
    | zero => simp
    | succ pos =>
      rw [if_pos (by omega), if_pos (by omega), show ((pos + 1 : Nat) : Int) - 1 = (pos : Int) by omega, ih]
      simp only [List.length_cons, Nat.add_le_add_iff_right, List.insertIdx_succ_cons]
      split_ifs <;> rfl

theorem insertWalk_eq (header : LazyHeader H) (l : List (LazyHeader H)) (pos : Int) :
    insertWalk header l pos = putAt l header pos := by
  unfold putAt
  by_cases hneg : pos < 0
  · rw [insertWalk_neg hneg]
    exact if_congr Iff.rfl rfl (if_neg (by omega)).symm
  · obtain ⟨k, rfl⟩ := Int.eq_ofNat_of_zero_le (by omega : 0 ≤ pos)
    rw [insertWalk_nat, Int.toNat_natCast, if_neg (show (k : Int) ≠ -1 by omega)]
    exact if_congr (by omega) rfl rfl

theorem removeLast_eq (l : List (LazyHeader H)) : removeLast l = l.dropLast := by
  fun_induction removeLast l with
  | case1 => rfl
  | case2 => rfl
  | case3 n m ns ih => rw [ih, List.dropLast_cons_cons]

theorem removeWalk_neg {index : Int} (h : index < 0) (l : List (LazyHeader H)) : removeWalk l index = none := by
  induction l generalizing index with
  | nil =>
    unfold removeWalk
    exact if_pos (by omega)
  | cons n ns ih =>
    unfold removeWalk
    rw [if_pos (by omega), ih (by omega)]
    rfl

theorem removeWalk_nat (l : List (LazyHeader H)) (index : Nat) :
    removeWalk l index = if index ≤ l.length then some (l.eraseIdx index) else none := by
  induction l generalizing index with
  | nil =>
    unfold removeWalk
    cases index with
    | zero => rfl
    | succ index => rw [if_pos (by omega), if_neg (by simp)]
  | cons n ns ih =>
    unfold removeWalk
    cases index with
    | zero => simp
    | succ index =>
      rw [if_pos (by omega), show ((index + 1 : Nat) : Int) - 1 = (index : Int) by omega, ih]
      simp only [List.length_cons, Nat.add_le_add_iff_right, List.eraseIdx_cons_succ]
      split_ifs <;> rfl

theorem removeWalk_eq (l : List (LazyHeader H)) (index : Int) :
    (if index ≠ -1 then removeWalk l index else some (removeLast l)) = takeAt l index := by
  unfold takeAt
  by_cases hlast : index = -1
  · rw [if_neg (by omega), if_pos hlast, removeLast_eq]
  · rw [if_pos hlast, if_neg hlast]
    by_cases hneg : index < 0
    · rw [removeWalk_neg hneg, if_neg (by omega)]
    · obtain ⟨k, rfl⟩ := Int.eq_ofNat_of_zero_le (by omega : 0 ≤ index)
      rw [removeWalk_nat, Int.toNat_natCast]
      exact if_congr (by omega) rfl rfl

theorem setNumWalk_eq (l : List (LazyHeader H)) (number : Nat) : setNumWalk l number = l.take number := by
  fun_induction setNumWalk l number with
  | case1 => rw [List.take_nil]
  | case2 => rfl
  | case3 n ns number ih => rw [ih, List.take_succ_cons]

theorem getWalk_nil (blank : LazyHeader H) (index : Nat) :
    getWalk blank [] index = (List.replicate (index + 1) blank, blank) := by
  induction index with
  | zero => rfl
  | succ index ih => rw [getWalk, ih]; rfl

theorem getWalk_fst (blank : LazyHeader H) (l : List (LazyHeader H)) (index : Nat) :
    (getWalk blank l index).1 = padTo blank l (index + 1) := by
  induction l generalizing index with
  | nil => rw [getWalk_nil]; rfl
  | cons n ns ih =>
    unfold padTo
    cases index with
    | zero => simp [getWalk]
    | succ index =>
      have htail := ih index
      unfold padTo at htail
      rw [getWalk, htail, List.length_cons, Nat.add_sub_add_right]
      rfl

theorem getWalk_snd (blank : LazyHeader H) (l : List (LazyHeader H)) (index : Nat) :
    (getWalk blank l index).1[index]? = some (getWalk blank l index).2 := by
  induction l generalizing index with
  | nil => simp [getWalk_nil]
  | cons n ns ih =>
    cases index with
    | zero => rfl
    | succ index => rw [getWalk, List.getElem?_cons_succ, ih]

theorem getLastWalk_eq (q : LazyHeader H) (l : List (LazyHeader H)) :
    (q :: l).getLast? = some (getLastWalk q l) := by
  induction l generalizing q with
  | nil => rfl
  | cons n ns ih => rw [List.getLast?_cons_cons, ih, getLastWalk]

theorem getOrCreate_eq (l : List (LazyHeader H)) (blank : LazyHeader H) (index : Int) :
    ((getOrCreate l blank index).1, some (getOrCreate l blank index).2) = reach l blank index := by
  unfold getOrCreate reach
  by_cases hpos : 0 ≤ index
  · rw [if_pos hpos, if_pos hpos, ← getWalk_fst, getWalk_snd]
  · rw [if_neg hpos, if_neg hpos]
    cases l with
    | nil => rfl
    | cons n ns => simp [padTo, ← getLastWalk_eq]

/-! ### The container -/

theorem insertHeader_eq (c : HeaderLists H) (header : LazyHeader H) (pos : Int) :
    c.insertHeader header pos = (putAt (c header.headerType) header pos).map (Function.update c header.headerType) := by
  unfold insertHeader modify
  simp only [insertWalk_eq]

theorem appendHeader_eq (c : HeaderLists H) (type : SipHeaderType) (p : Option H) (local_ip : Data) (pos : Int) :
    c.appendHeader type p local_ip pos =
      (putAt (c type) (ofHeader type p local_ip) pos).map (Function.update c type) :=
  insertHeader_eq c (ofHeader type p local_ip) pos

/-- What a call does is what it does on the list of its type. -/
theorem call_eq (c : HeaderLists H) (op : Op H) : c.call op = Family.step Op.type onList c op := by
  cases op with
  | insertManyHeader header next =>
    show some (c.insertManyHeader header next, none) = _
    unfold insertManyHeader
    rw [insertManyWalk_eq]
    rfl
  | insertHeader header pos =>
    unfold call Family.step onList
    simp only [insertHeader_eq, Option.map_map]
    rfl
  | appendHeader type p local_ip pos =>
    unfold call Family.step onList
    simp only [appendHeader_eq, Option.map_map]
    rfl
  | removeHeader type index =>
    unfold call removeHeader modify Family.step onList
    simp only [removeWalk_eq, Option.map_map]
    rfl
  | setNumHeaders type number =>
    unfold call setNumHeaders modify Family.step onList cutTo
    simp only [setNumWalk_eq, Option.map_map]
    rfl
  | getHeaderOrCreate type local_ip index =>
    show _ = (some (reach (c type) (blank type local_ip) index)).map _
    rw [← getOrCreate_eq]
    rfl

theorem calls_eq (c : HeaderLists H) (ops : List (Op H)) : c.calls ops = Family.run Op.type onList c ops := by
  induction ops generalizing c with
  | nil => rfl
  | cons op ops ih => simp only [calls, Family.run, call_eq, ih]

/-- A sequence of calls gets through if each list gets through the calls for its type; then it leaves each list
as those calls do on it alone, and returns the headers they return, and no call changes a list of another type. -/
theorem calls_refine (c : HeaderLists H) (ops : List (Op H)) :
    ((c.calls ops).isSome ↔ ∀ type, (Family.runAt onList (c type) (Family.opsAt Op.type type ops)).isSome) ∧
    (∀ c' outs, c.calls ops = some (c', outs) → ∀ type,
      Family.runAt onList (c type) (Family.opsAt Op.type type ops) =
        some (c' type, Family.outsAt Op.type type ops outs)) ∧
    (∀ op c' out, c.call op = some (c', out) → ∀ type, type ≠ op.type → c' type = c type) := by
  refine ⟨?_, ?_, ?_⟩
  · rw [calls_eq]
    exact Family.run_isSome_iff c ops
  · intro c' outs h
    rw [calls_eq] at h
    exact Family.runAt_of_run h
  · intro op c' out h type hne
    rw [call_eq] at h
    exact Family.step_of_ne h hne

end Vocal.Sip.HeaderLists
