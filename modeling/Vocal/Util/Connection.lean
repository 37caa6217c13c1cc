import Vocal.Lib.Cut
import Vocal.Util.IOBufferv.Queue

/-!
# Lines from a connection

`Connection::getLine` takes the next line from the receive buffer of a connection. It drops the bytes of the line and
leaves the newline, so that every later call finds an empty line: `getLine_right_iff` says for which runs the calls
return the lines all the same, and which calls write beyond the memory of the caller.
-/

namespace Vocal.Util

open Cut (cut)

namespace Connection

/-! ### The code -/

/-- What a call to `getLine` returns, what it has written to `rbuf`, and the receive buffer after it. -/
structure GotLine where
  ret : Int
  rbuf : List UInt8
  rcvBuf : IOBufferv
  deriving DecidableEq, Repr

/-- The loop of `getLine` over `n` bytes from `i` on: the bytes that are copied, and whether a newline ends them. -/
def copyLine (rcvBuf : IOBufferv) : Nat → Nat → Option (List UInt8 × Bool)
  | 0, _ => some ([], false)
  | n + 1, i =>
    (rcvBuf.charAt i).bind fun c =>
      if c = 10 then some ([], true)
      else (copyLine rcvBuf n (i + 1)).map fun line => (c :: line.1, line.2)

/-- `Connection::getLine`; none where a byte behind the memory is read. -/
def getLine (rcvBuf : IOBufferv) (maxlen : Int) : Option GotLine :=
  let mx : Int := min maxlen rcvBuf.cur_len
  (copyLine rcvBuf mx.toNat 0).bind fun line =>
    let i := line.1.length
    if line.2 ∨ i = maxlen then (rcvBuf.dropFromTail i).map fun rcvBuf => ⟨i, line.1 ++ [0], rcvBuf⟩
    else some ⟨-1, 0 :: line.1.tail, rcvBuf⟩

/-- `Connection::iread`. -/
def iread (rcvBuf : IOBufferv) (desc desc' : IOBufferv.Descriptor) : Option IOBufferv.ReadOut :=
  rcvBuf.read 65536 desc desc'

inductive Op
  | read (desc desc' : IOBufferv.Descriptor)
  | getLine (maxlen : Int)

/-- What is seen of an operation: the bytes that the peer delivers, or a call to `getLine` and what it returns and
writes. -/
inductive Event
  | delivered (bytes : List UInt8)
  | line (maxlen : Int) (got : Option (Int × List UInt8))
  deriving DecidableEq, Repr

/-- What is seen of the operations. A call that reads behind the memory is the last. -/
def events (rcvBuf : IOBufferv) : List Op → List Event
  | [] => []
  | .read desc desc' :: ops =>
    match iread rcvBuf desc desc' with
    | none => []
    | some out => .delivered (IOBufferv.delivered out.calls) :: events out.buffer ops
  | .getLine maxlen :: ops =>
    match getLine rcvBuf maxlen with
    | none => [.line maxlen none]
    | some got => .line maxlen (some (got.ret, got.rbuf)) :: events got.rcvBuf ops

/-! ### Lines of what was delivered -/

/-- The next line of the bytes that were delivered, without its newline, and what follows it. -/
def nextLine (pending : List UInt8) : Option (List UInt8 × List UInt8) :=
  (cut (fun c : UInt8 => c = 10) pending).map fun c => (c.1, c.2.2)

/-- Each call returns the next line that was delivered, as a C string, or a negative value if there is none, and
writes no more than `maxlen` bytes. -/
def ReturnsLines : List UInt8 → List Event → Prop
  | _, [] => True
  | pending, .delivered bytes :: es => ReturnsLines (pending ++ bytes) es
  | pending, .line maxlen got :: es =>
    ∃ ret rbuf, got = some (ret, rbuf) ∧ rbuf.length ≤ maxlen ∧
      match nextLine pending with
      | some (line, rest) => ret = line.length ∧ rbuf = line ++ [0] ∧ ReturnsLines rest es
      | none => ret < 0 ∧ ReturnsLines pending es

/-- Each call has room for the next line, or else for all bytes that wait. -/
def Sufficient : List UInt8 → List Event → Prop
  | _, [] => True
  | pending, .delivered bytes :: es => Sufficient (pending ++ bytes) es
  | pending, .line maxlen _ :: es =>
    match nextLine pending with
    | some (line, rest) => line.length < maxlen ∧ Sufficient rest es
    | none => pending.length < maxlen ∧ Sufficient pending es

/-- The condition: a call that comes after one with a line finds an empty line. -/
def Served : Bool → List UInt8 → List Event → Prop
  | _, _, [] => True
  | any, pending, .delivered bytes :: es => Served any (pending ++ bytes) es
  | any, pending, .line _ _ :: es =>
    match nextLine pending with
    | some (line, rest) => (any = true → line = []) ∧ Served true rest es
    | none => any = false ∧ Served false pending es

variable {u : IOBufferv} {l : List UInt8}

theorem nextLine_eq_some_iff {line rest : List UInt8} :
    nextLine l = some (line, rest) ↔ l = line ++ 10 :: rest ∧ 10 ∉ line := by
  unfold nextLine
  rw [Option.map_eq_some_iff]
  constructor
  · rintro ⟨⟨x, a, y⟩, hcut, hpair⟩
    obtain ⟨rfl, hx, ha⟩ := Cut.cut_eq_some_iff.mp hcut
    obtain ⟨rfl, rfl⟩ := Prod.mk.inj hpair
    refine ⟨by rw [of_decide_eq_true ha], fun hmem => ?_⟩
    exact absurd (hx 10 hmem) (by decide)
  · rintro ⟨rfl, hline⟩
    refine ⟨(line, 10, rest), Cut.cut_append ?_ (by decide), rfl⟩
    intro b hb
    rw [decide_eq_false_iff_not]
    rintro rfl
    exact hline hb

theorem nextLine_eq_none_iff : nextLine l = none ↔ 10 ∉ l := by
  unfold nextLine
  rw [Option.map_eq_none_iff, Cut.cut_eq_none_iff]
  constructor
  · intro h hmem
    exact absurd (h 10 hmem) (by decide)
  · intro h b hb
    rw [decide_eq_false_iff_not]
    rintro rfl
    exact h hb

theorem mem_take_newline {line rest : List UInt8} {maxlen : Int} (h : line.length < maxlen) :
    10 ∈ (line ++ 10 :: rest).take maxlen.toNat := by
  rw [List.take_append, List.mem_append]
  right
  obtain ⟨k, hk⟩ : ∃ k, maxlen.toNat - line.length = k + 1 := ⟨maxlen.toNat - line.length - 1, by omega⟩
  rw [hk, List.take_succ_cons]
  exact List.mem_cons_self ..

/-! ### One call -/

theorem copyLine_spec (h : u.Stores l) {n i : Nat} {line : List UInt8} {found : Bool}
    (hcopy : copyLine u n i = some (line, found)) (hn : i + n ≤ l.length) :
    10 ∉ line ∧ if found then line.length < n ∧ ∃ rest, l.drop i = line ++ 10 :: rest else line = (l.drop i).take n := by
  induction n generalizing i line with
  | zero =>
    obtain ⟨rfl, rfl⟩ := Prod.mk.inj (Option.some.inj hcopy)
    simp
  | succ n ih =>
    rw [copyLine] at hcopy
    obtain ⟨c, hc, hrest⟩ := Option.bind_eq_some_iff.mp hcopy
    have hlt : i < u.cur_len := by
      have hlen := h.cur_len
      omega
    rw [h.charAt hlt] at hc
    have hget : l[i]? = some c := by
      split at hc
      · cases hc
      · exact hc
    obtain ⟨hi, hci⟩ := List.getElem?_eq_some_iff.mp hget
    have hdrop : l.drop i = c :: l.drop (i + 1) := by rw [List.drop_eq_getElem_cons hi, hci]
    rw [hdrop]
    by_cases hnewline : c = 10
    · rw [if_pos hnewline] at hrest
      obtain ⟨rfl, rfl⟩ := Prod.mk.inj (Option.some.inj hrest)
      exact ⟨by simp, by simp, l.drop (i + 1), by rw [hnewline]; rfl⟩
    · rw [if_neg hnewline] at hrest
      obtain ⟨⟨line', found'⟩, hline', hpair⟩ := Option.map_eq_some_iff.mp hrest
      obtain ⟨rfl, rfl⟩ := Prod.mk.inj hpair
      obtain ⟨hnot, hspec⟩ := ih hline' (by omega)
      refine ⟨?_, ?_⟩
      · rw [List.mem_cons, not_or]
        exact ⟨Ne.symm hnewline, hnot⟩
      · dsimp only at hspec ⊢
        split at hspec
        · rename_i hfound
          obtain ⟨hlt', rest, heq⟩ := hspec
          rw [if_pos hfound, heq]
          exact ⟨by simpa using hlt', rest, rfl⟩
        · rename_i hfound
          rw [if_neg hfound, hspec]
          rfl

theorem copyLine_isSome (h : u.Stores l) {n i : Nat} (hn : i + n ≤ l.length) (hend : i + n ≤ u.max_len - u.tail) :
    (copyLine u n i).isSome := by
  induction n generalizing i with
  | zero => rfl
  | succ n ih =>
    have hcur := h.cur_len
    have hcharAt := h.charAt (i := i) (by omega)
    rw [if_neg (by omega), List.getElem?_eq_getElem (by omega)] at hcharAt
    rw [copyLine, hcharAt, Option.bind_some]
    split
    · rfl
    · rw [Option.isSome_map]
      exact ih (by omega) (by omega)

/-- What a call does that reads no byte behind the memory: a newline is found, or the room is used up, or else the
buffer stays. -/
theorem getLine_spec (h : u.Stores l) {maxlen : Int} {got : GotLine} (hgot : getLine u maxlen = some got) :
    (∃ line rest, l = line ++ 10 :: rest ∧ 10 ∉ line ∧ line.length < maxlen ∧ got.ret = line.length ∧
      got.rbuf = line ++ [0] ∧ got.rcvBuf.Stores (10 :: rest)) ∨
    (0 ≤ maxlen ∧ maxlen ≤ l.length ∧ 10 ∉ l.take maxlen.toNat ∧ got.rbuf = l.take maxlen.toNat ++ [0]) ∨
    ((0 ≤ maxlen → l.length < maxlen ∧ 10 ∉ l ∧ got.rbuf = 0 :: l.tail) ∧
      (maxlen < 0 → got.rbuf = [0]) ∧ got.ret = -1 ∧ got.rcvBuf = u) := by
  have hcur := h.cur_len
  unfold getLine at hgot
  dsimp only at hgot
  obtain ⟨⟨line, found⟩, hcopy, hrest⟩ := Option.bind_eq_some_iff.mp hgot
  obtain ⟨hnot, hspec⟩ := copyLine_spec h hcopy (by omega)
  rw [List.drop_zero] at hspec
  dsimp only at hrest
  cases found with
  | true =>
    left
    rw [if_pos rfl] at hspec
    obtain ⟨hlt, rest, rfl⟩ := hspec
    rw [if_pos (Or.inl rfl)] at hrest
    obtain ⟨v, hdrop, rfl⟩ := Option.map_eq_some_iff.mp hrest
    obtain ⟨v', hdrop', hstores⟩ := h.dropFromTail (n := line.length) (by omega)
    obtain rfl := Option.some.inj (hdrop.symm.trans hdrop')
    rw [List.drop_left] at hstores
    exact ⟨line, rest, rfl, hnot, by omega, rfl, rfl, hstores⟩
  | false =>
    right
    rw [if_neg Bool.false_ne_true] at hspec
    subst hspec
    have hlen : (l.take (min maxlen (u.cur_len : Int)).toNat).length = (min maxlen (u.cur_len : Int)).toNat := by
      rw [List.length_take]
      omega
    by_cases hfull : 0 ≤ maxlen ∧ maxlen ≤ l.length
    · left
      have hmin : (min maxlen (u.cur_len : Int)).toNat = maxlen.toNat := by omega
      rw [hmin] at hrest hnot hlen
      rw [if_pos (Or.inr (by omega))] at hrest
      obtain ⟨v, -, rfl⟩ := Option.map_eq_some_iff.mp hrest
      exact ⟨hfull.1, hfull.2, hnot, rfl⟩
    · right
      rw [if_neg (by rw [hlen]; simp; omega)] at hrest
      obtain rfl := Option.some.inj hrest
      refine ⟨fun hpos => ?_, fun hneg => ?_, rfl, rfl⟩
      · have hall : l.take (min maxlen (u.cur_len : Int)).toNat = l := List.take_of_length_le (by omega)
        rw [hall] at hnot ⊢
        exact ⟨by omega, hnot, rfl⟩
      · have hnone : (min maxlen (u.cur_len : Int)).toNat = 0 := by omega
        rw [hnone]
        rfl

theorem getLine_isSome (h : u.Stores l) (htail : u.tail = 0) (maxlen : Int) : (getLine u maxlen).isSome := by
  have hcur := h.cur_len
  have hle := h.le
  have hcopy := copyLine_isSome h (n := (min maxlen (u.cur_len : Int)).toNat) (i := 0) (by omega) (by omega)
  obtain ⟨⟨line, found⟩, hline⟩ := Option.isSome_iff_exists.mp hcopy
  have hlen : line.length ≤ u.cur_len := by
    obtain ⟨-, hspec⟩ := copyLine_spec h hline (by omega)
    cases found with
    | true =>
      rw [if_pos rfl] at hspec
      have hlt := hspec.1
      omega
    | false =>
      rw [if_neg Bool.false_ne_true, List.drop_zero] at hspec
      rw [hspec, List.length_take]
      omega
  obtain ⟨v, hdrop, -⟩ := h.dropFromTail hlen
  unfold getLine
  dsimp only
  rw [hline, Option.bind_some]
  dsimp only
  split
  · rw [hdrop]
    rfl
  · rfl

/-- A newline at the front is found and stays. -/
theorem getLine_newline (h : u.Stores (10 :: l)) {maxlen : Int} (hmax : 0 < maxlen) :
    getLine u maxlen = some ⟨0, [0], u⟩ := by
  have hcur := h.cur_len
  have htail := h.tail
  rw [List.length_cons] at hcur
  have hfirst : u.charAt 0 = some 10 := by
    rw [h.charAt (by omega), if_neg (by omega)]
    rfl
  have hcount : (min maxlen (u.cur_len : Int)).toNat = (min maxlen (u.cur_len : Int)).toNat - 1 + 1 := by omega
  have hdrop : u.dropFromTail 0 = some u := by
    unfold IOBufferv.dropFromTail
    rw [if_neg (by omega), if_pos (by omega), Nat.add_zero, if_pos htail, Nat.sub_zero]
  unfold getLine
  dsimp only
  rw [hcount, copyLine, hfirst, Option.bind_some, if_pos rfl, Option.bind_some, if_pos (Or.inl rfl)]
  show (u.dropFromTail 0).map _ = _
  rw [hdrop]
  rfl

/-! ### Runs -/

/-- What is in the buffer: before a line was returned the bytes that wait, which start at 0, and afterwards newlines
and then the bytes that wait. -/
def Holds (any : Bool) (u : IOBufferv) (pending : List UInt8) : Prop :=
  if any then ∃ newlines, (∀ b ∈ newlines, b = 10) ∧ u.Stores (10 :: (newlines ++ pending))
  else u.tail = 0 ∧ u.Stores pending

theorem tail_read (h : u.Stores l) (htail : u.tail = 0) {max_to_read : Int} (hmax : 0 < max_to_read)
    {desc desc' : IOBufferv.Descriptor} {out : IOBufferv.ReadOut} (hread : u.read max_to_read desc desc' = some out) :
    out.buffer.tail = 0 := by
  obtain ⟨free, -, hout⟩ := h.read_eq hmax desc desc'
  obtain rfl := Option.some.inj (hread.symm.trans hout)
  have hgrown : (u.ensureCapacity (u.cur_len + max_to_read.toNat)).tail = 0 := by
    unfold IOBufferv.ensureCapacity
    split
    · rfl
    · exact htail
  unfold IOBufferv.answered
  split
  · split <;> exact hgrown
  · exact hgrown

theorem Holds.iread {any : Bool} (h : Holds any u l) (desc desc' : IOBufferv.Descriptor) :
    ∃ out, Connection.iread u desc desc' = some out ∧ Holds any out.buffer (l ++ IOBufferv.delivered out.calls) := by
  cases any with
  | false =>
    obtain ⟨htail, hstores⟩ : u.tail = 0 ∧ u.Stores l := h
    obtain ⟨out, hread, hout⟩ := hstores.read 65536 desc desc'
    exact ⟨out, hread, tail_read hstores htail (by decide) hread, hout⟩
  | true =>
    obtain ⟨newlines, hnewlines, hstores⟩ : ∃ newlines, (∀ b ∈ newlines, b = 10) ∧ u.Stores (10 :: (newlines ++ l)) := h
    obtain ⟨out, hread, hout⟩ := hstores.read 65536 desc desc'
    refine ⟨out, hread, newlines, hnewlines, ?_⟩
    rw [← List.append_assoc, ← List.cons_append]
    exact hout

theorem Holds.getLine_first (h : Holds false u l) (maxlen : Int) :
    ∃ got, getLine u maxlen = some got ∧
      match nextLine l with
      | some (line, rest) => line.length < maxlen →
        got.ret = line.length ∧ got.rbuf = line ++ [0] ∧ Holds true got.rcvBuf rest
      | none => l.length < maxlen → got.ret = -1 ∧ got.rbuf.length ≤ maxlen ∧ got.rcvBuf = u := by
  obtain ⟨htail, hstores⟩ : u.tail = 0 ∧ u.Stores l := h
  obtain ⟨got, hgot⟩ := Option.isSome_iff_exists.mp (getLine_isSome hstores htail maxlen)
  refine ⟨got, hgot, ?_⟩
  have hspec := getLine_spec hstores hgot
  split
  · rename_i line rest hnext
    intro hroom
    obtain ⟨hl, hline⟩ := nextLine_eq_some_iff.mp hnext
    have hmem : 10 ∈ l.take maxlen.toNat := by
      rw [hl]
      exact mem_take_newline hroom
    rcases hspec with ⟨line', rest', hl', hline', -, hret, hrbuf, hafter⟩ | ⟨-, -, hnot, -⟩ | ⟨hnone, -⟩
    · have hsame := nextLine_eq_some_iff.mpr ⟨hl', hline'⟩
      rw [hnext] at hsame
      obtain ⟨rfl, rfl⟩ := Prod.mk.inj (Option.some.inj hsame)
      exact ⟨hret, hrbuf, [], by simp, hafter⟩
    · exact absurd hmem hnot
    · exact absurd (List.mem_of_mem_take hmem) (hnone (by omega)).2.1
  · rename_i hnext
    intro hroom
    have hnot := nextLine_eq_none_iff.mp hnext
    rcases hspec with ⟨line, rest, rfl, -⟩ | ⟨-, hle, -⟩ | ⟨hnone, -, hret, hbuffer⟩
    · exact absurd (by simp) hnot
    · omega
    · refine ⟨hret, ?_, hbuffer⟩
      rw [(hnone (by omega)).2.2, List.length_cons, List.length_tail]
      omega

theorem Holds.getLine_later (h : Holds true u l) {maxlen : Int} (hmax : 0 < maxlen) :
    getLine u maxlen = some ⟨0, [0], u⟩ := by
  obtain ⟨newlines, -, hstores⟩ : ∃ newlines, (∀ b ∈ newlines, b = 10) ∧ u.Stores (10 :: (newlines ++ l)) := h
  exact getLine_newline hstores hmax

theorem Holds.newline (h : Holds true u l) {rest : List UInt8} (hnext : nextLine l = some ([], rest)) :
    Holds true u rest := by
  obtain ⟨newlines, hnewlines, hstores⟩ : ∃ newlines, (∀ b ∈ newlines, b = 10) ∧ u.Stores (10 :: (newlines ++ l)) := h
  obtain ⟨rfl, -⟩ := nextLine_eq_some_iff.mp hnext
  refine ⟨newlines ++ [10], ?_, ?_⟩
  · intro b hb
    rcases List.mem_append.mp hb with hb | hb
    · exact hnewlines b hb
    · exact List.mem_singleton.mp hb
  · rw [List.append_assoc]
    exact hstores

theorem sufficient_pos {maxlen : Int} {ops : List Op} (h : Sufficient l (events u (.getLine maxlen :: ops))) :
    0 < maxlen := by
  obtain ⟨got, es, hevents⟩ : ∃ got es, events u (.getLine maxlen :: ops) = .line maxlen got :: es := by
    rw [events]
    split
    · exact ⟨_, _, rfl⟩
    · exact ⟨_, _, rfl⟩
  rw [hevents] at h
  unfold Sufficient at h
  split at h
  · have hlt := h.1
    omega
  · have hlt := h.1
    omega

theorem events_getLine {maxlen : Int} {got : GotLine} (hgot : getLine u maxlen = some got) (ops : List Op) :
    events u (.getLine maxlen :: ops) = .line maxlen (some (got.ret, got.rbuf)) :: events got.rcvBuf ops := by
  rw [events, hgot]

theorem Holds.returnsLines_first (h : Holds false u l) {maxlen : Int} {ops : List Op}
    (hroom : Sufficient l (events u (.getLine maxlen :: ops)))
    (hlater : ∀ {any : Bool} {u : IOBufferv} {l : List UInt8}, Holds any u l → Sufficient l (events u ops) →
      (ReturnsLines l (events u ops) ↔ Served any l (events u ops))) :
    ReturnsLines l (events u (.getLine maxlen :: ops)) ↔ Served false l (events u (.getLine maxlen :: ops)) := by
  obtain ⟨got, hgot, hright⟩ := h.getLine_first maxlen
  rw [events_getLine hgot] at hroom ⊢
  unfold Sufficient at hroom
  unfold ReturnsLines Served
  cases hnext : nextLine l with
  | some next =>
    obtain ⟨line, rest⟩ := next
    rw [hnext] at hroom hright
    dsimp only at hroom hright ⊢
    obtain ⟨hlt, hmore⟩ := hroom
    obtain ⟨hret, hrbuf, hholds⟩ := hright hlt
    rw [← hlater hholds hmore]
    constructor
    · rintro ⟨_, _, -, -, -, -, hlines⟩
      exact ⟨by simp, hlines⟩
    · rintro ⟨-, hlines⟩
      refine ⟨got.ret, got.rbuf, rfl, ?_, hret, hrbuf, hlines⟩
      rw [hrbuf, List.length_append, List.length_singleton]
      omega
  | none =>
    rw [hnext] at hroom hright
    dsimp only at hroom hright ⊢
    obtain ⟨hret, hrbuf, hsame⟩ := hright hroom.1
    rw [hsame] at hroom ⊢
    rw [← hlater h hroom.2]
    constructor
    · rintro ⟨_, _, -, -, -, hlines⟩
      exact ⟨rfl, hlines⟩
    · rintro ⟨-, hlines⟩
      exact ⟨got.ret, got.rbuf, rfl, hrbuf, by omega, hlines⟩

/-- A call after one with a line is right exactly if the next line is empty. -/
theorem Holds.returnsLines_later (h : Holds true u l) {maxlen : Int} {ops : List Op}
    (hroom : Sufficient l (events u (.getLine maxlen :: ops)))
    (hlater : ∀ {any : Bool} {u : IOBufferv} {l : List UInt8}, Holds any u l → Sufficient l (events u ops) →
      (ReturnsLines l (events u ops) ↔ Served any l (events u ops))) :
    ReturnsLines l (events u (.getLine maxlen :: ops)) ↔ Served true l (events u (.getLine maxlen :: ops)) := by
  have hpos := sufficient_pos hroom
  rw [events_getLine (h.getLine_later hpos)] at hroom ⊢
  unfold Sufficient at hroom
  unfold ReturnsLines Served
  cases hnext : nextLine l with
  | some next =>
    obtain ⟨line, rest⟩ := next
    rw [hnext] at hroom
    dsimp only at hroom ⊢
    constructor
    · rintro ⟨ret, rbuf, hsome, -, hret, -, hlines⟩
      obtain ⟨rfl, -⟩ := Prod.mk.inj (Option.some.inj hsome)
      obtain rfl : line = [] := List.eq_nil_of_length_eq_zero (by omega)
      exact ⟨fun _ => rfl, (hlater (h.newline hnext) hroom.2).mp hlines⟩
    · rintro ⟨hempty, hserved⟩
      obtain rfl := hempty rfl
      refine ⟨0, [0], rfl, ?_, rfl, rfl, (hlater (h.newline hnext) hroom.2).mpr hserved⟩
      rw [List.length_singleton]
      omega
  | none =>
    dsimp only
    constructor
    · rintro ⟨ret, rbuf, hsome, -, hret, -⟩
      obtain ⟨rfl, -⟩ := Prod.mk.inj (Option.some.inj hsome)
      omega
    · rintro ⟨hfalse, -⟩
      cases hfalse

/-- Along a run the calls are right as long as the condition holds. -/
theorem Holds.returnsLines_iff {any : Bool} (h : Holds any u l) {ops : List Op} (hroom : Sufficient l (events u ops)) :
    ReturnsLines l (events u ops) ↔ Served any l (events u ops) := by
  induction ops generalizing any u l with
  | nil => exact Iff.rfl
  | cons op ops ih =>
    cases op with
    | read desc desc' =>
      obtain ⟨out, hread, hout⟩ := h.iread desc desc'
      have hevents : events u (.read desc desc' :: ops) =
          .delivered (IOBufferv.delivered out.calls) :: events out.buffer ops := by
        rw [events, hread]
      rw [hevents] at hroom ⊢
      exact ih hout hroom
    | getLine maxlen =>
      cases any with
      | false => exact h.returnsLines_first hroom ih
      | true => exact h.returnsLines_later hroom ih

/-- **Lines.** In every run on a new buffer in which each call has room for what it should return, the calls return the
lines that were delivered, and a negative value when there are none left, exactly if after the first line that is
returned every call finds an empty line. And in every state a call that gets through stays in the memory of the caller
exactly if there is room for one byte more than it finds before a newline or the end of the buffer. -/
theorem getLine_right_iff (ops : List Op) (hroom : Sufficient [] (events .empty ops)) :
    (ReturnsLines [] (events .empty ops) ↔ Served false [] (events .empty ops)) ∧
    ∀ (u : IOBufferv) (l : List UInt8) (maxlen : Int) (got : GotLine), u.Stores l → getLine u maxlen = some got →
      (got.rbuf.length ≤ maxlen ↔ 0 < maxlen ∧ (10 ∈ l.take maxlen.toNat ∨ l.length < maxlen)) := by
  have hnew : Holds false IOBufferv.empty [] := ⟨rfl, IOBufferv.stores_empty⟩
  refine ⟨hnew.returnsLines_iff hroom, ?_⟩
  intro u l maxlen got h hgot
  rcases getLine_spec h hgot with ⟨line, rest, rfl, -, hlt, -, hrbuf, -⟩ | ⟨-, hle, hnot, hrbuf⟩ | ⟨hnone, hneg, -⟩
  · rw [hrbuf, List.length_append, List.length_singleton]
    exact iff_of_true (by omega) ⟨by omega, Or.inl (mem_take_newline hlt)⟩
  · rw [hrbuf, List.length_append, List.length_singleton, List.length_take]
    refine iff_of_false (by omega) ?_
    rintro ⟨-, hmem | hlt⟩
    · exact hnot hmem
    · omega
  · by_cases hpos : 0 ≤ maxlen
    · obtain ⟨hlt, -, hrbuf⟩ := hnone hpos
      rw [hrbuf, List.length_cons, List.length_tail]
      exact ⟨fun _ => ⟨by omega, Or.inr hlt⟩, fun _ => by omega⟩
    · rw [hneg (by omega), List.length_singleton]
      omega

/-- A peer that sends these bytes. -/
def peer (bytes : List UInt8) : IOBufferv.Descriptor :=
  ⟨fun n => .bytes (bytes.take n), fun n l h => by
    obtain rfl := IOBufferv.Received.bytes.inj h
    exact List.length_take_le ..⟩

/-- Two lines, `a` and `b`, and three calls. -/
def twoLines : List Op :=
  [.read (peer [97, 10, 98, 10]) (peer []), .getLine 10, .getLine 10, .getLine 10]

theorem events_twoLines : events .empty twoLines =
    [.delivered [97, 10, 98, 10], .line 10 (some (1, [97, 0])), .line 10 (some (0, [0])), .line 10 (some (0, [0]))] := by
  decide +kernel

theorem sufficient_twoLines : Sufficient [] (events .empty twoLines) := by
  have hfirst : nextLine [97, 10, 98, 10] = some ([97], [98, 10]) := by decide
  have hsecond : nextLine [98, 10] = some ([98], []) := by decide
  have hnone : nextLine [] = none := by decide
  rw [events_twoLines]
  simp [Sufficient, hfirst, hsecond, hnone]

/-- The second line never comes, and a line as long as the room is written one byte beyond it. -/
theorem getLine_repeats_empty_line :
    (Sufficient [] (events .empty twoLines) ∧ ¬ ReturnsLines [] (events .empty twoLines)) ∧
    ∃ u got, (IOBufferv.ofLength 0).run [.append [97, 98]] = some u ∧ getLine u 2 = some got ∧
      got.rbuf = [97, 98, 0] := by
  refine ⟨⟨sufficient_twoLines, ?_⟩, ⟨_, _, rfl, rfl, by decide⟩⟩
  have hfirst : nextLine [97, 10, 98, 10] = some ([97], [98, 10]) := by decide
  have hsecond : nextLine [98, 10] = some ([98], []) := by decide
  rw [events_twoLines]
  simp [ReturnsLines, hfirst, hsecond]

theorem getLine_right_iff_twoLines :
    ReturnsLines [] (events .empty twoLines) ↔ Served false [] (events .empty twoLines) :=
  (getLine_right_iff twoLines sufficient_twoLines).1

end Connection

end Vocal.Util
