import Vocal.Sip.RawHeader
import Vocal.Sip.Text.Match

/-!
# Texts in place

`Data` keeps its text in a buffer that is never shortened: `mBuf` has room for `mCapacity` characters and the NUL behind
the text. The operations that take text off its front scan the buffer and move the rest to the front of it. They do to
the text what their namesakes for lists do, and `tokens_conserve` says that no character of it is lost.
-/

namespace Vocal.Sip

open Cut

/-! ### Strings of C -/

/-- A string of C ends at its first NUL. -/
def cString (m : Data) : Data := m.takeWhile (· ≠ '\x00')

def strlen (m : Data) : Nat := (cString m).length

/-- `memmove` of `n` characters from the place `j` of a buffer to the place `i` of one, inside of both. -/
def memmove (dst : List Char) (i : Nat) (src : List Char) (j n : Nat) : Option (List Char) :=
  if i + n ≤ dst.length ∧ j + n ≤ src.length then some (dst.take i ++ (src.drop j).take n ++ dst.drop (i + n)) else none

/-! ### Buffers -/

/-- `Data`, with a NUL behind its text. -/
structure DataBuffer where
  mBuf : List Char
  mLength : Nat
  terminated : mBuf[mLength]? = some '\x00'

namespace DataBuffer

def mCapacity (d : DataBuffer) : Nat := d.mBuf.length - 1

/-- The text of a buffer. -/
def text (d : DataBuffer) : Data := d.mBuf.take d.mLength

/-- `Data()`. -/
def empty : DataBuffer := ⟨List.replicate 64 '\x00', 0, rfl⟩

theorem getElem?_take_append {str : List Char} {length : Nat} (h : length ≤ str.length) :
    (str.take length ++ ['\x00'])[length]? = some '\x00' := by
  rw [List.getElem?_append_right (List.length_take_le ..), List.length_take_of_le h, Nat.sub_self]
  rfl

/-- `Data(const char*, int)`. -/
def ofChars (str : List Char) (length : Nat) : Option DataBuffer :=
  if h : length ≤ str.length then some ⟨str.take length ++ ['\x00'], length, getElem?_take_append h⟩ else none

/-- A buffer that was written, which must end in a NUL again. -/
def withBuf (mBuf : List Char) (mLength : Nat) : Option DataBuffer :=
  if h : mBuf[mLength]? = some '\x00' then some ⟨mBuf, mLength, h⟩ else none

/-- The rest from `pos` on is moved to the front. -/
def eat (d : DataBuffer) (pos : Nat) : Option DataBuffer :=
  if pos ≤ d.mLength then (memmove d.mBuf 0 d.mBuf pos (d.mLength - pos + 1)).bind (withBuf · (d.mLength - pos))
  else none

/-- `mBuf[mLength] = '\0'`. -/
def terminate (d : DataBuffer) : DataBuffer where
  mBuf := d.mBuf.set d.mLength '\x00'
  mLength := d.mLength
  terminated := by
    rw [List.getElem?_set_self (List.getElem?_eq_some_iff.mp d.terminated).1]

/-! ### Loops -/

/-- `isIn` for a set that is a string of C. -/
def isIn (c : Char) : Data → Bool
  | [] => false
  | p :: m => if p = '\x00' then false else if p = c then true else isIn c m

/-- The loops that look for a character below `mLength`, up to the place behind it. -/
def scan {σ : Type} (look : σ → Char → σ × Bool) (mBuf : List Char) (mLength : Nat) (s : σ) (pos : Nat) :
    Option (σ × Bool × Nat) :=
  if pos < mLength then
    match mBuf[pos]? with
    | none => none
    | some p =>
      if (look s p).2 then some ((look s p).1, true, pos + 1) else scan look mBuf mLength (look s p).1 (pos + 1)
  else some (s, false, pos)
  termination_by mLength - pos

/-- The loops over a block of characters of the set. -/
def skip (m : Data) (mBuf : List Char) (mLength : Nat) (pos : Nat) : Option Nat :=
  if pos < mLength then
    match mBuf[pos]? with
    | none => none
    | some p => if isIn p m then skip m mBuf mLength (pos + 1) else some pos
  else some pos
  termination_by mLength - pos

/-! ### The operations -/

def lookIn (m : Data) (_ : Unit) (p : Char) : Unit × Bool := ((), isIn p m)

/-- `Data::parse`: the result, `matchFail` and the text that is left. -/
def parse (d : DataBuffer) (m : Data) : Option (DataBuffer × Bool × DataBuffer) := do
  let (_, foundAny, start) ← scan (lookIn m) d.mBuf d.mLength () 0
  if foundAny then
    let start := start - 1
    let last ← skip m d.mBuf d.mLength start
    let result ← ofChars d.mBuf start
    let d ← d.eat last
    return (result, false, d.terminate)
  else return (empty, true, d)

/-- The `switch` of `parseOutsideQuotes`. -/
def next (useQuote useAngle : Bool) (n : Nesting) (p : Char) : Nesting :=
  if p = '"' then (if !n.inAngleBrackets && useQuote then { n with inDoubleQuotes := !n.inDoubleQuotes } else n)
  else if p = '<' then (if !n.inDoubleQuotes && useAngle then { n with inAngleBrackets := true } else n)
  else if p = '>' then (if !n.inDoubleQuotes && useAngle then { n with inAngleBrackets := false } else n)
  else n

def lookOutside (m : Data) (useQuote useAngle : Bool) (n : Nesting) (p : Char) : Nesting × Bool :=
  let n := next useQuote useAngle n p
  (n, !n.inDoubleQuotes && !n.inAngleBrackets && isIn p m)

/-- `Data::parseOutsideQuotes`. -/
def parseOutsideQuotes (d : DataBuffer) (m : Data) (useQuote useAngle : Bool) : Option (DataBuffer × Bool × DataBuffer) := do
  let (_, foundAny, pos) ← scan (lookOutside m useQuote useAngle) d.mBuf d.mLength .outside 0
  if foundAny then
    let pos2 ← skip m d.mBuf d.mLength pos
    let result ← ofChars d.mBuf (pos - 1)
    let d ← d.eat pos2
    return (result, false, d)
  else return (empty, true, d)

def lookChar (m : Data) (matchedChar p : Char) : Char × Bool := if isIn p m then (p, true) else (matchedChar, false)

/-- `Data::matchChar`: the result, `matchedChar` and the text that is left. -/
def matchChar (d : DataBuffer) (m : Data) : Option (DataBuffer × Char × DataBuffer) := do
  let (matchedChar, foundAny, pos) ← scan (lookChar m) d.mBuf d.mLength '\x00' 0
  if foundAny then
    let result ← ofChars d.mBuf (pos - 1)
    let d ← d.eat pos
    return (result, matchedChar, d)
  else return (empty, '\x00', d)

inductive LineState
  | STARTING
  | HAS_CR
  | HAS_LF
  | HAS_CRLF
  deriving DecidableEq, Repr

/-- The `switch` of `getLine`. -/
def lookLine (state : LineState) (p : Char) : LineState × Bool :=
  if p = '\r' then (.HAS_CR, false)
  else if p = '\n' then (if state = .HAS_CR then .HAS_CRLF else .HAS_LF, true)
  else (.STARTING, false)

/-- `Data::getLine`. -/
def getLine (d : DataBuffer) : Option (DataBuffer × Bool × DataBuffer) := do
  let (state, foundAny, pos) ← scan lookLine d.mBuf d.mLength .STARTING 0
  let pos2 := pos
  let pos := if state = .HAS_CRLF then pos - 1 else pos
  if foundAny then
    let result ← ofChars d.mBuf (pos - 1)
    let d ← d.eat pos2
    return (result, false, d)
  else return (empty, true, d)

/-- `Data::find` of a string from the start on, where no place is `npos`. -/
def find (d : DataBuffer) (m : Data) : Option Nat :=
  -- what `std::search` finds, or the end of the text
  let pos := (Sip.find (cString m) d.text).getD d.mLength
  if pos = d.mLength then
    if strlen m = 0 then (if d.mLength = 0 then none else some 0) else none
  else some pos

inductive MatchCode
  | NOT_FOUND
  | FIRST
  | FOUND
  deriving DecidableEq, Repr

/-- What `match` assigns to `retModifiedData`, if there is one. -/
def assign (d : DataBuffer) (retModifiedData : Bool) (replacePos : Nat) : Option (Option Data) :=
  if retModifiedData then (ofChars d.mBuf replacePos).map fun before => some before.text else some none

/-- The part of `match` that replaces. A replacement that does not fit fails an assertion. -/
def replaceFront (d : DataBuffer) (replacePos matchLength : Nat) (replaceWith : DataBuffer) : Option DataBuffer :=
  let rest := d.mLength - replacePos - matchLength
  if rest + replaceWith.mLength ≤ d.mCapacity then do
    let mBuf ← memmove d.mBuf replaceWith.mLength d.mBuf (replacePos + matchLength) (rest + 1)
    let mBuf ← memmove mBuf 0 replaceWith.mBuf 0 replaceWith.mLength
    withBuf mBuf (rest + replaceWith.mLength)
  else none

/-- `Data::match`: what it returns, the text assigned to `retModifiedData` and the text that is left. -/
def «match» (d : DataBuffer) (m : Data) (retModifiedData replace : Bool) (replaceWith : DataBuffer) :
    Option (MatchCode × Option Data × DataBuffer) :=
  match d.find m with
  | none => some (.NOT_FOUND, none, d)
  | some replacePos => do
    let data ← d.assign retModifiedData replacePos
    let retVal := if data.any fun before => before.length ≠ 0 then MatchCode.FOUND else .FIRST
    if replace then (d.replaceFront replacePos (strlen m) replaceWith).map fun d => (retVal, data, d)
    else some (retVal, data, d)

/-! ### Reading and moving -/

section moving

variable (d : DataBuffer)

theorem lt_length : d.mLength < d.mBuf.length := (List.getElem?_eq_some_iff.mp d.terminated).1

@[simp] theorem length_text : d.text.length = d.mLength := List.length_take_of_le d.lt_length.le

@[simp] theorem text_empty : empty.text = [] := rfl

theorem getElem?_mBuf {pos : Nat} (h : pos < d.mLength) : d.mBuf[pos]? = d.text[pos]? :=
  (List.getElem?_take_of_lt h).symm

theorem terminate_eq : d.terminate = d := by
  obtain ⟨mBuf, mLength, h⟩ := d
  obtain ⟨hlt, hget⟩ := List.getElem?_eq_some_iff.mp h
  have hset : mBuf.set mLength '\x00' = mBuf := by
    rw [← hget, List.set_getElem_self]
  rw [terminate]
  simp only [hset]

variable {d}

theorem ofChars_eq {x y : Data} (h : d.text = x ++ y) : ∃ result, ofChars d.mBuf x.length = some result ∧ result.text = x := by
  have hle : x.length ≤ d.mLength := by
    rw [← d.length_text, h, List.length_append]
    exact Nat.le_add_right _ _
  have hfits : x.length ≤ d.mBuf.length := hle.trans d.lt_length.le
  have htake : d.mBuf.take x.length = x := by
    calc d.mBuf.take x.length
        = d.text.take x.length := by rw [text, List.take_take, Nat.min_eq_left hle]
      _ = x := by rw [h, List.take_left]
  refine ⟨_, dif_pos hfits, ?_⟩
  calc (d.mBuf.take x.length ++ ['\x00']).take x.length
      = (x ++ ['\x00']).take x.length := by rw [htake]
    _ = x := List.take_left

theorem take_drop_mBuf {x y : Data} (h : d.text = x ++ y) :
    x.length + y.length = d.mLength ∧ (d.mBuf.drop x.length).take (y.length + 1) = y ++ ['\x00'] := by
  have hlength : x.length + y.length = d.mLength := by
    rw [← d.length_text, h, List.length_append]
  have hcount : y.length = d.mLength - x.length := by omega
  refine ⟨hlength, ?_⟩
  rw [List.take_add_one, List.getElem?_drop, hlength, d.terminated, hcount, ← List.drop_take]
  exact congrArg (· ++ ['\x00']) (by rw [← text, h, List.drop_left])

theorem withBuf_append (t u : List Char) : ∃ self, withBuf (t ++ ['\x00'] ++ u) t.length = some self ∧ self.text = t ∧
    self.mCapacity = t.length + u.length := by
  have hnul : (t ++ ['\x00'] ++ u)[t.length]? = some '\x00' := by
    rw [List.append_assoc, List.getElem?_append_right (le_refl _), Nat.sub_self]
    rfl
  refine ⟨_, dif_pos hnul, ?_, ?_⟩
  · exact (congrArg (List.take t.length) (List.append_assoc ..)).trans List.take_left
  · rw [mCapacity]
    simp only [List.length_append, List.length_singleton]
    omega

theorem eat_eq {x y : Data} (h : d.text = x ++ y) :
    ∃ self, d.eat x.length = some self ∧ self.text = y ∧ self.mCapacity = d.mCapacity := by
  have hlt := d.lt_length
  obtain ⟨hlength, hmoved⟩ := take_drop_mBuf h
  have hcount : d.mLength - x.length = y.length := by omega
  obtain ⟨self, hself, htext, hcapacity⟩ := withBuf_append y (d.mBuf.drop (0 + (y.length + 1)))
  refine ⟨self, ?_, htext, ?_⟩
  · rw [eat, if_pos (by omega), hcount, memmove, if_pos (by omega), hmoved, List.take_zero, List.nil_append, Option.bind_some,
      hself]
  · rw [hcapacity, mCapacity, List.length_drop]
    omega

theorem take_front {x r y : Data} (h : d.text = x ++ r ++ y) :
    ∃ result self, ofChars d.mBuf x.length = some result ∧ d.eat (x.length + r.length) = some self ∧
      result.text = x ∧ self.text = y := by
  obtain ⟨result, hresult, hx⟩ := ofChars_eq (h.trans (List.append_assoc x r y))
  obtain ⟨self, hself, hy, -⟩ := eat_eq h
  rw [List.length_append] at hself
  exact ⟨result, self, hresult, hself, hx, hy⟩

end moving

/-! ### The loops -/

section loops

variable {d : DataBuffer} {σ : Type} {look : σ → Char → σ × Bool}

theorem drop_text {pos : Nat} (h : pos < d.mLength) :
    ∃ c, d.mBuf[pos]? = some c ∧ d.text.drop pos = c :: d.text.drop (pos + 1) := by
  have hlt : pos < d.text.length := by rwa [length_text]
  exact ⟨d.text[pos], by rw [getElem?_mBuf d h, List.getElem?_eq_getElem hlt], List.drop_eq_getElem_cons hlt⟩

/-- The loops find what `cutFrom` finds in the text from `pos` on. -/
theorem scan_eq (n : Nat) : ∀ (s : σ) (pos : Nat), d.mLength - pos = n → pos ≤ d.mLength →
    (cutFrom look s (d.text.drop pos) = none → ∃ s', scan look d.mBuf d.mLength s pos = some (s', false, d.mLength)) ∧
    ∀ s' x a y, cutFrom look s (d.text.drop pos) = some (s', x, a, y) →
      scan look d.mBuf d.mLength s pos = some (s', true, pos + x.length + 1) := by
  induction n with
  | zero =>
    intro s pos hn hle
    obtain rfl : pos = d.mLength := by omega
    have hnil : d.text.drop d.mLength = [] := by simp
    rw [scan, if_neg (lt_irrefl _), hnil]
    exact ⟨fun _ => ⟨s, rfl⟩, by simp [cutFrom]⟩
  | succ n ih =>
    intro s pos hn hle
    have hlt : pos < d.mLength := by omega
    obtain ⟨c, hget, hdrop⟩ := drop_text hlt
    obtain ⟨hnone, hsome⟩ := ih (look s c).1 (pos + 1) (by omega) (by omega)
    rw [scan, if_pos (by omega), hget, hdrop, cutFrom]
    dsimp only
    split
    · refine ⟨by simp, fun s' x a y h => ?_⟩
      cases h
      rfl
    · refine ⟨fun h => hnone (Option.map_eq_none_iff.mp h), fun s' x a y h => ?_⟩
      obtain ⟨⟨s₁, x₁, a₁, y₁⟩, hc, heq⟩ := Option.map_eq_some_iff.mp h
      cases heq
      have hplace : pos + 1 + x₁.length + 1 = pos + (x₁.length + 1) + 1 := by omega
      rw [hsome _ _ _ _ hc, List.length_cons, hplace]

theorem scan_none {s : σ} (h : cutFrom look s d.text = none) :
    ∃ s', scan look d.mBuf d.mLength s 0 = some (s', false, d.mLength) :=
  (scan_eq _ s 0 rfl (Nat.zero_le _)).1 h

theorem scan_some {s s' : σ} {x y : Data} {a : Char} (h : cutFrom look s d.text = some (s', x, a, y)) :
    scan look d.mBuf d.mLength s 0 = some (s', true, x.length + 1) := by
  have hscan := (scan_eq _ s 0 rfl (Nat.zero_le _)).2 s' x a y h
  rwa [Nat.zero_add] at hscan

theorem skip_eq (m : Data) (n : Nat) : ∀ pos, d.mLength - pos = n → pos ≤ d.mLength →
    skip m d.mBuf d.mLength pos = some (pos + ((d.text.drop pos).takeWhile (isIn · m)).length) := by
  induction n with
  | zero =>
    intro pos hn hle
    obtain rfl : pos = d.mLength := by omega
    have hnil : d.text.drop d.mLength = [] := by simp
    rw [skip, if_neg (lt_irrefl _), hnil]
    rfl
  | succ n ih =>
    intro pos hn hle
    have hlt : pos < d.mLength := by omega
    obtain ⟨c, hget, hdrop⟩ := drop_text hlt
    rw [skip, if_pos (by omega), hget, hdrop]
    dsimp only
    split
    · rename_i hc
      rw [ih (pos + 1) (by omega) (by omega), List.takeWhile_cons_of_pos (p := (isIn · m)) hc, List.length_cons]
      exact congrArg some (by omega)
    · rename_i hc
      rw [List.takeWhile_cons_of_neg (p := (isIn · m)) hc]
      rfl

theorem skip_append {m x y : Data} (h : d.text = x ++ y) :
    skip m d.mBuf d.mLength x.length = some (x.length + (y.takeWhile (isIn · m)).length) := by
  have hle : x.length ≤ d.mLength := by
    rw [← d.length_text, h, List.length_append]
    exact Nat.le_add_right _ _
  rw [skip_eq m _ _ rfl hle, h, List.drop_left]

end loops

/-! ### Taking text off the front -/

/-- A block of the set. -/
def Block (m : Data) (r : Data) : Prop := r ≠ [] ∧ ∀ c ∈ r, isIn c m = true

/-- What an operation comes to that looks for a run: the text is left as it is, or it is the result, a run and the text that
is left. -/
def Conserves (d : DataBuffer) (run : Data → Prop) (outcome : Option (DataBuffer × Bool × DataBuffer)) : Prop :=
  ∃ result matchFail self, outcome = some (result, matchFail, self) ∧
    if matchFail then result.text = [] ∧ self = d else ∃ r, run r ∧ d.text = result.text ++ r ++ self.text

/-- The same of `matchChar`, where the run is the character that it tells. -/
def ConservesChar (d : DataBuffer) (m : Data) : Prop :=
  ∃ result matchedChar self, d.matchChar m = some (result, matchedChar, self) ∧
    if matchedChar = '\x00' then result.text = [] ∧ self = d
    else isIn matchedChar m = true ∧ d.text = result.text ++ [matchedChar] ++ self.text

/-- The same of `match`, which replaces the text up to the end of the string only when it is told to and the buffer has room,
and leaves it alone otherwise. -/
def ConservesMatch (d : DataBuffer) (m : Data) (retModifiedData replace : Bool) (replaceWith : DataBuffer) : Prop :=
  (d.find m = none ∧ d.match m retModifiedData replace replaceWith = some (.NOT_FOUND, none, d)) ∨
  ∃ before rest, d.find m = some before.length ∧ d.text = before ++ cString m ++ rest ∧
    if replace = true ∧ d.mCapacity < rest.length + replaceWith.mLength then
      d.match m retModifiedData replace replaceWith = none
    else
      ∃ self, d.match m retModifiedData replace replaceWith =
          some (if retModifiedData = true ∧ before ≠ [] then .FOUND else .FIRST,
            if retModifiedData then some before else none, self) ∧
        if replace then self.text = replaceWith.text ++ rest else self = d

section operations

variable (d : DataBuffer) (m : Data)

theorem block_cons {m : Data} {a : Char} (ha : isIn a m = true) (y : Data) : Block m (a :: y.takeWhile (isIn · m)) := by
  refine ⟨by simp, fun c hc => ?_⟩
  rcases List.mem_cons.mp hc with rfl | hc
  · exact ha
  · exact List.mem_takeWhile_imp (p := (isIn · m)) hc

theorem append_block {x y text : Data} {a : Char} (h : text = x ++ a :: y) (m : Data) :
    text = x ++ (a :: y.takeWhile (isIn · m)) ++ y.dropWhile (isIn · m) := by
  rw [h, List.append_assoc, List.cons_append, List.takeWhile_append_dropWhile]

theorem parse_cases :
    (cutFrom (lookIn m) () d.text = none ∧ d.parse m = some (empty, true, d)) ∨
    ∃ x a y result self, cutFrom (lookIn m) () d.text = some ((), x, a, y) ∧ isIn a m = true ∧
      d.parse m = some (result, false, self) ∧ result.text = x ∧ self.text = y.dropWhile (isIn · m) := by
  cases hcut : cutFrom (lookIn m) () d.text with
  | none =>
    obtain ⟨s', hscan⟩ := scan_none hcut
    refine Or.inl ⟨rfl, ?_⟩
    rw [parse, hscan]
    rfl
  | some c =>
    obtain ⟨s', x, a, y⟩ := c
    obtain ⟨htext, hlook⟩ := cutFrom_eq_some hcut
    have ha : isIn a m = true := congrArg Prod.snd hlook
    have hskip := skip_append (m := m) htext
    rw [List.takeWhile_cons_of_pos (p := (isIn · m)) ha] at hskip
    obtain ⟨result, self, hresult, hself, hx, hy⟩ := take_front (append_block htext m)
    refine Or.inr ⟨x, a, y, result, self, rfl, ha, ?_, hx, hy⟩
    rw [parse, scan_some hcut]
    simp only [Option.bind_eq_bind, Option.bind_some, if_true, Nat.add_sub_cancel, hskip, hresult, hself, terminate_eq,
      Option.pure_def]

theorem parseOutsideQuotes_cases (useQuote useAngle : Bool) :
    (cutFrom (lookOutside m useQuote useAngle) .outside d.text = none ∧
      d.parseOutsideQuotes m useQuote useAngle = some (empty, true, d)) ∨
    ∃ n x a y result self, cutFrom (lookOutside m useQuote useAngle) .outside d.text = some (n, x, a, y) ∧ isIn a m = true ∧
      d.parseOutsideQuotes m useQuote useAngle = some (result, false, self) ∧ result.text = x ∧
      self.text = y.dropWhile (isIn · m) := by
  cases hcut : cutFrom (lookOutside m useQuote useAngle) .outside d.text with
  | none =>
    obtain ⟨s', hscan⟩ := scan_none hcut
    refine Or.inl ⟨rfl, ?_⟩
    rw [parseOutsideQuotes, hscan]
    rfl
  | some c =>
    obtain ⟨n, x, a, y⟩ := c
    obtain ⟨htext, hlook⟩ := cutFrom_eq_some hcut
    have ha : isIn a m = true := (Bool.and_eq_true_iff.mp (congrArg Prod.snd hlook)).2
    have hskip := skip_append (m := m) (x := x ++ [a]) (y := y) (by rw [htext, List.append_assoc]; rfl)
    have hplace : x.length + 1 + (y.takeWhile (isIn · m)).length = x.length + (a :: y.takeWhile (isIn · m)).length := by
      rw [List.length_cons]
      omega
    rw [List.length_append, List.length_singleton, hplace] at hskip
    obtain ⟨result, self, hresult, hself, hx, hy⟩ := take_front (append_block htext m)
    refine Or.inr ⟨n, x, a, y, result, self, rfl, ha, ?_, hx, hy⟩
    rw [parseOutsideQuotes, scan_some hcut]
    simp only [Option.bind_eq_bind, Option.bind_some, if_true, Nat.add_sub_cancel, hskip, hresult, hself, Option.pure_def]

theorem matchChar_cases :
    (cutFrom (lookChar m) '\x00' d.text = none ∧ d.matchChar m = some (empty, '\x00', d)) ∨
    ∃ x a y result self, cutFrom (lookChar m) '\x00' d.text = some (a, x, a, y) ∧ isIn a m = true ∧
      d.matchChar m = some (result, a, self) ∧ result.text = x ∧ self.text = y := by
  cases hcut : cutFrom (lookChar m) '\x00' d.text with
  | none =>
    obtain ⟨s', hscan⟩ := scan_none hcut
    refine Or.inl ⟨rfl, ?_⟩
    rw [matchChar, hscan]
    rfl
  | some c =>
    obtain ⟨c, x, a, y⟩ := c
    obtain ⟨htext, hlook⟩ := cutFrom_eq_some hcut
    rw [lookChar] at hlook
    split at hlook
    · rename_i ha
      obtain rfl : a = c := congrArg Prod.fst hlook
      obtain ⟨result, self, hresult, hself, hx, hy⟩ := take_front (r := [a]) (y := y) (by rw [htext, List.append_assoc]; rfl)
      refine Or.inr ⟨x, a, y, result, self, rfl, ha, ?_, hx, hy⟩
      rw [List.length_singleton] at hself
      rw [matchChar, scan_some hcut]
      simp only [Option.bind_eq_bind, Option.bind_some, if_true, Nat.add_sub_cancel, hresult, hself, Option.pure_def]
    · cases hlook

theorem stateAfter_lookLine (x : Data) : stateAfter lookLine .STARTING x = .HAS_CR ↔ x.getLast? = some '\r' := by
  rcases List.eq_nil_or_concat' x with rfl | ⟨x, c, rfl⟩
  · simp [stateAfter]
  · have hstate : stateAfter lookLine .STARTING (x ++ [c]) = (lookLine (stateAfter lookLine .STARTING x) c).1 := by
      rw [stateAfter, List.foldl_append]
      rfl
    rw [hstate, List.getLast?_concat, Option.some_inj, lookLine]
    split
    · simp_all
    · split
      · split <;> simp_all
      · simp_all

theorem lookLine_true {state s' : LineState} {a : Char} (h : lookLine state a = (s', true)) :
    a = '\n' ∧ s' = if state = .HAS_CR then .HAS_CRLF else .HAS_LF := by
  rw [lookLine] at h
  split at h
  · cases h
  · split at h
    · rename_i ha
      exact ⟨ha, (congrArg Prod.fst h).symm⟩
    · cases h

theorem getLine_cases :
    (cutFrom lookLine .STARTING d.text = none ∧ d.getLine = some (empty, true, d)) ∨
    ∃ s' x y result self, cutFrom lookLine .STARTING d.text = some (s', x, '\n', y) ∧
      d.getLine = some (result, false, self) ∧ result.text = Data.chopCR x ∧ self.text = y := by
  cases hcut : cutFrom lookLine .STARTING d.text with
  | none =>
    obtain ⟨s', hscan⟩ := scan_none hcut
    refine Or.inl ⟨rfl, ?_⟩
    rw [getLine, hscan]
    rfl
  | some c =>
    obtain ⟨s', x, a, y⟩ := c
    obtain ⟨htext, hlook⟩ := cutFrom_eq_some hcut
    obtain ⟨rfl, rfl⟩ := lookLine_true hlook
    by_cases hcr : x.getLast? = some '\r'
    · -- the carriage return in front of the line feed is eaten with it
      obtain ⟨x, rfl⟩ : ∃ x', x = x' ++ ['\r'] := List.getLast?_eq_some_iff.mp hcr
      obtain ⟨result, self, hresult, hself, hx, hy⟩ := take_front (r := ['\r', '\n']) (y := y)
        (by rw [htext, List.append_assoc, List.append_assoc]; rfl)
      refine Or.inr ⟨_, _, y, result, self, rfl, ?_, ?_, hy⟩
      · rw [getLine, scan_some hcut, if_pos ((stateAfter_lookLine _).mpr hcr)]
        simp only [Option.bind_eq_bind, Option.bind_some, if_true, List.length_append, List.length_singleton,
          Nat.add_sub_cancel, hresult, Option.pure_def]
        rw [Nat.add_assoc, show d.eat (x.length + (1 + 1)) = some self from hself]
        rfl
      · rw [hx, Data.chopCR, if_pos hcr, List.dropLast_concat]
    · obtain ⟨result, self, hresult, hself, hx, hy⟩ := take_front (r := ['\n']) (y := y) (by rw [htext, List.append_assoc]; rfl)
      refine Or.inr ⟨_, x, y, result, self, rfl, ?_, ?_, hy⟩
      · rw [List.length_singleton] at hself
        rw [getLine, scan_some hcut, if_neg (mt (stateAfter_lookLine _).mp hcr)]
        simp only [Option.bind_eq_bind, Option.bind_some, if_true, reduceCtorEq, if_false, Nat.add_sub_cancel, hresult, hself,
          Option.pure_def]
      · rw [hx, Data.chopCR, if_neg hcr]

theorem find_cases :
    d.find m = none ∨ ∃ before rest, d.find m = some before.length ∧ d.text = before ++ cString m ++ rest := by
  rw [find]
  cases hfind : Sip.find (cString m) d.text with
  | none =>
    rw [Option.getD_none, if_pos rfl]
    split
    · rename_i hempty
      split
      · exact Or.inl rfl
      · have hnil : cString m = [] := List.length_eq_zero_iff.mp hempty
        exact Or.inr ⟨[], d.text, rfl, by rw [hnil]; rfl⟩
    · exact Or.inl rfl
  | some pos =>
    have hle := find_le hfind
    rw [length_text] at hle
    rw [Option.getD_some]
    split
    · -- only an empty string is found at the end of a text
      have hnil : cString m = [] := List.length_eq_zero_iff.mp (by omega)
      rw [strlen, hnil, if_pos List.length_nil]
      split
      · exact Or.inl rfl
      · exact Or.inr ⟨[], d.text, rfl, rfl⟩
    · have hlength : (d.text.take pos).length = pos := List.length_take_of_le (by rw [length_text]; omega)
      exact Or.inr ⟨d.text.take pos, _, by rw [hlength], find_eq_some hfind⟩

theorem parse_conserves : Conserves d (Block m) (d.parse m) := by
  rcases parse_cases d m with ⟨-, hparse⟩ | ⟨x, a, y, result, self, hcut, ha, hparse, rfl, hself⟩
  · exact ⟨empty, true, d, hparse, rfl, rfl⟩
  · refine ⟨result, false, self, hparse, _, block_cons ha y, ?_⟩
    rw [hself]
    exact append_block (cutFrom_eq_some hcut).1 m

theorem parseOutsideQuotes_conserves (useQuote useAngle : Bool) :
    Conserves d (Block m) (d.parseOutsideQuotes m useQuote useAngle) := by
  rcases parseOutsideQuotes_cases d m useQuote useAngle with
    ⟨-, hparse⟩ | ⟨n, x, a, y, result, self, hcut, ha, hparse, rfl, hself⟩
  · exact ⟨empty, true, d, hparse, rfl, rfl⟩
  · refine ⟨result, false, self, hparse, _, block_cons ha y, ?_⟩
    rw [hself]
    exact append_block (cutFrom_eq_some hcut).1 m

theorem isIn_ne {c : Char} {m : Data} (h : isIn c m = true) : c ≠ '\x00' := by
  induction m with
  | nil => cases h
  | cons p m ih =>
    rw [isIn] at h
    split at h
    · cases h
    · rename_i hp
      split at h
      · rename_i hpc
        rwa [← hpc]
      · exact ih h

theorem matchChar_conserves : ConservesChar d m := by
  rcases matchChar_cases d m with ⟨-, hmatch⟩ | ⟨x, a, y, result, self, hcut, ha, hmatch, rfl, rfl⟩
  · exact ⟨empty, '\x00', d, hmatch, rfl, rfl⟩
  · refine ⟨result, a, self, hmatch, ?_⟩
    rw [if_neg (isIn_ne ha), List.append_assoc]
    exact ⟨ha, (cutFrom_eq_some hcut).1⟩

theorem chopCR_append (x : Data) : ∃ r, x = Data.chopCR x ++ r ∧ (r = [] ∨ r = ['\r']) := by
  rw [Data.chopCR]
  split
  · rename_i hcr
    obtain ⟨x, rfl⟩ := List.getLast?_eq_some_iff.mp hcr
    exact ⟨['\r'], by rw [List.dropLast_concat], Or.inr rfl⟩
  · exact ⟨[], (List.append_nil x).symm, Or.inl rfl⟩

theorem getLine_conserves : Conserves d (fun r => r = "\r\n".toList ∨ r = "\n".toList) d.getLine := by
  rcases getLine_cases d with ⟨-, hline⟩ | ⟨s', x, y, result, self, hcut, hline, hx, rfl⟩
  · exact ⟨empty, true, d, hline, rfl, rfl⟩
  · obtain ⟨r, hr, hcases⟩ := chopCR_append x
    refine ⟨result, false, self, hline, r ++ ['\n'], ?_, ?_⟩
    · rcases hcases with rfl | rfl
      · exact Or.inr rfl
      · exact Or.inl rfl
    · rw [(cutFrom_eq_some hcut).1, hx, ← List.append_assoc, ← hr, List.append_assoc]
      rfl

/-- The buffer after the rest is moved behind the replacement and the replacement to the front. -/
theorem replaceFront_eq {d : DataBuffer} {x t y : Data} (h : d.text = x ++ t ++ y) (r : DataBuffer)
    (hfits : y.length + r.mLength ≤ d.mCapacity) :
    ∃ self, d.replaceFront x.length t.length r = some self ∧ self.text = r.text ++ y := by
  obtain ⟨hlength, hmoved⟩ := take_drop_mBuf h
  have hlt := d.lt_length
  have hlt' := r.lt_length
  rw [List.length_append] at hlength hmoved
  have hrest : d.mLength - x.length - t.length = y.length := by omega
  have hfront : (d.mBuf.take r.mLength).length = r.mLength := List.length_take_of_le (by rw [mCapacity] at hfits; omega)
  obtain ⟨self, hself, htext, -⟩ := withBuf_append (r.text ++ y) (d.mBuf.drop (r.mLength + (y.length + 1)))
  have hfirst : memmove d.mBuf r.mLength d.mBuf (x.length + t.length) (y.length + 1) =
      some (d.mBuf.take r.mLength ++ (y ++ ['\x00']) ++ d.mBuf.drop (r.mLength + (y.length + 1))) := by
    rw [memmove, if_pos (by rw [mCapacity] at hfits; omega), hmoved]
  have hsecond : memmove (d.mBuf.take r.mLength ++ (y ++ ['\x00']) ++ d.mBuf.drop (r.mLength + (y.length + 1))) 0 r.mBuf 0
      r.mLength = some (r.text ++ y ++ ['\x00'] ++ d.mBuf.drop (r.mLength + (y.length + 1))) := by
    have hroom : 0 + r.mLength ≤
        (d.mBuf.take r.mLength ++ (y ++ ['\x00']) ++ d.mBuf.drop (r.mLength + (y.length + 1))).length := by
      rw [List.append_assoc, List.length_append, hfront]
      omega
    rw [memmove, if_pos ⟨hroom, by omega⟩, List.take_zero, List.nil_append, List.drop_zero, Nat.zero_add, List.append_assoc,
      List.drop_left' hfront, ← text]
    simp only [List.append_assoc]
  rw [List.length_append, length_text, Nat.add_comm r.mLength y.length] at hself
  refine ⟨self, ?_, htext⟩
  rw [replaceFront, hrest, if_pos hfits, hfirst, Option.bind_eq_bind, Option.bind_some, hsecond, Option.bind_some, hself]

theorem assign_eq {d : DataBuffer} {x y : Data} (h : d.text = x ++ y) (retModifiedData : Bool) :
    d.assign retModifiedData x.length = some (if retModifiedData then some x else none) := by
  cases retModifiedData with
  | false => rfl
  | true =>
    obtain ⟨result, hresult, hx⟩ := ofChars_eq h
    rw [assign, if_pos rfl, if_pos rfl, hresult, Option.map_some, hx]

theorem match_conserves (retModifiedData replace : Bool) (replaceWith : DataBuffer) :
    ConservesMatch d m retModifiedData replace replaceWith := by
  rcases find_cases d m with hfind | ⟨before, rest, hfind, htext⟩
  · refine Or.inl ⟨hfind, ?_⟩
    rw [«match», hfind]
  · refine Or.inr ⟨before, rest, hfind, htext, ?_⟩
    have hcode : (if (if retModifiedData then some before else none).any fun before => before.length ≠ 0 then MatchCode.FOUND
        else .FIRST) = if retModifiedData = true ∧ before ≠ [] then .FOUND else .FIRST := by
      cases retModifiedData with
      | false => rfl
      | true => simp
    have hlength := congrArg List.length htext
    rw [length_text, List.length_append, List.length_append] at hlength
    rw [«match», hfind]
    dsimp only
    rw [assign_eq (htext.trans (List.append_assoc ..)), Option.bind_eq_bind, Option.bind_some, hcode]
    cases replace with
    | false =>
      rw [if_neg (by simp)]
      exact ⟨d, rfl, rfl⟩
    | true =>
      rw [if_pos rfl, strlen]
      by_cases hfits : rest.length + replaceWith.mLength ≤ d.mCapacity
      · obtain ⟨self, hself, hreplaced⟩ := replaceFront_eq htext replaceWith hfits
        rw [if_neg (by omega), hself]
        exact ⟨self, rfl, hreplaced⟩
      · have hrest : d.mLength - before.length - (cString m).length = rest.length := by omega
        rw [if_pos ⟨rfl, by omega⟩, replaceFront, hrest, if_neg hfits]
        rfl

end operations

/-! ### The operations on lists -/

section lists

variable (d : DataBuffer) (m : Data)

theorem isIn_eq (c : Char) (m : Data) : isIn c m = Sip.isIn c (cString m) := by
  induction m with
  | nil => rfl
  | cons p m ih =>
    rw [isIn]
    by_cases hp : p = '\x00'
    · rw [if_pos hp, cString, List.takeWhile_cons_of_neg (by simpa using hp)]
      rfl
    · rw [if_neg hp, cString, List.takeWhile_cons_of_pos (by simpa using hp), ← cString, ih, Sip.isIn, Sip.isIn,
        List.contains_cons]
      by_cases hpc : p = c
      · simp [hpc]
      · have hcp : ¬c = p := fun h => hpc h.symm
        simp [hpc, hcp]

theorem dropWhile_isIn (m y : Data) : y.dropWhile (isIn · m) = y.dropWhile (Sip.isIn · (cString m)) :=
  congrArg (fun p => y.dropWhile p) (funext fun c => isIn_eq c m)

/-- The texts that an operation ends in, where it does not fail. -/
def texts (outcome : DataBuffer × Bool × DataBuffer) : Option (Data × Data) :=
  if outcome.2.1 then none else some (outcome.1.text, outcome.2.2.text)

theorem cutFrom_lookIn (l : Data) : (cutFrom (lookIn m) () l).map (·.2) = cut (Sip.isIn · (cString m)) l :=
  cutFrom_map (fun _ c => isIn_eq c m) () l

theorem parse_refines : (d.parse m).map texts = some (Data.parse d.text (cString m)) := by
  rw [Data.parse, Data.matchChar, ← cutFrom_lookIn]
  rcases parse_cases d m with ⟨hcut, hparse⟩ | ⟨x, a, y, result, self, hcut, ha, hparse, rfl, hself⟩
  · rw [hparse, hcut]
    rfl
  · rw [hparse, hcut, Option.map_some, texts, hself, dropWhile_isIn]
    rfl

theorem matchChar_refines : (d.matchChar m).map (fun o => if o.2.1 = '\x00' then none else some (o.1.text, o.2.1, o.2.2.text)) =
    some (Data.matchChar d.text (cString m)) := by
  have hlook : ∀ (s c : Char), (lookChar m s c).2 = Sip.isIn c (cString m) := by
    intro s c
    rw [← isIn_eq, lookChar]
    split <;> simp_all
  rw [Data.matchChar, ← cutFrom_map hlook '\x00']
  rcases matchChar_cases d m with ⟨hcut, hmatch⟩ | ⟨x, a, y, result, self, hcut, ha, hmatch, rfl, rfl⟩
  · rw [hmatch, hcut]
    rfl
  · rw [hmatch, hcut, Option.map_some, if_neg (isIn_ne ha)]
    rfl

theorem getLine_refines : d.getLine.map texts = some (Data.getLine d.text) := by
  have hlook : ∀ (s : LineState) (c : Char), (lookLine s c).2 = decide (c = '\n') := by
    intro s c
    rw [lookLine]
    by_cases hcr : c = '\r'
    · rw [if_pos hcr, hcr]
      rfl
    · rw [if_neg hcr]
      split <;> simp_all
  rw [Data.getLine, ← cutFrom_map hlook .STARTING]
  rcases getLine_cases d with ⟨hcut, hline⟩ | ⟨s', x, y, result, self, hcut, hline, hx, rfl⟩
  · rw [hline, hcut]
    rfl
  · rw [hline, hcut, Option.map_some, texts, hx]
    rfl

theorem next_true (n : Nesting) (p : Char) : next true true n p = n.next p := by
  obtain ⟨inDoubleQuotes, inAngleBrackets⟩ := n
  rw [next, Nesting.next]
  cases inDoubleQuotes <;> cases inAngleBrackets <;> rfl

theorem cutFrom_lookOutside (n : Nesting) (l : Data) :
    (cutFrom (lookOutside m true true) n l).map (fun c => (c.2.1, c.2.2.2)) = cutOutside (cString m) n l := by
  induction l generalizing n with
  | nil => rfl
  | cons c l ih =>
    have hfound : (lookOutside m true true n c).2 = (decide (n.next c = .outside) && Sip.isIn c (cString m)) := by
      rw [lookOutside, next_true, ← isIn_eq]
      obtain ⟨inDoubleQuotes, inAngleBrackets⟩ := n.next c
      cases inDoubleQuotes <;> cases inAngleBrackets <;> rfl
    have hstate : (lookOutside m true true n c).1 = n.next c := next_true n c
    rw [cutFrom, cutOutside, hfound, hstate, ← ih]
    split
    · rfl
    · rw [Option.map_map, Option.map_map]
      rfl

theorem parseOutsideQuotes_refines :
    (d.parseOutsideQuotes m true true).map texts = some (Data.parseOutsideQuotes d.text (cString m)) := by
  rw [Data.parseOutsideQuotes, ← cutFrom_lookOutside]
  rcases parseOutsideQuotes_cases d m true true with ⟨hcut, hparse⟩ | ⟨n, x, a, y, result, self, hcut, ha, hparse, rfl, hself⟩
  · rw [hparse, hcut]
    rfl
  · rw [hparse, hcut, Option.map_some, texts, hself, dropWhile_isIn]
    rfl

theorem find_eq (h : strlen m ≠ 0) : d.find m = Sip.find (cString m) d.text := by
  rw [find]
  cases hfind : Sip.find (cString m) d.text with
  | none =>
    rw [Option.getD_none, if_pos rfl, if_neg h]
  | some pos =>
    have hle := find_le hfind
    rw [length_text, ← strlen] at hle
    rw [Option.getD_some, if_neg (by omega)]

/-- The result of `match` for lists. -/
def matched (outcome : MatchCode × Option Data × DataBuffer) : Data.MatchResult :=
  match outcome with
  | (.NOT_FOUND, _, _) => .NOT_FOUND
  | (.FIRST, _, self) => .FIRST self.text
  | (.FOUND, data, self) => .FOUND (data.getD []) self.text

theorem match_refines (h : strlen m ≠ 0) :
    (d.match m true true empty).map matched = some (Data.match d.text (cString m)) := by
  have hfind := find_eq d m h
  rw [Data.match, ← hfind]
  rcases match_conserves d m true true empty with ⟨hnone, hmatch⟩ | ⟨before, rest, hsome, htext, hmatch⟩
  · rw [hmatch, hnone]
    rfl
  · have hlength := congrArg List.length htext
    have hlt := d.lt_length
    rw [length_text, List.length_append, List.length_append] at hlength
    have hempty : empty.mLength = 0 := rfl
    rw [if_neg (by rw [hempty, mCapacity]; omega)] at hmatch
    obtain ⟨self, hmatch, hself⟩ := hmatch
    replace hself : self.text = rest := hself
    have hdrop : (before ++ cString m ++ rest).drop (before.length + (cString m).length) = rest := by
      rw [← List.length_append, List.drop_left]
    rw [hmatch, hsome, htext, Option.map_some, Option.some_inj]
    cases before with
    | nil =>
      rw [List.length_nil, Nat.zero_add] at hdrop
      simp only [matched, List.length_nil, ne_eq, not_true_eq_false, and_false, if_false, hself, hdrop]
    | cons c before =>
      simp only [matched, List.length_cons, reduceCtorEq, ne_eq, not_false_eq_true, and_self, if_true, hself,
        Option.getD_some]
      rw [← List.length_cons, hdrop, List.append_assoc, List.take_left]

end lists

/-! ### Conservation -/

/-- No operation that takes text off the front loses any of it, and none stops but for a replacement without room. -/
theorem tokens_conserve (d : DataBuffer) (m : Data) :
    Conserves d (Block m) (d.parse m) ∧
    (∀ useQuote useAngle, Conserves d (Block m) (d.parseOutsideQuotes m useQuote useAngle)) ∧
    ConservesChar d m ∧
    Conserves d (fun r => r = "\r\n".toList ∨ r = "\n".toList) d.getLine ∧
    ∀ retModifiedData replace replaceWith, ConservesMatch d m retModifiedData replace replaceWith :=
  ⟨parse_conserves d m, parseOutsideQuotes_conserves d m, matchChar_conserves d m, getLine_conserves d, match_conserves d m⟩

/-- Without a replacement `match` tells the text in front of the string and leaves it where it is. -/
theorem match_keeps_before :
    ¬∀ (d : DataBuffer) (m : Data) (replace : Bool) (replaceWith : DataBuffer) (retVal : MatchCode) (before : Data)
      (self : DataBuffer), d.match m true replace replaceWith = some (retVal, some before, self) → retVal ≠ .NOT_FOUND →
        ∃ r : Data, (replace = false → r = []) ∧ before ++ r ++ self.text = d.text := by
  intro h
  obtain ⟨r, hr, htext⟩ := h ⟨"a:b\x00".toList, 3, rfl⟩ ":".toList false empty .FOUND "a".toList ⟨"a:b\x00".toList, 3, rfl⟩ rfl
    (by decide)
  rw [hr rfl] at htext
  exact absurd htext (by decide)

end DataBuffer

end Vocal.Sip
