import Mathlib.Data.List.Basic
import Mathlib.Tactic.IntervalCases

/-!
# Base 64

`Base64::encode` writes four characters for three bytes and a NUL after them, all on one line. `decode` reads up to
the NUL, whatever length it is told, and takes the end of a line after any group. The input of `decode` is the
memory behind its pointer, so that a text without a NUL has no result.
-/

namespace Vocal.Util.Base64

/-! ### The alphabet -/

def basis_64 : List UInt8 :=
  "ABCDEFGHIJKLMNOPQRSTUVWXYZabcdefghijklmnopqrstuvwxyz0123456789+/".toList.map Char.toUInt8

def index_64 : List Int8 :=
  [
    -1, -1, -1, -1, -1, -1, -1, -1, -1, -1, -1, -1, -1, -1, -1, -1,
    -1, -1, -1, -1, -1, -1, -1, -1, -1, -1, -1, -1, -1, -1, -1, -1,
    -1, -1, -1, -1, -1, -1, -1, -1, -1, -1, -1, 62, -1, -1, -1, 63,
    52, 53, 54, 55, 56, 57, 58, 59, 60, 61, -1, -1, -1, -1, -1, -1,
    -1,  0,  1,  2,  3,  4,  5,  6,  7,  8,  9, 10, 11, 12, 13, 14,
    15, 16, 17, 18, 19, 20, 21, 22, 23, 24, 25, -1, -1, -1, -1, -1,
    -1, 26, 27, 28, 29, 30, 31, 32, 33, 34, 35, 36, 37, 38, 39, 40,
    41, 42, 43, 44, 45, 46, 47, 48, 49, 50, 51, -1, -1, -1, -1, -1
  ]

/-- The character of six bits. -/
def basis64 (i : UInt8) : UInt8 := basis_64.getD i.toNat 0

/-- `char64`, as it is kept in an `unsigned char`. -/
def char64 (c : UInt8) : UInt8 := if 127 < c then (-1 : Int8).toUInt8 else (index_64.getD c.toNat (-1)).toUInt8

/-! ### Encoding -/

/-- The loop of `Base64::encode`. -/
def encodeLoop : List UInt8 → List UInt8
  | [] => []
  | [c1] =>
    let c2 : UInt8 := 0
    [basis64 (c1 >>> 2), basis64 ((c1 &&& 0x3) <<< 4 ||| (c2 &&& 0xF0) >>> 4), '='.toUInt8, '='.toUInt8]
  | [c1, c2] =>
    let c3 : UInt8 := 0
    [basis64 (c1 >>> 2), basis64 ((c1 &&& 0x03) <<< 4 ||| (c2 &&& 0xF0) >>> 4),
      basis64 ((c2 &&& 0x0F) <<< 2 ||| (c3 &&& 0xC0) >>> 6), '='.toUInt8]
  | c1 :: c2 :: c3 :: inputBuf =>
    basis64 (c1 >>> 2) :: basis64 ((c1 &&& 0x03) <<< 4 ||| (c2 &&& 0xF0) >>> 4) ::
      basis64 ((c2 &&& 0x0F) <<< 2 ||| (c3 &&& 0xC0) >>> 6) :: basis64 (c3 &&& 0x3F) :: encodeLoop inputBuf

def strlen (buf : List UInt8) : Nat := (buf.takeWhile (· ≠ 0)).length

/-- `Base64::encode`: the output buffer and `outputLen`. -/
def encode (inputBuf : List UInt8) : List UInt8 × UInt32 :=
  let outputBuf := encodeLoop inputBuf ++ [0]
  (outputBuf, .ofNat (strlen outputBuf))

/-! ### Decoding -/

/-- `*inputBuf++`. -/
def read : List UInt8 → Option (UInt8 × List UInt8)
  | [] => none
  | c :: inputBuf => some (c, inputBuf)

/-- What is read before the next turn of the loop. -/
def nextChar (inputBuf : List UInt8) : Option (UInt8 × List UInt8) := do
  let (c1, inputBuf) ← read inputBuf
  if c1 = '\r'.toUInt8 then
    let (c1, inputBuf) ← read inputBuf
    if c1 = '\n'.toUInt8 then read inputBuf else some (c1, inputBuf)
  else some (c1, inputBuf)

theorem length_of_nextChar {mem mem' : List UInt8} {c : UInt8} (h : nextChar mem = some (c, mem')) :
    mem'.length < mem.length := by
  have hread : ∀ {l l' : List UInt8} {b}, read l = some (b, l') → l'.length < l.length := by
    intro l l' b hl
    cases l with
    | nil => cases hl
    | cons a l =>
      cases hl
      exact Nat.lt_succ_self _
  obtain ⟨⟨c1, m1⟩, h1, h⟩ := Option.bind_eq_some_iff.mp h
  have hlt1 := hread h1
  dsimp only at h
  split at h
  · obtain ⟨⟨c2, m2⟩, h2, h⟩ := Option.bind_eq_some_iff.mp h
    have hlt2 := hread h2
    dsimp only at h
    split at h
    · exact (hread h).trans (hlt2.trans hlt1)
    · cases h
      exact hlt2.trans hlt1
  · cases h
    exact hlt1

/-- The bytes of a group of four characters. -/
def group (c1 c2 c3 c4 : UInt8) : List UInt8 :=
  let c1 := char64 c1
  let c2 := char64 c2
  (c1 <<< 2 ||| (c2 &&& 0x30) >>> 4) ::
    if c3 ≠ '='.toUInt8 then
      let c3 := char64 c3
      ((c2 &&& 0xF) <<< 4 ||| (c3 &&& 0x3C) >>> 2) ::
        if c4 ≠ '='.toUInt8 then
          let c4 := char64 c4
          [(c3 &&& 0x03) <<< 6 ||| c4]
        else []
    else []

/-- The loop of `Base64::decode`, with a character read. -/
def decodeLoop (c1 : UInt8) (inputBuf : List UInt8) : Option (List UInt8) :=
  if c1 = 0 then some []
  else
    match inputBuf with
    | c2 :: c3 :: c4 :: inputBuf =>
      match _h : nextChar inputBuf with
      | none => none
      | some (c, inputBuf') => (decodeLoop c inputBuf').map (group c1 c2 c3 c4 ++ ·)
    | _ => none
  termination_by inputBuf.length
  decreasing_by
    have := length_of_nextChar _h
    simp
    omega

/-- `Base64::decode`: the output buffer and `outputLen`, or no result when it reads beyond the memory. -/
def decode (inputBuf : List UInt8) : Option (List UInt8 × UInt32) := do
  let (c1, inputBuf) ← read inputBuf
  let outputBuf ← decodeLoop c1 inputBuf
  return (outputBuf, .ofNat outputBuf.length)

/-! ### The ends of lines -/

/-- What may stand between two groups. -/
inductive LineEnd
  | none
  | cr
  | crlf
  deriving DecidableEq, Repr

def LineEnd.bytes : LineEnd → List UInt8
  | .none => []
  | .cr => ['\r'.toUInt8]
  | .crlf => ['\r'.toUInt8, '\n'.toUInt8]

/-- A text with an end of line after each of its first groups. -/
def breakLines : List LineEnd → List UInt8 → List UInt8
  | e :: ends, c1 :: c2 :: c3 :: c4 :: text => c1 :: c2 :: c3 :: c4 :: (e.bytes ++ breakLines ends text)
  | _, text => text

theorem breakLines_nil (text : List UInt8) : breakLines [] text = text := by
  rw [breakLines]
  simp

/-! ### Six bits -/

section bits

variable {c1 c2 c3 i : UInt8}

def SixBits (i : UInt8) : Prop := i &&& 0x3F = i

theorem sixBits_first : SixBits (c1 >>> 2) := by
  apply UInt8.toBitVec_inj.mp
  ext i hi
  interval_cases i <;> simp

theorem sixBits_second : SixBits ((c1 &&& 0x3) <<< 4 ||| (c2 &&& 0xF0) >>> 4) := by
  apply UInt8.toBitVec_inj.mp
  ext i hi
  interval_cases i <;> simp

theorem sixBits_third : SixBits ((c2 &&& 0x0F) <<< 2 ||| (c3 &&& 0xC0) >>> 6) := by
  apply UInt8.toBitVec_inj.mp
  ext i hi
  interval_cases i <;> simp

theorem sixBits_fourth : SixBits (c3 &&& 0x3F) := by
  rw [SixBits, UInt8.and_assoc]
  rfl

theorem SixBits.lt (h : SixBits i) : i.toNat < 64 := by
  rw [SixBits] at h
  rw [← h, UInt8.toNat_and]
  exact Nat.lt_of_le_of_lt Nat.and_le_right (by decide)

theorem first_byte : (c1 >>> 2) <<< 2 ||| (((c1 &&& 0x3) <<< 4 ||| (c2 &&& 0xF0) >>> 4) &&& 0x30) >>> 4 = c1 := by
  apply UInt8.toBitVec_inj.mp
  ext i hi
  interval_cases i <;> simp

theorem second_byte :
    (((c1 &&& 0x3) <<< 4 ||| (c2 &&& 0xF0) >>> 4) &&& 0xF) <<< 4 |||
      (((c2 &&& 0x0F) <<< 2 ||| (c3 &&& 0xC0) >>> 6) &&& 0x3C) >>> 2 = c2 := by
  apply UInt8.toBitVec_inj.mp
  ext i hi
  interval_cases i <;> simp

theorem third_byte : (((c2 &&& 0x0F) <<< 2 ||| (c3 &&& 0xC0) >>> 6) &&& 0x03) <<< 6 ||| (c3 &&& 0x3F) = c3 := by
  apply UInt8.toBitVec_inj.mp
  ext i hi
  interval_cases i <;> simp

theorem alphabet : ∀ n < 64, char64 (basis64 (.ofNat n)) = .ofNat n ∧ basis64 (.ofNat n) ≠ '='.toUInt8 ∧
    basis64 (.ofNat n) ≠ 0 ∧ basis64 (.ofNat n) ≠ '\r'.toUInt8 ∧ basis64 (.ofNat n) ≠ '\n'.toUInt8 := by
  decide +kernel

/-- A character is read as what it was written for, and is none of those with a meaning of their own. -/
theorem SixBits.basis64 (h : SixBits i) : char64 (basis64 i) = i ∧ basis64 i ≠ '='.toUInt8 ∧
    basis64 i ≠ 0 ∧ basis64 i ≠ '\r'.toUInt8 ∧ basis64 i ≠ '\n'.toUInt8 := by
  have hspec := alphabet i.toNat h.lt
  rwa [UInt8.ofNat_toNat] at hspec

end bits

/-! ### Groups -/

theorem group_one (c1 : UInt8) :
    group (basis64 (c1 >>> 2)) (basis64 ((c1 &&& 0x3) <<< 4 ||| ((0 : UInt8) &&& 0xF0) >>> 4)) '='.toUInt8 '='.toUInt8 = [c1] := by
  rw [group, sixBits_first.basis64.1, sixBits_second.basis64.1]
  dsimp only
  rw [first_byte, if_neg (not_not.mpr rfl)]

theorem group_two (c1 c2 : UInt8) :
    group (basis64 (c1 >>> 2)) (basis64 ((c1 &&& 0x3) <<< 4 ||| (c2 &&& 0xF0) >>> 4))
      (basis64 ((c2 &&& 0x0F) <<< 2 ||| ((0 : UInt8) &&& 0xC0) >>> 6)) '='.toUInt8 = [c1, c2] := by
  rw [group, sixBits_first.basis64.1, sixBits_second.basis64.1]
  dsimp only
  rw [first_byte, if_pos sixBits_third.basis64.2.1, sixBits_third.basis64.1, second_byte, if_neg (not_not.mpr rfl)]

theorem group_three (c1 c2 c3 : UInt8) :
    group (basis64 (c1 >>> 2)) (basis64 ((c1 &&& 0x3) <<< 4 ||| (c2 &&& 0xF0) >>> 4))
      (basis64 ((c2 &&& 0x0F) <<< 2 ||| (c3 &&& 0xC0) >>> 6)) (basis64 (c3 &&& 0x3F)) = [c1, c2, c3] := by
  rw [group, sixBits_first.basis64.1, sixBits_second.basis64.1]
  dsimp only
  rw [first_byte, if_pos sixBits_third.basis64.2.1, sixBits_third.basis64.1, second_byte,
    if_pos sixBits_fourth.basis64.2.1, sixBits_fourth.basis64.1, third_byte]

/-! ### The encoded text -/

theorem mem_encodeLoop (input : List UInt8) : ∀ c ∈ encodeLoop input, c ≠ 0 ∧ c ≠ '\r'.toUInt8 ∧ c ≠ '\n'.toUInt8 := by
  have hsix : ∀ {i : UInt8}, SixBits i → basis64 i ≠ 0 ∧ basis64 i ≠ '\r'.toUInt8 ∧ basis64 i ≠ '\n'.toUInt8 :=
    fun h => h.basis64.2.2
  have hpad : '='.toUInt8 ≠ 0 ∧ '='.toUInt8 ≠ '\r'.toUInt8 ∧ '='.toUInt8 ≠ '\n'.toUInt8 := by decide
  induction input using encodeLoop.induct with
  | case1 => simp [encodeLoop]
  | case2 c1 =>
    simp only [encodeLoop, List.forall_mem_cons]
    exact ⟨hsix sixBits_first, hsix sixBits_second, hpad, hpad, by simp⟩
  | case3 c1 c2 =>
    simp only [encodeLoop, List.forall_mem_cons]
    exact ⟨hsix sixBits_first, hsix sixBits_second, hsix sixBits_third, hpad, by simp⟩
  | case4 c1 c2 c3 input ih =>
    simp only [encodeLoop, List.forall_mem_cons]
    exact ⟨hsix sixBits_first, hsix sixBits_second, hsix sixBits_third, hsix sixBits_fourth, ih⟩

theorem length_encodeLoop (input : List UInt8) : (encodeLoop input).length = 4 * ((input.length + 2) / 3) := by
  induction input using encodeLoop.induct with
  | case1 => rfl
  | case2 c1 => simp [encodeLoop]
  | case3 c1 c2 => simp [encodeLoop]
  | case4 c1 c2 c3 input ih =>
    simp only [encodeLoop, List.length_cons, ih]
    omega

theorem encode_outputLen (input : List UInt8) : (encode input).2 = .ofNat (4 * ((input.length + 2) / 3)) := by
  rw [encode, strlen, List.takeWhile_append_of_pos, List.takeWhile_cons_of_neg (by decide), List.append_nil,
    length_encodeLoop]
  intro c hc
  rw [decide_eq_true_eq]
  exact (mem_encodeLoop input c hc).1

/-! ### Round trip -/

/-- The bytes that a text in memory is decoded to. -/
def decodeText (mem : List UInt8) : Option (List UInt8) := (read mem).bind fun x => decodeLoop x.1 x.2

theorem decodeText_nul (mem : List UInt8) : decodeText (0 :: mem) = some [] := by
  rw [decodeText, read, Option.bind_some, decodeLoop.eq_def]
  exact if_pos rfl

/-- A text that does not start with a character of a line end. -/
def Starts (text : List UInt8) : Prop := ∃ c rest, text = c :: rest ∧ c ≠ '\r'.toUInt8 ∧ c ≠ '\n'.toUInt8

theorem nextChar_bytes {text : List UInt8} (h : Starts text) (e : LineEnd) : nextChar (e.bytes ++ text) = read text := by
  obtain ⟨c, rest, rfl, hcr, hlf⟩ := h
  cases e with
  | none => simp [LineEnd.bytes, nextChar, read, hcr]
  | cr => simp [LineEnd.bytes, nextChar, read, hlf]
  | crlf => simp [LineEnd.bytes, nextChar, read]

theorem decodeText_group {c1 : UInt8} (hc1 : c1 ≠ 0) (c2 c3 c4 : UInt8) {text : List UInt8} (h : Starts text) (e : LineEnd) :
    decodeText (c1 :: c2 :: c3 :: c4 :: (e.bytes ++ text)) = (decodeText text).map (group c1 c2 c3 c4 ++ ·) := by
  have hnext := nextChar_bytes h e
  obtain ⟨c, rest, rfl, -, -⟩ := h
  rw [decodeText, read, Option.bind_some]
  rw [decodeLoop, if_neg hc1, hnext]
  rfl

theorem breakLines_group (ends : List LineEnd) (c1 c2 c3 c4 : UInt8) (text : List UInt8) :
    breakLines ends (c1 :: c2 :: c3 :: c4 :: text) =
      c1 :: c2 :: c3 :: c4 :: ((ends.headD .none).bytes ++ breakLines ends.tail text) := by
  cases ends with
  | nil =>
    rw [breakLines_nil, List.tail_nil, breakLines_nil]
    rfl
  | cons e ends => rfl

theorem breakLines_nul (ends : List LineEnd) : breakLines ends [0] = [0] := by
  cases ends <;> rfl

theorem starts_encodeLoop (ends : List LineEnd) (input mem : List UInt8) :
    Starts (breakLines ends (encodeLoop input ++ [0]) ++ mem) := by
  have hfirst : ∀ c1 : UInt8, basis64 (c1 >>> 2) ≠ '\r'.toUInt8 ∧ basis64 (c1 >>> 2) ≠ '\n'.toUInt8 :=
    fun _ => sixBits_first.basis64.2.2.2
  match input with
  | [] =>
    rw [encodeLoop, List.nil_append, breakLines_nul]
    exact ⟨0, mem, rfl, by decide, by decide⟩
  | [c1] | [c1, c2] | c1 :: c2 :: c3 :: input =>
    simp only [encodeLoop, List.cons_append, breakLines_group]
    exact ⟨_, _, rfl, hfirst c1⟩

theorem decodeText_encodeLoop (ends : List LineEnd) (input mem : List UInt8) :
    decodeText (breakLines ends (encodeLoop input ++ [0]) ++ mem) = some input := by
  have hfirst : ∀ c1 : UInt8, basis64 (c1 >>> 2) ≠ 0 := fun _ => sixBits_first.basis64.2.2.1
  -- the last group is followed by the NUL, with the end of a line before it or not
  have hend : ∀ ends, Starts (breakLines ends [0] ++ mem) ∧ decodeText (breakLines ends [0] ++ mem) = some [] := by
    intro ends
    exact ⟨starts_encodeLoop ends [] mem, by rw [breakLines_nul]; exact decodeText_nul mem⟩
  induction input using encodeLoop.induct generalizing ends with
  | case1 => exact (hend ends).2
  | case2 c1 =>
    simp only [encodeLoop, List.cons_append, List.nil_append, breakLines_group, List.append_assoc]
    rw [decodeText_group (hfirst c1) _ _ _ (hend _).1, (hend _).2, group_one]
    rfl
  | case3 c1 c2 =>
    simp only [encodeLoop, List.cons_append, List.nil_append, breakLines_group, List.append_assoc]
    rw [decodeText_group (hfirst c1) _ _ _ (hend _).1, (hend _).2, group_two]
    rfl
  | case4 c1 c2 c3 input ih =>
    simp only [encodeLoop, List.cons_append, breakLines_group, List.append_assoc]
    rw [decodeText_group (hfirst c1) _ _ _ (starts_encodeLoop _ input mem), ih, group_three]
    rfl

/-- What is encoded is decoded again, whatever stands behind it in memory and with the end of a line after any group. -/
theorem decode_encode (input mem : List UInt8) (ends : List LineEnd) :
    decode (breakLines ends (encode input).1 ++ mem) = some (input, .ofNat input.length) := by
  have htext := decodeText_encodeLoop ends input mem
  rw [decodeText] at htext
  obtain ⟨⟨c1, rest⟩, hread, hloop⟩ := Option.bind_eq_some_iff.mp htext
  rw [decode, encode]
  simp only [hread, hloop, Option.bind_eq_bind, Option.bind_some, Option.pure_def]

end Vocal.Util.Base64
