import Vocal.Lib.Bytes
import Vocal.Lib.Cut
import Vocal.Sip.Message

/-!
# Operations on texts

`Data` is the string class of the stack. Its parsing operations take text off the front of a string,
up to a character or a pattern, and leave the rest in place; here they return both parts. A character
set is written as a text, as the source passes it. `convertToHex` writes two digits for each byte.
-/

namespace Vocal.Sip

open Cut (cut trim)

/-- `string::find`: the position of the first occurrence. -/
def find (pat : Data) : Data → Option Nat
  | [] => if pat = [] then some 0 else none
  | c :: cs => if pat.isPrefixOf (c :: cs) then some 0 else (find pat cs).map (· + 1)

def str2lower (str : Data) : Data := str.map Char.toLower

def CRLF : Data := "\r\n".toList

def isIn (c : Char) (m : Data) : Bool := m.contains c

theorem forall_isIn_eq_false {d set : Data} (h : d.all (!isIn · set) = true) : ∀ c ∈ d, isIn c set = false := by
  simpa using h

namespace Data

/-- `Data::matchChar`: the text before the first character of the set, that character and the rest. -/
def matchChar (d m : Data) : Option (Data × Char × Data) := cut (isIn · m) d

/-- `Data::parse`: the text before the first character of the set, and the text after the block of
such characters. -/
def parse (d m : Data) : Option (Data × Data) :=
  (matchChar d m).map fun c => (c.1, c.2.2.dropWhile (isIn · m))

/-- The result of `Data::match`, with the text before the pattern and the rest after it. -/
inductive MatchResult
  | NOT_FOUND
  | FIRST (rest : Data)
  | FOUND (before rest : Data)
  deriving DecidableEq, Repr

/-- `Data::match` with `replace` set. -/
def «match» (d pat : Data) : MatchResult :=
  match find pat d with
  | none => .NOT_FOUND
  | some 0 => .FIRST (d.drop pat.length)
  | some pos => .FOUND (d.take pos) (d.drop (pos + pat.length))

/-- A line without the carriage return that ends it. -/
def chopCR (line : Data) : Data := if line.getLast? = some '\r' then line.dropLast else line

/-- `Data::getLine`: the next line without its end, and the rest. -/
def getLine (d : Data) : Option (Data × Data) := (cut (· = '\n') d).map fun c => (chopCR c.1, c.2.2)

/-- `Data::removeSpaces`. -/
def removeSpaces (d : Data) : Data := trim (· = ' ') d

/-- What continues a header on the next line. -/
def isBlank (c : Char) : Bool := c = ' ' || c = '\t'

/-- `Data::removeLWS`: the end of a line that is continued is overwritten with spaces. -/
def removeLWS : Data → Data
  | [] => []
  | '\r' :: '\n' :: c :: d =>
    if isBlank c then ' ' :: ' ' :: removeLWS (c :: d) else '\r' :: removeLWS ('\n' :: c :: d)
  | c :: d => c :: removeLWS d

end Data

/-! ### Hexadecimal texts -/

def convertToHex (src : Bytes) : Data :=
  src.flatMap fun b => [Nat.digitChar (b.toNat / 16), Nat.digitChar (b.toNat % 16)]

theorem length_convertToHex (src : Bytes) : (convertToHex src).length = 2 * src.length := by
  simp [convertToHex, Nat.mul_comm]

theorem mem_convertToHex {src : Bytes} {c : Char} (h : c ∈ convertToHex src) : ∃ d < 16, c = Nat.digitChar d := by
  obtain ⟨b, -, hc⟩ := List.mem_flatMap.mp h
  have hb := b.toNat_lt
  rcases List.mem_pair.mp hc with rfl | rfl
  · exact ⟨_, by omega, rfl⟩
  · exact ⟨_, by omega, rfl⟩

theorem notMem_convertToHex {c : Char} (hc : ∀ d < 16, c ≠ Nat.digitChar d) (src : Bytes) :
    c ∉ convertToHex src := by
  intro h
  obtain ⟨d, hd, rfl⟩ := mem_convertToHex h
  exact hc d hd rfl

end Vocal.Sip
