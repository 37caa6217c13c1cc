import Vocal.Lib.Scan
import Vocal.Sip.Text

/-!
# Parsing received characters

`CharData` is a part of some text, and `CharDataParser` takes it apart. The masks are tables that a character indexes. A
`char` has a sign, so a character from 128 on is a negative index.
-/

namespace Vocal.Rtsp

open Sip (Data CRLF)
open Scan (scan)

/-- What ends the reading of a connection: the exception that the parser throws, or what must not happen. -/
inductive Stop
  | RtspBadDataException
  | assertion
  /-- An access outside a table, a copy or the bytes that were received. What follows from it is left open. -/
  | outOfBounds
  /-- An access to memory that was given back. -/
  | freed
  deriving DecidableEq, Repr

/-! ### Masks -/

def myMaskNonWord (c : Char) : Bool := !(c.isAlpha || c == '-' || c == '_')

def myMaskDigit (c : Char) : Bool := c.isDigit

def myMaskNonSpace (c : Char) : Bool := !(c == '\t' || c == ' ')

def myMaskEol (c : Char) : Bool := c == '\r' || c == '\n'

def myMaskEolSpace (c : Char) : Bool := c == '\t' || c == ' ' || c == '\r' || c == '\n'

/-- The entry of a character in a mask. -/
def entry (mask : Char → Bool) (c : Char) : Except Stop Bool :=
  if c.toNat < 128 then .ok (mask c) else .error .outOfBounds

/-- `CharData::isEqualNoCase`. What it is asked for are words, which have entries in the table of cases. -/
def isEqualNoCase (x data : Data) : Bool := x.map Char.toLower == data.map Char.toLower

/-- `CharData::isEmptyLine` of a line in front of other characters. The second character is read if the first one is a
carriage return, also where the line has no other. -/
def isEmptyLine (line behind : Data) : Except Stop Bool :=
  if line = ['\r'] ∧ behind = [] then .error .outOfBounds else .ok (line = CRLF)

/-! ### The parser -/

/-- `CharDataParser`, in front of the characters that are left to it. It may take its end to lie `beyond` those that were
received. -/
structure CharDataParser where
  text : Data
  beyond : Nat := 0
  deriving DecidableEq, Repr

namespace CharDataParser

/-- `parseUntil`: what stands before the first character to stop at, and whether there is one. -/
def parseUntil (p : CharDataParser) (stop : Char → Except Stop Bool) : Except Stop (Data × Bool × CharDataParser) := do
  let (x, rest) ← scan stop p.text
  if rest = [] ∧ p.beyond > 0 then throw .outOfBounds
  return (x, rest ≠ [], { p with text := rest })

/-- `parseThru` of a character. -/
def parseThru (p : CharDataParser) (stopChar : Char) : Except Stop (Data × Bool × CharDataParser) := do
  let (x, found, p) ← p.parseUntil fun c => .ok (c = stopChar)
  return (x ++ p.text.take 1, found, { p with text := p.text.drop 1 })

def getNextWord (p : CharDataParser) : Except Stop (Data × Bool × CharDataParser) := p.parseUntil (entry myMaskNonWord)

def getThruSpaces (p : CharDataParser) : Except Stop (Data × Bool × CharDataParser) := p.parseUntil (entry myMaskNonSpace)

/-- `getNextLine`: the line with its end, and whether it has one. -/
def getNextLine (p : CharDataParser) : Except Stop (Data × Bool × CharDataParser) := do
  let (x, _, p) ← p.parseUntil (entry myMaskEol)
  match p.text with
  | [] => return (x, false, p)
  | ['\r'] => if p.beyond > 0 then throw .outOfBounds else return (x ++ ['\r'], true, { p with text := [] })
  | '\r' :: '\n' :: rest => return (x ++ CRLF, true, { p with text := rest })
  | c :: rest => return (x ++ [c], true, { p with text := rest })

/-- `getNextInteger`: the number of 32 bits that the digits are. -/
def getNextInteger (p : CharDataParser) : Except Stop (Option (BitVec 32)) := do
  let (numberChar, _) ← scan (fun c => (entry myMaskDigit c).map not) p.text
  if numberChar = [] then return none
  return some (numberChar.foldl (fun value c => value * 10 + BitVec.ofNat 32 (c.toNat - '0'.toNat)) 0)

end CharDataParser

end Vocal.Rtsp
