import Mathlib.Logic.Function.Basic
import Vocal.Sip.RawHeader

/-!
# Headers that are parsed when they are asked for

`SipRawHeaderContainer` once more, with the `SipHeader` that a raw header gets when it is first read. The chain
of raw headers that hangs on a slot of the container is a list here, its end the null pointer; every raw header
belongs to one chain, as the callers of `insertHeader` have it, which make a new one each time.

An operation has no result where an assertion fails or a null pointer is followed.
-/

namespace Vocal.Sip

/-- `SipHeader`: the functions that each class of headers has. There is no header of a type without a class; a
reader or a comparison that throws has no result. -/
class SipHeader (H : Type) where
  decodeHeader : SipHeaderType → Data → Data → Option (Option H)
  encode : H → Data
  duplicate : H → H
  compareSipHeader : H → H → Option Bool

/-- `SipRawHeader` with its parsed header, which may be absent, and without its `next`. -/
structure LazyHeader (H : Type) extends SipRawHeader where
  header : Option H
  local_ip : Data
  deriving DecidableEq, Repr

/-- The slots of `SipRawHeaderContainer`, one for each type. -/
abbrev HeaderLists (H : Type) := SipHeaderType → List (LazyHeader H)

variable {H : Type}

namespace LazyHeader

/-- The empty entry that is created. -/
def blank (type : SipHeaderType) (local_ip : Data) : LazyHeader H := ⟨⟨type, [], []⟩, none, local_ip⟩

/-- The entry that `appendHeader` makes of a parsed header. -/
def ofHeader (type : SipHeaderType) (p : Option H) (local_ip : Data) : LazyHeader H := ⟨⟨type, [], []⟩, p, local_ip⟩

variable [SipHeader H]

/-- `SipRawHeader::parse`. -/
def parse (n : LazyHeader H) : Option (LazyHeader H) :=
  match n.header with
  | some _ => some n
  | none => (SipHeader.decodeHeader n.headerType n.headerValue n.local_ip).map fun h => { n with header := h }

/-- `SipRawHeader::duplicate`. -/
def duplicate (n : LazyHeader H) : LazyHeader H := { n with header := n.header.map SipHeader.duplicate }

/-! ### Comparing -/

def shallowEquals (n src : LazyHeader H) : Option Bool :=
  if src.header.isNone && n.header.isNone then
    some (n.headerType = src.headerType && n.headerValue = src.headerValue &&
      (n.headerType ≠ .SIP_UNKNOWN_HDR || str2lower n.headerNameOriginal = str2lower src.headerNameOriginal))
  else
    -- the null pointer is of no class
    src.parse.bind fun src => n.parse.bind fun n => n.header.bind fun h =>
      src.header.elim (some false) (SipHeader.compareSipHeader h)

/-- The types that equal the null pointer whenever they are parsed. -/
def equalsNull : SipHeaderType → Bool
  | .SIP_CONTENT_TYPE_HDR | .SIP_CONTENT_LENGTH_HDR | .SIP_CONTENT_DISPOSITION_HDR
  | .SIP_CONTENT_ENCODING_HDR | .SIP_CONTENT_LANGUAGE_HDR | .SIP_MAX_FORWARDS_HDR => true
  | _ => false

def shallowEqualsNul (n : LazyHeader H) : Bool :=
  match n.header with
  | none => false
  | some h => equalsNull n.headerType || SipHeader.encode h = []

/-! ### Writing -/

/-- `encodeShallowPutsName`. -/
def encodeShallowPutsName (n : LazyHeader H) : Data :=
  match n.header with
  | some h => SipHeader.encode h
  | none => n.toSipRawHeader.encodeShallowPutsName

/-- `encodeShallowNoName`. -/
def encodeShallowNoName (n : LazyHeader H) (comma : Bool) : Data :=
  match n.header with
  | some h => (if comma then [','] else []) ++ SipHeader.encode h
  | none => n.toSipRawHeader.encodeShallowNoName comma

end LazyHeader

namespace HeaderLists

open LazyHeader

def empty : HeaderLists H := fun _ => []

/-- Changes the chain of one type. -/
def modify (c : HeaderLists H) (type : SipHeaderType)
    (f : List (LazyHeader H) → Option (List (LazyHeader H))) : Option (HeaderLists H) :=
  (f (c type)).map (Function.update c type)

/-! ### The operations on a chain

The loops walk along the chain with a pointer to the slot they stand at, and count the position down. -/

/-- `insertManyHeader` from a slot on, with the headers linked to it. -/
def insertManyWalk (header : List (LazyHeader H)) : List (LazyHeader H) → List (LazyHeader H)
  | [] => header
  | n :: ns => n :: insertManyWalk header ns

/-- `insertHeader` from a slot on. -/
def insertWalk (header : LazyHeader H) : List (LazyHeader H) → Int → Option (List (LazyHeader H))
  | [], pos => if pos = 0 ∨ pos = -1 then some [header] else none
  | n :: ns, pos =>
    if pos ≠ 0 then (insertWalk header ns (if pos > 0 then pos - 1 else pos)).map (n :: ·)
    else some (header :: n :: ns)

/-- `removeHeader` of an index other than -1, from a slot on. -/
def removeWalk : List (LazyHeader H) → Int → Option (List (LazyHeader H))
  | [], index => if index ≠ 0 then none else some []
  | n :: ns, index => if index ≠ 0 then (removeWalk ns (index - 1)).map (n :: ·) else some ns

/-- `removeHeader` of the last one. -/
def removeLast : List (LazyHeader H) → List (LazyHeader H)
  | [] => []
  | [_] => []
  | n :: m :: ns => n :: removeLast (m :: ns)

/-- `setNumHeaders` from a slot on. -/
def setNumWalk : List (LazyHeader H) → Nat → List (LazyHeader H)
  | [], _ => []
  | _ :: _, 0 => []
  | n :: ns, number + 1 => n :: setNumWalk ns number

/-- `getHeaderOrCreate` of an index that is not negative, from a slot on: the chain and the entry. -/
def getWalk (blank : LazyHeader H) : List (LazyHeader H) → Nat → List (LazyHeader H) × LazyHeader H
  | [], 0 => ([blank], blank)
  | [], index + 1 => (blank :: (getWalk blank [] index).1, (getWalk blank [] index).2)
  | n :: ns, 0 => (n :: ns, n)
  | n :: ns, index + 1 => (n :: (getWalk blank ns index).1, (getWalk blank ns index).2)

/-- The loop to the last entry. -/
def getLastWalk (q : LazyHeader H) : List (LazyHeader H) → LazyHeader H
  | [] => q
  | n :: ns => getLastWalk n ns

/-! ### The operations of the container -/

def getNumHeaders (c : HeaderLists H) (type : SipHeaderType) : Nat := (c type).length

def insertManyHeader (c : HeaderLists H) (header : LazyHeader H) (next : List (LazyHeader H)) : HeaderLists H :=
  Function.update c header.headerType (insertManyWalk (header :: next) (c header.headerType))

def insertHeader (c : HeaderLists H) (header : LazyHeader H) (pos : Int) : Option (HeaderLists H) :=
  c.modify header.headerType fun l => insertWalk header l pos

def appendHeader (c : HeaderLists H) (type : SipHeaderType) (p : Option H) (local_ip : Data) (pos : Int) :
    Option (HeaderLists H) :=
  c.insertHeader (ofHeader type p local_ip) pos

def removeHeader (c : HeaderLists H) (type : SipHeaderType) (index : Int) : Option (HeaderLists H) :=
  c.modify type fun l => if index ≠ -1 then removeWalk l index else some (removeLast l)

def setNumHeaders (c : HeaderLists H) (type : SipHeaderType) (number : Int) : Option (HeaderLists H) :=
  c.modify type fun l => if 0 ≤ number then some (setNumWalk l number.toNat) else none

/-- The chain that `getHeaderOrCreate` leaves, and the entry it returns. -/
def getOrCreate (l : List (LazyHeader H)) (blank : LazyHeader H) (index : Int) :
    List (LazyHeader H) × LazyHeader H :=
  if 0 ≤ index then getWalk blank l index.toNat
  else
    match l with
    | [] => ([blank], blank)
    | n :: ns => (n :: ns, getLastWalk n ns)

def getHeaderOrCreate (c : HeaderLists H) (type : SipHeaderType) (local_ip : Data) (index : Int) :
    HeaderLists H × LazyHeader H :=
  let r := getOrCreate (c type) (blank type local_ip) index
  (Function.update c type r.1, r.2)

/-! ### Parsing -/

variable [SipHeader H]

/-- Where the entry is that an index leads to, in a chain that has it. -/
def position (l : List (LazyHeader H)) (index : Int) : Nat := if 0 ≤ index then index.toNat else l.length - 1

/-- `getParsedHeader`, with the container that it leaves. -/
def getParsedHeader (c : HeaderLists H) (type : SipHeaderType) (local_ip : Data) (index : Int) :
    Option (HeaderLists H × H) :=
  let r := c.getHeaderOrCreate type local_ip index
  r.2.parse.bind fun n => n.header.map fun p =>
    (Function.update r.1 type ((r.1 type).set (position (r.1 type) index) n), p)

/-- The header of an entry is assigned a value. -/
def setHeader (c : HeaderLists H) (type : SipHeaderType) (i : Nat) (p : H) : HeaderLists H :=
  Function.update c type ((c type).modify i fun n => { n with header := some p })

/-- `*p = value` after `getParsedHeader(p, type, local_ip)`. -/
def assignHeader (c : HeaderLists H) (type : SipHeaderType) (local_ip : Data) (value : H) :
    Option (HeaderLists H) :=
  (c.getParsedHeader type local_ip 0).map fun r => r.1.setHeader type 0 value

/-! ### Comparing, copying and writing -/

/-- `SipRawHeader::operator==`, for the headers linked to both. -/
def chainEquals : List (LazyHeader H) → List (LazyHeader H) → Option Bool
  | [], [] => some true
  | n :: ns, m :: ms =>
    (n.shallowEquals m).bind fun compare => if compare then chainEquals ns ms else some false
  | _, _ => some false

/-- The comparison of one slot. -/
def slotEquals : List (LazyHeader H) → List (LazyHeader H) → Option Bool
  | [], [] => some true
  | n :: _, [] => some n.shallowEqualsNul
  | [], m :: _ => some m.shallowEqualsNul
  | n :: ns, m :: ms => chainEquals (n :: ns) (m :: ms)

/-- `SipRawHeaderContainer::operator==`. -/
def equals (c src : HeaderLists H) : Option Bool :=
  (sipHeaderTable.mapM fun row => slotEquals (c row.type) (src row.type)).map (·.all id)

/-- `SipRawHeaderContainer::operator=`: a slot that is null in the source stays as it is. -/
def assign (c src : HeaderLists H) : HeaderLists H := fun type =>
  if src type ≠ [] then (src type).map LazyHeader.duplicate else c type

/-- `SipRawHeader::encode` of a header and those linked to it. -/
def encodeChain : List (LazyHeader H) → Data
  | [] => []
  | n :: ns =>
    if isList n.headerType then
      headerTypeEncode n.headerType ++ ": ".toList ++ n.encodeShallowNoName false ++
        ns.flatMap (encodeShallowNoName · true) ++ CRLF
    else (n :: ns).flatMap encodeShallowPutsName

/-- `SipRawHeaderContainer::encode`. -/
def encode (c : HeaderLists H) : Data := sipHeaderOutputOrder.flatMap fun type => encodeChain (c type)

end HeaderLists

end Vocal.Sip
