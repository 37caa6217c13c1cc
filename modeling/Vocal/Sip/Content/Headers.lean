import Vocal.Sip.RawHeader
import Vocal.Sip.Text.Number

/-!
# Content headers

The headers that describe a body: `SipContentType` with its parameter list, `SipContentLength` and
`SipContentDisposition`, each with its reader and its writer. A reader gives no result where the source
throws an exception or fails an assertion; `strict` is `SipParserMode::sipParserMode()`.
-/

namespace Vocal.Sip

/-! ### Parameters -/

/-- `Data::operator<`, for texts without NUL. -/
def strLess : Data → Data → Bool
  | [], [] => false
  | [], _ :: _ => true
  | _ :: _, [] => false
  | a :: x, b :: y => if a = b then strLess x y else a.toNat < b.toNat

/-- `SipParameterList`: a map, in the order of its keys. -/
abbrev SipParameterList := List (Data × Data)

namespace SipParameterList

/-- `operator[](key) = value`. -/
def setValue (key value : Data) : SipParameterList → SipParameterList
  | [] => [(key, value)]
  | (k, v) :: l =>
    if k = key then (key, value) :: l
    else if strLess key k then (key, value) :: (k, v) :: l
    else (k, v) :: setValue key value l

def getValue (l : SipParameterList) (key : Data) : Data :=
  match l.find? (·.1 = key) with
  | some (_, v) => v
  | none => []

theorem getValue_setValue (l : SipParameterList) (key value key' : Data) :
    (l.setValue key value).getValue key' = if key = key' then value else l.getValue key' := by
  induction l with
  | nil =>
    by_cases h : key = key' <;> simp [setValue, getValue, h]
  | cons item l ih =>
    obtain ⟨k, v⟩ := item
    rw [setValue]
    split
    · rename_i hk
      subst hk
      by_cases h : k = key' <;> simp [getValue, h]
    · rename_i hk
      split
      · by_cases h : key = key' <;> simp [getValue, h]
      · by_cases hk' : k = key'
        · have hne : key ≠ key' := fun h => hk (hk'.trans h.symm)
          simp [getValue, hk', hne]
        · have htail : getValue ((k, v) :: setValue key value l) key' =
              getValue (setValue key value l) key' := by
            simp [getValue, hk']
          rw [htail, ih]
          simp [getValue, hk']

def clearValue (l : SipParameterList) (key : Data) : SipParameterList := l.filter (·.1 ≠ key)

/-- The keys whose values are quoted. -/
def quotedKeys : List Data :=
  ["realm".toList, "nonce".toList, "cnonce".toList, "opaque".toList, "domain".toList, "username".toList,
    "uri".toList, "response".toList]

def encodeValue (key value : Data) : Data :=
  if quotedKeys.contains key && !value.contains '"' then '"' :: value ++ ['"'] else value

def encodeItem (item : Data × Data) : Data :=
  item.1 ++ if item.2 ≠ [] then '=' :: encodeValue item.1 item.2 else []

/-- `SipParameterList::encode`; an empty key is left out. -/
def encode (l : SipParameterList) : Data :=
  ([';'] : Data).intercalate ((l.filter (·.1 ≠ [])).map encodeItem)

/-- The loop of `SipParameterList::decode`; the key and the value are those read so far. -/
def decodeLoop : SipParameterList → (key value : Data) → (inVal inQuotes : Bool) → Data → SipParameterList
  | l, key, value, _, _, [] => if key ≠ [] then l.setValue key value else l
  | l, key, value, false, inQuotes, c :: d =>
    if isspace c then decodeLoop l key value false inQuotes d
    else if c = '=' then decodeLoop l key value true inQuotes d
    else if c = ';' then decodeLoop (l.setValue key []) [] value false inQuotes d
    else decodeLoop l (key ++ [c.toLower]) value false inQuotes d
  | l, key, value, true, inQuotes, c :: d =>
    if c = '"' then decodeLoop l key (value ++ [c]) true (!inQuotes) d
    else if c = ';' && !inQuotes then
      decodeLoop (l.setValue key value.removeSpaces) [] [] false inQuotes d
    else decodeLoop l key (value ++ [c]) true inQuotes d

/-- `SipParameterList::decode`, which adds to the list. -/
def decode (l : SipParameterList) (data : Data) : SipParameterList := decodeLoop l [] [] false false data

end SipParameterList

/-! ### Content-Type -/

structure SipContentType where
  type : Data := []
  subtype : Data := []
  myParamList : SipParameterList := []
  deriving DecidableEq, Repr

namespace SipContentType

def setType (ct : SipContentType) (newtype : Data) : SipContentType :=
  { ct with type := str2lower newtype }

def setSubType (ct : SipContentType) (newsubtype : Data) : SipContentType :=
  { ct with subtype := str2lower newsubtype }

def setTokenDetails (ct : SipContentType) (token tokenValue : Data) : SipContentType :=
  { ct with myParamList := ct.myParamList.setValue token tokenValue }

def clearToken (ct : SipContentType) (token : Data) : SipContentType :=
  { ct with myParamList := ct.myParamList.clearValue token }

/-- `SipContentType(type, subtype)`. -/
def ofTypes (type subtype : Data) : SipContentType := { type := str2lower type, subtype := str2lower subtype }

/-- What is left after the text up to a colon. -/
def afterColon (data : Data) : Data :=
  match Data.«match» data ":".toList with
  | .NOT_FOUND => data
  | .FIRST rest => rest
  | .FOUND _ rest => rest

/-- `SipContentType::scanSipContentType` of a header without parts. -/
def scanSipContentType (strict : Bool) (adata : Data) : Option SipContentType :=
  match Data.«match» (afterColon adata) "/".toList with
  | .NOT_FOUND => if strict then none else some {}
  | .FIRST _ => if strict then none else some {}
  | .FOUND sipdata data =>
    let ct := setType {} sipdata.removeSpaces
    match Data.«match» data ";".toList with
    | .NOT_FOUND => some (ct.setSubType data)
    | .FIRST _ => if strict then none else some ct
    | .FOUND lsubtype parms =>
      some { ct.setSubType lsubtype with myParamList := ct.myParamList.decode parms }

/-- The constructor from a text. -/
def decode (strict : Bool) (data : Data) : Option SipContentType :=
  if data = [] then some {}
  else
    match Data.«match» data CRLF with
    | .NOT_FOUND => scanSipContentType strict data
    | .FIRST _ => scanSipContentType strict []
    | .FOUND ndat _ => scanSipContentType strict ndat

def value (ct : SipContentType) : Data :=
  ct.type ++ '/' :: ct.subtype ++ if ct.myParamList ≠ [] then "; ".toList ++ ct.myParamList.encode else []

/-- `SipContentType::encode`; a value with a line end in it gets none at its end. -/
def encode (ct : SipContentType) : Data :=
  if ct.type = [] then []
  else
    let content := "Content-Type: ".toList ++ ct.value
    match Data.«match» content CRLF with
    | .NOT_FOUND => content ++ CRLF
    | _ => content

end SipContentType

/-! ### Content-Length -/

/-- `SipContentLength`: the length as text. -/
structure SipContentLength where
  contentLength : Data := []
  deriving DecidableEq, Repr

namespace SipContentLength

def setLength (length : Nat) : SipContentLength := ⟨Data.ofNat length⟩

/-- The number that is written. -/
def number (cl : SipContentLength) : Data :=
  match cl.contentLength with
  | [] => "0".toList
  | c :: d => c :: d

def encode (cl : SipContentLength) : Data := "Content-Length: ".toList ++ cl.number ++ CRLF

end SipContentLength

/-! ### Content-Disposition -/

structure SipContentDisposition where
  attr : Data := []
  value : Data := []
  handleparm : Data := []
  dispositiontype : Data := []
  deriving DecidableEq, Repr

namespace SipContentDisposition

def HANDLING_PARM : Data := "handling".toList

/-- `parseFinParms`. -/
def parseFinParms (strict : Bool) (cd : SipContentDisposition) (dspdata dspvalue : Data) :
    Option SipContentDisposition :=
  if isEqualNoCase dspdata HANDLING_PARM then
    if isEqualNoCase dspvalue "required".toList || isEqualNoCase dspvalue "optional".toList then
      some { cd with handleparm := dspvalue }
    else if strict then none else some cd
  else some { cd with attr := dspdata, value := dspvalue }

/-- `parseParms`. -/
def parseParms (strict : Bool) (cd : SipContentDisposition) (tpdata : Data) : Option SipContentDisposition :=
  match Data.«match» tpdata "=".toList with
  | .FOUND dsvalue dsdata => parseFinParms strict cd dsvalue dsdata
  | _ => some cd

/-- The loop of `parseDispositionParm`; every turn takes a semicolon off the text. -/
def parseDispositionParm (strict : Bool) : Nat → SipContentDisposition → Data → Option SipContentDisposition
  | 0, cd, _ => some cd
  | fuel + 1, cd, parmdata =>
    if parmdata = [] then some cd
    else
      match Data.«match» parmdata ";".toList with
      | .FOUND parmvalue rest =>
        (parseParms strict cd parmvalue).bind fun cd => parseDispositionParm strict fuel cd rest
      | .NOT_FOUND => parseParms strict cd parmdata
      | .FIRST rest => parseDispositionParm strict fuel cd rest

/-- The constructor from a text. -/
def decode (strict : Bool) (newData : Data) : Option SipContentDisposition :=
  if newData = [] then some {}
  else
    match Data.«match» newData ";".toList with
    | .FOUND despvalue despdata =>
      parseDispositionParm strict (despdata.length + 1) { dispositiontype := despvalue } despdata
    | .NOT_FOUND => some { dispositiontype := newData }
    | .FIRST _ => if strict then none else some {}

def encode (cd : SipContentDisposition) : Data :=
  if cd.dispositiontype = [] ∧ cd.handleparm = [] ∧ cd.attr = [] then []
  else
    "Content-Disposition: ".toList ++ cd.dispositiontype ++
      (if cd.handleparm ≠ [] then ';' :: HANDLING_PARM ++ '=' :: cd.handleparm else []) ++
      (if cd.attr ≠ [] ∧ cd.value ≠ [] then ';' :: cd.attr ++ '=' :: cd.value else []) ++ CRLF

end SipContentDisposition

end Vocal.Sip
