import Vocal.Sip.RawHeader.RoundTrip
import Vocal.Sip.Text.Number

/-!
# Max-Forwards along a chain of proxies

A proxy decodes a request, calls `SipCommand::decrementMaxForwards` and encodes the request for the next one.
`SipMaxForwards::encode` writes nothing for the value 0, so the proxy after that reads the default of 70 (or the
next Max-Forwards header of the request) and the request goes on; `boundsPath_iff` says when the path is bounded
after all. `strict` is `SipParserMode::sipParserMode()`; where it throws there is no result.
-/

namespace Vocal.Sip

structure SipMaxForwards where
  value : Int := 70
  deriving DecidableEq, Repr

namespace SipMaxForwards

/-- `SipMaxForwards(const Data&)` with `scanSipMaxForwards`. -/
def ofData (strict : Bool) (data : Data) : Option SipMaxForwards :=
  if data = [] then some {}
  else if data.all isdigit then some ⟨convertInt data⟩
  else if strict then none
  else some {}

/-- `SipMaxForwards::decrement`, with what it returns. -/
def decrement (m : SipMaxForwards) : SipMaxForwards × Int :=
  if 0 < m.value then (⟨m.value - 1⟩, m.value - 1) else (m, -1)

def MAX_FORWARDS : Data := "Max-Forwards:".toList

def encode (m : SipMaxForwards) : Data :=
  if 0 < m.value then MAX_FORWARDS ++ ' ' :: Data.ofInt m.value ++ CRLF else []

end SipMaxForwards

/-- The headers of a request. A Max-Forwards header that was asked for is parsed, and stands in the place of
the first raw one. -/
structure ForwardedCommand where
  headers : SipRawHeaderContainer
  maxForwards : Option SipMaxForwards := none

namespace ForwardedCommand

/-- `getParsedHeader` of the Max-Forwards header, which makes an empty one where there is none. -/
def getMaxForwards (strict : Bool) (c : ForwardedCommand) : Option SipMaxForwards :=
  match c.maxForwards, c.headers .SIP_MAX_FORWARDS_HDR with
  | some m, _ => some m
  | none, h :: _ => SipMaxForwards.ofData strict h.headerValue
  | none, [] => SipMaxForwards.ofData strict []

/-- `SipCommand::decrementMaxForwards`, with what it returns. -/
def decrementMaxForwards (strict : Bool) (c : ForwardedCommand) : Option (Bool × ForwardedCommand) :=
  (c.getMaxForwards strict).map fun m =>
    (m.decrement.2 ≠ -1, { c with maxForwards := some m.decrement.1 })

/-- The headers of a type, as `SipRawHeader::encode` writes them. -/
def encodeType (c : ForwardedCommand) (type : SipHeaderType) : Data :=
  match c.maxForwards with
  | some m =>
    if type = .SIP_MAX_FORWARDS_HDR then
      m.encode ++ (c.headers type).tail.flatMap SipRawHeader.encodeShallowPutsName
    else SipRawHeader.encode (c.headers type)
  | none => SipRawHeader.encode (c.headers type)

/-- `SipRawHeaderContainer::encode`. -/
def encode (c : ForwardedCommand) : Data := sipHeaderOutputOrder.flatMap c.encodeType

end ForwardedCommand

/-- What a proxy does with a request. -/
inductive Hop
  | forwarded (headers : Data)
  | exhausted
  | rejected
  deriving DecidableEq, Repr

/-- A proxy that gets these headers. A line that is no header ends the headers, but is no error to
`SipMsg::parse`. -/
def hop (strict : Bool) (headers : Data) : Hop :=
  match ForwardedCommand.decrementMaxForwards strict { headers := (SipRawHeaderContainer.decode headers).headers } with
  | none => .rejected
  | some (true, c) => .forwarded c.encode
  | some (false, _) => .exhausted

/-- The headers behind a number of proxies that all forwarded the request. -/
def chain (strict : Bool) : Nat → Data → Option Data
  | 0, headers => some headers
  | n + 1, headers =>
    match hop strict headers with
    | .forwarded headers => chain strict n headers
    | _ => none

/-! ### The values of the headers -/

/-- The values of the Max-Forwards headers as a proxy reads them; none where it throws. -/
def forwardsValues (strict : Bool) (headers : Data) : List (Option Int) :=
  ((SipRawHeaderContainer.decode headers).headers .SIP_MAX_FORWARDS_HDR).map
    fun h => (SipMaxForwards.ofData strict h.headerValue).map (·.value)

/-- The value that the first of them gives. -/
def initialValue : List (Option Int) → Option Int
  | [] => some 70
  | v :: _ => v

theorem value_bounds {strict : Bool} {data : Data} {m : SipMaxForwards} (h : SipMaxForwards.ofData strict data = some m) :
    m.value < 2 ^ 31 := by
  rw [SipMaxForwards.ofData] at h
  split_ifs at h
  · cases h
    decide
  · cases h
    exact (convertInt_bounds data).2
  · cases h
    decide

theorem ofData_ofInt (strict : Bool) {v : Int} (hpos : 0 < v) (hlt : v < 2 ^ 31) :
    SipMaxForwards.ofData strict (Data.ofInt v) = some ⟨v⟩ := by
  have hofInt : Data.ofInt v = Data.ofNat v.toNat := by
    rw [Data.ofInt, if_pos hpos.le]
  have hdigits : (Data.ofInt v).all isdigit = true := by
    rw [hofInt, List.all_eq_true]
    exact fun c hc => Data.isdigit_of_mem_ofNat hc
  have hne : Data.ofInt v ≠ [] := hofInt ▸ Data.ofNat_ne_nil _
  rw [SipMaxForwards.ofData, if_neg hne, if_pos hdigits, convertInt_ofInt (by omega) hlt]

theorem map_value_getMaxForwards (strict : Bool) (headers : Data) :
    (ForwardedCommand.getMaxForwards strict { headers := (SipRawHeaderContainer.decode headers).headers }).map (·.value) =
      initialValue (forwardsValues strict headers) := by
  rw [forwardsValues]
  cases h : (SipRawHeaderContainer.decode headers).headers .SIP_MAX_FORWARDS_HDR with
  | nil => simp [ForwardedCommand.getMaxForwards, h, initialValue, SipMaxForwards.ofData]
  | cons first rest => simp [ForwardedCommand.getMaxForwards, h, initialValue]

/-! ### What is written for the next proxy -/

open SipRawHeader (Read)

/-- The Max-Forwards header as it is read again, if one is written. -/
def writtenHeader (m : SipMaxForwards) : List SipRawHeader :=
  if 0 < m.value then [⟨.SIP_MAX_FORWARDS_HDR, "Max-Forwards".toList, Data.ofInt m.value⟩] else []

/-- The container with other Max-Forwards headers. -/
def withMaxForwards (c : SipRawHeaderContainer) (hs : List SipRawHeader) : SipRawHeaderContainer :=
  fun type => if type = .SIP_MAX_FORWARDS_HDR then hs else c type

theorem encode_maxForwards {hs : List SipRawHeader} (h : ∀ h ∈ hs, h.headerType = .SIP_MAX_FORWARDS_HDR) :
    SipRawHeader.encode hs = hs.flatMap SipRawHeader.encodeShallowPutsName := by
  cases hs with
  | nil => rfl
  | cons first rest =>
    have hlist : isList first.headerType = false := by
      rw [h first List.mem_cons_self]
      rfl
    rw [SipRawHeader.encode, if_neg (by simp [hlist])]

theorem encodeShallow_writtenHeader (m : SipMaxForwards) :
    (writtenHeader m).flatMap SipRawHeader.encodeShallowPutsName = m.encode := by
  have hname : headerTypeEncode .SIP_MAX_FORWARDS_HDR = "Max-Forwards".toList := by decide
  have hknown : SipHeaderType.SIP_MAX_FORWARDS_HDR ≠ .SIP_UNKNOWN_HDR := by decide
  have hcolon : "Max-Forwards".toList ++ ": ".toList = SipMaxForwards.MAX_FORWARDS ++ [' '] := by decide
  rw [writtenHeader, SipMaxForwards.encode]
  split
  · rw [List.flatMap_singleton, SipRawHeader.encodeShallowPutsName, if_pos hknown, hname, hcolon,
      List.append_assoc SipMaxForwards.MAX_FORWARDS]
    rfl
  · rfl

theorem read_writtenHeader (m : SipMaxForwards) :
    ∀ h ∈ writtenHeader m, Read .SIP_MAX_FORWARDS_HDR h := by
  intro h hmem
  rw [writtenHeader] at hmem
  split at hmem
  · rename_i hpos
    rw [List.mem_singleton.mp hmem]
    have hofInt : Data.ofInt m.value = Data.ofNat m.value.toNat := by
      rw [Data.ofInt, if_pos hpos.le]
    have hdigit : ∀ c ∈ Data.ofInt m.value, isdigit c = true := by
      rw [hofInt]
      exact fun c hc => Data.isdigit_of_mem_ofNat hc
    have hname : ∀ c ∈ "Max-Forwards".toList, isIn c SipRawHeader.nameEnd = false :=
      forall_isIn_eq_false (by decide)
    have htype : headerTypeDecode (str2lower "Max-Forwards".toList) = .SIP_MAX_FORWARDS_HDR := by decide
    have hline : '\n' ∉ "Max-Forwards".toList := by decide
    refine ⟨rfl, ?_, ?_, ?_, hname, hline, htype⟩
    · intro hnl
      exact absurd (hdigit _ hnl) (by decide)
    · exact fun hmul => absurd hmul (by decide)
    · intro _ c hc
      have hc' := hdigit c (List.mem_of_mem_head? hc)
      by_contra hin
      rw [Bool.not_eq_false] at hin
      have hend : c = ':' ∨ c = ' ' ∨ c = '\t' := by
        simpa [isIn, SipRawHeader.nameEnd] using hin
      rcases hend with rfl | rfl | rfl <;> exact absurd hc' (by decide)
  · cases hmem

theorem encode_forwarded {c : SipRawHeaderContainer} (m : SipMaxForwards)
    (htype : ∀ h ∈ c .SIP_MAX_FORWARDS_HDR, h.headerType = .SIP_MAX_FORWARDS_HDR) :
    ForwardedCommand.encode { headers := c, maxForwards := some m } =
      (withMaxForwards c (writtenHeader m ++ (c .SIP_MAX_FORWARDS_HDR).tail)).encode := by
  have htypes : ForwardedCommand.encodeType { headers := c, maxForwards := some m } =
      fun type => SipRawHeader.encode
        (withMaxForwards c (writtenHeader m ++ (c .SIP_MAX_FORWARDS_HDR).tail) type) := by
    funext type
    by_cases h : type = .SIP_MAX_FORWARDS_HDR
    · subst h
      have hall : ∀ h ∈ writtenHeader m ++ (c .SIP_MAX_FORWARDS_HDR).tail, h.headerType = .SIP_MAX_FORWARDS_HDR := by
        intro h hmem
        rcases List.mem_append.mp hmem with hnew | hold
        · exact (read_writtenHeader m h hnew).headerType
        · exact htype h (List.mem_of_mem_tail hold)
      rw [withMaxForwards, if_pos rfl, encode_maxForwards hall, List.flatMap_append, encodeShallow_writtenHeader,
        ForwardedCommand.encodeType]
      exact if_pos rfl
    · rw [withMaxForwards, if_neg h, ForwardedCommand.encodeType]
      exact if_neg h
  rw [ForwardedCommand.encode, htypes, SipRawHeaderContainer.encode]

theorem encodeLines_maxForwards {hs : List SipRawHeader} (h : ∀ h ∈ hs, Read .SIP_MAX_FORWARDS_HDR h) :
    SipRawHeader.encodeLines hs = hs.map fun h => h.lineName ++ ": ".toList ++ h.headerValue := by
  cases hs with
  | nil => rfl
  | cons first rest =>
    have hlist : isList first.headerType = false := by
      rw [(h first List.mem_cons_self).headerType]
      rfl
    rw [SipRawHeader.encodeLines, if_neg (by simp [hlist])]

/-- What the next proxy reads: the new value, if it is not 0, and the other headers as they were. -/
theorem forwardsValues_encode (strict : Bool) (headers : Data) {m : SipMaxForwards} (hlt : m.value < 2 ^ 31) :
    forwardsValues strict (ForwardedCommand.encode
      { headers := (SipRawHeaderContainer.decode headers).headers, maxForwards := some m }) =
      (if 0 < m.value then [some m.value] else []) ++ (forwardsValues strict headers).tail := by
  have hold := SipRawHeaderContainer.read_decode headers
  generalize hc : (SipRawHeaderContainer.decode headers).headers = c at hold
  have hread : ∀ type, ∀ h ∈ withMaxForwards c (writtenHeader m ++ (c .SIP_MAX_FORWARDS_HDR).tail) type,
      Read type h := by
    intro type h hmem
    rw [withMaxForwards] at hmem
    split at hmem
    · rename_i htype
      rw [htype]
      rcases List.mem_append.mp hmem with hnew | htail
      · exact read_writtenHeader m h hnew
      · exact hold _ h (List.mem_of_mem_tail htail)
    · exact hold type h hmem
  have hsame : withMaxForwards c (writtenHeader m ++ (c .SIP_MAX_FORWARDS_HDR).tail) .SIP_MAX_FORWARDS_HDR =
      writtenHeader m ++ (c .SIP_MAX_FORWARDS_HDR).tail := if_pos rfl
  have hwritten := hread .SIP_MAX_FORWARDS_HDR
  rw [hsame] at hwritten
  rw [encode_forwarded m fun h hh => (hold _ h hh).headerType, forwardsValues,
    SipRawHeaderContainer.decode_encode_headers hread, hsame, encodeLines_maxForwards hwritten,
    SipRawHeader.headersOf_lines hwritten, List.map_map]
  have hvalues : (writtenHeader m ++ (c .SIP_MAX_FORWARDS_HDR).tail).map
      ((fun h : SipRawHeader => (SipMaxForwards.ofData strict h.headerValue).map (·.value)) ∘
        fun h => ⟨.SIP_MAX_FORWARDS_HDR, h.lineName, SipRawHeader.dropLead h.headerValue⟩) =
      (writtenHeader m ++ (c .SIP_MAX_FORWARDS_HDR).tail).map
        fun h => (SipMaxForwards.ofData strict h.headerValue).map (·.value) := by
    apply List.map_congr_left
    intro h hh
    rw [Function.comp_apply, SipRawHeader.dropLead_eq_self_iff.mpr ((hwritten h hh).lead rfl)]
  rw [hvalues, List.map_append, forwardsValues, hc, List.map_tail]
  congr 1
  rw [writtenHeader]
  split
  · rename_i hpos
    rw [List.map_singleton, ofData_ofInt strict hpos hlt]
    rfl
  · rfl

/-! ### Hops -/

variable {strict : Bool} {headers : Data} {v : Int}

theorem hop_rejected (h : initialValue (forwardsValues strict headers) = none) : hop strict headers = .rejected := by
  rw [← map_value_getMaxForwards, Option.map_eq_none_iff] at h
  rw [hop, ForwardedCommand.decrementMaxForwards, h]
  rfl

theorem hop_exhausted (h : initialValue (forwardsValues strict headers) = some v) (hv : v ≤ 0) :
    hop strict headers = .exhausted := by
  rw [← map_value_getMaxForwards, Option.map_eq_some_iff] at h
  obtain ⟨m, hm, rfl⟩ := h
  have hdecrement : m.decrement = (m, -1) := if_neg (by omega)
  rw [hop, ForwardedCommand.decrementMaxForwards, hm, Option.map_some, hdecrement]
  rfl

theorem hop_forwarded (h : initialValue (forwardsValues strict headers) = some v) (hv : 0 < v) :
    ∃ headers', hop strict headers = .forwarded headers' ∧
      forwardsValues strict headers' =
        (if 1 < v then [some (v - 1)] else []) ++ (forwardsValues strict headers).tail := by
  rw [← map_value_getMaxForwards, Option.map_eq_some_iff] at h
  obtain ⟨m, hm, rfl⟩ := h
  have hlt : m.value < 2 ^ 31 := by
    rw [ForwardedCommand.getMaxForwards] at hm
    split at hm
    · rename_i hparsed
      cases hparsed
    · exact value_bounds hm
    · exact value_bounds hm
  have hdecrement : m.decrement = (⟨m.value - 1⟩, m.value - 1) := if_pos hv
  refine ⟨ForwardedCommand.encode
    { headers := (SipRawHeaderContainer.decode headers).headers
      maxForwards := some ⟨m.value - 1⟩ }, ?_, ?_⟩
  · rw [hop, ForwardedCommand.decrementMaxForwards, hm, Option.map_some, hdecrement,
      decide_eq_true (by omega : m.value - 1 ≠ -1)]
  · rw [forwardsValues_encode strict headers (by simp; omega)]
    simp only [sub_pos]

/-- The request is forwarded as often as the value says, and then its first Max-Forwards header is gone. -/
theorem chain_value {n : Nat} (h : initialValue (forwardsValues strict headers) = some (n + 1)) :
    ∃ headers', chain strict (n + 1) headers = some headers' ∧
      forwardsValues strict headers' = (forwardsValues strict headers).tail := by
  induction n generalizing headers with
  | zero =>
    obtain ⟨headers', hhop, hvalues⟩ := hop_forwarded h (by omega)
    refine ⟨headers', ?_, by simpa using hvalues⟩
    rw [chain, hhop]
    rfl
  | succ n ih =>
    obtain ⟨headers', hhop, hvalues⟩ := hop_forwarded h (by omega)
    rw [if_pos (by omega)] at hvalues
    have hnext : initialValue (forwardsValues strict headers') = some (n + 1) := by
      rw [hvalues]
      simp [initialValue]
    obtain ⟨headers'', hchain, hrest⟩ := ih hnext
    refine ⟨headers'', ?_, ?_⟩
    · rw [chain, hhop]
      exact hchain
    · rw [hrest, hvalues]
      rfl

theorem chain_add (m n : Nat) (headers : Data) :
    chain strict (m + n) headers = (chain strict m headers).bind (chain strict n) := by
  induction m generalizing headers with
  | zero => rw [Nat.zero_add]; rfl
  | succ m ih =>
    rw [Nat.succ_add, chain, chain]
    cases hop strict headers with
    | forwarded headers' => exact ih headers'
    | exhausted => rfl
    | rejected => rfl

/-! ### The bound -/

/-- The request is not forwarded more often than its first Max-Forwards value says. -/
def BoundsPath (strict : Bool) (headers : Data) : Prop :=
  ∀ v, initialValue (forwardsValues strict headers) = some v →
    ∀ n, (chain strict n headers).isSome → n ≤ v.toNat

/-- A value that stops the request. -/
def StopsHop (v : Option Int) : Prop := ∀ w, v = some w → w ≤ 0

/-- The first value stops the request, or a second one behind it does. -/
def Bounded : List (Option Int) → Prop
  | [] => False
  | [v] => StopsHop v
  | v :: w :: _ => StopsHop v ∨ StopsHop w

theorem chain_one_isSome_iff (headers : Data) :
    (chain strict 1 headers).isSome ↔ ¬StopsHop (initialValue (forwardsValues strict headers)) := by
  cases h : initialValue (forwardsValues strict headers) with
  | none =>
    rw [chain, hop_rejected h]
    simp [StopsHop]
  | some v =>
    by_cases hv : v ≤ 0
    · rw [chain, hop_exhausted h hv]
      simp [StopsHop, hv]
    · obtain ⟨headers', hhop, -⟩ := hop_forwarded h (Int.not_le.mp hv)
      rw [chain, hhop]
      simp [StopsHop, chain, hv]

theorem isSome_chain_of_le {m n : Nat} (hle : m ≤ n) (h : (chain strict n headers).isSome) :
    (chain strict m headers).isSome := by
  obtain ⟨k, rfl⟩ := Nat.exists_eq_add_of_le hle
  rw [chain_add] at h
  cases hm : chain strict m headers with
  | none =>
    rw [hm] at h
    cases h
  | some headers' => rfl

/-- Max-Forwards bounds the path exactly where a value that stops the request is there from the start. -/
theorem boundsPath_iff (strict : Bool) (headers : Data) :
    BoundsPath strict headers ↔ Bounded (forwardsValues strict headers) := by
  by_cases hstops : StopsHop (initialValue (forwardsValues strict headers))
  · -- not even the first proxy forwards the request
    refine iff_of_true ?_ ?_
    · intro v _ n hn
      by_contra hlt
      exact (chain_one_isSome_iff headers).mp (isSome_chain_of_le (by omega) hn) hstops
    · cases hvalues : forwardsValues strict headers with
      | nil =>
        rw [hvalues] at hstops
        exact absurd (hstops 70 rfl) (by decide)
      | cons v rest =>
        rw [hvalues] at hstops
        cases rest with
        | nil => exact hstops
        | cons w rest => exact Or.inl hstops
  · obtain ⟨v, hv, hpos⟩ : ∃ v, initialValue (forwardsValues strict headers) = some v ∧ 0 < v := by
      simpa [StopsHop] using hstops
    obtain ⟨n, rfl⟩ : ∃ n : Nat, v = n + 1 := ⟨(v - 1).toNat, by omega⟩
    obtain ⟨headers', hchain, htail⟩ := chain_value hv
    have hnext : (chain strict (n + 1 + 1) headers).isSome ↔
        ¬StopsHop (initialValue (forwardsValues strict headers).tail) := by
      rw [chain_add, hchain, ← htail]
      exact chain_one_isSome_iff headers'
    have hbound : BoundsPath strict headers ↔ StopsHop (initialValue (forwardsValues strict headers).tail) := by
      constructor
      · intro h
        by_contra hno
        have hle := h _ hv _ (hnext.mpr hno)
        omega
      · intro h w hw m hm
        obtain rfl := Option.some.inj (hv.symm.trans hw)
        by_contra hlt
        exact hnext.mp (isSome_chain_of_le (by omega) hm) h
    have hdefault : ¬StopsHop (initialValue []) := fun h => absurd (h 70 rfl) (by decide)
    rw [hbound]
    cases hvalues : forwardsValues strict headers with
    | nil => exact iff_of_false hdefault not_false
    | cons v rest =>
      rw [hvalues] at hstops
      cases rest with
      | nil => exact iff_of_false hdefault hstops
      | cons w rest => exact ⟨Or.inr, fun h => h.resolve_left hstops⟩

/-- The value 1: the first proxy writes no Max-Forwards header, and the second forwards the request too. -/
theorem not_boundsPath_one : ¬BoundsPath true "Max-Forwards: 1\r\n".toList := by
  intro h
  have hvalue : initialValue (forwardsValues true "Max-Forwards: 1\r\n".toList) = some 1 := by decide +kernel
  have hchain : (chain true 2 "Max-Forwards: 1\r\n".toList).isSome := by decide +kernel
  have hle := h 1 hvalue 2 hchain
  exact absurd hle (by decide)

end Vocal.Sip
