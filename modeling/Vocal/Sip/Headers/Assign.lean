import Vocal.Sip.Headers.Classes
import Vocal.Sip.RawHeader.RoundTrip
import Vocal.Sip.Url.Assign

/-!
# Assigning containers of headers

`SipRawHeaderContainer::operator=` writes a copy into each slot that the right side has headers in, and leaves
the other slots alone. `NothingLeft` says when what stays there does not show.
-/

namespace Vocal.Sip.HeaderLists

open LazyHeader

variable {H : Type} [SipHeader H] {a b : HeaderLists H}

/-- Equal to the right side, with the same text. -/
def Copied (c b : HeaderLists H) : Prop := c.equals b = some true ∧ c.encode = b.encode

/-- What the left side holds of the types that the right side has no header of: it counts as no header, and
nothing is written for it. -/
structure NothingLeft (a b : HeaderLists H) : Prop where
  equals : ∀ type, b type = [] → slotEquals (a type) [] = some true
  text : ∀ type, b type = [] → encodeChain (a type) = []

/-- The parsed headers equal their copies. -/
def DuplicatesEqual (b : HeaderLists H) : Prop :=
  ∀ type, ∀ n ∈ b type, ∀ h, n.header = some h →
    SipHeader.compareSipHeader (SipHeader.duplicate h) h = some true

/-- The copies of parsed headers are written as these are. -/
def DuplicatesWritten (b : HeaderLists H) : Prop :=
  ∀ type, ∀ n ∈ b type, ∀ h, n.header = some h → SipHeader.encode (SipHeader.duplicate h) = SipHeader.encode h

/-! ### Copies of a chain -/

theorem shallowEquals_duplicate_iff (n : LazyHeader H) :
    n.duplicate.shallowEquals n = some true ↔
      ∀ h, n.header = some h → SipHeader.compareSipHeader (SipHeader.duplicate h) h = some true := by
  obtain ⟨raw, header, local_ip⟩ := n
  cases header with
  | none => simp [shallowEquals, duplicate]
  | some h => simp [shallowEquals, duplicate, parse]

theorem chainEquals_duplicate_iff (l : List (LazyHeader H)) :
    chainEquals (l.map duplicate) l = some true ↔ ∀ n ∈ l, n.duplicate.shallowEquals n = some true := by
  induction l with
  | nil => simp [chainEquals]
  | cons n ns ih =>
    rw [List.map_cons, chainEquals, List.forall_mem_cons, ← ih, Option.bind_eq_some_iff]
    constructor
    · rintro ⟨compare, hn, hns⟩
      cases compare with
      | true => exact ⟨hn, hns⟩
      | false => exact absurd hns (by simp)
    · rintro ⟨hn, hns⟩
      exact ⟨true, hn, hns⟩

theorem slotEquals_duplicate_iff {l : List (LazyHeader H)} :
    slotEquals (l.map duplicate) l = some true ↔ ∀ n ∈ l, n.duplicate.shallowEquals n = some true := by
  rw [← chainEquals_duplicate_iff]
  cases l with
  | nil => simp [slotEquals, chainEquals]
  | cons n ns => rfl

theorem duplicate_text {n : LazyHeader H}
    (h : ∀ h, n.header = some h → SipHeader.encode (SipHeader.duplicate h) = SipHeader.encode h) (comma : Bool) :
    n.duplicate.encodeShallowPutsName = n.encodeShallowPutsName ∧
      n.duplicate.encodeShallowNoName comma = n.encodeShallowNoName comma := by
  obtain ⟨raw, header, local_ip⟩ := n
  cases header with
  | none => exact ⟨rfl, rfl⟩
  | some p =>
    have hp := h p rfl
    unfold encodeShallowPutsName encodeShallowNoName duplicate
    simp only [Option.map_some, hp, and_self]

theorem encodeChain_duplicate {l : List (LazyHeader H)}
    (h : ∀ n ∈ l, ∀ h, n.header = some h → SipHeader.encode (SipHeader.duplicate h) = SipHeader.encode h) :
    encodeChain (l.map duplicate) = encodeChain l := by
  cases l with
  | nil => rfl
  | cons n ns =>
    have hall : ∀ m ∈ n :: ns, ∀ comma, m.duplicate.encodeShallowPutsName = m.encodeShallowPutsName ∧
        m.duplicate.encodeShallowNoName comma = m.encodeShallowNoName comma :=
      fun m hm comma => duplicate_text (h m hm) comma
    have hputs : ((n :: ns).map duplicate).flatMap encodeShallowPutsName = (n :: ns).flatMap encodeShallowPutsName := by
      rw [List.flatMap_map]
      exact List.flatMap_congr fun m hm => (hall m hm true).1
    have hno : (ns.map duplicate).flatMap (encodeShallowNoName · true) = ns.flatMap (encodeShallowNoName · true) := by
      rw [List.flatMap_map]
      exact List.flatMap_congr fun m hm => (hall m (List.mem_cons_of_mem _ hm) true).2
    show (if isList n.headerType then headerTypeEncode n.headerType ++ ": ".toList ++
      n.duplicate.encodeShallowNoName false ++ (ns.map duplicate).flatMap (encodeShallowNoName · true) ++ CRLF
      else ((n :: ns).map duplicate).flatMap encodeShallowPutsName) = _
    rw [hputs, hno, (hall n List.mem_cons_self false).2]
    rfl

/-! ### The slots -/

theorem assign_of_ne {type : SipHeaderType} (h : b type ≠ []) : a.assign b type = (b type).map duplicate := if_pos h

theorem assign_of_nil {type : SipHeaderType} (h : b type = []) : a.assign b type = a type :=
  if_neg (not_not.mpr h)

theorem equals_iff (c src : HeaderLists H) :
    c.equals src = some true ↔ ∀ type, slotEquals (c type) (src type) = some true := by
  have hmap : ∀ rows : List SipHeaderNames,
      (rows.mapM fun row => slotEquals (c row.type) (src row.type)).map (·.all id) = some true ↔
        ∀ row ∈ rows, slotEquals (c row.type) (src row.type) = some true := by
    intro rows
    induction rows with
    | nil => simp
    | cons row rows ih =>
      rw [List.forall_mem_cons, ← ih, List.mapM_cons]
      cases slotEquals (c row.type) (src row.type) with
      | none => simp
      | some r =>
        cases rows.mapM fun row => slotEquals (c row.type) (src row.type) with
        | none => simp
        | some rs => cases r <;> simp
  unfold equals
  rw [hmap]
  constructor
  · intro h type
    obtain ⟨row, hmem, rfl⟩ := SipRawHeader.exists_row type
    exact h row hmem
  · exact fun h row _ => h row.type

theorem equals_assign_iff :
    (a.assign b).equals b = some true ↔
      (∀ type, b type = [] → slotEquals (a type) [] = some true) ∧ DuplicatesEqual b := by
  rw [equals_iff]
  constructor
  · intro h
    constructor
    · intro type hnil
      have hslot := h type
      rwa [assign_of_nil hnil, hnil] at hslot
    · intro type n hn
      have hslot := h type
      rw [assign_of_ne (List.ne_nil_of_mem hn), slotEquals_duplicate_iff] at hslot
      exact (shallowEquals_duplicate_iff n).mp (hslot n hn)
  · rintro ⟨hnull, hequal⟩ type
    by_cases hnil : b type = []
    · rw [assign_of_nil hnil, hnil]
      exact hnull type hnil
    · rw [assign_of_ne hnil, slotEquals_duplicate_iff]
      exact fun n hn => (shallowEquals_duplicate_iff n).mpr (hequal type n hn)

theorem encode_assign_iff (hb : DuplicatesWritten b) :
    (a.assign b).encode = b.encode ↔ ∀ type, b type = [] → encodeChain (a type) = [] := by
  have hslot : ∀ type, encodeChain (a.assign b type) =
      encodeChain (b type) ++ if b type = [] then encodeChain (a type) else [] := by
    intro type
    by_cases hnil : b type = []
    · rw [assign_of_nil hnil, hnil, if_pos rfl]
      rfl
    · rw [assign_of_ne hnil, encodeChain_duplicate (hb type), if_neg hnil, List.append_nil]
  constructor
  · intro htext type hnil
    -- what stays makes the text longer
    have hlength : ∀ types : List SipHeaderType,
        (types.flatMap fun type => encodeChain (a.assign b type)).length =
          (types.flatMap fun type => encodeChain (b type)).length +
            (types.flatMap fun type => if b type = [] then encodeChain (a type) else []).length := by
      intro types
      induction types with
      | nil => rfl
      | cons type types ih =>
        rw [List.flatMap_cons, List.flatMap_cons, List.flatMap_cons, List.length_append, List.length_append,
          List.length_append, ih, hslot, List.length_append]
        omega
    have hall := hlength sipHeaderOutputOrder
    have hsame : (a.assign b).encode.length = b.encode.length := congrArg List.length htext
    unfold encode at hsame
    have hzero : (sipHeaderOutputOrder.flatMap fun type => if b type = [] then encodeChain (a type) else []) = [] :=
      List.eq_nil_of_length_eq_zero (by omega)
    have hone := List.flatMap_eq_nil_iff.mp hzero type (mem_sipHeaderOutputOrder type)
    rwa [if_pos hnil] at hone
  · intro hnil
    unfold encode
    apply List.flatMap_congr
    intro type _
    rw [hslot]
    by_cases h : b type = []
    · rw [if_pos h, hnil type h, List.append_nil]
    · rw [if_neg h, List.append_nil]

/-- **Assigning** a url or a container: the left side is then equal to the right side and has its text if what
it held before is overwritten or does not show, and the copies of the parsed headers are equal to them and
written alike; and only then, where the copies are written alike. -/
theorem assign_copies_iff (u v : Url.SipUrl) (a b : HeaderLists H) :
    ((u.assign v).equals v = true ∧ (u.assign v).encode = v.encode ↔ Url.SipUrl.Overwritten u v) ∧
      (DuplicatesWritten b → (Copied (a.assign b) b ↔ NothingLeft a b ∧ DuplicatesEqual b)) := by
  refine ⟨Url.SipUrl.assign_iff, ?_⟩
  intro hwritten
  unfold Copied
  rw [equals_assign_iff, encode_assign_iff hwritten]
  constructor
  · rintro ⟨⟨hnull, hequal⟩, htext⟩
    exact ⟨⟨hnull, htext⟩, hequal⟩
  · rintro ⟨⟨hnull, htext⟩, hequal⟩
    exact ⟨⟨hnull, hequal⟩, htext⟩

/-- A header that was not parsed stays, and so does a user. -/
theorem assign_keeps_old :
    (∃ a b : Url.SipUrl, Url.SipUrl.fastDecode "sip:u@h".toList = some a ∧
      Url.SipUrl.fastDecode "sip:h".toList = some b ∧ (a.assign b).equals b = false) ∧
    ∃ a b : HeaderLists (Header Empty), (a.assign b).equals b = some false ∧ (a.assign b).encode ≠ b.encode := by
  constructor
  · exact ⟨{ user := some (.sipUser "u".toList), host := "h".toList }, { host := "h".toList },
      by decide, by decide, by decide⟩
  · refine ⟨Function.update empty .SIP_SUBJECT_HDR [⟨⟨.SIP_SUBJECT_HDR, "Subject".toList, "x".toList⟩, none, []⟩],
      empty, by decide, by decide⟩

end Vocal.Sip.HeaderLists
