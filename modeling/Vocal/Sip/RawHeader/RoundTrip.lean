import Vocal.Sip.RawHeader.Lines
import Vocal.Sip.RawHeader.Values

/-!
# Writing and reading header blocks

What `SipRawHeaderContainer::encode` writes for the headers of an accepted block is read again. Each
type is written under its own name, in lines that are read back as headers of that type, so the
containers agree type by type; `roundTrips_iff` says for which values they do.
-/

namespace Vocal.Sip

open Cut

namespace SipRawHeader

/-- The name that a header is written under. -/
def lineName (h : SipRawHeader) : Data :=
  if h.headerType ≠ .SIP_UNKNOWN_HDR then headerTypeEncode h.headerType else h.headerNameOriginal

/-- The lines that `encode` writes, without their ends. -/
def encodeLines : List SipRawHeader → List Data
  | [] => []
  | h :: hs =>
    if isList h.headerType then
      [headerTypeEncode h.headerType ++ ": ".toList ++ joinValues ((h :: hs).map (·.headerValue))]
    else (h :: hs).map fun h => h.lineName ++ ": ".toList ++ h.headerValue

theorem encode_eq_lines (hs : List SipRawHeader) : encode hs = (encodeLines hs).flatMap (· ++ CRLF) := by
  cases hs with
  | nil => rfl
  | cons h hs =>
    rw [encode, encodeLines]
    by_cases hlist : isList h.headerType
    · have hfirst : encodeShallowNoName h false = h.headerValue := by
        rw [encodeShallowNoName]
        by_cases hv : h.headerValue = []
        · simp [hv]
        · simp [hv]
      have hrest : hs.flatMap (encodeShallowNoName · true) =
          (hs.map (·.headerValue)).flatMap fun w => if w ≠ [] then ',' :: w else [] := by
        rw [List.flatMap_map]
        rfl
      rw [if_pos hlist, if_pos hlist, hfirst, hrest, List.map_cons, joinValues]
      simp
    · rw [if_neg hlist, if_neg hlist, List.flatMap_map]
      apply List.flatMap_congr
      intro h' _
      rfl

/-! ### Headers as they are read -/

/-- A header of a type as a line gives it. -/
structure Read (type : SipHeaderType) (h : SipRawHeader) : Prop where
  headerType : h.headerType = type
  newline : '\n' ∉ h.headerValue
  comma : isMultiple type → NoOuterComma h.headerValue
  lead : isMultiple type = false → ∀ c ∈ h.headerValue.head?, isIn c nameEnd = false
  nameEnd : ∀ c ∈ h.headerNameOriginal, isIn c nameEnd = false
  nameNewline : '\n' ∉ h.headerNameOriginal
  nameType : headerTypeDecode (str2lower h.headerNameOriginal) = type

theorem parse_eq_some {m d name value : Data} (h : d.parse m = some (name, value)) :
    (∀ c ∈ name, isIn c m = false) ∧ (∀ c ∈ name, c ∈ d) ∧ (∀ c ∈ value, c ∈ d) ∧
      ∀ c ∈ value.head?, isIn c m = false := by
  obtain ⟨⟨x, a, y⟩, hcut, heq⟩ := Option.map_eq_some_iff.mp h
  simp only [Prod.mk.injEq] at heq
  obtain ⟨rfl, rfl⟩ := heq
  obtain ⟨rfl, hx, -⟩ := cut_eq_some_iff.mp hcut
  refine ⟨hx, ?_, ?_, head?_dropWhile y⟩
  · intro c hc
    exact List.mem_append_left _ hc
  · intro c hc
    apply List.mem_append_right
    exact List.mem_cons_of_mem _ ((List.dropWhile_suffix _).subset hc)

theorem read_of_mem_headersOf {type : SipHeaderType} {line : Data} {h : SipRawHeader} (hline : '\n' ∉ line)
    (hmem : h ∈ headersOf type line) : Read type h := by
  obtain ⟨hmem, htype⟩ := List.mem_filter.mp hmem
  rw [decide_eq_true_eq] at htype
  cases hdec : decode line with
  | none =>
    rw [hdec] at hmem
    cases hmem
  | some hs =>
    rw [hdec, Option.getD_some] at hmem
    obtain ⟨headerName, headerValue, hparse, rfl⟩ := decode_eq_some hdec
    obtain ⟨hname, hnameMem, hvalueMem, hlead⟩ := parse_eq_some hparse
    obtain ⟨value, hvalue, rfl⟩ := List.mem_map.mp hmem
    simp only at htype
    rw [htype] at hvalue
    have hnewline : '\n' ∉ headerValue := fun h => hline (hvalueMem _ h)
    refine ⟨htype, ?_, ?_, ?_, hname, fun h => hline (hnameMem _ h), htype⟩
    · intro hnl
      split at hvalue
      · exact hnewline ((mem_splitValues hvalue).2 _ hnl)
      · rw [List.mem_singleton] at hvalue
        exact hnewline (hvalue ▸ hnl)
    · intro hmul
      rw [if_pos hmul] at hvalue
      exact (mem_splitValues hvalue).1
    · intro hsingle
      rw [if_neg (by simp [hsingle]), List.mem_singleton] at hvalue
      rw [hvalue]
      exact hlead

/-! ### Names -/

theorem exists_row (type : SipHeaderType) : ∃ row ∈ sipHeaderTable, row.type = type := by
  have hany : (sipHeaderTable.any fun row => row.type = type) = true := by
    cases type <;> rfl
  simpa using hany

theorem headerTypeEncode_row (type : SipHeaderType) :
    ∃ row ∈ sipHeaderTable, row.type = type ∧ headerTypeEncode type = row.upperName := by
  rw [headerTypeEncode]
  cases hfind : sipHeaderTable.find? (·.type = type) with
  | none =>
    obtain ⟨row, hrow, htype⟩ := exists_row type
    exact absurd htype (by simpa using List.find?_eq_none.mp hfind row hrow)
  | some row => exact ⟨row, List.mem_of_find?_eq_some hfind, by simpa using List.find?_some hfind, rfl⟩

theorem table_decode : (sipHeaderTable.all fun row => row.type = .SIP_UNKNOWN_HDR ||
    headerTypeDecode (str2lower row.upperName) = row.type) = true := by
  decide +kernel

theorem table_chars : (sipHeaderTable.all fun row =>
    row.upperName.all fun c => !isIn c nameEnd && c != '\n') = true := by
  decide +kernel

theorem headerTypeDecode_encode {type : SipHeaderType} (h : type ≠ .SIP_UNKNOWN_HDR) :
    headerTypeDecode (str2lower (headerTypeEncode type)) = type := by
  obtain ⟨row, hrow, rfl, hname⟩ := headerTypeEncode_row type
  have hdec := List.all_eq_true.mp table_decode row hrow
  rw [hname]
  simpa [h] using hdec

theorem headerTypeEncode_chars {type : SipHeaderType} {c : Char} (hc : c ∈ headerTypeEncode type) :
    isIn c nameEnd = false ∧ c ≠ '\n' := by
  obtain ⟨row, hrow, rfl, hname⟩ := headerTypeEncode_row type
  rw [hname] at hc
  have hchar := List.all_eq_true.mp (List.all_eq_true.mp table_chars row hrow) c hc
  simpa using hchar

theorem lineName_ok {type : SipHeaderType} {h : SipRawHeader} (hread : Read type h) :
    (∀ c ∈ h.lineName, isIn c nameEnd = false ∧ c ≠ '\n') ∧
      headerTypeDecode (str2lower h.lineName) = type := by
  rw [lineName, hread.headerType]
  by_cases hunknown : type = .SIP_UNKNOWN_HDR
  · rw [if_neg (by simp [hunknown])]
    refine ⟨?_, hread.nameType⟩
    intro c hc
    refine ⟨hread.nameEnd c hc, ?_⟩
    rintro rfl
    exact hread.nameNewline hc
  · rw [if_pos hunknown]
    exact ⟨fun c hc => headerTypeEncode_chars hc, headerTypeDecode_encode hunknown⟩

/-! ### Reading the lines again -/

/-- The value of a written line, as it is read. -/
def dropLead (v : Data) : Data := v.dropWhile (isIn · nameEnd)

theorem parse_line {name : Data} (hname : ∀ c ∈ name, isIn c nameEnd = false) (v : Data) :
    Data.parse (name ++ ": ".toList ++ v) nameEnd = some (name, dropLead v) := by
  have hcut : cut (isIn · nameEnd) (name ++ ':' :: ' ' :: v) = some (name, ':', ' ' :: v) :=
    cut_append hname (by decide)
  have hsplit : name ++ ": ".toList ++ v = name ++ ':' :: ' ' :: v := by simp
  rw [hsplit, Data.parse, Data.matchChar, hcut, Option.map_some, List.dropWhile_cons_of_pos (by decide)]
  rfl

theorem decode_line {type : SipHeaderType} {name : Data} (hname : ∀ c ∈ name, isIn c nameEnd = false)
    (htype : headerTypeDecode (str2lower name) = type) (v : Data) :
    decode (name ++ ": ".toList ++ v) =
      some ((if isMultiple type then splitValues (dropLead v) else [dropLead v]).map
        fun value => ⟨type, name, value⟩) := by
  rw [decode, parse_line hname, Option.map_some]
  simp only [htype]

theorem headersOf_line {type : SipHeaderType} {name : Data} (hname : ∀ c ∈ name, isIn c nameEnd = false)
    (htype : headerTypeDecode (str2lower name) = type) (v : Data) (type' : SipHeaderType) :
    headersOf type' (name ++ ": ".toList ++ v) =
      if type = type' then
        (if isMultiple type then splitValues (dropLead v) else [dropLead v]).map
          fun value => ⟨type, name, value⟩
      else [] := by
  rw [headersOf, decode_line hname htype, Option.getD_some, List.filter_map]
  by_cases h : type = type'
  · simp [h, Function.comp_def]
  · simp [h, Function.comp_def]

/-! ### The lines of one type -/

/-- What the values of a type need to come back: those of a list are joinable, and those of another
type that is cut at commas do not begin like the end of a name. -/
def Faithful (type : SipHeaderType) (vs : List Data) : Prop :=
  if isList type then Joinable vs
  else isMultiple type → ∀ v ∈ vs, ∀ c ∈ v.head?, isIn c nameEnd = false

theorem dropLead_eq_self_iff {v : Data} : dropLead v = v ↔ ∀ c ∈ v.head?, isIn c nameEnd = false := by
  constructor
  · intro h
    rw [← h]
    exact head?_dropWhile v
  · exact dropWhile_eq_self_of_head

theorem noOuterComma_dropLead {v : Data} (h : NoOuterComma v) : NoOuterComma (dropLead v) := by
  induction v with
  | nil => exact h
  | cons c v ih =>
    rw [dropLead, List.dropWhile_cons]
    split
    · rename_i hc
      apply ih
      -- such a character neither nests nor separates
      have hkeep : Nesting.next .outside c = .outside ∧ isIn c ",".toList = false := by
        have hcases : c = ':' ∨ c = ' ' ∨ c = '\t' := by simpa [isIn, nameEnd] using hc
        rcases hcases with rfl | rfl | rfl <;> decide
      rw [NoOuterComma, cutOutside, hkeep.1, hkeep.2] at h
      exact Option.map_eq_none_iff.mp h
    · exact h

theorem isMultiple_of_isList {type : SipHeaderType} (h : isList type) : isMultiple type := by
  cases type <;> first | rfl | cases h

theorem ne_unknown_of_isList {type : SipHeaderType} (h : isList type) : type ≠ .SIP_UNKNOWN_HDR := by
  rintro rfl
  cases h

theorem newline_joinValues {vs : List Data} (h : ∀ v ∈ vs, '\n' ∉ v) : '\n' ∉ joinValues vs := by
  cases vs with
  | nil => simp [joinValues]
  | cons v vs =>
    rw [joinValues, List.mem_append, not_or]
    refine ⟨h v (List.mem_cons_self ..), ?_⟩
    intro hmem
    obtain ⟨w, hw, hnl⟩ := List.mem_flatMap.mp hmem
    have := h w (List.mem_cons_of_mem _ hw)
    split at hnl
    · simp_all
    · cases hnl

variable {type : SipHeaderType} {hs : List SipRawHeader}

theorem mem_encodeLines (hread : ∀ h ∈ hs, Read type h) {l : Data} (hl : l ∈ encodeLines hs) :
    ∃ name v, l = name ++ ": ".toList ++ v ∧ (∀ c ∈ name, isIn c nameEnd = false ∧ c ≠ '\n') ∧
      headerTypeDecode (str2lower name) = type ∧ '\n' ∉ v := by
  cases hs with
  | nil => cases hl
  | cons h hs =>
    have hh := hread h (List.mem_cons_self ..)
    rw [encodeLines] at hl
    split at hl
    · rename_i hlist
      rw [hh.headerType] at hlist hl
      refine ⟨_, _, List.mem_singleton.mp hl, fun c hc => headerTypeEncode_chars hc,
        headerTypeDecode_encode (ne_unknown_of_isList hlist), newline_joinValues ?_⟩
      intro v hv
      obtain ⟨h', hh', rfl⟩ := List.mem_map.mp hv
      exact (hread h' hh').newline
    · obtain ⟨h', hh', rfl⟩ := List.mem_map.mp hl
      have hname := lineName_ok (hread h' hh')
      exact ⟨_, _, rfl, hname.1, hname.2, (hread h' hh').newline⟩

theorem encodeLines_ok (hread : ∀ h ∈ hs, Read type h) {l : Data} (hl : l ∈ encodeLines hs) :
    l ≠ [] ∧ '\n' ∉ l ∧ decode l ≠ none := by
  obtain ⟨name, v, rfl, hname, htype, hv⟩ := mem_encodeLines hread hl
  refine ⟨by simp, ?_, ?_⟩
  · simp only [List.mem_append, not_or]
    exact ⟨⟨fun h => (hname _ h).2 rfl, by decide⟩, hv⟩
  · rw [decode_line (fun c hc => (hname c hc).1) htype]
    simp

theorem headersOf_encodeLines_of_ne (hread : ∀ h ∈ hs, Read type h) {type' : SipHeaderType}
    (hne : type ≠ type') : (encodeLines hs).flatMap (headersOf type') = [] := by
  rw [List.flatMap_eq_nil_iff]
  intro l hl
  obtain ⟨name, v, rfl, hname, htype, -⟩ := mem_encodeLines hread hl
  rw [headersOf_line (fun c hc => (hname c hc).1) htype, if_neg hne]

theorem headersOf_lines (hread : ∀ h ∈ hs, Read type h) :
    (hs.map fun h => h.lineName ++ ": ".toList ++ h.headerValue).flatMap (headersOf type) =
      hs.map fun h => ⟨type, h.lineName, dropLead h.headerValue⟩ := by
  rw [List.flatMap_map, List.map_eq_flatMap]
  apply List.flatMap_congr
  intro h hh
  have hname := lineName_ok (hread h hh)
  have hsplit : (if isMultiple type then splitValues (dropLead h.headerValue) else [dropLead h.headerValue]) =
      [dropLead h.headerValue] := by
    split
    · rename_i hmul
      exact splitValues_eq_singleton (noOuterComma_dropLead ((hread h hh).comma hmul))
    · rfl
  rw [headersOf_line (fun c hc => (hname.1 c hc).1) hname.2, if_pos rfl, hsplit]
  rfl

theorem key_eq (hread : ∀ h ∈ hs, Read type h) (hknown : type ≠ .SIP_UNKNOWN_HDR) :
    hs.map key = (hs.map (·.headerValue)).map fun v => (type, v, []) := by
  rw [List.map_map]
  apply List.map_congr_left
  intro h hh
  rw [Function.comp_apply, key, (hread h hh).headerType, if_neg hknown]

/-- What is read back of a type agrees with what was written exactly for faithful values. -/
theorem map_key_encodeLines_iff (hread : ∀ h ∈ hs, Read type h) :
    ((encodeLines hs).flatMap (headersOf type)).map key = hs.map key ↔
      Faithful type (hs.map (·.headerValue)) := by
  rw [Faithful]
  cases hs with
  | nil =>
    have hnil : Joinable [] := ⟨by simp, by simp, by simp, by simp, by simp⟩
    simp [encodeLines, hnil]
  | cons h hs =>
    have hh := hread h (List.mem_cons_self ..)
    rw [encodeLines, hh.headerType]
    split
    · rename_i hlist
      have hmul := isMultiple_of_isList hlist
      have hknown := ne_unknown_of_isList hlist
      have hcomma : ∀ v ∈ (h :: hs).map (·.headerValue), NoOuterComma v := by
        intro v hv
        obtain ⟨h', hh', rfl⟩ := List.mem_map.mp hv
        exact (hread h' hh').comma hmul
      have hinj : Function.Injective fun v : Data => ((type, v, []) : SipHeaderType × Data × Data) := by
        intro v w hvw
        simpa using hvw
      rw [key_eq hread hknown, List.flatMap_singleton,
        headersOf_line (fun c hc => (headerTypeEncode_chars hc).1) (headerTypeDecode_encode hknown),
        if_pos rfl, if_pos hmul, List.map_map]
      have hkey : (key ∘ fun value => (⟨type, headerTypeEncode type, value⟩ : SipRawHeader)) =
          fun v => (type, v, []) := by
        funext v
        rw [Function.comp_apply, key, if_neg hknown]
      rw [hkey, hinj.list_map.eq_iff]
      exact splitValues_joinValues_iff (by simp) hcomma
    · rw [headersOf_lines hread, List.map_map, List.map_inj_left, List.forall_mem_map]
      have heach : ∀ h' ∈ h :: hs, (key ∘ fun h' => (⟨type, h'.lineName, dropLead h'.headerValue⟩ : SipRawHeader)) h' =
          key h' ↔ ∀ c ∈ h'.headerValue.head?, isIn c nameEnd = false := by
        intro h' hh'
        rw [← dropLead_eq_self_iff, Function.comp_apply, key, key, lineName, (hread h' hh').headerType]
        by_cases hunknown : type = .SIP_UNKNOWN_HDR
        · simp [hunknown]
        · simp [hunknown]
      constructor
      · intro hkeys _ h' hh'
        exact (heach h' hh').mp (hkeys h' hh')
      · intro hvalues h' hh'
        rw [heach h' hh']
        cases hmul : isMultiple type with
        | true => exact hvalues hmul h' hh'
        | false => exact (hread h' hh').lead hmul

end SipRawHeader

/-! ### Containers -/

theorem mem_sipHeaderOutputOrder (type : SipHeaderType) : type ∈ sipHeaderOutputOrder := by
  have hany : (sipHeaderOutputOrder.any fun t => t = type) = true := by
    cases type <;> rfl
  simpa using hany

theorem nodup_sipHeaderOutputOrder : sipHeaderOutputOrder.Nodup := by
  decide +kernel

theorem flatMap_eq_of_nodup {α β : Type} {l : List α} {f : α → List β} {a : α} (hl : l.Nodup) (ha : a ∈ l)
    (h : ∀ b ∈ l, b ≠ a → f b = []) : l.flatMap f = f a := by
  obtain ⟨s, t, rfl⟩ := List.append_of_mem ha
  have hs : s.flatMap f = [] := by
    rw [List.flatMap_eq_nil_iff]
    intro b hb
    apply h b (List.mem_append_left _ hb)
    rintro rfl
    exact (List.nodup_append.mp hl).2.2 b hb b (List.mem_cons_self ..) rfl
  have ht : t.flatMap f = [] := by
    rw [List.flatMap_eq_nil_iff]
    intro b hb
    apply h b (List.mem_append_right _ (List.mem_cons_of_mem _ hb))
    rintro rfl
    exact (List.nodup_cons.mp (List.nodup_append.mp hl).2.1).1 hb
  rw [List.flatMap_append, List.flatMap_cons, hs, ht]
  simp

namespace SipRawHeaderContainer

open SipRawHeader

/-- What `encode` writes is accepted, and gives an equal container. -/
def RoundTrips (c : SipRawHeaderContainer) : Prop :=
  (decode c.encode).parseError = false ∧ Same (decode c.encode).headers c

theorem encode_eq_lines (c : SipRawHeaderContainer) :
    c.encode = (sipHeaderOutputOrder.flatMap fun type => SipRawHeader.encodeLines (c type)).flatMap (· ++ CRLF) := by
  rw [encode, List.flatMap_assoc]
  apply List.flatMap_congr
  intro type _
  exact SipRawHeader.encode_eq_lines _

section Written

variable {c : SipRawHeaderContainer} (hread : ∀ type, ∀ h ∈ c type, Read type h)
include hread

theorem blockLines_encode :
    blockLines c.encode = sipHeaderOutputOrder.flatMap fun type => SipRawHeader.encodeLines (c type) := by
  rw [encode_eq_lines]
  apply blockLines_flatMap
  intro l hl
  obtain ⟨type, -, hl⟩ := List.mem_flatMap.mp hl
  have hok := encodeLines_ok (hread type) hl
  exact ⟨hok.1, hok.2.1⟩

theorem decode_encode_parseError : (decode c.encode).parseError = false := by
  rw [decode_parseError, blockLines_encode hread]
  intro l hl
  obtain ⟨type, -, hl⟩ := List.mem_flatMap.mp hl
  exact (encodeLines_ok (hread type) hl).2.2

theorem decode_encode_headers (type : SipHeaderType) :
    (decode c.encode).headers type = (SipRawHeader.encodeLines (c type)).flatMap (headersOf type) := by
  rw [decode_headers (decode_encode_parseError hread), blockLines_encode hread, List.flatMap_assoc]
  apply flatMap_eq_of_nodup nodup_sipHeaderOutputOrder (mem_sipHeaderOutputOrder type)
  intro type' _ hne
  exact headersOf_encodeLines_of_ne (hread type') hne

theorem roundTrips_iff_faithful : RoundTrips c ↔ ∀ type, Faithful type ((c type).map (·.headerValue)) := by
  constructor
  · rintro ⟨-, hsame⟩ type
    rw [← map_key_encodeLines_iff (hread type), ← decode_encode_headers hread]
    exact hsame type
  · intro hfaithful
    refine ⟨decode_encode_parseError hread, ?_⟩
    intro type
    rw [decode_encode_headers hread, map_key_encodeLines_iff (hread type)]
    exact hfaithful type

end Written

theorem read_decodeLoop {fuel : Nat} {c : SipRawHeaderContainer} {d : Data}
    (hread : ∀ type, ∀ h ∈ c type, Read type h) :
    ∀ type, ∀ h ∈ (decodeLoop fuel c d).headers type, Read type h := by
  induction fuel generalizing c d with
  | zero => exact hread
  | succ fuel ih =>
    rcases Data.line_cases d with ⟨x, rest, hx, rfl⟩ | hd
    · rw [decodeLoop, Data.getLine_append hx]
      by_cases hempty : Data.chopCR x = []
      · simp only [hempty, if_true]
        exact hread
      · cases hdec : SipRawHeader.decode (Data.chopCR x) with
        | none =>
          simp only [hempty, if_false, hdec]
          exact hread
        | some hs =>
          simp only [hempty, if_false, hdec]
          apply ih
          intro type h hmem
          rw [insertManyHeader_decode c hdec] at hmem
          rcases List.mem_append.mp hmem with hold | hnew
          · exact hread type h hold
          · exact read_of_mem_headersOf (fun hnl => hx (Data.mem_of_mem_chopCR hnl)) hnew
    · rw [decodeLoop, Data.getLine_eq_none hd]
      exact hread

theorem read_decode (headers : Data) : ∀ type, ∀ h ∈ (decode headers).headers type, Read type h :=
  read_decodeLoop fun _ _ h => absurd h List.not_mem_nil

/-- The values that the lines of a block hold for a type. -/
def valuesOf (headers : Data) (type : SipHeaderType) : List Data :=
  ((blockLines headers).flatMap (headersOf type)).map (·.headerValue)

/-- The headers of an accepted block come back from what `encode` writes exactly when the values of
each type are faithful. -/
theorem roundTrips_iff {headers : Data} (h : (decode headers).parseError = false) :
    RoundTrips (decode headers).headers ↔ ∀ type, Faithful type (valuesOf headers type) := by
  rw [roundTrips_iff_faithful (read_decode headers)]
  simp only [decode_headers h, valuesOf]

theorem roundTrips_iff_via_route :
    (decode "Via: a\r\nRoute: <b>, <c>\r\nFoo: d\r\n\r\n".toList).parseError = false ∧
      (RoundTrips (decode "Via: a\r\nRoute: <b>, <c>\r\nFoo: d\r\n\r\n".toList).headers ↔
        ∀ type, Faithful type (valuesOf "Via: a\r\nRoute: <b>, <c>\r\nFoo: d\r\n\r\n".toList type)) := by
  have haccepted : (decode "Via: a\r\nRoute: <b>, <c>\r\nFoo: d\r\n\r\n".toList).parseError = false := by
    decide +kernel
  exact ⟨haccepted, roundTrips_iff haccepted⟩

/-- The empty value after the last comma of a list is not written. -/
theorem not_roundTrips_empty_value :
    (decode "Route: <a>,\r\n".toList).parseError = false ∧
      ¬RoundTrips (decode "Route: <a>,\r\n".toList).headers := by
  refine ⟨by decide +kernel, ?_⟩
  rintro ⟨-, hsame⟩
  have hroute := congrArg List.length (hsame .SIP_ROUTE_HDR)
  rw [List.length_map, List.length_map] at hroute
  exact absurd hroute (by decide +kernel)

end SipRawHeaderContainer

end Vocal.Sip
