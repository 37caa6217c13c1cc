import Vocal.Sip.From.Params
import Vocal.Sip.From.Urls

/-!
# From headers are read back

`RoundTrips`: the value that is written for a header is accepted and read as an equal one with the same name.
This needs a url that is writable and parameters that are kept. `QuotedRight`: what
stands behind a quoted name is read as it is without the name.
-/

namespace Vocal.Sip.Url.SipFrom

open Data

variable {f g : SipFrom} {text : Data}

/-! ### Names -/

/-- The name without outer spaces and enclosing quotes. -/
def bareName (displayName : Data) : Data :=
  let dispName := removeSpaces displayName
  let opened := if dispName.head? = some '"' then dispName.tail else dispName
  if opened.getLast? = some '"' then opened.dropLast else opened

/-- The written value is accepted, and read as an equal header with the same name. -/
def RoundTrips (f : SipFrom) : Prop :=
  ∃ g, decode f.value = some g ∧ f.equals g = some true ∧ bareName g.displayName = bareName f.displayName

theorem mem_nameText {c : Char} (hc : c ∈ f.nameText) : c = '"' ∨ c = ' ' ∨ c ∈ f.displayName := by
  simp only [nameText] at hc
  split at hc
  · simp only [List.mem_append] at hc
    rcases hc with ((hc | hc) | hc) | hc
    · split at hc
      · exact Or.inl (List.mem_singleton.mp hc)
      · exact absurd hc List.not_mem_nil
    · exact Or.inr (Or.inr (mem_of_mem_removeSpaces hc))
    · split at hc
      · exact Or.inl (List.mem_singleton.mp hc)
      · exact absurd hc List.not_mem_nil
    · exact Or.inr (Or.inl (List.mem_singleton.mp hc))
  · exact absurd hc List.not_mem_nil

/-- The name without its first quote, when it has one. -/
def openName (dispName : Data) : Data := if dispName.head? = some '"' then dispName.tail else dispName

/-- The quote that is written behind a name. -/
def closing (dispName : Data) : Data := if dispName.getLast? ≠ some '"' then ['"'] else []

theorem quoted_eq (dispName : Data) :
    (if dispName.head? ≠ some '"' then ['"'] else []) ++ dispName = '"' :: openName dispName := by
  rw [openName]
  by_cases hhead : dispName.head? = some '"'
  · obtain ⟨rest, hrest⟩ := List.head?_eq_some_iff.mp hhead
    rw [if_neg (not_not.mpr hhead), if_pos hhead, hrest]
    rfl
  · rw [if_pos hhead, if_neg hhead]
    rfl

theorem getLast?_openName {dispName : Data} (hne : openName dispName ≠ []) :
    (openName dispName).getLast? = dispName.getLast? := by
  rw [openName] at hne ⊢
  split
  · rename_i hhead
    rw [if_pos hhead] at hne
    obtain ⟨rest, rfl⟩ := List.head?_eq_some_iff.mp hhead
    rw [List.tail_cons] at hne ⊢
    rw [List.getLast?_cons_of_ne_nil hne]
  · rfl

theorem closeName (dispName : Data) :
    (if (openName dispName ++ closing dispName).getLast? = some '"' then
        (openName dispName ++ closing dispName).dropLast
      else openName dispName ++ closing dispName) =
      if (openName dispName).getLast? = some '"' then (openName dispName).dropLast else openName dispName := by
  by_cases hlast : dispName.getLast? = some '"'
  · rw [closing, if_neg (not_not.mpr hlast), List.append_nil]
  · rw [closing, if_pos hlast, List.getLast?_concat, if_pos rfl, List.dropLast_concat, if_neg]
    intro hopen
    have hne : openName dispName ≠ [] := by
      intro hnil
      rw [hnil] at hopen
      exact absurd hopen (by simp)
    exact hlast (getLast?_openName hne ▸ hopen)

theorem getLast?_quoted (dispName : Data) :
    ('"' :: (openName dispName ++ closing dispName)).getLast? = some '"' := by
  by_cases hlast : dispName.getLast? = some '"'
  · rw [closing, if_neg (not_not.mpr hlast), List.append_nil]
    by_cases hne : openName dispName = []
    · rw [hne]
      rfl
    · rw [List.getLast?_cons_of_ne_nil hne, getLast?_openName hne, hlast]
  · rw [closing, if_pos hlast, ← List.cons_append, List.getLast?_concat]

theorem bareName_nameText (f : SipFrom) : bareName f.nameText = bareName f.displayName := by
  by_cases hnil : removeSpaces f.displayName = []
  · have htext : f.nameText = [] := by simp [nameText, hnil]
    have hnone : removeSpaces ([] : Data) = [] := rfl
    simp only [bareName, htext, hnil, hnone]
  · have htext : f.nameText = ('"' :: (openName (removeSpaces f.displayName) ++
        closing (removeSpaces f.displayName))) ++ [' '] := by
      simp only [nameText, if_pos hnil]
      rw [quoted_eq]
      rfl
    have htrim : removeSpaces f.nameText = '"' :: (openName (removeSpaces f.displayName) ++
        closing (removeSpaces f.displayName)) := by
      rw [htext]
      refine Cut.trim_append_right ?_ (by simp) (by simp)
      rw [← TrimmedOfSpaces, trimmedOfSpaces_iff, getLast?_quoted]
      exact ⟨by simp, by simp⟩
    simp only [bareName, htrim]
    rw [List.head?_cons, if_pos rfl, List.tail_cons, closeName]
    rfl

/-! ### Reading -/

/-- The parameters of the header. -/
def params (f : SipFrom) : AddrParams := ⟨f.tag, f.tokenMap⟩

theorem parseUrl_read {displayName data : Data} (h : parseUrl displayName data = some f) :
    f.displayName = displayName ∧ f.params.Read := by
  rw [parseUrl] at h
  rcases match_cases data '>' with ⟨-, hm⟩ | ⟨rest, -, hm⟩ | ⟨avalue, rest, -, -, -, hm⟩
  · rw [hm] at h
    exact absurd h (by simp)
  · rw [hm] at h
    exact absurd h (by simp)
  · rw [hm] at h
    obtain ⟨url, -, h⟩ := Option.bind_eq_some_iff.mp h
    rcases match_cases (removeSpaces rest) ';' with ⟨-, hm⟩ | ⟨te, -, hm⟩ | ⟨fik, te, -, -, -, hm⟩
    · rw [hm, Option.some.injEq] at h
      subst h
      exact ⟨rfl, AddrParams.read_empty⟩
    · rw [hm, Option.some.injEq] at h
      subst h
      exact ⟨rfl, AddrParams.read_empty.parseAddrParam _⟩
    · rw [hm] at h
      exact absurd h (by simp)

theorem decode_read (h : decode text = some f) : '<' ∉ f.displayName ∧ f.params.Read := by
  rw [decode, scanSipFrom] at h
  rcases match_cases text '<' with ⟨-, hm⟩ | ⟨rest, -, hm⟩ | ⟨sipdata, rest, -, hname, -, hm⟩
  · rw [hm] at h
    simp only at h
    rcases match_cases text ';' with ⟨-, hm⟩ | ⟨rest, -, hm⟩ | ⟨value, rest, -, -, -, hm⟩
    · rw [hm] at h
      obtain ⟨url, -, rfl⟩ := Option.map_eq_some_iff.mp h
      exact ⟨List.not_mem_nil, AddrParams.read_empty⟩
    · rw [hm] at h
      exact absurd h (by simp)
    · rw [hm] at h
      obtain ⟨url, -, rfl⟩ := Option.map_eq_some_iff.mp h
      exact ⟨List.not_mem_nil, AddrParams.read_empty.parseAddrParam _⟩
  · rw [hm] at h
    obtain ⟨hname, hread⟩ := parseUrl_read h
    rw [hname]
    exact ⟨List.not_mem_nil, hread⟩
  · rw [hm] at h
    obtain ⟨heq, hread⟩ := parseUrl_read h
    rw [heq]
    exact ⟨hname, hread⟩

/-- A name in front of the first bracket. -/
theorem decode_name {name : Data} (hname : '<' ∉ name) (rest : Data) :
    decode (name ++ '<' :: rest) = parseUrl name rest := by
  rw [decode, scanSipFrom]
  by_cases hnil : name = []
  · rw [hnil, List.nil_append, match_first]
  · rw [match_found hname hnil]

/-! ### Writing and reading -/

theorem decode_value_name (hname : '<' ∉ f.displayName) :
    decode f.value =
      parseUrl f.nameText (f.fromUrl.encode ++ '>' :: f.params.written.flatMap (';' :: ·)) := by
  have hvalue : f.value = f.nameText ++ '<' :: (f.fromUrl.encode ++ '>' :: f.params.written.flatMap (';' :: ·)) := by
    rw [value]
    simp only [List.append_assoc, List.cons_append]
    rfl
  rw [hvalue, decode_name]
  intro hc
  rcases mem_nameText hc with h | h | h
  · exact absurd h (by decide)
  · exact absurd h (by decide)
  · exact hname h

theorem decode_value (hf : '<' ∉ f.displayName ∧ f.params.Read) (hne : f.fromUrl.encode ≠ [])
    (hclose : '>' ∉ f.fromUrl.encode) :
    decode f.value = (BaseUrl.decode (removeSpaces f.fromUrl.encode)).map fun url =>
      ofParts f.nameText url f.params.reread := by
  rw [decode_value_name hf.1, parseUrl, match_found hclose hne]
  simp only
  rw [Option.map_eq_bind]
  congr 1
  funext url
  by_cases hwritten : f.params.written = []
  · have hnone : Data.match (removeSpaces ([] : Data)) [';'] = .NOT_FOUND := match_not_found List.not_mem_nil
    rw [hwritten, List.flatMap_nil, hnone, AddrParams.reread, hwritten]
    rfl
  · obtain ⟨te, hm, hread⟩ := AddrParams.match_written hf.2 hwritten
    rw [hm]
    simp only
    rw [hread]
    rfl

/-- The header is one that is read back: its url has no closing bracket and is writable, and its parameters are
kept. -/
structure Writable (f : SipFrom) : Prop where
  close : '>' ∉ f.fromUrl.encode
  url : f.fromUrl.Writable
  params : f.params.Kept

/-- The url is found between the brackets. -/
structure Legible (f : SipFrom) : Prop where
  close : '>' ∉ f.fromUrl.encode
  url : f.fromUrl.Legible

theorem equals_ofParts {name : Data} {w : BaseUrl} {p : AddrParams} :
    f.equals (ofParts name w p) = some true ↔ f.fromUrl.areEqual w = some true ∧ p = f.params := by
  have hparts : p = f.params ↔ f.tag = p.tag ∧ f.tokenMap = p.tokenMap := by
    obtain ⟨tag, tokenMap⟩ := p
    rw [params, AddrParams.mk.injEq]
    exact and_congr eq_comm eq_comm
  rw [hparts, equals, Option.map_eq_some_iff]
  constructor
  · rintro ⟨equal, hurl, hall⟩
    simp only [Bool.and_eq_true, decide_eq_true_eq] at hall
    obtain ⟨⟨rfl, htag⟩, htokens⟩ := hall
    exact ⟨hurl, htag, htokens⟩
  · rintro ⟨hurl, htag, htokens⟩
    exact ⟨true, hurl, by simp [htag, htokens, ofParts]⟩

theorem parseUrl_url {displayName data : Data} (h : parseUrl displayName data = some f) :
    ∃ d, BaseUrl.decode d = some f.fromUrl := by
  rw [parseUrl] at h
  split at h
  · obtain ⟨url, hurl, h⟩ := Option.bind_eq_some_iff.mp h
    refine ⟨_, hurl.trans (congrArg some ?_)⟩
    split at h
    · exact absurd h (by simp)
    · rw [← Option.some.inj h]
      rfl
    · rw [← Option.some.inj h]
      rfl
  · exact absurd h (by simp)

theorem decode_url (h : decode text = some f) : ∃ d, BaseUrl.decode d = some f.fromUrl := by
  rw [decode, scanSipFrom] at h
  split at h
  · split at h
    · obtain ⟨url, hurl, rfl⟩ := Option.map_eq_some_iff.mp h
      exact ⟨_, hurl⟩
    · exact absurd h (by simp)
    · obtain ⟨url, hurl, rfl⟩ := Option.map_eq_some_iff.mp h
      exact ⟨_, hurl⟩
  · exact parseUrl_url h
  · exact parseUrl_url h

theorem roundTrips_of_writable (h : decode text = some f) (hw : f.Writable) : f.RoundTrips := by
  have hf := decode_read h
  obtain ⟨d, hd⟩ := decode_url h
  obtain ⟨hne, w, hdecode, hequal⟩ := BaseUrl.readBack_of_writable hd hw.url
  refine ⟨ofParts f.nameText w f.params.reread, ?_, ?_, bareName_nameText f⟩
  · rw [decode_value hf hne hw.close, hdecode, Option.map_some]
  · exact equals_ofParts.mpr ⟨hequal, (AddrParams.reread_eq_iff hf.2).mpr hw.params⟩

theorem writable_of_roundTrips (h : decode text = some f) (hlegible : f.Legible) (hback : f.RoundTrips) :
    f.Writable := by
  have hf := decode_read h
  obtain ⟨d, hd⟩ := decode_url h
  obtain ⟨g, hdecode, hequal, -⟩ := hback
  have hne : f.fromUrl.encode ≠ [] := by
    intro hnil
    rw [decode_value_name hf.1, hnil, List.nil_append, parseUrl, match_first] at hdecode
    exact absurd hdecode (by simp)
  rw [decode_value hf hne hlegible.close] at hdecode
  obtain ⟨w, hw, rfl⟩ := Option.map_eq_some_iff.mp hdecode
  obtain ⟨hurl, hparams⟩ := equals_ofParts.mp hequal
  exact ⟨hlegible.close, BaseUrl.writable_of_readBack hd hlegible.url ⟨hne, w, hw, hurl⟩,
    (AddrParams.reread_eq_iff hf.2).mp hparams⟩

/-! ### Quoted names -/

/-- The url, the tag and the other parameters. -/
def address (f : SipFrom) : BaseUrl × Data × TokenMap := (f.fromUrl, f.tag, f.tokenMap)

/-- Behind a quoted name an address is read as it is without the name. -/
def QuotedRight (name gap rest : Data) : Prop :=
  (decode ('"' :: name ++ '"' :: gap ++ '<' :: rest)).map address = (decode ('<' :: rest)).map address

theorem address_parseUrl (a b data : Data) : (parseUrl a data).map address = (parseUrl b data).map address := by
  rw [parseUrl, parseUrl]
  split
  · rw [Option.map_bind, Option.map_bind]
    congr 1
    funext url
    simp only [Function.comp]
    split <;> rfl
  · rfl

theorem quotedRight_of_no_bracket {name gap : Data} (hname : '<' ∉ name) (hgap : ∀ c ∈ gap, c = ' ')
    (rest : Data) : QuotedRight name gap rest := by
  have hfront : '<' ∉ '"' :: name ++ '"' :: gap := by
    intro hc
    rcases List.mem_append.mp hc with hc | hc
    · rcases List.mem_cons.mp hc with hc | hc
      · exact absurd hc (by decide)
      · exact hname hc
    · rcases List.mem_cons.mp hc with hc | hc
      · exact absurd hc (by decide)
      · exact absurd (hgap _ hc) (by decide)
  have hbare : decode ('<' :: rest) = parseUrl [] rest := by
    rw [← List.nil_append ('<' :: rest), decode_name List.not_mem_nil]
  rw [QuotedRight, decode_name hfront, hbare]
  exact address_parseUrl _ _ rest

/-! ### Results -/

/-- A header that is writable comes back, and of those that are legible no others do; and behind a quoted name
without an opening bracket the address is read as it stands there. -/
theorem sipFrom_roundTrips (h : decode text = some f) (name gap rest : Data) (hgap : ∀ c ∈ gap, c = ' ') :
    (f.Writable → f.RoundTrips) ∧ (f.Legible → f.RoundTrips → f.Writable) ∧
      ('<' ∉ name → QuotedRight name gap rest) :=
  ⟨roundTrips_of_writable h, writable_of_roundTrips h, fun hname => quotedRight_of_no_bracket hname hgap rest⟩

/-- The header of `b <sip:u@h>;tag=1;a`. -/
def sampleFrom : SipFrom where
  displayName := "b ".toList
  fromUrl := .sipUrl { user := some (.sipUser "u".toList), host := "h".toList }
  tag := "1".toList
  tokenMap := [("a".toList, [])]

theorem sipFrom_roundTrips_sample :
    decode "b <sip:u@h>;tag=1;a".toList = some sampleFrom ∧ sampleFrom.RoundTrips ∧
      QuotedRight "b".toList " ".toList "sip:u@h>;tag=1;a".toList := by
  have hread : decode "b <sip:u@h>;tag=1;a".toList = some sampleFrom := by decide
  have hboth := sipFrom_roundTrips hread "b".toList " ".toList "sip:u@h>;tag=1;a".toList (by simp)
  refine ⟨hread, hboth.1 ⟨by decide, ⟨⟨⟨?_, ?_, ?_⟩, ?_⟩, ⟨?_, ?_, ?_⟩⟩, ⟨?_, ?_⟩⟩, hboth.2.2 (by decide)⟩
  · exact fun e he => absurd he (by simp)
  · intro user huser
    rw [← Option.some.inj huser]
    exact ⟨by decide, by decide⟩
  · exact .plain ⟨by decide, by decide⟩ (by decide) (by decide)
  · rw [trimmedOfSpaces_iff]
    decide
  · decide
  · exact fun hphone => absurd hphone (by decide)
  · exact fun t ht => absurd (Option.some.inj ht) (by simp)
  · intro v hv
    exact absurd (List.mem_singleton.mp hv) (by simp)
  · intro k hk
    have hk' : k = "a".toList := (Prod.mk.inj (Option.some.inj hk)).1.symm
    rw [hk']
    decide

/-- The scanner takes the bracket in the quotes for that of the address. -/
theorem not_sipFrom_roundTrips :
    ¬((∀ text f, decode text = some f → f.RoundTrips) ∧
      ∀ name gap rest, (∀ c ∈ gap, c = ' ') → QuotedRight name gap rest) := by
  rintro ⟨-, hquoted⟩
  have hright := hquoted "a<b".toList " ".toList "sip:h>;tag=1".toList (by simp)
  have hwrong : (decode "\"a<b\" <sip:h>;tag=1".toList).map address ≠
      (decode "<sip:h>;tag=1".toList).map address := by decide
  exact hwrong hright

end Vocal.Sip.Url.SipFrom
