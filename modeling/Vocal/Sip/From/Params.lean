import Vocal.Sip.From
import Vocal.Sip.Text.Match

/-!
# The parameters of a From header

The parameters are written as pieces behind semicolons. Reading them back loses the pieces that are empty,
except the last, and the spaces at the end. `Kept` says for which parameters nothing is lost, and
`reread_eq_iff` that these are the ones that come back.
-/

namespace Vocal.Sip.Url.SipFrom

open Data SortedMap

namespace AddrParams

variable {p : AddrParams} {d : Data} {t : Data × Data}

/-! ### One piece -/

theorem parseAddrParamExt_cases (p : AddrParams) (d : Data) :
    p.parseAddrParamExt d = p ∨
      (∃ name value, d = name ++ '=' :: value ∧ p.parseAddrParamExt d = { p with tag := removeSpaces value }) ∨
      ('=' ∉ d ∧ p.parseAddrParamExt d = p.setToken d []) ∨
      ∃ name value, '=' ∉ name ∧ d = name ++ '=' :: value ∧ isEqualNoCase (removeSpaces name) "tag".toList = false ∧
        p.parseAddrParamExt d = p.setToken (removeSpaces name) (removeSpaces value) := by
  rw [parseAddrParamExt]
  rcases match_cases d '=' with ⟨hd, h⟩ | ⟨rest, -, h⟩ | ⟨name, value, -, hname, hd, h⟩
  · rw [h]
    exact Or.inr (Or.inr (Or.inl ⟨hd, rfl⟩))
  · rw [h]
    exact Or.inl rfl
  · rw [h]
    simp only [parseTag]
    split
    · exact Or.inr (Or.inl ⟨name, value, hd, rfl⟩)
    · rename_i htag
      rw [removeSpaces_eq_self (trimmedOfSpaces_removeSpaces name)]
      exact Or.inr (Or.inr (Or.inr ⟨name, value, hname, hd, Bool.eq_false_iff.mpr htag, rfl⟩))

/-- A token that can be in the map. -/
structure TokenOk (t : Data × Data) : Prop where
  name_equal : '=' ∉ t.1
  name_semi : ';' ∉ t.1
  value_semi : ';' ∉ t.2
  value_trimmed : TrimmedOfSpaces t.2
  name_trimmed : t.2 ≠ [] → TrimmedOfSpaces t.1
  name_tag : t.2 ≠ [] → isEqualNoCase t.1 "tag".toList = false

/-- What holds of all parameters that were read. -/
structure Read (p : AddrParams) : Prop where
  tag_trimmed : TrimmedOfSpaces p.tag
  tag_semi : ';' ∉ p.tag
  sorted : Sorted p.tokenMap
  token : ∀ t ∈ p.tokenMap, TokenOk t

theorem read_empty : Read {} := ⟨trimmedOfSpaces_nil, List.not_mem_nil, sorted_nil, List.forall_mem_nil _⟩

theorem Read.setToken (hp : p.Read) (ht : TokenOk t) : (p.setToken t.1 t.2).Read := by
  refine ⟨hp.tag_trimmed, hp.tag_semi, hp.sorted.insert, fun s hs => ?_⟩
  rcases mem_of_mem_insert hs with rfl | hs
  · exact ht
  · exact hp.token s hs

theorem Read.parseAddrParamExt (hp : p.Read) (hd : ';' ∉ d) : (p.parseAddrParamExt d).Read := by
  rcases parseAddrParamExt_cases p d with h | ⟨name, value, rfl, h⟩ | ⟨hequal, h⟩ | ⟨name, value, hname, rfl, htag, h⟩
  · rwa [h]
  · rw [h]
    refine ⟨trimmedOfSpaces_removeSpaces _, fun hc => hd ?_, hp.sorted, hp.token⟩
    exact List.mem_append_right _ (List.mem_cons_of_mem _ (mem_of_mem_removeSpaces hc))
  · rw [h]
    exact hp.setToken (t := (d, [])) ⟨hequal, hd, List.not_mem_nil, trimmedOfSpaces_nil, fun hne => absurd rfl hne,
      fun hne => absurd rfl hne⟩
  · rw [h]
    refine hp.setToken (t := (removeSpaces name, removeSpaces value))
      ⟨fun hc => hname (mem_of_mem_removeSpaces hc), fun hc => hd ?_, fun hc => hd ?_,
        trimmedOfSpaces_removeSpaces _, fun _ => trimmedOfSpaces_removeSpaces _, fun _ => htag⟩
    · exact List.mem_append_left _ (mem_of_mem_removeSpaces hc)
    · exact List.mem_append_right _ (List.mem_cons_of_mem _ (mem_of_mem_removeSpaces hc))

theorem Read.parseAddrParam (fuel : Nat) (hp : p.Read) : (parseAddrParam fuel p d).Read := by
  induction fuel generalizing p d with
  | zero => exact hp
  | succ fuel ih =>
    rw [AddrParams.parseAddrParam]
    rcases match_cases d ';' with ⟨hd, h⟩ | ⟨rest, -, h⟩ | ⟨parm, rest, -, hparm, -, h⟩
    · rw [h]
      exact hp.parseAddrParamExt hd
    · rw [h]
      exact ih hp
    · rw [h]
      exact ih (hp.parseAddrParamExt hparm)

/-! ### The loop -/

/-- The pieces that are read. -/
def readPieces : List Data → List Data
  | [] => []
  | [d] => [d]
  | d :: e :: ds => if d = [] then readPieces (e :: ds) else d :: readPieces (e :: ds)

/-- Pieces with semicolons between them. -/
def join : List Data → Data
  | [] => []
  | [d] => d
  | d :: e :: ds => d ++ ';' :: join (e :: ds)

theorem parseAddrParam_join {ds : List Data} (hne : ds ≠ []) (hsemi : ∀ d ∈ ds, ';' ∉ d) {fuel : Nat}
    (hfuel : (join ds).length < fuel) :
    parseAddrParam fuel p (join ds) = (readPieces ds).foldl parseAddrParamExt p := by
  induction ds generalizing p fuel with
  | nil => exact absurd rfl hne
  | cons d ds ih =>
    obtain ⟨fuel, rfl⟩ := Nat.exists_eq_add_one_of_ne_zero (Nat.ne_of_gt (Nat.zero_lt_of_lt hfuel))
    have hd := hsemi d (List.mem_cons_self ..)
    cases ds with
    | nil =>
      rw [parseAddrParam, join, match_not_found hd]
      rfl
    | cons e ds =>
      have hrest : ∀ q, parseAddrParam fuel q (join (e :: ds)) = (readPieces (e :: ds)).foldl parseAddrParamExt q := by
        intro q
        apply ih (by simp) fun x hx => hsemi x (List.mem_cons_of_mem _ hx)
        rw [join, List.length_append, List.length_cons] at hfuel
        omega
      rw [parseAddrParam, join, readPieces]
      by_cases hempty : d = []
      · rw [if_pos hempty, hempty, List.nil_append, match_first]
        exact hrest p
      · rw [if_neg hempty, match_found hd hempty]
        exact hrest _

theorem addrParams_join {ds : List Data} (hne : ds ≠ []) (hsemi : ∀ d ∈ ds, ';' ∉ d) :
    addrParams (join ds) = (readPieces ds).foldl parseAddrParamExt {} :=
  parseAddrParam_join hne hsemi (Nat.lt_succ_self _)

theorem flatMap_eq_join {ds : List Data} (hne : ds ≠ []) : ds.flatMap (';' :: ·) = ';' :: join ds := by
  induction ds with
  | nil => exact absurd rfl hne
  | cons d ds ih =>
    cases ds with
    | nil => simp [join]
    | cons e ds => rw [List.flatMap_cons, ih (by simp), join, List.cons_append]

/-! ### Spaces at the end -/

/-- The text without the spaces at its end. -/
abbrev dropSpaces (d : Data) : Data := d.rdropWhile (· = ' ')

theorem mem_of_mem_dropSpaces {c : Char} (hc : c ∈ dropSpaces d) : c ∈ d := by
  exact (List.rdropWhile_prefix _ d).subset hc

theorem getLast?_dropSpaces (d : Data) : (dropSpaces d).getLast? ≠ some ' ' := by
  intro hspace
  exact absurd (Cut.getLast?_rdropWhile d ' ' hspace) (by decide)

/-- The pieces without the spaces at the end of the last. -/
def trimLast : List Data → List Data
  | [] => []
  | [d] => [dropSpaces d]
  | d :: e :: ds => d :: trimLast (e :: ds)

theorem dropSpaces_append (d e : Data) {c : Char} (hc : c ≠ ' ') :
    dropSpaces (d ++ c :: e) = d ++ c :: dropSpaces e := by
  induction e using List.reverseRecOn with
  | nil =>
    rw [dropSpaces, List.rdropWhile_concat_neg _ _ _ (by simpa using hc)]
    rfl
  | append_singleton e b ih =>
    rw [← List.cons_append, ← List.append_assoc]
    by_cases hb : b = ' '
    · rw [dropSpaces, List.rdropWhile_concat_pos _ _ _ (by simpa using hb), dropSpaces,
        List.rdropWhile_concat_pos _ _ _ (by simpa using hb)]
      exact ih
    · rw [dropSpaces, List.rdropWhile_concat_neg _ _ _ (by simpa using hb), dropSpaces,
        List.rdropWhile_concat_neg _ _ _ (by simpa using hb), List.append_assoc, List.cons_append]

theorem dropSpaces_join (ds : List Data) : dropSpaces (join ds) = join (trimLast ds) := by
  induction ds with
  | nil => rfl
  | cons d ds ih =>
    cases ds with
    | nil => rfl
    | cons e ds =>
      rw [join, dropSpaces_append _ _ (by decide), ih, trimLast]
      cases ds <;> rfl

theorem removeSpaces_semi (d : Data) : removeSpaces (';' :: d) = ';' :: dropSpaces d := by
  rw [removeSpaces, Cut.trim, Cut.dropWhile_eq_self_of_head (by simp)]
  exact dropSpaces_append [] d (by decide)

theorem trimLast_append (ds : List Data) {es : List Data} (hne : es ≠ []) :
    trimLast (ds ++ es) = ds ++ trimLast es := by
  induction ds with
  | nil => rfl
  | cons d ds ih =>
    obtain ⟨e, rest, heq⟩ := List.exists_cons_of_ne_nil (l := ds ++ es) (by simp [hne])
    rw [List.cons_append, heq, trimLast, ← heq, ih, List.cons_append]

theorem readPieces_append {ds es : List Data} (hds : ∀ d ∈ ds, d ≠ []) (hne : es ≠ []) :
    readPieces (ds ++ es) = ds ++ readPieces es := by
  induction ds with
  | nil => rfl
  | cons d ds ih =>
    obtain ⟨e, rest, heq⟩ := List.exists_cons_of_ne_nil (l := ds ++ es) (by simp [hne])
    rw [List.cons_append, heq, readPieces, if_neg (hds d (List.mem_cons_self ..)), ← heq,
      ih fun x hx => hds x (List.mem_cons_of_mem _ hx), List.cons_append]

theorem length_trimLast (ds : List Data) : (trimLast ds).length = ds.length := by
  induction ds with
  | nil => rfl
  | cons d ds ih =>
    cases ds with
    | nil => rfl
    | cons e ds =>
      rw [trimLast, List.length_cons, ih]
      rfl

theorem trimLast_ne_nil {ds : List Data} (hne : ds ≠ []) : trimLast ds ≠ [] := by
  intro hnil
  have hlen := length_trimLast ds
  rw [hnil] at hlen
  exact hne (List.length_eq_zero_iff.mp hlen.symm)

theorem length_readPieces_le (ds : List Data) : (readPieces ds).length ≤ ds.length := by
  induction ds with
  | nil => exact Nat.le_refl _
  | cons d ds ih =>
    cases ds with
    | nil => exact Nat.le_refl _
    | cons e ds =>
      rw [readPieces]
      split
      · exact Nat.le_succ_of_le ih
      · exact Nat.succ_le_succ ih

/-! ### Pieces of tokens -/

/-- The tokens are those that come back: an empty one stands alone and without a value, and the last one does
not end in a space. -/
structure Kept (p : AddrParams) : Prop where
  empty : ∀ v, ([], v) ∈ p.tokenMap → p.tokenMap = [([], [])]
  last : ∀ k, p.tokenMap.getLast? = some (k, []) → k.getLast? ≠ some ' '

/-- The tag as a piece. -/
def tagPieces (p : AddrParams) : List Data := if p.tag ≠ [] then ["tag=".toList ++ p.tag] else []

theorem parseAddrParamExt_tag {tag : Data} (htrimmed : TrimmedOfSpaces tag) :
    p.parseAddrParamExt ("tag=".toList ++ tag) = { p with tag := tag } := by
  have htext : "tag=".toList ++ tag = "tag".toList ++ '=' :: tag := rfl
  rw [parseAddrParamExt, htext, match_found (by decide) (by decide)]
  simp only [parseTag]
  rw [if_pos (by decide), removeSpaces_eq_self htrimmed]

theorem parseAddrParamExt_token (ht : TokenOk t) (hne : t.1 ≠ [] ∨ t.2 = []) :
    p.parseAddrParamExt (tokenText t) = p.setToken t.1 t.2 := by
  rw [parseAddrParamExt, tokenText]
  by_cases hvalue : t.2 = []
  · rw [hvalue, if_neg (by simp), List.append_nil, match_not_found ht.name_equal]
  · rw [if_pos hvalue, match_found ht.name_equal (hne.resolve_right hvalue)]
    have hname := removeSpaces_eq_self (ht.name_trimmed hvalue)
    simp only [parseTag]
    rw [hname, if_neg (Bool.eq_false_iff.mp (ht.name_tag hvalue)), hname, removeSpaces_eq_self ht.value_trimmed]

theorem parseAddrParamExt_no_name {v : Data} (hv : v ≠ []) : p.parseAddrParamExt (tokenText ([], v)) = p := by
  rw [parseAddrParamExt, tokenText, if_pos hv, List.nil_append, match_first]

theorem semi_not_mem_tokenText (ht : TokenOk t) : ';' ∉ tokenText t := by
  rw [tokenText, List.mem_append, not_or]
  refine ⟨ht.name_semi, ?_⟩
  split
  · rw [List.mem_cons, not_or]
    exact ⟨by decide, ht.value_semi⟩
  · exact List.not_mem_nil

theorem foldl_tokenText {m : TokenMap} (hm : ∀ t ∈ m, TokenOk t ∧ (t.1 ≠ [] ∨ t.2 = [])) (p : AddrParams) :
    (m.map tokenText).foldl parseAddrParamExt p =
      { p with tokenMap := m.foldl (fun acc t => insert t.1 t.2 acc) p.tokenMap } := by
  induction m generalizing p with
  | nil => rfl
  | cons t m ih =>
    obtain ⟨ht, hne⟩ := hm t (List.mem_cons_self ..)
    rw [List.map_cons, List.foldl_cons, parseAddrParamExt_token ht hne,
      ih fun s hs => hm s (List.mem_cons_of_mem _ hs)]
    rfl

/-- Nothing is lost of pieces that are not empty before the last, which has no space at its end. -/
theorem readPieces_trimLast {ds : List Data} (hfront : ∀ d ∈ ds.dropLast, d ≠ [])
    (hlast : ∀ d ∈ ds.getLast?, d.getLast? ≠ some ' ') : readPieces (trimLast ds) = ds := by
  rcases List.eq_nil_or_concat' ds with rfl | ⟨ds, d, rfl⟩
  · rfl
  · rw [List.dropLast_concat] at hfront
    have hd : dropSpaces d = d := by
      apply Cut.rdropWhile_eq_self_of_getLast
      intro c hc
      have hne := hlast d (by simp)
      rw [Option.mem_def.mp hc] at hne
      simpa using hne
    rw [trimLast_append ds (by simp), readPieces_append hfront (by simp [trimLast]), trimLast, hd]
    rfl

/-! ### The parameters come back -/

/-- The pieces that are written. -/
def written (p : AddrParams) : List Data := p.tagPieces ++ p.tokenMap.map tokenText

/-- What is read from them. -/
def reread (p : AddrParams) : AddrParams := (readPieces (trimLast p.written)).foldl parseAddrParamExt {}

theorem tagPieces_ne_nil : ∀ d ∈ p.tagPieces, d ≠ [] := by
  intro d hd
  rw [tagPieces] at hd
  split at hd
  · rw [List.mem_singleton.mp hd]
    simp
  · exact absurd hd List.not_mem_nil

theorem foldl_tagPieces (hp : p.Read) : p.tagPieces.foldl parseAddrParamExt {} = { tag := p.tag } := by
  rw [tagPieces]
  split
  · rw [List.foldl_cons, List.foldl_nil, parseAddrParamExt_tag hp.tag_trimmed]
  · rename_i hnil
    rw [not_not.mp hnil]
    rfl

theorem tokenText_eq_nil : tokenText t = [] ↔ t = ([], []) := by
  obtain ⟨k, v⟩ := t
  rw [tokenText, List.append_eq_nil_iff, Prod.mk.injEq]
  refine and_congr_right fun _ => ?_
  split
  · rename_i hne
    exact iff_of_false (by simp) hne
  · rename_i hnil
    exact iff_of_true rfl (not_not.mp hnil)

theorem getLast?_of_trimmed {d e : Data} (hd : TrimmedOfSpaces d) (hne : d ≠ []) :
    (e ++ d).getLast? ≠ some ' ' := by
  rw [List.getLast?_append_of_ne_nil _ hne]
  exact (trimmedOfSpaces_iff.mp hd).2

theorem getLast?_tokenText (ht : TokenOk t) (hlast : t.2 = [] → t.1.getLast? ≠ some ' ') :
    (tokenText t).getLast? ≠ some ' ' := by
  rw [tokenText]
  split
  · rename_i hne
    rw [← List.singleton_append, ← List.append_assoc]
    exact getLast?_of_trimmed ht.value_trimmed hne
  · rename_i hnil
    rw [List.append_nil]
    exact hlast (not_not.mp hnil)

theorem getLast?_written (hp : p.Read) (hk : p.Kept) : ∀ d ∈ p.written.getLast?, d.getLast? ≠ some ' ' := by
  intro d hd
  rw [written] at hd
  cases htokens : p.tokenMap using List.reverseRecOn with
  | nil =>
    rw [htokens, List.map_nil, List.append_nil, tagPieces] at hd
    split at hd
    · rename_i hne
      rw [← Option.mem_some_iff.mp hd]
      exact getLast?_of_trimmed hp.tag_trimmed hne
    · exact absurd hd (by simp)
  | append_singleton m t =>
    rw [htokens, List.map_append, ← List.append_assoc] at hd
    have hdt : d = tokenText t := by simpa using hd.symm
    rw [hdt]
    apply getLast?_tokenText (hp.token t (by simp [htokens]))
    intro hvalue
    exact hk.last t.1 (by rw [htokens, List.getLast?_concat, ← hvalue])

theorem dropLast_written (hk : p.Kept) : ∀ d ∈ p.written.dropLast, d ≠ [] := by
  intro d hd
  by_cases hempty : (([], []) : Data × Data) ∈ p.tokenMap
  · rw [written, hk.empty [] hempty, List.map_singleton, List.dropLast_concat] at hd
    exact tagPieces_ne_nil d hd
  · rcases List.mem_append.mp ((List.dropLast_sublist p.written).subset hd) with hd | hd
    · exact tagPieces_ne_nil d hd
    · obtain ⟨t, ht, rfl⟩ := List.mem_map.mp hd
      intro hnil
      exact hempty (tokenText_eq_nil.mp hnil ▸ ht)

theorem reread_of_kept (hp : p.Read) (hk : p.Kept) : p.reread = p := by
  have htokens : ∀ t ∈ p.tokenMap, TokenOk t ∧ (t.1 ≠ [] ∨ t.2 = []) := by
    intro t ht
    refine ⟨hp.token t ht, ?_⟩
    by_cases hname : t.1 = []
    · right
      have hmem : ([], t.2) ∈ p.tokenMap := by rwa [← hname]
      rw [hk.empty t.2 hmem] at hmem
      exact (Prod.mk.inj (List.mem_singleton.mp hmem)).2
    · exact Or.inl hname
  rw [reread, readPieces_trimLast (dropLast_written hk) (getLast?_written hp hk), written, List.foldl_append,
    foldl_tagPieces hp, foldl_tokenText htokens, foldl_insert hp.sorted]

/-! ### Only these come back -/

theorem length_parseAddrParamExt_le (p : AddrParams) (d : Data) :
    (p.parseAddrParamExt d).tokenMap.length ≤ p.tokenMap.length + 1 := by
  rcases parseAddrParamExt_cases p d with h | ⟨name, value, -, h⟩ | ⟨-, h⟩ | ⟨name, value, -, -, -, h⟩
  · rw [h]
    exact Nat.le_succ _
  · rw [h]
    exact Nat.le_succ _
  · rw [h]
    exact length_insert_le
  · rw [h]
    exact length_insert_le

theorem length_foldl_le (ds : List Data) (p : AddrParams) :
    (ds.foldl parseAddrParamExt p).tokenMap.length ≤ p.tokenMap.length + ds.length := by
  induction ds generalizing p with
  | nil => exact Nat.le_refl _
  | cons d ds ih =>
    have hstep := length_parseAddrParamExt_le p d
    have hrest := ih (p.parseAddrParamExt d)
    rw [List.foldl_cons, List.length_cons]
    omega

theorem reread_tokens (hp : p.Read) (hne : p.tokenMap ≠ []) :
    p.reread = (readPieces (trimLast (p.tokenMap.map tokenText))).foldl parseAddrParamExt { tag := p.tag } := by
  have hmap : p.tokenMap.map tokenText ≠ [] := by simpa using hne
  rw [reread, written, trimLast_append _ hmap, readPieces_append tagPieces_ne_nil (trimLast_ne_nil hmap),
    List.foldl_append, foldl_tagPieces hp]

/-- An empty name is lost, unless it is the only one and has no value. -/
theorem length_reread_lt (hp : p.Read) {v : Data} (hmem : ([], v) ∈ p.tokenMap) (hne : p.tokenMap ≠ [([], [])]) :
    p.reread.tokenMap.length < p.tokenMap.length := by
  -- The empty name is the smallest, so that it is written first.
  obtain ⟨rest, hrest⟩ : ∃ rest, p.tokenMap = ([], v) :: rest := by
    cases hmap : p.tokenMap with
    | nil =>
      rw [hmap] at hmem
      exact absurd hmem List.not_mem_nil
    | cons t rest =>
      rw [hmap] at hmem
      rcases List.mem_cons.mp hmem with rfl | hmem
      · exact ⟨rest, rfl⟩
      · have hsorted := hp.sorted
        rw [hmap] at hsorted
        exact absurd ((List.pairwise_cons.mp hsorted).1 _ hmem) (List.not_lt_nil _)
  have hcount : ∀ ds : List Data, (readPieces (trimLast ds)).length ≤ ds.length := by
    intro ds
    exact (length_readPieces_le _).trans (length_trimLast ds).le
  rw [reread_tokens hp (by simp [hrest]), hrest, List.map_cons, List.length_cons]
  cases rest with
  | nil =>
    have hv : v ≠ [] := by
      rintro rfl
      exact hne hrest
    have hlast : dropSpaces (tokenText ([], v)) = tokenText ([], v) := by
      apply Cut.rdropWhile_eq_self_of_getLast
      intro c hc
      have htrim := getLast?_tokenText (hp.token _ hmem) fun hnil => absurd hnil hv
      rw [Option.mem_def.mp hc] at htrim
      simpa using htrim
    rw [List.map_nil, trimLast, hlast, readPieces, List.foldl_cons, List.foldl_nil, parseAddrParamExt_no_name hv]
    exact Nat.zero_lt_succ _
  | cons t rest =>
    have htail := hcount ((t :: rest).map tokenText)
    rw [List.length_map] at htail
    obtain ⟨e, es, hes⟩ := List.exists_cons_of_ne_nil (@trimLast_ne_nil ((t :: rest).map tokenText) (by simp))
    rw [List.map_cons, trimLast, ← List.map_cons, hes, readPieces, ← hes]
    by_cases hv : v = []
    · rw [if_pos (tokenText_eq_nil.mpr (by rw [hv]))]
      have hlen := length_foldl_le (readPieces (trimLast ((t :: rest).map tokenText))) { tag := p.tag }
      exact Nat.lt_succ_of_le (hlen.trans (by simpa using htail))
    · rw [if_neg fun h => hv (Prod.mk.inj (tokenText_eq_nil.mp h)).2, List.foldl_cons,
        parseAddrParamExt_no_name hv]
      have hlen := length_foldl_le (readPieces (trimLast ((t :: rest).map tokenText))) { tag := p.tag }
      exact Nat.lt_succ_of_le (hlen.trans (by simpa using htail))

/-- The token that a piece can set. -/
def keyOf (d : Data) : Option Data :=
  match Data.match d ['='] with
  | .NOT_FOUND => some d
  | .FIRST _ => none
  | .FOUND name _ => some (removeSpaces name)

theorem mem_parseAddrParamExt (ht : t ∈ (p.parseAddrParamExt d).tokenMap) :
    t ∈ p.tokenMap ∨ keyOf d = some t.1 := by
  rw [parseAddrParamExt] at ht
  rw [keyOf]
  rcases match_cases d '=' with ⟨-, h⟩ | ⟨rest, -, h⟩ | ⟨name, value, -, -, -, h⟩
  · rw [h] at ht ⊢
    rcases mem_of_mem_insert ht with rfl | ht
    · exact Or.inr rfl
    · exact Or.inl ht
  · rw [h] at ht
    exact Or.inl ht
  · rw [h] at ht ⊢
    simp only [parseTag] at ht
    split at ht
    · exact Or.inl ht
    · rcases mem_of_mem_insert ht with rfl | ht
      · rw [removeSpaces_eq_self (trimmedOfSpaces_removeSpaces name)]
        exact Or.inr rfl
      · exact Or.inl ht

theorem mem_foldl {ds : List Data} (ht : t ∈ (ds.foldl parseAddrParamExt p).tokenMap) :
    t ∈ p.tokenMap ∨ ∃ d ∈ ds, keyOf d = some t.1 := by
  induction ds generalizing p with
  | nil => exact Or.inl ht
  | cons d ds ih =>
    rcases ih ht with ht | ⟨e, he, hkey⟩
    · exact (mem_parseAddrParamExt ht).imp_right fun hkey => ⟨d, List.mem_cons_self .., hkey⟩
    · exact Or.inr ⟨e, List.mem_cons_of_mem _ he, hkey⟩

theorem keyOf_tokenText (ht : TokenOk t) {k : Data} (hkey : keyOf (tokenText t) = some k) : k = t.1 := by
  rw [keyOf, tokenText] at hkey
  by_cases hvalue : t.2 = []
  · rw [if_neg (not_not.mpr hvalue), List.append_nil, match_not_found ht.name_equal] at hkey
    exact (Option.some.inj hkey).symm
  · rw [if_pos hvalue] at hkey
    by_cases hname : t.1 = []
    · rw [hname, List.nil_append, match_first] at hkey
      exact absurd hkey (by simp)
    · rw [match_found ht.name_equal hname] at hkey
      rw [← Option.some.inj hkey, removeSpaces_eq_self (ht.name_trimmed hvalue)]

theorem readPieces_subset {ds : List Data} (hd : d ∈ readPieces ds) : d ∈ ds := by
  induction ds with
  | nil => exact hd
  | cons e ds ih =>
    cases ds with
    | nil => exact hd
    | cons e' ds =>
      rw [readPieces] at hd
      split at hd
      · exact List.mem_cons_of_mem _ (ih hd)
      · rcases List.mem_cons.mp hd with rfl | hd
        · exact List.mem_cons_self ..
        · exact List.mem_cons_of_mem _ (ih hd)

theorem not_mem_reread (hp : p.Read) {k : Data} (hlast : p.tokenMap.getLast? = some (k, []))
    (hspace : k.getLast? = some ' ') : (k, []) ∉ p.reread.tokenMap := by
  intro hmem
  obtain ⟨m, hm⟩ := List.getLast?_eq_some_iff.mp hlast
  rw [reread_tokens hp (by simp [hm]), hm, List.map_append, trimLast_append _ (by simp)] at hmem
  rcases mem_foldl hmem with hmem | ⟨d, hd, hkey⟩
  · exact absurd hmem List.not_mem_nil
  · have hsorted := hp.sorted
    rw [hm] at hsorted
    have hlt := (List.pairwise_append.mp hsorted).2.2
    rcases List.mem_append.mp (readPieces_subset hd) with hd | hd
    · obtain ⟨t, ht, rfl⟩ := List.mem_map.mp hd
      have hk := keyOf_tokenText (hp.token t (by simp [hm, ht])) hkey
      exact (hlt t ht (k, []) (List.mem_singleton_self _)).ne hk.symm
    · have hk : '=' ∉ k := (hp.token (k, []) (by simp [hm])).name_equal
      have hd' : d = dropSpaces k := by simpa [trimLast, tokenText] using hd
      have hequal : '=' ∉ dropSpaces k := fun hc => hk (mem_of_mem_dropSpaces hc)
      rw [hd', keyOf, match_not_found hequal] at hkey
      have hself : dropSpaces k = k := Option.some.inj hkey
      have hend := getLast?_dropSpaces k
      rw [hself] at hend
      exact hend hspace

/-- The parameters that were read come back exactly when they are kept. -/
theorem reread_eq_iff (hp : p.Read) : p.reread = p ↔ p.Kept := by
  constructor
  · intro heq
    refine ⟨fun v hmem => ?_, fun k hlast hspace => ?_⟩
    · by_contra hne
      have hlt := length_reread_lt hp hmem hne
      rw [heq] at hlt
      exact lt_irrefl _ hlt
    · have hnot := not_mem_reread hp hlast hspace
      rw [heq] at hnot
      exact hnot (List.mem_of_getLast? hlast)
  · exact reread_of_kept hp

theorem match_written (hp : p.Read) (hne : p.written ≠ []) :
    ∃ te, Data.match (removeSpaces (p.written.flatMap (';' :: ·))) [';'] = .FIRST te ∧ addrParams te = p.reread := by
  have hsemi : ∀ d ∈ p.written, ';' ∉ d := by
    intro d hd
    rcases List.mem_append.mp hd with hd | hd
    · rw [tagPieces] at hd
      split at hd
      · rw [List.mem_singleton.mp hd, List.mem_append, not_or]
        exact ⟨by decide, hp.tag_semi⟩
      · exact absurd hd List.not_mem_nil
    · obtain ⟨t, ht, rfl⟩ := List.mem_map.mp hd
      exact semi_not_mem_tokenText (hp.token t ht)
  have htrim : ∀ ds : List Data, (∀ d ∈ ds, ';' ∉ d) → ∀ d ∈ trimLast ds, ';' ∉ d := by
    intro ds hds
    induction ds with
    | nil => exact hds
    | cons e ds ih =>
      cases ds with
      | nil =>
        intro d hd
        rw [List.mem_singleton.mp hd]
        exact fun hc => hds e (List.mem_cons_self ..) (mem_of_mem_dropSpaces hc)
      | cons e' ds =>
        intro d hd
        rcases List.mem_cons.mp hd with rfl | hd
        · exact hds d (List.mem_cons_self ..)
        · exact ih (fun x hx => hds x (List.mem_cons_of_mem _ hx)) d hd
  refine ⟨join (trimLast p.written), ?_, ?_⟩
  · rw [flatMap_eq_join hne, removeSpaces_semi, dropSpaces_join, match_first]
  · exact addrParams_join (trimLast_ne_nil hne) (htrim _ hsemi)

end AddrParams

end Vocal.Sip.Url.SipFrom
