import Vocal.Sip.Url.Params

/-!
# Telephone numbers

What `SipTelSubscriberUser` reads (`decoded_decode`), and what it reads from a number with parameters
as they are written (`decode_sections`). A number is read back from its own text when its parameters
have the names they were read with (`decode_own_text`).
-/

namespace Vocal.Sip.Url.SipTelSubscriberUser

open Cut Data

variable {t : SipTelSubscriberUser} {data : Data}

/-- The names of the parameters with a field of their own. -/
def telKeys : List Data := ["isub".toList, "postd".toList, "phone-context".toList, "tsp".toList]

/-- The field of a parameter. -/
def getParam (t : SipTelSubscriberUser) (key : Data) : Data :=
  if key = "isub".toList then t.isdnSubAddress
  else if key = "postd".toList then t.postDial
  else if key = "phone-context".toList then t.phoneContext
  else t.serviceProvider

/-- No text of the number has the character. -/
structure Avoids (c : Char) (t : SipTelSubscriberUser) : Prop where
  base : c ∉ t.basePhoneNumber
  params : ∀ key ∈ telKeys, c ∉ t.getParam key
  name : c ∉ t.futureExtensionName
  value : c ∉ t.futureExtensionValue

/-- What holds of every number that was read. -/
structure Decoded (t : SipTelSubscriberUser) : Prop where
  base : ';' ∉ t.basePhoneNumber
  params : ∀ key ∈ telKeys, ';' ∉ t.getParam key
  name : '=' ∉ t.futureExtensionName
  name_key : t.futureExtensionName ∉ telKeys
  value : ';' ∉ t.futureExtensionValue
  plus : t.isGlobalPhoneNumber = false → t.Avoids '+'
  base_plus : t.isGlobalPhoneNumber = true → t.basePhoneNumber.head? ≠ some '+'

/-! ### One parameter -/

theorem setParam_future {key value : Data} (hkey : key ∉ telKeys) :
    t.setParam key value = { t with futureExtensionName := key, futureExtensionValue := value } := by
  simp only [telKeys, List.mem_cons, List.not_mem_nil, or_false, not_or] at hkey
  rw [setParam, if_neg hkey.1, if_neg hkey.2.1, if_neg hkey.2.2.1, if_neg hkey.2.2.2]

theorem getParam_setParam {key key' value : Data} (hkey' : key' ∈ telKeys) :
    (t.setParam key value).getParam key' = if key = key' then value else t.getParam key' := by
  by_cases hkey : key ∈ telKeys
  · simp only [telKeys, List.mem_cons, List.not_mem_nil, or_false] at hkey hkey'
    rcases hkey with rfl | rfl | rfl | rfl <;> rcases hkey' with rfl | rfl | rfl | rfl <;> rfl
  · have hne : key ≠ key' := fun h => hkey (h ▸ hkey')
    rw [setParam_future hkey, if_neg hne]
    rfl

theorem setParam_known {key value : Data} (hkey : key ∈ telKeys) :
    (t.setParam key value).isGlobalPhoneNumber = t.isGlobalPhoneNumber ∧
      (t.setParam key value).basePhoneNumber = t.basePhoneNumber ∧
      (t.setParam key value).futureExtensionName = t.futureExtensionName ∧
      (t.setParam key value).futureExtensionValue = t.futureExtensionValue := by
  simp only [telKeys, List.mem_cons, List.not_mem_nil, or_false] at hkey
  rcases hkey with rfl | rfl | rfl | rfl <;> exact ⟨rfl, rfl, rfl, rfl⟩

theorem setParam_number (key value : Data) :
    (t.setParam key value).isGlobalPhoneNumber = t.isGlobalPhoneNumber ∧
      (t.setParam key value).basePhoneNumber = t.basePhoneNumber := by
  by_cases hkey : key ∈ telKeys
  · exact ⟨(setParam_known hkey).1, (setParam_known hkey).2.1⟩
  · rw [setParam_future hkey]
    exact ⟨rfl, rfl⟩

theorem setParam_extension (key value : Data) :
    ((t.setParam key value).futureExtensionName = t.futureExtensionName ∧
      (t.setParam key value).futureExtensionValue = t.futureExtensionValue) ∨
    (key ∉ telKeys ∧ (t.setParam key value).futureExtensionName = key ∧
      (t.setParam key value).futureExtensionValue = value) := by
  by_cases hkey : key ∈ telKeys
  · exact Or.inl (setParam_known hkey).2.2
  · rw [setParam_future hkey]
    exact Or.inr ⟨hkey, rfl, rfl⟩

theorem Avoids.setParam {c : Char} {key value : Data} (ht : t.Avoids c) (hkey : c ∉ key) (hvalue : c ∉ value) :
    (t.setParam key value).Avoids c := by
  have hextension := setParam_extension (t := t) key value
  refine ⟨?_, ?_, ?_, ?_⟩
  · rw [(setParam_number key value).2]
    exact ht.base
  · intro key' hkey'
    rw [getParam_setParam hkey']
    split
    · exact hvalue
    · exact ht.params key' hkey'
  · rcases hextension with ⟨hname, -⟩ | ⟨-, hname, -⟩ <;> rw [hname]
    · exact ht.name
    · exact hkey
  · rcases hextension with ⟨-, hval⟩ | ⟨-, -, hval⟩ <;> rw [hval]
    · exact ht.value
    · exact hvalue

theorem Decoded.setParam {key value : Data} (ht : t.Decoded) (hkey : '=' ∉ key) (hvalue : ';' ∉ value)
    (hplus : t.isGlobalPhoneNumber = false → '+' ∉ key ∧ '+' ∉ value) : (t.setParam key value).Decoded := by
  have hnumber := setParam_number (t := t) key value
  have hextension := setParam_extension (t := t) key value
  refine ⟨?_, ?_, ?_, ?_, ?_, ?_, ?_⟩
  · rw [hnumber.2]
    exact ht.base
  · intro key' hkey'
    rw [getParam_setParam hkey']
    split
    · exact hvalue
    · exact ht.params key' hkey'
  · rcases hextension with ⟨hname, -⟩ | ⟨-, hname, -⟩ <;> rw [hname]
    · exact ht.name
    · exact hkey
  · rcases hextension with ⟨hname, -⟩ | ⟨hnew, hname, -⟩ <;> rw [hname]
    · exact ht.name_key
    · exact hnew
  · rcases hextension with ⟨-, hval⟩ | ⟨-, -, hval⟩ <;> rw [hval]
    · exact ht.value
    · exact hvalue
  · intro hlocal
    rw [hnumber.1] at hlocal
    exact (ht.plus hlocal).setParam (hplus hlocal).1 (hplus hlocal).2
  · rw [hnumber.1, hnumber.2]
    exact ht.base_plus

/-! ### Reading -/

theorem dropPlus_cases (data : Data) :
    ('+' ∉ data ∧ dropPlus data = (false, data)) ∨
      ∃ x rest, '+' ∉ x ∧ data = x ++ '+' :: rest ∧ dropPlus data = (true, rest.dropWhile (isIn · ['+'])) := by
  rw [dropPlus]
  rcases parse_cases data '+' with ⟨hplus, hparse⟩ | ⟨x, rest, hx, heq, hparse⟩
  · rw [hparse]
    exact Or.inl ⟨hplus, rfl⟩
  · rw [hparse]
    exact Or.inr ⟨x, rest, hx, heq, rfl⟩

theorem mem_of_mem_dropPlus {c : Char} (hc : c ∈ (dropPlus data).2) : c ∈ data := by
  rcases dropPlus_cases data with ⟨-, heq⟩ | ⟨x, rest, -, rfl, heq⟩
  · rwa [heq] at hc
  · rw [heq] at hc
    exact List.mem_append_right _ (List.mem_cons_of_mem _ (mem_of_mem_dropWhile hc))

/-- A property that the number without parameters has and every parameter keeps. -/
theorem decode_invariant {P : SipTelSubscriberUser → Prop}
    (hstep : ∀ (t : SipTelSubscriberUser) (key value : Data), '=' ∉ key → ';' ∉ value →
      (∀ c ∈ key, c ∈ (dropPlus data).2) → (∀ c ∈ value, c ∈ (dropPlus data).2) → P t → P (t.setParam key value))
    (hbase : ∀ base rest, ';' ∉ base → (dropPlus data).2 = base ++ rest →
      P { isGlobalPhoneNumber := (dropPlus data).1, basePhoneNumber := base }) : P (decode data) := by
  rw [decode]
  rcases parse_cases (dropPlus data).2 ';' with ⟨hsemi, hparse⟩ | ⟨base, rest, hbase', heq, hparse⟩
  · rw [hparse]
    exact hbase _ [] hsemi (List.append_nil _).symm
  · rw [hparse]
    refine decodeParams_invariant hstep ?_ (hbase base _ hbase' heq)
    intro c hc
    rw [heq]
    exact List.mem_append_right _ (List.mem_cons_of_mem _ (mem_of_mem_dropWhile hc))

theorem getParam_new (g : Bool) (base key : Data) :
    getParam { isGlobalPhoneNumber := g, basePhoneNumber := base } key = [] := by
  rw [getParam]
  split
  · rfl
  split
  · rfl
  split <;> rfl

theorem avoids_new {c : Char} {base : Data} (g : Bool) (hbase : c ∉ base) :
    Avoids c { isGlobalPhoneNumber := g, basePhoneNumber := base } := by
  refine ⟨hbase, ?_, by simp, by simp⟩
  intro key _
  rw [getParam_new]
  exact List.not_mem_nil

theorem avoids_decode {c : Char} (hc : c ∉ data) : (decode data).Avoids c := by
  have hrest : c ∉ (dropPlus data).2 := fun h => hc (mem_of_mem_dropPlus h)
  refine decode_invariant ?_ ?_
  · intro t key value _ _ hkey hvalue ht
    exact ht.setParam (fun h => hrest (hkey c h)) (fun h => hrest (hvalue c h))
  · intro base rest _ heq
    apply avoids_new
    intro h
    apply hrest
    rw [heq]
    exact List.mem_append_left _ h

theorem isGlobalPhoneNumber_decode (data : Data) : (decode data).isGlobalPhoneNumber = (dropPlus data).1 := by
  refine decode_invariant (P := fun t => t.isGlobalPhoneNumber = (dropPlus data).1) ?_ ?_
  · intro t key value _ _ _ _ ht
    rw [(setParam_number key value).1]
    exact ht
  · intro base rest _ _
    rfl

theorem basePhoneNumber_decode (data : Data) :
    ';' ∉ (decode data).basePhoneNumber ∧ ∃ rest, (dropPlus data).2 = (decode data).basePhoneNumber ++ rest := by
  refine decode_invariant (P := fun t => ';' ∉ t.basePhoneNumber ∧
    ∃ rest, (dropPlus data).2 = t.basePhoneNumber ++ rest) ?_ ?_
  · intro t key value _ _ _ _ ht
    rw [(setParam_number key value).2]
    exact ht
  · intro base rest hbase heq
    exact ⟨hbase, rest, heq⟩

theorem decoded_decode (data : Data) : (decode data).Decoded := by
  have hlocal : (dropPlus data).1 = false → '+' ∉ (dropPlus data).2 := by
    rcases dropPlus_cases data with ⟨hplus, heq⟩ | ⟨x, rest, -, -, heq⟩
    · rw [heq]
      exact fun _ => hplus
    · rw [heq]
      exact fun h => absurd h (by simp)
  have hglobal : (dropPlus data).1 = true → (dropPlus data).2.head? ≠ some '+' := by
    rcases dropPlus_cases data with ⟨-, heq⟩ | ⟨x, rest, -, -, heq⟩
    · rw [heq]
      exact fun h => absurd h (by simp)
    · rw [heq]
      exact fun _ => head?_dropWhile_isIn
  refine (decode_invariant (P := fun t => t.isGlobalPhoneNumber = (dropPlus data).1 ∧ t.Decoded) ?_ ?_).2
  · intro t key value hkey hvalue hkeymem hvaluemem ⟨hnumber, ht⟩
    refine ⟨(setParam_number key value).1.trans hnumber, ht.setParam hkey hvalue ?_⟩
    intro h
    rw [hnumber] at h
    exact ⟨fun hc => hlocal h (hkeymem _ hc), fun hc => hlocal h (hvaluemem _ hc)⟩
  · intro base rest hbase heq
    refine ⟨rfl, hbase, ?_, by simp, (by decide : ([] : Data) ∉ telKeys), by simp, ?_, ?_⟩
    · intro key _
      rw [getParam_new]
      exact List.not_mem_nil
    · intro h
      apply avoids_new
      intro hc
      apply hlocal h
      rw [heq]
      exact List.mem_append_left _ hc
    · intro h hhead
      apply hglobal h
      rw [heq, List.head?_append, hhead]
      rfl

theorem head?_encode_decode {c : Char} (hc : c ≠ '+') (h : (decode data).encode.head? = some c) :
    data.head? = some c := by
  rw [encode, isGlobalPhoneNumber_decode] at h
  rcases dropPlus_cases data with ⟨-, heq⟩ | ⟨x, rest, -, -, heq⟩
  · rw [heq] at h
    obtain ⟨-, rest, hbase⟩ := basePhoneNumber_decode data
    rw [heq] at hbase
    simp only [Bool.false_eq_true, if_false, List.nil_append] at h
    rw [show data = _ from hbase, List.head?_append, h]
    rfl
  · rw [heq] at h
    simp only [if_true, List.cons_append, List.head?_cons, Option.some.injEq] at h
    exact absurd h.symm hc

/-! ### Written parameters -/

/-- The parameters that are written. -/
def knownItems (t : SipTelSubscriberUser) : List (Data × Data) :=
  telKeys.flatMap fun key => item key (t.getParam key)

/-- The future extension that is written. -/
def futureItem (t : SipTelSubscriberUser) : List (Data × Data) :=
  if t.futureExtensionName ≠ [] then item t.futureExtensionName t.futureExtensionValue else []

def telItems (t : SipTelSubscriberUser) : List (Data × Data) := t.knownItems ++ t.futureItem

theorem getTelParams_eq (t : SipTelSubscriberUser) : t.getTelParams = t.telItems.flatMap sect := by
  have hfuture : t.futureItem.flatMap sect =
      if t.futureExtensionName ≠ [] then param t.futureExtensionName t.futureExtensionValue else [] := by
    rw [futureItem]
    split
    · rw [flatMap_sect_item]
    · rfl
  rw [telItems, List.flatMap_append, hfuture, knownItems, telKeys]
  simp only [List.flatMap_cons, List.flatMap_nil, List.append_nil, List.flatMap_append, flatMap_sect_item,
    List.append_assoc]
  rw [getTelParams]
  simp only [List.append_assoc]
  rfl

/-- The first parameter loses the semicolons its name starts with. -/
def dropSemi : List (Data × Data) → List (Data × Data)
  | [] => []
  | (key, value) :: items => (key.dropWhile (isIn · [';']), value) :: items

theorem dropWhile_append_cons {p : Char → Bool} {a : Char} (ha : p a = false) (x y : Data) :
    (x ++ a :: y).dropWhile p = x.dropWhile p ++ a :: y := by
  induction x with
  | nil => rw [List.nil_append, List.dropWhile_cons_of_neg (by simp [ha]), List.dropWhile_nil, List.nil_append]
  | cons b x ih =>
    rw [List.cons_append, List.dropWhile_cons, List.dropWhile_cons]
    split
    · exact ih
    · rfl

theorem decode_sections {g : Bool} {base : Data} {items : List (Data × Data)} (hbase : ';' ∉ base)
    (hread : ∀ i ∈ items, Readable i)
    (hplus : g = false → '+' ∉ base ++ items.flatMap sect) (hhead : g = true → base.head? ≠ some '+') :
    decode ((if g then ['+'] else []) ++ base ++ items.flatMap sect) =
      (dropSemi items).foldl (fun t i => t.setParam i.1 i.2)
        { isGlobalPhoneNumber := g, basePhoneNumber := base } := by
  have hdrop : dropPlus ((if g then ['+'] else []) ++ base ++ items.flatMap sect) =
      (g, base ++ items.flatMap sect) := by
    rw [dropPlus]
    cases g with
    | false =>
      rw [if_neg (by simp), List.nil_append, parse_not_found (hplus rfl)]
    | true =>
      have hnext : (base ++ items.flatMap sect).head? ≠ some '+' := by
        rw [List.head?_append]
        cases base with
        | nil =>
          cases items with
          | nil => simp
          | cons i items => simp [sect]
        | cons a base => exact hhead rfl
      rw [if_pos rfl, List.append_assoc, List.singleton_append, ← List.nil_append ('+' :: _),
        parse_found_of_head (by simp) hnext]
  rw [decode, hdrop]
  simp only
  cases items with
  | nil =>
    rw [List.flatMap_nil, List.append_nil, parse_not_found hbase]
    rfl
  | cons i items =>
    obtain ⟨key, value⟩ := i
    have htext : base ++ ((key, value) :: items).flatMap sect =
        base ++ ';' :: (key ++ '=' :: (value ++ items.flatMap sect)) := by
      simp [sect]
    have hfirst : ∀ i ∈ (key.dropWhile (isIn · [';']), value) :: items, Readable i := by
      intro i hi
      rcases List.mem_cons.mp hi with rfl | hi
      · obtain ⟨hkey, hvalue⟩ := hread (key, value) (List.mem_cons_self ..)
        exact ⟨fun h => hkey (mem_of_mem_dropWhile h), hvalue⟩
      · exact hread i (List.mem_cons_of_mem _ hi)
    rw [htext, parse_found hbase, dropWhile_append_cons (by decide)]
    simp only
    rw [← List.cons_append, ← List.append_assoc, decodeParams_sections hfirst _ le_rfl]
    rfl

/-! ### Reading back -/

theorem foldl_item {key value : Data} (t : SipTelSubscriberUser) :
    (item key value).foldl (fun t i => t.setParam i.1 i.2) t = if value ≠ [] then t.setParam key value else t := by
  rw [item]
  split <;> rfl

theorem foldl_knownItems (t : SipTelSubscriberUser) :
    t.knownItems.foldl (fun t i => t.setParam i.1 i.2)
        { isGlobalPhoneNumber := t.isGlobalPhoneNumber, basePhoneNumber := t.basePhoneNumber } =
      { t with futureExtensionName := [], futureExtensionValue := [] } := by
  obtain ⟨g, base, isub, postd, context, tsp, name, value⟩ := t
  let set : SipTelSubscriberUser → Data × Data → SipTelSubscriberUser := fun t i => t.setParam i.1 i.2
  have hstep : ∀ (key v : Data) (u u' : SipTelSubscriberUser), u.setParam key v = u' → (v = [] → u = u') →
      (item key v).foldl set u = u' := by
    intro key v u u' hset hnil
    rw [foldl_item]
    split
    · exact hset
    · rename_i h
      exact hnil (by simpa using h)
  have h₁ := hstep "isub".toList isub ⟨g, base, [], [], [], [], [], []⟩ ⟨g, base, isub, [], [], [], [], []⟩
    rfl (by rintro rfl; rfl)
  have h₂ := hstep "postd".toList postd ⟨g, base, isub, [], [], [], [], []⟩
    ⟨g, base, isub, postd, [], [], [], []⟩ rfl (by rintro rfl; rfl)
  have h₃ := hstep "phone-context".toList context ⟨g, base, isub, postd, [], [], [], []⟩
    ⟨g, base, isub, postd, context, [], [], []⟩ rfl (by rintro rfl; rfl)
  have h₄ := hstep "tsp".toList tsp ⟨g, base, isub, postd, context, [], [], []⟩
    ⟨g, base, isub, postd, context, tsp, [], []⟩ rfl (by rintro rfl; rfl)
  simp only [knownItems, telKeys, List.flatMap_cons, List.flatMap_nil, List.append_nil, List.foldl_append]
  show (item "tsp".toList tsp).foldl set ((item "phone-context".toList context).foldl set
    ((item "postd".toList postd).foldl set ((item "isub".toList isub).foldl set
      ⟨g, base, [], [], [], [], [], []⟩))) = ⟨g, base, isub, postd, context, tsp, [], []⟩
  rw [h₁, h₂, h₃, h₄]

theorem mem_knownItems {i : Data × Data} (hi : i ∈ t.knownItems) :
    i.1 ∈ telKeys ∧ i.2 = t.getParam i.1 ∧ i.2 ≠ [] := by
  obtain ⟨key, hkey, hi⟩ := List.mem_flatMap.mp hi
  rw [item] at hi
  split at hi
  · rename_i hne
    rw [List.mem_singleton.mp hi]
    exact ⟨hkey, rfl, hne⟩
  · cases hi

theorem nodup_knownItems (t : SipTelSubscriberUser) : (t.knownItems.map Prod.fst).Nodup := by
  have hsub : ∀ keys : List Data, ((keys.flatMap fun key => item key (t.getParam key)).map Prod.fst).Sublist keys := by
    intro keys
    induction keys with
    | nil => exact List.Sublist.slnil
    | cons key keys ih =>
      rw [List.flatMap_cons, List.map_append, item]
      split
      · exact ih.cons_cons key
      · exact ih.cons key
  exact (hsub telKeys).nodup (by decide)

theorem mem_futureItem {i : Data × Data} (hi : i ∈ t.futureItem) :
    i = (t.futureExtensionName, t.futureExtensionValue) := by
  rw [futureItem] at hi
  split at hi
  · rw [item] at hi
    split at hi
    · exact List.mem_singleton.mp hi
    · cases hi
  · cases hi

theorem readable_telItems (ht : t.Decoded) : ∀ i ∈ t.telItems, Readable i := by
  intro i hi
  rcases List.mem_append.mp hi with hi | hi
  · obtain ⟨hkey, hvalue, -⟩ := mem_knownItems hi
    refine ⟨?_, hvalue ▸ ht.params _ hkey⟩
    have hequal : ∀ key ∈ telKeys, '=' ∉ key := by decide
    exact hequal _ hkey
  · rw [mem_futureItem hi]
    exact ⟨ht.name, ht.value⟩

theorem not_mem_flatMap_sect {c : Char} {items : List (Data × Data)} (hsemi : c ≠ ';') (hequal : c ≠ '=')
    (h : ∀ i ∈ items, c ∉ i.1 ∧ c ∉ i.2) : c ∉ items.flatMap sect := by
  intro hmem
  obtain ⟨i, hi, hc⟩ := List.mem_flatMap.mp hmem
  have := h i hi
  simp [sect, hsemi, hequal, this] at hc

theorem Avoids.telItems {c : Char} (ht : t.Avoids c) (hkeys : ∀ key ∈ telKeys, c ∉ key) :
    ∀ i ∈ t.telItems, c ∉ i.1 ∧ c ∉ i.2 := by
  intro i hi
  rcases List.mem_append.mp hi with hi | hi
  · obtain ⟨hkey, hvalue, -⟩ := mem_knownItems hi
    exact ⟨hkeys _ hkey, hvalue ▸ ht.params _ hkey⟩
  · rw [mem_futureItem hi]
    exact ⟨ht.name, ht.value⟩

/-! ### Parameters that pass through a url -/

/-- What a url makes of the parameters of a number: names are trimmed, and its own are taken out. -/
def passed (items : List (Data × Data)) : List (Data × Data) :=
  items.filterMap fun i => if removeSpaces i.1 ∈ urlKeys then none else some (removeSpaces i.1, i.2)

theorem mem_passed {items : List (Data × Data)} {i : Data × Data} (hi : i ∈ passed items) :
    ∃ j ∈ items, i = (removeSpaces j.1, j.2) := by
  obtain ⟨j, hj, heq⟩ := List.mem_filterMap.mp hi
  split at heq
  · cases heq
  · exact ⟨j, hj, (Option.some.inj heq).symm⟩

theorem readable_passed {items : List (Data × Data)} (h : ∀ i ∈ items, Readable i) :
    ∀ i ∈ passed items, Readable i := by
  intro i hi
  obtain ⟨j, hj, rfl⟩ := mem_passed hi
  exact ⟨fun hc => (h j hj).key (mem_of_mem_removeSpaces hc), (h j hj).value⟩

theorem not_mem_passed {c : Char} {items : List (Data × Data)} (h : ∀ i ∈ items, c ∉ i.1 ∧ c ∉ i.2) :
    ∀ i ∈ passed items, c ∉ i.1 ∧ c ∉ i.2 := by
  intro i hi
  obtain ⟨j, hj, rfl⟩ := mem_passed hi
  exact ⟨fun hc => (h j hj).1 (mem_of_mem_removeSpaces hc), (h j hj).2⟩

theorem removeSpaces_telKey {key : Data} (hkey : key ∈ telKeys) : removeSpaces key = key := by
  have htrimmed : ∀ key ∈ telKeys, key.head? ≠ some ' ' ∧ key.getLast? ≠ some ' ' := by decide
  exact removeSpaces_eq_self (trimmedOfSpaces_iff.mpr (htrimmed key hkey))

theorem passed_known {items : List (Data × Data)} (h : ∀ i ∈ items, i.1 ∈ telKeys) : passed items = items := by
  induction items with
  | nil => rfl
  | cons i items ih =>
    have hkey := h i (List.mem_cons_self ..)
    have hurl : ∀ key ∈ telKeys, key ∉ urlKeys := by decide
    rw [passed, List.filterMap_cons, removeSpaces_telKey hkey, if_neg (hurl _ hkey)]
    simp only
    rw [show List.filterMap _ items = passed items from rfl, ih fun j hj => h j (List.mem_cons_of_mem _ hj)]

/-- The future extension is one that its text shows. -/
def FutureWritable (t : SipTelSubscriberUser) : Prop :=
  (t.futureExtensionName = [] ∧ t.futureExtensionValue = []) ∨
    (t.futureExtensionName ≠ [] ∧ t.futureExtensionValue ≠ [] ∧ TrimmedOfSpaces t.futureExtensionName ∧
      t.futureExtensionName ∉ urlKeys ∧ (t.knownItems = [] → t.futureExtensionName.head? ≠ some ';'))

theorem dropSemi_known {items rest : List (Data × Data)} (hne : items ≠ [])
    (h : ∀ i ∈ items, i.1 ∈ telKeys) : dropSemi (items ++ rest) = items ++ rest := by
  obtain ⟨⟨key, value⟩, items, rfl⟩ := List.exists_cons_of_ne_nil hne
  have hhead : ∀ key ∈ telKeys, key.dropWhile (isIn · [';']) = key := by decide
  rw [List.cons_append, dropSemi, hhead key (h (key, value) (List.mem_cons_self ..))]

theorem decode_passed (ht : t.Decoded) {items : List (Data × Data)} (hread : ∀ i ∈ items, Readable i)
    (hplus : t.isGlobalPhoneNumber = false → ∀ i ∈ items, '+' ∉ i.1 ∧ '+' ∉ i.2) :
    decode (t.encode ++ (passed items).flatMap sect) =
      (dropSemi (passed items)).foldl (fun t i => t.setParam i.1 i.2)
        { isGlobalPhoneNumber := t.isGlobalPhoneNumber, basePhoneNumber := t.basePhoneNumber } := by
  rw [encode]
  refine decode_sections ht.base (readable_passed hread) ?_ ht.base_plus
  intro hlocal hmem
  rcases List.mem_append.mp hmem with hmem | hmem
  · exact (ht.plus hlocal).base hmem
  · exact not_mem_flatMap_sect (by decide) (by decide) (not_mem_passed (hplus hlocal)) hmem

theorem eq_future_iff {name value : Data} :
    ({ t with futureExtensionName := name, futureExtensionValue := value } : SipTelSubscriberUser) = t ↔
      name = t.futureExtensionName ∧ value = t.futureExtensionValue := by
  constructor
  · intro h
    exact ⟨congrArg futureExtensionName h, congrArg futureExtensionValue h⟩
  · rintro ⟨rfl, rfl⟩
    rfl

theorem dropWhile_trim_eq_iff {p : Char → Bool} {name : Data} :
    (removeSpaces name).dropWhile p = name ↔
      TrimmedOfSpaces name ∧ (∀ c, name.head? = some c → p c = false) := by
  constructor
  · intro h
    have hlen₁ := (List.dropWhile_suffix (l := removeSpaces name) p).length_le
    rw [h] at hlen₁
    have htrimmed : TrimmedOfSpaces name := trimmed_of_length hlen₁
    refine ⟨htrimmed, ?_⟩
    intro c hc
    rw [removeSpaces_eq_self htrimmed] at h
    apply head?_dropWhile name c
    rw [h]
    exact hc
  · rintro ⟨htrimmed, hhead⟩
    rw [removeSpaces_eq_self htrimmed]
    exact dropWhile_eq_self_of_head hhead

theorem dropSemi_knownItems (t : SipTelSubscriberUser) : dropSemi t.knownItems = t.knownItems := by
  by_cases hnil : t.knownItems = []
  · rw [hnil]
    rfl
  · have hdrop : dropSemi (t.knownItems ++ []) = t.knownItems ++ [] :=
      dropSemi_known hnil fun i hi => (mem_knownItems hi).1
    rwa [List.append_nil] at hdrop

theorem passed_knownItems (t : SipTelSubscriberUser) : passed t.knownItems = t.knownItems :=
  passed_known fun _ hi => (mem_knownItems hi).1

theorem passed_append (items rest : List (Data × Data)) : passed (items ++ rest) = passed items ++ passed rest :=
  List.filterMap_append

theorem foldl_knownItems_eq_iff :
    t.knownItems.foldl (fun t i => t.setParam i.1 i.2)
        { isGlobalPhoneNumber := t.isGlobalPhoneNumber, basePhoneNumber := t.basePhoneNumber } = t ↔
      t.futureExtensionName = [] ∧ t.futureExtensionValue = [] := by
  rw [foldl_knownItems, eq_future_iff, eq_comm, and_congr_right_iff]
  exact fun _ => eq_comm

/-- With the future extension under the name `name`, the number is read back when this is its name. -/
theorem foldl_future_eq_iff (ht : t.Decoded) (hname : t.futureExtensionName ≠ []) {name : Data} :
    (t.knownItems ++ [(name, t.futureExtensionValue)]).foldl (fun t i => t.setParam i.1 i.2)
        { isGlobalPhoneNumber := t.isGlobalPhoneNumber, basePhoneNumber := t.basePhoneNumber } = t ↔
      name = t.futureExtensionName := by
  rw [List.foldl_append, foldl_knownItems, List.foldl_cons, List.foldl_nil]
  by_cases hkey : name ∈ telKeys
  · constructor
    · intro h
      have hfuture := congrArg futureExtensionName h
      rw [(setParam_known hkey).2.2.1] at hfuture
      exact absurd hfuture.symm hname
    · intro h
      rw [h] at hkey
      exact absurd hkey ht.name_key
  · rw [setParam_future hkey]
    show ({ t with futureExtensionName := _, futureExtensionValue := _ } : SipTelSubscriberUser) = t ↔ _
    rw [eq_future_iff]
    exact and_iff_left rfl

/-- The name under which the future extension passes a url. -/
def passedName (t : SipTelSubscriberUser) : Data :=
  if t.knownItems = [] then (removeSpaces t.futureExtensionName).dropWhile (isIn · [';'])
  else removeSpaces t.futureExtensionName

theorem passedName_eq_iff :
    t.passedName = t.futureExtensionName ↔ TrimmedOfSpaces t.futureExtensionName ∧
      (t.knownItems = [] → t.futureExtensionName.head? ≠ some ';') := by
  rw [passedName]
  split
  · rename_i hnil
    rw [dropWhile_trim_eq_iff, and_congr_right_iff]
    intro _
    constructor
    · intro h _ hsemi
      have := h ';' hsemi
      simp [isIn] at this
    · intro h c hc
      rw [isIn_singleton]
      rintro rfl
      exact h hnil hc
  · rename_i hnil
    constructor
    · intro h
      refine ⟨?_, fun hnil' => absurd hnil' hnil⟩
      rw [← h]
      exact trimmedOfSpaces_removeSpaces _
    · rintro ⟨htrimmed, -⟩
      exact removeSpaces_eq_self htrimmed

theorem dropSemi_passed (hurl : removeSpaces t.futureExtensionName ∉ urlKeys) :
    dropSemi (passed (t.knownItems ++ [(t.futureExtensionName, t.futureExtensionValue)])) =
      t.knownItems ++ [(t.passedName, t.futureExtensionValue)] := by
  have hone : passed [(t.futureExtensionName, t.futureExtensionValue)] =
      [(removeSpaces t.futureExtensionName, t.futureExtensionValue)] := by
    simp [passed, hurl]
  rw [passed_append, passed_knownItems, hone, passedName]
  split
  · rename_i hnil
    rw [hnil]
    rfl
  · rename_i hnil
    exact dropSemi_known hnil fun i hi => (mem_knownItems hi).1

theorem decode_own_text_iff (ht : t.Decoded) :
    decode (t.encode ++ (passed t.telItems).flatMap sect) = t ↔ t.FutureWritable := by
  have hplus : t.isGlobalPhoneNumber = false → ∀ i ∈ t.telItems, '+' ∉ i.1 ∧ '+' ∉ i.2 :=
    fun hlocal => (ht.plus hlocal).telItems (by decide)
  rw [decode_passed ht (readable_telItems ht) hplus, FutureWritable]
  by_cases hempty : t.futureExtensionName = [] ∨ t.futureExtensionValue = []
  · -- nothing is written for the extension
    have hitems : t.telItems = t.knownItems := by
      rw [telItems, futureItem]
      rcases hempty with h | h <;> simp [item, h]
    rw [hitems, passed_knownItems, dropSemi_knownItems, foldl_knownItems_eq_iff]
    constructor
    · exact Or.inl
    · rintro (h | ⟨h₁, h₂, -⟩)
      · exact h
      · exact absurd hempty (not_or.mpr ⟨h₁, h₂⟩)
  obtain ⟨hname, hvalue⟩ := not_or.mp hempty
  have hitems : t.telItems = t.knownItems ++ [(t.futureExtensionName, t.futureExtensionValue)] := by
    rw [telItems, futureItem, if_pos hname, item, if_pos hvalue]
  rw [hitems]
  by_cases hurl : removeSpaces t.futureExtensionName ∈ urlKeys
  · -- the url takes the extension for a parameter of its own
    have hnone : passed [(t.futureExtensionName, t.futureExtensionValue)] = [] := by
      simp [passed, hurl]
    rw [passed_append, hnone, List.append_nil, passed_knownItems, dropSemi_knownItems, foldl_knownItems_eq_iff]
    constructor
    · exact Or.inl
    · rintro (h | ⟨-, -, htrimmed, h, -⟩)
      · exact h
      · rw [removeSpaces_eq_self htrimmed] at hurl
        exact absurd hurl h
  · rw [dropSemi_passed hurl, foldl_future_eq_iff ht hname, passedName_eq_iff]
    constructor
    · rintro ⟨htrimmed, hhead⟩
      rw [removeSpaces_eq_self htrimmed] at hurl
      exact Or.inr ⟨hname, hvalue, htrimmed, hurl, hhead⟩
    · rintro (⟨h, -⟩ | ⟨-, -, htrimmed, -, hhead⟩)
      · exact absurd h hname
      · exact ⟨htrimmed, hhead⟩

/-- The `lr` of a url is read as a part of the name that follows. -/
def markLr : List (Data × Data) → List (Data × Data)
  | [] => []
  | (key, value) :: items => ("lr;".toList ++ key, value) :: items

theorem getParam_foldl_of_not_mem {key : Data} (hkey : key ∈ telKeys) {items : List (Data × Data)}
    (h : ∀ i ∈ items, i.1 ≠ key) (t : SipTelSubscriberUser) :
    (items.foldl (fun t i => t.setParam i.1 i.2) t).getParam key = t.getParam key := by
  induction items generalizing t with
  | nil => rfl
  | cons i items ih =>
    rw [List.foldl_cons, ih (fun j hj => h j (List.mem_cons_of_mem _ hj)), getParam_setParam hkey,
      if_neg (h i (List.mem_cons_self ..))]

theorem futureExtensionName_foldl_known {items : List (Data × Data)} (h : ∀ i ∈ items, i.1 ∈ telKeys)
    (t : SipTelSubscriberUser) :
    (items.foldl (fun t i => t.setParam i.1 i.2) t).futureExtensionName = t.futureExtensionName := by
  induction items generalizing t with
  | nil => rfl
  | cons i items ih =>
    rw [List.foldl_cons, ih (fun j hj => h j (List.mem_cons_of_mem _ hj)),
      (setParam_known (h i (List.mem_cons_self ..))).2.2.1]

theorem removeSpaces_lr (key : Data) :
    removeSpaces ("lr;".toList ++ key) = "lr;".toList ++ key.rdropWhile (· = ' ') := by
  have htext : "lr;".toList ++ key = ("lr;".toList ++ key.rdropWhile (· = ' ')) ++ key.rtakeWhile (· = ' ') := by
    rw [List.append_assoc, List.rdropWhile_append_rtakeWhile]
  have htrimmed : TrimmedOfSpaces ("lr;".toList ++ key.rdropWhile (· = ' ')) := by
    refine ⟨by simp, ?_⟩
    intro c hc
    by_cases hnil : key.rdropWhile (· = ' ') = []
    · rw [hnil] at hc
      have : c = ';' := by simpa using hc.symm
      rw [this]
      rfl
    · rw [List.getLast?_append_of_ne_nil _ hnil] at hc
      exact getLast?_rdropWhile _ c hc
  rw [htext, removeSpaces]
  refine trim_append_right htrimmed ?_ (by simp)
  intro c hc
  have hspace := List.mem_rtakeWhile_imp hc
  exact hspace

theorem decode_markLr (ht : t.Decoded) {key value : Data} {items : List (Data × Data)}
    (hitems : t.telItems = (key, value) :: items) :
    decode (t.encode ++ (passed (markLr t.telItems)).flatMap sect) =
      (passed items).foldl (fun t i => t.setParam i.1 i.2)
        { isGlobalPhoneNumber := t.isGlobalPhoneNumber, basePhoneNumber := t.basePhoneNumber,
          futureExtensionName := removeSpaces ("lr;".toList ++ key), futureExtensionValue := value } := by
  have hsemi : ';' ∈ removeSpaces ("lr;".toList ++ key) := by
    rw [removeSpaces_lr]
    exact List.mem_append_left _ (by decide)
  have hurl : removeSpaces ("lr;".toList ++ key) ∉ urlKeys := by
    intro h
    have : ∀ key ∈ urlKeys, ';' ∉ key := by decide
    exact this _ h hsemi
  have htel : removeSpaces ("lr;".toList ++ key) ∉ telKeys := by
    intro h
    have : ∀ key ∈ telKeys, ';' ∉ key := by decide
    exact this _ h hsemi
  have hread : ∀ i ∈ ("lr;".toList ++ key, value) :: items, Readable i := by
    intro i hi
    have hall := readable_telItems ht
    rw [hitems] at hall
    rcases List.mem_cons.mp hi with rfl | hi
    · have hfirst := hall (key, value) (List.mem_cons_self ..)
      refine ⟨?_, hfirst.value⟩
      rw [List.mem_append, not_or]
      exact ⟨by decide, hfirst.key⟩
    · exact hall i (List.mem_cons_of_mem _ hi)
  have hplus : t.isGlobalPhoneNumber = false →
      ∀ i ∈ ("lr;".toList ++ key, value) :: items, '+' ∉ i.1 ∧ '+' ∉ i.2 := by
    intro hlocal i hi
    have hall := (ht.plus hlocal).telItems (by decide)
    rw [hitems] at hall
    rcases List.mem_cons.mp hi with rfl | hi
    · have hfirst := hall (key, value) (List.mem_cons_self ..)
      refine ⟨?_, hfirst.2⟩
      rw [List.mem_append, not_or]
      exact ⟨by decide, hfirst.1⟩
    · exact hall i (List.mem_cons_of_mem _ hi)
  have hpassed : passed (("lr;".toList ++ key, value) :: items) =
      (removeSpaces ("lr;".toList ++ key), value) :: passed items := by
    rw [passed, List.filterMap_cons, if_neg hurl]
    rfl
  have hdrop : (removeSpaces ("lr;".toList ++ key)).dropWhile (isIn · [';']) =
      removeSpaces ("lr;".toList ++ key) := by
    rw [removeSpaces_lr]
    rfl
  rw [hitems, markLr, decode_passed ht hread hplus, hpassed, dropSemi, hdrop, List.foldl_cons,
    setParam_future htel]

theorem removeSpaces_lr_ne (name : Data) : removeSpaces ("lr;".toList ++ name) ≠ name := by
  intro h
  have htrimmed : TrimmedOfSpaces name := by
    rw [← h]
    exact trimmedOfSpaces_removeSpaces _
  have hname : name.rdropWhile (· = ' ') = name := rdropWhile_eq_self_of_getLast htrimmed.2
  rw [removeSpaces_lr, hname] at h
  have hlen := congrArg List.length h
  rw [List.length_append] at hlen
  have : "lr;".toList.length = 3 := by decide
  omega

theorem futureItem_eq_cons {key value : Data} {items : List (Data × Data)}
    (h : t.futureItem = (key, value) :: items) : t.futureExtensionName = key ∧ items = [] := by
  have hfirst := mem_futureItem (h ▸ List.mem_cons_self (a := (key, value)) (l := items))
  refine ⟨(Prod.mk.inj hfirst).1.symm, ?_⟩
  rw [futureItem] at h
  split at h
  · rw [item] at h
    split at h
    · exact (List.cons.inj h).2.symm
    · cases h
  · cases h

theorem knownItems_tail {key value : Data} {known : List (Data × Data)}
    (h : t.knownItems = (key, value) :: known) : ∀ j ∈ known, j.1 ∈ telKeys ∧ j.1 ≠ key := by
  intro j hj
  have hnodup := nodup_knownItems t
  rw [h, List.map_cons, List.nodup_cons] at hnodup
  refine ⟨(mem_knownItems (t := t) (h ▸ List.mem_cons_of_mem _ hj)).1, ?_⟩
  intro hjkey
  exact hnodup.1 (List.mem_map.mpr ⟨j, hj, hjkey⟩)

theorem passed_tail {key value : Data} {known : List (Data × Data)}
    (h : t.knownItems = (key, value) :: known) :
    passed (known ++ t.futureItem) = known ++ passed t.futureItem := by
  rw [passed_append, passed_known fun j hj => (knownItems_tail h j hj).1]

theorem mem_passed_futureItem {j : Data × Data} (hj : j ∈ passed t.futureItem) :
    j.1 = removeSpaces t.futureExtensionName := by
  obtain ⟨j', hj', rfl⟩ := mem_passed hj
  rw [mem_futureItem hj']

/-- An extension under the first parameter's own name takes its place, and the name kept with the `lr`
is not that name. -/
theorem foldl_markLr_ne_of_mem {t' : SipTelSubscriberUser} {key value : Data} {known : List (Data × Data)}
    (hknown : t.knownItems = (key, value) :: known) (hmem : ∃ j ∈ passed t.futureItem, j.1 = key)
    (ht' : t'.futureExtensionName = removeSpaces ("lr;".toList ++ key)) :
    (passed (known ++ t.futureItem)).foldl (fun t i => t.setParam i.1 i.2) t' ≠ t := by
  intro heq
  obtain ⟨j, hj, hjkey⟩ := hmem
  rw [mem_passed_futureItem hj] at hjkey
  have hkey := (mem_knownItems (t := t) (hknown ▸ List.mem_cons_self ..)).1
  rw [passed_tail hknown] at heq
  have hall : ∀ j ∈ known ++ passed t.futureItem, j.1 ∈ telKeys := by
    intro j hj
    rcases List.mem_append.mp hj with hj | hj
    · exact (knownItems_tail hknown j hj).1
    · rw [mem_passed_futureItem hj, hjkey]
      exact hkey
  have hname := congrArg futureExtensionName heq
  rw [futureExtensionName_foldl_known hall, ht'] at hname
  rw [← hname, removeSpaces_eq_self (trimmedOfSpaces_removeSpaces _)] at hjkey
  exact removeSpaces_lr_ne key hjkey

/-- Otherwise nothing that follows sets the first parameter, which the `lr` took along. -/
theorem foldl_markLr_ne_of_not_mem {t' : SipTelSubscriberUser} {key value : Data}
    {known : List (Data × Data)} (hknown : t.knownItems = (key, value) :: known)
    (hmem : ¬ ∃ j ∈ passed t.futureItem, j.1 = key) (ht' : t'.getParam key = []) :
    (passed (known ++ t.futureItem)).foldl (fun t i => t.setParam i.1 i.2) t' ≠ t := by
  intro heq
  obtain ⟨hkey, hvalue, hvalue'⟩ := mem_knownItems (t := t) (hknown ▸ List.mem_cons_self ..)
  have hnone : ∀ j ∈ known ++ passed t.futureItem, j.1 ≠ key := by
    intro j hj
    rcases List.mem_append.mp hj with hj | hj
    · exact (knownItems_tail hknown j hj).2
    · exact fun h => hmem ⟨j, hj, h⟩
  have hparam := getParam_foldl_of_not_mem hkey hnone t'
  rw [← passed_tail hknown, heq, ht'] at hparam
  apply hvalue'
  rw [show value = t.getParam key from hvalue, hparam]

theorem decode_markLr_ne (ht : t.Decoded) (hne : t.telItems ≠ []) :
    decode (t.encode ++ (passed (markLr t.telItems)).flatMap sect) ≠ t := by
  obtain ⟨⟨key, value⟩, items, hitems⟩ := List.exists_cons_of_ne_nil hne
  rw [decode_markLr ht hitems]
  rw [telItems] at hitems
  cases hknown : t.knownItems with
  | nil =>
    -- the future extension stands alone and gets another name
    rw [hknown, List.nil_append] at hitems
    obtain ⟨hfirst, hitems'⟩ := futureItem_eq_cons hitems
    intro heq
    rw [hitems'] at heq
    have hname := congrArg futureExtensionName heq
    rw [hfirst] at hname
    exact removeSpaces_lr_ne key hname
  | cons i known =>
    rw [hknown, List.cons_append] at hitems
    obtain ⟨rfl, rfl⟩ := List.cons.inj hitems
    by_cases hmem : ∃ j ∈ passed t.futureItem, j.1 = key
    · exact foldl_markLr_ne_of_mem hknown hmem rfl
    · exact foldl_markLr_ne_of_not_mem hknown hmem (getParam_new t.isGlobalPhoneNumber t.basePhoneNumber key)

end Vocal.Sip.Url.SipTelSubscriberUser
