import Vocal.Sip.Url.Decoded

/-!
# Urls are read back

Which urls that were read are read back from the text `SipUrl::encode` writes. The text is written as
`body` and, after a question mark, the embedded headers; the reader is run on the body part by part.
-/

namespace Vocal.Sip.Url.SipUrl

open Cut Data SipTelSubscriberUser

variable {u w : SipUrl}

/-! ### The text -/

/-- The parameters with fields of their own that are written. -/
def knownParams (u : SipUrl) : List (Data × Data) :=
  item "transport".toList u.transportParam ++ item "ttl".toList u.ttlParam ++
  item "maddr".toList u.maddrParam ++ item "user".toList u.userParam ++ item "method".toList u.methodParam

/-- The parameters of the telephone number that are written before a question mark. -/
def telParams (u : SipUrl) : List (Data × Data) :=
  match u.user, u.EscObj with
  | some (.telUser t), none => t.telItems
  | _, _ => []

/-- The parameters that are written after the flag `lr`. -/
def extraParams (u : SipUrl) : List (Data × Data) := item u.otherName u.otherParam ++ u.telParams

/-- The parameters as they are read: the flag becomes a part of the next name. -/
def params (u : SipUrl) : List (Data × Data) :=
  u.knownParams ++ if u.lrParam then markLr u.extraParams else u.extraParams

/-- The text that is left when the parameters are read. -/
def left (u : SipUrl) : Data := if u.lrParam ∧ u.extraParams = [] then "lr".toList else []

/-- What is written after the port. -/
def tailText (u : SipUrl) : Data := u.params.flatMap sect ++ leftText u.left

/-- The text up to a question mark. -/
def body (u : SipUrl) : Data := u.schemeName ++ ':' :: (u.userText ++ u.host ++ u.portText ++ u.tailText)

theorem flatMap_sect_markLr {items : List (Data × Data)} (hne : items ≠ []) :
    (markLr items).flatMap sect = ";lr".toList ++ items.flatMap sect := by
  obtain ⟨⟨key, value⟩, items, rfl⟩ := List.exists_cons_of_ne_nil hne
  simp [markLr, sect]

theorem flatMap_sect_telParams (u : SipUrl) :
    u.telParams.flatMap sect = if u.EscObj = none then u.telText else [] := by
  rw [telParams, telText]
  cases huser : u.user with
  | none => simp
  | some user =>
    cases user with
    | sipUser t => simp [BaseUser.getTelParams]
    | telUser t =>
      cases hesc : u.EscObj with
      | none => simp [BaseUser.getTelParams, getTelParams_eq]
      | some e => simp

theorem flatMap_sect_extra (u : SipUrl) :
    u.extraParams.flatMap sect = param u.otherName u.otherParam ++ if u.EscObj = none then u.telText else [] := by
  rw [extraParams, List.flatMap_append, flatMap_sect_item, flatMap_sect_telParams]

theorem tailText_eq (u : SipUrl) :
    u.tailText = u.paramText ++ if u.EscObj = none then u.telText else [] := by
  have hknown : u.knownParams.flatMap sect = param "transport".toList u.transportParam ++
      param "ttl".toList u.ttlParam ++ param "maddr".toList u.maddrParam ++ param "user".toList u.userParam ++
      param "method".toList u.methodParam := by
    simp only [knownParams, List.flatMap_append, flatMap_sect_item]
  rw [tailText, params, List.flatMap_append, hknown, paramText, left]
  cases hlr : u.lrParam with
  | false =>
    rw [if_neg (by simp), flatMap_sect_extra]
    simp [leftText]
  | true =>
    by_cases hextra : u.extraParams = []
    · have htext := flatMap_sect_extra u
      rw [hextra, List.flatMap_nil] at htext
      obtain ⟨hother, htel⟩ := List.append_eq_nil_iff.mp htext.symm
      rw [hother, htel, hextra]
      simp [leftText, markLr]
    · rw [if_pos rfl, flatMap_sect_markLr hextra, flatMap_sect_extra]
      simp [leftText, hextra]

theorem encode_eq (hu : u.Decoded) :
    u.encode = u.body ++ (match u.EscObj with | some e => '?' :: (e ++ u.telText) | none => []) := by
  rw [encode, body, hu.ipv6Addr, hu.headers, tailText_eq]
  cases u.EscObj with
  | none => simp
  | some e => simp

/-! ### Reading the parameters -/

theorem mem_item {key value : Data} {i : Data × Data} (hi : i ∈ item key value) : i = (key, value) ∧ value ≠ [] := by
  rw [item] at hi
  split at hi
  · rename_i hne
    exact ⟨List.mem_singleton.mp hi, hne⟩
  · cases hi

theorem mem_knownParams {i : Data × Data} (hi : i ∈ u.knownParams) : i.1 ∈ urlKeys ∧ i.2 ∈ u.values := by
  have hone : ∀ {key value : Data}, key ∈ urlKeys → value ∈ u.values → i ∈ item key value →
      i.1 ∈ urlKeys ∧ i.2 ∈ u.values := by
    intro key value hkey hvalue hi
    rw [(mem_item hi).1]
    exact ⟨hkey, hvalue⟩
  simp only [knownParams, List.mem_append] at hi
  rcases hi with (((hi | hi) | hi) | hi) | hi
  · exact hone (by decide) (by simp [values]) hi
  · exact hone (by decide) (by simp [values]) hi
  · exact hone (by decide) (by simp [values]) hi
  · exact hone (by decide) (by simp [values]) hi
  · exact hone (by decide) (by simp [values]) hi

theorem mem_extraParams (hu : u.Decoded) {i : Data × Data} (hi : i ∈ u.extraParams) :
    Readable i ∧ '?' ∉ i.1 ∧ '?' ∉ i.2 := by
  rcases List.mem_append.mp hi with hi | hi
  · rw [(mem_item hi).1]
    have hmem : u.otherParam ∈ u.values := by simp [values]
    exact ⟨⟨hu.name_equal, hu.values _ hmem⟩, hu.question.name, hu.question.values _ hmem⟩
  · rw [telParams] at hi
    split at hi
    · rename_i t huser _
      obtain ⟨ht, -, hquestion, -⟩ := hu.tel_user t huser
      exact ⟨readable_telItems ht i hi, hquestion.telItems (by decide) i hi⟩
    · cases hi

theorem mem_markLr {items : List (Data × Data)} {i : Data × Data} (hi : i ∈ markLr items) :
    i ∈ items ∨ ∃ j ∈ items, i = ("lr;".toList ++ j.1, j.2) := by
  cases items with
  | nil => cases hi
  | cons j items =>
    obtain ⟨key, value⟩ := j
    rcases List.mem_cons.mp hi with rfl | hi
    · exact Or.inr ⟨(key, value), List.mem_cons_self .., rfl⟩
    · exact Or.inl (List.mem_cons_of_mem _ hi)

theorem readable_params (hu : u.Decoded) : ∀ i ∈ u.params, Readable i ∧ '?' ∉ i.1 ∧ '?' ∉ i.2 := by
  intro i hi
  rcases List.mem_append.mp hi with hi | hi
  · obtain ⟨hkey, hvalue⟩ := mem_knownParams hi
    have hkeys : ∀ key ∈ urlKeys, '=' ∉ key ∧ '?' ∉ key := by decide
    exact ⟨⟨(hkeys _ hkey).1, hu.values _ hvalue⟩, (hkeys _ hkey).2, hu.question.values _ hvalue⟩
  · split at hi
    · rcases mem_markLr hi with hi | ⟨j, hj, rfl⟩
      · exact mem_extraParams hu hi
      · obtain ⟨⟨hkey, hvalue⟩, hq, hq'⟩ := mem_extraParams hu hj
        refine ⟨⟨?_, hvalue⟩, ?_, hq'⟩
        · rw [List.mem_append, not_or]
          exact ⟨by decide, hkey⟩
        · rw [List.mem_append, not_or]
          exact ⟨by decide, hq⟩
    · exact mem_extraParams hu hi

/-- One step of the loop over the parameters. -/
abbrev readParam (s : Scan) (i : Data × Data) : Scan := parseParam s (removeSpaces i.1) i.2 true

theorem left_cases (u : SipUrl) : u.left = [] ∨ (u.left = "lr".toList ∧ u.lrParam = true ∧ u.extraParams = []) := by
  rw [left]
  split
  · rename_i h
    exact Or.inr ⟨rfl, h⟩
  · exact Or.inl rfl

theorem tailText_cases (u : SipUrl) : u.tailText = [] ∨ ∃ rest, u.tailText = ';' :: rest := by
  rw [tailText]
  cases u.params with
  | nil =>
    rw [List.flatMap_nil, List.nil_append, leftText]
    split
    · exact Or.inr ⟨_, rfl⟩
    · exact Or.inl rfl
  | cons i items => exact Or.inr ⟨_, rfl⟩

theorem parseParams_tail (hu : u.Decoded) (s : Scan) :
    parseParams u.tailText.tail.length s u.tailText.tail = (u.params.foldl readParam s, u.left) := by
  have hleft : '=' ∉ u.left := by
    rcases left_cases u with h | ⟨h, -⟩
    · rw [h]
      exact List.not_mem_nil
    · rw [h]
      decide
  have hread := readable_params hu
  rw [tailText]
  cases hparams : u.params with
  | nil =>
    rw [List.flatMap_nil, List.nil_append, leftText]
    split
    · rw [List.tail_cons, parseParams_of_no_equal hleft]
      rfl
    · rename_i hnil
      have hnil' : u.left = [] := by simpa using hnil
      rw [hnil']
      rfl
  | cons i items =>
    rw [hparams] at hread
    have htail : ((i :: items).flatMap sect ++ leftText u.left).tail =
        i.1 ++ '=' :: i.2 ++ items.flatMap sect ++ leftText u.left := by
      simp [sect]
    rw [htail, parseParams_sections (fun j hj => ⟨(hread j hj).1, (hread j hj).2.2⟩) hleft s le_rfl]

/-! ### The parameters of the url -/

theorem foldl_readParam_item (key value : Data) (s s' : Scan) (htrimmed : removeSpaces key = key)
    (hread : parseParam s key value true = s') (hnone : value = [] → s = s') :
    (item key value).foldl readParam s = s' := by
  rw [item]
  split
  · rw [List.foldl_cons, List.foldl_nil, readParam, htrimmed]
    exact hread
  · rename_i h
    exact hnone (by simpa using h)

/-- The scan after the parameters with fields of their own. -/
def knownScan (u : SipUrl) (base : SipUrl) (userInfo : Data) : Scan :=
  ⟨{ base with
      transportParam := u.transportParam
      ttlParam := u.ttlParam
      maddrParam := u.maddrParam
      userParam := u.userParam
      methodParam := u.methodParam }, userInfo, u.userParam ≠ []⟩

theorem foldl_knownParams (u : SipUrl) (scheme : Data) (e : Option Data) (hp : HostPort) (userInfo : Data) :
    u.knownParams.foldl readParam ⟨ofHost scheme e hp, userInfo, false⟩ =
      knownScan u (ofHost scheme e hp) userInfo := by
  have htrimmed : ∀ key ∈ urlKeys, removeSpaces key = key := by
    have hends : ∀ key ∈ urlKeys, key.head? ≠ some ' ' ∧ key.getLast? ≠ some ' ' := by decide
    exact fun key hkey => removeSpaces_eq_self (trimmedOfSpaces_iff.mpr (hends key hkey))
  obtain ⟨-, -, -, -, -, transport, ttl, maddr, userParam, method, -, -, -, -, -, -⟩ := u
  have h₁ := foldl_readParam_item "transport".toList transport ⟨ofHost scheme e hp, userInfo, false⟩
    ⟨{ ofHost scheme e hp with transportParam := transport }, userInfo, false⟩
    (htrimmed _ (by decide)) rfl (by rintro rfl; rfl)
  have h₂ := foldl_readParam_item "ttl".toList ttl
    ⟨{ ofHost scheme e hp with transportParam := transport }, userInfo, false⟩
    ⟨{ ofHost scheme e hp with transportParam := transport, ttlParam := ttl }, userInfo, false⟩
    (htrimmed _ (by decide)) rfl (by rintro rfl; rfl)
  have h₃ := foldl_readParam_item "maddr".toList maddr
    ⟨{ ofHost scheme e hp with transportParam := transport, ttlParam := ttl }, userInfo, false⟩
    ⟨{ ofHost scheme e hp with transportParam := transport, ttlParam := ttl, maddrParam := maddr },
      userInfo, false⟩
    (htrimmed _ (by decide)) rfl (by rintro rfl; rfl)
  have h₄ : (item "user".toList userParam).foldl readParam
      ⟨{ ofHost scheme e hp with transportParam := transport, ttlParam := ttl, maddrParam := maddr },
        userInfo, false⟩ =
      ⟨{ ofHost scheme e hp with
          transportParam := transport, ttlParam := ttl, maddrParam := maddr, userParam := userParam },
        userInfo, decide (userParam ≠ [])⟩ := by
    by_cases hnil : userParam = []
    · rw [hnil]
      rfl
    · apply foldl_readParam_item
      · exact htrimmed _ (by decide)
      · simp [parseParam, hnil]
      · exact fun h => absurd h hnil
  have h₅ := foldl_readParam_item "method".toList method
    ⟨{ ofHost scheme e hp with
        transportParam := transport, ttlParam := ttl, maddrParam := maddr, userParam := userParam },
      userInfo, decide (userParam ≠ [])⟩
    ⟨{ ofHost scheme e hp with
        transportParam := transport, ttlParam := ttl, maddrParam := maddr, userParam := userParam,
        methodParam := method }, userInfo, decide (userParam ≠ [])⟩
    (htrimmed _ (by decide)) rfl (by rintro rfl; rfl)
  simp only [knownParams, List.foldl_append]
  rw [h₁, h₂, h₃, h₄, h₅]
  rfl

/-! ### The other parameters -/

theorem foldl_readParam_phone {items : List (Data × Data)} {s : Scan}
    (hkeys : ∀ i ∈ items, removeSpaces i.1 ∉ urlKeys) (hphone : s.url.userParam = "phone".toList) :
    items.foldl readParam s = { s with userInfo := s.userInfo ++ (passed items).flatMap sect } := by
  induction items generalizing s with
  | nil => simp [passed]
  | cons i items ih =>
    have hkey := hkeys i (List.mem_cons_self ..)
    have hstep : readParam s i =
        { s with userInfo := s.userInfo ++ ';' :: removeSpaces i.1 ++ '=' :: i.2 } := by
      rcases parseParam_cases s (removeSpaces i.1) i.2 with ⟨h, -⟩ | ⟨-, -, h⟩ | ⟨-, h, -⟩
      · exact absurd h hkey
      · exact h
      · exact absurd hphone h
    have hpassed : passed (i :: items) = (removeSpaces i.1, i.2) :: passed items := by
      rw [passed, List.filterMap_cons, if_neg hkey]
      rfl
    have hnext := ih (s := readParam s i) (fun j hj => hkeys j (List.mem_cons_of_mem _ hj)) (by
      rw [hstep]
      exact hphone)
    rw [List.foldl_cons, hnext, hstep, hpassed]
    simp [sect]

theorem foldl_readParam_other {items : List (Data × Data)} {s : Scan}
    (hkeys : ∀ i ∈ items, removeSpaces i.1 ∉ urlKeys) (hphone : s.url.userParam ≠ "phone".toList) :
    ∃ name value, items.foldl readParam s =
      { s with url := { s.url with otherName := name, otherParam := value } } := by
  induction items generalizing s with
  | nil => exact ⟨_, _, rfl⟩
  | cons i items ih =>
    have hkey := hkeys i (List.mem_cons_self ..)
    have hstep : readParam s i =
        { s with url := { s.url with otherName := removeSpaces i.1, otherParam := i.2 } } := by
      rcases parseParam_cases s (removeSpaces i.1) i.2 with ⟨h, -⟩ | ⟨-, h, -⟩ | ⟨-, -, h⟩
      · exact absurd h hkey
      · exact absurd h hphone
      · exact h
    obtain ⟨name, value, h⟩ := ih (s := readParam s i) (fun j hj => hkeys j (List.mem_cons_of_mem _ hj)) (by
      rw [hstep]
      exact hphone)
    exact ⟨name, value, by rw [List.foldl_cons, h, hstep]⟩

/-- Only the last parameter can be taken for one of the url. -/
def Tame (items : List (Data × Data)) : Prop :=
  ∃ front last, items = front ++ last ∧ (∀ i ∈ front, removeSpaces i.1 ∉ urlKeys) ∧ last.length ≤ 1

theorem lr_not_mem_urlKeys (key : Data) : removeSpaces ("lr;".toList ++ key) ∉ urlKeys := by
  intro h
  have hsemi : ';' ∈ removeSpaces ("lr;".toList ++ key) := by
    rw [removeSpaces_lr]
    exact List.mem_append_left _ (by decide)
  have hkeys : ∀ key ∈ urlKeys, ';' ∉ key := by decide
  exact hkeys _ h hsemi

theorem Tame.markLr {items : List (Data × Data)} (h : Tame items) : Tame (markLr items) := by
  obtain ⟨front, last, rfl, hfront, hlast⟩ := h
  cases front with
  | nil =>
    refine ⟨[], SipTelSubscriberUser.markLr last, rfl, by simp, ?_⟩
    cases last with
    | nil => exact hlast
    | cons i last => exact hlast
  | cons i front =>
    obtain ⟨key, value⟩ := i
    refine ⟨("lr;".toList ++ key, value) :: front, last, rfl, ?_, hlast⟩
    intro j hj
    rcases List.mem_cons.mp hj with rfl | hj
    · exact lr_not_mem_urlKeys key
    · exact hfront j (List.mem_cons_of_mem _ hj)

theorem tame_extraParams (hu : u.Decoded) : Tame u.extraParams := by
  have hother : ∀ i ∈ item u.otherName u.otherParam, removeSpaces i.1 ∉ urlKeys := by
    intro i hi
    rw [(mem_item hi).1, removeSpaces_eq_self hu.name_trimmed]
    exact hu.name_key
  rw [extraParams, telParams]
  split
  · rename_i t _ _
    refine ⟨item u.otherName u.otherParam ++ t.knownItems, t.futureItem, ?_, ?_, ?_⟩
    · rw [telItems, List.append_assoc]
    · intro i hi
      rcases List.mem_append.mp hi with hi | hi
      · exact hother i hi
      · have hkey := (mem_knownItems hi).1
        have hurl : ∀ key ∈ telKeys, key ∉ urlKeys := by decide
        rw [removeSpaces_telKey hkey]
        exact hurl _ hkey
    · rw [futureItem]
      split
      · rw [item]
        split <;> simp
      · simp
  · exact ⟨item u.otherName u.otherParam, [], rfl, hother, by simp⟩

theorem tame_marked (hu : u.Decoded) : Tame (if u.lrParam then markLr u.extraParams else u.extraParams) := by
  split
  · exact (tame_extraParams hu).markLr
  · exact tame_extraParams hu

theorem Tame.foldl_phone {items : List (Data × Data)} (h : Tame items) {s : Scan}
    (hphone : s.url.userParam = "phone".toList) :
    (items.foldl readParam s).userInfo = s.userInfo ++ (passed items).flatMap sect ∧
      (items.foldl readParam s).url.otherParam = s.url.otherParam := by
  obtain ⟨front, last, rfl, hfront, hlast⟩ := h
  rw [List.foldl_append, foldl_readParam_phone hfront hphone, passed_append]
  match last, hlast with
  | [], _ => simp [passed]
  | [i], _ =>
    rw [List.foldl_cons, List.foldl_nil]
    rcases parseParam_cases { s with userInfo := s.userInfo ++ (passed front).flatMap sect } (removeSpaces i.1) i.2
      with ⟨hkey, hinfo, -⟩ | ⟨hkey, -, heq⟩ | ⟨-, hno, -⟩
    · have hnone : passed [i] = [] := by simp [passed, hkey]
      refine ⟨?_, ?_⟩
      · rw [readParam, hinfo, hnone, List.append_nil]
      · simp only [urlKeys, List.mem_cons, List.not_mem_nil, or_false] at hkey
        rw [readParam]
        rcases hkey with h | h | h | h | h <;> rw [h] <;> rfl
    · have hone : passed [i] = [(removeSpaces i.1, i.2)] := by simp [passed, hkey]
      rw [readParam, heq, hone]
      refine ⟨?_, rfl⟩
      simp [sect]
    · exact absurd hphone hno

theorem Tame.foldl_other {items : List (Data × Data)} (h : Tame items) {s : Scan}
    (hphone : s.url.userParam ≠ "phone".toList) : (items.foldl readParam s).userInfo = s.userInfo := by
  obtain ⟨front, last, rfl, hfront, hlast⟩ := h
  obtain ⟨name, value, hfold⟩ := foldl_readParam_other hfront hphone
  rw [List.foldl_append, hfold]
  match last, hlast with
  | [], _ => rfl
  | [i], _ =>
    rw [List.foldl_cons, List.foldl_nil]
    rcases parseParam_cases { s with url := { s.url with otherName := name, otherParam := value } }
      (removeSpaces i.1) i.2 with ⟨-, hinfo, -⟩ | ⟨-, hyes, -⟩ | ⟨-, -, heq⟩
    · exact hinfo
    · exact absurd hyes hphone
    · rw [readParam, heq]

/-! ### The host and the port -/

/-- The port as far as it is written. -/
def writtenPort (u : SipUrl) : Data := if u.port = "0".toList then [] else u.port

theorem portText_eq (u : SipUrl) : u.portText = if u.writtenPort = [] then [] else ':' :: u.writtenPort := by
  rw [portText, writtenPort]
  by_cases hzero : u.port = "0".toList
  · rw [if_neg (fun h => h.2 hzero), if_pos hzero, if_pos rfl]
  · by_cases hnil : u.port = []
    · rw [if_neg (fun h => h.1 hnil), if_neg hzero, if_pos hnil]
    · rw [if_pos ⟨hnil, hzero⟩, if_neg hzero, if_neg hnil]

theorem writtenPort_all (hu : u.Decoded) : u.writtenPort.all isdigit = true := by
  rw [writtenPort]
  split
  · rfl
  · exact hu.port

theorem not_mem_writtenPort (hu : u.Decoded) {c : Char} (hc : isdigit c = false) : c ∉ u.writtenPort := by
  intro hmem
  have := List.all_eq_true.mp (writtenPort_all hu) c hmem
  rw [hc] at this
  cases this

/-- What is read after the host, from what is written there. -/
def writtenHost (u : SipUrl) : HostPort :=
  ⟨u.host, true, u.writtenPort, u.writtenPort ≠ [], u.tailText.tail⟩

theorem afterHost_text (hu : u.Decoded) (hne : u.portText ++ u.tailText ≠ []) :
    ∃ c rest, (c = ':' ∨ c = ';') ∧ u.portText ++ u.tailText = c :: rest ∧
      afterHost u.host true c rest = u.writtenHost := by
  have hsemi : ';' ∉ u.writtenPort := not_mem_writtenPort hu (by decide)
  rw [portText_eq] at hne ⊢
  by_cases hport : u.writtenPort = []
  · rw [if_pos hport, List.nil_append] at hne ⊢
    rcases tailText_cases u with htail | ⟨rest, htail⟩
    · exact absurd htail hne
    · refine ⟨';', rest, Or.inr rfl, htail, ?_⟩
      rw [afterHost, if_neg (by decide), writtenHost, htail, hport]
      rfl
  · rw [if_neg hport]
    refine ⟨':', u.writtenPort ++ u.tailText, Or.inl rfl, rfl, ?_⟩
    rw [afterHost, if_pos rfl, writtenHost, decide_eq_true hport]
    rcases tailText_cases u with htail | ⟨rest, htail⟩
    · rw [htail, List.append_nil, matchChar_not_found hsemi]
      rfl
    · rw [htail, matchChar_found hsemi]
      rfl

/-- The host is one that is found again. -/
inductive HostFound (userValid : Bool) (u : SipUrl) : Prop
  | bracketed (h : Bracketed u.host) (hnext : userValid = true → u.portText ++ u.tailText ≠ [])
  | plain (h : Plain u.host) (hhost : '[' ∉ u.host) (htail : '[' ∉ u.tailText)

theorem not_mem_portText (hu : u.Decoded) {c : Char} (hc : isdigit c = false) (hcolon : c ≠ ':') :
    c ∉ u.portText := by
  rw [portText_eq]
  split
  · exact List.not_mem_nil
  · rw [List.mem_cons, not_or]
    exact ⟨hcolon, not_mem_writtenPort hu hc⟩

theorem tailText_of_bare (hu : u.Bare) : u.portText = [] ∧ u.tailText = [] := by
  have hvalue : ∀ v ∈ u.values, v = [] := hu.values
  have hport : u.portText = [] := by
    rw [portText, if_neg (fun h => h.1 hu.port)]
  refine ⟨hport, ?_⟩
  rw [tailText_eq, paramText, hu.lrParam, hu.telText, hvalue u.transportParam (by simp [values]),
    hvalue u.ttlParam (by simp [values]), hvalue u.maddrParam (by simp [values]),
    hvalue u.userParam (by simp [values]), hvalue u.methodParam (by simp [values]),
    hvalue u.otherParam (by simp [values])]
  simp [param]

theorem parseHostPort_text (hu : u.Decoded) {userValid : Bool} (hfound : HostFound userValid u) :
    parseHostPort userValid (u.host ++ (u.portText ++ u.tailText)) = some u.writtenHost := by
  have hwritten : u.portText ++ u.tailText = [] → u.writtenHost = { host := u.host } := by
    intro hnil
    obtain ⟨hport, htail⟩ := List.append_eq_nil_iff.mp hnil
    rw [portText_eq] at hport
    have hport' : u.writtenPort = [] := by
      by_contra hne
      rw [if_neg hne] at hport
      cases hport
    rw [writtenHost, hport', htail]
    rfl
  rw [parseHostPort]
  cases hfound with
  | bracketed h hnext =>
    obtain ⟨a, hhost, ha⟩ := h
    have htext : u.host ++ (u.portText ++ u.tailText) =
        [] ++ '[' :: (a ++ ']' :: (u.portText ++ u.tailText)) := by
      rw [hhost]
      simp
    rw [htext, matchChar_found (by simp)]
    simp only
    rw [parseIpv6Address, matchChar_found ha, Option.map_some, Option.map_some, ← hhost]
    simp only
    by_cases hnil : u.portText ++ u.tailText = []
    · have hfalse : userValid = false := by
        by_contra huser
        exact hnext (by simpa using huser) hnil
      rw [hnil, matchChar_pair_not_found (by simp) (by simp), hwritten hnil]
      simp [hfalse]
    · obtain ⟨c, rest, hc, heq, hafter⟩ := afterHost_text hu hnil
      rw [heq, ← List.nil_append (c :: rest), matchChar_pair_found (by simp) (by simp) hc]
      simp only
      rw [hafter]
  | plain h hhost htail =>
    have hbracket : '[' ∉ u.host ++ (u.portText ++ u.tailText) := by
      simp [hhost, htail, not_mem_portText hu (c := '[') (by decide) (by decide)]
    rw [matchChar_not_found hbracket]
    simp only
    by_cases hnil : u.portText ++ u.tailText = []
    · rw [hnil, List.append_nil, matchChar_pair_not_found h.1 h.2, hwritten hnil]
    · have hne : u.host ≠ [] := by
        intro hempty
        obtain ⟨hport, htail⟩ := tailText_of_bare (hu.host_nil hempty)
        exact hnil (by rw [hport, htail]; rfl)
      obtain ⟨c, rest, hc, heq, hafter⟩ := afterHost_text hu hnil
      rw [heq, matchChar_pair_found h.1 h.2 hc]
      simp only
      rw [decide_eq_true hne, hafter]

/-! ### Reading the body -/

theorem colon_not_mem_scheme {scheme : Data} (h : isEqualNoCase scheme "sip".toList = true) :
    ':' ∉ scheme ∧ '?' ∉ scheme := by
  have hmap : scheme.map Char.toLower = "sip".toList.map Char.toLower := by
    simpa [isEqualNoCase] using h
  have hmem : ∀ c ∈ scheme, Char.toLower c ∈ "sip".toList.map Char.toLower := by
    intro c hc
    rw [← hmap]
    exact List.mem_map_of_mem hc
  constructor
  · intro hc
    exact absurd (hmem _ hc) (by decide)
  · intro hc
    exact absurd (hmem _ hc) (by decide)

theorem user_text (hu : u.Decoded) {user : BaseUser} (huser : u.user = some user) :
    user.encode.head? ≠ some ':' ∧ '?' ∉ user.encode := by
  cases user with
  | sipUser t =>
    obtain ⟨hhead, hquestion, -⟩ := hu.sip_user t huser
    exact ⟨hhead, hquestion⟩
  | telUser t =>
    obtain ⟨-, hhead, hquestion, -⟩ := hu.tel_user t huser
    refine ⟨hhead, ?_⟩
    show '?' ∉ t.encode
    rw [SipTelSubscriberUser.encode, List.mem_append, not_or]
    refine ⟨?_, hquestion.base⟩
    split <;> decide

theorem userText_eq (hu : u.Decoded) {user : BaseUser} (huser : u.user = some user)
    (hblank : removeSpaces user.encode ≠ []) : u.userText = user.encode ++ ['@'] := by
  simp [userText, huser, hblank, hu.passwd]

theorem userText_none (huser : u.user = none) : u.userText = [] := by
  simp [userText, huser]

theorem head?_afterScheme (hu : u.Decoded) :
    (u.userText ++ u.host ++ u.portText ++ u.tailText).head? ≠ some ':' := by
  have hhost : (u.host ++ u.portText ++ u.tailText).head? ≠ some ':' := by
    cases hcons : u.host with
    | nil =>
      obtain ⟨hport, htail⟩ := tailText_of_bare (hu.host_nil hcons)
      rw [hport, htail]
      simp
    | cons c host =>
      intro hc
      have hc' : c = ':' := by simpa using hc
      rcases hu.host with ⟨a, hhost, -⟩ | ⟨hcolon, -⟩
      · rw [hcons] at hhost
        have := (List.cons.inj hhost).1
        rw [hc'] at this
        cases this
      · apply hcolon
        rw [hcons, hc']
        exact List.mem_cons_self ..
  cases huser : u.user with
  | none =>
    rw [userText_none huser]
    exact hhost
  | some user =>
    by_cases hblank : removeSpaces user.encode = []
    · have : u.userText = [] := by simp [userText, huser, hblank]
      rw [this]
      exact hhost
    · rw [userText_eq hu huser hblank]
      cases hcons : user.encode with
      | nil => simp
      | cons c text =>
        have := (user_text hu huser).1
        rw [hcons] at this
        simpa using this

theorem decodeBody_scheme (hu : u.Decoded) (e : Option Data) :
    decodeBody e u.body =
      match Data.matchChar (u.userText ++ u.host ++ u.portText ++ u.tailText) ['@'] with
      | some (userInfo, _, rest) =>
        (parseHostPort true rest).bind (finish { schemeName := u.schemeName, EscObj := e } true userInfo)
      | none =>
        (parseHostPort false (u.userText ++ u.host ++ u.portText ++ u.tailText)).bind
          (finish { schemeName := u.schemeName, EscObj := e } false []) := by
  rw [decodeBody, body, parse_found_of_head (colon_not_mem_scheme hu.scheme).1 (head?_afterScheme hu)]
  have hsip : ¬(!isEqualNoCase u.schemeName "sip".toList) = true := by
    rw [hu.scheme]
    decide
  exact if_neg hsip

theorem not_mem_tailText {c : Char} (hc : c ≠ ';' ∧ c ≠ '=') (hkeys : ∀ key ∈ urlKeys, c ∉ key)
    (hlr : c ∉ "lr".toList) (havoids : u.Avoids c) (htel : ∀ i ∈ u.telParams, c ∉ i.1 ∧ c ∉ i.2) :
    c ∉ u.tailText := by
  have hextra : ∀ i ∈ u.extraParams, c ∉ i.1 ∧ c ∉ i.2 := by
    intro i hi
    rcases List.mem_append.mp hi with hi | hi
    · rw [(mem_item hi).1]
      exact ⟨havoids.name, havoids.values _ (by simp [values])⟩
    · exact htel i hi
  rw [tailText, List.mem_append, not_or]
  constructor
  · apply not_mem_flatMap_sect hc.1 hc.2
    intro i hi
    rcases List.mem_append.mp hi with hi | hi
    · obtain ⟨hkey, hvalue⟩ := mem_knownParams hi
      exact ⟨hkeys _ hkey, havoids.values _ hvalue⟩
    · split at hi
      · rcases mem_markLr hi with hi | ⟨j, hj, rfl⟩
        · exact hextra i hi
        · refine ⟨?_, (hextra j hj).2⟩
          rw [show "lr;".toList ++ j.1 = "lr".toList ++ ';' :: j.1 from rfl, List.mem_append, List.mem_cons]
          rintro (h | h | h)
          · exact hlr h
          · exact hc.1 h
          · exact (hextra j hj).1 h
      · exact hextra i hi
  · rw [leftText]
    split
    · rcases left_cases u with h | ⟨h, -⟩
      · rw [h]
        simpa using hc.1
      · rw [h, List.mem_cons, not_or]
        exact ⟨hc.1, hlr⟩
    · exact List.not_mem_nil

theorem telParams_of_no_user (huser : u.user = none) : u.telParams = [] := by
  rw [telParams, huser]

theorem decodeBody_user (hu : u.Decoded) (e : Option Data) {user : BaseUser} (huser : u.user = some user)
    (hblank : removeSpaces user.encode ≠ []) (hat : '@' ∉ user.encode) (hfound : HostFound true u) :
    decodeBody e u.body =
      finish { schemeName := u.schemeName, EscObj := e } true user.encode u.writtenHost := by
  have htext : u.userText ++ u.host ++ u.portText ++ u.tailText =
      user.encode ++ '@' :: (u.host ++ (u.portText ++ u.tailText)) := by
    rw [userText_eq hu huser hblank]
    simp
  rw [decodeBody_scheme hu, htext, matchChar_found hat]
  simp only
  rw [parseHostPort_text hu hfound, Option.bind_some]

theorem decodeBody_no_user (hu : u.Decoded) (e : Option Data) (huser : u.user = none)
    (hfound : HostFound false u) :
    decodeBody e u.body = finish { schemeName := u.schemeName, EscObj := e } false [] u.writtenHost := by
  have havoids := hu.no_user huser
  have htext : u.userText ++ u.host ++ u.portText ++ u.tailText = u.host ++ (u.portText ++ u.tailText) := by
    rw [userText_none huser]
    simp
  have hat : '@' ∉ u.host ++ (u.portText ++ u.tailText) := by
    rw [List.mem_append, List.mem_append, not_or, not_or]
    refine ⟨havoids.host, not_mem_portText hu (by decide) (by decide), ?_⟩
    apply not_mem_tailText (by decide) (by decide) (by decide) havoids
    rw [telParams_of_no_user huser]
    simp
  rw [decodeBody_scheme hu, htext, matchChar_not_found hat]
  simp only
  rw [parseHostPort_text hu hfound, Option.bind_some]

/-- The scan when all parameters are read. -/
def finalScan (u : SipUrl) (e : Option Data) (userInfo : Data) : Scan :=
  (if u.lrParam then markLr u.extraParams else u.extraParams).foldl readParam
    (knownScan u (ofHost u.schemeName e u.writtenHost) userInfo)

/-- The url when all is read. -/
def reread (u : SipUrl) (e : Option Data) (userValid : Bool) (userInfo : Data) : SipUrl :=
  { (u.finalScan e userInfo).url with
    lrParam := (u.finalScan e userInfo).url.lrParam || decide (u.left = "lr".toList)
    user := makeUser (u.finalScan e userInfo) userValid }

theorem finish_text (hu : u.Decoded) (e : Option Data) (userValid : Bool) (userInfo : Data) :
    finish { schemeName := u.schemeName, EscObj := e } userValid userInfo u.writtenHost =
      some (u.reread e userValid userInfo) := by
  have hdigits : ¬(u.writtenHost.portValid && !u.writtenHost.port.all isdigit) = true := by
    simp [writtenHost, writtenPort_all hu]
  rw [finish, if_neg (by simp [writtenHost]), if_neg hdigits]
  simp only
  rw [show u.writtenHost.rest = u.tailText.tail from rfl, parseParams_tail hu, params, List.foldl_append,
    foldl_knownParams]
  rfl

end Vocal.Sip.Url.SipUrl
