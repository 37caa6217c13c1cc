import Vocal.Sip.Url.Tel

/-!
# What the url reader reads

`Decoded` is the invariant of every url that was read. The host and the port are described by
`parseHostPort_spec`, the parameters by the invariant `ScanInv` of their loop, and `decoded_of_fastDecode`
puts the parts together.
-/

namespace Vocal.Sip.Url

open Cut Data

/-- A host in brackets. -/
def Bracketed (host : Data) : Prop := ∃ a, host = '[' :: a ++ [']'] ∧ ']' ∉ a

/-- A host without the delimiters of the port and the parameters. -/
def Plain (host : Data) : Prop := ':' ∉ host ∧ ';' ∉ host

namespace SipUrl

/-! ### The host -/

/-- What holds of the host and the port read from `d`. -/
structure HostSpec (userValid : Bool) (d : Data) (hp : HostPort) : Prop where
  host_mem : ∀ c ∈ hp.host, c ∈ d
  port_mem : ∀ c ∈ hp.port, c ∈ d
  rest_mem : ∀ c ∈ hp.rest, c ∈ d
  shape : Bracketed hp.host ∨ Plain hp.host
  /-- A host without brackets comes from a text without any, or it is all that was left. -/
  unbracketed : ¬Bracketed hp.host → '[' ∉ d ∨ (userValid = true ∧ hp.port = [] ∧ hp.rest = [])
  host_nil : hp.host = [] → hp.hostValid = true → hp.port = [] ∧ hp.rest = []
  port_invalid : hp.portValid = false → hp.port = []

theorem afterHost_cases (host : Data) (valid : Bool) (matched : Char) (d : Data) :
    ∃ port portValid rest, afterHost host valid matched d = ⟨host, valid, port, portValid, rest⟩ ∧
      (∀ c ∈ port, c ∈ d) ∧ (∀ c ∈ rest, c ∈ d) ∧ (portValid = false → port = []) := by
  rw [afterHost]
  split
  · rcases matchChar_cases d ';' with ⟨-, hmatch⟩ | ⟨x, rest, -, rfl, hmatch⟩
    · rw [hmatch]
      exact ⟨d, true, [], rfl, fun _ h => h, by simp, by simp⟩
    · rw [hmatch]
      exact ⟨x, true, rest, rfl, fun c h => List.mem_append_left _ h,
        fun c h => List.mem_append_right _ (List.mem_cons_of_mem _ h), by simp⟩
  · exact ⟨[], false, d, rfl, by simp, fun _ h => h, fun _ => rfl⟩

section parseHostPort

variable {userValid : Bool} {d : Data} {hp : HostPort}

theorem parseHostPort_plain (hbracket : '[' ∉ d) (hmatch : Data.matchChar d ['['] = none)
    (h : parseHostPort userValid d = some hp) : HostSpec userValid d hp := by
  rw [parseHostPort, hmatch] at h
  simp only at h
  rcases matchChar_pair_cases d ':' ';' with ⟨hcolon, hsemi, hmatch⟩ |
    ⟨host, a, rest, hcolon, hsemi, ha, hd, hmatch⟩
  · rw [hmatch] at h
    simp only [Option.some.injEq] at h
    subst h
    exact ⟨fun _ h => h, by simp, by simp, Or.inr ⟨hcolon, hsemi⟩, fun _ => Or.inl hbracket,
      fun _ _ => ⟨rfl, rfl⟩, fun _ => rfl⟩
  · rw [hmatch] at h
    simp only [Option.some.injEq] at h
    obtain ⟨port, portValid, rest', hafter, hport, hrest, hinvalid⟩ :=
      afterHost_cases host (decide (host ≠ [])) a rest
    rw [hafter] at h
    subst h
    have hmem : ∀ c ∈ rest, c ∈ d := by
      intro c hc
      rw [hd]
      exact List.mem_append_right _ (List.mem_cons_of_mem _ hc)
    refine ⟨?_, fun c hc => hmem c (hport c hc), fun c hc => hmem c (hrest c hc), Or.inr ⟨hcolon, hsemi⟩,
      fun _ => Or.inl hbracket, ?_, hinvalid⟩
    · intro c hc
      rw [hd]
      exact List.mem_append_left _ hc
    · intro hnil hvalid
      simp only [decide_eq_true_eq] at hvalid
      exact absurd hnil hvalid

theorem parseHostPort_bracketed {x rest : Data} (hd : d = x ++ '[' :: rest)
    (hmatch : Data.matchChar d ['['] = some (x, '[', rest)) (h : parseHostPort userValid d = some hp) :
    HostSpec userValid d hp := by
  rw [parseHostPort, hmatch] at h
  obtain ⟨address, haddress, h⟩ := Option.map_eq_some_iff.mp h
  rw [parseIpv6Address] at haddress
  rcases matchChar_cases rest ']' with ⟨-, hmatch⟩ | ⟨a, y, hclose, hrest, hmatch⟩
  · rw [hmatch] at haddress
    cases haddress
  rw [hmatch, Option.map_some, Option.some.injEq] at haddress
  subst haddress
  simp only at h
  have hshape : Bracketed ('[' :: a ++ [']']) := ⟨a, rfl, hclose⟩
  have hy : ∀ c ∈ y, c ∈ d := by
    intro c hc
    rw [hd, hrest]
    simp [hc]
  have haddr : ∀ c ∈ '[' :: a ++ [']'], c ∈ d := by
    intro c hc
    have hc' : c = '[' ∨ c ∈ a ∨ c = ']' := by simpa using hc
    rw [hd, hrest]
    rcases hc' with rfl | hc' | rfl
    · simp
    · simp [hc']
    · simp
  rcases matchChar_pair_cases y ':' ';' with ⟨hcolon, hsemi, hmatch⟩ |
    ⟨e, b, rest', -, -, hb, hy', hmatch⟩
  · rw [hmatch] at h
    simp only at h
    split at h
    · rename_i huser
      subst h
      exact ⟨hy, by simp, by simp, Or.inr ⟨hcolon, hsemi⟩, fun _ => Or.inr ⟨huser, rfl, rfl⟩,
        fun _ _ => ⟨rfl, rfl⟩, fun _ => rfl⟩
    · subst h
      exact ⟨haddr, by simp, hy, Or.inl hshape, fun hne => absurd hshape hne, fun hnil => by simp at hnil,
        fun _ => rfl⟩
  · rw [hmatch] at h
    obtain ⟨port, portValid, rest'', hafter, hport, hrest', hinvalid⟩ :=
      afterHost_cases ('[' :: a ++ [']']) true b rest'
    simp only at h
    rw [hafter] at h
    subst h
    have hmem : ∀ c ∈ rest', c ∈ d := by
      intro c hc
      apply hy
      rw [hy']
      exact List.mem_append_right _ (List.mem_cons_of_mem _ hc)
    exact ⟨haddr, fun c hc => hmem c (hport c hc), fun c hc => hmem c (hrest' c hc), Or.inl hshape,
      fun hne => absurd hshape hne, fun hnil => by simp at hnil, hinvalid⟩

theorem parseHostPort_spec (h : parseHostPort userValid d = some hp) : HostSpec userValid d hp := by
  rcases matchChar_cases d '[' with ⟨hbracket, hmatch⟩ | ⟨x, rest, -, hd, hmatch⟩
  · exact parseHostPort_plain hbracket hmatch h
  · exact parseHostPort_bracketed hd hmatch h

end parseHostPort

/-! ### The parameters -/

/-- The values of the parameters. -/
def values (u : SipUrl) : List Data :=
  [u.transportParam, u.ttlParam, u.maddrParam, u.userParam, u.methodParam, u.otherParam]

/-- What the loop over the parameters in `data` keeps, from `s₀` on. -/
structure ScanInv (s₀ : Scan) (data : Data) (s : Scan) : Prop where
  /-- Only the parameters are set. -/
  url : s.url = { s₀.url with
    transportParam := s.url.transportParam
    ttlParam := s.url.ttlParam
    maddrParam := s.url.maddrParam
    userParam := s.url.userParam
    methodParam := s.url.methodParam
    otherParam := s.url.otherParam
    otherName := s.url.otherName }
  values_semi : ∀ v ∈ s.url.values, ';' ∉ v
  values_mem : ∀ v ∈ s.url.values, ∀ c ∈ v, c ∈ data
  name_mem : ∀ c ∈ s.url.otherName, c ∈ data
  name_equal : '=' ∉ s.url.otherName
  name_trimmed : TrimmedOfSpaces s.url.otherName
  name_key : s.url.otherName ∉ urlKeys
  userParam : s.userParamValid = false → s.url.userParam = []
  /-- Parameters of a telephone number are added at the end. -/
  userInfo : ∃ app, s.userInfo = s₀.userInfo ++ app ∧ (app = [] ∨ app.head? = some ';') ∧
    ∀ c ∈ app, c ∈ data ∨ c = ';' ∨ c = '='

/-- A parameter of the url sets a value; any other is added to the user of a telephone number, or is the
other parameter. -/
theorem parseParam_cases (s : Scan) (key value : Data) :
    (key ∈ urlKeys ∧ (parseParam s key value true).userInfo = s.userInfo ∧
      (parseParam s key value true).url.otherName = s.url.otherName) ∨
    (key ∉ urlKeys ∧ s.url.userParam = "phone".toList ∧
      parseParam s key value true = { s with userInfo := s.userInfo ++ ';' :: key ++ '=' :: value }) ∨
    (key ∉ urlKeys ∧ s.url.userParam ≠ "phone".toList ∧
      parseParam s key value true = { s with url := { s.url with otherName := key, otherParam := value } }) := by
  by_cases hkey : key ∈ urlKeys
  · refine Or.inl ⟨hkey, ?_⟩
    simp only [urlKeys, List.mem_cons, List.not_mem_nil, or_false] at hkey
    rcases hkey with rfl | rfl | rfl | rfl | rfl <;> exact ⟨rfl, rfl⟩
  · right
    have hkey' := hkey
    simp only [urlKeys, List.mem_cons, List.not_mem_nil, or_false, not_or] at hkey'
    rw [parseParam, if_neg hkey'.1, if_neg hkey'.2.1, if_neg hkey'.2.2.1, if_neg hkey'.2.2.2.1,
      if_neg hkey'.2.2.2.2, if_pos rfl]
    by_cases hphone : s.url.userParam = "phone".toList
    · rw [if_pos hphone]
      exact Or.inl ⟨hkey, hphone, rfl⟩
    · rw [if_neg hphone]
      exact Or.inr ⟨hkey, hphone, rfl⟩

theorem parseParam_url (s : Scan) (key value : Data) :
    (parseParam s key value true).url = { s.url with
      transportParam := (parseParam s key value true).url.transportParam
      ttlParam := (parseParam s key value true).url.ttlParam
      maddrParam := (parseParam s key value true).url.maddrParam
      userParam := (parseParam s key value true).url.userParam
      methodParam := (parseParam s key value true).url.methodParam
      otherParam := (parseParam s key value true).url.otherParam
      otherName := (parseParam s key value true).url.otherName } := by
  rw [parseParam]
  split
  · rfl
  split
  · rfl
  split
  · rfl
  split
  · rfl
  split
  · rfl
  rw [if_pos rfl]
  split <;> rfl

theorem values_parseParam (s : Scan) (key value : Data) :
    ∀ v ∈ (parseParam s key value true).url.values, v = value ∨ v ∈ s.url.values := by
  intro v hv
  -- one place of the list is set
  have hset : ∀ n : Nat, v ∈ s.url.values.set n value → v = value ∨ v ∈ s.url.values :=
    fun n h => (List.mem_or_eq_of_mem_set h).symm
  rw [parseParam] at hv
  split at hv
  · exact hset 3 hv
  split at hv
  · exact hset 0 hv
  split at hv
  · exact hset 1 hv
  split at hv
  · exact hset 2 hv
  split at hv
  · exact hset 4 hv
  rw [if_pos rfl] at hv
  split at hv
  · exact Or.inr hv
  · exact hset 5 hv

theorem userParam_parseParam (s : Scan) (key value : Data)
    (h : s.userParamValid = false → s.url.userParam = []) :
    (parseParam s key value true).userParamValid = false →
      (parseParam s key value true).url.userParam = [] := by
  rw [parseParam]
  split
  · simp
  split
  · exact h
  split
  · exact h
  split
  · exact h
  split
  · exact h
  rw [if_pos rfl]
  split <;> exact h

theorem otherName_parseParam (s : Scan) (key value : Data) :
    (parseParam s key value true).url.otherName = s.url.otherName ∨
      key ∉ urlKeys ∧ (parseParam s key value true).url.otherName = key := by
  rcases parseParam_cases s key value with ⟨-, -, h⟩ | ⟨-, -, h⟩ | ⟨hnew, -, h⟩
  · exact Or.inl h
  · left
    rw [h]
  · right
    rw [h]
    exact ⟨hnew, rfl⟩

theorem userInfo_parseParam (s : Scan) (key value : Data) :
    (parseParam s key value true).userInfo = s.userInfo ∨
      (parseParam s key value true).userInfo = s.userInfo ++ ';' :: key ++ '=' :: value := by
  rcases parseParam_cases s key value with ⟨-, h, -⟩ | ⟨-, -, h⟩ | ⟨-, -, h⟩
  · exact Or.inl h
  · right
    rw [h]
  · left
    rw [h]

theorem ScanInv.step {s₀ s : Scan} {data key value : Data} (hs : ScanInv s₀ data s) (hkey : '=' ∉ key)
    (hvalue : ';' ∉ value) (hkeymem : ∀ c ∈ key, c ∈ data) (hvaluemem : ∀ c ∈ value, c ∈ data) :
    ScanInv s₀ data (parseParam s (removeSpaces key) value true) := by
  have hname := otherName_parseParam s (removeSpaces key) value
  refine ⟨?_, ?_, ?_, ?_, ?_, ?_, ?_, userParam_parseParam s _ value hs.userParam, ?_⟩
  · rw [parseParam_url, hs.url]
  · intro v hv
    rcases values_parseParam s _ value v hv with rfl | hv
    · exact hvalue
    · exact hs.values_semi v hv
  · intro v hv
    rcases values_parseParam s _ value v hv with rfl | hv
    · exact hvaluemem
    · exact hs.values_mem v hv
  · rcases hname with h | ⟨-, h⟩ <;> rw [h]
    · exact hs.name_mem
    · exact fun c hc => hkeymem c (mem_of_mem_removeSpaces hc)
  · rcases hname with h | ⟨-, h⟩ <;> rw [h]
    · exact hs.name_equal
    · exact fun hc => hkey (mem_of_mem_removeSpaces hc)
  · rcases hname with h | ⟨-, h⟩ <;> rw [h]
    · exact hs.name_trimmed
    · exact trimmedOfSpaces_removeSpaces key
  · rcases hname with h | ⟨hnew, h⟩ <;> rw [h]
    · exact hs.name_key
    · exact hnew
  · obtain ⟨app, happ, hhead, hmem⟩ := hs.userInfo
    rcases userInfo_parseParam s (removeSpaces key) value with h | h
    · exact ⟨app, h.trans happ, hhead, hmem⟩
    · refine ⟨app ++ ';' :: removeSpaces key ++ '=' :: value, ?_, ?_, ?_⟩
      · rw [h, happ]
        simp
      · right
        rcases hhead with rfl | hhead
        · rfl
        · rw [List.append_assoc, List.head?_append, hhead]
          rfl
      · intro c hc
        simp only [List.mem_append, List.mem_cons] at hc
        rcases hc with (hc | rfl | hc) | rfl | hc
        · exact hmem c hc
        · exact Or.inr (Or.inl rfl)
        · exact Or.inl (hkeymem c (mem_of_mem_removeSpaces hc))
        · exact Or.inr (Or.inr rfl)
        · exact Or.inl (hvaluemem c hc)

/-- The url before its parameters are read. -/
abbrev ofHost (scheme : Data) (EscObj : Option Data) (hp : HostPort) : SipUrl :=
  { schemeName := scheme, EscObj := EscObj, host := hp.host, port := hp.port }

theorem scanInv_start (scheme : Data) (e : Option Data) (hp : HostPort) (userInfo data : Data) :
    ScanInv ⟨ofHost scheme e hp, userInfo, false⟩ data ⟨ofHost scheme e hp, userInfo, false⟩ := by
  have hvalues : ∀ v ∈ (ofHost scheme e hp).values, v = [] := by simp [values]
  refine ⟨rfl, ?_, ?_, by simp, by simp, trimmedOfSpaces_nil,
    (by decide : ([] : Data) ∉ urlKeys), fun _ => rfl,
    [], (List.append_nil _).symm, Or.inl rfl, by simp⟩
  · intro v hv
    rw [hvalues v hv]
    exact List.not_mem_nil
  · intro v hv c hc
    rw [hvalues v hv] at hc
    cases hc

/-- What is read after the host. -/
theorem finish_spec {scheme : Data} {e : Option Data} {userValid : Bool} {userInfo : Data} {hp : HostPort}
    {u : SipUrl} (hquestion : '?' ∉ hp.rest)
    (h : finish { schemeName := scheme, EscObj := e } userValid userInfo hp = some u) :
    hp.hostValid = true ∧ (hp.portValid = true → hp.port.all isdigit = true) ∧
      ∃ s left, ScanInv ⟨ofHost scheme e hp, userInfo, false⟩ hp.rest s ∧
        (hp.rest = [] → left = [] ∧ s = ⟨ofHost scheme e hp, userInfo, false⟩) ∧
        u = { s.url with lrParam := decide (left = "lr".toList), user := makeUser s userValid } := by
  rw [finish] at h
  split at h
  · cases h
  rename_i hvalid
  split at h
  · cases h
  rename_i hport
  have hinv : ScanInv ⟨ofHost scheme e hp, userInfo, false⟩ hp.rest
      (parseParams hp.rest.length ⟨ofHost scheme e hp, userInfo, false⟩ hp.rest).1 :=
    parseParams_invariant hquestion (fun s key value hkey hvalue hkeymem hvaluemem hs =>
      hs.step hkey hvalue hkeymem hvaluemem) (fun c hc => hc) (scanInv_start scheme e hp userInfo hp.rest)
  have hrest : hp.rest = [] →
      parseParams hp.rest.length ⟨ofHost scheme e hp, userInfo, false⟩ hp.rest =
        (⟨ofHost scheme e hp, userInfo, false⟩, []) := by
    intro hnil
    rw [hnil]
    rfl
  have hurl := Option.some.inj h
  simp only at hurl
  generalize parseParams hp.rest.length ⟨ofHost scheme e hp, userInfo, false⟩ hp.rest = r at hinv hrest hurl
  obtain ⟨s, left⟩ := r
  refine ⟨by simpa using hvalid, ?_, s, left, hinv, ?_, ?_⟩
  · intro hpv
    simpa [hpv] using hport
  · intro hnil
    have := hrest hnil
    exact ⟨congrArg Prod.snd this, congrArg Prod.fst this⟩
  · have hlr : s.url.lrParam = false := by
      rw [hinv.url]
    rw [← hurl, hlr, Bool.false_or]

/-! ### The whole url -/

/-- The character stands neither in the host nor in the parameters. -/
structure Avoids (c : Char) (u : SipUrl) : Prop where
  host : c ∉ u.host
  values : ∀ v ∈ u.values, c ∉ v
  name : c ∉ u.otherName

/-- Nothing is written after the host. -/
structure Bare (u : SipUrl) : Prop where
  port : u.port = []
  values : ∀ v ∈ u.values, v = []
  lrParam : u.lrParam = false
  telText : u.telText = []

/-- What holds of every url that was read. -/
structure Decoded (u : SipUrl) : Prop where
  scheme : isEqualNoCase u.schemeName "sip".toList = true
  passwd : u.passwd = []
  headers : u.headers = []
  ipv6Addr : u.ipv6Addr = false
  port : u.port.all isdigit = true
  question : u.Avoids '?'
  values : ∀ v ∈ u.values, ';' ∉ v
  name_equal : '=' ∉ u.otherName
  name_trimmed : TrimmedOfSpaces u.otherName
  name_key : u.otherName ∉ urlKeys
  host : Bracketed u.host ∨ Plain u.host
  host_nil : u.host = [] → u.Bare
  unbracketed : ¬Bracketed u.host → u.Avoids '[' ∨ (u.user ≠ none ∧ u.Bare)
  no_user : u.user = none → u.Avoids '@'
  sip_user : ∀ t, u.user = some (.sipUser t) →
    t.head? ≠ some ':' ∧ '?' ∉ t ∧ (u.userParam = [] ∨ u.userParam = "ip".toList)
  tel_user : ∀ t, u.user = some (.telUser t) →
    t.Decoded ∧ t.encode.head? ≠ some ':' ∧ t.Avoids '?' ∧ u.userParam ≠ "ip".toList

theorem makeUser_cases (s : Scan) (userValid : Bool) :
    (userValid = false ∧ makeUser s userValid = none) ∨
    (userValid = true ∧ (s.userParamValid = false ∨ s.url.userParam = "ip".toList) ∧
      makeUser s userValid = some (.sipUser s.userInfo)) ∨
    (userValid = true ∧ s.userParamValid = true ∧ s.url.userParam ≠ "ip".toList ∧
      makeUser s userValid = some (.telUser (.decode s.userInfo))) := by
  rw [makeUser]
  cases userValid with
  | false => exact Or.inl ⟨rfl, rfl⟩
  | true =>
    rw [if_pos rfl]
    by_cases hsip : (!s.userParamValid || decide (s.url.userParam = "ip".toList)) = true
    · rw [if_pos hsip]
      rw [Bool.or_eq_true, Bool.not_eq_true', decide_eq_true_eq] at hsip
      exact Or.inr (Or.inl ⟨rfl, hsip, rfl⟩)
    · rw [if_neg hsip]
      rw [Bool.or_eq_true, Bool.not_eq_true', decide_eq_true_eq, not_or, Bool.not_eq_false] at hsip
      exact Or.inr (Or.inr ⟨rfl, hsip.1, hsip.2, rfl⟩)

theorem makeUser_eq_none {s : Scan} {userValid : Bool} (h : makeUser s userValid = none) :
    userValid = false := by
  rcases makeUser_cases s userValid with ⟨hv, -⟩ | ⟨-, -, hu⟩ | ⟨-, -, -, hu⟩
  · exact hv
  · rw [hu] at h
    cases h
  · rw [hu] at h
    cases h

theorem makeUser_eq_sipUser {s : Scan} {userValid : Bool} {t : Data} (h : makeUser s userValid = some (.sipUser t)) :
    t = s.userInfo ∧ (s.userParamValid = false ∨ s.url.userParam = "ip".toList) := by
  rcases makeUser_cases s userValid with ⟨-, hu⟩ | ⟨-, hparam, hu⟩ | ⟨-, -, -, hu⟩
  · rw [h] at hu
    cases hu
  · rw [h, Option.some.injEq, BaseUser.sipUser.injEq] at hu
    exact ⟨hu, hparam⟩
  · rw [h] at hu
    cases hu

theorem makeUser_eq_telUser {s : Scan} {userValid : Bool} {t : SipTelSubscriberUser}
    (h : makeUser s userValid = some (.telUser t)) : t = .decode s.userInfo ∧ s.url.userParam ≠ "ip".toList := by
  rcases makeUser_cases s userValid with ⟨-, hu⟩ | ⟨-, -, hu⟩ | ⟨-, -, hparam, hu⟩
  · rw [h] at hu
    cases hu
  · rw [h] at hu
    cases hu
  · rw [h, Option.some.injEq, BaseUser.telUser.injEq] at hu
    exact ⟨hu, hparam⟩

theorem ScanInv.userInfo_clean {s₀ s : Scan} {data : Data} (hs : ScanInv s₀ data s) (hdata : '?' ∉ data)
    (hinfo : s₀.userInfo.head? ≠ some ':' ∧ '?' ∉ s₀.userInfo) :
    s.userInfo.head? ≠ some ':' ∧ '?' ∉ s.userInfo := by
  obtain ⟨app, happ, happhead, happmem⟩ := hs.userInfo
  rw [happ]
  constructor
  · rw [List.head?_append]
    show (s₀.userInfo.head?.or app.head?) ≠ some ':'
    cases hhd : s₀.userInfo.head? with
    | some c =>
      rw [hhd] at hinfo
      exact hinfo.1
    | none =>
      rcases happhead with rfl | hsemi
      · simp
      · rw [hsemi]
        simp
  · rw [List.mem_append, not_or]
    refine ⟨hinfo.2, fun hc => ?_⟩
    rcases happmem _ hc with hc | hc | hc
    · exact hdata hc
    · cases hc
    · cases hc

theorem ScanInv.avoids {scheme : Data} {e : Option Data} {userValid lr : Bool} {userInfo d : Data} {hp : HostPort}
    {s : Scan} (hs : ScanInv ⟨ofHost scheme e hp, userInfo, false⟩ hp.rest s) (hhost : HostSpec userValid d hp)
    {c : Char} (hc : c ∉ d) : Avoids c { s.url with lrParam := lr, user := makeUser s userValid } := by
  have hhosteq : s.url.host = hp.host := by rw [hs.url]
  refine ⟨?_, ?_, ?_⟩
  · show c ∉ s.url.host
    rw [hhosteq]
    exact fun h => hc (hhost.host_mem c h)
  · exact fun v hv h => hc (hhost.rest_mem c (hs.values_mem v hv c h))
  · exact fun h => hc (hhost.rest_mem c (hs.name_mem c h))

theorem bare_ofHost {scheme : Data} {e : Option Data} {userInfo : Data} {hp : HostPort} (userValid : Bool)
    (hport : hp.port = []) :
    Bare { ofHost scheme e hp with
      lrParam := decide (([] : Data) = "lr".toList)
      user := makeUser ⟨ofHost scheme e hp, userInfo, false⟩ userValid } := by
  refine ⟨hport, by simp [values], (by decide : decide (([] : Data) = "lr".toList) = false), ?_⟩
  rcases makeUser_cases ⟨ofHost scheme e hp, userInfo, false⟩ userValid with ⟨-, hu⟩ | ⟨-, -, hu⟩ | ⟨-, hf, -⟩
  · simp [telText, hu]
  · simp [telText, hu, BaseUser.getTelParams]
  · cases hf

theorem decoded_finish {scheme : Data} {e : Option Data} {userValid : Bool} {userInfo d : Data} {hp : HostPort}
    {u : SipUrl} (hscheme : isEqualNoCase scheme "sip".toList = true) (hquestion : '?' ∉ d)
    (hhost : HostSpec userValid d hp) (hinfo : userInfo.head? ≠ some ':' ∧ '?' ∉ userInfo)
    (hnouser : userValid = false → '@' ∉ d)
    (h : finish { schemeName := scheme, EscObj := e } userValid userInfo hp = some u) : u.Decoded := by
  obtain ⟨hvalid, hdigits, s, left, hs, hempty, rfl⟩ :=
    finish_spec (fun hc => hquestion (hhost.rest_mem _ hc)) h
  have hurl := hs.url
  have hhosteq : s.url.host = hp.host := by rw [hurl]
  have hporteq : s.url.port = hp.port := by rw [hurl]
  have havoids : ∀ c, c ∉ d → Avoids c { s.url with lrParam := decide (left = "lr".toList), user := makeUser s userValid } :=
    fun c hc => hs.avoids hhost hc
  have hbare : hp.port = [] → hp.rest = [] →
      Bare { s.url with lrParam := decide (left = "lr".toList), user := makeUser s userValid } := by
    intro hport hrest
    obtain ⟨rfl, rfl⟩ := hempty hrest
    exact bare_ofHost userValid hport
  have hinfo' := hs.userInfo_clean (fun hc => hquestion (hhost.rest_mem _ hc)) hinfo
  refine ⟨?_, ?_, ?_, ?_, ?_, havoids '?' hquestion, hs.values_semi, hs.name_equal, hs.name_trimmed,
    hs.name_key, ?_, ?_, ?_, ?_, ?_, ?_⟩
  · show isEqualNoCase s.url.schemeName "sip".toList = true
    rw [hurl]
    exact hscheme
  · show s.url.passwd = []
    rw [hurl]
  · show s.url.headers = []
    rw [hurl]
  · show s.url.ipv6Addr = false
    rw [hurl]
  · show s.url.port.all isdigit = true
    rw [hporteq]
    cases hpv : hp.portValid with
    | true => exact hdigits hpv
    | false =>
      rw [hhost.port_invalid hpv]
      rfl
  · show Bracketed s.url.host ∨ Plain s.url.host
    rw [hhosteq]
    exact hhost.shape
  · intro hnil
    have hnil' : hp.host = [] := hhosteq.symm.trans hnil
    obtain ⟨hport, hrest⟩ := hhost.host_nil hnil' hvalid
    exact hbare hport hrest
  · intro hne
    have hne' : ¬Bracketed hp.host := by
      rw [← hhosteq]
      exact hne
    rcases hhost.unbracketed hne' with hbracket | ⟨huser, hport, hrest⟩
    · exact Or.inl (havoids '[' hbracket)
    · refine Or.inr ⟨?_, hbare hport hrest⟩
      intro hnone
      rw [makeUser_eq_none hnone] at huser
      cases huser
  · exact fun hnone => havoids '@' (hnouser (makeUser_eq_none hnone))
  · intro t ht
    obtain ⟨rfl, hparam⟩ := makeUser_eq_sipUser ht
    exact ⟨hinfo'.1, hinfo'.2, hparam.imp_left hs.userParam⟩
  · intro t ht
    obtain ⟨rfl, hparam⟩ := makeUser_eq_telUser ht
    refine ⟨SipTelSubscriberUser.decoded_decode _, ?_, SipTelSubscriberUser.avoids_decode hinfo'.2, hparam⟩
    intro hhead
    exact hinfo'.1 (SipTelSubscriberUser.head?_encode_decode (by decide) hhead)

/-- Every url that is read satisfies the invariant. -/
theorem decoded_of_decodeBody {e : Option Data} {body : Data} {u : SipUrl} (hquestion : '?' ∉ body)
    (h : decodeBody e body = some u) : u.Decoded := by
  rw [decodeBody] at h
  rcases parse_cases body ':' with ⟨-, hparse⟩ | ⟨scheme, rest, -, heq, hparse⟩
  · rw [hparse] at h
    cases h
  rw [hparse] at h
  simp only at h
  split at h
  · cases h
  rename_i hscheme
  have hscheme' : isEqualNoCase scheme "sip".toList = true := by simpa using hscheme
  generalize hbody : rest.dropWhile (isIn · [':']) = body' at h
  have hhead : body'.head? ≠ some ':' := by
    rw [← hbody]
    exact head?_dropWhile_isIn
  have hq : '?' ∉ body' := by
    intro hc
    rw [← hbody] at hc
    apply hquestion
    rw [heq]
    exact List.mem_append_right _ (List.mem_cons_of_mem _ (mem_of_mem_dropWhile hc))
  rcases matchChar_cases body' '@' with ⟨hat, hmatch⟩ | ⟨userInfo, rest', -, rfl, hmatch⟩
  · rw [hmatch] at h
    obtain ⟨hp, hhp, h⟩ := Option.bind_eq_some_iff.mp h
    exact decoded_finish hscheme' hq (parseHostPort_spec hhp) ⟨by simp, by simp⟩ (fun _ => hat) h
  · rw [hmatch] at h
    obtain ⟨hp, hhp, h⟩ := Option.bind_eq_some_iff.mp h
    rw [List.mem_append, not_or, List.mem_cons, not_or] at hq
    refine decoded_finish hscheme' hq.2.2 (parseHostPort_spec hhp) ⟨?_, hq.1⟩ (fun hf => by cases hf) h
    intro hc
    apply hhead
    rw [List.head?_append, hc]
    rfl

theorem decoded_of_fastDecode {text : Data} {u : SipUrl} (h : fastDecode text = some u) : u.Decoded := by
  rw [fastDecode] at h
  rcases matchChar_cases text '?' with ⟨hquestion, hmatch⟩ | ⟨body, escData, hquestion, -, hmatch⟩
  · rw [hmatch] at h
    exact decoded_of_decodeBody hquestion h
  · rw [hmatch] at h
    obtain ⟨e, -, h⟩ := Option.bind_eq_some_iff.mp h
    exact decoded_of_decodeBody hquestion h

end SipUrl

end Vocal.Sip.Url
