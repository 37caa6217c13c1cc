import Vocal.Sip.Url.RoundTrip

/-!
# Urls that come back

`RoundTrips`: the text that is written for a url is accepted and gives an equal one. Two conditions decide it.
`Found` says that the reader finds the user and the host where they were written, `Kept` that the other fields
are kept; where they are found, a url comes back exactly when it is kept.
-/

namespace Vocal.Sip.Url.SipUrl

open Cut Data SipTelSubscriberUser

variable {u w : SipUrl}

/-- The text that is written is accepted, and read as an equal url. -/
def RoundTrips (u : SipUrl) : Prop := ∃ w, fastDecode u.encode = some w ∧ u.equals w = true

/-- The embedded headers, the user and the host are found again in the text. -/
structure Found (u : SipUrl) : Prop where
  embedded : ∀ e, u.EscObj = some e → (EmbeddedObj.fastDecode (e ++ u.telText)).isSome
  user : ∀ user, u.user = some user → removeSpaces user.encode ≠ [] ∧ '@' ∉ user.encode
  host : HostFound u.user.isSome u

/-- The port, the other parameter and the telephone number are kept. -/
structure Kept (u : SipUrl) : Prop where
  port : u.port ≠ "0".toList
  other : u.userParam = "phone".toList → u.otherParam = []
  tel : ∀ t, u.user = some (.telUser t) → u.userParam ≠ [] ∧ t.FutureWritable ∧
    (t.getTelParams ≠ [] → u.userParam = "phone".toList ∧ u.lrParam = false ∧ u.EscObj = none)

/-! ### Reading the text -/

/-- The text of the user. -/
def userInfo (u : SipUrl) : Data := (u.user.map BaseUser.encode).getD []

theorem question_not_mem_body (hu : u.Decoded) : '?' ∉ u.body := by
  have huser : '?' ∉ u.userText := by
    cases huser : u.user with
    | none =>
      rw [userText_none huser]
      exact List.not_mem_nil
    | some user =>
      by_cases hblank : removeSpaces user.encode = []
      · have hnil : u.userText = [] := by simp [userText, huser, hblank]
        rw [hnil]
        exact List.not_mem_nil
      · rw [userText_eq hu huser hblank, List.mem_append, not_or]
        exact ⟨(user_text hu huser).2, by decide⟩
  have htel : ∀ i ∈ u.telParams, '?' ∉ i.1 ∧ '?' ∉ i.2 := by
    intro i hi
    exact (mem_extraParams hu (List.mem_append_right _ hi)).2
  have htail : '?' ∉ u.tailText := not_mem_tailText (by decide) (by decide) (by decide) hu.question htel
  rw [body, List.mem_append, List.mem_cons, List.mem_append, List.mem_append, List.mem_append]
  rintro (h | h | ((h | h) | h) | h)
  · exact (colon_not_mem_scheme hu.scheme).2 h
  · exact absurd h (by decide)
  · exact huser h
  · exact hu.question.host h
  · exact not_mem_portText hu (by decide) (by decide) h
  · exact htail h

theorem decodeBody_found (hu : u.Decoded) (hfound : u.Found) (e : Option Data) :
    decodeBody e u.body = some (u.reread e u.user.isSome u.userInfo) := by
  have hhost := hfound.host
  rw [← finish_text hu]
  cases huser : u.user with
  | none =>
    rw [huser] at hhost
    rw [decodeBody_no_user hu e huser hhost, userInfo, huser]
    rfl
  | some user =>
    rw [huser] at hhost
    obtain ⟨hblank, hat⟩ := hfound.user user huser
    rw [decodeBody_user hu e huser hblank hat hhost, userInfo, huser]
    rfl

theorem fastDecode_found (hu : u.Decoded) (hfound : u.Found) :
    ∃ e, fastDecode u.encode = some (u.reread e u.user.isSome u.userInfo) := by
  have hbody := question_not_mem_body hu
  rw [encode_eq hu]
  cases hesc : u.EscObj with
  | none =>
    refine ⟨none, ?_⟩
    simp only [List.append_nil]
    rw [fastDecode, matchChar_not_found hbody]
    exact decodeBody_found hu hfound none
  | some e =>
    obtain ⟨e', he'⟩ := Option.isSome_iff_exists.mp (hfound.embedded e hesc)
    refine ⟨some e', ?_⟩
    rw [fastDecode, matchChar_found hbody]
    simp only [he', Option.bind_some]
    exact decodeBody_found hu hfound (some e')

/-! ### Comparing -/

theorem isEqualNoCase_self (d : Data) : isEqualNoCase d d = true := by simp [isEqualNoCase]

theorem isEqualNoCase_nil_iff {d : Data} : isEqualNoCase d [] = true ↔ d = [] := by simp [isEqualNoCase]

theorem foldl_readParam_url (items : List (Data × Data)) (s : Scan) :
    (items.foldl readParam s).url.schemeName = s.url.schemeName ∧
    (items.foldl readParam s).url.passwd = s.url.passwd ∧ (items.foldl readParam s).url.host = s.url.host ∧
    (items.foldl readParam s).url.port = s.url.port ∧
    (items.foldl readParam s).url.headers = s.url.headers := by
  induction items generalizing s with
  | nil => exact ⟨rfl, rfl, rfl, rfl, rfl⟩
  | cons i items ih =>
    have hstep := parseParam_url s (removeSpaces i.1) i.2
    obtain ⟨h₁, h₂, h₃, h₄, h₅⟩ := ih (readParam s i)
    rw [List.foldl_cons, h₁, h₂, h₃, h₄, h₅, readParam, hstep]
    exact ⟨rfl, rfl, rfl, rfl, rfl⟩

theorem writtenPort_iff (u : SipUrl) :
    orDefault u.port "5060".toList = orDefault u.writtenPort "5060".toList ↔ u.port ≠ "0".toList := by
  rw [writtenPort]
  by_cases hzero : u.port = "0".toList
  · rw [if_pos hzero, hzero]
    decide
  · rw [if_neg hzero]
    exact iff_of_true rfl hzero

theorem equals_reread_iff (hu : u.Decoded) (e : Option Data) (userValid : Bool) (info : Data) :
    u.equals (u.reread e userValid info) = true ↔
      u.user = makeUser (u.finalScan e info) userValid ∧
      isEqualNoCase u.ttlParam (u.finalScan e info).url.ttlParam = true ∧
      u.maddrParam = (u.finalScan e info).url.maddrParam ∧
      isEqualNoCase u.userParam (u.finalScan e info).url.userParam = true ∧
      u.methodParam = (u.finalScan e info).url.methodParam ∧
      isEqualNoCase u.otherParam (u.finalScan e info).url.otherParam = true ∧
      u.port ≠ "0".toList ∧
      orDefault u.transportParam "udp".toList =
        orDefault (u.finalScan e info).url.transportParam "udp".toList := by
  obtain ⟨hscheme, hpasswd, hhost, hport, hheaders⟩ := foldl_readParam_url
    (if u.lrParam then markLr u.extraParams else u.extraParams)
    (knownScan u (ofHost u.schemeName e u.writtenHost) info)
  rw [← finalScan] at hscheme hpasswd hhost hport hheaders
  have hscheme' : (u.reread e userValid info).schemeName = u.schemeName := hscheme
  have hpasswd' : (u.reread e userValid info).passwd = u.passwd := hpasswd.trans hu.passwd.symm
  have hhost' : (u.reread e userValid info).host = u.host := hhost
  have hport' : (u.reread e userValid info).port = u.writtenPort := hport
  have hheaders' : (u.reread e userValid info).headers = u.headers := hheaders.trans hu.headers.symm
  rw [equals, hscheme', hpasswd', hhost', hport', hheaders']
  simp only [Bool.and_eq_true, decide_eq_true_eq, isEqualNoCase_self, and_true, writtenPort_iff, and_assoc]
  simp only [reread]

/-! ### Urls that are kept -/

theorem telItems_eq_nil_iff {t : SipTelSubscriberUser} : t.telItems = [] ↔ t.getTelParams = [] := by
  rw [getTelParams_eq]
  constructor
  · intro hnil
    rw [hnil]
    rfl
  · intro hnil
    cases hitems : t.telItems with
    | nil => rfl
    | cons i items => simp [hitems, sect] at hnil

theorem mem_telParams {i : Data × Data} (hi : i ∈ u.telParams) :
    ∃ t, u.user = some (.telUser t) ∧ u.EscObj = none ∧ i ∈ t.telItems := by
  rw [telParams] at hi
  split at hi
  · rename_i t huser hesc
    exact ⟨t, huser, hesc, hi⟩
  · exact absurd hi List.not_mem_nil

namespace Kept

theorem of_mem_telParams (hk : u.Kept) {i : Data × Data} (hi : i ∈ u.telParams) :
    u.userParam = "phone".toList ∧ u.lrParam = false ∧ removeSpaces i.1 ∉ urlKeys := by
  obtain ⟨t, huser, -, hi⟩ := mem_telParams hi
  obtain ⟨-, hfuture, hparams⟩ := hk.tel t huser
  have hne : t.getTelParams ≠ [] := fun hnil => List.ne_nil_of_mem hi (telItems_eq_nil_iff.mpr hnil)
  obtain ⟨hphone, hlr, -⟩ := hparams hne
  refine ⟨hphone, hlr, ?_⟩
  rcases List.mem_append.mp hi with hi | hi
  · have hkey := (mem_knownItems hi).1
    have hurl : ∀ key ∈ telKeys, key ∉ urlKeys := by decide
    rw [removeSpaces_telKey hkey]
    exact hurl _ hkey
  · rcases hfuture with ⟨hname, -⟩ | ⟨-, -, htrimmed, hurl, -⟩
    · rw [futureItem, if_neg (not_not.mpr hname)] at hi
      exact absurd hi List.not_mem_nil
    · rw [mem_futureItem hi, removeSpaces_eq_self htrimmed]
      exact hurl

/-- With `user=phone`, what is read goes to the number. -/
theorem finalScan_phone (hk : u.Kept) (hphone : u.userParam = "phone".toList) (e : Option Data) (info : Data) :
    u.finalScan e info =
      { knownScan u (ofHost u.schemeName e u.writtenHost) info with
        userInfo := info ++ (passed u.telParams).flatMap sect } := by
  have hextra : u.extraParams = u.telParams := by
    rw [extraParams, hk.other hphone]
    rfl
  have hmarked : (if u.lrParam then markLr u.telParams else u.telParams) = u.telParams := by
    split
    · rename_i hlr
      cases htel : u.telParams with
      | nil => rfl
      | cons i items =>
        have hfalse := (hk.of_mem_telParams (htel ▸ List.mem_cons_self ..)).2.1
        rw [hlr] at hfalse
        exact absurd hfalse (by decide)
    · rfl
  rw [finalScan, hextra, hmarked, foldl_readParam_phone (fun i hi => (hk.of_mem_telParams hi).2.2) hphone]
  rfl

theorem finalScan_other (hu : u.Decoded) (hk : u.Kept) (hphone : u.userParam ≠ "phone".toList) (e : Option Data)
    (info : Data) :
    ∃ name, u.finalScan e info =
      { knownScan u (ofHost u.schemeName e u.writtenHost) info with
        url := { (knownScan u (ofHost u.schemeName e u.writtenHost) info).url with
          otherName := name, otherParam := u.otherParam } } := by
  have htel : u.telParams = [] := by
    rw [List.eq_nil_iff_forall_not_mem]
    exact fun i hi => hphone (hk.of_mem_telParams hi).1
  have hextra : u.extraParams = item u.otherName u.otherParam := by rw [extraParams, htel, List.append_nil]
  have hone : ∀ name, removeSpaces name ∉ urlKeys →
      readParam (knownScan u (ofHost u.schemeName e u.writtenHost) info) (name, u.otherParam) =
        { knownScan u (ofHost u.schemeName e u.writtenHost) info with
          url := { (knownScan u (ofHost u.schemeName e u.writtenHost) info).url with
            otherName := removeSpaces name, otherParam := u.otherParam } } := by
    intro name hname
    rcases parseParam_cases (knownScan u (ofHost u.schemeName e u.writtenHost) info) (removeSpaces name)
      u.otherParam with ⟨h, -⟩ | ⟨-, h, -⟩ | ⟨-, -, h⟩
    · exact absurd h hname
    · exact absurd h hphone
    · exact h
  rw [finalScan, hextra, item]
  by_cases hnil : u.otherParam = []
  · refine ⟨[], ?_⟩
    rw [hnil]
    split <;> rfl
  · rw [if_pos hnil]
    split
    · exact ⟨_, hone _ (lr_not_mem_urlKeys u.otherName)⟩
    · refine ⟨_, hone u.otherName ?_⟩
      rw [removeSpaces_eq_self hu.name_trimmed]
      exact hu.name_key

theorem telParams_eq (hk : u.Kept) {t : SipTelSubscriberUser} (huser : u.user = some (.telUser t)) :
    u.telParams = t.telItems := by
  cases hesc : u.EscObj with
  | none => simp only [telParams, huser, hesc]
  | some e =>
    have hnil : t.getTelParams = [] := by
      by_contra hne
      have hnone := ((hk.tel t huser).2.2 hne).2.2
      rw [hesc] at hnone
      exact absurd hnone (by simp)
    rw [telItems_eq_nil_iff.mpr hnil]
    simp only [telParams, huser, hesc]

theorem makeUser_finalScan (hu : u.Decoded) (hk : u.Kept) (e : Option Data) :
    u.user = makeUser (u.finalScan e u.userInfo) u.user.isSome := by
  cases huser : u.user with
  | none => simp [makeUser]
  | some user =>
    rw [userInfo, huser, Option.map_some, Option.getD_some, Option.isSome_some]
    cases user with
    | sipUser t =>
      obtain ⟨-, -, hparam⟩ := hu.sip_user t huser
      have hphone : u.userParam ≠ "phone".toList := by
        rcases hparam with h | h
        · rw [h]
          decide
        · rw [h]
          decide
      obtain ⟨name, hscan⟩ := hk.finalScan_other hu hphone e t
      rw [BaseUser.encode, hscan, makeUser, if_pos rfl, if_pos]
      · rfl
      · rcases hparam with h | h
        · simp [knownScan, h]
        · simp [knownScan, h]
    | telUser t =>
      obtain ⟨ht, -, -, hip⟩ := hu.tel_user t huser
      obtain ⟨hparam, hfuture, htel⟩ := hk.tel t huser
      have hown := (decode_own_text_iff ht).mpr hfuture
      have hinfo : (u.finalScan e t.encode).userInfo = t.encode ++ (passed t.telItems).flatMap sect := by
        by_cases hphone : u.userParam = "phone".toList
        · rw [hk.finalScan_phone hphone, hk.telParams_eq huser]
        · obtain ⟨name, hscan⟩ := hk.finalScan_other hu hphone e t.encode
          have hnil : t.telItems = [] := by
            rw [telItems_eq_nil_iff]
            by_contra hne
            exact hphone (htel hne).1
          rw [hscan, hnil]
          simp [knownScan, passed]
      have hvalid : (u.finalScan e t.encode).userParamValid = true ∧
          (u.finalScan e t.encode).url.userParam = u.userParam := by
        by_cases hphone : u.userParam = "phone".toList
        · rw [hk.finalScan_phone hphone]
          exact ⟨decide_eq_true hparam, rfl⟩
        · obtain ⟨name, hscan⟩ := hk.finalScan_other hu hphone e t.encode
          rw [hscan]
          exact ⟨decide_eq_true hparam, rfl⟩
      have hnot : ¬(!(u.finalScan e t.encode).userParamValid ||
          (u.finalScan e t.encode).url.userParam = "ip".toList) = true := by
        rw [hvalid.1, hvalid.2, decide_eq_false hip]
        decide
      rw [BaseUser.encode, makeUser, if_pos rfl, if_neg hnot, hinfo, hown]

theorem equals_reread (hu : u.Decoded) (hk : u.Kept) (e : Option Data) :
    u.equals (u.reread e u.user.isSome u.userInfo) = true := by
  rw [equals_reread_iff hu]
  refine ⟨hk.makeUser_finalScan hu e, ?_⟩
  by_cases hphone : u.userParam = "phone".toList
  · rw [hk.finalScan_phone hphone]
    refine ⟨isEqualNoCase_self _, rfl, isEqualNoCase_self _, rfl, ?_, hk.port, rfl⟩
    rw [hk.other hphone]
    rfl
  · obtain ⟨name, hscan⟩ := hk.finalScan_other hu hphone e u.userInfo
    rw [hscan]
    exact ⟨isEqualNoCase_self _, rfl, isEqualNoCase_self _, rfl, isEqualNoCase_self _, hk.port, rfl⟩

end Kept

theorem roundTrips_of_kept (hu : u.Decoded) (hfound : u.Found) (hk : u.Kept) : u.RoundTrips := by
  obtain ⟨e, hread⟩ := fastDecode_found hu hfound
  exact ⟨_, hread, hk.equals_reread hu e⟩

/-! ### Urls that are not kept -/

theorem value_of_mem_telItems {t : SipTelSubscriberUser} {i : Data × Data} (hi : i ∈ t.telItems) : i.2 ≠ [] := by
  rcases List.mem_append.mp hi with hi | hi
  · exact (mem_knownItems hi).2.2
  · rw [futureItem] at hi
    split at hi
    · obtain ⟨rfl, hne⟩ := mem_item hi
      exact hne
    · exact absurd hi List.not_mem_nil

theorem value_of_mem_marked {i : Data × Data}
    (hi : i ∈ if u.lrParam then markLr u.extraParams else u.extraParams) : i.2 ≠ [] := by
  have hextra : ∀ j ∈ u.extraParams, j.2 ≠ [] := by
    intro j hj
    rcases List.mem_append.mp hj with hj | hj
    · obtain ⟨rfl, hne⟩ := mem_item hj
      exact hne
    · obtain ⟨t, -, -, hj⟩ := mem_telParams hj
      exact value_of_mem_telItems hj
  split at hi
  · rcases mem_markLr hi with hi | ⟨j, hj, rfl⟩
    · exact hextra i hi
    · exact hextra j hj
  · exact hextra i hi

theorem userParam_foldl {items : List (Data × Data)} (hvalues : ∀ i ∈ items, i.2 ≠ []) {s : Scan}
    (hs : s.userParamValid = true → s.url.userParam ≠ []) :
    (items.foldl readParam s).userParamValid = true → (items.foldl readParam s).url.userParam ≠ [] := by
  induction items generalizing s with
  | nil => exact hs
  | cons i items ih =>
    rw [List.foldl_cons]
    apply ih fun j hj => hvalues j (List.mem_cons_of_mem _ hj)
    have hvalue := hvalues i (List.mem_cons_self ..)
    rw [readParam, parseParam]
    split
    · exact fun _ => hvalue
    split
    · exact hs
    split
    · exact hs
    split
    · exact hs
    split
    · exact hs
    rw [if_pos rfl]
    split <;> exact hs

theorem telItems_of_decode_encode {t : SipTelSubscriberUser} (ht : t.Decoded) (h : decode t.encode = t) :
    t.telItems = [] := by
  have hread := decode_passed ht (List.forall_mem_nil _) fun _ => List.forall_mem_nil _
  have hnone : ([] : List (Data × Data)).flatMap sect = [] := rfl
  rw [show passed [] = [] from rfl, hnone, List.append_nil, h] at hread
  rw [hread]
  rfl

theorem tel_of_equals (hu : u.Decoded) {e : Option Data} {t : SipTelSubscriberUser}
    (huser : u.user = some (.telUser t)) (hother : u.userParam = "phone".toList → u.otherParam = [])
    (hdecode : decode (u.finalScan e t.encode).userInfo = t) :
    t.FutureWritable ∧
      (t.getTelParams ≠ [] → u.userParam = "phone".toList ∧ u.lrParam = false ∧ u.EscObj = none) := by
  obtain ⟨ht, -, -, -⟩ := hu.tel_user t huser
  have hbare : decode t.encode = t → t.FutureWritable ∧
      (t.getTelParams ≠ [] → u.userParam = "phone".toList ∧ u.lrParam = false ∧ u.EscObj = none) := by
    intro h
    have hnil := telItems_of_decode_encode ht h
    constructor
    · rw [← decode_own_text_iff ht, hnil]
      simpa [passed] using h
    · exact fun hne => absurd (telItems_eq_nil_iff.mp hnil) hne
  have htame := tame_marked hu
  by_cases hphone : u.userParam = "phone".toList
  · have hinfo := (htame.foldl_phone (s := knownScan u (ofHost u.schemeName e u.writtenHost) t.encode) hphone).1
    have hextra : u.extraParams = u.telParams := by
      rw [extraParams, hother hphone]
      rfl
    rw [← finalScan, hextra] at hinfo
    rw [hinfo] at hdecode
    cases hesc : u.EscObj with
    | none =>
      have htel : u.telParams = t.telItems := by simp only [telParams, huser, hesc]
      rw [htel] at hdecode
      cases hlr : u.lrParam with
      | false =>
        rw [hlr] at hdecode
        exact ⟨(decode_own_text_iff ht).mp hdecode, fun _ => ⟨hphone, rfl, rfl⟩⟩
      | true =>
        rw [hlr] at hdecode
        have hnil : t.telItems = [] := by
          by_contra hne
          exact decode_markLr_ne ht hne hdecode
        refine ⟨?_, fun hne => absurd (telItems_eq_nil_iff.mp hnil) hne⟩
        rw [← decode_own_text_iff ht, hnil]
        rw [hnil] at hdecode
        exact hdecode
    | some e' =>
      have htel : u.telParams = [] := by simp only [telParams, huser, hesc]
      rw [htel] at hdecode
      rw [← hesc]
      apply hbare
      cases hlr : u.lrParam <;> simpa [hlr, passed, markLr, knownScan] using hdecode
  · have hinfo := htame.foldl_other (s := knownScan u (ofHost u.schemeName e u.writtenHost) t.encode) hphone
    rw [← finalScan] at hinfo
    rw [hinfo] at hdecode
    exact hbare hdecode

theorem kept_of_equals (hu : u.Decoded) (e : Option Data)
    (h : u.equals (u.reread e u.user.isSome u.userInfo) = true) : u.Kept := by
  rw [equals_reread_iff hu] at h
  obtain ⟨huser, -, -, hparam, -, hotherEq, hport, -⟩ := h
  have hother : u.userParam = "phone".toList → u.otherParam = [] := by
    intro hphone
    have hfinal := ((tame_marked hu).foldl_phone
      (s := knownScan u (ofHost u.schemeName e u.writtenHost) u.userInfo) hphone).2
    rw [← finalScan] at hfinal
    rw [hfinal] at hotherEq
    exact isEqualNoCase_nil_iff.mp hotherEq
  refine ⟨hport, hother, fun t ht => ?_⟩
  have hinfo : u.userInfo = t.encode := by rw [userInfo, ht, Option.map_some, Option.getD_some, BaseUser.encode]
  rw [ht, hinfo, Option.isSome_some] at huser
  rw [hinfo] at hparam
  rcases makeUser_cases (u.finalScan e t.encode) true with ⟨hfalse, -⟩ | ⟨-, -, hsip⟩ | ⟨-, hvalid, -, htel⟩
  · exact absurd hfalse (by decide)
  · rw [hsip] at huser
    exact absurd (Option.some.inj huser) (by simp)
  · rw [htel, Option.some.injEq, BaseUser.telUser.injEq] at huser
    refine ⟨?_, tel_of_equals hu ht hother huser.symm⟩
    intro hnil
    have hnot := userParam_foldl (fun i hi => value_of_mem_marked hi)
      (s := knownScan u (ofHost u.schemeName e u.writtenHost) t.encode) (by simp [knownScan]) hvalid
    rw [← finalScan] at hnot
    rw [hnil] at hparam
    exact hnot (by simpa [isEqualNoCase] using hparam)

/-! ### Round trips -/

/-- Every url that is read, and that is found and kept, comes back; and where it is found, it comes back only
if it is kept. -/
theorem sipUrl_roundTrips {text : Data} (h : fastDecode text = some u) :
    (u.Found → u.Kept → u.RoundTrips) ∧ (u.Found → u.RoundTrips → u.Kept) := by
  have hu := decoded_of_fastDecode h
  refine ⟨roundTrips_of_kept hu, fun hfound hback => ?_⟩
  obtain ⟨w, hread, hequals⟩ := hback
  obtain ⟨e, hread'⟩ := fastDecode_found hu hfound
  rw [hread', Option.some.injEq] at hread
  subst hread
  exact kept_of_equals hu e hequals

/-- The url of `sip:u@h:5061;transport=tcp;lr`. -/
def sampleUrl : SipUrl where
  user := some (.sipUser "u".toList)
  host := "h".toList
  port := "5061".toList
  transportParam := "tcp".toList
  lrParam := true

theorem sipUrl_roundTrips_sample :
    fastDecode "sip:u@h:5061;transport=tcp;lr".toList = some sampleUrl ∧ sampleUrl.RoundTrips := by
  have hread : fastDecode "sip:u@h:5061;transport=tcp;lr".toList = some sampleUrl := by decide
  refine ⟨hread, (sipUrl_roundTrips hread).1 ⟨?_, ?_, ?_⟩ ⟨?_, ?_, ?_⟩⟩
  · exact fun e he => absurd he (by simp [sampleUrl])
  · intro user huser
    have huser' : user = .sipUser "u".toList := (Option.some.inj huser).symm
    rw [huser']
    exact ⟨by decide, by decide⟩
  · exact .plain ⟨by decide, by decide⟩ (by decide) (by decide)
  · decide
  · exact fun hphone => absurd hphone (by decide)
  · exact fun t ht => absurd (Option.some.inj ht) (by simp)

/-- The other parameter is written behind `user=phone`, where it is taken for one of the number. -/
theorem not_sipUrl_roundTrips :
    ∃ u, fastDecode "sip:1@h;x=1;user=phone".toList = some u ∧ ¬ u.RoundTrips := by
  have hread : ∃ u, fastDecode "sip:1@h;x=1;user=phone".toList = some u ∧
      (fastDecode u.encode).all (fun w => !u.equals w) = true := by decide
  obtain ⟨u, hu, hback⟩ := hread
  refine ⟨u, hu, ?_⟩
  rintro ⟨w, hw, hequals⟩
  rw [hw, Option.all_some, hequals] at hback
  exact absurd hback (by decide)

end Vocal.Sip.Url.SipUrl
