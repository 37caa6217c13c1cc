import Vocal.Sip.Via.Decoded

/-!
# The Via header is read back

Which headers that were read are read back from the value `SipVia::encode` writes. The reader is run on
that value part by part: `parseHost_value` for the host and the port, `foldlM_parmTexts` for the
parameters. `viaRoundTrips_iff` gives the exact condition.
-/

namespace Vocal.Sip

open Cut Data

namespace SipViaHeader

variable {strict : Bool} {after : Data} {v w : SipViaHeader}

/-! ### The port -/

theorem mem_ofInt {p : Int} (hp : p ≠ -2 ^ 31) {c : Char} (hc : c ∈ Data.ofInt p) :
    isdigit c = true ∨ c = '-' := by
  rw [Data.ofInt] at hc
  split at hc
  · exact Or.inl (isdigit_of_mem_ofNat hc)
  · rcases List.mem_cons.mp hc with rfl | hc
    · exact Or.inr rfl
    · exact Or.inl (isdigit_of_mem_ofNat hc)

theorem Host.getPort_bounds (hv : v.Host) : -2 ^ 31 < v.getPort ∧ v.getPort < 2 ^ 31 := by
  obtain ⟨p, hlow, hhigh, hport⟩ := hv.port
  rw [getPort, hport]
  by_cases hmin : p = -2 ^ 31
  · rw [hmin, convertInt_ofInt_min]
    decide
  · rw [convertInt_ofInt (by omega) hhigh]
    omega

theorem Host.ofInt_getPort_iff (hv : v.Host) :
    Data.ofInt v.getPort = v.port ↔ v.port ≠ Data.ofInt (-2 ^ 31) := by
  obtain ⟨p, hlow, hhigh, hport⟩ := hv.port
  constructor
  · intro h hmin
    rw [getPort, hmin, convertInt_ofInt_min] at h
    exact absurd h (by decide +kernel)
  · intro hmin
    have hp : p ≠ -2 ^ 31 := by
      intro h
      rw [hport, h] at hmin
      exact hmin rfl
    rw [getPort, hport, convertInt_ofInt (by omega) hhigh]

theorem Host.not_mem_port (hv : v.Host) {c : Char} (hdigit : isdigit c = false) (hminus : c ≠ '-') :
    c ∉ Data.ofInt v.getPort := by
  intro hc
  rcases mem_ofInt hv.getPort_bounds.1.ne' hc with h | h
  · rw [hdigit] at h
    cases h
  · exact hminus h

/-! ### The host -/

/-- The host and the port as they are written. -/
def sentByText (v : SipViaHeader) : Data := v.host ++ ':' :: Data.ofInt v.getPort

theorem host_parseHostdata {u : SipViaHeader} (hu : u.host = []) {d : Data} (hd : d ≠ []) :
    (u.parseHostdata d).host = d ↔ ' ' ∉ d := by
  rcases parseHostdata_cases u d with ⟨hspace, heq⟩ | ⟨rest, hspace, heq⟩ | ⟨hspace, heq⟩
  · rw [heq]
    exact ⟨fun _ => hspace, fun _ => rfl⟩
  · rw [heq, hspace]
    simp
  · rw [heq, hu]
    exact ⟨fun h => absurd h.symm hd, fun h => absurd hspace h⟩

theorem parseHost_sentByText {u : SipViaHeader} (hv : v.Host) (hne : v.host ≠ [])
    (hbracket : v.host ≠ "]".toList) :
    u.parseHost after v.sentByText = (u.parseHostdata v.host).setPort v.getPort := by
  have hread : convertInt (Data.ofInt v.getPort) = v.getPort :=
    convertInt_ofInt hv.getPort_bounds.1 hv.getPort_bounds.2
  rw [parseHost, sentByText]
  rcases hv.shape with ⟨y, hhost, hy⟩ | ⟨hnone, hcolon⟩
  · have hy' : y ≠ [] := by
      rintro rfl
      exact hbracket hhost
    rw [hhost, List.append_assoc, List.singleton_append, match_found hy hy']
    have hcut : Data.matchChar (':' :: Data.ofInt v.getPort) (':' :: after) =
        some ([], ':', Data.ofInt v.getPort) := by
      simp [matchChar, cut, isIn]
    simp only [hcut, hread]
  · have hport : ']' ∉ v.host ++ ':' :: Data.ofInt v.getPort := by
      have := hv.not_mem_port (c := ']') (by decide) (by decide)
      simp [hnone, this]
    rw [match_not_found hport]
    simp only
    rw [match_found hcolon hne]
    simp only [hread]

theorem parseHost_value {name version transport : Data} (hv : v.Host) :
    (((ofProtocol name version transport).parseHost after v.sentByText).host = v.host ∧
      ((ofProtocol name version transport).parseHost after v.sentByText).port = v.port) ↔
    ' ' ∉ v.host ∧ v.host ≠ "]".toList ∧ (v.host = [] → v.port = "5060".toList) ∧
      v.port ≠ Data.ofInt (-2 ^ 31) := by
  by_cases hne : v.host = []
  · have hparse : (ofProtocol name version transport).parseHost after v.sentByText =
        ofProtocol name version transport := by
      have hport : ']' ∉ ':' :: Data.ofInt v.getPort := by
        have := hv.not_mem_port (c := ']') (by decide) (by decide)
        simp [this]
      rw [parseHost, sentByText, hne, List.nil_append, match_not_found hport]
      simp only
      rw [match_first]
    rw [hparse, hne]
    constructor
    · rintro ⟨-, hport⟩
      refine ⟨by simp, by simp, fun _ => hport.symm, ?_⟩
      rw [← hport]
      show "5060".toList ≠ Data.ofInt (-2 ^ 31)
      decide +kernel
    · rintro ⟨-, -, hport, -⟩
      exact ⟨rfl, (hport rfl).symm⟩
  by_cases hbracket : v.host = "]".toList
  · have hparse : (ofProtocol name version transport).parseHost after v.sentByText =
        ofProtocol name version transport := by
      have htext : v.sentByText = ']' :: ':' :: Data.ofInt v.getPort := by
        rw [sentByText, hbracket]
        rfl
      rw [parseHost, htext, match_first]
    rw [hparse, hbracket]
    constructor
    · rintro ⟨h, -⟩
      cases h
    · rintro ⟨-, h, -, -⟩
      exact absurd rfl h
  · rw [parseHost_sentByText hv hne hbracket]
    have hhost := host_parseHostdata (u := ofProtocol name version transport) rfl hne
    have hport := hv.ofInt_getPort_iff
    constructor
    · rintro ⟨h₁, h₂⟩
      exact ⟨hhost.mp h₁, hbracket, fun h => absurd h hne, hport.mp h₂⟩
    · rintro ⟨h₁, -, -, h₂⟩
      exact ⟨hhost.mpr h₁, hport.mpr h₂⟩

/-! ### The parameters -/

/-- The value of the branch parameter, with the comment. -/
def branchText (v : SipViaHeader) : Data :=
  v.branchToken ++ (if v.viaComment then '(' :: v.comment ++ [')'] else [])

/-- The parameters as they are written, each without its semicolon. -/
def parmTexts (v : SipViaHeader) : List Data :=
  (if v.viaHidden then [HIDDEN] else []) ++
  (if v.viaTtl then [TTL ++ '=' :: v.ttl] else []) ++
  (if v.rport then [RPORT ++ (if v.rportValue ≠ [] then '=' :: v.rportValue else [])] else []) ++
  (if v.viaMaddr then [MADDR_PARM ++ '=' :: v.maddr] else []) ++
  (if v.viaReceived then [RECEIVED ++ '=' :: v.receivedHost] else []) ++
  (if v.viaBranch then [BRANCH ++ '=' :: v.branchText] else [])

/-- A header with the parameters of another. -/
def withParms (u v : SipViaHeader) : SipViaHeader :=
  { u with
    viaHidden := v.viaHidden
    ttl := v.ttl
    viaTtl := v.viaTtl
    rport := v.rport
    rportValue := v.rportValue
    maddr := v.maddr
    viaMaddr := v.viaMaddr
    receivedHost := v.receivedHost
    viaReceived := v.viaReceived
    branchToken := v.branchToken
    viaBranch := v.viaBranch
    comment := v.comment
    viaComment := v.viaComment }

theorem parseViaParmsLoop_eq {u : SipViaHeader} {p : Data} {ps : List Data} {fuel : Nat}
    (hne : ∀ q ∈ p :: ps, q ≠ []) (hsemi : ∀ q ∈ p :: ps, ';' ∉ q)
    (hfuel : (p ++ ps.flatMap (';' :: ·)).length ≤ fuel) :
    parseViaParmsLoop strict fuel u (p ++ ps.flatMap (';' :: ·)) =
      (p :: ps).foldlM (parseViaParmHidden strict) u := by
  induction ps generalizing p u fuel with
  | nil =>
    have hp := hne p (List.mem_cons_self ..)
    have hpos := List.length_pos_iff.mpr hp
    rw [List.flatMap_nil, List.append_nil] at hfuel ⊢
    obtain ⟨fuel, rfl⟩ := Nat.exists_eq_add_of_lt (Nat.lt_of_lt_of_le hpos hfuel)
    rw [Nat.zero_add, parseViaParmsLoop, if_neg hp, match_not_found (hsemi p (List.mem_cons_self ..))]
    simp
  | cons q ps ih =>
    have hp := hne p (List.mem_cons_self ..)
    have hcons : p ++ (q :: ps).flatMap (';' :: ·) = p ++ ';' :: (q ++ ps.flatMap (';' :: ·)) := by
      simp
    rw [hcons, List.length_append, List.length_cons] at hfuel
    obtain ⟨fuel, rfl⟩ := Nat.exists_eq_add_of_lt (show 0 < fuel by omega)
    rw [hcons, Nat.zero_add, parseViaParmsLoop, if_neg (by simp),
      match_found (hsemi p (List.mem_cons_self ..)) hp, List.foldlM_cons]
    simp only
    refine Option.bind_congr fun u' _ => ?_
    exact ih (fun r hr => hne r (List.mem_cons_of_mem _ hr)) (fun r hr => hsemi r (List.mem_cons_of_mem _ hr))
      (by omega)

theorem parseViaParmHidden_eq {u : SipViaHeader} {key x : Data} (hkey : key ≠ []) (hequal : '=' ∉ key)
    (htrimmed : TrimmedOfSpaces key) (hx : x ≠ []) (hvalue : TrimmedOfSpaces x) :
    parseViaParmHidden strict u (key ++ '=' :: x) = parseViaParm strict u key x := by
  have htext : TrimmedOfSpaces (key ++ '=' :: x) := by
    rw [trimmedOfSpaces_iff] at htrimmed hvalue ⊢
    rw [head?_of_append hkey, getLast?_append_cons hx]
    exact ⟨htrimmed.1, hvalue.2⟩
  have hhidden : ¬isEqualNoCase (key ++ '=' :: x) HIDDEN = true := by
    intro h
    have hmap : (key ++ '=' :: x).map Char.toLower = HIDDEN.map Char.toLower := by
      simpa [isEqualNoCase] using h
    have hmem : '=' ∈ (key ++ '=' :: x).map Char.toLower :=
      List.mem_map.mpr ⟨'=', List.mem_append_right _ (List.mem_cons_self ..), by decide⟩
    rw [hmap] at hmem
    exact absurd hmem (by decide)
  rw [parseViaParmHidden, removeSpaces_eq_self htext, if_neg hhidden, match_found hequal hkey]
  simp only
  rw [if_pos hx, removeSpaces_eq_self htrimmed, removeSpaces_eq_self hvalue]

theorem foldlM_optional {u u' : SipViaHeader} {b : Bool} {x : Data}
    (hread : b = true → parseViaParmHidden strict u x = some u') (hnone : b = false → u' = u) :
    (if b then [x] else []).foldlM (parseViaParmHidden strict) u = some u' := by
  cases b with
  | true => simpa using hread rfl
  | false => simpa using (hnone rfl).symm

/-- A branch that is written last does not end in a space. -/
def Settled (v : SipViaHeader) : Prop := v.branchToken.getLast? = some ' ' → v.comment ≠ []

theorem trimmed_branchText (hv : v.Parms) (hsettled : v.Settled) (hbranch : v.branchToken ≠ []) :
    TrimmedOfSpaces v.branchText := by
  rw [trimmedOfSpaces_iff, branchText, head?_of_append hbranch]
  refine ⟨(hv.branch hbranch).head, ?_⟩
  by_cases hcomment : v.comment = []
  · rw [hv.viaComment, hcomment]
    simp only [ne_eq, not_true, decide_false, Bool.false_eq_true, if_false, List.append_nil]
    exact fun hlast => hsettled hlast hcomment
  · rw [hv.viaComment, if_pos (by simpa using hcomment), List.getLast?_append_of_ne_nil _ (by simp),
      List.getLast?_append_of_ne_nil _ (by simp)]
    simp

theorem parseBranch_branchText {u : SipViaHeader} (hv : v.Parms) (hsettled : v.Settled)
    (hbranch : v.branchToken ≠ []) (hu : u.comment = []) (hu' : u.viaComment = false) :
    u.parseBranch v.branchText =
      { u with
        branchToken := v.branchToken
        viaBranch := v.viaBranch
        comment := v.comment
        viaComment := v.viaComment } := by
  have hb := hv.branch hbranch
  rw [parseBranch, removeSpaces_eq_self (trimmed_branchText hv hsettled hbranch), branchText]
  by_cases hcomment : v.comment = []
  · rw [hv.viaComment, hv.viaBranch, hcomment]
    simp only [ne_eq, not_true, decide_false, Bool.false_eq_true, if_false, List.append_nil]
    rw [match_not_found hb.paren]
    simp [setBranch, hu, hu']
  · have hc := hv.comment hcomment
    rw [hv.viaComment, if_pos (by simpa using hcomment), List.cons_append, match_found hb.paren hbranch]
    simp only
    rw [match_found hc.paren hcomment]
    simp [setBranch, setComment, hu', hv.viaBranch, hcomment, hbranch]

theorem parseViaParmHidden_rport {u : SipViaHeader} (hv : v.Parms) (hrport : v.rport = true)
    (hu : u.rportValue = []) :
    parseViaParmHidden strict u (RPORT ++ (if v.rportValue ≠ [] then '=' :: v.rportValue else [])) =
      some { u with rport := v.rport, rportValue := v.rportValue } := by
  rw [hrport]
  by_cases hvalue : v.rportValue = []
  · rw [if_neg (by simpa using hvalue), List.append_nil, hvalue]
    have hread : parseViaParmHidden strict u RPORT = some { u with rport := true } := by
      rw [parseViaParmHidden, removeSpaces_eq_self (trimmedOfSpaces_iff.mpr (by decide)),
        if_neg (by decide), match_not_found (by decide)]
      simp only
      rw [removeSpaces_eq_self (trimmedOfSpaces_iff.mpr (by decide)), if_pos (by decide)]
    rw [hread, ← hu]
  · rw [if_pos hvalue, parseViaParmHidden_eq (by decide) (by decide)
      (trimmedOfSpaces_iff.mpr (by decide)) hvalue hv.rportValue.trimmed]
    rfl

theorem eq_nil_of_flag {flag : Bool} {x : Data} (h : flag = decide (x ≠ [])) (hfalse : flag = false) :
    x = [] := by
  simpa [hfalse] using h

theorem ne_nil_of_flag {flag : Bool} {x : Data} (h : flag = decide (x ≠ [])) (htrue : flag = true) :
    x ≠ [] := by
  simpa [htrue] using h

section stages

variable {u : SipViaHeader}

theorem foldlM_hidden (hu : u.viaHidden = false) :
    (if v.viaHidden then [HIDDEN] else []).foldlM (parseViaParmHidden strict) u =
      some { u with viaHidden := v.viaHidden } := by
  apply foldlM_optional
  · intro h
    rw [parseViaParmHidden, removeSpaces_eq_self (trimmedOfSpaces_iff.mpr (by decide)),
      if_pos (by decide), h]
  · intro h
    rw [h, ← hu]

theorem foldlM_ttl (hv : v.Parms) (hu : u.ttl = []) (hu' : u.viaTtl = false) :
    (if v.viaTtl then [TTL ++ '=' :: v.ttl] else []).foldlM (parseViaParmHidden strict) u =
      some { u with ttl := v.ttl, viaTtl := v.viaTtl } := by
  apply foldlM_optional
  · intro h
    have hne := ne_nil_of_flag hv.viaTtl h
    rw [parseViaParmHidden_eq (by decide) (by decide) (trimmedOfSpaces_iff.mpr (by decide)) hne
      hv.ttl.trimmed]
    simp [parseViaParm, show isEqualNoCase TTL MADDR_PARM = false by decide,
      show isEqualNoCase TTL RECEIVED = false by decide, show isEqualNoCase TTL TTL = true by decide,
      hv.ttl_range hne, setTtl, hne, h]
  · intro h
    rw [h, eq_nil_of_flag hv.viaTtl h, ← hu, ← hu']

theorem foldlM_rport (hv : v.Parms) (hu : u.rportValue = []) (hu' : u.rport = false) :
    (if v.rport then [RPORT ++ (if v.rportValue ≠ [] then '=' :: v.rportValue else [])]
      else []).foldlM (parseViaParmHidden strict) u =
      some { u with rport := v.rport, rportValue := v.rportValue } := by
  apply foldlM_optional
  · exact fun h => parseViaParmHidden_rport hv h hu
  · intro h
    have hvalue : v.rportValue = [] := by
      by_contra hne
      rw [hv.rport hne] at h
      cases h
    rw [h, hvalue, ← hu, ← hu']

theorem foldlM_maddr (hv : v.Parms) (hu : u.maddr = []) (hu' : u.viaMaddr = false) :
    (if v.viaMaddr then [MADDR_PARM ++ '=' :: v.maddr] else []).foldlM (parseViaParmHidden strict) u =
      some { u with maddr := v.maddr, viaMaddr := v.viaMaddr } := by
  apply foldlM_optional
  · intro h
    have hne := ne_nil_of_flag hv.viaMaddr h
    rw [parseViaParmHidden_eq (by decide) (by decide) (trimmedOfSpaces_iff.mpr (by decide)) hne
      hv.maddr.trimmed]
    simp [parseViaParm, show isEqualNoCase MADDR_PARM MADDR_PARM = true by decide, setMaddr, hne, h]
  · intro h
    rw [h, eq_nil_of_flag hv.viaMaddr h, ← hu, ← hu']

theorem foldlM_received (hv : v.Parms) (hu : u.receivedHost = []) (hu' : u.viaReceived = false) :
    (if v.viaReceived then [RECEIVED ++ '=' :: v.receivedHost] else []).foldlM
        (parseViaParmHidden strict) u =
      some { u with receivedHost := v.receivedHost, viaReceived := v.viaReceived } := by
  apply foldlM_optional
  · intro h
    have hne := ne_nil_of_flag hv.viaReceived h
    have hplain : bracketed v.receivedHost = v.receivedHost := by
      rw [bracketed, hv.received_plain, if_neg (by decide)]
    rw [parseViaParmHidden_eq (by decide) (by decide) (trimmedOfSpaces_iff.mpr (by decide)) hne
      hv.received.trimmed]
    simp [parseViaParm, show isEqualNoCase RECEIVED MADDR_PARM = false by decide,
      show isEqualNoCase RECEIVED RECEIVED = true by decide, setReceivedhost, hplain, hne, h]
  · intro h
    rw [h, eq_nil_of_flag hv.viaReceived h, ← hu, ← hu']

theorem foldlM_branch (hv : v.Parms) (hsettled : v.Settled)
    (hcomment : v.comment ≠ [] → v.branchToken ≠ []) (hu : u.branchToken = []) (hu' : u.viaBranch = false)
    (huc : u.comment = []) (huc' : u.viaComment = false) :
    (if v.viaBranch then [BRANCH ++ '=' :: v.branchText] else []).foldlM (parseViaParmHidden strict) u =
      some { u with
        branchToken := v.branchToken
        viaBranch := v.viaBranch
        comment := v.comment
        viaComment := v.viaComment } := by
  apply foldlM_optional
  · intro h
    have hne := ne_nil_of_flag hv.viaBranch h
    have htext : v.branchText ≠ [] := by
      rw [branchText]
      exact List.append_ne_nil_of_left_ne_nil hne _
    rw [parseViaParmHidden_eq (by decide) (by decide) (trimmedOfSpaces_iff.mpr (by decide)) htext
      (trimmed_branchText hv hsettled hne)]
    simp [parseViaParm, show isEqualNoCase BRANCH MADDR_PARM = false by decide,
      show isEqualNoCase BRANCH RECEIVED = false by decide, show isEqualNoCase BRANCH TTL = false by decide,
      show isEqualNoCase BRANCH BRANCH = true by decide, parseBranch_branchText hv hsettled hne huc huc']
  · intro h
    have hbranch := eq_nil_of_flag hv.viaBranch h
    have hnone : v.comment = [] := by
      by_contra hne
      exact hcomment hne hbranch
    have hflag : v.viaComment = false := by
      rw [hv.viaComment, hnone]
      rfl
    cases u
    simp only at hu hu' huc huc'
    rw [h, hbranch, hflag, hnone, hu, hu', huc, huc']

end stages

theorem foldlM_parmTexts {name version transport host port : Data} (hv : v.Parms) (hsettled : v.Settled)
    (hcomment : v.comment ≠ [] → v.branchToken ≠ []) :
    v.parmTexts.foldlM (parseViaParmHidden strict)
        { ofProtocol name version transport with host := host, port := port } =
      some (withParms { ofProtocol name version transport with host := host, port := port } v) := by
  simp only [parmTexts, List.foldlM_append, Option.bind_eq_bind]
  rw [foldlM_hidden rfl, Option.bind_some, foldlM_ttl hv rfl rfl, Option.bind_some,
    foldlM_rport hv rfl rfl, Option.bind_some, foldlM_maddr hv rfl rfl, Option.bind_some,
    foldlM_received hv rfl rfl, Option.bind_some, foldlM_branch hv hsettled hcomment rfl rfl rfl rfl]
  rfl

/-! ### The value -/

/-- The comment that stands right after the port. -/
def commentText (v : SipViaHeader) : Data :=
  if v.viaComment && !v.viaBranch then '(' :: v.comment ++ [')'] else []

theorem formOtherparms_eq (v : SipViaHeader) :
    v.formOtherparms = v.parmTexts.flatMap (';' :: ·) ++ v.commentText := by
  have hoptional : ∀ (b : Bool) (x : Data),
      (if b then [x] else []).flatMap (';' :: ·) = if b then ';' :: x else [] := by
    intro b x
    cases b <;> simp
  rw [formOtherparms, parmTexts]
  simp only [List.flatMap_append, hoptional, branchText, commentText]
  cases v.viaBranch <;> cases v.viaComment <;> simp

theorem parmTexts_ne_nil (v : SipViaHeader) : ∀ p ∈ v.parmTexts, p ≠ [] := by
  intro p hp
  simp only [parmTexts, List.mem_append, List.mem_ite_nil_right, List.mem_singleton] at hp
  rcases hp with ((((⟨-, rfl⟩ | ⟨-, rfl⟩) | ⟨-, rfl⟩) | ⟨-, rfl⟩) | ⟨-, rfl⟩) | ⟨-, rfl⟩
  · decide
  all_goals exact List.append_ne_nil_of_left_ne_nil (by decide) _

theorem semicolon_parmTexts (hv : v.Parms) : ∀ p ∈ v.parmTexts, ';' ∉ p := by
  have hvalue : ∀ {key x : Data}, ';' ∉ key → ';' ∉ x → ';' ∉ key ++ '=' :: x := by
    intro key x hkey hx
    simp [hkey, hx]
  intro p hp
  simp only [parmTexts, List.mem_append, List.mem_ite_nil_right, List.mem_singleton] at hp
  rcases hp with ((((⟨-, rfl⟩ | ⟨-, rfl⟩) | ⟨-, rfl⟩) | ⟨-, rfl⟩) | ⟨-, rfl⟩) | ⟨hbranch, rfl⟩
  · decide
  · exact hvalue (by decide) hv.ttl.semicolon
  · split
    · exact hvalue (by decide) hv.rportValue.semicolon
    · decide
  · exact hvalue (by decide) hv.maddr.semicolon
  · exact hvalue (by decide) hv.received.semicolon
  · apply hvalue (by decide)
    have hb := hv.branch (ne_nil_of_flag hv.viaBranch hbranch)
    rw [branchText]
    split
    · rename_i hcomment
      have hc := hv.comment (ne_nil_of_flag hv.viaComment hcomment)
      simp [hb.semicolon, hc.semicolon]
    · simpa using hb.semicolon

theorem commentText_eq_nil (hv : v.Decoded) (hparms : v.parmTexts ≠ []) : v.commentText = [] := by
  rw [commentText]
  split
  · rename_i h
    rw [Bool.and_eq_true, Bool.not_eq_true'] at h
    obtain ⟨hhidden, httl, hrport, hmaddr, hreceived, -⟩ := hv.comment_alone
      (ne_nil_of_flag hv.viaComment h.1) (eq_nil_of_flag hv.viaBranch h.2)
    apply absurd _ hparms
    simp [parmTexts, hhidden, hrport, hv.viaTtl, httl, hv.viaMaddr, hmaddr, hv.viaReceived, hreceived, h.2]
  · rfl

theorem not_mem_sentByText (hv : v.Host) {c : Char} (hhost : c ∉ v.host) (hcolon : c ≠ ':')
    (hdigit : isdigit c = false) (hminus : c ≠ '-') : c ∉ v.sentByText := by
  rw [sentByText, List.mem_append, List.mem_cons]
  rintro (h | h | h)
  · exact hhost h
  · exact hcolon h
  · exact hv.not_mem_port hdigit hminus h

theorem sentByText_ne_nil (v : SipViaHeader) : v.sentByText ≠ [] := by
  simp [sentByText]

theorem semicolon_sentByText (hv : v.Decoded) : ';' ∉ v.sentByText :=
  not_mem_sentByText hv.toHost hv.semicolon (by decide) (by decide) (by decide)

theorem foldlM_parmTexts_parseHost (strict : Bool) (after name version transport : Data) (hv : v.Decoded)
    (hsettled : v.Settled) (hcomment : v.comment ≠ [] → v.branchToken ≠ []) :
    v.parmTexts.foldlM (parseViaParmHidden strict)
        ((ofProtocol name version transport).parseHost after v.sentByText) =
      some (withParms ((ofProtocol name version transport).parseHost after v.sentByText) v) := by
  rw [parseHost_eq]
  exact foldlM_parmTexts hv.toParms hsettled hcomment

/-- A comment without a text is not the comment of a branch. -/
theorem branchToken_ne_nil_of_commentText (hv : v.Decoded) (htext : v.commentText = []) :
    v.comment ≠ [] → v.branchToken ≠ [] := by
  intro hne hbranch
  simp [commentText, hv.viaComment, hv.viaBranch, hne, hbranch] at htext

theorem parseSentBy_parms {name version transport : Data} (hv : v.Decoded) (hsettled : v.Settled)
    (hparms : v.parmTexts ≠ []) :
    parseSentBy strict after (ofProtocol name version transport)
        (v.sentByText ++ (v.parmTexts.flatMap (';' :: ·) ++ v.commentText)) =
      some (withParms ((ofProtocol name version transport).parseHost after v.sentByText) v) := by
  have hcomment := commentText_eq_nil hv hparms
  have hfold := foldlM_parmTexts_parseHost strict after name version transport hv hsettled
    (branchToken_ne_nil_of_commentText hv hcomment)
  obtain ⟨p, ps, hcons⟩ := List.exists_cons_of_ne_nil hparms
  have htexts : ∀ q ∈ p :: ps, q ≠ [] ∧ ';' ∉ q := by
    rw [← hcons]
    exact fun q hq => ⟨parmTexts_ne_nil v q hq, semicolon_parmTexts hv.toParms q hq⟩
  rw [hcons] at hfold
  rw [hcons, hcomment, List.append_nil, List.flatMap_cons, List.cons_append, parseSentBy,
    match_found (semicolon_sentByText hv) (sentByText_ne_nil v)]
  simp only
  rw [parseViaParms, parseViaParmsLoop_eq (fun q hq => (htexts q hq).1) (fun q hq => (htexts q hq).2) le_rfl]
  exact hfold

theorem parseSentBy_host {name version transport : Data} (hv : v.Decoded) (hsettled : v.Settled)
    (hparms : v.parmTexts = []) (hcomment : v.commentText = []) (hparen : '(' ∉ v.host) :
    parseSentBy strict after (ofProtocol name version transport) v.sentByText =
      some (withParms ((ofProtocol name version transport).parseHost after v.sentByText) v) := by
  have hopen : '(' ∉ v.sentByText :=
    not_mem_sentByText hv.toHost hparen (by decide) (by decide) (by decide)
  have hfold := foldlM_parmTexts_parseHost strict after name version transport hv hsettled
    (branchToken_ne_nil_of_commentText hv hcomment)
  rw [hparms, List.foldlM_nil] at hfold
  rw [parseSentBy, match_not_found (semicolon_sentByText hv)]
  simp only
  rw [match_not_found hopen]
  exact hfold

theorem parseSentBy_comment {name version transport : Data} (hv : v.Decoded) (hcomment : v.commentText ≠ []) :
    parseSentBy strict after (ofProtocol name version transport) (v.sentByText ++ v.commentText) =
      some (withParms ((ofProtocol name version transport).parseHost after v.sentByText) v) := by
  have hflags : v.viaComment = true ∧ v.viaBranch = false := by
    rw [commentText] at hcomment
    by_contra hne
    apply hcomment
    rw [if_neg (by simpa using hne)]
  have hne := ne_nil_of_flag hv.viaComment hflags.1
  have hbranch := eq_nil_of_flag hv.viaBranch hflags.2
  have hc := hv.comment hne
  obtain ⟨hhidden, httl, hrport, hmaddr, hreceived, hhost⟩ := hv.comment_alone hne hbranch
  have hrportValue : v.rportValue = [] := by
    by_contra h
    rw [hv.rport h] at hrport
    cases hrport
  have hopen : '(' ∉ v.sentByText :=
    not_mem_sentByText hv.toHost hhost (by decide) (by decide) (by decide)
  have htext : v.sentByText ++ v.commentText = v.sentByText ++ '(' :: (v.comment ++ [')']) := by
    simp [commentText, hflags]
  have hnosemi : ';' ∉ v.sentByText ++ v.commentText := by
    rw [htext]
    simp [semicolon_sentByText hv, hc.semicolon]
  rw [parseSentBy, match_not_found hnosemi]
  simp only
  rw [htext, match_found hopen (sentByText_ne_nil v)]
  simp only
  rw [match_found hc.paren hne, parseHost_eq]
  simp [withParms, setComment, hhidden, httl, hrport, hmaddr, hreceived, hrportValue, hbranch, hne,
    hv.viaTtl, hv.viaMaddr, hv.viaReceived, hv.viaBranch, hv.viaComment]

theorem parseSentBy_value {name version transport : Data} (hv : v.Decoded) (hsettled : v.Settled)
    (hparen : v.formOtherparms = [] → '(' ∉ v.host) :
    parseSentBy strict after (ofProtocol name version transport) (v.sentByText ++ v.formOtherparms) =
      some (withParms ((ofProtocol name version transport).parseHost after v.sentByText) v) := by
  rw [formOtherparms_eq] at hparen ⊢
  by_cases hparms : v.parmTexts = []
  · rw [hparms, List.flatMap_nil, List.nil_append] at hparen ⊢
    by_cases hcomment : v.commentText = []
    · rw [hcomment, List.append_nil]
      exact parseSentBy_host hv hsettled hparms hcomment (hparen hcomment)
    · exact parseSentBy_comment hv hcomment
  · exact parseSentBy_parms hv hsettled hparms

/-- A parenthesis in the host with nothing after the port is taken for a comment. -/
theorem host_ne_of_paren {name version transport : Data} (hv : v.Decoded) (hparen : '(' ∈ v.host)
    (h : parseSentBy strict after (ofProtocol name version transport) v.sentByText = some w) :
    w.host ≠ v.host := by
  have hsemi : ';' ∉ v.sentByText :=
    not_mem_sentByText hv.toHost hv.semicolon (by decide) (by decide) (by decide)
  have hread : ∀ x : Data, '(' ∉ x →
      ((ofProtocol name version transport).parseHost after x).host ≠ v.host := by
    intro x hx heq
    rw [← heq] at hparen
    rcases mem_host_parseHost hparen with hmem | hmem
    · cases hmem
    · exact hx hmem
  have hempty : ([] : Data) ≠ v.host := (List.ne_nil_of_mem hparen).symm
  rw [parseSentBy, match_not_found hsemi] at h
  simp only at h
  rcases match_cases v.sentByText '(' with ⟨hnone, -⟩ | ⟨rest, -, hmatch⟩ | ⟨x, rest, -, hx, -, hmatch⟩
  · exact absurd (List.mem_append_left _ hparen) hnone
  · rw [hmatch] at h
    rw [eq_of_throwUnless h]
    exact hempty
  · rw [hmatch] at h
    simp only at h
    rcases match_cases rest ')' with ⟨-, hmatch⟩ | ⟨rest', -, hmatch⟩ | ⟨c, rest', -, -, -, hmatch⟩
    · rw [hmatch] at h
      rw [eq_of_throwUnless h]
      exact hread x hx
    · rw [hmatch] at h
      rw [eq_of_throwUnless h]
      exact hread x hx
    · rw [hmatch] at h
      rw [← Option.some.inj h]
      exact hread x hx

/-! ### Spaces at the end -/

/-- The header whose branch is read back: spaces at the end of the value are lost. -/
def settle (v : SipViaHeader) : SipViaHeader :=
  { v with branchToken := if v.comment = [] then v.branchToken.rdropWhile (· = ' ') else v.branchToken }

theorem settle_branch_ne_nil (hv : v.Parms) (hbranch : v.branchToken ≠ []) : v.settle.branchToken ≠ [] := by
  rw [settle]
  simp only
  split
  · intro hnil
    rw [List.rdropWhile_eq_nil_iff] at hnil
    have hhead := (hv.branch hbranch).head
    obtain ⟨c, b, hcons⟩ := List.exists_cons_of_ne_nil hbranch
    rw [hcons] at hnil hhead
    have := hnil c (List.mem_cons_self ..)
    apply hhead
    simpa using this
  · exact hbranch

theorem settle_branch_append (v : SipViaHeader) :
    ∃ spaces : Data, (∀ c ∈ spaces, c = ' ') ∧ v.branchToken = v.settle.branchToken ++ spaces ∧
      (v.comment ≠ [] → spaces = []) := by
  rw [settle]
  simp only
  split
  · rename_i hcomment
    refine ⟨v.branchToken.rtakeWhile (· = ' '), ?_, (List.rdropWhile_append_rtakeWhile).symm,
      fun h => absurd hcomment h⟩
    intro c hc
    simpa using List.mem_rtakeWhile_imp hc
  · exact ⟨[], by simp, by simp, fun _ => rfl⟩

theorem settle_branch_eq_nil_iff (hv : v.Parms) : v.settle.branchToken = [] ↔ v.branchToken = [] := by
  constructor
  · intro h
    by_contra hne
    exact settle_branch_ne_nil hv hne h
  · intro h
    obtain ⟨spaces, -, heq, -⟩ := settle_branch_append v
    rw [h] at heq
    exact (List.append_eq_nil_iff.mp heq.symm).1

theorem decoded_settle (hv : v.Decoded) : v.settle.Decoded := by
  obtain ⟨spaces, -, heq, -⟩ := settle_branch_append v
  have hnil := settle_branch_eq_nil_iff hv.toParms
  have hsub : ∀ c ∈ v.settle.branchToken, c ∈ v.branchToken := by
    intro c hc
    rw [heq]
    exact List.mem_append_left _ hc
  refine { hv with branch := ?_, viaBranch := ?_, comment_alone := ?_ }
  · intro hne
    have hb := hv.branch (fun h => hne (hnil.mpr h))
    refine ⟨hne, fun h => hb.paren (hsub _ h), fun h => hb.semicolon (hsub _ h), ?_⟩
    have hhead := hb.head
    rwa [heq, head?_of_append hne] at hhead
  · rw [decide_eq_decide.mpr (not_congr hnil)]
    exact hv.viaBranch
  · exact fun hne hempty => hv.comment_alone hne (hnil.mp hempty)

theorem settled_settle (v : SipViaHeader) : v.settle.Settled := by
  intro hlast hcomment
  have hbranch : v.settle.branchToken = v.branchToken.rdropWhile (· = ' ') := if_pos hcomment
  rw [hbranch] at hlast
  have := getLast?_rdropWhile v.branchToken ' ' hlast
  simp at this

theorem settle_branch_iff : v.settle.branchToken = v.branchToken ↔ v.Settled := by
  constructor
  · intro h
    have := settled_settle v
    rwa [Settled, h] at this
  · intro h
    rw [settle]
    simp only
    split
    · rename_i hcomment
      apply rdropWhile_eq_self_of_getLast
      intro c hc
      rw [decide_eq_false_iff_not]
      rintro rfl
      exact h hc hcomment
    · rfl

/-- The parameters before the branch, as they are written. -/
def frontParms (v : SipViaHeader) : Data :=
  (if v.viaHidden then ';' :: HIDDEN else []) ++
  (if v.viaTtl then ';' :: TTL ++ '=' :: v.ttl else []) ++
  (if v.rport then ';' :: RPORT ++ (if v.rportValue ≠ [] then '=' :: v.rportValue else []) else []) ++
  (if v.viaMaddr then ';' :: MADDR_PARM ++ '=' :: v.maddr else []) ++
  (if v.viaReceived then ';' :: RECEIVED ++ '=' :: v.receivedHost else [])

theorem formOtherparms_settle (hv : v.Decoded) :
    ∃ spaces : Data, (∀ c ∈ spaces, c = ' ') ∧ v.formOtherparms = v.settle.formOtherparms ++ spaces := by
  obtain ⟨spaces, hspaces, heq, hcomment⟩ := settle_branch_append v
  have hv' : v.formOtherparms = v.frontParms ++
      (if v.viaBranch then ';' :: BRANCH ++ '=' :: v.branchToken else []) ++
      (if v.viaComment then '(' :: v.comment ++ [')'] else []) := rfl
  have hsettle : v.settle.formOtherparms = v.frontParms ++
      (if v.viaBranch then ';' :: BRANCH ++ '=' :: v.settle.branchToken else []) ++
      (if v.viaComment then '(' :: v.comment ++ [')'] else []) := rfl
  by_cases hbranch : v.viaBranch = true
  · refine ⟨spaces, hspaces, ?_⟩
    by_cases hne : v.comment = []
    · have hflag : v.viaComment = false := by
        rw [hv.viaComment, hne]
        rfl
      rw [hv', hsettle, hbranch, hflag, heq]
      simp
    · rw [hcomment hne, List.append_nil] at heq ⊢
      rw [hv', hsettle, heq]
  · refine ⟨[], by simp, ?_⟩
    rw [hv', hsettle, if_neg hbranch, if_neg hbranch]
    simp only [List.append_nil]

theorem getLast?_parmTexts (hv : v.Parms) (hsettled : v.Settled) :
    ∀ p ∈ v.parmTexts, p.getLast? ≠ some ' ' := by
  have hvalue : ∀ {key x : Data}, x ≠ [] → TrimmedOfSpaces x → (key ++ '=' :: x).getLast? ≠ some ' ' := by
    intro key x hx htrimmed
    rw [getLast?_append_cons hx]
    exact (trimmedOfSpaces_iff.mp htrimmed).2
  intro p hp
  simp only [parmTexts, List.mem_append, List.mem_ite_nil_right, List.mem_singleton] at hp
  rcases hp with ((((⟨-, rfl⟩ | ⟨h, rfl⟩) | ⟨-, rfl⟩) | ⟨h, rfl⟩) | ⟨h, rfl⟩) | ⟨h, rfl⟩
  · decide
  · exact hvalue (ne_nil_of_flag hv.viaTtl h) hv.ttl.trimmed
  · split
    · rename_i hne
      exact hvalue hne hv.rportValue.trimmed
    · decide
  · exact hvalue (ne_nil_of_flag hv.viaMaddr h) hv.maddr.trimmed
  · exact hvalue (ne_nil_of_flag hv.viaReceived h) hv.received.trimmed
  · have hbranch := ne_nil_of_flag hv.viaBranch h
    refine hvalue ?_ (trimmed_branchText hv hsettled hbranch)
    rw [branchText]
    exact List.append_ne_nil_of_left_ne_nil hbranch _

theorem getLast?_sentByText (hv : v.Host) : v.sentByText.getLast? ≠ some ' ' := by
  intro hlast
  have hport : Data.ofInt v.getPort ≠ [] := by
    rw [Data.ofInt]
    split
    · exact ofNat_ne_nil _
    · split <;> simp
  rw [sentByText, getLast?_append_cons hport] at hlast
  exact hv.not_mem_port (by decide) (by decide) (List.mem_of_mem_getLast? hlast)

theorem getLast?_value (hv : v.Decoded) (hsettled : v.Settled) :
    (v.sentByText ++ v.formOtherparms).getLast? ≠ some ' ' := by
  rw [formOtherparms_eq]
  by_cases hcomment : v.commentText = []
  · rw [hcomment, List.append_nil]
    rcases List.eq_nil_or_concat v.parmTexts with hparms | ⟨ps, p, hparms⟩
    · rw [hparms, List.flatMap_nil, List.append_nil]
      exact getLast?_sentByText hv.toHost
    · have hp : p ∈ v.parmTexts := by simp [hparms]
      have hlast := getLast?_parmTexts hv.toParms hsettled p hp
      have hflat : v.sentByText ++ v.parmTexts.flatMap (';' :: ·) =
          (v.sentByText ++ ps.flatMap (';' :: ·)) ++ ';' :: p := by
        simp [hparms]
      rw [hflat, getLast?_append_cons (parmTexts_ne_nil v p hp)]
      exact hlast
  · rw [← List.append_assoc, List.getLast?_append_of_ne_nil _ hcomment]
    rw [commentText] at hcomment ⊢
    split
    · rw [List.getLast?_append_of_ne_nil _ (by simp)]
      simp
    · rename_i h
      rw [if_neg h] at hcomment
      exact absurd rfl hcomment

/-! ### Round trip -/

theorem value_eq (v : SipViaHeader) :
    v.value = v.protocolName ++ '/' :: ("2.0".toList ++ '/' ::
      (v.transport ++ ' ' :: (v.sentByText ++ v.formOtherparms))) := by
  simp [value, sentByText]

theorem removeSpaces_rest (hv : v.Decoded) :
    Data.removeSpaces (v.transport ++ ' ' :: (v.sentByText ++ v.formOtherparms)) =
      v.transport ++ ' ' :: (v.settle.sentByText ++ v.settle.formOtherparms) := by
  obtain ⟨spaces, hspaces, heq⟩ := formOtherparms_settle hv
  have hrest : v.settle.sentByText ++ v.settle.formOtherparms ≠ [] :=
    List.append_ne_nil_of_left_ne_nil (sentByText_ne_nil _) _
  have htrimmed : TrimmedOfSpaces
      (v.transport ++ ' ' :: (v.settle.sentByText ++ v.settle.formOtherparms)) := by
    rw [trimmedOfSpaces_iff, head?_of_append hv.transport_ne_nil, getLast?_append_cons hrest]
    refine ⟨fun h => hv.transport_space (List.mem_of_mem_head? h), ?_⟩
    exact getLast?_value (decoded_settle hv) (settled_settle v)
  have htext : v.transport ++ ' ' :: (v.sentByText ++ v.formOtherparms) =
      (v.transport ++ ' ' :: (v.settle.sentByText ++ v.settle.formOtherparms)) ++ spaces := by
    rw [heq, show v.settle.sentByText = v.sentByText from rfl]
    simp
  rw [htext, Data.removeSpaces]
  exact trim_append_right htrimmed (fun c hc => by simpa using hspaces c hc) (by simp)

/-- The protocol is read back; what follows it is read without the spaces at the end. -/
theorem decode_value (hv : v.Decoded) (hname : v.protocolName ≠ []) :
    decode strict after v.value =
      parseSentBy strict after (ofProtocol v.protocolName "2.0".toList v.transport)
        (v.settle.sentByText ++ v.settle.formOtherparms) := by
  have htransport : TrimmedOfSpaces v.transport :=
    trimmedOfSpaces_iff.mpr ⟨fun h => hv.transport_space (List.mem_of_mem_head? h),
      fun h => hv.transport_space (List.mem_of_mem_getLast? h)⟩
  rw [decode, value_eq, if_neg (by simp), scanSipVia, match_found hv.name hname]
  simp only
  rw [match_found (by decide) (by decide)]
  simp only
  rw [parseRestVia, removeSpaces_rest hv, match_found hv.transport_space hv.transport_ne_nil]
  simp only
  rw [removeSpaces_eq_self htransport, removeSpaces_eq_self hv.name_trimmed]

/-- The header without the extension parameter, which is not written. -/
def withoutExtension (v : SipViaHeader) : SipViaHeader := { v with extparm := [], extvalue := [] }

/-- The header is read back from the value that is written for it. -/
def RoundTrips (strict : Bool) (after : Data) (v : SipViaHeader) : Prop :=
  ∃ w, decode strict after v.value = some w ∧ w.withoutExtension = v.withoutExtension

/-- The header is one that its text can show. -/
structure Writable (v : SipViaHeader) : Prop where
  name : v.protocolName ≠ []
  version : v.protocolVersion = "2.0".toList
  host_space : ' ' ∉ v.host
  host_bracket : v.host ≠ "]".toList
  host_nil : v.host = [] → v.port = "5060".toList
  host_paren : v.formOtherparms = [] → '(' ∉ v.host
  port : v.port ≠ Data.ofInt (-2 ^ 31)
  branch : v.Settled

theorem formOtherparms_eq_nil_iff (v : SipViaHeader) :
    v.formOtherparms = [] ↔ v.viaHidden = false ∧ v.viaTtl = false ∧ v.rport = false ∧
      v.viaMaddr = false ∧ v.viaReceived = false ∧ v.viaBranch = false ∧ v.viaComment = false := by
  simp [formOtherparms]

theorem formOtherparms_settle_eq_nil_iff (v : SipViaHeader) :
    v.settle.formOtherparms = [] ↔ v.formOtherparms = [] := by
  rw [formOtherparms_eq_nil_iff, formOtherparms_eq_nil_iff]
  rfl

theorem withParms_eq_iff :
    (withParms ((ofProtocol v.protocolName "2.0".toList v.transport).parseHost after v.sentByText)
        v.settle).withoutExtension = v.withoutExtension ↔
      v.protocolVersion = "2.0".toList ∧
      (((ofProtocol v.protocolName "2.0".toList v.transport).parseHost after v.sentByText).host = v.host ∧
        ((ofProtocol v.protocolName "2.0".toList v.transport).parseHost after v.sentByText).port = v.port) ∧
      v.Settled := by
  rw [← settle_branch_iff]
  generalize hread : (ofProtocol v.protocolName "2.0".toList v.transport).parseHost after v.sentByText = u
  have hu := parseHost_eq after (ofProtocol v.protocolName "2.0".toList v.transport) v.sentByText
  rw [hread] at hu
  constructor
  · intro h
    rw [hu] at h
    simp only [withParms, withoutExtension, SipViaHeader.mk.injEq] at h
    exact ⟨h.2.2.2.1.symm, ⟨h.1, h.2.1⟩, h.2.2.2.2.2.2.1⟩
  · rintro ⟨hversion, ⟨hhost, hport⟩, hbranch⟩
    rw [hu, hhost, hport]
    simp only [withParms, withoutExtension, hbranch, hversion]
    rfl

/-- Exactly the writable headers among those that were read are read back. -/
theorem viaRoundTrips_iff {text after' : Data} (h : decode strict after text = some v) :
    RoundTrips strict after' v ↔ Writable v := by
  have hv := decoded_of_decode h
  constructor
  · rintro ⟨w, hw, hsame⟩
    have hname : v.protocolName ≠ [] := by
      intro hname
      rw [decode, value_eq, hname, List.nil_append, if_neg (by simp), scanSipVia, match_first] at hw
      rw [eq_of_throwUnless hw] at hsame
      have := congrArg SipViaHeader.protocolName hsame
      rw [show v.withoutExtension.protocolName = v.protocolName from rfl, hname] at this
      exact absurd this (by decide)
    rw [decode_value hv hname] at hw
    have hparen : v.formOtherparms = [] → '(' ∉ v.host := by
      intro hnone hmem
      rw [(formOtherparms_settle_eq_nil_iff v).mpr hnone, List.append_nil] at hw
      have hhost : w.withoutExtension.host = v.withoutExtension.host := by
        rw [hsame]
      exact host_ne_of_paren (decoded_settle hv) hmem hw hhost
    rw [parseSentBy_value (decoded_settle hv) (settled_settle v)
      fun hnone => hparen ((formOtherparms_settle_eq_nil_iff v).mp hnone)] at hw
    rw [← Option.some.inj hw] at hsame
    obtain ⟨hversion, hsent, hbranch⟩ := withParms_eq_iff.mp hsame
    obtain ⟨hspace, hbracket, hnil, hport⟩ := (parseHost_value hv.toHost).mp hsent
    exact ⟨hname, hversion, hspace, hbracket, hnil, hparen, hport, hbranch⟩
  · intro hwritable
    have hread : decode strict after' v.value = some (withParms
        ((ofProtocol v.protocolName "2.0".toList v.transport).parseHost after' v.sentByText) v.settle) := by
      rw [decode_value hv hwritable.name]
      exact parseSentBy_value (decoded_settle hv) (settled_settle v)
        fun hnone => hwritable.host_paren ((formOtherparms_settle_eq_nil_iff v).mp hnone)
    refine ⟨_, hread, withParms_eq_iff.mpr ⟨hwritable.version, ?_, hwritable.branch⟩⟩
    exact (parseHost_value hv.toHost).mpr
      ⟨hwritable.host_space, hwritable.host_bracket, hwritable.host_nil, hwritable.port⟩

theorem viaRoundTrips_iff_branch :
    RoundTrips true [] { host := "h".toList, branchToken := "z9".toList, viaBranch := true } ↔
      Writable { host := "h".toList, branchToken := "z9".toList, viaBranch := true } := by
  have hread : decode true [] "SIP/2.0/UDP h;branch=z9".toList =
      some { host := "h".toList, branchToken := "z9".toList, viaBranch := true } := by
    decide +kernel
  exact viaRoundTrips_iff hread

/-- A header with spaces around the version is read, and not read back. -/
theorem not_roundTrips_spaced_version :
    ∃ v, decode true [] "SIP / 2.0 / UDP h".toList = some v ∧ ¬RoundTrips true [] v := by
  refine ⟨{ protocolVersion := " 2.0 ".toList, host := "h".toList }, by decide +kernel, ?_⟩
  rintro ⟨w, hw, hsame⟩
  have hread : decode true [] (value { protocolVersion := " 2.0 ".toList, host := "h".toList }) =
      some { host := "h".toList } := by
    decide +kernel
  rw [hread, Option.some.injEq] at hw
  rw [← hw] at hsame
  exact absurd hsame (by decide)

end SipViaHeader

end Vocal.Sip
