import Vocal.Sip.Text.Match
import Vocal.Sip.Via

/-!
# What the Via reader reads

`ParmStep` lists all that one parameter can do to a header. From it follows `Decoded`, the invariant of
every header that was read: which delimiters its texts do not hold, and which flags go with them.
-/

namespace Vocal.Sip

open Cut

namespace Data

/-- A text that a parameter can have as its value. -/
structure IsValue (d : Data) : Prop where
  trimmed : TrimmedOfSpaces d
  semicolon : ';' ∉ d

theorem isValue_nil : IsValue [] := ⟨trimmedOfSpaces_nil, by simp⟩

theorem isValue_removeSpaces {d : Data} (hd : ';' ∉ d) : IsValue d.removeSpaces :=
  ⟨trimmedOfSpaces_removeSpaces d, fun h => hd (mem_of_mem_removeSpaces h)⟩

theorem removeSpaces_ne_nil {d : Data} (hne : d ≠ []) (hlast : d.getLast? ≠ some ' ') :
    d.removeSpaces ≠ [] := by
  have hmem : d.getLast hne ∈ d := List.getLast_mem hne
  have hspace : d.getLast hne ≠ ' ' := by
    intro h
    apply hlast
    rw [List.getLast?_eq_some_getLast hne, h]
  have hkept : d.getLast hne ∈ d.removeSpaces := mem_trim_of_mem hmem (by simpa using hspace)
  exact List.ne_nil_of_mem hkept

theorem getLast?_append_cons {x rest : Data} {c : Char} (hrest : rest ≠ []) :
    (x ++ c :: rest).getLast? = rest.getLast? := by
  rw [List.getLast?_append_of_ne_nil _ (by simp), List.getLast?_cons_of_ne_nil hrest]

end Data

open Data

namespace SipViaHeader

variable {strict : Bool} {after : Data} {v w : SipViaHeader}

/-! ### One parameter -/

/-- A branch that is read. -/
structure IsBranch (b : Data) : Prop where
  ne_nil : b ≠ []
  paren : '(' ∉ b
  semicolon : ';' ∉ b
  head : b.head? ≠ some ' '

/-- A comment that is read. -/
structure IsComment (c : Data) : Prop where
  ne_nil : c ≠ []
  paren : ')' ∉ c
  semicolon : ';' ∉ c

/-- What a parameter does. -/
inductive ParmStep (v : SipViaHeader) : SipViaHeader → Prop
  | skip : ParmStep v v
  | hidden : ParmStep v { v with viaHidden := true }
  | rport : ParmStep v { v with rport := true }
  | maddr {x : Data} (hx : IsValue x) (hne : x ≠ []) : ParmStep v (v.setMaddr x)
  | received {x : Data} (hx : IsValue x) (hne : x ≠ []) : ParmStep v (v.setReceivedhost x)
  | ttl {x : Data} (hx : IsValue x) (hne : x ≠ []) (hrange : 0 ≤ convertInt x ∧ convertInt x ≤ 255) :
      ParmStep v (v.setTtl x)
  | rportValue {x : Data} (hx : IsValue x) (hne : x ≠ []) : ParmStep v (v.setRPort x)
  | branch {b : Data} (hb : IsBranch b) : ParmStep v (v.setBranch b)
  | comment {b c : Data} (hb : IsBranch b) (hc : IsComment c) : ParmStep v ((v.setBranch b).setComment c)
  | extension (p x : Data) : ParmStep v { v with extparm := p, extvalue := x }

theorem eq_of_throwUnless {α : Type} {a b : α} (h : throwUnless strict a = some b) : b = a := by
  rw [throwUnless] at h
  split at h
  · cases h
  · exact (Option.some.inj h).symm

theorem parmStep_parseBranch {x : Data} (hx : IsValue x) (hne : x ≠ []) : ParmStep v (v.parseBranch x) := by
  have hhead := (trimmedOfSpaces_iff.mp hx.trimmed).1
  rw [parseBranch, removeSpaces_eq_self hx.trimmed]
  rcases match_cases x '(' with ⟨hparen, hmatch⟩ | ⟨rest, -, hmatch⟩ | ⟨b, rest, hb, hparen, rfl, hmatch⟩
  · rw [hmatch]
    exact .branch ⟨hne, hparen, hx.semicolon, hhead⟩
  · rw [hmatch]
    exact .skip
  · have hbranch : IsBranch b := by
      refine ⟨hb, hparen, fun h => hx.semicolon (List.mem_append_left _ h), ?_⟩
      rwa [head?_of_append hb] at hhead
    rw [hmatch]
    simp only
    rcases match_cases rest ')' with ⟨-, hclose⟩ | ⟨rest', -, hclose⟩ | ⟨c, rest', hc, hcparen, rfl, hclose⟩
    · rw [hclose]
      exact .branch hbranch
    · rw [hclose]
      exact .branch hbranch
    · rw [hclose]
      refine .comment hbranch ⟨hc, hcparen, fun h => hx.semicolon ?_⟩
      exact List.mem_append_right _ (List.mem_cons_of_mem _ (List.mem_append_left _ h))

theorem parmStep_parseViaParm {p x : Data} (hx : IsValue x) (hne : x ≠ [])
    (h : parseViaParm strict v p x = some w) : ParmStep v w := by
  rw [parseViaParm] at h
  split at h
  · exact Option.some.inj h ▸ .maddr hx hne
  split at h
  · exact Option.some.inj h ▸ .received hx hne
  split at h
  · split at h
    · rename_i hrange
      exact Option.some.inj h ▸ .ttl hx hne hrange
    · exact eq_of_throwUnless h ▸ .skip
  split at h
  · exact Option.some.inj h ▸ parmStep_parseBranch hx hne
  split at h
  · exact Option.some.inj h ▸ .rportValue hx hne
  · exact Option.some.inj h ▸ .extension p x

theorem parmStep_parseViaParmHidden {data : Data} (hdata : ';' ∉ data)
    (h : parseViaParmHidden strict v data = some w) : ParmStep v w := by
  have hvalue := isValue_removeSpaces hdata
  rw [parseViaParmHidden] at h
  split at h
  · exact Option.some.inj h ▸ .hidden
  rcases match_cases data.removeSpaces '=' with ⟨-, hmatch⟩ | ⟨rest, -, hmatch⟩ |
    ⟨p, rest, -, -, heq, hmatch⟩
  · rw [hmatch] at h
    simp only at h
    split at h
    · exact Option.some.inj h ▸ .rport
    · exact eq_of_throwUnless h ▸ .skip
  · rw [hmatch] at h
    exact eq_of_throwUnless h ▸ .skip
  · rw [hmatch] at h
    simp only at h
    split at h
    · rename_i hrest
      have hlast := (trimmedOfSpaces_iff.mp hvalue.trimmed).2
      rw [heq, getLast?_append_cons hrest] at hlast
      refine parmStep_parseViaParm ?_ (removeSpaces_ne_nil hrest hlast) h
      apply isValue_removeSpaces
      intro hmem
      apply hvalue.semicolon
      rw [heq]
      exact List.mem_append_right _ (List.mem_cons_of_mem _ hmem)
    · exact Option.some.inj h ▸ .skip

/-! ### All parameters -/

theorem parseViaParmsLoop_invariant {P : SipViaHeader → Prop} (hstep : ∀ {v w}, P v → ParmStep v w → P w)
    {fuel : Nat} {data : Data} (hv : P v) (h : parseViaParmsLoop strict fuel v data = some w) : P w := by
  induction fuel generalizing v data with
  | zero => exact Option.some.inj h ▸ hv
  | succ fuel ih =>
    rw [parseViaParmsLoop] at h
    split at h
    · exact Option.some.inj h ▸ hv
    rcases match_cases data ';' with ⟨hdata, hmatch⟩ | ⟨rest, -, hmatch⟩ | ⟨p, rest, -, hp, -, hmatch⟩
    · rw [hmatch] at h
      exact hstep hv (parmStep_parseViaParmHidden hdata h)
    · rw [hmatch] at h
      simp only at h
      split at h
      · cases h
      · exact ih hv h
    · rw [hmatch] at h
      obtain ⟨v', hparm, h⟩ := Option.bind_eq_some_iff.mp h
      exact ih (hstep hv (parmStep_parseViaParmHidden hp hparm)) h

/-- What the reader of the parameters establishes. -/
structure Parms (v : SipViaHeader) : Prop where
  ttl : IsValue v.ttl
  ttl_range : v.ttl ≠ [] → 0 ≤ convertInt v.ttl ∧ convertInt v.ttl ≤ 255
  viaTtl : v.viaTtl = decide (v.ttl ≠ [])
  rportValue : IsValue v.rportValue
  rport : v.rportValue ≠ [] → v.rport = true
  maddr : IsValue v.maddr
  viaMaddr : v.viaMaddr = decide (v.maddr ≠ [])
  received : IsValue v.receivedHost
  received_plain : NetworkAddress.is_valid_ip6_addr v.receivedHost = false
  viaReceived : v.viaReceived = decide (v.receivedHost ≠ [])
  branch : v.branchToken ≠ [] → IsBranch v.branchToken
  viaBranch : v.viaBranch = decide (v.branchToken ≠ [])
  comment : v.comment ≠ [] → IsComment v.comment
  viaComment : v.viaComment = decide (v.comment ≠ [])

/-- A header of which only the protocol is read. -/
abbrev ofProtocol (name version transport : Data) : SipViaHeader :=
  { protocolName := name, protocolVersion := version, transport := transport }

theorem parms_ofProtocol (name version transport : Data) : (ofProtocol name version transport).Parms :=
  ⟨isValue_nil, fun h => absurd rfl h, rfl, isValue_nil, fun h => absurd rfl h, isValue_nil, rfl,
    isValue_nil, rfl, rfl, fun h => absurd rfl h, rfl, fun h => absurd rfl h, rfl⟩

theorem isValue_bracketed {x : Data} (hx : IsValue x) : IsValue (bracketed x) := by
  rw [bracketed]
  split
  · refine ⟨trimmedOfSpaces_iff.mpr ⟨by simp, ?_⟩, ?_⟩
    · rw [List.getLast?_append_of_ne_nil _ (by simp)]
      simp
    · simpa using hx.semicolon
  · exact hx

theorem bracketed_ne_nil {x : Data} (hne : x ≠ []) : bracketed x ≠ [] := by
  rw [bracketed]
  split
  · simp
  · exact hne

theorem is_valid_ip6_addr_bracketed (x : Data) :
    NetworkAddress.is_valid_ip6_addr (bracketed x) = false := by
  rw [bracketed]
  split
  · exact NetworkAddress.is_valid_ip6_addr_of_bracket (by simp)
  · rename_i h
    exact Bool.eq_false_iff.mpr h

theorem Parms.step (hv : v.Parms) (h : ParmStep v w) : w.Parms := by
  cases h with
  | skip => exact hv
  | hidden => exact { hv with }
  | rport => exact { hv with rport := fun _ => rfl }
  | maddr hx hne => exact { hv with maddr := hx, viaMaddr := by simp [setMaddr, hne] }
  | received hx hne =>
    exact { hv with
      received := isValue_bracketed hx
      received_plain := is_valid_ip6_addr_bracketed _
      viaReceived := by simp [setReceivedhost, bracketed_ne_nil hne] }
  | ttl hx hne hrange =>
    exact { hv with ttl := hx, ttl_range := fun _ => hrange, viaTtl := by simp [setTtl, hne] }
  | rportValue hx hne => exact { hv with rportValue := hx, rport := fun _ => rfl }
  | branch hb => exact { hv with branch := fun _ => hb, viaBranch := rfl }
  | comment hb hc =>
    exact { hv with
      branch := fun _ => hb
      viaBranch := rfl
      comment := fun _ => hc
      viaComment := by simp [setComment, hc.ne_nil] }
  | extension p x => exact { hv with }

/-- The part of a header that stands before its parameters. -/
def sentBy (v : SipViaHeader) : Data × Data × Data × Data × Data :=
  (v.protocolName, v.protocolVersion, v.transport, v.host, v.port)

theorem ParmStep.sentBy_eq (h : ParmStep v w) : w.sentBy = v.sentBy := by
  cases h <;> rfl

theorem ParmStep.comment_branch (hv : v.comment ≠ [] → v.branchToken ≠ []) (h : ParmStep v w) :
    w.comment ≠ [] → w.branchToken ≠ [] := by
  cases h with
  | branch hb => exact fun _ => hb.ne_nil
  | comment hb hc => exact fun _ => hb.ne_nil
  | _ => exact hv

/-! ### The host -/

/-- What the reader of the host and the port establishes. -/
structure Host (v : SipViaHeader) : Prop where
  semicolon : ';' ∉ v.host
  shape : (∃ y, v.host = y ++ [']'] ∧ ']' ∉ y) ∨ (']' ∉ v.host ∧ ':' ∉ v.host)
  port : ∃ p : Int, -2 ^ 31 ≤ p ∧ p < 2 ^ 31 ∧ v.port = Data.ofInt p

theorem ofInt_5060 : "5060".toList = Data.ofInt 5060 := by
  decide +kernel

theorem host_ofProtocol (name version transport : Data) : (ofProtocol name version transport).Host :=
  ⟨by simp, Or.inr ⟨by simp, by simp⟩, 5060, by decide, by decide, ofInt_5060⟩

theorem parseHost_cases (after : Data) (v : SipViaHeader) (newHost : Data) :
    v.parseHost after newHost = v ∨
    (']' ∉ newHost ∧ ':' ∉ newHost ∧ v.parseHost after newHost = { v with host := newHost.removeSpaces }) ∨
    ∃ hostdata port, (∀ c ∈ hostdata, c ∈ newHost) ∧
      ((∃ y, hostdata = y ++ [']'] ∧ ']' ∉ y) ∨ (']' ∉ hostdata ∧ ':' ∉ hostdata)) ∧
      v.parseHost after newHost = (v.parseHostdata hostdata).setPort (convertInt port) := by
  rw [parseHost]
  rcases match_cases newHost ']' with ⟨hbracket, hmatch⟩ | ⟨rest, -, hmatch⟩ |
    ⟨y, rest, -, hy, rfl, hmatch⟩
  · rw [hmatch]
    simp only
    rcases match_cases newHost ':' with ⟨hcolon, hmatch⟩ | ⟨rest, -, hmatch⟩ |
      ⟨x, rest, -, hx, rfl, hmatch⟩
    · rw [hmatch]
      exact Or.inr (Or.inl ⟨hbracket, hcolon, rfl⟩)
    · rw [hmatch]
      exact Or.inl rfl
    · rw [hmatch]
      refine Or.inr (Or.inr ⟨x, rest, fun c hc => List.mem_append_left _ hc, Or.inr ⟨?_, hx⟩, rfl⟩)
      exact fun h => hbracket (List.mem_append_left _ h)
  · rw [hmatch]
    exact Or.inl rfl
  · rw [hmatch]
    refine Or.inr (Or.inr ⟨y ++ [']'], _, ?_, Or.inl ⟨y, rfl, hy⟩, rfl⟩)
    intro c hc
    rcases List.mem_append.mp hc with hc | hc
    · exact List.mem_append_left _ hc
    · rw [List.mem_singleton.mp hc]
      exact List.mem_append_right _ (List.mem_cons_self ..)

theorem parseHostdata_cases (v : SipViaHeader) (hostdata : Data) :
    (' ' ∉ hostdata ∧ v.parseHostdata hostdata = { v with host := hostdata }) ∨
    (∃ rest, hostdata = ' ' :: rest ∧ v.parseHostdata hostdata = { v with host := rest }) ∨
    (' ' ∈ hostdata ∧ v.parseHostdata hostdata = v) := by
  rw [parseHostdata]
  rcases match_cases hostdata ' ' with ⟨hspace, hmatch⟩ | ⟨rest, heq, hmatch⟩ | ⟨x, rest, -, -, heq, hmatch⟩
  · rw [hmatch]
    exact Or.inl ⟨hspace, rfl⟩
  · rw [hmatch]
    exact Or.inr (Or.inl ⟨rest, heq, rfl⟩)
  · rw [hmatch]
    exact Or.inr (Or.inr ⟨by simp [heq], rfl⟩)

theorem shape_tail {c : Char} {d : Data} (hc : c ≠ ']')
    (h : (∃ y, c :: d = y ++ [']'] ∧ ']' ∉ y) ∨ (']' ∉ c :: d ∧ ':' ∉ c :: d)) :
    (∃ y, d = y ++ [']'] ∧ ']' ∉ y) ∨ (']' ∉ d ∧ ':' ∉ d) := by
  rcases h with ⟨y, heq, hy⟩ | ⟨hbracket, hcolon⟩
  · cases y with
    | nil => exact absurd (List.cons.inj heq).1 hc
    | cons a y =>
      exact Or.inl ⟨y, (List.cons.inj heq).2, fun h => hy (List.mem_cons_of_mem _ h)⟩
  · exact Or.inr ⟨fun h => hbracket (List.mem_cons_of_mem _ h), fun h => hcolon (List.mem_cons_of_mem _ h)⟩

theorem Host.setHost {h : Data} (hv : v.Host) (hsemi : ';' ∉ h)
    (hshape : (∃ y, h = y ++ [']'] ∧ ']' ∉ y) ∨ (']' ∉ h ∧ ':' ∉ h)) : Host { v with host := h } :=
  ⟨hsemi, hshape, hv.port⟩

theorem Host.setPort (hv : v.Host) (port : Data) : (v.setPort (convertInt port)).Host :=
  ⟨hv.semicolon, hv.shape, _, (convertInt_bounds port).1, (convertInt_bounds port).2, rfl⟩

theorem Host.parseHostdata {hostdata : Data} (hv : v.Host) (hsemi : ';' ∉ hostdata)
    (hshape : (∃ y, hostdata = y ++ [']'] ∧ ']' ∉ y) ∨ (']' ∉ hostdata ∧ ':' ∉ hostdata)) :
    (v.parseHostdata hostdata).Host := by
  rcases parseHostdata_cases v hostdata with ⟨-, heq⟩ | ⟨rest, rfl, heq⟩ | ⟨-, heq⟩
  · rw [heq]
    exact hv.setHost hsemi hshape
  · rw [heq]
    exact hv.setHost (fun h => hsemi (List.mem_cons_of_mem _ h)) (shape_tail (by decide) hshape)
  · rw [heq]
    exact hv

theorem Host.parseHost {newHost : Data} (hv : v.Host) (hsemi : ';' ∉ newHost) :
    (v.parseHost after newHost).Host := by
  rcases parseHost_cases after v newHost with heq | ⟨hbracket, hcolon, heq⟩ |
    ⟨hostdata, port, hsub, hshape, heq⟩
  · rw [heq]
    exact hv
  · rw [heq]
    exact hv.setHost (fun h => hsemi (mem_of_mem_removeSpaces h))
      (Or.inr ⟨fun h => hbracket (mem_of_mem_removeSpaces h), fun h => hcolon (mem_of_mem_removeSpaces h)⟩)
  · rw [heq]
    exact (hv.parseHostdata (fun h => hsemi (hsub _ h)) hshape).setPort port

theorem mem_host_parseHost {newHost : Data} {c : Char} (hc : c ∈ (v.parseHost after newHost).host) :
    c ∈ v.host ∨ c ∈ newHost := by
  rcases parseHost_cases after v newHost with heq | ⟨-, -, heq⟩ | ⟨hostdata, port, hsub, -, heq⟩
  · rw [heq] at hc
    exact Or.inl hc
  · rw [heq] at hc
    exact Or.inr (mem_of_mem_removeSpaces hc)
  · rw [heq] at hc
    change c ∈ (v.parseHostdata hostdata).host at hc
    rcases parseHostdata_cases v hostdata with ⟨-, heq⟩ | ⟨rest, rfl, heq⟩ | ⟨-, heq⟩
    · rw [heq] at hc
      exact Or.inr (hsub c hc)
    · rw [heq] at hc
      exact Or.inr (hsub c (List.mem_cons_of_mem _ hc))
    · rw [heq] at hc
      exact Or.inl hc

theorem parseHost_eq (after : Data) (v : SipViaHeader) (newHost : Data) :
    v.parseHost after newHost =
      { v with
        host := (v.parseHost after newHost).host
        port := (v.parseHost after newHost).port } := by
  rcases parseHost_cases after v newHost with heq | ⟨-, -, heq⟩ | ⟨hostdata, port, -, -, heq⟩
  · rw [heq]
  · rw [heq]
  · rw [heq]
    rcases parseHostdata_cases v hostdata with ⟨-, heq⟩ | ⟨rest, -, heq⟩ | ⟨-, heq⟩ <;> rw [heq] <;> rfl

/-! ### The whole header -/

/-- What holds of every header that was read. -/
structure Decoded (v : SipViaHeader) : Prop extends Parms v, Host v where
  name : '/' ∉ v.protocolName
  name_trimmed : TrimmedOfSpaces v.protocolName
  transport_ne_nil : v.transport ≠ []
  transport_space : ' ' ∉ v.transport
  /-- A comment without a branch stands right after the host. -/
  comment_alone : v.comment ≠ [] → v.branchToken = [] →
    v.viaHidden = false ∧ v.ttl = [] ∧ v.rport = false ∧ v.maddr = [] ∧ v.receivedHost = [] ∧ '(' ∉ v.host

theorem Parms.parseHost {newHost : Data} (hv : v.Parms) : (v.parseHost after newHost).Parms := by
  rw [parseHost_eq]
  exact { hv with }

theorem Decoded.of_host {name version transport newHost : Data} (hname : '/' ∉ name)
    (htrimmed : TrimmedOfSpaces name) (htransport : transport ≠ []) (hspace : ' ' ∉ transport)
    (hsemi : ';' ∉ newHost) :
    ((ofProtocol name version transport).parseHost after newHost).Decoded := by
  have hparms : ((ofProtocol name version transport).parseHost after newHost).Parms :=
    (parms_ofProtocol name version transport).parseHost
  have hhost : ((ofProtocol name version transport).parseHost after newHost).Host :=
    (host_ofProtocol name version transport).parseHost hsemi
  rw [parseHost_eq] at hparms hhost ⊢
  exact { hparms, hhost with
    name := hname
    name_trimmed := htrimmed
    transport_ne_nil := htransport
    transport_space := hspace
    comment_alone := fun h => absurd rfl h }

theorem Decoded.of_parms (hv : v.Decoded) (hnone : v.comment = []) {fuel : Nat} {data : Data}
    (h : parseViaParmsLoop strict fuel v data = some w) : w.Decoded := by
  have hsent : w.sentBy = v.sentBy :=
    parseViaParmsLoop_invariant (P := fun w => w.sentBy = v.sentBy)
      (fun hv hstep => hstep.sentBy_eq.trans hv) rfl h
  have hparms : w.Parms := parseViaParmsLoop_invariant (P := Parms) (fun hv hstep => hv.step hstep)
    hv.toParms h
  have hcomment : w.comment ≠ [] → w.branchToken ≠ [] :=
    parseViaParmsLoop_invariant (P := fun w => w.comment ≠ [] → w.branchToken ≠ [])
      (fun hv hstep => hstep.comment_branch hv) (fun hne => absurd hnone hne) h
  simp only [sentBy, Prod.mk.injEq] at hsent
  obtain ⟨hname, -, htransport, hhost, hport⟩ := hsent
  refine { hparms with
    semicolon := ?_
    shape := ?_
    port := ?_
    name := ?_
    name_trimmed := ?_
    transport_ne_nil := ?_
    transport_space := ?_
    comment_alone := fun hne hempty => absurd hempty (hcomment hne) }
  · rw [hhost]
    exact hv.semicolon
  · rw [hhost]
    exact hv.shape
  · rw [hport]
    exact hv.port
  · rw [hname]
    exact hv.name
  · rw [hname]
    exact hv.name_trimmed
  · rw [htransport]
    exact hv.transport_ne_nil
  · rw [htransport]
    exact hv.transport_space

theorem decoded_parseSentBy {name version transport hostviadata : Data} (hname : '/' ∉ name)
    (htrimmed : TrimmedOfSpaces name) (htransport : transport ≠ []) (hspace : ' ' ∉ transport)
    (h : parseSentBy strict after (ofProtocol name version transport) hostviadata = some w) :
    w.Decoded := by
  have hnew : ∀ newHost, ';' ∉ newHost →
      ((ofProtocol name version transport).parseHost after newHost).Decoded :=
    fun newHost hsemi => .of_host hname htrimmed htransport hspace hsemi
  -- the header before its host is read is one read from an empty text
  have hempty := hnew [] (by simp)
  rw [parseSentBy] at h
  rcases match_cases hostviadata ';' with ⟨hsemi, hmatch⟩ | ⟨rest, -, hmatch⟩ |
    ⟨host, rest, -, hsemi, -, hmatch⟩
  · rw [hmatch] at h
    simp only at h
    rcases match_cases hostviadata '(' with ⟨-, hmatch⟩ | ⟨rest, -, hmatch⟩ |
      ⟨host, rest, -, hparen, heq, hmatch⟩
    · rw [hmatch] at h
      exact Option.some.inj h ▸ hnew _ hsemi
    · rw [hmatch] at h
      exact eq_of_throwUnless h ▸ hempty
    · rw [hmatch] at h
      simp only at h
      have hhost : ';' ∉ host := fun hmem => hsemi (heq ▸ List.mem_append_left _ hmem)
      have hread := hnew host hhost
      rcases match_cases rest ')' with ⟨-, hmatch⟩ | ⟨rest', -, hmatch⟩ |
        ⟨c, rest', hc, hclose, rfl, hmatch⟩
      · rw [hmatch] at h
        exact eq_of_throwUnless h ▸ hread
      · rw [hmatch] at h
        exact eq_of_throwUnless h ▸ hread
      · rw [hmatch] at h
        have hcomment : IsComment c := by
          refine ⟨hc, hclose, fun hmem => hsemi ?_⟩
          rw [heq]
          exact List.mem_append_right _ (List.mem_cons_of_mem _ (List.mem_append_left _ hmem))
        have hopen : '(' ∉ ((ofProtocol name version transport).parseHost after host).host := by
          intro hmem
          rcases mem_host_parseHost hmem with hmem | hmem
          · cases hmem
          · exact hparen hmem
        rw [← Option.some.inj h]
        rw [parseHost_eq] at hread hopen ⊢
        exact { hread with
          comment := fun _ => hcomment
          viaComment := by simp [setComment]
          comment_alone := fun _ _ => ⟨rfl, rfl, rfl, rfl, rfl, hopen⟩ }
  · rw [hmatch] at h
    exact eq_of_throwUnless h ▸ hempty
  · rw [hmatch] at h
    refine (hnew host hsemi).of_parms ?_ h
    rw [parseHost_eq]

/-- Every header that is read satisfies the invariant. -/
theorem decoded_of_decode {data : Data} (h : decode strict after data = some v) : v.Decoded := by
  have hname : ∀ name : Data, '/' ∉ name → '/' ∉ name.removeSpaces :=
    fun name hslash hmem => hslash (mem_of_mem_removeSpaces hmem)
  have hdefault : ∀ name version : Data, '/' ∉ name → TrimmedOfSpaces name →
      (ofProtocol name version "UDP".toList).Decoded := by
    intro name version hslash htrimmed
    have hread : ((ofProtocol name version "UDP".toList).parseHost [] []).Decoded :=
      .of_host hslash htrimmed (by decide) (by decide) (by simp)
    exact hread
  have hnew : Decoded {} :=
    hdefault _ _ (by decide) (trimmedOfSpaces_iff.mpr ⟨by decide, by decide⟩)
  rw [decode] at h
  split at h
  · exact Option.some.inj h ▸ hnew
  rw [scanSipVia] at h
  rcases match_cases data '/' with ⟨-, hmatch⟩ | ⟨rest, -, hmatch⟩ | ⟨name, rest, -, hslash, -, hmatch⟩
  · rw [hmatch] at h
    exact eq_of_throwUnless h ▸ hnew
  · rw [hmatch] at h
    exact eq_of_throwUnless h ▸ hnew
  rw [hmatch] at h
  simp only at h
  have hread := fun version => hdefault _ version (hname name hslash) (trimmedOfSpaces_removeSpaces name)
  rcases match_cases rest '/' with ⟨-, hmatch⟩ | ⟨rest', -, hmatch⟩ | ⟨version, rest', -, -, -, hmatch⟩
  · rw [hmatch] at h
    exact eq_of_throwUnless h ▸ hread _
  · rw [hmatch] at h
    exact eq_of_throwUnless h ▸ hread _
  rw [hmatch] at h
  simp only [parseRestVia] at h
  rcases match_cases (removeSpaces rest') ' ' with ⟨-, hmatch⟩ | ⟨rest'', -, hmatch⟩ |
    ⟨transport, rest'', hne, hspace, -, hmatch⟩
  · rw [hmatch] at h
    exact eq_of_throwUnless h ▸ hread version
  · rw [hmatch] at h
    exact eq_of_throwUnless h ▸ hread version
  · rw [hmatch] at h
    have htransport : TrimmedOfSpaces transport :=
      trimmedOfSpaces_iff.mpr ⟨fun h => hspace (List.mem_of_mem_head? h),
        fun h => hspace (List.mem_of_mem_getLast? h)⟩
    simp only at h
    rw [removeSpaces_eq_self htransport] at h
    exact decoded_parseSentBy (hname name hslash) (trimmedOfSpaces_removeSpaces name) hne hspace h

end SipViaHeader

end Vocal.Sip
