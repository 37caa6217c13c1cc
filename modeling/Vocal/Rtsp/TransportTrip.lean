import Vocal.Rtsp.Header
import Vocal.Rtsp.Transport

/-!
# The transport header and back

What `parseTransportHeader` makes of a header that `appendTransportSpec` has put together: of each alternative all but the
server ports, up to the first one that is suitable.
-/

namespace Vocal.Rtsp

open Sip (Data CRLF)
open Scan (scan scan_append scan_eq_ok_iff)
open CharDataParser RtspTransportSpec

variable {mask : Char → Bool} {x y rest piece piece' : Data} {c : Char} {spec : RtspTransportSpec}

/-! ## The parser -/

theorem entry_true (hc : c.toNat < 128) (hmask : mask c = true) : entry mask c = .ok true :=
  entry_eq_ok_iff.mpr ⟨hc, hmask⟩

theorem getNextWord_append (hx : ∀ d ∈ x, d.toNat < 128 ∧ myMaskNonWord d = false) (hc : c.toNat < 128)
    (hnonword : myMaskNonWord c = true) : getNextWord ⟨x ++ c :: y, 0⟩ = .ok (x, true, ⟨c :: y, 0⟩) := by
  have hscan : scan (entry myMaskNonWord) (x ++ c :: y) = .ok (x, c :: y) := by
    refine scan_append (fun d hd => entry_eq_ok_iff.mpr (hx d hd)) ?_
    rintro d ⟨⟩
    exact entry_true hc hnonword
  rw [getNextWord, parseUntil_of_scan (p := ⟨x ++ c :: y, 0⟩) hscan, if_neg (by simp)]
  simp

/-- Text that does not begin with a blank. -/
def Starts (rest : Data) : Prop := ∀ c ∈ rest.head?, c.toNat < 128 ∧ myMaskNonSpace c = true

theorem starts_append (h : Starts x) (h' : Starts y) : Starts (x ++ y) := by
  cases x with
  | nil => exact h'
  | cons c x => exact h

theorem getThruSpaces_of_starts (h : Starts rest) : ∃ found, getThruSpaces ⟨rest, 0⟩ = .ok ([], found, ⟨rest, 0⟩) := by
  have hscan : scan (entry myMaskNonSpace) ([] ++ rest) = .ok ([], rest) :=
    scan_append (fun _ hd => by cases hd) fun d hd => entry_eq_ok_iff.mpr (h d hd)
  rw [getThruSpaces, parseUntil_of_scan (p := ⟨rest, 0⟩) hscan, if_neg (by simp)]
  exact ⟨_, rfl⟩

theorem parse_param (hx : ';' ∉ x) (hrest : Starts rest) (spec : RtspTransportSpec) :
    spec.parse ⟨x ++ ';' :: rest, 0⟩ = spec.parseParam (x ++ [';']) >>= fun spec => spec.parse ⟨rest, 0⟩ := by
  obtain ⟨found, hspaces⟩ := getThruSpaces_of_starts hrest
  rw [RtspTransportSpec.parse]
  split
  · rename_i e he
    rw [parseThru_append hx] at he
    cases he
  · rename_i oneParamData q hq
    rw [parseThru_append hx] at hq
    cases hq
  · rename_i oneParamData behind hthru
    rw [parseThru_append hx] at hthru
    cases hthru
    cases spec.parseParam (x ++ [';']) with
    | error e => rfl
    | ok spec =>
      dsimp only
      split
      · rename_i e he
        rw [hspaces] at he
        cases he
      · rename_i y found' rest' hrest'
        rw [hspaces] at hrest'
        cases hrest'
        rfl

theorem parse_last (hx : ';' ∉ x) (spec : RtspTransportSpec) : spec.parse ⟨x, 0⟩ = spec.parseParam x := by
  rw [RtspTransportSpec.parse]
  split
  · rename_i e he
    rw [parseThru_of_not_mem hx] at he
    cases he
  · rename_i oneParamData q hq
    rw [parseThru_of_not_mem hx] at hq
    cases hq
    rfl
  · rename_i oneParamData behind hthru
    rw [parseThru_of_not_mem hx] at hthru
    cases hthru

/-! ## Parameters -/

/-- A parse takes a piece of text by itself, and does with its fields what `f` says. -/
structure Takes (piece : Data) (f : RtspTransportSpec → Except Stop RtspTransportSpec) : Prop where
  starts : Starts piece
  takes : ∀ (spec : RtspTransportSpec) (rest : Data), Starts rest →
    spec.parse ⟨piece ++ rest, 0⟩ = f spec >>= fun spec => spec.parse ⟨rest, 0⟩

variable {f g : RtspTransportSpec → Except Stop RtspTransportSpec}

theorem starts_nil : Starts [] := by rintro _ ⟨⟩

theorem takes_nil (hf : ∀ spec, f spec = .ok spec) : Takes [] f := by
  refine ⟨starts_nil, fun spec rest _ => ?_⟩
  rw [hf]
  rfl

theorem Takes.append (h : Takes piece f) (h' : Takes piece' g) : Takes (piece ++ piece') (fun spec => f spec >>= g) := by
  refine ⟨starts_append h.starts h'.starts, fun spec rest hrest => ?_⟩
  rw [List.append_assoc, h.takes spec (piece' ++ rest) (starts_append h'.starts hrest)]
  cases f spec with
  | error e => rfl
  | ok spec' => exact h'.takes spec' rest hrest

theorem Takes.congr (h : Takes piece f) (hfg : ∀ spec, f spec = g spec) : Takes piece g := funext hfg ▸ h

section Guards

variable {u v : RtspTransportSpec → RtspTransportSpec} {P Q : Prop} [Decidable P] [Decidable Q]

theorem Takes.append_ok (h : Takes piece fun spec => .ok (u spec)) (h' : Takes piece' g) :
    Takes (piece ++ piece') fun spec => g (u spec) :=
  h.append h'

theorem Takes.guard_append_ok {e : Stop} (h : Takes piece fun spec => if P then .ok (u spec) else .error e)
    (h' : Takes piece' fun spec => .ok (v spec)) :
    Takes (piece ++ piece') fun spec => if P then .ok (v (u spec)) else .error e := by
  refine (h.append h').congr fun spec => ?_
  by_cases hP : P
  · rw [if_pos hP, if_pos hP]
    rfl
  · rw [if_neg hP, if_neg hP]
    rfl

theorem Takes.guard_append {e : Stop} (h : Takes piece fun spec => if P then .ok (u spec) else .error e)
    (h' : Takes piece' fun spec => if Q then .ok (v spec) else .error e) :
    Takes (piece ++ piece') fun spec => if P ∧ Q then .ok (v (u spec)) else .error e := by
  refine (h.append h').congr fun spec => ?_
  by_cases hP : P
  · rw [if_pos hP]
    by_cases hQ : Q
    · rw [if_pos ⟨hP, hQ⟩]
      exact if_pos hQ
    · rw [if_neg fun hboth : P ∧ Q => hQ hboth.2]
      exact if_neg hQ
  · rw [if_neg hP, if_neg fun hboth : P ∧ Q => hP hboth.1]
    rfl

end Guards

theorem takes_param (hstarts : Starts x) (hx : ';' ∉ x) (hf : ∀ spec, spec.parseParam (x ++ [';']) = f spec) :
    Takes (x ++ [';']) f := by
  refine ⟨starts_append hstarts ?_, fun spec rest hrest => ?_⟩
  · rintro _ ⟨⟩
    decide
  · rw [List.append_assoc, List.singleton_append, parse_param hx hrest, hf]

theorem starts_cons (hc : c.isAlpha = true) : Starts (c :: x) := by
  rintro _ ⟨⟩
  have hlt : c.toNat < 128 := by
    delta Char.isAlpha Char.isUpper Char.isLower at hc
    simp [UInt32.le_iff_toNat_le] at hc
    omega
  have htab : c ≠ '\t' := by rintro rfl; cases hc
  have hspace : c ≠ ' ' := by rintro rfl; cases hc
  exact ⟨hlt, by simp [myMaskNonSpace, htab, hspace]⟩

theorem takes_protocol (tcp multicast : Bool) :
    Takes (if !tcp && !multicast then "RTP/AVP;unicast;".toList
        else if tcp then "RTP/AVP/TCP;unicast;".toList else "RTP/AVP;multicast;".toList)
      (fun spec => .ok
        { spec with myIsTcp := spec.myIsTcp || tcp, myIsMulticast := spec.myIsMulticast || (!tcp && multicast) }) := by
  have hprotocol : Takes "RTP/AVP;".toList .ok := takes_param (x := "RTP/AVP".toList) (starts_cons rfl) (by simp) fun _ => rfl
  have hunicast : Takes "unicast;".toList .ok := takes_param (x := "unicast".toList) (starts_cons rfl) (by simp) fun _ => rfl
  have hmulticast : Takes "multicast;".toList (fun spec => .ok { spec with myIsMulticast := true }) :=
    takes_param (x := "multicast".toList) (starts_cons rfl) (by simp) fun _ => rfl
  have htcp : Takes "RTP/AVP/TCP;".toList (fun spec => .ok { spec with myIsTcp := true }) :=
    takes_param (x := "RTP/AVP/TCP".toList) (starts_cons rfl) (by simp) fun _ => rfl
  cases tcp with
  | true =>
    simpa [bind, Except.bind] using htcp.append hunicast
  | false =>
    cases multicast with
    | true => simpa [bind, Except.bind] using hprotocol.append hmulticast
    | false => simpa [bind, Except.bind] using hprotocol.append hunicast

theorem takes_append (append : Bool) :
    Takes (if append then "append;".toList else []) (fun spec => .ok { spec with myIsAppend := spec.myIsAppend || append }) := by
  cases append with
  | false => exact takes_nil fun spec => by rw [Bool.or_false]
  | true => exact takes_param (x := "append".toList) (starts_cons rfl) (by simp) fun spec => by rw [Bool.or_true]; rfl

/-! ### Hosts -/

/-- What ends an alternative, a parameter or a host. -/
def separator (c : Char) : Bool := c == ',' || c == ';' || myMaskEolSpace c

def Free (host : Data) : Prop := ∀ c ∈ host, separator c = false

instance (host : Data) : Decidable (Free host) := inferInstanceAs (Decidable (∀ c ∈ host, separator c = false))

variable {host : Data}

theorem Free.not_mem (h : Free host) (hc : separator c = true) : c ∉ host :=
  fun hmem => Bool.false_ne_true ((h c hmem).symm.trans hc)

theorem Free.noSpace (h : Free host) (hc : c ∈ host) : myMaskEolSpace c = false := by
  have hsep := h c hc
  rw [separator, Bool.or_eq_false_iff] at hsep
  exact hsep.2

/-- A host is read up to its end, and every character of it is looked up in the mask. -/
theorem parseHost_eq (h : Free host) :
    parseHost ⟨'=' :: (host ++ [';']), 0⟩ = if Ascii host then .ok host else .error .outOfBounds := by
  have hmask : ∀ d ∈ host ++ [';'], myMaskEolSpace d = false := by
    intro d hd
    rcases List.mem_append.mp hd with hd | hd
    · exact h.noSpace hd
    · rw [List.mem_singleton.mp hd]
      rfl
  rw [parseHost]
  change (parseUntil ⟨host ++ [';'], 0⟩ (entry myMaskEolSpace) >>= _) = _
  cases hscan : scan (entry myMaskEolSpace) (host ++ [';']) with
  | error e =>
    have hascii : ¬ Ascii host := by
      intro hascii
      obtain ⟨x, rest, hok⟩ := @exists_scan myMaskEolSpace _ (ascii_append.mpr ⟨hascii, (by simp [Ascii] : Ascii [';'])⟩)
      rw [hscan] at hok
      cases hok
    rw [parseUntil_of_scan_error hscan, if_neg hascii, eq_outOfBounds_of_scan hscan]
    rfl
  | ok r =>
    obtain ⟨htext, hascii, -, hstop⟩ := scan_entry_eq_ok_iff.mp hscan
    have hrest : r.2 = [] := by
      cases hr : r.2 with
      | nil => rfl
      | cons d rest =>
        have hd : d ∈ host ++ [';'] := by rw [htext, hr]; simp
        have hstop' := (hstop d (by rw [hr]; rfl)).2
        rw [hmask d hd] at hstop'
        cases hstop'
    rw [hrest, List.append_nil] at htext
    rw [← htext] at hascii
    rw [parseUntil_of_scan (p := ⟨host ++ [';'], 0⟩)
        (show scan (entry myMaskEolSpace) (host ++ [';']) = .ok (r.1, r.2) from hscan), if_pos (ascii_append.mp hascii).1,
      ← htext, if_neg (by simp)]
    simp [bind, Except.bind, pure, Except.pure]

theorem getNextWord_name {name : Data} (hname : ∀ d ∈ name, d.toNat < 128 ∧ myMaskNonWord d = false) (y : Data) :
    getNextWord ⟨name ++ '=' :: y, 0⟩ = .ok (name, true, ⟨'=' :: y, 0⟩) :=
  getNextWord_append hname (by decide) rfl

theorem takes_host (name : Data) (set : RtspTransportSpec → Data → RtspTransportSpec) (h : Free host)
    (hstarts : Starts (name ++ "=".toList ++ host)) (hname : ';' ∉ name)
    (hparse : ∀ spec : RtspTransportSpec, spec.parseParam (name ++ "=".toList ++ host ++ [';']) =
      parseHost ⟨'=' :: (host ++ [';']), 0⟩ >>= fun host => .ok (set spec host)) :
    Takes (encodeHost name host) (fun spec =>
      if Ascii host then .ok (if host = [] then spec else set spec host) else .error .outOfBounds) := by
  by_cases hempty : host = []
  · subst hempty
    exact takes_nil fun spec => by rw [if_pos ascii_nil, if_pos rfl]
  rw [encodeHost, if_pos (List.length_pos_iff.mpr hempty)]
  refine takes_param hstarts (by simp [hname, h.not_mem (c := ';') rfl]) fun spec => ?_
  rw [hparse, parseHost_eq h, if_neg hempty]
  split_ifs <;> rfl

theorem takes_destination (h : Free host) :
    Takes (encodeHost "destination".toList host) (fun spec =>
      if Ascii host then .ok { spec with myDestination := if host = [] then spec.myDestination else host }
      else .error .outOfBounds) := by
  have htakes := takes_host "destination".toList (fun spec host => { spec with myDestination := host }) h
    (starts_cons rfl) (by simp) fun spec => by
      change spec.parseDestination ⟨"destination".toList ++ '=' :: (host ++ [';']), 0⟩ = _
      rw [parseDestination, getNextWord_name (by simp; decide)]
      rfl
  exact htakes.congr fun spec => by split_ifs <;> rfl

theorem takes_source (h : Free host) :
    Takes (encodeHost "source".toList host) (fun spec =>
      if Ascii host then .ok { spec with mySource := if host = [] then spec.mySource else host }
      else .error .outOfBounds) := by
  have htakes := takes_host "source".toList (fun spec host => { spec with mySource := host }) h
    (starts_cons rfl) (by simp) fun spec => by
      change spec.parseSource ⟨"source".toList ++ '=' :: (host ++ [';']), 0⟩ = _
      rw [parseSource, getNextWord_name (by simp; decide)]
      rfl
  exact htakes.congr fun spec => by split_ifs <;> rfl

/-! ### Ports -/

theorem isDigit_of_mem_itos {port : UInt16} (hc : c ∈ itos port) : c.isDigit = true := isDigit_of_mem_decimal hc

theorem not_mem_itos {port : UInt16} (hc : c.isDigit = false) : c ∉ itos port :=
  fun hmem => Bool.false_ne_true (hc.symm.trans (isDigit_of_mem_itos hmem))

theorem takeInteger_itos (port : UInt16) (hc : c.toNat < 128) (hdigit : c.isDigit = false) (y : Data) :
    takeInteger ⟨itos port ++ c :: y, 0⟩ = .ok (some (BitVec.ofNat 32 port.toNat), ⟨c :: y, 0⟩) := by
  have hscan : scan (fun c => (entry myMaskDigit c).map not) (itos port ++ c :: y) = .ok (itos port, c :: y) :=
    scan_digits (fun _ => isDigit_of_mem_itos) (by rintro d ⟨⟩; exact ⟨hc, hdigit⟩)
  have hvalue : (itos port).foldl (fun value d => value * 10 + BitVec.ofNat 32 (d.toNat - '0'.toNat)) 0 =
      BitVec.ofNat 32 port.toNat := by
    have h := foldl_digits (fun d (hd : d ∈ itos port) => isDigit_of_mem_itos hd) 0
    rw [itos, decimal_ofNat, digits_toDigits] at h
    rw [itos, decimal_ofNat]
    exact h
  have hne : itos port ≠ [] := decimal_ne_nil _
  rw [takeInteger, parseThruMask, hscan]
  simp only [bind, Except.bind, pure, Except.pure, hne, ne_eq, not_false_eq_true, decide_true]
  rw [if_neg (by simp)]
  exact congrArg (fun value => Except.ok (some value, _)) hvalue

theorem ofNat_port (port : UInt16) : UInt16.ofNat (BitVec.ofNat 32 port.toNat).toNat = port := by
  have hlt := port.toNat_lt
  rw [BitVec.toNat_ofNat, Nat.mod_eq_of_lt (by omega), UInt16.ofNat_toNat]

theorem parseParam_port (a : UInt16) :
    spec.parseParam ("client_port".toList ++ '=' :: (itos a ++ [';'])) = .ok { spec with myClientPortA := a } := by
  change spec.parseClientPort ⟨"client_port".toList ++ '=' :: (itos a ++ [';']), 0⟩ = _
  rw [parseClientPort, getNextWord_name (by simp; decide)]
  change (takeInteger ⟨itos a ++ [';'], 0⟩ >>= _) = _
  rw [takeInteger_itos a (by decide) rfl]
  change Except.ok { spec with myClientPortA := .ofNat (BitVec.ofNat 32 a.toNat).toNat } = _
  rw [ofNat_port]

theorem parseParam_ports (a b : UInt16) :
    spec.parseParam ("client_port".toList ++ '=' :: (itos a ++ '-' :: (itos b ++ [';']))) =
      .ok { spec with myClientPortA := a, myClientPortB := b } := by
  change spec.parseClientPort ⟨"client_port".toList ++ '=' :: (itos a ++ '-' :: (itos b ++ [';'])), 0⟩ = _
  rw [parseClientPort, getNextWord_name (by simp; decide)]
  change (takeInteger ⟨itos a ++ '-' :: (itos b ++ [';']), 0⟩ >>= _) = _
  rw [takeInteger_itos a (by decide) rfl]
  change (takeInteger ⟨itos b ++ [';'], 0⟩ >>= _) = _
  rw [takeInteger_itos b (by decide) rfl]
  change Except.ok { spec with
    myClientPortA := .ofNat (BitVec.ofNat 32 a.toNat).toNat
    myClientPortB := .ofNat (BitVec.ofNat 32 b.toNat).toNat } = _
  rw [ofNat_port, ofNat_port]

theorem semicolon_not_mem_ports {name : Data} (hname : ';' ∉ name) (a b : UInt16) :
    ';' ∉ name ++ "=".toList ++ itos a ++ (if b ≠ 0 then "-".toList ++ itos b else []) := by
  have ha : ';' ∉ itos a := not_mem_itos rfl
  have hb : ';' ∉ itos b := not_mem_itos rfl
  split_ifs <;> simp [hname, ha, hb]

theorem takes_clientPort (a b : UInt16) :
    Takes (encodePorts "client_port".toList a b) (fun spec => .ok
      { spec with
        myClientPortA := if a ≠ 0 then a else spec.myClientPortA
        myClientPortB := if a ≠ 0 ∧ b ≠ 0 then b else spec.myClientPortB }) := by
  by_cases ha : a = 0
  · subst ha
    exact takes_nil fun spec => rfl
  rw [encodePorts, if_pos ha]
  refine takes_param (starts_cons rfl) (semicolon_not_mem_ports (by simp) a b) fun spec => ?_
  by_cases hb : b = 0
  · rw [if_neg (not_not.mpr hb), if_pos ha, if_neg fun h => h.2 hb]
    simpa using @parseParam_port spec a
  · rw [if_pos hb, if_pos ha, if_pos ⟨ha, hb⟩]
    simpa using @parseParam_ports spec a b

/-- The server ports are taken for a source, and left out. -/
theorem takes_serverPort (a b : UInt16) : Takes (encodePorts "server_port".toList a b) .ok := by
  by_cases ha : a = 0
  · subst ha
    exact takes_nil fun spec => rfl
  rw [encodePorts, if_pos ha]
  refine takes_param (starts_cons rfl) (semicolon_not_mem_ports (by simp) a b) fun spec => ?_
  have hword (y : Data) : spec.parseParam ("server_port".toList ++ '=' :: y) = .ok spec := by
    change spec.parseSource ⟨"server_port".toList ++ '=' :: y, 0⟩ = _
    rw [parseSource, getNextWord_name (by simp; decide)]
    rfl
  split_ifs
  · simpa using hword _
  · simpa using hword _

/-! ## Alternatives -/

theorem parse_mode (record : Bool) {tail : Data} (htail : ';' ∉ tail) (spec : RtspTransportSpec) :
    spec.parse ⟨(if record then "mode=\"RECORD\"".toList else "mode=\"PLAY\"".toList) ++ tail, 0⟩ =
      .ok { spec with myIsRecord := spec.myIsRecord || record } := by
  cases record with
  | true =>
    rw [if_pos rfl, parse_last (by simp [htail]), Bool.or_true]
    rfl
  | false =>
    rw [if_neg Bool.false_ne_true, parse_last (by simp [htail]), Bool.or_false]
    rfl

/-- What is left of an alternative behind `encode` and `parse`. -/
def decoded (spec : RtspTransportSpec) : RtspTransportSpec :=
  { spec with
    myIsMulticast := !spec.myIsTcp && spec.myIsMulticast
    myClientPortB := if spec.myClientPortA ≠ 0 then spec.myClientPortB else 0
    myServerPortA := 0
    myServerPortB := 0 }

/-- The hosts have no separators. -/
def FreeHosts (spec : RtspTransportSpec) : Prop := Free spec.myDestination ∧ Free spec.mySource

/-- The hosts have entries in the masks. -/
def AsciiHosts (spec : RtspTransportSpec) : Prop := Ascii spec.myDestination ∧ Ascii spec.mySource

instance (spec : RtspTransportSpec) : Decidable (AsciiHosts spec) := inferInstanceAs (Decidable (_ ∧ _))

theorem Takes.parse_mode (h : Takes piece f) (record : Bool) {tail : Data} (htail : ';' ∉ tail)
    (spec : RtspTransportSpec) :
    spec.parse ⟨piece ++ ((if record then "mode=\"RECORD\"".toList else "mode=\"PLAY\"".toList) ++ tail), 0⟩ =
      (f spec).map fun spec => { spec with myIsRecord := spec.myIsRecord || record } := by
  rw [h.takes]
  · cases f spec with
    | error e => rfl
    | ok spec' => exact Vocal.Rtsp.parse_mode record htail spec'
  · cases record with
    | true => exact starts_cons rfl
    | false => exact starts_cons rfl

theorem parse_encode (h : FreeHosts spec) {tail : Data} (htail : ';' ∉ tail) :
    reset.parse ⟨spec.encode ++ tail, 0⟩ = if AsciiHosts spec then .ok (decoded spec) else .error .outOfBounds := by
  have htakes := (((((takes_protocol spec.myIsTcp spec.myIsMulticast).append_ok (takes_destination h.1)).guard_append
    (takes_source h.2)).guard_append_ok (takes_append spec.myIsAppend)).guard_append_ok
    (takes_clientPort spec.myClientPortA spec.myClientPortB)).guard_append_ok
    (takes_serverPort spec.myServerPortA spec.myServerPortB)
  rw [encode, List.append_assoc, htakes.parse_mode spec.myIsRecord htail]
  by_cases hascii : AsciiHosts spec
  · rw [if_pos hascii, if_pos (show _ ∧ _ from hascii)]
    simp only [Except.map, reset, Bool.false_or, decoded]
    refine congrArg Except.ok ?_
    by_cases ha : spec.myClientPortA = 0
    · simp [ha]
    · by_cases hb : spec.myClientPortB = 0 <;> simp [ha, hb]
  · rw [if_neg hascii, if_neg (show ¬ (_ ∧ _) from hascii)]
    rfl

/-! ## Headers -/

/-- The alternatives of a header. -/
def alternatives : List RtspTransportSpec → Data
  | [] => []
  | spec :: specs => spec.encode ++ specs.flatMap fun spec => ',' :: spec.encode

/-- What `parseTransportHeader` comes to: the alternatives are read up to the first suitable one. -/
def firstSuitable : List RtspTransportSpec → Except Stop (Option RtspTransportSpec)
  | [] => .ok none
  | spec :: specs =>
    if AsciiHosts spec then if isSuitableSpec spec then .ok (some (decoded spec)) else firstSuitable specs
    else .error .outOfBounds

theorem isSuitableSpec_decoded (spec : RtspTransportSpec) : isSuitableSpec (decoded spec) = isSuitableSpec spec := by
  rw [isSuitableSpec, isSuitableSpec, decoded]
  cases spec.myIsTcp <;> rfl

theorem comma_not_mem_ports (name : Data) (hname : ',' ∉ name) (a b : UInt16) : ',' ∉ encodePorts name a b := by
  have ha : ',' ∉ itos a := not_mem_itos rfl
  have hb : ',' ∉ itos b := not_mem_itos rfl
  rw [encodePorts]
  split_ifs <;> simp [hname, ha, hb]

theorem comma_not_mem_host (name : Data) (hname : ',' ∉ name) (h : Free host) : ',' ∉ encodeHost name host := by
  have hhost : ',' ∉ host := h.not_mem rfl
  rw [encodeHost]
  split_ifs <;> simp [hname, hhost]

theorem comma_not_mem_encode (h : FreeHosts spec) : ',' ∉ spec.encode := by
  have hdestination := comma_not_mem_host "destination".toList (by simp) h.1
  have hsource := comma_not_mem_host "source".toList (by simp) h.2
  have hclient := comma_not_mem_ports "client_port".toList (by simp) spec.myClientPortA spec.myClientPortB
  have hserver := comma_not_mem_ports "server_port".toList (by simp) spec.myServerPortA spec.myServerPortB
  have hprotocol : ',' ∉ (if !spec.myIsTcp && !spec.myIsMulticast then "RTP/AVP;unicast;".toList
      else if spec.myIsTcp then "RTP/AVP/TCP;unicast;".toList else "RTP/AVP;multicast;".toList) := by
    split_ifs <;> simp
  have happend : ',' ∉ (if spec.myIsAppend then "append;".toList else []) := by
    split_ifs <;> simp
  have hmode : ',' ∉ (if spec.myIsRecord then "mode=\"RECORD\"".toList else "mode=\"PLAY\"".toList) := by
    split_ifs <;> simp
  simp only [encode, List.mem_append, not_or]
  exact ⟨⟨⟨⟨⟨⟨hprotocol, hdestination⟩, hsource⟩, happend⟩, hclient⟩, hserver⟩, hmode⟩

theorem starts_encode (spec : RtspTransportSpec) : Starts spec.encode := by
  rw [encode]
  cases spec.myIsTcp with
  | true => exact starts_cons rfl
  | false =>
    cases spec.myIsMulticast with
    | true => exact starts_cons rfl
    | false => exact starts_cons rfl

theorem parseTransportHeader_last (h : FreeHosts spec) {tail : Data} (hsemicolon : ';' ∉ tail) (hcomma : ',' ∉ tail) :
    parseTransportHeader ⟨spec.encode ++ tail, 0⟩ = firstSuitable [spec] := by
  have hnone : ',' ∉ spec.encode ++ tail := by simp [comma_not_mem_encode h, hcomma]
  have hthru := parseThru_of_not_mem hnone
  rw [parseTransportHeader]
  split
  · rename_i e he
    rw [hthru] at he
    cases he
  · rename_i oneSpecData q hq
    rw [hthru] at hq
    cases hq
    rw [parse_encode h hsemicolon, firstSuitable]
    split_ifs with hascii hsuitable
    · simp [bind, Except.bind, pure, Except.pure, isSuitableSpec_decoded, hsuitable]
    · simp [bind, Except.bind, pure, Except.pure, isSuitableSpec_decoded, hsuitable, firstSuitable]
    · rfl
  · rename_i oneSpecData behind hq
    rw [hthru] at hq
    cases hq

theorem parseTransportHeader_cons (h : FreeHosts spec) (hrest : Starts rest) :
    parseTransportHeader ⟨spec.encode ++ ',' :: rest, 0⟩ =
      if AsciiHosts spec then
        if isSuitableSpec spec then .ok (some (decoded spec)) else parseTransportHeader ⟨rest, 0⟩
      else .error .outOfBounds := by
  have hthru := parseThru_append (y := rest) (comma_not_mem_encode h)
  obtain ⟨found, hspaces⟩ := getThruSpaces_of_starts hrest
  rw [parseTransportHeader]
  split
  · rename_i e he
    rw [hthru] at he
    cases he
  · rename_i oneSpecData q hq
    rw [hthru] at hq
    cases hq
  · rename_i oneSpecData behind hq
    rw [hthru] at hq
    cases hq
    rw [parse_encode h (by simp)]
    by_cases hascii : AsciiHosts spec
    · rw [if_pos hascii, if_pos hascii]
      dsimp only
      rw [isSuitableSpec_decoded]
      split_ifs
      · rfl
      · split
        · rename_i e he
          rw [hspaces] at he
          cases he
        · rename_i y found' rest' hrest'
          rw [hspaces] at hrest'
          cases hrest'
          rfl
    · rw [if_neg hascii, if_neg hascii]

theorem alternatives_cons_cons (spec spec' : RtspTransportSpec) (specs : List RtspTransportSpec) :
    alternatives (spec :: spec' :: specs) = spec.encode ++ ',' :: alternatives (spec' :: specs) := rfl

theorem starts_alternatives (specs : List RtspTransportSpec) : Starts (alternatives specs) := by
  cases specs with
  | nil => exact starts_nil
  | cons spec specs =>
    refine starts_append (starts_encode spec) ?_
    cases specs with
    | nil => exact starts_nil
    | cons spec' specs =>
      rintro _ ⟨⟩
      decide

theorem parseTransportHeader_alternatives {specs : List RtspTransportSpec} (hne : specs ≠ [])
    (h : ∀ spec ∈ specs, FreeHosts spec) : parseTransportHeader ⟨alternatives specs ++ CRLF, 0⟩ = firstSuitable specs := by
  induction specs with
  | nil => exact absurd rfl hne
  | cons spec specs ih =>
    have hspec := h spec (List.mem_cons_self ..)
    cases specs with
    | nil =>
      rw [alternatives, List.flatMap_nil, List.append_nil]
      exact parseTransportHeader_last hspec (by simp [CRLF]) (by simp [CRLF])
    | cons spec' specs =>
      have hstarts : Starts (alternatives (spec' :: specs) ++ CRLF) := by
        refine starts_append (starts_alternatives _) ?_
        rintro _ ⟨⟩
        decide
      rw [alternatives_cons_cons, List.append_assoc, List.cons_append, parseTransportHeader_cons hspec hstarts,
        ih (List.cons_ne_nil spec' specs) fun s hs => h s (List.mem_cons_of_mem spec hs)]
      conv_rhs => rw [firstSuitable]

/-! ## From the header to the message -/

/-- The header that is put together of the alternatives. -/
def headerFor (specs : List RtspTransportSpec) : RtspTransportHdr :=
  specs.foldl RtspTransportHdr.appendTransportSpec {}

/-- What a message has for its transport, when the header was read as a line of it between others. -/
def received (msg : RtspMsg) (before behind : Data) (hdr : RtspTransportHdr) : Except Stop (Option RtspTransportSpec) := do
  let msg ← RtspMsgParser.readHeader msg hdr.encode before.length
  { msg with myHeaders := before ++ (hdr.encode ++ behind) }.getTransport

theorem foldl_appendTransportSpec (specs : List RtspTransportSpec) {text : Data} (hne : text ≠ []) :
    specs.foldl RtspTransportHdr.appendTransportSpec ⟨text⟩ = ⟨text ++ specs.flatMap fun spec => ',' :: spec.encode⟩ := by
  induction specs generalizing text with
  | nil => rw [List.foldl_nil, List.flatMap_nil, List.append_nil]
  | cons spec specs ih =>
    have hlength : ¬ text.length = 0 := fun h => hne (List.length_eq_zero_iff.mp h)
    rw [List.foldl_cons, RtspTransportHdr.appendTransportSpec, if_neg hlength, ih (by simp), List.flatMap_cons]
    simp

theorem encode_headerFor {specs : List RtspTransportSpec} (hne : specs ≠ []) :
    (headerFor specs).encode = "Transport: ".toList ++ (alternatives specs ++ CRLF) := by
  cases specs with
  | nil => exact absurd rfl hne
  | cons spec specs =>
    have hfirst : RtspTransportHdr.appendTransportSpec {} spec = ⟨"Transport: ".toList ++ spec.encode⟩ := rfl
    rw [headerFor, List.foldl_cons, hfirst, foldl_appendTransportSpec specs (by simp), RtspTransportHdr.encode,
      if_pos (by simp), alternatives]
    simp

theorem readHeader_transport (msg : RtspMsg) (offset : Nat) {text : Data} (hstarts : Starts text) :
    RtspMsgParser.readHeader msg ("Transport: ".toList ++ text) offset =
      .ok (msg.setHeadersMap .RTSP_TRANSPORT_HDR (some { offset := offset + 11, len := text.length })) := by
  have hword : getNextWord ⟨"Transport".toList ++ ':' :: ' ' :: text, 0⟩ =
      .ok ("Transport".toList, true, ⟨':' :: ' ' :: text, 0⟩) :=
    getNextWord_append (by simp; decide) (by decide) rfl
  have hthru : parseThru ⟨':' :: ' ' :: text, 0⟩ ':' = .ok ([':'], true, ⟨' ' :: text, 0⟩) :=
    parseThru_append (x := []) (by simp)
  have hspaces : ∃ found, getThruSpaces ⟨' ' :: text, 0⟩ = .ok ([' '], found, ⟨text, 0⟩) := by
    have hscan : scan (entry myMaskNonSpace) ([' '] ++ text) = .ok ([' '], text) := by
      refine scan_append ?_ fun d hd => entry_eq_ok_iff.mpr (hstarts d hd)
      intro d hd
      rw [List.mem_singleton.mp hd]
      rfl
    rw [getThruSpaces, parseUntil_of_scan (p := ⟨' ' :: text, 0⟩) hscan, if_neg (by simp)]
    exact ⟨_, rfl⟩
  obtain ⟨found, hspaces⟩ := hspaces
  have hheader : RtspUtil.getHeaderInNumber "Transport".toList = .RTSP_TRANSPORT_HDR := by decide
  change RtspMsgParser.readHeader msg ("Transport".toList ++ ':' :: ' ' :: text) offset = _
  rw [RtspMsgParser.readHeader, hword]
  simp only [bind, Except.bind, hheader, hthru, hspaces]
  have hlength : offset + ("Transport".toList ++ ':' :: ' ' :: text).length - (offset + 9 + 1 + 1) = text.length := by
    rw [List.length_append, List.length_cons, List.length_cons, show "Transport".toList.length = 9 by rfl]
    omega
  exact congrArg (fun len => Except.ok (msg.setHeadersMap _ (some ⟨offset + 11, len⟩))) hlength

theorem received_headerFor {specs : List RtspTransportSpec} (hne : specs ≠ []) (h : ∀ spec ∈ specs, FreeHosts spec)
    (msg : RtspMsg) (before behind : Data) : received msg before behind (headerFor specs) = firstSuitable specs := by
  have hstarts : Starts (alternatives specs ++ CRLF) := by
    refine starts_append (starts_alternatives _) ?_
    rintro _ ⟨⟩
    decide
  rw [received, encode_headerFor hne, readHeader_transport msg before.length hstarts,
    ← parseTransportHeader_alternatives hne h]
  generalize alternatives specs ++ CRLF = text
  have hshape : before ++ ("Transport: ".toList ++ text ++ behind) = (before ++ "Transport: ".toList) ++ (text ++ behind) := by
    simp only [List.append_assoc]
  have hlength : (before ++ "Transport: ".toList).length = before.length + 11 := by
    rw [List.length_append]
    rfl
  have hbody : RtspMsg.hdrBody { msg with myHeaders := before ++ ("Transport: ".toList ++ text ++ behind) }
      ⟨before.length + 11, text.length⟩ = .ok ⟨text, 0⟩ := by
    rw [RtspMsg.hdrBody, if_pos (by simp; omega), hshape, ← hlength, List.drop_left, List.take_left]
  simp only [bind, Except.bind, RtspMsg.getTransport, RtspMsg.setHeadersMap, if_true]
  change (RtspMsg.hdrBody { msg with myHeaders := before ++ ("Transport: ".toList ++ text ++ behind) }
      ⟨before.length + 11, text.length⟩ >>= parseTransportHeader) = _
  rw [hbody]
  rfl

/-! ## What comes back -/

/-- The alternatives that are read have hosts with entries in the masks, and the suitable one has no server ports. -/
def Complete (specs : List RtspTransportSpec) : Prop :=
  (∀ spec ∈ specs.takeWhile (!isSuitableSpec ·), AsciiHosts spec) ∧
    ∀ spec ∈ specs.find? isSuitableSpec, AsciiHosts spec ∧ spec.myServerPortA = 0 ∧ spec.myServerPortB = 0

theorem decoded_eq_iff (h : isSuitableSpec spec = true) :
    decoded spec = spec ↔ spec.myServerPortA = 0 ∧ spec.myServerPortB = 0 := by
  obtain ⟨tcp, multicast, record, append, destination, source, clientA, clientB, serverA, serverB⟩ := spec
  rw [isSuitableSpec] at h
  split_ifs at h with hway hclient
  obtain ⟨rfl, rfl⟩ : tcp = false ∧ multicast = false := by simpa using hway
  have hclient' : clientA ≠ 0 := hclient
  simp [decoded, hclient', eq_comm]

theorem firstSuitable_eq_find_iff (specs : List RtspTransportSpec) :
    firstSuitable specs = .ok (specs.find? isSuitableSpec) ↔ Complete specs := by
  induction specs with
  | nil => simp [firstSuitable, Complete]
  | cons spec specs ih =>
    rw [firstSuitable, Complete]
    cases hsuitable : isSuitableSpec spec with
    | true =>
      rw [List.find?_cons_of_pos hsuitable, List.takeWhile_cons_of_neg (by simp [hsuitable]), if_pos rfl]
      by_cases hascii : AsciiHosts spec
      · simp [hascii, decoded_eq_iff hsuitable]
      · simp [hascii]
    | false =>
      rw [List.find?_cons_of_neg (by simp [hsuitable]), List.takeWhile_cons_of_pos (by simp [hsuitable]),
        if_neg Bool.false_ne_true]
      by_cases hascii : AsciiHosts spec
      · rw [if_pos hascii, ih, Complete, List.forall_mem_cons, and_iff_right hascii]
      · simp [hascii]

/-- The first suitable alternative comes back when the hosts can be read and it names no server ports, and only then. -/
theorem received_eq_find_iff {specs : List RtspTransportSpec} (hne : specs ≠ []) (h : ∀ spec ∈ specs, FreeHosts spec)
    (msg : RtspMsg) (before behind : Data) :
    received msg before behind (headerFor specs) = .ok (specs.find? isSuitableSpec) ↔ Complete specs := by
  rw [received_headerFor hne h]
  exact firstSuitable_eq_find_iff specs

/-- An alternative over TCP, and one that is suitable. -/
def offered : List RtspTransportSpec :=
  [{ myIsTcp := true, myClientPortA := 3456 },
    { myIsRecord := true, mySource := "10.0.0.1".toList, myClientPortA := 5000, myClientPortB := 5001 }]

theorem received_eq_find_iff_offered :
    received { cls := .RtspSetupMsg } [] CRLF (headerFor offered) = .ok (offered.find? isSuitableSpec) := by
  refine (received_eq_find_iff (List.cons_ne_nil _ _) ?_ { cls := .RtspSetupMsg } [] CRLF).mpr ?_
  · simp [FreeHosts, Free, separator, myMaskEolSpace]
  · simp [Complete, isSuitableSpec, AsciiHosts, Ascii]

/-- The answer of a server names its own ports. -/
def answered : RtspTransportSpec := { myClientPortA := 3456, myServerPortA := 5678 }

theorem not_received_eq_find :
    ¬ ∀ specs : List RtspTransportSpec, specs ≠ [] → (∀ spec ∈ specs, FreeHosts spec) →
      ∀ (msg : RtspMsg) (before behind : Data),
        received msg before behind (headerFor specs) = .ok (specs.find? isSuitableSpec) := by
  intro hall
  have hfree : ∀ spec ∈ [answered], FreeHosts spec := by simp [answered, FreeHosts, Free]
  have hback := hall [answered] (List.cons_ne_nil _ _) hfree { cls := .RtspSetupMsg } [] []
  rw [received_headerFor (List.cons_ne_nil _ _) hfree, firstSuitable_eq_find_iff] at hback
  exact absurd (hback.2 answered rfl).2.1 (by decide)

end Vocal.Rtsp
