import Vocal.Sip.Message
import Vocal.Sip.Text.Match

/-!
# Loop detection

`SipCommand::computeProxyBranch`, the branch a proxy puts into its Via, and `SipCommand::detectLoop`, which
looks for it. MD5 is a parameter, as are the random bytes of the branch. The branch is the cookie, the hash
and the random part; `detectLoop` compares what is in front of the dot with the hash alone, so it never
recognises such a branch (`detectsLoop_iff`).
-/

namespace Vocal.Sip

/-- The parts of a request that its branch is computed from, and its Vias, the topmost first. -/
structure RoutedCommand where
  toUrl : Option BaseUrl
  fromUrl : Option BaseUrl
  callId : SipCallId
  requestUrl : Option BaseUrl
  cseq : SipCSeq
  viaList : List SipVia
  deriving DecidableEq, Repr

/-- `SipCallId::encode`. -/
def SipCallId.encode (c : SipCallId) : Data :=
  if c.localid ≠ [] then "Call-ID:".toList ++ ' ' :: c.getCallIdData ++ CRLF else []

namespace RoutedCommand

/-- What a url adds to the hash: only urls of type `SIP_URL` do. -/
def urlPart : Option BaseUrl → Data
  | some (.sipUrl u) => u.getNameAddr
  | _ => []

section Branch

variable (md5 : Data → Octets 16)

/-- `SipCommand::computeBranch`. -/
def computeBranch (c : RoutedCommand) (hashBranch : Data := []) : Data :=
  convertToHex (md5 (hashBranch ++ urlPart c.toUrl ++ urlPart c.fromUrl ++ c.callId.encode ++
    urlPart c.requestUrl ++ c.cseq.cseq)).1

/-- `SipCommand::computeUniqueBranch`. -/
def computeUniqueBranch (random : Octets 4) : Data := convertToHex random.1

/-- `SipCommand::computeStatelessProxyBranch`. -/
def computeStatelessProxyBranch (c : RoutedCommand) : Data := c.computeBranch md5

/-- `SipCommand::computeProxyBranch`. -/
def computeProxyBranch (c : RoutedCommand) (random : Octets 4) : Data :=
  "z9hG4bK".toList ++ c.computeStatelessProxyBranch md5 ++ ".".toList ++ computeUniqueBranch random

/-- Whether the branch of a Via is recognised. -/
def recognises (checkBranch branch : Data) : Bool :=
  match Data.match branch ".".toList with
  | .FOUND pb _ => pb = checkBranch
  | _ => false

/-- `SipCommand::detectLoop`. -/
def detectLoop (c : RoutedCommand) : Bool :=
  c.viaList.any fun via => recognises (c.computeBranch md5) via.branch

end Branch

variable {md5 : Data → Octets 16}

theorem dot_notMem_computeBranch (c : RoutedCommand) : '.' ∉ c.computeBranch md5 :=
  notMem_convertToHex (by decide) _

theorem length_computeBranch (c : RoutedCommand) : (c.computeBranch md5).length = 32 := by
  rw [computeBranch, length_convertToHex]
  simp

theorem recognises_iff {checkBranch : Data} (hne : checkBranch ≠ []) (hdot : '.' ∉ checkBranch) (branch : Data) :
    recognises checkBranch branch = true ↔ (checkBranch ++ ['.']) <+: branch := by
  constructor
  · intro h
    rcases Data.match_cases branch '.' with ⟨-, hmatch⟩ | ⟨rest, -, hmatch⟩ | ⟨x, rest, -, -, rfl, hmatch⟩
    · simp [recognises, hmatch] at h
    · simp [recognises, hmatch] at h
    · have hx : x = checkBranch := by
        simpa [recognises, hmatch] using h
      exact ⟨rest, by simp [hx]⟩
  · rintro ⟨rest, rfl⟩
    have hmatch := Data.match_found hdot hne rest
    rw [recognises, List.append_assoc]
    simp [hmatch]

theorem detectLoop_iff (c : RoutedCommand) :
    c.detectLoop md5 = true ↔ ∃ via ∈ c.viaList, (c.computeBranch md5 ++ ['.']) <+: via.branch := by
  have hne : c.computeBranch md5 ≠ [] := by
    apply List.ne_nil_of_length_pos
    rw [length_computeBranch]
    decide
  simp only [detectLoop, List.any_eq_true, recognises_iff hne (dot_notMem_computeBranch c)]

/-- The branch of a proxy begins with the cookie, which is not hexadecimal. -/
theorem proxyBranch_not_hash (c : RoutedCommand) (random : Octets 4) :
    ¬(c.computeBranch md5 ++ ['.']) <+: c.computeProxyBranch md5 random := by
  intro h
  have hz : 'z' ∉ c.computeBranch md5 := notMem_convertToHex (by decide) _
  cases hbranch : c.computeBranch md5 with
  | nil =>
    have hlen : (c.computeBranch md5).length = 32 := length_computeBranch c
    rw [hbranch] at hlen
    cases hlen
  | cons d rest =>
    rw [hbranch] at h hz
    have hd : d = 'z' := (List.cons_prefix_cons.mp h).1
    rw [hd] at hz
    exact hz List.mem_cons_self

/-- One of the Vias has the branch that a proxy computed for the same contents. -/
def Carries (md5 : Data → Octets 16) (c : RoutedCommand) : Prop :=
  ∃ random, ∃ via ∈ c.viaList, via.branch = c.computeProxyBranch md5 random

/-- A loop is only detected through another Via, with the hash and a dot at the start of its branch. -/
theorem detectsLoop_iff (md5 : Data → Octets 16) (c : RoutedCommand) :
    (Carries md5 c → c.detectLoop md5 = true) ↔
      (Carries md5 c → ∃ via ∈ c.viaList, (∀ random, via.branch ≠ c.computeProxyBranch md5 random) ∧
        (c.computeBranch md5 ++ ['.']) <+: via.branch) := by
  rw [detectLoop_iff]
  constructor
  · intro h hcarries
    obtain ⟨via, hvia, hstart⟩ := h hcarries
    refine ⟨via, hvia, fun random heq => ?_, hstart⟩
    rw [heq] at hstart
    exact proxyBranch_not_hash c random hstart
  · intro h hcarries
    obtain ⟨via, hvia, -, hstart⟩ := h hcarries
    exact ⟨via, hvia, hstart⟩

/-- A request with one Via, whose branch a proxy computed for it. -/
def looped : RoutedCommand where
  toUrl := none
  fromUrl := none
  callId := ⟨"1".toList, "h".toList⟩
  requestUrl := none
  cseq := ⟨"1".toList, INVITE_METHOD⟩
  viaList := [⟨"UDP".toList, "z9hG4bK".toList ++ List.replicate 32 '0' ++ '.' :: List.replicate 8 '0'⟩]

theorem looped_not_detected :
    Carries (fun _ => .replicate 16 0) looped ∧ looped.detectLoop (fun _ => .replicate 16 0) = false :=
  ⟨⟨.replicate 4 0, _, List.mem_singleton.mpr rfl, by decide⟩, by decide⟩

end RoutedCommand

end Vocal.Sip
