import Vocal.Sip.Url.Equal

/-!
# Assigning urls

`SipUrl::operator=` copies the user and the embedded headers where there are some, and does not copy the name of
the other parameter. So what the left side held can stay, and `assign_iff` says when it does not show.
-/

namespace Vocal.Sip.Url.SipUrl

variable {a b : SipUrl}

/-- `SipUrl::operator=`. -/
def assign (a srcUrl : SipUrl) : SipUrl :=
  { a with
    schemeName := srcUrl.schemeName
    user := if srcUrl.user ≠ none then srcUrl.user else a.user
    passwd := srcUrl.passwd
    host := srcUrl.host
    port := srcUrl.port
    transportParam := srcUrl.transportParam
    ttlParam := srcUrl.ttlParam
    maddrParam := srcUrl.maddrParam
    userParam := srcUrl.userParam
    methodParam := srcUrl.methodParam
    otherParam := srcUrl.otherParam
    headers := srcUrl.headers
    lrParam := srcUrl.lrParam
    ipv6Addr := srcUrl.ipv6Addr
    EscObj := if srcUrl.EscObj ≠ none then srcUrl.EscObj else a.EscObj }

/-- What the left side held does not show: it had no user and no embedded headers that are not overwritten, and
its name of the other parameter is that of the right side, or is not written. Or the name on the right side
ends as what is left would have it. -/
structure Overwritten (a b : SipUrl) : Prop where
  user : b.user = none → a.user = none
  other : (b.otherParam = [] ∨ a.otherName = b.otherName) ∧ (b.EscObj = none → a.EscObj = none) ∨
    ∃ e, b.EscObj = none ∧ a.EscObj = some e ∧ b.otherParam ≠ [] ∧
      a.otherName ++ '=' :: b.otherParam ++ '?' :: e = b.otherName ++ '=' :: b.otherParam

/-! ### The text -/

/-- The text of the embedded headers. -/
def escText (EscObj : Option Data) : Data := match EscObj with | some e => '?' :: e | none => []

/-- The text in front of the other parameter. -/
def frontText (u : SipUrl) : Data :=
  u.schemeName ++ ':' :: u.userText ++ (if u.ipv6Addr then '[' :: u.host ++ [']'] else u.host) ++ u.portText ++
    (param "transport".toList u.transportParam ++ param "ttl".toList u.ttlParam ++
      param "maddr".toList u.maddrParam ++ param "user".toList u.userParam ++
      param "method".toList u.methodParam ++ if u.lrParam then ";lr".toList else [])

/-- The text behind the embedded headers. -/
def backText (u : SipUrl) : Data := (if u.headers ≠ [] then '?' :: u.headers else []) ++ u.telText

theorem encode_split (u : SipUrl) :
    u.encode = u.frontText ++ (param u.otherName u.otherParam ++ escText u.EscObj) ++ u.backText := by
  unfold encode frontText paramText backText escText
  cases u.EscObj with
  | none => simp only [List.append_assoc, List.cons_append]
  | some e => simp only [List.append_assoc, List.cons_append]

/-! ### Comparing -/

theorem user_assign_iff : (a.assign b).user = b.user ↔ (b.user = none → a.user = none) := by
  unfold assign
  by_cases hnone : b.user = none
  · simp [hnone]
  · simp [hnone]

theorem equals_assign_iff : (a.assign b).equals b = true ↔ (a.assign b).user = b.user := by
  have hother : ((a.assign b).equals b) = decide ((a.assign b).user = b.user) := by
    unfold equals assign
    simp [isEqualNoCase_self]
  rw [hother, decide_eq_true_iff]

theorem encode_assign_iff (huser : (a.assign b).user = b.user) :
    (a.assign b).encode = b.encode ↔
      param a.otherName b.otherParam ++ escText (if b.EscObj ≠ none then b.EscObj else a.EscObj) =
        param b.otherName b.otherParam ++ escText b.EscObj := by
  have hfront : (a.assign b).frontText = b.frontText := by
    unfold frontText userText
    rw [huser]
    rfl
  have hback : (a.assign b).backText = b.backText := by
    unfold backText telText
    rw [huser]
    rfl
  rw [encode_split, encode_split, hfront, hback, List.append_cancel_right_eq, List.append_cancel_left_eq]
  rfl

theorem other_iff (name name' value : Data) (e e' : Option Data) :
    param name value ++ escText (if e' ≠ none then e' else e) = param name' value ++ escText e' ↔
      (value = [] ∨ name = name') ∧ (e' = none → e = none) ∨
        ∃ d, e' = none ∧ e = some d ∧ value ≠ [] ∧
          name ++ '=' :: value ++ '?' :: d = name' ++ '=' :: value := by
  unfold param
  by_cases hvalue : value = []
  · subst hvalue
    cases e' with
    | none => cases e <;> simp [escText]
    | some d => simp
  · rw [if_pos hvalue, if_pos hvalue]
    cases e' with
    | none =>
      cases e with
      | none => simp [escText, hvalue]
      | some d => simp [escText, hvalue]
    | some d => simp [escText, hvalue]

/-- **Assigning a url** makes it equal to the right side, with the same text, exactly if what the left side held
is overwritten. -/
theorem assign_iff : ((a.assign b).equals b = true ∧ (a.assign b).encode = b.encode) ↔ Overwritten a b := by
  constructor
  · rintro ⟨hequal, htext⟩
    rw [equals_assign_iff] at hequal
    exact ⟨user_assign_iff.mp hequal, (other_iff ..).mp ((encode_assign_iff hequal).mp htext)⟩
  · intro h
    have huser := user_assign_iff.mpr h.user
    exact ⟨equals_assign_iff.mpr huser, (encode_assign_iff huser).mpr ((other_iff ..).mpr h.other)⟩

theorem overwritten_iff (hname : '=' ∉ a.otherName) (hname' : '=' ∉ b.otherName) :
    Overwritten a b ↔ (b.user = none → a.user = none) ∧ (b.otherParam = [] ∨ a.otherName = b.otherName) ∧
      (b.EscObj = none → a.EscObj = none) := by
  constructor
  · rintro ⟨huser, hother | ⟨e, -, -, -, htext⟩⟩
    · exact ⟨huser, hother⟩
    · -- both sides are cut at the first equals sign
      rw [List.append_assoc, List.cons_append] at htext
      have hlength := congrArg List.length ((Cut.append_cons_inj hname hname').mp htext).2
      simp at hlength
  · rintro ⟨huser, hother⟩
    exact ⟨huser, Or.inl hother⟩

end Vocal.Sip.Url.SipUrl
