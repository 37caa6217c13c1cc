import Vocal.Sip.Url

/-!
# The keys of urls

`getUniqueKey` is the text of a url up to its parameters, as it is spelled. Urls that `operator==` takes for
equal can differ there in the case of the scheme and the host, in the brackets of an address, and in whether the
default port is written; their keys are the same exactly if they do not (`getUniqueKey_eq_iff`).
-/

namespace Vocal.Sip.Url.SipUrl

variable {u v : SipUrl}

/-- The host, an address of the sixth version in brackets. -/
def hostText (u : SipUrl) : Data := if u.ipv6Addr then '[' :: u.host ++ [']'] else u.host

def getNameAddr (u : SipUrl) : Data :=
  (if u.schemeName ≠ [] then u.schemeName ++ [':'] else []) ++ (u.userText ++ (u.hostText ++ u.portText))

def getUniqueKey (u : SipUrl) : Data := u.getNameAddr

/-- The parts of the key are spelled alike. -/
structure SpelledAlike (u v : SipUrl) : Prop where
  schemeName : u.schemeName = v.schemeName
  host : u.host = v.host
  ipv6Addr : u.ipv6Addr = v.ipv6Addr
  port : u.portText = v.portText

theorem common_of_equals (h : u.equals v = true) :
    u.userText = v.userText ∧ u.schemeName.length = v.schemeName.length ∧ u.host.length = v.host.length ∧
      orDefault u.port "5060".toList = orDefault v.port "5060".toList := by
  unfold equals at h
  simp only [Bool.and_eq_true, decide_eq_true_eq, and_assoc] at h
  obtain ⟨huser, hscheme, hpasswd, hhost, -, -, -, -, -, -, hport, -⟩ := h
  refine ⟨?_, length_eq_of_isEqualNoCase hscheme, length_eq_of_isEqualNoCase hhost, hport⟩
  unfold userText
  rw [huser, hpasswd]

theorem length_hostText (u : SipUrl) :
    u.hostText.length = u.host.length + if u.ipv6Addr then 2 else 0 := by
  unfold hostText
  split <;> simp

theorem length_portText_cases (h : orDefault u.port "5060".toList = orDefault v.port "5060".toList) :
    u.portText.length = v.portText.length ∨ u.portText.length = v.portText.length + 5 ∨
      v.portText.length = u.portText.length + 5 := by
  unfold orDefault at h
  unfold portText
  by_cases hu : u.port = []
  · by_cases hv : v.port = []
    · rw [hu, hv]
      exact Or.inl rfl
    · rw [if_pos hu, if_neg hv] at h
      rw [hu, ← h]
      decide
  · by_cases hv : v.port = []
    · rw [if_neg hu, if_pos hv] at h
      rw [hv, h]
      decide
    · rw [if_neg hu, if_neg hv] at h
      rw [h]
      exact Or.inl rfl

theorem hostText_inj (h : u.hostText = v.hostText) (hflag : u.ipv6Addr = v.ipv6Addr) : u.host = v.host := by
  unfold hostText at h
  rw [hflag] at h
  split at h
  · exact List.append_cancel_right (List.cons.inj h).2
  · exact h

/-- **The keys of equal urls** are the same exactly if the urls spell the parts of the key alike. -/
theorem getUniqueKey_eq_iff (h : u.equals v = true) : u.getUniqueKey = v.getUniqueKey ↔ SpelledAlike u v := by
  obtain ⟨huser, hscheme, hhost, hport⟩ := common_of_equals h
  unfold getUniqueKey getNameAddr
  constructor
  · intro hkey
    -- the schemes are equally long, and so are the users
    have hsplit : u.schemeName = v.schemeName ∧ u.hostText ++ u.portText = v.hostText ++ v.portText := by
      by_cases hu : u.schemeName = []
      · have hv : v.schemeName = [] := by
          apply List.eq_nil_of_length_eq_zero
          rw [← hscheme, hu]
          rfl
        rw [if_neg (not_not.mpr hu), if_neg (not_not.mpr hv), huser] at hkey
        exact ⟨hu.trans hv.symm, List.append_cancel_left (List.append_cancel_left hkey)⟩
      · have hv : v.schemeName ≠ [] := by
          intro hv
          rw [hv] at hscheme
          exact hu (List.eq_nil_of_length_eq_zero hscheme)
        rw [if_pos hu, if_pos hv, huser] at hkey
        obtain ⟨hfront, hrest⟩ := List.append_inj hkey (by simp [hscheme])
        exact ⟨List.append_cancel_right hfront, List.append_cancel_left hrest⟩
    obtain ⟨hschemes, hhosts⟩ := hsplit
    -- brackets are two characters and the default port is five: no other difference makes up for them
    have hlength := congrArg List.length hhosts
    have hlengths := length_portText_cases hport
    rw [List.length_append, List.length_append, length_hostText, length_hostText] at hlength
    have hflag : u.ipv6Addr = v.ipv6Addr := by
      cases hu : u.ipv6Addr <;> cases hv : v.ipv6Addr <;> simp [hu, hv] at hlength ⊢ <;> omega
    have hequal : u.hostText.length = v.hostText.length := by
      rw [length_hostText, length_hostText, hhost, hflag]
    obtain ⟨htexts, hports⟩ := List.append_inj hhosts hequal
    exact ⟨hschemes, hostText_inj htexts hflag, hflag, hports⟩
  · rintro ⟨hschemes, hhosts, hflag, hports⟩
    unfold hostText
    rw [huser, hschemes, hhosts, hflag, hports]

/-- Hosts are equal in any case, and the port is the default one. -/
theorem equals_of_other_key :
    ∃ u v, fastDecode "sip:u@h".toList = some u ∧ fastDecode "sip:u@H:5060".toList = some v ∧
      u.equals v = true ∧ u.getUniqueKey ≠ v.getUniqueKey :=
  ⟨{ user := some (.sipUser "u".toList), host := "h".toList },
    { user := some (.sipUser "u".toList), host := "H".toList, port := "5060".toList },
    by decide, by decide, by decide, by decide⟩

/-- Urls with other parameters of the same meaning have one key. -/
theorem getUniqueKey_eq_iff_udp :
    getUniqueKey { host := "h".toList, transportParam := "udp".toList } = getUniqueKey { host := "h".toList } :=
  (getUniqueKey_eq_iff (by decide)).mpr ⟨rfl, rfl, rfl, rfl⟩

end Vocal.Sip.Url.SipUrl
