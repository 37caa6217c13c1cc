import Vocal.Sip.From
import Vocal.Sip.Url.Equal

/-!
# Urls between brackets

A header writes its url between angle brackets, and the reader trims what stands between them. `Writable` says,
for each kind of url, when an equal one is read from there.
-/

namespace Vocal.Sip.Url

open Data

/-! ### Urls of instant messages and of presence -/

namespace ImpBaseUrl

variable {u w : ImpBaseUrl} {scheme data : Data}

/-- What holds of every url that was read. -/
structure Decoded (scheme : Data) (u : ImpBaseUrl) : Prop where
  scheme : u.schemeName = scheme
  user_at : '@' ∉ u.user
  user_colon : u.user.head? ≠ some ':'
  host : ';' ∉ u.host

theorem fastDecode_cases (h : fastDecode scheme data = some u) :
    u.Decoded scheme ∧ scheme.length + u.user.length + u.host.length + 2 ≤ data.length := by
  rw [fastDecode] at h
  rcases parse_cases data ':' with ⟨-, hparse⟩ | ⟨urlType, rest, -, rfl, hparse⟩
  · rw [hparse] at h
    exact absurd h (by simp)
  · rw [hparse] at h
    simp only at h
    split at h
    · exact absurd h (by simp)
    · rename_i hscheme
      have hlen : urlType.length = scheme.length := by
        rw [Bool.not_eq_true', Bool.not_eq_false, isEqualNoCase, decide_eq_true_eq] at hscheme
        simpa using congrArg List.length hscheme
      rcases matchChar_cases (rest.dropWhile (isIn · [':'])) '@' with ⟨-, hat⟩ | ⟨user, host, huser, hrest, hat⟩
      · rw [hat] at h
        exact absurd h (by simp)
      · rw [hat] at h
        simp only at h
        split at h
        · exact absurd h (by simp)
        · rename_i hsemi
          rw [Option.some.injEq] at h
          subst h
          refine ⟨⟨rfl, huser, ?_, ?_⟩, ?_⟩
          · intro hcolon
            have hhead : (rest.dropWhile (isIn · [':'])).head? ≠ some ':' := head?_dropWhile_isIn
            rw [hrest, List.head?_append, hcolon] at hhead
            exact hhead rfl
          · intro hc
            rcases matchChar_cases host ';' with ⟨hno, -⟩ | ⟨x, y, -, -, hm⟩
            · exact hno hc
            · rw [hm] at hsemi
              exact hsemi rfl
          · have hdrop : (rest.dropWhile (isIn · [':'])).length ≤ rest.length :=
              (List.dropWhile_suffix _).length_le
            have hsplit := congrArg List.length hrest
            simp only [List.length_append, List.length_cons] at hsplit ⊢
            omega

theorem fastDecode_encode (hu : u.Decoded scheme) (hcolon : ':' ∉ scheme) (huser : u.user ≠ []) :
    fastDecode scheme u.encode = some u := by
  have htext : u.encode = scheme ++ ':' :: (u.user ++ '@' :: u.host) := by
    rw [encode, if_pos huser, hu.scheme]
    simp
  have hhead : (u.user ++ '@' :: u.host).head? ≠ some ':' := by
    rw [List.head?_append_of_ne_nil _ huser]
    exact hu.user_colon
  rw [htext, fastDecode, parse_found_of_head hcolon hhead]
  simp only
  rw [if_neg (by simp [SipUrl.isEqualNoCase_self]), matchChar_found hu.user_at]
  simp only
  rw [matchChar_not_found hu.host, if_neg (by simp), ← hu.scheme]

/-- What is lost of the text is lost of the url. -/
theorem of_equals_read (hu : u.Decoded scheme) (h : fastDecode scheme (removeSpaces u.encode) = some w)
    (hequal : u.equals w = true) : u.user ≠ [] ∧ TrimmedOfSpaces u.encode := by
  simp only [equals, Bool.and_eq_true] at hequal
  have huser := length_eq_of_isEqualNoCase hequal.1.2
  have hhost := length_eq_of_isEqualNoCase hequal.2
  have hread := (fastDecode_cases h).2
  have htrim : (removeSpaces u.encode).length ≤ u.encode.length := Cut.length_trim_le _
  have hlen : u.encode.length =
      scheme.length + 1 + (if u.user ≠ [] then u.user.length + 1 else 0) + u.host.length := by
    rw [encode, hu.scheme]
    split <;> simp <;> omega
  constructor
  · intro hnil
    rw [hnil, if_neg (by simp)] at hlen
    rw [hnil] at huser
    simp only [List.length_nil] at huser
    omega
  · apply Cut.trimmed_of_length
    show u.encode.length ≤ (removeSpaces u.encode).length
    have hle : (if u.user ≠ [] then u.user.length + 1 else 0) ≤ u.user.length + 1 := by split <;> omega
    omega

end ImpBaseUrl

/-! ### All kinds -/

namespace BaseUrl

variable {url w : BaseUrl} {data : Data}

/-- The reader of its kind gives the url. -/
def ReadFrom (data : Data) : BaseUrl → Prop
  | sipUrl u => SipUrl.fastDecode data = some u
  | telUrl u => TelUrl.fastDecode data = some u
  | imUrl u => ImpBaseUrl.fastDecode "im".toList data = some u
  | presUrl u => ImpBaseUrl.fastDecode "pres".toList data = some u
  | unknownUrl myUrl => myUrl = data

theorem readFrom_of_decode (h : decode data = some url) : url.ReadFrom data := by
  have hmap : ∀ {α : Type} {o : Option α} {f : α → BaseUrl}, o.map f = some url →
      ∃ a, o = some a ∧ f a = url := Option.map_eq_some_iff.mp
  rw [decode] at h
  split at h
  · split_ifs at h
    · obtain ⟨u, hu, rfl⟩ := hmap h
      exact hu
    · obtain ⟨u, hu, rfl⟩ := hmap h
      exact hu
    · obtain ⟨u, hu, rfl⟩ := hmap h
      exact hu
    · obtain ⟨u, hu, rfl⟩ := hmap h
      exact hu
    · rw [← Option.some.inj h]
      rfl
  · rw [← Option.some.inj h]
    rfl

theorem decode_scheme {scheme rest : Data} (hcolon : ':' ∉ scheme) (hne : scheme ≠ []) :
    decode (scheme ++ ':' :: rest) =
      if isEqualNoCase scheme "sip".toList then (SipUrl.fastDecode (scheme ++ ':' :: rest)).map .sipUrl
      else if isEqualNoCase scheme "tel".toList then (TelUrl.fastDecode (scheme ++ ':' :: rest)).map .telUrl
      else if isEqualNoCase scheme "im".toList then
        (ImpBaseUrl.fastDecode "im".toList (scheme ++ ':' :: rest)).map .imUrl
      else if isEqualNoCase scheme "pres".toList then
        (ImpBaseUrl.fastDecode "pres".toList (scheme ++ ':' :: rest)).map .presUrl
      else some (.unknownUrl (scheme ++ ':' :: rest)) := by
  rw [decode, match_found hcolon hne]

theorem decode_encode_sip {u : SipUrl} (hu : u.Decoded) :
    decode u.encode = (SipUrl.fastDecode u.encode).map .sipUrl := by
  have hscheme : u.schemeName ≠ [] := by
    intro hnil
    have hsip := hu.scheme
    rw [hnil] at hsip
    exact absurd hsip (by decide)
  have htext : u.encode = u.schemeName ++ ':' :: (u.encode.drop (u.schemeName.length + 1)) := by
    rw [SipUrl.encode]
    simp [List.append_assoc]
  rw [htext, decode_scheme (SipUrl.colon_not_mem_scheme hu.scheme).1 hscheme, if_pos hu.scheme]

theorem decode_encode_im {u : ImpBaseUrl} (hu : u.Decoded "im".toList) (huser : u.user ≠ []) :
    decode u.encode = some (.imUrl u) := by
  have htext : u.encode = "im".toList ++ ':' :: (u.encode.drop 3) := by
    rw [ImpBaseUrl.encode, hu.scheme]
    rfl
  rw [htext, decode_scheme (by decide) (by decide), if_neg (by decide), if_neg (by decide), if_pos (by decide),
    ← htext, ImpBaseUrl.fastDecode_encode hu (by decide) huser]
  rfl

theorem decode_encode_pres {u : ImpBaseUrl} (hu : u.Decoded "pres".toList) (huser : u.user ≠ []) :
    decode u.encode = some (.presUrl u) := by
  have htext : u.encode = "pres".toList ++ ':' :: (u.encode.drop 5) := by
    rw [ImpBaseUrl.encode, hu.scheme]
    rfl
  rw [htext, decode_scheme (by decide) (by decide), if_neg (by decide), if_neg (by decide), if_neg (by decide),
    if_pos (by decide), ← htext, ImpBaseUrl.fastDecode_encode hu (by decide) huser]
  rfl

/-! ### Reading back -/

/-- An equal url is read from the text between brackets; an empty text is refused there. -/
def ReadBack (url : BaseUrl) : Prop :=
  url.encode ≠ [] ∧ ∃ w, decode (removeSpaces url.encode) = some w ∧ url.areEqual w = some true

/-- The urls that are read back. -/
def Writable : BaseUrl → Prop
  | sipUrl u => (u.Found ∧ TrimmedOfSpaces u.encode) ∧ u.Kept
  | telUrl _ => False
  | imUrl u => u.user ≠ [] ∧ TrimmedOfSpaces u.encode
  | presUrl u => u.user ≠ [] ∧ TrimmedOfSpaces u.encode
  | unknownUrl myUrl => myUrl ≠ [] ∧ TrimmedOfSpaces myUrl

/-- The parts of a SIP url are found in its text. -/
def Legible : BaseUrl → Prop
  | sipUrl u => u.Found ∧ TrimmedOfSpaces u.encode
  | _ => True

theorem imp_encode_ne_nil (u : ImpBaseUrl) : u.encode ≠ [] := by
  rw [ImpBaseUrl.encode]
  simp

theorem imp_equals_self (u : ImpBaseUrl) : u.equals u = true := by
  simp [ImpBaseUrl.equals, SipUrl.isEqualNoCase_self]

theorem readBack_of_writable (h : decode data = some url) (hw : url.Writable) : url.ReadBack := by
  have hread := readFrom_of_decode h
  cases url with
  | sipUrl u =>
    have hu := SipUrl.decoded_of_fastDecode hread
    obtain ⟨⟨hfound, htrimmed⟩, hkept⟩ := hw
    obtain ⟨w, hw, hequal⟩ := SipUrl.roundTrips_of_kept hu hfound hkept
    refine ⟨?_, .sipUrl w, ?_, congrArg some hequal⟩
    · show u.encode ≠ []
      rw [SipUrl.encode]
      simp
    · show decode (removeSpaces u.encode) = _
      rw [removeSpaces_eq_self htrimmed, decode_encode_sip hu, hw]
      rfl
  | telUrl u => exact hw.elim
  | imUrl u =>
    obtain ⟨huser, htrimmed⟩ := hw
    refine ⟨imp_encode_ne_nil u, .imUrl u, ?_, congrArg some (imp_equals_self u)⟩
    show decode (removeSpaces u.encode) = _
    rw [removeSpaces_eq_self htrimmed, decode_encode_im (ImpBaseUrl.fastDecode_cases hread).1 huser]
  | presUrl u =>
    obtain ⟨huser, htrimmed⟩ := hw
    refine ⟨imp_encode_ne_nil u, .presUrl u, ?_, congrArg some (imp_equals_self u)⟩
    show decode (removeSpaces u.encode) = _
    rw [removeSpaces_eq_self htrimmed, decode_encode_pres (ImpBaseUrl.fastDecode_cases hread).1 huser]
  | unknownUrl myUrl =>
    have hdata : myUrl = data := hread
    refine ⟨hw.1, .unknownUrl myUrl, ?_, by simp [areEqual]⟩
    show decode (removeSpaces myUrl) = _
    rw [removeSpaces_eq_self hw.2, hdata, h, hdata]

theorem areEqual_cases (h : url.areEqual w = some true) :
    (∃ a b, url = .sipUrl a ∧ w = .sipUrl b ∧ a.equals b = true) ∨
      (∃ a b, url = .imUrl a ∧ w = .imUrl b ∧ a.equals b = true) ∨
      (∃ a b, url = .presUrl a ∧ w = .presUrl b ∧ a.equals b = true) ∨
      ∃ t, url = .unknownUrl t ∧ w = .unknownUrl t := by
  unfold areEqual at h
  split at h
  · exact Or.inl ⟨_, _, rfl, rfl, Option.some.inj h⟩
  · exact absurd h (by simp)
  · exact Or.inr (Or.inl ⟨_, _, rfl, rfl, Option.some.inj h⟩)
  · exact Or.inr (Or.inr (Or.inl ⟨_, _, rfl, rfl, Option.some.inj h⟩))
  · rename_i a b
    have hab : a = b := by simpa using h
    exact Or.inr (Or.inr (Or.inr ⟨a, rfl, by rw [hab]⟩))
  · exact absurd h (by simp)

theorem writable_of_readBack (h : decode data = some url) (hlegible : url.Legible) (hback : url.ReadBack) :
    url.Writable := by
  have hread := readFrom_of_decode h
  obtain ⟨hne, w, hw, hequal⟩ := hback
  have hreadw := readFrom_of_decode hw
  rcases areEqual_cases hequal with ⟨a, b, rfl, rfl, hab⟩ | ⟨a, b, rfl, rfl, hab⟩ | ⟨a, b, rfl, rfl, hab⟩ |
    ⟨t, rfl, rfl⟩
  · have ha := SipUrl.decoded_of_fastDecode hread
    obtain ⟨e, he⟩ := SipUrl.fastDecode_found ha hlegible.1
    rw [encode, removeSpaces_eq_self hlegible.2, decode_encode_sip ha, he, Option.map_some, Option.some.injEq,
      sipUrl.injEq] at hw
    rw [← hw] at hab
    exact ⟨hlegible, SipUrl.kept_of_equals ha e hab⟩
  · exact ImpBaseUrl.of_equals_read (ImpBaseUrl.fastDecode_cases hread).1 hreadw hab
  · exact ImpBaseUrl.of_equals_read (ImpBaseUrl.fastDecode_cases hread).1 hreadw hab
  · have htext : t = removeSpaces t := hreadw
    refine ⟨hne, ?_⟩
    rw [htext]
    exact trimmedOfSpaces_removeSpaces t

end BaseUrl

end Vocal.Sip.Url
