import Mathlib.Data.Set.Function
import Vocal.Sip.Authorization
import Vocal.Sip.Text.Match

/-!
# Agreement on the digest

When the server accepts what the client put into a request. `digestAgreement` gives the condition, which is
exact as far as MD5 has no collisions on the texts of the exchange, and says that a response from another H(A1)
or H(A2) is refused.
-/

namespace Vocal.Sip

variable {md5 : Data → Octets 16}

/-! ### Hexadecimal digits -/

theorem digitChar_inj : ∀ d < 16, ∀ e < 16, Nat.digitChar d = Nat.digitChar e → d = e := by
  decide

theorem convertToHex_injective : Function.Injective convertToHex := by
  intro x
  induction x with
  | nil =>
    intro y h
    have hlen := congrArg List.length h
    rw [length_convertToHex, length_convertToHex] at hlen
    have hzero : y.length = 0 := by
      rw [List.length_nil] at hlen
      omega
    exact (List.length_eq_zero_iff.mp hzero).symm
  | cons a x ih =>
    intro y h
    cases y with
    | nil =>
      have hlen := congrArg List.length h
      rw [length_convertToHex, length_convertToHex] at hlen
      simp at hlen
    | cons b y =>
      have ha := a.toNat_lt
      have hb := b.toNat_lt
      obtain ⟨hhigh, hrest⟩ := List.cons.inj h
      obtain ⟨hlow, htail⟩ := List.cons.inj hrest
      have hdiv := digitChar_inj _ (by omega) _ (by omega) hhigh
      have hmod := digitChar_inj _ (by omega) _ (by omega) hlow
      have hab : a = b := UInt8.toNat_inj.mp (by omega)
      rw [hab, ih htail]

theorem CvtHex_injective : Function.Injective CvtHex :=
  fun _ _ h => Subtype.ext (convertToHex_injective h)

@[simp] theorem length_CvtHex (Bin : Octets 16) : (CvtHex Bin).length = 32 := by
  rw [CvtHex, length_convertToHex]
  simp

/-! ### C strings -/

theorem c_str_eq_self {d : Data} (h : '\x00' ∉ d) : d.c_str = d := by
  rw [Data.c_str, List.takeWhile_eq_self_iff]
  intro c hc
  simpa using fun hz : c = '\x00' => h (hz ▸ hc)

theorem nul_notMem_c_str (d : Data) : '\x00' ∉ d.c_str := by
  intro h
  simpa using List.mem_takeWhile_imp h

theorem length_c_str_le (d : Data) : d.c_str.length ≤ d.length := (List.takeWhile_sublist _).length_le

theorem nul_notMem_of_length {d : Data} (h : d.length ≤ d.c_str.length) : '\x00' ∉ d := by
  have heq : d.c_str = d := (List.takeWhile_sublist _).eq_of_length_le h
  rw [← heq]
  exact nul_notMem_c_str d

theorem c_str_CvtHex (Bin : Octets 16) : (CvtHex Bin).c_str = CvtHex Bin :=
  c_str_eq_self (notMem_convertToHex (by decide) _)

/-! ### Tokens -/

namespace SipAuthorization

theorem stripQuotes_eq_self {d : Data} (h : '"' ∉ d) : stripQuotes d = d := by
  rw [stripQuotes, find_singleton_eq_none h]

theorem length_stripQuotes_lt {d : Data} (h : '"' ∈ d) : (stripQuotes d).length < d.length := by
  obtain ⟨x, rest, rfl, hx⟩ := List.eq_append_cons_of_mem h
  rw [stripQuotes, find_singleton_append hx]
  simp

theorem stripQuotes_subset {d : Data} {c : Char} (h : c ∈ stripQuotes d) : c ∈ d := by
  rw [stripQuotes] at h
  split at h
  · exact List.mem_of_mem_drop (List.mem_of_mem_take h)
  · exact h

theorem getTokenValue_setToken (a : SipAuthorization) (name value token : Data) :
    (a.setToken name value).getTokenValue token =
      if name = token ∧ value.c_str ≠ [] then stripQuotes value.c_str else a.getTokenValue token := by
  rw [setToken]
  split
  · rename_i hne
    rw [getTokenValue, setTokenDetails, SipParameterList.getValue_setValue]
    by_cases h : name = token
    · simp [h, hne]
    · simp [h, getTokenValue]
  · rename_i hempty
    rw [if_neg fun h => hempty h.2]

theorem nul_notMem_getTokenValue (a : SipAuthorization) (token : Data) : '\x00' ∉ a.getTokenValue token :=
  fun h => nul_notMem_c_str _ (stripQuotes_subset h)

@[simp] theorem myAuthScheme_setToken (a : SipAuthorization) (name value : Data) :
    (a.setToken name value).myAuthScheme = a.myAuthScheme := by
  rw [setToken]
  split <;> rfl

end SipAuthorization

/-! ### What is hashed -/

theorem form_SIPdigest_eq (md5 : Data → Octets 16) (i : DigestInput) :
    form_SIPdigest md5 i = CvtHex (md5 (i.text md5)) := rfl

theorem text_inj {i j : DigestInput} (h : i.text md5 = j.text md5) :
    i.HA1 md5 = j.HA1 md5 ∧ i.HA2 md5 = j.HA2 md5 := by
  simp only [DigestInput.text, responseText, List.append_assoc, List.cons_append] at h
  obtain ⟨hHA1, hrest⟩ := List.append_inj h (by simp [DigestInput.HA1, DigestCalcHA1])
  refine ⟨hHA1, ?_⟩
  have hsplit : ∀ k : DigestInput, ':' :: (k.nonce ++ ':' ::
      ((if k.qop ≠ [] then k.noncecount ++ ':' :: (k.cnonce ++ ':' :: (k.qop ++ [':'])) else []) ++ k.HA2 md5)) =
      (':' :: (k.nonce ++ ':' ::
        (if k.qop ≠ [] then k.noncecount ++ ':' :: (k.cnonce ++ ':' :: (k.qop ++ [':'])) else []))) ++
        k.HA2 md5 := by
    intro k
    simp
  rw [hsplit i, hsplit j] at hrest
  exact (List.append_inj' hrest (by simp [DigestInput.HA2, DigestCalcHA2])).2

theorem qop_of_text_eq {i j : DigestInput} (hnonce : i.nonce = j.nonce) (hqop : j.qop = [])
    (h : i.text md5 = j.text md5) : i.qop = [] := by
  by_contra hne
  have hlen := congrArg List.length h
  simp [DigestInput.text, responseText, DigestInput.HA1, DigestInput.HA2, DigestCalcHA1, DigestCalcHA2, hnonce,
    hqop, hne] at hlen
  omega

/-- The texts of H(A1) on the two sides, for a text that does not begin with its own hash. -/
theorem a1Text_eq_iff {alg alg' user realm pwd nonce cnonce : Data}
    (hself : ¬(hashText (md5 (a1Plain user realm pwd)) ++ [':']) <+: a1Plain user realm pwd) :
    a1Text md5 alg user realm pwd nonce cnonce = a1Text md5 alg' user realm pwd nonce [] ↔
      (alg = MD5_SESS ↔ alg' = MD5_SESS) ∧ (alg = MD5_SESS → cnonce = []) := by
  have hplain : ∀ rest : Data, hashText (md5 (a1Plain user realm pwd)) ++ ':' :: rest ≠ a1Plain user realm pwd := by
    intro rest h
    apply hself
    refine ⟨rest, ?_⟩
    rw [List.append_assoc]
    exact h
  simp only [a1Text, List.append_assoc, List.cons_append]
  by_cases halg : alg = MD5_SESS
  · by_cases halg' : alg' = MD5_SESS
    · rw [if_pos halg, if_pos halg']
      simp [halg, halg']
    · rw [if_pos halg, if_neg halg']
      exact iff_of_false (hplain _) fun h => halg' (h.1.mp halg)
  · by_cases halg' : alg' = MD5_SESS
    · rw [if_neg halg, if_pos halg']
      exact iff_of_false (fun h => hplain _ h.symm) fun h => halg (h.1.mpr halg')
    · rw [if_neg halg, if_neg halg']
      simp [halg, halg']

/-! ### What the server reads -/

namespace AuthorizedCommand

open SipAuthorization

variable {c : AuthorizedCommand} {p : DigestParams}

/-- What the server reads of a token that the client sets to this value. -/
def readToken (c : AuthorizedCommand) (token value : Data) : Data :=
  if value.c_str ≠ [] then stripQuotes value.c_str else c.authorization.getTokenValue token

/-- What the server hashes for a request that the client authorized. -/
def serverInput (c : AuthorizedCommand) (p : DigestParams) (nonce user pwd realm requestURI : Data) : DigestInput :=
  c.checkInput nonce user pwd realm requestURI (c.readToken "algorithm".toList p.alg)

theorem setAuthDigest_response (md5 : Data → Octets 16) (c : AuthorizedCommand) (p : DigestParams) :
    (c.setAuthDigest md5 p).authorization.getTokenValue "response".toList = form_SIPdigest md5 p.input := by
  have hhex : form_SIPdigest md5 p.input = CvtHex (md5 (p.input.text md5)) := rfl
  have hne : CvtHex (md5 (p.input.text md5)) ≠ [] := List.ne_nil_of_length_pos (by simp)
  have hquote : '"' ∉ CvtHex (md5 (p.input.text md5)) := notMem_convertToHex (by decide) _
  simp only [setAuthDigest, getTokenValue_setToken]
  rw [hhex, c_str_CvtHex, stripQuotes_eq_self hquote]
  simp (disch := decide) [hne]

theorem setAuthDigest_nonce (md5 : Data → Octets 16) (c : AuthorizedCommand) (p : DigestParams) :
    (c.setAuthDigest md5 p).authorization.getTokenValue "nonce".toList = c.readToken "nonce".toList p.nonce := by
  simp only [setAuthDigest, getTokenValue_setToken, readToken]
  simp [getTokenValue]

theorem setAuthDigest_algorithm (md5 : Data → Octets 16) (c : AuthorizedCommand) (p : DigestParams) :
    (c.setAuthDigest md5 p).authorization.getTokenValue "algorithm".toList =
      c.readToken "algorithm".toList p.alg := by
  simp only [setAuthDigest, getTokenValue_setToken, readToken]
  simp [getTokenValue]

theorem checkAuthDigest_set_iff (md5 : Data → Octets 16) (c : AuthorizedCommand) (p : DigestParams)
    (nonce user pwd realm requestURI : Data) :
    (c.setAuthDigest md5 p).checkAuthDigest md5 nonce user pwd realm requestURI true = true ↔
      isEqualNoCase nonce (c.readToken "nonce".toList p.nonce) = true ∧
        md5 (p.input.text md5) = md5 ((c.serverInput p nonce user pwd realm requestURI).text md5) := by
  have hscheme : isEqualNoCase (c.setAuthDigest md5 p).authorization.myAuthScheme AUTH_DIGEST = true := by
    simp [setAuthDigest, isEqualNoCase]
  have hresponse : (form_SIPdigest md5 p.input).length ≠ 0 := by
    rw [form_SIPdigest_eq, length_CvtHex]
    decide
  have hinput : (c.setAuthDigest md5 p).checkInput nonce user pwd realm requestURI
      (c.readToken "algorithm".toList p.alg) = c.serverInput p nonce user pwd realm requestURI := rfl
  rw [checkAuthDigest, if_pos rfl, hscheme, setAuthDigest_response, setAuthDigest_nonce, setAuthDigest_algorithm]
  simp only [hinput, Bool.not_true, Bool.false_eq_true, if_false]
  cases hnonce : isEqualNoCase nonce (c.readToken "nonce".toList p.nonce) with
  | false => simp
  | true =>
    rw [form_SIPdigest_eq] at hresponse
    simp only [form_SIPdigest_eq, c_str_CvtHex, hresponse, Bool.not_true, Bool.false_eq_true, if_false,
      decide_eq_true_eq, true_and]
    exact ⟨fun h => CvtHex_injective h, fun h => congrArg CvtHex h⟩

/-! ### Nonces -/

theorem toLower_eq_nul {ch : Char} (h : ch.toLower = '\x00') : ch = '\x00' := by
  change dite _ _ _ = _ at h
  split at h
  · rename_i hupper
    have hval : ch.val + 32 = 0 := congrArg Char.val h
    have hnat := congrArg UInt32.toNat hval
    have hlow : 65 ≤ ch.val.toNat := hupper.1
    have hhigh : ch.val.toNat ≤ 90 := hupper.2
    rw [UInt32.toNat_add, show (32 : UInt32).toNat = 32 from rfl, show (0 : UInt32).toNat = 0 from rfl] at hnat
    omega
  · exact h

/-- The server reads the nonce that it expects: it has no quote and no NUL, or it is empty and no other was
there before. -/
def NonceKept (c : AuthorizedCommand) (nonce : Data) : Prop :=
  (nonce.c_str ≠ [] ∧ '"' ∉ nonce ∧ '\x00' ∉ nonce) ∨
    (nonce = [] ∧ c.authorization.getTokenValue "nonce".toList = [])

theorem nonceKept_iff (c : AuthorizedCommand) (nonce : Data) :
    isEqualNoCase nonce (c.readToken "nonce".toList nonce) = true ↔ NonceKept c nonce := by
  rw [readToken, NonceKept]
  constructor
  · intro h
    by_cases hne : nonce.c_str = []
    · rw [if_neg (not_not.mpr hne)] at h
      right
      cases nonce with
      | nil =>
        have hlen := length_eq_of_isEqualNoCase h
        exact ⟨rfl, List.length_eq_zero_iff.mp hlen.symm⟩
      | cons ch rest =>
        -- the text begins with a NUL, and what was read has none
        exfalso
        have hch : ch = '\x00' := by
          by_contra hno
          simp [Data.c_str, hno] at hne
        have hmap : (ch :: rest).map Char.toLower =
            (c.authorization.getTokenValue "nonce".toList).map Char.toLower := by
          simpa [isEqualNoCase] using h
        have hmem : ('\x00' : Char).toLower ∈ (c.authorization.getTokenValue "nonce".toList).map Char.toLower := by
          rw [← hmap, hch]
          exact List.mem_cons_self
        obtain ⟨d, hd, hlower⟩ := List.mem_map.mp hmem
        rw [toLower_eq_nul (hlower.trans (by decide))] at hd
        exact nul_notMem_getTokenValue _ _ hd
    · rw [if_pos hne] at h
      have hlen := length_eq_of_isEqualNoCase h
      have hle := length_c_str_le nonce
      have hquote : '"' ∉ nonce.c_str := by
        intro hq
        have := length_stripQuotes_lt hq
        omega
      rw [stripQuotes_eq_self hquote] at hlen
      have hnul := nul_notMem_of_length hlen.le
      rw [c_str_eq_self hnul] at hquote
      exact Or.inl ⟨hne, hquote, hnul⟩
  · rintro (⟨hne, hquote, hnul⟩ | ⟨rfl, hold⟩)
    · rw [if_pos hne, c_str_eq_self hnul, stripQuotes_eq_self hquote]
      simp [isEqualNoCase]
    · rw [if_neg (by simp [Data.c_str]), hold]
      rfl

/-! ### Agreement -/

/-- The server accepts what the client put into the request for the same credentials. -/
def Accepted (md5 : Data → Octets 16) (c : AuthorizedCommand) (p : DigestParams) : Prop :=
  (c.setAuthDigest md5 p).checkAuthDigest md5 p.nonce p.user p.pwd p.realm p.requestURI true = true

/-- Both sides hash the same: there is no qop, the nonce is kept, both or none see `md5-sess`, and with that
there is no cnonce. -/
structure Agreed (c : AuthorizedCommand) (p : DigestParams) : Prop where
  qop : p.qop.c_str = []
  nonce : NonceKept c p.nonce
  algorithm : p.alg.c_str = MD5_SESS ↔ c.readToken "algorithm".toList p.alg = MD5_SESS
  cnonce : p.alg.c_str = MD5_SESS → p.cnonce.c_str = []

/-- MD5 has no collision on the texts of the exchange, and the credentials do not begin with their own hash. -/
structure Ideal (md5 : Data → Octets 16) (c : AuthorizedCommand) (p : DigestParams) : Prop where
  injective :
    let i := p.input
    let j := c.serverInput p p.nonce p.user p.pwd p.realm p.requestURI
    Set.InjOn md5 {i.text md5, j.text md5, a1Text md5 i.alg i.user i.realm i.pwd i.nonce i.cnonce,
      a1Text md5 j.alg j.user j.realm j.pwd j.nonce j.cnonce}
  fresh : ¬(hashText (md5 (a1Plain p.user.c_str p.realm.c_str p.pwd.c_str)) ++ [':']) <+:
    a1Plain p.user.c_str p.realm.c_str p.pwd.c_str

theorem c_str_readToken (c : AuthorizedCommand) (token value : Data) :
    (c.readToken token value).c_str = c.readToken token value := by
  apply c_str_eq_self
  rw [readToken]
  split
  · exact fun h => nul_notMem_c_str _ (stripQuotes_subset h)
  · exact nul_notMem_getTokenValue _ _

theorem accepted_of_agreed (hmethod : p.method = c.method) (h : Agreed c p) : Accepted md5 c p := by
  rw [Accepted, checkAuthDigest_set_iff, nonceKept_iff]
  refine ⟨h.nonce, ?_⟩
  have hHA1 : p.input.HA1 md5 = (c.serverInput p p.nonce p.user p.pwd p.realm p.requestURI).HA1 md5 := by
    show CvtHex (md5 (a1Text md5 p.alg.c_str p.user.c_str p.realm.c_str p.pwd.c_str p.nonce.c_str p.cnonce.c_str)) =
      CvtHex (md5 (a1Text md5 (c.readToken "algorithm".toList p.alg).c_str p.user.c_str p.realm.c_str p.pwd.c_str
        p.nonce.c_str []))
    rw [c_str_readToken]
    have halg := h.algorithm
    by_cases hsess : p.alg.c_str = MD5_SESS
    · rw [halg.mp hsess, hsess, h.cnonce hsess]
    · simp only [a1Text, if_neg hsess, if_neg fun hread => hsess (halg.mpr hread)]
  have hHA2 : p.input.HA2 md5 = (c.serverInput p p.nonce p.user p.pwd p.realm p.requestURI).HA2 md5 := by
    show DigestCalcHA2 md5 p.qop.c_str p.method.c_str p.requestURI.c_str _ =
      DigestCalcHA2 md5 [] c.method.c_str p.requestURI.c_str _
    rw [h.qop, hmethod]
  have htext : p.input.text md5 = (c.serverInput p p.nonce p.user p.pwd p.realm p.requestURI).text md5 := by
    rw [DigestInput.text, DigestInput.text, hHA1, hHA2]
    have hqop : p.input.qop = [] := h.qop
    rw [hqop]
    rfl
  rw [htext]

theorem agreed_of_accepted (hideal : Ideal md5 c p) (h : Accepted md5 c p) : Agreed c p := by
  rw [Accepted, checkAuthDigest_set_iff, nonceKept_iff] at h
  obtain ⟨hnonce, hhash⟩ := h
  have htext := hideal.injective (by simp) (by simp) hhash
  have hqop : p.input.qop = [] :=
    qop_of_text_eq (by rfl : p.input.nonce = (c.serverInput p p.nonce p.user p.pwd p.realm p.requestURI).nonce)
      rfl htext
  have hHA1 := (text_inj htext).1
  have ha1 := hideal.injective (by simp) (by simp) (CvtHex_injective hHA1)
  have hiff := (a1Text_eq_iff hideal.fresh).mp ha1
  have hread : (c.serverInput p p.nonce p.user p.pwd p.realm p.requestURI).alg =
      c.readToken "algorithm".toList p.alg := c_str_readToken c _ _
  rw [hread] at hiff
  exact ⟨hqop, hnonce, hiff.1, hiff.2⟩

/-- Client and server agree under the condition, and, as far as MD5 is ideal, only under it; a response from
another H(A1) or H(A2) is refused, as far as its text has another hash. -/
theorem digestAgreement (md5 : Data → Octets 16) (c : AuthorizedCommand) (p : DigestParams) :
    (p.method = c.method → (Agreed c p → Accepted md5 c p) ∧
      (Ideal md5 c p → Accepted md5 c p → Agreed c p)) ∧
    ∀ nonce user pwd realm requestURI,
      let j := c.serverInput p nonce user pwd realm requestURI
      Set.InjOn md5 {p.input.text md5, j.text md5} → (p.input.HA1 md5 ≠ j.HA1 md5 ∨ p.input.HA2 md5 ≠ j.HA2 md5) →
        (c.setAuthDigest md5 p).checkAuthDigest md5 nonce user pwd realm requestURI true = false := by
  refine ⟨fun hmethod => ⟨accepted_of_agreed hmethod, agreed_of_accepted⟩, ?_⟩
  intro nonce user pwd realm requestURI j hinj hdiffers
  by_contra haccepted
  rw [Bool.not_eq_false, checkAuthDigest_set_iff] at haccepted
  have htext : p.input.text md5 = j.text md5 := hinj (by simp) (by simp) haccepted.2
  obtain ⟨hHA1, hHA2⟩ := text_inj htext
  rcases hdiffers with h | h
  · exact h hHA1
  · exact h hHA2

/-- A hash for examples: a polynomial in the characters. -/
def sampleHash (d : Data) : Octets 16 :=
  ⟨Bytes.ofWord32 (.ofNat (d.foldl (fun h ch => (h * 31 + ch.toNat) % 2 ^ 32) 0)) ++ List.replicate 12 0, by simp⟩

/-- A request without an authorization. -/
def sampleRequest : AuthorizedCommand := { method := INVITE_METHOD }

/-- An answer to a challenge with this qop. -/
def sampleParams (qop cnonce noncecount : Data) : DigestParams where
  nonce := "7".toList
  user := "u".toList
  pwd := "p".toList
  method := INVITE_METHOD
  realm := "r".toList
  requestURI := "sip:h".toList
  qop := qop
  cnonce := cnonce
  alg := "MD5".toList
  noncecount := noncecount
  opaqueValue := []

theorem sample_agreed : Agreed sampleRequest (sampleParams [] [] []) :=
  ⟨by decide, Or.inl (by decide), by decide, by decide⟩

theorem sample_ideal : Ideal sampleHash sampleRequest (sampleParams [] [] []) := by
  refine ⟨?_, by decide +kernel⟩
  intro i j x hx y hy h
  have htext : j.text sampleHash = i.text sampleHash := by decide +kernel
  have ha1 : a1Text sampleHash j.alg j.user j.realm j.pwd j.nonce j.cnonce =
      a1Text sampleHash i.alg i.user i.realm i.pwd i.nonce i.cnonce := by decide +kernel
  have hdiffer : sampleHash (i.text sampleHash) ≠
      sampleHash (a1Text sampleHash i.alg i.user i.realm i.pwd i.nonce i.cnonce) := by decide +kernel
  rw [htext, ha1] at hx hy
  simp only [Set.mem_insert_iff, Set.mem_singleton_iff] at hx hy
  grind

/-- The agreement on an answer without a qop, and the refusal of the password `q`. -/
theorem digestAgreement_sample :
    Agreed sampleRequest (sampleParams [] [] []) ∧ Ideal sampleHash sampleRequest (sampleParams [] [] []) ∧
      Accepted sampleHash sampleRequest (sampleParams [] [] []) ∧
      (sampleRequest.setAuthDigest sampleHash (sampleParams [] [] [])).checkAuthDigest sampleHash "7".toList
        "u".toList "q".toList "r".toList "sip:h".toList true = false := by
  obtain ⟨hagree, hrefuse⟩ := digestAgreement sampleHash sampleRequest (sampleParams [] [] [])
  refine ⟨sample_agreed, sample_ideal, (hagree rfl).1 sample_agreed, hrefuse _ _ _ _ _ ?_ (Or.inl ?_)⟩
  · intro x hx y hy h
    have hdiffer : sampleHash ((sampleParams [] [] []).input.text sampleHash) ≠
        sampleHash ((sampleRequest.serverInput (sampleParams [] [] []) "7".toList "u".toList "q".toList "r".toList
          "sip:h".toList).text sampleHash) := by decide +kernel
    simp only [Set.mem_insert_iff, Set.mem_singleton_iff] at hx hy
    grind
  · decide +kernel

/-- With the qop `auth` the client hashes a nonce count and a cnonce, and the server refuses the response. -/
theorem not_accepted_qop :
    (sampleParams "auth".toList "0a".toList "00000001".toList).method = sampleRequest.method ∧
      ¬Accepted sampleHash sampleRequest (sampleParams "auth".toList "0a".toList "00000001".toList) := by
  refine ⟨rfl, ?_⟩
  rw [Accepted]
  decide +kernel

end AuthorizedCommand

end Vocal.Sip
