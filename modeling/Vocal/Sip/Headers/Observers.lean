import Vocal.Sip.Content
import Vocal.Sip.Headers.Classes
import Vocal.Sip.Headers.Refinement

/-!
# Reading the headers of a message

The accessors of `SipMsg` are const, yet they create the entry that they are asked for, parse it, and
`getExpires` copies the value of the Contact into the Expires header. `Quiet` says for which accesses this does
not show in the text of the message.
-/

namespace Vocal.Sip

open LazyHeader HeaderLists

/-- `SipMsg`, with its headers parsed when they are asked for; the start line is its text. -/
structure LazyMsg (K : Type) where
  startLine : Data
  local_ip : Data
  myHeaderList : HeaderLists (Header K)
  myMimeList : SipContentDataContainer

namespace LazyMsg

variable {K : Type} [SipHeader K]

/-- `getExpires`, with the message that it leaves. -/
def getExpires (m : LazyMsg K) : Option (LazyMsg K × SipExpires) :=
  (m.myHeaderList.getParsedHeader .SIP_EXPIRES_HDR m.local_ip 0).bind fun r =>
    (r.1.getParsedHeader .SIP_CONTACT_HDR m.local_ip 0).bind fun s =>
      match r.2, s.2 with
      | .expires expires, .contact c =>
        -- prefer the expires in contact if it is there
        if c.bexpires then
          some ({ m with myHeaderList := s.1.setHeader .SIP_EXPIRES_HDR 0 (.expires c.expires) }, c.expires)
        else some ({ m with myHeaderList := s.1 }, expires)
      | _, _ => none

/-- A call of an accessor: one that asks for a header of a type, or `getExpires`. -/
inductive Access
  | getHeader (type : SipHeaderType) (index : Int)
  | getExpires

def access (m : LazyMsg K) : Access → Option (LazyMsg K)
  | .getHeader type index =>
    (m.myHeaderList.getParsedHeader type m.local_ip index).map fun r => { m with myHeaderList := r.1 }
  | .getExpires => m.getExpires.map (·.1)

def accesses (m : LazyMsg K) : List Access → Option (LazyMsg K)
  | [] => some m
  | a :: as => (m.access a).bind fun m => accesses m as

/-- `encode` of a message: the start line and `encodeBody`, which sets the headers of the content first. -/
def encode (m : LazyMsg K) : Option Data :=
  let body := m.myMimeList.encode
  (m.myHeaderList.assignHeader .SIP_CONTENT_LENGTH_HDR m.local_ip (.contentLength body.2.contentLength)).bind fun c =>
    body.2.getContentType.bind fun mime =>
      (c.assignHeader .SIP_CONTENT_TYPE_HDR m.local_ip (.contentType mime.contentType)).bind fun c =>
        (c.assignHeader .SIP_CONTENT_DISPOSITION_HDR m.local_ip
          (.contentDisposition mime.contentDisposition)).map fun c => m.startLine ++ c.encode ++ body.1

end LazyMsg

namespace HeaderLists

variable {H : Type} {c : HeaderLists H} {type : SipHeaderType} {index : Int} {l : List (LazyHeader H)}
  {n : LazyHeader H} {p : H}

/-! ### Entries that are there -/

theorem flatMap_modify {α β : Type} {g : α → List β} {f : α → α} {l : List α} {j : Nat}
    (h : ∀ a, l[j]? = some a → g (f a) = g a) : (l.modify j f).flatMap g = l.flatMap g := by
  induction l generalizing j with
  | nil => simp
  | cons a l ih =>
    cases j with
    | zero => simp [h a rfl]
    | succ j =>
      rw [List.modify_succ_cons, List.flatMap_cons, List.flatMap_cons, ih fun b hb => h b (by simpa using hb)]

theorem getOrCreate_of_getElem? (blank : LazyHeader H) (hn : l[position l index]? = some n) :
    getOrCreate l blank index = (l, n) := by
  unfold position at hn
  have hpad : ∀ k, k ≤ l.length → padTo blank l k = l := by
    intro k hk
    unfold padTo
    rw [Nat.sub_eq_zero_of_le hk]
    exact List.append_nil l
  obtain ⟨hlt, -⟩ := List.getElem?_eq_some_iff.mp hn
  have hreach := getOrCreate_eq l blank index
  unfold reach at hreach
  by_cases hpos : 0 ≤ index
  · rw [if_pos hpos] at hn hlt hreach
    rw [hpad _ (by omega), hn] at hreach
    obtain ⟨hfst, hsnd⟩ := Prod.mk.inj hreach
    exact Prod.ext hfst (Option.some.inj hsnd)
  · rw [if_neg hpos] at hn hlt hreach
    rw [hpad _ (by omega), List.getLast?_eq_getElem?, hn] at hreach
    obtain ⟨hfst, hsnd⟩ := Prod.mk.inj hreach
    exact Prod.ext hfst (Option.some.inj hsnd)

theorem length_getOrCreate (l : List (LazyHeader H)) (blank : LazyHeader H) (index : Int) :
    (getOrCreate l blank index).1.length = max l.length (position l index + 1) := by
  have hreach := congrArg (·.1.length) (getOrCreate_eq l blank index)
  refine hreach.trans ?_
  unfold reach padTo position
  by_cases hpos : 0 ≤ index
  · rw [if_pos hpos, if_pos hpos, List.length_append, List.length_replicate]
    omega
  · rw [if_neg hpos, if_neg hpos, List.length_append, List.length_replicate]
    omega

theorem set_eq_modify {α : Type} {l : List α} {i : Nat} {a b : α} (h : l[i]? = some a) (f : α → α) (hf : f a = b) :
    l.set i b = l.modify i f := by
  induction l generalizing i with
  | nil => simp
  | cons c l ih =>
    cases i with
    | zero =>
      have hc : c = a := Option.some.inj h
      rw [hc, List.set_cons_zero, List.modify_zero_cons, hf]
    | succ i => rw [List.set_cons_succ, List.modify_succ_cons, ih (by simpa using h)]

@[simp] theorem length_setHeader (c : HeaderLists H) (type : SipHeaderType) (i : Nat) (p : H)
    (other : SipHeaderType) : (c.setHeader type i p other).length = (c other).length := by
  unfold setHeader
  by_cases h : other = type
  · subst h
    rw [Function.update_self, List.length_modify]
  · rw [Function.update_of_ne h]

theorem setHeader_of_ne {other : SipHeaderType} (h : other ≠ type) (i : Nat) (p : H) :
    c.setHeader type i p other = c other := Function.update_of_ne h _ _

theorem setHeader_setHeader (c : HeaderLists H) (type : SipHeaderType) (i : Nat) (p q : H) :
    (c.setHeader type i p).setHeader type i q = c.setHeader type i q := by
  unfold setHeader
  rw [Function.update_self, Function.update_idem, List.modify_modify_eq]
  rfl

theorem setHeader_comm {other : SipHeaderType} (h : other ≠ type) (i j : Nat) (p q : H) :
    (c.setHeader type i p).setHeader other j q = (c.setHeader other j q).setHeader type i p := by
  unfold setHeader
  rw [Function.update_of_ne h, Function.update_of_ne h.symm, Function.update_comm h.symm]

variable [SipHeader H]

/-! ### What an entry is written as -/

/-- The text of an entry in a chain that is one line or not, with a comma in front or not. -/
def shown (list comma : Bool) (n : LazyHeader H) : Data :=
  if list then n.encodeShallowNoName comma else n.encodeShallowPutsName

/-- Whether the chain is written as one line. -/
def listed : List (LazyHeader H) → Bool
  | [] => false
  | n :: _ => isList n.headerType

/-- The entry that an index leads to is parsed as the header. -/
def Reads (c : HeaderLists H) (type : SipHeaderType) (index : Int) (p : H) : Prop :=
  ∃ n m, (c type)[position (c type) index]? = some n ∧ n.parse = some m ∧ m.header = some p

/-- The entry that an index leads to is written as it would be with the header. -/
def Shows (c : HeaderLists H) (type : SipHeaderType) (index : Int) (p : H) : Prop :=
  ∃ n, (c type)[position (c type) index]? = some n ∧
    shown (listed (c type)) (position (c type) index ≠ 0) { n with header := some p } =
      shown (listed (c type)) (position (c type) index ≠ 0) n

theorem encodeChain_cons (n : LazyHeader H) (ns : List (LazyHeader H)) :
    encodeChain (n :: ns) =
      (if isList n.headerType then headerTypeEncode n.headerType ++ ": ".toList else []) ++
        (shown (isList n.headerType) false n ++ ns.flatMap (shown (isList n.headerType) true)) ++
        (if isList n.headerType then CRLF else []) := by
  unfold encodeChain shown
  by_cases hlist : isList n.headerType = true
  · simp [hlist]
  · simp [hlist]

theorem encodeChain_modify {i : Nat} {f : LazyHeader H → LazyHeader H}
    (htype : ∀ n, (f n).headerType = n.headerType)
    (h : ∀ n, l[i]? = some n → shown (listed l) (i ≠ 0) (f n) = shown (listed l) (i ≠ 0) n) :
    encodeChain (l.modify i f) = encodeChain l := by
  cases l with
  | nil => simp
  | cons n ns =>
    cases i with
    | zero =>
      have hn := h n rfl
      rw [List.modify_zero_cons, encodeChain_cons, encodeChain_cons, htype]
      have hn' : shown (isList n.headerType) false (f n) = shown (isList n.headerType) false n := hn
      rw [hn']
    | succ j =>
      have hns : (ns.modify j f).flatMap (shown (isList n.headerType) true) =
          ns.flatMap (shown (isList n.headerType) true) := flatMap_modify fun m hm => h m (by simpa using hm)
      rw [List.modify_succ_cons, encodeChain_cons, encodeChain_cons, hns]

/-! ### Reading an entry that is there -/

theorem parse_eq {n m : LazyHeader H} (hparse : n.parse = some m) (hm : m.header = some p) :
    m = { n with header := some p } := by
  obtain ⟨raw, header, local_ip⟩ := n
  unfold parse at hparse
  cases header with
  | some q =>
    have heq := Option.some.inj hparse
    subst heq
    have hq : some q = some p := hm
    rw [hq]
  | none =>
    obtain ⟨q, -, rfl⟩ := Option.map_eq_some_iff.mp hparse
    have hq : q = some p := hm
    rw [hq]

theorem getParsedHeader_of_reads (h : Reads c type index p) (local_ip : Data) :
    c.getParsedHeader type local_ip index = some (c.setHeader type (position (c type) index) p, p) := by
  obtain ⟨n, m, hn, hparse, hm⟩ := h
  have hself : Function.update c type (c type) = c := Function.update_eq_self type c
  unfold getParsedHeader getHeaderOrCreate
  simp only [getOrCreate_of_getElem? _ hn, hself, hparse, Option.bind_some, hm, Option.map_some]
  rw [set_eq_modify hn (fun n => { n with header := some p }) (parse_eq hparse hm).symm]
  rfl

theorem encodeChain_setHeader (h : Shows c type index p) (other : SipHeaderType) :
    encodeChain (c.setHeader type (position (c type) index) p other) = encodeChain (c other) := by
  unfold setHeader
  by_cases ho : other = type
  · subst ho
    rw [Function.update_self]
    obtain ⟨n, hn, hshown⟩ := h
    refine encodeChain_modify (fun _ => rfl) fun m hm => ?_
    rw [hn] at hm
    rw [← Option.some.inj hm]
    exact hshown
  · rw [Function.update_of_ne ho]

theorem getParsedHeader_eq_some {c' : HeaderLists H} {local_ip : Data}
    (h : c.getParsedHeader type local_ip index = some (c', p)) :
    ∃ i n, c' = Function.update c type ((getOrCreate (c type) (blank type local_ip) index).1.set i n) := by
  unfold getParsedHeader getHeaderOrCreate at h
  obtain ⟨n, -, hn⟩ := Option.bind_eq_some_iff.mp h
  obtain ⟨q, -, heq⟩ := Option.map_eq_some_iff.mp hn
  obtain ⟨rfl, -⟩ := Prod.mk.inj heq
  dsimp only
  rw [Function.update_self, Function.update_idem]
  exact ⟨_, n, rfl⟩

theorem reads_setHeader {other : SipHeaderType} {i : Nat} {q : H} (h : other ≠ type) (index : Int) (p : H) :
    Reads (c.setHeader type i p) other index q ↔ Reads c other index q := by
  unfold Reads
  rw [setHeader_of_ne h]

theorem shows_setHeader {other : SipHeaderType} {i : Nat} {q : H} (h : other ≠ type) (index : Int) (p : H) :
    Shows (c.setHeader type i p) other index q ↔ Shows c other index q := by
  unfold Shows
  rw [setHeader_of_ne h]

theorem length_getParsedHeader {c' : HeaderLists H} {local_ip : Data}
    (h : c.getParsedHeader type local_ip index = some (c', p)) (other : SipHeaderType) :
    (c' other).length = max (c other).length (if other = type then position (c type) index + 1 else 0) := by
  obtain ⟨i, n, rfl⟩ := getParsedHeader_eq_some h
  by_cases ho : other = type
  · subst ho
    rw [if_pos rfl, Function.update_self, List.length_set, length_getOrCreate]
  · rw [if_neg ho, Function.update_of_ne ho, Nat.max_zero]

/-! ### Setting the header of a content -/

/-- `assignHeader` of the first entry of a chain, which is created if there is none. -/
def assignHead (blank : LazyHeader H) (value : H) (l : List (LazyHeader H)) : Option (List (LazyHeader H)) :=
  match l with
  | [] => blank.parse.bind fun m => m.header.map fun _ => [{ m with header := some value }]
  | n :: ns => n.parse.bind fun m => m.header.map fun _ => { m with header := some value } :: ns

theorem assignHeader_eq (c : HeaderLists H) (type : SipHeaderType) (local_ip : Data) (value : H) :
    c.assignHeader type local_ip value =
      (assignHead (blank type local_ip) value (c type)).map (Function.update c type) := by
  unfold assignHeader getParsedHeader getHeaderOrCreate setHeader position
  cases hl : c type with
  | nil =>
    simp only [getOrCreate, getWalk, assignHead, Int.toNat_zero, if_pos (le_refl (0 : Int)), Function.update_self,
      List.set_cons_zero]
    cases (blank type local_ip : LazyHeader H).parse with
    | none => rfl
    | some m => simp [Function.comp_def]
  | cons n ns =>
    simp only [getOrCreate, getWalk, assignHead, Int.toNat_zero, if_pos (le_refl (0 : Int)), Function.update_self,
      List.set_cons_zero]
    cases n.parse with
    | none => rfl
    | some m => simp [Function.comp_def]

theorem assignHead_cons (blank : LazyHeader H) (value : H) (n : LazyHeader H) (ns : List (LazyHeader H)) :
    assignHead blank value (n :: ns) =
      n.parse.bind fun m => m.header.map fun _ => { m with header := some value } :: ns := rfl

/-- An entry that is parsed and written as before does not show behind or below a head that is assigned. -/
theorem assignHead_modify {i : Nat} {q : H} (hparse : ∀ n, l[i]? = some n → ∃ m p, n.parse = some m ∧ m.header = some p)
    (h : ∀ n, l[i]? = some n → shown (listed l) (i ≠ 0) { n with header := some q } = shown (listed l) (i ≠ 0) n)
    (blank : LazyHeader H) (value : H) :
    (assignHead blank value (l.modify i fun n => { n with header := some q })).map encodeChain =
      (assignHead blank value l).map encodeChain := by
  cases l with
  | nil => simp
  | cons n ns =>
    cases i with
    | zero =>
      obtain ⟨m, p, hn, hm⟩ := hparse n rfl
      have hq : ({ n with header := some q } : LazyHeader H).parse = some { n with header := some q } := rfl
      rw [List.modify_zero_cons, assignHead_cons, assignHead_cons]
      simp only [hn, hq, Option.bind_some, Option.map_some, parse_eq hn hm]
    | succ j =>
      rw [List.modify_succ_cons, assignHead_cons, assignHead_cons]
      cases hn : n.parse with
      | none => rfl
      | some m =>
        rw [Option.bind_some, Option.bind_some]
        cases hm : m.header with
        | none => rfl
        | some p =>
          rw [parse_eq hn hm]
          have hmodify := encodeChain_modify (l := { n with header := some value } :: ns) (i := j + 1)
            (f := fun n => { n with header := some q }) (fun _ => rfl) fun k hk => h k hk
          rw [List.modify_succ_cons] at hmodify
          exact congrArg some hmodify

/-- Two containers with the same text, also after a head is assigned. -/
def SameText (c c' : HeaderLists H) : Prop :=
  ∀ type, encodeChain (c' type) = encodeChain (c type) ∧
    ∀ blank value, (assignHead blank value (c' type)).map encodeChain =
      (assignHead blank value (c type)).map encodeChain

theorem SameText.refl (c : HeaderLists H) : SameText c c := fun _ => ⟨rfl, fun _ _ => rfl⟩

theorem SameText.trans {c c' c'' : HeaderLists H} (h : SameText c c') (h' : SameText c' c'') : SameText c c'' :=
  fun type => ⟨(h' type).1.trans (h type).1, fun blank value => ((h' type).2 blank value).trans ((h type).2 blank value)⟩

theorem sameText_setHeader {q : H} (hreads : Reads c type index p) (hshows : Shows c type index q) :
    SameText c (c.setHeader type (position (c type) index) q) := by
  intro other
  refine ⟨encodeChain_setHeader hshows other, fun blank value => ?_⟩
  unfold setHeader
  by_cases ho : other = type
  · subst ho
    obtain ⟨n, m, hn, hparse, hm⟩ := hreads
    obtain ⟨n', hn', hshown⟩ := hshows
    rw [Function.update_self]
    apply assignHead_modify
    · intro k hk
      rw [hn] at hk
      rw [← Option.some.inj hk]
      exact ⟨m, p, hparse, hm⟩
    · intro k hk
      rw [hn'] at hk
      rw [← Option.some.inj hk]
      exact hshown
  · rw [Function.update_of_ne ho]

end HeaderLists

namespace LazyMsg

variable {K : Type} [SipHeader K] {m m' : LazyMsg K}

/-- The text of a chain whose head is assigned. -/
def headText (m : LazyMsg K) (type : SipHeaderType) (value : Header K) : Option Data :=
  (assignHead (blank type m.local_ip) value (m.myHeaderList type)).map encodeChain

theorem encode_eq (m : LazyMsg K) :
    m.encode =
      (m.headText .SIP_CONTENT_LENGTH_HDR (.contentLength m.myMimeList.encode.2.contentLength)).bind fun length =>
        m.myMimeList.encode.2.getContentType.bind fun mime =>
          (m.headText .SIP_CONTENT_TYPE_HDR (.contentType mime.contentType)).bind fun ctype =>
            (m.headText .SIP_CONTENT_DISPOSITION_HDR (.contentDisposition mime.contentDisposition)).map fun disp =>
              m.startLine ++ (sipHeaderOutputOrder.flatMap fun type =>
                if type = .SIP_CONTENT_DISPOSITION_HDR then disp
                else if type = .SIP_CONTENT_TYPE_HDR then ctype
                else if type = .SIP_CONTENT_LENGTH_HDR then length
                else encodeChain (m.myHeaderList type)) ++ m.myMimeList.encode.1 := by
  unfold encode headText
  simp only [assignHeader_eq]
  cases assignHead (blank SipHeaderType.SIP_CONTENT_LENGTH_HDR m.local_ip)
      (.contentLength m.myMimeList.encode.2.contentLength) (m.myHeaderList .SIP_CONTENT_LENGTH_HDR) with
  | none => rfl
  | some l₁ =>
    simp only [Option.map_some, Option.bind_some]
    congr 1
    funext mime
    rw [Function.update_of_ne (by decide)]
    cases assignHead (blank SipHeaderType.SIP_CONTENT_TYPE_HDR m.local_ip) (.contentType mime.contentType)
        (m.myHeaderList .SIP_CONTENT_TYPE_HDR) with
    | none => rfl
    | some l₂ =>
      simp only [Option.map_some, Option.bind_some]
      rw [Function.update_of_ne (by decide), Function.update_of_ne (by decide)]
      cases assignHead (blank SipHeaderType.SIP_CONTENT_DISPOSITION_HDR m.local_ip)
          (.contentDisposition mime.contentDisposition) (m.myHeaderList .SIP_CONTENT_DISPOSITION_HDR) with
      | none => rfl
      | some l₃ =>
        simp only [Option.map_some, HeaderLists.encode, Function.update_apply, apply_ite encodeChain]

theorem encode_of_sameText (c : HeaderLists (Header K)) (h : SameText m.myHeaderList c) :
    encode { m with myHeaderList := c } = m.encode := by
  rw [encode_eq, encode_eq]
  unfold headText
  simp only [(h _).1, (h _).2]

/-! ### Accesses that do not show -/

/-- The number of headers of a type. -/
def num (m : LazyMsg K) (type : SipHeaderType) : Nat := m.myHeaderList.getNumHeaders type

/-- The entries that are asked for are there. -/
def Found (m : LazyMsg K) : Access → Prop
  | .getHeader type index => position (m.myHeaderList type) index < (m.myHeaderList type).length
  | .getExpires => m.myHeaderList .SIP_EXPIRES_HDR ≠ [] ∧ m.myHeaderList .SIP_CONTACT_HDR ≠ []

/-- The entries that are asked for are there, and are written as their parsed headers are; for `getExpires`, the
Expires header is written as the one that it returns. -/
def Quiet (m : LazyMsg K) : Access → Prop
  | .getHeader type index => ∃ p, Reads m.myHeaderList type index p ∧ Shows m.myHeaderList type index p
  | .getExpires => ∃ e c, Reads m.myHeaderList .SIP_EXPIRES_HDR 0 (.expires e) ∧
      Reads m.myHeaderList .SIP_CONTACT_HDR 0 (.contact c) ∧
      Shows m.myHeaderList .SIP_EXPIRES_HDR 0 (.expires (if c.bexpires then c.expires else e)) ∧
      Shows m.myHeaderList .SIP_CONTACT_HDR 0 (.contact c)

/-- Every access of the run meets a condition on the message before it. -/
def Along (P : LazyMsg K → Access → Prop) (m : LazyMsg K) : List Access → Prop
  | [] => True
  | a :: as => P m a ∧ ∀ m', m.access a = some m' → Along P m' as

/-! ### The number of headers -/

theorem getExpires_eq_some {e : SipExpires} (h : m.getExpires = some (m', e)) :
    ∃ c p c' q, m.myHeaderList.getParsedHeader .SIP_EXPIRES_HDR m.local_ip 0 = some (c, p) ∧
      c.getParsedHeader .SIP_CONTACT_HDR m.local_ip 0 = some (c', q) ∧
      ∀ type, m'.num type = (c' type).length := by
  unfold getExpires at h
  obtain ⟨⟨c, p⟩, hr, h⟩ := Option.bind_eq_some_iff.mp h
  obtain ⟨⟨c', q⟩, hs, h⟩ := Option.bind_eq_some_iff.mp h
  refine ⟨c, p, c', q, hr, hs, fun type => ?_⟩
  dsimp only at h
  split at h
  · split_ifs at h
    · obtain ⟨rfl, -⟩ := Prod.mk.inj (Option.some.inj h)
      exact length_setHeader ..
    · obtain ⟨rfl, -⟩ := Prod.mk.inj (Option.some.inj h)
      rfl
  · exact absurd h (by simp)

/-- The number of headers of a type that an access needs. -/
def wanted (m : LazyMsg K) : Access → SipHeaderType → Nat
  | .getHeader type index, other => if other = type then position (m.myHeaderList type) index + 1 else 0
  | .getExpires, other => if other = .SIP_EXPIRES_HDR ∨ other = .SIP_CONTACT_HDR then 1 else 0

theorem num_access {a : Access} (h : m.access a = some m') (type : SipHeaderType) :
    m'.num type = max (m.num type) (m.wanted a type) := by
  cases a with
  | getHeader other index =>
    obtain ⟨⟨c, p⟩, hr, rfl⟩ := Option.map_eq_some_iff.mp h
    exact length_getParsedHeader hr type
  | getExpires =>
    obtain ⟨⟨m₁, e⟩, hr, rfl⟩ := Option.map_eq_some_iff.mp h
    obtain ⟨c, p, c', q, hc, hc', hnum⟩ := getExpires_eq_some hr
    have hpos : ∀ l : List (LazyHeader (Header K)), position l 0 = 0 := fun _ => rfl
    rw [hnum, length_getParsedHeader hc', length_getParsedHeader hc, hpos, hpos]
    unfold wanted num getNumHeaders
    by_cases hexpires : type = .SIP_EXPIRES_HDR
    · subst hexpires
      simp
    · by_cases hcontact : type = .SIP_CONTACT_HDR
      · subst hcontact
        simp
      · simp [hexpires, hcontact]

omit [SipHeader K] in
theorem found_iff_wanted (m : LazyMsg K) (a : Access) : m.Found a ↔ ∀ type, m.wanted a type ≤ m.num type := by
  cases a with
  | getHeader type index =>
    show position _ index < _ ↔ ∀ other, (if other = type then position _ index + 1 else 0) ≤ _
    constructor
    · intro hfound other
      split_ifs with ho
      · rw [ho]
        exact hfound
      · exact Nat.zero_le _
    · intro hwanted
      have htype := hwanted type
      rwa [if_pos rfl] at htype
  | getExpires =>
    show _ ≠ [] ∧ _ ≠ [] ↔ ∀ other, (if other = _ ∨ other = _ then 1 else 0) ≤ _
    rw [← List.length_pos_iff, ← List.length_pos_iff]
    constructor
    · rintro ⟨hexpires, hcontact⟩ other
      split_ifs with ho
      · rcases ho with rfl | rfl
        · exact hexpires
        · exact hcontact
      · exact Nat.zero_le _
    · intro hwanted
      have hexpires := hwanted .SIP_EXPIRES_HDR
      have hcontact := hwanted .SIP_CONTACT_HDR
      rw [if_pos (Or.inl rfl)] at hexpires
      rw [if_pos (Or.inr rfl)] at hcontact
      exact ⟨hexpires, hcontact⟩

theorem num_le_num_access {a : Access} (h : m.access a = some m') (type : SipHeaderType) :
    m.num type ≤ m'.num type := by
  rw [num_access h]
  exact le_max_left ..

theorem num_access_iff {a : Access} (h : m.access a = some m') :
    (∀ type, m'.num type = m.num type) ↔ m.Found a := by
  rw [found_iff_wanted]
  refine forall_congr' fun type => ?_
  rw [num_access h]
  exact max_eq_left_iff

theorem num_accesses_iff {as : List Access} (h : m.accesses as = some m') :
    (∀ type, m.num type ≤ m'.num type) ∧ ((∀ type, m'.num type = m.num type) ↔ m.Along Found as) := by
  induction as generalizing m with
  | nil =>
    obtain rfl := Option.some.inj h
    exact ⟨fun _ => le_rfl, iff_of_true (fun _ => rfl) trivial⟩
  | cons a as ih =>
    unfold accesses at h
    obtain ⟨m₁, ha, has⟩ := Option.bind_eq_some_iff.mp h
    have hle := num_le_num_access ha
    obtain ⟨hles, hfounds⟩ := ih has
    refine ⟨fun type => (hle type).trans (hles type), ?_⟩
    unfold Along
    rw [← num_access_iff ha]
    constructor
    · intro hsame
      -- the numbers do not go down, so none goes up
      have hfirst : ∀ type, m₁.num type = m.num type := by
        intro type
        have h₁ := hle type
        have h₂ := hles type
        have h₃ := hsame type
        omega
      refine ⟨hfirst, fun m₂ hm₂ => ?_⟩
      rw [ha] at hm₂
      obtain rfl := Option.some.inj hm₂
      exact hfounds.mp fun type => (hsame type).trans (hfirst type).symm
    · rintro ⟨hfirst, hrest⟩ type
      exact ((hfounds.mpr (hrest m₁ ha)) type).trans (hfirst type)

/-! ### The text -/

theorem found_of_reads {c : HeaderLists (Header K)} {type : SipHeaderType} {index : Int} {p : Header K}
    (h : Reads c type index p) : position (c type) index < (c type).length := by
  obtain ⟨n, -, hn, -⟩ := h
  exact (List.getElem?_eq_some_iff.mp hn).1

theorem access_quiet {a : Access} (h : m.Quiet a) :
    m.Found a ∧ ∃ c, m.access a = some { m with myHeaderList := c } ∧ SameText m.myHeaderList c := by
  cases a with
  | getHeader type index =>
    obtain ⟨p, hreads, hshows⟩ := h
    refine ⟨found_of_reads hreads, _, ?_, sameText_setHeader hreads hshows⟩
    show (m.myHeaderList.getParsedHeader type m.local_ip index).map _ = _
    rw [getParsedHeader_of_reads hreads]
    rfl
  | getExpires =>
    obtain ⟨e, c, he, hc, hse, hsc⟩ := h
    have hne : SipHeaderType.SIP_CONTACT_HDR ≠ .SIP_EXPIRES_HDR := by decide
    let last := (m.myHeaderList.setHeader .SIP_EXPIRES_HDR 0 (.expires (if c.bexpires then c.expires else e))).setHeader
      .SIP_CONTACT_HDR 0 (.contact c)
    refine ⟨⟨List.ne_nil_of_length_pos (found_of_reads he), List.ne_nil_of_length_pos (found_of_reads hc)⟩, last, ?_,
      (sameText_setHeader he hse).trans
        (sameText_setHeader ((reads_setHeader hne _ _).mpr hc) ((shows_setHeader hne _ _).mpr hsc))⟩
    have hfirst := getParsedHeader_of_reads he m.local_ip
    have hsecond := getParsedHeader_of_reads
      ((reads_setHeader (i := position (m.myHeaderList .SIP_EXPIRES_HDR) 0) hne 0 (.expires e)).mpr hc) m.local_ip
    show m.getExpires.map _ = _
    unfold getExpires
    rw [hfirst, Option.bind_some, hsecond, Option.bind_some]
    by_cases hb : c.bexpires = true
    · have hlast : last = ((m.myHeaderList.setHeader .SIP_EXPIRES_HDR 0 (.expires e)).setHeader
          .SIP_CONTACT_HDR 0 (.contact c)).setHeader .SIP_EXPIRES_HDR 0 (.expires c.expires) := by
        rw [← setHeader_comm hne, setHeader_setHeader]
        show (m.myHeaderList.setHeader _ 0 (.expires (if c.bexpires then c.expires else e))).setHeader _ 0 _ = _
        rw [if_pos hb]
      rw [hlast]
      simp only [if_pos hb]
      rfl
    · have hlast : last = (m.myHeaderList.setHeader .SIP_EXPIRES_HDR 0 (.expires e)).setHeader
          .SIP_CONTACT_HDR 0 (.contact c) := by
        show (m.myHeaderList.setHeader _ 0 (.expires (if c.bexpires then c.expires else e))).setHeader _ 0 _ = _
        rw [if_neg hb]
      rw [hlast]
      simp only [if_neg hb]
      rfl

/-- **Observers**: a run of accesses that gets through leaves the numbers of headers as they are exactly if each
access finds what it asks for. If each is quiet the run gets through, and leaves the text as it is too. -/
theorem accesses_unchanged (m : LazyMsg K) (as : List Access) :
    (∀ m', m.accesses as = some m' → ((∀ type, m'.num type = m.num type) ↔ m.Along Found as)) ∧
    (m.Along Quiet as → ∃ m', m.accesses as = some m' ∧ (∀ type, m'.num type = m.num type) ∧
      m'.encode = m.encode) := by
  refine ⟨fun m' h => (num_accesses_iff h).2, ?_⟩
  intro hquiet
  induction as generalizing m with
  | nil => exact ⟨m, rfl, fun _ => rfl, rfl⟩
  | cons a as ih =>
    obtain ⟨hfound, c, ha, hsame⟩ := access_quiet hquiet.1
    obtain ⟨m', has, hnum, htext⟩ := ih { m with myHeaderList := c } (hquiet.2 _ ha)
    refine ⟨m', ?_, fun type => ?_, ?_⟩
    · unfold accesses
      rw [ha, Option.bind_some, has]
    · rw [hnum]
      exact (num_access_iff ha).mpr hfound type
    · rw [htext]
      exact encode_of_sameText c hsame

/-- A message with raw headers of three types. -/
def sampleMsg (contact : List Data) : LazyMsg Empty where
  startLine := "BYE sip:u@h SIP/2.0\r\n".toList
  local_ip := "h".toList
  myHeaderList
    | .SIP_CALLID_HDR => [⟨⟨.SIP_CALLID_HDR, "Call-ID".toList, "1".toList⟩, none, "h".toList⟩]
    | .SIP_EXPIRES_HDR => [⟨⟨.SIP_EXPIRES_HDR, "Expires".toList, "60".toList⟩, none, "h".toList⟩]
    | .SIP_CONTACT_HDR => contact.map fun value => ⟨⟨.SIP_CONTACT_HDR, "Contact".toList, value⟩, none, "h".toList⟩
    | _ => []
  myMimeList := {}

/-- Without a Contact header, `getExpires` adds one, and it is written. -/
theorem accesses_create :
    (sampleMsg []).num .SIP_CONTACT_HDR = 0 ∧
    ((sampleMsg []).accesses [.getExpires]).any (fun m =>
      m.num .SIP_CONTACT_HDR = 1 && m.encode.isSome && m.encode ≠ (sampleMsg []).encode) = true := by
  decide

theorem accesses_unchanged_sample :
    ∃ m, (sampleMsg ["<sip:u@h>".toList]).accesses [.getExpires] = some m ∧
      (∀ type, m.num type = (sampleMsg ["<sip:u@h>".toList]).num type) ∧
      m.encode = (sampleMsg ["<sip:u@h>".toList]).encode := by
  apply (accesses_unchanged _ _).2
  refine ⟨⟨⟨"60".toList⟩, { url := some (.sipUrl { user := some (.sipUser "u".toList), host := "h".toList }) },
    ⟨_, _, rfl, rfl, rfl⟩, ⟨_, _, rfl, rfl, ?_⟩, ⟨_, rfl, ?_⟩, ⟨_, rfl, ?_⟩⟩, fun _ _ => trivial⟩
  · decide
  · decide
  · decide

end LazyMsg

end Vocal.Sip
