import Vocal.Sdp.Description
import Vocal.Sdp.Split

/-!
# Lines that are decoded and written again

For each kind of line what `encode` writes of what the decoder makes of it, and when that is the line again.
-/

namespace Vocal.Sdp

open Cut (append_cons_inj)
open Sip (Data isIn CRLF)

/-- A text behind the separators at its front, as `parse` leaves it. -/
def stripped (c : Char) (x : Data) : Data := x.dropWhile (isIn · [c])

theorem stripped_eq_self_iff {c : Char} {x : Data} : stripped c x = x ↔ x.head? ≠ some c := dropWhile_isIn_eq_self_iff

theorem stripped_append {c : Char} (x : Data) {y : Data} (hy : y.head? ≠ some c) :
    stripped c (x ++ y) = stripped c x ++ y := by
  induction x with
  | nil => exact dropWhile_isIn_of_head hy
  | cons a x ih =>
    rw [stripped, stripped, List.cons_append, List.dropWhile_cons, List.dropWhile_cons]
    split
    · exact ih
    · rfl

/-- The pieces of a text behind the separators at its front give the text back unless one stands twice or there. -/
theorem joined_split_stripped_eq_iff {c : Char} {x : Data} :
    joined c (split (stripped c x) [c]) = x ↔ ¬ [c, c] <:+: c :: x := joined_split_dropWhile_eq_iff x c

theorem mem_of_mem_stripped {c a : Char} {x : Data} (h : a ∈ stripped c x) : a ∈ x :=
  (List.dropWhile_suffix _).subset h

/-- The first item may be empty, but none of them has the separator. -/
structure Separate (c : Char) (x : Data) (items : List Data) : Prop where
  head : c ∉ x
  items : ∀ y ∈ items, y ≠ [] ∧ c ∉ y

theorem Separate.split_eq {c : Char} {x : Data} {items : List Data} (h : Separate c x items) :
    split (x ++ items.flatMap (c :: ·)) [c] = x :: items := split_joined h.head h.items

theorem Separate.eq_iff {c : Char} {x y : Data} {xs ys : List Data} (hx : Separate c x xs) (hy : Separate c y ys) :
    x ++ xs.flatMap (c :: ·) = y ++ ys.flatMap (c :: ·) ↔ x = y ∧ xs = ys := by
  refine ⟨fun h => ?_, fun ⟨h, hs⟩ => by rw [h, hs]⟩
  have hsplit := congrArg (split · [c]) h
  simp only [hx.split_eq, hy.split_eq] at hsplit
  exact List.cons.inj hsplit

theorem head?_flatMap_cons {c a : Char} (hc : c ≠ a) (items : List Data) :
    (items.flatMap (c :: ·)).head? ≠ some a := by
  cases items with
  | nil => simp
  | cons y items => simpa using hc

theorem Separate.stripped {c a : Char} {x : Data} {items : List Data} (h : Separate c x items) :
    Separate c (stripped a x) items := ⟨fun hmem => h.head (mem_of_mem_stripped hmem), h.items⟩

/-! ### Numbers -/

/-- The number is written as it is written again, and lies in the range. -/
def Number.Fits (low high : Nat) (n : Number) : Prop := ∃ k : Nat, low ≤ k ∧ k < high ∧ n.chars = decimal k

theorem Number.decimal_atoi_iff {w : Nat} (hw : 32 ≤ w) (n : Number) :
    decimal (atoi w n.chars) = n.chars ↔ n.Fits 0 (2 ^ 31) := by
  rw [Vocal.decimal_atoi_iff hw n.isDigit]
  exact ⟨fun ⟨k, hk, h⟩ => ⟨k, k.zero_le, hk, h⟩, fun ⟨k, _, hk, h⟩ => ⟨k, hk, h⟩⟩

theorem Number.notMem {n : Number} {c : Char} (hc : c.isDigit = false) : c ∉ n.chars := by
  intro h
  rw [n.isDigit c h] at hc
  cases hc

theorem decimal_notMem {n : Int} {c : Char} (hc : isNumeric c = false) : c ∉ decimal n := by
  intro h
  rw [isNumeric_of_mem_decimal h] at hc
  cases hc

/-- What a number is written as when it is written only above zero. -/
def optional (n : Int) : Data := if n > 0 then '/' :: decimal n else []

theorem Number.optional_atoi_iff {w : Nat} (hw : 32 ≤ w) (n : Number) :
    optional (atoi w n.chars) = '/' :: n.chars ↔ n.Fits 1 (2 ^ 31) := by
  rw [optional]
  constructor
  · intro h
    split at h
    case isTrue hpos =>
      obtain ⟨k, -, hk, hn⟩ := (n.decimal_atoi_iff hw).mp (List.cons.inj h).2
      refine ⟨k, ?_, hk, hn⟩
      rw [hn, atoi_decimal hw (by omega) (by omega)] at hpos
      omega
    case isFalse => cases h
  · rintro ⟨k, hlow, hk, hn⟩
    rw [hn, atoi_decimal hw (by omega) (by omega), if_pos (by omega)]

theorem optional_eq (n : Int) : optional n = [] ∨ optional n = '/' :: decimal n := by
  rw [optional]
  split
  · exact Or.inr rfl
  · exact Or.inl rfl

theorem append_optional_inj {x y z : Data} {n : Int} (hx : '/' ∉ x) (hy : '/' ∉ y)
    (h : x ++ optional n = y ++ '/' :: z) : x = y ∧ optional n = '/' :: z := by
  rcases optional_eq n with hn | hn
  · rw [hn, List.append_nil] at h
    exact absurd (h ▸ List.mem_append_right y List.mem_cons_self) hx
  · rw [hn] at h ⊢
    obtain ⟨hxy, hz⟩ := (append_cons_inj hx hy).mp h
    exact ⟨hxy, congrArg _ hz⟩

/-! ### The origin -/

/-- An identifier of the origin, as an `unsigned int` of `atoi`. -/
def readId (w : Nat) (n : Number) : Nat := (BitVec.ofInt 32 (atoi w n.chars)).toNat

theorem OriginLine.separate (o : OriginLine) :
    Separate ' ' o.username.chars [o.sessionId.chars, o.version.chars, SdpNetworkTypeIN, addrType o.ip6,
      o.address.chars] := by
  refine ⟨o.username.notMem ' ' (List.mem_singleton_self _), ?_⟩
  have htype : addrType o.ip6 ≠ [] ∧ ' ' ∉ addrType o.ip6 := by
    cases o.ip6
    · exact ⟨by decide, by decide⟩
    · exact ⟨by decide, by decide⟩
  simp only [List.forall_mem_cons]
  exact ⟨⟨o.sessionId.ne_nil, Number.notMem rfl⟩, ⟨o.version.ne_nil, Number.notMem rfl⟩, ⟨by decide, by decide⟩, htype,
    ⟨o.address.ne_nil, o.address.notMem ' ' (List.mem_singleton_self _)⟩, by simp⟩

theorem readOrigin_text (w : Nat) (sess : SdpSession) (o : OriginLine) :
    sess.readOrigin w (stripped '=' o.text) =
      { sess with
        username := stripped '=' o.username.chars, sessionId := readId w o.sessionId, version := readId w o.version,
        networkType := .Internet, addressType := if o.ip6 then .IPV6 else .IPV4, address := o.address.chars } := by
  rw [OriginLine.text, stripped_append _ (head?_flatMap_cons (by decide) _), SdpSession.readOrigin,
    o.separate.stripped.split_eq]
  cases o.ip6
  · rfl
  · rfl

/-- What the encoder writes of the origin. -/
def OriginLine.again (w : Nat) (o : OriginLine) : Data :=
  stripped '=' o.username.chars ++ [decimal (readId w o.sessionId), decimal (readId w o.version), SdpNetworkTypeIN,
    addrType o.ip6, o.address.chars].flatMap (' ' :: ·)

theorem decimal_readId_iff (w : Nat) (n : Number) :
    decimal (readId w n) = n.chars ↔ n.Fits 0 (min (2 ^ 32) (2 ^ (w - 1))) := by
  rw [readId, decimal_unsigned_iff w n.isDigit]
  constructor
  · rintro ⟨k, hk, hlong, h⟩
    exact ⟨k, k.zero_le, lt_min hk hlong, h⟩
  · rintro ⟨k, -, hk, h⟩
    exact ⟨k, (lt_min_iff.mp hk).1, (lt_min_iff.mp hk).2, h⟩

theorem OriginLine.again_eq_iff {w : Nat} {o : OriginLine} :
    o.again w = o.text ↔ o.username.chars.head? ≠ some '=' ∧ o.sessionId.Fits 0 (min (2 ^ 32) (2 ^ (w - 1))) ∧
      o.version.Fits 0 (min (2 ^ 32) (2 ^ (w - 1))) := by
  have hseparate : Separate ' ' (stripped '=' o.username.chars) [decimal (readId w o.sessionId),
      decimal (readId w o.version), SdpNetworkTypeIN, addrType o.ip6, o.address.chars] := by
    have hitems := o.separate.stripped (a := '=')
    refine ⟨hitems.head, ?_⟩
    have hrest := hitems.items
    simp only [List.forall_mem_cons] at hrest ⊢
    exact ⟨⟨decimal_ne_nil _, decimal_notMem rfl⟩, ⟨decimal_ne_nil _, decimal_notMem rfl⟩, hrest.2.2⟩
  rw [again, text, hseparate.eq_iff o.separate, stripped_eq_self_iff]
  simp only [List.cons.injEq, and_true, decimal_readId_iff]

/-! ### Connections -/

theorem addrType_facts (ip6 : Bool) : addrType ip6 ≠ [] ∧ ' ' ∉ addrType ip6 ∧ '/' ∉ addrType ip6 := by
  cases ip6
  · exact ⟨by decide, by decide, by decide⟩
  · exact ⟨by decide, by decide, by decide⟩

/-- What stands in front of the first slash. -/
def ConnectionLine.front (c : ConnectionLine) : Data :=
  SdpNetworkTypeIN ++ [addrType c.ip6, c.address.chars].flatMap (' ' :: ·)

theorem ConnectionLine.text_eq (c : ConnectionLine) : c.text = c.front ++ c.multicastText := by
  simp [text, front]

theorem ConnectionLine.split_front (c : ConnectionLine) :
    split c.front [' '] = [SdpNetworkTypeIN, addrType c.ip6, c.address.chars] := by
  refine Separate.split_eq ⟨by decide, ?_⟩
  simp only [List.forall_mem_cons]
  exact ⟨⟨(addrType_facts c.ip6).1, (addrType_facts c.ip6).2.1⟩, ⟨c.address.ne_nil, c.address.notMem ' ' (by simp)⟩,
    by simp⟩

theorem ConnectionLine.slash_notMem_front (c : ConnectionLine) : '/' ∉ c.front := by
  have htype := (addrType_facts c.ip6).2.2
  have haddress := c.address.notMem '/' (by simp)
  simp [front, SdpNetworkTypeIN, htype, haddress]

/-- The items between the slashes. -/
def ConnectionLine.slashed (c : ConnectionLine) : List Data :=
  match c.multicast with
  | none => []
  | some (ttl, none) => [ttl.chars]
  | some (ttl, some numAddr) => [ttl.chars, numAddr.chars]

theorem ConnectionLine.split_text (c : ConnectionLine) : split c.text ['/'] = c.front :: c.slashed := by
  have hnumber : ∀ n : Number, n.chars ≠ [] ∧ '/' ∉ n.chars := fun n => ⟨n.ne_nil, Number.notMem rfl⟩
  have htext : c.text = c.front ++ c.slashed.flatMap ('/' :: ·) := by
    rw [text_eq, multicastText, slashed]
    rcases c.multicast with _ | ⟨ttl, _ | numAddr⟩
    · rfl
    · simp
    · simp
  rw [htext]
  refine Separate.split_eq ⟨c.slash_notMem_front, ?_⟩
  rw [slashed]
  rcases c.multicast with _ | ⟨ttl, _ | numAddr⟩
  · simp
  · simpa using hnumber ttl
  · simp only [List.forall_mem_cons]
    exact ⟨hnumber ttl, hnumber numAddr, by simp⟩

/-- The time to live that the decoder sets. -/
def readTtl (memory : Memory) (w : Nat) (ttl : Number) : Int :=
  if atoi w ttl.chars < 0 ∨ atoi w ttl.chars > 255 then memory.ttl else atoi w ttl.chars

/-- What the encoder writes of a connection. -/
def ConnectionLine.again (memory : Memory) (w : Nat) (c : ConnectionLine) : Data :=
  c.front ++
    (match c.multicast with
    | none => []
    | some (ttl, none) => '/' :: decimal (readTtl memory w ttl)
    | some (ttl, some numAddr) => '/' :: decimal (readTtl memory w ttl) ++ optional (atoi w numAddr.chars))

theorem setTtl_atoi (memory : Memory) (w : Nat) (ttl : Number) :
    SdpMulticast.setTtl { address := [], ttl := memory.ttl } (atoi w ttl.chars) =
      { address := [], ttl := readTtl memory w ttl } := by
  rw [SdpMulticast.setTtl, readTtl]
  split
  · rfl
  · rfl

theorem readMulticast_slashed (memory : Memory) (w : Nat) (c : ConnectionLine) (front : Data) :
    SdpConnection.readMulticast memory w (front :: c.slashed) = c.multicast.map fun p =>
      { address := [], ttl := readTtl memory w p.1, numAddress := (p.2.map fun n => atoi w n.chars).getD 0 } := by
  rw [ConnectionLine.slashed]
  rcases c.multicast with _ | ⟨ttl, _ | numAddr⟩
  · rfl
  · exact congrArg some (setTtl_atoi memory w ttl)
  · simp only [SdpConnection.readMulticast, setTtl_atoi]
    rfl

theorem decode_connection (memory : Memory) (w : Nat) (c : ConnectionLine) :
    ∃ conn, SdpConnection.decode memory w (stripped '=' c.text) = .ok conn ∧
      conn.encode = line 'c' (c.again memory w) := by
  have hstripped : stripped '=' c.text = c.text := stripped_eq_self_iff.mpr (by
    rw [c.text_eq, ConnectionLine.front, SdpNetworkTypeIN]
    simp)
  rw [hstripped]
  simp only [SdpConnection.decode, c.split_text, List.headD_cons, c.split_front, readMulticast_slashed, ne_eq,
    not_true_eq_false, if_false]
  rw [if_neg (by cases c.ip6 <;> decide)]
  refine ⟨_, rfl, ?_⟩
  rw [SdpConnection.encode, ConnectionLine.again, ConnectionLine.front]
  have htype : (if addrType c.ip6 = SdpAddressTypeIP4 then AddressType.IPV4 else .IPV6).addressTypeString =
      addrType c.ip6 := by cases c.ip6 <;> rfl
  simp only [htype]
  rcases c.multicast with _ | ⟨ttl, _ | numAddr⟩
  · simp [NetworkType.networkTypeString]
  · simp [NetworkType.networkTypeString, SdpMulticast.encode]
  · simp [NetworkType.networkTypeString, SdpMulticast.encode, optional]

/-- The numbers of a multicast connection fit. -/
def ConnectionLine.Fits (c : ConnectionLine) : Prop :=
  ∀ p ∈ c.multicast, p.1.Fits 0 256 ∧ ∀ n ∈ p.2, n.Fits 1 (2 ^ 31)

theorem decimal_readTtl {w : Nat} (hw : 32 ≤ w) {ttl : Number} (h : ttl.Fits 0 256) (memory : Memory) :
    decimal (readTtl memory w ttl) = ttl.chars := by
  obtain ⟨k, -, hk, hchars⟩ := h
  rw [readTtl, hchars, atoi_decimal hw (by omega) (by omega), if_neg (by omega)]

/-- A time to live that is not set does not come back where the memory holds no number of digits. -/
theorem fits_of_decimal_readTtl {memory : Memory} (hmemory : memory.ttl < 0) {w : Nat} (hw : 32 ≤ w) {ttl : Number}
    (h : decimal (readTtl memory w ttl) = ttl.chars) : ttl.Fits 0 256 := by
  rw [readTtl] at h
  split at h
  case isTrue =>
    have hnonneg := nonneg_of_isDigit (h.symm ▸ ttl.isDigit)
    omega
  case isFalse hrange =>
    obtain ⟨k, hlow, hk, hchars⟩ := (ttl.decimal_atoi_iff hw).mp h
    rw [hchars, atoi_decimal hw (by omega) (by omega)] at hrange
    exact ⟨k, hlow, by omega, hchars⟩

theorem ConnectionLine.Fits.again_eq {w : Nat} (hw : 32 ≤ w) {c : ConnectionLine} (h : c.Fits) (memory : Memory) :
    c.again memory w = c.text := by
  rw [again, text_eq, multicastText]
  rw [Fits] at h
  rcases hmulticast : c.multicast with _ | ⟨ttl, _ | numAddr⟩
  · rfl
  · obtain ⟨httl, -⟩ := h (ttl, none) hmulticast
    simp only [decimal_readTtl hw httl]
  · obtain ⟨httl, hnum⟩ := h (ttl, some numAddr) hmulticast
    simp only [decimal_readTtl hw httl, (numAddr.optional_atoi_iff hw).mpr (hnum numAddr rfl)]

theorem ConnectionLine.fits_of_again {memory : Memory} (hmemory : memory.ttl < 0) {w : Nat} (hw : 32 ≤ w)
    {c : ConnectionLine} (h : c.again memory w = c.text) : c.Fits := by
  rw [again, text_eq, multicastText, List.append_cancel_left_eq] at h
  rw [Fits]
  rcases hmulticast : c.multicast with _ | ⟨ttl, _ | numAddr⟩
  · simp
  · simp only [hmulticast, List.cons.injEq, true_and] at h
    rintro p hp
    obtain rfl := Option.some.inj hp
    exact ⟨fits_of_decimal_readTtl hmemory hw h, by simp⟩
  · simp only [hmulticast] at h
    rintro p hp
    obtain rfl := Option.some.inj hp
    obtain ⟨httl, hnum⟩ := append_optional_inj (decimal_notMem rfl) (Number.notMem rfl) (List.cons.inj h).2
    refine ⟨fits_of_decimal_readTtl hmemory hw httl, fun n hn => ?_⟩
    obtain rfl := Option.some.inj hn
    exact (numAddr.optional_atoi_iff hw).mp hnum

/-! ### Bandwidths and keys -/

/-- What the encoder writes of a bandwidth. -/
def BandwidthLine.again (w : Nat) (b : BandwidthLine) : Data :=
  b.modifier.modifierString ++ ':' :: decimal (atoi w b.value.chars)

theorem decode_bandwidth (w : Nat) (b : BandwidthLine) :
    ∃ bw, SdpBandwidth.decode w (stripped '=' b.text) = .ok bw ∧ bw.encode = line 'b' (b.again w) := by
  have hsplit : split (stripped '=' b.text) [':'] = [b.modifier.modifierString, b.value.chars] := by
    have hstripped : stripped '=' b.text = b.text := stripped_eq_self_iff.mpr (by
      rw [BandwidthLine.text]
      cases b.modifier <;> simp [SdpBandwidthModifierType.modifierString])
    have hseparate : Separate ':' b.modifier.modifierString [b.value.chars] := by
      refine ⟨by cases b.modifier <;> decide, ?_⟩
      simpa using ⟨b.value.ne_nil, Number.notMem (n := b.value) (c := ':') rfl⟩
    rw [hstripped, ← hseparate.split_eq, BandwidthLine.text]
    simp
  rw [SdpBandwidth.decode, hsplit]
  refine ⟨{ modifier := b.modifier, value := atoi w b.value.chars }, ?_, rfl⟩
  cases b.modifier with
  | AS => rfl
  | CT => rfl
  | RR => rfl

theorem BandwidthLine.again_eq_iff {w : Nat} (hw : 32 ≤ w) {b : BandwidthLine} :
    b.again w = b.text ↔ b.value.Fits 0 (2 ^ 31) := by
  rw [again, text, List.append_cancel_left_eq, List.cons_inj_right, Number.decimal_atoi_iff hw]

/-- What the encoder writes of a key; none when the decoder throws. -/
def KeyLine.again (k : KeyLine) : Option (List Data) :=
  match SdpEncryptkey.decode (stripped '=' k.text) with
  | .ok key => some key.encode
  | .error _ => none

/-- The key has a method that the decoder reads. -/
def KeyLine.Known : KeyLine → Prop
  | clear _ | base64 _ => False
  | uri key => key.chars.head? ≠ some ':'
  | prompt => True

theorem encode_of_decode {s : Data} {method : Data} (hmethod : ':' ∉ method) (huri : method ≠ "uri".toList)
    {key : SdpEncryptkey} (h : SdpEncryptkey.decode (method ++ ':' :: s) = .ok key) :
    key.encode = [line 'k' "prompt".toList] ∨ ∃ text, key.encode = [line 'k' text] ∧ text.length ≤ s.length := by
  have hparse : (method ++ ':' :: s).parse [':'] = some (method, s.dropWhile (isIn · [':'])) :=
    Sip.Data.parse_found hmethod s
  have hle := (List.dropWhile_suffix (l := s) (isIn · [':'])).length_le
  have hjoined := length_joined_split_le (s.dropWhile (isIn · [':'])) ':'
  simp only [SdpEncryptkey.decode, hparse, Option.getD_some, if_neg huri] at h
  split at h
  next x heq =>
    split at h
    · obtain rfl := Except.ok.inj h
      exact Or.inl rfl
    · cases h
  next x y heq =>
    rw [heq] at hjoined
    have hlen : (x ++ ':' :: y).length ≤ s.length := by
      have := hjoined.trans hle
      simpa [joined] using this
    split_ifs at h with hclear hbase hprompt
    · obtain rfl := Except.ok.inj h
      exact Or.inr ⟨_, rfl, hclear ▸ hlen⟩
    · obtain rfl := Except.ok.inj h
      exact Or.inr ⟨_, rfl, hbase ▸ hlen⟩
    · obtain rfl := Except.ok.inj h
      exact Or.inl rfl
  next => cases h

theorem KeyLine.again_ne {k : KeyLine} (method : Data) {key : Data} (htext : k.text = method ++ ':' :: key)
    (hcolon : ':' ∉ method) (huri : method ≠ "uri".toList) {a : Char} (hhead : method.head? = some a) (hp : a ≠ 'p')
    (heq : a ≠ '=') : k.again ≠ some [line 'k' k.text] := by
  have hhead' : ∀ rest : Data, (method ++ rest).head? = some a := fun rest => by
    rw [List.head?_append, hhead]
    rfl
  have hstripped : stripped '=' k.text = method ++ ':' :: key := by
    rw [htext, stripped_eq_self_iff, hhead', ne_eq, Option.some_inj]
    exact heq
  rw [again, hstripped]
  cases hdecode : SdpEncryptkey.decode (method ++ ':' :: key) with
  | error e => rintro ⟨⟩
  | ok k' =>
    intro h
    have hencode := Option.some.inj h
    rcases encode_of_decode hcolon huri hdecode with hprompt | ⟨text, hshort, hlen⟩
    · rw [hprompt, List.singleton_inj, line_inj, htext] at hencode
      have hfirst := congrArg List.head? hencode
      rw [hhead'] at hfirst
      exact hp (Option.some.inj hfirst).symm
    · rw [hshort, List.singleton_inj, line_inj, htext] at hencode
      rw [hencode, List.length_append, List.length_cons] at hlen
      omega

theorem KeyLine.again_uri (key : Text) :
    (uri key).again = some [line 'k' ("uri".toList ++ ':' :: stripped ':' key.chars)] := by
  have hstripped : stripped '=' (uri key).text = "uri".toList ++ ':' :: key.chars := stripped_eq_self_iff.mpr
    fun h => absurd (Option.some.inj (h : some 'u' = some '=')) (by decide)
  have hparse : Sip.Data.parse ("uri".toList ++ ':' :: key.chars) [':'] = some ("uri".toList, stripped ':' key.chars) :=
    Sip.Data.parse_found (by decide) key.chars
  have hdecode : SdpEncryptkey.decode ("uri".toList ++ ':' :: key.chars) =
      .ok { encrypt_method := .URI, encrypt_key := stripped ':' key.chars } := by
    rw [SdpEncryptkey.decode, hparse]
    exact if_pos rfl
  rw [again, hstripped, hdecode]
  rfl

theorem KeyLine.again_prompt : prompt.again = some [line 'k' "prompt".toList] := by
  have hstripped : stripped '=' prompt.text = "prompt".toList := by decide
  have hparse : Sip.Data.parse "prompt".toList [':'] = none := Sip.Data.parse_not_found (by decide)
  have hsplit : split "prompt".toList [':'] = ["prompt".toList] := split_of_notMem (by decide)
  have hdecode : SdpEncryptkey.decode "prompt".toList = .ok { encrypt_method := .Prompt } := by
    rw [SdpEncryptkey.decode, hparse]
    dsimp only [Option.getD_none]
    rw [if_neg (by decide), hsplit]
    rfl
  rw [again, hstripped, hdecode]
  rfl

theorem KeyLine.again_eq_iff {k : KeyLine} : k.again = some [line 'k' k.text] ↔ k.Known := by
  cases k with
  | clear key =>
    exact iff_of_false (again_ne "clear".toList rfl (by decide) (by decide) rfl (by decide) (by decide)) not_false
  | base64 key =>
    exact iff_of_false (again_ne "base64".toList rfl (by decide) (by decide) rfl (by decide) (by decide)) not_false
  | uri key =>
    have htext : (uri key).text = "uri".toList ++ ':' :: key.chars := rfl
    rw [again_uri, Option.some_inj, List.singleton_inj, line_inj, htext, List.append_cancel_left_eq, List.cons_inj_right,
      stripped_eq_self_iff, Known]
  | prompt => exact iff_of_true again_prompt trivial

/-! ### Times and zones -/

theorem Field.separate_blank (xs : List (Field [' '])) : ∀ y ∈ xs.map (·.chars), y ≠ [] ∧ ' ' ∉ y := by
  intro y hy
  obtain ⟨f, -, rfl⟩ := List.mem_map.mp hy
  exact ⟨f.ne_nil, f.notMem ' ' (List.mem_singleton_self _)⟩

theorem spaced_eq (items : List Data) : spaced items = items.flatMap (' ' :: ·) := rfl

theorem RepeatLine.separate (r : RepeatLine) : Separate ' ' r.interval.chars (r.duration.chars :: r.offsets.map (·.chars)) :=
  ⟨r.interval.notMem ' ' (List.mem_singleton_self _), Field.separate_blank (r.duration :: r.offsets)⟩

/-- What the encoder writes of the repetitions of a time. -/
def RepeatLine.again (r : RepeatLine) : Data :=
  stripped '=' r.interval.chars ++ (r.duration.chars :: r.offsets.map (·.chars)).flatMap (' ' :: ·)

theorem decode_repeat (r : RepeatLine) :
    SdpTimeRepeat.decode (line 'r' r.text) = .ok
      { interval := stripped '=' r.interval.chars, activeDuration := r.duration.chars,
        offsetList := r.offsets.map (·.chars) } := by
  have hsplit : split (textOf (line 'r' r.text)) [' '] =
      stripped '=' r.interval.chars :: r.duration.chars :: r.offsets.map (·.chars) := by
    rw [textOf_line (by decide)]
    show split (stripped '=' r.text) [' '] = _
    rw [RepeatLine.text, stripped_append _ (head?_flatMap_cons (by decide) _), r.separate.stripped.split_eq]
  rw [SdpTimeRepeat.decode, hsplit]

/-- What the encoder writes of a time. -/
def TimeLine.again (t : TimeLine) : List Data :=
  line 't' (stripped '=' t.start.chars ++ [t.stop.chars].flatMap (' ' :: ·)) :: t.repeats.map fun r => line 'r' r.again

theorem decode_time (t : TimeLine) :
    ∃ time, SdpTime.decode (line 't' t.text) (t.repeats.map fun r => line 'r' r.text) = .ok time ∧
      time.encode = t.again := by
  have hsplit : split (textOf (line 't' t.text)) [' '] = [stripped '=' t.start.chars, t.stop.chars] := by
    have hseparate : Separate ' ' t.start.chars [t.stop.chars] :=
      ⟨t.start.notMem ' ' (List.mem_singleton_self _), Field.separate_blank [t.stop]⟩
    rw [textOf_line (by decide)]
    show split (stripped '=' t.text) [' '] = _
    rw [TimeLine.text, stripped_append _ (head?_flatMap_cons (by decide) _), hseparate.stripped.split_eq]
  have hrepeats : (t.repeats.map fun r => line 'r' r.text).mapM SdpTimeRepeat.decode = .ok (t.repeats.map fun r =>
      { interval := stripped '=' r.interval.chars, activeDuration := r.duration.chars,
        offsetList := r.offsets.map (·.chars) }) := by
    induction t.repeats with
    | nil => rfl
    | cons r rs ih =>
      rw [List.map_cons, List.mapM_cons, decode_repeat, ih]
      rfl
  rw [SdpTime.decode, hsplit]
  simp only [hrepeats]
  refine ⟨_, rfl, ?_⟩
  rw [SdpTime.encode, TimeLine.again, List.map_map]
  refine congrArg₂ List.cons (by simp) (List.map_congr_left fun r _ => ?_)
  simp [SdpTimeRepeat.encode, RepeatLine.again, spaced_eq]

theorem TimeLine.again_eq_iff {t : TimeLine} :
    t.again = t.lines ↔ t.start.chars.head? ≠ some '=' ∧ ∀ r ∈ t.repeats, r.interval.chars.head? ≠ some '=' := by
  have hrepeat : ∀ r : RepeatLine, line 'r' r.again = line 'r' r.text ↔ r.interval.chars.head? ≠ some '=' := by
    intro r
    rw [line_inj, RepeatLine.again, RepeatLine.text, List.append_cancel_right_eq, stripped_eq_self_iff]
  rw [again, lines, List.cons.injEq, line_inj, text, List.append_cancel_right_eq, stripped_eq_self_iff,
    List.map_inj_left]
  simp only [hrepeat]

/-- What the encoder writes of the adjustments of zones. -/
def ZoneLine.again (z : ZoneLine) : Data :=
  stripped '=' z.time.chars ++
    (z.offset.chars :: z.more.flatMap fun p => [p.1.chars, p.2.chars]).flatMap (' ' :: ·)

theorem ZoneLine.separate (z : ZoneLine) :
    Separate ' ' z.time.chars (z.offset.chars :: z.more.flatMap fun p => [p.1.chars, p.2.chars]) := by
  refine ⟨z.time.notMem ' ' (List.mem_singleton_self _), ?_⟩
  have hmore := Field.separate_blank (z.offset :: z.more.flatMap fun p => [p.1, p.2])
  rw [List.map_cons, List.map_flatMap] at hmore
  exact hmore

theorem zoneAdjustments_more (more : List (Field [' '] × Field [' '])) :
    zoneAdjustments (more.flatMap fun p => [p.1.chars, p.2.chars]) =
      more.map fun p => { adjustment_time := p.1.chars, offset := p.2.chars } := by
  induction more with
  | nil => rfl
  | cons p more ih =>
    rw [List.flatMap_cons, List.map_cons, ← ih]
    rfl

theorem decode_zones (z : ZoneLine) :
    zoneAdjustments (split (stripped '=' z.text) [' ']) =
      { adjustment_time := stripped '=' z.time.chars, offset := z.offset.chars } ::
        z.more.map fun p => { adjustment_time := p.1.chars, offset := p.2.chars } := by
  rw [ZoneLine.text, stripped_append _ (head?_flatMap_cons (by decide) _), z.separate.stripped.split_eq,
    zoneAdjustments, zoneAdjustments_more]

theorem ZoneLine.again_eq_iff {z : ZoneLine} : z.again = z.text ↔ z.time.chars.head? ≠ some '=' := by
  rw [again, text, List.append_cancel_right_eq, stripped_eq_self_iff]

theorem encode_zones {sess : SdpSession} {z : ZoneLine}
    (h : sess.zoneAdjustmentList = zoneAdjustments (split (stripped '=' z.text) [' '])) :
    sess.encodeTimeZoneAdjustment = [line 'z' z.again] := by
  rw [SdpSession.encodeTimeZoneAdjustment, h, decode_zones]
  simp [ZoneLine.again, List.flatMap_map, List.flatMap_assoc]

end Vocal.Sdp
