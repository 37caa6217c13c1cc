import Vocal.Sdp.Attributes

/-!
# Attributes of media that are decoded and written again

The encoder writes the entries for payload types in front of the other attributes. The decoder takes every text in which
the name of such an entry stands anywhere for one.
-/

namespace Vocal.Sdp

open Cut (append_cons_inj)
open Sip (Data find find_eq_none_iff)

/-- The name of the attribute, with the colon. -/
def rtpmapName : Data := "rtpmap:".toList

/-- What the decoder reads as an entry, when it reads the text as one. -/
def entryOf (memory : Memory) (w : Nat) (text : Data) : Option (Except SDPErrorType SdpRtpMapAttribute) :=
  match Sip.Data.match text rtpmapName with
  | .FIRST rest | .FOUND _ rest => some (SdpRtpMapAttribute.decode memory w rest)
  | .NOT_FOUND => none

theorem entryOf_eq_none_iff {memory : Memory} {w : Nat} {text : Data} :
    entryOf memory w text = none ↔ ¬ rtpmapName <:+: text := by
  rw [← find_eq_none_iff (by decide), entryOf, Sip.Data.match]
  cases hfind : find rtpmapName text with
  | none => exact iff_of_true rfl rfl
  | some pos =>
    cases pos with
    | zero => exact iff_of_false (by rintro ⟨⟩) (by rintro ⟨⟩)
    | succ pos => exact iff_of_false (by rintro ⟨⟩) (by rintro ⟨⟩)

theorem setAttribute_eq (memory : Memory) (w : Nat) (a : MediaAttributes) (text : Data) :
    a.setAttribute memory w text = match entryOf memory w text with
      | some entry => entry.map a.addmap
      | none => .ok { a with toSdpAttributes := a.toSdpAttributes.setAttribute text } := by
  rw [MediaAttributes.setAttribute, entryOf]
  show (match Sip.Data.match text rtpmapName with
    | .FIRST rest | .FOUND _ rest => (SdpRtpMapAttribute.decode memory w rest).map a.addmap
    | .NOT_FOUND => .ok { a with toSdpAttributes := a.toSdpAttributes.setAttribute text }) = _
  cases Sip.Data.match text rtpmapName with
  | FIRST rest => rfl
  | FOUND before rest => rfl
  | NOT_FOUND => rfl

/-- The entry that the decoder makes of a line. -/
def RtpMapLine.read (w : Nat) (r : RtpMapLine) : SdpRtpMapAttribute :=
  { payloadType := atoi w r.payload.chars, encodingName := r.name.chars, clockrate := atoi w r.rate.chars,
    encodingParms := (r.parms.map fun p => atoi w p.chars).getD 0 }

/-- The items between the slashes, behind the name. -/
def RtpMapLine.slashed (r : RtpMapLine) : List Data := r.rate.chars :: (r.parms.map (·.chars)).toList

theorem RtpMapLine.separate (r : RtpMapLine) : Separate '/' r.name.chars r.slashed := by
  refine ⟨r.name.notMem '/' (by simp), ?_⟩
  have hnumber : ∀ n : Number, n.chars ≠ [] ∧ '/' ∉ n.chars := fun n => ⟨n.ne_nil, Number.notMem rfl⟩
  rw [slashed]
  cases r.parms with
  | none => simpa using hnumber r.rate
  | some parms => simpa using ⟨hnumber r.rate, hnumber parms⟩

/-- What stands behind the blank. -/
def RtpMapLine.encoding (r : RtpMapLine) : Data := r.name.chars ++ r.slashed.flatMap ('/' :: ·)

theorem RtpMapLine.detail_eq (r : RtpMapLine) : r.detail = r.payload.chars ++ [r.encoding].flatMap (' ' :: ·) := by
  rw [detail, encoding, slashed, parmsText]
  cases r.parms <;> simp

theorem RtpMapLine.blank_notMem_encoding (r : RtpMapLine) : ' ' ∉ r.encoding := by
  have hname := r.name.notMem ' ' (by simp)
  have hrate : ' ' ∉ r.rate.chars := Number.notMem rfl
  rw [encoding, slashed]
  cases r.parms with
  | none => simp [hname, hrate]
  | some parms => simp [hname, hrate, Number.notMem (n := parms) (c := ' ') rfl]

theorem RtpMapLine.split_detail (r : RtpMapLine) : split r.detail [' '] = [r.payload.chars, r.encoding] := by
  rw [r.detail_eq]
  refine Separate.split_eq ⟨Number.notMem rfl, ?_⟩
  have hne : r.encoding ≠ [] := List.append_ne_nil_of_left_ne_nil r.name.ne_nil _
  simpa using ⟨hne, r.blank_notMem_encoding⟩

theorem decode_rtpmap (memory : Memory) (w : Nat) (r : RtpMapLine) :
    SdpRtpMapAttribute.decode memory w r.detail = .ok (r.read w) := by
  have hencoding : split r.encoding ['/'] = r.name.chars :: r.slashed := r.separate.split_eq
  rw [SdpRtpMapAttribute.decode, r.split_detail]
  dsimp only
  rw [hencoding, RtpMapLine.slashed, RtpMapLine.read]
  cases r.parms with
  | none => rfl
  | some parms => rfl

/-- The numbers of the entry fit. -/
structure RtpMapLine.Fits (r : RtpMapLine) : Prop where
  payload : r.payload.Fits 0 (2 ^ 31)
  rate : r.rate.Fits 0 (2 ^ 31)
  parms : ∀ n ∈ r.parms, n.Fits 1 (2 ^ 31)

theorem encode_read (w : Nat) (r : RtpMapLine) :
    (r.read w).encode = line 'a' (rtpmapName ++ (decimal (atoi w r.payload.chars) ++ ' ' :: (r.name.chars ++ '/' ::
      (decimal (atoi w r.rate.chars) ++ optional ((r.parms.map fun p => atoi w p.chars).getD 0))))) := by
  have hencode : (r.read w).encode = line 'a' (rtpmapName ++ decimal (atoi w r.payload.chars) ++ ' ' :: r.name.chars ++
      '/' :: decimal (atoi w r.rate.chars) ++ optional ((r.parms.map fun p => atoi w p.chars).getD 0)) := rfl
  rw [hencode]
  simp only [List.append_assoc, List.cons_append]

theorem encode_read_eq_iff {w : Nat} (hw : 32 ≤ w) {r : RtpMapLine} :
    (r.read w).encode = line 'a' (MediaAttributeLine.rtpmap r).text ↔ r.Fits := by
  have htext : (MediaAttributeLine.rtpmap r).text = rtpmapName ++ (r.payload.chars ++ ' ' :: (r.name.chars ++ '/' ::
      (r.rate.chars ++ r.parmsText))) := by
    show rtpmapName ++ r.detail = _
    rw [RtpMapLine.detail, List.append_assoc, List.cons_append]
  rw [encode_read, htext, RtpMapLine.parmsText, line_inj, List.append_cancel_left_eq,
    append_cons_inj (decimal_notMem rfl) (Number.notMem rfl), List.append_cancel_left_eq, List.cons_inj_right,
    r.payload.decimal_atoi_iff hw]
  cases hparms : r.parms with
  | none =>
    have hnone : optional ((Option.map (fun p : Number => atoi w p.chars) none).getD 0) = [] := rfl
    rw [hnone, List.append_nil]
    simp only [List.append_nil]
    rw [r.rate.decimal_atoi_iff hw]
    exact ⟨fun h => ⟨h.1, h.2, by simp [hparms]⟩, fun h => ⟨h.payload, h.rate⟩⟩
  | some parms =>
    simp only [Option.map_some, Option.getD_some]
    constructor
    · rintro ⟨hpayload, hrest⟩
      obtain ⟨hrate, hoptional⟩ := append_optional_inj (decimal_notMem rfl) (Number.notMem rfl) hrest
      refine ⟨hpayload, (r.rate.decimal_atoi_iff hw).mp hrate, fun n hn => ?_⟩
      obtain rfl := Option.some.inj (hparms.symm.trans hn)
      exact (parms.optional_atoi_iff hw).mp hoptional
    · intro h
      rw [(r.rate.decimal_atoi_iff hw).mpr h.rate, (parms.optional_atoi_iff hw).mpr (h.parms parms hparms)]
      exact ⟨h.payload, rfl⟩

/-! ### The attributes of a media line -/

theorem foldlM_setAttribute_iff {memory : Memory} {w : Nat} {texts : List Data} {a b : MediaAttributes} :
    texts.foldlM (MediaAttributes.setAttribute memory w) a = .ok b ↔
      ∃ entries, texts.filterMap (entryOf memory w) = entries.map .ok ∧
        b = { toSdpAttributes := (texts.filter fun t => entryOf memory w t = none).foldl
                (fun a text => a.setAttribute text) a.toSdpAttributes,
              rtpmap := a.rtpmap ++ entries } := by
  induction texts generalizing a with
  | nil =>
    constructor
    · rintro h
      obtain rfl := Except.ok.inj h
      exact ⟨[], rfl, by simp⟩
    · rintro ⟨entries, hentries, rfl⟩
      obtain rfl := List.map_eq_nil_iff.mp hentries.symm
      rw [List.append_nil]
      rfl
  | cons text texts ih =>
    rw [List.foldlM_cons, setAttribute_eq]
    cases hentry : entryOf memory w text with
    | none =>
      rw [List.filterMap_cons_none hentry, List.filter_cons_of_pos (by rw [hentry]; rfl), List.foldl_cons]
      exact ih
    | some entry =>
      rw [List.filterMap_cons_some hentry, List.filter_cons_of_neg (by rw [hentry]; exact Bool.false_ne_true)]
      cases entry with
      | error e =>
        refine iff_of_false (by rintro ⟨⟩) ?_
        rintro ⟨entries, hentries, -⟩
        cases entries with
        | nil => cases hentries
        | cons e' entries => cases (List.cons.inj hentries).1
      | ok entry =>
        refine (ih (a := a.addmap entry)).trans ⟨?_, ?_⟩
        · rintro ⟨entries, hentries, rfl⟩
          refine ⟨entry :: entries, by rw [hentries]; rfl, ?_⟩
          simp [MediaAttributes.addmap]
        · rintro ⟨entries, hentries, rfl⟩
          cases entries with
          | nil => cases hentries
          | cons e' entries =>
            obtain ⟨he, hrest⟩ := List.cons.inj hentries
            obtain rfl := Except.ok.inj he
            refine ⟨entries, hrest, ?_⟩
            simp [MediaAttributes.addmap]

namespace MediaAttributeLine

def other? : MediaAttributeLine → Option AttributeLine
  | rtpmap _ => none
  | other a _ => some a

/-- The place of an attribute in the order of the encoder. -/
def rank : MediaAttributeLine → Nat
  | rtpmap _ => 0
  | other _ _ => 1

theorem entryOf_rtpmap (memory : Memory) (w : Nat) (r : RtpMapLine) :
    entryOf memory w (stripped '=' (rtpmap r).text) = some (.ok (r.read w)) := by
  have htext : (rtpmap r).text = rtpmapName ++ r.detail := rfl
  have hstripped : stripped '=' (rtpmap r).text = rtpmapName ++ r.detail := by
    rw [htext, stripped_eq_self_iff]
    exact fun h => absurd (Option.some.inj (h : some 'r' = some '=')) (by decide)
  have hfind : find rtpmapName (rtpmapName ++ r.detail) = some 0 := by
    show find rtpmapName ('r' :: ("tpmap:".toList ++ r.detail)) = some 0
    rw [find, if_pos]
    exact List.isPrefixOf_iff_prefix.mpr (List.prefix_append rtpmapName r.detail)
  rw [hstripped, entryOf, Sip.Data.match, hfind, List.drop_left]
  exact congrArg some (decode_rtpmap memory w r)

theorem rtpmapName_prefix_iff (l : MediaAttributeLine) : line 'a' rtpmapName <+: line 'a' l.text ↔ l.other? = none := by
  rw [line, line, List.prefix_cons_inj, List.prefix_cons_inj]
  cases l with
  | rtpmap r => exact iff_of_true (List.prefix_append rtpmapName r.detail) rfl
  | other a h =>
    refine iff_of_false ?_ (by rintro ⟨⟩)
    rintro ⟨e, he : rtpmapName ++ e = a.text⟩
    have hcolon : ':' ∈ a.text := he ▸ List.mem_append_left e (by decide)
    cases a with
    | direction d => exact absurd hcolon (by cases d <;> decide)
    | value name v =>
      have hname := name.notMem ':' (List.mem_singleton_self _)
      have heq : "rtpmap".toList ++ ':' :: e = name.chars ++ ':' :: v.chars := he
      exact h name v rfl ((append_cons_inj (by decide) hname).mp heq).1.symm

end MediaAttributeLine

/-- The attributes that are not taken for entries. -/
def plain (ls : List MediaAttributeLine) : List AttributeLine :=
  (ls.filterMap MediaAttributeLine.other?).filter fun a => find rtpmapName (stripped '=' a.text) = none

theorem entryOf_eq_none {memory : Memory} {w : Nat} {text : Data} :
    entryOf memory w text = none ↔ find rtpmapName text = none := by
  rw [entryOf_eq_none_iff, find_eq_none_iff (by decide)]

theorem filter_entryOf_texts (memory : Memory) (w : Nat) (ls : List MediaAttributeLine) :
    (ls.map fun l => stripped '=' l.text).filter (fun t => entryOf memory w t = none) =
      (plain ls).map fun a => stripped '=' a.text := by
  induction ls with
  | nil => rfl
  | cons l ls ih =>
    rw [List.map_cons, plain]
    rw [plain] at ih
    cases l with
    | rtpmap r =>
      rw [List.filter_cons_of_neg (by rw [MediaAttributeLine.entryOf_rtpmap]; exact Bool.false_ne_true), ih]
      rfl
    | other a h =>
      have htext : (MediaAttributeLine.other a h).text = a.text := rfl
      rw [List.filterMap_cons_some (show MediaAttributeLine.other? (.other a h) = some a from rfl), htext]
      by_cases hfind : find rtpmapName (stripped '=' a.text) = none
      · have hentry : entryOf memory w (stripped '=' a.text) = none := entryOf_eq_none.mpr hfind
        rw [List.filter_cons, List.filter_cons, if_pos (decide_eq_true hfind), if_pos (decide_eq_true hentry), ih,
          List.map_cons]
      · have hentry : ¬ entryOf memory w (stripped '=' a.text) = none := mt entryOf_eq_none.mp hfind
        rw [List.filter_cons, List.filter_cons, if_neg (mt of_decide_eq_true hfind),
          if_neg (mt of_decide_eq_true hentry), ih]

theorem not_prefix_of_mem_attributesAgain {ls : List MediaAttributeLine} {x : Data} (hx : x ∈ attributesAgain (plain ls)) :
    ¬ line 'a' rtpmapName <+: x := by
  rintro ⟨e, rfl⟩
  have hcolon : ':' ∈ line 'a' rtpmapName ++ e := List.mem_append_left e (by decide)
  rcases List.mem_append.mp hx with hx | hx
  · exact colon_notMem_directionLines hx hcolon
  · obtain ⟨v, hv, hencode⟩ := List.mem_map.mp hx
    obtain ⟨a, ha, hvalue⟩ := List.mem_filterMap.mp hv
    cases a with
    | direction d => cases hvalue
    | value name v' =>
      obtain rfl := Option.some.inj hvalue
      have hname := name.notMem ':' (List.mem_singleton_self _)
      have htext : line 'a' (stripped '=' name.chars ++ ':' :: joined ':' (split (stripped ':' v'.chars) [':'])) =
          line 'a' ("rtpmap".toList ++ ':' :: e) := hencode
      have heq := ((append_cons_inj (fun h => hname (mem_of_mem_stripped h)) (by decide)).mp (line_inj.mp htext)).1
      have hfind := of_decide_eq_true (List.mem_filter.mp ha).2
      rw [find_eq_none_iff (by decide), AttributeLine.text, stripped_append _ (by simp), heq] at hfind
      exact hfind ⟨[], v'.chars, rfl⟩

/-- The attributes are read and written as they stand. -/
def Reproduced (memory : Memory) (w : Nat) (ls : List MediaAttributeLine) : Prop :=
  ∃ b : MediaAttributes,
    (ls.map fun l => stripped '=' l.text).foldlM (MediaAttributes.setAttribute memory w) {} = .ok b ∧
      b.encode = ls.map fun l => line 'a' l.text

theorem filterMap_entryOf_append {memory : Memory} {w : Nat} {rs : List RtpMapLine} {ls : List MediaAttributeLine} :
    ((rs.map MediaAttributeLine.rtpmap ++ ls).map fun l => stripped '=' l.text).filterMap (entryOf memory w) =
      (rs.map (·.read w)).map .ok ++ (ls.map fun l => stripped '=' l.text).filterMap (entryOf memory w) := by
  induction rs with
  | nil => rfl
  | cons r rs ih =>
    rw [List.map_cons, List.cons_append, List.map_cons, List.filterMap_cons_some (MediaAttributeLine.entryOf_rtpmap ..), ih]
    rfl

theorem reproduced_iff_entries {memory : Memory} {w : Nat} {ls : List MediaAttributeLine} :
    Reproduced memory w ls ↔ ∃ entries : List SdpRtpMapAttribute,
      (ls.map fun l => stripped '=' l.text).filterMap (entryOf memory w) = entries.map .ok ∧
        entries.map SdpRtpMapAttribute.encode ++ attributesAgain (plain ls) = ls.map fun l => line 'a' l.text := by
  simp only [Reproduced, foldlM_setAttribute_iff, filter_entryOf_texts, List.foldl_map, List.nil_append]
  have hencode : ∀ entries : List SdpRtpMapAttribute,
      MediaAttributes.encode { toSdpAttributes := (plain ls).foldl (fun a l => a.setAttribute (stripped '=' l.text)) {},
                               rtpmap := entries } = entries.map SdpRtpMapAttribute.encode ++ attributesAgain (plain ls) :=
    fun entries => congrArg _ (encode_foldl_setAttribute _)
  constructor
  · rintro ⟨b, ⟨entries, hentries, rfl⟩, hb⟩
    exact ⟨entries, hentries, (hencode entries).symm.trans hb⟩
  · rintro ⟨entries, hentries, hb⟩
    exact ⟨_, ⟨entries, hentries, rfl⟩, (hencode entries).trans hb⟩

theorem exists_rtpmaps {ls : List MediaAttributeLine} (h : ∀ l ∈ ls, l.other? = none) :
    ∃ rs : List RtpMapLine, ls = rs.map .rtpmap := by
  induction ls with
  | nil => exact ⟨[], rfl⟩
  | cons l ls ih =>
    obtain ⟨hl, hls⟩ := List.forall_mem_cons.mp h
    obtain ⟨rs, rfl⟩ := ih hls
    cases l with
    | rtpmap r => exact ⟨r :: rs, rfl⟩
    | other a h => cases hl

theorem map_line_others {ls : List MediaAttributeLine} (h : ∀ l ∈ ls, l.other? ≠ none) :
    ls.map (fun l => line 'a' l.text) = (ls.filterMap MediaAttributeLine.other?).map fun a => line 'a' a.text := by
  induction ls with
  | nil => rfl
  | cons l ls ih =>
    obtain ⟨hl, hls⟩ := List.forall_mem_cons.mp h
    cases l with
    | rtpmap r => exact absurd rfl hl
    | other a h' =>
      rw [List.filterMap_cons_some (show MediaAttributeLine.other? (.other a h') = some a from rfl), List.map_cons,
        List.map_cons, ih hls]
      rfl

theorem filterMap_entryOf_eq_nil {memory : Memory} {w : Nat} {ls : List MediaAttributeLine}
    (h : ∀ l ∈ ls, l.other? ≠ none) :
    (ls.map fun l => stripped '=' l.text).filterMap (entryOf memory w) = [] ↔
      plain ls = ls.filterMap MediaAttributeLine.other? := by
  rw [plain, List.filterMap_eq_nil_iff, List.filter_eq_self]
  simp only [List.forall_mem_map, List.mem_filterMap, decide_eq_true_eq, entryOf_eq_none]
  constructor
  · rintro hls a ⟨l, hl, ha⟩
    cases l with
    | rtpmap r => cases ha
    | other a' h' =>
      obtain rfl := Option.some.inj ha
      exact hls _ hl
  · intro hls l hl
    cases l with
    | rtpmap r => exact absurd rfl (h _ hl)
    | other a h' => exact hls a ⟨_, hl, rfl⟩

theorem plain_append (rs : List RtpMapLine) (ls : List MediaAttributeLine) :
    plain (rs.map .rtpmap ++ ls) = plain ls := by
  have hrs : (rs.map MediaAttributeLine.rtpmap).filterMap MediaAttributeLine.other? = [] := by
    rw [List.filterMap_eq_nil_iff, List.forall_mem_map]
    exact fun r _ => rfl
  rw [plain, plain, List.filterMap_append, hrs, List.nil_append]

/-- The entries stand first, no other attribute is taken for one, and each is kept. -/
structure MediaAttributesKept (ls : List MediaAttributeLine) : Prop where
  ordered : (ls.map MediaAttributeLine.rank).Pairwise (· ≤ ·)
  fits : ∀ r, .rtpmap r ∈ ls → r.Fits
  others : AttributesKept (ls.filterMap MediaAttributeLine.other?)
  plain : ∀ a ∈ ls.filterMap MediaAttributeLine.other?, ¬ rtpmapName <:+: a.text

theorem AttributeLine.Kept.stripped_text {a : AttributeLine} (h : a.Kept) : stripped '=' a.text = a.text := by
  rw [stripped_eq_self_iff]
  cases a with
  | direction d => cases d <;> decide
  | value name v =>
    rw [text, List.head?_append_of_ne_nil _ name.ne_nil]
    exact h.1

theorem plain_eq_iff {ls : List MediaAttributeLine} (h : ∀ a ∈ ls.filterMap MediaAttributeLine.other?, a.Kept) :
    plain ls = ls.filterMap MediaAttributeLine.other? ↔
      ∀ a ∈ ls.filterMap MediaAttributeLine.other?, ¬ rtpmapName <:+: a.text := by
  rw [plain, List.filter_eq_self]
  refine forall₂_congr fun a ha => ?_
  rw [decide_eq_true_eq, find_eq_none_iff (by decide), (h a ha).stripped_text]

theorem entries_again_iff {w : Nat} (hw : 32 ≤ w) (rs : List RtpMapLine) :
    (rs.map (·.read w)).map SdpRtpMapAttribute.encode =
        (rs.map MediaAttributeLine.rtpmap).map (fun l => line 'a' l.text) ↔ ∀ r ∈ rs, r.Fits := by
  rw [List.map_map, List.map_map, List.map_inj_left]
  exact forall₂_congr fun r _ => encode_read_eq_iff hw

theorem MediaAttributeLine.other?_of_rank {l : MediaAttributeLine} : l.other? = none ↔ l.rank = 0 := by
  cases l with
  | rtpmap r => exact iff_of_true rfl rfl
  | other a h => exact iff_of_false (by rintro ⟨⟩) one_ne_zero

theorem filterMap_other?_append (rs : List RtpMapLine) (ls : List MediaAttributeLine) :
    (rs.map MediaAttributeLine.rtpmap ++ ls).filterMap MediaAttributeLine.other? =
      ls.filterMap MediaAttributeLine.other? := by
  rw [List.filterMap_append, List.filterMap_eq_nil_iff.mpr (List.forall_mem_map.mpr fun r _ => rfl), List.nil_append]

theorem mediaAttributesKept_append_iff {rs : List RtpMapLine} {ls : List MediaAttributeLine}
    (h : ∀ l ∈ ls, l.other? ≠ none) :
    MediaAttributesKept (rs.map .rtpmap ++ ls) ↔ (∀ r ∈ rs, r.Fits) ∧
      AttributesKept (ls.filterMap MediaAttributeLine.other?) ∧
        ∀ a ∈ ls.filterMap MediaAttributeLine.other?, ¬ rtpmapName <:+: a.text := by
  constructor
  · rintro ⟨-, hfits, hothers, hplain⟩
    rw [filterMap_other?_append] at hothers hplain
    exact ⟨fun r hr => hfits r (List.mem_append_left _ (List.mem_map_of_mem hr)), hothers, hplain⟩
  · rintro ⟨hfits, hothers, hplain⟩
    rw [← filterMap_other?_append rs] at hothers hplain
    refine ⟨?_, fun r hr => ?_, hothers, hplain⟩
    · rw [List.map_append, List.pairwise_append]
      refine ⟨pairwise_le_of_forall_eq (k := 0) ?_, pairwise_le_of_forall_eq (k := 1) ?_, fun a ha b hb => ?_⟩
      · simp only [List.map_map, List.forall_mem_map]
        exact fun r _ => rfl
      · simp only [List.forall_mem_map]
        intro l hl
        cases l with
        | rtpmap r => exact absurd rfl (h _ hl)
        | other a h' => rfl
      · simp only [List.map_map, List.mem_map] at ha
        obtain ⟨r, -, rfl⟩ := ha
        exact Nat.zero_le b
    · rcases List.mem_append.mp hr with hr | hr
      · obtain ⟨r', hr', heq⟩ := List.mem_map.mp hr
        obtain rfl := MediaAttributeLine.rtpmap.inj heq
        exact hfits r' hr'
      · exact absurd rfl (h _ hr)

theorem reproduced_iff {memory : Memory} {w : Nat} (hw : 32 ≤ w) (ls : List MediaAttributeLine) :
    Reproduced memory w ls ↔ MediaAttributesKept ls := by
  rw [reproduced_iff_entries]
  constructor
  · rintro ⟨entries, hentries, h⟩
    obtain ⟨l₁, l₂, rfl, hx, hy, h₁, h₂⟩ := exists_parts (p := fun b => line 'a' rtpmapName <+: b) h
      (fun b hb => by
        obtain ⟨e, -, rfl⟩ := List.mem_map.mp hb
        exact ⟨_, by rw [SdpRtpMapAttribute.encode, List.append_assoc]; rfl⟩)
      fun b hb => not_prefix_of_mem_attributesAgain hb
    obtain ⟨rs, rfl⟩ := exists_rtpmaps fun l hl => l.rtpmapName_prefix_iff.mp (h₁ l hl)
    have hothers : ∀ l ∈ l₂, l.other? ≠ none := fun l hl => mt l.rtpmapName_prefix_iff.mpr (h₂ l hl)
    -- there are no more entries than lines of entries, so no other attribute was taken for one
    rw [filterMap_entryOf_append] at hentries
    have hlength := congrArg List.length hx
    have hcount := congrArg List.length hentries
    simp only [List.length_append, List.length_map] at hlength hcount
    have hnil : (l₂.map fun l => stripped '=' l.text).filterMap (entryOf memory w) = [] :=
      List.length_eq_zero_iff.mp (by omega)
    rw [hnil, List.append_nil] at hentries
    obtain rfl := List.map_injective_iff.mpr (fun _ _ => Except.ok.inj) hentries
    rw [plain_append, (filterMap_entryOf_eq_nil hothers).mp hnil, map_line_others hothers, attributesAgain_eq_iff] at hy
    refine (mediaAttributesKept_append_iff hothers).mpr ⟨(entries_again_iff hw rs).mp hx, hy, ?_⟩
    exact (plain_eq_iff hy.kept).mp ((filterMap_entryOf_eq_nil hothers).mp hnil)
  · intro h
    obtain ⟨l₁, l₂, rfl, h₁, h₂, -⟩ := exists_parts_of_ordered h.ordered fun l _ => l.rank.zero_le
    obtain ⟨rs, rfl⟩ := exists_rtpmaps fun l hl => MediaAttributeLine.other?_of_rank.mpr (h₁ l hl)
    have hothers : ∀ l ∈ l₂, l.other? ≠ none := fun l hl =>
      mt MediaAttributeLine.other?_of_rank.mp (h₂ l hl).ne'
    obtain ⟨hfits, hkept, hplain⟩ := (mediaAttributesKept_append_iff hothers).mp h
    have hplain := (plain_eq_iff hkept.kept).mpr hplain
    refine ⟨rs.map (·.read w), ?_, ?_⟩
    · rw [filterMap_entryOf_append, (filterMap_entryOf_eq_nil hothers).mpr hplain, List.append_nil]
    · rw [plain_append, hplain, (entries_again_iff hw rs).mpr hfits, (attributesAgain_eq_iff _).mpr hkept,
        List.map_append, ← map_line_others hothers]

end Vocal.Sdp
