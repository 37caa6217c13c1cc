import Mathlib.Data.Set.Insert
import Vocal.Rtcp.Receiver

/-!
# Which datagrams are read to their end

What `readRTCP` follows in a datagram, apart from the reader: counts and lengths that lie inside it, no APP packet, and
nobody leaves whom the table does not know by then.
-/

namespace Vocal.Rtcp

open Bytes

/-! ## What a datagram says -/

/-- What a packet of a compound means for the table. -/
inductive Content
  /-- A report, of a sender or of a mere receiver. -/
  | report (sender : Option UInt32)
  /-- The sources that have at least one text. -/
  | descriptions (sources : List UInt32)
  | goodbye (sources : List UInt32)
  | app
  | other
  deriving DecidableEq, Repr

/-- Items from a place to the one that ends them, all inside of the datagram, and whether there are any. -/
inductive Items (d : Bytes) : Nat → Nat → Bool → Prop
  | last {item : Nat} : byteAt d item = some 0 → Items d item item false
  | more {item stop : Nat} {type length : UInt8} {any : Bool} : byteAt d item = some type → type ≠ 0 →
      byteAt d (item + 1) = some length → Items d (item + 2 + length.toNat) stop any → Items d item stop true

/-- Chunks, each from where the one before ends. -/
inductive Chunks (d : Bytes) : Nat → Nat → List UInt32 → Prop
  | nil {middle : Nat} : Chunks d 0 middle []
  | cons {chunks middle item : Nat} {ssrc : UInt32} {any : Bool} {sources : List UInt32} :
      word32At d middle = some ssrc → Items d (middle + 4) item any → Chunks d chunks item sources →
      Chunks d (chunks + 1) middle (if any then ssrc :: sources else sources)

/-- A list of sources. -/
inductive Sources (d : Bytes) : Nat → Nat → List UInt32 → Prop
  | nil {src : Nat} : Sources d 0 src []
  | cons {count src : Nat} {ssrc : UInt32} {sources : List UInt32} :
      word32At d src = some ssrc → Sources d count (src + 4) sources → Sources d (count + 1) src (ssrc :: sources)

/-- Report blocks have 24 bytes each. -/
def ReportsFit (d : Bytes) (blocks block : Nat) : Prop := blocks = 0 ∨ block + 24 * blocks ≤ d.length

/-- The packet at a place of the datagram; `b` is the first byte of its header. -/
inductive Content.At (d : Bytes) (head : Nat) : Content → Prop
  | sr {b : UInt8} {sender : UInt32} : byteAt d (head + 1) = some rtcpTypeSR → byteAt d head = some b →
      word32At d (head + 4) = some sender → head + 16 ≤ d.length → ReportsFit d (count b) (head + 28) →
      At d head (report (some sender))
  | rr {b : UInt8} : byteAt d (head + 1) = some rtcpTypeRR → byteAt d head = some b →
      ReportsFit d (count b) (head + 8) → At d head (report none)
  | sdes {b : UInt8} {sources : List UInt32} : byteAt d (head + 1) = some rtcpTypeSDES → byteAt d head = some b →
      Chunks d (count b) (head + 4) sources → At d head (descriptions sources)
  | bye {b : UInt8} {sources : List UInt32} : byteAt d (head + 1) = some rtcpTypeBYE → byteAt d head = some b →
      Sources d (count b) (head + 4) sources → At d head (goodbye sources)
  | app : byteAt d (head + 1) = some rtcpTypeAPP → At d head app
  | other {type : UInt8} : byteAt d (head + 1) = some type →
      type ∉ [rtcpTypeSR, rtcpTypeRR, rtcpTypeSDES, rtcpTypeBYE, rtcpTypeAPP] → At d head other

/-- The packets from a place to the end of the datagram, each at the place that the lengths before give. -/
inductive Compound (d : Bytes) : Nat → List Content → Prop
  | done {head : Nat} : d.length ≤ head → Compound d head []
  | packet {head : Nat} {length : UInt16} {c : Content} {cs : List Content} : head < d.length → c.At d head →
      word16At d (head + 2) = some length → Compound d (nextPacket head length) cs → Compound d head (c :: cs)

namespace Content

/-- The sources that are known after a packet. -/
def after (known : Set UInt32) : Content → Set UInt32
  | report (some sender) => insert sender known
  | descriptions sources => known ∪ {src | src ∈ sources}
  | goodbye sources => known \ {src | src ∈ sources}
  | report none | app | other => known

/-- An APP packet is not implemented, and who leaves must be known and leave once. -/
def Allowed (known : Set UInt32) : Content → Prop
  | goodbye sources => sources.Nodup ∧ ∀ src ∈ sources, src ∈ known
  | app => False
  | report _ | descriptions _ | other => True

end Content

/-- Every packet is allowed by the time it is read. -/
def Accepts (known : Set UInt32) : List Content → Prop
  | [] => True
  | c :: cs => c.Allowed known ∧ Accepts (c.after known) cs

/-! ## The table -/

variable {ρ : Type} {s s' : RtcpReceiver ρ} {d : Bytes} {now : NtpTime}

/-- The sources in the table. -/
def RtcpReceiver.Known (s : RtcpReceiver ρ) : Set UInt32 := {src | (s.tranInfoList src).isSome = true}

theorem known_modifyTranInfo (s : RtcpReceiver ρ) (src : UInt32) (f : RtpTranInfo ρ → RtpTranInfo ρ) :
    (s.modifyTranInfo src f).Known = insert src s.Known := by
  ext x
  simp only [RtcpReceiver.Known, RtcpReceiver.modifyTranInfo, Set.mem_ofPred_eq, Set.mem_insert_iff]
  by_cases hx : x = src
  · rw [hx, Function.update_self]
    exact iff_of_true rfl (Or.inl rfl)
  · rw [Function.update_of_ne hx]
    exact (or_iff_right hx).symm

theorem removeTranInfo_ok_iff (flag : Bool) {src : UInt32} :
    (∃ s', s.removeTranInfo src flag = .ok s') ↔ src ∈ s.Known := by
  rw [RtcpReceiver.removeTranInfo, RtcpReceiver.Known, Set.mem_ofPred_eq]
  cases s.tranInfoList src with
  | none => exact iff_of_false (by rintro ⟨_, ⟨⟩⟩) Bool.false_ne_true
  | some info => exact iff_of_true ⟨_, rfl⟩ rfl

theorem removeTranInfo_eq_ok {src : UInt32} {flag : Bool} (h : s.removeTranInfo src flag = .ok s') :
    ∃ info, s.tranInfoList src = some info ∧
      s' = { tranInfoList := Function.update s.tranInfoList src none
             removed := if flag then s.removed else s.removed ++ [info] } := by
  rw [RtcpReceiver.removeTranInfo] at h
  cases hinfo : s.tranInfoList src with
  | none =>
    rw [hinfo] at h
    cases h
  | some info =>
    rw [hinfo] at h
    exact ⟨info, rfl, (Except.ok.inj h).symm⟩

theorem known_removeTranInfo {src : UInt32} {flag : Bool} (h : s.removeTranInfo src flag = .ok s') :
    s'.Known = s.Known \ {src} := by
  obtain ⟨info, -, rfl⟩ := removeTranInfo_eq_ok h
  ext x
  simp only [RtcpReceiver.Known, Set.mem_ofPred_eq, Set.mem_sdiff, Set.mem_singleton_iff]
  by_cases hx : x = src
  · rw [hx, Function.update_self]
    exact iff_of_false Bool.false_ne_true fun hne => hne.2 rfl
  · rw [Function.update_of_ne hx]
    exact (and_iff_left hx).symm

/-! ## Reading step by step -/

section

variable {α β : Type}

theorem bind_eq_ok {x : Except Stop α} {f : α → Except Stop β} {b : β} :
    (x >>= f) = .ok b ↔ ∃ a, x = .ok a ∧ f a = .ok b := by
  cases x with
  | error e => exact iff_of_false (by rintro ⟨⟩) (by rintro ⟨_, ⟨⟩, _⟩)
  | ok a => exact ⟨fun h => ⟨a, rfl, h⟩, fun ⟨_, ha, h⟩ => Except.ok.inj ha ▸ h⟩

theorem access_eq_ok {o : Option α} {a : α} : access o = .ok a ↔ o = some a := by
  cases o with
  | none => exact iff_of_false (by rintro ⟨⟩) (by rintro ⟨⟩)
  | some b => exact ⟨fun h => congrArg some (Except.ok.inj h), fun h => congrArg Except.ok (Option.some.inj h)⟩

theorem access_bind {o : Option α} {a : α} (h : o = some a) (f : α → Except Stop β) : (access o >>= f) = f a := by
  rw [h]
  rfl

theorem ok_bind {x : Except Stop α} {a : α} (h : x = .ok a) (f : α → Except Stop β) : (x >>= f) = f a := by
  rw [h]
  rfl

end

/-! ## The packets -/

namespace RtcpReceiver

theorem readReports_ok_iff {blocks block : Nat} :
    readReports d blocks block = .ok () ↔ ReportsFit d blocks block := by
  induction blocks generalizing block with
  | zero => exact iff_of_true rfl (Or.inl rfl)
  | succ blocks ih =>
    have hlater : ReportsFit d blocks (block + 24) ∧ block + 24 ≤ d.length ↔ ReportsFit d (blocks + 1) block := by
      rw [ReportsFit, ReportsFit]
      omega
    rw [readReports, ← hlater]
    constructor
    · intro h
      obtain ⟨_, -, h⟩ := bind_eq_ok.mp h
      obtain ⟨w, hw, h⟩ := bind_eq_ok.mp h
      have hlen := isSome_word32At.mp (Option.isSome_of_eq_some (access_eq_ok.mp hw))
      exact ⟨ih.mp h, by omega⟩
    · rintro ⟨h, hlen⟩
      obtain ⟨v, hv⟩ := Option.isSome_iff_exists.mp (isSome_word32At.mpr (by omega : block + 16 + 4 ≤ d.length))
      obtain ⟨w, hw⟩ := Option.isSome_iff_exists.mp (isSome_word32At.mpr (by omega : block + 20 + 4 ≤ d.length))
      rw [access_bind hv, access_bind hw]
      exact ih.mpr h

theorem known_addSDESItem {src : UInt32} {item : Nat} (h : addSDESItem d src item s = .ok s') :
    s'.Known = insert src s.Known := by
  obtain ⟨type, -, h⟩ := bind_eq_ok.mp h
  cases htext : SdesText.ofType type with
  | none =>
    rw [htext] at h
    obtain rfl := Except.ok.inj h
    exact known_modifyTranInfo ..
  | some text =>
    rw [htext] at h
    obtain ⟨length, -, h⟩ := bind_eq_ok.mp h
    obtain ⟨bytes, -, h⟩ := bind_eq_ok.mp h
    obtain rfl := Except.ok.inj h
    exact known_modifyTranInfo ..

theorem exists_addSDESItem (src : UInt32) {item : Nat} {type length : UInt8} (htype : byteAt d item = some type)
    (hlength : byteAt d (item + 1) = some length) (hbehind : item + 2 + length.toNat < d.length) :
    ∃ s', addSDESItem d src item s = .ok s' := by
  rw [addSDESItem, access_bind htype]
  cases SdesText.ofType type with
  | none => exact ⟨_, rfl⟩
  | some text =>
    have hcopied : copied (d.drop (item + 2)) (length.toNat + 1) =
        some (((d.drop (item + 2)).take (length.toNat + 1)).takeWhile (· ≠ 0)) := by
      rw [copied, if_pos]
      left
      rw [List.length_drop]
      omega
    refine ⟨_, (access_bind hlength _).trans (access_bind hcopied _)⟩

theorem readItems_of_items (ssrc : UInt32) {item stop : Nat} {any : Bool} (h : Items d item stop any) {turns : Nat}
    (hturns : d.length < turns + item) :
    ∃ s', readItems d ssrc turns item s = .ok (stop, s') ∧
      s'.Known = if any then insert ssrc s.Known else s.Known := by
  have hin {i : Nat} {b : UInt8} (hb : byteAt d i = some b) : i < d.length :=
    isSome_byteAt.mp (Option.isSome_of_eq_some hb)
  have hfirst {i k : Nat} {b : Bool} (hi : Items d i k b) : i < d.length := by
    cases hi with
    | last hzero => exact hin hzero
    | more htype => exact hin htype
  induction h generalizing turns s with
  | last hzero =>
    obtain ⟨turns, rfl⟩ := Nat.exists_eq_add_one_of_ne_zero (n := turns) (by have := hin hzero; omega)
    rw [readItems, access_bind hzero, if_pos rfl]
    exact ⟨s, rfl, rfl⟩
  | @more item stop type length any htype hne hlength hrest ih =>
    obtain ⟨turns, rfl⟩ := Nat.exists_eq_add_one_of_ne_zero (n := turns) (by have := hin htype; omega)
    obtain ⟨t, ht⟩ := exists_addSDESItem ssrc (s := s) htype hlength (hfirst hrest)
    obtain ⟨s', hs', hknown⟩ := ih (s := t) (show d.length < turns + (item + 2 + length.toNat) by omega)
    rw [readItems, access_bind htype, if_neg hne, ok_bind ht, access_bind hlength]
    refine ⟨s', hs', ?_⟩
    rw [hknown, known_addSDESItem ht]
    cases any with
    | false => rfl
    | true => exact Set.insert_eq_of_mem (Set.mem_insert ..)

theorem items_of_readItems {ssrc : UInt32} {turns item stop : Nat}
    (h : readItems d ssrc turns item s = .ok (stop, s')) :
    ∃ any, Items d item stop any ∧ s'.Known = if any then insert ssrc s.Known else s.Known := by
  induction turns generalizing item s with
  | zero => cases h
  | succ turns ih =>
    rw [readItems] at h
    obtain ⟨type, htype, h⟩ := bind_eq_ok.mp h
    split_ifs at h with hzero
    · obtain ⟨rfl, rfl⟩ := Prod.mk.inj (Except.ok.inj h)
      exact ⟨false, .last (hzero ▸ access_eq_ok.mp htype), rfl⟩
    · obtain ⟨t, ht, h⟩ := bind_eq_ok.mp h
      obtain ⟨length, hlength, h⟩ := bind_eq_ok.mp h
      obtain ⟨any, hitems, hknown⟩ := ih h
      refine ⟨true, .more (access_eq_ok.mp htype) hzero (access_eq_ok.mp hlength) hitems, ?_⟩
      rw [hknown, known_addSDESItem ht]
      cases any with
      | false => rfl
      | true => exact Set.insert_eq_of_mem (Set.mem_insert ..)

theorem insert_union_sources (any : Bool) (ssrc : UInt32) (known : Set UInt32) (sources : List UInt32) :
    (if any then insert ssrc known else known) ∪ {src | src ∈ sources} =
      known ∪ {src | src ∈ if any then ssrc :: sources else sources} := by
  cases any with
  | false => rfl
  | true =>
    ext x
    simp only [if_true, Set.mem_union, Set.mem_insert_iff, Set.mem_ofPred_eq, List.mem_cons]
    tauto

theorem readChunks_of_chunks {turns chunks middle : Nat} {sources : List UInt32} (h : Chunks d chunks middle sources)
    (hturns : d.length < turns) :
    ∃ s', readChunks d turns chunks middle s = .ok s' ∧ s'.Known = s.Known ∪ {src | src ∈ sources} := by
  induction h generalizing s with
  | nil =>
    refine ⟨s, rfl, ?_⟩
    ext x
    simp
  | @cons chunks middle item ssrc any sources hssrc hitems _ ih =>
    obtain ⟨t, ht, hknown⟩ := readItems_of_items ssrc (s := s) hitems
      (show d.length < turns + (middle + 4) by omega)
    obtain ⟨s', hs', hknown'⟩ := ih (s := t)
    rw [readChunks, access_bind hssrc, ok_bind ht]
    refine ⟨s', hs', ?_⟩
    rw [hknown', hknown]
    exact insert_union_sources any ssrc s.Known sources

theorem chunks_of_readChunks {turns chunks middle : Nat} (h : readChunks d turns chunks middle s = .ok s') :
    ∃ sources, Chunks d chunks middle sources ∧ s'.Known = s.Known ∪ {src | src ∈ sources} := by
  induction chunks generalizing middle s with
  | zero =>
    obtain rfl := Except.ok.inj h
    refine ⟨[], .nil, ?_⟩
    ext x
    simp
  | succ chunks ih =>
    rw [readChunks] at h
    obtain ⟨ssrc, hssrc, h⟩ := bind_eq_ok.mp h
    obtain ⟨⟨item, t⟩, ht, h⟩ := bind_eq_ok.mp h
    obtain ⟨any, hitems, hknown⟩ := items_of_readItems ht
    obtain ⟨sources, hchunks, hknown'⟩ := ih h
    refine ⟨_, .cons (access_eq_ok.mp hssrc) hitems hchunks, ?_⟩
    rw [hknown', hknown]
    exact insert_union_sources any ssrc s.Known sources

theorem readSources_of_sources {count src : Nat} {sources : List UInt32} (h : Sources d count src sources)
    (hnodup : sources.Nodup) (hknown : ∀ x ∈ sources, x ∈ s.Known) :
    ∃ s', readSources d count src s = .ok s' ∧ s'.Known = s.Known \ {x | x ∈ sources} := by
  induction h generalizing s with
  | nil =>
    refine ⟨s, rfl, ?_⟩
    ext x
    simp
  | @cons count src ssrc sources hssrc _ ih =>
    obtain ⟨hnot, hnodup⟩ := List.nodup_cons.mp hnodup
    obtain ⟨t, ht⟩ := (removeTranInfo_ok_iff false).mpr (hknown ssrc (List.mem_cons_self ..))
    have hrest : ∀ x ∈ sources, x ∈ t.Known := by
      intro x hx
      rw [known_removeTranInfo ht]
      exact ⟨hknown x (List.mem_cons_of_mem _ hx), fun heq => hnot (heq ▸ hx)⟩
    obtain ⟨s', hs', hknown'⟩ := ih hnodup hrest
    rw [readSources, access_bind hssrc, ok_bind ht]
    refine ⟨s', hs', ?_⟩
    rw [hknown', known_removeTranInfo ht]
    ext x
    simp only [Set.mem_sdiff, Set.mem_singleton_iff, Set.mem_ofPred_eq, List.mem_cons]
    tauto

theorem sources_of_readSources {count src : Nat} (h : readSources d count src s = .ok s') :
    ∃ sources, Sources d count src sources ∧ sources.Nodup ∧ (∀ x ∈ sources, x ∈ s.Known) ∧
      s'.Known = s.Known \ {x | x ∈ sources} := by
  induction count generalizing src s with
  | zero =>
    obtain rfl := Except.ok.inj h
    refine ⟨[], .nil, List.nodup_nil, by rintro _ ⟨⟩, ?_⟩
    ext x
    simp
  | succ count ih =>
    rw [readSources] at h
    obtain ⟨ssrc, hssrc, h⟩ := bind_eq_ok.mp h
    obtain ⟨t, ht, h⟩ := bind_eq_ok.mp h
    obtain ⟨sources, hsources, hnodup, hknown, hafter⟩ := ih h
    rw [known_removeTranInfo ht] at hknown hafter
    refine ⟨ssrc :: sources, .cons (access_eq_ok.mp hssrc) hsources,
      List.nodup_cons.mpr ⟨fun hmem => (hknown ssrc hmem).2 rfl, hnodup⟩, ?_, ?_⟩
    · intro x hx
      rcases List.mem_cons.mp hx with rfl | hx
      · exact (removeTranInfo_ok_iff false).mp ⟨t, ht⟩
      · exact (hknown x hx).1
    · rw [hafter]
      ext x
      simp only [Set.mem_sdiff, Set.mem_singleton_iff, Set.mem_ofPred_eq, List.mem_cons]
      tauto

theorem readPacket_of_at (now : NtpTime) {head turns : Nat} {c : Content} (h : c.At d head) (hallowed : c.Allowed s.Known)
    (hturns : d.length < turns) :
    ∃ type s', byteAt d (head + 1) = some type ∧ readPacket now d turns head type s = .ok s' ∧
      s'.Known = c.after s.Known := by
  cases h with
  | @sr b sender htype hb hsender hlen hfit =>
    obtain ⟨sec, hsec⟩ := Option.isSome_iff_exists.mp (isSome_word32At.mpr (by omega : head + 8 + 4 ≤ d.length))
    obtain ⟨frac, hfrac⟩ := Option.isSome_iff_exists.mp (isSome_word32At.mpr (by omega : head + 12 + 4 ≤ d.length))
    refine ⟨_, _, htype, ?_, known_modifyTranInfo s sender (stampSR now sec frac)⟩
    rw [readPacket, if_pos (Or.inl rfl), readSR, access_bind htype, access_bind hb, if_pos rfl, access_bind hsender,
      access_bind hsec, access_bind hfrac, ok_bind (readReports_ok_iff.mpr hfit)]
    rfl
  | @rr b htype hb hfit =>
    refine ⟨_, s, htype, ?_, rfl⟩
    rw [readPacket, if_pos (Or.inr rfl), readSR, access_bind htype, access_bind hb, if_neg (by decide),
      ok_bind (readReports_ok_iff.mpr hfit)]
    rfl
  | @sdes b sources htype hb hchunks =>
    obtain ⟨s', hs', hknown⟩ := readChunks_of_chunks (s := s) hchunks hturns
    refine ⟨_, s', htype, ?_, hknown⟩
    rw [readPacket, if_neg (by decide), if_pos rfl, readSDES, access_bind hb, hs']
  | @bye b sources htype hb hsources =>
    obtain ⟨s', hs', hknown⟩ := readSources_of_sources hsources hallowed.1 hallowed.2
    refine ⟨_, s', htype, ?_, hknown⟩
    rw [readPacket, if_neg (by decide), if_neg (by decide), if_pos rfl, readBYE, access_bind hb, hs']
  | app => exact hallowed.elim
  | @other type htype hother =>
    simp only [List.mem_cons, List.not_mem_nil, or_false, not_or] at hother
    obtain ⟨hsr, hrr, hsdes, hbye, happ⟩ := hother
    refine ⟨type, s, htype, ?_, rfl⟩
    rw [readPacket, if_neg (by simp [hsr, hrr]), if_neg hsdes, if_neg hbye, if_neg happ]

theorem at_of_readPacket {head turns : Nat} {type : UInt8} (htype : byteAt d (head + 1) = some type)
    (h : readPacket now d turns head type s = .ok s') :
    ∃ c : Content, c.At d head ∧ c.Allowed s.Known ∧ s'.Known = c.after s.Known := by
  rw [readPacket] at h
  split_ifs at h with hreport hsdes hbye happ
  · rw [readSR] at h
    obtain ⟨type', htype', h⟩ := bind_eq_ok.mp h
    obtain rfl := Option.some.inj (htype.symm.trans (access_eq_ok.mp htype'))
    obtain ⟨b, hb, h⟩ := bind_eq_ok.mp h
    split_ifs at h with hsr
    · obtain ⟨sender, hsender, h⟩ := bind_eq_ok.mp h
      obtain ⟨sec, -, h⟩ := bind_eq_ok.mp h
      obtain ⟨frac, hfrac, h⟩ := bind_eq_ok.mp h
      obtain ⟨_, hreports, h⟩ := bind_eq_ok.mp h
      obtain rfl := Except.ok.inj h
      have hlen := isSome_word32At.mp (Option.isSome_of_eq_some (access_eq_ok.mp hfrac))
      exact ⟨.report (some sender), .sr (hsr ▸ htype) (access_eq_ok.mp hb) (access_eq_ok.mp hsender) (by omega)
        (readReports_ok_iff.mp hreports), trivial, known_modifyTranInfo ..⟩
    · obtain ⟨_, hreports, h⟩ := bind_eq_ok.mp h
      obtain rfl := Except.ok.inj h
      exact ⟨.report none, .rr (hreport.resolve_left hsr ▸ htype) (access_eq_ok.mp hb) (readReports_ok_iff.mp hreports),
        trivial, rfl⟩
  · obtain ⟨b, hb, h⟩ := bind_eq_ok.mp h
    obtain ⟨sources, hchunks, hknown⟩ := chunks_of_readChunks h
    exact ⟨.descriptions sources, .sdes (hsdes ▸ htype) (access_eq_ok.mp hb) hchunks, trivial, hknown⟩
  · obtain ⟨b, hb, h⟩ := bind_eq_ok.mp h
    obtain ⟨sources, hsources, hnodup, hmem, hknown⟩ := sources_of_readSources h
    exact ⟨.goodbye sources, .bye (hbye ▸ htype) (access_eq_ok.mp hb) hsources, ⟨hnodup, hmem⟩, hknown⟩
  · cases h
  · obtain rfl := Except.ok.inj h
    refine ⟨.other, .other htype ?_, trivial, rfl⟩
    simp only [List.mem_cons, List.not_mem_nil, or_false, not_or]
    exact ⟨fun hsr => hreport (Or.inl hsr), fun hrr => hreport (Or.inr hrr), hsdes, hbye, happ⟩

theorem readPackets_of_compound {head turns packets : Nat} {ret : Int} {cs : List Content} (h : Compound d head cs)
    (haccepts : Accepts s.Known cs) (hturns : d.length < turns) (hpos : 0 < packets)
    (hpackets : d.length < packets + head) : ∃ r, readPackets now d turns packets head ret s = .ok r := by
  induction h generalizing s packets ret with
  | @done head hend =>
    obtain ⟨packets, rfl⟩ := Nat.exists_eq_add_one_of_ne_zero hpos.ne'
    exact ⟨_, by rw [readPackets, if_neg (Nat.not_lt.mpr hend)]⟩
  | @packet head length c cs hlt hat hlength _ ih =>
    obtain ⟨packets, rfl⟩ := Nat.exists_eq_add_one_of_ne_zero hpos.ne'
    obtain ⟨type, t, htype, ht, hknown⟩ := readPacket_of_at now hat haccepts.1 hturns
    have hrest : Accepts t.Known cs := by
      rw [hknown]
      exact haccepts.2
    rw [readPackets, if_pos hlt, access_bind htype, ok_bind ht, access_bind hlength]
    exact ih hrest (by omega) (by rw [nextPacket]; omega)

theorem compound_of_readPackets {head turns packets : Nat} {ret : Int} {r : Int × RtcpReceiver ρ}
    (h : readPackets now d turns packets head ret s = .ok r) :
    ∃ cs, Compound d head cs ∧ Accepts s.Known cs := by
  induction packets generalizing head ret s with
  | zero => cases h
  | succ packets ih =>
    rw [readPackets] at h
    split_ifs at h with hlt
    · obtain ⟨type, htype, h⟩ := bind_eq_ok.mp h
      obtain ⟨t, ht, h⟩ := bind_eq_ok.mp h
      obtain ⟨length, hlength, h⟩ := bind_eq_ok.mp h
      obtain ⟨c, hat, hallowed, hknown⟩ := at_of_readPacket (access_eq_ok.mp htype) ht
      obtain ⟨cs, hcompound, haccepts⟩ := ih h
      exact ⟨c :: cs, .packet hlt hat (access_eq_ok.mp hlength) hcompound, hallowed, hknown ▸ haccepts⟩
    · exact ⟨[], .done (Nat.le_of_not_lt hlt), trivial⟩

end RtcpReceiver

theorem length_datagram (p : RtcpPacket) : p.datagram.length = p.getTotalUsage := by
  rw [RtcpPacket.datagram, List.length_take, p.packetData.2, RtcpPacket.getTotalUsage]
  omega

/-- A datagram that `isValid` accepts is read to its end, without a failed assertion and without a read behind it,
exactly when its packets lie inside it and are allowed. -/
theorem readRTCP_robust_iff (now : NtpTime) (p : RtcpPacket) (s : RtcpReceiver ρ) :
    (p.isValid = true → ∃ r, RtcpReceiver.readRTCP now p s = .ok r) ↔
      (p.isValid = true → ∃ cs, Compound p.datagram 0 cs ∧ Accepts s.Known cs) := by
  refine imp_congr_right fun _ => ⟨?_, ?_⟩
  · rintro ⟨r, hr⟩
    exact RtcpReceiver.compound_of_readPackets hr
  · rintro ⟨cs, hcompound, haccepts⟩
    have hlen := length_datagram p
    exact RtcpReceiver.readPackets_of_compound hcompound haccepts (by omega) (Nat.succ_pos _) (by omega)

/-- A report of a receiver, and an APP packet of one word. -/
def applicationReport : Bytes := [0x80, 201, 0, 1, 0, 0, 0, 5, 0x80, 204, 0, 1, 0, 0, 0, 5]

/-- It is accepted and stops the reader. -/
theorem not_readRTCP_robust :
    ¬ ((RtcpPacket.received applicationReport (by decide)).isValid = true →
      ∃ r, RtcpReceiver.readRTCP ⟨0, 0⟩ (.received applicationReport (by decide))
        ({ tranInfoList := fun _ => none } : RtcpReceiver Unit) = .ok r) := by
  intro h
  obtain ⟨r, hr⟩ := h (by decide)
  have hstop : RtcpReceiver.readRTCP ⟨0, 0⟩ (.received applicationReport (by decide))
      ({ tranInfoList := fun _ => none } : RtcpReceiver Unit) = .error .assertion := rfl
  rw [hstop] at hr
  cases hr

end Vocal.Rtcp
