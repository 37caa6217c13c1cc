import Vocal.Rtcp.Robust

/-!
# Sources that have a receiver

What `readRTCP` does to the entries of the table that a receiver is attached to: it leaves them, or takes them out and
tells their receiver.
-/

namespace Vocal.Rtcp

open Bytes

variable {ρ : Type}

namespace RtcpReceiver

variable {R : RtcpReceiver ρ → RtcpReceiver ρ → Prop} {s s' : RtcpReceiver ρ} {d : Bytes} {now : NtpTime}

/-! ## Relations that every change keeps -/

/-- A relation between tables that changes of an entry and removals keep, whatever of an entry is changed but its
receiver. -/
structure Kept (R : RtcpReceiver ρ → RtcpReceiver ρ → Prop) : Prop where
  refl : ∀ s, R s s
  trans : ∀ {s t u}, R s t → R t u → R s u
  modify : ∀ s src f, (∀ info, (f info).recv = info.recv) → R s (s.modifyTranInfo src f)
  remove : ∀ {s s' src}, s.removeTranInfo src false = .ok s' → R s s'

variable (hR : Kept R)

include hR

theorem kept_addSDESItem {src : UInt32} {item : Nat} (h : addSDESItem d src item s = .ok s') : R s s' := by
  obtain ⟨type, -, h⟩ := bind_eq_ok.mp h
  cases htext : SdesText.ofType type with
  | none =>
    rw [htext] at h
    obtain rfl := Except.ok.inj h
    exact hR.modify _ _ _ fun _ => rfl
  | some text =>
    rw [htext] at h
    obtain ⟨length, -, h⟩ := bind_eq_ok.mp h
    obtain ⟨bytes, -, h⟩ := bind_eq_ok.mp h
    obtain rfl := Except.ok.inj h
    exact hR.modify _ _ _ fun _ => rfl

theorem kept_readItems {ssrc : UInt32} {turns item stop : Nat}
    (h : readItems d ssrc turns item s = .ok (stop, s')) : R s s' := by
  induction turns generalizing item s with
  | zero => cases h
  | succ turns ih =>
    rw [readItems] at h
    obtain ⟨type, -, h⟩ := bind_eq_ok.mp h
    split_ifs at h
    · obtain ⟨-, rfl⟩ := Prod.mk.inj (Except.ok.inj h)
      exact hR.refl _
    · obtain ⟨t, ht, h⟩ := bind_eq_ok.mp h
      obtain ⟨length, -, h⟩ := bind_eq_ok.mp h
      exact hR.trans (kept_addSDESItem hR ht) (ih h)

theorem kept_readChunks {turns chunks middle : Nat} (h : readChunks d turns chunks middle s = .ok s') : R s s' := by
  induction chunks generalizing middle s with
  | zero =>
    obtain rfl := Except.ok.inj h
    exact hR.refl _
  | succ chunks ih =>
    rw [readChunks] at h
    obtain ⟨ssrc, -, h⟩ := bind_eq_ok.mp h
    obtain ⟨⟨item, t⟩, ht, h⟩ := bind_eq_ok.mp h
    exact hR.trans (kept_readItems hR ht) (ih h)

theorem kept_readSources {count src : Nat} (h : readSources d count src s = .ok s') : R s s' := by
  induction count generalizing src s with
  | zero =>
    obtain rfl := Except.ok.inj h
    exact hR.refl _
  | succ count ih =>
    rw [readSources] at h
    obtain ⟨ssrc, -, h⟩ := bind_eq_ok.mp h
    obtain ⟨t, ht, h⟩ := bind_eq_ok.mp h
    exact hR.trans (hR.remove ht) (ih h)

theorem kept_readSR {head : Nat} (h : readSR now d head s = .ok s') : R s s' := by
  obtain ⟨type, -, h⟩ := bind_eq_ok.mp h
  obtain ⟨blocks, -, h⟩ := bind_eq_ok.mp h
  split_ifs at h
  · obtain ⟨ssrc, -, h⟩ := bind_eq_ok.mp h
    obtain ⟨ntpTimeSec, -, h⟩ := bind_eq_ok.mp h
    obtain ⟨ntpTimeFrac, -, h⟩ := bind_eq_ok.mp h
    obtain ⟨_, -, h⟩ := bind_eq_ok.mp h
    obtain rfl := Except.ok.inj h
    exact hR.modify _ _ _ fun _ => rfl
  · obtain ⟨_, -, h⟩ := bind_eq_ok.mp h
    obtain rfl := Except.ok.inj h
    exact hR.refl _

theorem kept_readPacket {turns head : Nat} {type : UInt8} (h : readPacket now d turns head type s = .ok s') :
    R s s' := by
  rw [readPacket] at h
  split_ifs at h
  · exact kept_readSR hR h
  · obtain ⟨chunks, -, h⟩ := bind_eq_ok.mp h
    exact kept_readChunks hR h
  · obtain ⟨sources, -, h⟩ := bind_eq_ok.mp h
    exact kept_readSources hR h
  · cases h
  · obtain rfl := Except.ok.inj h
    exact hR.refl _

theorem kept_readPackets {turns packets head : Nat} {ret : Int} {r : Int × RtcpReceiver ρ}
    (h : readPackets now d turns packets head ret s = .ok r) : R s r.2 := by
  induction packets generalizing head ret s with
  | zero => cases h
  | succ packets ih =>
    rw [readPackets] at h
    split_ifs at h
    · obtain ⟨type, -, h⟩ := bind_eq_ok.mp h
      obtain ⟨t, ht, h⟩ := bind_eq_ok.mp h
      obtain ⟨length, -, h⟩ := bind_eq_ok.mp h
      exact hR.trans (kept_readPacket hR ht) (ih h)
    · obtain rfl := Except.ok.inj h
      exact hR.refl _

theorem kept_readRTCP {p : RtcpPacket} {r : Int × RtcpReceiver ρ} (h : readRTCP now p s = .ok r) : R s r.2 :=
  kept_readPackets hR h

omit hR

/-! ## Receivers of sources -/

/-- The sources that have a receiver. -/
def Attached (s : RtcpReceiver ρ) : Set UInt32 := {src | ∃ info ∈ s.tranInfoList src, info.recv.isSome = true}

/-- No source gets a receiver, and one loses it exactly when an entry with a receiver is taken out. -/
def Detaches (s s' : RtcpReceiver ρ) : Prop :=
  s'.Attached ⊆ s.Attached ∧
    ∃ removed, s'.removed = s.removed ++ removed ∧
      (s'.Attached ≠ s.Attached ↔ ∃ info ∈ removed, info.recv.isSome = true)

theorem attached_modifyTranInfo (s : RtcpReceiver ρ) (src : UInt32) {f : RtpTranInfo ρ → RtpTranInfo ρ}
    (hf : ∀ info, (f info).recv = info.recv) : (s.modifyTranInfo src f).Attached = s.Attached := by
  ext x
  simp only [Attached, modifyTranInfo, Set.mem_ofPred_eq, Option.mem_def]
  by_cases hx : x = src
  · rw [hx, Function.update_self]
    cases s.tranInfoList src with
    | none =>
      refine iff_of_false ?_ (by rintro ⟨_, ⟨⟩, _⟩)
      rintro ⟨_, ⟨⟩, hsome⟩
      rw [hf] at hsome
      cases hsome
    | some info =>
      constructor
      · rintro ⟨_, ⟨⟩, hsome⟩
        exact ⟨info, rfl, hf info ▸ hsome⟩
      · rintro ⟨_, ⟨⟩, hsome⟩
        exact ⟨_, rfl, (hf info).symm ▸ hsome⟩
  · rw [Function.update_of_ne hx]

theorem attached_removeTranInfo {src : UInt32} {flag : Bool} (h : s.removeTranInfo src flag = .ok s') :
    s'.Attached = s.Attached \ {src} := by
  obtain ⟨info, -, rfl⟩ := removeTranInfo_eq_ok h
  ext x
  simp only [Attached, Set.mem_ofPred_eq, Set.mem_sdiff, Set.mem_singleton_iff]
  by_cases hx : x = src
  · rw [hx, Function.update_self]
    exact iff_of_false (by rintro ⟨_, ⟨⟩, _⟩) fun hne => hne.2 rfl
  · rw [Function.update_of_ne hx]
    exact (and_iff_left hx).symm

theorem attached_subset_known (s : RtcpReceiver ρ) : s.Attached ⊆ s.Known := by
  rintro src ⟨info, hinfo, -⟩
  rw [Known, Set.mem_ofPred_eq, Option.mem_def.mp hinfo]
  rfl

theorem exists_addTranInfo {src : UInt32} (recv : ρ) (h : src ∉ s.Attached) :
    ∃ s', s.addTranInfo src recv = .ok s' ∧ s'.Attached = insert src s.Attached := by
  have hupdate (info : RtpTranInfo ρ) (hrecv : info.recv.isSome = true) :
      ({ s with tranInfoList := Function.update s.tranInfoList src (some info) } : RtcpReceiver ρ).Attached =
        insert src s.Attached := by
    ext x
    simp only [Attached, Set.mem_ofPred_eq, Set.mem_insert_iff]
    by_cases hx : x = src
    · rw [hx, Function.update_self]
      exact iff_of_true ⟨info, rfl, hrecv⟩ (Or.inl rfl)
    · rw [Function.update_of_ne hx]
      exact (or_iff_right hx).symm
  rw [addTranInfo]
  cases hinfo : s.tranInfoList src with
  | none => exact ⟨_, rfl, hupdate _ rfl⟩
  | some info =>
    cases hrecv : info.recv with
    | none =>
      have hnone : info.recv.isNone = true := by rw [hrecv]; rfl
      exact ⟨_, if_pos hnone, hupdate _ rfl⟩
    | some r => exact absurd ⟨info, hinfo, by rw [hrecv]; rfl⟩ h

theorem detaches_removeTranInfo {src : UInt32} (h : s.removeTranInfo src false = .ok s') : Detaches s s' := by
  have hattached := attached_removeTranInfo h
  obtain ⟨info, hinfo, rfl⟩ := removeTranInfo_eq_ok h
  refine ⟨hattached ▸ Set.sdiff_subset, [info], rfl, ?_⟩
  rw [hattached, Ne, sdiff_eq_left, Set.disjoint_singleton_right, not_not]
  simp [Attached, hinfo]

theorem kept_detaches : Kept (Detaches (ρ := ρ)) where
  refl s := ⟨subset_rfl, [], (List.append_nil _).symm, by simp⟩
  trans := by
    rintro s t u ⟨hsub, l, hl, hiff⟩ ⟨hsub', l', hl', hiff'⟩
    refine ⟨hsub'.trans hsub, l ++ l', by rw [hl', hl, List.append_assoc], ?_⟩
    have hsplit : u.Attached ≠ s.Attached ↔ t.Attached ≠ s.Attached ∨ u.Attached ≠ t.Attached := by
      constructor
      · intro hne
        by_contra hno
        obtain ⟨h, h'⟩ := not_or.mp hno
        exact hne ((not_not.mp h').trans (not_not.mp h))
      · rintro (hne | hne) heq
        · exact hne (hsub.antisymm (heq ▸ hsub'))
        · exact hne (hsub'.antisymm (heq ▸ hsub))
    rw [hsplit, hiff, hiff']
    simp only [List.mem_append, or_and_right, exists_or]
  modify s src f hf := by
    rw [Detaches, attached_modifyTranInfo s src hf]
    exact ⟨subset_rfl, [], (List.append_nil _).symm, by simp⟩
  remove := detaches_removeTranInfo

end RtcpReceiver

end Vocal.Rtcp
