import Mathlib.Data.Prod.Lex
import Vocal.Lib.WeakOrder
import Vocal.Sip.Loop
import Vocal.Sip.ParameterList
import Vocal.Sip.Via

/-!
# Orders of map keys

`SipVia::operator<` and `SipCallLeg::operator<`. The one holds as soon as any field is smaller, the other compares the
parties of two call legs although the first has the greater CSeq, so that both can hold in both directions.
`orders_keys_iff` says for which sets of values they are orders as a map needs them.
-/

namespace Vocal.Sip

open WeakOrder (On Any Below)

/-! ### Texts -/

theorem isStrictWeakOrder_strLess {α : Type} (f : α → Data) :
    IsStrictWeakOrder α fun x y => strLess (f x) (f y) = true := by
  simp only [strLess_iff]
  exact WeakOrder.isStrictWeakOrder_lt f

/-- What a map needs of its keys: a strict weak order, under which equal keys are not before each other. -/
def OrdersKeys {α : Type} (less eq : α → α → Bool) (keys : Set α) : Prop :=
  On (fun x y => less x y = true) keys ∧
    ∀ x ∈ keys, ∀ y ∈ keys, eq x y = true → less x y = false ∧ less y x = false

/-! ### Vias -/

namespace SipViaHeader

/-- The order of the flags of C++. -/
def flagLess (a b : Bool) : Bool := !a && b

/-- `SipVia::operator<`. -/
def less (v src : SipViaHeader) : Bool :=
  strLess v.host src.host ||
  strLess v.port src.port ||
  strLess v.protocolName src.protocolName ||
  strLess v.transport src.transport ||
  strLess v.protocolVersion src.protocolVersion ||
  strLess v.receivedHost src.receivedHost ||
  strLess v.branchToken src.branchToken ||
  strLess v.comment src.comment ||
  strLess v.extparm src.extparm ||
  strLess v.extvalue src.extvalue ||
  strLess v.ttl src.ttl ||
  strLess v.maddr src.maddr ||
  flagLess v.viaBranch src.viaBranch ||
  flagLess v.viaComment src.viaComment ||
  flagLess v.viaReceived src.viaReceived ||
  flagLess v.viaHidden src.viaHidden ||
  flagLess v.viaTtl src.viaTtl ||
  flagLess v.viaMaddr src.viaMaddr

/-- `SipVia::operator==`, which compares all fields. -/
def eq (v src : SipViaHeader) : Bool := v = src

/-- The texts that are compared. -/
def texts : List (SipViaHeader → Data) :=
  [host, port, protocolName, transport, protocolVersion, receivedHost, branchToken, comment, extparm, extvalue, ttl, maddr]

/-- The flags that are compared. -/
def flags : List (SipViaHeader → Bool) := [viaBranch, viaComment, viaReceived, viaHidden, viaTtl, viaMaddr]

/-- The comparisons of the fields. -/
def fields : List (SipViaHeader → SipViaHeader → Prop) :=
  texts.map (fun f v w => strLess (f v) (f w) = true) ++ flags.map fun f v w => flagLess (f v) (f w) = true

theorem less_iff (v w : SipViaHeader) : v.less w = true ↔ Any fields v w := by
  simp [less, Any, fields, texts, flags, or_assoc]

theorem isStrictWeakOrder_fields : ∀ r ∈ fields, IsStrictWeakOrder SipViaHeader r := by
  intro r hr
  rcases List.mem_append.mp hr with hr | hr
  · obtain ⟨f, -, rfl⟩ := List.mem_map.mp hr
    exact isStrictWeakOrder_strLess f
  · obtain ⟨f, -, rfl⟩ := List.mem_map.mp hr
    have hless : (fun v w => flagLess (f v) (f w) = true) = fun v w => f v < f w := by
      funext v w
      cases f v <;> cases f w <;> rfl
    rw [hless]
    exact WeakOrder.isStrictWeakOrder_lt f

theorem ordersKeys_iff (vias : Set SipViaHeader) : OrdersKeys less eq vias ↔ IsChain (Below fields) vias := by
  have hrel : (fun v w : SipViaHeader => v.less w = true) = Any fields := by
    funext v w
    exact propext (less_iff v w)
  unfold OrdersKeys
  rw [hrel, WeakOrder.on_any_iff isStrictWeakOrder_fields, and_iff_left_iff_imp]
  rintro - v - w - heq
  obtain rfl : v = w := of_decide_eq_true heq
  have hself : v.less v = false := by
    rw [Bool.eq_false_iff, ne_eq, less_iff]
    rintro ⟨r, hr, hvv⟩
    exact (isStrictWeakOrder_fields r hr).irrefl v hvv
  exact ⟨hself, hself⟩

end SipViaHeader

/-! ### Call legs -/

def SipCallId.less (c other : SipCallId) : Bool := strLess c.encode other.encode

def SipCSeq.less (c other : SipCSeq) : Bool :=
  if strLess c.cseq other.cseq then true
  else if strLess other.cseq c.cseq then false
  else strLess c.method other.method

structure SipCallLeg where
  «from» : Data
  «to» : Data
  callId : SipCallId
  cseq : SipCSeq
  deriving DecidableEq, Repr

namespace SipCallLeg

/-- `SipCallLeg::operator==`, in which the parties are commented out. -/
def eq (leg src : SipCallLeg) : Bool := leg.callId = src.callId && leg.cseq = src.cseq

/-- The parties, the smaller first. -/
def sorted (leg : SipCallLeg) : Data × Data :=
  if strLess leg.«from» leg.«to» then (leg.«from», leg.«to») else (leg.«to», leg.«from»)

/-- `SipCallLeg::operator<`. -/
def less (lhs rhs : SipCallLeg) : Bool :=
  if lhs.eq rhs then false
  else if lhs.callId.less rhs.callId then true
  else if lhs.callId = rhs.callId then
    if lhs.cseq.less rhs.cseq then true
    else
      let (lhsTo, lhsFrom) := lhs.sorted
      let (rhsTo, rhsFrom) := rhs.sorted
      if strLess lhsTo rhsTo then true
      else if lhsTo = rhsTo then
        if strLess lhsFrom rhsFrom then true
        else false
      else false
  else false

/-- The CSeq and the parties as they are compared. -/
def order (leg : SipCallLeg) : Data ×ₗ Data := toLex (leg.cseq.cseq, leg.cseq.method)

def parties (leg : SipCallLeg) : Data ×ₗ Data := toLex leg.sorted

/-- Of two legs of a call the one with the smaller CSeq does not have the greater parties; and where there are two with
different CSeqs, no other Call-ID is written like theirs. -/
def Agree (legs : Set SipCallLeg) : Prop :=
  ∀ x ∈ legs, ∀ y ∈ legs, x.callId = y.callId → x.order < y.order →
    x.parties ≤ y.parties ∧ ∀ z ∈ legs, z.callId.encode = x.callId.encode → z.callId = x.callId

variable {x y z : SipCallLeg} {legs : Set SipCallLeg}

theorem cseq_less_iff (x y : SipCallLeg) : x.cseq.less y.cseq = true ↔ x.order < y.order := by
  unfold SipCSeq.less order
  rw [Prod.Lex.toLex_lt_toLex]
  by_cases hlt : x.cseq.cseq < y.cseq.cseq
  · rw [if_pos (strLess_iff.mpr hlt)]
    exact iff_of_true rfl (Or.inl hlt)
  · rw [if_neg (fun h => hlt (strLess_iff.mp h))]
    by_cases hgt : y.cseq.cseq < x.cseq.cseq
    · rw [if_pos (strLess_iff.mpr hgt)]
      refine iff_of_false Bool.false_ne_true ?_
      rintro (h | ⟨heq, -⟩)
      · exact hlt h
      · exact hgt.ne' heq
    · rw [if_neg (fun h => hgt (strLess_iff.mp h)), strLess_iff]
      exact ⟨fun h => Or.inr ⟨le_antisymm (not_lt.mp hgt) (not_lt.mp hlt), h⟩, fun h => (h.resolve_left hlt).2⟩

theorem order_eq_iff : x.order = y.order ↔ x.cseq = y.cseq := by
  unfold order
  rw [toLex_inj, Prod.mk.injEq]
  constructor
  · rintro ⟨hcseq, hmethod⟩
    cases hx : x.cseq
    cases hy : y.cseq
    rw [hx, hy] at hcseq hmethod
    congr
  · intro h
    rw [h]
    exact ⟨rfl, rfl⟩

theorem eq_iff : x.eq y = true ↔ x.callId = y.callId ∧ x.order = y.order := by
  rw [eq, Bool.and_eq_true, decide_eq_true_eq, decide_eq_true_eq, order_eq_iff]

theorem less_iff : x.less y = true ↔
    ¬ (x.callId = y.callId ∧ x.order = y.order) ∧
      (x.callId.encode < y.callId.encode ∨
        x.callId = y.callId ∧ (x.order < y.order ∨ ¬ x.order < y.order ∧ x.parties < y.parties)) := by
  have hparties : x.parties < y.parties ↔
      strLess x.sorted.1 y.sorted.1 = true ∨ x.sorted.1 = y.sorted.1 ∧ strLess x.sorted.2 y.sorted.2 = true := by
    rw [strLess_iff, strLess_iff]
    exact Prod.Lex.toLex_lt_toLex
  rw [← eq_iff, ← cseq_less_iff, hparties, ← strLess_iff]
  unfold less SipCallId.less
  by_cases heq : x.eq y = true
  · simp [heq]
  · by_cases hid : strLess x.callId.encode y.callId.encode = true
    · simp [heq, hid]
    · by_cases hcall : x.callId = y.callId
      · by_cases hcseq : x.cseq.less y.cseq = true
        · simp [heq, hcall, hcseq]
        · simp only [heq, hcall, hcseq]
          split_ifs <;> simp_all
      · simp [heq, hid, hcall]

theorem Agree.less_iff (h : Agree legs) (hx : x ∈ legs) (hy : y ∈ legs) :
    x.less y = true ↔ x.callId.encode < y.callId.encode ∨ x.callId = y.callId ∧ x.order < y.order := by
  rw [SipCallLeg.less_iff]
  constructor
  · rintro ⟨hne, hid | ⟨hcall, hlt | ⟨hge, hparties⟩⟩⟩
    · exact Or.inl hid
    · exact Or.inr ⟨hcall, hlt⟩
    · have hgt : y.order < x.order := lt_of_le_of_ne (not_lt.mp hge) fun heq => hne ⟨hcall, heq.symm⟩
      exact absurd hparties (not_lt.mpr (h y hy x hx hcall.symm hgt).1)
  · rintro (hid | ⟨hcall, hlt⟩)
    · refine ⟨?_, Or.inl hid⟩
      rintro ⟨hcall, -⟩
      rw [hcall] at hid
      exact lt_irrefl _ hid
    · exact ⟨fun heq => hlt.ne heq.2, Or.inr ⟨hcall, Or.inl hlt⟩⟩

theorem Agree.incomparable_iff (h : Agree legs) (hx : x ∈ legs) (hy : y ∈ legs) :
    ¬ x.less y = true ∧ ¬ y.less x = true ↔
      x.callId.encode = y.callId.encode ∧ (x.callId = y.callId → x.order = y.order) := by
  rw [h.less_iff hx hy, h.less_iff hy hx, not_or, not_or]
  constructor
  · rintro ⟨⟨hid, hcseq⟩, hid', hcseq'⟩
    refine ⟨le_antisymm (not_lt.mp hid') (not_lt.mp hid), fun hcall => ?_⟩
    exact le_antisymm (not_lt.mp fun hlt => hcseq' ⟨hcall.symm, hlt⟩) (not_lt.mp fun hlt => hcseq ⟨hcall, hlt⟩)
  · rintro ⟨hid, hsame⟩
    rw [hid]
    exact ⟨⟨lt_irrefl _, fun hlt => hlt.2.ne (hsame hlt.1)⟩, lt_irrefl _, fun hlt => hlt.2.ne' (hsame hlt.1.symm)⟩

theorem Agree.on (h : Agree legs) : On (fun x y => x.less y = true) legs := by
  refine On.intro ?_ ?_ ?_
  · intro x hx hxx
    rcases (h.less_iff hx hx).mp hxx with hlt | ⟨-, hlt⟩
    · exact lt_irrefl _ hlt
    · exact lt_irrefl _ hlt
  · intro x hx y hy z hz hxy hyz
    rw [h.less_iff hx hy] at hxy
    rw [h.less_iff hy hz] at hyz
    rw [h.less_iff hx hz]
    rcases hxy with hid | ⟨hcall, hlt⟩
    · left
      rcases hyz with hid' | ⟨hcall', -⟩
      · exact hid.trans hid'
      · exact hcall' ▸ hid
    · rcases hyz with hid' | ⟨hcall', hlt'⟩
      · exact Or.inl (hcall ▸ hid')
      · exact Or.inr ⟨hcall.trans hcall', hlt.trans hlt'⟩
  · intro x hx y hy z hz hxy hyz
    rw [h.incomparable_iff hx hy] at hxy
    rw [h.incomparable_iff hy hz] at hyz
    rw [h.incomparable_iff hx hz]
    refine ⟨hxy.1.trans hyz.1, fun hcall => ?_⟩
    -- legs with different CSeqs leave no place for `y` between them
    have hbetween {u v : SipCallLeg} (hu : u ∈ legs) (hv : v ∈ legs) (huv : u.callId = v.callId) (hlt : u.order < v.order)
        (hyu : y.callId.encode = u.callId.encode) : y.callId = u.callId :=
      (h u hu v hv huv hlt).2 y hy hyu
    by_contra hne
    have hsame : y.callId = x.callId := by
      rcases lt_or_gt_of_ne hne with hlt | hgt
      · exact hbetween hx hz hcall hlt hxy.1.symm
      · exact (hbetween hz hx hcall.symm hgt hyz.1).trans hcall.symm
    exact hne ((hxy.2 hsame.symm).trans (hyz.2 (hsame.trans hcall)))

theorem ordersKeys_iff (legs : Set SipCallLeg) : OrdersKeys less eq legs ↔ Agree legs := by
  constructor
  · rintro ⟨h, -⟩ x hx y hy hcall hlt
    have hxy : x.less y = true := SipCallLeg.less_iff.mpr ⟨fun heq => hlt.ne heq.2, Or.inr ⟨hcall, Or.inl hlt⟩⟩
    refine ⟨not_lt.mp fun hparties => ?_, fun z hz hencode => ?_⟩
    · have hyx : y.less x = true :=
        SipCallLeg.less_iff.mpr ⟨fun heq => hlt.ne' heq.2, Or.inr ⟨hcall.symm, Or.inr ⟨hlt.le.not_gt, hparties⟩⟩⟩
      exact h.asymm hx hy hxy hyx
    · by_contra hother
      have hapart {u : SipCallLeg} (hu : u.callId = x.callId) : ¬ u.less z = true ∧ ¬ z.less u = true := by
        rw [SipCallLeg.less_iff, SipCallLeg.less_iff, hu, hencode]
        constructor
        · rintro ⟨-, hid | ⟨heq, -⟩⟩
          · exact lt_irrefl _ hid
          · exact hother heq.symm
        · rintro ⟨-, hid | ⟨heq, -⟩⟩
          · exact lt_irrefl _ hid
          · exact hother heq
      exact (h.incomp hx hz hy (hapart rfl) (hapart hcall.symm).symm).1 hxy
  · intro h
    refine ⟨h.on, ?_⟩
    intro x _ y _ heq
    have hsame := eq_iff.mp heq
    rw [Bool.eq_false_iff, Bool.eq_false_iff, ne_eq, ne_eq, SipCallLeg.less_iff, SipCallLeg.less_iff]
    exact ⟨fun hless => hless.1 hsame, fun hless => hless.1 ⟨hsame.1.symm, hsame.2.symm⟩⟩

end SipCallLeg

/-- **Orders of map keys.** For every set of Vias and every set of call legs: `SipVia::operator<` is a strict weak order
on the Vias, under which equal ones are not before each other, exactly if of any two one has no field that is greater;
and `SipCallLeg::operator<` is one on the call legs exactly if of two legs with one Call-ID the one with the smaller
CSeq does not have the greater parties, and no other Call-ID is written like that of two legs with different CSeqs. -/
theorem orders_keys_iff (vias : Set SipViaHeader) (legs : Set SipCallLeg) :
    (OrdersKeys SipViaHeader.less SipViaHeader.eq vias ↔ IsChain (Below SipViaHeader.fields) vias) ∧
    (OrdersKeys SipCallLeg.less SipCallLeg.eq legs ↔ SipCallLeg.Agree legs) :=
  ⟨SipViaHeader.ordersKeys_iff vias, SipCallLeg.ordersKeys_iff legs⟩

/-- Two Vias, and two legs of a call, that are before each other. -/
theorem not_ordersKeys_univ :
    ¬ OrdersKeys SipViaHeader.less SipViaHeader.eq Set.univ ∧ ¬ OrdersKeys SipCallLeg.less SipCallLeg.eq Set.univ := by
  constructor
  · rintro ⟨h, -⟩
    let v : SipViaHeader := { host := "a".toList, port := "5061".toList }
    let w : SipViaHeader := { host := "b".toList, port := "5060".toList }
    exact h.asymm (x := v) (y := w) trivial trivial (by decide) (by decide)
  · rintro ⟨h, -⟩
    let x : SipCallLeg :=
      { «from» := "sip:b@h".toList, «to» := "sip:b@h".toList, callId := ⟨"1".toList, []⟩,
        cseq := ⟨"1".toList, INVITE_METHOD⟩ }
    let y : SipCallLeg := { x with «from» := "sip:a@h".toList, cseq := ⟨"2".toList, INVITE_METHOD⟩ }
    exact h.asymm (x := x) (y := y) trivial trivial (by decide) (by decide)

end Vocal.Sip
