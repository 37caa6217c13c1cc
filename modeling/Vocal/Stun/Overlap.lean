import Vocal.Stun.Attributes

/-!
# What the parser can get out of shifted bytes

After an error code, whose length is too large, the parser takes the bytes of the attributes that follow
for others. `cost` bounds the attributes it can find there by the number of the bytes.
-/

namespace Vocal.Stun

open Bytes

variable {msg m' : StunMessage} {body : Bytes}

/-! ### The bytes that a change takes -/

/-- The bytes that it takes at least to get from one message to the other. -/
def cost (msg m' : StunMessage) : Nat :=
  (if m'.errorCode.sizeReason = msg.errorCode.sizeReason then 0 else 8) +
  (if m'.unknownAttributes = msg.unknownAttributes then 0
    else 4 + 4 * m'.unknownAttributes.numAttributes.toNat) +
  (if m'.hasReflectedFrom = msg.hasReflectedFrom then 0 else 12)

@[simp] theorem cost_self (msg : StunMessage) : cost msg msg = 0 := by
  simp [cost]

theorem cost_triangle (a b c : StunMessage) : cost a c ≤ cost a b + cost b c := by
  have herror : (if c.errorCode.sizeReason = a.errorCode.sizeReason then 0 else 8) ≤
      (if b.errorCode.sizeReason = a.errorCode.sizeReason then 0 else 8) +
        (if c.errorCode.sizeReason = b.errorCode.sizeReason then 0 else 8) := by
    split_ifs <;> simp_all
  have hunknown : (if c.unknownAttributes = a.unknownAttributes then 0
      else 4 + 4 * c.unknownAttributes.numAttributes.toNat) ≤
      (if b.unknownAttributes = a.unknownAttributes then 0
        else 4 + 4 * b.unknownAttributes.numAttributes.toNat) +
      (if c.unknownAttributes = b.unknownAttributes then 0
        else 4 + 4 * c.unknownAttributes.numAttributes.toNat) := by
    split_ifs <;> simp_all
  have hreflected : (if c.hasReflectedFrom = a.hasReflectedFrom then 0 else 12) ≤
      (if b.hasReflectedFrom = a.hasReflectedFrom then 0 else 12) +
        (if c.hasReflectedFrom = b.hasReflectedFrom then 0 else 12) := by
    split_ifs <;> simp_all
  unfold cost
  omega

/-- An attribute that is parsed leaves the message as it is, up to what it says. -/
theorem parseAttribute_cases {type : UInt16} {len : Nat} (h : parseAttribute msg type len body = .ok m') :
    (cost msg m' = 0 ∧ m'.unknownAttributes = msg.unknownAttributes) ∨
    (∃ a, stunParseAtrError body len msg.errorCode = .ok a ∧
      m' = { msg with hasErrorCode := true, errorCode := a }) ∨
    (type = AtrType.UnknownAttribute.code ∧
      ∃ a, stunParseAtrUnknown body len msg.unknownAttributes = .ok a ∧
        m' = { msg with hasUnknownAttributes := true, unknownAttributes := a }) ∨
    (∃ a, stunParseAtrAddress body len = .ok a ∧
      m' = { msg with hasReflectedFrom := true, reflectedFrom := a }) := by
  have hcode : AtrType.ofCode type = some .UnknownAttribute → type = AtrType.UnknownAttribute.code := by
    intro hof
    rw [AtrType.ofCode] at hof
    split at hof <;> cases hof
    rename_i hnat
    exact UInt16.toNat_inj.mp hnat
  rw [parseAttribute] at h
  cases hof : AtrType.ofCode type with
  | none =>
    rw [hof] at h
    simp only at h
    split at h
    · cases h
    · cases h
      exact Or.inl ⟨cost_self _, rfl⟩
  | some t =>
    rw [hof] at h
    cases t with
    | ErrorCode =>
      obtain ⟨a, ha, h⟩ := bind_eq_ok h
      cases h
      exact Or.inr (Or.inl ⟨a, ha, rfl⟩)
    | UnknownAttribute =>
      obtain ⟨a, ha, h⟩ := bind_eq_ok h
      cases h
      exact Or.inr (Or.inr (Or.inl ⟨hcode hof, a, ha, rfl⟩))
    | ReflectedFrom =>
      obtain ⟨a, ha, h⟩ := bind_eq_ok h
      cases h
      exact Or.inr (Or.inr (Or.inr ⟨a, ha, rfl⟩))
    | _ =>
      obtain ⟨a, -, h⟩ := bind_eq_ok h
      cases h
      exact Or.inl ⟨by simp [cost], rfl⟩

theorem parseAttribute_cost {type : UInt16} {len : Nat} (h : parseAttribute msg type len body = .ok m') :
    cost msg m' ≤ 4 + len := by
  rcases parseAttribute_cases h with ⟨hzero, -⟩ | ⟨a, ha, rfl⟩ | ⟨-, a, ha, rfl⟩ | ⟨a, ha, rfl⟩
  · omega
  · have hsize := stunParseAtrError_ok ha
    simp only [cost, if_true]
    split <;> omega
  · obtain ⟨hnum, -⟩ := stunParseAtrUnknown_ok ha
    simp only [cost, if_true]
    split <;> omega
  · obtain ⟨hlen, -⟩ := stunParseAtrAddress_ok ha
    simp only [cost, if_true]
    split <;> omega

theorem parseRest_cost (h : parseRest msg body = .ok m') : cost msg m' ≤ body.length := by
  refine parseRest_induction (R := fun n msg m' => cost msg m' ≤ n) ?_ ?_ h
  · intro m
    rw [cost_self]
  · intro msg msg₁ m' type len body n hattr hrest
    have hone := parseAttribute_cost hattr
    have htriangle := cost_triangle msg msg₁ m'
    omega

theorem parseRest_numAttributes (hnum : msg.unknownAttributes.numAttributes.toNat ≤ 2)
    (h : parseRest msg body = .ok m') : m'.unknownAttributes.numAttributes.toNat ≤ 2 := by
  refine parseRest_induction (R := fun _ msg m' => msg.unknownAttributes.numAttributes.toNat ≤ 2 →
    m'.unknownAttributes.numAttributes.toNat ≤ 2) ?_ ?_ h hnum
  · exact fun m hm => hm
  · intro msg msg₁ m' type len body n hattr hrest hnum
    apply hrest
    rcases parseAttribute_cases hattr with ⟨-, hsame⟩ | ⟨a, ha, rfl⟩ | ⟨-, a, ha, rfl⟩ | ⟨a, ha, rfl⟩
    · rw [hsame]
      exact hnum
    · exact hnum
    · obtain ⟨hlen, hle⟩ := stunParseAtrUnknown_ok ha
      show a.numAttributes.toNat ≤ 2
      omega
    · exact hnum

theorem cost_unknown (hne : m'.unknownAttributes ≠ msg.unknownAttributes) :
    4 + 4 * m'.unknownAttributes.numAttributes.toNat ≤ cost msg m' := by
  rw [cost, if_neg hne]
  omega

theorem parseRest_fourteen (hlen : body.length = 14) (hne : m'.unknownAttributes ≠ msg.unknownAttributes)
    (hnum : m'.unknownAttributes.numAttributes.toNat = 2) : parseRest msg body ≠ .ok m' := by
  intro h
  obtain ⟨a, b, c, d, tail, rfl⟩ := word16_cases (by omega : 4 ≤ body.length)
  simp only [List.length_cons] at hlen
  rw [parseRest_cons] at h
  split at h
  · cases h
  · rename_i hle
    obtain ⟨msg₁, hattr, hrest⟩ := bind_eq_ok h
    have hcost := parseRest_cost hrest
    rw [List.length_drop] at hcost
    by_cases hlater : m'.unknownAttributes = msg₁.unknownAttributes
    · -- The unknown attributes take twelve bytes, and two are left.
      rcases parseAttribute_cases hattr with ⟨-, hsame⟩ | ⟨e, he, rfl⟩ | ⟨-, u, hu, rfl⟩ | ⟨r, hr, rfl⟩
      · exact hne (hlater.trans hsame)
      · exact hne hlater
      · obtain ⟨hsize, -⟩ := stunParseAtrUnknown_ok hu
        have hu2 : u.numAttributes.toNat = 2 := by
          rw [← hnum, hlater]
        have hshort : (tail.drop (word16 c d).toNat).length = 2 := by
          rw [List.length_drop]
          omega
        rw [parseRest_short (List.ne_nil_of_length_pos (by omega)) (by omega)] at hrest
        cases hrest
      · exact hne hlater
    · have hchange := cost_unknown hlater
      omega

end Vocal.Stun
