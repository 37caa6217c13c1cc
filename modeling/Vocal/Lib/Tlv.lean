import Vocal.Lib.Bytes

/-!
# Attributes with a length

A message that is a row of attributes: a type, the number of all bytes of the attribute, and its value.
-/

namespace Vocal.Tlv

/-- The type and the value. -/
abbrev Attribute := UInt8 × Bytes

/-- The number of bytes of a value that the length can still count. -/
def maxValue : Nat := 253

def encode (a : Attribute) : Bytes := a.1 :: .ofNat (a.2.length + 2) :: a.2

def encodeAll (as : List Attribute) : Bytes := as.flatMap encode

@[simp] theorem length_encode (a : Attribute) : (encode a).length = a.2.length + 2 := by
  simp [encode]

@[simp] theorem encodeAll_nil : encodeAll [] = [] := rfl

@[simp] theorem encodeAll_cons (a : Attribute) (as : List Attribute) : encodeAll (a :: as) = encode a ++ encodeAll as :=
  rfl

theorem encodeAll_append (as bs : List Attribute) : encodeAll (as ++ bs) = encodeAll as ++ encodeAll bs :=
  List.flatMap_append

/-- The attributes that the lengths lead to, when the last of them ends with the bytes. -/
def walk : Bytes → Option (List Attribute)
  | [] => some []
  | [_] => none
  | type :: length :: rest =>
    if 2 ≤ length.toNat ∧ length.toNat - 2 ≤ rest.length then
      (walk (rest.drop (length.toNat - 2))).map ((type, rest.take (length.toNat - 2)) :: ·)
    else none
termination_by bytes => bytes.length
decreasing_by simp only [List.length_cons, List.length_drop]; omega

theorem toNat_length {n : Nat} (h : n ≤ maxValue) : (UInt8.ofNat (n + 2)).toNat = n + 2 := by
  have hle : n ≤ 253 := h
  rw [UInt8.toNat_ofNat']
  omega

theorem walk_encode_append {a : Attribute} (ha : a.2.length ≤ maxValue) (rest : Bytes) :
    walk (encode a ++ rest) = (walk rest).map (a :: ·) := by
  have hlength := toNat_length ha
  simp only [encode, List.cons_append]
  rw [walk, hlength, if_pos (by simp)]
  simp

/-- The walk finds the attributes again. -/
theorem walk_encodeAll {as : List Attribute} (h : ∀ a ∈ as, a.2.length ≤ maxValue) : walk (encodeAll as) = some as := by
  induction as with
  | nil => rw [encodeAll_nil, walk]
  | cons a as ih =>
    rw [encodeAll_cons, walk_encode_append (h a (by simp)), ih fun b hb => h b (by simp [hb])]
    rfl

theorem encode_take_append_drop (type : UInt8) {n : UInt8} {r : Bytes} (htwo : 2 ≤ n.toNat)
    (hle : n.toNat - 2 ≤ r.length) :
    encode (type, r.take (n.toNat - 2)) ++ r.drop (n.toNat - 2) = type :: n :: r ∧
      (r.take (n.toNat - 2)).length ≤ maxValue := by
  have hlen : (r.take (n.toNat - 2)).length = n.toNat - 2 := by
    rw [List.length_take]
    omega
  have hlt := n.toNat_lt
  refine ⟨?_, ?_⟩
  · simp only [encode, hlen, Nat.sub_add_cancel htwo, UInt8.ofNat_toNat, List.cons_append, List.take_append_drop]
  · show (r.take (n.toNat - 2)).length ≤ 253
    omega

theorem encode_append_inj {a b : Attribute} {x y : Bytes} (ha : a.2.length ≤ maxValue) (hb : b.2.length ≤ maxValue)
    (h : encode a ++ x = encode b ++ y) : a = b ∧ x = y := by
  simp only [encode, List.cons_append, List.cons.injEq] at h
  obtain ⟨htype, hlength, hrest⟩ := h
  have hlen : a.2.length = b.2.length := by
    have heq := congrArg UInt8.toNat hlength
    rw [toNat_length ha, toNat_length hb] at heq
    omega
  obtain ⟨hvalue, hxy⟩ := List.append_inj hrest hlen
  exact ⟨Prod.ext htype hvalue, hxy⟩

/-- What a walk finds is all of the bytes. -/
theorem encodeAll_of_walk {bytes : Bytes} {as : List Attribute} (h : walk bytes = some as) :
    encodeAll as = bytes ∧ ∀ a ∈ as, a.2.length ≤ maxValue := by
  induction bytes using walk.induct generalizing as with
  | case1 =>
    rw [walk] at h
    obtain rfl := Option.some.inj h
    exact ⟨rfl, by simp⟩
  | case2 b =>
    rw [walk] at h
    cases h
  | case3 type length rest hfits ih =>
    rw [walk, if_pos hfits] at h
    obtain ⟨as', has', rfl⟩ := Option.map_eq_some_iff.mp h
    obtain ⟨hbytes, hvalues⟩ := ih has'
    obtain ⟨hfirst, hvalue⟩ := encode_take_append_drop type hfits.1 hfits.2
    refine ⟨by rw [encodeAll_cons, hbytes, hfirst], fun a ha => ?_⟩
    rcases List.mem_cons.mp ha with rfl | ha
    · exact hvalue
    · exact hvalues a ha
  | case4 type length rest hnot =>
    rw [walk, if_neg hnot] at h
    cases h

end Vocal.Tlv
