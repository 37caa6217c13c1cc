import Vocal.Cdr.Radius

/-!
# The walk over a reply

The loop of `evaluateRecvBuffer` with its pointer, which goes on by what the attributes hold, and its count, which goes
on by what they say. Both agree and stay inside of the datagram if and only if its attributes are well formed.
-/

namespace Vocal.Cdr

namespace RadiusStack

/-- A call of `processVsa`: where the value begins, its length, and where the attribute ends. -/
structure VsaCall where
  vsaType : UInt8
  value : Nat
  valueLength : Int
  attributeEnd : Nat
  deriving DecidableEq, Repr

/-- What an attribute leaves: the pointer and the count behind it, and the call that it made. -/
structure Visit where
  ptr : Nat
  count : Nat
  vsa : Option VsaCall
  deriving DecidableEq, Repr

/-- The loop of `evaluateRecvBuffer` over what is left of the datagram behind the pointer. There is no result where a
byte is read behind the datagram. The `processVsa` that is called is the one of the stack, which is empty: the value of
a vendor attribute is not looked at. -/
def walk (totalLen ptr count : Nat) (rest : List UInt8) : Option (List Visit) :=
  if count < totalLen then
    match rest with
    | type :: len :: rest =>
      if len < 2 then
        (walk totalLen (ptr + 2) (count + len.toNat) rest).map (⟨ptr + 2, count + len.toNat, none⟩ :: ·)
      else if type = PW_ACCT_STATUS_TYPE then
        match rest with
        | [] => none
        | b :: value =>
          (walk totalLen (ptr + len.toNat) (count + len.toNat) ((b :: value).drop (len.toNat - 2))).map
            (⟨ptr + len.toNat, count + len.toNat, none⟩ :: ·)
      else if type = PW_VENDOR_SPECIFIC then
        match rest.drop 4 with
        | vsaType :: vsaLength :: _ =>
          (walk totalLen (ptr + 6 + vsaLength.toNat) (count + len.toNat) ((rest.drop 4).drop vsaLength.toNat)).map
            (⟨ptr + 6 + vsaLength.toNat, count + len.toNat,
              some ⟨vsaType, ptr + 8, (vsaLength.toNat : Int) - 2, ptr + len.toNat⟩⟩ :: ·)
        | _ => none
      else
        (walk totalLen (ptr + len.toNat) (count + len.toNat) (rest.drop (len.toNat - 2))).map
          (⟨ptr + len.toNat, count + len.toNat, none⟩ :: ·)
    | _ => none
  else some []
termination_by rest.length
decreasing_by all_goals (simp only [List.length_cons, List.length_drop]; omega)

/-- The pointer agrees with the count, and a value that was handed on lies in its attribute. -/
def Visit.Agrees (v : Visit) : Prop :=
  v.ptr = v.count ∧ ∀ call ∈ v.vsa, 0 ≤ call.valueLength ∧ call.value + call.valueLength ≤ call.attributeEnd

/-- `evaluateRecvBuffer` comes to its end inside of the datagram, and agrees with itself behind each attribute. -/
def WalksInside (d : List UInt8) : Prop :=
  ∃ visits, walk (lengthOf d) sizeofAcctHdr sizeofAcctHdr (d.drop sizeofAcctHdr) = some visits ∧ ∀ v ∈ visits, v.Agrees

/-! ## Well-formed attributes -/

/-- The bytes of a vendor attribute behind its length: the vendor's length counts what the attribute's does but six. -/
def VendorWellFormed (len : UInt8) (rest : List UInt8) : Prop :=
  ∃ vendorId vsaType vsaLength value, rest = vendorId ++ vsaType :: vsaLength :: value ∧ vendorId.length = 4 ∧
    2 ≤ vsaLength ∧ vsaLength.toNat + 6 = len.toNat

/-- The attributes of a datagram. The last one may end behind the datagram where nothing reads what it says. -/
inductive WellFormed : List UInt8 → Prop
  | nil : WellFormed []
  | cons {type len : UInt8} {rest : List UInt8} (hlen : 2 ≤ len) (hstatus : type = PW_ACCT_STATUS_TYPE → rest ≠ [])
      (hvendor : type = PW_VENDOR_SPECIFIC → VendorWellFormed len rest) (hrest : WellFormed (rest.drop (len.toNat - 2))) :
      WellFormed (type :: len :: rest)

variable {totalLen ptr count : Nat} {type len : UInt8} {rest : List UInt8}

theorem wellFormed_cons_iff : WellFormed (type :: len :: rest) ↔
    2 ≤ len ∧ (type = PW_ACCT_STATUS_TYPE → rest ≠ []) ∧ (type = PW_VENDOR_SPECIFIC → VendorWellFormed len rest) ∧
      WellFormed (rest.drop (len.toNat - 2)) := by
  constructor
  · intro h
    cases h with
    | cons hlen hstatus hvendor hrest => exact ⟨hlen, hstatus, hvendor, hrest⟩
  · rintro ⟨hlen, hstatus, hvendor, hrest⟩
    exact .cons hlen hstatus hvendor hrest

/-! ### One attribute -/

theorem walk_end (h : ¬count < totalLen) : walk totalLen ptr count rest = some [] := by
  rw [walk.eq_def, if_neg h]

theorem walk_nil (h : count < totalLen) : walk totalLen ptr count [] = none := by
  rw [walk.eq_def, if_pos h]

theorem walk_singleton (h : count < totalLen) : walk totalLen ptr count [type] = none := by
  rw [walk.eq_def, if_pos h]

/-- A length of less than two moves the pointer by two all the same. -/
theorem walk_of_short (h : count < totalLen) (hlen : len < 2) :
    walk totalLen ptr count (type :: len :: rest) =
      (walk totalLen (ptr + 2) (count + len.toNat) rest).map (⟨ptr + 2, count + len.toNat, none⟩ :: ·) := by
  rw [walk.eq_def, if_pos h]
  simp only [if_pos hlen]

section

variable (h : count < totalLen) (hlen : 2 ≤ len)
include h hlen

theorem walk_status_nil (htype : type = PW_ACCT_STATUS_TYPE) : walk totalLen ptr count [type, len] = none := by
  rw [walk.eq_def, if_pos h]
  simp only [if_neg (UInt8.not_lt.mpr hlen), if_pos htype]

theorem walk_of_passed (hstatus : type = PW_ACCT_STATUS_TYPE → rest ≠ []) (hvendor : type ≠ PW_VENDOR_SPECIFIC) :
    walk totalLen ptr count (type :: len :: rest) =
      (walk totalLen (ptr + len.toNat) (count + len.toNat) (rest.drop (len.toNat - 2))).map
        (⟨ptr + len.toNat, count + len.toNat, none⟩ :: ·) := by
  rw [walk.eq_def, if_pos h]
  by_cases htype : type = PW_ACCT_STATUS_TYPE
  · obtain ⟨b, value, rfl⟩ := List.exists_cons_of_ne_nil (hstatus htype)
    simp only [if_neg (UInt8.not_lt.mpr hlen), if_pos htype]
  · simp only [if_neg (UInt8.not_lt.mpr hlen), if_neg htype, if_neg hvendor]

theorem walk_of_vendor (htype : type = PW_VENDOR_SPECIFIC) {vsaType vsaLength : UInt8} {value : List UInt8}
    (hrest : rest.drop 4 = vsaType :: vsaLength :: value) :
    walk totalLen ptr count (type :: len :: rest) =
      (walk totalLen (ptr + 6 + vsaLength.toNat) (count + len.toNat) (rest.drop (4 + vsaLength.toNat))).map
        (⟨ptr + 6 + vsaLength.toNat, count + len.toNat,
          some ⟨vsaType, ptr + 8, (vsaLength.toNat : Int) - 2, ptr + len.toNat⟩⟩ :: ·) := by
  have hne : type ≠ PW_ACCT_STATUS_TYPE := by
    rw [htype]
    decide
  rw [walk.eq_def, if_pos h]
  simp only [if_neg (UInt8.not_lt.mpr hlen), if_neg hne, if_pos htype, hrest]
  rw [← hrest, List.drop_drop]

theorem walk_vendor_eq_none (htype : type = PW_VENDOR_SPECIFIC)
    (hnone : ¬∃ vsaType vsaLength value, rest.drop 4 = vsaType :: vsaLength :: value) :
    walk totalLen ptr count (type :: len :: rest) = none := by
  have hne : type ≠ PW_ACCT_STATUS_TYPE := by
    rw [htype]
    decide
  rw [walk.eq_def, if_pos h]
  simp only [if_neg (UInt8.not_lt.mpr hlen), if_neg hne, if_pos htype]
  split
  · rename_i vsaType vsaLength value hrest
    exact absurd ⟨vsaType, vsaLength, value, hrest⟩ hnone
  · rfl

end

/-! ### The walk -/

/-- The walk goes on to its end, and agrees with itself behind each attribute. -/
def Walks (totalLen ptr count : Nat) (rest : List UInt8) : Prop :=
  ∃ visits, walk totalLen ptr count rest = some visits ∧ ∀ v ∈ visits, v.Agrees

theorem walks_iff_of_step {ptr' count' : Nat} {rest rest' : List UInt8} {v : Visit}
    (h : walk totalLen ptr count rest = (walk totalLen ptr' count' rest').map (v :: ·)) :
    Walks totalLen ptr count rest ↔ v.Agrees ∧ Walks totalLen ptr' count' rest' := by
  rw [Walks, h]
  constructor
  · rintro ⟨visits, hvisits, hagrees⟩
    obtain ⟨visits', hvisits', rfl⟩ := Option.map_eq_some_iff.mp hvisits
    exact ⟨hagrees v (List.mem_cons_self ..), visits', hvisits', fun u hu => hagrees u (List.mem_cons_of_mem _ hu)⟩
  · rintro ⟨hv, visits, hvisits, hagrees⟩
    refine ⟨v :: visits, by rw [hvisits]; rfl, fun u hu => ?_⟩
    rcases List.mem_cons.mp hu with rfl | hu
    · exact hv
    · exact hagrees u hu

theorem not_walks_of_none (h : walk totalLen ptr count rest = none) : ¬Walks totalLen ptr count rest := by
  rintro ⟨visits, hvisits, -⟩
  rw [h] at hvisits
  cases hvisits

theorem length_le_of_drop_eq {vsaType vsaLength : UInt8} {value : List UInt8}
    (h : rest.drop 4 = vsaType :: vsaLength :: value) : rest = rest.take 4 ++ vsaType :: vsaLength :: value ∧
      (rest.take 4).length = 4 := by
  have hlength := congrArg List.length h
  rw [List.length_drop, List.length_cons, List.length_cons] at hlength
  refine ⟨by rw [← h, List.take_append_drop], ?_⟩
  rw [List.length_take]
  omega

theorem walks_vendor_iff (h : ptr < totalLen) (hlen : 2 ≤ len) :
    Walks totalLen ptr ptr (PW_VENDOR_SPECIFIC :: len :: rest) ↔
      VendorWellFormed len rest ∧ Walks totalLen (ptr + len.toNat) (ptr + len.toNat) (rest.drop (len.toNat - 2)) := by
  by_cases hexists : ∃ vsaType vsaLength value, rest.drop 4 = vsaType :: vsaLength :: value
  · obtain ⟨vsaType, vsaLength, value, hrest⟩ := hexists
    obtain ⟨hparts, hvendorId⟩ := length_le_of_drop_eq hrest
    rw [walks_iff_of_step (walk_of_vendor h hlen rfl hrest)]
    have hagrees : (⟨ptr + 6 + vsaLength.toNat, ptr + len.toNat,
          some ⟨vsaType, ptr + 8, (vsaLength.toNat : Int) - 2, ptr + len.toNat⟩⟩ : Visit).Agrees ↔
        2 ≤ vsaLength ∧ vsaLength.toNat + 6 = len.toNat := by
      rw [Visit.Agrees, UInt8.le_iff_toNat_le]
      simp
      omega
    have hformed : VendorWellFormed len rest ↔ 2 ≤ vsaLength ∧ vsaLength.toNat + 6 = len.toNat := by
      constructor
      · rintro ⟨vendorId', vsaType', vsaLength', value', hrest', hvendorId', htwo, hsix⟩
        rw [hrest', ← hvendorId', List.drop_left] at hrest
        obtain ⟨-, hvsaLength, -⟩ : vsaType' = vsaType ∧ vsaLength' = vsaLength ∧ value' = value := by simpa using hrest
        rw [← hvsaLength]
        exact ⟨htwo, hsix⟩
      · rintro ⟨htwo, hsix⟩
        exact ⟨_, vsaType, vsaLength, value, hparts, hvendorId, htwo, hsix⟩
    rw [hagrees, hformed]
    refine and_congr_right fun hsix => ?_
    rw [show ptr + 6 + vsaLength.toNat = ptr + len.toNat by omega, show 4 + vsaLength.toNat = len.toNat - 2 by omega]
  · refine iff_of_false (not_walks_of_none (walk_vendor_eq_none h hlen rfl hexists)) ?_
    rintro ⟨⟨vendorId, vsaType, vsaLength, value, rfl, hvendorId, -, -⟩, -⟩
    refine hexists ⟨vsaType, vsaLength, value, ?_⟩
    rw [← hvendorId, List.drop_left]

/-- Pointer and count that agree in front of the attributes agree behind each of them exactly if the attributes are well
formed. -/
theorem walks_iff (hrest : rest.length = totalLen - ptr) : Walks totalLen ptr ptr rest ↔ WellFormed rest := by
  induction hlength : rest.length using Nat.strongRecOn generalizing rest ptr with
  | ind n ih =>
    match rest, hrest with
    | [], hrest =>
      exact iff_of_true ⟨[], walk_end (by simpa using Nat.sub_eq_zero_iff_le.mp hrest.symm), by simp⟩ .nil
    | [type], hrest =>
      rw [List.length_singleton] at hrest
      exact iff_of_false (not_walks_of_none (walk_singleton (by omega))) (by rintro ⟨⟩)
    | type :: len :: rest, hrest =>
      simp only [List.length_cons] at hrest hlength
      rw [wellFormed_cons_iff]
      by_cases hlen : 2 ≤ len
      · have htwo := UInt8.le_iff_toNat_le.mp hlen
        have htwo' : (2 : UInt8).toNat = 2 := rfl
        have hnext : Walks totalLen (ptr + len.toNat) (ptr + len.toNat) (rest.drop (len.toNat - 2)) ↔
            WellFormed (rest.drop (len.toNat - 2)) :=
          ih (rest.drop (len.toNat - 2)).length (by rw [List.length_drop]; omega) (by rw [List.length_drop]; omega) rfl
        rw [← hnext]
        by_cases hvendor : type = PW_VENDOR_SPECIFIC
        · have hstatus : PW_VENDOR_SPECIFIC ≠ PW_ACCT_STATUS_TYPE := by decide
          rw [hvendor, walks_vendor_iff (by omega) hlen]
          simp [hlen, hstatus]
        · by_cases hstatus : type = PW_ACCT_STATUS_TYPE → rest ≠ []
          · rw [walks_iff_of_step (walk_of_passed (by omega) hlen hstatus hvendor)]
            have hagrees : (⟨ptr + len.toNat, ptr + len.toNat, none⟩ : Visit).Agrees := ⟨rfl, by simp⟩
            exact ⟨fun h => ⟨hlen, hstatus, fun htype => absurd htype hvendor, h.2⟩, fun h => ⟨hagrees, h.2.2.2⟩⟩
          · obtain ⟨htype, rfl⟩ : type = PW_ACCT_STATUS_TYPE ∧ rest = [] := by simpa using hstatus
            refine iff_of_false (not_walks_of_none (walk_status_nil (by omega) hlen htype)) ?_
            simp [htype]
      · have hshort := UInt8.not_le.mp hlen
        have htwo := UInt8.lt_iff_toNat_lt.mp hshort
        have htwo' : (2 : UInt8).toNat = 2 := rfl
        refine iff_of_false ?_ fun h => hlen h.1
        rw [walks_iff_of_step (walk_of_short (by omega) hshort)]
        rintro ⟨⟨hptr, -⟩, -⟩
        dsimp only at hptr
        omega

/-! ## The loop of the stack -/

/-- The calls that the visits made, by their type and length. -/
def calls (visits : List Visit) : List (UInt8 × Int) :=
  visits.filterMap fun v => v.vsa.map fun call => (call.vsaType, call.valueLength)

/-- The calls that the stack has noted. -/
def notedCalls (s : RadiusStack) : List (UInt8 × Int) :=
  s.vsaCalls.map fun call => (call.1, (call.2.2.toNat : Int) - 2)

theorem exists_of_map_eq_some {o : Option (List Visit)} {v : Visit} {visits : List Visit}
    (h : o.map (v :: ·) = some visits) : ∃ visits', o = some visits' ∧ calls visits = calls [v] ++ calls visits' := by
  obtain ⟨visits', ho, rfl⟩ := Option.map_eq_some_iff.mp h
  refine ⟨visits', ho, ?_⟩
  rw [calls, calls, calls, ← List.filterMap_append]
  rfl

section

variable {s : RadiusStack} (h : count < totalLen)
include h

theorem evaluate_of_short (hlen : len < 2) : evaluateAttributes totalLen count (type :: len :: rest) s =
    evaluateAttributes totalLen (count + len.toNat) rest s := by
  rw [evaluateAttributes.eq_def, if_pos h]
  simp only [if_pos hlen]

theorem evaluate_of_passed (hlen : 2 ≤ len) (hstatus : type = PW_ACCT_STATUS_TYPE → rest ≠ [])
    (hvendor : type ≠ PW_VENDOR_SPECIFIC) :
    ∃ status, evaluateAttributes totalLen count (type :: len :: rest) s =
      evaluateAttributes totalLen (count + len.toNat) (rest.drop (len.toNat - 2)) { s with acctStatusType := status } := by
  rw [evaluateAttributes.eq_def, if_pos h]
  by_cases htype : type = PW_ACCT_STATUS_TYPE
  · obtain ⟨b, value, rfl⟩ := List.exists_cons_of_ne_nil (hstatus htype)
    simp only [if_neg (UInt8.not_lt.mpr hlen), if_pos htype]
    exact ⟨ntohlByte b, rfl⟩
  · simp only [if_neg (UInt8.not_lt.mpr hlen), if_neg htype, if_neg hvendor]
    exact ⟨s.acctStatusType, rfl⟩

theorem evaluate_of_vendor (hlen : 2 ≤ len) {vsaType vsaLength : UInt8} {value : List UInt8}
    (hrest : rest.drop 4 = vsaType :: vsaLength :: value) :
    evaluateAttributes totalLen count (PW_VENDOR_SPECIFIC :: len :: rest) s =
      evaluateAttributes totalLen (count + len.toNat) (rest.drop (4 + vsaLength.toNat))
        { s with vsaCalls := s.vsaCalls ++ [(vsaType, value, vsaLength)] } := by
  rw [evaluateAttributes.eq_def, if_pos h]
  simp only [if_neg (UInt8.not_lt.mpr hlen), if_neg (show PW_VENDOR_SPECIFIC ≠ PW_ACCT_STATUS_TYPE by decide), if_true, hrest]
  rw [← hrest, List.drop_drop]

end

/-- Where the walk stays inside of the datagram, the stack comes to the end of its loop with the same calls, whatever stands
behind the datagram in its buffer. -/
theorem evaluateAttributes_of_walk {visits : List Visit} {more : List UInt8} {s : RadiusStack}
    (h : walk totalLen ptr count rest = some visits) :
    ∃ s', evaluateAttributes totalLen count (rest ++ more) s = some s' ∧ s'.notedCalls = s.notedCalls ++ calls visits := by
  induction hlength : rest.length using Nat.strongRecOn generalizing rest ptr count more s visits with
  | ind n ih =>
    by_cases hcount : count < totalLen
    · match rest with
      | [] => rw [walk_nil hcount] at h; cases h
      | [type] => rw [walk_singleton hcount] at h; cases h
      | type :: len :: rest =>
        simp only [List.length_cons] at hlength
        rw [List.cons_append, List.cons_append]
        by_cases hlen : 2 ≤ len
        · by_cases hvendor : type = PW_VENDOR_SPECIFIC
          · subst hvendor
            by_cases hexists : ∃ vsaType vsaLength value, rest.drop 4 = vsaType :: vsaLength :: value
            · obtain ⟨vsaType, vsaLength, value, hrest⟩ := hexists
              rw [walk_of_vendor hcount hlen rfl hrest] at h
              obtain ⟨visits', hvisits, hcalls⟩ := exists_of_map_eq_some h
              have hfour := congrArg List.length hrest
              rw [List.length_drop, List.length_cons, List.length_cons] at hfour
              have hrest' : (rest ++ more).drop 4 = vsaType :: vsaLength :: (value ++ more) := by
                rw [List.drop_append_of_le_length (by omega), hrest]
                rfl
              rw [evaluate_of_vendor hcount hlen hrest', List.drop_append]
              obtain ⟨s', hs', hnoted⟩ := ih _ (by rw [List.length_drop]; omega) hvisits rfl
              refine ⟨s', hs', ?_⟩
              rw [hnoted, hcalls, ← List.append_assoc]
              simp [notedCalls, calls]
            · rw [walk_vendor_eq_none hcount hlen rfl hexists] at h
              cases h
          · by_cases hstatus : type = PW_ACCT_STATUS_TYPE → rest ≠ []
            · rw [walk_of_passed hcount hlen hstatus hvendor] at h
              obtain ⟨visits', hvisits, hcalls⟩ := exists_of_map_eq_some h
              have hstatus' : type = PW_ACCT_STATUS_TYPE → rest ++ more ≠ [] := fun htype => by simp [hstatus htype]
              obtain ⟨status, hevaluate⟩ := evaluate_of_passed (s := s) hcount hlen hstatus' hvendor
              rw [hevaluate, List.drop_append, hcalls]
              exact ih _ (by rw [List.length_drop]; omega) hvisits rfl
            · obtain ⟨htype, rfl⟩ : type = PW_ACCT_STATUS_TYPE ∧ rest = [] := by simpa using hstatus
              rw [walk_status_nil hcount hlen htype] at h
              cases h
        · have hshort := UInt8.not_le.mp hlen
          rw [walk_of_short hcount hshort] at h
          obtain ⟨visits', hvisits, hcalls⟩ := exists_of_map_eq_some h
          rw [evaluate_of_short hcount hshort, hcalls]
          exact ih _ (by omega) hvisits rfl
    · rw [walk_end hcount] at h
      obtain rfl := Option.some.inj h
      rw [evaluateAttributes.eq_def, if_neg hcount]
      exact ⟨s, rfl, (List.append_nil _).symm⟩

/-! ## The datagram -/

/-- The walk over a datagram stays inside of it and agrees with itself exactly if the attributes are well formed. -/
theorem walksInside_iff (d : List UInt8) (hlength : lengthOf d = d.length) :
    WalksInside d ↔ WellFormed (d.drop sizeofAcctHdr) := by
  rw [WalksInside, hlength]
  exact walks_iff List.length_drop

/-- A reply with a status and a vendor attribute for the billing model, whose value is not there. -/
theorem walksInside_iff_reply :
    WalksInside ([5, 1, 0, 34] ++ List.replicate 16 0 ++ [40, 6, 0, 0, 0, 1, 26, 9, 0, 0, 3, 231, 5, 3]) ↔
      WellFormed [40, 6, 0, 0, 0, 1, 26, 9, 0, 0, 3, 231, 5, 3] :=
  walksInside_iff _ (by decide)

/-- An attribute of length 0: the pointer goes on, the count does not. -/
theorem not_walksInside : ∃ d, d = [5, 1, 0, 22] ++ List.replicate 16 0 ++ [1, 0] ∧ lengthOf d = d.length ∧ ¬WalksInside d := by
  refine ⟨_, rfl, by decide, fun h => ?_⟩
  have hwalk : Walks 22 20 20 [1, 0] := h
  rw [walks_iff_of_step (walk_of_short (by decide) (by decide))] at hwalk
  exact absurd hwalk.1.1 (by decide)

end RadiusStack

end Vocal.Cdr
