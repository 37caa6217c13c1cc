import Vocal.Sip.Message

/-!
# Transaction ids

`SipTransactionId` keys a message by three texts: the call leg (To key, From key and Call-ID run
together), the CSeq number with the branch of the first Via, and the CSeq method. The local part of
the Call-ID is kept beside them; it picks the call container and `operator==` does not compare it.

An id is meant to stand for the To key, the From key, the Call-ID, the CSeq number, the branch of
the first Via and the method. The method is a level of its own. The other fields are run together,
with only a `V` between the CSeq number and the branch, so two messages share an id as soon as one
differs from the other by text moved over a border between fields (`Collide`).
-/

namespace Vocal.Sip

structure SipTransactionId where
  valid : Bool
  level1 : Data
  level2 : Data
  level3 : Data
  call_id : Data
  deriving DecidableEq, Repr

namespace SipTransactionId

/-- The key of a header url, and of a header without one. -/
def urlKey : Option BaseUrl → Data
  | some url => url.getUniqueKey
  | none => "invalid-url".toList

/-- `SipTransactionId(const SipMsg&)`, from the headers it reads. -/
def ofHeaders (h : SipHeaders) : SipTransactionId where
  valid := h.toUrl.isSome && h.fromUrl.isSome
  level1 := urlKey h.toUrl ++ urlKey h.fromUrl ++ h.callId.getCallIdData
  level2 := h.cseq.cseq ++ ['V'] ++ h.via.branch
  level3 := h.cseq.method
  call_id := h.callId.localid

def ofMsg (m : SipMsg) : SipTransactionId := ofHeaders m.headers

/-- `SipTransactionId::clear`. -/
def cleared : SipTransactionId := ⟨false, [], [], [], []⟩

/-- `operator==`. -/
def equals (a b : SipTransactionId) : Bool :=
  a.valid = b.valid && a.level1 = b.level1 && a.level2 = b.level2 && a.level3 = b.level3

/-- What `operator==` compares. -/
def key (a : SipTransactionId) : Bool × Data × Data × Data := (a.valid, a.level1, a.level2, a.level3)

theorem equals_iff {a b : SipTransactionId} : a.equals b = true ↔ a.key = b.key := by
  simp [equals, key, and_assoc]

end SipTransactionId

/-- A request's id. -/
def SipCommand.transId (c : SipCommand) : SipTransactionId := .ofHeaders c.headers

/-- A response's id. -/
def StatusMsg.transId (s : StatusMsg) : SipTransactionId := .ofHeaders s.headers

@[simp] theorem ofMsg_command (c : SipCommand) : SipTransactionId.ofMsg (.command c) = c.transId := rfl

@[simp] theorem ofMsg_status (s : StatusMsg) : SipTransactionId.ofMsg (.status s) = s.transId := rfl

/-- A response built from a request has the request's id: the To tag is not part of it. -/
@[simp] theorem transId_ofCommand (tag : Data) (c : SipCommand) (code : Int) :
    (StatusMsg.ofCommand tag c code).transId = c.transId := by
  simp only [StatusMsg.transId, SipCommand.transId, StatusMsg.ofCommand]
  split <;> rfl

/-- An INVITE from `b@host` with the Call-ID `localid@z`. -/
def inviteFrom (host localid : Data) : SipCommand where
  type := .SIP_INVITE
  requestUrl := .sipUrl { host := "x".toList, user := some "a".toList }
  headers :=
    { toUrl := some (.sipUrl { host := "x".toList, user := some "a".toList })
      toTag := []
      fromUrl := some (.sipUrl { host := host, user := some "b".toList })
      callId := ⟨localid, "z".toList⟩
      cseq := ⟨"1".toList, INVITE_METHOD⟩
      via := ⟨"UDP".toList, "z9hG4bK7".toList⟩ }

/-! ### What an id says about the message -/

/-- The texts `x`, `y` and `x'`, `y'` differ by a text moved over the border between them. -/
def Shifted (x y x' y' : Data) : Prop :=
  ∃ w, w ≠ [] ∧ ((x' = x ++ w ∧ y = w ++ y') ∨ (x = x' ++ w ∧ y' = w ++ y))

theorem Shifted.ne {x y x' y' : Data} (h : Shifted x y x' y') : x ≠ x' := by
  obtain ⟨w, hw, ⟨rfl, -⟩ | ⟨rfl, -⟩⟩ := h
  · intro heq
    exact hw (List.self_eq_append_right.mp heq)
  · intro heq
    exact hw (List.self_eq_append_right.mp heq.symm)

theorem append_eq_append_iff_shifted {x y x' y' : Data} :
    x ++ y = x' ++ y' ↔ (x = x' ∧ y = y') ∨ Shifted x y x' y' := by
  constructor
  · intro h
    rcases List.append_eq_append_iff.mp h with ⟨w, hx, hy⟩ | ⟨w, hx, hy⟩
    · by_cases hw : w = []
      · subst hw
        exact .inl ⟨by simpa using hx.symm, by simpa using hy⟩
      · exact .inr ⟨w, hw, .inl ⟨hx, hy⟩⟩
    · by_cases hw : w = []
      · subst hw
        exact .inl ⟨by simpa using hx, by simpa using hy.symm⟩
      · exact .inr ⟨w, hw, .inr ⟨hx, hy⟩⟩
  · rintro (⟨rfl, rfl⟩ | ⟨w, -, ⟨rfl, rfl⟩ | ⟨rfl, rfl⟩⟩)
    · rfl
    · rw [List.append_assoc]
    · rw [List.append_assoc]

namespace SipTransactionId

/-- The fields that an id is made of. -/
structure Fields where
  toKey : Data
  fromKey : Data
  callId : Data
  cseq : Data
  branch : Data
  method : Data
  deriving DecidableEq, Repr

def Fields.ofHeaders (h : SipHeaders) : Fields where
  toKey := urlKey h.toUrl
  fromKey := urlKey h.fromUrl
  callId := h.callId.getCallIdData
  cseq := h.cseq.cseq
  branch := h.via.branch
  method := h.cseq.method

/-- If the ids of the messages compare equal, so do all fields that go into them. -/
def Distinguishes (a b : SipMsg) : Prop :=
  (ofMsg a).equals (ofMsg b) = true → Fields.ofHeaders a.headers = Fields.ofHeaders b.headers

/-- The same url presence: both headers have a url in both messages, or in neither. -/
def SameValid (a b : SipHeaders) : Prop :=
  (a.toUrl.isSome && a.fromUrl.isSome) = (b.toUrl.isSome && b.fromUrl.isSome)

/-- Text is moved from the To key to what follows it, or from the From key to the Call-ID. -/
def LegShifted (f g : Fields) : Prop :=
  Shifted f.toKey (f.fromKey ++ f.callId) g.toKey (g.fromKey ++ g.callId) ∨
    (f.toKey = g.toKey ∧ Shifted f.fromKey f.callId g.fromKey g.callId)

def SameLeg (f g : Fields) : Prop :=
  f.toKey = g.toKey ∧ f.fromKey = g.fromKey ∧ f.callId = g.callId

/-- Text is moved from the CSeq number over the `V` to the branch. -/
def StepShifted (f g : Fields) : Prop :=
  Shifted f.cseq ('V' :: f.branch) g.cseq ('V' :: g.branch)

def SameStep (f g : Fields) : Prop := f.cseq = g.cseq ∧ f.branch = g.branch

/-- The messages have the same method, and the rest of the fields of one are those of the other
except for text that is moved over a border. -/
def Collide (a b : SipMsg) : Prop :=
  let f := Fields.ofHeaders a.headers
  let g := Fields.ofHeaders b.headers
  SameValid a.headers b.headers ∧ f.method = g.method ∧
    ((LegShifted f g ∧ (SameStep f g ∨ StepShifted f g)) ∨ (SameLeg f g ∧ StepShifted f g))

theorem level1_eq_iff (f g : Fields) :
    f.toKey ++ f.fromKey ++ f.callId = g.toKey ++ g.fromKey ++ g.callId ↔
      SameLeg f g ∨ LegShifted f g := by
  rw [List.append_assoc, List.append_assoc, append_eq_append_iff_shifted, append_eq_append_iff_shifted]
  unfold SameLeg LegShifted
  tauto

theorem level2_eq_iff (f g : Fields) :
    f.cseq ++ ['V'] ++ f.branch = g.cseq ++ ['V'] ++ g.branch ↔ SameStep f g ∨ StepShifted f g := by
  rw [List.append_assoc, List.append_assoc, append_eq_append_iff_shifted]
  simp only [List.singleton_append, List.cons.injEq, true_and]
  rfl

theorem equals_ofHeaders_iff (a b : SipHeaders) :
    (ofHeaders a).equals (ofHeaders b) = true ↔
      SameValid a b ∧ (Fields.ofHeaders a).method = (Fields.ofHeaders b).method ∧
        (SameLeg (.ofHeaders a) (.ofHeaders b) ∨ LegShifted (.ofHeaders a) (.ofHeaders b)) ∧
        (SameStep (.ofHeaders a) (.ofHeaders b) ∨ StepShifted (.ofHeaders a) (.ofHeaders b)) := by
  rw [← level1_eq_iff, ← level2_eq_iff, equals_iff]
  simp only [key, ofHeaders, Prod.mk.injEq]
  constructor
  · intro h
    obtain ⟨hvalid, hleg, hstep, hmethod⟩ := h
    exact ⟨hvalid, hmethod, hleg, hstep⟩
  · intro h
    obtain ⟨hvalid, hmethod, hleg, hstep⟩ := h
    exact ⟨hvalid, hleg, hstep, hmethod⟩

theorem fields_eq_iff (f g : Fields) :
    f = g ↔ SameLeg f g ∧ SameStep f g ∧ f.method = g.method := by
  cases f
  cases g
  simp only [Fields.mk.injEq, SameLeg, SameStep]
  tauto

theorem LegShifted.not_same {f g : Fields} (h : LegShifted f g) : ¬SameLeg f g := by
  intro ⟨hto, hfrom, _⟩
  rcases h with h | ⟨-, h⟩
  · exact h.ne hto
  · exact h.ne hfrom

theorem StepShifted.not_same {f g : Fields} (h : StepShifted f g) : ¬SameStep f g :=
  fun hsame => Shifted.ne h hsame.1

/-- Exactly the messages that do not collide are told apart by their ids. -/
theorem distinguishes_iff (a b : SipMsg) : Distinguishes a b ↔ ¬Collide a b := by
  have hequal := equals_ofHeaders_iff a.headers b.headers
  unfold Distinguishes
  rw [show (ofMsg a).equals (ofMsg b) = (ofHeaders a.headers).equals (ofHeaders b.headers) from rfl,
    hequal, fields_eq_iff]
  constructor
  · intro hdist ⟨hvalid, hmethod, hshift⟩
    rcases hshift with ⟨hleg, hstep⟩ | ⟨hleg, hstep⟩
    · exact hleg.not_same (hdist ⟨hvalid, hmethod, .inr hleg, hstep⟩).1
    · exact hstep.not_same (hdist ⟨hvalid, hmethod, .inl hleg, .inr hstep⟩).2.1
  · intro hcollide ⟨hvalid, hmethod, hleg, hstep⟩
    rcases hleg with hleg | hleg
    · rcases hstep with hstep | hstep
      · exact ⟨hleg, hstep, hmethod⟩
      · exact absurd ⟨hvalid, hmethod, .inr ⟨hleg, hstep⟩⟩ hcollide
    · exact absurd ⟨hvalid, hmethod, .inl ⟨hleg, hstep⟩⟩ hcollide

/-- Two INVITEs of different calls: the last letter of the From host of one begins the Call-ID of
the other. -/
theorem invites_share_id :
    ¬Distinguishes (.command (inviteFrom "yz".toList "1".toList))
      (.command (inviteFrom "y".toList "z1".toList)) := by
  unfold Distinguishes
  decide

end SipTransactionId

end Vocal.Sip
