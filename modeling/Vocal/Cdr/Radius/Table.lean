import Vocal.Cdr.Radius.Replies

/-!
# The table of pending requests

Each place of the table is empty or holds the request with its id, whatever is created, answered or given up, as
long as nothing is written behind a buffer: the length and the id of a message stand behind its send buffer, and the
table stands behind the receive buffer. What a request that is too long leaves of its message is not looked at.
-/

namespace Vocal.Cdr.RadiusStack

variable {md5 : List UInt8 → Vector UInt8 ACCT_VECTOR_LEN} {retries : Int} {secretKey clientAddr : List UInt8}
  {s s' : RadiusStack}

/-! ## Writes behind a buffer -/

/-- The offsets in the send buffer at which the writes of a request end: those of the values, and behind the
last attribute that of the secret with the NUL of `strcpy`. -/
def writeEnds (secretKey : List UInt8) : Nat → List (UInt8 × List UInt8) → List Nat
  | off, [] => [off + (secretKey.takeWhile (· ≠ 0)).length + 1]
  | off, (type, value) :: rest =>
    (off + 2 + value.length) :: writeEnds secretKey (off + (addAttribute type value).length) rest

/-- What `handleResponse` writes behind the receive buffer: the end of the secret that it puts behind a reply. -/
def spilled (s : RadiusStack) (d : List UInt8) : List UInt8 :=
  if sizeofAcctHdr ≤ d.length ∧ (s.pendingMessages (idOf d)).isSome = true ∧ lengthOf d = d.length then
    s.secretKey.drop (sizeofBuffer - d.length)
  else []

/-- What is written fits: a new request into its buffer, unless no id is free, and a reply that is evaluated
into the receive buffer together with the secret. -/
def Fits (s : RadiusStack) : Op → Prop
  | .create r _ _ _ => (∀ i, (s.pendingMessages i).isSome = true) ∨
      ∀ e ∈ writeEnds s.secretKey sizeofAcctHdr (r.attributes s.clientAddr), e ≤ sizeofBuffer
  | .tick (some d) _ _ => (d.take sizeofBuffer).length < sizeofAcctHdr ∨
      s.pendingMessages (idOf (d.take sizeofBuffer)) = none ∨
      lengthOf (d.take sizeofBuffer) ≠ (d.take sizeofBuffer).length ∨
      (d.take sizeofBuffer).length + s.secretKey.length ≤ sizeofBuffer
  | .tick none _ _ => True

theorem spilled_eq_nil_of_fits {d : List UInt8} {now : Nat} {rvs : UInt8 → Int} (h : s.Fits (.tick (some d) now rvs)) :
    s.spilled (d.take sizeofBuffer) = [] := by
  unfold spilled
  split_ifs with hread
  · obtain ⟨hlen, hpending, hsays⟩ := hread
    have hsome := Option.isSome_iff_ne_none.mp hpending
    rcases h with hshort | hnone | hwrong | hfits
    · omega
    · exact absurd hnone hsome
    · exact absurd hsays hwrong
    · exact List.drop_of_length_le (by omega)
  · rfl

/-! ### The memory of the table -/

/-- How large a pointer is, and where objects stand. -/
structure Host where
  sizeofPointer : Nat
  address : Nat → Vector UInt8 sizeofPointer

namespace Host

variable (host : Host)

def null : List UInt8 := List.replicate host.sizeofPointer 0

/-- The pointer that an `Sptr` holds. -/
def pointer : Option RadiusMessage → List UInt8
  | none => host.null
  | some m => (host.address m.object).toList

/-- The pointer of a place after `spill` was written behind the receive buffer, where the table begins. In front of it
stands, in each place, the pointer to the virtual table of the `Sptr`. -/
def pointerBehind (s : RadiusStack) (spill : List UInt8) (i : UInt8) : List UInt8 :=
  let offset := i.toNat * (2 * host.sizeofPointer) + host.sizeofPointer
  let reached := (spill.drop offset).take host.sizeofPointer
  reached ++ (host.pointer (s.pendingMessages i)).drop reached.length

variable {host}

theorem pointerBehind_of_le {spill : List UInt8} {i : UInt8}
    (h : spill.length ≤ i.toNat * (2 * host.sizeofPointer) + host.sizeofPointer) :
    host.pointerBehind s spill i = host.pointer (s.pendingMessages i) := by
  rw [pointerBehind, List.drop_of_length_le h, List.take_nil]
  rfl

end Host

/-! ## The table along a run -/

/-- The message has the id, in its field and in its header. -/
def HasId (i : UInt8) (m : RadiusMessage) : Prop := m.requestId = i ∧ idOf m.sendBuffer = i

/-- The pointer is null, or points to a message of the table that has the id. -/
def Host.Holds (host : Host) (s : RadiusStack) (i : UInt8) (pointer : List UInt8) : Prop :=
  pointer = host.null ∨ ∃ j m, s.pendingMessages j = some m ∧ pointer = host.pointer (some m) ∧ HasId i m

/-- What a step does to the table: what it writes behind the receive buffer, and what is in the places behind the
step. -/
structure TableKept (host : Host) (md5 : List UInt8 → Vector UInt8 ACCT_VECTOR_LEN) (retries : Int)
    (secretKey clientAddr : List UInt8) (s : RadiusStack) (op : Op) : Prop where
  written : ∀ d now rvs, op = .tick (some d) now rvs →
    ∀ i, host.Holds s i (host.pointerBehind s (s.spilled (d.take sizeofBuffer)) i)
  holds : ∀ s', (machine md5 retries secretKey clientAddr).next (some s) op = some s' → s'.AllPending HasId
  keeps : ∀ r uninitialised now rv, op = .create r uninitialised now rv → ∃ s',
    (machine md5 retries secretKey clientAddr).next (some s) op = some s' ∧
      ∀ i m, s.pendingMessages i = some m → s'.pendingMessages i = some m
  full : ∀ r uninitialised now rv, op = .create r uninitialised now rv → s.findNextId.2 = none →
    ∀ i, (s.pendingMessages i).isSome = true

theorem lasting_hasId : Lasting HasId := fun _ _ _ _ h => h

theorem idOf_request (secretKey : List UInt8) (code id : UInt8) (attributes : List UInt8) :
    idOf (request md5 secretKey code id attributes) = id := rfl

/-- All messages have the ids of their places. -/
def Table (o : Option RadiusStack) : Prop := ∀ s, o = some s → s.AllPending HasId

theorem table_next (o : Option RadiusStack) (op : Op) (ho : Table o) :
    Table ((machine md5 retries secretKey clientAddr).next o op) := by
  intro s' hs'
  cases o with
  | none => cases hs'
  | some s =>
    have hs := ho s rfl
    cases op with
    | create r uninitialised now rv =>
      obtain rfl := Option.some.inj hs'
      refine hs.createMsg lasting_hasId fun id m hid hbuffer => ⟨hid, ?_⟩
      rw [hbuffer, idOf_request]
    | tick d now rvs => exact hs.tick lasting_hasId hs'

theorem table_init : Table (machine md5 retries secretKey clientAddr).init := by
  intro s hs
  obtain rfl := Option.some.inj hs
  exact fun id m h => by cases h

theorem pending_createMsg {code : UInt8} {attributes : List UInt8} {uninitialised now : Nat} {rv : Int} {i : UInt8}
    {m : RadiusMessage} (hm : s.pendingMessages i = some m) :
    (s.createMsg md5 code attributes uninitialised now rv).pendingMessages i = some m := by
  obtain ⟨next, hsame⟩ | ⟨next, id, m', hfree, -, -, -, -, -, hnew⟩ :=
    createMsg_cases md5 s code attributes uninitialised now rv
  · rw [hsame]
    exact hm
  · rw [hnew]
    have hne : i ≠ id := by
      rintro rfl
      rw [hm] at hfree
      cases hfree
    dsimp only
    rw [Function.update_of_ne hne, hm]

theorem Host.holds_pointer {host : Host} (hs : s.AllPending HasId) (i : UInt8) :
    host.Holds s i (host.pointer (s.pendingMessages i)) := by
  cases hm : s.pendingMessages i with
  | none => exact .inl rfl
  | some m => exact .inr ⟨i, m, hm, rfl, hs i m hm⟩

/-- A step whose writes fit keeps the table. -/
theorem tableKept_of_step (host : Host) (hs : s.AllPending HasId) {op : Op} (hfits : s.Fits op) :
    TableKept host md5 retries secretKey clientAddr s op := by
  have htable : Table ((machine md5 retries secretKey clientAddr).next (some s) op) :=
    table_next (some s) op fun s₀ hs₀ => Option.some.inj hs₀ ▸ hs
  refine ⟨?_, htable, ?_, ?_⟩
  · rintro d now rvs rfl i
    rw [spilled_eq_nil_of_fits hfits, Host.pointerBehind_of_le (Nat.zero_le _)]
    exact Host.holds_pointer hs i
  · rintro r uninitialised now rv rfl
    exact ⟨_, rfl, fun i m hm => pending_createMsg hm⟩
  · rintro r uninitialised now rv rfl hid
    obtain ⟨next, o, hnext, -, htaken⟩ := s.findNextId_spec
    rw [hnext] at hid
    exact htaken hid

/-- In every run in which each step's writes fit, each step keeps the table. -/
theorem tableKept_of_fits (host : Host) (md5 : List UInt8 → Vector UInt8 ACCT_VECTOR_LEN) (retries : Int)
    (secretKey clientAddr : List UInt8) (ops : List Op)
    (hfits : (machine md5 retries secretKey clientAddr).Along (fun o op => ∀ s, o = some s → s.Fits op)
      (machine md5 retries secretKey clientAddr).init ops) :
    (machine md5 retries secretKey clientAddr).Along
      (fun o op => ∀ s, o = some s → TableKept host md5 retries secretKey clientAddr s op)
      (machine md5 retries secretKey clientAddr).init ops := by
  refine Machine.Along.imp (I := Table) (fun o op ho _ => table_next o op ho) (fun o op ho hop s hs => ?_)
    ops _ table_init hfits
  exact tableKept_of_step host (ho s hs) (hop s hs)

/-- A host with pointers of eight bytes. -/
def host64 : Host := ⟨8, fun object => #v[0, .ofNat object, 1, 0, 0, 0, 0, 0]⟩

/-- The secret that a stack has from the beginning. -/
def testing123 : List UInt8 := [116, 101, 115, 116, 105, 110, 103, 49, 50, 51]

/-- The first request, and the rest of a run. -/
theorem tableKept_of_fits_started :
    (machine (fun _ => Vector.replicate ACCT_VECTOR_LEN 0) 5 testing123 []).Along
      (fun o op => ∀ s, o = some s →
        TableKept host64 (fun _ => Vector.replicate ACCT_VECTOR_LEN 0) 5 testing123 [] s op)
      (machine (fun _ => Vector.replicate ACCT_VECTOR_LEN 0) 5 testing123 []).init
      [.create .acctOn 0 0 32, .tick (some ([5, 1, 0, 20] ++ List.replicate 16 0)) 0 fun _ => 0] := by
  refine tableKept_of_fits _ _ _ _ _ _ ⟨?_, ?_, trivial⟩
  · rintro s ⟨rfl⟩
    exact .inr (by decide)
  · rintro s ⟨rfl⟩
    exact .inr (.inr (.inr (by decide)))

/-- A reply to the first request that fills the receive buffer, with attributes that are passed over. -/
def fillingReply : List UInt8 := [5, 1, 16, 0] ++ List.replicate 16 0 ++ (List.replicate 1019 [1, 4, 0, 0]).flatten

/-- The last two bytes of the secret are written over the pointer of the first place. -/
theorem not_tableKept : ¬ ∀ (host : Host) (md5 : List UInt8 → Vector UInt8 ACCT_VECTOR_LEN) (retries : Int)
    (secretKey clientAddr : List UInt8) (ops : List Op),
    (machine md5 retries secretKey clientAddr).Along
      (fun o op => ∀ s, o = some s → TableKept host md5 retries secretKey clientAddr s op)
      (machine md5 retries secretKey clientAddr).init ops := by
  intro h
  have hrun := h host64 (fun _ => Vector.replicate ACCT_VECTOR_LEN 0) 5 testing123 []
    [.create .acctOn 0 0 32, .tick (some fillingReply) 0 fun _ => 0]
  have hholds := (hrun.2.1 _ rfl).written fillingReply 0 _ rfl 0
  generalize hs : RadiusStack.createMsg _ _ _ _ _ _ _ = s at hholds
  have hpointer : host64.pointerBehind s (s.spilled (fillingReply.take sizeofBuffer)) 0 = [50, 51, 0, 0, 0, 0, 0, 0] := by
    rw [← hs]
    decide +kernel
  rw [hpointer] at hholds
  rcases hholds with hnull | ⟨j, m, -, haddress, -⟩
  · exact absurd hnull (by decide)
  · exact absurd (List.cons.inj haddress).1 (by decide)

end Vocal.Cdr.RadiusStack
