import Mathlib.Data.List.Basic

/-!
# Framing a stream

A reader gets a stream in chunks and looks at what it has so far: it waits for more, or takes a
complete message off the front. `Frames look ms` says that the reader decides right about every
prefix of what is left of the stream, before each message of `ms`. Then it extracts exactly `ms`,
however the stream is cut (`feed_flatten`).
-/

namespace Vocal.Framing

variable {α : Type}

/-- What the reader makes of the elements it has. -/
inductive Verdict
  | fails
  | waits
  | complete (n : Nat)
  deriving DecidableEq, Repr

variable (look : List α → Verdict)

/-- Takes complete messages off the front until the reader waits: what is left, and the messages.
There is no result if the reader fails or does not end. -/
def extract : Nat → List α → Option (List α × List (List α))
  | 0, _ => none
  | fuel + 1, buf =>
    match look buf with
    | .fails => none
    | .waits => some (buf, [])
    | .complete n => (extract fuel (buf.drop n)).map fun (rest, ms) => (rest, buf.take n :: ms)

/-- A chunk arrives. -/
def feed (s : Option (List α × List (List α))) (chunk : List α) : Option (List α × List (List α)) :=
  s.bind fun (buf, ms) =>
    (extract look ((buf ++ chunk).length + 1) (buf ++ chunk)).map fun (rest, ms') => (rest, ms ++ ms')

/-- The reader decides right about every prefix of the stream `ms`, from each of its messages on. -/
def Frames : List (List α) → Prop
  | [] => look [] = .waits
  | m :: ms => 0 < m.length ∧
    (∀ j, look ((m ++ ms.flatten).take j) = if j < m.length then .waits else .complete m.length) ∧
    Frames ms

/-- The first message of the stream is not complete in `buf`. -/
def Incomplete (ms : List (List α)) (buf : List α) : Prop :=
  ∀ m ms', ms = m :: ms' → buf.length < m.length

variable {look}

theorem extract_frames {ms : List (List α)} (hframes : Frames look ms) :
    ∀ {buf rest : List α} {fuel : Nat}, buf ++ rest = ms.flatten → buf.length < fuel →
      ∃ done left buf', ms = done ++ left ∧ extract look fuel buf = some (buf', done) ∧
        buf' ++ rest = left.flatten ∧ Frames look left ∧ Incomplete left buf' := by
  induction ms with
  | nil =>
    intro buf rest fuel hstream hfuel
    obtain ⟨rfl, rfl⟩ := List.append_eq_nil_iff.mp hstream
    obtain ⟨fuel, rfl⟩ := Nat.exists_eq_succ_of_ne_zero (Nat.ne_zero_of_lt hfuel)
    have hwait : look [] = .waits := hframes
    refine ⟨[], [], [], rfl, ?_, rfl, hframes, ?_⟩
    · rw [extract, hwait]
    · rintro m ms' hnil
      cases hnil
  | cons m ms ih =>
    intro buf rest fuel hstream hfuel
    obtain ⟨fuel, rfl⟩ := Nat.exists_eq_succ_of_ne_zero (Nat.ne_zero_of_lt hfuel)
    obtain ⟨hpos, hlook, hrest⟩ := hframes
    rw [List.flatten_cons] at hstream
    have hbuf : buf = (m ++ ms.flatten).take buf.length := by
      rw [← hstream, List.take_left]
    have hverdict := hlook buf.length
    rw [← hbuf] at hverdict
    by_cases hlt : buf.length < m.length
    · rw [if_pos hlt] at hverdict
      refine ⟨[], m :: ms, buf, rfl, ?_, hstream, ⟨hpos, hlook, hrest⟩, ?_⟩
      · rw [extract, hverdict]
      · rintro m' ms' heq
        obtain ⟨rfl, _⟩ := List.cons.inj heq
        exact hlt
    · rw [if_neg hlt] at hverdict
      have hle : m.length ≤ buf.length := by omega
      have htake : buf.take m.length = m := by
        have := congrArg (List.take m.length) hstream
        rwa [List.take_append_of_le_length hle, List.take_left] at this
      have hdrop : buf.drop m.length ++ rest = ms.flatten := by
        have := congrArg (List.drop m.length) hstream
        rwa [List.drop_append_of_le_length hle, List.drop_left] at this
      have hfuel' : (buf.drop m.length).length < fuel := by
        rw [List.length_drop]
        omega
      obtain ⟨done, left, buf', hms, hextract, hleft, hframes', hincomplete⟩ := ih hrest hdrop hfuel'
      refine ⟨m :: done, left, buf', by rw [hms]; rfl, ?_, hleft, hframes', hincomplete⟩
      simp only [extract, hverdict, hextract, htake, Option.map_some]

theorem foldl_feed {chunks : List (List α)} :
    ∀ {left out : List (List α)} {buf : List α}, Frames look left → Incomplete left buf →
      buf ++ chunks.flatten = left.flatten →
      chunks.foldl (feed look) (some (buf, out)) = some ([], out ++ left) := by
  induction chunks with
  | nil =>
    intro left out buf _ hincomplete hstream
    rw [List.flatten_nil, List.append_nil] at hstream
    cases left with
    | nil => simp_all
    | cons m ms =>
      -- the whole stream is there, so its first message is complete
      have hlt := hincomplete m ms rfl
      rw [hstream, List.flatten_cons, List.length_append] at hlt
      omega
  | cons chunk chunks ih =>
    intro left out buf hframes _ hstream
    rw [List.flatten_cons, ← List.append_assoc] at hstream
    obtain ⟨done, left', buf', rfl, hextract, hleft, hframes', hincomplete⟩ :=
      extract_frames hframes hstream (Nat.lt_succ_self _)
    rw [List.foldl_cons, show feed look (some (buf, out)) chunk = some (buf', out ++ done) by
      rw [feed, Option.bind_some]
      simp only [hextract, Option.map_some], ih hframes' hincomplete hleft, List.append_assoc]

/-- **Framing does not depend on the chunks.** -/
theorem feed_flatten {ms chunks : List (List α)} (hframes : Frames look ms)
    (hstream : chunks.flatten = ms.flatten) :
    chunks.foldl (feed look) (some ([], [])) = some ([], ms) := by
  cases ms with
  | nil => exact foldl_feed hframes (fun _ _ h => by cases h) hstream
  | cons m ms =>
    refine foldl_feed hframes ?_ hstream
    rintro m' ms' heq
    obtain ⟨rfl, _⟩ := List.cons.inj heq
    exact hframes.1

end Vocal.Framing
