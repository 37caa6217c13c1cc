import Vocal.Lib.Decimal
import Vocal.Rtsp.CharData

/-!
# The lines of what is received

`splitLine` takes the first line off a text. `getNextLine` finds this line if all its characters have entries in the mask and
its end lies in what was received.
-/

namespace Vocal.Rtsp

open Sip (Data CRLF)
open Scan (scan scan_append scan_eq_ok_iff)
open Cut (cut cut_append cut_eq_none_iff cut_eq_some_iff)

/-- Every character has an entry in the masks. -/
def Ascii (text : Data) : Prop := ∀ c ∈ text, c.toNat < 128

theorem ascii_of_all {text : Data} (h : (text.all fun c => c.toNat < 128) = true) : Ascii text := by simpa [Ascii] using h

instance (text : Data) : Decidable (Ascii text) := inferInstanceAs (Decidable (∀ c ∈ text, c.toNat < 128))

theorem ascii_append {x y : Data} : Ascii (x ++ y) ↔ Ascii x ∧ Ascii y := List.forall_mem_append

theorem ascii_nil : Ascii [] := by simp [Ascii]

theorem ascii_crlf : Ascii CRLF := by simp [Ascii, CRLF]

/-! ### Masks -/

variable {mask : Char → Bool} {text x rest : Data} {bytesDecoded : Nat}

theorem entry_eq_ok_iff {c : Char} {b : Bool} : entry mask c = .ok b ↔ c.toNat < 128 ∧ mask c = b := by
  rw [entry]
  split <;> simp_all

theorem eq_outOfBounds_of_entry {c : Char} {e : Stop} (h : entry mask c = .error e) : e = .outOfBounds := by
  rw [entry] at h
  split at h
  · cases h
  · exact (Except.error.inj h).symm

theorem scan_entry_eq_ok_iff :
    scan (entry mask) text = .ok (x, rest) ↔
      text = x ++ rest ∧ Ascii x ∧ (∀ c ∈ x, mask c = false) ∧ ∀ c ∈ rest.head?, c.toNat < 128 ∧ mask c = true := by
  simp only [scan_eq_ok_iff, entry_eq_ok_iff, Ascii, imp_and, forall_and, and_assoc]

theorem eq_outOfBounds_of_scan {e : Stop} (h : scan (entry mask) text = .error e) : e = .outOfBounds := by
  obtain ⟨c, -, hc⟩ := Scan.exists_of_scan_eq_error h
  exact eq_outOfBounds_of_entry hc

theorem exists_scan (h : Ascii text) : ∃ x rest, scan (entry mask) text = .ok (x, rest) := by
  cases hscan : scan (entry mask) text with
  | ok x => exact ⟨x.1, x.2, rfl⟩
  | error e =>
    obtain ⟨c, hc, hentry⟩ := Scan.exists_of_scan_eq_error hscan
    rw [entry, if_pos (h c hc)] at hentry
    cases hentry

/-! ### Digits -/

theorem toNat_lt_of_isDigit {c : Char} (hc : c.isDigit = true) : c.toNat < 128 :=
  Nat.lt_of_le_of_lt (Char.isDigit_iff_toNat.mp hc).2 (by decide)

theorem scan_digits (hx : ∀ d ∈ x, d.isDigit = true) (hrest : ∀ d ∈ rest.head?, d.toNat < 128 ∧ d.isDigit = false) :
    scan (fun c => (entry myMaskDigit c).map not) (x ++ rest) = .ok (x, rest) := by
  refine scan_append (fun d hd => ?_) fun d hd => ?_
  · rw [entry, if_pos (toNat_lt_of_isDigit (hx d hd)), myMaskDigit, hx d hd]
    rfl
  · obtain ⟨hlow, hdigit⟩ := hrest d hd
    rw [entry, if_pos hlow, myMaskDigit, hdigit]
    rfl

theorem foldl_digits (hx : ∀ d ∈ x, d.isDigit = true) (value : Nat) :
    x.foldl (fun value d => value * 10 + BitVec.ofNat 32 (d.toNat - '0'.toNat)) (BitVec.ofNat 32 value) =
      BitVec.ofNat 32 (digits x value) := by
  induction x generalizing value with
  | nil => rfl
  | cons d x ih =>
    have hd := hx d (List.mem_cons_self ..)
    rw [List.foldl_cons, digits, if_pos hd, ← ih fun e he => hx e (List.mem_cons_of_mem _ he)]
    congr 1
    rw [Nat.mul_comm, BitVec.ofNat_add, BitVec.ofNat_mul]
    rfl

namespace CharDataParser

variable {p : CharDataParser} {stop : Char → Except Stop Bool}

theorem parseUntil_of_scan (h : scan stop p.text = .ok (x, rest)) :
    p.parseUntil stop =
      if rest = [] ∧ p.beyond > 0 then .error .outOfBounds else .ok (x, rest ≠ [], { p with text := rest }) := by
  rw [parseUntil, h]
  rfl

theorem parseUntil_of_scan_error {e : Stop} (h : scan stop p.text = .error e) : p.parseUntil stop = .error e := by
  rw [parseUntil, h]
  rfl

end CharDataParser

/-! ### Lines -/

/-- The first line of a text with its end, and the rest. -/
def splitLine (text : Data) : Option (Data × Data) :=
  (cut myMaskEol text).map fun c =>
    if c.2.1 = '\r' ∧ c.2.2.head? = some '\n' then (c.1 ++ CRLF, c.2.2.tail) else (c.1 ++ [c.2.1], c.2.2)

theorem myMaskEol_eq_true_iff {c : Char} : myMaskEol c = true ↔ c = '\r' ∨ c = '\n' := by simp [myMaskEol]

theorem noEol_of_all (h : (x.all fun c => !myMaskEol c) = true) : ∀ c ∈ x, myMaskEol c = false := by
  simpa using h

theorem splitLine_eq_none_iff : splitLine text = none ↔ ∀ c ∈ text, myMaskEol c = false := by
  rw [splitLine, Option.map_eq_none_iff, cut_eq_none_iff]

theorem splitLine_crlf (hx : ∀ c ∈ x, myMaskEol c = false) : splitLine (x ++ (CRLF ++ rest)) = some (x ++ CRLF, rest) := by
  have hcut : cut myMaskEol (x ++ (CRLF ++ rest)) = some (x, '\r', '\n' :: rest) := cut_append hx rfl
  rw [splitLine, hcut]
  rfl

theorem splitLine_eol {c : Char} (hx : ∀ c ∈ x, myMaskEol c = false) (hc : myMaskEol c = true)
    (hcrlf : ¬(c = '\r' ∧ rest.head? = some '\n')) : splitLine (x ++ c :: rest) = some (x ++ [c], rest) := by
  have hcut : cut myMaskEol (x ++ c :: rest) = some (x, c, rest) := cut_append hx hc
  rw [splitLine, hcut, Option.map_some, if_neg hcrlf]

/-- The characters in front of the end of a line, and this end. -/
theorem splitLine_eq_some {aLine : Data} (h : splitLine text = some (aLine, rest)) :
    ∃ x, (∀ c ∈ x, myMaskEol c = false) ∧
      (aLine = x ++ CRLF ∧ text = x ++ (CRLF ++ rest) ∨
        ∃ c, myMaskEol c = true ∧ ¬(c = '\r' ∧ rest.head? = some '\n') ∧ aLine = x ++ [c] ∧ text = x ++ c :: rest) := by
  rw [splitLine] at h
  obtain ⟨⟨x, c, r⟩, hcut, heq⟩ := Option.map_eq_some_iff.mp h
  obtain ⟨rfl, hx, hc⟩ := cut_eq_some_iff.mp hcut
  refine ⟨x, hx, ?_⟩
  by_cases hcrlf : c = '\r' ∧ r.head? = some '\n'
  · rw [if_pos hcrlf, Prod.mk.injEq] at heq
    obtain ⟨r', rfl⟩ : ∃ r', r = '\n' :: r' := by
      cases r with
      | nil => cases hcrlf.2
      | cons d r' => exact ⟨r', by rw [Option.some.inj hcrlf.2]⟩
    obtain ⟨rfl, rfl⟩ := heq
    exact .inl ⟨rfl, by rw [hcrlf.1]; rfl⟩
  · rw [if_neg hcrlf, Prod.mk.injEq] at heq
    obtain ⟨rfl, rfl⟩ := heq
    exact .inr ⟨c, hc, hcrlf, rfl, rfl⟩

theorem eq_append_of_splitLine {aLine : Data} (h : splitLine text = some (aLine, rest)) : text = aLine ++ rest := by
  obtain ⟨x, -, ⟨rfl, rfl⟩ | ⟨c, -, -, rfl, rfl⟩⟩ := splitLine_eq_some h <;> simp

theorem ne_nil_of_splitLine {aLine : Data} (h : splitLine text = some (aLine, rest)) : aLine ≠ [] := by
  obtain ⟨x, -, ⟨rfl, -⟩ | ⟨c, -, -, rfl, -⟩⟩ := splitLine_eq_some h <;> simp [CRLF]

theorem length_lt_of_splitLine {aLine : Data} (h : splitLine text = some (aLine, rest)) : rest.length < text.length := by
  have hpos := List.length_pos_iff.mpr (ne_nil_of_splitLine h)
  rw [eq_append_of_splitLine h, List.length_append]
  omega

/-- A line that the parser finds in front of other characters: where no other follows and the parser takes its end to lie
beyond, it looks behind a carriage return. -/
def Readable (bytesDecoded : Nat) (aLine behind : Data) : Prop :=
  Ascii aLine ∧ ¬(behind = [] ∧ aLine.getLast? = some '\r' ∧ bytesDecoded > 0)

instance (bytesDecoded : Nat) (aLine behind : Data) : Decidable (Readable bytesDecoded aLine behind) :=
  inferInstanceAs (Decidable (_ ∧ _))

namespace CharDataParser

theorem getNextLine_crlf (hascii : Ascii x) (hx : ∀ c ∈ x, myMaskEol c = false) :
    getNextLine ⟨x ++ (CRLF ++ rest), bytesDecoded⟩ = .ok (x ++ CRLF, true, ⟨rest, bytesDecoded⟩) := by
  have hscan : scan (entry myMaskEol) (x ++ (CRLF ++ rest)) = .ok (x, CRLF ++ rest) :=
    scan_entry_eq_ok_iff.mpr ⟨rfl, hascii, hx, by simp [CRLF, myMaskEol]⟩
  rw [getNextLine, parseUntil_of_scan hscan, if_neg (by simp [CRLF])]
  rfl

theorem getNextLine_eol {c : Char} (hascii : Ascii x) (hx : ∀ c ∈ x, myMaskEol c = false) (hc : myMaskEol c = true)
    (hcrlf : ¬(c = '\r' ∧ rest.head? = some '\n')) (hend : ¬(rest = [] ∧ c = '\r' ∧ bytesDecoded > 0)) :
    getNextLine ⟨x ++ c :: rest, bytesDecoded⟩ = .ok (x ++ [c], true, ⟨rest, bytesDecoded⟩) := by
  have hlow : c.toNat < 128 := by
    rcases myMaskEol_eq_true_iff.mp hc with rfl | rfl <;> decide
  have hscan : scan (entry myMaskEol) (x ++ c :: rest) = .ok (x, c :: rest) :=
    scan_entry_eq_ok_iff.mpr ⟨rfl, hascii, hx, by simp [hlow, hc]⟩
  rw [getNextLine, parseUntil_of_scan hscan, if_neg (by simp)]
  rcases myMaskEol_eq_true_iff.mp hc with rfl | rfl
  · cases rest with
    | nil =>
      have hzero : ¬bytesDecoded > 0 := fun hpos => hend ⟨rfl, rfl, hpos⟩
      simp [bind, Except.bind, hzero, pure, Except.pure]
    | cons d rest =>
      have hd : d ≠ '\n' := fun h => hcrlf ⟨rfl, by rw [h]; rfl⟩
      simp [bind, Except.bind, hd, pure, Except.pure]
  · rfl

theorem getNextLine_of_splitLine_none (h : splitLine text = none) (hascii : Ascii text) :
    getNextLine ⟨text, 0⟩ = .ok (text, false, ⟨[], 0⟩) := by
  have hscan : scan (entry myMaskEol) text = .ok (text, []) :=
    scan_entry_eq_ok_iff.mpr ⟨by rw [List.append_nil], hascii, splitLine_eq_none_iff.mp h, by simp⟩
  rw [getNextLine, parseUntil_of_scan hscan, if_neg (by simp)]
  rfl

theorem getNextLine_of_splitLine {aLine : Data} (h : splitLine text = some (aLine, rest))
    (hread : Readable bytesDecoded aLine rest) :
    getNextLine ⟨text, bytesDecoded⟩ = .ok (aLine, true, ⟨rest, bytesDecoded⟩) := by
  obtain ⟨x, hx, ⟨rfl, rfl⟩ | ⟨c, hc, hcrlf, rfl, rfl⟩⟩ := splitLine_eq_some h
  · exact getNextLine_crlf (ascii_append.mp hread.1).1 hx
  · refine getNextLine_eol (ascii_append.mp hread.1).1 hx hc hcrlf ?_
    rintro ⟨hrest, rfl, hpos⟩
    exact hread.2 ⟨hrest, by simp, hpos⟩

theorem eq_outOfBounds_of_parseUntil {mask : Char → Bool} {p : CharDataParser} {e : Stop}
    (h : p.parseUntil (entry mask) = .error e) : e = .outOfBounds := by
  cases hscan : scan (entry mask) p.text with
  | error e' =>
    rw [parseUntil_of_scan_error hscan, Except.error.injEq] at h
    exact h ▸ eq_outOfBounds_of_scan hscan
  | ok r =>
    obtain ⟨x, rest⟩ := r
    rw [parseUntil_of_scan hscan] at h
    split at h
    · exact (Except.error.inj h).symm
    · cases h

theorem eq_outOfBounds_of_getNextLine {p : CharDataParser} {e : Stop} (h : p.getNextLine = .error e) :
    e = .outOfBounds := by
  rw [getNextLine] at h
  cases hparse : p.parseUntil (entry myMaskEol) with
  | error e' =>
    rw [hparse] at h
    obtain rfl : e' = e := Except.error.inj h
    exact eq_outOfBounds_of_parseUntil hparse
  | ok r =>
    rw [hparse] at h
    simp only [bind, Except.bind] at h
    split at h
    · cases h
    · split at h
      · exact (Except.error.inj h).symm
      · cases h
    · cases h
    · cases h

theorem splitLine_of_getNextLine {r : Data × Bool × CharDataParser} (h : getNextLine ⟨text, bytesDecoded⟩ = .ok r) :
    (splitLine text = none ∧ Ascii text ∧ bytesDecoded = 0) ∨
      ∃ aLine rest, splitLine text = some (aLine, rest) ∧ Readable bytesDecoded aLine rest := by
  cases hscan : scan (entry myMaskEol) text with
  | error e =>
    rw [getNextLine, parseUntil_of_scan_error hscan] at h
    cases h
  | ok y =>
    obtain ⟨x, rest⟩ := y
    obtain ⟨rfl, hascii, hx, hrest⟩ := scan_entry_eq_ok_iff.mp hscan
    rw [getNextLine, parseUntil_of_scan hscan] at h
    cases rest with
    | nil =>
      have hzero : ¬bytesDecoded > 0 := by
        intro hpos
        rw [if_pos ⟨rfl, hpos⟩] at h
        cases h
      rw [List.append_nil]
      exact .inl ⟨splitLine_eq_none_iff.mpr hx, hascii, by omega⟩
    | cons c rest =>
      obtain ⟨hlow, hc⟩ := hrest c rfl
      refine .inr ?_
      by_cases hcrlf : c = '\r' ∧ rest.head? = some '\n'
      · obtain ⟨rfl, hhead⟩ := hcrlf
        obtain ⟨r, rfl⟩ := List.head?_eq_some_iff.mp hhead
        exact ⟨x ++ CRLF, r, splitLine_crlf hx, ascii_append.mpr ⟨hascii, ascii_crlf⟩, by simp [CRLF]⟩
      · refine ⟨x ++ [c], rest, splitLine_eol hx hc hcrlf, ascii_append.mpr ⟨hascii, by simpa [Ascii] using hlow⟩, ?_⟩
        rintro ⟨rfl, hlast, hpos⟩
        obtain rfl : c = '\r' := by simpa using hlast
        simp [bind, Except.bind, hpos, throw, throwThe, MonadExceptOf.throw] at h

theorem getNextLine_of_not_readable {aLine : Data} (h : splitLine text = some (aLine, rest))
    (hread : ¬Readable bytesDecoded aLine rest) : getNextLine ⟨text, bytesDecoded⟩ = .error .outOfBounds := by
  cases hline : getNextLine ⟨text, bytesDecoded⟩ with
  | error e => rw [eq_outOfBounds_of_getNextLine hline]
  | ok r =>
    rcases splitLine_of_getNextLine hline with ⟨hnone, -, -⟩ | ⟨l, r, hsome, hread'⟩
    · rw [h] at hnone
      cases hnone
    · obtain ⟨rfl, rfl⟩ : aLine = l ∧ rest = r := by simpa [h] using hsome
      exact absurd hread' hread

theorem getNextLine_of_not_ascii (h : splitLine text = none) (hread : ¬(Ascii text ∧ bytesDecoded = 0)) :
    getNextLine ⟨text, bytesDecoded⟩ = .error .outOfBounds := by
  cases hline : getNextLine ⟨text, bytesDecoded⟩ with
  | error e => rw [eq_outOfBounds_of_getNextLine hline]
  | ok r =>
    rcases splitLine_of_getNextLine hline with ⟨-, hok⟩ | ⟨l, r, hsome, -⟩
    · exact absurd hok hread
    · rw [h] at hsome
      cases hsome

theorem eq_of_getNextLine {p p' : CharDataParser} {aLine : Data} (h : p.getNextLine = .ok (aLine, false, p')) :
    aLine = p.text ∧ p'.text = [] := by
  rcases splitLine_of_getNextLine h with ⟨hsplit, hascii, hzero⟩ | ⟨l, rest, hsplit, hread⟩
  · obtain ⟨text, k⟩ := p
    subst hzero
    rw [getNextLine_of_splitLine_none hsplit hascii] at h
    obtain ⟨rfl, rfl⟩ : text = aLine ∧ ⟨[], 0⟩ = p' := by simpa using h
    exact ⟨rfl, rfl⟩
  · rw [getNextLine_of_splitLine hsplit hread] at h
    simp at h

theorem splitLine_of_getNextLine_true {p p' : CharDataParser} {aLine : Data} (h : p.getNextLine = .ok (aLine, true, p')) :
    splitLine p.text = some (aLine, p'.text) ∧ Readable p.beyond aLine p'.text := by
  rcases splitLine_of_getNextLine h with ⟨hsplit, hascii, hzero⟩ | ⟨l, rest, hsplit, hread⟩
  · obtain ⟨text, k⟩ := p
    subst hzero
    rw [getNextLine_of_splitLine_none hsplit hascii] at h
    simp at h
  · rw [getNextLine_of_splitLine hsplit hread] at h
    obtain ⟨rfl, rfl⟩ : l = aLine ∧ ⟨rest, p.beyond⟩ = p' := by simpa using h
    exact ⟨hsplit, hread⟩

theorem ascii_of_getNextLine {p p' : CharDataParser} {aLine : Data} {found : Bool}
    (h : p.getNextLine = .ok (aLine, found, p')) : Ascii aLine := by
  cases found with
  | true => exact (splitLine_of_getNextLine_true h).2.1
  | false =>
    rw [(eq_of_getNextLine h).1]
    rcases splitLine_of_getNextLine h with ⟨-, hascii, -⟩ | ⟨l, rest, hsplit, hread⟩
    · exact hascii
    · rw [getNextLine_of_splitLine hsplit hread] at h
      simp at h

theorem progress_of_getNextLine {p p' : CharDataParser} {aLine : Data} {found : Bool}
    (h : p.getNextLine = .ok (aLine, found, p')) :
    p'.text <:+ p.text ∧ (p.text ≠ [] → p'.text.length < p.text.length) := by
  cases found with
  | false =>
    rw [(eq_of_getNextLine h).2]
    exact ⟨List.nil_suffix, List.length_pos_iff.mpr⟩
  | true =>
    obtain ⟨hsplit, -⟩ := splitLine_of_getNextLine_true h
    exact ⟨⟨aLine, (eq_append_of_splitLine hsplit).symm⟩, fun _ => length_lt_of_splitLine hsplit⟩

theorem text_ne_nil_of_getNextLine {p p' : CharDataParser} {aLine : Data} (h : p.getNextLine = .ok (aLine, true, p')) :
    p.text ≠ [] := by
  intro htext
  have hsplit := (splitLine_of_getNextLine_true h).1
  rw [htext] at hsplit
  cases hsplit

end CharDataParser

end Vocal.Rtsp
