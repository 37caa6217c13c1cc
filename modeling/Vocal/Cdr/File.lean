import Vocal.Cdr.Billing
import Vocal.Cdr.Format

/-!
# The billing file

`CdrFileHandler` writes one line for each record and reads the lines back through a buffer, which a read fills with
as many characters as the system gives. `readFile_writeFile` says that the records come back, and behind them the
empty record of the read that meets the end of the file.
-/

namespace Vocal.Cdr

open CdrCallEvent

variable {w : Nat}

/-! ## Writing -/

/-- `sizeof(buffer)` in `writeCdr`. -/
def sizeofLine : Nat := 2048

/-- What `CdrFileHandler::writeCdr` writes to the file, when the line and its end fit into the buffer. -/
def writeCdr (r : CdrRadius w) : Option (List Char) :=
  if r.dumpFlds.length < sizeofLine then some (r.dumpFlds ++ ['\n']) else none

/-- A file with one line for each record. -/
def writeFile (rs : List (CdrRadius w)) : Option (List Char) := (rs.mapM writeCdr).map List.flatten

/-! ## Reading through the buffer -/

/-- `sizeof(m_readBuffer)`. -/
def sizeofReadBuffer : Nat := 1024

/-- `CdrFileHandler`: what is left in the read buffer, what was not read from the file yet, the number of reads
and whether the end was met. -/
structure CdrFileHandler where
  buffer : List Char := []
  file : List Char
  reads : Nat := 0
  eof : Bool := false
  deriving DecidableEq, Repr

namespace CdrFileHandler

variable (sizes : Nat → Nat)

/-- `CdrFileHandler::readChar`. A read gives some of what is left of the file, at most the size of the buffer;
one that was interrupted is made again. -/
def readChar (f : CdrFileHandler) : Char × CdrFileHandler :=
  match f.buffer with
  | c :: rest => (c, { f with buffer := rest })
  | [] =>
    let n := max 1 (min (sizes f.reads) sizeofReadBuffer)
    match f.file.take n with
    | [] => ('\x00', { f with reads := f.reads + 1, eof := true })
    | c :: rest => (c, { f with buffer := rest, file := f.file.drop n, reads := f.reads + 1 })

/-- The characters that are left, in the buffer and in the file. -/
def rest (f : CdrFileHandler) : List Char := f.buffer ++ f.file

theorem readChar_cases (f : CdrFileHandler) :
    (f.rest = [] ∧ (f.readChar sizes).1 = '\x00' ∧ (f.readChar sizes).2.rest = [] ∧
      (f.readChar sizes).2.eof = true) ∨
    ∃ c rest, f.rest = c :: rest ∧ (f.readChar sizes).1 = c ∧ (f.readChar sizes).2.rest = rest ∧
      (f.readChar sizes).2.eof = f.eof := by
  cases hbuffer : f.buffer with
  | cons c buffer => exact Or.inr ⟨c, buffer ++ f.file, by simp [rest, hbuffer], by simp [readChar, hbuffer, rest]⟩
  | nil =>
    cases hfile : f.file with
    | nil => exact Or.inl (by simp [rest, readChar, hbuffer, hfile])
    | cons c file =>
      obtain ⟨n, hn⟩ : ∃ n, max 1 (min (sizes f.reads) sizeofReadBuffer) = n + 1 := ⟨_, (Nat.succ_pred (by omega)).symm⟩
      refine Or.inr ⟨c, file, by simp [rest, hbuffer, hfile], ?_⟩
      simp [readChar, hbuffer, hfile, hn, rest]

theorem length_rest_readChar {f : CdrFileHandler} (h : (f.readChar sizes).1 ≠ '\x00') :
    (f.readChar sizes).2.rest.length < f.rest.length := by
  obtain ⟨-, hzero, -⟩ | ⟨c, rest, hrest, -, hnext, -⟩ := readChar_cases sizes f
  · exact absurd hzero h
  · rw [hrest, hnext]
    exact Nat.lt_succ_self _

/-- The loop of `CdrFileHandler::readTokens`. -/
def readTokensLoop (f : CdrFileHandler) (tokens : List (List Char)) (token : List Char) :
    List (List Char) × CdrFileHandler :=
  if (f.readChar sizes).1 = '\x00' then (pushToken tokens token, (f.readChar sizes).2)
  else if (f.readChar sizes).1 = ',' then readTokensLoop (f.readChar sizes).2 (tokens ++ [token]) []
  else if (f.readChar sizes).1 = '\n' then
    (pushToken tokens (token ++ [(f.readChar sizes).1]), (f.readChar sizes).2)
  else readTokensLoop (f.readChar sizes).2 tokens (token ++ [(f.readChar sizes).1])
termination_by f.rest.length
decreasing_by all_goals exact length_rest_readChar sizes (by assumption)

/-- `CdrFileHandler::readTokens`. -/
def readTokens (f : CdrFileHandler) : List (List Char) × CdrFileHandler := f.readTokensLoop sizes [] []

/-- The file without the buffer. -/
def toFile (f : CdrFileHandler) : BillingFile := ⟨f.rest, f.eof⟩

/-- The tokens of a line do not depend on where the buffer ends. -/
theorem readTokensLoop_toFile (f : CdrFileHandler) (tokens : List (List Char)) (token : List Char)
    (heof : f.eof = false) :
    ((f.readTokensLoop sizes tokens token).1, (f.readTokensLoop sizes tokens token).2.toFile) =
      readTokensFrom f.rest tokens token := by
  fun_induction readTokensLoop sizes f tokens token with
  | case1 f tokens token hzero =>
    obtain ⟨hrest, -, hnext, hend⟩ | ⟨c, rest, hrest, hc, hnext, hend⟩ := readChar_cases sizes f
    · rw [hrest, readTokensFrom, toFile, hnext, hend]
    · rw [hrest, readTokensFrom, if_pos (hc ▸ hzero), toFile, hnext, hend, heof]
  | case2 f tokens token hzero hcomma ih =>
    obtain ⟨-, hend, -⟩ | ⟨c, rest, hrest, hc, hnext, hend⟩ := readChar_cases sizes f
    · exact absurd hend hzero
    · rw [ih (hend.trans heof), hrest, hnext, readTokensFrom, if_neg (hc ▸ hzero), if_pos (hc ▸ hcomma)]
  | case3 f tokens token hzero hcomma hline =>
    obtain ⟨-, hend, -⟩ | ⟨c, rest, hrest, hc, hnext, hend⟩ := readChar_cases sizes f
    · exact absurd hend hzero
    · rw [hrest, readTokensFrom, if_neg (hc ▸ hzero), if_neg (hc ▸ hcomma), if_pos (hc ▸ hline), toFile, hnext, hend,
        heof, hc]
  | case4 f tokens token hzero hcomma hline ih =>
    obtain ⟨-, hend, -⟩ | ⟨c, rest, hrest, hc, hnext, hend⟩ := readChar_cases sizes f
    · exact absurd hend hzero
    · rw [ih (hend.trans heof), hrest, hnext, readTokensFrom, if_neg (hc ▸ hzero), if_neg (hc ▸ hcomma),
        if_neg (hc ▸ hline), hc]

/-- The records that are read as long as `eof` does not hold, as in `CdrBilling::sendBillingRecords`. -/
def readRecords (w : Nat) : Nat → CdrFileHandler → List (CdrRadius w)
  | 0, _ => []
  | fuel + 1, f =>
    if f.eof then []
    else ({} : CdrRadius w).setValues (f.readTokens sizes).1 :: readRecords w fuel (f.readTokens sizes).2

theorem readRecords_toFile (fuel : Nat) (f : CdrFileHandler) :
    f.readRecords sizes w fuel = Cdr.readRecords w fuel f.toFile := by
  induction fuel generalizing f with
  | zero => rfl
  | succ fuel ih =>
    rw [readRecords, Cdr.readRecords]
    by_cases heof : f.eof = true
    · rw [if_pos heof, if_pos (by exact heof)]
    · have htokens := readTokensLoop_toFile sizes f [] [] (Bool.eq_false_iff.mpr heof)
      rw [if_neg heof, if_neg (by exact heof), ih, readTokens, Cdr.readTokens]
      have hrest : f.toFile.rest = f.rest := rfl
      rw [hrest, ← htokens]

/-- All records of a file: each read takes a character, and the last one ends at the end of the file. -/
def readFile (w : Nat) (contents : List Char) : List (CdrRadius w) :=
  ({ file := contents } : CdrFileHandler).readRecords sizes w (contents.length + 2)

end CdrFileHandler

/-! ## The lines -/

/-- The character is part of a token. -/
def Plain (c : Char) : Prop := c ≠ '\x00' ∧ c ≠ ',' ∧ c ≠ '\n'

instance (c : Char) : Decidable (Plain c) := inferInstanceAs (Decidable (_ ∧ _ ∧ _))

-- the characters of the text are gone through, not all characters
instance (x : List Char) : Decidable (∀ c ∈ x, Plain c) := List.decidableBAll Plain x

theorem readTokensFrom_plain {x : List Char} (hx : ∀ c ∈ x, Plain c) (rest : List Char) (tokens : List (List Char))
    (token : List Char) : readTokensFrom (x ++ rest) tokens token = readTokensFrom rest tokens (token ++ x) := by
  induction x generalizing token with
  | nil => rw [List.nil_append, List.append_nil]
  | cons c x ih =>
    obtain ⟨hzero, hcomma, hline⟩ := hx c (List.mem_cons_self ..)
    rw [List.cons_append, readTokensFrom, if_neg hzero, if_neg hcomma, if_neg hline,
      ih fun c hc => hx c (List.mem_cons_of_mem _ hc), List.append_assoc, List.singleton_append]

theorem readTokensFrom_line {l : List (List Char)} {x : List Char} (hx : ∀ y ∈ l ++ [x], ∀ c ∈ y, Plain c)
    (rest : List Char) (tokens : List (List Char)) :
    readTokensFrom (List.intercalate [','] (l ++ [x]) ++ '\n' :: rest) tokens [] =
      (tokens ++ l ++ [x ++ ['\n']], ⟨rest, false⟩) := by
  induction l generalizing tokens with
  | nil =>
    rw [List.nil_append, List.intercalate_singleton, readTokensFrom_plain (hx x (by simp)), readTokensFrom,
      if_neg (by decide), if_neg (by decide), if_pos rfl, pushToken, if_neg (by simp), List.append_nil, List.nil_append]
  | cons y l ih =>
    have hne : l ++ [x] ≠ [] := by simp
    rw [List.cons_append, List.intercalate_cons_of_ne_nil hne, List.append_assoc, List.append_assoc,
      readTokensFrom_plain (hx y (by simp)), List.nil_append, List.singleton_append, readTokensFrom,
      if_neg (by decide), if_pos rfl, ih fun z hz => hx z (List.mem_cons_of_mem _ hz)]
    simp

/-! ## The records -/

namespace CdrRadius

variable {r : CdrRadius w}

/-- The numbers of a record. -/
def numbers (r : CdrRadius w) : List Nat :=
  [r.gwStartTime.toNat, r.gwStartTimeMsec, r.gwEndTime.toNat, r.gwEndTimeMsec, r.gwStartRing.toNat, r.gwStartRingMsec,
    r.billingDuration, r.billingDurationMsec]

/-- The record can be a line: its texts end within their arrays and hold no separator, its enumerations have
declared values and its numbers are below 2^31. -/
structure Writable (r : CdrRadius w) : Prop where
  event : ∀ code, r.callEvent ≠ .other code
  texts_fit : ∀ p ∈ r.texts, p.1.length < p.2 ∧ ∀ c ∈ p.1, Plain c
  numbers_fit : ∀ n ∈ r.numbers, n < 2 ^ 31
  lines_fit : ∀ n ∈ [r.originatorLine, r.terminatorLine], -2 ^ 15 ≤ n ∧ n < 2 ^ 15
  callType_mem : r.callType ∈ ['V', 'F', 'D']
  callParties_mem : r.callParties ∈ ([1, 2, 3, 10, 11, 20] : List Int)
  callDisconnect_mem : r.callDisconnect ∈ ['N', 'D', 'A', 'B', 'E']
  callDirection_mem : r.callDirection ∈ ['I', 'O']

end CdrRadius

theorem stringToEnum_enumToString {e : CdrCallEvent} (h : ∀ code, e ≠ .other code) :
    stringToEnum (enumToString e) = e := by
  cases e with
  | other code => exact absurd rfl (h code)
  | _ => decide

theorem strncpy_of_lt {x : List Char} {size : Nat} (h : x.length < size) : strncpy x size = x :=
  List.take_of_length_le h.le

theorem two_pow_31_le {w : Nat} (hw : 32 ≤ w) : (2 : Int) ^ 31 ≤ 2 ^ (w - 1) := by
  have hnat : 2 ^ 31 ≤ 2 ^ (w - 1) := Nat.pow_le_pow_right (by decide) (by omega)
  exact_mod_cast hnat

theorem ofInt_strtol_decimal (hw : 32 ≤ w) {t : BitVec w} (h : t.toNat < 2 ^ 31) :
    BitVec.ofInt w (strtol w (decimal t.toNat)) = t := by
  have hpow := two_pow_31_le hw
  rw [strtol_decimal (by omega) (by omega), BitVec.ofInt_natCast, BitVec.ofNat_toNat, BitVec.setWidth_eq]

theorem toNat_atoi_decimal (hw : 32 ≤ w) {n : Nat} (h : n < 2 ^ 31) :
    (BitVec.ofInt 32 (atoi w (decimal n))).toNat = n := by
  rw [atoi_decimal hw (by omega) (by omega), BitVec.ofInt_natCast, BitVec.toNat_ofNat, Nat.mod_eq_of_lt (by omega)]

theorem toInt_atoi_decimal (hw : 32 ≤ w) {n : Int} (h : -2 ^ 15 ≤ n ∧ n < 2 ^ 15) :
    (BitVec.ofInt 16 (atoi w (decimal n))).toInt = n := by
  rw [atoi_decimal hw (by omega) (by omega), BitVec.toInt_ofInt]
  exact Int.bmod_eq_of_le (by omega) (by omega)

namespace CdrRadius

variable {r : CdrRadius w}

theorem setValues_fields (hw : 32 ≤ w) (h : r.Writable) :
    ({} : CdrRadius w).setValues (r.fields.dropLast ++ [[r.callDirection] ++ ['\n']]) = r := by
  have htext : ∀ x size, (x, size) ∈ r.texts → strncpy x size = x :=
    fun x size hx => strncpy_of_lt (h.texts_fit (x, size) hx).1
  have hnumber : ∀ n ∈ r.numbers, (BitVec.ofInt 32 (atoi w (decimal n))).toNat = n :=
    fun n hn => toNat_atoi_decimal hw (h.numbers_fit n hn)
  have htime : ∀ t : BitVec w, t.toNat ∈ r.numbers → BitVec.ofInt w (strtol w (decimal t.toNat)) = t :=
    fun t ht => ofInt_strtol_decimal hw (h.numbers_fit _ ht)
  have hline : ∀ n ∈ [r.originatorLine, r.terminatorLine], (BitVec.ofInt 16 (atoi w (decimal n))).toInt = n :=
    fun n hn => toInt_atoi_decimal hw (h.lines_fit n hn)
  have hparties : atoi w (decimal r.callParties) = r.callParties := by
    have hmem := h.callParties_mem
    simp only [List.mem_cons, List.not_mem_nil, or_false] at hmem
    exact atoi_decimal hw (by omega) (by omega)
  simp only [setValues, setters, fields, List.dropLast, List.cons_append, List.nil_append, List.zip_cons_cons,
    List.zip_nil_right, List.foldl_cons, List.foldl_nil, stringToEnum_enumToString h.event, List.headD_cons, hparties]
  simp only [htext _ _ (show (r.callId, 256) ∈ r.texts by simp [texts]),
    htext _ _ (show (r.userId, 128) ∈ r.texts by simp [texts]),
    htext _ _ (show (r.ANI, 32) ∈ r.texts by simp [texts]),
    htext _ _ (show (r.DTMFCalledNum, 32) ∈ r.texts by simp [texts]),
    htext _ _ (show (r.E164CalledNum, 32) ∈ r.texts by simp [texts]),
    htext _ _ (show (r.originatorIp, 24) ∈ r.texts by simp [texts]),
    htext _ _ (show (r.terminatorIp, 24) ∈ r.texts by simp [texts]),
    htime _ (show r.gwStartTime.toNat ∈ r.numbers by simp [numbers]),
    htime _ (show r.gwEndTime.toNat ∈ r.numbers by simp [numbers]),
    htime _ (show r.gwStartRing.toNat ∈ r.numbers by simp [numbers]),
    hnumber _ (show r.gwStartTimeMsec ∈ r.numbers by simp [numbers]),
    hnumber _ (show r.gwEndTimeMsec ∈ r.numbers by simp [numbers]),
    hnumber _ (show r.gwStartRingMsec ∈ r.numbers by simp [numbers]),
    hnumber _ (show r.billingDuration ∈ r.numbers by simp [numbers]),
    hnumber _ (show r.billingDurationMsec ∈ r.numbers by simp [numbers]),
    hline _ (show r.originatorLine ∈ [r.originatorLine, r.terminatorLine] by simp),
    hline _ (show r.terminatorLine ∈ [r.originatorLine, r.terminatorLine] by simp)]

/-! ### Fields hold no separators -/

theorem plain_of_isNumeric {c : Char} (h : isNumeric c = true) : Plain c := by
  refine ⟨?_, ?_, ?_⟩ <;> rintro rfl <;> revert h <;> decide

theorem plain_decimal (n : Int) : ∀ c ∈ decimal n, Plain c :=
  fun _ hc => plain_of_isNumeric (isNumeric_of_mem_decimal hc)

theorem plain_triple {a b c : List Char} {sep : Char} (hsep : Plain sep) (ha : ∀ x ∈ a, isNumeric x = true)
    (hb : ∀ x ∈ b, isNumeric x = true) (hc : ∀ x ∈ c, isNumeric x = true) :
    ∀ x ∈ a ++ sep :: b ++ sep :: c, Plain x := by
  intro x hx
  simp only [List.mem_append, List.mem_cons] at hx
  rcases hx with (hx | rfl | hx) | rfl | hx
  · exact plain_of_isNumeric (ha x hx)
  · exact hsep
  · exact plain_of_isNumeric (hb x hx)
  · exact hsep
  · exact plain_of_isNumeric (hc x hx)

theorem plain_dateText (t : Tm) : ∀ c ∈ dateText t, Plain c :=
  plain_triple (by decide) (fun _ => isNumeric_of_mem_decimalPadded) (fun _ => isNumeric_of_mem_decimalPadded)
    fun _ => isNumeric_of_mem_decimalPadded

theorem plain_timeText (t : Tm) : ∀ c ∈ timeText t, Plain c :=
  plain_triple (by decide) (fun _ => isNumeric_of_mem_decimalPadded) (fun _ => isNumeric_of_mem_decimalPadded)
    fun _ => isNumeric_of_mem_decimalPadded

theorem plain_durationText (r : CdrRadius w) : ∀ c ∈ r.durationText, Plain c :=
  plain_triple (by decide) (fun _ => isNumeric_of_mem_decimalPadded) (fun _ => isNumeric_of_mem_decimalPadded)
    fun _ => isNumeric_of_mem_decimalPadded

theorem plain_enumToString (e : CdrCallEvent) : ∀ c ∈ enumToString e, Plain c := by
  cases e with
  | other code =>
    show ∀ c ∈ "CALL_UNKNOWN".toList, Plain c
    decide
  | _ => decide

theorem plain_fields (h : r.Writable) : ∀ y ∈ r.fields, ∀ c ∈ y, Plain c := by
  have htext : ∀ x size, (x, size) ∈ r.texts → ∀ c ∈ x, Plain c := fun x size hx => (h.texts_fit (x, size) hx).2
  have htype : ∀ c ∈ ['V', 'F', 'D'], Plain c := by decide
  have hend : ∀ c ∈ ['N', 'D', 'A', 'B', 'E'], Plain c := by decide
  have hdirection : ∀ c ∈ ['I', 'O'], Plain c := by decide
  simp only [fields, List.forall_mem_cons]
  exact ⟨plain_enumToString _, htext _ 256 (by simp [texts]), htext _ 128 (by simp [texts]),
    htext _ 32 (by simp [texts]), htext _ 32 (by simp [texts]), htext _ 32 (by simp [texts]),
    plain_dateText _, plain_timeText _, plain_decimal _, plain_decimal _, plain_dateText _, plain_timeText _,
    plain_decimal _, plain_decimal _, plain_decimal _, plain_decimal _, plain_durationText r, plain_decimal _,
    plain_decimal _, htext _ 24 (by simp [texts]), plain_decimal _, htext _ 24 (by simp [texts]), plain_decimal _,
    ⟨htype _ h.callType_mem, by simp⟩, plain_decimal _, ⟨hend _ h.callDisconnect_mem, by simp⟩,
    ⟨hdirection _ h.callDirection_mem, by simp⟩, by simp⟩

/-! ### Lines fit -/

theorem length_intercalate (l : List (List Char)) (c : Char) :
    (List.intercalate [c] l).length ≤ (l.map List.length).sum + l.length := by
  induction l with
  | nil => exact Nat.le_refl 0
  | cons x l ih =>
    cases l with
    | nil =>
      rw [List.intercalate_singleton]
      simp
    | cons y l =>
      rw [List.intercalate_cons_cons, List.length_append, List.length_append]
      simp only [List.map_cons, List.sum_cons, List.length_cons, List.length_nil] at ih ⊢
      omega

theorem length_dateText {t : Int} (hlow : -2 ^ 31 ≤ t) (hhigh : t < 2 ^ 31) : (dateText (gmtime t)).length = 10 := by
  obtain ⟨hyear, hmon, hday, -⟩ := gmtime_bounds hlow hhigh
  exact length_triple (length_decimalPadded (by decide) (by omega) (by omega))
    (length_decimalPadded (by decide) (by omega) (by omega)) (length_decimalPadded (by decide) (by omega) (by omega))

theorem length_enumToString (e : CdrCallEvent) : (enumToString e).length ≤ 13 := by
  cases e with
  | other code =>
    show "CALL_UNKNOWN".toList.length ≤ 13
    decide
  | _ => decide

theorem toInt_of_lt (hw : 32 ≤ w) {t : BitVec w} (h : t.toNat < 2 ^ 31) : -2 ^ 31 ≤ t.toInt ∧ t.toInt < 2 ^ 31 := by
  have hpow : 2 * 2 ^ 31 ≤ 2 ^ w := by
    rw [← Nat.pow_succ']
    exact Nat.pow_le_pow_right (by decide) hw
  rw [BitVec.toInt_eq_toNat_of_lt (by omega)]
  omega

theorem length_durationText (h : r.Writable) : r.durationText.length ≤ 40 := by
  have hbound : ∀ width n, n < 2 ^ 31 → (decimalPadded width (toInt32 n)).length ≤ width + 10 := by
    intro width n hn
    have hint : toInt32 n = n := by
      rw [toInt32, BitVec.toInt_eq_toNat_of_lt (by simp; omega), BitVec.toNat_ofNat, Nat.mod_eq_of_lt (by omega)]
    have hlen : (decimal (n : Int)).length ≤ 10 := by
      rw [decimal, if_pos (by omega)]
      exact length_toDigits_le (by decide) (by simp; omega)
    rw [hint, decimalPadded, if_pos (by omega), List.length_append, List.length_replicate]
    omega
  have hduration := h.numbers_fit r.billingDuration (by simp [numbers])
  have hmsec := h.numbers_fit r.billingDurationMsec (by simp [numbers])
  have hfirst := hbound 3 (r.billingDuration / 60) (by omega)
  have hsecond := hbound 2 (r.billingDuration % 60) (by omega)
  have hthird := hbound 2 r.billingDurationMsec hmsec
  simp only [durationText, List.length_append, List.length_cons]
  omega

theorem length_dumpFlds (hw : 32 ≤ w) (h : r.Writable) : r.dumpFlds.length < sizeofLine := by
  have hevent := length_enumToString r.callEvent
  have htexts := h.texts_fit
  have hnumbers := h.numbers_fit
  have hlines := h.lines_fit
  have hparties := h.callParties_mem
  simp only [texts, List.forall_mem_cons] at htexts
  simp only [numbers, List.forall_mem_cons] at hnumbers
  simp only [List.mem_cons, List.not_mem_nil, or_false] at hlines hparties
  obtain ⟨⟨hcallId, -⟩, ⟨huserId, -⟩, ⟨hANI, -⟩, ⟨hDTMF, -⟩, ⟨hE164, -⟩, ⟨horiginator, -⟩, ⟨hterminator, -⟩, -⟩ := htexts
  obtain ⟨hstart, hstartMsec, hend, hendMsec, hring, hringMsec, hduration, hdurationMsec, -⟩ := hnumbers
  have hdec : ∀ n : Nat, n < 2 ^ 31 → (decimal n).length ≤ 11 :=
    fun n hn => length_decimal_le (k := 10) (by decide) (by omega) (by omega)
  have hshort : ∀ n : Int, -2 ^ 15 ≤ n ∧ n < 2 ^ 15 → (decimal n).length ≤ 11 :=
    fun n hn => length_decimal_le (k := 10) (by decide) (by omega) (by omega)
  have hstartDate := toInt_of_lt hw hstart
  have hendDate := toInt_of_lt hw hend
  have hlen := length_intercalate r.fields ','
  simp only [fields, List.map_cons, List.map_nil, List.sum_cons, List.sum_nil, List.length_cons, List.length_nil,
    length_dateText hstartDate.1 hstartDate.2, length_timeText hstartDate.1 hstartDate.2,
    length_dateText hendDate.1 hendDate.2, length_timeText hendDate.1 hendDate.2] at hlen
  have h1 := hdec _ hstart
  have h2 := hdec _ hstartMsec
  have h3 := hdec _ hend
  have h4 := hdec _ hendMsec
  have h5 := hdec _ hring
  have h6 := hdec _ hringMsec
  have h7 := hdec _ hduration
  have h8 := hdec _ hdurationMsec
  have h9 := hshort _ (hlines r.originatorLine (Or.inl rfl))
  have h10 := hshort _ (hlines r.terminatorLine (Or.inr rfl))
  have h11 := hshort r.callParties (by omega)
  have h12 := length_durationText h
  rw [dumpFlds, sizeofLine, fields]
  omega

theorem readTokensFrom_dumpFlds (hw : 32 ≤ w) (h : r.Writable) (rest : List Char) :
    ({} : CdrRadius w).setValues (readTokensFrom (r.dumpFlds ++ '\n' :: rest) [] []).1 = r ∧
      (readTokensFrom (r.dumpFlds ++ '\n' :: rest) [] []).2 = ⟨rest, false⟩ := by
  have hfields : r.fields = r.fields.dropLast ++ [[r.callDirection]] := rfl
  have hline := readTokensFrom_line (l := r.fields.dropLast) (x := [r.callDirection])
    (hfields ▸ plain_fields h) rest []
  rw [← hfields] at hline
  rw [dumpFlds, hline]
  exact ⟨setValues_fields hw h, rfl⟩

end CdrRadius

/-! ## The file -/

variable {rs : List (CdrRadius w)}

theorem writeFile_eq_some (hw : 32 ≤ w) (h : ∀ r ∈ rs, r.Writable) :
    writeFile rs = some (rs.flatMap fun r => r.dumpFlds ++ ['\n']) := by
  have hwrite : rs.mapM writeCdr = some (rs.map fun r => r.dumpFlds ++ ['\n']) := by
    induction rs with
    | nil => rfl
    | cons r rs ih =>
      rw [List.mapM_cons, ih fun r hr => h r (List.mem_cons_of_mem _ hr), writeCdr,
        if_pos (CdrRadius.length_dumpFlds hw (h r (List.mem_cons_self ..)))]
      rfl
  rw [writeFile, hwrite]
  rfl

/-- The records of the lines, and behind them one that is empty: the end of the file is met by a read that finds
no token. -/
theorem readRecords_lines (hw : 32 ≤ w) (h : ∀ r ∈ rs, r.Writable) (more : Nat) :
    readRecords w (rs.length + 2 + more) ⟨rs.flatMap fun r => r.dumpFlds ++ ['\n'], false⟩ = rs ++ [({} : CdrRadius w)] := by
  induction rs with
  | nil =>
    have hfuel : ([] : List (CdrRadius w)).length + 2 + more = (1 + more) + 1 := by
      simp only [List.length_nil]
      omega
    have hnext : 1 + more = more + 1 := Nat.add_comm 1 more
    rw [hfuel, readRecords, hnext, readRecords]
    rfl
  | cons r rs ih =>
    have hfuel : (r :: rs).length + 2 + more = rs.length + 2 + more + 1 := by
      simp only [List.length_cons]
      omega
    have hrest : (r :: rs).flatMap (fun r => r.dumpFlds ++ ['\n']) =
        r.dumpFlds ++ '\n' :: rs.flatMap fun r => r.dumpFlds ++ ['\n'] := by
      simp
    obtain ⟨hvalues, hfile⟩ := CdrRadius.readTokensFrom_dumpFlds hw (h r (List.mem_cons_self ..))
      (rs.flatMap fun r => r.dumpFlds ++ ['\n'])
    rw [hfuel, hrest, readRecords, if_neg (by simp), readTokens, hvalues, hfile,
      ih fun r hr => h r (List.mem_cons_of_mem _ hr)]
    rfl

theorem length_le_contents (rs : List (CdrRadius w)) :
    rs.length ≤ (rs.flatMap fun r => r.dumpFlds ++ ['\n']).length := by
  induction rs with
  | nil => exact Nat.le_refl 0
  | cons r rs ih =>
    simp only [List.flatMap_cons, List.length_append, List.length_cons, List.length_nil]
    omega

theorem readFile_lines (hw : 32 ≤ w) (sizes : Nat → Nat) (h : ∀ r ∈ rs, r.Writable) :
    CdrFileHandler.readFile sizes w (rs.flatMap fun r => r.dumpFlds ++ ['\n']) = rs ++ [({} : CdrRadius w)] := by
  have hle := length_le_contents rs
  obtain ⟨more, hmore⟩ := Nat.exists_eq_add_of_le hle
  rw [CdrFileHandler.readFile, CdrFileHandler.readRecords_toFile, hmore,
    show rs.length + more + 2 = rs.length + 2 + more by omega]
  exact readRecords_lines hw h more

/-- The records of a file that was written come back in their order, wherever the read buffer ends, and behind
them comes the empty record of the read that meets the end of the file. -/
theorem readFile_writeFile {w : Nat} (hw : 32 ≤ w) (sizes : Nat → Nat) {rs : List (CdrRadius w)}
    (h : ∀ r ∈ rs, r.Writable) :
    ∃ contents, writeFile rs = some contents ∧ CdrFileHandler.readFile sizes w contents = rs ++ [({} : CdrRadius w)] :=
  ⟨_, writeFile_eq_some hw h, readFile_lines hw sizes h⟩

/-- The bill of a call. -/
def sampleBill : CdrRadius 32 :=
  { callId := "c1".toList, userId := "5555".toList, callEvent := CALL_BILL, gwStartTime := 100, gwEndTime := 160,
    billingDuration := 60, originatorIp := "10.0.0.1".toList, originatorLine := -1, callType := 'V', callParties := 1,
    callDisconnect := 'N', callDirection := 'O' }

theorem writable_sampleBill : sampleBill.Writable :=
  ⟨by intro code; exact fun h => (by cases h), by decide, by decide, by decide, by decide, by decide, by decide,
    by decide⟩

theorem readFile_writeFile_sampleBill :
    (∀ r ∈ [sampleBill], r.Writable) ∧
      ∃ contents, writeFile [sampleBill] = some contents ∧
        CdrFileHandler.readFile (fun _ => 7) 32 contents = [sampleBill] ++ [({} : CdrRadius 32)] := by
  have h : ∀ r ∈ [sampleBill], r.Writable := by
    intro r hr
    rw [List.mem_singleton.mp hr]
    exact writable_sampleBill
  exact ⟨h, readFile_writeFile (by decide) (fun _ => 7) h⟩

/-- A file with one record is read as two records. -/
theorem not_readFile_writeFile : ¬ ∀ (w : Nat) (sizes : Nat → Nat) (rs : List (CdrRadius w)), 32 ≤ w →
    (∀ r ∈ rs, r.Writable) →
    ∃ contents, writeFile rs = some contents ∧ CdrFileHandler.readFile sizes w contents = rs := by
  intro hall
  have h : ∀ r ∈ [sampleBill], r.Writable := by
    intro r hr
    rw [List.mem_singleton.mp hr]
    exact writable_sampleBill
  obtain ⟨contents, hwrite, hread⟩ := hall 32 (fun _ => 1024) [sampleBill] (by decide) h
  rw [writeFile_eq_some (by decide) h] at hwrite
  obtain rfl := Option.some.inj hwrite
  rw [readFile_lines (by decide) _ h] at hread
  exact absurd hread (by decide)

end Vocal.Cdr
