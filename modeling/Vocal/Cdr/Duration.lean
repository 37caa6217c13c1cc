import Vocal.Cdr.Mind

/-!
# The billed duration

What a record bills when its call ends: the time from the start that is billed, and the text of it in the accounting
message. Both are right of calls of less than six minutes whose milliseconds need no borrow.
-/

namespace Vocal.Cdr

open CdrCallEvent

/-! ## Reading the text -/

/-- The value of a text of digits. -/
def number (text : List Char) : Option Nat :=
  if !text.isEmpty && text.all Char.isDigit then some (digits text 0) else none

/-- The seconds of a text of hours, minutes and seconds, in quotation marks. -/
def seconds (field : List Char) : Option Nat :=
  match (field.filter (· ≠ '"')).splitOn ':' with
  | [h, m, s] => do return 3600 * (← number h) + 60 * (← number m) + (← number s)
  | _ => none

/-- The seconds that the text of a record bills, in its third field. -/
def billedSeconds (text : List Char) : Option Nat := (text.splitOn ';')[2]?.bind seconds

theorem digits_zeros (k : Nat) (text : List Char) : digits (List.replicate k '0' ++ text) 0 = digits text 0 := by
  induction k with
  | zero => rfl
  | succ k ih =>
    rw [List.replicate_succ, List.cons_append, digits, if_pos (by decide)]
    exact ih

theorem isDigit_of_mem_decimalPadded {width : Nat} {n : Int} {c : Char} (hn : 0 ≤ n) (h : c ∈ decimalPadded width n) :
    c.isDigit = true := by
  rw [decimalPadded, if_pos hn, decimal, if_pos hn] at h
  rcases List.mem_append.mp h with h | h
  · rw [List.eq_of_mem_replicate h]
    rfl
  · exact Nat.isDigit_of_mem_toDigits (by decide) (by decide) h

theorem decimalPadded_ne_nil (width : Nat) (n : Int) : decimalPadded width n ≠ [] := by
  rw [decimalPadded]
  split
  · simp [decimal_ne_nil]
  · simp

theorem number_decimalPadded (width : Nat) (n : Int) :
    number (decimalPadded width n) = if 0 ≤ n then some n.toNat else none := by
  have hne : (decimalPadded width n).isEmpty = false := by simp [decimalPadded_ne_nil]
  by_cases hn : 0 ≤ n
  · have hall : (decimalPadded width n).all Char.isDigit = true :=
      List.all_eq_true.mpr fun c hc => isDigit_of_mem_decimalPadded hn hc
    rw [number, hne, hall, if_pos hn, decimalPadded, if_pos hn, digits_zeros, decimal, if_pos hn, digits_toDigits]
    rfl
  · have hall : (decimalPadded width n).all Char.isDigit = false := by
      rw [decimalPadded, if_neg hn]
      rfl
    rw [number, hne, hall, if_neg hn]
    rfl

theorem not_mem_decimalPadded {c : Char} (hc : isNumeric c = false) (width : Nat) (n : Int) : c ∉ decimalPadded width n :=
  fun h => by simp [isNumeric_of_mem_decimalPadded h] at hc

theorem not_mem_decimal {c : Char} (hc : isNumeric c = false) (n : Int) : c ∉ decimal n :=
  fun h => by simp [isNumeric_of_mem_decimal h] at hc

theorem seconds_triple (h m s : Int) :
    seconds ('"' :: (decimalPadded 3 h ++ ':' :: decimalPadded 2 m ++ ':' :: decimalPadded 2 s) ++ ['"']) =
      if 0 ≤ h ∧ 0 ≤ m ∧ 0 ≤ s then some (3600 * h.toNat + 60 * m.toNat + s.toNat) else none := by
  have hkeep : ∀ width n, (decimalPadded width n).filter (· ≠ '"') = decimalPadded width n := fun width n =>
    List.filter_eq_self.mpr fun c hc => by
      simpa using ne_of_mem_of_not_mem hc (not_mem_decimalPadded (by decide) width n)
  have hcolon : ∀ width n, ':' ∉ decimalPadded width n := not_mem_decimalPadded (by decide)
  have hfilter : ('"' :: (decimalPadded 3 h ++ ':' :: decimalPadded 2 m ++ ':' :: decimalPadded 2 s) ++ ['"']).filter
      (· ≠ '"') = decimalPadded 3 h ++ ':' :: (decimalPadded 2 m ++ ':' :: decimalPadded 2 s) := by
    have hquote : (['"'].filter (· ≠ '"') : List Char) = [] := by decide
    rw [List.cons_append, List.filter_cons_of_neg (by decide), List.filter_append, List.filter_append, List.filter_append,
      hkeep, List.filter_cons_of_pos (by decide), hkeep, List.filter_cons_of_pos (by decide), hkeep, hquote,
      List.append_nil, List.append_assoc, List.cons_append]
  have hsplit : (decimalPadded 3 h ++ ':' :: (decimalPadded 2 m ++ ':' :: decimalPadded 2 s)).splitOn ':' =
      [decimalPadded 3 h, decimalPadded 2 m, decimalPadded 2 s] := by
    rw [List.splitOn_append_cons_self_of_not_mem (hcolon 3 h), List.splitOn_append_cons_self_of_not_mem (hcolon 2 m),
      List.splitOn_eq_singleton (hcolon 2 s)]
  rw [seconds, hfilter, hsplit]
  simp only [number_decimalPadded]
  by_cases hh : 0 ≤ h
  · by_cases hm : 0 ≤ m
    · by_cases hs : 0 ≤ s
      · simp [hh, hm, hs]
      · simp [hh, hm, hs]
    · simp [hh, hm]
  · simp [hh]

/-! ## The text of a record -/

/-- The year is an `int`, as `gmtime` needs it. -/
def GmtimeFits (t : Int) : Prop := -2 ^ 31 ≤ (gmtime t).year ∧ (gmtime t).year < 2 ^ 31

instance (t : Int) : Decidable (GmtimeFits t) := inferInstanceAs (Decidable (_ ∧ _))

namespace CdrRadius

variable {w : Nat} {r : CdrRadius w}

theorem not_mem_timeText {c : Char} (hc : isNumeric c = false) (hcolon : c ≠ ':') (t : Tm) : c ∉ timeText t := by
  simp [timeText, not_mem_decimalPadded hc, hcolon]

theorem length_startText_lt (h : GmtimeFits r.gwStartTime.toInt) : r.startText.length < 256 := by
  obtain ⟨hmon, hmday, hhour, hmin, hsec⟩ := gmtime_fields r.gwStartTime.toInt
  have hyear := h
  rw [GmtimeFits] at hyear
  have hword : ∀ n : Int, -2 ^ 31 ≤ n → n < 2 ^ 32 → (decimalPadded 2 n).length ≤ 11 :=
    fun n hlow hhigh => length_decimalPadded_of_word (by decide) hlow hhigh
  have hyear := hword (1900 + (gmtime r.gwStartTime.toInt).year) (by omega) (by omega)
  have hmon := hword ((gmtime r.gwStartTime.toInt).mon + 1) (by omega) (by omega)
  have hmday := hword (gmtime r.gwStartTime.toInt).mday (by omega) (by omega)
  have hhour := hword (gmtime r.gwStartTime.toInt).hour (by omega) (by omega)
  have hmin := hword (gmtime r.gwStartTime.toInt).min (by omega) (by omega)
  have hsec := hword (gmtime r.gwStartTime.toInt).sec (by omega) (by omega)
  simp only [startText, timeText, List.length_append, List.length_cons, List.length_nil]
  omega

theorem length_billingText_lt (hw : w ≤ 64) : r.billingText.length < 256 := by
  have htime : r.gwStartTime.toNat < 2 ^ 64 := r.gwStartTime.isLt.trans_le (Nat.pow_le_pow_right (by decide) hw)
  have hstart : (decimal r.gwStartTime.toNat).length ≤ 20 + 1 := length_decimal_le (by decide) (by omega) (by omega)
  have hduration := toInt32_bounds r.billingDuration
  have hquotient : ((toInt32 r.billingDuration).tdiv 360).natAbs = (toInt32 r.billingDuration).natAbs / 360 :=
    Int.natAbs_tdiv _ _
  have hhour : (decimalPadded 3 ((toInt32 r.billingDuration).tdiv 360)).length ≤ 11 :=
    length_decimalPadded_of_word (by decide) (by omega) (by omega)
  have hmin : (decimalPadded 2 ((r.billingDuration % 360 / 60 : Nat) : Int)).length ≤ 11 :=
    length_decimalPadded_of_word (by decide) (by omega) (by omega)
  have hrest := toInt32_bounds (r.billingDuration - r.billingDuration % 360 / 60 * 60)
  have hsec : (decimalPadded 2 (toInt32 (r.billingDuration - r.billingDuration % 360 / 60 * 60))).length ≤ 11 :=
    length_decimalPadded_of_word (by decide) (by omega) (by omega)
  simp only [billingText, List.length_append, List.length_cons, List.length_nil]
  omega

theorem billedSeconds_mindCdrVsaFormat (hw : w ≤ 64) (h : GmtimeFits r.gwStartTime.toInt) :
    billedSeconds r.mindCdrVsaFormat =
      seconds ('"' :: (decimalPadded 3 ((toInt32 r.billingDuration).tdiv 360) ++
        ':' :: decimalPadded 2 ((r.billingDuration % 360 / 60 : Nat) : Int) ++
        ':' :: decimalPadded 2 (toInt32 (r.billingDuration - r.billingDuration % 360 / 60 * 60))) ++ ['"']) := by
  have hstart : copied r.startText = r.startText :=
    copied_of_not_mem (by simp [startText, nul_not_mem_decimalPadded, nul_not_mem_timeText]) (length_startText_lt h)
  have hbilling : copied r.billingText = r.billingText :=
    copied_of_not_mem (by simp [billingText, nul_not_mem_decimal, nul_not_mem_decimalPadded]) (length_billingText_lt hw)
  have hpadded : ∀ width n, ';' ∉ decimalPadded width n := not_mem_decimalPadded (by decide)
  have htime : ∀ t, ';' ∉ timeText t := not_mem_timeText (by decide) (by decide)
  generalize hfield : '"' :: (decimalPadded 3 ((toInt32 r.billingDuration).tdiv 360) ++
    ':' :: decimalPadded 2 ((r.billingDuration % 360 / 60 : Nat) : Int) ++
    ':' :: decimalPadded 2 (toInt32 (r.billingDuration - r.billingDuration % 360 / 60 * 60))) ++ ['"'] = field
  have hsemicolon : ';' ∉ field := by
    rw [← hfield]
    simp [hpadded]
  have hfields : r.billingText = decimal r.gwStartTime.toNat ++ ';' :: (field ++ [';']) := by
    rw [← hfield]
    simp [billingText]
  obtain ⟨date, hdate, hdate₀⟩ : ∃ date, r.startText = date ++ [';'] ∧ ';' ∉ date := by
    refine ⟨_, (List.append_assoc _ ['"'] [';']).symm, ?_⟩
    simp [hpadded, htime]
  have htext : r.mindCdrVsaFormat =
      date ++ ';' :: (decimal r.gwStartTime.toNat ++ ';' :: (field ++ ';' :: (copied r.gatewayText ++ copied r.partyText))) := by
    rw [mindCdrVsaFormat, hstart, hbilling, hdate, hfields]
    simp
  rw [billedSeconds, htext, List.splitOn_append_cons_self_of_not_mem hdate₀,
    List.splitOn_append_cons_self_of_not_mem (not_mem_decimal (by decide) _),
    List.splitOn_append_cons_self_of_not_mem hsemicolon]
  rfl

theorem toInt32_eq {n : Nat} (h : n < 2 ^ 32) : toInt32 n = if n < 2 ^ 31 then (n : Int) else (n : Int) - 2 ^ 32 := by
  rw [toInt32, BitVec.toInt_eq_toNat_cond, BitVec.toNat_ofNat, Nat.mod_eq_of_lt h]
  split_ifs <;> omega

/-- What is called hours are six minutes each, and the minutes alone are taken off the seconds: the text is right of less
than six minutes. -/
theorem billedSeconds_eq_iff (hw : w ≤ 64) (h : GmtimeFits r.gwStartTime.toInt) (hlt : r.billingDuration < 2 ^ 32) :
    billedSeconds r.mindCdrVsaFormat = some r.billingDuration ↔ r.billingDuration < 360 := by
  have hduration := toInt32_eq hlt
  have hrest := toInt32_eq (n := r.billingDuration - r.billingDuration % 360 / 60 * 60) (by omega)
  have hminutes : 0 ≤ ((r.billingDuration % 360 / 60 : Nat) : Int) := Int.natCast_nonneg _
  rw [billedSeconds_mindCdrVsaFormat hw h, seconds_triple]
  rcases Nat.lt_or_ge r.billingDuration (2 ^ 31) with hsmall | hlarge
  · have hhours : (toInt32 r.billingDuration).tdiv 360 = ((r.billingDuration / 360 : Nat) : Int) := by
      rw [hduration, if_pos hsmall]
      rfl
    rw [if_pos (by omega), Option.some.injEq]
    omega
  · -- as an `int` the duration is negative, and a sign stays in the hours or in the seconds
    have hhours : (toInt32 r.billingDuration).tdiv 360 = -(((2 ^ 32 - r.billingDuration) / 360 : Nat) : Int) := by
      have hneg : toInt32 r.billingDuration = -((2 ^ 32 - r.billingDuration : Nat) : Int) := by
        rw [hduration, if_neg (by omega)]
        omega
      rw [hneg, Int.neg_tdiv]
      rfl
    have hsign : ¬(0 ≤ (toInt32 r.billingDuration).tdiv 360 ∧ 0 ≤ ((r.billingDuration % 360 / 60 : Nat) : Int) ∧
        0 ≤ toInt32 (r.billingDuration - r.billingDuration % 360 / 60 * 60)) := by
      rw [hhours, hrest]
      split_ifs <;> omega
    rw [if_neg hsign]
    exact iff_of_false (by simp) (by omega)

end CdrRadius

/-! ## The billed start -/

/-- A time with its milliseconds. -/
structure Moment (w : Nat) where
  sec : BitVec w
  msec : Nat

/-- The milliseconds up to a moment. -/
def Moment.total {w : Nat} (m : Moment w) : Nat := m.sec.toNat * 1000 + m.msec

variable {w : Nat}

/-- The start that an event reports. -/
def CdrClient.start (cli : CdrClient w) : Moment w :=
  if cli.callEvent = CALL_RING then ⟨cli.gwStartRing, cli.gwStartRingMsec⟩ else ⟨cli.gwStartTime, cli.gwStartTimeMsec⟩

/-- The start of the last of the events. -/
def lastStart (events : List (CdrClient w)) : Moment w := (events.getLast?.map CdrClient.start).getD ⟨0, 0⟩

/-- The last ring. -/
def lastRing (events : List (CdrClient w)) : Moment w := lastStart (events.filter (·.callEvent = CALL_RING))

/-- The start that is billed: the last ring, if there is one with a time, else the start. -/
def billedStart (events : List (CdrClient w)) : Moment w :=
  if 0 < (lastRing events).sec then lastRing events else lastStart events

/-- Rings and starts of a call. -/
def Opening (events : List (CdrClient w)) : Prop :=
  ∀ e ∈ events, e.callEvent = CALL_RING ∨ e.callEvent = CALL_START

/-- The record that received the events. -/
def received (events : List (CdrClient w)) : CdrRadius w := events.foldl CdrRadius.update {}

theorem received_opening {events : List (CdrClient w)} (h : Opening events) :
    (⟨(received events).gwStartRing, (received events).gwStartRingMsec⟩ : Moment w) = lastRing events ∧
      (⟨(received events).gwStartTime, (received events).gwStartTimeMsec⟩ : Moment w) = lastStart events := by
  induction events using List.reverseRecOn with
  | nil => exact ⟨rfl, rfl⟩
  | append_singleton events e ih =>
    obtain ⟨hring, hstart⟩ := ih fun e he => h e (List.mem_append_left _ he)
    rw [received] at hring hstart ⊢
    rw [List.foldl_append, List.foldl_cons, List.foldl_nil]
    rcases h e (by simp) with he | he
    · simp [CdrRadius.update, he, CdrRadius.updateRing, lastRing, lastStart, CdrClient.start]
    · simp [CdrRadius.update, he, CdrRadius.updateStart, CdrRadius.copyCall, lastRing, lastStart, CdrClient.start] at hring ⊢
      exact hring

/-! ## The bill -/

/-- The record bills the time from the start to the end, and its text says the seconds of it. -/
structure BillsExactly (r : CdrRadius w) (start stop : Moment w) : Prop where
  msec_lt : r.billingDurationMsec < 1000
  total_eq : r.billingDuration * 1000 + r.billingDurationMsec = stop.total - start.total
  fits : GmtimeFits r.gwStartTime.toInt
  text_eq : billedSeconds r.mindCdrVsaFormat = some r.billingDuration

namespace CdrRadius

variable {r : CdrRadius w}

theorem bill_gwStartTime (r : CdrRadius w) : r.bill.gwStartTime = r.gwStartTime := by
  unfold bill
  split <;> rfl

theorem bill_of_le (h : r.gwStartTime ≤ r.gwEndTime) :
    r.bill.billingDuration =
        (if 0 < (r.gwEndTime.toNat - r.gwStartTime.toNat) % 2 ^ 32 ∧ r.gwEndTimeMsec < r.gwStartTimeMsec then
          (r.gwEndTime.toNat - r.gwStartTime.toNat) % 2 ^ 32 - 1
        else (r.gwEndTime.toNat - r.gwStartTime.toNat) % 2 ^ 32) ∧
      r.bill.billingDurationMsec =
        if r.gwEndTimeMsec < r.gwStartTimeMsec then 0 else r.gwEndTimeMsec - r.gwStartTimeMsec := by
  rw [bill, if_neg (BitVec.not_lt.mpr h), BitVec.toNat_sub_of_le h]
  exact ⟨rfl, rfl⟩

/-- The borrow of the milliseconds is lost: they are nothing where the start has more of them. -/
theorem bill_exact_iff {start stop : Moment w} (hstart : (⟨r.gwStartTime, r.gwStartTimeMsec⟩ : Moment w) = start)
    (hstop : (⟨r.gwEndTime, r.gwEndTimeMsec⟩ : Moment w) = stop) (hmsec : start.msec < 1000) (hmsec' : stop.msec < 1000)
    (hle : start.total ≤ stop.total) (hw : w ≤ 64) :
    BillsExactly r.bill start stop ↔
      start.msec ≤ stop.msec ∧ stop.sec.toNat < start.sec.toNat + 360 ∧ GmtimeFits start.sec.toInt := by
  subst hstart hstop
  simp only [Moment.total] at hle hmsec hmsec' ⊢
  have hsec : r.gwStartTime ≤ r.gwEndTime := by
    rw [BitVec.le_def]
    omega
  obtain ⟨hduration, hrest⟩ := bill_of_le hsec
  have hmod := Nat.mod_lt (r.gwEndTime.toNat - r.gwStartTime.toNat) (y := 2 ^ 32) (by decide)
  have hlt : r.bill.billingDuration < 2 ^ 32 := by
    rw [hduration]
    split_ifs <;> omega
  constructor
  · intro h
    have hfits := h.fits
    have htotal := h.total_eq
    rw [bill_gwStartTime] at hfits
    have hshort := (billedSeconds_eq_iff hw h.fits hlt).mp h.text_eq
    simp only [Moment.total] at htotal
    rcases Nat.lt_or_ge r.gwEndTimeMsec r.gwStartTimeMsec with hborrow | hborrow
    · rw [hduration, hrest, if_pos hborrow] at htotal
      split_ifs at htotal <;> omega
    · rw [if_neg (by omega)] at hduration hrest
      rw [hduration] at hshort
      rw [hduration, hrest] at htotal
      exact ⟨hborrow, by omega, hfits⟩
  · rintro ⟨hborrow, hshort, hfits⟩
    rw [if_neg (by omega)] at hduration hrest
    have hfits' : GmtimeFits r.bill.gwStartTime.toInt := by rwa [bill_gwStartTime]
    refine ⟨by omega, ?_, hfits', (billedSeconds_eq_iff hw hfits' hlt).mpr (by omega)⟩
    simp only [Moment.total]
    omega

theorem update_end_received {events : List (CdrClient w)} (hopening : Opening events) {cli : CdrClient w}
    (hend : cli.callEvent = CALL_END) :
    ∃ r : CdrRadius w, (received events).update cli = r.bill ∧
      (⟨r.gwStartTime, r.gwStartTimeMsec⟩ : Moment w) = billedStart events ∧
      (⟨r.gwEndTime, r.gwEndTimeMsec⟩ : Moment w) = ⟨cli.gwEndTime, cli.gwEndTimeMsec⟩ := by
  obtain ⟨hring, hstart⟩ := received_opening hopening
  rw [billedStart, ← hring, ← hstart, update, if_neg (by simp [hend]), if_neg (by simp [hend]), if_pos hend]
  refine ⟨_, rfl, ?_, ?_⟩
  · by_cases hpos : 0 < (received events).gwStartRing
    · simp only [if_pos hpos]
    · simp only [if_neg hpos]
  · by_cases hpos : 0 < (received events).gwStartRing
    · simp only [if_pos hpos]
    · simp only [if_neg hpos]

end CdrRadius

/-- A call is billed exactly if and only if its milliseconds need no borrow and it is shorter than six minutes. -/
theorem bills_exactly_iff (hw : w ≤ 64) {events : List (CdrClient w)} (hopening : Opening events) {cli : CdrClient w}
    (hend : cli.callEvent = CALL_END) (hmsec : (billedStart events).msec < 1000) (hmsec' : cli.gwEndTimeMsec < 1000)
    (hle : (billedStart events).total ≤ (⟨cli.gwEndTime, cli.gwEndTimeMsec⟩ : Moment w).total) :
    BillsExactly ((received events).update cli) (billedStart events) ⟨cli.gwEndTime, cli.gwEndTimeMsec⟩ ↔
      (billedStart events).msec ≤ cli.gwEndTimeMsec ∧ cli.gwEndTime.toNat < (billedStart events).sec.toNat + 360 ∧
        GmtimeFits (billedStart events).sec.toInt := by
  obtain ⟨r, hupdate, hstart, hstop⟩ := CdrRadius.update_end_received hopening hend
  rw [hupdate]
  exact CdrRadius.bill_exact_iff hstart hstop hmsec hmsec' hle hw

/-- A ring at 100.2 s that is billed, a start at 105.9 s, and the end at 109.5 s. -/
theorem bills_exactly_ring :
    BillsExactly (w := 32) ((received [{ callEvent := CALL_RING, gwStartRing := 100, gwStartRingMsec := 200 },
        { callEvent := CALL_START, gwStartTime := 105, gwStartTimeMsec := 900 }]).update
          { callEvent := CALL_END, gwEndTime := 109, gwEndTimeMsec := 500 }) ⟨100, 200⟩ ⟨109, 500⟩ :=
  (bills_exactly_iff (by decide) (by simp [Opening]) rfl (by decide) (by decide) (by decide)).mpr
    ⟨by decide, by decide, by decide⟩

/-- From 100.9 s to 101.1 s: nothing is billed. -/
theorem not_bills_exactly :
    ¬BillsExactly (w := 32) ((received [{ callEvent := CALL_START, gwStartTime := 100, gwStartTimeMsec := 900 }]).update
      { callEvent := CALL_END, gwEndTime := 101, gwEndTimeMsec := 100 }) ⟨100, 900⟩ ⟨101, 100⟩ :=
  fun h => absurd h.total_eq (by decide)

end Vocal.Cdr
