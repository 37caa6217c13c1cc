import Vocal.Cdr.Data
import Vocal.Lib.Decimal

/-!
# Records as texts

The line of a record in the billing files (`CdrRadius::dumpFlds`) and the text of a record in an accounting
message (`CdrRadius::mindCdrVsaFormat`).
-/

namespace Vocal.Cdr

open CdrCallEvent

/-! ## Times -/

/-- `struct tm`, as far as it is written. -/
structure Tm where
  year : Int
  mon : Int
  mday : Int
  hour : Int
  min : Int
  sec : Int
  deriving DecidableEq, Repr

/-- `gmtime`. The days are counted in turns of 400 years that begin with a March, so that a leap day is the last
one of its year, of its four years and of its 400. -/
def gmtime (t : Int) : Tm :=
  let days := t / 86400 + 719468
  let era := days / 146097
  let dayOfEra := days % 146097
  let century := min (dayOfEra / 36524) 3
  let dayOfCentury := dayOfEra - 36524 * century
  let four := dayOfCentury / 1461
  let dayOfFour := dayOfCentury % 1461
  let year := min (dayOfFour / 365) 3
  let dayOfYear := dayOfFour - 365 * year
  let month := (5 * dayOfYear + 2) / 153
  { year := 400 * era + 100 * century + 4 * four + year + (if month < 10 then 0 else 1) - 1900
    mon := if month < 10 then month + 2 else month - 10
    mday := dayOfYear - (153 * month + 2) / 5 + 1
    hour := t % 86400 / 3600
    min := t % 3600 / 60
    sec := t % 60 }

example : gmtime 951827696 = ⟨100, 1, 29, 12, 34, 56⟩ := by decide

theorem gmtime_fields (t : Int) :
    (0 ≤ (gmtime t).mon ∧ (gmtime t).mon < 12) ∧ (0 ≤ (gmtime t).mday ∧ (gmtime t).mday < 32) ∧
      (0 ≤ (gmtime t).hour ∧ (gmtime t).hour < 24) ∧ (0 ≤ (gmtime t).min ∧ (gmtime t).min < 60) ∧
      0 ≤ (gmtime t).sec ∧ (gmtime t).sec < 60 := by
  simp only [gmtime]
  generalize hdays : t / 86400 + 719468 = days
  generalize hera : days / 146097 = era
  generalize hdoe : days % 146097 = doe
  have hdoe0 : 0 ≤ doe ∧ doe < 146097 := by omega
  generalize hcentury : min (doe / 36524) 3 = century
  have hcentury0 : 0 ≤ century ∧ century ≤ 3 := by omega
  generalize hdoc : doe - 36524 * century = doc
  have hdoc0 : 0 ≤ doc ∧ doc < 36525 := by omega
  generalize hdof : doc % 1461 = dof
  have hdof0 : 0 ≤ dof ∧ dof < 1461 := by omega
  generalize hyear : min (dof / 365) 3 = year
  have hyear0 : 0 ≤ year ∧ year ≤ 3 := by omega
  generalize hdoy : dof - 365 * year = doy
  have hdoy0 : 0 ≤ doy ∧ doy < 366 := by omega
  generalize hmonth : (5 * doy + 2) / 153 = month
  have hmonth0 : 0 ≤ month ∧ month < 12 := by omega
  refine ⟨?_, ?_, ?_, ?_, ?_⟩
  · split_ifs <;> omega
  · omega
  · omega
  · omega
  · omega

theorem gmtime_year {t : Int} (hlow : -2 ^ 31 ≤ t) (hlt : t < 2 ^ 31) : -900 ≤ (gmtime t).year ∧ (gmtime t).year < 8100 := by
  simp only [gmtime]
  generalize hdays : t / 86400 + 719468 = days
  generalize hcentury : min (days % 146097 / 36524) 3 = century
  have hcentury0 : 0 ≤ century ∧ century ≤ 3 := by omega
  generalize hdoc : days % 146097 - 36524 * century = doc
  have hdoc0 : 0 ≤ doc ∧ doc < 36525 := by omega
  generalize hyear : min (doc % 1461 / 365) 3 = year
  have hyear0 : 0 ≤ year ∧ year ≤ 3 := by omega
  split_ifs <;> omega

theorem gmtime_bounds {t : Int} (hlow : -2 ^ 31 ≤ t) (hlt : t < 2 ^ 31) :
    (-900 ≤ (gmtime t).year ∧ (gmtime t).year < 8100) ∧ (0 ≤ (gmtime t).mon ∧ (gmtime t).mon < 12) ∧
      (0 ≤ (gmtime t).mday ∧ (gmtime t).mday < 32) ∧ (0 ≤ (gmtime t).hour ∧ (gmtime t).hour < 24) ∧
      (0 ≤ (gmtime t).min ∧ (gmtime t).min < 60) ∧ 0 ≤ (gmtime t).sec ∧ (gmtime t).sec < 60 :=
  ⟨gmtime_year hlow hlt, gmtime_fields t⟩

/-! ## Lines of the billing files -/

/-- `enumToString`. -/
def enumToString : CdrCallEvent → List Char
  | CALL_START => "CALL_START".toList
  | CALL_UPDATE => "CALL_UPDATE".toList
  | CALL_RING => "CALL_RING".toList
  | CALL_END => "CALL_END".toList
  | CALL_COMPLETE => "CALL_COMPLETE".toList
  | CALL_BILL => "CALL_BILL".toList
  | _ => "CALL_UNKNOWN".toList

/-- An `unsigned int` that is written as an `int`. -/
def toInt32 (n : Nat) : Int := (BitVec.ofNat 32 n).toInt

/-- `%02d/%02d/%04d`. -/
def dateText (t : Tm) : List Char :=
  decimalPadded 2 (t.mon + 1) ++ '/' :: decimalPadded 2 t.mday ++ '/' :: decimalPadded 4 (1900 + t.year)

/-- `%02d:%02d:%02d`. -/
def timeText (t : Tm) : List Char :=
  decimalPadded 2 t.hour ++ ':' :: decimalPadded 2 t.min ++ ':' :: decimalPadded 2 t.sec

theorem length_triple {a b c : List Char} {sep : Char} {i j k : Nat} (ha : a.length = i) (hb : b.length = j)
    (hc : c.length = k) : (a ++ sep :: b ++ sep :: c).length = i + j + k + 2 := by
  simp only [List.length_append, List.length_cons]
  omega

theorem length_timeText {t : Int} (hlow : -2 ^ 31 ≤ t) (hhigh : t < 2 ^ 31) : (timeText (gmtime t)).length = 8 := by
  obtain ⟨-, -, -, hhour, hmin, hsec⟩ := gmtime_bounds hlow hhigh
  exact length_triple (length_decimalPadded (by decide) (by omega) (by omega))
    (length_decimalPadded (by decide) (by omega) (by omega)) (length_decimalPadded (by decide) (by omega) (by omega))

namespace CdrRadius

variable {w : Nat}

/-- The texts of a record, with the sizes of their arrays. -/
def texts (r : CdrRadius w) : List (List Char × Nat) :=
  [(r.callId, 256), (r.userId, 128), (r.ANI, 32), (r.DTMFCalledNum, 32), (r.E164CalledNum, 32), (r.originatorIp, 24),
    (r.terminatorIp, 24)]

/-- `%03d:%02d:%02d`, of the seconds in place of the hours. -/
def durationText (r : CdrRadius w) : List Char :=
  decimalPadded 3 (toInt32 (r.billingDuration / 60)) ++ ':' :: decimalPadded 2 (toInt32 (r.billingDuration % 60)) ++
    ':' :: decimalPadded 2 (toInt32 r.billingDurationMsec)

/-- The fields of a line, in the order in which they are written. -/
def fields (r : CdrRadius w) : List (List Char) :=
  let st := gmtime r.gwStartTime.toInt
  let st2 := gmtime r.gwEndTime.toInt
  [enumToString r.callEvent, r.callId, r.userId, r.ANI, r.DTMFCalledNum, r.E164CalledNum,
    dateText st, timeText st, decimal r.gwStartTime.toNat, decimal r.gwStartTimeMsec,
    dateText st2, timeText st2, decimal r.gwEndTime.toNat, decimal r.gwEndTimeMsec,
    decimal r.gwStartRing.toNat, decimal r.gwStartRingMsec,
    r.durationText, decimal r.billingDuration, decimal r.billingDurationMsec,
    r.originatorIp, decimal r.originatorLine, r.terminatorIp, decimal r.terminatorLine,
    [r.callType], decimal r.callParties, [r.callDisconnect], [r.callDirection]]

/-- `CdrRadius::dumpFlds`, where the buffer is long enough. -/
def dumpFlds (r : CdrRadius w) : List Char := List.intercalate [','] r.fields

/-! ## The text of an accounting message -/

/-- What is copied of a text that was put into `dataFld`: it ends at a NUL, and its length is counted in one
byte. -/
def copied (dataFld : List Char) : List Char :=
  let text := dataFld.takeWhile (· ≠ '\x00')
  text.take (text.length % 256)

/-- `"%02d-%02d-%02d %02d:%02d:%02d";`, in quotation marks. -/
def startText (r : CdrRadius w) : List Char :=
  let t := gmtime r.gwStartTime.toInt
  '"' :: (decimalPadded 2 (1900 + t.year) ++ '-' :: decimalPadded 2 (t.mon + 1) ++ '-' :: decimalPadded 2 t.mday) ++
    ' ' :: timeText t ++ ['"', ';']

/-- `%lu;"%03d:%02d:%02d";`. What is called hours are six minutes each. -/
def billingText (r : CdrRadius w) : List Char :=
  let hour := (toInt32 r.billingDuration).tdiv 360
  let min := r.billingDuration % 360 / 60
  let sec := toInt32 (r.billingDuration - min * 60)
  decimal r.gwStartTime.toNat ++ [';', '"'] ++
    (decimalPadded 3 hour ++ ':' :: decimalPadded 2 min ++ ':' :: decimalPadded 2 sec) ++ ['"', ';']

/-- `%s;%d;%s;%d;`. -/
def gatewayText (r : CdrRadius w) : List Char :=
  r.originatorIp ++ ';' :: decimal r.originatorLine ++ ';' :: r.terminatorIp ++ ';' :: decimal r.terminatorLine ++ [';']

/-- `%s;%s;%s;%c%c;%02d;%c;;;;;%s`. -/
def partyText (r : CdrRadius w) : List Char :=
  r.userId ++ ';' :: r.E164CalledNum ++ ';' :: r.DTMFCalledNum ++ ';' :: r.callDirection :: r.callType :: ';' ::
    decimalPadded 2 r.callParties ++ ';' :: r.callDisconnect :: ";;;;;".toList ++ r.ANI

/-- `CdrRadius::mindCdrVsaFormat`. -/
def mindCdrVsaFormat (r : CdrRadius w) : List Char :=
  copied r.startText ++ copied r.billingText ++ copied r.gatewayText ++ copied r.partyText

end CdrRadius

end Vocal.Cdr
