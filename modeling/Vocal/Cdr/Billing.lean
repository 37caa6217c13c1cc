import Mathlib.Data.List.Perm.Basic
import Vocal.Cdr.Data
import Vocal.Lib.Decimal
import Vocal.Lib.Machine

/-!
# Sending the billing files

`CdrBilling::sendBillingRecords` reads the billing files that were not sent yet, has a start and a stop message
sent for each bill, writes the bills that are not accepted to an error file and renames the files. What the
client, the file system and the provisioning answer is given from outside.
-/

namespace Vocal.Cdr

open CdrCallEvent

/-! ## Reading a file -/

/-- A billing file that is read (`CdrFileHandler`): what is left of it, and whether its end was met. -/
structure BillingFile where
  rest : List Char
  eof : Bool := false
  deriving DecidableEq, Repr

/-- The last token of a line, if there is one. -/
def pushToken (tokens : List (List Char)) (token : List Char) : List (List Char) :=
  if token = [] then tokens else tokens ++ [token]

/-- The loop of `readTokens` on what is left of the file. A line ends behind its line feed, which stays with
the last token, at a NUL and at the end of the file. -/
def readTokensFrom : List Char → List (List Char) → List Char → List (List Char) × BillingFile
  | [], tokens, token => (pushToken tokens token, ⟨[], true⟩)
  | c :: rest, tokens, token =>
    if c = '\x00' then (pushToken tokens token, ⟨rest, false⟩)
    else if c = ',' then readTokensFrom rest (tokens ++ [token]) []
    else if c = '\n' then (pushToken tokens (token ++ [c]), ⟨rest, false⟩)
    else readTokensFrom rest tokens (token ++ [c])

/-- `CdrFileHandler::readTokens`. -/
def readTokens (f : BillingFile) : List (List Char) × BillingFile := readTokensFrom f.rest [] []

/-- `stringToEnum`. -/
def stringToEnum (s : List Char) : CdrCallEvent :=
  if s = "CALL_START".toList then CALL_START
  else if s = "CALL_UPDATE".toList then CALL_UPDATE
  else if s = "CALL_RING".toList then CALL_RING
  else if s = "CALL_END".toList then CALL_END
  else if s = "CALL_COMPLETE".toList then CALL_COMPLETE
  else if s = "CALL_BILL".toList then CALL_BILL
  else CALL_UNKNOWN

namespace CdrRadius

variable {w : Nat}

/-- What `setValues` does with each token of a line, in their order. -/
def setters : List (CdrRadius w → List Char → CdrRadius w) :=
  [fun r t => { r with callEvent := stringToEnum t },
   fun r t => { r with callId := strncpy t 256 },
   fun r t => { r with userId := strncpy t 128 },
   fun r t => { r with ANI := strncpy t 32 },
   fun r t => { r with DTMFCalledNum := strncpy t 32 },
   fun r t => { r with E164CalledNum := strncpy t 32 },
   -- the formatted start is skipped
   fun r _ => r,
   fun r _ => r,
   fun r t => { r with gwStartTime := BitVec.ofInt w (strtol w t) },
   fun r t => { r with gwStartTimeMsec := (BitVec.ofInt 32 (atoi w t)).toNat },
   -- the formatted end is skipped
   fun r _ => r,
   fun r _ => r,
   fun r t => { r with gwEndTime := BitVec.ofInt w (strtol w t) },
   fun r t => { r with gwEndTimeMsec := (BitVec.ofInt 32 (atoi w t)).toNat },
   fun r t => { r with gwStartRing := BitVec.ofInt w (strtol w t) },
   fun r t => { r with gwStartRingMsec := (BitVec.ofInt 32 (atoi w t)).toNat },
   -- the formatted duration is skipped
   fun r _ => r,
   fun r t => { r with billingDuration := (BitVec.ofInt 32 (atoi w t)).toNat },
   fun r t => { r with billingDurationMsec := (BitVec.ofInt 32 (atoi w t)).toNat },
   fun r t => { r with originatorIp := strncpy t 24 },
   fun r t => { r with originatorLine := (BitVec.ofInt 16 (atoi w t)).toInt },
   fun r t => { r with terminatorIp := strncpy t 24 },
   fun r t => { r with terminatorLine := (BitVec.ofInt 16 (atoi w t)).toInt },
   fun r t => { r with callType := t.headD '\x00' },
   fun r t => { r with callParties := atoi w t },
   fun r t => { r with callDisconnect := t.headD '\x00' },
   fun r t => { r with callDirection := t.headD '\x00' }]

/-- `CdrRadius::setValues`. -/
def setValues (r : CdrRadius w) (tokens : List (List Char)) : CdrRadius w :=
  (setters.zip tokens).foldl (fun r p => p.1 r p.2) r

/-- The numbers of the master users in place of the aliases of a bill. -/
def toMaster (getMasterUser : List Char → List Char) (ref : CdrRadius w) : CdrRadius w :=
  let ANI := getMasterUser ref.userId
  let recvNum := getMasterUser (if ref.DTMFCalledNum ≠ [] then ref.DTMFCalledNum else ref.E164CalledNum)
  { ref with
    userId := strncpy ANI 128
    ANI := strncpy ANI 32
    DTMFCalledNum := []
    E164CalledNum := strncpy recvNum 32 }

end CdrRadius

/-- The records that are read as long as the end of the file is not met. -/
def readRecords (w : Nat) : Nat → BillingFile → List (CdrRadius w)
  | 0, _ => []
  | fuel + 1, f =>
    if f.eof then []
    else ({} : CdrRadius w).setValues (readTokens f).1 :: readRecords w fuel (readTokens f).2

/-- All records of a file. Each line takes a character, and the last one ends at the end of the file. -/
def recordsOf (w : Nat) (contents : List Char) : List (CdrRadius w) :=
  readRecords w (contents.length + 2) ⟨contents, false⟩

/-- The lines of the file that the loop still has to read, at most. -/
def BillingFile.linesLeft (f : BillingFile) : Nat := if f.eof then 0 else f.rest.length + 1

theorem linesLeft_readTokensFrom (rest : List Char) (tokens : List (List Char)) (token : List Char) :
    (readTokensFrom rest tokens token).2.linesLeft ≤ rest.length := by
  induction rest generalizing tokens token with
  | nil => exact Nat.le_refl 0
  | cons c rest ih =>
    rw [readTokensFrom]
    split_ifs
    · simp [BillingFile.linesLeft]
    · exact (ih _ _).trans (Nat.le_succ _)
    · simp [BillingFile.linesLeft]
    · exact (ih _ _).trans (Nat.le_succ _)

theorem readRecords_add (w fuel more : Nat) (f : BillingFile) (h : f.linesLeft ≤ fuel) :
    readRecords w (fuel + more) f = readRecords w fuel f := by
  induction fuel generalizing f with
  | zero =>
    have heof : f.eof = true := by
      rw [BillingFile.linesLeft] at h
      split at h
      · assumption
      · exact absurd h (Nat.not_succ_le_zero _)
    cases more with
    | zero => rfl
    | succ more =>
      rw [Nat.zero_add]
      simp [readRecords, heof]
  | succ fuel ih =>
    rw [Nat.add_right_comm, readRecords, readRecords]
    split_ifs with heof
    · rfl
    · rw [ih]
      rw [BillingFile.linesLeft, if_neg heof] at h
      exact (linesLeft_readTokensFrom f.rest [] []).trans (Nat.le_of_succ_le_succ h)

/-! ## Sending -/

/-- What is decided outside: by the client for each bill in turn, by the file system and by the provisioning. -/
structure Outside where
  connected : Bool
  locked : Bool
  accountingStartCall : Nat → Bool
  accountingStopCall : Nat → Bool
  openErrorFile : Bool
  openBillingFile : List Char → Bool
  getMasterUser : List Char → List Char
  unsentFileExt : List Char

/-- `CdrBilling`, with what was accepted for sending, what was written to the error file and the files that
were renamed, under their old and their new name. -/
structure CdrBilling (w : Nat) where
  errorFile : Bool := false
  errFileBusted : Bool := false
  recCount : Nat := 0
  accepted : List (CdrRadius w) := []
  errors : List (CdrRadius w) := []
  renamed : List (List Char × List Char) := []

/-- `rfind`: the last place of the other text. -/
def rfind (ext : List Char) : List Char → Option Nat
  | [] => if ext = [] then some 0 else none
  | c :: text =>
    match rfind ext text with
    | some pos => some (pos + 1)
    | none => if ext.isPrefixOf (c :: text) then some 0 else none

/-- The name without the extension, which the names that `directoryList` lists end with. -/
def sentName (ext name : List Char) : List Char :=
  match rfind ext name with
  | some pos => name.take pos
  | none => name

namespace CdrBilling

variable {w : Nat} (o : Outside)

/-- The error file is opened with the first bill that is not accepted. -/
def openErrors (b : CdrBilling w) : CdrBilling w :=
  if b.errorFile = false ∧ b.errFileBusted = false then
    if o.openErrorFile then { b with errorFile := true } else { b with errFileBusted := true }
  else b

/-- One record of a file. -/
def sendRecord (b : CdrBilling w) (ref : CdrRadius w) : CdrBilling w :=
  if ref.callEvent = CALL_BILL then
    let n := b.recCount
    let b := { b with recCount := n + 1 }
    let ref := ref.toMaster o.getMasterUser
    if o.accountingStartCall n = false ∨ o.accountingStopCall n = false then
      let b := b.openErrors o
      if b.errorFile then { b with errors := b.errors ++ [ref] } else b
    else { b with accepted := b.accepted ++ [ref] }
  else b

/-- One unsent file, given by its name and its contents. -/
def sendFile (b : CdrBilling w) (f : List Char × List Char) : CdrBilling w :=
  if o.openBillingFile f.1 then
    let b := (recordsOf w f.2).foldl (sendRecord o) b
    { b with renamed := b.renamed ++ [(f.1, sentName o.unsentFileExt f.1)] }
  else b

/-- `CdrBilling::sendBillingRecords` on the unsent files of the directory. -/
def sendBillingRecords (b : CdrBilling w) (files : List (List Char × List Char)) : CdrBilling w × Bool :=
  if o.connected then
    (if o.locked then files.foldl (sendFile o) b else b, true)
  else (b, false)

/-! ## No bill is dropped -/

def bills (contents : List Char) : List (CdrRadius w) :=
  (recordsOf w contents).filter (·.callEvent = CALL_BILL)

/-- Each bill of a file was accepted or written to the error file while the file was sent. -/
def Accounted (b : CdrBilling w) (f : List Char × List Char) : Prop :=
  ∃ sent rejected, (sendFile o b f).accepted = b.accepted ++ sent ∧
    (sendFile o b f).errors = b.errors ++ rejected ∧
    ((bills f.2).map (CdrRadius.toMaster o.getMasterUser)).Perm (sent ++ rejected)

/-- The files one after the other. -/
def machine : Machine (CdrBilling w) (List Char × List Char) Unit where
  init := {}
  step b f := (sendFile o b f, ())

/-- The files that are sent: none without the client or the lock. -/
def sending (files : List (List Char × List Char)) : List (List Char × List Char) :=
  if o.connected && o.locked then files else []

/-- Every file that is renamed is accounted for. -/
def NoneDropped (b : CdrBilling w) (files : List (List Char × List Char)) : Prop :=
  (machine o).Along (fun b f => (sendFile o b f).renamed ≠ b.renamed → Accounted o b f) b (sending o files)

/-- A bill that is not accepted can be written: the error file is open, or can still be opened. -/
def CanWrite (b : CdrBilling w) : Prop :=
  b.errorFile = true ∨ b.errFileBusted = false ∧ o.openErrorFile = true

/-- Both messages of the bill are accepted. -/
def acceptedAt (n : Nat) : Bool := o.accountingStartCall n && o.accountingStopCall n

/-- The number of bills in the files that can be read. -/
def billCount (w : Nat) (files : List (List Char × List Char)) : Nat :=
  ((files.filter fun f => o.openBillingFile f.1).map fun f => (bills f.2 : List (CdrRadius w)).length).sum

theorem sendBillingRecords_eq_run (b : CdrBilling w) (files : List (List Char × List Char)) :
    (sendBillingRecords o b files).1 = (machine o).run b (sending o files) := by
  have hrun : ∀ (files : List (List Char × List Char)) (b : CdrBilling w),
      files.foldl (sendFile o) b = (machine o).run b files := by
    intro files
    induction files with
    | nil => intro b; rfl
    | cons f files ih => intro b; exact ih _
  unfold sendBillingRecords sending
  cases o.connected with
  | false => rfl
  | true =>
    cases o.locked with
    | false => rfl
    | true => exact hrun files b

variable {o} {b : CdrBilling w} {ref : CdrRadius w}

theorem canWrite_openErrors : CanWrite o (b.openErrors o) ↔ CanWrite o b := by
  unfold openErrors CanWrite
  split_ifs with h hopen
  · simp [h.2, hopen]
  · simp [h.1, hopen]
  · exact Iff.rfl

theorem errorFile_openErrors : (b.openErrors o).errorFile = true ↔ CanWrite o b := by
  unfold openErrors CanWrite
  split_ifs with h hopen
  · simp [h.2, hopen]
  · simp [h.1, hopen]
  · constructor
    · exact Or.inl
    · rintro (hfile | ⟨hbusted, -⟩)
      · exact hfile
      · cases hfile : b.errorFile with
        | true => rfl
        | false => exact absurd ⟨hfile, hbusted⟩ h

theorem openErrors_logs : (b.openErrors o).accepted = b.accepted ∧ (b.openErrors o).errors = b.errors ∧
    (b.openErrors o).recCount = b.recCount ∧ (b.openErrors o).renamed = b.renamed := by
  unfold openErrors
  split_ifs <;> exact ⟨rfl, rfl, rfl, rfl⟩

/-- What one bill leads to: it is accepted, or written if that can be done, or dropped. -/
structure Handled (o : Outside) (b b' : CdrBilling w) (sent rejected dropped : List (CdrRadius w))
    (count : Nat) : Prop where
  accepted : b'.accepted = b.accepted ++ sent
  errors : b'.errors = b.errors ++ rejected
  renamed : b'.renamed = b.renamed
  recCount : b'.recCount = b.recCount + count
  canWrite : CanWrite o b' ↔ CanWrite o b
  dropped_iff : dropped = [] ↔
    CanWrite o b ∨ ∀ n, b.recCount ≤ n → n < b.recCount + count → acceptedAt o n = true

theorem handled_bill (h : ref.callEvent = CALL_BILL) : ∃ sent rejected dropped,
    Handled o b (sendRecord o b ref) sent rejected dropped 1 ∧
      [ref.toMaster o.getMasterUser].Perm (sent ++ (rejected ++ dropped)) := by
  have hone : (∀ n, b.recCount ≤ n → n < b.recCount + 1 → acceptedAt o n = true) ↔
      acceptedAt o b.recCount = true := by
    constructor
    · intro hall
      exact hall _ (Nat.le_refl _) (Nat.lt_succ_self _)
    · intro hacc n hle hlt
      rwa [show n = b.recCount by omega]
  rw [sendRecord, if_pos h]
  dsimp only
  split_ifs with hrej hopen
  · -- not accepted, and the error file is open by now
    have hcan : CanWrite o b :=
      (errorFile_openErrors (b := { b with recCount := b.recCount + 1 })).mp hopen
    obtain ⟨hacc, herr, hcount, hren⟩ := openErrors_logs (o := o) (b := { b with recCount := b.recCount + 1 })
    refine ⟨[], [ref.toMaster o.getMasterUser], [], ⟨?_, ?_, hren, hcount, canWrite_openErrors, ?_⟩, ?_⟩
    · rw [hacc, List.append_nil]
    · rw [herr]
    · exact ⟨fun _ => Or.inl hcan, fun _ => rfl⟩
    · exact List.Perm.refl _
  · have hcan : ¬ CanWrite o b := fun hcan =>
      hopen ((errorFile_openErrors (b := { b with recCount := b.recCount + 1 })).mpr hcan)
    obtain ⟨hacc, herr, hcount, hren⟩ := openErrors_logs (o := o) (b := { b with recCount := b.recCount + 1 })
    refine ⟨[], [], [ref.toMaster o.getMasterUser], ⟨?_, ?_, hren, hcount, canWrite_openErrors, ?_⟩, ?_⟩
    · rw [hacc, List.append_nil]
    · rw [herr, List.append_nil]
    · rw [hone]
      have hno : acceptedAt o b.recCount = false := by
        rcases hrej with hrej | hrej <;> simp [acceptedAt, hrej]
      simp [hcan, hno]
    · exact List.Perm.refl _
  · refine ⟨[ref.toMaster o.getMasterUser], [], [], ⟨rfl, (List.append_nil _).symm, rfl, rfl, Iff.rfl, ?_⟩,
      List.Perm.refl _⟩
    rw [hone]
    have hyes : acceptedAt o b.recCount = true := by
      simpa [acceptedAt, not_or] using hrej
    simp [hyes]

theorem Handled.trans {b₁ b₂ b₃ : CdrBilling w} {sent₁ rejected₁ dropped₁ sent₂ rejected₂ dropped₂ : List (CdrRadius w)}
    {m n : Nat} (h₁ : Handled o b₁ b₂ sent₁ rejected₁ dropped₁ m)
    (h₂ : Handled o b₂ b₃ sent₂ rejected₂ dropped₂ n) :
    Handled o b₁ b₃ (sent₁ ++ sent₂) (rejected₁ ++ rejected₂) (dropped₁ ++ dropped₂) (m + n) where
  accepted := by rw [h₂.accepted, h₁.accepted, List.append_assoc]
  errors := by rw [h₂.errors, h₁.errors, List.append_assoc]
  renamed := h₂.renamed.trans h₁.renamed
  recCount := by rw [h₂.recCount, h₁.recCount, Nat.add_assoc]
  canWrite := h₂.canWrite.trans h₁.canWrite
  dropped_iff := by
    rw [List.append_eq_nil_iff, h₁.dropped_iff, h₂.dropped_iff, h₁.canWrite, h₁.recCount]
    constructor
    · rintro ⟨hcan | hm, hn⟩
      · exact Or.inl hcan
      · rcases hn with hcan | hn
        · exact Or.inl hcan
        · refine Or.inr fun k hle hlt => ?_
          by_cases hk : k < b₁.recCount + m
          · exact hm k hle hk
          · exact hn k (Nat.le_of_not_lt hk) (by omega)
    · rintro (hcan | hall)
      · exact ⟨Or.inl hcan, Or.inl hcan⟩
      · exact ⟨Or.inr fun k hle hlt => hall k hle (by omega),
          Or.inr fun k hle hlt => hall k (by omega) (by omega)⟩

theorem handled_records (recs : List (CdrRadius w)) (b : CdrBilling w) : ∃ sent rejected dropped,
    Handled o b (recs.foldl (sendRecord o) b) sent rejected dropped
        (recs.filter (·.callEvent = CALL_BILL)).length ∧
      ((recs.filter (·.callEvent = CALL_BILL)).map (CdrRadius.toMaster o.getMasterUser)).Perm
        (sent ++ (rejected ++ dropped)) := by
  induction recs generalizing b with
  | nil =>
    refine ⟨[], [], [], ⟨?_, ?_, rfl, rfl, Iff.rfl, ?_⟩, List.Perm.refl _⟩
    · exact (List.append_nil _).symm
    · exact (List.append_nil _).symm
    · exact ⟨fun _ => Or.inr fun n hle hlt => absurd hlt (Nat.not_lt.mpr hle), fun _ => rfl⟩
  | cons ref recs ih =>
    obtain ⟨sent, rejected, dropped, hrest, hperm⟩ := ih (sendRecord o b ref)
    by_cases hbill : ref.callEvent = CALL_BILL
    · obtain ⟨sent₁, rejected₁, dropped₁, hfirst, hperm₁⟩ := handled_bill (o := o) (b := b) hbill
      refine ⟨sent₁ ++ sent, rejected₁ ++ rejected, dropped₁ ++ dropped, ?_, ?_⟩
      · rw [List.filter_cons_of_pos (by simpa using hbill), List.length_cons, Nat.add_comm]
        exact hfirst.trans hrest
      · rw [List.filter_cons_of_pos (by simpa using hbill), List.map_cons, ← List.singleton_append]
        refine (hperm₁.append hperm).trans ?_
        rw [List.perm_iff_count]
        intro r
        simp only [List.count_append]
        omega
    · have hsame : sendRecord o b ref = b := if_neg hbill
      rw [List.filter_cons_of_neg (by simpa using hbill), List.foldl_cons]
      rw [hsame] at hrest ⊢
      exact ⟨sent, rejected, dropped, hrest, hperm⟩

theorem handled_file {f : List Char × List Char} (hopen : o.openBillingFile f.1 = true) :
    (sendFile o b f).recCount = b.recCount + (bills f.2 : List (CdrRadius w)).length ∧
      (CanWrite o (sendFile o b f) ↔ CanWrite o b) ∧ (sendFile o b f).renamed ≠ b.renamed ∧
      (Accounted o b f ↔ CanWrite o b ∨ ∀ n, b.recCount ≤ n →
        n < b.recCount + (bills f.2 : List (CdrRadius w)).length → acceptedAt o n = true) := by
  obtain ⟨sent, rejected, dropped, h, hperm⟩ := handled_records (o := o) (recordsOf w f.2) b
  have hsend : sendFile o b f = { (recordsOf w f.2).foldl (sendRecord o) b with
      renamed := ((recordsOf w f.2).foldl (sendRecord o) b).renamed ++
        [(f.1, sentName o.unsentFileExt f.1)] } := if_pos hopen
  rw [hsend]
  refine ⟨h.recCount, h.canWrite, by simp [h.renamed], ?_⟩
  rw [bills, ← h.dropped_iff, Accounted, hsend]
  constructor
  · rintro ⟨sent', rejected', hsent, hrej, hperm'⟩
    -- the lists are those of `handled_records`, and the dropped bills would be left over
    obtain rfl := List.append_cancel_left (h.accepted.symm.trans hsent)
    obtain rfl := List.append_cancel_left (h.errors.symm.trans hrej)
    have hlen := (hperm'.symm.trans hperm).length_eq
    simp only [List.length_append] at hlen
    exact List.length_eq_zero_iff.mp (by omega)
  · rintro rfl
    rw [List.append_nil] at hperm
    exact ⟨sent, rejected, h.accepted, h.errors, hperm⟩

/-- No bill of a renamed file is dropped if and only if the error file is open or can be opened, or all bills
of the files that are read are accepted. -/
theorem noneDropped_iff (o : Outside) (b : CdrBilling w) (files : List (List Char × List Char)) :
    NoneDropped o b files ↔ CanWrite o b ∨ ∀ n, b.recCount ≤ n →
      n < b.recCount + billCount o w (sending o files) → acceptedAt o n = true := by
  rw [NoneDropped]
  generalize sending o files = files
  induction files generalizing b with
  | nil => exact ⟨fun _ => Or.inr fun n hle hlt => absurd hlt (Nat.not_lt.mpr hle), fun _ => trivial⟩
  | cons f files ih =>
    rw [Machine.Along, ih]
    cases hopen : o.openBillingFile f.1 with
    | false =>
      have hsame : sendFile o b f = b := if_neg (by simp [hopen])
      have hcount : billCount o w (f :: files) = billCount o w files := by simp [billCount, hopen]
      change ((sendFile o b f).renamed ≠ b.renamed → Accounted o b f) ∧ (CanWrite o (sendFile o b f) ∨
        ∀ n, (sendFile o b f).recCount ≤ n → n < (sendFile o b f).recCount + _ → _) ↔ _
      rw [hsame, hcount]
      simp
    | true =>
      obtain ⟨hrec, hcan, hren, hacc⟩ := handled_file (b := b) hopen
      have hcount : billCount o w (f :: files) =
          (bills f.2 : List (CdrRadius w)).length + billCount o w files := by simp [billCount, hopen]
      change ((sendFile o b f).renamed ≠ b.renamed → Accounted o b f) ∧ (CanWrite o (sendFile o b f) ∨
        ∀ n, (sendFile o b f).recCount ≤ n → n < (sendFile o b f).recCount + _ → _) ↔ _
      rw [hrec, hcan, hcount, hacc]
      constructor
      · rintro ⟨hfirst, hrest⟩
        rcases hfirst hren with hcan | hfirst
        · exact Or.inl hcan
        · rcases hrest with hcan | hrest
          · exact Or.inl hcan
          · refine Or.inr fun n hle hlt => ?_
            by_cases hn : n < b.recCount + (bills f.2 : List (CdrRadius w)).length
            · exact hfirst n hle hn
            · exact hrest n (Nat.le_of_not_lt hn) (by omega)
      · rintro (hcan | hall)
        · exact ⟨fun _ => Or.inl hcan, Or.inl hcan⟩
        · exact ⟨fun _ => Or.inr fun n hle hlt => hall n hle (by omega),
            Or.inr fun n hle hlt => hall n (by omega) (by omega)⟩

/-- One file with one bill that is not accepted, while the error file cannot be opened. -/
theorem not_noneDropped : ¬ ∀ (o : Outside) (b : CdrBilling 64) (files : List (List Char × List Char)),
    NoneDropped o b files := by
  intro h
  have hnone := h
    { connected := true, locked := true, accountingStartCall := fun _ => false,
      accountingStopCall := fun _ => true, openErrorFile := false, openBillingFile := fun _ => true,
      getMasterUser := id, unsentFileExt := ".unsent".toList } {}
    [("billing.unsent".toList, "CALL_BILL,c1,u1\n".toList)]
  have hlost := (hnone.1 (by decide))
  obtain ⟨sent, rejected, hsent, hrej, hperm⟩ := hlost
  obtain rfl : sent = [] := List.append_cancel_left hsent.symm
  obtain rfl : rejected = [] := List.append_cancel_left hrej.symm
  exact absurd hperm.length_eq (by decide)

end CdrBilling

end Vocal.Cdr
