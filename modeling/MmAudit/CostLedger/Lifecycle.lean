import MmAudit.CostLedger.Durability

/-!
# The lifecycle of a ledger entry

An entry is created active and closed once.  Over every run its identity never
changes, a closed entry never changes at all, and a call that raises leaves the
file alone unless it is the reconciliation that records an overrun.  Repeating a
closing call gives the outcome of the first, as long as the file can be read.

Amounts are compared by value, as the ledger itself compares them.
-/

namespace MmAudit

namespace CostLedger

open Fallible

/-! ## Entries over a run -/

/-- Two stored entries with equal fields. -/
structure SameRecord (first second : SerializedEntry) : Prop where
  requestId : first.requestId = second.requestId
  reservationId : first.reservationId = second.reservationId
  status : first.status = second.status
  reservedUsd : textValue first.reservedUsd = textValue second.reservedUsd
  actualCostUsd : first.actualCostUsd.map textValue = second.actualCostUsd.map textValue
  accountedCostUsd : textValue first.accountedCostUsd = textValue second.accountedCostUsd
  releaseReason : first.releaseReason = second.releaseReason
  createdAt : first.createdAt = second.createdAt
  updatedAt : first.updatedAt = second.updatedAt

/-- The fields that no transition touches. -/
structure SameIdentity (first second : SerializedEntry) : Prop where
  requestId : first.requestId = second.requestId
  reservationId : first.reservationId = second.reservationId
  reservedUsd : textValue first.reservedUsd = textValue second.reservedUsd
  createdAt : first.createdAt = second.createdAt

/-- Every entry is still there with its identity, and unchanged once closed. -/
def KeepsEntries (before after : SerializedState) : Prop :=
  ∀ key entry, before.entries.get? key = some entry →
    ∃ later, after.entries.get? key = some later ∧ SameIdentity entry later ∧
      (entry.status ≠ .reserved → SameRecord entry later)

theorem SameRecord.refl (entry : SerializedEntry) : SameRecord entry entry :=
  ⟨rfl, rfl, rfl, rfl, rfl, rfl, rfl, rfl, rfl⟩

theorem SameRecord.trans {first second third : SerializedEntry}
    (earlier : SameRecord first second) (later : SameRecord second third) :
    SameRecord first third where
  requestId := earlier.requestId.trans later.requestId
  reservationId := earlier.reservationId.trans later.reservationId
  status := earlier.status.trans later.status
  reservedUsd := earlier.reservedUsd.trans later.reservedUsd
  actualCostUsd := earlier.actualCostUsd.trans later.actualCostUsd
  accountedCostUsd := earlier.accountedCostUsd.trans later.accountedCostUsd
  releaseReason := earlier.releaseReason.trans later.releaseReason
  createdAt := earlier.createdAt.trans later.createdAt
  updatedAt := earlier.updatedAt.trans later.updatedAt

theorem SameRecord.sameIdentity {first second : SerializedEntry}
    (same : SameRecord first second) : SameIdentity first second :=
  ⟨same.requestId, same.reservationId, same.reservedUsd, same.createdAt⟩

theorem SameIdentity.trans {first second third : SerializedEntry}
    (earlier : SameIdentity first second) (later : SameIdentity second third) :
    SameIdentity first third where
  requestId := earlier.requestId.trans later.requestId
  reservationId := earlier.reservationId.trans later.reservationId
  reservedUsd := earlier.reservedUsd.trans later.reservedUsd
  createdAt := earlier.createdAt.trans later.createdAt

theorem KeepsEntries.refl (file : SerializedState) : KeepsEntries file file :=
  fun _ entry stored =>
    ⟨entry, stored, (SameRecord.refl entry).sameIdentity, fun _ => SameRecord.refl entry⟩

theorem KeepsEntries.trans {first second third : SerializedState}
    (earlier : KeepsEntries first second) (later : KeepsEntries second third) :
    KeepsEntries first third := by
  intro key entry stored
  obtain ⟨middle, middleStored, middleIdentity, middleSame⟩ := earlier key entry stored
  obtain ⟨last, lastStored, lastIdentity, lastSame⟩ := later key middle middleStored
  refine ⟨last, lastStored, middleIdentity.trans lastIdentity, fun closed => ?_⟩
  have same := middleSame closed
  exact same.trans (lastSame (same.status ▸ closed))

/-- Writing back an entry that was read changes none of its fields. -/
theorem ReadFrom.sameRecord {serialized : SerializedEntry} {entry : CostEntry}
    (read : ReadFrom serialized entry) : SameRecord serialized (serializeEntry entry) where
  requestId := read.requestId.symm
  reservationId := read.reservationId.symm
  status := read.status.symm
  reservedUsd := read.reservedUsd.symm.trans (textValue_moneyText read.reservedMoney.nonneg).symm
  accountedCostUsd :=
    read.accountedCostUsd.symm.trans (textValue_moneyText read.accountedMoney.nonneg).symm
  actualCostUsd := by
    rw [← read.actualCostUsd]
    cases actualEq : entry.actualCostUsd with
    | none => simp [serializeEntry, actualEq]
    | some actual =>
        simp [serializeEntry, actualEq,
          textValue_moneyText (read.actualMoney actual actualEq).nonneg]
  releaseReason := read.releaseReason.symm
  createdAt := read.createdAt.symm
  updatedAt := read.updatedAt.symm

theorem ValidatedFrom.exists_read {file : SerializedState} {cap : Decimal}
    {entries : Dict String CostEntry} (validated : ValidatedFrom file cap entries)
    {key : String} {serialized : SerializedEntry}
    (stored : file.entries.get? key = some serialized) :
    ∃ entry, entries.get? key = some entry ∧ ReadFrom serialized entry := by
  obtain ⟨entry, parsed, member⟩ :=
    validated.maps.exists_mapped ((Dict.get?_eq_some_iff _ _ _).mp stored)
  exact ⟨entry, (Dict.get?_eq_some_iff _ _ _).mpr member,
    readFrom_of_parseEntry ((parseItem_eq_ok_iff _ _ _).mp parsed).1⟩

theorem keepsEntries_perform (ledger : AtomicCostLedger) (file : SerializedState)
    (operation : LedgerOperation) :
    KeepsEntries file (ledger.perform file operation).file := by
  rcases perform_cases ledger file operation with same | ⟨entries, entry, read, write⟩
  · rw [same]
    exact KeepsEntries.refl file
  obtain ⟨readCap, validated, -⟩ := exists_validatedFrom_of_requiredState read
  have wellFormed := validated.wellFormed
  rw [perform_of_entryWrite read write]
  intro key serialized stored
  obtain ⟨current, currentStored, readFrom⟩ := validated.exists_read stored
  rw [get?_serializeState, Dict.get?_insert]
  by_cases sameKey : key = entry.requestId
  · rw [if_pos sameKey]
    subst sameKey
    refine ⟨serializeEntry entry, rfl, ?_, ?_⟩
    all_goals
      rcases write.replaces wellFormed with absent | ⟨_, replacedStored, active, -, idEq,
        reservedEq, createdEq⟩
      · exact absurd (currentStored.symm.trans absent) (by simp)
      cases currentStored.symm.trans replacedStored
    · have unchanged := readFrom.sameRecord.sameIdentity
      refine ⟨?_, ?_, ?_, ?_⟩
      · rw [unchanged.requestId]
        exact (wellFormed.key _ _ currentStored).symm
      · rw [unchanged.reservationId]
        exact idEq.symm
      · rw [unchanged.reservedUsd]
        simp only [serializeEntry, reservedEq]
      · rw [unchanged.createdAt]
        exact createdEq.symm
    · intro closed
      exact absurd (readFrom.status.symm.trans active) closed
  · rw [if_neg sameKey, currentStored]
    exact ⟨serializeEntry current, rfl, readFrom.sameRecord.sameIdentity,
      fun _ => readFrom.sameRecord⟩

theorem keepsEntries_runLedger (file : SerializedState)
    (history : List (AtomicCostLedger × LedgerOperation)) :
    KeepsEntries file (runLedger file history) := by
  induction history generalizing file with
  | nil => exact KeepsEntries.refl file
  | cons call history ih => exact (keepsEntries_perform call.1 file call.2).trans (ih _)

/-! ## Calls that raise -/

/-- The one call that writes and raises: the first reconciliation of an active
entry at a cost above its reservation. -/
def RecordsOverrun (ledger : AtomicCostLedger) (file : SerializedState)
    (operation : LedgerOperation) (failure : CostLedgerError) : Prop :=
  ∃ reservation actualCostUsd now actual entries current,
    operation = .reconcile reservation actualCostUsd now ∧
    validateActual actualCostUsd = .ok (some actual) ∧ reservation.reservedUsd < actual ∧
    ledger.requiredState file = .ok entries ∧ matchingEntry entries reservation = .ok current ∧
    current.status = .reserved ∧ failure = overrunError reservation ∧
    ∃ recorded, (ledger.perform file operation).file.entries.get? current.requestId =
      some recorded ∧ recorded.status = .reservationOverrun

theorem perform_error_cases {ledger : AtomicCostLedger} {file : SerializedState}
    {operation : LedgerOperation} {failure : CostLedgerError}
    (raised : (ledger.perform file operation).result = .error failure) :
    (ledger.perform file operation).file = file ∨
      RecordsOverrun ledger file operation failure := by
  rcases perform_cases ledger file operation with same | ⟨entries, entry, read, write⟩
  · exact .inl same
  right
  have performed := perform_of_entryWrite read write
  rw [performed] at raised
  have recorded : (ledger.perform file operation).file.entries.get? entry.requestId =
      some (serializeEntry entry) := by
    rw [performed, get?_serializeState, Dict.get?_insert_self, Option.map_some]
  cases write with
  | reserve => cases raised
  | release => cases raised
  | @reconcile reservation actualCostUsd now actual current valid matching active =>
      simp only [writeResult] at raised
      split at raised
      · rename_i overrun
        cases raised
        cases actual with
        | none => cases overrun
        | some amount =>
            have above : reservation.reservedUsd < amount := by
              by_contra notAbove
              simp [reconciledEntry, statusOfActual, notAbove] at overrun
            exact ⟨reservation, actualCostUsd, now, amount, entries, current, rfl, valid, above,
              read, matching, active, rfl, _, recorded, overrun⟩
      · cases raised

/-! ## Repeating a closing call -/

/-- A call that closes an entry, without the clock it reads. -/
inductive ClosingCall
  | reconcile (reservation : CostReservation) (actualCostUsd : Option DecimalArgument)
  | release (reservation : CostReservation) (reason : ReleaseReason)

namespace ClosingCall

/-- The call made at a clock reading. -/
def readingClock (call : ClosingCall) (now : Timestamp) : LedgerOperation :=
  match call with
  | .reconcile reservation actualCostUsd => .reconcile reservation actualCostUsd now
  | .release reservation reason => .release reservation reason now

def handle : ClosingCall → CostReservation
  | .reconcile reservation _ => reservation
  | .release reservation _ => reservation

/-- The stored entry is the one this call leaves. -/
def Closed (call : ClosingCall) (entry : SerializedEntry) : Prop :=
  entry.reservationId = call.handle.reservationId ∧
    textValue entry.reservedUsd = call.handle.reservedUsd.value ∧
    match call with
    | .reconcile reservation actualCostUsd =>
        ∃ actual, validateActual actualCostUsd = .ok actual ∧
          entry.status = statusOfActual reservation.reservedUsd actual ∧
          entry.actualCostUsd.map textValue = actual.map Decimal.value ∧
          textValue entry.accountedCostUsd = (actual.getD reservation.reservedUsd).value
    | .release _ reason => entry.status = .released ∧ entry.releaseReason = some reason

/-- The outcome that goes with a stored entry: the entry, or the overrun it
records. -/
def Reports (call : ClosingCall) (entry : SerializedEntry)
    (result : Except CostLedgerError LedgerResponse) : Prop :=
  if entry.status = .reservationOverrun then
    result = .error (overrunError call.handle)
  else
    ∃ returned, result = .ok (.entry returned) ∧ SameRecord entry (serializeEntry returned) ∧
      WellFormed returned

end ClosingCall

theorem statusOfActual_ne_reserved (reserved : Decimal) (actual : Option Decimal) :
    statusOfActual reserved actual ≠ .reserved := by
  cases actual with
  | none => simp [statusOfActual]
  | some amount =>
      rw [statusOfActual]
      split <;> simp

theorem ClosingCall.Closed.status_ne {call : ClosingCall} {entry : SerializedEntry}
    (closed : call.Closed entry) : entry.status ≠ .reserved := by
  cases call with
  | reconcile reservation actualCostUsd =>
      obtain ⟨-, -, actual, -, status, -⟩ := closed
      rw [status]
      exact statusOfActual_ne_reserved _ _
  | release reservation reason =>
      rw [closed.2.2.1]
      simp

theorem ClosingCall.Closed.congr {call : ClosingCall} {first second : SerializedEntry}
    (closed : call.Closed first) (same : SameRecord first second) : call.Closed second := by
  refine ⟨same.reservationId ▸ closed.1, same.reservedUsd ▸ closed.2.1, ?_⟩
  have rest := closed.2.2
  cases call with
  | reconcile reservation actualCostUsd =>
      obtain ⟨actual, valid, status, actualEq, accounted⟩ := rest
      exact ⟨actual, valid, same.status ▸ status, same.actualCostUsd ▸ actualEq,
        same.accountedCostUsd ▸ accounted⟩
  | release reservation reason =>
      exact ⟨same.status ▸ rest.1, same.releaseReason ▸ rest.2⟩

/-- Both results return equal entries, or raise the same failure. -/
def SameOutcome (first second : Except CostLedgerError LedgerResponse) : Prop :=
  match first, second with
  | .ok (.entry first), .ok (.entry second) => SameEntry first second
  | .error first, .error second => first = second
  | _, _ => False

theorem sameEntry_of_sameRecord {first second : CostEntry}
    (same : SameRecord (serializeEntry first) (serializeEntry second))
    (firstWellFormed : WellFormed first) (secondWellFormed : WellFormed second) :
    SameEntry first second where
  requestId := same.requestId
  reservationId := same.reservationId
  status := same.status
  reservedUsd := by
    simpa only [serializeEntry, textValue_moneyText firstWellFormed.reservedUsd.nonneg,
      textValue_moneyText secondWellFormed.reservedUsd.nonneg] using same.reservedUsd
  accountedCostUsd := by
    simpa only [serializeEntry, textValue_moneyText firstWellFormed.accountedCostUsd.nonneg,
      textValue_moneyText secondWellFormed.accountedCostUsd.nonneg] using same.accountedCostUsd
  actualCostUsd := by
    have value : ∀ entry : CostEntry, WellFormed entry →
        (serializeEntry entry).actualCostUsd.map textValue =
          entry.actualCostUsd.map Decimal.value := by
      intro entry wellFormed
      cases actualEq : entry.actualCostUsd with
      | none => simp [serializeEntry, actualEq]
      | some actual =>
          simp [serializeEntry, actualEq,
            textValue_moneyText (wellFormed.actualCostUsd actual actualEq).nonneg]
    rw [← value first firstWellFormed, ← value second secondWellFormed]
    exact same.actualCostUsd
  releaseReason := same.releaseReason
  createdAt := same.createdAt
  updatedAt := same.updatedAt

theorem SameRecord.symm {first second : SerializedEntry} (same : SameRecord first second) :
    SameRecord second first :=
  ⟨same.requestId.symm, same.reservationId.symm, same.status.symm, same.reservedUsd.symm,
    same.actualCostUsd.symm, same.accountedCostUsd.symm, same.releaseReason.symm,
    same.createdAt.symm, same.updatedAt.symm⟩

theorem sameOutcome_of_reports {call : ClosingCall} {first second : SerializedEntry}
    {firstResult secondResult : Except CostLedgerError LedgerResponse}
    (same : SameRecord first second) (firstReports : call.Reports first firstResult)
    (secondReports : call.Reports second secondResult) :
    SameOutcome firstResult secondResult := by
  rw [ClosingCall.Reports] at firstReports secondReports
  rw [← same.status] at secondReports
  by_cases overrun : first.status = .reservationOverrun
  · rw [if_pos overrun] at firstReports secondReports
    rw [firstReports, secondReports]
    exact rfl
  · rw [if_neg overrun] at firstReports secondReports
    obtain ⟨firstEntry, rfl, firstSame, firstWellFormed⟩ := firstReports
    obtain ⟨secondEntry, rfl, secondSame, secondWellFormed⟩ := secondReports
    exact sameEntry_of_sameRecord (firstSame.symm.trans (same.trans secondSame))
      firstWellFormed secondWellFormed

/-- The handle passes the checks that do not look at the file. -/
def CostReservation.Valid (reservation : CostReservation) : Prop :=
  validateRequestId reservation.requestId = .ok () ∧
    ∃ amount, validateMoney (.finite reservation.reservedUsd) "reserved_usd" true = .ok amount

theorem valid_of_matchingEntry {entries : Dict String CostEntry} {reservation : CostReservation}
    {current : CostEntry} (matching : matchingEntry entries reservation = .ok current) :
    reservation.Valid := by
  simp only [matchingEntry, bind_eq_ok_iff] at matching
  obtain ⟨_, identifier, expected, valid, -⟩ := matching
  exact ⟨identifier, expected, valid⟩

theorem matchingEntry_of_stored {entries : Dict String CostEntry} {reservation : CostReservation}
    {current : CostEntry} (valid : reservation.Valid)
    (stored : entries.get? reservation.requestId = some current)
    (sameId : current.reservationId = reservation.reservationId)
    (sameReserved : current.reservedUsd.value = reservation.reservedUsd.value) :
    matchingEntry entries reservation = .ok current := by
  obtain ⟨identifier, amount, amountValid⟩ := valid
  simp only [matchingEntry, bind_eq_ok_iff]
  refine ⟨(), identifier, amount, amountValid, ?_⟩
  have agrees : ¬ (current.reservationId ≠ reservation.reservationId ∨
      ¬ current.reservedUsd.SameValue amount) := by
    rw [not_or, not_not, not_not, Decimal.sameValue_iff, value_of_validateMoney amountValid]
    exact ⟨sameId, sameReserved⟩
  rw [stored]
  exact if_neg agrees

theorem sameOptionalValue_iff (first second : Option Decimal) :
    sameOptionalValue first second = true ↔
      first.map Decimal.value = second.map Decimal.value := by
  cases first <;> cases second <;> simp [sameOptionalValue, Decimal.sameValue_iff]

/-- Making a closing call on an entry it already closed reports that entry and
writes nothing. -/
theorem perform_of_closed {ledger : AtomicCostLedger} {file : SerializedState}
    {entries : Dict String CostEntry} {call : ClosingCall} {entry : SerializedEntry}
    (read : ledger.requiredState file = .ok entries) (valid : call.handle.Valid)
    (stored : file.entries.get? call.handle.requestId = some entry) (closed : call.Closed entry)
    (now : Timestamp) :
    (ledger.perform file (call.readingClock now)).file = file ∧
      call.Reports entry (ledger.perform file (call.readingClock now)).result := by
  obtain ⟨readCap, validated, -⟩ := exists_validatedFrom_of_requiredState read
  obtain ⟨current, currentStored, readFrom⟩ := validated.exists_read stored
  have wellFormed := validated.wellFormed.entry _ _ currentStored
  have matching := matchingEntry_of_stored valid currentStored
    (readFrom.reservationId.trans closed.1) (readFrom.reservedUsd.trans closed.2.1)
  have inactive : current.status ≠ .reserved := readFrom.status ▸ closed.status_ne
  cases call with
  | reconcile reservation actualCostUsd =>
      obtain ⟨-, -, actual, actualValid, status, actualEq, accounted⟩ := closed
      change matchingEntry entries reservation = .ok current at matching
      have condition : current.status = statusOfActual reservation.reservedUsd actual ∧
          sameOptionalValue current.actualCostUsd actual = true ∧
          current.accountedCostUsd.SameValue (actual.getD reservation.reservedUsd) := by
        rw [sameOptionalValue_iff, Decimal.sameValue_iff]
        exact ⟨readFrom.status.trans status, readFrom.actualCostUsd.trans actualEq,
          readFrom.accountedCostUsd.trans accounted⟩
      have locked : ledger.reconcileLocked file reservation actual now =
          (do raiseIf (current.status = .reservationOverrun) (overrunError reservation)
              .ok { value := (current, false), written := none }) := by
        rw [AtomicCostLedger.reconcileLocked, bind_of_ok read, bind_of_ok matching]
        simp only [if_pos inactive, if_pos condition]
      simp only [ClosingCall.readingClock, AtomicCostLedger.perform, AtomicCostLedger.reconcile,
        actualValid, locked, ClosingCall.Reports, ClosingCall.handle, ← readFrom.status]
      by_cases overrun : current.status = .reservationOverrun
      · simp [overrun, raiseIf, outcomeOf, bind, Except.bind]
      · simp only [overrun, raiseIf, outcomeOf, bind, Except.bind, if_false, Option.getD_none,
          true_and]
        exact ⟨current, rfl, readFrom.sameRecord, wellFormed⟩
  | release reservation reason =>
      obtain ⟨-, -, status, releaseReason⟩ := closed
      have released : current.status = .released := readFrom.status.trans status
      have sameReason : current.releaseReason = some reason :=
        readFrom.releaseReason.trans releaseReason
      have locked : ledger.release file reservation reason now =
          .ok { value := current, written := none } := by
        simp only [AtomicCostLedger.release, bind_eq_ok_iff]
        refine ⟨entries, read, current, matching, ?_⟩
        rw [if_pos released, if_pos sameReason]
      simp only [ClosingCall.readingClock, AtomicCostLedger.perform, locked, outcomeOf,
        Option.getD_none, ClosingCall.Reports, status, reduceCtorEq, if_false, true_and]
      exact ⟨current, rfl, readFrom.sameRecord, wellFormed⟩

/-- The results that settle an entry: the entry itself, or its overrun. -/
def ClosingCall.Settles (call : ClosingCall) (result : Except CostLedgerError LedgerResponse) :
    Prop :=
  (∃ entry, result = .ok (.entry entry)) ∨ result = .error (overrunError call.handle)

theorem not_settles_error {call : ClosingCall} {failure : CostLedgerError}
    (different : failure ≠ overrunError call.handle) : ¬ call.Settles (.error failure) := by
  rintro (⟨entry, impossible⟩ | same)
  · cases impossible
  · exact different (Except.error.inj same)

theorem requiredState_ne_overrun {ledger : AtomicCostLedger} {file : SerializedState}
    {failure : CostLedgerError} (raised : ledger.requiredState file = .error failure)
    {reservation : CostReservation} : failure ≠ overrunError reservation := by
  rcases requiredState_error raised with ⟨_, rfl⟩ | ⟨_, rfl⟩ <;> simp [overrunError]

theorem matchingEntry_ne_overrun {entries : Dict String CostEntry}
    {reservation other : CostReservation} {failure : CostLedgerError}
    (raised : matchingEntry entries reservation = .error failure) :
    failure ≠ overrunError other := by
  rcases matchingEntry_error raised with ⟨_, rfl⟩ | ⟨_, rfl⟩ <;> simp [overrunError]

theorem exists_stored_of_read {ledger : AtomicCostLedger} {file : SerializedState}
    {entries : Dict String CostEntry} (read : ledger.requiredState file = .ok entries)
    {key : String} {current : CostEntry} (stored : entries.get? key = some current) :
    ∃ entry, file.entries.get? key = some entry ∧ ReadFrom entry current := by
  obtain ⟨readCap, validated, -⟩ := exists_validatedFrom_of_requiredState read
  obtain ⟨entry, member, parsed⟩ :=
    validated.maps.exists_original ((Dict.get?_eq_some_iff _ _ _).mp stored)
  exact ⟨entry, (Dict.get?_eq_some_iff _ _ _).mpr member,
    readFrom_of_parseEntry ((parseItem_eq_ok_iff _ _ _).mp parsed).1⟩

/-- A closing write leaves the closed entry and reports it. -/
theorem closed_of_entryWrite {ledger : AtomicCostLedger} {entries : Dict String CostEntry}
    {call : ClosingCall} {now : Timestamp} {entry : CostEntry}
    (wellFormed : WellFormedEntries entries)
    (write : EntryWrite ledger entries (call.readingClock now) entry) :
    call.handle.Valid ∧ entry.requestId = call.handle.requestId ∧
      call.Closed (serializeEntry entry) ∧
      call.Reports (serializeEntry entry) (writeResult (call.readingClock now) entry) := by
  have entryWellFormed := write.wellFormed wellFormed
  have reservedText := textValue_moneyText entryWellFormed.reservedUsd.nonneg
  have accountedText := textValue_moneyText entryWellFormed.accountedCostUsd.nonneg
  cases call with
  | reconcile reservation actualCostUsd =>
      cases write with
      | @reconcile _ _ _ actual current valid matching active =>
          obtain ⟨stored, sameId, sameReserved⟩ := of_matchingEntry matching
          refine ⟨valid_of_matchingEntry matching, (wellFormed.key _ _ stored).symm,
            ⟨sameId, reservedText.trans sameReserved, actual, valid, rfl, ?_, accountedText⟩, ?_⟩
          · cases actual with
            | none => rfl
            | some amount =>
                exact congrArg some (textValue_moneyText
                  (entryWellFormed.actualCostUsd amount rfl).nonneg)
          · simp only [ClosingCall.Reports, writeResult, ClosingCall.readingClock,
              serializeEntry, ClosingCall.handle]
            split
            · rfl
            · exact ⟨_, rfl, SameRecord.refl _, entryWellFormed⟩
  | release reservation reason =>
      cases write with
      | @release _ _ _ current matching active =>
          obtain ⟨stored, sameId, sameReserved⟩ := of_matchingEntry matching
          refine ⟨valid_of_matchingEntry matching, (wellFormed.key _ _ stored).symm,
            ⟨sameId, reservedText.trans sameReserved, rfl, rfl⟩, ?_⟩
          rw [ClosingCall.Reports, if_neg (by simp [serializeEntry, releasedEntry])]
          exact ⟨_, rfl, SameRecord.refl _, entryWellFormed⟩

/-- A settled call that wrote nothing found its entry already closed. -/
theorem closed_of_settles_without_write {ledger : AtomicCostLedger} {file : SerializedState}
    {call : ClosingCall} {now : Timestamp}
    (settles : call.Settles (ledger.perform file (call.readingClock now)).result)
    (noWrite : ¬ ∃ entries entry, ledger.requiredState file = .ok entries ∧
      EntryWrite ledger entries (call.readingClock now) entry) :
    ∃ entries, ledger.requiredState file = .ok entries ∧ call.handle.Valid ∧
      ∃ entry, file.entries.get? call.handle.requestId = some entry ∧ call.Closed entry := by
  cases call with
  | reconcile reservation actualCostUsd =>
      cases valid : validateActual actualCostUsd with
      | error failure =>
          simp only [ClosingCall.readingClock, AtomicCostLedger.perform,
            AtomicCostLedger.reconcile, valid] at settles
          obtain ⟨_, rfl⟩ := validateActual_error valid
          exact absurd settles (not_settles_error (by simp [overrunError]))
      | ok actual =>
          simp only [ClosingCall.readingClock, AtomicCostLedger.perform,
            AtomicCostLedger.reconcile, valid, AtomicCostLedger.reconcileLocked] at settles
          cases read : ledger.requiredState file with
          | error failure =>
              rw [bind_of_error read] at settles
              exact absurd settles (not_settles_error (requiredState_ne_overrun read))
          | ok entries =>
              rw [bind_of_ok read] at settles
              cases matching : matchingEntry entries reservation with
              | error failure =>
                  rw [bind_of_error matching] at settles
                  exact absurd settles (not_settles_error (matchingEntry_ne_overrun matching))
              | ok current =>
                  rw [bind_of_ok matching] at settles
                  have inactive : current.status ≠ .reserved := fun active =>
                    noWrite ⟨entries, _, read, .reconcile valid matching active⟩
                  simp only [if_pos inactive] at settles
                  split at settles
                  · rename_i condition
                    rw [sameOptionalValue_iff, Decimal.sameValue_iff] at condition
                    obtain ⟨status, actualEq, accounted⟩ := condition
                    obtain ⟨stored, sameId, sameReserved⟩ := of_matchingEntry matching
                    obtain ⟨entry, entryStored, from'⟩ := exists_stored_of_read read stored
                    exact ⟨entries, rfl, valid_of_matchingEntry matching, entry, entryStored,
                      from'.reservationId.symm.trans sameId,
                      from'.reservedUsd.symm.trans sameReserved, actual, valid,
                      from'.status.symm.trans status, from'.actualCostUsd.symm.trans actualEq,
                      from'.accountedCostUsd.symm.trans accounted⟩
                  · exact absurd settles
                      (not_settles_error (by simp [overrunError, finalizedError]))
  | release reservation reason =>
      simp only [ClosingCall.readingClock, AtomicCostLedger.perform,
        AtomicCostLedger.release] at settles
      cases read : ledger.requiredState file with
      | error failure =>
          rw [bind_of_error read] at settles
          exact absurd settles (not_settles_error (requiredState_ne_overrun read))
      | ok entries =>
          rw [bind_of_ok read] at settles
          cases matching : matchingEntry entries reservation with
          | error failure =>
              rw [bind_of_error matching] at settles
              exact absurd settles (not_settles_error (matchingEntry_ne_overrun matching))
          | ok current =>
              rw [bind_of_ok matching] at settles
              have inactive : current.status ≠ .reserved := fun active =>
                noWrite ⟨entries, _, read, .release matching active⟩
              split at settles
              · rename_i released
                split at settles
                · rename_i sameReason
                  obtain ⟨stored, sameId, sameReserved⟩ := of_matchingEntry matching
                  obtain ⟨entry, entryStored, from'⟩ := exists_stored_of_read read stored
                  exact ⟨entries, rfl, valid_of_matchingEntry matching, entry, entryStored,
                    from'.reservationId.symm.trans sameId,
                    from'.reservedUsd.symm.trans sameReserved, from'.status.symm.trans released,
                    from'.releaseReason.symm.trans sameReason⟩
                · exact absurd settles (not_settles_error (by simp [overrunError]))
              · exact absurd settles (not_settles_error (by simp [overrunError, finalizedError]))

/-- A settled closing call leaves its entry closed and reports it. -/
theorem exists_closed_of_settles {ledger : AtomicCostLedger} {file : SerializedState}
    {call : ClosingCall} {now : Timestamp}
    (settles : call.Settles (ledger.perform file (call.readingClock now)).result) :
    (∃ entries, ledger.requiredState file = .ok entries) ∧ call.handle.Valid ∧
      ∃ entry, (ledger.perform file (call.readingClock now)).file.entries.get?
          call.handle.requestId = some entry ∧
        call.Closed entry ∧
        call.Reports entry (ledger.perform file (call.readingClock now)).result := by
  by_cases write : ∃ entries entry, ledger.requiredState file = .ok entries ∧
      EntryWrite ledger entries (call.readingClock now) entry
  · obtain ⟨entries, entry, read, write⟩ := write
    obtain ⟨readCap, validated, -⟩ := exists_validatedFrom_of_requiredState read
    obtain ⟨valid, keyEq, closed, reports⟩ := closed_of_entryWrite validated.wellFormed write
    rw [perform_of_entryWrite read write]
    refine ⟨⟨entries, read⟩, valid, serializeEntry entry, ?_, closed, reports⟩
    rw [get?_serializeState, ← keyEq, Dict.get?_insert_self, Option.map_some]
  · obtain ⟨entries, read, valid, entry, stored, closed⟩ :=
      closed_of_settles_without_write settles write
    obtain ⟨same, reports⟩ := perform_of_closed read valid stored closed now
    exact ⟨⟨entries, read⟩, valid, entry, by rw [same]; exact stored, closed, reports⟩

/-! ## Repetition over a run -/

theorem usable_of_requiredState {ledger : AtomicCostLedger} {file : SerializedState}
    {entries : Dict String CostEntry} (read : ledger.requiredState file = .ok entries) :
    Usable file := by
  obtain ⟨bounded, cap, accepted, -⟩ := requiredState_eq_ok_iff.mp read
  exact (usable_iff file).mpr ⟨bounded, cap, entries, accepted⟩

/-- A file that cannot be used never changes again. -/
theorem runLedger_of_not_usable {file : SerializedState} (unusable : ¬ Usable file)
    (history : List (AtomicCostLedger × LedgerOperation)) : runLedger file history = file := by
  induction history with
  | nil => rfl
  | cons call history ih =>
      have same : (call.1.perform file call.2).file = file := by
        rcases perform_cases call.1 file call.2 with same | ⟨entries, entry, read, -⟩
        · exact same
        · exact absurd (usable_of_requiredState read) unusable
      rw [runLedger_cons, same, ih]

theorem usable_runLedger_iff {file : SerializedState} (usable : Usable file)
    (history : List (AtomicCostLedger × LedgerOperation)) :
    Usable (runLedger file history) ↔ AllCareful file history := by
  rw [← usable_along_iff usable history]
  constructor
  · rintro finalUsable before ⟨after, rfl⟩
    by_contra unusable
    rw [runLedger_append, runLedger_of_not_usable unusable] at finalUsable
    exact unusable finalUsable
  · exact fun along => along history List.prefix_rfl

theorem Written.exists_requiredState {cap : ℚ} {file : SerializedState}
    (written : Written cap file) (usable : Usable file) {ledger : AtomicCostLedger}
    (capEq : ledger.capUsd.value = cap) : ∃ entries, ledger.requiredState file = .ok entries := by
  obtain ⟨bounded, readCap, entries, accepted⟩ := (usable_iff file).mp usable
  obtain ⟨capUsd, writtenEntries, rfl, capMoney, rfl, -⟩ := written
  have validated := validatedFrom_of_validateState accepted
  have readValue : readCap.value = capUsd.value :=
    (parseCap_eq_ok validated.cap_parsed).2.trans (textValue_moneyText capMoney.nonneg)
  exact ⟨entries, requiredState_eq_ok_iff.mpr
    ⟨bounded, readCap, accepted, readValue.trans capEq.symm⟩⟩

/-- Making the call again, after any other calls, changes nothing and gives the
outcome of the first time. -/
def RepeatsAfter (ledger : AtomicCostLedger) (file : SerializedState) (call : ClosingCall)
    (now later : Timestamp) (between : List (AtomicCostLedger × LedgerOperation)) : Prop :=
  let first := ledger.perform file (call.readingClock now)
  let reached := runLedger first.file between
  let second := ledger.perform reached (call.readingClock later)
  second.file = reached ∧ SameOutcome first.result second.result

theorem repeatsAfter_iff {cap : ℚ} {file : SerializedState} (written : Written cap file)
    {ledger : AtomicCostLedger} {call : ClosingCall} {now : Timestamp}
    (settles : call.Settles (ledger.perform file (call.readingClock now)).result)
    (later : Timestamp) (between : List (AtomicCostLedger × LedgerOperation)) :
    RepeatsAfter ledger file call now later between ↔
      AllCareful file ((ledger, call.readingClock now) :: between) := by
  obtain ⟨⟨entries, read⟩, valid, entry, stored, closed, reports⟩ :=
    exists_closed_of_settles settles
  have usable := usable_of_requiredState read
  have reachedWritten := (written.perform ledger (call.readingClock now)).runLedger between
  rw [← usable_runLedger_iff usable, runLedger_cons]
  obtain ⟨last, lastStored, -, lastSame⟩ :=
    keepsEntries_runLedger (ledger.perform file (call.readingClock now)).file between _ _ stored
  have sameRecord := lastSame closed.status_ne
  constructor
  · rintro ⟨-, sameOutcome⟩
    by_contra unusable
    -- Every check before the file passes again, so the second call meets the bad file.
    have secondSettles : call.Settles (ledger.perform (runLedger
        (ledger.perform file (call.readingClock now)).file between)
        (call.readingClock later)).result := by
      rcases settles with ⟨returned, firstEq⟩ | firstEq
      · rw [firstEq] at sameOutcome
        left
        revert sameOutcome
        cases (ledger.perform (runLedger (ledger.perform file (call.readingClock now)).file
            between) (call.readingClock later)).result with
        | error failure => exact fun impossible => impossible.elim
        | ok response =>
            cases response with
            | entry other => exact fun _ => ⟨other, rfl⟩
            | reservation _ => exact fun impossible => impossible.elim
            | active _ => exact fun impossible => impossible.elim
            | snapshot _ => exact fun impossible => impossible.elim
      · rw [firstEq] at sameOutcome
        right
        revert sameOutcome
        cases (ledger.perform (runLedger (ledger.perform file (call.readingClock now)).file
            between) (call.readingClock later)).result with
        | error failure => exact fun same => congrArg Except.error (Eq.symm same)
        | ok response => exact fun impossible => impossible.elim
    obtain ⟨⟨readAgain, readAgainEq⟩, -⟩ := exists_closed_of_settles secondSettles
    exact unusable (usable_of_requiredState readAgainEq)
  · intro reachedUsable
    obtain ⟨readAgain, readAgainEq⟩ :=
      reachedWritten.exists_requiredState reachedUsable (written.cap_eq read)
    obtain ⟨same, secondReports⟩ :=
      perform_of_closed readAgainEq valid lastStored (closed.congr sameRecord) later
    exact ⟨same, sameOutcome_of_reports sameRecord reports secondReports⟩

/-- The lifecycle of the entries of a ledger over every run.  Entries keep their
identity and are final once closed, a raising call writes only an overrun, and a
settled closing call can be repeated at any later point exactly when the call
and those between were careful. -/
theorem entry_lifecycle (creator : AtomicCostLedger)
    (history : List (AtomicCostLedger × LedgerOperation)) :
    (∀ after, KeepsEntries (runLedger (newState creator.capUsd) history)
      (runLedger (newState creator.capUsd) (history ++ after))) ∧
    (∀ (ledger : AtomicCostLedger) operation failure,
      (ledger.perform (runLedger (newState creator.capUsd) history) operation).result =
          .error failure →
        (ledger.perform (runLedger (newState creator.capUsd) history) operation).file =
            runLedger (newState creator.capUsd) history ∨
          RecordsOverrun ledger (runLedger (newState creator.capUsd) history) operation
            failure) ∧
    ∀ (ledger : AtomicCostLedger) (call : ClosingCall) now later between,
      call.Settles (ledger.perform (runLedger (newState creator.capUsd) history)
        (call.readingClock now)).result →
      (RepeatsAfter ledger (runLedger (newState creator.capUsd) history) call now later between ↔
        AllCareful (runLedger (newState creator.capUsd) history)
          ((ledger, call.readingClock now) :: between)) := by
  refine ⟨fun after => ?_, fun ledger operation failure => perform_error_cases, ?_⟩
  · rw [runLedger_append]
    exact keepsEntries_runLedger _ after
  · intro ledger call now later between settles
    exact repeatsAfter_iff ((written_newState creator).runLedger history) settles later between

/-- Repeating a reconciliation made under a clock that went back raises instead
of returning the entry again. -/
theorem clock_behind_breaks_repetition :
    (∃ entry, (sampleLedger.perform
      (runLedger (newState sampleLedger.capUsd) [sampleReserve 10]) (sampleReconcile 5).2).result =
        .ok (.entry entry)) ∧
    (sampleLedger.perform clockBehindFile (sampleReconcile 5).2).result =
      .error (.corrupt "cost ledger entry timestamp order is invalid") := by
  refine ⟨⟨reconciledEntry (reservedEntry "request-1" ⟨10, 0⟩ 10 sampleFresh) sampleReservation
    (some ⟨725, -2⟩) 5, ?_⟩, ?_⟩
  · decide +kernel
  · decide +kernel

end CostLedger

end MmAudit
