import MmAudit.CostLedger.Reading

/-!
# What one ledger operation can do

A call either leaves the file alone or replaces one entry: it adds a new
reservation, or it closes an active one.  The inversion below states every such
write with the checks that precede it, so that properties of runs never look
into the operations again.
-/

namespace MmAudit

namespace CostLedger

open Fallible

/-- The entry that a new reservation adds. -/
def reservedEntry (requestId : String) (requested : Decimal) (now : Timestamp)
    (fresh : FreshReservationId) : CostEntry where
  requestId := requestId
  reservationId := fresh.1
  status := .reserved
  reservedUsd := requested
  actualCostUsd := none
  accountedCostUsd := 0
  releaseReason := none
  createdAt := now
  updatedAt := now

/-- The entry that a reconciliation leaves. -/
def reconciledEntry (current : CostEntry) (reservation : CostReservation)
    (actual : Option Decimal) (now : Timestamp) : CostEntry where
  requestId := current.requestId
  reservationId := current.reservationId
  status := statusOfActual reservation.reservedUsd actual
  reservedUsd := current.reservedUsd
  actualCostUsd := actual
  accountedCostUsd := actual.getD reservation.reservedUsd
  releaseReason := none
  createdAt := current.createdAt
  updatedAt := now

/-- The entry that a release leaves. -/
def releasedEntry (current : CostEntry) (reason : ReleaseReason) (now : Timestamp) :
    CostEntry where
  requestId := current.requestId
  reservationId := current.reservationId
  status := .released
  reservedUsd := current.reservedUsd
  actualCostUsd := none
  accountedCostUsd := 0
  releaseReason := some reason
  createdAt := current.createdAt
  updatedAt := now

/-- The entry a call writes over the entries it read, with the checks that
precede the write. -/
inductive EntryWrite (ledger : AtomicCostLedger) (entries : Dict String CostEntry) :
    LedgerOperation → CostEntry → Prop
  | reserve {requestId : String} {maximumCostUsd : DecimalArgument} {now : Timestamp}
      {fresh : FreshReservationId} {requested : Decimal}
      (identifier : matchesRequestIdPattern requestId = true)
      (valid : validateMoney maximumCostUsd "maximum_cost_usd" true = .ok requested)
      (absent : entries.get? requestId = none)
      (noOverrun : (snapshotOf ledger.capUsd entries).hasReservationOverrun = false)
      (fits : ¬ (snapshotOf ledger.capUsd entries).remainingUsd < requested) :
      EntryWrite ledger entries (.reserve requestId maximumCostUsd now fresh)
        (reservedEntry requestId requested now fresh)
  | reconcile {reservation : CostReservation} {actualCostUsd : Option DecimalArgument}
      {now : Timestamp} {actual : Option Decimal} {current : CostEntry}
      (valid : validateActual actualCostUsd = .ok actual)
      (matching : matchingEntry entries reservation = .ok current)
      (active : current.status = .reserved) :
      EntryWrite ledger entries (.reconcile reservation actualCostUsd now)
        (reconciledEntry current reservation actual now)
  | release {reservation : CostReservation} {reason : ReleaseReason} {now : Timestamp}
      {current : CostEntry}
      (matching : matchingEntry entries reservation = .ok current)
      (active : current.status = .reserved) :
      EntryWrite ledger entries (.release reservation reason now)
        (releasedEntry current reason now)

/-- What a writing call hands back: the handle of a new reservation, the closed
entry, or the overrun it recorded. -/
def writeResult : LedgerOperation → CostEntry → Except CostLedgerError LedgerResponse
  | .reserve .., entry =>
      .ok (.reservation ⟨entry.requestId, entry.reservationId, entry.reservedUsd⟩)
  | .reconcile reservation .., entry =>
      if entry.status = .reservationOverrun then
        .error (overrunError reservation)
      else
        .ok (.entry entry)
  | _, entry => .ok (.entry entry)

theorem validateRequestId_eq_ok_iff {identifier : String} {done : Unit} :
    validateRequestId identifier = .ok done ↔ matchesRequestIdPattern identifier = true := by
  simp [validateRequestId]

/-- A call that passes the checks of a write installs it. -/
theorem perform_of_entryWrite {ledger : AtomicCostLedger} {file : SerializedState}
    {operation : LedgerOperation} {entries : Dict String CostEntry} {entry : CostEntry}
    (read : ledger.requiredState file = .ok entries)
    (write : EntryWrite ledger entries operation entry) :
    ledger.perform file operation =
      ⟨serializeState ledger.capUsd (entries.insert entry.requestId entry),
        writeResult operation entry⟩ := by
  cases write with
  | @reserve requestId maximum now fresh requested identifier valid absent noOverrun fits =>
      have notMem : requestId ∉ entries := (Dict.get?_eq_none_iff _ _).mp absent
      have success : ledger.reserve file requestId maximum now fresh = .ok
          ⟨⟨requestId, fresh.1, requested⟩, some (serializeState ledger.capUsd
            (entries.insert requestId (reservedEntry requestId requested now fresh)))⟩ := by
        simp only [AtomicCostLedger.reserve, bind_eq_ok_iff]
        exact ⟨(), validateRequestId_eq_ok_iff.mpr identifier, requested, valid, entries, read,
          (), raiseIf_eq_ok_iff.mpr notMem, (), raiseIf_eq_ok_iff.mpr (by simp [noOverrun]),
          (), raiseIf_eq_ok_iff.mpr fits, rfl⟩
      simp only [AtomicCostLedger.perform, success, outcomeOf]
      rfl
  | @reconcile reservation _ now actual current valid matching active =>
      have success : ledger.reconcileLocked file reservation actual now = .ok
          ⟨(reconciledEntry current reservation actual now,
              statusOfActual reservation.reservedUsd actual = .reservationOverrun),
            some (serializeState ledger.capUsd (entries.insert current.requestId
              (reconciledEntry current reservation actual now)))⟩ := by
        simp only [AtomicCostLedger.reconcileLocked, bind_eq_ok_iff]
        refine ⟨entries, read, current, matching, ?_⟩
        rw [if_neg (not_not.mpr active)]
        rfl
      simp only [AtomicCostLedger.perform, AtomicCostLedger.reconcile, valid, success, outcomeOf]
      by_cases overrun : statusOfActual reservation.reservedUsd actual = .reservationOverrun
      · simp [overrun, writeResult, reconciledEntry]
      · simp [overrun, writeResult, reconciledEntry]
  | @release reservation reason now current matching active =>
      have success : ledger.release file reservation reason now = .ok
          ⟨releasedEntry current reason now,
            some (serializeState ledger.capUsd (entries.insert current.requestId
              (releasedEntry current reason now)))⟩ := by
        simp only [AtomicCostLedger.release, bind_eq_ok_iff]
        refine ⟨entries, read, current, matching, ?_⟩
        rw [if_neg (by simp [active]), if_neg (not_not.mpr active)]
        rfl
      simp only [AtomicCostLedger.perform, success, outcomeOf]
      rfl

theorem outcomeOf_file_of_error {Value : Type} {file : SerializedState}
    {locked : Except CostLedgerError (Locked Value)} {failure : CostLedgerError}
    (raised : locked = .error failure)
    (finish : Value → Except CostLedgerError LedgerResponse) :
    (outcomeOf file locked finish).file = file := by
  rw [raised, outcomeOf]

theorem outcomeOf_file_of_ok {Value : Type} {file : SerializedState}
    {locked : Except CostLedgerError (Locked Value)} {done : Locked Value}
    (success : locked = .ok done)
    (finish : Value → Except CostLedgerError LedgerResponse) :
    (outcomeOf file locked finish).file = done.written.getD file := by
  rw [success, outcomeOf]

theorem reserve_cases {ledger : AtomicCostLedger} {file : SerializedState} {requestId : String}
    {maximumCostUsd : DecimalArgument} {now : Timestamp} {fresh : FreshReservationId}
    {done : Locked CostReservation}
    (success : ledger.reserve file requestId maximumCostUsd now fresh = .ok done) :
    ∃ entries entry, ledger.requiredState file = .ok entries ∧
      EntryWrite ledger entries (.reserve requestId maximumCostUsd now fresh) entry := by
  simp only [AtomicCostLedger.reserve, bind_eq_ok_iff] at success
  obtain ⟨_, identifier, requested, valid, entries, read, _, absent, _, noOverrun, _, fits, -⟩ :=
    success
  have absent' := raiseIf_eq_ok_iff.mp absent
  exact ⟨entries, _, read, .reserve (validateRequestId_eq_ok_iff.mp identifier) valid
    ((Dict.get?_eq_none_iff _ _).mpr absent') (by simpa using raiseIf_eq_ok_iff.mp noOverrun)
    (raiseIf_eq_ok_iff.mp fits)⟩

theorem reconcileLocked_cases {ledger : AtomicCostLedger} {file : SerializedState}
    {reservation : CostReservation} {actualCostUsd : Option DecimalArgument}
    {actual : Option Decimal} {now : Timestamp} {done : Locked (CostEntry × Bool)}
    (valid : validateActual actualCostUsd = .ok actual)
    (success : ledger.reconcileLocked file reservation actual now = .ok done) :
    done.written = none ∨
      ∃ entries entry, ledger.requiredState file = .ok entries ∧
        EntryWrite ledger entries (.reconcile reservation actualCostUsd now) entry := by
  simp only [AtomicCostLedger.reconcileLocked, bind_eq_ok_iff] at success
  obtain ⟨entries, read, current, matching, decided⟩ := success
  by_cases active : current.status = .reserved
  · exact .inr ⟨entries, _, read, .reconcile valid matching active⟩
  · rw [if_pos active] at decided
    split at decided
    · obtain ⟨_, -, doneEq⟩ := bind_eq_ok_iff.mp decided
      cases doneEq
      exact .inl rfl
    · cases decided

theorem release_cases {ledger : AtomicCostLedger} {file : SerializedState}
    {reservation : CostReservation} {reason : ReleaseReason} {now : Timestamp}
    {done : Locked CostEntry}
    (success : ledger.release file reservation reason now = .ok done) :
    done.written = none ∨
      ∃ entries entry, ledger.requiredState file = .ok entries ∧
        EntryWrite ledger entries (.release reservation reason now) entry := by
  simp only [AtomicCostLedger.release, bind_eq_ok_iff] at success
  obtain ⟨entries, read, current, matching, decided⟩ := success
  by_cases active : current.status = .reserved
  · exact .inr ⟨entries, _, read, .release matching active⟩
  · split at decided
    · split at decided
      · cases decided
        exact .inl rfl
      · cases decided
    · cases decided

/-- A call leaves the file alone or installs one entry write. -/
theorem perform_cases (ledger : AtomicCostLedger) (file : SerializedState)
    (operation : LedgerOperation) :
    (ledger.perform file operation).file = file ∨
      ∃ entries entry, ledger.requiredState file = .ok entries ∧
        EntryWrite ledger entries operation entry := by
  cases operation with
  | reserve requestId maximumCostUsd now fresh =>
      cases outcome : ledger.reserve file requestId maximumCostUsd now fresh with
      | error failure => exact .inl (outcomeOf_file_of_error outcome _)
      | ok done => exact .inr (reserve_cases outcome)
  | reconcile reservation actualCostUsd now =>
      simp only [AtomicCostLedger.perform, AtomicCostLedger.reconcile]
      cases valid : validateActual actualCostUsd with
      | error failure => exact .inl rfl
      | ok actual =>
          cases outcome : ledger.reconcileLocked file reservation actual now with
          | error failure => exact .inl (outcomeOf_file_of_error outcome _)
          | ok done =>
              refine (reconcileLocked_cases valid outcome).imp (fun unwritten => ?_) id
              exact (outcomeOf_file_of_ok outcome _).trans (by rw [unwritten, Option.getD_none])
  | release reservation reason now =>
      cases outcome : ledger.release file reservation reason now with
      | error failure => exact .inl (outcomeOf_file_of_error outcome _)
      | ok done =>
          refine (release_cases outcome).imp (fun unwritten => ?_) id
          rw [AtomicCostLedger.perform, outcomeOf_file_of_ok outcome, unwritten, Option.getD_none]
  | activeReservation requestId => exact .inl rfl
  | snapshot => exact .inl rfl

/-! ## The entry a write is about -/

/-- A matching handle names a stored entry with the same reserved amount. -/
theorem of_matchingEntry {entries : Dict String CostEntry} {reservation : CostReservation}
    {current : CostEntry} (matching : matchingEntry entries reservation = .ok current) :
    entries.get? reservation.requestId = some current ∧
      current.reservationId = reservation.reservationId ∧
      current.reservedUsd.value = reservation.reservedUsd.value := by
  simp only [matchingEntry, bind_eq_ok_iff] at matching
  obtain ⟨_, -, expected, valid, decided⟩ := matching
  split at decided
  · cases decided
  · rename_i stored
    split at decided
    · cases decided
    · rename_i agrees
      cases decided
      rw [not_or, not_not, not_not, Decimal.sameValue_iff] at agrees
      exact ⟨stored, agrees.1, agrees.2.trans (value_of_validateMoney valid)⟩

/-- The entry a write replaces is active and keeps its identity; a write that
replaces nothing is a reservation under a new request ID. -/
theorem EntryWrite.replaces {ledger : AtomicCostLedger} {entries : Dict String CostEntry}
    {operation : LedgerOperation} {entry : CostEntry}
    (write : EntryWrite ledger entries operation entry) (wellFormed : WellFormedEntries entries) :
    entries.get? entry.requestId = none ∨
      ∃ current, entries.get? entry.requestId = some current ∧ current.status = .reserved ∧
        entry.status ≠ .reserved ∧ entry.reservationId = current.reservationId ∧
        entry.reservedUsd = current.reservedUsd ∧ entry.createdAt = current.createdAt := by
  cases write with
  | reserve identifier valid absent noOverrun fits => exact .inl absent
  | @reconcile reservation _ now actual current valid matching active =>
      have stored := (of_matchingEntry matching).1
      have keyEq := wellFormed.key _ _ stored
      rw [keyEq] at stored
      refine .inr ⟨current, stored, active, ?_, rfl, rfl, rfl⟩
      cases actual with
      | none => simp [reconciledEntry, statusOfActual]
      | some actual =>
          simp only [reconciledEntry, statusOfActual]
          split <;> simp
  | @release reservation reason now current matching active =>
      have stored := (of_matchingEntry matching).1
      have keyEq := wellFormed.key _ _ stored
      rw [keyEq] at stored
      exact .inr ⟨current, stored, active, by simp [releasedEntry], rfl, rfl, rfl⟩

theorem money_of_validateActual {actualCostUsd : Option DecimalArgument} {actual : Option Decimal}
    (valid : validateActual actualCostUsd = .ok actual) :
    ∀ amount, actual = some amount → Money false amount := by
  cases actualCostUsd with
  | none =>
      obtain rfl := Except.ok.inj valid
      exact fun amount impossible => nomatch impossible
  | some argument =>
      simp only [validateActual, map_eq_ok_iff] at valid
      obtain ⟨number, accepted, rfl⟩ := valid
      intro amount same
      cases same
      exact money_of_validateMoney accepted

/-- Every write leaves a well-formed entry. -/
theorem EntryWrite.wellFormed {ledger : AtomicCostLedger} {entries : Dict String CostEntry}
    {operation : LedgerOperation} {entry : CostEntry}
    (write : EntryWrite ledger entries operation entry) (wellFormed : WellFormedEntries entries) :
    WellFormed entry := by
  cases write with
  | @reserve requestId _ now fresh requested identifier valid absent noOverrun fits =>
      exact {
        requestId := identifier
        reservationId := fresh.2
        reservedUsd := money_of_validateMoney valid
        accountedCostUsd := money_zero
        actualCostUsd := fun actual impossible => by cases impossible
        lifecycle := by simp [lifecycleIsValid, reservedEntry, Decimal.sameValue_iff] }
  | @reconcile reservation _ now actual current valid matching active =>
      obtain ⟨stored, -, reservedValue⟩ := of_matchingEntry matching
      have currentWellFormed := wellFormed.entry _ _ stored
      have actualMoney := money_of_validateActual valid
      refine {
        requestId := currentWellFormed.requestId
        reservationId := currentWellFormed.reservationId
        reservedUsd := currentWellFormed.reservedUsd
        accountedCostUsd := ?_
        actualCostUsd := actualMoney
        lifecycle := ?_ }
      · cases actual with
        | none => exact (currentWellFormed.reservedUsd.congr reservedValue).weaken
        | some amount => exact actualMoney amount rfl
      · cases actual with
        | none =>
            simp [lifecycleIsValid, reconciledEntry, statusOfActual, Decimal.sameValue_iff,
              reservedValue]
        | some amount =>
            by_cases overrun : reservation.reservedUsd < amount
            · have above : current.reservedUsd < amount := by
                rw [Decimal.lt_iff_value_lt] at overrun ⊢
                rwa [reservedValue]
              simp [lifecycleIsValid, reconciledEntry, statusOfActual, Decimal.sameValue_iff,
                overrun, above]
            · have below : amount ≤ current.reservedUsd := by
                rw [Decimal.lt_iff_value_lt, not_lt] at overrun
                rwa [Decimal.le_iff_value_le, reservedValue]
              simp [lifecycleIsValid, reconciledEntry, statusOfActual, Decimal.sameValue_iff,
                overrun, below]
  | @release reservation reason now current matching active =>
      obtain ⟨stored, -, -⟩ := of_matchingEntry matching
      have currentWellFormed := wellFormed.entry _ _ stored
      exact {
        requestId := currentWellFormed.requestId
        reservationId := currentWellFormed.reservationId
        reservedUsd := currentWellFormed.reservedUsd
        accountedCostUsd := money_zero
        actualCostUsd := fun actual impossible => by cases impossible
        lifecycle := by simp [lifecycleIsValid, releasedEntry, Decimal.sameValue_iff] }

/-! ## Files that a run can reach -/

/-- A file holding well-formed entries under a cap of the given value. -/
def Written (cap : ℚ) (file : SerializedState) : Prop :=
  ∃ capUsd entries, file = serializeState capUsd entries ∧ Money true capUsd ∧
    capUsd.value = cap ∧ WellFormedEntries entries

theorem AtomicCostLedger.capUsd_money (ledger : AtomicCostLedger) : Money true ledger.capUsd :=
  money_of_validateMoney ledger.capUsd_valid

theorem written_newState (ledger : AtomicCostLedger) :
    Written ledger.capUsd.value (newState ledger.capUsd) :=
  ⟨ledger.capUsd, Dict.empty, rfl, ledger.capUsd_money, rfl, wellFormedEntries_empty⟩

theorem requiredState_eq_ok_iff {ledger : AtomicCostLedger} {file : SerializedState}
    {entries : Dict String CostEntry} :
    ledger.requiredState file = .ok entries ↔
      stateBytes file ≤ maxStateBytes ∧
        ∃ cap, validateState file = .ok (cap, entries) ∧ cap.value = ledger.capUsd.value := by
  rw [AtomicCostLedger.requiredState, guard_eq_ok_iff, not_lt, and_congr_right_iff]
  intro _
  cases validateState file with
  | error failure => simp
  | ok result =>
      obtain ⟨cap, read⟩ := result
      simp only [require_eq_ok_iff, Decimal.sameValue_iff, Except.ok.injEq, Prod.mk.injEq]
      constructor
      · rintro ⟨sameCap, rfl⟩
        exact ⟨cap, ⟨rfl, rfl⟩, sameCap⟩
      · rintro ⟨_, ⟨rfl, rfl⟩, sameCap⟩
        exact ⟨sameCap, rfl⟩

/-- What a process that passed the cap check has in hand. -/
theorem exists_validatedFrom_of_requiredState {ledger : AtomicCostLedger}
    {file : SerializedState} {entries : Dict String CostEntry}
    (read : ledger.requiredState file = .ok entries) :
    ∃ cap, ValidatedFrom file cap entries ∧ cap.value = ledger.capUsd.value := by
  obtain ⟨-, cap, accepted, capValue⟩ := requiredState_eq_ok_iff.mp read
  exact ⟨cap, validatedFrom_of_validateState accepted, capValue⟩

theorem Written.cap_eq {cap : ℚ} {file : SerializedState} (written : Written cap file)
    {ledger : AtomicCostLedger} {entries : Dict String CostEntry}
    (read : ledger.requiredState file = .ok entries) : ledger.capUsd.value = cap := by
  obtain ⟨capUsd, _, rfl, capMoney, rfl, -⟩ := written
  obtain ⟨readCap, validated, readValue⟩ := exists_validatedFrom_of_requiredState read
  rw [← readValue, (parseCap_eq_ok validated.cap_parsed).2]
  exact textValue_moneyText capMoney.nonneg

theorem Written.perform {cap : ℚ} {file : SerializedState} (written : Written cap file)
    (ledger : AtomicCostLedger) (operation : LedgerOperation) :
    Written cap (ledger.perform file operation).file := by
  rcases perform_cases ledger file operation with same | ⟨entries, entry, read, write⟩
  · rwa [same]
  · rw [perform_of_entryWrite read write]
    obtain ⟨readCap, validated, -⟩ := exists_validatedFrom_of_requiredState read
    exact ⟨ledger.capUsd, _, rfl, ledger.capUsd_money, written.cap_eq read,
      validated.wellFormed.insert (write.wellFormed validated.wellFormed)⟩

theorem Written.runLedger {cap : ℚ} {file : SerializedState} (written : Written cap file)
    (history : List (AtomicCostLedger × LedgerOperation)) :
    Written cap (runLedger file history) := by
  induction history generalizing file with
  | nil => exact written
  | cons call history ih => exact ih (written.perform call.1 call.2)

end CostLedger

end MmAudit
