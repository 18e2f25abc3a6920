import MmAudit.CostRecovery.Validating
import MmAudit.Scheduler.Dispatch

/-!
# When recovery can be cut off and run again

Recovery checks everything before it touches the ledger, yet two things can still
go wrong after the first reconciliation: the ledger may refuse to read what it
has just written, and the journal may fail the validation that comes last.  When
neither happens, the run is atomic and complete, and it may be cut off between
any two reconciliations and be run again.
-/

set_option linter.unusedSectionVars false

namespace MmAudit

namespace CostRecovery

open Fallible CostLedger Scheduler Logged

variable {Sha Payload : Type} [LinearOrder Sha] [DecidableEq Payload]

/-! ## Statements -/

section Statements

variable (env : Environment Sha Payload) (requestText : Sha → String)
  (journal : Journal Sha Payload) (files : Archive Sha Payload) (ledger : AtomicCostLedger)

/-- The entries that a run reconciles. -/
def recoveryEntries (file : SerializedState) : List CostEntry :=
  match validatedGroups env requestText journal ledger file with
  | .error _ => []
  | .ok groups => pendingEntries (groups.flatMap ValidatedGroup.attempts)

/-- The reconciliations of a run. -/
def recoveryCalls (clock : String → Timestamp) (file : SerializedState) :
    List (AtomicCostLedger × LedgerOperation) :=
  (recoveryEntries env requestText journal ledger file).map (closingCall ledger clock)

/-- Nothing goes wrong after the first reconciliation: the journal passes the
last validation, and the reconciliations of the run and of every later run are
careful. -/
def Recoverable (clock later : String → Timestamp) (file : SerializedState) : Prop :=
  (recoveryCalls env requestText journal ledger clock file = [] ∨
      env.validateState journal files = .ok ()) ∧
    AllCareful file (recoveryCalls env requestText journal ledger clock file) ∧
    ∀ count,
      let cut := runLedger file
        ((recoveryCalls env requestText journal ledger clock file).take count)
      AllCareful cut (recoveryCalls env requestText journal ledger later cut)

end Statements

/-- Two files in which the ledger reports the same statuses. -/
def SameStatuses (ledger : AtomicCostLedger) (first second : SerializedState) : Prop :=
  ∃ entries others, ledger.requiredState first = .ok entries ∧
    ledger.requiredState second = .ok others ∧
    ∀ key, (entries.get? key).map (·.status) = (others.get? key).map (·.status)

/-- Two runs, from files of their own, end with the same records and the same
statuses, or with the same failure and the same file. -/
inductive EndsAlike (ledger : AtomicCostLedger) (file other : SerializedState)
    (first second : Logged SerializedState (List (CostRecoveryRecord Sha))) : Prop
  | returns {records others : List (CostRecoveryRecord Sha)}
      (firstReturns : first.result = .ok records) (secondReturns : second.result = .ok others)
      (sameRecords : records.map CostRecoveryRecord.fields =
        others.map CostRecoveryRecord.fields)
      (sameStatuses : SameStatuses ledger (first.log.getLastD file) (second.log.getLastD other))
  | raises {failure : String} (firstRaises : first.result = .error failure)
      (secondRaises : second.result = .error failure)
      (sameFile : first.log.getLastD file = second.log.getLastD other)

section Promises

variable (env : Environment Sha Payload) (requestText : Sha → String)
  (journal : Journal Sha Payload) (files : Archive Sha Payload) (ledger : AtomicCostLedger)

/-- The ledger file that a run leaves. -/
def fileAfter (clock : String → Timestamp) (file : SerializedState) : SerializedState :=
  (recoverActiveCostReservations env requestText journal files ledger clock file).log.getLastD file

/-- The ledger file of a run that is cut off after some of its reconciliations. -/
def cutAfter (clock : String → Timestamp) (file : SerializedState) (count : ℕ) :
    SerializedState :=
  ((recoverActiveCostReservations env requestText journal files ledger clock file).log.take
    count).getLastD file

/-- What recovery promises for a first run and a later one. -/
structure RecoversSafely (clock later : String → Timestamp) (file : SerializedState) :
    Prop where
  atomic : ∀ failure,
    (recoverActiveCostReservations env requestText journal files ledger clock file).result =
        .error failure →
      fileAfter env requestText journal files ledger clock file = file
  complete : ∀ records,
    (recoverActiveCostReservations env requestText journal files ledger clock file).result =
        .ok records →
      ∃ snapshot, ledger.snapshot file = .ok snapshot ∧
        (records.map (·.requestId)).Perm
          ((ownedEntries (tasksByRequest env requestText journal) snapshot.entries).map
            (·.requestId)) ∧
        (records.map (·.requestId)).Nodup
  closed : ∀ records,
    (recoverActiveCostReservations env requestText journal files ledger clock file).result =
        .ok records →
      ∀ key entry logicalRequestId ordinal task,
        (fileAfter env requestText journal files ledger clock file).entries.get? key =
            some entry →
          campaignProviderAttemptIdentity (tasksByRequest env requestText journal)
              entry.requestId = some (logicalRequestId, ordinal) →
            (tasksByRequest env requestText journal).get? logicalRequestId = some task →
              WasDispatched (Environment.historyForTask journal (env.taskId task)) →
                entry.status ≠ .reserved
  adopted : ∀ records,
    (recoverActiveCostReservations env requestText journal files ledger clock file).result =
        .ok records →
      ∀ record ∈ records, record.status = .adoptedProvenPreSend →
        (∃ task, (tasksByRequest env requestText journal).get? record.logicalRequestId =
          some task ∧ env.taskId task = record.taskId) ∧
        EndsActivated (Environment.historyForTask journal record.taskId) ∧
        campaignProviderAttemptIdentity (tasksByRequest env requestText journal)
          record.requestId = some (record.logicalRequestId, 1)
  rerunnable : ∀ count,
    let cut := cutAfter env requestText journal files ledger clock file count
    EndsAlike ledger file cut
      (recoverActiveCostReservations env requestText journal files ledger clock file)
      (recoverActiveCostReservations env requestText journal files ledger later cut)

end Promises

variable {env : Environment Sha Payload} {requestText : Sha → String}
  {journal : Journal Sha Payload} {files : Archive Sha Payload} {ledger : AtomicCostLedger}
  {clock later : String → Timestamp} {file : SerializedState}
  {groups : List (ValidatedGroup Sha)}

/-! ## Runs as loops -/

variable (files clock) in
theorem recover_of_refused {failure : String}
    (refused : validatedGroups env requestText journal ledger file = .error failure) :
    recoverActiveCostReservations env requestText journal files ledger clock file =
      ⟨[], .error failure⟩ := by
  rw [recoverActiveCostReservations, refused]
  rfl

variable (files clock) in
theorem recover_log
    (validated : validatedGroups env requestText journal ledger file = .ok groups) :
    (recoverActiveCostReservations env requestText journal files ledger clock file).log =
      ((groups.flatMap ValidatedGroup.attempts).foldlM (concludeAttempt env ledger clock)
        ⟨file, []⟩).log := by
  rw [recoverActiveCostReservations, validated, lift_bind_of_ok]
  cases returned : ((groups.flatMap ValidatedGroup.attempts).foldlM
      (concludeAttempt env ledger clock) ⟨file, []⟩).result with
  | error failure => rw [bind_of_result_error returned]
  | ok last =>
      rw [bind_of_result_ok returned]
      cases env.validateState journal files <;> exact List.append_nil _

variable (files) in
theorem recover_of_concluded {last : Progress Sha}
    (validated : validatedGroups env requestText journal ledger file = .ok groups)
    (returned : ((groups.flatMap ValidatedGroup.attempts).foldlM
      (concludeAttempt env ledger clock) ⟨file, []⟩).result = .ok last) :
    (recoverActiveCostReservations env requestText journal files ledger clock file).result =
      (env.validateState journal files).map fun _ =>
        last.recovered.insertionSort (·.requestId ≤ ·.requestId) := by
  rw [recoverActiveCostReservations, validated, lift_bind_of_ok, bind_of_result_ok returned]
  cases env.validateState journal files <;> rfl

/-- What a run that returns went through. -/
theorem exists_groups_of_returns {records : List (CostRecoveryRecord Sha)}
    (returned : (recoverActiveCostReservations env requestText journal files ledger clock
      file).result = .ok records) :
    ∃ groups, validatedGroups env requestText journal ledger file = .ok groups ∧
      env.validateState journal files = .ok () ∧
      (recoverActiveCostReservations env requestText journal files ledger clock file).log =
        ledgerFiles file (recoveryCalls env requestText journal ledger clock file) := by
  cases validated : validatedGroups env requestText journal ledger file with
  | error failure =>
      rw [recover_of_refused files clock validated] at returned
      cases returned
  | ok groups =>
      refine ⟨groups, rfl, ?_⟩
      rw [recover_log files clock validated, recoveryCalls, recoveryEntries, validated]
      rw [recoverActiveCostReservations, validated, lift_bind_of_ok, result_bind_eq_ok_iff] at returned
      obtain ⟨last, concluded, returned⟩ := returned
      obtain ⟨_, valid, -⟩ := result_bind_eq_ok_iff.mp returned
      obtain ⟨entries, read, accepted⟩ := validatedGroups_eq_ok_iff.mp validated
      obtain ⟨readCap, from', -⟩ := exists_validatedFrom_of_requiredState read
      have concludable := concludable_of_validated from'.wellFormed accepted
      exact ⟨valid, (conclude_log env ledger clock concludable.active ⟨file, []⟩).2 last concluded⟩

/-! ## Careful runs -/

theorem map_fields_insertionSort (records : List (CostRecoveryRecord Sha)) :
    (records.insertionSort (·.requestId ≤ ·.requestId)).map CostRecoveryRecord.fields =
      (records.map CostRecoveryRecord.fields).insertionSort (·.1 ≤ ·.1) :=
  List.map_insertionSort _ _ _ _ fun _ _ _ _ => Iff.rfl

variable (files) in
/-- A careful run ends with the last validation, and returns the conclusions of
its attempts. -/
theorem exists_run {entries : Dict String CostEntry}
    (read : ledger.requiredState file = .ok entries)
    (validated : validatedGroups env requestText journal ledger file = .ok groups)
    (concludable : Concludable entries (groups.flatMap ValidatedGroup.attempts))
    (careful : AllCareful file (recoveryCalls env requestText journal ledger clock file)) :
    ∃ records,
      recoverActiveCostReservations env requestText journal files ledger clock file =
        ⟨ledgerFiles file (recoveryCalls env requestText journal ledger clock file),
          (env.validateState journal files).map fun _ => records⟩ ∧
      records.map CostRecoveryRecord.fields =
        ((groups.flatMap ValidatedGroup.attempts).map fun attempt =>
          (conclusion env attempt).fields).insertionSort (·.1 ≤ ·.1) := by
  obtain ⟨readCap, from', -⟩ := exists_validatedFrom_of_requiredState read
  have calls : recoveryCalls env requestText journal ledger clock file =
      pendingCalls ledger clock (groups.flatMap ValidatedGroup.attempts) := by
    rw [recoveryCalls, recoveryEntries, validated]
    rfl
  rw [calls] at careful ⊢
  obtain ⟨last, concluded, records⟩ := exists_conclude env clock read
    (Tracks.refl entries) from'.wellFormed concludable (fun _ _ => List.not_mem_nil) careful []
  refine ⟨last.recovered.insertionSort (·.requestId ≤ ·.requestId), ?_, ?_⟩
  · have sameLog := recover_log files clock validated
    have sameResult := recover_of_concluded files validated concluded
    rw [(conclude_log env ledger clock concludable.active ⟨file, []⟩).2 last concluded] at sameLog
    generalize recoverActiveCostReservations env requestText journal files ledger clock file =
      run at sameLog sameResult
    cases run
    rw [← sameLog, ← sameResult]
  · rw [map_fields_insertionSort, records]
    rfl

/-- Reading the ledger again after some of the reconciliations. -/
theorem exists_cut {entries : Dict String CostEntry}
    (read : ledger.requiredState file = .ok entries)
    (validated : validatedGroups env requestText journal ledger file = .ok groups)
    (concludable : Concludable entries (groups.flatMap ValidatedGroup.attempts))
    (careful : AllCareful file (recoveryCalls env requestText journal ledger clock file))
    (count : ℕ) :
    ∃ after, ledger.requiredState (runLedger file
        ((recoveryCalls env requestText journal ledger clock file).take count)) = .ok after ∧
      Tracks (((pendingEntries (groups.flatMap ValidatedGroup.attempts)).take count).map
        (·.requestId)) entries after := by
  obtain ⟨readCap, from', -⟩ := exists_validatedFrom_of_requiredState read
  obtain ⟨stored, active, distinct⟩ := concludable.pending
  have firstCareful := careful.take count
  rw [recoveryCalls, recoveryEntries, validated, ← List.map_take] at firstCareful ⊢
  exact exists_closedAll read (Tracks.refl entries) from'.wellFormed
    (fun entry member => stored entry (List.mem_of_mem_take member))
    (fun entry member => active entry (List.mem_of_mem_take member))
    (fun _ _ => List.not_mem_nil)
    ((List.take_sublist count _).map _ |>.nodup distinct) firstCareful

/-- A run whose reconciliations are all careful: what it reads, what it does, and
what is read after it. -/
structure CarefulRun (env : Environment Sha Payload) (requestText : Sha → String)
    (journal : Journal Sha Payload) (files : Archive Sha Payload) (ledger : AtomicCostLedger)
    (clock : String → Timestamp) (file : SerializedState) (groups : List (ValidatedGroup Sha))
    (entries final : Dict String CostEntry) (records : List (CostRecoveryRecord Sha)) :
    Prop where
  read : ledger.requiredState file = .ok entries
  validated : validatedGroups env requestText journal ledger file = .ok groups
  wellFormed : WellFormedEntries entries
  accepted : (groupedEntries (tasksByRequest env requestText journal)
    entries.sorted.values).sorted.items.mapM
      (validateGroup env journal (tasksByRequest env requestText journal)) = .ok groups
  concludable : Concludable entries (groups.flatMap ValidatedGroup.attempts)
  run : recoverActiveCostReservations env requestText journal files ledger clock file =
    ⟨ledgerFiles file (recoveryCalls env requestText journal ledger clock file),
      (env.validateState journal files).map fun _ => records⟩
  fields : records.map CostRecoveryRecord.fields =
    ((groups.flatMap ValidatedGroup.attempts).map fun attempt =>
      (conclusion env attempt).fields).insertionSort (·.1 ≤ ·.1)
  finalRead : ledger.requiredState
    (runLedger file (recoveryCalls env requestText journal ledger clock file)) = .ok final
  finalTracks : Tracks ((pendingEntries (groups.flatMap ValidatedGroup.attempts)).map
    (·.requestId)) entries final

variable (files clock) in
theorem exists_carefulRun
    (validated : validatedGroups env requestText journal ledger file = .ok groups)
    (careful : AllCareful file (recoveryCalls env requestText journal ledger clock file)) :
    ∃ entries final records,
      CarefulRun env requestText journal files ledger clock file groups entries final records := by
  obtain ⟨entries, read, accepted⟩ := validatedGroups_eq_ok_iff.mp validated
  obtain ⟨_, from', -⟩ := exists_validatedFrom_of_requiredState read
  have concludable := concludable_of_validated from'.wellFormed accepted
  obtain ⟨records, run, fields⟩ := exists_run files read validated concludable careful
  obtain ⟨final, finalRead, finalTracks⟩ := exists_cut read validated concludable careful
    (recoveryCalls env requestText journal ledger clock file).length
  have allPending : (pendingEntries (groups.flatMap ValidatedGroup.attempts)).take
      (recoveryCalls env requestText journal ledger clock file).length =
        pendingEntries (groups.flatMap ValidatedGroup.attempts) := by
    rw [recoveryCalls, recoveryEntries, validated, List.length_map]
    exact List.take_length
  rw [List.take_length] at finalRead
  rw [allPending] at finalTracks
  exact ⟨entries, final, records, read, validated, from'.wellFormed, accepted, concludable, run,
    fields, finalRead, finalTracks⟩

/-- A careful run is its list of reconciliations. -/
theorem CarefulRun.cutAfter_eq {entries final : Dict String CostEntry}
    {records : List (CostRecoveryRecord Sha)}
    (ran : CarefulRun env requestText journal files ledger clock file groups entries final records)
    (count : ℕ) :
    cutAfter env requestText journal files ledger clock file count =
      runLedger file ((recoveryCalls env requestText journal ledger clock file).take count) := by
  rw [cutAfter, ran.run]
  exact getLastD_take_ledgerFiles _ _ _

theorem CarefulRun.fileAfter_eq {entries final : Dict String CostEntry}
    {records : List (CostRecoveryRecord Sha)}
    (ran : CarefulRun env requestText journal files ledger clock file groups entries final records) :
    fileAfter env requestText journal files ledger clock file =
      runLedger file (recoveryCalls env requestText journal ledger clock file) := by
  rw [fileAfter, ran.run]
  exact getLastD_ledgerFiles _ _

/-! ## What a later run finds -/

/-- The entry that is now stored for a request. -/
def current (after : Dict String CostEntry) (entry : CostEntry) : CostEntry :=
  (after.get? entry.requestId).getD entry

/-- Entries that are pending in a ledger, some of which were closed since. -/
structure CutOff (entries after : Dict String CostEntry) (groups : List (ValidatedGroup Sha))
    (done : List String) : Prop where
  wellFormed : WellFormedEntries entries
  concludable : Concludable entries (groups.flatMap ValidatedGroup.attempts)
  tracks : Tracks done entries after
  pending : ∀ key ∈ done, ∃ entry ∈ pendingEntries (groups.flatMap ValidatedGroup.attempts),
    entry.requestId = key

variable {entries after : Dict String CostEntry} {done : List String}

theorem CutOff.current_cases (cutOff : CutOff entries after groups done) {entry : CostEntry}
    (stored : entries.get? entry.requestId = some entry) :
    (entry.requestId ∈ done ∧ Concluded entry (current after entry)) ∨
      (entry.requestId ∉ done ∧ SameEntry (current after entry) entry) := by
  by_cases isDone : entry.requestId ∈ done
  · obtain ⟨other, otherStored, concluded⟩ := cutOff.tracks.concluded _ _ stored isDone
    rw [current, otherStored]
    exact .inl ⟨isDone, concluded⟩
  · obtain ⟨other, otherStored, same⟩ := cutOff.tracks.same _ _ stored isDone
    rw [current, otherStored]
    exact .inr ⟨isDone, same⟩

theorem CutOff.current_requestId (cutOff : CutOff entries after groups done) {entry : CostEntry}
    (stored : entries.get? entry.requestId = some entry) :
    (current after entry).requestId = entry.requestId := by
  rcases cutOff.current_cases stored with ⟨-, concluded⟩ | ⟨-, same⟩
  · exact concluded.requestId
  · exact same.requestId

/-- An entry that was closed belonged to a pending attempt. -/
theorem CutOff.exists_pending (cutOff : CutOff entries after groups done) {entry : CostEntry}
    (stored : entries.get? entry.requestId = some entry) (isDone : entry.requestId ∈ done) :
    ∃ attempt ∈ groups.flatMap ValidatedGroup.attempts, IsPending attempt ∧ attempt.2 = entry := by
  obtain ⟨other, member, sameKey⟩ := cutOff.pending _ isDone
  have otherStored := cutOff.concludable.pending.1 other member
  rw [sameKey, stored] at otherStored
  cases otherStored
  exact mem_pendingEntries.mp member

theorem CutOff.active_iff (cutOff : CutOff entries after groups done) {entry : CostEntry}
    (stored : entries.get? entry.requestId = some entry) :
    IsActive (current after entry).status ↔ IsActive entry.status := by
  rcases cutOff.current_cases stored with ⟨isDone, concluded⟩ | ⟨-, same⟩
  · obtain ⟨attempt, member, -, rfl⟩ := cutOff.exists_pending stored isDone
    exact iff_of_true (.inr concluded.status) (cutOff.concludable.active attempt member)
  · rw [same.status]

theorem mem_attempts_iff {attempt : Attempt Sha} :
    attempt ∈ groups.flatMap ValidatedGroup.attempts ↔
      attempt.1 ∈ groups ∧ ∃ ordinal, (ordinal, attempt.2) ∈ attempt.1.entries := by
  obtain ⟨group, entry⟩ := attempt
  simp only [List.mem_flatMap, ValidatedGroup.attempts, List.mem_map, Prod.mk.injEq, Prod.exists]
  constructor
  · rintro ⟨other, listed, ordinal, _, member, rfl, rfl⟩
    exact ⟨listed, ordinal, member⟩
  · rintro ⟨listed, ordinal, member⟩
    exact ⟨group, listed, ordinal, entry, member, rfl, rfl⟩

/-- An attempt is told by its request ID. -/
theorem Concludable.eq_of_requestId {attempts : List (Attempt Sha)}
    (concludable : Concludable entries attempts) {attempt other : Attempt Sha}
    (member : attempt ∈ attempts) (otherMember : other ∈ attempts)
    (same : attempt.2.requestId = other.2.requestId) : attempt = other :=
  List.inj_on_of_nodup_map concludable.distinct member otherMember same

theorem CutOff.compatible (cutOff : CutOff entries after groups done)
    {group : ValidatedGroup Sha} (listed : group ∈ groups) :
    Compatible (current after) group := by
  have stored : ∀ attempt ∈ group.entries, entries.get? attempt.2.requestId = some attempt.2 ∧
      (group, attempt.2) ∈ groups.flatMap ValidatedGroup.attempts := fun attempt member => by
    have isAttempt : (group, attempt.2) ∈ groups.flatMap ValidatedGroup.attempts :=
      mem_attempts_iff.mpr ⟨listed, attempt.1, member⟩
    exact ⟨cutOff.concludable.stored _ isAttempt, isAttempt⟩
  refine ⟨fun attempt member => cutOff.current_requestId (stored attempt member).1,
    fun attempt member => ?_⟩
  obtain ⟨attemptStored, isAttempt⟩ := stored attempt member
  rcases cutOff.current_cases attemptStored with ⟨isDone, concluded⟩ | ⟨-, same⟩
  · obtain ⟨other, otherMember, pending, sameEntry⟩ := cutOff.exists_pending attemptStored isDone
    have sameAttempt := cutOff.concludable.eq_of_requestId otherMember isAttempt
      (congrArg CostEntry.requestId sameEntry)
    subst sameAttempt
    exact .inr ⟨pending.1, concluded.status⟩
  · exact .inl same.status

/-- The first loop accepts the same groups after some of the reconciliations. -/
theorem CutOff.validated (cutOff : CutOff entries after groups done) {cut : SerializedState}
    (read : ledger.requiredState file = .ok entries)
    (validated : validatedGroups env requestText journal ledger file = .ok groups)
    (cutRead : ledger.requiredState cut = .ok after) :
    validatedGroups env requestText journal ledger cut =
      .ok (groups.map (·.change (current after))) := by
  obtain ⟨_, otherRead, accepted⟩ := validatedGroups_eq_ok_iff.mp validated
  cases read.symm.trans otherRead
  refine validatedGroups_eq_ok_iff.mpr ⟨after, cutRead, ?_⟩
  have sameKeys : ∀ key, (after.get? key).isSome ↔ (entries.get? key).isSome := by
    intro key
    have status := congrArg Option.isSome (cutOff.tracks.status key)
    rw [Option.isSome_map, Option.isSome_map] at status
    rw [status]
  have values : after.sorted.values = entries.sorted.values.map (current after) :=
    Dict.values_sorted_of_lookups cutOff.wellFormed.key sameKeys
  rw [values]
  refine validated_change accepted (fun entry member => ?_) (fun entry member => ?_)
    fun group listed => cutOff.compatible listed
  · exact cutOff.current_requestId ((mem_values_sorted_iff cutOff.wellFormed).mp member)
  · exact cutOff.active_iff ((mem_values_sorted_iff cutOff.wellFormed).mp member)

/-- A later attempt leads to the same record. -/
theorem CutOff.conclusion_fields (cutOff : CutOff entries after groups done)
    {attempt : Attempt Sha} (member : attempt ∈ groups.flatMap ValidatedGroup.attempts) :
    (conclusion env (attempt.1.change (current after), current after attempt.2)).fields =
      (conclusion env attempt).fields := by
  have stored := cutOff.concludable.stored attempt member
  have requestId := cutOff.current_requestId stored
  rcases cutOff.current_cases stored with ⟨isDone, concluded⟩ | ⟨-, same⟩
  · obtain ⟨other, otherMember, pending, sameEntry⟩ := cutOff.exists_pending stored isDone
    obtain rfl := cutOff.concludable.eq_of_requestId otherMember member
      (congrArg CostEntry.requestId sameEntry)
    simp [conclusion, ValidatedGroup.change, pending.1, CostRecoveryRecord.fields, recordOf,
      requestId, concluded.reservedUsd]
  · by_cases dispatched : attempt.1.wasDispatched
    · simp [conclusion, ValidatedGroup.change, dispatched, CostRecoveryRecord.fields, recordOf,
        requestId, same.reservedUsd]
    · simp [conclusion, ValidatedGroup.change, dispatched, CostRecoveryRecord.fields, recordOf,
        requestId, same.reservedUsd, same.accountedCostUsd]

/-- What a later run still has to reconcile. -/
theorem CutOff.mem_pending_iff (cutOff : CutOff entries after groups done) (key : String) :
    key ∈ (pendingEntries ((groups.map (·.change (current after))).flatMap
        ValidatedGroup.attempts)).map (·.requestId) ↔
      key ∈ (pendingEntries (groups.flatMap ValidatedGroup.attempts)).map (·.requestId) ∧
        key ∉ done := by
  rw [attempts_change, mem_requestIds_pendingEntries, mem_requestIds_pendingEntries]
  constructor
  · rintro ⟨_, listed, ⟨dispatched, open_⟩, rfl⟩
    obtain ⟨attempt, member, rfl⟩ := List.mem_map.mp listed
    have stored := cutOff.concludable.stored attempt member
    rw [cutOff.current_requestId stored]
    rcases cutOff.current_cases stored with ⟨-, concluded⟩ | ⟨notDone, same⟩
    · exact absurd concluded.status open_
    · exact ⟨⟨attempt, member, ⟨dispatched, same.status ▸ open_⟩, rfl⟩, notDone⟩
  · rintro ⟨⟨attempt, member, ⟨dispatched, open_⟩, rfl⟩, notDone⟩
    have stored := cutOff.concludable.stored attempt member
    refine ⟨_, List.mem_map_of_mem member, ⟨dispatched, ?_⟩, cutOff.current_requestId stored⟩
    rcases cutOff.current_cases stored with ⟨isDone, -⟩ | ⟨-, same⟩
    · exact absurd isDone notDone
    · rw [same.status]
      exact open_

/-! ## The promises of a careful run -/

/-- An attempt with its group, its task and its ordinal. -/
theorem exists_ordinal_of_attempt {tasks : Dict String (TaskPlan Sha)} {listing : List CostEntry}
    (validated : (groupedEntries tasks listing).sorted.items.mapM (validateGroup env journal tasks) =
      .ok groups) {attempt : Attempt Sha}
    (member : attempt ∈ groups.flatMap ValidatedGroup.attempts) :
    Accepted env journal attempt.1 ∧
      tasks.get? attempt.1.logicalRequestId = some attempt.1.task ∧
      ∃ ordinal, (ordinal, attempt.2) ∈ attempt.1.entries ∧
        campaignProviderAttemptIdentity tasks attempt.2.requestId =
          some (attempt.1.logicalRequestId, ordinal) := by
  obtain ⟨listed, ordinal, inGroup⟩ := mem_attempts_iff.mp member
  obtain ⟨raw, rawMember, rawAccepted⟩ := exists_item_of_mapM validated listed
  obtain ⟨sameRequest, task, sameEntries, accepted⟩ := validateGroup_eq_ok_iff.mp rawAccepted
  have stored : (Dict.collect (listing.filterMap (ownedAttempt tasks))).get? raw.1 = some raw.2 := by
    rw [← Dict.get?_sorted]
    exact (Dict.get?_eq_some_iff _ _ _).mpr rawMember
  have inRaw : (ordinal, attempt.2) ∈ raw.2 := by
    rw [sameEntries] at inGroup
    exact (List.mem_insertionSort _).mp inGroup
  obtain ⟨entry, -, owned⟩ := List.mem_filterMap.mp (Dict.mem_of_get?_collect stored inRaw)
  obtain ⟨-, identity, rfl⟩ := ownedAttempt_eq_some_iff.mp owned
  exact ⟨accepted, sameRequest ▸ task, ordinal, inGroup, sameRequest ▸ identity⟩

/-- The journal of a campaign never has an event after the activation of a task
that it calls activated. -/
theorem not_dispatched_of_endsActivated {manifest : CampaignManifest Sha}
    (live : env.Live manifest files journal) {taskId : Sha}
    (activated : EndsActivated (Environment.historyForTask journal taskId)) :
    ¬ WasDispatched (Environment.historyForTask journal taskId) := by
  have history : Environment.historyForTask journal taskId = (env.view files taskId).history := by
    rw [Environment.historyForTask, live.indexed.histories, Keyed.getD_listed]
    rfl
  rw [history] at activated ⊢
  rintro ⟨event, member, kind⟩
  have listed : EventKind.dispatched ∈ (env.view files taskId).history.map (·.kind) :=
    kind ▸ List.mem_map_of_mem member
  rw [EndsActivated, ← List.getLast?_map] at activated
  rcases (live.coherent.phases taskId).kinds with none_ | lifecycle
  · rw [none_] at listed
    cases listed
  · generalize (env.view files taskId).history.map (·.kind) = kinds at listed activated lifecycle
    simp only [Environment.validLifecyclePrefixes, List.mem_cons, List.not_mem_nil,
      or_false] at lifecycle
    rcases lifecycle with rfl | rfl | rfl | rfl | rfl | rfl <;> simp_all

section Sufficiency

variable {manifest : CampaignManifest Sha}

/-- A run that is refused before it reconciles anything ends as it would again. -/
theorem recoversSafely_of_refused {failure : String}
    (refused : validatedGroups env requestText journal ledger file = .error failure) :
    RecoversSafely env requestText journal files ledger clock later file := by
  have first := recover_of_refused files clock refused
  have raises : ∀ records, (recoverActiveCostReservations env requestText journal files ledger
      clock file).result ≠ .ok records := by
    intro records returned
    rw [first] at returned
    cases returned
  refine ⟨fun _ _ => ?_, fun records returned => absurd returned (raises records),
    fun records returned => absurd returned (raises records),
    fun records returned => absurd returned (raises records), fun count => ?_⟩
  · rw [fileAfter, first]
    rfl
  · have cut : cutAfter env requestText journal files ledger clock file count = file := by
      rw [cutAfter, first]
      simp
    dsimp only
    rw [cut, first, recover_of_refused files later refused]
    exact .raises rfl rfl rfl

/-- The records stand for the owned entries, each once. -/
theorem complete_of_run {records : List (CostRecoveryRecord Sha)}
    (read : ledger.requiredState file = .ok entries) (wellFormed : WellFormedEntries entries)
    {tasks : Dict String (TaskPlan Sha)}
    (validated : (groupedEntries tasks entries.sorted.values).sorted.items.mapM
      (validateGroup env journal tasks) = .ok groups)
    (fields : records.map CostRecoveryRecord.fields =
      ((groups.flatMap ValidatedGroup.attempts).map fun attempt =>
        (conclusion env attempt).fields).insertionSort (·.1 ≤ ·.1)) :
    ∃ snapshot, ledger.snapshot file = .ok snapshot ∧
      (records.map (·.requestId)).Perm
        ((ownedEntries tasks snapshot.entries).map (·.requestId)) ∧
      (records.map (·.requestId)).Nodup := by
  have requestIds : records.map (·.requestId) =
      (records.map CostRecoveryRecord.fields).map Prod.fst := by
    rw [List.map_map]
    rfl
  have conclusions : ((groups.flatMap ValidatedGroup.attempts).map fun attempt =>
      (conclusion env attempt).fields).map Prod.fst =
        ((groups.flatMap ValidatedGroup.attempts).map Prod.snd).map (·.requestId) := by
    rw [List.map_map, List.map_map]
    exact List.map_congr_left fun attempt _ => conclusion_requestId attempt
  have perm : (records.map (·.requestId)).Perm
      ((ownedEntries tasks entries.sorted.values).map (·.requestId)) := by
    rw [requestIds, fields]
    refine ((List.perm_insertionSort _ _).map _).trans ?_
    rw [conclusions]
    exact (perm_attempts validated).map _
  refine ⟨snapshotOf ledger.capUsd entries, snapshot_eq_ok_iff.mpr ⟨entries, read, rfl⟩, perm, ?_⟩
  exact perm.nodup_iff.mpr ((List.filter_sublist.map _).nodup (nodup_requestIds wellFormed))

/-- No owned entry of a dispatched task stays reserved. -/
theorem closed_of_tracks (live : env.Live manifest files journal)
    {tasks : Dict String (TaskPlan Sha)} (wellFormed : WellFormedEntries entries)
    (validated : (groupedEntries tasks entries.sorted.values).sorted.items.mapM
      (validateGroup env journal tasks) = .ok groups)
    (tracks : Tracks ((pendingEntries (groups.flatMap ValidatedGroup.attempts)).map (·.requestId))
      entries after) {last : SerializedState} (lastRead : ledger.requiredState last = .ok after)
    {key : String} {serialized : SerializedEntry} {logicalRequestId : String} {ordinal : ℕ}
    {task : TaskPlan Sha} (stored : last.entries.get? key = some serialized)
    (identity : campaignProviderAttemptIdentity tasks serialized.requestId =
      some (logicalRequestId, ordinal)) (isTask : tasks.get? logicalRequestId = some task)
    (dispatched : WasDispatched (Environment.historyForTask journal (env.taskId task))) :
    serialized.status ≠ .reserved := by
  intro reserved
  obtain ⟨_, from', -⟩ := exists_validatedFrom_of_requiredState lastRead
  obtain ⟨found, foundStored, readFrom⟩ := from'.exists_read stored
  have foundKey := from'.wellFormed.key key found foundStored
  -- The entry was reserved when the run began, and the run did not close it.
  cases earlier : entries.get? key with
  | none =>
      rw [tracks.absent key earlier] at foundStored
      cases foundStored
  | some entry =>
      have entryKey := wellFormed.key key entry earlier
      have status := tracks.status key
      rw [foundStored, earlier, Option.map_some, Option.map_some, Option.some.injEq,
        readFrom.status, reserved] at status
      split at status
      · cases status
      · rename_i notClosed
        have requestId : serialized.requestId = entry.requestId := by
          rw [← readFrom.requestId, ← foundKey, entryKey]
        rw [requestId] at identity
        have owned : entry ∈ ownedEntries tasks entries.sorted.values := by
          refine List.mem_filter.mpr ⟨(mem_values_sorted_iff wellFormed).mpr (entryKey ▸ earlier), ?_⟩
          exact Option.isSome_iff_exists.mpr ⟨(logicalRequestId, ordinal, entry),
            ownedAttempt_eq_some_iff.mpr ⟨.inl status.symm, identity, rfl⟩⟩
        obtain ⟨attempt, member, rfl⟩ :=
          List.mem_map.mp ((perm_attempts validated).mem_iff.mpr owned)
        obtain ⟨accepted, attemptTask, _, -, attemptIdentity⟩ :=
          exists_ordinal_of_attempt validated member
        rw [identity, Option.some.injEq, Prod.mk.injEq] at attemptIdentity
        rw [← attemptIdentity.1, isTask, Option.some.injEq] at attemptTask
        subst attemptTask
        have flag : attempt.1.wasDispatched = true := by
          by_contra notDispatched
          exact not_dispatched_of_endsActivated live
            (accepted.beforeSend (by simpa using notDispatched)).1 dispatched
        refine notClosed (mem_requestIds_pendingEntries.mpr ⟨attempt, member, ⟨flag, ?_⟩, entryKey.symm⟩)
        rw [← status]
        simp

/-- Only the first attempt of an activated task is adopted. -/
theorem adopted_of_run {records : List (CostRecoveryRecord Sha)}
    {tasks : Dict String (TaskPlan Sha)} {listing : List CostEntry}
    (validated : (groupedEntries tasks listing).sorted.items.mapM
      (validateGroup env journal tasks) = .ok groups)
    (fields : records.map CostRecoveryRecord.fields =
      ((groups.flatMap ValidatedGroup.attempts).map fun attempt =>
        (conclusion env attempt).fields).insertionSort (·.1 ≤ ·.1))
    {record : CostRecoveryRecord Sha} (member : record ∈ records)
    (adopted : record.status = .adoptedProvenPreSend) :
    (∃ task, tasks.get? record.logicalRequestId = some task ∧ env.taskId task = record.taskId) ∧
      EndsActivated (Environment.historyForTask journal record.taskId) ∧
      campaignProviderAttemptIdentity tasks record.requestId =
        some (record.logicalRequestId, 1) := by
  have listed : record.fields ∈ (groups.flatMap ValidatedGroup.attempts).map fun attempt =>
      (conclusion env attempt).fields := by
    rw [← List.mem_insertionSort (fun first second => first.1 ≤ second.1), ← fields]
    exact List.mem_map_of_mem member
  obtain ⟨attempt, attemptMember, same⟩ := List.mem_map.mp listed
  obtain ⟨accepted, isTask, ordinal, inGroup, identity⟩ :=
    exists_ordinal_of_attempt validated attemptMember
  have notDispatched : attempt.1.wasDispatched = false := by
    by_contra dispatched
    have flag : attempt.1.wasDispatched = true := by simpa using dispatched
    simp [conclusion, flag, CostRecoveryRecord.fields, recordOf, adopted] at same
  simp only [conclusion, notDispatched, Bool.false_eq_true, if_false, CostRecoveryRecord.fields,
    recordOf, Prod.mk.injEq] at same
  obtain ⟨requestId, logicalRequestId, taskId, -⟩ := same
  obtain ⟨activated, ordinals, -, -⟩ := accepted.beforeSend notDispatched
  have first : ordinal ∈ attempt.1.entries.map Prod.fst := List.mem_map_of_mem inGroup
  rw [ordinals, List.mem_singleton] at first
  subst first
  rw [← requestId, ← logicalRequestId, ← taskId]
  exact ⟨⟨_, isTask, rfl⟩, activated, identity⟩

/-- A later run ends like a first run that was cut off. -/
theorem CarefulRun.endsAlike {entries final : Dict String CostEntry}
    {records : List (CostRecoveryRecord Sha)}
    (ran : CarefulRun env requestText journal files ledger clock file groups entries final records)
    (valid : env.validateState journal files = .ok ()) (count : ℕ)
    (careful : AllCareful file (recoveryCalls env requestText journal ledger clock file))
    {cut : SerializedState}
    (cutEq : cut = runLedger file
      ((recoveryCalls env requestText journal ledger clock file).take count))
    (laterCareful : AllCareful cut (recoveryCalls env requestText journal ledger later cut)) :
    EndsAlike ledger file cut
      (recoverActiveCostReservations env requestText journal files ledger clock file)
      (recoverActiveCostReservations env requestText journal files ledger later cut) := by
  obtain ⟨middle, middleRead, middleTracks⟩ :=
    exists_cut ran.read ran.validated ran.concludable careful count
  rw [← cutEq] at middleRead
  have cutOff : CutOff entries middle groups
      (((pendingEntries (groups.flatMap ValidatedGroup.attempts)).take count).map
        (·.requestId)) := by
    refine ⟨ran.wellFormed, ran.concludable, middleTracks, fun key member => ?_⟩
    obtain ⟨entry, listed, same⟩ := List.mem_map.mp member
    exact ⟨entry, List.mem_of_mem_take listed, same⟩
  obtain ⟨others, last, otherRecords, again⟩ := exists_carefulRun files later
    (cutOff.validated ran.read ran.validated middleRead) laterCareful
  cases middleRead.symm.trans again.read
  have sameFields : records.map CostRecoveryRecord.fields =
      otherRecords.map CostRecoveryRecord.fields := by
    rw [ran.fields, again.fields, attempts_change, List.map_map]
    refine congrArg _ (List.map_congr_left fun attempt member => ?_)
    exact (cutOff.conclusion_fields member).symm
  refine EndsAlike.returns ?_ ?_ sameFields ?_
  · rw [ran.run, valid]
    rfl
  · rw [again.run, valid]
    rfl
  · refine ⟨final, last, ?_, ?_, fun key => ?_⟩
    · rw [ran.run]
      exact (getLastD_ledgerFiles _ _).symm ▸ ran.finalRead
    · rw [again.run]
      exact (getLastD_ledgerFiles _ _).symm ▸ again.finalRead
    · rw [ran.finalTracks.status, again.finalTracks.status]
      have middleStatus := middleTracks.status key
      have remaining := cutOff.mem_pending_iff key
      have subset : key ∈ ((pendingEntries (groups.flatMap ValidatedGroup.attempts)).take count).map
          (·.requestId) →
            key ∈ (pendingEntries (groups.flatMap ValidatedGroup.attempts)).map (·.requestId) :=
        fun member => (List.take_sublist count _).map _ |>.subset member
      cases found : middle.get? key with
      | none =>
          rw [found] at middleStatus
          cases stored : entries.get? key with
          | none => rfl
          | some entry => simp [stored] at middleStatus
      | some now =>
          rw [found] at middleStatus
          cases stored : entries.get? key with
          | none => simp [stored] at middleStatus
          | some entry =>
              rw [stored, Option.map_some, Option.map_some, Option.some.injEq] at middleStatus
              rw [Option.map_some, Option.map_some, Option.some.injEq, middleStatus]
              simp only [remaining]
              split <;> split <;> simp_all

/-- A recoverable run keeps its promises. -/
theorem recoversSafely_of_recoverable (live : env.Live manifest files journal)
    (recoverable : Recoverable env requestText journal files ledger clock later file) :
    RecoversSafely env requestText journal files ledger clock later file := by
  cases validated : validatedGroups env requestText journal ledger file with
  | error failure => exact recoversSafely_of_refused validated
  | ok groups =>
      obtain ⟨unlessNothing, careful, laterCareful⟩ := recoverable
      obtain ⟨entries, final, records, ran⟩ := exists_carefulRun files clock validated careful
      cases valid : env.validateState journal files with
      | error failure =>
          -- Nothing was reconciled, so a later run does the same.
          have nothing : recoveryCalls env requestText journal ledger clock file = [] := by
            rw [valid] at unlessNothing
            simpa using unlessNothing
          have nothingLater : recoveryCalls env requestText journal ledger later file = [] := by
            rw [recoveryCalls, List.map_eq_nil_iff] at nothing ⊢
            exact nothing
          have raises : ∀ records, (recoverActiveCostReservations env requestText journal files
              ledger clock file).result ≠ .ok records := by
            intro records returned
            rw [ran.run, valid] at returned
            cases returned
          refine ⟨fun _ _ => ?_, fun records returned => absurd returned (raises records),
            fun records returned => absurd returned (raises records),
            fun records returned => absurd returned (raises records), fun count => ?_⟩
          · rw [ran.fileAfter_eq, nothing]
            rfl
          · obtain ⟨_, _, _, again⟩ := exists_carefulRun files later validated
              (by rw [nothingLater]; trivial)
            dsimp only
            rw [ran.cutAfter_eq, nothing, List.take_nil, runLedger_nil, ran.run, again.run, valid,
              nothing, nothingLater]
            exact .raises rfl rfl rfl
      | ok done =>
          have returns : (recoverActiveCostReservations env requestText journal files ledger
              clock file).result = .ok records := by
            rw [ran.run, valid]
            rfl
          have same : ∀ others, (recoverActiveCostReservations env requestText journal files ledger
              clock file).result = .ok others → others = records := fun others returned =>
            Except.ok.inj (returned.symm.trans returns)
          refine ⟨fun failure raised => ?_, fun others returned => ?_, fun others returned => ?_,
            fun others returned => ?_, fun count => ?_⟩
          · rw [returns] at raised
            cases raised
          · rw [same others returned]
            exact complete_of_run ran.read ran.wellFormed ran.accepted ran.fields
          · intro key entry logicalRequestId ordinal task stored identity isTask dispatched
            exact closed_of_tracks live ran.wellFormed ran.accepted ran.finalTracks
              (ran.fileAfter_eq ▸ ran.finalRead) stored identity isTask dispatched
          · rw [same others returned]
            exact fun record member adopted =>
              adopted_of_run ran.accepted ran.fields member adopted
          · dsimp only
            have laterCount := laterCareful count
            dsimp only at laterCount
            rw [← ran.cutAfter_eq] at laterCount
            exact ran.endsAlike valid count careful (ran.cutAfter_eq count) laterCount

end Sufficiency

end CostRecovery

end MmAudit
