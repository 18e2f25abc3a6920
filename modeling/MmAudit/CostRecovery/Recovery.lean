import MmAudit.CostLedger.Operations
import MmAudit.Library.Grouping
import MmAudit.Scheduler.Recovery

/-!
# Recovery of active cost reservations

A campaign that was interrupted may have left reservations in the cost ledger.
Recovery joins every such entry to its task: a task that was never dispatched
keeps its reservation for one resumed dispatch, and a task that was dispatched is
never retried, so its unknown charge is accounted at the full reservation.  This
file translates `recover_active_cost_reservations` of
`orchestration/scheduler.py`.

The journal knows a request by a digest and the ledger by a text, so the text of
a logical request is a parameter.  The log of a run has the ledger file after
each of its reconciliations.  A reconciliation reads the clock, and an entry is
reconciled at most once in a run, so the readings are given by request ID.
-/

namespace MmAudit

namespace CostRecovery

open Fallible CostLedger Scheduler Scheduler.Environment

/-- Closed cost-ledger outcomes for an interrupted scheduled provider attempt. -/
inductive CostRecoveryStatus
  | adoptedProvenPreSend
  | uncertainAccountedAfterDispatch
deriving DecidableEq, Repr

/-- The join from one scheduler task to one recovered ledger entry. -/
structure CostRecoveryRecord (Sha : Type) where
  requestId : String
  logicalRequestId : String
  taskId : Sha
  requestedModel : String
  role : String
  status : CostRecoveryStatus
  reservedCostUsdExact : Decimal
  accountedCostUsdExact : Decimal
deriving DecidableEq

/-! ## Provider attempts -/

/-- `str.rpartition`: the texts around the last occurrence of a marker. -/
def rpartition (marker : List Char) : List Char → Option (List Char × List Char)
  | [] => none
  | character :: rest =>
      match rpartition marker rest with
      | some (before, after) => some (character :: before, after)
      | none =>
          if marker.isPrefixOf (character :: rest) then
            some ([], (character :: rest).drop marker.length)
          else
            none

/-- The ordinal of a retry: the canonical digits of a number above one.  Request
IDs are ASCII, so `isdigit` accepts no other digits. -/
def retryOrdinal (rawAttempt : List Char) : Option ℕ :=
  let attempt := Nat.ofDigitChars 10 rawAttempt 0
  if rawAttempt ≠ [] ∧ rawAttempt.all Char.isDigit ∧ 2 ≤ attempt ∧
      Nat.toDigits 10 attempt = rawAttempt then
    some attempt
  else
    none

variable {Sha Payload : Type} [LinearOrder Sha] [DecidableEq Payload]

/-- Resolve one canonical provider-attempt ID to its task and one-based
ordinal. -/
def campaignProviderAttemptIdentity (tasksByRequest : Dict String (TaskPlan Sha))
    (providerAttemptId : String) : Option (String × ℕ) :=
  if providerAttemptId ∈ tasksByRequest then
    some (providerAttemptId, 1)
  else
    match rpartition ":attempt:".toList providerAttemptId.toList with
    | none => none
    | some (logicalRequestId, rawAttempt) =>
        if String.ofList logicalRequestId ∈ tasksByRequest then
          (retryOrdinal rawAttempt).map (String.ofList logicalRequestId, ·)
        else
          none

/-- The statuses of an entry that recovery is about. -/
def IsActive (status : CostEntryStatus) : Prop :=
  status = .reserved ∨ status = .uncertainAccounted

instance (status : CostEntryStatus) : Decidable (IsActive status) :=
  inferInstanceAs (Decidable (_ ∨ _))

/-- An active entry with its task and ordinal, if the campaign owns it. -/
def ownedAttempt (tasksByRequest : Dict String (TaskPlan Sha)) (entry : CostEntry) :
    Option (String × ℕ × CostEntry) :=
  if IsActive entry.status then
    (campaignProviderAttemptIdentity tasksByRequest entry.requestId).map
      fun (logicalRequestId, ordinal) => (logicalRequestId, ordinal, entry)
  else
    none

def groupedEntries (tasksByRequest : Dict String (TaskPlan Sha)) (entries : List CostEntry) :
    Dict String (List (ℕ × CostEntry)) :=
  Dict.collect (entries.filterMap (ownedAttempt tasksByRequest))

/-! ## Validation of the groups -/

/-- The attempts of one task in the order of their ordinals, and whether the task
was dispatched. -/
structure ValidatedGroup (Sha : Type) where
  logicalRequestId : String
  task : TaskPlan Sha
  entries : List (ℕ × CostEntry)
  wasDispatched : Bool

def CostLedgerError.message : CostLedgerError → String
  | .budgetExceeded message => message
  | .configuration message => message
  | .corrupt message => message
  | .reservationState message => message
  | .reservationOverrun message => message

/-- A failure of the ledger, as the message that its caller sees. -/
def ledgerCall {Value : Type} (computation : Except CostLedgerError Value) :
    Except String Value :=
  match computation with
  | .ok value => .ok value
  | .error failure => .error (CostLedgerError.message failure)

/-- The last durable event of a task is its activation. -/
def EndsActivated (history : List (TaskEvent Sha)) : Prop :=
  history.getLast?.map (·.kind) = some .activated

instance (history : List (TaskEvent Sha)) : Decidable (EndsActivated history) :=
  inferInstanceAs (Decidable (_ = _))

/-- The events of a task contain its dispatch. -/
def WasDispatched (history : List (TaskEvent Sha)) : Prop :=
  ∃ event ∈ history, event.kind = .dispatched

instance (history : List (TaskEvent Sha)) : Decidable (WasDispatched history) :=
  inferInstanceAs (Decidable (∃ _ ∈ _, _))

section Validation

variable (env : Environment Sha Payload) (requestText : Sha → String)

/-- The model requests of the plans, under the texts of their logical requests. -/
def tasksByRequest (journal : Journal Sha Payload) : Dict String (TaskPlan Sha) :=
  (((Archive.plannedTasks journal.archive.plans).map Prod.fst).filter
    (·.taskKind = .modelRequest)).foldl
      (fun tasks task => tasks.insert (requestText (env.logicalRequestId task)) task) Dict.empty

def requiredTask (tasks : Dict String (TaskPlan Sha)) (logicalRequestId : String) :
    Except String (TaskPlan Sha) :=
  match tasks.get? logicalRequestId with
  | none => .error logicalRequestId
  | some task => .ok task

/-- The first loop: the attempts of one task agree with its events. -/
def validateGroup (journal : Journal Sha Payload) (tasks : Dict String (TaskPlan Sha))
    (group : String × List (ℕ × CostEntry)) : Except String (ValidatedGroup Sha) := do
  let task ← requiredTask tasks group.1
  let taskId := env.taskId task
  let history := historyForTask journal taskId
  raiseIf ((∀ activation ∈ journal.archive.activations, activation.taskId ≠ taskId) ∨
      history = [])
    "active model-cost reservation lacks exact scheduler activation"
  let entries := group.2.insertionSort (·.1 ≤ ·.1)
  let ordinals := entries.map Prod.fst
  raiseIf (EndsActivated history ∧
      (ordinals ≠ [1] ∨ entries.head?.map (·.2.requestId) ≠ some group.1))
    "pre-send retry reservation lacks exact dispatch evidence"
  raiseIf (ordinals ≠ List.range' 1 ordinals.length)
    "scheduler provider-attempt ordinals are not contiguous"
  if EndsActivated history then do
    raiseIf (entries.head?.map (·.2.status) ≠ some .reserved)
      "accounted model-cost uncertainty lacks scheduler dispatch evidence"
    .ok ⟨group.1, task, entries, false⟩
  else do
    raiseIf (¬ WasDispatched history ∨
        (journal.indexes.creditedResults.get? taskId).map (·.terminalStatus) ≠ some .uncertain)
      "active model-cost reservation differs from scheduler dispatch state"
    raiseIf (∃ attempt ∈ entries.dropLast, attempt.2.status ≠ .uncertainAccounted)
      "prior retry attempt lacks accounted uncertainty"
    .ok ⟨group.1, task, entries, true⟩

/-- The groups of the ledger's entries, each validated, in the order of their
logical requests. -/
def validatedGroups (journal : Journal Sha Payload) (ledger : AtomicCostLedger)
    (file : SerializedState) : Except String (List (ValidatedGroup Sha)) := do
  let tasks := tasksByRequest env requestText journal
  let snapshot ← ledgerCall (ledger.snapshot file)
  (groupedEntries tasks snapshot.entries).sorted.items.mapM (validateGroup env journal tasks)

end Validation

/-! ## Conclusion of the entries -/

/-- One step of the second loop: a validated group and one of its entries. -/
abbrev Attempt (Sha : Type) :=
  ValidatedGroup Sha × CostEntry

def ValidatedGroup.attempts (group : ValidatedGroup Sha) : List (Attempt Sha) :=
  group.entries.map fun (_, entry) => (group, entry)

/-- The ledger file so far, and the records so far. -/
structure Progress (Sha : Type) where
  file : SerializedState
  recovered : List (CostRecoveryRecord Sha)

def recordOf (env : Environment Sha Payload) (attempt : Attempt Sha) (status : CostRecoveryStatus)
    (reserved accounted : Decimal) : CostRecoveryRecord Sha where
  requestId := attempt.2.requestId
  logicalRequestId := attempt.1.logicalRequestId
  taskId := env.taskId attempt.1.task
  requestedModel := attempt.1.task.requestedModel.getD ""
  role := attempt.1.task.role
  status := status
  reservedCostUsdExact := reserved
  accountedCostUsdExact := accounted

/-- The entry that a reconciliation returned. -/
def closedEntry : LedgerResponse → Except String CostEntry
  | .entry entry => .ok entry
  | _ => .error "reconciliation returns an entry"

/-- Reconcile an active entry at an unknown actual cost. -/
def reconcileUnknown (ledger : AtomicCostLedger) (clock : String → Timestamp)
    (file : SerializedState) (entry : CostEntry) :
    Logged SerializedState (SerializedState × CostEntry) := do
  let reservation ← .lift (ledgerCall entry.asReservation)
  let outcome := ledger.perform file (.reconcile reservation none (clock entry.requestId))
  Logged.write outcome.file
  let closed ← .lift (ledgerCall outcome.result >>= closedEntry)
  pure (outcome.file, closed)

section Conclusion

variable (env : Environment Sha Payload) (requestText : Sha → String)

/-- The body of the second loop. -/
def concludeAttempt (ledger : AtomicCostLedger) (clock : String → Timestamp)
    (progress : Progress Sha) (attempt : Attempt Sha) :
    Logged SerializedState (Progress Sha) :=
  let entry := attempt.2
  if ¬ attempt.1.wasDispatched then
    pure ⟨progress.file, progress.recovered ++ [recordOf env attempt .adoptedProvenPreSend
      entry.reservedUsd entry.accountedCostUsd]⟩
  else if entry.status = .uncertainAccounted then do
    .lift (raiseIf (entry.actualCostUsd ≠ none ∨
        ¬ entry.accountedCostUsd.SameValue entry.reservedUsd)
      "accounted model-cost uncertainty differs from scheduler dispatch state")
    pure ⟨progress.file, progress.recovered ++ [recordOf env attempt
      .uncertainAccountedAfterDispatch entry.reservedUsd entry.accountedCostUsd]⟩
  else do
    let (file, closed) ← reconcileUnknown ledger clock progress.file entry
    pure ⟨file, progress.recovered ++ [recordOf env attempt .uncertainAccountedAfterDispatch
      closed.reservedUsd closed.accountedCostUsd]⟩

/-- `recover_active_cost_reservations`, for a journal whose custody is live and
writable. -/
def recoverActiveCostReservations (journal : Journal Sha Payload) (files : Archive Sha Payload)
    (ledger : AtomicCostLedger) (clock : String → Timestamp) (file : SerializedState) :
    Logged SerializedState (List (CostRecoveryRecord Sha)) := do
  let groups ← .lift (validatedGroups env requestText journal ledger file)
  let progress ← (groups.flatMap ValidatedGroup.attempts).foldlM
    (concludeAttempt env ledger clock) ⟨file, []⟩
  .lift (env.validateState journal files)
  pure (progress.recovered.insertionSort (·.requestId ≤ ·.requestId))

end Conclusion

end CostRecovery

end MmAudit
