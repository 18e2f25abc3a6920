import MmAudit.CostLedger.State

/-!
# Operations of the cost ledger

Every public operation runs under one exclusive file lock: it reads and
validates the file, decides, and replaces the file atomically.  An operation is
therefore a function from the file content to the file content and a result.
The clock reading and the random identifier an operation draws are arguments.

A run is a list of operations, each performed by some process.  Processes keep
their own copy of the cap and share nothing but the file, so every interleaving
of processes is such a list.
-/

namespace MmAudit

namespace CostLedger

open Fallible

/-- Totals derived from validated entries. -/
structure CostLedgerSnapshot where
  capUsd : Decimal
  spentUsd : Decimal
  activeReservedUsd : Decimal
  remainingUsd : Decimal
  overCap : Bool
  hasReservationOverrun : Bool
  entries : List CostEntry
deriving DecidableEq

/-- The totals of `_snapshot`, summed in the 64-digit context. -/
def snapshotOf (cap : Decimal) (entries : Dict String CostEntry) : CostLedgerSnapshot :=
  let spent := snapshotContext.sum (entries.values.map CostEntry.accountedCostUsd)
  let reserved := snapshotContext.sum
    ((entries.values.filter fun entry => entry.status = .reserved).map CostEntry.reservedUsd)
  let available := snapshotContext.sub (snapshotContext.sub cap spent) reserved
  { capUsd := cap
    spentUsd := spent
    activeReservedUsd := reserved
    remainingUsd := if 0 < available then available else 0
    overCap := available < 0
    hasReservationOverrun := entries.values.any fun entry => entry.status = .reservationOverrun
    entries := entries.sorted.values }

/-- A ledger object of one process, holding the cap it was opened with. -/
structure AtomicCostLedger where
  capUsd : Decimal
  capUsd_valid : validateMoney (.finite capUsd) "cap_usd" true = .ok capUsd

namespace AtomicCostLedger

/-- Read and validate the file, and require this process's cap. -/
def requiredState (ledger : AtomicCostLedger) (file : SerializedState) :
    Except CostLedgerError (Dict String CostEntry) :=
  if maxStateBytes < stateBytes file then
    .error (.corrupt "cost ledger exceeds the bounded state size")
  else
    match validateState file with
    | .error failure => .error failure
    | .ok (persistedCap, entries) =>
        if persistedCap.SameValue ledger.capUsd then
          .ok entries
        else
          .error (.configuration "configured cost cap does not match the existing ledger")

end AtomicCostLedger

/-- The handle of an active entry. -/
def CostEntry.asReservation (entry : CostEntry) : Except CostLedgerError CostReservation :=
  if entry.status = .reserved then
    .ok ⟨entry.requestId, entry.reservationId, entry.reservedUsd⟩
  else
    .error (.reservationState
      s!"request {entry.requestId} does not have an active reservation")

/-- The entry a handle names, if the handle matches it exactly. -/
def matchingEntry (entries : Dict String CostEntry) (reservation : CostReservation) :
    Except CostLedgerError CostEntry := do
  validateRequestId reservation.requestId
  let expectedCost ← validateMoney (.finite reservation.reservedUsd) "reserved_usd" true
  match entries.get? reservation.requestId with
  | none => .error (.reservationState s!"unknown request ID: {reservation.requestId}")
  | some current =>
      if current.reservationId ≠ reservation.reservationId ∨
          ¬ current.reservedUsd.SameValue expectedCost then
        .error (.reservationState
          s!"reservation handle does not match request {reservation.requestId}")
      else
        .ok current

/-- The status that reconciling at a cost leads to. -/
def statusOfActual (reserved : Decimal) : Option Decimal → CostEntryStatus
  | none => .uncertainAccounted
  | some actual => if reserved < actual then .reservationOverrun else .reconciled

def overrunError (reservation : CostReservation) : CostLedgerError :=
  .reservationOverrun
    s!"actual cost for {reservation.requestId} exceeded its maximum reservation"

def finalizedError (reservation : CostReservation) : CostLedgerError :=
  .reservationState s!"request {reservation.requestId} was already finalized"

def sameOptionalValue : Option Decimal → Option Decimal → Bool
  | none, none => true
  | some first, some second => first.SameValue second
  | _, _ => false

/-- What a locked operation hands back: its value, and the state it wrote, if
it wrote one. -/
structure Locked (Value : Type) where
  value : Value
  written : Option SerializedState

namespace AtomicCostLedger

def reserve (ledger : AtomicCostLedger) (file : SerializedState) (requestId : String)
    (maximumCostUsd : DecimalArgument) (now : Timestamp) (fresh : FreshReservationId) :
    Except CostLedgerError (Locked CostReservation) := do
  validateRequestId requestId
  let requested ← validateMoney maximumCostUsd "maximum_cost_usd" true
  let entries ← ledger.requiredState file
  raiseIf (requestId ∈ entries)
    (.reservationState s!"request ID already recorded: {requestId}")
  let snapshot := snapshotOf ledger.capUsd entries
  raiseIf snapshot.hasReservationOverrun
    (.budgetExceeded
      "a prior provider cost exceeded its reservation; further calls are blocked")
  raiseIf (snapshot.remainingUsd < requested)
    (.budgetExceeded s!"request {requestId} exceeds the remaining model-cost budget")
  let entry : CostEntry := {
    requestId := requestId
    reservationId := fresh.1
    status := .reserved
    reservedUsd := requested
    actualCostUsd := none
    accountedCostUsd := 0
    releaseReason := none
    createdAt := now
    updatedAt := now }
  .ok {
    value := ⟨requestId, fresh.1, requested⟩
    written := some (serializeState ledger.capUsd (entries.insert requestId entry)) }

/-- The locked part of `reconcile`; it reports an overrun it recorded so that
the caller raises it after the write. -/
def reconcileLocked (ledger : AtomicCostLedger) (file : SerializedState)
    (reservation : CostReservation) (actual : Option Decimal) (now : Timestamp) :
    Except CostLedgerError (Locked (CostEntry × Bool)) := do
  let entries ← ledger.requiredState file
  let current ← matchingEntry entries reservation
  let expectedStatus := statusOfActual reservation.reservedUsd actual
  if current.status ≠ .reserved then
    -- A finalized entry only accepts the same reconciliation again.
    if current.status = expectedStatus ∧ sameOptionalValue current.actualCostUsd actual ∧
        current.accountedCostUsd.SameValue (actual.getD reservation.reservedUsd) then
      raiseIf (current.status = .reservationOverrun) (overrunError reservation)
      .ok { value := (current, false), written := none }
    else
      .error (finalizedError reservation)
  else
    let updated : CostEntry := {
      requestId := current.requestId
      reservationId := current.reservationId
      status := expectedStatus
      reservedUsd := current.reservedUsd
      actualCostUsd := actual
      accountedCostUsd := actual.getD reservation.reservedUsd
      releaseReason := none
      createdAt := current.createdAt
      updatedAt := now }
    .ok {
      value := (updated, expectedStatus = .reservationOverrun)
      written := some (serializeState ledger.capUsd (entries.insert current.requestId updated)) }

def release (ledger : AtomicCostLedger) (file : SerializedState)
    (reservation : CostReservation) (reason : ReleaseReason) (now : Timestamp) :
    Except CostLedgerError (Locked CostEntry) := do
  let entries ← ledger.requiredState file
  let current ← matchingEntry entries reservation
  if current.status = .released then
    if current.releaseReason = some reason then
      .ok { value := current, written := none }
    else
      .error (.reservationState
        s!"request {reservation.requestId} was released for a different reason")
  else if current.status ≠ .reserved then
    .error (finalizedError reservation)
  else
    let updated : CostEntry := {
      requestId := current.requestId
      reservationId := current.reservationId
      status := .released
      reservedUsd := current.reservedUsd
      actualCostUsd := none
      accountedCostUsd := 0
      releaseReason := some reason
      createdAt := current.createdAt
      updatedAt := now }
    .ok {
      value := updated
      written := some (serializeState ledger.capUsd (entries.insert current.requestId updated)) }

def activeReservation (ledger : AtomicCostLedger) (file : SerializedState) (requestId : String) :
    Except CostLedgerError (Option CostReservation) := do
  validateRequestId requestId
  let entries ← ledger.requiredState file
  match entries.get? requestId with
  | none => .ok none
  | some entry =>
      if entry.status ≠ .reserved then
        .ok none
      else
        some <$> entry.asReservation

def snapshot (ledger : AtomicCostLedger) (file : SerializedState) :
    Except CostLedgerError CostLedgerSnapshot := do
  let entries ← ledger.requiredState file
  .ok (snapshotOf ledger.capUsd entries)

end AtomicCostLedger

/-! ## Runs -/

/-- One call of a public operation, with the clock reading and the identifier
it draws. -/
inductive LedgerOperation
  | reserve (requestId : String) (maximumCostUsd : DecimalArgument) (now : Timestamp)
      (fresh : FreshReservationId)
  | reconcile (reservation : CostReservation) (actualCostUsd : Option DecimalArgument)
      (now : Timestamp)
  | release (reservation : CostReservation) (reason : ReleaseReason) (now : Timestamp)
  | activeReservation (requestId : String)
  | snapshot

/-- What a call returns. -/
inductive LedgerResponse
  | reservation (handle : CostReservation)
  | entry (entry : CostEntry)
  | active (handle : Option CostReservation)
  | snapshot (snapshot : CostLedgerSnapshot)
deriving DecidableEq

/-- The file after a call, and what the call returned or raised. -/
structure LedgerOutcome where
  file : SerializedState
  result : Except CostLedgerError LedgerResponse

/-- A failed operation leaves the file; a successful one installs what it
wrote. -/
def outcomeOf {Value : Type} (file : SerializedState)
    (locked : Except CostLedgerError (Locked Value))
    (finish : Value → Except CostLedgerError LedgerResponse) : LedgerOutcome :=
  match locked with
  | .error failure => ⟨file, .error failure⟩
  | .ok done => ⟨done.written.getD file, finish done.value⟩

/-- The optional actual cost of a reconciliation, validated when present. -/
def validateActual : Option DecimalArgument → Except CostLedgerError (Option Decimal)
  | none => .ok none
  | some argument => some <$> validateMoney argument "actual_cost_usd" false

namespace AtomicCostLedger

/-- Reconcile, raising a recorded overrun only after the file was replaced. -/
def reconcile (ledger : AtomicCostLedger) (file : SerializedState)
    (reservation : CostReservation) (actualCostUsd : Option DecimalArgument)
    (now : Timestamp) : LedgerOutcome :=
  match validateActual actualCostUsd with
  | .error failure => ⟨file, .error failure⟩
  | .ok actual =>
      outcomeOf file (ledger.reconcileLocked file reservation actual now) fun
        | (_, true) => .error (overrunError reservation)
        | (updated, false) => .ok (.entry updated)

def perform (ledger : AtomicCostLedger) (file : SerializedState) :
    LedgerOperation → LedgerOutcome
  | .reserve requestId maximumCostUsd now fresh =>
      outcomeOf file (ledger.reserve file requestId maximumCostUsd now fresh)
        fun handle => .ok (.reservation handle)
  | .reconcile reservation actualCostUsd now =>
      ledger.reconcile file reservation actualCostUsd now
  | .release reservation reason now =>
      outcomeOf file (ledger.release file reservation reason now) fun entry => .ok (.entry entry)
  | .activeReservation requestId =>
      ⟨file, .active <$> ledger.activeReservation file requestId⟩
  | .snapshot => ⟨file, .snapshot <$> ledger.snapshot file⟩

end AtomicCostLedger

/-- The file after a list of calls, each made by the process it is paired
with. -/
def runLedger (file : SerializedState) (history : List (AtomicCostLedger × LedgerOperation)) :
    SerializedState :=
  history.foldl (fun current call => (call.1.perform current call.2).file) file

@[simp]
theorem runLedger_nil (file : SerializedState) : runLedger file [] = file :=
  rfl

@[simp]
theorem runLedger_cons (file : SerializedState) (call : AtomicCostLedger × LedgerOperation)
    (history : List (AtomicCostLedger × LedgerOperation)) :
    runLedger file (call :: history) = runLedger (call.1.perform file call.2).file history :=
  rfl

theorem runLedger_append (file : SerializedState)
    (first second : List (AtomicCostLedger × LedgerOperation)) :
    runLedger file (first ++ second) = runLedger (runLedger file first) second :=
  List.foldl_append

end CostLedger

end MmAudit
