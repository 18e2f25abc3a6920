import MmAudit.CostRecovery.Rerunning

/-!
# Recovery keeps its promises exactly when it is recoverable

A run that leaves a file which the ledger refuses cannot be run again, and a run
that raises after a reconciliation has changed the ledger.  So the condition under
which recovery is safe is also necessary.
-/

set_option linter.unusedSectionVars false

namespace MmAudit

namespace CostRecovery

open Fallible CostLedger Scheduler Logged

variable {Sha Payload : Type} [LinearOrder Sha] [DecidableEq Payload]
  {env : Environment Sha Payload} {requestText : Sha → String}
  {journal : Journal Sha Payload} {files : Archive Sha Payload} {ledger : AtomicCostLedger}
  {clock later : String → Timestamp} {file : SerializedState}

/-! ## The condition is necessary -/

theorem exists_read_of_returns {records : List (CostRecoveryRecord Sha)}
    (returned : (recoverActiveCostReservations env requestText journal files ledger clock
      file).result = .ok records) : ∃ entries, ledger.requiredState file = .ok entries := by
  obtain ⟨groups, validated, -⟩ := exists_groups_of_returns returned
  obtain ⟨entries, read, -⟩ := validatedGroups_eq_ok_iff.mp validated
  exact ⟨entries, read⟩

theorem fileAfter_of_returns {records : List (CostRecoveryRecord Sha)}
    (returned : (recoverActiveCostReservations env requestText journal files ledger clock
      file).result = .ok records) :
    fileAfter env requestText journal files ledger clock file =
        runLedger file (recoveryCalls env requestText journal ledger clock file) ∧
      ∀ count, cutAfter env requestText journal files ledger clock file count =
        runLedger file ((recoveryCalls env requestText journal ledger clock file).take count) := by
  obtain ⟨groups, -, -, log⟩ := exists_groups_of_returns returned
  refine ⟨?_, fun count => ?_⟩
  · rw [fileAfter, log, getLastD_ledgerFiles]
  · rw [cutAfter, log, getLastD_take_ledgerFiles]

/-- A run that reconciles an entry changes the ledger, also when it raises. -/
theorem fileAfter_ne_of_pending
    (pending : recoveryEntries env requestText journal ledger file ≠ []) :
    fileAfter env requestText journal files ledger clock file ≠ file := by
  cases validated : validatedGroups env requestText journal ledger file with
  | error refusal => simp [recoveryEntries, validated] at pending
  | ok groups =>
      obtain ⟨entries, read, accepted⟩ := validatedGroups_eq_ok_iff.mp validated
      obtain ⟨_, from', -⟩ := exists_validatedFrom_of_requiredState read
      have concludable := concludable_of_validated from'.wellFormed accepted
      simp only [recoveryEntries, validated] at pending
      have nonempty := conclude_log_ne_nil env clock read from'.wellFormed
        concludable pending []
      obtain ⟨isPrefix, -⟩ := conclude_log env ledger clock
        concludable.active ⟨file, []⟩
      rw [fileAfter, recover_log files clock validated]
      generalize ((groups.flatMap ValidatedGroup.attempts).foldlM
        (concludeAttempt env ledger clock) ⟨file, []⟩).log = log at nonempty isPrefix
      rw [List.prefix_iff_eq_take.mp isPrefix, getLastD_take_ledgerFiles]
      obtain ⟨stored, active, -⟩ := concludable.pending
      rw [pendingCalls]
      cases listed : pendingEntries (groups.flatMap ValidatedGroup.attempts) with
      | nil => exact absurd listed pending
      | cons entry rest =>
          rw [listed] at stored active
          obtain ⟨count, length⟩ := Nat.exists_eq_succ_of_ne_zero
            (fun zero => nonempty (List.length_eq_zero_iff.mp zero))
          rw [length, List.map_cons, List.take_succ_cons]
          exact runLedger_closing_ne read (stored entry List.mem_cons_self)
            (active entry List.mem_cons_self) _

/-- A run that keeps its promises is recoverable. -/
theorem recoverable_of_recoversSafely
    (safe : RecoversSafely env requestText journal files ledger clock later file) :
    Recoverable env requestText journal files ledger clock later file := by
  by_cases nothing : recoveryEntries env requestText journal ledger file = []
  · have noCalls : ∀ times, recoveryCalls env requestText journal ledger times file = [] := by
      intro times
      rw [recoveryCalls, nothing, List.map_nil]
    refine ⟨.inl (noCalls clock), ?_, fun count => ?_⟩
    · rw [noCalls]
      trivial
    · dsimp only
      rw [noCalls, List.take_nil, runLedger_nil, noCalls]
      trivial
  · cases returned : (recoverActiveCostReservations env requestText journal files ledger clock
        file).result with
    | error failure =>
        exact absurd (safe.atomic failure returned) (fileAfter_ne_of_pending nothing)
    | ok records =>
        obtain ⟨groups, validated, valid, log⟩ := exists_groups_of_returns returned
        obtain ⟨whole, cutEq⟩ := fileAfter_of_returns returned
        obtain ⟨entries, read⟩ := exists_read_of_returns returned
        have usable := usable_of_requiredState read
        -- A later run reads whatever file the first one was cut off at.
        have laterRun : ∀ count, ∃ others,
            (recoverActiveCostReservations env requestText journal files ledger later
              (cutAfter env requestText journal files ledger clock file count)).result =
                .ok others ∧
            SameStatuses ledger (fileAfter env requestText journal files ledger clock file)
              (fileAfter env requestText journal files ledger later
                (cutAfter env requestText journal files ledger clock file count)) := by
          intro count
          cases safe.rerunnable count with
          | returns _ secondReturns _ sameStatuses => exact ⟨_, secondReturns, sameStatuses⟩
          | raises firstRaises =>
              rw [returned] at firstRaises
              cases firstRaises
        have careful : AllCareful file
            (recoveryCalls env requestText journal ledger clock file) := by
          obtain ⟨others, laterReturns, -⟩ := laterRun
            (recoveryCalls env requestText journal ledger clock file).length
          obtain ⟨_, cutRead⟩ := exists_read_of_returns laterReturns
          rw [cutEq, List.take_length] at cutRead
          exact (usable_runLedger_iff usable _).mp (usable_of_requiredState cutRead)
        refine ⟨.inr valid, careful, fun count => ?_⟩
        obtain ⟨others, laterReturns, _, _, -, lastRead, -⟩ := laterRun count
        obtain ⟨laterWhole, -⟩ := fileAfter_of_returns laterReturns
        obtain ⟨_, cutRead⟩ := exists_read_of_returns laterReturns
        rw [laterWhole] at lastRead
        rw [cutEq] at cutRead lastRead
        exact (usable_runLedger_iff (usable_of_requiredState cutRead) _).mp
          (usable_of_requiredState lastRead)

/-! ## The condition is exact -/

/-- For every journal that a campaign reaches and every ledger: recovery is
atomic and complete, closes the entries of dispatched tasks, adopts only first
attempts of activated tasks and can be cut off and run again, exactly when
nothing can go wrong after its first reconciliation. -/
theorem recoversSafely_iff (free : env.CollisionFree) {manifest : CampaignManifest Sha}
    {analysisInputSha256 : Sha}
    {allowed : Environment.Config Sha Payload → Environment.Action Sha Payload → Prop}
    (campaign : env.Campaign manifest analysisInputSha256 allowed
      (Environment.newConfig manifest analysisInputSha256) (.live files journal)) :
    RecoversSafely env requestText journal files ledger clock later file ↔
      Recoverable env requestText journal files ledger clock later file := by
  have live : env.Live manifest files journal := campaign.holds free
  exact ⟨recoverable_of_recoversSafely, recoversSafely_of_recoverable live⟩

/-! ## A request that was interrupted -/

section Interrupted

open Environment

/-- The ledger knows the threat model request by this text. -/
def sampleRequestText (logicalRequestId : Encoded) : String :=
  if logicalRequestId = canonicalEnvironment.logicalRequestId orientationTask then "request-1"
  else "request-2"

/-- The files that a resume leaves after the dispatch was interrupted. -/
def interruptedFiles : Archive Encoded Unit :=
  writeAll (canonicalEnvironment.canonical (sampleState orientationDispatch).1)
    (canonicalEnvironment.resumeJournal sampleManifest [3] (sampleState orientationDispatch).1).log

def interruptedJournal : Journal Encoded Unit :=
  (sampleResumed (sampleState orientationDispatch).1).getD (newJournal sampleManifest [3])

/-- The ledger still has the reservation, made at time 10. -/
def interruptedLedger : SerializedState :=
  runLedger (newState sampleLedger.capUsd) [sampleReserve 10]

theorem campaign_interrupted :
    canonicalEnvironment.Campaign sampleManifest [3] (fun _ _ => True)
      (newConfig sampleManifest [3]) (.live interruptedFiles interruptedJournal) := by
  have calls := campaign_sampleState (fun _ _ => True) orientationDispatch
    (fun _ _ _ _ => trivial) (by decide +kernel)
  have before : canonicalEnvironment.Campaign sampleManifest [3] (fun _ _ => True)
      (newConfig sampleManifest [3]) (.down (sampleState orientationDispatch).1) :=
    .step calls trivial .close
  have returns : (sampleResumed (sampleState orientationDispatch).1).isSome := by decide +kernel
  obtain ⟨journal, resumed⟩ := Option.isSome_iff_exists.mp returns
  have same : interruptedJournal = journal := by rw [interruptedJournal, resumed, Option.getD_some]
  rw [same]
  exact before.trans (resume_sample (fun _ _ => True) trivial resumed)

/-- Calls are careful when the file before and the file after them are read. -/
theorem allCareful_of_isSome (ledger : AtomicCostLedger) (file : SerializedState)
    (history : List (AtomicCostLedger × LedgerOperation))
    (before : (ledger.requiredState file).toOption.isSome)
    (after : (ledger.requiredState (runLedger file history)).toOption.isSome) :
    AllCareful file history := by
  obtain ⟨_, read⟩ := eq_ok_of_toOption_isSome before
  obtain ⟨_, readAfter⟩ := eq_ok_of_toOption_isSome after
  exact (usable_runLedger_iff (usable_of_requiredState read) history).mp
    (usable_of_requiredState readAfter)

/-- One reconciliation leaves nothing to a later run. -/
theorem recoverable_of_single
    (valid : (env.validateState journal files).toOption.isSome)
    (single : (recoveryCalls env requestText journal ledger clock file).length = 1)
    (read : (ledger.requiredState file).toOption.isSome)
    (closed : (ledger.requiredState (runLedger file
      (recoveryCalls env requestText journal ledger clock file))).toOption.isSome)
    (laterClosed : (ledger.requiredState (runLedger file
      (recoveryCalls env requestText journal ledger later file))).toOption.isSome)
    (nothingLeft : recoveryEntries env requestText journal ledger
      (runLedger file (recoveryCalls env requestText journal ledger clock file)) = []) :
    Recoverable env requestText journal files ledger clock later file := by
  obtain ⟨_, passes⟩ := eq_ok_of_toOption_isSome valid
  refine ⟨.inr passes, allCareful_of_isSome ledger file _ read closed, fun count => ?_⟩
  cases count with
  | zero => exact allCareful_of_isSome ledger file _ read laterClosed
  | succ count =>
      dsimp only
      have noCalls : recoveryCalls env requestText journal ledger later
          (runLedger file (recoveryCalls env requestText journal ledger clock file)) = [] := by
        rw [recoveryCalls, nothingLeft, List.map_nil]
      rw [List.take_of_length_le (by omega), noCalls]
      trivial

/-- With a clock that went on, recovery of the interrupted request keeps its
promises. -/
theorem recoversSafely_sample :
    RecoversSafely canonicalEnvironment sampleRequestText interruptedJournal interruptedFiles
      sampleLedger (fun _ => 20) (fun _ => 30) interruptedLedger := by
  refine (recoversSafely_iff canonical_collisionFree campaign_interrupted).mpr ?_
  have valid : (canonicalEnvironment.validateState interruptedJournal
      interruptedFiles).toOption.isSome := by decide +kernel
  have single : (recoveryCalls canonicalEnvironment sampleRequestText interruptedJournal
      sampleLedger (fun _ => 20) interruptedLedger).length = 1 := by decide +kernel
  have read : (sampleLedger.requiredState interruptedLedger).toOption.isSome := by
    decide +kernel
  have closed : (sampleLedger.requiredState (runLedger interruptedLedger
      (recoveryCalls canonicalEnvironment sampleRequestText interruptedJournal sampleLedger
        (fun _ => 20) interruptedLedger))).toOption.isSome := by
    decide +kernel
  have laterClosed : (sampleLedger.requiredState (runLedger interruptedLedger
      (recoveryCalls canonicalEnvironment sampleRequestText interruptedJournal sampleLedger
        (fun _ => 30) interruptedLedger))).toOption.isSome := by
    decide +kernel
  have nothingLeft : recoveryEntries canonicalEnvironment sampleRequestText interruptedJournal
      sampleLedger (runLedger interruptedLedger (recoveryCalls canonicalEnvironment
        sampleRequestText interruptedJournal sampleLedger (fun _ => 20) interruptedLedger)) =
          [] := by
    decide +kernel
  exact recoverable_of_single valid single read closed laterClosed nothingLeft

/-- With a clock that went back, the run returns its record and leaves a ledger
that a later run cannot read. -/
theorem clock_behind_breaks_recovery :
    (recoverActiveCostReservations canonicalEnvironment sampleRequestText interruptedJournal
      interruptedFiles sampleLedger (fun _ => 5) interruptedLedger).result.toOption.isSome ∧
    (recoverActiveCostReservations canonicalEnvironment sampleRequestText interruptedJournal
      interruptedFiles sampleLedger (fun _ => 30)
        (cutAfter canonicalEnvironment sampleRequestText interruptedJournal interruptedFiles
          sampleLedger (fun _ => 5) interruptedLedger 1)).result.toOption = none ∧
    ¬ RecoversSafely canonicalEnvironment sampleRequestText interruptedJournal interruptedFiles
      sampleLedger (fun _ => 5) (fun _ => 30) interruptedLedger := by
  have first : (recoverActiveCostReservations canonicalEnvironment sampleRequestText
      interruptedJournal interruptedFiles sampleLedger (fun _ => 5)
        interruptedLedger).result.toOption.isSome := by decide +kernel
  have second : (recoverActiveCostReservations canonicalEnvironment sampleRequestText
      interruptedJournal interruptedFiles sampleLedger (fun _ => 30)
        (cutAfter canonicalEnvironment sampleRequestText interruptedJournal interruptedFiles
          sampleLedger (fun _ => 5) interruptedLedger 1)).result.toOption = none := by
    decide +kernel
  refine ⟨first, second, fun safe => ?_⟩
  cases safe.rerunnable 1 with
  | returns _ secondReturns =>
      rw [secondReturns] at second
      cases second
  | raises firstRaises =>
      rw [firstRaises] at first
      cases first

end Interrupted

end CostRecovery

end MmAudit
