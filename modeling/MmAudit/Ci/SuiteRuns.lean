import MmAudit.Ci.Regressions
import Mathlib.Data.List.Lex

/-!
# Runs of repository suites

What a fork suite scanner reports for the tests that it selected, the checks that a run
passes, and the evidence that continuous integration makes of the runs.  A selected test that
the scanner never started has an execution too, with the status of one that is unavailable.

The hash of an execution, the validity of an observation hash and the authority of a run at
run time are parameters.  The inventories, policies and findings of a run are left out.
-/

namespace MmAudit

namespace Ci

open Fallible

/-! ## Selections and executions -/

inductive RepositoryTestExecutionStatus where
  | passed
  | failed
  | reverted
  | assertionFailed
  | skipped
  | timedOut
  | unavailable
  | invalidOutput
deriving DecidableEq, Repr

namespace RepositoryTestExecutionStatus

/-- `attempted`: the statuses of a test that was started. -/
def attempted : RepositoryTestExecutionStatus → Bool
  | passed | failed | reverted | assertionFailed | timedOut | invalidOutput => true
  | skipped | unavailable => false

/-- `classified_statuses` -/
def classified : RepositoryTestExecutionStatus → Bool
  | passed | failed | reverted | assertionFailed => true
  | skipped | timedOut | unavailable | invalidOutput => false

end RepositoryTestExecutionStatus

structure RepositorySuiteTestDescriptor where
  framework : RepositorySuiteFramework
  projectRoot : String
  path : String
  suiteName : String
  testName : String
  descriptorSha256 : String
deriving DecidableEq, Repr

def RepositorySuiteTestDescriptor.canonicalKey (descriptor : RepositorySuiteTestDescriptor) :
    List String :=
  [descriptor.framework.value, descriptor.projectRoot, descriptor.path, descriptor.suiteName,
    descriptor.testName]

/-- A selection that passed its validator. -/
structure RepositorySuiteSelection where
  selectionSha256 : String
  tests : List RepositorySuiteTestDescriptor
  keys_sorted : (tests.map (·.canonicalKey)).Pairwise (· < ·)
  hashes_distinct : (tests.map (·.descriptorSha256)).Nodup
  bounded : tests.length ≤ 10000

/-- The validator asks that the count is that of the tests. -/
def RepositorySuiteSelection.selectedTestCount (selection : RepositorySuiteSelection) : ℕ :=
  selection.tests.length

structure RepositoryTestExecution where
  selectionSha256 : String
  descriptorSha256 : String
  framework : RepositorySuiteFramework
  projectRoot : String
  path : String
  suiteName : String
  testName : String
  status : RepositoryTestExecutionStatus
  terminalDetail : Option String
  executionSha256 : String
deriving DecidableEq, Repr

def RepositoryTestExecution.canonicalKey (execution : RepositoryTestExecution) : List String :=
  [execution.framework.value, execution.projectRoot, execution.path, execution.suiteName,
    execution.testName]

/-! ## What the scanner reports -/

structure FoundryTestObservation where
  descriptor : RepositorySuiteTestDescriptor
  status : RepositoryTestExecutionStatus
  terminalDetail : Option String

/-- `_unavailable_observation` -/
def unavailableObservation (descriptor : RepositorySuiteTestDescriptor) (detail : String) :
    FoundryTestObservation :=
  ⟨descriptor, .unavailable, some detail⟩

/-- The observation of a descriptor; of several, the last one. -/
def observationOf (observations : List FoundryTestObservation)
    (descriptor : RepositorySuiteTestDescriptor) : Option FoundryTestObservation :=
  observations.reverse.find? fun observation =>
    observation.descriptor.descriptorSha256 = descriptor.descriptorSha256

/-- `RepositoryTestExecution.sealed` for a descriptor and its observation -/
def executionOf (hash : RepositoryTestExecution → String) (selectionSha256 : String)
    (descriptor : RepositorySuiteTestDescriptor) (observation : FoundryTestObservation) :
    RepositoryTestExecution :=
  let execution : RepositoryTestExecution :=
    { selectionSha256 := selectionSha256
      descriptorSha256 := descriptor.descriptorSha256
      framework := descriptor.framework
      projectRoot := descriptor.projectRoot
      path := descriptor.path
      suiteName := descriptor.suiteName
      testName := descriptor.testName
      status := observation.status
      terminalDetail := observation.terminalDetail
      executionSha256 := "" }
  { execution with executionSha256 := hash execution }

/-- `_repository_test_executions` -/
def repositoryTestExecutions (hash : RepositoryTestExecution → String)
    (selection : RepositorySuiteSelection) (observations : List FoundryTestObservation)
    (fallbackDetail : String) : Except ValueError (List RepositoryTestExecution) := do
  raiseIf (¬(observations.map (·.descriptor.descriptorSha256)).Nodup)
    ⟨"repository fork suite emitted duplicate execution observations"⟩
  return selection.tests.map fun descriptor =>
    executionOf hash selection.selectionSha256 descriptor
      ((observationOf observations descriptor).getD
        (unavailableObservation descriptor fallbackDetail))

/-! ## Runs -/

inductive ExecutionEvidenceKind where
  | real
  | mock
  | unverified
deriving DecidableEq, Repr

inductive RepositoryCodeExecutionState where
  | notApplicable
  | disabled
  | blocked
  | isolated
deriving DecidableEq, Repr

def ScannerStatus.value : ScannerStatus → String
  | success => "success"
  | notApplicable => "not_applicable"
  | unmetPrerequisite => "unmet_prerequisite"
  | silentFailure => "silent_failure"
  | unavailable => "unavailable"
  | interpreterOrLoaderFailure => "interpreter_or_loader_failure"
  | failed => "failed"
  | timedOut => "timed_out"
  | skipped => "skipped"

structure ScannerRun where
  scanner : String
  status : ScannerStatus
  executionEvidence : ExecutionEvidenceKind
  repositoryCodeExecution : RepositoryCodeExecutionState
  machineOutputValidated : Bool
  repositorySuiteSelection : Option RepositorySuiteSelection
  repositoryTestExecutions : List RepositoryTestExecution

/-- The framework that a suite scanner runs. -/
def expectedFramework (scanner : String) : Option RepositorySuiteFramework :=
  if scanner = "foundry_fork" then some .foundry
  else if scanner = "hardhat_fork" then some .hardhat
  else none

/-- The checks of one execution against its descriptor. -/
def checkExecution (selection : RepositorySuiteSelection) (execution : RepositoryTestExecution) :
    Except ValueError Unit := do
  raiseIf (execution.selectionSha256 ≠ selection.selectionSha256)
    ⟨"repository test execution does not bind its suite selection"⟩
  raiseIf (∀ descriptor ∈ selection.tests,
      descriptor.descriptorSha256 = execution.descriptorSha256 →
        execution.canonicalKey ≠ descriptor.canonicalKey)
    ⟨"repository test execution identity differs from its descriptor"⟩

/-- The checks of a run on its selection and its executions. -/
def checkSelection (run : ScannerRun) (selection : RepositorySuiteSelection) :
    Except ValueError Unit := do
  let executions := run.repositoryTestExecutions
  raiseIf (selection.tests = [] ∧ run.status = .success)
    ⟨"an empty repository suite selection cannot be successful"⟩
  raiseIf (expectedFramework run.scanner = none)
    ⟨"repository suite evidence requires the Foundry or Hardhat fork scanner"⟩
  raiseIf (∃ test ∈ selection.tests, some test.framework ≠ expectedFramework run.scanner)
    ⟨"repository suite descriptor framework differs from its scanner"⟩
  raiseIf (¬(executions.map (·.canonicalKey)).Pairwise (· < ·))
    ⟨"repository test executions must be unique and canonically sorted"⟩
  raiseIf (¬(executions.map (·.executionSha256)).Nodup)
    ⟨"repository test execution hashes must be unique"⟩
  raiseIf (¬(selection.tests.map (·.descriptorSha256) ⊆ executions.map (·.descriptorSha256) ∧
      executions.map (·.descriptorSha256) ⊆ selection.tests.map (·.descriptorSha256)))
    ⟨"repository test executions must exactly cover the selected descriptors"⟩
  executions.forM (checkExecution selection)
  raiseIf (run.status = .success ∧ ∃ execution ∈ executions, execution.status.classified = false)
    ⟨"successful repository suite requires every selected test to have a " ++
      "classified machine result"⟩

/-- The checks of a run on its repository suite. -/
def ScannerRun.validate (run : ScannerRun) : Except ValueError Unit :=
  match run.repositorySuiteSelection with
  | none =>
      raiseIf (run.repositoryTestExecutions ≠ [])
        ⟨"repository test executions require their selection evidence"⟩
  | some selection => checkSelection run selection

/-! ## Sealed coverage -/

def isSha256 (value : String) : Bool :=
  value.length = 64 && value.toList.all fun char =>
    ('0' ≤ char && char ≤ '9') || ('a' ≤ char && char ≤ 'f')

/-- `CIRepositorySuiteScannerCoverage.sealed` -/
def CIRepositorySuiteScannerCoverage.sealed (scanner : String) (selectionSha256 : Option String)
    (selectedDescriptorSha256s executedDescriptorSha256s : List String)
    (selectedTestCount executedTestCount : ℕ) :
    Except ValueError CIRepositorySuiteScannerCoverage :=
  let selected := selectedDescriptorSha256s.insertionSort (· ≤ ·)
  let executed := executedDescriptorSha256s.insertionSort (· ≤ ·)
  if bounded : selected.length ≤ 10000 then
    if selectedSorted : Sorted selected ∧ selected.all isSha256 = true then
      if executedSorted : Sorted executed ∧ executed.all isSha256 = true then
        if selectedTestCount ≠ selected.length then
          .error ⟨"CI repository-suite selected count differs from its identities"⟩
        else if executedTestCount ≠ executed.length then
          .error ⟨"CI repository-suite executed count differs from its identities"⟩
        else if subset : executed ⊆ selected then
          if selectionSha256.isNone = decide (0 < selectedTestCount) then
            .error ⟨"CI repository-suite selection identity differs from its test count"⟩
          else
            .ok ⟨scanner, selectionSha256, selected, executed, subset, executedSorted.1,
              selectedSorted.1, bounded⟩
        else
          .error ⟨"CI repository-suite executed identities exceed its selection"⟩
      else
        .error ⟨"CI repository-suite executed descriptor identities must be unique sorted " ++
          "SHA-256 values"⟩
    else
      .error ⟨"CI repository-suite selected descriptor identities must be unique sorted " ++
        "SHA-256 values"⟩
  else
    .error ⟨"selected_descriptor_sha256s: too long"⟩

/-! ## Evidence of the suites -/

inductive SolidityProjectType where
  | foundry
  | hardhat
  | mixed
  | plain
deriving DecidableEq, Repr

/-- The frameworks of the projects. -/
def applicableFrameworks (projects : List SolidityProjectType) : List RepositorySuiteFramework :=
  (if projects.any fun project => project = .foundry ∨ project = .mixed then [.foundry] else []) ++
    if projects.any fun project => project = .hardhat ∨ project = .mixed then [.hardhat] else []

/-- `sorted(required)` -/
def requiredScanners (projects : List SolidityProjectType) : List String :=
  sortedSet ((applicableFrameworks projects).map RepositorySuiteFramework.scanner)

/-- `runs_by_name.get(scanner)`: of several runs, the last one. -/
def runByName (runs : List ScannerRun) (scanner : String) : Option ScannerRun :=
  runs.reverse.find? fun run => run.scanner = scanner

/-- The tests that the run of a scanner selected. -/
def selectedTests (run : Option ScannerRun) : List RepositorySuiteTestDescriptor :=
  ((run.bind (·.repositorySuiteSelection)).map (·.tests)).getD []

/-- The executions that the run of a scanner reports. -/
def reportedExecutions (run : Option ScannerRun) : List RepositoryTestExecution :=
  (run.map (·.repositoryTestExecutions)).getD []

/-- The coverage of one required scanner. -/
def scannerCoverageOf (runs : List ScannerRun) (scanner : String) :
    Except ValueError CIRepositorySuiteScannerCoverage :=
  let run := runByName runs scanner
  CIRepositorySuiteScannerCoverage.sealed scanner
    ((run.bind (·.repositorySuiteSelection)).map (·.selectionSha256))
    ((selectedTests run).map (·.descriptorSha256))
    ((reportedExecutions run).map (·.descriptorSha256))
    (((run.bind (·.repositorySuiteSelection)).map (·.selectedTestCount)).getD 0)
    (reportedExecutions run).length

/-- What the host knows of a run. -/
structure Host where
  /-- `run.execution_observation_sha256_is_valid()` -/
  observationIsValid : ScannerRun → Bool
  hasRuntimeAuthority : ScannerRun → Bool

/-- `valid` -/
def Host.accepts (host : Host) (run : ScannerRun) : Bool :=
  run.status = .success && run.executionEvidence = .real &&
    run.repositoryCodeExecution = .isolated && run.machineOutputValidated &&
    host.observationIsValid run && run.repositorySuiteSelection.isSome &&
    (run.repositorySuiteSelection.map (·.selectedTestCount)).any (0 < ·) &&
    host.hasRuntimeAuthority run

/-- The failure of a scanner without an accepted run. -/
def suiteFailure (runs : List ScannerRun) (scanner : String) : String :=
  scanner ++ ":" ++ ((runByName runs scanner).map (·.status.value)).getD "missing" ++
    ":hardened_current_runtime_evidence_required"

/-- `disposition_matches_inventory` for a suite with required scanners -/
def CIRepositorySuiteEvidence.validated (status : CIRepositorySuiteStatus)
    (required successful : List String) (coverage : List CIRepositorySuiteScannerCoverage)
    (failures : List String) : Except ValueError CIRepositorySuiteEvidence :=
  if known : Sorted (coverage.map (·.scanner)) ∧ ∀ item ∈ coverage,
      item.scanner = RepositorySuiteFramework.foundry.scanner ∨
        item.scanner = RepositorySuiteFramework.hardhat.scanner then
    if coverage.map (·.scanner) ≠ required then
      .error ⟨"CI repository-suite coverage must include every required scanner"⟩
    else if status = .passed ∧ (required = [] ∨ successful ≠ required ∨ failures ≠ [] ∨
        ∃ item ∈ coverage, item.selectedTestCount = 0 ∨
          item.executedTestCount ≠ item.selectedTestCount) then
      .error ⟨"passed CI repository suite requires every applicable scanner"⟩
    else if status ≠ .passed ∧ (required = [] ∨ failures = []) then
      .error ⟨"failed CI repository suite requires explicit missing evidence"⟩
    else
      .ok
        { status := status
          requiredScanners := required
          successfulScanners := successful
          scannerCoverage := coverage
          failures := failures
          scanners_sorted := known.1
          scanners_known := fun item member =>
            (known.2 item member).elim (⟨.foundry, ·⟩) (⟨.hardhat, ·⟩) }
  else
    .error ⟨"CI repository-suite scanner coverage must be unique and sorted"⟩

theorem sorted_of_no_coverage :
    Sorted (([] : List CIRepositorySuiteScannerCoverage).map (·.scanner)) :=
  List.Pairwise.nil

theorem known_of_no_coverage : ∀ coverage ∈ ([] : List CIRepositorySuiteScannerCoverage),
    ∃ framework : RepositorySuiteFramework, coverage.scanner = framework.scanner :=
  fun _ member => (List.not_mem_nil member).elim

def CIRepositorySuiteEvidence.notApplicable : CIRepositorySuiteEvidence where
  status := .notApplicable
  requiredScanners := []
  successfulScanners := []
  scannerCoverage := []
  failures := []
  scanners_sorted := sorted_of_no_coverage
  scanners_known := known_of_no_coverage

/-- `build_ci_repository_suite_evidence` -/
def buildCiRepositorySuiteEvidence (host : Host) (projects : List SolidityProjectType)
    (runs : List ScannerRun) : Except ValueError CIRepositorySuiteEvidence :=
  if applicableFrameworks projects = [] then
    .ok .notApplicable
  else do
    let required := requiredScanners projects
    let coverage ← required.mapM (scannerCoverageOf runs)
    let successful := required.filter fun scanner =>
      (runByName runs scanner).any host.accepts
    let failures := sortedSet ((required.filter fun scanner =>
      !(runByName runs scanner).any host.accepts).map (suiteFailure runs))
    CIRepositorySuiteEvidence.validated (if successful = required then .passed else .failed)
      required successful coverage failures

end Ci

end MmAudit
