import MmAudit.Library.Dict
import MmAudit.Replay.Components

/-!
# The stages of an offline replay

Four stages make components: the scanners, the differential of the repository's own test
suite, the harnesses of the invariants and the saved tests of the reproductions.  What the
runners return or raise is given; each stage decides which component stands for it.
-/

namespace MmAudit

namespace Replay

open Fallible

/-! ## Sealed evidence -/

inductive ScannerStatus where
  | success
  | notApplicable
  | unmetPrerequisite
  | silentFailure
  | unavailable
  | interpreterOrLoaderFailure
  | failed
  | timedOut
  | skipped
deriving DecidableEq, Repr

def ScannerStatus.value : ScannerStatus → String
  | success => "success"
  | notApplicable => "not_applicable"
  | unmetPrerequisite => "unmet_prerequisite"
  | silentFailure => "silent_failure"
  | unavailable => "unavailable"
  | interpreterOrLoaderFailure => "interpreter_or_loader_failure"
  | failed => "failed"
  | timedOut => "timed_out"
  | skipped => "skipped"

inductive InvariantExecutionStatus where
  | notAttempted
  | generationFailed
  | environmentBlocked
  | compileFailed
  | executionFailed
  | timedOut
  | passed
  | counterexample
deriving DecidableEq, Repr

def InvariantExecutionStatus.value : InvariantExecutionStatus → String
  | notAttempted => "not_attempted"
  | generationFailed => "generation_failed"
  | environmentBlocked => "environment_blocked"
  | compileFailed => "compile_failed"
  | executionFailed => "execution_failed"
  | timedOut => "timed_out"
  | passed => "passed"
  | counterexample => "counterexample"

inductive ReproductionState where
  | notAttempted
  | generationFailed
  | compileFailed
  | environmentBlocked
  | notReproduced
  | partiallyReproduced
  | reproduced
  | reproducedAndMinimized
  | formallyProven
  | disproven
deriving DecidableEq, Repr

def ReproductionState.value : ReproductionState → String
  | notAttempted => "not_attempted"
  | generationFailed => "generation_failed"
  | compileFailed => "compile_failed"
  | environmentBlocked => "environment_blocked"
  | notReproduced => "not_reproduced"
  | partiallyReproduced => "partially_reproduced"
  | reproduced => "reproduced"
  | reproducedAndMinimized => "reproduced_and_minimized"
  | formallyProven => "formally_proven"
  | disproven => "disproven"

inductive RepositoryDifferentialRunStatus where
  | complete
  | inconclusive
  | failed
deriving DecidableEq, Repr

def RepositoryDifferentialRunStatus.value : RepositoryDifferentialRunStatus → String
  | complete => "complete"
  | inconclusive => "inconclusive"
  | failed => "failed"

/-- Where a result was executed. -/
structure ExecutionIdentity (Digest : Type) where
  evidence : ExecutionEvidenceKind
  isolationBackend : Option String
  isolationAttestationSha256 : Option Digest
deriving DecidableEq, Repr

/-- A scanner run with what `_scanner_projection` keeps of it. -/
structure ScannerRun (Digest Details : Type) where
  scanner : String
  status : ScannerStatus
  identity : ExecutionIdentity Digest
  hasRepositorySuiteSelection : Bool
  projection : Details
deriving DecidableEq, Repr

/-- The pattern of the names of harnesses and tests. -/
def isTestName (name : String) : Bool :=
  match name.toList with
  | [] => false
  | first :: rest => first.isAlpha && decide (rest.length ≤ 63) &&
      rest.all fun char => char.isAlphanum || char == '_'

structure FoundryInvariantHarnessSpec (Details : Type) where
  invariantId : String
  name : String
  firstDeploymentPath : Option String
  details : Details
  bounded : isBounded 160 invariantId = true
  named : isTestName name = true
deriving DecidableEq, Repr

/-- A result with what `_invariant_projection` keeps of it. -/
structure InvariantExecutionResult (Digest Details : Type) where
  invariantId : String
  harnessName : String
  status : InvariantExecutionStatus
  attempts : ℕ
  identity : ExecutionIdentity Digest
  projection : Details
deriving DecidableEq, Repr

structure GeneratedFoundryTestSpec (Details : Type) where
  candidateId : String
  name : String
  details : Details
  bounded : isBounded 160 candidateId = true
  named : isTestName name = true
deriving DecidableEq, Repr

/-- A result with what `_reproduction_projection` keeps of it. -/
structure ReproductionResult (Digest Details : Type) where
  candidateId : String
  testName : String
  state : ReproductionState
  specificationSha256 : Digest
  attempts : ℕ
  identity : ExecutionIdentity Digest
  projection : Details
deriving DecidableEq, Repr

/-- A differential with what `_repository_differential_projection` keeps of it. -/
structure RepositorySuiteDifferentialRun (Digest Details : Type) where
  status : RepositoryDifferentialRunStatus
  configurationSha256 : Digest
  requestedStateIds : List String
  requiredRepetitions : ℕ
  matrixRepositorySha256 : Option Digest
  identity : ExecutionIdentity Digest
  projection : Details
deriving DecidableEq, Repr

/-- A candidate or an invariant with the paths of its locations. -/
structure Located where
  id : String
  paths : List String
deriving DecidableEq, Repr

/-- What the artifacts hold for a replay; the results cover the plans exactly. -/
structure ReplayArtifacts (Digest Details : Type) where
  scannerRuns : List (ScannerRun Digest Details)
  invariants : List Located
  harnesses : List (FoundryInvariantHarnessSpec Details)
  invariantResults : List (InvariantExecutionResult Digest Details)
  candidates : List Located
  testSpecifications : List (GeneratedFoundryTestSpec Details)
  reproductionResults : List (ReproductionResult Digest Details)
  differential : Option (RepositorySuiteDifferentialRun Digest Details)
  differentialRequired : Bool
  differentialLimitation : Option String
  fewScanners : scannerRuns.length ≤ 100
  scannersUnique : (scannerRuns.map (·.scanner)).Nodup
  harnessesUnique : (harnesses.map fun harness => (harness.invariantId, harness.name)).Nodup
  invariantResultsUnique :
    (invariantResults.map fun result => (result.invariantId, result.harnessName)).Nodup
  invariantResultsCover : ∀ key,
    key ∈ invariantResults.map (fun result => (result.invariantId, result.harnessName)) ↔
      key ∈ harnesses.map fun harness => (harness.invariantId, harness.name)
  specificationsUnique : (testSpecifications.map fun specification =>
    (specification.candidateId, specification.name)).Nodup
  reproductionResultsUnique :
    (reproductionResults.map fun result => (result.candidateId, result.testName)).Nodup
  reproductionResultsCover : ∀ key,
    key ∈ reproductionResults.map (fun result => (result.candidateId, result.testName)) ↔
      key ∈ testSpecifications.map fun specification =>
        (specification.candidateId, specification.name)
  candidatesCover : ∀ specification ∈ testSpecifications,
    specification.candidateId ∈ candidates.map (·.id)
  obligation : differential ≠ none → differentialRequired = true
  limitation : differential = none → differentialRequired = true → differentialLimitation ≠ none
  noLimitation : ¬ (differential = none ∧ differentialRequired = true) →
    differentialLimitation = none

/-! ## Outcomes -/

/-- The name of a Python class. -/
def isClassName (name : String) : Bool :=
  isBounded 255 name && name.toList.all fun char => char.isAlphanum || char == '_'

/-- An error that a stage catches, by the name of its class. -/
structure CaughtError where
  className : String
  named : isClassName className = true
deriving DecidableEq, Repr

/-- What became of one thing to run again: a stage refuses it, its runner raises an error, or the
runner returns a result. -/
inductive Attempt (Result : Type) where
  | refused (limitation : String)
  | failed (failure : CaughtError)
  | returned (result : Result)
deriving DecidableEq, Repr

def Attempt.ofRun {Result : Type} : Except CaughtError Result → Attempt Result
  | .error failure => .failed failure
  | .ok result => .returned result

/-- What the runner of the scanners returned, and the error of preparing or running it, or of
comparing the source afterwards. -/
structure ScannerOutcome (Digest Details : Type) where
  observed : List (ScannerRun Digest Details)
  failure : Option CaughtError

/-- The part of the configuration that the differential reads. -/
structure RepositorySuiteConfig (Digest Details : Type) where
  stableHash : Digest
  forkMatrixStateIds : List String
  forkMatrixRepetitions : ℕ
  details : Details

/-- Why there is no runner of the differential. -/
inductive MissingRunner where
  | backend
  | construction
  | absent
deriving DecidableEq, Repr

def MissingRunner.limitation : MissingRunner → String
  | backend => "trusted local repository differential replay lacks the exact configured " ++
      "isolation backend"
  | construction => "trusted local repository differential replay runner construction failed safely"
  | absent => "trusted local repository differential runner is unavailable"

/-- Everything that the stages learn from outside. -/
structure ReplayOutcomes (Digest Details Project : Type) where
  scanners : ScannerOutcome Digest Details
  suiteConfig : Option (RepositorySuiteConfig Digest Details)
  missingRunner : Option MissingRunner
  /-- the hash of the repository, when its identity is unambiguous -/
  repositoryIdentity : Except CaughtError (Option Digest)
  differential : Except CaughtError (RepositorySuiteDifferentialRun Digest Details)
  differentialQualifies : RepositorySuiteDifferentialRun Digest Details → Digest → Bool
  projectForPath : String → Option Project
  invariant : FoundryInvariantHarnessSpec Details → Project →
    Except CaughtError (InvariantExecutionResult Digest Details)
  reproduction : GeneratedFoundryTestSpec Details → Located → Project →
    Except CaughtError (ReproductionResult Digest Details)

/-! ## Components before their validators -/

section Stages

variable {Digest Details Project : Type} [DecidableEq Digest]
  (canonicalSha256 : Projection Details → Digest)

/-- `_blocked_component` -/
def blockedComponent (kind : ReplayComponentKind) (identifier expectedState : String)
    (expected : Projection Details) (limitation : String) : OfflineReplayComponent Digest where
  kind := kind
  identifier := identifier
  status := .blocked
  executed := false
  executionEvidence := .unverified
  isolationBackend := none
  isolationAttestationSha256 := none
  expectedState := expectedState
  observedState := none
  expectedSha256 := canonicalSha256 expected
  observedSha256 := none
  limitations := [limitation]

/-- `_compared_component` -/
def comparedComponent (kind : ReplayComponentKind)
    (identifier expectedState observedState : String) (expected observed : Projection Details)
    (executed : Bool) (identity : ExecutionIdentity Digest) (blockedLimitation : String) :
    OfflineReplayComponent Digest where
  kind := kind
  identifier := identifier
  status :=
    if executed = false then .blocked
    else if canonicalSha256 observed = canonicalSha256 expected then .matched
    else .drifted
  executed := executed
  executionEvidence := identity.evidence
  isolationBackend := identity.isolationBackend
  isolationAttestationSha256 := identity.isolationAttestationSha256
  expectedState := expectedState
  observedState := some observedState
  expectedSha256 := canonicalSha256 expected
  observedSha256 := some (canonicalSha256 observed)
  limitations := if executed then [] else [blockedLimitation]

/-- `_drifted_component` -/
def driftedComponent (kind : ReplayComponentKind)
    (identifier expectedState observedState : String) (expected observed : Projection Details)
    (executed : Bool) : OfflineReplayComponent Digest :=
  if executed = false then
    blockedComponent canonicalSha256 kind identifier expectedState expected
      "unexpected replay component did not execute successfully"
  else
    { kind := kind
      identifier := identifier
      status := .drifted
      executed := true
      executionEvidence := .unverified
      isolationBackend := none
      isolationAttestationSha256 := none
      expectedState := expectedState
      observedState := some observedState
      expectedSha256 := canonicalSha256 expected
      observedSha256 := some (canonicalSha256 observed)
      limitations := [] }

/-! ## Scanners -/

/-- The last run of each name. -/
def byName (runs : List (ScannerRun Digest Details)) : Dict String (ScannerRun Digest Details) :=
  (runs.map fun run => (run.scanner, run)).foldl (fun named item => named.insert item.1 item.2)
    Dict.empty

def scannerComponent (name : String) (prior current : Option (ScannerRun Digest Details)) :
    Option (OfflineReplayComponent Digest) :=
  match prior, current with
  | none, none => none
  | none, some current =>
      some (driftedComponent canonicalSha256 .scanner name "absent" current.status.value
        (.absentScanner name) (.scanner current.projection) (current.status = .success))
  | some prior, none =>
      some (blockedComponent canonicalSha256 .scanner name prior.status.value
        (.scanner prior.projection) "configured scanner produced no replay result")
  | some prior, some current =>
      some (comparedComponent canonicalSha256 .scanner name prior.status.value
        current.status.value (.scanner prior.projection) (.scanner current.projection)
        (current.status = .success) current.identity
        ("scanner replay did not execute successfully: " ++ current.status.value))

/-- `_replay_scanners` -/
def replayScanners (expected : List (ScannerRun Digest Details))
    (outcome : ScannerOutcome Digest Details) : List (OfflineReplayComponent Digest) :=
  if expected.isEmpty then []
  else
    match outcome.failure with
    | some failure =>
        expected.map fun run => blockedComponent canonicalSha256 .scanner run.scanner
          run.status.value (.scanner run.projection)
          ("scanner replay failed safely: " ++ failure.className)
    | none =>
        let names := ((byName expected).keys ++ (byName outcome.observed).keys).dedup
        (names.insertionSort (· ≤ ·)).filterMap fun name =>
          scannerComponent canonicalSha256 name ((byName expected).get? name)
            ((byName outcome.observed).get? name)

/-! ## The differential of the repository's suite -/

def differentialIdentifier : String :=
  "repository-suite-differential"

/-- The forks of the suite that count as baselines. -/
def baselines (runs : List (ScannerRun Digest Details)) : List (ScannerRun Digest Details) :=
  runs.filter fun run => decide (run.scanner = "foundry_fork") && run.hasRepositorySuiteSelection

/-- The check of the baseline before the differential runs; its value is the hash of the
repository. -/
def validBaseline (artifacts : ReplayArtifacts Digest Details)
    (outcomes : ReplayOutcomes Digest Details Project)
    (expected : RepositorySuiteDifferentialRun Digest Details) : Option Digest :=
  match outcomes.repositoryIdentity, baselines artifacts.scannerRuns,
      baselines outcomes.scanners.observed with
  | .ok (some repositorySha256), [prior], [current] =>
      if current.status = .success ∧ current.identity.evidence = .real ∧
          canonicalSha256 (.scanner prior.projection) =
            canonicalSha256 (.scanner current.projection) ∧
          (expected.matrixRepositorySha256 = none ∨
            expected.matrixRepositorySha256 = some repositorySha256) then
        some repositorySha256
      else none
  | _, _, _ => none

/-- What becomes of a differential that is expected. -/
def differentialAttempt (artifacts : ReplayArtifacts Digest Details)
    (outcomes : ReplayOutcomes Digest Details Project)
    (expected : RepositorySuiteDifferentialRun Digest Details) :
    Attempt (Digest × RepositorySuiteDifferentialRun Digest Details) :=
  match outcomes.suiteConfig with
  | none => .refused "repository differential replay lacks effective configuration"
  | some suite =>
      if suite.forkMatrixStateIds = [] ∨ expected.configurationSha256 ≠ suite.stableHash ∨
          expected.requestedStateIds ≠ suite.forkMatrixStateIds ∨
          expected.requiredRepetitions ≠ suite.forkMatrixRepetitions then
        .refused "repository differential artifact differs from effective configuration"
      else
        match outcomes.missingRunner with
        | some missing => .refused missing.limitation
        | none =>
            match validBaseline canonicalSha256 artifacts outcomes expected with
            | none => .refused "repository differential replay lacks a matching real baseline"
            | some repositorySha256 =>
                .ofRun (outcomes.differential.map fun current => (repositorySha256, current))

/-- The component of a differential that is expected. -/
def differentialComponent (artifacts : ReplayArtifacts Digest Details)
    (outcomes : ReplayOutcomes Digest Details Project)
    (expected : RepositorySuiteDifferentialRun Digest Details) : OfflineReplayComponent Digest :=
  let blocked := blockedComponent canonicalSha256 .repositorySuiteDifferential
    differentialIdentifier expected.status.value (.differential expected.projection)
  match differentialAttempt canonicalSha256 artifacts outcomes expected with
  | .refused limitation => blocked limitation
  | .failed failure =>
      blocked ("repository differential replay failed safely: " ++ failure.className)
  | .returned (repositorySha256, current) =>
      comparedComponent canonicalSha256 .repositorySuiteDifferential differentialIdentifier
        expected.status.value current.status.value (.differential expected.projection)
        (.differential current.projection)
        (outcomes.differentialQualifies current repositorySha256) current.identity
        "repository differential replay did not produce complete real isolated read-only evidence"

/-- `_replay_repository_differential` -/
def replayRepositoryDifferential (artifacts : ReplayArtifacts Digest Details)
    (outcomes : ReplayOutcomes Digest Details Project) : List (OfflineReplayComponent Digest) :=
  if artifacts.differentialRequired = false then []
  else
    match artifacts.differentialLimitation, artifacts.differential with
    | none, some expected => [differentialComponent canonicalSha256 artifacts outcomes expected]
    | limitation, expected =>
        let limitation := limitation.getD ""
        [blockedComponent canonicalSha256 .repositorySuiteDifferential differentialIdentifier
          (expected.elim "configured_missing" (·.status.value))
          (expected.elim (.configuredDifferential (outcomes.suiteConfig.map (·.details)))
            fun run => .differential run.projection)
          (if limitation.isEmpty then "configured repository differential artifact is missing"
            else limitation)]

/-! ## Invariants -/

/-- The baseline of a harness. -/
def invariantBaseline? (artifacts : ReplayArtifacts Digest Details)
    (harness : FoundryInvariantHarnessSpec Details) :
    Option (InvariantExecutionResult Digest Details) :=
  artifacts.invariantResults.find? fun result =>
    (result.invariantId, result.harnessName) = (harness.invariantId, harness.name)

/-- `_invariant_source_path`; of invariants with one ID the last counts. -/
def invariantSourcePath (artifacts : ReplayArtifacts Digest Details)
    (harness : FoundryInvariantHarnessSpec Details) : Option String :=
  ((artifacts.invariants.reverse.find? (·.id = harness.invariantId)).bind (·.paths.head?)).or
    harness.firstDeploymentPath

def invariantKind (prior : Option (InvariantExecutionResult Digest Details)) :
    ReplayComponentKind :=
  if prior.any (·.status = .counterexample) then .counterexample else .savedTest

def harnessIdentifier (harness : FoundryInvariantHarnessSpec Details) : String :=
  harness.invariantId ++ "/" ++ harness.name

/-- What becomes of a harness with a baseline. -/
def invariantAttempt (artifacts : ReplayArtifacts Digest Details)
    (outcomes : ReplayOutcomes Digest Details Project)
    (harness : FoundryInvariantHarnessSpec Details) :
    Attempt (InvariantExecutionResult Digest Details) :=
  match ((invariantSourcePath artifacts harness).filter (!·.isEmpty)).bind
      outcomes.projectForPath with
  | none => .refused "saved invariant is not bound to a detected project"
  | some project => .ofRun (outcomes.invariant harness project)

/-- One turn of `_replay_invariants`. -/
def invariantComponent (artifacts : ReplayArtifacts Digest Details)
    (outcomes : ReplayOutcomes Digest Details Project)
    (harness : FoundryInvariantHarnessSpec Details) : OfflineReplayComponent Digest :=
  let prior := invariantBaseline? artifacts harness
  let kind := invariantKind prior
  let identifier := harnessIdentifier harness
  match prior with
  | none =>
      blockedComponent canonicalSha256 kind identifier "missing_baseline" (.harness harness.details)
        "saved invariant harness has no baseline result"
  | some prior =>
      let blocked := blockedComponent canonicalSha256 kind identifier prior.status.value
        (.invariant prior.projection)
      match invariantAttempt artifacts outcomes harness with
      | .refused limitation => blocked limitation
      | .failed failure => blocked ("invariant replay failed safely: " ++ failure.className)
      | .returned current =>
          comparedComponent canonicalSha256 kind identifier prior.status.value current.status.value
            (.invariant prior.projection) (.invariant current.projection)
            (decide (0 < current.attempts) &&
              decide (current.status ∈ [InvariantExecutionStatus.passed, .counterexample]))
            current.identity ("invariant replay did not complete: " ++ current.status.value)

/-! ## Saved tests -/

def reproductionBaseline? (artifacts : ReplayArtifacts Digest Details)
    (specification : GeneratedFoundryTestSpec Details) :
    Option (ReproductionResult Digest Details) :=
  artifacts.reproductionResults.find? fun result =>
    (result.candidateId, result.testName) = (specification.candidateId, specification.name)

def specificationIdentifier (specification : GeneratedFoundryTestSpec Details) : String :=
  specification.candidateId ++ "/" ++ specification.name

/-- The candidate of a test; of candidates with one ID the last counts. -/
def candidate? (artifacts : ReplayArtifacts Digest Details)
    (specification : GeneratedFoundryTestSpec Details) : Option Located :=
  artifacts.candidates.reverse.find? (·.id = specification.candidateId)

/-- What becomes of a test with a baseline. -/
def reproductionAttempt (artifacts : ReplayArtifacts Digest Details)
    (outcomes : ReplayOutcomes Digest Details Project)
    (specification : GeneratedFoundryTestSpec Details)
    (prior : ReproductionResult Digest Details) : Attempt (ReproductionResult Digest Details) :=
  match candidate? artifacts specification with
  | none => .refused "saved test candidate is missing"
  | some candidate =>
      match candidate.paths.head?.bind outcomes.projectForPath with
      | none => .refused "saved test is not bound to a detected project"
      | some project =>
          if prior.specificationSha256 ≠
              canonicalSha256 (.specification specification.details) then
            .refused "saved test baseline is not bound to its typed specification"
          else .ofRun (outcomes.reproduction specification candidate project)

def completedStates : List ReproductionState :=
  [.notReproduced, .partiallyReproduced, .reproduced, .reproducedAndMinimized, .disproven]

/-- One turn of `_replay_reproductions`. -/
def reproductionComponent (artifacts : ReplayArtifacts Digest Details)
    (outcomes : ReplayOutcomes Digest Details Project)
    (specification : GeneratedFoundryTestSpec Details) : OfflineReplayComponent Digest :=
  let identifier := specificationIdentifier specification
  match reproductionBaseline? artifacts specification with
  | none =>
      blockedComponent canonicalSha256 .savedTest identifier "missing_baseline"
        (.specification specification.details) "saved test has no baseline result"
  | some prior =>
      let blocked := blockedComponent canonicalSha256 .savedTest identifier prior.state.value
        (.reproduction prior.projection)
      match reproductionAttempt canonicalSha256 artifacts outcomes specification prior with
      | .refused limitation => blocked limitation
      | .failed failure => blocked ("saved-test replay failed safely: " ++ failure.className)
      | .returned current =>
          comparedComponent canonicalSha256 .savedTest identifier prior.state.value
            current.state.value (.reproduction prior.projection)
            (.reproduction current.projection)
            (decide (0 < current.attempts) && decide (current.state ∈ completedStates))
            current.identity ("saved-test replay did not complete: " ++ current.state.value)

end Stages

end Replay

end MmAudit
