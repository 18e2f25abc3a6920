import MmAudit.Library.Fallible
import Mathlib.Tactic.Linarith
import Mathlib.Tactic.Positivity
import Mathlib.Data.List.Sort
import Mathlib.Data.String.Basic

/-!
# Deterministic evidence of a continuous-integration run

The inventories of one run: its sources, tools, findings and coverage metrics, and
what it executed of the repository's own test suites.  The inventories are sorted and
without repetition, and a finding belongs to a tool with reusable evidence.

The hash of the sources is a parameter, as is the rounding of a ratio to a percentage.
-/

namespace MmAudit

namespace Ci

structure ValueError where
  message : String
deriving DecidableEq, Repr

/-- `tuple(sorted(set(values)))` -/
def sortedSet (values : List String) : List String :=
  values.dedup.insertionSort (· ≤ ·)

/-- Each value is less than the next one. -/
abbrev Sorted (values : List String) : Prop :=
  values.Pairwise (· < ·)

/-! ## Coverage -/

inductive CoverageProvenance where
  | discovery
  | configuration
  | compiler
  | symbolIndex
  | semanticGraph
  | staticTool
  | modelContext
  | modelReview
  | invariantExecution
  | formalEngine
  | runtime
deriving DecidableEq, Repr

inductive AnalysisState where
  | notAnalyzed
  | attemptedFailed
  | fallbackParser
  | modelOnly
  | scannerSupported
  | deterministic
  | reproduced
  | formallyProven
deriving DecidableEq, Repr

/-- `_analysis_state_rank` -/
def AnalysisState.rank : AnalysisState → ℕ
  | notAnalyzed => 0
  | attemptedFailed => 1
  | fallbackParser => 2
  | modelOnly => 2
  | scannerSupported => 3
  | deterministic => 4
  | reproduced => 5
  | formallyProven => 6

structure CoverageExclusion where
  subject : String
  reason : String
  provenance : CoverageProvenance
deriving DecidableEq, Repr

structure CoverageMetric where
  numerator : ℕ
  denominator : ℕ
  population : ℕ
  percentage : Option ℚ
  exclusions : List CoverageExclusion
  notApplicableEvidence : List String
  confidence : ℚ
  provenance : List CoverageProvenance
  failures : List String
  state : AnalysisState
  detail : String
deriving DecidableEq, Repr

/-- `round((numerator / denominator) * 100, 4)` in floating point: a number from 0 to 100. -/
structure Rounding where
  percent : ℕ → ℕ → ℚ
  bounds : ∀ numerator denominator, numerator ≤ denominator →
    0 ≤ percent numerator denominator ∧ percent numerator denominator ≤ 100

/-- The percentage without rounding. -/
def Rounding.exact : Rounding where
  percent := fun numerator denominator => numerator * 100 / denominator
  bounds := by
    intro numerator denominator part
    have partCast : (numerator : ℚ) ≤ denominator := by exact_mod_cast part
    have nonneg : (0 : ℚ) ≤ denominator := Nat.cast_nonneg denominator
    refine ⟨by positivity, ?_⟩
    apply div_le_of_le_mul₀ nonneg (by norm_num)
    linarith

/-- The checks of a coverage metric, on its fields and on all of it. -/
def CoverageMetric.validate (rounding : Rounding) (metric : CoverageMetric) :
    Except ValueError CoverageMetric :=
  if metric.percentage.any fun percentage => decide (percentage < 0) || decide (100 < percentage) then
    .error ⟨"percentage: out of range"⟩
  else if decide (metric.confidence < 0) || decide (1 < metric.confidence) then
    .error ⟨"confidence: out of range"⟩
  else if metric.provenance.isEmpty then
    .error ⟨"provenance: too short"⟩
  else if metric.detail.isEmpty || decide (1000 < metric.detail.length) then
    .error ⟨"detail: length"⟩
  else if metric.denominator < metric.numerator then
    .error ⟨"coverage numerator cannot exceed denominator"⟩
  else if metric.population ≠ metric.denominator + metric.exclusions.length then
    .error ⟨"coverage population must equal denominator plus explicit exclusions"⟩
  else if metric.percentage ≠
      (if metric.denominator = 0 then none
        else some (rounding.percent metric.numerator metric.denominator)) then
    .error ⟨"coverage percentage must match its numerator and denominator"⟩
  else if ¬ (metric.exclusions.map CoverageExclusion.subject).Nodup then
    .error ⟨"coverage exclusions must identify distinct population members"⟩
  else if ¬ metric.provenance.Nodup then
    .error ⟨"coverage provenance entries must be unique"⟩
  else if metric.denominator ≠ 0 then
    if !metric.notApplicableEvidence.isEmpty then
      .error ⟨"not-applicable evidence is only valid for an empty denominator"⟩
    else if metric.numerator < metric.denominator ∧ metric.failures.isEmpty then
      .error ⟨"incomplete coverage requires explicit failure evidence"⟩
    else
      .ok metric
  else if metric.notApplicableEvidence.isEmpty = metric.failures.isEmpty then
    .error ⟨"an empty coverage denominator requires exactly one of not-applicable evidence or " ++
      "failure evidence"⟩
  else
    .ok metric

/-- A metric under its ID.  The hash of the metric is left out: it is computed from the metric. -/
structure CICoverageEvidence where
  metricId : String
  metric : CoverageMetric
deriving DecidableEq, Repr

def isMetricIdCharacter (char : Char) : Bool :=
  char.isAlphanum || char = '.' || char = '_' || char = '-'

/-- The pattern and the length of a metric ID. -/
def validMetricId (metricId : String) : Bool :=
  decide (metricId.length ≤ 500) && metricId.toList.all isMetricIdCharacter &&
    metricId.toList.head?.any Char.isAlphanum

/-- `ci_coverage_evidence` -/
def ciCoverageEvidence (metricId : String) (metric : CoverageMetric) :
    Except ValueError CICoverageEvidence :=
  if validMetricId metricId then .ok ⟨metricId, metric⟩ else .error ⟨"metric_id: pattern"⟩

/-! ## Repository suites -/

inductive RepositorySuiteFramework where
  | foundry
  | hardhat
deriving DecidableEq, Repr

def RepositorySuiteFramework.value : RepositorySuiteFramework → String
  | foundry => "foundry"
  | hardhat => "hardhat"

def RepositorySuiteFramework.scanner (framework : RepositorySuiteFramework) : String :=
  framework.value ++ "_fork"

inductive CIRepositorySuiteStatus where
  | notApplicable
  | passed
  | failed
deriving DecidableEq, Repr

/-- Which of the selected tests a scanner executed.  The tests are identified by hashes; the counts
are the lengths of the lists. -/
structure CIRepositorySuiteScannerCoverage where
  scanner : String
  selectionSha256 : Option String
  selectedDescriptorSha256s : List String
  executedDescriptorSha256s : List String
  executed_subset : executedDescriptorSha256s ⊆ selectedDescriptorSha256s
  executed_sorted : Sorted executedDescriptorSha256s
  selected_sorted : Sorted selectedDescriptorSha256s
  selected_bounded : selectedDescriptorSha256s.length ≤ 10000
deriving DecidableEq

namespace CIRepositorySuiteScannerCoverage

def selectedTestCount (coverage : CIRepositorySuiteScannerCoverage) : ℕ :=
  coverage.selectedDescriptorSha256s.length

def executedTestCount (coverage : CIRepositorySuiteScannerCoverage) : ℕ :=
  coverage.executedDescriptorSha256s.length

theorem executed_le (coverage : CIRepositorySuiteScannerCoverage) :
    coverage.executedTestCount ≤ coverage.selectedTestCount :=
  (List.subperm_of_subset (coverage.executed_sorted.imp ne_of_lt)
    coverage.executed_subset).length_le

end CIRepositorySuiteScannerCoverage

structure CIRepositorySuiteEvidence where
  status : CIRepositorySuiteStatus
  requiredScanners : List String
  successfulScanners : List String
  scannerCoverage : List CIRepositorySuiteScannerCoverage
  failures : List String
  scanners_sorted : Sorted (scannerCoverage.map (·.scanner))
  /-- The required scanners are those of the applicable frameworks. -/
  scanners_known : ∀ coverage ∈ scannerCoverage, ∃ framework : RepositorySuiteFramework,
    coverage.scanner = framework.scanner
deriving DecidableEq

/-! ## Tools and findings -/

inductive ScannerStatus where
  | success
  | notApplicable
  | unmetPrerequisite
  | silentFailure
  | unavailable
  | interpreterOrLoaderFailure
  | failed
  | timedOut
  | skipped
deriving DecidableEq, Repr

/-- Normalized evidence of one tool. -/
structure CIToolEvidence where
  scanner : String
  status : ScannerStatus
  executionEvidence : String
  version : Option String
  executableSha256 : Option String
  commandPresent : Bool
  invocationPolicySha256 : String
  rawOutputPathPresent : Bool
  isolationBackend : Option String
  isolationAttestationSha256 : Option String
  certifiedIsolation : Bool
  executionTimeOrderValid : Bool
  machineOutputValidated : Bool
  rawOutputSha256 : Option String
  rawOutputBytes : ℕ
  processExitCode : Option ℤ
  executionObservationSha256 : Option String
  repositoryCodeExecution : String
  repositorySuiteSelectedTestCount : ℕ
  repositorySuiteExecutedTestCount : ℕ
  repositorySuiteConfigurationSha256 : Option String
  toolIdentitySha256 : String
  evidenceSha256 : String
  reuseEligible : Bool
deriving DecidableEq, Repr

/-- `_ci_tool_semantic_payload`: everything but the hashes of one observation. -/
def CIToolEvidence.semanticPayload (tool : CIToolEvidence) : CIToolEvidence :=
  { tool with executionObservationSha256 := none, evidenceSha256 := "" }

/-- The evidence of one finding.  The fields that only enter its hashes stand together. -/
structure CIFindingEvidence where
  findingId : String
  scanner : String
  evidenceSha256 : String
  details : List String
deriving DecidableEq, Repr

structure ManifestFileBinding where
  path : String
  sha256 : String
  size : ℕ
deriving DecidableEq, Repr

inductive AuditRunStatus where
  | complete
  | degraded
  | incomplete
  | failed
deriving DecidableEq, Repr

def AuditRunStatus.value : AuditRunStatus → String
  | complete => "COMPLETE"
  | degraded => "DEGRADED"
  | incomplete => "INCOMPLETE"
  | failed => "FAILED"

/-- Evidence that passed its validators.  `treeHash` hashes the sources. -/
structure CIDeterministicEvidence (treeHash : List ManifestFileBinding → String) where
  runId : String
  auditRunStatus : Option AuditRunStatus
  scannerWorkspaceSha256 : Option String
  effectiveConfigSha256 : String
  deterministicPolicySha256 : String
  producerSha256 : String
  sources : List ManifestFileBinding
  sourceTreeSha256 : String
  tools : List CIToolEvidence
  findings : List CIFindingEvidence
  findingValidationFailures : List String
  coverage : List CICoverageEvidence
  repositorySuite : CIRepositorySuiteEvidence
  tools_sorted : Sorted (tools.map (·.scanner))
  findings_sorted : Sorted (findings.map (·.findingId))
  coverage_sorted : Sorted (coverage.map (·.metricId))
  tree_exact : sourceTreeSha256 = treeHash sources
  finding_tool : ∀ finding ∈ findings, ∃ tool ∈ tools,
    tool.scanner = finding.scanner ∧ tool.reuseEligible = true

end Ci

end MmAudit
