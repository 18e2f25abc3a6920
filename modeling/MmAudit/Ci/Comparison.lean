import MmAudit.Ci.Evidence
import MmAudit.Library.Dict

/-!
# Comparison of a run with its baseline

`compare_ci_evidence` lists the reasons against reusing the whole run, sorts the
findings into new, unchanged and resolved ones, and collects the coverage metrics that
regressed, of the run and of its repository suites.  The comparison is a record with a
validator of its own.
-/

namespace MmAudit

namespace Ci

/-! ## Regressions -/

structure CICoverageRegression where
  metricId : String
  reasons : List String
  baseline : CICoverageEvidence
  current : Option CICoverageEvidence
deriving DecidableEq, Repr

/-- The reasons whose conditions hold. -/
def reasonsOf (conditions : List (Bool × String)) : List String :=
  sortedSet ((conditions.filter Prod.fst).map Prod.snd)

namespace CoverageMetric

def subjects (metric : CoverageMetric) : List String :=
  metric.exclusions.map CoverageExclusion.subject

/-- The exclusion of a subject; of several, the last one. -/
def exclusionOf (metric : CoverageMetric) (subject : String) : Option CoverageExclusion :=
  metric.exclusions.reverse.find? (·.subject = subject)

/-- What got worse from one observation of a metric to the next. -/
def conditions (previous now : CoverageMetric) : List (Bool × String) :=
  [(decide (now.population < previous.population), "coverage_population_decreased"),
    (decide (now.denominator < previous.denominator), "coverage_denominator_decreased"),
    (decide (previous.exclusions.length < now.exclusions.length),
      "coverage_exclusions_increased"),
    (now.subjects.any (!previous.subjects.contains ·), "coverage_new_exclusion_subject"),
    (previous.subjects.any fun subject => now.subjects.contains subject &&
      now.exclusionOf subject ≠ previous.exclusionOf subject,
      "coverage_exclusion_evidence_changed"),
    (decide (now.numerator < previous.numerator), "coverage_numerator_decreased"),
    (previous.percentage.any fun before => !now.percentage.any fun after => decide (before ≤ after),
      "coverage_percentage_decreased"),
    (decide (now.state.rank < previous.state.rank), "coverage_analysis_state_weakened"),
    (decide (now.confidence < previous.confidence), "coverage_confidence_decreased"),
    (previous.provenance.any (!now.provenance.contains ·), "coverage_provenance_removed"),
    (now.failures.any (!previous.failures.contains ·), "coverage_failures_increased")]

end CoverageMetric

/-- The regression of one metric of the baseline, if there is one. -/
def metricRegression (current : List CICoverageEvidence) (prior : CICoverageEvidence) :
    Option CICoverageRegression :=
  let observed := current.find? (·.metricId = prior.metricId)
  let reasons := match observed with
    | none => ["coverage_metric_missing"]
    | some now => reasonsOf (prior.metric.conditions now.metric)
  if reasons.isEmpty then none else some ⟨prior.metricId, reasons, prior, observed⟩

def sortRegressions (regressions : List CICoverageRegression) : List CICoverageRegression :=
  regressions.insertionSort fun regression other => regression.metricId ≤ other.metricId

/-- `_coverage_regressions` -/
def coverageRegressions (current baseline : List CICoverageEvidence) :
    List CICoverageRegression :=
  sortRegressions (baseline.filterMap (metricRegression current))

def suiteMetricId (scanner : String) : String :=
  "repository_suite." ++ scanner ++ ".execution_coverage"

/-- How many of the selected tests of a suite ran, as a metric. -/
def repositorySuiteMetric (rounding : Rounding) (evidence : CIRepositorySuiteScannerCoverage) :
    CoverageMetric :=
  let selected := evidence.selectedTestCount
  let executed := evidence.executedTestCount
  let complete := decide (0 < selected) && executed == selected
  { numerator := executed
    denominator := selected
    population := selected
    percentage := if selected = 0 then none else some (rounding.percent executed selected)
    exclusions := []
    notApplicableEvidence := []
    confidence := 1
    provenance := [.runtime]
    failures :=
      if complete then []
      else if selected = 0 then ["repository-suite selection contained no executable tests"]
      else ["repository-suite execution did not cover every selected test"]
    state := if complete then .deterministic else .attemptedFailed
    detail := evidence.scanner ++ " executed " ++ toString executed ++ " of " ++
      toString selected ++ " selected repository tests." }

/-- `_repository_suite_coverage_metric` -/
def repositorySuiteCoverageMetric (rounding : Rounding)
    (evidence : CIRepositorySuiteScannerCoverage) : Except ValueError CICoverageEvidence := do
  let metric ← CoverageMetric.validate rounding (repositorySuiteMetric rounding evidence)
  ciCoverageEvidence (suiteMetricId evidence.scanner) metric

/-- The reasons of a suite: those of its metric, and tests that are no longer selected or executed. -/
def suiteReasons (regressions : Dict String CICoverageRegression)
    (prior observed : CIRepositorySuiteScannerCoverage) : List String :=
  sortedSet (((regressions.get? (suiteMetricId prior.scanner)).map (·.reasons)).getD [] ++
    (if prior.selectedDescriptorSha256s.any (!observed.selectedDescriptorSha256s.contains ·) then
      ["repository_suite_selected_test_removed"] else []) ++
    if prior.executedDescriptorSha256s.any (!observed.executedDescriptorSha256s.contains ·) then
      ["repository_suite_executed_test_removed"] else [])

/-- One turn of the loop over the scanners of the baseline. -/
def suiteRegressionStep (current : CIRepositorySuiteEvidence)
    (currentCoverage baselineCoverage : List CICoverageEvidence)
    (regressions : Dict String CICoverageRegression) (prior : CIRepositorySuiteScannerCoverage) :
    Except ValueError (Dict String CICoverageRegression) :=
  match current.scannerCoverage.find? (·.scanner = prior.scanner) with
  | none => .ok regressions
  | some observed =>
      let metricId := suiteMetricId prior.scanner
      let reasons := suiteReasons regressions prior observed
      if reasons.isEmpty then
        .ok regressions
      else
        match baselineCoverage.find? (·.metricId = metricId) with
        | none => .error ⟨"KeyError: " ++ metricId⟩
        | some baseline =>
            .ok (regressions.insert metricId
              ⟨metricId, reasons, baseline, currentCoverage.find? (·.metricId = metricId)⟩)

/-- `_repository_suite_coverage_regressions` -/
def repositorySuiteCoverageRegressions (rounding : Rounding)
    (current baseline : CIRepositorySuiteEvidence) :
    Except ValueError (List CICoverageRegression) := do
  let currentCoverage ← current.scannerCoverage.mapM (repositorySuiteCoverageMetric rounding)
  let baselineCoverage ← baseline.scannerCoverage.mapM (repositorySuiteCoverageMetric rounding)
  let regressions := (coverageRegressions currentCoverage baselineCoverage).foldl
    (fun regressions regression => regressions.insert regression.metricId regression) Dict.empty
  let regressions ← baseline.scannerCoverage.foldlM
    (suiteRegressionStep current currentCoverage baselineCoverage) regressions
  return sortRegressions regressions.values

/-- The metrics that a run keeps of all coverage that it computed. -/
def ciDeterministicCoverageMetricIds : List String :=
  ["asset_flows_classified", "compilation_completion", "compiler_contracts_indexed",
    "dependency_resolution", "external_calls_classified", "generic_source_files_ingested",
    "scanner_completion", "solidity_files_indexed", "storage_variables_modelled"]

/-! ## The comparison -/

structure CIBaselineComparison where
  baselineRunId : String
  baselineStateSha256 : String
  baselineManifestSha256 : String
  wholeRunReuseEligible : Bool
  reuseRejections : List String
  newFindingIds : List String
  unchangedFindingIds : List String
  resolvedFindingIds : List String
  coverageRegressions : List CICoverageRegression
deriving DecidableEq, Repr

/-- `comparison_inventories_are_canonical` -/
def CIBaselineComparison.validate (comparison : CIBaselineComparison) :
    Except ValueError CIBaselineComparison := do
  [("reuse rejections", comparison.reuseRejections),
    ("new findings", comparison.newFindingIds),
    ("unchanged findings", comparison.unchangedFindingIds),
    ("resolved findings", comparison.resolvedFindingIds),
    ("coverage regressions", comparison.coverageRegressions.map (·.metricId))].forM
      fun inventory => Fallible.raiseIf (inventory.2 ≠ sortedSet inventory.2)
        ⟨"CI comparison " ++ inventory.1 ++ " must be unique and sorted"⟩
  Fallible.raiseIf (comparison.newFindingIds.any comparison.unchangedFindingIds.contains)
    ⟨"CI findings cannot be both new and unchanged"⟩
  Fallible.raiseIf (comparison.resolvedFindingIds.any fun findingId =>
      comparison.newFindingIds.contains findingId ||
        comparison.unchangedFindingIds.contains findingId)
    ⟨"CI resolved findings cannot also be current findings"⟩
  Fallible.raiseIf (comparison.wholeRunReuseEligible = !comparison.reuseRejections.isEmpty)
    ⟨"CI whole-run reuse result conflicts with rejection evidence"⟩
  return comparison

section Compare

variable {treeHash : List ManifestFileBinding → String}

/-- `_ci_audit_status_eligible` -/
def auditStatusEligible (status : Option AuditRunStatus) : Bool :=
  status == some .complete || status == some .degraded

/-- `_analysis_failures` -/
def analysisFailures (evidence : CIDeterministicEvidence treeHash) : List String :=
  sortedSet <|
    (if evidence.scannerWorkspaceSha256.isNone then
      ["scanner_workspace_identity_unavailable"] else []) ++
    (match evidence.auditRunStatus with
      | none => ["audit_run_status:UNAVAILABLE"]
      | some .incomplete => ["audit_run_status:" ++ AuditRunStatus.incomplete.value]
      | some .failed => ["audit_run_status:" ++ AuditRunStatus.failed.value]
      | some _ => []) ++
    (if evidence.tools.any (·.reuseEligible) then []
      else ["no_real_machine_validated_deterministic_scanner"]) ++
    (if evidence.repositorySuite.status = .failed then evidence.repositorySuite.failures else []) ++
    evidence.findingValidationFailures ++
    (if evidence.coverage.isEmpty then ["deterministic_coverage_evidence_unavailable"] else []) ++
    (evidence.coverage.filter fun metric =>
        !(decide (0 < metric.metric.denominator) ||
          !metric.metric.notApplicableEvidence.isEmpty)).map
      fun metric => "coverage:" ++ metric.metricId ++ ":denominator_unavailable"

/-- What a later run is compared with. -/
structure CIRunState (treeHash : List ManifestFileBinding → String) where
  evidence : CIDeterministicEvidence treeHash
  stateSha256 : String

variable (current prior : CIDeterministicEvidence treeHash)

/-- The reasons against reusing the whole run. -/
def reuseRejections : List String :=
  reasonsOf
    [(decide (current.sources ≠ prior.sources), "source_inventory_changed"),
      (current.scannerWorkspaceSha256.isNone || prior.scannerWorkspaceSha256.isNone,
        "scanner_workspace_identity_unavailable"),
      (current.scannerWorkspaceSha256.isSome && prior.scannerWorkspaceSha256.isSome &&
        current.scannerWorkspaceSha256 ≠ prior.scannerWorkspaceSha256,
        "scanner_workspace_changed"),
      (decide (current.effectiveConfigSha256 ≠ prior.effectiveConfigSha256),
        "effective_configuration_changed"),
      (decide (current.deterministicPolicySha256 ≠ prior.deterministicPolicySha256),
        "deterministic_policy_changed"),
      (decide (current.producerSha256 ≠ prior.producerSha256), "producer_changed"),
      (decide (current.tools.map (fun tool => (tool.scanner, tool.toolIdentitySha256)) ≠
        prior.tools.map fun tool => (tool.scanner, tool.toolIdentitySha256)),
        "tool_identity_changed"),
      (decide (current.tools.map (fun tool => (tool.scanner, tool.invocationPolicySha256)) ≠
        prior.tools.map fun tool => (tool.scanner, tool.invocationPolicySha256)),
        "tool_invocation_policy_changed"),
      (decide (current.tools.map CIToolEvidence.semanticPayload ≠
        prior.tools.map CIToolEvidence.semanticPayload), "tool_observation_changed"),
      (current.tools.isEmpty || prior.tools.isEmpty ||
        (current.tools ++ prior.tools).any (!·.reuseEligible), "non_reusable_tool_evidence"),
      (!auditStatusEligible current.auditRunStatus, "current_audit_not_eligible"),
      (!auditStatusEligible prior.auditRunStatus, "baseline_audit_not_eligible"),
      (decide (current.repositorySuite.status = .failed), "current_repository_suite_failed"),
      (decide (prior.repositorySuite.status = .failed), "baseline_repository_suite_failed"),
      (!(analysisFailures current).isEmpty || !(analysisFailures prior).isEmpty,
        "analysis_failures_present"),
      (decide (current.findings ≠ prior.findings), "finding_evidence_changed"),
      (decide (current.coverage ≠ prior.coverage), "coverage_evidence_changed"),
      (decide (current.repositorySuite ≠ prior.repositorySuite),
        "repository_suite_evidence_changed")]

/-- The finding was there before, with the same evidence from the same reusable tool, and nothing
that it depends on changed. -/
def isUnchanged (finding : CIFindingEvidence) : Bool :=
  let previous := prior.findings.find? (·.findingId = finding.findingId)
  let currentTool := current.tools.find? (·.scanner = finding.scanner)
  let priorTool := prior.tools.find? (·.scanner = finding.scanner)
  (previous.any fun previous => finding.evidenceSha256 == previous.evidenceSha256) &&
    (currentTool.any fun tool => tool.reuseEligible &&
      priorTool.any fun before =>
        before.reuseEligible && tool.toolIdentitySha256 == before.toolIdentitySha256) &&
    current.producerSha256 == prior.producerSha256 &&
    current.deterministicPolicySha256 == prior.deterministicPolicySha256 &&
    (current.scannerWorkspaceSha256.isSome &&
      current.scannerWorkspaceSha256 == prior.scannerWorkspaceSha256 &&
      current.sourceTreeSha256 == prior.sourceTreeSha256)

def findingIds (findings : List CIFindingEvidence) : List String :=
  findings.map (·.findingId)

/-- The comparison before its validator, with the regressions of the repository suites. -/
def observedComparison (current : CIDeterministicEvidence treeHash)
    (baseline : CIRunState treeHash) (baselineManifestSha256 : String)
    (suite : List CICoverageRegression) : CIBaselineComparison :=
  let prior := baseline.evidence
  let rejections := reuseRejections current prior
  { baselineRunId := prior.runId
    baselineStateSha256 := baseline.stateSha256
    baselineManifestSha256 := baselineManifestSha256
    wholeRunReuseEligible := rejections.isEmpty
    reuseRejections := rejections
    newFindingIds := sortedSet (findingIds (current.findings.filter
      (!isUnchanged current prior ·)))
    unchangedFindingIds := sortedSet (findingIds (current.findings.filter
      (isUnchanged current prior)))
    resolvedFindingIds := sortedSet ((findingIds prior.findings).filter
      (!(findingIds current.findings).contains ·))
    coverageRegressions := sortRegressions
      (coverageRegressions current.coverage prior.coverage ++ suite) }

/-- `compare_ci_evidence` -/
def compareCiEvidence (rounding : Rounding) (current : CIDeterministicEvidence treeHash)
    (baseline : CIRunState treeHash) (baselineManifestSha256 : String) :
    Except ValueError CIBaselineComparison := do
  let suite ← repositorySuiteCoverageRegressions rounding current.repositorySuite
    baseline.evidence.repositorySuite
  (observedComparison current baseline baselineManifestSha256 suite).validate

inductive CIJobStatus where
  | noBaseline
  | clean
  | unchanged
  | newFindings
  | coverageRegression
  | analysisFailed
deriving DecidableEq, Repr

/-- `_job_status` -/
def jobStatus (evidence : CIDeterministicEvidence treeHash)
    (comparison : Option CIBaselineComparison) (failures : List String) : CIJobStatus :=
  if !failures.isEmpty then
    .analysisFailed
  else
    match comparison with
    | none => if evidence.findings.isEmpty then .noBaseline else .newFindings
    | some comparison =>
        if !comparison.coverageRegressions.isEmpty then .coverageRegression
        else if !comparison.newFindingIds.isEmpty then .newFindings
        else if !comparison.unchangedFindingIds.isEmpty then .unchanged
        else .clean

end Compare

end Ci

end MmAudit
