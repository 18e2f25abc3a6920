import MmAudit.Ci.SuiteRuns

/-!
# Tests that were executed

The evidence of a suite counts every execution of a run, also those of tests that were never
started.  Since the executions of a valid run cover its selection, its coverage is always full.
-/

namespace MmAudit

namespace Ci

open Fallible

section Started

variable (rounding : Rounding) (runs priorRuns : List ScannerRun)

/-- The run of the scanner started the test with this descriptor. -/
def Started (scanner hash : String) : Prop :=
  ∃ execution ∈ reportedExecutions (runByName runs scanner),
    execution.descriptorSha256 = hash ∧ execution.status.attempted = true

/-- The coverage of a scanner counts the tests that its run started, and is full only if the
run started all tests. -/
structure CountsStarted (coverage : CIRepositorySuiteScannerCoverage) : Prop where
  executed : ∀ hash,
    hash ∈ coverage.executedDescriptorSha256s ↔ Started runs coverage.scanner hash
  counted : coverage.executedTestCount =
    ((reportedExecutions (runByName runs coverage.scanner)).filter (·.status.attempted)).length
  full : (∃ hash ∈ coverage.selectedDescriptorSha256s, ¬Started runs coverage.scanner hash) →
    (repositorySuiteMetric rounding coverage).state ≠ .deterministic

/-- The evidence of the suites counts the tests that were started, and a test that is no longer
started is a regression. -/
structure StartsCounted (current baseline : CIRepositorySuiteEvidence) : Prop where
  coverage : ∀ coverage ∈ current.scannerCoverage, CountsStarted rounding runs coverage
  regression : ∀ prior ∈ baseline.scannerCoverage, ∀ hash, Started priorRuns prior.scanner hash →
    ¬Started runs prior.scanner hash → ∀ regressions,
      repositorySuiteCoverageRegressions rounding current baseline = .ok regressions →
        regressions ≠ []

/-- Every execution of a required scanner is one of a test that was started. -/
def AllAttempted (projects : List SolidityProjectType) : Prop :=
  ∀ scanner ∈ requiredScanners projects,
    ∀ execution ∈ reportedExecutions (runByName runs scanner), execution.status.attempted = true

end Started

/-! ## The coverage of a scanner -/

theorem sealed_eq_ok {scanner : String} {selectionSha256 : Option String}
    {selected executed : List String} {selectedCount executedCount : ℕ}
    {coverage : CIRepositorySuiteScannerCoverage}
    (sealedCoverage : CIRepositorySuiteScannerCoverage.sealed scanner selectionSha256 selected
      executed selectedCount executedCount = .ok coverage) :
    coverage.scanner = scanner ∧
      coverage.selectedDescriptorSha256s = selected.insertionSort (· ≤ ·) ∧
      coverage.executedDescriptorSha256s = executed.insertionSort (· ≤ ·) := by
  unfold CIRepositorySuiteScannerCoverage.sealed at sealedCoverage
  dsimp only at sealedCoverage
  split_ifs at sealedCoverage
  cases sealedCoverage
  exact ⟨rfl, rfl, rfl⟩

/-- What the coverage of a scanner says of its run. -/
structure CoversRun (runs : List ScannerRun) (coverage : CIRepositorySuiteScannerCoverage) :
    Prop where
  selected : ∀ hash, hash ∈ coverage.selectedDescriptorSha256s ↔
    ∃ test ∈ selectedTests (runByName runs coverage.scanner), test.descriptorSha256 = hash
  executed : ∀ hash, hash ∈ coverage.executedDescriptorSha256s ↔
    ∃ execution ∈ reportedExecutions (runByName runs coverage.scanner),
      execution.descriptorSha256 = hash
  count : coverage.executedTestCount =
    (reportedExecutions (runByName runs coverage.scanner)).length
  distinct : ((reportedExecutions (runByName runs coverage.scanner)).map
    (·.descriptorSha256)).Nodup

theorem coversRun_of_scannerCoverageOf {runs : List ScannerRun} {scanner : String}
    {coverage : CIRepositorySuiteScannerCoverage}
    (computed : scannerCoverageOf runs scanner = .ok coverage) :
    coverage.scanner = scanner ∧ CoversRun runs coverage := by
  obtain ⟨sameScanner, selected, executed⟩ := sealed_eq_ok computed
  refine ⟨sameScanner, ?_⟩
  subst sameScanner
  refine ⟨?_, ?_, ?_, ?_⟩
  · intro hash
    rw [selected, List.mem_insertionSort, List.mem_map]
  · intro hash
    rw [executed, List.mem_insertionSort, List.mem_map]
  · rw [CIRepositorySuiteScannerCoverage.executedTestCount, executed, List.length_insertionSort,
      List.length_map]
  · have sorted := coverage.executed_sorted
    rw [executed] at sorted
    exact (List.perm_insertionSort _ _).nodup_iff.mp (sorted.imp ne_of_lt)

theorem scannerCoverage_of_validated {status : CIRepositorySuiteStatus}
    {required successful failures : List String}
    {coverage : List CIRepositorySuiteScannerCoverage} {evidence : CIRepositorySuiteEvidence}
    (validated : CIRepositorySuiteEvidence.validated status required successful coverage failures =
      .ok evidence) : evidence.scannerCoverage = coverage := by
  unfold CIRepositorySuiteEvidence.validated at validated
  split_ifs at validated
  cases validated
  rfl

/-- The coverages of the evidence are those of the required scanners. -/
theorem mapM_scannerCoverageOf {host : Host} {projects : List SolidityProjectType}
    {runs : List ScannerRun} {evidence : CIRepositorySuiteEvidence}
    (built : buildCiRepositorySuiteEvidence host projects runs = .ok evidence) :
    (requiredScanners projects).mapM (scannerCoverageOf runs) = .ok evidence.scannerCoverage := by
  unfold buildCiRepositorySuiteEvidence at built
  by_cases none : applicableFrameworks projects = []
  · rw [if_pos none] at built
    cases built
    rw [requiredScanners, none]
    rfl
  · rw [if_neg none] at built
    obtain ⟨coverages, computed, validated⟩ := bind_eq_ok_iff.mp built
    rw [computed, scannerCoverage_of_validated validated]

theorem coversRun_of_mem {host : Host} {projects : List SolidityProjectType}
    {runs : List ScannerRun} {evidence : CIRepositorySuiteEvidence}
    (built : buildCiRepositorySuiteEvidence host projects runs = .ok evidence)
    {coverage : CIRepositorySuiteScannerCoverage} (member : coverage ∈ evidence.scannerCoverage) :
    coverage.scanner ∈ requiredScanners projects ∧ CoversRun runs coverage := by
  obtain ⟨scanner, required, computed⟩ :=
    exists_item_of_mapM (mapM_scannerCoverageOf built) member
  obtain ⟨rfl, covers⟩ := coversRun_of_scannerCoverageOf computed
  exact ⟨required, covers⟩

/-! ## Counting what was started -/

section Counting

variable {rounding : Rounding} {runs priorRuns : List ScannerRun}

/-- If all executions are of tests that were started then the coverage counts them. -/
theorem countsStarted_of_attempted {coverage : CIRepositorySuiteScannerCoverage}
    (covers : CoversRun runs coverage)
    (attempted : ∀ execution ∈ reportedExecutions (runByName runs coverage.scanner),
      execution.status.attempted = true) : CountsStarted rounding runs coverage := by
  have executed : ∀ hash,
      hash ∈ coverage.executedDescriptorSha256s ↔ Started runs coverage.scanner hash := by
    intro hash
    rw [covers.executed]
    constructor
    · rintro ⟨execution, member, same⟩
      exact ⟨execution, member, same, attempted execution member⟩
    · rintro ⟨execution, member, same, -⟩
      exact ⟨execution, member, same⟩
  refine ⟨executed, ?_, ?_⟩
  · rw [List.filter_eq_self.mpr attempted]
    exact covers.count
  · rintro ⟨hash, selected, notStarted⟩
    have notExecuted : hash ∉ coverage.executedDescriptorSha256s := fun listed =>
      notStarted ((executed hash).mp listed)
    have fewer : coverage.executedTestCount ≠ coverage.selectedTestCount := by
      intro same
      have subperm := List.subperm_of_subset (coverage.executed_sorted.imp ne_of_lt)
        coverage.executed_subset
      have perm := subperm.perm_of_length_le same.ge
      exact notExecuted (perm.mem_iff.mpr selected)
    unfold repositorySuiteMetric
    simp [fewer]

/-- If the coverage counts what was started then all executions are of such tests. -/
theorem attempted_of_countsStarted {coverage : CIRepositorySuiteScannerCoverage}
    (covers : CoversRun runs coverage) (counts : CountsStarted rounding runs coverage) :
    ∀ execution ∈ reportedExecutions (runByName runs coverage.scanner),
      execution.status.attempted = true := by
  intro execution member
  have executed := (covers.executed execution.descriptorSha256).mpr ⟨execution, member, rfl⟩
  obtain ⟨other, listed, same, attempted⟩ := (counts.executed _).mp executed
  -- The descriptors of the executions are distinct.
  rw [List.inj_on_of_nodup_map covers.distinct listed member same] at attempted
  exact attempted

theorem regression_of_counts {current baseline : CIRepositorySuiteEvidence}
    (counts : ∀ coverage ∈ current.scannerCoverage, CountsStarted rounding runs coverage)
    (covers : ∀ prior ∈ baseline.scannerCoverage, CoversRun priorRuns prior)
    {prior : CIRepositorySuiteScannerCoverage} (member : prior ∈ baseline.scannerCoverage)
    {hash : String} (before : Started priorRuns prior.scanner hash)
    (after : ¬Started runs prior.scanner hash) {regressions : List CICoverageRegression}
    (computed : repositorySuiteCoverageRegressions rounding current baseline = .ok regressions) :
    regressions ≠ [] := by
  obtain ⟨known, knownComputed, -, -, noneIff⟩ :=
    exists_repositorySuiteCoverageRegressions rounding current baseline
  obtain rfl := Except.ok.inj (computed.symm.trans knownComputed)
  rw [Ne, noneIff]
  intro kept
  obtain ⟨observed, found, -, -, executed⟩ := kept prior member
  have sameScanner : observed.scanner = prior.scanner := by simpa using List.find?_some found
  obtain ⟨execution, reported, same, -⟩ := before
  have listed := executed (((covers prior member).executed hash).mpr ⟨execution, reported, same⟩)
  have started := ((counts observed (List.mem_of_find?_eq_some found)).executed hash).mp listed
  rw [sameScanner] at started
  exact after started

/-- The evidence counts the tests that were started exactly if the runs hold no execution of
another test. -/
theorem startsCounted_iff {host : Host} {projects priorProjects : List SolidityProjectType}
    {current baseline : CIRepositorySuiteEvidence}
    (built : buildCiRepositorySuiteEvidence host projects runs = .ok current)
    (builtBefore : buildCiRepositorySuiteEvidence host priorProjects priorRuns = .ok baseline) :
    StartsCounted rounding runs priorRuns current baseline ↔ AllAttempted runs projects := by
  constructor
  · intro counted scanner required
    obtain ⟨coverage, member, computed⟩ :=
      exists_value_of_mapM (mapM_scannerCoverageOf built) required
    obtain ⟨rfl, covers⟩ := coversRun_of_scannerCoverageOf computed
    exact attempted_of_countsStarted covers (counted.coverage coverage member)
  · intro attempted
    have counts : ∀ coverage ∈ current.scannerCoverage, CountsStarted rounding runs coverage := by
      intro coverage member
      obtain ⟨required, covers⟩ := coversRun_of_mem built member
      exact countsStarted_of_attempted covers (attempted _ required)
    refine ⟨counts, ?_⟩
    intro prior member hash before after regressions computed
    exact regression_of_counts counts (fun prior listed => (coversRun_of_mem builtBefore listed).2)
      member before after computed

end Counting

/-! ## Full coverage of valid runs -/

/-- The executions of a valid run are those of its selection. -/
theorem covers_selection_of_validate {run : ScannerRun} {selection : RepositorySuiteSelection}
    (valid : run.validate = .ok ()) (selected : run.repositorySuiteSelection = some selection) :
    selection.tests.map (·.descriptorSha256) ⊆
      run.repositoryTestExecutions.map (·.descriptorSha256) := by
  rw [ScannerRun.validate, selected] at valid
  unfold checkSelection at valid
  simp only [raiseIf_bind_eq_ok_iff] at valid
  obtain ⟨-, -, -, -, -, covers, -⟩ := valid
  exact (not_not.mp covers).1

/-- Whatever a valid run started, the coverage of its selection is full. -/
theorem full_coverage_of_validate (rounding : Rounding) {runs : List ScannerRun} {scanner : String}
    {run : ScannerRun} {selection : RepositorySuiteSelection}
    (isRun : runByName runs scanner = some run) (valid : run.validate = .ok ())
    (selected : run.repositorySuiteSelection = some selection) (notEmpty : selection.tests ≠ [])
    {coverage : CIRepositorySuiteScannerCoverage}
    (computed : scannerCoverageOf runs scanner = .ok coverage) :
    (repositorySuiteMetric rounding coverage).state = .deterministic := by
  obtain ⟨rfl, covers⟩ := coversRun_of_scannerCoverageOf computed
  have selectedTests_eq : selectedTests (runByName runs coverage.scanner) = selection.tests := by
    rw [isRun, selectedTests, Option.bind_some, selected]
    rfl
  have executions_eq : reportedExecutions (runByName runs coverage.scanner) =
      run.repositoryTestExecutions := by
    rw [isRun]
    rfl
  have subset : coverage.selectedDescriptorSha256s ⊆ coverage.executedDescriptorSha256s := by
    intro hash listed
    rw [covers.selected, selectedTests_eq] at listed
    rw [covers.executed, executions_eq]
    exact List.mem_map.mp (covers_selection_of_validate valid selected (List.mem_map.mpr listed))
  have least : coverage.selectedTestCount ≤ coverage.executedTestCount :=
    (List.subperm_of_subset (coverage.selected_sorted.imp ne_of_lt) subset).length_le
  have same : coverage.executedTestCount = coverage.selectedTestCount :=
    coverage.executed_le.antisymm least
  have positive : 0 < coverage.selectedTestCount := by
    obtain ⟨test, rest, split⟩ := List.exists_cons_of_ne_nil notEmpty
    refine List.length_pos_of_mem ((covers.selected test.descriptorSha256).mpr ⟨test, ?_, rfl⟩)
    rw [selectedTests_eq, split]
    exact List.mem_cons_self
  unfold repositorySuiteMetric
  simp [same, positive]

/-! ## A test that is no longer started -/

def sampleHash : String :=
  "aaaaaaaaaaaaaaaaaaaaaaaaaaaaaaaaaaaaaaaaaaaaaaaaaaaaaaaaaaaaaaaa"

def sampleTest : RepositorySuiteTestDescriptor where
  framework := .foundry
  projectRoot := "."
  path := "test/Vault.t.sol"
  suiteName := "VaultTest"
  testName := "test_withdraw"
  descriptorSha256 := sampleHash

def sampleSelection : RepositorySuiteSelection where
  selectionSha256 := "5e"
  tests := [sampleTest]
  keys_sorted := List.pairwise_singleton _ _
  hashes_distinct := List.nodup_singleton _
  bounded := by decide

/-- The run that the scanner reports for its observations. -/
def sampleRun (status : ScannerStatus) (observations : List FoundryTestObservation) :
    ScannerRun where
  scanner := "foundry_fork"
  status := status
  executionEvidence := .real
  repositoryCodeExecution := .isolated
  machineOutputValidated := false
  repositorySuiteSelection := some sampleSelection
  repositoryTestExecutions := (repositoryTestExecutions (fun _ => "0f") sampleSelection
    observations "fork RPC was unavailable").toOption.getD []

/-- The test passed. -/
def samplePassedRun : ScannerRun :=
  sampleRun .success [⟨sampleTest, .passed, none⟩]

/-- The test was never started. -/
def sampleUnstartedRun : ScannerRun :=
  sampleRun .unavailable []

def sampleHost : Host where
  observationIsValid := fun _ => true
  hasRuntimeAuthority := fun _ => true

theorem exists_sample_evidence (run : ScannerRun)
    (builds : (buildCiRepositorySuiteEvidence sampleHost [.foundry] [run]).toOption.isSome) :
    ∃ evidence, buildCiRepositorySuiteEvidence sampleHost [.foundry] [run] = .ok evidence :=
  eq_ok_of_toOption_isSome builds

theorem startsCounted_iff_sample :
    ∃ current baseline,
      buildCiRepositorySuiteEvidence sampleHost [.foundry] [sampleUnstartedRun] = .ok current ∧
      buildCiRepositorySuiteEvidence sampleHost [.foundry] [samplePassedRun] = .ok baseline ∧
      (StartsCounted Rounding.exact [sampleUnstartedRun] [samplePassedRun] current baseline ↔
        AllAttempted [sampleUnstartedRun] [.foundry]) := by
  obtain ⟨current, built⟩ := exists_sample_evidence sampleUnstartedRun (by decide +kernel)
  obtain ⟨baseline, builtBefore⟩ := exists_sample_evidence samplePassedRun (by decide +kernel)
  exact ⟨current, baseline, built, builtBefore, startsCounted_iff built builtBefore⟩

/-- Whether the regressions of two runs are computed and there are none. -/
def noRegressions (current baseline : CIRepositorySuiteEvidence) : Bool :=
  (repositorySuiteCoverageRegressions Rounding.exact current baseline).toOption.any List.isEmpty

theorem unstarted_test_counted :
    sampleUnstartedRun.validate.toOption.isSome ∧ samplePassedRun.validate.toOption.isSome ∧
      Started [samplePassedRun] "foundry_fork" sampleHash ∧
      ¬Started [sampleUnstartedRun] "foundry_fork" sampleHash ∧
      ∃ current baseline,
        buildCiRepositorySuiteEvidence sampleHost [.foundry] [sampleUnstartedRun] = .ok current ∧
        buildCiRepositorySuiteEvidence sampleHost [.foundry] [samplePassedRun] = .ok baseline ∧
        (∃ coverage ∈ current.scannerCoverage, coverage.scanner = "foundry_fork" ∧
          sampleHash ∈ coverage.executedDescriptorSha256s ∧
          (repositorySuiteMetric Rounding.exact coverage).state = .deterministic) ∧
        noRegressions current baseline = true ∧
        ¬StartsCounted Rounding.exact [sampleUnstartedRun] [samplePassedRun] current baseline := by
  have notStarted : ¬Started [sampleUnstartedRun] "foundry_fork" sampleHash := by
    unfold Started
    decide +kernel
  obtain ⟨current, built⟩ := exists_sample_evidence sampleUnstartedRun (by decide +kernel)
  obtain ⟨baseline, builtBefore⟩ := exists_sample_evidence samplePassedRun (by decide +kernel)
  have counted : (buildCiRepositorySuiteEvidence sampleHost [.foundry]
      [sampleUnstartedRun]).toOption.any (fun evidence =>
        evidence.scannerCoverage.any fun coverage => coverage.scanner = "foundry_fork" ∧
          sampleHash ∈ coverage.executedDescriptorSha256s ∧
          (repositorySuiteMetric Rounding.exact coverage).state = .deterministic) = true := by
    decide +kernel
  have silent : (buildCiRepositorySuiteEvidence sampleHost [.foundry]
      [sampleUnstartedRun]).toOption.any (fun current =>
        (buildCiRepositorySuiteEvidence sampleHost [.foundry] [samplePassedRun]).toOption.any
          (noRegressions current)) = true := by
    decide +kernel
  rw [built] at counted
  rw [built, builtBefore] at silent
  obtain ⟨coverage, member, isCounted⟩ := List.any_eq_true.mp counted
  have facts := of_decide_eq_true isCounted
  refine ⟨by decide +kernel, by decide +kernel, ?_, notStarted, current, baseline, built,
    builtBefore, ⟨coverage, member, facts⟩, silent, ?_⟩
  · unfold Started
    decide +kernel
  · intro counts
    have started := ((counts.coverage coverage member).executed sampleHash).mp facts.2.1
    rw [facts.1] at started
    exact notStarted started

end Ci

end MmAudit
