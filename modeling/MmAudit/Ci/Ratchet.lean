import MmAudit.Ci.Regressions

/-!
# A comparison partitions the findings and never loses coverage

The comparison returns unless a metric regressed under the same ID in the coverage of
the run and in its repository suites.  What it reports as new, unchanged and resolved
splits the findings, and a chain of runs none of which regressed against the one before
does not regress from its first run to its last.
-/

namespace MmAudit

namespace Ci

theorem map_metricId_sortRegressions (regressions : List CICoverageRegression) :
    (sortRegressions regressions).map (·.metricId) =
      (regressions.map (·.metricId)).insertionSort (· ≤ ·) :=
  List.map_insertionSort _ _ _ _ fun _ _ _ _ => Iff.rfl

theorem sorted_sortRegressions_iff {regressions : List CICoverageRegression} :
    Sorted ((sortRegressions regressions).map (·.metricId)) ↔
      (regressions.map (·.metricId)).Nodup := by
  rw [map_metricId_sortRegressions]
  constructor
  · intro sorted
    exact (List.perm_insertionSort _ _).nodup_iff.mp (sorted.imp ne_of_lt)
  · exact sorted_insertionSort

/-- The metrics of the baseline that regressed are distinct, as its metrics are. -/
theorem nodup_coverageRegressions {current baseline : List CICoverageEvidence}
    (sorted : Sorted (metricIds baseline)) :
    ((coverageRegressions current baseline).map (·.metricId)).Nodup := by
  have ordered : Sorted ((baseline.filterMap (metricRegression current)).map (·.metricId)) := by
    have sorted : baseline.Pairwise fun metric other => metric.metricId < other.metricId :=
      List.pairwise_map.mp sorted
    rw [Sorted, List.pairwise_map, List.pairwise_filterMap]
    apply sorted.imp
    intro metric other less regression regressed regressionOther regressedOther
    rw [metricId_of_metricRegression regressed, metricId_of_metricRegression regressedOther]
    exact less
  have distinct : ((baseline.filterMap (metricRegression current)).map (·.metricId)).Nodup :=
    ordered.imp ne_of_lt
  have reordered := (List.perm_insertionSort
    (fun regression other : CICoverageRegression => regression.metricId ≤ other.metricId)
    (baseline.filterMap (metricRegression current))).map (·.metricId)
  exact reordered.nodup_iff.mpr distinct

/-- What the validator of a comparison asks for. -/
theorem validate_eq_ok_iff {comparison result : CIBaselineComparison} :
    comparison.validate = .ok result ↔
      (Sorted comparison.reuseRejections ∧ Sorted comparison.newFindingIds ∧
        Sorted comparison.unchangedFindingIds ∧ Sorted comparison.resolvedFindingIds ∧
        Sorted (comparison.coverageRegressions.map (·.metricId))) ∧
      (∀ findingId ∈ comparison.newFindingIds, findingId ∉ comparison.unchangedFindingIds) ∧
      (∀ findingId ∈ comparison.resolvedFindingIds, findingId ∉ comparison.newFindingIds ∧
        findingId ∉ comparison.unchangedFindingIds) ∧
      comparison.wholeRunReuseEligible = comparison.reuseRejections.isEmpty ∧
      comparison = result := by
  rw [CIBaselineComparison.validate, Fallible.check_bind_eq_ok_iff, Fallible.forM_eq_ok_iff,
    Fallible.raiseIf_bind_eq_ok_iff, Fallible.raiseIf_bind_eq_ok_iff,
    Fallible.raiseIf_bind_eq_ok_iff]
  simp only [List.forall_mem_cons, Fallible.raiseIf_eq_ok_iff, not_not, eq_sortedSet_iff,
    List.not_mem_nil, false_implies, implies_true, and_true, List.any_eq_true,
    List.contains_iff_mem, not_exists, not_and, Bool.or_eq_true, not_or]
  have returned : (pure comparison : Except ValueError CIBaselineComparison) = .ok result ↔
      comparison = result := ⟨Except.ok.inj, congrArg Except.ok⟩
  rw [returned, ← ne_eq, Bool.ne_not]

section Comparison

variable {treeHash : List ManifestFileBinding → String}

/-- No metric regressed both in the coverage of the run and in its repository suites. -/
def RegressionsApart (rounding : Rounding) (current prior : CIDeterministicEvidence treeHash) :
    Prop :=
  ∀ suite, repositorySuiteCoverageRegressions rounding current.repositorySuite
      prior.repositorySuite = .ok suite →
    ∀ regression ∈ coverageRegressions current.coverage prior.coverage, ∀ other ∈ suite,
      regression.metricId ≠ other.metricId

theorem mem_findingIds_filter {findings : List CIFindingEvidence}
    {keep : CIFindingEvidence → Bool} {findingId : String} :
    findingId ∈ sortedSet (findingIds (findings.filter keep)) ↔
      ∃ finding ∈ findings, keep finding = true ∧ finding.findingId = findingId := by
  rw [mem_sortedSet, findingIds, List.mem_map]
  simp only [List.mem_filter, and_assoc]

theorem mem_resolved {current prior : List CIFindingEvidence} {findingId : String} :
    findingId ∈ sortedSet ((findingIds prior).filter (!(findingIds current).contains ·)) ↔
      findingId ∈ findingIds prior ∧ findingId ∉ findingIds current := by
  rw [mem_sortedSet, List.mem_filter, Bool.not_eq_true', ← Bool.not_eq_true, List.contains_iff_mem]

theorem eq_of_findingId_eq {evidence : CIDeterministicEvidence treeHash}
    {finding other : CIFindingEvidence} (member : finding ∈ evidence.findings)
    (otherMember : other ∈ evidence.findings) (same : finding.findingId = other.findingId) :
    finding = other := by
  have found := find?_key_of_mem CIFindingEvidence.findingId evidence.findings_sorted member
  have foundOther := find?_key_of_mem CIFindingEvidence.findingId evidence.findings_sorted
    otherMember
  rw [same, foundOther] at found
  exact (Option.some.inj found).symm

/-- New and unchanged findings are different findings of the current run. -/
theorem not_mem_unchanged_of_mem_new {current prior : CIDeterministicEvidence treeHash}
    {findingId : String}
    (new : findingId ∈ sortedSet (findingIds (current.findings.filter
      (!isUnchanged current prior ·)))) :
    findingId ∉ sortedSet (findingIds (current.findings.filter (isUnchanged current prior))) := by
  intro unchanged
  obtain ⟨finding, member, changed, rfl⟩ := mem_findingIds_filter.mp new
  obtain ⟨other, otherMember, kept, same⟩ := mem_findingIds_filter.mp unchanged
  rw [eq_of_findingId_eq otherMember member same] at kept
  rw [kept] at changed
  cases changed

theorem new_or_unchanged_iff {current prior : CIDeterministicEvidence treeHash}
    {findingId : String} :
    findingId ∈ sortedSet (findingIds (current.findings.filter
        (!isUnchanged current prior ·))) ∨
      findingId ∈ sortedSet (findingIds (current.findings.filter (isUnchanged current prior))) ↔
    findingId ∈ findingIds current.findings := by
  rw [mem_findingIds_filter, mem_findingIds_filter, findingIds, List.mem_map]
  constructor
  · rintro (⟨finding, member, -, same⟩ | ⟨finding, member, -, same⟩)
    · exact ⟨finding, member, same⟩
    · exact ⟨finding, member, same⟩
  · rintro ⟨finding, member, same⟩
    cases unchanged : isUnchanged current prior finding with
    | true => exact .inr ⟨finding, member, unchanged, same⟩
    | false => exact .inl ⟨finding, member, by rw [unchanged]; rfl, same⟩

/-- The validator accepts an observed comparison exactly when its regressions are distinct. -/
theorem validate_observedComparison {current : CIDeterministicEvidence treeHash}
    {baseline : CIRunState treeHash} {manifest : String} {suite : List CICoverageRegression}
    {result : CIBaselineComparison} :
    (observedComparison current baseline manifest suite).validate = .ok result ↔
      ((coverageRegressions current.coverage baseline.evidence.coverage ++ suite).map
        (·.metricId)).Nodup ∧
      observedComparison current baseline manifest suite = result := by
  rw [validate_eq_ok_iff, ← sorted_sortRegressions_iff]
  constructor
  · rintro ⟨⟨-, -, -, -, sorted⟩, -, -, -, same⟩
    exact ⟨sorted, same⟩
  · rintro ⟨sorted, same⟩
    refine ⟨⟨sorted_sortedSet _, sorted_sortedSet _, sorted_sortedSet _, sorted_sortedSet _,
      sorted⟩, fun findingId new => not_mem_unchanged_of_mem_new new, ?_, rfl, same⟩
    intro findingId resolved
    have absent := (mem_resolved.mp resolved).2
    rw [← @new_or_unchanged_iff _ current baseline.evidence, not_or] at absent
    exact absent

/-- A comparison that returned is the observed one, with suite regressions apart from those of the
coverage. -/
theorem compareCiEvidence_eq_ok_iff (rounding : Rounding)
    {current : CIDeterministicEvidence treeHash} {baseline : CIRunState treeHash}
    {manifest : String} {result : CIBaselineComparison} :
    compareCiEvidence rounding current baseline manifest = .ok result ↔
      RegressionsApart rounding current baseline.evidence ∧
      ∃ suite, repositorySuiteCoverageRegressions rounding current.repositorySuite
          baseline.evidence.repositorySuite = .ok suite ∧
        observedComparison current baseline manifest suite = result := by
  obtain ⟨suite, computed, distinct, -, -⟩ := exists_repositorySuiteCoverageRegressions rounding
    current.repositorySuite baseline.evidence.repositorySuite
  have apart : ((coverageRegressions current.coverage baseline.evidence.coverage ++ suite).map
      (·.metricId)).Nodup ↔ RegressionsApart rounding current baseline.evidence := by
    rw [List.map_append, List.nodup_append', RegressionsApart, computed]
    simp only [nodup_coverageRegressions baseline.evidence.coverage_sorted, distinct, true_and,
      Except.ok.injEq, forall_eq', List.disjoint_left, List.mem_map, not_exists, not_and,
      forall_exists_index, and_imp, forall_apply_eq_imp_iff₂]
    exact ⟨fun apart regression member other listed same =>
        apart regression member other listed same.symm,
      fun apart regression member other listed same =>
        apart regression member other listed same.symm⟩
  rw [compareCiEvidence, Fallible.bind_of_ok computed, validate_observedComparison, apart, computed]
  simp only [Except.ok.injEq, exists_eq_left']

/-- Both kinds of coverage are kept. -/
def Kept (rounding : Rounding) (prior current : CIDeterministicEvidence treeHash) : Prop :=
  CoverageKept prior.coverage current.coverage ∧
    SuiteKept rounding prior.repositorySuite current.repositorySuite

theorem Kept.refl (rounding : Rounding) (evidence : CIDeterministicEvidence treeHash) :
    Kept rounding evidence evidence :=
  ⟨.refl evidence.coverage_sorted, .refl rounding evidence.repositorySuite⟩

theorem Kept.trans {rounding : Rounding} {first second third : CIDeterministicEvidence treeHash}
    (early : Kept rounding first second) (late : Kept rounding second third) :
    Kept rounding first third :=
  ⟨early.1.trans late.1, early.2.trans late.2⟩

/-- A comparison without regressions is returned exactly when the coverage is kept. -/
theorem exists_comparison_without_regressions_iff (rounding : Rounding)
    (current : CIDeterministicEvidence treeHash) (baseline : CIRunState treeHash)
    (manifest : String) :
    (∃ comparison, compareCiEvidence rounding current baseline manifest = .ok comparison ∧
      comparison.coverageRegressions = []) ↔ Kept rounding baseline.evidence current := by
  obtain ⟨suite, computed, -, -, suiteKept⟩ := exists_repositorySuiteCoverageRegressions rounding
    current.repositorySuite baseline.evidence.repositorySuite
  have none : (observedComparison current baseline manifest suite).coverageRegressions = [] ↔
      Kept rounding baseline.evidence current := by
    rw [observedComparison, sortRegressions_eq_nil_iff, List.append_eq_nil_iff,
      coverageRegressions_eq_nil_iff, suiteKept, Kept]
  simp only [compareCiEvidence_eq_ok_iff, computed, Except.ok.injEq, exists_eq_left']
  constructor
  · rintro ⟨_, ⟨-, rfl⟩, empty⟩
    exact none.mp empty
  · intro kept
    refine ⟨_, ⟨?_, rfl⟩, none.mpr kept⟩
    intro other _ regression member
    rw [coverageRegressions_eq_nil_iff.mpr kept.1] at member
    cases member

theorem findTool_of_mem {evidence : CIDeterministicEvidence treeHash} {tool : CIToolEvidence}
    (member : tool ∈ evidence.tools) :
    evidence.tools.find? (·.scanner = tool.scanner) = some tool :=
  find?_key_of_mem _ evidence.tools_sorted member

/-- Nothing stands against reusing the whole run only if every finding is unchanged. -/
theorem isUnchanged_of_no_rejections {current prior : CIDeterministicEvidence treeHash}
    (none : reuseRejections current prior = []) {finding : CIFindingEvidence}
    (member : finding ∈ current.findings) : isUnchanged current prior finding = true := by
  rw [reuseRejections, reasonsOf_eq_nil_iff] at none
  simp only [List.forall_mem_cons, List.not_mem_nil, false_implies, implies_true, and_true,
    decide_eq_false_iff_not, ne_eq, not_not] at none
  obtain ⟨sources, unavailable, workspace, -, policy, producer, identities, -, -, reusable, -, -, -,
    -, -, findings, -⟩ := none
  obtain ⟨tool, toolMember, scanner, eligible⟩ := current.finding_tool finding member
  -- The baseline has a tool of the same name and identity, which is reusable as well.
  have listed : (tool.scanner, tool.toolIdentitySha256) ∈
      prior.tools.map fun tool => (tool.scanner, tool.toolIdentitySha256) :=
    identities ▸ List.mem_map_of_mem toolMember
  obtain ⟨before, beforeMember, same⟩ := List.mem_map.mp listed
  obtain ⟨sameScanner, sameIdentity⟩ := Prod.mk.inj same
  have beforeEligible : before.reuseEligible = true := by
    rw [Bool.or_eq_false_iff, List.any_eq_false] at reusable
    simpa using reusable.2 before (List.mem_append_right _ beforeMember)
  have sameFinding := find?_key_of_mem CIFindingEvidence.findingId current.findings_sorted member
  have toolFound := findTool_of_mem toolMember
  have beforeFound := findTool_of_mem beforeMember
  rw [sameScanner, scanner] at beforeFound
  rw [scanner] at toolFound
  rw [Bool.or_eq_false_iff] at unavailable
  have present : current.scannerWorkspaceSha256.isSome = true :=
    Option.isNone_eq_false_iff.mp unavailable.1
  have presentBefore : prior.scannerWorkspaceSha256.isSome = true :=
    Option.isNone_eq_false_iff.mp unavailable.2
  rw [present, presentBefore, Bool.true_and, Bool.true_and, decide_eq_false_iff_not,
    not_not] at workspace
  have sameTree : current.sourceTreeSha256 = prior.sourceTreeSha256 := by
    rw [current.tree_exact, prior.tree_exact, sources]
  rw [isUnchanged, ← findings, sameFinding, toolFound, beforeFound, policy, producer, workspace,
    presentBefore, sameTree]
  simp [eligible, beforeEligible, sameIdentity]

/-- Without a reason against reusing the whole run, nothing is new, resolved or worse. -/
theorem nothing_changed_of_no_rejections (rounding : Rounding)
    {current prior : CIDeterministicEvidence treeHash} (none : reuseRejections current prior = []) :
    (∀ finding ∈ current.findings, isUnchanged current prior finding = true) ∧
      current.findings = prior.findings ∧ Kept rounding prior current := by
  refine ⟨fun finding member => isUnchanged_of_no_rejections none member, ?_⟩
  rw [reuseRejections, reasonsOf_eq_nil_iff] at none
  simp only [List.forall_mem_cons, List.not_mem_nil, false_implies, implies_true, and_true,
    decide_eq_false_iff_not, ne_eq, not_not] at none
  obtain ⟨-, -, -, -, -, -, -, -, -, -, -, -, -, -, -, findings, coverage, suite⟩ := none
  have kept := Kept.refl rounding prior
  refine ⟨findings, ?_, ?_⟩
  · rw [coverage]
    exact kept.1
  · rw [suite]
    exact kept.2

/-- A clean run has no findings. -/
theorem findings_eq_nil_of_clean {evidence : CIDeterministicEvidence treeHash}
    {comparison : Option CIBaselineComparison} {failures : List String}
    (observed : ∀ result, comparison = some result → ∀ findingId,
      findingId ∈ result.newFindingIds ∨ findingId ∈ result.unchangedFindingIds ↔
        findingId ∈ findingIds evidence.findings)
    (clean : jobStatus evidence comparison failures = .clean) : evidence.findings = [] := by
  unfold jobStatus at clean
  split at clean
  · cases clean
  · cases comparison with
    | none =>
        dsimp only at clean
        split at clean <;> cases clean
    | some result =>
        dsimp only at clean
        split at clean
        · cases clean
        split at clean
        · cases clean
        split at clean
        · cases clean
        rename_i new unchanged
        rw [Bool.not_eq_true, Bool.not_eq_false', List.isEmpty_iff] at new unchanged
        rw [← List.map_eq_nil_iff, List.eq_nil_iff_forall_not_mem]
        intro findingId member
        rcases (observed result rfl findingId).mpr member with isNew | isUnchanged
        · rw [new] at isNew
          cases isNew
        · rw [unchanged] at isUnchanged
          cases isUnchanged

/-- A run of comparisons without regressions keeps the coverage of its start. -/
theorem kept_of_chain (rounding : Rounding) (evidence : ℕ → CIDeterministicEvidence treeHash)
    (length : ℕ) (steps : ∀ index < length, Kept rounding (evidence index) (evidence (index + 1))) :
    Kept rounding (evidence 0) (evidence length) := by
  induction length with
  | zero => exact .refl rounding (evidence 0)
  | succ length ih =>
      have before := ih fun index earlier => steps index (by omega)
      exact before.trans (steps length (by omega))

theorem suiteMetricId_not_producer {framework : RepositorySuiteFramework} :
    suiteMetricId framework.scanner ∉ ciDeterministicCoverageMetricIds := by
  cases framework <;> decide

/-- Against the metrics that a run keeps, the two kinds of regressions are apart. -/
theorem regressionsApart_of_producer (rounding : Rounding)
    {current prior : CIDeterministicEvidence treeHash}
    (kept : metricIds prior.coverage ⊆ ciDeterministicCoverageMetricIds) :
    RegressionsApart rounding current prior := by
  intro suite computed regression member other listed same
  obtain ⟨known, knownComputed, -, suiteIds, -⟩ := exists_repositorySuiteCoverageRegressions
    rounding current.repositorySuite prior.repositorySuite
  obtain rfl := Except.ok.inj (computed.symm.trans knownComputed)
  obtain ⟨metric, metricMember, regressed⟩ := mem_coverageRegressions.mp member
  have producer : regression.metricId ∈ ciDeterministicCoverageMetricIds := by
    apply kept
    rw [metricId_of_metricRegression regressed]
    exact List.mem_map_of_mem metricMember
  obtain ⟨coverage, coverageMember, suiteId⟩ := suiteIds other listed
  obtain ⟨framework, scanner⟩ := prior.repositorySuite.scanners_known coverage coverageMember
  rw [same, suiteId, scanner] at producer
  exact suiteMetricId_not_producer producer

/-- A comparison that can be reused as a whole reports nothing new, resolved or worse. -/
theorem nothing_reported_of_eligible (rounding : Rounding)
    {current : CIDeterministicEvidence treeHash} {baseline : CIRunState treeHash}
    {manifest : String} {suite : List CICoverageRegression}
    (computed : repositorySuiteCoverageRegressions rounding current.repositorySuite
      baseline.evidence.repositorySuite = .ok suite)
    (eligible : (observedComparison current baseline manifest suite).wholeRunReuseEligible = true) :
    (observedComparison current baseline manifest suite).newFindingIds = [] ∧
      (observedComparison current baseline manifest suite).resolvedFindingIds = [] ∧
      (observedComparison current baseline manifest suite).coverageRegressions = [] := by
  obtain ⟨unchanged, findings, kept⟩ :=
    nothing_changed_of_no_rejections rounding (List.isEmpty_iff.mp eligible)
  refine ⟨?_, ?_, ?_⟩
  · apply List.eq_nil_iff_forall_not_mem.mpr
    intro findingId new
    obtain ⟨finding, member, changed, -⟩ := mem_findingIds_filter.mp new
    rw [unchanged finding member] at changed
    cases changed
  · apply List.eq_nil_iff_forall_not_mem.mpr
    intro findingId resolved
    obtain ⟨before, absent⟩ := mem_resolved.mp resolved
    rw [findings] at absent
    exact absent before
  · obtain ⟨comparison, returned, none⟩ :=
      (exists_comparison_without_regressions_iff rounding current baseline manifest).mpr kept
    obtain ⟨-, same, sameComputed, rfl⟩ := (compareCiEvidence_eq_ok_iff rounding).mp returned
    obtain rfl := Except.ok.inj (computed.symm.trans sameComputed)
    exact none

/-- The comparison returns exactly when no metric ID regressed both in the coverage of the run and
in its suites, so always against the metrics that a run keeps.  It splits the current findings
into new and unchanged ones; a run that can be reused as a whole has nothing new, resolved or
worse; a clean run has no findings; and a chain of runs without regressions has none from its
first run to its last. -/
theorem comparison_partitions_and_ratchets (rounding : Rounding)
    (treeHash : List ManifestFileBinding → String) :
    (∀ (current : CIDeterministicEvidence treeHash) (baseline : CIRunState treeHash)
      (manifest : String),
      ((∃ comparison, compareCiEvidence rounding current baseline manifest = .ok comparison) ↔
        RegressionsApart rounding current baseline.evidence) ∧
      (metricIds baseline.evidence.coverage ⊆ ciDeterministicCoverageMetricIds →
        RegressionsApart rounding current baseline.evidence) ∧
      ∀ comparison, compareCiEvidence rounding current baseline manifest = .ok comparison →
        (∀ findingId ∈ comparison.newFindingIds, findingId ∉ comparison.unchangedFindingIds) ∧
        (∀ findingId, findingId ∈ comparison.newFindingIds ∨
            findingId ∈ comparison.unchangedFindingIds ↔
          findingId ∈ findingIds current.findings) ∧
        (∀ findingId, findingId ∈ comparison.resolvedFindingIds ↔
          findingId ∈ findingIds baseline.evidence.findings ∧
            findingId ∉ findingIds current.findings) ∧
        (comparison.wholeRunReuseEligible = true → comparison.newFindingIds = [] ∧
          comparison.resolvedFindingIds = [] ∧ comparison.coverageRegressions = []) ∧
        ∀ failures, jobStatus current (some comparison) failures = .clean →
          current.findings = []) ∧
    (∀ (evidence : CIDeterministicEvidence treeHash) failures,
      jobStatus evidence none failures ≠ .clean) ∧
    ∀ (evidence : ℕ → CIDeterministicEvidence treeHash) (stateSha256 manifest : ℕ → String)
      (length : ℕ),
      (∀ index < length, ∃ comparison, compareCiEvidence rounding (evidence (index + 1))
          ⟨evidence index, stateSha256 index⟩ (manifest index) = .ok comparison ∧
        comparison.coverageRegressions = []) →
      ∃ comparison, compareCiEvidence rounding (evidence length)
          ⟨evidence 0, stateSha256 0⟩ (manifest 0) = .ok comparison ∧
        comparison.coverageRegressions = [] := by
  refine ⟨?compared, ?unclean, ?chain⟩
  case compared =>
    intro current baseline manifest
    obtain ⟨suite, computed, -⟩ := exists_repositorySuiteCoverageRegressions rounding
      current.repositorySuite baseline.evidence.repositorySuite
    refine ⟨?returns, regressionsApart_of_producer rounding, ?partition⟩
    case returns =>
      simp only [compareCiEvidence_eq_ok_iff, computed, Except.ok.injEq, exists_eq_left',
        exists_and_left, exists_eq', and_true]
    case partition =>
      intro comparison returned
      obtain ⟨-, suite, computed, rfl⟩ := (compareCiEvidence_eq_ok_iff rounding).mp returned
      refine ⟨fun findingId new => not_mem_unchanged_of_mem_new new,
        fun findingId => new_or_unchanged_iff, fun findingId => mem_resolved,
        nothing_reported_of_eligible rounding computed, ?_⟩
      intro failures
      apply findings_eq_nil_of_clean
      rintro _ ⟨⟩ findingId
      exact new_or_unchanged_iff
  case unclean =>
    intro evidence failures clean
    rw [jobStatus] at clean
    split at clean
    · cases clean
    · split at clean <;> cases clean
  case chain =>
    intro evidence stateSha256 manifest length steps
    rw [exists_comparison_without_regressions_iff]
    apply kept_of_chain
    intro index earlier
    exact (exists_comparison_without_regressions_iff rounding _ _ _).mp (steps index earlier)

end Comparison

/-! ## A metric ID of both kinds -/

/-- A metric of one observed unit. -/
def sampleMetric : CoverageMetric where
  numerator := 1
  denominator := 1
  population := 1
  percentage := some 100
  exclusions := []
  notApplicableEvidence := []
  confidence := 1
  provenance := [.compiler]
  failures := []
  state := .deterministic
  detail := "One unit was observed."

/-- A suite that had to run and selected no test. -/
def sampleFailedSuite : CIRepositorySuiteEvidence where
  status := .failed
  requiredScanners := ["foundry_fork"]
  successfulScanners := []
  scannerCoverage := [⟨"foundry_fork", none, [], [], by simp, by simp, by simp, by simp⟩]
  failures := ["repository suite selected no test"]
  scanners_sorted := by simp
  scanners_known := by
    intro coverage member
    rw [List.mem_singleton.mp member]
    exact ⟨.foundry, by decide +kernel⟩

def sampleNoSuite : CIRepositorySuiteEvidence where
  status := .notApplicable
  requiredScanners := []
  successfulScanners := []
  scannerCoverage := []
  failures := []
  scanners_sorted := by simp
  scanners_known := by simp

/-- Evidence with the metrics and the suite given, and no sources, tools or findings. -/
def sampleEvidence (coverage : List CICoverageEvidence) (sorted : Sorted (metricIds coverage))
    (repositorySuite : CIRepositorySuiteEvidence) : CIDeterministicEvidence fun _ => "tree" where
  runId := "run-1"
  auditRunStatus := some .complete
  scannerWorkspaceSha256 := none
  effectiveConfigSha256 := "config"
  deterministicPolicySha256 := "policy"
  producerSha256 := "producer"
  sources := []
  sourceTreeSha256 := "tree"
  tools := []
  findings := []
  findingValidationFailures := []
  coverage := coverage
  repositorySuite := repositorySuite
  tools_sorted := by simp
  findings_sorted := by simp
  coverage_sorted := sorted
  tree_exact := rfl
  finding_tool := by simp

/-- The suite is no longer applicable and the metric under its ID is gone: the same ID regressed
twice, and the comparison raises. -/
theorem colliding_metric_ids_raise :
    compareCiEvidence Rounding.exact (sampleEvidence [] (by simp [metricIds]) sampleNoSuite)
      ⟨sampleEvidence [⟨"repository_suite.foundry_fork.execution_coverage", sampleMetric⟩]
        (by simp [metricIds]) sampleFailedSuite, "state"⟩ "manifest" =
      .error ⟨"CI comparison coverage regressions must be unique and sorted"⟩ := by
  decide +kernel

/-- Three runs with the same evidence. -/
theorem unchanged_chain_sample :
    ∃ comparison, compareCiEvidence Rounding.exact
        (sampleEvidence [⟨"compilation_completion", sampleMetric⟩] (by simp [metricIds])
          sampleFailedSuite)
        ⟨sampleEvidence [⟨"compilation_completion", sampleMetric⟩] (by simp [metricIds])
          sampleFailedSuite, "state"⟩ "manifest" = .ok comparison ∧
      comparison.coverageRegressions = [] :=
  (comparison_partitions_and_ratchets Rounding.exact _).2.2
    (fun _ => sampleEvidence [⟨"compilation_completion", sampleMetric⟩] (by simp [metricIds])
      sampleFailedSuite)
    (fun _ => "state") (fun _ => "manifest") 2
    (fun _ _ => (exists_comparison_without_regressions_iff _ _ _ _).mpr (.refl _ _))

end Ci

end MmAudit
