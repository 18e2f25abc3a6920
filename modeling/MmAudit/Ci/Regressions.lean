import MmAudit.Ci.Comparison

/-!
# No regression is a preorder

Two observations of a metric compare without a reason exactly when the later one keeps
the earlier one.  Keeping is reflexive and transitive, for one metric, for the coverage
of a run and for its repository suites.
-/

namespace MmAudit

namespace Ci

/-! ## Sorted inventories -/

theorem mem_sortedSet {values : List String} {value : String} :
    value ∈ sortedSet values ↔ value ∈ values := by
  rw [sortedSet, List.mem_insertionSort, List.mem_dedup]

theorem sorted_insertionSort {values : List String} (distinct : values.Nodup) :
    Sorted (values.insertionSort (· ≤ ·)) := by
  have ordered := List.pairwise_insertionSort (· ≤ ·) values
  have different : (values.insertionSort (· ≤ ·)).Nodup :=
    (List.perm_insertionSort _ _).nodup_iff.mpr distinct
  exact (ordered.and different).imp fun both => lt_of_le_of_ne both.1 both.2

theorem sorted_sortedSet (values : List String) : Sorted (sortedSet values) :=
  sorted_insertionSort (List.nodup_dedup values)

theorem eq_sortedSet_iff {values : List String} : values = sortedSet values ↔ Sorted values := by
  constructor
  · intro same
    rw [same]
    exact sorted_sortedSet values
  · intro sorted
    have distinct : values.Nodup := sorted.imp ne_of_lt
    rw [sortedSet, distinct.dedup]
    exact (List.Pairwise.insertionSort_eq (sorted.imp le_of_lt)).symm

theorem sortedSet_eq_nil_iff {values : List String} : sortedSet values = [] ↔ values = [] := by
  rw [List.eq_nil_iff_forall_not_mem, List.eq_nil_iff_forall_not_mem]
  simp only [mem_sortedSet]

theorem reasonsOf_eq_nil_iff {conditions : List (Bool × String)} :
    reasonsOf conditions = [] ↔ ∀ condition ∈ conditions, condition.1 = false := by
  rw [reasonsOf, sortedSet_eq_nil_iff, List.map_eq_nil_iff, List.filter_eq_nil_iff]
  simp only [Bool.not_eq_true]

/-! ## One metric -/

namespace CoverageMetric

/-- A later observation is at least as good as an earlier one. -/
structure Keeps (previous now : CoverageMetric) : Prop where
  population : previous.population ≤ now.population
  denominator : previous.denominator ≤ now.denominator
  exclusions : now.exclusions.length ≤ previous.exclusions.length
  subjects : ∀ subject ∈ now.subjects, subject ∈ previous.subjects
  evidence : ∀ subject ∈ previous.subjects, subject ∈ now.subjects →
    now.exclusionOf subject = previous.exclusionOf subject
  numerator : previous.numerator ≤ now.numerator
  percentage : ∀ before, previous.percentage = some before →
    ∃ after, now.percentage = some after ∧ before ≤ after
  state : previous.state.rank ≤ now.state.rank
  confidence : previous.confidence ≤ now.confidence
  provenance : ∀ source ∈ previous.provenance, source ∈ now.provenance
  failures : ∀ failure ∈ now.failures, failure ∈ previous.failures

/-- A comparison finds no reason exactly when the later observation keeps the earlier one. -/
theorem reasons_eq_nil_iff {previous now : CoverageMetric} :
    reasonsOf (previous.conditions now) = [] ↔ previous.Keeps now := by
  rw [reasonsOf_eq_nil_iff]
  simp only [conditions, List.forall_mem_cons, List.not_mem_nil, false_implies, implies_true,
    and_true, decide_eq_false_iff_not, not_lt, List.any_eq_false, Bool.not_eq_true',
    Bool.not_eq_false, List.contains_iff_mem, Bool.and_eq_true, decide_eq_true_eq, not_and,
    not_not, ne_eq]
  constructor
  · rintro ⟨population, denominator, exclusions, subjects, evidence, numerator, percentage, state,
      confidence, provenance, failures⟩
    refine ⟨population, denominator, exclusions, subjects, evidence, numerator, ?_, state,
      confidence, provenance, failures⟩
    intro before observed
    rw [observed] at percentage
    cases later : now.percentage with
    | none => simp [later] at percentage
    | some after => exact ⟨after, rfl, by simpa [later] using percentage⟩
  · rintro ⟨population, denominator, exclusions, subjects, evidence, numerator, percentage, state,
      confidence, provenance, failures⟩
    refine ⟨population, denominator, exclusions, subjects, evidence, numerator, ?_, state,
      confidence, provenance, failures⟩
    cases observed : previous.percentage with
    | none => rfl
    | some before =>
        obtain ⟨after, later, grows⟩ := percentage before observed
        simp [later, grows]

theorem Keeps.refl (metric : CoverageMetric) : metric.Keeps metric where
  population := le_rfl
  denominator := le_rfl
  exclusions := le_rfl
  subjects := fun _ listed => listed
  evidence := fun _ _ _ => rfl
  numerator := le_rfl
  percentage := fun before observed => ⟨before, observed, le_rfl⟩
  state := le_rfl
  confidence := le_rfl
  provenance := fun _ listed => listed
  failures := fun _ listed => listed

theorem Keeps.trans {first second third : CoverageMetric} (early : first.Keeps second)
    (late : second.Keeps third) : first.Keeps third where
  population := early.population.trans late.population
  denominator := early.denominator.trans late.denominator
  exclusions := late.exclusions.trans early.exclusions
  subjects := fun subject listed => early.subjects subject (late.subjects subject listed)
  evidence := by
    intro subject before after
    -- An excluded subject of the last observation was excluded in the one between.
    have between := late.subjects subject after
    rw [late.evidence subject between after, early.evidence subject before between]
  numerator := early.numerator.trans late.numerator
  percentage := by
    intro before observed
    obtain ⟨between, observedBetween, grows⟩ := early.percentage before observed
    obtain ⟨after, observedAfter, growsAgain⟩ := late.percentage between observedBetween
    exact ⟨after, observedAfter, grows.trans growsAgain⟩
  state := early.state.trans late.state
  confidence := early.confidence.trans late.confidence
  provenance := fun source listed => late.provenance source (early.provenance source listed)
  failures := fun failure listed => early.failures failure (late.failures failure listed)

end CoverageMetric

/-! ## The coverage of a run -/

def metricIds (coverage : List CICoverageEvidence) : List String :=
  coverage.map (·.metricId)

/-- Every metric of the baseline is still observed, and kept. -/
def CoverageKept (baseline current : List CICoverageEvidence) : Prop :=
  ∀ prior ∈ baseline, ∃ now, current.find? (·.metricId = prior.metricId) = some now ∧
    prior.metric.Keeps now.metric

theorem metricRegression_eq_none_iff {current : List CICoverageEvidence}
    {prior : CICoverageEvidence} :
    metricRegression current prior = none ↔
      ∃ now, current.find? (·.metricId = prior.metricId) = some now ∧
        prior.metric.Keeps now.metric := by
  rw [metricRegression]
  cases observed : current.find? (·.metricId = prior.metricId) with
  | none => simp
  | some now =>
      simp only [ite_eq_left_iff, reduceCtorEq, imp_false, not_not, List.isEmpty_iff,
        CoverageMetric.reasons_eq_nil_iff, Option.some.injEq, exists_eq_left']

theorem metricId_of_metricRegression {current : List CICoverageEvidence}
    {prior : CICoverageEvidence} {regression : CICoverageRegression}
    (regressed : metricRegression current prior = some regression) :
    regression.metricId = prior.metricId := by
  obtain ⟨-, same⟩ := Option.ite_none_left_eq_some.mp regressed
  obtain rfl := Option.some.inj same
  rfl

theorem sortRegressions_eq_nil_iff {regressions : List CICoverageRegression} :
    sortRegressions regressions = [] ↔ regressions = [] := by
  rw [← List.length_eq_zero_iff, sortRegressions, List.length_insertionSort,
    List.length_eq_zero_iff]

theorem coverageRegressions_eq_nil_iff {current baseline : List CICoverageEvidence} :
    coverageRegressions current baseline = [] ↔ CoverageKept baseline current := by
  rw [coverageRegressions, sortRegressions_eq_nil_iff, List.filterMap_eq_nil_iff]
  simp only [metricRegression_eq_none_iff, CoverageKept]

/-- Of items with sorted keys, a key finds its own item. -/
theorem find?_key_of_mem {Item : Type} (key : Item → String) {items : List Item}
    (sorted : Sorted (items.map key)) {item : Item} (member : item ∈ items) :
    items.find? (key · = key item) = some item := by
  induction items with
  | nil => cases member
  | cons head rest ih =>
      obtain ⟨least, restSorted⟩ := List.pairwise_cons.mp sorted
      rcases List.mem_cons.mp member with rfl | member
      · simp
      · have later := least (key item) (List.mem_map_of_mem member)
        rw [List.find?_cons_of_neg (by simpa using later.ne)]
        exact ih restSorted member

theorem find?_metricId_of_mem {coverage : List CICoverageEvidence}
    (sorted : Sorted (metricIds coverage)) {metric : CICoverageEvidence}
    (member : metric ∈ coverage) :
    coverage.find? (·.metricId = metric.metricId) = some metric :=
  find?_key_of_mem _ sorted member

theorem CoverageKept.refl {coverage : List CICoverageEvidence}
    (sorted : Sorted (metricIds coverage)) : CoverageKept coverage coverage :=
  fun metric member => ⟨metric, find?_metricId_of_mem sorted member, .refl _⟩

theorem CoverageKept.trans {first second third : List CICoverageEvidence}
    (early : CoverageKept first second) (late : CoverageKept second third) :
    CoverageKept first third := by
  intro prior member
  obtain ⟨between, found, kept⟩ := early prior member
  have sameId : between.metricId = prior.metricId := by simpa using List.find?_some found
  obtain ⟨now, foundLater, keptLater⟩ := late between (List.mem_of_find?_eq_some found)
  exact ⟨now, sameId ▸ foundLater, kept.trans keptLater⟩

/-! ## The repository suites -/

/-- The metric of a scanner's suite under its ID. -/
def suiteCoverage (rounding : Rounding) (evidence : CIRepositorySuiteScannerCoverage) :
    CICoverageEvidence :=
  ⟨suiteMetricId evidence.scanner, repositorySuiteMetric rounding evidence⟩

theorem length_toString_le {count : ℕ} (bounded : count ≤ 10000) : (toString count).length ≤ 5 := by
  change (Nat.repr count).length ≤ 5
  rw [Nat.length_repr_le_iff (by omega)]
  omega

theorem eq_of_between_eq {before after text other : String}
    (same : before ++ text ++ after = before ++ other ++ after) : text = other :=
  (String.append_right_inj _).mp ((String.append_left_inj _).mp same)

theorem suiteMetricId_injective {scanner other : String}
    (same : suiteMetricId scanner = suiteMetricId other) : scanner = other := by
  unfold suiteMetricId at same
  exact eq_of_between_eq same

theorem length_repositorySuiteMetric_detail (rounding : Rounding)
    {evidence : CIRepositorySuiteScannerCoverage}
    (known : ∃ framework : RepositorySuiteFramework, evidence.scanner = framework.scanner) :
    0 < (repositorySuiteMetric rounding evidence).detail.length ∧
      (repositorySuiteMetric rounding evidence).detail.length ≤ 1000 := by
  have selectedLe : evidence.selectedTestCount ≤ 10000 := evidence.selected_bounded
  have executedText := length_toString_le (evidence.executed_le.trans selectedLe)
  have selectedText := length_toString_le selectedLe
  have scannerText : evidence.scanner.length ≤ 12 := by
    obtain ⟨framework, same⟩ := known
    rw [same]
    cases framework <;> decide
  have words : " executed ".length = 10 ∧ " of ".length = 4 ∧
      " selected repository tests.".length = 27 := by decide
  simp only [repositorySuiteMetric, String.length_append]
  omega

theorem validate_repositorySuiteMetric (rounding : Rounding)
    {evidence : CIRepositorySuiteScannerCoverage}
    (known : ∃ framework : RepositorySuiteFramework, evidence.scanner = framework.scanner) :
    CoverageMetric.validate rounding (repositorySuiteMetric rounding evidence) =
      .ok (repositorySuiteMetric rounding evidence) := by
  have executedLe := evidence.executed_le
  have bounds := rounding.bounds _ _ executedLe
  obtain ⟨nonempty, short⟩ := length_repositorySuiteMetric_detail rounding known
  have worded : (repositorySuiteMetric rounding evidence).detail.isEmpty = false := by
    rw [Bool.eq_false_iff, ne_eq, String.isEmpty_iff]
    intro empty
    rw [empty] at nonempty
    simp at nonempty
  rw [CoverageMetric.validate]
  simp only [Fallible.guard_eq_ok_iff]
  refine ⟨?percentage, ?confidence, ?provenance, ?detail, ?numerator, ?population, ?exact,
    ?exclusions, ?sources, ?failures⟩
  case percentage =>
    by_cases empty : evidence.selectedTestCount = 0
    · simp [repositorySuiteMetric, empty]
    · simp [repositorySuiteMetric, empty, bounds.1, bounds.2]
  case detail => simpa [worded] using short
  case numerator => simpa [repositorySuiteMetric] using executedLe
  case failures =>
    by_cases empty : evidence.selectedTestCount = 0
    · simp [repositorySuiteMetric, empty]
    · rw [if_pos (show (repositorySuiteMetric rounding evidence).denominator ≠ 0 from empty),
        Fallible.guard_eq_ok_iff, Fallible.guard_eq_ok_iff]
      refine ⟨by simp [repositorySuiteMetric], ?_, rfl⟩
      rintro ⟨fewer, unexplained⟩
      have incomplete : evidence.executedTestCount ≠ evidence.selectedTestCount := fewer.ne
      have explained : (repositorySuiteMetric rounding evidence).failures =
          ["repository-suite execution did not cover every selected test"] := by
        simp [repositorySuiteMetric, empty, incomplete]
      rw [explained] at unexplained
      cases unexplained
  all_goals simp [repositorySuiteMetric]

theorem repositorySuiteCoverageMetric_eq (rounding : Rounding)
    {evidence : CIRepositorySuiteScannerCoverage}
    (known : ∃ framework : RepositorySuiteFramework, evidence.scanner = framework.scanner) :
    repositorySuiteCoverageMetric rounding evidence = .ok (suiteCoverage rounding evidence) := by
  rw [repositorySuiteCoverageMetric,
    Fallible.bind_of_ok (validate_repositorySuiteMetric rounding known), ciCoverageEvidence, if_pos]
  · rfl
  · obtain ⟨framework, same⟩ := known
    rw [same]
    cases framework <;> decide

/-- Every suite of the baseline is still observed, with its metric kept and none of its selected
or executed tests removed. -/
def SuiteKept (rounding : Rounding) (baseline current : CIRepositorySuiteEvidence) : Prop :=
  ∀ prior ∈ baseline.scannerCoverage, ∃ observed,
    current.scannerCoverage.find? (·.scanner = prior.scanner) = some observed ∧
      (repositorySuiteMetric rounding prior).Keeps (repositorySuiteMetric rounding observed) ∧
      prior.selectedDescriptorSha256s ⊆ observed.selectedDescriptorSha256s ∧
      prior.executedDescriptorSha256s ⊆ observed.executedDescriptorSha256s

theorem find?_scanner_of_mem {suite : CIRepositorySuiteEvidence}
    {evidence : CIRepositorySuiteScannerCoverage} (member : evidence ∈ suite.scannerCoverage) :
    suite.scannerCoverage.find? (·.scanner = evidence.scanner) = some evidence :=
  find?_key_of_mem _ suite.scanners_sorted member

theorem SuiteKept.refl (rounding : Rounding) (suite : CIRepositorySuiteEvidence) :
    SuiteKept rounding suite suite :=
  fun evidence member =>
    ⟨evidence, find?_scanner_of_mem member, .refl _, fun _ listed => listed, fun _ listed => listed⟩

theorem SuiteKept.trans {rounding : Rounding} {first second third : CIRepositorySuiteEvidence}
    (early : SuiteKept rounding first second) (late : SuiteKept rounding second third) :
    SuiteKept rounding first third := by
  intro prior member
  obtain ⟨between, found, kept, selected, executed⟩ := early prior member
  have sameScanner : between.scanner = prior.scanner := by simpa using List.find?_some found
  obtain ⟨observed, foundLater, keptLater, selectedLater, executedLater⟩ :=
    late between (List.mem_of_find?_eq_some found)
  exact ⟨observed, sameScanner ▸ foundLater, kept.trans keptLater,
    fun test listed => selectedLater (selected listed),
    fun test listed => executedLater (executed listed)⟩

theorem find?_map_suiteCoverage (rounding : Rounding)
    (coverage : List CIRepositorySuiteScannerCoverage) (scanner : String) :
    (coverage.map (suiteCoverage rounding)).find? (·.metricId = suiteMetricId scanner) =
      (coverage.find? (·.scanner = scanner)).map (suiteCoverage rounding) := by
  rw [List.find?_map]
  congr 2
  funext evidence
  change decide (suiteMetricId evidence.scanner = suiteMetricId scanner) =
    decide (evidence.scanner = scanner)
  rw [decide_eq_decide]
  exact ⟨suiteMetricId_injective, congrArg suiteMetricId⟩

theorem coverageKept_iff (rounding : Rounding) (baseline current : CIRepositorySuiteEvidence) :
    CoverageKept (baseline.scannerCoverage.map (suiteCoverage rounding))
        (current.scannerCoverage.map (suiteCoverage rounding)) ↔
      ∀ prior ∈ baseline.scannerCoverage, ∃ observed,
        current.scannerCoverage.find? (·.scanner = prior.scanner) = some observed ∧
          (repositorySuiteMetric rounding prior).Keeps
            (repositorySuiteMetric rounding observed) := by
  rw [CoverageKept, List.forall_mem_map]
  apply forall₂_congr
  intro prior _
  change (∃ now, (current.scannerCoverage.map (suiteCoverage rounding)).find?
    (·.metricId = suiteMetricId prior.scanner) = some now ∧ _) ↔ _
  rw [find?_map_suiteCoverage]
  simp only [Option.map_eq_some_iff]
  constructor
  · rintro ⟨_, ⟨observed, found, rfl⟩, kept⟩
    exact ⟨observed, found, kept⟩
  · rintro ⟨observed, found, kept⟩
    exact ⟨_, ⟨observed, found, rfl⟩, kept⟩

/-- What holds of the regressions after the scanners `done` of the baseline. -/
structure SuiteProgress (rounding : Rounding) (current baseline : CIRepositorySuiteEvidence)
    (done : List CIRepositorySuiteScannerCoverage)
    (regressions : Dict String CICoverageRegression) : Prop where
  keyed : ∀ key regression, regressions.get? key = some regression → regression.metricId = key
  known : ∀ key regression, regressions.get? key = some regression →
    ∃ prior ∈ baseline.scannerCoverage, key = suiteMetricId prior.scanner
  clean : (∀ key, regressions.get? key = none) ↔
    CoverageKept (baseline.scannerCoverage.map (suiteCoverage rounding))
        (current.scannerCoverage.map (suiteCoverage rounding)) ∧
      ∀ prior ∈ done, ∀ observed,
        current.scannerCoverage.find? (·.scanner = prior.scanner) = some observed →
          prior.selectedDescriptorSha256s ⊆ observed.selectedDescriptorSha256s ∧
          prior.executedDescriptorSha256s ⊆ observed.executedDescriptorSha256s

theorem mem_coverageRegressions {current baseline : List CICoverageEvidence}
    {regression : CICoverageRegression} :
    regression ∈ coverageRegressions current baseline ↔
      ∃ prior ∈ baseline, metricRegression current prior = some regression := by
  rw [coverageRegressions, sortRegressions, List.mem_insertionSort, List.mem_filterMap]

/-- A key is assigned exactly when one of the assigned regressions has it. -/
theorem get?_foldl_insert_metricId {regressions : List CICoverageRegression}
    {start : Dict String CICoverageRegression} {key : String}
    {regression : CICoverageRegression}
    (found : (regressions.foldl (fun dict regression => dict.insert regression.metricId regression)
      start).get? key = some regression) :
    start.get? key = some regression ∨ regression ∈ regressions ∧ regression.metricId = key := by
  induction regressions generalizing start with
  | nil => exact .inl found
  | cons head rest ih =>
      rcases ih found with before | ⟨member, same⟩
      · rw [Dict.get?_insert] at before
        split at before
        · obtain rfl := Option.some.inj before
          rename_i same
          exact .inr ⟨List.mem_cons_self, same.symm⟩
        · exact .inl before
      · exact .inr ⟨List.mem_cons_of_mem _ member, same⟩

theorem foldl_insert_clean {regressions : List CICoverageRegression}
    {start : Dict String CICoverageRegression}
    (clean : ∀ key, (regressions.foldl
      (fun dict regression => dict.insert regression.metricId regression) start).get? key = none) :
    regressions = [] ∧ ∀ key, start.get? key = none := by
  induction regressions generalizing start with
  | nil => exact ⟨rfl, clean⟩
  | cons head rest ih =>
      obtain ⟨-, before⟩ := ih clean
      have assigned := before head.metricId
      rw [Dict.get?_insert_self] at assigned
      cases assigned

theorem SuiteProgress.start (rounding : Rounding) (current baseline : CIRepositorySuiteEvidence) :
    SuiteProgress rounding current baseline []
      ((coverageRegressions (current.scannerCoverage.map (suiteCoverage rounding))
        (baseline.scannerCoverage.map (suiteCoverage rounding))).foldl
          (fun dict regression => dict.insert regression.metricId regression) Dict.empty) where
  keyed := by
    intro key regression found
    rcases get?_foldl_insert_metricId found with impossible | ⟨-, same⟩
    · cases impossible
    · exact same
  known := by
    intro key regression found
    rcases get?_foldl_insert_metricId found with impossible | ⟨member, same⟩
    · cases impossible
    · obtain ⟨prior, listed, regressed⟩ := mem_coverageRegressions.mp member
      obtain ⟨evidence, member, rfl⟩ := List.mem_map.mp listed
      exact ⟨evidence, member, same ▸ metricId_of_metricRegression regressed⟩
  clean := by
    rw [← coverageRegressions_eq_nil_iff]
    constructor
    · intro clean
      exact ⟨(foldl_insert_clean clean).1, fun _ impossible => nomatch impossible⟩
    · rintro ⟨none, -⟩ key
      rw [none]
      rfl

theorem any_not_contains_eq_false_iff {tests others : List String} :
    (tests.any (!others.contains ·)) = false ↔ tests ⊆ others := by
  rw [List.any_eq_false]
  simp only [Bool.not_eq_true', Bool.not_eq_false, List.contains_iff_mem]
  exact Iff.rfl

theorem suiteReasons_eq_nil_iff {regressions : Dict String CICoverageRegression}
    {prior observed : CIRepositorySuiteScannerCoverage} :
    suiteReasons regressions prior observed = [] ↔
      ((regressions.get? (suiteMetricId prior.scanner)).map (·.reasons)).getD [] = [] ∧
        prior.selectedDescriptorSha256s ⊆ observed.selectedDescriptorSha256s ∧
        prior.executedDescriptorSha256s ⊆ observed.executedDescriptorSha256s := by
  rw [suiteReasons, sortedSet_eq_nil_iff, List.append_eq_nil_iff, List.append_eq_nil_iff,
    ← any_not_contains_eq_false_iff, ← any_not_contains_eq_false_iff]
  simp only [ite_eq_right_iff, List.cons_ne_nil, imp_false, Bool.not_eq_true, and_assoc]

/-- One scanner of the baseline keeps the progress. -/
theorem SuiteProgress.step {rounding : Rounding} {current baseline : CIRepositorySuiteEvidence}
    {done : List CIRepositorySuiteScannerCoverage} {prior : CIRepositorySuiteScannerCoverage}
    {regressions : Dict String CICoverageRegression} (member : prior ∈ baseline.scannerCoverage)
    (progress : SuiteProgress rounding current baseline done regressions) :
    ∃ next, suiteRegressionStep current (current.scannerCoverage.map (suiteCoverage rounding))
        (baseline.scannerCoverage.map (suiteCoverage rounding)) regressions prior = .ok next ∧
      SuiteProgress rounding current baseline (done ++ [prior]) next := by
  rw [suiteRegressionStep]
  cases found : current.scannerCoverage.find? (·.scanner = prior.scanner) with
  | none =>
      refine ⟨regressions, rfl, progress.keyed, progress.known, ?_⟩
      rw [progress.clean, List.forall_mem_append, List.forall_mem_singleton, found]
      simp
  | some observed =>
      dsimp only
      by_cases noReasons : (suiteReasons regressions prior observed).isEmpty
      · rw [if_pos noReasons]
        obtain ⟨-, selected, executed⟩ := suiteReasons_eq_nil_iff.mp (List.isEmpty_iff.mp noReasons)
        refine ⟨regressions, rfl, progress.keyed, progress.known, ?_⟩
        rw [progress.clean, List.forall_mem_append, List.forall_mem_singleton, found]
        simp [selected, executed]
      · have present : (baseline.scannerCoverage.map (suiteCoverage rounding)).find?
            (·.metricId = suiteMetricId prior.scanner) = some (suiteCoverage rounding prior) := by
          rw [find?_map_suiteCoverage, find?_scanner_of_mem member, Option.map_some]
        rw [if_neg noReasons, present]
        refine ⟨_, rfl, ?keyed, ?known, ?clean⟩
        case keyed =>
          intro key regression stored
          rw [Dict.get?_insert] at stored
          split at stored
          · obtain rfl := Option.some.inj stored
            rename_i same
            exact same.symm
          · exact progress.keyed key regression stored
        case known =>
          intro key regression stored
          rw [Dict.get?_insert] at stored
          split at stored
          · rename_i same
            exact ⟨prior, member, same⟩
          · exact progress.known key regression stored
        case clean =>
          constructor
          · intro clean
            have assigned := clean (suiteMetricId prior.scanner)
            rw [Dict.get?_insert_self] at assigned
            cases assigned
          · rintro ⟨kept, subsets⟩
            -- Without earlier regressions the reasons are removed tests.
            have clean := progress.clean.mpr
              ⟨kept, fun earlier listed => subsets earlier (List.mem_append_left _ listed)⟩
            have noReason := suiteReasons_eq_nil_iff.mpr ⟨by rw [clean]; rfl,
              subsets prior (List.mem_append_right _ List.mem_cons_self) observed found⟩
            exact absurd (List.isEmpty_iff.mpr noReason) noReasons

/-- The regressions of the suites: there are none exactly when the suites are kept. -/
theorem exists_repositorySuiteCoverageRegressions (rounding : Rounding)
    (current baseline : CIRepositorySuiteEvidence) :
    ∃ regressions,
      repositorySuiteCoverageRegressions rounding current baseline = .ok regressions ∧
        (regressions.map (·.metricId)).Nodup ∧
        (∀ regression ∈ regressions, ∃ prior ∈ baseline.scannerCoverage,
          regression.metricId = suiteMetricId prior.scanner) ∧
        (regressions = [] ↔ SuiteKept rounding baseline current) := by
  have metrics : ∀ suite : CIRepositorySuiteEvidence,
      suite.scannerCoverage.mapM (repositorySuiteCoverageMetric rounding) =
        .ok (suite.scannerCoverage.map (suiteCoverage rounding)) := by
    intro suite
    rw [Fallible.mapM_eq_ok_iff, List.map_map]
    apply List.map_congr_left
    intro evidence member
    exact repositorySuiteCoverageMetric_eq rounding (suite.scanners_known evidence member)
  obtain ⟨final, finished, progress⟩ := Fallible.exists_foldlM_of_invariant
    (suiteRegressionStep current (current.scannerCoverage.map (suiteCoverage rounding))
      (baseline.scannerCoverage.map (suiteCoverage rounding))) _
    (SuiteProgress rounding current baseline) baseline.scannerCoverage
    (.start rounding current baseline)
    (fun done prior rest state split progress => progress.step (by simp [← split]))
  have ids : final.values.map (·.metricId) = final.keys := by
    rw [Dict.values, Dict.keys, List.map_map]
    apply List.map_congr_left
    intro item member
    exact progress.keyed item.1 item.2 ((Dict.get?_eq_some_iff final item.1 item.2).mpr member)
  refine ⟨sortRegressions final.values, ?_, ?_, ?_, ?_⟩
  · rw [repositorySuiteCoverageRegressions, Fallible.bind_of_ok (metrics current),
      Fallible.bind_of_ok (metrics baseline)]
    dsimp only
    rw [Fallible.bind_of_ok finished]
    rfl
  · have sorted := (List.perm_insertionSort
      (fun regression other : CICoverageRegression => regression.metricId ≤ other.metricId)
      final.values).map (·.metricId)
    rw [sortRegressions, sorted.nodup_iff, ids]
    exact final.nodup
  · intro regression listed
    rw [sortRegressions, List.mem_insertionSort] at listed
    obtain ⟨item, member, rfl⟩ := List.mem_map.mp listed
    have stored := (Dict.get?_eq_some_iff final item.1 item.2).mpr member
    obtain ⟨prior, listed, same⟩ := progress.known item.1 item.2 stored
    exact ⟨prior, listed, (progress.keyed item.1 item.2 stored).trans same⟩
  · have noKeys : final.values = [] ↔ ∀ key, final.get? key = none := by
      rw [Dict.values, List.map_eq_nil_iff]
      constructor
      · intro empty key
        rw [Dict.get?, empty]
        rfl
      · intro clean
        rw [List.eq_nil_iff_forall_not_mem]
        intro item member
        have stored := (Dict.get?_eq_some_iff final item.1 item.2).mpr member
        rw [clean item.1] at stored
        cases stored
    rw [sortRegressions_eq_nil_iff, noKeys, progress.clean, coverageKept_iff]
    constructor
    · rintro ⟨kept, subsets⟩ prior member
      obtain ⟨observed, found, keptMetric⟩ := kept prior member
      exact ⟨observed, found, keptMetric, subsets prior member observed found⟩
    · intro kept
      constructor
      · intro prior member
        obtain ⟨observed, found, keptMetric, -⟩ := kept prior member
        exact ⟨observed, found, keptMetric⟩
      · intro prior member observed found
        obtain ⟨same, foundSame, -, subsets⟩ := kept prior member
        obtain rfl := Option.some.inj (found.symm.trans foundSame)
        exact subsets

end Ci

end MmAudit
