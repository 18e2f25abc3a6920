import MmAudit.Formal.Campaigns

/-!
# What the outcomes of a campaign rest on

A clean exit is a success before the output is looked at, so the comparison counts a property
that the engine said nothing about as free of counterexamples.  Every other way to that outcome
rests on a passing result.
-/

namespace MmAudit

namespace Formal

open Backtracking SortedSets

variable (texts : Texts) (engine : FuzzEngine) (translation : PropertyEngineTranslation)
variable (corpusHash stdout stderr : List Char) (result : ProcessResult)

/-! ## Results in the output -/

/-- A generated function of the property. -/
def Generates (generated propertyId : List Char) : Prop :=
  ∃ propertySpec, translation.propertyMap.get? generated = some propertySpec ∧
    propertySpec.id = propertyId

/-- A JSON object of the output gives this result for a generated function. -/
def NamesResult (generated : List Char) (outcome : ResultOutcome) : Prop :=
  ∃ item ∈ walkedDicts (payloads texts stdout stderr),
    propertyResult texts engine item = some (generated, outcome)

/-- An output without JSON results has a line in which the function fails. -/
def NamesTextualFailure (generated : List Char) : Prop :=
  (∀ item ∈ walkedDicts (payloads texts stdout stderr), propertyResult texts engine item = none) ∧
    generated ∈ (findAll failurePattern (combined stdout stderr)).map Prod.fst

/-- The output has a passing result for the property. -/
def ReportsPassing (propertyId : List Char) : Prop :=
  ∃ generated, Generates translation generated propertyId ∧
    NamesResult texts engine stdout stderr generated .passed

/-- The output has a failing result for the property. -/
def ReportsFailing (propertyId : List Char) : Prop :=
  ∃ generated, Generates translation generated propertyId ∧
    (NamesResult texts engine stdout stderr generated .counterexample ∨
      NamesTextualFailure texts engine stdout stderr generated)

/-- Outcomes without a counterexample rest on a passing result, and a property without any
result is inconclusive. -/
def NeverOverclaims (runs : List FormalToolRun) : Prop :=
  ∀ comparison ∈ compareDynamicEngineOutcomes runs,
    ((engine.name, .noCounterexample) ∈ comparison.outcomes →
      ReportsPassing texts engine translation stdout stderr comparison.propertyId ∧
        ¬ReportsFailing texts engine translation stdout stderr comparison.propertyId) ∧
    (comparison.propertyId ∈ translation.executedPropertyIds →
      ¬ReportsPassing texts engine translation stdout stderr comparison.propertyId →
      ¬ReportsFailing texts engine translation stdout stderr comparison.propertyId →
      (engine.name, .inconclusive) ∈ comparison.outcomes)

/-! ## The evidence of a parse -/

section Parsing

variable {texts engine translation corpusHash stdout stderr result}

/-- The kind of evidence that an outcome becomes. -/
def ResultOutcome.kind : ResultOutcome → FormalResultKind
  | .passed => .none
  | .counterexample => .counterexample

theorem ResultOutcome.kind_injective : Function.Injective ResultOutcome.kind := by
  intro first second same
  cases first <;> cases second <;> first | rfl | cases same

theorem resultEvidence_propertyId (item : Json.Fields) (name : List Char)
    (outcome : ResultOutcome) :
    (resultEvidence texts engine item name outcome).propertyId = name := by
  cases outcome <;> rfl

theorem resultEvidence_resultKind (item : Json.Fields) (name : List Char)
    (outcome : ResultOutcome) :
    (resultEvidence texts engine item name outcome).resultKind = outcome.kind := by
  cases outcome <;> rfl

/-- The evidence tells this about the property that it names. -/
def Tells (name : List Char) (outcome : ResultOutcome) (evidence : FormalEvidence) : Prop :=
  evidence.propertyId = name ∧ evidence.resultKind = outcome.kind

theorem tells_resultEvidence_iff {item : Json.Fields} {key : List Char × ResultOutcome}
    {name : List Char} {outcome : ResultOutcome} :
    Tells name outcome (resultEvidence texts engine item key.1 key.2) ↔ key = (name, outcome) := by
  rw [Tells, resultEvidence_propertyId, resultEvidence_resultKind, Prod.ext_iff]
  exact and_congr_right fun _ => ResultOutcome.kind_injective.eq_iff

/-- The loop keeps the results that it has not seen yet. -/
theorem exists_mem_resultLoop_iff {items : List Json.Fields}
    {seen : List (List Char × ResultOutcome)} {name : List Char} {outcome : ResultOutcome} :
    (∃ evidence ∈ resultLoop texts engine items seen, Tells name outcome evidence) ↔
      (name, outcome) ∉ seen ∧
        ∃ item ∈ items, propertyResult texts engine item = some (name, outcome) := by
  induction items generalizing seen with
  | nil => simp [resultLoop]
  | cons item items ih =>
      rw [resultLoop]
      simp only [List.exists_mem_cons_iff]
      cases read : propertyResult texts engine item with
      | none =>
          rw [ih]
          simp
      | some key =>
          by_cases known : key ∈ seen
          · simp only [known, if_true, Option.some.injEq]
            rw [ih]
            refine and_congr_right fun fresh => ⟨Or.inr, ?_⟩
            rintro (rfl | later)
            · exact absurd known fresh
            · exact later
          · simp only [known, if_false, List.exists_mem_cons_iff, Option.some.injEq]
            rw [ih, tells_resultEvidence_iff, List.mem_cons, not_or]
            constructor
            · rintro (rfl | ⟨⟨differs, fresh⟩, later⟩)
              · exact ⟨known, .inl rfl⟩
              · exact ⟨fresh, .inr later⟩
            · rintro ⟨fresh, same | later⟩
              · exact .inl same
              · by_cases same : key = (name, outcome)
                · exact .inl same
                · exact .inr ⟨⟨Ne.symm same, fresh⟩, later⟩

/-- All evidence of the loop tells something. -/
theorem exists_tells_of_mem_resultLoop {items : List Json.Fields}
    {seen : List (List Char × ResultOutcome)} {evidence : FormalEvidence}
    (member : evidence ∈ resultLoop texts engine items seen) :
    ∃ outcome, Tells evidence.propertyId outcome evidence := by
  induction items generalizing seen with
  | nil => cases member
  | cons item items ih =>
      rw [resultLoop] at member
      cases read : propertyResult texts engine item with
      | none =>
          rw [read] at member
          exact ih member
      | some key =>
          rw [read] at member
          by_cases known : key ∈ seen
          · simp only [known, if_true] at member
            exact ih member
          · simp only [known, if_false, List.mem_cons] at member
            rcases member with rfl | later
            · exact ⟨key.2, rfl, resultEvidence_resultKind ..⟩
            · exact ih later

theorem tells_of_mem_parseTextual {evidence : FormalEvidence}
    (member : evidence ∈ parseTextual engine.name stdout stderr) :
    Tells evidence.propertyId .counterexample evidence ∧
      evidence.propertyId ∈ (findAll failurePattern (combined stdout stderr)).map Prod.fst := by
  obtain ⟨found, foundMem, rfl⟩ := List.mem_map.mp member
  exact ⟨⟨rfl, rfl⟩, List.mem_map_of_mem foundMem⟩

/-- What a parse tells is what the output tells. -/
theorem exists_mem_parse_iff {name : List Char} {outcome : ResultOutcome} :
    (∃ evidence ∈ parse texts engine stdout stderr, Tells name outcome evidence) ↔
      NamesResult texts engine stdout stderr name outcome ∨
        outcome = .counterexample ∧ NamesTextualFailure texts engine stdout stderr name := by
  have looped : ∀ name outcome, (∃ evidence ∈ resultLoop texts engine
      (walkedDicts (payloads texts stdout stderr)) [], Tells name outcome evidence) ↔
        NamesResult texts engine stdout stderr name outcome := fun name outcome => by
    rw [exists_mem_resultLoop_iff, NamesResult, and_iff_right List.not_mem_nil]
  rw [parse]
  cases found : resultLoop texts engine (walkedDicts (payloads texts stdout stderr)) [] with
  | nil =>
      have noResult : ∀ name outcome, ¬NamesResult texts engine stdout stderr name outcome := by
        intro name outcome named
        obtain ⟨evidence, member, -⟩ := (looped name outcome).mpr named
        rw [found] at member
        cases member
      have silent : ∀ item ∈ walkedDicts (payloads texts stdout stderr),
          propertyResult texts engine item = none := by
        intro item member
        cases read : propertyResult texts engine item with
        | none => rfl
        | some key => exact absurd ⟨item, member, read⟩ (noResult key.1 key.2)
      rw [or_iff_right (noResult name outcome)]
      constructor
      · rintro ⟨evidence, member, rfl, kind⟩
        obtain ⟨⟨-, failing⟩, named⟩ := tells_of_mem_parseTextual member
        exact ⟨ResultOutcome.kind_injective (kind.symm.trans failing), silent, named⟩
      · rintro ⟨rfl, -, named⟩
        obtain ⟨match_, matchMem, rfl⟩ := List.mem_map.mp named
        exact ⟨_, List.mem_map_of_mem matchMem, rfl, rfl⟩
  | cons first others =>
      rw [found] at looped
      rw [looped, or_iff_left]
      rintro ⟨-, silent, -⟩
      obtain ⟨outcome, tells⟩ := exists_tells_of_mem_resultLoop (by rw [found]; exact .head _)
      obtain ⟨item, itemMem, read⟩ := (looped _ _).mp ⟨first, .head _, tells⟩
      rw [silent item itemMem] at read
      cases read

/-! ## The evidence of a run -/

/-- Evidence about a property of the corpus is evidence about a function generated for it. -/
theorem exists_mem_remap_iff {evidence : List FormalEvidence} {propertyId : List Char}
    {outcome : ResultOutcome} :
    (∃ item ∈ remapPropertyEngineEvidence evidence translation corpusHash,
      Tells propertyId outcome item) ↔
        ∃ generated, Generates translation generated propertyId ∧
          ∃ item ∈ evidence, Tells generated outcome item := by
  constructor
  · rintro ⟨mapped, member, rfl, kind⟩
    obtain ⟨item, itemMem, read⟩ := List.mem_filterMap.mp member
    obtain ⟨propertySpec, found, rfl⟩ := Option.map_eq_some_iff.mp read
    exact ⟨item.propertyId, ⟨propertySpec, found, rfl⟩, item, itemMem, rfl, kind⟩
  · rintro ⟨generated, ⟨propertySpec, found, rfl⟩, item, itemMem, rfl, kind⟩
    exact ⟨remapped translation corpusHash item propertySpec,
      List.mem_filterMap.mpr ⟨item, itemMem, by rw [found]; rfl⟩, rfl, kind⟩

theorem items_ne_nil_of_mem_executed {propertyId : List Char}
    (executed : propertyId ∈ translation.executedPropertyIds) :
    translation.propertyMap.items ≠ [] := by
  intro nothing
  rw [PropertyEngineTranslation.executedPropertyIds, List.mem_insertionSort, Dict.values,
    nothing] at executed
  cases executed

/-- Assumptions that are added change nothing that the evidence tells. -/
theorem exists_mem_runEvidence_iff {propertyId : List Char} {outcome : ResultOutcome}
    (executed : propertyId ∈ translation.executedPropertyIds) {code : ℤ} :
    (∃ item ∈ runEvidence texts engine translation corpusHash (.exited code) stdout stderr,
      Tells propertyId outcome item) ↔
        ∃ generated, Generates translation generated propertyId ∧
          (NamesResult texts engine stdout stderr generated outcome ∨
            outcome = .counterexample ∧
              NamesTextualFailure texts engine stdout stderr generated) := by
  have evidence : runEvidence texts engine translation corpusHash (.exited code) stdout stderr =
      if translation.assumptions = [] then
        remapPropertyEngineEvidence (parse texts engine stdout stderr) translation corpusHash
      else
        (remapPropertyEngineEvidence (parse texts engine stdout stderr) translation
          corpusHash).map fun item => { item with
            assumptions := sortedSet (item.assumptions ++ translation.assumptions) } := by
    rw [runEvidence]
    simp only [items_ne_nil_of_mem_executed executed, if_false]
    by_cases zero : code = 0 <;> simp only [ProcessResult.status, zero, if_true, if_false]
  have mapped : (∃ item ∈ remapPropertyEngineEvidence (parse texts engine stdout stderr)
      translation corpusHash, Tells propertyId outcome item) ↔ _ := exists_mem_remap_iff
  simp only [exists_mem_parse_iff] at mapped
  rw [← mapped, evidence]
  by_cases none : translation.assumptions = []
  · rw [if_pos none]
  · rw [if_neg none]
    simp only [List.mem_map, exists_exists_and_eq_and, Tells]

/-- A run whose process did not exit keeps no evidence. -/
theorem runEvidence_eq_nil (stopped : result.exitCode? = none) :
    runEvidence texts engine translation corpusHash result stdout stderr = [] := by
  cases result with
  | exited code => cases stopped
  | timedOut => simp [runEvidence, ProcessResult.status, remapPropertyEngineEvidence]
  | outputExceeded => simp [runEvidence, ProcessResult.status, remapPropertyEngineEvidence]

theorem exists_counterexample_iff {propertyId : List Char}
    (executed : propertyId ∈ translation.executedPropertyIds) {code : ℤ} :
    (∃ item ∈ runEvidence texts engine translation corpusHash (.exited code) stdout stderr,
      Tells propertyId .counterexample item) ↔
        ReportsFailing texts engine translation stdout stderr propertyId := by
  rw [exists_mem_runEvidence_iff executed]
  simp only [true_and]
  rfl

theorem exists_passed_iff {propertyId : List Char}
    (executed : propertyId ∈ translation.executedPropertyIds) {code : ℤ} :
    (∃ item ∈ runEvidence texts engine translation corpusHash (.exited code) stdout stderr,
      Tells propertyId .passed item) ↔
        ReportsPassing texts engine translation stdout stderr propertyId := by
  rw [exists_mem_runEvidence_iff executed]
  simp only [reduceCtorEq, false_and, or_false]
  rfl

/-- Without a failing result there is no evidence of one, however the process ended. -/
theorem no_counterexample_of_not_failing {propertyId : List Char}
    (executed : propertyId ∈ translation.executedPropertyIds)
    (notFailing : ¬ReportsFailing texts engine translation stdout stderr propertyId) :
    ¬∃ item ∈ (runAdapter texts engine translation corpusHash result stdout stderr).evidence,
      Tells propertyId .counterexample item := by
  change ¬∃ item ∈ runEvidence texts engine translation corpusHash result stdout stderr, _
  cases exits : result.exitCode? with
  | none =>
      rw [runEvidence_eq_nil exits]
      rintro ⟨item, member, -⟩
      cases member
  | some code =>
      cases result with
      | exited code => exact mt (exists_counterexample_iff executed).mp notFailing
      | timedOut => cases exits
      | outputExceeded => cases exits

/-! ## The status of a run -/

/-- A run that counts as complete has evidence about every property. -/
theorem exists_tells_of_complete {executed : List (List Char)} {validated : Bool}
    {evidence : List FormalEvidence}
    (complete : observationComplete executed
      (sortedSet ((evidence.map (·.propertyId)).filter (· ∈ executed))) validated result evidence =
        true) {propertyId : List Char} (member : propertyId ∈ executed) :
    ∃ item ∈ evidence, ∃ outcome, Tells propertyId outcome item := by
  rw [observationComplete, Bool.and_eq_true, Bool.and_eq_true, Bool.and_eq_true] at complete
  obtain ⟨⟨⟨-, observed⟩, -⟩, kinds⟩ := complete
  rw [← of_decide_eq_true observed, mem_sortedSet, List.mem_filter] at member
  obtain ⟨item, itemMem, rfl⟩ := List.mem_map.mp member.1
  have kind := List.all_eq_true.mp kinds item itemMem
  simp only [Bool.and_eq_true, Bool.or_eq_true, decide_eq_true_eq] at kind
  rcases kind.2 with passed | failed
  · exact ⟨item, itemMem, .passed, rfl, passed⟩
  · exact ⟨item, itemMem, .counterexample, rfl, failed⟩

/-- A success is a clean exit, or rests on a result for every property. -/
theorem status_runAdapter_cases
    (succeeded : (runAdapter texts engine translation corpusHash result stdout stderr).status =
      .success) :
    ∃ code, result = .exited code ∧ (code = 0 ∨
      ∀ propertyId ∈ translation.executedPropertyIds,
        ReportsPassing texts engine translation stdout stderr propertyId ∨
          ReportsFailing texts engine translation stdout stderr propertyId) := by
  rw [runAdapter] at succeeded
  dsimp only at succeeded
  split at succeeded
  case isTrue complete =>
    cases result with
    | timedOut => simp [observationComplete, ProcessResult.exitCode?] at complete
    | outputExceeded => simp [observationComplete, ProcessResult.exitCode?] at complete
    | exited code =>
        refine ⟨code, rfl, .inr fun propertyId executed => ?_⟩
        obtain ⟨item, itemMem, outcome, tells⟩ := exists_tells_of_complete complete executed
        cases outcome with
        | passed => exact .inl ((exists_passed_iff executed).mp ⟨item, itemMem, tells⟩)
        | counterexample =>
            exact .inr ((exists_counterexample_iff executed).mp ⟨item, itemMem, tells⟩)
  case isFalse =>
    cases result with
    | timedOut => cases succeeded
    | outputExceeded => cases succeeded
    | exited code =>
        refine ⟨code, rfl, .inl ?_⟩
        by_contra nonzero
        simp [ProcessResult.status, nonzero] at succeeded

theorem status_runAdapter_of_clean :
    (runAdapter texts engine translation corpusHash (.exited 0) stdout stderr).status =
      .success := by
  rw [runAdapter]
  exact ite_self _

/-! ## The comparison -/

theorem any_counterexample_iff (run : FormalToolRun) (propertyId : List Char) :
    (run.evidence.any fun evidence =>
      evidence.propertyId = propertyId && evidence.resultKind = .counterexample) = true ↔
        ∃ item ∈ run.evidence, Tells propertyId .counterexample item := by
  rw [List.any_eq_true]
  simp only [Bool.and_eq_true, decide_eq_true_eq, Tells, ResultOutcome.kind]

theorem dynamicOutcome_of_free (run : FormalToolRun) {propertyId : List Char}
    (executed : propertyId ∈ run.executedPropertyIds)
    (free : ¬∃ item ∈ run.evidence, Tells propertyId .counterexample item) :
    dynamicOutcome (some run) propertyId =
      if run.status = .success then .noCounterexample else .inconclusive := by
  rw [dynamicOutcome]
  simp only [executed, not_true_eq_false, if_false]
  rw [if_neg (mt (any_counterexample_iff run propertyId).mp free)]

theorem of_dynamicOutcome_eq_noCounterexample {run : FormalToolRun} {propertyId : List Char}
    (outcome : dynamicOutcome (some run) propertyId = .noCounterexample) :
    propertyId ∈ run.executedPropertyIds ∧ run.status = .success ∧
      ¬∃ item ∈ run.evidence, Tells propertyId .counterexample item := by
  by_cases executed : propertyId ∈ run.executedPropertyIds
  · by_cases failed : ∃ item ∈ run.evidence, Tells propertyId .counterexample item
    · rw [dynamicOutcome] at outcome
      simp only [executed, not_true_eq_false, if_false] at outcome
      rw [if_pos ((any_counterexample_iff run propertyId).mpr failed)] at outcome
      cases outcome
    · rw [dynamicOutcome_of_free run executed failed] at outcome
      refine ⟨executed, ?_, failed⟩
      by_contra unsuccessful
      rw [if_neg unsuccessful] at outcome
      cases outcome
  · rw [dynamicOutcome] at outcome
    simp only [executed, not_false_eq_true, if_true] at outcome
    cases outcome

/-- A comparison shows the outcome of each of the two engines. -/
theorem mem_outcomes_iff (isEngine : engine = echidna ∨ engine = medusa)
    {runs : List FormalToolRun} {comparison : DynamicEngineComparison}
    (compared : comparison ∈ compareDynamicEngineOutcomes runs)
    {outcome : DynamicPropertyOutcome} :
    (engine.name, outcome) ∈ comparison.outcomes ↔
      dynamicOutcome (runs.find? (·.tool = engine.name)) comparison.propertyId = outcome := by
  obtain ⟨propertyId, -, rfl⟩ := List.mem_map.mp compared
  have differ : medusa.name ≠ echidna.name := by decide
  rcases isEngine with rfl | rfl
  · simp [differ.symm, eq_comm]
  · simp [differ, eq_comm]

theorem exists_comparison (isEngine : engine = echidna ∨ engine = medusa)
    {runs : List FormalToolRun} {run : FormalToolRun}
    (found : runs.find? (·.tool = engine.name) = some run) {propertyId : List Char}
    (executed : propertyId ∈ run.executedPropertyIds) :
    ∃ comparison ∈ compareDynamicEngineOutcomes runs, comparison.propertyId = propertyId := by
  refine ⟨_, List.mem_map_of_mem (mem_sortedSet.mpr (List.mem_flatMap.mpr
    ⟨run, List.mem_filterMap.mpr ⟨engine.name, ?_, found⟩, executed⟩)), rfl⟩
  rcases isEngine with rfl | rfl <;> simp

/-- Outcomes never overclaim exactly when a clean exit comes with a result for every property. -/
theorem never_overclaims_iff (isEngine : engine = echidna ∨ engine = medusa)
    {runs : List FormalToolRun}
    (found : runs.find? (·.tool = engine.name) =
      some (runAdapter texts engine translation corpusHash result stdout stderr)) :
    NeverOverclaims texts engine translation stdout stderr runs ↔
      (result = .exited 0 → ∀ propertyId ∈ translation.executedPropertyIds,
        ReportsPassing texts engine translation stdout stderr propertyId ∨
          ReportsFailing texts engine translation stdout stderr propertyId) := by
  constructor
  · rintro never rfl propertyId executed
    by_contra silent
    rw [not_or] at silent
    obtain ⟨comparison, compared, rfl⟩ := exists_comparison isEngine found executed
    have inconclusive := (never comparison compared).2 executed silent.1 silent.2
    have outcome := dynamicOutcome_of_free
      (runAdapter texts engine translation corpusHash (.exited 0) stdout stderr) executed
      (no_counterexample_of_not_failing executed silent.2)
    rw [mem_outcomes_iff isEngine compared, found, outcome, status_runAdapter_of_clean]
      at inconclusive
    cases inconclusive
  · intro complete comparison compared
    have reported : (runAdapter texts engine translation corpusHash result stdout stderr).status =
        .success → ∀ propertyId ∈ translation.executedPropertyIds,
          ReportsPassing texts engine translation stdout stderr propertyId ∨
            ReportsFailing texts engine translation stdout stderr propertyId := by
      intro succeeded
      obtain ⟨code, rfl, rfl | reported⟩ := status_runAdapter_cases succeeded
      · exact complete rfl
      · exact reported
    rw [mem_outcomes_iff isEngine compared, mem_outcomes_iff isEngine compared, found]
    constructor
    · intro outcome
      obtain ⟨executed, succeeded, free⟩ := of_dynamicOutcome_eq_noCounterexample outcome
      obtain ⟨code, rfl, -⟩ := status_runAdapter_cases succeeded
      have noFailing := mt (exists_counterexample_iff executed).mpr free
      exact ⟨(reported succeeded _ executed).resolve_right noFailing, noFailing⟩
    · intro executed notPassing notFailing
      have unsuccessful := fun succeeded =>
        (reported succeeded _ executed).elim notPassing notFailing
      rw [dynamicOutcome_of_free _ executed
        (no_counterexample_of_not_failing executed notFailing), if_neg unsuccessful]

end Parsing

/-! ## A campaign with one property -/

def sampleName : List Char :=
  "echidna_0123456789abcdef01234567".toList

def sampleId : List Char :=
  "prop-0123456789abcdef01234567".toList

/-- A translation with one generated function. -/
def sampleTranslation : PropertyEngineTranslation where
  propertyMap := ⟨[(sampleName, ⟨sampleId, "supply is bounded".toList, [], []⟩)],
    List.nodup_singleton _⟩
  seed := some 11
  runs := 100
  depth := 4
  sourcePath := "mmaudit-echidna/MMAuditEchidna.sol".toList
  configurationPath := "mmaudit-echidna/echidna.yaml".toList
  propertyMapPath := "mmaudit-echidna/property-map.json".toList
  assumptions := []

def samplePassed : Json.Fields :=
  [("name".toList, .string sampleName), ("status".toList, .string "passed".toList)]

def sampleOutput : List Char :=
  "\x7b\"name\": \"echidna_0123456789abcdef01234567\", \"status\": \"passed\"\x7d".toList

/-- A library that reads one document. -/
def sampleTexts : Texts where
  loads := fun text => if text = sampleOutput then some (.object samplePassed) else none
  dumps := fun _ => sampleOutput
  compactDumps := fun _ => sampleOutput
  str := fun _ => []
  casefold := List.map Char.toLower
  lower := List.map Char.toLower
  isWord := isNameCharacter

theorem never_overclaims_sample :
    NeverOverclaims sampleTexts echidna sampleTranslation sampleOutput []
      [runAdapter sampleTexts echidna sampleTranslation [] (.exited 0) sampleOutput []] := by
  refine (never_overclaims_iff (.inl rfl) rfl).mpr fun _ propertyId executed => .inl ?_
  obtain rfl := List.mem_singleton.mp executed
  exact ⟨sampleName, ⟨_, rfl, rfl⟩, samplePassed, .head _, by decide +kernel⟩

/-- A clean exit without any output counts every property as free of counterexamples. -/
theorem clean_exit_overclaims :
    ¬∀ (translation : PropertyEngineTranslation) (result : ProcessResult)
      (stdout stderr corpusHash : List Char),
      NeverOverclaims sampleTexts echidna translation stdout stderr
        [runAdapter sampleTexts echidna translation corpusHash result stdout stderr] := by
  intro never
  have claim := (never sampleTranslation (.exited 0) [] [] []) _ (.head _)
  obtain ⟨⟨generated, -, item, member, -⟩, -⟩ := claim.1 (by decide +kernel)
  cases member

end Formal

end MmAudit
