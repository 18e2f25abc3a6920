import MmAudit.Foundry.Agreement

/-!
# The verdict on a genuine report

The report of a harness has the form that the reader asks of a suite, and the loop over its
results returns when every turn does.  So the reader fails on a genuine report exactly when
the harness has a settlement, or a call of the counterexample has a parameter.
-/

namespace MmAudit

namespace Foundry

open Fallible Json

variable {harness : FoundryInvariantHarnessSpec} {broken? : Option BrokenProperty}

/-! ## The suite -/

/-- A character that stands in no part of the generated names. -/
structure IsForeign (char : Char) : Prop where
  other : isIdentifierCharacter char = false
  notDot : char ≠ '.'

theorem IsForeign.not_mem {char : Char} (foreign : IsForeign char) {text : List Char}
    (named : (text.all fun char => isIdentifierCharacter char || decide (char = '.')) = true) :
    char ∉ text := by
  intro member
  have found := List.all_eq_true.mp named char member
  rw [foreign.other, decide_eq_false foreign.notDot] at found
  cases found

theorem IsForeign.not_mem_contract {char : Char} (foreign : IsForeign char)
    (harness : FoundryInvariantHarnessSpec) : char ∉ harness.contract := by
  intro member
  rcases List.mem_append.mp member with member | member
  · exact foreign.not_mem (by decide) member
  · exact not_mem_of_isIdentifier harness.name_valid foreign.other member

theorem IsForeign.not_mem_fileParts {char : Char} (foreign : IsForeign char)
    (harness : FoundryInvariantHarnessSpec) : ∀ part ∈ harness.fileParts, char ∉ part := by
  intro part member
  rcases List.mem_cons.mp member with rfl | member
  · exact foreign.not_mem (by decide)
  rcases List.mem_cons.mp member with rfl | member
  · exact foreign.not_mem (by decide)
  obtain rfl := List.mem_singleton.mp member
  intro member
  rcases List.mem_append.mp member with member | member
  · exact foreign.not_mem_contract harness member
  · exact foreign.not_mem (by decide) member

theorem intercalate_three (separator : Char) (first second third : List Char) :
    [separator].intercalate [first, second, third] =
      first ++ separator :: (second ++ separator :: third) := by
  simp

theorem IsForeign.not_mem_file {char : Char} (foreign : IsForeign char) (notSlash : char ≠ '/')
    (harness : FoundryInvariantHarnessSpec) : char ∉ ['/'].intercalate harness.fileParts := by
  have absent := foreign.not_mem_fileParts harness
  generalize parts : harness.fileParts = fileParts at absent
  obtain rfl := parts.symm
  rw [FoundryInvariantHarnessSpec.fileParts, intercalate_three]
  rw [FoundryInvariantHarnessSpec.fileParts, List.forall_mem_cons, List.forall_mem_cons,
    List.forall_mem_singleton] at absent
  rw [List.mem_append, List.mem_cons, List.mem_append, List.mem_cons]
  rintro (member | rfl | member | rfl | member)
  · exact absent.1 member
  · exact notSlash rfl
  · exact absent.2.1 member
  · exact notSlash rfl
  · exact absent.2.2 member

theorem splitAtLastColon_suiteName (harness : FoundryInvariantHarnessSpec) :
    splitAtLastColon harness.suiteName =
      some (['/'].intercalate harness.fileParts, harness.contract) := by
  have plain : ':' ∉ harness.contract.reverse := fun member =>
    IsForeign.not_mem_contract ⟨by decide, by decide⟩ harness (List.mem_reverse.mp member)
  unfold splitAtLastColon FoundryInvariantHarnessSpec.suiteName
  rw [List.reverse_append, List.reverse_cons, List.append_assoc, List.singleton_append,
    List.splitOn_append_cons_self_of_not_mem plain]
  cases split : (['/'].intercalate harness.fileParts).reverse.splitOn ':' with
  | nil => exact absurd split (List.splitOn_ne_nil _ _)
  | cons first rest =>
      dsimp only
      rw [← split, List.intercalate_splitOn, List.reverse_reverse, List.reverse_reverse]

theorem isRelativePath_file (harness : FoundryInvariantHarnessSpec) :
    isRelativePath (['/'].intercalate harness.fileParts) = true := by
  have noBackslash : (['/'].intercalate harness.fileParts).contains '\\' = false := by
    rw [← Bool.not_eq_true, List.contains_iff_mem]
    exact IsForeign.not_mem_file ⟨by decide, by decide⟩ (by decide) harness
  have split : (['/'].intercalate harness.fileParts).splitOn '/' = harness.fileParts :=
    List.splitOn_intercalate '/'
      (IsForeign.not_mem_fileParts ⟨by decide, by decide⟩ harness) (List.cons_ne_nil _ _)
  have long : ∀ part ∈ harness.fileParts, 2 < part.length := by
    rw [FoundryInvariantHarnessSpec.fileParts, List.forall_mem_cons, List.forall_mem_cons,
      List.forall_mem_singleton, List.length_append]
    exact ⟨by decide, by decide, Nat.lt_add_left _ (by decide)⟩
  rw [isRelativePath, noBackslash, split, Bool.not_false, Bool.true_and, Bool.or_eq_true]
  right
  rw [List.all_eq_true]
  intro part member
  have partLong := long part member
  have notShort : ∀ text : List Char, text.length ≤ 2 → part ≠ text := by
    rintro text short rfl
    omega
  have nonempty : part.isEmpty = false := List.isEmpty_eq_false_iff.mpr (notShort _ (by decide))
  rw [nonempty, decide_eq_true (notShort _ (by decide)), decide_eq_true (notShort _ (by decide))]
  rfl

theorem isControl_eq_false {char : Char} (named : isIdentifierCharacter char = true) :
    isControl char = false := by
  have bounds := bounds_of_isIdentifierCharacter named
  simp only [isControl, Bool.or_eq_false_iff, decide_eq_false_iff_not, beq_eq_false_iff_ne]
  omega

theorem isForeign_of_isControl {char : Char} (control : isControl char = true) :
    IsForeign char := by
  constructor
  · by_contra named
    rw [isControl_eq_false (Bool.not_eq_false _ ▸ named)] at control
    cases control
  · rintro rfl
    revert control
    decide

theorem length_suiteName (harness : FoundryInvariantHarnessSpec) :
    harness.suiteName.length ≤ 2000 := by
  have name := length_le_of_isIdentifier harness.name_valid
  have contract : harness.contract.length = 17 + harness.name.length := List.length_append
  rw [FoundryInvariantHarnessSpec.suiteName, FoundryInvariantHarnessSpec.fileParts,
    intercalate_three]
  simp only [List.length_append, List.length_cons, contract]
  have test : "test".toList.length = 4 := by decide
  have directory : "mmaudit_generated".toList.length = 17 := by decide
  have suffix : ".t.sol".toList.length = 6 := by decide
  omega

/-- The name of the generated suite passes the checks. -/
theorem checkSuiteName_suiteName (harness : FoundryInvariantHarnessSpec) :
    checkSuiteName harness.suiteName = .ok () := by
  have noControl : harness.suiteName.any isControl = false := by
    rw [← Bool.not_eq_true, List.any_eq_true]
    rintro ⟨char, member, control⟩
    have foreign := isForeign_of_isControl control
    have notPunctuation : char ≠ '/' ∧ char ≠ ':' := by
      constructor <;> (rintro rfl; revert control; decide)
    rcases List.mem_append.mp member with member | member
    · exact foreign.not_mem_file notPunctuation.1 harness member
    · rcases List.mem_cons.mp member with same | member
      · exact notPunctuation.2 same
      · exact foreign.not_mem_contract harness member
  have colon : ':' ∈ harness.suiteName :=
    List.mem_append_right _ List.mem_cons_self
  have contract : harness.contract.isEmpty = false := rfl
  rw [checkSuiteName, raiseIf_bind_of_not (by
    rw [noControl]
    have bounded := length_suiteName harness
    simp only [Bool.false_eq_true, colon, not_true_eq_false, or_false]
    omega)]
  rw [splitAtLastColon_suiteName]
  dsimp only
  rw [raiseIf, isRelativePath_file, contract]
  rfl

/-! ## The tests of the suite -/

theorem settlementFunction_signature :
    settlementFunction.abiSignature = "test_MMAuditFinancialSettlement()".toList := by
  decide

theorem property_signature (spec : InvariantPropertySpec) :
    spec.function.abiSignature = invariantPrefix ++ spec.propertyId.text ++ "()".toList := by
  rw [GeneratedFunction.abiSignature, InvariantPropertySpec.function, List.map_nil,
    List.intercalate_nil, List.append_assoc]
  rfl

/-- The signature of a generated test is a valid name of a test. -/
theorem test_named (test : GeneratedTest) :
    ¬ (test.function.abiSignature = [] ∨ 1000 < test.function.abiSignature.length ∨
      test.function.abiSignature.any isControl = true) := by
  cases test with
  | settlement =>
      rw [GeneratedTest.function]
      decide
  | property spec =>
      have bounded := length_le_of_isIdentifier spec.propertyId.valid
      rw [GeneratedTest.function, property_signature]
      have noControl : (invariantPrefix ++ spec.propertyId.text ++ "()".toList).any isControl =
          false := by
        rw [← Bool.not_eq_true, List.any_append, List.any_append, Bool.or_eq_true,
          Bool.or_eq_true]
        rintro ((control | control) | control)
        · revert control
          decide
        · obtain ⟨char, member, control⟩ := List.any_eq_true.mp control
          rw [isControl_eq_false
            (isIdentifierCharacter_of_isIdentifier spec.propertyId.valid member)] at control
          cases control
        · revert control
          decide
      have start : invariantPrefix.length = 10 := by decide
      have brackets : "()".toList.length = 2 := by decide
      rw [noControl, ← List.length_eq_zero_iff, List.length_append, List.length_append]
      simp only [Bool.false_eq_true, or_false]
      omega

theorem IsCampaign.kind {campaign : Campaign} {reportedCalls : ℕ} {result : Fields}
    (metered : IsCampaign harness campaign reportedCalls result) :
    ∃ metadata, foundryKind result = .ok (.invariant, metadata) := by
  obtain ⟨metadata, metrics, order, kind, runs, calls, -⟩ := metered.reported
  exact ⟨metadata, foundryKind_invariant kind runs calls metered.runs_le metered.calls_le⟩

theorem checkTest_eq (test : GeneratedTest) {result : Fields} {status : FoundryStatus}
    {kind : FoundryKind × Fields} (statusRead : foundryStatus result = .ok status)
    (kindRead : foundryKind result = .ok kind) :
    checkTest (test.function.abiSignature, .object result) = .ok () := by
  unfold checkTest
  dsimp only
  rw [raiseIf_bind_of_not (test_named test), bind_of_ok statusRead, bind_of_ok kindRead]
  rfl

/-- The result of every generated test passes the checks of a test. -/
theorem checkTest_of_isResult {test : GeneratedTest} {entry : List Char × Json}
    (reported : IsResult harness broken? test entry) : checkTest entry = .ok () := by
  cases reported with
  | @settlement result passed =>
      obtain ⟨metadata, kind⟩ := passed.kind
      have kindRead : foundryKind result = .ok (.unit, metadata) := by
        unfold foundryKind
        rw [kind]
        rfl
      exact checkTest_eq .settlement (foundryStatus_eq passed.status (.inl ⟨rfl, rfl⟩)) kindRead
  | @passed spec campaign result _ passed =>
      obtain ⟨metadata, kind⟩ := passed.metered.kind
      exact checkTest_eq (.property spec) (foundryStatus_eq passed.status (.inl ⟨rfl, rfl⟩)) kind
  | @failed broken campaign reportedCalls result _ failed =>
      obtain ⟨metadata, kind⟩ := failed.metered.kind
      exact checkTest_eq (.property broken.property)
        (foundryStatus_eq failed.status (.inr ⟨rfl, rfl⟩)) kind

theorem exists_test_of_result {order : List GeneratedTest} {results : Fields}
    (reported : List.Forall₂ (IsResult harness broken?) order results) :
    ∀ entry ∈ results, ∃ test ∈ order, IsResult harness broken? test entry := by
  induction reported with
  | nil => exact nofun
  | cons first _ ih =>
      intro entry member
      rcases List.mem_cons.mp member with rfl | member
      · exact ⟨_, List.mem_cons_self, first⟩
      · obtain ⟨test, listed, related⟩ := ih entry member
        exact ⟨test, List.mem_cons_of_mem _ listed, related⟩

theorem exists_result_of_test {order : List GeneratedTest} {results : Fields}
    (reported : List.Forall₂ (IsResult harness broken?) order results) :
    ∀ test ∈ order, ∃ entry ∈ results, IsResult harness broken? test entry := by
  induction reported with
  | nil => exact nofun
  | cons first _ ih =>
      intro test member
      rcases List.mem_cons.mp member with rfl | member
      · exact ⟨_, List.mem_cons_self, first⟩
      · obtain ⟨entry, listed, related⟩ := ih test member
        exact ⟨entry, List.mem_cons_of_mem _ listed, related⟩

theorem length_tests_le (harness : FoundryInvariantHarnessSpec) : harness.tests.length ≤ 17 := by
  have bounded := harness.properties_bounded.2
  rw [FoundryInvariantHarnessSpec.tests, List.length_append, List.length_map]
  split
  · exact Nat.add_le_add bounded le_rfl
  · exact Nat.add_le_add bounded (Nat.zero_le 1)

/-- The report is read as its one suite. -/
theorem foundrySuites_of_isReport {loads : String → Except ValueError Json} {stdout : String}
    {suite results : Fields} {order : List GeneratedTest}
    (loaded : loads stdout = .ok (.object [(harness.suiteName, .object suite)]))
    (resultsRead : field? suite "test_results" = some (.object results))
    (permuted : order.Perm harness.tests)
    (reported : List.Forall₂ (IsResult harness broken?) order results) :
    foundrySuites loads stdout = .ok [(harness.suiteName, .object suite)] := by
  have few : results.length ≤ 17 := by
    rw [← reported.length_eq, permuted.length_eq]
    exact length_tests_le harness
  have checked : results.forM checkTest = .ok () := by
    rw [forM_eq_ok_iff]
    intro entry member
    obtain ⟨test, -, related⟩ := exists_test_of_result reported entry member
    exact checkTest_of_isResult related
  have stepped : suiteStep 0 (harness.suiteName, .object suite) = .ok (0 + results.length) := by
    unfold suiteStep
    dsimp only
    rw [bind_of_ok (checkSuiteName_suiteName harness), resultsRead]
    dsimp only [Option.bind_some, object?]
    rw [raiseIf_bind_of_not (by omega), bind_of_ok checked]
    rfl
  unfold foundrySuites
  rw [bind_of_ok loaded]
  dsimp only
  rw [raiseIf_bind_of_not (by simp), show List.insertionSort (fun suite other => suite.1 ≤ other.1)
    [(harness.suiteName, Json.object suite)] = [(harness.suiteName, .object suite)] from rfl,
    List.foldlM_cons, bind_of_ok stepped]
  rfl

/-! ## The loop over the results -/

/-- No call of the counterexample goes to a function with parameters. -/
def CallsTakeNoParameter (broken? : Option BrokenProperty) : Prop :=
  ∀ broken, broken? = some broken → ∀ action ∈ broken.calls, action.fuzzSlots = []

/-- The status that a report gives a property. -/
def reportedStatus (broken? : Option BrokenProperty) (spec : InvariantPropertySpec) :
    FoundryStatus :=
  if broken?.any (·.property = spec) then .fail else .pass

/-- How a turn of a property changes the state. -/
structure Counted (broken? : Option BrokenProperty) (state : CampaignState)
    (specs : List InvariantPropertySpec) (next : CampaignState) : Prop where
  observed : next.observed =
    state.observed ++ specs.map fun spec => (spec.propertyId.text, reportedStatus broken? spec)
  counterexamples : next.counterexamples.length =
    state.counterexamples.length + specs.countP fun spec => broken?.any (·.property = spec)

theorem fresh_of_resultStep {spec : InvariantPropertySpec} {state next : CampaignState}
    {result : Fields} {propertyIds : List (List Char)} {actionIds : Option (List (List Char))}
    (stepped : resultStep propertyIds actionIds state
      (spec.function.abiSignature, .object result) = .ok next) :
    spec.propertyId.text ∉ state.observed.map Prod.fst := by
  unfold resultStep at stepped
  dsimp only at stepped
  rw [propertyId_of_test] at stepped
  obtain ⟨-, stepped⟩ := raiseIf_bind_eq_ok_iff.mp stepped
  obtain ⟨unseen, -⟩ := raiseIf_bind_eq_ok_iff.mp stepped
  exact fun seen => unseen (List.contains_iff_mem.mpr seen)

/-- The turn of a property of the report. -/
theorem exists_resultStep (hasActions : harness.actions ≠ [])
    (wellFormed : ∀ broken, broken? = some broken → broken.WellFormed harness)
    (plain : CallsTakeNoParameter broken?) {spec : InvariantPropertySpec}
    (declared : spec ∈ harness.properties) {entry : List Char × Json}
    (reported : IsResult harness broken? (.property spec) entry) {state : CampaignState}
    (fresh : spec.propertyId.text ∉ state.observed.map Prod.fst) :
    ∃ next, resultStep harness.propertyIds (some harness.actionIds) state entry = .ok next ∧
      Counted broken? state [spec] next := by
  cases reported with
  | passed unbroken passed =>
      obtain ⟨next, stepped, entered⟩ := resultStep_passed hasActions declared fresh passed
      have unmarked : broken?.any (·.property = spec) = false := by
        rw [← Bool.not_eq_true, Option.any_eq_true]
        rintro ⟨broken, isBroken, same⟩
        exact unbroken broken isBroken (of_decide_eq_true same)
      refine ⟨next, stepped, ?_, ?_⟩
      · simp [entered.observed, reportedStatus, unmarked]
      · simp [entered.counterexamples, unmarked]
  | @failed broken _ _ _ isBroken failed =>
      have marked : broken?.any (·.property = broken.property) = true := by
        simp [isBroken]
      obtain ⟨next, stepped⟩ :=
        (resultStep_broken hasActions (wellFormed broken isBroken) fresh failed).mpr
          (plain broken isBroken)
      obtain ⟨observed, counterexamples⟩ := resultStep_broken_entered hasActions
        (wellFormed broken isBroken) fresh failed stepped
      refine ⟨next, stepped, ?_, ?_⟩
      · simp [observed, reportedStatus, marked]
      · simp [counterexamples, marked]

/-- The loop over the results of the properties. -/
theorem exists_foldlM_resultStep (hasActions : harness.actions ≠ [])
    (wellFormed : ∀ broken, broken? = some broken → broken.WellFormed harness)
    (plain : CallsTakeNoParameter broken?) {specs : List InvariantPropertySpec}
    (declared : ∀ spec ∈ specs, spec ∈ harness.properties)
    (distinct : (specs.map (·.propertyId.text)).Nodup) {results : Fields}
    (reported : List.Forall₂ (IsResult harness broken?) (specs.map .property) results)
    {state : CampaignState}
    (fresh : ∀ spec ∈ specs, spec.propertyId.text ∉ state.observed.map Prod.fst) :
    ∃ final, results.foldlM (resultStep harness.propertyIds (some harness.actionIds)) state =
        .ok final ∧ Counted broken? state specs final := by
  induction specs generalizing results state with
  | nil =>
      obtain rfl := List.forall₂_nil_left_iff.mp reported
      exact ⟨state, rfl, (List.append_nil _).symm, rfl⟩
  | cons spec specs ih =>
      obtain ⟨entry, rest, first, others, rfl⟩ := List.forall₂_cons_left_iff.mp reported
      obtain ⟨specDeclared, restDeclared⟩ := List.forall_mem_cons.mp declared
      obtain ⟨specFresh, restFresh⟩ := List.forall_mem_cons.mp fresh
      obtain ⟨unlike, restDistinct⟩ := List.nodup_cons.mp distinct
      obtain ⟨next, stepped, counted⟩ :=
        exists_resultStep hasActions wellFormed plain specDeclared first specFresh
      have nextFresh : ∀ other ∈ specs,
          other.propertyId.text ∉ next.observed.map Prod.fst := by
        intro other member seen
        rw [counted.observed, List.map_append, List.mem_append] at seen
        rcases seen with seen | seen
        · exact restFresh other member seen
        · have same : other.propertyId.text = spec.propertyId.text := List.mem_singleton.mp seen
          exact unlike (List.mem_map.mpr ⟨other, member, same⟩)
      obtain ⟨final, finished, countedRest⟩ := ih restDeclared restDistinct others nextFresh
      refine ⟨final, by rw [List.foldlM_cons, bind_of_ok stepped, finished], ?_, ?_⟩
      · rw [countedRest.observed, counted.observed, List.append_assoc]
        rfl
      · rw [countedRest.counterexamples, counted.counterexamples, add_assoc,
          ← List.countP_append]
        rfl

/-! ## The verdict -/

theorem distinct_propertyIds (harness : FoundryInvariantHarnessSpec) :
    harness.propertyIds.Nodup := by
  have injective : Function.Injective Identifier.text := by
    rintro ⟨text, valid⟩ ⟨other, otherValid⟩ rfl
    rfl
  have texts : harness.propertyIds = (harness.properties.map (·.propertyId)).map Identifier.text := by
    rw [List.map_map]
    rfl
  rw [texts]
  exact harness.properties_distinct.map injective

def expectedStatus (broken? : Option BrokenProperty) : InvariantExecutionStatus :=
  if broken?.isSome then .counterexample else .passed

section Counted

variable {specs : List InvariantPropertySpec} {final : CampaignState}

theorem Counted.ids (counted : Counted broken? .start specs final) :
    final.observed.map Prod.fst = specs.map (·.propertyId.text) := by
  rw [counted.observed, CampaignState.start, List.nil_append, List.map_map]
  rfl

/-- The results cover the declared properties and none was skipped. -/
theorem Counted.covers (counted : Counted broken? .start specs final)
    (permuted : specs.Perm harness.properties) :
    ¬ (!(final.observed.map Prod.fst).all harness.propertyIds.contains ∨
      !harness.propertyIds.all (final.observed.map Prod.fst).contains ∨
      (final.observed.any fun observed => observed.2 = .skip) = true) := by
  have sameIds : (specs.map (·.propertyId.text)).Perm harness.propertyIds := permuted.map _
  have inside : (final.observed.map Prod.fst).all harness.propertyIds.contains = true := by
    rw [counted.ids, List.all_eq_true]
    exact fun id member => List.contains_iff_mem.mpr (sameIds.mem_iff.mp member)
  have outside : harness.propertyIds.all (final.observed.map Prod.fst).contains = true := by
    rw [counted.ids, List.all_eq_true]
    exact fun id member => List.contains_iff_mem.mpr (sameIds.mem_iff.mpr member)
  have noSkip : (final.observed.any fun observed => observed.2 = .skip) = false := by
    rw [← Bool.not_eq_true, List.any_eq_true]
    rintro ⟨observed, member, skipped⟩
    rw [counted.observed] at member
    obtain ⟨spec, -, rfl⟩ := List.mem_map.mp member
    simp only [reportedStatus] at skipped
    split at skipped <;> cases skipped
  rw [inside, outside, noSkip]
  decide

/-- A failure is observed exactly when a property failed. -/
theorem Counted.failures (counted : Counted broken? .start specs final)
    (permuted : specs.Perm harness.properties)
    (wellFormed : ∀ broken, broken? = some broken → broken.WellFormed harness) :
    (final.observed.filter fun observed => observed.2 = .fail).isEmpty = !broken?.isSome := by
  rw [Bool.eq_iff_iff, List.isEmpty_iff, List.filter_eq_nil_iff, counted.observed]
  constructor
  · intro noFailure
    cases isBroken : broken? with
    | none => rfl
    | some broken =>
        have member : broken.property ∈ specs :=
          permuted.mem_iff.mpr (wellFormed broken isBroken).property_declared
        have unfailed := noFailure _ (List.mem_append_right _ (List.mem_map_of_mem member))
        simp [reportedStatus, isBroken] at unfailed
  · intro unbroken observed member
    have none : broken? = none := by
      simpa using unbroken
    obtain ⟨spec, -, rfl⟩ := List.mem_map.mp member
    simp [reportedStatus, none]

theorem Counted.counterexamples_le (counted : Counted broken? .start specs final)
    (permuted : specs.Perm harness.properties) : ¬ 1 < final.counterexamples.length := by
  have distinct : specs.Nodup :=
    permuted.nodup_iff.mpr (List.Nodup.of_map _ (distinct_propertyIds harness))
  rw [counted.counterexamples, not_lt]
  cases broken? with
  | none => simp [CampaignState.start]
  | some broken =>
      have marks : specs.countP (fun spec => (some broken).any (·.property = spec)) =
          specs.count broken.property := by
        rw [List.count_eq_countP]
        refine List.countP_congr fun spec _ => ?_
        rw [Option.any_some, decide_eq_true_eq, beq_iff_eq, eq_comm]
      rw [marks]
      exact (zero_add _).trans_le (List.nodup_iff_count_le_one.mp distinct broken.property)

end Counted

/-- Without a settlement every test is a property. -/
theorem exists_specs {order : List GeneratedTest} (permuted : order.Perm harness.tests)
    (unsettled : harness.financialSettlement = none) :
    ∃ specs : List InvariantPropertySpec, order = specs.map .property ∧
      specs.Perm harness.properties := by
  have tests : harness.tests = harness.properties.map .property := by
    simp [FoundryInvariantHarnessSpec.tests, unsettled]
  rw [tests] at permuted
  exact (congrFun (congrFun (List.eq_map_comp_perm GeneratedTest.property) order)
    harness.properties).mpr permuted

theorem exists_step_of_foldlM {propertyIds : List (List Char)}
    {actionIds : Option (List (List Char))} {results : Fields} {start final : CampaignState}
    (looped : results.foldlM (resultStep propertyIds actionIds) start = .ok final) :
    ∀ entry ∈ results, ∃ state next, resultStep propertyIds actionIds state entry = .ok next :=
  foldlM_invariant
    (fun done _ => ∀ entry ∈ done, ∃ state next,
      resultStep propertyIds actionIds state entry = .ok next)
    results looped nofun fun done entry state next before stepped => by
      rw [List.forall_mem_append, List.forall_mem_singleton]
      exact ⟨before, state, next, stepped⟩

/-- What the results of an accepted report tell. -/
theorem plain_of_foldlM (hasActions : harness.actions ≠ [])
    (wellFormed : ∀ broken, broken? = some broken → broken.WellFormed harness)
    {order : List GeneratedTest} (permuted : order.Perm harness.tests) {results : Fields}
    (reported : List.Forall₂ (IsResult harness broken?) order results) {final : CampaignState}
    (looped : results.foldlM (resultStep harness.propertyIds (some harness.actionIds)) .start =
      .ok final) :
    harness.financialSettlement = none ∧ CallsTakeNoParameter broken? := by
  have stepped := exists_step_of_foldlM looped
  constructor
  · by_contra settled
    have listed : GeneratedTest.settlement ∈ order := by
      rw [permuted.mem_iff, FoundryInvariantHarnessSpec.tests,
        if_pos (Option.isSome_iff_ne_none.mpr settled)]
      exact List.mem_append_right _ List.mem_cons_self
    obtain ⟨entry, member, related⟩ := exists_result_of_test reported _ listed
    obtain ⟨state, next, step⟩ := stepped entry member
    cases related with
    | settlement passed => exact resultStep_settlement step
  · intro broken isBroken
    have listed : GeneratedTest.property broken.property ∈ order := by
      rw [permuted.mem_iff, FoundryInvariantHarnessSpec.tests]
      exact List.mem_append_left _
        (List.mem_map_of_mem (wellFormed broken isBroken).property_declared)
    obtain ⟨entry, member, related⟩ := exists_result_of_test reported _ listed
    obtain ⟨state, next, step⟩ := stepped entry member
    generalize spec : broken.property = property at related
    cases related with
    | passed unbroken passed => exact absurd spec (unbroken broken isBroken)
    | @failed other _ _ _ isOther failed =>
        obtain rfl := Option.some.inj (isOther.symm.trans isBroken)
        exact (resultStep_broken hasActions (wellFormed other isBroken)
          (fresh_of_resultStep step) failed).mp ⟨next, step⟩

/-- The results of a genuine report are accepted when nothing stands against it. -/
theorem exists_campaignResult (hasActions : harness.actions ≠ [])
    (wellFormed : ∀ broken, broken? = some broken → broken.WellFormed harness)
    {order : List GeneratedTest} (permuted : order.Perm harness.tests) {results : Fields}
    (reported : List.Forall₂ (IsResult harness broken?) order results) {returnCode : ℤ}
    (returned : returnCode = if broken?.isSome then 1 else 0)
    (unsettled : harness.financialSettlement = none) (plain : CallsTakeNoParameter broken?) :
    ∃ result, campaignResult returnCode harness.propertyIds (some harness.actionIds) results =
      .ok result ∧ result.status = expectedStatus broken? := by
  obtain ⟨specs, rfl, specsPermuted⟩ := exists_specs permuted unsettled
  have distinct : (specs.map (·.propertyId.text)).Nodup :=
    (specsPermuted.map _).nodup_iff.mpr (distinct_propertyIds harness)
  have fresh : ∀ spec ∈ specs,
      spec.propertyId.text ∉ CampaignState.start.observed.map Prod.fst :=
    fun _ _ => List.not_mem_nil
  obtain ⟨final, looped, counted⟩ := exists_foldlM_resultStep hasActions wellFormed plain
    (fun _ => specsPermuted.mem_iff.mp) distinct reported fresh
  have failures := counted.failures specsPermuted wellFormed
  have exitAgrees : ¬ (!(final.observed.filter fun observed => observed.2 = .fail).isEmpty ∧
      returnCode ≠ 1 ∨ (final.observed.filter fun observed => observed.2 = .fail).isEmpty = true ∧
      returnCode ≠ 0) := by
    rw [failures, returned]
    cases broken?.isSome <;> decide
  unfold campaignResult
  rw [bind_of_ok looped, raiseIf_bind_of_not (counted.covers specsPermuted)]
  dsimp only
  rw [raiseIf_bind_of_not exitAgrees, raiseIf_bind_of_not (counted.counterexamples_le specsPermuted)]
  refine ⟨_, rfl, ?_⟩
  dsimp only
  rw [failures, expectedStatus]
  cases broken?.isSome <;> rfl

/-- The results are what is read of a genuine report. -/
theorem structuredFoundryInvariantResult_eq {loads : String → Except ValueError Json}
    {stdout : String} {suite results : Fields} {order : List GeneratedTest} {returnCode : ℤ}
    (loaded : loads stdout = .ok (.object [(harness.suiteName, .object suite)]))
    (resultsRead : field? suite "test_results" = some (.object results))
    (permuted : order.Perm harness.tests)
    (reported : List.Forall₂ (IsResult harness broken?) order results)
    (returned : returnCode = if broken?.isSome then 1 else 0) :
    structuredFoundryInvariantResult loads stdout returnCode harness.propertyIds
        (some harness.actionIds) =
      campaignResult returnCode harness.propertyIds (some harness.actionIds) results := by
  have suites := foundrySuites_of_isReport loaded resultsRead permuted reported
  have codeValid : ¬ (returnCode ≠ 0 ∧ returnCode ≠ 1 ∨ harness.propertyIds.isEmpty = true) := by
    have nonempty : harness.propertyIds ≠ [] := by
      rw [← List.length_pos_iff, FoundryInvariantHarnessSpec.propertyIds, List.length_map]
      exact harness.properties_bounded.1
    rw [returned, List.isEmpty_eq_false_iff.mpr nonempty]
    cases broken?.isSome <;> decide
  unfold structuredFoundryInvariantResult
  rw [raiseIf_bind_of_not codeValid, bind_of_ok suites]
  dsimp only
  rw [resultsRead]
  rfl

/-- The execution of a harness keeps the validated verdict that its genuine report deserves
exactly when the harness has no settlement and no call of the counterexample has a parameter. -/
theorem genuine_report_validated_iff {loads : String → Except ValueError Json}
    {normalizeFoundryInvariantOutput : ℤ → String → InvariantExecutionStatus}
    {stdout stderr : String} {report : Json} {returnCode : ℤ} (loaded : loads stdout = .ok report)
    (hasActions : harness.actions ≠ []) (genuine : IsReport harness broken? returnCode report) :
    ((∃ result, structuredFoundryInvariantResult loads stdout returnCode harness.propertyIds
        (some harness.actionIds) = .ok result ∧ result.status = expectedStatus broken?) ∧
      invariantExecution loads normalizeFoundryInvariantOutput stdout stderr returnCode
        harness.propertyIds harness.actionIds = ⟨expectedStatus broken?, true⟩) ↔
      harness.financialSettlement = none ∧ CallsTakeNoParameter broken? := by
  obtain ⟨suite, results, order, rfl, resultsRead, permuted, reported⟩ := genuine.suite
  have opened := structuredFoundryInvariantResult_eq loaded resultsRead permuted reported
    genuine.returned
  rw [invariantExecution, opened]
  constructor
  · rintro ⟨⟨result, returned, -⟩, -⟩
    obtain ⟨final, looped, -⟩ := bind_eq_ok_iff.mp returned
    exact plain_of_foldlM hasActions genuine.wellFormed permuted reported looped
  · rintro ⟨unsettled, plain⟩
    obtain ⟨result, returned, status⟩ := exists_campaignResult hasActions genuine.wellFormed
      permuted reported genuine.returned unsettled plain
    refine ⟨⟨result, returned, status⟩, ?_⟩
    rw [returned]
    dsimp only
    rw [status]

/-! ## A sample -/

def sampleAction (slot : Option ℕ) : StatefulActionSpec :=
  ⟨⟨"Deposit".toList, by decide⟩, slot, []⟩

def sampleProperty : InvariantPropertySpec :=
  ⟨⟨"Solvent".toList, by decide⟩⟩

def sampleHarness (slot : Option ℕ) : FoundryInvariantHarnessSpec where
  name := "Vault".toList
  actions := [sampleAction slot]
  properties := [sampleProperty]
  runs := 256
  depth := 64
  financialSettlement := none
  name_valid := by decide
  runs_bounded := by decide
  depth_bounded := by decide
  actions_distinct := List.nodup_singleton _
  properties_distinct := List.nodup_singleton _
  properties_bounded := by decide
  settlement_declared := nofun

def sampleBroken (slot : Option ℕ) : BrokenProperty :=
  ⟨sampleProperty, 1, [sampleAction slot]⟩

def sampleCall (slot : Option ℕ) : Json :=
  .object [("func_name".toList, .string (sampleAction slot).function.name),
    ("signature".toList, .string (sampleAction slot).function.abiSignature)]

def sampleResult (slot : Option ℕ) : Fields :=
  [("status".toList, .string "Failure".toList),
    ("counterexample".toList,
      .object [("Sequence".toList, .array [.int 1, .array [sampleCall slot]])]),
    ("kind".toList, .object [("Invariant".toList, .object [
      ("runs".toList, .int 3), ("calls".toList, .int 1),
      ("metrics".toList, .object [((sampleAction slot).function.name,
        .object [("calls".toList, .int 1)])])])])]

def sampleReport (slot : Option ℕ) : Json :=
  .object [((sampleHarness slot).suiteName, .object [("test_results".toList,
    .object [(sampleProperty.function.abiSignature, .object (sampleResult slot))])])]

theorem sample_broken (slot : Option ℕ) :
    IsBrokenProperty (sampleHarness slot) (sampleBroken slot) ⟨3, fun _ => 1⟩ 1
      (sampleResult slot) where
  metered := {
    runs_bounded := (by decide : 3 ≤ 256)
    calls_bounded := (by decide : 1 ≤ 256 * 64)
    reported := ⟨_, _, [sampleAction slot], rfl, rfl, rfl, rfl, List.Perm.refl _,
      .cons ⟨.inl rfl, _, rfl, rfl⟩ .nil⟩ }
  status := rfl
  counted := fun action => (List.count_le_length).trans le_rfl
  sequence := ⟨_, rfl, .cons ⟨_, rfl, rfl, rfl⟩ .nil⟩

theorem sample_genuine (slot : Option ℕ) :
    IsReport (sampleHarness slot) (some (sampleBroken slot)) 1 (sampleReport slot) where
  wellFormed := by
    rintro broken ⟨⟩
    exact ⟨List.mem_singleton.mpr rfl, fun action member => member, List.cons_ne_nil _ _, le_rfl,
      (by decide : 1 ≤ 64)⟩
  returned := rfl
  suite := ⟨_, _, [.property sampleProperty], rfl, rfl, List.Perm.refl _,
    .cons (.failed rfl (sample_broken slot)) .nil⟩

/-- A genuine counterexample that calls a function without parameters is validated. -/
theorem plain_counterexample_validated :
    ((∃ result, structuredFoundryInvariantResult (fun _ => .ok (sampleReport none)) "report" 1
        (sampleHarness none).propertyIds (some (sampleHarness none).actionIds) = .ok result ∧
        result.status = expectedStatus (some (sampleBroken none))) ∧
      invariantExecution (fun _ => .ok (sampleReport none)) (fun _ _ => .executionFailed) "report"
        "" 1 (sampleHarness none).propertyIds (sampleHarness none).actionIds =
          ⟨expectedStatus (some (sampleBroken none)), true⟩) :=
  (genuine_report_validated_iff rfl (List.cons_ne_nil _ _) (sample_genuine none)).mpr
    ⟨rfl, by
      rintro broken ⟨⟩ action member
      obtain rfl := List.mem_singleton.mp member
      rfl⟩

/-- A genuine counterexample that calls a function with a fuzzed parameter is not validated. -/
theorem fuzzed_counterexample_rejected :
    IsReport (sampleHarness (some 0)) (some (sampleBroken (some 0))) 1 (sampleReport (some 0)) ∧
      (structuredFoundryInvariantResult (fun _ => .ok (sampleReport (some 0))) "report" 1
        (sampleHarness (some 0)).propertyIds
        (some (sampleHarness (some 0)).actionIds)).toOption.isNone = true ∧
      (invariantExecution (fun _ => .ok (sampleReport (some 0))) (fun _ _ => .executionFailed)
        "report" "" 1 (sampleHarness (some 0)).propertyIds
        (sampleHarness (some 0)).actionIds).machineOutputValidated = false :=
  ⟨sample_genuine _, by decide +kernel, by decide +kernel⟩

end Foundry

end MmAudit
