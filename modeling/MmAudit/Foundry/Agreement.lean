import MmAudit.Foundry.Reports

/-!
# Which reports of a generated harness are accepted

The metrics of the handler are read as the counts of the campaign.  A call of a
counterexample is accepted when its function takes no parameter, and a property that passed
is always accepted; a test that is not a property never is.
-/

namespace MmAudit

namespace Foundry

open Fallible Json

/-! ## Names -/

theorem isIdentifierCharacter_of_isIdentifier {further : ℕ} {text : List Char}
    (valid : isIdentifier further text = true) {char : Char} (member : char ∈ text) :
    isIdentifierCharacter char = true := by
  cases text with
  | nil => cases member
  | cons head rest =>
      simp only [isIdentifier, Bool.and_eq_true, List.all_eq_true] at valid
      rcases List.mem_cons.mp member with rfl | member
      · simp [isIdentifierCharacter, valid.1.1]
      · exact valid.1.2 char member

theorem length_le_of_isIdentifier {further : ℕ} {text : List Char}
    (valid : isIdentifier further text = true) : text.length ≤ further + 1 := by
  cases text with
  | nil => exact Nat.zero_le _
  | cons head rest =>
      simp only [isIdentifier, Bool.and_eq_true, decide_eq_true_eq] at valid
      exact Nat.succ_le_succ valid.2

/-- An identifier contains no character of another kind. -/
theorem not_mem_of_isIdentifier {further : ℕ} {text : List Char}
    (valid : isIdentifier further text = true) {char : Char}
    (other : isIdentifierCharacter char = false) : char ∉ text := by
  intro member
  rw [isIdentifierCharacter_of_isIdentifier valid member] at other
  cases other

theorem idAfter_append (start : List Char) (identifier : Identifier) :
    idAfter start (start ++ identifier.text) = some identifier.text := by
  rw [idAfter, if_pos (List.prefix_append _ _)]
  simp [identifier.valid]

theorem eq_append_of_idAfter {start name rest : List Char} (read : idAfter start name = some rest) :
    name = start ++ rest ∧ isIdentifier 47 rest = true := by
  unfold idAfter at read
  dsimp only at read
  split at read
  case isFalse => cases read
  case isTrue starts =>
    split at read
    case isFalse => cases read
    case isTrue valid =>
      obtain rfl := Option.some.inj read
      obtain ⟨following, rfl⟩ := starts
      simpa using valid

/-- A name with a character that no identifier has is none after any start without it. -/
theorem idAfter_eq_none_of_mem {start name : List Char} {char : Char} (member : char ∈ name)
    (absent : char ∉ start) (other : isIdentifierCharacter char = false) :
    idAfter start name = none := by
  cases read : idAfter start name with
  | none => rfl
  | some rest =>
      obtain ⟨rfl, valid⟩ := eq_append_of_idAfter read
      rcases List.mem_append.mp member with member | member
      · exact absurd member absent
      · exact absurd member (not_mem_of_isIdentifier valid other)

theorem dot_not_mem_actionPrefix : '.' ∉ actionPrefix := by
  decide

theorem mem_withoutFinalFeed {text : List Char} {char : Char} (member : char ∈ text)
    (other : char ≠ '\n') : char ∈ withoutFinalFeed text := by
  unfold withoutFinalFeed
  split
  case isFalse => exact member
  case isTrue ends =>
    obtain ⟨start, rfl⟩ := List.getLast?_eq_some_iff.mp ends
    rw [List.dropLast_concat]
    rcases List.mem_append.mp member with member | member
    · exact member
    · exact absurd (List.mem_singleton.mp member) other

/-- What the search finds at one place. -/
def actionIdAt (suffix : List Char) : Option (List Char) :=
  (idAfter actionPrefix suffix).or (idAfter actionPrefix (withoutFinalFeed suffix))

theorem actionIdAt_eq_none {suffix : List Char} (member : '.' ∈ suffix) :
    actionIdAt suffix = none := by
  rw [actionIdAt, idAfter_eq_none_of_mem member dot_not_mem_actionPrefix (by decide),
    idAfter_eq_none_of_mem (mem_withoutFinalFeed member (by decide))
      dot_not_mem_actionPrefix (by decide)]
  rfl

theorem actionIdAt_name (action : StatefulActionSpec) :
    actionIdAt action.function.name = some action.actionId.text := by
  rw [actionIdAt, StatefulActionSpec.function, idAfter_append]
  rfl

/-- The last dot of a qualified name stands before the name of the function. -/
theorem findSome?_afterDots (contract : List Char) (action : StatefulActionSpec) :
    (afterDots (contract ++ '.' :: action.function.name)).findSome? actionIdAt =
      some action.actionId.text := by
  induction contract with
  | nil => simp [afterDots, actionIdAt_name]
  | cons char rest ih =>
      rw [List.cons_append, afterDots]
      split
      · rw [List.findSome?_cons, actionIdAt_eq_none (by simp)]
        exact ih
      · exact ih

theorem metricActionId_eq {campaign : Campaign} {action : StatefulActionSpec}
    {metric : List Char × Json} (reported : IsMetric campaign action metric) :
    metricActionId metric.1 = some action.actionId.text := by
  change (metric.1 :: afterDots metric.1).findSome? actionIdAt = _
  rcases reported.named with named | ⟨contract, named⟩
  · rw [named, List.findSome?_cons, actionIdAt_name]
  · rw [named, List.findSome?_cons, actionIdAt_eq_none (by simp)]
    exact findSome?_afterDots contract action

/-! ## Metrics -/

variable {harness : FoundryInvariantHarnessSpec} {campaign : Campaign}

theorem metricStep_eq {action : StatefulActionSpec} (declared : action ∈ harness.actions)
    {metric : List Char × Json} (reported : IsMetric campaign action metric)
    (total : HandlerCalls) :
    metricStep (some harness.actionIds) total metric = .ok {
      calls := total.calls + campaign.calls action
      actionIds := if 0 < (campaign.calls action : ℤ) then
        total.actionIds ++ [action.actionId.text] else total.actionIds } := by
  obtain ⟨fields, isObject, counted⟩ := reported.counted
  have listed : harness.actionIds.contains action.actionId.text = true :=
    List.contains_iff_mem.mpr (List.mem_map_of_mem (f := fun action => action.actionId.text) declared)
  unfold metricStep
  rw [isObject]
  dsimp only
  rw [counted]
  dsimp only [Option.bind_some, int?]
  rw [raiseIf, if_neg (by omega), metricActionId_eq reported]
  simp only [Option.any_some, listed, Bool.not_true]
  rfl

/-- What the metrics of a campaign add up to. -/
def Campaign.handlerCalls (campaign : Campaign) (order : List StatefulActionSpec) :
    HandlerCalls where
  calls := ((order.map campaign.calls).sum : ℕ)
  actionIds := (order.filter (0 < campaign.calls ·)).map (·.actionId.text)

theorem foldlM_metricStep {order : List StatefulActionSpec}
    (declared : ∀ action ∈ order, action ∈ harness.actions) {metrics : Fields}
    (reported : List.Forall₂ (IsMetric campaign) order metrics) (total : HandlerCalls) :
    metrics.foldlM (metricStep (some harness.actionIds)) total = .ok {
      calls := total.calls + (campaign.handlerCalls order).calls
      actionIds := total.actionIds ++ (campaign.handlerCalls order).actionIds } := by
  induction reported generalizing total with
  | nil => simp [Campaign.handlerCalls, pure, Except.pure]
  | @cons action metric order metrics first _ ih =>
      rw [List.foldlM_cons, bind_of_ok (metricStep_eq (declared _ List.mem_cons_self) first total),
        ih fun action member => declared action (List.mem_cons_of_mem _ member)]
      by_cases called : 0 < campaign.calls action
      · simp [Campaign.handlerCalls, called, add_assoc]
      · simp [Campaign.handlerCalls, called, add_assoc]

theorem handlerCalls_calls_of_perm {order : List StatefulActionSpec}
    (permuted : order.Perm harness.actions) :
    (campaign.handlerCalls order).calls = campaign.total harness :=
  congrArg _ (permuted.map campaign.calls).sum_eq

theorem mem_handlerCalls {order : List StatefulActionSpec}
    (permuted : order.Perm harness.actions) {action : StatefulActionSpec}
    (declared : action ∈ harness.actions) (called : 0 < campaign.calls action) :
    action.actionId.text ∈ (campaign.handlerCalls order).actionIds :=
  List.mem_map_of_mem (f := fun action => action.actionId.text)
    (List.mem_filter.mpr ⟨permuted.mem_iff.mpr declared, decide_eq_true called⟩)

theorem nodup_actions (harness : FoundryInvariantHarnessSpec) : harness.actions.Nodup :=
  List.Nodup.of_map _ harness.actions_distinct

/-- A campaign that counts every call of a sequence has at least its length. -/
theorem length_le_total {calls : List StatefulActionSpec}
    (declared : ∀ action ∈ calls, action ∈ harness.actions)
    (counted : ∀ action, calls.count action ≤ campaign.calls action) :
    calls.length ≤ campaign.total harness := by
  have total : campaign.total harness = ∑ action ∈ harness.actions.toFinset, campaign.calls action :=
    (List.sum_toFinset campaign.calls (nodup_actions harness)).symm
  calc calls.length = ∑ action ∈ calls.toFinset, calls.count action :=
        (List.sum_toFinset_count_eq_length calls).symm
    _ ≤ ∑ action ∈ calls.toFinset, campaign.calls action :=
        Finset.sum_le_sum fun action _ => counted action
    _ ≤ ∑ action ∈ harness.actions.toFinset, campaign.calls action :=
        Finset.sum_le_sum_of_subset fun action member =>
          List.mem_toFinset.mpr (declared action (List.mem_toFinset.mp member))
    _ = campaign.total harness := total.symm

/-! ## Counterexamples -/

theorem parameters_eq_nil_iff {parameters : List (List Char × List Char)}
    (typed : ∀ parameter ∈ parameters, parameter.1 ≠ []) :
    [','].intercalate (parameters.map Prod.fst) = [] ↔ parameters = [] := by
  cases parameters with
  | nil => simp
  | cons first rest =>
      have nonempty := typed first List.mem_cons_self
      cases rest <;> simp [nonempty]

/-- The signature has no parameters exactly when the action has no fuzzed slot. -/
theorem abiSignature_eq_iff (action : StatefulActionSpec) :
    action.function.abiSignature = action.function.name ++ "()".toList ↔ action.fuzzSlots = [] := by
  have typed : ∀ parameter ∈ action.function.parameters, parameter.1 ≠ [] := by
    intro parameter member
    obtain ⟨slot, -, rfl⟩ := List.mem_map.mp member
    exact List.cons_ne_nil _ _
  have closed : ∀ inner : List Char, '(' :: inner ++ [')'] = "()".toList ↔ inner = [] := by
    intro inner
    constructor
    · intro same
      exact List.append_left_eq_self.mp (List.cons.inj same).2
    · rintro rfl
      rfl
  rw [GeneratedFunction.abiSignature, List.append_assoc, List.append_cancel_left_eq, closed,
    parameters_eq_nil_iff typed]
  exact List.map_eq_nil_iff

theorem counterexampleCall_eq_ok_iff {action : StatefulActionSpec}
    (declared : action ∈ harness.actions) {call : Json} (reported : IsCall action call)
    {actionId : List Char} :
    counterexampleCall (some harness.actionIds) call = .ok actionId ↔
      action.fuzzSlots = [] ∧ action.actionId.text = actionId := by
  obtain ⟨fields, rfl, named, signed⟩ := reported
  have listed : action.actionId.text ∈ harness.actionIds :=
    List.mem_map_of_mem (f := fun action => action.actionId.text) declared
  unfold counterexampleCall
  simp only [named, signed, Option.bind_some, string?, raiseIf_bind_eq_ok_iff, not_not,
    abiSignature_eq_iff]
  rw [show idAfter actionPrefix action.function.name = some action.actionId.text from
    idAfter_append _ _]
  dsimp only
  rw [raiseIf_bind_eq_ok_iff]
  simp [listed, pure, Except.pure]

theorem mapM_counterexampleCall {sequence : List StatefulActionSpec}
    (declared : ∀ action ∈ sequence, action ∈ harness.actions) {calls : List Json}
    (reported : List.Forall₂ IsCall sequence calls) {observed : List (List Char)} :
    calls.mapM (counterexampleCall (some harness.actionIds)) = .ok observed ↔
      (∀ action ∈ sequence, action.fuzzSlots = []) ∧
        sequence.map (·.actionId.text) = observed := by
  rw [mapM_eq_ok_iff]
  induction reported generalizing observed with
  | nil =>
      cases observed <;> simp
  | @cons action call sequence calls first _ ih =>
      have firstDeclared := declared action List.mem_cons_self
      have restDeclared : ∀ action ∈ sequence, action ∈ harness.actions :=
        fun action member => declared action (List.mem_cons_of_mem _ member)
      cases observed with
      | nil => simp
      | cons actionId observed =>
          rw [List.map_cons, List.map_cons, List.map_cons, List.cons.injEq, List.cons.injEq,
            ih restDeclared, counterexampleCall_eq_ok_iff firstDeclared first,
            List.forall_mem_cons]
          tauto

/-- A reported counterexample is accepted when no function of its calls has a parameter. -/
theorem validatedStructuredCounterexample_eq_ok_iff {broken : BrokenProperty}
    (wellFormed : broken.WellFormed harness) {calls : List Json}
    (reported : List.Forall₂ IsCall broken.calls calls) {sequence : FoundryCounterexampleSequence} :
    validatedStructuredCounterexample
        (some (.object [("Sequence".toList, .array [.int broken.originalLength, .array calls])]))
        (some harness.actionIds) = .ok sequence ↔
      (∀ action ∈ broken.calls, action.fuzzSlots = []) ∧
        sequence = ⟨broken.originalLength, broken.calls.length,
          broken.calls.map (·.actionId.text)⟩ := by
  have sameLength := reported.length_eq
  have nonempty := List.length_pos_iff.mpr wellFormed.calls_nonempty
  have shrunk := wellFormed.shrunk
  have bounded := wellFormed.original_bounded.trans harness.depth_bounded.2
  have inBounds : ¬ ((broken.originalLength : ℤ) < 1 ∨ 10000 < (broken.originalLength : ℤ) ∨
      calls.isEmpty = true ∨ (broken.originalLength : ℤ) < calls.length) := by
    have notEmpty : calls.isEmpty = false := by
      rw [List.isEmpty_eq_false_iff, ← List.length_pos_iff]
      omega
    rw [notEmpty]
    simp only [Bool.false_eq_true, false_or]
    omega
  unfold validatedStructuredCounterexample
  simp only [ne_eq, not_true_eq_false, if_false, raiseIf_bind_eq_ok_iff, inBounds,
    not_false_eq_true, true_and]
  rw [bind_eq_ok_iff]
  simp only [mapM_counterexampleCall wellFormed.calls_declared reported]
  constructor
  · rintro ⟨observed, ⟨unfuzzed, rfl⟩, same⟩
    refine ⟨unfuzzed, ?_⟩
    rw [← Except.ok.inj same, List.length_map]
  · rintro ⟨unfuzzed, rfl⟩
    refine ⟨_, ⟨unfuzzed, rfl⟩, ?_⟩
    rw [List.length_map]
    rfl

/-! ## One result -/

theorem takeWhile_abiSignature {function : GeneratedFunction} (plain : '(' ∉ function.name) :
    function.abiSignature.takeWhile (· ≠ '(') = function.name := by
  have named : ∀ char ∈ function.name, decide (char ≠ '(') = true := by
    intro char member
    exact decide_eq_true fun same => plain (same ▸ member)
  rw [GeneratedFunction.abiSignature, List.append_assoc, List.takeWhile_append_of_pos named]
  simp

theorem not_mem_property_name (spec : InvariantPropertySpec) {char : Char}
    (absent : char ∉ invariantPrefix) (other : isIdentifierCharacter char = false) :
    char ∉ spec.function.name := by
  intro member
  rcases List.mem_append.mp member with member | member
  · exact absent member
  · exact not_mem_of_isIdentifier spec.propertyId.valid other member

theorem propertyId_of_test (spec : InvariantPropertySpec) :
    idAfter invariantPrefix (spec.function.abiSignature.takeWhile (· ≠ '(')) =
      some spec.propertyId.text := by
  rw [takeWhile_abiSignature (not_mem_property_name spec (by decide) (by decide))]
  exact idAfter_append _ _

theorem settlement_is_no_property :
    idAfter invariantPrefix (settlementFunction.abiSignature.takeWhile (· ≠ '(')) = none := by
  decide

/-- A test of the settlement stops the loop. -/
theorem resultStep_settlement {propertyIds : List (List Char)}
    {actionIds : Option (List (List Char))} {state next : CampaignState} {result : Fields} :
    resultStep propertyIds actionIds state (settlementFunction.abiSignature, .object result) ≠
      .ok next := by
  unfold resultStep
  dsimp only
  rw [settlement_is_no_property]
  exact nofun

theorem foundryNonnegativeInteger_eq {metadata : Fields} {field : String} {value : ℕ}
    (read : field? metadata field = some (.int value)) (bounded : value ≤ 2 ^ 63 - 1) :
    foundryNonnegativeInteger metadata field = .ok (value : ℤ) := by
  unfold foundryNonnegativeInteger
  rw [read]
  dsimp only [Option.bind_some, int?]
  rw [if_neg]
  omega

theorem foundryKind_invariant {result metadata : Fields} {runs calls : ℕ}
    (kind : field? result "kind" = some (.object [("Invariant".toList, .object metadata)]))
    (runsRead : field? metadata "runs" = some (.int runs))
    (callsRead : field? metadata "calls" = some (.int calls))
    (runsBounded : runs ≤ 2 ^ 63 - 1) (callsBounded : calls ≤ 2 ^ 63 - 1) :
    foundryKind result = .ok (.invariant, metadata) := by
  unfold foundryKind
  rw [kind]
  dsimp only [Option.bind_some, object?]
  rw [if_neg (by decide), if_neg (by decide), if_pos rfl,
    bind_of_ok (foundryNonnegativeInteger_eq runsRead runsBounded),
    bind_of_ok (foundryNonnegativeInteger_eq callsRead callsBounded)]
  rfl

variable {reportedCalls : ℕ} {result : Fields}

theorem IsCampaign.runs_le (metered : IsCampaign harness campaign reportedCalls result) :
    campaign.runs ≤ 2 ^ 63 - 1 := by
  have bounded := metered.runs_bounded
  have limited := harness.runs_bounded.2
  omega

theorem IsCampaign.calls_le (metered : IsCampaign harness campaign reportedCalls result) :
    reportedCalls ≤ 2 ^ 63 - 1 := by
  calc reportedCalls ≤ harness.runs * harness.depth := metered.calls_bounded
    _ ≤ 100000 * 10000 := Nat.mul_le_mul harness.runs_bounded.2 harness.depth_bounded.2
    _ ≤ 2 ^ 63 - 1 := by decide

/-- What the metrics of a campaign tell the turn of its property. -/
structure Metered (harness : FoundryInvariantHarnessSpec) (campaign : Campaign)
    (handler : HandlerCalls) : Prop where
  calls : handler.calls = campaign.total harness
  actionIds : ∀ action ∈ harness.actions, 0 < campaign.calls action →
    action.actionId.text ∈ handler.actionIds

/-- What is entered about a property before its outcome is looked at. -/
structure Entered (state : CampaignState) (spec : InvariantPropertySpec) (status : FoundryStatus)
    (entered : CampaignState) : Prop where
  observed : entered.observed = state.observed ++ [(spec.propertyId.text, status)]
  counterexamples : entered.counterexamples = state.counterexamples

/-- The turn of a declared property that was not seen before comes to its outcome. -/
theorem resultStep_property (hasActions : harness.actions ≠ []) {spec : InvariantPropertySpec}
    (declared : spec ∈ harness.properties) {state : CampaignState}
    (fresh : spec.propertyId.text ∉ state.observed.map Prod.fst) {status : FoundryStatus}
    (statusRead : foundryStatus result = .ok status)
    (metered : IsCampaign harness campaign reportedCalls result) :
    ∃ entered handler, Entered state spec status entered ∧ Metered harness campaign handler ∧
      resultStep harness.propertyIds (some harness.actionIds) state
          (spec.function.abiSignature, .object result) =
        outcomeStep (some harness.actionIds) entered spec.propertyId.text result campaign.runs
          reportedCalls handler status := by
  obtain ⟨metadata, metrics, order, kind, runs, calls, metricsRead, permuted, reported⟩ :=
    metered.reported
  have listed : harness.propertyIds.contains spec.propertyId.text = true :=
    List.contains_iff_mem.mpr (List.mem_map_of_mem (f := fun spec => spec.propertyId.text) declared)
  have unseen : (state.observed.map Prod.fst).contains spec.propertyId.text ≠ true :=
    fun seen => fresh (List.contains_iff_mem.mp seen)
  have metricsNonempty : metrics ≠ [] := by
    rintro rfl
    obtain rfl := List.forall₂_nil_right_iff.mp reported
    exact hasActions (List.nil_perm.mp permuted)
  refine ⟨{ state with
      observed := state.observed ++ [(spec.propertyId.text, status)]
      observations := state.observations ++ (campaign.handlerCalls order).actionIds.map
        fun actionId => "observed=action_".toList ++ actionId ++ "()".toList },
    campaign.handlerCalls order, ⟨rfl, rfl⟩,
    ⟨handlerCalls_calls_of_perm permuted, fun _ => mem_handlerCalls permuted⟩, ?_⟩
  unfold resultStep
  dsimp only
  rw [propertyId_of_test]
  dsimp only
  rw [raiseIf_bind_of_not (by simp only [listed]; decide),
    raiseIf_bind_of_not unseen, bind_of_ok statusRead,
    bind_of_ok (foundryKind_invariant kind runs calls metered.runs_le metered.calls_le)]
  dsimp only
  have metricsRead' : (field? metadata "metrics").bind object? = some metrics := by
    rw [metricsRead]
    rfl
  have folded : ((some metrics).getD []).foldlM (metricStep (some harness.actionIds)) ⟨0, []⟩ =
      .ok (campaign.handlerCalls order) := by
    rw [Option.getD_some, foldlM_metricStep (fun _ => permuted.mem_iff.mp) reported]
    simp only [zero_add, List.nil_append]
  rw [raiseIf_bind_of_not (by decide), runs, calls, metricsRead']
  dsimp only [Option.bind_some, int?]
  rw [raiseIf_bind_of_not (by omega),
    raiseIf_bind_of_not (by simp [metricsNonempty]), bind_of_ok folded]

theorem foundryStatus_eq {text : String} {status : FoundryStatus}
    (read : field? result "status" = some (.string text.toList))
    (named : text = "Success" ∧ status = .pass ∨ text = "Failure" ∧ status = .fail) :
    foundryStatus result = .ok status := by
  unfold foundryStatus
  rw [read]
  rcases named with ⟨rfl, rfl⟩ | ⟨rfl, rfl⟩ <;> rfl

/-- A property that passed is entered. -/
theorem resultStep_passed (hasActions : harness.actions ≠ []) {spec : InvariantPropertySpec}
    (declared : spec ∈ harness.properties) {state : CampaignState}
    (fresh : spec.propertyId.text ∉ state.observed.map Prod.fst)
    (passed : IsPassedProperty harness campaign result) :
    ∃ next, resultStep harness.propertyIds (some harness.actionIds) state
        (spec.function.abiSignature, .object result) = .ok next ∧ Entered state spec .pass next := by
  obtain ⟨entered, handler, isEntered, isMetered, same⟩ :=
    resultStep_property hasActions declared fresh
      (foundryStatus_eq passed.status (.inl ⟨rfl, rfl⟩)) passed.metered
  have ran := passed.ran
  have evidence : ¬ ((campaign.runs : ℤ) ≤ 0 ∨ ((campaign.total harness : ℕ) : ℤ) ≤ 0 ∨
      handler.calls ≠ campaign.total harness ∨
      (field? result "counterexample").isSome = true) := by
    rw [passed.no_counterexample, isMetered.calls]
    simp only [Option.isSome_none, Bool.false_eq_true, or_false, ne_eq, not_true_eq_false]
    omega
  refine ⟨_, by rw [same, outcomeStep, raiseIf_bind_of_not evidence]; rfl, ?_⟩
  exact ⟨isEntered.observed, isEntered.counterexamples⟩

/-- The calls of a campaign cover the counterexample. -/
theorem handler_covers {broken : BrokenProperty} (wellFormed : broken.WellFormed harness)
    {handler : HandlerCalls} (isMetered : Metered harness campaign handler)
    (counted : ∀ action, broken.calls.count action ≤ campaign.calls action) :
    ¬ (handler.calls < (broken.calls.map (·.actionId.text)).length ∨
      !(broken.calls.map (·.actionId.text)).all handler.actionIds.contains) := by
  have enough := length_le_total wellFormed.calls_declared counted
  have covered : (broken.calls.map (·.actionId.text)).all handler.actionIds.contains = true := by
    rw [List.all_eq_true]
    intro actionId member
    obtain ⟨action, called, rfl⟩ := List.mem_map.mp member
    have positive : 0 < campaign.calls action :=
      (List.count_pos_iff.mpr called).trans_le (counted action)
    exact List.contains_iff_mem.mpr
      (isMetered.actionIds action (wellFormed.calls_declared action called) positive)
  rw [covered, isMetered.calls, List.length_map]
  simp only [Bool.not_true, Bool.false_eq_true, or_false]
  omega

/-- A property that failed is entered exactly when no function of its calls has a parameter. -/
theorem resultStep_broken (hasActions : harness.actions ≠ []) {broken : BrokenProperty}
    (wellFormed : broken.WellFormed harness) {state : CampaignState}
    (fresh : broken.property.propertyId.text ∉ state.observed.map Prod.fst)
    (failed : IsBrokenProperty harness broken campaign reportedCalls result) :
    (∃ next, resultStep harness.propertyIds (some harness.actionIds) state
        (broken.property.function.abiSignature, .object result) = .ok next) ↔
      ∀ action ∈ broken.calls, action.fuzzSlots = [] := by
  obtain ⟨entered, handler, isEntered, isMetered, same⟩ :=
    resultStep_property hasActions wellFormed.property_declared fresh
      (foundryStatus_eq failed.status (.inr ⟨rfl, rfl⟩)) failed.metered
  obtain ⟨calls, sequenceRead, reported⟩ := failed.sequence
  rw [same, outcomeStep, sequenceRead, exists_bind_eq_ok_iff]
  simp only [validatedStructuredCounterexample_eq_ok_iff wellFormed reported]
  constructor
  · rintro ⟨sequence, ⟨unfuzzed, -⟩, -⟩
    exact unfuzzed
  · intro unfuzzed
    refine ⟨_, ⟨unfuzzed, rfl⟩, ?_⟩
    rw [raiseIf_bind_of_not (handler_covers wellFormed isMetered failed.counted)]
    exact ⟨_, rfl⟩

theorem resultStep_broken_entered (hasActions : harness.actions ≠ []) {broken : BrokenProperty}
    (wellFormed : broken.WellFormed harness) {state next : CampaignState}
    (fresh : broken.property.propertyId.text ∉ state.observed.map Prod.fst)
    (failed : IsBrokenProperty harness broken campaign reportedCalls result)
    (stepped : resultStep harness.propertyIds (some harness.actionIds) state
      (broken.property.function.abiSignature, .object result) = .ok next) :
    next.observed = state.observed ++ [(broken.property.propertyId.text, .fail)] ∧
      next.counterexamples.length = state.counterexamples.length + 1 := by
  obtain ⟨entered, handler, isEntered, -, same⟩ :=
    resultStep_property hasActions wellFormed.property_declared fresh
      (foundryStatus_eq failed.status (.inr ⟨rfl, rfl⟩)) failed.metered
  rw [same, outcomeStep, bind_eq_ok_iff] at stepped
  obtain ⟨sequence, -, stepped⟩ := stepped
  obtain ⟨-, finished⟩ := raiseIf_bind_eq_ok_iff.mp stepped
  obtain rfl := Except.ok.inj finished
  exact ⟨isEntered.observed, by simp [isEntered.counterexamples]⟩

end Foundry

end MmAudit
