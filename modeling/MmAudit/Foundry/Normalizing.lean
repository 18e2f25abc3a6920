import MmAudit.Foundry.Sequences
import MmAudit.Foundry.Verdict

/-!
# What a normalized result says of its report

The reader of a report returns in two cases only: every declared property has one result and
passed a campaign that its metrics confirm, or exactly one property failed with a sequence of
declared actions that its metrics count.  The text of the result holds that sequence, and it
is read back from there.
-/

namespace MmAudit

namespace Foundry

open Fallible Json

/-! ## What a result reports -/

/-- The property that a result belongs to. -/
def resultProperty (entry : List Char × Json) : Option (List Char) :=
  idAfter invariantPrefix (entry.1.takeWhile (· ≠ '('))

def resultStatus (entry : List Char × Json) : Option FoundryStatus :=
  (object? entry.2).bind fun result => (foundryStatus result).toOption

/-- The number of calls that a metric counts. -/
def metricCount (metric : List Char × Json) : ℤ :=
  (((object? metric.2).bind (field? · "calls")).bind int?).getD 0

/-- A metric counts calls of the action. -/
def CountsAction (metrics : Fields) (actionId : List Char) : Prop :=
  ∃ metric ∈ metrics, metricActionId metric.1 = some actionId ∧ 0 < metricCount metric

/-- The result of an invariant, with the data of its campaign. -/
structure IsCampaignResult (entry : List Char × Json) (result metadata metrics : Fields)
    (runs calls : ℤ) : Prop where
  object : entry.2 = .object result
  kind : foundryKind result = .ok (.invariant, metadata)
  runs : (field? metadata "runs").bind int? = some runs
  calls : (field? metadata "calls").bind int? = some calls
  metrics : (field? metadata "metrics").bind object? = some metrics

/-- The result passed, in a campaign with runs whose calls its metrics add up to. -/
def IsPassedCampaign (entry : List Char × Json) : Prop :=
  ∃ result metadata metrics runs calls,
    IsCampaignResult entry result metadata metrics runs calls ∧
      foundryStatus result = .ok .pass ∧ 0 < runs ∧ 0 < calls ∧
      calls = (metrics.map metricCount).sum ∧ field? result "counterexample" = none

/-- The call is a call of the action, without arguments. -/
def CallsAction (call : Json) (actionId : List Char) : Prop :=
  ∃ fields, call = .object fields ∧
    (field? fields "func_name").bind string? = some (actionPrefix ++ actionId) ∧
    (field? fields "signature").bind string? = some (actionPrefix ++ actionId ++ "()".toList)

/-- The result failed with the sequence, and its metrics count each declared action of it. -/
def IsFailedCampaign (actionIds : List (List Char)) (entry : List Char × Json)
    (sequence : FoundryCounterexampleSequence) : Prop :=
  ∃ result metadata metrics runs calls reported,
    IsCampaignResult entry result metadata metrics runs calls ∧
      foundryStatus result = .ok .fail ∧
      field? result "counterexample" = some (.object [("Sequence".toList,
        .array [.int sequence.originalLength, .array reported])]) ∧
      IsSequence actionIds sequence ∧ List.Forall₂ CallsAction reported sequence.actionIds ∧
      ∀ actionId ∈ sequence.actionIds, CountsAction metrics actionId

/-! ## The metrics of a handler -/

theorem metricStep_cases {actionIds : Option (List (List Char))} {total next : HandlerCalls}
    {metric : List Char × Json} (stepped : metricStep actionIds total metric = .ok next) :
    next.calls = total.calls + metricCount metric ∧
      (next.actionIds = total.actionIds ∨ ∃ actionId, metricActionId metric.1 = some actionId ∧
        0 < metricCount metric ∧ next.actionIds = total.actionIds ++ [actionId]) := by
  unfold metricStep at stepped
  split at stepped
  case h_2 => cases stepped
  case h_1 fields isObject =>
    have counted : metricCount metric = ((field? fields "calls").bind int?).getD 0 := by
      rw [metricCount, isObject]
      rfl
    split at stepped
    · cases stepped
    next count isCount =>
      rw [isCount, Option.getD_some] at counted
      rw [counted]
      obtain ⟨-, stepped⟩ := raiseIf_bind_eq_ok_iff.mp stepped
      split at stepped
      · obtain rfl := Except.ok.inj stepped
        exact ⟨rfl, .inl rfl⟩
      next actionId named =>
        obtain ⟨-, stepped⟩ := raiseIf_bind_eq_ok_iff.mp stepped
        obtain rfl := Except.ok.inj stepped
        refine ⟨rfl, ?_⟩
        by_cases positive : 0 < count
        · exact .inr ⟨actionId, named, positive, if_pos positive⟩
        · exact .inl (if_neg positive)

/-- What the loop over the metrics has found. -/
structure Tallied (metrics : Fields) (handler : HandlerCalls) : Prop where
  calls : handler.calls = (metrics.map metricCount).sum
  actionIds : ∀ actionId ∈ handler.actionIds, CountsAction metrics actionId

theorem tallied_of_foldlM {actionIds : Option (List (List Char))} {metrics : Fields}
    {handler : HandlerCalls}
    (returned : metrics.foldlM (metricStep actionIds) ⟨0, []⟩ = .ok handler) :
    Tallied metrics handler := by
  refine foldlM_invariant Tallied metrics returned ⟨rfl, nofun⟩ ?_
  intro done metric total next tallied stepped
  have earlier : ∀ {actionId}, CountsAction done actionId →
      CountsAction (done ++ [metric]) actionId := by
    rintro actionId ⟨counting, listed, counts⟩
    exact ⟨counting, List.mem_append_left _ listed, counts⟩
  obtain ⟨calls, same | ⟨actionId, named, positive, added⟩⟩ := metricStep_cases stepped
  · refine ⟨by simp [calls, tallied.calls], fun other listed => ?_⟩
    rw [same] at listed
    exact earlier (tallied.actionIds other listed)
  · refine ⟨by simp [calls, tallied.calls], fun other listed => ?_⟩
    rw [added] at listed
    rcases List.mem_append.mp listed with listed | listed
    · exact earlier (tallied.actionIds other listed)
    · rw [List.mem_singleton.mp listed]
      exact ⟨metric, List.mem_append_right _ (List.mem_singleton.mpr rfl), named, positive⟩

theorem CountsAction.isIdentifier {metrics : Fields} {actionId : List Char}
    (counts : CountsAction metrics actionId) : isIdentifier 47 actionId = true := by
  obtain ⟨metric, -, named, -⟩ := counts
  obtain ⟨suffix, -, found⟩ := List.exists_of_findSome?_eq_some named
  rcases Option.or_eq_some_iff.mp found with read | ⟨-, read⟩
  · exact (eq_append_of_idAfter read).2
  · exact (eq_append_of_idAfter read).2

/-! ## The sequence of a report -/

theorem callsAction_of_counterexampleCall {actionIds : List (List Char)} {call : Json}
    {actionId : List Char} (read : counterexampleCall (some actionIds) call = .ok actionId) :
    CallsAction call actionId ∧ actionId ∈ actionIds ∧ isIdentifier 47 actionId = true := by
  unfold counterexampleCall at read
  split at read
  case h_2 => cases read
  case h_1 fields =>
    split at read
    case h_2 => cases read
    case h_1 name signature isName isSignature =>
      obtain ⟨exact, read⟩ := raiseIf_bind_eq_ok_iff.mp read
      split at read
      · cases read
      next named =>
        obtain ⟨declared, read⟩ := raiseIf_bind_eq_ok_iff.mp read
        obtain rfl := Except.ok.inj read
        obtain ⟨isAction, identifier⟩ := eq_append_of_idAfter named
        rw [not_not, isAction] at exact
        rw [isAction] at isName
        rw [exact] at isSignature
        refine ⟨⟨fields, rfl, isName, isSignature⟩, ?_, identifier⟩
        simpa using declared

theorem forall₂_of_mapM {Item Value : Type} {compute : Item → Except ValueError Value}
    {items : List Item} {values : List Value} (computed : items.mapM compute = .ok values) :
    List.Forall₂ (fun item value => compute item = .ok value) items values := by
  have same : List.Forall₂ Eq (items.map compute) (values.map .ok) := by
    rw [List.forall₂_eq_eq_eq]
    exact (mapM_eq_ok_iff items).mp computed
  rwa [List.forall₂_map_left_iff, List.forall₂_map_right_iff] at same

/-- A sequence that the reader accepted is the one of the report. -/
theorem sequence_of_validated {actionIds : List (List Char)} {counterexample : Option Json}
    {sequence : FoundryCounterexampleSequence}
    (read : validatedStructuredCounterexample counterexample (some actionIds) = .ok sequence) :
    IsSequence actionIds sequence ∧ ∃ reported,
      counterexample = some (.object [("Sequence".toList,
        .array [.int sequence.originalLength, .array reported])]) ∧
      List.Forall₂ CallsAction reported sequence.actionIds := by
  unfold validatedStructuredCounterexample at read
  split at read
  case h_2 => cases read
  case h_1 name payload =>
    split at read
    · cases read
    next named =>
      split at read
      case h_2 | h_3 => cases read
      case h_1 originalLength calls =>
        obtain ⟨bounds, read⟩ := raiseIf_bind_eq_ok_iff.mp read
        obtain ⟨observed, computed, read⟩ := bind_eq_ok_iff.mp read
        obtain rfl := Except.ok.inj read
        have all := forall₂_of_mapM computed
        have lengths := all.length_eq
        have declared : ∀ actionId ∈ observed,
            actionId ∈ actionIds ∧ isIdentifier 47 actionId = true := by
          intro actionId listed
          obtain ⟨call, -, callRead⟩ := exists_item_of_mapM computed listed
          exact (callsAction_of_counterexampleCall callRead).2
        simp only [not_or, not_lt, List.isEmpty_iff] at bounds
        obtain ⟨positive, bounded, nonempty, short⟩ := bounds
        refine ⟨⟨?_, rfl, ?_, bounded, fun actionId listed => (declared actionId listed).1,
          fun actionId listed => (declared actionId listed).2⟩, calls, ?_, ?_⟩
        · rintro rfl
          exact nonempty (List.length_eq_zero_iff.mp lengths)
        · rw [← lengths]
          exact short
        · rw [not_not.mp named]
        · exact all.imp fun call actionId callRead =>
            (callsAction_of_counterexampleCall callRead).1

/-! ## One turn of the loop -/

/-- What the loop has found in the results that it has done. -/
structure Read (propertyIds actionIds : List (List Char)) (done : Fields)
    (state : CampaignState) : Prop where
  properties : done.map resultProperty = state.observed.map fun observed => some observed.1
  statuses : done.map resultStatus = state.observed.map fun observed => some observed.2
  distinct : (state.observed.map Prod.fst).Nodup
  declared : ∀ observed ∈ state.observed, observed.1 ∈ propertyIds
  observations : ∀ line ∈ state.observations, '[' ∉ line
  passed : ∀ entry ∈ done, resultStatus entry = some .pass → IsPassedCampaign entry
  failed : List.Forall₂ (fun entry text => ∃ propertyId sequence,
      resultProperty entry = some propertyId ∧ IsFailedCampaign actionIds entry sequence ∧
        text = counterexampleText sequence propertyId)
    (done.filter (resultStatus · = some .fail)) state.counterexamples

/-- A turn that returns has read a new result of a declared property. -/
theorem resultStep_inversion {propertyIds actionIds : List (List Char)}
    {state next : CampaignState} {entry : List Char × Json}
    (stepped : resultStep propertyIds (some actionIds) state entry = .ok next) :
    ∃ propertyId status result metadata runs calls handler entered,
      resultProperty entry = some propertyId ∧ propertyId ∈ propertyIds ∧
        propertyId ∉ state.observed.map Prod.fst ∧ entry.2 = .object result ∧
        foundryStatus result = .ok status ∧ foundryKind result = .ok (.invariant, metadata) ∧
        (field? metadata "runs").bind int? = some runs ∧
        (field? metadata "calls").bind int? = some calls ∧
        (status ≠ .skip → ∃ metrics, (field? metadata "metrics").bind object? = some metrics ∧
          Tallied metrics handler) ∧
        (∀ actionId ∈ handler.actionIds, isIdentifier 47 actionId = true) ∧
        entered.observed = state.observed ++ [(propertyId, status)] ∧
        entered.observations = state.observations ++ handler.actionIds.map (fun actionId =>
          "observed=action_".toList ++ actionId ++ "()".toList) ∧
        entered.counterexamples = state.counterexamples ∧
        outcomeStep (some actionIds) entered propertyId result runs calls handler status =
          .ok next := by
  unfold resultStep at stepped
  split at stepped
  case h_2 => cases stepped
  case h_1 result isObject =>
    split at stepped
    · cases stepped
    next propertyId named =>
      obtain ⟨declared, stepped⟩ := raiseIf_bind_eq_ok_iff.mp stepped
      obtain ⟨fresh, stepped⟩ := raiseIf_bind_eq_ok_iff.mp stepped
      obtain ⟨status, statusRead, stepped⟩ := bind_eq_ok_iff.mp stepped
      obtain ⟨⟨kind, metadata⟩, kindRead, stepped⟩ := bind_eq_ok_iff.mp stepped
      dsimp only at stepped
      obtain ⟨isInvariant, checked⟩ := raiseIf_bind_eq_ok_iff.mp stepped
      obtain rfl := not_not.mp isInvariant
      split at checked
      case h_2 => cases checked
      case h_1 runs calls isRuns isCalls =>
        obtain ⟨-, checked⟩ := raiseIf_bind_eq_ok_iff.mp checked
        obtain ⟨metered, checked⟩ := raiseIf_bind_eq_ok_iff.mp checked
        obtain ⟨handler, counted, checked⟩ := bind_eq_ok_iff.mp checked
        have tallied := tallied_of_foldlM counted
        refine ⟨propertyId, status, result, metadata, runs, calls, handler, _, named,
          by simpa using declared, by simpa using fresh, isObject, statusRead, kindRead, isRuns,
          isCalls, ?_, fun actionId listed => (tallied.actionIds actionId listed).isIdentifier,
          ?_, ?_, ?_, checked⟩
        · intro notSkipped
          cases metrics : (field? metadata "metrics").bind object? with
          | none =>
              rw [metrics] at metered
              exact absurd ⟨notSkipped, rfl⟩ metered
          | some fields =>
              rw [metrics] at tallied
              exact ⟨fields, rfl, tallied⟩
        · rfl
        · rfl
        · rfl

/-- A turn reads one more result. -/
theorem Read.step {propertyIds actionIds : List (List Char)} {done : Fields}
    {state next : CampaignState} {entry : List Char × Json}
    (read : Read propertyIds actionIds done state)
    (stepped : resultStep propertyIds (some actionIds) state entry = .ok next) :
    Read propertyIds actionIds (done ++ [entry]) next := by
  obtain ⟨propertyId, status, result, metadata, runs, calls, handler, entered, named, declared,
    fresh, isObject, statusRead, kindRead, isRuns, isCalls, metered, identifiers, observed,
    observations, counterexamples, outcome⟩ := resultStep_inversion stepped
  have isStatus : resultStatus entry = some status := by
    rw [resultStatus, isObject]
    exact congrArg Except.toOption statusRead
  have noHeader : ∀ line ∈ entered.observations, '[' ∉ line := by
    rw [observations]
    intro line listed
    rcases List.mem_append.mp listed with listed | listed
    · exact read.observations line listed
    · obtain ⟨actionId, counted, rfl⟩ := List.mem_map.mp listed
      simp only [List.mem_append, not_or]
      exact ⟨⟨by decide, not_mem_of_isIdentifier (identifiers actionId counted) (by decide)⟩,
        by decide⟩
  have distinct : ((state.observed ++ [(propertyId, status)]).map Prod.fst).Nodup := by
    rw [List.map_append, List.nodup_append]
    refine ⟨read.distinct, List.nodup_singleton _, ?_⟩
    rintro seen listed other isOther rfl
    rw [List.mem_singleton.mp isOther] at listed
    exact fresh listed
  -- The fields of the next state that do not depend on the outcome.
  have reads : ∀ {after : CampaignState}, after.observed = entered.observed →
      after.observations = entered.observations →
      (status = .pass → IsPassedCampaign entry) →
      (if status = .fail then ∃ text, after.counterexamples = state.counterexamples ++ [text] ∧
          ∃ sequence, IsFailedCampaign actionIds entry sequence ∧
            text = counterexampleText sequence propertyId
        else after.counterexamples = state.counterexamples) →
      Read propertyIds actionIds (done ++ [entry]) after := by
    intro after sameObserved sameObservations passed failed
    rw [observed] at sameObserved
    refine ⟨?_, ?_, ?_, ?_, ?_, ?_, ?_⟩
    · rw [sameObserved, List.map_append, List.map_append, read.properties]
      simp [named]
    · rw [sameObserved, List.map_append, List.map_append, read.statuses]
      simp [isStatus]
    · rw [sameObserved]
      exact distinct
    · rw [sameObserved]
      intro other listed
      rcases List.mem_append.mp listed with listed | listed
      · exact read.declared other listed
      · rw [List.mem_singleton.mp listed]
        exact declared
    · rw [sameObservations]
      exact noHeader
    · intro other listed isPass
      rcases List.mem_append.mp listed with listed | listed
      · exact read.passed other listed isPass
      · rw [List.mem_singleton.mp listed, isStatus] at isPass
        rw [List.mem_singleton.mp listed]
        exact passed (Option.some.inj isPass)
    · rw [List.filter_append]
      split at failed
      next isFail =>
        obtain ⟨text, added, sequence, isFailed, isText⟩ := failed
        rw [added, List.filter_singleton, isStatus, isFail]
        exact List.rel_append read.failed
          (.cons ⟨propertyId, sequence, named, isFailed, isText⟩ .nil)
      next notFail =>
        have none : [entry].filter (resultStatus · = some .fail) = [] := by
          simp [isStatus, notFail]
        rw [failed, none, List.append_nil]
        exact read.failed
  cases status with
  | skip =>
      obtain rfl := Except.ok.inj outcome
      exact reads rfl rfl nofun counterexamples
  | pass =>
      obtain ⟨evidence, outcome⟩ := raiseIf_bind_eq_ok_iff.mp outcome
      obtain rfl := Except.ok.inj outcome
      simp only [not_or, not_le, not_not, Bool.not_eq_true, Option.isSome_eq_false_iff,
        Option.isNone_iff_eq_none, ne_eq] at evidence
      obtain ⟨ran, called, agree, none⟩ := evidence
      refine reads rfl rfl (fun _ => ?_) counterexamples
      obtain ⟨metrics, isMetrics, tallied⟩ := metered nofun
      exact ⟨result, metadata, metrics, runs, calls,
        ⟨isObject, kindRead, isRuns, isCalls, isMetrics⟩, statusRead, ran, called,
        by rw [← agree, tallied.calls], none⟩
  | fail =>
      obtain ⟨sequence, validated, outcome⟩ := bind_eq_ok_iff.mp outcome
      obtain ⟨covered, outcome⟩ := raiseIf_bind_eq_ok_iff.mp outcome
      obtain rfl := Except.ok.inj outcome
      obtain ⟨isSequence, reported, isCounterexample, called⟩ := sequence_of_validated validated
      obtain ⟨metrics, isMetrics, tallied⟩ := metered nofun
      refine reads rfl rfl nofun ⟨_, congrArg (· ++ _) counterexamples, sequence, ?_, rfl⟩
      refine ⟨result, metadata, metrics, runs, calls, reported,
        ⟨isObject, kindRead, isRuns, isCalls, isMetrics⟩, statusRead, isCounterexample, isSequence,
        called, fun actionId listed => tallied.actionIds actionId ?_⟩
      simp only [not_or, Bool.not_eq_true', Bool.not_eq_false, List.all_eq_true,
        List.contains_iff_mem] at covered
      exact covered.2 actionId listed

/-! ## The result -/

/-- What the loop has found when a result is returned. -/
structure Concluded (propertyIds actionIds : List (List Char)) (results : Fields)
    (state : CampaignState) (result : StructuredResult) : Prop where
  read : Read propertyIds actionIds results state
  covered : ∀ propertyId ∈ propertyIds, propertyId ∈ state.observed.map Prod.fst
  unskipped : ∀ observed ∈ state.observed, observed.2 ≠ .skip
  unambiguous : state.counterexamples.length ≤ 1
  status : result.status =
    if (state.observed.filter fun observed => observed.2 = .fail).isEmpty then .passed
    else .counterexample
  text : result.structuredText = ['\n'].intercalate
    (state.observations.dedup.insertionSort (· ≤ ·) ++ state.counterexamples)

theorem concluded_of_campaignResult {returnCode : ℤ} {propertyIds actionIds : List (List Char)}
    {results : Fields} {result : StructuredResult}
    (returned : campaignResult returnCode propertyIds (some actionIds) results = .ok result) :
    ∃ state, Concluded propertyIds actionIds results state result := by
  obtain ⟨state, looped, checked⟩ := bind_eq_ok_iff.mp returned
  obtain ⟨exact, checked⟩ := raiseIf_bind_eq_ok_iff.mp checked
  obtain ⟨-, checked⟩ := raiseIf_bind_eq_ok_iff.mp checked
  obtain ⟨single, checked⟩ := raiseIf_bind_eq_ok_iff.mp checked
  obtain rfl := Except.ok.inj checked
  simp only [not_or, Bool.not_eq_true', Bool.not_eq_false, List.all_eq_true,
    List.contains_iff_mem, Bool.not_eq_true, List.any_eq_false, decide_eq_true_eq] at exact
  have read : Read propertyIds actionIds results state :=
    foldlM_invariant (Read propertyIds actionIds) results looped
      ⟨rfl, rfl, List.nodup_nil, nofun, nofun, nofun, .nil⟩
      fun _ _ _ _ holds stepped => holds.step stepped
  exact ⟨state, read, exact.2.1, exact.2.2, by omega, rfl, rfl⟩

variable {propertyIds actionIds : List (List Char)} {results : Fields} {state : CampaignState}
  {result : StructuredResult}

theorem not_mem_intercalate {char : Char} {lines : List (List Char)} (notFeed : char ≠ '\n')
    (absent : ∀ line ∈ lines, char ∉ line) : char ∉ ['\n'].intercalate lines := by
  induction lines with
  | nil => exact List.not_mem_nil
  | cons line lines ih =>
      obtain ⟨first, rest⟩ := List.forall_mem_cons.mp absent
      cases lines with
      | nil => simpa using first
      | cons other lines =>
          rw [List.intercalate_cons_of_ne_nil (List.cons_ne_nil _ _), List.mem_append,
            List.mem_append, List.mem_singleton, not_or, not_or]
          exact ⟨⟨first, notFeed⟩, ih rest⟩

/-- Every declared property has exactly one result. -/
theorem Concluded.count_resultProperty
    (concluded : Concluded propertyIds actionIds results state result) {propertyId : List Char}
    (declared : propertyId ∈ propertyIds) :
    (results.map resultProperty).count (some propertyId) = 1 := by
  have keys : (state.observed.map fun observed => some observed.1) =
      (state.observed.map Prod.fst).map some := by
    rw [List.map_map]
    rfl
  rw [concluded.read.properties, keys,
    List.count_map_of_injective _ _ (Option.some_injective _)]
  exact List.count_eq_one_of_mem concluded.read.distinct (concluded.covered propertyId declared)

/-- Every result is one of a declared property and has passed or failed. -/
theorem Concluded.of_mem (concluded : Concluded propertyIds actionIds results state result)
    {entry : List Char × Json} (listed : entry ∈ results) :
    (∃ propertyId ∈ propertyIds, resultProperty entry = some propertyId) ∧
      (resultStatus entry = some .pass ∨ resultStatus entry = some .fail) := by
  constructor
  · have member := List.mem_map_of_mem (f := resultProperty) listed
    rw [concluded.read.properties] at member
    obtain ⟨observed, seen, same⟩ := List.mem_map.mp member
    exact ⟨observed.1, concluded.read.declared observed seen, same.symm⟩
  · have member := List.mem_map_of_mem (f := resultStatus) listed
    rw [concluded.read.statuses] at member
    obtain ⟨observed, seen, same⟩ := List.mem_map.mp member
    have unskipped := concluded.unskipped observed seen
    rw [← same]
    cases status : observed.2 with
    | pass => exact .inl rfl
    | fail => exact .inr rfl
    | skip => exact absurd status unskipped

theorem Concluded.status_eq_passed_iff
    (concluded : Concluded propertyIds actionIds results state result) :
    result.status = .passed ↔ results.filter (resultStatus · = some .fail) = [] := by
  have sameLength : (results.filter (resultStatus · = some .fail)).length =
      (state.observed.filter fun observed => observed.2 = .fail).length := by
    rw [← List.countP_eq_length_filter, ← List.countP_eq_length_filter]
    have statuses := congrArg (List.countP (· = some .fail)) concluded.read.statuses
    rw [List.countP_map, List.countP_map] at statuses
    simpa [Function.comp_def] using statuses
  rw [concluded.status, ← List.length_eq_zero_iff, sameLength, List.length_eq_zero_iff]
  split
  next empty => simpa using empty
  next nonempty => simpa using nonempty

/-- Without a failure all have passed, and the text holds no sequence. -/
theorem Concluded.of_passed (concluded : Concluded propertyIds actionIds results state result)
    (passed : results.filter (resultStatus · = some .fail) = []) (isForeignWord : Char → Bool) :
    (∀ entry ∈ results, IsPassedCampaign entry) ∧
      foundryCounterexampleSequence isForeignWord result.structuredText actionIds = .ok none := by
  have noText := concluded.read.failed
  rw [passed, List.forall₂_nil_left_iff] at noText
  constructor
  · intro entry listed
    refine concluded.read.passed entry listed ((concluded.of_mem listed).2.resolve_right ?_)
    intro failed
    exact List.filter_eq_nil_iff.mp passed entry listed (decide_eq_true failed)
  · rw [concluded.text, noText, List.append_nil]
    refine foundryCounterexampleSequence_eq_none (not_mem_intercalate (by decide) ?_)
    intro line listed
    rw [List.mem_insertionSort, List.mem_dedup] at listed
    exact concluded.read.observations line listed

/-- With a failure there is exactly one, and its sequence is read back from the text. -/
theorem Concluded.of_failed (concluded : Concluded propertyIds actionIds results state result)
    (failed : results.filter (resultStatus · = some .fail) ≠ []) (isForeignWord : Char → Bool) :
    ∃ before entry after propertyId sequence, results = before ++ entry :: after ∧
      (∀ other ∈ before ++ after, IsPassedCampaign other) ∧
      resultProperty entry = some propertyId ∧ IsFailedCampaign actionIds entry sequence ∧
      foundryCounterexampleSequence isForeignWord result.structuredText actionIds =
        .ok (some sequence) := by
  have texts := concluded.read.failed
  obtain ⟨entry, isOnly⟩ : ∃ entry, results.filter (resultStatus · = some .fail) = [entry] := by
    have short := concluded.unambiguous
    rw [← texts.length_eq] at short
    exact List.length_eq_one_iff.mp (by have := List.length_pos_iff.mpr failed; omega)
  rw [isOnly, List.forall₂_cons_left_iff] at texts
  obtain ⟨text, others, ⟨propertyId, sequence, named, isFailed, rfl⟩, noOther, isText⟩ := texts
  rw [List.forall₂_nil_left_iff] at noOther
  obtain ⟨before, after, split, noneBefore, -, noneAfter⟩ := List.filter_eq_cons_iff.mp isOnly
  refine ⟨before, entry, after, propertyId, sequence, split, ?_, named, isFailed, ?_⟩
  · intro other listed
    have notFailed : resultStatus other ≠ some .fail := by
      rcases List.mem_append.mp listed with isBefore | isAfter
      · simpa using noneBefore other isBefore
      · simpa using List.filter_eq_nil_iff.mp noneAfter other isAfter
    have inside : other ∈ results := by
      rw [split]
      exact (List.sublist_cons_self entry after).append_left before |>.subset listed
    exact concluded.read.passed other inside
      ((concluded.of_mem inside).2.resolve_right notFailed)
  · have lines : ['\n'].intercalate (state.observations.dedup.insertionSort (· ≤ ·) ++
        [counterexampleText sequence propertyId]) = _ := intercalate_append_singleton _ _ _
    obtain ⟨_, _, _, _, _, _, -, -, -, isSequence, -, -⟩ := isFailed
    rw [concluded.text, isText, noOther, lines]
    refine foundryCounterexampleSequence_counterexampleText isSequence
      (eq_append_of_idAfter named).2 ?_
    intro member
    obtain ⟨line, listed, inLine⟩ := List.mem_flatMap.mp member
    rw [List.mem_insertionSort, List.mem_dedup] at listed
    rcases List.mem_append.mp inLine with inLine | inFeed
    · exact concluded.read.observations line listed inLine
    · exact absurd (List.mem_singleton.mp inFeed) (by decide)

/-- A result that is returned says what the report says: either every declared property passed,
or exactly one failed with the sequence that is read back from the text. -/
theorem structured_result_faithful {loads : String → Except ValueError Json} {stdout : String}
    {returnCode : ℤ}
    (returned : structuredFoundryInvariantResult loads stdout returnCode propertyIds
      (some actionIds) = .ok result) (isForeignWord : Char → Bool) :
    ∃ name suite results, foundrySuites loads stdout = .ok [(name, .object suite)] ∧
      (field? suite "test_results").bind object? = some results ∧
      (∀ entry ∈ results, ∃ propertyId ∈ propertyIds, resultProperty entry = some propertyId) ∧
      (∀ propertyId ∈ propertyIds, (results.map resultProperty).count (some propertyId) = 1) ∧
      (result.status = .passed ∧ (∀ entry ∈ results, IsPassedCampaign entry) ∧
          foundryCounterexampleSequence isForeignWord result.structuredText actionIds =
            .ok none ∨
        result.status = .counterexample ∧ ∃ before entry after propertyId sequence,
          results = before ++ entry :: after ∧
          (∀ other ∈ before ++ after, IsPassedCampaign other) ∧
          resultProperty entry = some propertyId ∧ IsFailedCampaign actionIds entry sequence ∧
          foundryCounterexampleSequence isForeignWord result.structuredText actionIds =
            .ok (some sequence)) := by
  obtain ⟨inventory, returned⟩ := raiseIf_bind_eq_ok_iff.mp returned
  obtain ⟨suites, isSuites, returned⟩ := bind_eq_ok_iff.mp returned
  split at returned
  case h_2 => cases returned
  case h_1 name suite =>
    obtain ⟨state, concluded⟩ := concluded_of_campaignResult returned
    obtain ⟨results, isResults⟩ : ∃ results,
        (field? suite "test_results").bind object? = some results := by
      cases isResults : (field? suite "test_results").bind object? with
      | some results => exact ⟨results, rfl⟩
      | none =>
          -- Without results no property would be covered.
          rw [isResults] at concluded
          simp only [not_or, List.isEmpty_iff] at inventory
          obtain ⟨propertyId, declared⟩ := List.exists_mem_of_ne_nil _ inventory.2
          exact absurd (concluded.count_resultProperty declared) (by simp)
    rw [isResults, Option.getD_some] at concluded
    refine ⟨name, suite, results, isSuites, isResults,
      fun entry listed => (concluded.of_mem listed).1,
      fun propertyId => concluded.count_resultProperty, ?_⟩
    by_cases none : results.filter (resultStatus · = some .fail) = []
    · exact .inl ⟨concluded.status_eq_passed_iff.mpr none, concluded.of_passed none isForeignWord⟩
    · refine .inr ⟨?_, concluded.of_failed none isForeignWord⟩
      have notPassed := fun passed => none (concluded.status_eq_passed_iff.mp passed)
      have status := concluded.status
      split at status
      · exact absurd status notPassed
      · exact status

/-- A report with a counterexample of one call. -/
theorem plain_counterexample_read_back :
    ∃ result, structuredFoundryInvariantResult (fun _ => .ok (sampleReport none)) "report" 1
        (sampleHarness none).propertyIds (some (sampleHarness none).actionIds) = .ok result ∧
      ∃ sequence, foundryCounterexampleSequence (fun _ => false) result.structuredText
        (sampleHarness none).actionIds = .ok (some sequence) := by
  obtain ⟨result, returned⟩ := @eq_ok_of_toOption_isSome _ _ (structuredFoundryInvariantResult
    (fun _ => .ok (sampleReport none)) "report" 1 (sampleHarness none).propertyIds
    (some (sampleHarness none).actionIds)) (by decide +kernel)
  obtain ⟨name, suite, results, -, -, -, -, ⟨passed, -, -⟩ |
    ⟨-, -, -, -, -, sequence, -, -, -, -, readBack⟩⟩ :=
      structured_result_faithful returned (fun _ => false)
  · have failed : (structuredFoundryInvariantResult (fun _ => .ok (sampleReport none)) "report" 1
        (sampleHarness none).propertyIds (some (sampleHarness none).actionIds)).toOption.map
          (·.status) = some .counterexample := by decide +kernel
    rw [returned] at failed
    exact absurd (passed.symm.trans (Option.some.inj failed)) (by decide)
  · exact ⟨result, returned, sequence, readBack⟩

end Foundry

end MmAudit
