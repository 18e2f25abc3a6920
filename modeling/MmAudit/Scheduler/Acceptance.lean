import MmAudit.Scheduler.Resuming

/-!
# When the loader accepts

The loader accepts a coherent archive exactly when a few more conditions hold
that the transitions do not check: the worksets are the ones that retained
evidence determines, activations use only credited results, a provider attempt
excludes an explicitly empty result, the results of a task are not ambiguous, and
no task is disturbed.
-/

set_option linter.unusedSectionVars false

namespace MmAudit

namespace Scheduler

open Fallible Keyed

namespace Environment

variable {Sha Payload : Type} [LinearOrder Sha] [DecidableEq Payload]

section Conditions

variable (env : Environment Sha Payload)

/-- Normalizing an output again from its own arguments gives the same output. -/
def NormalizesOnce : Prop :=
  ∀ plan task activation arguments content,
    env.normalizeOutput plan task activation arguments = .ok content →
      env.normalizeOutput plan task activation content.arguments = .ok content

/-- A workset that retained evidence of the fourth pass determines. -/
def Derived (archive : Archive Sha Payload) (plan : PassPlan Sha)
    (workset : CandidateWorkset Sha) : Prop :=
  ∃ sourcePass ∈ archive.passResults, ∃ sourceResult ∈ sourcePass.taskResults,
    ∃ sourceOutput ∈ archive.outputs,
      env.buildWorkset plan.passKind sourcePass sourceResult sourceOutput = .ok workset

/-- An activation whose upstream results the given events have credited. -/
def Supported (archive : Archive Sha Payload) (events : List (TaskEvent Sha))
    (activation : TaskActivation Sha) : Prop :=
  ∀ task plan, (task, plan) ∈ Archive.plannedTasks archive.plans →
    env.taskId task = activation.taskId → checkUpstream events plan task activation = .ok ()

/-- What the loader requires of a coherent archive. -/
structure Loadable (archive : Archive Sha Payload) : Prop where
  worksets : ∀ plan ∈ archive.plans, ∀ workset, plan.candidateWorkset = some workset →
    env.Derived archive plan workset
  upstream : ∀ before event after, archive.events = before ++ event :: after →
    event.kind = .activated → ∀ activation ∈ archive.activations,
      activation.taskId = event.taskId → env.Supported archive before activation
  unambiguous : ∀ taskId, ¬ AmbiguousObservations (archive.observations taskId)
  uncredited : ∀ taskId, (archive.providerAttempt? taskId).isSome →
    ∀ result ∈ archive.observations taskId, result.terminalStatus ≠ .explicitEmpty
  undisturbed : ∀ taskId, ¬ Disturbed (env.view archive taskId)

end Conditions

variable {env : Environment Sha Payload} {manifest : CampaignManifest Sha}
  {archive other : Archive Sha Payload}

/-! ## Plans and single records -/

section Records

theorem Coherent.checkPlan_ok (coherent : env.Coherent manifest archive) {plan : PassPlan Sha}
    {ordinal : ℕ} (found : archive.plans[ordinal]? = some plan) :
    env.checkPlan manifest archive plan ordinal = .ok () := by
  have next := coherent.plans ordinal plan found
  unfold checkPlan
  rw [check_bind_eq_ok_iff, raiseIf_eq_ok_iff]
  refine ⟨?_, next.custody⟩
  have complete : ∀ result ∈ archive.passResults.take ordinal, result.status = .complete :=
    next.complete
  simp only [next.campaign, next.order, next.dependencies, ne_eq, not_true_eq_false, false_or,
    List.any_eq_true, decide_eq_true_eq, not_exists, not_and, not_not]
  exact complete

/-- The view of a retained activation is one of the phases that have it. -/
theorem Coherent.activation_spec (coherent : env.Coherent manifest archive)
    {activation : TaskActivation Sha} {taskId : Sha}
    (given : archive.activation? taskId = some activation) :
    ∃ task plan, env.plannedTask? archive taskId = some (task, plan) ∧
      env.requireExactTask activation plan task = .ok () ∧ archive.history taskId ≠ [] := by
  have phase := coherent.phases taskId
  have given' : (env.view archive taskId).activation = some activation := given
  change ∃ task plan, (env.view archive taskId).planned = some (task, plan) ∧
    env.requireExactTask activation plan task = .ok () ∧ (env.view archive taskId).history ≠ []
  generalize env.view archive taskId = view at phase given'
  cases phase with
  | unplanned | waiting | planned | preflightFailing | preflightFailed => cases given'
  | activating firstKind exact_ | activated firstKind secondKind exact_
  | activatedFailing firstKind secondKind exact_ failure built
  | activatedFailed firstKind secondKind lastKind exact_ failure built
  | dispatched firstKind secondKind dispatchKind exact_ retains observed
  | concluded firstKind secondKind dispatchKind lastKind exact_ retains observed selected =>
      cases given'
      exact ⟨_, _, rfl, exact_, by simp⟩

theorem Coherent.find_activation (coherent : env.Coherent manifest archive)
    {activation : TaskActivation Sha} (member : activation ∈ archive.activations) :
    archive.activation? activation.taskId = some activation :=
  (find?_eq_some_iff coherent.distinctActivations).mpr ⟨member, rfl⟩

theorem Coherent.checkActivation_ok (coherent : env.Coherent manifest archive)
    {activation : TaskActivation Sha} (member : activation ∈ archive.activations) :
    env.checkActivation archive activation = .ok () := by
  obtain ⟨task, plan, planned, exact_, -⟩ :=
    coherent.activation_spec (coherent.find_activation member)
  unfold checkActivation
  rw [planned]
  exact exact_

/-- What the phases say about a retained output. -/
theorem Coherent.output_spec (coherent : env.Coherent manifest archive)
    {output : TaskOutput Sha Payload} {taskId : Sha}
    (given : archive.output? taskId = some output) :
    ∃ task plan activation arguments, env.plannedTask? archive taskId = some (task, plan) ∧
      archive.activation? taskId = some activation ∧ archive.providerAttempt? taskId = none ∧
      archive.history taskId ≠ [] ∧
      env.buildOutput plan task activation arguments = .ok output := by
  have phase := coherent.phases taskId
  have given' : (env.view archive taskId).output = some output := given
  change ∃ task plan activation arguments, (env.view archive taskId).planned = some (task, plan) ∧
      (env.view archive taskId).activation = some activation ∧
      (env.view archive taskId).attempt = none ∧ (env.view archive taskId).history ≠ [] ∧
      env.buildOutput plan task activation arguments = .ok output
  generalize env.view archive taskId = view at phase given'
  cases phase with
  | dispatched firstKind secondKind dispatchKind exact_ retains observed
  | concluded firstKind secondKind dispatchKind lastKind exact_ retains observed selected =>
      cases retains with
      | output built =>
          cases given'
          exact ⟨_, _, _, _, rfl, rfl, rfl, by simp, built⟩
      | nothing | attempt => cases given'
  | _ => cases given'

theorem Coherent.checkOutput_ok (coherent : env.Coherent manifest archive)
    (once : env.NormalizesOnce) {output : TaskOutput Sha Payload}
    (member : output ∈ archive.outputs) : env.checkOutput archive output = .ok () := by
  have found : archive.output? output.taskId = some output :=
    (find?_eq_some_iff coherent.distinctOutputs).mpr ⟨member, rfl⟩
  obtain ⟨task, plan, activation, arguments, planned, activated, -, -, built⟩ :=
    coherent.output_spec found
  obtain ⟨-, -, normalized, exactActivation⟩ := buildOutput_spec built
  have rebuilt := buildOutput_of_content built (once _ _ _ _ _ normalized)
  unfold checkOutput
  simp only [planned, activated]
  rw [check_bind_eq_ok_iff, bind_eq_ok_iff]
  exact ⟨exactActivation, output, rebuilt, raiseIf_eq_ok_iff.mpr fun different => different rfl⟩

theorem Coherent.attempt_spec (coherent : env.Coherent manifest archive)
    {attempt : ProviderAttemptEvidence Sha} {taskId : Sha}
    (given : archive.providerAttempt? taskId = some attempt) :
    ∃ task plan activation usage, env.plannedTask? archive taskId = some (task, plan) ∧
      archive.activation? taskId = some activation ∧ archive.output? taskId = none ∧
      archive.history taskId ≠ [] ∧
      env.buildProviderAttempt task activation usage = .ok attempt := by
  have phase := coherent.phases taskId
  have given' : (env.view archive taskId).attempt = some attempt := given
  change ∃ task plan activation usage, (env.view archive taskId).planned = some (task, plan) ∧
      (env.view archive taskId).activation = some activation ∧
      (env.view archive taskId).output = none ∧ (env.view archive taskId).history ≠ [] ∧
      env.buildProviderAttempt task activation usage = .ok attempt
  generalize env.view archive taskId = view at phase given'
  cases phase with
  | dispatched firstKind secondKind dispatchKind exact_ retains observed
  | concluded firstKind secondKind dispatchKind lastKind exact_ retains observed selected =>
      cases retains with
      | attempt built =>
          cases given'
          exact ⟨_, _, _, _, rfl, rfl, rfl, by simp, built⟩
      | nothing | output => cases given'
  | _ => cases given'

theorem Coherent.checkProviderAttempt_ok (coherent : env.Coherent manifest archive)
    {attempt : ProviderAttemptEvidence Sha} (member : attempt ∈ archive.providerAttempts) :
    env.checkProviderAttempt archive attempt = .ok () := by
  have found : archive.providerAttempt? attempt.taskId = some attempt :=
    (find?_eq_some_iff coherent.distinctAttempts).mpr ⟨member, rfl⟩
  obtain ⟨task, plan, activation, usage, planned, activated, noOutput, -, built⟩ :=
    coherent.attempt_spec found
  have rebuilt : env.buildProviderAttempt task activation attempt.usageRecord = .ok attempt := by
    rw [(buildProviderAttempt_spec built).2.1]
    exact built
  unfold checkProviderAttempt
  simp only [planned, activated, noOutput]
  rw [check_bind_eq_ok_iff, bind_eq_ok_iff]
  exact ⟨raiseIf_eq_ok_iff.mpr (by simp), attempt, rebuilt,
    raiseIf_eq_ok_iff.mpr fun different => different rfl⟩

end Records

/-! ## Results -/

section Results

theorem buildUncertain_spec {plan : PassPlan Sha} {task : TaskPlan Sha}
    {activation : TaskActivation Sha} {dispatch : TaskEvent Sha} {result : TaskResult Sha}
    (built : env.buildUncertain plan task activation dispatch = .ok result) :
    result.terminalStatus = .uncertain ∧ result.resultOrigin = .activated ∧
      env.buildTaskResult plan task activation result.terminalStatus
        result.terminalEvidenceSha256 none = .ok result := by
  unfold buildUncertain at built
  obtain ⟨carries, origin, -⟩ := buildTaskResult_spec built
  refine ⟨carries.status, origin, ?_⟩
  rw [carries.status, carries.evidence]
  exact built

/-- A result that the other evidence of its task determines. -/
def Justified (env : Environment Sha Payload) (view : TaskView Sha Payload)
    (result : TaskResult Sha) : Prop :=
  ∃ task plan, view.planned = some (task, plan) ∧
    ((result.resultOrigin = .localPreflight ∧ view.activation = none ∧ view.output = none ∧
        env.buildPreflightFailure plan task result.terminalStatus result.terminalEvidenceSha256 =
          .ok result) ∨
      ∃ activation, result.resultOrigin = .activated ∧ view.activation = some activation ∧
        env.buildTaskResult plan task activation result.terminalStatus
          result.terminalEvidenceSha256
          (if result.terminalStatus = .succeeded then view.output else none) = .ok result)

theorem Observed.built {plan : PassPlan Sha} {task : TaskPlan Sha}
    {activation : TaskActivation Sha} {dispatch : TaskEvent Sha}
    {output : Option (TaskOutput Sha Payload)} {observations : List (TaskResult Sha)}
    {recorded recovered : Option (TaskResult Sha)} {result : TaskResult Sha}
    (observed : env.Observed plan task activation dispatch output observations recorded recovered)
    (member : result ∈ observations) :
    result.resultOrigin = .activated ∧
      env.buildTaskResult plan task activation result.terminalStatus result.terminalEvidenceSha256
        (if result.terminalStatus = .succeeded then output else none) = .ok result := by
  rw [observed.perm.mem_iff, List.mem_append, Option.mem_toList, Option.mem_toList] at member
  rcases member with given | given
  · have built := (observed.recorded result given).built
    exact ⟨(buildTaskResult_spec built).2.1, built⟩
  · obtain ⟨status, origin, built⟩ := buildUncertain_spec (observed.recovered result given)
    refine ⟨origin, ?_⟩
    rw [if_neg (by simp [status])]
    exact built

theorem Phase.justified {view : TaskView Sha Payload} (phase : env.Phase view)
    {result : TaskResult Sha} (observed : result ∈ view.observations) :
    env.Justified view result := by
  cases phase with
  | unplanned | waiting | planned | activating | activated => cases observed
  | preflightFailing firstKind built | preflightFailed firstKind lastKind built =>
      obtain rfl := List.mem_singleton.mp observed
      exact ⟨_, _, rfl, .inl ⟨(buildPreflightFailure_spec built).2.1, rfl, rfl, built⟩⟩
  | activatedFailing firstKind secondKind exact_ failure built
  | activatedFailed firstKind secondKind lastKind exact_ failure built =>
      obtain rfl := List.mem_singleton.mp observed
      refine ⟨_, _, rfl, .inr ⟨_, (buildTaskResult_spec built).2.1, rfl, ?_⟩⟩
      rw [ite_self]
      exact built
  | dispatched firstKind secondKind dispatchKind exact_ retains holds
  | concluded firstKind secondKind dispatchKind lastKind exact_ retains holds selected =>
      obtain ⟨origin, built⟩ := holds.built observed
      exact ⟨_, _, rfl, .inr ⟨_, origin, rfl, built⟩⟩

/-- A retained result is the one that its task determines. -/
theorem Coherent.checkResult_ok (coherent : env.Coherent manifest archive)
    {result : TaskResult Sha} (member : result ∈ archive.resultObservations) :
    env.checkResult archive result = .ok () := by
  have observed : result ∈ (env.view archive result.taskId).observations :=
    List.mem_filter.mpr ⟨member, by simp⟩
  obtain ⟨task, plan, planned, evidence⟩ := (coherent.phases result.taskId).justified observed
  change env.plannedTask? archive result.taskId = some (task, plan) at planned
  have expected : env.expectedResult archive result task plan = .ok result := by
    unfold expectedResult
    rcases evidence with ⟨origin, unactivated, noOutput, built⟩ | ⟨activation, origin, given, built⟩
    · change archive.activation? result.taskId = none at unactivated
      change archive.output? result.taskId = none at noOutput
      simp only [origin, unactivated, noOutput]
      rw [check_bind_eq_ok_iff]
      exact ⟨raiseIf_eq_ok_iff.mpr (by simp), built⟩
    · change archive.activation? result.taskId = some activation at given
      simp only [origin, given]
      exact built
  unfold checkResult
  simp only [planned]
  rw [bind_eq_ok_iff]
  exact ⟨result, expected, raiseIf_eq_ok_iff.mpr fun different => different rfl⟩

end Results

/-! ## Worksets -/

section Worksets

/-- What a workset says about its sources. -/
theorem buildWorkset_spec {kind : PassKind} {sourcePass : PassResult Sha}
    {sourceResult : TaskResult Sha} {sourceOutput : TaskOutput Sha Payload}
    {workset : CandidateWorkset Sha}
    (built : env.buildWorkset kind sourcePass sourceResult sourceOutput = .ok workset) :
    sourcePass.plan.passKind = .crossShardIntegration ∧
      sourceResult.taskId = sourceOutput.taskId ∧
      workset.sourcePassResultSha256 = env.passResult sourcePass ∧
      workset.sourceTaskId = sourceResult.taskId ∧
      workset.sourceResultSha256 = env.result sourceResult ∧
      workset.sourceOutputArtifactSha256 = env.output sourceOutput := by
  unfold buildWorkset at built
  simp only [bind_eq_ok_iff, Except.ok.injEq] at built
  obtain ⟨_, -, _, exact_, inventory, -, _, -, _, -, rfl⟩ := built
  rw [raiseIf_eq_ok_iff] at exact_
  push Not at exact_
  exact ⟨exact_.2.1, exact_.2.2.2.2.2.1, rfl, rfl, rfl, rfl⟩

/-- What a pass result that was built says. -/
structure PassOf (env : Environment Sha Payload) (plan : PassPlan Sha)
    (passResult : PassResult Sha) : Prop where
  samePlan : passResult.plan = plan
  sorted : (passResult.taskResults.map (·.taskId)).Pairwise (· < ·)
  taskIds : passResult.taskResults.map (·.taskId) = plan.tasks.map env.taskId

theorem buildPassResult_spec {plan : PassPlan Sha} {results : List (TaskResult Sha)}
    {passResult : PassResult Sha} (built : env.buildPassResult plan results = .ok passResult) :
    env.PassOf plan passResult := by
  unfold buildPassResult at built
  simp only [bind_eq_ok_iff, Except.ok.injEq] at built
  obtain ⟨_, -, _, valid, rfl⟩ := built
  unfold validatePassResult at valid
  simp only [bind_eq_ok_iff] at valid
  obtain ⟨_, -, _, sorted, _, same, -⟩ := valid
  rw [raiseIf_eq_ok_iff, not_not] at sorted same
  exact ⟨rfl, sorted, same⟩

/-- The pass results are about the passes in their order. -/
theorem Coherent.passKinds_eq (coherent : env.Coherent manifest archive) :
    archive.passResults.map (·.plan.passKind) = passOrder.take archive.passResults.length := by
  apply List.ext_getElem?
  intro ordinal
  rw [List.getElem?_map, List.getElem?_take]
  cases found : archive.passResults[ordinal]? with
  | none =>
      have bound := List.getElem?_eq_none_iff.mp found
      rw [if_neg (by omega)]
      rfl
  | some passResult =>
      have bound := (List.getElem?_eq_some_iff.mp found).choose
      obtain ⟨plan, planFound, results, -, built⟩ := coherent.results ordinal passResult found
      have samePlan : passResult.plan = plan := (buildPassResult_spec built).samePlan
      rw [if_pos bound, Option.map_some, samePlan, (coherent.plans ordinal plan planFound).order]

theorem nodup_passOrder : passOrder.Nodup := by decide

/-- The loader finds the sources of a derived workset. -/
theorem Coherent.checkWorkset_ok (coherent : env.Coherent manifest archive) {plan : PassPlan Sha}
    {workset : CandidateWorkset Sha} (derived : env.Derived archive plan workset) :
    env.checkWorkset archive plan workset = .ok () := by
  obtain ⟨sourcePass, passMem, sourceResult, resultMem, sourceOutput, outputMem, built⟩ := derived
  obtain ⟨passKind, sameTask, passHash, taskId, resultHash, outputHash⟩ := buildWorkset_spec built
  have passes : (archive.passResults.filter fun result =>
      result.plan.passKind = .crossShardIntegration ∧
        env.passResult result = workset.sourcePassResultSha256) = [sourcePass] := by
    have kinds : (archive.passResults.map (·.plan.passKind)).Nodup := by
      rw [coherent.passKinds_eq]
      exact nodup_passOrder.sublist (List.take_sublist _ _)
    refine filter_eq_singleton kinds passMem (by simp [passKind, passHash]) ?_
    intro other _ found
    rw [decide_eq_true_eq] at found
    rw [found.1, passKind]
  have results : (([sourcePass].flatMap (·.taskResults)).filter fun result =>
      result.taskId = workset.sourceTaskId ∧ env.result result = workset.sourceResultSha256) =
        [sourceResult] := by
    obtain ⟨ordinal, less, same⟩ := List.mem_iff_getElem.mp passMem
    obtain ⟨sourcePlan, -, credited, -, passBuilt⟩ :=
      coherent.results ordinal sourcePass (List.getElem?_eq_some_iff.mpr ⟨less, same⟩)
    have distinct : (sourcePass.taskResults.map (·.taskId)).Nodup :=
      (buildPassResult_spec passBuilt).sorted.imp fun less => ne_of_lt less
    rw [List.flatMap_singleton]
    refine filter_eq_singleton distinct resultMem (by simp [taskId, resultHash]) ?_
    intro other _ found
    rw [decide_eq_true_eq] at found
    rw [found.1, taskId]
  have outputs : (archive.outputs.filter fun output =>
      output.taskId = workset.sourceTaskId ∧
        env.output output = workset.sourceOutputArtifactSha256) = [sourceOutput] := by
    refine filter_eq_singleton coherent.distinctOutputs outputMem
      (by simp [taskId, sameTask, outputHash]) ?_
    intro other _ found
    rw [decide_eq_true_eq] at found
    rw [found.1, taskId, sameTask]
  unfold checkWorkset
  simp only [passes, results, outputs]
  rw [bind_eq_ok_iff]
  exact ⟨workset, built, raiseIf_eq_ok_iff.mpr fun different => different rfl⟩

end Worksets

/-! ## The event chain -/

section Chain

/-- Among the events before an event, none is of its task and its kind, and none
of its task is terminal if it is terminal itself. -/
theorem Coherent.before_event (coherent : env.Coherent manifest archive)
    {before after : List (TaskEvent Sha)} {event : TaskEvent Sha}
    (split : archive.events = before ++ event :: after) {other : TaskEvent Sha}
    (member : other ∈ before) (sameTask : other.taskId = event.taskId) :
    other.kind ≠ event.kind ∧ ¬ (other.kind.IsTerminal ∧ event.kind.IsTerminal) := by
  have history : archive.history event.taskId =
      (before.filter (·.taskId = event.taskId)) ++ event ::
        (after.filter (·.taskId = event.taskId)) := by
    rw [Archive.history, split, List.filter_append, List.filter_cons_of_pos (by simp)]
  have earlier : other ∈ before.filter (·.taskId = event.taskId) :=
    List.mem_filter.mpr ⟨member, by simp [sameTask]⟩
  constructor
  · intro sameKind
    have distinct := coherent.nodup_kinds event.taskId
    rw [Archive.kinds, history, List.map_append, List.map_cons, List.nodup_append] at distinct
    exact distinct.2.2 _ (List.mem_map_of_mem earlier) _ List.mem_cons_self sameKind
  · rintro ⟨otherTerminal, eventTerminal⟩
    have terminals := (coherent.atMostOnce event.taskId).2
    rw [history, List.filter_append, List.filter_cons_of_pos (by simpa using eventTerminal),
      List.length_append, List.length_cons] at terminals
    have found : other ∈ (before.filter (·.taskId = event.taskId)).filter (·.kind.IsTerminal) :=
      List.mem_filter.mpr ⟨earlier, by simpa using otherTerminal⟩
    have positive := List.length_pos_of_mem found
    omega

/-- The loader finds the result of an exact event. -/
theorem Coherent.eventResult_eq (coherent : env.Coherent manifest archive)
    {before after : List (TaskEvent Sha)} {event : TaskEvent Sha}
    (split : archive.events = before ++ event :: after) {plan : PassPlan Sha}
    {task : TaskPlan Sha} {material : EventMaterial Sha}
    (built : env.buildEvent plan task material = .ok event) (sameKind : material.kind = event.kind)
    (retained : ∀ given, material.result = some given → given ∈ archive.resultObservations) :
    env.eventResult archive before event = .ok material.result := by
  obtain ⟨same, -, first, later⟩ := buildEvent_spec built
  unfold eventResult
  by_cases terminal : event.kind.IsTerminal
  · have notPlanned : material.kind ≠ .planned := by
      rw [sameKind]
      intro planned
      simp [planned, EventKind.IsTerminal] at terminal
    have checks := later notPlanned
    obtain ⟨given, found⟩ := Option.isSome_iff_exists.mp
      ((checks.result notPlanned).mpr (sameKind ▸ terminal))
    have reference : event.taskResultSha256 = some (env.result given) := by
      rw [same, taskEvent, found]
      rfl
    have sameTask : given.taskId = event.taskId := by
      rw [checks.2.2 given found, same]
      rfl
    have lookup : event.taskResultSha256.bind (env.resultByHash? archive) = some given := by
      rw [reference, Option.bind_some, coherent.resultByHash?_eq (retained given found)]
    rw [if_pos terminal]
    simp only [lookup, found]
    rw [check_bind_eq_ok_iff, check_bind_eq_ok_iff, raiseIf_eq_ok_iff, raiseIf_eq_ok_iff]
    refine ⟨not_not.mpr sameTask, ?_, rfl⟩
    rw [List.any_eq_true]
    rintro ⟨other, member, both⟩
    rw [decide_eq_true_eq] at both
    exact (coherent.before_event split member both.1).2 ⟨both.2, terminal⟩
  · rw [if_neg terminal]
    by_cases planned : material.kind = .planned
    · rw [(first planned).2]
    · have absent := mt ((later planned).result planned).mp (sameKind ▸ terminal)
      rw [Option.not_isSome_iff_eq_none.mp absent]

/-- The loader finds the activation of an exact event. -/
theorem Coherent.eventActivation_eq (coherent : env.Coherent manifest archive)
    {event : TaskEvent Sha} {plan : PassPlan Sha} {task : TaskPlan Sha}
    {material : EventMaterial Sha} (built : env.buildEvent plan task material = .ok event)
    (sameKind : material.kind = event.kind)
    (retained : ∀ given, material.activation = some given → given ∈ archive.activations) :
    eventActivation archive event.kind event.taskId = material.activation := by
  obtain ⟨same, -, first, later⟩ := buildEvent_spec built
  unfold eventActivation
  rw [← sameKind]
  by_cases planned : material.kind = .planned
  · rw [if_pos (.inl planned), (first planned).1]
  · by_cases aborted : material.kind = .preflightTerminal
    · rw [if_pos (.inr aborted), (later planned).unactivated aborted]
    · obtain ⟨activation, given, exact_⟩ := (later planned).activated planned aborted
      have sameTask : activation.taskId = event.taskId := by
        rw [(requireExactTask_spec exact_).2.1, same]
        rfl
      rw [if_neg (not_or.mpr ⟨planned, aborted⟩), given, ← sameTask,
        coherent.find_activation (retained activation given)]

theorem Coherent.checkEvent_ok (coherent : env.Coherent manifest archive)
    (free : env.CollisionFree) (loadable : env.Loadable archive)
    {before after : List (TaskEvent Sha)} {event : TaskEvent Sha}
    (split : archive.events = before ++ event :: after) :
    env.checkEvent archive before event = .ok () := by
  obtain ⟨task, plan, activation, result, member, activationMem, resultMem, built⟩ :=
    coherent.exactEvents before event after split
  have sameTask : env.taskId task = event.taskId := by
    rw [(buildEvent_spec built).1]
    rfl
  have planned : env.plannedTask? archive event.taskId = some (task, plan) :=
    coherent.plannedTask?_eq_some_iff.mpr ⟨member, sameTask⟩
  have newIdentity : env.eventId event ∉ before.map env.eventId := by
    intro known
    obtain ⟨other, otherMem, same⟩ := List.mem_map.mp known
    obtain ⟨sameTask, sameKind⟩ := free.eventIdentity _ _ _ _ _ _ same
    exact (coherent.before_event split otherMem sameTask).1 sameKind
  unfold checkEvent
  simp only [planned]
  rw [check_bind_eq_ok_iff, raiseIf_eq_ok_iff, bind_eq_ok_iff]
  refine ⟨newIdentity, result, coherent.eventResult_eq split built rfl resultMem, ?_⟩
  rw [coherent.eventActivation_eq built rfl activationMem, bind_eq_ok_iff]
  refine ⟨event, built, ?_⟩
  rw [check_bind_eq_ok_iff, raiseIf_eq_ok_iff]
  refine ⟨fun different => different rfl, ?_⟩
  by_cases activated : event.kind = .activated
  · rw [if_pos activated, option_forM_eq_ok_iff]
    intro given same
    have later := (buildEvent_spec built).2.2.2 (by simp [activated])
    obtain ⟨other, otherGiven, exact_⟩ := later.activated (by simp [activated]) (by simp [activated])
    obtain rfl := Option.some.inj (same.symm.trans otherGiven)
    have activationTask := (requireExactTask_spec exact_).2.1
    exact loadable.upstream before event after split activated given (activationMem given same)
      (activationTask.trans sameTask) task plan member activationTask.symm
  · rw [if_neg activated]

end Chain

/-! ## The state of each task -/

section States

/-- The results of a task are few and not ambiguous. -/
theorem checkObservations_ok {observations : List (TaskResult Sha)}
    (unambiguous : ¬ AmbiguousObservations observations) :
    checkObservations observations = .ok () := by
  unfold checkObservations
  rw [check_bind_eq_ok_iff, raiseIf_eq_ok_iff, raiseIf_eq_ok_iff]
  exact ⟨fun many => unambiguous (.inl many), unambiguous⟩

theorem Coherent.checkUndispatched_ok (coherent : env.Coherent manifest archive) {taskId : Sha}
    {last : EventKind} (ends : (archive.kinds taskId).getLast? = some last) :
    checkUndispatched archive taskId last = .ok () := by
  have phase := coherent.phases taskId
  unfold checkUndispatched
  change (do
      raiseIf (last = .planned ∧ (((env.view archive taskId).activation.isSome ∧
          (env.view archive taskId).observations ≠ []) ∨
          (env.view archive taskId).output.isSome ∨
          1 < ((env.view archive taskId).observations.filter
            (·.resultOrigin = .localPreflight)).length)) _
      raiseIf (last = .activated ∧ ((env.view archive taskId).output.isSome ∨
          1 < (env.view archive taskId).observations.length ∨
          (env.view archive taskId).observations ≠ (env.view archive taskId).observations.filter
            fun result => result.resultOrigin = .activated ∧
              result.terminalStatus.IsActivatedPreflight)) _) = Except.ok ()
  change ((env.view archive taskId).history.map (·.kind)).getLast? = some last at ends
  generalize env.view archive taskId = view at phase ends
  rw [check_bind_eq_ok_iff, raiseIf_eq_ok_iff, raiseIf_eq_ok_iff]
  cases phase with
  | unplanned | waiting => cases ends
  | planned firstKind | activating firstKind exact_ =>
      obtain rfl : EventKind.planned = last := by simpa [firstKind] using ends
      simp
  | preflightFailing firstKind built =>
      obtain rfl : EventKind.planned = last := by simpa [firstKind] using ends
      simp [(buildPreflightFailure_spec built).2.1]
  | activated firstKind secondKind exact_ =>
      obtain rfl : EventKind.activated = last := by simpa [secondKind] using ends
      simp
  | activatedFailing firstKind secondKind exact_ failure built =>
      obtain rfl : EventKind.activated = last := by simpa [secondKind] using ends
      simp [(buildTaskResult_spec built).2.1, failure]
  | preflightFailed firstKind lastKind built =>
      obtain rfl : EventKind.preflightTerminal = last := by simpa [lastKind] using ends
      simp
  | activatedFailed firstKind secondKind lastKind exact_ failure built =>
      obtain rfl : EventKind.activatedPreflightTerminal = last := by simpa [lastKind] using ends
      simp
  | dispatched firstKind secondKind dispatchKind exact_ retains observed =>
      obtain rfl : EventKind.dispatched = last := by simpa [dispatchKind] using ends
      simp
  | concluded firstKind secondKind dispatchKind lastKind exact_ retains observed selected =>
      obtain rfl : EventKind.terminal = last := by simpa [lastKind] using ends
      simp

/-- Beside an uncertain result that is credited, no other result is uncertain. -/
theorem Observed.alone {plan : PassPlan Sha} {task : TaskPlan Sha}
    {activation : TaskActivation Sha} {dispatch : TaskEvent Sha}
    {output : Option (TaskOutput Sha Payload)} {observations : List (TaskResult Sha)}
    {recorded recovered : Option (TaskResult Sha)} {credited : TaskResult Sha}
    (observed : env.Observed plan task activation dispatch output observations recorded recovered)
    (unambiguous : ¬ AmbiguousObservations observations)
    (selected : recovered = some credited ∨ recovered = none ∧ recorded = some credited)
    (several : 1 < observations.length) :
    credited.terminalStatus = .uncertain ∧
      ∀ result ∈ observations, result ≠ credited → result.terminalStatus ≠ .uncertain := by
  have length := observed.perm.length_eq
  rcases selected with rfl | ⟨rfl, rfl⟩
  · cases recorded with
    | none => simp at length; omega
    | some first =>
        have status := (buildUncertain_spec (observed.recovered credited rfl)).1
        refine ⟨status, fun result member different uncertain => unambiguous (.inr ⟨length, .inl ?_⟩)⟩
        have among : result ∈ [first, credited] := observed.perm.mem_iff.mp member
        obtain rfl : result = first := by
          rcases List.mem_cons.mp among with same | other
          · exact same
          · exact absurd (List.mem_singleton.mp other) different
        rw [(observed.perm.filter _).length_eq]
        simp [uncertain, status]
  · simp at length
    omega

theorem Coherent.checkCredit_ok (coherent : env.Coherent manifest archive)
    (loadable : env.Loadable archive) {taskId : Sha} {last : EventKind}
    (ends : (archive.kinds taskId).getLast? = some last) :
    env.checkCredit archive taskId last = .ok () := by
  have phase := coherent.phases taskId
  have unambiguous : ¬ AmbiguousObservations (env.view archive taskId).observations :=
    loadable.unambiguous taskId
  unfold checkCredit
  change (do
      raiseIf (last.IsTerminal ∧ (env.view archive taskId).credited.isNone) _
      raiseIf (last.IsTerminal ∧ 1 < (env.view archive taskId).observations.length ∧
        ((env.view archive taskId).credited.map (·.terminalStatus) ≠ some .uncertain ∨
          ∃ result ∈ (env.view archive taskId).observations,
            some result ≠ (env.view archive taskId).credited ∧
              result.terminalStatus = .uncertain)) _) = Except.ok ()
  change ((env.view archive taskId).history.map (·.kind)).getLast? = some last at ends
  generalize env.view archive taskId = view at phase ends unambiguous
  rw [check_bind_eq_ok_iff, raiseIf_eq_ok_iff, raiseIf_eq_ok_iff]
  cases phase with
  | unplanned | waiting => cases ends
  | planned firstKind | activating firstKind exact_ | preflightFailing firstKind built =>
      obtain rfl : EventKind.planned = last := by simpa [firstKind] using ends
      simp [EventKind.IsTerminal]
  | activated firstKind secondKind exact_
  | activatedFailing firstKind secondKind exact_ failure built =>
      obtain rfl : EventKind.activated = last := by simpa [secondKind] using ends
      simp [EventKind.IsTerminal]
  | dispatched firstKind secondKind dispatchKind exact_ retains observed =>
      obtain rfl : EventKind.dispatched = last := by simpa [dispatchKind] using ends
      simp [EventKind.IsTerminal]
  | preflightFailed | activatedFailed => simp
  | concluded firstKind secondKind dispatchKind lastKind exact_ retains observed selected =>
      refine ⟨by simp, ?_⟩
      rintro ⟨-, several, wrong⟩
      obtain ⟨status, others⟩ := observed.alone unambiguous selected several
      rcases wrong with wrong | ⟨result, member, different, uncertain⟩
      · exact wrong (by simp [status])
      · exact others result member (fun same => different (congrArg some same)) uncertain

/-- At most the recorded result is a success. -/
theorem Observed.successes {plan : PassPlan Sha} {task : TaskPlan Sha}
    {activation : TaskActivation Sha} {dispatch : TaskEvent Sha}
    {output : Option (TaskOutput Sha Payload)} {observations : List (TaskResult Sha)}
    {recorded recovered : Option (TaskResult Sha)}
    (observed : env.Observed plan task activation dispatch output observations recorded
      recovered) : (observations.filter (·.terminalStatus = .succeeded)).length ≤ 1 := by
  rw [(observed.perm.filter _).length_eq, List.filter_append, List.length_append]
  have noSuccess : (recovered.toList.filter (·.terminalStatus = .succeeded)).length = 0 := by
    cases recovered with
    | none => rfl
    | some uncertain =>
        have status := (buildUncertain_spec (observed.recovered uncertain rfl)).1
        simp [status]
  have single : (recorded.toList.filter (·.terminalStatus = .succeeded)).length ≤ 1 := by
    refine (List.length_filter_le _ _).trans ?_
    cases recorded <;> simp
  omega

theorem Coherent.checkRetainedOutput_ok (coherent : env.Coherent manifest archive)
    (loadable : env.Loadable archive) {taskId : Sha} {last : EventKind}
    (ends : (archive.kinds taskId).getLast? = some last) :
    env.checkRetainedOutput archive taskId last = .ok () := by
  have phase := coherent.phases taskId
  have undisturbed := loadable.undisturbed taskId
  unfold checkRetainedOutput
  change raiseIf ((env.view archive taskId).output.isSome ∧
      ((last ≠ .dispatched ∧ last ≠ .terminal) ∨
        1 < ((env.view archive taskId).observations.filter
          (·.terminalStatus = .succeeded)).length ∨
        (∃ result ∈ (env.view archive taskId).observations,
          some result ≠ (env.view archive taskId).credited ∧
            result.terminalStatus ≠ .succeeded) ∨
        (last.IsTerminal ∧
          (env.view archive taskId).credited.map (·.terminalStatus) ≠ some .succeeded ∧
          (env.view archive taskId).credited.map (·.terminalStatus) ≠ some .uncertain))) _ =
    Except.ok ()
  change ((env.view archive taskId).history.map (·.kind)).getLast? = some last at ends
  generalize env.view archive taskId = view at phase ends undisturbed
  rw [raiseIf_eq_ok_iff]
  cases phase with
  | dispatched firstKind secondKind dispatchKind exact_ retains observed =>
      obtain rfl : EventKind.dispatched = last := by simpa [dispatchKind] using ends
      rintro ⟨present, wrong⟩
      rcases wrong with wrong | many | ⟨result, member, -, unsuccessful⟩ | ⟨terminal, -⟩
      · simp at wrong
      · exact absurd observed.successes (not_le.mpr many)
      · exact undisturbed ⟨present, rfl, result, member, unsuccessful⟩
      · simp [EventKind.IsTerminal] at terminal
  | concluded firstKind secondKind dispatchKind lastKind exact_ retains observed selected =>
      obtain rfl : EventKind.terminal = last := by simpa [lastKind] using ends
      rintro ⟨present, wrong⟩
      rcases wrong with wrong | many | ⟨result, member, different, unsuccessful⟩ | ⟨-, failed⟩
      · simp at wrong
      · exact absurd observed.successes (not_le.mpr many)
      · rw [observed.perm.mem_iff, List.mem_append, Option.mem_toList, Option.mem_toList] at member
        rcases member with given | given
        · exact unsuccessful ((observed.recorded result given).success present)
        · rcases selected with same | ⟨absent, -⟩
          · exact different (given.symm.trans same)
          · rw [absent] at given
            cases given
      · rcases selected with given | ⟨-, given⟩
        · exact failed.2 (by simp [(buildUncertain_spec (observed.recovered _ given)).1])
        · exact failed.1 (by simp [(observed.recorded _ given).success present])
  | _ =>
      rintro ⟨present, -⟩
      cases present

theorem Coherent.checkRetainedAttempt_ok (coherent : env.Coherent manifest archive)
    (loadable : env.Loadable archive) (taskId : Sha) :
    env.checkRetainedAttempt archive taskId (archive.kinds taskId) = .ok () := by
  have phase := coherent.phases taskId
  have uncredited : (env.view archive taskId).attempt.isSome →
      ∀ result ∈ (env.view archive taskId).observations,
        result.terminalStatus ≠ .explicitEmpty := loadable.uncredited taskId
  unfold checkRetainedAttempt
  change raiseIf ((env.view archive taskId).attempt.isSome ∧
      (.dispatched ∉ (env.view archive taskId).history.map (·.kind) ∨
        (env.view archive taskId).output.isSome ∨
        (env.view archive taskId).credited.map (·.terminalStatus) = some .succeeded ∨
        (env.view archive taskId).credited.map (·.terminalStatus) = some .explicitEmpty)) _ =
    Except.ok ()
  generalize env.view archive taskId = view at phase uncredited
  rw [raiseIf_eq_ok_iff]
  cases phase with
  | dispatched firstKind secondKind dispatchKind exact_ retains observed =>
      rintro ⟨present, wrong⟩
      cases retains with
      | nothing | output => cases present
      | attempt built => simp [dispatchKind] at wrong
  | @concluded _ _ _ _ _ _ _ _ _ _ recorded recovered credited firstKind secondKind dispatchKind
      lastKind exact_ retains observed selected =>
      rintro ⟨present, wrong⟩
      have among : credited ∈ recorded.toList ++ recovered.toList := by
        rcases selected with given | ⟨-, given⟩ <;> simp [given]
      have member := observed.perm.mem_iff.mpr among
      have unsuccessful : credited.terminalStatus ≠ .succeeded := by
        intro success
        have built := (observed.built member).2
        cases retains with
        | nothing | output => cases present
        | attempt =>
            have output := (buildTaskResult_spec built).2.2.2.1 success
            simp at output
      cases retains with
      | nothing | output => cases present
      | attempt built =>
          simp [dispatchKind, unsuccessful, uncredited present credited member] at wrong
  | _ =>
      rintro ⟨present, -⟩
      cases present

/-- The loader accepts the state of every task. -/
theorem Coherent.checkLifecycle_ok (coherent : env.Coherent manifest archive)
    (loadable : env.Loadable archive) {taskId : Sha} (begun : archive.history taskId ≠ []) :
    env.checkLifecycle archive taskId = .ok () := by
  cases ends : (archive.kinds taskId).getLast? with
  | none =>
      rw [List.getLast?_eq_none_iff, Archive.kinds, List.map_eq_nil_iff] at ends
      exact absurd ends begun
  | some last =>
      rw [checkLifecycle_eq_ok_iff ends]
      refine ⟨?_, coherent.checkUndispatched_ok ends, coherent.checkCredit_ok loadable ends,
        coherent.checkRetainedOutput_ok loadable ends,
        coherent.checkRetainedAttempt_ok loadable taskId⟩
      rcases (coherent.phases taskId).kinds with empty | known
      · exact absurd (List.map_eq_nil_iff.mp empty) begun
      · exact known

end States

/-! ## The passes -/

section Passes

/-- A credited result is retained, and its task ended with a terminal event. -/
theorem Coherent.credited_spec (coherent : env.Coherent manifest archive) {taskId : Sha}
    {result : TaskResult Sha} (credited : env.credited? archive taskId = some result) :
    result.taskId = taskId ∧
      (archive.kinds taskId).getLast?.any fun kind => decide kind.IsTerminal := by
  have phase := coherent.phases taskId
  have given : (env.view archive taskId).credited = some result := credited
  have both : result ∈ (env.view archive taskId).observations ∧
      ((env.view archive taskId).history.map (·.kind)).getLast?.any
        fun kind => decide kind.IsTerminal := by
    generalize env.view archive taskId = view at phase given
    cases phase with
    | preflightFailed firstKind lastKind built =>
        cases given
        exact ⟨List.mem_singleton_self _, by simp [lastKind, EventKind.IsTerminal]⟩
    | activatedFailed firstKind secondKind lastKind exact_ failure built =>
        cases given
        exact ⟨List.mem_singleton_self _, by simp [lastKind, EventKind.IsTerminal]⟩
    | concluded firstKind secondKind dispatchKind lastKind exact_ retains observed selected =>
        cases given
        refine ⟨?_, by simp [lastKind, EventKind.IsTerminal]⟩
        rw [observed.perm.mem_iff]
        rcases selected with same | ⟨-, same⟩ <;> simp [same]
    | _ => cases given
  exact ⟨by simpa using (List.mem_filter.mp both.1).2, both.2⟩

/-- Evidence exists only for tasks with events. -/
theorem Coherent.evidence_begun (coherent : env.Coherent manifest archive) {taskId : Sha}
    (member : taskId ∈ evidenceTaskIds archive) : archive.history taskId ≠ [] := by
  unfold evidenceTaskIds at member
  simp only [List.mem_append, List.mem_map] at member
  rcases member with ((⟨activation, mem, rfl⟩ | ⟨output, mem, rfl⟩) | ⟨attempt, mem, rfl⟩) |
    ⟨result, mem, rfl⟩
  · obtain ⟨-, -, -, -, begun⟩ := coherent.activation_spec (coherent.find_activation mem)
    exact begun
  · have found : archive.output? output.taskId = some output :=
      (find?_eq_some_iff coherent.distinctOutputs).mpr ⟨mem, rfl⟩
    obtain ⟨-, -, -, -, -, -, -, begun, -⟩ := coherent.output_spec found
    exact begun
  · have found : archive.providerAttempt? attempt.taskId = some attempt :=
      (find?_eq_some_iff coherent.distinctAttempts).mpr ⟨mem, rfl⟩
    obtain ⟨-, -, -, -, -, -, -, begun, -⟩ := coherent.attempt_spec found
    exact begun
  · have observed : result ∈ (env.view archive result.taskId).observations :=
      List.mem_filter.mpr ⟨mem, by simp⟩
    have phase := coherent.phases result.taskId
    change (env.view archive result.taskId).history ≠ []
    generalize env.view archive result.taskId = view at phase observed
    cases phase with
    | unplanned | waiting => cases observed
    | _ => simp

theorem Coherent.checkPlannedPrefix_ok (coherent : env.Coherent manifest archive)
    {plan : PassPlan Sha} {ordinal : ℕ} (found : archive.plans[ordinal]? = some plan) :
    env.checkPlannedPrefix archive plan ordinal = .ok () := by
  obtain ⟨earlierPlans, laterPlans, split⟩ :=
    List.append_of_mem (List.mem_of_getElem? found)
  unfold checkPlannedPrefix
  rw [check_bind_eq_ok_iff, raiseIf_eq_ok_iff, raiseIf_eq_ok_iff, not_not]
  constructor
  · apply filter_eq_take
    intro before taskId after place begun other member
    rw [List.map_eq_append_iff] at place
    obtain ⟨first, rest, tasks, rfl, restSplit⟩ := place
    obtain ⟨task, last, rfl, rfl, -⟩ := List.map_eq_cons_iff.mp restSplit
    obtain ⟨earlier, earlierMem, rfl⟩ := List.mem_map.mp member
    have order : Archive.plannedTasks archive.plans =
        (Archive.plannedTasks earlierPlans ++ first.map fun task => (task, plan)) ++
          (task, plan) :: (last.map (fun task => (task, plan)) ++
            Archive.plannedTasks laterPlans) := by
      rw [split, Archive.plannedTasks, List.flatMap_append, List.flatMap_cons, tasks]
      simp [Archive.plannedTasks]
    have all := coherent.plannedInOrder _ _ _ order (of_decide_eq_true begun)
    exact decide_eq_true (all (earlier, plan) (by simp [earlierMem]))
  · rintro ⟨incomplete, notLast⟩
    apply incomplete
    have bound := (List.getElem?_eq_some_iff.mp found).choose
    have counts := coherent.plansFollowResults
    have every : (plan.tasks.map env.taskId).filter (fun taskId => archive.history taskId ≠ []) =
        plan.tasks.map env.taskId := by
      rw [List.filter_eq_self]
      intro taskId member
      obtain ⟨task, taskMem, rfl⟩ := List.mem_map.mp member
      exact decide_eq_true (coherent.begun found (by omega) taskMem)
    rw [every, List.length_map]

theorem Coherent.checkPassResult_ok (coherent : env.Coherent manifest archive)
    {passResult : PassResult Sha} {ordinal : ℕ}
    (found : archive.passResults[ordinal]? = some passResult) :
    env.checkPassResult archive passResult ordinal = .ok () := by
  obtain ⟨plan, planFound, results, credited, built⟩ := coherent.results ordinal passResult found
  have computed : plan.tasks.mapM (fun task => env.creditedResult archive (env.taskId task)) =
      .ok results := by
    rw [mapM_eq_ok_iff]
    refine map_eq_map_of_agrees (fun task result same => ?_) credited
    unfold creditedResult
    rw [same]
  unfold checkPassResult
  simp only [planFound]
  rw [bind_eq_ok_iff]
  refine ⟨results, computed, ?_⟩
  rw [check_bind_eq_ok_iff, raiseIf_eq_ok_iff, bind_eq_ok_iff]
  refine ⟨?_, passResult, built, raiseIf_eq_ok_iff.mpr fun different => different rfl⟩
  rw [List.any_eq_true]
  rintro ⟨result, member, unfinished⟩
  have among : some result ∈ plan.tasks.map fun task => env.credited? archive (env.taskId task) :=
    credited ▸ List.mem_map_of_mem member
  obtain ⟨task, -, same⟩ := List.mem_map.mp among
  obtain ⟨sameTask, terminal⟩ := coherent.credited_spec same
  rw [sameTask] at unfinished
  simp [terminal] at unfinished

/-- The plans of the sealed passes are the first plans. -/
theorem Coherent.map_plan_eq (coherent : env.Coherent manifest archive) :
    archive.passResults.map (·.plan) = archive.plans.take archive.passResults.length := by
  apply List.ext_getElem?
  intro ordinal
  rw [List.getElem?_map, List.getElem?_take]
  cases found : archive.passResults[ordinal]? with
  | none =>
      have bound := List.getElem?_eq_none_iff.mp found
      rw [if_neg (by omega)]
      rfl
  | some passResult =>
      obtain ⟨plan, planFound, results, -, built⟩ := coherent.results ordinal passResult found
      rw [if_pos (List.getElem?_eq_some_iff.mp found).choose, Option.map_some, planFound,
        (buildPassResult_spec built).samePlan]

theorem Coherent.plan_of_result (coherent : env.Coherent manifest archive)
    {passResult : PassResult Sha} {ordinal : ℕ}
    (found : archive.passResults[ordinal]? = some passResult) :
    env.SealedPlan manifest (archive.passResults.take ordinal) ordinal passResult.plan ∧
      env.PassOf passResult.plan passResult := by
  obtain ⟨plan, planFound, results, -, built⟩ := coherent.results ordinal passResult found
  have spec := buildPassResult_spec built
  obtain rfl := spec.samePlan
  exact ⟨coherent.plans ordinal _ planFound, spec⟩

/-- The tasks of the sealed passes are distinct. -/
theorem Coherent.distinct_sealed (coherent : env.Coherent manifest archive) :
    ((archive.passResults.flatMap (·.plan.tasks)).map env.taskId).Nodup := by
  have tasks : archive.passResults.flatMap (·.plan.tasks) =
      (archive.plans.take archive.passResults.length).flatMap (·.tasks) := by
    rw [← coherent.map_plan_eq, List.flatMap_map]
  have all : (archive.plans.flatMap (·.tasks)).map env.taskId =
      (Archive.plannedTasks archive.plans).map fun entry => env.taskId entry.1 := by
    rw [Archive.plannedTasks, List.map_flatMap, List.map_flatMap]
    simp only [List.map_map]
    rfl
  rw [tasks]
  have distinct := coherent.distinctTasks
  rw [← all, ← List.take_append_drop archive.passResults.length archive.plans,
    List.flatMap_append, List.map_append] at distinct
  exact (List.nodup_append.mp distinct).1

theorem Coherent.validateSummary_ok (coherent : env.Coherent manifest archive)
    (free : env.CollisionFree) : env.validateSummary manifest archive.passResults = .ok () := by
  have distinct := coherent.distinct_sealed
  unfold validateSummary
  simp only [check_bind_eq_ok_iff, raiseIf_eq_ok_iff, not_not]
  refine ⟨coherent.passKinds_eq, ?_, ?_, ?_, distinct, ?_, ?_⟩
  · rw [List.any_eq_true]
    rintro ⟨passResult, member, foreign⟩
    obtain ⟨ordinal, found⟩ := List.getElem?_of_mem member
    exact of_decide_eq_true foreign (coherent.plan_of_result found).1.campaign
  · rw [List.any_eq_true]
    rintro ⟨ordinal, member, wrong⟩
    have found := List.getElem?_eq_getElem (List.mem_range.mp member)
    have same := (coherent.plan_of_result found).1.dependencies
    rw [decide_eq_true_eq, found, Option.map_some] at wrong
    exact wrong (congrArg some same)
  · rw [List.any_eq_true]
    rintro ⟨passResult, member, incomplete⟩
    have nonempty : 0 < archive.passResults.length := by
      rw [List.length_pos_iff]
      rintro empty
      simp [empty] at member
    have bound : archive.passResults.length - 1 < archive.plans.length := by
      have counts := coherent.resultsFollowPlans
      omega
    have sealed_ := coherent.plans _ _ (List.getElem?_eq_getElem bound)
    rw [List.dropLast_eq_take] at member
    exact of_decide_eq_true incomplete (sealed_.complete passResult member)
  · have requests : (archive.passResults.flatMap (·.plan.tasks)).map env.logicalRequestId =
        ((archive.passResults.flatMap (·.plan.tasks)).map env.taskId).map env.logicalRequest := by
      rw [List.map_map]
      rfl
    rw [requests]
    exact distinct.map free.logicalRequest
  · have sameIds : (archive.passResults.flatMap (·.taskResults)).map (·.taskId) =
        (archive.passResults.flatMap (·.plan.tasks)).map env.taskId := by
      rw [List.map_flatMap, List.map_flatMap]
      apply List.flatMap_congr
      intro passResult member
      obtain ⟨ordinal, found⟩ := List.getElem?_of_mem member
      exact (coherent.plan_of_result found).2.taskIds
    rw [← sameIds, List.Nodup, List.pairwise_map] at distinct
    rw [List.Nodup, List.pairwise_map]
    exact distinct.imp fun different same => different (free.resultIdentity _ _ _ _ _ _ same)

end Passes

/-! ## The whole archive -/

/-- The loader accepts a coherent archive that meets its further conditions. -/
theorem Coherent.validateLoadedState_ok (coherent : env.Coherent manifest archive)
    (free : env.CollisionFree) (once : env.NormalizesOnce) (loadable : env.Loadable archive) :
    env.validateLoadedState manifest archive = .ok () := by
  unfold validateLoadedState requireDistinct
  simp only [check_bind_eq_ok_iff, forM_eq_ok_iff, raiseIf_eq_ok_iff, not_not,
    option_forM_eq_ok_iff]
  refine ⟨?_, ?_, coherent.distinctTasks, coherent.distinctActivations, ?_,
    coherent.distinctOutputs, ?_, coherent.distinctAttempts, ?_, coherent.distinctResults, ?_, ?_,
    ?_, ?_, ?_, ?_, ?_, ?_, coherent.validateSummary_ok free⟩
  · have first := coherent.resultsFollowPlans
    have second := coherent.plansFollowResults
    omega
  · intro entry member
    exact coherent.checkPlan_ok (List.mem_zipIdx_iff_getElem?.mp member)
  · exact fun activation member => coherent.checkActivation_ok member
  · exact fun output member => coherent.checkOutput_ok once member
  · exact fun attempt member => coherent.checkProviderAttempt_ok member
  · exact fun result member => coherent.checkResult_ok member
  · exact fun result _ => checkObservations_ok (loadable.unambiguous result.taskId)
  · exact fun plan member workset same =>
      coherent.checkWorkset_ok (loadable.worksets plan member workset same)
  · intro entry member
    have found := List.mem_zipIdx_iff_getElem?.mp member
    obtain ⟨less, same⟩ := List.getElem?_eq_some_iff.mp found
    have split : archive.events =
        archive.events.take entry.2 ++ entry.1 :: archive.events.drop (entry.2 + 1) := by
      rw [← same, ← List.drop_eq_getElem_cons, List.take_append_drop]
    exact coherent.checkEvent_ok free loadable split
  · intro event member
    exact coherent.checkLifecycle_ok loadable
      (List.ne_nil_of_mem (List.mem_filter.mpr ⟨member, decide_eq_true rfl⟩))
  · rw [List.any_eq_true]
    rintro ⟨taskId, member, empty⟩
    exact coherent.evidence_begun member (of_decide_eq_true empty)
  · intro entry member
    exact coherent.checkPlannedPrefix_ok (List.mem_zipIdx_iff_getElem?.mp member)
  · intro entry member
    exact coherent.checkPassResult_ok (List.mem_zipIdx_iff_getElem?.mp member)

end Environment

end Scheduler

end MmAudit
