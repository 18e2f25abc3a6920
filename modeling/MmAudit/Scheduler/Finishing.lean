import MmAudit.Scheduler.Acceptance

/-!
# The results of finished tasks

A pass result is built from the credited results of the tasks, and building it
checks each of them against its task once more.  Whatever way a result came to be
recorded, it passes all of these checks but one: nothing before compares the kind
of the task with an explicitly empty outcome.
-/

set_option linter.unusedSectionVars false

namespace MmAudit

namespace Scheduler

open Fallible Keyed Logged

namespace Environment

variable {Sha Payload : Type} [LinearOrder Sha] [DecidableEq Payload]
  {env : Environment Sha Payload} {manifest : CampaignManifest Sha}
  {archive files : Archive Sha Payload} {journal next : Journal Sha Payload}
  {plan : PassPlan Sha} {task : TaskPlan Sha} {result : TaskResult Sha}

/-! ## What a built result says -/

section Built

/-- The result repeats the identities of its plan and its task. -/
structure Identified (env : Environment Sha Payload) (plan : PassPlan Sha) (task : TaskPlan Sha)
    (result : TaskResult Sha) : Prop where
  campaignId : result.campaignId = plan.manifest.campaignId
  manifestSha256 : result.manifestSha256 = plan.manifest.manifestSha256
  passKind : result.passKind = plan.passKind
  passId : result.passId = env.passId plan.manifest plan.passKind
  passPlanId : result.passPlanId = env.passPlanIdentity plan
  passPlanSha256 : result.passPlanSha256 = env.passPlan plan
  taskPlanSha256 : result.taskPlanSha256 = env.taskPlan task
  logicalRequestId : result.logicalRequestId = env.logicalRequestId task
  scope : result.scope = task.scope

theorem identified_of_buildResult {origin : ResultOrigin}
    {activation : Option (TaskActivation Sha)} {status : TerminalStatus} {evidence : Sha}
    {output : Option (TaskOutput Sha Payload)}
    (built : env.buildResult plan task origin activation status evidence output = .ok result) :
    env.Identified plan task result ∧ result.output = output.map env.outputReference := by
  unfold buildResult at built
  simp only [bind_eq_ok_iff, Except.ok.injEq] at built
  obtain ⟨_, -, _, -, rfl⟩ := built
  exact ⟨⟨rfl, rfl, rfl, rfl, rfl, rfl, rfl, rfl, rfl⟩, rfl⟩

/-- A result of an activated task, whose success was checked against its output. -/
theorem identified_of_buildTaskResult {activation : TaskActivation Sha} {status : TerminalStatus}
    {evidence : Sha} {output : Option (TaskOutput Sha Payload)}
    (built : env.buildTaskResult plan task activation status evidence output = .ok result) :
    env.Identified plan task result ∧ result.output = output.map env.outputReference ∧
      (status = .succeeded → checkSuccess task evidence output = .ok ()) := by
  unfold buildTaskResult at built
  simp only [bind_eq_ok_iff] at built
  obtain ⟨_, -, _, -, _, checked, built⟩ := built
  obtain ⟨identified, sameOutput⟩ := identified_of_buildResult built
  refine ⟨identified, sameOutput, fun succeeded => ?_⟩
  rwa [if_pos succeeded] at checked

/-- What the seal relies on for a successful task. -/
structure Creditable (plan : PassPlan Sha) (task : TaskPlan Sha) (output : OutputReference Sha) :
    Prop where
  completion : task.taskKind = .modelRequest → output.completion.isSome
  specialist :
    requiresSpecialistAcceptedOutcome task.role = output.specialistAcceptedOutcomeSha256.isSome
  decisions : task.taskKind = .modelRequest → requiresCandidateCredit task →
    output.reviewedCandidateIds = task.candidateIds
  hostRole : task.taskKind = .hostComputation → task.role ∈ hostOutputRoles
  sources : task.taskKind = .modelRequest → task.passKind = .blindShardReview →
    task.role = "source_audit" →
      output.reviewedSourceDescriptorSha256s ⊆ taskSourceDescriptors plan task ∧
        taskSourceDescriptors plan task ⊆ output.reviewedSourceDescriptorSha256s

theorem creditable_of_checks {output : TaskOutput Sha Payload} {evidence : Sha}
    (content : checkOutputContent plan task output.content = .ok ())
    (success : checkSuccess task evidence (some output) = .ok ()) :
    Creditable plan task (env.outputReference output) := by
  unfold checkOutputContent at content
  simp only [raiseIf_bind_eq_ok_iff, raiseIf_eq_ok_iff] at content
  obtain ⟨typed, specialist, covered⟩ := content
  push Not at typed specialist covered
  unfold checkSuccess at success
  rw [Option.bind_some] at success
  have model : task.taskKind = .modelRequest →
      output.content.modelCompletionEvidence.isSome ∧
        (requiresCandidateCredit task →
          output.content.reviewedCandidateIds = task.candidateIds) := by
    intro kind
    cases completion : output.content.modelCompletionEvidence with
    | none =>
        rw [completion] at success
        exact absurd kind (raiseIf_eq_ok_iff.mp success)
    | some evidence =>
        rw [completion] at success
        simp only [raiseIf_bind_eq_ok_iff, raiseIf_eq_ok_iff, Option.map_some, ne_eq,
          Option.some.injEq, not_and, not_not] at success
        exact ⟨rfl, success.2.2⟩
  exact {
    completion := fun kind => by
      rw [outputReference, Option.isSome_map]
      exact (model kind).1
    specialist := specialist
    decisions := fun kind => (model kind).2
    hostRole := typed
    sources := fun kind pass role => covered kind pass (.inl role) }

end Built

/-! ## What a finished task has credited -/

section Finished

/-- A credited result that carries the identity of its task, and what its success
requires. -/
structure Finished (env : Environment Sha Payload) (plan : PassPlan Sha) (task : TaskPlan Sha)
    (result : TaskResult Sha) : Prop where
  taskId : result.taskId = env.taskId task
  identified : env.Identified plan task result
  success : result.terminalStatus = .succeeded →
    ∃ output, result.output = some output ∧ Creditable plan task output

theorem mem_of_credited? {taskId : Sha} (credited : env.credited? archive taskId = some result) :
    result ∈ archive.resultObservations := by
  unfold credited? at credited
  simp only [Option.bind_eq_some_iff] at credited
  obtain ⟨event, -, sha, -, found⟩ := credited
  exact List.mem_of_find?_eq_some found

/-- Whichever way a task ended, its credited result is its own. -/
theorem Coherent.finished (coherent : env.Coherent manifest archive)
    (planned : env.plannedTask? archive (env.taskId task) = some (task, plan))
    (credited : env.credited? archive (env.taskId task) = some result) :
    env.Finished plan task result := by
  have sameTask := (coherent.credited_spec credited).1
  have observed : result ∈ (env.view archive (env.taskId task)).observations :=
    List.mem_filter.mpr ⟨mem_of_credited? credited, by simp [sameTask]⟩
  obtain ⟨otherTask, otherPlan, found, evidence⟩ :=
    (coherent.phases (env.taskId task)).justified observed
  obtain ⟨rfl, rfl⟩ := Prod.mk.inj (Option.some.inj (planned.symm.trans found))
  rcases evidence with ⟨-, -, -, built⟩ | ⟨activation, -, activated, built⟩
  · have failed := (buildPreflightFailure_spec built).2.2
    unfold buildPreflightFailure at built
    rw [raiseIf_bind_eq_ok_iff] at built
    refine ⟨sameTask, (identified_of_buildResult built.2).1, fun succeeded => ?_⟩
    rw [succeeded] at failed
    simp [TerminalStatus.IsPreflight] at failed
  · obtain ⟨identified, sameOutput, checked⟩ := identified_of_buildTaskResult built
    have present := (buildTaskResult_spec built).2.2.2.1
    refine ⟨sameTask, identified, fun succeeded => ?_⟩
    rw [if_pos succeeded] at sameOutput checked present
    obtain ⟨output, given⟩ := Option.isSome_iff_exists.mp (present succeeded)
    obtain ⟨_, _, _, arguments, otherPlanned, -, -, -, outputBuilt⟩ := coherent.output_spec given
    obtain ⟨rfl, rfl⟩ := Prod.mk.inj (Option.some.inj (planned.symm.trans otherPlanned))
    rw [given] at sameOutput checked
    exact ⟨env.outputReference output, sameOutput,
      creditable_of_checks (checkOutputContent_of_buildOutput outputBuilt) (checked succeeded)⟩

/-- Exactly an empty completion ended explicitly empty. -/
def EmptyExactly (task : TaskPlan Sha) (result : TaskResult Sha) : Prop :=
  task.taskKind = .emptyCompletion ↔ result.terminalStatus = .explicitEmpty

instance (task : TaskPlan Sha) (result : TaskResult Sha) : Decidable (EmptyExactly task result) :=
  inferInstanceAs (Decidable (_ ↔ _))

/-- A task with a typed host output decides about no candidates. -/
theorem isCandidateDecisionRole_of_hostOutputRoles {role : String}
    (host : role ∈ hostOutputRoles) : isCandidateDecisionRole role = false ∧ role ≠ "judge" := by
  simp only [hostOutputRoles, List.mem_cons, List.not_mem_nil, or_false] at host
  rcases host with rfl | rfl | rfl | rfl <;> decide

/-- Of the checks on a credited result only the one on empty completions can
fail. -/
theorem Finished.checkPlannedResult_iff (finished : env.Finished plan task result)
    (samePass : task.passKind = plan.passKind) :
    env.checkPlannedResult plan task result = .ok () ↔ EmptyExactly task result := by
  have identity := finished.identified
  have same : ¬ (result.campaignId ≠ plan.manifest.campaignId ∨
      result.manifestSha256 ≠ plan.manifest.manifestSha256 ∨
      result.passKind ≠ plan.passKind ∨
      result.passId ≠ env.passId plan.manifest plan.passKind ∨
      result.passPlanId ≠ env.passPlanIdentity plan ∨
      result.passPlanSha256 ≠ env.passPlan plan ∨
      result.taskPlanSha256 ≠ env.taskPlan task ∨
      result.logicalRequestId ≠ env.logicalRequestId task ∨
      result.scope ≠ task.scope) := by
    simp [identity.campaignId, identity.manifestSha256, identity.passKind, identity.passId,
      identity.passPlanId, identity.passPlanSha256, identity.taskPlanSha256,
      identity.logicalRequestId, identity.scope]
  unfold checkPlannedResult
  simp only [raiseIf_bind_eq_ok_iff, raiseIf_eq_ok_iff]
  constructor
  · rintro ⟨-, kinds, -⟩
    simpa [EmptyExactly] using kinds
  · intro exactly
    refine ⟨same, by simpa [EmptyExactly] using exactly, ?_⟩
    by_cases succeeded : result.terminalStatus = .succeeded
    · obtain ⟨output, given, creditable⟩ := finished.success succeeded
      have decided : ∀ credit : requiresCandidateCredit task = true, task.taskKind = .modelRequest →
          output.reviewedCandidateIds = task.candidateIds :=
        fun credit kind => creditable.decisions kind credit
      have model : isCandidateDecisionRole task.role = true ∨ task.role = "judge" →
          task.taskKind = .modelRequest := by
        intro role
        cases kind : task.taskKind with
        | modelRequest => rfl
        | hostComputation =>
            obtain ⟨notDecision, notJudge⟩ :=
              isCandidateDecisionRole_of_hostOutputRoles (creditable.hostRole kind)
            rcases role with decision | judge
            · rw [notDecision] at decision
              cases decision
            · exact absurd judge notJudge
        | emptyCompletion =>
            rw [EmptyExactly, kind, succeeded] at exactly
            simp at exactly
      simp only [given, Option.bind_some, Option.map_some, Option.getD_some]
      refine ⟨?_, ?_, ?_, ?_, ?_⟩
      · rintro ⟨kind, -, missing⟩
        have present := creditable.completion kind
        rw [Option.isNone_iff_eq_none.mp missing] at present
        cases present
      · rintro ⟨-, different⟩
        exact different creditable.specialist
      · rintro ⟨pass, kind, -, omitted⟩
        exact omitted (decided (by simp [requiresCandidateCredit, samePass, pass]) kind)
      · rintro ⟨pass, role, -, omitted⟩
        exact omitted (decided (by simp [requiresCandidateCredit, samePass, pass, role])
          (model (.inl role)))
      · rintro ⟨pass, role, -, omitted⟩
        exact omitted (decided (by simp [requiresCandidateCredit, samePass, pass, role])
          (model (.inr role)))
    · simp [succeeded]

end Finished

/-! ## The pass result -/

section Pass

/-- The results of a pass beside its tasks. -/
def FinishedPass (env : Environment Sha Payload) (plan : PassPlan Sha)
    (results : List (TaskResult Sha)) : Prop :=
  List.Forall₂ (fun task result => env.Finished plan task result) plan.tasks results

/-- What the checks of a plan say about its tasks. -/
theorem passKind_of_validatePassPlan (valid : env.validatePassPlan plan = .ok ())
    (member : task ∈ plan.tasks) : task.passKind = plan.passKind := by
  unfold validatePassPlan at valid
  simp only [bind_eq_ok_iff] at valid
  obtain ⟨_, -, _, -, _, -, _, -, _, -, _, same, -⟩ := valid
  rw [raiseIf_eq_ok_iff, List.any_eq_true] at same
  by_contra different
  exact same ⟨task, member, by simp [different]⟩

theorem sorted_of_validatePassPlan (valid : env.validatePassPlan plan = .ok ()) :
    plan.tasks ≠ [] ∧ (plan.tasks.map env.taskId).Pairwise (· < ·) := by
  unfold validatePassPlan at valid
  simp only [bind_eq_ok_iff] at valid
  obtain ⟨_, -, _, -, _, some_, _, sorted, -⟩ := valid
  rw [raiseIf_eq_ok_iff] at some_
  rw [raiseIf_eq_ok_iff, not_not] at sorted
  exact ⟨some_, sorted⟩

/-- The blind pass has model requests only, and they audit every shard. -/
theorem blind_of_validatePassPlan (valid : env.validatePassPlan plan = .ok ())
    (blind : plan.passKind = .blindShardReview) :
    (∀ task ∈ plan.tasks, task.taskKind = .modelRequest) ∧
      plan.manifest.shards.map (·.shardId) ⊆ auditedShards plan := by
  unfold validatePassPlan at valid
  simp only [bind_eq_ok_iff] at valid
  obtain ⟨_, -, _, -, _, -, _, -, _, -, _, -, _, -, _, -, _, -, _, -, _, -, _, -, _, -, portfolio⟩ :=
    valid
  rw [if_pos blind] at portfolio
  unfold validateBlindPortfolio at portfolio
  simp only [bind_eq_ok_iff, forM_eq_ok_iff] at portfolio
  obtain ⟨_, checked, covered⟩ := portfolio
  rw [raiseIf_eq_ok_iff, not_not] at covered
  refine ⟨fun task member => ?_, covered.2⟩
  have kind := checked task member
  unfold validateBlindTask at kind
  rw [raiseIf_bind_eq_ok_iff, not_not] at kind
  exact kind.1

theorem FinishedPass.taskIds {results : List (TaskResult Sha)}
    (finished : env.FinishedPass plan results) :
    results.map (·.taskId) = plan.tasks.map env.taskId := by
  unfold FinishedPass at finished
  generalize plan.tasks = tasks at finished
  induction finished with
  | nil => rfl
  | cons first rest ih => rw [List.map_cons, List.map_cons, first.taskId, ih]

theorem FinishedPass.finished {results : List (TaskResult Sha)}
    (finished : env.FinishedPass plan results)
    (member : (task, result) ∈ plan.tasks.zip results) : env.Finished plan task result := by
  unfold FinishedPass at finished
  exact (List.forall₂_iff_zip.mp finished).2 member

/-- Every task has a result. -/
theorem FinishedPass.exists_result {results : List (TaskResult Sha)}
    (finished : env.FinishedPass plan results) (member : task ∈ plan.tasks) :
    ∃ result, (task, result) ∈ plan.tasks.zip results := by
  have length := finished.length_eq
  obtain ⟨index, bound, rfl⟩ := List.mem_iff_getElem.mp member
  refine ⟨results[index], List.mem_iff_getElem.mpr ⟨index, ?_, ?_⟩⟩
  · rw [List.length_zip]
    omega
  · rw [List.getElem_zip]

theorem derivedPassStatus_eq_complete_iff {results : List (TaskResult Sha)} :
    derivedPassStatus results = .complete ↔
      ∀ result ∈ results, result.terminalStatus = .succeeded ∨
        result.terminalStatus = .explicitEmpty := by
  unfold derivedPassStatus
  simp only
  split
  · rename_i all
    simpa using all
  · rename_i some_
    constructor
    · intro complete
      split at complete
      · cases complete
      · split at complete <;> cases complete
    · intro all
      exact absurd (by simpa using all) some_

theorem taskSourceDescriptors_subset (plan : PassPlan Sha) (task : TaskPlan Sha) :
    taskSourceDescriptors plan task ⊆ knownSourceDescriptors plan := by
  intro descriptor member
  obtain ⟨shard, shardMem, found⟩ := List.mem_flatMap.mp member
  exact List.mem_flatMap.mpr ⟨shard, (List.mem_filter.mp shardMem).1, found⟩

/-- In a complete blind pass the audits have reviewed every source. -/
theorem FinishedPass.checkBlindCoverage {results : List (TaskResult Sha)} {status : PassStatus}
    (finished : env.FinishedPass plan results) (valid : env.validatePassPlan plan = .ok ())
    (blind : plan.passKind = .blindShardReview)
    (exactly : ∀ pair ∈ plan.tasks.zip results, EmptyExactly pair.1 pair.2)
    (complete : derivedPassStatus results = .complete) :
    checkBlindCoverage ⟨plan, results, status⟩ = .ok () := by
  obtain ⟨models, audited⟩ := blind_of_validatePassPlan valid blind
  -- An audit of a complete pass succeeded, because it is no empty completion.
  have reviews : ∀ task result, (task, result) ∈ plan.tasks.zip results →
      task.role = "source_audit" →
        reviewedSources result ⊆ taskSourceDescriptors plan task ∧
          taskSourceDescriptors plan task ⊆ reviewedSources result := by
    intro task result member role
    have taskMem := (List.of_mem_zip member).1
    have model := models task taskMem
    have succeeded : result.terminalStatus = .succeeded := by
      rcases derivedPassStatus_eq_complete_iff.mp complete result (List.of_mem_zip member).2 with
        succeeded | empty
      · exact succeeded
      · have kind := (exactly _ member).mpr empty
        rw [model] at kind
        cases kind
    obtain ⟨output, given, creditable⟩ := (finished.finished member).success succeeded
    unfold reviewedSources
    rw [given]
    exact creditable.sources model ((passKind_of_validatePassPlan valid taskMem).trans blind) role
  have audits : ∀ pair, pair ∈ auditResults ⟨plan, results, status⟩ ↔
      pair ∈ plan.tasks.zip results ∧ pair.1.role = "source_audit" := by
    intro pair
    simp [auditResults]
  unfold Environment.checkBlindCoverage
  rw [raiseIf_bind_eq_ok_iff, raiseIf_eq_ok_iff, not_not]
  refine ⟨?_, ?_, ?_⟩
  · rw [List.any_eq_true]
    rintro ⟨⟨task, result⟩, member, uncovered⟩
    obtain ⟨zipped, role⟩ := (audits _).mp member
    rw [decide_eq_true_eq] at uncovered
    exact uncovered (reviews task result zipped role)
  · intro descriptor member
    obtain ⟨⟨task, result⟩, auditMem, found⟩ := List.mem_flatMap.mp member
    obtain ⟨zipped, role⟩ := (audits _).mp auditMem
    exact taskSourceDescriptors_subset plan task ((reviews task result zipped role).1 found)
  · intro descriptor member
    obtain ⟨shard, shardMem, found⟩ := List.mem_flatMap.mp member
    have audit := audited (List.mem_map_of_mem (f := (·.shardId)) shardMem)
    obtain ⟨task, taskMem, first⟩ := List.mem_filterMap.mp audit
    obtain ⟨planned, role⟩ := List.mem_filter.mp taskMem
    obtain ⟨result, zipped⟩ := finished.exists_result planned
    have isAudit : task.role = "source_audit" := by simpa using role
    refine List.mem_flatMap.mpr ⟨(task, result), (audits _).mpr ⟨zipped, isAudit⟩, ?_⟩
    apply (reviews task result zipped isAudit).2
    refine List.mem_flatMap.mpr ⟨shard, List.mem_filter.mpr ⟨shardMem, ?_⟩, found⟩
    have inScope : shard.shardId ∈ task.scope.shardIds := List.mem_of_mem_head? first
    simp [inScope]

/-- The result of a pass with its tasks' results in the order of the plan. -/
def passRecord (plan : PassPlan Sha) (results : List (TaskResult Sha)) : PassResult Sha :=
  ⟨plan, results, derivedPassStatus results⟩

/-- A pass result is built from finished tasks exactly when empty completions and
explicitly empty results go together. -/
theorem FinishedPass.buildPassResult_iff {results : List (TaskResult Sha)}
    {passResult : PassResult Sha} (finished : env.FinishedPass plan results)
    (valid : env.validatePassPlan plan = .ok ()) :
    env.buildPassResult plan results = .ok passResult ↔
      passResult = passRecord plan results ∧
        ∀ pair ∈ plan.tasks.zip results, EmptyExactly pair.1 pair.2 := by
  obtain ⟨some_, sorted⟩ := sorted_of_validatePassPlan valid
  have ids := finished.taskIds
  have inOrder : results.insertionSort (fun first second => first.taskId ≤ second.taskId) =
      results := by
    apply List.Pairwise.insertionSort_eq
    rw [← ids, List.pairwise_map] at sorted
    exact sorted.imp le_of_lt
  have present : results ≠ [] := by
    rintro rfl
    rw [List.map_nil] at ids
    exact some_ (List.map_eq_nil_iff.mp ids.symm)
  have checks : (∀ pair ∈ plan.tasks.zip results,
      env.checkPlannedResult plan pair.1 pair.2 = .ok ()) ↔
        ∀ pair ∈ plan.tasks.zip results, EmptyExactly pair.1 pair.2 := by
    refine forall₂_congr fun pair member => ?_
    exact (finished.finished member).checkPlannedResult_iff
      (passKind_of_validatePassPlan valid (List.of_mem_zip member).1)
  have validated : env.validatePassResult (passRecord plan results) = .ok () ↔
      ∀ pair ∈ plan.tasks.zip results, EmptyExactly pair.1 pair.2 := by
    unfold validatePassResult passRecord
    simp only [check_bind_eq_ok_iff, raiseIf_eq_ok_iff, forM_eq_ok_iff, checks]
    constructor
    · rintro ⟨-, -, -, exactly, -⟩
      exact exactly
    · intro exactly
      refine ⟨present, not_not.mpr (ids ▸ sorted), not_not.mpr ids, exactly, not_not.mpr rfl, ?_⟩
      split
      · rename_i blind
        exact finished.checkBlindCoverage valid blind.2 exactly blind.1
      · rfl
  unfold buildPassResult
  simp only [inOrder, check_bind_eq_ok_iff, Except.ok.injEq]
  constructor
  · rintro ⟨-, checked, rfl⟩
    exact ⟨rfl, validated.mp checked⟩
  · rintro ⟨rfl, exactly⟩
    exact ⟨valid, validated.mpr exactly, rfl⟩

end Pass

end Environment

end Scheduler

end MmAudit
