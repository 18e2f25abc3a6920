import MmAudit.Scheduler.Building

/-!
# What building a record guarantees

Each rule says what a record that was built carries, so that the modules after
this one need not look into the builders.
-/

set_option linter.unusedSectionVars false

namespace MmAudit

namespace Scheduler

open Fallible

namespace Environment

variable {Sha Payload : Type} [LinearOrder Sha] [DecidableEq Payload]
  {env : Environment Sha Payload} {plan : PassPlan Sha} {task : TaskPlan Sha}
  {activation : TaskActivation Sha}

/-! ## Activations -/

theorem requireExactTask_spec (exact_ : env.requireExactTask activation plan task = .ok ()) :
    env.HasExactTask plan task ∧ activation.taskId = env.taskId task ∧
      activation.campaignId = plan.manifest.campaignId ∧
      activation.passPlanId = env.passPlanIdentity plan ∧
      activation.logicalRequestId = env.logicalRequestId task := by
  unfold requireExactTask at exact_
  rw [raiseIf_bind_eq_ok_iff] at exact_
  have agrees := exact_.1
  push Not at agrees
  exact ⟨agrees.1, agrees.2.2.2.2.2.1, agrees.2.1, agrees.2.2.2.1, agrees.2.2.2.2.2.2.2.1⟩

/-- What `buildActivation` returns belongs to its task and carries the sorted
upstream digests. -/
theorem buildActivation_spec {material : ActivationMaterial Sha}
    (built : env.buildActivation plan task material = .ok activation) :
    env.requireExactTask activation plan task = .ok () ∧
      activation.upstreamTaskResultSha256s = sortedSet material.upstreamTaskResultSha256s := by
  unfold buildActivation at built
  simp only [bind_eq_ok_iff, Except.ok.injEq] at built
  obtain ⟨_, -, _, -, _, exact_, rfl⟩ := built
  exact ⟨exact_, rfl⟩

/-! ## Outputs and provider attempts -/

theorem buildOutput_spec {arguments : OutputArguments Sha Payload}
    {output : TaskOutput Sha Payload}
    (built : env.buildOutput plan task activation arguments = .ok output) :
    env.requireExactTask activation plan task = .ok () ∧ output.taskId = env.taskId task ∧
      env.normalizeOutput plan task activation arguments = .ok output.content ∧
      env.requireExactActivation output activation = .ok () := by
  unfold buildOutput at built
  simp only [bind_eq_ok_iff, Except.ok.injEq] at built
  obtain ⟨_, exact_, content, normalized, _, -, rfl⟩ := built
  obtain ⟨-, sameTask, sameCampaign, samePlan, sameRequest⟩ := requireExactTask_spec exact_
  refine ⟨exact_, rfl, normalized, ?_⟩
  unfold requireExactActivation
  rw [raiseIf_eq_ok_iff]
  simp [sameTask, sameCampaign, samePlan, sameRequest]

/-- An output is determined by its task, its activation and its content. -/
theorem buildOutput_of_content {arguments others : OutputArguments Sha Payload}
    {output : TaskOutput Sha Payload}
    (built : env.buildOutput plan task activation arguments = .ok output)
    (again : env.normalizeOutput plan task activation others = .ok output.content) :
    env.buildOutput plan task activation others = .ok output := by
  unfold buildOutput at built ⊢
  simp only [bind_eq_ok_iff, Except.ok.injEq] at built ⊢
  obtain ⟨_, exact_, content, -, _, checked, rfl⟩ := built
  exact ⟨(), exact_, content, again, (), checked, rfl⟩

theorem checkOutputContent_of_buildOutput {arguments : OutputArguments Sha Payload}
    {output : TaskOutput Sha Payload}
    (built : env.buildOutput plan task activation arguments = .ok output) :
    checkOutputContent plan task output.content = .ok () := by
  unfold buildOutput at built
  simp only [bind_eq_ok_iff, Except.ok.injEq] at built
  obtain ⟨_, -, content, -, _, checked, rfl⟩ := built
  exact checked

theorem buildProviderAttempt_spec {usage : UsageRecord Sha} {attempt : ProviderAttemptEvidence Sha}
    (built : env.buildProviderAttempt task activation usage = .ok attempt) :
    attempt.taskId = env.taskId task ∧ attempt.usageRecord = usage ∧
      task.taskKind = .modelRequest := by
  unfold buildProviderAttempt at built
  simp only [bind_eq_ok_iff, Except.ok.injEq] at built
  obtain ⟨_, model, _, -, _, -, _, -, rfl⟩ := built
  exact ⟨rfl, rfl, not_not.mp (raiseIf_eq_ok_iff.mp model)⟩

/-! ## Results -/

/-- What a result of a task carries. -/
structure ResultOf (env : Environment Sha Payload) (plan : PassPlan Sha) (task : TaskPlan Sha)
    (status : TerminalStatus) (evidence : Sha) (result : TaskResult Sha) : Prop where
  taskId : result.taskId = env.taskId task
  passPlanId : result.passPlanId = env.passPlanIdentity plan
  logicalRequestId : result.logicalRequestId = env.logicalRequestId task
  status : result.terminalStatus = status
  evidence : result.terminalEvidenceSha256 = evidence

theorem buildResult_spec {origin : ResultOrigin} {activation : Option (TaskActivation Sha)}
    {status : TerminalStatus} {evidence : Sha} {output : Option (TaskOutput Sha Payload)}
    {result : TaskResult Sha}
    (built : env.buildResult plan task origin activation status evidence output = .ok result) :
    env.ResultOf plan task status evidence result ∧ result.resultOrigin = origin ∧
      result.activation = activation.map env.activationReference ∧
      (status = .succeeded → output.isSome) := by
  unfold buildResult at built
  simp only [bind_eq_ok_iff, Except.ok.injEq] at built
  obtain ⟨_, -, _, valid, rfl⟩ := built
  refine ⟨⟨rfl, rfl, rfl, rfl, rfl⟩, rfl, rfl, fun succeeded => ?_⟩
  unfold validateTaskResult at valid
  simp only [raiseIf_bind_eq_ok_iff] at valid
  obtain ⟨-, -, present, -⟩ := valid
  by_contra absent
  apply present
  refine ⟨succeeded, ?_⟩
  simpa using absent

theorem buildTaskResult_spec {status : TerminalStatus} {evidence : Sha}
    {output : Option (TaskOutput Sha Payload)} {result : TaskResult Sha}
    (built : env.buildTaskResult plan task activation status evidence output = .ok result) :
    env.ResultOf plan task status evidence result ∧ result.resultOrigin = .activated ∧
      result.activation = some (env.activationReference activation) ∧
      (status = .succeeded → output.isSome) ∧
      env.requireExactTask activation plan task = .ok () := by
  unfold buildTaskResult at built
  simp only [bind_eq_ok_iff] at built
  obtain ⟨_, exact_, -, -, -, -, built⟩ := built
  obtain ⟨carries, origin, reference, success⟩ := buildResult_spec built
  exact ⟨carries, origin, reference, success, exact_⟩

theorem buildPreflightFailure_spec {status : TerminalStatus} {evidence : Sha}
    {result : TaskResult Sha}
    (built : env.buildPreflightFailure plan task status evidence = .ok result) :
    env.ResultOf plan task status evidence result ∧ result.resultOrigin = .localPreflight ∧
      status.IsPreflight := by
  unfold buildPreflightFailure at built
  rw [raiseIf_bind_eq_ok_iff, not_not] at built
  obtain ⟨carries, origin, -⟩ := buildResult_spec built.2
  exact ⟨carries, origin, built.1⟩

/-! ## Events -/

/-- The checks of an event after the first of its task. -/
def LaterChecks (env : Environment Sha Payload) (plan : PassPlan Sha) (task : TaskPlan Sha)
    (material : EventMaterial Sha) : Prop :=
  env.checkPriorTaskEvent plan task material.kind material.priorTaskEvent = .ok () ∧
    env.checkLifecycleEvidence plan task material.kind material.requestId material.activation
      material.result = .ok () ∧
    ∀ result, material.result = some result → result.taskId = env.taskId task

theorem buildEvent_spec {material : EventMaterial Sha} {event : TaskEvent Sha}
    (built : env.buildEvent plan task material = .ok event) :
    event = env.taskEvent plan task material ∧ env.HasExactTask plan task ∧
      (material.kind = .planned → material.activation = none ∧ material.result = none) ∧
      (material.kind ≠ .planned → env.LaterChecks plan task material) := by
  unfold buildEvent at built
  simp only [bind_eq_ok_iff, Except.ok.injEq] at built
  obtain ⟨_, member, _, -, _, -, _, checks, _, -, rfl⟩ := built
  refine ⟨rfl, not_not.mp (raiseIf_eq_ok_iff.mp member), fun planned => ?_, fun later => ?_⟩
  · rw [if_pos planned, raiseIf_eq_ok_iff] at checks
    push Not at checks
    simpa using And.intro checks.2.1 checks.2.2.2
  · rw [if_neg later] at checks
    simp only [bind_eq_ok_iff] at checks
    obtain ⟨_, prior, _, evidence, belongs⟩ := checks
    refine ⟨prior, evidence, fun result same => ?_⟩
    rw [raiseIf_eq_ok_iff, same, Option.any_some, decide_eq_true_eq] at belongs
    push Not at belongs
    exact belongs.2.1

/-- Only a local abort has no activation. -/
theorem LaterChecks.activated {material : EventMaterial Sha}
    (checks : env.LaterChecks plan task material) (later : material.kind ≠ .planned)
    (notLocal : material.kind ≠ .preflightTerminal) :
    ∃ activation, material.activation = some activation ∧
      env.requireExactTask activation plan task = .ok () := by
  obtain ⟨-, evidence, -⟩ := checks
  cases present : material.activation with
  | none =>
      rw [present] at evidence
      cases kind : material.kind <;> rw [kind] at evidence later notLocal <;> contradiction
  | some activation =>
      refine ⟨activation, rfl, ?_⟩
      rw [present] at evidence
      cases kind : material.kind <;> rw [kind] at evidence later notLocal <;>
        first
        | contradiction
        | simp only [checkLifecycleEvidence, bind_eq_ok_iff] at evidence
          exact evidence.choose_spec.1

theorem LaterChecks.unactivated {material : EventMaterial Sha}
    (checks : env.LaterChecks plan task material) (aborted : material.kind = .preflightTerminal) :
    material.activation = none := by
  obtain ⟨-, evidence, -⟩ := checks
  rw [aborted, checkLifecycleEvidence, raiseIf_eq_ok_iff] at evidence
  push Not at evidence
  simpa using evidence.1

/-- Exactly the terminal events refer to a result. -/
theorem LaterChecks.result {material : EventMaterial Sha}
    (checks : env.LaterChecks plan task material) (later : material.kind ≠ .planned) :
    material.result.isSome ↔ material.kind.IsTerminal := by
  obtain ⟨-, evidence, -⟩ := checks
  cases given : material.result with
  | none =>
      rw [given] at evidence
      cases kind : material.kind <;> rw [kind] at evidence later <;>
        cases present : material.activation <;> rw [present] at evidence <;>
        simp_all [EventKind.IsTerminal, checkLifecycleEvidence, bind_eq_ok_iff, raiseIf_eq_ok_iff]
  | some result =>
      rw [given] at evidence
      cases kind : material.kind <;> rw [kind] at evidence later <;>
        cases present : material.activation <;> rw [present] at evidence <;>
        simp_all [EventKind.IsTerminal, checkLifecycleEvidence, bind_eq_ok_iff, raiseIf_eq_ok_iff]

/-! ## Digests -/

/-- The digests that the journal relies on do not collide. -/
structure CollisionFree (env : Environment Sha Payload) : Prop where
  logicalRequest : Function.Injective env.logicalRequest
  result : Function.Injective env.result
  resultIdentity : ∀ first second third other another last,
    env.resultIdentity first second third = env.resultIdentity other another last →
      second = another
  eventIdentity : ∀ first second kind other another last,
    env.eventIdentity first second kind = env.eventIdentity other another last →
      second = another ∧ kind = last

end Environment

end Scheduler

end MmAudit
