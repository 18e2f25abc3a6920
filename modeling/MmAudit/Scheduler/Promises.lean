import MmAudit.Scheduler.Acceptance
import MmAudit.Scheduler.Dispatch

/-!
# What a write must promise to the loader

A coherent archive keeps the further conditions of the loader as long as each
write meets a small condition of its own: a plan has a derived workset, an
activation uses credited results, and a result is neither an empty success beside
a provider attempt nor ambiguous.  Transitions that are called with care, and
recovery, meet these conditions.
-/

set_option linter.unusedSectionVars false

namespace MmAudit

namespace Scheduler

open Fallible Keyed Logged

namespace Environment

variable {Sha Payload : Type} [LinearOrder Sha] [DecidableEq Payload]

section Conditions

variable (env : Environment Sha Payload)

/-- The conditions of the loader that every file of a journal keeps. -/
structure Promising (archive : Archive Sha Payload) : Prop where
  worksets : ∀ plan ∈ archive.plans, ∀ workset, plan.candidateWorkset = some workset →
    env.Derived archive plan workset
  supported : ∀ activation ∈ archive.activations, env.Supported archive archive.events activation
  upstream : ∀ before event after, archive.events = before ++ event :: after →
    event.kind = .activated → ∀ activation ∈ archive.activations,
      activation.taskId = event.taskId → env.Supported archive before activation
  unambiguous : ∀ taskId, ¬ AmbiguousObservations (archive.observations taskId)
  uncredited : ∀ taskId, (archive.providerAttempt? taskId).isSome →
    ∀ result ∈ archive.observations taskId, result.terminalStatus ≠ .explicitEmpty

/-- The condition on one write. -/
def Meets (archive : Archive Sha Payload) : Artifact Sha Payload → Prop
  | .plan plan => ∀ workset, plan.candidateWorkset = some workset →
      env.Derived archive plan workset
  | .activation activation => env.Supported archive archive.events activation
  | .taskResult result =>
      ((archive.providerAttempt? result.taskId).isSome →
        result.terminalStatus ≠ .explicitEmpty) ∧
      ¬ AmbiguousObservations (archive.observations result.taskId ++ [result])
  | _ => True

end Conditions

variable {env : Environment Sha Payload} {manifest : CampaignManifest Sha}
  {cause : Cause Sha Payload} {archive other : Archive Sha Payload}

/-! ## Conditions that more files do not break -/

section Growth

theorem checkUpstream_eq_ok_iff {events : List (TaskEvent Sha)} {plan : PassPlan Sha}
    {task : TaskPlan Sha} {activation : TaskActivation Sha} :
    checkUpstream events plan task activation = .ok () ↔
      activation.upstreamTaskResultSha256s ⊆ creditedHashes events ∧
        (task.taskKind = .emptyCompletion →
          some activation.upstreamTaskResultSha256s =
            plan.candidateWorkset.map fun workset => [workset.sourceResultSha256]) := by
  unfold checkUpstream
  rw [check_bind_eq_ok_iff, raiseIf_eq_ok_iff, raiseIf_eq_ok_iff, not_not, not_and, not_ne_iff]

theorem Extends.supported (extends_ : env.Extends archive other)
    (coherent : env.Coherent manifest other) {events more : List (TaskEvent Sha)}
    {activation : TaskActivation Sha} (supported : env.Supported archive events activation)
    (planned : ∃ entry ∈ Archive.plannedTasks archive.plans,
      env.taskId entry.1 = activation.taskId)
    (grows : events <+: more) : env.Supported other more activation := by
  intro task plan member same
  obtain ⟨entry, entryMem, entrySame⟩ := planned
  obtain rfl := eq_of_key_eq coherent.distinctTasks (extends_.planned entryMem) member
    (entrySame.trans same.symm)
  have checked := checkUpstream_eq_ok_iff.mp (supported task plan entryMem same)
  refine checkUpstream_eq_ok_iff.mpr ⟨fun sha found => ?_, checked.2⟩
  obtain ⟨rest, rfl⟩ := grows
  unfold creditedHashes
  rw [List.filter_append, List.filterMap_append]
  exact List.mem_append_left _ (checked.1 found)

theorem Coherent.planned_of_activation (coherent : env.Coherent manifest archive)
    {activation : TaskActivation Sha} (member : activation ∈ archive.activations) :
    ∃ entry ∈ Archive.plannedTasks archive.plans, env.taskId entry.1 = activation.taskId := by
  obtain ⟨task, plan, planned, -⟩ := coherent.activation_spec (coherent.find_activation member)
  exact ⟨_, coherent.plannedTask?_eq_some_iff.mp planned⟩

theorem Derived.mono {plan : PassPlan Sha} {workset : CandidateWorkset Sha}
    (derived : env.Derived archive plan workset)
    (passResults : archive.passResults ⊆ other.passResults)
    (outputs : archive.outputs ⊆ other.outputs) : env.Derived other plan workset := by
  obtain ⟨sourcePass, passMem, sourceResult, resultMem, sourceOutput, outputMem, built⟩ := derived
  exact ⟨sourcePass, passResults passMem, sourceResult, resultMem, sourceOutput,
    outputs outputMem, built⟩

theorem Derived.write {plan : PassPlan Sha} {workset : CandidateWorkset Sha}
    (derived : env.Derived archive plan workset) (artifact : Artifact Sha Payload) :
    env.Derived (archive.write artifact) plan workset := by
  refine derived.mono ?_ ?_
  · cases artifact with
    | passResult passResult => exact List.subset_append_left _ _
    | plan | activation | event | output | providerAttempt | taskResult => exact List.Subset.refl _
  · cases artifact with
    | output output => exact List.subset_append_left _ _
    | plan | activation | event | providerAttempt | taskResult | passResult =>
        exact List.Subset.refl _

/-- No condition depends on the order of the files. -/
theorem Promising.of_sameFiles (coherent : env.Coherent manifest archive)
    (promising : env.Promising archive) (same : SameFiles archive other) :
    env.Promising other where
  worksets plan member workset given := by
    rw [same.plans] at member
    refine (promising.worksets plan member workset given).mono ?_ same.outputs.symm.subset
    rw [same.passResults]
    exact List.Subset.refl _
  supported activation member := by
    have old := same.activations.subset member
    exact (same.extends coherent).supported (coherent.of_sameFiles same)
      (promising.supported activation old) (coherent.planned_of_activation old)
      (same.events ▸ List.prefix_refl _)
  upstream before event after split activated activation member sameTask := by
    rw [same.events] at split
    have old := same.activations.subset member
    exact (same.extends coherent).supported (coherent.of_sameFiles same)
      (promising.upstream before event after split activated activation old sameTask)
      (coherent.planned_of_activation old) (List.prefix_refl _)
  unambiguous taskId := by
    have perm := same.observations taskId
    have old := promising.unambiguous taskId
    unfold AmbiguousObservations at old ⊢
    rwa [perm.length_eq, (perm.filter _).length_eq, exists_congr fun result =>
      and_congr_left fun _ => perm.mem_iff]
  uncredited taskId present result member := by
    have attempt : other.providerAttempt? taskId = archive.providerAttempt? taskId :=
      (find?_perm same.providerAttempts.symm coherent.distinctAttempts taskId).symm
    rw [attempt] at present
    exact promising.uncredited taskId present result ((same.observations taskId).subset member)

theorem Promising.loadable (promising : env.Promising archive)
    (undisturbed : ∀ taskId, ¬ Disturbed (env.view archive taskId)) : env.Loadable archive :=
  ⟨promising.worksets, promising.upstream, promising.unambiguous, promising.uncredited,
    undisturbed⟩

end Growth

/-! ## One write -/

section Writes

/-- An activated event has a retained activation. -/
theorem Coherent.activation_of_activated (coherent : env.Coherent manifest archive)
    {before after : List (TaskEvent Sha)} {event : TaskEvent Sha}
    (split : archive.events = before ++ event :: after) (activated : event.kind = .activated) :
    ∃ activation ∈ archive.activations, activation.taskId = event.taskId := by
  obtain ⟨task, plan, activation, result, -, activationMem, -, built⟩ :=
    coherent.exactEvents before event after split
  obtain ⟨same, -, -, later⟩ := buildEvent_spec built
  obtain ⟨given, found, exact_⟩ :=
    (later (by simp [activated])).activated (by simp [activated]) (by simp [activated])
  refine ⟨given, activationMem given found, ?_⟩
  rw [(requireExactTask_spec exact_).2.1, same]
  rfl

/-- The observations of a task after a result. -/
theorem observations_write_taskResult (result : TaskResult Sha) (taskId : Sha) :
    (archive.write (.taskResult result)).observations taskId =
      archive.observations taskId ++ if result.taskId = taskId then [result] else [] := by
  rw [Archive.observations, Archive.observations, Archive.write, List.filter_append]
  by_cases same : result.taskId = taskId <;> simp [same]

theorem Promising.write (coherent : env.Coherent manifest archive)
    (promising : env.Promising archive) {artifact : Artifact Sha Payload}
    (step : env.WriteStep manifest cause archive artifact) (meets : env.Meets archive artifact) :
    env.Promising (archive.write artifact) := by
  have extends_ := coherent.extends_write artifact
  have after := coherent.write step
  exact {
    worksets := fun plan member workset given => by
      cases artifact with
      | plan added =>
          rcases List.mem_append.mp member with old | new
          · exact (promising.worksets plan old workset given).write _
          · obtain rfl := List.mem_singleton.mp new
            exact (meets workset given).write _
      | activation | event | output | providerAttempt | taskResult | passResult =>
          exact (promising.worksets plan member workset given).write _
    supported := fun activation member => by
      cases artifact with
      | activation added =>
          rcases List.mem_append.mp member with old | new
          · exact extends_.supported after (promising.supported activation old)
              (coherent.planned_of_activation old) extends_.events
          · obtain rfl := List.mem_singleton.mp new
            exact meets
      | plan | event | output | providerAttempt | taskResult | passResult =>
          exact extends_.supported after (promising.supported activation member)
            (coherent.planned_of_activation member) extends_.events
    upstream := fun before event later split activated activation member same => by
      have kept : ∀ later, archive.events = before ++ event :: later →
          activation ∈ archive.activations → env.Supported (archive.write artifact) before
            activation := fun later split old =>
        extends_.supported after
          (promising.upstream before event later split activated activation old same)
          (coherent.planned_of_activation old) (List.prefix_refl _)
      cases artifact with
      | event added =>
          rcases append_singleton_eq_append_cons split with ⟨rfl, rfl⟩ | ⟨rest, old⟩
          · exact extends_.supported after (promising.supported activation member)
              (coherent.planned_of_activation member) (List.prefix_refl _)
          · exact kept rest old member
      | activation added =>
          -- The activation of an activated event was there before.
          obtain ⟨earlier, earlierMem, earlierTask⟩ :=
            coherent.activation_of_activated split activated
          obtain rfl := eq_of_key_eq after.distinctActivations member
            (List.mem_append_left _ earlierMem) (same.trans earlierTask.symm)
          exact kept later split earlierMem
      | plan | output | providerAttempt | taskResult | passResult => exact kept later split member
    unambiguous := fun taskId => by
      cases artifact with
      | taskResult result =>
          by_cases here : result.taskId = taskId
          · subst here
            rw [observations_write_taskResult, if_pos rfl]
            exact meets.2
          · rw [observations_write_taskResult, if_neg here, List.append_nil]
            exact promising.unambiguous taskId
      | plan | activation | event | output | providerAttempt | passResult =>
          exact promising.unambiguous taskId
    uncredited := fun taskId present result member => by
      cases step with
      | @attempt _ _ _ _ _ _ _ attempt before built =>
          have sameTask := (buildProviderAttempt_spec built).1
          by_cases here : attempt.taskId = taskId
          · have nothing : archive.observations taskId = [] := by
              rw [← here, sameTask]
              exact congrArg TaskView.observations before
            change result ∈ archive.observations taskId at member
            rw [nothing] at member
            cases member
          · have unchanged : (archive.write (.providerAttempt attempt)).providerAttempt? taskId =
                archive.providerAttempt? taskId := by
              refine (find?_append_singleton _ _ _).trans ?_
              rw [if_neg here, Option.or_none]
              rfl
            rw [unchanged] at present
            exact promising.uncredited taskId present result member
      | plan | activation | output | event | passResult =>
          exact promising.uncredited taskId present result member
      | preflightResult | activatedResult | recordedResult | uncertainResult =>
          rw [observations_write_taskResult] at member
          rcases List.mem_append.mp member with old | new
          · exact promising.uncredited taskId present result old
          · split at new
            · rename_i here
              obtain rfl := List.mem_singleton.mp new
              exact meets.1 (here ▸ present)
            · cases new }

/-- An archive that holds its events and results between writes. -/
theorem promising_empty : env.Promising Archive.empty where
  worksets _ impossible := nomatch impossible
  supported _ impossible := nomatch impossible
  upstream before event later split := by simp [Archive.empty] at split
  unambiguous taskId := by simp [Archive.observations, Archive.empty, AmbiguousObservations]
  uncredited taskId present := by simp [Archive.providerAttempt?, Archive.empty] at present

end Writes


end Environment

end Scheduler

end MmAudit
