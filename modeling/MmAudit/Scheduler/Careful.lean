import MmAudit.Scheduler.Promises

/-!
# Transitions that are called with care

The loader checks a few things about the arguments of a transition that the
transition itself does not check.  A transition whose arguments meet these
conditions writes only files that keep the conditions of the loader, whatever
part of them becomes durable.
-/

set_option linter.unusedSectionVars false

namespace MmAudit

namespace Scheduler

open Fallible Keyed Logged

namespace Environment

variable {Sha Payload : Type} [LinearOrder Sha] [DecidableEq Payload]

section Conditions

variable (env : Environment Sha Payload)

/-- The conditions of the loader on the arguments of a transition: a pass is
planned with a workset that retained evidence determines, an activation names
credited results, and for an empty completion exactly the source of its workset,
and a task with a provider attempt does not end explicitly empty. -/
def Careful (files : Archive Sha Payload) : Operation Sha Payload → Prop
  | .sealPassPlan plan => ∀ workset, plan.candidateWorkset = some workset →
      env.Derived files plan workset
  | .activateTask taskId material =>
      sortedSet material.upstreamTaskResultSha256s ⊆ creditedHashes files.events ∧
        ∀ task plan, env.plannedTask? files taskId = some (task, plan) →
          task.taskKind = .emptyCompletion →
            some (sortedSet material.upstreamTaskResultSha256s) =
              plan.candidateWorkset.map fun workset => [workset.sourceResultSha256]
  | .recordTerminal result => result.terminalStatus = .explicitEmpty →
      files.providerAttempt? result.taskId = none
  | _ => True

/-- A file that a transition writes first. -/
def Authored : Operation Sha Payload → Artifact Sha Payload → Prop
  | operation, .plan plan => operation = .sealPassPlan plan
  | operation, .activation activation => ∃ material,
      operation = .activateTask activation.taskId material ∧
        activation.upstreamTaskResultSha256s = sortedSet material.upstreamTaskResultSha256s
  | operation, .taskResult result =>
      operation = .recordTerminal result ∨ result.terminalStatus.IsActivatedPreflight
  | _, _ => True

/-- An event file. -/
def IsEvent (artifact : Artifact Sha Payload) : Prop :=
  ∃ event : TaskEvent Sha, artifact = .event event

end Conditions

variable {env : Environment Sha Payload} {manifest : CampaignManifest Sha}
  {archive files : Archive Sha Payload} {journal next : Journal Sha Payload}
  {operation : Operation Sha Payload} {artifact : Artifact Sha Payload}
  {log : List (Artifact Sha Payload)}

/-! ## What a transition writes -/

section Authors

theorem isEvent_of_mem_appendEvent {plan : PassPlan Sha} {task : TaskPlan Sha} {kind : EventKind}
    {requestId : Option Sha} {activation : Option (TaskActivation Sha)}
    {result : Option (TaskResult Sha)}
    (member : artifact ∈
      (env.appendEvent journal plan task kind requestId activation result).log) :
    IsEvent artifact := by
  unfold appendEvent at member
  rcases mem_log_bind member with impossible | ⟨event, -, member⟩
  · cases impossible
  rcases mem_log_bind member with written | ⟨_, -, member⟩
  · exact ⟨event, eq_of_mem_writeModel written⟩
  rcases mem_log_bind member with impossible | ⟨_, -, member⟩
  · cases impossible
  rcases mem_log_bind member with impossible | ⟨_, -, impossible⟩
  · cases impossible
  · cases impossible

/-- A transition writes one file of its own and then events. -/
def WritesOneFile (operation : Operation Sha Payload) (log : List (Artifact Sha Payload)) : Prop :=
  ∃ first rest, log = first :: rest ∧ Authored operation first ∧
    ∀ artifact ∈ rest, IsEvent artifact

theorem writesOneFile_of_appendEvent (artifact : Artifact Sha Payload) {plan : PassPlan Sha} {task : TaskPlan Sha}
    {kind : EventKind} {requestId : Option Sha} {activation : Option (TaskActivation Sha)}
    {result : Option (TaskResult Sha)} {rest : List (Artifact Sha Payload)}
    (authored : Authored operation artifact)
    (finish : (env.appendEvent journal plan task kind requestId activation result).Returns rest
      next) : WritesOneFile operation (artifact :: rest) := by
  obtain ⟨rfl, -⟩ := finish
  exact ⟨artifact, _, rfl, authored, fun other member => isEvent_of_mem_appendEvent member⟩

/-- An accepted transition writes one file of its own and then events. -/
theorem Tracks.writesOneFile (tracks : env.Tracks manifest archive journal)
    (accepted : (env.perform journal operation).Returns log next) :
    WritesOneFile operation log := by
  cases operation with
  | sealPassPlan plan =>
      unfold Environment.perform Environment.sealPassPlan at accepted
      simp only [returns_lift_bind_iff, returns_writeModel_bind_iff] at accepted
      obtain ⟨_, -, _, -, _, -, _, -, _, -, _, -, _, -, -, rest, ⟨middle, -, loop⟩, rfl⟩ := accepted
      obtain ⟨events, last, second, ⟨rfl, -⟩, finish, rfl⟩ := returns_bind_iff.mp loop
      simp only [returns_lift_bind_iff, returns_pure_iff] at finish
      obtain ⟨_, -, rfl, -⟩ := finish
      refine ⟨.plan plan, _, rfl, rfl, fun artifact member => ?_⟩
      rw [List.append_nil] at member
      exact forall_mem_log_foldlM IsEvent plan.tasks
        (fun _ _ _ written => isEvent_of_mem_appendEvent written) middle artifact member
  | activateTask taskId material =>
      unfold Environment.perform Environment.activateTask at accepted
      simp only [returns_lift_bind_iff, returns_writeModel_bind_iff] at accepted
      obtain ⟨entry, found, _, -, _, -, _, -, activation, built, -, rest, ⟨middle, -, finish⟩,
        rfl⟩ := accepted
      obtain ⟨exact_, upstream⟩ := buildActivation_spec built
      have sameTask : activation.taskId = taskId := by
        rw [(requireExactTask_spec exact_).2.1, (tracks.planned_of_taskAndPlan found).2]
      exact writesOneFile_of_appendEvent (.activation activation) ⟨material, by rw [sameTask], upstream⟩ finish
  | markDispatched taskId =>
      unfold Environment.perform Environment.markDispatched at accepted
      simp only [returns_lift_bind_iff] at accepted
      obtain ⟨entry, -, _, -, activation, -, _, -, finish⟩ := accepted
      unfold Environment.appendEvent at finish
      simp only [returns_lift_bind_iff, returns_writeModel_bind_iff, returns_pure_iff] at finish
      obtain ⟨event, -, -, rest, ⟨_, -, _, -, rfl, -⟩, rfl⟩ := finish
      exact ⟨.event event, [], rfl, trivial, fun _ impossible => by cases impossible⟩
  | persistOutput taskId arguments =>
      unfold Environment.perform Environment.persistOutput at accepted
      simp only [returns_lift_bind_iff, returns_writeModel_bind_iff, returns_pure_iff] at accepted
      obtain ⟨_, -, _, -, _, -, _, -, _, -, output, -, -, rest, ⟨_, -, _, -, rfl, -⟩, rfl⟩ := accepted
      exact ⟨.output output, [], rfl, trivial, fun _ impossible => by cases impossible⟩
  | persistProviderAttempt taskId usage =>
      unfold Environment.perform Environment.persistProviderAttempt at accepted
      simp only [returns_lift_bind_iff, returns_writeModel_bind_iff, returns_pure_iff] at accepted
      obtain ⟨_, -, _, -, _, -, _, -, attempt, -, -, rest, ⟨_, -, _, -, rfl, -⟩, rfl⟩ := accepted
      exact ⟨.providerAttempt attempt, [], rfl, trivial, fun _ impossible => by cases impossible⟩
  | recordTerminal result =>
      unfold Environment.perform Environment.recordTerminal at accepted
      simp only [returns_lift_bind_iff, returns_writeModel_bind_iff] at accepted
      obtain ⟨_, -, _, -, _, -, _, -, _, -, _, -, _, -, _, -, -, rest, ⟨_, -, finish⟩, rfl⟩ := accepted
      exact writesOneFile_of_appendEvent (.taskResult result) (.inl rfl) finish
  | recordPreflightFailure result =>
      unfold Environment.perform Environment.recordPreflightFailure at accepted
      simp only [returns_lift_bind_iff, returns_writeModel_bind_iff] at accepted
      obtain ⟨_, -, _, -, expected, built, _, -, _, -, _, -, -, rest, ⟨_, -, finish⟩, rfl⟩ := accepted
      have failure := isActivatedPreflight_of_isPreflight (buildPreflightFailure_spec built).2.2
      exact writesOneFile_of_appendEvent (.taskResult result) (.inr failure) finish
  | recordActivatedPreflightFailure result =>
      unfold Environment.perform Environment.recordActivatedPreflightFailure at accepted
      simp only [returns_lift_bind_iff, returns_writeModel_bind_iff] at accepted
      obtain ⟨_, -, _, -, _, guard, _, -, _, -, _, -, _, -, -, rest, ⟨_, -, finish⟩, rfl⟩ := accepted
      have failure := raiseIf_eq_ok_iff.mp guard
      push Not at failure
      exact writesOneFile_of_appendEvent (.taskResult result) (.inr failure.2) finish
  | sealPassResult kind =>
      unfold Environment.perform Environment.sealPassResult at accepted
      simp only [returns_lift_bind_iff, returns_writeModel_bind_iff, returns_pure_iff] at accepted
      obtain ⟨_, -, _, -, passResult, -, -, rest, ⟨_, -, _, -, rfl, -⟩, rfl⟩ := accepted
      exact ⟨.passResult passResult, [], rfl, trivial, fun _ impossible => by cases impossible⟩

end Authors

/-! ## Prefixes of its writes -/

section Prefixes

/-- No task has a retained output beside an uncredited failure. -/
def Calm (env : Environment Sha Payload) (archive : Archive Sha Payload) : Prop :=
  ∀ taskId, ¬ Disturbed (env.view archive taskId)

/-- Between transitions every result is credited. -/
theorem Live.calm (live : env.Live manifest archive journal) : env.Calm archive := by
  rintro taskId ⟨-, uncredited, result, member, -⟩
  have credited := (live.resting taskId).credited (List.ne_nil_of_mem member)
  rw [uncredited] at credited
  cases credited

/-- A result disturbs its task only as a failure beside a retained output. -/
theorem Calm.write_taskResult (coherent : env.Coherent manifest archive)
    (calm : env.Calm archive) {result : TaskResult Sha}
    (safe : (archive.output? result.taskId).isSome → result.terminalStatus = .succeeded) :
    env.Calm (archive.write (.taskResult result)) := by
  intro taskId
  rw [view_write_taskResult taskId coherent.referred]
  rintro ⟨output, uncredited, other, member, unsuccessful⟩
  rcases List.mem_append.mp member with old | new
  · exact calm taskId ⟨output, uncredited, other, old, unsuccessful⟩
  · split at new
    · rename_i here
      obtain rfl := List.mem_singleton.mp new
      exact unsuccessful (safe (here ▸ output))
    · cases new

/-- An event disturbs no task. -/
theorem disturbed_of_write_event (coherent : env.Coherent manifest archive)
    {cause : Cause Sha Payload} {plan : PassPlan Sha} {task : TaskPlan Sha} {kind : EventKind}
    {activation : Option (TaskActivation Sha)} {result : Option (TaskResult Sha)}
    {event : TaskEvent Sha} {taskId : Sha}
    (report : env.Report cause plan task (env.view archive (env.taskId task)) kind activation
      result)
    (built : env.nextEvent archive plan task kind activation result = .ok event)
    (disturbed : Disturbed (env.view (archive.write (.event event)) taskId)) :
    Disturbed (env.view archive taskId) ∧ (env.taskId task = taskId → result = none) := by
  rw [coherent.view_write_event report built] at disturbed
  by_cases here : env.taskId task = taskId
  · rw [if_pos here] at disturbed
    obtain ⟨output, uncredited, failure⟩ := disturbed
    exact ⟨⟨output, here ▸ report.credited_eq, failure⟩, fun _ => uncredited⟩
  · rw [if_neg here] at disturbed
    exact ⟨disturbed, fun same => absurd same here⟩

/-- No write of a transition disturbs a task. -/
theorem Calm.write {start : Archive Sha Payload} (coherent : env.Coherent manifest archive)
    (calm : env.Calm archive) (step : env.WriteStep manifest (.call start) archive artifact) :
    env.Calm (archive.write artifact) := by
  have without : ∀ {result : TaskResult Sha} {taskId : Sha}, result.taskId = taskId →
      (env.view archive taskId).output = none →
        (archive.output? result.taskId).isSome → result.terminalStatus = .succeeded := by
    rintro result _ rfl nothing present
    change archive.output? result.taskId = none at nothing
    rw [nothing] at present
    cases present
  cases step with
  | plan =>
      intro taskId
      rw [view_write_plan]
      exact calm taskId
  | activation =>
      intro taskId
      rw [view_write_activation]
      exact calm taskId
  | @output plan task first second dispatch activation arguments output before built =>
      intro taskId
      rw [view_write_output]
      by_cases here : output.taskId = taskId
      · have nothing : archive.observations taskId = [] := by
          rw [← here, (buildOutput_spec built).2.1]
          exact congrArg TaskView.observations before
        rintro ⟨-, -, result, member, -⟩
        change result ∈ archive.observations taskId at member
        rw [nothing] at member
        cases member
      · rw [if_neg here, Option.or_none]
        exact calm taskId
  | attempt =>
      intro taskId
      rw [view_write_providerAttempt]
      exact calm taskId
  | preflightResult before built =>
      exact calm.write_taskResult coherent
        (without (buildPreflightFailure_spec built).1.taskId (congrArg TaskView.output before))
  | activatedResult before failure built =>
      exact calm.write_taskResult coherent
        (without (buildTaskResult_spec built).1.taskId (congrArg TaskView.output before))
  | @recordedResult plan task first second dispatch activation output attempt result before
      recorded =>
      have sameTask := (buildTaskResult_spec recorded.built).1.taskId
      have outputs : archive.output? result.taskId = output := by
        rw [sameTask]
        exact congrArg TaskView.output before
      exact calm.write_taskResult coherent fun present => recorded.success (outputs ▸ present)
  | uncertainResult impossible => cases impossible
  | event report built =>
      intro taskId disturbed
      exact calm taskId (disturbed_of_write_event coherent report built disturbed).1
  | passResult => exact calm

/-! ## What care promises -/

/-- The first write of a careful transition meets the conditions of the loader. -/
theorem meets_of_careful {start : Archive Sha Payload} (coherent : env.Coherent manifest files)
    (careful : env.Careful files operation) (authored : Authored operation artifact)
    (step : env.WriteStep manifest (.call start) files artifact) : env.Meets files artifact := by
  -- A transition writes the first result of its task.
  have firstResult : ∀ {result : TaskResult Sha} {taskId : Sha}, result.taskId = taskId →
      Authored operation (.taskResult result) → (env.view files taskId).observations = [] →
        env.Meets files (.taskResult result) := by
    rintro result _ rfl author nothing
    refine ⟨fun present empty => ?_, ?_⟩
    · rcases author with rfl | failure
      · rw [careful empty] at present
        cases present
      · rw [empty] at failure
        simp [TerminalStatus.IsActivatedPreflight] at failure
    · change files.observations result.taskId = [] at nothing
      simp [nothing, AmbiguousObservations]
  cases step with
  | plan next =>
      cases authored
      exact careful
  | @activation plan task first activation before exact_ =>
      obtain ⟨material, rfl, upstream⟩ := authored
      obtain ⟨credited, exactly⟩ := careful
      intro other otherPlan member same
      refine checkUpstream_eq_ok_iff.mpr ⟨upstream ▸ credited, fun empty => ?_⟩
      rw [upstream]
      exact exactly other otherPlan (coherent.plannedTask?_eq_some_iff.mpr ⟨member, same⟩) empty
  | output | attempt | event | passResult => trivial
  | preflightResult before built =>
      exact firstResult (buildPreflightFailure_spec built).1.taskId authored
        (congrArg TaskView.observations before)
  | activatedResult before failure built =>
      exact firstResult (buildTaskResult_spec built).1.taskId authored
        (congrArg TaskView.observations before)
  | recordedResult before recorded =>
      exact firstResult (buildTaskResult_spec recorded.built).1.taskId authored
        (congrArg TaskView.observations before)
  | uncertainResult impossible => cases impossible

/-- What the loader accepts: coherent files with its further conditions. -/
structure Durable (env : Environment Sha Payload) (manifest : CampaignManifest Sha)
    (files : Archive Sha Payload) : Prop where
  coherent : env.Coherent manifest files
  promising : env.Promising files
  calm : env.Calm files

/-- Whatever prefix of the writes of a careful transition is durable, the loader
accepts it. -/
theorem Durable.perform (live : env.Live manifest files journal)
    (promising : env.Promising files) (careful : env.Careful files operation)
    (accepted : (env.perform journal operation).Returns log next)
    {written : List (Artifact Sha Payload)} (cut : written <+: log) :
    env.Durable manifest (writeAll files written) := by
  obtain ⟨follows, -⟩ := live.perform accepted
  obtain ⟨first, rest, rfl, authored, events⟩ := live.toTracks.writesOneFile accepted
  have meets : Follows Archive.write
      (fun archive artifact => env.WriteStep manifest (.call files) archive artifact ∧
        env.Meets archive artifact) files (first :: rest) := by
    refine ⟨⟨follows.1, meets_of_careful live.coherent careful authored follows.1⟩,
      follows.2.and_of_forall fun artifact member archive => ?_⟩
    obtain ⟨event, rfl⟩ := events artifact member
    trivial
  refine (meets.initial cut).invariant (env.Durable manifest)
    ⟨live.coherent, promising, live.calm⟩ ?_
  rintro archive artifact durable ⟨step, met⟩
  exact ⟨durable.coherent.write step, durable.promising.write durable.coherent step met,
    durable.calm.write durable.coherent step⟩

theorem Durable.of_sameFiles {other : Archive Sha Payload} (durable : env.Durable manifest files)
    (same : SameFiles files other) : env.Durable manifest other where
  coherent := durable.coherent.of_sameFiles same
  promising := durable.promising.of_sameFiles durable.coherent same
  calm taskId := by
    rw [same.view durable.coherent]
    rintro ⟨output, uncredited, result, member, unsuccessful⟩
    exact durable.calm taskId ⟨output, uncredited, result,
      (same.observations taskId).subset member, unsuccessful⟩

/-- The loader accepts durable files, in whatever order they are listed. -/
theorem Durable.loads (durable : env.Durable manifest files) (free : env.CollisionFree)
    (once : env.NormalizesOnce) : ∃ archive, env.loadState manifest files = .ok archive := by
  have listed := durable.of_sameFiles (sameFiles_canonical env files)
  refine ⟨env.canonical files, ?_⟩
  unfold loadState
  rw [check_bind_eq_ok_iff]
  exact ⟨listed.coherent.validateLoadedState_ok free once (listed.promising.loadable listed.calm),
    rfl⟩

end Prefixes

end Environment

end Scheduler

end MmAudit
