import MmAudit.Scheduler.Phases
import MmAudit.Scheduler.Guarantees

/-!
# The writes of a journal

Whatever a transition or a recovery writes, it writes under one of a few
circumstances, which say what the archive held about the task before.  An archive
that only such writes made is coherent: its records are distinct, every task is
in one of the phases, every event extends the chain, and the passes follow each
other.
-/

set_option linter.unusedSectionVars false

namespace MmAudit

namespace Scheduler

open Fallible Keyed

/-- What leads to a write: a transition that started with an archive, or a
recovery. -/
inductive Cause (Sha Payload : Type)
  | call (start : Archive Sha Payload)
  | recovery

namespace Environment

variable {Sha Payload : Type} [LinearOrder Sha] [DecidableEq Payload]

/-! ## One write -/

section Writes

variable (env : Environment Sha Payload)

/-- A transition credits the only result of a task, which it has written itself;
recovery credits the uncertain result. -/
def Credits (cause : Cause Sha Payload) (plan : PassPlan Sha) (task : TaskPlan Sha)
    (activation : TaskActivation Sha) (dispatch : TaskEvent Sha)
    (observations : List (TaskResult Sha)) (result : TaskResult Sha) : Prop :=
  match cause with
  | .call start => observations = [result] ∧ result ∉ start.resultObservations
  | .recovery =>
      result ∈ observations ∧ env.buildUncertain plan task activation dispatch = .ok result

/-- What an event of a kind reports about the task it finds. -/
inductive Report (cause : Cause Sha Payload) (plan : PassPlan Sha) (task : TaskPlan Sha) :
    TaskView Sha Payload → EventKind → Option (TaskActivation Sha) → Option (TaskResult Sha) →
      Prop
  | planned :
      Report cause plan task ⟨some (task, plan), [], none, none, none, [], none⟩ .planned none none
  | activated {first : TaskEvent Sha} {activation : TaskActivation Sha} :
      Report cause plan task ⟨some (task, plan), [first], some activation, none, none, [], none⟩
        .activated (some activation) none
  | dispatched {first second : TaskEvent Sha} {activation : TaskActivation Sha} :
      Report cause plan task
        ⟨some (task, plan), [first, second], some activation, none, none, [], none⟩
        .dispatched (some activation) none
  | preflight {first : TaskEvent Sha} {result : TaskResult Sha} :
      Report cause plan task ⟨some (task, plan), [first], none, none, none, [result], none⟩
        .preflightTerminal none (some result)
  | activatedPreflight {first second : TaskEvent Sha} {activation : TaskActivation Sha}
      {result : TaskResult Sha} :
      Report cause plan task
        ⟨some (task, plan), [first, second], some activation, none, none, [result], none⟩
        .activatedPreflightTerminal (some activation) (some result)
  | terminal {first second dispatch : TaskEvent Sha} {activation : TaskActivation Sha}
      {output : Option (TaskOutput Sha Payload)}
      {attempt : Option (ProviderAttemptEvidence Sha)} {observations : List (TaskResult Sha)}
      {result : TaskResult Sha}
      (credits : env.Credits cause plan task activation dispatch observations result) :
      Report cause plan task
        ⟨some (task, plan), [first, second, dispatch], some activation, output, attempt,
          observations, none⟩
        .terminal (some activation) (some result)

/-- The event that continues an archive. -/
def nextEvent (archive : Archive Sha Payload) (plan : PassPlan Sha) (task : TaskPlan Sha)
    (kind : EventKind) (activation : Option (TaskActivation Sha))
    (result : Option (TaskResult Sha)) : Except String (TaskEvent Sha) :=
  env.buildEvent plan task {
    kind := kind
    eventIndex := archive.events.length
    previousEvent := archive.events.getLast?
    priorTaskEvent := (archive.history (env.taskId task)).getLast?
    activation := activation
    requestId := env.eventRequestId kind task
    result := result }

/-- A plan that continues the passes of a campaign. -/
structure SealedPlan (manifest : CampaignManifest Sha) (earlier : List (PassResult Sha))
    (ordinal : ℕ) (plan : PassPlan Sha) : Prop where
  valid : env.validatePassPlan plan = .ok ()
  campaign : plan.manifest = manifest
  order : passOrder[ordinal]? = some plan.passKind
  dependencies : plan.dependencies = earlier.map env.fromResult
  complete : ∀ result ∈ earlier, result.status = .complete
  custody : plan.tasks.forM (requireModelTaskPrivacyCustody manifest) = .ok ()

/-- A pass result that the credited results of the tasks determine. -/
def SealedPass (archive : Archive Sha Payload) (plan : PassPlan Sha) (passResult : PassResult Sha) :
    Prop :=
  ∃ results, (plan.tasks.map fun task => env.credited? archive (env.taskId task)) =
      results.map some ∧
    env.buildPassResult plan results = .ok passResult

/-- The tasks that are planned before a task have events. -/
def InOrder (archive : Archive Sha Payload) (entry : TaskPlan Sha × PassPlan Sha) : Prop :=
  ∃ earlier later, Archive.plannedTasks archive.plans = earlier ++ entry :: later ∧
    ∀ other ∈ earlier, archive.history (env.taskId other.1) ≠ []

/-- One write of a transition or of a recovery. -/
inductive WriteStep (manifest : CampaignManifest Sha) (cause : Cause Sha Payload)
    (archive : Archive Sha Payload) : Artifact Sha Payload → Prop
  | plan {plan : PassPlan Sha}
      (next : env.SealedPlan manifest archive.passResults archive.plans.length plan)
      (finished : archive.passResults.length = archive.plans.length)
      (fresh : ∀ task ∈ plan.tasks, env.plannedTask? archive (env.taskId task) = none) :
      WriteStep manifest cause archive (.plan plan)
  | activation {plan : PassPlan Sha} {task : TaskPlan Sha} {first : TaskEvent Sha}
      {activation : TaskActivation Sha}
      (before : env.view archive (env.taskId task) =
        ⟨some (task, plan), [first], none, none, none, [], none⟩)
      (exact_ : env.requireExactTask activation plan task = .ok ()) :
      WriteStep manifest cause archive (.activation activation)
  | output {plan : PassPlan Sha} {task : TaskPlan Sha} {first second dispatch : TaskEvent Sha}
      {activation : TaskActivation Sha} {arguments : OutputArguments Sha Payload}
      {output : TaskOutput Sha Payload}
      (before : env.view archive (env.taskId task) =
        ⟨some (task, plan), [first, second, dispatch], some activation, none, none, [], none⟩)
      (built : env.buildOutput plan task activation arguments = .ok output) :
      WriteStep manifest cause archive (.output output)
  | attempt {plan : PassPlan Sha} {task : TaskPlan Sha} {first second dispatch : TaskEvent Sha}
      {activation : TaskActivation Sha} {usage : UsageRecord Sha}
      {attempt : ProviderAttemptEvidence Sha}
      (before : env.view archive (env.taskId task) =
        ⟨some (task, plan), [first, second, dispatch], some activation, none, none, [], none⟩)
      (built : env.buildProviderAttempt task activation usage = .ok attempt) :
      WriteStep manifest cause archive (.providerAttempt attempt)
  | preflightResult {plan : PassPlan Sha} {task : TaskPlan Sha} {first : TaskEvent Sha}
      {result : TaskResult Sha}
      (before : env.view archive (env.taskId task) =
        ⟨some (task, plan), [first], none, none, none, [], none⟩)
      (built : env.buildPreflightFailure plan task result.terminalStatus
        result.terminalEvidenceSha256 = .ok result)
      (fresh : env.resultByHash? archive (env.result result) = none) :
      WriteStep manifest cause archive (.taskResult result)
  | activatedResult {plan : PassPlan Sha} {task : TaskPlan Sha} {first second : TaskEvent Sha}
      {activation : TaskActivation Sha} {result : TaskResult Sha}
      (before : env.view archive (env.taskId task) =
        ⟨some (task, plan), [first, second], some activation, none, none, [], none⟩)
      (failure : result.terminalStatus.IsActivatedPreflight)
      (built : env.buildTaskResult plan task activation result.terminalStatus
        result.terminalEvidenceSha256 none = .ok result)
      (fresh : env.resultByHash? archive (env.result result) = none) :
      WriteStep manifest cause archive (.taskResult result)
  | recordedResult {plan : PassPlan Sha} {task : TaskPlan Sha}
      {first second dispatch : TaskEvent Sha} {activation : TaskActivation Sha}
      {output : Option (TaskOutput Sha Payload)}
      {attempt : Option (ProviderAttemptEvidence Sha)} {result : TaskResult Sha}
      (before : env.view archive (env.taskId task) =
        ⟨some (task, plan), [first, second, dispatch], some activation, output, attempt, [], none⟩)
      (recorded : env.Recorded plan task activation output result)
      (fresh : env.resultByHash? archive (env.result result) = none) :
      WriteStep manifest cause archive (.taskResult result)
  | uncertainResult {plan : PassPlan Sha} {task : TaskPlan Sha}
      {first second dispatch : TaskEvent Sha} {activation : TaskActivation Sha}
      {output : Option (TaskOutput Sha Payload)}
      {attempt : Option (ProviderAttemptEvidence Sha)} {observations : List (TaskResult Sha)}
      {result : TaskResult Sha} (recovery : cause = .recovery)
      (before : env.view archive (env.taskId task) =
        ⟨some (task, plan), [first, second, dispatch], some activation, output, attempt,
          observations, none⟩)
      (built : env.buildUncertain plan task activation dispatch = .ok result)
      (absent : result ∉ observations)
      (fresh : env.resultByHash? archive (env.result result) = none) :
      WriteStep manifest cause archive (.taskResult result)
  | event {plan : PassPlan Sha} {task : TaskPlan Sha} {kind : EventKind}
      {activation : Option (TaskActivation Sha)} {result : Option (TaskResult Sha)}
      {event : TaskEvent Sha}
      (report : env.Report cause plan task (env.view archive (env.taskId task)) kind activation
        result)
      (built : env.nextEvent archive plan task kind activation result = .ok event)
      (inOrder : env.InOrder archive (task, plan)) :
      WriteStep manifest cause archive (.event event)
  | passResult {plan : PassPlan Sha} {passResult : PassResult Sha}
      (next : archive.plans[archive.passResults.length]? = some plan)
      (sealed_ : env.SealedPass archive plan passResult) :
      WriteStep manifest cause archive (.passResult passResult)

end Writes

/-! ## Coherent archives -/

section Coherence

variable (env : Environment Sha Payload)

/-- An event that was built in its place from records of the archive. -/
def ExactEvent (archive : Archive Sha Payload) (before : List (TaskEvent Sha))
    (event : TaskEvent Sha) : Prop :=
  ∃ task plan activation result, (task, plan) ∈ Archive.plannedTasks archive.plans ∧
    (∀ given, activation = some given → given ∈ archive.activations) ∧
    (∀ given, result = some given → given ∈ archive.resultObservations) ∧
    env.buildEvent plan task {
      kind := event.kind
      eventIndex := before.length
      previousEvent := before.getLast?
      priorTaskEvent := (before.filter (·.taskId = event.taskId)).getLast?
      activation := activation
      requestId := env.eventRequestId event.kind task
      result := result } = .ok event

/-- An archive that only the writes of the journal made. -/
structure Coherent (manifest : CampaignManifest Sha) (archive : Archive Sha Payload) : Prop where
  distinctTasks :
    ((Archive.plannedTasks archive.plans).map fun entry => env.taskId entry.1).Nodup
  distinctActivations : (archive.activations.map (·.taskId)).Nodup
  distinctOutputs : (archive.outputs.map (·.taskId)).Nodup
  distinctAttempts : (archive.providerAttempts.map (·.taskId)).Nodup
  distinctResults : (archive.resultObservations.map env.result).Nodup
  phases : ∀ taskId, env.Phase (env.view archive taskId)
  exactEvents : ∀ before event after, archive.events = before ++ event :: after →
    env.ExactEvent archive before event
  plannedInOrder : ∀ earlier entry later,
    Archive.plannedTasks archive.plans = earlier ++ entry :: later →
      archive.history (env.taskId entry.1) ≠ [] →
        ∀ other ∈ earlier, archive.history (env.taskId other.1) ≠ []
  resultsFollowPlans : archive.passResults.length ≤ archive.plans.length
  plansFollowResults : archive.plans.length ≤ archive.passResults.length + 1
  plans : ∀ (ordinal : ℕ) (plan : PassPlan Sha), archive.plans[ordinal]? = some plan →
    env.SealedPlan manifest (archive.passResults.take ordinal) ordinal plan
  results : ∀ (ordinal : ℕ) (passResult : PassResult Sha),
    archive.passResults[ordinal]? = some passResult →
    ∃ plan, archive.plans[ordinal]? = some plan ∧ env.SealedPass archive plan passResult

variable {env}

theorem coherent_empty (manifest : CampaignManifest Sha) :
    env.Coherent manifest Archive.empty where
  distinctTasks := List.nodup_nil
  distinctActivations := List.nodup_nil
  distinctOutputs := List.nodup_nil
  distinctAttempts := List.nodup_nil
  distinctResults := List.nodup_nil
  phases _ := .unplanned
  exactEvents before event after split := by simp [Archive.empty] at split
  plannedInOrder earlier entry later split := by
    simp [Archive.empty, Archive.plannedTasks] at split
  resultsFollowPlans := Nat.le_refl 0
  plansFollowResults := Nat.zero_le 1
  plans ordinal plan found := by simp [Archive.empty] at found
  results ordinal passResult found := by simp [Archive.empty] at found

end Coherence

/-! ## What a coherent archive holds -/

section Facts

variable {env : Environment Sha Payload} {manifest : CampaignManifest Sha}
  {archive other : Archive Sha Payload}

theorem ExactEvent.mono {before : List (TaskEvent Sha)} {event : TaskEvent Sha}
    (exact_ : env.ExactEvent archive before event)
    (plans : Archive.plannedTasks archive.plans ⊆ Archive.plannedTasks other.plans)
    (activations : archive.activations ⊆ other.activations)
    (observations : archive.resultObservations ⊆ other.resultObservations) :
    env.ExactEvent other before event := by
  obtain ⟨task, plan, activation, result, member, activationMember, resultMember, built⟩ := exact_
  exact ⟨task, plan, activation, result, plans member,
    fun given same => activations (activationMember given same),
    fun given same => observations (resultMember given same), built⟩

/-- The event that an archive continues with is exact at its end. -/
theorem exactEvent_of_nextEvent {plan : PassPlan Sha} {task : TaskPlan Sha} {kind : EventKind}
    {activation : Option (TaskActivation Sha)} {result : Option (TaskResult Sha)}
    {event : TaskEvent Sha}
    (built : env.nextEvent archive plan task kind activation result = .ok event)
    (member : (task, plan) ∈ Archive.plannedTasks archive.plans)
    (activationMember : ∀ given, activation = some given → given ∈ archive.activations)
    (resultMember : ∀ given, result = some given → given ∈ archive.resultObservations) :
    env.ExactEvent archive archive.events event := by
  refine ⟨task, plan, activation, result, member, activationMember, resultMember, ?_⟩
  unfold nextEvent at built
  obtain ⟨same, -⟩ := buildEvent_spec built
  have sameKind : event.kind = kind := by rw [same]; rfl
  have sameTask : event.taskId = env.taskId task := by rw [same]; rfl
  rw [sameKind, sameTask]
  exact built

theorem Coherent.plannedTask?_eq_some_iff (coherent : env.Coherent manifest archive)
    {taskId : Sha} {entry : TaskPlan Sha × PassPlan Sha} :
    env.plannedTask? archive taskId = some entry ↔
      entry ∈ Archive.plannedTasks archive.plans ∧ env.taskId entry.1 = taskId :=
  find?_eq_some_iff coherent.distinctTasks

theorem Coherent.resultByHash?_eq (coherent : env.Coherent manifest archive)
    {result : TaskResult Sha} (member : result ∈ archive.resultObservations) :
    env.resultByHash? archive (env.result result) = some result :=
  (find?_eq_some_iff coherent.distinctResults).mpr ⟨member, rfl⟩

/-- A terminal event refers to a retained result of its task. -/
theorem Coherent.terminal_result (coherent : env.Coherent manifest archive)
    {event : TaskEvent Sha} (member : event ∈ archive.events) (terminal : event.kind.IsTerminal) :
    ∃ result ∈ archive.resultObservations, result.taskId = event.taskId ∧
      event.taskResultSha256 = some (env.result result) := by
  obtain ⟨before, after, split⟩ := List.append_of_mem member
  obtain ⟨task, plan, activation, result, -, -, resultMember, built⟩ :=
    coherent.exactEvents before event after split
  obtain ⟨same, -, -, later⟩ := buildEvent_spec built
  have notPlanned : event.kind ≠ .planned := by
    intro planned
    rw [planned] at terminal
    simp [EventKind.IsTerminal] at terminal
  have checks := later notPlanned
  obtain ⟨given, found⟩ := Option.isSome_iff_exists.mp ((checks.result notPlanned).mpr terminal)
  refine ⟨given, resultMember given found, ?_, ?_⟩
  · rw [checks.2.2 given found, same]
    rfl
  · change result = some given at found
    rw [same, found]
    rfl

theorem Coherent.referred (coherent : env.Coherent manifest archive) : env.Referred archive := by
  intro event member terminal
  obtain ⟨result, resultMember, -, reference⟩ := coherent.terminal_result member terminal
  refine ⟨result, ?_⟩
  rw [reference, Option.bind_some, coherent.resultByHash?_eq resultMember]

/-- A credit stays when an event is written. -/
theorem credited?_write_event_of_some {taskId : Sha} {result : TaskResult Sha}
    (credited : env.credited? archive taskId = some result) (event : TaskEvent Sha) :
    env.credited? (archive.write (.event event)) taskId = some result := by
  rw [credited?] at credited
  rw [credited?_write_event]
  cases found : (archive.history taskId).find? (·.kind.IsTerminal) with
  | none =>
      rw [found] at credited
      cases credited
  | some selected =>
      rw [found] at credited
      exact credited

/-- A credit stays whatever is written. -/
theorem Coherent.credited?_write (coherent : env.Coherent manifest archive) {taskId : Sha}
    {result : TaskResult Sha} (credited : env.credited? archive taskId = some result)
    (artifact : Artifact Sha Payload) :
    env.credited? (archive.write artifact) taskId = some result := by
  cases artifact with
  | event event => exact credited?_write_event_of_some credited event
  | taskResult written => rw [credited?_write_result coherent.referred, credited]
  | plan | activation | output | providerAttempt | passResult => exact credited

/-- Nothing that is written removes an event. -/
theorem history_write_ne_nil {taskId : Sha} (begun : archive.history taskId ≠ [])
    (artifact : Artifact Sha Payload) : (archive.write artifact).history taskId ≠ [] := by
  cases artifact with
  | event event =>
      rw [Archive.history, Archive.write, List.filter_append]
      exact List.append_ne_nil_of_left_ne_nil begun _
  | plan | activation | output | providerAttempt | taskResult | passResult => exact begun

/-- A sealed pass stays sealed whatever is written. -/
theorem Coherent.sealedPass_write (coherent : env.Coherent manifest archive) {plan : PassPlan Sha}
    {passResult : PassResult Sha} (sealed_ : env.SealedPass archive plan passResult)
    (artifact : Artifact Sha Payload) :
    env.SealedPass (archive.write artifact) plan passResult := by
  obtain ⟨results, credited, built⟩ := sealed_
  refine ⟨results, ?_, built⟩
  rw [← credited]
  apply List.map_congr_left
  intro task member
  obtain ⟨result, -, same⟩ := List.mem_map.mp (credited ▸ List.mem_map_of_mem member)
  rw [← same, coherent.credited?_write same.symm]

/-- A task with a credited result has events. -/
theorem history_ne_nil_of_credited? {taskId : Sha} {result : TaskResult Sha}
    (credited : env.credited? archive taskId = some result) : archive.history taskId ≠ [] := by
  intro empty
  rw [credited?, empty] at credited
  cases credited

end Facts

end Environment

end Scheduler

end MmAudit
