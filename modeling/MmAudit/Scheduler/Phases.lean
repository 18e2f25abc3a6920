import MmAudit.Scheduler.Indexing

/-!
# The phases of a task

Everything that an archive holds about one task is its view.  A task passes
through a few phases, between which exactly one file is written: its plan, its
activation, its output or a provider attempt, its results and its events.  A
phase fixes which of these files exist; the phases between a record and the event
that reports it are the ones an interruption can leave behind.
-/

set_option linter.unusedSectionVars false

namespace MmAudit

namespace Scheduler

open Fallible Keyed

/-- What an archive holds about one task. -/
structure TaskView (Sha Payload : Type) where
  planned : Option (TaskPlan Sha × PassPlan Sha)
  history : List (TaskEvent Sha)
  activation : Option (TaskActivation Sha)
  output : Option (TaskOutput Sha Payload)
  attempt : Option (ProviderAttemptEvidence Sha)
  observations : List (TaskResult Sha)
  credited : Option (TaskResult Sha)

namespace Environment

variable {Sha Payload : Type} [LinearOrder Sha] [DecidableEq Payload]

def view (env : Environment Sha Payload) (archive : Archive Sha Payload) (taskId : Sha) :
    TaskView Sha Payload where
  planned := env.plannedTask? archive taskId
  history := archive.history taskId
  activation := archive.activation? taskId
  output := archive.output? taskId
  attempt := archive.providerAttempt? taskId
  observations := archive.observations taskId
  credited := env.credited? archive taskId

variable {env : Environment Sha Payload} {archive : Archive Sha Payload}

/-! ## Writes and views -/

section Views

variable (taskId : Sha)

/-- Every terminal event refers to a retained result. -/
def Referred (env : Environment Sha Payload) (archive : Archive Sha Payload) : Prop :=
  ∀ event ∈ archive.events, event.kind.IsTerminal →
    ∃ result, event.taskResultSha256.bind (env.resultByHash? archive) = some result

theorem view_write_plan (plan : PassPlan Sha) :
    env.view (archive.write (.plan plan)) taskId =
      { env.view archive taskId with
        planned := (env.plannedTask? archive taskId).or
          ((plan.tasks.map fun task => (task, plan)).find? fun entry =>
            env.taskId entry.1 = taskId) } := by
  have planned : env.plannedTask? (archive.write (.plan plan)) taskId =
      (env.plannedTask? archive taskId).or
        ((plan.tasks.map fun task => (task, plan)).find? fun entry =>
          env.taskId entry.1 = taskId) := by
    rw [plannedTask?, plannedTask?, Archive.write, plannedTasks_append_singleton,
      List.find?_append]
  rw [view, planned]
  rfl

theorem view_write_activation (activation : TaskActivation Sha) :
    env.view (archive.write (.activation activation)) taskId =
      { env.view archive taskId with
        activation := (archive.activation? taskId).or
          (if activation.taskId = taskId then some activation else none) } := by
  have lookup : (archive.write (.activation activation)).activation? taskId =
      (archive.activation? taskId).or
        (if activation.taskId = taskId then some activation else none) :=
    find?_append_singleton _ _ _
  rw [view, lookup]
  rfl

theorem view_write_output (output : TaskOutput Sha Payload) :
    env.view (archive.write (.output output)) taskId =
      { env.view archive taskId with
        output := (archive.output? taskId).or
          (if output.taskId = taskId then some output else none) } := by
  have lookup : (archive.write (.output output)).output? taskId =
      (archive.output? taskId).or (if output.taskId = taskId then some output else none) :=
    find?_append_singleton _ _ _
  rw [view, lookup]
  rfl

theorem view_write_providerAttempt (attempt : ProviderAttemptEvidence Sha) :
    env.view (archive.write (.providerAttempt attempt)) taskId =
      { env.view archive taskId with
        attempt := (archive.providerAttempt? taskId).or
          (if attempt.taskId = taskId then some attempt else none) } := by
  have lookup : (archive.write (.providerAttempt attempt)).providerAttempt? taskId =
      (archive.providerAttempt? taskId).or
        (if attempt.taskId = taskId then some attempt else none) :=
    find?_append_singleton _ _ _
  rw [view, lookup]
  rfl

theorem view_write_taskResult (referred : env.Referred archive) (result : TaskResult Sha) :
    env.view (archive.write (.taskResult result)) taskId =
      { env.view archive taskId with
        observations := archive.observations taskId ++
          if result.taskId = taskId then [result] else [] } := by
  have observations : (archive.write (.taskResult result)).observations taskId =
      archive.observations taskId ++ if result.taskId = taskId then [result] else [] := by
    rw [Archive.observations, Archive.observations, Archive.write, List.filter_append]
    by_cases same : result.taskId = taskId <;> simp [same]
  rw [view, observations, credited?_write_result referred]
  rfl

theorem view_write_passResult (result : PassResult Sha) :
    env.view (archive.write (.passResult result)) taskId = env.view archive taskId :=
  rfl

/-- An event that credits nothing, or credits a task without a terminal event. -/
theorem view_write_event (event : TaskEvent Sha)
    (open_ : event.kind.IsTerminal →
      (archive.history event.taskId).find? (·.kind.IsTerminal) = none) :
    env.view (archive.write (.event event)) taskId =
      if event.taskId = taskId then
        { env.view archive taskId with
          history := archive.history taskId ++ [event]
          credited :=
            if event.kind.IsTerminal then
              event.taskResultSha256.bind (env.resultByHash? archive)
            else env.credited? archive taskId }
      else env.view archive taskId := by
  have history : (archive.write (.event event)).history taskId =
      archive.history taskId ++ if event.taskId = taskId then [event] else [] := by
    rw [Archive.history, Archive.history, Archive.write, List.filter_append]
    by_cases same : event.taskId = taskId <;> simp [same]
  rw [view, history, credited?_write_event]
  by_cases same : event.taskId = taskId
  · subst same
    by_cases terminal : event.kind.IsTerminal
    · simp only [terminal, open_ terminal, and_self, if_true, Option.none_or, Option.bind_some]
      rfl
    · simp only [terminal, and_false, if_false, Option.or_none, if_true]
      rfl
  · simp only [same, false_and, if_false, Option.or_none, List.append_nil]
    rfl

end Views

/-! ## Phases -/

section Phases

variable (env)

/-- Retained evidence of a dispatched task: at most one of an output and a
provider attempt. -/
inductive Retains (plan : PassPlan Sha) (task : TaskPlan Sha) (activation : TaskActivation Sha) :
    Option (TaskOutput Sha Payload) → Option (ProviderAttemptEvidence Sha) → Prop
  | nothing : Retains plan task activation none none
  | output {output : TaskOutput Sha Payload} {arguments : OutputArguments Sha Payload}
      (built : env.buildOutput plan task activation arguments = .ok output) :
      Retains plan task activation (some output) none
  | attempt {attempt : ProviderAttemptEvidence Sha} {usage : UsageRecord Sha}
      (built : env.buildProviderAttempt task activation usage = .ok attempt) :
      Retains plan task activation none (some attempt)

/-- A result that a transition recorded for a dispatched task. -/
structure Recorded (plan : PassPlan Sha) (task : TaskPlan Sha) (activation : TaskActivation Sha)
    (output : Option (TaskOutput Sha Payload)) (result : TaskResult Sha) : Prop where
  built : env.buildTaskResult plan task activation result.terminalStatus
    result.terminalEvidenceSha256
    (if result.terminalStatus = .succeeded then output else none) = .ok result
  success : output.isSome → result.terminalStatus = .succeeded

/-- The results of a dispatched task: one that a transition recorded, and one
that recovery added. -/
structure Observed (plan : PassPlan Sha) (task : TaskPlan Sha) (activation : TaskActivation Sha)
    (dispatch : TaskEvent Sha) (output : Option (TaskOutput Sha Payload))
    (observations : List (TaskResult Sha)) (recorded recovered : Option (TaskResult Sha)) :
    Prop where
  perm : observations.Perm (recorded.toList ++ recovered.toList)
  recorded : ∀ result, recorded = some result → env.Recorded plan task activation output result
  recovered : ∀ result, recovered = some result →
    env.buildUncertain plan task activation dispatch = .ok result

/-- The phases of a task. -/
inductive Phase : TaskView Sha Payload → Prop
  | unplanned : Phase ⟨none, [], none, none, none, [], none⟩
  | waiting {task : TaskPlan Sha} {plan : PassPlan Sha} :
      Phase ⟨some (task, plan), [], none, none, none, [], none⟩
  | planned {task : TaskPlan Sha} {plan : PassPlan Sha} {first : TaskEvent Sha}
      (firstKind : first.kind = .planned) :
      Phase ⟨some (task, plan), [first], none, none, none, [], none⟩
  | preflightFailing {task : TaskPlan Sha} {plan : PassPlan Sha} {first : TaskEvent Sha}
      {result : TaskResult Sha} (firstKind : first.kind = .planned)
      (built : env.buildPreflightFailure plan task result.terminalStatus
        result.terminalEvidenceSha256 = .ok result) :
      Phase ⟨some (task, plan), [first], none, none, none, [result], none⟩
  | preflightFailed {task : TaskPlan Sha} {plan : PassPlan Sha} {first last : TaskEvent Sha}
      {result : TaskResult Sha} (firstKind : first.kind = .planned)
      (lastKind : last.kind = .preflightTerminal)
      (built : env.buildPreflightFailure plan task result.terminalStatus
        result.terminalEvidenceSha256 = .ok result) :
      Phase ⟨some (task, plan), [first, last], none, none, none, [result], some result⟩
  | activating {task : TaskPlan Sha} {plan : PassPlan Sha} {first : TaskEvent Sha}
      {activation : TaskActivation Sha} (firstKind : first.kind = .planned)
      (exact_ : env.requireExactTask activation plan task = .ok ()) :
      Phase ⟨some (task, plan), [first], some activation, none, none, [], none⟩
  | activated {task : TaskPlan Sha} {plan : PassPlan Sha} {first second : TaskEvent Sha}
      {activation : TaskActivation Sha} (firstKind : first.kind = .planned)
      (secondKind : second.kind = .activated)
      (exact_ : env.requireExactTask activation plan task = .ok ()) :
      Phase ⟨some (task, plan), [first, second], some activation, none, none, [], none⟩
  | activatedFailing {task : TaskPlan Sha} {plan : PassPlan Sha} {first second : TaskEvent Sha}
      {activation : TaskActivation Sha} {result : TaskResult Sha}
      (firstKind : first.kind = .planned) (secondKind : second.kind = .activated)
      (exact_ : env.requireExactTask activation plan task = .ok ())
      (failure : result.terminalStatus.IsActivatedPreflight)
      (built : env.buildTaskResult plan task activation result.terminalStatus
        result.terminalEvidenceSha256 none = .ok result) :
      Phase ⟨some (task, plan), [first, second], some activation, none, none, [result], none⟩
  | activatedFailed {task : TaskPlan Sha} {plan : PassPlan Sha}
      {first second last : TaskEvent Sha} {activation : TaskActivation Sha}
      {result : TaskResult Sha} (firstKind : first.kind = .planned)
      (secondKind : second.kind = .activated)
      (lastKind : last.kind = .activatedPreflightTerminal)
      (exact_ : env.requireExactTask activation plan task = .ok ())
      (failure : result.terminalStatus.IsActivatedPreflight)
      (built : env.buildTaskResult plan task activation result.terminalStatus
        result.terminalEvidenceSha256 none = .ok result) :
      Phase ⟨some (task, plan), [first, second, last], some activation, none, none, [result],
        some result⟩
  | dispatched {task : TaskPlan Sha} {plan : PassPlan Sha} {first second dispatch : TaskEvent Sha}
      {activation : TaskActivation Sha} {output : Option (TaskOutput Sha Payload)}
      {attempt : Option (ProviderAttemptEvidence Sha)} {observations : List (TaskResult Sha)}
      {recorded recovered : Option (TaskResult Sha)}
      (firstKind : first.kind = .planned) (secondKind : second.kind = .activated)
      (dispatchKind : dispatch.kind = .dispatched)
      (exact_ : env.requireExactTask activation plan task = .ok ())
      (retains : env.Retains plan task activation output attempt)
      (observed : env.Observed plan task activation dispatch output observations recorded
        recovered) :
      Phase ⟨some (task, plan), [first, second, dispatch], some activation, output, attempt,
        observations, none⟩
  | concluded {task : TaskPlan Sha} {plan : PassPlan Sha}
      {first second dispatch last : TaskEvent Sha} {activation : TaskActivation Sha}
      {output : Option (TaskOutput Sha Payload)}
      {attempt : Option (ProviderAttemptEvidence Sha)} {observations : List (TaskResult Sha)}
      {recorded recovered : Option (TaskResult Sha)} {credited : TaskResult Sha}
      (firstKind : first.kind = .planned) (secondKind : second.kind = .activated)
      (dispatchKind : dispatch.kind = .dispatched) (lastKind : last.kind = .terminal)
      (exact_ : env.requireExactTask activation plan task = .ok ())
      (retains : env.Retains plan task activation output attempt)
      (observed : env.Observed plan task activation dispatch output observations recorded
        recovered)
      (selected : recovered = some credited ∨ recovered = none ∧ recorded = some credited) :
      Phase ⟨some (task, plan), [first, second, dispatch, last], some activation, output, attempt,
        observations, some credited⟩

variable {env}

theorem Observed.of_perm {plan : PassPlan Sha} {task : TaskPlan Sha}
    {activation : TaskActivation Sha} {dispatch : TaskEvent Sha}
    {output : Option (TaskOutput Sha Payload)} {observations others : List (TaskResult Sha)}
    {recorded recovered : Option (TaskResult Sha)}
    (observed : env.Observed plan task activation dispatch output observations recorded recovered)
    (perm : others.Perm observations) :
    env.Observed plan task activation dispatch output others recorded recovered :=
  { observed with perm := perm.trans observed.perm }

/-- A phase does not depend on the order of the results. -/
theorem Phase.of_perm {view other : TaskView Sha Payload} (phase : env.Phase view)
    (perm : other.observations.Perm view.observations)
    (same : other = { view with observations := other.observations }) : env.Phase other := by
  cases phase with
  | unplanned =>
      rw [same, perm.eq_nil]
      exact .unplanned
  | waiting =>
      rw [same, perm.eq_nil]
      exact .waiting
  | planned firstKind =>
      rw [same, perm.eq_nil]
      exact .planned firstKind
  | preflightFailing firstKind built =>
      rw [same, perm.eq_singleton]
      exact .preflightFailing firstKind built
  | preflightFailed firstKind lastKind built =>
      rw [same, perm.eq_singleton]
      exact .preflightFailed firstKind lastKind built
  | activating firstKind exact_ =>
      rw [same, perm.eq_nil]
      exact .activating firstKind exact_
  | activated firstKind secondKind exact_ =>
      rw [same, perm.eq_nil]
      exact .activated firstKind secondKind exact_
  | activatedFailing firstKind secondKind exact_ failure built =>
      rw [same, perm.eq_singleton]
      exact .activatedFailing firstKind secondKind exact_ failure built
  | activatedFailed firstKind secondKind lastKind exact_ failure built =>
      rw [same, perm.eq_singleton]
      exact .activatedFailed firstKind secondKind lastKind exact_ failure built
  | dispatched firstKind secondKind dispatchKind exact_ retains observed =>
      rw [same]
      exact .dispatched firstKind secondKind dispatchKind exact_ retains (observed.of_perm perm)
  | concluded firstKind secondKind dispatchKind lastKind exact_ retains observed selected =>
      rw [same]
      exact .concluded firstKind secondKind dispatchKind lastKind exact_ retains
        (observed.of_perm perm) selected

/-- The events of a task follow one of the lifecycles. -/
theorem Phase.kinds {view : TaskView Sha Payload} (phase : env.Phase view) :
    view.history.map (·.kind) = [] ∨ view.history.map (·.kind) ∈ validLifecyclePrefixes := by
  cases phase <;> simp_all [validLifecyclePrefixes]

/-- A resting task has no file that an event must still report. -/
structure Resting (view : TaskView Sha Payload) : Prop where
  planned : view.planned.isSome → view.history ≠ []
  activated : view.history.map (·.kind) = [.planned] → view.activation = none
  credited : view.observations ≠ [] → view.credited.isSome

end Phases

end Environment

end Scheduler

end MmAudit
