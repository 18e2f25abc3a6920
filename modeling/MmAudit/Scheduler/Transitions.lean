import MmAudit.Scheduler.Coherence

/-!
# The transitions write admissible files

A live journal tracks its files: the same records, the views of them as indexes,
and a coherent archive.  Between two transitions every task rests.  Each
transition that is accepted writes only files that a write step allows, and leaves
a live journal again.
-/

set_option linter.unusedSectionVars false

namespace MmAudit

namespace Scheduler

open Fallible Keyed Logged

namespace Environment

variable {Sha Payload : Type} [LinearOrder Sha] [DecidableEq Payload]

/-- A journal in memory beside its files. -/
structure Tracks (env : Environment Sha Payload) (manifest : CampaignManifest Sha)
    (archive : Archive Sha Payload) (journal : Journal Sha Payload) : Prop where
  sameArchive : journal.archive = archive
  sameManifest : journal.manifest = manifest
  indexed : env.Indexed archive journal.indexes
  coherent : env.Coherent manifest archive

/-- A journal between two transitions. -/
structure Live (env : Environment Sha Payload) (manifest : CampaignManifest Sha)
    (archive : Archive Sha Payload) (journal : Journal Sha Payload) : Prop extends
    env.Tracks manifest archive journal where
  resting : ∀ taskId, Resting (env.view archive taskId)

variable {env : Environment Sha Payload} {manifest : CampaignManifest Sha}
  {cause : Cause Sha Payload} {archive : Archive Sha Payload} {journal next : Journal Sha Payload}
  {plan : PassPlan Sha} {task : TaskPlan Sha} {log : List (Artifact Sha Payload)}

/-! ## Guards and phases -/

section Guards

variable {view : TaskView Sha Payload}

/-- A resting task whose last event is its planned event. -/
theorem Phase.of_planned (phase : env.Phase view) (resting : Resting view)
    (entry : view.planned = some (task, plan)) (ends : EndsIn view.history 1 .planned) :
    ∃ first, view = ⟨some (task, plan), [first], none, none, none, [], none⟩ := by
  cases phase with
  | planned firstKind =>
      cases entry
      exact ⟨_, rfl⟩
  | preflightFailing firstKind built =>
      have credited := resting.credited (by simp)
      simp at credited
  | activating firstKind exact_ =>
      have absent := resting.activated (by simp [firstKind])
      simp at absent
  | _ => simp_all [EndsIn]

/-- A resting task whose last event is its activation. -/
theorem Phase.of_activated (phase : env.Phase view) (resting : Resting view)
    (entry : view.planned = some (task, plan)) (ends : EndsIn view.history 2 .activated)
    {activation : TaskActivation Sha} (given : view.activation = some activation) :
    ∃ first second,
      view = ⟨some (task, plan), [first, second], some activation, none, none, [], none⟩ := by
  cases phase with
  | activated firstKind secondKind exact_ =>
      cases entry
      cases given
      exact ⟨_, _, rfl⟩
  | activatedFailing firstKind secondKind exact_ failure built =>
      have credited := resting.credited (by simp)
      simp at credited
  | _ => simp_all [EndsIn]

/-- A resting task whose last event is its dispatch. -/
theorem Phase.of_dispatched (phase : env.Phase view) (resting : Resting view)
    (entry : view.planned = some (task, plan)) (ends : EndsIn view.history 3 .dispatched)
    {activation : TaskActivation Sha} (given : view.activation = some activation) :
    ∃ first second dispatch, view = ⟨some (task, plan), [first, second, dispatch],
      some activation, view.output, view.attempt, [], none⟩ := by
  cases phase with
  | @dispatched _ _ first second dispatch _ output attempt observations =>
      cases entry
      cases given
      have nothing : observations = [] := by
        by_contra some_
        have credited := resting.credited some_
        simp at credited
      rw [nothing]
      exact ⟨_, _, _, rfl⟩
  | _ => simp_all [EndsIn]

/-- A task rests after an event that reports about it. -/
theorem Report.resting {kind : EventKind} {activation : Option (TaskActivation Sha)}
    {result : Option (TaskResult Sha)}
    (report : env.Report cause plan task view kind activation result) (event : TaskEvent Sha) :
    Resting { view with history := view.history ++ [event], credited := result } where
  planned _ := by simp
  activated := by cases report <;> simp
  credited := by cases report <;> simp

end Guards

/-! ## Lookups of a live journal -/

section Lookups

theorem Tracks.historyForTask_eq (tracks : env.Tracks manifest archive journal) (taskId : Sha) :
    historyForTask journal taskId = archive.history taskId := by
  rw [historyForTask, tracks.indexed.histories, getD_listed]

theorem Tracks.planned_of_taskAndPlan (tracks : env.Tracks manifest archive journal)
    {taskId : Sha} {entry : TaskPlan Sha × PassPlan Sha}
    (found : taskAndPlan journal taskId = .ok entry) :
    (env.view archive taskId).planned = some entry ∧ env.taskId entry.1 = taskId := by
  unfold taskAndPlan at found
  rw [tracks.indexed.tasks] at found
  cases lookup : env.plannedTask? archive taskId with
  | none =>
      rw [lookup] at found
      cases found
  | some other =>
      rw [lookup] at found
      obtain rfl := Except.ok.inj found
      exact ⟨lookup, (mem_of_planned lookup).2⟩

theorem Tracks.activation_of_activationForTask (tracks : env.Tracks manifest archive journal)
    {taskId : Sha} {activation : TaskActivation Sha}
    (found : activationForTask journal taskId = .ok activation) :
    (env.view archive taskId).activation = some activation := by
  unfold activationForTask at found
  rw [tracks.indexed.activations] at found
  cases lookup : archive.activation? taskId with
  | none =>
      rw [lookup] at found
      cases found
  | some other =>
      rw [lookup] at found
      obtain rfl := Except.ok.inj found
      exact lookup

/-- The planned tasks before a task with events have events. -/
theorem Coherent.inOrder (coherent : env.Coherent manifest archive)
    {entry : TaskPlan Sha × PassPlan Sha} (member : entry ∈ Archive.plannedTasks archive.plans)
    (begun : archive.history (env.taskId entry.1) ≠ []) : env.InOrder archive entry := by
  obtain ⟨earlier, later, split⟩ := List.append_of_mem member
  exact ⟨earlier, later, split, coherent.plannedInOrder earlier entry later split begun⟩

theorem Coherent.inOrder_of_view (coherent : env.Coherent manifest archive)
    (member : (task, plan) ∈ Archive.plannedTasks archive.plans) {view : TaskView Sha Payload}
    (same : env.view archive (env.taskId task) = view) (begun : view.history ≠ []) :
    env.InOrder archive (task, plan) :=
  coherent.inOrder member (same ▸ begun : (env.view archive (env.taskId task)).history ≠ [])

end Lookups

/-! ## Retaining -/

section Retaining

theorem Tracks.retainEvent (tracks : env.Tracks manifest archive journal) {event : TaskEvent Sha}
    (coherent : env.Coherent manifest (archive.write (.event event)))
    (retained : env.retainEvent journal event = .ok next) :
    env.Tracks manifest (archive.write (.event event)) next := by
  unfold Environment.retainEvent at retained
  simp only [bind_eq_ok_iff, Except.ok.injEq] at retained
  obtain ⟨_, -, entry, -, _, -, result, found, rfl⟩ := retained
  exact {
    sameArchive := by rw [← tracks.sameArchive]
    sameManifest := tracks.sameManifest
    indexed := tracks.indexed.addEvent (tracks.indexed.selects found)
    coherent := coherent }

/-- Appending an event that reports about its task. -/
theorem Tracks.appendEvent (tracks : env.Tracks manifest archive journal) {kind : EventKind}
    {requestId : Option Sha} {activation : Option (TaskActivation Sha)}
    {result : Option (TaskResult Sha)}
    {admits : Archive Sha Payload → Artifact Sha Payload → Prop}
    (report : env.Report cause plan task (env.view archive (env.taskId task)) kind activation
      result)
    (request : requestId = env.eventRequestId kind task)
    (inOrder : env.InOrder archive (task, plan))
    (admitted : ∀ event, env.nextEvent archive plan task kind activation result = .ok event →
      env.WriteStep manifest cause archive (.event event) → admits archive (.event event)) :
    Writes Archive.write admits archive
      (env.appendEvent journal plan task kind requestId activation result)
      fun next store => ∃ event, env.nextEvent archive plan task kind activation result =
          .ok event ∧ store = archive.write (.event event) ∧ env.Tracks manifest store next := by
  unfold Environment.appendEvent
  refine Writes.lift_bind fun event built => ?_
  rw [request, tracks.sameArchive, tracks.historyForTask_eq] at built
  have step : env.WriteStep manifest cause archive (.event event) :=
    .event report built inOrder
  refine writes_writeModel_bind (admitted event built step) ?_
  refine Writes.lift_bind fun next retained => ?_
  refine Writes.lift_bind fun _ _ => ?_
  exact Writes.pure ⟨event, built, rfl,
    tracks.retainEvent (tracks.coherent.write step) retained⟩

/-- After an event of a transition its task rests, and the others are untouched. -/
theorem resting_of_event {kind : EventKind} {activation : Option (TaskActivation Sha)}
    {result : Option (TaskResult Sha)} {event : TaskEvent Sha}
    (coherent : env.Coherent manifest archive)
    (report : env.Report cause plan task (env.view archive (env.taskId task)) kind activation
      result)
    (built : env.nextEvent archive plan task kind activation result = .ok event) {taskId : Sha}
    (other : taskId ≠ env.taskId task → Resting (env.view archive taskId)) :
    Resting (env.view (archive.write (.event event)) taskId) := by
  rw [coherent.view_write_event report built]
  by_cases here : env.taskId task = taskId
  · subst here
    rw [if_pos rfl]
    exact report.resting event
  · rw [if_neg here]
    exact other (Ne.symm here)

/-- A transition ends with an event. -/
theorem Tracks.live_of_appendEvent (tracks : env.Tracks manifest archive journal)
    {kind : EventKind} {requestId : Option Sha} {activation : Option (TaskActivation Sha)}
    {result : Option (TaskResult Sha)}
    (report : env.Report cause plan task (env.view archive (env.taskId task)) kind activation
      result)
    (request : requestId = env.eventRequestId kind task)
    (inOrder : env.InOrder archive (task, plan))
    (others : ∀ taskId, taskId ≠ env.taskId task → Resting (env.view archive taskId))
    (appended : (env.appendEvent journal plan task kind requestId activation result).Returns log
      next) :
    Follows Archive.write (env.WriteStep manifest cause) archive log ∧
      env.Live manifest (writeAll archive log) next := by
  have writes := tracks.appendEvent report request inOrder fun _ _ step => step
  obtain ⟨rfl, returned⟩ := appended
  refine ⟨writes.follows, ?_⟩
  obtain ⟨event, built, same, tracked⟩ := writes.returns next returned
  refine { tracked with resting := fun taskId => ?_ }
  rw [writeAll, same]
  exact resting_of_event tracks.coherent report built (others taskId)

end Retaining

/-! ## Single transitions -/

section Single

theorem Live.markDispatched (live : env.Live manifest archive journal) {taskId : Sha}
    (accepted : (env.markDispatched journal taskId).Returns log next) :
    Follows Archive.write (env.WriteStep manifest cause) archive log ∧
      env.Live manifest (writeAll archive log) next := by
  unfold Environment.markDispatched at accepted
  simp only [returns_lift_bind_iff, raiseIf_eq_ok_iff, not_not] at accepted
  obtain ⟨⟨task, plan⟩, found, _, -, activation, activated, _, ends, appended⟩ := accepted
  obtain ⟨planned, rfl⟩ := live.planned_of_taskAndPlan found
  rw [live.historyForTask_eq] at ends
  obtain ⟨first, second, before⟩ := (live.coherent.phases _).of_activated (live.resting _) planned
    ends (live.activation_of_activationForTask activated)
  have inOrder := live.coherent.inOrder_of_view (mem_of_planned planned).1 before (by simp)
  refine live.live_of_appendEvent ?_ rfl inOrder (fun _ _ => live.resting _) appended
  rw [before]
  exact .dispatched

/-- A write about one task leaves the others alone. -/
theorem view_write_activation_of_ne {activation : TaskActivation Sha} {taskId : Sha}
    (different : activation.taskId ≠ taskId) :
    env.view (archive.write (.activation activation)) taskId = env.view archive taskId := by
  rw [view_write_activation, if_neg different, Option.or_none]
  rfl

theorem Live.activateTask (live : env.Live manifest archive journal) {taskId : Sha}
    {material : ActivationMaterial Sha}
    (accepted : (env.activateTask journal taskId material).Returns log next) :
    Follows Archive.write (env.WriteStep manifest cause) archive log ∧
      env.Live manifest (writeAll archive log) next := by
  unfold Environment.activateTask at accepted
  simp only [returns_lift_bind_iff, returns_writeModel_bind_iff, raiseIf_eq_ok_iff, not_not]
    at accepted
  obtain ⟨⟨task, plan⟩, found, _, -, _, ends, _, fresh, activation, built, -, rest,
    ⟨middle, retained, appended⟩, rfl⟩ := accepted
  obtain ⟨planned, rfl⟩ := live.planned_of_taskAndPlan found
  rw [live.historyForTask_eq] at ends
  obtain ⟨first, before⟩ := (live.coherent.phases _).of_planned (live.resting _) planned ends
  have exact_ := (buildActivation_spec built).1
  have sameTask : activation.taskId = env.taskId task := (requireExactTask_spec exact_).2.1
  have step : env.WriteStep manifest cause archive (.activation activation) :=
    .activation before exact_
  have tracked : env.Tracks manifest (archive.write (.activation activation)) middle := by
    unfold Environment.retainActivation at retained
    simp only [bind_eq_ok_iff, Except.ok.injEq] at retained
    obtain ⟨_, -, entry, -, _, -, rfl⟩ := retained
    exact {
      sameArchive := by rw [← live.sameArchive]
      sameManifest := live.sameManifest
      indexed := live.indexed.addActivation (sameTask ▸ fresh)
      coherent := live.coherent.write step }
  have after : env.view (archive.write (.activation activation)) (env.taskId task) =
      ⟨some (task, plan), [first], some activation, none, none, [], none⟩ := by
    have absent : archive.activation? (env.taskId task) = none :=
      congrArg TaskView.activation before
    rw [view_write_activation, before, absent, sameTask, if_pos rfl, Option.none_or]
  have report : env.Report cause plan task
      (env.view (archive.write (.activation activation)) (env.taskId task)) .activated
      (some activation) none := by
    rw [after]
    exact .activated
  have finish := tracked.live_of_appendEvent report rfl
    (tracked.coherent.inOrder_of_view (mem_of_planned planned).1 after (by simp))
    (fun other different => by
      rw [view_write_activation_of_ne (sameTask ▸ Ne.symm different)]
      exact live.resting other) appended
  exact ⟨⟨step, finish.1⟩, finish.2⟩

theorem Live.persistOutput (live : env.Live manifest archive journal) {taskId : Sha}
    {arguments : OutputArguments Sha Payload}
    (accepted : (env.persistOutput journal taskId arguments).Returns log next) :
    Follows Archive.write (env.WriteStep manifest cause) archive log ∧
      env.Live manifest (writeAll archive log) next := by
  unfold Environment.persistOutput at accepted
  simp only [returns_lift_bind_iff, returns_writeModel_bind_iff, returns_pure_iff, raiseIf_eq_ok_iff,
    not_not] at accepted
  obtain ⟨⟨task, plan⟩, found, _, ends, activation, activated, _, noOutput, _, noAttempt, output,
    built, -, rest, ⟨middle, retained, _, -, rfl, rfl⟩, rfl⟩ := accepted
  obtain ⟨planned, rfl⟩ := live.planned_of_taskAndPlan found
  rw [live.historyForTask_eq] at ends
  obtain ⟨first, second, dispatch, before⟩ := (live.coherent.phases _).of_dispatched
    (live.resting _) planned ends (live.activation_of_activationForTask activated)
  have outputAbsent : archive.output? (env.taskId task) = none := by
    rw [← live.indexed.outputs]
    exact (Dict.get?_eq_none_iff _ _).mpr noOutput
  have attemptAbsent : archive.providerAttempt? (env.taskId task) = none := by
    rw [← live.indexed.providerAttempts]
    exact (Dict.get?_eq_none_iff _ _).mpr noAttempt
  change env.view archive (env.taskId task) = ⟨_, _, _, archive.output? _,
    archive.providerAttempt? _, _, _⟩ at before
  rw [outputAbsent, attemptAbsent] at before
  have sameTask : output.taskId = env.taskId task := (buildOutput_spec built).2.1
  have step : env.WriteStep manifest cause archive (.output output) := .output before built
  refine ⟨⟨step, trivial⟩, ?_⟩
  unfold Environment.retainOutput at retained
  simp only [bind_eq_ok_iff, Except.ok.injEq] at retained
  obtain ⟨_, absent, _, -, _, -, rfl⟩ := retained
  rw [raiseIf_eq_ok_iff, not_or] at absent
  refine {
    sameArchive := by rw [writeAll, ← live.sameArchive]; rfl
    sameManifest := live.sameManifest
    indexed := live.indexed.addOutput absent.1
    coherent := live.coherent.write step
    resting := fun other => ?_ }
  change Resting (env.view (archive.write (.output output)) other)
  rw [view_write_output]
  by_cases here : output.taskId = other
  · subst here
    rw [sameTask, before]
    exact ⟨by simp, by simp, by simp⟩
  · rw [if_neg here, Option.or_none]
    exact live.resting other

theorem Live.persistProviderAttempt (live : env.Live manifest archive journal) {taskId : Sha}
    {usage : UsageRecord Sha}
    (accepted : (env.persistProviderAttempt journal taskId usage).Returns log next) :
    Follows Archive.write (env.WriteStep manifest cause) archive log ∧
      env.Live manifest (writeAll archive log) next := by
  unfold Environment.persistProviderAttempt at accepted
  simp only [returns_lift_bind_iff, returns_writeModel_bind_iff, returns_pure_iff, raiseIf_eq_ok_iff,
    not_not] at accepted
  obtain ⟨⟨task, plan⟩, found, _, ends, _, nothing, activation, activated, attempt, built, -, rest,
    ⟨middle, retained, _, -, rfl, rfl⟩, rfl⟩ := accepted
  obtain ⟨planned, rfl⟩ := live.planned_of_taskAndPlan found
  rw [live.historyForTask_eq] at ends
  obtain ⟨first, second, dispatch, before⟩ := (live.coherent.phases _).of_dispatched
    (live.resting _) planned ends (live.activation_of_activationForTask activated)
  rw [not_or] at nothing
  have outputAbsent : archive.output? (env.taskId task) = none := by
    rw [← live.indexed.outputs]
    exact (Dict.get?_eq_none_iff _ _).mpr nothing.1
  have attemptAbsent : archive.providerAttempt? (env.taskId task) = none := by
    rw [← live.indexed.providerAttempts]
    exact (Dict.get?_eq_none_iff _ _).mpr nothing.2
  change env.view archive (env.taskId task) = ⟨_, _, _, archive.output? _,
    archive.providerAttempt? _, _, _⟩ at before
  rw [outputAbsent, attemptAbsent] at before
  have sameTask : attempt.taskId = env.taskId task := (buildProviderAttempt_spec built).1
  have step : env.WriteStep manifest cause archive (.providerAttempt attempt) :=
    .attempt before built
  refine ⟨⟨step, trivial⟩, ?_⟩
  unfold Environment.retainProviderAttempt at retained
  simp only [bind_eq_ok_iff, Except.ok.injEq] at retained
  obtain ⟨_, absent, rfl⟩ := retained
  rw [raiseIf_eq_ok_iff, not_or, not_or, not_or] at absent
  refine {
    sameArchive := by rw [writeAll, ← live.sameArchive]; rfl
    sameManifest := live.sameManifest
    indexed := live.indexed.addProviderAttempt absent.2.2.2
    coherent := live.coherent.write step
    resting := fun other => ?_ }
  change Resting (env.view (archive.write (.providerAttempt attempt)) other)
  rw [view_write_providerAttempt]
  by_cases here : attempt.taskId = other
  · subst here
    rw [sameTask, before]
    exact ⟨by simp, by simp, by simp⟩
  · rw [if_neg here, Option.or_none]
    exact live.resting other

end Single

/-! ## Transitions that record a result -/

section Recording

theorem Tracks.retainResultObservation (tracks : env.Tracks manifest archive journal)
    {result : TaskResult Sha}
    (coherent : env.Coherent manifest (archive.write (.taskResult result)))
    (retained : env.retainResultObservation journal result = .ok next) :
    env.Tracks manifest (archive.write (.taskResult result)) next := by
  unfold Environment.retainResultObservation at retained
  simp only [bind_eq_ok_iff, Except.ok.injEq] at retained
  obtain ⟨_, accepted, rfl⟩ := retained
  rw [raiseIf_eq_ok_iff, not_or, not_or] at accepted
  exact {
    sameArchive := by rw [← tracks.sameArchive]
    sameManifest := tracks.sameManifest
    indexed := tracks.indexed.addResult accepted.2.1
    coherent := coherent }

/-- A result that is retained has a new hash. -/
theorem Tracks.fresh_of_retained (tracks : env.Tracks manifest archive journal)
    {result : TaskResult Sha} (retained : env.retainResultObservation journal result = .ok next) :
    env.resultByHash? archive (env.result result) = none := by
  unfold Environment.retainResultObservation at retained
  simp only [bind_eq_ok_iff, Except.ok.injEq] at retained
  obtain ⟨_, accepted, -⟩ := retained
  rw [raiseIf_eq_ok_iff, not_or, not_or] at accepted
  rw [← tracks.indexed.resultsByHash]
  exact (Dict.get?_eq_none_iff _ _).mpr accepted.2.1

/-- Retain a result of a task without results, then append the event that credits
it. -/
theorem Live.conclude (live : env.Live manifest archive journal) {result : TaskResult Sha}
    {view : TaskView Sha Payload} {kind : EventKind} {requestId : Option Sha}
    {activation : Option (TaskActivation Sha)} {middle : Journal Sha Payload}
    (before : env.view archive (env.taskId task) = view) (begun : view.history ≠ [])
    (sameTask : result.taskId = env.taskId task)
    (step : env.WriteStep manifest cause archive (.taskResult result))
    (retained : env.retainResultObservation journal result = .ok middle)
    (report : env.Report cause plan task
      { view with observations := view.observations ++ [result] } kind activation (some result))
    (request : requestId = env.eventRequestId kind task)
    (appended : (env.appendEvent middle plan task kind requestId activation (some result)).Returns
      log next) :
    Follows Archive.write (env.WriteStep manifest cause) archive (.taskResult result :: log) ∧
      env.Live manifest (writeAll archive (.taskResult result :: log)) next := by
  have tracked := live.toTracks.retainResultObservation (live.coherent.write step) retained
  have after : env.view (archive.write (.taskResult result)) (env.taskId task) =
      { view with observations := view.observations ++ [result] } := by
    rw [view_write_taskResult _ live.coherent.referred, sameTask, if_pos rfl, ← before]
    rfl
  have planned := mem_of_planned (after ▸ report.planned_eq)
  have finish := tracked.live_of_appendEvent (after ▸ report) request
    (tracked.coherent.inOrder_of_view planned.1 after begun) (fun other different => by
      rw [view_write_taskResult _ live.coherent.referred,
        if_neg (sameTask ▸ Ne.symm different), List.append_nil]
      exact live.resting other) appended
  exact ⟨⟨step, finish.1⟩, finish.2⟩

theorem Live.recordPreflightFailure (live : env.Live manifest archive journal)
    {result : TaskResult Sha}
    (accepted : (env.recordPreflightFailure journal result).Returns log next) :
    Follows Archive.write (env.WriteStep manifest cause) archive log ∧
      env.Live manifest (writeAll archive log) next := by
  unfold Environment.recordPreflightFailure at accepted
  simp only [returns_lift_bind_iff, returns_writeModel_bind_iff, raiseIf_eq_ok_iff, not_not]
    at accepted
  obtain ⟨⟨task, plan⟩, found, _, -, expected, built, _, rfl, _, ends, _, -, -, rest,
    ⟨middle, retained, appended⟩, rfl⟩ := accepted
  obtain ⟨planned, sameTask⟩ := live.planned_of_taskAndPlan found
  rw [← sameTask] at planned ends
  rw [live.historyForTask_eq] at ends
  obtain ⟨first, before⟩ := (live.coherent.phases _).of_planned (live.resting _) planned ends
  exact live.conclude before (by simp) sameTask.symm
    (.preflightResult before built (live.fresh_of_retained retained)) retained .preflight rfl
    appended

theorem Live.recordActivatedPreflightFailure (live : env.Live manifest archive journal)
    {result : TaskResult Sha}
    (accepted : (env.recordActivatedPreflightFailure journal result).Returns log next) :
    Follows Archive.write (env.WriteStep manifest cause) archive log ∧
      env.Live manifest (writeAll archive log) next := by
  unfold Environment.recordActivatedPreflightFailure at accepted
  simp only [returns_lift_bind_iff, returns_writeModel_bind_iff, raiseIf_eq_ok_iff, not_or, not_not]
    at accepted
  obtain ⟨⟨task, plan⟩, found, activation, activated, _, ⟨-, failure⟩, expected, built, _, rfl,
    _, ends, _, -, -, rest, ⟨middle, retained, appended⟩, rfl⟩ := accepted
  obtain ⟨planned, sameTask⟩ := live.planned_of_taskAndPlan found
  have given := live.activation_of_activationForTask activated
  rw [← sameTask] at planned ends given
  rw [live.historyForTask_eq] at ends
  obtain ⟨first, second, before⟩ :=
    (live.coherent.phases _).of_activated (live.resting _) planned ends given
  exact live.conclude before (by simp) sameTask.symm
    (.activatedResult before failure built (live.fresh_of_retained retained)) retained
    .activatedPreflight rfl appended

/-- The output that a result is compared with is the retained one. -/
theorem Tracks.recorded_of_terminalOutput (tracks : env.Tracks manifest archive journal)
    {result : TaskResult Sha} {activation : TaskActivation Sha}
    {output : Option (TaskOutput Sha Payload)}
    (found : terminalOutput journal result = .ok output)
    (built : env.buildTaskResult plan task activation result.terminalStatus
      result.terminalEvidenceSha256 output = .ok result) :
    env.Recorded plan task activation (archive.output? result.taskId) result := by
  unfold terminalOutput at found
  by_cases success : result.terminalStatus = .succeeded
  · refine ⟨?_, fun _ => success⟩
    rw [if_pos success, map_eq_ok_iff] at found
    obtain ⟨retained, lookup, rfl⟩ := found
    have same : archive.output? result.taskId = some retained := by
      unfold outputForTask at lookup
      rw [tracks.indexed.outputs] at lookup
      cases present : archive.output? result.taskId with
      | none =>
          rw [present] at lookup
          cases lookup
      | some other =>
          rw [present] at lookup
          rw [Except.ok.inj lookup]
    rw [if_pos success, same]
    exact built
  · rw [if_neg success, raiseIf_bind_eq_ok_iff] at found
    obtain ⟨absent, same⟩ := found
    obtain rfl := Except.ok.inj same
    have none_ : archive.output? result.taskId = none := by
      rw [← tracks.indexed.outputs]
      exact (Dict.get?_eq_none_iff _ _).mpr absent
    refine ⟨?_, fun present => ?_⟩
    · rw [if_neg success]
      exact built
    · rw [none_] at present
      cases present

theorem Live.recordTerminal (live : env.Live manifest archive journal) {result : TaskResult Sha}
    (accepted : (env.recordTerminal journal result).Returns log next) :
    Follows Archive.write (env.WriteStep manifest (.call archive)) archive log ∧
      env.Live manifest (writeAll archive log) next := by
  unfold Environment.recordTerminal at accepted
  simp only [returns_lift_bind_iff, returns_writeModel_bind_iff, raiseIf_eq_ok_iff, not_not]
    at accepted
  obtain ⟨⟨task, plan⟩, found, _, -, activation, activated, output, outputFound, expected, built,
    _, rfl, _, ends, _, -, -, rest, ⟨middle, retained, appended⟩, rfl⟩ := accepted
  obtain ⟨planned, sameTask⟩ := live.planned_of_taskAndPlan found
  have given := live.activation_of_activationForTask activated
  have recorded := live.recorded_of_terminalOutput outputFound built
  rw [← sameTask] at planned ends given recorded
  rw [live.historyForTask_eq] at ends
  obtain ⟨first, second, dispatch, before⟩ :=
    (live.coherent.phases _).of_dispatched (live.resting _) planned ends given
  have nothing : archive.observations (env.taskId task) = [] :=
    congrArg TaskView.observations before
  have absent : result ∉ archive.resultObservations := by
    intro member
    have observed : result ∈ archive.observations (env.taskId task) :=
      List.mem_filter.mpr ⟨member, by simp [sameTask]⟩
    rw [nothing] at observed
    cases observed
  exact live.conclude before (by simp) sameTask.symm
    (.recordedResult before recorded (live.fresh_of_retained retained)) retained
    (.terminal ⟨rfl, absent⟩) rfl appended

end Recording

/-! ## Sealing passes -/

section Sealing

/-- Every task of a pass with a result has events. -/
theorem Coherent.begun (coherent : env.Coherent manifest archive) {ordinal : ℕ}
    (found : archive.plans[ordinal]? = some plan) (finished : ordinal < archive.passResults.length)
    (member : task ∈ plan.tasks) : archive.history (env.taskId task) ≠ [] := by
  have passFound := List.getElem?_eq_getElem finished
  obtain ⟨other, planFound, results, credited, -⟩ := coherent.results _ _ passFound
  obtain rfl := Option.some.inj (found.symm.trans planFound)
  obtain ⟨result, -, same⟩ := List.mem_map.mp (credited ▸ List.mem_map_of_mem member)
  exact history_ne_nil_of_credited? same.symm

theorem Coherent.begun_of_finished (coherent : env.Coherent manifest archive)
    (finished : archive.passResults.length = archive.plans.length)
    {entry : TaskPlan Sha × PassPlan Sha} (member : entry ∈ Archive.plannedTasks archive.plans) :
    archive.history (env.taskId entry.1) ≠ [] := by
  obtain ⟨plan, planMem, entryMem⟩ := List.mem_flatMap.mp member
  obtain ⟨task, taskMem, rfl⟩ := List.mem_map.mp entryMem
  obtain ⟨ordinal, less, rfl⟩ := List.mem_iff_getElem.mp planMem
  exact coherent.begun (List.getElem?_eq_getElem less) (finished ▸ less) taskMem

/-- While the tasks of a new plan are planned: the remaining ones wait, and the
others rest. -/
structure Planning (env : Environment Sha Payload) (manifest : CampaignManifest Sha)
    (archive : Archive Sha Payload) (plan : PassPlan Sha) (remaining : List (TaskPlan Sha))
    (journal : Journal Sha Payload) (store : Archive Sha Payload) : Prop where
  tracks : env.Tracks manifest store journal
  plans : store.plans = archive.plans ++ [plan]
  waiting : ∀ task ∈ remaining,
    env.view store (env.taskId task) = ⟨some (task, plan), [], none, none, none, [], none⟩
  resting : ∀ taskId, taskId ∉ remaining.map env.taskId → Resting (env.view store taskId)
  begunBefore : ∀ entry ∈ Archive.plannedTasks archive.plans,
    store.history (env.taskId entry.1) ≠ []
  begun : ∃ done, plan.tasks = done ++ remaining ∧
    ∀ task ∈ done, store.history (env.taskId task) ≠ []

theorem Planning.step {remaining : List (TaskPlan Sha)} {store : Archive Sha Payload}
    (planning : env.Planning manifest archive plan (task :: remaining) journal store) :
    Writes Archive.write (env.WriteStep manifest cause) store
      (env.appendEvent journal plan task .planned none none none)
      (env.Planning manifest archive plan remaining) := by
  obtain ⟨done, split, begunDone⟩ := planning.begun
  have distinct : ((task :: remaining).map env.taskId).Nodup := by
    have all := planning.tracks.coherent.distinctTasks
    rw [planning.plans, plannedTasks_append_singleton, split, List.map_append, List.map_append,
      List.map_append] at all
    have tail := (List.nodup_append.mp (List.nodup_append.mp all).2.1).2.1
    rw [List.map_map] at tail
    exact tail
  rw [List.map_cons, List.nodup_cons] at distinct
  have inOrder : env.InOrder store (task, plan) := by
    refine ⟨Archive.plannedTasks archive.plans ++ done.map fun task => (task, plan),
      remaining.map fun task => (task, plan), ?_, ?_⟩
    · rw [planning.plans, plannedTasks_append_singleton, split]
      simp
    · intro other member
      rcases List.mem_append.mp member with old | new
      · exact planning.begunBefore other old
      · obtain ⟨earlier, earlierMem, rfl⟩ := List.mem_map.mp new
        exact begunDone earlier earlierMem
  have report : env.Report cause plan task (env.view store (env.taskId task)) .planned none
      none := by
    rw [planning.waiting task List.mem_cons_self]
    exact .planned
  refine (planning.tracks.appendEvent report rfl inOrder fun _ _ step => step).mono ?_
  rintro next _ ⟨event, built, rfl, tracked⟩
  have views := planning.tracks.coherent.view_write_event report built
  have begunTask : (store.write (.event event)).history (env.taskId task) ≠ [] := by
    have same := congrArg TaskView.history (views (env.taskId task))
    rw [if_pos rfl] at same
    change (store.write (.event event)).history (env.taskId task) = _ at same
    rw [same]
    simp
  exact {
    tracks := tracked
    plans := planning.plans
    waiting := fun other member => by
      have different : env.taskId task ≠ env.taskId other := fun same =>
        distinct.1 (same ▸ List.mem_map_of_mem member)
      rw [views, if_neg different]
      exact planning.waiting other (List.mem_cons_of_mem _ member)
    resting := fun taskId absent => by
      refine resting_of_event planning.tracks.coherent report built fun different => ?_
      refine planning.resting taskId ?_
      rw [List.map_cons, List.mem_cons, not_or]
      exact ⟨different, absent⟩
    begunBefore := fun entry member => history_write_ne_nil (planning.begunBefore entry member) _
    begun := ⟨done ++ [task], by simp [split], fun other member => by
      rcases List.mem_append.mp member with old | new
      · exact history_write_ne_nil (begunDone other old) _
      · obtain rfl := List.mem_singleton.mp new
        exact begunTask⟩ }

theorem Live.sealPassPlan (live : env.Live manifest archive journal)
    (accepted : (env.sealPassPlan journal plan).Returns log next) :
    Follows Archive.write (env.WriteStep manifest cause) archive log ∧
      env.Live manifest (writeAll archive log) next := by
  unfold Environment.sealPassPlan at accepted
  simp only [returns_lift_bind_iff, returns_writeModel_bind_iff, raiseIf_eq_ok_iff, not_or, not_not,
    not_le] at accepted
  obtain ⟨_, valid, _, -, _, ⟨campaign, order⟩, _, finished, _, complete, _, dependencies, _,
    custody, -, rest, ⟨middle, retained, loop⟩, rfl⟩ := accepted
  rw [live.sameArchive] at order finished complete
  rw [nextDependencies, live.sameArchive] at dependencies
  rw [live.sameManifest] at campaign custody
  unfold Environment.retainPlan at retained
  simp only [bind_eq_ok_iff, Except.ok.injEq] at retained
  obtain ⟨_, fresh, rfl⟩ := retained
  rw [raiseIf_eq_ok_iff, not_or, not_not] at fresh
  obtain ⟨distinct, unknown⟩ := fresh
  have unplanned : ∀ task ∈ plan.tasks, env.taskId task ∉ journal.indexes.tasks :=
    fun task member known => unknown ⟨task, member, known⟩
  have absent : ∀ task ∈ plan.tasks, env.plannedTask? archive (env.taskId task) = none := by
    intro task member
    rw [← live.indexed.tasks]
    exact (Dict.get?_eq_none_iff _ _).mpr (unplanned task member)
  have sealed_ : env.SealedPlan manifest archive.passResults archive.plans.length plan := {
    valid := valid
    campaign := campaign
    order := order.symm
    dependencies := dependencies
    complete := by simpa using complete
    custody := custody }
  have step : env.WriteStep manifest cause archive (.plan plan) := .plan sealed_ finished absent
  have tracked : env.Tracks manifest (archive.write (.plan plan)) { journal with
      archive := journal.archive.write (.plan plan)
      indexes := (plan.tasks.map fun task => (task, plan)).foldl env.addTask journal.indexes } := {
    sameArchive := by rw [← live.sameArchive]
    sameManifest := live.sameManifest
    indexed := live.indexed.addTasks (plannedTasks_append_singleton _ _)
      (fun entry member => by
        obtain ⟨task, taskMem, rfl⟩ := List.mem_map.mp member
        exact unplanned task taskMem)
      (by rw [List.map_map]; exact distinct)
    coherent := live.coherent.write step }
  have planning : env.Planning manifest archive plan plan.tasks _ (archive.write (.plan plan)) := {
    tracks := tracked
    plans := rfl
    waiting := fun task member => by
      have found : ((plan.tasks.map fun task => (task, plan)).find? fun entry =>
          env.taskId entry.1 = env.taskId task) = some (task, plan) := by
        have keys : ((plan.tasks.map fun task => (task, plan)).map fun entry =>
            env.taskId entry.1).Nodup := by
          rw [List.map_map]
          exact distinct
        exact (find?_eq_some_iff keys).mpr ⟨List.mem_map_of_mem member, rfl⟩
      rw [view_write_plan, absent task member, Option.none_or, found,
        live.coherent.view_of_unplanned (absent task member)]
    resting := fun taskId other => by
      have notFound : ((plan.tasks.map fun task => (task, plan)).find? fun entry =>
          env.taskId entry.1 = taskId) = none := by
        rw [List.find?_eq_none]
        intro entry member same
        obtain ⟨task, taskMem, rfl⟩ := List.mem_map.mp member
        exact other (of_decide_eq_true same ▸ List.mem_map_of_mem taskMem)
      rw [view_write_plan, notFound, Option.or_none]
      exact live.resting taskId
    begunBefore := fun entry member => live.coherent.begun_of_finished finished member
    begun := ⟨[], rfl, by simp⟩ }
  have writes : Writes Archive.write (env.WriteStep manifest cause) (archive.write (.plan plan))
      (plan.tasks.foldlM (fun journal task =>
        env.appendEvent journal plan task .planned none none none) _)
      (env.Planning manifest archive plan []) :=
    Writes.foldlM (env.Planning manifest archive plan) plan.tasks planning
      fun task remaining journal store holds => holds.step
  obtain ⟨first, last, second, ⟨rfl, returned⟩, finish, rfl⟩ := returns_bind_iff.mp loop
  simp only [returns_lift_bind_iff, returns_pure_iff] at finish
  obtain ⟨_, -, rfl, rfl⟩ := finish
  rw [List.append_nil]
  have planned := writes.returns last returned
  exact ⟨⟨step, writes.follows⟩, { planned.tracks with
    resting := fun taskId => planned.resting taskId (by simp) }⟩

theorem Tracks.credited_of_exactTaskResult (tracks : env.Tracks manifest archive journal)
    {taskId : Sha} {result : TaskResult Sha}
    (found : env.exactTaskResult journal taskId = .ok result) :
    env.credited? archive taskId = some result := by
  unfold exactTaskResult at found
  rw [tracks.indexed.credited] at found
  cases credited : env.credited? archive taskId with
  | none =>
      rw [credited] at found
      cases found
  | some other =>
      rw [credited] at found
      simp only [raiseIf_bind_eq_ok_iff, Except.ok.injEq] at found
      rw [found.2]

theorem Live.sealPassResult (live : env.Live manifest archive journal) {kind : PassKind}
    (accepted : (env.sealPassResult journal kind).Returns log next) :
    Follows Archive.write (env.WriteStep manifest cause) archive log ∧
      env.Live manifest (writeAll archive log) next := by
  unfold Environment.sealPassResult at accepted
  simp only [returns_lift_bind_iff, returns_writeModel_bind_iff, returns_pure_iff, mapM_eq_ok_iff]
    at accepted
  obtain ⟨plan, found, results, computed, passResult, built, -, rest,
    ⟨middle, retained, _, -, rfl, rfl⟩, rfl⟩ := accepted
  have planned : archive.plans[archive.passResults.length]? = some plan := by
    unfold planToSeal at found
    rw [live.sameArchive] at found
    cases lookup : archive.plans[archive.passResults.length]? with
    | none =>
        rw [lookup] at found
        cases found
    | some other =>
        rw [lookup] at found
        simp only [raiseIf_bind_eq_ok_iff, Except.ok.injEq] at found
        rw [found.2]
  have credited : (plan.tasks.map fun task => env.credited? archive (env.taskId task)) =
      results.map some :=
    map_eq_map_of_agrees (fun task result same => live.credited_of_exactTaskResult same) computed
  have step : env.WriteStep manifest cause archive (.passResult passResult) :=
    .passResult planned ⟨results, credited, built⟩
  refine ⟨⟨step, trivial⟩, ?_⟩
  unfold Environment.retainPassResult at retained
  simp only [bind_eq_ok_iff, Except.ok.injEq] at retained
  obtain ⟨_, -, rfl⟩ := retained
  exact {
    sameArchive := by rw [writeAll, ← live.sameArchive]; rfl
    sameManifest := live.sameManifest
    indexed := live.indexed.addPassResult passResult
    coherent := live.coherent.write step
    resting := live.resting }

end Sealing

/-- An accepted transition writes admissible files and leaves a live journal. -/
theorem Live.perform (live : env.Live manifest archive journal) {operation : Operation Sha Payload}
    (accepted : (env.perform journal operation).Returns log next) :
    Follows Archive.write (env.WriteStep manifest (.call archive)) archive log ∧
      env.Live manifest (writeAll archive log) next := by
  cases operation with
  | sealPassPlan plan => exact live.sealPassPlan accepted
  | activateTask taskId material => exact live.activateTask accepted
  | markDispatched taskId => exact live.markDispatched accepted
  | persistOutput taskId arguments => exact live.persistOutput accepted
  | persistProviderAttempt taskId usage => exact live.persistProviderAttempt accepted
  | recordTerminal result => exact live.recordTerminal accepted
  | recordPreflightFailure result => exact live.recordPreflightFailure accepted
  | recordActivatedPreflightFailure result =>
      exact live.recordActivatedPreflightFailure accepted
  | sealPassResult kind => exact live.sealPassResult accepted

end Environment

end Scheduler

end MmAudit
