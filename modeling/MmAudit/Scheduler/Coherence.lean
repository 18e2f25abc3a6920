import MmAudit.Scheduler.Writing

/-!
# Coherence is kept

Every write of a transition or of a recovery keeps the archive coherent, and so
does listing the files in another order.
-/

set_option linter.unusedSectionVars false

namespace MmAudit

namespace Scheduler

open Fallible Keyed

namespace Environment

variable {Sha Payload : Type} [LinearOrder Sha] [DecidableEq Payload]

section Steps

variable {env : Environment Sha Payload} {manifest : CampaignManifest Sha}
  {cause : Cause Sha Payload} {archive : Archive Sha Payload} {plan : PassPlan Sha}
  {task : TaskPlan Sha}

/-! ## Events and phases -/

section Reports

variable {view : TaskView Sha Payload} {kind : EventKind}
  {activation : Option (TaskActivation Sha)} {result : Option (TaskResult Sha)}

theorem Report.planned_eq
    (report : env.Report cause plan task view kind activation result) :
    view.planned = some (task, plan) := by
  cases report <;> rfl

theorem Report.credited_eq
    (report : env.Report cause plan task view kind activation result) :
    view.credited = none := by
  cases report <;> rfl

theorem Report.activation_eq
    (report : env.Report cause plan task view kind activation result)
    {given : TaskActivation Sha} (same : activation = some given) :
    view.activation = some given := by
  cases report <;> simp_all

theorem Report.result_mem
    (report : env.Report cause plan task view kind activation result)
    {given : TaskResult Sha} (same : result = some given) : given ∈ view.observations := by
  cases report with
  | terminal credits =>
      obtain rfl := Option.some.inj same
      cases cause with
      | call start =>
          rw [credits.1]
          exact List.mem_singleton_self _
      | recovery => exact credits.1
  | planned | activated | dispatched | preflight | activatedPreflight => simp_all

theorem Report.isTerminal_iff
    (report : env.Report cause plan task view kind activation result) :
    kind.IsTerminal ↔ result.isSome := by
  cases report <;> simp [EventKind.IsTerminal]

theorem observed_nothing {given : TaskActivation Sha} {dispatch : TaskEvent Sha}
    {output : Option (TaskOutput Sha Payload)} :
    env.Observed plan task given dispatch output [] none none where
  perm := .nil
  recorded _ impossible := nomatch impossible
  recovered _ impossible := nomatch impossible

/-- The result that a terminal event credits is the one that recovery added, if
there is one. -/
theorem Observed.selected {given : TaskActivation Sha} {dispatch : TaskEvent Sha}
    {output : Option (TaskOutput Sha Payload)} {observations : List (TaskResult Sha)}
    {recorded recovered : Option (TaskResult Sha)} {credited : TaskResult Sha}
    (observed : env.Observed plan task given dispatch output observations recorded recovered)
    (credits : env.Credits cause plan task given dispatch observations credited) :
    recovered = some credited ∨ recovered = none ∧ recorded = some credited := by
  have member : credited ∈ recorded.toList ++ recovered.toList := by
    rw [← observed.perm.mem_iff]
    cases cause with
    | call start => simp [credits.1]
    | recovery => exact credits.1
  cases recovered with
  | none => exact .inr ⟨rfl, by simpa using member⟩
  | some uncertain =>
      left
      cases cause with
      | recovery =>
          have built := observed.recovered uncertain rfl
          rw [credits.2] at built
          exact congrArg some (Except.ok.inj built).symm
      | call start =>
          have alone := observed.perm.length_eq
          rw [credits.1, List.length_append] at alone
          have nothingRecorded : recorded = none := by
            cases recorded with
            | none => rfl
            | some other => simp at alone
          rw [nothingRecorded] at member
          simpa [eq_comm] using member

/-- An event moves its task to the next phase. -/
theorem Phase.report (phase : env.Phase view)
    (report : env.Report cause plan task view kind activation result) {event : TaskEvent Sha}
    (sameKind : event.kind = kind) :
    env.Phase { view with history := view.history ++ [event], credited := result } := by
  cases report with
  | planned => exact .planned sameKind
  | activated =>
      cases phase with
      | activating firstKind exact_ => exact .activated firstKind sameKind exact_
  | dispatched =>
      cases phase with
      | activated firstKind secondKind exact_ =>
          exact .dispatched firstKind secondKind sameKind exact_ .nothing observed_nothing
  | preflight =>
      cases phase with
      | preflightFailing firstKind built => exact .preflightFailed firstKind sameKind built
  | activatedPreflight =>
      cases phase with
      | activatedFailing firstKind secondKind exact_ failure built =>
          exact .activatedFailed firstKind secondKind sameKind exact_ failure built
  | terminal credits =>
      cases phase with
      | dispatched firstKind secondKind dispatchKind exact_ retains observed =>
          exact .concluded firstKind secondKind dispatchKind sameKind exact_ retains observed
            (observed.selected credits)

end Reports

/-! ## The single writes -/

section Keeping

/-- The parts of coherence that a write keeps unless it is a plan, a pass result
or an event. -/
theorem Coherent.exactEvents_write (coherent : env.Coherent manifest archive)
    (artifact : Artifact Sha Payload) {before after : List (TaskEvent Sha)}
    {event : TaskEvent Sha} (split : archive.events = before ++ event :: after) :
    env.ExactEvent (archive.write artifact) before event := by
  refine (coherent.exactEvents before event after split).mono ?_ ?_ ?_
  · cases artifact with
    | plan plan =>
        rw [Archive.write, plannedTasks_append_singleton]
        exact List.subset_append_left _ _
    | activation | event | output | providerAttempt | taskResult | passResult =>
        exact List.Subset.refl _
  · cases artifact with
    | activation activation => exact List.subset_append_left _ _
    | plan | event | output | providerAttempt | taskResult | passResult =>
        exact List.Subset.refl _
  · cases artifact with
    | taskResult result => exact List.subset_append_left _ _
    | plan | activation | event | output | providerAttempt | passResult =>
        exact List.Subset.refl _

theorem Coherent.results_write (coherent : env.Coherent manifest archive)
    (artifact : Artifact Sha Payload) (ordinal : ℕ) (passResult : PassResult Sha)
    (found : archive.passResults[ordinal]? = some passResult) :
    ∃ plan, (archive.write artifact).plans[ordinal]? = some plan ∧
      env.SealedPass (archive.write artifact) plan passResult := by
  obtain ⟨plan, planFound, sealed_⟩ := coherent.results ordinal passResult found
  refine ⟨plan, ?_, coherent.sealedPass_write sealed_ artifact⟩
  cases artifact with
  | plan added =>
      rw [Archive.write, List.getElem?_append_left, planFound]
      exact (List.getElem?_eq_some_iff.mp planFound).choose
  | activation | event | output | providerAttempt | taskResult | passResult => exact planFound

theorem mem_of_planned {taskId : Sha}
    (planned : (env.view archive taskId).planned = some (task, plan)) :
    (task, plan) ∈ Archive.plannedTasks archive.plans ∧ env.taskId task = taskId := by
  change env.plannedTask? archive taskId = some (task, plan) at planned
  unfold plannedTask? at planned
  exact ⟨List.mem_of_find?_eq_some planned, by simpa using List.find?_some planned⟩

end Keeping

theorem Coherent.write_activation (coherent : env.Coherent manifest archive)
    {activation : TaskActivation Sha} {first : TaskEvent Sha}
    (before : env.view archive (env.taskId task) =
      ⟨some (task, plan), [first], none, none, none, [], none⟩)
    (exact_ : env.requireExactTask activation plan task = .ok ()) :
    env.Coherent manifest (archive.write (.activation activation)) := by
  have sameTask : activation.taskId = env.taskId task := (requireExactTask_spec exact_).2.1
  have absent : archive.activation? activation.taskId = none := by
    rw [sameTask]
    exact congrArg TaskView.activation before
  refine { coherent with
    distinctActivations := nodup_append_singleton coherent.distinctActivations absent
    phases := fun taskId => ?_
    exactEvents := fun _ _ _ split => coherent.exactEvents_write _ split
    results := coherent.results_write _ }
  rw [view_write_activation]
  by_cases same : activation.taskId = taskId
  · subst same
    have phase := coherent.phases activation.taskId
    rw [absent, Option.none_or, if_pos rfl, sameTask]
    rw [sameTask, before] at phase
    rw [before]
    cases phase with
    | planned firstKind => exact .activating firstKind exact_
  · rw [if_neg same, Option.or_none]
    exact coherent.phases taskId

theorem Coherent.write_output (coherent : env.Coherent manifest archive)
    {activation : TaskActivation Sha} {first second dispatch : TaskEvent Sha}
    {arguments : OutputArguments Sha Payload} {output : TaskOutput Sha Payload}
    (before : env.view archive (env.taskId task) =
      ⟨some (task, plan), [first, second, dispatch], some activation, none, none, [], none⟩)
    (built : env.buildOutput plan task activation arguments = .ok output) :
    env.Coherent manifest (archive.write (.output output)) := by
  have sameTask : output.taskId = env.taskId task := (buildOutput_spec built).2.1
  have absent : archive.output? output.taskId = none := by
    rw [sameTask]
    exact congrArg TaskView.output before
  refine { coherent with
    distinctOutputs := nodup_append_singleton coherent.distinctOutputs absent
    phases := fun taskId => ?_
    exactEvents := fun _ _ _ split => coherent.exactEvents_write _ split
    results := coherent.results_write _ }
  rw [view_write_output]
  by_cases same : output.taskId = taskId
  · subst same
    have phase := coherent.phases output.taskId
    rw [absent, Option.none_or, if_pos rfl, sameTask]
    rw [sameTask, before] at phase
    rw [before]
    cases phase with
    | dispatched firstKind secondKind dispatchKind exact_ retains observed =>
        exact .dispatched firstKind secondKind dispatchKind exact_ (.output built)
          observed_nothing
  · rw [if_neg same, Option.or_none]
    exact coherent.phases taskId

theorem Coherent.write_providerAttempt (coherent : env.Coherent manifest archive)
    {activation : TaskActivation Sha} {first second dispatch : TaskEvent Sha}
    {usage : UsageRecord Sha} {attempt : ProviderAttemptEvidence Sha}
    (before : env.view archive (env.taskId task) =
      ⟨some (task, plan), [first, second, dispatch], some activation, none, none, [], none⟩)
    (built : env.buildProviderAttempt task activation usage = .ok attempt) :
    env.Coherent manifest (archive.write (.providerAttempt attempt)) := by
  have sameTask : attempt.taskId = env.taskId task := (buildProviderAttempt_spec built).1
  have absent : archive.providerAttempt? attempt.taskId = none := by
    rw [sameTask]
    exact congrArg TaskView.attempt before
  refine { coherent with
    distinctAttempts := nodup_append_singleton coherent.distinctAttempts absent
    phases := fun taskId => ?_
    exactEvents := fun _ _ _ split => coherent.exactEvents_write _ split
    results := coherent.results_write _ }
  rw [view_write_providerAttempt]
  by_cases same : attempt.taskId = taskId
  · subst same
    have phase := coherent.phases attempt.taskId
    rw [absent, Option.none_or, if_pos rfl, sameTask]
    rw [sameTask, before] at phase
    rw [before]
    cases phase with
    | dispatched firstKind secondKind dispatchKind exact_ retains observed =>
        exact .dispatched firstKind secondKind dispatchKind exact_ (.attempt built)
          observed_nothing
  · rw [if_neg same, Option.or_none]
    exact coherent.phases taskId

/-- A result that brings its task into another phase. -/
theorem Coherent.write_taskResult (coherent : env.Coherent manifest archive)
    {result : TaskResult Sha} (fresh : env.resultByHash? archive (env.result result) = none)
    (phase : env.Phase { env.view archive result.taskId with
      observations := archive.observations result.taskId ++ [result] }) :
    env.Coherent manifest (archive.write (.taskResult result)) := by
  refine { coherent with
    distinctResults := nodup_append_singleton coherent.distinctResults fresh
    phases := fun taskId => ?_
    exactEvents := fun _ _ _ split => coherent.exactEvents_write _ split
    results := coherent.results_write _ }
  rw [view_write_taskResult taskId coherent.referred]
  by_cases same : result.taskId = taskId
  · subst same
    rw [if_pos rfl]
    exact phase
  · rw [if_neg same, List.append_nil]
    exact coherent.phases taskId

theorem Coherent.write_preflightResult (coherent : env.Coherent manifest archive)
    {first : TaskEvent Sha} {result : TaskResult Sha}
    (before : env.view archive (env.taskId task) =
      ⟨some (task, plan), [first], none, none, none, [], none⟩)
    (built : env.buildPreflightFailure plan task result.terminalStatus
      result.terminalEvidenceSha256 = .ok result)
    (fresh : env.resultByHash? archive (env.result result) = none) :
    env.Coherent manifest (archive.write (.taskResult result)) := by
  have sameTask : result.taskId = env.taskId task := (buildPreflightFailure_spec built).1.taskId
  have phase := coherent.phases (env.taskId task)
  have nothing : archive.observations (env.taskId task) = [] :=
    congrArg TaskView.observations before
  refine coherent.write_taskResult fresh ?_
  rw [sameTask, nothing, before]
  rw [before] at phase
  cases phase with
  | planned firstKind => exact .preflightFailing firstKind built

theorem Coherent.write_activatedResult (coherent : env.Coherent manifest archive)
    {first second : TaskEvent Sha} {activation : TaskActivation Sha} {result : TaskResult Sha}
    (before : env.view archive (env.taskId task) =
      ⟨some (task, plan), [first, second], some activation, none, none, [], none⟩)
    (failure : result.terminalStatus.IsActivatedPreflight)
    (built : env.buildTaskResult plan task activation result.terminalStatus
      result.terminalEvidenceSha256 none = .ok result)
    (fresh : env.resultByHash? archive (env.result result) = none) :
    env.Coherent manifest (archive.write (.taskResult result)) := by
  have sameTask : result.taskId = env.taskId task := (buildTaskResult_spec built).1.taskId
  have phase := coherent.phases (env.taskId task)
  have nothing : archive.observations (env.taskId task) = [] :=
    congrArg TaskView.observations before
  refine coherent.write_taskResult fresh ?_
  rw [sameTask, nothing, before]
  rw [before] at phase
  cases phase with
  | activated firstKind secondKind exact_ =>
      exact .activatedFailing firstKind secondKind exact_ failure built

theorem Coherent.write_recordedResult (coherent : env.Coherent manifest archive)
    {first second dispatch : TaskEvent Sha} {activation : TaskActivation Sha}
    {output : Option (TaskOutput Sha Payload)} {attempt : Option (ProviderAttemptEvidence Sha)}
    {result : TaskResult Sha}
    (before : env.view archive (env.taskId task) =
      ⟨some (task, plan), [first, second, dispatch], some activation, output, attempt, [], none⟩)
    (recorded : env.Recorded plan task activation output result)
    (fresh : env.resultByHash? archive (env.result result) = none) :
    env.Coherent manifest (archive.write (.taskResult result)) := by
  have sameTask : result.taskId = env.taskId task :=
    (buildTaskResult_spec recorded.built).1.taskId
  have phase := coherent.phases (env.taskId task)
  have nothing : archive.observations (env.taskId task) = [] :=
    congrArg TaskView.observations before
  refine coherent.write_taskResult fresh ?_
  rw [sameTask, nothing, before]
  rw [before] at phase
  cases phase with
  | dispatched firstKind secondKind dispatchKind exact_ retains observed =>
      have now : env.Observed plan task activation dispatch output [result] (some result) none := {
        perm := List.Perm.refl _
        recorded := fun other same => Option.some.inj same ▸ recorded
        recovered := fun _ impossible => nomatch impossible }
      exact .dispatched firstKind secondKind dispatchKind exact_ retains now

/-- The uncertain result of a task is the same whenever recovery builds it, so an
absent one was never retained. -/
theorem Observed.add_uncertain {activation : TaskActivation Sha} {dispatch : TaskEvent Sha}
    {output : Option (TaskOutput Sha Payload)} {observations : List (TaskResult Sha)}
    {recorded recovered : Option (TaskResult Sha)} {result : TaskResult Sha}
    (observed : env.Observed plan task activation dispatch output observations recorded recovered)
    (built : env.buildUncertain plan task activation dispatch = .ok result)
    (absent : result ∉ observations) :
    env.Observed plan task activation dispatch output (observations ++ [result]) recorded
      (some result) := by
  have nothingRecovered : recovered = none := by
    cases recovered with
    | none => rfl
    | some other =>
        have same := observed.recovered other rfl
        rw [built] at same
        obtain rfl := Except.ok.inj same
        exact absurd (observed.perm.mem_iff.mpr (by simp)) absent
  subst nothingRecovered
  refine ⟨?_, observed.recorded, fun other same => Option.some.inj same ▸ built⟩
  have perm := observed.perm
  rw [Option.toList_none, List.append_nil] at perm
  exact perm.append_right [result]

theorem Coherent.write_uncertainResult (coherent : env.Coherent manifest archive)
    {first second dispatch : TaskEvent Sha} {activation : TaskActivation Sha}
    {output : Option (TaskOutput Sha Payload)} {attempt : Option (ProviderAttemptEvidence Sha)}
    {observations : List (TaskResult Sha)} {result : TaskResult Sha}
    (before : env.view archive (env.taskId task) =
      ⟨some (task, plan), [first, second, dispatch], some activation, output, attempt,
        observations, none⟩)
    (built : env.buildUncertain plan task activation dispatch = .ok result)
    (absent : result ∉ observations)
    (fresh : env.resultByHash? archive (env.result result) = none) :
    env.Coherent manifest (archive.write (.taskResult result)) := by
  have sameTask : result.taskId = env.taskId task := (buildTaskResult_spec built).1.taskId
  have phase := coherent.phases (env.taskId task)
  have held : archive.observations (env.taskId task) = observations :=
    congrArg TaskView.observations before
  refine coherent.write_taskResult fresh ?_
  rw [sameTask, held, before]
  rw [before] at phase
  cases phase with
  | dispatched firstKind secondKind dispatchKind exact_ retains observed =>
      exact .dispatched firstKind secondKind dispatchKind exact_ retains
        (observed.add_uncertain built absent)

/-- The view of every task after an event. -/
theorem Coherent.view_write_event (coherent : env.Coherent manifest archive) {kind : EventKind}
    {activation : Option (TaskActivation Sha)} {result : Option (TaskResult Sha)}
    {event : TaskEvent Sha}
    (report : env.Report cause plan task (env.view archive (env.taskId task)) kind activation
      result)
    (built : env.nextEvent archive plan task kind activation result = .ok event) (taskId : Sha) :
    env.view (archive.write (.event event)) taskId =
      if env.taskId task = taskId then
        { env.view archive taskId with
          history := archive.history taskId ++ [event]
          credited := result }
      else env.view archive taskId := by
  unfold nextEvent at built
  obtain ⟨same, -⟩ := buildEvent_spec built
  have sameKind : event.kind = kind := by rw [same]; rfl
  have sameTask : event.taskId = env.taskId task := by rw [same]; rfl
  have reference : event.taskResultSha256 = result.map env.result := by rw [same]; rfl
  have uncredited : env.credited? archive (env.taskId task) = none := report.credited_eq
  rw [Environment.view_write_event, sameTask, sameKind, reference]
  · by_cases here : env.taskId task = taskId
    · subst here
      rw [if_pos rfl, if_pos rfl, uncredited]
      cases selected : result with
      | none =>
          have notTerminal : ¬ kind.IsTerminal := by
            rw [report.isTerminal_iff, selected]
            simp
          rw [if_neg notTerminal]
      | some given =>
          have terminal : kind.IsTerminal := by
            rw [report.isTerminal_iff, selected]
            rfl
          have member : given ∈ archive.observations (env.taskId task) :=
            report.result_mem selected
          rw [if_pos terminal, Option.map_some, Option.bind_some,
            coherent.resultByHash?_eq (List.mem_filter.mp member).1]
    · rw [if_neg here, if_neg here]
  · intro terminal
    rw [sameTask]
    exact find?_terminal_eq_none_of_credited? coherent.referred uncredited

/-- A planned task has one place. -/
theorem Coherent.split_unique (coherent : env.Coherent manifest archive)
    {entry : TaskPlan Sha × PassPlan Sha} {earlier later before after}
    (split : Archive.plannedTasks archive.plans = earlier ++ entry :: later)
    (place : Archive.plannedTasks archive.plans = before ++ entry :: after) :
    earlier = before ∧ later = after := by
  have distinct : (Archive.plannedTasks archive.plans).Nodup := coherent.distinctTasks.of_map _
  rw [split, List.nodup_append, List.nodup_cons] at distinct
  have notEarlier : entry ∉ earlier :=
    fun member => distinct.2.2 entry member entry List.mem_cons_self rfl
  have places := (List.append_cons_inj_of_notMem notEarlier distinct.2.1.1).mp
    (split.symm.trans place)
  exact ⟨places.1, places.2.2⟩

theorem Coherent.write_event (coherent : env.Coherent manifest archive) {kind : EventKind}
    {activation : Option (TaskActivation Sha)} {result : Option (TaskResult Sha)}
    {event : TaskEvent Sha}
    (report : env.Report cause plan task (env.view archive (env.taskId task)) kind activation
      result)
    (built : env.nextEvent archive plan task kind activation result = .ok event)
    (inOrder : env.InOrder archive (task, plan)) :
    env.Coherent manifest (archive.write (.event event)) := by
  have planned := mem_of_planned report.planned_eq
  have sameKind : event.kind = kind := by
    rw [(buildEvent_spec built).1]
    rfl
  refine { coherent with
    phases := fun taskId => ?_
    exactEvents := fun before other after split => ?_
    plannedInOrder := fun earlier entry later split begun => ?_
    results := coherent.results_write _ }
  · rw [coherent.view_write_event report built]
    by_cases here : env.taskId task = taskId
    · subst here
      rw [if_pos rfl]
      exact (coherent.phases (env.taskId task)).report report sameKind
    · rw [if_neg here]
      exact coherent.phases taskId
  · rcases append_singleton_eq_append_cons split with ⟨rfl, rfl⟩ | ⟨rest, old⟩
    · refine exactEvent_of_nextEvent built planned.1 ?_ ?_
      · intro given same
        exact List.mem_of_find?_eq_some (report.activation_eq same)
      · intro given same
        exact (List.mem_filter.mp (report.result_mem same)).1
    · exact coherent.exactEvents_write _ old
  · intro other member
    apply history_write_ne_nil
    by_cases before : archive.history (env.taskId entry.1) = []
    · -- The event is the first of its task.
      have sameTask : env.taskId entry.1 = env.taskId task := by
        by_contra different
        have unchanged := congrArg TaskView.history
          (coherent.view_write_event report built (env.taskId entry.1))
        rw [if_neg (Ne.symm different)] at unchanged
        exact begun (unchanged.trans before)
      have entryMem : entry ∈ Archive.plannedTasks archive.plans := by
        change Archive.plannedTasks archive.plans = _ at split
        rw [split]
        simp
      obtain rfl := eq_of_key_eq coherent.distinctTasks entryMem planned.1 sameTask
      obtain ⟨before, after, place, begunBefore⟩ := inOrder
      change Archive.plannedTasks archive.plans = _ at split
      obtain rfl := (coherent.split_unique split place).1
      exact begunBefore other member
    · exact coherent.plannedInOrder earlier entry later split before other member

/-- The planned tasks of a valid plan are distinct. -/
theorem nodup_of_validatePassPlan (valid : env.validatePassPlan plan = .ok ()) :
    (plan.tasks.map env.taskId).Nodup := by
  unfold validatePassPlan at valid
  simp only [bind_eq_ok_iff] at valid
  obtain ⟨_, -, _, -, _, -, _, sorted, -⟩ := valid
  rw [raiseIf_eq_ok_iff, not_not] at sorted
  exact sorted.imp fun less => ne_of_lt less

/-- Nothing is held about a task that no plan has. -/
theorem Coherent.view_of_unplanned (coherent : env.Coherent manifest archive) {taskId : Sha}
    (absent : env.plannedTask? archive taskId = none) :
    env.view archive taskId = ⟨none, [], none, none, none, [], none⟩ := by
  have phase := coherent.phases taskId
  have planned : (env.view archive taskId).planned = none := absent
  generalize env.view archive taskId = view at phase planned
  cases phase with
  | unplanned => rfl
  | _ => cases planned

theorem Coherent.write_plan (coherent : env.Coherent manifest archive)
    (next : env.SealedPlan manifest archive.passResults archive.plans.length plan)
    (finished : archive.passResults.length = archive.plans.length)
    (fresh : ∀ task ∈ plan.tasks, env.plannedTask? archive (env.taskId task) = none) :
    env.Coherent manifest (archive.write (.plan plan)) := by
  have tasks : Archive.plannedTasks (archive.write (.plan plan)).plans =
      Archive.plannedTasks archive.plans ++ plan.tasks.map fun task => (task, plan) :=
    plannedTasks_append_singleton _ _
  refine { coherent with
    distinctTasks := ?_
    phases := fun taskId => ?_
    exactEvents := fun _ _ _ split => coherent.exactEvents_write _ split
    plannedInOrder := fun earlier entry later split begun => ?_
    resultsFollowPlans := ?_
    plansFollowResults := ?_
    plans := fun ordinal other found => ?_
    results := coherent.results_write _ }
  · rw [tasks, List.map_append, List.nodup_append]
    have sameKeys : (plan.tasks.map fun task => (task, plan)).map
        (fun entry => env.taskId entry.1) = plan.tasks.map env.taskId := by
      rw [List.map_map]
      rfl
    refine ⟨coherent.distinctTasks, sameKeys ▸ nodup_of_validatePassPlan next.valid, ?_⟩
    intro first firstMem second secondMem same
    rw [sameKeys] at secondMem
    obtain ⟨task, member, rfl⟩ := List.mem_map.mp secondMem
    exact (find?_eq_none_iff _ _).mp (fresh task member) (same ▸ firstMem)
  · rw [view_write_plan]
    cases old : env.plannedTask? archive taskId with
    | some entry =>
        rw [Option.some_or, ← old]
        exact coherent.phases taskId
    | none =>
        rw [Option.none_or, coherent.view_of_unplanned old]
        cases (plan.tasks.map fun task => (task, plan)).find? fun entry =>
            env.taskId entry.1 = taskId with
        | none => exact .unplanned
        | some entry => exact .waiting
  · rw [tasks] at split
    change archive.history (env.taskId entry.1) ≠ [] at begun
    rcases List.append_eq_append_iff.mp split with ⟨middle, -, second⟩ | ⟨middle, first, second⟩
    · -- The task belongs to the new plan, so it has no events yet.
      have member : entry ∈ plan.tasks.map fun task => (task, plan) := by
        rw [second]
        simp
      obtain ⟨task, taskMem, rfl⟩ := List.mem_map.mp member
      have empty := congrArg TaskView.history (coherent.view_of_unplanned (fresh task taskMem))
      exact absurd empty begun
    · cases middle with
      | nil =>
          have member : entry ∈ plan.tasks.map fun task => (task, plan) := by
            rw [List.nil_append] at second
            rw [← second]
            exact List.mem_cons_self
          obtain ⟨task, taskMem, rfl⟩ := List.mem_map.mp member
          have empty := congrArg TaskView.history (coherent.view_of_unplanned (fresh task taskMem))
          exact absurd empty begun
      | cons head middle =>
          obtain ⟨rfl, -⟩ := List.cons.inj second
          exact coherent.plannedInOrder earlier entry middle first begun
  · change archive.passResults.length ≤ (archive.plans ++ [plan]).length
    rw [List.length_append]
    omega
  · change (archive.plans ++ [plan]).length ≤ archive.passResults.length + 1
    rw [List.length_append, List.length_singleton]
    omega
  · change env.SealedPlan manifest (archive.passResults.take ordinal) ordinal other
    change (archive.plans ++ [plan])[ordinal]? = some other at found
    rcases Nat.lt_or_ge ordinal archive.plans.length with old | new
    · rw [List.getElem?_append_left old] at found
      exact coherent.plans ordinal other found
    · rw [List.getElem?_append_right new] at found
      obtain ⟨less, -⟩ := List.getElem?_eq_some_iff.mp found
      rw [List.length_singleton] at less
      obtain rfl : ordinal = archive.plans.length := by omega
      obtain rfl : plan = other := by simpa using found
      have whole : archive.passResults.take archive.plans.length = archive.passResults := by
        rw [← finished, List.take_length]
      rw [whole]
      exact next

theorem Coherent.write_passResult (coherent : env.Coherent manifest archive)
    {passResult : PassResult Sha}
    (next : archive.plans[archive.passResults.length]? = some plan)
    (sealed_ : env.SealedPass archive plan passResult) :
    env.Coherent manifest (archive.write (.passResult passResult)) := by
  have bound : archive.passResults.length < archive.plans.length :=
    (List.getElem?_eq_some_iff.mp next).choose
  have counts := coherent.plansFollowResults
  refine { coherent with
    resultsFollowPlans := ?_
    plansFollowResults := ?_
    plans := fun ordinal other found => ?_
    results := fun ordinal other found => ?_ }
  · change (archive.passResults ++ [passResult]).length ≤ archive.plans.length
    rw [List.length_append, List.length_singleton]
    omega
  · change archive.plans.length ≤ (archive.passResults ++ [passResult]).length + 1
    rw [List.length_append]
    omega
  · change env.SealedPlan manifest ((archive.passResults ++ [passResult]).take ordinal) ordinal
      other
    have less : ordinal < archive.plans.length := (List.getElem?_eq_some_iff.mp found).choose
    rw [List.take_append_of_le_length (by omega)]
    exact coherent.plans ordinal other found
  · change (archive.passResults ++ [passResult])[ordinal]? = some other at found
    rcases Nat.lt_or_ge ordinal archive.passResults.length with old | new
    · rw [List.getElem?_append_left old] at found
      exact coherent.results_write (.passResult passResult) ordinal other found
    · rw [List.getElem?_append_right new] at found
      obtain ⟨less, -⟩ := List.getElem?_eq_some_iff.mp found
      rw [List.length_singleton] at less
      obtain rfl : ordinal = archive.passResults.length := by omega
      obtain rfl : passResult = other := by simpa using found
      exact ⟨plan, next, coherent.sealedPass_write sealed_ _⟩

/-- Every write of a transition or of a recovery keeps the archive coherent. -/
theorem Coherent.write (coherent : env.Coherent manifest archive)
    {artifact : Artifact Sha Payload} (step : env.WriteStep manifest cause archive artifact) :
    env.Coherent manifest (archive.write artifact) := by
  cases step with
  | plan next finished fresh => exact coherent.write_plan next finished fresh
  | activation before exact_ => exact coherent.write_activation before exact_
  | output before built => exact coherent.write_output before built
  | attempt before built => exact coherent.write_providerAttempt before built
  | preflightResult before built fresh => exact coherent.write_preflightResult before built fresh
  | activatedResult before failure built fresh =>
      exact coherent.write_activatedResult before failure built fresh
  | recordedResult before recorded fresh =>
      exact coherent.write_recordedResult before recorded fresh
  | uncertainResult recovery before built absent fresh =>
      exact coherent.write_uncertainResult before built absent fresh
  | event report built inOrder => exact coherent.write_event report built inOrder
  | passResult next sealed_ => exact coherent.write_passResult next sealed_

end Steps

/-! ## The events of one task -/

section Once

variable {env : Environment Sha Payload} {manifest : CampaignManifest Sha}
  {archive : Archive Sha Payload}

/-- A task has at most one dispatch and at most one terminal event. -/
theorem Coherent.atMostOnce (coherent : env.Coherent manifest archive) (taskId : Sha) :
    ((archive.history taskId).filter (·.kind = .dispatched)).length ≤ 1 ∧
      ((archive.history taskId).filter (·.kind.IsTerminal)).length ≤ 1 := by
  have phase := coherent.phases taskId
  change ((env.view archive taskId).history.filter _).length ≤ 1 ∧
    ((env.view archive taskId).history.filter _).length ≤ 1
  generalize env.view archive taskId = view at phase
  cases phase <;> simp_all [EventKind.IsTerminal]

/-- A task has no two events of the same kind. -/
theorem Coherent.nodup_kinds (coherent : env.Coherent manifest archive) (taskId : Sha) :
    (archive.kinds taskId).Nodup := by
  have phase := coherent.phases taskId
  change ((env.view archive taskId).history.map (·.kind)).Nodup
  generalize env.view archive taskId = view at phase
  cases phase <;> simp_all

end Once

/-! ## The order of the files -/

section Orders

variable {env : Environment Sha Payload} {manifest : CampaignManifest Sha}
  {archive other : Archive Sha Payload}

/-- Two archives with the same files, listed in different orders. -/
structure SameFiles (archive other : Archive Sha Payload) : Prop where
  plans : other.plans = archive.plans
  activations : other.activations.Perm archive.activations
  events : other.events = archive.events
  outputs : other.outputs.Perm archive.outputs
  providerAttempts : other.providerAttempts.Perm archive.providerAttempts
  resultObservations : other.resultObservations.Perm archive.resultObservations
  passResults : other.passResults = archive.passResults

theorem sameFiles_canonical (env : Environment Sha Payload) (archive : Archive Sha Payload) :
    SameFiles archive (env.canonical archive) where
  plans := rfl
  activations := List.perm_insertionSort _ _
  events := rfl
  outputs := List.perm_insertionSort _ _
  providerAttempts := List.perm_insertionSort _ _
  resultObservations := List.perm_insertionSort _ _
  passResults := rfl

theorem SameFiles.history (same : SameFiles archive other) (taskId : Sha) :
    other.history taskId = archive.history taskId := by
  rw [Archive.history, Archive.history, same.events]

theorem SameFiles.observations (same : SameFiles archive other) (taskId : Sha) :
    (other.observations taskId).Perm (archive.observations taskId) :=
  same.resultObservations.filter _

theorem SameFiles.credited? (same : SameFiles archive other)
    (coherent : env.Coherent manifest archive) (taskId : Sha) :
    env.credited? other taskId = env.credited? archive taskId := by
  have lookup : env.resultByHash? other = env.resultByHash? archive :=
    funext fun sha => (find?_perm same.resultObservations.symm coherent.distinctResults sha).symm
  rw [Environment.credited?, Environment.credited?, same.history, lookup]

/-- A view changes only in the order of the results. -/
theorem SameFiles.view (same : SameFiles archive other) (coherent : env.Coherent manifest archive)
    (taskId : Sha) :
    env.view other taskId =
      { env.view archive taskId with observations := other.observations taskId } := by
  have planned : env.plannedTask? other taskId = env.plannedTask? archive taskId := by
    rw [plannedTask?, plannedTask?, same.plans]
  have activation : other.activation? taskId = archive.activation? taskId :=
    (find?_perm same.activations.symm coherent.distinctActivations taskId).symm
  have output : other.output? taskId = archive.output? taskId :=
    (find?_perm same.outputs.symm coherent.distinctOutputs taskId).symm
  have attempt : other.providerAttempt? taskId = archive.providerAttempt? taskId :=
    (find?_perm same.providerAttempts.symm coherent.distinctAttempts taskId).symm
  rw [Environment.view, planned, same.history, activation, output, attempt,
    same.credited? coherent]
  rfl

/-- Coherence does not depend on the order of the files. -/
theorem Coherent.of_sameFiles (coherent : env.Coherent manifest archive)
    (same : SameFiles archive other) : env.Coherent manifest other where
  distinctTasks := same.plans ▸ coherent.distinctTasks
  distinctActivations :=
    (same.activations.map _).nodup_iff.mpr coherent.distinctActivations
  distinctOutputs := (same.outputs.map _).nodup_iff.mpr coherent.distinctOutputs
  distinctAttempts := (same.providerAttempts.map _).nodup_iff.mpr coherent.distinctAttempts
  distinctResults := (same.resultObservations.map _).nodup_iff.mpr coherent.distinctResults
  phases taskId := by
    rw [same.view coherent]
    exact (coherent.phases taskId).of_perm (same.observations taskId) rfl
  exactEvents before event after split := by
    rw [same.events] at split
    refine (coherent.exactEvents before event after split).mono ?_ same.activations.symm.subset
      same.resultObservations.symm.subset
    rw [same.plans]
    exact List.Subset.refl _
  plannedInOrder earlier entry later split begun member memberMem := by
    rw [same.plans] at split
    rw [same.history] at begun ⊢
    exact coherent.plannedInOrder earlier entry later split begun member memberMem
  resultsFollowPlans := by
    rw [same.plans, same.passResults]
    exact coherent.resultsFollowPlans
  plansFollowResults := by
    rw [same.plans, same.passResults]
    exact coherent.plansFollowResults
  plans ordinal plan found := by
    rw [same.plans] at found
    rw [same.passResults]
    exact coherent.plans ordinal plan found
  results ordinal passResult found := by
    rw [same.passResults] at found
    obtain ⟨plan, planFound, results, credited, built⟩ :=
      coherent.results ordinal passResult found
    refine ⟨plan, by rw [same.plans, planFound], results, ?_, built⟩
    rw [← credited]
    exact List.map_congr_left fun task _ => same.credited? coherent (env.taskId task)

end Orders

end Environment

end Scheduler

end MmAudit
