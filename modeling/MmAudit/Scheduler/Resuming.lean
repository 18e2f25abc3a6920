import MmAudit.Scheduler.Transitions

/-!
# The recovery writes admissible files

Recovery walks three times over all planned tasks.  Each walk settles the tasks
one by one: the first plans them, the second reports their activations, and the
third concludes them.  A task that the walk has not reached is untouched.

Between the uncertain result of a task and its terminal event the archive is
disturbed when the task has an output: the loader refuses such an archive.
-/

set_option linter.unusedSectionVars false

namespace MmAudit

namespace Scheduler

open Fallible Keyed Logged

namespace Environment

variable {Sha Payload : Type} [LinearOrder Sha] [DecidableEq Payload]

/-- A retained output beside an uncredited result that is no success. -/
def Disturbed (view : TaskView Sha Payload) : Prop :=
  view.output.isSome ∧ view.credited = none ∧
    ∃ result ∈ view.observations, result.terminalStatus ≠ .succeeded

/-- The uncertain result that recovery builds for a dispatched task of an
archive. -/
def UncertainOf (env : Environment Sha Payload) (archive : Archive Sha Payload)
    (result : TaskResult Sha) : Prop :=
  ∃ task plan activation dispatch, (task, plan) ∈ Archive.plannedTasks archive.plans ∧
    activation ∈ archive.activations ∧ dispatch ∈ archive.history result.taskId ∧
    dispatch.kind = .dispatched ∧ env.buildUncertain plan task activation dispatch = .ok result

/-- A write of recovery: events and uncertain results, and a disturbed task is
concluded at once. -/
structure RecoveryStep (env : Environment Sha Payload) (manifest : CampaignManifest Sha)
    (archive : Archive Sha Payload) (artifact : Artifact Sha Payload) : Prop where
  step : env.WriteStep manifest .recovery archive artifact
  writes : (∃ event : TaskEvent Sha, artifact = .event event) ∨
    ∃ result, artifact = .taskResult result ∧ env.UncertainOf archive result
  settles : ∀ taskId, Disturbed (env.view archive taskId) →
    ∃ event : TaskEvent Sha, artifact = .event event ∧ event.taskId = taskId ∧
      event.kind = .terminal

variable {env : Environment Sha Payload} {manifest : CampaignManifest Sha}
  {base store : Archive Sha Payload} {journal next snapshot : Journal Sha Payload}
  {plan : PassPlan Sha} {task : TaskPlan Sha} {settled : TaskView Sha Payload → Prop}
  {remaining : List (TaskPlan Sha × PassPlan Sha)}

/-! ## Walks -/

section Walks

/-- A walk that started with an archive and has some tasks left. -/
structure Walk (env : Environment Sha Payload) (manifest : CampaignManifest Sha)
    (base : Archive Sha Payload) (settled : TaskView Sha Payload → Prop)
    (remaining : List (TaskPlan Sha × PassPlan Sha)) (journal : Journal Sha Payload)
    (store : Archive Sha Payload) : Prop where
  tracks : env.Tracks manifest store journal
  plans : store.plans = base.plans
  undisturbed : ∀ taskId, ¬ Disturbed (env.view store taskId)
  untouched : ∀ entry ∈ remaining,
    env.view store (env.taskId entry.1) = env.view base (env.taskId entry.1)
  passed : ∃ done, Archive.plannedTasks base.plans = done ++ remaining ∧
    ∀ entry ∈ done, settled (env.view store (env.taskId entry.1))

theorem Walk.begin_ (tracks : env.Tracks manifest store journal)
    (undisturbed : ∀ taskId, ¬ Disturbed (env.view store taskId)) :
    env.Walk manifest store settled (Archive.plannedTasks store.plans) journal store where
  tracks := tracks
  plans := rfl
  undisturbed := undisturbed
  untouched _ _ := rfl
  passed := ⟨[], rfl, fun _ impossible => nomatch impossible⟩

/-- At its end a walk has settled every planned task. -/
theorem Walk.settled_of_finished (walk : env.Walk manifest base settled [] journal store)
    {entry : TaskPlan Sha × PassPlan Sha} (member : entry ∈ Archive.plannedTasks base.plans) :
    settled (env.view store (env.taskId entry.1)) := by
  obtain ⟨done, split, holds⟩ := walk.passed
  rw [List.append_nil] at split
  exact holds entry (split ▸ member)

/-- The task that a walk reaches is planned. -/
theorem Walk.planned (walk : env.Walk manifest base settled ((task, plan) :: remaining) journal
    store) : (task, plan) ∈ Archive.plannedTasks store.plans ∧
      (env.view base (env.taskId task)).planned = some (task, plan) := by
  obtain ⟨done, split, -⟩ := walk.passed
  have member : (task, plan) ∈ Archive.plannedTasks store.plans := by
    rw [walk.plans, split]
    simp
  refine ⟨member, ?_⟩
  rw [← walk.untouched (task, plan) List.mem_cons_self]
  exact walk.tracks.coherent.plannedTask?_eq_some_iff.mpr ⟨member, rfl⟩

/-- The tasks that a walk has left have other identities. -/
theorem Walk.distinct (walk : env.Walk manifest base settled ((task, plan) :: remaining) journal
    store) {entry : TaskPlan Sha × PassPlan Sha} (member : entry ∈ remaining) :
    env.taskId entry.1 ≠ env.taskId task := by
  obtain ⟨done, split, -⟩ := walk.passed
  have all := walk.tracks.coherent.distinctTasks
  rw [walk.plans, split, List.map_append, List.map_cons] at all
  have tail := (List.nodup_append.mp all).2.1
  intro same
  exact (List.nodup_cons.mp tail).1 (same ▸ List.mem_map_of_mem member)

/-- A task that needs nothing is passed. -/
theorem Walk.skip (walk : env.Walk manifest base settled ((task, plan) :: remaining) journal store)
    (holds : settled (env.view base (env.taskId task))) :
    env.Walk manifest base settled remaining journal store := by
  obtain ⟨done, split, before⟩ := walk.passed
  refine { walk with
    untouched := fun entry member => walk.untouched entry (List.mem_cons_of_mem _ member)
    passed := ⟨done ++ [(task, plan)], by simp [split], fun entry member => ?_⟩ }
  rcases List.mem_append.mp member with old | new
  · exact before entry old
  · obtain rfl := List.mem_singleton.mp new
    rw [walk.untouched _ List.mem_cons_self]
    exact holds

/-- An event about the task that a walk has reached settles it.  In between, only
this task may have changed. -/
theorem Walk.conclude
    (walk : env.Walk manifest base settled ((task, plan) :: remaining) journal store)
    {current : Archive Sha Payload} {now : Journal Sha Payload}
    (tracks : env.Tracks manifest current now) (plans : current.plans = store.plans)
    (others : ∀ taskId, taskId ≠ env.taskId task →
      env.view current taskId = env.view store taskId)
    {kind : EventKind} {requestId : Option Sha} {activation : Option (TaskActivation Sha)}
    {result : Option (TaskResult Sha)}
    (report : env.Report .recovery plan task (env.view current (env.taskId task)) kind activation
      result)
    (request : requestId = env.eventRequestId kind task)
    (inOrder : env.InOrder current (task, plan))
    (calm : Disturbed (env.view current (env.taskId task)) → kind = .terminal)
    (holds : ∀ event, settled { env.view current (env.taskId task) with
      history := current.history (env.taskId task) ++ [event], credited := result }) :
    Writes Archive.write (env.RecoveryStep manifest) current
      (env.appendEvent now plan task kind requestId activation result)
      (env.Walk manifest base settled remaining) := by
  refine (tracks.appendEvent report request inOrder fun event built step => ?_).mono ?_
  · refine ⟨step, .inl ⟨event, rfl⟩, fun taskId disturbed => ⟨event, rfl, ?_⟩⟩
    unfold nextEvent at built
    obtain ⟨same, -⟩ := buildEvent_spec built
    by_cases here : taskId = env.taskId task
    · rw [same]
      exact ⟨here.symm, calm (here ▸ disturbed)⟩
    · rw [others taskId here] at disturbed
      exact absurd disturbed (walk.undisturbed taskId)
  · rintro next _ ⟨event, built, rfl, tracked⟩
    have views := tracks.coherent.view_write_event report built
    have own := views (env.taskId task)
    rw [if_pos rfl] at own
    have other : ∀ taskId, taskId ≠ env.taskId task →
        env.view (current.write (.event event)) taskId = env.view store taskId := by
      intro taskId different
      rw [views, if_neg (Ne.symm different), others taskId different]
    obtain ⟨done, split, before⟩ := walk.passed
    have distinctDone : ∀ entry ∈ done, env.taskId entry.1 ≠ env.taskId task := by
      intro entry member same
      have all := walk.tracks.coherent.distinctTasks
      rw [walk.plans, split, List.map_append, List.map_cons] at all
      exact (List.nodup_append.mp all).2.2 _ (List.mem_map_of_mem member) _ List.mem_cons_self same
    exact {
      tracks := tracked
      plans := plans.trans walk.plans
      undisturbed := fun taskId => by
        by_cases here : taskId = env.taskId task
        · subst here
          rw [own]
          rintro ⟨output, uncredited, unsuccessful⟩
          have nonterminal : ¬ kind.IsTerminal := by
            rw [report.isTerminal_iff]
            change result = none at uncredited
            simp [uncredited]
          have disturbed : Disturbed (env.view current (env.taskId task)) :=
            ⟨output, report.credited_eq, unsuccessful⟩
          rw [calm disturbed] at nonterminal
          simp [EventKind.IsTerminal] at nonterminal
        · rw [other taskId here]
          exact walk.undisturbed taskId
      untouched := fun entry member => by
        rw [other _ (walk.distinct member)]
        exact walk.untouched entry (List.mem_cons_of_mem _ member)
      passed := ⟨done ++ [(task, plan)], by simp [split], fun entry member => by
        rcases List.mem_append.mp member with old | new
        · rw [other _ (distinctDone entry old)]
          exact before entry old
        · obtain rfl := List.mem_singleton.mp new
          rw [own]
          exact holds event⟩ }

/-- An event about an untouched task. -/
theorem Walk.append
    (walk : env.Walk manifest base settled ((task, plan) :: remaining) journal store)
    {kind : EventKind} {requestId : Option Sha} {activation : Option (TaskActivation Sha)}
    {result : Option (TaskResult Sha)}
    (report : env.Report .recovery plan task (env.view base (env.taskId task)) kind activation
      result)
    (request : requestId = env.eventRequestId kind task)
    (inOrder : env.InOrder store (task, plan))
    (holds : ∀ event, settled { env.view base (env.taskId task) with
      history := base.history (env.taskId task) ++ [event], credited := result }) :
    Writes Archive.write (env.RecoveryStep manifest) store
      (env.appendEvent journal plan task kind requestId activation result)
      (env.Walk manifest base settled remaining) := by
  have same := walk.untouched (task, plan) List.mem_cons_self
  have sameHistory : store.history (env.taskId task) = base.history (env.taskId task) :=
    congrArg TaskView.history same
  refine walk.conclude walk.tracks rfl (fun _ _ => rfl) (same ▸ report) request inOrder
    (fun disturbed => absurd disturbed (walk.undisturbed _)) ?_
  intro event
  rw [same, sameHistory]
  exact holds event

/-- The tasks before a task with events have events. -/
theorem Walk.inOrder
    (walk : env.Walk manifest base settled ((task, plan) :: remaining) journal store)
    (begun : base.history (env.taskId task) ≠ []) : env.InOrder store (task, plan) :=
  walk.tracks.coherent.inOrder_of_view walk.planned.1
    (walk.untouched (task, plan) List.mem_cons_self) begun

end Walks

/-! ## Planned tasks -/

section Planned

/-- The history of a task has begun exactly when the indexes list it. -/
theorem Tracks.mem_eventHistories_iff (tracks : env.Tracks manifest base snapshot)
    {taskId : Sha} :
    taskId ∈ snapshot.indexes.eventHistories ↔ base.history taskId ≠ [] := by
  rw [← not_iff_not, ← Dict.get?_eq_none_iff, tracks.indexed.histories, listed_eq_none_iff,
    not_not]

/-- A planned task without events waits. -/
theorem Phase.of_waiting {view : TaskView Sha Payload} (phase : env.Phase view)
    (planned : view.planned = some (task, plan)) (empty : view.history = []) :
    view = ⟨some (task, plan), [], none, none, none, [], none⟩ := by
  cases phase with
  | waiting =>
      cases planned
      rfl
  | unplanned => cases planned
  | _ => simp at empty

theorem recoverPlanned_step (tracked : env.Tracks manifest base snapshot)
    (walk : env.Walk manifest base (fun view => view.history ≠ []) ((task, plan) :: remaining)
      journal store) :
    Writes Archive.write (env.RecoveryStep manifest) store
      (env.recoverPlanned snapshot journal (task, plan))
      (env.Walk manifest base (fun view => view.history ≠ []) remaining) := by
  unfold recoverPlanned
  by_cases begun : env.taskId task ∈ snapshot.indexes.eventHistories
  · rw [if_pos begun]
    exact Writes.pure (walk.skip (tracked.mem_eventHistories_iff.mp begun))
  · rw [if_neg begun]
    rw [tracked.mem_eventHistories_iff, not_not] at begun
    have before := (tracked.coherent.phases (env.taskId task)).of_waiting walk.planned.2 begun
    have report : env.Report .recovery plan task (env.view base (env.taskId task)) .planned none
        none := by
      rw [before]
      exact .planned
    obtain ⟨done, split, begunDone⟩ := walk.passed
    refine walk.append report rfl ?_ fun event => by simp
    exact ⟨done, remaining, by rw [walk.plans, split], begunDone⟩

end Planned

/-! ## Activated tasks -/

section Activated

/-- No activation waits for its event. -/
def Reported (view : TaskView Sha Payload) : Prop :=
  view.history ≠ [] ∧ (view.history.map (·.kind) = [.planned] → view.activation = none)

/-- A task with an activation whose last event is its planned event is
activating. -/
theorem Phase.of_activating {view : TaskView Sha Payload} (phase : env.Phase view)
    (planned : view.planned = some (task, plan)) {activation : TaskActivation Sha}
    (given : view.activation = some activation) {last : TaskEvent Sha}
    (ends : view.history.getLast? = some last) (kind : last.kind = .planned) :
    ∃ first, view = ⟨some (task, plan), [first], some activation, none, none, [], none⟩ := by
  cases phase with
  | activating firstKind exact_ =>
      cases planned
      cases given
      exact ⟨_, rfl⟩
  | _ => simp_all

theorem recoverActivated_step (tracked : env.Tracks manifest base snapshot)
    (begun : ∀ entry ∈ Archive.plannedTasks base.plans, base.history (env.taskId entry.1) ≠ [])
    (walk : env.Walk manifest base Reported ((task, plan) :: remaining) journal store) :
    Writes Archive.write (env.RecoveryStep manifest) store
      (env.recoverActivated snapshot journal (task, plan))
      (env.Walk manifest base Reported remaining) := by
  have member : (task, plan) ∈ Archive.plannedTasks base.plans := walk.plans ▸ walk.planned.1
  have begunTask := begun (task, plan) member
  unfold recoverActivated
  simp only [tracked.sameArchive, tracked.historyForTask_eq]
  have begunView : (env.view base (env.taskId task)).history ≠ [] := begunTask
  cases given : base.activation? (env.taskId task) with
  | none => exact Writes.pure (walk.skip ⟨begunView, fun _ => given⟩)
  | some activation =>
      cases ends : (base.history (env.taskId task)).getLast? with
      | none => exact absurd (List.getLast?_eq_none_iff.mp ends) begunTask
      | some last =>
          dsimp only
          by_cases planned : last.kind = .planned
          · obtain ⟨first, before⟩ := (tracked.coherent.phases (env.taskId task)).of_activating
              walk.planned.2 given ends planned
            have report : env.Report .recovery plan task (env.view base (env.taskId task))
                .activated (some activation) none := by
              rw [before]
              exact .activated
            rw [if_pos planned]
            refine walk.append report rfl (walk.inOrder begunTask) fun event => ?_
            have single : base.history (env.taskId task) = [first] :=
              congrArg TaskView.history before
            simp [Reported, single]
          · rw [if_neg planned]
            refine Writes.pure (walk.skip ⟨begunView, fun kinds => ?_⟩)
            change (base.history (env.taskId task)).map (·.kind) = [.planned] at kinds
            have lastKind := congrArg List.getLast? kinds
            rw [List.getLast?_map, ends] at lastKind
            simp [planned] at lastKind

end Activated

/-! ## Concluded tasks -/

section Concluded

theorem resting_of_credited {view : TaskView Sha Payload} (begun : view.history ≠ [])
    (long : view.history.map (·.kind) ≠ [.planned]) (credited : view.credited.isSome) :
    Resting view :=
  ⟨fun _ => begun, fun kinds => absurd kinds long, fun _ => credited⟩

theorem resting_of_unobserved {view : TaskView Sha Payload} (reported : Reported view)
    (nothing : view.observations = []) : Resting view :=
  ⟨fun _ => reported.1, reported.2, fun some_ => absurd nothing some_⟩

/-- Conclude a task that was dispatched: with the uncertain result, which an
interrupted recovery may have written already. -/
theorem recoverDispatched_step (free : env.CollisionFree)
    (tracked : env.Tracks manifest base snapshot)
    (walk : env.Walk manifest base Resting ((task, plan) :: remaining) journal store)
    {first second dispatch : TaskEvent Sha} {activation : TaskActivation Sha}
    {output : Option (TaskOutput Sha Payload)}
    {attempt : Option (ProviderAttemptEvidence Sha)}
    {observations listing : List (TaskResult Sha)}
    (before : env.view base (env.taskId task) =
      ⟨some (task, plan), [first, second, dispatch], some activation, output, attempt,
        observations, none⟩)
    (listed : listing.Perm observations) :
    Writes Archive.write (env.RecoveryStep manifest) store
      (env.recoverDispatched snapshot journal (task, plan) listing dispatch)
      (env.Walk manifest base Resting remaining) := by
  have same : env.view store (env.taskId task) = env.view base (env.taskId task) :=
    walk.untouched (task, plan) List.mem_cons_self
  have given : base.activation? (env.taskId task) = some activation :=
    congrArg TaskView.activation before
  have begun : base.history (env.taskId task) ≠ [] := by
    have history : base.history (env.taskId task) = [first, second, dispatch] :=
      congrArg TaskView.history before
    simp [history]
  unfold recoverDispatched
  refine Writes.lift_bind fun found lookup => ?_
  unfold recoveryActivation at lookup
  rw [tracked.sameArchive, given] at lookup
  obtain rfl := Except.ok.inj lookup
  refine Writes.lift_bind fun uncertain built => Writes.lift_bind fun _ _ => ?_
  have sameTask : uncertain.taskId = env.taskId task := (buildTaskResult_spec built).1.taskId
  unfold retainUncertain
  by_cases present : uncertain ∈ listing
  · rw [if_pos present]
    have report : env.Report .recovery plan task (env.view base (env.taskId task)) .terminal
        (some activation) (some uncertain) := by
      rw [before]
      exact .terminal ⟨listed.mem_iff.mp present, built⟩
    refine walk.append report rfl (walk.inOrder begun) fun event => ?_
    rw [before]
    refine resting_of_credited (by simp) (fun short => ?_) rfl
    have length := congrArg List.length short
    simp only [List.length_map, List.length_append, List.length_singleton] at length
    exact absurd (List.length_eq_zero_iff.mp (Nat.succ_injective length)) begun
  · rw [if_neg present]
    have absent : uncertain ∉ observations := fun member => present (listed.mem_iff.mpr member)
    have fresh : env.resultByHash? store (env.result uncertain) = none := by
      cases found : env.resultByHash? store (env.result uncertain) with
      | none => rfl
      | some other =>
          obtain ⟨member, sameHash⟩ := mem_of_find? found
          obtain rfl := free.result sameHash
          have observed : other ∈ store.observations (env.taskId task) :=
            List.mem_filter.mpr ⟨member, by simp [sameTask]⟩
          have held : store.observations (env.taskId task) = observations :=
            congrArg TaskView.observations (same.trans before)
          exact absurd (held ▸ observed) absent
    have step : env.WriteStep manifest .recovery store (.taskResult uncertain) :=
      .uncertainResult rfl (same.trans before) built absent fresh
    have uncertainOf : env.UncertainOf store uncertain := by
      have held : store.history (env.taskId task) = [first, second, dispatch] :=
        congrArg TaskView.history (same.trans before)
      have activated : store.activation? (env.taskId task) = some activation :=
        congrArg TaskView.activation (same.trans before)
      have dispatched : dispatch.kind = .dispatched := by
        have phase := walk.tracks.coherent.phases (env.taskId task)
        rw [same.trans before] at phase
        cases phase with
        | dispatched firstKind secondKind dispatchKind => exact dispatchKind
      exact ⟨task, plan, activation, dispatch, walk.planned.1,
        List.mem_of_find?_eq_some activated, by simp [sameTask, held], dispatched, built⟩
    have after : env.view (store.write (.taskResult uncertain)) (env.taskId task) =
        ⟨some (task, plan), [first, second, dispatch], some activation, output, attempt,
          observations ++ [uncertain], none⟩ := by
      have held : store.observations (env.taskId task) = observations :=
        congrArg TaskView.observations (same.trans before)
      rw [view_write_taskResult _ walk.tracks.coherent.referred, sameTask, if_pos rfl, held, same,
        before]
    have writes : Writes Archive.write (env.RecoveryStep manifest) store
        (do
          env.writeModel (.taskResult uncertain)
          .lift (env.retainResultObservation journal uncertain))
        fun now current => current = store.write (.taskResult uncertain) ∧
          env.Tracks manifest current now := by
      refine writes_writeModel_bind ⟨step, .inr ⟨uncertain, rfl, uncertainOf⟩,
        fun taskId disturbed => absurd disturbed (walk.undisturbed taskId)⟩ ?_
      exact Writes.lift fun now retained => ⟨rfl,
        walk.tracks.retainResultObservation (walk.tracks.coherent.write step) retained⟩
    refine writes.bind ?_
    rintro now _ ⟨rfl, tracks⟩
    have report : env.Report .recovery plan task
        (env.view (store.write (.taskResult uncertain)) (env.taskId task)) .terminal
        (some activation) (some uncertain) := by
      rw [after]
      exact .terminal ⟨by simp, built⟩
    refine walk.conclude tracks rfl (fun taskId different => ?_) report rfl ?_ (fun _ => rfl)
      fun event => ?_
    · rw [view_write_taskResult _ walk.tracks.coherent.referred,
        if_neg (sameTask ▸ Ne.symm different), List.append_nil]
      rfl
    · exact tracks.coherent.inOrder_of_view walk.planned.1 after (by simp)
    · rw [after]
      refine resting_of_credited (by simp) (fun short => ?_) rfl
      have length := congrArg List.length short
      have history : (store.write (.taskResult uncertain)).history (env.taskId task) =
          [first, second, dispatch] := congrArg TaskView.history after
      simp [history] at length

theorem recoverTerminal_step (free : env.CollisionFree)
    (tracked : env.Tracks manifest base snapshot)
    (reported : ∀ entry ∈ Archive.plannedTasks base.plans,
      Reported (env.view base (env.taskId entry.1)))
    (walk : env.Walk manifest base Resting ((task, plan) :: remaining) journal store) :
    Writes Archive.write (env.RecoveryStep manifest) store
      (env.recoverTerminal snapshot journal (task, plan))
      (env.Walk manifest base Resting remaining) := by
  have member : (task, plan) ∈ Archive.plannedTasks base.plans := walk.plans ▸ walk.planned.1
  have reportedTask : Reported (env.view base (env.taskId task)) := reported (task, plan) member
  have planned := walk.planned.2
  have listed : ((env.canonical base).observations (env.taskId task)).Perm
      (base.observations (env.taskId task)) :=
    (sameFiles_canonical env base).observations (env.taskId task)
  have phase := tracked.coherent.phases (env.taskId task)
  unfold recoverTerminal
  simp only [tracked.sameArchive, tracked.historyForTask_eq]
  generalize before : env.view base (env.taskId task) = view at phase
  have history : base.history (env.taskId task) = view.history := congrArg TaskView.history before
  have observations : base.observations (env.taskId task) = view.observations :=
    congrArg TaskView.observations before
  rw [observations] at listed
  rw [before] at planned reportedTask
  rw [history]
  generalize (env.canonical base).observations (env.taskId task) = listing at listed
  cases phase with
  | unplanned => cases planned
  | waiting => exact absurd rfl reportedTask.1
  | planned firstKind =>
      obtain rfl := listed.eq_nil
      simp only [List.getLast?_singleton, firstKind, List.filter_nil]
      exact Writes.pure (walk.skip (before ▸ resting_of_unobserved reportedTask rfl))
  | @preflightFailing _ _ _ result firstKind built =>
      obtain rfl := listed.eq_singleton
      have origin := (buildPreflightFailure_spec built).2.1
      cases planned
      simp only [List.getLast?_singleton, firstKind, List.filter_cons, origin, decide_true, if_true,
        List.filter_nil]
      have report : env.Report .recovery plan task (env.view base (env.taskId task))
          .preflightTerminal none (some result) := by
        rw [before]
        exact .preflight
      refine walk.append report rfl (walk.inOrder (by simp [history])) fun event => ?_
      rw [before, history]
      exact resting_of_credited (by simp) (by simp) rfl
  | preflightFailed firstKind lastKind built =>
      simp only [List.getLast?_cons_cons, List.getLast?_singleton, lastKind]
      refine Writes.pure (walk.skip ?_)
      rw [before]
      exact resting_of_credited (by simp) (by simp) rfl
  | activating firstKind exact_ =>
      have absent := reportedTask.2 (by simp [firstKind])
      cases absent
  | activated firstKind secondKind exact_ =>
      obtain rfl := listed.eq_nil
      simp only [List.getLast?_cons_cons, List.getLast?_singleton, secondKind, List.filter_nil,
        activatedPreflights]
      exact Writes.pure (walk.skip (before ▸ resting_of_unobserved reportedTask rfl))
  | @activatedFailing _ _ _ _ activation result firstKind secondKind exact_ failure built =>
      obtain rfl := listed.eq_singleton
      have origin := (buildTaskResult_spec built).2.1
      cases planned
      simp only [List.getLast?_cons_cons, List.getLast?_singleton, secondKind, List.filter_cons,
        activatedPreflights, origin, failure, decide_true, and_self, if_true, List.filter_nil]
      unfold recoverActivatedPreflight
      refine Writes.lift_bind fun found lookup => ?_
      have given : base.activation? (env.taskId task) = some activation :=
        congrArg TaskView.activation before
      unfold recoveryActivation at lookup
      rw [tracked.sameArchive, given] at lookup
      obtain rfl := Except.ok.inj lookup
      have report : env.Report .recovery plan task (env.view base (env.taskId task))
          .activatedPreflightTerminal (some activation) (some result) := by
        rw [before]
        exact .activatedPreflight
      refine walk.append report rfl (walk.inOrder (by simp [history])) fun event => ?_
      rw [before, history]
      exact resting_of_credited (by simp) (by simp) rfl
  | activatedFailed firstKind secondKind lastKind exact_ failure built =>
      simp only [List.getLast?_cons_cons, List.getLast?_singleton, lastKind]
      refine Writes.pure (walk.skip ?_)
      rw [before]
      exact resting_of_credited (by simp) (by simp) rfl
  | dispatched firstKind secondKind dispatchKind exact_ retains observed =>
      cases planned
      simp only [List.getLast?_cons_cons, List.getLast?_singleton, dispatchKind]
      exact recoverDispatched_step free tracked walk before listed
  | concluded firstKind secondKind dispatchKind lastKind exact_ retains observed selected =>
      simp only [List.getLast?_cons_cons, List.getLast?_singleton, lastKind]
      refine Writes.pure (walk.skip ?_)
      rw [before]
      exact resting_of_credited (by simp) (by simp) rfl

end Concluded

/-! ## The whole recovery -/

section Recovering

/-- Recovery writes admissible files, and when it returns every task rests. -/
theorem Tracks.recoverInterruptedState (free : env.CollisionFree)
    (tracks : env.Tracks manifest base journal)
    (undisturbed : ∀ taskId, ¬ Disturbed (env.view base taskId)) :
    Writes Archive.write (env.RecoveryStep manifest) base (env.recoverInterruptedState journal)
      fun next store => env.Live manifest store next := by
  unfold Environment.recoverInterruptedState
  simp only [tracks.sameArchive]
  have first : Writes Archive.write (env.RecoveryStep manifest) base
      ((Archive.plannedTasks base.plans).foldlM (env.recoverPlanned journal) journal)
      (env.Walk manifest base (fun view => view.history ≠ []) []) :=
    Writes.foldlM (env.Walk manifest base fun view => view.history ≠ []) _
      (.begin_ tracks undisturbed) fun entry remaining _ _ walk => recoverPlanned_step tracks walk
  refine first.bind fun planned afterPlanned walked => ?_
  have samePlans : afterPlanned.plans = base.plans := walked.plans
  have begun : ∀ entry ∈ Archive.plannedTasks afterPlanned.plans,
      afterPlanned.history (env.taskId entry.1) ≠ [] :=
    fun entry member => walked.settled_of_finished (samePlans ▸ member)
  rw [← samePlans]
  have second : Writes Archive.write (env.RecoveryStep manifest) afterPlanned
      ((Archive.plannedTasks afterPlanned.plans).foldlM (env.recoverActivated planned) planned)
      (env.Walk manifest afterPlanned Reported []) :=
    Writes.foldlM (env.Walk manifest afterPlanned Reported) _
      (.begin_ walked.tracks walked.undisturbed) fun entry remaining _ _ walk =>
        recoverActivated_step walked.tracks begun walk
  refine second.bind fun activated afterActivated rewalked => ?_
  have samePlansAgain : afterActivated.plans = afterPlanned.plans := rewalked.plans
  have reported : ∀ entry ∈ Archive.plannedTasks afterActivated.plans,
      Reported (env.view afterActivated (env.taskId entry.1)) :=
    fun entry member => rewalked.settled_of_finished (samePlansAgain ▸ member)
  rw [← samePlansAgain]
  have third : Writes Archive.write (env.RecoveryStep manifest) afterActivated
      ((Archive.plannedTasks afterActivated.plans).foldlM (env.recoverTerminal activated)
        activated) (env.Walk manifest afterActivated Resting []) :=
    Writes.foldlM (env.Walk manifest afterActivated Resting) _
      (.begin_ rewalked.tracks rewalked.undisturbed) fun entry remaining _ _ walk =>
        recoverTerminal_step free rewalked.tracks reported walk
  refine third.mono fun next store finished => ?_
  refine { finished.tracks with resting := fun taskId => ?_ }
  cases lookup : env.plannedTask? store taskId with
  | none =>
      rw [finished.tracks.coherent.view_of_unplanned lookup]
      exact ⟨by simp, by simp, by simp⟩
  | some entry =>
      obtain ⟨member, rfl⟩ := finished.tracks.coherent.plannedTask?_eq_some_iff.mp lookup
      exact finished.settled_of_finished (finished.plans ▸ member)

end Recovering

/-! ## Resuming -/

section Resuming

variable {files : Archive Sha Payload} {analysisInputSha256 : Sha}
  {archive : Archive Sha Payload}

/-- The loader checks the lifecycle of every task with events. -/
theorem checkLifecycle_of_validated (valid : env.validateLoadedState manifest archive = .ok ())
    {taskId : Sha} (begun : archive.history taskId ≠ []) :
    env.checkLifecycle archive taskId = .ok () := by
  unfold validateLoadedState at valid
  simp only [bind_eq_ok_iff, forM_eq_ok_iff] at valid
  obtain ⟨_, -, _, -, _, -, _, -, _, -, _, -, _, -, _, -, _, -, _, -, _, -, _, -, _, -, _, -, _,
    lifecycles, -⟩ := valid
  obtain ⟨event, member⟩ := List.exists_mem_of_ne_nil _ begun
  obtain ⟨eventMem, same⟩ := List.mem_filter.mp member
  have sameTask : event.taskId = taskId := by simpa using same
  exact sameTask ▸ lifecycles event eventMem

/-- The checks on the lifecycle of a task. -/
theorem checkLifecycle_eq_ok_iff {taskId : Sha} {last : EventKind}
    (ends : (archive.kinds taskId).getLast? = some last) :
    env.checkLifecycle archive taskId = .ok () ↔
      archive.kinds taskId ∈ validLifecyclePrefixes ∧
        checkUndispatched archive taskId last = .ok () ∧
        env.checkCredit archive taskId last = .ok () ∧
        env.checkRetainedOutput archive taskId last = .ok () ∧
        env.checkRetainedAttempt archive taskId (archive.kinds taskId) = .ok () := by
  unfold checkLifecycle
  simp only [ends, raiseIf_bind_eq_ok_iff, not_not]
  simp only [check_bind_eq_ok_iff]

/-- The loader refuses a disturbed archive. -/
theorem undisturbed_of_validated (coherent : env.Coherent manifest archive)
    (valid : env.validateLoadedState manifest archive = .ok ()) (taskId : Sha) :
    ¬ Disturbed (env.view archive taskId) := by
  rintro ⟨output, uncredited, result, member, unsuccessful⟩
  change (archive.output? taskId).isSome at output
  change env.credited? archive taskId = none at uncredited
  change result ∈ archive.observations taskId at member
  have begun : archive.history taskId ≠ [] := by
    have phase := coherent.phases taskId
    have outputView : (env.view archive taskId).output.isSome := output
    change (env.view archive taskId).history ≠ []
    generalize env.view archive taskId = view at phase outputView
    cases phase with
    | unplanned | waiting => cases outputView
    | _ => simp
  have checked := checkLifecycle_of_validated valid begun
  cases ends : (archive.kinds taskId).getLast? with
  | none =>
      rw [List.getLast?_eq_none_iff, Archive.kinds, List.map_eq_nil_iff] at ends
      exact begun ends
  | some kind =>
      obtain ⟨-, -, -, retained, -⟩ := (checkLifecycle_eq_ok_iff ends).mp checked
      unfold checkRetainedOutput at retained
      rw [raiseIf_eq_ok_iff] at retained
      refine retained ⟨output, .inr (.inr (.inl ⟨result, member, ?_, unsuccessful⟩))⟩
      rw [uncredited]
      simp

theorem tracks_of_openJournal (coherent : env.Coherent manifest files)
    (opened : env.openJournal manifest analysisInputSha256 files = .ok journal) :
    env.Tracks manifest (env.canonical files) journal ∧
      env.validateLoadedState manifest (env.canonical files) = .ok () := by
  unfold openJournal loadState at opened
  simp only [bind_eq_ok_iff, Except.ok.injEq] at opened
  obtain ⟨archive, ⟨_, valid, rfl⟩, indexes, derived, rfl⟩ := opened
  exact ⟨{
    sameArchive := rfl
    sameManifest := rfl
    indexed := indexed_of_deriveIndexes derived
    coherent := coherent.of_sameFiles (sameFiles_canonical env files) }, valid⟩

/-- A resume writes admissible files, and when it returns every task rests. -/
theorem Coherent.resumeJournal (free : env.CollisionFree)
    (coherent : env.Coherent manifest files) :
    Writes Archive.write (env.RecoveryStep manifest) (env.canonical files)
      (env.resumeJournal manifest analysisInputSha256 files)
      fun next store => env.Live manifest store next := by
  unfold Environment.resumeJournal
  refine Writes.lift_bind fun journal opened => Writes.lift_bind fun _ _ => ?_
  obtain ⟨tracks, valid⟩ := tracks_of_openJournal coherent opened
  have undisturbed := undisturbed_of_validated tracks.coherent valid
  refine (tracks.recoverInterruptedState free undisturbed).bind fun recovered store live => ?_
  exact Writes.lift_bind fun _ _ => Writes.pure live

end Resuming

end Environment

end Scheduler

end MmAudit
