import MmAudit.Scheduler.Careful

/-!
# A journal stays resumable

Files that careful transitions wrote load again, whatever part of the last
transition is durable.  A resume that is interrupted leaves files that load too,
unless it stops between the uncertain result and the terminal event of a task
with a retained output.
-/

set_option linter.unusedSectionVars false

namespace MmAudit

namespace Scheduler

open Fallible Keyed Logged

namespace Environment

variable {Sha Payload : Type} [LinearOrder Sha] [DecidableEq Payload]

variable {env : Environment Sha Payload} {manifest : CampaignManifest Sha}
  {analysisInputSha256 : Sha} {archive files : Archive Sha Payload}
  {journal next : Journal Sha Payload} {artifact : Artifact Sha Payload}
  {config later : Config Sha Payload}

/-! ## Without crashes -/

section CrashFree

/-- Only transitions that are called with care. -/
def CarefulCall (env : Environment Sha Payload) (config : Config Sha Payload)
    (action : Action Sha Payload) : Prop :=
  ∃ operation, action = .call operation ∧ env.Careful config.files operation

/-- A running journal whose files load. -/
def Running (env : Environment Sha Payload) (manifest : CampaignManifest Sha)
    (config : Config Sha Payload) : Prop :=
  ∃ files journal, config = .live files journal ∧ env.Live manifest files journal ∧
    env.Promising files

theorem running_newConfig (manifest : CampaignManifest Sha) (analysisInputSha256 : Sha) :
    env.Running manifest (newConfig manifest analysisInputSha256) :=
  ⟨_, _, rfl, live_newJournal manifest analysisInputSha256, promising_empty⟩

theorem Running.step {action : Action Sha Payload} (running : env.Running manifest config)
    (permitted : env.CarefulCall config action)
    (step : env.CampaignStep manifest analysisInputSha256 config action later) :
    env.Running manifest later := by
  obtain ⟨files, journal, rfl, live, promising⟩ := running
  obtain ⟨operation, rfl, careful⟩ := permitted
  cases step with
  | call accepted =>
      have durable := Durable.perform live promising careful accepted (List.prefix_refl _)
      exact ⟨_, _, rfl, (live.perform accepted).2, durable.promising⟩

theorem Running.durable (running : env.Running manifest config) :
    env.Durable manifest config.files := by
  obtain ⟨files, journal, rfl, live, promising⟩ := running
  exact ⟨live.coherent, promising, live.calm⟩

/-- In a crash-free history of careful transitions the loader accepts the files
of every journal. -/
theorem writer_agrees_with_loader (free : env.CollisionFree) (once : env.NormalizesOnce)
    (history : env.Campaign manifest analysisInputSha256 env.CarefulCall
      (newConfig manifest analysisInputSha256) config) :
    ∃ archive, env.loadState manifest config.files = .ok archive := by
  have running : env.Running manifest config := by
    induction history with
    | start => exact running_newConfig manifest analysisInputSha256
    | step history permitted next ih => exact ih.step permitted next
  exact running.durable.loads free once

/-- The activation of the sample campaign is careful. -/
theorem careful_activation :
    canonicalEnvironment.Careful (sampleState [.sealPassPlan orientationPlan]).1
      (.activateTask orientationTaskId orientationMaterial) := by
  refine ⟨by decide, fun task plan planned empty => ?_⟩
  have kinds : ((canonicalEnvironment.plannedTask? (sampleState [.sealPassPlan orientationPlan]).1
      orientationTaskId).map fun entry => entry.1.taskKind) = some .modelRequest := by
    decide
  rw [planned, Option.map_some, Option.some.injEq, empty] at kinds
  cases kinds

theorem activation_returns :
    ∃ journal, (canonicalEnvironment.perform (sampleState [.sealPassPlan orientationPlan]).2
      (.activateTask orientationTaskId orientationMaterial)).result = .ok journal :=
  eq_ok_of_toOption_isSome (by decide)

theorem writer_agrees_with_loader_sample :
    ∃ (files : Archive Encoded Unit) (journal : Journal Encoded Unit),
      canonicalEnvironment.Campaign sampleManifest [3] canonicalEnvironment.CarefulCall
        (newConfig sampleManifest [3]) (.live files journal) ∧
      files.activations.length = 1 ∧
      ∃ archive, canonicalEnvironment.loadState sampleManifest files = .ok archive := by
  have planned := campaign_sampleState canonicalEnvironment.CarefulCall
    [.sealPassPlan orientationPlan]
    (fun files journal operation member => by
      obtain rfl := List.mem_singleton.mp member
      exact ⟨_, rfl, fun workset impossible => nomatch impossible⟩) (by decide +kernel)
  obtain ⟨journal, returned⟩ := activation_returns
  have history := Campaign.step planned ⟨_, rfl, careful_activation⟩
    (.call (returns_of_ok returned))
  exact ⟨_, journal, history, by decide +kernel,
    writer_agrees_with_loader canonical_collisionFree canonical_normalizesOnce history⟩

/-- A task with a provider attempt may be recorded as explicitly empty, and then
the loader refuses the journal. -/
theorem explicit_empty_after_attempt_refused :
    ∃ config, canonicalEnvironment.Campaign sampleManifest [3]
        (fun _ action => ∃ operation, action = .call operation)
        (newConfig sampleManifest [3]) config ∧
      ∃ failure, canonicalEnvironment.loadState sampleManifest config.files = .error failure := by
  have history := campaign_sampleState
    (fun _ action => ∃ operation, action = .call operation)
    (orientationDispatch ++
      [.persistProviderAttempt orientationTaskId orientationUsage,
        .recordTerminal (orientationResult .explicitEmpty)])
    (fun _ _ operation _ => ⟨operation, rfl⟩) (by decide +kernel)
  refine ⟨_, history, eq_error_of_toOption_eq_none ?_⟩
  decide +kernel

end CrashFree

/-! ## Interrupted transitions -/

section Interrupted

/-- Every retained uncertain result is the one that recovery builds. -/
def Attributed (env : Environment Sha Payload) (archive : Archive Sha Payload) : Prop :=
  ∀ result ∈ archive.resultObservations, result.terminalStatus = .uncertain →
    env.UncertainOf archive result

/-- Files that load, now and after any recovery. -/
structure Recoverable (env : Environment Sha Payload) (manifest : CampaignManifest Sha)
    (files : Archive Sha Payload) : Prop extends env.Durable manifest files where
  attributed : env.Attributed files

/-- No transition records an uncertain result itself. -/
def Certain : Operation Sha Payload → Prop
  | .recordTerminal result => result.terminalStatus ≠ .uncertain
  | _ => True

theorem Attributed.write (coherent : env.Coherent manifest archive)
    (attributed : env.Attributed archive)
    (added : ∀ result, artifact = .taskResult result → result.terminalStatus = .uncertain →
      env.UncertainOf archive result) : env.Attributed (archive.write artifact) := by
  intro result member uncertain
  have extends_ := coherent.extends_write artifact
  cases artifact with
  | taskResult other =>
      rcases List.mem_append.mp member with old | new
      · exact extends_.uncertainOf (attributed result old uncertain)
      · obtain rfl := List.mem_singleton.mp new
        exact extends_.uncertainOf (added result rfl uncertain)
  | plan | activation | event | output | providerAttempt | passResult =>
      exact extends_.uncertainOf (attributed result member uncertain)

theorem Recoverable.of_sameFiles {other : Archive Sha Payload}
    (recoverable : env.Recoverable manifest files) (same : SameFiles files other) :
    env.Recoverable manifest other where
  toDurable := recoverable.toDurable.of_sameFiles same
  attributed result member uncertain :=
    (same.extends recoverable.coherent).uncertainOf
      (recoverable.attributed result (same.resultObservations.subset member) uncertain)

/-- What a transition leaves when it is interrupted. -/
theorem Recoverable.perform {operation : Operation Sha Payload}
    {log written : List (Artifact Sha Payload)} (live : env.Live manifest files journal)
    (recoverable : env.Recoverable manifest files) (careful : env.Careful files operation)
    (certain : Certain operation)
    (accepted : (env.perform journal operation).Returns log next) (cut : written <+: log) :
    env.Recoverable manifest (writeAll files written) := by
  have durable := Durable.perform live recoverable.promising careful accepted cut
  obtain ⟨first, rest, rfl, authored, events⟩ := live.toTracks.writesOneFile accepted
  have certainly : ∀ artifact ∈ first :: rest, ∀ result, artifact = .taskResult result →
      result.terminalStatus ≠ .uncertain := by
    intro artifact member result same
    rcases List.mem_cons.mp member with rfl | later
    · subst same
      rcases authored with rfl | failure
      · exact certain
      · intro uncertain
        rw [uncertain] at failure
        simp [TerminalStatus.IsActivatedPreflight] at failure
    · obtain ⟨event, rfl⟩ := events artifact later
      cases same
  have follows := ((live.perform accepted).1.and_of_forall
    fun artifact member _ => certainly artifact member).initial cut
  have kept : env.Coherent manifest (writeAll files written) ∧
      env.Attributed (writeAll files written) := by
    refine follows.invariant
      (fun archive => env.Coherent manifest archive ∧ env.Attributed archive)
      ⟨live.coherent, recoverable.attributed⟩ ?_
    rintro archive artifact ⟨coherent, attributed⟩ ⟨step, notUncertain⟩
    exact ⟨coherent.write step, attributed.write coherent fun result same uncertain =>
      absurd uncertain (notUncertain result same)⟩
  exact ⟨durable, kept.2⟩

end Interrupted

/-! ## Interrupted recovery -/

section Recovering

/-- Recovery builds one uncertain result for a task. -/
theorem eq_of_uncertainOf (coherent : env.Coherent manifest archive) {plan : PassPlan Sha}
    {task : TaskPlan Sha} {activation : TaskActivation Sha} {first second dispatch : TaskEvent Sha}
    {output : Option (TaskOutput Sha Payload)} {attempt : Option (ProviderAttemptEvidence Sha)}
    {observations : List (TaskResult Sha)} {result other : TaskResult Sha}
    (before : env.view archive (env.taskId task) = ⟨some (task, plan), [first, second, dispatch],
      some activation, output, attempt, observations, none⟩)
    (built : env.buildUncertain plan task activation dispatch = .ok result)
    (member : other ∈ observations) (uncertain : env.UncertainOf archive other) :
    other = result := by
  obtain ⟨otherTask, otherPlan, otherActivation, otherDispatch, planned, activated, dispatched,
    kind, otherBuilt⟩ := uncertain
  have spec := buildTaskResult_spec otherBuilt
  have here : other.taskId = env.taskId task := by
    have found : other ∈ archive.observations (env.taskId task) := by
      rw [show archive.observations (env.taskId task) = observations from
        congrArg TaskView.observations before]
      exact member
    exact of_decide_eq_true (List.mem_filter.mp found).2
  have sameId : env.taskId otherTask = env.taskId task := spec.1.taskId.symm.trans here
  have samePlan : (otherTask, otherPlan) = (task, plan) := by
    have found := coherent.plannedTask?_eq_some_iff.mpr ⟨planned, sameId⟩
    exact Option.some.inj (found.symm.trans (congrArg TaskView.planned before))
  obtain ⟨rfl, rfl⟩ := Prod.mk.inj samePlan
  have sameActivation : otherActivation = activation := by
    have found := coherent.find_activation activated
    rw [(requireExactTask_spec spec.2.2.2.2).2.1] at found
    exact Option.some.inj (found.symm.trans (congrArg TaskView.activation before))
  have sameDispatch : otherDispatch = dispatch := by
    have history : archive.history (env.taskId otherTask) = [first, second, dispatch] :=
      congrArg TaskView.history before
    rw [here, history] at dispatched
    have phase := coherent.phases (env.taskId otherTask)
    rw [before] at phase
    cases phase with
    | dispatched firstKind secondKind dispatchKind exact_ retains observed =>
        simp only [List.mem_cons, List.not_mem_nil, or_false] at dispatched
        rcases dispatched with rfl | rfl | rfl
        · simp [firstKind] at kind
        · simp [secondKind] at kind
        · rfl
  subst sameActivation sameDispatch
  exact Except.ok.inj (otherBuilt.symm.trans built)

/-- The uncertain result beside what was recorded before. -/
theorem unambiguous_of_uncertain (coherent : env.Coherent manifest archive)
    (attributed : env.Attributed archive) {plan : PassPlan Sha} {task : TaskPlan Sha}
    {activation : TaskActivation Sha} {first second dispatch : TaskEvent Sha}
    {output : Option (TaskOutput Sha Payload)} {attempt : Option (ProviderAttemptEvidence Sha)}
    {observations : List (TaskResult Sha)} {result : TaskResult Sha}
    (before : env.view archive (env.taskId task) = ⟨some (task, plan), [first, second, dispatch],
      some activation, output, attempt, observations, none⟩)
    (built : env.buildUncertain plan task activation dispatch = .ok result)
    (absent : result ∉ observations) : ¬ AmbiguousObservations (observations ++ [result]) := by
  have spec := buildTaskResult_spec built
  have phase := coherent.phases (env.taskId task)
  rw [before] at phase
  cases phase with
  | @dispatched _ _ _ _ _ _ _ _ _ recorded recovered firstKind secondKind dispatchKind exact_
      retains observed =>
      have nothing : recovered = none := by
        cases given : recovered with
        | none => rfl
        | some other =>
            have same := observed.recovered other given
            obtain rfl := Except.ok.inj (same.symm.trans built)
            refine absurd (observed.perm.symm.subset ?_) absent
            simp [given]
      subst nothing
      cases given : recorded with
      | none =>
          have empty := observed.perm
          rw [given] at empty
          rw [empty.eq_nil]
          simp [AmbiguousObservations]
      | some other =>
          have single := observed.perm
          rw [given] at single
          have alone : observations = [other] := single.eq_singleton
          have recordedOther := observed.recorded other given
          have certain : other.terminalStatus ≠ .uncertain := by
            intro uncertain
            have found : other ∈ archive.observations (env.taskId task) := by
              rw [show archive.observations (env.taskId task) = observations from
                congrArg TaskView.observations before, alone]
              exact List.mem_singleton_self other
            have same := eq_of_uncertainOf coherent before built
              (alone ▸ List.mem_singleton_self other)
              (attributed other (List.mem_filter.mp found).1 uncertain)
            exact absent (same ▸ alone ▸ List.mem_singleton_self other)
          have otherOrigin := (buildTaskResult_spec recordedOther.built).2.1
          rw [alone]
          unfold AmbiguousObservations
          simp [certain, spec.1.status, otherOrigin, spec.2.1]

/-- Recovery meets the conditions of the loader. -/
theorem meets_of_recovery (coherent : env.Coherent manifest archive)
    (attributed : env.Attributed archive) (step : env.RecoveryStep manifest archive artifact) :
    env.Meets archive artifact := by
  rcases step.writes with ⟨event, rfl⟩ | ⟨result, rfl, uncertain⟩
  · trivial
  · obtain ⟨_, _, _, _, -, -, -, -, built⟩ := uncertain
    have status := (buildTaskResult_spec built).1.status
    refine ⟨fun _ empty => ?_, ?_⟩
    · rw [status] at empty
      cases empty
    · have firstResult : ∀ {taskId : Sha}, result.taskId = taskId →
          (env.view archive taskId).observations = [] →
            ¬ AmbiguousObservations (archive.observations result.taskId ++ [result]) := by
        rintro _ rfl nothing
        change archive.observations result.taskId = [] at nothing
        simp [nothing, AmbiguousObservations]
      cases step.step with
      | preflightResult before preflight =>
          exact firstResult (buildPreflightFailure_spec preflight).1.taskId
            (congrArg TaskView.observations before)
      | activatedResult before failure failed =>
          exact firstResult (buildTaskResult_spec failed).1.taskId
            (congrArg TaskView.observations before)
      | recordedResult before recorded =>
          exact firstResult (buildTaskResult_spec recorded.built).1.taskId
            (congrArg TaskView.observations before)
      | @uncertainResult plan task first second dispatch activation output attempt observations _
          recovery before again absent =>
          have unambiguous := unambiguous_of_uncertain coherent attributed before again absent
          have observed : archive.observations result.taskId = observations := by
            rw [(buildTaskResult_spec again).1.taskId]
            exact congrArg TaskView.observations before
          rwa [observed]

/-- What recovery keeps while it writes. -/
structure Recovering (env : Environment Sha Payload) (manifest : CampaignManifest Sha)
    (outputs : List (TaskOutput Sha Payload)) (archive : Archive Sha Payload) : Prop where
  coherent : env.Coherent manifest archive
  promising : env.Promising archive
  attributed : env.Attributed archive
  outputs : archive.outputs = outputs

theorem Recovering.write {outputs : List (TaskOutput Sha Payload)}
    (recovering : env.Recovering manifest outputs archive)
    (step : env.RecoveryStep manifest archive artifact) :
    env.Recovering manifest outputs (archive.write artifact) where
  coherent := recovering.coherent.write step.step
  promising := recovering.promising.write recovering.coherent step.step
    (meets_of_recovery recovering.coherent recovering.attributed step)
  attributed := recovering.attributed.write recovering.coherent fun result same _ => by
    rcases step.writes with ⟨event, other⟩ | ⟨written, other, uncertain⟩
    · cases same.symm.trans other
    · cases same.symm.trans other
      exact uncertain
  outputs := by
    rcases step.writes with ⟨event, rfl⟩ | ⟨result, rfl, -⟩
    · exact recovering.outputs
    · exact recovering.outputs

/-- A write of recovery disturbs at most a task with an output for which it
writes a result. -/
theorem calm_of_recovery (coherent : env.Coherent manifest archive)
    (step : env.RecoveryStep manifest archive artifact)
    (safe : ∀ result, artifact = .taskResult result → archive.output? result.taskId = none) :
    env.Calm (archive.write artifact) := by
  intro taskId disturbed
  rcases step.writes with ⟨event, rfl⟩ | ⟨result, rfl, -⟩
  · cases step.step with
    | @event plan task kind activation selected _ report built =>
        obtain ⟨earlier, own⟩ := disturbed_of_write_event coherent report built disturbed
        obtain ⟨concluding, same, sameTask, terminal⟩ := step.settles taskId earlier
        cases same
        have spec := (buildEvent_spec built).1
        have here : env.taskId task = taskId := by
          rw [← sameTask, spec]
          rfl
        have isTerminal : kind.IsTerminal := by
          have sameKind : event.kind = kind := by rw [spec]; rfl
          rw [← sameKind, terminal]
          exact .inl rfl
        rw [report.isTerminal_iff, own here] at isTerminal
        cases isTerminal
  · have nothing := safe result rfl
    rw [view_write_taskResult taskId coherent.referred] at disturbed
    obtain ⟨output, uncredited, other, member, unsuccessful⟩ := disturbed
    rcases List.mem_append.mp member with old | new
    · obtain ⟨event, impossible, -⟩ :=
        step.settles taskId ⟨output, uncredited, other, old, unsuccessful⟩
      cases impossible
    · split at new
      · rename_i here
        change (archive.output? taskId).isSome at output
        rw [← here, nothing] at output
        cases output
      · cases new

/-- What an interrupted recovery leaves loads again, unless the last file is an
uncertain result of a task with a retained output. -/
theorem Recoverable.interrupt {written : List (Artifact Sha Payload)}
    (recoverable : env.Recoverable manifest files)
    (follows : Follows Archive.write (env.RecoveryStep manifest) files written)
    (safe : ∀ result, written.getLast? = some (.taskResult result) →
      files.output? result.taskId = none) :
    env.Recoverable manifest (writeAll files written) := by
  have begins : env.Recovering manifest files.outputs files :=
    ⟨recoverable.coherent, recoverable.promising, recoverable.attributed, rfl⟩
  have keeps : ∀ {log : List (Artifact Sha Payload)},
      Follows Archive.write (env.RecoveryStep manifest) files log →
        env.Recovering manifest files.outputs (writeAll files log) := fun steps =>
    steps.invariant (env.Recovering manifest files.outputs) begins
      fun _ _ recovering step => recovering.write step
  rcases List.eq_nil_or_concat written with rfl | ⟨init, last, rfl⟩
  · exact recoverable
  · rw [List.concat_eq_append] at *
    have after := keeps follows
    obtain ⟨before, step, -⟩ := follows_append.mp follows
    have middle := keeps before
    have calm : env.Calm ((writeAll files init).write last) := by
      refine calm_of_recovery middle.coherent step fun result same => ?_
      have nothing := safe result (by rw [List.getLast?_concat, same])
      unfold Archive.output? at nothing ⊢
      rwa [middle.outputs]
    refine ⟨⟨after.coherent, after.promising, ?_⟩, after.attributed⟩
    unfold writeAll
    rw [List.foldl_append]
    exact calm

end Recovering

/-! ## Campaigns -/

section Campaigns

/-- Careful transitions, and resumes that do not stop right after the uncertain
result of a task with a retained output. -/
def CarefulAction (env : Environment Sha Payload) (config : Config Sha Payload) :
    Action Sha Payload → Prop
  | .call operation | .crash operation _ => env.Careful config.files operation ∧ Certain operation
  | .close | .resume => True
  | .interrupt written => ∀ result, written.getLast? = some (.taskResult result) →
      config.files.output? result.taskId = none

/-- Files that stay resumable, beside the journal of a running process. -/
structure Resumable (env : Environment Sha Payload) (manifest : CampaignManifest Sha)
    (config : Config Sha Payload) : Prop where
  holds : env.Holds manifest config
  recoverable : env.Recoverable manifest config.files

theorem resumable_newConfig (manifest : CampaignManifest Sha) (analysisInputSha256 : Sha) :
    env.Resumable manifest (newConfig manifest analysisInputSha256) where
  holds := live_newJournal manifest analysisInputSha256
  recoverable := {
    coherent := coherent_empty manifest
    promising := promising_empty
    calm := (live_newJournal manifest analysisInputSha256).calm
    attributed := fun _ impossible => nomatch impossible }

theorem output?_canonical (coherent : env.Coherent manifest files) (taskId : Sha) :
    (env.canonical files).output? taskId = files.output? taskId :=
  (find?_perm (sameFiles_canonical env files).outputs.symm coherent.distinctOutputs taskId).symm

theorem Resumable.step {action : Action Sha Payload} (free : env.CollisionFree)
    (resumable : env.Resumable manifest config) (permitted : env.CarefulAction config action)
    (step : env.CampaignStep manifest analysisInputSha256 config action later) :
    env.Resumable manifest later := by
  refine ⟨(step.written free resumable.holds).1, ?_⟩
  cases step with
  | call accepted =>
      have live : env.Live manifest _ _ := resumable.holds
      exact resumable.recoverable.perform live permitted.1 permitted.2 accepted
        (List.prefix_refl _)
  | crash accepted cut =>
      have live : env.Live manifest _ _ := resumable.holds
      exact resumable.recoverable.perform live permitted.1 permitted.2 accepted cut
  | close => exact resumable.recoverable
  | @resume files journal log resumed =>
      have writes : Writes Archive.write (env.RecoveryStep manifest) (env.canonical files)
          (env.resumeJournal manifest analysisInputSha256 files)
          (fun next store => env.Live manifest store next) :=
        Coherent.resumeJournal free resumable.holds
      obtain ⟨rfl, returned⟩ := resumed
      have live := writes.returns journal returned
      have listed := resumable.recoverable.of_sameFiles (sameFiles_canonical env files)
      have after : env.Recovering manifest (env.canonical files).outputs _ :=
        writes.follows.invariant (env.Recovering manifest (env.canonical files).outputs)
          ⟨listed.coherent, listed.promising, listed.attributed, rfl⟩
          fun _ _ recovering step => recovering.write step
      exact ⟨⟨after.coherent, after.promising, live.calm⟩, after.attributed⟩
  | @interrupt files written cut =>
      have writes : Writes Archive.write (env.RecoveryStep manifest) (env.canonical files)
          (env.resumeJournal manifest analysisInputSha256 files)
          (fun next store => env.Live manifest store next) :=
        Coherent.resumeJournal free resumable.holds
      have listed := resumable.recoverable.of_sameFiles (sameFiles_canonical env files)
      refine listed.interrupt (writes.follows.initial cut) fun result last => ?_
      exact (output?_canonical resumable.recoverable.coherent _).trans (permitted result last)

/-- In every history of careful transitions, crashes at any of their writes, and
resumes that are interrupted anywhere except between the uncertain result and the
terminal event of a task with a retained output, the files load. -/
theorem journal_stays_resumable (free : env.CollisionFree) (once : env.NormalizesOnce)
    (history : env.Campaign manifest analysisInputSha256 env.CarefulAction
      (newConfig manifest analysisInputSha256) config) :
    ∃ archive, env.loadState manifest config.files = .ok archive := by
  have resumable : env.Resumable manifest config := by
    induction history with
    | start => exact resumable_newConfig manifest analysisInputSha256
    | step history permitted next ih => exact ih.step free permitted next
  exact resumable.recoverable.toDurable.loads free once

/-- An activation that a crash cuts off, and a resume that is cut off before it
writes. -/
theorem journal_stays_resumable_sample :
    ∃ files : Archive Encoded Unit,
      canonicalEnvironment.Campaign sampleManifest [3] canonicalEnvironment.CarefulAction
        (newConfig sampleManifest [3]) (.down files) ∧
      files.activations.length = 1 ∧ files.events.length = 1 ∧
      ∃ archive, canonicalEnvironment.loadState sampleManifest files = .ok archive := by
  have planned := campaign_sampleState canonicalEnvironment.CarefulAction
    [.sealPassPlan orientationPlan]
    (fun files journal operation member => by
      obtain rfl := List.mem_singleton.mp member
      have derived : canonicalEnvironment.Careful files (.sealPassPlan orientationPlan) :=
        fun workset impossible => nomatch impossible
      exact ⟨derived, trivial⟩) (by decide +kernel)
  obtain ⟨journal, returned⟩ := activation_returns
  have permitted : ∀ journal written, canonicalEnvironment.CarefulAction
      (.live (sampleState [.sealPassPlan orientationPlan]).1 journal)
      (.crash (.activateTask orientationTaskId orientationMaterial) written) :=
    fun _ _ => ⟨careful_activation, trivial⟩
  have crashed := Campaign.step planned (permitted _ _)
    (.crash (returns_of_ok returned) ⟨_, List.take_append_drop 1 _⟩)
  have atOnce : ∀ files, canonicalEnvironment.CarefulAction (.down files) (.interrupt []) :=
    fun _ result impossible => nomatch impossible
  have history := Campaign.step crashed (atOnce _) (.interrupt ⟨_, List.nil_append _⟩)
  exact ⟨_, history, by decide +kernel, by decide +kernel,
    journal_stays_resumable canonical_collisionFree canonical_normalizesOnce history⟩

/-- A resume that stops after the uncertain result of a task with a retained
output leaves files that no later resume accepts. -/
theorem interrupted_recovery_refused :
    ∃ config, canonicalEnvironment.Campaign sampleManifest [3]
        (fun config action => match action with
          | .call operation => Certain operation ∧ ∀ taskId material,
              operation = .activateTask taskId material →
                sortedSet material.upstreamTaskResultSha256s ⊆ creditedHashes config.files.events
          | .close | .interrupt _ => True
          | _ => False)
        (newConfig sampleManifest [3]) config ∧
      ∃ failure, canonicalEnvironment.loadState sampleManifest config.files = .error failure := by
  have calls := campaign_sampleState
    (fun config action => match action with
      | .call operation => Certain operation ∧ ∀ taskId material,
          operation = .activateTask taskId material →
            sortedSet material.upstreamTaskResultSha256s ⊆ creditedHashes config.files.events
      | .close | .interrupt _ => True
      | _ => False)
    (orientationDispatch ++ [.persistOutput orientationTaskId orientationArguments])
    (fun files journal operation member => by
      simp only [orientationDispatch, List.cons_append, List.nil_append, List.mem_cons,
        List.not_mem_nil, or_false] at member
      rcases member with rfl | rfl | rfl | rfl
      · exact ⟨trivial, fun _ _ impossible => nomatch impossible⟩
      · refine ⟨trivial, fun taskId material same => ?_⟩
        cases same
        exact List.nil_subset _
      · exact ⟨trivial, fun _ _ impossible => nomatch impossible⟩
      · exact ⟨trivial, fun _ _ impossible => nomatch impossible⟩) (by decide +kernel)
  have down := Campaign.step calls trivial .close
  have history := Campaign.step down trivial (.interrupt ⟨_, List.take_append_drop 1 _⟩)
  refine ⟨_, history, eq_error_of_toOption_eq_none ?_⟩
  decide +kernel

end Campaigns

end Environment

end Scheduler

end MmAudit
