import MmAudit.Scheduler.Canonical

/-!
# Every task is dispatched and credited at most once

Along a campaign the files are always coherent, whatever was interrupted, and no
record is ever lost.  So a task has at most one dispatch and at most one terminal
event, and a credit stays.  What an interrupted transition left uncredited is
credited later only as a failure before dispatch or as the uncertain result of
recovery.
-/

set_option linter.unusedSectionVars false

namespace MmAudit

namespace Scheduler

open Fallible Keyed Logged

namespace Environment

variable {Sha Payload : Type} [LinearOrder Sha] [DecidableEq Payload]
  {env : Environment Sha Payload} {manifest : CampaignManifest Sha} {analysisInputSha256 : Sha}
  {config later : Config Sha Payload} {cause : Cause Sha Payload}
  {archive other : Archive Sha Payload}

/-! ## Campaigns keep the files coherent -/

section Holding

/-- What every configuration of a campaign satisfies. -/
def Holds (env : Environment Sha Payload) (manifest : CampaignManifest Sha) :
    Config Sha Payload → Prop
  | .live files journal => env.Live manifest files journal
  | .down files => env.Coherent manifest files

theorem Holds.coherent (holds : env.Holds manifest config) :
    env.Coherent manifest config.files := by
  cases config with
  | live files journal => exact holds.coherent
  | down files => exact holds

theorem SameFiles.refl (archive : Archive Sha Payload) : SameFiles archive archive :=
  ⟨rfl, .refl _, rfl, .refl _, .refl _, .refl _, rfl⟩

/-- What one step of a campaign writes to its files. -/
structure Written (env : Environment Sha Payload) (manifest : CampaignManifest Sha)
    (config later : Config Sha Payload) (cause : Cause Sha Payload) (start : Archive Sha Payload)
    (log : List (Artifact Sha Payload)) : Prop where
  listing : SameFiles config.files start
  follows : Follows Archive.write (env.WriteStep manifest cause) start log
  files : later.files = writeAll start log
  begins : cause = .recovery ∨ cause = .call config.files

/-- Every step of a campaign writes admissible files and keeps them coherent. -/
theorem CampaignStep.written {action : Action Sha Payload} (free : env.CollisionFree)
    (holds : env.Holds manifest config)
    (step : env.CampaignStep manifest analysisInputSha256 config action later) :
    env.Holds manifest later ∧
      ∃ cause start log, env.Written manifest config later cause start log := by
  cases step with
  | @call files journal next operation log accepted =>
      obtain ⟨follows, live⟩ := Live.perform holds accepted
      exact ⟨live, .call files, files, log, .refl files, follows, rfl, .inr rfl⟩
  | @crash files journal next operation log written accepted cut =>
      obtain ⟨follows, -⟩ := Live.perform holds accepted
      have kept := follows.initial cut
      have live : env.Live manifest files journal := holds
      exact ⟨kept.invariant (env.Coherent manifest) live.coherent
          fun _ _ coherent step => coherent.write step,
        .call files, files, written, .refl files, kept, rfl, .inr rfl⟩
  | @close files journal =>
      have live : env.Live manifest files journal := holds
      exact ⟨live.coherent, .recovery, files, [], .refl files, trivial, rfl, .inl rfl⟩
  | @resume files journal log resumed =>
      have writes : Writes Archive.write (env.RecoveryStep manifest) (env.canonical files)
          (env.resumeJournal manifest analysisInputSha256 files) _ :=
        Coherent.resumeJournal free holds
      obtain ⟨rfl, returned⟩ := resumed
      exact ⟨writes.returns journal returned, .recovery, env.canonical files, _,
        sameFiles_canonical env files, writes.follows.mono fun _ _ step => step.step, rfl, .inl rfl⟩
  | @interrupt files written cut =>
      have writes : Writes Archive.write (env.RecoveryStep manifest) (env.canonical files)
          (env.resumeJournal manifest analysisInputSha256 files) _ :=
        Coherent.resumeJournal free holds
      have kept : Follows Archive.write (env.WriteStep manifest .recovery) (env.canonical files)
          written := (writes.follows.initial cut).mono fun _ _ step => step.step
      have coherent : env.Coherent manifest files := holds
      exact ⟨kept.invariant (env.Coherent manifest) (coherent.of_sameFiles (sameFiles_canonical env files))
          fun _ _ coherent step => coherent.write step,
        .recovery, env.canonical files, written, sameFiles_canonical env files, kept, rfl, .inl rfl⟩

theorem live_newJournal (manifest : CampaignManifest Sha) (analysisInputSha256 : Sha) :
    env.Live manifest .empty (newJournal manifest analysisInputSha256) where
  sameArchive := rfl
  sameManifest := rfl
  indexed := indexed_empty
  coherent := coherent_empty manifest
  resting _ := ⟨by simp [view, plannedTask?, Archive.empty, Archive.plannedTasks], by
    simp [view, Archive.history, Archive.empty], by
    simp [view, Archive.observations, Archive.empty]⟩

variable {allowed : Config Sha Payload → Action Sha Payload → Prop}

/-- Configurations keep what they hold along a campaign. -/
theorem Campaign.holds_of_holds (free : env.CollisionFree) (holds : env.Holds manifest config)
    (history : env.Campaign manifest analysisInputSha256 allowed config later) :
    env.Holds manifest later := by
  induction history with
  | start => exact holds
  | step history permitted next ih => exact (next.written free ih).1

theorem Campaign.holds (free : env.CollisionFree)
    (history : env.Campaign manifest analysisInputSha256 allowed
      (newConfig manifest analysisInputSha256) config) : env.Holds manifest config :=
  Campaign.holds_of_holds free
    (show env.Holds manifest (newConfig manifest analysisInputSha256) from
      live_newJournal manifest analysisInputSha256) history

end Holding

/-! ## Nothing is lost -/

section Growing

/-- An archive that has everything another one has, with the same credits. -/
structure Extends (env : Environment Sha Payload) (archive other : Archive Sha Payload) : Prop where
  planned : Archive.plannedTasks archive.plans ⊆ Archive.plannedTasks other.plans
  activations : archive.activations ⊆ other.activations
  observations : archive.resultObservations ⊆ other.resultObservations
  events : archive.events <+: other.events
  credited : ∀ taskId result, env.credited? archive taskId = some result →
    env.credited? other taskId = some result

theorem Extends.refl (archive : Archive Sha Payload) : env.Extends archive archive :=
  ⟨List.Subset.refl _, List.Subset.refl _, List.Subset.refl _, List.prefix_refl _,
    fun _ _ credited => credited⟩

theorem Extends.trans {third : Archive Sha Payload} (first : env.Extends archive other)
    (second : env.Extends other third) : env.Extends archive third where
  planned := List.Subset.trans first.planned second.planned
  activations := List.Subset.trans first.activations second.activations
  observations := List.Subset.trans first.observations second.observations
  events := first.events.trans second.events
  credited _ _ credited := second.credited _ _ (first.credited _ _ credited)

theorem Coherent.extends_write (coherent : env.Coherent manifest archive)
    (artifact : Artifact Sha Payload) : env.Extends archive (archive.write artifact) where
  planned := by
    cases artifact with
    | plan plan =>
        rw [Archive.write, plannedTasks_append_singleton]
        exact List.subset_append_left _ _
    | activation | event | output | providerAttempt | taskResult | passResult =>
        exact List.Subset.refl _
  activations := by
    cases artifact with
    | activation activation => exact List.subset_append_left _ _
    | plan | event | output | providerAttempt | taskResult | passResult =>
        exact List.Subset.refl _
  observations := by
    cases artifact with
    | taskResult result => exact List.subset_append_left _ _
    | plan | activation | event | output | providerAttempt | passResult =>
        exact List.Subset.refl _
  events := by
    cases artifact with
    | event event => exact List.prefix_append _ _
    | plan | activation | output | providerAttempt | taskResult | passResult =>
        exact List.prefix_refl _
  credited _ _ credited := coherent.credited?_write credited artifact

theorem SameFiles.extends (same : SameFiles archive other)
    (coherent : env.Coherent manifest archive) : env.Extends archive other where
  planned := by
    rw [same.plans]
    exact List.Subset.refl _
  activations := same.activations.symm.subset
  observations := same.resultObservations.symm.subset
  events := same.events ▸ List.prefix_refl _
  credited taskId result credited := by rw [same.credited? coherent, credited]

theorem Written.extends {start : Archive Sha Payload} {log : List (Artifact Sha Payload)}
    (coherent : env.Coherent manifest config.files)
    (written : env.Written manifest config later cause start log) :
    env.Extends config.files later.files := by
  have grown : env.Coherent manifest (writeAll start log) ∧
      env.Extends config.files (writeAll start log) := by
    have begins : env.Coherent manifest start ∧ env.Extends config.files start :=
      ⟨coherent.of_sameFiles written.listing, written.listing.extends coherent⟩
    refine written.follows.invariant
      (fun archive => env.Coherent manifest archive ∧ env.Extends config.files archive) begins
      fun archive artifact holds step => ?_
    exact ⟨holds.1.write step, holds.2.trans (holds.1.extends_write artifact)⟩
  rw [written.files]
  exact grown.2

variable {allowed : Config Sha Payload → Action Sha Payload → Prop}

/-- Files are only added along a campaign. -/
theorem Campaign.extends_ (free : env.CollisionFree) (holds : env.Holds manifest config)
    (history : env.Campaign manifest analysisInputSha256 allowed config later) :
    env.Extends config.files later.files := by
  induction history with
  | start => exact Extends.refl _
  | step history permitted next ih =>
      have middle := Campaign.holds_of_holds free holds history
      obtain ⟨-, cause, start, log, written⟩ := next.written free middle
      exact ih.trans (written.extends middle.coherent)

end Growing

/-! ## Late credit -/

section Crediting

/-- A failure of a task that was never dispatched. -/
def PreDispatchFailure (archive : Archive Sha Payload) (result : TaskResult Sha) : Prop :=
  result.terminalStatus.IsActivatedPreflight ∧
    ∀ event ∈ archive.history result.taskId, event.kind ≠ .dispatched

/-- The credit that a result may still receive after an interruption. -/
def Excused (env : Environment Sha Payload) (archive : Archive Sha Payload)
    (result : TaskResult Sha) : Prop :=
  PreDispatchFailure archive result ∨ env.UncertainOf archive result

theorem Extends.uncertainOf (extends_ : env.Extends archive other) {result : TaskResult Sha}
    (uncertain : env.UncertainOf archive result) : env.UncertainOf other result := by
  obtain ⟨task, plan, activation, dispatch, planned, activated, dispatched, kind, built⟩ := uncertain
  refine ⟨task, plan, activation, dispatch, extends_.planned planned,
    extends_.activations activated, ?_, kind, built⟩
  obtain ⟨member, same⟩ := List.mem_filter.mp dispatched
  exact List.mem_filter.mpr ⟨extends_.events.subset member, same⟩

theorem isActivatedPreflight_of_isPreflight {status : TerminalStatus}
    (preflight : status.IsPreflight) : status.IsActivatedPreflight := by
  cases status <;> simp_all [TerminalStatus.IsPreflight, TerminalStatus.IsActivatedPreflight]

/-- A retained result that is credited only with an excuse. -/
structure Late (env : Environment Sha Payload) (result : TaskResult Sha)
    (archive : Archive Sha Payload) : Prop where
  retained : result ∈ archive.resultObservations
  excused : env.credited? archive result.taskId = some result → env.Excused archive result

theorem Late.write (coherent : env.Coherent manifest archive) {result : TaskResult Sha}
    (late : env.Late result archive)
    (known : ∀ start, cause = .call start → result ∈ start.resultObservations)
    {artifact : Artifact Sha Payload} (step : env.WriteStep manifest cause archive artifact) :
    env.Late result (archive.write artifact) := by
  have extends_ := coherent.extends_write artifact
  refine ⟨extends_.observations late.retained, fun credited => ?_⟩
  -- An excuse for the archive before stays valid while the task has no new event.
  have still : (archive.write artifact).history result.taskId = archive.history result.taskId →
      env.credited? archive result.taskId = some result →
        env.Excused (archive.write artifact) result := by
    intro sameHistory before
    rcases late.excused before with ⟨status, undispatched⟩ | uncertain
    · exact .inl ⟨status, sameHistory ▸ undispatched⟩
    · exact .inr (extends_.uncertainOf uncertain)
  cases step with
  | plan | activation | output | attempt | passResult => exact still rfl credited
  | preflightResult | activatedResult | recordedResult | uncertainResult =>
      rw [credited?_write_result coherent.referred] at credited
      exact still rfl credited
  | @event plan task kind activation selected event report built inOrder =>
      have after := coherent.view_write_event report built result.taskId
      have sameKind : event.kind = kind := by
        rw [(buildEvent_spec built).1]
        rfl
      by_cases here : env.taskId task = result.taskId
      · rw [if_pos here] at after
        have selectedResult : selected = some result :=
          (congrArg TaskView.credited after).symm.trans credited
        have history : (archive.write (.event event)).history result.taskId =
            archive.history result.taskId ++ [event] := congrArg TaskView.history after
        have phase := coherent.phases (env.taskId task)
        rw [here] at report phase
        generalize before : env.view archive result.taskId = view at report phase
        have historyBefore : archive.history result.taskId = view.history :=
          congrArg TaskView.history before
        rw [historyBefore] at history
        cases report with
        | planned | activated | dispatched => cases selectedResult
        | preflight =>
            obtain rfl := Option.some.inj selectedResult
            cases phase with
            | preflightFailing firstKind firstBuilt =>
                have status := (buildPreflightFailure_spec firstBuilt).2.2
                refine .inl ⟨isActivatedPreflight_of_isPreflight status, fun other member => ?_⟩
                rw [history] at member
                simp only [List.cons_append, List.nil_append, List.mem_cons, List.not_mem_nil,
                  or_false] at member
                rcases member with rfl | rfl
                · simp [firstKind]
                · simp [sameKind]
        | activatedPreflight =>
            obtain rfl := Option.some.inj selectedResult
            cases phase with
            | activatedFailing firstKind secondKind exact_ failure firstBuilt =>
                refine .inl ⟨failure, fun other member => ?_⟩
                rw [history] at member
                simp only [List.cons_append, List.nil_append, List.mem_cons, List.not_mem_nil,
                  or_false] at member
                rcases member with rfl | rfl | rfl
                · simp [firstKind]
                · simp [secondKind]
                · simp [sameKind]
        | @terminal first second dispatch activation output attempt observations _ credits =>
            obtain rfl := Option.some.inj selectedResult
            cases cause with
            | call start => exact absurd (known start rfl) credits.2
            | recovery =>
                cases phase with
                | dispatched firstKind secondKind dispatchKind exact_ retains observed =>
                    refine .inr ⟨task, plan, activation, dispatch,
                      extends_.planned (mem_of_planned (congrArg TaskView.planned before)).1,
                      extends_.activations (List.mem_of_find?_eq_some
                        (congrArg TaskView.activation before)), ?_, dispatchKind, credits.2⟩
                    rw [history]
                    simp
      · rw [if_neg here] at after
        have sameHistory : (archive.write (.event event)).history result.taskId =
            archive.history result.taskId := congrArg TaskView.history after
        exact still sameHistory ((congrArg TaskView.credited after).symm.trans credited)

theorem Late.of_sameFiles (coherent : env.Coherent manifest archive) {result : TaskResult Sha}
    (late : env.Late result archive) (same : SameFiles archive other) :
    env.Late result other := by
  have extends_ := same.extends coherent
  refine ⟨extends_.observations late.retained, fun credited => ?_⟩
  rw [same.credited? coherent] at credited
  rcases late.excused credited with ⟨status, undispatched⟩ | uncertain
  · exact .inl ⟨status, same.history result.taskId ▸ undispatched⟩
  · exact .inr (extends_.uncertainOf uncertain)

variable {allowed : Config Sha Payload → Action Sha Payload → Prop}

/-- What an interruption left uncredited needs an excuse for ever. -/
theorem Campaign.late (free : env.CollisionFree) (holds : env.Holds manifest config)
    {result : TaskResult Sha} (late : env.Late result config.files)
    (history : env.Campaign manifest analysisInputSha256 allowed config later) :
    env.Late result later.files := by
  induction history with
  | start => exact late
  | step history permitted next ih =>
      have middle := Campaign.holds_of_holds free holds history
      obtain ⟨-, cause, start, log, written⟩ := next.written free middle
      have begins : env.Coherent manifest start ∧ env.Late result start :=
        ⟨middle.coherent.of_sameFiles written.listing, ih.of_sameFiles middle.coherent written.listing⟩
      have known : ∀ archive, cause = .call archive → result ∈ archive.resultObservations := by
        rintro archive rfl
        rcases written.begins with impossible | same
        · cases impossible
        · cases same
          exact ih.retained
      rw [written.files]
      exact (written.follows.invariant
        (fun archive => env.Coherent manifest archive ∧ env.Late result archive) begins
        fun archive artifact holds step =>
          ⟨holds.1.write step, holds.2.write holds.1 known step⟩).2

end Crediting

/-! ## At most once -/

section AtMostOnce

/-- A dispatched task ends in its dispatch or its terminal event. -/
theorem Coherent.last_of_dispatched (coherent : env.Coherent manifest archive) {taskId : Sha}
    {event last : TaskEvent Sha} (dispatched : event ∈ archive.history taskId)
    (kind : event.kind = .dispatched) (ends : (archive.history taskId).getLast? = some last) :
    last.kind = .dispatched ∨ last.kind = .terminal := by
  have phase := coherent.phases taskId
  change event ∈ (env.view archive taskId).history at dispatched
  change (env.view archive taskId).history.getLast? = some last at ends
  generalize env.view archive taskId = view at phase dispatched ends
  cases phase <;> simp_all
  all_goals grind

/-- The tasks that a journal offers have no dispatch. -/
theorem Live.not_offered {files : Archive Sha Payload} {journal : Journal Sha Payload}
    (live : env.Live manifest files journal) {taskId : Sha} {event : TaskEvent Sha}
    (dispatched : event ∈ files.history taskId) (kind : event.kind = .dispatched)
    {kinds : List EventKind} (open_ : ∀ kind ∈ kinds, kind = .planned ∨ kind = .activated) :
    taskId ∉ taskIdsEndingIn journal kinds := by
  intro member
  unfold taskIdsEndingIn at member
  rw [List.mem_insertionSort] at member
  obtain ⟨entry, entryMem, same⟩ := List.mem_map.mp member
  obtain ⟨itemMem, ending⟩ := List.mem_filter.mp entryMem
  have listing : journal.indexes.eventHistories.get? taskId = some entry.2 :=
    (Dict.get?_eq_some_iff _ _ _).mpr (same ▸ itemMem)
  have history : files.history taskId = entry.2 := by
    rw [live.indexed.histories] at listing
    have lists := congrArg (fun items : Option (List (TaskEvent Sha)) => items.getD []) listing
    simpa using lists
  cases ends : entry.2.getLast? with
  | none => simp [ends] at ending
  | some last =>
      have lastKind : last.kind ∈ kinds := by simpa [ends] using ending
      rcases live.coherent.last_of_dispatched dispatched kind (history ▸ ends) with same | same
      · rcases open_ _ lastKind with other | other <;> simp [same] at other
      · rcases open_ _ lastKind with other | other <;> simp [same] at other

/-- Along every campaign, however it was interrupted: nothing that was written is
lost; a task has at most one dispatch and at most one terminal event, and its
credit never changes; a journal never offers a task that was dispatched; and what
an interruption left uncredited is credited later only as a failure before
dispatch or as the uncertain result of recovery. -/
theorem dispatch_at_most_once (free : env.CollisionFree)
    {allowed : Config Sha Payload → Action Sha Payload → Prop}
    (before : env.Campaign manifest analysisInputSha256 allowed
      (newConfig manifest analysisInputSha256) config)
    (after : env.Campaign manifest analysisInputSha256 allowed config later) :
    config.files.events <+: later.files.events ∧
      (∀ taskId,
        ((later.files.history taskId).filter (·.kind = .dispatched)).length ≤ 1 ∧
          ((later.files.history taskId).filter (·.kind.IsTerminal)).length ≤ 1) ∧
      (∀ taskId result, env.credited? config.files taskId = some result →
        env.credited? later.files taskId = some result) ∧
      (∀ files journal, later = .live files journal → ∀ taskId,
        (∃ event ∈ config.files.history taskId, event.kind = .dispatched) →
          taskId ∉ resumableTaskIds journal ∧ taskId ∉ activatableTaskIds journal ∧
            taskId ∉ dispatchableTaskIds journal) ∧
      (∀ files, config = .down files → ∀ result ∈ files.resultObservations,
        env.credited? files result.taskId ≠ some result →
          env.credited? later.files result.taskId = some result →
            env.Excused later.files result) := by
  have holds := before.holds free
  have holdsLater := Campaign.holds_of_holds free holds after
  have extends_ := after.extends_ free holds
  refine ⟨extends_.events, holdsLater.coherent.atMostOnce, extends_.credited, ?_, ?_⟩
  · rintro files journal rfl taskId ⟨event, member, kind⟩
    obtain ⟨eventMem, same⟩ := List.mem_filter.mp member
    have live : env.Live manifest files journal := holdsLater
    have kept : event ∈ files.history taskId :=
      List.mem_filter.mpr ⟨extends_.events.subset eventMem, same⟩
    exact ⟨live.not_offered kept kind (by simp), live.not_offered kept kind (by simp),
      live.not_offered kept kind (by simp)⟩
  · rintro files rfl result member uncredited
    exact (Campaign.late free holds ⟨member, fun credited => absurd credited uncredited⟩
      after).excused

/-- A dispatch that a crash interrupts: after the resume the task is not offered
again, and it has one dispatch and one terminal event. -/
theorem dispatch_at_most_once_sample :
    ∃ (journal : Journal Encoded Unit) (log : List (Artifact Encoded Unit)),
      canonicalEnvironment.Campaign sampleManifest [3] (fun _ _ => True)
        (newConfig sampleManifest [3])
        (.live (writeAll (canonicalEnvironment.canonical (sampleState orientationDispatch).1) log)
          journal) ∧
      orientationTaskId ∉ resumableTaskIds journal ∧
        orientationTaskId ∉ activatableTaskIds journal ∧
          orientationTaskId ∉ dispatchableTaskIds journal := by
  have calls := campaign_sampleState (fun _ _ => True) orientationDispatch (fun _ _ _ _ => trivial) (by decide +kernel)
  have before : canonicalEnvironment.Campaign sampleManifest [3] (fun _ _ => True)
      (newConfig sampleManifest [3]) (.down (sampleState orientationDispatch).1) :=
    .step calls trivial .close
  have returns : (sampleResumed (sampleState orientationDispatch).1).isSome := by decide +kernel
  obtain ⟨journal, resumed⟩ := Option.isSome_iff_exists.mp returns
  have after := resume_sample (fun _ _ => True) trivial resumed
  have main := dispatch_at_most_once canonical_collisionFree before after
  have dispatched : ∃ event ∈ (sampleState orientationDispatch).1.history orientationTaskId,
      event.kind = .dispatched := by decide +kernel
  exact ⟨journal, _, before.trans after, main.2.2.2.1 _ journal rfl orientationTaskId dispatched⟩

end AtMostOnce

end Environment

end Scheduler

end MmAudit
