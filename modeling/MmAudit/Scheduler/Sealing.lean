import MmAudit.Scheduler.Finishing
import MmAudit.Scheduler.Retaining

/-!
# Sealing a finished pass

When every task of the current pass has a credited result, the seal of the pass
is accepted exactly when its empty completions are the tasks that ended explicitly
empty and the record is small enough.  The journal itself may record anything else:
a model task may be recorded as explicitly empty, and recovery concludes a
dispatched empty completion as uncertain.
-/

set_option linter.unusedSectionVars false

namespace MmAudit

namespace Scheduler

open Fallible Keyed Logged

namespace Environment

variable {Sha Payload : Type} [LinearOrder Sha] [DecidableEq Payload]
  {env : Environment Sha Payload} {manifest : CampaignManifest Sha} {analysisInputSha256 : Sha}
  {archive files : Archive Sha Payload} {journal next : Journal Sha Payload}
  {plan : PassPlan Sha} {task : TaskPlan Sha} {result : TaskResult Sha}

/-! ## The checks after the seal -/

section Checks

/-- A dictionary over items with distinct keys has as many entries as there are
items. -/
theorem length_items_eq {Key Item Value : Type} [DecidableEq Key] {dict : Dict Key Value}
    {items : List Item} (key : Item → Key) (distinct : (items.map key).Nodup)
    (same : ∀ sought, (dict.get? sought).isSome ↔ sought ∈ items.map key) :
    dict.items.length = items.length := by
  have perm : dict.keys.Perm (items.map key) := by
    refine (List.perm_ext_iff_of_nodup dict.nodup distinct).mpr fun sought => ?_
    rw [← same, Option.isSome_iff_exists, ← Dict.mem_iff_exists_get?]
    rfl
  have length := perm.length_eq
  rwa [Dict.keys, List.length_map, List.length_map] at length

theorem find?_isSome_iff {Item : Type} (key : Item → Sha) (items : List Item) (sought : Sha) :
    (items.find? (key · = sought)).isSome ↔ sought ∈ items.map key := by
  rw [← not_iff_not, Bool.not_eq_true, Option.isSome_eq_false_iff, Option.isNone_iff_eq_none,
    find?_eq_none_iff]

/-- The indexes of a tracked journal hold as much as its files. -/
theorem Tracks.counts (tracks : env.Tracks manifest archive journal) :
    journal.indexes.tasks.items.length = (Archive.plannedTasks archive.plans).length ∧
      journal.indexes.activations.items.length = archive.activations.length ∧
      journal.indexes.outputs.items.length = archive.outputs.length ∧
      journal.indexes.providerAttempts.items.length = archive.providerAttempts.length ∧
      journal.indexes.resultsByHash.items.length = archive.resultObservations.length ∧
      journal.indexes.eventIds.length = archive.events.length := by
  have indexed := tracks.indexed
  have coherent := tracks.coherent
  refine ⟨?_, ?_, ?_, ?_, ?_, ?_⟩
  · refine length_items_eq (fun entry => env.taskId entry.1) coherent.distinctTasks fun sought => ?_
    rw [indexed.tasks]
    exact find?_isSome_iff (fun entry : TaskPlan Sha × PassPlan Sha => env.taskId entry.1) _ _
  · refine length_items_eq (·.taskId) coherent.distinctActivations fun sought => ?_
    rw [indexed.activations]
    exact find?_isSome_iff (fun activation : TaskActivation Sha => activation.taskId) _ _
  · refine length_items_eq (·.taskId) coherent.distinctOutputs fun sought => ?_
    rw [indexed.outputs]
    exact find?_isSome_iff (fun output : TaskOutput Sha Payload => output.taskId) _ _
  · refine length_items_eq (·.taskId) coherent.distinctAttempts fun sought => ?_
    rw [indexed.providerAttempts]
    exact find?_isSome_iff (fun attempt : ProviderAttemptEvidence Sha => attempt.taskId) _ _
  · refine length_items_eq env.result coherent.distinctResults fun sought => ?_
    rw [indexed.resultsByHash]
    exact find?_isSome_iff env.result _ _
  · rw [indexed.eventIds, List.length_map]

/-- The last event of the files is in its place. -/
theorem Coherent.validateEventTail_ok (coherent : env.Coherent manifest archive) :
    env.validateEventTail archive.events = .ok () := by
  unfold validateEventTail
  rcases List.eq_nil_or_concat archive.events with empty | ⟨before, event, split⟩
  · rw [empty]
    rfl
  · rw [List.concat_eq_append] at split
    obtain ⟨task, plan, activation, result, -, -, -, built⟩ :=
      coherent.exactEvents before event [] split
    have same := (buildEvent_spec built).1
    rw [split, List.getLast?_concat]
    simp only [raiseIf_eq_ok_iff, List.dropLast_concat, List.length_append, List.length_singleton]
    rw [same]
    simp [taskEvent]

/-- The journal after one more pass result passes the checks on its tail. -/
theorem Live.validateIncrementalState_ok (live : env.Live manifest archive journal)
    (inputs : journal.analysisInputSha256 = manifest.analysisInputSha256)
    (planned : archive.plans[archive.passResults.length]? = some plan)
    (results : List (TaskResult Sha)) :
    env.validateIncrementalState
      { journal with archive := archive.write (.passResult (passRecord plan results)) } none =
        .ok () := by
  obtain ⟨tasks, activations, outputs, attempts, observations, events⟩ := live.counts
  have bound := (List.getElem?_eq_some_iff.mp planned).choose
  have plansBound := live.coherent.plansFollowResults
  unfold validateIncrementalState
  rw [check_bind_eq_ok_iff, check_bind_eq_ok_iff, check_bind_eq_ok_iff]
  refine ⟨?_, live.coherent.validateEventTail_ok, ?_, rfl⟩
  · rw [raiseIf_eq_ok_iff]
    simp only [Archive.write, tasks, activations, outputs, attempts, observations, events,
      live.sameManifest, inputs, ne_eq, not_true_eq_false, List.length_append,
      List.length_singleton, false_or]
    omega
  · unfold validatePassTail
    simp only [Archive.write, List.getLast?_concat, raiseIf_eq_ok_iff, List.length_append,
      List.length_singleton, Nat.add_sub_cancel, planned]
    simp [PassResultBindsPlan, passRecord]

/-- The result that a seal takes for a task is the credited one. -/
theorem Live.exactTaskResult_ok (live : env.Live manifest archive journal) {taskId : Sha}
    (credited : env.credited? archive taskId = some result) :
    env.exactTaskResult journal taskId = .ok result := by
  have phase := live.coherent.phases taskId
  have given : (env.view archive taskId).credited = some result := credited
  have finished : LifecycleIsTerminal (archive.history taskId) result ∧
      (archive.history taskId).find? (·.kind.IsTerminal) = (archive.history taskId).getLast? := by
    change LifecycleIsTerminal (env.view archive taskId).history result ∧
      (env.view archive taskId).history.find? (·.kind.IsTerminal) =
        (env.view archive taskId).history.getLast?
    generalize env.view archive taskId = view at phase given
    cases phase with
    | preflightFailed firstKind lastKind built =>
        cases given
        have origin := (buildPreflightFailure_spec built).2.1
        simp [LifecycleIsTerminal, EndsIn, origin, firstKind, lastKind, EventKind.IsTerminal]
    | activatedFailed firstKind secondKind lastKind exact_ failure built =>
        cases given
        have origin := (buildTaskResult_spec built).2.1
        simp [LifecycleIsTerminal, EndsIn, origin, firstKind, secondKind, lastKind,
          EventKind.IsTerminal]
    | concluded firstKind secondKind dispatchKind lastKind exact_ retains observed selected =>
        cases given
        have origin : result.resultOrigin = .activated := by
          refine (observed.built ?_).1
          rw [observed.perm.mem_iff]
          rcases selected with same | ⟨-, same⟩ <;> simp [same]
        simp [LifecycleIsTerminal, EndsIn, origin, firstKind, secondKind, dispatchKind, lastKind,
          EventKind.IsTerminal]
    | _ => cases given
  have reference : (archive.history taskId).getLast?.bind (·.taskResultSha256) =
      some (env.result result) := by
    unfold credited? at credited
    rw [finished.2] at credited
    simp only [Option.bind_eq_some_iff] at credited
    obtain ⟨event, last, sha, named, found⟩ := credited
    have same : env.result result = sha := by simpa using List.find?_some found
    rw [last, Option.bind_some, named, same]
  unfold exactTaskResult
  rw [live.indexed.credited, credited]
  simp only [raiseIf_bind_eq_ok_iff]
  rw [live.historyForTask_eq]
  exact ⟨by simp [finished.1, reference], trivial⟩

end Checks

/-! ## Sealing -/

section Seal

/-- The current plan has no pass result yet, and every task of it has a credited
one. -/
def Terminal (env : Environment Sha Payload) (archive : Archive Sha Payload) (plan : PassPlan Sha)
    (results : List (TaskResult Sha)) : Prop :=
  archive.plans[archive.passResults.length]? = some plan ∧
    plan.tasks.map (fun task => env.credited? archive (env.taskId task)) = results.map some

theorem Coherent.finishedPass (coherent : env.Coherent manifest archive)
    {results : List (TaskResult Sha)} (terminal : env.Terminal archive plan results) :
    env.FinishedPass plan results := by
  obtain ⟨current, credited⟩ := terminal
  have length : plan.tasks.length = results.length := by
    simpa using congrArg List.length credited
  refine List.forall₂_iff_get.mpr ⟨length, fun index taskBound resultBound => ?_⟩
  have place := congrArg (fun items => items[index]?) credited
  simp only [List.getElem?_map, List.getElem?_eq_getElem taskBound,
    List.getElem?_eq_getElem resultBound, Option.map_some, Option.some.injEq] at place
  have planned : env.plannedTask? archive (env.taskId (plan.tasks.get ⟨index, taskBound⟩)) =
      some (plan.tasks.get ⟨index, taskBound⟩, plan) := by
    refine coherent.plannedTask?_eq_some_iff.mpr ⟨?_, rfl⟩
    exact List.mem_flatMap.mpr ⟨plan, List.mem_of_getElem? current,
      List.mem_map_of_mem (List.get_mem _ _)⟩
  exact coherent.finished planned place

/-- A seal of the current pass writes the record of its credited results, and it
is accepted exactly when empty completions and explicitly empty results go together
and the record is small enough. -/
theorem Live.sealPassResult_iff (live : env.Live manifest archive journal)
    (inputs : journal.analysisInputSha256 = manifest.analysisInputSha256)
    {results : List (TaskResult Sha)} (terminal : env.Terminal archive plan results)
    {log : List (Artifact Sha Payload)} :
    (env.sealPassResult journal plan.passKind).Returns log next ↔
      ((∀ pair ∈ plan.tasks.zip results, EmptyExactly pair.1 pair.2) ∧
        env.Fits (.passResult (passRecord plan results))) ∧
      log = [.passResult (passRecord plan results)] ∧
      next = { journal with archive := archive.write (.passResult (passRecord plan results)) } := by
  have finished := live.coherent.finishedPass terminal
  obtain ⟨current, credited⟩ := terminal
  have valid := (live.coherent.plans _ plan current).valid
  have toSeal : planToSeal journal plan.passKind = .ok plan := by
    unfold planToSeal
    rw [live.sameArchive, current]
    simp only [raiseIf_bind_eq_ok_iff]
    exact ⟨not_not.mpr rfl, trivial⟩
  have taken : plan.tasks.mapM (fun task => env.exactTaskResult journal (env.taskId task)) =
      .ok results := by
    rw [mapM_eq_ok_iff]
    exact map_eq_map_of_agrees (fun task result same => live.exactTaskResult_ok same) credited
  have retained : env.retainPassResult journal (passRecord plan results) =
      .ok { journal with archive := archive.write (.passResult (passRecord plan results)) } := by
    unfold Environment.retainPassResult
    rw [live.sameArchive, raiseIf_bind_eq_ok_iff]
    exact ⟨by simp [current, PassResultBindsPlan, passRecord], rfl⟩
  have checked := live.validateIncrementalState_ok inputs current results
  unfold Environment.sealPassResult
  simp only [returns_lift_bind_iff, returns_writeModel_bind_iff, returns_pure_iff]
  constructor
  · rintro ⟨_, found, _, computed, passResult, built, fits, rest, ⟨middle, kept, _, -, rfl, rfl⟩,
      rfl⟩
    obtain rfl := Except.ok.inj (toSeal.symm.trans found)
    obtain rfl := Except.ok.inj (taken.symm.trans computed)
    obtain ⟨rfl, exactly⟩ := (finished.buildPassResult_iff valid).mp built
    exact ⟨⟨exactly, fits⟩, rfl, (Except.ok.inj (retained.symm.trans kept)).symm⟩
  · rintro ⟨⟨exactly, fits⟩, rfl, rfl⟩
    exact ⟨plan, toSeal, results, taken, passRecord plan results,
      (finished.buildPassResult_iff valid).mpr ⟨rfl, exactly⟩, fits, [],
      ⟨_, retained, (), checked, rfl, rfl⟩, rfl⟩

/-- A seal names the pass of the current plan. -/
theorem Live.terminal_of_sealPassResult (live : env.Live manifest archive journal)
    {kind : PassKind} {log : List (Artifact Sha Payload)}
    (accepted : (env.sealPassResult journal kind).Returns log next) :
    ∃ plan results, plan.passKind = kind ∧ env.Terminal archive plan results := by
  unfold Environment.sealPassResult at accepted
  simp only [returns_lift_bind_iff, mapM_eq_ok_iff] at accepted
  obtain ⟨plan, found, results, computed, -⟩ := accepted
  unfold planToSeal at found
  rw [live.sameArchive] at found
  cases current : archive.plans[archive.passResults.length]? with
  | none =>
      rw [current] at found
      cases found
  | some other =>
      rw [current] at found
      simp only [raiseIf_bind_eq_ok_iff, Except.ok.injEq, not_not] at found
      obtain ⟨sameKind, rfl⟩ := found
      exact ⟨other, results, sameKind, current,
        map_eq_map_of_agrees (fun task result same => live.credited_of_exactTaskResult same)
          computed⟩

/-- A pass is planned only after complete ones. -/
theorem Live.complete_of_sealPassPlan (live : env.Live manifest archive journal)
    {log : List (Artifact Sha Payload)}
    (accepted : (env.sealPassPlan journal plan).Returns log next) :
    ∀ passResult ∈ archive.passResults, passResult.status = .complete := by
  unfold Environment.sealPassPlan at accepted
  simp only [returns_lift_bind_iff, raiseIf_eq_ok_iff] at accepted
  obtain ⟨_, -, _, -, _, -, _, -, _, complete, -⟩ := accepted
  rw [live.sameArchive] at complete
  simpa using complete

end Seal

/-! ## Campaigns -/

section Campaigns

theorem retain_inputs {artifact : Artifact Sha Payload}
    (retained : env.retain journal artifact = .ok next) :
    next.analysisInputSha256 = journal.analysisInputSha256 := by
  cases artifact with
  | plan plan =>
      unfold retain Environment.retainPlan at retained
      simp only [bind_eq_ok_iff, Except.ok.injEq] at retained
      obtain ⟨_, -, rfl⟩ := retained
      rfl
  | activation activation =>
      unfold retain Environment.retainActivation at retained
      simp only [bind_eq_ok_iff, Except.ok.injEq] at retained
      obtain ⟨_, -, _, -, _, -, rfl⟩ := retained
      rfl
  | event event =>
      unfold retain Environment.retainEvent at retained
      simp only [bind_eq_ok_iff, Except.ok.injEq] at retained
      obtain ⟨_, -, _, -, _, -, _, -, rfl⟩ := retained
      rfl
  | output output =>
      unfold retain Environment.retainOutput at retained
      simp only [bind_eq_ok_iff, Except.ok.injEq] at retained
      obtain ⟨_, -, _, -, _, -, rfl⟩ := retained
      rfl
  | providerAttempt attempt =>
      unfold retain Environment.retainProviderAttempt at retained
      simp only [bind_eq_ok_iff, Except.ok.injEq] at retained
      obtain ⟨_, -, rfl⟩ := retained
      rfl
  | taskResult result =>
      unfold retain Environment.retainResultObservation at retained
      simp only [bind_eq_ok_iff, Except.ok.injEq] at retained
      obtain ⟨_, -, rfl⟩ := retained
      rfl
  | passResult result =>
      unfold retain Environment.retainPassResult at retained
      simp only [bind_eq_ok_iff, Except.ok.injEq] at retained
      obtain ⟨_, -, rfl⟩ := retained
      rfl

theorem retainAll_inputs {log : List (Artifact Sha Payload)}
    (retained : env.retainAll journal log = .ok next) :
    next.analysisInputSha256 = journal.analysisInputSha256 := by
  induction log generalizing journal with
  | nil =>
      obtain rfl := Except.ok.inj retained
      rfl
  | cons artifact log ih =>
      unfold retainAll at retained
      rw [List.foldlM_cons, bind_eq_ok_iff] at retained
      obtain ⟨middle, first, rest⟩ := retained
      exact (ih rest).trans (retain_inputs first)

/-- A running journal keeps the analysis inputs that it was created with. -/
theorem Campaign.inputs {allowed : Config Sha Payload → Action Sha Payload → Prop}
    {config : Config Sha Payload}
    (history : env.Campaign manifest analysisInputSha256 allowed
      (newConfig manifest analysisInputSha256) config)
    (running : config = .live files journal) :
    journal.analysisInputSha256 = analysisInputSha256 := by
  generalize starting : newConfig manifest analysisInputSha256 = first at history
  induction history generalizing files journal with
  | start =>
      obtain ⟨-, rfl⟩ := Config.live.inj (starting.trans running)
      rfl
  | step history permitted step ih =>
      cases step with
      | call accepted =>
          obtain ⟨-, rfl⟩ := Config.live.inj running
          exact (retainAll_inputs (remembers_perform _ _ _ _ accepted)).trans (ih rfl)
      | resume resumed =>
          obtain ⟨-, rfl⟩ := Config.live.inj running
          unfold resumeJournal at resumed
          simp only [returns_lift_bind_iff] at resumed
          obtain ⟨opened, found, _, -, recovery⟩ := resumed
          obtain ⟨log, recovered, rest, returned, finish, -⟩ := returns_bind_iff.mp recovery
          simp only [returns_lift_bind_iff, returns_pure_iff] at finish
          obtain ⟨_, -, -, rfl⟩ := finish
          rw [retainAll_inputs (remembers_recoverInterruptedState _ _ _ returned)]
          unfold openJournal at found
          simp only [bind_eq_ok_iff, Except.ok.injEq] at found
          obtain ⟨_, -, _, -, rfl⟩ := found
          rfl
      | crash | close | interrupt => cases running

/-- In every state that a campaign reaches: a pass whose tasks all have credited
results can be sealed exactly when its empty completions are the tasks that ended
explicitly empty and the record is small enough; the sealed status is complete
exactly when every task succeeded or ended explicitly empty; and a pass is planned
only after complete ones. -/
theorem finished_pass_seals_iff (free : env.CollisionFree)
    (inputs : manifest.analysisInputSha256 = analysisInputSha256)
    {allowed : Config Sha Payload → Action Sha Payload → Prop}
    (history : env.Campaign manifest analysisInputSha256 allowed
      (newConfig manifest analysisInputSha256) (.live files journal)) :
    (∀ plan results, env.Terminal files plan results →
      ((∃ log next, (env.perform journal (.sealPassResult plan.passKind)).Returns log next) ↔
        (∀ pair ∈ plan.tasks.zip results, EmptyExactly pair.1 pair.2) ∧
          env.Fits (.passResult (passRecord plan results)))) ∧
    (∀ kind log next, (env.perform journal (.sealPassResult kind)).Returns log next →
      ∃ plan results passResult, plan.passKind = kind ∧ env.Terminal files plan results ∧
        log = [.passResult passResult] ∧ passResult.plan = plan ∧
        passResult.taskResults = results ∧
        (passResult.status = .complete ↔ ∀ result ∈ results,
          result.terminalStatus = .succeeded ∨ result.terminalStatus = .explicitEmpty)) ∧
    ∀ plan log next, (env.perform journal (.sealPassPlan plan)).Returns log next →
      ∀ passResult ∈ files.passResults, passResult.status = .complete := by
  have live : env.Live manifest files journal := Campaign.holds free history
  have same : journal.analysisInputSha256 = manifest.analysisInputSha256 :=
    (Campaign.inputs history rfl).trans inputs.symm
  refine ⟨fun plan results terminal => ?_, fun kind log next accepted => ?_,
    fun plan log next accepted => live.complete_of_sealPassPlan accepted⟩
  · constructor
    · rintro ⟨log, next, accepted⟩
      exact ((live.sealPassResult_iff same terminal).mp accepted).1
    · intro possible
      exact ⟨_, _, (live.sealPassResult_iff same terminal).mpr ⟨possible, rfl, rfl⟩⟩
  · obtain ⟨plan, results, rfl, terminal⟩ := live.terminal_of_sealPassResult accepted
    obtain ⟨-, written, -⟩ := (live.sealPassResult_iff same terminal).mp accepted
    exact ⟨plan, results, passRecord plan results, rfl, terminal, written, rfl, rfl,
      derivedPassStatus_eq_complete_iff⟩

/-- The transitions of a campaign whose first pass ended with a status. -/
def endedOrientation (status : TerminalStatus) : List (Operation Encoded Unit) :=
  orientationDispatch ++ [.recordTerminal (orientationResult status)]

theorem terminal_endedOrientation {status : TerminalStatus}
    (ended : (sampleState (endedOrientation status)).1.passResults = [] ∧
      (sampleState (endedOrientation status)).1.plans = [orientationPlan] ∧
      canonicalEnvironment.credited? (sampleState (endedOrientation status)).1 orientationTaskId =
        some (orientationResult status)) :
    canonicalEnvironment.Terminal (sampleState (endedOrientation status)).1 orientationPlan
      [orientationResult status] := by
  refine ⟨by rw [ended.1, ended.2.1]; rfl, ?_⟩
  change [canonicalEnvironment.credited? _ orientationTaskId] = _
  rw [ended.2.2]
  rfl

/-- A failed pass is sealed. -/
theorem finished_pass_seals_sample :
    ∃ log next, (canonicalEnvironment.perform (sampleState (endedOrientation .failed)).2
      (.sealPassResult .orientation)).Returns log next := by
  have history := campaign_sampleState (fun _ _ => True) (endedOrientation .failed)
    (fun _ _ _ _ => trivial) (by decide +kernel)
  have terminal : canonicalEnvironment.Terminal (sampleState (endedOrientation .failed)).1
      orientationPlan [orientationResult .failed] :=
    terminal_endedOrientation (by decide +kernel)
  exact ((finished_pass_seals_iff canonical_collisionFree rfl history).1 orientationPlan _
    terminal).mpr ⟨by decide, by decide⟩

/-- A model task that was recorded as explicitly empty leaves a pass that can never
be sealed. -/
theorem explicit_empty_model_task_blocks_seal :
    ∃ files journal, canonicalEnvironment.Campaign sampleManifest [3] (fun _ _ => True)
        (newConfig sampleManifest [3]) (.live files journal) ∧
      canonicalEnvironment.Terminal files orientationPlan [orientationResult .explicitEmpty] ∧
      ∃ failure, (canonicalEnvironment.perform journal (.sealPassResult .orientation)).result =
        .error failure := by
  have history := campaign_sampleState (fun _ _ => True) (endedOrientation .explicitEmpty)
    (fun _ _ _ _ => trivial) (by decide +kernel)
  exact ⟨_, _, history, terminal_endedOrientation (by decide +kernel),
    eq_error_of_toOption_eq_none (by decide +kernel)⟩

end Campaigns

end Environment

end Scheduler

end MmAudit
