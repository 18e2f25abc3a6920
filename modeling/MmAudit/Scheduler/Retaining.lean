import MmAudit.Scheduler.Reconstruction
import MmAudit.Scheduler.CrashSafety

/-!
# The journal in memory between two writes

Transitions and recovery retain every file right after they write it.  So the
journal in memory after a part of a log is the journal that retaining this part,
file by file, gives.  Its indexes agree with their reconstruction as long as the
results of each task come in the order of their digests.  A running journal has at
most one result that it added itself for a task, so only recovery can break the
order: when it adds an uncertain result to a task that has a result with a greater
digest already.
-/

set_option linter.unusedSectionVars false

namespace MmAudit

namespace Scheduler

open Fallible Keyed Logged

namespace Environment

variable {Sha Payload : Type} [LinearOrder Sha] [DecidableEq Payload]

section Definitions

variable (env : Environment Sha Payload)

/-- Retain one file in memory. -/
def retain (journal : Journal Sha Payload) :
    Artifact Sha Payload → Except String (Journal Sha Payload)
  | .plan plan => env.retainPlan journal plan
  | .activation activation => env.retainActivation journal activation
  | .event event => env.retainEvent journal event
  | .output output => env.retainOutput journal output
  | .providerAttempt attempt => retainProviderAttempt journal attempt
  | .taskResult result => env.retainResultObservation journal result
  | .passResult result => env.retainPassResult journal result

/-- The journal in memory after the files of a log. -/
def retainAll (journal : Journal Sha Payload) (log : List (Artifact Sha Payload)) :
    Except String (Journal Sha Payload) :=
  log.foldlM env.retain journal

/-- A computation that retains exactly what it writes. -/
def Remembers (start : Journal Sha Payload)
    (computation : Logged (Artifact Sha Payload) (Journal Sha Payload)) : Prop :=
  ∀ log next, computation.Returns log next → env.retainAll start log = .ok next

end Definitions

variable {env : Environment Sha Payload} {manifest : CampaignManifest Sha}
  {analysisInputSha256 : Sha} {archive files base : Archive Sha Payload}
  {journal next start : Journal Sha Payload} {artifact : Artifact Sha Payload}
  {config later : Config Sha Payload} {cause : Cause Sha Payload}
  {log written : List (Artifact Sha Payload)}

/-! ## Writing is remembered -/

section Remembering

theorem remembers_pure (journal : Journal Sha Payload) : env.Remembers journal (pure journal) := by
  intro log next returned
  obtain ⟨rfl, rfl⟩ := returns_pure_iff.mp returned
  rfl

theorem remembers_lift_bind {Value : Type} {computation : Except String Value}
    {continuation : Value → Logged (Artifact Sha Payload) (Journal Sha Payload)}
    (rest : ∀ value, computation = .ok value → env.Remembers start (continuation value)) :
    env.Remembers start (Logged.lift computation >>= continuation) := by
  intro log next returned
  obtain ⟨value, found, finished⟩ := returns_lift_bind_iff.mp returned
  exact rest value found log next finished

theorem remembers_bind
    {computation : Logged (Artifact Sha Payload) (Journal Sha Payload)}
    {continuation : Journal Sha Payload → Logged (Artifact Sha Payload) (Journal Sha Payload)}
    (first : env.Remembers start computation)
    (rest : ∀ journal, env.Remembers journal (continuation journal)) :
    env.Remembers start (computation >>= continuation) := by
  intro log next returned
  obtain ⟨before, middle, after, begun, finished, rfl⟩ := returns_bind_iff.mp returned
  unfold retainAll
  rw [List.foldlM_append, bind_eq_ok_iff]
  exact ⟨middle, first before middle begun, rest middle after next finished⟩

/-- A file that is written and then retained. -/
theorem remembers_write (artifact : Artifact Sha Payload)
    {continuation : Journal Sha Payload → Logged (Artifact Sha Payload) (Journal Sha Payload)}
    (rest : ∀ journal, env.Remembers journal (continuation journal)) :
    env.Remembers start (do
      env.writeModel artifact
      let journal ← Logged.lift (env.retain start artifact)
      continuation journal) := by
  intro log next returned
  simp only [returns_writeModel_bind_iff, returns_lift_bind_iff] at returned
  obtain ⟨-, after, ⟨middle, retained, finished⟩, rfl⟩ := returned
  unfold retainAll
  rw [List.foldlM_cons, bind_eq_ok_iff]
  exact ⟨middle, retained, rest middle after next finished⟩

theorem remembers_foldlM {Item : Type}
    {body : Journal Sha Payload → Item → Logged (Artifact Sha Payload) (Journal Sha Payload)}
    (items : List Item) (bodies : ∀ journal item, env.Remembers journal (body journal item))
    (start : Journal Sha Payload) : env.Remembers start (items.foldlM body start) := by
  induction items generalizing start with
  | nil => exact remembers_pure start
  | cons item items ih =>
      rw [List.foldlM_cons]
      exact remembers_bind (bodies start item) fun journal => ih journal

/-- The checks after the last write. -/
theorem remembers_check {check : Except String Unit} (journal : Journal Sha Payload) :
    env.Remembers journal (do
      Logged.lift check
      pure journal) :=
  remembers_lift_bind fun _ _ => remembers_pure journal

theorem remembers_appendEvent (journal : Journal Sha Payload) (plan : PassPlan Sha)
    (task : TaskPlan Sha) (kind : EventKind) (requestId : Option Sha)
    (activation : Option (TaskActivation Sha)) (result : Option (TaskResult Sha)) :
    env.Remembers journal (env.appendEvent journal plan task kind requestId activation result) := by
  unfold Environment.appendEvent
  refine remembers_lift_bind fun event _ => ?_
  exact remembers_write (.event event) fun journal => remembers_check journal

/-- Every transition retains exactly what it writes. -/
theorem remembers_perform (journal : Journal Sha Payload) (operation : Operation Sha Payload) :
    env.Remembers journal (env.perform journal operation) := by
  cases operation with
  | sealPassPlan plan =>
      unfold Environment.perform Environment.sealPassPlan
      refine remembers_lift_bind fun _ _ => remembers_lift_bind fun _ _ =>
        remembers_lift_bind fun _ _ => remembers_lift_bind fun _ _ =>
        remembers_lift_bind fun _ _ => remembers_lift_bind fun _ _ =>
        remembers_lift_bind fun _ _ => ?_
      refine remembers_write (.plan plan) fun journal => ?_
      refine remembers_bind (remembers_foldlM plan.tasks
        (fun journal task => remembers_appendEvent journal plan task _ _ _ _) journal) ?_
      exact fun journal => remembers_check journal
  | activateTask taskId material =>
      unfold Environment.perform Environment.activateTask
      refine remembers_lift_bind fun entry _ => remembers_lift_bind fun _ _ =>
        remembers_lift_bind fun _ _ => remembers_lift_bind fun _ _ =>
        remembers_lift_bind fun activation _ => ?_
      exact remembers_write (.activation activation)
        fun journal => remembers_appendEvent journal _ _ _ _ _ _
  | markDispatched taskId =>
      unfold Environment.perform Environment.markDispatched
      refine remembers_lift_bind fun entry _ => remembers_lift_bind fun _ _ =>
        remembers_lift_bind fun activation _ => remembers_lift_bind fun _ _ => ?_
      exact remembers_appendEvent journal _ _ _ _ _ _
  | persistOutput taskId arguments =>
      unfold Environment.perform Environment.persistOutput
      refine remembers_lift_bind fun entry _ => remembers_lift_bind fun _ _ =>
        remembers_lift_bind fun activation _ => remembers_lift_bind fun _ _ =>
        remembers_lift_bind fun _ _ => remembers_lift_bind fun output _ => ?_
      exact remembers_write (.output output) fun journal => remembers_check journal
  | persistProviderAttempt taskId usage =>
      unfold Environment.perform Environment.persistProviderAttempt
      refine remembers_lift_bind fun entry _ => remembers_lift_bind fun _ _ =>
        remembers_lift_bind fun _ _ => remembers_lift_bind fun activation _ =>
        remembers_lift_bind fun attempt _ => ?_
      exact remembers_write (.providerAttempt attempt)
        fun journal => remembers_check journal
  | recordTerminal result =>
      unfold Environment.perform Environment.recordTerminal
      refine remembers_lift_bind fun entry _ => remembers_lift_bind fun _ _ =>
        remembers_lift_bind fun activation _ => remembers_lift_bind fun _ _ =>
        remembers_lift_bind fun _ _ => remembers_lift_bind fun _ _ =>
        remembers_lift_bind fun _ _ => remembers_lift_bind fun _ _ => ?_
      exact remembers_write (.taskResult result)
        fun journal => remembers_appendEvent journal _ _ _ _ _ _
  | recordPreflightFailure result =>
      unfold Environment.perform Environment.recordPreflightFailure
      refine remembers_lift_bind fun entry _ => remembers_lift_bind fun _ _ =>
        remembers_lift_bind fun _ _ => remembers_lift_bind fun _ _ =>
        remembers_lift_bind fun _ _ => remembers_lift_bind fun _ _ => ?_
      exact remembers_write (.taskResult result)
        fun journal => remembers_appendEvent journal _ _ _ _ _ _
  | recordActivatedPreflightFailure result =>
      unfold Environment.perform Environment.recordActivatedPreflightFailure
      refine remembers_lift_bind fun entry _ => remembers_lift_bind fun activation _ =>
        remembers_lift_bind fun _ _ => remembers_lift_bind fun _ _ =>
        remembers_lift_bind fun _ _ => remembers_lift_bind fun _ _ =>
        remembers_lift_bind fun _ _ => ?_
      exact remembers_write (.taskResult result)
        fun journal => remembers_appendEvent journal _ _ _ _ _ _
  | sealPassResult kind =>
      unfold Environment.perform Environment.sealPassResult
      refine remembers_lift_bind fun plan _ => remembers_lift_bind fun results _ =>
        remembers_lift_bind fun passResult _ => ?_
      exact remembers_write (.passResult passResult)
        fun journal => remembers_check journal

theorem remembers_recoverPlanned (snapshot journal : Journal Sha Payload)
    (entry : TaskPlan Sha × PassPlan Sha) :
    env.Remembers journal (env.recoverPlanned snapshot journal entry) := by
  unfold recoverPlanned
  split
  · exact remembers_pure journal
  · exact remembers_appendEvent journal _ _ _ _ _ _

theorem remembers_recoverActivated (snapshot journal : Journal Sha Payload)
    (entry : TaskPlan Sha × PassPlan Sha) :
    env.Remembers journal (env.recoverActivated snapshot journal entry) := by
  unfold recoverActivated
  simp only
  split
  · split
    · exact remembers_appendEvent journal _ _ _ _ _ _
    · exact remembers_pure journal
  · exact remembers_pure journal

theorem remembers_retainUncertain (journal : Journal Sha Payload)
    (observations : List (TaskResult Sha)) (uncertain : TaskResult Sha) :
    env.Remembers journal (env.retainUncertain journal observations uncertain) := by
  unfold retainUncertain
  split
  · exact remembers_pure journal
  · intro log next returned
    simp only [returns_writeModel_bind_iff, returns_lift_iff] at returned
    obtain ⟨-, rest, ⟨rfl, retained⟩, rfl⟩ := returned
    unfold retainAll
    rw [List.foldlM_cons, bind_eq_ok_iff]
    exact ⟨next, retained, rfl⟩

theorem remembers_recoverTerminal (snapshot journal : Journal Sha Payload)
    (entry : TaskPlan Sha × PassPlan Sha) :
    env.Remembers journal (env.recoverTerminal snapshot journal entry) := by
  unfold recoverTerminal
  simp only
  split
  · exact remembers_pure journal
  · split
    · exact remembers_appendEvent journal _ _ _ _ _ _
    · unfold recoverActivatedPreflight
      exact remembers_lift_bind fun _ _ => remembers_appendEvent journal _ _ _ _ _ _
    · unfold recoverDispatched
      refine remembers_lift_bind fun _ _ => remembers_lift_bind fun _ _ =>
        remembers_lift_bind fun _ _ => ?_
      exact remembers_bind (remembers_retainUncertain journal _ _)
        fun journal => remembers_appendEvent journal _ _ _ _ _ _
    · exact remembers_pure journal

/-- Recovery retains exactly what it writes. -/
theorem remembers_recoverInterruptedState (journal : Journal Sha Payload) :
    env.Remembers journal (env.recoverInterruptedState journal) := by
  unfold recoverInterruptedState
  refine remembers_bind (remembers_foldlM _ (remembers_recoverPlanned journal) journal)
    fun planned => ?_
  refine remembers_bind (remembers_foldlM _ (remembers_recoverActivated planned) planned)
    fun activated => ?_
  exact remembers_foldlM _ (remembers_recoverTerminal activated) activated

end Remembering

/-! ## Memory follows the files -/

section Tracking

/-- Retaining an admissible file keeps the journal beside its files. -/
theorem Tracks.retain (tracks : env.Tracks manifest archive journal)
    (step : env.WriteStep manifest cause archive artifact)
    (retained : env.retain journal artifact = .ok next) :
    env.Tracks manifest (archive.write artifact) next := by
  have coherent := tracks.coherent.write step
  cases artifact with
  | plan plan =>
      change env.retainPlan journal plan = .ok next at retained
      unfold retainPlan at retained
      rw [raiseIf_bind_eq_ok_iff, not_or, not_not] at retained
      obtain ⟨⟨distinct, fresh⟩, same⟩ := retained
      obtain rfl := Except.ok.inj same
      push Not at fresh
      exact {
        sameArchive := by rw [← tracks.sameArchive]
        sameManifest := tracks.sameManifest
        indexed := tracks.indexed.addTasks (plannedTasks_append_singleton _ _)
          (fun entry member => by
            obtain ⟨task, taskMem, rfl⟩ := List.mem_map.mp member
            exact fresh task taskMem)
          (by rw [List.map_map]; exact distinct)
        coherent := coherent }
  | activation activation =>
      change env.retainActivation journal activation = .ok next at retained
      unfold retainActivation at retained
      simp only [bind_eq_ok_iff, Except.ok.injEq] at retained
      obtain ⟨_, fresh, entry, -, _, -, rfl⟩ := retained
      exact {
        sameArchive := by rw [← tracks.sameArchive]
        sameManifest := tracks.sameManifest
        indexed := tracks.indexed.addActivation (raiseIf_eq_ok_iff.mp fresh)
        coherent := coherent }
  | event event => exact tracks.retainEvent coherent retained
  | output output =>
      change env.retainOutput journal output = .ok next at retained
      unfold retainOutput at retained
      simp only [bind_eq_ok_iff, Except.ok.injEq] at retained
      obtain ⟨_, fresh, _, -, _, -, rfl⟩ := retained
      rw [raiseIf_eq_ok_iff, not_or] at fresh
      exact {
        sameArchive := by rw [← tracks.sameArchive]
        sameManifest := tracks.sameManifest
        indexed := tracks.indexed.addOutput fresh.1
        coherent := coherent }
  | providerAttempt attempt =>
      change retainProviderAttempt journal attempt = .ok next at retained
      unfold retainProviderAttempt at retained
      rw [raiseIf_bind_eq_ok_iff] at retained
      obtain ⟨fresh, same⟩ := retained
      obtain rfl := Except.ok.inj same
      push Not at fresh
      exact {
        sameArchive := by rw [← tracks.sameArchive]
        sameManifest := tracks.sameManifest
        indexed := tracks.indexed.addProviderAttempt fresh.2.2.2
        coherent := coherent }
  | taskResult result => exact tracks.retainResultObservation coherent retained
  | passResult result =>
      change env.retainPassResult journal result = .ok next at retained
      unfold retainPassResult at retained
      rw [raiseIf_bind_eq_ok_iff] at retained
      obtain ⟨-, same⟩ := retained
      obtain rfl := Except.ok.inj same
      exact {
        sameArchive := by rw [← tracks.sameArchive]
        sameManifest := tracks.sameManifest
        indexed := tracks.indexed.addPassResult result
        coherent := coherent }

/-- Retaining the files of a log one by one. -/
theorem Tracks.retainAll (tracks : env.Tracks manifest archive journal)
    (follows : Follows Archive.write (env.WriteStep manifest cause) archive log)
    (retained : env.retainAll journal log = .ok next) :
    env.Tracks manifest (writeAll archive log) next := by
  unfold Environment.retainAll at retained
  induction log generalizing archive journal with
  | nil =>
      obtain rfl := Except.ok.inj retained
      exact tracks
  | cons artifact log ih =>
      rw [List.foldlM_cons, bind_eq_ok_iff] at retained
      obtain ⟨middle, stepped, rest⟩ := retained
      exact ih (tracks.retain follows.1 stepped) follows.2 rest

end Tracking

/-! ## Results in order -/

section Ordering

theorem OrderedResults.write (ordered : env.OrderedResults archive)
    (inOrder : ∀ result, artifact = .taskResult result →
      ∀ earlier ∈ archive.observations result.taskId, env.result earlier < env.result result) :
    env.OrderedResults (archive.write artifact) := by
  intro taskId
  cases artifact with
  | taskResult result =>
      rw [observations_write_taskResult]
      by_cases here : result.taskId = taskId
      · subst here
        rw [if_pos rfl, List.pairwise_append]
        refine ⟨ordered _, List.pairwise_singleton _ _, fun earlier member last lastMem => ?_⟩
        obtain rfl := List.mem_singleton.mp lastMem
        exact inOrder last rfl earlier member
      · rw [if_neg here, List.append_nil]
        exact ordered taskId
  | plan | activation | event | output | providerAttempt | passResult => exact ordered taskId

/-- A transition adds results only to tasks without results. -/
theorem OrderedResults.write_call {files : Archive Sha Payload}
    (ordered : env.OrderedResults archive)
    (step : env.WriteStep manifest (.call files) archive artifact) :
    env.OrderedResults (archive.write artifact) := by
  refine ordered.write fun result same earlier member => ?_
  have nothing : ∀ {taskId : Sha}, result.taskId = taskId →
      (env.view archive taskId).observations = [] → env.result earlier < env.result result := by
    rintro _ rfl empty
    change archive.observations result.taskId = [] at empty
    rw [empty] at member
    cases member
  cases step with
  | plan | activation | output | attempt | event | passResult => cases same
  | preflightResult before built =>
      cases same
      exact nothing (buildPreflightFailure_spec built).1.taskId
        (congrArg TaskView.observations before)
  | activatedResult before failure built =>
      cases same
      exact nothing (buildTaskResult_spec built).1.taskId (congrArg TaskView.observations before)
  | recordedResult before recorded =>
      cases same
      exact nothing (buildTaskResult_spec recorded.built).1.taskId
        (congrArg TaskView.observations before)
  | uncertainResult impossible => cases impossible

end Ordering

/-! ## Recovery -/

section Recovering

/-- No event reports a dispatch. -/
def Undispatching (artifact : Artifact Sha Payload) : Prop :=
  ∀ event : TaskEvent Sha, artifact = .event event → event.kind ≠ .dispatched

theorem undispatching_of_appendEvent {plan : PassPlan Sha} {task : TaskPlan Sha}
    {kind : EventKind} {requestId : Option Sha} {activation : Option (TaskActivation Sha)}
    {result : Option (TaskResult Sha)} (other : kind ≠ .dispatched) :
    ∀ artifact ∈ (env.appendEvent journal plan task kind requestId activation result).log,
      Undispatching artifact := by
  intro artifact member event same
  unfold appendEvent at member
  rcases mem_log_bind member with impossible | ⟨written, built, member⟩
  · cases impossible
  rcases mem_log_bind member with wrote | ⟨_, -, member⟩
  · cases (eq_of_mem_writeModel wrote).symm.trans same
    rw [(buildEvent_spec built).1]
    exact other
  rcases mem_log_bind member with impossible | ⟨_, -, member⟩
  · cases impossible
  rcases mem_log_bind member with impossible | ⟨_, -, impossible⟩
  · cases impossible
  · cases impossible

theorem undispatching_of_recoverTerminal {snapshot : Journal Sha Payload}
    {entry : TaskPlan Sha × PassPlan Sha} :
    ∀ artifact ∈ (env.recoverTerminal snapshot journal entry).log, Undispatching artifact := by
  intro artifact member
  unfold recoverTerminal at member
  simp only at member
  split at member
  · cases member
  · split at member
    · exact undispatching_of_appendEvent (by simp) artifact member
    · unfold recoverActivatedPreflight at member
      rcases mem_log_bind member with impossible | ⟨_, -, member⟩
      · cases impossible
      · exact undispatching_of_appendEvent (by simp) artifact member
    · unfold recoverDispatched at member
      rcases mem_log_bind member with impossible | ⟨_, -, member⟩
      · cases impossible
      rcases mem_log_bind member with impossible | ⟨_, -, member⟩
      · cases impossible
      rcases mem_log_bind member with impossible | ⟨_, -, member⟩
      · cases impossible
      rcases mem_log_bind member with retained | ⟨_, -, member⟩
      · unfold retainUncertain at retained
        split at retained
        · cases retained
        · rcases mem_log_bind retained with wrote | ⟨_, -, impossible⟩
          · rintro event same
            cases (eq_of_mem_writeModel wrote).symm.trans same
          · cases impossible
      · exact undispatching_of_appendEvent (by simp) artifact member
    · cases member

/-- Recovery dispatches nothing. -/
theorem undispatching_of_recovery :
    ∀ artifact ∈ (env.recoverInterruptedState journal).log, Undispatching artifact := by
  intro artifact member
  unfold recoverInterruptedState at member
  simp only at member
  rcases mem_log_bind member with planned | ⟨_, -, member⟩
  · refine forall_mem_log_foldlM Undispatching _ (fun current entry other written => ?_) _ artifact
      planned
    unfold recoverPlanned at written
    split at written
    · cases written
    · exact undispatching_of_appendEvent (by simp) other written
  rcases mem_log_bind member with activated | ⟨_, -, terminal⟩
  · refine forall_mem_log_foldlM Undispatching _ (fun current entry other written => ?_) _ artifact
      activated
    unfold recoverActivated at written
    simp only at written
    split at written
    · split at written
      · exact undispatching_of_appendEvent (by simp) other written
      · cases written
    · cases written
  · exact forall_mem_log_foldlM Undispatching _
      (fun current entry => undispatching_of_recoverTerminal) _ artifact terminal

/-- Recovery will add no uncertain result to a task that has a result with a
greater digest. -/
def RecoversInOrder (env : Environment Sha Payload) (files : Archive Sha Payload) : Prop :=
  ∀ result ∈ files.resultObservations, env.credited? files result.taskId = none →
    ∀ uncertain, env.UncertainOf files uncertain → uncertain ∉ files.resultObservations →
      uncertain.taskId = result.taskId → env.result result < env.result uncertain

/-- What recovery keeps of the files it started with. -/
structure Settling (env : Environment Sha Payload) (manifest : CampaignManifest Sha)
    (base archive : Archive Sha Payload) : Prop where
  coherent : env.Coherent manifest archive
  plans : archive.plans = base.plans
  activations : archive.activations = base.activations
  dispatches : ∀ event ∈ archive.events, event.kind = .dispatched → event ∈ base.events
  grows : env.Extends base archive
  results : ∀ result ∈ archive.resultObservations,
    result ∈ base.resultObservations ∨ env.UncertainOf base result
  ordered : env.OrderedResults archive

/-- The uncertain results of the files are the ones they started with. -/
theorem Settling.uncertainOf (settling : env.Settling manifest base archive)
    {result : TaskResult Sha} (uncertain : env.UncertainOf archive result) :
    env.UncertainOf base result := by
  obtain ⟨task, plan, activation, dispatch, planned, activated, dispatched, kind, built⟩ := uncertain
  obtain ⟨member, same⟩ := List.mem_filter.mp dispatched
  exact ⟨task, plan, activation, dispatch, settling.plans ▸ planned,
    settling.activations ▸ activated,
    List.mem_filter.mpr ⟨settling.dispatches dispatch member kind, same⟩, kind, built⟩

theorem Settling.begin_ (coherent : env.Coherent manifest base)
    (ordered : env.OrderedResults base) : env.Settling manifest base base where
  coherent := coherent
  plans := rfl
  activations := rfl
  dispatches _ member _ := member
  grows := Extends.refl base
  results _ member := .inl member
  ordered := ordered

theorem Settling.write (inOrder : env.RecoversInOrder base)
    (settling : env.Settling manifest base archive)
    (step : env.RecoveryStep manifest archive artifact) (undispatching : Undispatching artifact) :
    env.Settling manifest base (archive.write artifact) := by
  have coherent := settling.coherent.write step.step
  have grows := settling.grows.trans (settling.coherent.extends_write artifact)
  have ordered : env.OrderedResults (archive.write artifact) := by
    refine settling.ordered.write fun result same earlier member => ?_
    have uncertain : env.UncertainOf base result := by
      rcases step.writes with ⟨event, other⟩ | ⟨written, other, uncertain⟩
      · cases same.symm.trans other
      · cases same.symm.trans other
        exact settling.uncertainOf uncertain
    have nothing : ∀ {taskId : Sha}, result.taskId = taskId →
        (env.view archive taskId).observations = [] →
          env.result earlier < env.result result := by
      rintro _ rfl empty
      change archive.observations result.taskId = [] at empty
      rw [empty] at member
      cases member
    cases step.step with
    | plan | activation | output | attempt | event | passResult => cases same
    | preflightResult before built =>
        cases same
        exact nothing (buildPreflightFailure_spec built).1.taskId
          (congrArg TaskView.observations before)
    | activatedResult before failure built =>
        cases same
        exact nothing (buildTaskResult_spec built).1.taskId (congrArg TaskView.observations before)
    | recordedResult before recorded =>
        cases same
        exact nothing (buildTaskResult_spec recorded.built).1.taskId
          (congrArg TaskView.observations before)
    | @uncertainResult plan task first second dispatch activation output attempt observations _
        recovery before built absent fresh =>
        cases same
        have here : result.taskId = env.taskId task := (buildTaskResult_spec built).1.taskId
        have observed : archive.observations result.taskId = observations :=
          here ▸ congrArg TaskView.observations before
        have new : result ∉ base.resultObservations := by
          intro old
          refine absent (observed ▸ List.mem_filter.mpr ⟨settling.grows.observations old, ?_⟩)
          simp
        have uncredited : env.credited? base result.taskId = none := by
          cases credited : env.credited? base result.taskId with
          | none => rfl
          | some selected =>
              have still := settling.grows.credited _ _ credited
              rw [here, show env.credited? archive (env.taskId task) = none from
                congrArg TaskView.credited before] at still
              cases still
        obtain ⟨retained, sameTask⟩ := List.mem_filter.mp member
        have earlierTask : earlier.taskId = result.taskId := of_decide_eq_true sameTask
        rcases settling.results earlier retained with old | recovered
        · exact inOrder earlier old (earlierTask ▸ uncredited) result uncertain new
            earlierTask.symm
        · -- Recovery builds one uncertain result for a task.
          have equal := eq_of_uncertainOf settling.coherent before built (observed ▸ member)
            (settling.grows.uncertainOf recovered)
          exact absurd (equal ▸ observed ▸ member) absent
  rcases step.writes with ⟨event, rfl⟩ | ⟨result, rfl, uncertain⟩
  · exact {
      coherent := coherent
      plans := settling.plans
      activations := settling.activations
      dispatches := fun other member kind => by
        rcases List.mem_append.mp member with old | new
        · exact settling.dispatches other old kind
        · obtain rfl := List.mem_singleton.mp new
          exact absurd kind (undispatching other rfl)
      grows := grows
      results := settling.results
      ordered := ordered }
  · exact {
      coherent := coherent
      plans := settling.plans
      activations := settling.activations
      dispatches := settling.dispatches
      grows := grows
      results := fun other member => by
        rcases List.mem_append.mp member with old | new
        · exact settling.results other old
        · obtain rfl := List.mem_singleton.mp new
          exact .inr (settling.uncertainOf uncertain)
      ordered := ordered }

/-- The order of the results does not depend on the order in which the files are
listed. -/
theorem RecoversInOrder.of_sameFiles {other : Archive Sha Payload}
    (inOrder : env.RecoversInOrder files) (coherent : env.Coherent manifest files)
    (same : SameFiles files other) : env.RecoversInOrder other := by
  intro result member uncredited uncertain built absent sameTask
  refine inOrder result (same.resultObservations.subset member)
    (same.credited? coherent _ ▸ uncredited) uncertain ?_
    (fun old => absent (same.resultObservations.symm.subset old)) sameTask
  obtain ⟨task, plan, activation, dispatch, planned, activated, dispatched, kind, recovered⟩ := built
  exact ⟨task, plan, activation, dispatch, same.plans ▸ planned, same.activations.subset activated,
    same.history _ ▸ dispatched, kind, recovered⟩

end Recovering

/-! ## Campaigns -/

section Campaigns

/-- A running journal has its results in order. -/
def InMemory (env : Environment Sha Payload) : Config Sha Payload → Prop
  | .live files _ => env.OrderedResults files
  | .down _ => True

/-- A resume that returns has compared its indexes. -/
theorem agrees_of_resumeJournal
    (resumed : (env.resumeJournal manifest analysisInputSha256 files).Returns log journal) :
    env.Agrees journal := by
  unfold Environment.resumeJournal at resumed
  simp only [returns_lift_bind_iff] at resumed
  obtain ⟨opened, -, _, -, recovery⟩ := resumed
  obtain ⟨before, recovered, after, -, finish, rfl⟩ := returns_bind_iff.mp recovery
  simp only [returns_lift_bind_iff, returns_pure_iff] at finish
  obtain ⟨_, valid, -, rfl⟩ := finish
  unfold validateState at valid
  simp only [bind_eq_ok_iff] at valid
  obtain ⟨loaded, -, _, sameArchive, expected, derived, compared⟩ := valid
  rw [raiseIf_eq_ok_iff, not_not] at sameArchive compared
  exact ⟨expected, sameArchive ▸ derived, compared⟩

theorem ordered_of_follows (follows : Follows Archive.write (env.WriteStep manifest (.call files))
    files written) (ordered : env.OrderedResults files) :
    env.OrderedResults (writeAll files written) :=
  follows.invariant env.OrderedResults ordered fun _ _ ordered step => ordered.write_call step

theorem InMemory.step {action : Action Sha Payload} (free : env.CollisionFree)
    (holds : env.Holds manifest config) (inMemory : env.InMemory config)
    (step : env.CampaignStep manifest analysisInputSha256 config action later) :
    env.InMemory later := by
  have after := (step.written free holds).1
  cases step with
  | call accepted =>
      have live : env.Live manifest _ _ := holds
      exact ordered_of_follows (live.perform accepted).1 inMemory
  | resume resumed =>
      have live : env.Live manifest _ _ := after
      exact (live.toTracks.agrees_iff free).mp (agrees_of_resumeJournal resumed)
  | crash | close | interrupt => trivial

theorem Campaign.inMemory {allowed : Config Sha Payload → Action Sha Payload → Prop}
    (free : env.CollisionFree)
    (history : env.Campaign manifest analysisInputSha256 allowed
      (newConfig manifest analysisInputSha256) config) : env.InMemory config := by
  induction history with
  | start => exact fun taskId => List.Pairwise.nil
  | step history permitted next ih => exact ih.step free (history.holds free) next

/-- Recovery that keeps the order passes through agreeing states only. -/
theorem agrees_of_recovery (free : env.CollisionFree) {kept : Journal Sha Payload}
    (coherent : env.Coherent manifest files)
    (opened : env.openJournal manifest analysisInputSha256 files = .ok journal)
    (inOrder : env.RecoversInOrder files)
    (cut : written <+: (env.recoverInterruptedState journal).log)
    (retained : env.retainAll journal written = .ok kept) : env.Agrees kept := by
  obtain ⟨tracks, valid⟩ := tracks_of_openJournal coherent opened
  have undisturbed := undisturbed_of_validated tracks.coherent valid
  have follows := ((tracks.recoverInterruptedState free undisturbed).follows.and_of_forall
    fun artifact member _ => undispatching_of_recovery artifact member).initial cut
  have listed := inOrder.of_sameFiles coherent (sameFiles_canonical env files)
  have settling : env.Settling manifest (env.canonical files)
      (writeAll (env.canonical files) written) :=
    follows.invariant (env.Settling manifest (env.canonical files))
      (.begin_ tracks.coherent (ordered_canonical coherent))
      fun _ _ settling step => settling.write listed step.1 step.2
  have beside := tracks.retainAll (follows.mono fun _ _ step => step.1.step) retained
  exact (beside.agrees_iff free).mpr settling.ordered

/-- In every campaign the indexes in memory agree with their reconstruction in
every state that a transition passes through.  They do so in every state that
recovery passes through, and in the one it returns, when recovery adds no uncertain
result to a task that has a result with a greater digest. -/
theorem indexes_agree (free : env.CollisionFree)
    {allowed : Config Sha Payload → Action Sha Payload → Prop}
    (history : env.Campaign manifest analysisInputSha256 allowed
      (newConfig manifest analysisInputSha256) config) :
    (∀ files journal, config = .live files journal → ∀ operation log next written,
      (env.perform journal operation).Returns log next → written <+: log →
        ∃ kept, env.retainAll journal written = .ok kept ∧ env.Agrees kept) ∧
      (∀ files journal, config = .down files →
        env.openJournal manifest analysisInputSha256 files = .ok journal →
          env.RecoversInOrder files →
            (∀ written kept, written <+: (env.recoverInterruptedState journal).log →
              env.retainAll journal written = .ok kept → env.Agrees kept) ∧
            ∀ recovered, (env.recoverInterruptedState journal).result = .ok recovered →
              env.Agrees recovered) := by
  have holds := history.holds free
  have inMemory := history.inMemory free
  constructor
  · rintro files journal rfl operation log next written accepted cut
    have live : env.Live manifest files journal := holds
    have follows := (live.perform accepted).1.initial cut
    have remembered := remembers_perform journal operation log next accepted
    obtain ⟨rest, rfl⟩ := cut
    unfold retainAll at remembered
    rw [List.foldlM_append, bind_eq_ok_iff] at remembered
    obtain ⟨kept, retained, -⟩ := remembered
    have tracks := live.toTracks.retainAll follows retained
    exact ⟨kept, retained, (tracks.agrees_iff free).mpr (ordered_of_follows follows inMemory)⟩
  · rintro files journal rfl opened inOrder
    have coherent : env.Coherent manifest files := holds
    refine ⟨fun written kept cut retained =>
      agrees_of_recovery free coherent opened inOrder cut retained, fun recovered returned => ?_⟩
    exact agrees_of_recovery free coherent opened inOrder (List.prefix_refl _)
      (remembers_recoverInterruptedState journal _ recovered (returns_of_ok returned))

/-- The dispatched task of the sample campaign, interrupted before it has a
result, is recovered in order. -/
theorem indexes_agree_sample :
    ∃ journal recovered : Journal Encoded Unit,
      canonicalEnvironment.openJournal sampleManifest [3] (sampleState orientationDispatch).1 =
        .ok journal ∧
      (canonicalEnvironment.recoverInterruptedState journal).result = .ok recovered ∧
      canonicalEnvironment.Agrees recovered := by
  have calls := campaign_sampleState (fun _ _ => True) orientationDispatch (fun _ _ _ _ => trivial) (by decide +kernel)
  have history := Campaign.step calls trivial .close
  have returns : (sampleRecovered (sampleState orientationDispatch).1).isSome := by decide +kernel
  obtain ⟨⟨journal, recovered⟩, returned⟩ := Option.isSome_iff_exists.mp returns
  obtain ⟨opened, settled⟩ := recovered_sample returned
  have nothing : (sampleState orientationDispatch).1.resultObservations = [] := by decide +kernel
  have inOrder : canonicalEnvironment.RecoversInOrder (sampleState orientationDispatch).1 := by
    intro result member
    rw [nothing] at member
    cases member
  have main := indexes_agree canonical_collisionFree history
  exact ⟨journal, recovered, opened, settled,
    (main.2 _ journal rfl opened inOrder).2 recovered settled⟩

/-- The files of the sample campaign when a crash cuts off the failure of its
task. -/
def interruptedFailure : Archive Encoded Unit :=
  (sampleState orientationDispatch).1.write (.taskResult (orientationResult .failed))

/-- Recovery may add an uncertain result after a result with a greater digest.
Its indexes then differ from their reconstruction, and the resume raises. -/
theorem uncertain_out_of_order :
    ∃ journal recovered : Journal Encoded Unit,
      canonicalEnvironment.Campaign sampleManifest [3] (fun _ _ => True)
        (newConfig sampleManifest [3]) (.down interruptedFailure) ∧
      canonicalEnvironment.openJournal sampleManifest [3] interruptedFailure = .ok journal ∧
      (canonicalEnvironment.recoverInterruptedState journal).result = .ok recovered ∧
      ¬ canonicalEnvironment.Agrees recovered ∧
      ∃ failure, (canonicalEnvironment.resumeJournal sampleManifest [3]
        interruptedFailure).result = .error failure := by
  have calls := campaign_sampleState (fun _ _ => True) orientationDispatch (fun _ _ _ _ => trivial) (by decide +kernel)
  have accepted : (canonicalEnvironment.perform (sampleState orientationDispatch).2
      (.recordTerminal (orientationResult .failed))).result.toOption.isSome := by decide +kernel
  obtain ⟨next, returned⟩ := eq_ok_of_toOption_isSome accepted
  have cut : [Artifact.taskResult (orientationResult .failed)] <+:
      (canonicalEnvironment.perform (sampleState orientationDispatch).2
        (.recordTerminal (orientationResult .failed))).log := by decide +kernel
  have history := Campaign.step calls trivial (.crash (returns_of_ok returned) cut)
  have returns : (sampleRecovered interruptedFailure).isSome := by decide +kernel
  obtain ⟨⟨journal, recovered⟩, found⟩ := Option.isSome_iff_exists.mp returns
  obtain ⟨opened, settled⟩ := recovered_sample found
  have differs : (sampleRecovered interruptedFailure).all fun pair =>
      ¬ canonicalEnvironment.Agrees pair.2 := by decide +kernel
  refine ⟨journal, recovered, history, opened, settled, ?_,
    eq_error_of_toOption_eq_none (by decide +kernel)⟩
  rw [found] at differs
  simpa using differs

end Campaigns

end Environment

end Scheduler

end MmAudit
