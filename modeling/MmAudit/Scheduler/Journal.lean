import MmAudit.Scheduler.Building
import MmAudit.Library.Dict
import MmAudit.Library.Logged

/-!
# The live journal

A live journal holds every retained record and indexes over them.  A transition
writes an artifact file, retains the artifact in memory, and usually appends a
lifecycle event in the same way.  The files written so far stay when a transition
raises or the process ends, so each transition returns its writes in order.
-/

namespace MmAudit

namespace Scheduler

open Fallible

/-- All records of a campaign, of one kind in each list. -/
structure Archive (Sha Payload : Type) where
  plans : List (PassPlan Sha)
  activations : List (TaskActivation Sha)
  events : List (TaskEvent Sha)
  outputs : List (TaskOutput Sha Payload)
  providerAttempts : List (ProviderAttemptEvidence Sha)
  resultObservations : List (TaskResult Sha)
  passResults : List (PassResult Sha)
deriving DecidableEq

namespace Archive

variable {Sha Payload : Type}

def empty : Archive Sha Payload :=
  ⟨[], [], [], [], [], [], []⟩

/-- The archive with one more file. -/
def write (archive : Archive Sha Payload) : Artifact Sha Payload → Archive Sha Payload
  | .plan plan => { archive with plans := archive.plans ++ [plan] }
  | .activation activation =>
      { archive with activations := archive.activations ++ [activation] }
  | .event event => { archive with events := archive.events ++ [event] }
  | .output output => { archive with outputs := archive.outputs ++ [output] }
  | .providerAttempt attempt =>
      { archive with providerAttempts := archive.providerAttempts ++ [attempt] }
  | .taskResult result =>
      { archive with resultObservations := archive.resultObservations ++ [result] }
  | .passResult result => { archive with passResults := archive.passResults ++ [result] }

/-- The tasks of all plans, each with its plan. -/
def plannedTasks (plans : List (PassPlan Sha)) : List (TaskPlan Sha × PassPlan Sha) :=
  plans.flatMap fun plan => plan.tasks.map fun task => (task, plan)

end Archive

/-! ## Indexes -/

structure Indexes (Sha Payload : Type) where
  tasks : Dict Sha (TaskPlan Sha × PassPlan Sha)
  activations : Dict Sha (TaskActivation Sha)
  outputs : Dict Sha (TaskOutput Sha Payload)
  providerAttempts : Dict Sha (ProviderAttemptEvidence Sha)
  resultsByHash : Dict Sha (TaskResult Sha)
  resultObservationsByTask : Dict Sha (List (TaskResult Sha))
  eventHistories : Dict Sha (List (TaskEvent Sha))
  creditedResults : Dict Sha (TaskResult Sha)
  eventIds : List Sha

namespace Indexes

variable {Sha Payload : Type}

def empty : Indexes Sha Payload :=
  ⟨.empty, .empty, .empty, .empty, .empty, .empty, .empty, .empty, []⟩

end Indexes

structure Journal (Sha Payload : Type) where
  manifest : CampaignManifest Sha
  analysisInputSha256 : Sha
  archive : Archive Sha Payload
  indexes : Indexes Sha Payload

namespace Environment

variable {Sha Payload : Type} [LinearOrder Sha] [DecidableEq Payload]

section Derivation

variable (env : Environment Sha Payload)

def addTask (indexes : Indexes Sha Payload) (entry : TaskPlan Sha × PassPlan Sha) :
    Indexes Sha Payload :=
  { indexes with tasks := indexes.tasks.insert (env.taskId entry.1) entry }

def addActivation (indexes : Indexes Sha Payload) (activation : TaskActivation Sha) :
    Indexes Sha Payload :=
  { indexes with activations := indexes.activations.insert activation.taskId activation }

def addOutput (indexes : Indexes Sha Payload) (output : TaskOutput Sha Payload) :
    Indexes Sha Payload :=
  { indexes with outputs := indexes.outputs.insert output.taskId output }

def addProviderAttempt (indexes : Indexes Sha Payload) (attempt : ProviderAttemptEvidence Sha) :
    Indexes Sha Payload :=
  { indexes with providerAttempts := indexes.providerAttempts.insert attempt.taskId attempt }

def addResult (indexes : Indexes Sha Payload) (result : TaskResult Sha) : Indexes Sha Payload :=
  { indexes with
    resultsByHash := indexes.resultsByHash.insert (env.result result) result
    resultObservationsByTask := indexes.resultObservationsByTask.push result.taskId result }

def credit (credited : Dict Sha (TaskResult Sha)) (taskId : Sha) :
    Option (TaskResult Sha) → Dict Sha (TaskResult Sha)
  | none => credited
  | some result => credited.insert taskId result

def addEvent (indexes : Indexes Sha Payload) (event : TaskEvent Sha)
    (result : Option (TaskResult Sha)) : Indexes Sha Payload :=
  { indexes with
    eventHistories := indexes.eventHistories.push event.taskId event
    creditedResults := credit indexes.creditedResults event.taskId result
    eventIds := indexes.eventIds ++ [env.eventId event] }

/-- The result that a terminal event selects. -/
def terminalResult (indexes : Indexes Sha Payload) (event : TaskEvent Sha) :
    Except String (Option (TaskResult Sha)) :=
  if event.kind.IsTerminal then
    match event.taskResultSha256.bind indexes.resultsByHash.get? with
    | none => .error "scheduler terminal event has ambiguous result evidence"
    | some result => do
        raiseIf (result.taskId ≠ event.taskId ∨ event.taskId ∈ indexes.creditedResults)
          "scheduler terminal event has ambiguous result evidence"
        .ok (some result)
  else
    .ok none

def indexTask (indexes : Indexes Sha Payload) (entry : TaskPlan Sha × PassPlan Sha) :
    Except String (Indexes Sha Payload) := do
  raiseIf (env.taskId entry.1 ∈ indexes.tasks)
    "scheduler task identity is duplicated across pass plans"
  .ok (env.addTask indexes entry)

def indexActivation (indexes : Indexes Sha Payload) (activation : TaskActivation Sha) :
    Except String (Indexes Sha Payload) := do
  raiseIf (activation.taskId ∈ indexes.activations ∨ activation.taskId ∉ indexes.tasks)
    "scheduler activation is duplicated or unplanned"
  .ok (addActivation indexes activation)

def indexOutput (indexes : Indexes Sha Payload) (output : TaskOutput Sha Payload) :
    Except String (Indexes Sha Payload) := do
  raiseIf (output.taskId ∈ indexes.outputs ∨ output.taskId ∉ indexes.tasks)
    "scheduler output is duplicated or unplanned"
  .ok (addOutput indexes output)

def indexProviderAttempt (indexes : Indexes Sha Payload) (attempt : ProviderAttemptEvidence Sha) :
    Except String (Indexes Sha Payload) := do
  raiseIf (attempt.taskId ∈ indexes.providerAttempts ∨ attempt.taskId ∈ indexes.outputs ∨
      attempt.taskId ∉ indexes.tasks)
    "scheduler provider attempt is duplicated, credited, or unplanned"
  .ok (addProviderAttempt indexes attempt)

def indexResult (indexes : Indexes Sha Payload) (result : TaskResult Sha) :
    Except String (Indexes Sha Payload) := do
  raiseIf (env.result result ∈ indexes.resultsByHash ∨ result.taskId ∉ indexes.tasks)
    "scheduler task result is duplicated or unplanned"
  .ok (env.addResult indexes result)

def indexEvent (indexes : Indexes Sha Payload) (event : TaskEvent Sha) :
    Except String (Indexes Sha Payload) := do
  raiseIf (env.eventId event ∈ indexes.eventIds ∨ event.taskId ∉ indexes.tasks)
    "scheduler event identity is duplicated or unplanned"
  let result ← terminalResult indexes event
  .ok (env.addEvent indexes event result)

/-- `_derive_scheduler_journal_indexes`: the indexes of an archive. -/
def deriveIndexes (archive : Archive Sha Payload) : Except String (Indexes Sha Payload) := do
  let indexes ← (Archive.plannedTasks archive.plans).foldlM env.indexTask Indexes.empty
  let indexes ← archive.activations.foldlM indexActivation indexes
  let indexes ← archive.outputs.foldlM indexOutput indexes
  let indexes ← archive.providerAttempts.foldlM indexProviderAttempt indexes
  let indexes ← archive.resultObservations.foldlM env.indexResult indexes
  archive.events.foldlM env.indexEvent indexes

end Derivation

/-! ## Reading the journal -/

section Reading

variable (env : Environment Sha Payload)

def historyForTask (journal : Journal Sha Payload) (taskId : Sha) : List (TaskEvent Sha) :=
  (journal.indexes.eventHistories.get? taskId).getD []

def observationsForTask (journal : Journal Sha Payload) (taskId : Sha) : List (TaskResult Sha) :=
  (journal.indexes.resultObservationsByTask.get? taskId).getD []

def taskAndPlan (journal : Journal Sha Payload) (taskId : Sha) :
    Except String (TaskPlan Sha × PassPlan Sha) :=
  match journal.indexes.tasks.get? taskId with
  | none => .error "scheduler task identity is absent or ambiguous"
  | some entry => .ok entry

def activationForTask (journal : Journal Sha Payload) (taskId : Sha) :
    Except String (TaskActivation Sha) :=
  match journal.indexes.activations.get? taskId with
  | none => .error "scheduler task lacks one exact durable activation"
  | some activation => .ok activation

def outputForTask (journal : Journal Sha Payload) (taskId : Sha) :
    Except String (TaskOutput Sha Payload) :=
  match journal.indexes.outputs.get? taskId with
  | none => .error "scheduler task lacks one exact durable output"
  | some output => .ok output

def nextDependencies (journal : Journal Sha Payload) : List (PassDependency Sha) :=
  journal.archive.passResults.map env.fromResult

/-- The tasks whose last event is of one of the given kinds. -/
def taskIdsEndingIn (journal : Journal Sha Payload) (kinds : List EventKind) : List Sha :=
  ((journal.indexes.eventHistories.items.filter fun entry =>
    entry.2.getLast?.any fun event => event.kind ∈ kinds).map Prod.fst).insertionSort (· ≤ ·)

def resumableTaskIds (journal : Journal Sha Payload) : List Sha :=
  taskIdsEndingIn journal [.planned, .activated]

def activatableTaskIds (journal : Journal Sha Payload) : List Sha :=
  taskIdsEndingIn journal [.planned]

def dispatchableTaskIds (journal : Journal Sha Payload) : List Sha :=
  taskIdsEndingIn journal [.activated]

/-- A model task needs the privacy custody that the bindings name. -/
def requireModelTaskPrivacyCustody (manifest : CampaignManifest Sha) (task : TaskPlan Sha) :
    Except String Unit :=
  raiseIf (task.taskKind = .modelRequest ∧
      manifest.privacyEvidenceCustody ≠ some manifest.boundPrivacyCustodySha256)
    "scheduler model task lacks exact pre-dispatch privacy custody"

/-- `_pass_result_binds_plan`: the identities of the embedded plan. -/
def PassResultBindsPlan (result : PassResult Sha) (plan : PassPlan Sha) : Prop :=
  env.passPlanIdentity result.plan = env.passPlanIdentity plan ∧
    env.passPlan result.plan = env.passPlan plan ∧
    result.plan.passKind = plan.passKind ∧
    result.plan.manifest.manifestSha256 = plan.manifest.manifestSha256

instance (result : PassResult Sha) (plan : PassPlan Sha) :
    Decidable (env.PassResultBindsPlan result plan) :=
  inferInstanceAs (Decidable (_ ∧ _ ∧ _ ∧ _))

end Reading

/-! ## Retaining artifacts -/

section Retaining

variable (env : Environment Sha Payload)

/-- Several results of one task: at most two, both activated, one of them
uncertain. -/
def AmbiguousObservations (observations : List (TaskResult Sha)) : Prop :=
  2 < observations.length ∨
    (observations.length = 2 ∧
      ((observations.filter (·.terminalStatus = .uncertain)).length ≠ 1 ∨
        ∃ result ∈ observations, result.resultOrigin ≠ .activated))

instance (observations : List (TaskResult Sha)) : Decidable (AmbiguousObservations observations) :=
  inferInstanceAs (Decidable (_ ∨ _ ∧ (_ ∨ ∃ result ∈ observations, _)))

def retainPlan (journal : Journal Sha Payload) (plan : PassPlan Sha) :
    Except String (Journal Sha Payload) := do
  raiseIf (¬ (plan.tasks.map env.taskId).Nodup ∨
      ∃ task ∈ plan.tasks, env.taskId task ∈ journal.indexes.tasks)
    "scheduler task identity is duplicated across pass plans"
  .ok { journal with
    archive := journal.archive.write (.plan plan)
    indexes := (plan.tasks.map fun task => (task, plan)).foldl env.addTask journal.indexes }

def retainActivation (journal : Journal Sha Payload) (activation : TaskActivation Sha) :
    Except String (Journal Sha Payload) := do
  raiseIf (activation.taskId ∈ journal.indexes.activations)
    "scheduler activation is duplicated or unplanned"
  let entry ← taskAndPlan journal activation.taskId
  env.requireExactTask activation entry.2 entry.1
  .ok { journal with
    archive := journal.archive.write (.activation activation)
    indexes := addActivation journal.indexes activation }

def retainOutput (journal : Journal Sha Payload) (output : TaskOutput Sha Payload) :
    Except String (Journal Sha Payload) := do
  raiseIf (output.taskId ∈ journal.indexes.outputs ∨
      output.taskId ∈ journal.indexes.providerAttempts)
    "scheduler output is duplicated, unactivated, or non-creditable"
  let activation ← activationForTask journal output.taskId
  env.requireExactActivation output activation
  .ok { journal with
    archive := journal.archive.write (.output output)
    indexes := addOutput journal.indexes output }

def retainProviderAttempt (journal : Journal Sha Payload) (attempt : ProviderAttemptEvidence Sha) :
    Except String (Journal Sha Payload) := do
  raiseIf (attempt.taskId ∉ journal.indexes.tasks ∨ attempt.taskId ∉ journal.indexes.activations ∨
      attempt.taskId ∈ journal.indexes.outputs ∨
      attempt.taskId ∈ journal.indexes.providerAttempts)
    "scheduler provider attempt is duplicated, credited, unplanned, or unactivated"
  .ok { journal with
    archive := journal.archive.write (.providerAttempt attempt)
    indexes := addProviderAttempt journal.indexes attempt }

def retainResultObservation (journal : Journal Sha Payload) (result : TaskResult Sha) :
    Except String (Journal Sha Payload) := do
  raiseIf (result.taskId ∉ journal.indexes.tasks ∨
      env.result result ∈ journal.indexes.resultsByHash ∨
      AmbiguousObservations (observationsForTask journal result.taskId ++ [result]))
    "scheduler task result is duplicated or ambiguous"
  .ok { journal with
    archive := journal.archive.write (.taskResult result)
    indexes := env.addResult journal.indexes result }

def retainEvent (journal : Journal Sha Payload) (event : TaskEvent Sha) :
    Except String (Journal Sha Payload) := do
  raiseIf (env.eventId event ∈ journal.indexes.eventIds ∨
      event.eventIndex ≠ journal.archive.events.length)
    "scheduler event identity is duplicated, unplanned, or unordered"
  let entry ← taskAndPlan journal event.taskId
  raiseIf (event.passPlanId ≠ env.passPlanIdentity entry.2 ∨
      event.passPlanSha256 ≠ env.passPlan entry.2 ∨
      event.logicalRequestId ≠ env.logicalRequestId entry.1)
    "scheduler event differs from its exact planned task"
  let result ← terminalResult journal.indexes event
  .ok { journal with
    archive := journal.archive.write (.event event)
    indexes := env.addEvent journal.indexes event result }

/-- The plan of the next pass result must be the one it embeds. -/
def retainPassResult (journal : Journal Sha Payload) (result : PassResult Sha) :
    Except String (Journal Sha Payload) := do
  raiseIf (¬ (journal.archive.plans[journal.archive.passResults.length]?).any fun plan =>
      env.PassResultBindsPlan result plan)
    "scheduler pass result differs from its exact plan order"
  .ok { journal with archive := journal.archive.write (.passResult result) }

end Retaining

/-! ## Checks after an append -/

section Incremental

variable (env : Environment Sha Payload)

def validLifecyclePrefixes : List (List EventKind) :=
  [[.planned], [.planned, .activated], [.planned, .activated, .dispatched],
    [.planned, .activated, .dispatched, .terminal], [.planned, .preflightTerminal],
    [.planned, .activated, .activatedPreflightTerminal]]

/-- The events of a task are chained to each other and lie in the journal. -/
def validateTaskChain (journal : Journal Sha Payload) (entry : TaskPlan Sha × PassPlan Sha)
    (history : List (TaskEvent Sha)) : Except String Unit :=
  raiseIf ((List.range history.length).any fun index =>
      ¬ (history[index]?).any fun event =>
        event.taskId = env.taskId entry.1 ∧
        event.taskEventIndex = index ∧
        event.priorTaskEventSha256 =
          (if index = 0 then none else (history[index - 1]?).map env.event) ∧
        event.passPlanId = env.passPlanIdentity entry.2 ∧
        event.passPlanSha256 = env.passPlan entry.2 ∧
        event.logicalRequestId = env.logicalRequestId entry.1 ∧
        journal.archive.events[event.eventIndex]? = some event)
    "scheduler task event differs from its exact indexed chain"

def validateTaskEvidence (journal : Journal Sha Payload) (taskId : Sha)
    (last : TaskEvent Sha) (kinds : List EventKind) : Except String Unit := do
  let activation := journal.indexes.activations.get? taskId
  let output := journal.indexes.outputs.get? taskId
  let attempt := journal.indexes.providerAttempts.get? taskId
  let credited := journal.indexes.creditedResults.get? taskId
  raiseIf (output.isSome ∧ attempt.isSome) "scheduler task has contradictory provider evidence"
  raiseIf (AmbiguousObservations (observationsForTask journal taskId))
    "scheduler task has ambiguous retained result observations"
  raiseIf (last.kind.IsTerminal ∧ (credited.isNone ∨
      last.taskResultSha256 ≠ credited.map env.result))
    "scheduler terminal event lacks its exact indexed result"
  raiseIf (¬ last.kind.IsTerminal ∧ credited.isSome)
    "scheduler non-terminal lifecycle has a credited result"
  raiseIf (last.kind = .planned ∧ (activation.isSome ∨ output.isSome ∨ attempt.isSome))
    "scheduler planned task has contradictory runtime evidence"
  raiseIf (last.kind ≠ .planned ∧ last.kind ≠ .preflightTerminal ∧ activation.isNone)
    "scheduler activated lifecycle lacks exact activation evidence"
  raiseIf (output.isSome ∧ last.kind ≠ .dispatched ∧ last.kind ≠ .terminal)
    "scheduler output lacks a dispatched lifecycle"
  raiseIf (attempt.isSome ∧ .dispatched ∉ kinds)
    "scheduler provider attempt lacks a dispatched lifecycle"

def validateIncrementalTaskState (journal : Journal Sha Payload) (taskId : Sha) :
    Except String Unit :=
  match journal.indexes.tasks.get? taskId, (historyForTask journal taskId).getLast? with
  | some entry, some last => do
      let history := historyForTask journal taskId
      let kinds := history.map (·.kind)
      raiseIf (kinds ∉ validLifecyclePrefixes)
        "scheduler task lifecycle is not a strict transition prefix"
      env.validateTaskChain journal entry history
      (journal.indexes.activations.get? taskId).forM
        (env.requireExactTask · entry.2 entry.1)
      (journal.indexes.outputs.get? taskId).forM fun output =>
        (journal.indexes.activations.get? taskId).forM (env.requireExactActivation output)
      env.validateTaskEvidence journal taskId last kinds
  | _, _ => .error "scheduler incremental task lacks planned lifecycle evidence"

/-- The last event is chained to the one before it. -/
def validateEventTail (events : List (TaskEvent Sha)) : Except String Unit :=
  match events.getLast? with
  | none => .ok ()
  | some tail =>
      raiseIf (tail.eventIndex + 1 ≠ events.length ∨
          tail.previousEventSha256 ≠ events.dropLast.getLast?.map env.event)
        "scheduler global event tail is not an exact hash chain"

def validatePassTail (archive : Archive Sha Payload) : Except String Unit :=
  match archive.passResults.getLast? with
  | none => .ok ()
  | some result =>
      raiseIf (¬ (archive.plans[archive.passResults.length - 1]?).any fun plan =>
          env.PassResultBindsPlan result plan)
        "scheduler pass-result prefix differs from exact plan order"

def validateIncrementalState (journal : Journal Sha Payload) (taskId : Option Sha) :
    Except String Unit := do
  let archive := journal.archive
  let indexes := journal.indexes
  raiseIf (journal.analysisInputSha256 ≠ journal.manifest.analysisInputSha256 ∨
      indexes.tasks.items.length ≠ (Archive.plannedTasks archive.plans).length ∨
      indexes.activations.items.length ≠ archive.activations.length ∨
      indexes.outputs.items.length ≠ archive.outputs.length ∨
      indexes.providerAttempts.items.length ≠ archive.providerAttempts.length ∨
      indexes.resultsByHash.items.length ≠ archive.resultObservations.length ∨
      indexes.eventIds.length ≠ archive.events.length ∨
      archive.plans.length < archive.passResults.length ∨
      archive.passResults.length < archive.plans.length - 1)
    "scheduler incremental indexes differ from retained state"
  env.validateEventTail archive.events
  env.validatePassTail archive
  taskId.forM (env.validateIncrementalTaskState journal)

end Incremental

/-! ## Writing a file -/

section Storing

variable (env : Environment Sha Payload)

/-- The largest size of a journal file. -/
def maxEvidenceBytes : ℕ := 100000000

/-- A file that is small enough to be written. -/
def Fits (artifact : Artifact Sha Payload) : Prop :=
  env.artifactBytes artifact ≤ maxEvidenceBytes

instance (artifact : Artifact Sha Payload) : Decidable (env.Fits artifact) :=
  inferInstanceAs (Decidable (_ ≤ _))

/-- `_write_model`: write one file, unless it is too large. -/
def writeModel (artifact : Artifact Sha Payload) : Logged (Artifact Sha Payload) Unit := do
  .lift (raiseIf (¬ env.Fits artifact) "scheduler journal artifact exceeds its output bound")
  .write artifact

variable {env} {artifact : Artifact Sha Payload}

omit [LinearOrder Sha] [DecidableEq Payload] in
@[simp]
theorem returns_writeModel_bind_iff {Result : Type}
    {continuation : Unit → Logged (Artifact Sha Payload) Result}
    {log : List (Artifact Sha Payload)} {result : Result} :
    (env.writeModel artifact >>= continuation).Returns log result ↔
      env.Fits artifact ∧ ∃ rest, (continuation ()).Returns rest result ∧ log = artifact :: rest := by
  have stored : ∀ {first : List (Artifact Sha Payload)} {value : Unit},
      (env.writeModel artifact).Returns first value ↔ env.Fits artifact ∧ first = [artifact] := by
    intro first value
    unfold writeModel
    rw [Logged.returns_lift_bind_iff]
    simp only [raiseIf_eq_ok_iff, not_not, Logged.returns_write_iff, exists_const]
  rw [Logged.returns_bind_iff]
  constructor
  · rintro ⟨first, value, rest, written, finished, rfl⟩
    obtain ⟨fits, rfl⟩ := stored.mp written
    exact ⟨fits, rest, finished, rfl⟩
  · rintro ⟨fits, rest, finished, rfl⟩
    exact ⟨[artifact], (), rest, stored.mpr ⟨fits, rfl⟩, finished, rfl⟩

omit [LinearOrder Sha] [DecidableEq Payload] in
/-- A file is all that is written. -/
theorem eq_of_mem_writeModel {other : Artifact Sha Payload}
    (member : other ∈ (env.writeModel artifact).log) : other = artifact := by
  unfold writeModel at member
  rcases Logged.mem_log_bind member with impossible | ⟨_, -, written⟩
  · cases impossible
  · exact List.mem_singleton.mp written

omit [LinearOrder Sha] [DecidableEq Payload] in
/-- A file that may be written, followed by the rest. -/
theorem writes_writeModel_bind {Result : Type}
    {admits : Archive Sha Payload → Artifact Sha Payload → Prop} {start : Archive Sha Payload}
    {continuation : Unit → Logged (Artifact Sha Payload) Result}
    {post : Result → Archive Sha Payload → Prop} (admitted : admits start artifact)
    (next : Logged.Writes Archive.write admits (start.write artifact) (continuation ()) post) :
    Logged.Writes Archive.write admits start (env.writeModel artifact >>= continuation) post := by
  have stored : Logged.Writes Archive.write admits start (env.writeModel artifact)
      fun _ store => store = start.write artifact :=
    Logged.Writes.lift_bind fun _ _ => Logged.Writes.write admitted rfl
  refine stored.bind ?_
  rintro _ store rfl
  exact next

end Storing

/-! ## Transitions -/

section Transitions

variable (env : Environment Sha Payload)

/-- Write and retain the next event. -/
def appendEvent (journal : Journal Sha Payload) (plan : PassPlan Sha) (task : TaskPlan Sha)
    (kind : EventKind) (requestId : Option Sha) (activation : Option (TaskActivation Sha))
    (result : Option (TaskResult Sha)) :
    Logged (Artifact Sha Payload) (Journal Sha Payload) := do
  let event ← .lift (env.buildEvent plan task {
    kind := kind
    eventIndex := journal.archive.events.length
    previousEvent := journal.archive.events.getLast?
    priorTaskEvent := (historyForTask journal (env.taskId task)).getLast?
    activation := activation
    requestId := requestId
    result := result })
  env.writeModel (.event event)
  let journal ← .lift (env.retainEvent journal event)
  .lift (env.validateIncrementalState journal (some (env.taskId task)))
  pure journal

def sealPassPlan (journal : Journal Sha Payload) (plan : PassPlan Sha) :
    Logged (Artifact Sha Payload) (Journal Sha Payload) := do
  let ordinal := journal.archive.plans.length
  .lift (env.validatePassPlan plan)
  .lift (raiseIf (passOrder.length ≤ ordinal) "scheduler already contains all seven pass plans")
  .lift (raiseIf (plan.manifest ≠ journal.manifest ∨ some plan.passKind ≠ passOrder[ordinal]?)
    "scheduler pass plan differs from its exact campaign order")
  .lift (raiseIf (journal.archive.passResults.length ≠ ordinal)
    "scheduler cannot plan work before every prior pass terminates")
  .lift (raiseIf (journal.archive.passResults.any fun result => result.status ≠ .complete)
    "scheduler cannot advance after a non-complete mandatory pass")
  .lift (raiseIf (plan.dependencies ≠ env.nextDependencies journal)
    "scheduler pass plan omits exact prior result dependencies")
  .lift (plan.tasks.forM (requireModelTaskPrivacyCustody journal.manifest))
  env.writeModel (.plan plan)
  let journal ← .lift (env.retainPlan journal plan)
  let journal ← plan.tasks.foldlM
    (fun journal task => env.appendEvent journal plan task .planned none none none) journal
  .lift (env.validateIncrementalState journal none)
  pure journal

/-- The kinds of the events of a task so far. -/
def kindsForTask (journal : Journal Sha Payload) (taskId : Sha) : List EventKind :=
  (historyForTask journal taskId).map (·.kind)

/-- The guard on the length and the last kind of a history. -/
def EndsIn (history : List (TaskEvent Sha)) (length : ℕ) (kind : EventKind) : Prop :=
  history.length = length ∧ history.getLast?.map (·.kind) = some kind

instance (history : List (TaskEvent Sha)) (length : ℕ) (kind : EventKind) :
    Decidable (EndsIn history length kind) :=
  inferInstanceAs (Decidable (_ ∧ _))

def markDispatched (journal : Journal Sha Payload) (taskId : Sha) :
    Logged (Artifact Sha Payload) (Journal Sha Payload) := do
  let entry ← .lift (taskAndPlan journal taskId)
  .lift (requireModelTaskPrivacyCustody journal.manifest entry.1)
  let activation ← .lift (activationForTask journal taskId)
  .lift (raiseIf (¬ EndsIn (historyForTask journal taskId) 2 .activated)
    "only an activated scheduler task may be dispatched")
  env.appendEvent journal entry.2 entry.1 .dispatched (some (env.logicalRequestId entry.1))
    (some activation) none

def activateTask (journal : Journal Sha Payload) (taskId : Sha)
    (material : ActivationMaterial Sha) :
    Logged (Artifact Sha Payload) (Journal Sha Payload) := do
  let entry ← .lift (taskAndPlan journal taskId)
  .lift (requireModelTaskPrivacyCustody journal.manifest entry.1)
  .lift (raiseIf (¬ EndsIn (historyForTask journal taskId) 1 .planned)
    "only one never-activated planned task may be activated")
  .lift (raiseIf (taskId ∈ journal.indexes.activations)
    "scheduler task already has durable activation evidence")
  let activation ← .lift (env.buildActivation entry.2 entry.1 material)
  env.writeModel (.activation activation)
  let journal ← .lift (env.retainActivation journal activation)
  env.appendEvent journal entry.2 entry.1 .activated none (some activation) none

def persistOutput (journal : Journal Sha Payload) (taskId : Sha)
    (arguments : OutputArguments Sha Payload) :
    Logged (Artifact Sha Payload) (Journal Sha Payload) := do
  let entry ← .lift (taskAndPlan journal taskId)
  .lift (raiseIf (¬ EndsIn (historyForTask journal taskId) 3 .dispatched)
    "scheduler output requires exact durable dispatch evidence")
  let activation ← .lift (activationForTask journal taskId)
  .lift (raiseIf (taskId ∈ journal.indexes.outputs)
    "scheduler task already has durable output evidence")
  .lift (raiseIf (taskId ∈ journal.indexes.providerAttempts)
    "scheduler task already has non-creditable provider evidence")
  let output ← .lift (env.buildOutput entry.2 entry.1 activation arguments)
  env.writeModel (.output output)
  let journal ← .lift (env.retainOutput journal output)
  .lift (env.validateIncrementalState journal (some taskId))
  pure journal

def persistProviderAttempt (journal : Journal Sha Payload) (taskId : Sha)
    (usage : UsageRecord Sha) : Logged (Artifact Sha Payload) (Journal Sha Payload) := do
  let entry ← .lift (taskAndPlan journal taskId)
  .lift (raiseIf (¬ EndsIn (historyForTask journal taskId) 3 .dispatched)
    "scheduler provider attempt requires exact durable dispatch")
  .lift (raiseIf (taskId ∈ journal.indexes.outputs ∨ taskId ∈ journal.indexes.providerAttempts)
    "scheduler task already has retained provider evidence")
  let activation ← .lift (activationForTask journal taskId)
  let attempt ← .lift (env.buildProviderAttempt entry.1 activation usage)
  env.writeModel (.providerAttempt attempt)
  let journal ← .lift (retainProviderAttempt journal attempt)
  .lift (env.validateIncrementalState journal (some taskId))
  pure journal

/-- Only a successful result refers to the retained output. -/
def terminalOutput (journal : Journal Sha Payload) (result : TaskResult Sha) :
    Except String (Option (TaskOutput Sha Payload)) :=
  if result.terminalStatus = .succeeded then
    some <$> outputForTask journal result.taskId
  else do
    raiseIf (result.taskId ∈ journal.indexes.outputs)
      "non-success terminal result contradicts retained task output"
    .ok none

def recordTerminal (journal : Journal Sha Payload) (result : TaskResult Sha) :
    Logged (Artifact Sha Payload) (Journal Sha Payload) := do
  let entry ← .lift (taskAndPlan journal result.taskId)
  .lift (raiseIf (result.resultOrigin ≠ .activated)
    "activated terminal recording requires an activated result")
  let activation ← .lift (activationForTask journal result.taskId)
  let output ← .lift (terminalOutput journal result)
  let expected ← .lift (env.buildTaskResult entry.2 entry.1 activation result.terminalStatus
    result.terminalEvidenceSha256 output)
  .lift (raiseIf (result ≠ expected)
    "scheduler task result differs from its exact planned identity")
  .lift (raiseIf (¬ EndsIn (historyForTask journal result.taskId) 3 .dispatched)
    "scheduler terminal result lacks its exact durable dispatch")
  .lift (raiseIf (result.taskId ∈ journal.indexes.resultObservationsByTask)
    "scheduler task already has a durable terminal result")
  env.writeModel (.taskResult result)
  let journal ← .lift (env.retainResultObservation journal result)
  env.appendEvent journal entry.2 entry.1 .terminal (some (env.logicalRequestId entry.1))
    (some activation) (some result)

def recordPreflightFailure (journal : Journal Sha Payload) (result : TaskResult Sha) :
    Logged (Artifact Sha Payload) (Journal Sha Payload) := do
  let entry ← .lift (taskAndPlan journal result.taskId)
  .lift (raiseIf (result.resultOrigin ≠ .localPreflight)
    "preflight terminal recording requires a local preflight result")
  let expected ← .lift (env.buildPreflightFailure entry.2 entry.1 result.terminalStatus
    result.terminalEvidenceSha256)
  .lift (raiseIf (result ≠ expected)
    "scheduler preflight result differs from its exact planned identity")
  .lift (raiseIf (¬ EndsIn (historyForTask journal result.taskId) 1 .planned)
    "scheduler preflight result must precede activation and dispatch")
  .lift (raiseIf (result.taskId ∈ journal.indexes.activations ∨
      result.taskId ∈ journal.indexes.outputs ∨
      result.taskId ∈ journal.indexes.resultObservationsByTask)
    "scheduler preflight task already has durable runtime evidence")
  env.writeModel (.taskResult result)
  let journal ← .lift (env.retainResultObservation journal result)
  env.appendEvent journal entry.2 entry.1 .preflightTerminal none none (some result)

def recordActivatedPreflightFailure (journal : Journal Sha Payload) (result : TaskResult Sha) :
    Logged (Artifact Sha Payload) (Journal Sha Payload) := do
  let entry ← .lift (taskAndPlan journal result.taskId)
  let activation ← .lift (activationForTask journal result.taskId)
  .lift (raiseIf (result.resultOrigin ≠ .activated ∨ ¬ result.terminalStatus.IsActivatedPreflight)
    "activated preflight terminal recording requires a failure")
  let expected ← .lift (env.buildTaskResult entry.2 entry.1 activation result.terminalStatus
    result.terminalEvidenceSha256 none)
  .lift (raiseIf (result ≠ expected)
    "scheduler activated preflight result differs from its exact planned identity")
  .lift (raiseIf (¬ EndsIn (historyForTask journal result.taskId) 2 .activated)
    "scheduler activated preflight result must precede durable dispatch")
  .lift (raiseIf (result.taskId ∈ journal.indexes.outputs ∨
      result.taskId ∈ journal.indexes.resultObservationsByTask)
    "scheduler activated preflight task already has terminal evidence")
  env.writeModel (.taskResult result)
  let journal ← .lift (env.retainResultObservation journal result)
  env.appendEvent journal entry.2 entry.1 .activatedPreflightTerminal none (some activation)
    (some result)

/-- The lifecycle of a task ended with the event that its result requires. -/
def LifecycleIsTerminal (history : List (TaskEvent Sha)) (result : TaskResult Sha) : Prop :=
  (result.resultOrigin = .localPreflight ∧ EndsIn history 2 .preflightTerminal) ∨
    (result.resultOrigin = .activated ∧
      (EndsIn history 3 .activatedPreflightTerminal ∨ EndsIn history 4 .terminal))

instance (history : List (TaskEvent Sha)) (result : TaskResult Sha) :
    Decidable (LifecycleIsTerminal history result) :=
  inferInstanceAs (Decidable (_ ∧ _ ∨ _ ∧ (_ ∨ _)))

/-- The credited result of a finished task. -/
def exactTaskResult (journal : Journal Sha Payload) (taskId : Sha) :
    Except String (TaskResult Sha) :=
  match journal.indexes.creditedResults.get? taskId with
  | none => .error "scheduler cannot seal a pass with unfinished task evidence"
  | some result => do
      let history := historyForTask journal taskId
      raiseIf (¬ LifecycleIsTerminal history result ∨
          history.getLast?.bind (·.taskResultSha256) ≠ some (env.result result))
        "scheduler cannot seal a pass with unfinished task evidence"
      .ok result

/-- The plan of the pass that is sealed next. -/
def planToSeal (journal : Journal Sha Payload) (kind : PassKind) :
    Except String (PassPlan Sha) :=
  match journal.archive.plans[journal.archive.passResults.length]? with
  | none => .error "scheduler pass result lacks an exact sealed plan"
  | some plan => do
      raiseIf (plan.passKind ≠ kind) "scheduler pass results must follow exact plan order"
      .ok plan

def sealPassResult (journal : Journal Sha Payload) (kind : PassKind) :
    Logged (Artifact Sha Payload) (Journal Sha Payload) := do
  let plan ← .lift (planToSeal journal kind)
  let results ← .lift (plan.tasks.mapM fun task => env.exactTaskResult journal (env.taskId task))
  let passResult ← .lift (env.buildPassResult plan results)
  env.writeModel (.passResult passResult)
  let journal ← .lift (env.retainPassResult journal passResult)
  .lift (env.validateIncrementalState journal none)
  pure journal

/-- The transitions of a writable journal. -/
inductive Operation (Sha Payload : Type)
  | sealPassPlan (plan : PassPlan Sha)
  | activateTask (taskId : Sha) (material : ActivationMaterial Sha)
  | markDispatched (taskId : Sha)
  | persistOutput (taskId : Sha) (arguments : OutputArguments Sha Payload)
  | persistProviderAttempt (taskId : Sha) (usage : UsageRecord Sha)
  | recordTerminal (result : TaskResult Sha)
  | recordPreflightFailure (result : TaskResult Sha)
  | recordActivatedPreflightFailure (result : TaskResult Sha)
  | sealPassResult (kind : PassKind)

def perform (journal : Journal Sha Payload) :
    Operation Sha Payload → Logged (Artifact Sha Payload) (Journal Sha Payload)
  | .sealPassPlan plan => env.sealPassPlan journal plan
  | .activateTask taskId material => env.activateTask journal taskId material
  | .markDispatched taskId => env.markDispatched journal taskId
  | .persistOutput taskId arguments => env.persistOutput journal taskId arguments
  | .persistProviderAttempt taskId usage => env.persistProviderAttempt journal taskId usage
  | .recordTerminal result => env.recordTerminal journal result
  | .recordPreflightFailure result => env.recordPreflightFailure journal result
  | .recordActivatedPreflightFailure result =>
      env.recordActivatedPreflightFailure journal result
  | .sealPassResult kind => env.sealPassResult journal kind

end Transitions

end Environment

end Scheduler

end MmAudit
