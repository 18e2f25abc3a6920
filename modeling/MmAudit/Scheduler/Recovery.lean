import MmAudit.Scheduler.Loading

/-!
# Resuming a campaign

A resume loads the journal, finishes what an interrupted transition left half
done, and concludes every task that was dispatched without a terminal event as
uncertain.  It writes files itself and can be interrupted in turn.

A campaign is a history of transitions, crashes and resumes.  An archive stands
for the set of files on disk; its lists are in the order in which the files were
listed last.
-/

namespace MmAudit

namespace Scheduler

open Fallible

/-! ## Comparing indexes -/

/-- Two dictionaries that are equal up to the order of their keys. -/
def SameItems {Key Value : Type} (first second : Dict Key Value) : Prop :=
  first.items.Perm second.items

instance {Key Value : Type} [DecidableEq Key] [DecidableEq Value] (first second : Dict Key Value) :
    Decidable (SameItems first second) :=
  inferInstanceAs (Decidable (List.Perm _ _))

/-- Equality of indexes: dictionaries and sets do not depend on an order, the
lists that they hold do. -/
structure SameIndexes {Sha Payload : Type} (first second : Indexes Sha Payload) : Prop where
  tasks : SameItems first.tasks second.tasks
  activations : SameItems first.activations second.activations
  outputs : SameItems first.outputs second.outputs
  providerAttempts : SameItems first.providerAttempts second.providerAttempts
  resultsByHash : SameItems first.resultsByHash second.resultsByHash
  resultObservationsByTask :
    SameItems first.resultObservationsByTask second.resultObservationsByTask
  eventHistories : SameItems first.eventHistories second.eventHistories
  creditedResults : SameItems first.creditedResults second.creditedResults
  eventIds : first.eventIds.Perm second.eventIds

instance {Sha Payload : Type} [DecidableEq Sha] [DecidableEq Payload]
    (first second : Indexes Sha Payload) : Decidable (SameIndexes first second) :=
  decidable_of_iff (SameItems first.tasks second.tasks ∧
      SameItems first.activations second.activations ∧ SameItems first.outputs second.outputs ∧
      SameItems first.providerAttempts second.providerAttempts ∧
      SameItems first.resultsByHash second.resultsByHash ∧
      SameItems first.resultObservationsByTask second.resultObservationsByTask ∧
      SameItems first.eventHistories second.eventHistories ∧
      SameItems first.creditedResults second.creditedResults ∧
      first.eventIds.Perm second.eventIds)
    ⟨fun ⟨a, b, c, d, e, f, g, h, i⟩ => ⟨a, b, c, d, e, f, g, h, i⟩,
      fun ⟨a, b, c, d, e, f, g, h, i⟩ => ⟨a, b, c, d, e, f, g, h, i⟩⟩

namespace Environment

variable {Sha Payload : Type} [LinearOrder Sha] [DecidableEq Payload]

section Validation

variable (env : Environment Sha Payload)

/-- `_validate_state`: the files agree with the journal in memory. -/
def validateState (journal : Journal Sha Payload) (files : Archive Sha Payload) :
    Except String Unit := do
  let loaded ← env.loadState journal.manifest files
  raiseIf (loaded ≠ env.canonical journal.archive)
    "scheduler retained state differs from durable journal evidence"
  let expected ← env.deriveIndexes loaded
  raiseIf (¬ SameIndexes journal.indexes expected)
    "scheduler in-memory indexes differ from full reconstruction"

end Validation

/-! ## Recovery -/

section Recovery

variable (env : Environment Sha Payload)

/-- A sealed plan may have survived without its last planned events. -/
def recoverPlanned (snapshot journal : Journal Sha Payload)
    (entry : TaskPlan Sha × PassPlan Sha) :
    Logged (Artifact Sha Payload) (Journal Sha Payload) :=
  if env.taskId entry.1 ∈ snapshot.indexes.eventHistories then pure journal
  else env.appendEvent journal entry.2 entry.1 .planned none none none

/-- An activation may have survived without its event. -/
def recoverActivated (snapshot journal : Journal Sha Payload)
    (entry : TaskPlan Sha × PassPlan Sha) :
    Logged (Artifact Sha Payload) (Journal Sha Payload) :=
  let taskId := env.taskId entry.1
  match snapshot.archive.activation? taskId, (historyForTask snapshot taskId).getLast? with
  | some activation, some last =>
      if last.kind = .planned then
        env.appendEvent journal entry.2 entry.1 .activated none (some activation) none
      else
        pure journal
  | _, _ => pure journal

/-- The result that recovery gives a task dispatched without a terminal event. -/
def buildUncertain (plan : PassPlan Sha) (task : TaskPlan Sha) (activation : TaskActivation Sha)
    (dispatch : TaskEvent Sha) : Except String (TaskResult Sha) :=
  env.buildTaskResult plan task activation .uncertain
    (env.dispatchWithoutTerminal (env.event dispatch)) none

/-- The activation of a task, which recovery takes for granted. -/
def recoveryActivation (snapshot : Journal Sha Payload) (taskId : Sha) :
    Except String (TaskActivation Sha) :=
  match snapshot.archive.activation? taskId with
  | none => .error "scheduler task lacks one exact durable activation"
  | some activation => .ok activation

theorem lawfulBEq_taskResult {Sha : Type} [LinearOrder Sha] : LawfulBEq (TaskResult Sha) :=
  inferInstance

attribute [local instance] lawfulBEq_taskResult

/-- Retain the uncertain result, unless an interrupted recovery already wrote
it. -/
def retainUncertain (journal : Journal Sha Payload) (observations : List (TaskResult Sha))
    (uncertain : TaskResult Sha) : Logged (Artifact Sha Payload) (Journal Sha Payload) :=
  if uncertain ∈ observations then pure journal
  else do
    env.writeModel (.taskResult uncertain)
    .lift (env.retainResultObservation journal uncertain)

def recoverDispatched (snapshot journal : Journal Sha Payload)
    (entry : TaskPlan Sha × PassPlan Sha) (observations : List (TaskResult Sha))
    (dispatch : TaskEvent Sha) : Logged (Artifact Sha Payload) (Journal Sha Payload) := do
  let activation ← .lift (recoveryActivation snapshot (env.taskId entry.1))
  let uncertain ← .lift (env.buildUncertain entry.2 entry.1 activation dispatch)
  .lift (raiseIf (1 < (observations.filter (· = uncertain)).length)
    "scheduler has duplicate uncertain result observations")
  let journal ← env.retainUncertain journal observations uncertain
  env.appendEvent journal entry.2 entry.1 .terminal (some (env.logicalRequestId entry.1))
    (some activation) (some uncertain)

/-- The failures of an activated task that was not dispatched. -/
def activatedPreflights (observations : List (TaskResult Sha)) : List (TaskResult Sha) :=
  observations.filter fun result =>
    result.resultOrigin = .activated ∧ result.terminalStatus.IsActivatedPreflight

def recoverActivatedPreflight (snapshot journal : Journal Sha Payload)
    (entry : TaskPlan Sha × PassPlan Sha) (result : TaskResult Sha) :
    Logged (Artifact Sha Payload) (Journal Sha Payload) := do
  let activation ← .lift (recoveryActivation snapshot (env.taskId entry.1))
  env.appendEvent journal entry.2 entry.1 .activatedPreflightTerminal none (some activation)
    (some result)

/-- Conclude a task whose terminal event is missing. -/
def recoverTerminal (snapshot journal : Journal Sha Payload)
    (entry : TaskPlan Sha × PassPlan Sha) :
    Logged (Artifact Sha Payload) (Journal Sha Payload) :=
  let taskId := env.taskId entry.1
  let observations := (env.canonical snapshot.archive).observations taskId
  match (historyForTask snapshot taskId).getLast? with
  | none => pure journal
  | some last =>
      match last.kind, observations.filter (·.resultOrigin = .localPreflight),
          activatedPreflights observations with
      | .planned, [result], _ =>
          env.appendEvent journal entry.2 entry.1 .preflightTerminal none none (some result)
      | .activated, _, [result] => env.recoverActivatedPreflight snapshot journal entry result
      | .dispatched, _, _ => env.recoverDispatched snapshot journal entry observations last
      | _, _, _ => pure journal

/-- `_recover_interrupted_state`: three walks over all planned tasks. -/
def recoverInterruptedState (journal : Journal Sha Payload) :
    Logged (Artifact Sha Payload) (Journal Sha Payload) := do
  let tasks := Archive.plannedTasks journal.archive.plans
  let planned ← tasks.foldlM (env.recoverPlanned journal) journal
  let activated ← tasks.foldlM (env.recoverActivated planned) planned
  tasks.foldlM (env.recoverTerminal activated) activated

/-- The journal over files that load. -/
def openJournal (manifest : CampaignManifest Sha) (analysisInputSha256 : Sha)
    (files : Archive Sha Payload) : Except String (Journal Sha Payload) := do
  let archive ← env.loadState manifest files
  let indexes ← env.deriveIndexes archive
  .ok ⟨manifest, analysisInputSha256, archive, indexes⟩

/-- `resume_scheduler_journal`, for the manifest of the campaign. -/
def resumeJournal (manifest : CampaignManifest Sha) (analysisInputSha256 : Sha)
    (files : Archive Sha Payload) : Logged (Artifact Sha Payload) (Journal Sha Payload) := do
  let journal ← .lift (env.openJournal manifest analysisInputSha256 files)
  .lift (env.validateState journal files)
  let recovery := env.recoverInterruptedState journal
  let recovered ← recovery
  .lift (env.validateState recovered (recovery.log.foldl Archive.write files))
  pure recovered

end Recovery

/-! ## Campaigns -/

/-- A running process with its files, or the files alone. -/
inductive Config (Sha Payload : Type)
  | live (files : Archive Sha Payload) (journal : Journal Sha Payload)
  | down (files : Archive Sha Payload)

/-- The files on disk. -/
def Config.files : Config Sha Payload → Archive Sha Payload
  | .live files _ => files
  | .down files => files

/-- What happens to a campaign.  An interruption keeps a prefix of the files
that the transition or the resume would write. -/
inductive Action (Sha Payload : Type)
  | call (operation : Operation Sha Payload)
  | crash (operation : Operation Sha Payload) (written : List (Artifact Sha Payload))
  | close
  | resume
  | interrupt (written : List (Artifact Sha Payload))

section Campaigns

variable (env : Environment Sha Payload)

def writeAll (files : Archive Sha Payload) (log : List (Artifact Sha Payload)) :
    Archive Sha Payload :=
  log.foldl Archive.write files

/-- One step of a campaign. -/
inductive CampaignStep (manifest : CampaignManifest Sha) (analysisInputSha256 : Sha) :
    Config Sha Payload → Action Sha Payload → Config Sha Payload → Prop
  | call {files : Archive Sha Payload} {journal next : Journal Sha Payload}
      {operation : Operation Sha Payload} {log : List (Artifact Sha Payload)}
      (accepted : (env.perform journal operation).Returns log next) :
      CampaignStep manifest analysisInputSha256 (.live files journal) (.call operation)
        (.live (writeAll files log) next)
  | crash {files : Archive Sha Payload} {journal next : Journal Sha Payload}
      {operation : Operation Sha Payload} {log written : List (Artifact Sha Payload)}
      (accepted : (env.perform journal operation).Returns log next) (cut : written <+: log) :
      CampaignStep manifest analysisInputSha256 (.live files journal) (.crash operation written)
        (.down (writeAll files written))
  | close {files : Archive Sha Payload} {journal : Journal Sha Payload} :
      CampaignStep manifest analysisInputSha256 (.live files journal) .close (.down files)
  | resume {files : Archive Sha Payload} {journal : Journal Sha Payload}
      {log : List (Artifact Sha Payload)}
      (resumed : (env.resumeJournal manifest analysisInputSha256 files).Returns log journal) :
      CampaignStep manifest analysisInputSha256 (.down files) .resume
        (.live (writeAll (env.canonical files) log) journal)
  | interrupt {files : Archive Sha Payload} {written : List (Artifact Sha Payload)}
      (cut : written <+: (env.resumeJournal manifest analysisInputSha256 files).log) :
      CampaignStep manifest analysisInputSha256 (.down files) (.interrupt written)
        (.down (writeAll (env.canonical files) written))

/-- A history of steps that are all allowed where they happen. -/
inductive Campaign (manifest : CampaignManifest Sha) (analysisInputSha256 : Sha)
    (allowed : Config Sha Payload → Action Sha Payload → Prop) :
    Config Sha Payload → Config Sha Payload → Prop
  | start {config : Config Sha Payload} :
      Campaign manifest analysisInputSha256 allowed config config
  | step {first middle last : Config Sha Payload} {action : Action Sha Payload}
      (history : Campaign manifest analysisInputSha256 allowed first middle)
      (permitted : allowed middle action)
      (next : env.CampaignStep manifest analysisInputSha256 middle action last) :
      Campaign manifest analysisInputSha256 allowed first last

/-- The journal that a campaign starts with. -/
def newJournal (manifest : CampaignManifest Sha) (analysisInputSha256 : Sha) :
    Journal Sha Payload :=
  ⟨manifest, analysisInputSha256, .empty, .empty⟩

/-- The configuration after `create_scheduler_journal`. -/
def newConfig (manifest : CampaignManifest Sha) (analysisInputSha256 : Sha) :
    Config Sha Payload :=
  .live .empty (newJournal manifest analysisInputSha256)

/-- The files and the journal after transitions that are all accepted. -/
def performAll : Archive Sha Payload × Journal Sha Payload → List (Operation Sha Payload) →
    Option (Archive Sha Payload × Journal Sha Payload)
  | state, [] => some state
  | (files, journal), operation :: rest =>
      match (env.perform journal operation).result with
      | .error _ => none
      | .ok next => performAll (writeAll files (env.perform journal operation).log, next) rest

end Campaigns

section Calling

variable {env : Environment Sha Payload} {manifest : CampaignManifest Sha}
  {analysisInputSha256 : Sha} {allowed : Config Sha Payload → Action Sha Payload → Prop}

theorem Campaign.trans {first middle last : Config Sha Payload}
    (before : env.Campaign manifest analysisInputSha256 allowed first middle)
    (after : env.Campaign manifest analysisInputSha256 allowed middle last) :
    env.Campaign manifest analysisInputSha256 allowed first last := by
  induction after with
  | start => exact before
  | step history permitted next ih => exact .step ih permitted next

/-- Accepted transitions are a campaign. -/
theorem campaign_of_performAll {operations : List (Operation Sha Payload)}
    (state : Archive Sha Payload × Journal Sha Payload)
    {last : Archive Sha Payload × Journal Sha Payload}
    (permitted : ∀ files journal, ∀ operation ∈ operations,
      allowed (.live files journal) (.call operation))
    (accepted : env.performAll state operations = some last) :
    env.Campaign manifest analysisInputSha256 allowed (.live state.1 state.2)
      (.live last.1 last.2) := by
  induction operations generalizing state with
  | nil =>
      obtain rfl := Option.some.inj accepted
      exact .start
  | cons operation rest ih =>
      obtain ⟨files, journal⟩ := state
      unfold performAll at accepted
      cases returned : (env.perform journal operation).result with
      | error failure => simp [returned] at accepted
      | ok next =>
          rw [returned] at accepted
          have first : env.Campaign manifest analysisInputSha256 allowed (.live files journal)
              (.live (writeAll files (env.perform journal operation).log) next) :=
            .step .start (permitted files journal operation List.mem_cons_self)
              (.call (Logged.returns_of_ok returned))
          exact first.trans
            (ih _ (fun files journal other member =>
              permitted files journal other (List.mem_cons_of_mem _ member)) accepted)

end Calling

end Environment

end Scheduler

end MmAudit
