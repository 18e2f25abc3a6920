import MmAudit.Scheduler.Journal

/-!
# Loading a journal

The loader reads all files, brings them into a canonical order and validates
them from scratch: every record is built again from the records it refers to,
the events are replayed as one chain, and each task must be in a state that an
interrupted transition can leave behind.

The source keeps dictionaries while it walks over the files.  Such a dictionary
is determined by the part of the list already walked over, and is written here as
a lookup in that list.
-/

namespace MmAudit

namespace Scheduler

open Fallible

/-! ## Lookups in an archive -/

namespace Archive

variable {Sha Payload : Type} [LinearOrder Sha]

def activation? (archive : Archive Sha Payload) (taskId : Sha) : Option (TaskActivation Sha) :=
  archive.activations.find? (·.taskId = taskId)

def output? (archive : Archive Sha Payload) (taskId : Sha) : Option (TaskOutput Sha Payload) :=
  archive.outputs.find? (·.taskId = taskId)

def providerAttempt? (archive : Archive Sha Payload) (taskId : Sha) :
    Option (ProviderAttemptEvidence Sha) :=
  archive.providerAttempts.find? (·.taskId = taskId)

/-- The retained results of a task. -/
def observations (archive : Archive Sha Payload) (taskId : Sha) : List (TaskResult Sha) :=
  archive.resultObservations.filter (·.taskId = taskId)

/-- The events of a task. -/
def history (archive : Archive Sha Payload) (taskId : Sha) : List (TaskEvent Sha) :=
  archive.events.filter (·.taskId = taskId)

/-- The kinds of the events of a task. -/
def kinds (archive : Archive Sha Payload) (taskId : Sha) : List EventKind :=
  (archive.history taskId).map (·.kind)

end Archive

namespace Environment

variable {Sha Payload : Type} [LinearOrder Sha] [DecidableEq Payload]

section Lookups

variable (env : Environment Sha Payload)

def plannedTask? (archive : Archive Sha Payload) (taskId : Sha) :
    Option (TaskPlan Sha × PassPlan Sha) :=
  (Archive.plannedTasks archive.plans).find? fun entry => env.taskId entry.1 = taskId

def resultByHash? (archive : Archive Sha Payload) (sha : Sha) : Option (TaskResult Sha) :=
  archive.resultObservations.find? fun result => env.result result = sha

/-- The result that the terminal event of a task selects. -/
def credited? (archive : Archive Sha Payload) (taskId : Sha) : Option (TaskResult Sha) :=
  ((archive.history taskId).find? (·.kind.IsTerminal)).bind fun event =>
    event.taskResultSha256.bind (env.resultByHash? archive)

/-- The digests of the results that events have credited. -/
def creditedHashes (events : List (TaskEvent Sha)) : List Sha :=
  (events.filter (·.kind.IsTerminal)).filterMap (·.taskResultSha256)

/-- The canonical order in which the files are read. -/
def canonical (archive : Archive Sha Payload) : Archive Sha Payload :=
  { archive with
    activations := archive.activations.insertionSort fun first second =>
      first.taskId ≤ second.taskId
    outputs := archive.outputs.insertionSort fun first second => first.taskId ≤ second.taskId
    providerAttempts := archive.providerAttempts.insertionSort fun first second =>
      first.taskId ≤ second.taskId
    resultObservations := archive.resultObservations.insertionSort fun first second =>
      toLex (first.taskId, env.result first) ≤ toLex (second.taskId, env.result second) }

end Lookups

/-! ## Records one by one -/

section Records

variable (env : Environment Sha Payload)

/-- Every key occurs once. -/
def requireDistinct (keys : List Sha) (message : String) : Except String Unit :=
  raiseIf (¬ keys.Nodup) message

def checkPlan (manifest : CampaignManifest Sha) (archive : Archive Sha Payload)
    (plan : PassPlan Sha) (ordinal : ℕ) : Except String Unit := do
  let earlier := archive.passResults.take ordinal
  raiseIf (plan.manifest ≠ manifest ∨ some plan.passKind ≠ passOrder[ordinal]? ∨
      plan.dependencies ≠ earlier.map env.fromResult ∨
      earlier.any fun result => result.status ≠ .complete)
    "scheduler pass plan differs from campaign dependency state"
  plan.tasks.forM (requireModelTaskPrivacyCustody manifest)

def checkActivation (archive : Archive Sha Payload) (activation : TaskActivation Sha) :
    Except String Unit :=
  match env.plannedTask? archive activation.taskId with
  | none => .error "scheduler activation is duplicated or unplanned"
  | some (task, plan) => env.requireExactTask activation plan task

def checkOutput (archive : Archive Sha Payload) (output : TaskOutput Sha Payload) :
    Except String Unit :=
  match env.plannedTask? archive output.taskId, archive.activation? output.taskId with
  | some (task, plan), some activation => do
      env.requireExactActivation output activation
      let expected ← env.buildOutput plan task activation output.content.arguments
      raiseIf (output ≠ expected)
        "scheduler output differs from its exact normalized task evidence"
  | _, _ => .error "scheduler output is duplicated, unplanned, or unactivated"

def checkProviderAttempt (archive : Archive Sha Payload) (attempt : ProviderAttemptEvidence Sha) :
    Except String Unit :=
  match env.plannedTask? archive attempt.taskId, archive.activation? attempt.taskId with
  | some (task, _), some activation => do
      raiseIf (archive.output? attempt.taskId).isSome
        "scheduler provider attempt is duplicated, credited, unplanned, or unactivated"
      let expected ← env.buildProviderAttempt task activation attempt.usageRecord
      raiseIf (attempt ≠ expected) "scheduler provider attempt differs from exact task evidence"
  | _, _ =>
      .error "scheduler provider attempt is duplicated, credited, unplanned, or unactivated"

/-- The result that the retained evidence of a task determines. -/
def expectedResult (archive : Archive Sha Payload) (result : TaskResult Sha)
    (task : TaskPlan Sha) (plan : PassPlan Sha) : Except String (TaskResult Sha) :=
  match result.resultOrigin, archive.activation? result.taskId with
  | .localPreflight, activation => do
      raiseIf (activation.isSome ∨ (archive.output? result.taskId).isSome)
        "scheduler preflight result has runtime evidence"
      env.buildPreflightFailure plan task result.terminalStatus result.terminalEvidenceSha256
  | .activated, none => .error "scheduler activated result lacks exact activation"
  | .activated, some activation =>
      env.buildTaskResult plan task activation result.terminalStatus result.terminalEvidenceSha256
        (if result.terminalStatus = .succeeded then archive.output? result.taskId else none)

def checkResult (archive : Archive Sha Payload) (result : TaskResult Sha) :
    Except String Unit :=
  match env.plannedTask? archive result.taskId with
  | none => .error "scheduler task result is duplicated or unplanned"
  | some (task, plan) => do
      let expected ← env.expectedResult archive result task plan
      raiseIf (result ≠ expected) "scheduler task result differs from its sealed task plan"

def checkObservations (observations : List (TaskResult Sha)) : Except String Unit := do
  raiseIf (2 < observations.length) "scheduler task has too many retained result observations"
  raiseIf (AmbiguousObservations observations)
    "scheduler duplicate observations are not exact uncertain recovery"

/-- A workset must be the projection of retained pass-four evidence. -/
def checkWorkset (archive : Archive Sha Payload) (plan : PassPlan Sha)
    (workset : CandidateWorkset Sha) : Except String Unit :=
  let sourcePasses := archive.passResults.filter fun result =>
    result.plan.passKind = .crossShardIntegration ∧
      env.passResult result = workset.sourcePassResultSha256
  let sourceResults := (sourcePasses.flatMap (·.taskResults)).filter fun result =>
    result.taskId = workset.sourceTaskId ∧ env.result result = workset.sourceResultSha256
  let sourceOutputs := archive.outputs.filter fun output =>
    output.taskId = workset.sourceTaskId ∧
      env.output output = workset.sourceOutputArtifactSha256
  match sourcePasses, sourceResults, sourceOutputs with
  | [sourcePass], [sourceResult], [sourceOutput] => do
      let expected ← env.buildWorkset plan.passKind sourcePass sourceResult sourceOutput
      raiseIf (workset ≠ expected)
        "scheduler candidate workset differs from pass-four output"
  | _, _, _ => .error "scheduler candidate workset lacks exact retained pass-four evidence"

end Records

/-! ## The event chain -/

section Events

variable (env : Environment Sha Payload)

/-- The result that a terminal event refers to, given the events before it. -/
def eventResult (archive : Archive Sha Payload) (before : List (TaskEvent Sha))
    (event : TaskEvent Sha) : Except String (Option (TaskResult Sha)) :=
  if event.kind.IsTerminal then
    match event.taskResultSha256.bind (env.resultByHash? archive) with
    | none => .error "scheduler terminal event lacks its exact task result"
    | some result => do
        raiseIf (result.taskId ≠ event.taskId)
          "scheduler terminal event lacks its exact task result"
        raiseIf (before.any fun other => other.taskId = event.taskId ∧ other.kind.IsTerminal)
          "scheduler task has more than one credited terminal result"
        .ok (some result)
  else
    .ok none

/-- The activation that an event of a kind carries. -/
def eventActivation (archive : Archive Sha Payload) (kind : EventKind) (taskId : Sha) :
    Option (TaskActivation Sha) :=
  if kind = .planned ∨ kind = .preflightTerminal then none else archive.activation? taskId

/-- The request identity that an event of a kind carries. -/
def eventRequestId (kind : EventKind) (task : TaskPlan Sha) : Option Sha :=
  if kind = .dispatched ∨ kind = .terminal then some (env.logicalRequestId task) else none

/-- An activation may use only results that were credited before it. -/
def checkUpstream (before : List (TaskEvent Sha)) (plan : PassPlan Sha) (task : TaskPlan Sha)
    (activation : TaskActivation Sha) : Except String Unit := do
  raiseIf (¬ activation.upstreamTaskResultSha256s ⊆ creditedHashes before)
    "scheduler activation references unavailable upstream results"
  raiseIf (task.taskKind = .emptyCompletion ∧
      some activation.upstreamTaskResultSha256s ≠
        plan.candidateWorkset.map fun workset => [workset.sourceResultSha256])
    "scheduler explicit-empty activation lacks exact pass-four source result"

theorem lawfulBEq_eventId {Sha : Type} [LinearOrder Sha] : LawfulBEq Sha :=
  inferInstance

attribute [local instance] lawfulBEq_eventId

def checkEvent (archive : Archive Sha Payload) (before : List (TaskEvent Sha))
    (event : TaskEvent Sha) : Except String Unit :=
  match env.plannedTask? archive event.taskId with
  | none => .error "scheduler event identity is duplicated or unplanned"
  | some (task, plan) => do
      raiseIf (env.eventId event ∈ before.map env.eventId)
        "scheduler event identity is duplicated or unplanned"
      let result ← env.eventResult archive before event
      let activation := eventActivation archive event.kind event.taskId
      let expected ← env.buildEvent plan task {
        kind := event.kind
        eventIndex := before.length
        previousEvent := before.getLast?
        priorTaskEvent := (before.filter (·.taskId = event.taskId)).getLast?
        activation := activation
        requestId := env.eventRequestId event.kind task
        result := result }
      raiseIf (event ≠ expected) "scheduler event differs from its exact global or task chain"
      (if event.kind = .activated then activation.forM (checkUpstream before plan task)
      else .ok ())

end Events

/-! ## The state of a task -/

section Lifecycle

variable (env : Environment Sha Payload)

/-- The evidence that an undispatched task may hold. -/
def checkUndispatched (archive : Archive Sha Payload) (taskId : Sha) (last : EventKind) :
    Except String Unit := do
  let observations := archive.observations taskId
  let output := archive.output? taskId
  raiseIf (last = .planned ∧ (((archive.activation? taskId).isSome ∧ observations ≠ []) ∨
      output.isSome ∨
      1 < (observations.filter (·.resultOrigin = .localPreflight)).length))
    "scheduler planned task has contradictory interrupted evidence"
  raiseIf (last = .activated ∧ (output.isSome ∨ 1 < observations.length ∨
      observations ≠ observations.filter fun result =>
        result.resultOrigin = .activated ∧ result.terminalStatus.IsActivatedPreflight))
    "scheduler task has invalid result evidence before dispatch"

/-- The credited result of a finished task beside its other results. -/
def checkCredit (archive : Archive Sha Payload) (taskId : Sha) (last : EventKind) :
    Except String Unit := do
  let observations := archive.observations taskId
  let credited := env.credited? archive taskId
  raiseIf (last.IsTerminal ∧ credited.isNone)
    "scheduler terminal event lacks its exact task result"
  raiseIf (last.IsTerminal ∧ 1 < observations.length ∧
      (credited.map (·.terminalStatus) ≠ some .uncertain ∨
        ∃ result ∈ observations, some result ≠ credited ∧ result.terminalStatus = .uncertain))
    "scheduler has an uncredited result outside uncertain recovery"

/-- The results beside a retained output. -/
def checkRetainedOutput (archive : Archive Sha Payload) (taskId : Sha) (last : EventKind) :
    Except String Unit :=
  let observations := archive.observations taskId
  let credited := env.credited? archive taskId
  raiseIf ((archive.output? taskId).isSome ∧
      ((last ≠ .dispatched ∧ last ≠ .terminal) ∨
        1 < (observations.filter (·.terminalStatus = .succeeded)).length ∨
        (∃ result ∈ observations, some result ≠ credited ∧ result.terminalStatus ≠ .succeeded) ∨
        (last.IsTerminal ∧ credited.map (·.terminalStatus) ≠ some .succeeded ∧
          credited.map (·.terminalStatus) ≠ some .uncertain)))
    "scheduler output lacks a dispatched success observation"

/-- A retained provider attempt excludes credit. -/
def checkRetainedAttempt (archive : Archive Sha Payload) (taskId : Sha)
    (kinds : List EventKind) : Except String Unit :=
  let credited := env.credited? archive taskId
  raiseIf ((archive.providerAttempt? taskId).isSome ∧
      (.dispatched ∉ kinds ∨ (archive.output? taskId).isSome ∨
        credited.map (·.terminalStatus) = some .succeeded ∨
        credited.map (·.terminalStatus) = some .explicitEmpty))
    "scheduler provider attempt lacks a non-creditable dispatched lifecycle"

theorem lawfulBEq_eventKinds : LawfulBEq (List EventKind) :=
  inferInstance

attribute [local instance] lawfulBEq_eventKinds

def checkLifecycle (archive : Archive Sha Payload) (taskId : Sha) : Except String Unit :=
  let kinds := archive.kinds taskId
  match kinds.getLast? with
  | none => .ok ()
  | some last => do
      raiseIf (kinds ∉ validLifecyclePrefixes)
        "scheduler task lifecycle is not a strict transition prefix"
      checkUndispatched archive taskId last
      env.checkCredit archive taskId last
      env.checkRetainedOutput archive taskId last
      env.checkRetainedAttempt archive taskId kinds

end Lifecycle

/-! ## Passes -/

section Passes

variable (env : Environment Sha Payload)

/-- The tasks that hold evidence of any kind. -/
def evidenceTaskIds (archive : Archive Sha Payload) : List Sha :=
  archive.activations.map (·.taskId) ++ archive.outputs.map (·.taskId) ++
    archive.providerAttempts.map (·.taskId) ++ archive.resultObservations.map (·.taskId)

/-- Only the last plan may lack planned events, and only a suffix of them. -/
def checkPlannedPrefix (archive : Archive Sha Payload) (plan : PassPlan Sha) (ordinal : ℕ) :
    Except String Unit := do
  let ids := plan.tasks.map env.taskId
  let planned := ids.filter fun taskId => archive.history taskId ≠ []
  raiseIf (planned ≠ ids.take planned.length)
    "scheduler planned-event inventory is not an exact task prefix"
  raiseIf (planned.length ≠ plan.tasks.length ∧ ordinal + 1 ≠ archive.plans.length)
    "scheduler prior pass plan is missing planned task events"

/-- The credited result of a task of a sealed pass. -/
def creditedResult (archive : Archive Sha Payload) (taskId : Sha) :
    Except String (TaskResult Sha) :=
  match env.credited? archive taskId with
  | none => .error "scheduler pass result omits an exact task result"
  | some result => .ok result

def checkPassResult (archive : Archive Sha Payload) (result : PassResult Sha) (ordinal : ℕ) :
    Except String Unit :=
  match archive.plans[ordinal]? with
  | none => .error "scheduler pass plan/result prefixes are inconsistent"
  | some plan => do
      let results ← plan.tasks.mapM fun task => env.creditedResult archive (env.taskId task)
      raiseIf (results.any fun result =>
          ¬ (archive.kinds result.taskId).getLast?.any fun kind => kind.IsTerminal)
        "scheduler pass result contains non-terminal task evidence"
      let expected ← env.buildPassResult plan results
      raiseIf (result ≠ expected)
        "scheduler pass result is not derived from its exact task results"

/-- `_validate_loaded_state`. -/
def validateLoadedState (manifest : CampaignManifest Sha) (archive : Archive Sha Payload) :
    Except String Unit := do
  raiseIf (archive.plans.length < archive.passResults.length ∨
      archive.passResults.length < archive.plans.length - 1)
    "scheduler pass plan/result prefixes are inconsistent"
  archive.plans.zipIdx.forM fun entry => env.checkPlan manifest archive entry.1 entry.2
  requireDistinct ((Archive.plannedTasks archive.plans).map fun entry => env.taskId entry.1)
    "scheduler task identity is duplicated across pass plans"
  requireDistinct (archive.activations.map (·.taskId))
    "scheduler activation is duplicated or unplanned"
  archive.activations.forM (env.checkActivation archive)
  requireDistinct (archive.outputs.map (·.taskId))
    "scheduler output is duplicated, unplanned, or unactivated"
  archive.outputs.forM (env.checkOutput archive)
  requireDistinct (archive.providerAttempts.map (·.taskId))
    "scheduler provider attempt is duplicated, credited, unplanned, or unactivated"
  archive.providerAttempts.forM (env.checkProviderAttempt archive)
  requireDistinct (archive.resultObservations.map env.result)
    "scheduler task result is duplicated or unplanned"
  archive.resultObservations.forM (env.checkResult archive)
  archive.resultObservations.forM fun result =>
    checkObservations (archive.observations result.taskId)
  archive.plans.forM fun plan => plan.candidateWorkset.forM (env.checkWorkset archive plan)
  archive.events.zipIdx.forM fun entry =>
    env.checkEvent archive (archive.events.take entry.2) entry.1
  archive.events.forM fun event => env.checkLifecycle archive event.taskId
  raiseIf ((evidenceTaskIds archive).any fun taskId => archive.history taskId = [])
    "scheduler runtime evidence exists before its planned lifecycle"
  archive.plans.zipIdx.forM fun entry => env.checkPlannedPrefix archive entry.1 entry.2
  archive.passResults.zipIdx.forM fun entry => env.checkPassResult archive entry.1 entry.2
  env.validateSummary manifest archive.passResults

/-- `_load_state`: the canonical archive, if it is valid. -/
def loadState (manifest : CampaignManifest Sha) (archive : Archive Sha Payload) :
    Except String (Archive Sha Payload) := do
  env.validateLoadedState manifest (env.canonical archive)
  .ok (env.canonical archive)

end Passes

end Environment

end Scheduler

end MmAudit
