import MmAudit.Scheduler.Records

/-!
# Building the records of the journal

Each record is built from the plan, the task and the records it refers to, and
building it checks that they belong together.  The loader builds every record
again and compares, so these functions are the meaning of a well-formed record.

An environment supplies what is computed outside the scheduler: the canonical
digest of each kind of record, the typed normalization of task outputs, the
candidate inventory of a normalized payload, and the size of a journal file.
-/

namespace MmAudit

namespace Scheduler

open Fallible

/-- The canonical digests, one for each kind of record that is hashed. -/
structure Digests (Sha Payload : Type) where
  taskIdentity : TaskPlan Sha → Sha
  logicalRequest : Sha → Sha
  taskPlan : TaskPlan Sha → Sha
  passIdentity : Sha → Sha → PassKind → Sha
  passPlanIdentity : PassPlan Sha → Sha
  passPlan : PassPlan Sha → Sha
  workset : CandidateWorkset Sha → Sha
  activationIdentity : TaskActivation Sha → Sha
  activation : TaskActivation Sha → Sha
  payload : Payload → Sha
  output : TaskOutput Sha Payload → Sha
  resultIdentity : Sha → Sha → Sha → Sha
  result : TaskResult Sha → Sha
  eventIdentity : Sha → Sha → EventKind → Sha
  event : TaskEvent Sha → Sha
  passResult : PassResult Sha → Sha
  dispatchWithoutTerminal : Sha → Sha

/-- Everything that the journal takes from outside. -/
structure Environment (Sha Payload : Type) extends Digests Sha Payload where
  normalizeOutput : PassPlan Sha → TaskPlan Sha → TaskActivation Sha →
    OutputArguments Sha Payload → Except String (OutputContent Sha Payload)
  candidateInventory : Payload → Except String (CandidateInventory Sha)
  isStructurallyAccountable : UsageRecord Sha → Bool
  artifactBytes : Artifact Sha Payload → ℕ

variable {Sha Payload : Type} [LinearOrder Sha] [DecidableEq Payload]

/-- The distinct digests of a list in their order. -/
def sortedSet (digests : List Sha) : List Sha :=
  digests.dedup.insertionSort (· ≤ ·)

namespace Environment

/-! ## Identities -/

section Identities

variable (env : Environment Sha Payload)

def taskId (task : TaskPlan Sha) : Sha :=
  env.taskIdentity task

def logicalRequestId (task : TaskPlan Sha) : Sha :=
  env.logicalRequest (env.taskIdentity task)

def passId (manifest : CampaignManifest Sha) (kind : PassKind) : Sha :=
  env.passIdentity manifest.campaignId manifest.manifestSha256 kind

def activationReference (activation : TaskActivation Sha) : ActivationReference Sha where
  activationId := env.activationIdentity activation
  activationSha256 := env.activation activation

def resultId (result : TaskResult Sha) : Sha :=
  env.resultIdentity result.passPlanId result.taskId result.logicalRequestId

def eventId (event : TaskEvent Sha) : Sha :=
  env.eventIdentity event.passPlanId event.taskId event.kind

/-- A task that belongs to a plan. -/
def HasExactTask (plan : PassPlan Sha) (task : TaskPlan Sha) : Prop :=
  plan.tasks.find? (fun other => env.taskId other = env.taskId task) = some task

instance (plan : PassPlan Sha) (task : TaskPlan Sha) : Decidable (env.HasExactTask plan task) :=
  inferInstanceAs (Decidable (_ = _))

end Identities

/-! ## Roles -/

/-- The role of a whole-protocol review: its name and a number below 10000. -/
def isWholeProtocolReviewRole (role : String) : Bool :=
  let head := "whole_protocol_review:".toList
  let digits := role.toList.drop head.length
  role.toList.take head.length = head &&
    match digits with
    | [] => false
    | ['0'] => true
    | first :: rest =>
        '1' ≤ first && first ≤ '9' && rest.length ≤ 3 && rest.all (·.isDigit)

def specialistInvestigatorRoles : List String :=
  ["access_control", "reentrancy_control_flow", "economic_game_theory",
    "oracle_price_manipulation", "accounting_invariant", "token_standard", "erc4626_vault",
    "amm_dex_liquidity", "lending_liquidation", "governance_timelock", "upgradeability_storage",
    "initialization_deployment", "signature_permit_replay", "mev_ordering",
    "denial_of_service_griefing", "precision_rounding", "cross_chain_bridge",
    "dependency_supply_chain", "formal_methods_property", "false_negative_hunter"]

def requiresSpecialistAcceptedOutcome (role : String) : Bool :=
  role ∈ specialistInvestigatorRoles.map ("specialist:" ++ ·) ++
    ["specialist:invariant_review", "specialist:falsifier", "specialist:report_quality",
      "specialist:test_generation:exploit_test",
      "specialist:exploit_reproduction_planner:exploit_test"]

/-- The roles whose decisions must name every candidate of their task. -/
def isCandidateDecisionRole (role : String) : Bool :=
  role ∈ ["verifier", "candidate_falsifier", "falsifier", "specialist:falsifier"]

/-- The source descriptors in the scope of a task. -/
def taskSourceDescriptors (plan : PassPlan Sha) (task : TaskPlan Sha) : List Sha :=
  (plan.manifest.shards.filter fun shard =>
    task.scope.kind = .global ∨ shard.shardId ∈ task.scope.shardIds).flatMap (·.sources)

def knownSourceDescriptors (plan : PassPlan Sha) : List Sha :=
  plan.manifest.shards.flatMap (·.sources)

/-! ## Plans -/

section Plans

variable (env : Environment Sha Payload)

def fromResult (result : PassResult Sha) : PassDependency Sha where
  passKind := result.plan.passKind
  passId := env.passId result.plan.manifest result.plan.passKind
  passResultSha256 := env.passResult result

/-- A task carries model identity exactly when it is a model request. -/
def validateTaskPlan (task : TaskPlan Sha) : Except String Unit := do
  raiseIf (task.taskKind = .modelRequest ∧ (task.requestedModel.isNone ∨ task.rootLineage.isNone ∨
      task.systemPromptSha256.isNone ∨ task.normalizerSha256.isNone))
    "model scheduler task requires exact model and root lineage"
  raiseIf (task.taskKind ≠ .modelRequest ∧ (task.requestedModel.isSome ∨ task.rootLineage.isSome ∨
      task.systemPromptSha256.isSome ∨ task.normalizerSha256.isSome))
    "host scheduler task cannot carry model identity"
  raiseIf (task.candidateIds ≠ [] ∧ task.taskKind ≠ .modelRequest)
    "host scheduler task cannot claim model candidate review"

/-- The sole task of an explicitly empty pass. -/
def isAbsenceTask (task : TaskPlan Sha) : Bool :=
  task.taskKind = .emptyCompletion ∧ task.role = "host:conditional_absence" ∧
    task.scope.kind = .global

def validateWorkset (plan : PassPlan Sha) (workset : CandidateWorkset Sha) :
    Except String Unit :=
  raiseIf (workset.passKind ≠ plan.passKind ∨
      (plan.dependencies.filter (·.passKind = .crossShardIntegration)).map (·.passResultSha256) ≠
        [workset.sourcePassResultSha256])
    "scheduler candidate workset lacks its exact pass-four dependency"

def validateAbsence (plan : PassPlan Sha) (absence : ConditionalAbsence Sha) :
    Except String Unit :=
  raiseIf (¬ plan.candidateWorkset.any fun workset =>
      absence.passKind = plan.passKind ∧
      absence.candidateWorksetSha256 = env.workset workset ∧
      absence.sourcePassResultSha256 = workset.sourcePassResultSha256 ∧
      absence.sourceOutputArtifactSha256 = workset.sourceOutputArtifactSha256 ∧
      workset.selectedCandidateIds = [])
    "scheduler absence is not derived from its exact empty workset"

/-- The roles that review a single shard in the blind pass. -/
def blindShardReviewRoles : List String :=
  ["source_audit", "business_logic", "configuration"] ++
    specialistInvestigatorRoles.map ("specialist:" ++ ·)

def validateBlindTask (task : TaskPlan Sha) : Except String Unit := do
  raiseIf (task.taskKind ≠ .modelRequest)
    "blind review requires only single-shard model requests or global whole-protocol reviews"
  raiseIf (isWholeProtocolReviewRole task.role ∧ task.scope.kind ≠ .global)
    "whole-protocol blind review requires global scope"
  raiseIf (¬ isWholeProtocolReviewRole task.role ∧
      (task.role ∉ blindShardReviewRoles ∨ task.scope.kind ≠ .singleShard))
    "blind review role or scope is not permitted"

/-- The shards that the source audits of a plan are about. -/
def auditedShards (plan : PassPlan Sha) : List String :=
  (plan.tasks.filter (·.role = "source_audit")).filterMap (·.scope.shardIds.head?)

/-- The tasks of the blind pass are model requests, and their source audits cover
every shard. -/
def validateBlindPortfolio (plan : PassPlan Sha) : Except String Unit := do
  plan.tasks.forM validateBlindTask
  let known := plan.manifest.shards.map (·.shardId)
  raiseIf (¬ (auditedShards plan ⊆ known ∧ known ⊆ auditedShards plan))
    "blind source-audit requests must cover the exact shard inventory"

/-- The checks of a pass plan, without the portfolios of the passes after the
blind one. -/
def validatePassPlan (plan : PassPlan Sha) : Except String Unit := do
  raiseIf (plan.dependencies.map (·.passKind) ≠ plan.passKind.preceding)
    "scheduler pass must bind every exact prior pass artifact"
  raiseIf (plan.dependencies.any fun dependency =>
      dependency.passId ≠ env.passId plan.manifest dependency.passKind)
    "scheduler pass dependency ID differs from its campaign"
  raiseIf (plan.tasks = []) "scheduler pass requires tasks"
  raiseIf (¬ (plan.tasks.map env.taskId).Pairwise (· < ·))
    "scheduler pass tasks must be unique and sorted"
  plan.tasks.forM validateTaskPlan
  raiseIf (plan.tasks.any fun task =>
      task.campaignId ≠ plan.manifest.campaignId ∨
      task.manifestSha256 ≠ plan.manifest.manifestSha256 ∨
      task.passKind ≠ plan.passKind ∨
      task.passId ≠ env.passId plan.manifest plan.passKind)
    "scheduler task differs from its pass identity"
  raiseIf (plan.tasks.any fun task =>
      task.scope.shardIds.any fun shardId => shardId ∉ plan.manifest.shards.map (·.shardId))
    "scheduler task scope contains an unknown shard"
  raiseIf (plan.tasks.any (·.taskKind = .emptyCompletion) ∧
      (plan.tasks.map isAbsenceTask ≠ [true] ∨ plan.conditionalAbsence.isNone))
    "explicit empty pass requires its sole typed absence task"
  raiseIf (¬ plan.tasks.any (·.taskKind = .emptyCompletion) ∧ plan.conditionalAbsence.isSome)
    "scheduler conditional absence requires an explicit empty task"
  raiseIf (decide plan.passKind.IsCandidatePass ≠ plan.candidateWorkset.isSome)
    "scheduler passes five and six require an exact candidate workset"
  plan.candidateWorkset.forM (validateWorkset plan)
  plan.conditionalAbsence.forM (env.validateAbsence plan)
  raiseIf (plan.passKind = .orientation ∧ (plan.tasks.map fun task =>
      decide (task.scope.kind = .global ∧ task.taskKind = .modelRequest ∧
        task.role = "threat_model")) ≠ [true])
    "orientation requires exactly one global threat-model request"
  (if plan.passKind = .blindShardReview then validateBlindPortfolio plan else .ok ())

end Plans

/-! ## Activations, outputs and attempts -/

/-- The arguments of `activate_task`. -/
structure ActivationMaterial (Sha : Type) where
  actualInputSha256 : Sha
  systemPromptSha256 : Option Sha
  userPromptSha256 : Option Sha
  providerPromptSha256 : Option Sha
  responseSchemaSha256 : Option Sha
  deliveredSourceDescriptorSha256s : List Sha
  upstreamTaskResultSha256s : List Sha

section Evidence

variable (env : Environment Sha Payload)

/-- Reject an activation that is detached from its plan, task or task kind. -/
def requireExactTask (activation : TaskActivation Sha) (plan : PassPlan Sha)
    (task : TaskPlan Sha) : Except String Unit := do
  raiseIf (¬ env.HasExactTask plan task ∨
      activation.campaignId ≠ plan.manifest.campaignId ∨
      activation.manifestSha256 ≠ plan.manifest.manifestSha256 ∨
      activation.passPlanId ≠ env.passPlanIdentity plan ∨
      activation.passPlanSha256 ≠ env.passPlan plan ∨
      activation.taskId ≠ env.taskId task ∨
      activation.taskPlanSha256 ≠ env.taskPlan task ∨
      activation.logicalRequestId ≠ env.logicalRequestId task ∨
      activation.priorPassResultSha256s ≠ plan.dependencies.map (·.passResultSha256))
    "scheduler activation differs from its exact planned task"
  raiseIf (decide (task.taskKind = .modelRequest) ≠ activation.userPromptSha256.isSome)
    "scheduler activation provider hashes differ from task authority"
  raiseIf (task.taskKind = .modelRequest ∧
      (activation.responseSchemaSha256 ≠ some task.responseSchemaSha256 ∨
        activation.systemPromptSha256 ≠ task.systemPromptSha256))
    "scheduler activation provider material differs from its plan"
  raiseIf (¬ activation.deliveredSourceDescriptorSha256s ⊆ knownSourceDescriptors plan)
    "scheduler activation claims an unknown delivered source"
  raiseIf (task.taskKind ≠ .modelRequest ∧ activation.deliveredSourceDescriptorSha256s ≠ [])
    "host scheduler activation cannot claim model source delivery"
  raiseIf (task.passKind = .blindShardReview ∧
      (task.role = "source_audit" ∨ isWholeProtocolReviewRole task.role) ∧
      ¬ (activation.deliveredSourceDescriptorSha256s ⊆ taskSourceDescriptors plan task ∧
        taskSourceDescriptors plan task ⊆ activation.deliveredSourceDescriptorSha256s))
    "blind review activation lacks exact full-source delivery"

def buildActivation (plan : PassPlan Sha) (task : TaskPlan Sha)
    (material : ActivationMaterial Sha) : Except String (TaskActivation Sha) := do
  raiseIf (¬ env.HasExactTask plan task) "scheduler activation task is not in the sealed pass plan"
  let activation : TaskActivation Sha := {
    campaignId := plan.manifest.campaignId
    manifestSha256 := plan.manifest.manifestSha256
    passPlanId := env.passPlanIdentity plan
    passPlanSha256 := env.passPlan plan
    taskId := env.taskId task
    taskPlanSha256 := env.taskPlan task
    logicalRequestId := env.logicalRequestId task
    actualInputSha256 := material.actualInputSha256
    systemPromptSha256 := material.systemPromptSha256
    userPromptSha256 := material.userPromptSha256
    providerPromptSha256 := material.providerPromptSha256
    responseSchemaSha256 := material.responseSchemaSha256
    deliveredSourceDescriptorSha256s := sortedSet material.deliveredSourceDescriptorSha256s
    priorPassResultSha256s := plan.dependencies.map (·.passResultSha256)
    upstreamTaskResultSha256s := sortedSet material.upstreamTaskResultSha256s }
  let present := [activation.systemPromptSha256, activation.userPromptSha256,
    activation.providerPromptSha256, activation.responseSchemaSha256].map Option.isSome
  raiseIf (¬ (present.all (· = true) ∨ present.all (· = false)))
    "scheduler activation provider hashes are all-or-none"
  env.requireExactTask activation plan task
  .ok activation

def requireExactActivation (output : TaskOutput Sha Payload) (activation : TaskActivation Sha) :
    Except String Unit :=
  raiseIf (output.campaignId ≠ activation.campaignId ∨
      output.passPlanId ≠ activation.passPlanId ∨
      output.taskId ≠ activation.taskId ∨
      output.logicalRequestId ≠ activation.logicalRequestId ∨
      output.activationId ≠ env.activationIdentity activation ∨
      output.activationSha256 ≠ env.activation activation)
    "scheduler output differs from its exact task activation"

/-- The host roles whose output has a type. -/
def hostOutputRoles : List String :=
  ["host:finding_reducer", "host:cross_shard_integrator", "host:reproduction",
    "host:evidence_cap_judgment"]

/-- The checks on a normalized output that do not look into its payload. -/
def checkOutputContent (plan : PassPlan Sha) (task : TaskPlan Sha)
    (content : OutputContent Sha Payload) : Except String Unit := do
  raiseIf (task.taskKind = .hostComputation ∧ task.role ∉ hostOutputRoles)
    ("scheduler host role " ++ task.role ++ " lacks a typed output contract")
  raiseIf (requiresSpecialistAcceptedOutcome task.role ≠
      content.specialistAcceptedOutcomeSha256.isSome)
    "scheduler specialist success requires one exact host-accepted outcome"
  raiseIf (task.taskKind = .modelRequest ∧ task.passKind = .blindShardReview ∧
      (task.role = "source_audit" ∨ isWholeProtocolReviewRole task.role) ∧
      ¬ (content.reviewedSourceDescriptorSha256s ⊆ taskSourceDescriptors plan task ∧
        taskSourceDescriptors plan task ⊆ content.reviewedSourceDescriptorSha256s))
    "blind source review did not substantively cover every scoped source"

def buildOutput (plan : PassPlan Sha) (task : TaskPlan Sha) (activation : TaskActivation Sha)
    (arguments : OutputArguments Sha Payload) : Except String (TaskOutput Sha Payload) := do
  env.requireExactTask activation plan task
  let content ← env.normalizeOutput plan task activation arguments
  checkOutputContent plan task content
  .ok {
    campaignId := plan.manifest.campaignId
    passPlanId := env.passPlanIdentity plan
    taskId := env.taskId task
    logicalRequestId := env.logicalRequestId task
    activationId := env.activationIdentity activation
    activationSha256 := env.activation activation
    content := content }

/-- The context evidence that the usage record of an attempt carries. -/
def attemptContext (usage : UsageRecord Sha) : Except String (ContextRequestEvidence Sha) :=
  match usage.contextRequestEvidence with
  | some context => .ok context
  | none => .error "scheduler provider attempt lacks context request evidence"

def buildProviderAttempt (task : TaskPlan Sha) (activation : TaskActivation Sha)
    (usage : UsageRecord Sha) : Except String (ProviderAttemptEvidence Sha) := do
  raiseIf (task.taskKind ≠ .modelRequest)
    "scheduler provider-attempt evidence requires a model task"
  let context ← attemptContext usage
  raiseIf (usage.requestId ≠ env.logicalRequestId task ∨
      usage.role ≠ task.role ∨
      usage.requestedModel ≠ task.requestedModel ∨
      usage.promptSha256 ≠ activation.providerPromptSha256 ∨
      usage.userPromptSha256 ≠ activation.userPromptSha256 ∨
      usage.schemaSha256 ≠ activation.responseSchemaSha256 ∨
      usage.accountedCostUsdExact.isNone ∨
      usage.startedAt.isNone ∨ usage.endedAt.isNone ∨ usage.latencyMs.isNone ∨
      usage.retryCount + 1 ≠ usage.attempts ∨
      context.requestId ≠ env.logicalRequestId task ∨
      context.requestRole ≠ task.role ∨
      usage.contextRequestEvidenceSha256 ≠ some context.evidenceSha256)
    "scheduler provider attempt is not exact non-creditable evidence"
  raiseIf (¬ env.isStructurallyAccountable usage)
    "scheduler provider-attempt evidence is inconsistent"
  .ok {
    taskId := env.taskId task
    logicalRequestId := env.logicalRequestId task
    activationSha256 := env.activation activation
    deliveredSourceDescriptorSha256s := activation.deliveredSourceDescriptorSha256s
    usageRecord := usage
    contextRequestEvidence := context
    responseSchemaSha256 := activation.responseSchemaSha256 }

end Evidence

/-! ## Results -/

section Results

variable (env : Environment Sha Payload)

/-- Whether success of a task requires a decision on each of its candidates. -/
def requiresCandidateCredit (task : TaskPlan Sha) : Bool :=
  (task.passKind = .crossShardIntegration ∧ task.role = "business_logic") ∨
    task.passKind = .adversarialCrossExamination ∨
    ((task.passKind = .multiLineageValidationFalsification ∨
        task.passKind = .evidenceCappedJudgment) ∧ isCandidateDecisionRole task.role) ∨
    (task.passKind = .evidenceCappedJudgment ∧ task.role = "judge")

def completionReference (completion : ModelCompletionEvidence Sha) : CompletionReference Sha where
  modelCompletionEvidenceSha256 := completion.completionEvidenceSha256
  usageRecordSha256 := completion.usageRecordSha256
  contextRequestEvidenceSha256 := completion.contextRequestEvidenceSha256
  providerResponseSha256 := completion.providerResponseSha256
  validatedResponseSha256 := completion.validatedResponseSha256
  normalizerSha256 := completion.normalizerSha256

def outputReference (output : TaskOutput Sha Payload) : OutputReference Sha where
  outputSha256 := env.payload output.content.payload
  outputArtifactSha256 := env.output output
  completion := output.content.modelCompletionEvidence.map completionReference
  specialistAcceptedOutcomeSha256 := output.content.specialistAcceptedOutcomeSha256
  surfaceReview := output.content.surfaceReview
  reviewedSourceDescriptorSha256s := output.content.reviewedSourceDescriptorSha256s
  reviewedCandidateIds := output.content.reviewedCandidateIds

/-- The checks on the shape of a result. -/
def validateTaskResult (result : TaskResult Sha) : Except String Unit := do
  raiseIf (result.resultOrigin = .activated ∧ result.activation.isNone)
    "activated scheduler result requires exact activation evidence"
  raiseIf (result.resultOrigin = .localPreflight ∧ (result.activation.isSome ∨
      result.output.isSome ∨ ¬ result.terminalStatus.IsPreflight))
    "local preflight scheduler result must be a no-output failure"
  raiseIf (result.terminalStatus = .succeeded ∧ result.output.isNone)
    "successful scheduler result requires exact output evidence"
  raiseIf (result.terminalStatus ≠ .succeeded ∧ result.output.isSome)
    "non-success scheduler result cannot claim creditable output"
  raiseIf (result.output.any fun output =>
      output.specialistAcceptedOutcomeSha256.isSome ∧ output.completion.isNone)
    "scheduler specialist outcome requires successful provider evidence"
  raiseIf (result.output.any fun output => output.surfaceReview.any (·.requestCount = 0))
    "scheduler surface-review count differs from its hash custody"
  raiseIf (result.output.any fun output =>
      output.surfaceReview.isSome ∧ output.completion.isNone)
    "scheduler surface-review custody requires successful model evidence"

def buildResult (plan : PassPlan Sha) (task : TaskPlan Sha) (origin : ResultOrigin)
    (activation : Option (TaskActivation Sha)) (status : TerminalStatus) (evidence : Sha)
    (output : Option (TaskOutput Sha Payload)) : Except String (TaskResult Sha) := do
  raiseIf (¬ env.HasExactTask plan task) "scheduler result task is not in the sealed pass plan"
  let result : TaskResult Sha := {
    campaignId := plan.manifest.campaignId
    manifestSha256 := plan.manifest.manifestSha256
    passKind := plan.passKind
    passId := env.passId plan.manifest plan.passKind
    passPlanId := env.passPlanIdentity plan
    passPlanSha256 := env.passPlan plan
    taskId := env.taskId task
    taskPlanSha256 := env.taskPlan task
    logicalRequestId := env.logicalRequestId task
    scope := task.scope
    resultOrigin := origin
    activation := activation.map env.activationReference
    terminalStatus := status
    output := output.map env.outputReference
    terminalEvidenceSha256 := evidence }
  validateTaskResult result
  .ok result

/-- The checks that a successful task makes on its output. -/
def checkSuccess (task : TaskPlan Sha) (evidence : Sha)
    (output : Option (TaskOutput Sha Payload)) : Except String Unit :=
  match output.bind (·.content.modelCompletionEvidence) with
  | none => raiseIf (task.taskKind = .modelRequest)
      "successful model task lacks provider completion evidence"
  | some completion => do
      raiseIf (task.taskKind ≠ .modelRequest)
        "successful host task cannot claim model completion evidence"
      raiseIf (evidence ≠ completion.validatedResponseSha256)
        "successful model terminal evidence differs from validated response"
      raiseIf (requiresCandidateCredit task ∧
          output.map (·.content.reviewedCandidateIds) ≠ some task.candidateIds)
        "successful model task omitted planned candidate decisions"

/-- The result of an activated task. -/
def buildTaskResult (plan : PassPlan Sha) (task : TaskPlan Sha) (activation : TaskActivation Sha)
    (status : TerminalStatus) (evidence : Sha) (output : Option (TaskOutput Sha Payload)) :
    Except String (TaskResult Sha) := do
  env.requireExactTask activation plan task
  output.forM (env.requireExactActivation · activation)
  (if status = .succeeded then checkSuccess task evidence output else .ok ())
  env.buildResult plan task .activated (some activation) status evidence output

/-- The result of a task that was never activated. -/
def buildPreflightFailure (plan : PassPlan Sha) (task : TaskPlan Sha) (status : TerminalStatus)
    (evidence : Sha) : Except String (TaskResult Sha) := do
  raiseIf (¬ status.IsPreflight) "scheduler preflight result must fail closed"
  env.buildResult plan task .localPreflight none status evidence none

end Results

/-! ## Events -/

section Events

variable (env : Environment Sha Payload)

def expectedTaskIndex : EventKind → ℕ
  | .planned => 0
  | .activated => 1
  | .dispatched => 2
  | .terminal => 3
  | .preflightTerminal => 1
  | .activatedPreflightTerminal => 2

/-- The kind that the previous event of the task must have. -/
def expectedPriorKind : EventKind → Option EventKind
  | .planned => none
  | .activated => some .planned
  | .dispatched => some .activated
  | .terminal => some .dispatched
  | .preflightTerminal => some .planned
  | .activatedPreflightTerminal => some .activated

/-- A result of the activation of a task in a plan. -/
def IsResultOf (result : TaskResult Sha) (plan : PassPlan Sha) (task : TaskPlan Sha)
    (activation : TaskActivation Sha) : Prop :=
  result.resultOrigin = .activated ∧
    result.passPlanId = env.passPlanIdentity plan ∧
    result.taskId = env.taskId task ∧
    result.logicalRequestId = env.logicalRequestId task ∧
    result.activation = some (env.activationReference activation)

instance (result : TaskResult Sha) (plan : PassPlan Sha) (task : TaskPlan Sha)
    (activation : TaskActivation Sha) : Decidable (env.IsResultOf result plan task activation) :=
  inferInstanceAs (Decidable (_ ∧ _ ∧ _ ∧ _ ∧ _))

/-- The checks on what an event after the first of its task refers to. -/
def checkLifecycleEvidence (plan : PassPlan Sha) (task : TaskPlan Sha) (kind : EventKind)
    (requestId : Option Sha) (activation : Option (TaskActivation Sha))
    (result : Option (TaskResult Sha)) : Except String Unit :=
  match kind, activation with
  | .preflightTerminal, activation =>
      raiseIf (activation.isSome ∨ requestId.isSome ∨
          ¬ result.any (fun result => decide (result.resultOrigin = .localPreflight)))
        "preflight terminal event requires an unactivated failure"
  | _, none => .error "scheduler lifecycle event requires exact activation"
  | .activated, some activation => do
      env.requireExactTask activation plan task
      raiseIf (requestId.isSome ∨ result.isSome)
        "activated scheduler event cannot dispatch or terminate"
  | .activatedPreflightTerminal, some activation => do
      env.requireExactTask activation plan task
      raiseIf (requestId.isSome ∨ ¬ result.any fun result =>
          result.terminalStatus.IsActivatedPreflight ∧ env.IsResultOf result plan task activation)
        "activated preflight terminal event requires its exact undispatched failure"
  | kind, some activation => do
      env.requireExactTask activation plan task
      raiseIf (requestId ≠ some (env.logicalRequestId task))
        "scheduler dispatched request ID must equal stable identity"
      raiseIf (kind = .dispatched ∧ result.isSome)
        "dispatched scheduler event cannot contain terminal result"
      raiseIf (kind = .terminal ∧
          ¬ result.any fun result => env.IsResultOf result plan task activation)
        "terminal scheduler event requires its activated task result"

/-- The checks on the previous event of the task. -/
def checkPriorTaskEvent (plan : PassPlan Sha) (task : TaskPlan Sha) (kind : EventKind)
    (prior : Option (TaskEvent Sha)) : Except String Unit :=
  raiseIf (¬ prior.any fun prior =>
      some prior.kind = expectedPriorKind kind ∧
      prior.taskEventIndex + 1 = expectedTaskIndex kind ∧
      prior.campaignId = plan.manifest.campaignId ∧
      prior.passPlanId = env.passPlanIdentity plan ∧
      prior.passPlanSha256 = env.passPlan plan ∧
      prior.taskId = env.taskId task ∧
      prior.logicalRequestId = env.logicalRequestId task)
    "scheduler event does not extend the exact prior task event"

/-- The arguments of `SchedulerTaskEvent.build` that vary with the event. -/
structure EventMaterial (Sha : Type) where
  kind : EventKind
  eventIndex : ℕ
  previousEvent : Option (TaskEvent Sha)
  priorTaskEvent : Option (TaskEvent Sha)
  activation : Option (TaskActivation Sha)
  requestId : Option Sha
  result : Option (TaskResult Sha)

/-- The largest event index. -/
def maxEventIndex : ℕ := 10000000

def taskEvent (plan : PassPlan Sha) (task : TaskPlan Sha) (material : EventMaterial Sha) :
    TaskEvent Sha where
  campaignId := plan.manifest.campaignId
  passPlanId := env.passPlanIdentity plan
  passPlanSha256 := env.passPlan plan
  taskId := env.taskId task
  logicalRequestId := env.logicalRequestId task
  kind := material.kind
  eventIndex := material.eventIndex
  taskEventIndex := expectedTaskIndex material.kind
  previousEventSha256 := material.previousEvent.map env.event
  priorTaskEventSha256 := material.priorTaskEvent.map env.event
  activation := material.activation.map env.activationReference
  requestId := material.requestId
  taskResultSha256 := material.result.map env.result

def buildEvent (plan : PassPlan Sha) (task : TaskPlan Sha) (material : EventMaterial Sha) :
    Except String (TaskEvent Sha) := do
  raiseIf (¬ env.HasExactTask plan task) "scheduler event task is not in the sealed pass plan"
  raiseIf (material.eventIndex = 0 ∧ material.previousEvent.isSome)
    "first scheduler event cannot have global predecessor evidence"
  raiseIf (material.eventIndex ≠ 0 ∧ ¬ material.previousEvent.any fun previous =>
      previous.eventIndex + 1 = material.eventIndex ∧
      previous.campaignId = plan.manifest.campaignId)
    "scheduler event does not extend the global event chain"
  (if material.kind = .planned then
    raiseIf (material.priorTaskEvent.isSome ∨ material.activation.isSome ∨
        material.requestId.isSome ∨ material.result.isSome)
      "planned scheduler event cannot have activation, request, or result"
  else do
    env.checkPriorTaskEvent plan task material.kind material.priorTaskEvent
    env.checkLifecycleEvidence plan task material.kind material.requestId material.activation
      material.result
    raiseIf (material.result.any fun result =>
        result.passPlanId ≠ env.passPlanIdentity plan ∨ result.taskId ≠ env.taskId task ∨
          result.logicalRequestId ≠ env.logicalRequestId task)
      "terminal scheduler event result differs from its task")
  raiseIf (maxEventIndex < material.eventIndex) "scheduler event index exceeds its bound"
  .ok (env.taskEvent plan task material)

end Events

/-! ## Pass results and worksets -/

section Passes

variable (env : Environment Sha Payload)

/-- The status of a pass, derived from the outcomes of its tasks. -/
def derivedPassStatus (results : List (TaskResult Sha)) : PassStatus :=
  let statuses := results.map (·.terminalStatus)
  if statuses.all fun status => status = .succeeded ∨ status = .explicitEmpty then
    .complete
  else if statuses.any fun status => status = .failed ∨ status = .invalid ∨ status = .unbound then
    .failed
  else if .inconclusive ∈ statuses then
    .inconclusive
  else
    .incomplete

/-- A result that carries the planned identity of a task. -/
def checkPlannedResult (plan : PassPlan Sha) (task : TaskPlan Sha) (result : TaskResult Sha) :
    Except String Unit := do
  let succeeded := result.terminalStatus = .succeeded
  let reviewed := (result.output.map (·.reviewedCandidateIds)).getD []
  raiseIf (result.campaignId ≠ plan.manifest.campaignId ∨
      result.manifestSha256 ≠ plan.manifest.manifestSha256 ∨
      result.passKind ≠ plan.passKind ∨
      result.passId ≠ env.passId plan.manifest plan.passKind ∨
      result.passPlanId ≠ env.passPlanIdentity plan ∨
      result.passPlanSha256 ≠ env.passPlan plan ∨
      result.taskPlanSha256 ≠ env.taskPlan task ∨
      result.logicalRequestId ≠ env.logicalRequestId task ∨
      result.scope ≠ task.scope)
    "scheduler task result differs from its exact planned identity"
  raiseIf (decide (task.taskKind = .emptyCompletion) ≠
      decide (result.terminalStatus = .explicitEmpty))
    "scheduler empty completion task/result status is inconsistent"
  raiseIf (task.taskKind = .modelRequest ∧ succeeded ∧
      (result.output.bind (·.completion)).isNone)
    "successful scheduler model result lacks provider evidence"
  raiseIf (succeeded ∧ requiresSpecialistAcceptedOutcome task.role ≠
      (result.output.bind (·.specialistAcceptedOutcomeSha256)).isSome)
    "scheduler specialist result differs from its host-accepted outcome"
  raiseIf (plan.passKind = .adversarialCrossExamination ∧ task.taskKind = .modelRequest ∧
      succeeded ∧ reviewed ≠ task.candidateIds)
    "pass-five result omitted an exact candidate review"
  raiseIf (plan.passKind = .multiLineageValidationFalsification ∧
      isCandidateDecisionRole task.role ∧ succeeded ∧ reviewed ≠ task.candidateIds)
    "pass-six result omitted an exact candidate decision"
  raiseIf (plan.passKind = .evidenceCappedJudgment ∧ task.role = "judge" ∧ succeeded ∧
      reviewed ≠ task.candidateIds)
    "judge result omitted an exact candidate-group decision"

/-- The source-audit results of a pass with the tasks they belong to. -/
def auditResults (result : PassResult Sha) : List (TaskPlan Sha × TaskResult Sha) :=
  (result.plan.tasks.zip result.taskResults).filter fun pair => pair.1.role = "source_audit"

def reviewedSources (result : TaskResult Sha) : List Sha :=
  (result.output.map (·.reviewedSourceDescriptorSha256s)).getD []

/-- A complete blind pass has reviewed every audited source. -/
def checkBlindCoverage (result : PassResult Sha) : Except String Unit := do
  raiseIf ((auditResults result).any fun pair =>
      ¬ (reviewedSources pair.2 ⊆ taskSourceDescriptors result.plan pair.1 ∧
        taskSourceDescriptors result.plan pair.1 ⊆ reviewedSources pair.2))
    "blind source-audit result lacks exact substantive source coverage"
  let observed := (auditResults result).flatMap fun pair => reviewedSources pair.2
  raiseIf (¬ (observed ⊆ knownSourceDescriptors result.plan ∧
      knownSourceDescriptors result.plan ⊆ observed))
    "blind pass did not review every exact audited source"

def validatePassResult (result : PassResult Sha) : Except String Unit := do
  raiseIf (result.taskResults = []) "scheduler pass result requires task results"
  raiseIf (¬ (result.taskResults.map (·.taskId)).Pairwise (· < ·))
    "scheduler pass results must be unique and sorted"
  raiseIf (result.taskResults.map (·.taskId) ≠ result.plan.tasks.map env.taskId)
    "scheduler pass result set differs from its exact task plan"
  (result.plan.tasks.zip result.taskResults).forM fun pair =>
    env.checkPlannedResult result.plan pair.1 pair.2
  raiseIf (result.status ≠ derivedPassStatus result.taskResults)
    "scheduler pass status is not derived from terminal task evidence"
  (if result.status = .complete ∧ result.plan.passKind = .blindShardReview then
    checkBlindCoverage result
  else .ok ())

def buildPassResult (plan : PassPlan Sha) (results : List (TaskResult Sha)) :
    Except String (PassResult Sha) := do
  let canonical := results.insertionSort fun first second => first.taskId ≤ second.taskId
  let result : PassResult Sha := {
    plan := plan
    taskResults := canonical
    status := derivedPassStatus canonical }
  env.validatePassPlan plan
  env.validatePassResult result
  .ok result

/-- The workset of a pass that the output of a pass-four task determines. -/
def buildWorkset (kind : PassKind) (sourcePass : PassResult Sha) (sourceResult : TaskResult Sha)
    (sourceOutput : TaskOutput Sha Payload) : Except String (CandidateWorkset Sha) := do
  raiseIf (¬ kind.IsCandidatePass)
    "scheduler candidate workset is only valid for passes five and six"
  raiseIf (sourceResult.passKind ≠ .crossShardIntegration ∨
      sourcePass.plan.passKind ≠ .crossShardIntegration ∨
      sourceResult ∉ sourcePass.taskResults ∨
      sourcePass.status ≠ .complete ∨
      sourceResult.terminalStatus ≠ .succeeded ∨
      sourceResult.taskId ≠ sourceOutput.taskId ∨
      sourceResult.output.map (·.outputArtifactSha256) ≠ some (env.output sourceOutput) ∨
      sourceResult.output.map (·.outputSha256) ≠ some (env.payload sourceOutput.content.payload))
    "scheduler candidate workset lacks exact successful pass-four output"
  let inventory ← env.candidateInventory sourceOutput.content.payload
  raiseIf (inventory.candidatePayloadBindings.map Prod.fst ≠ inventory.candidateIds)
    "scheduler candidate payload hashes differ from pass-four inventory"
  raiseIf (¬ (inventory.highCriticalCandidateIds ⊆ inventory.candidateIds ∧
      inventory.validationCandidateIds ⊆ inventory.candidateIds))
    "scheduler candidate subsets exceed the exact pass-four inventory"
  .ok {
    passKind := kind
    sourcePassResultSha256 := env.passResult sourcePass
    sourceTaskId := sourceResult.taskId
    sourceResultSha256 := env.result sourceResult
    sourceOutputArtifactSha256 := env.output sourceOutput
    inventory := inventory
    selectedCandidateIds :=
      if kind = .adversarialCrossExamination then inventory.highCriticalCandidateIds
      else inventory.validationCandidateIds }

/-- The checks of the campaign summary. -/
def validateSummary (manifest : CampaignManifest Sha) (passResults : List (PassResult Sha)) :
    Except String Unit := do
  raiseIf (passResults.map (·.plan.passKind) ≠ passOrder.take passResults.length)
    "scheduler summary results must be an exact contiguous pass prefix"
  raiseIf (passResults.any fun result => result.plan.manifest ≠ manifest)
    "scheduler pass result belongs to a different campaign"
  raiseIf ((List.range passResults.length).any fun ordinal =>
      (passResults[ordinal]?).map (·.plan.dependencies) ≠
        some ((passResults.take ordinal).map env.fromResult))
    "scheduler pass does not bind the exact prior result artifacts"
  raiseIf (passResults.dropLast.any fun result => result.status ≠ .complete)
    "scheduler cannot execute a later pass after incomplete evidence"
  let tasks := passResults.flatMap (·.plan.tasks)
  raiseIf (¬ (tasks.map env.taskId).Nodup) "scheduler campaign reuses a task identity"
  raiseIf (¬ (tasks.map env.logicalRequestId).Nodup)
    "scheduler campaign reuses a logical request identity"
  raiseIf (¬ ((passResults.flatMap (·.taskResults)).map env.resultId).Nodup)
    "scheduler campaign reuses a task result identity"

end Passes

end Environment

end Scheduler

end MmAudit
