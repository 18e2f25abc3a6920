import MmAudit.Library.Decimal
import MmAudit.Library.Fallible

/-!
# The records of the scheduler journal

A campaign runs seven passes.  Each pass is planned as a list of tasks, and every
task leaves durable records: its activation, its output or a provider attempt,
its results and its lifecycle events.  This module has the records themselves.

A record of the source carries its own digests beside its other fields, and is
only accepted when they match.  Here a record holds the other fields, and its own
digests are functions of it; digests of other records are fields.
-/

namespace MmAudit

namespace Scheduler

/-! ## Enumerations -/

/-- The mandatory passes, in order. -/
inductive PassKind
  | orientation
  | blindShardReview
  | findingReduction
  | crossShardIntegration
  | adversarialCrossExamination
  | multiLineageValidationFalsification
  | evidenceCappedJudgment
deriving DecidableEq, Repr

def passOrder : List PassKind :=
  [.orientation, .blindShardReview, .findingReduction, .crossShardIntegration,
    .adversarialCrossExamination, .multiLineageValidationFalsification, .evidenceCappedJudgment]

/-- The passes before a pass. -/
def PassKind.preceding (kind : PassKind) : List PassKind :=
  passOrder.takeWhile (· ≠ kind)

/-- The two passes that work on candidates of the fourth. -/
def PassKind.IsCandidatePass (kind : PassKind) : Prop :=
  kind = .adversarialCrossExamination ∨ kind = .multiLineageValidationFalsification

instance (kind : PassKind) : Decidable kind.IsCandidatePass :=
  inferInstanceAs (Decidable (_ ∨ _))

inductive ScopeKind
  | global
  | singleShard
  | shardSet
deriving DecidableEq, Repr

inductive TaskKind
  | modelRequest
  | hostComputation
  | emptyCompletion
deriving DecidableEq, Repr

/-- The terminal outcomes; only the first two satisfy a mandatory task. -/
inductive TerminalStatus
  | succeeded
  | explicitEmpty
  | failed
  | truncated
  | invalid
  | unbound
  | inconclusive
  | uncertain
deriving DecidableEq, Repr

/-- The outcomes that a task may have after its activation and before its
dispatch. -/
def TerminalStatus.IsActivatedPreflight (status : TerminalStatus) : Prop :=
  status = .failed ∨ status = .truncated ∨ status = .invalid ∨ status = .unbound ∨
    status = .inconclusive

instance (status : TerminalStatus) : Decidable status.IsActivatedPreflight :=
  inferInstanceAs (Decidable (_ ∨ _ ∨ _ ∨ _ ∨ _))

/-- The outcomes that a task may have before its activation. -/
def TerminalStatus.IsPreflight (status : TerminalStatus) : Prop :=
  status = .failed ∨ status = .invalid ∨ status = .unbound ∨ status = .inconclusive

instance (status : TerminalStatus) : Decidable status.IsPreflight :=
  inferInstanceAs (Decidable (_ ∨ _ ∨ _ ∨ _))

inductive PassStatus
  | complete
  | failed
  | inconclusive
  | incomplete
deriving DecidableEq, Repr

inductive EventKind
  | planned
  | activated
  | dispatched
  | terminal
  | preflightTerminal
  | activatedPreflightTerminal
deriving DecidableEq, Repr

/-- The events that select a result for a task. -/
def EventKind.IsTerminal (kind : EventKind) : Prop :=
  kind = .terminal ∨ kind = .preflightTerminal ∨ kind = .activatedPreflightTerminal

instance (kind : EventKind) : Decidable kind.IsTerminal :=
  inferInstanceAs (Decidable (_ ∨ _ ∨ _))

/-- Whether a result follows an activation or a local abort before it. -/
inductive ResultOrigin
  | activated
  | localPreflight
deriving DecidableEq, Repr

/-! ## Plans -/

structure Scope where
  kind : ScopeKind
  shardIds : List String
deriving DecidableEq

/-- One shard with the digests of its source descriptors. -/
structure Shard (Sha : Type) where
  shardId : String
  sources : List Sha
deriving DecidableEq

/-- The campaign root.  Of the bindings only the two digests that the journal
compares are kept. -/
structure CampaignManifest (Sha : Type) where
  campaignId : Sha
  manifestSha256 : Sha
  analysisInputSha256 : Sha
  boundPrivacyCustodySha256 : Sha
  privacyEvidenceCustody : Option Sha
  shards : List (Shard Sha)
deriving DecidableEq

structure TaskPlan (Sha : Type) where
  campaignId : Sha
  manifestSha256 : Sha
  passKind : PassKind
  passId : Sha
  scope : Scope
  taskKind : TaskKind
  taskKey : String
  role : String
  requestedModel : Option String
  rootLineage : Option String
  candidateIds : List String
  inputSha256 : Sha
  promptSha256 : Sha
  systemPromptSha256 : Option Sha
  normalizerSha256 : Option Sha
  responseSchemaSha256 : Sha
deriving DecidableEq

/-- One prior pass artifact that a later pass requires. -/
structure PassDependency (Sha : Type) where
  passKind : PassKind
  passId : Sha
  passResultSha256 : Sha
deriving DecidableEq

/-- The candidates that the fourth pass reports. -/
structure CandidateInventory (Sha : Type) where
  candidateIds : List String
  candidatePayloadBindings : List (String × Sha)
  highCriticalCandidateIds : List String
  validationCandidateIds : List String
deriving DecidableEq

/-- A candidate inventory together with the records it was projected from. -/
structure CandidateWorkset (Sha : Type) where
  passKind : PassKind
  sourcePassResultSha256 : Sha
  sourceTaskId : Sha
  sourceResultSha256 : Sha
  sourceOutputArtifactSha256 : Sha
  inventory : CandidateInventory Sha
  selectedCandidateIds : List String
deriving DecidableEq

/-- The predicate that justifies an explicitly empty pass. -/
structure ConditionalAbsence (Sha : Type) where
  passKind : PassKind
  candidateWorksetSha256 : Sha
  sourcePassResultSha256 : Sha
  sourceOutputArtifactSha256 : Sha
deriving DecidableEq

structure PassPlan (Sha : Type) where
  manifest : CampaignManifest Sha
  passKind : PassKind
  dependencies : List (PassDependency Sha)
  tasks : List (TaskPlan Sha)
  candidateWorkset : Option (CandidateWorkset Sha)
  conditionalAbsence : Option (ConditionalAbsence Sha)
deriving DecidableEq

/-! ## Evidence of one task -/

/-- The request material that is committed before dispatch. -/
structure TaskActivation (Sha : Type) where
  campaignId : Sha
  manifestSha256 : Sha
  passPlanId : Sha
  passPlanSha256 : Sha
  taskId : Sha
  taskPlanSha256 : Sha
  logicalRequestId : Sha
  actualInputSha256 : Sha
  systemPromptSha256 : Option Sha
  userPromptSha256 : Option Sha
  providerPromptSha256 : Option Sha
  responseSchemaSha256 : Option Sha
  deliveredSourceDescriptorSha256s : List Sha
  priorPassResultSha256s : List Sha
  upstreamTaskResultSha256s : List Sha
deriving DecidableEq

structure ContextRequestEvidence (Sha : Type) where
  requestId : Sha
  requestRole : String
  evidenceSha256 : Sha
deriving DecidableEq

/-- What the provider client reports about one logical request. -/
structure UsageRecord (Sha : Type) where
  requestId : Sha
  role : String
  requestedModel : Option String
  promptSha256 : Option Sha
  userPromptSha256 : Option Sha
  schemaSha256 : Option Sha
  responseSha256 : Option Sha
  validatedResponseSha256 : Option Sha
  contextRequestEvidence : Option (ContextRequestEvidence Sha)
  contextRequestEvidenceSha256 : Option Sha
  attempts : ℕ
  retryCount : ℕ
  accountedCostUsdExact : Option Decimal
  reportedCostUsdExact : Option Decimal
  promptTokens : ℕ
  completionTokens : ℕ
  startedAt : Option ℕ
  endedAt : Option ℕ
  latencyMs : Option ℕ
deriving DecidableEq

structure ModelCompletionEvidence (Sha : Type) where
  usageRecord : UsageRecord Sha
  usageRecordSha256 : Sha
  contextRequestEvidenceSha256 : Sha
  providerResponseSha256 : Sha
  validatedResponseSha256 : Sha
  normalizerSha256 : Sha
  completionEvidenceSha256 : Sha
deriving DecidableEq

/-- Custody of a model-surface review: its artifact, the requested manifest and
the number of requests. -/
structure SurfaceReview (Sha : Type) where
  artifactSha256 : Sha
  requestedSurfaceManifestSha256 : Sha
  requestCount : ℕ
deriving DecidableEq

/-- The arguments of `persist_output`. -/
structure OutputArguments (Sha Payload : Type) where
  payload : Payload
  usageRecord : Option (UsageRecord Sha)
  specialistAcceptedOutcomeSha256 : Option Sha
  surfaceReview : Option (SurfaceReview Sha)
  acceptedCandidates : List Sha
  normalizerSha256 : Option Sha
deriving DecidableEq

/-- A normalized task output. -/
structure OutputContent (Sha Payload : Type) where
  modelCompletionEvidence : Option (ModelCompletionEvidence Sha)
  specialistAcceptedOutcomeSha256 : Option Sha
  surfaceReview : Option (SurfaceReview Sha)
  reviewedSourceDescriptorSha256s : List Sha
  reviewedCandidateIds : List String
  acceptedCandidates : List Sha
  payload : Payload
deriving DecidableEq

/-- The arguments that the loader reads back from a retained output. -/
def OutputContent.arguments {Sha Payload : Type} (content : OutputContent Sha Payload) :
    OutputArguments Sha Payload where
  payload := content.payload
  usageRecord := content.modelCompletionEvidence.map (·.usageRecord)
  specialistAcceptedOutcomeSha256 := content.specialistAcceptedOutcomeSha256
  surfaceReview := content.surfaceReview
  acceptedCandidates := content.acceptedCandidates
  normalizerSha256 := content.modelCompletionEvidence.map (·.normalizerSha256)

structure TaskOutput (Sha Payload : Type) where
  campaignId : Sha
  passPlanId : Sha
  taskId : Sha
  logicalRequestId : Sha
  activationId : Sha
  activationSha256 : Sha
  content : OutputContent Sha Payload
deriving DecidableEq

/-- Accounting evidence of a provider attempt without review credit. -/
structure ProviderAttemptEvidence (Sha : Type) where
  taskId : Sha
  logicalRequestId : Sha
  activationSha256 : Sha
  deliveredSourceDescriptorSha256s : List Sha
  usageRecord : UsageRecord Sha
  contextRequestEvidence : ContextRequestEvidence Sha
  responseSchemaSha256 : Option Sha
deriving DecidableEq

structure ActivationReference (Sha : Type) where
  activationId : Sha
  activationSha256 : Sha
deriving DecidableEq

/-- The digests of a provider completion, which a result has all or none of. -/
structure CompletionReference (Sha : Type) where
  modelCompletionEvidenceSha256 : Sha
  usageRecordSha256 : Sha
  contextRequestEvidenceSha256 : Sha
  providerResponseSha256 : Sha
  validatedResponseSha256 : Sha
  normalizerSha256 : Sha
deriving DecidableEq

/-- What a successful result retains of its output. -/
structure OutputReference (Sha : Type) where
  outputSha256 : Sha
  outputArtifactSha256 : Sha
  completion : Option (CompletionReference Sha)
  specialistAcceptedOutcomeSha256 : Option Sha
  surfaceReview : Option (SurfaceReview Sha)
  reviewedSourceDescriptorSha256s : List Sha
  reviewedCandidateIds : List String
deriving DecidableEq

structure TaskResult (Sha : Type) where
  campaignId : Sha
  manifestSha256 : Sha
  passKind : PassKind
  passId : Sha
  passPlanId : Sha
  passPlanSha256 : Sha
  taskId : Sha
  taskPlanSha256 : Sha
  logicalRequestId : Sha
  scope : Scope
  resultOrigin : ResultOrigin
  activation : Option (ActivationReference Sha)
  terminalStatus : TerminalStatus
  output : Option (OutputReference Sha)
  terminalEvidenceSha256 : Sha
deriving DecidableEq

/-- One lifecycle event, chained to the event before it and to the event before
it of the same task. -/
structure TaskEvent (Sha : Type) where
  campaignId : Sha
  passPlanId : Sha
  passPlanSha256 : Sha
  taskId : Sha
  logicalRequestId : Sha
  kind : EventKind
  eventIndex : ℕ
  taskEventIndex : ℕ
  previousEventSha256 : Option Sha
  priorTaskEventSha256 : Option Sha
  activation : Option (ActivationReference Sha)
  requestId : Option Sha
  taskResultSha256 : Option Sha
deriving DecidableEq

structure PassResult (Sha : Type) where
  plan : PassPlan Sha
  taskResults : List (TaskResult Sha)
  status : PassStatus
deriving DecidableEq

/-- The content of one journal file. -/
inductive Artifact (Sha Payload : Type)
  | plan (plan : PassPlan Sha)
  | activation (activation : TaskActivation Sha)
  | event (event : TaskEvent Sha)
  | output (output : TaskOutput Sha Payload)
  | providerAttempt (attempt : ProviderAttemptEvidence Sha)
  | taskResult (result : TaskResult Sha)
  | passResult (result : PassResult Sha)
deriving DecidableEq

end Scheduler

end MmAudit
