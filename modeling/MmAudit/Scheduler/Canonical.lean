import MmAudit.Scheduler.Acceptance
import MmAudit.Library.PrefixCode
import Mathlib.Data.List.Lex

/-!
# An environment without collisions

The digests of the scheduler are hashes of canonical encodings.  Here a digest is
the encoding itself, a list of numbers, for the digests that must not collide,
and a short summary for the others.
-/

namespace MmAudit

namespace Scheduler

namespace Environment

/-- A digest that is a canonical encoding. -/
abbrev Encoded : Type :=
  List ℕ

/-! ## Codes of the parts of a result -/

section Codes

def passKindCode : PrefixCode PassKind :=
  PrefixCode.nat.comap passOrder.idxOf (by intro first second; cases first <;> cases second <;> decide)

def scopeKindCode : PrefixCode ScopeKind :=
  PrefixCode.nat.comap [ScopeKind.global, .singleShard, .shardSet].idxOf
    (by intro first second; cases first <;> cases second <;> decide)

def originCode : PrefixCode ResultOrigin :=
  PrefixCode.nat.comap [ResultOrigin.activated, .localPreflight].idxOf
    (by intro first second; cases first <;> cases second <;> decide)

def statusCode : PrefixCode TerminalStatus :=
  PrefixCode.nat.comap [TerminalStatus.succeeded, .explicitEmpty, .failed, .truncated, .invalid,
    .unbound, .inconclusive, .uncertain].idxOf
    (by intro first second; cases first <;> cases second <;> decide)

def eventKindCode : PrefixCode EventKind :=
  PrefixCode.nat.comap [EventKind.planned, .activated, .dispatched, .terminal, .preflightTerminal,
    .activatedPreflightTerminal].idxOf
    (by intro first second; cases first <;> cases second <;> decide)

def scopeCode : PrefixCode Scope :=
  (scopeKindCode.pair (PrefixCode.list .text)).comap (fun scope => (scope.kind, scope.shardIds)) <| by
    rintro ⟨kind, shardIds⟩ ⟨other, others⟩ same
    simpa using same

def activationReferenceCode : PrefixCode (ActivationReference Encoded) :=
  (PrefixCode.word.pair .word).comap
    (fun reference => (reference.activationId, reference.activationSha256)) <| by
    rintro ⟨identity, sha⟩ ⟨other, another⟩ same
    simpa using same

def surfaceReviewCode : PrefixCode (SurfaceReview Encoded) :=
  (PrefixCode.word.pair (PrefixCode.word.pair .nat)).comap
    (fun review => (review.artifactSha256, review.requestedSurfaceManifestSha256,
      review.requestCount)) <| by
    rintro ⟨artifact, manifest, count⟩ ⟨other, another, number⟩ same
    simpa using same

def completionReferenceCode : PrefixCode (CompletionReference Encoded) :=
  (PrefixCode.word.pair (PrefixCode.word.pair (PrefixCode.word.pair (PrefixCode.word.pair
    (PrefixCode.word.pair .word))))).comap
    (fun reference => (reference.modelCompletionEvidenceSha256, reference.usageRecordSha256,
      reference.contextRequestEvidenceSha256, reference.providerResponseSha256,
      reference.validatedResponseSha256, reference.normalizerSha256)) <| by
    rintro ⟨_, _, _, _, _, _⟩ ⟨_, _, _, _, _, _⟩ same
    simpa using same

def outputReferenceCode : PrefixCode (OutputReference Encoded) :=
  (PrefixCode.word.pair (PrefixCode.word.pair ((PrefixCode.option completionReferenceCode).pair
    ((PrefixCode.option .word).pair ((PrefixCode.option surfaceReviewCode).pair
      ((PrefixCode.list .word).pair (PrefixCode.list .text))))))).comap
    (fun reference => (reference.outputSha256, reference.outputArtifactSha256,
      reference.completion, reference.specialistAcceptedOutcomeSha256, reference.surfaceReview,
      reference.reviewedSourceDescriptorSha256s, reference.reviewedCandidateIds)) <| by
    rintro ⟨_, _, _, _, _, _, _⟩ ⟨_, _, _, _, _, _, _⟩ same
    simpa using same

/-- The code of a result, with its evidence first. -/
def resultCode : PrefixCode (TaskResult Encoded) :=
  (PrefixCode.word.pair (PrefixCode.word.pair (PrefixCode.word.pair (passKindCode.pair
    (PrefixCode.word.pair (PrefixCode.word.pair (PrefixCode.word.pair (PrefixCode.word.pair
      (PrefixCode.word.pair (PrefixCode.word.pair (scopeCode.pair (originCode.pair
        ((PrefixCode.option activationReferenceCode).pair (statusCode.pair
          (PrefixCode.option outputReferenceCode))))))))))))))).comap
    (fun result => (result.terminalEvidenceSha256, result.campaignId, result.manifestSha256,
      result.passKind, result.passId, result.passPlanId, result.passPlanSha256, result.taskId,
      result.taskPlanSha256, result.logicalRequestId, result.scope, result.resultOrigin,
      result.activation, result.terminalStatus, result.output)) <| by
    rintro ⟨_, _, _, _, _, _, _, _, _, _, _, _, _, _, _⟩
      ⟨_, _, _, _, _, _, _, _, _, _, _, _, _, _, _⟩ same
    simp only [Prod.mk.injEq] at same
    simp only [TaskResult.mk.injEq]
    tauto

def eventIdentityCode : PrefixCode (Encoded × EventKind) :=
  PrefixCode.word.pair eventKindCode

end Codes

/-! ## The environment -/

def canonicalDigests : Digests Encoded Unit where
  taskIdentity task := PrefixCode.text.encode task.taskKey
  logicalRequest := PrefixCode.word.encode
  taskPlan task := PrefixCode.text.encode task.taskKey
  passIdentity campaignId _ kind := (PrefixCode.word.pair passKindCode).encode (campaignId, kind)
  passPlanIdentity plan := passKindCode.encode plan.passKind
  passPlan plan := passKindCode.encode plan.passKind
  workset workset := workset.sourceResultSha256
  activationIdentity activation := activation.taskId
  activation activation := activation.taskId
  payload _ := []
  output output := output.taskId
  resultIdentity _ taskId _ := PrefixCode.word.encode taskId
  result := resultCode.encode
  eventIdentity _ taskId kind := eventIdentityCode.encode (taskId, kind)
  event event := eventIdentityCode.encode (event.taskId, event.kind)
  passResult result := passKindCode.encode result.plan.passKind
  dispatchWithoutTerminal _ := []

/-- Outputs keep their arguments, without the evidence of a provider. -/
def canonicalEnvironment : Environment Encoded Unit where
  toDigests := canonicalDigests
  normalizeOutput _ _ _ arguments := .ok {
    modelCompletionEvidence := none
    specialistAcceptedOutcomeSha256 := arguments.specialistAcceptedOutcomeSha256
    surfaceReview := arguments.surfaceReview
    reviewedSourceDescriptorSha256s := []
    reviewedCandidateIds := []
    acceptedCandidates := arguments.acceptedCandidates
    payload := arguments.payload }
  candidateInventory _ := .ok ⟨[], [], [], []⟩
  isStructurallyAccountable _ := true
  artifactBytes _ := 0

theorem canonical_collisionFree : canonicalEnvironment.CollisionFree where
  logicalRequest := PrefixCode.word.encode_injective
  result := resultCode.encode_injective
  resultIdentity _ _ _ _ _ _ same := PrefixCode.word.encode_injective same
  eventIdentity _ _ _ _ _ _ same :=
    Prod.mk.inj (eventIdentityCode.encode_injective same)

theorem canonical_normalizesOnce : canonicalEnvironment.NormalizesOnce := by
  intro plan task activation arguments content normalized
  obtain rfl := Except.ok.inj normalized
  rfl

/-! ## A campaign with one task -/

section Orientation

def sampleManifest : CampaignManifest Encoded where
  campaignId := [1]
  manifestSha256 := [2]
  analysisInputSha256 := [3]
  boundPrivacyCustodySha256 := [4]
  privacyEvidenceCustody := some [4]
  shards := []

/-- The threat model that the first pass asks for. -/
def orientationTask : TaskPlan Encoded where
  campaignId := [1]
  manifestSha256 := [2]
  passKind := .orientation
  passId := canonicalEnvironment.passId sampleManifest .orientation
  scope := ⟨.global, []⟩
  taskKind := .modelRequest
  taskKey := "threat_model"
  role := "threat_model"
  requestedModel := some "model"
  rootLineage := some "lineage"
  candidateIds := []
  inputSha256 := [5]
  promptSha256 := [6]
  systemPromptSha256 := some [7]
  normalizerSha256 := some [8]
  responseSchemaSha256 := [9]

def orientationPlan : PassPlan Encoded where
  manifest := sampleManifest
  passKind := .orientation
  dependencies := []
  tasks := [orientationTask]
  candidateWorkset := none
  conditionalAbsence := none

def orientationTaskId : Encoded :=
  canonicalEnvironment.taskId orientationTask

def orientationMaterial : ActivationMaterial Encoded where
  actualInputSha256 := [5]
  systemPromptSha256 := some [7]
  userPromptSha256 := some [10]
  providerPromptSha256 := some [11]
  responseSchemaSha256 := some [9]
  deliveredSourceDescriptorSha256s := []
  upstreamTaskResultSha256s := []

def orientationActivation : TaskActivation Encoded where
  campaignId := [1]
  manifestSha256 := [2]
  passPlanId := canonicalEnvironment.passPlanIdentity orientationPlan
  passPlanSha256 := canonicalEnvironment.passPlan orientationPlan
  taskId := orientationTaskId
  taskPlanSha256 := canonicalEnvironment.taskPlan orientationTask
  logicalRequestId := canonicalEnvironment.logicalRequestId orientationTask
  actualInputSha256 := [5]
  systemPromptSha256 := some [7]
  userPromptSha256 := some [10]
  providerPromptSha256 := some [11]
  responseSchemaSha256 := some [9]
  deliveredSourceDescriptorSha256s := []
  priorPassResultSha256s := []
  upstreamTaskResultSha256s := []

/-- An answer that the provider gave to the threat model request. -/
def orientationUsage : UsageRecord Encoded where
  requestId := canonicalEnvironment.logicalRequestId orientationTask
  role := "threat_model"
  requestedModel := some "model"
  promptSha256 := some [11]
  userPromptSha256 := some [10]
  schemaSha256 := some [9]
  responseSha256 := none
  validatedResponseSha256 := none
  contextRequestEvidence :=
    some ⟨canonicalEnvironment.logicalRequestId orientationTask, "threat_model", [12]⟩
  contextRequestEvidenceSha256 := some [12]
  attempts := 1
  retryCount := 0
  accountedCostUsdExact := some 0
  reportedCostUsdExact := none
  promptTokens := 0
  completionTokens := 0
  startedAt := some 0
  endedAt := some 1
  latencyMs := some 1

def orientationArguments : OutputArguments Encoded Unit where
  payload := ()
  usageRecord := none
  specialistAcceptedOutcomeSha256 := none
  surfaceReview := none
  acceptedCandidates := []
  normalizerSha256 := none

/-- A result of the dispatched task without an output. -/
def orientationResult (status : TerminalStatus) : TaskResult Encoded where
  campaignId := [1]
  manifestSha256 := [2]
  passKind := .orientation
  passId := canonicalEnvironment.passId sampleManifest .orientation
  passPlanId := canonicalEnvironment.passPlanIdentity orientationPlan
  passPlanSha256 := canonicalEnvironment.passPlan orientationPlan
  taskId := orientationTaskId
  taskPlanSha256 := canonicalEnvironment.taskPlan orientationTask
  logicalRequestId := canonicalEnvironment.logicalRequestId orientationTask
  scope := ⟨.global, []⟩
  resultOrigin := .activated
  activation := some (canonicalEnvironment.activationReference orientationActivation)
  terminalStatus := status
  output := none
  terminalEvidenceSha256 := [13]

/-- The transitions up to the dispatch of the threat model. -/
def orientationDispatch : List (Operation Encoded Unit) :=
  [.sealPassPlan orientationPlan, .activateTask orientationTaskId orientationMaterial,
    .markDispatched orientationTaskId]

/-- The files and the journal after transitions of the sample campaign. -/
def sampleState (operations : List (Operation Encoded Unit)) :
    Archive Encoded Unit × Journal Encoded Unit :=
  (canonicalEnvironment.performAll (.empty, newJournal sampleManifest [3]) operations).getD
    (.empty, newJournal sampleManifest [3])

/-- Transitions of the sample campaign that are all accepted. -/
theorem campaign_sampleState (allowed : Config Encoded Unit → Action Encoded Unit → Prop)
    (operations : List (Operation Encoded Unit))
    (permitted : ∀ files journal, ∀ operation ∈ operations,
      allowed (.live files journal) (.call operation))
    (accepted : (canonicalEnvironment.performAll (.empty, newJournal sampleManifest [3])
      operations).isSome) :
    canonicalEnvironment.Campaign sampleManifest [3] allowed (newConfig sampleManifest [3])
      (.live (sampleState operations).1 (sampleState operations).2) := by
  refine campaign_of_performAll (.empty, newJournal sampleManifest [3]) permitted ?_
  obtain ⟨last, reached⟩ := Option.isSome_iff_exists.mp accepted
  rw [sampleState, reached, Option.getD_some]

/-- The journal that a resume of the sample campaign returns. -/
def sampleResumed (files : Archive Encoded Unit) : Option (Journal Encoded Unit) :=
  (canonicalEnvironment.resumeJournal sampleManifest [3] files).result.toOption

/-- A resume of the sample campaign that returns. -/
theorem resume_sample (allowed : Config Encoded Unit → Action Encoded Unit → Prop)
    {files : Archive Encoded Unit} {journal : Journal Encoded Unit}
    (permitted : allowed (.down files) .resume) (resumed : sampleResumed files = some journal) :
    canonicalEnvironment.Campaign sampleManifest [3] allowed (.down files)
      (.live (writeAll (canonicalEnvironment.canonical files)
        (canonicalEnvironment.resumeJournal sampleManifest [3] files).log) journal) := by
  refine .step .start permitted (.resume (Logged.returns_of_ok ?_))
  unfold sampleResumed at resumed
  cases returned : (canonicalEnvironment.resumeJournal sampleManifest [3] files).result with
  | error failure =>
      rw [returned] at resumed
      cases resumed
  | ok next =>
      rw [returned] at resumed
      exact congrArg Except.ok (Option.some.inj resumed)

/-- The journal that opening files of the sample campaign gives, and the one that
recovery makes of it. -/
def sampleRecovered (files : Archive Encoded Unit) :
    Option (Journal Encoded Unit × Journal Encoded Unit) := do
  let journal ← (canonicalEnvironment.openJournal sampleManifest [3] files).toOption
  let recovered ← (canonicalEnvironment.recoverInterruptedState journal).result.toOption
  pure (journal, recovered)

theorem recovered_sample {files : Archive Encoded Unit} {journal recovered : Journal Encoded Unit}
    (returned : sampleRecovered files = some (journal, recovered)) :
    canonicalEnvironment.openJournal sampleManifest [3] files = .ok journal ∧
      (canonicalEnvironment.recoverInterruptedState journal).result = .ok recovered := by
  unfold sampleRecovered at returned
  simp only [Option.bind_eq_bind, Option.bind_eq_some_iff, Option.pure_def, Option.some.injEq,
    Prod.mk.injEq] at returned
  obtain ⟨_, opened, _, settled, rfl, rfl⟩ := returned
  exact ⟨Fallible.eq_ok_of_toOption_eq_some opened, Fallible.eq_ok_of_toOption_eq_some settled⟩

end Orientation

end Environment

end Scheduler

end MmAudit
