import MmAudit.Library.SortedSets
import MmAudit.Rpc.Answers
import MmAudit.Rpc.Bridge

/-!
# The counters of the read-only RPC bridge

Every connection that the listener accepts is counted, and so is what becomes of it: its
calls when they are permitted, the calls that the origin answered, and its rejection.
While a selected-test scope is active it counts the same beside the bridge.  A scope is
sealed into a snapshot at its end, and the bridge into another when it has stopped; both
snapshots check their counters against each other.

Each operation below runs under the state lock, and `perform` lets the threads of the
requests and the callers of the bridge take them in any order.
-/

namespace MmAudit

namespace Rpc

open Fallible SortedSets

/-! ## Counters -/

structure RequestTotals where
  httpRequestCount : ℕ
  permittedRpcCallCount : ℕ
  originAttemptedRpcCallCount : ℕ
  originValidatedRpcCallCount : ℕ
  syntheticRpcCallCount : ℕ
  deniedRequestCount : ℕ
  malformedRequestCount : ℕ
  limitExceededRequestCount : ℕ
  upstreamErrorRequestCount : ℕ
deriving DecidableEq

/-- The counters, with the methods of the permitted calls. -/
structure RequestCounts extends RequestTotals where
  allowedMethodCounts : Dict RpcMethod ℕ
  methodLog : List RpcMethod
deriving DecidableEq

namespace RequestTotals

def violationCount (totals : RequestTotals) : ℕ :=
  totals.deniedRequestCount + totals.malformedRequestCount + totals.limitExceededRequestCount +
    totals.upstreamErrorRequestCount

/-- The counter of a kind of rejections. -/
def rejectionCount (totals : RequestTotals) : RejectionKind → ℕ
  | .denied => totals.deniedRequestCount
  | .malformed => totals.malformedRequestCount
  | .limit => totals.limitExceededRequestCount
  | .upstream => totals.upstreamErrorRequestCount

theorem violationCount_eq_zero_iff {totals : RequestTotals} :
    totals.violationCount = 0 ↔ ∀ kind, totals.rejectionCount kind = 0 := by
  constructor
  · intro none kind
    rw [violationCount] at none
    cases kind <;> simp only [rejectionCount] <;> omega
  · intro none
    have denied := none .denied
    have malformed := none .malformed
    have limit := none .limit
    have upstream := none .upstream
    simp only [rejectionCount] at denied malformed limit upstream
    rw [violationCount]
    omega

end RequestTotals

namespace RequestCounts

def zero : RequestCounts where
  httpRequestCount := 0
  permittedRpcCallCount := 0
  originAttemptedRpcCallCount := 0
  originValidatedRpcCallCount := 0
  syntheticRpcCallCount := 0
  deniedRequestCount := 0
  malformedRequestCount := 0
  limitExceededRequestCount := 0
  upstreamErrorRequestCount := 0
  allowedMethodCounts := Dict.empty
  methodLog := []

def countHttpRequest (counts : RequestCounts) : RequestCounts :=
  { counts with httpRequestCount := counts.httpRequestCount + 1 }

/-- The body of the loop of `_record_permitted`. -/
def countMethod (counts : RequestCounts) (method : RpcMethod) : RequestCounts :=
  { counts with
    allowedMethodCounts := counts.allowedMethodCounts.insert method
      ((counts.allowedMethodCounts.get? method).getD 0 + 1)
    methodLog := counts.methodLog ++ [method] }

def recordPermitted (prepared : List PreparedCall) (originAttemptedCount : ℕ)
    (counts : RequestCounts) : RequestCounts :=
  (prepared.map PreparedCall.method).foldl countMethod { counts with
    permittedRpcCallCount := counts.permittedRpcCallCount + prepared.length
    originAttemptedRpcCallCount := counts.originAttemptedRpcCallCount + originAttemptedCount
    syntheticRpcCallCount :=
      counts.syntheticRpcCallCount + (prepared.length - originAttemptedCount) }

def recordOriginValidated (validatedCount : ℕ) (counts : RequestCounts) : RequestCounts :=
  { counts with
    originValidatedRpcCallCount := counts.originValidatedRpcCallCount + validatedCount }

def recordRejection (kind : RejectionKind) (counts : RequestCounts) : RequestCounts :=
  match kind with
  | .denied => { counts with deniedRequestCount := counts.deniedRequestCount + 1 }
  | .malformed => { counts with malformedRequestCount := counts.malformedRequestCount + 1 }
  | .limit => { counts with limitExceededRequestCount := counts.limitExceededRequestCount + 1 }
  | .upstream => { counts with upstreamErrorRequestCount := counts.upstreamErrorRequestCount + 1 }

/-- `tuple(sorted(allowed_method_counts.items()))`, where the names of the methods decide. -/
def sortedMethodCounts (counts : RequestCounts) : List (RpcMethod × ℕ) :=
  sortedBy (fun item => item.1.name.toList) counts.allowedMethodCounts.items

end RequestCounts

/-! ## Snapshots -/

/-- `_SHA256_PATTERN` -/
def isSha256 (text : List Char) : Bool :=
  text.length == 64 && text.all isLowerHex

/-- What does not change while a bridge runs. -/
structure BridgeConfiguration where
  policy : RpcPolicy
  maxHttpRequests : ℕ
  maxRpcCalls : ℕ
  maxResponseBodyBytes : ℕ
  policySha256 : List Char
  /-- `observation_sha256` of the origin, before the bridge starts and after it has stopped -/
  originObservationSha256 : List Char
  /-- `_canonical_sha256` -/
  canonicalSha256 : Json → List Char
  /-- `len(_encode_json(value))` -/
  encodedLength : Json → ℕ
  chainIdBound : 1 ≤ policy.expectedChainId ∧ policy.expectedChainId < 2 ^ 64
  blockNumberBound : policy.pinnedBlockNumber < 2 ^ 64
  policyDigest : isSha256 policySha256 = true
  observationDigest : isSha256 originObservationSha256 = true
  digests : ∀ value, isSha256 (canonicalSha256 value) = true

structure ScopeIdentity where
  attemptBindingSha256 : List Char
  selectionSha256 : List Char
  descriptorSha256 : List Char
  sequenceIndex : ℕ
deriving DecidableEq

/-- `_validate_test_scope_identity` -/
def ScopeIdentity.isValid (identity : ScopeIdentity) : Bool :=
  isSha256 identity.attemptBindingSha256 && isSha256 identity.selectionSha256 &&
    isSha256 identity.descriptorSha256 &&
    decide (1 ≤ identity.sequenceIndex ∧ identity.sequenceIndex ≤ 10000)

/-- The checks of the counters that both snapshots make. -/
abbrev ConsistentTotals (totals : RequestTotals) (methodCounts : List (RpcMethod × ℕ)) : Prop :=
  totals.originAttemptedRpcCallCount + totals.syntheticRpcCallCount =
      totals.permittedRpcCallCount ∧
    totals.originValidatedRpcCallCount ≤ totals.originAttemptedRpcCallCount ∧
    methodCounts = sortedBy (fun item => item.1.name.toList) methodCounts ∧
    (methodCounts.map Prod.fst).Nodup ∧
    (∀ item ∈ methodCounts, 1 ≤ item.2) ∧
    (methodCounts.map Prod.snd).sum = totals.permittedRpcCallCount ∧
    totals.violationCount ≤ totals.httpRequestCount

/-- The counters in the order of `to_dict`. -/
def RequestTotals.fields (totals : RequestTotals) : Json.Fields :=
  [("http_request_count", totals.httpRequestCount),
    ("permitted_rpc_call_count", totals.permittedRpcCallCount),
    ("origin_attempted_rpc_call_count", totals.originAttemptedRpcCallCount),
    ("origin_validated_rpc_call_count", totals.originValidatedRpcCallCount),
    ("synthetic_rpc_call_count", totals.syntheticRpcCallCount),
    ("denied_request_count", totals.deniedRequestCount),
    ("malformed_request_count", totals.malformedRequestCount),
    ("limit_exceeded_request_count", totals.limitExceededRequestCount),
    ("upstream_error_request_count", totals.upstreamErrorRequestCount)].map fun field =>
      (field.1.toList, .int field.2)

def methodCountsJson (methodCounts : List (RpcMethod × ℕ)) : Json :=
  .array (methodCounts.map fun item => .object
    [("method".toList, .string item.1.name.toList), ("count".toList, .int item.2)])

inductive ScopeStatus where
  | validated
  | notObserved
  | violation
deriving DecidableEq

def ScopeStatus.value : ScopeStatus → String
  | validated => "validated"
  | notObserved => "not_observed"
  | violation => "violation"

/-- The status of a scope with these counters. -/
def scopeStatus (totals : RequestTotals) : ScopeStatus :=
  if totals.violationCount ≠ 0 ∨
      totals.originValidatedRpcCallCount ≠ totals.originAttemptedRpcCallCount then .violation
  else if totals.originAttemptedRpcCallCount ≠ 0 then .validated
  else .notObserved

structure ReadOnlyRpcTestScopeSnapshot extends RequestTotals where
  schemaVersion : String
  identity : ScopeIdentity
  policySha256 : List Char
  expectedChainId : ℕ
  pinnedBlockNumber : ℕ
  pinnedBlockHash : List Char
  status : ScopeStatus
  allowedMethodCounts : List (RpcMethod × ℕ)
  methodLogSha256 : List Char
  boundaryDrained : Bool
  snapshotSha256 : List Char

namespace ReadOnlyRpcTestScopeSnapshot

/-- `to_dict(include_snapshot_sha256=False)` -/
def toDict (snapshot : ReadOnlyRpcTestScopeSnapshot) : Json :=
  .object ([("schema_version".toList, .string snapshot.schemaVersion.toList),
    ("attempt_binding_sha256".toList, .string snapshot.identity.attemptBindingSha256),
    ("selection_sha256".toList, .string snapshot.identity.selectionSha256),
    ("descriptor_sha256".toList, .string snapshot.identity.descriptorSha256),
    ("sequence_index".toList, .int snapshot.identity.sequenceIndex),
    ("policy_sha256".toList, .string snapshot.policySha256),
    ("expected_chain_id".toList, .int snapshot.expectedChainId),
    ("pinned_block_number".toList, .int snapshot.pinnedBlockNumber),
    ("pinned_block_hash".toList, .string snapshot.pinnedBlockHash),
    ("status".toList, .string snapshot.status.value.toList)] ++
    snapshot.toRequestTotals.fields ++
    [("allowed_method_counts".toList, methodCountsJson snapshot.allowedMethodCounts),
      ("method_log_sha256".toList, .string snapshot.methodLogSha256),
      ("boundary_drained".toList, .bool snapshot.boundaryDrained)])

/-- What `__post_init__` checks, but for the hash. -/
abbrev IsConsistent (snapshot : ReadOnlyRpcTestScopeSnapshot) : Prop :=
  snapshot.schemaVersion = "1.0" ∧ snapshot.identity.isValid = true ∧
    isSha256 snapshot.policySha256 = true ∧ isSha256 snapshot.methodLogSha256 = true ∧
    isSha256 snapshot.snapshotSha256 = true ∧
    1 ≤ snapshot.expectedChainId ∧ snapshot.expectedChainId < 2 ^ 64 ∧
    snapshot.pinnedBlockNumber < 2 ^ 64 ∧ isWord64 snapshot.pinnedBlockHash = true ∧
    ConsistentTotals snapshot.toRequestTotals snapshot.allowedMethodCounts ∧
    snapshot.status = scopeStatus snapshot.toRequestTotals ∧ snapshot.boundaryDrained = true

/-- `__post_init__` -/
def postInit (canonicalSha256 : Json → List Char) (snapshot : ReadOnlyRpcTestScopeSnapshot) :
    Except String ReadOnlyRpcTestScopeSnapshot := do
  raiseIf (¬ snapshot.IsConsistent) "read-only RPC test scope snapshot is inconsistent"
  raiseIf (snapshot.snapshotSha256 ≠ canonicalSha256 snapshot.toDict)
    "read-only RPC test scope snapshot hash is inconsistent"
  pure snapshot

/-- The hash is taken of everything else. -/
def withHash (canonicalSha256 : Json → List Char) (snapshot : ReadOnlyRpcTestScopeSnapshot) :
    ReadOnlyRpcTestScopeSnapshot :=
  { snapshot with snapshotSha256 := canonicalSha256 snapshot.toDict }

theorem snapshotSha256_withHash (canonicalSha256 : Json → List Char)
    (snapshot : ReadOnlyRpcTestScopeSnapshot) :
    (snapshot.withHash canonicalSha256).snapshotSha256 =
      canonicalSha256 (snapshot.withHash canonicalSha256).toDict :=
  rfl

theorem postInit_withHash {canonicalSha256 : Json → List Char}
    {snapshot : ReadOnlyRpcTestScopeSnapshot}
    (consistent : (snapshot.withHash canonicalSha256).IsConsistent) :
    postInit canonicalSha256 (snapshot.withHash canonicalSha256) =
      .ok (snapshot.withHash canonicalSha256) := by
  unfold postInit
  rw [raiseIf_bind_of_not (not_not.mpr consistent),
    raiseIf_bind_of_not (not_not.mpr (snapshotSha256_withHash _ _))]
  rfl

end ReadOnlyRpcTestScopeSnapshot

inductive BridgeStatus where
  | enforced
  | violation
deriving DecidableEq

def BridgeStatus.value : BridgeStatus → String
  | enforced => "enforced"
  | violation => "violation"

structure ReadOnlyRpcBridgeSnapshot extends RequestTotals where
  schemaVersion : String
  status : BridgeStatus
  policySha256 : List Char
  expectedChainId : ℕ
  pinnedBlockNumber : ℕ
  pinnedBlockHash : List Char
  preflightOriginObservationSha256 : List Char
  postflightOriginObservationSha256 : List Char
  originStateStable : Bool
  allowedMethodCounts : List (RpcMethod × ℕ)
  methodLogSha256 : List Char
  stoppedCleanly : Bool
  snapshotSha256 : List Char
  selectedTestScopeSnapshotSha256s : List (List Char)

namespace ReadOnlyRpcBridgeSnapshot

/-- `to_dict(include_snapshot_sha256=False)` -/
def toDict (snapshot : ReadOnlyRpcBridgeSnapshot) : Json :=
  .object ([("schema_version".toList, .string snapshot.schemaVersion.toList),
    ("status".toList, .string snapshot.status.value.toList),
    ("policy_sha256".toList, .string snapshot.policySha256),
    ("expected_chain_id".toList, .int snapshot.expectedChainId),
    ("pinned_block_number".toList, .int snapshot.pinnedBlockNumber),
    ("pinned_block_hash".toList, .string snapshot.pinnedBlockHash),
    ("preflight_origin_observation_sha256".toList,
      .string snapshot.preflightOriginObservationSha256),
    ("postflight_origin_observation_sha256".toList,
      .string snapshot.postflightOriginObservationSha256),
    ("origin_state_stable".toList, .bool snapshot.originStateStable)] ++
    snapshot.toRequestTotals.fields ++
    [("allowed_method_counts".toList, methodCountsJson snapshot.allowedMethodCounts),
      ("method_log_sha256".toList, .string snapshot.methodLogSha256),
      ("stopped_cleanly".toList, .bool snapshot.stoppedCleanly)] ++
    if snapshot.selectedTestScopeSnapshotSha256s.isEmpty then []
    else [("selected_test_scope_snapshot_sha256s".toList,
      .array (snapshot.selectedTestScopeSnapshotSha256s.map .string))])

/-- What `__post_init__` checks, but for the hash. -/
abbrev IsConsistent (snapshot : ReadOnlyRpcBridgeSnapshot) : Prop :=
  snapshot.schemaVersion = "2.0" ∧ isSha256 snapshot.policySha256 = true ∧
    isSha256 snapshot.preflightOriginObservationSha256 = true ∧
    isSha256 snapshot.postflightOriginObservationSha256 = true ∧
    isSha256 snapshot.methodLogSha256 = true ∧ isSha256 snapshot.snapshotSha256 = true ∧
    (∀ digest ∈ snapshot.selectedTestScopeSnapshotSha256s, isSha256 digest = true) ∧
    snapshot.selectedTestScopeSnapshotSha256s.Nodup ∧
    1 ≤ snapshot.expectedChainId ∧ snapshot.expectedChainId < 2 ^ 64 ∧
    snapshot.pinnedBlockNumber < 2 ^ 64 ∧ isWord64 snapshot.pinnedBlockHash = true ∧
    snapshot.preflightOriginObservationSha256 = snapshot.postflightOriginObservationSha256 ∧
    snapshot.originStateStable = true ∧
    (snapshot.originValidatedRpcCallCount = snapshot.originAttemptedRpcCallCount ↔
      snapshot.upstreamErrorRequestCount = 0) ∧
    ConsistentTotals snapshot.toRequestTotals snapshot.allowedMethodCounts ∧
    (snapshot.status = .violation ↔ snapshot.violationCount ≠ 0) ∧
    snapshot.stoppedCleanly = true

/-- `__post_init__` -/
def postInit (canonicalSha256 : Json → List Char) (snapshot : ReadOnlyRpcBridgeSnapshot) :
    Except String ReadOnlyRpcBridgeSnapshot := do
  raiseIf (¬ snapshot.IsConsistent) "read-only RPC bridge snapshot is inconsistent"
  raiseIf (snapshot.snapshotSha256 ≠ canonicalSha256 snapshot.toDict)
    "read-only RPC bridge snapshot hash is inconsistent"
  pure snapshot

/-- The hash is taken of everything else. -/
def withHash (canonicalSha256 : Json → List Char) (snapshot : ReadOnlyRpcBridgeSnapshot) :
    ReadOnlyRpcBridgeSnapshot :=
  { snapshot with snapshotSha256 := canonicalSha256 snapshot.toDict }

theorem snapshotSha256_withHash (canonicalSha256 : Json → List Char)
    (snapshot : ReadOnlyRpcBridgeSnapshot) :
    (snapshot.withHash canonicalSha256).snapshotSha256 =
      canonicalSha256 (snapshot.withHash canonicalSha256).toDict :=
  rfl

theorem postInit_withHash_iff {canonicalSha256 : Json → List Char}
    {snapshot : ReadOnlyRpcBridgeSnapshot} :
    (∃ result, postInit canonicalSha256 (snapshot.withHash canonicalSha256) = .ok result) ↔
      (snapshot.withHash canonicalSha256).IsConsistent := by
  unfold postInit
  constructor
  · rintro ⟨result, success⟩
    rw [raiseIf_bind_eq_ok_iff, not_not] at success
    exact success.1
  · intro consistent
    rw [raiseIf_bind_of_not (not_not.mpr consistent),
      raiseIf_bind_of_not (not_not.mpr (snapshotSha256_withHash _ _))]
    exact ⟨_, rfl⟩

end ReadOnlyRpcBridgeSnapshot

/-! ## The state of the bridge -/

/-- `_ReadOnlyRpcTestScopeAccumulator` -/
structure ScopeAccumulator where
  identity : ScopeIdentity
  counts : RequestCounts
deriving DecidableEq

/-- The state that the scope boundary lock and the state lock guard, with all its counters. -/
structure BridgeLedger where
  acceptGeneration : ℕ
  admissionClosed : Bool
  pendingAcceptedHttpRequestCount : ℕ
  inflightAdmittedHttpRequestCount : ℕ
  httpAdmissionSaturated : Bool
  counts : RequestCounts
  activeTestScope : Option ScopeAccumulator
  selectedTestScopeSnapshotSha256s : List (List Char)
deriving DecidableEq

namespace BridgeLedger

def new : BridgeLedger where
  acceptGeneration := 0
  admissionClosed := false
  pendingAcceptedHttpRequestCount := 0
  inflightAdmittedHttpRequestCount := 0
  httpAdmissionSaturated := false
  counts := RequestCounts.zero
  activeTestScope := none
  selectedTestScopeSnapshotSha256s := []

/-- A change of the counters, and of those of the active scope beside them. -/
def onCounts (change : RequestCounts → RequestCounts) (ledger : BridgeLedger) : BridgeLedger :=
  { ledger with
    counts := change ledger.counts
    activeTestScope := ledger.activeTestScope.map fun scope =>
      { scope with counts := change scope.counts } }

/-- `_admit_http_request`, for a connection that has been registered: whether it is admitted, and
whether admission is to stop. -/
def admitHttpRequest (maxHttpRequests : ℕ) (ledger : BridgeLedger) (acceptGeneration : ℕ) :
    Except String (BridgeLedger × Bool × Bool) := do
  raiseIf (ledger.pendingAcceptedHttpRequestCount < 1)
    "read-only RPC accepted request accounting is inconsistent"
  let ledger := { ledger with
    pendingAcceptedHttpRequestCount := ledger.pendingAcceptedHttpRequestCount - 1 }
  if ledger.admissionClosed || acceptGeneration != ledger.acceptGeneration then
    pure ({ ledger with
      counts := (ledger.counts.countHttpRequest).recordRejection .limit }, false, false)
  else if ledger.httpAdmissionSaturated then
    pure (ledger, false, true)
  else
    let saturated := ledger.counts.httpRequestCount + 1 == maxHttpRequests
    pure ({ ledger.onCounts RequestCounts.countHttpRequest with
      inflightAdmittedHttpRequestCount := ledger.inflightAdmittedHttpRequestCount + 1
      httpAdmissionSaturated := saturated }, true, saturated)

/-- `_record_permitted` -/
def recordPermitted (maxRpcCalls : ℕ) (prepared : List PreparedCall) (originAttemptedCount : ℕ)
    (ledger : BridgeLedger) : Except RejectionKind BridgeLedger := do
  raiseIf (maxRpcCalls < ledger.counts.permittedRpcCallCount + prepared.length) .limit
  pure (ledger.onCounts (RequestCounts.recordPermitted prepared originAttemptedCount))

/-- The state as admission sees it. -/
def toBridge (ledger : BridgeLedger) : Bridge ScopeIdentity (List Char) where
  acceptGeneration := ledger.acceptGeneration
  admissionClosed := ledger.admissionClosed
  pendingAcceptedHttpRequestCount := ledger.pendingAcceptedHttpRequestCount
  inflightAdmittedHttpRequestCount := ledger.inflightAdmittedHttpRequestCount
  activeTestScope := ledger.activeTestScope.map fun scope =>
    ⟨scope.identity, scope.counts.httpRequestCount, scope.counts.limitExceededRequestCount⟩
  selectedTestScopeSnapshotSha256s := ledger.selectedTestScopeSnapshotSha256s
  httpRequestCount := ledger.counts.httpRequestCount
  httpAdmissionSaturated := ledger.httpAdmissionSaturated
  limitExceededRequestCount := ledger.counts.limitExceededRequestCount

/-- Beside its further counters, the bridge admits as the admission model does. -/
theorem toBridge_admitHttpRequest (settings : BridgeSettings ScopeIdentity (List Char))
    (ledger : BridgeLedger) (generation : ℕ) :
    (ledger.admitHttpRequest settings.maxHttpRequests generation).map
        (fun answer => (answer.1.toBridge, answer.2)) =
      ledger.toBridge.admitHttpRequest settings generation := by
  unfold admitHttpRequest Bridge.admitHttpRequest
  by_cases unregistered : ledger.pendingAcceptedHttpRequestCount < 1
  · simp [raiseIf, toBridge, unregistered, bind, Except.bind, Except.map]
  · have unregisteredBridge : ¬ ledger.toBridge.pendingAcceptedHttpRequestCount < 1 := unregistered
    rw [raiseIf_bind_of_not unregistered, raiseIf_bind_of_not unregisteredBridge]
    dsimp only [toBridge]
    split
    · rfl
    · split
      · rfl
      · simp [Except.map, pure, Except.pure, onCounts, RequestCounts.countHttpRequest,
          Function.comp_def]

end BridgeLedger

namespace BridgeConfiguration

variable (config : BridgeConfiguration)

/-- What a scope is sealed as, but for the hash. -/
def scopeSnapshot (scope : ScopeAccumulator) : ReadOnlyRpcTestScopeSnapshot where
  toRequestTotals := scope.counts.toRequestTotals
  schemaVersion := "1.0"
  identity := scope.identity
  policySha256 := config.policySha256
  expectedChainId := config.policy.expectedChainId
  pinnedBlockNumber := config.policy.pinnedBlockNumber
  pinnedBlockHash := config.policy.pinnedBlockHash
  status := scopeStatus scope.counts.toRequestTotals
  allowedMethodCounts := scope.counts.sortedMethodCounts
  methodLogSha256 := config.canonicalSha256
    (.array (scope.counts.methodLog.map fun method => .string method.name.toList))
  boundaryDrained := true
  snapshotSha256 := []

/-- `_seal_test_scope_snapshot` -/
def sealTestScopeSnapshot (scope : ScopeAccumulator) :
    Except String ReadOnlyRpcTestScopeSnapshot :=
  ReadOnlyRpcTestScopeSnapshot.postInit config.canonicalSha256
    ((config.scopeSnapshot scope).withHash config.canonicalSha256)

/-- What the bridge is sealed as, but for the hash. -/
def bridgeSnapshot (ledger : BridgeLedger) : ReadOnlyRpcBridgeSnapshot where
  toRequestTotals := ledger.counts.toRequestTotals
  schemaVersion := "2.0"
  status := if ledger.counts.violationCount ≠ 0 then .violation else .enforced
  policySha256 := config.policySha256
  expectedChainId := config.policy.expectedChainId
  pinnedBlockNumber := config.policy.pinnedBlockNumber
  pinnedBlockHash := config.policy.pinnedBlockHash
  preflightOriginObservationSha256 := config.originObservationSha256
  postflightOriginObservationSha256 := config.originObservationSha256
  originStateStable := true
  allowedMethodCounts := ledger.counts.sortedMethodCounts
  methodLogSha256 := config.canonicalSha256
    (.array (ledger.counts.methodLog.map fun method => .string method.name.toList))
  stoppedCleanly := true
  snapshotSha256 := []
  selectedTestScopeSnapshotSha256s := ledger.selectedTestScopeSnapshotSha256s

/-- `snapshot`, once the bridge has stopped cleanly. -/
def snapshot (ledger : BridgeLedger) : Except String ReadOnlyRpcBridgeSnapshot :=
  ReadOnlyRpcBridgeSnapshot.postInit config.canonicalSha256
    ((config.bridgeSnapshot ledger).withHash config.canonicalSha256)

/-- The response of `_handle_http_request` to permitted calls.  An origin that cannot be reached,
or whose response cannot be read, gives nothing. -/
def respond (forward : Json → Option Json) (prepared : List PreparedCall) (isBatch : Bool) :
    Except RejectionKind Json := do
  let upstream ← config.policy.upstreamResponses
    (fun sent => (forward sent).elim (.error .upstream) .ok)
    (RpcPolicy.outboundCalls prepared) isBatch
  let response ← RpcPolicy.combineResponses prepared upstream isBatch
  raiseIf (config.maxResponseBodyBytes < config.encodedLength response) .upstream
  pure response

end BridgeConfiguration

/-! ## The requests of a running bridge -/

/-- How far an admitted request is. -/
inductive RequestStage where
  /-- no handler slot has been asked for -/
  | undispatched
  /-- a handler thread reads the request -/
  | handling
  /-- its calls are permitted -/
  | forwarding (prepared : List PreparedCall) (isBatch : Bool)
  /-- what became of it is counted -/
  | recorded

/-- A request, with the number of the scope that was active when it was admitted. -/
structure Request where
  admittedIn : Option ℕ
  stage : RequestStage

/-- What is counted of a request in the end, with the calls that it sent on. -/
inductive RequestOutcome where
  /-- nothing: the handler could not be started, or broke off -/
  | silent
  | rejected (kind : RejectionKind) (originAttempted : ℕ)
  | validated (originAttempted : ℕ)
deriving DecidableEq

/-- A bridge with its requests, and a history of the requests that have been counted. -/
structure CountingSystem where
  ledger : BridgeLedger
  requests : List Request
  scopesBegun : ℕ
  stopAttempted : Bool
  abandonedTestScope : Bool
  outcomes : List (Option ℕ × RequestOutcome)
  sealedScopes : List (ℕ × ReadOnlyRpcTestScopeSnapshot)

/-- The sections that the threads and the callers can run next. -/
inductive CountingAction where
  /-- `_register_accepted_http_request` -/
  | registerConnection
  /-- `_admit_http_request`, with any generation that the listener may have captured -/
  | admitConnection (generation : ℕ)
  /-- there is no handler slot -/
  | refuseCapacity (index : ℕ)
  | dispatch (index : ℕ)
  /-- the handler cannot be started, or breaks off before anything is counted -/
  | breakOff (index : ℕ)
  /-- a rejection before the calls are permitted -/
  | rejectRequest (index : ℕ) (kind : RejectionKind)
  /-- the payload has been read -/
  | permitRequest (index : ℕ) (payload : Json)
  /-- the origin has answered, or failed to -/
  | completeRequest (index : ℕ) (forward : Json → Option Json)
  /-- `_finish_admitted_http_request` -/
  | finishRequest (index : ℕ)
  /-- the last section of `begin_selected_test_scope` -/
  | beginScope (identity : ScopeIdentity)
  /-- the last section of `end_selected_test_scope` -/
  | endScope (identity : ScopeIdentity)
  /-- the section of `stop` that closes admission -/
  | stopBridge

namespace CountingSystem

def started : CountingSystem where
  ledger := BridgeLedger.new
  requests := []
  scopesBegun := 0
  stopAttempted := false
  abandonedTestScope := false
  outcomes := []
  sealedScopes := []

/-- The number of the active scope. -/
def currentScope (system : CountingSystem) : Option ℕ :=
  system.ledger.activeTestScope.map fun _ => system.scopesBegun

/-- A request comes to a stage, and these outcomes of it are counted. -/
def advance (system : CountingSystem) (index : ℕ) (request : Request) (stage : RequestStage)
    (added : List RequestOutcome) (ledger : BridgeLedger) : CountingSystem :=
  { system with
    ledger := ledger
    requests := system.requests.set index { request with stage := stage }
    outcomes := system.outcomes ++ added.map fun outcome => (request.admittedIn, outcome) }

def record (system : CountingSystem) (index : ℕ) (request : Request) (outcome : RequestOutcome)
    (ledger : BridgeLedger) : CountingSystem :=
  system.advance index request .recorded [outcome] ledger

def reject (system : CountingSystem) (index : ℕ) (request : Request) (kind : RejectionKind)
    (originAttempted : ℕ) : CountingSystem :=
  system.record index request (.rejected kind originAttempted)
    (system.ledger.onCounts (RequestCounts.recordRejection kind))

/-- The bridge has admitted a request. -/
def admitRequest (system : CountingSystem) (ledger : BridgeLedger) : CountingSystem :=
  { system with
    ledger := ledger
    requests := system.requests ++ [⟨system.currentScope, .undispatched⟩] }

/-- The bridge has closed a connection, and counted it. -/
def turnAway (system : CountingSystem) (ledger : BridgeLedger) : CountingSystem :=
  { system with
    ledger := ledger
    outcomes := system.outcomes ++ [(none, .rejected .limit 0)] }

/-- `_finish_admitted_http_request` -/
def finishAdmittedHttpRequest (system : CountingSystem) (index : ℕ) : CountingSystem :=
  { system with
    requests := system.requests.eraseIdx index
    ledger := { system.ledger with
      inflightAdmittedHttpRequestCount := system.ledger.inflightAdmittedHttpRequestCount - 1 } }

/-- `_test_scope_boundary_drained` -/
def testScopeBoundaryDrained (system : CountingSystem) : Bool :=
  system.ledger.pendingAcceptedHttpRequestCount == 0 &&
    system.ledger.inflightAdmittedHttpRequestCount == 0 &&
    system.requests.all fun request =>
      match request.stage with
      | .handling | .forwarding _ _ => false
      | _ => true

/-- What `begin_selected_test_scope` does at a drained boundary. -/
def beginSelectedTestScope (system : CountingSystem) (identity : ScopeIdentity) : CountingSystem :=
  { system with
    scopesBegun := system.scopesBegun + 1
    ledger := { system.ledger with
      acceptGeneration := system.ledger.acceptGeneration + 1
      activeTestScope := some ⟨identity, RequestCounts.zero⟩ } }

/-- What `end_selected_test_scope` does with a new snapshot. -/
def endSelectedTestScope (system : CountingSystem) (snapshot : ReadOnlyRpcTestScopeSnapshot) :
    CountingSystem :=
  { system with
    sealedScopes := system.sealedScopes ++ [(system.scopesBegun, snapshot)]
    ledger := { system.ledger with
      selectedTestScopeSnapshotSha256s :=
        system.ledger.selectedTestScopeSnapshotSha256s ++ [snapshot.snapshotSha256]
      activeTestScope := none
      acceptGeneration := system.ledger.acceptGeneration + 1 } }

/-- The section of `stop` that closes admission. -/
def stop (system : CountingSystem) : CountingSystem :=
  { system with
    stopAttempted := true
    abandonedTestScope := system.ledger.activeTestScope.isSome
    ledger := { system.ledger with
      activeTestScope := none
      admissionClosed := true
      acceptGeneration := system.ledger.acceptGeneration + 1 } }

theorem lawfulBEq_snapshotSha256 : LawfulBEq (List Char) :=
  inferInstance

attribute [local instance] lawfulBEq_snapshotSha256

/-- One section of one thread, when the thread can run it. -/
def perform (config : BridgeConfiguration) (action : CountingAction) (system : CountingSystem) :
    Option CountingSystem :=
  match action with
  | .registerConnection =>
      some { system with ledger := { system.ledger with
        pendingAcceptedHttpRequestCount := system.ledger.pendingAcceptedHttpRequestCount + 1 } }
  | .admitConnection generation =>
      match system.ledger.admitHttpRequest config.maxHttpRequests generation with
      | .error _ => none
      | .ok (ledger, true, _) => some (system.admitRequest ledger)
      | .ok (ledger, false, true) => some { system with ledger := ledger }
      | .ok (ledger, false, false) => some (system.turnAway ledger)
  | .refuseCapacity index =>
      match system.requests[index]? with
      | some ⟨scope, .undispatched⟩ =>
          some (system.reject index ⟨scope, .undispatched⟩ .limit 0)
      | _ => none
  | .dispatch index =>
      match system.requests[index]? with
      | some ⟨scope, .undispatched⟩ =>
          some (system.advance index ⟨scope, .undispatched⟩ .handling [] system.ledger)
      | _ => none
  | .breakOff index =>
      match system.requests[index]? with
      | some ⟨scope, .undispatched⟩ =>
          some (system.record index ⟨scope, .undispatched⟩ .silent system.ledger)
      | some ⟨scope, .handling⟩ =>
          some (system.record index ⟨scope, .handling⟩ .silent system.ledger)
      | _ => none
  | .rejectRequest index kind =>
      match system.requests[index]? with
      | some ⟨scope, .handling⟩ => some (system.reject index ⟨scope, .handling⟩ kind 0)
      | _ => none
  | .permitRequest index payload =>
      match system.requests[index]? with
      | some ⟨scope, .handling⟩ =>
          match config.policy.preparePayload payload with
          | .error kind => some (system.reject index ⟨scope, .handling⟩ kind 0)
          | .ok (prepared, isBatch) =>
              match system.ledger.recordPermitted config.maxRpcCalls prepared
                (RpcPolicy.outboundCalls prepared).length with
              | .error kind => some (system.reject index ⟨scope, .handling⟩ kind 0)
              | .ok ledger =>
                  some (system.advance index ⟨scope, .handling⟩ (.forwarding prepared isBatch) []
                    ledger)
      | _ => none
  | .completeRequest index forward =>
      match system.requests[index]? with
      | some ⟨scope, .forwarding prepared isBatch⟩ =>
          let count := (RpcPolicy.outboundCalls prepared).length
          match config.respond forward prepared isBatch with
          | .error kind =>
              some (system.reject index ⟨scope, .forwarding prepared isBatch⟩ kind count)
          | .ok _ =>
              some (system.record index ⟨scope, .forwarding prepared isBatch⟩ (.validated count)
                (system.ledger.onCounts (RequestCounts.recordOriginValidated count)))
      | _ => none
  | .finishRequest index =>
      match system.requests[index]? with
      | some ⟨_, .recorded⟩ => some (system.finishAdmittedHttpRequest index)
      | _ => none
  | .beginScope identity =>
      if system.stopAttempted = false ∧ identity.isValid = true ∧
          system.ledger.activeTestScope = none ∧ system.testScopeBoundaryDrained = true then
        some (system.beginSelectedTestScope identity)
      else none
  | .endScope identity =>
      match system.ledger.activeTestScope with
      | none => none
      | some scope =>
          if system.stopAttempted = false ∧ scope.identity = identity ∧
              system.testScopeBoundaryDrained = true then
            match config.sealTestScopeSnapshot scope with
            | .error _ => none
            | .ok snapshot =>
                if snapshot.snapshotSha256 ∈ system.ledger.selectedTestScopeSnapshotSha256s then
                  none
                else
                  some (system.endSelectedTestScope snapshot)
          else none
  | .stopBridge =>
      if system.stopAttempted then none else some system.stop

end CountingSystem

end Rpc

end MmAudit
