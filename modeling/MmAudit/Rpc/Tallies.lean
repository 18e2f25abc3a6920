import MmAudit.Library.Threads
import MmAudit.Rpc.Counting

/-!
# What the counters of the read-only RPC bridge say

Each counter is a total over the requests: those that have been counted, and those that
are still on their way.  Counters that are such totals pass the checks of both snapshots,
but for one: the snapshot of the bridge wants an upstream rejection exactly when some call
that was sent on was not validated.
-/

namespace MmAudit

namespace Rpc

open Fallible SortedSets Threads

namespace RequestStage

/-- One for a request that is not counted yet. -/
def uncounted : RequestStage → ℕ
  | .recorded => 0
  | _ => 1

/-- The calls that the request has sent on. -/
def attempted : RequestStage → ℕ
  | .forwarding prepared _ => (RpcPolicy.outboundCalls prepared).length
  | _ => 0

@[simp]
theorem uncounted_recorded : uncounted .recorded = 0 :=
  rfl

@[simp]
theorem attempted_recorded : attempted .recorded = 0 :=
  rfl

end RequestStage

namespace RequestOutcome

def attempted : RequestOutcome → ℕ
  | .silent => 0
  | .rejected _ originAttempted | .validated originAttempted => originAttempted

def validatedCalls : RequestOutcome → ℕ
  | .validated originAttempted => originAttempted
  | _ => 0

/-- One for a rejection of the kind. -/
def rejectedAs (kind : RejectionKind) : RequestOutcome → ℕ
  | .rejected other _ => if other = kind then 1 else 0
  | _ => 0

end RequestOutcome

/-! ## Counters that belong together -/

/-- The counters of permitted calls agree with their log. -/
structure WellCounted (counts : RequestCounts) : Prop where
  permitted : counts.originAttemptedRpcCallCount + counts.syntheticRpcCallCount =
    counts.permittedRpcCallCount
  logged : counts.methodLog.length = counts.permittedRpcCallCount
  methods : ∀ method, counts.allowedMethodCounts.get? method =
    if method ∈ counts.methodLog then some (counts.methodLog.count method) else none

/-- The counters are totals over these requests: the outcomes of those that are counted, and the
stages of those that are on their way. -/
structure Tallied (counts : RequestCounts) (outcomes : List RequestOutcome)
    (stages : List RequestStage) : Prop where
  http : counts.httpRequestCount = outcomes.length + total RequestStage.uncounted stages
  rejections : ∀ kind,
    counts.rejectionCount kind = total (RequestOutcome.rejectedAs kind) outcomes
  attempted : counts.originAttemptedRpcCallCount =
    total RequestOutcome.attempted outcomes + total RequestStage.attempted stages
  validated : counts.originValidatedRpcCallCount = total RequestOutcome.validatedCalls outcomes

theorem wellCounted_zero : WellCounted RequestCounts.zero :=
  ⟨rfl, rfl, fun _ => rfl⟩

theorem tallied_zero : Tallied RequestCounts.zero [] [] :=
  ⟨rfl, fun kind => by cases kind <;> rfl, rfl, rfl⟩

/-- The loop of `_record_permitted` only changes the methods. -/
theorem foldl_countMethod (methods : List RpcMethod) (counts : RequestCounts) :
    (methods.foldl RequestCounts.countMethod counts).toRequestTotals = counts.toRequestTotals ∧
      (methods.foldl RequestCounts.countMethod counts).methodLog = counts.methodLog ++ methods := by
  induction methods generalizing counts with
  | nil => exact ⟨rfl, (List.append_nil _).symm⟩
  | cons method methods ih =>
      obtain ⟨totals, log⟩ := ih (counts.countMethod method)
      refine ⟨totals, log.trans ?_⟩
      simp [RequestCounts.countMethod]

theorem methods_foldl_countMethod (methods : List RpcMethod) (counts : RequestCounts)
    (agree : ∀ method, counts.allowedMethodCounts.get? method =
      if method ∈ counts.methodLog then some (counts.methodLog.count method) else none) :
    ∀ method, (methods.foldl RequestCounts.countMethod counts).allowedMethodCounts.get? method =
      if method ∈ counts.methodLog ++ methods then
        some ((counts.methodLog ++ methods).count method) else none := by
  induction methods generalizing counts with
  | nil => simpa using agree
  | cons first methods ih =>
      have next := ih (counts.countMethod first) (by
        intro method
        rw [RequestCounts.countMethod, Dict.get?_insert]
        by_cases same : method = first
        · subst same
          rw [if_pos rfl, agree]
          by_cases logged : method ∈ counts.methodLog
          · simp [logged]
          · simp [logged, List.count_eq_zero.mpr logged]
        · rw [if_neg same, agree]
          simp [same, Ne.symm same])
      simpa [RequestCounts.countMethod] using next

namespace WellCounted

variable {counts : RequestCounts} (counted : WellCounted counts)

include counted

theorem countHttpRequest : WellCounted counts.countHttpRequest :=
  ⟨counted.permitted, counted.logged, counted.methods⟩

theorem recordOriginValidated (validatedCount : ℕ) :
    WellCounted (counts.recordOriginValidated validatedCount) :=
  ⟨counted.permitted, counted.logged, counted.methods⟩

theorem recordRejection (kind : RejectionKind) : WellCounted (counts.recordRejection kind) := by
  cases kind <;> exact ⟨counted.permitted, counted.logged, counted.methods⟩

theorem recordPermitted {prepared : List PreparedCall} {originAttemptedCount : ℕ}
    (fits : originAttemptedCount ≤ prepared.length) :
    WellCounted (counts.recordPermitted prepared originAttemptedCount) := by
  have permitted := counted.permitted
  have logged := counted.logged
  unfold RequestCounts.recordPermitted
  obtain ⟨totals, log⟩ := foldl_countMethod (prepared.map PreparedCall.method) { counts with
    permittedRpcCallCount := counts.permittedRpcCallCount + prepared.length
    originAttemptedRpcCallCount := counts.originAttemptedRpcCallCount + originAttemptedCount
    syntheticRpcCallCount :=
      counts.syntheticRpcCallCount + (prepared.length - originAttemptedCount) }
  constructor
  · rw [totals]
    dsimp only
    omega
  · rw [totals, log, List.length_append, List.length_map]
    dsimp only
    omega
  · rw [log]
    exact methods_foldl_countMethod _ _ counted.methods

/-- The counts of the methods pass the checks of a snapshot. -/
theorem consistent_methods :
    counts.sortedMethodCounts = sortedBy (fun item => item.1.name.toList)
        counts.sortedMethodCounts ∧
      (counts.sortedMethodCounts.map Prod.fst).Nodup ∧
      (∀ item ∈ counts.sortedMethodCounts, 1 ≤ item.2) ∧
      (counts.sortedMethodCounts.map Prod.snd).sum = counts.permittedRpcCallCount := by
  have perm : counts.sortedMethodCounts.Perm counts.allowedMethodCounts.items :=
    perm_sortedBy _ _
  have each : ∀ item ∈ counts.allowedMethodCounts.items,
      item.1 ∈ counts.methodLog ∧ item.2 = counts.methodLog.count item.1 := by
    intro item member
    have found := (Dict.get?_eq_some_iff _ _ _).mpr member
    rw [counted.methods] at found
    split at found
    · exact ⟨‹_›, (Option.some.inj found).symm⟩
    · cases found
  refine ⟨?_, (perm.map _).nodup_iff.mpr counts.allowedMethodCounts.nodup, ?_, ?_⟩
  · exact (List.Pairwise.insertionSort_eq
      (List.pairwise_map.mp (pairwise_map_sortedBy _ _))).symm
  · intro item member
    obtain ⟨logged, same⟩ := each item (perm.subset member)
    rw [same]
    exact List.count_pos_iff.mpr logged
  · have keys : (counts.allowedMethodCounts.items.map Prod.fst).Perm
        counts.methodLog.dedup := by
      refine (List.perm_ext_iff_of_nodup counts.allowedMethodCounts.nodup
        (List.nodup_dedup _)).mpr fun method => ?_
      rw [List.mem_dedup]
      constructor
      · intro member
        obtain ⟨item, itemMember, rfl⟩ := List.mem_map.mp member
        exact (each item itemMember).1
      · intro logged
        have found := counted.methods method
        rw [if_pos logged] at found
        exact List.mem_map.mpr ⟨_, (Dict.get?_eq_some_iff _ _ _).mp found, rfl⟩
    calc (counts.sortedMethodCounts.map Prod.snd).sum
        = (counts.allowedMethodCounts.items.map Prod.snd).sum := (perm.map _).sum_eq
      _ = ((counts.allowedMethodCounts.items.map Prod.fst).map
            fun method => counts.methodLog.count method).sum := by
          rw [List.map_map]
          exact congrArg List.sum (List.map_congr_left fun item member => (each item member).2)
      _ = (counts.methodLog.dedup.map fun method => counts.methodLog.count method).sum :=
          (keys.map _).sum_eq
      _ = counts.methodLog.length := List.sum_map_count_dedup_eq_length _
      _ = counts.permittedRpcCallCount := counted.logged

end WellCounted

namespace Tallied

variable {counts : RequestCounts} {outcomes : List RequestOutcome} {stages : List RequestStage}
  {index : ℕ} {stage : RequestStage} (tallied : Tallied counts outcomes stages)

include tallied

theorem admitRequest : Tallied counts.countHttpRequest outcomes (stages ++ [.undispatched]) where
  http := by
    have http := tallied.http
    simp only [RequestCounts.countHttpRequest, total_append, total_singleton,
      RequestStage.uncounted]
    omega
  rejections kind := (by cases kind <;> rfl : _ = counts.rejectionCount kind).trans
    (tallied.rejections kind)
  attempted := by
    simpa [RequestCounts.countHttpRequest, RequestStage.attempted] using tallied.attempted
  validated := tallied.validated

theorem turnAway : Tallied (counts.countHttpRequest.recordRejection .limit)
    (outcomes ++ [.rejected .limit 0]) stages where
  http := by
    have http := tallied.http
    simp only [RequestCounts.recordRejection, RequestCounts.countHttpRequest, List.length_append,
      List.length_singleton]
    omega
  rejections kind := by
    have rejections := tallied.rejections kind
    cases kind <;>
      simp_all [RequestCounts.recordRejection, RequestCounts.countHttpRequest,
        RequestTotals.rejectionCount, RequestOutcome.rejectedAs]
  attempted := by
    simpa [RequestCounts.recordRejection, RequestCounts.countHttpRequest,
      RequestOutcome.attempted] using tallied.attempted
  validated := by
    simpa [RequestCounts.recordRejection, RequestCounts.countHttpRequest,
      RequestOutcome.validatedCalls] using tallied.validated

/-- A request moves to a stage of the same measures. -/
theorem move (found : stages[index]? = some stage) {new : RequestStage}
    (uncounted : new.uncounted = stage.uncounted) (calls : new.attempted = stage.attempted) :
    Tallied counts outcomes (stages.set index new) where
  http := by
    have moved := total_set RequestStage.uncounted found new
    have http := tallied.http
    omega
  rejections := tallied.rejections
  attempted := by
    have moved := total_set RequestStage.attempted found new
    have attempted := tallied.attempted
    omega
  validated := tallied.validated

theorem permit (found : stages[index]? = some .handling) (prepared : List PreparedCall)
    (isBatch : Bool) :
    Tallied (counts.recordPermitted prepared (RpcPolicy.outboundCalls prepared).length) outcomes
      (stages.set index (.forwarding prepared isBatch)) := by
  have totals := (foldl_countMethod (prepared.map PreparedCall.method) { counts with
    permittedRpcCallCount := counts.permittedRpcCallCount + prepared.length
    originAttemptedRpcCallCount :=
      counts.originAttemptedRpcCallCount + (RpcPolicy.outboundCalls prepared).length
    syntheticRpcCallCount := counts.syntheticRpcCallCount +
      (prepared.length - (RpcPolicy.outboundCalls prepared).length) }).1
  have unread := total_set RequestStage.uncounted found (.forwarding prepared isBatch)
  have sent := total_set RequestStage.attempted found (.forwarding prepared isBatch)
  simp only [RequestStage.uncounted, RequestStage.attempted] at unread sent
  have http := tallied.http
  have attempted := tallied.attempted
  refine ⟨?_, fun kind => ?_, ?_, ?_⟩
  · rw [RequestCounts.recordPermitted, totals]
    dsimp only
    omega
  · rw [RequestCounts.recordPermitted, totals]
    exact (by cases kind <;> rfl : _ = counts.rejectionCount kind).trans (tallied.rejections kind)
  · rw [RequestCounts.recordPermitted, totals]
    dsimp only
    omega
  · rw [RequestCounts.recordPermitted, totals]
    exact tallied.validated

/-- A request is counted: the counters grow by what its outcome is in each total. -/
theorem record (found : stages[index]? = some stage) (uncounted : stage.uncounted = 1)
    {outcome : RequestOutcome} (calls : outcome.attempted = stage.attempted)
    {after : RequestCounts} (http : after.httpRequestCount = counts.httpRequestCount)
    (attempted : after.originAttemptedRpcCallCount = counts.originAttemptedRpcCallCount)
    (rejections : ∀ kind,
      after.rejectionCount kind = counts.rejectionCount kind + outcome.rejectedAs kind)
    (validated : after.originValidatedRpcCallCount =
      counts.originValidatedRpcCallCount + outcome.validatedCalls) :
    Tallied after (outcomes ++ [outcome]) (stages.set index .recorded) where
  http := by
    have moved := total_set RequestStage.uncounted found .recorded
    have before := tallied.http
    simp only [List.length_append, List.length_singleton, RequestStage.uncounted_recorded] at moved ⊢
    omega
  rejections kind := by
    rw [rejections, total_append, total_singleton, tallied.rejections]
  attempted := by
    have moved := total_set RequestStage.attempted found .recorded
    have before := tallied.attempted
    simp only [total_append, total_singleton, RequestStage.attempted_recorded] at moved ⊢
    omega
  validated := by
    rw [validated, total_append, total_singleton, tallied.validated]

theorem reject (found : stages[index]? = some stage) (uncounted : stage.uncounted = 1)
    (kind : RejectionKind) :
    Tallied (counts.recordRejection kind) (outcomes ++ [.rejected kind stage.attempted])
      (stages.set index .recorded) := by
  refine tallied.record found uncounted rfl ?_ ?_ (fun other => ?_) ?_
  · cases kind <;> rfl
  · cases kind <;> rfl
  · cases kind <;> cases other <;> rfl
  · cases kind <;> rfl

theorem validate (found : stages[index]? = some stage) (uncounted : stage.uncounted = 1) :
    Tallied (counts.recordOriginValidated stage.attempted)
      (outcomes ++ [.validated stage.attempted]) (stages.set index .recorded) :=
  tallied.record found uncounted rfl rfl rfl (fun kind => by cases kind <;> rfl) rfl

theorem breakOff (found : stages[index]? = some stage) (uncounted : stage.uncounted = 1)
    (noCalls : stage.attempted = 0) :
    Tallied counts (outcomes ++ [.silent]) (stages.set index .recorded) :=
  have sameCalls : RequestOutcome.silent.attempted = stage.attempted := noCalls.symm
  tallied.record found uncounted sameCalls rfl rfl (fun kind => by cases kind <;> rfl) rfl

theorem finish (found : stages[index]? = some .recorded) :
    Tallied counts outcomes (stages.eraseIdx index) where
  http := by
    have erased := total_eraseIdx RequestStage.uncounted found
    have http := tallied.http
    simp only [RequestStage.uncounted] at erased
    omega
  rejections := tallied.rejections
  attempted := by
    have erased := total_eraseIdx RequestStage.attempted found
    have attempted := tallied.attempted
    simp only [RequestStage.attempted] at erased
    omega
  validated := tallied.validated

/-- No request is rejected twice. -/
theorem violationCount_le : counts.violationCount ≤ counts.httpRequestCount := by
  have once : ∀ outcome : RequestOutcome, outcome.rejectedAs .denied +
      outcome.rejectedAs .malformed + outcome.rejectedAs .limit + outcome.rejectedAs .upstream ≤
        1 := by
    intro outcome
    cases outcome with
    | rejected kind calls => cases kind <;> simp [RequestOutcome.rejectedAs]
    | _ => simp [RequestOutcome.rejectedAs]
  have bounded : total (RequestOutcome.rejectedAs .denied) outcomes +
      total (RequestOutcome.rejectedAs .malformed) outcomes +
      total (RequestOutcome.rejectedAs .limit) outcomes +
      total (RequestOutcome.rejectedAs .upstream) outcomes ≤ outcomes.length := by
    clear tallied
    induction outcomes with
    | nil => simp
    | cons outcome outcomes ih =>
        have first := once outcome
        simp only [total, List.map_cons, List.sum_cons, List.length_cons] at ih ⊢
        omega
  have denied := tallied.rejections .denied
  have malformed := tallied.rejections .malformed
  have limit := tallied.rejections .limit
  have upstream := tallied.rejections .upstream
  have http := tallied.http
  simp only [RequestTotals.rejectionCount] at denied malformed limit upstream
  rw [RequestTotals.violationCount]
  omega

theorem validated_le : counts.originValidatedRpcCallCount ≤ counts.originAttemptedRpcCallCount := by
  rw [tallied.validated, tallied.attempted]
  refine le_trans (total_le_total fun outcome _ => ?_) (Nat.le_add_right _ _)
  cases outcome <;> simp [RequestOutcome.validatedCalls, RequestOutcome.attempted]

/-- The counters pass the checks of a snapshot. -/
theorem consistentTotals (counted : WellCounted counts) :
    ConsistentTotals counts.toRequestTotals counts.sortedMethodCounts := by
  obtain ⟨ordered, distinct, positive, sum⟩ := counted.consistent_methods
  exact ⟨counted.permitted, tallied.validated_le, ordered, distinct, positive, sum,
    tallied.violationCount_le⟩

end Tallied

/-! ## Sealing -/

namespace BridgeConfiguration

variable (config : BridgeConfiguration)

/-- A snapshot is about these requests. -/
structure Reports (snapshot : ReadOnlyRpcTestScopeSnapshot) (outcomes : List RequestOutcome) :
    Prop where
  http : snapshot.httpRequestCount = outcomes.length
  rejections : ∀ kind, snapshot.rejectionCount kind =
    total (RequestOutcome.rejectedAs kind) outcomes
  attempted : snapshot.originAttemptedRpcCallCount = total RequestOutcome.attempted outcomes
  validated : snapshot.originValidatedRpcCallCount = total RequestOutcome.validatedCalls outcomes
  status : snapshot.status = scopeStatus snapshot.toRequestTotals
  consistent : ConsistentTotals snapshot.toRequestTotals snapshot.allowedMethodCounts

/-- A scope whose requests are all counted can be sealed. -/
theorem exists_sealTestScopeSnapshot {scope : ScopeAccumulator} {outcomes : List RequestOutcome}
    (valid : scope.identity.isValid = true) (counted : WellCounted scope.counts)
    (tallied : Tallied scope.counts outcomes []) :
    ∃ snapshot, config.sealTestScopeSnapshot scope = .ok snapshot ∧
      snapshot.identity = scope.identity ∧ isSha256 snapshot.snapshotSha256 = true ∧
      Reports snapshot outcomes := by
  have totals := tallied.consistentTotals counted
  have consistent : ((config.scopeSnapshot scope).withHash config.canonicalSha256).IsConsistent :=
    ⟨rfl, valid, config.policyDigest, config.digests _, config.digests _, config.chainIdBound.1,
      config.chainIdBound.2, config.blockNumberBound, config.policy.hashIsWord, totals, rfl, rfl⟩
  exact ⟨_, ReadOnlyRpcTestScopeSnapshot.postInit_withHash consistent, rfl, config.digests _,
    tallied.http, tallied.rejections, tallied.attempted, tallied.validated, rfl, totals⟩

/-- The snapshot of the bridge is accepted exactly when the two signs of upstream failures agree. -/
theorem exists_snapshot_iff {ledger : BridgeLedger} {outcomes : List RequestOutcome}
    {stages : List RequestStage} (counted : WellCounted ledger.counts)
    (tallied : Tallied ledger.counts outcomes stages)
    (digests : ∀ digest ∈ ledger.selectedTestScopeSnapshotSha256s, isSha256 digest = true)
    (distinct : ledger.selectedTestScopeSnapshotSha256s.Nodup) :
    (∃ snapshot, config.snapshot ledger = .ok snapshot) ↔
      (ledger.counts.originValidatedRpcCallCount = ledger.counts.originAttemptedRpcCallCount ↔
        ledger.counts.upstreamErrorRequestCount = 0) := by
  have totals := tallied.consistentTotals counted
  have status : ((config.bridgeSnapshot ledger).status = .violation ↔
      ledger.counts.violationCount ≠ 0) := by
    unfold bridgeSnapshot
    split <;> simp_all
  rw [snapshot, ReadOnlyRpcBridgeSnapshot.postInit_withHash_iff]
  constructor
  · rintro ⟨-, -, -, -, -, -, -, -, -, -, -, -, -, -, agree, -⟩
    exact agree
  · intro agree
    exact ⟨rfl, config.policyDigest, config.observationDigest, config.observationDigest,
      config.digests _, config.digests _, digests, distinct, config.chainIdBound.1,
      config.chainIdBound.2, config.blockNumberBound, config.policy.hashIsWord, rfl, rfl, agree,
      totals, status, rfl⟩

/-- Permitted calls are only rejected as upstream errors. -/
theorem respond_eq_error {forward : Json → Option Json} {prepared : List PreparedCall}
    {isBatch : Bool} {kind : RejectionKind}
    (failed : config.respond forward prepared isBatch = .error kind) : kind = .upstream := by
  refine (?_ : RpcPolicy.BlamesUpstream (config.respond forward prepared isBatch)) kind failed
  unfold respond
  have forwarded : RpcPolicy.BlamesUpstream (config.policy.upstreamResponses
      (fun sent => (forward sent).elim (.error .upstream) .ok)
      (RpcPolicy.outboundCalls prepared) isBatch) := by
    unfold RpcPolicy.upstreamResponses
    split
    · exact RpcPolicy.blamesUpstream_ok _
    · refine RpcPolicy.BlamesUpstream.bind ?_ fun response =>
        config.policy.blamesUpstream_validateUpstreamResponses response _ _
      dsimp only
      generalize forward _ = sent
      cases sent with
      | none => exact RpcPolicy.blamesUpstream_error
      | some response => exact RpcPolicy.blamesUpstream_ok _
  have entries : ∀ (upstream : Dict RpcId Json) (calls : List PreparedCall),
      RpcPolicy.BlamesUpstream (calls.mapM (RpcPolicy.combineResponse upstream)) := by
    intro upstream calls
    induction calls with
    | nil => exact RpcPolicy.blamesUpstream_ok _
    | cons call calls ih =>
        rw [List.mapM_cons]
        refine RpcPolicy.BlamesUpstream.bind ?_ fun entry =>
          ih.bind fun rest => RpcPolicy.blamesUpstream_ok _
        unfold RpcPolicy.combineResponse
        split
        · exact RpcPolicy.blamesUpstream_ok _
        · split
          · exact RpcPolicy.blamesUpstream_ok _
          · exact RpcPolicy.blamesUpstream_error
  refine forwarded.bind fun upstream => RpcPolicy.BlamesUpstream.bind ?_ fun response =>
    (RpcPolicy.blamesUpstream_raiseIf _).bind fun _ => RpcPolicy.blamesUpstream_ok _
  unfold RpcPolicy.combineResponses
  refine (entries upstream prepared).bind fun combined => ?_
  split
  · exact RpcPolicy.blamesUpstream_ok _
  · split
    · exact RpcPolicy.blamesUpstream_ok _
    · exact RpcPolicy.blamesUpstream_error

end BridgeConfiguration

end Rpc

end MmAudit
