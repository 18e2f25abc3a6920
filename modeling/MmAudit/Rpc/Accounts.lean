import MmAudit.Library.Runs
import MmAudit.Rpc.Tallies

/-!
# What becomes of the requests of the read-only RPC bridge

A scope begins and ends only while no request is on its way, so all of a request is counted
in the scope that it was admitted in, and in no other.  A scope can therefore always be
sealed, and its snapshot reports its own requests.

The bridge itself can be sealed unless there were upstream rejections and all of them were
of requests that had sent nothing on: an answer of the bridge's own that exceeds the limit
of response bodies is rejected so.
-/

namespace MmAudit

namespace Rpc

open Fallible Runs SortedSets Threads

/-! ## Every state of a running bridge -/

namespace CountingSystem

/-- The outcomes of the requests that were admitted in a scope. -/
def inScope (number : ℕ) (outcomes : List (Option ℕ × RequestOutcome)) : List RequestOutcome :=
  (outcomes.filter (·.1 = some number)).map Prod.snd

/-- The stages of the requests on their way. -/
def stages (system : CountingSystem) : List RequestStage :=
  system.requests.map Request.stage

theorem inScope_append (number : ℕ) (outcomes : List (Option ℕ × RequestOutcome))
    (added : List RequestOutcome) :
    inScope number (outcomes ++ added.map fun outcome => (some number, outcome)) =
      inScope number outcomes ++ added := by
  simp [inScope, List.filter_map, Function.comp_def]

theorem inScope_append_other {number : ℕ} {scope : Option ℕ} (other : scope ≠ some number)
    (outcomes : List (Option ℕ × RequestOutcome)) (added : List RequestOutcome) :
    inScope number (outcomes ++ added.map fun outcome => (scope, outcome)) =
      inScope number outcomes := by
  simp [inScope, List.filter_map, Function.comp_def, other]

theorem mem_inScope_iff {number : ℕ} {outcomes : List (Option ℕ × RequestOutcome)}
    {outcome : RequestOutcome} :
    outcome ∈ inScope number outcomes ↔ (some number, outcome) ∈ outcomes := by
  simp [inScope]

theorem inScope_eq_nil {number : ℕ} {outcomes : List (Option ℕ × RequestOutcome)}
    (other : ∀ item ∈ outcomes, item.1 ≠ some number) : inScope number outcomes = [] := by
  simpa [inScope] using fun scope outcome member same => other _ member same

/-- What holds in every state. -/
structure Accounted (system : CountingSystem) : Prop where
  counted : WellCounted system.ledger.counts
  tallied : Tallied system.ledger.counts (system.outcomes.map Prod.snd) system.stages
  inflight : system.ledger.inflightAdmittedHttpRequestCount = system.requests.length
  /-- calls that were sent on and failed were an upstream error -/
  blamed : ∀ item ∈ system.outcomes, ∀ kind calls, item.2 = .rejected kind calls → calls ≠ 0 →
    kind = .upstream
  stopped : system.stopAttempted = true → system.ledger.activeTestScope = none
  current : system.stopAttempted = false →
    ∀ request ∈ system.requests, request.admittedIn = system.currentScope
  numbered : ∀ scope ∈ system.outcomes.map Prod.fst ++ system.requests.map Request.admittedIn,
    ∀ number, scope = some number → number ≤ system.scopesBegun
  active : ∀ scope, system.ledger.activeTestScope = some scope →
    scope.identity.isValid = true ∧ WellCounted scope.counts ∧
      Tallied scope.counts (inScope system.scopesBegun system.outcomes) system.stages
  closed : ∀ item ∈ system.sealedScopes, item.1 ≤ system.scopesBegun ∧
    system.currentScope ≠ some item.1 ∧
    (∀ request ∈ system.requests, request.admittedIn ≠ some item.1) ∧
    BridgeConfiguration.Reports item.2 (inScope item.1 system.outcomes)
  distinct : (system.sealedScopes.map Prod.fst).Nodup
  digests : ∀ digest ∈ system.ledger.selectedTestScopeSnapshotSha256s, isSha256 digest = true
  distinctDigests : system.ledger.selectedTestScopeSnapshotSha256s.Nodup

theorem accounted_started : Accounted started where
  counted := wellCounted_zero
  tallied := tallied_zero
  inflight := rfl
  blamed _ member := nomatch member
  stopped impossible := nomatch impossible
  current _ _ member := nomatch member
  numbered _ member := nomatch member
  active _ impossible := nomatch impossible
  closed _ member := nomatch member
  distinct := List.nodup_nil
  digests _ member := nomatch member
  distinctDigests := List.nodup_nil

theorem currentScope_onCounts (system : CountingSystem) (change : RequestCounts → RequestCounts) :
    ((system.ledger.onCounts change).activeTestScope.map fun _ => system.scopesBegun) =
      system.currentScope := by
  rw [BridgeLedger.onCounts, Option.map_map]
  rfl

theorem stages_advance (system : CountingSystem) (index : ℕ) (request : Request)
    (stage : RequestStage) (added : List RequestOutcome) (ledger : BridgeLedger) :
    (system.advance index request stage added ledger).stages = system.stages.set index stage :=
  List.map_set

theorem stages_admitRequest (system : CountingSystem) (ledger : BridgeLedger) :
    (system.admitRequest ledger).stages = system.stages ++ [.undispatched] :=
  List.map_append

theorem currentScope_advance (system : CountingSystem) (index : ℕ) (request : Request)
    (stage : RequestStage) (added : List RequestOutcome) (change : RequestCounts → RequestCounts) :
    (system.advance index request stage added (system.ledger.onCounts change)).currentScope =
      system.currentScope :=
  system.currentScope_onCounts change

theorem inScope_advance (system : CountingSystem) {index : ℕ} {request : Request} {number : ℕ}
    (same : request.admittedIn = some number) (stage : RequestStage)
    (added : List RequestOutcome) (ledger : BridgeLedger) :
    inScope number (system.advance index request stage added ledger).outcomes =
      inScope number system.outcomes ++ added := by
  rw [advance, same]
  exact inScope_append number system.outcomes added

theorem inScope_advance_other (system : CountingSystem) {index : ℕ} {request : Request}
    {number : ℕ} (other : request.admittedIn ≠ some number) (stage : RequestStage)
    (added : List RequestOutcome) (ledger : BridgeLedger) :
    inScope number (system.advance index request stage added ledger).outcomes =
      inScope number system.outcomes :=
  inScope_append_other other system.outcomes added

namespace Accounted

variable {system : CountingSystem} (accounted : Accounted system)

include accounted

/-- While a scope is active all requests on their way belong to it. -/
theorem admittedIn_of_active {scope : ScopeAccumulator}
    (isActive : system.ledger.activeTestScope = some scope) {request : Request}
    (member : request ∈ system.requests) : request.admittedIn = some system.scopesBegun := by
  have running : system.stopAttempted = false := by
    cases stopped : system.stopAttempted with
    | false => rfl
    | true => cases (accounted.stopped stopped).symm.trans isActive
  rw [accounted.current running request member, currentScope, isActive]
  rfl

/-- A request takes a step: the counters change, here and in the active scope, as the totals do. -/
theorem advance {index : ℕ} {request : Request} {stage : RequestStage}
    (found : system.requests[index]? = some request) (added : List RequestOutcome)
    (change : RequestCounts → RequestCounts)
    (keeps : ∀ counts, WellCounted counts → WellCounted (change counts))
    (totals : ∀ counts outcomes, Tallied counts outcomes system.stages →
      Tallied (change counts) (outcomes ++ added) (system.stages.set index stage))
    (blames : ∀ kind calls, .rejected kind calls ∈ added → calls ≠ 0 → kind = .upstream) :
    Accounted (system.advance index request stage added (system.ledger.onCounts change)) := by
  have member := List.mem_of_getElem? found
  have ofRequest : ∀ number, request.admittedIn = some number → number ≤ system.scopesBegun :=
    accounted.numbered _ (List.mem_append_right _ (List.mem_map_of_mem member))
  constructor
  case counted => exact keeps _ accounted.counted
  case tallied =>
    have sameOutcomes : (system.outcomes ++ added.map fun outcome =>
        (request.admittedIn, outcome)).map Prod.snd = system.outcomes.map Prod.snd ++ added := by
      simp [Function.comp_def]
    rw [stages_advance]
    exact sameOutcomes ▸ totals _ _ accounted.tallied
  case inflight => exact accounted.inflight.trans List.length_set.symm
  case blamed =>
    intro item itemMember kind calls rejected
    rcases List.mem_append.mp itemMember with old | new
    · exact accounted.blamed item old kind calls rejected
    · obtain ⟨outcome, isAdded, rfl⟩ := List.mem_map.mp new
      exact blames kind calls (rejected ▸ isAdded)
  case stopped => exact fun stopped => congrArg (Option.map _) (accounted.stopped stopped)
  case current =>
    intro running
    rw [currentScope_advance]
    exact forall_set (accounted.current running) (accounted.current running request member)
  case numbered =>
    intro scope scopeMember
    rcases List.mem_append.mp scopeMember with counted | onTheirWay
    · obtain ⟨item, itemMember, rfl⟩ := List.mem_map.mp counted
      rcases List.mem_append.mp itemMember with old | new
      · exact accounted.numbered _ (List.mem_append_left _ (List.mem_map_of_mem old))
      · obtain ⟨_, -, rfl⟩ := List.mem_map.mp new
        exact ofRequest
    · obtain ⟨other, otherMember, rfl⟩ := List.mem_map.mp onTheirWay
      rcases List.mem_or_eq_of_mem_set otherMember with old | rfl
      · exact accounted.numbered _ (List.mem_append_right _ (List.mem_map_of_mem old))
      · exact ofRequest
  case active =>
    intro scope isActive
    obtain ⟨old, oldActive, rfl⟩ := Option.map_eq_some_iff.mp isActive
    obtain ⟨valid, counted, tallied⟩ := accounted.active old oldActive
    refine ⟨valid, keeps _ counted, ?_⟩
    have ofScope := accounted.admittedIn_of_active oldActive member
    rw [stages_advance]
    exact inScope_advance system ofScope stage added _ ▸ totals _ _ tallied
  case closed =>
    intro item itemMember
    obtain ⟨bounded, notCurrent, notAdmitted, reports⟩ := accounted.closed item itemMember
    have other := notAdmitted request member
    rw [currentScope_advance, inScope_advance_other system other]
    exact ⟨bounded, notCurrent, forall_set notAdmitted other, reports⟩
  case distinct => exact accounted.distinct
  case digests => exact accounted.digests
  case distinctDigests => exact accounted.distinctDigests

theorem reject {index : ℕ} {request : Request}
    (found : system.requests[index]? = some request) (uncounted : request.stage.uncounted = 1)
    (kind : RejectionKind) (blames : request.stage.attempted ≠ 0 → kind = .upstream) :
    Accounted (system.reject index request kind request.stage.attempted) := by
  have atStage : system.stages[index]? = some request.stage := by
    rw [stages, List.getElem?_map, found]
    rfl
  refine accounted.advance found [.rejected kind request.stage.attempted] _
    (fun _ counted => counted.recordRejection kind)
    (fun _ _ tallied => tallied.reject atStage uncounted kind) ?_
  intro other calls isAdded some_
  cases List.mem_singleton.mp isAdded
  exact blames some_

/-- What becomes of a request does not matter once it is finished. -/
theorem finish {index : ℕ} {scope : Option ℕ}
    (found : system.requests[index]? = some ⟨scope, .recorded⟩) :
    Accounted (system.finishAdmittedHttpRequest index) := by
  obtain ⟨inside, -⟩ := List.getElem?_eq_some_iff.mp found
  have atStage : system.stages[index]? = some .recorded := by
    rw [stages, List.getElem?_map, found]
    rfl
  have sameStages : (system.finishAdmittedHttpRequest index).stages =
      system.stages.eraseIdx index :=
    (List.eraseIdx_map ..).symm
  constructor
  case counted => exact accounted.counted
  case tallied => exact sameStages ▸ accounted.tallied.finish atStage
  case inflight =>
    rw [finishAdmittedHttpRequest, List.length_eraseIdx_of_lt inside, accounted.inflight]
  case blamed => exact accounted.blamed
  case stopped => exact accounted.stopped
  case current => exact fun running => forall_eraseIdx (accounted.current running)
  case numbered =>
    intro scope member
    refine accounted.numbered scope ?_
    rcases List.mem_append.mp member with counted | onTheirWay
    · exact List.mem_append_left _ counted
    · obtain ⟨request, requestMember, rfl⟩ := List.mem_map.mp onTheirWay
      exact List.mem_append_right _
        (List.mem_map_of_mem (List.mem_of_mem_eraseIdx requestMember))
  case active =>
    intro scope isActive
    obtain ⟨valid, counted, tallied⟩ := accounted.active scope isActive
    exact ⟨valid, counted, sameStages ▸ tallied.finish atStage⟩
  case closed =>
    intro item member
    obtain ⟨bounded, notCurrent, notAdmitted, reports⟩ := accounted.closed item member
    exact ⟨bounded, notCurrent, forall_eraseIdx notAdmitted, reports⟩
  case distinct => exact accounted.distinct
  case digests => exact accounted.digests
  case distinctDigests => exact accounted.distinctDigests

/-- At a drained boundary no request is on its way. -/
theorem requests_eq_nil (drained : system.testScopeBoundaryDrained = true) :
    system.requests = [] := by
  rw [testScopeBoundaryDrained, Bool.and_eq_true, Bool.and_eq_true, beq_iff_eq, beq_iff_eq]
    at drained
  exact List.eq_nil_of_length_eq_zero (accounted.inflight.symm.trans drained.1.2)

end Accounted

/-- What `_admit_http_request` does to the state. -/
theorem admitHttpRequest_cases {maxHttpRequests generation : ℕ} {ledger next : BridgeLedger}
    {admitted saturated : Bool}
    (answer : ledger.admitHttpRequest maxHttpRequests generation = .ok (next, admitted, saturated)) :
    ∃ pending, (admitted = false ∧ saturated = false ∧ next = { ledger with
          pendingAcceptedHttpRequestCount := pending
          counts := ledger.counts.countHttpRequest.recordRejection .limit }) ∨
      (admitted = false ∧ saturated = true ∧
        next = { ledger with pendingAcceptedHttpRequestCount := pending }) ∨
      (admitted = true ∧ next = { ledger.onCounts RequestCounts.countHttpRequest with
          pendingAcceptedHttpRequestCount := pending
          inflightAdmittedHttpRequestCount := ledger.inflightAdmittedHttpRequestCount + 1
          httpAdmissionSaturated := saturated }) := by
  unfold BridgeLedger.admitHttpRequest at answer
  rw [raiseIf_bind_eq_ok_iff] at answer
  obtain ⟨-, answer⟩ := answer
  dsimp only at answer
  split at answer
  · cases answer
    exact ⟨_, .inl ⟨rfl, rfl, rfl⟩⟩
  · split at answer
    · cases answer
      exact ⟨_, .inr (.inl ⟨rfl, rfl, rfl⟩)⟩
    · cases answer
      exact ⟨_, .inr (.inr ⟨rfl, rfl⟩)⟩

namespace Accounted

variable {system : CountingSystem} (accounted : Accounted system)

include accounted

/-- Counts of connections that are not admitted yet do not matter. -/
theorem registered (pending : ℕ) : Accounted { system with
    ledger := { system.ledger with pendingAcceptedHttpRequestCount := pending } } :=
  ⟨accounted.counted, accounted.tallied, accounted.inflight, accounted.blamed, accounted.stopped,
    accounted.current, accounted.numbered, accounted.active, accounted.closed, accounted.distinct,
    accounted.digests, accounted.distinctDigests⟩

/-- A connection of an old generation is counted without any scope. -/
theorem turnAway (pending : ℕ) : Accounted (system.turnAway { system.ledger with
    pendingAcceptedHttpRequestCount := pending
    counts := system.ledger.counts.countHttpRequest.recordRejection .limit }) := by
  have unscoped : ∀ number, inScope number (system.outcomes ++ [(none, .rejected .limit 0)]) =
      inScope number system.outcomes :=
    fun number => inScope_append_other (Option.some_ne_none number).symm _ [.rejected .limit 0]
  constructor
  case counted => exact accounted.counted.countHttpRequest.recordRejection .limit
  case tallied =>
    have sameOutcomes : (system.outcomes ++ [(none, RequestOutcome.rejected .limit 0)]).map
        Prod.snd = system.outcomes.map Prod.snd ++ [.rejected .limit 0] := List.map_append
    exact sameOutcomes ▸ accounted.tallied.turnAway
  case inflight => exact accounted.inflight
  case blamed =>
    intro item member kind calls rejected some_
    rcases List.mem_append.mp member with old | new
    · exact accounted.blamed item old kind calls rejected some_
    · cases List.mem_singleton.mp new
      cases rejected
      exact absurd rfl some_
  case stopped => exact accounted.stopped
  case current => exact accounted.current
  case numbered =>
    intro scope member number same
    refine accounted.numbered scope ?_ number same
    rcases List.mem_append.mp member with counted | onTheirWay
    · obtain ⟨item, itemMember, rfl⟩ := List.mem_map.mp counted
      rcases List.mem_append.mp itemMember with old | new
      · exact List.mem_append_left _ (List.mem_map_of_mem old)
      · cases List.mem_singleton.mp new
        cases same
    · exact List.mem_append_right _ onTheirWay
  case active =>
    intro scope isActive
    obtain ⟨valid, counted, tallied⟩ := accounted.active scope isActive
    exact ⟨valid, counted, unscoped system.scopesBegun ▸ tallied⟩
  case closed =>
    intro item member
    obtain ⟨bounded, notCurrent, notAdmitted, reports⟩ := accounted.closed item member
    exact ⟨bounded, notCurrent, notAdmitted, unscoped item.1 ▸ reports⟩
  case distinct => exact accounted.distinct
  case digests => exact accounted.digests
  case distinctDigests => exact accounted.distinctDigests

/-- An admitted request is counted in the active scope, and belongs to it. -/
theorem admitRequest (pending : ℕ) (saturated : Bool) :
    Accounted (system.admitRequest { system.ledger.onCounts RequestCounts.countHttpRequest with
      pendingAcceptedHttpRequestCount := pending
      inflightAdmittedHttpRequestCount := system.ledger.inflightAdmittedHttpRequestCount + 1
      httpAdmissionSaturated := saturated }) := by
  have sameCurrent := currentScope_onCounts system RequestCounts.countHttpRequest
  constructor
  case counted => exact accounted.counted.countHttpRequest
  case tallied =>
    rw [stages_admitRequest]
    exact accounted.tallied.admitRequest
  case inflight =>
    rw [CountingSystem.admitRequest, List.length_append, List.length_singleton, accounted.inflight]
  case blamed => exact accounted.blamed
  case stopped => exact fun stopped => congrArg (Option.map _) (accounted.stopped stopped)
  case current =>
    intro running request member
    refine Eq.trans ?_ sameCurrent.symm
    rcases List.mem_append.mp member with old | new
    · exact accounted.current running request old
    · exact congrArg Request.admittedIn (List.mem_singleton.mp new)
  case numbered =>
    intro scope member number same
    rcases List.mem_append.mp member with counted | onTheirWay
    · exact accounted.numbered scope (List.mem_append_left _ counted) number same
    · obtain ⟨request, requestMember, rfl⟩ := List.mem_map.mp onTheirWay
      rcases List.mem_append.mp requestMember with old | new
      · exact accounted.numbered _ (List.mem_append_right _ (List.mem_map_of_mem old)) number same
      · rw [List.mem_singleton.mp new] at same
        obtain ⟨_, -, isCurrent⟩ := Option.map_eq_some_iff.mp same
        exact isCurrent.ge
  case active =>
    intro scope isActive
    obtain ⟨old, oldActive, rfl⟩ := Option.map_eq_some_iff.mp isActive
    obtain ⟨valid, counted, tallied⟩ := accounted.active old oldActive
    rw [stages_admitRequest]
    exact ⟨valid, counted.countHttpRequest, tallied.admitRequest⟩
  case closed =>
    intro item member
    obtain ⟨bounded, notCurrent, notAdmitted, reports⟩ := accounted.closed item member
    refine ⟨bounded, fun same => notCurrent (sameCurrent.symm.trans same), ?_, reports⟩
    intro request requestMember
    rcases List.mem_append.mp requestMember with old | new
    · exact notAdmitted request old
    · rw [List.mem_singleton.mp new]
      exact notCurrent
  case distinct => exact accounted.distinct
  case digests => exact accounted.digests
  case distinctDigests => exact accounted.distinctDigests

/-- A scope begins with no request on its way. -/
theorem beginSelectedTestScope {identity : ScopeIdentity} (valid : identity.isValid = true)
    (running : system.stopAttempted = false)
    (drained : system.testScopeBoundaryDrained = true) :
    Accounted (system.beginSelectedTestScope identity) := by
  have drainedRequests := accounted.requests_eq_nil drained
  constructor
  case counted => exact accounted.counted
  case tallied => exact accounted.tallied
  case inflight => exact accounted.inflight
  case blamed => exact accounted.blamed
  case stopped => exact fun stopped => nomatch running.symm.trans stopped
  case current =>
    intro _ request member
    cases drainedRequests ▸ member
  case numbered =>
    intro scope member number same
    exact (accounted.numbered scope member number same).trans (Nat.le_succ _)
  case active =>
    intro scope isActive
    obtain rfl := Option.some.inj isActive
    have fresh : inScope (system.scopesBegun + 1) system.outcomes = [] := by
      refine inScope_eq_nil fun item member same => ?_
      have bounded := accounted.numbered _
        (List.mem_append_left _ (List.mem_map_of_mem member)) _ same
      omega
    have noStages : system.stages = [] := congrArg (List.map Request.stage) drainedRequests
    refine ⟨valid, wellCounted_zero, ?_⟩
    exact fresh ▸ noStages ▸ tallied_zero
  case closed =>
    intro item member
    obtain ⟨bounded, -, notAdmitted, reports⟩ := accounted.closed item member
    refine ⟨bounded.trans (Nat.le_succ _), fun same => ?_, notAdmitted, reports⟩
    have number : system.scopesBegun + 1 = item.1 := Option.some.inj same
    omega
  case distinct => exact accounted.distinct
  case digests => exact accounted.digests
  case distinctDigests => exact accounted.distinctDigests

/-- A scope that ends reports the requests that were admitted in it. -/
theorem endSelectedTestScope {scope : ScopeAccumulator} {snapshot : ReadOnlyRpcTestScopeSnapshot}
    (isActive : system.ledger.activeTestScope = some scope)
    (drained : system.testScopeBoundaryDrained = true)
    (reports : BridgeConfiguration.Reports snapshot (inScope system.scopesBegun system.outcomes))
    (digest : isSha256 snapshot.snapshotSha256 = true)
    (isNew : snapshot.snapshotSha256 ∉ system.ledger.selectedTestScopeSnapshotSha256s) :
    Accounted (system.endSelectedTestScope snapshot) := by
  have drainedRequests := accounted.requests_eq_nil drained
  have isCurrent : system.currentScope = some system.scopesBegun :=
    congrArg (Option.map fun _ => system.scopesBegun) isActive
  constructor
  case counted => exact accounted.counted
  case tallied => exact accounted.tallied
  case inflight => exact accounted.inflight
  case blamed => exact accounted.blamed
  case stopped => exact fun _ => rfl
  case current =>
    intro _ request member
    cases drainedRequests ▸ member
  case numbered => exact accounted.numbered
  case active => exact fun _ impossible => nomatch impossible
  case closed =>
    intro item member
    rcases List.mem_append.mp member with old | new
    · obtain ⟨bounded, -, notAdmitted, oldReports⟩ := accounted.closed item old
      exact ⟨bounded, (nomatch ·), notAdmitted, oldReports⟩
    · cases List.mem_singleton.mp new
      refine ⟨le_refl _, (nomatch ·), fun request requestMember => ?_, reports⟩
      cases drainedRequests ▸ requestMember
  case distinct =>
    rw [CountingSystem.endSelectedTestScope, List.map_append, List.nodup_append]
    refine ⟨accounted.distinct, List.nodup_singleton _, ?_⟩
    intro number old other new same
    obtain ⟨item, member, rfl⟩ := List.mem_map.mp old
    have isOther : item.1 = system.scopesBegun := same.trans (List.mem_singleton.mp new)
    exact (accounted.closed item member).2.1 (isCurrent.trans (congrArg some isOther.symm))
  case digests =>
    intro other member
    rcases List.mem_append.mp member with old | new
    · exact accounted.digests other old
    · exact List.mem_singleton.mp new ▸ digest
  case distinctDigests =>
    rw [CountingSystem.endSelectedTestScope, List.nodup_append]
    refine ⟨accounted.distinctDigests, List.nodup_singleton _, ?_⟩
    intro old oldMember new newMember same
    exact isNew (List.mem_singleton.mp newMember ▸ same ▸ oldMember)

theorem stop : Accounted system.stop where
  counted := accounted.counted
  tallied := accounted.tallied
  inflight := accounted.inflight
  blamed := accounted.blamed
  stopped _ := rfl
  current running := nomatch running
  numbered := accounted.numbered
  active _ impossible := nomatch impossible
  closed item member := by
    obtain ⟨bounded, -, notAdmitted, reports⟩ := accounted.closed item member
    exact ⟨bounded, (nomatch ·), notAdmitted, reports⟩
  distinct := accounted.distinct
  digests := accounted.digests
  distinctDigests := accounted.distinctDigests

end Accounted

theorem onCounts_id (ledger : BridgeLedger) : ledger.onCounts id = ledger := by
  simp [BridgeLedger.onCounts]

/-- The stage of a request that was found. -/
theorem stages_getElem? {system : CountingSystem} {index : ℕ} {request : Request}
    (found : system.requests[index]? = some request) :
    system.stages[index]? = some request.stage := by
  rw [stages, List.getElem?_map, found]
  rfl

/-- A step that no counter sees. -/
theorem Accounted.move {system : CountingSystem} (accounted : Accounted system) {index : ℕ}
    {request : Request} (found : system.requests[index]? = some request) {stage : RequestStage}
    (added : List RequestOutcome)
    (totals : ∀ counts outcomes, Tallied counts outcomes system.stages →
      Tallied counts (outcomes ++ added) (system.stages.set index stage))
    (silent : ∀ outcome ∈ added, outcome = .silent) :
    Accounted (system.advance index request stage added system.ledger) := by
  have moved := accounted.advance found added id (fun _ counted => counted) totals
    fun kind calls isAdded _ => nomatch silent _ isAdded
  rwa [onCounts_id] at moved

theorem Accounted.breakOff {system : CountingSystem} (accounted : Accounted system) {index : ℕ}
    {request : Request} (found : system.requests[index]? = some request)
    (uncounted : request.stage.uncounted = 1) (noCalls : request.stage.attempted = 0) :
    Accounted (system.record index request .silent system.ledger) :=
  accounted.move found [.silent]
    (fun _ _ tallied => tallied.breakOff (stages_getElem? found) uncounted noCalls)
    fun _ isAdded => List.mem_singleton.mp isAdded

/-- The calls that are permitted are counted, and those that are sent on among them. -/
theorem Accounted.permit {system : CountingSystem} (accounted : Accounted system) {index : ℕ}
    {scope : Option ℕ} (found : system.requests[index]? = some ⟨scope, .handling⟩)
    (prepared : List PreparedCall) (isBatch : Bool) :
    Accounted (system.advance index ⟨scope, .handling⟩ (.forwarding prepared isBatch) []
      (system.ledger.onCounts (RequestCounts.recordPermitted prepared
        (RpcPolicy.outboundCalls prepared).length))) := by
  refine accounted.advance found [] _
    (fun _ counted => counted.recordPermitted (List.length_filter_le _ _)) ?_
    (fun _ _ isAdded _ => nomatch isAdded)
  intro counts outcomes tallied
  rw [List.append_nil]
  exact tallied.permit (stages_getElem? found) prepared isBatch

theorem Accounted.validate {system : CountingSystem} (accounted : Accounted system) {index : ℕ}
    {request : Request} (found : system.requests[index]? = some request)
    (uncounted : request.stage.uncounted = 1) :
    Accounted (system.record index request (.validated request.stage.attempted)
      (system.ledger.onCounts (RequestCounts.recordOriginValidated request.stage.attempted))) :=
  accounted.advance found [.validated request.stage.attempted] _
    (fun _ counted => counted.recordOriginValidated _)
    (fun _ _ tallied => tallied.validate (stages_getElem? found) uncounted)
    fun kind calls isAdded _ => by cases List.mem_singleton.mp isAdded

/-- Every step keeps what holds in every state. -/
theorem Accounted.step {config : BridgeConfiguration} {action : CountingAction}
    {system next : CountingSystem} (taken : perform config action system = some next)
    (accounted : Accounted system) : Accounted next := by
  cases action with
  | registerConnection =>
      cases taken
      exact accounted.registered _
  | admitConnection generation =>
      simp only [perform] at taken
      split at taken
      · cases taken
      all_goals
        rename_i answer
        cases taken
        obtain ⟨pending, ⟨isAdmitted, isSaturated, rfl⟩ | ⟨isAdmitted, isSaturated, rfl⟩ |
          ⟨isAdmitted, rfl⟩⟩ := admitHttpRequest_cases answer
      all_goals try cases isAdmitted
      all_goals try cases isSaturated
      · exact accounted.admitRequest pending _
      · exact accounted.registered pending
      · exact accounted.turnAway pending
  | refuseCapacity index =>
      simp only [perform] at taken
      split at taken
      · rename_i scope found
        cases taken
        exact accounted.reject found rfl .limit (absurd rfl)
      · cases taken
  | dispatch index =>
      simp only [perform] at taken
      split at taken
      · rename_i scope found
        cases taken
        refine accounted.move found [] (fun counts outcomes tallied => ?_)
          (fun _ isAdded => nomatch isAdded)
        rw [List.append_nil]
        exact tallied.move (stages_getElem? found) rfl rfl
      · cases taken
  | breakOff index =>
      simp only [perform] at taken
      split at taken
      · rename_i scope found
        cases taken
        exact accounted.breakOff found rfl rfl
      · rename_i scope found
        cases taken
        exact accounted.breakOff found rfl rfl
      · cases taken
  | rejectRequest index kind =>
      simp only [perform] at taken
      split at taken
      · rename_i scope found
        cases taken
        exact accounted.reject found rfl kind (absurd rfl)
      · cases taken
  | permitRequest index payload =>
      simp only [perform] at taken
      split at taken
      · rename_i scope found
        split at taken
        · cases taken
          exact accounted.reject found rfl _ (absurd rfl)
        · split at taken
          · cases taken
            exact accounted.reject found rfl _ (absurd rfl)
          · rename_i ledger permitted
            cases taken
            rw [BridgeLedger.recordPermitted, raiseIf_bind_eq_ok_iff] at permitted
            cases permitted.2
            exact accounted.permit found _ _
      · cases taken
  | completeRequest index forward =>
      simp only [perform] at taken
      split at taken
      · rename_i scope prepared isBatch found
        split at taken
        · rename_i kind failed
          cases taken
          exact accounted.reject found rfl kind fun _ => config.respond_eq_error failed
        · cases taken
          exact accounted.validate found rfl
      · cases taken
  | finishRequest index =>
      simp only [perform] at taken
      split at taken
      · rename_i scope found
        cases taken
        exact accounted.finish found
      · cases taken
  | beginScope identity =>
      simp only [perform] at taken
      split at taken
      · rename_i ready
        cases taken
        exact accounted.beginSelectedTestScope ready.2.1 ready.1 ready.2.2.2
      · cases taken
  | endScope identity =>
      simp only [perform] at taken
      split at taken
      · cases taken
      · rename_i scope isActive
        split at taken
        · rename_i ready
          obtain ⟨valid, counted, tallied⟩ := accounted.active scope isActive
          have noStages : system.stages = [] :=
            congrArg (List.map Request.stage) (accounted.requests_eq_nil ready.2.2)
          obtain ⟨snapshot, isSealed, -, digest, reports⟩ :=
            config.exists_sealTestScopeSnapshot valid counted (noStages ▸ tallied)
          rw [isSealed] at taken
          dsimp only at taken
          split at taken
          · cases taken
          · rename_i isNew
            cases taken
            exact accounted.endSelectedTestScope isActive ready.2.2 reports digest isNew
        · cases taken
  | stopBridge =>
      simp only [perform] at taken
      split at taken
      · cases taken
      · cases taken
        exact accounted.stop

/-- What holds in every state of a running bridge. -/
theorem Accounted.of_reaches {config : BridgeConfiguration} {system : CountingSystem}
    (reaches : Reaches (perform config) started system) : Accounted system :=
  invariant_of_reaches _ Accounted (fun _ _ _ => Accounted.step) reaches accounted_started

/-! ## What the snapshots say -/

section Reached

variable {config : BridgeConfiguration} {system : CountingSystem}
  (reaches : Reaches (perform config) started system)

include reaches

/-- Unless the bridge is stopped every request on its way belongs to the active scope.  Of a scope
that has been sealed no request is on its way any more, and its snapshot reports exactly the
requests that were admitted in it. -/
theorem scopes_isolate_requests :
    (system.stopAttempted = false →
      ∀ request ∈ system.requests, request.admittedIn = system.currentScope) ∧
    (system.sealedScopes.map Prod.fst).Nodup ∧
    ∀ item ∈ system.sealedScopes,
      (∀ request ∈ system.requests, request.admittedIn ≠ some item.1) ∧
      BridgeConfiguration.Reports item.2 (inScope item.1 system.outcomes) := by
  have accounted := Accounted.of_reaches reaches
  refine ⟨accounted.current, accounted.distinct, fun item member => ?_⟩
  obtain ⟨-, -, notAdmitted, reports⟩ := accounted.closed item member
  exact ⟨notAdmitted, reports⟩

/-- The counters pass the checks of the snapshots in every state, not only at a drained boundary. -/
theorem counters_are_consistent :
    ConsistentTotals system.ledger.counts.toRequestTotals system.ledger.counts.sortedMethodCounts ∧
    ∀ scope, system.ledger.activeTestScope = some scope →
      ConsistentTotals scope.counts.toRequestTotals scope.counts.sortedMethodCounts := by
  have accounted := Accounted.of_reaches reaches
  refine ⟨accounted.tallied.consistentTotals accounted.counted, fun scope isActive => ?_⟩
  obtain ⟨-, counted, tallied⟩ := accounted.active scope isActive
  exact tallied.consistentTotals counted

end Reached

/-- At a drained boundary a scope can be sealed, and it ends unless the hash of its snapshot is one
of an earlier scope. -/
theorem scope_always_seals {config : BridgeConfiguration} {system : CountingSystem}
    (reaches : Reaches (perform config) started system) {scope : ScopeAccumulator}
    (isActive : system.ledger.activeTestScope = some scope)
    (drained : system.testScopeBoundaryDrained = true) :
    ∃ snapshot, config.sealTestScopeSnapshot scope = .ok snapshot ∧
      BridgeConfiguration.Reports snapshot (inScope system.scopesBegun system.outcomes) ∧
      ((perform config (.endScope scope.identity) system).isSome = true ↔
        snapshot.snapshotSha256 ∉ system.ledger.selectedTestScopeSnapshotSha256s) := by
  have accounted := Accounted.of_reaches reaches
  obtain ⟨valid, counted, tallied⟩ := accounted.active scope isActive
  have noStages : system.stages = [] :=
    congrArg (List.map Request.stage) (accounted.requests_eq_nil drained)
  obtain ⟨snapshot, isSealed, -, -, reports⟩ :=
    config.exists_sealTestScopeSnapshot valid counted (noStages ▸ tallied)
  have running : system.stopAttempted = false := by
    cases stopped : system.stopAttempted with
    | false => rfl
    | true => cases (accounted.stopped stopped).symm.trans isActive
  refine ⟨snapshot, isSealed, reports, ?_⟩
  simp only [perform, isActive, isSealed]
  rw [if_pos ⟨running, trivial, drained⟩]
  split
  · rename_i duplicate
    exact iff_of_false Bool.false_ne_true (not_not.mpr duplicate)
  · rename_i isNew
    exact iff_of_true rfl isNew

/-! ## What a sealed scope or bridge says of its requests -/

section Outcomes

variable {outcomes : List RequestOutcome}

/-- No rejection of any kind is counted when no request has been rejected. -/
theorem total_rejectedAs_eq_zero_iff :
    (∀ kind, total (RequestOutcome.rejectedAs kind) outcomes = 0) ↔
      ∀ kind calls, .rejected kind calls ∉ outcomes := by
  simp only [total_eq_zero_iff]
  constructor
  · intro never kind calls member
    have counted := never kind _ member
    simp [RequestOutcome.rejectedAs] at counted
  · intro never kind outcome member
    cases outcome with
    | rejected other calls => exact absurd member (never other calls)
    | _ => rfl

/-- The calls that were sent on are all validated when none of them belongs to a rejection. -/
theorem total_validatedCalls_eq_iff :
    total RequestOutcome.validatedCalls outcomes = total RequestOutcome.attempted outcomes ↔
      ∀ kind calls, .rejected kind calls ∈ outcomes → calls = 0 := by
  have below : ∀ outcome ∈ outcomes, RequestOutcome.validatedCalls outcome ≤
      RequestOutcome.attempted outcome := by
    intro outcome _
    cases outcome <;> simp [RequestOutcome.validatedCalls, RequestOutcome.attempted]
  rw [total_eq_total_iff below]
  constructor
  · intro same kind calls member
    exact (same _ member).symm
  · intro noCalls outcome member
    cases outcome with
    | rejected kind calls => exact (noCalls kind calls member).symm
    | _ => rfl

end Outcomes

/-- The status of a sealed scope: a violation when some request that was admitted in it was
rejected, else validated when one of them had calls sent on. -/
theorem status_of_sealedScope {config : BridgeConfiguration} {system : CountingSystem}
    (reaches : Reaches (perform config) started system)
    {item : ℕ × ReadOnlyRpcTestScopeSnapshot} (member : item ∈ system.sealedScopes) :
    (item.2.status = .violation ↔
      ∃ kind calls, (some item.1, .rejected kind calls) ∈ system.outcomes) ∧
    (item.2.status = .validated ↔
      (∀ kind calls, (some item.1, .rejected kind calls) ∉ system.outcomes) ∧
      ∃ calls, calls ≠ 0 ∧ (some item.1, .validated calls) ∈ system.outcomes) := by
  obtain ⟨-, -, -, reports⟩ := (Accounted.of_reaches reaches).closed item member
  have clean : item.2.violationCount = 0 ↔
      ∀ kind calls, (some item.1, .rejected kind calls) ∉ system.outcomes := by
    simp only [← mem_inScope_iff]
    rw [← total_rejectedAs_eq_zero_iff]
    simp only [← reports.rejections]
    exact RequestTotals.violationCount_eq_zero_iff
  have noFailure : item.2.violationCount = 0 →
      item.2.originValidatedRpcCallCount = item.2.originAttemptedRpcCallCount := by
    intro none
    rw [reports.validated, reports.attempted, total_validatedCalls_eq_iff]
    intro kind calls rejected
    exact absurd (mem_inScope_iff.mp rejected) (clean.mp none kind calls)
  have sent : item.2.violationCount = 0 → (item.2.originAttemptedRpcCallCount ≠ 0 ↔
      ∃ calls, calls ≠ 0 ∧ (some item.1, .validated calls) ∈ system.outcomes) := by
    intro none
    rw [reports.attempted, ne_eq, total_eq_zero_iff]
    push Not
    constructor
    · rintro ⟨outcome, inside, some_⟩
      cases outcome with
      | silent => exact absurd rfl some_
      | rejected kind calls => exact absurd (mem_inScope_iff.mp inside) (clean.mp none kind calls)
      | validated calls => exact ⟨calls, some_, mem_inScope_iff.mp inside⟩
    · rintro ⟨calls, some_, inside⟩
      exact ⟨_, mem_inScope_iff.mpr inside, some_⟩
  rw [reports.status, scopeStatus]
  by_cases none : item.2.violationCount = 0
  · have neverRejected := clean.mp none
    rw [if_neg (by simp [none, noFailure none])]
    constructor
    · refine iff_of_false (by split <;> simp) ?_
      rintro ⟨kind, calls, rejected⟩
      exact neverRejected kind calls rejected
    · rw [← sent none]
      split
      · rename_i some_
        exact iff_of_true rfl ⟨neverRejected, some_⟩
      · rename_i noCalls
        exact iff_of_false (by simp) fun both => noCalls both.2
  · have rejected := mt clean.mpr none
    rw [if_pos (.inl none)]
    refine ⟨iff_of_true rfl (by simpa using rejected), ?_⟩
    exact iff_of_false (by simp) fun both => rejected both.1

/-- Nothing more is counted of this request. -/
def Request.isRecorded (request : Request) : Bool :=
  match request.stage with
  | .recorded => true
  | _ => false

/-- A stopped bridge with no request on its way can be sealed unless requests were rejected as
upstream errors and none of the rejected requests had sent calls on. -/
theorem bridge_seals_iff {config : BridgeConfiguration} {system : CountingSystem}
    (reaches : Reaches (perform config) started system)
    (allRecorded : system.requests.all Request.isRecorded = true) :
    (∃ snapshot, config.snapshot system.ledger = .ok snapshot) ↔
      ((∃ scope calls, (scope, .rejected .upstream calls) ∈ system.outcomes) →
        ∃ scope kind calls, calls ≠ 0 ∧ (scope, .rejected kind calls) ∈ system.outcomes) := by
  have accounted := Accounted.of_reaches reaches
  have noneOnTheirWay : total RequestStage.attempted system.stages = 0 := by
    rw [total_eq_zero_iff]
    intro stage member
    obtain ⟨request, requestMember, rfl⟩ := List.mem_map.mp member
    have isRecorded := List.all_eq_true.mp allRecorded request requestMember
    rw [Request.isRecorded] at isRecorded
    split at isRecorded
    · rename_i same
      rw [same, RequestStage.attempted_recorded]
    · cases isRecorded
  rw [config.exists_snapshot_iff accounted.counted accounted.tallied accounted.digests
    accounted.distinctDigests, accounted.tallied.validated, accounted.tallied.attempted,
    noneOnTheirWay, Nat.add_zero, total_validatedCalls_eq_iff]
  have upstream : system.ledger.counts.upstreamErrorRequestCount = 0 ↔
      ¬∃ scope calls, (scope, .rejected .upstream calls) ∈ system.outcomes := by
    have counted := accounted.tallied.rejections .upstream
    rw [RequestTotals.rejectionCount] at counted
    rw [counted, total_eq_zero_iff]
    constructor
    · rintro never ⟨scope, calls, member⟩
      have zero := never _ (List.mem_map_of_mem member)
      simp [RequestOutcome.rejectedAs] at zero
    · intro never outcome member
      obtain ⟨⟨scope, outcome⟩, inside, rfl⟩ := List.mem_map.mp member
      cases outcome with
      | rejected kind calls =>
          rw [RequestOutcome.rejectedAs, if_neg]
          rintro rfl
          exact never ⟨scope, calls, inside⟩
      | _ => rfl
  have failed : (∀ kind calls, .rejected kind calls ∈ system.outcomes.map Prod.snd → calls = 0) ↔
      ¬∃ scope kind calls, calls ≠ 0 ∧ (scope, .rejected kind calls) ∈ system.outcomes := by
    constructor
    · rintro noCalls ⟨scope, kind, calls, some_, member⟩
      exact some_ (noCalls kind calls (List.mem_map_of_mem member))
    · intro never kind calls member
      obtain ⟨⟨scope, outcome⟩, inside, rfl⟩ := List.mem_map.mp member
      by_contra some_
      exact never ⟨scope, kind, calls, some_, inside⟩
  rw [upstream, failed, not_iff_not]
  constructor
  · exact fun agree => agree.mpr
  · intro enough
    refine ⟨?_, enough⟩
    rintro ⟨scope, kind, calls, some_, member⟩
    obtain rfl := accounted.blamed _ member kind calls rfl some_
    exact ⟨scope, calls, member⟩

/-! ## A batch that the bridge answers itself -/

def sampleIdentity : ScopeIdentity where
  attemptBindingSha256 := List.replicate 64 'c'
  selectionSha256 := List.replicate 64 'd'
  descriptorSha256 := List.replicate 64 'e'
  sequenceIndex := 1

/-- The hashes of the log of the methods, of the snapshot of the scope, and of that of the bridge. -/
def sampleSha256 : Json → List Char
  | .array _ => "17235139766af8d2d6ae2192632f38da275560961262c5cf889d74c55dd93b19".toList
  | .object fields =>
      if (Json.get? fields "attempt_binding_sha256").isSome then
        "e4fafea14ee8263e289580d0876cf029914e32c5be48e746d0a9ab5276f74cae".toList
      else
        "a4861984c82600cec4559318ec2c2c0d00240f622c58bbb04e0eb57ff7ac3cf8".toList
  | _ => List.replicate 64 '0'

theorem isSha256_sampleSha256 (value : Json) : isSha256 (sampleSha256 value) = true := by
  unfold sampleSha256
  split
  · decide
  · split <;> decide
  · decide

/-- A bridge whose response bodies have at most 64 bytes. -/
def sampleConfiguration : BridgeConfiguration where
  policy := RpcPolicy.samplePolicy
  maxHttpRequests := 4
  maxRpcCalls := 8
  maxResponseBodyBytes := 64
  policySha256 := List.replicate 64 'a'
  originObservationSha256 := List.replicate 64 'b'
  canonicalSha256 := sampleSha256
  encodedLength _ := 81
  chainIdBound := by decide
  blockNumberBound := by decide
  policyDigest := by decide
  observationDigest := by decide
  digests := isSha256_sampleSha256

/-- Two chain identifiers. -/
def sampleBatch : Json :=
  .array [RpcPolicy.sampleCall (.int 1) "eth_chainId" [],
    RpcPolicy.sampleCall (.int 2) "eth_chainId" []]

/-- The request of a scope, up to its end. -/
def sampleRequest : List CountingAction :=
  [.beginScope sampleIdentity, .registerConnection, .admitConnection 1, .dispatch 0,
    .permitRequest 0 sampleBatch, .completeRequest 0 fun _ => none, .finishRequest 0]

def sampleRun : List CountingAction :=
  sampleRequest ++ [.endScope sampleIdentity, .stopBridge]

/-- The batch is rejected after its calls were permitted, and no call was sent on. -/
theorem exists_sampleRun : ∃ system,
    run (perform sampleConfiguration) sampleRun started = some system ∧
      system.outcomes = [(some 1, .rejected .upstream 0)] ∧
      system.sealedScopes.map Prod.fst = [1] ∧ system.requests.all Request.isRecorded = true := by
  have evaluated : (run (perform sampleConfiguration) sampleRun started).map (fun system =>
      (system.outcomes, system.sealedScopes.map Prod.fst,
        system.requests.all Request.isRecorded)) =
      some ([(some 1, .rejected .upstream 0)], [1], true) := by
    decide +kernel
  obtain ⟨system, ran, same⟩ := Option.map_eq_some_iff.mp evaluated
  exact ⟨system, ran, (Prod.mk.inj same).1, (Prod.mk.inj (Prod.mk.inj same).2).1,
    (Prod.mk.inj (Prod.mk.inj same).2).2⟩

theorem scopes_isolate_requests_sample : ∃ snapshot,
    BridgeConfiguration.Reports snapshot [.rejected .upstream 0] := by
  obtain ⟨system, ran, outcomes, numbers, -⟩ := exists_sampleRun
  obtain ⟨item, member, first⟩ : ∃ item ∈ system.sealedScopes, item.1 = 1 :=
    List.mem_map.mp (numbers ▸ List.mem_singleton_self 1)
  have reports := ((scopes_isolate_requests ⟨sampleRun, ran⟩).2.2 item member).2
  rw [first, outcomes] at reports
  exact ⟨item.2, reports⟩

theorem counters_are_consistent_sample : ∃ system,
    run (perform sampleConfiguration) sampleRun started = some system ∧
      ConsistentTotals system.ledger.counts.toRequestTotals
        system.ledger.counts.sortedMethodCounts := by
  obtain ⟨system, ran, -⟩ := exists_sampleRun
  exact ⟨system, ran, (counters_are_consistent ⟨sampleRun, ran⟩).1⟩

theorem status_of_sealedScope_sample : ∃ system item,
    run (perform sampleConfiguration) sampleRun started = some system ∧
      item ∈ system.sealedScopes ∧ item.2.status = .violation := by
  obtain ⟨system, ran, outcomes, numbers, -⟩ := exists_sampleRun
  obtain ⟨item, member, first⟩ : ∃ item ∈ system.sealedScopes, item.1 = 1 :=
    List.mem_map.mp (numbers ▸ List.mem_singleton_self 1)
  refine ⟨system, item, ran, member,
    (status_of_sealedScope ⟨sampleRun, ran⟩ member).1.mpr ⟨.upstream, 0, ?_⟩⟩
  rw [first, outcomes]
  exact List.mem_singleton_self _

/-- The batch leaves a bridge that cannot be sealed. -/
theorem bridge_seals_iff_sample : ∃ system,
    run (perform sampleConfiguration) sampleRun started = some system ∧
      ¬∃ snapshot, sampleConfiguration.snapshot system.ledger = .ok snapshot := by
  obtain ⟨system, ran, outcomes, -, allRecorded⟩ := exists_sampleRun
  refine ⟨system, ran, fun seals => ?_⟩
  have sent := (bridge_seals_iff ⟨sampleRun, ran⟩ allRecorded).mp seals
  rw [outcomes] at sent
  obtain ⟨scope, kind, calls, some_, member⟩ := sent ⟨some 1, 0, List.mem_singleton_self _⟩
  cases List.mem_singleton.mp member
  exact some_ rfl

/-- At the end of its request the scope can be sealed. -/
theorem scope_always_seals_sample : ∃ system scope snapshot,
    run (perform sampleConfiguration) sampleRequest started = some system ∧
      system.ledger.activeTestScope = some scope ∧
      sampleConfiguration.sealTestScopeSnapshot scope = .ok snapshot := by
  have evaluated : (run (perform sampleConfiguration) sampleRequest started).map (fun system =>
      (system.ledger.activeTestScope.isSome, system.testScopeBoundaryDrained)) =
      some (true, true) := by
    decide +kernel
  obtain ⟨system, ran, same⟩ := Option.map_eq_some_iff.mp evaluated
  obtain ⟨scope, isActive⟩ := Option.isSome_iff_exists.mp (Prod.mk.inj same).1
  obtain ⟨snapshot, isSealed, -⟩ :=
    scope_always_seals ⟨sampleRequest, ran⟩ isActive (Prod.mk.inj same).2
  exact ⟨system, scope, snapshot, ran, isActive, isSealed⟩

end CountingSystem

end Rpc

end MmAudit
