import MmAudit.Budget.Evidence

/-!
# The budget manager

The manager of one process admits a request before it is sent and settles it
afterwards.  Each public method runs its body under one lock, so a method is a
function of the state it finds; it may raise after it changed some of that
state, and the translation keeps what was changed.

The shared ledger is optional.  A call is given the content it finds in the
ledger file, because other processes may have written there in the meantime.
-/

namespace MmAudit

namespace Budget

open Fallible CostLedger

/-- A token budget that `_validate_optional_token_budget` accepts. -/
def IsTokenBudget (budget : Option ℤ) : Prop :=
  ∀ limit, budget = some limit → 0 ≤ limit ∧ limit ≤ maxMeteredUnits

/-- The configuration of a manager.  The two functions stand for what the
standard library computes: the floating-point estimate of a request as the
decimal of its text, and the digest of the request material.  Rates and totals
are positive in every configuration, and the constructor validates token budgets
and caps. -/
structure BudgetSettings where
  totalUsd : Decimal
  maxOutputTokens : ℕ
  maxRequestsPerAgent : ℤ
  requireEndpointCostBound : Bool
  globalInputTokenBudget : Option ℤ
  globalOutputTokenBudget : Option ℤ
  perModelUsdCaps : Dict String Decimal
  perRoleUsdCaps : Dict String Decimal
  atomicLedger : Option AtomicCostLedger
  estimateRequestCost : String → Decimal
  sha256 : String → String
  totalUsd_nonneg : 0 ≤ totalUsd.value
  estimateRequestCost_nonneg : ∀ prompt, 0 ≤ (estimateRequestCost prompt).value
  globalInputTokenBudget_valid : IsTokenBudget globalInputTokenBudget
  globalOutputTokenBudget_valid : IsTokenBudget globalOutputTokenBudget
  perModelUsdCaps_nonneg : ∀ key cap, perModelUsdCaps.get? key = some cap → 0 ≤ cap.value
  perRoleUsdCaps_nonneg : ∀ key cap, perRoleUsdCaps.get? key = some cap → 0 ≤ cap.value

/-- Capability of a scheduler-bound request-count scope. -/
structure TrustedRequestLimitScope where
  identifier : String
  identifier_valid : matchesRolePattern identifier = true

/-- The arguments of `reserve`. -/
structure ReserveRequest where
  identifier : String
  role : String
  prompt : String
  endpointCostBound : Option EndpointRequestCostBound
  exactModelId : Option String
  plannedPromptTokens : Option ℤ
  plannedVisibleOutputTokens : Option ℤ
  plannedReasoningTokens : Option ℤ
  plannedCompletionTokens : Option ℤ
  requestTokenPlanSha256 : Option String
  requestLimitScope : Option TrustedRequestLimitScope

/-- The handle of a reservation.  Its floating-point estimate, which only
reports the exact maximum cost, is left out. -/
structure Reservation where
  identifier : String
  persistent : Option CostReservation
  endpointCostBound : Option EndpointRequestCostBound
  exactModelId : Option String
  role : Option String
  plannedPromptTokens : Option ℤ
  plannedVisibleOutputTokens : Option ℤ
  plannedReasoningTokens : Option ℤ
  plannedCompletionTokens : Option ℤ
  requestTokenPlanSha256 : Option String
  tokenReservationEvidence : Option AtomicTokenReservationEvidence
  requestLimitScope : Option String
  requestLimitReservationEvidence : Option AtomicRequestLimitReservationEvidence
deriving DecidableEq

/-- What was settled for a reconciled reservation. -/
structure Reconciliation where
  actualCostUsd : Option Decimal
  actualPromptTokens : Option ℤ
  actualCompletionTokens : Option ℤ
  actualReasoningTokens : Option ℤ
  accountedCostUsdExact : Decimal
  accountedPromptTokens : Option ℤ
  accountedCompletionTokens : Option ℤ
  accountedReasoningTokens : Option ℤ
  costOverrun : Bool
  tokenOverrun : Bool
deriving DecidableEq

/-- Whether a recovered attempt was adopted before or accounted after its
dispatch. -/
inductive RecoveredAttemptStatus
  | adoptedProvenPreSend
  | uncertainAccountedAfterDispatch
deriving DecidableEq, Repr

/-- A provider attempt without output that the scheduler journal authorizes. -/
structure RecoveredSchedulerCostAttempt where
  requestId : String
  logicalRequestId : String
  taskId : String
  requestedModel : String
  role : String
  status : RecoveredAttemptStatus
  reservedCostUsdExact : Decimal
  accountedCostUsdExact : Decimal
deriving DecidableEq

/-- Requests are counted per role, or per scheduled task. -/
inductive RequestLimitKey
  | role (role : String)
  | scheduledTask (identifier : String)
deriving DecidableEq

/-- The mutable state of a manager. -/
structure BudgetState where
  recoveryRequired : Bool
  spentExact : Decimal
  reserved : Dict String Decimal
  issued : Dict String Reservation
  reconciled : Dict String Reconciliation
  released : List String
  pendingAdoptions : Dict String RecoveredSchedulerCostAttempt
  requestLimitCounts : Dict RequestLimitKey ℤ
  reservedInputTokens : ℤ
  spentInputTokens : ℤ
  reservedOutputTokens : ℤ
  spentOutputTokens : ℤ
  reservedModelUsd : Dict String Decimal
  spentModelUsd : Dict String Decimal
  reservedRoleUsd : Dict String Decimal
  spentRoleUsd : Dict String Decimal

/-- The state of a manager that starts with the given durable spending. -/
def BudgetState.initial (spent : Decimal) (recoveryRequired : Bool) : BudgetState where
  recoveryRequired := recoveryRequired
  spentExact := spent
  reserved := Dict.empty
  issued := Dict.empty
  reconciled := Dict.empty
  released := []
  pendingAdoptions := Dict.empty
  requestLimitCounts := Dict.empty
  reservedInputTokens := 0
  spentInputTokens := 0
  reservedOutputTokens := 0
  spentOutputTokens := 0
  reservedModelUsd := Dict.empty
  spentModelUsd := Dict.empty
  reservedRoleUsd := Dict.empty
  spentRoleUsd := Dict.empty

/-- The state after the constructor, which reads a ledger if it has one. -/
def BudgetState.new (settings : BudgetSettings) (file : SerializedState) :
    Except BudgetError BudgetState :=
  match settings.atomicLedger with
  | none => .ok (.initial 0 false)
  | some ledger =>
      match ledger.snapshot file with
      | .error failure => .error (.ledger failure)
      | .ok snapshot => do
          raiseIf (snapshot.overCap = true ∨ snapshot.hasReservationOverrun = true)
            (.reservationState "persistent model-cost ledger requires explicit recovery")
          .ok (.initial snapshot.spentUsd (!snapshot.entries.isEmpty))

/-! ## Scoped amounts -/

/-- Add an amount to the total of a key, in the context of the process. -/
def incrementDecimal (values : Dict String Decimal) (key : String) (amount : Decimal) :
    Dict String Decimal :=
  values.insert key (defaultContext.add ((values.get? key).getD 0) amount)

/-- Subtract an amount from the total of a key, dropping a key at zero. -/
def decrementDecimal (values : Dict String Decimal) (key : String) (amount : Decimal) :
    Except BudgetError (Dict String Decimal) :=
  let inconsistent : BudgetError :=
    .reservationState "scoped reservation accounting is inconsistent"
  match values.get? key with
  | none => .error inconsistent
  | some current =>
      if current < amount then
        .error inconsistent
      else
        let remaining := defaultContext.sub current amount
        if remaining.SameValue 0 then
          .ok (values.erase key)
        else
          .ok (values.insert key remaining)

def incrementOptional (values : Dict String Decimal) (key : Option String) (amount : Decimal) :
    Dict String Decimal :=
  match key with
  | none => values
  | some key => incrementDecimal values key amount

def decrementOptional (values : Dict String Decimal) (key : Option String) (amount : Decimal) :
    Except BudgetError (Dict String Decimal) :=
  match key with
  | none => .ok values
  | some key => decrementDecimal values key amount

/-! ## Checks before a reservation -/

def maximumRequestCost (settings : BudgetSettings) (request : ReserveRequest) :
    Except BudgetError Decimal :=
  match request.endpointCostBound with
  | none => do
      raiseIf settings.requireEndpointCostBound
        (.unprovenCostBound "certification paid request lacks an endpoint-bound maximum cost")
      .ok (settings.estimateRequestCost request.prompt)
  | some bound => do
      raiseIf (bound.requestMaterialSha256 ≠ settings.sha256 request.prompt)
        (.unprovenCostBound "endpoint cost bound does not match the serialized request")
      let promptUnits ← bound.maximumUnitsFor "prompt"
      raiseIf (promptUnits < max 1 request.prompt.utf8ByteSize)
        (.unprovenCostBound "endpoint prompt-token ceiling is below the UTF-8 byte upper bound")
      let completionUnits ← bound.maximumUnitsFor "completion"
      raiseIf (completionUnits < settings.maxOutputTokens)
        (.unprovenCostBound
          "endpoint completion-token ceiling is below the configured output maximum")
      .ok bound.maximumCostUsd

/-- What `_validate_request_scope` resolves. -/
structure RequestScope where
  modelId : Option String
  promptTokens : Option ℤ
  visibleOutputTokens : Option ℤ
  reasoningTokens : Option ℤ
  completionTokens : Option ℤ
  planSha256 : Option String
deriving DecidableEq

def validateOptionalModelId : Option String → Except BudgetError Unit
  | none => .ok ()
  | some modelId => validateScopeKey modelId matchesModelIdPattern "model"

/-- An endpoint cost bound fixes the model of a request. -/
def boundModelId (request : ReserveRequest) : Except BudgetError (Option String) :=
  match request.endpointCostBound with
  | none => .ok request.exactModelId
  | some bound => do
      raiseIf (request.exactModelId.isSome ∧ request.exactModelId ≠ some bound.exactModelId)
        (.reservationState "request model differs from the endpoint cost bound")
      .ok (some bound.exactModelId)

/-- Planned tokens may not exceed the units that the endpoint bound prices. -/
def checkBoundUnits (request : ReserveRequest) (promptTokens completionTokens : Option ℤ) :
    Except BudgetError Unit :=
  match request.endpointCostBound, promptTokens, completionTokens with
  | some bound, some prompt, some completion => do
      let promptUnits ← bound.maximumUnitsFor "prompt"
      raiseIf ((promptUnits : ℤ) < prompt)
        (.reservationState "planned prompt tokens exceed the endpoint cost bound")
      let completionUnits ← bound.maximumUnitsFor "completion"
      raiseIf ((completionUnits : ℤ) < completion)
        (.reservationState "planned completion tokens exceed the endpoint cost bound")
  | _, _, _ => .ok ()

def validateRequestScope (settings : BudgetSettings) (request : ReserveRequest) :
    Except BudgetError RequestScope := do
  validateScopeKey request.role matchesRolePattern "role"
  validateOptionalModelId request.exactModelId
  let modelId ← boundModelId request
  let prompt ← validateOptionalTokenCount request.plannedPromptTokens "planned prompt tokens"
  let completion ←
    validateOptionalTokenCount request.plannedCompletionTokens "planned completion tokens"
  let visible ←
    validateOptionalTokenCount request.plannedVisibleOutputTokens "planned visible-output tokens"
  let reasoning ←
    validateOptionalTokenCount request.plannedReasoningTokens "planned reasoning tokens"
  raiseIf (prompt.isNone ≠ completion.isNone)
    (.reservationState "planned prompt and completion token ceilings must be supplied together")
  raiseIf (visible.isNone ≠ reasoning.isNone)
    (.reservationState
      "planned visible-output and reasoning token ceilings must be supplied together")
  raiseIf (visible.isSome ∧ completion.isNone)
    (.reservationState "split output token ceilings require a planned completion ceiling")
  raiseIf (visible.isSome ∧ visible.getD 0 + reasoning.getD 0 ≠ completion.getD 0)
    (.reservationState
      "planned visible-output and reasoning tokens do not conserve completion tokens")
  let planSha256 := request.requestTokenPlanSha256
  raiseIf (planSha256.any (fun digest => !matchesSha256Pattern digest) = true)
    (.reservationState "request token plan hash is invalid")
  raiseIf (planSha256.isSome ∧ (modelId.isNone ∨ prompt.isNone ∨ completion.isNone))
    (.reservationState
      "request token plan hash requires an exact model and complete token ceilings")
  raiseIf (planSha256.isSome ∧ (visible.isNone ∨ reasoning.isNone))
    (.reservationState
      "request token plan hash requires visible-output and reasoning token ceilings")
  raiseIf (prompt.isSome ∧ modelId.isNone)
    (.reservationState "planned token ceilings require an exact model ID")
  raiseIf (settings.perModelUsdCaps.items ≠ [] ∧ modelId.isNone)
    (.reservationState "per-model USD caps require an exact model ID")
  raiseIf (settings.globalInputTokenBudget.isSome ∧ prompt.isNone)
    (.reservationState "global input token budget requires a planned prompt-token ceiling")
  raiseIf (settings.globalOutputTokenBudget.isSome ∧ completion.isNone)
    (.reservationState "global output token budget requires a planned completion-token ceiling")
  checkBoundUnits request prompt completion
  .ok ⟨modelId, prompt, visible, reasoning, completion, planSha256⟩

def requireUsdScopeCapacity (scope key : String) (maximumCost : Decimal)
    (caps spent reserved : Dict String Decimal) : Except BudgetError Unit :=
  match caps.get? key with
  | none =>
      raiseIf (caps.items ≠ [])
        (.exhausted s!"request has no configured {scope} USD budget for {key}")
  | some cap =>
      let available := defaultContext.sub
        (defaultContext.sub cap ((spent.get? key).getD 0)) ((reserved.get? key).getD 0)
      raiseIf (available < maximumCost)
        (.exhausted s!"request exceeds the remaining {scope} USD budget for {key}")

/-- Planned tokens that exceed what a global budget has left. -/
def exceedsTokens (planned budget : Option ℤ) (spent reserved : ℤ) : Bool :=
  match planned, budget with
  | some planned, some budget => budget - spent - reserved < planned
  | _, _ => false

def requireModelCapacity (settings : BudgetSettings) (state : BudgetState)
    (modelId : Option String) (maximumCost : Decimal) : Except BudgetError Unit :=
  match modelId with
  | none => .ok ()
  | some modelId =>
      requireUsdScopeCapacity "model" modelId maximumCost settings.perModelUsdCaps
        state.spentModelUsd state.reservedModelUsd

def requireScopedCapacity (settings : BudgetSettings) (state : BudgetState) (role : String)
    (modelId : Option String) (maximumCost : Decimal) (promptTokens completionTokens : Option ℤ) :
    Except BudgetError Unit := do
  raiseIf (exceedsTokens promptTokens settings.globalInputTokenBudget state.spentInputTokens
      state.reservedInputTokens)
    (.exhausted "request exceeds the remaining global input-token budget")
  raiseIf (exceedsTokens completionTokens settings.globalOutputTokenBudget
      state.spentOutputTokens state.reservedOutputTokens)
    (.exhausted "request exceeds the remaining global output-token budget")
  requireModelCapacity settings state modelId maximumCost
  requireUsdScopeCapacity "role" role maximumCost settings.perRoleUsdCaps
    state.spentRoleUsd state.reservedRoleUsd

/-! ## Reserving -/

/-- The checks of the `Reservation` constructor. -/
def Reservation.check (reservation : Reservation) : Except BudgetError Unit := do
  let visible := reservation.plannedVisibleOutputTokens
  let reasoning := reservation.plannedReasoningTokens
  let completion := reservation.plannedCompletionTokens
  raiseIf (visible.isNone ≠ reasoning.isNone)
    (.value "visible-output and reasoning token reservations must be supplied together")
  raiseIf (visible.isSome ∧ completion.isNone)
    (.value "split output token reservations require a combined completion reservation")
  raiseIf (visible.isSome ∧ visible.getD 0 + reasoning.getD 0 ≠ completion.getD 0)
    (.value "visible-output and reasoning reservations do not conserve completion tokens")
  match reservation.requestTokenPlanSha256 with
  | none => do
      raiseIf reservation.tokenReservationEvidence.isSome
        (.value "legacy reservation cannot carry plan-bound token evidence")
      raiseIf (reservation.requestLimitScope.isSome ∨
          reservation.requestLimitReservationEvidence.isSome)
        (.value "request-limit scope requires plan-bound token evidence")
  | some planSha256 => do
      raiseIf (¬ matchesSha256Pattern planSha256) (.value "request token plan hash is invalid")
      raiseIf (reservation.exactModelId.isNone ∨ reservation.role.isNone ∨
          reservation.plannedPromptTokens.isNone ∨ visible.isNone ∨ reasoning.isNone ∨
          completion.isNone)
        (.value "plan-bound reservation requires complete model and token fields")
      match reservation.tokenReservationEvidence with
      | none => .error (.value "plan-bound reservation requires atomic token evidence")
      | some evidence => do
          raiseIf (evidence.requestId ≠ reservation.identifier ∨
              some evidence.exactModelId ≠ reservation.exactModelId ∨
              some evidence.role ≠ reservation.role ∨
              evidence.requestTokenPlanSha256 ≠ planSha256 ∨
              some evidence.plannedPromptTokens ≠ reservation.plannedPromptTokens ∨
              some evidence.plannedVisibleOutputTokens ≠ visible ∨
              some evidence.plannedReasoningTokens ≠ reasoning ∨
              some evidence.plannedCompletionTokens ≠ completion)
            (.value "reservation fields differ from its atomic token evidence")
          match reservation.requestLimitScope, reservation.requestLimitReservationEvidence with
          | none, none => .ok ()
          | none, some _ =>
              .error (.value "unscheduled reservation cannot carry request-limit evidence")
          | some _, none =>
              .error (.value
                "reservation request-limit scope differs from its atomic evidence")
          | some scope, some limitEvidence =>
              raiseIf (limitEvidence.requestId ≠ reservation.identifier ∨
                  some limitEvidence.exactModelId ≠ reservation.exactModelId ∨
                  some limitEvidence.role ≠ reservation.role ∨
                  limitEvidence.requestTokenPlanSha256 ≠ planSha256 ∨
                  limitEvidence.requestLimitScope ≠ scope)
                (.value "reservation request-limit scope differs from its atomic evidence")

/-- Token evidence is built for a reservation that is bound to a token plan. -/
def tokenEvidence (settings : BudgetSettings) (state : BudgetState) (request : ReserveRequest)
    (scope : RequestScope) : Except BudgetError (Option AtomicTokenReservationEvidence) :=
  match scope.planSha256, scope.modelId, scope.promptTokens, scope.visibleOutputTokens,
      scope.reasoningTokens, scope.completionTokens with
  | some planSha256, some modelId, some prompt, some visible, some reasoning, some completion =>
      some <$> AtomicTokenReservationEvidence.build request.identifier modelId request.role
        planSha256 prompt visible reasoning completion settings.globalInputTokenBudget
        settings.globalOutputTokenBudget state.spentInputTokens state.reservedInputTokens
        state.spentOutputTokens state.reservedOutputTokens
  | _, _, _, _, _, _ => .ok none

/-- Request-limit evidence is built for a scheduled request. -/
def requestLimitEvidence (settings : BudgetSettings) (request : ReserveRequest)
    (scope : RequestScope) (count : ℤ) :
    Except BudgetError (Option AtomicRequestLimitReservationEvidence) :=
  match request.requestLimitScope, scope.modelId, scope.planSha256 with
  | some limitScope, some modelId, some planSha256 =>
      some <$> AtomicRequestLimitReservationEvidence.build request.identifier modelId
        request.role planSha256 limitScope.identifier count settings.maxRequestsPerAgent
  | _, _, _ => .ok none

def requestLimitKey (request : ReserveRequest) : RequestLimitKey :=
  match request.requestLimitScope with
  | none => .role request.role
  | some scope => .scheduledTask scope.identifier

def requestLimitLabel (request : ReserveRequest) : String :=
  match request.requestLimitScope with
  | none => s!"role {request.role}"
  | some scope => s!"scheduled task {scope.identifier}"

/-- A reservation that passed every check but the ledger. -/
structure Admission where
  maximumCost : Decimal
  count : ℤ
  adoption : Option RecoveredSchedulerCostAttempt
  reservation : Reservation

/-- The request must be the one whose durable reservation it adopts. -/
def checkAdoption (request : ReserveRequest) (scope : RequestScope) (maximumCost : Decimal) :
    Option RecoveredSchedulerCostAttempt → Except BudgetError Unit
  | none => .ok ()
  | some adoption =>
      raiseIf (adoption.role ≠ request.role ∨ some adoption.requestedModel ≠ scope.modelId ∨
          ¬ adoption.reservedCostUsdExact.SameValue maximumCost)
        (.reservationState "resumed request differs from its durable pre-send reservation")

/-- What is left of the total, in the context of the process. -/
def remainingTotal (settings : BudgetSettings) (state : BudgetState) : Decimal :=
  defaultContext.sub (defaultContext.sub settings.totalUsd state.spentExact)
    (defaultContext.sum state.reserved.values)

/-- Everything `reserve` decides before it turns to the ledger. -/
def admitRequest (settings : BudgetSettings) (state : BudgetState) (request : ReserveRequest) :
    Except BudgetError Admission := do
  raiseIf state.recoveryRequired
    (.reservationState "persistent budget counters require exact usage recovery before dispatch")
  let maximumCost ← maximumRequestCost settings request
  let scope ← validateRequestScope settings request
  raiseIf (request.requestLimitScope.isSome ∧ scope.planSha256.isNone)
    (.reservationState "request-limit scope requires a plan-bound reservation")
  raiseIf (request.identifier ∈ state.issued)
    (.reservationState "request reservation identifier was already issued")
  let adoption := state.pendingAdoptions.get? request.identifier
  raiseIf (state.pendingAdoptions.items ≠ [] ∧ adoption.isNone)
    (.reservationState "a proven pre-send reservation must be adopted before other dispatch")
  checkAdoption request scope maximumCost adoption
  let count := (state.requestLimitCounts.get? (requestLimitKey request)).getD 0
  raiseIf (settings.maxRequestsPerAgent ≤ count)
    (.exhausted s!"request limit reached for {requestLimitLabel request}")
  raiseIf (remainingTotal settings state < maximumCost) (.costExhausted request.role maximumCost)
  requireScopedCapacity settings state request.role scope.modelId maximumCost scope.promptTokens
    scope.completionTokens
  let tokens ← tokenEvidence settings state request scope
  let limit ← requestLimitEvidence settings request scope count
  let reservation : Reservation := {
    identifier := request.identifier
    persistent := none
    endpointCostBound := request.endpointCostBound
    exactModelId := scope.modelId
    role := some request.role
    plannedPromptTokens := scope.promptTokens
    plannedVisibleOutputTokens := scope.visibleOutputTokens
    plannedReasoningTokens := scope.reasoningTokens
    plannedCompletionTokens := scope.completionTokens
    requestTokenPlanSha256 := scope.planSha256
    tokenReservationEvidence := tokens
    requestLimitScope := request.requestLimitScope.map TrustedRequestLimitScope.identifier
    requestLimitReservationEvidence := limit }
  reservation.check
  .ok ⟨maximumCost, count, adoption, reservation⟩

/-- What the environment supplies to a call: the ledger file as it is found, the
clock, and a random identifier. -/
structure LedgerView where
  file : SerializedState
  now : Timestamp
  fresh : FreshReservationId

/-- The manager and the ledger file after a call, and its result. -/
structure BudgetOutcome (Value : Type) where
  state : BudgetState
  file : SerializedState
  result : Except BudgetError Value

/-- The durable part of a reservation and the file it leaves. -/
def persistReservation (settings : BudgetSettings) (view : LedgerView) (admission : Admission) :
    SerializedState × Except BudgetError (Option CostReservation) :=
  let identifier := admission.reservation.identifier
  match admission.adoption, settings.atomicLedger with
  | some _, none =>
      (view.file, .error (.reservationState
        "pre-send reservation adoption requires its persistent ledger"))
  | some adoption, some ledger =>
      match ledger.activeReservation view.file identifier with
      | .error failure => (view.file, .error (.ledger failure))
      | .ok none =>
          (view.file, .error (.reservationState
            "durable pre-send reservation is no longer active"))
      | .ok (some persistent) =>
          if persistent.reservedUsd.SameValue adoption.reservedCostUsdExact then
            (view.file, .ok (some persistent))
          else
            (view.file, .error (.reservationState
              "durable pre-send reservation is no longer active"))
  | none, none => (view.file, .ok none)
  | none, some ledger =>
      match ledger.reserve view.file identifier (.finite admission.maximumCost) view.now
          view.fresh with
      | .ok locked => (locked.written.getD view.file, .ok (some locked.value))
      | .error (.budgetExceeded _) =>
          let role := admission.reservation.role.getD ""
          (view.file, .error (.exhausted
            s!"request for {role} exceeds the persistent model-cost budget"))
      | .error failure => (view.file, .error (.ledger failure))

/-- The counters after `_reserve_scoped`. -/
def reserveScoped (state : BudgetState) (reservation : Reservation) (maximumCost : Decimal) :
    BudgetState :=
  { state with
    reservedInputTokens :=
      state.reservedInputTokens + reservation.plannedPromptTokens.getD 0
    reservedOutputTokens :=
      state.reservedOutputTokens + reservation.plannedCompletionTokens.getD 0
    reservedModelUsd :=
      incrementOptional state.reservedModelUsd reservation.exactModelId maximumCost
    reservedRoleUsd :=
      incrementOptional state.reservedRoleUsd reservation.role maximumCost }

/-- The state after an admitted reservation is recorded. -/
def recordReservation (state : BudgetState) (key : RequestLimitKey) (admission : Admission)
    (reservation : Reservation) : BudgetState :=
  let recorded := reserveScoped
    { state with
      reserved := state.reserved.insert reservation.identifier admission.maximumCost
      requestLimitCounts := state.requestLimitCounts.insert key (admission.count + 1)
      issued := state.issued.insert reservation.identifier reservation }
    reservation admission.maximumCost
  match admission.adoption with
  | none => recorded
  | some _ =>
      { recorded with
        pendingAdoptions := recorded.pendingAdoptions.erase reservation.identifier }

def reserve (settings : BudgetSettings) (state : BudgetState) (view : LedgerView)
    (request : ReserveRequest) : BudgetOutcome Reservation :=
  match admitRequest settings state request with
  | .error failure => ⟨state, view.file, .error failure⟩
  | .ok admission =>
      match persistReservation settings view admission with
      | (file, .error failure) => ⟨state, file, .error failure⟩
      | (file, .ok persistent) =>
          let reservation := { admission.reservation with persistent := persistent }
          ⟨recordReservation state (requestLimitKey request) admission reservation, file,
            .ok reservation⟩

/-! ## Settling -/

/-- The usage a provider reported. -/
structure ReportedUsage where
  actualCostUsd : Option DecimalArgument
  actualPromptTokens : Option ℤ
  actualCompletionTokens : Option ℤ
  actualReasoningTokens : Option ℤ

def normalizeActualCost : Option DecimalArgument → Except BudgetError (Option Decimal)
  | none => .ok none
  | some (.finite number) => do
      raiseIf (number < 0) (.reservationState "provider actual cost is invalid")
      -- Rounding to the quantum fails beyond the 96 digits of the local context.
      raiseIf (96 < Decimal.numDigits (quantizeCeiling number).coefficient.natAbs)
        (.reservationState "provider actual cost is invalid")
      .ok (some (quantizeCeiling number))
  | some _ => .error (.reservationState "provider actual cost is invalid")

/-- Reported usage after its own checks. -/
structure NormalizedUsage where
  actualCostUsd : Option Decimal
  promptTokens : Option ℤ
  completionTokens : Option ℤ
  reasoningTokens : Option ℤ

def normalizeUsage (usage : ReportedUsage) : Except BudgetError NormalizedUsage := do
  let cost ← normalizeActualCost usage.actualCostUsd
  let prompt ←
    validateOptionalTokenCount usage.actualPromptTokens "provider actual prompt tokens"
  let completion ←
    validateOptionalTokenCount usage.actualCompletionTokens "provider actual completion tokens"
  let reasoning ←
    validateOptionalTokenCount usage.actualReasoningTokens "provider actual reasoning tokens"
  raiseIf (reasoning.isSome ∧ completion.isNone)
    (.reservationState "provider reasoning-token usage requires completion-token usage")
  .ok ⟨cost, prompt, completion, reasoning⟩

def requireIssued (state : BudgetState) (reservation : Reservation) : Except BudgetError Unit :=
  raiseIf (state.issued.get? reservation.identifier ≠ some reservation)
    (.reservationState "request reservation handle is unknown or inconsistent")

def costOverrunError : BudgetError :=
  .ledger (.reservationOverrun "actual cost exceeded its maximum reservation")

def tokenOverrunError : BudgetError :=
  .tokenOverrun "actual token usage exceeded or did not prove its planned reservation"

def sameOptionalCost : Option Decimal → Option Decimal → Bool
  | none, none => true
  | some first, some second => first.SameValue second
  | _, _ => false

/-- Reconciling again only repeats the same outcome. -/
def repeatReconciliation (prior : Reconciliation) (usage : NormalizedUsage) :
    Except BudgetError Decimal := do
  raiseIf (¬ sameOptionalCost prior.actualCostUsd usage.actualCostUsd)
    (.reservationState "request reservation was reconciled with a different cost")
  raiseIf (prior.actualPromptTokens ≠ usage.promptTokens ∨
      prior.actualCompletionTokens ≠ usage.completionTokens ∨
      prior.actualReasoningTokens ≠ usage.reasoningTokens)
    (.reservationState "request reservation was reconciled with different token usage")
  raiseIf prior.costOverrun costOverrunError
  raiseIf prior.tokenOverrun tokenOverrunError
  .ok prior.accountedCostUsdExact

/-- The usage must fit the token plan of the reservation. -/
def checkTokenPlan (reservation : Reservation) (usage : NormalizedUsage) :
    Except BudgetError Unit := do
  raiseIf (reservation.plannedPromptTokens.isNone ∧
      (usage.promptTokens.isSome ∨ usage.completionTokens.isSome ∨ usage.reasoningTokens.isSome))
    (.reservationState "provider token usage cannot be reconciled without a token plan")
  raiseIf (reservation.plannedPromptTokens.isSome ∧
      (reservation.plannedCompletionTokens.isNone ∨ reservation.exactModelId.isNone))
    (.reservationState "request reservation has an incomplete token plan")
  raiseIf (usage.reasoningTokens.isSome ∧ reservation.plannedReasoningTokens.isNone)
    (.reservationState
      "provider reasoning-token usage cannot be reconciled without a split token plan")

/-- Reasoning was planned but a reported completion does not say how much of it
there was. -/
def reasoningObservationMissing (reservation : Reservation) (usage : NormalizedUsage) : Bool :=
  (reservation.plannedReasoningTokens.any fun planned => 0 < planned) &&
    usage.completionTokens.isSome && usage.reasoningTokens.isNone

def accountedPromptTokens (reservation : Reservation) (usage : NormalizedUsage) : Option ℤ :=
  usage.promptTokens.or reservation.plannedPromptTokens

def accountedCompletionTokens (reservation : Reservation) (usage : NormalizedUsage) : Option ℤ :=
  usage.completionTokens.or reservation.plannedCompletionTokens

def accountedReasoningTokens (reservation : Reservation) (usage : NormalizedUsage) : Option ℤ :=
  if usage.completionTokens.isNone ∨ reasoningObservationMissing reservation usage then
    reservation.plannedReasoningTokens
  else if usage.reasoningTokens.isNone ∧ reservation.plannedReasoningTokens = some 0 then
    some 0
  else
    usage.reasoningTokens

def accountedVisibleOutputTokens (reservation : Reservation) (usage : NormalizedUsage) :
    Option ℤ :=
  match accountedCompletionTokens reservation usage, accountedReasoningTokens reservation usage with
  | some completion, some reasoning => some (completion - reasoning)
  | _, _ => none

/-- The first count exceeds the second, when both are known. -/
def exceeds (first second : Option ℤ) : Bool :=
  match first, second with
  | some first, some second => second < first
  | _, _ => false

def tokenOverrun (reservation : Reservation) (usage : NormalizedUsage) : Bool :=
  reasoningObservationMissing reservation usage ||
    exceeds (accountedReasoningTokens reservation usage)
      (accountedCompletionTokens reservation usage) ||
    exceeds (accountedPromptTokens reservation usage) reservation.plannedPromptTokens ||
    exceeds (accountedCompletionTokens reservation usage) reservation.plannedCompletionTokens ||
    exceeds (accountedReasoningTokens reservation usage) reservation.plannedReasoningTokens ||
    exceeds (accountedVisibleOutputTokens reservation usage)
      reservation.plannedVisibleOutputTokens

/-- Whether a reported cost is above the reserved one. -/
def costExceeds (actual : Option Decimal) (estimated : Decimal) : Bool :=
  actual.any fun actual => estimated < actual

/-- What `reconcile` finds: an earlier reconciliation, or an active budget. -/
inductive Settlement
  | settled (result : Except BudgetError Decimal)
  | active (estimated : Decimal)

/-- The checks of `reconcile` under the lock. -/
def prepareReconcile (state : BudgetState) (reservation : Reservation) (usage : NormalizedUsage) :
    Except BudgetError Settlement := do
  requireIssued state reservation
  match state.reconciled.get? reservation.identifier with
  | some prior => .ok (.settled (repeatReconciliation prior usage))
  | none => do
      raiseIf (reservation.identifier ∈ state.released)
        (.reservationState "released request reservation cannot be reconciled")
      checkTokenPlan reservation usage
      match state.reserved.get? reservation.identifier with
      | none => .error (.reservationState "request reservation has no active budget")
      | some estimated => .ok (.active estimated)

/-- The durable part of a reconciliation: the file it leaves, and the overrun it
raised, if that was all it raised. -/
def persistReconciliation (settings : BudgetSettings) (view : LedgerView)
    (reservation : Reservation) (actual : Option Decimal) :
    SerializedState × Except BudgetError (Option CostLedgerError) :=
  match settings.atomicLedger, reservation.persistent with
  | some ledger, some persistent =>
      let outcome := ledger.reconcile view.file persistent (actual.map .finite) view.now
      match outcome.result with
      | .ok _ => (outcome.file, .ok none)
      | .error (.reservationOverrun message) =>
          (outcome.file, .ok (some (.reservationOverrun message)))
      | .error failure => (outcome.file, .error (.ledger failure))
  | _, _ => (view.file, .ok none)

/-- Take a reservation out of the reserved counters.  A failure keeps the
counters that were already changed. -/
def releaseScoped (state : BudgetState) (reservation : Reservation) (reservedCost : Decimal) :
    BudgetState × Except BudgetError Unit :=
  let counted := { state with
    reservedInputTokens := state.reservedInputTokens - reservation.plannedPromptTokens.getD 0
    reservedOutputTokens :=
      state.reservedOutputTokens - reservation.plannedCompletionTokens.getD 0 }
  match decrementOptional counted.reservedModelUsd reservation.exactModelId reservedCost with
  | .error failure => (counted, .error failure)
  | .ok models =>
      let modelled := { counted with reservedModelUsd := models }
      match decrementOptional modelled.reservedRoleUsd reservation.role reservedCost with
      | .error failure => (modelled, .error failure)
      | .ok roles => ({ modelled with reservedRoleUsd := roles }, .ok ())

/-- Add what was accounted to the spent counters. -/
def spendScoped (state : BudgetState) (reservation : Reservation) (accountedCost : Decimal)
    (promptTokens completionTokens : Option ℤ) : BudgetState :=
  { state with
    spentInputTokens := state.spentInputTokens + promptTokens.getD 0
    spentOutputTokens := state.spentOutputTokens + completionTokens.getD 0
    spentModelUsd :=
      incrementOptional state.spentModelUsd reservation.exactModelId accountedCost
    spentRoleUsd := incrementOptional state.spentRoleUsd reservation.role accountedCost }

/-- The record that a reconciliation leaves. -/
def reconciliationOf (reservation : Reservation) (usage : NormalizedUsage) (estimated : Decimal)
    (overrun : Bool) : Reconciliation where
  actualCostUsd := usage.actualCostUsd
  actualPromptTokens := usage.promptTokens
  actualCompletionTokens := usage.completionTokens
  actualReasoningTokens := usage.reasoningTokens
  accountedCostUsdExact := usage.actualCostUsd.getD estimated
  accountedPromptTokens := accountedPromptTokens reservation usage
  accountedCompletionTokens := accountedCompletionTokens reservation usage
  accountedReasoningTokens := accountedReasoningTokens reservation usage
  costOverrun := costExceeds usage.actualCostUsd estimated || overrun
  tokenOverrun := tokenOverrun reservation usage

/-- The state after the reserved counters were released. -/
def recordReconciliation (state : BudgetState) (reservation : Reservation)
    (record : Reconciliation) : BudgetState :=
  let spent := spendScoped state reservation record.accountedCostUsdExact
    record.accountedPromptTokens record.accountedCompletionTokens
  { spent with
    spentExact := defaultContext.add spent.spentExact record.accountedCostUsdExact
    reconciled := spent.reconciled.insert reservation.identifier record }

/-- What a finished reconciliation raises or returns. -/
def reconciliationResult (record : Reconciliation) (persistentOverrun : Option CostLedgerError) :
    Except BudgetError Decimal :=
  if record.costOverrun then
    .error (persistentOverrun.elim costOverrunError BudgetError.ledger)
  else if record.tokenOverrun then
    .error tokenOverrunError
  else
    .ok record.accountedCostUsdExact

def reconcile (settings : BudgetSettings) (state : BudgetState) (view : LedgerView)
    (reservation : Reservation) (usage : ReportedUsage) : BudgetOutcome Decimal :=
  match normalizeUsage usage with
  | .error failure => ⟨state, view.file, .error failure⟩
  | .ok normalized =>
      match prepareReconcile state reservation normalized with
      | .error failure => ⟨state, view.file, .error failure⟩
      | .ok (.settled result) => ⟨state, view.file, result⟩
      | .ok (.active estimated) =>
          match persistReconciliation settings view reservation normalized.actualCostUsd with
          | (file, .error failure) => ⟨state, file, .error failure⟩
          | (file, .ok persistentOverrun) =>
              let popped := { state with reserved := state.reserved.erase reservation.identifier }
              match releaseScoped popped reservation estimated with
              | (released, .error failure) => ⟨released, file, .error failure⟩
              | (released, .ok _) =>
                  let record := reconciliationOf reservation normalized estimated
                    persistentOverrun.isSome
                  ⟨recordReconciliation released reservation record, file,
                    reconciliationResult record persistentOverrun⟩

/-- The checks of `release`; nothing is left to do for a released reservation. -/
def prepareRelease (state : BudgetState) (reservation : Reservation) :
    Except BudgetError Bool := do
  requireIssued state reservation
  if reservation.identifier ∈ state.released then
    .ok false
  else
    raiseIf (reservation.identifier ∈ state.reconciled)
      (.reservationState "reconciled request reservation cannot be released")
    .ok true

def persistRelease (settings : BudgetSettings) (view : LedgerView) (reservation : Reservation) :
    SerializedState × Except BudgetError Unit :=
  match settings.atomicLedger, reservation.persistent with
  | some ledger, some persistent =>
      match ledger.release view.file persistent .failedBeforeSend view.now with
      | .ok locked => (locked.written.getD view.file, .ok ())
      | .error failure => (view.file, .error (.ledger failure))
  | _, _ => (view.file, .ok ())

def release (settings : BudgetSettings) (state : BudgetState) (view : LedgerView)
    (reservation : Reservation) : BudgetOutcome Unit :=
  match prepareRelease state reservation with
  | .error failure => ⟨state, view.file, .error failure⟩
  | .ok false => ⟨state, view.file, .ok ()⟩
  | .ok true =>
      match persistRelease settings view reservation with
      | (file, .error failure) => ⟨state, file, .error failure⟩
      | (file, .ok _) =>
          match state.reserved.get? reservation.identifier with
          | none =>
              ⟨state, file, .error (.reservationState "request reservation has no active budget")⟩
          | some reservedCost =>
              let popped := { state with reserved := state.reserved.erase reservation.identifier }
              match releaseScoped popped reservation reservedCost with
              | (released, .error failure) => ⟨released, file, .error failure⟩
              | (released, .ok _) =>
                  ⟨{ released with released := reservation.identifier :: released.released },
                    file, .ok ()⟩

/-! ## Runs -/

/-- One call of a public method. -/
inductive BudgetOperation
  | reserve (request : ReserveRequest)
  | reconcile (reservation : Reservation) (usage : ReportedUsage)
  | release (reservation : Reservation)

inductive BudgetResponse
  | reservation (reservation : Reservation)
  | cost (accounted : Decimal)
  | done
deriving DecidableEq

/-- Rename the value of an outcome. -/
def BudgetOutcome.map {Value : Type} (outcome : BudgetOutcome Value)
    (response : Value → BudgetResponse) : BudgetOutcome BudgetResponse :=
  ⟨outcome.state, outcome.file, response <$> outcome.result⟩

def perform (settings : BudgetSettings) (state : BudgetState) (view : LedgerView) :
    BudgetOperation → BudgetOutcome BudgetResponse
  | .reserve request => (reserve settings state view request).map .reservation
  | .reconcile reservation usage =>
      (reconcile settings state view reservation usage).map .cost
  | .release reservation => (release settings state view reservation).map fun _ => .done

/-- The manager after a list of calls, each finding the ledger file it is paired
with. -/
def runBudget (settings : BudgetSettings) (state : BudgetState)
    (history : List (LedgerView × BudgetOperation)) : BudgetState :=
  history.foldl (fun current call => (perform settings current call.1 call.2).state) state

@[simp]
theorem runBudget_nil (settings : BudgetSettings) (state : BudgetState) :
    runBudget settings state [] = state :=
  rfl

@[simp]
theorem runBudget_cons (settings : BudgetSettings) (state : BudgetState)
    (call : LedgerView × BudgetOperation) (history : List (LedgerView × BudgetOperation)) :
    runBudget settings state (call :: history) =
      runBudget settings (perform settings state call.1 call.2).state history :=
  rfl

theorem runBudget_append (settings : BudgetSettings) (state : BudgetState)
    (first second : List (LedgerView × BudgetOperation)) :
    runBudget settings state (first ++ second) =
      runBudget settings (runBudget settings state first) second :=
  List.foldl_append

end Budget

end MmAudit
