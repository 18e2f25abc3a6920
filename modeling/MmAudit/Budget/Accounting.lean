import MmAudit.Budget.Scoped

/-!
# The accounting invariant of the budget manager

Every counter of the manager is a sum over its own records: active reservations
for the reserved side, reconciliations for the spent side.  The invariant is
preserved by every call, including calls that raise halfway.

One thing is not preserved by every call.  Closing a reservation drops the key of
a scope whose total reached zero, even when another reservation without cost is
still active there; closing that one then raises after it was taken out of the
active reservations.  The issued identifiers are the disjoint union of the
active, the reconciled and the released ones exactly as long as this does not
happen.
-/

namespace MmAudit

namespace Budget

open Fallible CostLedger

/-! ## What a call can do -/

/-- Take an active reservation out of the manager. -/
def closeReservation (state : BudgetState) (reservation : Reservation) (cost : Decimal) :
    BudgetState × Except BudgetError Unit :=
  releaseScoped { state with reserved := state.reserved.erase reservation.identifier }
    reservation cost

/-- An issued reservation that holds an active budget. -/
structure ActiveReservation (state : BudgetState) (reservation : Reservation) (cost : Decimal) :
    Prop where
  issued : state.issued.get? reservation.identifier = some reservation
  active : state.reserved.get? reservation.identifier = some cost
  unreconciled : state.reconciled.get? reservation.identifier = none
  unreleased : reservation.identifier ∉ state.released

/-- The state after a call: as before, with a new reservation, or with one active
reservation closed.  A closing call is stuck when the reserved counters of its
scopes refuse it. -/
inductive StateChange (settings : BudgetSettings) (state : BudgetState)
    (outcome : BudgetOutcome BudgetResponse) : Prop
  | unchanged (same : outcome.state = state)
  | reserved (request : ReserveRequest) (admission : Admission)
      (persistent : Option CostReservation)
      (admitted : admitRequest settings state request = .ok admission)
      (recorded : outcome.state = recordReservation state (requestLimitKey request) admission
        { admission.reservation with persistent := persistent })
  | stuck (reservation : Reservation) (cost : Decimal) (failure : BudgetError)
      (active : ActiveReservation state reservation cost)
      (raised : (closeReservation state reservation cost).2 = .error failure)
      (left : outcome.state = (closeReservation state reservation cost).1)
      (result : outcome.result = .error failure)
  | reconciled (reservation : Reservation) (cost : Decimal) (usage : NormalizedUsage)
      (reported : ReportedUsage) (overrun : Option CostLedgerError)
      (normalized : normalizeUsage reported = .ok usage)
      (active : ActiveReservation state reservation cost)
      (planned : checkTokenPlan reservation usage = .ok ())
      (overrunKind : ∀ failure, overrun = some failure →
        ∃ message, failure = .reservationOverrun message)
      (closed : (closeReservation state reservation cost).2 = .ok ())
      (left : outcome.state = recordReconciliation (closeReservation state reservation cost).1
        reservation (reconciliationOf reservation usage cost overrun.isSome))
      (result : outcome.result = BudgetResponse.cost <$> reconciliationResult
        (reconciliationOf reservation usage cost overrun.isSome) overrun)
  | released (reservation : Reservation) (cost : Decimal)
      (active : ActiveReservation state reservation cost)
      (closed : (closeReservation state reservation cost).2 = .ok ())
      (left : outcome.state = { (closeReservation state reservation cost).1 with
        released := reservation.identifier :: (closeReservation state reservation cost).1.released })
      (result : outcome.result = .ok .done)

theorem reserve_state_cases (settings : BudgetSettings) (state : BudgetState) (view : LedgerView)
    (request : ReserveRequest) :
    (reserve settings state view request).state = state ∨
      ∃ admission persistent, admitRequest settings state request = .ok admission ∧
        (reserve settings state view request).state = recordReservation state
          (requestLimitKey request) admission
          { admission.reservation with persistent := persistent } := by
  rw [reserve]
  cases admitted : admitRequest settings state request with
  | error failure => exact .inl rfl
  | ok admission =>
      cases persisted : persistReservation settings view admission with
      | mk file persistent =>
          cases persistent with
          | error failure => exact .inl (by simp [persisted])
          | ok persistent => exact .inr ⟨admission, persistent, rfl, by simp [persisted]⟩

theorem reserve_change (settings : BudgetSettings) (state : BudgetState) (view : LedgerView)
    (request : ReserveRequest) :
    StateChange settings state ((reserve settings state view request).map .reservation) := by
  rcases reserve_state_cases settings state view request with
    same | ⟨admission, persistent, admitted, recorded⟩
  · exact .unchanged same
  · exact .reserved request admission persistent admitted recorded

theorem requireIssued_eq_ok {state : BudgetState} {reservation : Reservation} {done : Unit}
    (accepted : requireIssued state reservation = .ok done) :
    state.issued.get? reservation.identifier = some reservation :=
  not_not.mp (raiseIf_eq_ok_iff.mp accepted)

/-- A reconciliation that finds an active budget passed every check. -/
theorem prepareReconcile_active {state : BudgetState} {reservation : Reservation}
    {usage : NormalizedUsage} {cost : Decimal}
    (prepared : prepareReconcile state reservation usage = .ok (.active cost)) :
    ActiveReservation state reservation cost ∧ checkTokenPlan reservation usage = .ok () := by
  rw [prepareReconcile, bind_eq_ok_iff] at prepared
  obtain ⟨_, issued, prepared⟩ := prepared
  cases unreconciled : state.reconciled.get? reservation.identifier with
  | some prior =>
      rw [unreconciled] at prepared
      cases prepared
  | none =>
      rw [unreconciled] at prepared
      simp only [bind_eq_ok_iff] at prepared
      obtain ⟨_, unreleased, _, planned, prepared⟩ := prepared
      cases active : state.reserved.get? reservation.identifier with
      | none =>
          rw [active] at prepared
          cases prepared
      | some estimated =>
          rw [active] at prepared
          cases prepared
          exact ⟨⟨requireIssued_eq_ok issued, active, unreconciled,
            raiseIf_eq_ok_iff.mp unreleased⟩, planned⟩

theorem prepareRelease_true {state : BudgetState} {reservation : Reservation}
    (prepared : prepareRelease state reservation = .ok true) :
    state.issued.get? reservation.identifier = some reservation ∧
      state.reconciled.get? reservation.identifier = none ∧
      reservation.identifier ∉ state.released := by
  rw [prepareRelease, bind_eq_ok_iff] at prepared
  obtain ⟨_, issued, prepared⟩ := prepared
  split at prepared
  · cases prepared
  · rename_i unreleased
    obtain ⟨_, unreconciled, -⟩ := bind_eq_ok_iff.mp prepared
    exact ⟨requireIssued_eq_ok issued,
      (Dict.get?_eq_none_iff _ _).mpr (raiseIf_eq_ok_iff.mp unreconciled), unreleased⟩

theorem persistReconciliation_overrun {settings : BudgetSettings} {view : LedgerView}
    {reservation : Reservation} {actual : Option Decimal} {file : SerializedState}
    {overrun : Option CostLedgerError}
    (persisted : persistReconciliation settings view reservation actual = (file, .ok overrun)) :
    ∀ failure, overrun = some failure → ∃ message, failure = .reservationOverrun message := by
  rintro failure rfl
  simp only [persistReconciliation] at persisted
  split at persisted
  · split at persisted
    · cases persisted
    · cases persisted
      exact ⟨_, rfl⟩
    · cases persisted
  · cases persisted

theorem reconcile_change (settings : BudgetSettings) (state : BudgetState) (view : LedgerView)
    (reservation : Reservation) (reported : ReportedUsage) :
    StateChange settings state
      ((reconcile settings state view reservation reported).map .cost) := by
  rw [reconcile]
  cases normalized : normalizeUsage reported with
  | error failure => exact .unchanged rfl
  | ok usage =>
      simp only
      cases prepared : prepareReconcile state reservation usage with
      | error failure => exact .unchanged rfl
      | ok settlement =>
          cases settlement with
          | settled result => exact .unchanged rfl
          | active cost =>
              obtain ⟨active, planned⟩ := prepareReconcile_active prepared
              simp only
              cases persisted :
                  persistReconciliation settings view reservation usage.actualCostUsd with
              | mk file persistent =>
                  cases persistent with
                  | error failure => exact .unchanged rfl
                  | ok overrun =>
                      simp only
                      cases closed : closeReservation state reservation cost with
                      | mk left result =>
                          rw [closeReservation] at closed
                          rw [closed]
                          cases result with
                          | error failure =>
                              refine .stuck reservation cost failure active ?_ ?_ rfl <;>
                                rw [closeReservation, closed]
                              rfl
                          | ok _ =>
                              refine .reconciled reservation cost usage reported overrun
                                normalized active planned
                                (persistReconciliation_overrun persisted) ?_ ?_ rfl <;>
                                rw [closeReservation, closed]
                              rfl

theorem release_change (settings : BudgetSettings) (state : BudgetState) (view : LedgerView)
    (reservation : Reservation) :
    StateChange settings state
      ((release settings state view reservation).map fun _ => .done) := by
  rw [release]
  cases prepared : prepareRelease state reservation with
  | error failure => exact .unchanged rfl
  | ok needed =>
      cases needed with
      | false => exact .unchanged rfl
      | true =>
          obtain ⟨issued, unreconciled, unreleased⟩ := prepareRelease_true prepared
          simp only
          cases persisted : persistRelease settings view reservation with
          | mk file persistent =>
              cases persistent with
              | error failure => exact .unchanged rfl
              | ok _ =>
                  simp only
                  cases active : state.reserved.get? reservation.identifier with
                  | none => exact .unchanged rfl
                  | some cost =>
                      simp only
                      have found : ActiveReservation state reservation cost :=
                        ⟨issued, active, unreconciled, unreleased⟩
                      cases closed : closeReservation state reservation cost with
                      | mk left result =>
                          rw [closeReservation] at closed
                          rw [closed]
                          cases result with
                          | error failure =>
                              refine .stuck reservation cost failure found ?_ ?_ rfl <;>
                                rw [closeReservation, closed]
                              rfl
                          | ok _ =>
                              refine .released reservation cost found ?_ ?_ rfl <;>
                                rw [closeReservation, closed]
                              rfl

/-- A reconciliation changes the manager only when it finds an active budget. -/
theorem reconcile_state_cases (settings : BudgetSettings) (state : BudgetState)
    (view : LedgerView) (reservation : Reservation) (reported : ReportedUsage) :
    (reconcile settings state view reservation reported).state = state ∨
      ∃ usage cost, normalizeUsage reported = .ok usage ∧
        prepareReconcile state reservation usage = .ok (.active cost) := by
  rw [reconcile]
  cases normalized : normalizeUsage reported with
  | error failure => exact .inl rfl
  | ok usage =>
      simp only
      cases prepared : prepareReconcile state reservation usage with
      | error failure => exact .inl rfl
      | ok settlement =>
          cases settlement with
          | settled result => exact .inl rfl
          | active cost => exact .inr ⟨usage, cost, rfl, prepared⟩

theorem release_state_cases (settings : BudgetSettings) (state : BudgetState)
    (view : LedgerView) (reservation : Reservation) :
    (release settings state view reservation).state = state ∨
      prepareRelease state reservation = .ok true ∧ reservation.identifier ∈ state.reserved := by
  rw [release]
  cases prepared : prepareRelease state reservation with
  | error failure => exact .inl rfl
  | ok needed =>
      cases needed with
      | false => exact .inl rfl
      | true =>
          simp only
          cases persisted : persistRelease settings view reservation with
          | mk file persistent =>
              cases persistent with
              | error failure => exact .inl rfl
              | ok _ =>
                  simp only
                  cases active : state.reserved.get? reservation.identifier with
                  | none => exact .inl rfl
                  | some cost =>
                      exact .inr ⟨trivial, (Dict.mem_iff_exists_get? _ _).mpr ⟨cost, active⟩⟩

theorem perform_change (settings : BudgetSettings) (state : BudgetState) (view : LedgerView)
    (operation : BudgetOperation) :
    StateChange settings state (perform settings state view operation) := by
  cases operation with
  | reserve request => exact reserve_change settings state view request
  | reconcile reservation usage => exact reconcile_change settings state view reservation usage
  | release reservation => exact release_change settings state view reservation

/-! ## The sums -/

def accountedCost (record : Reconciliation) : ℚ :=
  record.accountedCostUsdExact.value

/-- Planned tokens of an issued reservation; no plan counts as none. -/
def plannedTokens (issued : Dict String Reservation) (select : Reservation → Option ℤ)
    (identifier : String) : ℤ :=
  ((issued.get? identifier).bind select).getD 0

/-- Every counter is the sum of the records it stands for. -/
structure Accounted (initial : ℚ) (state : BudgetState) : Prop where
  issuedKey : ∀ identifier reservation, state.issued.get? identifier = some reservation →
    reservation.identifier = identifier
  activeIssued : ∀ identifier, identifier ∈ state.reserved → identifier ∈ state.issued
  reconciledIssued : ∀ identifier, identifier ∈ state.reconciled → identifier ∈ state.issued
  costNonneg : ∀ identifier cost, state.reserved.get? identifier = some cost → 0 ≤ cost.value
  accountedNonneg : ∀ identifier record, state.reconciled.get? identifier = some record →
    0 ≤ accountedCost record
  reservedModel :
    Projects state.issued Reservation.exactModelId state.reserved Decimal.value
      state.reservedModelUsd
  reservedRole :
    Projects state.issued Reservation.role state.reserved Decimal.value state.reservedRoleUsd
  spentModel :
    Projects state.issued Reservation.exactModelId state.reconciled accountedCost
      state.spentModelUsd
  spentRole :
    Projects state.issued Reservation.role state.reconciled accountedCost state.spentRoleUsd
  reservedInput : state.reservedInputTokens = state.reserved.total fun identifier _ =>
    plannedTokens state.issued Reservation.plannedPromptTokens identifier
  reservedOutput : state.reservedOutputTokens = state.reserved.total fun identifier _ =>
    plannedTokens state.issued Reservation.plannedCompletionTokens identifier
  spentInput : state.spentInputTokens = state.reconciled.total fun _ record =>
    record.accountedPromptTokens.getD 0
  spentOutput : state.spentOutputTokens = state.reconciled.total fun _ record =>
    record.accountedCompletionTokens.getD 0
  spent : state.spentExact.value = initial + state.reconciled.total fun _ record =>
    accountedCost record

theorem accounted_initial (spent : Decimal) (recoveryRequired : Bool) :
    Accounted spent.value (BudgetState.initial spent recoveryRequired) := by
  constructor <;> simp [BudgetState.initial, Projects, amountOf, Dict.mem_iff_exists_get?]

/-- The amounts of a state lie on one grid and their sum fits the decimal
precision. -/
structure SumsFit (grid : ℤ) (initial : ℚ) (state : BudgetState) : Prop where
  initialGrid : Decimal.OnGrid grid initial
  reserved : ∀ identifier cost, state.reserved.get? identifier = some cost →
    Decimal.OnGrid grid cost.value
  accounted : ∀ identifier record, state.reconciled.get? identifier = some record →
    Decimal.OnGrid grid (accountedCost record)
  bound : initial + (state.reserved.total fun _ cost => cost.value) +
    (state.reconciled.total fun _ record => accountedCost record) <
      (10 : ℚ) ^ ((defaultContext.precision : ℤ) + grid)

theorem dict_total_nonneg {Item : Type} {items : Dict String Item} {amount : Item → ℚ}
    (nonneg : ∀ identifier item, items.get? identifier = some item → 0 ≤ amount item) :
    0 ≤ items.total fun _ item => amount item := by
  refine List.sum_nonneg fun value member => ?_
  obtain ⟨item, itemMem, rfl⟩ := List.mem_map.mp member
  exact nonneg item.1 item.2 ((Dict.get?_eq_some_iff _ _ _).mpr itemMem)

section Fits

variable {grid : ℤ} {initial : ℚ} {state : BudgetState}

theorem SumsFit.fitsReserved (fits : SumsFit grid initial state) (initialNonneg : 0 ≤ initial)
    (costNonneg : ∀ identifier cost, state.reserved.get? identifier = some cost → 0 ≤ cost.value)
    (accountedNonneg : ∀ identifier record, state.reconciled.get? identifier = some record →
      0 ≤ accountedCost record) :
    FitsTotal grid state.reserved Decimal.value where
  onGrid := fits.reserved
  nonneg := costNonneg
  bound := by
    have spentNonneg := dict_total_nonneg accountedNonneg
    have bound := fits.bound
    linarith

theorem SumsFit.fitsReconciled (fits : SumsFit grid initial state) (initialNonneg : 0 ≤ initial)
    (costNonneg : ∀ identifier cost, state.reserved.get? identifier = some cost → 0 ≤ cost.value)
    (accountedNonneg : ∀ identifier record, state.reconciled.get? identifier = some record →
      0 ≤ accountedCost record) :
    FitsTotal grid state.reconciled accountedCost where
  onGrid := fits.accounted
  nonneg := accountedNonneg
  bound := by
    have heldNonneg := dict_total_nonneg costNonneg
    have bound := fits.bound
    linarith

end Fits

/-! ## Admitted costs -/

theorem maximumRequestCost_nonneg {settings : BudgetSettings} {request : ReserveRequest}
    {cost : Decimal} (bounded : maximumRequestCost settings request = .ok cost) :
    0 ≤ cost.value := by
  rw [maximumRequestCost] at bounded
  cases boundCase : request.endpointCostBound with
  | none =>
      rw [boundCase] at bounded
      simp only [bind_eq_ok_iff] at bounded
      obtain ⟨_, -, costEq⟩ := bounded
      cases costEq
      exact settings.estimateRequestCost_nonneg _
  | some bound =>
      rw [boundCase] at bounded
      simp only [bind_eq_ok_iff] at bounded
      obtain ⟨_, -, _, -, _, -, _, -, _, -, costEq⟩ := bounded
      cases costEq
      have positive := (Decimal.lt_iff_value_lt _ _).mp bound.maximumCostUsd_pos
      have zero : (0 : Decimal).value = 0 := by simp
      rw [zero] at positive
      exact positive.le

/-- What the checks before a reservation establish. -/
structure Admitted (settings : BudgetSettings) (state : BudgetState) (request : ReserveRequest)
    (admission : Admission) : Prop where
  identifier : admission.reservation.identifier = request.identifier
  role : admission.reservation.role = some request.role
  fresh : state.issued.get? request.identifier = none
  costNonneg : 0 ≤ admission.maximumCost.value
  withinTotal : ¬ remainingTotal settings state < admission.maximumCost
  capacity : requireScopedCapacity settings state request.role admission.reservation.exactModelId
    admission.maximumCost admission.reservation.plannedPromptTokens
    admission.reservation.plannedCompletionTokens = .ok ()
  scope : ∃ scope, validateRequestScope settings request = .ok scope ∧
    admission.reservation.plannedPromptTokens = scope.promptTokens ∧
    admission.reservation.plannedCompletionTokens = scope.completionTokens

theorem admitted_of_admitRequest {settings : BudgetSettings} {state : BudgetState}
    {request : ReserveRequest} {admission : Admission}
    (admitted : admitRequest settings state request = .ok admission) :
    Admitted settings state request admission := by
  simp only [admitRequest, bind_eq_ok_iff] at admitted
  obtain ⟨_, -, cost, bounded, scope, resolved, _, -, _, fresh, _, -, _, -, _, -, _, within, _,
    capacity, _, -, _, -, _, -, admissionEq⟩ := admitted
  cases admissionEq
  exact {
    identifier := rfl
    role := rfl
    fresh := (Dict.get?_eq_none_iff _ _).mpr (raiseIf_eq_ok_iff.mp fresh)
    costNonneg := maximumRequestCost_nonneg bounded
    withinTotal := raiseIf_eq_ok_iff.mp within
    capacity := capacity
    scope := ⟨scope, resolved, rfl, rfl⟩ }

/-! ## Closing keeps the sums -/

/-- Everything closing leaves alone, and what it does to the active budgets. -/
theorem closeReservation_frame (state : BudgetState) (reservation : Reservation)
    (cost : Decimal) :
    (closeReservation state reservation cost).1.reserved =
        state.reserved.erase reservation.identifier ∧
      (closeReservation state reservation cost).1.issued = state.issued ∧
      (closeReservation state reservation cost).1.reconciled = state.reconciled ∧
      (closeReservation state reservation cost).1.released = state.released ∧
      (closeReservation state reservation cost).1.spentExact = state.spentExact ∧
      (closeReservation state reservation cost).1.spentInputTokens = state.spentInputTokens ∧
      (closeReservation state reservation cost).1.spentOutputTokens = state.spentOutputTokens ∧
      (closeReservation state reservation cost).1.spentModelUsd = state.spentModelUsd ∧
      (closeReservation state reservation cost).1.spentRoleUsd = state.spentRoleUsd ∧
      (closeReservation state reservation cost).1.reservedInputTokens =
        state.reservedInputTokens - reservation.plannedPromptTokens.getD 0 ∧
      (closeReservation state reservation cost).1.reservedOutputTokens =
        state.reservedOutputTokens - reservation.plannedCompletionTokens.getD 0 := by
  simp only [closeReservation, releaseScoped]
  cases decrementOptional state.reservedModelUsd reservation.exactModelId cost with
  | error failure => simp
  | ok models =>
      simp only
      cases decrementOptional state.reservedRoleUsd reservation.role cost with
      | error failure => simp
      | ok roles => simp

/-- The scoped totals after closing, case by case. -/
theorem closeReservation_scopes (state : BudgetState) (reservation : Reservation)
    (cost : Decimal) :
    (∃ failure, decrementOptional state.reservedModelUsd reservation.exactModelId cost =
        .error failure ∧ (closeReservation state reservation cost).2 = .error failure ∧
      (closeReservation state reservation cost).1.reservedModelUsd = state.reservedModelUsd ∧
      (closeReservation state reservation cost).1.reservedRoleUsd = state.reservedRoleUsd) ∨
    (∃ models failure, decrementOptional state.reservedModelUsd reservation.exactModelId cost =
        .ok models ∧ decrementOptional state.reservedRoleUsd reservation.role cost =
        .error failure ∧ (closeReservation state reservation cost).2 = .error failure ∧
      (closeReservation state reservation cost).1.reservedModelUsd = models ∧
      (closeReservation state reservation cost).1.reservedRoleUsd = state.reservedRoleUsd) ∨
    (∃ models roles, decrementOptional state.reservedModelUsd reservation.exactModelId cost =
        .ok models ∧ decrementOptional state.reservedRoleUsd reservation.role cost =
        .ok roles ∧ (closeReservation state reservation cost).2 = .ok () ∧
      (closeReservation state reservation cost).1.reservedModelUsd = models ∧
      (closeReservation state reservation cost).1.reservedRoleUsd = roles) := by
  simp only [closeReservation, releaseScoped]
  cases decrementOptional state.reservedModelUsd reservation.exactModelId cost with
  | error failure => exact .inl ⟨failure, rfl, rfl, rfl, rfl⟩
  | ok models =>
      simp only
      cases decrementOptional state.reservedRoleUsd reservation.role cost with
      | error failure => exact .inr (.inl ⟨models, failure, rfl, rfl, rfl, rfl, rfl⟩)
      | ok roles => exact .inr (.inr ⟨models, roles, rfl, rfl, rfl, rfl, rfl⟩)

section Closing

variable {grid : ℤ} {initial : ℚ} {state : BudgetState} {reservation : Reservation}
  {cost : Decimal}

/-- The scoped totals still project the active budgets after closing, also when
closing was refused halfway. -/
theorem Accounted.close_scopes (tiny : defaultContext.etiny ≤ grid)
    (accounted : Accounted initial state) (fits : FitsTotal grid state.reserved Decimal.value)
    (active : ActiveReservation state reservation cost) :
    Projects state.issued Reservation.exactModelId (state.reserved.erase reservation.identifier)
        Decimal.value (closeReservation state reservation cost).1.reservedModelUsd ∧
      Projects state.issued Reservation.role (state.reserved.erase reservation.identifier)
        Decimal.value (closeReservation state reservation cost).1.reservedRoleUsd := by
  have model := accounted.reservedModel
  have role := accounted.reservedRole
  rcases closeReservation_scopes state reservation cost with
    ⟨failure, refused, -, modelEq, roleEq⟩ | ⟨models, failure, taken, refused, -, modelEq, roleEq⟩ |
    ⟨models, roles, modelTaken, roleTaken, -, modelEq, roleEq⟩ <;>
    rw [modelEq, roleEq]
  · obtain ⟨zero, -⟩ := model.decrement_error active.active active.issued rfl fits refused
    exact ⟨model.erase_of_zero active.active zero, role.erase_of_zero active.active zero⟩
  · obtain ⟨zero, -⟩ := role.decrement_error active.active active.issued rfl fits refused
    exact ⟨model.decrement tiny active.active active.issued rfl fits taken,
      role.erase_of_zero active.active zero⟩
  · exact ⟨model.decrement tiny active.active active.issued rfl fits modelTaken,
      role.decrement tiny active.active active.issued rfl fits roleTaken⟩

theorem mem_erase {Item : Type} {items : Dict String Item} {identifier other : String}
    (member : other ∈ items.erase identifier) : other ∈ items := by
  rw [Dict.mem_iff_exists_get?] at member ⊢
  obtain ⟨item, stored⟩ := member
  rw [Dict.get?_erase] at stored
  split at stored
  · cases stored
  · exact ⟨item, stored⟩

theorem Accounted.close (tiny : defaultContext.etiny ≤ grid) (accounted : Accounted initial state)
    (fits : FitsTotal grid state.reserved Decimal.value)
    (active : ActiveReservation state reservation cost) :
    Accounted initial (closeReservation state reservation cost).1 := by
  obtain ⟨reservedEq, issuedEq, reconciledEq, -, spentEq, spentInputEq, spentOutputEq,
    spentModelEq, spentRoleEq, inputEq, outputEq⟩ := closeReservation_frame state reservation cost
  obtain ⟨model, role⟩ := accounted.close_scopes tiny fits active
  have plannedShare : ∀ select : Reservation → Option ℤ,
      plannedTokens state.issued select reservation.identifier = (select reservation).getD 0 := by
    intro select
    rw [plannedTokens, active.issued, Option.bind_some]
  constructor
  · rw [issuedEq]
    exact accounted.issuedKey
  · rw [issuedEq, reservedEq]
    exact fun identifier member => accounted.activeIssued identifier (mem_erase member)
  · rw [issuedEq, reconciledEq]
    exact accounted.reconciledIssued
  · rw [reservedEq]
    intro identifier other stored
    rw [Dict.get?_erase] at stored
    split at stored
    · cases stored
    · exact accounted.costNonneg identifier other stored
  · rw [reconciledEq]
    exact accounted.accountedNonneg
  · rw [issuedEq, reservedEq]
    exact model
  · rw [issuedEq, reservedEq]
    exact role
  · rw [issuedEq, reconciledEq, spentModelEq]
    exact accounted.spentModel
  · rw [issuedEq, reconciledEq, spentRoleEq]
    exact accounted.spentRole
  · rw [inputEq, issuedEq, reservedEq, Dict.total_erase_of_some _ active.active,
      accounted.reservedInput, plannedShare]
  · rw [outputEq, issuedEq, reservedEq, Dict.total_erase_of_some _ active.active,
      accounted.reservedOutput, plannedShare]
  · rw [spentInputEq, reconciledEq]
    exact accounted.spentInput
  · rw [spentOutputEq, reconciledEq]
    exact accounted.spentOutput
  · rw [spentEq, reconciledEq]
    exact accounted.spent

end Closing

/-! ## Recording keeps the sums -/

section Recording

variable {grid : ℤ} {initial : ℚ} {state : BudgetState} {reservation : Reservation}

theorem mem_insert_iff {Item : Type} {items : Dict String Item} {identifier other : String}
    {item : Item} : other ∈ items.insert identifier item ↔ other = identifier ∨ other ∈ items := by
  rw [Dict.mem_iff_exists_get?, Dict.mem_iff_exists_get?, Dict.get?_insert]
  by_cases same : other = identifier <;> simp [same]

theorem forall_insert {Item : Type} {items : Dict String Item} {identifier : String}
    {item : Item} {good : Item → Prop} (itemGood : good item)
    (rest : ∀ other value, items.get? other = some value → good value) :
    ∀ other value, (items.insert identifier item).get? other = some value → good value := by
  intro other value stored
  rw [Dict.get?_insert] at stored
  split at stored
  · cases stored
    exact itemGood
  · exact rest other value stored

/-- Recording a reconciliation of a closed reservation keeps the sums. -/
theorem Accounted.recordReconciliation (tiny : defaultContext.etiny ≤ grid)
    (initialNonneg : 0 ≤ initial) (accounted : Accounted initial state)
    (issued : state.issued.get? reservation.identifier = some reservation)
    (unreconciled : state.reconciled.get? reservation.identifier = none)
    {record : Reconciliation} (recordNonneg : 0 ≤ accountedCost record)
    (fits : SumsFit grid initial (Budget.recordReconciliation state reservation record)) :
    Accounted initial (Budget.recordReconciliation state reservation record) := by
  have accountedNonneg : ∀ identifier value,
      (state.reconciled.insert reservation.identifier record).get? identifier = some value →
        0 ≤ accountedCost value :=
    forall_insert recordNonneg accounted.accountedNonneg
  have fitsReconciled : FitsTotal grid
      (state.reconciled.insert reservation.identifier record) accountedCost :=
    fits.fitsReconciled initialNonneg accounted.costNonneg accountedNonneg
  have spentTotal : initial + ((state.reconciled.insert reservation.identifier record).total
      fun _ record => accountedCost record) =
      state.spentExact.value + record.accountedCostUsdExact.value := by
    rw [Dict.total_insert_of_none _ _ unreconciled, accounted.spent, accountedCost]
    ring
  have exactSpent : defaultContext.Represents
      (state.spentExact.value + record.accountedCostUsdExact.value) := by
    have heldNonneg := dict_total_nonneg accounted.costNonneg
    have spentNonneg := dict_total_nonneg accountedNonneg
    have spentGrid := (inRange_total fitsReconciled).1
    have bound : initial + (state.reserved.total fun _ cost => cost.value) +
        ((state.reconciled.insert reservation.identifier record).total
          fun _ record => accountedCost record) <
        (10 : ℚ) ^ ((defaultContext.precision : ℤ) + grid) := fits.bound
    rw [← spentTotal]
    exact InRange.represents tiny
      ⟨fits.initialGrid.add spentGrid, by linarith, by linarith⟩
  constructor
  · exact accounted.issuedKey
  · exact accounted.activeIssued
  · intro identifier member
    rcases mem_insert_iff.mp member with rfl | earlier
    · exact (Dict.mem_iff_exists_get? _ _).mpr ⟨reservation, issued⟩
    · exact accounted.reconciledIssued identifier earlier
  · exact accounted.costNonneg
  · exact accountedNonneg
  · exact accounted.reservedModel
  · exact accounted.reservedRole
  · exact accounted.spentModel.increment tiny unreconciled issued (fun _ _ => rfl) rfl
      fitsReconciled
  · exact accounted.spentRole.increment tiny unreconciled issued (fun _ _ => rfl) rfl
      fitsReconciled
  · exact accounted.reservedInput
  · exact accounted.reservedOutput
  · change state.spentInputTokens + _ = _
    rw [accounted.spentInput]
    exact (Dict.total_insert_of_none _ _ unreconciled).symm
  · change state.spentOutputTokens + _ = _
    rw [accounted.spentOutput]
    exact (Dict.total_insert_of_none _ _ unreconciled).symm
  · change (defaultContext.add state.spentExact record.accountedCostUsdExact).value = _
    rw [Decimal.value_add_of_represents exactSpent, ← spentTotal]
    rfl

/-- What recording a reservation changes. -/
theorem recordReservation_frame (state : BudgetState) (key : RequestLimitKey)
    (admission : Admission) (reservation : Reservation) :
    let recorded := recordReservation state key admission reservation
    recorded.reserved = state.reserved.insert reservation.identifier admission.maximumCost ∧
      recorded.issued = state.issued.insert reservation.identifier reservation ∧
      recorded.reconciled = state.reconciled ∧ recorded.released = state.released ∧
      recorded.spentExact = state.spentExact ∧
      recorded.spentInputTokens = state.spentInputTokens ∧
      recorded.spentOutputTokens = state.spentOutputTokens ∧
      recorded.spentModelUsd = state.spentModelUsd ∧
      recorded.spentRoleUsd = state.spentRoleUsd ∧
      recorded.reservedInputTokens =
        state.reservedInputTokens + reservation.plannedPromptTokens.getD 0 ∧
      recorded.reservedOutputTokens =
        state.reservedOutputTokens + reservation.plannedCompletionTokens.getD 0 ∧
      recorded.reservedModelUsd = incrementOptional state.reservedModelUsd
        reservation.exactModelId admission.maximumCost ∧
      recorded.reservedRoleUsd = incrementOptional state.reservedRoleUsd
        reservation.role admission.maximumCost := by
  simp only [recordReservation, reserveScoped]
  cases admission.adoption <;> simp

theorem plannedTokens_insert {issued : Dict String Reservation} {identifier other : String}
    {reservation : Reservation} {select : Reservation → Option ℤ} (different : other ≠ identifier) :
    plannedTokens (issued.insert identifier reservation) select other =
      plannedTokens issued select other := by
  rw [plannedTokens, plannedTokens, Dict.get?_insert_ne _ _ different]

/-- Recording an admitted reservation keeps the sums. -/
theorem Accounted.recordReservation (tiny : defaultContext.etiny ≤ grid)
    (initialNonneg : 0 ≤ initial) (accounted : Accounted initial state)
    (fresh : state.issued.get? reservation.identifier = none) {key : RequestLimitKey}
    {admission : Admission} (costNonneg : 0 ≤ admission.maximumCost.value)
    (fits : SumsFit grid initial (Budget.recordReservation state key admission reservation)) :
    Accounted initial (Budget.recordReservation state key admission reservation) := by
  obtain ⟨reservedEq, issuedEq, reconciledEq, -, spentEq, spentInputEq, spentOutputEq,
    spentModelEq, spentRoleEq, inputEq, outputEq, modelEq, roleEq⟩ :=
    recordReservation_frame state key admission reservation
  have notIssued : reservation.identifier ∉ state.issued := (Dict.get?_eq_none_iff _ _).mp fresh
  have inactive : state.reserved.get? reservation.identifier = none :=
    (Dict.get?_eq_none_iff _ _).mpr fun member => notIssued (accounted.activeIssued _ member)
  have unreconciled : reservation.identifier ∉ state.reconciled := fun member =>
    notIssued (accounted.reconciledIssued _ member)
  have insertedNonneg : ∀ identifier cost,
      (state.reserved.insert reservation.identifier admission.maximumCost).get? identifier =
        some cost → 0 ≤ cost.value :=
    forall_insert costNonneg accounted.costNonneg
  have fitsReserved : FitsTotal grid
      (state.reserved.insert reservation.identifier admission.maximumCost) Decimal.value := by
    have fitsAfter := fits.fitsReserved initialNonneg (by rw [reservedEq]; exact insertedNonneg)
      (by rw [reconciledEq]; exact accounted.accountedNonneg)
    rwa [reservedEq] at fitsAfter
  have agree : ∀ other, other ≠ reservation.identifier →
      (state.issued.insert reservation.identifier reservation).get? other =
        state.issued.get? other := fun other different => Dict.get?_insert_ne _ _ different
  have stored := Dict.get?_insert_self state.issued reservation.identifier reservation
  have spentShares : ∀ select values,
      Projects state.issued select state.reconciled accountedCost values →
        Projects (state.issued.insert reservation.identifier reservation) select state.reconciled
          accountedCost values := by
    intro select values projects scope
    rw [projects scope]
    refine Dict.total_congr fun identifier record recordStored => ?_
    refine (scopeShare_congr (agree identifier ?_)).symm
    rintro rfl
    exact unreconciled ((Dict.mem_iff_exists_get? _ _).mpr ⟨record, recordStored⟩)
  have tokens : ∀ select : Reservation → Option ℤ,
      ((state.reserved.insert reservation.identifier admission.maximumCost).total
        fun identifier _ => plannedTokens
          (state.issued.insert reservation.identifier reservation) select identifier) =
      (state.reserved.total fun identifier _ => plannedTokens state.issued select identifier) +
        (select reservation).getD 0 := by
    intro select
    rw [Dict.total_insert_of_none _ _ inactive]
    congr 1
    · refine Dict.total_congr fun identifier cost costStored => plannedTokens_insert ?_
      rintro rfl
      rw [inactive] at costStored
      cases costStored
    · rw [plannedTokens, stored, Option.bind_some]
  constructor
  · rw [issuedEq]
    intro identifier other otherStored
    rw [Dict.get?_insert] at otherStored
    split at otherStored
    · rename_i same
      cases otherStored
      exact same.symm
    · exact accounted.issuedKey identifier other otherStored
  · rw [issuedEq, reservedEq]
    intro identifier member
    exact mem_insert_iff.mpr ((mem_insert_iff.mp member).imp id (accounted.activeIssued identifier))
  · rw [issuedEq, reconciledEq]
    exact fun identifier member =>
      mem_insert_iff.mpr (.inr (accounted.reconciledIssued identifier member))
  · rw [reservedEq]
    exact insertedNonneg
  · rw [reconciledEq]
    exact accounted.accountedNonneg
  · rw [issuedEq, reservedEq, modelEq]
    exact accounted.reservedModel.increment tiny inactive stored agree rfl fitsReserved
  · rw [issuedEq, reservedEq, roleEq]
    exact accounted.reservedRole.increment tiny inactive stored agree rfl fitsReserved
  · rw [issuedEq, reconciledEq, spentModelEq]
    exact spentShares _ _ accounted.spentModel
  · rw [issuedEq, reconciledEq, spentRoleEq]
    exact spentShares _ _ accounted.spentRole
  · rw [inputEq, issuedEq, reservedEq, tokens, accounted.reservedInput]
  · rw [outputEq, issuedEq, reservedEq, tokens, accounted.reservedOutput]
  · rw [spentInputEq, reconciledEq]
    exact accounted.spentInput
  · rw [spentOutputEq, reconciledEq]
    exact accounted.spentOutput
  · rw [spentEq, reconciledEq]
    exact accounted.spent

end Recording

/-! ## Runs keep the sums -/

theorem quantizeCeiling_nonneg {number : Decimal} (nonneg : 0 ≤ number.value) :
    0 ≤ (quantizeCeiling number).value := by
  have coefficientNonneg := (Decimal.value_nonneg_iff number).mp nonneg
  rw [Decimal.value_nonneg_iff, quantizeCeiling]
  split
  · exact mul_nonneg coefficientNonneg (by positivity)
  · simp only [Left.nonneg_neg_iff]
    exact Int.ediv_nonpos_of_nonpos_of_neg (by omega) (by positivity)

theorem normalizeUsage_cost_nonneg {reported : ReportedUsage} {usage : NormalizedUsage}
    (normalized : normalizeUsage reported = .ok usage) :
    ∀ actual, usage.actualCostUsd = some actual → 0 ≤ actual.value := by
  simp only [normalizeUsage, bind_eq_ok_iff] at normalized
  obtain ⟨cost, costNormalized, _, -, _, -, _, -, _, -, usageEq⟩ := normalized
  cases usageEq
  intro actual costEq
  simp only at costEq
  subst costEq
  cases argument : reported.actualCostUsd with
  | none =>
      rw [argument] at costNormalized
      cases costNormalized
  | some argument' =>
      rw [argument] at costNormalized
      cases argument' with
      | infinite => cases costNormalized
      | notANumber => cases costNormalized
      | finite number =>
          simp only [normalizeActualCost, bind_eq_ok_iff] at costNormalized
          obtain ⟨_, sign, _, -, quantized⟩ := costNormalized
          cases quantized
          have nonneg := raiseIf_eq_ok_iff.mp sign
          rw [Decimal.lt_iff_value_lt, not_lt] at nonneg
          exact quantizeCeiling_nonneg (by simpa using nonneg)

section Runs

variable {grid : ℤ} {initial : ℚ} {settings : BudgetSettings} {state : BudgetState}

theorem Accounted.perform (tiny : defaultContext.etiny ≤ grid) (initialNonneg : 0 ≤ initial)
    (accounted : Accounted initial state) (fits : SumsFit grid initial state)
    {view : LedgerView} {operation : BudgetOperation}
    (fitsAfter : SumsFit grid initial (Budget.perform settings state view operation).state) :
    Accounted initial (Budget.perform settings state view operation).state := by
  have fitsReserved := fits.fitsReserved initialNonneg accounted.costNonneg
    accounted.accountedNonneg
  cases perform_change settings state view operation with
  | unchanged same => rwa [same]
  | reserved request admission persistent admitted recorded =>
      have checked := admitted_of_admitRequest admitted
      rw [recorded] at fitsAfter ⊢
      refine accounted.recordReservation tiny initialNonneg ?_ checked.costNonneg fitsAfter
      exact checked.identifier ▸ checked.fresh
  | stuck reservation cost failure active raised left result =>
      rw [left]
      exact accounted.close tiny fitsReserved active
  | released reservation cost active closed left result =>
      rw [left]
      have kept := accounted.close tiny fitsReserved active
      exact ⟨kept.issuedKey, kept.activeIssued, kept.reconciledIssued, kept.costNonneg,
        kept.accountedNonneg, kept.reservedModel, kept.reservedRole, kept.spentModel,
        kept.spentRole, kept.reservedInput, kept.reservedOutput, kept.spentInput,
        kept.spentOutput, kept.spent⟩
  | reconciled reservation cost usage reported overrun normalized active planned overrunKind
      closed left result =>
      rw [left] at fitsAfter ⊢
      obtain ⟨-, issuedEq, reconciledEq, -⟩ := closeReservation_frame state reservation cost
      refine (accounted.close tiny fitsReserved active).recordReconciliation tiny initialNonneg
        ?_ ?_ ?_ fitsAfter
      · rw [issuedEq]
        exact active.issued
      · rw [reconciledEq]
        exact active.unreconciled
      · change 0 ≤ (usage.actualCostUsd.getD cost).value
        cases actual : usage.actualCostUsd with
        | none => exact accounted.costNonneg _ _ active.active
        | some amount => exact normalizeUsage_cost_nonneg normalized amount actual

/-- Along a run whose sums fit, every counter is the sum it stands for. -/
theorem Accounted.runBudget (tiny : defaultContext.etiny ≤ grid) (initialNonneg : 0 ≤ initial)
    (accounted : Accounted initial state) (history : List (LedgerView × BudgetOperation))
    (fits : ∀ before, before <+: history →
      SumsFit grid initial (Budget.runBudget settings state before)) :
    Accounted initial (Budget.runBudget settings state history) := by
  induction history generalizing state with
  | nil => exact accounted
  | cons call history ih =>
      have fitsNow : SumsFit grid initial state := fits [] List.nil_prefix
      have fitsNext : SumsFit grid initial (Budget.perform settings state call.1 call.2).state :=
        fits [call] (List.prefix_cons_iff.mpr (.inr ⟨[], rfl, List.nil_prefix⟩))
      refine ih (accounted.perform tiny initialNonneg fitsNow fitsNext) fun before isPrefix => ?_
      exact fits (call :: before) ((List.prefix_cons_inj call).mpr isPrefix)

end Runs

end Budget

end MmAudit
