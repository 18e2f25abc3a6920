import MmAudit.Budget.Closing

/-!
# All caps of the budget manager hold together

A reservation is admitted only when it fits the total, both token budgets, and
the caps of its model and role.  Settling it without an overrun never counts more
than was reserved, in none of these dimensions, so every cap holds in every state
of a run without overruns.

The comparisons run in the 28-digit context of the process.  They are exact for
amounts whose sums fit it; beyond that a sum is rounded and a cap can be exceeded
by the part that was rounded away.
-/

namespace MmAudit

namespace Budget

open Fallible CostLedger

/-! ## Statement -/

/-- Everything spent and reserved is within the configured limits. -/
structure WithinCaps (settings : BudgetSettings) (state : BudgetState) : Prop where
  total : state.spentExact.value + (state.reserved.total fun _ cost => cost.value) ≤
    settings.totalUsd.value
  input : ∀ budget, settings.globalInputTokenBudget = some budget →
    state.spentInputTokens + state.reservedInputTokens ≤ budget
  output : ∀ budget, settings.globalOutputTokenBudget = some budget →
    state.spentOutputTokens + state.reservedOutputTokens ≤ budget
  model : ∀ key cap, settings.perModelUsdCaps.get? key = some cap →
    amountOf state.spentModelUsd key + amountOf state.reservedModelUsd key ≤ cap.value
  role : ∀ key cap, settings.perRoleUsdCaps.get? key = some cap →
    amountOf state.spentRoleUsd key + amountOf state.reservedRoleUsd key ≤ cap.value

/-- The configured amounts lie on the grid and fit the decimal precision. -/
structure SettingsFit (grid : ℤ) (settings : BudgetSettings) : Prop where
  total : InRange grid settings.totalUsd.value
  model : ∀ key cap, settings.perModelUsdCaps.get? key = some cap → InRange grid cap.value
  role : ∀ key cap, settings.perRoleUsdCaps.get? key = some cap → InRange grid cap.value

/-- The failures that report a cost or token overrun. -/
def BudgetError.IsOverrun : BudgetError → Prop
  | .ledger (.reservationOverrun _) => True
  | .tokenOverrun _ => True
  | _ => False

/-- No call of a history raised an overrun. -/
def WithoutOverruns (settings : BudgetSettings) (state : BudgetState) :
    List (LedgerView × BudgetOperation) → Prop
  | [] => True
  | call :: history =>
      (∀ failure, (perform settings state call.1 call.2).result = .error failure →
        ¬ failure.IsOverrun) ∧
      WithoutOverruns settings (perform settings state call.1 call.2).state history

/-! ## Exact comparisons -/

section Exactness

variable {grid : ℤ}

theorem value_sub_of_inRange (tiny : defaultContext.etiny ≤ grid) {first second : Decimal}
    (firstRange : InRange grid first.value) (secondRange : InRange grid second.value) :
    (defaultContext.sub first second).value = first.value - second.value := by
  refine Decimal.value_sub_of_represents (Decimal.Context.represents_of_onGrid
    (firstRange.1.sub secondRange.1) tiny ?_)
  obtain ⟨-, firstNonneg, firstBound⟩ := firstRange
  obtain ⟨-, secondNonneg, secondBound⟩ := secondRange
  rw [abs_lt]
  constructor <;> linarith

/-- Subtracting two amounts in a row is exact when together they fit the
minuend. -/
theorem value_sub_sub_of_inRange (tiny : defaultContext.etiny ≤ grid)
    {limit spent reserved : Decimal} (limitRange : InRange grid limit.value)
    (spentRange : InRange grid spent.value) (reservedRange : InRange grid reserved.value)
    (within : spent.value + reserved.value ≤ limit.value) :
    (defaultContext.sub (defaultContext.sub limit spent) reserved).value =
      limit.value - spent.value - reserved.value := by
  have firstValue := value_sub_of_inRange tiny limitRange spentRange
  have firstRange : InRange grid (defaultContext.sub limit spent).value := by
    rw [firstValue]
    have spentNonneg := spentRange.2.1
    have reservedNonneg := reservedRange.2.1
    refine ⟨limitRange.1.sub spentRange.1, by linarith, ?_⟩
    have limitBound := limitRange.2.2
    linarith
  rw [value_sub_of_inRange tiny firstRange reservedRange, firstValue]

variable {initial : ℚ} {settings : BudgetSettings} {state : BudgetState}

theorem inRange_spentExact (initialNonneg : 0 ≤ initial) (accounted : Accounted initial state)
    (fits : SumsFit grid initial state) : InRange grid state.spentExact.value := by
  have heldNonneg := dict_total_nonneg accounted.costNonneg
  obtain ⟨spentGrid, spentNonneg, -⟩ := inRange_total
    (fits.fitsReconciled initialNonneg accounted.costNonneg accounted.accountedNonneg)
  have bound := fits.bound
  rw [accounted.spent]
  exact ⟨fits.initialGrid.add spentGrid, by linarith, by linarith⟩

theorem value_sum_reserved (tiny : defaultContext.etiny ≤ grid)
    (fits : FitsTotal grid state.reserved Decimal.value) :
    (defaultContext.sum state.reserved.values).value =
      state.reserved.total fun _ cost => cost.value := by
  have mapped : (state.reserved.values.map Decimal.value).sum =
      state.reserved.total fun _ cost => cost.value := by
    simp only [Dict.values, Dict.total, List.map_map]
    rfl
  have stored : ∀ cost ∈ state.reserved.values, ∃ identifier,
      state.reserved.get? identifier = some cost := by
    intro cost member
    obtain ⟨item, itemMem, rfl⟩ := List.mem_map.mp member
    exact ⟨item.1, (Dict.get?_eq_some_iff _ _ _).mpr itemMem⟩
  rw [Decimal.value_sum tiny _ _ _ (mapped ▸ fits.bound), mapped]
  · intro cost member
    obtain ⟨identifier, costStored⟩ := stored cost member
    exact fits.onGrid identifier cost costStored
  · intro cost member
    obtain ⟨identifier, costStored⟩ := stored cost member
    exact fits.nonneg identifier cost costStored

/-- A request that passes the check of the total fits beside everything spent and
reserved. -/
theorem admitted_within_total (tiny : defaultContext.etiny ≤ grid) (initialNonneg : 0 ≤ initial)
    (settingsFit : SettingsFit grid settings) (accounted : Accounted initial state)
    (fits : SumsFit grid initial state) (within : WithinCaps settings state) {cost : Decimal}
    (admitted : ¬ remainingTotal settings state < cost) :
    state.spentExact.value + (state.reserved.total fun _ cost => cost.value) + cost.value ≤
      settings.totalUsd.value := by
  have fitsReserved := fits.fitsReserved initialNonneg accounted.costNonneg
    accounted.accountedNonneg
  have reservedValue := value_sum_reserved tiny fitsReserved
  have remaining := value_sub_sub_of_inRange tiny settingsFit.total
    (inRange_spentExact initialNonneg accounted fits) (reservedValue ▸ inRange_total fitsReserved)
    (reservedValue ▸ within.total)
  rw [remainingTotal, Decimal.lt_iff_value_lt, not_lt, remaining, reservedValue] at admitted
  linarith

theorem capacity_within_cap (tiny : defaultContext.etiny ≤ grid) {scope key : String}
    {maximumCost cap : Decimal} {caps spent reserved : Dict String Decimal}
    (capRange : InRange grid cap.value) (spentRange : InRange grid (amountOf spent key))
    (reservedRange : InRange grid (amountOf reserved key)) (capStored : caps.get? key = some cap)
    (within : amountOf spent key + amountOf reserved key ≤ cap.value)
    (passes : requireUsdScopeCapacity scope key maximumCost caps spent reserved = .ok ()) :
    amountOf spent key + amountOf reserved key + maximumCost.value ≤ cap.value := by
  rw [requireUsdScopeCapacity, capStored] at passes
  have enough := raiseIf_eq_ok_iff.mp passes
  rw [← value_getD_get?] at spentRange reservedRange
  rw [← value_getD_get? spent, ← value_getD_get? reserved] at within
  rw [Decimal.lt_iff_value_lt, not_lt,
    value_sub_sub_of_inRange tiny capRange spentRange reservedRange within, value_getD_get?,
    value_getD_get?] at enough
  linarith

end Exactness

/-! ## Settling never counts more than was reserved -/

theorem accounted_prompt_le {reservation : Reservation} {usage : NormalizedUsage}
    (planned : checkTokenPlan reservation usage = .ok ())
    (noOverrun : tokenOverrun reservation usage = false) :
    (accountedPromptTokens reservation usage).getD 0 ≤
      reservation.plannedPromptTokens.getD 0 := by
  simp only [checkTokenPlan, bind_eq_ok_iff] at planned
  obtain ⟨_, unplanned, -⟩ := planned
  have unplanned := raiseIf_eq_ok_iff.mp unplanned
  simp only [tokenOverrun, Bool.or_eq_false_iff] at noOverrun
  have within := noOverrun.1.1.1.2
  rw [accountedPromptTokens] at within ⊢
  cases reported : usage.promptTokens with
  | none => simp
  | some actual =>
      cases plan : reservation.plannedPromptTokens with
      | none => simp [reported, plan] at unplanned
      | some ceiling =>
          simp only [reported, plan, Option.some_or, exceeds, decide_eq_false_iff_not,
            not_lt] at within
          simpa using within

theorem accounted_completion_le {reservation : Reservation} {usage : NormalizedUsage}
    (planned : checkTokenPlan reservation usage = .ok ())
    (noOverrun : tokenOverrun reservation usage = false) :
    (accountedCompletionTokens reservation usage).getD 0 ≤
      reservation.plannedCompletionTokens.getD 0 := by
  simp only [checkTokenPlan, bind_eq_ok_iff] at planned
  obtain ⟨_, unplanned, _, incomplete, -⟩ := planned
  have unplanned := raiseIf_eq_ok_iff.mp unplanned
  have incomplete := raiseIf_eq_ok_iff.mp incomplete
  simp only [tokenOverrun, Bool.or_eq_false_iff] at noOverrun
  have within := noOverrun.1.1.2
  rw [accountedCompletionTokens] at within ⊢
  cases reported : usage.completionTokens with
  | none => simp
  | some actual =>
      cases plan : reservation.plannedCompletionTokens with
      | none =>
          cases prompt : reservation.plannedPromptTokens with
          | none => simp [reported, prompt] at unplanned
          | some ceiling => simp [plan, prompt] at incomplete
      | some ceiling =>
          simp only [reported, plan, Option.some_or, exceeds, decide_eq_false_iff_not,
            not_lt] at within
          simpa using within

theorem accounted_cost_le {usage : NormalizedUsage} {cost : Decimal}
    (noOverrun : costExceeds usage.actualCostUsd cost = false) :
    (usage.actualCostUsd.getD cost).value ≤ cost.value := by
  cases reported : usage.actualCostUsd with
  | none => simp
  | some actual =>
      simp only [reported, costExceeds, Option.any_some, decide_eq_false_iff_not,
        Decimal.lt_iff_value_lt, not_lt] at noOverrun
      simpa using noOverrun

/-- A settled result without overrun was recorded without one. -/
theorem no_overrun_of_result {record : Reconciliation} {overrun : Option CostLedgerError}
    (overrunKind : ∀ failure, overrun = some failure →
      ∃ message, failure = .reservationOverrun message)
    (result : ∀ failure, (BudgetResponse.cost <$> reconciliationResult record overrun) =
      .error failure → ¬ failure.IsOverrun) :
    record.costOverrun = false ∧ record.tokenOverrun = false := by
  simp only [map_eq_error_iff, reconciliationResult] at result
  constructor
  · by_contra overran
    rw [Bool.not_eq_false] at overran
    rw [if_pos overran] at result
    refine result _ rfl ?_
    cases recorded : overrun with
    | none => trivial
    | some failure =>
        obtain ⟨message, rfl⟩ := overrunKind failure recorded
        trivial
  · by_contra overran
    rw [Bool.not_eq_false] at overran
    by_cases cost : record.costOverrun = true
    · rw [if_pos cost] at result
      refine result _ rfl ?_
      cases recorded : overrun with
      | none => trivial
      | some failure =>
          obtain ⟨message, rfl⟩ := overrunKind failure recorded
          trivial
    · rw [if_neg cost, if_pos overran] at result
      exact result _ rfl trivial

/-! ## Steps -/

section Steps

variable {grid : ℤ} {initial : ℚ} {settings : BudgetSettings} {state : BudgetState}

/-- Closing only lowers what is reserved. -/
theorem close_amounts (tiny : defaultContext.etiny ≤ grid) (accounted : Accounted initial state)
    (fits : FitsTotal grid state.reserved Decimal.value) {reservation : Reservation}
    {cost : Decimal} (active : ActiveReservation state reservation cost) (scope : Scope)
    (key : String) :
    amountOf (scope.reservedUsd (closeReservation state reservation cost).1) key =
      amountOf (scope.reservedUsd state) key -
        if scope.select reservation = some key then cost.value else 0 := by
  have total := total_erase_projected (accounted.projects scope) active.active active.issued key
  rw [← total]
  obtain ⟨model, role⟩ := accounted.close_scopes tiny fits active
  cases scope with
  | model => exact model key
  | role => exact role key

/-- Taking an active reservation out keeps all caps. -/
theorem WithinCaps.close (tiny : defaultContext.etiny ≤ grid)
    (accounted : Accounted initial state) (fits : FitsTotal grid state.reserved Decimal.value)
    (within : WithinCaps settings state) {reservation : Reservation} {cost : Decimal}
    (active : ActiveReservation state reservation cost)
    (promptNonneg : 0 ≤ reservation.plannedPromptTokens.getD 0)
    (completionNonneg : 0 ≤ reservation.plannedCompletionTokens.getD 0) :
    WithinCaps settings (closeReservation state reservation cost).1 := by
  obtain ⟨reservedEq, -, -, -, spentEq, spentInputEq, spentOutputEq, spentModelEq, spentRoleEq,
    inputEq, outputEq⟩ := closeReservation_frame state reservation cost
  have costNonneg := accounted.costNonneg _ _ active.active
  have share : ∀ (scope : Scope) key,
      0 ≤ if scope.select reservation = some key then cost.value else 0 := by
    intro scope key
    split
    · exact costNonneg
    · exact le_rfl
  constructor
  · rw [spentEq, reservedEq, Dict.total_erase_of_some _ active.active]
    have total := within.total
    linarith
  · intro budget configured
    rw [spentInputEq, inputEq]
    have input := within.input budget configured
    omega
  · intro budget configured
    rw [spentOutputEq, outputEq]
    have output := within.output budget configured
    omega
  · intro key cap configured
    have model := within.model key cap configured
    have amount := close_amounts tiny accounted fits active .model key
    have nonneg := share .model key
    simp only [Scope.reservedUsd] at amount
    rw [spentModelEq, amount]
    linarith
  · intro key cap configured
    have role := within.role key cap configured
    have amount := close_amounts tiny accounted fits active .role key
    have nonneg := share .role key
    simp only [Scope.reservedUsd] at amount
    rw [spentRoleEq, amount]
    linarith

theorem inRange_amountOf {Item : Type} {items : Dict String Item} {amount : Item → ℚ}
    {issued : Dict String Reservation} {select : Reservation → Option String}
    {values : Dict String Decimal} (projects : Projects issued select items amount values)
    (fits : FitsTotal grid items amount) (key : String) : InRange grid (amountOf values key) := by
  rw [projects key]
  exact inRange_projected fits issued select key

theorem exceedsTokens_eq_false {planned budget : Option ℤ} {spent reserved : ℤ}
    (fits : exceedsTokens planned budget spent reserved = false) {limit : ℤ}
    (configured : budget = some limit) (within : spent + reserved ≤ limit) :
    spent + (reserved + planned.getD 0) ≤ limit := by
  subst configured
  cases planned with
  | none => simpa using within
  | some ceiling =>
      simp only [exceedsTokens, decide_eq_false_iff_not, not_lt] at fits
      simp only [Option.getD_some]
      omega

/-- An admitted reservation fits under every cap. -/
theorem WithinCaps.recordReservation (tiny : defaultContext.etiny ≤ grid)
    (initialNonneg : 0 ≤ initial) (settingsFit : SettingsFit grid settings)
    (accounted : Accounted initial state) (fits : SumsFit grid initial state)
    (within : WithinCaps settings state) {request : ReserveRequest} {admission : Admission}
    (admitted : Admitted settings state request admission) (persistent : Option CostReservation)
    (accountedNext : Accounted initial (Budget.recordReservation state (requestLimitKey request)
      admission { admission.reservation with persistent := persistent })) :
    WithinCaps settings (Budget.recordReservation state (requestLimitKey request) admission
      { admission.reservation with persistent := persistent }) := by
  obtain ⟨reservedEq, issuedEq, -, -, spentEq, spentInputEq, spentOutputEq, spentModelEq,
    spentRoleEq, inputEq, outputEq, -⟩ := recordReservation_frame state (requestLimitKey request)
    admission { admission.reservation with persistent := persistent }
  have fitsReserved := fits.fitsReserved initialNonneg accounted.costNonneg
    accounted.accountedNonneg
  have fitsReconciled := fits.fitsReconciled initialNonneg accounted.costNonneg
    accounted.accountedNonneg
  have fresh : state.issued.get? admission.reservation.identifier = none :=
    admitted.identifier ▸ admitted.fresh
  have inactive : state.reserved.get? admission.reservation.identifier = none :=
    (Dict.get?_eq_none_iff _ _).mpr fun member =>
      (Dict.get?_eq_none_iff _ _).mp fresh (accounted.activeIssued _ member)
  have amounts : ∀ (scope : Scope) key,
      amountOf (scope.reservedUsd (Budget.recordReservation state (requestLimitKey request)
        admission { admission.reservation with persistent := persistent })) key =
      amountOf (scope.reservedUsd state) key +
        if scope.select admission.reservation = some key then admission.maximumCost.value
        else 0 := by
    intro scope key
    rw [accountedNext.projects scope key, issuedEq, reservedEq]
    have inserted := total_insert_projected (accounted.projects scope)
      admission.maximumCost inactive
      (Dict.get?_insert_self _ _ { admission.reservation with persistent := persistent })
      (fun other different => Dict.get?_insert_ne _ _ different) key
    cases scope <;> exact inserted
  have capacity := admitted.capacity
  simp only [requireScopedCapacity, bind_eq_ok_iff] at capacity
  obtain ⟨_, inputFits, _, outputFits, _, modelFits, roleFits⟩ := capacity
  have inputFits := raiseIf_eq_ok_iff.mp inputFits
  have outputFits := raiseIf_eq_ok_iff.mp outputFits
  rw [Bool.not_eq_true] at inputFits outputFits
  constructor
  · rw [spentEq, reservedEq, Dict.total_insert_of_none _ _ inactive]
    have total := admitted_within_total tiny initialNonneg settingsFit accounted fits within
      admitted.withinTotal
    linarith
  · intro budget configured
    rw [spentInputEq, inputEq]
    exact exceedsTokens_eq_false inputFits configured (within.input budget configured)
  · intro budget configured
    rw [spentOutputEq, outputEq]
    exact exceedsTokens_eq_false outputFits configured (within.output budget configured)
  · intro key cap configured
    have amount := amounts .model key
    have cappedBefore := within.model key cap configured
    simp only [Scope.reservedUsd] at amount
    rw [spentModelEq, amount]
    by_cases selected : Scope.model.select admission.reservation = some key
    · rw [if_pos selected]
      have chosen : admission.reservation.exactModelId = some key := selected
      rw [chosen] at modelFits
      have passes := capacity_within_cap tiny (settingsFit.model key cap configured)
        (inRange_amountOf accounted.spentModel fitsReconciled key)
        (inRange_amountOf accounted.reservedModel fitsReserved key) configured cappedBefore
        modelFits
      linarith
    · rw [if_neg selected]
      linarith
  · intro key cap configured
    have amount := amounts .role key
    have cappedBefore := within.role key cap configured
    simp only [Scope.reservedUsd] at amount
    rw [spentRoleEq, amount]
    by_cases selected : Scope.role.select admission.reservation = some key
    · rw [if_pos selected]
      have chosen : admission.reservation.role = some key := selected
      rw [admitted.role, Option.some.injEq] at chosen
      subst chosen
      have passes := capacity_within_cap tiny (settingsFit.role _ cap configured)
        (inRange_amountOf accounted.spentRole fitsReconciled _)
        (inRange_amountOf accounted.reservedRole fitsReserved _) configured cappedBefore roleFits
      linarith
    · rw [if_neg selected]
      linarith

/-- Settling a reservation without overrun moves at most what was reserved to the
spent side. -/
theorem WithinCaps.reconcile (tiny : defaultContext.etiny ≤ grid)
    (accounted : Accounted initial state) (fits : FitsTotal grid state.reserved Decimal.value)
    (within : WithinCaps settings state) {reservation : Reservation} {cost : Decimal}
    (active : ActiveReservation state reservation cost) {usage : NormalizedUsage}
    (planned : checkTokenPlan reservation usage = .ok ()) {overrun : Bool}
    (costFine : (reconciliationOf reservation usage cost overrun).costOverrun = false)
    (tokensFine : (reconciliationOf reservation usage cost overrun).tokenOverrun = false)
    (accountedNext : Accounted initial (recordReconciliation
      (closeReservation state reservation cost).1 reservation
      (reconciliationOf reservation usage cost overrun))) :
    WithinCaps settings (recordReconciliation (closeReservation state reservation cost).1
      reservation (reconciliationOf reservation usage cost overrun)) := by
  obtain ⟨reservedEq, issuedEq, reconciledEq, -, -, spentInputEq, spentOutputEq, -, -,
    inputEq, outputEq⟩ := closeReservation_frame state reservation cost
  have costExceeding : costExceeds usage.actualCostUsd cost = false :=
    (Bool.or_eq_false_iff.mp costFine).1
  have costLe := accounted_cost_le costExceeding
  have promptLe := accounted_prompt_le planned tokensFine
  have completionLe := accounted_completion_le planned tokensFine
  have spentAmounts : ∀ (select : Reservation → Option String) (before after : Dict String Decimal),
      Projects state.issued select state.reconciled accountedCost before →
      Projects state.issued select (state.reconciled.insert reservation.identifier
        (reconciliationOf reservation usage cost overrun)) accountedCost after →
      ∀ key, amountOf after key = amountOf before key +
        if select reservation = some key then (usage.actualCostUsd.getD cost).value else 0 := by
    intro select before after projectsBefore projectsAfter key
    rw [projectsAfter key]
    exact total_insert_projected projectsBefore _ active.unreconciled active.issued
      (fun _ _ => rfl) key
  have nextIssued : (recordReconciliation (closeReservation state reservation cost).1 reservation
      (reconciliationOf reservation usage cost overrun)).issued = state.issued := issuedEq
  have nextReconciled : (recordReconciliation (closeReservation state reservation cost).1
      reservation (reconciliationOf reservation usage cost overrun)).reconciled =
      state.reconciled.insert reservation.identifier
        (reconciliationOf reservation usage cost overrun) := by
    rw [← reconciledEq]
    rfl
  constructor
  · rw [accountedNext.spent, nextReconciled,
      Dict.total_insert_of_none _ _ active.unreconciled]
    change _ + ((closeReservation state reservation cost).1.reserved.total _) ≤ _
    rw [reservedEq, Dict.total_erase_of_some _ active.active]
    have total := within.total
    rw [accounted.spent] at total
    change initial + (_ + (usage.actualCostUsd.getD cost).value) + _ ≤ _
    linarith
  · intro budget configured
    have input := within.input budget configured
    change (closeReservation state reservation cost).1.spentInputTokens +
      (accountedPromptTokens reservation usage).getD 0 +
      (closeReservation state reservation cost).1.reservedInputTokens ≤ budget
    rw [spentInputEq, inputEq]
    omega
  · intro budget configured
    have output := within.output budget configured
    change (closeReservation state reservation cost).1.spentOutputTokens +
      (accountedCompletionTokens reservation usage).getD 0 +
      (closeReservation state reservation cost).1.reservedOutputTokens ≤ budget
    rw [spentOutputEq, outputEq]
    omega
  · intro key cap configured
    have model := within.model key cap configured
    have projectsAfter := accountedNext.spentModel
    rw [nextIssued, nextReconciled] at projectsAfter
    rw [spentAmounts _ _ _ accounted.spentModel projectsAfter key]
    change _ + amountOf (Scope.model.reservedUsd (closeReservation state reservation cost).1)
      key ≤ _
    rw [close_amounts tiny accounted fits active .model key]
    by_cases selected : reservation.exactModelId = some key
    · have chosen : Scope.model.select reservation = some key := selected
      rw [if_pos selected, if_pos chosen, Scope.reservedUsd]
      linarith
    · have other : Scope.model.select reservation ≠ some key := selected
      rw [if_neg selected, if_neg other, Scope.reservedUsd]
      linarith
  · intro key cap configured
    have role := within.role key cap configured
    have projectsAfter := accountedNext.spentRole
    rw [nextIssued, nextReconciled] at projectsAfter
    rw [spentAmounts _ _ _ accounted.spentRole projectsAfter key]
    change _ + amountOf (Scope.role.reservedUsd (closeReservation state reservation cost).1)
      key ≤ _
    rw [close_amounts tiny accounted fits active .role key]
    by_cases selected : reservation.role = some key
    · have chosen : Scope.role.select reservation = some key := selected
      rw [if_pos selected, if_pos chosen, Scope.reservedUsd]
      linarith
    · have other : Scope.role.select reservation ≠ some key := selected
      rw [if_neg selected, if_neg other, Scope.reservedUsd]
      linarith

end Steps

/-! ## Token counts -/

/-- Planned and accounted tokens are never negative. -/
structure TokensNonneg (state : BudgetState) : Prop where
  planned : ∀ identifier reservation, state.issued.get? identifier = some reservation →
    0 ≤ reservation.plannedPromptTokens.getD 0 ∧ 0 ≤ reservation.plannedCompletionTokens.getD 0
  accounted : ∀ identifier record, state.reconciled.get? identifier = some record →
    0 ≤ record.accountedPromptTokens.getD 0 ∧ 0 ≤ record.accountedCompletionTokens.getD 0

theorem validateOptionalTokenCount_eq_ok {count result : Option ℤ} {field : String}
    (valid : validateOptionalTokenCount count field = .ok result) :
    result = count ∧ ∀ tokens, result = some tokens → 0 ≤ tokens ∧ tokens ≤ maxMeteredUnits := by
  cases count with
  | none =>
      obtain rfl := Except.ok.inj valid
      exact ⟨rfl, fun tokens impossible => by cases impossible⟩
  | some tokens =>
      simp only [validateOptionalTokenCount, map_eq_ok_iff, validateTokenCount,
        bind_eq_ok_iff] at valid
      obtain ⟨value, ⟨_, inRange, valueEq⟩, rfl⟩ := valid
      cases valueEq
      refine ⟨rfl, fun other same => ?_⟩
      cases same
      exact not_not.mp (raiseIf_eq_ok_iff.mp inRange)

theorem getD_nonneg_of_valid {count : Option ℤ}
    (valid : ∀ tokens, count = some tokens → 0 ≤ tokens ∧ tokens ≤ maxMeteredUnits) :
    0 ≤ count.getD 0 := by
  cases count with
  | none => exact le_rfl
  | some tokens => exact (valid tokens rfl).1

/-- What `_validate_request_scope` guarantees about the resolved request. -/
structure ValidScope (settings : BudgetSettings) (request : ReserveRequest)
    (scope : RequestScope) : Prop where
  role : matchesRolePattern request.role = true
  modelId : ∀ modelId, scope.modelId = some modelId → matchesModelIdPattern modelId = true
  prompt : ∀ tokens, scope.promptTokens = some tokens → 0 ≤ tokens ∧ tokens ≤ maxMeteredUnits
  completion : ∀ tokens, scope.completionTokens = some tokens →
    0 ≤ tokens ∧ tokens ≤ maxMeteredUnits
  visible : ∀ tokens, scope.visibleOutputTokens = some tokens →
    0 ≤ tokens ∧ tokens ≤ maxMeteredUnits
  reasoning : ∀ tokens, scope.reasoningTokens = some tokens →
    0 ≤ tokens ∧ tokens ≤ maxMeteredUnits
  split : scope.visibleOutputTokens.isSome →
    scope.visibleOutputTokens.getD 0 + scope.reasoningTokens.getD 0 =
      scope.completionTokens.getD 0
  planSha256 : ∀ digest, scope.planSha256 = some digest → matchesSha256Pattern digest = true

theorem boundModelId_valid {request : ReserveRequest} {resolved : Option String} {done : Unit}
    (valid : validateOptionalModelId request.exactModelId = .ok done)
    (bound : boundModelId request = .ok resolved) :
    ∀ modelId, resolved = some modelId → matchesModelIdPattern modelId = true := by
  intro modelId resolvedEq
  subst resolvedEq
  rw [boundModelId] at bound
  cases boundCase : request.endpointCostBound with
  | none =>
      rw [boundCase] at bound
      have same := Except.ok.inj bound
      rw [same, validateOptionalModelId, validateScopeKey] at valid
      exact not_not.mp (raiseIf_eq_ok_iff.mp valid)
  | some endpoint =>
      rw [boundCase] at bound
      simp only [bind_eq_ok_iff] at bound
      obtain ⟨_, -, resolvedEq⟩ := bound
      cases resolvedEq
      exact endpoint.exactModelId_valid

theorem validScope_of_validateRequestScope {settings : BudgetSettings} {request : ReserveRequest}
    {scope : RequestScope} (valid : validateRequestScope settings request = .ok scope) :
    ValidScope settings request scope := by
  simp only [validateRequestScope, bind_eq_ok_iff] at valid
  obtain ⟨_, role, _, model, modelId, bound, prompt, promptValid, completion, completionValid,
    visible, visibleValid, reasoning, reasoningValid, _, -, _, -, _, -, _, split, _, digest, _, -,
    _, -, _, -, _, -, _, -, _, -, _, -, scopeEq⟩ := valid
  cases scopeEq
  have split := raiseIf_eq_ok_iff.mp split
  have digest := raiseIf_eq_ok_iff.mp digest
  exact {
    role := not_not.mp (raiseIf_eq_ok_iff.mp role)
    modelId := boundModelId_valid model bound
    prompt := (validateOptionalTokenCount_eq_ok promptValid).2
    completion := (validateOptionalTokenCount_eq_ok completionValid).2
    visible := (validateOptionalTokenCount_eq_ok visibleValid).2
    reasoning := (validateOptionalTokenCount_eq_ok reasoningValid).2
    split := fun isSplit => by
      by_contra different
      exact split ⟨isSplit, different⟩
    planSha256 := fun text stored => by
      simp only at stored
      rw [stored] at digest
      simpa using digest }

theorem tokensNonneg_initial (spent : Decimal) (recoveryRequired : Bool) :
    TokensNonneg (BudgetState.initial spent recoveryRequired) := by
  constructor <;> simp [BudgetState.initial]

theorem normalizeUsage_tokens_nonneg {reported : ReportedUsage} {usage : NormalizedUsage}
    (normalized : normalizeUsage reported = .ok usage) :
    (∀ tokens, usage.promptTokens = some tokens → 0 ≤ tokens) ∧
      ∀ tokens, usage.completionTokens = some tokens → 0 ≤ tokens := by
  simp only [normalizeUsage, bind_eq_ok_iff] at normalized
  obtain ⟨_, -, prompt, promptValid, completion, completionValid, _, -, _, -, usageEq⟩ :=
    normalized
  cases usageEq
  exact ⟨fun tokens stored => ((validateOptionalTokenCount_eq_ok promptValid).2 tokens stored).1,
    fun tokens stored => ((validateOptionalTokenCount_eq_ok completionValid).2 tokens stored).1⟩

theorem getD_or_nonneg {reported planned : Option ℤ}
    (reportedNonneg : ∀ tokens, reported = some tokens → 0 ≤ tokens)
    (plannedNonneg : 0 ≤ planned.getD 0) : 0 ≤ (reported.or planned).getD 0 := by
  cases reported with
  | none => simpa using plannedNonneg
  | some tokens => simpa using reportedNonneg tokens rfl

theorem TokensNonneg.perform {settings : BudgetSettings} {state : BudgetState}
    (tokens : TokensNonneg state) (view : LedgerView) (operation : BudgetOperation) :
    TokensNonneg (Budget.perform settings state view operation).state := by
  cases perform_change settings state view operation with
  | unchanged same => rwa [same]
  | reserved request admission persistent admitted recorded =>
      obtain ⟨-, issuedEq, reconciledEq, -⟩ := recordReservation_frame state
        (requestLimitKey request) admission { admission.reservation with persistent := persistent }
      obtain ⟨scope, resolved, promptEq, completionEq⟩ := (admitted_of_admitRequest admitted).scope
      have valid := validScope_of_validateRequestScope resolved
      rw [recorded]
      refine ⟨?_, by rw [reconciledEq]; exact tokens.accounted⟩
      rw [issuedEq]
      refine forall_insert ?_ tokens.planned
      rw [promptEq, completionEq]
      exact ⟨getD_nonneg_of_valid valid.prompt, getD_nonneg_of_valid valid.completion⟩
  | stuck reservation cost failure active raised left result =>
      obtain ⟨-, issuedEq, reconciledEq, -⟩ := closeReservation_frame state reservation cost
      rw [left]
      exact ⟨by rw [issuedEq]; exact tokens.planned, by rw [reconciledEq]; exact tokens.accounted⟩
  | released reservation cost active closed left result =>
      obtain ⟨-, issuedEq, reconciledEq, -⟩ := closeReservation_frame state reservation cost
      rw [left]
      refine ⟨?_, ?_⟩
      · change ∀ identifier reservation', (closeReservation state reservation cost).1.issued.get?
          identifier = some reservation' → _
        rw [issuedEq]
        exact tokens.planned
      · change ∀ identifier record, (closeReservation state reservation cost).1.reconciled.get?
          identifier = some record → _
        rw [reconciledEq]
        exact tokens.accounted
  | reconciled reservation cost usage reported overrun normalized active planned overrunKind
      closed left result =>
      obtain ⟨-, issuedEq, reconciledEq, -⟩ := closeReservation_frame state reservation cost
      obtain ⟨promptNonneg, completionNonneg⟩ := normalizeUsage_tokens_nonneg normalized
      obtain ⟨plannedPrompt, plannedCompletion⟩ := tokens.planned _ _ active.issued
      rw [left]
      refine ⟨?_, ?_⟩
      · change ∀ identifier reservation', (closeReservation state reservation cost).1.issued.get?
          identifier = some reservation' → _
        rw [issuedEq]
        exact tokens.planned
      · change ∀ identifier record, ((closeReservation state reservation cost).1.reconciled.insert
          reservation.identifier _).get? identifier = some record → _
        rw [reconciledEq]
        exact forall_insert ⟨getD_or_nonneg promptNonneg plannedPrompt,
          getD_or_nonneg completionNonneg plannedCompletion⟩ tokens.accounted

/-! ## Token evidence -/

theorem requireMetered_of_le {field : String} {count : ℤ} (nonneg : 0 ≤ count)
    (bounded : count ≤ maxMeteredUnits) : requireMetered field count = .ok () :=
  raiseIf_eq_ok_iff.mpr (not_not.mpr ⟨nonneg, bounded⟩)

theorem remainingTokenCapacity_of_le {limit spent reserved : ℤ} (within : spent + reserved ≤ limit)
    (field : String) :
    remainingTokenCapacity (some limit) spent reserved field =
      .ok (some (limit - spent - reserved)) := by
  rw [remainingTokenCapacity, bind_eq_ok_iff]
  exact ⟨(), raiseIf_eq_ok_iff.mpr (by omega), rfl⟩

/-- Both limits are finite and nothing exceeds them. -/
structure TokensWithin (inputLimit outputLimit spentInput reservedInput spentOutput
    reservedOutput : ℤ) : Prop where
  spentInput_nonneg : 0 ≤ spentInput
  reservedInput_nonneg : 0 ≤ reservedInput
  spentOutput_nonneg : 0 ≤ spentOutput
  reservedOutput_nonneg : 0 ≤ reservedOutput
  input : spentInput + reservedInput ≤ inputLimit
  output : spentOutput + reservedOutput ≤ outputLimit
  inputLimit_metered : inputLimit ≤ maxMeteredUnits
  outputLimit_metered : outputLimit ≤ maxMeteredUnits

section Evidence

variable {inputLimit outputLimit spentInput reservedInput spentOutput reservedOutput : ℤ}

theorem tokenBudgetState_of_within
    (within : TokensWithin inputLimit outputLimit spentInput reservedInput spentOutput
      reservedOutput) :
    tokenBudgetState (some inputLimit) (some outputLimit) spentInput reservedInput spentOutput
      reservedOutput = .ok ⟨spentInput, reservedInput,
        some (inputLimit - spentInput - reservedInput), spentOutput, reservedOutput,
        some (outputLimit - spentOutput - reservedOutput)⟩ := by
  obtain ⟨spentInputNonneg, reservedInputNonneg, spentOutputNonneg, reservedOutputNonneg, input,
    output, inputMax, outputMax⟩ := within
  simp only [tokenBudgetState, bind_eq_ok_iff]
  exact ⟨_, remainingTokenCapacity_of_le input "input", _,
    remainingTokenCapacity_of_le output "output", (),
    requireMetered_of_le spentInputNonneg (by omega), (),
    requireMetered_of_le reservedInputNonneg (by omega), (),
    requireMetered_of_le (by omega) (by omega), (),
    requireMetered_of_le spentOutputNonneg (by omega), (),
    requireMetered_of_le reservedOutputNonneg (by omega), (),
    requireMetered_of_le (by omega) (by omega), rfl⟩

theorem validateTokenState_of_within
    (within : TokensWithin inputLimit outputLimit spentInput reservedInput spentOutput
      reservedOutput) :
    validateTokenState ⟨spentInput, reservedInput, some (inputLimit - spentInput - reservedInput),
        spentOutput, reservedOutput, some (outputLimit - spentOutput - reservedOutput)⟩
      (some inputLimit) (some outputLimit) = .ok () := by
  simp only [validateTokenState, bind_eq_ok_iff]
  exact ⟨_, remainingTokenCapacity_of_le within.input "input", (),
    raiseIf_eq_ok_iff.mpr (not_not.mpr rfl), _,
    remainingTokenCapacity_of_le within.output "output",
    raiseIf_eq_ok_iff.mpr (not_not.mpr rfl)⟩

end Evidence

/-- The request identifiers that token evidence accepts. -/
def EvidenceIdentifier (identifier : String) : Prop :=
  identifier ≠ "" ∧ identifier.length ≤ 256 ∧ (identifier.toList.any fun character =>
    isSpaceCharacter character || character.toNat < 32) = false

instance (identifier : String) : Decidable (EvidenceIdentifier identifier) :=
  inferInstanceAs (Decidable (_ ∧ _ ∧ _))

/-- Evidence can be built for a valid request that fits both token budgets. -/
theorem exists_build {identifier modelId role planSha256 : String}
    {prompt visible reasoning completion inputLimit outputLimit spentInput reservedInput
      spentOutput reservedOutput : ℤ}
    (accepted : EvidenceIdentifier identifier) (modelValid : matchesModelIdPattern modelId = true)
    (roleValid : matchesRolePattern role = true) (planValid : matchesSha256Pattern planSha256 = true)
    (promptRange : 0 ≤ prompt ∧ prompt ≤ maxMeteredUnits)
    (visibleRange : 0 ≤ visible ∧ visible ≤ maxMeteredUnits)
    (reasoningRange : 0 ≤ reasoning ∧ reasoning ≤ maxMeteredUnits)
    (completionRange : 0 ≤ completion ∧ completion ≤ maxMeteredUnits)
    (split : visible + reasoning = completion)
    (inputNonneg : 0 ≤ inputLimit) (outputNonneg : 0 ≤ outputLimit)
    (before : TokensWithin inputLimit outputLimit spentInput reservedInput spentOutput
      reservedOutput)
    (after : TokensWithin inputLimit outputLimit spentInput (reservedInput + prompt) spentOutput
      (reservedOutput + completion)) :
    ∃ evidence, AtomicTokenReservationEvidence.build identifier modelId role planSha256 prompt
      visible reasoning completion (some inputLimit) (some outputLimit) spentInput reservedInput
      spentOutput reservedOutput = .ok evidence := by
  obtain ⟨nonempty, short, printable⟩ := accepted
  rw [AtomicTokenReservationEvidence.build, bind_of_ok (tokenBudgetState_of_within before),
    bind_of_ok (tokenBudgetState_of_within after)]
  refine exists_bind_eq_ok_iff.mpr ⟨(), ?_, exists_bind_eq_ok_iff.mpr ⟨(), ?_, _, rfl⟩⟩
  · simp only [AtomicTokenReservationEvidence.checkFields, bind_eq_ok_iff]
    exact ⟨(), raiseIf_eq_ok_iff.mpr (not_not.mpr planValid), (),
      requireMetered_of_le promptRange.1 promptRange.2, (),
      requireMetered_of_le visibleRange.1 visibleRange.2, (),
      requireMetered_of_le reasoningRange.1 reasoningRange.2, (),
      requireMetered_of_le completionRange.1 completionRange.2, (),
      requireMetered_of_le inputNonneg before.inputLimit_metered,
      requireMetered_of_le outputNonneg before.outputLimit_metered⟩
  · simp only [AtomicTokenReservationEvidence.checkBound, bind_eq_ok_iff]
    exact ⟨(), raiseIf_eq_ok_iff.mpr nonempty, (),
      raiseIf_eq_ok_iff.mpr (by rw [printable]; simpa using short), (),
      raiseIf_eq_ok_iff.mpr (not_not.mpr modelValid), (),
      raiseIf_eq_ok_iff.mpr (not_not.mpr roleValid), (), validateTokenState_of_within before, (),
      validateTokenState_of_within after, (), raiseIf_eq_ok_iff.mpr (by simp), (),
      raiseIf_eq_ok_iff.mpr (by simpa using split), (), raiseIf_eq_ok_iff.mpr (by simp),
      raiseIf_eq_ok_iff.mpr (by simp)⟩

theorem dict_total_nonneg_int {Item : Type} {items : Dict String Item}
    {count : String → Item → ℤ}
    (nonneg : ∀ identifier item, items.get? identifier = some item → 0 ≤ count identifier item) :
    0 ≤ items.total count := by
  refine List.sum_nonneg fun value member => ?_
  obtain ⟨item, itemMem, rfl⟩ := List.mem_map.mp member
  exact nonneg item.1 item.2 ((Dict.get?_eq_some_iff _ _ _).mpr itemMem)

/-- The token counters of an accounted state are not negative. -/
theorem counters_nonneg {initial : ℚ} {state : BudgetState} (accounted : Accounted initial state)
    (tokens : TokensNonneg state) :
    0 ≤ state.spentInputTokens ∧ 0 ≤ state.reservedInputTokens ∧
      0 ≤ state.spentOutputTokens ∧ 0 ≤ state.reservedOutputTokens := by
  have issued : ∀ identifier cost, state.reserved.get? identifier = some cost →
      ∃ reservation, state.issued.get? identifier = some reservation := by
    intro identifier cost stored
    exact (Dict.mem_iff_exists_get? _ _).mp
      (accounted.activeIssued _ ((Dict.mem_iff_exists_get? _ _).mpr ⟨cost, stored⟩))
  rw [accounted.spentInput, accounted.reservedInput, accounted.spentOutput,
    accounted.reservedOutput]
  refine ⟨?_, ?_, ?_, ?_⟩
  · exact dict_total_nonneg_int fun identifier record stored =>
      (tokens.accounted identifier record stored).1
  · refine dict_total_nonneg_int fun identifier cost stored => ?_
    obtain ⟨reservation, reservationIssued⟩ := issued identifier cost stored
    rw [plannedTokens, reservationIssued, Option.bind_some]
    exact (tokens.planned _ _ reservationIssued).1
  · exact dict_total_nonneg_int fun identifier record stored =>
      (tokens.accounted identifier record stored).2
  · refine dict_total_nonneg_int fun identifier cost stored => ?_
    obtain ⟨reservation, reservationIssued⟩ := issued identifier cost stored
    rw [plannedTokens, reservationIssued, Option.bind_some]
    exact (tokens.planned _ _ reservationIssued).2

/-- With two finite token budgets, capacity is enough for token evidence. -/
theorem exists_tokenEvidence {initial : ℚ} {settings : BudgetSettings} {state : BudgetState}
    (accounted : Accounted initial state) (tokens : TokensNonneg state)
    {request : ReserveRequest} {scope : RequestScope} {cost : Decimal} {inputLimit outputLimit : ℤ}
    (inputFinite : settings.globalInputTokenBudget = some inputLimit)
    (outputFinite : settings.globalOutputTokenBudget = some outputLimit)
    (accepted : EvidenceIdentifier request.identifier)
    (resolved : validateRequestScope settings request = .ok scope)
    (capacity : requireScopedCapacity settings state request.role scope.modelId cost
      scope.promptTokens scope.completionTokens = .ok ()) :
    ∃ evidence, tokenEvidence settings state request scope = .ok evidence := by
  have valid := validScope_of_validateRequestScope resolved
  obtain ⟨spentInput, reservedInput, spentOutput, reservedOutput⟩ :=
    counters_nonneg accounted tokens
  obtain ⟨inputNonneg, inputMax⟩ := settings.globalInputTokenBudget_valid _ inputFinite
  obtain ⟨outputNonneg, outputMax⟩ := settings.globalOutputTokenBudget_valid _ outputFinite
  simp only [requireScopedCapacity, bind_eq_ok_iff] at capacity
  obtain ⟨_, inputFits, _, outputFits, -⟩ := capacity
  have inputFits := raiseIf_eq_ok_iff.mp inputFits
  have outputFits := raiseIf_eq_ok_iff.mp outputFits
  rw [inputFinite] at inputFits
  rw [outputFinite] at outputFits
  rw [tokenEvidence]
  cases plan : scope.planSha256 with
  | none => exact ⟨none, rfl⟩
  | some planSha256 =>
  cases model : scope.modelId with
  | none => exact ⟨none, rfl⟩
  | some modelId =>
  cases promptCase : scope.promptTokens with
  | none => exact ⟨none, rfl⟩
  | some prompt =>
  cases visibleCase : scope.visibleOutputTokens with
  | none => exact ⟨none, rfl⟩
  | some visible =>
  cases reasoningCase : scope.reasoningTokens with
  | none => exact ⟨none, rfl⟩
  | some reasoning =>
  cases completionCase : scope.completionTokens with
  | none => exact ⟨none, rfl⟩
  | some completion =>
      have promptRange := valid.prompt prompt promptCase
      have completionRange := valid.completion completion completionCase
      have split := valid.split (by rw [visibleCase]; rfl)
      rw [visibleCase, reasoningCase, completionCase] at split
      rw [promptCase] at inputFits
      rw [completionCase] at outputFits
      simp only [exceedsTokens, decide_eq_true_eq, not_lt] at inputFits outputFits
      obtain ⟨evidence, built⟩ := exists_build accepted (valid.modelId modelId model) valid.role
        (valid.planSha256 planSha256 plan) promptRange (valid.visible visible visibleCase)
        (valid.reasoning reasoning reasoningCase) completionRange split inputNonneg outputNonneg
        ⟨spentInput, reservedInput, spentOutput, reservedOutput, by omega, by omega, inputMax,
          outputMax⟩
        ⟨spentInput, by omega, spentOutput, by omega, by omega, by omega, inputMax, outputMax⟩
      exact ⟨some evidence, by simp only [inputFinite, outputFinite, built]; rfl⟩

/-! ## Runs -/

theorem withinCaps_initial {settings : BudgetSettings} {spent : Decimal}
    (startsWithin : spent.value ≤ settings.totalUsd.value) (recoveryRequired : Bool) :
    WithinCaps settings (BudgetState.initial spent recoveryRequired) where
  total := by simpa [BudgetState.initial] using startsWithin
  input := fun budget configured => by
    simpa [BudgetState.initial] using (settings.globalInputTokenBudget_valid _ configured).1
  output := fun budget configured => by
    simpa [BudgetState.initial] using (settings.globalOutputTokenBudget_valid _ configured).1
  model := fun key cap configured => by
    simpa [BudgetState.initial, amountOf] using settings.perModelUsdCaps_nonneg _ _ configured
  role := fun key cap configured => by
    simpa [BudgetState.initial, amountOf] using settings.perRoleUsdCaps_nonneg _ _ configured

/-- What holds of every state that a run without overruns reaches. -/
structure CapsInvariant (settings : BudgetSettings) (initial : ℚ) (state : BudgetState) : Prop where
  accounted : Accounted initial state
  tokens : TokensNonneg state
  within : WithinCaps settings state

section Runs

variable {grid : ℤ} {initial : ℚ} {settings : BudgetSettings} {state : BudgetState}

theorem CapsInvariant.perform (tiny : defaultContext.etiny ≤ grid) (initialNonneg : 0 ≤ initial)
    (settingsFit : SettingsFit grid settings) (invariant : CapsInvariant settings initial state)
    (fits : SumsFit grid initial state) {view : LedgerView} {operation : BudgetOperation}
    (fitsNext : SumsFit grid initial (Budget.perform settings state view operation).state)
    (noOverrun : ∀ failure, (Budget.perform settings state view operation).result =
      .error failure → ¬ failure.IsOverrun) :
    CapsInvariant settings initial (Budget.perform settings state view operation).state := by
  obtain ⟨accounted, tokens, within⟩ := invariant
  have accountedNext := accounted.perform tiny initialNonneg fits fitsNext
  have fitsReserved := fits.fitsReserved initialNonneg accounted.costNonneg
    accounted.accountedNonneg
  refine ⟨accountedNext, tokens.perform view operation, ?_⟩
  cases perform_change settings state view operation with
  | unchanged same => rwa [same]
  | reserved request admission persistent admitted recorded =>
      rw [recorded] at accountedNext ⊢
      exact within.recordReservation tiny initialNonneg settingsFit accounted fits
        (admitted_of_admitRequest admitted) persistent accountedNext
  | stuck reservation cost failure active raised left result =>
      rw [left]
      obtain ⟨promptNonneg, completionNonneg⟩ := tokens.planned _ _ active.issued
      exact within.close tiny accounted fitsReserved active promptNonneg completionNonneg
  | released reservation cost active closed left result =>
      rw [left]
      obtain ⟨promptNonneg, completionNonneg⟩ := tokens.planned _ _ active.issued
      have kept := within.close tiny accounted fitsReserved active promptNonneg completionNonneg
      exact ⟨kept.total, kept.input, kept.output, kept.model, kept.role⟩
  | reconciled reservation cost usage reported overrun normalized active planned overrunKind
      closed left result =>
      rw [result] at noOverrun
      obtain ⟨costFine, tokensFine⟩ := no_overrun_of_result overrunKind noOverrun
      rw [left] at accountedNext ⊢
      exact within.reconcile tiny accounted fitsReserved active planned costFine tokensFine
        accountedNext

theorem CapsInvariant.runBudget (tiny : defaultContext.etiny ≤ grid) (initialNonneg : 0 ≤ initial)
    (settingsFit : SettingsFit grid settings) (invariant : CapsInvariant settings initial state)
    (history : List (LedgerView × BudgetOperation))
    (fits : ∀ before, before <+: history →
      SumsFit grid initial (Budget.runBudget settings state before))
    (noOverruns : WithoutOverruns settings state history) :
    CapsInvariant settings initial (Budget.runBudget settings state history) := by
  induction history generalizing state with
  | nil => exact invariant
  | cons call history ih =>
      have fitsNow : SumsFit grid initial state := fits [] List.nil_prefix
      have fitsNext : SumsFit grid initial (Budget.perform settings state call.1 call.2).state :=
        fits [call] (List.prefix_cons_iff.mpr (.inr ⟨[], rfl, List.nil_prefix⟩))
      refine ih (invariant.perform tiny initialNonneg settingsFit fitsNow fitsNext noOverruns.1)
        (fun before isPrefix => ?_) noOverruns.2
      exact fits (call :: before) ((List.prefix_cons_inj call).mpr isPrefix)

end Runs

/-- A reservation that raises leaves the manager as it was. -/
theorem reserve_error_state {settings : BudgetSettings} {state : BudgetState} {view : LedgerView}
    {request : ReserveRequest} {failure : BudgetError}
    (raised : (reserve settings state view request).result = .error failure) :
    (reserve settings state view request).state = state := by
  rw [reserve] at raised ⊢
  cases admitted : admitRequest settings state request with
  | error other => rfl
  | ok admission =>
      rw [admitted] at raised
      cases persisted : persistReservation settings view admission with
      | mk file persistent =>
          cases persistent with
          | error other => simp [persisted]
          | ok persistent => simp [persisted] at raised

theorem withoutOverruns_cons {settings : BudgetSettings} {state : BudgetState}
    {call : LedgerView × BudgetOperation} {history : List (LedgerView × BudgetOperation)}
    (accepted : (perform settings state call.1 call.2).result.toBool = true)
    (rest : WithoutOverruns settings (perform settings state call.1 call.2).state history) :
    WithoutOverruns settings state (call :: history) := by
  refine ⟨fun failure raised => ?_, rest⟩
  rw [raised] at accepted
  cases accepted

/-- Estimates with 13 and 15 digits whose sum needs 29. -/
def roundingEstimate (prompt : String) : Decimal :=
  if prompt = "large" then ⟨249999999999999, -12⟩
  else if prompt = "middle" then ⟨50000000000004, -26⟩
  else ⟨5, -13⟩

theorem roundingEstimate_nonneg (prompt : String) : 0 ≤ (roundingEstimate prompt).value := by
  rw [roundingEstimate]
  split
  · norm_num [Decimal.value]
  · split <;> norm_num [Decimal.value]

theorem zeroEstimate_nonneg : 0 ≤ (0 : Decimal).value := by
  simp

def roundingSettings : BudgetSettings :=
  { sampleSettings 0 zeroEstimate_nonneg with
    totalUsd := ⟨250, 0⟩
    estimateRequestCost := roundingEstimate
    totalUsd_nonneg := by norm_num [Decimal.value]
    estimateRequestCost_nonneg := roundingEstimate_nonneg }

/-- Three requests that a total of 250 does not cover. -/
def roundingHistory : List (LedgerView × BudgetOperation) :=
  ["large", "middle", "small"].map fun prompt =>
    (sampleView, .reserve { sampleRequest prompt with prompt := prompt })

/-- A configuration with two finite token budgets. -/
def tokenSettings : BudgetSettings :=
  { paidSettings with
    globalInputTokenBudget := some 100
    globalOutputTokenBudget := some 100
    globalInputTokenBudget_valid := fun _ configured => by
      obtain rfl := Option.some.inj configured
      decide
    globalOutputTokenBudget_valid := fun _ configured => by
      obtain rfl := Option.some.inj configured
      decide }

/-- A request bound to a token plan. -/
def planRequest (identifier : String) : ReserveRequest :=
  { sampleRequest identifier with
    exactModelId := some "vendor/model"
    plannedPromptTokens := some 10
    plannedVisibleOutputTokens := some 6
    plannedReasoningTokens := some 4
    plannedCompletionTokens := some 10
    requestTokenPlanSha256 :=
      some "0000000000000000000000000000000000000000000000000000000000000000" }

def planScope : RequestScope where
  modelId := some "vendor/model"
  promptTokens := some 10
  visibleOutputTokens := some 6
  reasoningTokens := some 4
  completionTokens := some 10
  planSha256 := some "0000000000000000000000000000000000000000000000000000000000000000"

end Budget

end MmAudit
