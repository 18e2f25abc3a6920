import MmAudit.Budget.Accounting

/-!
# When every reservation can be closed

The reserved total of a scope loses its key when it reaches zero.  That is
harmless while every active reservation costs something; a reservation without
cost that is still active in such a scope can never be closed.  This file proves
that the manager stays consistent along a run exactly as long as no call closes a
reservation and leaves only reservations without cost in one of its scopes.
-/

namespace MmAudit

namespace Budget

open Fallible CostLedger

/-- The two scopes with reserved totals. -/
inductive Scope
  | model
  | role

namespace Scope

/-- The key of a reservation in a scope. -/
def select : Scope → Reservation → Option String
  | .model => Reservation.exactModelId
  | .role => Reservation.role

def reservedUsd : Scope → BudgetState → Dict String Decimal
  | .model => BudgetState.reservedModelUsd
  | .role => BudgetState.reservedRoleUsd

end Scope

theorem Accounted.projects {initial : ℚ} {state : BudgetState}
    (accounted : Accounted initial state) (scope : Scope) :
    Projects state.issued scope.select state.reserved Decimal.value (scope.reservedUsd state) := by
  cases scope with
  | model => exact accounted.reservedModel
  | role => exact accounted.reservedRole

/-! ## Consistency -/

/-- The issued identifiers are the disjoint union of the active, the reconciled
and the released ones. -/
structure Partitioned (state : BudgetState) : Prop where
  issued_iff : ∀ identifier, identifier ∈ state.issued ↔
    identifier ∈ state.reserved ∨ identifier ∈ state.reconciled ∨ identifier ∈ state.released
  active_only : ∀ identifier, identifier ∈ state.reserved →
    identifier ∉ state.reconciled ∧ identifier ∉ state.released
  reconciled_only : ∀ identifier, identifier ∈ state.reconciled → identifier ∉ state.released

/-- No subtraction from a scoped total raises: every active reservation can be
closed. -/
def Closable (state : BudgetState) : Prop :=
  ∀ reservation cost, ActiveReservation state reservation cost →
    (closeReservation state reservation cost).2 = .ok ()

/-- The accounting invariant of a manager that started without spending. -/
structure Consistent (state : BudgetState) : Prop where
  partitioned : Partitioned state
  accounted : Accounted 0 state
  closable : Closable state

/-- Another active reservation of the same scope. -/
structure SharesScope (state : BudgetState) (scope : Scope) (reservation other : Reservation)
    (cost : Decimal) : Prop where
  different : other.identifier ≠ reservation.identifier
  issued : state.issued.get? other.identifier = some other
  active : state.reserved.get? other.identifier = some cost
  sameKey : scope.select other = scope.select reservation

/-- If other reservations stay active in a scope of this one, some of them costs
something. -/
def LeavesPaidScopes (state : BudgetState) (reservation : Reservation) : Prop :=
  ∀ (scope : Scope) key, scope.select reservation = some key →
    (∃ other cost, SharesScope state scope reservation other cost) →
    ∃ other cost, SharesScope state scope reservation other cost ∧ 0 < cost.value

/-- A call that closes a reservation leaves only paid or empty scopes behind. -/
def ClosesSafely (state : BudgetState) : BudgetOperation → Prop
  | .reserve _ => True
  | .reconcile reservation reported =>
      ∀ usage cost, normalizeUsage reported = .ok usage →
        prepareReconcile state reservation usage = .ok (.active cost) →
        LeavesPaidScopes state reservation
  | .release reservation =>
      prepareRelease state reservation = .ok true → reservation.identifier ∈ state.reserved →
        LeavesPaidScopes state reservation

/-- Every call of a history closes safely in the state it is made in. -/
def AllCloseSafely (settings : BudgetSettings) (state : BudgetState) :
    List (LedgerView × BudgetOperation) → Prop
  | [] => True
  | call :: history => ClosesSafely state call.2 ∧
      AllCloseSafely settings (perform settings state call.1 call.2).state history

/-! ## Keys of the scoped totals -/

theorem mem_decrementOptional_iff {values updated : Dict String Decimal} {chosen : Option String}
    {cost : Decimal}
    (exact : ∀ key, chosen = some key →
      defaultContext.Represents (amountOf values key - cost.value))
    (success : decrementOptional values chosen cost = .ok updated) (other : String) :
    other ∈ updated ↔
      other ∈ values ∧ (chosen = some other → amountOf values other - cost.value ≠ 0) := by
  cases chosen with
  | none =>
      cases success
      simp
  | some key =>
      have exactKey := exact key rfl
      simp only [decrementOptional, decrementDecimal] at success
      split at success
      · cases success
      · rename_i current stored
        split at success
        · cases success
        · have currentValue : amountOf values key = current.value := by simp [amountOf, stored]
          have remaining : (defaultContext.sub current cost).value =
              amountOf values key - cost.value := by
            rw [Decimal.value_sub_of_represents, currentValue]
            rwa [← currentValue]
          have present : key ∈ values := (Dict.mem_iff_exists_get? _ _).mpr ⟨current, stored⟩
          have zero : (0 : Decimal).value = 0 := by simp
          split at success
          · rename_i drained
            rw [Decimal.sameValue_iff, remaining, zero] at drained
            cases success
            rw [Dict.mem_iff_exists_get?, Dict.mem_iff_exists_get?, Dict.get?_erase]
            by_cases same : other = key
            · subst same
              simp [drained]
            · have different : key ≠ other := fun equal => same equal.symm
              simp [same, different]
          · rename_i kept
            rw [Decimal.sameValue_iff, remaining, zero] at kept
            cases success
            rw [mem_insert_iff]
            by_cases same : other = key
            · subst same
              simp [present, kept]
            · have different : key ≠ other := fun equal => same equal.symm
              simp [same, different]

theorem mem_incrementOptional_iff {values : Dict String Decimal} {chosen : Option String}
    {cost : Decimal} {other : String} :
    other ∈ incrementOptional values chosen cost ↔ chosen = some other ∨ other ∈ values := by
  cases chosen with
  | none => simp [incrementOptional]
  | some key =>
      rw [incrementOptional, incrementDecimal, mem_insert_iff, Option.some.injEq, eq_comm]

theorem closeReservation_scope {state : BudgetState} {reservation : Reservation} {cost : Decimal}
    (closed : (closeReservation state reservation cost).2 = .ok ()) (scope : Scope) :
    decrementOptional (scope.reservedUsd state) (scope.select reservation) cost =
      .ok (scope.reservedUsd (closeReservation state reservation cost).1) := by
  rcases closeReservation_scopes state reservation cost with
    ⟨failure, -, raised, -⟩ | ⟨models, failure, -, -, raised, -⟩ |
    ⟨models, roles, modelTaken, roleTaken, -, modelEq, roleEq⟩
  · rw [raised] at closed
    cases closed
  · rw [raised] at closed
    cases closed
  · cases scope with
    | model => rw [Scope.reservedUsd, modelEq]; exact modelTaken
    | role => rw [Scope.reservedUsd, roleEq]; exact roleTaken

section Keys

variable {grid : ℤ} {initial : ℚ} {state : BudgetState} {reservation : Reservation}
  {cost : Decimal}

/-- Closing succeeds exactly when the keys of its scopes are still there. -/
theorem closable_iff (accounted : Accounted initial state)
    (fits : FitsTotal grid state.reserved Decimal.value)
    (active : ActiveReservation state reservation cost) :
    (closeReservation state reservation cost).2 = .ok () ↔
      ∀ (scope : Scope) key, scope.select reservation = some key →
        key ∈ scope.reservedUsd state := by
  constructor
  · intro closed scope key selected
    have taken := closeReservation_scope closed scope
    rw [selected] at taken
    by_contra missing
    obtain ⟨failure, raised⟩ := decrementDecimal_error_iff.mpr
      (.inl missing : key ∉ scope.reservedUsd state ∨ _ < cost.value)
    rw [decrementOptional, raised] at taken
    cases taken
  · intro keyed
    rcases closeReservation_scopes state reservation cost with
      ⟨failure, refused, -⟩ | ⟨models, failure, -, refused, -⟩ | ⟨_, _, -, -, closed, -⟩
    · obtain ⟨-, key, selected, missing⟩ := accounted.reservedModel.decrement_error active.active
        active.issued rfl fits refused
      exact absurd (keyed .model key selected) missing
    · obtain ⟨-, key, selected, missing⟩ := accounted.reservedRole.decrement_error active.active
        active.issued rfl fits refused
      exact absurd (keyed .role key selected) missing
    · exact closed

/-- The total left in a scope is zero exactly when nothing paid is left there. -/
theorem remaining_ne_zero_iff (accounted : Accounted initial state)
    (active : ActiveReservation state reservation cost) {scope : Scope} {key : String}
    (selected : scope.select reservation = some key) :
    amountOf (scope.reservedUsd state) key - cost.value ≠ 0 ↔
      ∃ other otherCost, SharesScope state scope reservation other otherCost ∧
        0 < otherCost.value := by
  have projects := accounted.projects scope
  have total := total_erase_projected projects active.active active.issued key
  rw [selected, if_pos rfl] at total
  rw [← total]
  have shareNonneg : ∀ item ∈ (state.reserved.erase reservation.identifier).items,
      0 ≤ scopeShare state.issued scope.select key item.1 item.2.value := by
    intro item member
    have stored := (Dict.get?_eq_some_iff _ _ _).mpr member
    rw [Dict.get?_erase] at stored
    split at stored
    · cases stored
    · exact (scopeShare_le (accounted.costNonneg _ _ stored)).1
  constructor
  · intro nonzero
    by_contra nothingPaid
    apply nonzero
    refine List.sum_eq_zero fun share member => ?_
    obtain ⟨item, itemMem, rfl⟩ := List.mem_map.mp member
    have stored := (Dict.get?_eq_some_iff _ _ _).mpr itemMem
    rw [Dict.get?_erase] at stored
    split at stored
    · cases stored
    · rename_i different
      change scopeShare state.issued scope.select key item.1 item.2.value = 0
      rw [scopeShare]
      split
      · rename_i share
        obtain ⟨other, otherIssued⟩ := (Dict.mem_iff_exists_get? _ _).mp
          (accounted.activeIssued _ ((Dict.mem_iff_exists_get? _ _).mpr ⟨_, stored⟩))
        have otherKey := accounted.issuedKey _ _ otherIssued
        rw [otherIssued, Option.bind_some] at share
        have costNonneg := accounted.costNonneg _ _ stored
        by_contra paid
        refine nothingPaid ⟨other, item.2, ⟨?_, ?_, ?_, ?_⟩,
          lt_of_le_of_ne costNonneg (Ne.symm paid)⟩
        · rw [otherKey]
          exact different
        · rw [otherKey]
          exact otherIssued
        · rw [otherKey]
          exact stored
        · rw [share, selected]
      · rfl
  · rintro ⟨other, otherCost, shares, paid⟩ zero
    have member : (other.identifier, otherCost) ∈
        (state.reserved.erase reservation.identifier).items := by
      rw [← Dict.get?_eq_some_iff, Dict.get?_erase, if_neg shares.different]
      exact shares.active
    have share : scopeShare state.issued scope.select key other.identifier otherCost.value =
        otherCost.value := by
      rw [scopeShare_of_stored shares.issued, shares.sameKey, selected, if_pos rfl]
    have single := List.single_le_sum
      (l := (state.reserved.erase reservation.identifier).items.map fun item =>
        scopeShare state.issued scope.select key item.1 item.2.value)
      (fun share shareMem => by
        obtain ⟨item, itemMem, rfl⟩ := List.mem_map.mp shareMem
        exact shareNonneg item itemMem) otherCost.value
      (List.mem_map.mpr ⟨_, member, share⟩)
    have totalZero : ((state.reserved.erase reservation.identifier).items.map fun item =>
        scopeShare state.issued scope.select key item.1 item.2.value).sum = 0 := zero
    linarith

end Keys

/-! ## What a closing call leaves -/

/-- A state that differs from another only in records of the closed
reservation. -/
structure ClosedOff (state : BudgetState) (reservation : Reservation) (cost : Decimal)
    (next : BudgetState) : Prop where
  reserved : next.reserved = state.reserved.erase reservation.identifier
  issued : next.issued = state.issued
  scopes : ∀ scope : Scope,
    scope.reservedUsd next = scope.reservedUsd (closeReservation state reservation cost).1
  settled : reservation.identifier ∈ next.reconciled ∧ next.released = state.released ∨
    next.reconciled = state.reconciled ∧ reservation.identifier ∈ next.released
  reconciled_iff : ∀ identifier, identifier ≠ reservation.identifier →
    (identifier ∈ next.reconciled ↔ identifier ∈ state.reconciled)
  released_iff : ∀ identifier, identifier ≠ reservation.identifier →
    (identifier ∈ next.released ↔ identifier ∈ state.released)

theorem closedOff_reconciled (state : BudgetState) (reservation : Reservation) (cost : Decimal)
    (record : Reconciliation) :
    ClosedOff state reservation cost
      (recordReconciliation (closeReservation state reservation cost).1 reservation record) := by
  obtain ⟨reservedEq, issuedEq, reconciledEq, releasedEq, -⟩ :=
    closeReservation_frame state reservation cost
  have reconciledAfter : (recordReconciliation (closeReservation state reservation cost).1
      reservation record).reconciled = state.reconciled.insert reservation.identifier record := by
    rw [← reconciledEq]
    rfl
  refine ⟨reservedEq, issuedEq, fun scope => by cases scope <;> rfl, .inl ⟨?_, releasedEq⟩,
    fun identifier different => ?_, fun identifier _ => by
      change identifier ∈ (closeReservation state reservation cost).1.released ↔ _
      rw [releasedEq]⟩
  · rw [reconciledAfter, mem_insert_iff]
    exact .inl rfl
  · rw [reconciledAfter, mem_insert_iff]
    simp [different]

theorem closedOff_released (state : BudgetState) (reservation : Reservation) (cost : Decimal) :
    ClosedOff state reservation cost
      { (closeReservation state reservation cost).1 with
        released :=
          reservation.identifier :: (closeReservation state reservation cost).1.released } := by
  obtain ⟨reservedEq, issuedEq, reconciledEq, releasedEq, -⟩ :=
    closeReservation_frame state reservation cost
  refine ⟨reservedEq, issuedEq, fun scope => by cases scope <;> rfl,
    .inr ⟨reconciledEq, List.mem_cons_self⟩, fun identifier _ => ?_,
    fun identifier different => ?_⟩
  · change identifier ∈ (closeReservation state reservation cost).1.reconciled ↔ _
    rw [reconciledEq]
  · change identifier ∈ _ :: (closeReservation state reservation cost).1.released ↔ _
    rw [releasedEq, List.mem_cons]
    simp [different]

section ClosedOff

variable {grid : ℤ} {state next : BudgetState} {reservation : Reservation} {cost : Decimal}

theorem mem_erase_iff {Item : Type} {items : Dict String Item} {identifier other : String} :
    other ∈ items.erase identifier ↔ other ≠ identifier ∧ other ∈ items := by
  rw [Dict.mem_iff_exists_get?, Dict.mem_iff_exists_get?, Dict.get?_erase]
  by_cases same : other = identifier <;> simp [same]

theorem ClosedOff.partitioned (closed : ClosedOff state reservation cost next)
    (partitioned : Partitioned state) (active : ActiveReservation state reservation cost) :
    Partitioned next := by
  have reservationIssued : reservation.identifier ∈ state.issued :=
    (Dict.mem_iff_exists_get? _ _).mpr ⟨reservation, active.issued⟩
  have unreconciled : reservation.identifier ∉ state.reconciled :=
    (Dict.get?_eq_none_iff _ _).mp active.unreconciled
  constructor
  · intro identifier
    rw [closed.issued, closed.reserved, mem_erase_iff, partitioned.issued_iff]
    by_cases same : identifier = reservation.identifier
    · subst same
      have isActive : reservation.identifier ∈ state.reserved :=
        (Dict.mem_iff_exists_get? _ _).mpr ⟨cost, active.active⟩
      rcases closed.settled with ⟨settled, -⟩ | ⟨-, settled⟩ <;> simp [isActive, settled]
    · rw [closed.reconciled_iff identifier same, closed.released_iff identifier same]
      simp [same]
  · intro identifier member
    rw [closed.reserved, mem_erase_iff] at member
    rw [closed.reconciled_iff identifier member.1, closed.released_iff identifier member.1]
    exact partitioned.active_only identifier member.2
  · intro identifier member
    by_cases same : identifier = reservation.identifier
    · subst same
      rcases closed.settled with ⟨-, releasedEq⟩ | ⟨reconciledEq, -⟩
      · rw [releasedEq]
        exact active.unreleased
      · rw [reconciledEq] at member
        exact absurd member unreconciled
    · rw [closed.reconciled_iff identifier same] at member
      rw [closed.released_iff identifier same]
      exact partitioned.reconciled_only identifier member

/-- What is active after closing was active before, and is not the closed
reservation. -/
theorem ClosedOff.active_iff (closed : ClosedOff state reservation cost next) {other : Reservation} {otherCost : Decimal} :
    ActiveReservation next other otherCost ↔
      other.identifier ≠ reservation.identifier ∧ ActiveReservation state other otherCost := by
  constructor
  · rintro ⟨issued, isActive, unreconciled, unreleased⟩
    rw [closed.reserved, Dict.get?_erase] at isActive
    split at isActive
    · cases isActive
    · rename_i different
      rw [closed.issued] at issued
      have stillUnreconciled : other.identifier ∉ next.reconciled :=
        (Dict.get?_eq_none_iff _ _).mp unreconciled
      rw [closed.reconciled_iff _ different] at stillUnreconciled
      rw [closed.released_iff _ different] at unreleased
      exact ⟨different, issued, isActive, (Dict.get?_eq_none_iff _ _).mpr stillUnreconciled,
        unreleased⟩
  · rintro ⟨different, issued, isActive, unreconciled, unreleased⟩
    refine ⟨closed.issued ▸ issued, ?_, ?_, ?_⟩
    · rw [closed.reserved, Dict.get?_erase, if_neg different]
      exact isActive
    · refine (Dict.get?_eq_none_iff _ _).mpr ?_
      rw [closed.reconciled_iff _ different]
      exact (Dict.get?_eq_none_iff _ _).mp unreconciled
    · rw [closed.released_iff _ different]
      exact unreleased

/-- After a reservation was closed, the others can be closed exactly when it left
only paid or empty scopes. -/
theorem ClosedOff.closable_iff (tiny : defaultContext.etiny ≤ grid)
    (closed : ClosedOff state reservation cost next) (consistent : Consistent state)
    (fits : FitsTotal grid state.reserved Decimal.value)
    (active : ActiveReservation state reservation cost) (accountedNext : Accounted 0 next) :
    Closable next ↔ LeavesPaidScopes state reservation := by
  have accounted := consistent.accounted
  have closes := consistent.closable reservation cost active
  have fitsNext : FitsTotal grid next.reserved Decimal.value := by
    rw [closed.reserved]
    exact fits.erase active.active
  have keyed : ∀ other otherCost, ActiveReservation state other otherCost →
      ∀ (scope : Scope) key, scope.select other = some key → key ∈ scope.reservedUsd state :=
    fun other otherCost otherActive =>
      (Budget.closable_iff accounted fits otherActive).mp
        (consistent.closable other otherCost otherActive)
  have exact : ∀ (scope : Scope) key, scope.select reservation = some key →
      defaultContext.Represents (amountOf (scope.reservedUsd state) key - cost.value) := by
    intro scope key selected
    have inRange := inRange_projected (fits.erase active.active) state.issued scope.select key
    rw [total_erase_projected (accounted.projects scope) active.active active.issued key,
      selected, if_pos rfl] at inRange
    exact inRange.represents tiny
  have keyAfter : ∀ (scope : Scope) key, key ∈ scope.reservedUsd next ↔
      key ∈ scope.reservedUsd state ∧ (scope.select reservation = some key →
        amountOf (scope.reservedUsd state) key - cost.value ≠ 0) := by
    intro scope key
    rw [closed.scopes scope]
    exact mem_decrementOptional_iff (exact scope) (closeReservation_scope closes scope) key
  constructor
  · rintro closable scope key selected ⟨other, otherCost, shares⟩
    have otherActive : ActiveReservation state other otherCost := by
      have member : other.identifier ∈ state.reserved :=
        (Dict.mem_iff_exists_get? _ _).mpr ⟨otherCost, shares.active⟩
      obtain ⟨unreconciled, unreleased⟩ := consistent.partitioned.active_only _ member
      exact ⟨shares.issued, shares.active, (Dict.get?_eq_none_iff _ _).mpr unreconciled,
        unreleased⟩
    have otherNext := closed.active_iff.mpr
      ⟨shares.different, otherActive⟩
    have otherSelected : scope.select other = some key := shares.sameKey.trans selected
    have present := (Budget.closable_iff accountedNext fitsNext otherNext).mp
      (closable other otherCost otherNext) scope key otherSelected
    exact (remaining_ne_zero_iff accounted active selected).mp
      (((keyAfter scope key).mp present).2 selected)
  · intro leavesPaid other otherCost otherNext
    obtain ⟨different, otherActive⟩ := closed.active_iff.mp otherNext
    refine (Budget.closable_iff accountedNext fitsNext otherNext).mpr fun scope key selected => ?_
    refine (keyAfter scope key).mpr ⟨keyed other otherCost otherActive scope key selected, ?_⟩
    intro sameKey
    refine (remaining_ne_zero_iff accounted active sameKey).mpr ?_
    exact leavesPaid scope key sameKey ⟨other, otherCost, different, otherActive.issued,
      otherActive.active, selected.trans sameKey.symm⟩

end ClosedOff

/-! ## Runs -/

section Runs

variable {grid : ℤ} {settings : BudgetSettings} {state : BudgetState}

/-- A new reservation keeps a manager consistent. -/
theorem Consistent.recordReservation (consistent : Consistent state) {key : RequestLimitKey}
    {admission : Admission} {reservation : Reservation}
    (fresh : state.issued.get? reservation.identifier = none)
    (accountedNext :
      Accounted 0 (Budget.recordReservation state key admission reservation))
    (fitsNext : FitsTotal grid
      (Budget.recordReservation state key admission reservation).reserved Decimal.value) :
    Consistent (Budget.recordReservation state key admission reservation) := by
  obtain ⟨reservedEq, issuedEq, reconciledEq, releasedEq, -, -, -, -, -, -, -, modelEq, roleEq⟩ :=
    recordReservation_frame state key admission reservation
  have notIssued : reservation.identifier ∉ state.issued := (Dict.get?_eq_none_iff _ _).mp fresh
  have partitioned := consistent.partitioned
  refine ⟨⟨fun identifier => ?_, fun identifier member => ?_, ?_⟩, accountedNext, ?_⟩
  · rw [issuedEq, reservedEq, reconciledEq, releasedEq, mem_insert_iff, mem_insert_iff,
      partitioned.issued_iff, or_assoc]
  · rw [reservedEq, mem_insert_iff] at member
    rw [reconciledEq, releasedEq]
    rcases member with rfl | member
    · exact ⟨fun earlier => notIssued ((partitioned.issued_iff _).mpr (.inr (.inl earlier))),
        fun earlier => notIssued ((partitioned.issued_iff _).mpr (.inr (.inr earlier)))⟩
    · exact partitioned.active_only identifier member
  · rw [reconciledEq, releasedEq]
    exact partitioned.reconciled_only
  · intro other otherCost otherNext
    refine (closable_iff accountedNext fitsNext otherNext).mpr fun scope chosen selected => ?_
    have keysKept : chosen ∈ scope.reservedUsd
        (Budget.recordReservation state key admission reservation) ↔
        scope.select reservation = some chosen ∨ chosen ∈ scope.reservedUsd state := by
      cases scope with
      | model => rw [Scope.reservedUsd, modelEq]; exact mem_incrementOptional_iff
      | role => rw [Scope.reservedUsd, roleEq]; exact mem_incrementOptional_iff
    rw [keysKept]
    have issuedNext := otherNext.issued
    rw [issuedEq, Dict.get?_insert] at issuedNext
    by_cases same : other.identifier = reservation.identifier
    · rw [if_pos same] at issuedNext
      cases issuedNext
      exact .inl selected
    · rw [if_neg same] at issuedNext
      have activeNext := otherNext.active
      have unreconciled := otherNext.unreconciled
      have unreleased := otherNext.unreleased
      rw [reservedEq, Dict.get?_insert_ne _ _ same] at activeNext
      rw [reconciledEq] at unreconciled
      rw [releasedEq] at unreleased
      have otherActive : ActiveReservation state other otherCost :=
        ⟨issuedNext, activeNext, unreconciled, unreleased⟩
      by_contra missing
      have closes := consistent.closable other otherCost otherActive
      have taken := closeReservation_scope closes scope
      rw [selected] at taken
      obtain ⟨failure, raised⟩ := decrementDecimal_error_iff.mpr
        (.inl fun present => missing (.inr present) :
          chosen ∉ scope.reservedUsd state ∨ _ < otherCost.value)
      rw [decrementOptional, raised] at taken
      cases taken

/-- Without a ledger, a call that passes its checks closes the reservation. -/
theorem closedOff_of_reconcile (unshared : settings.atomicLedger = none)
    (consistent : Consistent state) {view : LedgerView} {reservation : Reservation}
    {reported : ReportedUsage} {usage : NormalizedUsage} {cost : Decimal}
    (normalized : normalizeUsage reported = .ok usage)
    (prepared : prepareReconcile state reservation usage = .ok (.active cost)) :
    ClosedOff state reservation cost
      (perform settings state view (.reconcile reservation reported)).state := by
  have active := (prepareReconcile_active prepared).1
  have closes := consistent.closable reservation cost active
  have persisted : persistReconciliation settings view reservation usage.actualCostUsd =
      (view.file, .ok none) := by
    rw [persistReconciliation, unshared]
  have left : (perform settings state view (.reconcile reservation reported)).state =
      recordReconciliation (closeReservation state reservation cost).1 reservation
        (reconciliationOf reservation usage cost false) := by
    cases outcome : closeReservation state reservation cost with
    | mk next result =>
        rw [outcome] at closes
        cases closes
        rw [closeReservation] at outcome
        simp only [perform, BudgetOutcome.map, reconcile, normalized, prepared, persisted, outcome]
        rfl
  rw [left]
  exact closedOff_reconciled state reservation cost _

theorem closedOff_of_release (unshared : settings.atomicLedger = none)
    (consistent : Consistent state) {view : LedgerView} {reservation : Reservation}
    {cost : Decimal} (prepared : prepareRelease state reservation = .ok true)
    (active : state.reserved.get? reservation.identifier = some cost) :
    ClosedOff state reservation cost
      (perform settings state view (.release reservation)).state := by
  obtain ⟨issued, unreconciled, unreleased⟩ := prepareRelease_true prepared
  have closes := consistent.closable reservation cost ⟨issued, active, unreconciled, unreleased⟩
  have persisted : persistRelease settings view reservation = (view.file, .ok ()) := by
    rw [persistRelease, unshared]
  have left : (perform settings state view (.release reservation)).state =
      { (closeReservation state reservation cost).1 with
        released :=
          reservation.identifier :: (closeReservation state reservation cost).1.released } := by
    cases outcome : closeReservation state reservation cost with
    | mk next result =>
        rw [outcome] at closes
        cases closes
        rw [closeReservation] at outcome
        simp only [perform, BudgetOutcome.map, release, prepared, persisted, active, outcome]
  rw [left]
  exact closedOff_released state reservation cost

/-- From a consistent manager, a call leaves a consistent one exactly when it
closes safely. -/
theorem consistent_perform_iff (tiny : defaultContext.etiny ≤ grid)
    (unshared : settings.atomicLedger = none) (consistent : Consistent state)
    (fits : SumsFit grid 0 state) {view : LedgerView} {operation : BudgetOperation}
    (fitsNext : SumsFit grid 0 (perform settings state view operation).state) :
    Consistent (perform settings state view operation).state ↔ ClosesSafely state operation := by
  have accounted := consistent.accounted
  have accountedNext := accounted.perform tiny le_rfl fits fitsNext
  have fitsReserved := fits.fitsReserved le_rfl accounted.costNonneg accounted.accountedNonneg
  have fitsReservedNext := fitsNext.fitsReserved le_rfl accountedNext.costNonneg
    accountedNext.accountedNonneg
  have closing : ∀ {reservation : Reservation} {cost : Decimal},
      ActiveReservation state reservation cost →
      ClosedOff state reservation cost (perform settings state view operation).state →
      (Consistent (perform settings state view operation).state ↔
        LeavesPaidScopes state reservation) := by
    intro reservation cost active closed
    rw [← closed.closable_iff tiny consistent fitsReserved active accountedNext]
    exact ⟨fun next => next.closable,
      fun closable => ⟨closed.partitioned consistent.partitioned active, accountedNext, closable⟩⟩
  constructor
  · intro next
    cases operation with
    | reserve request => trivial
    | reconcile reservation reported =>
        intro usage cost normalized prepared
        exact (closing (prepareReconcile_active prepared).1
          (closedOff_of_reconcile unshared consistent normalized prepared)).mp next
    | release reservation =>
        intro prepared member
        obtain ⟨cost, active⟩ := (Dict.mem_iff_exists_get? _ _).mp member
        obtain ⟨issued, unreconciled, unreleased⟩ := prepareRelease_true prepared
        exact (closing ⟨issued, active, unreconciled, unreleased⟩
          (closedOff_of_release unshared consistent prepared active)).mp next
  · intro safe
    cases operation with
    | reserve request =>
        rcases reserve_state_cases settings state view request with
          same | ⟨admission, persistent, admitted, recorded⟩
        · have sameState : (perform settings state view (.reserve request)).state = state := same
          rwa [sameState]
        · have checked := admitted_of_admitRequest admitted
          have recordedState : (perform settings state view (.reserve request)).state =
              Budget.recordReservation state (requestLimitKey request) admission
                { admission.reservation with persistent := persistent } := recorded
          rw [recordedState] at accountedNext fitsReservedNext ⊢
          exact consistent.recordReservation (checked.identifier ▸ checked.fresh) accountedNext
            fitsReservedNext
    | reconcile reservation reported =>
        rcases reconcile_state_cases settings state view reservation reported with
          same | ⟨usage, cost, normalized, prepared⟩
        · have sameState :
              (perform settings state view (.reconcile reservation reported)).state = state := same
          rwa [sameState]
        · exact (closing (prepareReconcile_active prepared).1
            (closedOff_of_reconcile unshared consistent normalized prepared)).mpr
            (safe usage cost normalized prepared)
    | release reservation =>
        rcases release_state_cases settings state view reservation with same | ⟨prepared, member⟩
        · have sameState :
              (perform settings state view (.release reservation)).state = state := same
          rwa [sameState]
        · obtain ⟨cost, active⟩ := (Dict.mem_iff_exists_get? _ _).mp member
          obtain ⟨issued, unreconciled, unreleased⟩ := prepareRelease_true prepared
          exact (closing ⟨issued, active, unreconciled, unreleased⟩
            (closedOff_of_release unshared consistent prepared active)).mpr (safe prepared member)

theorem consistent_initial : Consistent (BudgetState.initial 0 false) := by
  have zero : (0 : Decimal).value = 0 := by simp
  refine ⟨⟨?_, ?_, ?_⟩, zero ▸ accounted_initial 0 false, ?_⟩
  · simp [BudgetState.initial, Dict.mem_iff_exists_get?]
  · simp [BudgetState.initial, Dict.mem_iff_exists_get?]
  · simp [BudgetState.initial, Dict.mem_iff_exists_get?]
  · rintro reservation cost ⟨-, active, -⟩
    simp [BudgetState.initial] at active

theorem consistent_along_iff (tiny : defaultContext.etiny ≤ grid)
    (unshared : settings.atomicLedger = none) (consistent : Consistent state)
    (history : List (LedgerView × BudgetOperation))
    (fits : ∀ before, before <+: history → SumsFit grid 0 (runBudget settings state before)) :
    (∀ before, before <+: history → Consistent (runBudget settings state before)) ↔
      AllCloseSafely settings state history := by
  induction history generalizing state with
  | nil =>
      constructor
      · exact fun _ => trivial
      · intro _ before isPrefix
        rw [List.prefix_nil.mp isPrefix]
        exact consistent
  | cons call history ih =>
      have fitsNow : SumsFit grid 0 state := fits [] List.nil_prefix
      have fitsNext : SumsFit grid 0 (perform settings state call.1 call.2).state :=
        fits [call] (List.prefix_cons_iff.mpr (.inr ⟨[], rfl, List.nil_prefix⟩))
      have fitsRest : ∀ before, before <+: history →
          SumsFit grid 0 (runBudget settings (perform settings state call.1 call.2).state before) :=
        fun before isPrefix => fits (call :: before) ((List.prefix_cons_inj call).mpr isPrefix)
      rw [AllCloseSafely, ← consistent_perform_iff tiny unshared consistent fitsNow fitsNext]
      constructor
      · intro along
        have next : Consistent (perform settings state call.1 call.2).state :=
          along [call] (List.prefix_cons_iff.mpr (.inr ⟨[], rfl, List.nil_prefix⟩))
        refine ⟨next, (ih next fitsRest).mp fun before isPrefix => ?_⟩
        exact along (call :: before) ((List.prefix_cons_inj call).mpr isPrefix)
      · rintro ⟨next, safe⟩ before isPrefix
        rcases List.prefix_cons_iff.mp isPrefix with rfl | ⟨rest, rfl, restPrefix⟩
        · exact consistent
        · exact (ih next fitsRest).mpr safe rest restPrefix

end Runs

/-- A manager without a ledger stays consistent along a run whose sums fit the
decimal precision exactly when every call of the run closes safely. -/
theorem manager_consistent_iff (settings : BudgetSettings)
    (unshared : settings.atomicLedger = none) {grid : ℤ}
    (tiny : defaultContext.etiny ≤ grid) (history : List (LedgerView × BudgetOperation))
    (fits : ∀ before, before <+: history →
      SumsFit grid 0 (runBudget settings (.initial 0 false) before)) :
    (∀ before, before <+: history →
        Consistent (runBudget settings (.initial 0 false) before)) ↔
      AllCloseSafely settings (.initial 0 false) history :=
  consistent_along_iff tiny unshared consistent_initial history fits

/-! ## A manager with free requests -/

/-- A configuration without ledger, budgets or caps whose requests are estimated
at a fixed cost. -/
def sampleSettings (estimate : Decimal) (nonneg : 0 ≤ estimate.value) : BudgetSettings where
  totalUsd := ⟨20, 0⟩
  maxOutputTokens := 256
  maxRequestsPerAgent := 4
  requireEndpointCostBound := false
  globalInputTokenBudget := none
  globalOutputTokenBudget := none
  perModelUsdCaps := Dict.empty
  perRoleUsdCaps := Dict.empty
  atomicLedger := none
  estimateRequestCost := fun _ => estimate
  sha256 := fun _ => ""
  totalUsd_nonneg := by norm_num [Decimal.value]
  estimateRequestCost_nonneg := fun _ => nonneg
  globalInputTokenBudget_valid := fun _ impossible => nomatch impossible
  globalOutputTokenBudget_valid := fun _ impossible => nomatch impossible
  perModelUsdCaps_nonneg := fun _ _ stored => by simp at stored
  perRoleUsdCaps_nonneg := fun _ _ stored => by simp at stored

/-- A rate so small that every estimate underflows to zero. -/
def freeSettings : BudgetSettings :=
  sampleSettings 0 (by simp)

def paidSettings : BudgetSettings :=
  sampleSettings ⟨5, -1⟩ (by norm_num [Decimal.value])

def sampleView : LedgerView where
  file := newState 0
  now := 0
  fresh := ⟨"00000000000000000000000000000001", by decide +kernel⟩

def sampleRequest (identifier : String) : ReserveRequest where
  identifier := identifier
  role := "hunter"
  prompt := "prompt"
  endpointCostBound := none
  exactModelId := none
  plannedPromptTokens := none
  plannedVisibleOutputTokens := none
  plannedReasoningTokens := none
  plannedCompletionTokens := none
  requestTokenPlanSha256 := none
  requestLimitScope := none

/-- The handle that the sample request returns. -/
def sampleHandle (identifier : String) : Reservation where
  identifier := identifier
  persistent := none
  endpointCostBound := none
  exactModelId := none
  role := some "hunter"
  plannedPromptTokens := none
  plannedVisibleOutputTokens := none
  plannedReasoningTokens := none
  plannedCompletionTokens := none
  requestTokenPlanSha256 := none
  tokenReservationEvidence := none
  requestLimitScope := none
  requestLimitReservationEvidence := none

/-- Two requests are reserved and released one after the other. -/
def sampleHistory : List (LedgerView × BudgetOperation) :=
  [(sampleView, .reserve (sampleRequest "first")), (sampleView, .reserve (sampleRequest "second")),
    (sampleView, .release (sampleHandle "first")), (sampleView, .release (sampleHandle "second"))]

theorem sumsFit_of_items {grid : ℤ} {state : BudgetState} (held : List (String × Decimal))
    (reserved : state.reserved.items = held) (reconciled : state.reconciled.items = [])
    (places : ∀ item ∈ held, grid ≤ item.2.exponent)
    (bound : (held.map fun item => item.2.value).sum <
      (10 : ℚ) ^ ((defaultContext.precision : ℤ) + grid)) : SumsFit grid 0 state where
  initialGrid := Decimal.onGrid_zero grid
  reserved := fun identifier cost stored => by
    have member := (Dict.get?_eq_some_iff _ _ _).mp stored
    rw [reserved] at member
    exact Decimal.onGrid_value (places _ member)
  accounted := fun identifier record stored => by
    have member := (Dict.get?_eq_some_iff _ _ _).mp stored
    rw [reconciled] at member
    cases member
  bound := by
    simp only [Dict.total, reserved, reconciled, List.map_nil, List.sum_nil, zero_add, add_zero]
    exact bound

/-- Two free reservations of one role: the second cannot be released any more,
although it is still issued and active. -/
theorem free_reservation_stuck :
    (perform freeSettings (runBudget freeSettings (.initial 0 false) (sampleHistory.take 3))
      sampleView (.release (sampleHandle "second"))).result =
        .error (.reservationState "scoped reservation accounting is inconsistent") ∧
    SumsFit 0 0 (runBudget freeSettings (.initial 0 false) sampleHistory) ∧
    ¬ Consistent (runBudget freeSettings (.initial 0 false) sampleHistory) := by
  refine ⟨by decide +kernel, ?_, fun consistent => ?_⟩
  · exact sumsFit_of_items [] (by decide +kernel) (by decide +kernel) (by simp)
      (by norm_num [defaultContext])
  · have partitioned := consistent.partitioned.issued_iff "second"
    have broken : "second" ∈ (runBudget freeSettings (.initial 0 false) sampleHistory).issued ∧
        ¬ ("second" ∈ (runBudget freeSettings (.initial 0 false) sampleHistory).reserved ∨
          "second" ∈ (runBudget freeSettings (.initial 0 false) sampleHistory).reconciled ∨
          "second" ∈ (runBudget freeSettings (.initial 0 false) sampleHistory).released) := by
      decide +kernel
    exact broken.2 (partitioned.mp broken.1)

/-- With a cost above zero the same calls keep the manager consistent. -/
theorem manager_consistent_sample :
    Consistent (runBudget paidSettings (.initial 0 false) (sampleHistory.take 1)) := by
  have fits : ∀ before, before <+: sampleHistory.take 1 →
      SumsFit (-1) 0 (runBudget paidSettings (.initial 0 false) before) := by
    intro before isPrefix
    rcases List.prefix_cons_iff.mp isPrefix with rfl | ⟨rest, rfl, restPrefix⟩
    · exact sumsFit_of_items [] rfl rfl (by simp) (by norm_num [defaultContext])
    · rw [List.prefix_nil.mp restPrefix]
      exact sumsFit_of_items [("first", ⟨5, -1⟩)] (by decide +kernel)
        (by decide +kernel) (by simp) (by norm_num [defaultContext, Decimal.value])
  exact (manager_consistent_iff paidSettings rfl (by norm_num [defaultContext]) _ fits).mpr
    ⟨trivial, trivial⟩ _ List.prefix_rfl

end Budget

end MmAudit
