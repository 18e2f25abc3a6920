import MmAudit.Budget.Manager

/-!
# Running totals per scope

The manager keeps the reserved and the spent cost of every model and every role
as running totals, updated by hand.  Each such dictionary is a projection of a
dictionary of single amounts: its value at a key is the sum of the amounts whose
reservation has that key.  This file shows that adding and removing an amount
keeps the projection, as long as the sums fit the decimal context.
-/

namespace MmAudit

namespace Budget

open Fallible CostLedger

/-- The amount a dictionary of totals holds for a key; a missing key counts as
zero. -/
def amountOf (values : Dict String Decimal) (key : String) : ℚ :=
  (values.get? key).elim 0 Decimal.value

theorem value_getD_get? (values : Dict String Decimal) (key : String) :
    ((values.get? key).getD 0).value = amountOf values key := by
  rw [amountOf]
  cases values.get? key with
  | none => simp
  | some amount => rfl

/-- The context adds and subtracts exactly on amounts of one grid below this
bound. -/
def InRange (grid : ℤ) (amount : ℚ) : Prop :=
  Decimal.OnGrid grid amount ∧ 0 ≤ amount ∧
    amount < (10 : ℚ) ^ ((defaultContext.precision : ℤ) + grid)

theorem InRange.represents {grid : ℤ} (tiny : defaultContext.etiny ≤ grid) {amount : ℚ}
    (inRange : InRange grid amount) : defaultContext.Represents amount := by
  refine Decimal.Context.represents_of_onGrid inRange.1 tiny ?_
  rw [abs_of_nonneg inRange.2.1]
  exact inRange.2.2

theorem amountOf_incrementDecimal {values : Dict String Decimal} {key : String} {amount : Decimal}
    (exact : defaultContext.Represents (amountOf values key + amount.value)) (other : String) :
    amountOf (incrementDecimal values key amount) other =
      amountOf values other + if other = key then amount.value else 0 := by
  rw [amountOf, incrementDecimal, Dict.get?_insert]
  by_cases same : other = key
  · subst same
    have sumValue : (defaultContext.add ((values.get? other).getD 0) amount).value =
        amountOf values other + amount.value := by
      rw [Decimal.value_add_of_represents, value_getD_get?]
      rwa [value_getD_get?]
    simp [sumValue]
  · simp [same, amountOf]

/-- Subtracting fails exactly when the key is missing or holds too little. -/
theorem decrementDecimal_error_iff {values : Dict String Decimal} {key : String}
    {amount : Decimal} :
    (∃ failure, decrementDecimal values key amount = .error failure) ↔
      key ∉ values ∨ amountOf values key < amount.value := by
  rw [decrementDecimal, Dict.mem_iff_exists_get?, amountOf]
  cases values.get? key with
  | none => simp
  | some current =>
      simp only [Option.elim_some, ← Decimal.lt_iff_value_lt]
      by_cases below : current < amount
      · simp [below]
      · by_cases drained : (defaultContext.sub current amount).SameValue 0 <;> simp [below, drained]

theorem decrementDecimal_error_eq {values : Dict String Decimal} {key : String}
    {amount : Decimal} {failure : BudgetError}
    (raised : decrementDecimal values key amount = .error failure) :
    failure = .reservationState "scoped reservation accounting is inconsistent" := by
  simp only [decrementDecimal] at raised
  split at raised
  · exact (Except.error.inj raised).symm
  · split at raised
    · exact (Except.error.inj raised).symm
    · split at raised <;> cases raised

theorem amountOf_decrementDecimal {values updated : Dict String Decimal} {key : String}
    {amount : Decimal}
    (exact : defaultContext.Represents (amountOf values key - amount.value))
    (success : decrementDecimal values key amount = .ok updated) (other : String) :
    amountOf updated other =
      amountOf values other - if other = key then amount.value else 0 := by
  simp only [decrementDecimal] at success
  split at success
  · cases success
  · rename_i current stored
    split at success
    · cases success
    · have currentValue : amountOf values key = current.value := by simp [amountOf, stored]
      have remaining : (defaultContext.sub current amount).value =
          amountOf values key - amount.value := by
        rw [Decimal.value_sub_of_represents, currentValue]
        rwa [← currentValue]
      split at success
      · rename_i drained
        rw [Decimal.sameValue_iff, remaining] at drained
        cases success
        rw [amountOf, Dict.get?_erase]
        by_cases same : other = key
        · subst same
          have zero : (0 : Decimal).value = 0 := by simp
          rw [zero] at drained
          simp [drained]
        · simp [same, amountOf]
      · cases success
        rw [amountOf, Dict.get?_insert]
        by_cases same : other = key
        · subst same
          simp [remaining]
        · simp [same, amountOf]

/-! ## Totals over a dictionary of amounts -/

section Totals

variable {Item : Type} {items : Dict String Item} {amount : Item → ℚ}

/-- The share of an amount that counts for a key of its reservation. -/
def scopeShare (issued : Dict String Reservation) (select : Reservation → Option String)
    (key identifier : String) (share : ℚ) : ℚ :=
  if (issued.get? identifier).bind select = some key then share else 0

/-- A dictionary of totals projects the amounts of the items. -/
def Projects (issued : Dict String Reservation) (select : Reservation → Option String)
    (items : Dict String Item) (amount : Item → ℚ) (values : Dict String Decimal) : Prop :=
  ∀ key, amountOf values key =
    items.total fun identifier item => scopeShare issued select key identifier (amount item)

/-- All amounts are non-negative and on the grid, and their total fits the
context. -/
structure FitsTotal (grid : ℤ) (items : Dict String Item) (amount : Item → ℚ) : Prop where
  onGrid : ∀ identifier item, items.get? identifier = some item → Decimal.OnGrid grid (amount item)
  nonneg : ∀ identifier item, items.get? identifier = some item → 0 ≤ amount item
  bound : (items.total fun _ item => amount item) <
    (10 : ℚ) ^ ((defaultContext.precision : ℤ) + grid)

theorem scopeShare_le {issued : Dict String Reservation} {select : Reservation → Option String}
    {key identifier : String} {share : ℚ} (nonneg : 0 ≤ share) :
    0 ≤ scopeShare issued select key identifier share ∧
      scopeShare issued select key identifier share ≤ share := by
  rw [scopeShare]
  split
  · exact ⟨nonneg, le_rfl⟩
  · exact ⟨le_rfl, nonneg⟩

theorem inRange_projected {grid : ℤ} (fits : FitsTotal grid items amount)
    (issued : Dict String Reservation) (select : Reservation → Option String) (key : String) :
    InRange grid (items.total fun identifier item =>
      scopeShare issued select key identifier (amount item)) := by
  have lists : ∀ list : List (String × Item),
      (∀ item ∈ list, Decimal.OnGrid grid (amount item.2) ∧ 0 ≤ amount item.2) →
      Decimal.OnGrid grid (list.map fun item =>
          scopeShare issued select key item.1 (amount item.2)).sum ∧
        0 ≤ (list.map fun item => scopeShare issued select key item.1 (amount item.2)).sum ∧
        (list.map fun item => scopeShare issued select key item.1 (amount item.2)).sum ≤
          (list.map fun item => amount item.2).sum := by
    intro list
    induction list with
    | nil => exact fun _ => ⟨Decimal.onGrid_zero _, le_rfl, le_rfl⟩
    | cons item list ih =>
        intro good
        obtain ⟨headGrid, headNonneg⟩ := good item (by simp)
        obtain ⟨tailGrid, tailNonneg, tailLe⟩ := ih fun other member => good other (by simp [member])
        obtain ⟨shareNonneg, shareLe⟩ := @scopeShare_le issued select key item.1 _ headNonneg
        simp only [List.map_cons, List.sum_cons]
        refine ⟨Decimal.OnGrid.add ?_ tailGrid, by linarith, by linarith⟩
        rw [scopeShare]
        split
        · exact headGrid
        · exact Decimal.onGrid_zero _
  obtain ⟨grid', nonneg, le⟩ := lists items.items fun item member =>
    ⟨fits.onGrid _ _ ((Dict.get?_eq_some_iff _ _ _).mpr member),
      fits.nonneg _ _ ((Dict.get?_eq_some_iff _ _ _).mpr member)⟩
  exact ⟨grid', nonneg, lt_of_le_of_lt le fits.bound⟩

theorem inRange_total {grid : ℤ} (fits : FitsTotal grid items amount) :
    InRange grid (items.total fun _ item => amount item) := by
  have lists : ∀ list : List (String × Item),
      (∀ item ∈ list, Decimal.OnGrid grid (amount item.2) ∧ 0 ≤ amount item.2) →
      Decimal.OnGrid grid (list.map fun item => amount item.2).sum ∧
        0 ≤ (list.map fun item => amount item.2).sum := by
    intro list
    induction list with
    | nil => exact fun _ => ⟨Decimal.onGrid_zero _, le_rfl⟩
    | cons item list ih =>
        intro good
        obtain ⟨headGrid, headNonneg⟩ := good item (by simp)
        obtain ⟨tailGrid, tailNonneg⟩ := ih fun other member => good other (by simp [member])
        simp only [List.map_cons, List.sum_cons]
        exact ⟨headGrid.add tailGrid, add_nonneg headNonneg tailNonneg⟩
  obtain ⟨grid', nonneg⟩ := lists items.items fun item member =>
    ⟨fits.onGrid _ _ ((Dict.get?_eq_some_iff _ _ _).mpr member),
      fits.nonneg _ _ ((Dict.get?_eq_some_iff _ _ _).mpr member)⟩
  exact ⟨grid', nonneg, fits.bound⟩

theorem scopeShare_congr {issued other : Dict String Reservation}
    {select : Reservation → Option String} {key identifier : String} {share : ℚ}
    (agree : other.get? identifier = issued.get? identifier) :
    scopeShare other select key identifier share =
      scopeShare issued select key identifier share := by
  rw [scopeShare, scopeShare, agree]

theorem scopeShare_of_stored {issued : Dict String Reservation}
    {select : Reservation → Option String} {key identifier : String} {share : ℚ}
    {reservation : Reservation} (stored : issued.get? identifier = some reservation) :
    scopeShare issued select key identifier share =
      if select reservation = some key then share else 0 := by
  rw [scopeShare, stored, Option.bind_some]

theorem total_insert_projected {issued extended : Dict String Reservation}
    {select : Reservation → Option String} {values : Dict String Decimal}
    (projects : Projects issued select items amount values)
    {identifier : String} {reservation : Reservation} (item : Item)
    (absent : items.get? identifier = none)
    (stored : extended.get? identifier = some reservation)
    (agree : ∀ other, other ≠ identifier → extended.get? other = issued.get? other)
    (key : String) :
    ((items.insert identifier item).total fun name item =>
        scopeShare extended select key name (amount item)) =
      amountOf values key + if select reservation = some key then amount item else 0 := by
  rw [Dict.total_insert_of_none _ _ absent, projects key, scopeShare_of_stored stored]
  congr 1
  refine Dict.total_congr fun name other otherStored => scopeShare_congr (agree name ?_)
  rintro rfl
  rw [absent] at otherStored
  cases otherStored

/-- Adding an item keeps the projection. -/
theorem Projects.increment {grid : ℤ} (tiny : defaultContext.etiny ≤ grid)
    {issued extended : Dict String Reservation} {select : Reservation → Option String}
    {values : Dict String Decimal} (projects : Projects issued select items amount values)
    {identifier : String} {reservation : Reservation} {item : Item} {cost : Decimal}
    (absent : items.get? identifier = none)
    (stored : extended.get? identifier = some reservation)
    (agree : ∀ other, other ≠ identifier → extended.get? other = issued.get? other)
    (costEq : amount item = cost.value)
    (fits : FitsTotal grid (items.insert identifier item) amount) :
    Projects extended select (items.insert identifier item) amount
      (incrementOptional values (select reservation) cost) := by
  intro key
  rw [total_insert_projected projects item absent stored agree key, costEq]
  cases scope : select reservation with
  | none => simp [incrementOptional]
  | some chosen =>
      have inRange := inRange_projected fits extended select chosen
      rw [total_insert_projected projects item absent stored agree chosen, scope, if_pos rfl,
        costEq] at inRange
      rw [incrementOptional, amountOf_incrementDecimal (inRange.represents tiny) key]
      by_cases same : key = chosen
      · simp [same]
      · have different : chosen ≠ key := fun equal => same equal.symm
        simp [same, different]

theorem total_erase_projected {issued : Dict String Reservation}
    {select : Reservation → Option String} {values : Dict String Decimal}
    (projects : Projects issued select items amount values)
    {identifier : String} {reservation : Reservation} {item : Item}
    (member : items.get? identifier = some item)
    (stored : issued.get? identifier = some reservation) (key : String) :
    ((items.erase identifier).total fun name item =>
        scopeShare issued select key name (amount item)) =
      amountOf values key - if select reservation = some key then amount item else 0 := by
  rw [Dict.total_erase_of_some _ member, projects key, scopeShare_of_stored stored]

theorem FitsTotal.erase {grid : ℤ} (fits : FitsTotal grid items amount) {identifier : String}
    {item : Item} (member : items.get? identifier = some item) :
    FitsTotal grid (items.erase identifier) amount where
  onGrid := fun name other otherStored => by
    rw [Dict.get?_erase] at otherStored
    split at otherStored
    · cases otherStored
    · exact fits.onGrid name other otherStored
  nonneg := fun name other otherStored => by
    rw [Dict.get?_erase] at otherStored
    split at otherStored
    · cases otherStored
    · exact fits.nonneg name other otherStored
  bound := by
    rw [Dict.total_erase_of_some _ member]
    have itemNonneg := fits.nonneg identifier item member
    have bound := fits.bound
    linarith

/-- Removing an item keeps the projection. -/
theorem Projects.decrement {grid : ℤ} (tiny : defaultContext.etiny ≤ grid)
    {issued : Dict String Reservation} {select : Reservation → Option String}
    {values updated : Dict String Decimal}
    (projects : Projects issued select items amount values)
    {identifier : String} {reservation : Reservation} {item : Item} {cost : Decimal}
    (member : items.get? identifier = some item)
    (stored : issued.get? identifier = some reservation)
    (costEq : amount item = cost.value) (fits : FitsTotal grid items amount)
    (success : decrementOptional values (select reservation) cost = .ok updated) :
    Projects issued select (items.erase identifier) amount updated := by
  intro key
  rw [total_erase_projected projects member stored key, costEq]
  cases scope : select reservation with
  | none =>
      rw [scope] at success
      cases success
      simp
  | some chosen =>
      rw [scope] at success
      have inRange := inRange_projected (fits.erase member) issued select chosen
      rw [total_erase_projected projects member stored chosen, scope, if_pos rfl, costEq] at inRange
      rw [amountOf_decrementDecimal (inRange.represents tiny) success key]
      by_cases same : key = chosen
      · simp [same]
      · have different : chosen ≠ key := fun equal => same equal.symm
        simp [same, different]

/-- Removing an item fails only when its scope has no key left, and then the item
had no cost. -/
theorem Projects.decrement_error {grid : ℤ} {issued : Dict String Reservation}
    {select : Reservation → Option String} {values : Dict String Decimal}
    (projects : Projects issued select items amount values)
    {identifier : String} {reservation : Reservation} {item : Item} {cost : Decimal}
    (member : items.get? identifier = some item)
    (stored : issued.get? identifier = some reservation)
    (costEq : amount item = cost.value) (fits : FitsTotal grid items amount)
    {failure : BudgetError}
    (raised : decrementOptional values (select reservation) cost = .error failure) :
    amount item = 0 ∧ ∃ key, select reservation = some key ∧ key ∉ values := by
  cases scope : select reservation with
  | none =>
      rw [scope] at raised
      cases raised
  | some chosen =>
      rw [scope] at raised
      have rest := inRange_projected (fits.erase member) issued select chosen
      rw [total_erase_projected projects member stored chosen, scope, if_pos rfl] at rest
      have itemNonneg := fits.nonneg identifier item member
      have enough : amount item ≤ amountOf values chosen := by linarith [rest.2.1]
      rcases decrementDecimal_error_iff.mp ⟨failure, raised⟩ with missing | below
      · refine ⟨?_, chosen, rfl, missing⟩
        have zero : amountOf values chosen = 0 := by
          rw [amountOf, (Dict.get?_eq_none_iff _ _).mpr missing, Option.elim_none]
        linarith
      · rw [costEq] at enough
        linarith

/-- An item without cost can be dropped without touching the totals. -/
theorem Projects.erase_of_zero {issued : Dict String Reservation}
    {select : Reservation → Option String} {values : Dict String Decimal}
    (projects : Projects issued select items amount values)
    {identifier : String} {item : Item} (member : items.get? identifier = some item)
    (zero : amount item = 0) :
    Projects issued select (items.erase identifier) amount values := by
  intro key
  rw [Dict.total_erase_of_some _ member, projects key, zero, scopeShare]
  simp

end Totals

end Budget

end MmAudit
