import MmAudit.CostLedger.Steps

/-!
# The shared cost cap

Several processes spend against one ledger file.  While no provider charged
more than it was allowed to, the accounted costs and the active reservations
together never exceed the cap; once a provider did, no further request is ever
admitted.

The admission check adds in a 64-digit decimal context.  Its sums are exact
here because amounts lie on a grid of eighteen decimal places and the invariant
keeps their total below the cap.
-/

namespace MmAudit

namespace CostLedger

/-! ## Totals of a file -/

/-- The accounted cost of all entries of a file. -/
def accountedTotal (file : SerializedState) : ℚ :=
  file.entries.total fun _ entry => textValue entry.accountedCostUsd

/-- The reserved amount of the active entries of a file. -/
def activeTotal (file : SerializedState) : ℚ :=
  file.entries.total fun _ entry =>
    if entry.status = .reserved then textValue entry.reservedUsd else 0

def HasOverrun (file : SerializedState) : Prop :=
  ∃ key entry, file.entries.get? key = some entry ∧ entry.status = .reservationOverrun

instance (file : SerializedState) : Decidable (HasOverrun file) :=
  decidable_of_iff
    (∃ item ∈ file.entries.items, item.2.status = CostEntryStatus.reservationOverrun) (by
      simp only [HasOverrun, Dict.get?_eq_some_iff]
      constructor
      · rintro ⟨⟨key, entry⟩, member, overrun⟩
        exact ⟨key, entry, member, overrun⟩
      · rintro ⟨key, entry, member, overrun⟩
        exact ⟨(key, entry), member, overrun⟩)

/-- At most eighteen decimal places and at most twelve integer digits. -/
def BoundedAmount (amount : ℚ) : Prop :=
  Decimal.OnGrid (-18) amount ∧ |amount| < 10 ^ 12

def DecimalArgument.Bounded : DecimalArgument → Prop
  | .finite number => BoundedAmount number.value
  | .infinite => True
  | .notANumber => True

/-- Every money argument of a call is bounded. -/
def LedgerOperation.Bounded : LedgerOperation → Prop
  | .reserve _ maximumCostUsd _ _ => maximumCostUsd.Bounded
  | .reconcile reservation actualCostUsd _ =>
      BoundedAmount reservation.reservedUsd.value ∧
        ∀ argument, actualCostUsd = some argument → argument.Bounded
  | .release reservation _ _ => BoundedAmount reservation.reservedUsd.value
  | .activeReservation _ => True
  | .snapshot => True

/-- What an entry counts against the cap. -/
def CostEntry.accounted (entry : CostEntry) : ℚ :=
  entry.accountedCostUsd.value

def CostEntry.active (entry : CostEntry) : ℚ :=
  if entry.status = .reserved then entry.reservedUsd.value else 0

theorem accountedTotal_serializeState {cap : Decimal} {entries : Dict String CostEntry}
    (wellFormed : WellFormedEntries entries) :
    accountedTotal (serializeState cap entries) = entries.total fun _ entry => entry.accounted := by
  rw [accountedTotal, serializeState, Dict.total_sorted, Dict.total_mapValues]
  refine Dict.total_congr fun key entry stored => ?_
  exact textValue_moneyText (wellFormed.entry _ _ stored).accountedCostUsd.nonneg

theorem activeTotal_serializeState {cap : Decimal} {entries : Dict String CostEntry}
    (wellFormed : WellFormedEntries entries) :
    activeTotal (serializeState cap entries) = entries.total fun _ entry => entry.active := by
  rw [activeTotal, serializeState, Dict.total_sorted, Dict.total_mapValues]
  refine Dict.total_congr fun key entry stored => ?_
  simp only [serializeEntry, CostEntry.active,
    textValue_moneyText (wellFormed.entry _ _ stored).reservedUsd.nonneg]

theorem accountedTotal_of_validatedFrom {file : SerializedState} {cap : Decimal}
    {entries : Dict String CostEntry} (validated : ValidatedFrom file cap entries) :
    accountedTotal file = entries.total fun _ entry => entry.accounted := by
  refine validated.maps.sum_eq _ _ fun key serialized entry _ parsed => ?_
  have entryParsed := ((parseItem_eq_ok_iff _ _ _).mp parsed).1
  exact (readFrom_of_parseEntry entryParsed).accountedCostUsd.symm

theorem activeTotal_of_validatedFrom {file : SerializedState} {cap : Decimal}
    {entries : Dict String CostEntry} (validated : ValidatedFrom file cap entries) :
    activeTotal file = entries.total fun _ entry => entry.active := by
  refine validated.maps.sum_eq _ _ fun key serialized entry _ parsed => ?_
  have read := readFrom_of_parseEntry ((parseItem_eq_ok_iff _ _ _).mp parsed).1
  simp only [CostEntry.active, read.status, read.reservedUsd]

/-- Overruns are the same in a file and in the entries read from it. -/
theorem hasOverrun_iff_of_validatedFrom {file : SerializedState} {cap : Decimal}
    {entries : Dict String CostEntry} (validated : ValidatedFrom file cap entries) :
    HasOverrun file ↔
      ∃ key entry, entries.get? key = some entry ∧ entry.status = .reservationOverrun := by
  constructor
  · rintro ⟨key, serialized, stored, overrun⟩
    obtain ⟨entry, parsed, member⟩ :=
      validated.maps.exists_mapped ((Dict.get?_eq_some_iff _ _ _).mp stored)
    have read := readFrom_of_parseEntry ((parseItem_eq_ok_iff _ _ _).mp parsed).1
    exact ⟨key, entry, (Dict.get?_eq_some_iff _ _ _).mpr member, read.status.trans overrun⟩
  · rintro ⟨key, entry, stored, overrun⟩
    obtain ⟨serialized, member, parsed⟩ :=
      validated.maps.exists_original ((Dict.get?_eq_some_iff _ _ _).mp stored)
    have read := readFrom_of_parseEntry ((parseItem_eq_ok_iff _ _ _).mp parsed).1
    exact ⟨key, serialized, (Dict.get?_eq_some_iff _ _ _).mpr member,
      read.status.symm.trans overrun⟩

theorem hasOverrun_serializeState_iff {cap : Decimal} {entries : Dict String CostEntry} :
    HasOverrun (serializeState cap entries) ↔
      ∃ key entry, entries.get? key = some entry ∧ entry.status = .reservationOverrun := by
  simp only [HasOverrun, get?_serializeState, Option.map_eq_some_iff]
  constructor
  · rintro ⟨key, _, ⟨entry, stored, rfl⟩, overrun⟩
    exact ⟨key, entry, stored, overrun⟩
  · rintro ⟨key, entry, stored, overrun⟩
    exact ⟨key, _, ⟨entry, stored, rfl⟩, overrun⟩

/-! ## Exactness of the admission check -/

/-- All amounts that count against the cap lie on the grid. -/
def GridEntries (entries : Dict String CostEntry) : Prop :=
  ∀ key entry, entries.get? key = some entry →
    Decimal.OnGrid (-18) entry.accountedCostUsd.value ∧
      Decimal.OnGrid (-18) entry.reservedUsd.value

section Exactness

variable {entries : Dict String CostEntry}

theorem accounted_nonneg (wellFormed : WellFormedEntries entries) {key : String}
    {entry : CostEntry} (stored : entries.get? key = some entry) : 0 ≤ entry.accounted :=
  (wellFormed.entry _ _ stored).accountedCostUsd.nonneg

theorem active_nonneg (wellFormed : WellFormedEntries entries) {key : String}
    {entry : CostEntry} (stored : entries.get? key = some entry) : 0 ≤ entry.active := by
  rw [CostEntry.active]
  split
  · exact (wellFormed.entry _ _ stored).reservedUsd.nonneg
  · exact le_rfl

theorem total_nonneg {weight : CostEntry → ℚ}
    (nonneg : ∀ key entry, entries.get? key = some entry → 0 ≤ weight entry) :
    0 ≤ entries.total fun _ entry => weight entry := by
  refine List.sum_nonneg fun amount member => ?_
  obtain ⟨item, itemMem, rfl⟩ := List.mem_map.mp member
  exact nonneg item.1 item.2 ((Dict.get?_eq_some_iff _ _ _).mpr itemMem)

theorem map_value_accounted :
    ((entries.values.map CostEntry.accountedCostUsd).map Decimal.value).sum =
      entries.total fun _ entry => entry.accounted := by
  simp only [Dict.values, Dict.total, List.map_map]
  rfl

theorem sum_filter_active (items : List (String × CostEntry)) :
    ((((items.map Prod.snd).filter fun entry => entry.status = .reserved).map
      CostEntry.reservedUsd).map Decimal.value).sum =
      (items.map fun item => item.2.active).sum := by
  induction items with
  | nil => rfl
  | cons item items ih =>
      rw [List.map_cons, List.map_cons, List.sum_cons, ← ih, CostEntry.active, List.filter_cons]
      by_cases active : item.2.status = .reserved <;> simp [active]

theorem totals_nonneg (wellFormed : WellFormedEntries entries) :
    0 ≤ (entries.total fun _ entry => entry.accounted) ∧
      0 ≤ entries.total fun _ entry => entry.active :=
  ⟨total_nonneg fun _ _ stored => accounted_nonneg wellFormed stored,
    total_nonneg fun _ _ stored => active_nonneg wellFormed stored⟩

theorem snapshotContext_tiny : snapshotContext.etiny ≤ -18 := by
  norm_num [snapshotContext]

theorem snapshotContext_room :
    (10 : ℚ) ^ 12 < 10 ^ ((snapshotContext.precision : ℤ) + (-18)) := by
  norm_num [snapshotContext, zpow_ofNat]

theorem value_spent (cap : Decimal) (wellFormed : WellFormedEntries entries)
    (grid : GridEntries entries)
    (bound : (entries.total fun _ entry => entry.accounted) < 10 ^ 12) :
    (snapshotOf cap entries).spentUsd.value = entries.total fun _ entry => entry.accounted := by
  rw [← map_value_accounted]
  refine Decimal.value_sum snapshotContext_tiny _ (fun number member => ?_)
    (fun number member => ?_) ?_
  · obtain ⟨entry, entryMem, rfl⟩ := List.mem_map.mp member
    obtain ⟨key, stored⟩ := mem_values_iff.mp entryMem
    exact (grid key entry stored).1
  · obtain ⟨entry, entryMem, rfl⟩ := List.mem_map.mp member
    obtain ⟨key, stored⟩ := mem_values_iff.mp entryMem
    exact accounted_nonneg wellFormed stored
  · rw [map_value_accounted]
    exact bound.trans snapshotContext_room

theorem value_activeReserved (cap : Decimal) (wellFormed : WellFormedEntries entries)
    (grid : GridEntries entries)
    (bound : (entries.total fun _ entry => entry.active) < 10 ^ 12) :
    (snapshotOf cap entries).activeReservedUsd.value =
      entries.total fun _ entry => entry.active := by
  have sumEq := sum_filter_active entries.items
  rw [Dict.total, ← sumEq]
  refine Decimal.value_sum snapshotContext_tiny _ (fun number member => ?_)
    (fun number member => ?_) ?_
  · obtain ⟨entry, entryMem, rfl⟩ := List.mem_map.mp member
    obtain ⟨key, stored⟩ := mem_values_iff.mp (List.mem_of_mem_filter entryMem)
    exact (grid key entry stored).2
  · obtain ⟨entry, entryMem, rfl⟩ := List.mem_map.mp member
    obtain ⟨key, stored⟩ := mem_values_iff.mp (List.mem_of_mem_filter entryMem)
    exact (wellFormed.entry key entry stored).reservedUsd.nonneg
  · rw [Dict.values, sumEq]
    exact bound.trans snapshotContext_room

theorem onGrid_total {weight : CostEntry → ℚ}
    (grid : ∀ key entry, entries.get? key = some entry → Decimal.OnGrid (-18) (weight entry)) :
    Decimal.OnGrid (-18) (entries.total fun _ entry => weight entry) := by
  have lists : ∀ items : List (String × CostEntry),
      (∀ item ∈ items, Decimal.OnGrid (-18) (weight item.2)) →
      Decimal.OnGrid (-18) (items.map fun item => weight item.2).sum := by
    intro items
    induction items with
    | nil => exact fun _ => Decimal.onGrid_zero _
    | cons item items ih =>
        intro itemGrid
        rw [List.map_cons, List.sum_cons]
        exact (itemGrid item (by simp)).add (ih fun other member => itemGrid other (by simp [member]))
  exact lists entries.items fun item member =>
    grid item.1 item.2 ((Dict.get?_eq_some_iff _ _ _).mpr member)

theorem onGrid_active (grid : GridEntries entries) {key : String} {entry : CostEntry}
    (stored : entries.get? key = some entry) : Decimal.OnGrid (-18) entry.active := by
  rw [CostEntry.active]
  split
  · exact (grid key entry stored).2
  · exact Decimal.onGrid_zero _

theorem value_sub_of_bounded {first second : Decimal}
    (firstGrid : Decimal.OnGrid (-18) first.value)
    (secondGrid : Decimal.OnGrid (-18) second.value)
    (bound : |first.value - second.value| < 10 ^ 12) :
    (snapshotContext.sub first second).value = first.value - second.value :=
  Decimal.value_sub_of_represents (Decimal.Context.represents_of_onGrid
    (firstGrid.sub secondGrid) snapshotContext_tiny (bound.trans snapshotContext_room))

/-- While the total is within the cap, a request that passes the admission check
fits beside everything accounted and held. -/
theorem admitted_fits {cap requested : Decimal} (capBounded : BoundedAmount cap.value)
    (wellFormed : WellFormedEntries entries) (grid : GridEntries entries)
    (within : (entries.total fun _ entry => entry.accounted) +
      (entries.total fun _ entry => entry.active) ≤ cap.value)
    (positive : 0 < requested.value)
    (admitted : ¬ (snapshotOf cap entries).remainingUsd < requested) :
    (entries.total fun _ entry => entry.accounted) +
      (entries.total fun _ entry => entry.active) + requested.value ≤ cap.value := by
  obtain ⟨spentNonneg, activeNonneg⟩ := totals_nonneg wellFormed
  have capBelow : cap.value < 10 ^ 12 := (abs_lt.mp capBounded.2).2
  have spentValue := value_spent cap wellFormed grid (by linarith)
  have activeValue := value_activeReserved cap wellFormed grid (by linarith)
  have spentGrid := onGrid_total fun key entry stored => (grid key entry stored).1
  have activeGrid := onGrid_total fun key entry stored => onGrid_active grid stored
  have firstValue : (snapshotContext.sub cap (snapshotOf cap entries).spentUsd).value =
      cap.value - entries.total fun _ entry => entry.accounted := by
    rw [value_sub_of_bounded capBounded.1 (spentValue ▸ spentGrid), spentValue]
    rw [spentValue, abs_lt]
    constructor <;> linarith
  have availableValue : (snapshotContext.sub
      (snapshotContext.sub cap (snapshotOf cap entries).spentUsd)
      (snapshotOf cap entries).activeReservedUsd).value =
      cap.value - (entries.total fun _ entry => entry.accounted) -
        entries.total fun _ entry => entry.active := by
    rw [value_sub_of_bounded (firstValue ▸ capBounded.1.sub spentGrid)
      (activeValue ▸ activeGrid), firstValue, activeValue]
    rw [firstValue, activeValue, abs_lt]
    constructor <;> linarith
  rw [Decimal.lt_iff_value_lt, not_lt] at admitted
  change requested.value ≤ (if 0 < snapshotContext.sub
    (snapshotContext.sub cap (snapshotOf cap entries).spentUsd)
    (snapshotOf cap entries).activeReservedUsd then _ else _ : Decimal).value at admitted
  split at admitted
  · have below := le_of_le_of_eq admitted availableValue
    linarith
  · have zero : (0 : Decimal).value = 0 := by simp
    linarith

end Exactness

/-! ## The invariant of a run -/

/-- What holds of every file a bounded run reaches. -/
structure CapInvariant (cap : ℚ) (file : SerializedState) : Prop where
  written : Written cap file
  grid : ∀ key entry, file.entries.get? key = some entry →
    Decimal.OnGrid (-18) (textValue entry.accountedCostUsd) ∧
      Decimal.OnGrid (-18) (textValue entry.reservedUsd)
  within : ¬ HasOverrun file → accountedTotal file + activeTotal file ≤ cap

theorem capInvariant_newState (ledger : AtomicCostLedger) :
    CapInvariant ledger.capUsd.value (newState ledger.capUsd) where
  written := written_newState ledger
  grid := fun key entry stored => by simp [newState] at stored
  within := fun _ => by
    have total : accountedTotal (newState ledger.capUsd) +
        activeTotal (newState ledger.capUsd) = 0 := by
      simp [accountedTotal, activeTotal, newState]
    rw [total]
    exact ledger.capUsd_money.nonneg

theorem CapInvariant.gridEntries {cap : ℚ} {file : SerializedState}
    (invariant : CapInvariant cap file) {readCap : Decimal} {entries : Dict String CostEntry}
    (validated : ValidatedFrom file readCap entries) : GridEntries entries := by
  intro key entry stored
  obtain ⟨serialized, member, parsed⟩ :=
    validated.maps.exists_original ((Dict.get?_eq_some_iff _ _ _).mp stored)
  have read := readFrom_of_parseEntry ((parseItem_eq_ok_iff _ _ _).mp parsed).1
  rw [read.accountedCostUsd, read.reservedUsd]
  exact invariant.grid key serialized ((Dict.get?_eq_some_iff _ _ _).mpr member)

theorem onGrid_of_validateMoney {argument : DecimalArgument} {field : String} {positive : Bool}
    {amount : Decimal} (accepted : validateMoney argument field positive = .ok amount)
    (bounded : argument.Bounded) : Decimal.OnGrid (-18) amount.value := by
  obtain ⟨number, rfl, rfl, -⟩ := (validateMoney_eq_ok_iff _ _ _ _).mp accepted
  rw [value_zeroed]
  exact bounded.1

/-- The amounts of a written entry stay on the grid. -/
theorem EntryWrite.onGrid {ledger : AtomicCostLedger} {entries : Dict String CostEntry}
    {operation : LedgerOperation} {entry : CostEntry}
    (write : EntryWrite ledger entries operation entry) (grid : GridEntries entries)
    (bounded : operation.Bounded) :
    Decimal.OnGrid (-18) entry.accountedCostUsd.value ∧
      Decimal.OnGrid (-18) entry.reservedUsd.value := by
  have zeroGrid : Decimal.OnGrid (-18) (0 : Decimal).value := by
    simpa using Decimal.onGrid_zero (-18)
  cases write with
  | reserve identifier valid absent noOverrun fits =>
      exact ⟨zeroGrid, onGrid_of_validateMoney valid bounded⟩
  | @reconcile reservation argument now actual current valid matching active =>
      refine ⟨?_, (grid _ _ (of_matchingEntry matching).1).2⟩
      cases argument with
      | none =>
          obtain rfl := Except.ok.inj valid
          exact bounded.1.1
      | some argument =>
          simp only [validateActual, Fallible.map_eq_ok_iff] at valid
          obtain ⟨number, accepted, rfl⟩ := valid
          exact onGrid_of_validateMoney accepted (bounded.2 argument rfl)
  | release matching active => exact ⟨zeroGrid, (grid _ _ (of_matchingEntry matching).1).2⟩

/-- A closing write that records no overrun counts no more against the cap than
the active entry it replaces. -/
theorem EntryWrite.closing_le {ledger : AtomicCostLedger} {entries : Dict String CostEntry}
    {operation : LedgerOperation} {entry current : CostEntry}
    (write : EntryWrite ledger entries operation entry) (wellFormed : WellFormedEntries entries)
    (stored : entries.get? entry.requestId = some current)
    (noOverrun : entry.status ≠ .reservationOverrun) :
    entry.accounted + entry.active ≤ current.accounted + current.active := by
  have replaced := write.replaces wellFormed
  rw [stored] at replaced
  simp only [reduceCtorEq, false_or, Option.some.injEq] at replaced
  obtain ⟨_, rfl, active, closed, -, reservedEq, -⟩ := replaced
  have lifecycle := (write.wellFormed wellFormed).lifecycle
  have currentNonneg := accounted_nonneg wellFormed stored
  have currentActive : current.active = current.reservedUsd.value := if_pos active
  have entryActive : entry.active = 0 := if_neg closed
  rw [entryActive, currentActive, ← reservedEq]
  have entryReservedNonneg := (write.wellFormed wellFormed).reservedUsd.nonneg
  have entryBelow : entry.accounted ≤ entry.reservedUsd.value := by
    rw [lifecycleIsValid] at lifecycle
    cases status : entry.status with
    | reserved => exact absurd status closed
    | reservationOverrun => exact absurd status noOverrun
    | released =>
        simp only [status, Bool.and_eq_true, decide_eq_true_eq, Decimal.sameValue_iff] at lifecycle
        rw [CostEntry.accounted, lifecycle.1.2]
        simpa using entryReservedNonneg
    | uncertainAccounted =>
        simp only [status, Bool.and_eq_true, decide_eq_true_eq, Decimal.sameValue_iff] at lifecycle
        exact le_of_eq lifecycle.1.2
    | reconciled =>
        simp only [status] at lifecycle
        split at lifecycle
        · cases lifecycle
        · simp only [Bool.and_eq_true, decide_eq_true_eq, Decimal.sameValue_iff,
            Decimal.le_iff_value_le] at lifecycle
          rw [CostEntry.accounted, lifecycle.1.2]
          exact lifecycle.1.1
  linarith

theorem hasReservationOverrun_iff (cap : Decimal) (entries : Dict String CostEntry) :
    (snapshotOf cap entries).hasReservationOverrun = true ↔
      ∃ key entry, entries.get? key = some entry ∧ entry.status = .reservationOverrun := by
  simp only [snapshotOf, List.any_eq_true, decide_eq_true_eq, mem_values_iff]
  constructor
  · rintro ⟨entry, ⟨key, stored⟩, overrun⟩
    exact ⟨key, entry, stored, overrun⟩
  · rintro ⟨key, entry, stored, overrun⟩
    exact ⟨entry, ⟨key, stored⟩, overrun⟩

/-- An overrun stays in the file. -/
theorem EntryWrite.overrun_stays {ledger : AtomicCostLedger} {entries : Dict String CostEntry}
    {operation : LedgerOperation} {entry : CostEntry}
    (write : EntryWrite ledger entries operation entry) (wellFormed : WellFormedEntries entries)
    {key : String} {other : CostEntry} (stored : entries.get? key = some other)
    (overrun : other.status = .reservationOverrun) :
    (entries.insert entry.requestId entry).get? key = some other := by
  rw [Dict.get?_insert, if_neg ?_]
  · exact stored
  · rintro rfl
    rcases write.replaces wellFormed with absent | ⟨current, currentStored, active, -⟩
    · rw [stored] at absent
      cases absent
    · rw [stored] at currentStored
      cases currentStored
      rw [overrun] at active
      cases active

theorem CapInvariant.perform {cap : ℚ} {file : SerializedState}
    (invariant : CapInvariant cap file) {ledger : AtomicCostLedger}
    (capBounded : BoundedAmount ledger.capUsd.value) {operation : LedgerOperation}
    (bounded : operation.Bounded) : CapInvariant cap (ledger.perform file operation).file := by
  have written := invariant.written.perform ledger operation
  rcases perform_cases ledger file operation with same | ⟨entries, entry, read, write⟩
  · rwa [same]
  obtain ⟨readCap, validated, -⟩ := exists_validatedFrom_of_requiredState read
  have wellFormed := validated.wellFormed
  have grid := invariant.gridEntries validated
  have entryWellFormed := write.wellFormed wellFormed
  have nextWellFormed := wellFormed.insert entryWellFormed
  have entryGrid := write.onGrid grid bounded
  have capEq := invariant.written.cap_eq read
  rw [perform_of_entryWrite read write] at written ⊢
  refine ⟨written, fun key serialized stored => ?_, fun noOverrun => ?_⟩
  · rw [get?_serializeState, Option.map_eq_some_iff] at stored
    obtain ⟨other, otherStored, rfl⟩ := stored
    have otherWellFormed := nextWellFormed.entry _ _ otherStored
    simp only [serializeEntry, textValue_moneyText otherWellFormed.accountedCostUsd.nonneg,
      textValue_moneyText otherWellFormed.reservedUsd.nonneg]
    rw [Dict.get?_insert] at otherStored
    split at otherStored
    · cases otherStored
      exact entryGrid
    · exact grid key other otherStored
  · rw [hasOverrun_serializeState_iff] at noOverrun
    have noEarlier : ¬ HasOverrun file := by
      rw [hasOverrun_iff_of_validatedFrom validated]
      rintro ⟨key, other, stored, overrun⟩
      exact noOverrun ⟨key, other, write.overrun_stays wellFormed stored overrun, overrun⟩
    have entryNoOverrun : entry.status ≠ .reservationOverrun := fun overrun =>
      noOverrun ⟨entry.requestId, entry, Dict.get?_insert_self _ _ _, overrun⟩
    have within := invariant.within noEarlier
    rw [accountedTotal_of_validatedFrom validated, activeTotal_of_validatedFrom validated]
      at within
    rw [accountedTotal_serializeState nextWellFormed, activeTotal_serializeState nextWellFormed]
    cases stored : entries.get? entry.requestId with
    | some current =>
        have closing := write.closing_le wellFormed stored entryNoOverrun
        rw [Dict.total_insert_of_some _ _ stored, Dict.total_insert_of_some _ _ stored]
        linarith
    | none =>
        rw [Dict.total_insert_of_none _ _ stored, Dict.total_insert_of_none _ _ stored]
        cases write with
        | @reserve requestId _ now fresh requested identifier valid absent overrunFree fits =>
            have admitted := admitted_fits capBounded wellFormed grid (capEq ▸ within)
              (money_of_validateMoney valid).pos fits
            have entryAccounted :
                (reservedEntry requestId requested now fresh).accounted = 0 := by
              simp [CostEntry.accounted, reservedEntry]
            have entryActive :
                (reservedEntry requestId requested now fresh).active = requested.value :=
              if_pos rfl
            rw [entryAccounted, entryActive]
            linarith
        | reconcile valid matching active =>
            have current := (of_matchingEntry matching).1
            rw [wellFormed.key _ _ current] at current
            exact absurd (current.symm.trans stored) (by simp)
        | release matching active =>
            have current := (of_matchingEntry matching).1
            rw [wellFormed.key _ _ current] at current
            exact absurd (current.symm.trans stored) (by simp)

theorem CapInvariant.runLedger {cap : ℚ} {file : SerializedState}
    (invariant : CapInvariant cap file) (history : List (AtomicCostLedger × LedgerOperation))
    (bounded : ∀ call ∈ history, BoundedAmount call.1.capUsd.value ∧ call.2.Bounded) :
    CapInvariant cap (runLedger file history) := by
  induction history generalizing file with
  | nil => exact invariant
  | cons call history ih =>
      have first := bounded call (by simp)
      exact ih (invariant.perform first.1 first.2) fun other member => bounded other (by simp [member])

/-! ## After an overrun -/

/-- Once a file has an overrun, a call keeps it and adds no request. -/
theorem perform_after_overrun {file : SerializedState} (overrun : HasOverrun file)
    (ledger : AtomicCostLedger) (operation : LedgerOperation) :
    HasOverrun (ledger.perform file operation).file ∧
      ∀ requestId, requestId ∈ (ledger.perform file operation).file.entries →
        requestId ∈ file.entries := by
  rcases perform_cases ledger file operation with same | ⟨entries, entry, read, write⟩
  · rw [same]
    exact ⟨overrun, fun _ member => member⟩
  obtain ⟨readCap, validated, -⟩ := exists_validatedFrom_of_requiredState read
  have wellFormed := validated.wellFormed
  have readOverrun := (hasOverrun_iff_of_validatedFrom validated).mp overrun
  obtain ⟨key, other, stored, otherOverrun⟩ := readOverrun
  rw [perform_of_entryWrite read write]
  refine ⟨hasOverrun_serializeState_iff.mpr
    ⟨key, other, write.overrun_stays wellFormed stored otherOverrun, otherOverrun⟩, ?_⟩
  intro requestId member
  rw [Dict.mem_iff_exists_get?] at member
  obtain ⟨serialized, serializedStored⟩ := member
  rw [get?_serializeState, Option.map_eq_some_iff] at serializedStored
  obtain ⟨present, presentStored, -⟩ := serializedStored
  have readStored : ∃ earlier, entries.get? requestId = some earlier := by
    rw [Dict.get?_insert] at presentStored
    split at presentStored
    · rename_i same
      rcases write.replaces wellFormed with absent | ⟨current, currentStored, -⟩
      · -- A reservation is refused as soon as the entries read hold an overrun.
        cases write with
        | reserve identifier valid _ noOverrun fits =>
            have blocked := (hasReservationOverrun_iff ledger.capUsd entries).mpr
              ⟨key, other, stored, otherOverrun⟩
            rw [noOverrun] at blocked
            cases blocked
        | reconcile valid matching active =>
            have current := (of_matchingEntry matching).1
            rw [wellFormed.key _ _ current] at current
            exact absurd (current.symm.trans absent) (by simp)
        | release matching active =>
            have current := (of_matchingEntry matching).1
            rw [wellFormed.key _ _ current] at current
            exact absurd (current.symm.trans absent) (by simp)
      · exact ⟨current, same ▸ currentStored⟩
    · exact ⟨present, presentStored⟩
  obtain ⟨earlier, earlierStored⟩ := readStored
  obtain ⟨original, originalMem, -⟩ :=
    validated.maps.exists_original ((Dict.get?_eq_some_iff _ _ _).mp earlierStored)
  exact (Dict.mem_iff_exists_get? _ _).mpr
    ⟨original, (Dict.get?_eq_some_iff _ _ _).mpr originalMem⟩

theorem runLedger_after_overrun {file : SerializedState} (overrun : HasOverrun file)
    (history : List (AtomicCostLedger × LedgerOperation)) {requestId : String}
    (member : requestId ∈ (runLedger file history).entries) : requestId ∈ file.entries := by
  induction history generalizing file with
  | nil => exact member
  | cons call history ih =>
      obtain ⟨stays, noNew⟩ := perform_after_overrun overrun call.1 call.2
      exact noNew requestId (ih stays member)

/-- Whatever calls any number of processes make on one ledger file, in any
order: without an overrun the accounted and the held amounts stay within the
cap, and from the first overrun on no request is added. -/
theorem ledger_cap_holds (creator : AtomicCostLedger)
    (history : List (AtomicCostLedger × LedgerOperation))
    (bounded : ∀ call ∈ history, BoundedAmount call.1.capUsd.value ∧ call.2.Bounded) :
    (¬ HasOverrun (runLedger (newState creator.capUsd) history) →
      accountedTotal (runLedger (newState creator.capUsd) history) +
        activeTotal (runLedger (newState creator.capUsd) history) ≤ creator.capUsd.value) ∧
    ∀ before after, history = before ++ after →
      HasOverrun (runLedger (newState creator.capUsd) before) →
      ∀ requestId, requestId ∈ (runLedger (newState creator.capUsd) history).entries →
        requestId ∈ (runLedger (newState creator.capUsd) before).entries := by
  constructor
  · exact ((capInvariant_newState creator).runLedger history bounded).within
  · rintro before after rfl overrun requestId member
    rw [runLedger_append] at member
    exact runLedger_after_overrun overrun after member

/-- A ledger opened with a cap of 25 USD. -/
def sampleLedger : AtomicCostLedger where
  capUsd := ⟨25, 0⟩
  capUsd_valid := by decide +kernel

theorem sampleFresh_valid :
    matchesReservationIdPattern "00000000000000000000000000000001" = true := by
  decide +kernel

def sampleFresh : FreshReservationId :=
  ⟨"00000000000000000000000000000001", sampleFresh_valid⟩

/-- The handle of a reservation of 10 USD. -/
def sampleReservation : CostReservation :=
  ⟨"request-1", sampleFresh.1, ⟨10, 0⟩⟩

def sampleReserve (now : Timestamp) : AtomicCostLedger × LedgerOperation :=
  (sampleLedger, .reserve "request-1" (.finite ⟨10, 0⟩) now sampleFresh)

def sampleReconcile (now : Timestamp) : AtomicCostLedger × LedgerOperation :=
  (sampleLedger, .reconcile sampleReservation (some (.finite ⟨725, -2⟩)) now)

theorem boundedAmount_of_decimal {number : Decimal} (places : -18 ≤ number.exponent)
    (digits : |number.value| < 10 ^ 12) : BoundedAmount number.value :=
  ⟨Decimal.onGrid_value places, digits⟩

theorem sampleRun_bounded :
    ∀ call ∈ [sampleReserve 0, sampleReconcile 1],
      BoundedAmount call.1.capUsd.value ∧ call.2.Bounded := by
  have cap : BoundedAmount (⟨25, 0⟩ : Decimal).value :=
    boundedAmount_of_decimal (by norm_num) (by norm_num [Decimal.value])
  have reserved : BoundedAmount (⟨10, 0⟩ : Decimal).value :=
    boundedAmount_of_decimal (by norm_num) (by norm_num [Decimal.value])
  have actual : BoundedAmount (⟨725, -2⟩ : Decimal).value :=
    boundedAmount_of_decimal (by norm_num) (by norm_num [Decimal.value, abs_of_pos])
  intro call member
  simp only [List.mem_cons, List.not_mem_nil, or_false] at member
  rcases member with rfl | rfl
  · exact ⟨cap, reserved⟩
  · refine ⟨cap, reserved, fun argument same => ?_⟩
    cases same
    exact actual

theorem ledger_cap_holds_sample :
    ¬ HasOverrun (runLedger (newState sampleLedger.capUsd) [sampleReserve 0, sampleReconcile 1]) ∧
    accountedTotal (runLedger (newState sampleLedger.capUsd)
        [sampleReserve 0, sampleReconcile 1]) +
      activeTotal (runLedger (newState sampleLedger.capUsd)
        [sampleReserve 0, sampleReconcile 1]) ≤ sampleLedger.capUsd.value := by
  have noOverrun : ¬ HasOverrun (runLedger (newState sampleLedger.capUsd)
      [sampleReserve 0, sampleReconcile 1]) := by
    decide +kernel
  exact ⟨noOverrun, (ledger_cap_holds sampleLedger _ sampleRun_bounded).1 noOverrun⟩

end CostLedger

end MmAudit
