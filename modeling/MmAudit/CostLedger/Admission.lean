import MmAudit.CostLedger.Cap
import MmAudit.Library.DecimalRounding

/-!
# Which amounts the ledger admits

The bounds of an amount are checked on its normal form, which keeps 28 digits, and the amount
itself is stored.  An amount with more digits is judged by its rounded form: just below a
million million it is rejected although it has the allowed digits, and close to a multiple of
the smallest unit it is accepted although it has too many.
-/

namespace MmAudit

namespace CostLedger

open Decimal (OnGrid)

/-- The sign that a call asks for, and the digits that the ledger supports. -/
def Admissible (positive : Bool) (amount : ℚ) : Prop :=
  (if positive then 0 < amount else 0 ≤ amount) ∧ BoundedAmount amount

def Accepts (number : Decimal) (field : String) (positive : Bool) : Prop :=
  ∃ amount, validateMoney (.finite number) field positive = .ok amount

/-- Exactly the admissible amounts are accepted, and returned unchanged. -/
structure AdmittedExactly (number : Decimal) (field : String) (positive : Bool) : Prop where
  accepts_iff : Accepts number field positive ↔ Admissible positive number.value
  unchanged : ∀ amount, validateMoney (.finite number) field positive = .ok amount →
    amount.value = number.value

/-- An amount of supported digits that 28 digits round up to a million million. -/
def RoundsOut (number : Decimal) : Prop :=
  OnGrid (-18) number.value ∧ 10 ^ 12 - 5 / 10 ^ 17 ≤ number.value ∧ number.value < 10 ^ 12

/-- An amount with too many decimal places, of which the nearest amount of 28 digits is
supported. -/
def RoundsIn (number : Decimal) : Prop :=
  ¬ OnGrid (-18) number.value ∧ number.value < 10 ^ 12 - 5 / 10 ^ 17 ∧
    ∃ point : ℤ, |number.value - point / 10 ^ 18| ≤ 10 ^ defaultContext.lastPlace number / 2

theorem withinDecimalBounds_iff (number : Decimal) :
    withinDecimalBounds number = true ↔
      (∃ point : ℤ, |number.value - point / 10 ^ 18| ≤
        10 ^ defaultContext.lastPlace number / 2) ∧
      |number.value| < 10 ^ 12 - 5 / 10 ^ 17 := by
  obtain ⟨units, rounding⟩ := Decimal.isRounding_fix defaultContext number
  have places : max 0 (-(defaultContext.normalize number).exponent) ≤ maxDecimalPlaces ↔ _ :=
    (Decimal.decimalPlaces_normalize_le_iff defaultContext number (by decide)).trans
      rounding.onGrid_iff
  have digits : max 1 ((Decimal.numDigits
      (defaultContext.normalize number).coefficient.natAbs : ℤ) +
        (defaultContext.normalize number).exponent) ≤ maxIntegerDigits ↔ _ :=
    (Decimal.integerDigits_normalize_le_iff defaultContext number (by decide)).trans
      (Decimal.abs_fix_lt_iff (by decide) number)
  have quantum : ∀ point : ℤ, (point : ℚ) * 10 ^ (-maxDecimalPlaces) = point / 10 ^ 18 := by
    intro point
    rw [maxDecimalPlaces, zpow_neg, div_eq_mul_inv]
    rfl
  have limit : (10 : ℚ) ^ maxIntegerDigits - 10 ^ (maxIntegerDigits - defaultContext.precision) / 2 =
      10 ^ 12 - 5 / 10 ^ 17 := by
    rw [maxIntegerDigits]
    norm_num [defaultContext]
  simp only [quantum] at places
  rw [limit] at digits
  rw [withinDecimalBounds, Bool.and_eq_true, decide_eq_true_iff, decide_eq_true_iff, places, digits]

theorem accepts_iff (number : Decimal) (field : String) (positive : Bool) :
    Accepts number field positive ↔
      (if positive then 0 < number.value else 0 ≤ number.value) ∧
        withinDecimalBounds number = true := by
  constructor
  · rintro ⟨amount, accepted⟩
    exact (money_of_validateMoney accepted).congr (value_of_validateMoney accepted)
  · intro money
    have fits : Money positive number := money
    obtain ⟨amount, accepted, -⟩ := exists_validateMoney fits field
    exact ⟨amount, accepted⟩

theorem boundedAmount_iff {amount : ℚ} (nonneg : 0 ≤ amount) :
    BoundedAmount amount ↔ OnGrid (-18) amount ∧ amount < 10 ^ 12 := by
  rw [BoundedAmount, abs_of_nonneg nonneg]

theorem OnGrid.exists_point {amount : ℚ} (grid : OnGrid (-18) amount) (place : ℤ) :
    ∃ point : ℤ, |amount - point / 10 ^ 18| ≤ 10 ^ place / 2 := by
  obtain ⟨point, rfl⟩ := grid
  refine ⟨point, ?_⟩
  rw [zpow_neg, ← div_eq_mul_inv, zpow_ofNat, sub_self, abs_zero]
  exact (half_pos (Decimal.zpow_ten_pos place)).le

/-- The check of the bounds agrees with the bounds unless rounding crosses them. -/
theorem withinDecimalBounds_iff_boundedAmount {number : Decimal} (nonneg : 0 ≤ number.value) :
    (withinDecimalBounds number = true ↔ BoundedAmount number.value) ↔
      ¬ RoundsOut number ∧ ¬ RoundsIn number := by
  rw [withinDecimalBounds_iff, boundedAmount_iff nonneg, abs_of_nonneg nonneg, RoundsOut, RoundsIn]
  by_cases grid : OnGrid (-18) number.value
  · have point := OnGrid.exists_point grid (defaultContext.lastPlace number)
    have below : number.value < 10 ^ 12 - 5 / 10 ^ 17 → number.value < 10 ^ 12 := fun less =>
      less.trans (by norm_num)
    simp only [grid, point, true_and, not_true_eq_false, false_and, not_false_eq_true, and_true,
      not_and, not_lt]
    constructor
    · intro agree least
      by_contra less
      exact absurd (agree.mpr (not_le.mp less)) (not_lt.mpr least)
    · intro apart
      refine ⟨below, fun less => ?_⟩
      by_contra least
      exact absurd less (not_lt.mpr (apart (not_lt.mp least)))
  · simp only [grid, false_and, not_false_eq_true, true_and, iff_false]
    rw [and_comm]

theorem admittedExactly_iff (number : Decimal) (field : String) (positive : Bool) :
    AdmittedExactly number field positive ↔
      ((if positive then 0 < number.value else 0 ≤ number.value) →
        ¬ RoundsOut number ∧ ¬ RoundsIn number) := by
  have unchanged : ∀ amount, validateMoney (.finite number) field positive = .ok amount →
      amount.value = number.value := fun _ => value_of_validateMoney
  have signNonneg : (if positive then 0 < number.value else 0 ≤ number.value) →
      0 ≤ number.value := by
    cases positive with
    | false => exact id
    | true => exact le_of_lt
  have reduced : AdmittedExactly number field positive ↔
      (Accepts number field positive ↔ Admissible positive number.value) :=
    ⟨fun exactly => exactly.accepts_iff, fun agree => ⟨agree, unchanged⟩⟩
  rw [reduced, accepts_iff, Admissible, and_congr_right_iff]
  exact forall_congr' fun sign => withinDecimalBounds_iff_boundedAmount (signNonneg sign)

/-! ## Sums of admitted amounts -/

/-- Both amounts of an entry are accepted, and neither is let in by rounding. -/
structure AcceptedEntry (entry : CostEntry) : Prop where
  accounted : ∃ field, Accepts entry.accountedCostUsd field false
  reserved : ∃ field, Accepts entry.reservedUsd field true
  accountedDigits : ¬ RoundsIn entry.accountedCostUsd
  reservedDigits : ¬ RoundsIn entry.reservedUsd

/-- An amount that is not let in by rounding is accepted only within its bounds. -/
theorem boundedAmount_of_accepts {number : Decimal} {field : String} {positive : Bool}
    (accepted : Accepts number field positive) (digits : ¬ RoundsIn number) :
    0 ≤ number.value ∧ BoundedAmount number.value := by
  obtain ⟨sign, within⟩ := (accepts_iff _ _ _).mp accepted
  have nonneg : 0 ≤ number.value := by
    cases positive with
    | false => exact sign
    | true => exact le_of_lt sign
  obtain ⟨point, small⟩ := (withinDecimalBounds_iff number).mp within
  rw [abs_of_nonneg nonneg] at small
  refine ⟨nonneg, (boundedAmount_iff nonneg).mpr ⟨?_, small.trans (by norm_num)⟩⟩
  by_contra fine
  exact digits ⟨fine, small, point⟩

/-- A 64-digit sum of bounded amounts is exact. -/
theorem value_sum_of_bounded (numbers : List Decimal) (few : numbers.length ≤ 10 ^ 30)
    (bounded : ∀ number ∈ numbers, 0 ≤ number.value ∧ BoundedAmount number.value) :
    (snapshotContext.sum numbers).value = (numbers.map Decimal.value).sum := by
  refine Decimal.value_sum snapshotContext_tiny numbers
    (fun number member => (bounded number member).2.1)
    (fun number member => (bounded number member).1) ?_
  have total : (numbers.map Decimal.value).sum ≤ numbers.length * 10 ^ 12 := by
    have each := List.sum_le_card_nsmul (numbers.map Decimal.value) (10 ^ 12) (by
      intro amount member
      obtain ⟨number, numberMem, rfl⟩ := List.mem_map.mp member
      exact (le_abs_self _).trans (bounded number numberMem).2.2.le)
    rwa [List.length_map, nsmul_eq_mul] at each
  have count : (numbers.length : ℚ) ≤ 10 ^ 30 := by exact_mod_cast few
  have room : (10 : ℚ) ^ 30 * 10 ^ 12 < 10 ^ ((snapshotContext.precision : ℤ) + -18) := by
    norm_num [snapshotContext, zpow_ofNat]
  nlinarith

/-- The sums of a snapshot are those of its entries. -/
structure SumsExactly (cap : Decimal) (entries : Dict String CostEntry) : Prop where
  spent : (snapshotOf cap entries).spentUsd.value =
    (entries.values.map fun entry => entry.accountedCostUsd.value).sum
  reserved : (snapshotOf cap entries).activeReservedUsd.value =
    ((entries.values.filter fun entry => entry.status = .reserved).map
      fun entry => entry.reservedUsd.value).sum

theorem sumsExactly_of_accepted (cap : Decimal) {entries : Dict String CostEntry}
    (few : entries.values.length ≤ 10 ^ 30)
    (accepted : ∀ entry ∈ entries.values, AcceptedEntry entry) : SumsExactly cap entries where
  spent := by
    have sum := value_sum_of_bounded (entries.values.map CostEntry.accountedCostUsd)
      (by rwa [List.length_map]) fun number member => by
        obtain ⟨entry, entryMem, rfl⟩ := List.mem_map.mp member
        obtain ⟨field, accounted⟩ := (accepted entry entryMem).accounted
        exact boundedAmount_of_accepts accounted (accepted entry entryMem).accountedDigits
    rw [List.map_map] at sum
    exact sum
  reserved := by
    have sum := value_sum_of_bounded ((entries.values.filter fun entry =>
        entry.status = .reserved).map CostEntry.reservedUsd)
      (by
        rw [List.length_map]
        exact (List.length_filter_le _ _).trans few)
      fun number member => by
        obtain ⟨entry, entryMem, rfl⟩ := List.mem_map.mp member
        have stored := List.mem_of_mem_filter entryMem
        obtain ⟨field, reserved⟩ := (accepted entry stored).reserved
        exact boundedAmount_of_accepts reserved (accepted entry stored).reservedDigits
    rw [List.map_map] at sum
    exact sum

/-- An amount is admitted exactly by its digits unless rounding to 28 digits crosses a bound;
amounts that rounding did not let in have exact sums. -/
theorem exact_admission (number : Decimal) (field : String) (positive : Bool) (cap : Decimal)
    (entries : Dict String CostEntry) :
    (AdmittedExactly number field positive ↔
      ((if positive then 0 < number.value else 0 ≤ number.value) →
        ¬ RoundsOut number ∧ ¬ RoundsIn number)) ∧
    (entries.values.length ≤ 10 ^ 30 → (∀ entry ∈ entries.values, AcceptedEntry entry) →
      SumsExactly cap entries) :=
  ⟨admittedExactly_iff number field positive, sumsExactly_of_accepted cap⟩

/-! ## Amounts at the bounds -/

/-- 999999999999.99999999999999995 has twelve integer digits and seventeen decimal places. -/
def edgeAmount : Decimal :=
  ⟨99999999999999999999999999995, -17⟩

/-- 1 with a one at the fortieth decimal place. -/
def fineAmount : Decimal :=
  ⟨10 ^ 40 + 1, -40⟩

theorem not_accepts_edgeAmount : ¬ Accepts edgeAmount "reserved_usd" true := by
  rintro ⟨amount, accepted⟩
  have rejected : (validateMoney (.finite edgeAmount) "reserved_usd" true).toOption = none := by
    decide
  rw [accepted] at rejected
  cases rejected

theorem accepts_fineAmount : Accepts fineAmount "reserved_usd" true :=
  ⟨fineAmount, by decide⟩

theorem admissible_edgeAmount : Admissible true edgeAmount.value := by
  refine ⟨?_, Decimal.onGrid_value (by decide), ?_⟩ <;>
    norm_num [edgeAmount, Decimal.value, zpow_neg]

theorem not_admissible_fineAmount : ¬ Admissible true fineAmount.value := by
  rintro ⟨-, grid, -⟩
  have stripped : fineAmount.coefficient % 10 ≠ 0 := by decide
  exact absurd ((Decimal.onGrid_iff_le_exponent stripped (-18)).mp grid) (by decide)

/-- A supported amount is rejected, and one with forty decimal places is accepted. -/
theorem rounding_moves_amounts_across :
    (¬ Accepts edgeAmount "reserved_usd" true ∧ Admissible true edgeAmount.value) ∧
      (Accepts fineAmount "reserved_usd" true ∧ ¬ Admissible true fineAmount.value) ∧
      ¬ ∀ (number : Decimal) (field : String) (positive : Bool),
        AdmittedExactly number field positive :=
  ⟨⟨not_accepts_edgeAmount, admissible_edgeAmount⟩,
    ⟨accepts_fineAmount, not_admissible_fineAmount⟩,
    fun always => not_accepts_edgeAmount
      ((always edgeAmount "reserved_usd" true).accepts_iff.mpr admissible_edgeAmount)⟩

/-- A reserved entry of one half. -/
def halfEntry : CostEntry where
  requestId := "request-1"
  reservationId := "0123456789abcdef0123456789abcdef"
  status := .reserved
  reservedUsd := ⟨5, -1⟩
  actualCostUsd := none
  accountedCostUsd := 0
  releaseReason := none
  createdAt := 0
  updatedAt := 0

theorem halfEntry_accepted : AcceptedEntry halfEntry where
  accounted := ⟨"accounted_cost_usd", 0, by decide⟩
  reserved := ⟨"reserved_usd", ⟨5, -1⟩, by decide⟩
  accountedDigits := fun into => into.1 (by
    rw [halfEntry, Decimal.value_zero]
    exact Decimal.onGrid_zero _)
  reservedDigits := fun into => into.1 (Decimal.onGrid_value (by decide))

theorem exact_admission_sample :
    AdmittedExactly ⟨5, -1⟩ "reserved_usd" true ∧
      SumsExactly ⟨25, 0⟩ (Dict.empty.insert "request-1" halfEntry) := by
  constructor
  · refine (exact_admission ⟨5, -1⟩ "reserved_usd" true 0 Dict.empty).1.mpr fun _ => ⟨?_, ?_⟩
    · rintro ⟨-, least, -⟩
      norm_num [Decimal.value, zpow_neg] at least
    · exact fun into => into.1 (Decimal.onGrid_value (by decide))
  · refine (exact_admission 0 "" true _ _).2 (by decide +kernel) fun entry member => ?_
    obtain rfl : entry = halfEntry := List.mem_singleton.mp member
    exact halfEntry_accepted

end CostLedger

end MmAudit
