import Mathlib

/-!
# Decimal floating-point arithmetic

A finite decimal number is an integer coefficient with a power-of-ten exponent.
Arithmetic is performed exactly and then fixed to a context: at most
`precision` significant digits are kept, rounding half to even, and no exponent
falls below `etiny`.  The central fact is that fixing never changes a value
which is a multiple of some power of ten with a short enough coefficient, so
sums of bounded amounts are exact whatever their representation.
-/

namespace MmAudit

/-- A finite decimal number `coefficient * 10 ^ exponent`. -/
structure Decimal where
  coefficient : ℤ
  exponent : ℤ
deriving DecidableEq, Repr

namespace Decimal

/-- The rational number a decimal stands for. -/
def value (number : Decimal) : ℚ :=
  number.coefficient * (10 : ℚ) ^ number.exponent

/-- The decimal number of an integer. -/
def ofInt (integer : ℤ) : Decimal :=
  ⟨integer, 0⟩

instance : Zero Decimal :=
  ⟨ofInt 0⟩

/-- The coefficient a number has when it is written at a smaller exponent. -/
def scaled (number : Decimal) (exponent : ℤ) : ℤ :=
  number.coefficient * 10 ^ (number.exponent - exponent).toNat

/-- Numeric comparison, which ignores how the two numbers are written. -/
def lessEqual (first second : Decimal) : Bool :=
  let exponent := min first.exponent second.exponent
  decide (first.scaled exponent ≤ second.scaled exponent)

instance : LE Decimal :=
  ⟨fun first second => first.lessEqual second = true⟩

instance : LT Decimal :=
  ⟨fun first second => ¬ second ≤ first⟩

instance (first second : Decimal) : Decidable (first ≤ second) :=
  inferInstanceAs (Decidable (first.lessEqual second = true))

instance (first second : Decimal) : Decidable (first < second) :=
  inferInstanceAs (Decidable (¬ second ≤ first))

/-- Numeric equality, which ignores how the two numbers are written. -/
def SameValue (first second : Decimal) : Prop :=
  first ≤ second ∧ second ≤ first

instance (first second : Decimal) : Decidable (first.SameValue second) :=
  inferInstanceAs (Decidable (_ ∧ _))

/-- The sum before any rounding. -/
def exactAdd (first second : Decimal) : Decimal :=
  let exponent := min first.exponent second.exponent
  ⟨first.scaled exponent + second.scaled exponent, exponent⟩

/-- The difference before any rounding. -/
def exactSub (first second : Decimal) : Decimal :=
  let exponent := min first.exponent second.exponent
  ⟨first.scaled exponent - second.scaled exponent, exponent⟩

/-! ## Values -/

theorem ten_ne_zero : (10 : ℚ) ≠ 0 := by
  norm_num

@[simp]
theorem value_ofInt (integer : ℤ) : (ofInt integer).value = integer := by
  simp [value, ofInt]

@[simp]
theorem value_zero : (0 : Decimal).value = 0 :=
  value_ofInt 0

theorem scaled_mul_zpow (number : Decimal) {exponent : ℤ}
    (below : exponent ≤ number.exponent) :
    (number.scaled exponent : ℚ) * (10 : ℚ) ^ exponent = number.value := by
  have gap : ((number.exponent - exponent).toNat : ℤ) = number.exponent - exponent :=
    Int.toNat_of_nonneg (by omega)
  simp only [scaled, value, Int.cast_mul, Int.cast_pow, Int.cast_ofNat]
  rw [← zpow_natCast, gap, mul_assoc, ← zpow_add₀ ten_ne_zero]
  congr 2
  omega

theorem le_iff_value_le (first second : Decimal) :
    first ≤ second ↔ first.value ≤ second.value := by
  have firstScaled := scaled_mul_zpow first (min_le_left first.exponent second.exponent)
  have secondScaled := scaled_mul_zpow second (min_le_right first.exponent second.exponent)
  have positive : (0 : ℚ) < 10 ^ min first.exponent second.exponent :=
    zpow_pos (by norm_num) _
  change first.lessEqual second = true ↔ _
  rw [lessEqual, decide_eq_true_iff, ← firstScaled, ← secondScaled,
    mul_le_mul_iff_of_pos_right positive]
  exact_mod_cast Iff.rfl

theorem lt_iff_value_lt (first second : Decimal) :
    first < second ↔ first.value < second.value := by
  change ¬ second ≤ first ↔ _
  rw [le_iff_value_le, not_le]

theorem sameValue_iff (first second : Decimal) :
    first.SameValue second ↔ first.value = second.value := by
  rw [SameValue, le_iff_value_le, le_iff_value_le]
  exact ⟨fun both => le_antisymm both.1 both.2, fun equal => ⟨equal.le, equal.ge⟩⟩

@[simp]
theorem value_exactAdd (first second : Decimal) :
    (exactAdd first second).value = first.value + second.value := by
  rw [← scaled_mul_zpow first (min_le_left first.exponent second.exponent),
    ← scaled_mul_zpow second (min_le_right first.exponent second.exponent), ← add_mul]
  simp [exactAdd, value]

@[simp]
theorem value_exactSub (first second : Decimal) :
    (exactSub first second).value = first.value - second.value := by
  rw [← scaled_mul_zpow first (min_le_left first.exponent second.exponent),
    ← scaled_mul_zpow second (min_le_right first.exponent second.exponent), ← sub_mul]
  simp [exactSub, value]

theorem value_nonneg_iff (number : Decimal) :
    0 ≤ number.value ↔ 0 ≤ number.coefficient := by
  have positive : (0 : ℚ) < 10 ^ number.exponent := zpow_pos (by norm_num) _
  rw [value, mul_nonneg_iff_of_pos_right positive]
  exact_mod_cast Iff.rfl

/-! ## Contexts and rounding -/

/-- How many significant digits a result keeps, and the least exponent it may
have. -/
structure Context where
  precision : ℕ
  etiny : ℤ
  precision_pos : 0 < precision

/-- The number of decimal digits of a coefficient; zero is written with one. -/
def numDigits (coefficient : ℕ) : ℕ :=
  Nat.log 10 coefficient + 1

/-- Drop the last `dropped` digits, rounding half to even. -/
def roundHalfEven (coefficient dropped : ℕ) : ℕ :=
  let quotient := coefficient / 10 ^ dropped
  let remainder := coefficient % 10 ^ dropped
  if 10 ^ dropped < 2 * remainder ∨ (2 * remainder = 10 ^ dropped ∧ quotient % 2 = 1) then
    quotient + 1
  else
    quotient

/-- Round a number into a context. -/
def Context.fix (context : Context) (number : Decimal) : Decimal :=
  let magnitude := number.coefficient.natAbs
  let minimum :=
    max (numDigits magnitude + number.exponent - context.precision) context.etiny
  if minimum ≤ number.exponent then
    number
  else
    let rounded := roundHalfEven magnitude (minimum - number.exponent).toNat
    -- Rounding 99...9 up carries into one digit too many.
    if context.precision < numDigits rounded then
      ⟨number.coefficient.sign * (rounded / 10 : ℕ), minimum + 1⟩
    else
      ⟨number.coefficient.sign * rounded, minimum⟩

/-- Move trailing zeros of the coefficient into the exponent, at most `fuel`
of them. -/
def stripZeros : ℕ → Decimal → Decimal
  | 0, number => number
  | fuel + 1, number =>
      if number.coefficient % 10 = 0 then
        stripZeros fuel ⟨number.coefficient / 10, number.exponent + 1⟩
      else
        number

/-- Round a number into a context and write it without trailing zeros. -/
def Context.normalize (context : Context) (number : Decimal) : Decimal :=
  let fixed := context.fix number
  if fixed.coefficient = 0 then
    0
  else
    stripZeros (numDigits fixed.coefficient.natAbs) fixed

/-- Context addition: the exact sum, then rounded. -/
def Context.add (context : Context) (first second : Decimal) : Decimal :=
  context.fix (exactAdd first second)

/-- Context subtraction: the exact difference, then rounded. -/
def Context.sub (context : Context) (first second : Decimal) : Decimal :=
  context.fix (exactSub first second)

/-- Left-to-right context sum starting from zero. -/
def Context.sum (context : Context) (numbers : List Decimal) : Decimal :=
  numbers.foldl context.add 0

/-- A rational which some decimal of the context writes without rounding. -/
def Context.Represents (context : Context) (number : ℚ) : Prop :=
  ∃ coefficient exponent : ℤ,
    number = coefficient * (10 : ℚ) ^ exponent ∧
      |coefficient| < 10 ^ context.precision ∧ context.etiny ≤ exponent

theorem numDigits_le_iff {coefficient digits : ℕ} (digitsPos : 0 < digits) :
    numDigits coefficient ≤ digits ↔ coefficient < 10 ^ digits := by
  by_cases isZero : coefficient = 0
  · subst isZero
    simp [numDigits]
    omega
  · rw [numDigits, Nat.succ_le_iff]
    exact Nat.log_lt_iff_lt_pow (by norm_num) isZero

theorem lt_pow_numDigits (coefficient : ℕ) :
    coefficient < 10 ^ numDigits coefficient :=
  (numDigits_le_iff (Nat.succ_pos _)).mp le_rfl

theorem roundHalfEven_of_dvd {coefficient dropped : ℕ}
    (divides : 10 ^ dropped ∣ coefficient) :
    roundHalfEven coefficient dropped = coefficient / 10 ^ dropped := by
  have remainderZero : coefficient % 10 ^ dropped = 0 :=
    Nat.mod_eq_zero_of_dvd divides
  have positive : 0 < 10 ^ dropped := by positivity
  simp only [roundHalfEven, remainderZero]
  rw [if_neg (by omega)]

/-- When a number is on a grid its context can write, the digits that fixing
drops are all zero. -/
theorem pow_dvd_of_represents {context : Context} {number : Decimal}
    (represented : context.Represents number.value)
    (short : number.exponent <
      max (numDigits number.coefficient.natAbs + number.exponent - context.precision)
        context.etiny) :
    10 ^ (max (numDigits number.coefficient.natAbs + number.exponent - context.precision)
        context.etiny - number.exponent).toNat ∣ number.coefficient.natAbs := by
  obtain ⟨coefficient, exponent, valueEq, small, tiny⟩ := represented
  have precisionPos := context.precision_pos
  have smallNat : coefficient.natAbs < 10 ^ context.precision := by
    have cast : ((coefficient.natAbs : ℕ) : ℤ) < ((10 ^ context.precision : ℕ) : ℤ) := by
      push_cast
      simpa using small
    exact_mod_cast cast
  by_cases finer : exponent ≤ number.exponent
  · -- The grid is finer than the number's own exponent: no digit is dropped.
    exfalso
    have scaledEq : number.scaled exponent = coefficient := by
      have scaled := scaled_mul_zpow number finer
      rw [valueEq] at scaled
      exact_mod_cast mul_right_cancel₀ (zpow_ne_zero exponent ten_ne_zero) scaled
    have magnitude : number.coefficient.natAbs ≤ coefficient.natAbs := by
      rw [← scaledEq, scaled, Int.natAbs_mul]
      exact Nat.le_mul_of_pos_right _ (Int.natAbs_pos.mpr (by positivity))
    have digits := (numDigits_le_iff precisionPos).mpr (lt_of_le_of_lt magnitude smallNat)
    omega
  · have gapEq : ((exponent - number.exponent).toNat : ℤ) = exponent - number.exponent :=
      Int.toNat_of_nonneg (by omega)
    have coefficientEq : number.coefficient.natAbs =
        coefficient.natAbs * 10 ^ (exponent - number.exponent).toNat := by
      have scaled := scaled_mul_zpow ⟨coefficient, exponent⟩
        (show number.exponent ≤ exponent by omega)
      rw [show (Decimal.mk coefficient exponent).value = number.value from valueEq.symm,
        value] at scaled
      have integers : (Decimal.mk coefficient exponent).scaled number.exponent =
          number.coefficient := by
        exact_mod_cast mul_right_cancel₀ (zpow_ne_zero number.exponent ten_ne_zero) scaled
      rw [← integers]
      simp [Decimal.scaled, Int.natAbs_mul, Int.natAbs_pow]
    by_cases isZero : coefficient.natAbs = 0
    · simp [coefficientEq, isZero]
    · have bound : number.coefficient.natAbs <
          10 ^ (context.precision + (exponent - number.exponent).toNat) := by
        rw [coefficientEq, pow_add]
        exact Nat.mul_lt_mul_of_pos_right smallNat (by positivity)
      have digits := (numDigits_le_iff (by omega)).mpr bound
      rw [coefficientEq]
      refine Dvd.dvd.mul_left (pow_dvd_pow 10 ?_) _
      rw [← coefficientEq]
      omega

/-- Fixing is exact on every value the context represents. -/
theorem value_fix_of_represents {context : Context} {number : Decimal}
    (represented : context.Represents number.value) :
    (context.fix number).value = number.value := by
  simp only [Context.fix]
  split
  · rfl
  · rename_i short
    rw [not_le] at short
    have divides := pow_dvd_of_represents represented short
    set minimum := max (numDigits number.coefficient.natAbs + number.exponent -
      context.precision) context.etiny with minimumDef
    set dropped := (minimum - number.exponent).toNat with droppedDef
    have droppedEq : (dropped : ℤ) = minimum - number.exponent :=
      Int.toNat_of_nonneg (by omega)
    rw [roundHalfEven_of_dvd divides]
    have quotientDigits :
        numDigits (number.coefficient.natAbs / 10 ^ dropped) ≤ context.precision := by
      rw [numDigits_le_iff context.precision_pos, Nat.div_lt_iff_lt_mul (by positivity),
        ← pow_add]
      refine lt_of_lt_of_le (lt_pow_numDigits _) (Nat.pow_le_pow_right (by norm_num) ?_)
      omega
    rw [if_neg (by omega)]
    have coefficientEq : number.coefficient.sign *
        (number.coefficient.natAbs / 10 ^ dropped : ℕ) * 10 ^ dropped = number.coefficient := by
      have quotient : ((number.coefficient.natAbs / 10 ^ dropped : ℕ) : ℤ) * 10 ^ dropped =
          number.coefficient.natAbs := by
        exact_mod_cast Nat.div_mul_cancel divides
      rw [mul_assoc, quotient, Int.sign_mul_natAbs]
    have rational : ((number.coefficient.sign *
        (number.coefficient.natAbs / 10 ^ dropped : ℕ) : ℤ) : ℚ) * (10 : ℚ) ^ dropped =
          number.coefficient := by
      exact_mod_cast coefficientEq
    have minimumEq : minimum = dropped + number.exponent := by omega
    simp only [value]
    rw [minimumEq, zpow_add₀ ten_ne_zero, ← mul_assoc, zpow_natCast, rational]

theorem value_add_of_represents {context : Context} {first second : Decimal}
    (represented : context.Represents (first.value + second.value)) :
    (context.add first second).value = first.value + second.value := by
  rw [Context.add, value_fix_of_represents (by simpa using represented), value_exactAdd]

theorem value_sub_of_represents {context : Context} {first second : Decimal}
    (represented : context.Represents (first.value - second.value)) :
    (context.sub first second).value = first.value - second.value := by
  rw [Context.sub, value_fix_of_represents (by simpa using represented), value_exactSub]

/-! ## Normal forms -/

theorem numDigits_mul_pow {coefficient : ℕ} (nonzero : coefficient ≠ 0) (zeros : ℕ) :
    numDigits (coefficient * 10 ^ zeros) = numDigits coefficient + zeros := by
  induction zeros with
  | zero => simp
  | succ zeros ih =>
      rw [numDigits] at ih ⊢
      rw [pow_succ, ← mul_assoc, Nat.log_mul_base (by norm_num) (by positivity)]
      omega

theorem roundHalfEven_mul_pow (coefficient dropped zeros : ℕ) :
    roundHalfEven (coefficient * 10 ^ zeros) (dropped + zeros) =
      roundHalfEven coefficient dropped := by
  have positive : 0 < 10 ^ zeros := by positivity
  simp only [roundHalfEven, pow_add, Nat.mul_div_mul_right _ _ positive,
    Nat.mul_mod_mul_right]
  have less : 10 ^ dropped * 10 ^ zeros < 2 * (coefficient % 10 ^ dropped * 10 ^ zeros) ↔
      10 ^ dropped < 2 * (coefficient % 10 ^ dropped) := by
    rw [← mul_assoc]
    exact Nat.mul_lt_mul_right positive
  have half : 2 * (coefficient % 10 ^ dropped * 10 ^ zeros) = 10 ^ dropped * 10 ^ zeros ↔
      2 * (coefficient % 10 ^ dropped) = 10 ^ dropped := by
    rw [← mul_assoc]
    exact Nat.mul_left_inj positive.ne'
  simp only [less, half]

theorem value_fix_append_zeros (context : Context) (number : Decimal) (zeros : ℕ) :
    (context.fix ⟨number.coefficient * 10 ^ zeros, number.exponent - zeros⟩).value =
      (context.fix number).value := by
  have sameValue : (Decimal.mk (number.coefficient * 10 ^ zeros)
      (number.exponent - zeros)).value = number.value := by
    simp only [value, Int.cast_mul, Int.cast_pow, Int.cast_ofNat]
    rw [mul_assoc, ← zpow_natCast, ← zpow_add₀ ten_ne_zero]
    congr 2
    omega
  by_cases isZero : number.coefficient = 0
  · have representsZero : context.Represents number.value :=
      ⟨0, context.etiny, by simp [value, isZero], by positivity, le_rfl⟩
    rw [value_fix_of_represents representsZero,
      value_fix_of_represents (by rw [sameValue]; exact representsZero), sameValue]
  · have magnitudeNonzero : number.coefficient.natAbs ≠ 0 := by simpa using isZero
    have magnitude : (number.coefficient * 10 ^ zeros).natAbs =
        number.coefficient.natAbs * 10 ^ zeros := by
      simp [Int.natAbs_mul, Int.natAbs_pow]
    have signEq : (number.coefficient * 10 ^ zeros).sign = number.coefficient.sign := by
      have positive : (0 : ℤ) < 10 ^ zeros := by positivity
      rw [Int.sign_mul, Int.sign_eq_one_of_pos positive, mul_one]
    -- Both forms are cut at the same exponent.
    have minimumEq : (numDigits (number.coefficient * 10 ^ zeros).natAbs : ℤ) +
        (number.exponent - zeros) - context.precision =
          numDigits number.coefficient.natAbs + number.exponent - context.precision := by
      rw [magnitude, numDigits_mul_pow magnitudeNonzero]
      push_cast
      ring
    by_cases wide : max ((numDigits number.coefficient.natAbs : ℤ) + number.exponent -
        context.precision) context.etiny ≤ number.exponent
    · have representsNumber : (context.fix number) = number := by
        simp only [Context.fix]
        rw [if_pos wide]
      rw [representsNumber, ← sameValue]
      by_cases stillWide : max ((numDigits number.coefficient.natAbs : ℤ) + number.exponent -
          context.precision) context.etiny ≤ number.exponent - zeros
      · simp only [Context.fix, minimumEq]
        rw [if_pos stillWide]
      · refine value_fix_of_represents ⟨number.coefficient, number.exponent, sameValue, ?_, ?_⟩
        · have digits := (numDigits_le_iff context.precision_pos).mp
            (show numDigits number.coefficient.natAbs ≤ context.precision by omega)
          rw [Int.abs_eq_natAbs]
          exact_mod_cast digits
        · omega
    · have narrow : ¬ max ((numDigits number.coefficient.natAbs : ℤ) + number.exponent -
          context.precision) context.etiny ≤ number.exponent - zeros := by omega
      simp only [Context.fix, minimumEq]
      rw [if_neg wide, if_neg narrow, magnitude, signEq]
      set minimum := max ((numDigits number.coefficient.natAbs : ℤ) + number.exponent -
        context.precision) context.etiny
      have droppedEq : (minimum - (number.exponent - zeros)).toNat =
          (minimum - number.exponent).toNat + zeros := by omega
      rw [droppedEq, roundHalfEven_mul_pow]

/-- The rounded value does not depend on how a number is written. -/
theorem value_fix_congr (context : Context) {first second : Decimal}
    (equal : first.value = second.value) :
    (context.fix first).value = (context.fix second).value := by
  wlog order : first.exponent ≤ second.exponent generalizing first second
  · exact (this equal.symm (by omega)).symm
  · have scaled := scaled_mul_zpow second order
    rw [← equal, value] at scaled
    have coefficientEq : second.scaled first.exponent = first.coefficient := by
      exact_mod_cast mul_right_cancel₀ (zpow_ne_zero first.exponent ten_ne_zero) scaled
    have shape : first = ⟨second.coefficient * 10 ^ (second.exponent - first.exponent).toNat,
        second.exponent - (second.exponent - first.exponent).toNat⟩ := by
      obtain ⟨coefficient, exponent⟩ := first
      simp only at coefficientEq order ⊢
      rw [← coefficientEq, Decimal.scaled]
      congr 1
      omega
    rw [shape, value_fix_append_zeros]

theorem value_stripZeros (fuel : ℕ) (number : Decimal) :
    (stripZeros fuel number).value = number.value := by
  induction fuel generalizing number with
  | zero => rfl
  | succ fuel ih =>
      rw [stripZeros]
      split
      · rename_i divides
        rw [ih]
        have quotient : number.coefficient / 10 * 10 = number.coefficient :=
          Int.ediv_mul_cancel (Int.dvd_of_emod_eq_zero divides)
        have rational : ((number.coefficient / 10 : ℤ) : ℚ) * 10 = number.coefficient := by
          exact_mod_cast quotient
        simp only [value]
        rw [zpow_add_one₀ ten_ne_zero, ← rational]
        ring
      · rfl

theorem stripZeros_coefficient (fuel : ℕ) (number : Decimal)
    (nonzero : number.coefficient ≠ 0) (bound : number.coefficient.natAbs < 10 ^ fuel) :
    (stripZeros fuel number).coefficient % 10 ≠ 0 := by
  induction fuel generalizing number with
  | zero =>
      simp at bound
      exact absurd bound nonzero
  | succ fuel ih =>
      rw [stripZeros]
      split
      · rename_i divides
        apply ih
        · simp only
          omega
        · simp only
          rw [pow_succ] at bound
          omega
      · rename_i notDivides
        exact notDivides

/-- A number without trailing zeros is determined by its value. -/
theorem eq_of_value_eq {first second : Decimal} (equal : first.value = second.value)
    (firstStripped : first.coefficient % 10 ≠ 0)
    (secondStripped : second.coefficient % 10 ≠ 0) : first = second := by
  wlog order : first.exponent ≤ second.exponent generalizing first second
  · exact (this equal.symm secondStripped firstStripped (by omega)).symm
  · have scaled := scaled_mul_zpow second order
    rw [← equal, value] at scaled
    have coefficientEq : second.scaled first.exponent = first.coefficient := by
      exact_mod_cast mul_right_cancel₀ (zpow_ne_zero first.exponent ten_ne_zero) scaled
    obtain ⟨gap, gapEq⟩ : ∃ gap : ℕ, (second.exponent - first.exponent).toNat = gap := ⟨_, rfl⟩
    rw [Decimal.scaled, gapEq] at coefficientEq
    cases gap with
    | zero =>
        obtain ⟨firstCoefficient, firstExponent⟩ := first
        obtain ⟨secondCoefficient, secondExponent⟩ := second
        simp only [pow_zero, mul_one] at coefficientEq gapEq order ⊢
        rw [Decimal.mk.injEq]
        exact ⟨coefficientEq.symm, by omega⟩
    | succ gap =>
        exfalso
        rw [pow_succ, ← mul_assoc] at coefficientEq
        omega

/-- The normal form depends only on the value of a number. -/
theorem normalize_congr (context : Context) {first second : Decimal}
    (equal : first.value = second.value) :
    context.normalize first = context.normalize second := by
  have fixedEq := value_fix_congr context equal
  have zeroIff : (context.fix first).coefficient = 0 ↔ (context.fix second).coefficient = 0 := by
    have asValue : ∀ number : Decimal, number.coefficient = 0 ↔ number.value = 0 := by
      intro number
      simp [value, zpow_ne_zero]
    rw [asValue, asValue, fixedEq]
  simp only [Context.normalize, zeroIff]
  split
  · rfl
  · rename_i secondNonzero
    have firstNonzero := zeroIff.not.mpr secondNonzero
    apply eq_of_value_eq
    · rw [value_stripZeros, value_stripZeros, fixedEq]
    · exact stripZeros_coefficient _ _ firstNonzero (lt_pow_numDigits _)
    · exact stripZeros_coefficient _ _ secondNonzero (lt_pow_numDigits _)

/-! ## Amounts on a common grid -/

/-- A rational that is an integer multiple of a power of ten. -/
def OnGrid (exponent : ℤ) (number : ℚ) : Prop :=
  ∃ units : ℤ, number = units * (10 : ℚ) ^ exponent

theorem onGrid_zero (exponent : ℤ) : OnGrid exponent 0 :=
  ⟨0, by simp⟩

theorem OnGrid.add {exponent : ℤ} {first second : ℚ}
    (firstGrid : OnGrid exponent first) (secondGrid : OnGrid exponent second) :
    OnGrid exponent (first + second) := by
  obtain ⟨firstUnits, rfl⟩ := firstGrid
  obtain ⟨secondUnits, rfl⟩ := secondGrid
  exact ⟨firstUnits + secondUnits, by push_cast; ring⟩

theorem OnGrid.sub {exponent : ℤ} {first second : ℚ}
    (firstGrid : OnGrid exponent first) (secondGrid : OnGrid exponent second) :
    OnGrid exponent (first - second) := by
  obtain ⟨firstUnits, rfl⟩ := firstGrid
  obtain ⟨secondUnits, rfl⟩ := secondGrid
  exact ⟨firstUnits - secondUnits, by push_cast; ring⟩

theorem onGrid_value {exponent : ℤ} {number : Decimal}
    (below : exponent ≤ number.exponent) : OnGrid exponent number.value :=
  ⟨number.scaled exponent, (scaled_mul_zpow number below).symm⟩

/-- A bounded amount on a grid is written by the context without rounding. -/
theorem Context.represents_of_onGrid {context : Context} {exponent : ℤ} {number : ℚ}
    (grid : OnGrid exponent number) (tiny : context.etiny ≤ exponent)
    (bound : |number| < (10 : ℚ) ^ (context.precision + exponent)) :
    context.Represents number := by
  obtain ⟨units, rfl⟩ := grid
  refine ⟨units, exponent, rfl, ?_, tiny⟩
  have positive : (0 : ℚ) < 10 ^ exponent := zpow_pos (by norm_num) _
  rw [abs_mul, abs_of_pos positive, zpow_add₀ ten_ne_zero,
    mul_lt_mul_iff_of_pos_right positive, zpow_natCast] at bound
  exact_mod_cast bound

/-- A running sum of non-negative grid amounts is exact while the total stays
within the context's precision. -/
theorem value_foldl_add {context : Context} {exponent : ℤ}
    (tiny : context.etiny ≤ exponent) (numbers : List Decimal) (start : Decimal)
    (startGrid : OnGrid exponent start.value) (startNonneg : 0 ≤ start.value)
    (grid : ∀ number ∈ numbers, OnGrid exponent number.value)
    (nonneg : ∀ number ∈ numbers, 0 ≤ number.value)
    (bound : start.value + (numbers.map value).sum <
      (10 : ℚ) ^ (context.precision + exponent)) :
    (numbers.foldl context.add start).value = start.value + (numbers.map value).sum := by
  induction numbers generalizing start with
  | nil => simp
  | cons number numbers ih =>
      have numberNonneg := nonneg number (by simp)
      have restNonneg : 0 ≤ (numbers.map value).sum := by
        refine List.sum_nonneg fun amount member => ?_
        obtain ⟨entry, entryMem, rfl⟩ := List.mem_map.mp member
        exact nonneg entry (by simp [entryMem])
      simp only [List.map_cons, List.sum_cons] at bound
      have sumGrid := startGrid.add (grid number (by simp))
      have stepExact : (context.add start number).value = start.value + number.value := by
        refine value_add_of_represents (context.represents_of_onGrid sumGrid tiny ?_)
        rw [abs_of_nonneg (add_nonneg startNonneg numberNonneg)]
        linarith
      rw [List.foldl_cons, ih]
      · rw [stepExact, List.map_cons, List.sum_cons, add_assoc]
      · rw [stepExact]
        exact sumGrid
      · rw [stepExact]
        exact add_nonneg startNonneg numberNonneg
      · exact fun entry member => grid entry (by simp [member])
      · exact fun entry member => nonneg entry (by simp [member])
      · rw [stepExact]
        linarith

theorem value_sum {context : Context} {exponent : ℤ}
    (tiny : context.etiny ≤ exponent) (numbers : List Decimal)
    (grid : ∀ number ∈ numbers, OnGrid exponent number.value)
    (nonneg : ∀ number ∈ numbers, 0 ≤ number.value)
    (bound : (numbers.map value).sum < (10 : ℚ) ^ (context.precision + exponent)) :
    (context.sum numbers).value = (numbers.map value).sum := by
  have exact := value_foldl_add tiny numbers 0 (by simpa using onGrid_zero exponent)
    (by simp) grid nonneg (by simpa using bound)
  simpa [Context.sum] using exact

end Decimal

end MmAudit
