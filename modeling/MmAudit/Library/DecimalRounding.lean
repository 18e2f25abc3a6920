import MmAudit.Library.Decimal

/-!
# What rounding does to a value

Fixing a number to a context rounds its value half to even at the last decimal place that the
context keeps.  Everything else about rounded values follows from this: when a rounded value is
a multiple of a power of ten, when it stays below a power of ten, and what its normal form shows
of it.
-/

namespace MmAudit

namespace Decimal

/-- Half-even rounding to a multiple of a unit. -/
structure IsRounding (exact unit rounded : ℚ) (units : ℤ) : Prop where
  multiple : rounded = units * unit
  near : |exact - units * unit| ≤ unit / 2
  tie : |exact - units * unit| = unit / 2 → Even units

/-- The exponent of the last digit that a context keeps of a number. -/
def Context.lastPlace (context : Context) (number : Decimal) : ℤ :=
  max (numDigits number.coefficient.natAbs + number.exponent - context.precision) context.etiny

theorem zpow_ten_pos (exponent : ℤ) : (0 : ℚ) < 10 ^ exponent :=
  zpow_pos (by norm_num) exponent

/-! ## Rounding is half to even -/

theorem roundHalfEven_near (coefficient dropped : ℕ) :
    2 * coefficient ≤ 2 * (roundHalfEven coefficient dropped * 10 ^ dropped) + 10 ^ dropped ∧
      2 * (roundHalfEven coefficient dropped * 10 ^ dropped) ≤ 2 * coefficient + 10 ^ dropped := by
  have positive : 0 < 10 ^ dropped := by positivity
  have division := Nat.div_add_mod' coefficient (10 ^ dropped)
  have small := Nat.mod_lt coefficient positive
  simp only [roundHalfEven]
  split
  · rw [add_mul, one_mul]
    omega
  · omega

theorem roundHalfEven_of_tie {coefficient dropped : ℕ}
    (tie : 2 * coefficient = 2 * (roundHalfEven coefficient dropped * 10 ^ dropped) +
        10 ^ dropped ∨
      2 * coefficient + 10 ^ dropped = 2 * (roundHalfEven coefficient dropped * 10 ^ dropped)) :
    Even (roundHalfEven coefficient dropped) := by
  have positive : 0 < 10 ^ dropped := by positivity
  have division := Nat.div_add_mod' coefficient (10 ^ dropped)
  have small := Nat.mod_lt coefficient positive
  rw [Nat.even_iff]
  revert tie
  simp only [roundHalfEven]
  split
  · rw [add_mul, one_mul]
    omega
  · omega

theorem roundHalfEven_le_pow {coefficient dropped precision : ℕ}
    (digits : numDigits coefficient ≤ precision + dropped) :
    roundHalfEven coefficient dropped ≤ 10 ^ precision := by
  have small : coefficient < 10 ^ precision * 10 ^ dropped := by
    rw [← pow_add]
    exact lt_of_lt_of_le (lt_pow_numDigits coefficient) (Nat.pow_le_pow_right (by norm_num) digits)
  have near := (roundHalfEven_near coefficient dropped).2
  have positive : 0 < 10 ^ dropped := by positivity
  by_contra more
  have least : (10 ^ precision + 1) * 10 ^ dropped ≤
      roundHalfEven coefficient dropped * 10 ^ dropped :=
    Nat.mul_le_mul_right _ (not_le.mp more)
  rw [add_mul, one_mul] at least
  omega

/-- Where fixing drops digits, the rounded digits stand at the last kept place. -/
theorem value_fix_of_short {context : Context} {number : Decimal}
    (short : number.exponent < context.lastPlace number) :
    (context.fix number).value = ((number.coefficient.sign *
      roundHalfEven number.coefficient.natAbs
        (context.lastPlace number - number.exponent).toNat : ℤ) : ℚ) *
          10 ^ context.lastPlace number := by
  set rounded := roundHalfEven number.coefficient.natAbs
    (context.lastPlace number - number.exponent).toNat with roundedDef
  have wide : context.fix number =
      if context.precision < numDigits rounded then
        ⟨number.coefficient.sign * (rounded / 10 : ℕ), context.lastPlace number + 1⟩
      else ⟨number.coefficient.sign * rounded, context.lastPlace number⟩ :=
    if_neg (not_le.mpr short)
  rw [wide]
  split
  · rename_i carried
    -- A carry leaves a power of ten.
    have bound : rounded ≤ 10 ^ context.precision := roundHalfEven_le_pow (by
      have digits := le_max_left ((numDigits number.coefficient.natAbs : ℤ) + number.exponent -
        context.precision) context.etiny
      rw [← Context.lastPlace] at digits
      omega)
    have large : 10 ^ context.precision ≤ rounded := by
      by_contra less
      exact absurd ((numDigits_le_iff context.precision_pos).mpr (not_le.mp less))
        (not_le.mpr carried)
    have divides : rounded / 10 * 10 = rounded := by
      rw [le_antisymm bound large]
      exact Nat.div_mul_cancel (dvd_pow_self 10 context.precision_pos.ne')
    have rational : ((rounded / 10 : ℕ) : ℚ) * 10 = rounded := by exact_mod_cast divides
    simp only [value, Int.cast_mul, Int.cast_natCast]
    rw [zpow_add_one₀ ten_ne_zero, ← rational]
    ring
  · simp [value]

theorem abs_sub_sign_mul {coefficient : ℤ} {magnitude : ℕ}
    (zeroKept : coefficient = 0 → magnitude = 0) :
    |(coefficient : ℚ) - ((coefficient.sign * magnitude : ℤ) : ℚ)| =
      |((coefficient.natAbs : ℕ) : ℚ) - magnitude| := by
  rw [Nat.cast_natAbs, Int.cast_abs]
  rcases lt_trichotomy coefficient 0 with negative | zero | positive
  · have below : (coefficient : ℚ) < 0 := by exact_mod_cast negative
    rw [abs_of_neg below, Int.sign_eq_neg_one_of_neg negative, ← abs_neg]
    congr 1
    push_cast
    ring
  · simp [zero, zeroKept zero]
  · have above : (0 : ℚ) < coefficient := by exact_mod_cast positive
    rw [abs_of_pos above, Int.sign_eq_one_of_pos positive]
    simp

theorem roundHalfEven_zero (dropped : ℕ) : roundHalfEven 0 dropped = 0 := by
  simp [roundHalfEven]

theorem abs_sub_roundHalfEven (coefficient dropped : ℕ) :
    |(coefficient : ℚ) - (roundHalfEven coefficient dropped * 10 ^ dropped : ℕ)| ≤
      10 ^ dropped / 2 := by
  obtain ⟨below, above⟩ := roundHalfEven_near coefficient dropped
  have belowRational : (2 : ℚ) * coefficient ≤
      2 * (roundHalfEven coefficient dropped * 10 ^ dropped : ℕ) + 10 ^ dropped := by
    exact_mod_cast below
  have aboveRational : 2 * ((roundHalfEven coefficient dropped * 10 ^ dropped : ℕ) : ℚ) ≤
      2 * coefficient + 10 ^ dropped := by
    exact_mod_cast above
  rw [abs_le]
  constructor <;> linarith

theorem even_of_abs_sub_roundHalfEven {coefficient dropped : ℕ}
    (tie : |(coefficient : ℚ) - (roundHalfEven coefficient dropped * 10 ^ dropped : ℕ)| =
      10 ^ dropped / 2) : Even (roundHalfEven coefficient dropped) := by
  apply roundHalfEven_of_tie
  rcases (abs_eq (by positivity)).mp tie with above | below
  · left
    have doubled : (2 : ℚ) * coefficient =
        2 * (roundHalfEven coefficient dropped * 10 ^ dropped : ℕ) + 10 ^ dropped := by
      linarith
    exact_mod_cast doubled
  · right
    have doubled : (2 : ℚ) * coefficient + 10 ^ dropped =
        2 * (roundHalfEven coefficient dropped * 10 ^ dropped : ℕ) := by
      linarith
    exact_mod_cast doubled

/-- Fixing rounds half to even at the last kept place. -/
theorem isRounding_fix (context : Context) (number : Decimal) :
    ∃ units, IsRounding number.value (10 ^ context.lastPlace number)
      (context.fix number).value units := by
  have positive := zpow_ten_pos (context.lastPlace number)
  rcases le_or_gt (context.lastPlace number) number.exponent with long | short
  · -- No digit is dropped.
    have kept : context.fix number = number := if_pos long
    refine ⟨number.scaled (context.lastPlace number), ?_, ?_, ?_⟩
    · rw [kept, scaled_mul_zpow number long]
    · rw [scaled_mul_zpow number long, sub_self, abs_zero]
      positivity
    · rw [scaled_mul_zpow number long, sub_self, abs_zero]
      intro none
      linarith
  · set dropped := (context.lastPlace number - number.exponent).toNat with droppedDef
    set rounded := roundHalfEven number.coefficient.natAbs dropped with roundedDef
    have gap : (dropped : ℤ) = context.lastPlace number - number.exponent :=
      Int.toNat_of_nonneg (by omega)
    have unitEq : (10 : ℚ) ^ context.lastPlace number = 10 ^ dropped * 10 ^ number.exponent := by
      rw [← zpow_natCast, ← zpow_add₀ ten_ne_zero, gap]
      congr 1
      omega
    have distance : |number.value - ((number.coefficient.sign * rounded : ℤ) : ℚ) *
        10 ^ context.lastPlace number| =
          |(number.coefficient.natAbs : ℚ) - (rounded * 10 ^ dropped : ℕ)| *
            10 ^ number.exponent := by
      have scaledDistance : |(number.coefficient : ℚ) -
          ((number.coefficient.sign * (rounded * 10 ^ dropped : ℕ) : ℤ) : ℚ)| =
            |(number.coefficient.natAbs : ℚ) - (rounded * 10 ^ dropped : ℕ)| :=
        abs_sub_sign_mul fun zero => by
          rw [roundedDef, zero, Int.natAbs_zero, roundHalfEven_zero, zero_mul]
      rw [← scaledDistance, ← abs_of_pos (zpow_ten_pos number.exponent), ← abs_mul, unitEq,
        value]
      congr 1
      push_cast
      ring
    refine ⟨number.coefficient.sign * rounded, value_fix_of_short short, ?_, ?_⟩
    · rw [distance, unitEq, mul_div_right_comm]
      exact mul_le_mul_of_nonneg_right (abs_sub_roundHalfEven _ _) (zpow_ten_pos _).le
    · rw [distance, unitEq, mul_div_right_comm]
      intro tie
      have even := even_of_abs_sub_roundHalfEven (mul_right_cancel₀ (zpow_ten_pos _).ne' tie)
      exact ((Int.even_coe_nat rounded).mpr even).mul_left _

/-! ## Rounded values on a grid -/

theorem even_ten_pow {places : ℕ} (some : places ≠ 0) : Even ((10 : ℤ) ^ places) :=
  Even.pow_of_ne_zero (by decide) some

/-- A rounded value is on a grid exactly when a point of the grid is at most half a unit away. -/
theorem IsRounding.onGrid_iff {exact rounded : ℚ} {place grid units : ℤ}
    (rounding : IsRounding exact (10 ^ place) rounded units) :
    OnGrid grid rounded ↔ ∃ point : ℤ, |exact - point * 10 ^ grid| ≤ 10 ^ place / 2 := by
  have positive := zpow_ten_pos place
  constructor
  · rintro ⟨point, onPoint⟩
    exact ⟨point, by rw [← onPoint, rounding.multiple]; exact rounding.near⟩
  · rintro ⟨point, close⟩
    rw [rounding.multiple]
    rcases le_or_gt grid place with coarse | fine
    · have unitsOnGrid : OnGrid grid (Decimal.mk units place).value := onGrid_value coarse
      exact unitsOnGrid
    · -- The point is an even number of units, so that a tie goes to it.
      obtain ⟨shift, shiftEq⟩ := Int.eq_ofNat_of_zero_le (show 0 ≤ grid - place by omega)
      have even : Even (point * 10 ^ shift) := (even_ten_pow (by omega)).mul_left point
      have pointEq : (point : ℚ) * 10 ^ grid = ((point * 10 ^ shift : ℤ) : ℚ) * 10 ^ place := by
        push_cast
        rw [mul_assoc, ← zpow_natCast, ← zpow_add₀ ten_ne_zero]
        congr 2
        omega
      rw [pointEq] at close
      refine ⟨point, ?_⟩
      rw [pointEq]
      congr 2
      set target := point * 10 ^ shift
      have near := abs_le.mp rounding.near
      have closeBoth := abs_le.mp close
      have atMost : (units : ℚ) ≤ target + 1 := by
        by_contra more
        nlinarith
      have atLeast : (target : ℚ) ≤ units + 1 := by
        by_contra more
        nlinarith
      have upper : units ≤ target + 1 := by exact_mod_cast atMost
      have lower : target ≤ units + 1 := by exact_mod_cast atLeast
      rcases show units = target ∨ units = target + 1 ∨ target = units + 1 by omega with
        same | above | below
      · exact_mod_cast same
      · exfalso
        have aboveRational : (units : ℚ) = target + 1 := by exact_mod_cast above
        have tie : |exact - units * 10 ^ place| = 10 ^ place / 2 := by
          rw [abs_eq (by positivity)]
          right
          rw [aboveRational] at near ⊢
          linarith
        obtain ⟨first, firstEq⟩ := rounding.tie tie
        obtain ⟨second, secondEq⟩ := even
        omega
      · exfalso
        have belowRational : (target : ℚ) = units + 1 := by exact_mod_cast below
        have tie : |exact - units * 10 ^ place| = 10 ^ place / 2 := by
          rw [abs_eq (by positivity)]
          left
          rw [belowRational] at closeBoth
          linarith
        obtain ⟨first, firstEq⟩ := rounding.tie tie
        obtain ⟨second, secondEq⟩ := even
        omega

/-- Rounding reaches an even number of units from half a unit below it. -/
theorem IsRounding.abs_lt_iff {exact unit rounded : ℚ} {units bound : ℤ} (positive : 0 < unit)
    (rounding : IsRounding exact unit rounded units) (even : Even bound) :
    |rounded| < bound * unit ↔ |exact| < bound * unit - unit / 2 := by
  have nearTotal : |exact| ≤ |units| * unit + unit / 2 ∧ |units| * unit ≤ |exact| + unit / 2 := by
    have first := abs_sub_abs_le_abs_sub exact (units * unit)
    have second := abs_sub_abs_le_abs_sub (units * unit) exact
    rw [abs_sub_comm] at second
    rw [abs_mul, abs_of_pos positive] at first second
    have near := rounding.near
    push_cast
    constructor <;> linarith
  rw [rounding.multiple, abs_mul, abs_of_pos positive, mul_lt_mul_iff_of_pos_right positive]
  constructor
  · intro less
    have lessInt : |units| ≤ bound - 1 := by
      have : |units| < bound := by exact_mod_cast less
      omega
    have lessRational : ((|units| : ℤ) : ℚ) ≤ bound - 1 := by exact_mod_cast lessInt
    have atMost : |exact| ≤ bound * unit - unit / 2 := by nlinarith
    refine lt_of_le_of_ne atMost fun equal => ?_
    -- A tie would have gone to an even number of units.
    have distance : unit / 2 ≤ |exact - units * unit| := by
      have first := abs_sub_abs_le_abs_sub exact (units * unit)
      rw [abs_mul, abs_of_pos positive, ← Int.cast_abs] at first
      nlinarith
    have evenUnits := rounding.tie (le_antisymm rounding.near distance)
    have exactly : ((|units| : ℤ) : ℚ) = bound - 1 := by
      have least := nearTotal.1
      nlinarith
    have exactlyInt : |units| = bound - 1 := by exact_mod_cast exactly
    obtain ⟨first, firstEq⟩ := (even_abs.mpr evenUnits)
    obtain ⟨second, secondEq⟩ := even
    omega
  · intro less
    have scaled : (|units| : ℚ) * unit < bound * unit := by
      have most := nearTotal.2
      push_cast at most
      linarith
    exact lt_of_mul_lt_mul_right scaled positive.le

/-! ## Rounded values below a power of ten -/

theorem abs_value (number : Decimal) :
    |number.value| = (number.coefficient.natAbs : ℚ) * 10 ^ number.exponent := by
  rw [value, abs_mul, abs_of_pos (zpow_ten_pos _), Nat.cast_natAbs, Int.cast_abs]

theorem abs_value_lt (number : Decimal) :
    |number.value| < 10 ^ (numDigits number.coefficient.natAbs + number.exponent) := by
  rw [abs_value, zpow_add₀ ten_ne_zero, zpow_natCast]
  refine mul_lt_mul_of_pos_right ?_ (zpow_ten_pos _)
  exact_mod_cast lt_pow_numDigits number.coefficient.natAbs

theorem le_abs_value {number : Decimal} (nonzero : number.coefficient ≠ 0) :
    10 ^ (numDigits number.coefficient.natAbs + number.exponent - 1) ≤ |number.value| := by
  have digits : ((numDigits number.coefficient.natAbs : ℤ) + number.exponent - 1) =
      (Nat.log 10 number.coefficient.natAbs : ℤ) + number.exponent := by
    rw [numDigits]
    omega
  rw [digits, abs_value, zpow_add₀ ten_ne_zero, zpow_natCast]
  refine mul_le_mul_of_nonneg_right ?_ (zpow_ten_pos _).le
  exact_mod_cast Nat.pow_log_le_self 10 (Int.natAbs_ne_zero.mpr nonzero)

theorem IsRounding.abs_exact_le {exact unit rounded : ℚ} {units : ℤ}
    (rounding : IsRounding exact unit rounded units) : |exact| ≤ |rounded| + unit / 2 := by
  have first := abs_sub_abs_le_abs_sub exact (units * unit)
  have near := rounding.near
  rw [← rounding.multiple] at first near
  linarith

theorem ten_pow_mul_zpow (count : ℕ) (place : ℤ) :
    (((10 : ℤ) ^ count : ℤ) : ℚ) * 10 ^ place = 10 ^ (count + place) := by
  rw [zpow_add₀ ten_ne_zero, zpow_natCast]
  push_cast
  rfl

/-- A number with too many integer digits keeps them when it is rounded. -/
theorem le_abs_of_isRounding {exact rounded : ℚ} {place units : ℤ} {count : ℕ}
    (rounding : IsRounding exact (10 ^ place) rounded units)
    (large : (10 : ℚ) ^ (count + place) ≤ |exact|) : 10 ^ (count + place) ≤ |rounded| := by
  have positive := zpow_ten_pos place
  by_contra less
  rw [not_le, ← ten_pow_mul_zpow, rounding.multiple, abs_mul, abs_of_pos positive,
    mul_lt_mul_iff_of_pos_right positive] at less
  have lessInt : |units| ≤ 10 ^ count - 1 := by
    have : |units| < 10 ^ count := by exact_mod_cast less
    omega
  have lessRational : ((|units| : ℤ) : ℚ) ≤ ((10 ^ count : ℤ) : ℚ) - 1 := by
    exact_mod_cast lessInt
  have bound := rounding.abs_exact_le
  rw [rounding.multiple, abs_mul, abs_of_pos positive, ← Int.cast_abs] at bound
  rw [← ten_pow_mul_zpow] at large
  nlinarith

/-- A number stays below a power of ten when fixed unless it is within half a unit of it. -/
theorem abs_fix_lt_iff {context : Context} {digits : ℤ}
    (tiny : context.etiny ≤ digits - context.precision) (number : Decimal) :
    |(context.fix number).value| < 10 ^ digits ↔
      |number.value| < 10 ^ digits - 10 ^ (digits - context.precision) / 2 := by
  obtain ⟨units, rounding⟩ := isRounding_fix context number
  have precisionPos := context.precision_pos
  have halfLe : (10 : ℚ) ^ (digits - context.precision) ≤ 10 ^ (digits - 1) :=
    zpow_le_zpow_right₀ (by norm_num) (by omega)
  have tenth : (10 : ℚ) ^ digits = 10 * 10 ^ (digits - 1) := by
    rw [← zpow_one_add₀ ten_ne_zero]
    congr 1
    omega
  have tenthPos := zpow_ten_pos (digits - 1)
  have digitsLe := le_max_left ((numDigits number.coefficient.natAbs : ℤ) + number.exponent -
    context.precision) context.etiny
  rw [← Context.lastPlace] at digitsLe
  rcases lt_trichotomy (context.lastPlace number) (digits - context.precision) with
    finer | same | coarser
  · -- Fewer digits than the bound has: both sides hold.
    obtain ⟨count, countEq⟩ :=
      Int.eq_ofNat_of_zero_le (show 0 ≤ digits - context.lastPlace number by omega)
    have bound : (10 : ℚ) ^ digits = ((10 ^ count : ℤ) : ℚ) * 10 ^ context.lastPlace number := by
      rw [ten_pow_mul_zpow]
      congr 1
      omega
    have small : |number.value| < 10 ^ (digits - 1) :=
      lt_of_lt_of_le (abs_value_lt number) (zpow_le_zpow_right₀ (by norm_num) (by omega))
    have unitLe : (10 : ℚ) ^ context.lastPlace number ≤ 10 ^ (digits - 1) :=
      zpow_le_zpow_right₀ (by norm_num) (by omega)
    refine iff_of_true ?_ (by linarith)
    rw [bound, rounding.abs_lt_iff (zpow_ten_pos _) (even_ten_pow (by omega)), ← bound]
    linarith
  · have bound : (10 : ℚ) ^ digits =
        ((10 ^ context.precision : ℤ) : ℚ) * 10 ^ context.lastPlace number := by
      rw [ten_pow_mul_zpow]
      congr 1
      omega
    rw [bound, rounding.abs_lt_iff (zpow_ten_pos _) (even_ten_pow precisionPos.ne'), same]
  · -- More integer digits than allowed, unless the number is zero.
    rcases eq_or_ne number.coefficient 0 with zero | nonzero
    · have valueZero : number.value = 0 := by simp [value, zero]
      have fixedZero : (context.fix number).value = 0 := by
        rw [value_fix_of_represents ⟨0, context.etiny, by simp [valueZero], by positivity, le_rfl⟩,
          valueZero]
      rw [valueZero, fixedZero, abs_zero]
      exact iff_of_true (by linarith) (by linarith)
    · have placeEq : context.lastPlace number =
          numDigits number.coefficient.natAbs + number.exponent - context.precision := by
        rw [Context.lastPlace] at coarser ⊢
        omega
      have large := le_abs_value nonzero
      have shape : (numDigits number.coefficient.natAbs : ℤ) + number.exponent - 1 =
          ((context.precision - 1 : ℕ) : ℤ) + context.lastPlace number := by
        omega
      have exceeds : (10 : ℚ) ^ digits ≤
          10 ^ ((numDigits number.coefficient.natAbs : ℤ) + number.exponent - 1) :=
        zpow_le_zpow_right₀ (by norm_num) (by omega)
      have roundedLarge : (10 : ℚ) ^ digits ≤ |(context.fix number).value| := by
        rw [shape] at exceeds large
        exact exceeds.trans (le_abs_of_isRounding rounding large)
      have halfPos := zpow_ten_pos (digits - context.precision)
      exact iff_of_false (not_lt.mpr roundedLarge) (by linarith)

/-- A rounded value is written without further rounding. -/
theorem represents_fix (context : Context) (number : Decimal) :
    context.Represents (context.fix number).value := by
  have tiny := le_max_right ((numDigits number.coefficient.natAbs : ℤ) + number.exponent -
    context.precision) context.etiny
  have digitsLe := le_max_left ((numDigits number.coefficient.natAbs : ℤ) + number.exponent -
    context.precision) context.etiny
  rw [← Context.lastPlace] at tiny digitsLe
  rcases le_or_gt (context.lastPlace number) number.exponent with long | short
  · have kept : context.fix number = number := if_pos long
    rw [kept]
    refine ⟨number.coefficient, number.exponent, rfl, ?_, tiny.trans long⟩
    have small := (numDigits_le_iff context.precision_pos).mp
      (show numDigits number.coefficient.natAbs ≤ context.precision by omega)
    rw [Int.abs_eq_natAbs]
    exact_mod_cast small
  · rw [value_fix_of_short short]
    set rounded := roundHalfEven number.coefficient.natAbs
      (context.lastPlace number - number.exponent).toNat with roundedDef
    have bound : rounded ≤ 10 ^ context.precision := roundHalfEven_le_pow (by omega)
    have signLe : |number.coefficient.sign| ≤ 1 := by
      rcases lt_trichotomy number.coefficient 0 with negative | zero | positive
      · simp [Int.sign_eq_neg_one_of_neg negative]
      · simp [zero]
      · simp [Int.sign_eq_one_of_pos positive]
    rcases lt_or_eq_of_le bound with less | carried
    · refine ⟨number.coefficient.sign * rounded, context.lastPlace number, rfl, ?_, tiny⟩
      have lessInt : (rounded : ℤ) < 10 ^ context.precision := by exact_mod_cast less
      rw [abs_mul, Nat.abs_cast]
      nlinarith [abs_nonneg number.coefficient.sign]
    · refine ⟨number.coefficient.sign, context.precision + context.lastPlace number, ?_, ?_, by
        omega⟩
      · rw [carried, zpow_add₀ ten_ne_zero, zpow_natCast]
        push_cast
        ring
      · exact lt_of_le_of_lt signLe (one_lt_pow₀ (by norm_num) context.precision_pos.ne')

/-! ## What a normal form shows -/

theorem value_normalize (context : Context) (number : Decimal) :
    (context.normalize number).value = (context.fix number).value := by
  rw [Context.normalize]
  split
  · rename_i zero
    rw [value_zero, value, zero, Int.cast_zero, zero_mul]
  · rw [value_stripZeros]

theorem normalize_eq_zero_or (context : Context) (number : Decimal) :
    context.normalize number = 0 ∨ (context.normalize number).coefficient % 10 ≠ 0 := by
  rw [Context.normalize]
  split
  · exact .inl rfl
  · rename_i nonzero
    exact .inr (stripZeros_coefficient _ _ nonzero (lt_pow_numDigits _))

/-- The exponent of a normal form is that of the coarsest grid it is on. -/
theorem onGrid_iff_le_exponent {number : Decimal} (stripped : number.coefficient % 10 ≠ 0)
    (grid : ℤ) : OnGrid grid number.value ↔ grid ≤ number.exponent := by
  constructor
  · rintro ⟨units, valueEq⟩
    by_contra finer
    have coarser : number.exponent ≤ (Decimal.mk units grid).exponent := (not_le.mp finer).le
    have scaled := scaled_mul_zpow ⟨units, grid⟩ coarser
    rw [show (Decimal.mk units grid).value = number.value from valueEq.symm, value] at scaled
    have integers : (Decimal.mk units grid).scaled number.exponent = number.coefficient := by
      exact_mod_cast mul_right_cancel₀ (zpow_ten_pos _).ne' scaled
    obtain ⟨gap, gapEq⟩ : ∃ gap, (grid - number.exponent).toNat = gap + 1 :=
      ⟨(grid - number.exponent).toNat - 1, by omega⟩
    rw [Decimal.scaled, gapEq, pow_succ, ← mul_assoc] at integers
    omega
  · exact onGrid_value

theorem decimalPlaces_normalize_le_iff (context : Context) (number : Decimal) {places : ℤ}
    (nonneg : 0 ≤ places) :
    max 0 (-(context.normalize number).exponent) ≤ places ↔
      OnGrid (-places) (context.fix number).value := by
  rw [← value_normalize]
  rcases normalize_eq_zero_or context number with zero | stripped
  · rw [zero, value_zero]
    exact iff_of_true (max_le nonneg nonneg) (onGrid_zero _)
  · rw [onGrid_iff_le_exponent stripped]
    omega

theorem integerDigits_normalize_le_iff (context : Context) (number : Decimal) {digits : ℤ}
    (positive : 1 ≤ digits) :
    max 1 ((numDigits (context.normalize number).coefficient.natAbs : ℤ) +
        (context.normalize number).exponent) ≤ digits ↔
      |(context.fix number).value| < 10 ^ digits := by
  rw [← value_normalize]
  rcases normalize_eq_zero_or context number with zero | stripped
  · rw [zero, value_zero, abs_zero]
    refine iff_of_true ?_ (zpow_ten_pos _)
    change max 1 (((numDigits 0 : ℕ) : ℤ) + 0) ≤ digits
    simp [numDigits, positive]
  · have nonzero : (context.normalize number).coefficient ≠ 0 := by omega
    constructor
    · intro few
      exact lt_of_lt_of_le (abs_value_lt _) (zpow_le_zpow_right₀ (by norm_num) (by omega))
    · intro small
      have below := lt_of_le_of_lt (le_abs_value nonzero) small
      have exponents := (zpow_lt_zpow_iff_right₀ (by norm_num : (1 : ℚ) < 10)).mp below
      omega

end Decimal

end MmAudit
