import Mathlib.Data.Int.Log
import Mathlib.Data.Rat.Floor
import Mathlib.Tactic.Linarith
import Mathlib.Tactic.FieldSimp
import Mathlib.Tactic.NormNum
import Mathlib.Tactic.Positivity

/-!
# Rounding to double precision

A positive number in the normal range is rounded to 53 significant binary digits, to the
even neighbour when it lies in the middle.  Rounding is monotone, so a sum of rounded parts
that has reached a double precision number stays at it or above.
-/

namespace MmAudit

namespace Binary64

/-- The nearest integer, the even one of two. -/
def nearest (number : ℚ) : ℤ :=
  let below := ⌊number⌋
  if number - below < 1 / 2 then below
  else if 1 / 2 < number - below then below + 1
  else if below % 2 = 0 then below
  else below + 1

/-- The exponent of the last of the 53 digits. -/
def lastExponent (number : ℚ) : ℤ :=
  Int.log 2 number - 52

/-- A number that is not negative, rounded to the nearest double precision number. -/
def round (number : ℚ) : ℚ :=
  if number ≤ 0 then 0
  else nearest (number / 2 ^ lastExponent number) * 2 ^ lastExponent number

theorem floor_le_nearest (number : ℚ) : ⌊number⌋ ≤ nearest number := by
  unfold nearest
  dsimp only
  split
  · exact le_rfl
  split
  · omega
  split <;> omega

theorem nearest_le_floor_add_one (number : ℚ) : nearest number ≤ ⌊number⌋ + 1 := by
  unfold nearest
  dsimp only
  split
  · omega
  split
  · omega
  split <;> omega

theorem nearest_mono {first second : ℚ} (ordered : first ≤ second) :
    nearest first ≤ nearest second := by
  rcases (Int.floor_le_floor ordered).lt_or_eq with apart | same
  · calc nearest first ≤ ⌊first⌋ + 1 := nearest_le_floor_add_one first
      _ ≤ ⌊second⌋ := apart
      _ ≤ nearest second := floor_le_nearest second
  · unfold nearest
    dsimp only
    rw [same]
    have fractions : first - ⌊second⌋ ≤ second - ⌊second⌋ := by linarith
    by_cases low : second - ⌊second⌋ < 1 / 2
    · rw [if_pos low, if_pos (lt_of_le_of_lt fractions low)]
    · rw [if_neg low]
      by_cases high : 1 / 2 < second - ⌊second⌋
      · rw [if_pos high]
        split
        · omega
        split
        · exact le_rfl
        split <;> omega
      · rw [if_neg high]
        split
        · split <;> omega
        · have middle : ¬ 1 / 2 < first - ⌊second⌋ := fun above => high (by linarith)
          rw [if_neg middle]

theorem nearest_intCast (number : ℤ) : nearest number = number := by
  simp [nearest]

theorem round_of_pos {number : ℚ} (positive : 0 < number) :
    round number = nearest (number / 2 ^ lastExponent number) * 2 ^ lastExponent number :=
  if_neg (not_le.mpr positive)

theorem scale_pos (exponent : ℤ) : (0 : ℚ) < 2 ^ exponent :=
  zpow_pos (by norm_num) exponent

/-- A number stays above a power of two that it has reached. -/
theorem log_pow_le_round {number : ℚ} (positive : 0 < number) :
    (2 : ℚ) ^ Int.log 2 number ≤ round number := by
  have scaled : ((2 ^ 52 : ℤ) : ℚ) ≤ number / 2 ^ lastExponent number := by
    rw [le_div_iff₀ (scale_pos _), lastExponent, zpow_sub₀ (by norm_num)]
    have reached := Int.zpow_log_le_self (b := 2) (by norm_num) positive
    push_cast at reached ⊢
    calc (2 : ℚ) ^ 52 * (2 ^ Int.log 2 number / 2 ^ (52 : ℤ)) = 2 ^ Int.log 2 number := by
          norm_num
          ring
      _ ≤ number := reached
  have least : (2 ^ 52 : ℤ) ≤ nearest (number / 2 ^ lastExponent number) := by
    rw [← nearest_intCast (2 ^ 52)]
    exact nearest_mono scaled
  rw [round_of_pos positive]
  calc (2 : ℚ) ^ Int.log 2 number = ((2 ^ 52 : ℤ) : ℚ) * 2 ^ lastExponent number := by
        rw [lastExponent, zpow_sub₀ (by norm_num)]
        push_cast
        ring
    _ ≤ nearest (number / 2 ^ lastExponent number) * 2 ^ lastExponent number :=
        mul_le_mul_of_nonneg_right (by exact_mod_cast least) (scale_pos _).le

/-- A number below a power of two is not rounded above it. -/
theorem round_le_log_pow {number : ℚ} (positive : 0 < number) :
    round number ≤ (2 : ℚ) ^ (Int.log 2 number + 1) := by
  have scaled : number / 2 ^ lastExponent number ≤ ((2 ^ 53 : ℤ) : ℚ) := by
    rw [div_le_iff₀ (scale_pos _), lastExponent, zpow_sub₀ (by norm_num)]
    have below := (Int.lt_zpow_succ_log_self (b := 2) (by norm_num) number).le
    rw [zpow_add_one₀ (by norm_num)] at below
    push_cast at below ⊢
    calc number ≤ 2 ^ Int.log 2 number * 2 := below
      _ = (2 : ℚ) ^ 53 * (2 ^ Int.log 2 number / 2 ^ (52 : ℤ)) := by
          norm_num
          ring
  have most : nearest (number / 2 ^ lastExponent number) ≤ (2 ^ 53 : ℤ) := by
    rw [← nearest_intCast (2 ^ 53)]
    exact nearest_mono scaled
  rw [round_of_pos positive]
  calc (nearest (number / 2 ^ lastExponent number) : ℚ) * 2 ^ lastExponent number
      ≤ ((2 ^ 53 : ℤ) : ℚ) * 2 ^ lastExponent number :=
        mul_le_mul_of_nonneg_right (by exact_mod_cast most) (scale_pos _).le
    _ = (2 : ℚ) ^ (Int.log 2 number + 1) := by
        rw [lastExponent, zpow_sub₀ (by norm_num), zpow_add_one₀ (by norm_num)]
        push_cast
        ring

theorem round_nonneg (number : ℚ) : 0 ≤ round number := by
  by_cases positive : 0 < number
  · exact (scale_pos _).le.trans (log_pow_le_round positive)
  · rw [round, if_pos (not_lt.mp positive)]

theorem round_mono {first second : ℚ} (ordered : first ≤ second) : round first ≤ round second := by
  by_cases positive : 0 < first
  · have secondPositive := positive.trans_le ordered
    rcases (Int.log_mono_right positive ordered (b := 2)).lt_or_eq with apart | same
    · calc round first ≤ (2 : ℚ) ^ (Int.log 2 first + 1) := round_le_log_pow positive
        _ ≤ 2 ^ Int.log 2 second := zpow_le_zpow_right₀ (by norm_num) apart
        _ ≤ round second := log_pow_le_round secondPositive
    · rw [round_of_pos positive, round_of_pos secondPositive, lastExponent, lastExponent, same]
      refine mul_le_mul_of_nonneg_right ?_ (scale_pos _).le
      exact_mod_cast nearest_mono (div_le_div_of_nonneg_right ordered (scale_pos _).le)
  · rw [round, if_pos (not_lt.mp positive)]
    exact round_nonneg second

/-- What has reached a double precision number stays there when something is added. -/
theorem le_round_add {reached number part : ℚ} (exact : round reached = reached)
    (isReached : reached ≤ number) (nonneg : 0 ≤ part) : reached ≤ round (number + part) := by
  rw [← exact]
  exact round_mono (by linarith)

example : round (round (3 / 10) + 1 / 4) = round (55 / 100) := by
  decide +kernel

end Binary64

end MmAudit
