import Mathlib.Data.List.Basic
import Mathlib.Logic.Function.Iterate

/-!
# Iterating until nothing changes

A function is applied again and again until its value stays the same, but only so often.
If the last value is stable then the list of values holds every iterate.
-/

namespace MmAudit

namespace Stabilizing

variable {Value : Type} [DecidableEq Value] (step : Value → Value)

/-- The values from a start on, with so many steps at most. -/
def forms : ℕ → Value → List Value
  | 0, value => [value]
  | fuel + 1, value =>
      if step value = value then [value] else value :: forms fuel (step value)

/-- The last value with so many steps at most. -/
def lastForm : ℕ → Value → Value
  | 0, value => value
  | fuel + 1, value => if step value = value then value else lastForm fuel (step value)

theorem getLast?_forms (fuel : ℕ) (value : Value) :
    (forms step fuel value).getLast? = some (lastForm step fuel value) := by
  induction fuel generalizing value with
  | zero => rfl
  | succ fuel ih =>
      unfold forms lastForm
      split
      · rfl
      · rw [List.getLast?_cons, ih]
        rfl

theorem mem_forms_self (fuel : ℕ) (value : Value) : value ∈ forms step fuel value := by
  cases fuel with
  | zero => exact List.mem_singleton.mpr rfl
  | succ fuel =>
      unfold forms
      split
      · exact List.mem_singleton.mpr rfl
      · exact List.mem_cons_self

/-- With a stable last value, the list holds all iterates. -/
theorem iterate_mem_forms {fuel : ℕ} {value : Value}
    (stable : step (lastForm step fuel value) = lastForm step fuel value) (count : ℕ) :
    step^[count] value ∈ forms step fuel value := by
  induction fuel generalizing value count with
  | zero =>
      have same : step value = value := stable
      rw [Function.iterate_fixed same]
      exact mem_forms_self step 0 value
  | succ fuel ih =>
      by_cases same : step value = value
      · rw [Function.iterate_fixed same]
        exact mem_forms_self step (fuel + 1) value
      · rw [forms, if_neg same]
        rw [lastForm, if_neg same] at stable
        cases count with
        | zero => exact List.mem_cons_self
        | succ count =>
            rw [Function.iterate_succ_apply]
            exact List.mem_cons_of_mem _ (ih stable count)

/-- A value that is not stable after all steps uses up the steps. -/
theorem forms_of_unstable {fuel : ℕ} {value : Value}
    (unstable : step^[fuel + 1] value ≠ step^[fuel] value) :
    (forms step fuel value).length = fuel + 1 ∧
      lastForm step fuel value = step^[fuel] value := by
  induction fuel generalizing value with
  | zero => exact ⟨rfl, rfl⟩
  | succ fuel ih =>
      have changes : step value ≠ value := by
        intro same
        rw [Function.iterate_fixed same, Function.iterate_fixed same] at unstable
        exact unstable rfl
      rw [Function.iterate_succ_apply, Function.iterate_succ_apply step fuel] at unstable
      obtain ⟨length, last⟩ := ih unstable
      rw [forms, if_neg changes, lastForm, if_neg changes, List.length_cons, length,
        Function.iterate_succ_apply]
      exact ⟨rfl, last⟩

theorem length_forms_le (fuel : ℕ) (value : Value) :
    (forms step fuel value).length ≤ fuel + 1 := by
  induction fuel generalizing value with
  | zero => exact Nat.le_refl _
  | succ fuel ih =>
      unfold forms
      split
      · simp
      · rw [List.length_cons]
        exact Nat.succ_le_succ (ih (step value))

/-- A list that is shorter than the steps allow ends in a stable value. -/
theorem stable_of_length_le {fuel : ℕ} {value : Value}
    (short : (forms step fuel value).length ≤ fuel) :
    step (lastForm step fuel value) = lastForm step fuel value := by
  induction fuel generalizing value with
  | zero => exact absurd short (by simp [forms])
  | succ fuel ih =>
      unfold forms at short
      unfold lastForm
      split
      next same => exact same
      next changes =>
        rw [if_neg changes, List.length_cons] at short
        exact ih (by omega)

end Stabilizing

end MmAudit
