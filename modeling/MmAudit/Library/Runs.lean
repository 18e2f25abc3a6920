import Mathlib.Data.List.Basic

/-!
# Runs of a machine that cannot always take a step

A machine takes actions, each of which may be impossible in the state it is in.  A run
is a list of actions that were possible one after the other.  What every step of a run
preserves holds at its end; so does what every step preserves that meets a condition on
the state before it, when all steps of the run meet the condition.
-/

namespace MmAudit

namespace Runs

variable {State Action : Type*} (perform : Action → State → Option State)

/-- The state after the actions, when each of them is possible in its turn. -/
def run : List Action → State → Option State
  | [], state => some state
  | action :: actions, state => (perform action state).bind (run actions)

@[simp]
theorem run_nil (state : State) : run perform [] state = some state :=
  rfl

@[simp]
theorem run_cons (action : Action) (actions : List Action) (state : State) :
    run perform (action :: actions) state = (perform action state).bind (run perform actions) :=
  rfl

theorem run_append (first second : List Action) (state : State) :
    run perform (first ++ second) state =
      (run perform first state).bind (run perform second) := by
  induction first generalizing state with
  | nil => rfl
  | cons action first ih =>
      rw [List.cons_append, run_cons, run_cons, Option.bind_assoc]
      congr 1
      funext next
      exact ih next

theorem run_append_eq_some {first second : List Action} {start middle stop : State}
    (reachesMiddle : run perform first start = some middle)
    (reachesStop : run perform second middle = some stop) :
    run perform (first ++ second) start = some stop := by
  rw [run_append, reachesMiddle, Option.bind_some, reachesStop]

/-- The state is reached by some run from the start. -/
def Reaches (start state : State) : Prop :=
  ∃ actions, run perform actions start = some state

/-- Every step of the run is taken in a state that meets the condition on the step. -/
def EveryStep (condition : State → Action → Prop) : List Action → State → Prop
  | [], _ => True
  | action :: actions, state =>
      condition state action ∧
        ∀ next, perform action state = some next → EveryStep condition actions next

instance EveryStep.decidable (condition : State → Action → Prop)
    [∀ state action, Decidable (condition state action)] :
    ∀ actions state, Decidable (EveryStep perform condition actions state)
  | [], _ => inferInstanceAs (Decidable True)
  | action :: actions, state =>
      match taken : perform action state with
      | none => decidable_of_iff (condition state action) (by
          simp [EveryStep, taken])
      | some next =>
          have := EveryStep.decidable condition actions next
          decidable_of_iff (condition state action ∧ EveryStep perform condition actions next)
            (by simp [EveryStep, taken])

/-- What each step preserves that meets the condition holds at the end of a run whose steps all
meet it. -/
theorem invariant_of_everyStep (invariant : State → Prop) {condition : State → Action → Prop}
    (step : ∀ action state next, perform action state = some next → condition state action →
      invariant state → invariant next) {actions : List Action} {start stop : State}
    (reaches : run perform actions start = some stop)
    (meets : EveryStep perform condition actions start) (initially : invariant start) :
    invariant stop := by
  induction actions generalizing start with
  | nil =>
      obtain rfl := Option.some.inj reaches
      exact initially
  | cons action actions ih =>
      rw [run_cons, Option.bind_eq_some_iff] at reaches
      obtain ⟨next, taken, rest⟩ := reaches
      exact ih rest (meets.2 next taken) (step action start next taken meets.1 initially)

/-- What each step preserves holds in every state reached. -/
theorem invariant_of_reaches (invariant : State → Prop)
    (step : ∀ action state next, perform action state = some next → invariant state →
      invariant next) {start state : State} (reaches : Reaches perform start state)
    (initially : invariant start) : invariant state := by
  obtain ⟨actions, reaches⟩ := reaches
  have anyStep : EveryStep perform (fun _ _ => True) actions start := by
    clear reaches initially
    induction actions generalizing start with
    | nil => trivial
    | cons action actions ih => exact ⟨trivial, fun next _ => ih⟩
  exact invariant_of_everyStep perform invariant
    (fun action state next taken _ => step action state next taken) reaches anyStep initially

end Runs

end MmAudit
