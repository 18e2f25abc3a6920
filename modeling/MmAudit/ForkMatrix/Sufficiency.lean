import MmAudit.ForkMatrix.Deadlines

/-!
# The budget suffices

Before each state the time that is left covers the bounds of all states to come and a removal
more: every attempt is counted with the bounds of its calls and with the other work that it
does.  So the tightest check, before the child of the last attempt, still finds the reserve.
-/

namespace MmAudit

namespace ForkMatrix

open Fallible

/-! ## Timely dependencies -/

namespace AttemptBehaviour

/-- What is no call of a dependency. -/
def otherWork (behaviour : AttemptBehaviour) : ℚ :=
  behaviour.preparing + behaviour.entering + behaviour.opening + behaviour.equipping +
    behaviour.closing + behaviour.leaving + behaviour.revalidating + behaviour.recording

/-- No time is negative, and the calls keep their bounds. -/
structure Timely (childTimeout : ℚ) (behaviour : AttemptBehaviour) : Prop where
  nonneg : ∀ time ∈ [behaviour.preparing, behaviour.entering, behaviour.observing,
    behaviour.opening, behaviour.bridging, behaviour.equipping, behaviour.running,
    behaviour.closing, behaviour.stopping, behaviour.leaving, behaviour.revalidating,
    behaviour.reobserving, behaviour.recording], 0 ≤ time
  observing : behaviour.observing ≤ observationTimeoutSeconds
  bridging : behaviour.bridging ≤ observationTimeoutSeconds
  running : behaviour.running ≤ childTimeout
  stopping : behaviour.stopping ≤ bridgeShutdownReserveSeconds
  reobserving : behaviour.reobserving ≤ observationTimeoutSeconds

/-- The status of an attempt that no deadline disturbs. -/
def status (hasEndpoint : Bool) (behaviour : AttemptBehaviour) : AttemptStatus :=
  if !hasEndpoint then .unavailable
  else
    match behaviour.observed with
    | .unavailable => .unavailable
    | .invalid => .failed
    | .identity =>
        if behaviour.created ≠ .returned then behaviour.created.status
        else if behaviour.bridged ≠ .returned then behaviour.bridged.status
        else if behaviour.equipped ≠ .returned then behaviour.equipped.status
        else behaviour.child.status

/-- What an attempt may take. -/
def cost (childTimeout : ℚ) (behaviour : AttemptBehaviour) : ℚ :=
  childTimeout + 3 * observationTimeoutSeconds + bridgeShutdownReserveSeconds +
    behaviour.otherWork

end AttemptBehaviour

/-- An attempt that ends in time as the dependencies do. -/
structure Undisturbed (hasEndpoint : Bool) (behaviour : AttemptBehaviour) (latest : ℚ)
    (result : AttemptResult) : Prop where
  status : result.status = behaviour.status hasEndpoint
  fired : result.fired = []
  finished : result.finished ≤ latest

variable {childTimeout deadline now : ℚ} {behaviour : AttemptBehaviour}

/-- Before the child there is its time, and the reserve for what comes after it. -/
theorem bridgedRun_undisturbed (timely : behaviour.Timely childTimeout)
    (identity : behaviour.observed = .identity)
    (enough : now + behaviour.bridging + behaviour.equipping + childTimeout +
      attemptCleanupReserveSeconds ≤ deadline) (notNever : 0 < childTimeout) :
    Undisturbed true behaviour (now + behaviour.bridging + behaviour.equipping + childTimeout +
        behaviour.closing + bridgeShutdownReserveSeconds)
      (bridgedRun childTimeout deadline behaviour now) := by
  obtain ⟨nonneg, -, -, running, stopping, -⟩ := timely
  simp only [List.forall_mem_cons, List.not_mem_nil, false_implies, implies_true, and_true]
    at nonneg
  obtain ⟨-, -, -, -, bridging, equipping, running', closing, stopping', -⟩ := nonneg
  have beforeBridge : ¬deadline - now ≤ attemptCleanupReserveSeconds := by linarith
  have beforeChild : ¬deadline - (now + behaviour.bridging + behaviour.equipping) <
      childTimeout + attemptCleanupReserveSeconds := by linarith
  rw [bridgedRun, if_neg beforeBridge]
  dsimp only
  by_cases created : behaviour.created = .returned
  · by_cases bridged : behaviour.bridged = .returned
    · by_cases equipped : behaviour.equipped = .returned
      · rw [if_neg (not_not.mpr created), if_neg (not_not.mpr bridged),
          if_neg (not_not.mpr equipped), if_neg beforeChild]
        refine ⟨by simp [AttemptBehaviour.status, identity, created, bridged, equipped], rfl, ?_⟩
        dsimp only
        linarith
      · rw [if_neg (not_not.mpr created), if_neg (not_not.mpr bridged), if_pos equipped]
        refine ⟨by simp [AttemptBehaviour.status, identity, created, bridged, equipped], rfl, ?_⟩
        dsimp only
        linarith
    · rw [if_neg (not_not.mpr created), if_pos bridged]
      refine ⟨by simp [AttemptBehaviour.status, identity, created, bridged], rfl, ?_⟩
      dsimp only
      linarith
  · rw [if_pos created]
    refine ⟨by simp [AttemptBehaviour.status, identity, created], rfl, ?_⟩
    dsimp only
    linarith

/-- With a reserve of one more removal after the attempt none of its checks fires. -/
theorem executeAttempt_undisturbed (deadline now : ℚ) (hasEndpoint : Bool)
    (timely : behaviour.Timely childTimeout)
    (notNever : 0 < childTimeout)
    (enough : now + behaviour.cost childTimeout + workspaceRemovalTimeoutSeconds +
      schedulingSlackSeconds ≤ deadline) :
    Undisturbed hasEndpoint behaviour (now + behaviour.cost childTimeout)
      (executeAttempt childTimeout deadline hasEndpoint behaviour now) := by
  obtain ⟨nonneg, observing, bridging, running, stopping, reobserving⟩ := timely
  have signs := nonneg
  simp only [List.forall_mem_cons, List.not_mem_nil, false_implies, implies_true, and_true]
    at signs
  obtain ⟨preparing, entering, observing', opening, bridging', equipping, running', closing,
    stopping', leaving, revalidating, reobserving', recording⟩ := signs
  have cost : behaviour.cost childTimeout = childTimeout + 3 * observationTimeoutSeconds +
      bridgeShutdownReserveSeconds + (behaviour.preparing + behaviour.entering +
        behaviour.opening + behaviour.equipping + behaviour.closing + behaviour.leaving +
        behaviour.revalidating + behaviour.recording) := rfl
  have reserve : attemptCleanupReserveSeconds = observationTimeoutSeconds +
      bridgeShutdownReserveSeconds + workspaceRemovalTimeoutSeconds + schedulingSlackSeconds := rfl
  have observation : (0 : ℚ) < observationTimeoutSeconds := by decide
  have shutdown : (0 : ℚ) < bridgeShutdownReserveSeconds := by decide
  have removal : (0 : ℚ) < workspaceRemovalTimeoutSeconds := by decide
  have slack : (0 : ℚ) < schedulingSlackSeconds := by decide +kernel
  unfold executeAttempt
  dsimp only
  cases hasEndpoint with
  | false =>
      rw [if_pos (by decide)]
      refine ⟨rfl, rfl, ?_⟩
      dsimp only
      linarith
  | true =>
      have beforeAttempt : ¬deadline ≤ now + behaviour.preparing := by linarith
      rw [if_neg (by decide), if_neg beforeAttempt]
      cases observed : behaviour.observed with
      | unavailable =>
          refine ⟨by simp [AttemptBehaviour.status, observed], rfl, ?_⟩
          dsimp only
          linarith
      | invalid =>
          refine ⟨by simp [AttemptBehaviour.status, observed], rfl, ?_⟩
          dsimp only
          linarith
      | identity =>
          have intoBridge : now + behaviour.preparing + behaviour.entering +
              behaviour.observing + behaviour.opening + behaviour.bridging +
              behaviour.equipping + childTimeout + attemptCleanupReserveSeconds ≤ deadline := by
            linarith
          obtain ⟨status, fired, finished⟩ := bridgedRun_undisturbed
            ⟨nonneg, observing, bridging, running, stopping, reobserving⟩ observed intoBridge
            notNever
          dsimp only
          rw [if_neg (by linarith)]
          exact ⟨status, fired, by dsimp only; linarith⟩

/-! ## The attempts of a state -/

/-- What all attempts of a state may take. -/
def attemptsCost (childTimeout : ℚ) (behaviours : List AttemptBehaviour) : ℚ :=
  (behaviours.map (·.cost childTimeout)).sum

/-- The statuses of attempts that no deadline disturbs, with the checks that fire: none. -/
def undisturbedAttempts (hasEndpoint : Bool) (behaviours : List AttemptBehaviour) :
    List (AttemptStatus × List DeadlineCheck) :=
  behaviours.map fun behaviour => (behaviour.status hasEndpoint, [])

theorem AttemptBehaviour.Timely.cost_nonneg (timely : behaviour.Timely childTimeout)
    (notNever : 0 < childTimeout) : 0 ≤ behaviour.cost childTimeout := by
  have nonneg := timely.nonneg
  simp only [List.forall_mem_cons, List.not_mem_nil, false_implies, implies_true, and_true]
    at nonneg
  obtain ⟨preparing, entering, observing', opening, bridging', equipping, running', closing,
    stopping', leaving, revalidating, reobserving', recording⟩ := nonneg
  have observation : (0 : ℚ) < observationTimeoutSeconds := by decide
  have shutdown : (0 : ℚ) < bridgeShutdownReserveSeconds := by decide
  rw [AttemptBehaviour.cost, AttemptBehaviour.otherWork]
  linarith

theorem attemptsCost_nonneg {behaviours : List AttemptBehaviour}
    (timely : ∀ behaviour ∈ behaviours, behaviour.Timely childTimeout)
    (notNever : 0 < childTimeout) : 0 ≤ attemptsCost childTimeout behaviours := by
  refine List.sum_nonneg fun cost listed => ?_
  obtain ⟨behaviour, member, rfl⟩ := List.mem_map.mp listed
  exact (timely behaviour member).cost_nonneg notNever

theorem executeAttempts_undisturbed (deadline now : ℚ) (hasEndpoint : Bool)
    {behaviours : List AttemptBehaviour}
    (timely : ∀ behaviour ∈ behaviours, behaviour.Timely childTimeout)
    (notNever : 0 < childTimeout)
    (enough : now + attemptsCost childTimeout behaviours + workspaceRemovalTimeoutSeconds +
      schedulingSlackSeconds ≤ deadline) :
    (executeAttempts childTimeout deadline hasEndpoint behaviours now).1.map
        (fun attempt => (attempt.status, attempt.fired)) =
      undisturbedAttempts hasEndpoint behaviours ∧
      (executeAttempts childTimeout deadline hasEndpoint behaviours now).2 ≤
        now + attemptsCost childTimeout behaviours := by
  induction behaviours generalizing now with
  | nil => exact ⟨rfl, by simp [executeAttempts, attemptsCost]⟩
  | cons behaviour behaviours ih =>
      obtain ⟨first, rest⟩ := List.forall_mem_cons.mp timely
      have split : attemptsCost childTimeout (behaviour :: behaviours) =
          behaviour.cost childTimeout + attemptsCost childTimeout behaviours := by
        simp [attemptsCost]
      have later := attemptsCost_nonneg rest notNever
      rw [split] at enough ⊢
      obtain ⟨status, fired, finished⟩ :=
        executeAttempt_undisturbed deadline now hasEndpoint first notNever (by linarith)
      have enoughLater : (executeAttempt childTimeout deadline hasEndpoint behaviour now).finished +
          attemptsCost childTimeout behaviours + workspaceRemovalTimeoutSeconds +
          schedulingSlackSeconds ≤ deadline := by linarith
      obtain ⟨statuses, finishedAll⟩ := ih _ rest enoughLater
      constructor
      · rw [executeAttempts, List.map_cons, statuses, status, fired]
        rfl
      · rw [executeAttempts]
        dsimp only
        linarith

/-! ## States -/

/-- What the launcher and the end of a clean state may take. -/
def cleanCost : RepositoryForkMatrixStateConfig → ℚ
  | .clean _ startup shutdown => versionAttestationTimeoutSeconds + startup + shutdown
  | .pinned _ => 0

namespace StateBehaviour

/-- What is neither a call of a dependency nor the removal of the directories. -/
def otherWork (behaviour : StateBehaviour) : ℚ :=
  behaviour.starting + behaviour.entering + behaviour.finishing + behaviour.sealing +
    (behaviour.attempts.map AttemptBehaviour.otherWork).sum

/-- No time is negative, and the calls keep the bounds of the configuration. -/
structure Timely (suite : RepositoryForkSuiteConfig) (config : RepositoryForkMatrixStateConfig)
    (behaviour : StateBehaviour) : Prop where
  nonneg : ∀ time ∈ [behaviour.starting, behaviour.launching, behaviour.entering,
    behaviour.finishing, behaviour.stopping, behaviour.sealing, behaviour.removing], 0 ≤ time
  repetitions : behaviour.attempts.length = suite.forkMatrixRepetitions
  attempts : ∀ attempt ∈ behaviour.attempts, attempt.Timely suite.totalTimeoutSeconds
  clean : ∀ stateId startup shutdown, config = .clean stateId startup shutdown →
    behaviour.launching ≤ versionAttestationTimeoutSeconds + startup ∧
      behaviour.stopping ≤ shutdown
  removing : behaviour.removing ≤ workspaceRemovalTimeoutSeconds

/-- What a state may take. -/
def cost (childTimeout : ℚ) (config : RepositoryForkMatrixStateConfig)
    (behaviour : StateBehaviour) : ℚ :=
  attemptsCost childTimeout behaviour.attempts + (behaviour.starting + behaviour.entering +
    behaviour.finishing + behaviour.sealing) + workspaceRemovalTimeoutSeconds + cleanCost config

end StateBehaviour

/-- No check of a state fires, and its attempts end as their dependencies do. -/
structure UndisturbedState (behaviour : StateBehaviour) (result : StateResult) : Prop where
  fired : result.fired = []
  attempts : result.attempts.map (fun attempt => (attempt.status, attempt.fired)) =
    undisturbedAttempts (behaviour.origin = .endpoint) behaviour.attempts

section States

variable {suite : RepositoryForkSuiteConfig} (notNever : 0 < suite.totalTimeoutSeconds)

include notNever

theorem StateBehaviour.Timely.cost_nonneg {config : RepositoryForkMatrixStateConfig}
    {behaviour : StateBehaviour} (timely : behaviour.Timely suite config) :
    0 ≤ behaviour.cost suite.totalTimeoutSeconds config := by
  have nonneg := timely.nonneg
  simp only [List.forall_mem_cons, List.not_mem_nil, false_implies, implies_true, and_true]
    at nonneg
  obtain ⟨starting, launching, entering, finishing, stopping, sealing', removing⟩ := nonneg
  have attempts := attemptsCost_nonneg timely.attempts notNever
  have removal : (0 : ℚ) < workspaceRemovalTimeoutSeconds := by decide
  rw [StateBehaviour.cost]
  cases config with
  | pinned stateId =>
      rw [cleanCost]
      linarith
  | clean stateId startup shutdown =>
      obtain ⟨launched, stopped⟩ := timely.clean stateId startup shutdown rfl
      rw [cleanCost]
      linarith

theorem executeState_undisturbed {config : RepositoryForkMatrixStateConfig}
    {behaviour : StateBehaviour} (absoluteDeadline now : ℚ) (timely : behaviour.Timely suite config)
    (enough : now + behaviour.cost suite.totalTimeoutSeconds config +
      matrixRootCleanupReserveSeconds ≤ absoluteDeadline) :
    UndisturbedState behaviour (executeState suite.totalTimeoutSeconds absoluteDeadline config
        behaviour now) ∧
      (executeState suite.totalTimeoutSeconds absoluteDeadline config behaviour now).finished ≤
        now + behaviour.cost suite.totalTimeoutSeconds config := by
  have nonneg := timely.nonneg
  simp only [List.forall_mem_cons, List.not_mem_nil, false_implies, implies_true, and_true]
    at nonneg
  obtain ⟨starting, launching, entering, finishing, stopping, sealing', removing⟩ := nonneg
  have removed := timely.removing
  have attempts := attemptsCost_nonneg timely.attempts notNever
  have reserve : schedulingSlackSeconds ≤ matrixRootCleanupReserveSeconds := by decide +kernel
  have root : (0 : ℚ) < matrixRootCleanupReserveSeconds := by decide
  have removal : (0 : ℚ) < workspaceRemovalTimeoutSeconds := by decide
  rw [StateBehaviour.cost] at enough ⊢
  unfold executeState
  dsimp only
  cases config with
  | pinned stateId =>
      have noLease : cleanCost (.pinned stateId) = 0 := rfl
      rw [noLease] at enough ⊢
      obtain ⟨statuses, finished⟩ := executeAttempts_undisturbed absoluteDeadline
        (now + behaviour.starting + behaviour.entering) (behaviour.origin = .endpoint)
        timely.attempts notNever (by linarith)
      exact ⟨⟨rfl, statuses⟩, by dsimp only; linarith⟩
  | clean stateId startup shutdown =>
      obtain ⟨launched, stopped⟩ := timely.clean stateId startup shutdown rfl
      have lease : cleanCost (.clean stateId startup shutdown) =
          versionAttestationTimeoutSeconds + startup + shutdown := rfl
      rw [lease] at enough ⊢
      dsimp only
      have beforeStart : ¬absoluteDeadline ≤ now + behaviour.starting + shutdown := by linarith
      rw [if_neg beforeStart]
      obtain ⟨statuses, finished⟩ := executeAttempts_undisturbed (absoluteDeadline - shutdown)
        (now + behaviour.starting + behaviour.launching + behaviour.entering)
        (behaviour.origin = .endpoint) timely.attempts notNever (by linarith)
      refine ⟨⟨rfl, statuses⟩, ?_⟩
      have stops : (if behaviour.origin = .nothing then 0 else behaviour.stopping) ≤ shutdown := by
        split
        · linarith
        · exact stopped
      dsimp only
      linarith

/-- Before each state there is time for it, for all states after it and for the root. -/
theorem executeStates_undisturbed
    {run : List (RepositoryForkMatrixStateConfig × StateBehaviour)} (absoluteDeadline now : ℚ)
    (timely : ∀ entry ∈ run, entry.2.Timely suite entry.1)
    (enough : now + (run.map fun entry => entry.2.cost suite.totalTimeoutSeconds entry.1).sum +
      matrixRootCleanupReserveSeconds ≤ absoluteDeadline) :
    List.Forall₂ (fun entry result => UndisturbedState entry.2 result) run
      (executeStates suite.totalTimeoutSeconds absoluteDeadline run now) := by
  induction run generalizing now with
  | nil => exact .nil
  | cons entry run ih =>
      obtain ⟨first, rest⟩ := List.forall_mem_cons.mp timely
      have later : 0 ≤ (run.map fun entry =>
          entry.2.cost suite.totalTimeoutSeconds entry.1).sum := by
        refine List.sum_nonneg fun cost listed => ?_
        obtain ⟨entry, member, rfl⟩ := List.mem_map.mp listed
        exact (rest entry member).cost_nonneg notNever
      rw [List.map_cons, List.sum_cons] at enough
      obtain ⟨undisturbed, finished⟩ := executeState_undisturbed notNever absoluteDeadline now
        first (by linarith)
      exact .cons undisturbed (ih _ rest (by linarith))

end States

/-! ## The budget -/

/-- What the validators of the configuration demand of a matrix. -/
structure RepositoryForkSuiteConfig.IsCanonical (suite : RepositoryForkSuiteConfig) : Prop where
  states : 2 ≤ suite.forkMatrixStates.length ∧ suite.forkMatrixStates.length ≤ maxForkMatrixStates
  repetitions : 2 ≤ suite.forkMatrixRepetitions ∧
    suite.forkMatrixRepetitions ≤ maxForkMatrixRepetitions
  ordered : (suite.forkMatrixStates.map (·.stateId)).Pairwise (· < ·)
  child : 0 < suite.totalTimeoutSeconds ∧ suite.totalTimeoutSeconds ≤ maxChildSuiteTimeoutSeconds
  clean : ∃ startup shutdown, cleanTimeouts suite.forkMatrixStates = [(startup, shutdown)] ∧
    (0 < startup ∧ startup ≤ maxCleanStartupTimeoutSeconds) ∧
    0 < shutdown ∧ shutdown ≤ maxCleanShutdownTimeoutSeconds

theorem matrixTimeoutControl_of_bounds {value maximum : ℚ} (name : String)
    (positive : 0 < value) (bounded : value ≤ maximum) :
    matrixTimeoutControl value name maximum = .ok value := by
  have kept : ¬(value ≤ 0 ∨ maximum < value) := by
    rintro (low | high)
    · exact absurd low (not_le.mpr positive)
    · exact absurd high (not_lt.mpr bounded)
  rw [matrixTimeoutControl, raiseIf_bind_of_not kept]
  rfl

theorem dedup_insertionSort_of_ordered {ids : List String} (ordered : ids.Pairwise (· < ·)) :
    ids.dedup.insertionSort (· ≤ ·) = ids := by
  rw [List.Nodup.dedup (ordered.imp ne_of_lt)]
  exact (ordered.imp le_of_lt).insertionSort_eq

/-- The budget that the function returns. -/
def budgetOf (suite : RepositoryForkSuiteConfig) (startup shutdown : ℚ) : ℚ :=
  (suite.forkMatrixStates.length * suite.forkMatrixRepetitions : ℕ) *
      (suite.totalTimeoutSeconds + perAttemptMatrixOverheadSeconds) +
    suite.forkMatrixStates.length * workspaceRemovalTimeoutSeconds +
    matrixRootCleanupReserveSeconds + versionAttestationTimeoutSeconds + startup + shutdown +
    matrixOrchestrationSlackSeconds

theorem RepositoryForkSuiteConfig.IsCanonical.budget_eq {suite : RepositoryForkSuiteConfig}
    (canonical : suite.IsCanonical) :
    ∃ startup shutdown, cleanTimeouts suite.forkMatrixStates = [(startup, shutdown)] ∧
      repositoryForkMatrixTimeoutBudgetSeconds suite = .ok (budgetOf suite startup shutdown) := by
  obtain ⟨states, repetitions, ordered, child, startup, shutdown, timeouts, starts, stops⟩ :=
    canonical
  refine ⟨startup, shutdown, timeouts, ?_⟩
  have overhead : (0 : ℚ) < perAttemptMatrixOverheadSeconds := by decide +kernel
  have removal : (0 : ℚ) < workspaceRemovalTimeoutSeconds := by decide
  have root : (0 : ℚ) < matrixRootCleanupReserveSeconds := by decide
  have attestation : (0 : ℚ) < versionAttestationTimeoutSeconds := by decide
  have slack : (0 : ℚ) < matrixOrchestrationSlackSeconds := by decide
  have someAttempts : (1 : ℚ) ≤
      (suite.forkMatrixStates.length * suite.forkMatrixRepetitions : ℕ) := by
    exact_mod_cast Nat.mul_pos (by omega : 0 < _) (by omega : 0 < _)
  have manyAttempts : ((suite.forkMatrixStates.length * suite.forkMatrixRepetitions : ℕ) : ℚ) ≤
      maxForkMatrixStates * maxForkMatrixRepetitions := by
    exact_mod_cast Nat.mul_le_mul states.2 repetitions.2
  have manyStates : (suite.forkMatrixStates.length : ℚ) ≤ maxForkMatrixStates := by
    exact_mod_cast states.2
  have aboveChild : suite.totalTimeoutSeconds < budgetOf suite startup shutdown := by
    have attempts := mul_le_mul_of_nonneg_right someAttempts
      (by linarith : 0 ≤ suite.totalTimeoutSeconds + perAttemptMatrixOverheadSeconds)
    have removals := mul_nonneg (Nat.cast_nonneg (α := ℚ) suite.forkMatrixStates.length)
      removal.le
    rw [budgetOf]
    linarith
  have belowMaximum : budgetOf suite startup shutdown ≤ maxForkMatrixTimeoutBudgetSeconds := by
    have attempts : (suite.forkMatrixStates.length * suite.forkMatrixRepetitions : ℕ) *
          (suite.totalTimeoutSeconds + perAttemptMatrixOverheadSeconds) ≤
        (maxForkMatrixStates * maxForkMatrixRepetitions : ℚ) *
          (maxChildSuiteTimeoutSeconds + perAttemptMatrixOverheadSeconds) :=
      mul_le_mul manyAttempts (by linarith) (by linarith) (by positivity)
    have removals := mul_le_mul_of_nonneg_right manyStates removal.le
    rw [budgetOf, maxForkMatrixTimeoutBudgetSeconds]
    linarith
  unfold repositoryForkMatrixTimeoutBudgetSeconds
  dsimp only
  rw [raiseIf_bind_of_not (by simp [states, repetitions]), timeouts]
  dsimp only
  rw [dedup_insertionSort_of_ordered ordered, raiseIf_bind_of_not (by simp),
    matrixTimeoutControl_of_bounds _ child.1 child.2, bind_of_ok rfl,
    matrixTimeoutControl_of_bounds _ starts.1 starts.2, bind_of_ok rfl,
    matrixTimeoutControl_of_bounds _ stops.1 stops.2, bind_of_ok rfl]
  rw [← budgetOf, raiseIf_bind_of_not]
  · rfl
  · rintro (low | high)
    · exact absurd low (not_le.mpr aboveChild)
    · exact absurd high (not_lt.mpr belowMaximum)

/-! ## What all states may take -/

theorem attemptsCost_eq (childTimeout : ℚ) (behaviours : List AttemptBehaviour) :
    attemptsCost childTimeout behaviours =
      behaviours.length * (childTimeout + 3 * observationTimeoutSeconds +
        bridgeShutdownReserveSeconds) + (behaviours.map AttemptBehaviour.otherWork).sum := by
  induction behaviours with
  | nil => simp [attemptsCost]
  | cons behaviour behaviours ih =>
      rw [attemptsCost, List.map_cons, List.sum_cons, ← attemptsCost, ih, AttemptBehaviour.cost,
        List.length_cons, List.map_cons, List.sum_cons]
      push_cast
      ring

/-- Only the clean states have a launcher. -/
theorem sum_map_cleanCost (states : List RepositoryForkMatrixStateConfig) :
    (states.map cleanCost).sum = ((cleanTimeouts states).map fun timeouts =>
      versionAttestationTimeoutSeconds + timeouts.1 + timeouts.2).sum := by
  induction states with
  | nil => rfl
  | cons config states ih =>
      rw [List.map_cons, List.sum_cons, ih]
      cases config <;> simp [cleanCost, cleanTimeouts]

theorem sum_map_cost {suite : RepositoryForkSuiteConfig}
    {run : List (RepositoryForkMatrixStateConfig × StateBehaviour)}
    (timely : ∀ entry ∈ run, entry.2.Timely suite entry.1) :
    (run.map fun entry => entry.2.cost suite.totalTimeoutSeconds entry.1).sum =
      run.length * (suite.forkMatrixRepetitions * (suite.totalTimeoutSeconds +
        3 * observationTimeoutSeconds + bridgeShutdownReserveSeconds) +
        workspaceRemovalTimeoutSeconds) +
      (run.map fun entry => entry.2.otherWork).sum + ((run.map Prod.fst).map cleanCost).sum := by
  induction run with
  | nil => simp
  | cons entry run ih =>
      obtain ⟨first, rest⟩ := List.forall_mem_cons.mp timely
      have attempts := attemptsCost_eq suite.totalTimeoutSeconds entry.2.attempts
      rw [first.repetitions] at attempts
      rw [List.map_cons, List.sum_cons, ih rest, StateBehaviour.cost, attempts, List.map_cons,
        List.sum_cons, List.map_cons, List.map_cons, List.sum_cons, List.length_cons,
        StateBehaviour.otherWork]
      push_cast
      ring

/-- A matrix that starts with its budget is never disturbed by its deadline: in every state, in
its order and of either kind, no check fires, and the attempts end as their dependencies do. -/
theorem no_deadline_check_fires {suite : RepositoryForkSuiteConfig}
    (canonical : suite.IsCanonical) :
    ∃ budget, repositoryForkMatrixTimeoutBudgetSeconds suite = .ok budget ∧
      ∀ (start absoluteDeadline : ℚ)
        (run : List (RepositoryForkMatrixStateConfig × StateBehaviour)),
        budget ≤ absoluteDeadline - start →
        run.map Prod.fst = suite.forkMatrixStates →
        (∀ entry ∈ run, entry.2.Timely suite entry.1) →
        (run.map fun entry => entry.2.otherWork).sum ≤
          (suite.forkMatrixStates.length * suite.forkMatrixRepetitions : ℕ) *
            schedulingSlackSeconds + matrixOrchestrationSlackSeconds →
        List.Forall₂ (fun entry result => UndisturbedState entry.2 result) run
          (executeStates suite.totalTimeoutSeconds absoluteDeadline run start) := by
  obtain ⟨startup, shutdown, timeouts, returned⟩ := canonical.budget_eq
  refine ⟨_, returned, fun start absoluteDeadline run covered configs timely otherWork => ?_⟩
  have states : run.length = suite.forkMatrixStates.length := by
    rw [← configs, List.length_map]
  have clean : ((run.map Prod.fst).map cleanCost).sum =
      versionAttestationTimeoutSeconds + startup + shutdown := by
    rw [configs, sum_map_cleanCost, timeouts]
    simp
  refine executeStates_undisturbed canonical.child.1 absoluteDeadline start timely ?_
  rw [sum_map_cost timely, clean, states]
  rw [budgetOf, perAttemptMatrixOverheadSeconds] at covered
  push_cast at covered otherWork
  linarith

/-- A clean and a pinned state, with two attempts each. -/
def sampleSuite : RepositoryForkSuiteConfig where
  totalTimeoutSeconds := 900
  forkMatrixStates := [.clean "local" 15 10, .pinned "mainnet"]
  forkMatrixRepetitions := 2

/-- An attempt that takes all its time. -/
def slowAttempt : AttemptBehaviour where
  preparing := 1 / 10
  entering := 0
  observing := 5
  observed := .identity
  opening := 0
  bridging := 5
  created := .returned
  bridged := .returned
  equipping := 0
  equipped := .returned
  running := 900
  child := .returned
  closing := 0
  stopping := 1
  leaving := 0
  revalidating := 0
  reobserving := 5
  recording := 0

def slowState : StateBehaviour where
  starting := 1 / 2
  launching := 18
  origin := .endpoint
  entering := 0
  attempts := [slowAttempt, slowAttempt]
  finishing := 0
  stopping := 10
  sealing := 0
  removing := 5

theorem slowState_undisturbed : ∃ budget,
    repositoryForkMatrixTimeoutBudgetSeconds sampleSuite = .ok budget ∧
      List.Forall₂ (fun entry result => UndisturbedState entry.2 result)
        (sampleSuite.forkMatrixStates.map fun config => (config, slowState))
        (executeStates 900 budget
          (sampleSuite.forkMatrixStates.map fun config => (config, slowState)) 0) := by
  have canonical : sampleSuite.IsCanonical :=
    ⟨by decide, by decide, by decide, by decide +kernel, 15, 10, rfl, by decide +kernel,
      by decide +kernel⟩
  obtain ⟨budget, returned, undisturbed⟩ := no_deadline_check_fires canonical
  refine ⟨budget, returned, undisturbed 0 budget _ (by simp) rfl ?_ (by decide +kernel)⟩
  have attempts : slowAttempt.Timely 900 := by
    constructor <;> decide +kernel
  intro entry listed
  obtain ⟨config, member, rfl⟩ := List.mem_map.mp listed
  dsimp only
  clear listed
  refine ⟨?_, rfl, ?_, ?_, ?_⟩
  · decide +kernel
  · intro attempt listed
    obtain rfl : attempt = slowAttempt := by simpa [slowState] using listed
    exact attempts
  · rintro stateId startup shutdown rfl
    obtain ⟨rfl, rfl, rfl⟩ : stateId = "local" ∧ startup = 15 ∧ shutdown = 10 := by
      simpa [sampleSuite] using member
    decide +kernel
  · decide +kernel

end ForkMatrix

end MmAudit
