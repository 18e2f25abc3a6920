import MmAudit.Library.Fallible
import Mathlib.Algebra.Order.BigOperators.Group.List
import Mathlib.Algebra.Order.Field.Rat
import Mathlib.Data.List.Dedup
import Mathlib.Data.List.Sort
import Mathlib.Data.String.Basic
import Mathlib.Tactic.Linarith

/-!
# The deadlines of the matrix

The states run one after the other, and each repeats its attempts.  A dependency takes some
time and ends in some way; between the calls other work takes time.  Five kinds of checks
compare the clock with the deadline of the matrix, and each one that fires is recorded.

Times are exact.  An exception that leaves the loop ends the matrix, and no check follows it.
-/

namespace MmAudit

namespace ForkMatrix

open Fallible

structure ValueError where
  message : String
deriving DecidableEq, Repr

/-! ## The configuration -/

inductive RepositoryForkMatrixStateConfig where
  | clean (stateId : String) (startupTimeoutSeconds shutdownTimeoutSeconds : ℚ)
  | pinned (stateId : String)
deriving DecidableEq

def RepositoryForkMatrixStateConfig.stateId : RepositoryForkMatrixStateConfig → String
  | .clean stateId _ _ => stateId
  | .pinned stateId => stateId

structure RepositoryForkSuiteConfig where
  totalTimeoutSeconds : ℚ
  forkMatrixStates : List RepositoryForkMatrixStateConfig
  forkMatrixRepetitions : ℕ

def observationTimeoutSeconds : ℚ := 5
def bridgeShutdownReserveSeconds : ℚ := 1
def schedulingSlackSeconds : ℚ := 1 / 10
def workspaceRemovalTimeoutSeconds : ℚ := 5
def versionAttestationTimeoutSeconds : ℚ := 3

def attemptCleanupReserveSeconds : ℚ :=
  observationTimeoutSeconds + bridgeShutdownReserveSeconds + workspaceRemovalTimeoutSeconds +
    schedulingSlackSeconds

def maxForkMatrixStates : ℕ := 8
def maxForkMatrixRepetitions : ℕ := 10
def maxChildSuiteTimeoutSeconds : ℚ := 7200
def maxCleanStartupTimeoutSeconds : ℚ := 15
def maxCleanShutdownTimeoutSeconds : ℚ := 10
def matrixRootCleanupReserveSeconds : ℚ := workspaceRemovalTimeoutSeconds
def matrixOrchestrationSlackSeconds : ℚ := 1

def perAttemptMatrixOverheadSeconds : ℚ :=
  3 * observationTimeoutSeconds + bridgeShutdownReserveSeconds + schedulingSlackSeconds

def maxForkMatrixTimeoutBudgetSeconds : ℚ :=
  maxForkMatrixStates * maxForkMatrixRepetitions *
      (maxChildSuiteTimeoutSeconds + perAttemptMatrixOverheadSeconds) +
    maxForkMatrixStates * workspaceRemovalTimeoutSeconds + matrixRootCleanupReserveSeconds +
    versionAttestationTimeoutSeconds + maxCleanStartupTimeoutSeconds +
    maxCleanShutdownTimeoutSeconds + matrixOrchestrationSlackSeconds

/-- `_matrix_timeout_control`; a number of the configuration is finite. -/
def matrixTimeoutControl (value : ℚ) (name : String) (maximum : ℚ) : Except ValueError ℚ := do
  raiseIf (value ≤ 0 ∨ maximum < value)
    ⟨"The matrix timeout budget " ++ name ++ " was invalid or unbounded."⟩
  return value

/-- The timeouts of the clean states. -/
def cleanTimeouts (states : List RepositoryForkMatrixStateConfig) : List (ℚ × ℚ) :=
  states.filterMap fun
    | .clean _ startup shutdown => some (startup, shutdown)
    | .pinned _ => none

/-- `repository_fork_matrix_timeout_budget_seconds` -/
def repositoryForkMatrixTimeoutBudgetSeconds (suite : RepositoryForkSuiteConfig) :
    Except ValueError ℚ := do
  let states := suite.forkMatrixStates
  let repetitions := suite.forkMatrixRepetitions
  raiseIf (¬(2 ≤ states.length ∧ states.length ≤ maxForkMatrixStates) ∨
      ¬(2 ≤ repetitions ∧ repetitions ≤ maxForkMatrixRepetitions))
    ⟨"The matrix timeout budget state or repetition bound was invalid."⟩
  let stateIds := states.map (·.stateId)
  match cleanTimeouts states with
  | [(startup, shutdown)] => do
      raiseIf (stateIds ≠ stateIds.dedup.insertionSort (· ≤ ·))
        ⟨"The matrix timeout budget states were not canonical."⟩
      let childTimeout ← matrixTimeoutControl suite.totalTimeoutSeconds "child suite timeout"
        maxChildSuiteTimeoutSeconds
      let cleanStartup ← matrixTimeoutControl startup "clean-state startup timeout"
        maxCleanStartupTimeoutSeconds
      let cleanShutdown ← matrixTimeoutControl shutdown "clean-state shutdown timeout"
        maxCleanShutdownTimeoutSeconds
      let attemptCount := states.length * repetitions
      let budget := attemptCount * (childTimeout + perAttemptMatrixOverheadSeconds) +
        states.length * workspaceRemovalTimeoutSeconds + matrixRootCleanupReserveSeconds +
        versionAttestationTimeoutSeconds + cleanStartup + cleanShutdown +
        matrixOrchestrationSlackSeconds
      raiseIf (budget ≤ childTimeout ∨ maxForkMatrixTimeoutBudgetSeconds < budget)
        ⟨"The matrix timeout budget arithmetic overflowed its fixed ceiling."⟩
      return budget
  | _ => .error ⟨"The matrix timeout budget states were not canonical."⟩

/-! ## What the dependencies do -/

/-- How the observer ends. -/
inductive Observation where
  | identity
  | unavailable
  | invalid
deriving DecidableEq

/-- How a call in the `try` statement ends: a `TimeoutError` has a handler of its own. -/
inductive CallEnd where
  | returned
  | timedOut
  | failed
deriving DecidableEq

/-- What takes time in an attempt, in the order of the source, and how each call ends. -/
structure AttemptBehaviour where
  preparing : ℚ
  entering : ℚ
  observing : ℚ
  observed : Observation
  opening : ℚ
  bridging : ℚ
  created : CallEnd
  bridged : CallEnd
  equipping : ℚ
  equipped : CallEnd
  running : ℚ
  child : CallEnd
  closing : ℚ
  stopping : ℚ
  leaving : ℚ
  revalidating : ℚ
  reobserving : ℚ
  recording : ℚ

/-- What the start of a state gives: the lease of a clean state comes without an endpoint when
that cannot be read. -/
inductive Origin where
  | nothing
  | leaseOnly
  | endpoint
deriving DecidableEq

/-- What takes time in a state, in the order of the source. -/
structure StateBehaviour where
  starting : ℚ
  launching : ℚ
  origin : Origin
  entering : ℚ
  attempts : List AttemptBehaviour
  finishing : ℚ
  stopping : ℚ
  sealing : ℚ
  removing : ℚ

/-! ## Attempts -/

/-- The checks of the clock. -/
inductive DeadlineCheck where
  | beforeCleanStart
  | beforeAttempt
  | beforeBridge
  | beforeChild
  | afterBridge
deriving DecidableEq, Repr

inductive AttemptStatus where
  | ran
  | unavailable
  | failed
  | timedOut
deriving DecidableEq, Repr

/-- The status that the `try` statement leaves: a `TimeoutError` of a call looks like the one of
a check. -/
def CallEnd.status : CallEnd → AttemptStatus
  | .returned => .ran
  | .timedOut => .timedOut
  | .failed => .failed

/-- The status of an attempt, the time after it and the checks that fired. -/
structure AttemptResult where
  status : AttemptStatus
  finished : ℚ
  fired : List DeadlineCheck

/-- The `try` statement around the bridge and the child, with its `finally` block. -/
def bridgedRun (childTimeout deadline : ℚ) (behaviour : AttemptBehaviour) (now : ℚ) :
    AttemptResult :=
  if deadline - now ≤ attemptCleanupReserveSeconds then
    ⟨.timedOut, now, [.beforeBridge]⟩
  else
    let bridged := now + behaviour.bridging
    -- Without a bridge there is nothing to stop.
    if behaviour.created ≠ .returned then
      ⟨behaviour.created.status, bridged, []⟩
    else if behaviour.bridged ≠ .returned then
      ⟨behaviour.bridged.status, bridged + behaviour.stopping, []⟩
    else
      let equipped := bridged + behaviour.equipping
      if behaviour.equipped ≠ .returned then
        ⟨behaviour.equipped.status, equipped + behaviour.stopping, []⟩
      else if deadline - equipped < childTimeout + attemptCleanupReserveSeconds then
        ⟨.timedOut, equipped + behaviour.stopping, [.beforeChild]⟩
      else
        ⟨behaviour.child.status,
          equipped + behaviour.running + behaviour.closing + behaviour.stopping, []⟩

/-- One turn of the loop over the attempts. -/
def executeAttempt (childTimeout deadline : ℚ) (hasEndpoint : Bool) (behaviour : AttemptBehaviour)
    (now : ℚ) : AttemptResult :=
  let prepared := now + behaviour.preparing
  if !hasEndpoint then
    ⟨.unavailable, prepared + behaviour.recording, []⟩
  else if deadline ≤ prepared then
    ⟨.timedOut, prepared + behaviour.recording, [.beforeAttempt]⟩
  else
    let observed := prepared + behaviour.entering + behaviour.observing
    match behaviour.observed with
    | .unavailable => ⟨.unavailable, observed + behaviour.recording, []⟩
    | .invalid => ⟨.failed, observed + behaviour.recording, []⟩
    | .identity =>
        let run := bridgedRun childTimeout deadline behaviour (observed + behaviour.opening)
        let left := run.finished + behaviour.leaving
        if deadline ≤ left then
          ⟨.timedOut, left + behaviour.recording, run.fired ++ [.afterBridge]⟩
        else
          ⟨run.status, left + behaviour.revalidating + behaviour.reobserving +
            behaviour.recording, run.fired⟩

/-- The attempts of a state, with the time after them. -/
def executeAttempts (childTimeout deadline : ℚ) (hasEndpoint : Bool) :
    List AttemptBehaviour → ℚ → List AttemptResult × ℚ
  | [], now => ([], now)
  | behaviour :: behaviours, now =>
      let result := executeAttempt childTimeout deadline hasEndpoint behaviour now
      let rest := executeAttempts childTimeout deadline hasEndpoint behaviours result.finished
      (result :: rest.1, rest.2)

/-! ## States -/

/-- The attempts of a state, the check before them and the time after the state. -/
structure StateResult where
  fired : List DeadlineCheck
  attempts : List AttemptResult
  finished : ℚ

/-- `_execute_state_inner` and the removal of the directories of the state. -/
def executeState (childTimeout absoluteDeadline : ℚ) (config : RepositoryForkMatrixStateConfig)
    (behaviour : StateBehaviour) (now : ℚ) : StateResult :=
  let started := now + behaviour.starting
  match config with
  | .pinned _ =>
      let result := executeAttempts childTimeout absoluteDeadline
        (behaviour.origin = .endpoint) behaviour.attempts (started + behaviour.entering)
      ⟨[], result.1, result.2 + behaviour.finishing + behaviour.sealing + behaviour.removing⟩
  | .clean _ _ shutdown =>
      let stateExecutionDeadline := absoluteDeadline - shutdown
      if absoluteDeadline ≤ started + shutdown then
        let result := executeAttempts childTimeout stateExecutionDeadline false
          behaviour.attempts (started + behaviour.entering)
        ⟨[.beforeCleanStart], result.1,
          result.2 + behaviour.finishing + behaviour.sealing + behaviour.removing⟩
      else
        let launched := started + behaviour.launching
        let result := executeAttempts childTimeout stateExecutionDeadline
          (behaviour.origin = .endpoint) behaviour.attempts (launched + behaviour.entering)
        -- Without a lease there is nothing to stop.
        let stopping := if behaviour.origin = .nothing then 0 else behaviour.stopping
        ⟨[], result.1,
          result.2 + behaviour.finishing + stopping + behaviour.sealing + behaviour.removing⟩

/-- The states of the matrix in their order. -/
def executeStates (childTimeout absoluteDeadline : ℚ) :
    List (RepositoryForkMatrixStateConfig × StateBehaviour) → ℚ → List StateResult
  | [], _ => []
  | (config, behaviour) :: states, now =>
      let result := executeState childTimeout absoluteDeadline config behaviour now
      result :: executeStates childTimeout absoluteDeadline states result.finished

end ForkMatrix

end MmAudit
