import MmAudit.Library.Fallible
import Mathlib.Data.Nat.Notation

/-!
# The accept loop of the read-only RPC bridge

One listener thread accepts connections, handler threads answer them, and callers begin
and end selected-test scopes or stop the bridge.  Each call below is one section of the
source that runs under its locks, and `perform` lets the threads take such sections in
any order.

The accept generation is captured before the listener blocks in `accept`.  A scope
boundary pauses the listener at a checkpoint before it raises the generation, but the
pause has a time limit, so the listener can be back in `accept` when that happens.
-/

namespace MmAudit

namespace Rpc

open Fallible

/-- The limits of a bridge that admission reads, and the digest of a sealed scope. -/
structure BridgeSettings (Identity Digest : Type) where
  maxHttpRequests : ℕ
  maxConcurrentHandlers : ℕ
  admitsOne : 1 ≤ maxHttpRequests
  handlesOne : 1 ≤ maxConcurrentHandlers
  /-- `snapshot_sha256` of a scope, by its identity and its two counts here -/
  snapshotSha256 : Identity → ℕ → ℕ → Digest

/-- The accumulator of a selected-test scope, with the counts that admission changes. -/
structure TestScope (Identity : Type) where
  identity : Identity
  httpRequestCount : ℕ
  limitExceededRequestCount : ℕ
deriving DecidableEq, Repr

/-- The state of `ReadOnlyRpcBridge` that its scope boundary lock and state lock guard. -/
structure Bridge (Identity Digest : Type) where
  acceptGeneration : ℕ
  admissionClosed : Bool
  pendingAcceptedHttpRequestCount : ℕ
  inflightAdmittedHttpRequestCount : ℕ
  activeTestScope : Option (TestScope Identity)
  selectedTestScopeSnapshotSha256s : List Digest
  httpRequestCount : ℕ
  httpAdmissionSaturated : Bool
  limitExceededRequestCount : ℕ
deriving DecidableEq, Repr

namespace Bridge

variable {Identity Digest : Type}

def new : Bridge Identity Digest where
  acceptGeneration := 0
  admissionClosed := false
  pendingAcceptedHttpRequestCount := 0
  inflightAdmittedHttpRequestCount := 0
  activeTestScope := none
  selectedTestScopeSnapshotSha256s := []
  httpRequestCount := 0
  httpAdmissionSaturated := false
  limitExceededRequestCount := 0

/-- `_register_accepted_http_request` -/
def registerAcceptedHttpRequest (bridge : Bridge Identity Digest) : Bridge Identity Digest :=
  { bridge with
    pendingAcceptedHttpRequestCount := bridge.pendingAcceptedHttpRequestCount + 1 }

/-- `_admit_http_request`: whether the request is admitted, and whether admission is to stop. -/
def admitHttpRequest (settings : BridgeSettings Identity Digest) (bridge : Bridge Identity Digest)
    (acceptGeneration : ℕ) : Except String (Bridge Identity Digest × Bool × Bool) := do
  raiseIf (bridge.pendingAcceptedHttpRequestCount < 1)
    "read-only RPC accepted request accounting is inconsistent"
  let bridge := { bridge with
    pendingAcceptedHttpRequestCount := bridge.pendingAcceptedHttpRequestCount - 1 }
  if bridge.admissionClosed || acceptGeneration != bridge.acceptGeneration then
    pure ({ bridge with
      httpRequestCount := bridge.httpRequestCount + 1
      limitExceededRequestCount := bridge.limitExceededRequestCount + 1 }, false, false)
  else if bridge.httpAdmissionSaturated then
    pure (bridge, false, true)
  else
    let count := bridge.httpRequestCount + 1
    let saturated := count == settings.maxHttpRequests
    pure ({ bridge with
      httpRequestCount := count
      inflightAdmittedHttpRequestCount := bridge.inflightAdmittedHttpRequestCount + 1
      activeTestScope := bridge.activeTestScope.map fun scope =>
        { scope with httpRequestCount := scope.httpRequestCount + 1 }
      httpAdmissionSaturated := saturated }, true, saturated)

/-- `_finish_admitted_http_request` -/
def finishAdmittedHttpRequest (bridge : Bridge Identity Digest) :
    Except String (Bridge Identity Digest) := do
  raiseIf (bridge.inflightAdmittedHttpRequestCount < 1)
    "read-only RPC admitted request accounting is inconsistent"
  pure { bridge with
    inflightAdmittedHttpRequestCount := bridge.inflightAdmittedHttpRequestCount - 1 }

/-- `_record_rejection` of a request over a limit. -/
def recordLimitRejection (bridge : Bridge Identity Digest) : Bridge Identity Digest :=
  { bridge with
    limitExceededRequestCount := bridge.limitExceededRequestCount + 1
    activeTestScope := bridge.activeTestScope.map fun scope =>
      { scope with limitExceededRequestCount := scope.limitExceededRequestCount + 1 } }

/-- The section of `stop` that closes admission. -/
def closeAdmission (bridge : Bridge Identity Digest) : Bridge Identity Digest :=
  { bridge with
    activeTestScope := none
    admissionClosed := true
    acceptGeneration := bridge.acceptGeneration + 1 }

end Bridge

/-- The two scope boundaries, with the identity of the selected test. -/
inductive Boundary (Identity : Type) where
  | begin_ (identity : Identity)
  | end_ (identity : Identity)
deriving DecidableEq, Repr

namespace Boundary

variable {Identity Digest : Type} [DecidableEq Identity] [DecidableEq Digest]

/-- The check of the active scope, made before the checkpoint and again after it. -/
def fits (boundary : Boundary Identity) (active : Option (TestScope Identity)) : Bool :=
  match boundary, active with
  | .begin_ _, none => true
  | .begin_ _, some _ => false
  | .end_ _, none => false
  | .end_ identity, some scope => scope.identity = identity

/-- The last section of `begin_selected_test_scope` and `end_selected_test_scope`, unless it
raises. -/
def cross (settings : BridgeSettings Identity Digest) (boundary : Boundary Identity)
    (bridge : Bridge Identity Digest) : Option (Bridge Identity Digest) :=
  match boundary, bridge.activeTestScope with
  | .begin_ identity, none =>
      some { bridge with
        acceptGeneration := bridge.acceptGeneration + 1
        activeTestScope := some ⟨identity, 0, 0⟩ }
  | .begin_ _, some _ => none
  | .end_ _, none => none
  | .end_ identity, some scope =>
      let snapshot := settings.snapshotSha256 scope.identity scope.httpRequestCount
        scope.limitExceededRequestCount
      if scope.identity ≠ identity ∨ snapshot ∈ bridge.selectedTestScopeSnapshotSha256s then
        none
      else
        some { bridge with
          selectedTestScopeSnapshotSha256s := bridge.selectedTestScopeSnapshotSha256s ++ [snapshot]
          activeTestScope := none
          acceptGeneration := bridge.acceptGeneration + 1 }

end Boundary

/-- How far a scope boundary is: its checkpoint registered, delivered, and then the three waits of
`_wait_for_test_scope_boundary_drained`. -/
inductive BoundaryStage where
  | registered
  | delivered
  | acceptedDrained
  | handlersDrained
  | drained
deriving DecidableEq, Repr

/-- Where the listener thread is. -/
inductive Listener where
  /-- in the select of the serve loop -/
  | selecting
  /-- in `get_request`, with the generation it captured -/
  | accepting (generation : ℕ)
  /-- in `process_request`, with the generation of the registered connection -/
  | accepted (generation : ℕ)
  /-- with the answer of `_admit_http_request` -/
  | answered (admitted saturated : Bool)
  /-- about to acquire a handler slot -/
  | dispatching
  /-- about to finish a request that found no handler slot -/
  | refusing
  /-- at a checkpoint that waits for its release -/
  | paused
  | stopped
deriving DecidableEq, Repr

/-- The bridge with its threads. -/
structure System (Identity Digest : Type) where
  bridge : Bridge Identity Digest
  listener : Listener
  boundary : Option (Boundary Identity × BoundaryStage)
  /-- handlers whose connection is active -/
  activeConnections : ℕ
  /-- handlers that left the set of active connections and still hold their slot -/
  leaving : ℕ
  /-- handlers that gave back their slot and have not been counted as finished -/
  finishing : ℕ
  upstreamOperations : ℕ
  upstreamShutdownRequested : Bool
  /-- the thread of `stop_admission` has been started -/
  admissionStopRequested : Bool
  stopAttempted : Bool
  /-- what `_admit_http_request` has answered so far -/
  answers : List (Bool × Bool)
deriving DecidableEq, Repr

/-- The sections that the threads can run next. -/
inductive Action (Identity : Type) where
  /-- `_current_accept_generation` -/
  | captureGeneration
  /-- a connection is accepted and registered -/
  | acceptConnection
  /-- `accept` fails -/
  | acceptFails
  | admitRequest
  /-- `stop_admission` on saturation; then a slot is asked for, or the connection closed -/
  | heedAnswer
  | acquireSlot
  | finishRefused
  /-- a handler leaves the set of active connections -/
  | leaveConnection
  | releaseSlot
  | finishHandler
  | beginUpstream
  | endUpstream
  | requestBoundary (boundary : Boundary Identity)
  /-- the listener accepts the probe of the registered checkpoint -/
  | deliverCheckpoint
  /-- one more of the three waits ends -/
  | waitDrained
  | crossBoundary
  /-- a boundary raises, or runs out of time -/
  | abandonBoundary
  /-- the checkpoint is released, or the wait for its release times out -/
  | resumeListener
  | stopBridge
  /-- `stop_admission` of the cleanup after `stop` -/
  | stopAdmission
  | closeUpstreamResponses
  | stopListening
deriving DecidableEq, Repr

namespace System

variable {Identity Digest : Type} [DecidableEq Identity] [DecidableEq Digest]

/-- A bridge that has just been started. -/
def started : System Identity Digest where
  bridge := Bridge.new
  listener := .selecting
  boundary := none
  activeConnections := 0
  leaving := 0
  finishing := 0
  upstreamOperations := 0
  upstreamShutdownRequested := false
  admissionStopRequested := false
  stopAttempted := false
  answers := []

/-- `_test_scope_boundary_drained` -/
def testScopeBoundaryDrained (system : System Identity Digest) : Bool :=
  system.bridge.pendingAcceptedHttpRequestCount == 0 &&
    system.bridge.inflightAdmittedHttpRequestCount == 0 &&
    system.activeConnections == 0 && system.upstreamOperations == 0

/-- The wait that a boundary is in has ended. -/
def waitEnded (system : System Identity Digest) : BoundaryStage → Option BoundaryStage
  | .delivered =>
      if system.bridge.pendingAcceptedHttpRequestCount = 0 then some .acceptedDrained else none
  | .acceptedDrained => if system.activeConnections = 0 then some .handlersDrained else none
  | .handlersDrained =>
      if system.bridge.inflightAdmittedHttpRequestCount = 0 ∧ system.upstreamOperations = 0 then
        some .drained
      else none
  | _ => none

/-- Handler slots in use. -/
def slotsHeld (system : System Identity Digest) : ℕ :=
  system.activeConnections + system.leaving

/-- Admitted connections that no handler has taken over. -/
def undispatched : Listener → ℕ
  | .answered true _ | .dispatching | .refusing => 1
  | _ => 0

/-- One section of one thread, when the thread can run it. -/
def perform (settings : BridgeSettings Identity Digest) (action : Action Identity)
    (system : System Identity Digest) : Option (System Identity Digest) :=
  match action, system.listener with
  | .captureGeneration, .selecting =>
      some { system with listener := .accepting system.bridge.acceptGeneration }
  | .acceptConnection, .accepting generation =>
      some { system with
        bridge := system.bridge.registerAcceptedHttpRequest
        listener := .accepted generation }
  | .acceptFails, .accepting _ => some { system with listener := .selecting }
  | .admitRequest, .accepted generation =>
      match system.bridge.admitHttpRequest settings generation with
      | .error _ => some { system with listener := .selecting }
      | .ok (bridge, admitted, saturated) =>
          some { system with
            bridge := bridge
            listener := .answered admitted saturated
            answers := system.answers ++ [(admitted, saturated)] }
  | .heedAnswer, .answered admitted saturated =>
      some { system with
        admissionStopRequested := system.admissionStopRequested || saturated
        listener := if admitted then .dispatching else .selecting }
  | .acquireSlot, .dispatching =>
      if system.slotsHeld < settings.maxConcurrentHandlers then
        some { system with
          activeConnections := system.activeConnections + 1
          listener := .selecting }
      else
        some { system with
          bridge := system.bridge.recordLimitRejection
          listener := .refusing }
  | .finishRefused, .refusing =>
      match system.bridge.finishAdmittedHttpRequest with
      | .error _ => some { system with listener := .selecting }
      | .ok bridge => some { system with bridge := bridge, listener := .selecting }
  | .leaveConnection, _ =>
      if 0 < system.activeConnections then
        some { system with
          activeConnections := system.activeConnections - 1
          leaving := system.leaving + 1 }
      else none
  | .releaseSlot, _ =>
      if 0 < system.leaving then
        some { system with leaving := system.leaving - 1, finishing := system.finishing + 1 }
      else none
  | .finishHandler, _ =>
      if 0 < system.finishing then
        match system.bridge.finishAdmittedHttpRequest with
        | .error _ => some { system with finishing := system.finishing - 1 }
        | .ok bridge =>
            some { system with bridge := bridge, finishing := system.finishing - 1 }
      else none
  | .beginUpstream, _ =>
      if 0 < system.activeConnections ∧ system.upstreamShutdownRequested = false then
        some { system with upstreamOperations := system.upstreamOperations + 1 }
      else none
  | .endUpstream, _ =>
      if 0 < system.upstreamOperations then
        some { system with upstreamOperations := system.upstreamOperations - 1 }
      else none
  | .requestBoundary boundary, _ =>
      if system.boundary = none ∧ system.stopAttempted = false ∧
          boundary.fits system.bridge.activeTestScope then
        some { system with boundary := some (boundary, .registered) }
      else none
  | .deliverCheckpoint, .accepting _ =>
      match system.boundary with
      | some (boundary, .registered) =>
          some { system with boundary := some (boundary, .delivered), listener := .paused }
      | _ => none
  | .waitDrained, _ =>
      match system.boundary with
      | some (boundary, stage) =>
          (system.waitEnded stage).map fun next =>
            { system with boundary := some (boundary, next) }
      | none => none
  | .crossBoundary, _ =>
      match system.boundary with
      | some (boundary, .drained) =>
          if system.testScopeBoundaryDrained then
            (boundary.cross settings system.bridge).map fun bridge =>
              { system with bridge := bridge, boundary := none }
          else none
      | _ => none
  | .abandonBoundary, _ =>
      if system.boundary = none then none else some { system with boundary := none }
  | .resumeListener, .paused => some { system with listener := .selecting }
  | .stopBridge, _ =>
      if system.boundary = none ∧ system.stopAttempted = false then
        some { system with bridge := system.bridge.closeAdmission, stopAttempted := true }
      else none
  | .stopAdmission, _ =>
      if system.stopAttempted then some { system with admissionStopRequested := true } else none
  | .closeUpstreamResponses, _ =>
      if system.stopAttempted then some { system with upstreamShutdownRequested := true } else none
  | .stopListening, .selecting =>
      if system.admissionStopRequested then some { system with listener := .stopped } else none
  | _, _ => none

end System

end Rpc

end MmAudit
