import MmAudit.Library.Fallible
import Mathlib.Data.List.Sort
import Mathlib.Data.Prod.Lex
import Mathlib.Data.String.Basic

/-!
# Components of an offline replay

An offline replay has one component for each thing that was run again.  The component says
whether the observation matched, drifted, or was blocked; its own validator and the one of
the whole replay check these claims.

Hashes are taken of projections, the parts of the results that do not change from run to run.
-/

namespace MmAudit

namespace Replay

open Fallible

structure ValueError where
  message : String
deriving DecidableEq, Repr

/-! ## Enumerations -/

inductive ReplayComponentKind where
  | scanner
  | savedTest
  | counterexample
  | repositorySuiteDifferential
deriving DecidableEq, Repr

def ReplayComponentKind.value : ReplayComponentKind → String
  | scanner => "scanner"
  | savedTest => "saved_test"
  | counterexample => "counterexample"
  | repositorySuiteDifferential => "repository_suite_differential"

inductive ReplayComponentStatus where
  | matched
  | drifted
  | blocked
deriving DecidableEq, Repr

inductive OfflineReplayStatus where
  | replayed
  | drifted
  | incomplete
deriving DecidableEq, Repr

inductive ExecutionEvidenceKind where
  | real
  | mock
  | unverified
deriving DecidableEq, Repr

/-- The values under the hashes, one shape for each producer. -/
inductive Projection (Details : Type) where
  | scanner (details : Details)
  | absentScanner (name : String)
  | differential (details : Details)
  | configuredDifferential (details : Option Details)
  | invariant (details : Details)
  | harness (details : Details)
  | reproduction (details : Details)
  | specification (details : Details)
deriving DecidableEq, Repr

/-! ## One component -/

structure OfflineReplayComponent (Digest : Type) where
  kind : ReplayComponentKind
  identifier : String
  status : ReplayComponentStatus
  executed : Bool
  executionEvidence : ExecutionEvidenceKind
  isolationBackend : Option String
  isolationAttestationSha256 : Option Digest
  expectedState : String
  observedState : Option String
  expectedSha256 : Digest
  observedSha256 : Option Digest
  limitations : List String
deriving DecidableEq, Repr

/-- No control character. -/
def isPrintable (text : String) : Bool :=
  text.toList.all fun char => decide (32 ≤ char.toNat ∧ char.toNat ≠ 127)

/-- Between one and so many characters. -/
def isBounded (limit : ℕ) (text : String) : Bool :=
  decide (1 ≤ text.toList.length ∧ text.toList.length ≤ limit)

def isText (limit : ℕ) (text : String) : Bool :=
  isBounded limit text && isPrintable text

section Component

variable {Digest : Type} [DecidableEq Digest]

/-- `status_matches_evidence` -/
def OfflineReplayComponent.statusMatchesEvidence (component : OfflineReplayComponent Digest) :
    Except ValueError Unit := do
  raiseIf (component.status = .matched ∧ (component.executed = false ∨
      component.observedState = none ∨
      component.observedSha256 ≠ some component.expectedSha256 ∨ component.limitations ≠ []))
    ⟨"matched replay components require executed identical evidence"⟩
  raiseIf (component.status = .drifted ∧ (component.executed = false ∨
      component.observedState = none ∨ component.observedSha256 = none ∨
      component.observedSha256 = some component.expectedSha256))
    ⟨"drifted replay components require differing executed evidence"⟩
  raiseIf (component.status = .blocked ∧ (component.executed = true ∨ component.limitations = []))
    ⟨"blocked replay components require a limitation and no execution"⟩

/-- The validators of a component. -/
def OfflineReplayComponent.validate (component : OfflineReplayComponent Digest) :
    Except ValueError (OfflineReplayComponent Digest) := do
  raiseIf (isText 1000 component.identifier = false)
    ⟨"offline replay identifiers and states must be printable"⟩
  raiseIf (component.isolationBackend.any (!isBounded 100 ·) = true)
    ⟨"isolation_backend: bad length"⟩
  raiseIf (isText 200 component.expectedState = false)
    ⟨"offline replay identifiers and states must be printable"⟩
  raiseIf (component.observedState.any (!isText 200 ·) = true)
    ⟨"offline replay identifiers and states must be printable"⟩
  raiseIf (20 < component.limitations.length) ⟨"limitations: too long"⟩
  raiseIf (¬ component.limitations.Nodup)
    ⟨"offline replay limitations must be unique and ordered"⟩
  raiseIf (component.limitations.any (!isText 1000 ·) = true)
    ⟨"offline replay limitations must be bounded printable text"⟩
  component.statusMatchesEvidence
  return component

end Component

/-! ## The whole replay -/

/-- Keys are ordered by the value of the kind and then by the identifier. -/
def OfflineReplayComponent.key {Digest : Type} (component : OfflineReplayComponent Digest) :
    ReplayComponentKind × String :=
  (component.kind, component.identifier)

def orderOf (key : ReplayComponentKind × String) : String ×ₗ String :=
  toLex (key.1.value, key.2)

structure OfflineReplayPayload (Digest : Type) where
  status : OfflineReplayStatus
  runId : String
  manifestSha256 : Digest
  runVerificationSha256 : Digest
  components : List (OfflineReplayComponent Digest)
  applicableKinds : List ReplayComponentKind
  missingKinds : List ReplayComponentKind
deriving DecidableEq, Repr

section Payload

variable {Digest : Type} [DecidableEq Digest]

/-- `sorted(set(kinds), key=lambda item: item.value)` -/
def sortedKinds (kinds : List ReplayComponentKind) : List ReplayComponentKind :=
  kinds.dedup.insertionSort fun kind other => kind.value ≤ other.value

/-- The applicable kinds of which no component was executed and matched. -/
def missingKindsOf (applicable : List ReplayComponentKind)
    (components : List (OfflineReplayComponent Digest)) : List ReplayComponentKind :=
  let observed := (components.filter fun component =>
    decide (component.status = .matched) && component.executed).map (·.kind)
  sortedKinds (applicable.filter (· ∉ observed))

def statusOf (components : List (OfflineReplayComponent Digest))
    (missing : List ReplayComponentKind) : OfflineReplayStatus :=
  if components.any (·.status = .drifted) then .drifted
  else if missing ≠ [] ∨ components.any (·.status = .blocked) = true then .incomplete
  else .replayed

/-- The validators of `OfflineReplayPayload`. -/
def OfflineReplayPayload.validate (payload : OfflineReplayPayload Digest) :
    Except ValueError (OfflineReplayPayload Digest) := do
  raiseIf (200000 < payload.components.length) ⟨"components: too long"⟩
  raiseIf (payload.applicableKinds.length < 1 ∨ 4 < payload.applicableKinds.length)
    ⟨"applicable_kinds: bad length"⟩
  raiseIf (4 < payload.missingKinds.length) ⟨"missing_kinds: too long"⟩
  raiseIf (¬ (payload.components.map fun component => orderOf component.key).Pairwise (· < ·))
    ⟨"offline replay components must be unique and sorted"⟩
  raiseIf (payload.missingKinds ≠ sortedKinds payload.missingKinds)
    ⟨"offline replay missing kinds must be unique and sorted"⟩
  raiseIf (payload.applicableKinds ≠ sortedKinds payload.applicableKinds)
    ⟨"offline replay applicable kinds must be unique and sorted"⟩
  raiseIf (payload.missingKinds ≠ missingKindsOf payload.applicableKinds payload.components)
    ⟨"offline replay missing-kind accounting is inconsistent"⟩
  raiseIf (payload.status ≠ statusOf payload.components payload.missingKinds)
    ⟨"offline replay status is inconsistent"⟩
  return payload

end Payload

end Replay

end MmAudit
