import MmAudit.Isolation.Sources
import Mathlib.Algebra.BigOperators.Group.List.Basic

/-!
# The evidence of a preparation

The records that a preparation returns, with their validators: the evidence on one package,
the findings of the advisory scan, the bill of materials and the result itself.

The serial number of a bill of materials, which nothing here reads, is left out.
-/

namespace MmAudit

namespace Dependencies

open Fallible

inductive DependencyPreparationStatus where
  | disabled
  | notApplicable
  | prepared
  | rejected
  | failed
deriving DecidableEq, Repr

/-- Between one and so many characters. -/
def isBounded (limit : ℕ) (text : List Char) : Bool :=
  decide (1 ≤ text.length ∧ text.length ≤ limit)

structure DependencyPackageEvidence (Digest : Type) where
  name : List Char
  version : List Char
  lockPath : List Char
  integrity : List Char
  treeSha256 : Digest
  purl : List Char
  fileCount : ℕ
  totalBytes : ℕ
deriving DecidableEq

structure DependencyAdvisoryFinding where
  advisoryId : List Char
  packageName : List Char
  version : List Char
  severity : Severity
  summary : List Char
deriving DecidableEq

structure DependencySbomComponent (Digest : Type) where
  bomRef : List Char
  name : List Char
  version : List Char
  purl : List Char
  sha256 : Digest
  integrity : List Char
deriving DecidableEq

structure DependencySbom (Digest : Type) where
  projectRoot : List Char
  lockfileSha256 : Digest
  snapshotSha256 : Digest
  components : List (DependencySbomComponent Digest)
deriving DecidableEq

structure DependencyPreparationResult (Digest : Type) where
  status : DependencyPreparationStatus
  projectRoot : List Char
  lockfilePath : Option (List Char)
  lockfileSha256 : Option Digest
  snapshotSha256 : Option Digest
  packages : List (DependencyPackageEvidence Digest)
  scanStatus : DependencyScanStatus
  scanFindings : List DependencyAdvisoryFinding
  checks : List (String × Bool)
  copiedFiles : ℕ
  copiedBytes : ℕ
  preparedPath : Option (List Char)
  errors : List String
deriving DecidableEq

section Validators

variable {Digest : Type}

/-- The field constraints of the evidence on a package. -/
def DependencyPackageEvidence.validate (evidence : DependencyPackageEvidence Digest) :
    Except Failure (DependencyPackageEvidence Digest) := do
  raiseIf (isBounded 214 evidence.name = false ∨ isBounded 128 evidence.version = false ∨
      isBounded 1000 evidence.lockPath = false ∨ matchIntegrity evidence.integrity = none ∨
      256 < evidence.integrity.length ∨ isBounded 1000 evidence.purl = false ∨
      evidence.fileCount < 1 ∨ evidence.totalBytes < 1) validationError
  return evidence

def DependencyAdvisoryFinding.validate (finding : DependencyAdvisoryFinding) :
    Except Failure DependencyAdvisoryFinding := do
  raiseIf (isBounded 200 finding.advisoryId = false ∨ isBounded 214 finding.packageName = false ∨
      isBounded 128 finding.version = false ∨ isBounded 2000 finding.summary = false)
    validationError
  return finding

def DependencySbomComponent.validate (component : DependencySbomComponent Digest) :
    Except Failure (DependencySbomComponent Digest) := do
  raiseIf (isBounded 1000 component.bomRef = false ∨ isBounded 214 component.name = false ∨
      isBounded 128 component.version = false ∨ isBounded 1000 component.purl = false ∨
      matchIntegrity component.integrity = none ∨ 256 < component.integrity.length) validationError
  return component

/-- `components_are_unique_and_sorted` -/
def DependencySbom.validate (sbom : DependencySbom Digest) :
    Except Failure (DependencySbom Digest) := do
  raiseIf (sbom.components = [] ∨ ¬ (sbom.components.map (·.bomRef)).SortedLT) validationError
  return sbom

/-- What a prepared result must not look like. -/
def DependencyPreparationResult.Incomplete (result : DependencyPreparationResult Digest) : Prop :=
  result.lockfilePath = none ∨ result.lockfileSha256.isNone = true ∨
    result.snapshotSha256.isNone = true ∨ result.packages.isEmpty = true ∨
    result.scanStatus ≠ .passed ∨ result.scanFindings ≠ [] ∨ result.checks = [] ∨
    (result.checks.all Prod.snd) = false ∨
    result.copiedFiles ≠ (result.packages.map (·.fileCount)).sum ∨
    result.copiedBytes ≠ (result.packages.map (·.totalBytes)).sum ∨
    result.preparedPath = none ∨ result.errors ≠ []

instance (result : DependencyPreparationResult Digest) : Decidable result.Incomplete :=
  inferInstanceAs (Decidable (_ ∨ _))

/-- `prepared_result_has_complete_evidence` -/
def DependencyPreparationResult.validate (result : DependencyPreparationResult Digest) :
    Except Failure (DependencyPreparationResult Digest) := do
  raiseIf (100 < result.errors.length) validationError
  raiseIf (result.status = .prepared ∧ result.Incomplete) validationError
  raiseIf (result.status ≠ .prepared ∧ result.preparedPath ≠ none) validationError
  raiseIf (result.scanFindings ≠ [] ∧ result.scanStatus ≠ .failed) validationError
  return result

end Validators

/-! ## Results without packages -/

section Unprepared

variable {Digest : Type}

/-- A result on which nothing but its status, its evidence of checks and one error is set. -/
def unpreparedResult (status : DependencyPreparationStatus) (projectRoot : List Char)
    (snapshotSha256 : Option Digest) (scanStatus : DependencyScanStatus)
    (checks : List (String × Bool)) (error : String) : DependencyPreparationResult Digest where
  status := status
  projectRoot := projectRoot
  lockfilePath := none
  lockfileSha256 := none
  snapshotSha256 := snapshotSha256
  packages := []
  scanStatus := scanStatus
  scanFindings := []
  checks := checks
  copiedFiles := 0
  copiedBytes := 0
  preparedPath := none
  errors := [error]

/-- The validator has nothing to say about such a result. -/
theorem validate_unpreparedResult {status : DependencyPreparationStatus}
    (notPrepared : status ≠ .prepared) (projectRoot : List Char) (snapshotSha256 : Option Digest)
    (scanStatus : DependencyScanStatus) (checks : List (String × Bool)) (error : String) :
    (unpreparedResult status projectRoot snapshotSha256 scanStatus checks error).validate =
      .ok (unpreparedResult status projectRoot snapshotSha256 scanStatus checks error) := by
  rw [DependencyPreparationResult.validate, raiseIf_bind_of_not (by simp [unpreparedResult]),
    raiseIf_bind_of_not (fun bad => notPrepared bad.1),
    raiseIf_bind_of_not (by simp [unpreparedResult]),
    raiseIf_bind_of_not (by simp [unpreparedResult])]
  rfl

end Unprepared

end Dependencies

end MmAudit
