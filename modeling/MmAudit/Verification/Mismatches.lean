import MmAudit.Library.SortedSets
import MmAudit.Repository.Locations
import MmAudit.Repository.Walking

/-!
# The mismatches of a run verification

A verification compares the files that a run recorded with the files that are there now.
Three comparisons report into one list: the sources of the manifest, the sources of the
language-capability artifact, and the artifacts of the run.  The list is sorted and becomes
the payload of the verification, whose validators ask for distinct keys.
-/

namespace MmAudit

namespace Verification

open Fallible SortedSets Ignore Discovery Context

/-! ## One mismatch -/

inductive RunVerificationStatus where
  | current
  | stale
deriving DecidableEq, Repr

inductive RunVerificationCategory where
  | manifest
  | source
  | configuration
  | prompt
  | model
  | tool
  | compiler
  | isolation
  | seed
  | corpus
  | harness
  | reproduction
  | coverage
  | artifact
  | certificate
deriving DecidableEq, Repr

def RunVerificationCategory.value : RunVerificationCategory → String
  | .manifest => "manifest"
  | .source => "source"
  | .configuration => "configuration"
  | .prompt => "prompt"
  | .model => "model"
  | .tool => "tool"
  | .compiler => "compiler"
  | .isolation => "isolation"
  | .seed => "seed"
  | .corpus => "corpus"
  | .harness => "harness"
  | .reproduction => "reproduction"
  | .coverage => "coverage"
  | .artifact => "artifact"
  | .certificate => "certificate"

inductive RunVerificationMismatchKind where
  | missing
  | unexpected
  | changed
  | isUnsafe
  | unverifiable
deriving DecidableEq, Repr

def RunVerificationMismatchKind.value : RunVerificationMismatchKind → String
  | .missing => "missing"
  | .unexpected => "unexpected"
  | .changed => "changed"
  | .isUnsafe => "unsafe"
  | .unverifiable => "unverifiable"

/-- The arguments of `RunVerificationMismatch`, before they are validated. -/
structure MismatchFields (Digest : Type) where
  category : RunVerificationCategory
  identifier : List Char
  kind : RunVerificationMismatchKind
  expectedSha256 : Option Digest := none
  observedSha256 : Option Digest := none
  expectedSize : Option ℕ := none
  observedSize : Option ℕ := none
deriving DecidableEq, Repr

/-- A character that no identifier may hold. -/
def unprintable (char : Char) : Bool :=
  decide (char.toNat < 32) || char.toNat == 127

section Mismatch

variable {Digest : Type}

def MismatchFields.validate (fields : MismatchFields Digest) : Except ValueError Unit := do
  raiseIf (fields.identifier.length < 1) ⟨"String should have at least 1 character"⟩
  raiseIf (4096 < fields.identifier.length) ⟨"String should have at most 4096 characters"⟩
  raiseIf (fields.identifier.any unprintable = true)
    ⟨"run-verification identifiers must be printable"⟩
  raiseIf (fields.kind = .missing ∧
      (fields.expectedSha256.isNone = true ∨ fields.observedSha256.isSome = true))
    ⟨"missing run evidence requires only an expected hash"⟩
  raiseIf (fields.kind = .unexpected ∧
      (fields.expectedSha256.isSome = true ∨ fields.observedSha256.isNone = true))
    ⟨"unexpected run evidence requires only an observed hash"⟩
  raiseIf (fields.kind = .changed ∧
      (fields.expectedSha256.isNone = true ∨ fields.observedSha256.isNone = true))
    ⟨"changed run evidence requires expected and observed hashes"⟩

structure RunVerificationMismatch (Digest : Type) extends MismatchFields Digest where
  valid : toMismatchFields.validate = .ok ()

/-- The constructor of `RunVerificationMismatch`. -/
def report (fields : MismatchFields Digest) : Except ValueError (RunVerificationMismatch Digest) :=
  match valid : fields.validate with
  | .ok () => .ok ⟨fields, valid⟩
  | .error error => .error error

/-! ## The payload -/

/-- The keys by which mismatches are sorted and told apart. -/
abbrev SortKey := List Char ×ₗ List Char ×ₗ List Char

def MismatchFields.sortKey (fields : MismatchFields Digest) : SortKey :=
  toLex (fields.category.value.toList, toLex (fields.identifier, fields.kind.value.toList))

/-- The status that belongs to a list of mismatches. -/
def statusOf (mismatches : List (RunVerificationMismatch Digest)) : RunVerificationStatus :=
  if mismatches.isEmpty then .current else .stale

/-- The run identifier and the hash of the manifest were validated with the manifest. -/
structure PayloadFields (Digest : Type) where
  status : RunVerificationStatus
  runId : String
  manifestSha256 : Digest
  mismatches : List (RunVerificationMismatch Digest)

def PayloadFields.validate (fields : PayloadFields Digest) : Except ValueError Unit := do
  raiseIf (200000 < fields.mismatches.length) ⟨"List should have at most 200000 items"⟩
  let keys := fields.mismatches.map fun mismatch => mismatch.sortKey
  raiseIf (keys ≠ sortedSet keys) ⟨"run-verification mismatches must be unique and sorted"⟩
  raiseIf (fields.status ≠ statusOf fields.mismatches)
    ⟨"run-verification status is inconsistent"⟩

structure RunVerificationPayload (Digest : Type) extends PayloadFields Digest where
  valid : toPayloadFields.validate = .ok ()

/-- The constructor of `RunVerificationPayload`. -/
def payload (fields : PayloadFields Digest) : Except ValueError (RunVerificationPayload Digest) :=
  match valid : fields.validate with
  | .ok () => .ok ⟨fields, valid⟩
  | .error error => .error error

end Mismatch

/-! ## What is compared -/

/-- What the verification uses of Python's texts and of its own hashes. -/
structure Texts (Digest : Type) where
  lower : List Char → List Char
  /-- The control, format and surrogate characters beyond the C0 controls. -/
  furtherControl : Char → Bool
  sha256 : List UInt8 → Digest
  /-- `canonical_sha256` on a list of texts. -/
  canonicalSha256 : List (List Char) → Digest
  categories : List Char → List Char → Bool → List String

def Texts.control {Digest : Type} (texts : Texts Digest) (char : Char) : Bool :=
  unprintable char || texts.furtherControl char

section Compared

variable {Digest : Type} (texts : Texts Digest)

/-- The checks of the path of a `ManifestFileBinding`. -/
def boundPath (text : List Char) : Except ValueError Path := do
  raiseIf (text.length < 1) ⟨"String should have at least 1 character"⟩
  raiseIf (4096 < text.length) ⟨"String should have at most 4096 characters"⟩
  match normalizeRelativePath texts.control text with
  | none => .error ⟨"repository path is not supported"⟩
  | some path =>
      if path = [] ∨ isSensitiveWorkspacePath texts.lower path false = true then
        .error ⟨"manifest file path must identify a file"⟩
      else
        .ok path

structure ManifestFileBinding where
  path : Path
  sha256 : Digest
  size : ℕ
  bound : ∃ text, boundPath texts text = .ok path

/-- The constructor of `ManifestFileBinding`. -/
def manifestFileBinding (text : List Char) (sha256 : Digest) (size : ℕ) :
    Except ValueError (ManifestFileBinding texts) :=
  match bound : boundPath texts text with
  | .ok path => .ok ⟨path, sha256, size, text, bound⟩
  | .error error => .error error

/-- The paths are unique and sorted. -/
def SortedPaths (paths : List Path) : Prop :=
  (paths.map Path.text).Pairwise (· < ·)

inductive SchemaVersion where
  | v10
  | v11
  | v12
deriving DecidableEq, Repr

/-- `LANGUAGE_CAPABILITY_ARTIFACT_PATH` -/
def languageCapabilityArtifactPath : List Char :=
  "language-capability.json".toList

structure RunEvidenceManifest where
  schemaVersion : SchemaVersion
  runId : String
  sources : List (ManifestFileBinding texts)
  artifacts : List (ManifestFileBinding texts)
  manifestSha256 : Digest
  fewSources : sources.length ≤ 100000
  fewArtifacts : artifacts.length ≤ 100000
  sourcesSorted : SortedPaths (sources.map fun binding => binding.path)
  artifactsSorted : SortedPaths (artifacts.map fun binding => binding.path)
  capabilityBound : schemaVersion = .v12 →
    ∃ binding ∈ artifacts, binding.path.text = languageCapabilityArtifactPath

/-- `LanguageCapabilityFileEvidence`.  The parts of its path are names. -/
structure LanguageCapabilityFile (Digest : Type) where
  path : Path
  sha256 : Digest
  size : ℕ
  language : String
  nonempty : path ≠ []
  short : path.text.length ≤ 4096

structure LanguageCapabilityArtifact (Digest : Type) where
  files : List (LanguageCapabilityFile Digest)
  omitted : List (List Char)
  effectiveIgnoreRules : List (List Char)
  runtimeOutputExclusionRoot : Option Path
  fewFiles : files.length ≤ 100000
  filesSorted : SortedPaths (files.map fun file => file.path)
  omittedSorted : omitted.Pairwise (· < ·)

end Compared

end Verification

end MmAudit
