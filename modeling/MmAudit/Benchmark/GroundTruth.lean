import MmAudit.Consensus.Merging

/-!
# The ground truth of the benchmark, and what counts as recognised

A manifest binds each of its cases to the hash of a whole source file, and
`validate_benchmark_ground_truth` checks these hashes against the files.  The pipeline
validates the locations of its candidates against the hash of their lines.  The matcher of
the benchmark compares the hash of a location with the hash of the case.
-/

namespace MmAudit

namespace Benchmark

open Context Consensus TextLines
open Ignore (Path)

section Model

variable {Digest : Type}

/-! ## The manifest -/

structure BenchmarkRepository where
  repositoryId : String
  sourceRoot : List Char
deriving DecidableEq, Repr

inductive Variant where
  | vulnerable
  | safe
  | ambiguous
deriving DecidableEq, Repr

structure BenchmarkCase (Digest : Type) where
  id : String
  repositoryId : String
  variant : Variant
  category : String
  path : List Char
  startLine : ℕ
  endLine : ℕ
  sourceSha256 : Digest
  minimumSeverity : Severity
  positive : 1 ≤ startLine
  ordered : startLine ≤ endLine
deriving Repr

instance {Digest : Type} [DecidableEq Digest] : DecidableEq (BenchmarkCase Digest) :=
  fun first second =>
    decidable_of_iff (first.id = second.id ∧ first.repositoryId = second.repositoryId ∧
      first.variant = second.variant ∧ first.category = second.category ∧
      first.path = second.path ∧ first.startLine = second.startLine ∧
      first.endLine = second.endLine ∧ first.sourceSha256 = second.sourceSha256 ∧
      first.minimumSeverity = second.minimumSeverity) (by cases first; cases second; simp)

/-- A manifest that passed its validators. -/
structure BenchmarkManifest (Digest : Type) where
  repositories : List BenchmarkRepository
  cases : List (BenchmarkCase Digest)
  repositories_sorted : (repositories.map (·.repositoryId)).Pairwise (· < ·)
  cases_sorted : (cases.map (·.id)).Pairwise (· < ·)
  repositories_covered : ∀ repositoryId,
    repositoryId ∈ cases.map (·.repositoryId) ↔ repositoryId ∈ repositories.map (·.repositoryId)
  hashes_agree : ∀ case ∈ cases, ∀ other ∈ cases, case.repositoryId = other.repositoryId →
    case.path = other.path → case.sourceSha256 = other.sourceSha256
  some_vulnerable : ∃ case ∈ cases, case.variant = .vulnerable
  safe_controls : ∀ case ∈ cases, case.variant = .vulnerable →
    ∃ control ∈ cases, control.variant = .safe ∧ control.category = case.category

/-! ## The ground truth -/

/-- What lies under a path of the workspace of the benchmark. -/
inductive WorkspaceEntry where
  | link
  | unresolved
  | notRegular
  | file (shared : Bool) (data : List UInt8)
deriving DecidableEq, Repr

/-- The directories of the workspace, and the files below them. -/
structure Workspace where
  directory : List Char → Option (Path → WorkspaceEntry)

structure BenchmarkGroundTruthBinding (Digest : Type) where
  repositoryId : String
  path : List Char
  sha256 : Digest
  size : ℕ
  lineCount : ℕ
  caseIds : List String
deriving DecidableEq, Repr

/-- `_resolve_ground_truth_path` for a source, and the metadata that follow. -/
def resolveGroundTruthSource (control : Char → Bool) (tree : Path → WorkspaceEntry)
    (path : List Char) : Except ValueError (List UInt8) :=
  match normalizeRelativePath control path with
  | none => .error ⟨"path is not a supported relative path"⟩
  | some path =>
      match tree path with
      | .link => .error ⟨"benchmark ground-truth paths may not be links"⟩
      | .unresolved => .error ⟨"benchmark ground-truth source does not resolve"⟩
      | .notRegular => .error ⟨"benchmark ground-truth source must be a regular file"⟩
      | .file shared data =>
          if shared || decide (10000000 < data.length) then
            .error ⟨"benchmark ground-truth source must be bounded and unshared"⟩
          else
            .ok data

variable (source : Syntax Digest) (control : Char → Bool) [DecidableEq Digest]

/-- One turn of the loop over the sources. -/
def bindSource (tree : Path → WorkspaceEntry) (cases : List (BenchmarkCase Digest))
    (repositoryId : String) (path : List Char) :
    Except ValueError (BenchmarkGroundTruthBinding Digest) := do
  let contents ← resolveGroundTruthSource control tree path
  let observedSha256 := source.sha256 contents
  Fallible.raiseIf ((cases.head?.map (·.sourceSha256)) ≠ some observedSha256)
    ⟨"benchmark ground-truth source hash changed for " ++ repositoryId ++ "/" ++
      String.ofList path⟩
  Fallible.raiseIf (encode (decode contents) ≠ contents)
    ⟨"'utf-8' codec can't decode the contents"⟩
  let lineCount := (splitLines (decode contents)).length
  Fallible.raiseIf (cases.any fun case => decide (lineCount < case.endLine))
    ⟨"benchmark ground-truth source range changed for " ++ repositoryId ++ "/" ++
      String.ofList path⟩
  return { repositoryId, path, sha256 := observedSha256, size := contents.length, lineCount,
           caseIds := (cases.map (·.id)).insertionSort (· ≤ ·) }

/-- The sources of the cases, in order. -/
def sourcesOf (manifest : BenchmarkManifest Digest) : List (String ×ₗ List Char) :=
  ((manifest.cases.map fun case => (toLex (case.repositoryId, case.path) :
    String ×ₗ List Char)).dedup).insertionSort (· ≤ ·)

def casesOf (manifest : BenchmarkManifest Digest) (repositoryId : String) (path : List Char) :
    List (BenchmarkCase Digest) :=
  manifest.cases.filter fun case => case.repositoryId = repositoryId && case.path = path

/-- `validate_benchmark_ground_truth` -/
def validateBenchmarkGroundTruth (manifest : BenchmarkManifest Digest) (workspace : Workspace) :
    Except ValueError (List (BenchmarkGroundTruthBinding Digest)) := do
  let trees ← manifest.repositories.mapM fun repository =>
    match normalizeRelativePath control repository.sourceRoot, workspace.directory
        repository.sourceRoot with
    | some _, some tree => .ok (repository.repositoryId, tree)
    | _, _ => .error ⟨"benchmark repository source root must be a directory"⟩
  (sourcesOf manifest).mapM fun key =>
    match trees.find? (·.1 = (ofLex key).1) with
    | none => .error ⟨"KeyError: " ++ (ofLex key).1⟩
    | some tree => bindSource source control tree.2
        (casesOf manifest (ofLex key).1 (ofLex key).2) (ofLex key).1 (ofLex key).2

/-! ## Validation of a candidate -/

variable (texts : Texts Digest) (lower : List Char → List Char)

/-- The one line of a source or a sink. -/
def endpointLocation (endpoint : SourceSink) : Location Digest where
  path := endpoint.path
  startLine := endpoint.line
  endLine := endpoint.line
  symbol := none
  contentHash := none
  positive := endpoint.positive
  ordered := le_rfl

/-- The errors of a location or an endpoint, with its place before each of them. -/
def placedErrors (path : List Char) (line : ℕ) (errors : List String) : List String :=
  errors.map fun error => String.ofList path ++ ":" ++ toString line ++ ": " ++ error

/-- `validate_candidate` -/
def validateCandidate (repository : Context.Repository) (candidate : CandidateFinding Digest)
    (contextHashes : Dict HashKey Digest) : LocationValidation Digest :=
  let validate := fun location =>
    validateLocation texts.source lower control repository location (some contextHashes)
  let endpoints := candidate.source.toList ++ candidate.sink.toList
  let errors :=
    (candidate.locations.flatMap fun location =>
      placedErrors location.path location.startLine (validate location).errors) ++
    endpoints.flatMap fun endpoint =>
      placedErrors endpoint.path endpoint.line (validate (endpointLocation endpoint)).errors
  let hashes := candidate.locations.filterMap fun location => (validate location).contentHash
  { valid := errors.isEmpty
    contentHash := if hashes.isEmpty then none
      else some (texts.source.hashText (joinHashes texts hashes))
    errors := errors }

/-! ## The matcher -/

variable (finding : Finding Digest) (case : BenchmarkCase Digest)

/-- `_hash_validated_case_locations` -/
def hashValidatedCaseLocations : List (Location Digest) :=
  if finding.locationValidation.valid then
    finding.locations.filter fun location => location.path = case.path &&
      location.contentHash.or finding.locationValidation.contentHash = some case.sourceSha256
  else
    []

/-- `_matches_case` -/
def matchesCase : Bool :=
  (hashValidatedCaseLocations finding case).any fun location =>
    decide (location.startLine ≤ case.endLine) && decide (case.startLine ≤ location.endLine)

/-- `_matches_case_exactly` -/
def matchesCaseExactly : Bool :=
  (hashValidatedCaseLocations finding case).any fun location =>
    location.startLine == case.startLine && location.endLine == case.endLine

omit [DecidableEq Digest] in
/-- `_finding_is_active` -/
def findingIsActive : Bool :=
  !([FindingStatus.rejected, .unsupported, .insufficientContext].contains finding.status)

end Model

end Benchmark

end MmAudit
