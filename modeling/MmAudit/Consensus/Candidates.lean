import MmAudit.Repository.Locations

/-!
# Candidates, decisions and findings

The records that consensus works on.  A candidate was proposed by a model review or comes
from the execution of an invariant; verification and a judge decide on it; a finding is
what a group of candidates is merged into.
-/

namespace MmAudit

namespace Consensus

open Context

/-- What consensus takes from Unicode, and the text of a hash. -/
structure Texts (Digest : Type) where
  source : Syntax Digest
  hex : Digest → String
  lower : String → String
  upper : String → String

structure ValueError where
  message : String
deriving DecidableEq, Repr

/-! ## Enumerations -/

inductive Severity where
  | informational
  | low
  | medium
  | high
  | critical
deriving DecidableEq, Repr

/-- `SEVERITY_ORDER` -/
def Severity.order : Severity → ℕ
  | informational => 0
  | low => 1
  | medium => 2
  | high => 3
  | critical => 4

inductive FindingStatus where
  | confirmed
  | stronglySupported
  | highConfidence
  | plausibleOnly
  | needsReview
  | informational
  | insufficientContext
  | unsupported
  | rejected
deriving DecidableEq, Repr

/-- `_STATUS_RANK` -/
def FindingStatus.rank : FindingStatus → ℕ
  | rejected => 0
  | unsupported => 1
  | insufficientContext => 2
  | informational => 3
  | needsReview => 4
  | plausibleOnly => 5
  | highConfidence => 6
  | stronglySupported => 7
  | confirmed => 8

inductive CandidateOriginKind where
  | modelReview
  | deterministicExecution
deriving DecidableEq, Repr

inductive FindingOriginKind where
  | modelReview
  | deterministicExecution
  | staticAnalyzer
deriving DecidableEq, Repr

inductive EvidenceStrength where
  | none
  | modelInference
  | independentModelSupport
  | validatedAttackPath
  | deterministicAnalyzer
  | deterministicExecutionCounterexample
  | localForkReproduction
  | minimizedLocalForkReproduction
  | formalCounterexample
deriving DecidableEq, Repr

/-- The states that consensus derives. -/
inductive ReproductionState where
  | notAttempted
  | reproduced
  | reproducedAndMinimized
deriving DecidableEq, Repr

def ReproductionState.value : ReproductionState → String
  | notAttempted => "not_attempted"
  | reproduced => "reproduced"
  | reproducedAndMinimized => "reproduced_and_minimized"

inductive VerificationVerdict where
  | verified
  | plausibleOnly
  | rejected
  | insufficientContext
deriving DecidableEq, Repr

inductive EvidenceType where
  | model
  | scanner
  | execution
  | reproduction
  | formal
  | repository
deriving DecidableEq, Repr

/-! ## Records -/

structure SourceSink where
  description : String
  path : List Char
  line : ℕ
  positive : 1 ≤ line
deriving Repr

instance : DecidableEq SourceSink := fun first second =>
  decidable_of_iff (first.description = second.description ∧ first.path = second.path ∧
    first.line = second.line) (by cases first; cases second; simp)

structure Evidence where
  type : EvidenceType
  source : String
  description : String
  ruleId : Option String
  fingerprint : Option String
deriving DecidableEq, Repr

structure VerificationTest where
  description : String
deriving DecidableEq, Repr

structure ModelVote where
  role : String
  requestedModel : String
  returnedModel : Option String
  family : String
  verdict : String
  rationale : String
deriving DecidableEq, Repr

/-- The origin of an execution candidate.  What only enters its own hash stands together. -/
structure InvariantExecutionCandidateProvenance (Digest : Type) where
  invariantId : String
  details : List String
  sourceLocations : List (Location Digest)
  provenanceSha256 : Digest
deriving DecidableEq, Repr

structure CandidateFinding (Digest : Type) where
  candidateId : String
  originKind : CandidateOriginKind
  executionProvenance : Option (InvariantExecutionCandidateProvenance Digest)
  title : String
  severity : Severity
  confidence : ℚ
  cwe : List String
  owasp : List String
  summary : String
  impact : String
  preconditions : List String
  locations : List (Location Digest)
  source : Option SourceSink
  sink : Option SourceSink
  attackPath : List String
  evidence : List Evidence
  compensatingControls : List String
  falsePositiveConditions : List String
  recommendation : String
  verificationTest : VerificationTest
  role : Option String
  modelFamily : Option String
  modelVotes : List ModelVote
deriving DecidableEq, Repr

structure VerificationDecision where
  verdict : VerificationVerdict
  rationale : String
  guardsAndControls : List String
deriving DecidableEq, Repr

structure JudgeDecision where
  status : FindingStatus
  severity : Severity
  confidence : ℚ
  cwe : List String
  owasp : List String
  rationale : String
deriving DecidableEq, Repr

structure ScannerFinding (Digest : Type) where
  scanner : String
  ruleId : String
  message : String
  locations : List (Location Digest)
  cwe : List String
  fingerprint : String
deriving DecidableEq, Repr

structure CandidateGroup (Digest : Type) where
  groupId : String
  candidates : List (CandidateFinding Digest)

/-- `CandidateGroup.execution_candidates` -/
def CandidateGroup.executionCandidates {Digest : Type} (group : CandidateGroup Digest) :
    List (CandidateFinding Digest) :=
  group.candidates.filter (·.originKind = .deterministicExecution)

structure Finding (Digest : Type) where
  id : String
  groupId : String
  originKind : FindingOriginKind
  executionProvenance : List (InvariantExecutionCandidateProvenance Digest)
  title : String
  status : FindingStatus
  severity : Severity
  confidence : ℚ
  cwe : List String
  owasp : List String
  summary : String
  impact : String
  preconditions : List String
  locations : List (Location Digest)
  source : Option SourceSink
  sink : Option SourceSink
  attackPath : List String
  evidence : List Evidence
  compensatingControls : List String
  falsePositiveConditions : List String
  recommendation : String
  verificationTest : VerificationTest
  modelVotes : List ModelVote
  locationValidation : LocationValidation Digest
  disagreement : String
  contributingCandidateIds : List String
  evidenceStrength : EvidenceStrength
  reproductionState : ReproductionState
deriving DecidableEq, Repr

/-! ## The validator of a finding -/

section Validation

variable {Digest : Type} (texts : Texts Digest)

/-- `"".join(sorted(hashes))` -/
def joinHashes (hashes : List Digest) : List Char :=
  ((hashes.map texts.hex).insertionSort (· ≤ ·)).flatMap String.toList

/-- By path, lines, symbol and hash. -/
def locationKey (location : Location Digest) :
    List Char ×ₗ ℕ ×ₗ ℕ ×ₗ List Char ×ₗ List Char :=
  toLex (location.path, toLex (location.startLine, toLex (location.endLine,
    toLex (location.symbol.getD [], (location.contentHash.elim [] fun hash =>
      (texts.hex hash).toList)))))

def sortLocations (locations : List (Location Digest)) : List (Location Digest) :=
  locations.insertionSort fun location other =>
    locationKey texts location ≤ locationKey texts other

/-- The locations of several provenances; of those with one key, the last one. -/
def provenanceLocations (provenances : List (InvariantExecutionCandidateProvenance Digest)) :
    List (Location Digest) :=
  ((provenances.flatMap (·.sourceLocations)).foldl
    (fun byKey location => byKey.insert (locationKey texts location) location) Dict.empty).values

/-- `execution_origin_location_validation_sha256` -/
def executionOriginLocationValidationSha256
    (provenances : List (InvariantExecutionCandidateProvenance Digest)) :
    Except ValueError Digest := do
  let locations := provenanceLocations texts provenances
  Fallible.raiseIf (locations = [])
    ⟨"execution-origin location validation requires source evidence"⟩
  let contentHashes := locations.filterMap (·.contentHash)
  Fallible.raiseIf (contentHashes.length ≠ locations.length)
    ⟨"execution-origin location validation requires content hashes"⟩
  return texts.source.hashText (joinHashes texts contentHashes)

variable [DecidableEq Digest]

/-- The first characters of the hash of a provenance make the ID of its candidate. -/
def executionCandidateId (provenance : InvariantExecutionCandidateProvenance Digest) : String :=
  "exec-" ++ String.ofList ((texts.hex provenance.provenanceSha256).toList.take 24)

/-- `_validate_origin_fields` -/
def Finding.validateOriginFields (finding : Finding Digest) : Except ValueError Unit :=
  if finding.originKind ≠ .deterministicExecution then
    Fallible.raiseIf (finding.executionProvenance ≠ [])
      ⟨"non-execution findings cannot claim execution provenance"⟩
  else do
    Fallible.raiseIf (finding.groupId.toList.all texts.source.isSpace)
      ⟨"execution-origin findings require a non-empty group ID"⟩
    Fallible.raiseIf (finding.executionProvenance = [])
      ⟨"execution-origin findings require typed provenance"⟩
    let hashes := finding.executionProvenance.map fun provenance =>
      texts.hex provenance.provenanceSha256
    Fallible.raiseIf (¬ hashes.Pairwise (· < ·))
      ⟨"execution finding provenance must be unique and sorted"⟩
    Fallible.raiseIf (¬ finding.contributingCandidateIds.Nodup)
      ⟨"execution finding contributing candidate IDs must be unique"⟩
    Fallible.raiseIf (¬ finding.executionProvenance.map (executionCandidateId texts) ⊆
        finding.contributingCandidateIds)
      ⟨"execution finding must retain every provenance-derived candidate ID"⟩
    Fallible.raiseIf (finding.locations ≠
        sortLocations texts (provenanceLocations texts finding.executionProvenance))
      ⟨"execution finding locations must exactly match its provenance"⟩
    let expectedEvidence := finding.executionProvenance.map fun provenance =>
      (some provenance.invariantId, some (texts.hex provenance.provenanceSha256))
    let executionEvidence := finding.evidence.filter (·.type = .execution)
    let observedEvidence := (executionEvidence.filter
      (·.source = "mmaudit-foundry-invariant")).map fun item => (item.ruleId, item.fingerprint)
    Fallible.raiseIf (executionEvidence.length ≠ expectedEvidence.dedup.length ∨
        !(observedEvidence.all expectedEvidence.contains &&
          expectedEvidence.all observedEvidence.contains))
      ⟨"execution finding evidence must exactly bind every provenance record"⟩
    if finding.status = .rejected then
      return ()
    else
      Fallible.raiseIf (¬ finding.locationValidation.valid)
        ⟨"active execution-origin findings require valid source locations"⟩
      let expectedLocationHash ← executionOriginLocationValidationSha256 texts
        finding.executionProvenance
      Fallible.raiseIf (finding.locationValidation.contentHash ≠ some expectedLocationHash)
        ⟨"execution finding location-validation hash differs from its provenance"⟩
      Fallible.raiseIf (finding.evidenceStrength ∉
          [.deterministicExecutionCounterexample, .localForkReproduction,
            .minimizedLocalForkReproduction, .formalCounterexample])
        ⟨"active execution-origin finding requires deterministic execution strength"⟩

/-- The checks of a finding, on its fields and on all of it. -/
def Finding.validate (finding : Finding Digest) : Except ValueError (Finding Digest) := do
  Fallible.raiseIf (finding.id.isEmpty || finding.title.isEmpty || finding.summary.isEmpty ||
      finding.impact.isEmpty)
    ⟨"too short"⟩
  Fallible.raiseIf (decide (finding.confidence < 0) || decide (1 < finding.confidence))
    ⟨"confidence: out of range"⟩
  Fallible.raiseIf (100 < finding.executionProvenance.length)
    ⟨"execution_provenance: too long"⟩
  Finding.validateOriginFields texts finding
  if finding.status = .rejected then
    return finding
  else
    Fallible.raiseIf (finding.preconditions.isEmpty || finding.locations.isEmpty ||
        finding.attackPath.isEmpty || finding.evidence.isEmpty ||
        finding.falsePositiveConditions.isEmpty)
      ⟨"non-rejected findings require complete evidence fields"⟩
    Fallible.raiseIf (finding.recommendation.isEmpty)
      ⟨"non-rejected findings require impact, remediation, and a test"⟩
    return finding

end Validation

end Consensus

end MmAudit
