import MmAudit.Consensus.Candidates

/-!
# Merging a group of candidates

`preliminary_status` says how far the evidence of a group carries; `merge_group` makes one
finding of the group, with a judge who can lower the status but not raise it;
`enforce_critical_evidence_cap` takes the confirmation from a critical finding without
executable proof.

The status comes from validated and accepted candidates.  The strength of the evidence comes
from the evidence of all of them.
-/

namespace MmAudit

namespace Consensus

open Context

section Merging

variable {Digest : Type} (texts : Texts Digest)

/-! ## Names -/

def stopwords : List String :=
  ["a", "an", "and", "in", "of", "the", "to", "via", "with", "without", "unsafe", "possible"]

def isTokenCharacter (char : Char) : Bool :=
  ('a' ≤ char && char ≤ 'z') || ('0' ≤ char && char ≤ '9')

/-- `_tokens` -/
def tokens (value : String) : List String :=
  (((texts.lower value).toList.splitOnP (!isTokenCharacter ·)).map String.ofList).dedup.filter
    fun token => !stopwords.contains token && decide (1 < token.length)

/-- `stable_finding_id` -/
def stableFindingId (candidate : CandidateFinding Digest) : Except ValueError String :=
  match candidate.locations.insertionSort fun location other =>
      (toLex (location.path, toLex (location.startLine, location.endLine)) :
        List Char ×ₗ ℕ ×ₗ ℕ) ≤
      toLex (other.path, toLex (other.startLine, other.endLine)) with
  | [] => .error ⟨"list index out of range"⟩
  | primary :: _ =>
      let classValue := match (candidate.cwe.map texts.upper).insertionSort (· ≤ ·) with
        | [] => " ".intercalate ((tokens texts candidate.title).insertionSort (· ≤ ·))
        | first :: _ => first
      let stable := [classValue.toList, primary.path, (toString primary.startLine).toList,
        primary.symbol.getD []]
      let digest := texts.hex (texts.source.hashText (['\x00'].intercalate stable))
      .ok ("MMA-" ++ texts.upper (String.ofList (digest.toList.take 12)))

/-! ## What the evidence of a candidate supports -/

variable (scannerFindings : List (ScannerFinding Digest))

/-- A scanner names the candidate, or sees it at the same place for no contradicting reason. -/
def scannerMatches (candidate : CandidateFinding Digest) (scanner : ScannerFinding Digest) : Bool :=
  let candidateCwe := candidate.cwe.map texts.upper
  let scannerCwe := scanner.cwe.map texts.upper
  (candidate.evidence.any fun evidence => evidence.type = .scanner &&
    evidence.fingerprint ≠ some "" && evidence.fingerprint = some scanner.fingerprint) ||
  candidate.locations.any fun location => scanner.locations.any fun scannerLocation =>
    location.path = scannerLocation.path &&
      decide (location.startLine ≤ scannerLocation.startLine + 12) &&
      decide (scannerLocation.startLine ≤ location.startLine + 12) &&
      (candidateCwe.isEmpty || scannerCwe.isEmpty || candidateCwe.any scannerCwe.contains)

/-- `_scanner_matches` -/
def anyScannerMatches (candidate : CandidateFinding Digest) : Bool :=
  scannerFindings.any (scannerMatches texts candidate)

def Evidence.isFingerprinted (evidence : Evidence) : Bool :=
  evidence.fingerprint.any (!·.isEmpty)

def Evidence.isLocalForkReproduction (evidence : Evidence) : Bool :=
  evidence.type = .reproduction && evidence.source = "mmaudit-local-fork-reproduction"

def Evidence.isFormalCounterexample (evidence : Evidence) : Bool :=
  evidence.type = .formal && evidence.ruleId = some "counterexample"

variable (decisions : Dict String VerificationDecision)
  (validations : Dict String (LocationValidation Digest))

def isValid (candidate : CandidateFinding Digest) : Bool :=
  (validations.get? candidate.candidateId).any (·.valid)

/-- Verification found the candidate verified or plausible. -/
def isAccepted (candidate : CandidateFinding Digest) : Bool :=
  (decisions.get? candidate.candidateId).any fun decision =>
    decision.verdict = .verified || decision.verdict = .plausibleOnly

def isVerified (candidate : CandidateFinding Digest) : Bool :=
  (decisions.get? candidate.candidateId).any (·.verdict = .verified)

/-- A source and a sink, and no control between them known to the candidate or to verification. -/
def hasOpenAttackPath (candidate : CandidateFinding Digest) : Bool :=
  candidate.source.isSome && candidate.sink.isSome && candidate.compensatingControls.isEmpty &&
    (decisions.get? candidate.candidateId).all (·.guardsAndControls.isEmpty)

/-- The families of the model reviews among the candidates. -/
def modelFamilies (candidates : List (CandidateFinding Digest)) : List String :=
  ((candidates.filter (·.originKind = .modelReview)).filterMap (·.modelFamily)).dedup

/-- `max`, where the first of several greatest items wins. -/
def firstMax {Item Key : Type} [LinearOrder Key] (key : Item → Key) : List Item → Option Item
  | [] => none
  | item :: items => some (items.foldl
      (fun best next => if key best < key next then next else best) item)

/-- `preliminary_status` -/
def preliminaryStatus (group : CandidateGroup Digest) : FindingStatus :=
  let accepted := group.candidates.filter (isAccepted decisions)
  let valid := accepted.filter (isValid validations)
  let verifierAccepts := valid.any (isVerified decisions)
  let scannerSupport := valid.any (anyScannerMatches texts scannerFindings)
  let reproduction := valid.any fun candidate => candidate.evidence.any fun evidence =>
    evidence.isLocalForkReproduction && evidence.isFingerprinted
  let formalCounterexample := valid.any fun candidate => candidate.evidence.any fun evidence =>
    evidence.isFormalCounterexample && evidence.isFingerprinted
  let completeAttackPath := valid.any (hasOpenAttackPath decisions)
  if !group.executionCandidates.isEmpty then
    if group.executionCandidates.all (isValid validations) then .confirmed else .rejected
  else if accepted.isEmpty then .rejected
  else if valid.isEmpty then .rejected
  else if verifierAccepts && reproduction then .confirmed
  else if verifierAccepts && formalCounterexample && completeAttackPath then .confirmed
  else if verifierAccepts && scannerSupport && completeAttackPath then .confirmed
  else if verifierAccepts && decide (2 ≤ (modelFamilies valid).length) && completeAttackPath then
    .stronglySupported
  else if verifierAccepts &&
      (firstMax CandidateFinding.confidence valid).any (hasOpenAttackPath decisions) then
    .highConfidence
  else .needsReview

/-! ## The merged finding -/

/-- `_unique_strings` -/
def uniqueStrings (values : List String) : List String :=
  (values.filter (!·.isEmpty)).eraseDups

/-- `_unique_locations`: by path, lines and symbol; of several, the last one. -/
def uniqueLocations (locations : List (Location Digest)) : List (Location Digest) :=
  sortLocations texts (locations.foldl
    (fun byKey location => byKey.insert
      (location.path, location.startLine, location.endLine, location.symbol) location)
    (Dict.empty : Dict (List Char × ℕ × ℕ × Option (List Char)) (Location Digest))).values

/-- `_unique_evidence`: the key of an evidence is all of it. -/
def uniqueEvidence (evidence : List Evidence) : List Evidence :=
  evidence.eraseDups

/-- `_reproduction_state` -/
def reproductionStateOf (evidence : List Evidence) : ReproductionState :=
  (evidence.findSome? fun item =>
    if !item.isLocalForkReproduction then none
    else if item.ruleId = some ReproductionState.reproducedAndMinimized.value then
      some .reproducedAndMinimized
    else if item.ruleId = some ReproductionState.reproduced.value then some .reproduced
    else none).getD .notAttempted

/-- `_evidence_strength` -/
def evidenceStrengthOf (evidence : List Evidence) (independentFamilies : List String)
    (hasCompleteAttackPath hasExecutionCounterexample : Bool) : EvidenceStrength :=
  if evidence.any Evidence.isFormalCounterexample then .formalCounterexample
  else if reproductionStateOf evidence = .reproducedAndMinimized then
    .minimizedLocalForkReproduction
  else if reproductionStateOf evidence = .reproduced then .localForkReproduction
  else if hasExecutionCounterexample then .deterministicExecutionCounterexample
  else if evidence.any (·.type = .scanner) then .deterministicAnalyzer
  else if hasCompleteAttackPath then .validatedAttackPath
  else if 2 ≤ independentFamilies.length then .independentModelSupport
  else if evidence.any (·.type = .model) then .modelInference
  else .none

/-- The first of the lists that has an item. -/
def firstNonempty {Item : Type} (lists : List (List Item)) : List Item :=
  (lists.find? (!·.isEmpty)).getD []

def maxConfidence (candidates : List (CandidateFinding Digest)) : ℚ :=
  ((firstMax CandidateFinding.confidence candidates).map (·.confidence)).getD 0

/-- The candidate that names the finding: of the best candidates there are, the most confident,
then the most severe one. -/
def primaryCandidate (pool : List (CandidateFinding Digest)) : Option (CandidateFinding Digest) :=
  firstMax (fun candidate => (toLex (candidate.confidence, toLex (candidate.severity.order,
    candidate.candidateId)) : ℚ ×ₗ ℕ ×ₗ String)) pool

/-- The provenances of the execution candidates, by their hashes. -/
def executionProvenanceOf (group : CandidateGroup Digest) :
    List (InvariantExecutionCandidateProvenance Digest) :=
  let byHash := (group.executionCandidates.filterMap (·.executionProvenance)).foldl
    (fun byHash provenance => byHash.insert (texts.hex provenance.provenanceSha256) provenance)
    (Dict.empty : Dict String (InvariantExecutionCandidateProvenance Digest))
  byHash.values.insertionSort fun provenance other =>
    texts.hex provenance.provenanceSha256 ≤ texts.hex other.provenanceSha256

/-- A judge can lower the status, unless an execution decided it. -/
def judgedStatus (cap : FindingStatus) (validExecution : Bool) (judge : Option JudgeDecision) :
    FindingStatus :=
  match judge with
  | some judge =>
      if !validExecution && decide (judge.status.rank < cap.rank) then judge.status else cap
  | none => cap

variable [DecidableEq Digest]

/-- The locations of a finding come from the valid candidates, unless it is rejected. -/
def locationCandidates (group : CandidateGroup Digest) (status : FindingStatus) :
    List (CandidateFinding Digest) :=
  let validCandidates := group.candidates.filter (isValid validations)
  let validExecution := group.executionCandidates.filter (validCandidates.contains ·)
  if !group.executionCandidates.isEmpty then
    if status ≠ .rejected && !validExecution.isEmpty then validExecution
    else group.executionCandidates
  else if status ≠ .rejected && !validCandidates.isEmpty then validCandidates
  else group.candidates

/-- The hashes of the validated candidates that decide about the locations. -/
def validHashes (group : CandidateGroup Digest) : List Digest :=
  let scope :=
    if group.executionCandidates.isEmpty then group.candidates else group.executionCandidates
  scope.filterMap fun candidate =>
    (validations.get? candidate.candidateId).bind fun validation =>
      if validation.valid then validation.contentHash else none

/-- The hash that stands for the hashes of all validated candidates. -/
def aggregateHash (group : CandidateGroup Digest) (executionOriginValid : Bool) :
    Except ValueError (Option Digest) :=
  if executionOriginValid then
    some <$> executionOriginLocationValidationSha256 texts (executionProvenanceOf texts group)
  else if (validHashes validations group).isEmpty then
    .ok none
  else
    .ok (some (texts.source.hashText (joinHashes texts (validHashes validations group))))

/-- `merge_group` -/
def mergeGroup (group : CandidateGroup Digest) (judge : Option JudgeDecision) :
    Except ValueError (Finding Digest) := do
  let validCandidates := group.candidates.filter (isValid validations)
  let acceptedValid := validCandidates.filter (isAccepted decisions)
  let validExecution := group.executionCandidates.filter (validCandidates.contains ·)
  let executionOriginValid := !group.executionCandidates.isEmpty &&
    validExecution.length == group.executionCandidates.length
  match primaryCandidate (firstNonempty [validExecution, group.executionCandidates, acceptedValid,
      validCandidates, group.candidates]) with
  | none => .error ⟨"max() iterable argument is empty"⟩
  | some primary =>
      let cap := preliminaryStatus texts scannerFindings decisions validations group
      let status := judgedStatus cap (!validExecution.isEmpty) judge
      let severity := (judge.map (·.severity)).getD primary.severity
      let scope :=
        if group.executionCandidates.isEmpty then group.candidates else group.executionCandidates
      let validationErrors := scope.flatMap fun candidate =>
        ((validations.get? candidate.candidateId).map (·.errors)).getD ["not validated"]
      let aggregate ← aggregateHash texts validations group executionOriginValid
      let confidence :=
        if !group.executionCandidates.isEmpty && !executionOriginValid then 0
        else
          let confidence :=
            if !validExecution.isEmpty then maxConfidence validExecution
            else min (maxConfidence group.candidates) ((judge.map (·.confidence)).getD 1)
          if !validationErrors.isEmpty && validCandidates.isEmpty then min confidence (59 / 100)
          else confidence
      let disagreement := match judge with
        | some judge => judge.rationale
        | none => "; ".intercalate (group.candidates.filterMap fun candidate =>
            (decisions.get? candidate.candidateId).map (·.rationale))
      let matchedScanners := scannerFindings.filter fun scanner =>
        validCandidates.any fun candidate => scannerMatches texts candidate scanner
      Fallible.raiseIf (matchedScanners.any (·.message.isEmpty)) ⟨"description: too short"⟩
      let evidence := uniqueEvidence (group.candidates.flatMap (·.evidence) ++
        matchedScanners.map fun scanner => {
          type := .scanner
          source := scanner.scanner
          description := scanner.message
          ruleId := some scanner.ruleId
          fingerprint := some scanner.fingerprint })
      let findingId ← stableFindingId texts primary
      Finding.validate texts {
        id := findingId
        groupId := group.groupId
        originKind :=
          if group.executionCandidates.isEmpty then .modelReview else .deterministicExecution
        executionProvenance := executionProvenanceOf texts group
        title := primary.title
        status := status
        severity := severity
        confidence := confidence
        cwe := firstNonempty [(judge.map (·.cwe)).getD [],
          uniqueStrings (group.candidates.flatMap (·.cwe))]
        owasp := firstNonempty [(judge.map (·.owasp)).getD [],
          uniqueStrings (group.candidates.flatMap (·.owasp))]
        summary := primary.summary
        impact := primary.impact
        preconditions := uniqueStrings (group.candidates.flatMap (·.preconditions))
        locations := uniqueLocations texts
          ((locationCandidates validations group status).flatMap (·.locations))
        source := primary.source
        sink := primary.sink
        attackPath := primary.attackPath
        evidence := evidence
        compensatingControls := uniqueStrings (group.candidates.flatMap (·.compensatingControls))
        falsePositiveConditions :=
          uniqueStrings (group.candidates.flatMap (·.falsePositiveConditions))
        recommendation := primary.recommendation
        verificationTest := primary.verificationTest
        modelVotes := group.candidates.flatMap (·.modelVotes)
        locationValidation := {
          valid := if group.executionCandidates.isEmpty then !validCandidates.isEmpty
            else executionOriginValid
          contentHash := aggregate
          errors := validationErrors }
        disagreement := disagreement
        contributingCandidateIds := group.candidates.map (·.candidateId)
        evidenceStrength := evidenceStrengthOf evidence (modelFamilies validCandidates)
          (validCandidates.any fun candidate => candidate.source.isSome && candidate.sink.isSome)
          executionOriginValid
        reproductionState := reproductionStateOf evidence }

/-- The note that the cap leaves in a finding. -/
def capReason : String :=
  "Critical confirmation was capped at strongly supported because no accepted local " ++
    "reproduction or matching formal counterexample was available."

/-- The strengths that the cap accepts. -/
def isSufficient (strength : EvidenceStrength) : Bool :=
  [EvidenceStrength.formalCounterexample, .localForkReproduction, .minimizedLocalForkReproduction,
    .deterministicExecutionCounterexample].contains strength

/-- `enforce_critical_evidence_cap` -/
def enforceCriticalEvidenceCap (finding : Finding Digest) (requireFormalOrReproduction : Bool) :
    Finding Digest :=
  if !requireFormalOrReproduction || finding.severity ≠ .critical ||
      finding.status ≠ .confirmed || isSufficient finding.evidenceStrength then
    finding
  else
    { finding with
      status := .stronglySupported
      disagreement :=
        if finding.disagreement.isEmpty then capReason
        else finding.disagreement ++ "; " ++ capReason }

end Merging

end Consensus

end MmAudit
