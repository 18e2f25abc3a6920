import MmAudit.Consensus.Merging

/-!
# The cap on critical findings

A critical finding stays confirmed under the cap when its evidence is strong enough, and
strength is read off the evidence of every member of the group.  So evidence of a member
that nobody accepted can lift the cap of a finding that scanners confirmed.  This file says
exactly when.
-/

namespace MmAudit

namespace Consensus

open Context Fallible

section Cap

variable {Digest : Type} (texts : Texts Digest)
  (scannerFindings : List (ScannerFinding Digest))
  (decisions : Dict String VerificationDecision)
  (validations : Dict String (LocationValidation Digest))

/-! ## Strength -/

def Evidence.isReproduced (evidence : Evidence) : Bool :=
  evidence.isLocalForkReproduction &&
    (evidence.ruleId = some ReproductionState.reproducedAndMinimized.value ||
      evidence.ruleId = some ReproductionState.reproduced.value)

/-- The evidence names an executable proof, whoever carries it. -/
def Evidence.isExecutable (evidence : Evidence) : Bool :=
  evidence.isFormalCounterexample || evidence.isReproduced

theorem reproductionStateOf_eq_notAttempted_iff {evidence : List Evidence} :
    reproductionStateOf evidence = .notAttempted ↔
      ∀ item ∈ evidence, item.isReproduced = false := by
  rw [reproductionStateOf]
  induction evidence with
  | nil => simp
  | cons item rest ih =>
      rw [List.findSome?_cons, List.forall_mem_cons, ← ih]
      unfold Evidence.isReproduced
      cases item.isLocalForkReproduction with
      | false => simp
      | true =>
          by_cases minimized : item.ruleId = some ReproductionState.reproducedAndMinimized.value
          · simp [minimized]
          · by_cases reproduced : item.ruleId = some ReproductionState.reproduced.value
            · have different : ReproductionState.reproduced.value ≠
                  ReproductionState.reproducedAndMinimized.value := by decide
              simp [reproduced, different]
            · simp [minimized, reproduced]

theorem isSufficient_evidenceStrengthOf_iff {evidence : List Evidence} {families : List String}
    {path execution : Bool} :
    isSufficient (evidenceStrengthOf evidence families path execution) = true ↔
      (∃ item ∈ evidence, item.isExecutable = true) ∨ execution = true := by
  have split : (∃ item ∈ evidence, item.isExecutable = true) ↔
      evidence.any Evidence.isFormalCounterexample = true ∨
        reproductionStateOf evidence ≠ .notAttempted := by
    rw [ne_eq, reproductionStateOf_eq_notAttempted_iff, List.any_eq_true]
    simp only [Evidence.isExecutable, Bool.or_eq_true, not_forall, Bool.not_eq_false]
    constructor
    · rintro ⟨item, member, formal | reproduced⟩
      · exact .inl ⟨item, member, formal⟩
      · exact .inr ⟨item, member, reproduced⟩
    · rintro (⟨item, member, formal⟩ | ⟨item, member, reproduced⟩)
      · exact ⟨item, member, .inl formal⟩
      · exact ⟨item, member, .inr reproduced⟩
  rw [split, evidenceStrengthOf]
  cases formal : evidence.any Evidence.isFormalCounterexample with
  | true => simp [isSufficient]
  | false =>
      cases state : reproductionStateOf evidence with
      | reproduced => simp [isSufficient]
      | reproducedAndMinimized => simp [isSufficient]
      | notAttempted =>
          cases execution with
          | true => simp [isSufficient]
          | false =>
              simp only [Bool.false_eq_true, ↓reduceIte, reduceCtorEq, ne_eq, not_true_eq_false,
                or_self, iff_false]
              split
              · decide
              split
              · decide
              split
              · decide
              split <;> decide

/-! ## Status -/

/-- The candidates that verification accepted and whose locations are valid. -/
def acceptedValidCandidates (group : CandidateGroup Digest) : List (CandidateFinding Digest) :=
  (group.candidates.filter (isAccepted decisions)).filter (isValid validations)

def Evidence.isProof (evidence : Evidence) : Bool :=
  (evidence.isFormalCounterexample || evidence.isLocalForkReproduction) && evidence.isFingerprinted

/-- An accepted and valid candidate carries a fingerprinted formal counterexample or local-fork
reproduction. -/
def IsProved (group : CandidateGroup Digest) : Prop :=
  ∃ candidate ∈ acceptedValidCandidates decisions validations group,
    ∃ evidence ∈ candidate.evidence, evidence.isProof = true

/-- All execution candidates of the group are valid, and there are some. -/
def IsExecuted (group : CandidateGroup Digest) : Prop :=
  group.executionCandidates ≠ [] ∧
    ∀ candidate ∈ group.executionCandidates, isValid validations candidate = true

/-- Verification and a scanner confirm a path that nothing is known to block. -/
def ScannerConfirmed (group : CandidateGroup Digest) : Prop :=
  group.executionCandidates = [] ∧
    (acceptedValidCandidates decisions validations group).any (isVerified decisions) = true ∧
    (acceptedValidCandidates decisions validations group).any
      (anyScannerMatches texts scannerFindings) = true ∧
    (acceptedValidCandidates decisions validations group).any (hasOpenAttackPath decisions) = true

/-- Only an execution, a proof or a scanner confirm. -/
theorem preliminaryStatus_eq_confirmed {group : CandidateGroup Digest}
    (confirmed : preliminaryStatus texts scannerFindings decisions validations group = .confirmed) :
    IsExecuted validations group ∨ IsProved decisions validations group ∨
      ScannerConfirmed texts scannerFindings decisions validations group := by
  unfold preliminaryStatus at confirmed
  dsimp only at confirmed
  split at confirmed
  case isTrue execution =>
    split at confirmed
    case isFalse => cases confirmed
    case isTrue valid =>
      refine .inl ⟨?_, List.all_eq_true.mp valid⟩
      intro none
      rw [none] at execution
      cases execution
  case isFalse noExecution =>
    have none : group.executionCandidates = [] := by simpa using noExecution
    split at confirmed
    · cases confirmed
    split at confirmed
    · cases confirmed
    split at confirmed
    case isTrue reproduced =>
      obtain ⟨candidate, member, carries⟩ := List.any_eq_true.mp (Bool.and_eq_true_iff.mp reproduced).2
      obtain ⟨evidence, listed, proof⟩ := List.any_eq_true.mp carries
      obtain ⟨local_, fingerprinted⟩ := Bool.and_eq_true_iff.mp proof
      refine .inr (.inl ⟨candidate, member, evidence, listed, ?_⟩)
      rw [Evidence.isProof, local_, fingerprinted, Bool.or_true]
      rfl
    split at confirmed
    case isTrue proved =>
      rw [Bool.and_eq_true, Bool.and_eq_true] at proved
      obtain ⟨candidate, member, carries⟩ := List.any_eq_true.mp proved.1.2
      obtain ⟨evidence, listed, proof⟩ := List.any_eq_true.mp carries
      obtain ⟨formal, fingerprinted⟩ := Bool.and_eq_true_iff.mp proof
      refine .inr (.inl ⟨candidate, member, evidence, listed, ?_⟩)
      rw [Evidence.isProof, formal, fingerprinted, Bool.true_or]
      rfl
    split at confirmed
    case isTrue scanned =>
      rw [Bool.and_eq_true, Bool.and_eq_true] at scanned
      exact .inr (.inr ⟨none, scanned.1.1, scanned.1.2, scanned.2⟩)
    split at confirmed
    · cases confirmed
    split at confirmed <;> cases confirmed

theorem preliminaryStatus_of_scannerConfirmed {group : CandidateGroup Digest}
    (confirmed : ScannerConfirmed texts scannerFindings decisions validations group) :
    preliminaryStatus texts scannerFindings decisions validations group = .confirmed := by
  obtain ⟨none, verified, scanned, path⟩ := confirmed
  obtain ⟨candidate, member, -⟩ := List.any_eq_true.mp verified
  have accepted : (group.candidates.filter (isAccepted decisions)).isEmpty = false := by
    rw [List.isEmpty_eq_false_iff]
    exact List.ne_nil_of_mem (List.mem_of_mem_filter member)
  have valid : (acceptedValidCandidates decisions validations group).isEmpty = false := by
    rw [List.isEmpty_eq_false_iff]
    exact List.ne_nil_of_mem member
  unfold preliminaryStatus
  dsimp only
  change (if _ then _ else if _ then _ else
    if (acceptedValidCandidates decisions validations group).isEmpty then _ else
    if (acceptedValidCandidates decisions validations group).any (isVerified decisions) && _ then _
    else if (acceptedValidCandidates decisions validations group).any (isVerified decisions) &&
      _ && (acceptedValidCandidates decisions validations group).any (hasOpenAttackPath decisions)
      then _
    else if (acceptedValidCandidates decisions validations group).any (isVerified decisions) &&
      (acceptedValidCandidates decisions validations group).any
        (anyScannerMatches texts scannerFindings) &&
      (acceptedValidCandidates decisions validations group).any (hasOpenAttackPath decisions)
      then _ else _) = _
  rw [none, accepted, valid, verified, scanned, path]
  simp only [List.isEmpty_nil, Bool.not_true, Bool.false_eq_true, ↓reduceIte, Bool.true_and,
    Bool.and_true]
  split
  · rfl
  split <;> rfl

/-! ## The merged finding -/

variable [DecidableEq Digest]

/-- A finding that passed its validator. -/
theorem Finding.eq_of_validate {finding result : Finding Digest}
    (validated : finding.validate texts = .ok result) : result = finding := by
  rw [Finding.validate, raiseIf_bind_eq_ok_iff, raiseIf_bind_eq_ok_iff, raiseIf_bind_eq_ok_iff,
    check_bind_eq_ok_iff] at validated
  obtain ⟨-, -, -, -, checked⟩ := validated
  split at checked
  · exact (Except.ok.inj checked).symm
  · rw [raiseIf_bind_eq_ok_iff, raiseIf_bind_eq_ok_iff] at checked
    exact (Except.ok.inj checked.2.2).symm

def validCandidates (group : CandidateGroup Digest) : List (CandidateFinding Digest) :=
  group.candidates.filter (isValid validations)

def validExecutionCandidates (group : CandidateGroup Digest) : List (CandidateFinding Digest) :=
  group.executionCandidates.filter ((validCandidates validations group).contains ·)

def executionOriginValid (group : CandidateGroup Digest) : Bool :=
  !group.executionCandidates.isEmpty &&
    (validExecutionCandidates validations group).length == group.executionCandidates.length

def primaryPool (group : CandidateGroup Digest) : List (CandidateFinding Digest) :=
  firstNonempty [validExecutionCandidates validations group, group.executionCandidates,
    (validCandidates validations group).filter (isAccepted decisions),
    validCandidates validations group, group.candidates]

/-- What a merged finding says about its status, its locations and its evidence. -/
structure Merged (group : CandidateGroup Digest) (judge : Option JudgeDecision)
    (finding : Finding Digest) : Prop where
  status : finding.status =
    judgedStatus (preliminaryStatus texts scannerFindings decisions validations group)
      (!(validExecutionCandidates validations group).isEmpty) judge
  severity : ∃ primary, primaryCandidate (primaryPool decisions validations group) = some primary ∧
    finding.severity = (judge.map (·.severity)).getD primary.severity
  strength : isSufficient finding.evidenceStrength = true ↔
    (∃ candidate ∈ group.candidates, ∃ evidence ∈ candidate.evidence,
      evidence.isExecutable = true) ∨ executionOriginValid validations group = true
  locations : finding.locations = uniqueLocations texts
    ((locationCandidates validations group finding.status).flatMap (·.locations))
  valid : finding.locationValidation.valid =
    if group.executionCandidates.isEmpty then !(validCandidates validations group).isEmpty
    else executionOriginValid validations group
  hash : aggregateHash texts validations group (executionOriginValid validations group) =
    .ok finding.locationValidation.contentHash

theorem merged_of_mergeGroup {group : CandidateGroup Digest} {judge : Option JudgeDecision}
    {finding : Finding Digest}
    (returned : mergeGroup texts scannerFindings decisions validations group judge = .ok finding) :
    Merged texts scannerFindings decisions validations group judge finding := by
  unfold mergeGroup at returned
  dsimp only at returned
  split at returned
  · cases returned
  · rename_i primary chosen
    rw [bind_eq_ok_iff] at returned
    obtain ⟨aggregate, aggregated, returned⟩ := returned
    rw [raiseIf_bind_eq_ok_iff, bind_eq_ok_iff] at returned
    obtain ⟨-, findingId, -, validated⟩ := returned
    obtain rfl := Finding.eq_of_validate texts validated
    refine ⟨rfl, ⟨primary, chosen, rfl⟩, ?_, rfl, rfl, aggregated⟩
    refine isSufficient_evidenceStrengthOf_iff.trans ?_
    apply or_congr_left
    simp only [uniqueEvidence, List.mem_eraseDups, List.mem_append, List.mem_flatMap, List.mem_map]
    constructor
    · rintro ⟨evidence, ⟨candidate, member, listed⟩ | ⟨scanner, -, rfl⟩, executable⟩
      · exact ⟨candidate, member, evidence, listed, executable⟩
      · cases executable
    · rintro ⟨candidate, member, evidence, listed, executable⟩
      exact ⟨evidence, .inl ⟨candidate, member, listed⟩, executable⟩

/-! ## The cap -/

/-- A scanner confirmed a critical finding, nobody lowered it, and evidence of a member that proves
nothing makes it strong. -/
structure LiftedWithoutProof (group : CandidateGroup Digest) (judge : Option JudgeDecision) :
    Prop where
  scanned : ScannerConfirmed texts scannerFindings decisions validations group
  unlowered : ∀ decision, judge = some decision → decision.status = .confirmed
  critical : (judge.map (·.severity)).or
    ((primaryCandidate (acceptedValidCandidates decisions validations group)).map (·.severity)) =
      some .critical
  carried : ∃ candidate ∈ group.candidates, ∃ evidence ∈ candidate.evidence,
    evidence.isExecutable = true
  unproved : ¬ IsProved decisions validations group

omit [DecidableEq Digest] in
theorem rank_le (status : FindingStatus) : status.rank ≤ 8 := by
  cases status <;> decide

omit [DecidableEq Digest] in
theorem eq_confirmed_of_rank_ge {status : FindingStatus} (top : ¬ status.rank < 8) :
    status = .confirmed := by
  cases status <;> first | rfl | exact absurd (by decide) top

omit [DecidableEq Digest] in
/-- A judge leaves a confirmation alone only by confirming, unless an execution decided. -/
theorem judgedStatus_eq_confirmed_iff {cap : FindingStatus} {execution : Bool}
    {judge : Option JudgeDecision} :
    judgedStatus cap execution judge = .confirmed ↔
      cap = .confirmed ∧ (execution = true ∨
        ∀ decision, judge = some decision → decision.status = .confirmed) := by
  cases judge with
  | none => simp [judgedStatus]
  | some decision =>
      cases execution with
      | true => simp [judgedStatus]
      | false =>
          simp only [judgedStatus, Bool.not_false, Bool.true_and, decide_eq_true_eq,
            Bool.false_eq_true, Option.some.injEq, forall_eq', false_or]
          split
          case isTrue lower =>
            constructor
            · intro confirmed
              have bound := rank_le cap
              rw [confirmed] at lower
              change 8 < cap.rank at lower
              omega
            · exact fun both => both.2
          case isFalse notLower =>
            constructor
            · intro confirmed
              refine ⟨confirmed, eq_confirmed_of_rank_ge ?_⟩
              rwa [confirmed] at notLower
            · exact fun both => both.1

omit [DecidableEq Digest] in
theorem acceptedValid_eq (group : CandidateGroup Digest) :
    (validCandidates validations group).filter (isAccepted decisions) =
      acceptedValidCandidates decisions validations group := by
  rw [validCandidates, acceptedValidCandidates, List.filter_filter, List.filter_filter]
  congr 1
  funext candidate
  exact Bool.and_comm _ _

/-- Without executions the accepted and valid candidates come first. -/
theorem primaryPool_of_no_execution {group : CandidateGroup Digest}
    (noExecution : group.executionCandidates = [])
    (accepted : acceptedValidCandidates decisions validations group ≠ []) :
    primaryPool decisions validations group =
      acceptedValidCandidates decisions validations group := by
  have none : validExecutionCandidates validations group = [] := by
    rw [validExecutionCandidates, noExecution]
    rfl
  rw [primaryPool, none, noExecution, acceptedValid_eq, firstNonempty]
  simp [accepted]

omit [DecidableEq Digest] in
theorem enforceCriticalEvidenceCap_confirmed_iff {finding : Finding Digest} :
    (enforceCriticalEvidenceCap finding true).severity = .critical ∧
        (enforceCriticalEvidenceCap finding true).status = .confirmed ↔
      finding.severity = .critical ∧ finding.status = .confirmed ∧
        isSufficient finding.evidenceStrength = true := by
  unfold enforceCriticalEvidenceCap
  by_cases critical : finding.severity = .critical
  · by_cases confirmed : finding.status = .confirmed
    · cases sufficient : isSufficient finding.evidenceStrength with
      | true => simp [critical, confirmed]
      | false => simp [critical, confirmed]
    · simp [critical, confirmed]
  · simp [critical]

/-- A merged critical finding that stays confirmed under the cap is backed by valid executions or by
an accepted and valid candidate with a proof, unless the evidence of some other member lifted the
cap of what a scanner confirmed. -/
theorem critical_confirmation_backed_iff {group : CandidateGroup Digest}
    {judge : Option JudgeDecision} {finding : Finding Digest}
    (returned : mergeGroup texts scannerFindings decisions validations group judge = .ok finding) :
    ((enforceCriticalEvidenceCap finding true).severity = .critical ∧
        (enforceCriticalEvidenceCap finding true).status = .confirmed →
      IsExecuted validations group ∨ IsProved decisions validations group) ↔
    ¬ LiftedWithoutProof texts scannerFindings decisions validations group judge := by
  obtain ⟨status, ⟨primary, chosen, severity⟩, strength, -, -, -⟩ :=
    merged_of_mergeGroup texts scannerFindings decisions validations returned
  rw [enforceCriticalEvidenceCap_confirmed_iff]
  -- Without executions, the severity is that of the condition.
  have severity_eq : group.executionCandidates = [] →
      acceptedValidCandidates decisions validations group ≠ [] →
      (judge.map (·.severity)).or ((primaryCandidate
        (acceptedValidCandidates decisions validations group)).map (·.severity)) =
        some finding.severity := by
    intro noExecution accepted
    rw [primaryPool_of_no_execution decisions validations noExecution accepted] at chosen
    rw [severity, chosen]
    cases judge with
    | none => rfl
    | some decision => rfl
  constructor
  · rintro backed ⟨scanned, unlowered, critical, carried, unproved⟩
    have accepted : acceptedValidCandidates decisions validations group ≠ [] := by
      obtain ⟨candidate, member, -⟩ := List.any_eq_true.mp scanned.2.1
      exact List.ne_nil_of_mem member
    rw [severity_eq scanned.1 accepted] at critical
    have confirmed : finding.status = .confirmed := by
      rw [status, judgedStatus_eq_confirmed_iff]
      exact ⟨preliminaryStatus_of_scannerConfirmed texts scannerFindings decisions validations
        scanned, .inr unlowered⟩
    rcases backed ⟨Option.some.inj critical, confirmed, strength.mpr (.inl carried)⟩ with
      executed | proved
    · exact executed.1 scanned.1
    · exact unproved proved
  · rintro notLifted ⟨critical, confirmed, sufficient⟩
    rw [status, judgedStatus_eq_confirmed_iff] at confirmed
    rcases preliminaryStatus_eq_confirmed texts scannerFindings decisions validations
      confirmed.1 with executed | proved | scanned
    · exact .inl executed
    · exact .inr proved
    · by_contra unbacked
      have noExecution := scanned.1
      have accepted : acceptedValidCandidates decisions validations group ≠ [] := by
        obtain ⟨candidate, member, -⟩ := List.any_eq_true.mp scanned.2.1
        exact List.ne_nil_of_mem member
      refine notLifted ⟨scanned, ?_, ?_, ?_, fun proved => unbacked (.inr proved)⟩
      · rcases confirmed.2 with execution | unlowered
        · rw [validExecutionCandidates, noExecution] at execution
          cases execution
        · exact unlowered
      · rw [severity_eq noExecution accepted, critical]
      · rcases strength.mp sufficient with carried | execution
        · exact carried
        · rw [executionOriginValid, noExecution] at execution
          cases execution

end Cap

/-! ## A rejected candidate that lifts the cap -/

/-- Hashes that are the text itself. -/
def plainTexts : Texts (List UInt8) where
  source := plainSyntax
  hex := fun digest => String.ofList (digest.map fun byte => Char.ofNat byte.toNat)
  lower := id
  upper := id

def sampleLocation : Location (List UInt8) where
  path := "Vault.sol".toList
  startLine := 3
  endLine := 5
  symbol := none
  contentHash := none
  positive := by decide
  ordered := by decide

/-- A critical candidate of a model review with the evidence given. -/
def sampleCandidate (candidateId : String) (evidence : List Evidence) :
    CandidateFinding (List UInt8) where
  candidateId := candidateId
  originKind := .modelReview
  executionProvenance := none
  title := "Reentrant withdrawal"
  severity := .critical
  confidence := 9 / 10
  cwe := ["CWE-841"]
  owasp := []
  summary := "The balance is written after the call."
  impact := "All funds can be withdrawn."
  preconditions := ["The vault holds funds."]
  locations := [sampleLocation]
  source := some ⟨"withdraw", "Vault.sol".toList, 3, by decide⟩
  sink := some ⟨"call", "Vault.sol".toList, 4, by decide⟩
  attackPath := ["withdraw", "call", "withdraw"]
  evidence := evidence
  compensatingControls := []
  falsePositiveConditions := ["A guard blocks reentrancy."]
  recommendation := "Write the balance first."
  verificationTest := ⟨"Withdraw from a contract that reenters."⟩
  role := some "source_audit"
  modelFamily := some "family"
  modelVotes := []

def scannerEvidence : Evidence where
  type := .scanner
  source := "slither"
  description := "reentrancy"
  ruleId := some "reentrancy-eth"
  fingerprint := some "f1"

/-- Evidence that only its type and rule make a formal counterexample. -/
def claimedCounterexample : Evidence where
  type := .formal
  source := "model"
  description := "A counterexample exists."
  ruleId := some "counterexample"
  fingerprint := none

def sampleScanner : ScannerFinding (List UInt8) where
  scanner := "slither"
  ruleId := "reentrancy-eth"
  message := "reentrancy"
  locations := [sampleLocation]
  cwe := ["CWE-841"]
  fingerprint := "f1"

/-- A verified candidate that a scanner supports, and a rejected one. -/
def sampleGroup (rejectedEvidence : Evidence) : CandidateGroup (List UInt8) where
  groupId := "group-1"
  candidates := [sampleCandidate "a" [scannerEvidence], sampleCandidate "b" [rejectedEvidence]]

def sampleDecisions : Dict String VerificationDecision :=
  (Dict.empty.insert "a" ⟨.verified, "The path is open.", []⟩).insert "b"
    ⟨.rejected, "The path is blocked.", []⟩

def sampleValidations : Dict String (LocationValidation (List UInt8)) :=
  (Dict.empty.insert "a" ⟨true, some [1], []⟩).insert "b" ⟨false, none, ["changed"]⟩

/-- The rejected candidate alone claims a counterexample, and the finding stays confirmed. -/
theorem rejected_candidate_lifts_cap :
    ((mergeGroup plainTexts [sampleScanner] sampleDecisions sampleValidations
        (sampleGroup claimedCounterexample) none).toOption.map fun finding =>
      ((enforceCriticalEvidenceCap finding true).severity,
        (enforceCriticalEvidenceCap finding true).status)) = some (.critical, .confirmed) ∧
      (sampleGroup claimedCounterexample).executionCandidates = [] ∧
      ∀ candidate ∈ (sampleGroup claimedCounterexample).candidates,
        isValid sampleValidations candidate = true → isAccepted sampleDecisions candidate = true →
          ∀ evidence ∈ candidate.evidence, evidence.isProof = false := by
  decide +kernel

/-- Without that claim the cap holds. -/
theorem capped_without_claim_sample :
    ∃ finding, mergeGroup plainTexts [sampleScanner] sampleDecisions sampleValidations
        (sampleGroup scannerEvidence) none = .ok finding ∧
      ((enforceCriticalEvidenceCap finding true).severity = .critical ∧
          (enforceCriticalEvidenceCap finding true).status = .confirmed →
        IsExecuted sampleValidations (sampleGroup scannerEvidence) ∨
          IsProved sampleDecisions sampleValidations (sampleGroup scannerEvidence)) := by
  obtain ⟨finding, returned⟩ := @eq_ok_of_toOption_isSome _ _ (mergeGroup plainTexts
    [sampleScanner] sampleDecisions sampleValidations (sampleGroup scannerEvidence) none)
    (by decide +kernel)
  refine ⟨finding, returned, (critical_confirmation_backed_iff _ _ _ _ returned).mpr ?_⟩
  rintro ⟨-, -, -, carried, -⟩
  revert carried
  decide +kernel

end Consensus

end MmAudit
