import MmAudit.Consensus.Anchors
import MmAudit.Consensus.Identity
import MmAudit.Library.Assignments
import MmAudit.Library.Keyed

/-!
# Merged findings that are accepted

`merge_group` makes a finding of a group, and the finding passes the validator or the merge
raises.  A group of valid candidates has at most one anchor.  The lists of the candidates are
not empty, but empty texts are dropped from them when they are merged.
-/

namespace MmAudit

namespace Consensus

open Context Fallible

/-! ## Lists without repetitions -/

theorem nodup_eraseDups {Item : Type} [DecidableEq Item] (items : List Item) :
    items.eraseDups.Nodup := by
  induction length : items.length using Nat.strong_induction_on generalizing items with
  | _ count ih =>
      cases items with
      | nil => exact List.nodup_nil
      | cons item items =>
          rw [List.eraseDups_cons, List.nodup_cons]
          constructor
          · rw [List.mem_eraseDups, List.mem_filter]
            rintro ⟨-, differs⟩
            simp at differs
          · refine ih _ ?_ _ rfl
            have shorter := List.length_filter_le (fun other => !other == item) items
            rw [List.length_cons] at length
            omega

/-- Without repetitions, one item passes a filter exactly if all that pass are the same. -/
theorem length_filter_eq_one_iff {Item : Type} {items : List Item} (distinct : items.Nodup)
    {passes : Item → Bool} {item : Item} (member : item ∈ items) (itemPasses : passes item = true) :
    (items.filter passes).length = 1 ↔ ∀ other ∈ items, passes other = true → other = item := by
  constructor
  · intro one other otherMember otherPasses
    obtain ⟨only, isOnly⟩ := List.length_eq_one_iff.mp one
    have listed : ∀ {item}, item ∈ items → passes item = true → item = only := by
      intro item member itemPasses
      have inside : item ∈ items.filter passes := List.mem_filter.mpr ⟨member, itemPasses⟩
      rw [isOnly] at inside
      exact List.mem_singleton.mp inside
    rw [listed otherMember otherPasses, listed member itemPasses]
  · intro alone
    have distinctIds : (items.map id).Nodup := by rwa [List.map_id]
    rw [Keyed.filter_eq_singleton distinctIds member itemPasses alone]
    rfl

section Acceptance

variable {Digest : Type} (texts : Texts Digest) [DecidableEq Digest]

/-! ## What the validator of a finding asks -/

/-- The lists that a finding needs unless it is rejected. -/
structure Complete (finding : Finding Digest) : Prop where
  preconditions : finding.preconditions ≠ []
  locations : finding.locations ≠ []
  attackPath : finding.attackPath ≠ []
  evidence : finding.evidence ≠ []
  falsePositiveConditions : finding.falsePositiveConditions ≠ []
  recommendation : finding.recommendation ≠ ""

theorem string_isEmpty_eq_false_iff {text : String} : text.isEmpty = false ↔ text ≠ "" := by
  rw [← Bool.not_eq_true, String.isEmpty_iff]

theorem validate_eq_ok_iff_complete (finding : Finding Digest)
    (worded : finding.id ≠ "" ∧ finding.title ≠ "" ∧ finding.summary ≠ "" ∧ finding.impact ≠ "")
    (confident : 0 ≤ finding.confidence ∧ finding.confidence ≤ 1)
    (short : finding.executionProvenance.length ≤ 100) :
    (∃ result, finding.validate texts = .ok result) ↔
      finding.validateOriginFields texts = .ok () ∧
        (finding.status ≠ .rejected → Complete finding) := by
  have notShort : ¬(finding.id.isEmpty || finding.title.isEmpty || finding.summary.isEmpty ||
      finding.impact.isEmpty) = true := by
    simp [worded]
  have inRange : ¬(decide (finding.confidence < 0) || decide (1 < finding.confidence)) = true := by
    simp [confident]
  rw [Finding.validate, raiseIf_bind_of_not notShort, raiseIf_bind_of_not inRange,
    raiseIf_bind_of_not (by omega)]
  constructor
  · rintro ⟨result, validated⟩
    obtain ⟨origin, checked⟩ := check_bind_eq_ok_iff.mp validated
    refine ⟨origin, fun active => ?_⟩
    rw [if_neg active, raiseIf_bind_eq_ok_iff, raiseIf_bind_eq_ok_iff] at checked
    obtain ⟨lists, recommended, -⟩ := checked
    simp only [Bool.or_eq_true, not_or, List.isEmpty_iff, String.isEmpty_iff] at lists recommended
    obtain ⟨⟨⟨⟨preconditions, locations⟩, attackPath⟩, evidence⟩, conditions⟩ := lists
    exact ⟨preconditions, locations, attackPath, evidence, conditions, recommended⟩
  · rintro ⟨origin, complete⟩
    refine ⟨finding, check_bind_eq_ok_iff.mpr ⟨origin, ?_⟩⟩
    by_cases rejected : finding.status = .rejected
    · rw [if_pos rejected]
      rfl
    · obtain ⟨preconditions, locations, attackPath, evidence, conditions, recommended⟩ :=
        complete rejected
      rw [if_neg rejected, raiseIf_bind_of_not, raiseIf_bind_of_not]
      · rfl
      · simpa using recommended
      · simp [preconditions, locations, attackPath, evidence, conditions]

/-- The evidence of an execution is one and stands for the provenance. -/
def BindsEvidence (finding : Finding Digest)
    (provenance : InvariantExecutionCandidateProvenance Digest) : Prop :=
  (finding.evidence.filter (·.type = .execution)).length = 1 ∧
    ∀ evidence ∈ finding.evidence, evidence.type = .execution →
      evidence.source = "mmaudit-foundry-invariant" ∧
        evidence.ruleId = some provenance.invariantId ∧
        evidence.fingerprint = some (texts.hex provenance.provenanceSha256)

/-- What an active finding of an execution says of its locations and its strength. -/
structure Supported (finding : Finding Digest)
    (provenance : InvariantExecutionCandidateProvenance Digest) : Prop where
  valid : finding.locationValidation.valid = true
  hash : ∃ hash, executionOriginLocationValidationSha256 texts [provenance] = .ok hash ∧
    finding.locationValidation.contentHash = some hash
  strength : finding.evidenceStrength ∈ [.deterministicExecutionCounterexample,
    .localForkReproduction, .minimizedLocalForkReproduction, .formalCounterexample]

/-- With one provenance, the locations and the evidence decide. -/
theorem validateOriginFields_of_anchor {finding : Finding Digest}
    {provenance : InvariantExecutionCandidateProvenance Digest}
    (execution : finding.originKind = .deterministicExecution)
    (only : finding.executionProvenance = [provenance])
    (named : ¬finding.groupId.toList.all texts.source.isSpace)
    (distinct : finding.contributingCandidateIds.Nodup)
    (own : executionCandidateId texts provenance ∈ finding.contributingCandidateIds)
    (decided : finding.status ≠ .rejected → Supported texts finding provenance)
    (bound : finding.locations = sortLocations texts (provenanceLocations texts [provenance]))
    (binds : BindsEvidence texts finding provenance) :
    finding.validateOriginFields texts = .ok () := by
  obtain ⟨one, bindsAll⟩ := binds
  rw [Finding.validateOriginFields, if_neg (not_not.mpr execution), only]
  dsimp only [List.map_cons, List.map_nil]
  rw [raiseIf_bind_of_not named, raiseIf_bind_of_not (List.cons_ne_nil _ _),
    raiseIf_bind_of_not (by simp), raiseIf_bind_of_not (not_not.mpr distinct),
    raiseIf_bind_of_not (by simpa using own), raiseIf_bind_of_not (not_not.mpr bound),
    raiseIf_bind_of_not]
  · by_cases rejected : finding.status = .rejected
    · rw [if_pos rejected]
      rfl
    · obtain ⟨valid, ⟨hash, computed, sameHash⟩, strength⟩ := decided rejected
      rw [if_neg rejected, raiseIf_bind_of_not (by simp [valid]), bind_of_ok computed,
        raiseIf_bind_of_not (not_not.mpr sameHash)]
      exact raiseIf_eq_ok_iff.mpr (not_not.mpr strength)
  · obtain ⟨evidence, isOnly⟩ := List.length_eq_one_iff.mp one
    have listed : evidence ∈ finding.evidence.filter (·.type = .execution) := by
      rw [isOnly]
      exact List.mem_singleton.mpr rfl
    obtain ⟨member, isExecution⟩ := List.mem_filter.mp listed
    obtain ⟨source, ruleId, fingerprint⟩ :=
      bindsAll evidence member (of_decide_eq_true isExecution)
    rw [isOnly, List.map_singleton, (List.nodup_singleton _).dedup]
    simp [source, ruleId, fingerprint]

theorem of_validateOriginFields {finding : Finding Digest}
    {provenance : InvariantExecutionCandidateProvenance Digest}
    (execution : finding.originKind = .deterministicExecution)
    (only : finding.executionProvenance = [provenance])
    (validated : finding.validateOriginFields texts = .ok ()) :
    finding.locations = sortLocations texts (provenanceLocations texts [provenance]) ∧
      (finding.evidence.filter (·.type = .execution)).length = 1 := by
  rw [Finding.validateOriginFields, if_neg (not_not.mpr execution), only] at validated
  simp only [raiseIf_bind_eq_ok_iff] at validated
  obtain ⟨-, -, -, -, -, locations, evidence, -⟩ := validated
  rw [not_or, List.map_singleton, (List.nodup_singleton _).dedup] at evidence
  exact ⟨not_not.mp locations, not_not.mp evidence.1⟩

/-! ## Provenances -/

/-- The checks of a provenance on its locations. -/
structure ProvenanceAccepted (provenance : InvariantExecutionCandidateProvenance Digest) :
    Prop where
  nonempty : provenance.sourceLocations ≠ []
  sorted : (provenance.sourceLocations.map (locationKey texts)).Pairwise (· < ·)
  hashed : ∀ location ∈ provenance.sourceLocations, location.contentHash ≠ none

/-- The key of `_unique_locations`: it leaves the hash out. -/
def placeOf (location : Location Digest) : List Char × ℕ × ℕ × Option (List Char) :=
  (location.path, location.startLine, location.endLine, location.symbol)

variable {texts}

omit [DecidableEq Digest] in
theorem sortLocations_of_sorted {locations : List (Location Digest)}
    (sorted : (locations.map (locationKey texts)).Pairwise (· < ·)) :
    sortLocations texts locations = locations :=
  List.Pairwise.insertionSort_eq ((List.pairwise_map.mp sorted).imp le_of_lt)

omit [DecidableEq Digest] in
theorem provenanceLocations_singleton
    {provenance : InvariantExecutionCandidateProvenance Digest}
    (accepted : ProvenanceAccepted texts provenance) :
    provenanceLocations texts [provenance] = provenance.sourceLocations := by
  rw [provenanceLocations, List.flatMap_singleton]
  exact Dict.values_foldl_insert_of_nodup _ (accepted.sorted.imp ne_of_lt)

omit [DecidableEq Digest] in
theorem exists_locationValidationSha256
    {provenance : InvariantExecutionCandidateProvenance Digest}
    (accepted : ProvenanceAccepted texts provenance) :
    ∃ hash, executionOriginLocationValidationSha256 texts [provenance] = .ok hash := by
  rw [executionOriginLocationValidationSha256, provenanceLocations_singleton accepted]
  have allHashed : (provenance.sourceLocations.filterMap (·.contentHash)).length =
      provenance.sourceLocations.length := by
    refine List.filterMap_length_eq_length.mpr ?_
    intro location member
    exact Option.isSome_iff_ne_none.mpr (accepted.hashed location member)
  rw [raiseIf_bind_of_not accepted.nonempty]
  dsimp only
  rw [raiseIf_bind_of_not (not_not.mpr allHashed)]
  exact ⟨_, rfl⟩

omit [DecidableEq Digest] in
/-- The merged locations are those of the provenance exactly if its places are distinct. -/
theorem uniqueLocations_eq_iff {provenance : InvariantExecutionCandidateProvenance Digest}
    (accepted : ProvenanceAccepted texts provenance) :
    uniqueLocations texts provenance.sourceLocations = provenance.sourceLocations ↔
      (provenance.sourceLocations.map placeOf).Nodup := by
  unfold uniqueLocations
  constructor
  · intro same
    have lengths := congrArg List.length same
    rw [sortLocations, List.length_insertionSort] at lengths
    exact Dict.nodup_of_length_values placeOf lengths
  · intro distinct
    have kept := Dict.values_foldl_insert_of_nodup placeOf distinct
    unfold placeOf at kept
    rw [kept, sortLocations_of_sorted accepted.sorted]

/-! ## Candidates and groups -/

variable (texts) in
/-- What the validator asks of an execution candidate. -/
structure AnchoredBy (anchor : CandidateFinding Digest)
    (provenance : InvariantExecutionCandidateProvenance Digest) (bound : Evidence) : Prop where
  origin : anchor.executionProvenance = some provenance
  candidateId : anchor.candidateId = executionCandidateId texts provenance
  locations : anchor.locations = provenance.sourceLocations
  evidence : anchor.evidence.filter (·.type = .execution) = [bound]
  source : bound.source = "mmaudit-foundry-invariant"
  ruleId : bound.ruleId = some provenance.invariantId
  fingerprint : bound.fingerprint = some (texts.hex provenance.provenanceSha256)

/-- What the validator asks of the fields of a candidate. -/
structure Worded (candidate : CandidateFinding Digest) : Prop where
  title : candidate.title ≠ ""
  summary : candidate.summary ≠ ""
  impact : candidate.impact ≠ ""
  locations : candidate.locations ≠ []
  attackPath : candidate.attackPath ≠ []
  evidence : candidate.evidence ≠ []
  recommendation : candidate.recommendation ≠ ""
  confidence : 0 ≤ candidate.confidence ∧ candidate.confidence ≤ 1

theorem CandidateFinding.worded_of_validate {candidate : CandidateFinding Digest}
    (valid : candidate.validate texts = .ok ()) : Worded candidate := by
  rw [CandidateFinding.validate, raiseIf_bind_eq_ok_iff, raiseIf_bind_eq_ok_iff] at valid
  obtain ⟨notShort, inRange, -⟩ := valid
  simp only [Bool.or_eq_true, not_or, List.isEmpty_iff, String.isEmpty_iff] at notShort
  simp only [Bool.or_eq_true, not_or, decide_eq_true_eq, not_lt] at inRange
  obtain ⟨⟨⟨⟨⟨⟨⟨⟨⟨-, title⟩, summary⟩, impact⟩, -⟩, locations⟩, attackPath⟩, evidence⟩, -⟩,
    recommendation⟩ := notShort
  exact ⟨title, summary, impact, locations, attackPath, evidence, recommendation, inRange⟩

theorem CandidateFinding.anchoredBy_of_validate {anchor : CandidateFinding Digest}
    (valid : anchor.validate texts = .ok ())
    (execution : anchor.originKind = .deterministicExecution) :
    ∃ provenance bound, AnchoredBy texts anchor provenance bound := by
  rw [CandidateFinding.validate, raiseIf_bind_eq_ok_iff, raiseIf_bind_eq_ok_iff,
    CandidateFinding.originFieldsAreExact, execution] at valid
  obtain ⟨-, -, exact⟩ := valid
  cases origin : anchor.executionProvenance with
  | none =>
      rw [origin] at exact
      cases exact
  | some provenance =>
      rw [origin] at exact
      simp only [raiseIf_bind_eq_ok_iff] at exact
      obtain ⟨-, candidateId, locations, evidence⟩ := exact
      split at evidence
      next bound isBound =>
        rw [raiseIf_bind_eq_ok_iff, raiseIf_eq_ok_iff] at evidence
        obtain ⟨binds, -⟩ := evidence
        simp only [not_or, not_not] at binds
        exact ⟨provenance, bound, origin, not_not.mp candidateId, not_not.mp locations, isBound,
          binds.1, binds.2.1, binds.2.2⟩
      · cases evidence

variable (texts) in
/-- A group of valid candidates with different IDs, where each anchor fits every member. -/
structure ReadyGroup (group : CandidateGroup Digest) : Prop where
  nonempty : group.candidates ≠ []
  valid : ∀ candidate ∈ group.candidates, candidate.validate texts = .ok ()
  distinct : (group.candidates.map (·.candidateId)).Nodup
  compatible : ∀ anchor ∈ group.candidates, anchor.originKind = .deterministicExecution →
    ∀ member ∈ group.candidates, executionSemanticCompatible texts anchor member = true
  named : ¬group.groupId.toList.all texts.source.isSpace = true

theorem readyGroup_of_mem {candidates : List (CandidateFinding Digest)}
    (valid : ∀ candidate ∈ candidates, candidate.validate texts = .ok ())
    (distinct : (candidates.map (·.candidateId)).Nodup)
    (visible : texts.source.isSpace 'g' = false) {group : CandidateGroup Digest}
    (isGroup : group ∈ groupCandidates texts candidates) : ReadyGroup texts group := by
  have listed := isGroup
  rw [groupCandidates_eq_with] at isGroup
  have perm := perm_flatMap_groupCandidatesWith texts (SimilarEnough texts) candidates
  have inside : ∀ candidate ∈ group.candidates, candidate ∈ candidates := fun candidate member =>
    perm.subset (List.mem_flatMap.mpr ⟨group, isGroup, member⟩)
  refine ⟨ne_nil_of_mem_groupCandidatesWith texts _ isGroup,
    fun candidate member => valid candidate (inside candidate member), ?_, ?_, ?_⟩
  · have sublist : group.candidates.Sublist
        ((groupCandidatesWith texts (SimilarEnough texts) candidates).flatMap (·.candidates)) := by
      rw [List.flatMap_def]
      exact List.sublist_flatten_of_mem (List.mem_map_of_mem isGroup)
    exact (sublist.map _).nodup ((perm.map _).nodup_iff.mpr distinct)
  · intro anchor anchorMember execution member memberMember
    obtain ⟨atRoot, component⟩ := mem_groupCandidatesWith texts (SimilarEnough texts) isGroup
    obtain ⟨index, anchorAt, anchorRoot⟩ := (component anchor).mp anchorMember
    obtain ⟨other, memberAt, memberRoot⟩ := (component member).mp memberMember
    have accepts := protected_joinedParentsWith texts (SimilarEnough texts) candidates index other
      anchor member anchorAt memberAt (anchorRoot.trans memberRoot.symm) execution
    exact ((anchorAccepts_iff texts (valid anchor (inside anchor anchorMember)) execution).mp
      accepts).2
  · rw [groupCandidates, List.mem_insertionSort] at listed
    obtain ⟨members, -, rfl⟩ := List.mem_map.mp listed
    intro blank
    have isBlank := List.all_eq_true.mp blank 'g' (by simp [groupOf])
    rw [visible] at isBlank
    cases isBlank

/-- A ready group has no anchor or exactly one. -/
theorem ReadyGroup.anchors {group : CandidateGroup Digest}
    (ready : ReadyGroup texts group) :
    group.executionCandidates = [] ∨
      ∃ anchor provenance bound, group.executionCandidates = [anchor] ∧
        anchor ∈ group.candidates ∧ AnchoredBy texts anchor provenance bound := by
  cases anchors : group.executionCandidates with
  | nil => exact .inl rfl
  | cons anchor others =>
      have listed : anchor ∈ group.executionCandidates := by
        rw [anchors]
        exact List.mem_cons_self
      obtain ⟨member, isExecution⟩ := List.mem_filter.mp listed
      have execution := of_decide_eq_true isExecution
      obtain ⟨provenance, bound, anchored⟩ :=
        anchor.anchoredBy_of_validate (ready.valid anchor member) execution
      refine .inr ⟨anchor, provenance, bound, ?_, member, anchored⟩
      rw [← anchors]
      -- Another anchor has the same provenance, and so the same ID.
      refine Keyed.filter_eq_singleton ready.distinct member isExecution ?_
      intro other otherMember otherExecution
      have compatible := ready.compatible anchor member execution other otherMember
      rw [executionSemanticCompatible] at compatible
      split at compatible
      next same => rw [same]
      · rw [anchored.origin] at compatible
        dsimp only at compatible
        rw [if_pos (of_decide_eq_true otherExecution)] at compatible
        obtain ⟨otherProvenance, otherBound, otherAnchored⟩ := other.anchoredBy_of_validate
          (ready.valid other otherMember) (of_decide_eq_true otherExecution)
        have same := of_decide_eq_true compatible
        rw [otherAnchored.origin] at same
        rw [otherAnchored.candidateId, anchored.candidateId, Option.some.inj same]

/-! ## The draft of a finding -/

section Drafting

variable (texts) (scannerFindings : List (ScannerFinding Digest))
  (decisions : Dict String VerificationDecision)
  (validations : Dict String (LocationValidation Digest))

/-- A scanner that matches a valid candidate has no message. -/
def Unworded (group : CandidateGroup Digest) : Prop :=
  ∃ scanner ∈ scannerFindings, scanner.message = "" ∧ ∃ candidate ∈ group.candidates,
    isValid validations candidate = true ∧ scannerMatches texts candidate scanner = true

/-- What the finding of a group holds before it is checked. -/
structure Draft (group : CandidateGroup Digest) (judge : Option JudgeDecision)
    (primary : CandidateFinding Digest) (aggregate : Option Digest) (finding : Finding Digest) :
    Prop where
  groupId : finding.groupId = group.groupId
  originKind : finding.originKind =
    if group.executionCandidates.isEmpty then .modelReview else .deterministicExecution
  executionProvenance : finding.executionProvenance = executionProvenanceOf texts group
  primary : finding.title = primary.title ∧ finding.summary = primary.summary ∧
    finding.impact = primary.impact ∧ finding.attackPath = primary.attackPath ∧
    finding.recommendation = primary.recommendation
  status : finding.status =
    judgedStatus (preliminaryStatus texts scannerFindings decisions validations group)
      (!(validExecutionCandidates validations group).isEmpty) judge
  confidence : (∀ candidate ∈ group.candidates,
      0 ≤ candidate.confidence ∧ candidate.confidence ≤ 1) →
    (∀ decision, judge = some decision → 0 ≤ decision.confidence ∧ decision.confidence ≤ 1) →
      0 ≤ finding.confidence ∧ finding.confidence ≤ 1
  preconditions : finding.preconditions =
    uniqueStrings (group.candidates.flatMap (·.preconditions))
  falsePositiveConditions : finding.falsePositiveConditions =
    uniqueStrings (group.candidates.flatMap (·.falsePositiveConditions))
  locations : finding.locations = uniqueLocations texts
    ((locationCandidates validations group finding.status).flatMap (·.locations))
  evidence : ∃ scanned : List Evidence, (∀ item ∈ scanned, item.type = .scanner) ∧
    finding.evidence = uniqueEvidence (group.candidates.flatMap (·.evidence) ++ scanned)
  contributing : finding.contributingCandidateIds = group.candidates.map (·.candidateId)
  valid : finding.locationValidation.valid =
    if group.executionCandidates.isEmpty then !(validCandidates validations group).isEmpty
    else executionOriginValid validations group
  hash : finding.locationValidation.contentHash = aggregate
  strength : ∃ families attack, finding.evidenceStrength = evidenceStrengthOf finding.evidence
    families attack (executionOriginValid validations group)

omit [DecidableEq Digest] in
theorem maxConfidence_bounds {candidates : List (CandidateFinding Digest)}
    (bounded : ∀ candidate ∈ candidates, 0 ≤ candidate.confidence ∧ candidate.confidence ≤ 1) :
    0 ≤ maxConfidence candidates ∧ maxConfidence candidates ≤ 1 := by
  unfold maxConfidence
  cases chosen : firstMax CandidateFinding.confidence candidates with
  | none => exact ⟨le_refl _, zero_le_one⟩
  | some best => exact bounded best (mem_of_firstMax chosen)

omit [DecidableEq Digest] in
/-- No branch of the confidence leaves the range. -/
theorem confidence_bounds {executed judged : ℚ} {lost execution unlocated : Bool}
    (executedBounds : 0 ≤ executed ∧ executed ≤ 1) (judgedBounds : 0 ≤ judged ∧ judged ≤ 1) :
    0 ≤ (if lost then 0 else
        if unlocated then min (if execution then executed else judged) (59 / 100)
        else if execution then executed else judged) ∧
      (if lost then 0 else
        if unlocated then min (if execution then executed else judged) (59 / 100)
        else if execution then executed else judged) ≤ (1 : ℚ) := by
  have chosen : 0 ≤ (if execution then executed else judged) ∧
      (if execution then executed else judged) ≤ 1 := by
    cases execution
    · exact judgedBounds
    · exact executedBounds
  cases lost
  · cases unlocated
    · exact chosen
    · exact ⟨le_min chosen.1 (by norm_num), min_le_of_left_le chosen.2⟩
  · exact ⟨le_refl _, zero_le_one⟩

theorem mergeGroup_eq_validate {group : CandidateGroup Digest} (judge : Option JudgeDecision)
    {primary : CandidateFinding Digest} {aggregate : Option Digest} {findingId : String}
    (chosen : primaryCandidate (primaryPool decisions validations group) = some primary)
    (aggregated : aggregateHash texts validations group (executionOriginValid validations group) =
      .ok aggregate) (identified : stableFindingId texts primary = .ok findingId) :
    ∃ finding, finding.id = findingId ∧
      Draft texts scannerFindings decisions validations group judge primary aggregate finding ∧
      ∃ failure, mergeGroup texts scannerFindings decisions validations group judge =
        raiseIf ((scannerFindings.filter fun scanner => (validCandidates validations group).any
          fun candidate => scannerMatches texts candidate scanner).any (·.message.isEmpty)) failure
          >>= fun _ => finding.validate texts := by
  unfold primaryPool validExecutionCandidates validCandidates at chosen
  unfold executionOriginValid validExecutionCandidates validCandidates at aggregated
  refine ⟨?finding, ?identified, ?draft, ⟨"description: too short"⟩, ?merged⟩
  case merged =>
    unfold mergeGroup
    dsimp only
    rw [chosen]
    dsimp only
    rw [bind_of_ok aggregated]
    refine congrArg (raiseIf _ _ >>= ·) (funext fun _ => ?_)
    rw [bind_of_ok identified]
  case identified => rfl
  case draft =>
    refine ⟨rfl, rfl, rfl, ⟨rfl, rfl, rfl, rfl, rfl⟩, rfl, ?_, rfl, rfl, rfl, ⟨_, ?_, rfl⟩, rfl,
      rfl, rfl, ⟨_, _, rfl⟩⟩
    · intro bounded judged
      refine confidence_bounds (maxConfidence_bounds ?_) ?_
      · intro candidate member
        exact bounded candidate (List.mem_filter.mp (List.mem_filter.mp member).1).1
      · obtain ⟨low, high⟩ := maxConfidence_bounds bounded
        refine ⟨le_min low ?_, min_le_of_left_le high⟩
        cases judge with
        | none => exact zero_le_one
        | some decision => exact (judged decision rfl).1
    · intro item listed
      obtain ⟨scanner, -, rfl⟩ := List.mem_map.mp listed
      rfl

/-! ## Groups without an anchor -/

variable {texts scannerFindings decisions validations}

omit [DecidableEq Digest] in
theorem exists_firstMax {Item Key : Type} [LinearOrder Key] (key : Item → Key) {items : List Item}
    (nonempty : items ≠ []) : ∃ best, firstMax key items = some best := by
  cases items with
  | nil => exact absurd rfl nonempty
  | cons item items => exact ⟨_, rfl⟩

theorem firstNonempty_ne_nil {Item : Type} {lists : List (List Item)} {items : List Item}
    (listed : items ∈ lists) (nonempty : items ≠ []) : firstNonempty lists ≠ [] := by
  rw [firstNonempty]
  cases found : lists.find? (!·.isEmpty) with
  | none =>
      have isEmpty := List.find?_eq_none.mp found items listed
      simp [nonempty] at isEmpty
  | some first =>
      have isFirst := List.find?_some found
      simpa using isFirst

theorem exists_primary {group : CandidateGroup Digest} (nonempty : group.candidates ≠ []) :
    ∃ primary, IsPrimary decisions validations group primary :=
  exists_firstMax _ (firstNonempty_ne_nil (by simp) nonempty)

omit [DecidableEq Digest] in
theorem exists_stableFindingId {candidate : CandidateFinding Digest}
    (located : candidate.locations ≠ []) :
    ∃ findingId, stableFindingId texts candidate = .ok findingId ∧ findingId ≠ "" := by
  cases smallest : smallestLocation candidate with
  | none =>
      have sorted := List.head?_eq_none_iff.mp smallest
      have perm := List.perm_insertionSort (fun location other : Location Digest =>
        (toLex (location.path, toLex (location.startLine, location.endLine)) :
          List Char ×ₗ ℕ ×ₗ ℕ) ≤
        toLex (other.path, toLex (other.startLine, other.endLine))) candidate.locations
      rw [sorted] at perm
      exact absurd perm.nil_eq.symm located
  | some location =>
      refine ⟨_, (stableFindingId_eq_ok_iff texts).mpr
        ⟨_, by rw [identityText, smallest, Option.map_some], rfl⟩, ?_⟩
      simp [findingIdOf, String.ext_iff]

theorem uniqueStrings_ne_nil_iff {values : List String} :
    uniqueStrings values ≠ [] ↔ ∃ value ∈ values, value ≠ "" := by
  rw [← List.length_pos_iff, List.length_pos_iff_exists_mem]
  simp [uniqueStrings]

omit [DecidableEq Digest] in
theorem uniqueLocations_ne_nil {locations : List (Location Digest)} (nonempty : locations ≠ []) :
    uniqueLocations texts locations ≠ [] := by
  intro none
  have lengths := congrArg List.length none
  rw [uniqueLocations, sortLocations, List.length_insertionSort] at lengths
  exact Dict.values_foldl_insert_ne_nil placeOf nonempty (List.length_eq_zero_iff.mp lengths)

variable (validations) in
theorem locationCandidates_spec {group : CandidateGroup Digest} (nonempty : group.candidates ≠ [])
    (status : FindingStatus) :
    locationCandidates validations group status ≠ [] ∧
      locationCandidates validations group status ⊆ group.candidates := by
  have executions : group.executionCandidates ⊆ group.candidates := List.filter_subset_self _
  unfold locationCandidates
  dsimp only
  split
  next some =>
    split
    next active => exact ⟨by simpa using (Bool.and_eq_true_iff.mp active).2,
      fun _ listed => executions (List.mem_of_mem_filter listed)⟩
    · exact ⟨by simpa using some, executions⟩
  · split
    next active =>
      exact ⟨by simpa using (Bool.and_eq_true_iff.mp active).2, List.filter_subset_self _⟩
    · exact ⟨nonempty, List.Subset.refl _⟩

/-- Some member of the group has a condition that is not empty, of each kind. -/
def Conditioned (group : CandidateGroup Digest) : Prop :=
  (∃ candidate ∈ group.candidates, ∃ text ∈ candidate.preconditions, text ≠ "") ∧
    ∃ candidate ∈ group.candidates, ∃ text ∈ candidate.falsePositiveConditions, text ≠ ""

theorem Draft.complete_iff {group : CandidateGroup Digest} {judge : Option JudgeDecision}
    {primary : CandidateFinding Digest} {aggregate : Option Digest} {finding : Finding Digest}
    (draft : Draft texts scannerFindings decisions validations group judge primary aggregate
      finding) (ready : ReadyGroup texts group) (member : primary ∈ group.candidates) :
    Complete finding ↔ Conditioned group := by
  have worded := primary.worded_of_validate (ready.valid primary member)
  obtain ⟨-, -, -, attackPath, recommendation⟩ := draft.primary
  have conditions : ∀ {texts : CandidateFinding Digest → List String},
      uniqueStrings (group.candidates.flatMap texts) ≠ [] ↔
        ∃ candidate ∈ group.candidates, ∃ text ∈ texts candidate, text ≠ "" := by
    intro texts
    rw [uniqueStrings_ne_nil_iff]
    simp only [List.mem_flatMap]
    exact ⟨fun ⟨text, ⟨candidate, member, listed⟩, filled⟩ =>
        ⟨candidate, member, text, listed, filled⟩,
      fun ⟨candidate, member, text, listed, filled⟩ =>
        ⟨text, ⟨candidate, member, listed⟩, filled⟩⟩
  constructor
  · intro complete
    refine ⟨conditions.mp ?_, conditions.mp ?_⟩
    · rw [← draft.preconditions]
      exact complete.preconditions
    · rw [← draft.falsePositiveConditions]
      exact complete.falsePositiveConditions
  · rintro ⟨preconditions, falsePositiveConditions⟩
    refine ⟨?_, ?_, ?_, ?_, ?_, ?_⟩
    · rw [draft.preconditions]
      exact conditions.mpr preconditions
    · rw [draft.locations]
      obtain ⟨nonempty, inside⟩ :=
        locationCandidates_spec validations ready.nonempty finding.status
      obtain ⟨candidate, listed⟩ := List.exists_mem_of_ne_nil _ nonempty
      obtain ⟨location, located⟩ := List.exists_mem_of_ne_nil _
        (candidate.worded_of_validate (ready.valid candidate (inside listed))).locations
      exact uniqueLocations_ne_nil (List.ne_nil_of_mem
        (List.mem_flatMap.mpr ⟨candidate, listed, located⟩))
    · rw [attackPath]
      exact worded.attackPath
    · obtain ⟨scanned, -, evidence⟩ := draft.evidence
      obtain ⟨item, carried⟩ := List.exists_mem_of_ne_nil _ worded.evidence
      rw [evidence, uniqueEvidence]
      exact List.ne_nil_of_mem (List.mem_eraseDups.mpr
        (List.mem_append_left _ (List.mem_flatMap.mpr ⟨primary, member, carried⟩)))
    · rw [draft.falsePositiveConditions]
      exact conditions.mpr falsePositiveConditions
    · rw [recommendation]
      exact worded.recommendation

variable (scannerFindings decisions) in
/-- The merge returns exactly if the texts of the scanners are there and the draft is valid. -/
theorem mergeGroup_returns_iff {group : CandidateGroup Digest} {judge : Option JudgeDecision}
    (ready : ReadyGroup texts group) {aggregate : Option Digest}
    (aggregated : aggregateHash texts validations group (executionOriginValid validations group) =
      .ok aggregate)
    (short : (executionProvenanceOf texts group).length ≤ 100)
    (judged : ∀ decision, judge = some decision →
      0 ≤ decision.confidence ∧ decision.confidence ≤ 1) :
    ∃ primary finding,
      Draft texts scannerFindings decisions validations group judge primary aggregate finding ∧
        ((∃ result, mergeGroup texts scannerFindings decisions validations group judge =
            .ok result) ↔
          ¬Unworded texts scannerFindings validations group ∧
            finding.validateOriginFields texts = .ok () ∧
            (finding.status ≠ .rejected → Conditioned group)) := by
  obtain ⟨primary, chosen⟩ : ∃ primary, IsPrimary decisions validations group primary :=
    exists_primary ready.nonempty
  have member := chosen.mem decisions validations
  have worded := primary.worded_of_validate (ready.valid primary member)
  obtain ⟨findingId, identified, named⟩ : ∃ findingId,
      stableFindingId texts primary = .ok findingId ∧ findingId ≠ "" :=
    exists_stableFindingId worded.locations
  obtain ⟨finding, id, draft, failure, merged⟩ :=
    mergeGroup_eq_validate texts scannerFindings decisions validations judge chosen aggregated
      identified
  refine ⟨primary, finding, draft, ?_⟩
  have confident := draft.confidence (fun candidate member =>
    (candidate.worded_of_validate (ready.valid candidate member)).confidence) judged
  obtain ⟨title, summary, impact, -, -⟩ := draft.primary
  have validated := validate_eq_ok_iff_complete texts finding
    ⟨by rwa [id], by rw [title]; exact worded.title, by rw [summary]; exact worded.summary,
      by rw [impact]; exact worded.impact⟩ confident (by rwa [draft.executionProvenance])
  rw [draft.complete_iff ready member] at validated
  rw [merged, ← validated]
  simp only [raiseIf_bind_eq_ok_iff, exists_and_left]
  refine and_congr_left fun _ => not_congr ?_
  rw [Unworded]
  simp only [validCandidates, List.any_eq_true, List.mem_filter, String.isEmpty_iff]
  constructor
  · rintro ⟨scanner, ⟨listed, candidate, ⟨member, valid⟩, isMatch⟩, wordless⟩
    exact ⟨scanner, listed, wordless, candidate, member, valid, isMatch⟩
  · rintro ⟨scanner, listed, wordless, candidate, member, valid, isMatch⟩
    exact ⟨scanner, ⟨listed, candidate, ⟨member, valid⟩, isMatch⟩, wordless⟩

/-- The merge does not reject the group: its anchors are valid, or a member was accepted and is
valid and the judge does not reject it. -/
def IsActive (decisions : Dict String VerificationDecision)
    (validations : Dict String (LocationValidation Digest)) (group : CandidateGroup Digest)
    (judge : Option JudgeDecision) : Prop :=
  if group.executionCandidates = [] then
    acceptedValidCandidates decisions validations group ≠ [] ∧
      ∀ decision, judge = some decision → decision.status ≠ .rejected
  else ∀ anchor ∈ group.executionCandidates, isValid validations anchor = true

omit [DecidableEq Digest] in
theorem eq_rejected_of_rank {status : FindingStatus} (bottom : status.rank = 0) :
    status = .rejected := by
  cases status <;> first | rfl | exact absurd bottom (by decide)

omit [DecidableEq Digest] in
theorem judgedStatus_eq_rejected_iff {cap : FindingStatus} {judge : Option JudgeDecision} :
    judgedStatus cap false judge = .rejected ↔
      cap = .rejected ∨ ∃ decision, judge = some decision ∧ decision.status = .rejected := by
  cases judge with
  | none => simp [judgedStatus]
  | some decision =>
      simp only [judgedStatus, Bool.not_false, Bool.true_and, decide_eq_true_eq,
        Option.some.injEq, exists_eq_left']
      split
      next lower =>
        refine ⟨.inr, ?_⟩
        rintro (rfl | rejected)
        · exact absurd lower (Nat.not_lt_zero _)
        · exact rejected
      next notLower =>
        refine ⟨.inl, ?_⟩
        rintro (rejected | rejected)
        · exact rejected
        · rw [rejected] at notLower
          exact eq_rejected_of_rank (Nat.eq_zero_of_not_pos notLower)

omit [DecidableEq Digest] in
theorem preliminaryStatus_eq_rejected_iff {group : CandidateGroup Digest}
    (none : group.executionCandidates = []) :
    preliminaryStatus texts scannerFindings decisions validations group = .rejected ↔
      acceptedValidCandidates decisions validations group = [] := by
  unfold preliminaryStatus
  dsimp only
  rw [none]
  change (if _ then _ else if _ then _ else
    if (acceptedValidCandidates decisions validations group).isEmpty then _ else _) = _ ↔ _
  rw [if_neg (by simp)]
  split
  next noneAccepted =>
    rw [List.isEmpty_iff] at noneAccepted
    simp [acceptedValidCandidates, noneAccepted]
  · split
    next noneValid => simpa using noneValid
    next someValid =>
      refine iff_of_false ?_ (by simpa using someValid)
      split_ifs <;> exact fun absurd => by cases absurd

theorem mergeGroup_returns_iff_of_no_anchor {group : CandidateGroup Digest}
    {judge : Option JudgeDecision} (ready : ReadyGroup texts group)
    (none : group.executionCandidates = [])
    (judged : ∀ decision, judge = some decision →
      0 ≤ decision.confidence ∧ decision.confidence ≤ 1) :
    (∃ result, mergeGroup texts scannerFindings decisions validations group judge = .ok result) ↔
      ¬Unworded texts scannerFindings validations group ∧
        (IsActive decisions validations group judge → Conditioned group) := by
  have notExecuted : executionOriginValid validations group = false := by
    rw [executionOriginValid, none]
    rfl
  have noProvenance : executionProvenanceOf texts group = [] := by
    rw [executionProvenanceOf, none]
    rfl
  obtain ⟨aggregate, aggregated⟩ : ∃ aggregate, aggregateHash texts validations group
      (executionOriginValid validations group) = .ok aggregate := by
    rw [notExecuted, aggregateHash, if_neg Bool.false_ne_true]
    split <;> exact ⟨_, rfl⟩
  obtain ⟨primary, finding, draft, returns⟩ := mergeGroup_returns_iff scannerFindings decisions
    ready aggregated
    (by rw [noProvenance]; exact Nat.zero_le _) judged
  have origin : finding.validateOriginFields texts = .ok () := by
    rw [Finding.validateOriginFields, draft.originKind, none, draft.executionProvenance,
      noProvenance]
    rfl
  have active : finding.status ≠ .rejected ↔ IsActive decisions validations group judge := by
    have noExecution : validExecutionCandidates validations group = [] := by
      rw [validExecutionCandidates, none]
      rfl
    rw [draft.status, noExecution, IsActive, if_pos none, List.isEmpty_nil, Bool.not_true, ne_eq,
      judgedStatus_eq_rejected_iff, preliminaryStatus_eq_rejected_iff none, not_or]
    simp only [not_exists, not_and, ne_eq]
  rw [returns, active]
  simp [origin]

/-! ## Groups with an anchor -/

/-- All evidence of an execution that the members carry is that of the anchor. -/
def SoleExecutionEvidence (group : CandidateGroup Digest) (bound : Evidence) : Prop :=
  ∀ member ∈ group.candidates, ∀ evidence ∈ member.evidence, evidence.type = .execution →
    evidence = bound

section Anchored

variable {group : CandidateGroup Digest} {anchor : CandidateFinding Digest}
  {provenance : InvariantExecutionCandidateProvenance Digest} {bound : Evidence}
  (isAnchor : group.executionCandidates = [anchor]) (anchored : AnchoredBy texts anchor provenance
    bound)

include isAnchor

include anchored in
omit [DecidableEq Digest] in
theorem executionProvenanceOf_anchor : executionProvenanceOf texts group = [provenance] := by
  have distinct : ([provenance].map fun provenance =>
      texts.hex provenance.provenanceSha256).Nodup := List.nodup_singleton _
  rw [executionProvenanceOf, isAnchor, List.filterMap_cons_some anchored.origin,
    List.filterMap_nil, Dict.values_foldl_insert_of_nodup _ distinct]
  rfl

theorem validExecutionCandidates_anchor :
    validExecutionCandidates validations group =
      if isValid validations anchor then [anchor] else [] := by
  have listed : anchor ∈ group.executionCandidates := by
    rw [isAnchor]
    exact List.mem_singleton.mpr rfl
  have member := List.mem_of_mem_filter listed
  have valid : (validCandidates validations group).contains anchor =
      isValid validations anchor := by
    rw [Bool.eq_iff_iff, List.contains_iff_mem, validCandidates, List.mem_filter]
    exact and_iff_right member
  rw [validExecutionCandidates, isAnchor, List.filter_singleton, valid]
  cases isValid validations anchor <;> rfl

theorem executionOriginValid_anchor :
    executionOriginValid validations group = isValid validations anchor := by
  rw [executionOriginValid, validExecutionCandidates_anchor isAnchor, isAnchor]
  cases isValid validations anchor <;> rfl

theorem locationCandidates_anchor (status : FindingStatus) :
    locationCandidates validations group status = [anchor] := by
  change (if !group.executionCandidates.isEmpty then
    if status ≠ .rejected && !(validExecutionCandidates validations group).isEmpty then
      validExecutionCandidates validations group
    else group.executionCandidates else _) = _
  have some : (!List.isEmpty [anchor]) = true := rfl
  rw [validExecutionCandidates_anchor isAnchor, isAnchor, if_pos some]
  cases isValid validations anchor
  · simp
  · simp

/-- An execution decides the status, and no judge changes it. -/
theorem judgedStatus_anchor (judge : Option JudgeDecision) :
    judgedStatus (preliminaryStatus texts scannerFindings decisions validations group)
        (!(validExecutionCandidates validations group).isEmpty) judge =
      if isValid validations anchor then .confirmed else .rejected := by
  have cap : preliminaryStatus texts scannerFindings decisions validations group =
      if isValid validations anchor then .confirmed else .rejected := by
    unfold preliminaryStatus
    have some : (!List.isEmpty [anchor]) = true := rfl
    dsimp only
    rw [isAnchor, if_pos some, List.all_cons, List.all_nil, Bool.and_true]
  rw [cap, validExecutionCandidates_anchor isAnchor]
  cases isValid validations anchor with
  | true =>
      cases judge with
      | none => rfl
      | some decision => simp [judgedStatus]
  | false => exact judgedStatus_eq_rejected_iff.mpr (.inl rfl)

section Evidence

variable {judge : Option JudgeDecision} {primary : CandidateFinding Digest}
  {aggregate : Option Digest} {finding : Finding Digest}
  (draft : Draft texts scannerFindings decisions validations group judge primary aggregate finding)

include draft

omit isAnchor in
/-- Evidence of an execution comes from a member. -/
theorem Draft.mem_evidence_iff {item : Evidence} (isExecution : item.type = .execution) :
    item ∈ finding.evidence ↔ ∃ candidate ∈ group.candidates, item ∈ candidate.evidence := by
  obtain ⟨scanned, scanners, evidence⟩ := draft.evidence
  rw [evidence, uniqueEvidence, List.mem_eraseDups, List.mem_append, List.mem_flatMap]
  refine or_iff_left fun scanner => ?_
  rw [scanners item scanner] at isExecution
  cases isExecution

omit isAnchor in
/-- One evidence of an execution is left if all members carry the same. -/
theorem Draft.sole_iff (member : anchor ∈ group.candidates) (carried : bound ∈ anchor.evidence)
    (isExecution : bound.type = .execution) :
    (finding.evidence.filter (·.type = .execution)).length = 1 ↔
      SoleExecutionEvidence group bound := by
  have boundListed : bound ∈ finding.evidence :=
    (draft.mem_evidence_iff isExecution).mpr ⟨anchor, member, carried⟩
  obtain ⟨scanned, -, evidence⟩ := draft.evidence
  have distinct : finding.evidence.Nodup := by
    rw [evidence, uniqueEvidence]
    exact nodup_eraseDups _
  rw [length_filter_eq_one_iff distinct boundListed (decide_eq_true isExecution)]
  constructor
  · intro alone candidate candidateMember item listed itemExecution
    exact alone item ((draft.mem_evidence_iff itemExecution).mpr
      ⟨candidate, candidateMember, listed⟩) (decide_eq_true itemExecution)
  · intro alone item listed itemExecution
    have itemExecution := of_decide_eq_true itemExecution
    obtain ⟨candidate, candidateMember, listed⟩ := (draft.mem_evidence_iff itemExecution).mp listed
    exact alone candidate candidateMember item listed itemExecution

end Evidence

include anchored in
/-- The draft passes the checks of its origin. -/
theorem Draft.origin_iff {judge : Option JudgeDecision} {primary : CandidateFinding Digest}
    {aggregate : Option Digest} {finding : Finding Digest} {hash : Digest}
    (draft : Draft texts scannerFindings decisions validations group judge primary aggregate
      finding) (accepted : ProvenanceAccepted texts provenance) (ready : ReadyGroup texts group)
    (hashed : executionOriginLocationValidationSha256 texts [provenance] = .ok hash)
    (isHash : isValid validations anchor = true → aggregate = some hash)
    (active : finding.status ≠ .rejected → isValid validations anchor = true) :
    finding.validateOriginFields texts = .ok () ↔
      (anchor.locations.map placeOf).Nodup ∧ SoleExecutionEvidence group bound := by
  have listed : anchor ∈ group.executionCandidates := by
    rw [isAnchor]
    exact List.mem_singleton.mpr rfl
  have member := List.mem_of_mem_filter listed
  have boundListed : bound ∈ anchor.evidence.filter (·.type = .execution) := by
    rw [anchored.evidence]
    exact List.mem_singleton.mpr rfl
  obtain ⟨boundCarried, boundType⟩ := List.mem_filter.mp boundListed
  have sole := draft.sole_iff member boundCarried (of_decide_eq_true boundType)
  have execution : finding.originKind = .deterministicExecution := by
    rw [draft.originKind, isAnchor]
    rfl
  have only : finding.executionProvenance = [provenance] :=
    draft.executionProvenance.trans (executionProvenanceOf_anchor isAnchor anchored)
  have locations : finding.locations = uniqueLocations texts provenance.sourceLocations := by
    rw [draft.locations, locationCandidates_anchor isAnchor, List.flatMap_singleton,
      anchored.locations]
  have expected : sortLocations texts (provenanceLocations texts [provenance]) =
      provenance.sourceLocations := by
    rw [provenanceLocations_singleton accepted, sortLocations_of_sorted accepted.sorted]
  rw [anchored.locations, ← uniqueLocations_eq_iff accepted, ← locations, ← sole]
  constructor
  · intro validated
    rw [← expected]
    exact of_validateOriginFields texts execution only validated
  · rintro ⟨sameLocations, one⟩
    refine validateOriginFields_of_anchor texts execution only ?_ ?_ ?_ ?_ ?_ ⟨one, ?_⟩
    · rw [draft.groupId]
      exact ready.named
    · rw [draft.contributing]
      exact ready.distinct
    · rw [draft.contributing, ← anchored.candidateId]
      exact List.mem_map_of_mem member
    · intro isActive
      have valid := active isActive
      refine ⟨?_, ⟨hash, hashed, ?_⟩, ?_⟩
      · rw [draft.valid, executionOriginValid_anchor isAnchor, valid, isAnchor]
        rfl
      · rw [draft.hash, isHash valid]
      · obtain ⟨families, attack, strength⟩ := draft.strength
        have sufficient : isSufficient finding.evidenceStrength = true := by
          rw [strength, isSufficient_evidenceStrengthOf_iff]
          exact .inr ((executionOriginValid_anchor isAnchor).trans valid)
        have listed := List.contains_iff_mem.mp sufficient
        simp only [List.mem_cons, List.not_mem_nil, or_false] at listed ⊢
        tauto
    · rw [sameLocations, expected]
    · intro item itemListed isExecution
      obtain ⟨candidate, candidateMember, itemCarried⟩ :=
        (draft.mem_evidence_iff isExecution).mp itemListed
      rw [sole.mp one candidate candidateMember item itemCarried isExecution]
      exact ⟨anchored.source, anchored.ruleId, anchored.fingerprint⟩

include anchored in
theorem mergeGroup_returns_iff_of_anchor (accepted : ProvenanceAccepted texts provenance)
    (ready : ReadyGroup texts group) {judge : Option JudgeDecision}
    (judged : ∀ decision, judge = some decision →
      0 ≤ decision.confidence ∧ decision.confidence ≤ 1) :
    (∃ result, mergeGroup texts scannerFindings decisions validations group judge = .ok result) ↔
      ¬Unworded texts scannerFindings validations group ∧
        ((anchor.locations.map placeOf).Nodup ∧ SoleExecutionEvidence group bound) ∧
        (isValid validations anchor = true → Conditioned group) := by
  have provenances := executionProvenanceOf_anchor isAnchor anchored
  obtain ⟨hash, hashed⟩ := exists_locationValidationSha256 accepted
  obtain ⟨aggregate, aggregated, isHash⟩ : ∃ aggregate, aggregateHash texts validations group
      (executionOriginValid validations group) = .ok aggregate ∧
        (isValid validations anchor = true → aggregate = some hash) := by
    rw [executionOriginValid_anchor isAnchor, aggregateHash, provenances, hashed]
    cases isValid validations anchor with
    | true => exact ⟨some hash, rfl, fun _ => rfl⟩
    | false =>
        rw [if_neg Bool.false_ne_true]
        split <;> exact ⟨_, rfl, fun valid => nomatch valid⟩
  obtain ⟨primary, finding, draft, returns⟩ := mergeGroup_returns_iff scannerFindings decisions
    ready aggregated
    (by rw [provenances]; exact Nat.one_le_ofNat) judged
  have active : finding.status ≠ .rejected ↔ isValid validations anchor = true := by
    rw [draft.status, judgedStatus_anchor isAnchor judge]
    cases isValid validations anchor <;> simp
  rw [returns, active, draft.origin_iff isAnchor anchored accepted ready hashed isHash active.mp]

end Anchored

/-! ## All groups -/

variable (texts scannerFindings decisions validations) in
/-- Matching scanners have messages; unless the group is rejected, some condition of each kind is
not empty; and each anchor has one location for a place and the only evidence of an execution. -/
structure Mergeable (group : CandidateGroup Digest) (judge : Option JudgeDecision) : Prop where
  worded : ¬Unworded texts scannerFindings validations group
  conditioned : IsActive decisions validations group judge → Conditioned group
  places : ∀ anchor ∈ group.executionCandidates, (anchor.locations.map placeOf).Nodup
  sole : ∀ anchor ∈ group.executionCandidates, ∀ bound ∈ anchor.evidence,
    bound.type = .execution → SoleExecutionEvidence group bound

/-- A group of valid candidates is merged exactly if it is mergeable. -/
theorem mergeGroup_returns_iff_mergeable {candidates : List (CandidateFinding Digest)}
    (valid : ∀ candidate ∈ candidates, candidate.validate texts = .ok ())
    (distinct : (candidates.map (·.candidateId)).Nodup)
    (accepted : ∀ candidate ∈ candidates, ∀ provenance,
      candidate.executionProvenance = some provenance → ProvenanceAccepted texts provenance)
    (visible : texts.source.isSpace 'g' = false) {group : CandidateGroup Digest}
    (isGroup : group ∈ groupCandidates texts candidates) {judge : Option JudgeDecision}
    (judged : ∀ decision, judge = some decision →
      0 ≤ decision.confidence ∧ decision.confidence ≤ 1) :
    (∃ finding, mergeGroup texts scannerFindings decisions validations group judge =
        .ok finding) ↔
      Mergeable texts scannerFindings decisions validations group judge := by
  have ready := readyGroup_of_mem valid distinct visible isGroup
  rcases ready.anchors with none | ⟨anchor, provenance, bound, isAnchor, member, anchored⟩
  · have noAnchor : ∀ anchor, anchor ∉ group.executionCandidates := by
      rw [none]
      exact fun _ => List.not_mem_nil
    rw [mergeGroup_returns_iff_of_no_anchor ready none judged]
    constructor
    · rintro ⟨worded, conditioned⟩
      exact ⟨worded, conditioned, fun anchor listed => absurd listed (noAnchor anchor),
        fun anchor listed => absurd listed (noAnchor anchor)⟩
    · rintro ⟨worded, conditioned, -, -⟩
      exact ⟨worded, conditioned⟩
  · have inside : anchor ∈ candidates := by
      have perm := perm_flatMap_groupCandidatesWith texts (SimilarEnough texts) candidates
      rw [groupCandidates_eq_with] at isGroup
      exact perm.subset (List.mem_flatMap.mpr ⟨group, isGroup, member⟩)
    have active : IsActive decisions validations group judge ↔
        isValid validations anchor = true := by
      rw [IsActive, isAnchor, if_neg (List.cons_ne_nil _ _), List.forall_mem_singleton]
    have bounds : ∀ evidence ∈ anchor.evidence, evidence.type = .execution → evidence = bound := by
      intro evidence listed isExecution
      have filtered : evidence ∈ anchor.evidence.filter (·.type = .execution) :=
        List.mem_filter.mpr ⟨listed, decide_eq_true isExecution⟩
      rw [anchored.evidence] at filtered
      exact List.mem_singleton.mp filtered
    have boundListed : bound ∈ anchor.evidence.filter (·.type = .execution) := by
      rw [anchored.evidence]
      exact List.mem_singleton.mpr rfl
    obtain ⟨boundCarried, boundType⟩ := List.mem_filter.mp boundListed
    rw [mergeGroup_returns_iff_of_anchor isAnchor anchored
      (accepted anchor inside provenance anchored.origin) ready judged, ← active]
    constructor
    · rintro ⟨worded, ⟨places, sole⟩, conditioned⟩
      refine ⟨worded, conditioned, ?_, ?_⟩
      · rw [isAnchor, List.forall_mem_singleton]
        exact places
      · rw [isAnchor, List.forall_mem_singleton]
        intro evidence listed isExecution
        rw [bounds evidence listed isExecution]
        exact sole
    · rintro ⟨worded, conditioned, places, sole⟩
      rw [isAnchor, List.forall_mem_singleton] at places sole
      exact ⟨worded, ⟨places, sole bound boundCarried (of_decide_eq_true boundType)⟩, conditioned⟩

end Drafting

end Acceptance

/-! ## A review without preconditions -/

/-- A review whose only precondition is an empty text. -/
def unconditionedCandidate : CandidateFinding (List UInt8) :=
  { sampleCandidate "a" [scannerEvidence] with preconditions := [""] }

/-- The review is valid, verified and valid in its locations, and the merge raises. -/
theorem merge_of_empty_precondition_fails :
    unconditionedCandidate.validate plainTexts = .ok () ∧
      groupCandidates plainTexts [unconditionedCandidate] ≠ [] ∧
      ∀ group ∈ groupCandidates plainTexts [unconditionedCandidate],
        (mergeGroup plainTexts [] sampleDecisions sampleValidations group none).toOption =
          none := by
  decide +kernel

/-- The group of a single review. -/
theorem merge_sample :
    (groupCandidates plainTexts [sampleCandidate "a" [scannerEvidence]]).length = 1 ∧
      ∀ group ∈ groupCandidates plainTexts [sampleCandidate "a" [scannerEvidence]],
        (∃ finding, mergeGroup plainTexts [sampleScanner] sampleDecisions sampleValidations group
            none = .ok finding) ↔
          Mergeable plainTexts [sampleScanner] sampleDecisions sampleValidations group none := by
  refine ⟨by decide +kernel, fun group isGroup => ?_⟩
  refine mergeGroup_returns_iff_mergeable (by decide +kernel) (by decide) ?_ (by decide) isGroup
    (fun _ absurd => nomatch absurd)
  intro candidate listed provenance claimed
  rw [List.mem_singleton.mp listed] at claimed
  cases claimed

end Consensus

end MmAudit
