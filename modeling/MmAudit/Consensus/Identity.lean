import MmAudit.Consensus.EvidenceCap
import MmAudit.Consensus.Joining

/-!
# The IDs of findings

The ID of a finding is the hash of what identifies its primary candidate: the smallest CWE or
the words of the title, and the place of the smallest location.  Two findings of different
groups can have one ID, but only where an anchor kept their groups apart, or where the two
candidates are not linked: they share no CWE, and the words of the title or the distance of
the locations that the similarity compares do not make up for it.
-/

namespace MmAudit

namespace Consensus

open Context Fallible UnionFind

section Identity

variable {Digest : Type} (texts : Texts Digest)

/-! ## What identifies a candidate -/

/-- The smallest location. -/
def smallestLocation (candidate : CandidateFinding Digest) : Option (Location Digest) :=
  (candidate.locations.insertionSort fun location other =>
    (toLex (location.path, toLex (location.startLine, location.endLine)) :
      List Char ×ₗ ℕ ×ₗ ℕ) ≤
    toLex (other.path, toLex (other.startLine, other.endLine))).head?

/-- The smallest CWE, or the words of the title. -/
def vulnerabilityClass (candidate : CandidateFinding Digest) : String :=
  match (candidate.cwe.map texts.upper).insertionSort (· ≤ ·) with
  | [] => " ".intercalate ((tokens texts candidate.title).insertionSort (· ≤ ·))
  | first :: _ => first

/-- The text under the hash of the ID. -/
def identityText (candidate : CandidateFinding Digest) : Option (List Char) :=
  (smallestLocation candidate).map fun location =>
    ['\x00'].intercalate [(vulnerabilityClass texts candidate).toList, location.path,
      (toString location.startLine).toList, location.symbol.getD []]

def findingIdOf (identity : List Char) : String :=
  "MMA-" ++ texts.upper
    (String.ofList ((texts.hex (texts.source.hashText identity)).toList.take 12))

theorem stableFindingId_eq_ok_iff {candidate : CandidateFinding Digest} {findingId : String} :
    stableFindingId texts candidate = .ok findingId ↔
      ∃ identity, identityText texts candidate = some identity ∧
        findingIdOf texts identity = findingId := by
  unfold stableFindingId identityText smallestLocation
  split
  · rename_i noLocation
    rw [noLocation]
    simp
  · rename_i location rest sorted
    rw [sorted]
    simp only [List.head?_cons, Option.map_some, Option.some.injEq, exists_eq_left',
      Except.ok.injEq]
    rfl

/-! ## Linked candidates -/

/-- The location of the later candidate that the similarity compares with the given one is near. -/
def IsNear (location : Location Digest) (later : CandidateFinding Digest) : Prop :=
  ∃ other, later.locations.find? (location.path = ·.path) = some other ∧
    location.startLine ≤ other.startLine + 12 ∧ other.startLine ≤ location.startLine + 12

/-- A common path, and a common CWE or the same words in the titles at near locations. -/
def Linked (earlier later : CandidateFinding Digest) : Prop :=
  ∃ location ∈ earlier.locations, (∃ other ∈ later.locations, location.path = other.path) ∧
    ((∃ cwe ∈ earlier.cwe, ∃ other ∈ later.cwe, texts.upper cwe = texts.upper other) ∨
      tokens texts earlier.title ≠ [] ∧
        (tokens texts earlier.title).Perm (tokens texts later.title) ∧ IsNear location later)

theorem round_literal (number : ℚ) : 0 ≤ literal number :=
  Binary64.round_nonneg number

/-- What a score has reached, a location does not take away. -/
theorem le_locationScore {reached score : ℚ} (exact : Binary64.round reached = reached)
    (isReached : reached ≤ score) (rightLocations : List (Location Digest))
    (location : Location Digest) : reached ≤ locationScore rightLocations score location := by
  have keeps : ∀ {score} number, reached ≤ score → reached ≤ addTo score (literal number) :=
    fun number isReached => Binary64.le_round_add exact isReached (round_literal number)
  unfold locationScore
  split
  · exact isReached
  · dsimp only
    split
    · split
      · exact keeps _ (keeps _ (keeps _ isReached))
      · exact keeps _ (keeps _ isReached)
    · split
      · exact keeps _ (keeps _ isReached)
      · exact keeps _ isReached

theorem le_foldl_locationScore {reached score : ℚ} (exact : Binary64.round reached = reached)
    (isReached : reached ≤ score) (rightLocations locations : List (Location Digest)) :
    reached ≤ locations.foldl (locationScore rightLocations) score := by
  induction locations generalizing score with
  | nil => exact isReached
  | cons location rest ih =>
      exact ih (le_locationScore exact isReached rightLocations location)

/-- A location that lifts the score lifts the score of all locations. -/
theorem foldl_locationScore_reaches (base : ℚ) {reached score : ℚ}
    (baseExact : Binary64.round base = base) (exact : Binary64.round reached = reached)
    (isBase : base ≤ score) {rightLocations locations : List (Location Digest)}
    {location : Location Digest} (member : location ∈ locations)
    (lifts : ∀ score, base ≤ score → reached ≤ locationScore rightLocations score location) :
    reached ≤ locations.foldl (locationScore rightLocations) score := by
  obtain ⟨before, after, rfl⟩ := List.append_of_mem member
  rw [List.foldl_append, List.foldl_cons]
  exact le_foldl_locationScore exact
    (lifts _ (le_foldl_locationScore baseExact isBase rightLocations before)) rightLocations after

theorem addTo_mono {first second part : ℚ} (ordered : first ≤ second) :
    addTo first part ≤ addTo second part :=
  Binary64.round_mono (by linarith)

theorem le_addTo {reached score part : ℚ} (exact : Binary64.round reached = reached)
    (isReached : reached ≤ score) (nonneg : 0 ≤ part) : reached ≤ addTo score part :=
  Binary64.le_round_add exact isReached nonneg

/-- A location with a common path adds a quarter at least. -/
theorem addTo_le_locationScore {score : ℚ} {rightLocations : List (Location Digest)}
    {location other : Location Digest}
    (found : rightLocations.find? (location.path = ·.path) = some other) {base : ℚ}
    (isBase : base ≤ score) {reached : ℚ} (exact : Binary64.round reached = reached)
    (isReached : reached ≤ addTo base (literal (25 / 100))) :
    reached ≤ locationScore rightLocations score location := by
  have quarter : reached ≤ addTo score (literal (25 / 100)) := isReached.trans (addTo_mono isBase)
  unfold locationScore
  rw [found]
  dsimp only
  split
  · split
    · exact le_addTo exact (le_addTo exact quarter (round_literal _)) (round_literal _)
    · exact le_addTo exact quarter (round_literal _)
  · split
    · exact le_addTo exact quarter (round_literal _)
    · exact quarter

/-- A near location adds a fifth more. -/
theorem near_le_locationScore {score : ℚ} {rightLocations : List (Location Digest)}
    {location other : Location Digest}
    (found : rightLocations.find? (location.path = ·.path) = some other)
    (near : location.startLine ≤ other.startLine + 12 ∧ other.startLine ≤ location.startLine + 12)
    (nonneg : 0 ≤ score) {reached : ℚ} (exact : Binary64.round reached = reached)
    (isReached : reached ≤ addTo (addTo 0 (literal (25 / 100))) (literal (2 / 10))) :
    reached ≤ locationScore rightLocations score location := by
  have lifted : reached ≤ addTo (addTo score (literal (25 / 100))) (literal (2 / 10)) :=
    isReached.trans (addTo_mono (addTo_mono nonneg))
  unfold locationScore
  rw [found]
  dsimp only
  rw [if_pos near]
  split
  · exact le_addTo exact lifted (round_literal _)
  · exact lifted

theorem jaccard_nonneg (left right : List String) : 0 ≤ jaccard left right := by
  unfold jaccard
  split
  · exact le_rfl
  · exact Binary64.round_nonneg _

theorem jaccard_of_perm {left right : List String} (nonempty : left ≠ [])
    (same : left.Perm right) : jaccard left right = 1 := by
  have rightNonempty : right ≠ [] := by
    rintro rfl
    exact nonempty (List.perm_nil.mp same)
  have shared : left.filter right.contains = left :=
    List.filter_eq_self.mpr fun token member => List.contains_iff_mem.mpr (same.mem_iff.mp member)
  have positive : (left.length : ℚ) ≠ 0 := by
    exact_mod_cast (List.length_pos_iff.mpr nonempty).ne'
  unfold jaccard
  rw [List.isEmpty_eq_false_iff.mpr nonempty, List.isEmpty_eq_false_iff.mpr rightNonempty, shared,
    ← same.length_eq]
  dsimp only
  rw [Bool.or_false, if_neg Bool.false_ne_true, Nat.add_sub_cancel, div_self positive]
  decide +kernel

/-- The rest of the similarity takes nothing away. -/
theorem le_candidateSimilarity {left right : CandidateFinding Digest} {reached : ℚ}
    (exact : Binary64.round reached = reached) (atMostOne : reached ≤ 1)
    (isReached : reached ≤ addTo
      (left.locations.foldl (locationScore right.locations)
        (if (left.cwe.map texts.upper).any (right.cwe.map texts.upper).contains then
          addTo 0 (literal (3 / 10)) else 0))
      (Binary64.round (literal (1 / 10) *
        jaccard (tokens texts left.title) (tokens texts right.title)))) :
    reached ≤ candidateSimilarity texts left right := by
  unfold candidateSimilarity
  dsimp only
  refine le_min atMostOne ?_
  have withPath := le_addTo exact isReached (Binary64.round_nonneg
    (literal (5 / 100) * jaccard (tokens texts (" ".intercalate left.attackPath))
      (tokens texts (" ".intercalate right.attackPath))))
  split
  · split
    · exact le_addTo exact (le_addTo exact withPath (round_literal _)) (round_literal _)
    · exact le_addTo exact withPath (round_literal _)
  · split
    · exact le_addTo exact withPath (round_literal _)
    · exact withPath

/-- Linked candidates are similar enough. -/
theorem similar_of_linked {earlier later : CandidateFinding Digest}
    (linked : Linked texts earlier later) :
    literal (55 / 100) ≤ candidateSimilarity texts earlier later := by
  have exact : Binary64.round (literal (55 / 100)) = literal (55 / 100) := by decide +kernel
  have atMostOne : literal (55 / 100) ≤ 1 := by decide +kernel
  obtain ⟨location, member, ⟨other, otherMember, samePath⟩, reason⟩ := linked
  refine le_candidateSimilarity texts exact atMostOne ?_
  rcases reason with ⟨cwe, cweMember, otherCwe, otherCweMember, sameCwe⟩ |
    ⟨nonempty, samewords, near⟩
  · have shared : (earlier.cwe.map texts.upper).any (later.cwe.map texts.upper).contains = true :=
      List.any_eq_true.mpr ⟨_, List.mem_map_of_mem cweMember,
        List.contains_iff_mem.mpr (sameCwe ▸ List.mem_map_of_mem otherCweMember)⟩
    have found : (later.locations.find? (location.path = ·.path)).isSome := by
      rw [List.find?_isSome]
      exact ⟨other, otherMember, decide_eq_true samePath⟩
    obtain ⟨compared, found⟩ := Option.isSome_iff_exists.mp found
    rw [if_pos shared]
    refine le_addTo exact (foldl_locationScore_reaches (addTo 0 (literal (3 / 10)))
      (by decide +kernel) exact le_rfl member ?_) (Binary64.round_nonneg _)
    intro score isBase
    exact addTo_le_locationScore found isBase exact (by decide +kernel)
  · obtain ⟨compared, found, isNear⟩ := near
    rw [jaccard_of_perm nonempty samewords]
    have located : addTo (addTo 0 (literal (25 / 100))) (literal (2 / 10)) ≤
        earlier.locations.foldl (locationScore later.locations)
          (if (earlier.cwe.map texts.upper).any (later.cwe.map texts.upper).contains then
            addTo 0 (literal (3 / 10)) else 0) := by
      refine foldl_locationScore_reaches 0 (by decide +kernel) (by decide +kernel) ?_
        member ?_
      · split
        · exact Binary64.round_nonneg _
        · exact le_rfl
      · intro score nonneg
        exact near_le_locationScore found isNear nonneg (by decide +kernel) le_rfl
    calc literal (55 / 100) ≤ addTo (addTo (addTo 0 (literal (25 / 100))) (literal (2 / 10)))
          (Binary64.round (literal (1 / 10) * 1)) := by decide +kernel
      _ ≤ _ := addTo_mono located

/-! ## Findings -/

variable [DecidableEq Digest] (scannerFindings : List (ScannerFinding Digest))
  (decisions : Dict String VerificationDecision)
  (validations : Dict String (LocationValidation Digest))
  (judges : CandidateGroup Digest → Option JudgeDecision)
  (candidates : List (CandidateFinding Digest))

/-- The candidate that gives the finding of the group its name and its ID. -/
def IsPrimary (group : CandidateGroup Digest) (candidate : CandidateFinding Digest) : Prop :=
  primaryCandidate (primaryPool decisions validations group) = some candidate

/-- The uniqueness check of `inventory_is_exact_and_unique`. -/
def checkUniqueIds (findings : List (Finding Digest)) : Except ValueError Unit :=
  let identifiers := findings.map (·.id)
  raiseIf (identifiers.length ≠ identifiers.dedup.length) ⟨"forensic finding IDs must be unique"⟩

omit [DecidableEq Digest] in
theorem checkUniqueIds_eq_ok_iff {findings : List (Finding Digest)} :
    checkUniqueIds findings = .ok () ↔ (findings.map (·.id)).Nodup := by
  rw [checkUniqueIds, raiseIf_eq_ok_iff, not_not]
  constructor
  · intro sameLength
    rw [← (List.dedup_sublist _).eq_of_length sameLength.symm]
    exact List.nodup_dedup _
  · intro distinct
    rw [List.dedup_eq_self.mpr distinct]

omit [DecidableEq Digest] in
theorem mem_of_firstMax {Item Key : Type} [LinearOrder Key] {key : Item → Key} {items : List Item}
    {best : Item} (chosen : firstMax key items = some best) : best ∈ items := by
  cases items with
  | nil => cases chosen
  | cons first rest =>
      rw [firstMax, Option.some.injEq] at chosen
      suffices general : ∀ (others : List Item) (current : Item), current ∈ first :: rest →
          (∀ other ∈ others, other ∈ first :: rest) →
          others.foldl (fun best next => if key best < key next then next else best) current ∈
            first :: rest by
        rw [← chosen]
        exact general rest first List.mem_cons_self fun other => List.mem_cons_of_mem _
      intro others
      induction others with
      | nil => exact fun current member _ => member
      | cons next others ih =>
          intro current member all
          obtain ⟨nextMember, restMembers⟩ := List.forall_mem_cons.mp all
          rw [List.foldl_cons]
          split
          · exact ih next nextMember restMembers
          · exact ih current member restMembers

theorem IsPrimary.mem {group : CandidateGroup Digest} {candidate : CandidateFinding Digest}
    (primary : IsPrimary decisions validations group candidate) :
    candidate ∈ group.candidates := by
  have pooled := mem_of_firstMax primary
  have inside : ∀ pool ∈ [validExecutionCandidates validations group, group.executionCandidates,
      (validCandidates validations group).filter (isAccepted decisions),
      validCandidates validations group, group.candidates], ∀ member ∈ pool,
        member ∈ group.candidates := by
    intro pool listed member inPool
    simp only [List.mem_cons, List.not_mem_nil, or_false] at listed
    rcases listed with rfl | rfl | rfl | rfl | rfl
    · exact (List.mem_filter.mp (List.mem_filter.mp inPool).1).1
    · exact (List.mem_filter.mp inPool).1
    · exact (List.mem_filter.mp (List.mem_filter.mp inPool).1).1
    · exact (List.mem_filter.mp inPool).1
    · exact inPool
  rw [primaryPool, firstNonempty] at pooled
  cases found : [validExecutionCandidates validations group, group.executionCandidates,
      (validCandidates validations group).filter (isAccepted decisions),
      validCandidates validations group, group.candidates].find? (!·.isEmpty) with
  | none =>
      rw [found] at pooled
      cases pooled
  | some pool =>
      rw [found] at pooled
      exact inside pool (List.mem_of_find?_eq_some found) candidate pooled

/-- The ID of a merged finding is the ID of its primary candidate. -/
theorem exists_primary_of_mergeGroup {group : CandidateGroup Digest}
    {judge : Option JudgeDecision} {finding : Finding Digest}
    (returned : mergeGroup texts scannerFindings decisions validations group judge = .ok finding) :
    ∃ primary, IsPrimary decisions validations group primary ∧
      ∃ identity, identityText texts primary = some identity ∧
        findingIdOf texts identity = finding.id := by
  unfold mergeGroup at returned
  dsimp only at returned
  split at returned
  · cases returned
  · rename_i primary chosen
    rw [bind_eq_ok_iff] at returned
    obtain ⟨aggregate, aggregated, returned⟩ := returned
    rw [raiseIf_bind_eq_ok_iff, bind_eq_ok_iff] at returned
    obtain ⟨-, findingId, identified, validated⟩ := returned
    obtain rfl := Finding.eq_of_validate texts validated
    exact ⟨primary, chosen, (stableFindingId_eq_ok_iff texts).mp identified⟩

/-- One candidate stands before the other. -/
def Before (candidate other : CandidateFinding Digest) : Prop :=
  ∃ first second : ℕ, first < second ∧ candidates[first]? = some candidate ∧
    candidates[second]? = some other

/-- The primary candidates of the groups have the same identity, although an anchor or a missing
link keeps the groups apart. -/
def Collides (group other : CandidateGroup Digest) : Prop :=
  ∃ primary otherPrimary, IsPrimary decisions validations group primary ∧
    IsPrimary decisions validations other otherPrimary ∧
    identityText texts primary = identityText texts otherPrimary ∧
    (group.executionCandidates ≠ [] ∨ other.executionCandidates ≠ [] ∨
      Before candidates primary otherPrimary ∧ ¬ Linked texts primary otherPrimary ∨
      Before candidates otherPrimary primary ∧ ¬ Linked texts otherPrimary primary)

variable {candidates}

omit [DecidableEq Digest] in
theorem unanchored_of_component {parent : List ℕ} {group : CandidateGroup Digest} {atRoot : ℕ}
    (component : IsComponent candidates parent group atRoot)
    (noExecution : group.executionCandidates = []) :
    Unanchored candidates parent atRoot := by
  intro index candidate listed together execution
  have member := (component candidate).mpr ⟨index, listed, together⟩
  have anchored : candidate ∈ group.executionCandidates :=
    List.mem_filter.mpr ⟨member, decide_eq_true execution⟩
  rw [noExecution] at anchored
  cases anchored

/-- Separate groups without anchors have no linked primary candidates. -/
theorem not_linked_of_separate {group other : CandidateGroup Digest}
    (separate : Separate candidates (joinedParents texts candidates) group other)
    (noExecution : group.executionCandidates = [])
    (otherNoExecution : other.executionCandidates = [])
    {primary otherPrimary : CandidateFinding Digest} (member : primary ∈ group.candidates)
    (otherMember : otherPrimary ∈ other.candidates) :
    Before candidates primary otherPrimary ∧ ¬ Linked texts primary otherPrimary ∨
      Before candidates otherPrimary primary ∧ ¬ Linked texts otherPrimary primary := by
  obtain ⟨atRoot, otherRoot, different, component, otherComponent⟩ := separate
  obtain ⟨index, listed, rfl⟩ := (component primary).mp member
  obtain ⟨otherIndex, otherListed, rfl⟩ := (otherComponent otherPrimary).mp otherMember
  have joined := (joinedParents_spec texts candidates).2
  have unanchored := unanchored_of_component component noExecution
  have otherUnanchored := unanchored_of_component otherComponent otherNoExecution
  rcases lt_trichotomy index otherIndex with before | rfl | after
  · refine .inl ⟨⟨index, otherIndex, before, listed, otherListed⟩, fun linked => different ?_⟩
    exact joined index otherIndex before primary otherPrimary listed otherListed
      (similar_of_linked texts linked) unanchored otherUnanchored
  · exact absurd rfl different
  · refine .inr ⟨⟨otherIndex, index, after, otherListed, listed⟩, fun linked => different ?_⟩
    exact (joined otherIndex index after otherPrimary primary otherListed listed
      (similar_of_linked texts linked) otherUnanchored unanchored).symm

/-- The shortened hashes of the identities are different where the identities are. -/
def DistinctHashes (candidates : List (CandidateFinding Digest)) : Prop :=
  ∀ candidate ∈ candidates, ∀ other ∈ candidates,
    (identityText texts candidate).map (findingIdOf texts) =
      (identityText texts other).map (findingIdOf texts) →
    identityText texts candidate = identityText texts other

omit [DecidableEq Digest] in
theorem mem_of_component {parent : List ℕ} {group : CandidateGroup Digest} {atRoot : ℕ}
    (component : IsComponent candidates parent group atRoot) {candidate : CandidateFinding Digest}
    (member : candidate ∈ group.candidates) : candidate ∈ candidates := by
  obtain ⟨index, listed, -⟩ := (component candidate).mp member
  exact List.mem_of_getElem? listed

/-- Two separate groups give one ID exactly when they collide. -/
theorem sameId_iff_collides (distinctHashes : DistinctHashes texts candidates)
    {group other : CandidateGroup Digest}
    (separate : Separate candidates (joinedParents texts candidates) group other)
    {judge otherJudge : Option JudgeDecision} {finding otherFinding : Finding Digest}
    (merged : mergeGroup texts scannerFindings decisions validations group judge = .ok finding)
    (otherMerged : mergeGroup texts scannerFindings decisions validations other otherJudge =
      .ok otherFinding) :
    finding.id = otherFinding.id ↔
      Collides texts decisions validations candidates group other := by
  obtain ⟨primary, isPrimary, identity, identified, sameId⟩ :=
    exists_primary_of_mergeGroup texts scannerFindings decisions validations merged
  obtain ⟨otherPrimary, otherIsPrimary, otherIdentity, otherIdentified, otherSameId⟩ :=
    exists_primary_of_mergeGroup texts scannerFindings decisions validations otherMerged
  rw [← sameId, ← otherSameId]
  constructor
  · intro same
    obtain ⟨_, _, -, component, otherComponent⟩ := id separate
    refine ⟨primary, otherPrimary, isPrimary, otherIsPrimary, ?_, ?_⟩
    · refine distinctHashes primary (mem_of_component component isPrimary.mem) otherPrimary
        (mem_of_component otherComponent otherIsPrimary.mem) ?_
      rw [identified, otherIdentified, Option.map_some, Option.map_some, same]
    · by_cases noExecution : group.executionCandidates = []
      · by_cases otherNoExecution : other.executionCandidates = []
        · exact .inr (.inr (not_linked_of_separate texts separate noExecution otherNoExecution
            isPrimary.mem otherIsPrimary.mem))
        · exact .inr (.inl otherNoExecution)
      · exact .inl noExecution
  · rintro ⟨chosen, otherChosen, isChosen, otherIsChosen, sameIdentity, -⟩
    obtain rfl := Option.some.inj (isPrimary.symm.trans isChosen)
    obtain rfl := Option.some.inj (otherIsPrimary.symm.trans otherIsChosen)
    rw [identified, otherIdentified, Option.some.injEq] at sameIdentity
    rw [sameIdentity]

end Identity

/-! ## The same words at the same place -/

def locationAt (line : ℕ) (positive : 1 ≤ line) : Location (List UInt8) where
  path := "Vault.sol".toList
  startLine := line
  endLine := line
  symbol := none
  contentHash := none
  positive := positive
  ordered := le_rfl

def reviewEvidence : Evidence where
  type := .model
  source := "source_audit"
  description := "The call comes before the write."
  ruleId := none
  fingerprint := none

/-- A candidate without source and sink. -/
def placedCandidate (candidateId : String) (cwe : List String)
    (locations : List (Location (List UInt8))) : CandidateFinding (List UInt8) :=
  { sampleCandidate candidateId [reviewEvidence] with
    cwe := cwe
    locations := locations
    source := none
    sink := none }

/-- The second candidate lists a far location before the one that both have. -/
def farFirst : List (CandidateFinding (List UInt8)) :=
  [placedCandidate "a" [] [locationAt 10 (by decide)],
    placedCandidate "b" [] [locationAt 500 (by decide), locationAt 10 (by decide)]]

/-- The same candidates, one with a CWE. -/
def classified : List (CandidateFinding (List UInt8)) :=
  [placedCandidate "a" ["CWE-841"] [locationAt 10 (by decide)],
    placedCandidate "b" [] [locationAt 500 (by decide), locationAt 10 (by decide)]]

def mergedFindings (candidates : List (CandidateFinding (List UInt8))) :
    Except ValueError (List (Finding (List UInt8))) :=
  (groupCandidates plainTexts candidates).mapM fun group =>
    mergeGroup plainTexts [] Dict.empty sampleValidations group none

end Consensus

end MmAudit
