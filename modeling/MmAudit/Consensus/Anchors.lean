import MmAudit.Consensus.EvidenceCap
import MmAudit.Consensus.Joining

/-!
# What grouping keeps

The loop over the pairs is developed for any test of similarity, as the scores can be taken
in double precision or exactly.  Every candidate stands in exactly one group, and in each
group every execution anchor fits every member: a union is only made after all anchors of
both components were compared with all their members.
-/

namespace MmAudit

namespace Consensus

open Context Fallible UnionFind

section Grouping

variable {Digest : Type} (texts : Texts Digest) [DecidableEq Digest]

/-! ## The validator of a candidate -/

/-- `CandidateFinding.origin_fields_are_exact`; the provenance has passed its own checks. -/
def CandidateFinding.originFieldsAreExact (candidate : CandidateFinding Digest) :
    Except ValueError Unit :=
  match candidate.originKind with
  | .modelReview => do
      raiseIf candidate.executionProvenance.isSome
        ⟨"model-review candidates cannot claim execution provenance"⟩
      raiseIf (candidate.role.all (·.toList.all texts.source.isSpace) ||
          candidate.modelFamily.all (·.toList.all texts.source.isSpace))
        ⟨"model-review candidates require a non-empty role and family"⟩
  | .deterministicExecution =>
      match candidate.executionProvenance with
      | none => .error ⟨"execution-origin candidates require typed provenance"⟩
      | some provenance => do
          raiseIf (candidate.role.isSome || candidate.modelFamily.isSome)
            ⟨"execution-origin candidates cannot claim a model role or family"⟩
          raiseIf (candidate.candidateId ≠ executionCandidateId texts provenance)
            ⟨"execution-origin candidate ID must derive from provenance"⟩
          raiseIf (candidate.locations ≠ provenance.sourceLocations)
            ⟨"execution-origin candidate locations must exactly match provenance"⟩
          match candidate.evidence.filter (·.type = .execution) with
          | [boundEvidence] => do
              raiseIf (boundEvidence.source ≠ "mmaudit-foundry-invariant" ∨
                  boundEvidence.ruleId ≠ some provenance.invariantId ∨
                  boundEvidence.fingerprint ≠ some (texts.hex provenance.provenanceSha256))
                ⟨"execution evidence must bind the exact provenance record"⟩
              raiseIf (candidate.evidence.any (·.type = .model))
                ⟨"execution-origin candidates cannot contain model evidence"⟩
          | _ => .error ⟨"execution-origin candidates require exactly one execution evidence"⟩

/-- The checks of a candidate, on its fields and on all of it. -/
def CandidateFinding.validate (candidate : CandidateFinding Digest) : Except ValueError Unit := do
  raiseIf (candidate.candidateId.isEmpty || candidate.title.isEmpty ||
      candidate.summary.isEmpty || candidate.impact.isEmpty || candidate.preconditions.isEmpty ||
      candidate.locations.isEmpty || candidate.attackPath.isEmpty || candidate.evidence.isEmpty ||
      candidate.falsePositiveConditions.isEmpty || candidate.recommendation.isEmpty)
    ⟨"too short"⟩
  raiseIf (decide (candidate.confidence < 0) || decide (1 < candidate.confidence))
    ⟨"confidence: out of range"⟩
  candidate.originFieldsAreExact texts

/-- An execution candidate has a provenance and a location. -/
theorem CandidateFinding.anchor_of_validate {candidate : CandidateFinding Digest}
    (valid : candidate.validate texts = .ok ())
    (execution : candidate.originKind = .deterministicExecution) :
    candidate.executionProvenance ≠ none ∧ candidate.locations ≠ [] := by
  rw [CandidateFinding.validate, raiseIf_bind_eq_ok_iff, raiseIf_bind_eq_ok_iff] at valid
  obtain ⟨notShort, -, exact⟩ := valid
  constructor
  · intro missing
    rw [CandidateFinding.originFieldsAreExact, execution, missing] at exact
    cases exact
  · intro noLocation
    rw [noLocation] at notShort
    simp at notShort

theorem anchorAccepts_self (anchor : CandidateFinding Digest) :
    anchorAccepts texts anchor anchor = true := by
  rw [anchorAccepts, decide_eq_true rfl, Bool.true_or]

/-- Whether the two are one object makes no difference for an anchor that was validated. -/
theorem anchorAccepts_iff {anchor member : CandidateFinding Digest}
    (valid : anchor.validate texts = .ok ())
    (execution : anchor.originKind = .deterministicExecution) :
    anchorAccepts texts anchor member = true ↔
      executionLocationCompatible anchor member = true ∧
        executionSemanticCompatible texts anchor member = true := by
  rw [anchorAccepts, Bool.or_eq_true, decide_eq_true_eq, Bool.and_eq_true]
  refine ⟨?_, .inr⟩
  rintro (rfl | compatible)
  · obtain ⟨-, hasLocation⟩ := anchor.anchor_of_validate texts valid execution
    obtain ⟨location, isLocation⟩ := List.exists_mem_of_ne_nil _ hasLocation
    constructor
    · refine List.any_eq_true.mpr ⟨location, isLocation, List.any_eq_true.mpr
        ⟨location, isLocation, ?_⟩⟩
      simp [location.ordered]
    · rw [executionSemanticCompatible, if_pos rfl]
  · exact compatible

/-! ## Any test of similarity -/

variable (similar : CandidateFinding Digest → CandidateFinding Digest → Prop)
  [DecidableRel similar]

/-- One turn of the loop over the pairs. -/
def pairStepWith (candidates : List (CandidateFinding Digest)) (parent : List ℕ)
    (pair : (ℕ × CandidateFinding Digest) × (ℕ × CandidateFinding Digest)) : List ℕ :=
  if similar pair.1.2 pair.2.2 then
    let (parent, allowed) := canUnion texts candidates parent pair.1.1 pair.2.1
    if allowed then union parent pair.1.1 pair.2.1 else parent
  else parent

def joinedParentsWith (candidates : List (CandidateFinding Digest)) : List ℕ :=
  (pairsOf (indexed candidates)).foldl (pairStepWith texts similar candidates)
    (List.range candidates.length)

/-- `group_candidates`, with the test of similarity as a parameter. -/
def groupCandidatesWith (candidates : List (CandidateFinding Digest)) :
    List (CandidateGroup Digest) :=
  ((groupedByRoot candidates (joinedParentsWith texts similar candidates)).2.values.map
    (groupOf texts)).insertionSort fun group other => group.groupId ≤ other.groupId

/-- The score in double precision reaches the threshold. -/
def SimilarEnough (left right : CandidateFinding Digest) : Prop :=
  literal (55 / 100) ≤ candidateSimilarity texts left right

instance : DecidableRel (SimilarEnough texts) :=
  fun left right => inferInstanceAs
    (Decidable (literal (55 / 100) ≤ candidateSimilarity texts left right))

theorem groupCandidates_eq_with (candidates : List (CandidateFinding Digest)) :
    groupCandidates texts candidates =
      groupCandidatesWith texts (SimilarEnough texts) candidates :=
  rfl

/-! ## One pair -/

variable {candidates : List (CandidateFinding Digest)} {parent : List ℕ}

/-- The two components are one, and all others are as they were. -/
structure Merges (parent : List ℕ) (left right : ℕ) (next : List ℕ) : Prop where
  rooted : Rooted next
  length : next.length = parent.length
  roots : ∀ index, root next index =
    if root parent index = root parent left ∨ root parent index = root parent right then
      min (root parent left) (root parent right)
    else root parent index

/-- A turn joins the components of a similar pair whose anchors fit, and changes nothing else. -/
theorem pairStepWith_cases (candidates : List (CandidateFinding Digest)) (rooted : Rooted parent)
    (pair : (ℕ × CandidateFinding Digest) × (ℕ × CandidateFinding Digest))
    (leftInside : pair.1.1 < parent.length) (rightInside : pair.2.1 < parent.length) :
    (similar pair.1.2 pair.2.2 ∧ MayJoin texts candidates parent pair.1.1 pair.2.1 ∧
        Merges parent pair.1.1 pair.2.1 (pairStepWith texts similar candidates parent pair)) ∨
      (¬ (similar pair.1.2 pair.2.2 ∧ MayJoin texts candidates parent pair.1.1 pair.2.1) ∧
        SameRoots parent (pairStepWith texts similar candidates parent pair)) := by
  obtain ⟨same, decided⟩ := canUnion_eq texts candidates rooted pair.1.1 pair.2.1
  unfold pairStepWith
  by_cases isSimilar : similar pair.1.2 pair.2.2
  · rw [if_pos isSimilar]
    dsimp only
    by_cases allowed : (canUnion texts candidates parent pair.1.1 pair.2.1).2 = true
    · obtain ⟨unionRooted, unionLength, roots⟩ := union_spec same.rooted
        (show pair.1.1 < _ by rwa [same.length]) (show pair.2.1 < _ by rwa [same.length])
      rw [if_pos allowed]
      refine .inl ⟨isSimilar, decided.mp allowed, unionRooted, unionLength.trans same.length, ?_⟩
      intro index
      rw [roots, same.roots, same.roots, same.roots]
    · rw [if_neg allowed]
      exact .inr ⟨fun both => allowed (decided.mpr both.2), same⟩
  · rw [if_neg isSimilar]
    exact .inr ⟨fun both => isSimilar both.1, .refl rooted⟩

theorem Merges.joins {left right : ℕ} {next : List ℕ} (merges : Merges parent left right next) :
    Joins parent next :=
  ⟨merges.rooted, merges.length, fun index other together => by
    rw [merges.roots, merges.roots, together]⟩

/-- What is together after a merge was together, or belongs to the two components. -/
theorem Merges.together {left right : ℕ} {next : List ℕ} (merges : Merges parent left right next)
    {index other : ℕ} (together : root next index = root next other) :
    root parent index = root parent other ∨
      (root parent index = root parent left ∨ root parent index = root parent right) ∧
        (root parent other = root parent left ∨ root parent other = root parent right) := by
  rw [merges.roots, merges.roots] at together
  split_ifs at together with indexInside otherInside otherInside
  · exact .inr ⟨indexInside, otherInside⟩
  · exfalso
    rcases min_choice (root parent left) (root parent right) with low | low
    · exact otherInside (.inl (together.symm.trans low))
    · exact otherInside (.inr (together.symm.trans low))
  · exfalso
    rcases min_choice (root parent left) (root parent right) with low | low
    · exact indexInside (.inl (together.trans low))
    · exact indexInside (.inr (together.trans low))
  · exact .inl together

theorem joins_pairStepWith (candidates : List (CandidateFinding Digest)) (rooted : Rooted parent)
    (pair : (ℕ × CandidateFinding Digest) × (ℕ × CandidateFinding Digest))
    (leftInside : pair.1.1 < parent.length) (rightInside : pair.2.1 < parent.length) :
    Joins parent (pairStepWith texts similar candidates parent pair) := by
  rcases pairStepWith_cases texts similar candidates rooted pair leftInside rightInside with
    ⟨-, -, merges⟩ | ⟨-, same⟩
  · exact merges.joins
  · exact same.joins

/-! ## All pairs -/

/-- What the start has and every turn keeps holds after all turns. -/
theorem foldl_pairStepWith_invariant (Holds : List ℕ → Prop)
    (pairs : List ((ℕ × CandidateFinding Digest) × (ℕ × CandidateFinding Digest)))
    (arePairs : ∀ pair ∈ pairs, IsPair candidates pair)
    (step : ∀ pair ∈ pairs, ∀ parent, Rooted parent → parent.length = candidates.length →
      Holds parent → Holds (pairStepWith texts similar candidates parent pair))
    (rooted : Rooted parent) (length : parent.length = candidates.length) (start : Holds parent) :
    Joins parent (pairs.foldl (pairStepWith texts similar candidates) parent) ∧
      Holds (pairs.foldl (pairStepWith texts similar candidates) parent) := by
  induction pairs generalizing parent with
  | nil => exact ⟨(SameRoots.refl rooted).joins, start⟩
  | cons first rest ih =>
      obtain ⟨isPair, restPairs⟩ := List.forall_mem_cons.mp arePairs
      have joins := joins_pairStepWith texts similar candidates rooted first
        (by rw [length]; exact (List.getElem?_eq_some_iff.mp isPair.left).1)
        (by rw [length]; exact (List.getElem?_eq_some_iff.mp isPair.right).1)
      obtain ⟨run, holds⟩ := ih restPairs (fun pair member => step pair (List.mem_cons_of_mem _ member))
        joins.rooted (joins.length.trans length)
        (step first List.mem_cons_self parent rooted length start)
      exact ⟨joins.trans run, holds⟩

omit [DecidableEq Digest] in
theorem isPair_of_mem {pair : (ℕ × CandidateFinding Digest) × (ℕ × CandidateFinding Digest)}
    (member : pair ∈ pairsOf (indexed candidates)) : IsPair candidates pair := by
  obtain ⟨⟨left, candidate⟩, right, other⟩ := pair
  obtain ⟨first, second, -, leftAt, rightAt⟩ := mem_pairsOf.mp member
  exact ⟨mem_indexed.mp (List.mem_of_getElem? leftAt),
    mem_indexed.mp (List.mem_of_getElem? rightAt)⟩

/-- Every list of parents between two turns is reached by the turns before. -/
theorem foldl_pairStepWith_joins
    (pairs : List ((ℕ × CandidateFinding Digest) × (ℕ × CandidateFinding Digest)))
    (arePairs : ∀ pair ∈ pairs, IsPair candidates pair) (rooted : Rooted parent)
    (length : parent.length = candidates.length) :
    Joins parent (pairs.foldl (pairStepWith texts similar candidates) parent) :=
  (foldl_pairStepWith_invariant texts similar (fun _ => True) pairs arePairs
    (fun _ _ _ _ _ _ => trivial) rooted length trivial).1

/-! ## Anchors -/

/-- In each component every anchor fits every member. -/
def Protected (candidates : List (CandidateFinding Digest)) (parent : List ℕ) : Prop :=
  ∀ (index other : ℕ) anchor member, candidates[index]? = some anchor →
    candidates[other]? = some member → root parent index = root parent other →
    anchor.originKind = .deterministicExecution → anchorAccepts texts anchor member = true

theorem protected_range (candidates : List (CandidateFinding Digest)) :
    Protected texts candidates (List.range candidates.length) := by
  intro index other anchor member anchorAt memberAt together execution
  rw [root_range (List.getElem?_eq_some_iff.mp anchorAt).1,
    root_range (List.getElem?_eq_some_iff.mp memberAt).1] at together
  rw [together, memberAt] at anchorAt
  cases anchorAt
  exact anchorAccepts_self texts _

/-- A turn keeps the anchors protected. -/
theorem Protected.pairStepWith (isProtected : Protected texts candidates parent)
    (rooted : Rooted parent)
    (pair : (ℕ × CandidateFinding Digest) × (ℕ × CandidateFinding Digest))
    (leftInside : pair.1.1 < parent.length) (rightInside : pair.2.1 < parent.length) :
    Protected texts candidates (pairStepWith texts similar candidates parent pair) := by
  intro index other anchor member anchorAt memberAt together execution
  rcases pairStepWith_cases texts similar candidates rooted pair leftInside rightInside with
    ⟨-, mayJoin, merges⟩ | ⟨-, same⟩
  · rcases merges.together together with before | ⟨anchorPlace, memberPlace⟩
    · exact isProtected index other anchor member anchorAt memberAt before execution
    · exact mayJoin index other anchor member anchorAt memberAt anchorPlace memberPlace execution
  · rw [same.roots, same.roots] at together
    exact isProtected index other anchor member anchorAt memberAt together execution

theorem joinedParentsWith_invariant (candidates : List (CandidateFinding Digest))
    (Holds : List ℕ → Prop)
    (start : Holds (List.range candidates.length))
    (step : ∀ pair ∈ pairsOf (indexed candidates), ∀ parent, Rooted parent →
      pair.1.1 < parent.length → pair.2.1 < parent.length → Holds parent →
      Holds (pairStepWith texts similar candidates parent pair)) :
    Joins (List.range candidates.length) (joinedParentsWith texts similar candidates) ∧
      Holds (joinedParentsWith texts similar candidates) := by
  refine foldl_pairStepWith_invariant texts similar Holds (pairsOf (indexed candidates))
    (fun _ => isPair_of_mem) ?_ (rooted_range _) List.length_range start
  intro pair member parent rooted length holds
  have isPair := isPair_of_mem member
  refine step pair member parent rooted ?_ ?_ holds
  · rw [length]
    exact (List.getElem?_eq_some_iff.mp isPair.left).1
  · rw [length]
    exact (List.getElem?_eq_some_iff.mp isPair.right).1

theorem protected_joinedParentsWith (candidates : List (CandidateFinding Digest)) :
    Protected texts candidates (joinedParentsWith texts similar candidates) :=
  (joinedParentsWith_invariant texts similar candidates (Protected texts candidates)
    (protected_range texts candidates) fun pair _ _ rooted leftInside rightInside holds =>
      holds.pairStepWith texts similar rooted pair leftInside rightInside).2

/-! ## Groups -/

theorem perm_flatten_values_push {Key Item : Type} [DecidableEq Key] (dict : Dict Key (List Item))
    (key : Key) (item : Item) :
    (dict.push key item).values.flatten.Perm (dict.values.flatten ++ [item]) := by
  cases stored : dict.get? key with
  | none =>
      have absent : key ∉ dict.keys := (Dict.get?_eq_none_iff _ _).mp stored
      rw [Dict.push, stored, Dict.insert, dif_neg absent]
      simp [Dict.values]
  | some items =>
      have present : key ∈ dict.keys := (Dict.mem_iff_exists_get? dict key).mpr ⟨items, stored⟩
      obtain ⟨before, after, split, beforeNe, afterNe⟩ := Dict.exists_split stored
      have unchanged : ∀ others : List (Key × List Item), (∀ other ∈ others, other.1 ≠ key) →
          (others.map fun other => if other.1 = key then (key, items ++ [item]) else other) =
            others := by
        intro others different
        refine (List.map_congr_left fun other member => ?_).trans (List.map_id _)
        exact if_neg (different other member)
      rw [Dict.push, stored, Option.getD_some, Dict.insert, dif_pos present]
      simp only [Dict.values, split, List.map_append, List.map_cons, unchanged _ beforeNe,
        unchanged _ afterNe, if_true, List.flatten_append, List.flatten_cons, List.append_assoc]
      exact (List.perm_append_comm.append_left items).append_left _

omit [DecidableEq Digest] in
/-- Every candidate is collected once, and no collected list is empty. -/
theorem groupedByRoot_partition (candidates : List (CandidateFinding Digest)) (parent : List ℕ) :
    (groupedByRoot candidates parent).2.values.flatten.Perm candidates ∧
      ∀ members ∈ (groupedByRoot candidates parent).2.values, members ≠ [] := by
  suffices general : ∀ (items : List (ℕ × CandidateFinding Digest)) (current : List ℕ)
      (grouped : Dict ℕ (List (CandidateFinding Digest))),
      (∀ members ∈ grouped.values, members ≠ []) →
      (items.foldl (fun state item =>
          ((find state.1 item.1).1, state.2.push (find state.1 item.1).2 item.2)) (current, grouped)).2.values.flatten.Perm
          (grouped.values.flatten ++ items.map Prod.snd) ∧
        ∀ members ∈ (items.foldl (fun state item =>
          ((find state.1 item.1).1, state.2.push (find state.1 item.1).2 item.2)) (current, grouped)).2.values,
            members ≠ [] by
    obtain ⟨perm, nonempty⟩ := general (indexed candidates) parent Dict.empty
      fun _ member => absurd member List.not_mem_nil
    refine ⟨perm.trans ?_, nonempty⟩
    rw [indexed, List.map_snd_zip (by simp)]
    exact .refl _
  intro items
  induction items with
  | nil =>
      intro current grouped nonempty
      rw [List.foldl_nil, List.map_nil, List.append_nil]
      exact ⟨.refl _, nonempty⟩
  | cons first rest ih =>
      intro current grouped nonempty
      rw [List.foldl_cons]
      obtain ⟨perm, restNonempty⟩ := ih (find current first.1).1
        (grouped.push (find current first.1).2 first.2) (by
          intro members member
          obtain ⟨⟨key, _⟩, listed, rfl⟩ := List.mem_map.mp member
          have found := (Dict.get?_eq_some_iff _ _ _).mpr listed
          rw [Dict.get?_push] at found
          split at found
          · cases found
            exact List.append_ne_nil_of_right_ne_nil _ (List.cons_ne_nil _ _)
          · exact nonempty _ (List.mem_map_of_mem ((Dict.get?_eq_some_iff _ _ _).mp found)))
      refine ⟨perm.trans ?_, restNonempty⟩
      rw [List.map_cons, ← List.singleton_append (l := rest.map Prod.snd), ← List.append_assoc]
      exact (perm_flatten_values_push _ _ _).append_right _

/-- The candidates of a group stand together, and stand with all their companions. -/
theorem mem_groupCandidatesWith {group : CandidateGroup Digest}
    (member : group ∈ groupCandidatesWith texts similar candidates) :
    ∃ atRoot, IsComponent candidates (joinedParentsWith texts similar candidates) group atRoot := by
  have rooted := (joinedParentsWith_invariant texts similar candidates (fun _ => True) trivial
    fun _ _ _ _ _ _ _ => trivial).1.rooted
  rw [groupCandidatesWith, List.mem_insertionSort] at member
  obtain ⟨members, listed, rfl⟩ := List.mem_map.mp member
  obtain ⟨⟨atRoot, _⟩, isItem, rfl⟩ := List.mem_map.mp listed
  refine ⟨atRoot, fun candidate => ?_⟩
  have collected := mem_groupedByRoot candidates rooted atRoot candidate
  rw [(Dict.get?_eq_some_iff _ _ _).mpr isItem, Option.getD_some] at collected
  rw [← collected]
  exact List.mem_insertionSort _

theorem perm_flatMap_groupCandidatesWith (candidates : List (CandidateFinding Digest)) :
    ((groupCandidatesWith texts similar candidates).flatMap (·.candidates)).Perm candidates := by
  have sorted := List.perm_insertionSort
    (fun group other : CandidateGroup Digest => group.groupId ≤ other.groupId)
    ((groupedByRoot candidates (joinedParentsWith texts similar candidates)).2.values.map
      (groupOf texts))
  refine (sorted.flatMap_right _).trans (List.Perm.trans ?_
    (groupedByRoot_partition candidates (joinedParentsWith texts similar candidates)).1)
  rw [List.flatMap_map, List.flatten_eq_flatMap]
  exact List.Perm.flatMap_left _ fun members _ => List.perm_insertionSort _ members

theorem ne_nil_of_mem_groupCandidatesWith {group : CandidateGroup Digest}
    (member : group ∈ groupCandidatesWith texts similar candidates) : group.candidates ≠ [] := by
  rw [groupCandidatesWith, List.mem_insertionSort] at member
  obtain ⟨members, listed, rfl⟩ := List.mem_map.mp member
  have nonempty := (groupedByRoot_partition candidates
    (joinedParentsWith texts similar candidates)).2 members listed
  intro empty
  have sorted := List.perm_insertionSort
    (fun candidate other : CandidateFinding Digest => candidate.candidateId ≤ other.candidateId)
    members
  exact nonempty (sorted.symm.trans (.of_eq empty)).eq_nil

/-! ## Assignments to the parents -/

theorem writes_componentIndices (count : ℕ) (parent : List ℕ) (atRoot : ℕ) :
    Writes parent (componentIndices count parent atRoot).1 := by
  suffices general : ∀ (indices : List ℕ) (current found : List ℕ), Writes parent current →
      Writes parent (indices.foldl (fun state index => ((find state.1 index).1,
        if (find state.1 index).2 = atRoot then state.2 ++ [index] else state.2)) (current, found)).1 from
    general (List.range count) parent [] .refl
  intro indices
  induction indices with
  | nil => exact fun current found reached => reached
  | cons first rest ih =>
      intro current found reached
      exact ih _ _ (reached.trans (writes_find current first))

theorem writes_canUnion (candidates : List (CandidateFinding Digest)) (parent : List ℕ)
    (left right : ℕ) : Writes parent (canUnion texts candidates parent left right).1 :=
  (writes_find parent left).trans ((writes_componentIndices _ _ _).trans
    ((writes_find _ right).trans (writes_componentIndices _ _ _)))

theorem writes_pairStepWith (candidates : List (CandidateFinding Digest)) (rooted : Rooted parent)
    (pair : (ℕ × CandidateFinding Digest) × (ℕ × CandidateFinding Digest)) :
    Writes parent (pairStepWith texts similar candidates parent pair) := by
  have decided := writes_canUnion texts candidates parent pair.1.1 pair.2.1
  unfold pairStepWith
  split
  · dsimp only
    split
    · exact decided.trans (writes_union (decided.rooted rooted) _ _)
    · exact decided
  · exact .refl

theorem writes_foldl_pairStepWith (candidates : List (CandidateFinding Digest))
    (pairs : List ((ℕ × CandidateFinding Digest) × (ℕ × CandidateFinding Digest)))
    (rooted : Rooted parent) :
    Writes parent (pairs.foldl (pairStepWith texts similar candidates) parent) := by
  induction pairs generalizing parent with
  | nil => exact .refl
  | cons first rest ih =>
      have step := writes_pairStepWith texts similar candidates rooted first
      exact step.trans (ih (step.rooted rooted))

omit [DecidableEq Digest] in
theorem writes_groupedByRoot (candidates : List (CandidateFinding Digest)) (parent : List ℕ) :
    Writes parent (groupedByRoot candidates parent).1 := by
  suffices general : ∀ (items : List (ℕ × CandidateFinding Digest)) (current : List ℕ)
      (grouped : Dict ℕ (List (CandidateFinding Digest))), Writes parent current →
      Writes parent (items.foldl (fun state item =>
        ((find state.1 item.1).1, state.2.push (find state.1 item.1).2 item.2)) (current, grouped)).1 from
    general (indexed candidates) parent Dict.empty .refl
  intro items
  induction items with
  | nil => exact fun current grouped reached => reached
  | cons first rest ih =>
      intro current grouped reached
      exact ih _ _ (reached.trans (writes_find current first.1))

/-- No parent is above its item, and a search from any item stops at a root: more turns of its
loop than its number change nothing. -/
def SearchesEnd (parent : List ℕ) : Prop :=
  Rooted parent ∧ ∀ index, (∀ fuel, index ≤ fuel →
    findWithin fuel parent index = find parent index) ∧
      (find parent index).1.getD (find parent index).2 (find parent index).2 =
        (find parent index).2

/-! ## The groups of a list -/

/-- Every candidate is in exactly one group and no group is empty; the parents are only changed
by assignments, after which all searches end; and every anchor fits all members of its group. -/
theorem groups_partition_and_protect (candidates : List (CandidateFinding Digest))
    (valid : ∀ candidate ∈ candidates, candidate.validate texts = .ok ()) :
    ((groupCandidates texts candidates).flatMap (·.candidates)).Perm candidates ∧
      (∀ group ∈ groupCandidates texts candidates, group.candidates ≠ []) ∧
      (∀ done rest, pairsOf (indexed candidates) = done ++ rest →
        Writes (List.range candidates.length)
          (done.foldl (pairStep texts candidates) (List.range candidates.length))) ∧
      Writes (List.range candidates.length)
        (groupedByRoot candidates (joinedParents texts candidates)).1 ∧
      (∀ parent, Writes (List.range candidates.length) parent → SearchesEnd parent ∧
        ∀ index turns, Writes (List.range candidates.length)
          (findWithin turns parent index).1) ∧
      ∀ group ∈ groupCandidates texts candidates, ∀ anchor ∈ group.candidates,
        anchor.originKind = .deterministicExecution → ∀ member ∈ group.candidates,
          executionLocationCompatible anchor member = true ∧
            executionSemanticCompatible texts anchor member = true := by
  have rooted := rooted_range candidates.length
  have joined : Writes (List.range candidates.length) (joinedParents texts candidates) :=
    writes_foldl_pairStepWith texts (SimilarEnough texts) candidates _ rooted
  refine ⟨perm_flatMap_groupCandidatesWith texts (SimilarEnough texts) candidates,
    fun group member => ne_nil_of_mem_groupCandidatesWith texts (SimilarEnough texts) member,
    fun done rest _ => writes_foldl_pairStepWith texts (SimilarEnough texts) candidates done rooted,
    joined.trans (writes_groupedByRoot candidates _), fun parent reached => ⟨?_, ?_⟩, ?_⟩
  · have reachedRooted := reached.rooted rooted
    exact ⟨reachedRooted, fun index =>
      ⟨fun fuel => findWithin_eq_find reachedRooted, find_fixed reachedRooted index⟩⟩
  · exact fun index turns => reached.trans (writes_findWithin parent turns index)
  · intro group isGroup anchor anchorMember execution member memberMember
    rw [groupCandidates_eq_with] at isGroup
    obtain ⟨atRoot, component⟩ := mem_groupCandidatesWith texts (SimilarEnough texts) isGroup
    obtain ⟨index, anchorAt, anchorRoot⟩ := (component anchor).mp anchorMember
    obtain ⟨other, memberAt, memberRoot⟩ := (component member).mp memberMember
    have accepted := protected_joinedParentsWith texts (SimilarEnough texts) candidates index other
      anchor member anchorAt memberAt (anchorRoot.trans memberRoot.symm) execution
    exact (anchorAccepts_iff texts (valid anchor (List.mem_of_getElem? anchorAt)) execution).mp
      accepted

end Grouping

/-! ## An anchor with its analysis -/

def sampleProvenance : InvariantExecutionCandidateProvenance (List UInt8) where
  invariantId := "INV-1"
  details := []
  sourceLocations := [sampleLocation]
  provenanceSha256 := [97]

/-- The candidate of a counterexample. -/
def anchorCandidate : CandidateFinding (List UInt8) :=
  { sampleCandidate "exec-a" [⟨.execution, "mmaudit-foundry-invariant", "A run breaks it.",
      some "INV-1", some "a"⟩] with
    originKind := .deterministicExecution
    executionProvenance := some sampleProvenance
    role := none
    modelFamily := none }

/-- A review of the same lines that the host has linked to the counterexample. -/
def linkedCandidate : CandidateFinding (List UInt8) :=
  sampleCandidate "model-1" [⟨.repository, hostExecutionAnalysisLinkSource, "Linked.",
    some "INV-1", some "a"⟩]

/-- The linked review joins its anchor. -/
theorem anchored_groups_sample :
    (groupCandidates plainTexts [linkedCandidate, anchorCandidate]).map (·.candidates.length) =
        [2] ∧
      ∀ group ∈ groupCandidates plainTexts [linkedCandidate, anchorCandidate],
        ∀ anchor ∈ group.candidates, anchor.originKind = .deterministicExecution →
          ∀ member ∈ group.candidates, executionLocationCompatible anchor member = true ∧
            executionSemanticCompatible plainTexts anchor member = true :=
  ⟨by decide +kernel, (groups_partition_and_protect plainTexts [linkedCandidate, anchorCandidate]
    (by decide +kernel)).2.2.2.2.2⟩

end Consensus

end MmAudit
