import MmAudit.Consensus.Grouping

/-!
# Which candidates are joined

Joining pairs never separates candidates that are together, and while no anchor is involved
it brings every similar pair together.  So two candidates of different groups without
anchors are not similar.
-/

namespace MmAudit

namespace Consensus

open Context UnionFind

variable {Digest : Type} (texts : Texts Digest) [DecidableEq Digest]
  {candidates : List (CandidateFinding Digest)}

/-! ## Searches -/

/-- Another list of parents with the same roots. -/
structure SameRoots (parent changed : List ℕ) : Prop where
  rooted : Rooted changed
  length : changed.length = parent.length
  roots : ∀ index, root changed index = root parent index

theorem SameRoots.refl {parent : List ℕ} (rooted : Rooted parent) : SameRoots parent parent :=
  ⟨rooted, rfl, fun _ => rfl⟩

theorem SameRoots.trans {first second third : List ℕ} (before : SameRoots first second)
    (after : SameRoots second third) : SameRoots first third :=
  ⟨after.rooted, after.length.trans before.length,
    fun index => (after.roots index).trans (before.roots index)⟩

theorem sameRoots_find {parent : List ℕ} (rooted : Rooted parent) (index : ℕ) :
    SameRoots parent (find parent index).1 :=
  ⟨(find_spec rooted index).2.1, (find_spec rooted index).2.2.1, (find_spec rooted index).2.2.2⟩

/-- The items of one component. -/
theorem componentIndices_spec {parent : List ℕ} (rooted : Rooted parent) (count atRoot : ℕ) :
    SameRoots parent (componentIndices count parent atRoot).1 ∧
      ∀ index, index ∈ (componentIndices count parent atRoot).2 ↔
        index < count ∧ root parent index = atRoot := by
  suffices general : ∀ (indices : List ℕ) (current : List ℕ) (found : List ℕ),
      SameRoots parent current →
      SameRoots parent (indices.foldl (fun state index => ((find state.1 index).1,
          if (find state.1 index).2 = atRoot then state.2 ++ [index] else state.2)) (current, found)).1 ∧
        ∀ index, index ∈ (indices.foldl (fun state index => ((find state.1 index).1,
          if (find state.1 index).2 = atRoot then state.2 ++ [index] else state.2)) (current, found)).2 ↔
          index ∈ found ∨ index ∈ indices ∧ root parent index = atRoot by
    obtain ⟨same, members⟩ := general (List.range count) parent [] (.refl rooted)
    refine ⟨same, fun index => (members index).trans ?_⟩
    simp
  intro indices
  induction indices with
  | nil => exact fun current found same => ⟨same, fun index => by simp⟩
  | cons first rest ih =>
      intro current found same
      have searched := sameRoots_find same.rooted first
      have rootFound : (find current first).2 = root parent first := by
        rw [(find_spec same.rooted first).1, same.roots]
      rw [List.foldl_cons]
      obtain ⟨sameRest, members⟩ := ih (find current first).1
        (if (find current first).2 = atRoot then found ++ [first] else found) (same.trans searched)
      refine ⟨sameRest, fun index => (members index).trans ?_⟩
      rw [rootFound]
      split
      · rename_i here
        simp only [List.mem_append, List.mem_cons, List.not_mem_nil, or_false]
        constructor
        · rintro ((member | rfl) | ⟨member, atIt⟩)
          · exact .inl member
          · exact .inr ⟨.inl rfl, here⟩
          · exact .inr ⟨.inr member, atIt⟩
        · rintro (member | ⟨rfl | member, atIt⟩)
          · exact .inl (.inl member)
          · exact .inl (.inr rfl)
          · exact .inr ⟨member, atIt⟩
      · rename_i elsewhere
        simp only [List.mem_cons]
        constructor
        · rintro (member | ⟨member, atIt⟩)
          · exact .inl member
          · exact .inr ⟨.inr member, atIt⟩
        · rintro (member | ⟨rfl | member, atIt⟩)
          · exact .inl member
          · exact absurd atIt elsewhere
          · exact .inr ⟨member, atIt⟩

/-- No candidate with the root comes from an execution. -/
def Unanchored (candidates : List (CandidateFinding Digest)) (parent : List ℕ) (atRoot : ℕ) :
    Prop :=
  ∀ (index : ℕ) candidate, candidates[index]? = some candidate → root parent index = atRoot →
    candidate.originKind ≠ .deterministicExecution

/-- Every anchor of the two components fits every member of both. -/
def MayJoin (candidates : List (CandidateFinding Digest)) (parent : List ℕ) (left right : ℕ) :
    Prop :=
  ∀ (index other : ℕ) anchor member, candidates[index]? = some anchor →
    candidates[other]? = some member →
    root parent index = root parent left ∨ root parent index = root parent right →
    root parent other = root parent left ∨ root parent other = root parent right →
    anchor.originKind = .deterministicExecution → anchorAccepts texts anchor member = true

/-- The decision on a union, which changes no root. -/
theorem canUnion_eq (candidates : List (CandidateFinding Digest)) {parent : List ℕ}
    (rooted : Rooted parent) (left right : ℕ) :
    SameRoots parent (canUnion texts candidates parent left right).1 ∧
      ((canUnion texts candidates parent left right).2 = true ↔
        MayJoin texts candidates parent left right) := by
  have leftSame := sameRoots_find rooted left
  obtain ⟨leftSame', leftMembers⟩ :=
    componentIndices_spec leftSame.rooted candidates.length (find parent left).2
  have leftDone := leftSame.trans leftSame'
  have rightSame := sameRoots_find leftDone.rooted right
  obtain ⟨rightSame', rightMembers⟩ :=
    componentIndices_spec (leftDone.trans rightSame).rooted candidates.length
      (find (componentIndices candidates.length (find parent left).1 (find parent left).2).1 right).2
  have rightRoot : (find (componentIndices candidates.length (find parent left).1
      (find parent left).2).1 right).2 = root parent right := by
    rw [(find_spec leftDone.rooted right).1, leftDone.roots]
  refine ⟨(leftDone.trans rightSame).trans rightSame', ?_⟩
  have listed : ∀ member, member ∈ (((componentIndices candidates.length (find parent left).1
      (find parent left).2).2 ++ (componentIndices candidates.length
        (find (componentIndices candidates.length (find parent left).1
          (find parent left).2).1 right).1
        (find (componentIndices candidates.length (find parent left).1
          (find parent left).2).1 right).2).2).dedup.insertionSort (· ≤ ·)).filterMap
            (candidates[·]?) ↔
      ∃ index : ℕ, candidates[index]? = some member ∧
        (root parent index = root parent left ∨ root parent index = root parent right) := by
    intro member
    rw [List.mem_filterMap]
    refine exists_congr fun index => ?_
    rw [List.mem_insertionSort, List.mem_dedup, List.mem_append, leftMembers, rightMembers,
      leftSame.roots, (leftDone.trans rightSame).roots, rightRoot, (find_spec rooted left).1]
    constructor
    · rintro ⟨place, found⟩
      exact ⟨found, place.imp And.right And.right⟩
    · rintro ⟨found, place⟩
      have inside := (List.getElem?_eq_some_iff.mp found).1
      exact ⟨place.imp (⟨inside, ·⟩) (⟨inside, ·⟩), found⟩
  unfold canUnion
  dsimp only
  rw [List.all_eq_true]
  constructor
  · intro accepted index other anchor member anchorAt memberAt anchorPlace memberPlace execution
    exact List.all_eq_true.mp (accepted anchor (List.mem_filter.mpr
      ⟨(listed anchor).mpr ⟨index, anchorAt, anchorPlace⟩, decide_eq_true execution⟩)) member
        ((listed member).mpr ⟨other, memberAt, memberPlace⟩)
  · intro mayJoin anchor isAnchor
    obtain ⟨anchorListed, execution⟩ := List.mem_filter.mp isAnchor
    obtain ⟨index, anchorAt, anchorPlace⟩ := (listed anchor).mp anchorListed
    refine List.all_eq_true.mpr fun member memberListed => ?_
    obtain ⟨other, memberAt, memberPlace⟩ := (listed member).mp memberListed
    exact mayJoin index other anchor member anchorAt memberAt anchorPlace memberPlace
      (of_decide_eq_true execution)

theorem canUnion_spec (candidates : List (CandidateFinding Digest)) {parent : List ℕ}
    (rooted : Rooted parent) (left right : ℕ) :
    SameRoots parent (canUnion texts candidates parent left right).1 ∧
      (Unanchored candidates parent (root parent left) →
        Unanchored candidates parent (root parent right) →
          (canUnion texts candidates parent left right).2 = true) := by
  obtain ⟨same, decided⟩ := canUnion_eq texts candidates rooted left right
  refine ⟨same, fun leftUnanchored rightUnanchored => decided.mpr ?_⟩
  intro index other anchor member anchorAt memberAt anchorPlace memberPlace execution
  rcases anchorPlace with atRoot | atRoot
  · exact absurd execution (leftUnanchored index anchor anchorAt atRoot)
  · exact absurd execution (rightUnanchored index anchor anchorAt atRoot)

/-! ## Pairs -/

/-- Items that are together stay together. -/
structure Joins (parent next : List ℕ) : Prop where
  rooted : Rooted next
  length : next.length = parent.length
  together : ∀ index other, root parent index = root parent other →
    root next index = root next other

theorem SameRoots.joins {parent changed : List ℕ} (same : SameRoots parent changed) :
    Joins parent changed :=
  ⟨same.rooted, same.length, fun _ _ together => by
    rw [same.roots, same.roots, together]⟩

theorem Joins.trans {first second third : List ℕ} (before : Joins first second)
    (after : Joins second third) : Joins first third :=
  ⟨after.rooted, after.length.trans before.length,
    fun _ _ together => after.together _ _ (before.together _ _ together)⟩

variable {parent : List ℕ}

/-- A turn keeps what is together, and joins a similar pair without anchors. -/
theorem pairStep_spec (candidates : List (CandidateFinding Digest)) (rooted : Rooted parent)
    (pair : (ℕ × CandidateFinding Digest) × (ℕ × CandidateFinding Digest)) (leftInside : pair.1.1 < parent.length)
    (rightInside : pair.2.1 < parent.length) :
    Joins parent (pairStep texts candidates parent pair) ∧
      (literal (55 / 100) ≤ candidateSimilarity texts pair.1.2 pair.2.2 →
        Unanchored candidates parent (root parent pair.1.1) →
        Unanchored candidates parent (root parent pair.2.1) →
        root (pairStep texts candidates parent pair) pair.1.1 =
          root (pairStep texts candidates parent pair) pair.2.1) := by
  obtain ⟨same, allowed⟩ := canUnion_spec texts candidates rooted pair.1.1 pair.2.1
  have leftInside' : pair.1.1 < (canUnion texts candidates parent pair.1.1 pair.2.1).1.length := by
    rwa [same.length]
  have rightInside' : pair.2.1 < (canUnion texts candidates parent pair.1.1 pair.2.1).1.length := by
    rwa [same.length]
  unfold pairStep
  by_cases similar : literal (55 / 100) ≤ candidateSimilarity texts pair.1.2 pair.2.2
  · rw [if_pos similar]
    dsimp only
    cases decided : (canUnion texts candidates parent pair.1.1 pair.2.1).2 with
    | true =>
        obtain ⟨unionRooted, unionLength, -⟩ := union_spec same.rooted leftInside' rightInside'
        rw [if_pos rfl]
        refine ⟨same.joins.trans ⟨unionRooted, unionLength, ?_⟩, fun _ _ _ => ?_⟩
        · exact fun _ _ => root_union_eq same.rooted leftInside' rightInside'
        · exact root_union_self same.rooted leftInside' rightInside'
    | false =>
        rw [if_neg Bool.false_ne_true]
        refine ⟨same.joins, fun _ leftUnanchored rightUnanchored => ?_⟩
        rw [allowed leftUnanchored rightUnanchored] at decided
        cases decided
  · rw [if_neg similar]
    exact ⟨(SameRoots.refl rooted).joins, fun isSimilar => absurd isSimilar similar⟩

/-- The candidates of a pair stand at their places in the list. -/
structure IsPair (candidates : List (CandidateFinding Digest))
    (pair : (ℕ × CandidateFinding Digest) × (ℕ × CandidateFinding Digest)) : Prop where
  left : candidates[pair.1.1]? = some pair.1.2
  right : candidates[pair.2.1]? = some pair.2.2

omit [DecidableEq Digest] in
theorem Unanchored.of_joins {next : List ℕ} (joins : Joins parent next) {index : ℕ}
    (unanchored : Unanchored candidates next (root next index)) :
    Unanchored candidates parent (root parent index) :=
  fun other candidate listed together =>
    unanchored other candidate listed (joins.together other index together)

/-- After all turns every similar pair is together, unless an anchor is among its companions. -/
theorem foldl_pairStep_spec
    (pairs : List ((ℕ × CandidateFinding Digest) × (ℕ × CandidateFinding Digest)))
    (arePairs : ∀ pair ∈ pairs, IsPair candidates pair) (rooted : Rooted parent)
    (length : parent.length = candidates.length) :
    Joins parent (pairs.foldl (pairStep texts candidates) parent) ∧
      ∀ pair ∈ pairs, literal (55 / 100) ≤ candidateSimilarity texts pair.1.2 pair.2.2 →
        Unanchored candidates (pairs.foldl (pairStep texts candidates) parent)
          (root (pairs.foldl (pairStep texts candidates) parent) pair.1.1) →
        Unanchored candidates (pairs.foldl (pairStep texts candidates) parent)
          (root (pairs.foldl (pairStep texts candidates) parent) pair.2.1) →
        root (pairs.foldl (pairStep texts candidates) parent) pair.1.1 =
          root (pairs.foldl (pairStep texts candidates) parent) pair.2.1 := by
  induction pairs generalizing parent with
  | nil =>
      exact ⟨(SameRoots.refl rooted).joins, fun _ member => absurd member List.not_mem_nil⟩
  | cons first rest ih =>
      obtain ⟨isPair, restPairs⟩ := List.forall_mem_cons.mp arePairs
      have leftInside : first.1.1 < parent.length := by
        rw [length]
        exact (List.getElem?_eq_some_iff.mp isPair.left).1
      have rightInside : first.2.1 < parent.length := by
        rw [length]
        exact (List.getElem?_eq_some_iff.mp isPair.right).1
      obtain ⟨step, joined⟩ := pairStep_spec texts candidates rooted first leftInside rightInside
      obtain ⟨run, others⟩ := ih restPairs step.rooted (step.length.trans length)
      rw [List.foldl_cons]
      refine ⟨step.trans run, ?_⟩
      intro pair member similar leftUnanchored rightUnanchored
      rcases List.mem_cons.mp member with rfl | member
      · exact run.together _ _ (joined similar
          (leftUnanchored.of_joins (step.trans run)) (rightUnanchored.of_joins (step.trans run)))
      · exact others pair member similar leftUnanchored rightUnanchored

omit [DecidableEq Digest] in
theorem mem_indexed {index : ℕ} {candidate : CandidateFinding Digest} :
    (index, candidate) ∈ indexed candidates ↔ candidates[index]? = some candidate := by
  have inside : candidates[index]? = some candidate → index < candidates.length :=
    fun listed => (List.getElem?_eq_some_iff.mp listed).1
  rw [List.mem_iff_getElem?]
  constructor
  · rintro ⟨place, found⟩
    obtain ⟨same, listed⟩ := List.getElem?_zip_eq_some.mp found
    obtain ⟨placeInside, atPlace⟩ := List.getElem?_eq_some_iff.mp same
    rw [List.getElem_range] at atPlace
    subst atPlace
    exact listed
  · intro listed
    refine ⟨index, List.getElem?_zip_eq_some.mpr ⟨?_, listed⟩⟩
    exact List.getElem?_range (inside listed)

theorem mem_pairsOf {Item : Type} {items : List Item} {left right : Item} :
    (left, right) ∈ pairsOf items ↔
      ∃ first second : ℕ, first < second ∧ items[first]? = some left ∧ items[second]? = some right := by
  induction items with
  | nil => simp [pairsOf]
  | cons item items ih =>
      rw [pairsOf, List.mem_append, ih]
      constructor
      · rintro (member | ⟨first, second, ordered, leftAt, rightAt⟩)
        · obtain ⟨other, otherMember, same⟩ := List.mem_map.mp member
          cases same
          obtain ⟨place, rightAt⟩ := List.mem_iff_getElem?.mp otherMember
          exact ⟨0, place + 1, Nat.succ_pos place, rfl, rightAt⟩
        · exact ⟨first + 1, second + 1, Nat.succ_lt_succ ordered, leftAt, rightAt⟩
      · rintro ⟨first, second, ordered, leftAt, rightAt⟩
        obtain ⟨second, rfl⟩ : ∃ rest, second = rest + 1 := ⟨second - 1, by omega⟩
        rw [List.getElem?_cons_succ] at rightAt
        cases first with
        | zero =>
            rw [List.getElem?_cons_zero] at leftAt
            cases leftAt
            exact .inl (List.mem_map_of_mem (List.mem_of_getElem? rightAt))
        | succ first =>
            rw [List.getElem?_cons_succ] at leftAt
            exact .inr ⟨first, second, Nat.lt_of_succ_lt_succ ordered, leftAt, rightAt⟩

omit [DecidableEq Digest] in
/-- What is collected under a root. -/
theorem mem_groupedByRoot (candidates : List (CandidateFinding Digest)) {parent : List ℕ} (rooted : Rooted parent) (atRoot : ℕ)
    (candidate : CandidateFinding Digest) :
    candidate ∈ ((groupedByRoot candidates parent).2.get? atRoot).getD [] ↔
      ∃ index : ℕ, candidates[index]? = some candidate ∧ root parent index = atRoot := by
  suffices general : ∀ (items : List (ℕ × CandidateFinding Digest)) (current : List ℕ)
      (grouped : Dict ℕ (List (CandidateFinding Digest))), SameRoots parent current →
      (candidate ∈ ((items.foldl (fun state item =>
          ((find state.1 item.1).1, state.2.push (find state.1 item.1).2 item.2)) (current, grouped)).2.get? atRoot).getD [] ↔
        candidate ∈ (grouped.get? atRoot).getD [] ∨
          ∃ index, (index, candidate) ∈ items ∧ root parent index = atRoot) by
    refine (general (indexed candidates) parent Dict.empty (.refl rooted)).trans ?_
    simp only [Dict.get?_empty, Option.getD_none, List.not_mem_nil, false_or, mem_indexed]
  intro items
  induction items with
  | nil => exact fun current grouped same => by simp
  | cons first rest ih =>
      intro current grouped same
      have rootFound : (find current first.1).2 = root parent first.1 := by
        rw [(find_spec same.rooted first.1).1, same.roots]
      rw [List.foldl_cons]
      refine (ih (find current first.1).1 (grouped.push (find current first.1).2 first.2)
        (same.trans (sameRoots_find same.rooted first.1))).trans ?_
      rw [rootFound, Dict.get?_push]
      split
      · rename_i here
        rw [Option.getD_some, List.mem_append, List.mem_singleton, ← here]
        constructor
        · rintro ((member | rfl) | ⟨index, member, atIt⟩)
          · exact .inl member
          · exact .inr ⟨first.1, List.mem_cons_self, here.symm⟩
          · exact .inr ⟨index, List.mem_cons_of_mem _ member, atIt⟩
        · rintro (member | ⟨index, member, atIt⟩)
          · exact .inl (.inl member)
          · rcases List.mem_cons.mp member with same | member
            · exact .inl (.inr (congrArg Prod.snd same))
            · exact .inr ⟨index, member, atIt⟩
      · rename_i elsewhere
        constructor
        · rintro (member | ⟨index, member, atIt⟩)
          · exact .inl member
          · exact .inr ⟨index, List.mem_cons_of_mem _ member, atIt⟩
        · rintro (member | ⟨index, member, atIt⟩)
          · exact .inl member
          · rcases List.mem_cons.mp member with same | member
            · rw [← same] at elsewhere
              exact absurd atIt.symm elsewhere
            · exact .inr ⟨index, member, atIt⟩

/-! ## Groups -/

/-- The group holds exactly the candidates with one root. -/
def IsComponent (candidates : List (CandidateFinding Digest)) (parent : List ℕ)
    (group : CandidateGroup Digest) (atRoot : ℕ) : Prop :=
  ∀ candidate, candidate ∈ group.candidates ↔
    ∃ index : ℕ, candidates[index]? = some candidate ∧ root parent index = atRoot

/-- The two groups have different roots. -/
def Separate (candidates : List (CandidateFinding Digest)) (parent : List ℕ)
    (group other : CandidateGroup Digest) : Prop :=
  ∃ atRoot otherRoot, atRoot ≠ otherRoot ∧ IsComponent candidates parent group atRoot ∧
    IsComponent candidates parent other otherRoot

omit [DecidableEq Digest] in
theorem Separate.symm {parent : List ℕ} {group other : CandidateGroup Digest}
    (separate : Separate candidates parent group other) :
    Separate candidates parent other group := by
  obtain ⟨atRoot, otherRoot, different, component, otherComponent⟩ := separate
  exact ⟨otherRoot, atRoot, different.symm, otherComponent, component⟩

theorem joinedParents_spec (candidates : List (CandidateFinding Digest)) :
    Joins (List.range candidates.length) (joinedParents texts candidates) ∧
      ∀ left right : ℕ, left < right → ∀ candidate other, candidates[left]? = some candidate →
        candidates[right]? = some other →
        literal (55 / 100) ≤ candidateSimilarity texts candidate other →
        Unanchored candidates (joinedParents texts candidates)
          (root (joinedParents texts candidates) left) →
        Unanchored candidates (joinedParents texts candidates)
          (root (joinedParents texts candidates) right) →
        root (joinedParents texts candidates) left = root (joinedParents texts candidates) right := by
  have arePairs : ∀ pair ∈ pairsOf (indexed candidates), IsPair candidates pair := by
    rintro ⟨⟨left, candidate⟩, ⟨right, other⟩⟩ member
    obtain ⟨first, second, -, leftAt, rightAt⟩ := mem_pairsOf.mp member
    exact ⟨mem_indexed.mp (List.mem_of_getElem? leftAt), mem_indexed.mp (List.mem_of_getElem? rightAt)⟩
  obtain ⟨joins, joined⟩ := foldl_pairStep_spec texts (pairsOf (indexed candidates)) arePairs
    (rooted_range candidates.length) List.length_range
  refine ⟨joins, ?_⟩
  intro left right ordered candidate other leftAt rightAt
  have indexedAt : ∀ (index : ℕ) candidate, candidates[index]? = some candidate →
      (indexed candidates)[index]? = some (index, candidate) := fun index candidate listed =>
    List.getElem?_zip_eq_some.mpr
      ⟨List.getElem?_range (List.getElem?_eq_some_iff.mp listed).1, listed⟩
  exact joined ((left, candidate), (right, other)) (mem_pairsOf.mpr
    ⟨left, right, ordered, indexedAt left candidate leftAt, indexedAt right other rightAt⟩)

/-- Different groups have different roots. -/
theorem groups_separate (candidates : List (CandidateFinding Digest)) :
    (groupCandidates texts candidates).Pairwise
      (Separate candidates (joinedParents texts candidates)) := by
  have rooted := (joinedParents_spec texts candidates).1.rooted
  have permuted := List.perm_insertionSort
    (fun group other : CandidateGroup Digest => group.groupId ≤ other.groupId)
    ((groupedByRoot candidates (joinedParents texts candidates)).2.values.map (groupOf texts))
  rw [groupCandidates, permuted.pairwise_iff fun separate => separate.symm, Dict.values,
    List.map_map, List.pairwise_map]
  have component : ∀ item ∈ (groupedByRoot candidates (joinedParents texts candidates)).2.items,
      IsComponent candidates (joinedParents texts candidates) (groupOf texts item.2) item.1 := by
    rintro ⟨atRoot, members⟩ listed candidate
    have found := (Dict.get?_eq_some_iff _ atRoot members).mpr listed
    have collected := mem_groupedByRoot candidates rooted atRoot candidate
    rw [found, Option.getD_some] at collected
    rw [← collected]
    exact List.mem_insertionSort _
  have distinct := (groupedByRoot candidates (joinedParents texts candidates)).2.nodup
  rw [List.Nodup, List.pairwise_map] at distinct
  refine distinct.imp_of_mem fun {item other} itemListed otherListed different => ?_
  exact ⟨item.1, other.1, different, component item itemListed, component other otherListed⟩

end Consensus

end MmAudit
