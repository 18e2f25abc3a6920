import MmAudit.Consensus.Anchors
import MmAudit.Library.Arrangement

/-!
# Grouping and the order of the candidates

Two candidates are joined in one order of the list and not in another for two reasons: the
similarity of a pair depends on which of the two is earlier, and an anchor keeps out what was
joined to its member before.  The groups are the same in every order exactly when neither can
happen: everything that pairs connect fits together, and no set of candidates is only left
through pairs that can all come in the wrong order at once.
-/

namespace MmAudit

namespace Consensus

open Context Relation UnionFind

section Components

variable {Digest : Type} (texts : Texts Digest) [DecidableEq Digest]
  (similar : CandidateFinding Digest → CandidateFinding Digest → Prop)

/-! ## The condition -/

/-- If one of the two is an anchor, it fits the other one. -/
def Fits (candidate other : CandidateFinding Digest) : Prop :=
  (candidate.originKind = .deterministicExecution → anchorAccepts texts candidate other = true) ∧
    (other.originKind = .deterministicExecution → anchorAccepts texts other candidate = true)

/-- The two candidates of the list are joined when they are alone and the first comes first. -/
structure Leads (candidates : List (CandidateFinding Digest))
    (earlier later : CandidateFinding Digest) : Prop where
  earlierListed : earlier ∈ candidates
  laterListed : later ∈ candidates
  isSimilar : similar earlier later
  fits : Fits texts earlier later

/-- Pairs of the list lead from the one candidate to the other, in any direction. -/
def Connected (candidates : List (CandidateFinding Digest)) :
    CandidateFinding Digest → CandidateFinding Digest → Prop :=
  EqvGen (Leads texts similar candidates)

/-- The pair leads into the set or out of it. -/
def Crosses (candidates : List (CandidateFinding Digest)) (inside : CandidateFinding Digest → Prop)
    (earlier later : CandidateFinding Digest) : Prop :=
  Leads texts similar candidates earlier later ∧ (inside earlier ↔ ¬ inside later)

/-- The members are what is connected to one of them. -/
def IsClass (candidates members : List (CandidateFinding Digest)) : Prop :=
  members.Nodup ∧ ∃ candidate ∈ candidates, ∀ member, member ∈ members ↔
    member ∈ candidates ∧ Connected texts similar candidates candidate member

/-- The order of the list makes no difference. -/
structure OrderFree (candidates : List (CandidateFinding Digest)) : Prop where
  /-- Anchors fit all that is connected to them. -/
  fits : ∀ candidate ∈ candidates, ∀ other ∈ candidates,
    Connected texts similar candidates candidate other → Fits texts candidate other
  /-- A set of candidates that some pair crosses is crossed by a cycle of pairs, which no order of
  the list avoids. -/
  crossed : ∀ (inside : CandidateFinding Digest → Prop) earlier later,
    Crosses texts similar candidates inside earlier later →
      ∃ candidate, TransGen (Crosses texts similar candidates inside) candidate candidate
  /-- Classes with one group ID are one class. -/
  distinctIds : ∀ members others, IsClass texts similar candidates members →
    IsClass texts similar candidates others →
    (groupOf texts members).groupId = (groupOf texts others).groupId → members.Perm others

variable {texts similar} {candidates : List (CandidateFinding Digest)}

theorem Fits.symm {candidate other : CandidateFinding Digest} (fits : Fits texts candidate other) :
    Fits texts other candidate :=
  ⟨fits.2, fits.1⟩

theorem Leads.perm {arrangement : List (CandidateFinding Digest)}
    (perm : arrangement.Perm candidates) :
    Leads texts similar arrangement = Leads texts similar candidates := by
  funext earlier later
  refine propext ⟨fun leads => ?_, fun leads => ?_⟩
  · exact ⟨perm.mem_iff.mp leads.earlierListed, perm.mem_iff.mp leads.laterListed, leads.isSimilar,
      leads.fits⟩
  · exact ⟨perm.mem_iff.mpr leads.earlierListed, perm.mem_iff.mpr leads.laterListed,
      leads.isSimilar, leads.fits⟩

/-- What leaves a set on the way crosses it. -/
theorem Connected.exists_crosses {inside : CandidateFinding Digest → Prop}
    {candidate other : CandidateFinding Digest}
    (connected : Connected texts similar candidates candidate other) (isInside : inside candidate)
    (isOutside : ¬ inside other) :
    ∃ earlier later, Crosses texts similar candidates inside earlier later := by
  by_contra noneCrosses
  have kept : inside candidate ↔ inside other := by
    clear isInside isOutside
    induction connected with
    | rel earlier later leads =>
        by_contra different
        exact noneCrosses ⟨earlier, later, leads, by tauto⟩
    | refl candidate => exact Iff.rfl
    | symm first second _ ih => exact ih.symm
    | trans first second third _ _ ihFirst ihSecond => exact ihFirst.trans ihSecond
  exact isOutside (kept.mp isInside)

/-! ## Candidates with one root -/

variable (texts similar) [DecidableRel similar]

omit [DecidableEq Digest] in
theorem mem_pairsOf_indexed
    {pair : (ℕ × CandidateFinding Digest) × (ℕ × CandidateFinding Digest)} :
    pair ∈ pairsOf (indexed candidates) ↔ pair.1.1 < pair.2.1 ∧ IsPair candidates pair := by
  have indexedAt : ∀ (place : ℕ) item, (indexed candidates)[place]? = some item ↔
      item.1 = place ∧ candidates[place]? = some item.2 := by
    intro place item
    rw [indexed, List.getElem?_zip_eq_some]
    constructor
    · rintro ⟨atPlace, listed⟩
      obtain ⟨_, same⟩ := List.getElem?_eq_some_iff.mp atPlace
      rw [List.getElem_range] at same
      exact ⟨same.symm, listed⟩
    · rintro ⟨rfl, listed⟩
      exact ⟨List.getElem?_range (List.getElem?_eq_some_iff.mp listed).1, listed⟩
  obtain ⟨left, right⟩ := pair
  rw [mem_pairsOf]
  constructor
  · rintro ⟨first, second, ordered, leftAt, rightAt⟩
    obtain ⟨rfl, leftListed⟩ := (indexedAt first left).mp leftAt
    obtain ⟨rfl, rightListed⟩ := (indexedAt second right).mp rightAt
    exact ⟨ordered, leftListed, rightListed⟩
  · rintro ⟨ordered, leftListed, rightListed⟩
    exact ⟨left.1, right.1, ordered, (indexedAt _ _).mpr ⟨rfl, leftListed⟩,
      (indexedAt _ _).mpr ⟨rfl, rightListed⟩⟩

omit [DecidableRel similar] in
/-- A pair that may join fits by itself. -/
theorem MayJoin.fits {parent : List ℕ} {left right : ℕ} {earlier later : CandidateFinding Digest}
    (mayJoin : MayJoin texts candidates parent left right)
    (earlierAt : candidates[left]? = some earlier) (laterAt : candidates[right]? = some later) :
    Fits texts earlier later :=
  ⟨mayJoin left right earlier later earlierAt laterAt (.inl rfl) (.inr rfl),
    mayJoin right left later earlier laterAt earlierAt (.inr rfl) (.inl rfl)⟩

/-- Candidates with one root are alike. -/
def RootsAlike (alike : CandidateFinding Digest → CandidateFinding Digest → Prop)
    (candidates : List (CandidateFinding Digest)) (parent : List ℕ) : Prop :=
  ∀ (index other : ℕ) candidate member, candidates[index]? = some candidate →
    candidates[other]? = some member → root parent index = root parent other →
      alike candidate member

section Alike

variable {alike : CandidateFinding Digest → CandidateFinding Digest → Prop}
  (equivalence : Equivalence alike)
  (linked : ∀ (left right : ℕ) earlier later, left < right → candidates[left]? = some earlier →
    candidates[right]? = some later → similar earlier later → Fits texts earlier later →
    alike earlier later)

include equivalence

omit [DecidableEq Digest] in
theorem rootsAlike_range : RootsAlike alike candidates (List.range candidates.length) := by
  intro index other candidate member candidateAt memberAt together
  rw [root_range (List.getElem?_eq_some_iff.mp candidateAt).1,
    root_range (List.getElem?_eq_some_iff.mp memberAt).1] at together
  rw [together, memberAt] at candidateAt
  cases candidateAt
  exact equivalence.refl _

include linked

/-- A turn joins alike candidates only. -/
theorem RootsAlike.pairStepWith {parent : List ℕ} (rootsAlike : RootsAlike alike candidates parent)
    {pair : (ℕ × CandidateFinding Digest) × (ℕ × CandidateFinding Digest)}
    (member : pair ∈ pairsOf (indexed candidates)) (rooted : Rooted parent)
    (leftInside : pair.1.1 < parent.length) (rightInside : pair.2.1 < parent.length) :
    RootsAlike alike candidates (pairStepWith texts similar candidates parent pair) := by
  obtain ⟨ordered, isPair⟩ := mem_pairsOf_indexed.mp member
  intro index other candidate companion candidateAt companionAt together
  rcases pairStepWith_cases texts similar candidates rooted pair leftInside rightInside with
    ⟨isSimilar, mayJoin, merges⟩ | ⟨-, same⟩
  · have pairAlike : alike pair.1.2 pair.2.2 := linked pair.1.1 pair.2.1 _ _ ordered isPair.left
      isPair.right isSimilar (mayJoin.fits texts isPair.left isPair.right)
    -- both candidates are alike to the left one of the pair
    have toLeft : ∀ (place : ℕ) item, candidates[place]? = some item →
        root parent place = root parent pair.1.1 ∨ root parent place = root parent pair.2.1 →
        alike item pair.1.2 := by
      rintro place item itemAt (atLeft | atRight)
      · exact rootsAlike place pair.1.1 item _ itemAt isPair.left atLeft
      · exact equivalence.trans (rootsAlike place pair.2.1 item _ itemAt isPair.right atRight)
          (equivalence.symm pairAlike)
    rcases merges.together together with before | ⟨candidatePlace, companionPlace⟩
    · exact rootsAlike index other candidate companion candidateAt companionAt before
    · exact equivalence.trans (toLeft index candidate candidateAt candidatePlace)
        (equivalence.symm (toLeft other companion companionAt companionPlace))
  · rw [same.roots, same.roots] at together
    exact rootsAlike index other candidate companion candidateAt companionAt together

/-- A relation between the two candidates of every pair that fits holds in all components. -/
theorem rootsAlike_foldl
    {done : List ((ℕ × CandidateFinding Digest) × (ℕ × CandidateFinding Digest))}
    (taken : ∀ pair ∈ done, pair ∈ pairsOf (indexed candidates)) :
    RootsAlike alike candidates
      (done.foldl (pairStepWith texts similar candidates) (List.range candidates.length)) := by
  refine (foldl_pairStepWith_invariant texts similar (RootsAlike alike candidates) done
    (fun pair member => isPair_of_mem (taken pair member)) ?_ (rooted_range _) List.length_range
    (rootsAlike_range equivalence)).2
  intro pair member parent rooted length holds
  have isPair := isPair_of_mem (taken pair member)
  refine holds.pairStepWith texts similar equivalence linked (taken pair member) rooted ?_ ?_
  · rw [length]
    exact (List.getElem?_eq_some_iff.mp isPair.left).1
  · rw [length]
    exact (List.getElem?_eq_some_iff.mp isPair.right).1

theorem rootsAlike_joinedParentsWith :
    RootsAlike alike candidates (joinedParentsWith texts similar candidates) :=
  rootsAlike_foldl texts similar equivalence linked fun _ member => member

end Alike

omit [DecidableRel similar] in
/-- Pairs of the list that fit are connected. -/
theorem connected_of_fits {left right : ℕ} {earlier later : CandidateFinding Digest}
    (earlierAt : candidates[left]? = some earlier) (laterAt : candidates[right]? = some later)
    (isSimilar : similar earlier later) (fits : Fits texts earlier later) :
    Connected texts similar candidates earlier later :=
  .rel _ _ ⟨List.mem_of_getElem? earlierAt, List.mem_of_getElem? laterAt, isSimilar, fits⟩

/-- A pair that may join at its turn is together in the end. -/
theorem together_of_mayJoin
    {before after : List ((ℕ × CandidateFinding Digest) × (ℕ × CandidateFinding Digest))}
    {pair : (ℕ × CandidateFinding Digest) × (ℕ × CandidateFinding Digest)}
    (split : pairsOf (indexed candidates) = before ++ pair :: after)
    (isSimilar : similar pair.1.2 pair.2.2)
    (mayJoin : MayJoin texts candidates (before.foldl (pairStepWith texts similar candidates)
      (List.range candidates.length)) pair.1.1 pair.2.1) :
    root (joinedParentsWith texts similar candidates) pair.1.1 =
      root (joinedParentsWith texts similar candidates) pair.2.1 := by
  have arePairs : ∀ other ∈ before ++ pair :: after, IsPair candidates other := by
    intro other member
    exact isPair_of_mem (split ▸ member)
  have started := foldl_pairStepWith_joins texts similar before
    (fun other member => arePairs other (List.mem_append_left _ member))
    (rooted_range candidates.length) List.length_range
  have length := started.length.trans List.length_range
  have isPair := arePairs pair (List.mem_append_right _ List.mem_cons_self)
  have leftInside := (List.getElem?_eq_some_iff.mp isPair.left).1
  have rightInside := (List.getElem?_eq_some_iff.mp isPair.right).1
  rw [← length] at leftInside rightInside
  have joins := joins_pairStepWith texts similar candidates started.rooted pair leftInside
    rightInside
  have finished := foldl_pairStepWith_joins texts similar after
    (fun other member =>
      arePairs other (List.mem_append_right _ (List.mem_cons_of_mem _ member)))
    joins.rooted (joins.length.trans length)
  rw [joinedParentsWith, split, List.foldl_append, List.foldl_cons]
  refine finished.together _ _ ?_
  rcases pairStepWith_cases texts similar candidates started.rooted pair leftInside rightInside with
    ⟨-, -, merges⟩ | ⟨notJoined, -⟩
  · rw [merges.roots, merges.roots, if_pos (.inl rfl), if_pos (.inr rfl)]
  · exact absurd ⟨isSimilar, mayJoin⟩ notJoined

/-- Where all that is connected fits, every similar pair that fits is together in the end. -/
theorem together_of_fits (fitting : ∀ candidate ∈ candidates, ∀ other ∈ candidates,
      Connected texts similar candidates candidate other → Fits texts candidate other)
    {left right : ℕ} {earlier later : CandidateFinding Digest} (ordered : left < right)
    (earlierAt : candidates[left]? = some earlier) (laterAt : candidates[right]? = some later)
    (isSimilar : similar earlier later) (fits : Fits texts earlier later) :
    root (joinedParentsWith texts similar candidates) left =
      root (joinedParentsWith texts similar candidates) right := by
  have listed : ((left, earlier), (right, later)) ∈ pairsOf (indexed candidates) :=
    mem_pairsOf_indexed.mpr ⟨ordered, earlierAt, laterAt⟩
  obtain ⟨before, after, split⟩ := List.append_of_mem listed
  refine together_of_mayJoin texts similar split isSimilar ?_
  have connected := connected_of_fits texts similar earlierAt laterAt isSimilar fits
  have taken : ∀ pair ∈ before, pair ∈ pairsOf (indexed candidates) := fun pair member =>
    split ▸ List.mem_append_left _ member
  have alike := rootsAlike_foldl texts similar (EqvGen.is_equivalence _)
    (fun _ _ _ _ _ => connected_of_fits texts similar) taken
  have toEarlier : ∀ (place : ℕ) item, candidates[place]? = some item →
      root (before.foldl (pairStepWith texts similar candidates)
        (List.range candidates.length)) place =
          root (before.foldl (pairStepWith texts similar candidates)
            (List.range candidates.length)) left ∨
        root (before.foldl (pairStepWith texts similar candidates)
          (List.range candidates.length)) place =
          root (before.foldl (pairStepWith texts similar candidates)
            (List.range candidates.length)) right →
      Connected texts similar candidates item earlier := by
    rintro place item itemAt (atLeft | atRight)
    · exact alike place left item earlier itemAt earlierAt atLeft
    · exact (alike place right item later itemAt laterAt atRight).trans _ _ _ connected.symm
  intro index other anchor member anchorAt memberAt anchorPlace memberPlace execution
  exact (fitting anchor (List.mem_of_getElem? anchorAt) member (List.mem_of_getElem? memberAt)
    ((toEarlier index anchor anchorAt anchorPlace).trans _ _ _
      (toEarlier other member memberAt memberPlace).symm)).1 execution

/-- The first two candidates are together when they fit. -/
theorem together_of_first {earlier later : CandidateFinding Digest}
    {rest : List (CandidateFinding Digest)} (isSimilar : similar earlier later)
    (fits : Fits texts earlier later) :
    root (joinedParentsWith texts similar (earlier :: later :: rest)) 0 =
      root (joinedParentsWith texts similar (earlier :: later :: rest)) 1 := by
  obtain ⟨after, split⟩ : ∃ after, pairsOf (indexed (earlier :: later :: rest)) =
      [] ++ ((0, earlier), (1, later)) :: after := by
    rw [indexed, List.length_cons, List.length_cons, List.range_succ_eq_map,
      List.range_succ_eq_map]
    exact ⟨_, rfl⟩
  refine together_of_mayJoin texts similar split isSimilar ?_
  intro index other anchor member anchorAt memberAt anchorPlace memberPlace execution
  have isRoot : ∀ place < (earlier :: later :: rest).length,
      root (List.range (earlier :: later :: rest).length) place = place := fun _ => root_range
  have zeroInside : 0 < (earlier :: later :: rest).length := Nat.succ_pos _
  have oneInside : 1 < (earlier :: later :: rest).length := Nat.succ_lt_succ (Nat.succ_pos _)
  rw [List.foldl_nil, isRoot 0 zeroInside, isRoot 1 oneInside] at anchorPlace memberPlace
  rw [isRoot index (List.getElem?_eq_some_iff.mp anchorAt).1] at anchorPlace
  rw [isRoot other (List.getElem?_eq_some_iff.mp memberAt).1] at memberPlace
  rcases anchorPlace with rfl | rfl <;> rcases memberPlace with rfl | rfl <;>
    cases anchorAt <;> cases memberAt
  · exact anchorAccepts_self texts earlier
  · exact fits.1 execution
  · exact fits.2 execution
  · exact anchorAccepts_self texts later

/-! ## Candidates in one group -/

/-- The two candidates stand in one of the groups. -/
def Together (groups : List (CandidateGroup Digest)) (candidate other : CandidateFinding Digest) :
    Prop :=
  ∃ group ∈ groups, candidate ∈ group.candidates ∧ other ∈ group.candidates

theorem together_iff (distinct : candidates.Nodup) {index other : ℕ}
    {candidate member : CandidateFinding Digest}
    (candidateAt : candidates[index]? = some candidate)
    (memberAt : candidates[other]? = some member) :
    Together (groupCandidatesWith texts similar candidates) candidate member ↔
      root (joinedParentsWith texts similar candidates) index =
        root (joinedParentsWith texts similar candidates) other := by
  -- a candidate stands at one place only
  have rootOf : ∀ {place : ℕ} {item atRoot}, candidates[place]? = some item →
      (∃ index : ℕ, candidates[index]? = some item ∧
        root (joinedParentsWith texts similar candidates) index = atRoot) →
      root (joinedParentsWith texts similar candidates) place = atRoot := by
    rintro place item atRoot itemAt ⟨index, listed, isRoot⟩
    have inside := (List.getElem?_eq_some_iff.mp itemAt).1
    obtain rfl := (List.getElem?_inj inside distinct).mp (itemAt.trans listed.symm)
    exact isRoot
  constructor
  · rintro ⟨group, isGroup, candidateMember, memberMember⟩
    obtain ⟨atRoot, component⟩ := mem_groupCandidatesWith texts similar isGroup
    exact (rootOf candidateAt ((component candidate).mp candidateMember)).trans
      (rootOf memberAt ((component member).mp memberMember)).symm
  · intro together
    have listed := (perm_flatMap_groupCandidatesWith texts similar candidates).mem_iff.mpr
      (List.mem_of_getElem? candidateAt)
    obtain ⟨group, isGroup, candidateMember⟩ := List.mem_flatMap.mp listed
    obtain ⟨atRoot, component⟩ := mem_groupCandidatesWith texts similar isGroup
    refine ⟨group, isGroup, candidateMember, (component member).mpr ⟨other, memberAt, ?_⟩⟩
    rw [← together]
    exact rootOf candidateAt ((component candidate).mp candidateMember)

theorem Together.listed {candidate other : CandidateFinding Digest}
    (together : Together (groupCandidatesWith texts similar candidates) candidate other) :
    candidate ∈ candidates ∧ other ∈ candidates := by
  obtain ⟨group, isGroup, member, otherMember⟩ := together
  have flat := perm_flatMap_groupCandidatesWith texts similar candidates
  exact ⟨flat.mem_iff.mp (List.mem_flatMap.mpr ⟨group, isGroup, member⟩),
    flat.mem_iff.mp (List.mem_flatMap.mpr ⟨group, isGroup, otherMember⟩)⟩

theorem together_self {candidate : CandidateFinding Digest} (member : candidate ∈ candidates) :
    Together (groupCandidatesWith texts similar candidates) candidate candidate := by
  have listed := (perm_flatMap_groupCandidatesWith texts similar candidates).mem_iff.mpr member
  obtain ⟨group, isGroup, candidateMember⟩ := List.mem_flatMap.mp listed
  exact ⟨group, isGroup, candidateMember, candidateMember⟩

omit [DecidableEq Digest] in
theorem Together.symm {groups : List (CandidateGroup Digest)}
    {candidate other : CandidateFinding Digest} (together : Together groups candidate other) :
    Together groups other candidate := by
  obtain ⟨group, isGroup, member, otherMember⟩ := together
  exact ⟨group, isGroup, otherMember, member⟩

theorem Together.trans (distinct : candidates.Nodup) {first second third : CandidateFinding Digest}
    (before : Together (groupCandidatesWith texts similar candidates) first second)
    (after : Together (groupCandidatesWith texts similar candidates) second third) :
    Together (groupCandidatesWith texts similar candidates) first third := by
  obtain ⟨index, firstAt⟩ := List.mem_iff_getElem?.mp (before.listed texts similar).1
  obtain ⟨middle, secondAt⟩ := List.mem_iff_getElem?.mp (before.listed texts similar).2
  obtain ⟨other, thirdAt⟩ := List.mem_iff_getElem?.mp (after.listed texts similar).2
  rw [together_iff texts similar distinct firstAt secondAt] at before
  rw [together_iff texts similar distinct secondAt thirdAt] at after
  rw [together_iff texts similar distinct firstAt thirdAt]
  exact before.trans after

/-- The members of a group are those that are together with one of them. -/
theorem mem_group_iff (distinct : candidates.Nodup) {group : CandidateGroup Digest}
    (isGroup : group ∈ groupCandidatesWith texts similar candidates)
    {candidate : CandidateFinding Digest} (member : candidate ∈ group.candidates)
    (other : CandidateFinding Digest) :
    other ∈ group.candidates ↔
      Together (groupCandidatesWith texts similar candidates) candidate other := by
  refine ⟨fun otherMember => ⟨group, isGroup, member, otherMember⟩, fun together => ?_⟩
  obtain ⟨index, candidateAt⟩ := List.mem_iff_getElem?.mp (together.listed texts similar).1
  obtain ⟨place, otherAt⟩ := List.mem_iff_getElem?.mp (together.listed texts similar).2
  obtain ⟨atRoot, component⟩ := mem_groupCandidatesWith texts similar isGroup
  rw [together_iff texts similar distinct candidateAt otherAt] at together
  obtain ⟨found, foundAt, foundRoot⟩ := (component candidate).mp member
  have inside := (List.getElem?_eq_some_iff.mp candidateAt).1
  obtain rfl := (List.getElem?_inj inside distinct).mp (candidateAt.trans foundAt.symm)
  exact (component other).mpr ⟨place, otherAt, together.symm.trans foundRoot⟩

/-- Two anchors or members of one group fit. -/
theorem Together.fits (distinct : candidates.Nodup) {candidate other : CandidateFinding Digest}
    (together : Together (groupCandidatesWith texts similar candidates) candidate other) :
    Fits texts candidate other := by
  obtain ⟨index, candidateAt⟩ := List.mem_iff_getElem?.mp (together.listed texts similar).1
  obtain ⟨place, otherAt⟩ := List.mem_iff_getElem?.mp (together.listed texts similar).2
  rw [together_iff texts similar distinct candidateAt otherAt] at together
  have isProtected := protected_joinedParentsWith texts similar candidates
  exact ⟨isProtected index place candidate other candidateAt otherAt together,
    isProtected place index other candidate otherAt candidateAt together.symm⟩

end Components

end Consensus

end MmAudit
