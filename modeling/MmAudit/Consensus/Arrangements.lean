import MmAudit.Consensus.Components

/-!
# The same groups in every order

When the order makes no difference, the groups are the classes of connected candidates.  An
order in which a similar pair is lost then does not exist, and in every order the groups are
sorted by their IDs.
-/

namespace MmAudit

namespace Consensus

open Arrangement Context Relation UnionFind

section Arrangements

variable {Digest : Type} (texts : Texts Digest) [DecidableEq Digest]
  (similar : CandidateFinding Digest → CandidateFinding Digest → Prop) [DecidableRel similar]
  {candidates arrangement : List (CandidateFinding Digest)}

/-! ## Groups as lists -/

omit [DecidableEq Digest] in
/-- The group of some candidates does not depend on their order. -/
theorem groupOf_congr {members others : List (CandidateFinding Digest)}
    (perm : members.Perm others) (distinct : (members.map (·.candidateId)).Nodup) :
    groupOf texts members = groupOf texts others := by
  have sorted : members.insertionSort (fun candidate other =>
        candidate.candidateId ≤ other.candidateId) =
      others.insertionSort fun candidate other => candidate.candidateId ≤ other.candidateId :=
    insertionSort_congr perm fun first firstMember second secondMember same =>
      List.inj_on_of_nodup_map distinct firstMember secondMember same
  unfold groupOf
  rw [sorted]

theorem nodup_group (distinct : (candidates.map (·.candidateId)).Nodup)
    {group : CandidateGroup Digest}
    (isGroup : group ∈ groupCandidatesWith texts similar candidates) :
    (group.candidates.map (·.candidateId)).Nodup := by
  have flat := perm_flatMap_groupCandidatesWith texts similar candidates
  have subset : group.candidates.Sublist
      ((groupCandidatesWith texts similar candidates).flatMap (·.candidates)) :=
    List.sublist_flatten_of_mem (List.mem_map_of_mem isGroup)
  exact (subset.map _).nodup ((flat.map _).nodup_iff.mpr distinct)

/-- A group is determined by its members. -/
theorem eq_groupOf (distinct : (candidates.map (·.candidateId)).Nodup)
    {group : CandidateGroup Digest}
    (isGroup : group ∈ groupCandidatesWith texts similar candidates) :
    groupOf texts group.candidates = group := by
  have nodup := nodup_group texts similar distinct isGroup
  rw [groupCandidatesWith, List.mem_insertionSort] at isGroup
  obtain ⟨members, -, rfl⟩ := List.mem_map.mp isGroup
  exact groupOf_congr texts (List.perm_insertionSort _ members) nodup

theorem nodup_groups (distinct : candidates.Nodup) :
    (groupCandidatesWith texts similar candidates).Nodup := by
  have flat := (perm_flatMap_groupCandidatesWith texts similar candidates).nodup_iff.mpr distinct
  refine (List.nodup_flatMap.mp flat).2.imp_of_mem fun {group other} isGroup _ disjoint same => ?_
  subst same
  obtain ⟨candidate, member⟩ :=
    List.exists_mem_of_ne_nil _ (ne_nil_of_mem_groupCandidatesWith texts similar isGroup)
  exact disjoint member member

/-- A group of one order is a group of the other, when the same candidates are together. -/
theorem mem_groups_of_together (perm : arrangement.Perm candidates)
    (distinct : (candidates.map (·.candidateId)).Nodup)
    (same : ∀ candidate other, Together (groupCandidatesWith texts similar arrangement) candidate
        other ↔ Together (groupCandidatesWith texts similar candidates) candidate other)
    {group : CandidateGroup Digest}
    (isGroup : group ∈ groupCandidatesWith texts similar arrangement) :
    group ∈ groupCandidatesWith texts similar candidates := by
  have arrangedDistinct := (perm.map (·.candidateId)).nodup_iff.mpr distinct
  obtain ⟨candidate, member⟩ :=
    List.exists_mem_of_ne_nil _ (ne_nil_of_mem_groupCandidatesWith texts similar isGroup)
  obtain ⟨other, isOther, otherMember, -⟩ :=
    (same candidate candidate).mp ⟨group, isGroup, member, member⟩
  have sameMembers : group.candidates.Perm other.candidates := by
    refine (List.perm_ext_iff_of_nodup (nodup_group texts similar arrangedDistinct isGroup).of_map
      (nodup_group texts similar distinct isOther).of_map).mpr fun item => ?_
    rw [mem_group_iff texts similar arrangedDistinct.of_map isGroup member, same,
      mem_group_iff texts similar distinct.of_map isOther otherMember]
  have nodup := nodup_group texts similar arrangedDistinct isGroup
  rw [← eq_groupOf texts similar arrangedDistinct isGroup, groupOf_congr texts sameMembers nodup,
    eq_groupOf texts similar distinct isOther]
  exact isOther

/-- Orders with the same candidates together have the same groups, when no two have one ID. -/
theorem groups_eq_of_together (perm : arrangement.Perm candidates)
    (distinct : (candidates.map (·.candidateId)).Nodup)
    (same : ∀ candidate other, Together (groupCandidatesWith texts similar arrangement) candidate
        other ↔ Together (groupCandidatesWith texts similar candidates) candidate other)
    (distinctIds : ∀ group ∈ groupCandidatesWith texts similar candidates,
      ∀ other ∈ groupCandidatesWith texts similar candidates,
        group.groupId = other.groupId → group = other) :
    groupCandidatesWith texts similar arrangement =
      groupCandidatesWith texts similar candidates := by
  have arrangedDistinct := (perm.map (·.candidateId)).nodup_iff.mpr distinct
  have sameGroups : (groupCandidatesWith texts similar arrangement).Perm
      (groupCandidatesWith texts similar candidates) := by
    refine (List.perm_ext_iff_of_nodup (nodup_groups texts similar arrangedDistinct.of_map)
      (nodup_groups texts similar distinct.of_map)).mpr fun group => ?_
    exact ⟨mem_groups_of_together texts similar perm distinct same,
      mem_groups_of_together texts similar perm.symm arrangedDistinct
        fun candidate other => (same candidate other).symm⟩
  have unsorted : ∀ list : List (CandidateFinding Digest),
      (groupCandidatesWith texts similar list).Perm
        ((groupedByRoot list (joinedParentsWith texts similar list)).2.values.map
          (groupOf texts)) := fun list => List.perm_insertionSort _ _
  refine insertionSort_congr ((unsorted arrangement).symm.trans
    (sameGroups.trans (unsorted candidates))) ?_
  intro group isGroup other isOther sameId
  exact distinctIds group (sameGroups.mem_iff.mp ((unsorted arrangement).mem_iff.mpr isGroup)) other
    (sameGroups.mem_iff.mp ((unsorted arrangement).mem_iff.mpr isOther)) sameId

/-! ## The condition is enough -/

/-- Every order brings together what is connected, and nothing else. -/
theorem OrderFree.together_iff_connected (free : OrderFree texts similar candidates)
    (perm : arrangement.Perm candidates) (distinct : candidates.Nodup)
    {candidate other : CandidateFinding Digest} (member : candidate ∈ candidates)
    (otherMember : other ∈ candidates) :
    Together (groupCandidatesWith texts similar arrangement) candidate other ↔
      Connected texts similar candidates candidate other := by
  have arrangedDistinct := perm.nodup_iff.mpr distinct
  have sameConnected : Connected texts similar arrangement = Connected texts similar candidates :=
    congrArg EqvGen (Leads.perm perm)
  constructor
  · intro together
    obtain ⟨index, candidateAt⟩ := List.mem_iff_getElem?.mp (perm.mem_iff.mpr member)
    obtain ⟨place, otherAt⟩ := List.mem_iff_getElem?.mp (perm.mem_iff.mpr otherMember)
    rw [together_iff texts similar arrangedDistinct candidateAt otherAt] at together
    rw [← sameConnected]
    exact rootsAlike_joinedParentsWith texts similar (EqvGen.is_equivalence _)
      (fun _ _ _ _ _ => connected_of_fits texts similar) index place candidate other candidateAt
        otherAt together
  · intro connected
    by_contra apart
    have isInside := together_self texts similar (perm.mem_iff.mpr member)
    obtain ⟨earlier, later, crosses⟩ := connected.exists_crosses isInside apart
    obtain ⟨start, cycle⟩ := free.crossed _ earlier later crosses
    have fitting : ∀ first ∈ arrangement, ∀ second ∈ arrangement,
        Connected texts similar arrangement first second → Fits texts first second := by
      intro first firstMember second secondMember
      rw [sameConnected]
      exact free.fits first (perm.mem_iff.mp firstMember) second (perm.mem_iff.mp secondMember)
    -- a pair that crosses the group came in the wrong order
    have descends : ∀ first second, Crosses texts similar candidates
        (Together (groupCandidatesWith texts similar arrangement) candidate) first second →
        arrangement.idxOf second < arrangement.idxOf first := by
      rintro first second ⟨leads, leaves⟩
      have firstInside := List.idxOf_lt_length_iff.mpr (perm.mem_iff.mpr leads.earlierListed)
      have secondInside := List.idxOf_lt_length_iff.mpr (perm.mem_iff.mpr leads.laterListed)
      have firstAt : arrangement[arrangement.idxOf first]? = some first := by
        rw [List.getElem?_eq_getElem firstInside, List.getElem_idxOf firstInside]
      have secondAt : arrangement[arrangement.idxOf second]? = some second := by
        rw [List.getElem?_eq_getElem secondInside, List.getElem_idxOf secondInside]
      by_contra notBefore
      have together : Together (groupCandidatesWith texts similar arrangement) first second := by
        rcases lt_or_eq_of_le (not_lt.mp notBefore) with ordered | same
        · rw [together_iff texts similar arrangedDistinct firstAt secondAt]
          exact together_of_fits texts similar fitting ordered firstAt secondAt leads.isSimilar
            leads.fits
        · obtain rfl := Option.some.inj (firstAt.symm.trans (same ▸ secondAt))
          exact together_self texts similar (List.mem_of_getElem? firstAt)
      have sameSide : Together (groupCandidatesWith texts similar arrangement) candidate first ↔
          Together (groupCandidatesWith texts similar arrangement) candidate second :=
        ⟨fun before => before.trans texts similar arrangedDistinct together,
          fun before => before.trans texts similar arrangedDistinct together.symm⟩
      tauto
    have falls : ∀ finish, TransGen (Crosses texts similar candidates
        (Together (groupCandidatesWith texts similar arrangement) candidate)) start finish →
        arrangement.idxOf finish < arrangement.idxOf start := by
      intro finish steps
      induction steps with
      | single step => exact descends _ _ step
      | tail _ step ih => exact (descends _ _ step).trans ih
    exact lt_irrefl _ (falls start cycle)

/-- Under the condition all orders have the same groups. -/
theorem OrderFree.groups_eq (free : OrderFree texts similar candidates)
    (distinct : (candidates.map (·.candidateId)).Nodup) (perm : arrangement.Perm candidates) :
    groupCandidatesWith texts similar arrangement =
      groupCandidatesWith texts similar candidates := by
  have nodup := distinct.of_map
  refine groups_eq_of_together texts similar perm distinct ?_ ?_
  · intro candidate other
    constructor
    · intro together
      have listed := together.listed texts similar
      have member := perm.mem_iff.mp listed.1
      have otherMember := perm.mem_iff.mp listed.2
      rw [free.together_iff_connected texts similar perm nodup member otherMember] at together
      exact (free.together_iff_connected texts similar (.refl _) nodup member otherMember).mpr
        together
    · intro together
      obtain ⟨member, otherMember⟩ := together.listed texts similar
      rw [free.together_iff_connected texts similar (.refl _) nodup member otherMember] at together
      exact (free.together_iff_connected texts similar perm nodup member otherMember).mpr together
  · have isClass : ∀ group ∈ groupCandidatesWith texts similar candidates,
        IsClass texts similar candidates group.candidates := by
      intro group isGroup
      obtain ⟨candidate, member⟩ :=
        List.exists_mem_of_ne_nil _ (ne_nil_of_mem_groupCandidatesWith texts similar isGroup)
      have listed := (Together.listed texts similar ⟨group, isGroup, member, member⟩).1
      refine ⟨(nodup_group texts similar distinct isGroup).of_map, candidate, listed, ?_⟩
      intro other
      rw [mem_group_iff texts similar nodup isGroup member]
      constructor
      · intro together
        have otherListed := (together.listed texts similar).2
        exact ⟨otherListed, (free.together_iff_connected texts similar (.refl _) nodup listed
          otherListed).mp together⟩
      · rintro ⟨otherListed, connected⟩
        exact (free.together_iff_connected texts similar (.refl _) nodup listed otherListed).mpr
          connected
    intro group isGroup other isOther sameId
    have sameMembers := free.distinctIds group.candidates other.candidates (isClass group isGroup)
      (isClass other isOther) (by
        rw [eq_groupOf texts similar distinct isGroup, eq_groupOf texts similar distinct isOther]
        exact sameId)
    rw [← eq_groupOf texts similar distinct isGroup, ← eq_groupOf texts similar distinct isOther]
    exact groupOf_congr texts sameMembers (nodup_group texts similar distinct isGroup)

/-! ## The condition is needed -/

omit [DecidableEq Digest] in
/-- The first candidate is collected in the first list. -/
theorem groupedByRoot_first (first : CandidateFinding Digest)
    (rest : List (CandidateFinding Digest)) (parent : List ℕ) :
    ∃ members others, (groupedByRoot (first :: rest) parent).2.values = members :: others ∧
      first ∈ members := by
  suffices general : ∀ (items : List (ℕ × CandidateFinding Digest)) (current : List ℕ)
      (grouped : Dict ℕ (List (CandidateFinding Digest))) key members others,
      grouped.items = (key, members) :: others → first ∈ members →
      ∃ members others, (items.foldl (fun state item =>
          ((find state.1 item.1).1, state.2.push (find state.1 item.1).2 item.2)) (current, grouped)).2.values =
        members :: others ∧ first ∈ members by
    have start : indexed (first :: rest) =
        (0, first) :: ((List.range rest.length).map Nat.succ).zip rest := by
      rw [indexed, List.length_cons, List.range_succ_eq_map]
      rfl
    rw [groupedByRoot, start, List.foldl_cons]
    exact general _ _ _ _ [first] [] rfl (List.mem_singleton_self first)
  intro items
  induction items with
  | nil =>
      intro current grouped key members others split member
      exact ⟨members, others.map Prod.snd, by rw [List.foldl_nil, Dict.values, split]; rfl, member⟩
  | cons item items ih =>
      intro current grouped key members others split member
      rw [List.foldl_cons]
      obtain ⟨kept, after, pushed, keptMember⟩ : ∃ kept after,
          (grouped.push (find current item.1).2 item.2).items = (key, kept) :: after ∧
            first ∈ kept := by
        by_cases present : (find current item.1).2 ∈ grouped.keys
        · rw [Dict.push, Dict.insert, dif_pos present]
          dsimp only
          rw [split, List.map_cons]
          by_cases here : key = (find current item.1).2
          · have stored : grouped.get? (find current item.1).2 = some members := by
              rw [Dict.get?_eq_some_iff, split, ← here]
              exact List.mem_cons_self
            rw [if_pos here, stored, here]
            exact ⟨_, _, rfl, List.mem_append_left _ member⟩
          · rw [if_neg here]
            exact ⟨_, _, rfl, member⟩
        · rw [Dict.push, Dict.insert, dif_neg present]
          dsimp only
          rw [split, List.cons_append]
          exact ⟨_, _, rfl, member⟩
      exact ih _ _ key kept after pushed keptMember

/-- The group of the first candidate comes before the groups that its ID does not exceed. -/
theorem first_group_sublist {first : CandidateFinding Digest}
    {rest : List (CandidateFinding Digest)}
    (distinct : ((first :: rest).map (·.candidateId)).Nodup) {group other : CandidateGroup Digest}
    (isGroup : group ∈ groupCandidatesWith texts similar (first :: rest))
    (isOther : other ∈ groupCandidatesWith texts similar (first :: rest))
    (member : first ∈ group.candidates) (ordered : group.groupId ≤ other.groupId)
    (different : group ≠ other) :
    [group, other].Sublist (groupCandidatesWith texts similar (first :: rest)) := by
  obtain ⟨members, others, values, firstMember⟩ := groupedByRoot_first first rest
    (joinedParentsWith texts similar (first :: rest))
  have unsorted : ∀ item, item ∈ groupCandidatesWith texts similar (first :: rest) ↔
      item = groupOf texts members ∨ item ∈ others.map (groupOf texts) := by
    intro item
    rw [groupCandidatesWith, List.mem_insertionSort, values, List.map_cons, List.mem_cons]
  have firstGroup : groupOf texts members = group := by
    have isFirst := (unsorted (groupOf texts members)).mpr (.inl rfl)
    have inFirst : first ∈ (groupOf texts members).candidates :=
      (List.mem_insertionSort _).mpr firstMember
    rw [← eq_groupOf texts similar distinct isFirst, ← eq_groupOf texts similar distinct isGroup]
    refine groupOf_congr texts ?_ (nodup_group texts similar distinct isFirst)
    refine (List.perm_ext_iff_of_nodup (nodup_group texts similar distinct isFirst).of_map
      (nodup_group texts similar distinct isGroup).of_map).mpr fun item => ?_
    rw [mem_group_iff texts similar distinct.of_map isFirst inFirst,
      mem_group_iff texts similar distinct.of_map isGroup member]
  have otherLater : other ∈ others.map (groupOf texts) := by
    rcases (unsorted other).mp isOther with same | later
    · exact absurd (firstGroup.symm.trans same.symm) different
    · exact later
  have total : Std.Total fun group other : CandidateGroup Digest =>
      group.groupId ≤ other.groupId := ⟨fun _ _ => le_total _ _⟩
  have transitive : IsTrans (CandidateGroup Digest) fun group other =>
      group.groupId ≤ other.groupId := ⟨fun _ _ _ => le_trans⟩
  rw [groupCandidatesWith, values, List.map_cons, firstGroup]
  exact List.pair_sublist_insertionSort ordered
    ((List.singleton_sublist.mpr otherLater).cons_cons group)

section Necessity

variable (distinct : (candidates.map (·.candidateId)).Nodup)
  (same : ∀ arrangement : List (CandidateFinding Digest), arrangement.Perm candidates →
    groupCandidatesWith texts similar arrangement = groupCandidatesWith texts similar candidates)

include distinct same

/-- A pair that fits is together, as some order starts with it. -/
theorem together_of_leads {earlier later : CandidateFinding Digest}
    (leads : Leads texts similar candidates earlier later) :
    Together (groupCandidatesWith texts similar candidates) earlier later := by
  by_cases equal : earlier = later
  · subst equal
    exact together_self texts similar leads.earlierListed
  · have laterLeft : later ∈ candidates.erase earlier :=
      (List.mem_erase_of_ne (Ne.symm equal)).mpr leads.laterListed
    have perm : (earlier :: later :: (candidates.erase earlier).erase later).Perm candidates :=
      ((List.perm_cons_erase laterLeft).symm.cons earlier).trans
        (List.perm_cons_erase leads.earlierListed).symm
    rw [← same _ perm]
    have earlierAt : (earlier :: later :: (candidates.erase earlier).erase later)[0]? =
      some earlier := rfl
    have laterAt : (earlier :: later :: (candidates.erase earlier).erase later)[1]? =
      some later := rfl
    rw [together_iff texts similar (perm.nodup_iff.mpr distinct.of_map) earlierAt laterAt]
    exact together_of_first texts similar leads.isSimilar leads.fits

theorem together_of_connected {candidate other : CandidateFinding Digest}
    (connected : Connected texts similar candidates candidate other) :
    candidate = other ∨
      Together (groupCandidatesWith texts similar candidates) candidate other := by
  induction connected with
  | rel earlier later leads => exact .inr (together_of_leads texts similar distinct same leads)
  | refl candidate => exact .inl rfl
  | symm first second _ ih => exact ih.imp Eq.symm Together.symm
  | trans first second third _ _ ihFirst ihSecond =>
      rcases ihFirst with rfl | before
      · exact ihSecond
      · rcases ihSecond with rfl | after
        · exact .inr before
        · exact .inr (before.trans texts similar distinct.of_map after)

/-- The members of a class make a group. -/
theorem exists_group_of_isClass {members : List (CandidateFinding Digest)}
    (isClass : IsClass texts similar candidates members) :
    groupOf texts members ∈ groupCandidatesWith texts similar candidates ∧
      ∃ candidate ∈ candidates, candidate ∈ (groupOf texts members).candidates := by
  obtain ⟨nodup, candidate, listed, memberIff⟩ := isClass
  obtain ⟨group, isGroup, inGroup, -⟩ := together_self texts similar listed
  have inMembers := (memberIff candidate).mpr ⟨listed, .refl candidate⟩
  have sameMembers : group.candidates.Perm members := by
    refine (List.perm_ext_iff_of_nodup (nodup_group texts similar distinct isGroup).of_map
      nodup).mpr fun item => ?_
    rw [memberIff, mem_group_iff texts similar distinct.of_map isGroup inGroup]
    constructor
    · intro together
      have itemListed := (together.listed texts similar).2
      obtain ⟨index, candidateAt⟩ := List.mem_iff_getElem?.mp listed
      obtain ⟨place, itemAt⟩ := List.mem_iff_getElem?.mp itemListed
      rw [together_iff texts similar distinct.of_map candidateAt itemAt] at together
      exact ⟨itemListed, rootsAlike_joinedParentsWith texts similar (EqvGen.is_equivalence _)
        (fun _ _ _ _ _ => connected_of_fits texts similar) index place candidate item candidateAt
          itemAt together⟩
    · rintro ⟨-, connected⟩
      rcases together_of_connected texts similar distinct same connected with rfl | together
      · exact together_self texts similar listed
      · exact together
  have sameGroup : groupOf texts members = group := by
    rw [← groupOf_congr texts sameMembers (nodup_group texts similar distinct isGroup),
      eq_groupOf texts similar distinct isGroup]
  exact ⟨sameGroup ▸ isGroup, candidate, listed, sameGroup ▸ inGroup⟩

/-- The group of a listed candidate comes first in some order. -/
theorem group_sublist {group other : CandidateGroup Digest}
    (isGroup : group ∈ groupCandidatesWith texts similar candidates)
    (isOther : other ∈ groupCandidatesWith texts similar candidates)
    {candidate : CandidateFinding Digest} (listed : candidate ∈ candidates)
    (member : candidate ∈ group.candidates) (ordered : group.groupId ≤ other.groupId)
    (different : group ≠ other) :
    [group, other].Sublist (groupCandidatesWith texts similar candidates) := by
  have perm := (List.perm_cons_erase listed).symm
  rw [← same _ perm] at isGroup isOther ⊢
  exact first_group_sublist texts similar ((perm.map _).nodup_iff.mpr distinct) isGroup isOther
    member ordered different

/-- When all orders have the same groups, the condition holds. -/
theorem orderFree_of_groups_eq : OrderFree texts similar candidates where
  fits candidate listed other _ connected := by
    rcases together_of_connected texts similar distinct same connected with rfl | together
    · exact ⟨fun _ => anchorAccepts_self texts candidate, fun _ => anchorAccepts_self texts candidate⟩
    · exact together.fits texts similar distinct.of_map
  crossed inside earlier later crosses := by
    by_contra noCycle
    -- in an order that no crossing pair follows, the two sides are never joined
    obtain ⟨arrangement, perm, avoids⟩ := exists_arrangement (not_exists.mp noCycle) candidates
    have together := together_of_leads texts similar distinct same crosses.1
    rw [← same arrangement perm] at together
    obtain ⟨index, earlierAt⟩ := List.mem_iff_getElem?.mp (together.listed texts similar).1
    obtain ⟨place, laterAt⟩ := List.mem_iff_getElem?.mp (together.listed texts similar).2
    rw [together_iff texts similar (perm.nodup_iff.mpr distinct.of_map) earlierAt laterAt]
      at together
    have sameSide : Equivalence fun first second => inside first ↔ inside second :=
      ⟨fun _ => Iff.rfl, Iff.symm, Iff.trans⟩
    have kept : RootsAlike (fun first second => inside first ↔ inside second) arrangement
        (joinedParentsWith texts similar arrangement) := by
      refine rootsAlike_joinedParentsWith texts similar sameSide ?_
      intro left right first second ordered firstAt secondAt isSimilar fits
      by_contra different
      have leads : Leads texts similar candidates first second :=
        ⟨perm.mem_iff.mp (List.mem_of_getElem? firstAt),
          perm.mem_iff.mp (List.mem_of_getElem? secondAt), isSimilar, fits⟩
      obtain ⟨leftInside, rfl⟩ := List.getElem?_eq_some_iff.mp firstAt
      obtain ⟨rightInside, rfl⟩ := List.getElem?_eq_some_iff.mp secondAt
      exact List.pairwise_iff_getElem.mp avoids left right leftInside rightInside ordered
        ⟨leads, by tauto⟩
    have sameSides := kept index place earlier later earlierAt laterAt together
    have leaves := crosses.2
    tauto
  distinctIds members others isClass otherIsClass sameId := by
    obtain ⟨isGroup, candidate, listed, member⟩ :=
      exists_group_of_isClass texts similar distinct same isClass
    obtain ⟨isOther, other, otherListed, otherMember⟩ :=
      exists_group_of_isClass texts similar distinct same otherIsClass
    have sameGroup : groupOf texts members = groupOf texts others := by
      by_contra different
      exact different (eq_of_sublist_both (nodup_groups texts similar distinct.of_map)
        (group_sublist texts similar distinct same isGroup isOther listed member sameId.le different)
        (group_sublist texts similar distinct same isOther isGroup otherListed otherMember sameId.ge
          (Ne.symm different)))
    have sorted : members.Perm (groupOf texts members).candidates :=
      (List.perm_insertionSort _ members).symm
    refine sorted.trans ?_
    rw [sameGroup]
    exact List.perm_insertionSort _ others

end Necessity

/-- All orders have the same groups exactly when the condition holds. -/
theorem groups_eq_iff_orderFree (distinct : (candidates.map (·.candidateId)).Nodup) :
    (∀ arrangement : List (CandidateFinding Digest), arrangement.Perm candidates →
      groupCandidatesWith texts similar arrangement =
        groupCandidatesWith texts similar candidates) ↔
      OrderFree texts similar candidates :=
  ⟨orderFree_of_groups_eq texts similar distinct,
    fun free _ perm => free.groups_eq texts similar distinct perm⟩

end Arrangements

/-! ## Exact scores -/

section Scores

variable {Digest : Type} (texts : Texts Digest) (rounded : ℚ → ℚ)

/-- `_jaccard`, with the rounding as a parameter. -/
def jaccardWith (left right : List String) : ℚ :=
  if left.isEmpty || right.isEmpty then 0
  else
    let shared := (left.filter right.contains).length
    rounded (shared / (left.length + right.length - shared : ℕ))

def locationScoreWith (rightLocations : List (Location Digest)) (score : ℚ)
    (leftLocation : Location Digest) : ℚ :=
  match rightLocations.find? (leftLocation.path = ·.path) with
  | none => score
  | some rightLocation =>
      let samePath := rounded (score + rounded (25 / 100))
      let near :=
        if leftLocation.startLine ≤ rightLocation.startLine + 12 ∧
            rightLocation.startLine ≤ leftLocation.startLine + 12 then
          rounded (samePath + rounded (2 / 10))
        else samePath
      if leftLocation.symbol.any (!·.isEmpty) ∧ leftLocation.symbol = rightLocation.symbol then
        rounded (near + rounded (1 / 10))
      else near

/-- `candidate_similarity`, with the rounding of literals and results as a parameter. -/
def similarityWith (left right : CandidateFinding Digest) : ℚ :=
  let add score part := rounded (score + part)
  let leftCwe := left.cwe.map texts.upper
  let rightCwe := right.cwe.map texts.upper
  let score := if leftCwe.any rightCwe.contains then add 0 (rounded (3 / 10)) else 0
  let score := left.locations.foldl (locationScoreWith rounded right.locations) score
  let score := add score (rounded (rounded (1 / 10) *
    jaccardWith rounded (tokens texts left.title) (tokens texts right.title)))
  let score := add score (rounded (rounded (5 / 100) *
    jaccardWith rounded (tokens texts (" ".intercalate left.attackPath))
      (tokens texts (" ".intercalate right.attackPath))))
  let score := if samePlace left.source right.source then add score (rounded (5 / 100)) else score
  let score := if samePlace left.sink right.sink then add score (rounded (5 / 100)) else score
  min 1 score

/-- In double precision this is the similarity of the source. -/
theorem candidateSimilarity_eq_with (left right : CandidateFinding Digest) :
    candidateSimilarity texts left right = similarityWith texts Binary64.round left right :=
  rfl

/-- The exact score reaches the threshold. -/
def SimilarExactly (left right : CandidateFinding Digest) : Prop :=
  55 / 100 ≤ similarityWith texts id left right

instance : DecidableRel (SimilarExactly texts) :=
  fun left right => inferInstanceAs (Decidable (55 / 100 ≤ similarityWith texts id left right))

/-- With exact scores the groups of different candidates are the same in every order exactly when
no anchor and no order of a pair can make a difference. -/
theorem exact_groups_eq_iff [DecidableEq Digest] {candidates : List (CandidateFinding Digest)}
    (distinct : (candidates.map (·.candidateId)).Nodup) :
    (∀ arrangement : List (CandidateFinding Digest), arrangement.Perm candidates →
      groupCandidatesWith texts (SimilarExactly texts) arrangement =
        groupCandidatesWith texts (SimilarExactly texts) candidates) ↔
      OrderFree texts (SimilarExactly texts) candidates :=
  groups_eq_iff_orderFree texts (SimilarExactly texts) distinct

end Scores

/-! ## A pair in the wrong order -/

/-- A candidate without CWE at some lines of one file. -/
def linesCandidate (candidateId title : String) (lines : List ℕ) :
    CandidateFinding (List UInt8) :=
  { sampleCandidate candidateId [scannerEvidence] with
    title := title
    cwe := []
    locations := lines.map fun line =>
      { sampleLocation with
        startLine := line + 1
        endLine := line + 1
        positive := Nat.succ_pos line
        ordered := le_rfl }
    source := none
    sink := none
    attackPath := [title] }

/-- One candidate lists two locations of the file, the other one a single location. -/
def lopsided : List (CandidateFinding (List UInt8)) :=
  [linesCandidate "a" "first" [10, 11], linesCandidate "b" "second" [10]]

/-- Both locations of the earlier candidate count, but only one of the later one does. -/
theorem lopsided_groups_depend_on_order :
    (lopsided.map (·.candidateId)).Nodup ∧
      (∀ candidate ∈ lopsided, candidate.validate plainTexts = .ok ()) ∧
      lopsided.reverse.Perm lopsided ∧
      groupCandidatesWith plainTexts (SimilarExactly plainTexts) lopsided.reverse ≠
        groupCandidatesWith plainTexts (SimilarExactly plainTexts) lopsided := by
  refine ⟨by decide +kernel, by decide +kernel, List.reverse_perm lopsided, fun same => ?_⟩
  have lengths : (groupCandidatesWith plainTexts (SimilarExactly plainTexts)
        lopsided.reverse).length ≠
      (groupCandidatesWith plainTexts (SimilarExactly plainTexts) lopsided).length := by
    decide +kernel
  exact lengths (congrArg List.length same)

/-- The condition for one candidate. -/
theorem exact_groups_eq_sample :
    (∀ arrangement : List (CandidateFinding (List UInt8)),
      arrangement.Perm [linesCandidate "a" "first" [10]] →
      groupCandidatesWith plainTexts (SimilarExactly plainTexts) arrangement =
        groupCandidatesWith plainTexts (SimilarExactly plainTexts)
          [linesCandidate "a" "first" [10]]) ↔
      OrderFree plainTexts (SimilarExactly plainTexts) [linesCandidate "a" "first" [10]] :=
  exact_groups_eq_iff plainTexts (by decide)

end Consensus

end MmAudit
