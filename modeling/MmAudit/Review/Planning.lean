import MmAudit.Library.Selection
import MmAudit.Review.Requests

/-!
# Planning the review of surfaces

`plan_model_surface_review_assignments` gives every critical surface to roles of different
approved root lineages, and every other surface to one role.  The search for roles starts at a
place that the ID of the surface decides.  A surface with a coverage gap goes to the hunter of
such gaps first.
-/

namespace MmAudit

namespace Review

open Fallible Selection

section Planning

variable {Digest : Type} [DecidableEq Digest] (lower : String → String)

/-! ## The inventory -/

/-- What coverage of the repository's own tests says about the classification of the source. -/
structure AuditedSuiteClassification where
  sourceClassificationComplete : Bool
  criticalClassificationComplete : Bool
deriving DecidableEq, Repr

/-- What the planner and the gate read of the analysis of the source: whether there is a symbol
index, whether the inputs pass their schemas again, the classification, whether its own inputs are
complete, and the requests that `build_model_surface_requests` derives from all this. -/
structure SurfaceEvidence (Digest : Type) where
  indexed : Bool
  revalidation : Except ValueError Unit
  suite : Option AuditedSuiteClassification
  inputsComplete : Bool
  modelSurfaceRequests : Except ValueError (List (ModelSurfaceReviewRequest Digest))

/-- `_require_authoritative_request_inventory` -/
def requireAuthoritativeRequestInventory (evidence : SurfaceEvidence Digest)
    (requests : List (ModelSurfaceReviewRequest Digest)) :
    Except ValueError (List (ModelSurfaceReviewRequest Digest)) := do
  let authoritative ← evidence.modelSurfaceRequests
  raiseIf (requests ≠ authoritative)
    ⟨"supplied model-surface requests differ from the authoritative source inventory"⟩
  return authoritative

theorem requireAuthoritative_of_eq {evidence : SurfaceEvidence Digest}
    {requests : List (ModelSurfaceReviewRequest Digest)}
    (authoritative : evidence.modelSurfaceRequests = .ok requests) :
    requireAuthoritativeRequestInventory evidence requests = .ok requests := by
  rw [requireAuthoritativeRequestInventory, bind_of_ok authoritative,
    raiseIf_bind_of_not (not_not.mpr rfl)]
  rfl

/-! ## The planner -/

def hexDigit (char : Char) : ℕ :=
  if char ≤ '9' then char.toNat - '0'.toNat else char.toNat - 'a'.toNat + 10

/-- `int(digits, 16)` -/
def hexValue (digits : List Char) : ℕ :=
  digits.foldl (fun value digit => value * 16 + hexDigit digit) 0

/-- The roots that a surface needs. -/
def targetOf (minimumCriticalRootLineages : ℕ) (request : ModelSurfaceReviewRequest Digest) : ℕ :=
  if request.critical then minimumCriticalRootLineages else 1

/-- The scheduled roles with approved root lineages. -/
def candidates (config : AuditConfig) : List (String × String) :=
  ((scheduledReviewRoles config).insertionSort (· ≤ ·)).filterMap (candidateOf lower config)

/-- The candidates from the place on that the ID of the surface decides. -/
def orderedCandidates (candidates : List (String × String))
    (request : ModelSurfaceReviewRequest Digest) : List (String × String) :=
  let digits := (removePrefix "model-surface:" request.surfaceId).toList.take 16
  let offset := hexValue digits % candidates.length
  candidates.drop offset ++ candidates.take offset

abbrev Assignments (Digest : Type) := Dict String (List (ModelSurfaceReviewRequest Digest))

/-- One turn of the loop over the roles.  After enough lineages nothing more is selected. -/
def selectRole (target : ℕ) (request : ModelSurfaceReviewRequest Digest)
    (selected : Assignments Digest × List String) (candidate : String × String) :
    Assignments Digest × List String :=
  if target ≤ selected.2.length then selected
  else if candidate.2 ∈ selected.2 then selected
  else (selected.1.push candidate.1 request, selected.2 ++ [candidate.2])

/-- The hunter takes a surface with a coverage gap. -/
def placeHunter (candidates : List (String × String)) (request : ModelSurfaceReviewRequest Digest)
    (assignments : Assignments Digest) : Assignments Digest × List String :=
  if request.priority = .elevatedCoverageGap then
    match candidates.find? (·.1 = coverageGapHunterRole) with
    | some hunter => (assignments.push hunter.1 request, [hunter.2])
    | none => (assignments, [])
  else (assignments, [])

/-- One turn of the loop over the requests. -/
def assignRequest (candidates : List (String × String)) (minimumCriticalRootLineages : ℕ)
    (assignments : Assignments Digest) (request : ModelSurfaceReviewRequest Digest) :
    Except ValueError (Assignments Digest) := do
  raiseIf (request.priority = .elevatedCoverageGap ∧ request.critical = false)
    ⟨"coverage-gap priority is valid only for critical model surfaces"⟩
  return ((orderedCandidates candidates request).foldl
    (selectRole (targetOf minimumCriticalRootLineages request) request)
    (placeHunter candidates request assignments)).1

/-- An empty list for every role. -/
def emptyAssignments (roles : List String) : Assignments Digest :=
  roles.foldl (fun assignments role => assignments.insert role []) Dict.empty

def sortRequests (requests : List (ModelSurfaceReviewRequest Digest)) :
    List (ModelSurfaceReviewRequest Digest) :=
  requests.insertionSort fun request other => request.surfaceId ≤ other.surfaceId

/-- `plan_model_surface_review_assignments` -/
def planAssignments (config : AuditConfig) (evidence : SurfaceEvidence Digest)
    (requests : List (ModelSurfaceReviewRequest Digest)) (minimumCriticalRootLineages : ℕ) :
    Except ValueError (Assignments Digest) := do
  let requests ← requireAuthoritativeRequestInventory evidence requests
  let assignments ← (sortRequests requests).foldlM
    (assignRequest (candidates lower config) minimumCriticalRootLineages)
    (emptyAssignments ((scheduledReviewRoles config).insertionSort (· ≤ ·)))
  return assignments.mapValues sortRequests

/-! ## The roles of one request -/

/-- The roles with their lineages that a request goes to. -/
def selection (candidates : List (String × String)) (minimumCriticalRootLineages : ℕ)
    (request : ModelSurfaceReviewRequest Digest) : List (String × String) :=
  let hunters :=
    if request.priority = .elevatedCoverageGap then
      (candidates.find? (·.1 = coverageGapHunterRole)).toList
    else []
  hunters ++ pick Prod.snd (targetOf minimumCriticalRootLineages request)
    (orderedCandidates candidates request) (hunters.map Prod.snd)

def pushRole (request : ModelSurfaceReviewRequest Digest) (assignments : Assignments Digest)
    (candidate : String × String) : Assignments Digest :=
  assignments.push candidate.1 request

omit [DecidableEq Digest] in
theorem foldl_selectRole (target : ℕ) (request : ModelSurfaceReviewRequest Digest)
    (items : List (String × String)) (assignments : Assignments Digest) (chosen : List String) :
    items.foldl (selectRole target request) (assignments, chosen) =
      ((pick Prod.snd target items chosen).foldl (pushRole request) assignments,
        chosen ++ (pick Prod.snd target items chosen).map Prod.snd) := by
  induction items generalizing assignments chosen with
  | nil => simp [pick]
  | cons item items ih =>
      rw [List.foldl_cons, selectRole, pick]
      by_cases full : target ≤ chosen.length
      · have stays : pick Prod.snd target items chosen = [] := by
          cases items with
          | nil => rfl
          | cons next items => rw [pick, if_pos full]
        rw [if_pos full, if_pos full, ih, stays]
      · rw [if_neg full, if_neg full]
        by_cases old : item.2 ∈ chosen
        · rw [if_pos old, if_pos old, ih]
        · rw [if_neg old, if_neg old, ih]
          simp [pushRole]

omit [DecidableEq Digest] in
/-- A turn of the loop pushes the request on the lists of the selected roles. -/
theorem assignRequest_eq (candidates : List (String × String)) (minimum : ℕ)
    (assignments : Assignments Digest) (request : ModelSurfaceReviewRequest Digest)
    (accepted : ¬ (request.priority = .elevatedCoverageGap ∧ request.critical = false)) :
    assignRequest candidates minimum assignments request =
      .ok ((selection candidates minimum request).foldl (pushRole request) assignments) := by
  rw [assignRequest, raiseIf_bind_of_not accepted]
  change Except.ok _ = Except.ok _
  congr 1
  unfold placeHunter selection
  by_cases elevated : request.priority = .elevatedCoverageGap
  · rw [if_pos elevated, if_pos elevated]
    cases candidates.find? (·.1 = coverageGapHunterRole) with
    | none =>
        dsimp only [Option.toList_none]
        rw [foldl_selectRole]
        simp only [List.nil_append, List.map_nil]
    | some hunter =>
        dsimp only [Option.toList_some, List.map_cons, List.map_nil]
        rw [foldl_selectRole, List.foldl_append]
        rfl
  · rw [if_neg elevated, if_neg elevated]
    rw [foldl_selectRole]
    simp only [List.nil_append, List.map_nil]

omit [DecidableEq Digest] in
theorem get?_foldl_pushRole (request : ModelSurfaceReviewRequest Digest)
    {chosen : List (String × String)} (distinct : (chosen.map Prod.fst).Nodup)
    (assignments : Assignments Digest) (role : String) :
    (chosen.foldl (pushRole request) assignments).get? role =
      if role ∈ chosen.map Prod.fst then some ((assignments.get? role).getD [] ++ [request])
      else assignments.get? role := by
  induction chosen generalizing assignments with
  | nil => simp
  | cons candidate chosen ih =>
      rw [List.map_cons, List.nodup_cons] at distinct
      rw [List.foldl_cons, ih distinct.2, pushRole, Dict.get?_push]
      by_cases here : role = candidate.1
      · subst here
        simp [distinct.1]
      · rw [if_neg here, List.map_cons]
        simp only [List.mem_cons, here, false_or]

omit [DecidableEq Digest] in
theorem mem_orderedCandidates {candidates : List (String × String)}
    {request : ModelSurfaceReviewRequest Digest} {candidate : String × String} :
    candidate ∈ orderedCandidates candidates request ↔ candidate ∈ candidates := by
  unfold orderedCandidates
  dsimp only
  rw [List.mem_append, or_comm, ← List.mem_append, List.take_append_drop]

section Selected

variable {candidates : List (String × String)} (distinctRoles : (candidates.map Prod.fst).Nodup)
  (minimum : ℕ) (request : ModelSurfaceReviewRequest Digest)

omit [DecidableEq Digest] in
theorem selection_subset : selection candidates minimum request ⊆ candidates := by
  intro candidate member
  rcases List.mem_append.mp member with hunter | picked
  · split at hunter
    · exact List.mem_of_find?_eq_some (Option.mem_toList.mp hunter)
    · exact absurd hunter List.not_mem_nil
  · exact mem_orderedCandidates.mp ((pick_sublist _ _ _ _).subset picked)

omit [DecidableEq Digest] in
theorem hunters_length :
    (if request.priority = .elevatedCoverageGap then
      (candidates.find? (·.1 = coverageGapHunterRole)).toList else []).length ≤ 1 := by
  split
  · cases candidates.find? (·.1 = coverageGapHunterRole) with
    | none => exact Nat.zero_le 1
    | some hunter => exact le_rfl
  · exact Nat.zero_le 1

omit [DecidableEq Digest] in
theorem nodup_of_length_le_one {Item : Type} {items : List Item} (few : items.length ≤ 1) :
    items.Nodup := by
  match items, few with
  | [], _ => exact List.nodup_nil
  | [item], _ => exact List.nodup_singleton item

omit [DecidableEq Digest] in
/-- The selected roles have different lineages. -/
theorem nodup_lineages_selection :
    ((selection candidates minimum request).map Prod.snd).Nodup := by
  unfold selection
  dsimp only
  rw [List.map_append]
  exact nodup_labels_pick _ _ _ (nodup_of_length_le_one
    ((List.length_map _).trans_le (hunters_length request)))

omit [DecidableEq Digest] in
/-- As many roles are selected as the target asks for, or as there are lineages. -/
theorem length_selection (positive : 1 ≤ targetOf minimum request) :
    (selection candidates minimum request).length =
      min (targetOf minimum request) (candidates.map Prod.snd).toFinset.card := by
  have sameLineages : ∀ hunters : List (String × String), hunters ⊆ candidates →
      (hunters.map Prod.snd ++ (orderedCandidates candidates request).map Prod.snd).toFinset =
        (candidates.map Prod.snd).toFinset := by
    intro hunters inside
    ext lineage
    simp only [List.mem_toFinset, List.mem_append, List.mem_map, mem_orderedCandidates]
    constructor
    · rintro (⟨candidate, member, same⟩ | found)
      · exact ⟨candidate, inside member, same⟩
      · exact found
    · exact .inr
  unfold selection
  dsimp only
  rw [List.length_append, ← List.length_map Prod.snd, length_pick _ _ _ (nodup_of_length_le_one
    ((List.length_map _).trans_le (hunters_length request)))
    (((List.length_map _).trans_le (hunters_length request)).trans positive), sameLineages]
  intro candidate member
  exact selection_subset minimum request (List.mem_append_left _ member)

include distinctRoles in
omit [DecidableEq Digest] in
/-- No role is selected twice. -/
theorem nodup_roles_selection : ((selection candidates minimum request).map Prod.fst).Nodup := by
  have distinct := @nodup_lineages_selection _ candidates minimum request
  rw [List.Nodup, List.pairwise_map] at distinct ⊢
  refine distinct.imp_of_mem fun {first second} member otherMember different same => ?_
  have sameCandidate := List.inj_on_of_nodup_map distinctRoles
    (selection_subset minimum request member) (selection_subset minimum request otherMember) same
  exact different (congrArg Prod.snd sameCandidate)

omit [DecidableEq Digest] in
/-- The hunter is selected for a coverage gap. -/
theorem hunter_mem_selection (elevated : request.priority = .elevatedCoverageGap)
    (available : coverageGapHunterRole ∈ candidates.map Prod.fst) :
    coverageGapHunterRole ∈ (selection candidates minimum request).map Prod.fst := by
  obtain ⟨hunter, found⟩ : ∃ hunter, candidates.find? (·.1 = coverageGapHunterRole) =
      some hunter := by
    rw [← Option.isSome_iff_exists, List.find?_isSome]
    obtain ⟨hunter, member, same⟩ := List.mem_map.mp available
    exact ⟨hunter, member, decide_eq_true same⟩
  have isHunter := List.find?_some found
  rw [decide_eq_true_eq] at isHunter
  unfold selection
  rw [if_pos elevated, found]
  exact List.mem_map.mpr ⟨hunter, List.mem_append_left _ List.mem_cons_self, isHunter⟩

end Selected

/-! ## The candidates -/

/-- The root lineages of the scheduled roles that are registered and approved. -/
def approvedRoots (config : AuditConfig) : List String :=
  ((scheduledReviewRoles config).filterMap (approvedRegisteredPrimaryLineage lower config)).dedup

theorem mem_candidates {config : AuditConfig} {role lineage : String} :
    (role, lineage) ∈ candidates lower config ↔
      role ∈ scheduledReviewRoles config ∧
        approvedRegisteredPrimaryLineage lower config role = some lineage := by
  simp only [candidates, List.mem_filterMap, List.mem_insertionSort, candidateOf_eq,
    Option.map_eq_some_iff, Prod.mk.injEq]
  constructor
  · rintro ⟨other, scheduled, approved, found, rfl, rfl⟩
    exact ⟨scheduled, found⟩
  · rintro ⟨scheduled, found⟩
    exact ⟨role, scheduled, lineage, found, rfl, rfl⟩

theorem nodup_roles_candidates (config : AuditConfig) :
    ((candidates lower config).map Prod.fst).Nodup := by
  have sorted : ((scheduledReviewRoles config).insertionSort (· ≤ ·)).Nodup :=
    (List.perm_insertionSort _ _).nodup_iff.mpr (nodup_scheduledReviewRoles config)
  refine List.Sublist.nodup ?_ sorted
  rw [candidates, List.map_filterMap]
  generalize (scheduledReviewRoles config).insertionSort (· ≤ ·) = roles
  induction roles with
  | nil => exact List.Sublist.refl _
  | cons role roles ih =>
      rw [List.filterMap_cons, candidateOf_eq]
      cases approvedRegisteredPrimaryLineage lower config role with
      | none => exact ih.cons role
      | some lineage => exact ih.cons_cons role

theorem card_lineages_candidates (config : AuditConfig) :
    ((candidates lower config).map Prod.snd).toFinset.card = (approvedRoots lower config).length := by
  rw [approvedRoots, ← List.toFinset_card_of_nodup (List.nodup_dedup _)]
  congr 1
  ext lineage
  simp only [List.mem_toFinset, List.mem_map, Prod.exists, exists_eq_right, mem_candidates,
    List.mem_dedup, List.mem_filterMap]

/-! ## What the planner returns -/

omit [DecidableEq Digest] in
theorem get?_emptyAssignments (roles : List String) (role : String) :
    (emptyAssignments roles : Assignments Digest).get? role =
      if role ∈ roles then some [] else none := by
  unfold emptyAssignments
  suffices general : ∀ assignments : Assignments Digest,
      (roles.foldl (fun assignments role => assignments.insert role []) assignments).get? role =
        if role ∈ roles then some [] else assignments.get? role from general Dict.empty
  induction roles with
  | nil => exact fun assignments => by simp
  | cons first roles ih =>
      intro assignments
      rw [List.foldl_cons, ih, Dict.get?_insert]
      by_cases here : role = first
      · simp [here]
      · simp [here]

/-- The lists of the roles after some requests. -/
def IsPlanned (config : AuditConfig) (minimum : ℕ) (done : List (ModelSurfaceReviewRequest Digest))
    (assignments : Assignments Digest) : Prop :=
  ∀ role, assignments.get? role =
    if role ∈ scheduledReviewRoles config then
      some (done.filter fun request =>
        role ∈ (selection (candidates lower config) minimum request).map Prod.fst)
    else none

/-- A request with a gap that is not critical stops the planner. -/
def GapsCritical (requests : List (ModelSurfaceReviewRequest Digest)) : Prop :=
  ∀ request ∈ requests, request.priority = .elevatedCoverageGap → request.critical = true

omit [DecidableEq Digest] in
theorem IsPlanned.step {config : AuditConfig} {minimum : ℕ}
    {done : List (ModelSurfaceReviewRequest Digest)} {assignments : Assignments Digest}
    (planned : IsPlanned lower config minimum done assignments)
    (request : ModelSurfaceReviewRequest Digest) :
    IsPlanned lower config minimum (done ++ [request])
      ((selection (candidates lower config) minimum request).foldl (pushRole request)
        assignments) := by
  intro role
  rw [get?_foldl_pushRole request
    (nodup_roles_selection (nodup_roles_candidates lower config) minimum request), planned role,
    List.filter_append]
  by_cases scheduled : role ∈ scheduledReviewRoles config
  · by_cases selected : role ∈ (selection (candidates lower config) minimum request).map Prod.fst
    · simp [scheduled, selected]
    · simp [scheduled, selected]
  · have unselected : role ∉ (selection (candidates lower config) minimum request).map Prod.fst := by
      intro selected
      obtain ⟨⟨_, lineage⟩, member, rfl⟩ := List.mem_map.mp selected
      exact scheduled ((mem_candidates lower).mp (selection_subset minimum request member)).1
    rw [if_neg unselected, if_neg scheduled, if_neg scheduled]

omit [DecidableEq Digest] in
theorem isPlanned_empty (config : AuditConfig) (minimum : ℕ) :
    IsPlanned lower config minimum ([] : List (ModelSurfaceReviewRequest Digest))
      (emptyAssignments ((scheduledReviewRoles config).insertionSort (· ≤ ·))) := by
  intro role
  rw [get?_emptyAssignments]
  simp only [List.mem_insertionSort, List.filter_nil]

/-- Requests whose gaps are critical can be planned. -/
theorem exists_planned {config : AuditConfig} {minimum : ℕ} {evidence : SurfaceEvidence Digest}
    {requests : List (ModelSurfaceReviewRequest Digest)}
    (authoritative : evidence.modelSurfaceRequests = .ok requests)
    (critical : GapsCritical requests) :
    ∃ assignments, planAssignments lower config evidence requests minimum = .ok assignments := by
  obtain ⟨planned, returned, -⟩ := exists_foldlM_of_invariant
    (assignRequest (candidates lower config) minimum)
    (emptyAssignments ((scheduledReviewRoles config).insertionSort (· ≤ ·)))
    (fun _ _ => True) (sortRequests requests) trivial (by
      intro done request rest state split _
      have member : request ∈ sortRequests requests := by
        rw [← split]
        exact List.mem_append_right _ List.mem_cons_self
      refine ⟨_, assignRequest_eq _ minimum state request ?_, trivial⟩
      rintro ⟨elevated, notCritical⟩
      rw [critical request ((List.mem_insertionSort _).mp member) elevated] at notCritical
      cases notCritical)
  refine ⟨planned.mapValues sortRequests, ?_⟩
  rw [planAssignments, bind_of_ok (requireAuthoritative_of_eq authoritative), bind_of_ok returned]
  rfl

/-- What the planner returns, and that it only returns when all gaps are critical. -/
theorem planned_of_returned {config : AuditConfig} {minimum : ℕ}
    {evidence : SurfaceEvidence Digest} {requests : List (ModelSurfaceReviewRequest Digest)}
    {assignments : Assignments Digest} (authoritative : evidence.modelSurfaceRequests = .ok requests)
    (returned : planAssignments lower config evidence requests minimum = .ok assignments) :
    GapsCritical requests ∧ ∃ planned, IsPlanned lower config minimum (sortRequests requests) planned ∧
      assignments = planned.mapValues sortRequests := by
  rw [planAssignments, bind_of_ok (requireAuthoritative_of_eq authoritative), bind_eq_ok_iff]
    at returned
  obtain ⟨planned, run, finished⟩ := returned
  have invariant := foldlM_invariant
    (fun done assignments => (∀ request ∈ done, request.priority = .elevatedCoverageGap →
      request.critical = true) ∧ IsPlanned lower config minimum done assignments)
    (sortRequests requests) run
    ⟨fun _ member => absurd member List.not_mem_nil, isPlanned_empty lower config minimum⟩ (by
      rintro done request state next ⟨critical, planned⟩ stepped
      have accepted : ¬ (request.priority = .elevatedCoverageGap ∧ request.critical = false) := by
        rw [assignRequest, raiseIf_bind_eq_ok_iff] at stepped
        exact stepped.1
      rw [assignRequest_eq _ minimum state request accepted] at stepped
      obtain rfl := Except.ok.inj stepped
      refine ⟨?_, planned.step lower request⟩
      intro other member elevated
      rcases List.mem_append.mp member with before | here
      · exact critical other before elevated
      · obtain rfl := List.mem_singleton.mp here
        by_contra notCritical
        exact accepted ⟨elevated, Bool.eq_false_iff.mpr notCritical⟩)
  refine ⟨fun request member => invariant.1 request ((List.mem_insertionSort _).mpr member),
    planned, invariant.2, (Except.ok.inj finished).symm⟩

/-! ## Exact plans -/

/-- The roles whose lists hold the request. -/
def assignedRoles (assignments : Assignments Digest) (request : ModelSurfaceReviewRequest Digest) :
    List String :=
  (assignments.items.filter fun item => request ∈ item.2).map Prod.fst

/-- The lineage of the hunter, when the hunter is scheduled. -/
def coverageGapHunterLineage (config : AuditConfig) : Option String :=
  if coverageGapHunterRole ∈ scheduledReviewRoles config then
    approvedRegisteredPrimaryLineage lower config coverageGapHunterRole
  else none

/-- Only scheduled roles have lists, no list repeats a surface or has a foreign one, every request
has as many roles as it can get, with different approved lineages, and the hunter has every request
with a gap once. -/
structure PlansExactly (config : AuditConfig) (minimum : ℕ)
    (requests : List (ModelSurfaceReviewRequest Digest)) (assignments : Assignments Digest) :
    Prop where
  scheduled : ∀ role ∈ assignments, role ∈ scheduledReviewRoles config
  noDuplicate : ∀ role roleRequests, assignments.get? role = some roleRequests →
    (roleRequests.map (·.surfaceId)).Nodup
  noForeign : ∀ role roleRequests, assignments.get? role = some roleRequests →
    roleRequests ⊆ requests
  enough : ∀ request ∈ requests, (assignedRoles assignments request).length =
    min (targetOf minimum request) (approvedRoots lower config).length
  approved : ∀ request ∈ requests, none ∉
    (assignedRoles assignments request).map (approvedRegisteredPrimaryLineage lower config)
  independent : ∀ request ∈ requests, ((assignedRoles assignments request).map
    (approvedRegisteredPrimaryLineage lower config)).Nodup
  hunted : coverageGapHunterLineage lower config ≠ none → ∀ request ∈ requests,
    request.priority = .elevatedCoverageGap →
      ((assignments.get? coverageGapHunterRole).getD []).count request = 1

omit [DecidableEq Digest] in
theorem targetOf_pos {minimum : ℕ} (positive : 1 ≤ minimum)
    (request : ModelSurfaceReviewRequest Digest) : 1 ≤ targetOf minimum request := by
  unfold targetOf
  split
  · exact positive
  · exact le_rfl

/-- A request is on the lists of the roles that are selected for it. -/
theorem assignedRoles_perm {config : AuditConfig} {minimum : ℕ}
    {requests : List (ModelSurfaceReviewRequest Digest)} {planned : Assignments Digest}
    (isPlanned : IsPlanned lower config minimum (sortRequests requests) planned)
    {request : ModelSurfaceReviewRequest Digest} (member : request ∈ requests) :
    (assignedRoles (planned.mapValues sortRequests) request).Perm
      ((selection (candidates lower config) minimum request).map Prod.fst) := by
  have distinct : (assignedRoles (planned.mapValues sortRequests) request).Nodup :=
    (List.filter_sublist.map Prod.fst).nodup (planned.mapValues sortRequests).nodup
  refine (List.perm_ext_iff_of_nodup distinct
    (nodup_roles_selection (nodup_roles_candidates lower config) minimum request)).mpr ?_
  intro role
  have onList : role ∈ assignedRoles (planned.mapValues sortRequests) request ↔
      ∃ roleRequests, planned.get? role = some roleRequests ∧ request ∈ roleRequests := by
    simp only [assignedRoles, List.mem_map, List.mem_filter, decide_eq_true_eq, Prod.exists,
      exists_and_right, exists_eq_right, ← Dict.get?_eq_some_iff, Dict.get?_mapValues,
      Option.map_eq_some_iff]
    constructor
    · rintro ⟨_, ⟨roleRequests, found, rfl⟩, inside⟩
      exact ⟨roleRequests, found, (List.mem_insertionSort _).mp inside⟩
    · rintro ⟨roleRequests, found, inside⟩
      exact ⟨_, ⟨roleRequests, found, rfl⟩, (List.mem_insertionSort _).mpr inside⟩
  rw [onList, isPlanned role]
  constructor
  · rintro ⟨roleRequests, found, inside⟩
    split at found
    · obtain rfl := Option.some.inj found
      exact of_decide_eq_true (List.mem_filter.mp inside).2
    · cases found
  · intro selected
    obtain ⟨⟨_, lineage⟩, chosen, rfl⟩ := List.mem_map.mp selected
    have scheduled := ((mem_candidates lower).mp (selection_subset minimum request chosen)).1
    refine ⟨_, if_pos scheduled, List.mem_filter.mpr ⟨?_, decide_eq_true selected⟩⟩
    exact (List.mem_insertionSort _).mpr member

/-- The assignments of the planner are exact. -/
theorem plansExactly_of_returned {config : AuditConfig} {minimum : ℕ}
    {evidence : SurfaceEvidence Digest} {requests : List (ModelSurfaceReviewRequest Digest)}
    {assignments : Assignments Digest} (positive : 1 ≤ minimum)
    (authoritative : evidence.modelSurfaceRequests = .ok requests)
    (distinctIds : (requests.map (·.surfaceId)).Nodup)
    (returned : planAssignments lower config evidence requests minimum = .ok assignments) :
    PlansExactly lower config minimum requests assignments := by
  obtain ⟨-, planned, isPlanned, rfl⟩ := planned_of_returned lower authoritative returned
  have sortedPerm : (sortRequests requests).Perm requests := List.perm_insertionSort _ _
  -- Every list is a sorted part of the sorted requests.
  have listed : ∀ role roleRequests,
      (planned.mapValues sortRequests).get? role = some roleRequests →
      role ∈ scheduledReviewRoles config ∧ roleRequests.Perm ((sortRequests requests).filter
        fun request => role ∈ (selection (candidates lower config) minimum request).map Prod.fst) := by
    intro role roleRequests found
    rw [Dict.get?_mapValues, isPlanned role] at found
    split at found
    · rename_i scheduled
      obtain rfl := Option.some.inj found
      exact ⟨scheduled, List.perm_insertionSort _ _⟩
    · cases found
  -- The lineages of the assigned roles are those of the selection.
  have lineages : ∀ request ∈ requests, ((assignedRoles (planned.mapValues sortRequests) request).map
      (approvedRegisteredPrimaryLineage lower config)).Perm
        (((selection (candidates lower config) minimum request).map Prod.snd).map some) := by
    intro request member
    have selected : ((selection (candidates lower config) minimum request).map Prod.fst).map
        (approvedRegisteredPrimaryLineage lower config) =
          ((selection (candidates lower config) minimum request).map Prod.snd).map some := by
      rw [List.map_map, List.map_map]
      refine List.map_congr_left fun candidate chosen => ?_
      exact ((mem_candidates lower).mp (selection_subset minimum request chosen)).2
    rw [← selected]
    exact (assignedRoles_perm lower isPlanned member).map _
  refine ⟨?_, ?_, ?_, ?_, ?_, ?_, ?_⟩
  · intro role member
    obtain ⟨roleRequests, found⟩ := (Dict.mem_iff_exists_get? _ _).mp member
    exact (listed role roleRequests found).1
  · intro role roleRequests found
    rw [((listed role roleRequests found).2.map _).nodup_iff]
    refine (List.filter_sublist.map _).nodup ?_
    rwa [(sortedPerm.map _).nodup_iff]
  · intro role roleRequests found request member
    rw [(listed role roleRequests found).2.mem_iff] at member
    exact sortedPerm.mem_iff.mp (List.mem_filter.mp member).1
  · intro request member
    rw [(assignedRoles_perm lower isPlanned member).length_eq, List.length_map,
      length_selection minimum request (targetOf_pos positive request), card_lineages_candidates]
  · intro request member
    rw [(lineages request member).mem_iff, List.mem_map]
    rintro ⟨lineage, -, isNone⟩
    cases isNone
  · intro request member
    rw [(lineages request member).nodup_iff]
    exact (nodup_lineages_selection minimum request).map (Option.some_injective _)
  · intro available request member elevated
    have scheduled : coverageGapHunterRole ∈ scheduledReviewRoles config := by
      by_contra unscheduled
      exact available (if_neg unscheduled)
    rw [coverageGapHunterLineage, if_pos scheduled, Option.ne_none_iff_exists'] at available
    obtain ⟨lineage, found⟩ := available
    have candidate : coverageGapHunterRole ∈ (candidates lower config).map Prod.fst :=
      List.mem_map_of_mem ((mem_candidates lower).mpr ⟨scheduled, found⟩)
    have selected := hunter_mem_selection minimum request elevated candidate
    rw [Dict.get?_mapValues, isPlanned coverageGapHunterRole, if_pos scheduled, Option.map_some,
      Option.getD_some, sortRequests, (List.perm_insertionSort _ _).count_eq]
    refine List.count_eq_one_of_mem ?_ ?_
    · exact List.filter_sublist.nodup (sortedPerm.nodup_iff.mpr distinctIds.of_map)
    · exact List.mem_filter.mpr ⟨sortedPerm.mem_iff.mpr member, decide_eq_true selected⟩

end Planning

end Review

end MmAudit
