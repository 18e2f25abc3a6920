import MmAudit.Review.Planning

/-!
# The feasibility gate

Before money is spent, `model_surface_assignment_feasibility_gate` counts the lineages of the
planned roles again, surface by surface.  On what the planner returns, the gate passes exactly when
there is a surface and no surface needs more lineages than there are.
-/

namespace MmAudit

namespace Review

open Fallible Selection

section Feasibility

variable {Digest : Type} [DecidableEq Digest] (lower : String → String)

/-! ## Results -/

inductive AnalysisState where
  | notAnalyzed
  | attemptedFailed
  | fallbackParser
  | modelOnly
  | scannerSupported
  | deterministic
  | reproduced
  | formallyProven
deriving DecidableEq, Repr

structure QualityGateResult where
  gate : String
  required : Bool
  passed : Bool
  detail : String
  state : AnalysisState
deriving DecidableEq, Repr

/-! ## Counting -/

/-- What the gate collects about the assignments. -/
structure Tally where
  invalidAssignments : List String
  seenRoleSurfaces : List (String × String)
  hunterRequestCounts : Dict String ℕ
  assignedLineages : Dict String (List String)

def Tally.invalid (tally : Tally) (detail : String) : Tally :=
  { tally with invalidAssignments := tally.invalidAssignments.insert detail }

/-- One turn of the loop over the requests of a role. -/
def tallyRequest (requestsById : Dict String (ModelSurfaceReviewRequest Digest)) (role : String)
    (roleIsScheduled : Bool) (rootLineage : Option String) (tally : Tally)
    (assigned : ModelSurfaceReviewRequest Digest) : Tally :=
  if (role, assigned.surfaceId) ∈ tally.seenRoleSurfaces then
    tally.invalid (role ++ ":duplicate-surface:" ++ assigned.surfaceId)
  else
    let tally := { tally with
      seenRoleSurfaces := tally.seenRoleSurfaces ++ [(role, assigned.surfaceId)]
      hunterRequestCounts :=
        if role = coverageGapHunterRole then
          tally.hunterRequestCounts.insert assigned.surfaceId
            ((tally.hunterRequestCounts.get? assigned.surfaceId).getD 0 + 1)
        else tally.hunterRequestCounts }
    match requestsById.get? assigned.surfaceId with
    | none => tally.invalid (role ++ ":unknown-surface:" ++ assigned.surfaceId)
    | some inventoryRequest =>
        if assigned ≠ inventoryRequest then
          tally.invalid (role ++ ":mismatched-surface:" ++ assigned.surfaceId)
        else
          match rootLineage with
          | none =>
              if roleIsScheduled then
                tally.invalid (role ++ ":unapproved-or-unregistered-primary:" ++ assigned.surfaceId)
              else tally
          | some lineage =>
              { tally with
                assignedLineages := tally.assignedLineages.insert assigned.surfaceId
                  (((tally.assignedLineages.get? assigned.surfaceId).getD []).insert lineage) }

/-- One turn of the loop over the roles. -/
def tallyRole (config : AuditConfig)
    (requestsById : Dict String (ModelSurfaceReviewRequest Digest)) (tally : Tally)
    (item : String × List (ModelSurfaceReviewRequest Digest)) : Tally :=
  let roleIsScheduled := decide (item.1 ∈ scheduledReviewRoles config)
  let tally := if roleIsScheduled then tally else tally.invalid (item.1 ++ ":unscheduled-role")
  let rootLineage :=
    if roleIsScheduled then approvedRegisteredPrimaryLineage lower config item.1 else none
  item.2.foldl (tallyRequest requestsById item.1 roleIsScheduled rootLineage) tally

/-- `{request.surface_id: request for request in requests}` -/
def requestsById (requests : List (ModelSurfaceReviewRequest Digest)) :
    Dict String (ModelSurfaceReviewRequest Digest) :=
  (requests.map fun request => (request.surfaceId, request)).foldl
    (fun byId item => byId.insert item.1 item.2) Dict.empty

def tallyAssignments (config : AuditConfig) (requests : List (ModelSurfaceReviewRequest Digest))
    (assignments : Assignments Digest) : Tally :=
  (assignments.items.insertionSort fun item other => item.1 ≤ other.1).foldl
    (tallyRole lower config (requestsById requests))
    { invalidAssignments := []
      seenRoleSurfaces := []
      hunterRequestCounts := Dict.empty
      assignedLineages := (requestsById requests).mapValues fun _ => [] }

/-! ## The gate -/

def Tally.lineageCount (tally : Tally) (request : ModelSurfaceReviewRequest Digest) : ℕ :=
  ((tally.assignedLineages.get? request.surfaceId).getD []).length

/-- The surface with its number of lineages and the number it needs. -/
def underassigned (tally : Tally) (minimumCriticalRootLineages : ℕ)
    (requests : List (ModelSurfaceReviewRequest Digest)) : List (String × ℕ × ℕ) :=
  ((sortRequests requests).filter fun request =>
    decide (tally.lineageCount request < targetOf minimumCriticalRootLineages request)).map
      fun request => (request.surfaceId, tally.lineageCount request,
        targetOf minimumCriticalRootLineages request)

def missingPriorityAssignments (config : AuditConfig) (tally : Tally)
    (requests : List (ModelSurfaceReviewRequest Digest)) : List String :=
  ((sortRequests requests).filter fun request =>
    (coverageGapHunterLineage lower config).isSome &&
      decide (request.priority = .elevatedCoverageGap) &&
      decide ((tally.hunterRequestCounts.get? request.surfaceId).getD 0 ≠ 1)).map (·.surfaceId)

/-- What the gate says after its counting. -/
def countedResult (config : AuditConfig) (requests : List (ModelSurfaceReviewRequest Digest))
    (assignments : Assignments Digest) (required : Bool) (minimumCriticalRootLineages : ℕ) :
    QualityGateResult :=
  let tally := tallyAssignments lower config requests assignments
  let duplicateInventoryIds := decide ((requestsById requests).keys.length ≠ requests.length)
  let underassigned := underassigned tally minimumCriticalRootLineages requests
  let missing := missingPriorityAssignments lower config tally requests
  let passed := !duplicateInventoryIds && tally.invalidAssignments.isEmpty &&
    underassigned.isEmpty && missing.isEmpty
  { gate := "model_surface_assignment_feasibility"
    required := required
    passed := passed
    detail := "surfaces=" ++ toString requests.length ++
      "; critical=" ++ toString (requests.countP (·.critical)) ++
      "; noncritical=" ++ toString (requests.countP (!·.critical)) ++
      "; underassigned=" ++ toString underassigned.length ++
      "; invalid_assignments=" ++ toString tally.invalidAssignments.length ++
      "; missing_priority_assignments=" ++ toString missing.length ++
      "; coverage_gap_hunter_available=" ++
        toString (coverageGapHunterLineage lower config).isSome.toNat ++
      "; duplicate_inventory_ids=" ++ toString duplicateInventoryIds.toNat ++
      "; required_distinct_primary_root_lineages=critical:" ++
        toString minimumCriticalRootLineages ++ ",noncritical:1"
    state := if passed then .deterministic else .attemptedFailed }

/-- The analysis of the source classifies all of it. -/
def SurfaceEvidence.isComplete (evidence : SurfaceEvidence Digest) : Bool :=
  evidence.suite.any fun suite => suite.sourceClassificationComplete &&
    suite.criticalClassificationComplete && evidence.inputsComplete

/-- `model_surface_assignment_feasibility_gate` -/
def assignmentFeasibilityGate (config : AuditConfig) (evidence : SurfaceEvidence Digest)
    (requests : List (ModelSurfaceReviewRequest Digest)) (assignments : Assignments Digest)
    (required : Bool) (minimumCriticalRootLineages : ℕ) : Except ValueError QualityGateResult := do
  raiseIf (minimumCriticalRootLineages < 1)
    ⟨"critical surface feasibility requires at least one root lineage"⟩
  let failed := fun (detail : String) (state : AnalysisState) =>
    ({ gate := "model_surface_assignment_feasibility"
       required := required
       passed := false
       detail := detail
       state := state } : QualityGateResult)
  if evidence.indexed = false then
    return failed "Solidity symbol index was unavailable; assignment feasibility is unknown"
      .notAnalyzed
  else
    match evidence.revalidation with
    | .error failure =>
        return failed ("model-surface classification evidence failed validation: " ++
          failure.message) .attemptedFailed
    | .ok () =>
        if evidence.suite = none then
          return failed ("audited-suite coverage was unavailable; assignment feasibility cannot " ++
            "prove the critical-surface denominator") .notAnalyzed
        else if evidence.isComplete = false then
          return failed ("audited-suite critical classification was incomplete or lacked exact " ++
            "graph, invariant, economic, and source-partition evidence") .notAnalyzed
        else
          match requireAuthoritativeRequestInventory evidence requests with
          | .error failure =>
              return failed ("model-surface inventory failed authoritative revalidation: " ++
                failure.message) .attemptedFailed
          | .ok [] =>
              return failed ("Solidity analysis was applicable but the deterministic " ++
                "model-surface inventory was empty (0/0)") .attemptedFailed
          | .ok requests =>
              return countedResult lower config requests assignments required
                minimumCriticalRootLineages

/-! ## The inventory by IDs -/

omit [DecidableEq Digest] in
/-- New keys stand behind the old ones. -/
theorem items_foldl_insert {Value : Type} (assignments : List (String × Value))
    (dict : Dict String Value) (distinct : (dict.keys ++ assignments.map Prod.fst).Nodup) :
    (assignments.foldl (fun dict item => dict.insert item.1 item.2) dict).items =
      dict.items ++ assignments := by
  induction assignments generalizing dict with
  | nil => simp
  | cons item assignments ih =>
      have absent : item.1 ∉ dict.keys := by
        intro present
        rw [List.map_cons, List.nodup_append] at distinct
        exact distinct.2.2 _ present _ List.mem_cons_self rfl
      have inserted : (dict.insert item.1 item.2).items = dict.items ++ [item] := by
        rw [Dict.insert, dif_neg absent]
      rw [List.foldl_cons, ih, inserted, List.append_assoc, List.singleton_append]
      rw [Dict.keys, inserted, List.map_append, List.append_assoc]
      exact distinct

omit [DecidableEq Digest] in
theorem items_requestsById {requests : List (ModelSurfaceReviewRequest Digest)}
    (distinctIds : (requests.map (·.surfaceId)).Nodup) :
    (requestsById requests).items = requests.map fun request => (request.surfaceId, request) := by
  rw [requestsById, items_foldl_insert _ _ ?_]
  · rfl
  · rw [List.map_map]
    exact distinctIds

omit [DecidableEq Digest] in
theorem get?_requestsById {requests : List (ModelSurfaceReviewRequest Digest)}
    (distinctIds : (requests.map (·.surfaceId)).Nodup)
    {request : ModelSurfaceReviewRequest Digest} (member : request ∈ requests) :
    (requestsById requests).get? request.surfaceId = some request := by
  rw [Dict.get?_eq_some_iff, items_requestsById distinctIds]
  exact List.mem_map.mpr ⟨request, member, rfl⟩

/-! ## Counting a clean plan -/

/-- What is collected from pairs of a role and a request, when none of them is at fault. -/
structure Collects (config : AuditConfig)
    (done : List (String × ModelSurfaceReviewRequest Digest)) (tally : Tally) : Prop where
  clean : tally.invalidAssignments = []
  seen : ∀ role surfaceId, (role, surfaceId) ∈ tally.seenRoleSurfaces ↔
    ∃ request, (role, request) ∈ done ∧ request.surfaceId = surfaceId
  hunted : ∀ surfaceId, (tally.hunterRequestCounts.get? surfaceId).getD 0 =
    done.countP fun pair => pair.1 = coverageGapHunterRole ∧ pair.2.surfaceId = surfaceId
  distinct : ∀ surfaceId, ((tally.assignedLineages.get? surfaceId).getD []).Nodup
  lineages : ∀ surfaceId lineage, lineage ∈ (tally.assignedLineages.get? surfaceId).getD [] ↔
    ∃ role request, (role, request) ∈ done ∧ request.surfaceId = surfaceId ∧
      approvedRegisteredPrimaryLineage lower config role = some lineage

theorem Collects.step {config : AuditConfig}
    {done : List (String × ModelSurfaceReviewRequest Digest)} {tally : Tally}
    (collects : Collects lower config done tally)
    {requests : List (ModelSurfaceReviewRequest Digest)}
    (distinctIds : (requests.map (·.surfaceId)).Nodup) {role : String} {lineage : String}
    (approved : approvedRegisteredPrimaryLineage lower config role = some lineage)
    {request : ModelSurfaceReviewRequest Digest} (member : request ∈ requests)
    (isNew : ∀ other, (role, other) ∈ done → other.surfaceId ≠ request.surfaceId) :
    Collects lower config (done ++ [(role, request)])
      (tallyRequest (requestsById requests) role true (some lineage) tally request) := by
  have unseen : (role, request.surfaceId) ∉ tally.seenRoleSurfaces := by
    rw [collects.seen]
    rintro ⟨other, before, same⟩
    exact isNew other before same
  rw [tallyRequest, if_neg unseen, get?_requestsById distinctIds member]
  dsimp only
  rw [if_neg (not_not.mpr rfl)]
  refine ⟨collects.clean, ?_, ?_, ?_, ?_⟩
  · intro otherRole surfaceId
    simp only [List.mem_append, List.mem_singleton, collects.seen, Prod.mk.injEq]
    constructor
    · rintro (⟨other, before, same⟩ | ⟨rfl, rfl⟩)
      · exact ⟨other, .inl before, same⟩
      · exact ⟨request, .inr ⟨rfl, rfl⟩, rfl⟩
    · rintro ⟨other, before | ⟨rfl, rfl⟩, same⟩
      · exact .inl ⟨other, before, same⟩
      · exact .inr ⟨rfl, same.symm⟩
  · intro surfaceId
    rw [List.countP_append, ← collects.hunted, List.countP_singleton]
    by_cases isHunter : role = coverageGapHunterRole
    · rw [if_pos isHunter, Dict.get?_insert]
      by_cases here : surfaceId = request.surfaceId
      · subst here
        simp [isHunter]
      · simp [isHunter, here, Ne.symm here]
    · simp [isHunter]
  · intro surfaceId
    rw [Dict.get?_insert]
    split
    · exact (collects.distinct request.surfaceId).insert
    · exact collects.distinct surfaceId
  · intro surfaceId other
    rw [Dict.get?_insert]
    split
    · rename_i here
      subst here
      rw [Option.getD_some, List.mem_insert_iff, collects.lineages]
      constructor
      · rintro (rfl | ⟨otherRole, otherRequest, before, same, found⟩)
        · exact ⟨role, request, List.mem_append_right _ List.mem_cons_self, rfl, approved⟩
        · exact ⟨otherRole, otherRequest, List.mem_append_left _ before, same, found⟩
      · rintro ⟨otherRole, otherRequest, before, same, found⟩
        rcases List.mem_append.mp before with before | here
        · exact .inr ⟨otherRole, otherRequest, before, same, found⟩
        · obtain ⟨rfl, rfl⟩ := Prod.mk.inj (List.mem_singleton.mp here)
          exact .inl (Option.some.inj (found.symm.trans approved))
    · rename_i elsewhere
      rw [collects.lineages]
      constructor
      · rintro ⟨otherRole, otherRequest, before, same, found⟩
        exact ⟨otherRole, otherRequest, List.mem_append_left _ before, same, found⟩
      · rintro ⟨otherRole, otherRequest, before, same, found⟩
        rcases List.mem_append.mp before with before | here
        · exact ⟨otherRole, otherRequest, before, same, found⟩
        · obtain ⟨rfl, rfl⟩ := Prod.mk.inj (List.mem_singleton.mp here)
          exact absurd same.symm elsewhere

/-- The list of one role is clean. -/
structure CleanItem (config : AuditConfig) (requests : List (ModelSurfaceReviewRequest Digest))
    (item : String × List (ModelSurfaceReviewRequest Digest)) : Prop where
  scheduled : item.1 ∈ scheduledReviewRoles config
  noDuplicate : (item.2.map (·.surfaceId)).Nodup
  noForeign : item.2 ⊆ requests
  approved : item.2 ≠ [] → approvedRegisteredPrimaryLineage lower config item.1 ≠ none

def pairsOfItem (item : String × List (ModelSurfaceReviewRequest Digest)) :
    List (String × ModelSurfaceReviewRequest Digest) :=
  item.2.map fun request => (item.1, request)

theorem Collects.role {config : AuditConfig}
    {done : List (String × ModelSurfaceReviewRequest Digest)} {tally : Tally}
    (collects : Collects lower config done tally)
    {requests : List (ModelSurfaceReviewRequest Digest)}
    (distinctIds : (requests.map (·.surfaceId)).Nodup)
    {item : String × List (ModelSurfaceReviewRequest Digest)}
    (cleanItem : CleanItem lower config requests item)
    (isNew : ∀ pair ∈ done, pair.1 ≠ item.1) :
    Collects lower config (done ++ pairsOfItem item)
      (tallyRole lower config (requestsById requests) tally item) := by
  obtain ⟨role, roleRequests⟩ := item
  have scheduled : decide (role ∈ scheduledReviewRoles config) = true :=
    decide_eq_true cleanItem.scheduled
  unfold tallyRole
  dsimp only
  rw [scheduled, if_pos rfl, if_pos rfl]
  cases roleRequests with
  | nil =>
      rw [pairsOfItem, List.map_nil, List.append_nil]
      exact collects
  | cons first rest =>
      obtain ⟨lineage, approved⟩ :=
        Option.ne_none_iff_exists'.mp (cleanItem.approved (List.cons_ne_nil first rest))
      dsimp only at approved
      have noDuplicate := cleanItem.noDuplicate
      have noForeign := cleanItem.noForeign
      dsimp only at noDuplicate noForeign isNew
      rw [approved, pairsOfItem]
      dsimp only
      have unseen : ∀ other request, (role, other) ∈ done → request ∈ first :: rest →
          other.surfaceId ≠ request.surfaceId := fun other _ before _ =>
        absurd rfl (isNew (role, other) before)
      generalize first :: rest = remaining at noDuplicate noForeign unseen ⊢
      clear cleanItem isNew
      induction remaining generalizing done tally with
      | nil =>
          rw [List.map_nil, List.append_nil]
          exact collects
      | cons request remaining ih =>
          rw [List.map_cons, List.nodup_cons] at noDuplicate
          obtain ⟨member, members⟩ := List.cons_subset.mp noForeign
          have stepped := collects.step lower distinctIds approved member
            fun other before => unseen other request before List.mem_cons_self
          rw [List.foldl_cons, List.map_cons, ← List.singleton_append, ← List.append_assoc]
          refine ih stepped noDuplicate.2 members ?_
          intro other later before laterMember
          rcases List.mem_append.mp before with before | here
          · exact unseen other later before (List.mem_cons_of_mem _ laterMember)
          · obtain ⟨-, rfl⟩ := Prod.mk.inj (List.mem_singleton.mp here)
            intro same
            exact noDuplicate.1 (List.mem_map.mpr ⟨later, laterMember, same.symm⟩)

/-- All pairs of a plan whose lists are clean are collected. -/
theorem collects_foldl_tallyRole {config : AuditConfig}
    {requests : List (ModelSurfaceReviewRequest Digest)}
    (distinctIds : (requests.map (·.surfaceId)).Nodup)
    (items : List (String × List (ModelSurfaceReviewRequest Digest)))
    (cleanItems : ∀ item ∈ items, CleanItem lower config requests item)
    (distinctRoles : (items.map Prod.fst).Nodup)
    {done : List (String × ModelSurfaceReviewRequest Digest)} {tally : Tally}
    (collects : Collects lower config done tally)
    (isNew : ∀ pair ∈ done, ∀ item ∈ items, pair.1 ≠ item.1) :
    Collects lower config (done ++ items.flatMap pairsOfItem)
      (items.foldl (tallyRole lower config (requestsById requests)) tally) := by
  induction items generalizing done tally with
  | nil =>
      rw [List.flatMap_nil, List.append_nil]
      exact collects
  | cons item items ih =>
      rw [List.map_cons, List.nodup_cons] at distinctRoles
      obtain ⟨cleanItem, others⟩ := List.forall_mem_cons.mp cleanItems
      have stepped := collects.role lower distinctIds cleanItem
        fun pair before => isNew pair before item List.mem_cons_self
      rw [List.foldl_cons, List.flatMap_cons, ← List.append_assoc]
      refine ih others distinctRoles.2 stepped ?_
      intro pair before later laterMember
      rcases List.mem_append.mp before with before | here
      · exact isNew pair before later (List.mem_cons_of_mem _ laterMember)
      · obtain ⟨request, -, rfl⟩ := List.mem_map.mp here
        intro same
        exact distinctRoles.1 (same ▸ List.mem_map_of_mem laterMember)

/-! ## The gate on a plan -/

/-- What is found out about an exact plan. -/
theorem collects_tallyAssignments {config : AuditConfig} {minimum : ℕ}
    {requests : List (ModelSurfaceReviewRequest Digest)} {assignments : Assignments Digest}
    (distinctIds : (requests.map (·.surfaceId)).Nodup)
    (exact : PlansExactly lower config minimum requests assignments) :
    Collects lower config
      ((assignments.items.insertionSort fun item other => item.1 ≤ other.1).flatMap pairsOfItem)
      (tallyAssignments lower config requests assignments) := by
  have permuted := List.perm_insertionSort
    (fun item other : String × List (ModelSurfaceReviewRequest Digest) => item.1 ≤ other.1)
    assignments.items
  have begins : Collects lower config ([] : List (String × ModelSurfaceReviewRequest Digest))
      { invalidAssignments := []
        seenRoleSurfaces := []
        hunterRequestCounts := Dict.empty
        assignedLineages := (requestsById requests).mapValues fun _ => [] } := by
    have noLineages : ∀ surfaceId, (((requestsById requests).mapValues
        fun _ => ([] : List String)).get? surfaceId).getD [] = [] := by
      intro surfaceId
      rw [Dict.get?_mapValues]
      cases (requestsById requests).get? surfaceId with
      | none => rfl
      | some request => rfl
    refine ⟨rfl, by simp, by simp, ?_, ?_⟩
    · intro surfaceId
      rw [noLineages]
      exact List.nodup_nil
    · intro surfaceId lineage
      rw [noLineages]
      simp
  have collected := collects_foldl_tallyRole lower distinctIds
    (assignments.items.insertionSort fun item other => item.1 ≤ other.1) ?_ ?_ begins
    (fun _ member => absurd member List.not_mem_nil)
  · rwa [List.nil_append] at collected
  · intro item member
    have listed := (Dict.get?_eq_some_iff assignments item.1 item.2).mpr
      ((List.mem_insertionSort _).mp member)
    refine ⟨exact.scheduled item.1 ((Dict.mem_iff_exists_get? _ _).mpr ⟨_, listed⟩),
      exact.noDuplicate _ _ listed, exact.noForeign _ _ listed, ?_⟩
    intro nonempty unapproved
    obtain ⟨request, inside⟩ := List.exists_mem_of_ne_nil _ nonempty
    refine exact.approved request (exact.noForeign _ _ listed inside)
      (List.mem_map.mpr ⟨item.1, ?_, unapproved⟩)
    exact List.mem_map.mpr ⟨item, List.mem_filter.mpr
      ⟨(List.mem_insertionSort _).mp member, decide_eq_true inside⟩, rfl⟩
  · rw [(permuted.map Prod.fst).nodup_iff]
    exact assignments.nodup

/-- The gate counts a lineage for each role that a request is assigned to. -/
theorem lineageCount_eq {config : AuditConfig} {minimum : ℕ}
    {requests : List (ModelSurfaceReviewRequest Digest)} {assignments : Assignments Digest}
    (distinctIds : (requests.map (·.surfaceId)).Nodup)
    (exact : PlansExactly lower config minimum requests assignments)
    {request : ModelSurfaceReviewRequest Digest} (member : request ∈ requests) :
    (tallyAssignments lower config requests assignments).lineageCount request =
      min (targetOf minimum request) (approvedRoots lower config).length := by
  have collected := collects_tallyAssignments lower distinctIds exact
  suffices perm : ((((tallyAssignments lower config requests assignments).assignedLineages.get?
      request.surfaceId).getD []).map some).Perm ((assignedRoles assignments request).map
        (approvedRegisteredPrimaryLineage lower config)) by
    rw [← exact.enough request member, Tally.lineageCount]
    simpa using perm.length_eq
  refine (List.perm_ext_iff_of_nodup
    ((collected.distinct request.surfaceId).map (Option.some_injective _))
    (exact.independent request member)).mpr ?_
  -- A pair with the ID of the request holds the request itself.
  have onList : ∀ role, (∃ other, (role, other) ∈ (assignments.items.insertionSort
      fun item other => item.1 ≤ other.1).flatMap pairsOfItem ∧
        other.surfaceId = request.surfaceId) ↔ role ∈ assignedRoles assignments request := by
    intro role
    simp only [List.mem_flatMap, pairsOfItem, List.mem_map, List.mem_insertionSort, assignedRoles,
      List.mem_filter, decide_eq_true_eq, Prod.mk.injEq]
    constructor
    · rintro ⟨_, ⟨item, listed, other, inside, rfl, rfl⟩, same⟩
      have found := (Dict.get?_eq_some_iff assignments item.1 item.2).mpr listed
      obtain rfl := List.inj_on_of_nodup_map distinctIds (exact.noForeign _ _ found inside) member
        same
      exact ⟨item, ⟨listed, inside⟩, rfl⟩
    · rintro ⟨item, ⟨listed, inside⟩, rfl⟩
      exact ⟨request, ⟨item, listed, request, inside, rfl, rfl⟩, rfl⟩
  intro lineage
  cases lineage with
  | none =>
      refine iff_of_false ?_ (exact.approved request member)
      rintro inside
      obtain ⟨other, -, isNone⟩ := List.mem_map.mp inside
      cases isNone
  | some lineage =>
      rw [List.mem_map_of_injective (Option.some_injective _), collected.lineages, List.mem_map]
      constructor
      · rintro ⟨role, other, listed, same, approved⟩
        exact ⟨role, (onList role).mp ⟨other, listed, same⟩, approved⟩
      · rintro ⟨role, assigned, approved⟩
        obtain ⟨other, listed, same⟩ := (onList role).mpr assigned
        exact ⟨role, other, listed, same, approved⟩

omit [DecidableEq Digest] in
theorem countP_pairs_of_ne {items : List (String × List (ModelSurfaceReviewRequest Digest))}
    (others : ∀ item ∈ items, item.1 ≠ coverageGapHunterRole) (surfaceId : String) :
    (items.flatMap pairsOfItem).countP (fun pair => decide
      (pair.1 = coverageGapHunterRole ∧ pair.2.surfaceId = surfaceId)) = 0 := by
  rw [List.countP_eq_zero]
  intro pair member
  obtain ⟨item, listed, inside⟩ := List.mem_flatMap.mp member
  obtain ⟨request, -, rfl⟩ := List.mem_map.mp inside
  rw [decide_eq_true_eq]
  exact fun both => others item listed both.1

/-- The hunter is counted once for each time its list has the request. -/
theorem countP_hunter {requests : List (ModelSurfaceReviewRequest Digest)}
    (distinctIds : (requests.map (·.surfaceId)).Nodup) {assignments : Assignments Digest}
    {hunterRequests : List (ModelSurfaceReviewRequest Digest)}
    (found : assignments.get? coverageGapHunterRole = some hunterRequests)
    (noForeign : hunterRequests ⊆ requests) {request : ModelSurfaceReviewRequest Digest}
    (member : request ∈ requests) :
    ((assignments.items.insertionSort fun item other => item.1 ≤ other.1).flatMap
      pairsOfItem).countP (fun pair => decide
        (pair.1 = coverageGapHunterRole ∧ pair.2.surfaceId = request.surfaceId)) =
      hunterRequests.count request := by
  obtain ⟨before, after, items, othersBefore, othersAfter⟩ := Dict.exists_split found
  have permuted := List.perm_insertionSort
    (fun item other : String × List (ModelSurfaceReviewRequest Digest) => item.1 ≤ other.1)
    assignments.items
  rw [(permuted.flatMap_right pairsOfItem).countP_eq, items, List.flatMap_append, List.flatMap_cons,
    List.countP_append, List.countP_append, countP_pairs_of_ne othersBefore,
    countP_pairs_of_ne othersAfter, Nat.zero_add, Nat.add_zero, pairsOfItem, List.countP_map,
    List.count_eq_countP]
  refine List.countP_congr fun other inside => ?_
  rw [Function.comp_apply, decide_eq_true_eq, beq_iff_eq]
  constructor
  · rintro ⟨-, same⟩
    exact List.inj_on_of_nodup_map distinctIds (noForeign inside) member same
  · rintro rfl
    exact ⟨rfl, rfl⟩

/-- The gate misses no request with a gap. -/
theorem missingPriorityAssignments_eq_nil {config : AuditConfig} {minimum : ℕ}
    {requests : List (ModelSurfaceReviewRequest Digest)} {assignments : Assignments Digest}
    (distinctIds : (requests.map (·.surfaceId)).Nodup)
    (exact : PlansExactly lower config minimum requests assignments) :
    missingPriorityAssignments lower config (tallyAssignments lower config requests assignments)
      requests = [] := by
  have collected := collects_tallyAssignments lower distinctIds exact
  rw [missingPriorityAssignments, List.map_eq_nil_iff, List.filter_eq_nil_iff]
  intro request sorted
  have member : request ∈ requests := (List.mem_insertionSort _).mp sorted
  rw [Bool.and_eq_true, Bool.and_eq_true, decide_eq_true_eq, decide_eq_true_eq]
  rintro ⟨⟨available, elevated⟩, missing⟩
  have once := exact.hunted (Option.isSome_iff_ne_none.mp available) request member elevated
  cases found : assignments.get? coverageGapHunterRole with
  | none =>
      rw [found] at once
      cases once
  | some hunterRequests =>
      rw [found, Option.getD_some] at once
      refine missing ?_
      rw [collected.hunted, countP_hunter distinctIds found (exact.noForeign _ _ found) member, once]

/-- The gate passes an exact plan when there are surfaces and enough lineages for each. -/
theorem countedResult_passed_iff {config : AuditConfig} {minimum : ℕ}
    {requests : List (ModelSurfaceReviewRequest Digest)} {assignments : Assignments Digest}
    (distinctIds : (requests.map (·.surfaceId)).Nodup)
    (exact : PlansExactly lower config minimum requests assignments) (required : Bool) :
    (countedResult lower config requests assignments required minimum).passed = true ↔
      ∀ request ∈ requests, targetOf minimum request ≤ (approvedRoots lower config).length := by
  have noDuplicates : decide ((requestsById requests).keys.length ≠ requests.length) = false := by
    rw [decide_eq_false_iff_not, not_not, Dict.keys, List.length_map,
      items_requestsById distinctIds, List.length_map]
  have clean := (collects_tallyAssignments lower distinctIds exact).clean
  have noneMissing := missingPriorityAssignments_eq_nil lower distinctIds exact
  unfold countedResult
  dsimp only
  rw [noDuplicates, clean, noneMissing]
  rw [List.isEmpty_nil, Bool.not_false, Bool.true_and, Bool.true_and, Bool.and_true,
    List.isEmpty_iff, underassigned, List.map_eq_nil_iff, List.filter_eq_nil_iff]
  constructor
  · intro none request member
    have enough := none request ((List.mem_insertionSort _).mpr member)
    rw [decide_eq_true_eq, not_lt, lineageCount_eq lower distinctIds exact member] at enough
    exact enough.trans (min_le_right _ _)
  · intro enough request sorted
    have member : request ∈ requests := (List.mem_insertionSort _).mp sorted
    rw [decide_eq_true_eq, not_lt, lineageCount_eq lower distinctIds exact member]
    exact le_min le_rfl (enough request member)

/-- On a complete classification the planner plans every inventory whose gaps are critical, its
plan is exact, and the gate passes the plan exactly when there is a surface and no surface needs
more lineages than there are. -/
theorem planner_and_gate_agree (config : AuditConfig) {evidence : SurfaceEvidence Digest}
    {requests : List (ModelSurfaceReviewRequest Digest)} {minimum : ℕ} (required : Bool)
    (positive : 1 ≤ minimum) (indexed : evidence.indexed = true)
    (revalidated : evidence.revalidation = .ok ()) (complete : evidence.isComplete = true)
    (authoritative : evidence.modelSurfaceRequests = .ok requests)
    (distinctIds : (requests.map (·.surfaceId)).Nodup) :
    (GapsCritical requests ↔ ∃ assignments,
      planAssignments lower config evidence requests minimum = .ok assignments) ∧
    ∀ assignments, planAssignments lower config evidence requests minimum = .ok assignments →
      PlansExactly lower config minimum requests assignments ∧
      ∃ result, assignmentFeasibilityGate lower config evidence requests assignments required
          minimum = .ok result ∧
        (result.passed = true ↔ requests ≠ [] ∧
          ∀ request ∈ requests, targetOf minimum request ≤ (approvedRoots lower config).length) := by
  refine ⟨⟨exists_planned lower authoritative, ?_⟩, ?_⟩
  · rintro ⟨assignments, returned⟩
    exact (planned_of_returned lower authoritative returned).1
  · intro assignments returned
    have exact := plansExactly_of_returned lower positive authoritative distinctIds returned
    refine ⟨exact, ?_⟩
    have hasSuite : evidence.suite ≠ none := by
      intro noSuite
      rw [SurfaceEvidence.isComplete, noSuite] at complete
      cases complete
    rw [assignmentFeasibilityGate, raiseIf_bind_of_not (by omega), if_neg (by rw [indexed]; decide),
      revalidated]
    dsimp only
    rw [if_neg hasSuite, if_neg (by rw [complete]; decide),
      requireAuthoritative_of_eq authoritative]
    cases requests with
    | nil => exact ⟨_, rfl, by simp⟩
    | cons first rest =>
        refine ⟨_, rfl, ?_⟩
        rw [countedResult_passed_iff lower distinctIds exact required]
        exact (and_iff_right (List.cons_ne_nil first rest)).symm

end Feasibility

/-! ## A hunter that is not scheduled -/

/-- A critical surface with a coverage gap. -/
def gapRequest : ModelSurfaceReviewRequest (List UInt8) where
  surfaceId := "model-surface:" ++ String.ofList (List.replicate 64 'a')
  kind := .entryPoint
  subjectId := "function:withdraw"
  contract := "Vault"
  functionOrStateSurface := "withdraw(uint256)"
  critical := true
  allowedLocations := []
  allowedSymbols := ["withdraw"]
  invariantConsidered := "Assess authorization, state, and asset invariants for withdraw(uint256)."
  priority := .elevatedCoverageGap
  coverageGapIds := ["audited-suite-gap:" ++ String.ofList (List.replicate 64 'b')]
  stableId := by decide +kernel
  gapsElevate := by decide

/-- A configuration with a hunter, two lineages and one critical surface. -/
def hunterConfig (profile : AuditProfile) : AuditConfig where
  profile := profile
  sourceAudit := ⟨"first/audit", []⟩
  businessLogic := ⟨"first/audit", []⟩
  configuration := ⟨"first/audit", []⟩
  specialists := Dict.empty.insert "false_negative_hunter" ⟨"second/hunter", []⟩
  registry := [⟨"sha256:1", "first/audit", []⟩, ⟨"sha256:2", "second/hunter", []⟩]
  approvedModelLineages := ["sha256:1", "sha256:2"]

def gapEvidence : SurfaceEvidence (List UInt8) where
  indexed := true
  revalidation := .ok ()
  suite := some ⟨true, true⟩
  inputsComplete := true
  modelSurfaceRequests := .ok [gapRequest]

/-- In the deep profile the hunter takes the surface, and the gate passes. -/
theorem deep_plan_sample :
    ∃ assignments, planAssignments id (hunterConfig .deep) gapEvidence [gapRequest] 2 =
        .ok assignments ∧
      PlansExactly id (hunterConfig .deep) 2 [gapRequest] assignments ∧
      ∃ result, assignmentFeasibilityGate id (hunterConfig .deep) gapEvidence [gapRequest]
        assignments true 2 = .ok result ∧ result.passed = true := by
  obtain ⟨returns, agree⟩ := @planner_and_gate_agree _ _ id (hunterConfig .deep) gapEvidence
    [gapRequest] 2 true (by decide) rfl rfl rfl rfl (List.nodup_singleton _)
  obtain ⟨assignments, planned⟩ := returns.mp fun request member _ => by
    rw [List.mem_singleton.mp member]
    rfl
  obtain ⟨exact, result, gated, passes⟩ := agree assignments planned
  refine ⟨assignments, planned, exact, result, gated, passes.mpr ⟨List.cons_ne_nil _ _, ?_⟩⟩
  decide +kernel

/-- In the standard profile the hunter is not scheduled, although its lineage is approved. -/
theorem unscheduled_hunter_gets_nothing :
    approvedRegisteredPrimaryLineage id (hunterConfig .standard) coverageGapHunterRole =
        some "sha256:2" ∧
      ∃ assignments, planAssignments id (hunterConfig .standard) gapEvidence [gapRequest] 2 =
          .ok assignments ∧
        gapRequest.priority = .elevatedCoverageGap ∧
        ((assignments.get? coverageGapHunterRole).getD []).count gapRequest = 0 := by
  obtain ⟨assignments, planned⟩ := @exists_planned _ _ id (hunterConfig .standard) 2
    gapEvidence [gapRequest] rfl fun request member _ => by
      rw [List.mem_singleton.mp member]
      rfl
  refine ⟨by decide +kernel, assignments, planned, rfl, ?_⟩
  obtain ⟨-, planned, isPlanned, rfl⟩ := planned_of_returned id rfl planned
  have unscheduled : coverageGapHunterRole ∉ scheduledReviewRoles (hunterConfig .standard) := by
    decide +kernel
  rw [Dict.get?_mapValues, isPlanned coverageGapHunterRole, if_neg unscheduled]
  rfl

end Review

end MmAudit
