import MmAudit.Scheduler.Careful

/-!
# Indexes in memory and their reconstruction

Deriving the indexes of a coherent archive always succeeds, and gives the indexes
that a journal holds in memory, up to one thing: the list of results of a task is
in the order in which they were retained in memory, and in the order of their
digests after reading the files.  So the two agree exactly when the results of
every task were retained in the order of their digests.
-/

set_option linter.unusedSectionVars false

namespace MmAudit

namespace Scheduler

open Fallible Keyed Logged

namespace Environment

variable {Sha Payload : Type} [LinearOrder Sha] [DecidableEq Payload]

variable {env : Environment Sha Payload} {manifest : CampaignManifest Sha}
  {archive other files : Archive Sha Payload} {indexes expected : Indexes Sha Payload}
  {journal next : Journal Sha Payload} {artifact : Artifact Sha Payload}
  {log : List (Artifact Sha Payload)}

/-! ## Deriving succeeds -/

section Deriving

theorem nodup_of_split {Item : Type} (key : Item → Sha) {items done rest : List Item} {item : Item}
    (distinct : (items.map key).Nodup) (split : done ++ item :: rest = items) :
    done.find? (key · = key item) = none := by
  rw [find?_eq_none_iff]
  rw [← split, List.map_append, List.map_cons, List.nodup_append] at distinct
  intro member
  exact distinct.2.2 _ member _ List.mem_cons_self rfl

theorem Coherent.indexTasks_ok (coherent : env.Coherent manifest archive) :
    ∃ indexes, (Archive.plannedTasks archive.plans).foldlM env.indexTask Indexes.empty =
      .ok indexes := by
  have absent : ∀ taskId, taskId ∉ (Indexes.empty : Indexes Sha Payload).tasks := by
    intro taskId
    rw [← Dict.get?_eq_none_iff]
    rfl
  obtain ⟨indexes, returned, -⟩ := exists_foldlM_of_invariant
    env.indexTask Indexes.empty
    (fun done (state : Indexes Sha Payload) => state = done.foldl env.addTask Indexes.empty)
    (Archive.plannedTasks archive.plans) rfl (by
      rintro done entry rest state split rfl
      have distinct : (done.map fun entry => env.taskId entry.1).Nodup := by
        have all := coherent.distinctTasks
        rw [← split, List.map_append, List.nodup_append] at all
        exact all.1
      have fresh : env.taskId entry.1 ∉ (done.foldl env.addTask Indexes.empty).tasks := by
        rw [← Dict.get?_eq_none_iff, get?_foldl_addTask (fun entry _ => absent _) distinct,
          (Dict.get?_eq_none_iff _ _).mpr (absent _), Option.none_or]
        exact nodup_of_split (fun entry : TaskPlan Sha × PassPlan Sha =>
          env.taskId entry.1) coherent.distinctTasks split
      refine ⟨_, raiseIf_bind_eq_ok_iff.mpr ⟨fresh, rfl⟩, ?_⟩
      rw [List.foldl_append]
      rfl)
  exact ⟨indexes, returned⟩

/-- A planned task is in the indexes of any part of the archive with its plans. -/
theorem Indexed.planned (indexed : env.Indexed other indexes) (archive : Archive Sha Payload)
    (plans : other.plans = archive.plans)
    {taskId : Sha} (planned : env.plannedTask? archive taskId ≠ none) :
    taskId ∈ indexes.tasks := by
  by_contra absent
  rw [← Dict.get?_eq_none_iff, indexed.tasks, plannedTask?, plans] at absent
  exact planned absent

theorem Coherent.planned_of_begun (coherent : env.Coherent manifest archive) {taskId : Sha}
    (begun : archive.history taskId ≠ []) : env.plannedTask? archive taskId ≠ none := by
  intro unplanned
  exact begun (congrArg TaskView.history (coherent.view_of_unplanned unplanned))

theorem Coherent.planned_of_evidence (coherent : env.Coherent manifest archive) {taskId : Sha}
    (member : taskId ∈ evidenceTaskIds archive) : env.plannedTask? archive taskId ≠ none :=
  coherent.planned_of_begun (coherent.evidence_begun member)

/-- A provider attempt excludes an output. -/
theorem Coherent.output_of_attempt (coherent : env.Coherent manifest archive) {taskId : Sha}
    (present : (archive.providerAttempt? taskId).isSome) : archive.output? taskId = none := by
  have phase := coherent.phases taskId
  change (env.view archive taskId).attempt.isSome at present
  change (env.view archive taskId).output = none
  generalize env.view archive taskId = view at phase present
  cases phase with
  | dispatched firstKind secondKind dispatchKind exact_ retains observed
  | concluded firstKind secondKind dispatchKind lastKind exact_ retains observed selected =>
      cases retains with
      | nothing | attempt => rfl
      | output => cases present
  | _ => cases present

/-- The event after others of an archive finds its result uncredited. -/
theorem Coherent.indexEvent_ok (coherent : env.Coherent manifest archive)
    (free : env.CollisionFree) {before after : List (TaskEvent Sha)} {event : TaskEvent Sha}
    (split : archive.events = before ++ event :: after)
    (indexed : env.Indexed { archive with events := before, passResults := [] } indexes) :
    ∃ next, env.indexEvent indexes event = .ok next := by
  obtain ⟨task, plan, activation, result, member, activationMem, resultMem, built⟩ :=
    coherent.exactEvents before event after split
  have found := coherent.eventResult_eq split built rfl resultMem
  have begun : archive.history event.taskId ≠ [] := by
    refine List.ne_nil_of_mem (a := event) (List.mem_filter.mpr ⟨?_, by simp⟩)
    rw [split]
    simp
  have planned := indexed.planned archive rfl (coherent.planned_of_begun begun)
  have newIdentity : env.eventId event ∉ indexes.eventIds := by
    rw [indexed.eventIds]
    intro known
    obtain ⟨other, otherMem, same⟩ := List.mem_map.mp known
    obtain ⟨sameTask, sameKind⟩ := free.eventIdentity _ _ _ _ _ _ same
    exact (coherent.before_event split otherMem sameTask).1 sameKind
  have selected : ∃ result, terminalResult indexes event = .ok result := by
    unfold terminalResult
    unfold eventResult at found
    by_cases terminal : event.kind.IsTerminal
    · rw [if_pos terminal] at found ⊢
      have lookups : indexes.resultsByHash.get? = env.resultByHash? archive :=
        funext indexed.resultsByHash
      rw [lookups]
      cases lookup : event.taskResultSha256.bind (env.resultByHash? archive) with
      | none =>
          rw [lookup] at found
          cases found
      | some given =>
          rw [lookup] at found
          simp only [check_bind_eq_ok_iff, raiseIf_eq_ok_iff] at found
          have uncredited : event.taskId ∉ indexes.creditedResults := by
            rw [← Dict.get?_eq_none_iff, indexed.credited]
            have none_ : (Archive.history { archive with events := before, passResults := [] }
                event.taskId).find? (·.kind.IsTerminal) = none := by
              rw [List.find?_eq_none]
              intro other otherMem otherTerminal
              obtain ⟨old, sameTask⟩ := List.mem_filter.mp otherMem
              exact (coherent.before_event split old (of_decide_eq_true sameTask)).2
                ⟨of_decide_eq_true otherTerminal, terminal⟩
            rw [credited?, none_, Option.bind_none]
          refine ⟨some given, raiseIf_bind_eq_ok_iff.mpr ⟨?_, rfl⟩⟩
          rintro (different | credited)
          · exact found.1 different
          · exact uncredited credited
    · rw [if_neg terminal]
      exact ⟨none, rfl⟩
  obtain ⟨result, returned⟩ := selected
  refine ⟨_, raiseIf_bind_eq_ok_iff.mpr ⟨?_, bind_eq_ok_iff.mpr ⟨result, returned, rfl⟩⟩⟩
  rintro (known | unplanned)
  · exact newIdentity known
  · exact unplanned planned

/-- The indexes of a coherent archive can be derived. -/
theorem Coherent.deriveIndexes_ok (coherent : env.Coherent manifest archive)
    (free : env.CollisionFree) : ∃ indexes, env.deriveIndexes archive = .ok indexes := by
  obtain ⟨planned, tasks⟩ := coherent.indexTasks_ok
  have indexedPlans := indexed_of_foldlM_indexTask archive.plans tasks
  have evidence : ∀ taskId, taskId ∈ evidenceTaskIds archive → env.plannedTask? archive taskId ≠
      none := fun taskId => coherent.planned_of_evidence
  obtain ⟨activated, activations, indexedActivations⟩ := exists_foldlM_of_invariant
    indexActivation _ (fun done state => env.Indexed
      { Archive.empty with plans := archive.plans, activations := done } state)
    archive.activations indexedPlans fun done item rest state split holds => by
      have fresh : item.taskId ∉ state.activations := by
        rw [← Dict.get?_eq_none_iff, holds.activations]
        exact nodup_of_split TaskActivation.taskId coherent.distinctActivations split
      have known := holds.planned archive rfl
        (evidence item.taskId (by simp [evidenceTaskIds, ← split]))
      exact ⟨_, raiseIf_bind_eq_ok_iff.mpr ⟨by simp [fresh, known], rfl⟩,
        holds.addActivation fresh⟩
  obtain ⟨produced, outputs, indexedOutputs⟩ := exists_foldlM_of_invariant
    indexOutput _ (fun done state => env.Indexed
      { Archive.empty with
        plans := archive.plans, activations := archive.activations, outputs := done } state)
    archive.outputs indexedActivations fun done item rest state split holds => by
      have fresh : item.taskId ∉ state.outputs := by
        rw [← Dict.get?_eq_none_iff, holds.outputs]
        exact nodup_of_split TaskOutput.taskId coherent.distinctOutputs split
      have known := holds.planned archive rfl
        (evidence item.taskId (by simp [evidenceTaskIds, ← split]))
      exact ⟨_, raiseIf_bind_eq_ok_iff.mpr ⟨by simp [fresh, known], rfl⟩, holds.addOutput fresh⟩
  obtain ⟨attempted, attempts, indexedAttempts⟩ := exists_foldlM_of_invariant
    indexProviderAttempt _ (fun done state => env.Indexed
      { Archive.empty with
        plans := archive.plans, activations := archive.activations, outputs := archive.outputs
        providerAttempts := done } state)
    archive.providerAttempts indexedOutputs fun done item rest state split holds => by
      have fresh : item.taskId ∉ state.providerAttempts := by
        rw [← Dict.get?_eq_none_iff, holds.providerAttempts]
        exact nodup_of_split ProviderAttemptEvidence.taskId coherent.distinctAttempts split
      have uncredited : item.taskId ∉ state.outputs := by
        rw [← Dict.get?_eq_none_iff, holds.outputs]
        refine coherent.output_of_attempt ?_
        rw [Archive.providerAttempt?, (find?_eq_some_iff coherent.distinctAttempts).mpr
          ⟨by simp [← split], rfl⟩]
        rfl
      have known := holds.planned archive rfl
        (evidence item.taskId (by simp [evidenceTaskIds, ← split]))
      exact ⟨_, raiseIf_bind_eq_ok_iff.mpr ⟨by simp [fresh, uncredited, known], rfl⟩,
        holds.addProviderAttempt fresh⟩
  obtain ⟨observed, results, indexedResults⟩ := exists_foldlM_of_invariant
    env.indexResult _ (fun done state => env.Indexed
      { archive with resultObservations := done, events := [], passResults := [] } state)
    archive.resultObservations indexedAttempts fun done item rest state split holds => by
      have fresh : env.result item ∉ state.resultsByHash := by
        rw [← Dict.get?_eq_none_iff, holds.resultsByHash]
        exact nodup_of_split env.result coherent.distinctResults split
      have known := holds.planned archive rfl
        (evidence item.taskId (by simp [evidenceTaskIds, ← split]))
      exact ⟨_, raiseIf_bind_eq_ok_iff.mpr ⟨by simp [fresh, known], rfl⟩, holds.addResult fresh⟩
  obtain ⟨final, events, -⟩ := exists_foldlM_of_invariant
    env.indexEvent _ (fun done state => env.Indexed
      { archive with events := done, passResults := [] } state)
    archive.events indexedResults fun done item rest state split holds => by
      obtain ⟨next, stepped⟩ := coherent.indexEvent_ok free split.symm holds
      have kept := stepped
      simp only [indexEvent, bind_eq_ok_iff, Except.ok.injEq] at kept
      obtain ⟨_, -, result, selected, rfl⟩ := kept
      exact ⟨_, stepped, holds.addEvent (holds.selects selected)⟩
  refine ⟨final, ?_⟩
  simp only [deriveIndexes, bind_eq_ok_iff]
  exact ⟨planned, tasks, activated, activations, produced, outputs, attempted, attempts, observed,
    results, events⟩

end Deriving

/-! ## Comparing -/

section Comparing

/-- The indexes in memory are the ones that reading the files would derive. -/
def Agrees (env : Environment Sha Payload) (journal : Journal Sha Payload) : Prop :=
  ∃ expected, env.deriveIndexes (env.canonical journal.archive) = .ok expected ∧
    SameIndexes journal.indexes expected

instance (env : Environment Sha Payload) (journal : Journal Sha Payload) :
    Decidable (env.Agrees journal) :=
  match derived : env.deriveIndexes (env.canonical journal.archive) with
  | .ok expected => decidable_of_iff (SameIndexes journal.indexes expected)
      ⟨fun same => ⟨expected, derived, same⟩, fun ⟨other, found, same⟩ => by
        rw [derived] at found
        exact Except.ok.inj found ▸ same⟩
  | .error failure => isFalse fun ⟨other, found, _⟩ => by
      rw [derived] at found
      cases found

/-- The results of every task are in the order of their digests. -/
def OrderedResults (env : Environment Sha Payload) (archive : Archive Sha Payload) : Prop :=
  ∀ taskId, (archive.observations taskId).Pairwise fun first second =>
    env.result first < env.result second

/-- Indexes of the same files differ at most in the lists of results. -/
theorem SameFiles.sameIndexes_iff (same : SameFiles archive other)
    (coherent : env.Coherent manifest archive) (indexed : env.Indexed archive indexes)
    (reconstructed : env.Indexed other expected) :
    SameIndexes indexes expected ↔
      ∀ taskId, archive.observations taskId = other.observations taskId := by
  have lists : SameItems indexes.resultObservationsByTask expected.resultObservationsByTask ↔
      ∀ taskId, archive.observations taskId = other.observations taskId := by
    unfold SameItems
    rw [Dict.perm_items_iff]
    refine forall_congr' fun taskId => ?_
    rw [indexed.observations, reconstructed.observations]
    constructor
    · intro equal
      rw [← getD_listed (archive.observations taskId), equal, getD_listed]
    · intro equal
      rw [equal]
  have views := same.view coherent
  constructor
  · intro sameIndexes
    exact lists.mp sameIndexes.resultObservationsByTask
  · intro equal
    exact {
      tasks := (Dict.perm_items_iff _ _).mpr fun taskId => by
        rw [indexed.tasks, reconstructed.tasks]
        exact (congrArg TaskView.planned (views taskId)).symm
      activations := (Dict.perm_items_iff _ _).mpr fun taskId => by
        rw [indexed.activations, reconstructed.activations]
        exact (congrArg TaskView.activation (views taskId)).symm
      outputs := (Dict.perm_items_iff _ _).mpr fun taskId => by
        rw [indexed.outputs, reconstructed.outputs]
        exact (congrArg TaskView.output (views taskId)).symm
      providerAttempts := (Dict.perm_items_iff _ _).mpr fun taskId => by
        rw [indexed.providerAttempts, reconstructed.providerAttempts]
        exact (congrArg TaskView.attempt (views taskId)).symm
      resultsByHash := (Dict.perm_items_iff _ _).mpr fun sha => by
        rw [indexed.resultsByHash, reconstructed.resultsByHash]
        exact find?_perm same.resultObservations.symm coherent.distinctResults sha
      resultObservationsByTask := lists.mpr equal
      eventHistories := (Dict.perm_items_iff _ _).mpr fun taskId => by
        rw [indexed.histories, reconstructed.histories, same.history]
      creditedResults := (Dict.perm_items_iff _ _).mpr fun taskId => by
        rw [indexed.credited, reconstructed.credited, same.credited? coherent]
      eventIds := by
        rw [indexed.eventIds, reconstructed.eventIds, same.events] }

/-- The results of a task are read in the order of their digests. -/
theorem ordered_canonical (coherent : env.Coherent manifest archive) :
    env.OrderedResults (env.canonical archive) := by
  intro taskId
  have sorted : (env.canonical archive).resultObservations.Pairwise fun first second =>
      toLex (first.taskId, env.result first) ≤ toLex (second.taskId, env.result second) :=
    List.pairwise_insertionSort _ _
  have distinct : (env.canonical archive).resultObservations.Pairwise fun first second =>
      env.result first ≠ env.result second := by
    have all := (coherent.of_sameFiles (sameFiles_canonical env archive)).distinctResults
    rwa [List.Nodup, List.pairwise_map] at all
  have both := (sorted.and distinct).filter (fun result => result.taskId = taskId)
  refine List.Pairwise.imp_of_mem ?_ both
  rintro first second firstMem secondMem ⟨inOrder, different⟩
  have firstTask := of_decide_eq_true (List.mem_filter.mp firstMem).2
  have secondTask := of_decide_eq_true (List.mem_filter.mp secondMem).2
  rw [firstTask, secondTask, Prod.Lex.toLex_le_toLex] at inOrder
  rcases inOrder with less | ⟨-, le⟩
  · exact absurd less (lt_irrefl _)
  · exact lt_of_le_of_ne le different

/-- Memory and reconstruction agree exactly when the results of every task were
retained in the order of their digests. -/
theorem Tracks.agrees_iff (free : env.CollisionFree) (tracks : env.Tracks manifest archive journal) :
    env.Agrees journal ↔ env.OrderedResults archive := by
  have same := sameFiles_canonical env archive
  have coherent := tracks.coherent.of_sameFiles same
  have ordered := ordered_canonical tracks.coherent
  obtain ⟨expected, derived⟩ := coherent.deriveIndexes_ok free
  have compared := same.sameIndexes_iff tracks.coherent tracks.indexed
    (indexed_of_deriveIndexes derived)
  unfold Agrees
  rw [tracks.sameArchive]
  constructor
  · rintro ⟨other, found, agrees⟩ taskId
    obtain rfl := Except.ok.inj (derived.symm.trans found)
    rw [compared.mp agrees taskId]
    exact ordered taskId
  · intro inOrder
    refine ⟨expected, derived, compared.mpr fun taskId => ?_⟩
    exact (same.observations taskId).symm.eq_of_pairwise
      (fun first second _ _ less greater => absurd less (lt_asymm greater))
      (inOrder taskId) (ordered taskId)

end Comparing

end Environment

end Scheduler

end MmAudit
