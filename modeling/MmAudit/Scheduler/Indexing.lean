import MmAudit.Scheduler.Recovery
import MmAudit.Library.Keyed

/-!
# What the indexes hold

Every index is a view of the archive: a lookup in a dictionary is a lookup in one
of the lists.  Adding an artifact to the archive and to the indexes keeps this
view, and deriving the indexes from an archive establishes it.
-/

set_option linter.unusedSectionVars false

namespace MmAudit

namespace Scheduler

open Fallible Keyed

namespace Environment

variable {Sha Payload : Type} [LinearOrder Sha] [DecidableEq Payload]

/-- The indexes are the views of an archive, and its terminal events refer to
retained results. -/
structure Indexed (env : Environment Sha Payload) (archive : Archive Sha Payload)
    (indexes : Indexes Sha Payload) : Prop where
  tasks : ∀ taskId, indexes.tasks.get? taskId = env.plannedTask? archive taskId
  activations : ∀ taskId, indexes.activations.get? taskId = archive.activation? taskId
  outputs : ∀ taskId, indexes.outputs.get? taskId = archive.output? taskId
  providerAttempts : ∀ taskId,
    indexes.providerAttempts.get? taskId = archive.providerAttempt? taskId
  resultsByHash : ∀ sha, indexes.resultsByHash.get? sha = env.resultByHash? archive sha
  observations : ∀ taskId,
    indexes.resultObservationsByTask.get? taskId = listed (archive.observations taskId)
  histories : ∀ taskId, indexes.eventHistories.get? taskId = listed (archive.history taskId)
  credited : ∀ taskId, indexes.creditedResults.get? taskId = env.credited? archive taskId
  eventIds : indexes.eventIds = archive.events.map env.eventId
  referred : ∀ event ∈ archive.events, event.kind.IsTerminal →
    ∃ result, event.taskResultSha256.bind (env.resultByHash? archive) = some result

variable {env : Environment Sha Payload} {archive : Archive Sha Payload}
  {indexes : Indexes Sha Payload}

theorem indexed_empty : env.Indexed Archive.empty Indexes.empty where
  tasks _ := rfl
  activations _ := rfl
  outputs _ := rfl
  providerAttempts _ := rfl
  resultsByHash _ := rfl
  observations _ := rfl
  histories _ := rfl
  credited _ := rfl
  eventIds := rfl
  referred _ impossible := nomatch impossible

/-! ## Adding one artifact -/

section Adding

/-- The lookups after planned tasks with new identities were added. -/
theorem get?_foldl_addTask {entries : List (TaskPlan Sha × PassPlan Sha)}
    (fresh : ∀ entry ∈ entries, env.taskId entry.1 ∉ indexes.tasks)
    (distinct : (entries.map fun entry => env.taskId entry.1).Nodup) (taskId : Sha) :
    (entries.foldl env.addTask indexes).tasks.get? taskId =
      (indexes.tasks.get? taskId).or
        (entries.find? fun entry => env.taskId entry.1 = taskId) := by
  induction entries generalizing indexes with
  | nil => simp
  | cons entry entries ih =>
      rw [List.map_cons, List.nodup_cons] at distinct
      have step : ∀ other, (env.addTask indexes entry).tasks.get? other =
          if other = env.taskId entry.1 then some entry else indexes.tasks.get? other :=
        Dict.get?_insert _ _ _
      have stillFresh : ∀ other ∈ entries,
          env.taskId other.1 ∉ (env.addTask indexes entry).tasks := by
        intro other member
        have different : env.taskId other.1 ≠ env.taskId entry.1 := fun same =>
          distinct.1 (same ▸ List.mem_map_of_mem member)
        rw [← Dict.get?_eq_none_iff, step, if_neg different, Dict.get?_eq_none_iff]
        exact fresh other (List.mem_cons_of_mem _ member)
      rw [List.foldl_cons, ih stillFresh distinct.2, step]
      by_cases same : taskId = env.taskId entry.1
      · have absent := (Dict.get?_eq_none_iff _ _).mpr (fresh entry List.mem_cons_self)
        simp [same, absent]
      · rw [if_neg same, List.find?_cons_of_neg (by simpa using Ne.symm same)]

theorem addTask_frame (entries : List (TaskPlan Sha × PassPlan Sha)) :
    entries.foldl env.addTask indexes =
      { indexes with tasks := (entries.foldl env.addTask indexes).tasks } := by
  induction entries generalizing indexes with
  | nil => rfl
  | cons entry entries ih =>
      rw [List.foldl_cons, ih]
      rfl

/-- Adding planned tasks whose identities are new. -/
theorem Indexed.addTasks (indexed : env.Indexed archive indexes)
    {entries : List (TaskPlan Sha × PassPlan Sha)} {plans : List (PassPlan Sha)}
    (planned : Archive.plannedTasks plans = Archive.plannedTasks archive.plans ++ entries)
    (fresh : ∀ entry ∈ entries, env.taskId entry.1 ∉ indexes.tasks)
    (distinct : (entries.map fun entry => env.taskId entry.1).Nodup) :
    env.Indexed { archive with plans := plans } (entries.foldl env.addTask indexes) := by
  rw [addTask_frame]
  refine { indexed with tasks := fun taskId => ?_ }
  change (entries.foldl env.addTask indexes).tasks.get? taskId = _
  rw [get?_foldl_addTask fresh distinct, indexed.tasks, plannedTask?, plannedTask?, planned,
    List.find?_append]

/-- A dictionary that follows a list of items with keys. -/
theorem get?_insert_follows {Item : Type} (key : Item → Sha) {items : List Item}
    {dict : Dict Sha Item} (follows : ∀ sought, dict.get? sought = items.find? (key · = sought))
    {item : Item} (fresh : key item ∉ dict) (sought : Sha) :
    (dict.insert (key item) item).get? sought = (items ++ [item]).find? (key · = sought) := by
  rw [Dict.get?_insert, find?_append_singleton, ← follows]
  by_cases same : sought = key item
  · have absent := (Dict.get?_eq_none_iff _ _).mpr fresh
    simp [same, absent]
  · simp [same, Ne.symm same]

theorem get?_push_follows {Item : Type} (key : Item → Sha) {items : List Item}
    {dict : Dict Sha (List Item)}
    (follows : ∀ sought, dict.get? sought = listed (items.filter (key · = sought)))
    (item : Item) (sought : Sha) :
    (dict.push (key item) item).get? sought =
      listed ((items ++ [item]).filter (key · = sought)) := by
  rw [Dict.get?_push, List.filter_append, follows, follows, getD_listed]
  by_cases same : sought = key item
  · simp [same]
  · simp [same, Ne.symm same]

theorem Indexed.addActivation (indexed : env.Indexed archive indexes)
    {activation : TaskActivation Sha} (fresh : activation.taskId ∉ indexes.activations) :
    env.Indexed (archive.write (.activation activation))
      (Environment.addActivation indexes activation) :=
  { indexed with
    activations := get?_insert_follows TaskActivation.taskId indexed.activations fresh }

theorem Indexed.addOutput (indexed : env.Indexed archive indexes)
    {output : TaskOutput Sha Payload} (fresh : output.taskId ∉ indexes.outputs) :
    env.Indexed (archive.write (.output output)) (Environment.addOutput indexes output) :=
  { indexed with
    outputs := get?_insert_follows TaskOutput.taskId indexed.outputs fresh }

theorem Indexed.addProviderAttempt (indexed : env.Indexed archive indexes)
    {attempt : ProviderAttemptEvidence Sha} (fresh : attempt.taskId ∉ indexes.providerAttempts) :
    env.Indexed (archive.write (.providerAttempt attempt))
      (Environment.addProviderAttempt indexes attempt) :=
  { indexed with
    providerAttempts := get?_insert_follows ProviderAttemptEvidence.taskId
      indexed.providerAttempts fresh }

/-- A lookup by hash that found a result still finds it. -/
theorem resultByHash?_write_of_some {sha : Option Sha} {found : TaskResult Sha}
    (before : sha.bind (env.resultByHash? archive) = some found) (result : TaskResult Sha) :
    sha.bind (env.resultByHash? (archive.write (.taskResult result))) = some found := by
  cases sha with
  | none => cases before
  | some sha => exact find?_append_of_some before [result]

/-- A new result credits no task. -/
theorem credited?_write_result (referred : ∀ event ∈ archive.events, event.kind.IsTerminal →
      ∃ result, event.taskResultSha256.bind (env.resultByHash? archive) = some result)
    (result : TaskResult Sha) (taskId : Sha) :
    env.credited? (archive.write (.taskResult result)) taskId = env.credited? archive taskId := by
  have sameHistory : (archive.write (.taskResult result)).history taskId =
      archive.history taskId := rfl
  rw [credited?, credited?, sameHistory]
  cases found : (archive.history taskId).find? (·.kind.IsTerminal) with
  | none => rfl
  | some event =>
      have member := (List.mem_filter.mp (List.mem_of_find?_eq_some found)).1
      have terminal : event.kind.IsTerminal := by simpa using List.find?_some found
      obtain ⟨selected, lookup⟩ := referred event member terminal
      rw [Option.bind_some, Option.bind_some, lookup]
      exact resultByHash?_write_of_some lookup result

theorem Indexed.addResult (indexed : env.Indexed archive indexes) {result : TaskResult Sha}
    (fresh : env.result result ∉ indexes.resultsByHash) :
    env.Indexed (archive.write (.taskResult result)) (env.addResult indexes result) :=
  { indexed with
    resultsByHash := get?_insert_follows env.result indexed.resultsByHash fresh
    observations := get?_push_follows TaskResult.taskId indexed.observations result
    credited := fun taskId => by
      rw [credited?_write_result indexed.referred]
      exact indexed.credited taskId
    referred := fun event member terminal => by
      obtain ⟨selected, lookup⟩ := indexed.referred event member terminal
      exact ⟨selected, resultByHash?_write_of_some lookup result⟩ }

/-- What a new event credits. -/
theorem credited?_write_event (event : TaskEvent Sha) (taskId : Sha) :
    env.credited? (archive.write (.event event)) taskId =
      (((archive.history taskId).find? (·.kind.IsTerminal)).or
        (if event.taskId = taskId ∧ event.kind.IsTerminal then some event else none)).bind
          fun selected => selected.taskResultSha256.bind (env.resultByHash? archive) := by
  have history : (archive.write (.event event)).history taskId =
      archive.history taskId ++ if event.taskId = taskId then [event] else [] := by
    rw [Archive.history, Archive.history, Archive.write, List.filter_append]
    by_cases same : event.taskId = taskId <;> simp [same]
  rw [credited?, history, List.find?_append]
  congr 2
  by_cases same : event.taskId = taskId <;> by_cases terminal : event.kind.IsTerminal <;>
    simp [same, terminal]

/-- Only the task of a terminal event changes its credit, and only if it had
none. -/
theorem find?_terminal_eq_none_of_credited?
    (referred : ∀ event ∈ archive.events, event.kind.IsTerminal →
      ∃ result, event.taskResultSha256.bind (env.resultByHash? archive) = some result)
    {taskId : Sha} (uncredited : env.credited? archive taskId = none) :
    (archive.history taskId).find? (·.kind.IsTerminal) = none := by
  cases found : (archive.history taskId).find? (·.kind.IsTerminal) with
  | none => rfl
  | some event =>
      have member := (List.mem_filter.mp (List.mem_of_find?_eq_some found)).1
      obtain ⟨selected, lookup⟩ := referred event member (by simpa using List.find?_some found)
      rw [credited?, found, Option.bind_some, lookup] at uncredited
      cases uncredited

/-- The result that a terminal event must refer to. -/
def Selects (env : Environment Sha Payload) (archive : Archive Sha Payload)
    (event : TaskEvent Sha) (result : Option (TaskResult Sha)) : Prop :=
  if event.kind.IsTerminal then
    event.taskResultSha256.bind (env.resultByHash? archive) = result ∧ result.isSome ∧
      env.credited? archive event.taskId = none
  else
    result = none

theorem Indexed.addEvent (indexed : env.Indexed archive indexes) {event : TaskEvent Sha}
    {result : Option (TaskResult Sha)} (selects : env.Selects archive event result) :
    env.Indexed (archive.write (.event event)) (env.addEvent indexes event result) := by
  refine { indexed with
    histories := get?_push_follows TaskEvent.taskId indexed.histories event
    credited := fun taskId => ?_
    eventIds := ?_
    referred := fun other member terminal => ?_ }
  · rw [credited?_write_event]
    have unchanged : ∀ taskId, indexes.creditedResults.get? taskId =
        ((archive.history taskId).find? (·.kind.IsTerminal)).bind
          fun selected => selected.taskResultSha256.bind (env.resultByHash? archive) :=
      indexed.credited
    rw [Selects] at selects
    by_cases terminal : event.kind.IsTerminal
    · rw [if_pos terminal] at selects
      obtain ⟨lookup, present, uncredited⟩ := selects
      obtain ⟨selected, rfl⟩ := Option.isSome_iff_exists.mp present
      change (indexes.creditedResults.insert event.taskId selected).get? taskId = _
      rw [Dict.get?_insert]
      by_cases same : taskId = event.taskId
      · subst same
        rw [find?_terminal_eq_none_of_credited? indexed.referred uncredited]
        simp [terminal, lookup]
      · rw [if_neg same, unchanged]
        simp [Ne.symm same]
    · rw [if_neg terminal] at selects
      subst selects
      simp only [Environment.addEvent, credit, unchanged, terminal, and_false, if_false,
        Option.or_none]
  · change indexes.eventIds ++ [env.eventId event] = _
    rw [indexed.eventIds, Archive.write, List.map_append, List.map_singleton]
  · rcases List.mem_append.mp member with old | new
    · exact indexed.referred other old terminal
    · obtain rfl := List.mem_singleton.mp new
      rw [Selects, if_pos terminal] at selects
      obtain ⟨selected, rfl⟩ := Option.isSome_iff_exists.mp selects.2.1
      exact ⟨selected, selects.1⟩

theorem Indexed.addPassResult (indexed : env.Indexed archive indexes) (result : PassResult Sha) :
    env.Indexed (archive.write (.passResult result)) indexes :=
  { indexed with }

/-- The result that the indexes find for an event. -/
theorem Indexed.selects (indexed : env.Indexed archive indexes) {event : TaskEvent Sha}
    {result : Option (TaskResult Sha)} (found : terminalResult indexes event = .ok result) :
    env.Selects archive event result := by
  rw [terminalResult] at found
  rw [Selects]
  by_cases terminal : event.kind.IsTerminal
  · rw [if_pos terminal] at found ⊢
    have lookups : ∀ sha, indexes.resultsByHash.get? sha = env.resultByHash? archive sha :=
      indexed.resultsByHash
    rw [funext lookups] at found
    cases lookup : event.taskResultSha256.bind (env.resultByHash? archive) with
    | none =>
        rw [lookup] at found
        cases found
    | some selected =>
        rw [lookup] at found
        simp only [raiseIf_bind_eq_ok_iff, not_or, not_not, Except.ok.injEq] at found
        obtain ⟨⟨-, uncredited⟩, rfl⟩ := found
        rw [← Dict.get?_eq_none_iff, indexed.credited] at uncredited
        exact ⟨rfl, rfl, uncredited⟩
  · rw [if_neg terminal] at found ⊢
    exact (Except.ok.inj found).symm

end Adding

/-! ## Deriving the indexes -/

section Deriving

theorem plannedTasks_append_singleton (plans : List (PassPlan Sha)) (plan : PassPlan Sha) :
    Archive.plannedTasks (plans ++ [plan]) =
      Archive.plannedTasks plans ++ plan.tasks.map fun task => (task, plan) := by
  rw [Archive.plannedTasks, List.flatMap_append, List.flatMap_singleton]
  rfl

/-- The indexes of the planned tasks alone. -/
theorem indexed_of_foldlM_indexTask (plans : List (PassPlan Sha))
    (returned : (Archive.plannedTasks plans).foldlM env.indexTask Indexes.empty = .ok indexes) :
    env.Indexed { Archive.empty with plans := plans } indexes := by
  have folded := foldlM_invariant (fun done (state : Indexes Sha Payload) =>
      state = done.foldl env.addTask Indexes.empty ∧
        (done.map fun entry => env.taskId entry.1).Nodup) _ returned ⟨rfl, List.nodup_nil⟩ ?_
  · obtain ⟨rfl, distinct⟩ := folded
    refine indexed_empty.addTasks rfl (fun entry _ => ?_) distinct
    rw [← Dict.get?_eq_none_iff]
    rfl
  · rintro done entry state next ⟨rfl, distinct⟩ stepped
    simp only [indexTask, raiseIf_bind_eq_ok_iff, Except.ok.injEq] at stepped
    obtain ⟨fresh, rfl⟩ := stepped
    have absent : ∀ other ∈ done,
        env.taskId other.1 ∉ (Indexes.empty : Indexes Sha Payload).tasks := by
      intro other _
      rw [← Dict.get?_eq_none_iff]
      rfl
    rw [← Dict.get?_eq_none_iff, get?_foldl_addTask absent distinct,
      show (Indexes.empty : Indexes Sha Payload).tasks.get? (env.taskId entry.1) = none from rfl,
      Option.none_or, find?_eq_none_iff] at fresh
    refine ⟨by rw [List.foldl_append]; rfl, ?_⟩
    rw [List.map_append, List.map_singleton, List.nodup_append]
    refine ⟨distinct, List.nodup_singleton _, ?_⟩
    rintro first firstMem second secondMem rfl
    rw [List.mem_singleton.mp secondMem] at firstMem
    exact fresh firstMem

/-- Deriving the indexes of an archive gives its views. -/
theorem indexed_of_deriveIndexes (derived : env.deriveIndexes archive = .ok indexes) :
    env.Indexed archive indexes := by
  simp only [deriveIndexes, bind_eq_ok_iff] at derived
  obtain ⟨planned, tasks, activated, activations, produced, outputs, attempted, attempts,
    observed, results, events⟩ := derived
  have indexedPlans := indexed_of_foldlM_indexTask archive.plans tasks
  have indexedActivations := foldlM_invariant (fun done state => env.Indexed
      { Archive.empty with plans := archive.plans, activations := done } state) _ activations
    indexedPlans fun done item state next holds stepped => by
      simp only [indexActivation, raiseIf_bind_eq_ok_iff, not_or, Except.ok.injEq] at stepped
      obtain ⟨⟨fresh, -⟩, rfl⟩ := stepped
      exact holds.addActivation fresh
  have indexedOutputs := foldlM_invariant (fun done state => env.Indexed
      { Archive.empty with
        plans := archive.plans, activations := archive.activations, outputs := done } state) _
    outputs indexedActivations fun done item state next holds stepped => by
      simp only [indexOutput, raiseIf_bind_eq_ok_iff, not_or, Except.ok.injEq] at stepped
      obtain ⟨⟨fresh, -⟩, rfl⟩ := stepped
      exact holds.addOutput fresh
  have indexedAttempts := foldlM_invariant (fun done state => env.Indexed
      { Archive.empty with
        plans := archive.plans, activations := archive.activations, outputs := archive.outputs
        providerAttempts := done } state) _
    attempts indexedOutputs fun done item state next holds stepped => by
      simp only [indexProviderAttempt, raiseIf_bind_eq_ok_iff, not_or, Except.ok.injEq] at stepped
      obtain ⟨⟨fresh, -⟩, rfl⟩ := stepped
      exact holds.addProviderAttempt fresh
  have indexedResults := foldlM_invariant (fun done state => env.Indexed
      { archive with resultObservations := done, events := [], passResults := [] } state) _
    results indexedAttempts fun done item state next holds stepped => by
      simp only [indexResult, raiseIf_bind_eq_ok_iff, not_or, Except.ok.injEq] at stepped
      obtain ⟨⟨fresh, -⟩, rfl⟩ := stepped
      exact holds.addResult fresh
  have indexedEvents := foldlM_invariant (fun done state => env.Indexed
      { archive with events := done, passResults := [] } state) _
    events indexedResults fun done item state next holds stepped => by
      simp only [indexEvent, bind_eq_ok_iff, Except.ok.injEq] at stepped
      obtain ⟨_, -, result, selected, rfl⟩ := stepped
      exact holds.addEvent (holds.selects selected)
  exact { indexedEvents with }

end Deriving

end Environment

end Scheduler

end MmAudit
