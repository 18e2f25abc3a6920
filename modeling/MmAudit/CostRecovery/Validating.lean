import MmAudit.CostRecovery.Concluding

/-!
# What the validated groups are

The first loop reads the ledger, collects the entries that the campaign owns and
checks the attempts of every task.  Its groups hold every owned entry exactly
once.  It looks only at the request IDs and the statuses, so it accepts the same
groups after some of their last entries were closed.
-/

set_option linter.unusedSectionVars false

namespace MmAudit

namespace CostRecovery

open Fallible CostLedger Scheduler

variable {Sha Payload : Type} [LinearOrder Sha] [DecidableEq Payload]
  {env : Environment Sha Payload} {requestText : Sha → String} {journal : Journal Sha Payload}
  {ledger : AtomicCostLedger} {file : SerializedState} {tasks : Dict String (TaskPlan Sha)}

/-! ## One group -/

/-- What the first loop requires of the sorted attempts of a task. -/
structure Accepted (env : Environment Sha Payload) (journal : Journal Sha Payload)
    (group : ValidatedGroup Sha) : Prop where
  contiguous : group.entries.map Prod.fst = List.range' 1 group.entries.length
  recorded : ¬ ((∀ activation ∈ journal.archive.activations,
      activation.taskId ≠ env.taskId group.task) ∨
    Environment.historyForTask journal (env.taskId group.task) = [])
  beforeSend : group.wasDispatched = false →
    EndsActivated (Environment.historyForTask journal (env.taskId group.task)) ∧
      group.entries.map Prod.fst = [1] ∧
      group.entries.head?.map (·.2.requestId) = some group.logicalRequestId ∧
      group.entries.head?.map (·.2.status) = some .reserved
  afterSend : group.wasDispatched = true →
    ¬ EndsActivated (Environment.historyForTask journal (env.taskId group.task)) ∧
      WasDispatched (Environment.historyForTask journal (env.taskId group.task)) ∧
      (journal.indexes.creditedResults.get? (env.taskId group.task)).map (·.terminalStatus) =
        some .uncertain ∧
      ∀ attempt ∈ group.entries.dropLast, attempt.2.status = .uncertainAccounted

theorem requiredTask_eq_ok_iff {logicalRequestId : String} {task : TaskPlan Sha} :
    requiredTask tasks logicalRequestId = .ok task ↔ tasks.get? logicalRequestId = some task := by
  rw [requiredTask]
  cases tasks.get? logicalRequestId <;> simp

theorem validateGroup_eq_ok_iff {raw : String × List (ℕ × CostEntry)}
    {group : ValidatedGroup Sha} :
    validateGroup env journal tasks raw = .ok group ↔
      group.logicalRequestId = raw.1 ∧ tasks.get? raw.1 = some group.task ∧
        group.entries = raw.2.insertionSort (·.1 ≤ ·.1) ∧ Accepted env journal group := by
  obtain ⟨logicalRequestId, task, entries, wasDispatched⟩ := group
  simp only [validateGroup, bind_eq_ok_iff, requiredTask_eq_ok_iff, raiseIf_eq_ok_iff]
  constructor
  · rintro ⟨other, stored, _, recorded, _, single, _, contiguous, decided⟩
    split at decided
    · rename_i activated
      rw [raiseIf_bind_eq_ok_iff] at decided
      obtain ⟨status, same⟩ := decided
      cases same
      rw [not_and, not_or, not_not, not_not] at single
      exact ⟨rfl, stored, rfl, {
        contiguous := by simpa using contiguous
        recorded := recorded
        beforeSend := fun _ => ⟨activated, (single activated).1, (single activated).2, by
          simpa using status⟩
        afterSend := fun impossible => by simp at impossible }⟩
    · rename_i notActivated
      rw [raiseIf_bind_eq_ok_iff, raiseIf_bind_eq_ok_iff] at decided
      obtain ⟨dispatched, settled, same⟩ := decided
      cases same
      rw [not_or, not_not, not_not] at dispatched
      exact ⟨rfl, stored, rfl, {
        contiguous := by simpa using contiguous
        recorded := recorded
        beforeSend := fun impossible => by simp at impossible
        afterSend := fun _ => ⟨notActivated, dispatched.1, dispatched.2, by simpa using settled⟩ }⟩
  · rintro ⟨sameRequest, stored, sameEntries, accepted⟩
    subst sameRequest sameEntries
    have contiguous := accepted.contiguous
    refine ⟨task, stored, (), accepted.recorded, (), ?_, (), ?_, ?_⟩
    · rintro ⟨activated, wrong⟩
      cases wasDispatched with
      | true => exact (accepted.afterSend rfl).1 activated
      | false =>
          obtain ⟨-, ordinals, requestId, -⟩ := accepted.beforeSend rfl
          exact wrong.elim (fun wrong => wrong ordinals) fun wrong => wrong requestId
    · simpa using contiguous
    · cases wasDispatched with
      | true =>
          obtain ⟨notActivated, dispatched, credited, settled⟩ := accepted.afterSend rfl
          rw [if_neg notActivated, raiseIf_bind_eq_ok_iff, raiseIf_bind_eq_ok_iff]
          refine ⟨?_, ?_, rfl⟩
          · rw [not_or, not_not, not_not]
            exact ⟨dispatched, credited⟩
          · simpa using settled
      | false =>
          obtain ⟨activated, -, -, status⟩ := accepted.beforeSend rfl
          rw [if_pos activated, raiseIf_bind_eq_ok_iff]
          exact ⟨by simpa using status, rfl⟩

/-! ## All groups -/

theorem snapshot_eq_ok_iff {snapshot : CostLedgerSnapshot} :
    ledger.snapshot file = .ok snapshot ↔
      ∃ entries, ledger.requiredState file = .ok entries ∧
        snapshotOf ledger.capUsd entries = snapshot := by
  simp [AtomicCostLedger.snapshot, bind_eq_ok_iff]

theorem ledgerCall_eq_ok_iff {Value : Type} {computation : Except CostLedgerError Value}
    {value : Value} : ledgerCall computation = .ok value ↔ computation = .ok value := by
  cases computation <;> simp [ledgerCall]

/-- The groups of a ledger that was read. -/
theorem validatedGroups_eq_ok_iff {groups : List (ValidatedGroup Sha)} :
    validatedGroups env requestText journal ledger file = .ok groups ↔
      ∃ entries, ledger.requiredState file = .ok entries ∧
        (groupedEntries (tasksByRequest env requestText journal)
          entries.sorted.values).sorted.items.mapM
            (validateGroup env journal (tasksByRequest env requestText journal)) = .ok groups := by
  simp only [validatedGroups, bind_eq_ok_iff, ledgerCall_eq_ok_iff, snapshot_eq_ok_iff]
  constructor
  · rintro ⟨_, ⟨entries, read, rfl⟩, validated⟩
    exact ⟨entries, read, validated⟩
  · rintro ⟨entries, read, validated⟩
    exact ⟨_, ⟨entries, read, rfl⟩, validated⟩

theorem ownedAttempt_eq_some_iff {entry : CostEntry} {owned : String × ℕ × CostEntry} :
    ownedAttempt tasks entry = some owned ↔
      IsActive entry.status ∧
        campaignProviderAttemptIdentity tasks entry.requestId = some (owned.1, owned.2.1) ∧
        owned.2.2 = entry := by
  obtain ⟨logicalRequestId, ordinal, other⟩ := owned
  rw [ownedAttempt]
  split
  · rename_i active
    simp only [Option.map_eq_some_iff, Prod.mk.injEq, Prod.exists]
    constructor
    · rintro ⟨_, _, identity, rfl, rfl, rfl⟩
      exact ⟨active, identity, rfl⟩
    · rintro ⟨-, identity, rfl⟩
      exact ⟨_, _, identity, rfl, rfl, rfl⟩
  · rename_i inactive
    simp [inactive]

/-- The active entries of a ledger that the campaign owns. -/
def ownedEntries (tasks : Dict String (TaskPlan Sha)) (entries : List CostEntry) :
    List CostEntry :=
  entries.filter fun entry => (ownedAttempt tasks entry).isSome

theorem map_filterMap_ownedAttempt (entries : List CostEntry) :
    ((entries.filterMap (ownedAttempt tasks)).map Prod.snd).map Prod.snd =
      ownedEntries tasks entries := by
  induction entries with
  | nil => rfl
  | cons entry entries ih =>
      rw [ownedEntries, List.filter_cons, ← ownedEntries, ← ih]
      cases owned : ownedAttempt tasks entry with
      | none => simp [owned]
      | some attempt => simp [owned, (ownedAttempt_eq_some_iff.mp owned).2.2]

/-- The attempts of the groups are the owned entries, each once. -/
theorem perm_attempts {entries : List CostEntry} {groups : List (ValidatedGroup Sha)}
    (validated : (groupedEntries tasks entries).sorted.items.mapM (validateGroup env journal tasks) =
      .ok groups) :
    ((groups.flatMap ValidatedGroup.attempts).map Prod.snd).Perm (ownedEntries tasks entries) := by
  have sortedEntries : ((groupedEntries tasks entries).sorted.items.map fun raw =>
      raw.2.insertionSort (·.1 ≤ ·.1)) = groups.map (·.entries) :=
    map_eq_map_of_agrees (fun raw group accepted => (validateGroup_eq_ok_iff.mp accepted).2.2.1.symm)
      ((mapM_eq_ok_iff _).mp validated)
  have flat : (groups.flatMap ValidatedGroup.attempts).map Prod.snd =
      ((groups.map (·.entries)).flatten).map Prod.snd := by
    simp [List.flatMap, List.map_flatten, ValidatedGroup.attempts, Function.comp_def]
  rw [flat, ← sortedEntries, ← map_filterMap_ownedAttempt]
  refine List.Perm.map _ ?_
  refine List.Perm.trans ?_ (Dict.perm_flatten_values_collect _)
  have unsorted : (((groupedEntries tasks entries).sorted.items.map fun raw =>
      raw.2.insertionSort (·.1 ≤ ·.1)).flatten).Perm
        ((groupedEntries tasks entries).sorted.items.map Prod.snd).flatten := by
    rw [← List.flatMap_def, ← List.flatMap_def]
    exact List.Perm.flatMap_left _ fun raw _ => List.perm_insertionSort _ _
  exact unsorted.trans ((Dict.perm_sorted _).map _).flatten

theorem ownedEntries_subset {entries : List CostEntry} {entry : CostEntry}
    (member : entry ∈ ownedEntries tasks entries) : entry ∈ entries ∧ IsActive entry.status := by
  obtain ⟨listed, owned⟩ := List.mem_filter.mp member
  obtain ⟨attempt, same⟩ := Option.isSome_iff_exists.mp owned
  exact ⟨listed, (ownedAttempt_eq_some_iff.mp same).1⟩

theorem mem_values_sorted_iff {entries : Dict String CostEntry} {entry : CostEntry}
    (wellFormed : WellFormedEntries entries) :
    entry ∈ entries.sorted.values ↔ entries.get? entry.requestId = some entry := by
  rw [mem_values_iff]
  simp only [Dict.get?_sorted]
  constructor
  · rintro ⟨key, stored⟩
    rw [← wellFormed.key key entry stored, stored]
  · exact fun stored => ⟨_, stored⟩

theorem nodup_requestIds {entries : Dict String CostEntry}
    (wellFormed : WellFormedEntries entries) :
    (entries.sorted.values.map (·.requestId)).Nodup := by
  have keys : entries.sorted.values.map (·.requestId) = entries.sorted.keys := by
    rw [Dict.values, Dict.keys, List.map_map]
    refine List.map_congr_left fun item member => ?_
    have stored : entries.sorted.get? item.1 = some item.2 :=
      (Dict.get?_eq_some_iff _ _ _).mpr member
    rw [Dict.get?_sorted] at stored
    exact (wellFormed.key _ _ stored).symm
  rw [keys]
  exact entries.sorted.nodup

/-- The attempts of validated groups can be concluded. -/
theorem concludable_of_validated {entries : Dict String CostEntry}
    (wellFormed : WellFormedEntries entries) {groups : List (ValidatedGroup Sha)}
    (validated : (groupedEntries tasks entries.sorted.values).sorted.items.mapM
      (validateGroup env journal tasks) = .ok groups) :
    Concludable entries (groups.flatMap ValidatedGroup.attempts) := by
  have perm := perm_attempts validated
  have owned : ∀ attempt ∈ groups.flatMap ValidatedGroup.attempts,
      attempt.2 ∈ entries.sorted.values ∧ IsActive attempt.2.status := fun attempt member =>
    ownedEntries_subset (perm.subset (List.mem_map_of_mem member))
  refine ⟨fun attempt member => ?_, fun attempt member => (owned attempt member).2, ?_⟩
  · exact (mem_values_sorted_iff wellFormed).mp (owned attempt member).1
  · have requestIds := (perm.map (·.requestId)).nodup_iff.mpr
      ((List.filter_sublist.map _).nodup (nodup_requestIds wellFormed))
    rwa [List.map_map] at requestIds

/-! ## Groups after a change of the entries -/

/-- The group with other entries in the place of its own. -/
def ValidatedGroup.change (change : CostEntry → CostEntry) (group : ValidatedGroup Sha) :
    ValidatedGroup Sha :=
  { group with entries := group.entries.map (Prod.map id change) }

/-- The first loop cannot tell the changed entries of a group, except that some of
a dispatched task may have become uncertain. -/
structure Compatible (change : CostEntry → CostEntry) (group : ValidatedGroup Sha) : Prop where
  requestId : ∀ attempt ∈ group.entries, (change attempt.2).requestId = attempt.2.requestId
  status : ∀ attempt ∈ group.entries, (change attempt.2).status = attempt.2.status ∨
    group.wasDispatched = true ∧ (change attempt.2).status = .uncertainAccounted

theorem Accepted.change {change : CostEntry → CostEntry} {group : ValidatedGroup Sha}
    (accepted : Accepted env journal group) (compatible : Compatible change group) :
    Accepted env journal (group.change change) := by
  have ordinals : (group.change change).entries.map Prod.fst = group.entries.map Prod.fst := by
    simp [ValidatedGroup.change]
  refine {
    contiguous := ?_
    recorded := accepted.recorded
    beforeSend := fun notDispatched => ?_
    afterSend := fun dispatched => ?_ }
  · rw [ordinals, accepted.contiguous]
    simp [ValidatedGroup.change]
  · obtain ⟨activated, single, requestId, status⟩ := accepted.beforeSend notDispatched
    refine ⟨activated, ordinals.trans single, ?_, ?_⟩
    · cases listed : group.entries with
      | nil => simp [listed] at requestId
      | cons attempt rest =>
          have same := compatible.requestId attempt (listed ▸ List.mem_cons_self)
          simpa [ValidatedGroup.change, listed, same] using requestId
    · cases listed : group.entries with
      | nil => simp [listed] at status
      | cons attempt rest =>
          have same := (compatible.status attempt (listed ▸ List.mem_cons_self)).resolve_right
            fun changed => Bool.false_ne_true (notDispatched.symm.trans changed.1)
          simpa [ValidatedGroup.change, listed, same] using status
  · obtain ⟨notActivated, sent, credited, settled⟩ := accepted.afterSend dispatched
    refine ⟨notActivated, sent, credited, fun attempt member => ?_⟩
    rw [ValidatedGroup.change, ← List.map_dropLast] at member
    obtain ⟨original, listed, rfl⟩ := List.mem_map.mp member
    rcases compatible.status original (List.dropLast_subset _ listed) with same | changed
    · exact same.trans (settled original listed)
    · exact changed.2

theorem validateGroup_change {change : CostEntry → CostEntry}
    {raw : String × List (ℕ × CostEntry)} {group : ValidatedGroup Sha}
    (accepted : validateGroup env journal tasks raw = .ok group)
    (compatible : Compatible change group) :
    validateGroup env journal tasks (raw.1, raw.2.map (Prod.map id change)) =
      .ok (group.change change) := by
  obtain ⟨sameRequest, stored, sameEntries, checks⟩ := validateGroup_eq_ok_iff.mp accepted
  refine validateGroup_eq_ok_iff.mpr ⟨sameRequest, stored, ?_, checks.change compatible⟩
  rw [ValidatedGroup.change, sameEntries]
  exact List.map_insertionSort _ _ _ _ fun _ _ _ _ => Iff.rfl

theorem mapM_validateGroup_change {change : CostEntry → CostEntry}
    {items : List (String × List (ℕ × CostEntry))} {groups : List (ValidatedGroup Sha)}
    (validated : items.mapM (validateGroup env journal tasks) = .ok groups)
    (compatible : ∀ group ∈ groups, Compatible change group) :
    (items.map fun raw => (raw.1, raw.2.map (Prod.map id change))).mapM
      (validateGroup env journal tasks) = .ok (groups.map (·.change change)) := by
  rw [mapM_eq_ok_iff] at validated ⊢
  induction items generalizing groups with
  | nil => simp_all [eq_comm]
  | cons raw items ih =>
      cases groups with
      | nil => cases validated
      | cons group groups =>
          obtain ⟨head, tail⟩ := List.cons.inj validated
          simp only [List.map_cons]
          rw [validateGroup_change head (compatible group List.mem_cons_self)]
          exact congrArg _ (ih tail fun other member =>
            compatible other (List.mem_cons_of_mem _ member))

theorem ownedAttempt_change {change : CostEntry → CostEntry} {entry : CostEntry}
    (requestId : (change entry).requestId = entry.requestId)
    (active : IsActive (change entry).status ↔ IsActive entry.status) :
    ownedAttempt tasks (change entry) =
      (ownedAttempt tasks entry).map fun owned => (owned.1, Prod.map id change owned.2) := by
  by_cases isActive : IsActive entry.status
  · rw [ownedAttempt, ownedAttempt, if_pos isActive, if_pos (active.mpr isActive), requestId]
    cases campaignProviderAttemptIdentity tasks entry.requestId <;> rfl
  · rw [ownedAttempt, ownedAttempt, if_neg isActive, if_neg (active.not.mpr isActive)]
    rfl

/-- Collecting changed entries changes the collected entries. -/
theorem groupedEntries_change {change : CostEntry → CostEntry} {entries : List CostEntry}
    (requestId : ∀ entry ∈ entries, (change entry).requestId = entry.requestId)
    (active : ∀ entry ∈ entries, IsActive (change entry).status ↔ IsActive entry.status) :
    groupedEntries tasks (entries.map change) =
      (groupedEntries tasks entries).mapValues (List.map (Prod.map id change)) := by
  have owned : (entries.map change).filterMap (ownedAttempt tasks) =
      (entries.filterMap (ownedAttempt tasks)).map fun owned =>
        (owned.1, Prod.map id change owned.2) := by
    rw [List.filterMap_map, List.map_filterMap]
    refine List.filterMap_congr fun entry member => ?_
    exact ownedAttempt_change (requestId entry member) (active entry member)
  rw [groupedEntries, owned, Dict.collect_map]
  rfl

/-- The groups of a ledger whose entries were changed compatibly. -/
theorem validated_change {change : CostEntry → CostEntry} {entries : List CostEntry}
    {groups : List (ValidatedGroup Sha)}
    (validated : (groupedEntries tasks entries).sorted.items.mapM (validateGroup env journal tasks) =
      .ok groups)
    (requestId : ∀ entry ∈ entries, (change entry).requestId = entry.requestId)
    (active : ∀ entry ∈ entries, IsActive (change entry).status ↔ IsActive entry.status)
    (compatible : ∀ group ∈ groups, Compatible change group) :
    (groupedEntries tasks (entries.map change)).sorted.items.mapM
      (validateGroup env journal tasks) = .ok (groups.map (·.change change)) := by
  rw [groupedEntries_change requestId active, Dict.sorted_mapValues]
  exact mapM_validateGroup_change validated compatible

theorem attempts_change (change : CostEntry → CostEntry) (groups : List (ValidatedGroup Sha)) :
    (groups.map (·.change change)).flatMap ValidatedGroup.attempts =
      (groups.flatMap ValidatedGroup.attempts).map fun attempt =>
        (attempt.1.change change, change attempt.2) := by
  simp [List.flatMap_map, List.map_flatMap, ValidatedGroup.attempts, ValidatedGroup.change,
    Function.comp_def]

end CostRecovery

end MmAudit
