import MmAudit.CostLedger.Closing
import MmAudit.CostRecovery.Recovery

/-!
# How recovery concludes the entries

The second loop visits the entries of the validated groups.  It calls the ledger
only for an entry of a dispatched task that is still reserved, and its log has
the files that these calls leave behind.  With careful calls none of its error
branches can be reached, because a ledger that was read has exact uncertain
entries.
-/

set_option linter.unusedSectionVars false

namespace MmAudit

namespace CostRecovery

open Fallible CostLedger Scheduler Logged

variable {Sha Payload : Type} [LinearOrder Sha] [DecidableEq Payload]
  {env : Environment Sha Payload} {ledger : AtomicCostLedger} {clock : String → Timestamp}
  {file : SerializedState}

/-! ## Calls and records -/

/-- The entry of an attempt is still to be reconciled. -/
def IsPending (attempt : Attempt Sha) : Prop :=
  attempt.1.wasDispatched ∧ attempt.2.status ≠ .uncertainAccounted

instance (attempt : Attempt Sha) : Decidable (IsPending attempt) :=
  inferInstanceAs (Decidable (_ ∧ _))

def pendingEntries (attempts : List (Attempt Sha)) : List CostEntry :=
  (attempts.filter fun attempt => IsPending attempt).map Prod.snd

/-- The reconciliations of a run. -/
def pendingCalls (ledger : AtomicCostLedger) (clock : String → Timestamp)
    (attempts : List (Attempt Sha)) : List (AtomicCostLedger × LedgerOperation) :=
  (pendingEntries attempts).map (closingCall ledger clock)

theorem pendingEntries_cons (attempt : Attempt Sha) (attempts : List (Attempt Sha)) :
    pendingEntries (attempt :: attempts) = pendingEntries [attempt] ++ pendingEntries attempts := by
  by_cases pending : IsPending attempt <;> simp [pendingEntries, pending]

theorem pendingCalls_cons (attempt : Attempt Sha) (attempts : List (Attempt Sha)) :
    pendingCalls ledger clock (attempt :: attempts) =
      pendingCalls ledger clock [attempt] ++ pendingCalls ledger clock attempts := by
  rw [pendingCalls, pendingEntries_cons, List.map_append]
  rfl

/-- What `==` compares in a record: amounts count by their value. -/
def CostRecoveryRecord.fields (record : CostRecoveryRecord Sha) :
    String × String × Sha × String × String × CostRecoveryStatus × ℚ × ℚ :=
  (record.requestId, record.logicalRequestId, record.taskId, record.requestedModel, record.role,
    record.status, record.reservedCostUsdExact.value, record.accountedCostUsdExact.value)

/-- The record that an attempt leads to. -/
def conclusion (env : Environment Sha Payload) (attempt : Attempt Sha) : CostRecoveryRecord Sha :=
  if attempt.1.wasDispatched then
    recordOf env attempt .uncertainAccountedAfterDispatch attempt.2.reservedUsd
      attempt.2.reservedUsd
  else
    recordOf env attempt .adoptedProvenPreSend attempt.2.reservedUsd attempt.2.accountedCostUsd

theorem conclusion_requestId (attempt : Attempt Sha) :
    (conclusion env attempt).requestId = attempt.2.requestId := by
  rw [conclusion]
  split <;> rfl

/-! ## The log -/

theorem bind_of_result_error {Entry Value Result : Type} {computation : Logged Entry Value}
    {failure : String} (raised : computation.result = .error failure)
    (continuation : Value → Logged Entry Result) :
    computation >>= continuation = ⟨computation.log, .error failure⟩ := by
  change Logged.andThen computation continuation = _
  rw [Logged.andThen, raised]

theorem bind_of_result_ok {Entry Value Result : Type} {computation : Logged Entry Value}
    {value : Value} (returned : computation.result = .ok value)
    (continuation : Value → Logged Entry Result) :
    computation >>= continuation =
      ⟨computation.log ++ (continuation value).log, (continuation value).result⟩ := by
  change Logged.andThen computation continuation = _
  rw [Logged.andThen, returned]

theorem lift_bind_of_ok {Entry Value Result : Type} (value : Value)
    (continuation : Value → Logged Entry Result) :
    Logged.lift (.ok value) >>= continuation = continuation value := rfl

/-- Reconciling an active entry logs the file that the call leaves. -/
theorem reconcileUnknown_eq {entry : CostEntry} (active : entry.status = .reserved)
    (file : SerializedState) :
    reconcileUnknown ledger clock file entry =
      ⟨ledgerFiles file [closingCall ledger clock entry],
        (ledgerCall (ledger.perform file (closingCall ledger clock entry).2).result >>=
          closedEntry).map fun closed =>
            (runLedger file [closingCall ledger clock entry], closed)⟩ := by
  have handle : ledgerCall entry.asReservation =
      .ok ⟨entry.requestId, entry.reservationId, entry.reservedUsd⟩ := by
    rw [CostEntry.asReservation, if_pos active]
    rfl
  rw [reconcileUnknown, handle, lift_bind_of_ok]
  dsimp only [closingCall]
  cases returned : ledgerCall (ledger.perform file (.reconcile
      ⟨entry.requestId, entry.reservationId, entry.reservedUsd⟩ none
      (clock entry.requestId))).result >>= closedEntry with
  | error failure => rfl
  | ok closed => rfl

theorem pendingCalls_singleton_of_not {attempt : Attempt Sha} (settled : ¬ IsPending attempt) :
    pendingCalls ledger clock [attempt] = [] := by
  simp [pendingCalls, pendingEntries, settled]

theorem pendingCalls_singleton {attempt : Attempt Sha} (pending : IsPending attempt) :
    pendingCalls ledger clock [attempt] = [closingCall ledger clock attempt.2] := by
  simp [pendingCalls, pendingEntries, pending]

variable (env ledger clock) in
/-- One step logs the file of its call, if it makes one, and goes on with it. -/
theorem concludeAttempt_log {attempt : Attempt Sha} (active : IsActive attempt.2.status)
    (progress : Progress Sha) :
    (concludeAttempt env ledger clock progress attempt).log =
        ledgerFiles progress.file (pendingCalls ledger clock [attempt]) ∧
      ∀ next, (concludeAttempt env ledger clock progress attempt).result = .ok next →
        next.file = runLedger progress.file (pendingCalls ledger clock [attempt]) := by
  by_cases dispatched : attempt.1.wasDispatched
  · by_cases uncertain : attempt.2.status = .uncertainAccounted
    · have settled : ¬ IsPending attempt := fun pending => pending.2 uncertain
      rw [concludeAttempt, if_neg (not_not.mpr dispatched), if_pos uncertain,
        pendingCalls_singleton_of_not settled]
      refine ⟨?_, fun next returned => ?_⟩
      · cases checked : raiseIf (attempt.2.actualCostUsd ≠ none ∨
            ¬ attempt.2.accountedCostUsd.SameValue attempt.2.reservedUsd)
            "accounted model-cost uncertainty differs from scheduler dispatch state" <;> rfl
      · rw [result_bind_eq_ok_iff] at returned
        obtain ⟨_, -, same⟩ := returned
        cases same
        rfl
    · have pending : IsPending attempt := ⟨dispatched, uncertain⟩
      have reserved : attempt.2.status = .reserved := active.resolve_right uncertain
      rw [concludeAttempt, if_neg (not_not.mpr dispatched), if_neg uncertain,
        pendingCalls_singleton pending, reconcileUnknown_eq reserved]
      cases ledgerCall (ledger.perform progress.file
          (closingCall ledger clock attempt.2).2).result >>= closedEntry with
      | error failure => exact ⟨rfl, fun next impossible => nomatch impossible⟩
      | ok closed =>
          refine ⟨rfl, fun next returned => ?_⟩
          cases returned
          rfl
  · have settled : ¬ IsPending attempt := fun pending => dispatched pending.1
    rw [concludeAttempt, if_pos dispatched, pendingCalls_singleton_of_not settled]
    refine ⟨rfl, fun next returned => ?_⟩
    cases returned
    rfl

variable (env ledger clock) in
/-- The log of the loop has the files of its first calls, and of all its calls if
it returns. -/
theorem conclude_log {attempts : List (Attempt Sha)}
    (active : ∀ attempt ∈ attempts, IsActive attempt.2.status) (progress : Progress Sha) :
    (attempts.foldlM (concludeAttempt env ledger clock) progress).log <+:
        ledgerFiles progress.file (pendingCalls ledger clock attempts) ∧
      ∀ last, (attempts.foldlM (concludeAttempt env ledger clock) progress).result = .ok last →
        (attempts.foldlM (concludeAttempt env ledger clock) progress).log =
          ledgerFiles progress.file (pendingCalls ledger clock attempts) := by
  induction attempts generalizing progress with
  | nil => exact ⟨List.nil_prefix, fun _ _ => rfl⟩
  | cons attempt attempts ih =>
      obtain ⟨firstLog, firstFile⟩ := concludeAttempt_log env ledger
        clock (active attempt List.mem_cons_self) progress
      rw [List.foldlM_cons, pendingCalls_cons, ledgerFiles_append]
      cases returned : (concludeAttempt env ledger clock progress attempt).result with
      | error failure =>
          rw [bind_of_result_error returned, firstLog]
          exact ⟨List.prefix_append _ _, fun _ impossible => nomatch impossible⟩
      | ok next =>
          obtain ⟨isPrefix, whole⟩ :=
            ih (fun other member => active other (List.mem_cons_of_mem _ member)) next
          rw [bind_of_result_ok returned, firstLog, ← firstFile next returned]
          exact ⟨(List.prefix_append_right_inj _).mpr isPrefix,
            fun last finished => congrArg _ (whole last finished)⟩

/-! ## Careful runs -/

/-- The attempts stand for distinct active entries of a ledger. -/
structure Concludable (entries : Dict String CostEntry) (attempts : List (Attempt Sha)) :
    Prop where
  stored : ∀ attempt ∈ attempts, entries.get? attempt.2.requestId = some attempt.2
  active : ∀ attempt ∈ attempts, IsActive attempt.2.status
  distinct : (attempts.map (·.2.requestId)).Nodup

theorem Concludable.tail {entries : Dict String CostEntry} {attempt : Attempt Sha}
    {attempts : List (Attempt Sha)} (concludable : Concludable entries (attempt :: attempts)) :
    Concludable entries attempts where
  stored other member := concludable.stored other (List.mem_cons_of_mem _ member)
  active other member := concludable.active other (List.mem_cons_of_mem _ member)
  distinct := (List.nodup_cons.mp concludable.distinct).2

theorem mem_pendingEntries {attempts : List (Attempt Sha)} {entry : CostEntry} :
    entry ∈ pendingEntries attempts ↔
      ∃ attempt ∈ attempts, IsPending attempt ∧ attempt.2 = entry := by
  simp [pendingEntries, and_assoc]

theorem mem_requestIds_pendingEntries {attempts : List (Attempt Sha)} {key : String} :
    key ∈ (pendingEntries attempts).map (·.requestId) ↔
      ∃ attempt ∈ attempts, IsPending attempt ∧ attempt.2.requestId = key := by
  simp only [List.mem_map, mem_pendingEntries]
  constructor
  · rintro ⟨_, ⟨attempt, member, pending, rfl⟩, same⟩
    exact ⟨attempt, member, pending, same⟩
  · rintro ⟨attempt, member, pending, same⟩
    exact ⟨attempt.2, ⟨attempt, member, pending, rfl⟩, same⟩

theorem Concludable.pending {entries : Dict String CostEntry} {attempts : List (Attempt Sha)}
    (concludable : Concludable entries attempts) :
    (∀ entry ∈ pendingEntries attempts, entries.get? entry.requestId = some entry) ∧
      (∀ entry ∈ pendingEntries attempts, entry.status = .reserved) ∧
      ((pendingEntries attempts).map (·.requestId)).Nodup := by
  refine ⟨fun entry member => ?_, fun entry member => ?_, ?_⟩
  · obtain ⟨attempt, listed, -, rfl⟩ := mem_pendingEntries.mp member
    exact concludable.stored attempt listed
  · obtain ⟨attempt, listed, pending, rfl⟩ := mem_pendingEntries.mp member
    exact (concludable.active attempt listed).resolve_right pending.2
  · rw [pendingEntries, List.map_map]
    exact (List.filter_sublist.map _).nodup concludable.distinct

/-- A ledger that was read has exact uncertain entries. -/
theorem exact_of_uncertain {entries : Dict String CostEntry}
    (wellFormed : WellFormedEntries entries) {entry : CostEntry}
    (stored : entries.get? entry.requestId = some entry)
    (uncertain : entry.status = .uncertainAccounted) :
    entry.actualCostUsd = none ∧ entry.accountedCostUsd.SameValue entry.reservedUsd := by
  have lifecycle := (wellFormed.entry _ _ stored).lifecycle
  simp only [lifecycleIsValid, uncertain, Bool.and_eq_true, decide_eq_true_eq,
    Option.isNone_iff_eq_none] at lifecycle
  exact lifecycle.1

variable (env clock) in
/-- One step of a careful run returns the record of its attempt. -/
theorem exists_concludeAttempt {done : List String}
    {before after : Dict String CostEntry} (read : ledger.requiredState file = .ok after)
    (tracks : Tracks done before after) (wellFormed : WellFormedEntries before)
    {attempt : Attempt Sha} (stored : before.get? attempt.2.requestId = some attempt.2)
    (active : IsActive attempt.2.status) (open_ : attempt.2.requestId ∉ done)
    (recovered : List (CostRecoveryRecord Sha)) :
    ∃ next, (concludeAttempt env ledger clock ⟨file, recovered⟩ attempt).result = .ok next ∧
      next.recovered.map CostRecoveryRecord.fields =
        recovered.map CostRecoveryRecord.fields ++ [(conclusion env attempt).fields] := by
  by_cases dispatched : attempt.1.wasDispatched
  · by_cases uncertain : attempt.2.status = .uncertainAccounted
    · obtain ⟨noActual, exact_⟩ := exact_of_uncertain wellFormed stored uncertain
      have passes : ¬ (attempt.2.actualCostUsd ≠ none ∨
          ¬ attempt.2.accountedCostUsd.SameValue attempt.2.reservedUsd) := by
        rw [not_or, not_not, not_not]
        exact ⟨noActual, exact_⟩
      have sameAmount := (Decimal.sameValue_iff _ _).mp exact_
      have checked : raiseIf (attempt.2.actualCostUsd ≠ none ∨
          ¬ attempt.2.accountedCostUsd.SameValue attempt.2.reservedUsd)
          "accounted model-cost uncertainty differs from scheduler dispatch state" = .ok () :=
        raiseIf_eq_ok_iff.mpr passes
      rw [concludeAttempt, if_neg (not_not.mpr dispatched), if_pos uncertain, checked,
        lift_bind_of_ok]
      refine ⟨_, rfl, ?_⟩
      simp [conclusion, dispatched, CostRecoveryRecord.fields, recordOf, sameAmount]
    · obtain ⟨closed, performed, reservedValue, accounted, -, -, -⟩ := exists_closed clock
        read tracks wellFormed stored open_ (active.resolve_right uncertain)
      rw [concludeAttempt, if_neg (not_not.mpr dispatched), if_neg uncertain,
        reconcileUnknown_eq (active.resolve_right uncertain), performed]
      refine ⟨_, rfl, ?_⟩
      simp [conclusion, dispatched, CostRecoveryRecord.fields, recordOf, reservedValue, accounted]
  · rw [concludeAttempt, if_pos dispatched]
    refine ⟨_, rfl, ?_⟩
    simp [conclusion, dispatched, CostRecoveryRecord.fields, recordOf]

variable (env clock) in
/-- A careful run returns one record for every attempt. -/
theorem exists_conclude {done : List String}
    {before after : Dict String CostEntry} (read : ledger.requiredState file = .ok after)
    (tracks : Tracks done before after) (wellFormed : WellFormedEntries before)
    {attempts : List (Attempt Sha)} (concludable : Concludable before attempts)
    (open_ : ∀ attempt ∈ attempts, attempt.2.requestId ∉ done)
    (careful : AllCareful file (pendingCalls ledger clock attempts))
    (recovered : List (CostRecoveryRecord Sha)) :
    ∃ last, (attempts.foldlM (concludeAttempt env ledger clock) ⟨file, recovered⟩).result =
        .ok last ∧
      last.recovered.map CostRecoveryRecord.fields =
        recovered.map CostRecoveryRecord.fields ++
          attempts.map fun attempt => (conclusion env attempt).fields := by
  induction attempts generalizing file done after recovered with
  | nil => exact ⟨⟨file, recovered⟩, rfl, by simp⟩
  | cons attempt attempts ih =>
      have active := concludable.active attempt List.mem_cons_self
      obtain ⟨next, returned, records⟩ := exists_concludeAttempt env clock read
        tracks wellFormed (concludable.stored attempt List.mem_cons_self) active
        (open_ attempt List.mem_cons_self) recovered
      have nextFile := (concludeAttempt_log env ledger clock active ⟨file, recovered⟩).2 next returned
      rw [pendingCalls_cons, allCareful_append_iff] at careful
      obtain ⟨firstCareful, restCareful⟩ := careful
      have single : Concludable before [attempt] :=
        ⟨fun other member => concludable.stored other (by simp_all),
          fun other member => concludable.active other (by simp_all), by simp⟩
      obtain ⟨pendingStored, pendingActive, pendingDistinct⟩ := single.pending
      have pendingOpen : ∀ entry ∈ pendingEntries [attempt], entry.requestId ∉ done := by
        intro entry member
        obtain ⟨other, listed, -, rfl⟩ := mem_pendingEntries.mp member
        rw [List.mem_singleton] at listed
        exact listed ▸ open_ attempt List.mem_cons_self
      obtain ⟨middle, middleRead, middleTracks⟩ := exists_closedAll read tracks wellFormed
        pendingStored pendingActive pendingOpen pendingDistinct firstCareful
      have stillOpen : ∀ other ∈ attempts,
          other.2.requestId ∉ done ++ (pendingEntries [attempt]).map (·.requestId) := by
        intro other member closed
        rcases List.mem_append.mp closed with earlier | here
        · exact open_ other (List.mem_cons_of_mem _ member) earlier
        · obtain ⟨entry, listed, same⟩ := List.mem_map.mp here
          obtain ⟨first, single, -, rfl⟩ := mem_pendingEntries.mp listed
          rw [List.mem_singleton] at single
          subst single
          exact (List.nodup_cons.mp concludable.distinct).1
            (List.mem_map.mpr ⟨other, member, same.symm⟩)
      obtain ⟨last, finished, lastRecords⟩ := ih middleRead middleTracks concludable.tail
        stillOpen restCareful next.recovered
      refine ⟨last, ?_, ?_⟩
      · rw [List.foldlM_cons, bind_of_result_ok returned]
        have whole : next = ⟨runLedger file (pendingCalls ledger clock [attempt]), next.recovered⟩ := by
          rw [← nextFile]
        rw [whole]
        exact finished
      · rw [lastRecords, records]
        simp

variable (env clock) in
/-- A run with a pending entry calls the ledger, whatever comes after. -/
theorem conclude_log_ne_nil {entries : Dict String CostEntry}
    (read : ledger.requiredState file = .ok entries) (wellFormed : WellFormedEntries entries)
    {attempts : List (Attempt Sha)} (concludable : Concludable entries attempts)
    (pending : pendingEntries attempts ≠ []) (recovered : List (CostRecoveryRecord Sha)) :
    (attempts.foldlM (concludeAttempt env ledger clock) ⟨file, recovered⟩).log ≠ [] := by
  induction attempts generalizing recovered with
  | nil => exact absurd rfl pending
  | cons attempt attempts ih =>
      have active := concludable.active attempt List.mem_cons_self
      obtain ⟨firstLog, firstFile⟩ := concludeAttempt_log env ledger
        clock active ⟨file, recovered⟩
      rw [List.foldlM_cons]
      by_cases here : IsPending attempt
      · rw [pendingCalls_singleton here] at firstLog
        cases returned : (concludeAttempt env ledger clock ⟨file, recovered⟩ attempt).result with
        | error failure => simp [bind_of_result_error returned, firstLog, ledgerFiles]
        | ok next => simp [bind_of_result_ok returned, firstLog, ledgerFiles]
      · obtain ⟨next, returned, -⟩ := exists_concludeAttempt env clock read
          (Tracks.refl entries) wellFormed (concludable.stored attempt List.mem_cons_self) active
          List.not_mem_nil recovered
        have sameFile : next.file = file := by
          rw [firstFile next returned, pendingCalls_singleton_of_not here, runLedger_nil]
        have later : pendingEntries attempts ≠ [] := by
          rw [pendingEntries_cons] at pending
          simpa [pendingEntries, here] using pending
        have whole : next = ⟨file, next.recovered⟩ := by
          cases next
          exact congrArg (Progress.mk · _) sameFile
        rw [bind_of_result_ok returned, whole]
        intro empty
        exact ih concludable.tail later next.recovered (List.append_eq_nil_iff.mp empty).2

end CostRecovery

end MmAudit
