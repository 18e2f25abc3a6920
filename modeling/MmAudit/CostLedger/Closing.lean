import MmAudit.CostLedger.Lifecycle

/-!
# Closing entries at an unknown cost

Reconciling an active entry without an actual cost accounts its full reservation.
A list of such calls touches only the entries it names, as long as every file
that it leaves behind can be read again.  The amounts of the other entries may be
written differently, so the ledger is followed up to the value of its amounts.
-/

namespace MmAudit

namespace CostLedger

open Fallible

/-! ## The files along a list of calls -/

/-- The file after each of a list of calls. -/
def ledgerFiles (file : SerializedState) :
    List (AtomicCostLedger × LedgerOperation) → List SerializedState
  | [] => []
  | call :: history =>
      (call.1.perform file call.2).file :: ledgerFiles (call.1.perform file call.2).file history

theorem length_ledgerFiles (file : SerializedState)
    (history : List (AtomicCostLedger × LedgerOperation)) :
    (ledgerFiles file history).length = history.length := by
  induction history generalizing file with
  | nil => rfl
  | cons call history ih => rw [ledgerFiles, List.length_cons, ih, List.length_cons]

/-- The last of the first files is the file after the first calls. -/
theorem getLastD_take_ledgerFiles (file : SerializedState)
    (history : List (AtomicCostLedger × LedgerOperation)) (count : ℕ) :
    ((ledgerFiles file history).take count).getLastD file =
      runLedger file (history.take count) := by
  induction history generalizing file count with
  | nil => simp [ledgerFiles]
  | cons call history ih =>
      cases count with
      | zero => rfl
      | succ count =>
          rw [ledgerFiles, List.take_succ_cons, List.take_succ_cons, runLedger_cons, ← ih,
            List.getLastD_cons]

theorem ledgerFiles_append (file : SerializedState)
    (first second : List (AtomicCostLedger × LedgerOperation)) :
    ledgerFiles file (first ++ second) =
      ledgerFiles file first ++ ledgerFiles (runLedger file first) second := by
  induction first generalizing file with
  | nil => rfl
  | cons call first ih => simp only [List.cons_append, ledgerFiles, ih, runLedger_cons]

theorem getLastD_ledgerFiles (file : SerializedState)
    (history : List (AtomicCostLedger × LedgerOperation)) :
    (ledgerFiles file history).getLastD file = runLedger file history := by
  have whole := getLastD_take_ledgerFiles file history history.length
  rwa [← length_ledgerFiles file, List.take_length, length_ledgerFiles, List.take_length] at whole

theorem allCareful_append_iff (file : SerializedState)
    (first second : List (AtomicCostLedger × LedgerOperation)) :
    AllCareful file (first ++ second) ↔
      AllCareful file first ∧ AllCareful (runLedger file first) second := by
  induction first generalizing file with
  | nil => simp [AllCareful]
  | cons call first ih => rw [List.cons_append, AllCareful, ih, AllCareful, and_assoc, runLedger_cons]

theorem AllCareful.take {file : SerializedState}
    {history : List (AtomicCostLedger × LedgerOperation)} (careful : AllCareful file history)
    (count : ℕ) : AllCareful file (history.take count) := by
  rw [← List.take_append_drop count history, allCareful_append_iff] at careful
  exact careful.1

/-! ## One closing call -/

/-- The call that closes an entry at an unknown cost. -/
def closingCall (ledger : AtomicCostLedger) (clock : String → Timestamp) (entry : CostEntry) :
    AtomicCostLedger × LedgerOperation :=
  (ledger, .reconcile ⟨entry.requestId, entry.reservationId, entry.reservedUsd⟩ none
    (clock entry.requestId))

/-- An entry that was closed at its full reservation. -/
structure Concluded (before after : CostEntry) : Prop where
  requestId : after.requestId = before.requestId
  reservedUsd : after.reservedUsd.value = before.reservedUsd.value
  status : after.status = .uncertainAccounted

/-- Only the entries of some requests were closed between two readings of the
ledger. -/
structure Tracks (done : List String) (before after : Dict String CostEntry) : Prop where
  absent : ∀ key, before.get? key = none → after.get? key = none
  same : ∀ key entry, before.get? key = some entry → key ∉ done →
    ∃ other, after.get? key = some other ∧ SameEntry other entry
  concluded : ∀ key entry, before.get? key = some entry → key ∈ done →
    ∃ other, after.get? key = some other ∧ Concluded entry other

theorem SameEntry.refl (entry : CostEntry) : SameEntry entry entry :=
  ⟨rfl, rfl, rfl, rfl, rfl, rfl, rfl, rfl, rfl⟩

theorem SameEntry.trans {first second third : CostEntry} (earlier : SameEntry first second)
    (later : SameEntry second third) : SameEntry first third where
  requestId := earlier.requestId.trans later.requestId
  reservationId := earlier.reservationId.trans later.reservationId
  status := earlier.status.trans later.status
  reservedUsd := earlier.reservedUsd.trans later.reservedUsd
  actualCostUsd := earlier.actualCostUsd.trans later.actualCostUsd
  accountedCostUsd := earlier.accountedCostUsd.trans later.accountedCostUsd
  releaseReason := earlier.releaseReason.trans later.releaseReason
  createdAt := earlier.createdAt.trans later.createdAt
  updatedAt := earlier.updatedAt.trans later.updatedAt

theorem Tracks.refl (entries : Dict String CostEntry) : Tracks [] entries entries where
  absent _ absent := absent
  same _ entry stored _ := ⟨entry, stored, SameEntry.refl entry⟩
  concluded _ _ _ impossible := nomatch impossible

/-- A file that a process wrote and that can be used is read under its cap. -/
theorem exists_requiredState_of_usable {ledger : AtomicCostLedger}
    {entries : Dict String CostEntry} (wellFormed : WellFormedEntries entries)
    (usable : Usable (serializeState ledger.capUsd entries)) :
    ∃ read, ledger.requiredState (serializeState ledger.capUsd entries) = .ok read := by
  have written : Written ledger.capUsd.value (serializeState ledger.capUsd entries) :=
    ⟨ledger.capUsd, entries, rfl, ledger.capUsd_money, rfl, wellFormed⟩
  exact written.exists_requiredState usable rfl

/-- Reading back a state in which one entry was closed. -/
theorem Tracks.close {done : List String} {before after read : Dict String CostEntry}
    (tracks : Tracks done before after) {cap readCap : Decimal} {entry closed : CostEntry}
    (wellFormed : WellFormedEntries (after.insert closed.requestId closed))
    (validated : ValidatedFrom
      (serializeState cap (after.insert closed.requestId closed)) readCap read)
    (stored : before.get? entry.requestId = some entry) (concluded : Concluded entry closed) :
    Tracks (done ++ [entry.requestId]) before read := by
  have written : ∀ key other, (after.insert closed.requestId closed).get? key = some other →
      ∃ found, read.get? key = some found ∧ SameEntry found other := fun key other found =>
    exists_read_of_validatedFrom wellFormed validated found
  refine ⟨fun key absent => ?_, fun key other found notDone => ?_, fun key other found isDone => ?_⟩
  · cases readStored : read.get? key with
    | none => rfl
    | some other =>
        obtain ⟨_, writtenStored, -⟩ :=
          exists_written_of_validatedFrom wellFormed validated readStored
        rw [Dict.get?_insert, concluded.requestId] at writtenStored
        split at writtenStored
        · rename_i sameKey
          rw [sameKey, stored] at absent
          cases absent
        · rw [tracks.absent key absent] at writtenStored
          cases writtenStored
  · rw [List.mem_append, List.mem_singleton, not_or] at notDone
    obtain ⟨current, currentStored, same⟩ := tracks.same key other found notDone.1
    obtain ⟨final, finalStored, sameFinal⟩ := written key current (by
      rw [Dict.get?_insert, concluded.requestId, if_neg notDone.2, currentStored])
    exact ⟨final, finalStored, sameFinal.trans same⟩
  · by_cases here : key = entry.requestId
    · subst here
      rw [stored] at found
      cases found
      obtain ⟨final, finalStored, sameFinal⟩ := written entry.requestId closed (by
        rw [← concluded.requestId, Dict.get?_insert_self])
      exact ⟨final, finalStored, sameFinal.requestId.trans concluded.requestId,
        sameFinal.reservedUsd.trans concluded.reservedUsd,
        sameFinal.status.trans concluded.status⟩
    · have earlier : key ∈ done := by
        rcases List.mem_append.mp isDone with earlier | last
        · exact earlier
        · exact absurd (List.mem_singleton.mp last) here
      obtain ⟨current, currentStored, currentConcluded⟩ :=
        tracks.concluded key other found earlier
      obtain ⟨final, finalStored, sameFinal⟩ := written key current (by
        rw [Dict.get?_insert, concluded.requestId, if_neg here, currentStored])
      exact ⟨final, finalStored, sameFinal.requestId.trans currentConcluded.requestId,
        sameFinal.reservedUsd.trans currentConcluded.reservedUsd,
        sameFinal.status.trans currentConcluded.status⟩

/-- The handle of an entry matches what is now stored for an open request. -/
theorem exists_matchingEntry {done : List String} {before after : Dict String CostEntry}
    (tracks : Tracks done before after) (wellFormed : WellFormedEntries before)
    {entry : CostEntry} (stored : before.get? entry.requestId = some entry)
    (open_ : entry.requestId ∉ done) :
    ∃ current, matchingEntry after
        ⟨entry.requestId, entry.reservationId, entry.reservedUsd⟩ = .ok current ∧
      SameEntry current entry := by
  have entryWellFormed := wellFormed.entry _ _ stored
  obtain ⟨current, currentStored, same⟩ := tracks.same _ _ stored open_
  obtain ⟨expected, valid, expectedValue⟩ :=
    exists_validateMoney entryWellFormed.reservedUsd "reserved_usd"
  refine ⟨current, ?_, same⟩
  simp only [matchingEntry, bind_eq_ok_iff]
  refine ⟨(), validateRequestId_eq_ok_iff.mpr entryWellFormed.requestId, expected, valid, ?_⟩
  rw [currentStored]
  dsimp only
  rw [if_neg]
  rw [not_or, not_not, not_not, Decimal.sameValue_iff]
  exact ⟨same.reservationId, same.reservedUsd.trans expectedValue.symm⟩

/-- A closing call on an open entry: the file it writes, the entry it returns,
and what a reader finds afterwards. -/
theorem exists_closed (clock : String → Timestamp) {ledger : AtomicCostLedger}
    {file : SerializedState} {done : List String} {before after : Dict String CostEntry}
    (read : ledger.requiredState file = .ok after) (tracks : Tracks done before after)
    (wellFormed : WellFormedEntries before) {entry : CostEntry}
    (stored : before.get? entry.requestId = some entry) (open_ : entry.requestId ∉ done)
    (active : entry.status = .reserved) :
    ∃ closed,
      ledger.perform file (closingCall ledger clock entry).2 =
        ⟨serializeState ledger.capUsd (after.insert closed.requestId closed),
          .ok (.entry closed)⟩ ∧
      closed.reservedUsd.value = entry.reservedUsd.value ∧
      closed.accountedCostUsd = entry.reservedUsd ∧ closed.requestId = entry.requestId ∧
      closed.status = .uncertainAccounted ∧
      (Usable (serializeState ledger.capUsd (after.insert closed.requestId closed)) →
        ∃ next, ledger.requiredState
            (serializeState ledger.capUsd (after.insert closed.requestId closed)) = .ok next ∧
          Tracks (done ++ [entry.requestId]) before next) := by
  obtain ⟨current, matching, same⟩ := exists_matchingEntry tracks wellFormed stored open_
  have write : EntryWrite ledger after (closingCall ledger clock entry).2
      (reconciledEntry current ⟨entry.requestId, entry.reservationId, entry.reservedUsd⟩ none
        (clock entry.requestId)) :=
    .reconcile rfl matching (same.status.trans active)
  obtain ⟨readCap, validated, -⟩ := exists_validatedFrom_of_requiredState read
  have nextWellFormed := validated.wellFormed.insert (write.wellFormed validated.wellFormed)
  refine ⟨reconciledEntry current ⟨entry.requestId, entry.reservationId, entry.reservedUsd⟩ none
    (clock entry.requestId), ?_, same.reservedUsd, rfl, same.requestId, rfl, fun usable => ?_⟩
  · rw [perform_of_entryWrite read write]
    rfl
  · obtain ⟨next, nextRead⟩ := exists_requiredState_of_usable nextWellFormed usable
    obtain ⟨nextCap, nextValidated, -⟩ := exists_validatedFrom_of_requiredState nextRead
    exact ⟨next, nextRead,
      tracks.close nextWellFormed nextValidated stored ⟨same.requestId, same.reservedUsd, rfl⟩⟩

/-! ## A list of closing calls -/

/-- Careful calls that close open entries of distinct requests. -/
theorem exists_closedAll {ledger : AtomicCostLedger} {clock : String → Timestamp}
    {file : SerializedState} {done : List String} {before after : Dict String CostEntry}
    (read : ledger.requiredState file = .ok after) (tracks : Tracks done before after)
    (wellFormed : WellFormedEntries before) {pending : List CostEntry}
    (stored : ∀ entry ∈ pending, before.get? entry.requestId = some entry)
    (active : ∀ entry ∈ pending, entry.status = .reserved)
    (open_ : ∀ entry ∈ pending, entry.requestId ∉ done)
    (distinct : (pending.map (·.requestId)).Nodup)
    (careful : AllCareful file (pending.map (closingCall ledger clock))) :
    ∃ final, ledger.requiredState (runLedger file (pending.map (closingCall ledger clock))) =
        .ok final ∧
      Tracks (done ++ pending.map (·.requestId)) before final := by
  induction pending generalizing file done after with
  | nil => exact ⟨after, read, by simpa using tracks⟩
  | cons entry pending ih =>
      obtain ⟨closed, performed, -, -, -, -, readsNext⟩ := exists_closed clock read tracks
        wellFormed (stored entry List.mem_cons_self) (open_ entry List.mem_cons_self)
        (active entry List.mem_cons_self)
      have nextFile : ((closingCall ledger clock entry).1.perform file
          (closingCall ledger clock entry).2).file =
            serializeState ledger.capUsd (after.insert closed.requestId closed) :=
        congrArg LedgerOutcome.file performed
      have usable := (usable_perform_iff (usable_of_requiredState read)
        (closingCall ledger clock entry)).mpr careful.1
      have rest := careful.2
      rw [nextFile] at usable rest
      obtain ⟨next, nextRead, nextTracks⟩ := readsNext usable
      rw [List.map_cons, List.nodup_cons] at distinct
      have nextOpen : ∀ other ∈ pending, other.requestId ∉ done ++ [entry.requestId] := by
        intro other member
        rw [List.mem_append, List.mem_singleton, not_or]
        exact ⟨open_ other (List.mem_cons_of_mem _ member),
          fun same => distinct.1 (same ▸ List.mem_map_of_mem member)⟩
      obtain ⟨final, finalRead, finalTracks⟩ := ih nextRead nextTracks
        (fun other member => stored other (List.mem_cons_of_mem _ member))
        (fun other member => active other (List.mem_cons_of_mem _ member)) nextOpen distinct.2 rest
      refine ⟨final, ?_, by simpa using finalTracks⟩
      rw [List.map_cons, runLedger_cons, nextFile]
      exact finalRead

/-- The statuses after some entries were closed. -/
theorem Tracks.status {done : List String} {before after : Dict String CostEntry}
    (tracks : Tracks done before after) (key : String) :
    (after.get? key).map (·.status) = (before.get? key).map fun entry =>
      if key ∈ done then .uncertainAccounted else entry.status := by
  cases stored : before.get? key with
  | none => rw [tracks.absent key stored, Option.map_none, Option.map_none]
  | some entry =>
      rw [Option.map_some]
      by_cases isDone : key ∈ done
      · obtain ⟨other, otherStored, concluded⟩ := tracks.concluded key entry stored isDone
        rw [otherStored, if_pos isDone, Option.map_some, concluded.status]
      · obtain ⟨other, otherStored, same⟩ := tracks.same key entry stored isDone
        rw [otherStored, if_neg isDone, Option.map_some, same.status]

/-- A ledger in which an entry was closed is not the ledger before. -/
theorem runLedger_closing_ne {ledger : AtomicCostLedger} {clock : String → Timestamp}
    {file : SerializedState} {entries : Dict String CostEntry}
    (read : ledger.requiredState file = .ok entries) {entry : CostEntry}
    (stored : entries.get? entry.requestId = some entry) (active : entry.status = .reserved)
    (history : List (AtomicCostLedger × LedgerOperation)) :
    runLedger file (closingCall ledger clock entry :: history) ≠ file := by
  intro unchanged
  obtain ⟨readCap, validated, -⟩ := exists_validatedFrom_of_requiredState read
  obtain ⟨closed, performed, -, -, requestId, status, -⟩ := exists_closed clock read
    (Tracks.refl entries) validated.wellFormed stored (List.not_mem_nil) active
  have nextFile : ((closingCall ledger clock entry).1.perform file
      (closingCall ledger clock entry).2).file =
        serializeState ledger.capUsd (entries.insert closed.requestId closed) :=
    congrArg LedgerOutcome.file performed
  have nextStored : (serializeState ledger.capUsd
      (entries.insert closed.requestId closed)).entries.get? entry.requestId =
        some (serializeEntry closed) := by
    rw [get?_serializeState, ← requestId, Dict.get?_insert_self, Option.map_some]
  obtain ⟨last, lastStored, -, sameRecord⟩ :=
    keepsEntries_runLedger _ history entry.requestId _ nextStored
  rw [runLedger_cons, nextFile] at unchanged
  rw [unchanged] at lastStored
  obtain ⟨current, currentStored, readFrom⟩ := validated.exists_read lastStored
  rw [stored] at currentStored
  cases currentStored
  have sameStatus := (sameRecord (by simp [serializeEntry, status])).status
  rw [← readFrom.status, active] at sameStatus
  simp [serializeEntry, status] at sameStatus

end CostLedger

end MmAudit
