import MmAudit.CostLedger.Cap

/-!
# Whether a ledger can read its own writes

Every process validates the file before it touches it, so a write that the
reader refuses stops all later spending.  Two things a writer never checks can
cause that: the clock of a closing call may be behind the creation time of its
entry, and the serialized state may outgrow the bound on the bytes a reader
accepts.  Nothing else can.
-/

namespace MmAudit

namespace CostLedger

open Fallible

/-! ## Files that can be used -/

/-- The file is accepted when it is next read, and no call reports it as
corrupt. -/
structure Usable (file : SerializedState) : Prop where
  accepted : ∃ cap entries, validateState file = .ok (cap, entries)
  neverCorrupt : ∀ (ledger : AtomicCostLedger) operation message,
    (ledger.perform file operation).result ≠ .error (.corrupt message)

theorem validateRequestId_error {identifier : String} {failure : CostLedgerError}
    (raised : validateRequestId identifier = .error failure) :
    ∃ message, failure = .configuration message := by
  rw [validateRequestId] at raised
  split at raised
  · cases raised
  · cases raised
    exact ⟨_, rfl⟩

theorem validateMoney_error {argument : DecimalArgument} {field : String} {positive : Bool}
    {failure : CostLedgerError} (raised : validateMoney argument field positive = .error failure) :
    ∃ message, failure = .configuration message := by
  cases argument with
  | infinite => exact ⟨_, (Except.error.inj raised).symm⟩
  | notANumber => exact ⟨_, (Except.error.inj raised).symm⟩
  | finite number =>
      rw [validateMoney] at raised
      by_cases sign : (if positive = true then number ≤ 0 else number < 0)
      · rw [if_pos sign] at raised
        exact ⟨_, (Except.error.inj raised).symm⟩
      · rw [if_neg sign] at raised
        by_cases bounds : withinDecimalBounds (if number.SameValue 0 then 0 else number) = true
        · simp [bounds] at raised
        · simp only [bounds, Bool.false_eq_true, if_false] at raised
          exact ⟨_, (Except.error.inj raised).symm⟩

theorem validateActual_error {actualCostUsd : Option DecimalArgument} {failure : CostLedgerError}
    (raised : validateActual actualCostUsd = .error failure) :
    ∃ message, failure = .configuration message := by
  cases actualCostUsd with
  | none => cases raised
  | some argument =>
      rw [validateActual, map_eq_error_iff] at raised
      exact validateMoney_error raised

theorem matchingEntry_error {entries : Dict String CostEntry} {reservation : CostReservation}
    {failure : CostLedgerError} (raised : matchingEntry entries reservation = .error failure) :
    (∃ message, failure = .configuration message) ∨
      ∃ message, failure = .reservationState message := by
  simp only [matchingEntry, bind_eq_error_iff] at raised
  rcases raised with raised | ⟨_, -, raised | ⟨expected, -, raised⟩⟩
  · exact .inl (validateRequestId_error raised)
  · exact .inl (validateMoney_error raised)
  · right
    split at raised
    · exact ⟨_, (Except.error.inj raised).symm⟩
    · split at raised
      · exact ⟨_, (Except.error.inj raised).symm⟩
      · cases raised

theorem locked_of_outcomeOf_corrupt {Value : Type} {file : SerializedState}
    {locked : Except CostLedgerError (Locked Value)} {message : String}
    {finish : Value → Except CostLedgerError LedgerResponse}
    (raised : (outcomeOf file locked finish).result = .error (.corrupt message))
    (finishes : ∀ value, finish value ≠ .error (.corrupt message)) :
    locked = .error (.corrupt message) := by
  cases locked with
  | error failure => exact congrArg Except.error (Except.error.inj raised)
  | ok done => exact absurd raised (finishes done.value)

/-- A call reports corruption only when reading the file does. -/
theorem requiredState_of_perform_corrupt {ledger : AtomicCostLedger} {file : SerializedState}
    {operation : LedgerOperation} {message : String}
    (raised : (ledger.perform file operation).result = .error (.corrupt message)) :
    ledger.requiredState file = .error (.corrupt message) := by
  cases operation with
  | reserve requestId maximumCostUsd now fresh =>
      have locked := locked_of_outcomeOf_corrupt raised fun value => by simp
      simp only [AtomicCostLedger.reserve, bind_eq_error_iff, raiseIf_eq_error_iff, reduceCtorEq,
        and_false, exists_false, or_false] at locked
      rcases locked with raised | ⟨_, -, raised | ⟨requested, -, raised⟩⟩
      · obtain ⟨_, impossible⟩ := validateRequestId_error raised
        cases impossible
      · obtain ⟨_, impossible⟩ := validateMoney_error raised
        cases impossible
      · exact raised
  | reconcile reservation actualCostUsd now =>
      simp only [AtomicCostLedger.perform, AtomicCostLedger.reconcile] at raised
      split at raised
      · rename_i failure invalid
        cases raised
        obtain ⟨_, impossible⟩ := validateActual_error invalid
        cases impossible
      · rename_i actual valid
        have locked := locked_of_outcomeOf_corrupt raised fun value => by
          obtain ⟨entry, overrun⟩ := value
          cases overrun <;> simp [overrunError]
        simp only [AtomicCostLedger.reconcileLocked, bind_eq_error_iff] at locked
        rcases locked with raised | ⟨entries, -, raised | ⟨current, -, raised⟩⟩
        · exact raised
        · rcases matchingEntry_error raised with ⟨_, impossible⟩ | ⟨_, impossible⟩ <;>
            cases impossible
        · split at raised
          · split at raised
            · simp [bind_eq_error_iff, raiseIf_eq_error_iff, overrunError] at raised
            · simp [finalizedError] at raised
          · cases raised
  | release reservation reason now =>
      have locked := locked_of_outcomeOf_corrupt raised fun value => by simp
      simp only [AtomicCostLedger.release, bind_eq_error_iff] at locked
      rcases locked with raised | ⟨entries, -, raised | ⟨current, -, raised⟩⟩
      · exact raised
      · rcases matchingEntry_error raised with ⟨_, impossible⟩ | ⟨_, impossible⟩ <;>
          cases impossible
      · split at raised
        · split at raised <;> simp at raised
        · split at raised <;> simp [finalizedError] at raised
  | activeReservation requestId =>
      simp only [AtomicCostLedger.perform, map_eq_error_iff, AtomicCostLedger.activeReservation,
        bind_eq_error_iff] at raised
      rcases raised with raised | ⟨_, -, raised | ⟨entries, -, raised⟩⟩
      · obtain ⟨_, impossible⟩ := validateRequestId_error raised
        cases impossible
      · exact raised
      · split at raised
        · cases raised
        · split at raised
          · cases raised
          · rename_i active
            rw [not_not] at active
            simp [CostEntry.asReservation, active] at raised
  | snapshot =>
      simp only [AtomicCostLedger.perform, map_eq_error_iff, AtomicCostLedger.snapshot,
        bind_eq_error_iff, reduceCtorEq, and_false, exists_false, or_false] at raised
      exact raised

/-! ## What a reader refuses -/

theorem parseMoney_error {text : List Char} {field : String} {positive : Bool}
    {failure : CostLedgerError} (raised : parseMoney text field positive = .error failure) :
    failure = corruptValue := by
  simp only [parseMoney] at raised
  split at raised
  · exact (Except.error.inj raised).symm
  · split at raised
    · cases raised
    · exact (Except.error.inj raised).symm

theorem parseItem_error {key : String} {serialized : SerializedEntry} {failure : CostLedgerError}
    (raised : parseItem key serialized = .error failure) : ∃ message, failure = .corrupt message := by
  have optional : ∀ failure, parseOptionalMoney serialized.actualCostUsd "actual_cost_usd" =
      .error failure → failure = corruptValue := by
    intro failure raised
    cases text : serialized.actualCostUsd with
    | none => simp [text, parseOptionalMoney] at raised
    | some text' =>
        rw [text, parseOptionalMoney, map_eq_error_iff] at raised
        exact parseMoney_error raised
  simp only [parseItem, parseEntry, bind_eq_error_iff, raiseIf_eq_error_iff, reduceCtorEq,
    and_false, exists_false, or_false] at raised
  rcases raised with (⟨-, rfl⟩ | ⟨_, -, ⟨-, rfl⟩ | ⟨_, -, raised | ⟨_, -, raised | ⟨_, -,
    raised | ⟨_, -, -, rfl⟩⟩⟩⟩⟩) | ⟨_, -, -, rfl⟩
  · exact ⟨_, rfl⟩
  · exact ⟨_, rfl⟩
  · exact ⟨_, parseMoney_error raised⟩
  · exact ⟨_, parseMoney_error raised⟩
  · exact ⟨_, optional _ raised⟩
  · exact ⟨_, rfl⟩
  · exact ⟨_, rfl⟩

/-- Whatever a reader finds wrong with a state, it reports corruption. -/
theorem validateState_error {file : SerializedState} {failure : CostLedgerError}
    (raised : validateState file = .error failure) : ∃ message, failure = .corrupt message := by
  simp only [validateState, bind_eq_error_iff, reduceCtorEq, and_false, exists_false,
    or_false] at raised
  rcases raised with raised | ⟨cap, -, raised | ⟨entries, -, raised⟩⟩
  · simp only [parseCap] at raised
    split at raised
    · cases raised
      exact ⟨_, rfl⟩
    · split at raised
      · cases raised
      · cases raised
        exact ⟨_, rfl⟩
  · obtain ⟨key, serialized, itemRaised⟩ := Dict.exists_error_of_mapValuesM raised
    exact parseItem_error itemRaised
  · simp only [validateLifecycle] at raised
    split at raised
    · cases raised
    · cases raised
      exact ⟨_, rfl⟩

theorem requiredState_error {ledger : AtomicCostLedger} {file : SerializedState}
    {failure : CostLedgerError} (raised : ledger.requiredState file = .error failure) :
    (∃ message, failure = .corrupt message) ∨ ∃ message, failure = .configuration message := by
  rw [AtomicCostLedger.requiredState] at raised
  split at raised
  · exact .inl ⟨_, (Except.error.inj raised).symm⟩
  · cases accepted : validateState file with
    | error other =>
        rw [accepted] at raised
        cases raised
        exact .inl (validateState_error accepted)
    | ok result =>
        rw [accepted] at raised
        simp only at raised
        split at raised
        · cases raised
        · exact .inr ⟨_, (Except.error.inj raised).symm⟩

/-- A file can be used exactly when it is within the size bound and passes
validation. -/
theorem usable_iff (file : SerializedState) :
    Usable file ↔ stateBytes file ≤ maxStateBytes ∧
      ∃ cap entries, validateState file = .ok (cap, entries) := by
  constructor
  · rintro ⟨accepted, neverCorrupt⟩
    refine ⟨not_lt.mp fun oversized => ?_, accepted⟩
    apply neverCorrupt sampleLedger .snapshot "cost ledger exceeds the bounded state size"
    simp only [AtomicCostLedger.perform, map_eq_error_iff, AtomicCostLedger.snapshot,
      bind_eq_error_iff]
    exact .inl (by rw [AtomicCostLedger.requiredState, if_pos oversized])
  · rintro ⟨bounded, cap, entries, accepted⟩
    refine ⟨⟨cap, entries, accepted⟩, fun ledger operation message raised => ?_⟩
    have refused := requiredState_of_perform_corrupt raised
    rw [AtomicCostLedger.requiredState, if_neg (not_lt.mpr bounded), accepted] at refused
    simp only at refused
    split at refused <;> simp at refused

/-! ## The condition on a call -/

/-- A call that closes an active entry reads a clock that is not behind the
creation time of that entry. -/
def ClosesInOrder (ledger : AtomicCostLedger) (file : SerializedState) :
    LedgerOperation → Prop
  | .reconcile reservation actualCostUsd now =>
      ∀ entries actual current, ledger.requiredState file = .ok entries →
        validateActual actualCostUsd = .ok actual →
        matchingEntry entries reservation = .ok current → current.status = .reserved →
        current.createdAt ≤ now
  | .release reservation _ now =>
      ∀ entries current, ledger.requiredState file = .ok entries →
        matchingEntry entries reservation = .ok current → current.status = .reserved →
        current.createdAt ≤ now
  | .reserve .. => True
  | .activeReservation _ => True
  | .snapshot => True

/-- The state with the entry that a call writes stays within the bytes a reader
accepts. -/
def StaysBounded (ledger : AtomicCostLedger) (file : SerializedState)
    (operation : LedgerOperation) : Prop :=
  ∀ entries entry, ledger.requiredState file = .ok entries →
    EntryWrite ledger entries operation entry →
    stateBytes (serializeState ledger.capUsd (entries.insert entry.requestId entry)) ≤
      maxStateBytes

/-- A call that a reader of its write will not refuse. -/
def Careful (file : SerializedState) (call : AtomicCostLedger × LedgerOperation) : Prop :=
  ClosesInOrder call.1 file call.2 ∧ StaysBounded call.1 file call.2

/-- Every call of a history is careful in the state it is made in. -/
def AllCareful (file : SerializedState) : List (AtomicCostLedger × LedgerOperation) → Prop
  | [] => True
  | call :: history => Careful file call ∧ AllCareful (call.1.perform file call.2).file history

theorem EntryWrite.unique {ledger : AtomicCostLedger} {entries : Dict String CostEntry}
    {operation : LedgerOperation} {first second : CostEntry}
    (firstWrite : EntryWrite ledger entries operation first)
    (secondWrite : EntryWrite ledger entries operation second) : first = second := by
  cases firstWrite with
  | reserve _ firstValid _ _ _ =>
      cases secondWrite with
      | reserve _ secondValid _ _ _ =>
          cases firstValid.symm.trans secondValid
          rfl
  | reconcile firstValid firstMatching _ =>
      cases secondWrite with
      | reconcile secondValid secondMatching _ =>
          cases firstValid.symm.trans secondValid
          cases firstMatching.symm.trans secondMatching
          rfl
  | release firstMatching _ =>
      cases secondWrite with
      | release secondMatching _ =>
          cases firstMatching.symm.trans secondMatching
          rfl

/-- The timestamps of a written entry are in order exactly when the clock was. -/
theorem EntryWrite.timeOrdered_iff {ledger : AtomicCostLedger} {file : SerializedState}
    {entries : Dict String CostEntry} {operation : LedgerOperation} {entry : CostEntry}
    (write : EntryWrite ledger entries operation entry)
    (read : ledger.requiredState file = .ok entries) :
    TimeOrdered entry ↔ ClosesInOrder ledger file operation := by
  cases write with
  | reserve identifier valid absent noOverrun fits =>
      simp [TimeOrdered, reservedEntry, ClosesInOrder]
  | @reconcile reservation _ now actual current valid matching active =>
      constructor
      · intro ordered others _ other otherRead _ otherMatching _
        cases read.symm.trans otherRead
        cases matching.symm.trans otherMatching
        exact ordered
      · exact fun inOrder => inOrder entries actual current read valid matching active
  | @release reservation reason now current matching active =>
      constructor
      · intro ordered others other otherRead otherMatching _
        cases read.symm.trans otherRead
        cases matching.symm.trans otherMatching
        exact ordered
      · exact fun inOrder => inOrder entries current read matching active

theorem careful_of_no_write {file : SerializedState} {call : AtomicCostLedger × LedgerOperation}
    (noWrite : ¬ ∃ entries entry, call.1.requiredState file = .ok entries ∧
      EntryWrite call.1 entries call.2 entry) : Careful file call := by
  refine ⟨?_, fun entries entry read write => absurd ⟨entries, entry, read, write⟩ noWrite⟩
  obtain ⟨ledger, operation⟩ := call
  cases operation with
  | reconcile reservation actualCostUsd now =>
      exact fun entries actual current read valid matching active =>
        absurd ⟨entries, _, read, .reconcile valid matching active⟩ noWrite
  | release reservation reason now =>
      exact fun entries current read matching active =>
        absurd ⟨entries, _, read, .release matching active⟩ noWrite
  | reserve => trivial
  | activeReservation => trivial
  | snapshot => trivial

/-- From a file that can be used, a call leaves one that can be used exactly when
the call is careful. -/
theorem usable_perform_iff {file : SerializedState} (usable : Usable file)
    (call : AtomicCostLedger × LedgerOperation) :
    Usable (call.1.perform file call.2).file ↔ Careful file call := by
  by_cases write : ∃ entries entry, call.1.requiredState file = .ok entries ∧
      EntryWrite call.1 entries call.2 entry
  · obtain ⟨entries, entry, read, write⟩ := write
    obtain ⟨readCap, validated, -⟩ := exists_validatedFrom_of_requiredState read
    have nextWellFormed := validated.wellFormed.insert (write.wellFormed validated.wellFormed)
    have boundedIff : StaysBounded call.1 file call.2 ↔
        stateBytes (serializeState call.1.capUsd (entries.insert entry.requestId entry)) ≤
          maxStateBytes := by
      constructor
      · exact fun bounded => bounded entries entry read write
      · intro bounded others other otherRead otherWrite
        cases read.symm.trans otherRead
        cases write.unique otherWrite
        exact bounded
    rw [perform_of_entryWrite read write, usable_iff, Careful, boundedIff,
      validateState_serializeState_iff call.1.capUsd_money nextWellFormed,
      ← write.timeOrdered_iff read]
    constructor
    · rintro ⟨bounded, ordered⟩
      exact ⟨ordered _ _ (Dict.get?_insert_self _ _ _), bounded⟩
    · rintro ⟨ordered, bounded⟩
      refine ⟨bounded, fun key other stored => ?_⟩
      rw [Dict.get?_insert] at stored
      split at stored
      · cases stored
        exact ordered
      · exact validated.ordered key other stored
  · have same : (call.1.perform file call.2).file = file :=
      (perform_cases call.1 file call.2).resolve_right write
    rw [same]
    exact ⟨fun _ => careful_of_no_write write, fun _ => usable⟩

theorem usable_newState_iff (creator : AtomicCostLedger) :
    Usable (newState creator.capUsd) ↔ stateBytes (newState creator.capUsd) ≤ maxStateBytes := by
  have accepted := (validateState_serializeState_iff creator.capUsd_money
    wellFormedEntries_empty).mpr fun key entry stored => by simp at stored
  rw [usable_iff]
  exact ⟨fun usable => usable.1, fun bounded => ⟨bounded, accepted⟩⟩

/-- Every state along a history can be used exactly when every call was
careful. -/
theorem usable_along_iff {file : SerializedState} (usable : Usable file)
    (history : List (AtomicCostLedger × LedgerOperation)) :
    (∀ before, before <+: history → Usable (runLedger file before)) ↔ AllCareful file history := by
  induction history generalizing file with
  | nil =>
      constructor
      · exact fun _ => trivial
      · intro _ before isPrefix
        rw [List.prefix_nil.mp isPrefix]
        exact usable
  | cons call history ih =>
      rw [AllCareful, ← usable_perform_iff usable call]
      constructor
      · intro along
        have next : Usable (call.1.perform file call.2).file :=
          along [call] (List.prefix_cons_iff.mpr (.inr ⟨[], rfl, List.nil_prefix⟩))
        refine ⟨next, (ih next).mp fun before isPrefix => ?_⟩
        exact along (call :: before) ((List.prefix_cons_inj call).mpr isPrefix)
      · rintro ⟨next, careful⟩ before isPrefix
        rcases List.prefix_cons_iff.mp isPrefix with rfl | ⟨rest, rfl, restPrefix⟩
        · exact usable
        · exact (ih next).mpr careful rest restPrefix

/-- The ledger never bricks itself exactly when the file it starts with is within
the size bound and every call is careful: no closing call reads a clock behind
its entry's creation, and no write outgrows the bound. -/
theorem ledger_usable_iff (creator : AtomicCostLedger)
    (history : List (AtomicCostLedger × LedgerOperation)) :
    (∀ before, before <+: history → Usable (runLedger (newState creator.capUsd) before)) ↔
      stateBytes (newState creator.capUsd) ≤ maxStateBytes ∧
        AllCareful (newState creator.capUsd) history := by
  constructor
  · intro along
    have usable : Usable (newState creator.capUsd) := along [] List.nil_prefix
    exact ⟨(usable_newState_iff creator).mp usable, (usable_along_iff usable history).mp along⟩
  · rintro ⟨bounded, careful⟩
    exact (usable_along_iff ((usable_newState_iff creator).mpr bounded) history).mpr careful

/-- The file after a reservation was closed under a clock that went back. -/
def clockBehindFile : SerializedState :=
  runLedger (newState sampleLedger.capUsd) [sampleReserve 10, sampleReconcile 5]

/-- The closing call returns its entry, and every later call finds the file
corrupt. -/
theorem clock_behind_bricks :
    (sampleLedger.perform (runLedger (newState sampleLedger.capUsd) [sampleReserve 10])
      (sampleReconcile 5).2).result.toOption.isSome = true ∧
    (sampleLedger.perform clockBehindFile .snapshot).result =
      .error (.corrupt "cost ledger entry timestamp order is invalid") ∧
    ¬ Usable clockBehindFile := by
  have raised : (sampleLedger.perform clockBehindFile .snapshot).result =
      .error (.corrupt "cost ledger entry timestamp order is invalid") := by
    decide +kernel
  exact ⟨by decide +kernel, raised, fun usable => usable.neverCorrupt _ _ _ raised⟩

end CostLedger

end MmAudit
