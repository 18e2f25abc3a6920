import MmAudit.CostLedger.Admission

/-!
# The state round trip

A state is written as text: amounts positionally, enumeration members by their values, absent
fields as null.  Reading the text back returns the same cap and entries, except where the
reader's check of an amount rejects what is within the supported digits.
-/

namespace MmAudit

namespace CostLedger

open Fallible

/-! ## Documents -/

/-- One entry of the file with its enumeration members as text. -/
structure EntryDocument where
  requestId : String
  reservationId : String
  status : String
  reservedUsd : List Char
  actualCostUsd : Option (List Char)
  accountedCostUsd : List Char
  releaseReason : Option String
  createdAt : Timestamp
  updatedAt : Timestamp
deriving DecidableEq, Repr

structure StateDocument where
  capUsd : List Char
  entries : Dict String EntryDocument

/-- The member with a value, as `CostEntryStatus(value)` finds it. -/
def CostEntryStatus.ofText? (text : String) : Option CostEntryStatus :=
  [reserved, reconciled, released, uncertainAccounted, reservationOverrun].find? (·.text = text)

/-- The member with a value, as `ReleaseReason(value)` finds it. -/
def ReleaseReason.ofText? (text : String) : Option ReleaseReason :=
  [cancelledBeforeSend, failedBeforeSend].find? (·.text = text)

@[simp]
theorem CostEntryStatus.ofText?_text (status : CostEntryStatus) :
    ofText? status.text = some status := by
  cases status <;> decide

@[simp]
theorem ReleaseReason.ofText?_text (reason : ReleaseReason) :
    ofText? reason.text = some reason := by
  cases reason <;> decide

def SerializedEntry.document (entry : SerializedEntry) : EntryDocument where
  requestId := entry.requestId
  reservationId := entry.reservationId
  status := entry.status.text
  reservedUsd := entry.reservedUsd
  actualCostUsd := entry.actualCostUsd
  accountedCostUsd := entry.accountedCostUsd
  releaseReason := entry.releaseReason.map ReleaseReason.text
  createdAt := entry.createdAt
  updatedAt := entry.updatedAt

def SerializedState.document (state : SerializedState) : StateDocument where
  capUsd := state.capUsd
  entries := state.entries.mapValues SerializedEntry.document

/-- A member of an enumeration; an unknown value makes the whole entry invalid. -/
def parseMember {Member : Type} (ofText? : String → Option Member) (text : String) :
    Except CostLedgerError Member :=
  match ofText? text with
  | none => .error corruptValue
  | some member => .ok member

def parseReleaseReason : Option String → Except CostLedgerError (Option ReleaseReason)
  | none => .ok none
  | some text => some <$> parseMember ReleaseReason.ofText? text

/-- `_parse_entry` -/
def parseEntryDocument (document : EntryDocument) : Except CostLedgerError CostEntry := do
  raiseIf (¬ matchesRequestIdPattern document.requestId)
    (.corrupt "cost ledger request ID is invalid")
  raiseIf (¬ matchesReservationIdPattern document.reservationId)
    (.corrupt "cost ledger reservation ID is invalid")
  let status ← parseMember CostEntryStatus.ofText? document.status
  let reserved ← parseMoney document.reservedUsd "reserved_usd" true
  let accounted ← parseMoney document.accountedCostUsd "accounted_cost_usd" false
  let actual ← parseOptionalMoney document.actualCostUsd "actual_cost_usd"
  let releaseReason ← parseReleaseReason document.releaseReason
  raiseIf (document.updatedAt < document.createdAt)
    (.corrupt "cost ledger entry timestamp order is invalid")
  .ok {
    requestId := document.requestId
    reservationId := document.reservationId
    status := status
    reservedUsd := reserved
    actualCostUsd := actual
    accountedCostUsd := accounted
    releaseReason := releaseReason
    createdAt := document.createdAt
    updatedAt := document.updatedAt }

def parseItemDocument (key : String) (document : EntryDocument) :
    Except CostLedgerError CostEntry := do
  let entry ← parseEntryDocument document
  raiseIf (key ≠ entry.requestId)
    (.corrupt "cost ledger entry key does not match its request ID")
  .ok entry

/-- `_validate_state` -/
def validateStateDocument (document : StateDocument) :
    Except CostLedgerError (Decimal × Dict String CostEntry) := do
  let cap ← parseCap document.capUsd
  let entries ← document.entries.mapValuesM parseItemDocument
  validateLifecycle entries
  .ok (cap, entries)

theorem parseReleaseReason_text (reason : Option ReleaseReason) :
    parseReleaseReason (reason.map ReleaseReason.text) = .ok reason := by
  cases reason with
  | none => rfl
  | some reason => simp [parseReleaseReason, parseMember]

/-- The members of an entry are read back from their text. -/
theorem parseEntryDocument_document (entry : SerializedEntry) :
    parseEntryDocument entry.document = parseEntry entry := by
  have status : parseMember CostEntryStatus.ofText? entry.status.text = .ok entry.status := by
    simp [parseMember]
  simp only [parseEntryDocument, parseEntry, SerializedEntry.document, status,
    parseReleaseReason_text]
  rfl

theorem parseItemDocument_document (key : String) (entry : SerializedEntry) :
    parseItemDocument key entry.document = parseItem key entry := by
  rw [parseItemDocument, parseItem, parseEntryDocument_document]

theorem validateStateDocument_document (state : SerializedState) :
    validateStateDocument state.document = validateState state := by
  have entries : state.document.entries.mapValuesM parseItemDocument =
      state.entries.mapValuesM parseItem := by
    simp only [Dict.mapValuesM, SerializedState.document, Dict.mapValues, List.foldlM_map,
      parseItemDocument_document]
  rw [validateStateDocument, validateState, entries]
  rfl

/-! ## States of supported amounts -/

/-- What the claim asks of an entry besides its lifecycle. -/
structure SupportedEntry (entry : CostEntry) : Prop where
  requestId : matchesRequestIdPattern entry.requestId = true
  reservationId : matchesReservationIdPattern entry.reservationId = true
  reservedUsd : Admissible true entry.reservedUsd.value
  accountedCostUsd : Admissible false entry.accountedCostUsd.value
  actualCostUsd : ∀ actual, entry.actualCostUsd = some actual → Admissible false actual.value
  ordered : TimeOrdered entry

structure SupportedState (cap : Decimal) (entries : Dict String CostEntry) : Prop where
  cap : Admissible true cap.value
  entry : ∀ key entry, entries.get? key = some entry → SupportedEntry entry
  key : ∀ key entry, entries.get? key = some entry → key = entry.requestId
  lifecycle : validateLifecycle entries = .ok ()

/-- The written state is read as the same cap and the same entries. -/
def ReadsBack (cap : Decimal) (entries : Dict String CostEntry) : Prop :=
  ∃ readCap read, validateStateDocument (serializeState cap entries).document =
      .ok (readCap, read) ∧
    readCap.value = cap.value ∧
    ∀ key, Option.Rel SameEntry (read.get? key) (entries.get? key)

/-- No amount of an entry rounds up to a million million. -/
structure KeepsBelow (entry : CostEntry) : Prop where
  reservedUsd : ¬ RoundsOut entry.reservedUsd
  accountedCostUsd : ¬ RoundsOut entry.accountedCostUsd
  actualCostUsd : ∀ actual, entry.actualCostUsd = some actual → ¬ RoundsOut actual

theorem Admissible.nonneg {positive : Bool} {amount : ℚ}
    (admissible : Admissible positive amount) : 0 ≤ amount := by
  cases positive with
  | false => exact admissible.1
  | true => exact le_of_lt admissible.1

/-- Of the supported amounts, the reader accepts those that do not round out. -/
theorem Admissible.money_iff {positive : Bool} {number : Decimal}
    (admissible : Admissible positive number.value) : Money positive number ↔ ¬ RoundsOut number := by
  have notIn : ¬ RoundsIn number := fun into => into.1 admissible.2.1
  have agree := withinDecimalBounds_iff_boundedAmount admissible.nonneg
  constructor
  · intro money
    exact (agree.mp (iff_of_true money.2 admissible.2)).1
  · intro notOut
    exact ⟨admissible.1, (agree.mpr ⟨notOut, notIn⟩).mpr admissible.2⟩

theorem SupportedEntry.wellFormed {entry : CostEntry} (supported : SupportedEntry entry)
    (keeps : KeepsBelow entry) (lifecycle : lifecycleIsValid entry = true) : WellFormed entry where
  requestId := supported.requestId
  reservationId := supported.reservationId
  reservedUsd := supported.reservedUsd.money_iff.mpr keeps.reservedUsd
  accountedCostUsd := supported.accountedCostUsd.money_iff.mpr keeps.accountedCostUsd
  actualCostUsd := fun actual present =>
    (supported.actualCostUsd actual present).money_iff.mpr (keeps.actualCostUsd actual present)
  lifecycle := lifecycle

/-- A written amount that is read was within the reader's bounds. -/
theorem money_of_parseMoney {positive : Bool} {number amount : Decimal} {field : String}
    (nonneg : 0 ≤ number.value)
    (parsed : parseMoney (moneyText number) field positive = .ok amount) : Money positive number := by
  obtain ⟨money, valueEq⟩ := of_parseMoney parsed
  rw [textValue_moneyText nonneg] at valueEq
  exact money.congr valueEq

theorem SupportedEntry.keepsBelow {entry read : CostEntry} (supported : SupportedEntry entry)
    (parsed : parseEntry (serializeEntry entry) = .ok read) : KeepsBelow entry := by
  simp only [parseEntry, bind_eq_ok_iff] at parsed
  obtain ⟨_, _, _, _, reserved, reservedParsed, accounted, accountedParsed, actual, actualParsed,
    _⟩ := parsed
  refine ⟨supported.reservedUsd.money_iff.mp
      (money_of_parseMoney supported.reservedUsd.nonneg reservedParsed),
    supported.accountedCostUsd.money_iff.mp
      (money_of_parseMoney supported.accountedCostUsd.nonneg accountedParsed),
    fun amount present => ?_⟩
  have admissible := supported.actualCostUsd amount present
  simp only [serializeEntry, present, Option.map_some, parseOptionalMoney, map_eq_ok_iff]
    at actualParsed
  obtain ⟨number, numberParsed, -⟩ := actualParsed
  exact admissible.money_iff.mp (money_of_parseMoney admissible.nonneg numberParsed)

theorem lifecycleIsValid_of_stored {entries : Dict String CostEntry}
    (lifecycle : validateLifecycle entries = .ok ()) {key : String} {entry : CostEntry}
    (stored : entries.get? key = some entry) : lifecycleIsValid entry = true :=
  (validateLifecycle_eq_ok_iff entries).mp lifecycle entry (mem_values_iff.mpr ⟨key, stored⟩)

theorem SupportedState.wellFormedEntries {cap : Decimal} {entries : Dict String CostEntry}
    (supported : SupportedState cap entries)
    (keeps : ∀ key entry, entries.get? key = some entry → KeepsBelow entry) :
    WellFormedEntries entries where
  entry := fun key entry stored => (supported.entry key entry stored).wellFormed
    (keeps key entry stored) (lifecycleIsValid_of_stored supported.lifecycle stored)
  key := supported.key

theorem SupportedState.readsBack {cap : Decimal} {entries : Dict String CostEntry}
    (supported : SupportedState cap entries) (capKeeps : ¬ RoundsOut cap)
    (keeps : ∀ key entry, entries.get? key = some entry → KeepsBelow entry) :
    ReadsBack cap entries := by
  have capMoney := supported.cap.money_iff.mpr capKeeps
  have wellFormed := supported.wellFormedEntries keeps
  obtain ⟨readCap, read, accepted⟩ := (validateState_serializeState_iff capMoney wellFormed).mpr
    fun key entry stored => (supported.entry key entry stored).ordered
  have validated := validatedFrom_of_validateState accepted
  refine ⟨readCap, read, by rw [validateStateDocument_document, accepted], ?_, fun key => ?_⟩
  · rw [(parseCap_eq_ok validated.cap_parsed).2]
    exact textValue_moneyText capMoney.nonneg
  · cases writtenCase : entries.get? key with
    | some written =>
        obtain ⟨entry, stored, same⟩ := exists_read_of_validatedFrom wellFormed validated writtenCase
        rw [stored]
        exact .some same
    | none =>
        cases readCase : read.get? key with
        | none => exact .none
        | some entry =>
            obtain ⟨written, stored, -⟩ :=
              exists_written_of_validatedFrom wellFormed validated readCase
            rw [writtenCase] at stored
            cases stored

theorem SupportedState.keepsBelow {cap : Decimal} {entries : Dict String CostEntry}
    (supported : SupportedState cap entries) (readsBack : ReadsBack cap entries) :
    ¬ RoundsOut cap ∧ ∀ key entry, entries.get? key = some entry → KeepsBelow entry := by
  obtain ⟨readCap, read, accepted, -⟩ := readsBack
  rw [validateStateDocument_document] at accepted
  have validated := validatedFrom_of_validateState accepted
  constructor
  · obtain ⟨money, valueEq⟩ := parseCap_eq_ok validated.cap_parsed
    have written : textValue (serializeState cap entries).capUsd = cap.value :=
      textValue_moneyText supported.cap.nonneg
    exact supported.cap.money_iff.mp (money.congr (valueEq.trans written))
  · intro key entry stored
    have serializedStored : (serializeState cap entries).entries.get? key =
        some (serializeEntry entry) := by
      rw [get?_serializeState, stored, Option.map_some]
    obtain ⟨readEntry, parsed, -⟩ :=
      validated.maps.exists_mapped ((Dict.get?_eq_some_iff _ _ _).mp serializedStored)
    exact (supported.entry key entry stored).keepsBelow ((parseItem_eq_ok_iff _ _ _).mp parsed).1

/-- A supported state survives the round trip exactly when no amount of it rounds up to a
million million; the text of every accepted amount is read as that amount. -/
theorem state_round_trip_iff (cap : Decimal) (entries : Dict String CostEntry)
    (supported : SupportedState cap entries) :
    (ReadsBack cap entries ↔
      ¬ RoundsOut cap ∧ ∀ key entry, entries.get? key = some entry → KeepsBelow entry) ∧
    ∀ (number : Decimal) (field : String) (positive : Bool), Accepts number field positive →
      ∃ read, Decimal.parse (moneyText number) = some read ∧ read.value = number.value := by
  refine ⟨⟨supported.keepsBelow, fun keeps =>
    supported.readsBack keeps.1 keeps.2⟩, fun number field positive accepted => ?_⟩
  obtain ⟨amount, valid⟩ := accepted
  have money := (money_of_validateMoney valid).congr (value_of_validateMoney valid)
  exact exists_parse_moneyText money.nonneg

/-! ## Two states -/

/-- A state without entries whose cap is at the upper bound. -/
theorem edgeState_supported : SupportedState edgeAmount Dict.empty where
  cap := admissible_edgeAmount
  entry := fun _ _ stored => by simp at stored
  key := fun _ _ stored => by simp at stored
  lifecycle := rfl

theorem roundsOut_edgeAmount : RoundsOut edgeAmount := by
  refine ⟨Decimal.onGrid_value (by decide), ?_, ?_⟩ <;>
    norm_num [edgeAmount, Decimal.value, zpow_neg]

/-- The reader rejects a cap that is written with supported digits. -/
theorem edge_cap_is_not_read_back :
    SupportedState edgeAmount Dict.empty ∧ ¬ ReadsBack edgeAmount Dict.empty ∧
      ¬ ∀ (cap : Decimal) (entries : Dict String CostEntry), SupportedState cap entries →
        ReadsBack cap entries := by
  have notRead : ¬ ReadsBack edgeAmount Dict.empty := fun readsBack =>
    (edgeState_supported.keepsBelow readsBack).1 roundsOut_edgeAmount
  exact ⟨edgeState_supported, notRead, fun always => notRead (always _ _ edgeState_supported)⟩

theorem not_roundsOut_of_le {number : Decimal} (small : number.value ≤ 100) :
    ¬ RoundsOut number := by
  rintro ⟨-, least, -⟩
  norm_num at least
  linarith

theorem admissible_of_le {number : Decimal} (positive : 0 < number.value)
    (places : -18 ≤ number.exponent) (small : number.value ≤ 100) :
    Admissible true number.value :=
  ⟨positive, boundedAmount_of_decimal places (by
    rw [abs_of_pos positive]
    exact lt_of_le_of_lt small (by norm_num))⟩

/-- The entries with one half reserved. -/
def halfEntries : Dict String CostEntry :=
  Dict.empty.insert "request-1" halfEntry

theorem eq_of_halfEntries {key : String} {entry : CostEntry}
    (stored : halfEntries.get? key = some entry) : key = "request-1" ∧ entry = halfEntry := by
  rw [halfEntries, Dict.get?_insert] at stored
  split at stored
  · rename_i same
    exact ⟨same, (Option.some.inj stored).symm⟩
  · simp at stored

theorem halfState_supported : SupportedState ⟨25, 0⟩ halfEntries where
  cap := admissible_of_le (by norm_num [Decimal.value]) (by decide) (by norm_num [Decimal.value])
  entry := by
    intro key entry stored
    obtain ⟨-, rfl⟩ := eq_of_halfEntries stored
    have reserved : Admissible true halfEntry.reservedUsd.value :=
      admissible_of_le (by norm_num [halfEntry, Decimal.value, zpow_neg]) (by decide)
        (by norm_num [halfEntry, Decimal.value, zpow_neg])
    have accounted : Admissible false halfEntry.accountedCostUsd.value := by
      rw [show halfEntry.accountedCostUsd.value = 0 from Decimal.value_zero]
      exact ⟨le_rfl, Decimal.onGrid_zero _, by norm_num⟩
    exact ⟨by decide, by decide, reserved, accounted,
      fun _ present => (by cases present), le_rfl⟩
  key := fun key entry stored => by
    obtain ⟨rfl, rfl⟩ := eq_of_halfEntries stored
    rfl
  lifecycle := by decide

theorem halfState_read_back :
    ReadsBack ⟨25, 0⟩ halfEntries ∧
      ∃ read, Decimal.parse (moneyText ⟨5, -1⟩) = some read ∧
        read.value = (⟨5, -1⟩ : Decimal).value := by
  refine ⟨(state_round_trip_iff _ _ halfState_supported).1.mpr
    ⟨not_roundsOut_of_le (by norm_num [Decimal.value]), fun key entry stored => ?_⟩,
    (state_round_trip_iff _ _ halfState_supported).2 _ "reserved_usd" true
      ⟨⟨5, -1⟩, by decide +kernel⟩⟩
  obtain ⟨-, rfl⟩ := eq_of_halfEntries stored
  exact ⟨not_roundsOut_of_le (by norm_num [halfEntry, Decimal.value, zpow_neg]),
    not_roundsOut_of_le (by
      rw [show halfEntry.accountedCostUsd.value = 0 from Decimal.value_zero]
      norm_num), fun _ present => (nomatch present)⟩

end CostLedger

end MmAudit
