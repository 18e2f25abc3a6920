import MmAudit.CostLedger.Operations

/-!
# Reading back what the ledger wrote

The writer builds entries from validated values and the reader checks them
again from text.  This file shows that every check but one is re-established by
the round trip: money bounds depend only on the value of an amount, and the
lifecycle shape only compares values.  The remaining check is the order of the
two timestamps, which nothing on the writing side enforces.
-/

namespace MmAudit

namespace CostLedger

open Fallible

/-! ## Amounts -/

/-- An amount the ledger admits: the required sign, and within the supported
decimal bounds. -/
def Money (positive : Bool) (number : Decimal) : Prop :=
  (if positive then 0 < number.value else 0 ≤ number.value) ∧ withinDecimalBounds number = true

theorem withinDecimalBounds_congr {first second : Decimal}
    (equal : first.value = second.value) :
    withinDecimalBounds first = withinDecimalBounds second := by
  rw [withinDecimalBounds, withinDecimalBounds,
    Decimal.normalize_congr defaultContext equal]

theorem Money.congr {positive : Bool} {first second : Decimal} (money : Money positive first)
    (equal : first.value = second.value) : Money positive second :=
  ⟨equal ▸ money.1, withinDecimalBounds_congr equal ▸ money.2⟩

theorem Money.nonneg {positive : Bool} {number : Decimal} (money : Money positive number) :
    0 ≤ number.value := by
  cases positive with
  | false => exact money.1
  | true => exact le_of_lt money.1

theorem Money.pos {number : Decimal} (money : Money true number) : 0 < number.value :=
  money.1

theorem Money.weaken {positive : Bool} {number : Decimal} (money : Money positive number) :
    Money false number :=
  ⟨money.nonneg, money.2⟩

theorem money_zero : Money false 0 :=
  ⟨by simp, by decide⟩

theorem value_zeroed (number : Decimal) :
    (if number.SameValue 0 then 0 else number).value = number.value := by
  split
  · rename_i zero
    exact ((Decimal.sameValue_iff _ _).mp zero).symm
  · rfl

theorem validateMoney_eq_ok_iff (argument : DecimalArgument) (field : String) (positive : Bool)
    (amount : Decimal) :
    validateMoney argument field positive = .ok amount ↔
      ∃ number, argument = .finite number ∧
        amount = (if number.SameValue 0 then 0 else number) ∧ Money positive amount := by
  cases argument with
  | infinite => simp [validateMoney]
  | notANumber => simp [validateMoney]
  | finite number =>
      simp only [validateMoney, DecimalArgument.finite.injEq, exists_eq_left']
      rw [guard_eq_ok_iff, require_eq_ok_iff, Except.ok.injEq]
      set zeroed := if number.SameValue 0 then 0 else number with zeroedDef
      have valueEq : zeroed.value = number.value := value_zeroed number
      have signIff : ¬ (if positive = true then number ≤ 0 else number < 0) ↔
          (if positive then 0 < zeroed.value else 0 ≤ zeroed.value) := by
        cases positive <;>
          simp [Decimal.le_iff_value_le, Decimal.lt_iff_value_lt, valueEq]
      rw [signIff]
      constructor
      · rintro ⟨sign, bounds, rfl⟩
        exact ⟨rfl, sign, bounds⟩
      · rintro ⟨rfl, sign, bounds⟩
        exact ⟨sign, bounds, rfl⟩

theorem money_of_validateMoney {argument : DecimalArgument} {field : String} {positive : Bool}
    {amount : Decimal} (accepted : validateMoney argument field positive = .ok amount) :
    Money positive amount := by
  obtain ⟨_, -, -, money⟩ := (validateMoney_eq_ok_iff _ _ _ _).mp accepted
  exact money

theorem value_of_validateMoney {number : Decimal} {field : String} {positive : Bool}
    {amount : Decimal} (accepted : validateMoney (.finite number) field positive = .ok amount) :
    amount.value = number.value := by
  obtain ⟨other, argumentEq, rfl, -⟩ := (validateMoney_eq_ok_iff _ _ _ _).mp accepted
  cases argumentEq
  exact value_zeroed number

/-- Admission depends only on the value of an amount. -/
theorem exists_validateMoney {positive : Bool} {number : Decimal} (money : Money positive number)
    (field : String) :
    ∃ amount, validateMoney (.finite number) field positive = .ok amount ∧
      amount.value = number.value :=
  ⟨_, (validateMoney_eq_ok_iff _ _ _ _).mpr
    ⟨number, rfl, rfl, money.congr (value_zeroed number).symm⟩, value_zeroed number⟩

theorem parse_nil : Decimal.parse [] = none := by
  decide

theorem exists_parse_moneyText {number : Decimal} (nonneg : 0 ≤ number.value) :
    ∃ read : Decimal, Decimal.parse (moneyText number) = some read ∧
      read.value = number.value := by
  obtain ⟨read, parsed, valueEq⟩ := Decimal.exists_parse_trimFraction_fixedPoint
    ((Decimal.value_nonneg_iff number).mp nonneg)
  have nonempty : (Decimal.trimFraction number.fixedPoint).isEmpty = false := by
    cases shape : Decimal.trimFraction number.fixedPoint with
    | nil =>
        rw [shape, parse_nil] at parsed
        cases parsed
    | cons first rest => rfl
  refine ⟨read, ?_, valueEq⟩
  simp only [moneyText, nonempty]
  exact parsed

theorem exists_parseMoney {positive : Bool} {number : Decimal} (money : Money positive number)
    (field : String) :
    ∃ amount, parseMoney (moneyText number) field positive = .ok amount ∧
      amount.value = number.value := by
  obtain ⟨read, parsed, readValue⟩ := exists_parse_moneyText money.nonneg
  obtain ⟨amount, accepted, amountValue⟩ :=
    exists_validateMoney (money.congr readValue.symm) field
  exact ⟨amount, by simp only [parseMoney, parsed, accepted], amountValue.trans readValue⟩

/-- The value of a money text, zero when it is not a number. -/
def textValue (text : List Char) : ℚ :=
  (Decimal.parse text).elim 0 Decimal.value

theorem textValue_moneyText {number : Decimal} (nonneg : 0 ≤ number.value) :
    textValue (moneyText number) = number.value := by
  obtain ⟨read, parsed, valueEq⟩ := exists_parse_moneyText nonneg
  simp only [textValue, parsed, Option.elim_some, valueEq]

theorem of_parseMoney {text : List Char} {field : String} {positive : Bool} {amount : Decimal}
    (accepted : parseMoney text field positive = .ok amount) :
    Money positive amount ∧ amount.value = textValue text := by
  simp only [parseMoney] at accepted
  split at accepted
  · cases accepted
  · rename_i number parsed
    split at accepted
    · rename_i other valid
      cases accepted
      refine ⟨money_of_validateMoney valid, ?_⟩
      rw [value_of_validateMoney valid, textValue, parsed, Option.elim_some]
    · cases accepted

/-! ## Entries -/

/-- Two entries that differ only in how their amounts are written. -/
structure SameEntry (first second : CostEntry) : Prop where
  requestId : first.requestId = second.requestId
  reservationId : first.reservationId = second.reservationId
  status : first.status = second.status
  reservedUsd : first.reservedUsd.value = second.reservedUsd.value
  actualCostUsd : first.actualCostUsd.map Decimal.value = second.actualCostUsd.map Decimal.value
  accountedCostUsd : first.accountedCostUsd.value = second.accountedCostUsd.value
  releaseReason : first.releaseReason = second.releaseReason
  createdAt : first.createdAt = second.createdAt
  updatedAt : first.updatedAt = second.updatedAt

/-- Everything the reader requires of an entry, except the order of its
timestamps. -/
structure WellFormed (entry : CostEntry) : Prop where
  requestId : matchesRequestIdPattern entry.requestId = true
  reservationId : matchesReservationIdPattern entry.reservationId = true
  reservedUsd : Money true entry.reservedUsd
  accountedCostUsd : Money false entry.accountedCostUsd
  actualCostUsd : ∀ actual, entry.actualCostUsd = some actual → Money false actual
  lifecycle : lifecycleIsValid entry = true

def TimeOrdered (entry : CostEntry) : Prop :=
  entry.createdAt ≤ entry.updatedAt

theorem lifecycleIsValid_congr {first second : CostEntry} (same : SameEntry first second) :
    lifecycleIsValid first = lifecycleIsValid second := by
  have actualEq := same.actualCostUsd
  simp only [lifecycleIsValid, same.status, same.releaseReason]
  cases firstActual : first.actualCostUsd <;> cases secondActual : second.actualCostUsd <;>
    simp only [firstActual, secondActual, Option.map_none, Option.map_some, reduceCtorEq,
      Option.some.injEq] at actualEq <;>
    cases second.status <;>
    simp only [Option.isNone_none, Option.isNone_some, Decimal.sameValue_iff,
      Decimal.le_iff_value_le, Decimal.lt_iff_value_lt, same.accountedCostUsd,
      same.reservedUsd, actualEq]

theorem exists_parseOptionalMoney {number : Option Decimal}
    (money : ∀ actual, number = some actual → Money false actual) (field : String) :
    ∃ amount, parseOptionalMoney (number.map moneyText) field = .ok amount ∧
      amount.map Decimal.value = number.map Decimal.value := by
  cases number with
  | none => exact ⟨none, rfl, rfl⟩
  | some actual =>
      obtain ⟨amount, parsed, valueEq⟩ := exists_parseMoney (money actual rfl) field
      refine ⟨some amount, ?_, congrArg some valueEq⟩
      simp only [Option.map_some, parseOptionalMoney, parsed]
      rfl

/-- A well-formed entry is read back unless its timestamps are out of order. -/
theorem exists_parseEntry {entry : CostEntry} (wellFormed : WellFormed entry)
    (ordered : TimeOrdered entry) :
    ∃ read, parseEntry (serializeEntry entry) = .ok read ∧ SameEntry read entry := by
  obtain ⟨reserved, reservedParsed, reservedValue⟩ :=
    exists_parseMoney wellFormed.reservedUsd "reserved_usd"
  obtain ⟨accounted, accountedParsed, accountedValue⟩ :=
    exists_parseMoney wellFormed.accountedCostUsd "accounted_cost_usd"
  obtain ⟨actual, actualParsed, actualValue⟩ :=
    exists_parseOptionalMoney wellFormed.actualCostUsd "actual_cost_usd"
  refine ⟨{ entry with reservedUsd := reserved, accountedCostUsd := accounted,
                       actualCostUsd := actual }, ?_, ?_⟩
  · simp only [parseEntry, serializeEntry, bind_eq_ok_iff]
    exact ⟨(), raiseIf_eq_ok_iff.mpr (not_not.mpr wellFormed.requestId),
      (), raiseIf_eq_ok_iff.mpr (not_not.mpr wellFormed.reservationId),
      reserved, reservedParsed, accounted, accountedParsed, actual, actualParsed,
      (), raiseIf_eq_ok_iff.mpr (not_lt.mpr ordered), rfl⟩
  · exact ⟨rfl, rfl, rfl, reservedValue, actualValue, accountedValue, rfl, rfl, rfl⟩

/-- What an entry that was read says about its text. -/
structure ReadFrom (serialized : SerializedEntry) (entry : CostEntry) : Prop where
  requestId : entry.requestId = serialized.requestId
  reservationId : entry.reservationId = serialized.reservationId
  status : entry.status = serialized.status
  reservedUsd : entry.reservedUsd.value = textValue serialized.reservedUsd
  accountedCostUsd : entry.accountedCostUsd.value = textValue serialized.accountedCostUsd
  actualCostUsd :
    entry.actualCostUsd.map Decimal.value = serialized.actualCostUsd.map textValue
  releaseReason : entry.releaseReason = serialized.releaseReason
  createdAt : entry.createdAt = serialized.createdAt
  updatedAt : entry.updatedAt = serialized.updatedAt
  ordered : TimeOrdered entry
  requestIdPattern : matchesRequestIdPattern entry.requestId = true
  reservationIdPattern : matchesReservationIdPattern entry.reservationId = true
  reservedMoney : Money true entry.reservedUsd
  accountedMoney : Money false entry.accountedCostUsd
  actualMoney : ∀ actual, entry.actualCostUsd = some actual → Money false actual

theorem of_parseOptionalMoney {text : Option (List Char)} {field : String}
    {amount : Option Decimal} (accepted : parseOptionalMoney text field = .ok amount) :
    (∀ actual, amount = some actual → Money false actual) ∧
      amount.map Decimal.value = text.map textValue := by
  cases text with
  | none =>
      obtain rfl := Except.ok.inj accepted
      exact ⟨fun actual impossible => (nomatch impossible), rfl⟩
  | some text =>
      simp only [parseOptionalMoney, map_eq_ok_iff] at accepted
      obtain ⟨number, parsed, rfl⟩ := accepted
      obtain ⟨money, valueEq⟩ := of_parseMoney parsed
      refine ⟨fun actual same => ?_, congrArg some valueEq⟩
      cases same
      exact money

theorem readFrom_of_parseEntry {serialized : SerializedEntry} {entry : CostEntry}
    (parsed : parseEntry serialized = .ok entry) : ReadFrom serialized entry := by
  simp only [parseEntry, bind_eq_ok_iff] at parsed
  obtain ⟨_, requestId, _, reservationId, reserved, reservedParsed, accounted, accountedParsed,
    actual, actualParsed, _, ordered, entryEq⟩ := parsed
  obtain ⟨reservedMoney, reservedValue⟩ := of_parseMoney reservedParsed
  obtain ⟨accountedMoney, accountedValue⟩ := of_parseMoney accountedParsed
  obtain ⟨actualMoney, actualValue⟩ := of_parseOptionalMoney actualParsed
  cases entryEq
  exact ⟨rfl, rfl, rfl, reservedValue, accountedValue, actualValue, rfl, rfl, rfl,
    not_lt.mp (raiseIf_eq_ok_iff.mp ordered), not_not.mp (raiseIf_eq_ok_iff.mp requestId),
    not_not.mp (raiseIf_eq_ok_iff.mp reservationId),
    reservedMoney, accountedMoney, actualMoney⟩

/-! ## States -/

/-- The entries of a state as a writer may hold them: every entry is well
formed and stored under its own request ID. -/
structure WellFormedEntries (entries : Dict String CostEntry) : Prop where
  entry : ∀ key entry, entries.get? key = some entry → WellFormed entry
  key : ∀ key entry, entries.get? key = some entry → key = entry.requestId

theorem wellFormedEntries_empty : WellFormedEntries Dict.empty :=
  ⟨fun _ _ stored => by simp at stored, fun _ _ stored => by simp at stored⟩

theorem WellFormedEntries.insert {entries : Dict String CostEntry}
    (wellFormed : WellFormedEntries entries) {entry : CostEntry}
    (entryWellFormed : WellFormed entry) :
    WellFormedEntries (entries.insert entry.requestId entry) := by
  constructor
  · intro key other stored
    rw [Dict.get?_insert] at stored
    split at stored
    · cases stored
      exact entryWellFormed
    · exact wellFormed.entry key other stored
  · intro key other stored
    rw [Dict.get?_insert] at stored
    split at stored
    · rename_i same
      cases stored
      exact same
    · exact wellFormed.key key other stored

theorem validateLifecycle_eq_ok_iff (entries : Dict String CostEntry) :
    validateLifecycle entries = .ok () ↔
      ∀ entry ∈ entries.values, lifecycleIsValid entry = true := by
  simp only [validateLifecycle]
  cases found : entries.values.find? fun entry => !lifecycleIsValid entry with
  | none => simpa using found
  | some entry =>
      have invalid := List.find?_some found
      have member := List.mem_of_find?_eq_some found
      simp only [reduceCtorEq, false_iff, not_forall]
      exact ⟨entry, member, by simpa using invalid⟩

theorem mem_values_iff {entries : Dict String CostEntry} {entry : CostEntry} :
    entry ∈ entries.values ↔ ∃ key, entries.get? key = some entry := by
  simp only [Dict.values, List.mem_map, Dict.get?_eq_some_iff]
  constructor
  · rintro ⟨⟨key, stored⟩, member, rfl⟩
    exact ⟨key, member⟩
  · rintro ⟨key, member⟩
    exact ⟨(key, entry), member, rfl⟩

theorem parseItem_eq_ok_iff (key : String) (serialized : SerializedEntry) (entry : CostEntry) :
    parseItem key serialized = .ok entry ↔
      parseEntry serialized = .ok entry ∧ key = entry.requestId := by
  simp only [parseItem, bind_eq_ok_iff, Except.ok.injEq]
  constructor
  · rintro ⟨read, parsed, _, keyEq, rfl⟩
    exact ⟨parsed, not_not.mp (raiseIf_eq_ok_iff.mp keyEq)⟩
  · rintro ⟨parsed, keyEq⟩
    exact ⟨entry, parsed, (), raiseIf_eq_ok_iff.mpr (not_not.mpr keyEq), rfl⟩

/-- What a validated state is. -/
structure ValidatedFrom (state : SerializedState) (cap : Decimal)
    (entries : Dict String CostEntry) : Prop where
  cap_parsed : parseCap state.capUsd = .ok cap
  maps : Dict.MapsTo parseItem state.entries.items entries.items
  wellFormed : WellFormedEntries entries
  ordered : ∀ key entry, entries.get? key = some entry → TimeOrdered entry

theorem validatedFrom_of_validateState {state : SerializedState} {cap : Decimal}
    {entries : Dict String CostEntry} (accepted : validateState state = .ok (cap, entries)) :
    ValidatedFrom state cap entries := by
  simp only [validateState, bind_eq_ok_iff, Except.ok.injEq, Prod.mk.injEq] at accepted
  obtain ⟨readCap, capParsed, readEntries, mapped, _, lifecycle, rfl, rfl⟩ := accepted
  rw [Dict.mapValuesM_eq_ok_iff] at mapped
  rw [validateLifecycle_eq_ok_iff] at lifecycle
  have reads : ∀ key entry, readEntries.get? key = some entry →
      ∃ serialized, parseEntry serialized = .ok entry ∧ key = entry.requestId := by
    intro key entry stored
    obtain ⟨serialized, -, itemParsed⟩ :=
      mapped.exists_original ((Dict.get?_eq_some_iff _ _ _).mp stored)
    exact ⟨serialized, (parseItem_eq_ok_iff _ _ _).mp itemParsed⟩
  refine ⟨capParsed, mapped, ⟨fun key entry stored => ?_, fun key entry stored => ?_⟩,
    fun key entry stored => ?_⟩
  · obtain ⟨serialized, parsed, -⟩ := reads key entry stored
    have read := readFrom_of_parseEntry parsed
    exact ⟨read.requestIdPattern, read.reservationIdPattern, read.reservedMoney,
      read.accountedMoney, read.actualMoney,
      lifecycle entry (mem_values_iff.mpr ⟨key, stored⟩)⟩
  · obtain ⟨serialized, -, keyEq⟩ := reads key entry stored
    exact keyEq
  · obtain ⟨serialized, parsed, -⟩ := reads key entry stored
    exact (readFrom_of_parseEntry parsed).ordered

theorem exists_parseCap {cap : Decimal} (money : Money true cap) :
    ∃ read, parseCap (moneyText cap) = .ok read ∧ read.value = cap.value := by
  obtain ⟨number, parsed, numberValue⟩ := exists_parse_moneyText money.nonneg
  obtain ⟨read, accepted, readValue⟩ :=
    exists_validateMoney (money.congr numberValue.symm) "cap_usd"
  exact ⟨read, by simp only [parseCap, parsed, accepted], readValue.trans numberValue⟩

theorem parseCap_eq_ok {text : List Char} {cap : Decimal} (parsed : parseCap text = .ok cap) :
    Money true cap ∧ cap.value = textValue text := by
  simp only [parseCap] at parsed
  split at parsed
  · cases parsed
  · rename_i number numberParsed
    split at parsed
    · rename_i other valid
      cases parsed
      refine ⟨money_of_validateMoney valid, ?_⟩
      rw [value_of_validateMoney valid, textValue, numberParsed, Option.elim_some]
    · cases parsed

theorem get?_serializeState (cap : Decimal) (entries : Dict String CostEntry) (key : String) :
    (serializeState cap entries).entries.get? key =
      (entries.get? key).map serializeEntry := by
  simp [serializeState]

theorem ReadFrom.sameEntry {entry read : CostEntry} (from' : ReadFrom (serializeEntry entry) read)
    (wellFormed : WellFormed entry) : SameEntry read entry where
  requestId := from'.requestId
  reservationId := from'.reservationId
  status := from'.status
  reservedUsd := from'.reservedUsd.trans (textValue_moneyText wellFormed.reservedUsd.nonneg)
  accountedCostUsd :=
    from'.accountedCostUsd.trans (textValue_moneyText wellFormed.accountedCostUsd.nonneg)
  actualCostUsd := by
    have readValue := from'.actualCostUsd
    cases actualEq : entry.actualCostUsd with
    | none => simpa [serializeEntry, actualEq] using readValue
    | some actual =>
        have money := wellFormed.actualCostUsd actual actualEq
        simpa [serializeEntry, actualEq, textValue_moneyText money.nonneg] using readValue
  releaseReason := from'.releaseReason
  createdAt := from'.createdAt
  updatedAt := from'.updatedAt

/-- Reading a written state gives the written entries back, entry by entry. -/
theorem exists_written_of_validatedFrom {cap readCap : Decimal}
    {entries read : Dict String CostEntry} (wellFormed : WellFormedEntries entries)
    (validated : ValidatedFrom (serializeState cap entries) readCap read)
    {key : String} {entry : CostEntry} (stored : read.get? key = some entry) :
    ∃ written, entries.get? key = some written ∧ SameEntry entry written := by
  obtain ⟨serialized, member, parsed⟩ :=
    validated.maps.exists_original ((Dict.get?_eq_some_iff _ _ _).mp stored)
  have serializedStored := (Dict.get?_eq_some_iff _ _ _).mpr member
  rw [get?_serializeState, Option.map_eq_some_iff] at serializedStored
  obtain ⟨written, writtenStored, rfl⟩ := serializedStored
  have entryParsed := ((parseItem_eq_ok_iff _ _ _).mp parsed).1
  exact ⟨written, writtenStored,
    (readFrom_of_parseEntry entryParsed).sameEntry (wellFormed.entry _ _ writtenStored)⟩

theorem exists_read_of_validatedFrom {cap readCap : Decimal}
    {entries read : Dict String CostEntry} (wellFormed : WellFormedEntries entries)
    (validated : ValidatedFrom (serializeState cap entries) readCap read)
    {key : String} {written : CostEntry} (stored : entries.get? key = some written) :
    ∃ entry, read.get? key = some entry ∧ SameEntry entry written := by
  have serializedStored :
      (serializeState cap entries).entries.get? key = some (serializeEntry written) := by
    rw [get?_serializeState, stored, Option.map_some]
  obtain ⟨entry, parsed, member⟩ :=
    validated.maps.exists_mapped ((Dict.get?_eq_some_iff _ _ _).mp serializedStored)
  have entryParsed := ((parseItem_eq_ok_iff _ _ _).mp parsed).1
  exact ⟨entry, (Dict.get?_eq_some_iff _ _ _).mpr member,
    (readFrom_of_parseEntry entryParsed).sameEntry (wellFormed.entry _ _ stored)⟩

/-- A written state is accepted when read exactly if the timestamps of every
entry are in order. -/
theorem validateState_serializeState_iff {cap : Decimal} {entries : Dict String CostEntry}
    (capMoney : Money true cap) (wellFormed : WellFormedEntries entries) :
    (∃ readCap read, validateState (serializeState cap entries) = .ok (readCap, read)) ↔
      ∀ key entry, entries.get? key = some entry → TimeOrdered entry := by
  constructor
  · rintro ⟨readCap, read, accepted⟩ key written stored
    have validated := validatedFrom_of_validateState accepted
    obtain ⟨entry, entryStored, same⟩ := exists_read_of_validatedFrom wellFormed validated stored
    have ordered := validated.ordered key entry entryStored
    rwa [TimeOrdered, same.createdAt, same.updatedAt] at ordered
  · intro ordered
    obtain ⟨readCap, capParsed, -⟩ := exists_parseCap capMoney
    obtain ⟨read, mapped⟩ := Dict.exists_mapValuesM parseItem
      (serializeState cap entries).entries fun key serialized stored => by
        rw [get?_serializeState, Option.map_eq_some_iff] at stored
        obtain ⟨written, writtenStored, rfl⟩ := stored
        obtain ⟨entry, parsed, same⟩ := exists_parseEntry
          (wellFormed.entry _ _ writtenStored) (ordered _ _ writtenStored)
        have keyEq := (wellFormed.key _ _ writtenStored).trans same.requestId.symm
        exact ⟨entry, (parseItem_eq_ok_iff _ _ _).mpr ⟨parsed, keyEq⟩⟩
    have lifecycle : validateLifecycle read = .ok () := by
      rw [validateLifecycle_eq_ok_iff]
      intro entry member
      obtain ⟨key, stored⟩ := mem_values_iff.mp member
      have maps := (Dict.mapValuesM_eq_ok_iff _ _).mp mapped
      obtain ⟨serialized, serializedMem, parsed⟩ :=
        maps.exists_original ((Dict.get?_eq_some_iff _ _ _).mp stored)
      have serializedStored := (Dict.get?_eq_some_iff _ _ _).mpr serializedMem
      rw [get?_serializeState, Option.map_eq_some_iff] at serializedStored
      obtain ⟨written, writtenStored, rfl⟩ := serializedStored
      have writtenWellFormed := wellFormed.entry _ _ writtenStored
      have entryParsed := ((parseItem_eq_ok_iff _ _ _).mp parsed).1
      have same := (readFrom_of_parseEntry entryParsed).sameEntry writtenWellFormed
      rw [lifecycleIsValid_congr same]
      exact writtenWellFormed.lifecycle
    refine ⟨readCap, read, ?_⟩
    simp only [validateState, bind_eq_ok_iff]
    exact ⟨readCap, capParsed, read, mapped, (), lifecycle, rfl⟩

end CostLedger

end MmAudit
