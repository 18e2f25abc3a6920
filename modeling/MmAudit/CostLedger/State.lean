import MmAudit.Library.DecimalText
import MmAudit.Library.Dict
import MmAudit.Library.Fallible

/-!
# The persisted cost ledger

The ledger file records one entry per provider request: the identifiers, the
lifecycle status, money as positional decimal text, and two UTC timestamps.
This file translates the data model of `orchestration/cost_ledger.py`, how a
state is serialized, and the checks a reader applies before it trusts a state.

Two simplifications concern the JSON envelope only.  Enumeration members stand
for their string values, and a timestamp is a number of microseconds instead of
its ISO text; the length of both texts is kept for the bound on the file size.
-/

namespace MmAudit

namespace CostLedger

open Fallible

/-- Persisted lifecycle state for one unique provider request. -/
inductive CostEntryStatus
  | reserved
  | reconciled
  | released
  | uncertainAccounted
  | reservationOverrun
deriving DecidableEq, Repr

/-- Closed release reasons that cannot carry arbitrary text. -/
inductive ReleaseReason
  | cancelledBeforeSend
  | failedBeforeSend
deriving DecidableEq, Repr

/-- The failures of the ledger, each with its message. -/
inductive CostLedgerError
  | budgetExceeded (message : String)
  | configuration (message : String)
  | corrupt (message : String)
  | reservationState (message : String)
  | reservationOverrun (message : String)
deriving DecidableEq, Repr

/-- A `Decimal` as a caller may pass it, with the values that are not finite. -/
inductive DecimalArgument
  | finite (number : Decimal)
  | infinite
  | notANumber
deriving DecidableEq, Repr

/-- Microseconds of UTC time. -/
abbrev Timestamp := ℤ

/-- Opaque handle for one active maximum-cost reservation. -/
structure CostReservation where
  requestId : String
  reservationId : String
  reservedUsd : Decimal
deriving DecidableEq, Repr

/-- Validated state for one request. -/
structure CostEntry where
  requestId : String
  reservationId : String
  status : CostEntryStatus
  reservedUsd : Decimal
  actualCostUsd : Option Decimal
  accountedCostUsd : Decimal
  releaseReason : Option ReleaseReason
  createdAt : Timestamp
  updatedAt : Timestamp
deriving DecidableEq, Repr

/-- One entry as the file holds it, with money as text. -/
structure SerializedEntry where
  requestId : String
  reservationId : String
  status : CostEntryStatus
  reservedUsd : List Char
  actualCostUsd : Option (List Char)
  accountedCostUsd : List Char
  releaseReason : Option ReleaseReason
  createdAt : Timestamp
  updatedAt : Timestamp
deriving DecidableEq, Repr

/-- The content of the ledger file. -/
structure SerializedState where
  capUsd : List Char
  entries : Dict String SerializedEntry

def maxDecimalPlaces : ℤ := 18

def maxIntegerDigits : ℤ := 12

def maxStateBytes : ℕ := 16 * 1024 * 1024

/-- The decimal context a process starts with: 28 digits, least normal exponent
`-999999`. -/
def defaultContext : Decimal.Context where
  precision := 28
  etiny := -1000026
  precision_pos := by norm_num

/-- The context of `_snapshot`, with its precision raised to 64 digits. -/
def snapshotContext : Decimal.Context where
  precision := 64
  etiny := -1000062
  precision_pos := by norm_num

/-! ## Field checks -/

def isRequestIdCharacter (character : Char) : Bool :=
  character.isAlphanum || character == '.' || character == '_' || character == ':' ||
    character == '-'

/-- The pattern `[A-Za-z0-9][A-Za-z0-9._:-]{0,127}`. -/
def matchesRequestIdPattern (identifier : String) : Bool :=
  match identifier.toList with
  | [] => false
  | first :: rest => first.isAlphanum && rest.length ≤ 127 && rest.all isRequestIdCharacter

/-- The pattern `[0-9a-f]{32}`. -/
def matchesReservationIdPattern (identifier : String) : Bool :=
  identifier.toList.length == 32 &&
    identifier.toList.all fun character =>
      character.isDigit || ('a' ≤ character && character ≤ 'f')

/-- The hexadecimal text of a random UUID. -/
abbrev FreshReservationId :=
  { identifier : String // matchesReservationIdPattern identifier = true }

def validateRequestId (identifier : String) : Except CostLedgerError Unit :=
  if matchesRequestIdPattern identifier then
    .ok ()
  else
    .error (.configuration
      "request ID must be 1-128 restricted non-secret identifier characters")

/-- Decimal places and integer digits of an amount, counted after it has been
normalized in the default context. -/
def withinDecimalBounds (number : Decimal) : Bool :=
  let normalized := defaultContext.normalize number
  let decimalPlaces := max 0 (-normalized.exponent)
  let integerDigits :=
    max 1 ((Decimal.numDigits normalized.coefficient.natAbs : ℤ) + normalized.exponent)
  decimalPlaces ≤ maxDecimalPlaces && integerDigits ≤ maxIntegerDigits

def validateMoney (argument : DecimalArgument) (field : String) (positive : Bool) :
    Except CostLedgerError Decimal :=
  let qualifier := if positive then "positive" else "non-negative"
  let notFinite : CostLedgerError :=
    .configuration s!"{field} must be a finite {qualifier} Decimal"
  match argument with
  | .finite number =>
      if (if positive then number ≤ 0 else number < 0) then
        .error notFinite
      else
        let number := if number.SameValue 0 then 0 else number
        -- The check reads the rounded form, but the number is returned as given.
        if withinDecimalBounds number then
          .ok number
        else
          .error (.configuration s!"{field} exceeds supported exact decimal bounds")
  | .infinite => .error notFinite
  | .notANumber => .error notFinite

/-! ## Serialization -/

def moneyText (number : Decimal) : List Char :=
  let material := Decimal.trimFraction number.fixedPoint
  if material.isEmpty then ['0'] else material

def serializeEntry (entry : CostEntry) : SerializedEntry where
  requestId := entry.requestId
  reservationId := entry.reservationId
  status := entry.status
  reservedUsd := moneyText entry.reservedUsd
  actualCostUsd := entry.actualCostUsd.map moneyText
  accountedCostUsd := moneyText entry.accountedCostUsd
  releaseReason := entry.releaseReason
  createdAt := entry.createdAt
  updatedAt := entry.updatedAt

def newState (cap : Decimal) : SerializedState where
  capUsd := moneyText cap
  entries := Dict.empty

def serializeState (cap : Decimal) (entries : Dict String CostEntry) : SerializedState where
  capUsd := moneyText cap
  entries := (entries.mapValues serializeEntry).sorted

/-! ## Validation of a state that was read -/

def corruptValue : CostLedgerError :=
  .corrupt "cost ledger entry value is invalid"

/-- A money field of the file: text that is not a decimal, or not an admissible
amount, makes the whole entry invalid. -/
def parseMoney (text : List Char) (field : String) (positive : Bool) :
    Except CostLedgerError Decimal :=
  match Decimal.parse text with
  | none => .error corruptValue
  | some number =>
      match validateMoney (.finite number) field positive with
      | .ok amount => .ok amount
      | .error _ => .error corruptValue

def parseOptionalMoney (text : Option (List Char)) (field : String) :
    Except CostLedgerError (Option Decimal) :=
  match text with
  | none => .ok none
  | some text => some <$> parseMoney text field false

def parseEntry (serialized : SerializedEntry) : Except CostLedgerError CostEntry := do
  raiseIf (¬ matchesRequestIdPattern serialized.requestId)
    (.corrupt "cost ledger request ID is invalid")
  raiseIf (¬ matchesReservationIdPattern serialized.reservationId)
    (.corrupt "cost ledger reservation ID is invalid")
  let reserved ← parseMoney serialized.reservedUsd "reserved_usd" true
  let accounted ← parseMoney serialized.accountedCostUsd "accounted_cost_usd" false
  let actual ← parseOptionalMoney serialized.actualCostUsd "actual_cost_usd"
  raiseIf (serialized.updatedAt < serialized.createdAt)
    (.corrupt "cost ledger entry timestamp order is invalid")
  .ok {
    requestId := serialized.requestId
    reservationId := serialized.reservationId
    status := serialized.status
    reservedUsd := reserved
    actualCostUsd := actual
    accountedCostUsd := accounted
    releaseReason := serialized.releaseReason
    createdAt := serialized.createdAt
    updatedAt := serialized.updatedAt }

/-- The fields each lifecycle status requires. -/
def lifecycleIsValid (entry : CostEntry) : Bool :=
  match entry.status with
  | .reserved =>
      entry.actualCostUsd.isNone && entry.accountedCostUsd.SameValue 0 &&
        entry.releaseReason.isNone
  | .released =>
      entry.actualCostUsd.isNone && entry.accountedCostUsd.SameValue 0 &&
        entry.releaseReason.isSome
  | .uncertainAccounted =>
      entry.actualCostUsd.isNone && entry.accountedCostUsd.SameValue entry.reservedUsd &&
        entry.releaseReason.isNone
  | .reconciled =>
      match entry.actualCostUsd with
      | none => false
      | some actual =>
          actual ≤ entry.reservedUsd && entry.accountedCostUsd.SameValue actual &&
            entry.releaseReason.isNone
  | .reservationOverrun =>
      match entry.actualCostUsd with
      | none => false
      | some actual =>
          entry.reservedUsd < actual && entry.accountedCostUsd.SameValue actual &&
            entry.releaseReason.isNone

def validateLifecycle (entries : Dict String CostEntry) : Except CostLedgerError Unit :=
  match entries.values.find? fun entry => !lifecycleIsValid entry with
  | none => .ok ()
  | some entry =>
      .error (.corrupt s!"cost ledger lifecycle state is inconsistent for {entry.requestId}")

def parseCap (text : List Char) : Except CostLedgerError Decimal :=
  match Decimal.parse text with
  | none => .error (.corrupt "cost ledger cap is invalid")
  | some number =>
      match validateMoney (.finite number) "cap_usd" true with
      | .ok cap => .ok cap
      | .error _ => .error (.corrupt "cost ledger cap is invalid")

/-- Parse an entry and require that its key is its request ID. -/
def parseItem (key : String) (serialized : SerializedEntry) :
    Except CostLedgerError CostEntry := do
  let entry ← parseEntry serialized
  raiseIf (key ≠ entry.requestId)
    (.corrupt "cost ledger entry key does not match its request ID")
  .ok entry

def validateState (state : SerializedState) :
    Except CostLedgerError (Decimal × Dict String CostEntry) := do
  let cap ← parseCap state.capUsd
  let entries ← state.entries.mapValuesM parseItem
  validateLifecycle entries
  .ok (cap, entries)

/-! ## The size of the file -/

/-- The bytes of a member of a JSON object whose value takes `payload` bytes. -/
def memberBytes (label : String) (payload : ℕ) : ℕ :=
  label.length + 3 + payload

/-- The bytes of a quoted text; every text of the ledger is plain ASCII. -/
def quotedBytes (length : ℕ) : ℕ :=
  length + 2

def CostEntryStatus.text : CostEntryStatus → String
  | .reserved => "reserved"
  | .reconciled => "reconciled"
  | .released => "released"
  | .uncertainAccounted => "uncertain_accounted"
  | .reservationOverrun => "reservation_overrun"

def ReleaseReason.text : ReleaseReason → String
  | .cancelledBeforeSend => "cancelled_before_send"
  | .failedBeforeSend => "failed_before_send"

/-- ISO text of a UTC timestamp omits the fraction of a whole second. -/
def isoformatLength (timestamp : Timestamp) : ℕ :=
  if timestamp % 1000000 = 0 then 25 else 32

def entryBytes (entry : SerializedEntry) : ℕ :=
  let null := "null".length
  memberBytes "accounted_cost_usd" (quotedBytes entry.accountedCostUsd.length) + 1 +
    memberBytes "actual_cost_usd"
      (entry.actualCostUsd.elim null fun text => quotedBytes text.length) + 1 +
    memberBytes "created_at" (quotedBytes (isoformatLength entry.createdAt)) + 1 +
    memberBytes "release_reason"
      (entry.releaseReason.elim null fun reason => quotedBytes reason.text.length) + 1 +
    memberBytes "request_id" (quotedBytes entry.requestId.length) + 1 +
    memberBytes "reservation_id" (quotedBytes entry.reservationId.length) + 1 +
    memberBytes "reserved_usd" (quotedBytes entry.reservedUsd.length) + 1 +
    memberBytes "status" (quotedBytes entry.status.text.length) + 1 +
    memberBytes "updated_at" (quotedBytes (isoformatLength entry.updatedAt)) + 2

/-- The length of the canonical JSON text of a state, with its final newline. -/
def stateBytes (state : SerializedState) : ℕ :=
  let items := state.entries.items
  let entries := (items.map fun item =>
    memberBytes item.1 (entryBytes item.2)).sum + (items.length - 1) + 2
  memberBytes "cap_usd" (quotedBytes state.capUsd.length) + 1 +
    memberBytes "entries" entries + 1 + memberBytes "schema_version" 1 + 3

end CostLedger

end MmAudit
