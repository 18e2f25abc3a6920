import MmAudit.Library.Dict
import MmAudit.Library.Fallible
import MmAudit.Library.IntegerText
import MmAudit.Library.SortedSets
import Mathlib.Data.List.MinMax
import Mathlib.Data.Rat.Defs
import Mathlib.Algebra.Order.Ring.Unbundled.Rat

/-!
# Storage layouts of two versions

The comparison of the storage layouts of two versions of a contract family: one edge for
every variable that both versions name and one for every variable that is new.
-/

namespace MmAudit

namespace Solidity

open HexText SortedSets

/-! ## Storage entries -/

structure SolidityStorageEntry where
  id : String
  variableName : String
  typeName : String
  slot : String
  offset : ℕ
  byteSize : Option ℕ
  path : String
  startLine : ℕ
  endLine : ℕ
  sourceHash : String
  confidence : ℚ
deriving DecidableEq

def gapName : String :=
  "__gap"

section Spans

variable (unicode : Unicode)

/-- `int(entry.slot, 0)` -/
def slotNumber? (entry : SolidityStorageEntry) : Option ℤ :=
  IntegerText.literal? unicode entry.slot.toList

/-- The size that the comparison takes an entry to have. -/
def byteSizeOf (entry : SolidityStorageEntry) : ℕ :=
  match entry.byteSize with
  | some size => size
  | none =>
      match IntegerText.bracketed? unicode entry.typeName.toList with
      | some count => count * 32
      | none => 32

def slotCount (entry : SolidityStorageEntry) : ℕ :=
  max 1 ((entry.offset + byteSizeOf unicode entry + 31) / 32)

/-- `_storage_slot_span` -/
def storageSlotSpan (entry : SolidityStorageEntry) : Option (ℤ × ℤ) :=
  (slotNumber? unicode entry).map fun start => (start, start + slotCount unicode entry)

/-- `_compatible_gap_change` -/
def compatibleGapChange (prior current : SolidityStorageEntry) : Bool :=
  match storageSlotSpan unicode prior, storageSlotSpan unicode current with
  | some priorSpan, some currentSpan =>
      decide (priorSpan.1 ≤ currentSpan.1 ∧ currentSpan.2 = priorSpan.2)
  | _, _ => false

/-- `_slot_number` -/
def slotNumber (entry : SolidityStorageEntry) : ℤ ×ₗ String :=
  match slotNumber? unicode entry with
  | some number => toLex (number, "")
  | none => toLex (2 ^ 256 - 1, entry.slot)

end Spans

/-! ## Edges -/

inductive Compatibility where
  | compatible
  | incompatible
deriving DecidableEq, Repr

def Compatibility.of (compatible : Bool) : Compatibility :=
  if compatible then .compatible else .incompatible

/-- The versions that are compared. -/
structure VersionedLayout where
  family : String
  fromContract : String
  fromVersion : ℕ
  toContract : String
  toVersion : ℕ
deriving DecidableEq, Repr

/-- What an edge says of a variable. -/
inductive Change where
  | kept (changeKind : String) (slotChanged offsetChanged typeChanged : Bool)
  | newVariable (storageGapConsumption appendOnly : Bool)
deriving DecidableEq, Repr

structure EdgeMetadata where
  comparison : String
  versions : VersionedLayout
  layoutResolution : String
  variableName : String
  change : Change
  compatibility : Compatibility
deriving DecidableEq, Repr

structure SolidityGraphEdge where
  graph : String
  sourceId : String
  targetId : String
  label : String
  provenance : String
  path : String
  startLine : ℕ
  endLine : ℕ
  sourceHash : String
  confidence : ℚ
  transformation : String
  metadata : EdgeMetadata
deriving DecidableEq

/-- `_layout_comparison_edge` -/
def layoutComparisonEdge (prior current : SolidityStorageEntry) (label : String)
    (metadata : EdgeMetadata) : SolidityGraphEdge where
  graph := "upgrade_compatibility"
  sourceId := prior.id
  targetId := current.id
  label := label
  provenance := "compiler"
  path := current.path
  startLine := current.startLine
  endLine := current.endLine
  sourceHash := current.sourceHash
  confidence := min prior.confidence current.confidence
  transformation := "compiler_storage_layout_version_comparison"
  metadata := metadata

/-! ## The comparison -/

/-- `{entry.variable_name: entry for entry in entries}` -/
def byName (entries : List SolidityStorageEntry) : Dict String SolidityStorageEntry :=
  entries.foldl (fun dict entry => dict.insert entry.variableName entry) Dict.empty

/-- `max` of an empty list -/
inductive EmptyMaximum where
  | valueError
deriving DecidableEq, Repr

section Anchor

/-- The order of the integers that computes. -/
local instance preorderSlot : Preorder ℤ :=
  Int.instLinearOrder.toPreorder

/-- `prior_gap or max(prior_entries, key=...)` -/
def priorAnchor (unicode : Unicode) (entries : List SolidityStorageEntry) :
    Except EmptyMaximum SolidityStorageEntry :=
  match (byName entries).get? gapName with
  | some gap => .ok gap
  | none =>
      match entries.argmax fun entry =>
        toLex (slotNumber unicode entry, toLex (entry.offset, entry.variableName)) with
      | some entry => .ok entry
      | none => .error .valueError

end Anchor

section Comparing

variable (unicode : Unicode) (versions : VersionedLayout)

def metadataOf (variableName : String) (change : Change) (compatible : Bool) : EdgeMetadata where
  comparison := "versioned_layout"
  versions := versions
  layoutResolution := "compiler"
  variableName := variableName
  change := change
  compatibility := Compatibility.of compatible

/-- Whether a variable that both versions name is compatible. -/
def keptCompatible (variableName : String) (prior current : SolidityStorageEntry) : Bool :=
  if variableName = gapName then compatibleGapChange unicode prior current
  else decide (prior.slot = current.slot ∧ prior.offset = current.offset ∧
    prior.typeName = current.typeName)

def versionText : String :=
  "v" ++ toString versions.fromVersion ++ " to v" ++ toString versions.toVersion

/-- The edge of a variable that both versions name. -/
def keptEdge (variableName : String) (prior current : SolidityStorageEntry) : SolidityGraphEdge :=
  layoutComparisonEdge prior current
    (versions.family ++ " " ++ variableName ++ " layout " ++ versionText versions)
    (metadataOf versions variableName
      (.kept (if variableName = gapName then "storage_gap" else "stable_variable")
        (prior.slot ≠ current.slot) (prior.offset ≠ current.offset)
        (prior.typeName ≠ current.typeName))
      (keptCompatible unicode variableName prior current))

/-- `prior_max_end` -/
def priorMaxEnd (entries : List SolidityStorageEntry) : Option ℤ :=
  ((entries.filterMap (storageSlotSpan unicode)).map Prod.snd).max?

/-- `consumes_gap` -/
def consumesGap (priorGap : Option SolidityStorageEntry) (current : SolidityStorageEntry) : Bool :=
  match priorGap.bind (storageSlotSpan unicode), storageSlotSpan unicode current with
  | some gapSpan, some currentSpan =>
      decide (gapSpan.1 ≤ currentSpan.1 ∧ currentSpan.1 < gapSpan.2)
  | _, _ => false

/-- `appended` -/
def appended (maxEnd : Option ℤ) (current : SolidityStorageEntry) : Bool :=
  match maxEnd, storageSlotSpan unicode current with
  | some maxEnd, some currentSpan => decide (maxEnd ≤ currentSpan.1)
  | _, _ => false

/-- The edge of a variable that is new. -/
def newEdge (prior : List SolidityStorageEntry) (anchor : SolidityStorageEntry)
    (variableName : String) (current : SolidityStorageEntry) : SolidityGraphEdge :=
  let consumed := consumesGap unicode ((byName prior).get? gapName) current
  let appendOnly := appended unicode (priorMaxEnd unicode prior) current
  layoutComparisonEdge anchor current
    (versions.family ++ " new variable " ++ variableName ++ " " ++ versionText versions)
    (metadataOf versions variableName (.newVariable consumed appendOnly) (consumed || appendOnly))

/-- `_compare_versioned_layouts` -/
def compareVersionedLayouts (prior current : List SolidityStorageEntry) :
    Except EmptyMaximum (List SolidityGraphEdge) :=
  let priorByName := byName prior
  let currentByName := byName current
  let kept := (sortedSet (priorByName.keys.filter (· ∈ currentByName))).filterMap fun name =>
    (priorByName.get? name).bind fun priorEntry =>
      (currentByName.get? name).map fun entry => keptEdge unicode versions name priorEntry entry
  (priorAnchor unicode prior).map fun anchor =>
    kept ++ (sortedSet (currentByName.keys.filter (· ∉ priorByName))).filterMap fun name =>
      (currentByName.get? name).map fun entry => newEdge unicode versions prior anchor name entry

end Comparing

end Solidity

end MmAudit
