import MmAudit.Solidity.Layouts

/-!
# What compatible versions promise

A storage layout places the bytes of its variables.  An upgrade preserves the layout if no
variable writes to the bytes of another one and the kept variables stay where they were.
The comparison calls upgrades compatible that do not.
-/

namespace MmAudit

namespace Solidity

open HexText SortedSets Fallible

section Bytes

variable (unicode : Unicode)

/-- The byte of the storage belongs to the entry, whose slot is a number. -/
def Occupies (entry : SolidityStorageEntry) (byte : ℤ) : Prop :=
  ∃ start, slotNumber? unicode entry = some start ∧ start * 32 + entry.offset ≤ byte ∧
    byte < start * 32 + entry.offset + byteSizeOf unicode entry

def SharesByte (first second : SolidityStorageEntry) : Prop :=
  ∃ byte, Occupies unicode first byte ∧ Occupies unicode second byte

/-- No two entries of a layout share a byte. -/
def OverlapFree (entries : List SolidityStorageEntry) : Prop :=
  entries.Pairwise fun first second => ¬SharesByte unicode first second

end Bytes

def SamePlace (first second : SolidityStorageEntry) : Prop :=
  first.slot = second.slot ∧ first.offset = second.offset

/-- The entries are different variables, by their names or their places. -/
def Differs (first second : SolidityStorageEntry) : Prop :=
  first.variableName ≠ second.variableName ∨ ¬SamePlace first second

/-- An entry stands for the variable at the same place with the same type. -/
def Continues (current prior : SolidityStorageEntry) : Prop :=
  current.variableName = prior.variableName ∧ SamePlace current prior ∧
    current.typeName = prior.typeName

/-- The old variables keep their bytes and, where they are still present, their places. -/
structure LayoutPreserved (unicode : Unicode) (prior current : List SolidityStorageEntry) :
    Prop where
  untouched : ∀ entry ∈ current, ∀ old ∈ prior, old.variableName ≠ gapName → Differs entry old →
    ¬SharesByte unicode entry old
  continued : ∀ old ∈ prior, old.variableName ≠ gapName →
    (∃ entry ∈ current, entry.variableName = old.variableName) →
      ∃ entry ∈ current, Continues entry old

/-- Every edge says that the versions are compatible. -/
def AllCompatible (edges : List SolidityGraphEdge) : Prop :=
  ∀ edge ∈ edges, edge.metadata.compatibility = .compatible

/-! ## Entries by name -/

/-- The last entry of a name. -/
def lastNamed (entries : List SolidityStorageEntry) (name : String) :
    Option SolidityStorageEntry :=
  entries.reverse.find? fun entry => entry.variableName = name

theorem get?_byName (entries : List SolidityStorageEntry) (name : String) :
    (byName entries).get? name = lastNamed entries name := by
  induction entries using List.reverseRecOn with
  | nil => rfl
  | append_singleton entries entry ih =>
      have step : byName (entries ++ [entry]) =
          (byName entries).insert entry.variableName entry := by
        rw [byName, List.foldl_append]
        rfl
      rw [step, Dict.get?_insert, ih, lastNamed, lastNamed, List.reverse_append,
        List.reverse_singleton, List.singleton_append, List.find?_cons]
      by_cases same : entry.variableName = name
      · rw [if_pos same.symm, decide_eq_true same]
      · rw [if_neg (Ne.symm same), decide_eq_false same]

theorem mem_of_lastNamed {entries : List SolidityStorageEntry} {name : String}
    {entry : SolidityStorageEntry} (last : lastNamed entries name = some entry) :
    entry ∈ entries ∧ entry.variableName = name := by
  have named := List.find?_some last
  exact ⟨List.mem_reverse.mp (List.mem_of_find?_eq_some last), of_decide_eq_true named⟩

theorem exists_lastNamed {entries : List SolidityStorageEntry} {entry : SolidityStorageEntry}
    (listed : entry ∈ entries) : ∃ last, lastNamed entries entry.variableName = some last := by
  refine Option.isSome_iff_exists.mp (List.find?_isSome.mpr ⟨entry, ?_, ?_⟩)
  · exact List.mem_reverse.mpr listed
  · exact decide_eq_true rfl

theorem mem_byName_iff (entries : List SolidityStorageEntry) (name : String) :
    name ∈ byName entries ↔ ∃ entry, lastNamed entries name = some entry := by
  rw [Dict.mem_iff_exists_get?]
  simp only [get?_byName]

/-- A later entry of the same name hides the entry. -/
def Hidden (entries : List SolidityStorageEntry) (entry : SolidityStorageEntry) : Prop :=
  lastNamed entries entry.variableName ≠ some entry

/-! ## The edges of a comparison -/

section Edges

variable {unicode : Unicode} {versions : VersionedLayout}
  {prior current : List SolidityStorageEntry} {edges : List SolidityGraphEdge}

theorem keptEdge_mem (compared : compareVersionedLayouts unicode versions prior current = .ok edges)
    {name : String} {old entry : SolidityStorageEntry} (wasLast : lastNamed prior name = some old)
    (isLast : lastNamed current name = some entry) :
    keptEdge unicode versions name old entry ∈ edges := by
  obtain ⟨anchor, _, rfl⟩ := map_eq_ok_iff.mp compared
  refine List.mem_append_left _ (List.mem_filterMap.mpr ⟨name, ?_, ?_⟩)
  · refine mem_sortedSet.mpr (List.mem_filter.mpr ⟨?_, decide_eq_true ?_⟩)
    · exact (mem_byName_iff prior name).mpr ⟨old, wasLast⟩
    · exact (mem_byName_iff current name).mpr ⟨entry, isLast⟩
  · rw [get?_byName, get?_byName, wasLast, isLast]
    rfl

theorem newEdge_mem (compared : compareVersionedLayouts unicode versions prior current = .ok edges)
    {name : String} {entry : SolidityStorageEntry} (isNew : lastNamed prior name = none)
    (isLast : lastNamed current name = some entry) :
    ∃ anchor, newEdge unicode versions prior anchor name entry ∈ edges := by
  obtain ⟨anchor, _, rfl⟩ := map_eq_ok_iff.mp compared
  refine ⟨anchor, List.mem_append_right _ (List.mem_filterMap.mpr ⟨name, ?_, ?_⟩)⟩
  · refine mem_sortedSet.mpr (List.mem_filter.mpr ⟨?_, decide_eq_true ?_⟩)
    · exact (mem_byName_iff current name).mpr ⟨entry, isLast⟩
    · rw [mem_byName_iff, isNew]
      rintro ⟨_, impossible⟩
      cases impossible
  · rw [get?_byName, isLast]
    rfl

theorem of_eq_compatible {compatible : Bool} (same : Compatibility.of compatible = .compatible) :
    compatible = true := by
  cases compatible with
  | true => rfl
  | false => cases same

variable (compared : compareVersionedLayouts unicode versions prior current = .ok edges)
  (compatible : AllCompatible edges)

include compared compatible

theorem keptCompatible_of_allCompatible {name : String} {old entry : SolidityStorageEntry}
    (wasLast : lastNamed prior name = some old) (isLast : lastNamed current name = some entry) :
    keptCompatible unicode name old entry = true :=
  of_eq_compatible (compatible _ (keptEdge_mem compared wasLast isLast))

theorem new_compatible_of_allCompatible {name : String} {entry : SolidityStorageEntry}
    (isNew : lastNamed prior name = none) (isLast : lastNamed current name = some entry) :
    consumesGap unicode (lastNamed prior gapName) entry = true ∨
      appended unicode (priorMaxEnd unicode prior) entry = true := by
  obtain ⟨anchor, listed⟩ := newEdge_mem compared isNew isLast
  have accepted := of_eq_compatible (compatible _ listed)
  rw [get?_byName] at accepted
  exact Bool.or_eq_true_iff.mp accepted

end Edges

/-! ## Bytes and slots -/

section Slots

variable {unicode : Unicode}

/-- The bytes of an entry lie in the slots of its span. -/
theorem Occupies.inSpan {entry : SolidityStorageEntry} {byte : ℤ}
    (occupied : Occupies unicode entry byte) :
    ∃ span, storageSlotSpan unicode entry = some span ∧ span.1 * 32 ≤ byte ∧
      byte < span.2 * 32 := by
  obtain ⟨start, isNumber, lower, upper⟩ := occupied
  refine ⟨(start, start + slotCount unicode entry), ?_, ?_, ?_⟩
  · rw [storageSlotSpan, isNumber]
    rfl
  · change start * 32 ≤ byte
    omega
  · change byte < (start + slotCount unicode entry) * 32
    have enough : entry.offset + byteSizeOf unicode entry ≤ slotCount unicode entry * 32 := by
      unfold slotCount
      omega
    omega

theorem span_start_lt_end {entry : SolidityStorageEntry} {span : ℤ × ℤ}
    (isSpan : storageSlotSpan unicode entry = some span) : span.1 < span.2 := by
  obtain ⟨start, _, rfl⟩ := Option.map_eq_some_iff.mp isSpan
  have positive : 1 ≤ slotCount unicode entry := le_max_left _ _
  change start < start + (slotCount unicode entry : ℤ)
  omega

/-- An entry at the place of another one, and not larger, lies within its bytes. -/
theorem Occupies.of_samePlace {entry old : SolidityStorageEntry} {byte : ℤ}
    (occupied : Occupies unicode entry byte) (place : SamePlace entry old)
    (notLarger : byteSizeOf unicode entry ≤ byteSizeOf unicode old) :
    Occupies unicode old byte := by
  obtain ⟨start, isNumber, lower, upper⟩ := occupied
  obtain ⟨slot, offset⟩ := place
  refine ⟨start, ?_, ?_, ?_⟩
  · rw [slotNumber?, ← slot]
    exact isNumber
  · rw [← offset]
    exact lower
  · rw [← offset]
    omega

theorem SharesByte.symm {first second : SolidityStorageEntry}
    (shared : SharesByte unicode first second) : SharesByte unicode second first :=
  shared.imp fun _ both => ⟨both.2, both.1⟩

theorem OverlapFree.apart {entries : List SolidityStorageEntry}
    (overlapFree : OverlapFree unicode entries) {first second : SolidityStorageEntry}
    (isFirst : first ∈ entries) (isSecond : second ∈ entries) (differ : first ≠ second) :
    ¬SharesByte unicode first second := by
  have : Std.Symm fun first second : SolidityStorageEntry => ¬SharesByte unicode first second :=
    ⟨fun _ _ apart shared => apart shared.symm⟩
  exact List.Pairwise.forall overlapFree isFirst isSecond differ

/-- The bytes of the first entry end before those of the second. -/
def precedes (unicode : Unicode) (first second : SolidityStorageEntry) : Bool :=
  match slotNumber? unicode first, slotNumber? unicode second with
  | some start, some next =>
      decide (start * 32 + first.offset + byteSizeOf unicode first ≤ next * 32 + second.offset)
  | _, _ => false

theorem overlapFree_of_precedes {entries : List SolidityStorageEntry}
    (ordered : entries.Pairwise fun first second => precedes unicode first second = true) :
    OverlapFree unicode entries := by
  refine ordered.imp ?_
  rintro first second before ⟨byte, ⟨start, isStart, _, upper⟩, next, isNext, lower, _⟩
  unfold precedes at before
  rw [isStart, isNext] at before
  have apart := of_decide_eq_true before
  omega

/-- A variable past the end of all spans of a layout shares no byte with it. -/
theorem not_sharesByte_of_appended {prior : List SolidityStorageEntry}
    {entry old : SolidityStorageEntry}
    (isAppended : appended unicode (priorMaxEnd unicode prior) entry = true)
    (listed : old ∈ prior) :
    ¬SharesByte unicode entry old := by
  rintro ⟨byte, ofEntry, ofOld⟩
  obtain ⟨span, isSpan, lower, _⟩ := ofEntry.inSpan
  obtain ⟨oldSpan, isOldSpan, _, upper⟩ := ofOld.inSpan
  cases isMax : priorMaxEnd unicode prior with
  | none =>
      rw [isMax] at isAppended
      cases isAppended
  | some maxEnd =>
      unfold appended at isAppended
      rw [isMax, isSpan] at isAppended
      have past : maxEnd ≤ span.1 := of_decide_eq_true isAppended
      have bound : oldSpan.2 ≤ maxEnd :=
        (List.max?_eq_some_iff.mp isMax).2 _
          (List.mem_map_of_mem (List.mem_filterMap.mpr ⟨old, listed, isOldSpan⟩))
      omega

end Slots

/-! ## What the comparison leaves open -/

section Open

variable (unicode : Unicode) (prior current : List SolidityStorageEntry)

/-- The entry is larger than the last entry of its name before. -/
def Grown (entry : SolidityStorageEntry) : Prop :=
  ∃ old, lastNamed prior entry.variableName = some old ∧
    byteSizeOf unicode old < byteSizeOf unicode entry

/-- The first slot of the entry is one of the slots of the last gap before. -/
def StartsInGap (entry : SolidityStorageEntry) : Prop :=
  ∃ gap gapSpan span, lastNamed prior gapName = some gap ∧
    storageSlotSpan unicode gap = some gapSpan ∧ storageSlotSpan unicode entry = some span ∧
      gapSpan.1 ≤ span.1 ∧ span.1 < gapSpan.2

/-- No collision that the comparison overlooks: the hidden entries, those that grew and those
that start in the gap stay apart from the old variables, and an old entry that a later one
hides is continued. -/
structure NoOverlookedCollision : Prop where
  apart : ∀ entry ∈ current,
    Hidden current entry ∨ Grown unicode prior entry ∨ StartsInGap unicode prior entry →
      ∀ old ∈ prior, old.variableName ≠ gapName → Differs entry old →
        ¬SharesByte unicode entry old
  continued : ∀ old ∈ prior, Hidden prior old → old.variableName ≠ gapName →
    (∃ entry ∈ current, entry.variableName = old.variableName) →
      ∃ entry ∈ current, Continues entry old

end Open

section Preserved

variable {unicode : Unicode} {versions : VersionedLayout}
  {prior current : List SolidityStorageEntry} {edges : List SolidityGraphEdge}

theorem startsInGap_of_consumesGap {entry : SolidityStorageEntry}
    (consumed : consumesGap unicode (lastNamed prior gapName) entry = true) :
    StartsInGap unicode prior entry := by
  cases isGap : lastNamed prior gapName with
  | none =>
      rw [isGap] at consumed
      cases consumed
  | some gap =>
      rw [isGap, consumesGap, Option.bind_some] at consumed
      cases isGapSpan : storageSlotSpan unicode gap with
      | none =>
          rw [isGapSpan] at consumed
          cases consumed
      | some gapSpan =>
          cases isSpan : storageSlotSpan unicode entry with
          | none =>
              rw [isGapSpan, isSpan] at consumed
              cases consumed
          | some span =>
              rw [isGapSpan, isSpan] at consumed
              exact ⟨gap, gapSpan, span, isGap, isGapSpan, isSpan, of_decide_eq_true consumed⟩

/-- A gap that is kept starts in the old gap. -/
theorem startsInGap_of_compatibleGapChange {gap entry : SolidityStorageEntry}
    (isGap : lastNamed prior gapName = some gap)
    (changed : compatibleGapChange unicode gap entry = true) :
    StartsInGap unicode prior entry := by
  unfold compatibleGapChange at changed
  split at changed
  next gapSpan span isGapSpan isSpan =>
    obtain ⟨starts, ends⟩ := of_decide_eq_true changed
    have notEmpty := span_start_lt_end isSpan
    exact ⟨gap, gapSpan, span, isGap, isGapSpan, isSpan, starts, by omega⟩
  · cases changed

variable (compared : compareVersionedLayouts unicode versions prior current = .ok edges)
  (compatible : AllCompatible edges)

include compared compatible

/-- A variable that both versions name, and that is not a gap, is continued. -/
theorem continues_of_lastNamed {name : String} {old entry : SolidityStorageEntry}
    (wasLast : lastNamed prior name = some old) (isLast : lastNamed current name = some entry)
    (notGap : name ≠ gapName) : Continues entry old := by
  have accepted := keptCompatible_of_allCompatible compared compatible wasLast isLast
  rw [keptCompatible, if_neg notGap] at accepted
  obtain ⟨slot, offset, typeName⟩ := of_decide_eq_true accepted
  refine ⟨?_, ⟨slot.symm, offset.symm⟩, typeName.symm⟩
  rw [(mem_of_lastNamed wasLast).2, (mem_of_lastNamed isLast).2]

/-- An entry that the comparison sees, that did not grow and that does not start in the gap
shares no byte with another old variable. -/
theorem not_sharesByte_of_seen (overlapFree : OverlapFree unicode prior)
    {entry old : SolidityStorageEntry} (seen : ¬Hidden current entry)
    (notGrown : ¬Grown unicode prior entry) (outside : ¬StartsInGap unicode prior entry)
    (listed : old ∈ prior) (differs : Differs entry old) : ¬SharesByte unicode entry old := by
  have isLast : lastNamed current entry.variableName = some entry := not_not.mp seen
  cases wasLast : lastNamed prior entry.variableName with
  | none =>
      rcases new_compatible_of_allCompatible compared compatible wasLast isLast with
        consumed | isAppended
      · exact absurd (startsInGap_of_consumesGap consumed) outside
      · exact not_sharesByte_of_appended isAppended listed
  | some last =>
      have notGap : entry.variableName ≠ gapName := by
        intro isGap
        have accepted := keptCompatible_of_allCompatible compared compatible wasLast isLast
        rw [keptCompatible, if_pos isGap] at accepted
        rw [isGap] at wasLast
        exact outside (startsInGap_of_compatibleGapChange wasLast accepted)
      have continues := continues_of_lastNamed compared compatible wasLast isLast notGap
      have notLarger : byteSizeOf unicode entry ≤ byteSizeOf unicode last := by
        by_contra larger
        exact notGrown ⟨last, wasLast, Nat.lt_of_not_le larger⟩
      have other : last ≠ old := by
        rintro rfl
        rcases differs with names | places
        · exact names continues.1
        · exact places continues.2.1
      rintro ⟨byte, ofEntry, ofOld⟩
      exact overlapFree.apart (mem_of_lastNamed wasLast).1 listed other
        ⟨byte, ofEntry.of_samePlace continues.2.1 notLarger, ofOld⟩

/-- Versions that are compatible throughout preserve the layout exactly if there is no
collision that the comparison overlooks. -/
theorem layoutPreserved_iff (overlapFree : OverlapFree unicode prior) :
    LayoutPreserved unicode prior current ↔ NoOverlookedCollision unicode prior current := by
  constructor
  · intro preserved
    exact
      { apart := fun entry isEntry _ => preserved.untouched entry isEntry
        continued := fun old isOld _ => preserved.continued old isOld }
  · intro noCollision
    refine ⟨?_, ?_⟩
    · intro entry isEntry old isOld notGap differs
      by_cases overlooked :
          Hidden current entry ∨ Grown unicode prior entry ∨ StartsInGap unicode prior entry
      · exact noCollision.apart entry isEntry overlooked old isOld notGap differs
      · push Not at overlooked
        obtain ⟨seen, notGrown, outside⟩ := overlooked
        exact not_sharesByte_of_seen compared compatible overlapFree seen notGrown outside isOld
          differs
    · intro old isOld notGap present
      by_cases hidden : Hidden prior old
      · exact noCollision.continued old isOld hidden notGap present
      · have wasLast : lastNamed prior old.variableName = some old := not_not.mp hidden
        obtain ⟨entry, isEntry, sameName⟩ := present
        obtain ⟨last, isLast⟩ := exists_lastNamed isEntry
        rw [sameName] at isLast
        exact ⟨last, (mem_of_lastNamed isLast).1,
          continues_of_lastNamed compared compatible wasLast isLast notGap⟩

end Preserved

/-! ## A gap that is left -/

/-- No characters beyond ASCII. -/
def sampleUnicode : Unicode where
  isSpace := fun _ => false
  decimal := fun _ => none

def sampleEntry (variableName typeName slot : String) (size : ℕ) : SolidityStorageEntry where
  id := "storage-" ++ variableName
  variableName := variableName
  typeName := typeName
  slot := slot
  offset := 0
  byteSize := some size
  path := "src/Vault.sol"
  startLine := 3
  endLine := 3
  sourceHash := "0f"
  confidence := 99 / 100

def sampleVersions : VersionedLayout where
  family := "Vault"
  fromContract := "VaultV1"
  fromVersion := 1
  toContract := "VaultV2"
  toVersion := 2

def samplePrior : List SolidityStorageEntry :=
  [sampleEntry "owner" "uint256" "0" 32, sampleEntry "__gap" "uint256[2]" "1" 64,
    sampleEntry "total" "uint256" "3" 32]

/-- The second new variable begins in the gap and ends in the slot of a removed variable. -/
def sampleCurrent : List SolidityStorageEntry :=
  [sampleEntry "owner" "uint256" "0" 32, sampleEntry "limit" "uint256" "1" 32,
    sampleEntry "caps" "uint256[2]" "2" 64]

def sampleEdges : List SolidityGraphEdge :=
  (compareVersionedLayouts sampleUnicode sampleVersions samplePrior sampleCurrent).toOption.getD []

theorem sample_compared :
    compareVersionedLayouts sampleUnicode sampleVersions samplePrior sampleCurrent =
      .ok sampleEdges :=
  rfl

theorem sampleEdges_compatible : AllCompatible sampleEdges := by
  unfold AllCompatible
  decide

theorem samplePrior_overlapFree : OverlapFree sampleUnicode samplePrior :=
  overlapFree_of_precedes (by decide)

theorem layoutPreserved_iff_sample :
    LayoutPreserved sampleUnicode samplePrior sampleCurrent ↔
      NoOverlookedCollision sampleUnicode samplePrior sampleCurrent :=
  layoutPreserved_iff sample_compared sampleEdges_compatible samplePrior_overlapFree

theorem removed_variable_overwritten :
    OverlapFree sampleUnicode samplePrior ∧ OverlapFree sampleUnicode sampleCurrent ∧
      compareVersionedLayouts sampleUnicode sampleVersions samplePrior sampleCurrent =
        .ok sampleEdges ∧
      AllCompatible sampleEdges ∧ ¬LayoutPreserved sampleUnicode samplePrior sampleCurrent := by
  refine ⟨samplePrior_overlapFree, overlapFree_of_precedes (by decide +kernel), sample_compared,
    sampleEdges_compatible, ?_⟩
  intro preserved
  -- The bytes from 96 on belong to the removed variable and to the new one.
  refine preserved.untouched (sampleEntry "caps" "uint256[2]" "2" 64) (by decide +kernel)
    (sampleEntry "total" "uint256" "3" 32) (by decide +kernel) (by decide +kernel)
    (Or.inl (by decide +kernel)) ⟨96, ⟨2, rfl, ?_, ?_⟩, 3, rfl, ?_, ?_⟩
  · decide +kernel
  · decide +kernel
  · decide +kernel
  · decide +kernel

end Solidity

end MmAudit
