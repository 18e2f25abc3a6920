import MmAudit.Verification.Reporting

/-!
# The keys of the reports

A mismatch is valid unless its identifier is too long, and its key is its category, its
identifier and its kind.  The keys of all reports can be read off the files: a file is
reported with how it differs, if it does.
-/

namespace MmAudit

namespace Verification

open Fallible SortedSets Ignore Discovery Context

/-! ## Keys -/

/-- What tells two mismatches apart. -/
abbrev Key := RunVerificationCategory × List Char × RunVerificationMismatchKind

section Keys

variable {Digest : Type}

def MismatchFields.key (fields : MismatchFields Digest) : Key :=
  (fields.category, fields.identifier, fields.kind)

def sortKeyOf (key : Key) : SortKey :=
  toLex (key.1.value.toList, toLex (key.2.1, key.2.2.value.toList))

theorem category_value_injective : Function.Injective RunVerificationCategory.value := by
  intro first second same
  cases first <;> cases second <;> first | rfl | exact absurd same (by decide)

theorem kind_value_injective : Function.Injective RunVerificationMismatchKind.value := by
  intro first second same
  cases first <;> cases second <;> first | rfl | exact absurd same (by decide)

theorem sortKeyOf_injective : Function.Injective sortKeyOf := by
  rintro ⟨category, identifier, kind⟩ ⟨otherCategory, otherIdentifier, otherKind⟩ same
  obtain ⟨sameCategory, later⟩ := Prod.mk.inj (toLex.injective same)
  obtain ⟨sameIdentifier, sameKind⟩ := Prod.mk.inj (toLex.injective later)
  exact Prod.ext (category_value_injective (String.toList_injective sameCategory))
    (Prod.ext sameIdentifier (kind_value_injective (String.toList_injective sameKind)))

theorem nodup_sortKeys_iff (drafts : List (MismatchFields Digest)) :
    (drafts.map MismatchFields.sortKey).Nodup ↔ (drafts.map MismatchFields.key).Nodup := by
  have composed : drafts.map MismatchFields.sortKey =
      (drafts.map MismatchFields.key).map sortKeyOf := by
    rw [List.map_map]
    rfl
  rw [composed, List.nodup_map_iff sortKeyOf_injective]

/-! ## Valid mismatches -/

/-- The text may stand in an identifier. -/
def Printable (text : List Char) : Prop :=
  ∀ char ∈ text, unprintable char = false

theorem Printable.append {first second : List Char} (isFirst : Printable first)
    (isSecond : Printable second) : Printable (first ++ second) :=
  List.forall_mem_append.mpr ⟨isFirst, isSecond⟩

/-- A mismatch whose hashes fit its kind.  It is valid unless its identifier is too long. -/
structure MismatchFields.Sound (fields : MismatchFields Digest) : Prop where
  nonempty : fields.identifier ≠ []
  printable : Printable fields.identifier
  missing : fields.kind = .missing →
    fields.expectedSha256.isSome = true ∧ fields.observedSha256 = none
  unexpected : fields.kind = .unexpected →
    fields.expectedSha256 = none ∧ fields.observedSha256.isSome = true
  changed : fields.kind = .changed →
    fields.expectedSha256.isSome = true ∧ fields.observedSha256.isSome = true

theorem MismatchFields.Sound.validate_eq_ok_iff {fields : MismatchFields Digest}
    (sound : fields.Sound) : fields.validate = .ok () ↔ fields.identifier.length ≤ 4096 := by
  have some : ¬ fields.identifier.length < 1 := by
    have := List.length_pos_iff.mpr sound.nonempty
    omega
  have printable : fields.identifier.any unprintable = false := by
    rw [List.any_eq_false]
    intro char member
    rw [sound.printable char member]
    exact Bool.false_ne_true
  have missing : ¬ (fields.kind = .missing ∧
      (fields.expectedSha256.isNone = true ∨ fields.observedSha256.isSome = true)) := by
    rintro ⟨isMissing, wrong⟩
    obtain ⟨expected, observed⟩ := sound.missing isMissing
    rw [observed, ← Option.not_isSome, expected] at wrong
    simp at wrong
  have unexpected : ¬ (fields.kind = .unexpected ∧
      (fields.expectedSha256.isSome = true ∨ fields.observedSha256.isNone = true)) := by
    rintro ⟨isUnexpected, wrong⟩
    obtain ⟨expected, observed⟩ := sound.unexpected isUnexpected
    rw [expected, ← Option.not_isSome, observed] at wrong
    simp at wrong
  have changed : ¬ (fields.kind = .changed ∧
      (fields.expectedSha256.isNone = true ∨ fields.observedSha256.isNone = true)) := by
    rintro ⟨isChanged, wrong⟩
    obtain ⟨expected, observed⟩ := sound.changed isChanged
    rw [← Option.not_isSome, ← Option.not_isSome, expected, observed] at wrong
    simp at wrong
  unfold MismatchFields.validate
  simp only [raiseIf_bind_eq_ok_iff, raiseIf_eq_ok_iff, some, printable, missing, unexpected,
    changed, Bool.false_eq_true, not_false_eq_true, not_lt, true_and, and_true]

/-- Sound mismatches are all valid exactly when no identifier is too long. -/
theorem forall_validate_iff {drafts : List (MismatchFields Digest)}
    (sound : ∀ draft ∈ drafts, draft.Sound) :
    (∀ draft ∈ drafts, draft.validate = .ok ()) ↔
      ∀ key ∈ drafts.map MismatchFields.key, key.2.1.length ≤ 4096 := by
  rw [List.forall_mem_map]
  exact forall₂_congr fun draft member => (sound draft member).validate_eq_ok_iff

theorem printable_of_control {texts : Texts Digest} {text : List Char}
    (plain : text.all (!texts.control ·) = true) : Printable text := by
  intro char member
  have accepted := List.all_eq_true.mp plain char member
  rw [Texts.control, Bool.not_eq_true', Bool.or_eq_false_iff] at accepted
  exact accepted.1

theorem printable_path {texts : Texts Digest} {path : Path} (clean : Clean texts.control path) :
    Printable path.text :=
  printable_of_control clean.printable

theorem printable_of_all {text : List Char} (plain : text.all (!unprintable ·) = true) :
    Printable text := by
  intro char member
  simpa using List.all_eq_true.mp plain char member

theorem printable_capabilityPrefix : Printable capabilityPrefix :=
  printable_of_all rfl

theorem printable_languageEnding : Printable languageEnding :=
  printable_of_all rfl

theorem length_le_utf8Length (text : List Char) : text.length ≤ utf8Length text := by
  induction text with
  | nil => exact Nat.zero_le _
  | cons char text ih =>
      have := char.utf8Size_pos
      have unfolded : utf8Length (char :: text) = char.utf8Size + utf8Length text := by
        simp [utf8Length]
      rw [unfolded, List.length_cons]
      omega

end Keys

/-! ## How files differ -/

section Differences

variable {Digest Identity : Type} [DecidableEq Digest] [DecidableEq Identity]
  (texts : Texts Digest)

/-- How a source differs from what was recorded, as far as the system lets it be seen. -/
def sourceKind (tree : SourceTree Identity) (path : Path) (sha256 : Digest) (size : ℕ) :
    Option RunVerificationMismatchKind :=
  match observe texts tree path with
  | .error unobserved => some unobserved.kind
  | .ok (observedSha256, observedSize) =>
      if observedSha256 ≠ sha256 ∨ observedSize ≠ size then some .changed else none

/-- How a file of the inventory differs from the file that discovery finds. -/
def discoveredKind (files : List (MappedFile Digest)) (file : LanguageCapabilityFile Digest) :
    Option RunVerificationMismatchKind :=
  match foundAt files file.path with
  | none => some .missing
  | some observed =>
      if observed.sha256 ≠ file.sha256 ∨ observed.size ≠ file.size then some .changed else none

/-- The path of the file is the identifier of a wrong language. -/
def hiddenByLanguage (artifact : LanguageCapabilityArtifact Digest)
    (file : LanguageCapabilityFile Digest) : Bool :=
  artifact.files.any fun other =>
    wrongLanguage texts other && decide (file.path.text = other.path.text ++ languageEnding)

/-- How a file of the inventory differs: as a source, or else from what discovery finds. -/
def inventoryKind (tree : SourceTree Identity) (artifact : LanguageCapabilityArtifact Digest)
    (discovery : Option (DiscoveryResult Digest)) (file : LanguageCapabilityFile Digest) :
    Option RunVerificationMismatchKind :=
  (sourceKind texts tree file.path file.sha256 file.size).or
    (discovery.bind fun discovery =>
      if hiddenByLanguage texts artifact file then none else discoveredKind discovery.files file)

def omissionsDiffer (artifact : LanguageCapabilityArtifact Digest)
    (discovery : DiscoveryResult Digest) : Bool :=
  decide (sortedSet discovery.omitted ≠ artifact.omitted)

/-- How a path of the artifacts of the run differs. -/
def bindingKind (expectedBindings observedBindings : List (ManifestFileBinding texts))
    (path : List Char) : Option RunVerificationMismatchKind :=
  match bindingAt texts expectedBindings path, bindingAt texts observedBindings path with
  | none, some _ => some .unexpected
  | some _, none => some .missing
  | some expected, some observed =>
      if expected.sha256 ≠ observed.sha256 ∨ expected.size ≠ observed.size then some .changed
      else none
  | none, none => none

/-! ## The keys of the reports -/

def sourceKey (identifierPrefix : List Char) (path : Path) (kind : RunVerificationMismatchKind) :
    Key :=
  (.source, identifierPrefix ++ path.text, kind)

/-- Every item is reported under one key, if at all. -/
theorem map_filterMap_eq {Item Draft Value : Type} {draft : Item → Option Draft}
    {value : Draft → Value} {key : Item → Option Value}
    (reported : ∀ item, (draft item).map value = key item) (items : List Item) :
    (items.filterMap draft).map value = items.filterMap key := by
  rw [List.map_filterMap]
  exact List.filterMap_congr fun item _ => reported item

theorem sourceMismatch_key (tree : SourceTree Identity) (identifierPrefix : List Char)
    (binding : ManifestFileBinding texts) :
    (sourceMismatch texts identifierPrefix binding (observe texts tree binding.path)).map
        MismatchFields.key =
      (sourceKind texts tree binding.path binding.sha256 binding.size).map
        (sourceKey identifierPrefix binding.path) := by
  unfold sourceKind sourceMismatch
  cases observe texts tree binding.path with
  | error unobserved => rfl
  | ok observed =>
      obtain ⟨sha256, size⟩ := observed
      by_cases differs : sha256 ≠ binding.sha256 ∨ size ≠ binding.size
      · simp only [differs, ↓reduceIte]
        rfl
      · simp only [differs, ↓reduceIte]
        rfl

theorem bindingMismatch_key (expectedBindings observedBindings : List (ManifestFileBinding texts))
    (path : List Char) :
    (bindingMismatch texts .artifact expectedBindings observedBindings path).map
        MismatchFields.key =
      (bindingKind texts expectedBindings observedBindings path).map
        fun kind => (categoryOf path .artifact, path, kind) := by
  unfold bindingMismatch bindingKind
  cases bindingAt texts expectedBindings path with
  | none => cases bindingAt texts observedBindings path <;> rfl
  | some expected =>
      cases bindingAt texts observedBindings path with
      | none => rfl
      | some observed =>
          dsimp only
          split <;> rfl

theorem inventoryMismatch_key (existing : List (List Char)) (files : List (MappedFile Digest))
    (file : LanguageCapabilityFile Digest) :
    (inventoryMismatch existing files file).map MismatchFields.key =
      if capabilityPrefix ++ file.path.text ∈ existing then none
      else (discoveredKind files file).map (sourceKey capabilityPrefix file.path) := by
  unfold inventoryMismatch discoveredKind
  cases foundAt files file.path with
  | none =>
      dsimp only
      by_cases known : capabilityPrefix ++ file.path.text ∈ existing
      · rw [if_neg (not_not.mpr known), if_pos known]
        rfl
      · rw [if_pos known, if_neg known]
        rfl
  | some observed =>
      dsimp only
      by_cases known : capabilityPrefix ++ file.path.text ∈ existing
      · rw [if_neg (fun both => both.1 known), if_pos known]
        rfl
      · rw [if_neg known]
        by_cases differs : observed.sha256 ≠ file.sha256 ∨ observed.size ≠ file.size
        · rw [if_pos ⟨known, differs⟩, if_pos differs]
          rfl
        · rw [if_neg (fun both => differs both.2), if_neg differs]
          rfl

/-! ### The inventory -/

def languageKey (file : LanguageCapabilityFile Digest) : Key :=
  (.source, capabilityPrefix ++ file.path.text ++ languageEnding, .unverifiable)

def reconstructionKey : Key :=
  (.source, "language-capability/source-inventory/reconstruction".toList, .unverifiable)

def addedKey (file : MappedFile Digest) : Key :=
  sourceKey capabilityPrefix file.relativePath .unexpected

def omissionsKey : Key :=
  (.source, capabilityPrefix ++ omissionsName, .changed)

/-- The keys of what is reported after the files of the inventory. -/
def laterKeys (artifact : LanguageCapabilityArtifact Digest) :
    Option (DiscoveryResult Digest) → List Key
  | none => [reconstructionKey]
  | some discovery =>
      (addedFiles artifact discovery.files).map addedKey ++
        if omissionsDiffer artifact discovery then [omissionsKey] else []

def inventoryFileKeys (tree : SourceTree Identity) (artifact : LanguageCapabilityArtifact Digest)
    (discovery : Option (DiscoveryResult Digest)) : List Key :=
  artifact.files.filterMap fun file =>
    (inventoryKind texts tree artifact discovery file).map (sourceKey capabilityPrefix file.path)

/-- The keys of what is reported of an artifact, the files of the inventory first. -/
def inventoryKeys (tree : SourceTree Identity) (artifact : LanguageCapabilityArtifact Digest)
    (discovery : Option (DiscoveryResult Digest)) : List Key :=
  inventoryFileKeys texts tree artifact discovery ++
    ((artifact.files.filter (wrongLanguage texts)).map languageKey ++
      laterKeys artifact discovery)

/-- Two passes of which only one reports an item report what one pass with both would. -/
theorem perm_filterMap_or {Item Value : Type} (first second : Item → Option Value)
    (items : List Item) (once : ∀ item ∈ items, first item = none ∨ second item = none) :
    (items.filterMap first ++ items.filterMap second).Perm
      (items.filterMap fun item => (first item).or (second item)) := by
  induction items with
  | nil => exact List.Perm.nil
  | cons item items ih =>
      have later := ih fun other member => once other (List.mem_cons_of_mem _ member)
      rw [List.filterMap_cons, List.filterMap_cons, List.filterMap_cons]
      cases isFirst : first item with
      | none =>
          cases isSecond : second item with
          | none => exact later
          | some value => exact List.perm_middle.trans (later.cons value)
      | some value =>
          have isSecond : second item = none :=
            (once item List.mem_cons_self).resolve_left (by rw [isFirst]; exact Option.some_ne_none _)
          rw [isSecond]
          exact later.cons value

theorem perm_regroup {Value : Type} {first third joined : List Value}
    (both : (first ++ third).Perm joined) (second fourth fifth : List Value) :
    (first ++ second ++ third ++ fourth ++ fifth).Perm (joined ++ (second ++ (fourth ++ fifth))) := by
  have moved : (first ++ (second ++ (third ++ (fourth ++ fifth)))).Perm
      (first ++ (third ++ (second ++ (fourth ++ fifth)))) :=
    (List.perm_append_comm_assoc second third _).append_left first
  simp only [List.append_assoc]
  refine moved.trans ?_
  rw [← List.append_assoc first third]
  exact both.append_right _

/-- The bound files are looked at as the files of the inventory. -/
theorem sourceDrafts_keys (tree : SourceTree Identity)
    {artifact : LanguageCapabilityArtifact Digest}
    {sourceBindings : List (ManifestFileBinding texts)}
    (bound : boundFiles texts artifact = .ok sourceBindings) :
    (sourceDrafts texts tree capabilityPrefix sourceBindings).map MismatchFields.key =
      artifact.files.filterMap fun file =>
        (sourceKind texts tree file.path file.sha256 file.size).map
          (sourceKey capabilityPrefix file.path) := by
  let keyOf : Path × Digest × ℕ → Option Key := fun source =>
    (sourceKind texts tree source.1 source.2.1 source.2.2).map (sourceKey capabilityPrefix source.1)
  have byBinding := map_filterMap_eq (sourceMismatch_key texts tree capabilityPrefix) sourceBindings
  have triples := congrArg (List.filterMap keyOf) (boundFiles_spec texts bound).1
  rw [List.filterMap_map, List.filterMap_map] at triples
  exact byBinding.trans triples

theorem nodup_of_sortedPaths {Item : Type} {path : Item → Path} {items : List Item}
    (sorted : SortedPaths (items.map path)) : (items.map fun item => (path item).text).Nodup := by
  unfold SortedPaths at sorted
  rw [List.map_map] at sorted
  exact sorted.imp ne_of_lt

theorem file_eq_of_text {Digest : Type} (artifact : LanguageCapabilityArtifact Digest)
    {file other : LanguageCapabilityFile Digest} (member : file ∈ artifact.files)
    (otherMember : other ∈ artifact.files) (same : file.path.text = other.path.text) :
    file = other :=
  List.inj_on_of_nodup_map (nodup_of_sortedPaths artifact.filesSorted) member otherMember same

theorem mem_inventoryDrafts_identifiers {tree : SourceTree Identity}
    {artifact : LanguageCapabilityArtifact Digest}
    {sourceBindings : List (ManifestFileBinding texts)}
    (bound : boundFiles texts artifact = .ok sourceBindings)
    {file : LanguageCapabilityFile Digest} (member : file ∈ artifact.files) :
    capabilityPrefix ++ file.path.text ∈
        (inventoryDrafts texts tree artifact sourceBindings).map MismatchFields.identifier ↔
      (sourceKind texts tree file.path file.sha256 file.size).isSome = true ∨
        hiddenByLanguage texts artifact file = true := by
  have keys : (inventoryDrafts texts tree artifact sourceBindings).map MismatchFields.identifier =
      ((inventoryDrafts texts tree artifact sourceBindings).map MismatchFields.key).map
        fun key => key.2.1 := by
    rw [List.map_map]
    rfl
  rw [keys, inventoryDrafts, List.map_append, sourceDrafts_keys texts tree bound, List.map_append,
    List.mem_append]
  refine or_congr ?_ ?_
  · rw [List.mem_map]
    constructor
    · rintro ⟨key, keyMember, same⟩
      obtain ⟨other, otherMember, isKey⟩ := List.mem_filterMap.mp keyMember
      obtain ⟨kind, isKind, rfl⟩ := Option.map_eq_some_iff.mp isKey
      have sameFile : other = file :=
        file_eq_of_text artifact otherMember member (List.append_cancel_left same)
      rw [← sameFile, isKind]
      rfl
    · intro differs
      obtain ⟨kind, isKind⟩ := Option.isSome_iff_exists.mp differs
      exact ⟨_, List.mem_filterMap.mpr ⟨file, member, by rw [isKind]; rfl⟩, rfl⟩
  · rw [List.map_map, List.map_map, List.mem_map, hiddenByLanguage, List.any_eq_true]
    constructor
    · rintro ⟨other, otherMember, same⟩
      obtain ⟨isFile, wrong⟩ := List.mem_filter.mp otherMember
      refine ⟨other, isFile, ?_⟩
      have cancelled : other.path.text ++ languageEnding = file.path.text :=
        List.append_cancel_left ((List.append_assoc _ _ _).symm.trans same)
      rw [wrong, cancelled, decide_eq_true rfl]
      rfl
    · rintro ⟨other, isFile, hides⟩
      obtain ⟨wrong, same⟩ := (Bool.and_eq_true _ _).mp hides
      refine ⟨other, List.mem_filter.mpr ⟨isFile, wrong⟩, ?_⟩
      change capabilityPrefix ++ other.path.text ++ languageEnding = _
      rw [of_decide_eq_true same, List.append_assoc]

/-- The reports of an artifact have these keys, in another order. -/
theorem artifactDrafts_keys_perm {tree : SourceTree Identity} {around : Surroundings Digest}
    {artifact : LanguageCapabilityArtifact Digest}
    {sourceBindings : List (ManifestFileBinding texts)}
    (bound : boundFiles texts artifact = .ok sourceBindings) :
    ((artifactDrafts texts tree around artifact sourceBindings).map MismatchFields.key).Perm
      (inventoryKeys texts tree artifact (rediscovered texts around artifact)) := by
  have languages : (artifact.files.filter (wrongLanguage texts)).map
      (MismatchFields.key ∘ languageMismatch) =
        (artifact.files.filter (wrongLanguage texts)).map languageKey := rfl
  unfold artifactDrafts inventoryKeys
  cases rediscovered texts around artifact with
  | none =>
      have files : inventoryFileKeys texts tree artifact none =
          artifact.files.filterMap fun file =>
            (sourceKind texts tree file.path file.sha256 file.size).map
              (sourceKey capabilityPrefix file.path) := by
        unfold inventoryFileKeys inventoryKind
        simp only [Option.bind_none, Option.or_none]
      dsimp only
      rw [List.map_append, inventoryDrafts, List.map_append, sourceDrafts_keys texts tree bound,
        List.map_map, languages, files, List.append_assoc]
      exact List.Perm.refl _
  | some discovery =>
      have files : (artifact.files.filterMap (inventoryMismatch
          ((inventoryDrafts texts tree artifact sourceBindings).map MismatchFields.identifier)
          discovery.files)).map MismatchFields.key =
            artifact.files.filterMap fun file =>
              if (sourceKind texts tree file.path file.sha256 file.size).isSome = true ∨
                  hiddenByLanguage texts artifact file = true then none
              else (discoveredKind discovery.files file).map
                (sourceKey capabilityPrefix file.path) := by
        rw [map_filterMap_eq (inventoryMismatch_key _ discovery.files)]
        refine List.filterMap_congr fun file member => ?_
        simp only [mem_inventoryDrafts_identifiers texts bound member]
      have omissions : (omissionsChange texts artifact discovery).toList.map MismatchFields.key =
          if omissionsDiffer artifact discovery then [omissionsKey] else [] := by
        unfold omissionsChange omissionsDiffer
        by_cases differ : sortedSet discovery.omitted ≠ artifact.omitted
        · rw [if_pos differ, decide_eq_true differ]
          rfl
        · rw [if_neg differ, decide_eq_false differ]
          rfl
      have both := perm_filterMap_or
        (fun file : LanguageCapabilityFile Digest =>
          (sourceKind texts tree file.path file.sha256 file.size).map
            (sourceKey capabilityPrefix file.path))
        (fun file => if (sourceKind texts tree file.path file.sha256 file.size).isSome = true ∨
            hiddenByLanguage texts artifact file = true then none
          else (discoveredKind discovery.files file).map (sourceKey capabilityPrefix file.path))
        artifact.files fun file _ => by
          cases sourceKind texts tree file.path file.sha256 file.size with
          | none => exact Or.inl rfl
          | some kind => exact Or.inr (if_pos (Or.inl rfl))
      have joined : inventoryFileKeys texts tree artifact (some discovery) =
          artifact.files.filterMap fun file =>
            ((sourceKind texts tree file.path file.sha256 file.size).map
              (sourceKey capabilityPrefix file.path)).or
            (if (sourceKind texts tree file.path file.sha256 file.size).isSome = true ∨
                hiddenByLanguage texts artifact file = true then none
              else (discoveredKind discovery.files file).map
                (sourceKey capabilityPrefix file.path)) := by
        refine List.filterMap_congr fun file _ => ?_
        unfold inventoryKind
        rw [Option.bind_some]
        cases sourceKind texts tree file.path file.sha256 file.size with
        | some kind => rfl
        | none =>
            by_cases hidden : hiddenByLanguage texts artifact file = true
            · simp [hidden]
            · simp [hidden]
      dsimp only
      rw [discoveryDrafts, List.map_append, List.map_append, List.map_append, files, omissions,
        inventoryDrafts, List.map_append, sourceDrafts_keys texts tree bound, List.map_map,
        languages, List.map_map, joined]
      exact perm_regroup both _ _ _

end Differences

end Verification

end MmAudit
