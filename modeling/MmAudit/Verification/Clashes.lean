import MmAudit.Verification.Soundness

/-!
# Identifiers that clash

The identifiers of the sources of the manifest and those of the inventory share one space:
the inventory's begin with a prefix that a path of the manifest may begin with as well.
So two mismatches can have one key.  An identifier can also grow too long behind the prefix.
-/

namespace MmAudit

namespace Verification

open Fallible SortedSets Ignore Discovery Context

/-! ## All keys -/

section Exact

variable {Digest Identity : Type} [DecidableEq Digest] [DecidableEq Identity]
  (texts : Texts Digest) (evidence : Evidence texts Identity)

/-- The manifest binds a language-capability artifact. -/
def bindsCapability : Bool :=
  evidence.manifest.artifacts.any fun binding =>
    decide (binding.path.text = languageCapabilityArtifactPath)

/-- The artifact whose files are compared. -/
def inventory : Option (LanguageCapabilityArtifact Digest) :=
  if bindsCapability texts evidence then
    (readArtifact texts evidence.toSurroundings).toOption.map Prod.fst
  else
    none

/-- The discovery that the artifact is compared with. -/
def discoveryFor (artifact : LanguageCapabilityArtifact Digest) :
    Option (DiscoveryResult Digest) :=
  rediscovered texts evidence.toSurroundings artifact

/-- How a source of the manifest differs. -/
def manifestKind (source : ManifestFileBinding texts) : Option RunVerificationMismatchKind :=
  sourceKind texts evidence.tree source.path source.sha256 source.size

/-- How a file of the inventory differs. -/
def fileKind (artifact : LanguageCapabilityArtifact Digest)
    (file : LanguageCapabilityFile Digest) : Option RunVerificationMismatchKind :=
  inventoryKind texts evidence.tree artifact (discoveryFor texts evidence artifact) file

def unreadKey : Key :=
  (.artifact, "language-capability/source-inventory".toList, .unverifiable)

def manifestKeys : List Key :=
  evidence.manifest.sources.filterMap fun source =>
    (manifestKind texts evidence source).map (sourceKey [] source.path)

def capabilityKeys : List Key :=
  match inventory texts evidence with
  | some artifact =>
      inventoryKeys texts evidence.tree artifact (discoveryFor texts evidence artifact)
  | none => if bindsCapability texts evidence then [unreadKey] else []

def runArtifactKeys : List Key :=
  (bindingPaths texts evidence.manifest.artifacts evidence.observedArtifacts).filterMap fun path =>
    (bindingKind texts evidence.manifest.artifacts evidence.observedArtifacts path).map
      fun kind => (categoryOf path .artifact, path, kind)

def fileKeys : List Key :=
  manifestKeys texts evidence ++ (capabilityKeys texts evidence ++ runArtifactKeys texts evidence)

theorem capabilityDrafts_spec :
    (∀ draft ∈ capabilityDrafts texts evidence.tree evidence.toSurroundings evidence.manifest,
        draft.Sound) ∧
      ((capabilityDrafts texts evidence.tree evidence.toSurroundings evidence.manifest).map
        MismatchFields.key).Perm (capabilityKeys texts evidence) := by
  unfold capabilityDrafts capabilityKeys inventory
  cases found : evidence.manifest.artifacts.find? fun binding =>
      binding.path.text = languageCapabilityArtifactPath with
  | none =>
      have unbound : bindsCapability texts evidence = false := by
        rw [bindsCapability, List.any_eq_false]
        exact fun binding member => List.find?_eq_none.mp found binding member
      have older : evidence.manifest.schemaVersion ≠ .v12 := by
        intro newest
        obtain ⟨binding, member, same⟩ := evidence.manifest.capabilityBound newest
        exact List.find?_eq_none.mp found binding member (decide_eq_true same)
      simp only [unbound, older, ne_eq, not_false_eq_true, ↓reduceIte, Bool.false_eq_true,
        List.map_nil, List.Perm.refl, and_true]
      exact fun draft member => absurd member List.not_mem_nil
  | some binding =>
      have bound : bindsCapability texts evidence = true :=
        List.any_eq_true.mpr ⟨binding, List.mem_of_find?_eq_some found,
          @List.find?_some _ (fun binding : ManifestFileBinding texts =>
            decide (binding.path.text = languageCapabilityArtifactPath)) _ _ found⟩
      simp only [bound, ↓reduceIte]
      cases isRead : readArtifact texts evidence.toSurroundings with
      | error raised =>
          refine ⟨fun draft member => ?_, List.Perm.refl _⟩
          obtain rfl := List.mem_singleton.mp member
          exact sound_inventoryUnverifiable texts (some binding)
      | ok read =>
          obtain ⟨artifact, -, later⟩ := bind_eq_ok_iff.mp isRead
          obtain ⟨bindings, bound, same⟩ := bind_eq_ok_iff.mp later
          cases same
          exact ⟨sound_artifactDrafts texts bound, artifactDrafts_keys_perm texts bound⟩

theorem fileDrafts_keys_perm :
    ((fileDrafts texts evidence).map MismatchFields.key).Perm (fileKeys texts evidence) := by
  have sources := map_filterMap_eq (sourceMismatch_key texts evidence.tree [])
    evidence.manifest.sources
  have artifacts := map_filterMap_eq
    (bindingMismatch_key texts evidence.manifest.artifacts evidence.observedArtifacts)
    (bindingPaths texts evidence.manifest.artifacts evidence.observedArtifacts)
  unfold fileDrafts fileKeys sourceDrafts runArtifactDrafts
  rw [List.map_append, List.map_append, sources, artifacts, List.append_assoc]
  exact ((capabilityDrafts_spec texts evidence).2.append_right _).append_left _

theorem sound_fileDrafts : ∀ draft ∈ fileDrafts texts evidence, draft.Sound := by
  intro draft member
  unfold fileDrafts at member
  rcases List.mem_append.mp member with earlier | artifact
  · rcases List.mem_append.mp earlier with source | capability
    · obtain ⟨binding, -, reported⟩ := List.mem_filterMap.mp source
      exact sound_sourceMismatch texts (fun _ absent => absurd absent List.not_mem_nil) reported
    · exact (capabilityDrafts_spec texts evidence).1 draft capability
  · obtain ⟨path, listed, reported⟩ := List.mem_filterMap.mp artifact
    exact (sound_bindingMismatch texts listed reported).1

/-- What is reported becomes a payload exactly when the keys are distinct, short and few. -/
theorem acceptable_iff :
    Acceptable texts evidence ↔
      (∀ source ∈ evidence.manifest.sources, drivePath source.path.text = false) ∧
        (∀ key ∈ fileKeys texts evidence, key.2.1.length ≤ 4096) ∧
        (fileKeys texts evidence).Nodup ∧ (fileKeys texts evidence).length ≤ 200000 := by
  have perm := fileDrafts_keys_perm texts evidence
  have valid := forall_validate_iff (sound_fileDrafts texts evidence)
  have sameKeys : (∀ key ∈ (fileDrafts texts evidence).map MismatchFields.key,
      key.2.1.length ≤ 4096) ↔ ∀ key ∈ fileKeys texts evidence, key.2.1.length ≤ 4096 :=
    forall_congr' fun key => imp_congr perm.mem_iff Iff.rfl
  have sameLength : (fileDrafts texts evidence).length = (fileKeys texts evidence).length := by
    rw [← perm.length_eq, List.length_map]
  constructor
  · intro acceptable
    refine ⟨acceptable.noDrive, sameKeys.mp (valid.mp acceptable.valid), ?_, ?_⟩
    · exact perm.nodup_iff.mp ((nodup_sortKeys_iff _).mp acceptable.distinct)
    · exact sameLength ▸ acceptable.few
  · rintro ⟨noDrive, short, distinct, few⟩
    refine ⟨noDrive, valid.mpr (sameKeys.mpr short), ?_, sameLength ▸ few⟩
    exact (nodup_sortKeys_iff _).mpr (perm.nodup_iff.mpr distinct)

/-! ## The exact condition -/

/-- How many mismatches the inventory gives. -/
def capabilityCount : ℕ :=
  match inventory texts evidence with
  | some artifact =>
      artifact.files.countP (fun file => (fileKind texts evidence artifact file).isSome) +
        (artifact.files.countP (wrongLanguage texts) +
          match discoveryFor texts evidence artifact with
          | none => 1
          | some discovery => (addedFiles artifact discovery.files).length +
              if omissionsDiffer artifact discovery then 1 else 0)
  | none => if bindsCapability texts evidence then 1 else 0

/-- How many files differ, those of the inventory counted on their own. -/
def differenceCount : ℕ :=
  evidence.manifest.sources.countP (fun source => (manifestKind texts evidence source).isSome) +
    (capabilityCount texts evidence +
      (bindingPaths texts evidence.manifest.artifacts evidence.observedArtifacts).countP fun path =>
        (bindingKind texts evidence.manifest.artifacts evidence.observedArtifacts path).isSome)

/-- No two differences share an identifier and a kind, no identifier is too long, no path of the
manifest begins with a drive letter, and there are not too many differences. -/
structure Reportable : Prop where
  noDrive : ∀ source ∈ evidence.manifest.sources, drivePath source.path.text = false
  filesShort : ∀ artifact ∈ inventory texts evidence, ∀ file ∈ artifact.files,
    fileKind texts evidence artifact file ≠ none → file.path.text.length ≤ 4076
  languagesShort : ∀ artifact ∈ inventory texts evidence, ∀ file ∈ artifact.files,
    wrongLanguage texts file = true → file.path.text.length ≤ 4067
  addedShort : ∀ artifact ∈ inventory texts evidence,
    ∀ discovery ∈ discoveryFor texts evidence artifact,
      ∀ file ∈ addedFiles artifact discovery.files, file.relativePath.text.length ≤ 4076
  filesApart : ∀ artifact ∈ inventory texts evidence, ∀ file ∈ artifact.files,
    ∀ source ∈ evidence.manifest.sources,
      source.path.text = capabilityPrefix ++ file.path.text →
        manifestKind texts evidence source ≠ none →
          manifestKind texts evidence source ≠ fileKind texts evidence artifact file
  omissionsApart : ∀ artifact ∈ inventory texts evidence,
    ∀ discovery ∈ discoveryFor texts evidence artifact,
      omissionsDiffer artifact discovery = true →
        (∀ source ∈ evidence.manifest.sources,
          source.path.text = capabilityPrefix ++ omissionsName →
            manifestKind texts evidence source ≠ some .changed) ∧
        ∀ file ∈ artifact.files, file.path.text = omissionsName →
          fileKind texts evidence artifact file ≠ some .changed
  few : differenceCount texts evidence ≤ 200000

theorem length_fileKeys : (fileKeys texts evidence).length = differenceCount texts evidence := by
  unfold fileKeys differenceCount manifestKeys runArtifactKeys
  rw [List.length_append, List.length_append, List.length_filterMap_eq_countP,
    List.length_filterMap_eq_countP]
  simp only [Option.isSome_map]
  congr 2
  unfold capabilityKeys capabilityCount
  cases inventory texts evidence with
  | none => cases bindsCapability texts evidence <;> rfl
  | some artifact =>
      dsimp only
      unfold inventoryKeys inventoryFileKeys
      rw [List.length_append, List.length_append, List.length_filterMap_eq_countP, List.length_map,
        ← List.countP_eq_length_filter]
      simp only [Option.isSome_map]
      unfold laterKeys fileKind
      cases discoveryFor texts evidence artifact with
      | none => rfl
      | some discovery =>
          dsimp only
          rw [List.length_append, List.length_map]
          cases omissionsDiffer artifact discovery <;> rfl

theorem short_fileKeys_iff :
    (∀ key ∈ fileKeys texts evidence, key.2.1.length ≤ 4096) ↔
      (∀ artifact ∈ inventory texts evidence, ∀ file ∈ artifact.files,
        fileKind texts evidence artifact file ≠ none → file.path.text.length ≤ 4076) ∧
      (∀ artifact ∈ inventory texts evidence, ∀ file ∈ artifact.files,
        wrongLanguage texts file = true → file.path.text.length ≤ 4067) ∧
      ∀ artifact ∈ inventory texts evidence,
        ∀ discovery ∈ discoveryFor texts evidence artifact,
          ∀ file ∈ addedFiles artifact discovery.files,
            file.relativePath.text.length ≤ 4076 := by
  have prefixLength : capabilityPrefix.length = 20 := rfl
  have endingLength : languageEnding.length = 9 := rfl
  constructor
  · intro short
    have shortInventory : ∀ artifact ∈ inventory texts evidence,
        ∀ key ∈ inventoryKeys texts evidence.tree artifact (discoveryFor texts evidence artifact),
          key.2.1.length ≤ 4096 := by
      intro artifact isArtifact key member
      refine short key (List.mem_append_right _ (List.mem_append_left _ ?_))
      rw [capabilityKeys, isArtifact]
      exact member
    refine ⟨fun artifact isArtifact file member differs => ?_,
      fun artifact isArtifact file member wrong => ?_,
      fun artifact isArtifact discovery isDiscovery file member => ?_⟩
    · obtain ⟨kind, isKind⟩ := Option.ne_none_iff_exists'.mp differs
      have isShort := shortInventory artifact isArtifact
        (sourceKey capabilityPrefix file.path kind) (List.mem_append_left _
          (List.mem_filterMap.mpr ⟨file, member, by
            rw [show inventoryKind texts evidence.tree artifact
              (discoveryFor texts evidence artifact) file = some kind from isKind]
            rfl⟩))
      rw [sourceKey, List.length_append, prefixLength] at isShort
      omega
    · have isShort := shortInventory artifact isArtifact (languageKey file)
        (List.mem_append_right _ (List.mem_append_left _
          (List.mem_map_of_mem (List.mem_filter.mpr ⟨member, wrong⟩))))
      rw [languageKey, List.length_append, List.length_append, prefixLength, endingLength]
        at isShort
      omega
    · have isShort := shortInventory artifact isArtifact (addedKey file)
        (List.mem_append_right _ (List.mem_append_right _ (by
          rw [show discoveryFor texts evidence artifact = some discovery from isDiscovery]
          exact List.mem_append_left _ (List.mem_map_of_mem member))))
      rw [addedKey, sourceKey, List.length_append, prefixLength] at isShort
      omega
  · rintro ⟨filesShort, languagesShort, addedShort⟩ key member
    rcases List.mem_append.mp member with source | later
    · obtain ⟨binding, -, isKey⟩ := List.mem_filterMap.mp source
      obtain ⟨kind, -, rfl⟩ := Option.map_eq_some_iff.mp isKey
      exact (length_le_utf8Length _).trans binding.clean.short
    rcases List.mem_append.mp later with capability | artifact
    · unfold capabilityKeys at capability
      cases isArtifact : inventory texts evidence with
      | none =>
          rw [isArtifact] at capability
          dsimp only at capability
          split at capability
          · obtain rfl := List.mem_singleton.mp capability
            exact of_decide_eq_true rfl
          · cases capability
      | some artifact =>
          rw [isArtifact] at capability
          rcases List.mem_append.mp capability with reported | other
          · obtain ⟨file, isFile, isKey⟩ := List.mem_filterMap.mp reported
            obtain ⟨kind, isKind, rfl⟩ := Option.map_eq_some_iff.mp isKey
            have := filesShort artifact isArtifact file isFile (by
              rw [fileKind, isKind]
              exact Option.some_ne_none _)
            rw [sourceKey, List.length_append, prefixLength]
            omega
          rcases List.mem_append.mp other with language | last
          · obtain ⟨file, isFile, rfl⟩ := List.mem_map.mp language
            obtain ⟨listed, wrong⟩ := List.mem_filter.mp isFile
            have := languagesShort artifact isArtifact file listed wrong
            rw [languageKey, List.length_append, List.length_append, prefixLength, endingLength]
            omega
          · rcases mem_laterKeys last with rfl | ⟨discovery, isDiscovery, added | omissions⟩
            · exact of_decide_eq_true rfl
            · obtain ⟨file, isFile, rfl⟩ := added
              have := addedShort artifact isArtifact discovery isDiscovery file isFile
              rw [addedKey, sourceKey, List.length_append, prefixLength]
              omega
            · rw [omissions.2]
              exact of_decide_eq_true rfl
    · obtain ⟨path, listed, isKey⟩ := List.mem_filterMap.mp artifact
      obtain ⟨kind, -, rfl⟩ := Option.map_eq_some_iff.mp isKey
      obtain ⟨binding, -, rfl⟩ := List.mem_map.mp (mem_sortedSet.mp listed)
      exact (length_le_utf8Length _).trans binding.clean.short

/-! ### Distinct keys -/

theorem nodup_filterMap_of_nodup {Item Value Name : Type} {report : Item → Option Value}
    (name : Value → Name) (nameOf : Item → Name) {items : List Item}
    (named : ∀ item value, report item = some value → name value = nameOf item)
    (distinct : (items.map nameOf).Nodup) : (items.filterMap report).Nodup := by
  have within : ((items.filterMap report).map name).Sublist (items.map nameOf) := by
    induction items with
    | nil => exact List.Sublist.refl _
    | cons item items ih =>
        have later := ih (List.nodup_cons.mp distinct).2
        rw [List.filterMap_cons]
        cases reported : report item with
        | none => exact later.cons _
        | some value =>
            rw [List.map_cons, List.map_cons, named item value reported]
            exact later.cons_cons _
  exact List.Nodup.of_map name (distinct.sublist within)

theorem sourceKind_cases {tree : SourceTree Identity} {path : Path} {sha256 : Digest} {size : ℕ}
    {kind : RunVerificationMismatchKind}
    (isKind : sourceKind texts tree path sha256 size = some kind) :
    kind = .missing ∨ kind = .isUnsafe ∨ kind = .changed := by
  unfold sourceKind at isKind
  cases observed : observe texts tree path with
  | error unobserved =>
      rw [observed] at isKind
      cases unobserved <;> cases isKind
      · exact Or.inl rfl
      · exact Or.inr (Or.inl rfl)
  | ok found =>
      rw [observed] at isKind
      dsimp only at isKind
      split at isKind
      · cases isKind
        exact Or.inr (Or.inr rfl)
      · cases isKind

theorem fileKind_cases {artifact : LanguageCapabilityArtifact Digest}
    {file : LanguageCapabilityFile Digest} {kind : RunVerificationMismatchKind}
    (isKind : fileKind texts evidence artifact file = some kind) :
    kind = .missing ∨ kind = .isUnsafe ∨ kind = .changed := by
  rcases Option.or_eq_some_iff.mp isKind with source | ⟨-, later⟩
  · exact sourceKind_cases texts source
  · obtain ⟨discovery, -, found⟩ := Option.bind_eq_some_iff.mp later
    split at found
    · cases found
    · unfold discoveredKind at found
      split at found
      · cases found
        exact Or.inl rfl
      · split at found
        · cases found
          exact Or.inr (Or.inr rfl)
        · cases found

theorem mem_manifestKeys {key : Key} :
    key ∈ manifestKeys texts evidence ↔ ∃ source ∈ evidence.manifest.sources,
      ∃ kind, manifestKind texts evidence source = some kind ∧
        key = (.source, source.path.text, kind) := by
  unfold manifestKeys
  rw [List.mem_filterMap]
  refine exists_congr fun source => and_congr_right fun _ => ?_
  rw [Option.map_eq_some_iff]
  exact exists_congr fun kind => and_congr_right fun _ => eq_comm

theorem mem_inventoryFileKeys {artifact : LanguageCapabilityArtifact Digest} {key : Key} :
    key ∈ inventoryFileKeys texts evidence.tree artifact (discoveryFor texts evidence artifact) ↔
      ∃ file ∈ artifact.files, ∃ kind, fileKind texts evidence artifact file = some kind ∧
        key = (.source, capabilityPrefix ++ file.path.text, kind) := by
  unfold inventoryFileKeys
  rw [List.mem_filterMap]
  refine exists_congr fun file => and_congr_right fun _ => ?_
  rw [Option.map_eq_some_iff]
  exact exists_congr fun kind => and_congr_right fun _ => eq_comm

theorem nodup_manifestKeys : (manifestKeys texts evidence).Nodup := by
  refine nodup_filterMap_of_nodup (fun key : Key => key.2.1) _ ?_
    (nodup_of_sortedPaths evidence.manifest.sourcesSorted)
  intro source key isKey
  obtain ⟨kind, -, rfl⟩ := Option.map_eq_some_iff.mp isKey
  rfl

theorem nodup_inventoryFileKeys (artifact : LanguageCapabilityArtifact Digest)
    (discovery : Option (DiscoveryResult Digest)) :
    (inventoryFileKeys texts evidence.tree artifact discovery).Nodup := by
  refine nodup_filterMap_of_nodup (fun key : Key => key.2.1.drop capabilityPrefix.length) _ ?_
    (nodup_of_sortedPaths artifact.filesSorted)
  intro file key isKey
  obtain ⟨kind, -, rfl⟩ := Option.map_eq_some_iff.mp isKey
  exact List.drop_left

omit [DecidableEq Identity] in
theorem nodup_runArtifactKeys : (runArtifactKeys texts evidence).Nodup := by
  refine nodup_filterMap_of_nodup (fun key : Key => key.2.1) id ?_ ?_
  · intro path key isKey
    obtain ⟨kind, -, rfl⟩ := Option.map_eq_some_iff.mp isKey
    rfl
  · rw [List.map_id]
    exact nodup_sortedSet _

theorem seen_of_mem_manifestKeys {key : Key} (member : key ∈ manifestKeys texts evidence) :
    Seen key := by
  obtain ⟨source, -, kind, isKind, rfl⟩ := (mem_manifestKeys texts evidence).mp member
  exact sourceKind_cases texts isKind

theorem seen_of_mem_inventoryFileKeys {artifact : LanguageCapabilityArtifact Digest} {key : Key}
    (member : key ∈ inventoryFileKeys texts evidence.tree artifact
      (discoveryFor texts evidence artifact)) : Seen key := by
  obtain ⟨file, -, kind, isKind, rfl⟩ := (mem_inventoryFileKeys texts evidence).mp member
  exact fileKind_cases texts evidence isKind

omit [DecidableEq Digest] [DecidableEq Identity] in
theorem nodup_laterKeys {artifact : LanguageCapabilityArtifact Digest} :
    (laterKeys artifact (discoveryFor texts evidence artifact)).Nodup := by
  cases found : discoveryFor texts evidence artifact with
  | none => exact List.nodup_singleton _
  | some discovery =>
      refine List.nodup_append'.mpr ⟨?_, ?_, ?_⟩
      · have paths : ((addedFiles artifact discovery.files).map fun file =>
            file.relativePath).Nodup :=
          (rediscovered_spec texts found).1.sublist (List.filter_sublist.map _)
        have keys := paths.map sourceKey_unexpected_injective
        rw [List.map_map] at keys
        exact keys
      · split
        · exact List.nodup_singleton _
        · exact List.nodup_nil
      · intro key added omissions
        obtain ⟨file, -, rfl⟩ := List.mem_map.mp added
        split at omissions
        · have same := congrArg (fun key : Key => key.2.2) (List.mem_singleton.mp omissions)
          exact nomatch (show RunVerificationMismatchKind.unexpected = .changed from same)
        · cases omissions

omit [DecidableEq Identity] in
theorem mem_runArtifactKeys {key : Key} (member : key ∈ runArtifactKeys texts evidence) :
    key.1 ≠ .source ∧ key.2.2 ≠ .unverifiable := by
  obtain ⟨path, -, isKey⟩ := List.mem_filterMap.mp member
  obtain ⟨kind, isKind, rfl⟩ := Option.map_eq_some_iff.mp isKey
  constructor
  · change categoryOf path .artifact ≠ .source
    unfold categoryOf
    split <;> decide
  · rintro (rfl : kind = .unverifiable)
    unfold bindingKind at isKind
    split at isKind
    · cases isKind
    · cases isKind
    · split at isKind <;> cases isKind
    · cases isKind

theorem mem_inventoryKeys {artifact : LanguageCapabilityArtifact Digest} {key : Key}
    (member : key ∈ inventoryKeys texts evidence.tree artifact
      (discoveryFor texts evidence artifact)) : key.1 = .source := by
  rcases List.mem_append.mp member with file | other
  · obtain ⟨file, -, kind, -, rfl⟩ := (mem_inventoryFileKeys texts evidence).mp file
    rfl
  rcases List.mem_append.mp other with language | later
  · obtain ⟨file, -, rfl⟩ := List.mem_map.mp language
    rfl
  · rcases mem_laterKeys later with rfl | ⟨discovery, -, ⟨file, -, rfl⟩ | ⟨-, rfl⟩⟩ <;> rfl

/-- The keys of an inventory are distinct unless a file has the name of the omissions. -/
theorem nodup_inventoryKeys_iff (artifact : LanguageCapabilityArtifact Digest) :
    (inventoryKeys texts evidence.tree artifact (discoveryFor texts evidence artifact)).Nodup ↔
      ∀ discovery ∈ discoveryFor texts evidence artifact,
        omissionsDiffer artifact discovery = true →
          ∀ file ∈ artifact.files, file.path.text = omissionsName →
            fileKind texts evidence artifact file ≠ some .changed := by
  have languagesNodup : ((artifact.files.filter (wrongLanguage texts)).map languageKey).Nodup := by
    have names : ((artifact.files.filter (wrongLanguage texts)).map fun file =>
        file.path.text).Nodup :=
      (nodup_of_sortedPaths artifact.filesSorted).sublist (List.filter_sublist.map _)
    have keys := names.map languageKey_injective
    rw [List.map_map] at keys
    exact keys
  have languagesApart : ((artifact.files.filter (wrongLanguage texts)).map languageKey).Disjoint
      (laterKeys artifact (discoveryFor texts evidence artifact)) := by
    intro key language later
    obtain ⟨file, -, rfl⟩ := List.mem_map.mp language
    rcases mem_laterKeys later with same | ⟨discovery, -, ⟨added, -, same⟩ | ⟨-, same⟩⟩
    · exact languageKey_ne_reconstructionKey file same
    · exact nomatch (show RunVerificationMismatchKind.unverifiable = .unexpected from
        congrArg (fun key : Key => key.2.2) same)
    · exact nomatch (show RunVerificationMismatchKind.unverifiable = .changed from
        congrArg (fun key : Key => key.2.2) same)
  unfold inventoryKeys
  rw [List.nodup_append', List.nodup_append']
  constructor
  · rintro ⟨-, -, apart⟩ discovery isDiscovery differ file isFile isOmissions isKind
    have member := (mem_inventoryFileKeys texts evidence).mpr ⟨file, isFile, _, isKind, rfl⟩
    rw [isOmissions] at member
    refine apart member (List.mem_append_right _ ((seen_mem_laterKeys_iff ?_).mpr
      ⟨rfl, discovery, isDiscovery, differ⟩))
    exact Or.inr (Or.inr rfl)
  · intro named
    refine ⟨nodup_inventoryFileKeys texts evidence artifact _,
      ⟨languagesNodup, nodup_laterKeys texts evidence, languagesApart⟩, ?_⟩
    intro key isFile isOther
    have seen := seen_of_mem_inventoryFileKeys texts evidence isFile
    rcases List.mem_append.mp isOther with language | later
    · obtain ⟨file, -, rfl⟩ := List.mem_map.mp language
      exact not_seen_languageKey file seen
    · obtain ⟨isKey, discovery, isDiscovery, differ⟩ := (seen_mem_laterKeys_iff seen).mp later
      obtain ⟨file, member, kind, isKind, same⟩ :=
        (mem_inventoryFileKeys texts evidence).mp isFile
      have parts := same.symm.trans isKey
      refine named discovery isDiscovery differ file member
        (List.append_cancel_left (congrArg (fun key : Key => key.2.1) parts)) ?_
      rw [isKind]
      exact congrArg (fun key : Key => some key.2.2) parts

/-- The keys are distinct exactly when no identifier stands for two differences of one kind. -/
theorem nodup_fileKeys_iff :
    (fileKeys texts evidence).Nodup ↔
      (∀ artifact ∈ inventory texts evidence, ∀ file ∈ artifact.files,
        ∀ source ∈ evidence.manifest.sources,
          source.path.text = capabilityPrefix ++ file.path.text →
            manifestKind texts evidence source ≠ none →
              manifestKind texts evidence source ≠ fileKind texts evidence artifact file) ∧
      ∀ artifact ∈ inventory texts evidence,
        ∀ discovery ∈ discoveryFor texts evidence artifact,
          omissionsDiffer artifact discovery = true →
            (∀ source ∈ evidence.manifest.sources,
              source.path.text = capabilityPrefix ++ omissionsName →
                manifestKind texts evidence source ≠ some .changed) ∧
            ∀ file ∈ artifact.files, file.path.text = omissionsName →
              fileKind texts evidence artifact file ≠ some .changed := by
  have manifestNodup := nodup_manifestKeys texts evidence
  have runNodup := nodup_runArtifactKeys texts evidence
  have manifestSource : ∀ key ∈ manifestKeys texts evidence, key.1 = .source := by
    intro key member
    obtain ⟨source, -, kind, -, rfl⟩ := (mem_manifestKeys texts evidence).mp member
    rfl
  have runApart : (manifestKeys texts evidence).Disjoint (runArtifactKeys texts evidence) :=
    fun key isSource isRun => (mem_runArtifactKeys texts evidence isRun).1 (manifestSource key isSource)
  have capabilityApart : (capabilityKeys texts evidence).Disjoint
      (runArtifactKeys texts evidence) := by
    intro key isCapability isRun
    unfold capabilityKeys at isCapability
    split at isCapability
    · exact (mem_runArtifactKeys texts evidence isRun).1 (mem_inventoryKeys texts evidence isCapability)
    · split at isCapability
      · obtain rfl := List.mem_singleton.mp isCapability
        exact (mem_runArtifactKeys texts evidence isRun).2 rfl
      · cases isCapability
  have whole : (fileKeys texts evidence).Nodup ↔ (capabilityKeys texts evidence).Nodup ∧
      (manifestKeys texts evidence).Disjoint (capabilityKeys texts evidence) := by
    unfold fileKeys
    rw [List.nodup_append', List.nodup_append', List.disjoint_append_right]
    tauto
  rw [whole]
  unfold capabilityKeys
  cases inventory texts evidence with
  | none =>
      simp only [Option.not_mem_none, IsEmpty.forall_iff, implies_true, and_self, iff_true]
      split
      · refine ⟨List.nodup_singleton _, fun key isSource isUnread => ?_⟩
        obtain rfl := List.mem_singleton.mp isUnread
        exact nomatch (show RunVerificationCategory.artifact = .source from manifestSource _ isSource)
      · exact ⟨List.nodup_nil, List.disjoint_nil_right _⟩
  | some artifact =>
      simp only [Option.mem_def, Option.some.injEq, forall_eq']
      rw [nodup_inventoryKeys_iff]
      constructor
      · rintro ⟨inner, apart⟩
        refine ⟨fun file isFile source isSource sameText differs sameKind => ?_,
          fun discovery isDiscovery differ =>
            ⟨fun source isSource isOmissions isKind => ?_, inner discovery isDiscovery differ⟩⟩
        · obtain ⟨kind, isKind⟩ := Option.ne_none_iff_exists'.mp differs
          refine apart ((mem_manifestKeys texts evidence).mpr ⟨source, isSource, kind, isKind, rfl⟩)
            (List.mem_append_left _ ((mem_inventoryFileKeys texts evidence).mpr
              ⟨file, isFile, kind, sameKind.symm.trans isKind, ?_⟩))
          rw [sameText]
        · have member := (mem_manifestKeys texts evidence).mpr ⟨source, isSource, _, isKind, rfl⟩
          rw [isOmissions] at member
          refine apart member (List.mem_append_right _ (List.mem_append_right _
            ((seen_mem_laterKeys_iff ?_).mpr ⟨rfl, discovery, isDiscovery, differ⟩)))
          exact Or.inr (Or.inr rfl)
      · rintro ⟨filesApart, omissionsApart⟩
        refine ⟨fun discovery isDiscovery differ =>
          (omissionsApart discovery isDiscovery differ).2, fun key isManifest isInventory => ?_⟩
        have seen := seen_of_mem_manifestKeys texts evidence isManifest
        obtain ⟨source, isSource, kind, isKind, sameKey⟩ :=
          (mem_manifestKeys texts evidence).mp isManifest
        rcases List.mem_append.mp isInventory with isFile | other
        · obtain ⟨file, member, fileKindOf, isFileKind, sameFile⟩ :=
            (mem_inventoryFileKeys texts evidence).mp isFile
          have parts := sameKey.symm.trans sameFile
          refine filesApart file member source isSource
            (congrArg (fun key : Key => key.2.1) parts) ?_ ?_
          · rw [isKind]
            exact Option.some_ne_none _
          · rw [isKind, isFileKind]
            exact congrArg (fun key : Key => some key.2.2) parts
        rcases List.mem_append.mp other with language | later
        · obtain ⟨file, -, rfl⟩ := List.mem_map.mp language
          exact not_seen_languageKey file seen
        · obtain ⟨isKey, discovery, isDiscovery, differ⟩ := (seen_mem_laterKeys_iff seen).mp later
          have parts := sameKey.symm.trans isKey
          refine (omissionsApart discovery isDiscovery differ).1 source isSource
            (congrArg (fun key : Key => key.2.1) parts) ?_
          rw [isKind]
          exact congrArg (fun key : Key => some key.2.2) parts

end Exact

end Verification

end MmAudit
