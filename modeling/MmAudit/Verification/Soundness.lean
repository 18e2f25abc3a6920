import MmAudit.Verification.Keys

/-!
# Sound mismatches

What the comparisons report has the hashes that its kind asks for and a printable identifier.
So only the length of the identifier can make it invalid.
-/

namespace MmAudit

namespace Verification

open Fallible SortedSets Ignore Discovery Context

section Plain

variable {Digest : Type} (texts : Texts Digest)

theorem text_ne_nil {path : Path} (nonempty : path ≠ []) : path.text ≠ [] := by
  intro empty
  have parts := pathParts_text nonempty
  rw [empty] at parts
  exact nonempty (List.map_eq_nil_iff.mp parts.symm)

theorem sound_addedMismatch {file : MappedFile Digest} (plain : Printable file.relativePath.text) :
    (addedMismatch file).Sound :=
  ⟨List.append_ne_nil_of_left_ne_nil (by decide) _, printable_capabilityPrefix.append plain,
    by rintro ⟨⟩, fun _ => ⟨rfl, rfl⟩, by rintro ⟨⟩⟩

theorem sound_languageMismatch {file : LanguageCapabilityFile Digest}
    (plain : Printable file.path.text) : (languageMismatch file).Sound :=
  ⟨List.append_ne_nil_of_left_ne_nil (List.append_ne_nil_of_left_ne_nil (by decide) _) _,
    (printable_capabilityPrefix.append plain).append printable_languageEnding,
    by rintro ⟨⟩, by rintro ⟨⟩, by rintro ⟨⟩⟩

theorem sound_omissionsMismatch (expected observed : List (List Char)) :
    (omissionsMismatch texts expected observed).Sound :=
  ⟨by change capabilityPrefix ++ omissionsName ≠ []; decide, printable_of_all rfl, by rintro ⟨⟩, by rintro ⟨⟩,
    fun _ => ⟨rfl, rfl⟩⟩

theorem sound_reconstructionUnverifiable :
    (reconstructionUnverifiable : MismatchFields Digest).Sound :=
  ⟨by change "language-capability/source-inventory/reconstruction".toList ≠ []; decide,
    printable_of_all rfl, by rintro ⟨⟩,
    by rintro ⟨⟩, by rintro ⟨⟩⟩

theorem sound_inventoryUnverifiable (binding : Option (ManifestFileBinding texts)) :
    (inventoryUnverifiable texts binding).Sound :=
  ⟨by change "language-capability/source-inventory".toList ≠ []; decide, printable_of_all rfl, by rintro ⟨⟩, by rintro ⟨⟩,
    by rintro ⟨⟩⟩

/-- A discovery of a verification finds printable paths, each of them once. -/
theorem rediscovered_spec {around : Surroundings Digest}
    {artifact : LanguageCapabilityArtifact Digest} {discovery : DiscoveryResult Digest}
    (found : rediscovered texts around artifact = some discovery) :
    (discovery.files.map fun file => file.relativePath).Nodup ∧
      ∀ file ∈ discovery.files, Printable file.relativePath.text := by
  obtain ⟨config, -, isFound⟩ := Option.bind_eq_some_iff.mp found
  cases result : rediscover texts around artifact config with
  | error raised => rw [result] at isFound; cases isFound
  | ok other =>
      rw [result] at isFound
      cases isFound
      obtain ⟨tree, -, later⟩ := bind_eq_ok_iff.mp result
      obtain ⟨whole, discovered, same⟩ := bind_eq_ok_iff.mp later
      cases same
      have kept := withhold_files_sublist whole config.priorAudit
      refine ⟨(discoverRepository_nodup _ _ _ _ _ discovered).sublist (kept.map _), ?_⟩
      intro file member
      have accepted := discoverRepository_normalizes _ _ _ _ _ discovered (kept.subset member)
      change (if supported texts.control file.relativePath = true then _ else _) = _ at accepted
      split at accepted
      next isSupported =>
        unfold supported at isSupported
        simp only [Bool.and_eq_true] at isSupported
        exact printable_of_control isSupported.1.1.2
      next => cases accepted

/-- Which keys stand in the list. -/
theorem mem_laterKeys {artifact : LanguageCapabilityArtifact Digest}
    {discovery : Option (DiscoveryResult Digest)} {key : Key}
    (member : key ∈ laterKeys artifact discovery) :
    key = reconstructionKey ∨
      ∃ result, discovery = some result ∧
        ((∃ file ∈ addedFiles artifact result.files, key = addedKey file) ∨
          omissionsDiffer artifact result = true ∧ key = omissionsKey) := by
  unfold laterKeys at member
  cases discovery with
  | none => exact Or.inl (List.mem_singleton.mp member)
  | some result =>
      refine Or.inr ⟨result, rfl, ?_⟩
      rcases List.mem_append.mp member with added | omissions
      · obtain ⟨file, isFile, rfl⟩ := List.mem_map.mp added
        exact Or.inl ⟨file, isFile, rfl⟩
      · split at omissions
        next differ => exact Or.inr ⟨differ, List.mem_singleton.mp omissions⟩
        next => cases omissions

/-- A file was seen to be missing, unsafe or changed. -/
def Seen (key : Key) : Prop :=
  key.2.2 = .missing ∨ key.2.2 = .isUnsafe ∨ key.2.2 = .changed

theorem not_seen_languageKey (file : LanguageCapabilityFile Digest) :
    ¬ Seen (languageKey file) := by
  rintro (same | same | same) <;> cases same

/-- Among the later keys only that of the omissions is one of a seen difference. -/
theorem seen_mem_laterKeys_iff {artifact : LanguageCapabilityArtifact Digest}
    {discovery : Option (DiscoveryResult Digest)} {key : Key} (seen : Seen key) :
    key ∈ laterKeys artifact discovery ↔
      key = omissionsKey ∧ ∃ result ∈ discovery, omissionsDiffer artifact result = true := by
  constructor
  · intro member
    rcases mem_laterKeys member with rfl | ⟨result, isResult, ⟨file, -, rfl⟩ | ⟨differ, rfl⟩⟩
    · rcases seen with same | same | same <;> cases same
    · rcases seen with same | same | same <;> cases same
    · exact ⟨rfl, result, isResult, differ⟩
  · rintro ⟨rfl, result, isResult, differ⟩
    rw [show discovery = some result from isResult]
    refine List.mem_append_right _ ?_
    rw [differ]
    exact List.mem_singleton.mpr rfl

theorem text_inj {path other : Path} (same : path.text = other.text) : path = other := by
  by_cases empty : path = []
  · subst empty
    by_contra different
    exact text_ne_nil (Ne.symm different) same.symm
  · refine text_injective empty (fun otherEmpty => ?_) same
    rw [otherEmpty] at same
    exact text_ne_nil empty same

theorem sourceKey_unexpected_injective :
    Function.Injective fun path : Path => sourceKey capabilityPrefix path .unexpected := by
  intro path other same
  exact text_inj (List.append_cancel_left (congrArg (fun key : Key => key.2.1) same))

theorem languageKey_injective : Function.Injective fun text : List Char =>
    ((.source, capabilityPrefix ++ text ++ languageEnding, .unverifiable) : Key) := by
  intro text other same
  exact List.append_cancel_left (List.append_cancel_right
    (congrArg (fun key : Key => key.2.1) same))

/-- The identifiers end differently. -/
theorem languageKey_ne_reconstructionKey (file : LanguageCapabilityFile Digest) :
    languageKey file ≠ reconstructionKey := by
  intro same
  have identifiers := congrArg (fun key : Key => key.2.1.getLast?) same
  change (capabilityPrefix ++ file.path.text ++ languageEnding).getLast? =
    reconstructionKey.2.1.getLast? at identifiers
  rw [List.getLast?_append_of_ne_nil _ (by decide)] at identifiers
  exact absurd identifiers (by decide)

end Plain

section Sound

variable {Digest Identity : Type} [DecidableEq Digest] [DecidableEq Identity]
  (texts : Texts Digest)

theorem sound_sourceMismatch {identifierPrefix : List Char}
    (plain : Printable identifierPrefix) {binding : ManifestFileBinding texts}
    {observed : Except Unobserved (Digest × ℕ)} {draft : MismatchFields Digest}
    (reported : sourceMismatch texts identifierPrefix binding observed = some draft) :
    draft.Sound := by
  have nonempty : identifierPrefix ++ binding.path.text ≠ [] := by
    intro empty
    exact text_ne_nil binding.nonempty (List.append_eq_nil_iff.mp empty).2
  have printable := plain.append (printable_path binding.clean)
  unfold sourceMismatch at reported
  split at reported
  next unobserved =>
    cases reported
    refine ⟨nonempty, printable, fun _ => ⟨rfl, rfl⟩, ?_, ?_⟩ <;>
      cases unobserved <;> rintro ⟨⟩
  next =>
    split at reported
    · cases reported
      exact ⟨nonempty, printable, by rintro ⟨⟩, by rintro ⟨⟩, fun _ => ⟨rfl, rfl⟩⟩
    · cases reported

theorem sound_inventoryMismatch {existing : List (List Char)} {files : List (MappedFile Digest)}
    {file : LanguageCapabilityFile Digest} (plain : Printable file.path.text)
    {draft : MismatchFields Digest}
    (reported : inventoryMismatch existing files file = some draft) : draft.Sound := by
  have nonempty : capabilityPrefix ++ file.path.text ≠ [] :=
    List.append_ne_nil_of_left_ne_nil (by decide) _
  have printable := printable_capabilityPrefix.append plain
  unfold inventoryMismatch at reported
  dsimp only at reported
  split at reported <;> split at reported <;> cases reported
  · exact ⟨nonempty, printable, fun _ => ⟨rfl, rfl⟩, by rintro ⟨⟩, by rintro ⟨⟩⟩
  · exact ⟨nonempty, printable, by rintro ⟨⟩, by rintro ⟨⟩, fun _ => ⟨rfl, rfl⟩⟩

theorem sound_bindingMismatch {expectedBindings observedBindings : List (ManifestFileBinding texts)}
    {path : List Char} (listed : path ∈ bindingPaths texts expectedBindings observedBindings)
    {draft : MismatchFields Digest}
    (reported : bindingMismatch texts .artifact expectedBindings observedBindings path =
      some draft) : draft.Sound ∧ draft.identifier.length ≤ 4096 := by
  obtain ⟨binding, -, rfl⟩ := List.mem_map.mp (mem_sortedSet.mp listed)
  have nonempty := text_ne_nil binding.nonempty
  have printable := printable_path binding.clean
  have short : binding.path.text.length ≤ 4096 :=
    (length_le_utf8Length _).trans binding.clean.short
  unfold bindingMismatch at reported
  split at reported
  · cases reported
    exact ⟨⟨nonempty, printable, by rintro ⟨⟩, fun _ => ⟨rfl, rfl⟩, by rintro ⟨⟩⟩, short⟩
  · cases reported
    exact ⟨⟨nonempty, printable, fun _ => ⟨rfl, rfl⟩, by rintro ⟨⟩, by rintro ⟨⟩⟩, short⟩
  · split at reported
    · cases reported
      exact ⟨⟨nonempty, printable, by rintro ⟨⟩, by rintro ⟨⟩, fun _ => ⟨rfl, rfl⟩⟩, short⟩
    · cases reported
  · cases reported

theorem sound_artifactDrafts {tree : SourceTree Identity} {around : Surroundings Digest}
    {artifact : LanguageCapabilityArtifact Digest}
    {sourceBindings : List (ManifestFileBinding texts)}
    (bound : boundFiles texts artifact = .ok sourceBindings) :
    ∀ draft ∈ artifactDrafts texts tree around artifact sourceBindings, draft.Sound := by
  have plain : ∀ file ∈ artifact.files, Printable file.path.text := by
    intro file member
    have listed := List.mem_map_of_mem member (f := fun file => (file.path, file.sha256, file.size))
    rw [← (boundFiles_spec texts bound).1] at listed
    obtain ⟨binding, -, same⟩ := List.mem_map.mp listed
    rw [← (Prod.mk.inj same).1]
    exact printable_path binding.clean
  have before : ∀ draft ∈ inventoryDrafts texts tree artifact sourceBindings, draft.Sound := by
    intro draft member
    rcases List.mem_append.mp member with source | language
    · obtain ⟨binding, -, reported⟩ := List.mem_filterMap.mp source
      exact sound_sourceMismatch texts printable_capabilityPrefix reported
    · obtain ⟨file, isFile, rfl⟩ := List.mem_map.mp language
      exact sound_languageMismatch (plain file (List.mem_filter.mp isFile).1)
  intro draft member
  unfold artifactDrafts at member
  cases found : rediscovered texts around artifact with
  | none =>
      rw [found] at member
      rcases List.mem_append.mp member with earlier | last
      · exact before draft earlier
      · obtain rfl := List.mem_singleton.mp last
        exact sound_reconstructionUnverifiable
  | some discovery =>
      rw [found] at member
      simp only [discoveryDrafts, List.mem_append] at member
      rcases member with ((earlier | inventory) | added) | omissions
      · exact before draft earlier
      · obtain ⟨file, isFile, reported⟩ := List.mem_filterMap.mp inventory
        exact sound_inventoryMismatch (plain file isFile) reported
      · obtain ⟨file, isFile, rfl⟩ := List.mem_map.mp added
        exact sound_addedMismatch
          ((rediscovered_spec texts found).2 file (List.mem_filter.mp isFile).1)
      · unfold omissionsChange at omissions
        split at omissions
        · obtain rfl := List.mem_singleton.mp omissions
          exact sound_omissionsMismatch texts _ _
        · cases omissions

end Sound

end Verification

end MmAudit
