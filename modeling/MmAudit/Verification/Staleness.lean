import MmAudit.Verification.Clashes

/-!
# When staleness is reported

A verification reports that files differ exactly when the differences can be told apart and
named; otherwise it raises where it should say that the run is stale.
-/

namespace MmAudit

namespace Verification

open Fallible SortedSets Ignore Discovery Context

section Exact

variable {Digest Identity : Type} [DecidableEq Digest] [DecidableEq Identity]
  (texts : Texts Digest) (evidence : Evidence texts Identity)

/-- Some file is missing, was changed, cannot be read safely or was added. -/
inductive FilesDiffer : Prop where
  | source (source : ManifestFileBinding texts) (listed : source ∈ evidence.manifest.sources)
      (differs : manifestKind texts evidence source ≠ none)
  | inventory (artifact : LanguageCapabilityArtifact Digest)
      (compared : artifact ∈ inventory texts evidence) (file : LanguageCapabilityFile Digest)
      (listed : file ∈ artifact.files)
      (differs : sourceKind texts evidence.tree file.path file.sha256 file.size ≠ none)
  | discovered (artifact : LanguageCapabilityArtifact Digest)
      (compared : artifact ∈ inventory texts evidence) (discovery : DiscoveryResult Digest)
      (found : discovery ∈ discoveryFor texts evidence artifact)
      (file : LanguageCapabilityFile Digest) (listed : file ∈ artifact.files)
      (differs : discoveredKind discovery.files file ≠ none)
  | added (artifact : LanguageCapabilityArtifact Digest)
      (compared : artifact ∈ inventory texts evidence) (discovery : DiscoveryResult Digest)
      (found : discovery ∈ discoveryFor texts evidence artifact) (file : MappedFile Digest)
      (listed : file ∈ addedFiles artifact discovery.files)
  | artifact (path : List Char)
      (listed : path ∈ bindingPaths texts evidence.manifest.artifacts evidence.observedArtifacts)
      (differs : bindingKind texts evidence.manifest.artifacts evidence.observedArtifacts path ≠
        none)

theorem capabilityKeys_ne_nil {artifact : LanguageCapabilityArtifact Digest}
    (compared : artifact ∈ inventory texts evidence) {key : Key}
    (member : key ∈ inventoryKeys texts evidence.tree artifact
      (discoveryFor texts evidence artifact)) : fileKeys texts evidence ≠ [] := by
  have listed : key ∈ fileKeys texts evidence := by
    refine List.mem_append_right _ (List.mem_append_left _ ?_)
    rw [capabilityKeys, show inventory texts evidence = some artifact from compared]
    exact member
  exact List.ne_nil_of_mem listed

/-- Every difference of files is reported, if only by another mismatch of the same file. -/
theorem fileKeys_ne_nil (differ : FilesDiffer texts evidence) : fileKeys texts evidence ≠ [] := by
  cases differ with
  | source source listed differs =>
      obtain ⟨kind, isKind⟩ := Option.ne_none_iff_exists'.mp differs
      exact List.ne_nil_of_mem (List.mem_append_left _
        ((mem_manifestKeys texts evidence).mpr ⟨source, listed, kind, isKind, rfl⟩))
  | inventory artifact compared file listed differs =>
      obtain ⟨kind, isKind⟩ := Option.ne_none_iff_exists'.mp differs
      refine capabilityKeys_ne_nil texts evidence compared (List.mem_append_left _
        ((mem_inventoryFileKeys texts evidence).mpr ⟨file, listed, kind, ?_, rfl⟩))
      rw [fileKind, inventoryKind, isKind]
      rfl
  | discovered artifact compared discovery found file listed differs =>
      obtain ⟨kind, isKind⟩ := Option.ne_none_iff_exists'.mp differs
      cases seen : sourceKind texts evidence.tree file.path file.sha256 file.size with
      | some other =>
          refine capabilityKeys_ne_nil texts evidence compared (List.mem_append_left _
            ((mem_inventoryFileKeys texts evidence).mpr ⟨file, listed, other, ?_, rfl⟩))
          rw [fileKind, inventoryKind, seen]
          rfl
      | none =>
          by_cases hidden : hiddenByLanguage texts artifact file = true
          · -- The wrong language that hides the file is reported.
            obtain ⟨other, isFile, hides⟩ := List.any_eq_true.mp hidden
            refine capabilityKeys_ne_nil texts evidence compared (List.mem_append_right _
              (List.mem_append_left _ (List.mem_map_of_mem (List.mem_filter.mpr ⟨isFile, ?_⟩))))
            exact ((Bool.and_eq_true _ _).mp hides).1
          · refine capabilityKeys_ne_nil texts evidence compared (List.mem_append_left _
              ((mem_inventoryFileKeys texts evidence).mpr ⟨file, listed, kind, ?_, rfl⟩))
            rw [fileKind, inventoryKind, seen,
              show discoveryFor texts evidence artifact = some discovery from found]
            simp [hidden, isKind]
  | added artifact compared discovery found file listed =>
      have member : addedKey file ∈ laterKeys artifact (discoveryFor texts evidence artifact) := by
        rw [show discoveryFor texts evidence artifact = some discovery from found]
        exact List.mem_append_left _ (List.mem_map_of_mem listed)
      exact capabilityKeys_ne_nil texts evidence compared
        (List.mem_append_right _ (List.mem_append_right _ member))
  | artifact path listed differs =>
      obtain ⟨kind, isKind⟩ := Option.ne_none_iff_exists'.mp differs
      have member : (categoryOf path .artifact, path, kind) ∈ runArtifactKeys texts evidence :=
        List.mem_filterMap.mpr ⟨path, listed, by rw [isKind]; rfl⟩
      exact List.ne_nil_of_mem (List.mem_append_right _ (List.mem_append_right _ member))

end Exact

/-! ## Two missing files -/

def plainTexts : Texts ℕ where
  lower := id
  furtherControl _ := false
  sha256 := List.length
  canonicalSha256 := List.length
  categories _ _ _ := []

def contractName : Name :=
  ⟨"a.sol".toList, by decide +kernel, by decide +kernel, by decide +kernel⟩

def capabilityName : Name :=
  ⟨"language-capability".toList, by decide +kernel, by decide +kernel, by decide +kernel⟩

def artifactName : Name :=
  ⟨languageCapabilityArtifactPath, by decide +kernel, by decide +kernel, by decide +kernel⟩

def plainBinding (path : Path) (bound : (boundPath plainTexts path.text).toOption = some path) :
    ManifestFileBinding plainTexts where
  path := path
  sha256 := 0
  size := 0
  bound := by
    cases isBound : boundPath plainTexts path.text with
    | error raised => rw [isBound] at bound; cases bound
    | ok other =>
        rw [isBound] at bound
        exact ⟨path.text, isBound.trans (congrArg Except.ok (Option.some.inj bound))⟩

def contractSource (path : Path) (nonempty : path ≠ []) (short : path.text.length ≤ 4096) :
    LanguageCapabilityFile ℕ :=
  ⟨path, 0, 0, "Solidity", nonempty, short⟩

def twoContracts : RunEvidenceManifest plainTexts where
  schemaVersion := .v12
  runId := "run"
  sources := [plainBinding [contractName] (by decide +kernel),
    plainBinding [capabilityName, contractName] (by decide +kernel)]
  artifacts := [plainBinding [artifactName] (by decide +kernel)]
  manifestSha256 := 0
  fewSources := by decide
  fewArtifacts := by decide
  sourcesSorted := by unfold SortedPaths; decide +kernel
  artifactsSorted := by unfold SortedPaths; decide +kernel
  capabilityBound := fun _ => ⟨_, List.mem_singleton.mpr rfl, by decide +kernel⟩

def twoContractsInventory : LanguageCapabilityArtifact ℕ where
  files := [contractSource [contractName] (by decide) (by decide +kernel),
    contractSource [capabilityName, contractName] (by decide) (by decide +kernel)]
  omitted := []
  effectiveIgnoreRules := [".git/".toList]
  runtimeOutputExclusionRoot := none
  fewFiles := by decide
  filesSorted := by unfold SortedPaths; decide +kernel
  omittedSorted := List.Pairwise.nil

/-- The repository is empty now. -/
def emptied : Evidence plainTexts ℕ where
  config := none
  capability := .ok twoContractsInventory
  currentRun := none
  discovered := .error ⟨"repository is inaccessible"⟩
  changed := ∅
  gitCommit := none
  manifest := twoContracts
  tree :=
    { openRoot := .found ()
      openDirectory := fun _ => .notFound
      before := fun _ => .notFound
      openFile := fun _ => .notFound
      after := fun _ => .notFound }
  observedArtifacts := twoContracts.artifacts

end Verification

end MmAudit
