import MmAudit.Repository.Inventory
import MmAudit.Verification.Comparisons

/-!
# What the comparisons report

Every comparison reports a list of mismatches that can be read off the files, and raises
where one of them is not valid.  So the whole list is accepted exactly when its members
are valid, its keys are distinct and it is short enough.
-/

namespace MmAudit

namespace Verification

open Fallible SortedSets Ignore Discovery Context

/-! ## Reporting a list -/

section Reporting

variable {Digest : Type}

theorem report_eq_ok_iff {fields : MismatchFields Digest}
    {mismatch : RunVerificationMismatch Digest} :
    report fields = .ok mismatch ↔
      fields.validate = .ok () ∧ mismatch.toMismatchFields = fields := by
  unfold report
  constructor
  · intro reported
    split at reported
    next valid =>
      cases reported
      exact ⟨valid, rfl⟩
    next => cases reported
  · rintro ⟨valid, rfl⟩
    split
    · rfl
    next raised => rw [valid] at raised; cases raised

/-- The computation reports these mismatches, if all of them are valid, and raises otherwise. -/
def Reports (computation : Except ValueError (List (RunVerificationMismatch Digest)))
    (drafts : List (MismatchFields Digest)) : Prop :=
  ∀ mismatches, computation = .ok mismatches ↔
    (∀ draft ∈ drafts, draft.validate = .ok ()) ∧
      mismatches.map RunVerificationMismatch.toMismatchFields = drafts

theorem reports_mapM (drafts : List (MismatchFields Digest)) :
    Reports (drafts.mapM report) drafts := by
  intro mismatches
  rw [mapM_eq_ok_iff]
  induction drafts generalizing mismatches with
  | nil => simp
  | cons draft drafts ih =>
      cases mismatches with
      | nil => simp
      | cons mismatch mismatches =>
          rw [List.map_cons, List.map_cons, List.map_cons, List.cons.injEq, List.cons.injEq,
            report_eq_ok_iff, ih mismatches, List.forall_mem_cons]
          tauto

theorem reports_nil : Reports (.ok [] : Except ValueError (List (RunVerificationMismatch Digest)))
    [] := by
  intro mismatches
  cases mismatches <;> simp

/-- What is reported after some mismatches may depend on their fields. -/
theorem Reports.bind {first : Except ValueError (List (RunVerificationMismatch Digest))}
    {rest : List (RunVerificationMismatch Digest) →
      Except ValueError (List (RunVerificationMismatch Digest))}
    {drafts all : List (MismatchFields Digest)} (begins : Reports first drafts)
    (continues : ∀ mismatches, mismatches.map RunVerificationMismatch.toMismatchFields = drafts →
      Reports (rest mismatches) all)
    (included : drafts ⊆ all) : Reports (first >>= rest) all := by
  intro mismatches
  rw [bind_eq_ok_iff]
  constructor
  · rintro ⟨found, isFound, finished⟩
    exact (continues found ((begins found).mp isFound).2 mismatches).mp finished
  · rintro ⟨valid, same⟩
    have validFirst : ∀ draft ∈ drafts, draft.validate = .ok () :=
      fun draft member => valid draft (included member)
    obtain ⟨found, isFound⟩ : ∃ found, first = .ok found := by
      let made : List (RunVerificationMismatch Digest) :=
        drafts.attach.map fun draft => ⟨draft.1, validFirst draft.1 draft.2⟩
      refine ⟨made, (begins made).mpr ⟨validFirst, ?_⟩⟩
      simp [made, Function.comp_def]
    exact ⟨found, isFound,
      (continues found ((begins found).mp isFound).2 mismatches).mpr ⟨valid, same⟩⟩

theorem reports_ok (mismatches : List (RunVerificationMismatch Digest)) :
    Reports (.ok mismatches) (mismatches.map RunVerificationMismatch.toMismatchFields) := by
  intro found
  constructor
  · rintro ⟨⟩
    refine ⟨fun draft member => ?_, rfl⟩
    obtain ⟨mismatch, -, rfl⟩ := List.mem_map.mp member
    exact mismatch.valid
  · rintro ⟨-, same⟩
    have : found = mismatches := by
      refine List.map_injective_iff.mpr ?_ same
      rintro ⟨fields, _⟩ ⟨other, _⟩ (rfl : fields = other)
      rfl
    rw [this]

theorem reports_append_one (before : List (RunVerificationMismatch Digest))
    (draft : MismatchFields Digest) :
    Reports ((report draft).map fun mismatch => before ++ [mismatch])
      (before.map RunVerificationMismatch.toMismatchFields ++ [draft]) := by
  have unfolded : ((report draft).map fun mismatch => before ++ [mismatch]) =
      ([draft].mapM report >>= fun found => .ok (before ++ found)) := by
    rw [List.mapM_cons, List.mapM_nil]
    cases report draft <;> rfl
  rw [unfolded]
  refine (reports_mapM [draft]).bind (fun found isFound => ?_) fun _ member =>
    List.mem_append_right _ member
  rw [← isFound, ← List.map_append]
  exact reports_ok _

end Reporting

/-! ## The reports of the comparisons -/

section Bound

variable {Digest : Type}

theorem ManifestFileBinding.nonempty {texts : Texts Digest}
    (binding : ManifestFileBinding texts) : binding.path ≠ [] := by
  obtain ⟨text, bound⟩ := binding.bound
  unfold boundPath at bound
  simp only [raiseIf_bind_eq_ok_iff] at bound
  obtain ⟨-, -, bound⟩ := bound
  split at bound
  · cases bound
  · split at bound
    · cases bound
    next accepted =>
      cases bound
      exact fun empty => accepted (Or.inl empty)

theorem ManifestFileBinding.clean {texts : Texts Digest} (binding : ManifestFileBinding texts) :
    Clean texts.control binding.path := by
  obtain ⟨text, bound⟩ := binding.bound
  unfold boundPath at bound
  simp only [raiseIf_bind_eq_ok_iff] at bound
  obtain ⟨-, -, bound⟩ := bound
  split at bound
  · cases bound
  next normalized =>
    split at bound
    · cases bound
    · cases bound
      exact clean_of_normalizeRelativePath normalized

variable (texts : Texts Digest)

/-- A bound path of the inventory is the path itself, and has no drive letter. -/
theorem boundFiles_spec {artifact : LanguageCapabilityArtifact Digest}
    {sourceBindings : List (ManifestFileBinding texts)}
    (bound : boundFiles texts artifact = .ok sourceBindings) :
    sourceBindings.map (fun binding => (binding.path, binding.sha256, binding.size)) =
        artifact.files.map (fun file => (file.path, file.sha256, file.size)) ∧
      ∀ binding ∈ sourceBindings, drivePath binding.path.text = false := by
  have one : ∀ (file : LanguageCapabilityFile Digest) (binding : ManifestFileBinding texts),
      manifestFileBinding texts file.path.text file.sha256 file.size = .ok binding →
        (binding.path, binding.sha256, binding.size) = (file.path, file.sha256, file.size) ∧
          drivePath binding.path.text = false := by
    intro file binding made
    unfold manifestFileBinding at made
    split at made
    next path isBound =>
      cases made
      have isPath := isBound
      unfold boundPath at isPath
      simp only [raiseIf_bind_eq_ok_iff] at isPath
      obtain ⟨-, -, isPath⟩ := isPath
      split at isPath
      · cases isPath
      next read normalized =>
        split at isPath
        · cases isPath
        · cases isPath
          obtain ⟨same, accepted⟩ :=
            (normalizeRelativePath_text_eq_some_iff file.nonempty).mp normalized
          subst same
          refine ⟨rfl, ?_⟩
          rw [(clean_of_normalizeRelativePath normalized).supported_eq] at accepted
          simpa using accepted
    next => cases made
  have made := (mapM_eq_ok_iff _).mp bound
  constructor
  · exact (map_eq_map_of_agrees (fun file binding isMade => (one file binding isMade).1.symm)
      made).symm
  · intro binding member
    obtain ⟨file, -, isMade⟩ := exists_item_of_mapM bound member
    exact (one file binding isMade).2

variable {Identity : Type} [DecidableEq Identity] (tree : SourceTree Identity)

/-- A source can be looked at unless its path begins with a drive letter. -/
theorem observeSourceBinding_eq_ok_iff (binding : ManifestFileBinding texts)
    {observed : Except Unobserved (Digest × ℕ)} :
    observeSourceBinding texts tree binding.path = .ok observed ↔
      drivePath binding.path.text = false ∧ observed = observe texts tree binding.path := by
  unfold observeSourceBinding
  cases normalized : normalizeRelativePath texts.control binding.path.text with
  | none =>
      simp only [reduceCtorEq, false_iff, not_and]
      intro noDrive
      have accepted : supported texts.control binding.path = true := by
        rw [binding.clean.supported_eq, noDrive]
        rfl
      rw [normalizeRelativePath_text binding.nonempty accepted] at normalized
      cases normalized
  | some path =>
      obtain ⟨rfl, accepted⟩ := (normalizeRelativePath_text_eq_some_iff binding.nonempty).mp normalized
      rw [binding.clean.supported_eq, Bool.not_eq_true'] at accepted
      constructor
      · intro same
        exact ⟨accepted, (Except.ok.inj same).symm⟩
      · rintro ⟨-, rfl⟩
        rfl

end Bound

section Sources

variable {Digest Identity : Type} [DecidableEq Digest] [DecidableEq Identity]
  (texts : Texts Digest) (tree : SourceTree Identity)

/-- What is reported of the sources that were bound. -/
def sourceDrafts (identifierPrefix : List Char) (expected : List (ManifestFileBinding texts)) :
    List (MismatchFields Digest) :=
  expected.filterMap fun binding =>
    sourceMismatch texts identifierPrefix binding (observe texts tree binding.path)

theorem compareSource_of_noDrive (identifierPrefix : List Char)
    (binding : ManifestFileBinding texts) (noDrive : drivePath binding.path.text = false) :
    compareSource texts tree identifierPrefix binding =
      (sourceMismatch texts identifierPrefix binding
        (observe texts tree binding.path)).mapM report :=
  bind_of_ok ((observeSourceBinding_eq_ok_iff texts tree binding).mpr ⟨noDrive, rfl⟩) _

/-- Optional steps are the steps that are not left out. -/
theorem map_reduceOption_mapM {Item Draft Value Failure : Type} (draft : Item → Option Draft)
    (step : Draft → Except Failure Value) (items : List Item) :
    (items.mapM fun item => (draft item).mapM step).map List.reduceOption =
      (items.filterMap draft).mapM step := by
  induction items with
  | nil => rfl
  | cons item items ih =>
      rw [List.mapM_cons, List.filterMap_cons]
      cases drafted : draft item with
      | none =>
          rw [← ih]
          cases items.mapM fun item => (draft item).mapM step <;> rfl
      | some made =>
          rw [List.mapM_cons, ← ih]
          change Except.map List.reduceOption ((some <$> step made) >>= _) = _
          cases step made with
          | error failure => rfl
          | ok value => cases items.mapM fun item => (draft item).mapM step <;> rfl

theorem sourceBindingMismatches_reports (identifierPrefix : List Char)
    {expected : List (ManifestFileBinding texts)}
    (noDrive : ∀ binding ∈ expected, drivePath binding.path.text = false) :
    Reports (sourceBindingMismatches texts tree identifierPrefix expected)
      (sourceDrafts texts tree identifierPrefix expected) := by
  have compared : expected.mapM (compareSource texts tree identifierPrefix) =
      expected.mapM fun binding => (sourceMismatch texts identifierPrefix binding
        (observe texts tree binding.path)).mapM report := by
    induction expected with
    | nil => rfl
    | cons binding expected ih =>
        rw [List.mapM_cons, List.mapM_cons,
          compareSource_of_noDrive texts tree identifierPrefix binding
            (noDrive binding List.mem_cons_self),
          ih fun other member => noDrive other (List.mem_cons_of_mem _ member)]
  unfold sourceBindingMismatches
  rw [compared, map_reduceOption_mapM]
  exact reports_mapM _

/-- A drive letter makes the comparison of the sources raise. -/
theorem noDrive_of_sourceBindingMismatches {identifierPrefix : List Char}
    {expected : List (ManifestFileBinding texts)}
    {mismatches : List (RunVerificationMismatch Digest)}
    (found : sourceBindingMismatches texts tree identifierPrefix expected = .ok mismatches)
    {binding : ManifestFileBinding texts} (member : binding ∈ expected) :
    drivePath binding.path.text = false := by
  obtain ⟨options, compared, -⟩ := map_eq_ok_iff.mp found
  obtain ⟨option, -, isCompared⟩ := exists_value_of_mapM compared member
  obtain ⟨observed, isObserved, -⟩ := bind_eq_ok_iff.mp isCompared
  exact ((observeSourceBinding_eq_ok_iff texts tree binding).mp isObserved).1

end Sources

section Capability

variable {Digest Identity : Type} [DecidableEq Digest] [DecidableEq Identity]
  (texts : Texts Digest) (tree : SourceTree Identity) (around : Surroundings Digest)

/-- What is reported of the inventory after some other mismatches. -/
def discoveryDrafts (artifact : LanguageCapabilityArtifact Digest)
    (before : List (MismatchFields Digest)) (discovery : DiscoveryResult Digest) :
    List (MismatchFields Digest) :=
  before ++
    artifact.files.filterMap (inventoryMismatch (before.map MismatchFields.identifier)
      discovery.files) ++
    (addedFiles artifact discovery.files).map addedMismatch ++
    (omissionsChange texts artifact discovery).toList

/-- What is reported of the files of the inventory without a discovery. -/
def inventoryDrafts (artifact : LanguageCapabilityArtifact Digest)
    (sourceBindings : List (ManifestFileBinding texts)) : List (MismatchFields Digest) :=
  sourceDrafts texts tree capabilityPrefix sourceBindings ++
    (artifact.files.filter (wrongLanguage texts)).map languageMismatch

def artifactDrafts (artifact : LanguageCapabilityArtifact Digest)
    (sourceBindings : List (ManifestFileBinding texts)) : List (MismatchFields Digest) :=
  match rediscovered texts around artifact with
  | none => inventoryDrafts texts tree artifact sourceBindings ++ [reconstructionUnverifiable]
  | some discovery =>
      discoveryDrafts texts artifact (inventoryDrafts texts tree artifact sourceBindings) discovery

def capabilityDrafts (manifest : RunEvidenceManifest texts) : List (MismatchFields Digest) :=
  match manifest.artifacts.find? fun binding =>
      binding.path.text = languageCapabilityArtifactPath with
  | none => if manifest.schemaVersion ≠ .v12 then [] else [inventoryUnverifiable texts none]
  | some binding =>
      match readArtifact texts around with
      | .error _ => [inventoryUnverifiable texts (some binding)]
      | .ok (artifact, sourceBindings) => artifactDrafts texts tree around artifact sourceBindings

theorem discoveryMismatches_reports (artifact : LanguageCapabilityArtifact Digest)
    (before : List (RunVerificationMismatch Digest)) (discovery : DiscoveryResult Digest) :
    Reports (discoveryMismatches texts artifact before discovery)
      (discoveryDrafts texts artifact (before.map RunVerificationMismatch.toMismatchFields)
        discovery) := by
  have sameIds : before.map (fun mismatch => mismatch.identifier) =
      (before.map RunVerificationMismatch.toMismatchFields).map MismatchFields.identifier := by
    rw [List.map_map]
    rfl
  unfold discoveryMismatches discoveryDrafts
  rw [← sameIds]
  refine (reports_mapM _).bind (fun inventory isInventory => ?_) fun draft member => by
    simp only [List.mem_append]; tauto
  refine (reports_mapM _).bind (fun added isAdded => ?_) fun draft member => by
    simp only [List.mem_append]; tauto
  refine (reports_mapM _).bind (fun omissions isOmissions => ?_) fun draft member => by
    simp only [List.mem_append]; tauto
  rw [← isInventory, ← isAdded, ← isOmissions, ← List.map_append, ← List.map_append,
    ← List.map_append]
  exact reports_ok _

theorem artifactMismatches_reports (artifact : LanguageCapabilityArtifact Digest)
    {sourceBindings : List (ManifestFileBinding texts)}
    (noDrive : ∀ binding ∈ sourceBindings, drivePath binding.path.text = false) :
    Reports (artifactMismatches texts tree around artifact sourceBindings)
      (artifactDrafts texts tree around artifact sourceBindings) := by
  have beforeSubset : inventoryDrafts texts tree artifact sourceBindings ⊆
      artifactDrafts texts tree around artifact sourceBindings := by
    intro draft member
    unfold artifactDrafts discoveryDrafts
    cases rediscovered texts around artifact <;> simp only [List.mem_append] <;> tauto
  unfold artifactMismatches
  refine (sourceBindingMismatches_reports texts tree capabilityPrefix noDrive).bind
    (fun changed isChanged => ?_) fun draft member => beforeSubset (List.mem_append_left _ member)
  refine (reports_mapM _).bind (fun misnamed isMisnamed => ?_) fun draft member =>
    beforeSubset (List.mem_append_right _ member)
  have isBefore : (changed ++ misnamed).map RunVerificationMismatch.toMismatchFields =
      inventoryDrafts texts tree artifact sourceBindings := by
    rw [List.map_append, isChanged, isMisnamed]
    rfl
  unfold artifactDrafts
  cases rediscovered texts around artifact with
  | none =>
      dsimp only
      rw [← isBefore]
      exact reports_append_one _ _
  | some discovery =>
      dsimp only
      rw [← isBefore]
      exact discoveryMismatches_reports texts artifact (changed ++ misnamed) discovery

theorem languageCapabilitySourceMismatches_reports (manifest : RunEvidenceManifest texts) :
    Reports (languageCapabilitySourceMismatches texts tree around manifest)
      (capabilityDrafts texts tree around manifest) := by
  unfold languageCapabilitySourceMismatches capabilityDrafts
  cases manifest.artifacts.find? fun binding =>
      binding.path.text = languageCapabilityArtifactPath with
  | none =>
      dsimp only
      split
      · exact reports_nil
      · exact reports_mapM _
  | some binding =>
      dsimp only
      cases isRead : readArtifact texts around with
      | error raised => exact reports_mapM _
      | ok read =>
          obtain ⟨artifact, -, later⟩ := bind_eq_ok_iff.mp isRead
          obtain ⟨bindings, bound, same⟩ := bind_eq_ok_iff.mp later
          cases same
          exact artifactMismatches_reports texts tree around artifact
            (boundFiles_spec texts bound).2

end Capability

/-! ## The whole list -/

section Payload

variable {Digest : Type}

theorem payload_eq_ok_iff {fields : PayloadFields Digest} {made : RunVerificationPayload Digest} :
    payload fields = .ok made ↔ fields.validate = .ok () ∧ made.toPayloadFields = fields := by
  unfold payload
  constructor
  · intro isMade
    split at isMade
    next valid =>
      cases isMade
      exact ⟨valid, rfl⟩
    next => cases isMade
  · rintro ⟨valid, rfl⟩
    split
    · rfl
    next raised => rw [valid] at raised; cases raised

theorem validate_payload_eq_ok_iff (fields : PayloadFields Digest) :
    fields.validate = .ok () ↔ fields.mismatches.length ≤ 200000 ∧
      fields.mismatches.map (fun mismatch => mismatch.sortKey) =
        sortedSet (fields.mismatches.map fun mismatch => mismatch.sortKey) ∧
      fields.status = statusOf fields.mismatches := by
  unfold PayloadFields.validate
  simp only [raiseIf_bind_eq_ok_iff, raiseIf_eq_ok_iff, not_lt, ne_eq, not_not]

end Payload

section Whole

variable {Digest Identity : Type} [DecidableEq Digest] [DecidableEq Identity]
  (texts : Texts Digest) (evidence : Evidence texts Identity)

/-- What is reported of the artifacts of the run. -/
def runArtifactDrafts (expectedBindings observedBindings : List (ManifestFileBinding texts)) :
    List (MismatchFields Digest) :=
  (bindingPaths texts expectedBindings observedBindings).filterMap
    (bindingMismatch texts .artifact expectedBindings observedBindings)

/-- What the three comparisons report of the files. -/
def fileDrafts : List (MismatchFields Digest) :=
  sourceDrafts texts evidence.tree [] evidence.manifest.sources ++
    capabilityDrafts texts evidence.tree evidence.toSurroundings evidence.manifest ++
    runArtifactDrafts texts evidence.manifest.artifacts evidence.observedArtifacts

theorem fileMismatches_reports
    (noDrive : ∀ source ∈ evidence.manifest.sources, drivePath source.path.text = false) :
    Reports (fileMismatches texts evidence) (fileDrafts texts evidence) := by
  unfold fileMismatches fileDrafts
  refine (sourceBindingMismatches_reports texts evidence.tree [] noDrive).bind
    (fun sources isSources => ?_) fun draft member => by simp only [List.mem_append]; tauto
  refine (languageCapabilitySourceMismatches_reports texts evidence.tree evidence.toSurroundings
    evidence.manifest).bind (fun capability isCapability => ?_) fun draft member => by
      simp only [List.mem_append]; tauto
  refine (reports_mapM _).bind (fun artifacts isArtifacts => ?_) fun draft member => by
    simp only [List.mem_append]; exact Or.inr member
  unfold runArtifactDrafts
  rw [← isSources, ← isCapability, ← isArtifacts, ← List.map_append, ← List.map_append]
  exact reports_ok _

/-- The mismatches that are reported become a payload. -/
structure Acceptable : Prop where
  noDrive : ∀ source ∈ evidence.manifest.sources, drivePath source.path.text = false
  valid : ∀ draft ∈ fileDrafts texts evidence, draft.validate = .ok ()
  distinct : ((fileDrafts texts evidence).map MismatchFields.sortKey).Nodup
  few : (fileDrafts texts evidence).length ≤ 200000

/-- A verification that is accepted tells whether anything was reported. -/
theorem status_of_verifyFiles {made : RunVerificationPayload Digest}
    (verified : verifyFiles texts evidence = .ok made) :
    Acceptable texts evidence ∧
      (made.status = .stale ↔ fileDrafts texts evidence ≠ []) := by
  obtain ⟨mismatches, found, isMade⟩ := bind_eq_ok_iff.mp verified
  obtain ⟨valid, isFields⟩ := payload_eq_ok_iff.mp isMade
  obtain ⟨few, sorted, status⟩ := (validate_payload_eq_ok_iff _).mp valid
  dsimp only at few sorted status
  obtain ⟨sources, isSources, -⟩ := bind_eq_ok_iff.mp found
  have noDrive : ∀ source ∈ evidence.manifest.sources, drivePath source.path.text = false :=
    fun source member => noDrive_of_sourceBindingMismatches texts evidence.tree isSources member
  obtain ⟨allValid, same⟩ := (fileMismatches_reports texts evidence noDrive mismatches).mp found
  have sameKeys : (fileDrafts texts evidence).map MismatchFields.sortKey =
      mismatches.map fun mismatch => mismatch.sortKey := by
    rw [← same, List.map_map]
    rfl
  have sameLength : (fileDrafts texts evidence).length = mismatches.length := by
    rw [← same, List.length_map]
  have ordered := perm_sortedBy (fun mismatch : RunVerificationMismatch Digest =>
    mismatch.sortKey) mismatches
  refine ⟨⟨noDrive, allValid, ?_, ?_⟩, ?_⟩
  · rw [sameKeys]
    exact (map_sortedBy_eq_sortedSet_iff _ _).mp sorted
  · rw [sameLength, ← ordered.length_eq]
    exact few
  · rw [← List.length_pos_iff, sameLength, ← ordered.length_eq]
    have isStatus := congrArg PayloadFields.status isFields
    dsimp only at isStatus
    rw [isStatus, List.length_pos_iff]
    cases sortedBy (fun mismatch : RunVerificationMismatch Digest => mismatch.sortKey)
      mismatches <;> simp

theorem exists_verifyFiles (acceptable : Acceptable texts evidence) :
    ∃ made, verifyFiles texts evidence = .ok made := by
  let mismatches : List (RunVerificationMismatch Digest) :=
    (fileDrafts texts evidence).attach.map fun draft =>
      ⟨draft.1, acceptable.valid draft.1 draft.2⟩
  have same : mismatches.map RunVerificationMismatch.toMismatchFields =
      fileDrafts texts evidence := by
    simp [mismatches, Function.comp_def]
  have found := (fileMismatches_reports texts evidence acceptable.noDrive mismatches).mpr
    ⟨acceptable.valid, same⟩
  have ordered := perm_sortedBy (fun mismatch : RunVerificationMismatch Digest =>
    mismatch.sortKey) mismatches
  let fields : PayloadFields Digest :=
    { status := if (sortedBy (fun mismatch => mismatch.sortKey) mismatches).isEmpty
        then .current else .stale
      runId := evidence.manifest.runId
      manifestSha256 := evidence.manifest.manifestSha256
      mismatches := sortedBy (fun mismatch => mismatch.sortKey) mismatches }
  have valid : fields.validate = .ok () := by
    refine (validate_payload_eq_ok_iff fields).mpr ⟨?_, ?_, rfl⟩
    · rw [ordered.length_eq, ← List.length_map (f := RunVerificationMismatch.toMismatchFields),
        same]
      exact acceptable.few
    · refine (map_sortedBy_eq_sortedSet_iff _ _).mpr ?_
      have distinct := acceptable.distinct
      rw [← same, List.map_map] at distinct
      exact distinct
  refine ⟨⟨fields, valid⟩, bind_eq_ok_iff.mpr ⟨mismatches, found, ?_⟩⟩
  exact payload_eq_ok_iff.mpr ⟨valid, rfl⟩

end Whole

end Verification

end MmAudit
