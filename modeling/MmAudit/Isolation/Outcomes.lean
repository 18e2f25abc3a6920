import MmAudit.Isolation.Advisories
import MmAudit.Isolation.Copying

/-!
# How the preparation of a project ends

It raises before or while it copies, it returns a result that an advisory rejected, or it
returns a prepared result.  Only the last one leaves a finished tree behind: once the copy is
made, nothing fails any more.
-/

namespace MmAudit

namespace Dependencies

open Fallible

section Outcomes

variable {Digest : Type} [DecidableEq Digest] (env : Environment Digest) (tree : FileTree)
  (config : DependencyPreparationConfig Digest)

/-! ## Results that pass their validator -/

omit [DecidableEq Digest] in
theorem validate_advisedResult (project : SolidityProjectMetadata) (lockfile : FilePath)
    (lockfileSha256 snapshotSha256 : Digest) (validated : List (ValidatedPackage Digest))
    (findings : List DependencyAdvisoryFinding) :
    (advisedResult project lockfile lockfileSha256 snapshotSha256 validated findings).validate =
      .ok (advisedResult project lockfile lockfileSha256 snapshotSha256 validated findings) := by
  rw [DependencyPreparationResult.validate, raiseIf_bind_of_not (by simp [advisedResult]),
    raiseIf_bind_of_not (by simp [advisedResult]), raiseIf_bind_of_not (by simp [advisedResult]),
    raiseIf_bind_of_not (by simp [advisedResult])]
  rfl

omit [DecidableEq Digest] in
theorem complete_preparedResult {validated : List (ValidatedPackage Digest)}
    (nonempty : validated ≠ []) (project : SolidityProjectMetadata) (lockfile : FilePath)
    (lockfileSha256 snapshotSha256 : Digest) (path : List Char) :
    ¬ (preparedResult project lockfile lockfileSha256 snapshotSha256 validated path).Incomplete := by
  simp [DependencyPreparationResult.Incomplete, preparedResult, nonempty, Checks.complete,
    Checks.items, Checks.packagesChecked, Checks.lockfileRead, List.map_map, Function.comp_def]

omit [DecidableEq Digest] in
theorem validate_preparedResult {validated : List (ValidatedPackage Digest)}
    (nonempty : validated ≠ []) (project : SolidityProjectMetadata) (lockfile : FilePath)
    (lockfileSha256 snapshotSha256 : Digest) (path : List Char) :
    (preparedResult project lockfile lockfileSha256 snapshotSha256 validated path).validate =
      .ok (preparedResult project lockfile lockfileSha256 snapshotSha256 validated path) := by
  rw [DependencyPreparationResult.validate, raiseIf_bind_of_not (by simp [preparedResult]),
    raiseIf_bind_of_not fun bad => complete_preparedResult nonempty _ _ _ _ _ bad.2,
    raiseIf_bind_of_not (by simp [preparedResult]), raiseIf_bind_of_not (by simp [preparedResult])]
  rfl

/-! ## The inspection -/

/-- What is known about a project that was inspected. -/
structure IsInspected (project : SolidityProjectMetadata) (snapshotProject : SnapshotProject Digest)
    (advisories : List SnapshotAdvisory) (snapshotParent : FilePath) (packages : Json.Fields)
    (validated : List (ValidatedPackage Digest)) (findings : List DependencyAdvisoryFinding) :
    Prop where
  lockfile : ∃ path bytes payload,
    readLockfile env tree config project snapshotProject = .ok (path, bytes) ∧
      env.loadJson bytes = .ok payload ∧ packagesMap payload = .ok packages
  acceptable : ∀ item ∈ lockEntries packages, IsAcceptable item
  samePaths : ∀ path, path ∈ Dict.empty.assign (normalized (lockEntries packages)) ↔
    path ∈ snapshotProject.packages.map SnapshotPackage.lockPath
  checked : List.Forall₂ (IsValidated env tree config snapshotParent
    (Dict.empty.assign (normalized (lockEntries packages)))) snapshotProject.packages validated
  scanned : scanAdvisories validated advisories = .ok findings

theorem isInspected_of_inspectProject {project : SolidityProjectMetadata}
    {snapshotProject : SnapshotProject Digest} {advisories : List SnapshotAdvisory}
    {snapshotParent : FilePath} {snapshotSha256 : Digest} {lockfile : FilePath}
    {lockfileSha256 : Digest} {validated : List (ValidatedPackage Digest)}
    {findings : List DependencyAdvisoryFinding} {sbom : DependencySbom Digest}
    (returned : inspectProject env tree config project snapshotProject advisories snapshotParent
      snapshotSha256 = .ok (lockfile, lockfileSha256, validated, findings, sbom)) :
    ∃ packages, IsInspected env tree config project snapshotProject advisories snapshotParent
      packages validated findings := by
  unfold inspectProject at returned
  obtain ⟨⟨path, bytes⟩, read, rest⟩ := bind_eq_ok_iff.mp returned
  obtain ⟨checked, packagesValidated, rest⟩ := bind_eq_ok_iff.mp rest
  obtain ⟨found, scanned, rest⟩ := bind_eq_ok_iff.mp rest
  obtain ⟨built, -, rest⟩ := bind_eq_ok_iff.mp rest
  cases rest
  obtain ⟨lockPackages, loaded, samePaths, all⟩ :=
    validatePackages_eq_ok env tree config packagesValidated
  obtain ⟨payload, packages, decoded, mapped, acceptable, rfl⟩ :=
    loadLockPackages_eq_ok env config loaded
  exact ⟨packages, ⟨lockfile, bytes, payload, read, decoded, mapped⟩, acceptable, samePaths, all,
    scanned⟩

omit [DecidableEq Digest] in
theorem validated_ne_nil {snapshotProject : SnapshotProject Digest} {snapshotParent : FilePath}
    {lockPackages : Dict (List Char) Json.Fields} {validated : List (ValidatedPackage Digest)}
    (all : List.Forall₂ (IsValidated env tree config snapshotParent lockPackages)
      snapshotProject.packages validated) : validated ≠ [] := by
  rintro rfl
  exact snapshotProject.nonempty (List.forall₂_nil_right_iff.mp all)

/-! ## The endings -/

section Endings

variable (refusals : Refusals) (project : SolidityProjectMetadata)
  (snapshotProject : SnapshotProject Digest) (advisories : List SnapshotAdvisory)
  (snapshotParent : FilePath) (snapshotSha256 : Digest)

/-- How a preparation may end. -/
inductive Ending (before after : PrivateRoot) : Except Failure (Preparation Digest) → Prop where
  | raised (failure : Failure) (unchanged : after.modules = before.modules) :
      Ending before after (.error failure)
  | advised (lockfile : FilePath) (lockfileSha256 : Digest) (packages : Json.Fields)
      (validated : List (ValidatedPackage Digest)) (findings : List DependencyAdvisoryFinding)
      (sbom : DependencySbom Digest) (unchanged : after.modules = before.modules)
      (isInspected : IsInspected env tree config project snapshotProject advisories snapshotParent
        packages validated findings) (advised : findings ≠ []) :
      Ending before after (.ok ⟨advisedResult project lockfile lockfileSha256 snapshotSha256
        validated findings, sbom, none⟩)
  | prepared (lockfile : FilePath) (lockfileSha256 : Digest) (packages : Json.Fields)
      (validated : List (ValidatedPackage Digest)) (sbom : DependencySbom Digest)
      (path : List Char) (staged : PreparedTree)
      (isInspected : IsInspected env tree config project snapshotProject advisories snapshotParent
        packages validated [])
      (isNew : projectDirectory env project.projectRoot ∉ before.modules)
      (added : after.modules =
        before.modules.insert (projectDirectory env project.projectRoot) staged)
      (copies : List.Forall₂ (fun item file => IsCopy env tree item.1 item.2 file)
        (inventoryOf validated) staged.files) :
      Ending before after (.ok ⟨preparedResult project lockfile lockfileSha256 snapshotSha256
        validated path, sbom, some (projectDirectory env project.projectRoot)⟩)

/-- Every preparation ends in one of these ways. -/
theorem ending_prepareProject (before : PrivateRoot) :
    Ending env tree config project snapshotProject advisories snapshotParent snapshotSha256 before
      (prepareProject env tree config refusals project snapshotProject advisories snapshotParent
        snapshotSha256 before).1
      (prepareProject env tree config refusals project snapshotProject advisories snapshotParent
        snapshotSha256 before).2 := by
  unfold prepareProject
  split
  · exact .raised _ rfl
  · rename_i lockfile lockfileSha256 validated findings sbom inspected
    obtain ⟨packages, isInspected⟩ := isInspected_of_inspectProject env tree config inspected
    by_cases clean : findings = []
    · subst clean
      rw [if_neg (by simp)]
      split
      · rename_i after failure raised
        exact .raised _ (modules_of_copy_failed env tree raised)
      · rename_i after directory copied
        obtain ⟨rfl, isNew, staged, rfl, copies⟩ := copyValidatedPackages_eq_ok env tree copied
        rw [bind_of_ok (validate_preparedResult
          (validated_ne_nil env tree config isInspected.checked) _ _ _ _ _)]
        exact .prepared _ _ packages validated sbom _ staged isInspected isNew rfl copies
    · rw [if_pos clean, bind_of_ok (validate_advisedResult _ _ _ _ _ _)]
      exact .advised _ _ packages validated findings sbom rfl isInspected clean

end Endings

end Outcomes

end Dependencies

end MmAudit
