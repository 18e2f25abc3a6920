import MmAudit.Isolation.Containment
import MmAudit.Library.Pairing

/-!
# What a validated project has in common with its lockfile

The loop over the packages map makes one assignment for every entry but the root, and the loop
over the packages of the snapshot checks each package against the entry that is left at its
lock path.
-/

namespace MmAudit

namespace Dependencies

open Fallible

/-! ## Entries -/

/-- The entries of a packages map other than the root. -/
def lockEntries (packages : Json.Fields) : Json.Fields :=
  packages.filter (·.1 ≠ [])

/-- The key under which an entry is kept. -/
def normalPath (rawPath : List Char) : List Char :=
  asPosix (Glob.pathParts rawPath)

/-- The assignments that the entries amount to. -/
def normalized (entries : Json.Fields) : List (List Char × Json.Fields) :=
  entries.map fun item => (normalPath item.1, item.2.object?.getD [])

theorem safeRelative_eq_ok {value text : List Char} (accepted : safeRelative value = .ok text) :
    text = normalPath value := by
  unfold safeRelative at accepted
  rw [raiseIf_bind_eq_ok_iff, raiseIf_bind_eq_ok_iff] at accepted
  exact (Except.ok.inj accepted.2.2).symm

/-- The entry is an object at an acceptable path. -/
def IsAcceptable (item : List Char × Json) : Prop :=
  safeRelative item.1 = .ok (normalPath item.1) ∧ item.2 = .object (item.2.object?.getD [])

section Lockfile

variable {Digest : Type} [DecidableEq Digest] (env : Environment Digest) (tree : FileTree)
  (config : DependencyPreparationConfig Digest)

omit [DecidableEq Digest] in
theorem addLockEntry_of_root {result : Dict (List Char) Json.Fields} {item : List Char × Json}
    (isRoot : item.1 = []) : addLockEntry config result item = .ok result := by
  rw [addLockEntry, if_pos isRoot]

omit [DecidableEq Digest] in
theorem addLockEntry_eq_ok {result next : Dict (List Char) Json.Fields} {item : List Char × Json}
    (notRoot : item.1 ≠ []) (added : addLockEntry config result item = .ok next) :
    IsAcceptable item ∧
      next = result.insert (normalPath item.1) (item.2.object?.getD []) := by
  rw [addLockEntry, if_neg notRoot] at added
  cases object : item.2.object? with
  | none =>
      rw [object] at added
      cases added
  | some entry =>
      rw [object] at added
      obtain ⟨lockPath, accepted, rest⟩ := bind_eq_ok_iff.mp added
      obtain ⟨-, rest⟩ := raiseIf_bind_eq_ok_iff.mp rest
      obtain ⟨name, -, rest⟩ := bind_eq_ok_iff.mp rest
      obtain ⟨-, rest⟩ := raiseIf_bind_eq_ok_iff.mp rest
      obtain rfl := safeRelative_eq_ok accepted
      refine ⟨⟨accepted, ?_⟩, (Except.ok.inj rest).symm⟩
      rw [object, Option.getD_some]
      cases json : item.2 <;> rw [json] at object <;> cases object
      rfl

omit [DecidableEq Digest] in
/-- The loop over the packages map assigns the entries in order. -/
theorem foldlM_addLockEntry {packages : Json.Fields} {start final : Dict (List Char) Json.Fields}
    (returned : packages.foldlM (addLockEntry config) start = .ok final) :
    (∀ item ∈ lockEntries packages, IsAcceptable item) ∧
      final = start.assign (normalized (lockEntries packages)) := by
  induction packages generalizing start with
  | nil => exact ⟨nofun, (Except.ok.inj returned).symm⟩
  | cons item packages ih =>
      rw [List.foldlM_cons] at returned
      obtain ⟨next, added, rest⟩ := bind_eq_ok_iff.mp returned
      obtain ⟨acceptable, finalEq⟩ := ih rest
      by_cases isRoot : item.1 = []
      · rw [addLockEntry_of_root config isRoot] at added
        cases added
        have dropped : lockEntries (item :: packages) = lockEntries packages :=
          List.filter_cons_of_neg (by simpa using isRoot)
        rw [dropped]
        exact ⟨acceptable, finalEq⟩
      · obtain ⟨itemAcceptable, rfl⟩ := addLockEntry_eq_ok config isRoot added
        have kept : lockEntries (item :: packages) = item :: lockEntries packages :=
          List.filter_cons_of_pos (by simpa using isRoot)
        rw [kept]
        exact ⟨List.forall_mem_cons.mpr ⟨itemAcceptable, acceptable⟩, finalEq⟩

omit [DecidableEq Digest] in
theorem loadLockPackages_eq_ok {raw : List UInt8} {result : Dict (List Char) Json.Fields}
    (loaded : loadLockPackages env config raw = .ok result) :
    ∃ payload packages, env.loadJson raw = .ok payload ∧ packagesMap payload = .ok packages ∧
      (∀ item ∈ lockEntries packages, IsAcceptable item) ∧
      result = Dict.empty.assign (normalized (lockEntries packages)) := by
  unfold loadLockPackages at loaded
  obtain ⟨payload, decoded, rest⟩ := bind_eq_ok_iff.mp loaded
  obtain ⟨packages, found, rest⟩ := bind_eq_ok_iff.mp rest
  obtain ⟨filled, added, rest⟩ := bind_eq_ok_iff.mp rest
  obtain ⟨-, rest⟩ := raiseIf_bind_eq_ok_iff.mp rest
  obtain rfl := Except.ok.inj rest
  exact ⟨payload, packages, decoded, found, foldlM_addLockEntry config added⟩

/-! ## Packages -/

omit [DecidableEq Digest] in
/-- The packages of a validated project are sorted by lock path already. -/
theorem items_sorted_snapshotPackages (snapshotProject : SnapshotProject Digest) :
    (snapshotPackages snapshotProject).sorted.items =
      snapshotProject.packages.map fun package => (package.lockPath, package) := by
  have paths : (snapshotProject.packages.map fun package => (package.lockPath, package)).map
      Prod.fst = snapshotProject.packages.map SnapshotPackage.lockPath := by
    rw [List.map_map]
    rfl
  have sorted := snapshotProject.lockPathsSorted.pairwise
  have items : (snapshotPackages snapshotProject).items =
      snapshotProject.packages.map fun package => (package.lockPath, package) := by
    refine Dict.items_assign_empty ?_
    rw [paths]
    exact sorted.imp fun less => less.ne
  change List.insertionSort _ (snapshotPackages snapshotProject).items = _
  rw [items]
  refine List.Pairwise.insertionSort_eq ?_
  rw [← paths, List.pairwise_map] at sorted
  exact sorted.imp fun less => less.le

/-- What the loop over the packages has established about one of them. -/
structure IsValidated (snapshotParent : FilePath) (lockPackages : Dict (List Char) Json.Fields)
    (package : SnapshotPackage Digest) (validated : ValidatedPackage Digest) : Prop where
  lockEntry : ∃ entry, lockPackages.get? package.lockPath = some entry ∧
    checkLockEntry package.lockPath package entry = .ok validated.evidence.integrity
  source : ∃ source, tree.resolveContainedDirectory snapshotParent package.source = .ok source ∧
    inventoryDependencyTree env tree config source = .ok validated.files
  treeHash : inventoryHash env validated.files = package.treeSha256
  name : validated.evidence.name = package.name
  version : validated.evidence.version = package.version
  lockPath : validated.evidence.lockPath = package.lockPath

theorem validatePackage_eq_ok {snapshotParent : FilePath}
    {lockPackages : Dict (List Char) Json.Fields} {state next : Validation Digest}
    {package : SnapshotPackage Digest}
    (returned : validatePackage env tree config snapshotParent lockPackages state
      (package.lockPath, package) = .ok next) :
    ∃ validated, next.validated = state.validated ++ [validated] ∧
      IsValidated env tree config snapshotParent lockPackages package validated := by
  unfold validatePackage at returned
  obtain ⟨entry, found, rest⟩ := bind_eq_ok_iff.mp returned
  obtain ⟨integrity, checked, rest⟩ := bind_eq_ok_iff.mp rest
  obtain ⟨source, resolved, rest⟩ := bind_eq_ok_iff.mp rest
  obtain ⟨files, inventoried, rest⟩ := bind_eq_ok_iff.mp rest
  obtain ⟨-, rest⟩ := raiseIf_bind_eq_ok_iff.mp rest
  obtain ⟨manifest, -, rest⟩ := bind_eq_ok_iff.mp rest
  obtain ⟨-, rest⟩ := raiseIf_bind_eq_ok_iff.mp rest
  obtain ⟨-, -, rest⟩ := bind_eq_ok_iff.mp rest
  obtain ⟨sameHash, rest⟩ := raiseIf_bind_eq_ok_iff.mp rest
  obtain ⟨evidence, built, rest⟩ := bind_eq_ok_iff.mp rest
  obtain rfl := Except.ok.inj rest
  obtain ⟨-, built⟩ := raiseIf_bind_eq_ok_iff.mp built
  obtain rfl := Except.ok.inj built
  refine ⟨_, rfl, ⟨entry, ?_, checked⟩, ⟨source, resolved, inventoried⟩, not_not.mp sameHash, rfl,
    rfl, rfl⟩
  cases lookup : lockPackages.get? package.lockPath with
  | none =>
      rw [lookup] at found
      cases found
  | some stored =>
      rw [lookup] at found
      rw [Except.ok.inj found]

/-- The loop over the packages validates them one by one. -/
theorem foldlM_validatePackage {snapshotParent : FilePath}
    {lockPackages : Dict (List Char) Json.Fields} {packages : List (SnapshotPackage Digest)}
    {state final : Validation Digest}
    (returned : (packages.map fun package => (package.lockPath, package)).foldlM
      (validatePackage env tree config snapshotParent lockPackages) state = .ok final) :
    ∃ added, final.validated = state.validated ++ added ∧
      List.Forall₂ (IsValidated env tree config snapshotParent lockPackages) packages added := by
  induction packages generalizing state with
  | nil => exact ⟨[], by rw [← Except.ok.inj returned, List.append_nil], .nil⟩
  | cons package packages ih =>
      rw [List.map_cons, List.foldlM_cons] at returned
      obtain ⟨next, stepped, rest⟩ := bind_eq_ok_iff.mp returned
      obtain ⟨validated, nextEq, isValidated⟩ := validatePackage_eq_ok env tree config stepped
      obtain ⟨added, finalEq, others⟩ := ih rest
      exact ⟨validated :: added, by simp [finalEq, nextEq], .cons isValidated others⟩

theorem validatePackages_eq_ok {snapshotProject : SnapshotProject Digest}
    {snapshotParent : FilePath} {lockBytes : List UInt8} {validated : List (ValidatedPackage Digest)}
    (returned : validatePackages env tree config snapshotProject snapshotParent lockBytes =
      .ok validated) :
    ∃ lockPackages, loadLockPackages env config lockBytes = .ok lockPackages ∧
      (∀ path, path ∈ lockPackages ↔ path ∈ snapshotProject.packages.map SnapshotPackage.lockPath) ∧
      List.Forall₂ (IsValidated env tree config snapshotParent lockPackages)
        snapshotProject.packages validated := by
  unfold validatePackages at returned
  obtain ⟨lockPackages, loaded, rest⟩ := bind_eq_ok_iff.mp returned
  obtain ⟨samePaths, rest⟩ := raiseIf_bind_eq_ok_iff.mp rest
  obtain ⟨-, rest⟩ := raiseIf_bind_eq_ok_iff.mp rest
  obtain ⟨validation, looped, rest⟩ := bind_eq_ok_iff.mp rest
  obtain rfl := Except.ok.inj rest
  rw [items_sorted_snapshotPackages] at looped
  obtain ⟨added, finalEq, all⟩ := foldlM_validatePackage env tree config looped
  refine ⟨lockPackages, loaded, fun path => ?_, ?_⟩
  · have member : path ∈ snapshotPackages snapshotProject ↔
        path ∈ snapshotProject.packages.map SnapshotPackage.lockPath := by
      rw [snapshotPackages, Dict.mem_assign_iff, List.map_map]
      simp [Dict.mem_iff_exists_get?]
    obtain ⟨forth, back⟩ := not_not.mp samePaths
    rw [← member]
    exact ⟨forth path, back path⟩
  · rw [finalEq]
    exact all

end Lockfile

/-! ## Entries and packages -/

section Entries

variable {Digest : Type} (env : Environment Digest) (tree : FileTree)
  (config : DependencyPreparationConfig Digest)

/-- The entry passes the checks of the package that is prepared at its path. -/
structure IsChecked (item : List Char × Json) (evidence : DependencyPackageEvidence Digest) :
    Prop where
  path : safeRelative item.1 = .ok evidence.lockPath
  entry : ∃ entry, item.2 = .object entry ∧ lockIntegrity entry = .ok evidence.integrity ∧
    (Json.field? entry "version").bind Json.string? = some evidence.version
  name : npmNameFromLockPath evidence.lockPath = .ok evidence.name

/-- There is one package for each entry, and the entry passes its checks. -/
def EntriesChecked (entries : Json.Fields) (evidence : List (DependencyPackageEvidence Digest)) :
    Prop :=
  ∃ order : Json.Fields, order.Perm entries ∧ List.Forall₂ IsChecked order evidence

theorem checkLockEntry_eq_ok {lockPath : List Char} {package : SnapshotPackage Digest}
    {entry : Json.Fields} {integrity : List Char}
    (checked : checkLockEntry lockPath package entry = .ok integrity) :
    lockIntegrity entry = .ok integrity ∧
      (Json.field? entry "version").bind Json.string? = some package.version ∧
      npmNameFromLockPath lockPath = .ok package.name := by
  unfold checkLockEntry at checked
  obtain ⟨value, accepted, rest⟩ := bind_eq_ok_iff.mp checked
  obtain ⟨sameVersion, rest⟩ := raiseIf_bind_eq_ok_iff.mp rest
  obtain ⟨name, named, rest⟩ := bind_eq_ok_iff.mp rest
  obtain ⟨sameName, rest⟩ := raiseIf_bind_eq_ok_iff.mp rest
  obtain rfl := Except.ok.inj rest
  exact ⟨accepted, not_not.mp sameVersion, not_not.mp sameName ▸ named⟩

/-- The entry that is left at the lock path of a package passes its checks. -/
theorem exists_isChecked {entries : Json.Fields} (acceptable : ∀ item ∈ entries, IsAcceptable item)
    {snapshotParent : FilePath} {package : SnapshotPackage Digest}
    {validated : ValidatedPackage Digest}
    (isValidated : IsValidated env tree config snapshotParent
      (Dict.empty.assign (normalized entries)) package validated) :
    ∃ item ∈ entries, IsChecked item validated.evidence := by
  obtain ⟨entry, found, checked⟩ := isValidated.lockEntry
  obtain ⟨integrity, version, name⟩ := checkLockEntry_eq_ok checked
  have assigned : (package.lockPath, entry) ∈ normalized entries :=
    (Dict.get?_assign_cases found).resolve_left (by simp)
  obtain ⟨item, member, same⟩ := List.mem_map.mp assigned
  obtain ⟨path, object⟩ := acceptable item member
  obtain ⟨samePath, sameEntry⟩ := Prod.mk.inj same
  refine ⟨item, member, ?_, ⟨entry, sameEntry ▸ object, integrity, ?_⟩, ?_⟩
  · rw [path, samePath, isValidated.lockPath]
  · rw [version, isValidated.version]
  · rw [isValidated.lockPath, name, isValidated.name]

/-- The entries are checked one for one exactly when no two of them are kept under one key. -/
theorem entriesChecked_iff {entries : Json.Fields}
    (acceptable : ∀ item ∈ entries, IsAcceptable item) {snapshotParent : FilePath}
    {snapshotProject : SnapshotProject Digest} {validated : List (ValidatedPackage Digest)}
    (samePaths : ∀ path, path ∈ (Dict.empty.assign (normalized entries)) ↔
      path ∈ snapshotProject.packages.map SnapshotPackage.lockPath)
    (all : List.Forall₂ (IsValidated env tree config snapshotParent
      (Dict.empty.assign (normalized entries))) snapshotProject.packages validated) :
    EntriesChecked entries (validated.map (·.evidence)) ↔
      (entries.map fun item => normalPath item.1).Nodup := by
  have distinct : (snapshotProject.packages.map SnapshotPackage.lockPath).Nodup :=
    snapshotProject.lockPathsSorted.nodup
  have paths : snapshotProject.packages.map SnapshotPackage.lockPath =
      validated.map (·.evidence.lockPath) :=
    Pairing.map_eq_map all fun _ _ isValidated => isValidated.lockPath.symm
  have ordered : ∀ order : Json.Fields,
      List.Forall₂ IsChecked order (validated.map (·.evidence)) →
      order.map (fun item => normalPath item.1) =
        snapshotProject.packages.map SnapshotPackage.lockPath := by
    intro order pairs
    rw [paths, Pairing.map_eq_map pairs fun _ _ isChecked =>
      (safeRelative_eq_ok isChecked.path).symm, List.map_map]
    rfl
  constructor
  · rintro ⟨order, perm, pairs⟩
    rw [← (perm.map _).nodup_iff, ordered order pairs]
    exact distinct
  · intro keysDistinct
    obtain ⟨order, found⟩ : ∃ order : Json.Fields, List.Forall₂
        (fun item evidence => item ∈ entries ∧ IsChecked item evidence) order
        (validated.map (·.evidence)) := by
      refine Pairing.exists_partners fun evidence member => ?_
      obtain ⟨package, packageMember, rfl⟩ := List.mem_map.mp member
      obtain ⟨snapshotPackage, -, isValidated⟩ := Pairing.exists_left all packageMember
      exact exists_isChecked env tree config acceptable isValidated
    have pairs := found.imp fun _ _ both => both.2
    have orderPaths := ordered order pairs
    have inside : ∀ item ∈ order, item ∈ entries := by
      intro item member
      obtain ⟨_, _, both⟩ := Pairing.exists_right found member
      exact both.1
    refine ⟨order, (List.perm_ext_iff_of_nodup
      (List.Nodup.of_map (fun item => normalPath item.1) (by rw [orderPaths]; exact distinct))
      (List.Nodup.of_map _ keysDistinct)).mpr fun item => ⟨inside item, fun member => ?_⟩, pairs⟩
    -- The package at the path of the entry has an entry in the order, which can only be this one.
    have assigned : normalPath item.1 ∈ Dict.empty.assign (normalized entries) := by
      rw [Dict.mem_assign_iff, normalized, List.map_map]
      exact .inr (List.mem_map_of_mem member)
    rw [samePaths, ← orderPaths] at assigned
    obtain ⟨other, otherMember, samePath⟩ := List.mem_map.mp assigned
    obtain rfl := List.inj_on_of_nodup_map keysDistinct (inside other otherMember) member samePath
    exact otherMember

end Entries

end Dependencies

end MmAudit
