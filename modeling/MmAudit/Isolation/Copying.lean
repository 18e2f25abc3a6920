import MmAudit.Isolation.Lockfile

/-!
# What is copied

The inventory of a package lists the files below its source, and the copy creates one file for
each of them.  As files are created exclusively, a finished tree holds every inventoried file at
a place of its own, and nothing else.
-/

namespace MmAudit

namespace Dependencies

open Fallible

/-! ## Texts of file paths -/

theorem pathParts_pathText {path : FilePath} (nonempty : path ≠ [])
    (named : ∀ name ∈ path, IsFileName name) : Glob.pathParts (Glob.pathText path) = path := by
  have split : (Glob.pathText path).splitOn '/' = path :=
    List.splitOn_intercalate '/' (fun name member => (named name member).2.1) nonempty
  rw [Glob.pathParts, split]
  refine List.filter_eq_self.mpr fun name member => ?_
  obtain ⟨notEmpty, -, notDot, -⟩ := named name member
  simp [notEmpty, notDot]

section Copying

variable {Digest : Type} [DecidableEq Digest] (env : Environment Digest) (tree : FileTree)
  (config : DependencyPreparationConfig Digest)

/-! ## Inventories -/

theorem mem_below_iff {root relative : FilePath} {node : Node} :
    (relative, node) ∈ tree.below root ↔
      relative ≠ [] ∧ tree.nodes.get? (root ++ relative) = some node := by
  rw [FileTree.below, List.mem_insertionSort, List.mem_filterMap, Dict.get?_eq_some_iff]
  constructor
  · rintro ⟨⟨path, found⟩, member, selected⟩
    split at selected
    · rename_i inside
      rw [Bool.and_eq_true, List.isPrefixOf_iff_prefix, decide_eq_true_eq] at inside
      obtain ⟨⟨rest, rfl⟩, different⟩ := inside
      cases selected
      rw [List.drop_left]
      exact ⟨fun empty => different (by rw [empty, List.append_nil]), member⟩
    · cases selected
  · rintro ⟨nonempty, member⟩
    refine ⟨_, member, ?_⟩
    rw [if_pos, List.drop_left]
    rw [Bool.and_eq_true, List.isPrefixOf_iff_prefix, decide_eq_true_eq]
    exact ⟨List.prefix_append _ _, fun same => nonempty (List.append_right_eq_self.mp same)⟩

/-- What the inventory has on a file. -/
def inventoried (root relative : FilePath) (info : FileInfo) : InventoryFile Digest where
  relativePath := Glob.pathText relative
  sourcePath := root ++ relative
  sha256 := env.sha256 info.data
  size := info.data.length

def inventoriedOf (root : FilePath) (candidate : FilePath × Node) :
    Option (InventoryFile Digest) :=
  match candidate.2 with
  | .file info => some (inventoried env root candidate.1 info)
  | _ => none

omit [DecidableEq Digest] in
theorem inventoryStep_eq_ok {root : FilePath} {state next : List (InventoryFile Digest) × ℕ}
    {candidate : FilePath × Node}
    (returned : inventoryStep env config root state candidate = .ok next) :
    next.1 = state.1 ++ (inventoriedOf env root candidate).toList := by
  obtain ⟨relative, node⟩ := candidate
  cases node with
  | link => cases returned
  | special => cases returned
  | directory =>
      rw [← Except.ok.inj returned]
      exact (List.append_nil _).symm
  | file info =>
      unfold inventoryStep at returned
      obtain ⟨-, rest⟩ := raiseIf_bind_eq_ok_iff.mp returned
      obtain ⟨-, rest⟩ := raiseIf_bind_eq_ok_iff.mp rest
      obtain ⟨-, rest⟩ := raiseIf_bind_eq_ok_iff.mp rest
      obtain ⟨-, rest⟩ := raiseIf_bind_eq_ok_iff.mp rest
      obtain ⟨-, -, rest⟩ := bind_eq_ok_iff.mp rest
      rw [← Except.ok.inj rest]
      rfl

omit [DecidableEq Digest] in
theorem foldlM_inventoryStep {root : FilePath} {candidates : List (FilePath × Node)}
    {state final : List (InventoryFile Digest) × ℕ}
    (returned : candidates.foldlM (inventoryStep env config root) state = .ok final) :
    final.1 = state.1 ++ candidates.filterMap (inventoriedOf env root) := by
  refine foldlM_invariant
    (fun done current => current.1 = state.1 ++ done.filterMap (inventoriedOf env root))
    candidates returned (by simp) ?_
  intro done candidate current next holds stepped
  rw [inventoryStep_eq_ok env config stepped, holds, List.filterMap_append, List.append_assoc]
  cases shown : inventoriedOf env root candidate <;> simp [shown]

omit [DecidableEq Digest] in
/-- The inventory lists the files below the source, each with the hash of its bytes. -/
theorem mem_inventory_iff {root : FilePath} {files : List (InventoryFile Digest)}
    (returned : inventoryDependencyTree env tree config root = .ok files)
    (item : InventoryFile Digest) :
    item ∈ files ↔ ∃ relative info, relative ≠ [] ∧
      tree.nodes.get? (root ++ relative) = some (.file info) ∧
      item = inventoried env root relative info := by
  unfold inventoryDependencyTree at returned
  rw [raiseIf_bind_eq_ok_iff, bind_eq_ok_iff] at returned
  obtain ⟨-, ⟨found, bytes⟩, looped, rest⟩ := returned
  obtain ⟨-, rest⟩ := raiseIf_bind_eq_ok_iff.mp rest
  obtain rfl : found = files := Except.ok.inj rest
  have listed : found = (tree.below root).filterMap (inventoriedOf env root) :=
    foldlM_inventoryStep env config looped
  rw [listed, List.mem_filterMap]
  constructor
  · rintro ⟨⟨relative, node⟩, member, shown⟩
    cases node with
    | file info =>
        cases shown
        obtain ⟨nonempty, stored⟩ := (mem_below_iff tree).mp member
        exact ⟨relative, info, nonempty, stored, rfl⟩
    | link => cases shown
    | directory => cases shown
    | special => cases shown
  · rintro ⟨relative, info, nonempty, stored, rfl⟩
    exact ⟨(relative, .file info), (mem_below_iff tree).mpr ⟨nonempty, stored⟩, rfl⟩

/-! ## The copy -/

/-- The file is a copy of the inventoried one, at its place in the package. -/
structure IsCopy (lockPath : List Char) (item : InventoryFile Digest)
    (file : FilePath × List UInt8) : Prop where
  place : file.1 = destinationOf lockPath item.relativePath
  read : tree.read item.sourcePath = .ok file.2
  size : file.2.length = item.size
  hash : env.sha256 file.2 = item.sha256

theorem mapError_eq_ok {First Second Value : Type} {translate : First → Second}
    {computation : Except First Value} {value : Value}
    (returned : computation.mapError translate = .ok value) : computation = .ok value := by
  cases computation with
  | error failure => cases returned
  | ok other => exact congrArg Except.ok (Except.ok.inj returned)

theorem copyFile_eq_ok {refuses : FilePath → Bool} {lockPath : List Char}
    {staging next : PreparedTree} {item : InventoryFile Digest}
    (returned : copyFile env tree refuses lockPath staging item = .ok next) :
    ∃ file, next.files = staging.files ++ [file] ∧ IsCopy env tree lockPath item file := by
  unfold copyFile at returned
  obtain ⟨data, read, rest⟩ := bind_eq_ok_iff.mp returned
  obtain ⟨unchanged, rest⟩ := raiseIf_bind_eq_ok_iff.mp rest
  rw [not_or, not_not, not_not] at unchanged
  exact ⟨_, Directory.placeFile_files _ (mapError_eq_ok rest), rfl, read, unchanged.1, unchanged.2⟩

theorem foldlM_copyFile {refuses : FilePath → Bool} {lockPath : List Char}
    {files : List (InventoryFile Digest)} {staging final : PreparedTree}
    (returned : files.foldlM (copyFile env tree refuses lockPath) staging = .ok final) :
    ∃ added, final.files = staging.files ++ added ∧
      List.Forall₂ (IsCopy env tree lockPath) files added := by
  induction files generalizing staging with
  | nil => exact ⟨[], by rw [← Except.ok.inj returned, List.append_nil], .nil⟩
  | cons item files ih =>
      rw [List.foldlM_cons] at returned
      obtain ⟨next, copied, rest⟩ := bind_eq_ok_iff.mp returned
      obtain ⟨file, nextEq, isCopy⟩ := copyFile_eq_ok env tree copied
      obtain ⟨added, finalEq, others⟩ := ih rest
      exact ⟨file :: added, by simp [finalEq, nextEq], .cons isCopy others⟩

theorem copyPackage_eq_ok {refuses : FilePath → Bool} {staging next : PreparedTree}
    {package : ValidatedPackage Digest}
    (returned : copyPackage env tree refuses staging package = .ok next) :
    ∃ added, next.files = staging.files ++ added ∧
      List.Forall₂ (IsCopy env tree package.evidence.lockPath) package.files added := by
  unfold copyPackage at returned
  obtain ⟨made, folders, rest⟩ := bind_eq_ok_iff.mp returned
  rw [← Directory.makeFolders_files _ (mapError_eq_ok folders)]
  exact foldlM_copyFile env tree rest

/-- The files that the packages bring along, each with the lock path of its package. -/
def inventoryOf (packages : List (ValidatedPackage Digest)) :
    List (List Char × InventoryFile Digest) :=
  packages.flatMap fun package => package.files.map fun item => (package.evidence.lockPath, item)

/-- The copy creates one file for every inventoried one. -/
theorem foldlM_copyPackage {refuses : FilePath → Bool} {packages : List (ValidatedPackage Digest)}
    {staging final : PreparedTree}
    (returned : packages.foldlM (copyPackage env tree refuses) staging = .ok final) :
    ∃ added, final.files = staging.files ++ added ∧
      List.Forall₂ (fun item file => IsCopy env tree item.1 item.2 file) (inventoryOf packages)
        added := by
  induction packages generalizing staging with
  | nil => exact ⟨[], by rw [← Except.ok.inj returned, List.append_nil], .nil⟩
  | cons package packages ih =>
      rw [List.foldlM_cons] at returned
      obtain ⟨next, copied, rest⟩ := bind_eq_ok_iff.mp returned
      obtain ⟨own, nextEq, ownCopies⟩ := copyPackage_eq_ok env tree copied
      obtain ⟨others, finalEq, otherCopies⟩ := ih rest
      refine ⟨own ++ others, by simp [finalEq, nextEq], ?_⟩
      exact Pairing.append (List.forall₂_map_left_iff.mpr ownCopies) otherCopies

/-- A copy that succeeds adds one finished tree, at the place of the project. -/
theorem copyValidatedPackages_eq_ok {refusals : Refusals}
    {packages : List (ValidatedPackage Digest)} {projectRoot directory : List Char}
    {privateRoot after : PrivateRoot}
    (returned : copyValidatedPackages env tree refusals packages projectRoot privateRoot =
      (after, .ok directory)) :
    directory = projectDirectory env projectRoot ∧ directory ∉ privateRoot.modules ∧
      ∃ staged : PreparedTree,
        after = { privateRoot with modules := privateRoot.modules.insert directory staged } ∧
        List.Forall₂ (fun item file => IsCopy env tree item.1 item.2 file) (inventoryOf packages)
          staged.files := by
  unfold copyValidatedPackages at returned
  dsimp only at returned
  split at returned
  · cases returned
  · rename_i absent
    split at returned
    · cases returned
    · split at returned
      · split at returned <;> cases returned
      · rename_i staged copied
        split at returned
        · split at returned <;> cases returned
        · cases returned
          obtain ⟨added, filesEq, copies⟩ := foldlM_copyPackage env tree copied
          refine ⟨rfl, fun present => absent (.inr present), staged, rfl, ?_⟩
          rw [filesEq]
          exact copies

/-- A copy that fails adds no finished tree. -/
theorem modules_of_copy_failed {refusals : Refusals}
    {packages : List (ValidatedPackage Digest)} {projectRoot : List Char}
    {privateRoot after : PrivateRoot} {failure : Failure}
    (raised : copyValidatedPackages env tree refusals packages projectRoot privateRoot =
      (after, .error failure)) : after.modules = privateRoot.modules := by
  unfold copyValidatedPackages at raised
  dsimp only at raised
  repeat' split at raised
  all_goals cases raised <;> rfl

end Copying

end Dependencies

end MmAudit
