import MmAudit.Isolation.Outcomes

/-!
# Prepared dependencies and the lockfile

A prepared tree is always an exact copy of the inventoried packages, and no advisory names a
package in it.  Three things depend on the input.

The entries of the lockfile are all checked exactly when no two of them are normalized to the
same path, since only the last entry at a path is looked at.  The findings of a rejected project
are complete exactly when no two advisories name the same version of a locked package.  And the
run answers every target unless it gets to a lockfile whose version is an array or an object.
-/

namespace MmAudit

namespace Dependencies

open Fallible

section Exactness

variable {Digest : Type} [DecidableEq Digest] (env : Environment Digest) (tree : FileTree)
  (config : DependencyPreparationConfig Digest)

/-! ## One project -/

section Project

variable (project : SolidityProjectMetadata) (snapshot : DependencySnapshot Digest)
  (snapshotProject : SnapshotProject Digest) (snapshotParent : FilePath)

/-- The entries of the lockfile of the project, the root left out. -/
def LocksEntries (entries : Json.Fields) : Prop :=
  ∃ path bytes payload packages,
    readLockfile env tree config project snapshotProject = .ok (path, bytes) ∧
      env.loadJson bytes = .ok payload ∧ packagesMap payload = .ok packages ∧
        entries = lockEntries packages

/-- No two entries of the lockfile are kept under one key. -/
def LockPathsDistinct : Prop :=
  ∀ entries, LocksEntries env tree config project snapshotProject entries →
    (entries.map fun item => normalPath item.1).Nodup

/-- The tree holds the inventoried files of the packages at their lock paths, and nothing else. -/
structure FaithfulTree (packages : List (SnapshotPackage Digest)) (staged : PreparedTree) :
    Prop where
  copies : ∃ validated : List (ValidatedPackage Digest),
    List.Forall₂ (fun package checked => checked.evidence.lockPath = package.lockPath ∧
      inventoryHash env checked.files = package.treeSha256 ∧
      ∃ source, tree.resolveContainedDirectory snapshotParent package.source = .ok source ∧
        inventoryDependencyTree env tree config source = .ok checked.files) packages validated ∧
      List.Forall₂ (fun item file => IsCopy env tree item.1 item.2 file) (inventoryOf validated)
        staged.files
  mem_files_iff : ∀ path data, (path, data) ∈ staged.files ↔ ∃ package ∈ packages,
    ∃ source relative info,
      tree.resolveContainedDirectory snapshotParent package.source = .ok source ∧ relative ≠ [] ∧
        tree.nodes.get? (source ++ relative) = some (.file info) ∧
        path = (Glob.pathParts package.lockPath).drop 1 ++ relative ∧ data = info.data

/-- What a prepared result promises. -/
structure PreparedExactly (after : PrivateRoot) (result : DependencyPreparationResult Digest) :
    Prop where
  entriesChecked : ∀ entries, LocksEntries env tree config project snapshotProject entries →
    EntriesChecked entries result.packages
  faithful : ∃ staged, after.modules.get? (projectDirectory env project.projectRoot) = some staged ∧
    FaithfulTree env tree config snapshotParent snapshotProject.packages staged
  notAdvised : ∀ evidence ∈ result.packages, ∀ advisory ∈ snapshot.advisories,
    ¬ advisory.Names evidence.name evidence.version

variable {project snapshot snapshotProject snapshotParent}

omit [DecidableEq Digest] in
/-- The relative path of an inventoried file can be read back. -/
theorem pathParts_relativePath {root relative : FilePath} {info : FileInfo}
    (nonempty : relative ≠ []) (stored : tree.nodes.get? (root ++ relative) = some (.file info)) :
    Glob.pathParts (inventoried env root relative info).relativePath = relative := by
  refine pathParts_pathText nonempty fun name member => ?_
  have present : root ++ relative ∈ tree.nodes.keys :=
    (Dict.mem_iff_exists_get? _ _).mpr ⟨_, stored⟩
  exact (tree.named _ present).2 name (List.mem_append_right _ member)

omit [DecidableEq Digest] in
theorem read_sourcePath {root relative : FilePath} {info : FileInfo} (nonempty : relative ≠ [])
    (stored : tree.nodes.get? (root ++ relative) = some (.file info)) :
    tree.read (inventoried env root relative info).sourcePath = .ok info.data := by
  have notRoot : root ++ relative ≠ [] := fun empty => nonempty (List.append_eq_nil_iff.mp empty).2
  have source : (inventoried env root relative info).sourcePath = root ++ relative := rfl
  have node : tree.node? (root ++ relative) = some (.file info) := by
    rw [FileTree.node?, if_neg notRoot, stored]
  rw [FileTree.read, source, node]

omit [DecidableEq Digest] in
theorem mem_inventoryOf_iff {validated : List (ValidatedPackage Digest)} {lockPath : List Char}
    {item : InventoryFile Digest} : (lockPath, item) ∈ inventoryOf validated ↔
      ∃ package ∈ validated, package.evidence.lockPath = lockPath ∧ item ∈ package.files := by
  simp only [inventoryOf, List.mem_flatMap, List.mem_map, Prod.mk.injEq]
  constructor
  · rintro ⟨package, member, other, inside, samePath, rfl⟩
    exact ⟨package, member, samePath, inside⟩
  · rintro ⟨package, member, samePath, inside⟩
    exact ⟨package, member, item, inside, samePath, rfl⟩

omit [DecidableEq Digest] in
/-- One copy for each inventoried file makes a faithful tree. -/
theorem faithfulTree_of_copies {lockPackages : Dict (List Char) Json.Fields}
    {packages : List (SnapshotPackage Digest)} {validated : List (ValidatedPackage Digest)}
    {staged : PreparedTree}
    (checked : List.Forall₂ (IsValidated env tree config snapshotParent lockPackages) packages
      validated)
    (copies : List.Forall₂ (fun item file => IsCopy env tree item.1 item.2 file)
      (inventoryOf validated) staged.files) :
    FaithfulTree env tree config snapshotParent packages staged := by
  refine ⟨⟨validated, checked.imp fun package validated isValidated =>
    ⟨isValidated.lockPath, isValidated.treeHash, isValidated.source⟩, copies⟩, fun path data => ?_⟩
  constructor
  · intro member
    obtain ⟨⟨lockPath, item⟩, listed, isCopy⟩ := Pairing.exists_left copies member
    obtain ⟨checkedPackage, checkedMember, rfl, inside⟩ := mem_inventoryOf_iff.mp listed
    obtain ⟨package, packageMember, isValidated⟩ := Pairing.exists_left checked checkedMember
    obtain ⟨source, resolved, returned⟩ := isValidated.source
    obtain ⟨relative, info, nonempty, stored, rfl⟩ :=
      (mem_inventory_iff env tree config returned item).mp inside
    refine ⟨package, packageMember, source, relative, info, resolved, nonempty, stored, ?_, ?_⟩
    · rw [show path = _ from isCopy.place, destinationOf, pathParts_relativePath env tree nonempty stored,
        isValidated.lockPath]
    · exact Except.ok.inj (isCopy.read.symm.trans (read_sourcePath env tree nonempty stored))
  · rintro ⟨package, packageMember, source, relative, info, resolved, nonempty, stored, rfl, rfl⟩
    obtain ⟨checkedPackage, checkedMember, isValidated⟩ :=
      Pairing.exists_right checked packageMember
    obtain ⟨otherSource, otherResolved, returned⟩ := isValidated.source
    obtain rfl : source = otherSource := Except.ok.inj (resolved.symm.trans otherResolved)
    have inside := (mem_inventory_iff env tree config returned _).mpr
      ⟨relative, info, nonempty, stored, rfl⟩
    obtain ⟨⟨copyPath, copyData⟩, copyMember, isCopy⟩ := Pairing.exists_right copies
      (mem_inventoryOf_iff.mpr ⟨checkedPackage, checkedMember, rfl, inside⟩)
    have samePath : copyPath = (Glob.pathParts package.lockPath).drop 1 ++ relative := by
      rw [show copyPath = _ from isCopy.place, destinationOf,
        pathParts_relativePath env tree nonempty stored, isValidated.lockPath]
    have sameData : copyData = info.data :=
      Except.ok.inj (isCopy.read.symm.trans (read_sourcePath env tree nonempty stored))
    rw [← samePath, ← sameData]
    exact copyMember

/-- The entries of an inspected project are the ones that its lockfile locks. -/
theorem IsInspected.locksEntries_iff {advisories : List SnapshotAdvisory} {packages : Json.Fields}
    {validated : List (ValidatedPackage Digest)} {findings : List DependencyAdvisoryFinding}
    (isInspected : IsInspected env tree config project snapshotProject advisories snapshotParent
      packages validated findings) (entries : Json.Fields) :
    LocksEntries env tree config project snapshotProject entries ↔
      entries = lockEntries packages := by
  obtain ⟨path, bytes, payload, read, decoded, mapped⟩ := isInspected.lockfile
  constructor
  · rintro ⟨otherPath, otherBytes, otherPayload, otherPackages, otherRead, otherDecoded,
      otherMapped, rfl⟩
    cases read.symm.trans otherRead
    cases decoded.symm.trans otherDecoded
    cases mapped.symm.trans otherMapped
    rfl
  · intro same
    exact ⟨path, bytes, payload, packages, read, decoded, mapped, same⟩

/-- A prepared result keeps its promise exactly when the lock paths are distinct. -/
theorem preparedExactly_iff {refusals : Refusals} {snapshotSha256 : Digest}
    {before after : PrivateRoot} {preparation : Preparation Digest}
    (returned : prepareProject env tree config refusals project snapshotProject
      snapshot.advisories snapshotParent snapshotSha256 before = (after, .ok preparation))
    (prepared : preparation.result.status = .prepared) :
    PreparedExactly env tree config project snapshot snapshotProject snapshotParent after
        preparation.result ↔
      LockPathsDistinct env tree config project snapshotProject := by
  have ending := ending_prepareProject env tree config refusals project snapshotProject
    snapshot.advisories snapshotParent snapshotSha256 before
  rw [returned] at ending
  cases ending with
  | advised => cases prepared
  | prepared lockfile lockfileSha256 packages validated sbom path staged isInspected isNew added
      copies =>
      have entriesIff := entriesChecked_iff env tree config isInspected.acceptable
        isInspected.samePaths isInspected.checked
      constructor
      · intro exactly entries locks
        obtain rfl := (isInspected.locksEntries_iff env tree config entries).mp locks
        exact entriesIff.mp (exactly.entriesChecked _ locks)
      · intro distinct
        refine ⟨fun entries locks => ?_, ⟨staged, ?_, ?_⟩, ?_⟩
        · have same := (isInspected.locksEntries_iff env tree config entries).mp locks
          rw [same]
          exact entriesIff.mpr (distinct _ (same ▸ locks))
        · rw [show after.modules = _ from added, Dict.get?_insert_self]
        · exact faithfulTree_of_copies env tree config isInspected.checked copies
        · intro evidence member advisory listed
          obtain ⟨package, packageMember, rfl⟩ := List.mem_map.mp member
          exact not_names_of_no_findings isInspected.scanned packageMember listed

/-- The findings of a rejected project are complete exactly when no two advisories overlap on
one of its packages. -/
theorem findingsComplete_of_rejected_iff {refusals : Refusals} {snapshotSha256 : Digest}
    {before after : PrivateRoot} {preparation : Preparation Digest}
    (returned : prepareProject env tree config refusals project snapshotProject
      snapshot.advisories snapshotParent snapshotSha256 before = (after, .ok preparation))
    (rejected : preparation.result.status = .rejected) :
    FindingsComplete snapshot.advisories preparation.result.packages
        preparation.result.scanFindings ↔
      AdvisoriesDisjoint snapshot.advisories snapshotProject.packages := by
  have ending := ending_prepareProject env tree config refusals project snapshotProject
    snapshot.advisories snapshotParent snapshotSha256 before
  rw [returned] at ending
  cases ending with
  | prepared => cases rejected
  | advised lockfile lockfileSha256 packages validated findings sbom unchanged isInspected =>
      exact findingsComplete_iff isInspected.scanned
        (isInspected.checked.imp fun _ _ isValidated => ⟨isValidated.name, isValidated.version⟩)

end Project

/-! ## The run over the targets -/

section Run

/-- One result for every target, and one finished tree for every prepared one. -/
structure AnswersTargets (targets : List SolidityProjectMetadata)
    (run : DependencyPreparationRun Digest) : Prop where
  results : run.results.map (·.projectRoot) = targets.map (·.projectRoot)
  trees : run.privateRoot.modules.keys = (run.results.filter (·.status = .prepared)).map fun result =>
    projectDirectory env result.projectRoot

omit [DecidableEq Digest] in
/-- A result that is not prepared goes with unchanged trees. -/
theorem AnswersTargets.concat_unprepared {targets : List SolidityProjectMetadata}
    {run next : DependencyPreparationRun Digest} (answers : AnswersTargets env targets run)
    {project : SolidityProjectMetadata} {result : DependencyPreparationResult Digest}
    (results : next.results = run.results ++ [result])
    (sameRoot : result.projectRoot = project.projectRoot) (unprepared : result.status ≠ .prepared)
    (unchanged : next.privateRoot.modules = run.privateRoot.modules) :
    AnswersTargets env (targets ++ [project]) next := by
  constructor
  · rw [results, List.map_append, List.map_append, answers.results, List.map_singleton,
      List.map_singleton, sameRoot]
  · rw [unchanged, results, List.filter_append, List.filter_cons_of_neg (by simpa using unprepared),
      List.filter_nil, List.append_nil, answers.trees]

omit [DecidableEq Digest] in
/-- A prepared result goes with one more tree. -/
theorem AnswersTargets.concat_prepared {targets : List SolidityProjectMetadata}
    {run next : DependencyPreparationRun Digest} (answers : AnswersTargets env targets run)
    {project : SolidityProjectMetadata} {result : DependencyPreparationResult Digest}
    {staged : PreparedTree} (results : next.results = run.results ++ [result])
    (sameRoot : result.projectRoot = project.projectRoot) (prepared : result.status = .prepared)
    (isNew : projectDirectory env project.projectRoot ∉ run.privateRoot.modules)
    (added : next.privateRoot.modules =
      run.privateRoot.modules.insert (projectDirectory env project.projectRoot) staged) :
    AnswersTargets env (targets ++ [project]) next := by
  constructor
  · rw [results, List.map_append, List.map_append, answers.results, List.map_singleton,
      List.map_singleton, sameRoot]
  · rw [added, Dict.keys_insert_of_not_mem isNew, results, List.filter_append,
      List.filter_cons_of_pos (by simpa using prepared), List.filter_nil, List.map_append,
      List.map_singleton, answers.trees, sameRoot]

omit [DecidableEq Digest] in
theorem resultOfFailure_eq_ok {project : SolidityProjectMetadata} {snapshotSha256 : Digest}
    {failure : Failure} {result : DependencyPreparationResult Digest}
    (returned : resultOfFailure project snapshotSha256 failure = .ok result) :
    result.projectRoot = project.projectRoot ∧ result.status ≠ .prepared := by
  cases failure with
  | rejected message checks scanStatus =>
      obtain rfl := Except.ok.inj returned
      exact ⟨rfl, nofun⟩
  | failed exception =>
      obtain rfl := Except.ok.inj returned
      exact ⟨rfl, nofun⟩
  | escaping exception => cases returned

omit [DecidableEq Digest] in
theorem exists_resultOfFailure (project : SolidityProjectMetadata) (snapshotSha256 : Digest)
    {failure : Failure} (expected : ∀ exception, failure ≠ .escaping exception) :
    ∃ result, resultOfFailure project snapshotSha256 failure = .ok result := by
  cases failure with
  | rejected message checks scanStatus => exact ⟨_, rfl⟩
  | failed exception => exact ⟨_, rfl⟩
  | escaping exception => exact absurd rfl (expected exception)

variable {refusals : Refusals} {snapshotParent : FilePath} {snapshot : DependencySnapshot Digest}
  {snapshotSha256 : Digest}

/-- A target is answered, unless its preparation gets to an unhashable lockfile version. -/
theorem prepareTarget_answers {targets : List SolidityProjectMetadata}
    {run next : DependencyPreparationRun Digest} (answers : AnswersTargets env targets run)
    {project : SolidityProjectMetadata}
    (returned : prepareTarget env tree config refusals snapshotParent snapshot snapshotSha256 run
      project = .ok next) : AnswersTargets env (targets ++ [project]) next := by
  unfold prepareTarget at returned
  split at returned
  · cases returned
  · rename_i snapshotProject found
    have ending := ending_prepareProject env tree config refusals project snapshotProject
      snapshot.advisories snapshotParent snapshotSha256 run.privateRoot
    split at returned
    · rename_i after failure raised
      rw [raised] at ending
      obtain ⟨result, recorded, rest⟩ := bind_eq_ok_iff.mp returned
      obtain rfl := Except.ok.inj rest
      obtain ⟨sameRoot, unprepared⟩ := resultOfFailure_eq_ok recorded
      cases ending with
      | raised failure unchanged =>
          exact answers.concat_unprepared env rfl sameRoot unprepared unchanged
    · rename_i after preparation prepared
      rw [prepared] at ending
      obtain rfl := Except.ok.inj returned
      cases ending with
      | advised lockfile lockfileSha256 packages validated findings sbom unchanged =>
          exact answers.concat_unprepared env rfl rfl nofun unchanged
      | prepared lockfile lockfileSha256 packages validated sbom path staged isInspected isNew
          added =>
          exact answers.concat_prepared env rfl rfl rfl isNew added

omit [DecidableEq Digest] in
theorem find?_projectRoot {projects : List (SnapshotProject Digest)}
    (distinct : (projects.map (·.projectRoot)).Nodup) {snapshotProject : SnapshotProject Digest}
    (member : snapshotProject ∈ projects) {projectRoot : List Char}
    (sameRoot : snapshotProject.projectRoot = projectRoot) :
    (projects.find? fun candidate => candidate.projectRoot = projectRoot) =
      some snapshotProject := by
  cases found : projects.find? fun candidate => candidate.projectRoot = projectRoot with
  | none =>
      have missing := List.find?_eq_none.mp found snapshotProject member
      exact absurd sameRoot (by simpa using missing)
  | some other =>
      have otherRoot : other.projectRoot = projectRoot := by simpa using List.find?_some found
      rw [List.inj_on_of_nodup_map distinct (List.mem_of_find?_eq_some found) member
        (otherRoot.trans sameRoot.symm)]

theorem exists_prepareTarget_iff {project : SolidityProjectMetadata}
    {snapshotProject : SnapshotProject Digest} (member : snapshotProject ∈ snapshot.projects)
    (sameRoot : snapshotProject.projectRoot = project.projectRoot)
    (run : DependencyPreparationRun Digest) :
    (∃ next, prepareTarget env tree config refusals snapshotParent snapshot snapshotSha256 run
        project = .ok next) ↔
      ¬ ReadsUnhashableVersion env tree config project snapshotProject := by
  rw [← contained_prepareProject_iff env tree config refusals project snapshotProject
    snapshot.advisories snapshotParent snapshotSha256 run.privateRoot]
  unfold prepareTarget
  rw [find?_projectRoot snapshot.rootsSorted.nodup member sameRoot]
  dsimp only
  split
  · rename_i after failure raised
    rw [raised]
    constructor
    · rintro ⟨next, returned⟩ exception same
      obtain ⟨result, recorded, -⟩ := bind_eq_ok_iff.mp returned
      rw [Except.error.inj same] at recorded
      cases recorded
    · intro contained
      obtain ⟨result, recorded⟩ := exists_resultOfFailure project snapshotSha256
        fun exception same => contained exception (congrArg Except.error same)
      exact ⟨_, bind_of_ok recorded _⟩
  · rename_i after preparation prepared
    rw [prepared]
    exact ⟨fun _ => Contained.ok _, fun _ => ⟨_, rfl⟩⟩

/-- The loop over the targets answers them all, or gets to an unhashable lockfile version. -/
theorem prepareTargets_iff {targets : List SolidityProjectMetadata}
    (covered : ∀ project ∈ targets, ∃ snapshotProject ∈ snapshot.projects,
      snapshotProject.projectRoot = project.projectRoot) (name : List Char) :
    (∃ run, prepareTargets env tree config refusals targets snapshotParent snapshot snapshotSha256
        ⟨name, Dict.empty, []⟩ = .ok run ∧ AnswersTargets env targets run) ↔
      ¬ ∃ project ∈ targets, ∃ snapshotProject ∈ snapshot.projects,
        snapshotProject.projectRoot = project.projectRoot ∧
          ReadsUnhashableVersion env tree config project snapshotProject := by
  constructor
  · rintro ⟨run, returned, -⟩ ⟨project, member, snapshotProject, listed, sameRoot, unhashable⟩
    have stepped := foldlM_invariant (fun done _ => ∀ item ∈ done, ∃ state next,
        prepareTarget env tree config refusals snapshotParent snapshot snapshotSha256 state item =
          .ok next) targets returned nofun fun done item state next before now other member => by
      rcases List.mem_append.mp member with earlier | last
      · exact before other earlier
      · rw [List.mem_singleton.mp last]
        exact ⟨state, next, now⟩
    obtain ⟨state, next, now⟩ := stepped project member
    exact (exists_prepareTarget_iff env tree config listed sameRoot state).mp ⟨next, now⟩ unhashable
  · intro hashable
    refine exists_foldlM_of_invariant _ _ (fun done run => AnswersTargets env done run) targets
      ⟨rfl, rfl⟩ fun done project rest run split answers => ?_
    have member : project ∈ targets := by simp [← split]
    obtain ⟨snapshotProject, listed, sameRoot⟩ := covered project member
    obtain ⟨next, returned⟩ := (exists_prepareTarget_iff env tree config listed sameRoot run).mpr
      fun unhashable => hashable ⟨project, member, snapshotProject, listed, sameRoot, unhashable⟩
    exact ⟨next, returned, prepareTarget_answers env tree config answers returned⟩

/-- The run gets to a lockfile whose version cannot be looked up. -/
def MeetsUnhashableVersion (projects : List SolidityProjectMetadata) (privateIsLink : Bool) : Prop :=
  config.enabled = true ∧ (targetsOf env projects).length ≤ config.maxProjects ∧
    privateIsLink = false ∧ ∃ snapshotParent snapshot snapshotSha256,
      loadSnapshot env tree config = .ok (snapshotParent, snapshot, snapshotSha256) ∧
        snapshot.projects.map (·.projectRoot) = (targetsOf env projects).map (·.projectRoot) ∧
        ∃ project ∈ targetsOf env projects, ∃ snapshotProject ∈ snapshot.projects,
          snapshotProject.projectRoot = project.projectRoot ∧
            ReadsUnhashableVersion env tree config project snapshotProject

omit [DecidableEq Digest] in
/-- A run that is rejected or has failed as a whole answers every target. -/
theorem answersTargets_batchResult (targets : List SolidityProjectMetadata) (name : List Char)
    {status : DependencyPreparationStatus} (unprepared : status ≠ .prepared)
    (snapshotSha256 : Option Digest) (checks : List (String × Bool)) (error : String) :
    AnswersTargets env targets
      (batchResult ⟨name, Dict.empty, []⟩ targets status snapshotSha256 checks error) := by
  constructor
  · simp [batchResult, unpreparedResult, List.map_map, Function.comp_def]
  · simp [batchResult, unpreparedResult, unprepared, Dict.keys, Dict.empty]

/-- A run into an empty directory answers every target, or gets to an unhashable version. -/
theorem prepareDependencies_iff (refusals : Refusals) {projects : List SolidityProjectMetadata}
    (nonempty : targetsOf env projects ≠ []) (privateIsLink : Bool) (name : List Char) :
    (∃ run, prepareDependencies env tree config refusals projects privateIsLink
        ⟨name, Dict.empty, []⟩ = .ok run ∧ AnswersTargets env (targetsOf env projects) run) ↔
      ¬ MeetsUnhashableVersion env tree config projects privateIsLink := by
  unfold prepareDependencies MeetsUnhashableVersion
  dsimp only
  by_cases disabled : config.enabled = false
  · rw [if_pos disabled]
    refine iff_of_true ⟨_, rfl, answersTargets_batchResult env _ _ (by decide) _ _ _⟩ ?_
    rintro ⟨enabled, -⟩
    rw [disabled] at enabled
    cases enabled
  rw [if_neg disabled, if_neg nonempty]
  by_cases many : config.maxProjects < (targetsOf env projects).length
  · rw [if_pos many]
    exact iff_of_true ⟨_, rfl, answersTargets_batchResult env _ _ (by decide) _ _ _⟩
      fun meets => absurd meets.2.1 (not_le_of_gt many)
  rw [if_neg many]
  have contained := contained_loadSnapshot env tree config
  cases loaded : loadSnapshot env tree config with
  | error failure =>
      have noSnapshot : ¬ ∃ snapshotParent snapshot snapshotSha256, (.error failure : Except Failure
          (FilePath × DependencySnapshot Digest × Digest)) =
            .ok (snapshotParent, snapshot, snapshotSha256) := by
        rintro ⟨_, _, _, impossible⟩
        cases impossible
      refine iff_of_true ?_ ?_
      · cases failure with
        | rejected message checks scanStatus =>
            exact ⟨_, rfl, answersTargets_batchResult env _ _ (by decide) _ _ _⟩
        | failed exception => exact ⟨_, rfl, answersTargets_batchResult env _ _ (by decide) _ _ _⟩
        | escaping exception => exact absurd loaded (contained exception)
      · rintro ⟨-, -, -, parent, snapshot, hash, same, -⟩
        exact noSnapshot ⟨parent, snapshot, hash, same⟩
  | ok found =>
      obtain ⟨snapshotParent, snapshot, snapshotSha256⟩ := found
      dsimp only
      by_cases mismatch : snapshot.projects.map (·.projectRoot) ≠
          (targetsOf env projects).map (·.projectRoot)
      · rw [if_pos mismatch]
        refine iff_of_true ⟨_, rfl, answersTargets_batchResult env _ _ (by decide) _ _ _⟩ ?_
        rintro ⟨-, -, -, parent, other, hash, same, sameRoots, -⟩
        cases same
        exact mismatch sameRoots
      rw [if_neg mismatch]
      have sameRoots := not_not.mp mismatch
      by_cases link : privateIsLink = true
      · rw [if_pos link]
        refine iff_of_true ⟨_, rfl, answersTargets_batchResult env _ _ (by decide) _ _ _⟩ ?_
        rintro ⟨-, -, notLink, -⟩
        rw [link] at notLink
        cases notLink
      rw [if_neg link, prepareTargets_iff env tree config ?_ name]
      · refine not_congr ⟨fun unhashable => ?_, ?_⟩
        · exact ⟨by simpa using disabled, not_lt.mp many, by simpa using link, snapshotParent,
            snapshot, snapshotSha256, rfl, sameRoots, unhashable⟩
        · rintro ⟨-, -, -, parent, other, hash, same, -, unhashable⟩
          cases same
          exact unhashable
      · intro project member
        have listed := List.mem_map_of_mem (f := SolidityProjectMetadata.projectRoot) member
        rw [← sameRoots] at listed
        exact List.mem_map.mp listed

end Run

/-! ## The whole preparation -/

/-- Prepared dependencies are what was locked and checked, up to three conditions on the input:
the lock paths of a prepared project are distinct, the advisories on a rejected one do not
overlap, and no lockfile on the way has an unhashable version. -/
theorem dependencies_exact_iff (refusals : Refusals) :
    (∀ (project : SolidityProjectMetadata) (snapshot : DependencySnapshot Digest)
        (snapshotProject : SnapshotProject Digest) (snapshotParent : FilePath)
        (snapshotSha256 : Digest) (before after : PrivateRoot) (preparation : Preparation Digest),
      prepareProject env tree config refusals project snapshotProject snapshot.advisories
        snapshotParent snapshotSha256 before = (after, .ok preparation) →
      preparation.result.status = .prepared →
        (PreparedExactly env tree config project snapshot snapshotProject snapshotParent after
            preparation.result ↔
          LockPathsDistinct env tree config project snapshotProject)) ∧
    (∀ (project : SolidityProjectMetadata) (snapshot : DependencySnapshot Digest)
        (snapshotProject : SnapshotProject Digest) (snapshotParent : FilePath)
        (snapshotSha256 : Digest) (before after : PrivateRoot) (preparation : Preparation Digest),
      prepareProject env tree config refusals project snapshotProject snapshot.advisories
        snapshotParent snapshotSha256 before = (after, .ok preparation) →
      preparation.result.status = .rejected →
        (FindingsComplete snapshot.advisories preparation.result.packages
            preparation.result.scanFindings ↔
          AdvisoriesDisjoint snapshot.advisories snapshotProject.packages)) ∧
    ∀ projects privateIsLink name, targetsOf env projects ≠ [] →
      ((∃ run, prepareDependencies env tree config refusals projects privateIsLink
          ⟨name, Dict.empty, []⟩ = .ok run ∧ AnswersTargets env (targetsOf env projects) run) ↔
        ¬ MeetsUnhashableVersion env tree config projects privateIsLink) := by
  refine ⟨?_, ?_, ?_⟩
  · intro project snapshot snapshotProject snapshotParent snapshotSha256 before after preparation
      returned prepared
    exact preparedExactly_iff env tree config returned prepared
  · intro project snapshot snapshotProject snapshotParent snapshotSha256 before after preparation
      returned rejected
    exact findingsComplete_of_rejected_iff env tree config returned rejected
  · intro projects privateIsLink name nonempty
    exact prepareDependencies_iff env tree config refusals nonempty privateIsLink name

end Exactness

/-! ## A project with one package -/

def sampleIntegrity : List Char :=
  "sha512-".toList ++ List.replicate 86 'A' ++ "==".toList

/-- The text of the lockfile, with or without an entry for another spelling of the path of the
package, which has neither a version nor an integrity value. -/
def sampleLockText (respelled : Bool) : List Char :=
  "\x7b\"lockfileVersion\":3,\"packages\":\x7b".toList ++
    (if respelled then "\"node_modules//a\":\x7b\x7d,".toList else []) ++
    "\"node_modules/a\":\x7b\"version\":\"1.0.0\",\"integrity\":\"".toList ++ sampleIntegrity ++
      "\"\x7d\x7d\x7d".toList

def sampleEntry : Json :=
  .object [("version".toList, .string "1.0.0".toList), ("integrity".toList, .string sampleIntegrity)]

def sampleEntries (respelled : Bool) : Json.Fields :=
  (if respelled then [("node_modules//a".toList, .object [])] else []) ++
    [("node_modules/a".toList, sampleEntry)]

def sampleLockfile (respelled : Bool) : Json :=
  .object [("lockfileVersion".toList, .int 3),
    ("packages".toList, .object (sampleEntries respelled))]

def sampleManifestText : List Char :=
  "\x7b\"name\":\"a\",\"version\":\"1.0.0\"\x7d".toList

/-- The reader of JSON on the four texts of the sample. -/
def sampleLoads (data : List UInt8) : Except DecodeError Json :=
  if data = TextLines.encode (sampleLockText false) then .ok (sampleLockfile false)
  else if data = TextLines.encode (sampleLockText true) then .ok (sampleLockfile true)
  else if data = TextLines.encode sampleManifestText then
    .ok (.object [("name".toList, .string "a".toList), ("version".toList, .string "1.0.0".toList)])
  else if data = TextLines.encode "\x7b\x7d".toList then .ok (.object [])
  else .error .json

/-- Digests are the hashed bytes themselves. -/
def plainEnvironment : Environment (List UInt8) where
  sha256 := id
  bytes := id
  short := fun digest => (digest.take 12).map fun byte => Char.ofNat byte.toNat
  loads := sampleLoads
  decodeSnapshot := fun _ => none
  lower := id
  casefold := id

def plainFile (text : List Char) : Node :=
  .file ⟨1, 0, TextLines.encode text⟩

def sampleTree (respelled : Bool) : FileTree where
  nodes :=
    { items := [(["package.json".toList], plainFile "\x7b\x7d".toList),
        (["package-lock.json".toList], plainFile (sampleLockText respelled)),
        (["deps".toList], .directory),
        (["deps".toList, "packages".toList], .directory),
        (["deps".toList, "packages".toList, "a".toList], .directory),
        (["deps".toList, "packages".toList, "a".toList, "package.json".toList],
          plainFile sampleManifestText)]
      nodup := by cases respelled <;> decide +kernel }
  named := by cases respelled <;> decide +kernel
  inDirectories := by cases respelled <;> decide +kernel

def sampleConfig : DependencyPreparationConfig (List UInt8) where
  enabled := true
  offlineSnapshotPath := some "deps/snapshot.json".toList
  offlineSnapshotSha256 := none
  maxSnapshotBytes := 5000000
  maxProjects := 50
  maxPackages := 2000
  maxFiles := 100000
  maxFileBytes := 10000000
  maxTotalBytes := 1000000000

def sampleProject : SolidityProjectMetadata :=
  ⟨true, ['.'], []⟩

def samplePackage : SnapshotPackage (List UInt8) where
  lockPath := "node_modules/a".toList
  name := "a".toList
  version := "1.0.0".toList
  source := "packages/a".toList
  treeSha256 := inventoryHash plainEnvironment
    [⟨packageJson, [], TextLines.encode sampleManifestText, 0⟩]
  named := by decide +kernel
  exactVersion := by decide +kernel

def sampleSnapshotProject (respelled : Bool) : SnapshotProject (List UInt8) where
  projectRoot := ['.']
  lockfileSha256 := TextLines.encode (sampleLockText respelled)
  packages := [samplePackage]
  nonempty := List.cons_ne_nil _ _
  few := by decide
  lockPathsSorted := (List.pairwise_singleton _ _).sortedLT
  sourcesUnique := List.nodup_singleton _

def sampleSnapshot (respelled : Bool) : DependencySnapshot (List UInt8) where
  projects := [sampleSnapshotProject respelled]
  advisories := []
  someProjects := ⟨le_rfl, by simp⟩
  fewAdvisories := by decide
  rootsSorted := (List.pairwise_singleton _ _).sortedLT
  advisoryIdsSorted := List.Pairwise.nil.sortedLT

def noRefusals : Refusals :=
  ⟨fun _ _ => false, fun _ => false, fun _ => false⟩

/-- The preparation of the sample project into an empty directory. -/
def samplePreparation (respelled : Bool) :
    PrivateRoot × Except Failure (Preparation (List UInt8)) :=
  prepareProject plainEnvironment (sampleTree respelled) sampleConfig noRefusals sampleProject
    (sampleSnapshotProject respelled) (sampleSnapshot respelled).advisories ["deps".toList] []
    ⟨"dependencies".toList, Dict.empty, []⟩

theorem exists_samplePreparation (respelled : Bool) :
    ∃ after preparation, samplePreparation respelled = (after, .ok preparation) ∧
      preparation.result.status = .prepared := by
  have prepared : (samplePreparation respelled).2.toOption.map (·.result.status) =
      some .prepared := by
    cases respelled <;> decide +kernel
  generalize samplePreparation respelled = ending at prepared ⊢
  obtain ⟨after, outcome⟩ := ending
  cases outcome with
  | error failure => cases prepared
  | ok preparation => exact ⟨after, preparation, rfl, Option.some.inj prepared⟩

theorem sampleLoads_lockText (respelled : Bool) :
    sampleLoads (TextLines.encode (sampleLockText respelled)) = .ok (sampleLockfile respelled) := by
  unfold sampleLoads
  cases respelled with
  | false => exact if_pos rfl
  | true => exact (if_neg (by decide)).trans (if_pos rfl)

set_option maxRecDepth 4000 in
theorem sample_locksEntries (respelled : Bool) :
    LocksEntries plainEnvironment (sampleTree respelled) sampleConfig sampleProject
      (sampleSnapshotProject respelled) (sampleEntries respelled) := by
  refine ⟨["package-lock.json".toList], TextLines.encode (sampleLockText respelled),
    sampleLockfile respelled, sampleEntries respelled, ?_, ?_, ?_, ?_⟩
  · cases respelled <;> decide
  · exact congrArg (Except.mapError _) (sampleLoads_lockText respelled)
  · cases respelled <;> rfl
  · cases respelled <;> rfl

/-- The prepared result keeps its promise when the lockfile has one spelling of each path. -/
theorem sample_prepares_exactly : ∃ after preparation,
    samplePreparation false = (after, .ok preparation) ∧
      PreparedExactly plainEnvironment (sampleTree false) sampleConfig sampleProject
        (sampleSnapshot false) (sampleSnapshotProject false) ["deps".toList] after
        preparation.result := by
  obtain ⟨after, preparation, returned, prepared⟩ := exists_samplePreparation false
  refine ⟨after, preparation, returned, ((dependencies_exact_iff plainEnvironment (sampleTree false)
    sampleConfig noRefusals).1 _ (sampleSnapshot false) _ _ _ _ _ _ returned prepared).mpr ?_⟩
  rintro entries ⟨path, bytes, payload, packages, read, decoded, mapped, rfl⟩
  obtain ⟨otherPath, otherBytes, otherPayload, otherPackages, otherRead, otherDecoded, otherMapped,
    same⟩ := sample_locksEntries false
  cases read.symm.trans otherRead
  cases decoded.symm.trans otherDecoded
  cases mapped.symm.trans otherMapped
  rw [← same]
  decide +kernel

/-- An entry at another spelling of the path of a package is not checked: it has no integrity value,
and the project is prepared all the same. -/
theorem respelled_entry_goes_unchecked : ∃ after preparation,
    samplePreparation true = (after, .ok preparation) ∧
      preparation.result.status = .prepared ∧
        ¬ PreparedExactly plainEnvironment (sampleTree true) sampleConfig sampleProject
          (sampleSnapshot true) (sampleSnapshotProject true) ["deps".toList] after
          preparation.result := by
  obtain ⟨after, preparation, returned, prepared⟩ := exists_samplePreparation true
  refine ⟨after, preparation, returned, prepared, fun exactly => ?_⟩
  have distinct := (preparedExactly_iff plainEnvironment (sampleTree true) sampleConfig returned
    prepared).mp exactly _ (sample_locksEntries true)
  exact absurd distinct (by decide +kernel)

end Dependencies

end MmAudit
