import MmAudit.Isolation.Projects

/-!
# What a preparation does not catch

Nearly everything that goes wrong in a preparation is raised as something that the loop over
the targets turns into a result.  The exception is a lockfile whose version is an array or an
object: it cannot be looked up in a set, and the type error ends the whole run.
-/

namespace MmAudit

namespace Dependencies

open Fallible

/-- The computation raises nothing that its callers do not expect. -/
def Contained {Value : Type} (computation : Except Failure Value) : Prop :=
  ∀ exception, computation ≠ .error (.escaping exception)

namespace Contained

variable {Value Result : Type}

theorem ok (value : Value) : Contained (.ok value : Except Failure Value) :=
  fun _ => nofun

theorem rejection (message : String) : Contained (.error (rejection message) : Except Failure Value) :=
  fun _ => nofun

theorem bind {computation : Except Failure Value} {continuation : Value → Except Failure Result}
    (first : Contained computation)
    (rest : ∀ value, computation = .ok value → Contained (continuation value)) :
    Contained (computation >>= continuation) := by
  intro exception raised
  rcases bind_eq_error_iff.mp raised with raised | ⟨value, returned, raised⟩
  · exact first exception raised
  · exact rest value returned exception raised

/-- A check that raises something expected, before what follows it. -/
theorem check {condition : Prop} [Decidable condition] {failure : Failure}
    {continuation : Unit → Except Failure Result} (expected : ∀ name, failure ≠ .escaping name)
    (rest : ¬ condition → Contained (continuation ())) :
    Contained (raiseIf condition failure >>= continuation) := by
  by_cases holds : condition
  · rw [bind_of_error (by rw [raiseIf, if_pos holds])]
    intro exception raised
    exact expected exception (Except.error.inj raised)
  · rw [raiseIf_bind_of_not holds]
    exact rest holds

theorem raiseIf {condition : Prop} [Decidable condition] {failure : Failure}
    (expected : ∀ name, failure ≠ .escaping name) : Contained (raiseIf condition failure) := by
  intro exception raised
  exact expected exception (raiseIf_eq_error_iff.mp raised).2

theorem mapError {Other : Type} {translate : Other → Failure} {computation : Except Other Value}
    (expected : ∀ other name, translate other ≠ .escaping name) :
    Contained (computation.mapError translate) := by
  cases computation with
  | error other => exact fun exception raised => expected other exception (Except.error.inj raised)
  | ok value => exact ok value

theorem foldlM {State Item : Type} {step : State → Item → Except Failure State}
    {items : List Item} (contained : ∀ state, ∀ item ∈ items, Contained (step state item))
    (start : State) : Contained (items.foldlM step start) := by
  induction items generalizing start with
  | nil => exact ok start
  | cons item items ih =>
      rw [List.foldlM_cons]
      exact (contained start item List.mem_cons_self).bind fun next _ =>
        ih (fun state other member => contained state other (List.mem_cons_of_mem _ member)) next

theorem mapM {Item : Type} {compute : Item → Except Failure Value}
    (contained : ∀ item, Contained (compute item)) (items : List Item) :
    Contained (items.mapM compute) := by
  induction items with
  | nil => exact ok []
  | cons item items ih =>
      rw [List.mapM_cons]
      exact (contained item).bind fun value _ => ih.bind fun values _ => ok (value :: values)

end Contained

/-! ## Texts and files -/

theorem contained_safeRelative (value : List Char) : Contained (safeRelative value) :=
  Contained.check nofun fun _ => Contained.check nofun fun _ => Contained.ok _

theorem contained_npmNameFromLockPath (lockPath : List Char) :
    Contained (npmNameFromLockPath lockPath) := by
  refine Contained.bind ?_ fun name _ => Contained.check nofun fun _ => Contained.ok _
  split
  · exact Contained.ok _
  · split
    · exact Contained.ok _
    · exact fun _ => nofun
  · exact fun _ => nofun

theorem contained_lockIntegrity (entry : Json.Fields) : Contained (lockIntegrity entry) := by
  unfold lockIntegrity
  split
  · exact Contained.rejection _
  · split
    · exact Contained.rejection _
    · split
      · exact Contained.rejection _
      · split
        · exact Contained.ok _
        · exact Contained.rejection _

/-! ## Validators -/

theorem contained_validate_finding (finding : DependencyAdvisoryFinding) :
    Contained finding.validate := by
  unfold DependencyAdvisoryFinding.validate
  exact Contained.check nofun fun _ => Contained.ok _

theorem contained_validate_evidence {Digest : Type} (evidence : DependencyPackageEvidence Digest) :
    Contained evidence.validate := by
  unfold DependencyPackageEvidence.validate
  exact Contained.check nofun fun _ => Contained.ok _

theorem contained_validate_component {Digest : Type} (component : DependencySbomComponent Digest) :
    Contained component.validate := by
  unfold DependencySbomComponent.validate
  exact Contained.check nofun fun _ => Contained.ok _

theorem contained_validate_sbom {Digest : Type} (sbom : DependencySbom Digest) :
    Contained sbom.validate := by
  unfold DependencySbom.validate
  exact Contained.check nofun fun _ => Contained.ok _

theorem contained_validate_result {Digest : Type} (result : DependencyPreparationResult Digest) :
    Contained result.validate := by
  unfold DependencyPreparationResult.validate
  exact Contained.check nofun fun _ => Contained.check nofun fun _ => Contained.check nofun
    fun _ => Contained.check nofun fun _ => Contained.ok _

section Environment

variable {Digest : Type} [DecidableEq Digest] (env : Environment Digest) (tree : FileTree)
  (config : DependencyPreparationConfig Digest)

theorem contained_missing (path : FilePath) {Value : Type} :
    Contained (.error (tree.missing path) : Except Failure Value) :=
  fun _ => nofun

theorem contained_resolveContainedDirectory (root : FilePath) (relative : List Char) :
    Contained (tree.resolveContainedDirectory root relative) := by
  refine (contained_safeRelative relative).bind fun _ _ => Contained.check nofun fun _ => ?_
  split
  · exact contained_missing tree _
  · exact Contained.ok _
  · exact Contained.rejection _

theorem contained_resolveUniqueFile (root : FilePath) (relative : List Char) :
    Contained (tree.resolveUniqueFile root relative) := by
  refine (contained_safeRelative relative).bind fun _ _ => Contained.check nofun fun _ => ?_
  split
  · exact contained_missing tree _
  · split
    · exact Contained.ok _
    · exact Contained.rejection _
  · exact Contained.rejection _

theorem contained_read (path : FilePath) : Contained (tree.read path) := by
  unfold FileTree.read
  split
  · exact Contained.ok _
  · exact contained_missing tree _

omit [DecidableEq Digest] in
theorem contained_loadJson (data : List UInt8) : Contained (env.loadJson data) :=
  Contained.mapError fun other name => by cases other <;> exact nofun

omit [DecidableEq Digest] in
theorem contained_inventoryStep (root : FilePath) (state : List (InventoryFile Digest) × ℕ)
    (candidate : FilePath × Node) :
    Contained (inventoryStep env config root state candidate) := by
  unfold inventoryStep
  split
  · exact Contained.rejection _
  · exact Contained.ok _
  · exact Contained.rejection _
  · refine Contained.check nofun fun _ => Contained.check nofun fun _ => Contained.check nofun
      fun _ => Contained.check nofun fun _ => Contained.bind ?_ fun _ _ => Contained.ok _
    exact Contained.check nofun fun _ => Contained.raiseIf nofun

omit [DecidableEq Digest] in
theorem contained_inventoryDependencyTree (root : FilePath) :
    Contained (inventoryDependencyTree env tree config root) := by
  refine Contained.check nofun fun _ => Contained.bind ?_ fun _ _ => Contained.check nofun
    fun _ => Contained.ok _
  exact Contained.foldlM (fun state item _ => contained_inventoryStep env config root state item) _

omit [DecidableEq Digest] in
/-- An inventory has a manifest. -/
theorem exists_packageJson {root : FilePath} {files : List (InventoryFile Digest)}
    (inventoried : inventoryDependencyTree env tree config root = .ok files) :
    ∃ item, files.find? (fun item => item.relativePath = packageJson) = some item := by
  unfold inventoryDependencyTree at inventoried
  rw [raiseIf_bind_eq_ok_iff, bind_eq_ok_iff] at inventoried
  obtain ⟨-, ⟨found, bytes⟩, -, rest⟩ := inventoried
  obtain ⟨present, rest⟩ := raiseIf_bind_eq_ok_iff.mp rest
  obtain rfl : found = files := Except.ok.inj rest
  exact Option.isSome_iff_exists.mp (List.find?_isSome.mpr (by simpa using present))

omit [DecidableEq Digest] in
theorem contained_readInventoryPackageJson {root : FilePath} {files : List (InventoryFile Digest)}
    (inventoried : inventoryDependencyTree env tree config root = .ok files) :
    Contained (readInventoryPackageJson env tree files) := by
  obtain ⟨item, found⟩ := exists_packageJson env tree config inventoried
  unfold readInventoryPackageJson
  rw [found]
  refine Contained.check nofun fun _ => (contained_read tree _).bind fun _ _ =>
    (contained_loadJson env _).bind fun _ _ => ?_
  split
  · exact Contained.rejection _
  · exact Contained.ok _

omit [DecidableEq Digest] in
theorem contained_readPackageJson (projectRoot : FilePath) :
    Contained (readPackageJson env tree projectRoot) := by
  refine (contained_resolveUniqueFile tree _ _).bind fun _ _ => Contained.check nofun fun _ =>
    (contained_loadJson env _).bind fun _ _ => ?_
  split
  · exact Contained.rejection _
  · exact Contained.ok _

omit [DecidableEq Digest] in
theorem contained_rejectLifecycleScripts (manifest : Json.Fields) (checks : Checks) :
    Contained (rejectLifecycleScripts env manifest checks) := by
  unfold rejectLifecycleScripts
  split
  · exact Contained.ok _
  · exact Contained.raiseIf nofun
  · exact fun _ => nofun

/-! ## Lockfiles -/

/-- An array or an object. -/
def IsUnhashable : Json → Bool
  | .array _ => true
  | .object _ => true
  | _ => false

/-- The lockfile is an object whose version cannot be looked up. -/
def HasUnhashableVersion (payload : Json) : Prop :=
  ∃ fields version, payload.object? = some fields ∧
    Json.field? fields "lockfileVersion" = some version ∧ IsUnhashable version = true

theorem contained_isSupportedVersion {version : Option Json}
    (hashable : ∀ value, version = some value → IsUnhashable value = false) :
    Contained (isSupportedVersion version) := by
  rcases version with _ | value
  · exact Contained.ok _
  · have isHashable := hashable value rfl
    cases value
    case array => cases isHashable
    case object => cases isHashable
    all_goals exact Contained.ok _

theorem isSupportedVersion_of_isUnhashable {value : Json} (unhashable : IsUnhashable value = true) :
    isSupportedVersion (some value) = .error (.escaping "TypeError") := by
  cases value <;> first | rfl | cases unhashable

theorem contained_packagesMap_iff (payload : Json) :
    Contained (packagesMap payload) ↔ ¬ HasUnhashableVersion payload := by
  unfold packagesMap
  cases object : payload.object? with
  | none =>
      constructor
      · rintro - ⟨fields, version, found, -⟩
        rw [object] at found
        cases found
      · exact fun _ => Contained.rejection _
  | some fields =>
      constructor
      · rintro contained ⟨other, version, found, stored, unhashable⟩
        rw [object] at found
        cases found
        refine contained "TypeError" ?_
        dsimp only
        rw [stored, bind_of_error (isSupportedVersion_of_isUnhashable unhashable)]
      · intro hashable
        refine Contained.bind (contained_isSupportedVersion fun value stored => ?_) fun _ _ =>
          Contained.check nofun fun _ => ?_
        · rw [← Bool.not_eq_true]
          exact fun unhashable => hashable ⟨fields, value, object, stored, unhashable⟩
        · split
          · exact Contained.rejection _
          · exact Contained.ok _

omit [DecidableEq Digest] in
theorem contained_addLockEntry (result : Dict (List Char) Json.Fields)
    (item : List Char × Json) : Contained (addLockEntry config result item) := by
  unfold addLockEntry
  split
  · exact Contained.ok _
  · split
    · exact Contained.rejection _
    · refine (contained_safeRelative _).bind fun _ _ =>
        Contained.check (fun _ impossible => by cases impossible) fun _ => ?_
      exact (contained_npmNameFromLockPath _).bind fun _ _ =>
        Contained.check (fun _ impossible => by cases impossible) fun _ => Contained.ok _

theorem contained_readLockfile (project : SolidityProjectMetadata)
    (snapshotProject : SnapshotProject Digest) :
    Contained (readLockfile env tree config project snapshotProject) := by
  refine Contained.bind ?_ fun _ _ => (contained_readPackageJson env tree _).bind fun _ _ =>
    (contained_rejectLifecycleScripts env _ _).bind fun _ _ =>
      (contained_resolveUniqueFile tree _ _).bind fun _ _ => Contained.check nofun fun _ =>
        Contained.check nofun fun _ => Contained.ok _
  split
  · exact Contained.ok _
  · exact contained_resolveContainedDirectory tree _ _

/-! ## Packages -/

omit [DecidableEq Digest] in
theorem contained_checkLockEntry (lockPath : List Char) (package : SnapshotPackage Digest)
    (entry : Json.Fields) : Contained (checkLockEntry lockPath package entry) :=
  (contained_lockIntegrity entry).bind fun _ _ => Contained.check nofun fun _ =>
    (contained_npmNameFromLockPath _).bind fun _ _ => Contained.check nofun fun _ => Contained.ok _

theorem contained_validatePackage {snapshotParent : FilePath}
    {lockPackages : Dict (List Char) Json.Fields} {item : List Char × SnapshotPackage Digest}
    (present : item.1 ∈ lockPackages) (state : Validation Digest) :
    Contained (validatePackage env tree config snapshotParent lockPackages state item) := by
  obtain ⟨entry, found⟩ := (Dict.mem_iff_exists_get? _ _).mp present
  unfold validatePackage
  rw [found]
  exact (Contained.ok _).bind fun _ _ => (contained_checkLockEntry _ _ _).bind fun _ _ =>
    (contained_resolveContainedDirectory tree _ _).bind fun _ _ =>
      (contained_inventoryDependencyTree env tree config _).bind fun _ inventoried =>
        Contained.check nofun fun _ =>
          (contained_readInventoryPackageJson env tree config inventoried).bind fun _ _ =>
            Contained.check nofun fun _ => (contained_rejectLifecycleScripts env _ _).bind
              fun _ _ => Contained.check nofun fun _ =>
                (contained_validate_evidence _).bind fun _ _ => Contained.ok _

/-- Once the packages map is read, the packages raise nothing unexpected. -/
theorem contained_validatePackages {snapshotProject : SnapshotProject Digest}
    {snapshotParent : FilePath} {lockBytes : List UInt8}
    (hashable : ∀ payload, env.loadJson lockBytes = .ok payload → ¬ HasUnhashableVersion payload) :
    Contained (validatePackages env tree config snapshotProject snapshotParent lockBytes) := by
  refine Contained.bind ?_ fun lockPackages _ => Contained.check nofun fun samePaths =>
    Contained.check nofun fun _ => Contained.bind ?_ fun _ _ => Contained.ok _
  · exact (contained_loadJson env _).bind fun payload decoded =>
      ((contained_packagesMap_iff payload).mpr (hashable payload decoded)).bind fun _ _ =>
        (Contained.foldlM (fun state item _ => contained_addLockEntry config state item) _).bind
          fun _ _ => Contained.check nofun fun _ => Contained.ok _
  · refine Contained.foldlM (fun state item member => ?_) _
    refine contained_validatePackage env tree config ((not_not.mp samePaths).2 item.1 ?_) state
    exact List.mem_map_of_mem ((snapshotPackages snapshotProject).perm_sorted.mem_iff.mp member)

omit [DecidableEq Digest] in
theorem contained_scanAdvisories (packages : List (ValidatedPackage Digest))
    (advisories : List SnapshotAdvisory) : Contained (scanAdvisories packages advisories) :=
  (Contained.mapM contained_validate_finding _).bind fun _ _ => Contained.ok _

omit [DecidableEq Digest] in
theorem contained_buildSbom (projectRoot : List Char) (lockfileSha256 snapshotSha256 : Digest)
    (packages : List (ValidatedPackage Digest)) :
    Contained (buildSbom projectRoot lockfileSha256 snapshotSha256 packages) :=
  (Contained.mapM contained_validate_component _).bind fun _ _ => contained_validate_sbom _

/-! ## Projects -/

/-- The preparation of the project gets to a lockfile whose version cannot be looked up. -/
def ReadsUnhashableVersion (project : SolidityProjectMetadata)
    (snapshotProject : SnapshotProject Digest) : Prop :=
  ∃ path bytes payload, readLockfile env tree config project snapshotProject = .ok (path, bytes) ∧
    env.loadJson bytes = .ok payload ∧ HasUnhashableVersion payload

theorem contained_inspectProject_iff (project : SolidityProjectMetadata)
    (snapshotProject : SnapshotProject Digest) (advisories : List SnapshotAdvisory)
    (snapshotParent : FilePath) (snapshotSha256 : Digest) :
    Contained (inspectProject env tree config project snapshotProject advisories snapshotParent
      snapshotSha256) ↔ ¬ ReadsUnhashableVersion env tree config project snapshotProject := by
  constructor
  · rintro contained ⟨path, bytes, payload, read, decoded, unhashable⟩
    obtain ⟨exception, raised⟩ : ∃ exception, packagesMap payload = .error (.escaping exception) := by
      by_contra none
      exact (contained_packagesMap_iff payload).mp (fun exception raised =>
        none ⟨exception, raised⟩) unhashable
    refine contained exception ?_
    unfold inspectProject
    rw [bind_of_ok read]
    refine bind_of_error ?_ _
    unfold validatePackages
    refine bind_of_error ?_ _
    unfold loadLockPackages
    rw [bind_of_ok decoded]
    exact bind_of_error raised _
  · intro hashable
    refine (contained_readLockfile env tree config project snapshotProject).bind
      fun lockfile read => ?_
    refine (contained_validatePackages env tree config fun payload decoded unhashable =>
      hashable ⟨lockfile.1, lockfile.2, payload, read, decoded, unhashable⟩).bind
      fun validated _ => ?_
    exact (contained_scanAdvisories validated advisories).bind fun _ _ =>
      (contained_buildSbom _ _ _ _).bind fun _ _ => Contained.ok _

theorem contained_copyFile (refuses : FilePath → Bool) (lockPath : List Char)
    (staging : PreparedTree) (item : InventoryFile Digest) :
    Contained (copyFile env tree refuses lockPath staging item) :=
  (contained_read tree _).bind fun _ _ => Contained.check nofun fun _ =>
    Contained.mapError fun other name => by cases other <;> exact nofun

theorem contained_copyPackage (refuses : FilePath → Bool) (staging : PreparedTree)
    (package : ValidatedPackage Digest) :
    Contained (copyPackage env tree refuses staging package) :=
  (Contained.mapError fun other name => by cases other <;> exact nofun).bind fun _ _ =>
    Contained.foldlM (fun state item _ => contained_copyFile env tree refuses _ state item) _

theorem contained_copyValidatedPackages (refusals : Refusals)
    (packages : List (ValidatedPackage Digest)) (projectRoot : List Char)
    (privateRoot : PrivateRoot) :
    Contained (copyValidatedPackages env tree refusals packages projectRoot privateRoot).2 := by
  unfold copyValidatedPackages
  dsimp only
  split
  · exact Contained.rejection _
  · split
    · exact fun _ => nofun
    · split
      · rename_i failure raised
        have contained : Contained (packages.foldlM (copyPackage env tree
            (refusals.refuses (projectDirectory env projectRoot))) Directory.empty) :=
          Contained.foldlM (fun state package _ => contained_copyPackage env tree _ state package) _
        split
        · exact fun _ => nofun
        · intro exception same
          exact contained exception (by rw [raised, Except.error.inj same])
      · split
        · split
          · exact fun _ => nofun
          · exact fun _ => nofun
        · exact Contained.ok _

/-- Only the lockfile version lets anything escape from the preparation of a project. -/
theorem contained_prepareProject_iff (refusals : Refusals) (project : SolidityProjectMetadata)
    (snapshotProject : SnapshotProject Digest) (advisories : List SnapshotAdvisory)
    (snapshotParent : FilePath) (snapshotSha256 : Digest) (privateRoot : PrivateRoot) :
    Contained (prepareProject env tree config refusals project snapshotProject advisories
      snapshotParent snapshotSha256 privateRoot).2 ↔
      ¬ ReadsUnhashableVersion env tree config project snapshotProject := by
  rw [← contained_inspectProject_iff env tree config project snapshotProject advisories
    snapshotParent snapshotSha256]
  unfold prepareProject
  cases inspected : inspectProject env tree config project snapshotProject advisories
    snapshotParent snapshotSha256 with
  | error failure => exact ⟨fun contained exception same => contained exception (by
      rw [Except.error.inj same]), fun contained exception same => contained exception (by
      rw [Except.error.inj same])⟩
  | ok inspection =>
      refine ⟨fun _ => Contained.ok _, fun _ => ?_⟩
      dsimp only
      split
      · exact (contained_validate_result _).bind fun _ _ => Contained.ok _
      · have copied := contained_copyValidatedPackages env tree refusals inspection.2.2.1
          project.projectRoot privateRoot
        split
        · rename_i after failure raised
          rw [raised] at copied
          exact fun exception same => copied exception (by rw [Except.error.inj same])
        · exact (contained_validate_result _).bind fun _ _ => Contained.ok _

/-! ## The snapshot -/

theorem contained_loadSnapshot : Contained (loadSnapshot env tree config) := by
  unfold loadSnapshot
  split
  · refine (contained_safeRelative _).bind fun _ _ => Contained.check nofun fun _ =>
      Contained.bind ?_ fun _ _ => Contained.check nofun fun _ => Contained.check nofun fun _ =>
        (contained_loadJson env _).bind fun _ _ => ?_
    · split
      · exact contained_missing tree _
      · split
        · exact Contained.ok _
        · exact fun _ => nofun
      · exact fun _ => nofun
    · split
      · exact Contained.ok _
      · exact fun _ => nofun
  · exact fun _ => nofun

end Environment

end Dependencies

end MmAudit
