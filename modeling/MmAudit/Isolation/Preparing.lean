import MmAudit.Isolation.Evidence
import MmAudit.Library.Assignments
import MmAudit.Library.Directory

/-!
# Preparing one project

`_prepare_project` reads the lockfile, checks every package of the snapshot against it and
against its tree, scans the advisories, and copies the trees to a private directory.

The lockfile maps raw paths to entries.  They are normalized before they become keys, so two
raw paths may name the same package; the entry of the later one is kept.  Advisories are folded
into a map by package and version in the same way.

Where the copy is refused a folder, a file, the final rename or the removal of what it staged
is a parameter.
-/

namespace MmAudit

namespace Dependencies

open Fallible

section Preparing

variable {Digest : Type} [DecidableEq Digest] (env : Environment Digest) (tree : FileTree)
  (config : DependencyPreparationConfig Digest)

/-! ## The lockfile -/

/-- A lockfile version is looked up in a set of numbers, which is possible for hashable values
only.  A float equals the integer that its text shows. -/
def isSupportedVersion (version : Option Json) : Except Failure Bool :=
  match version with
  | some (.array _) | some (.object _) => .error (.escaping "TypeError")
  | some (.int value) => .ok (value = 2 || value = 3)
  | some (.float text) => .ok (text = "2.0".toList || text = "3.0".toList)
  | _ => .ok false

/-- The packages map of a lockfile of a supported version. -/
def packagesMap (payload : Json) : Except Failure Json.Fields :=
  match payload.object? with
  | none => .error (rejection "only npm package-lock schema versions 2 and 3 are supported")
  | some fields => do
      let supported ← isSupportedVersion (Json.field? fields "lockfileVersion")
      raiseIf (supported = false)
        (rejection "only npm package-lock schema versions 2 and 3 are supported")
      match (Json.field? fields "packages").bind Json.object? with
      | none => .error (rejection "package-lock.json lacks a packages map")
      | some packages => .ok packages

/-- One turn of the loop over the packages map. -/
def addLockEntry (result : Dict (List Char) Json.Fields) (item : List Char × Json) :
    Except Failure (Dict (List Char) Json.Fields) :=
  if item.1 = [] then
    .ok result
  else
    match item.2.object? with
    | none => .error (rejection "package-lock.json contains an invalid package entry")
    | some entry => do
        let lockPath ← safeRelative item.1
        raiseIf (isBelowNodeModules lockPath = false ∨
            (match Json.field? entry "link" with
            | some (.bool true) => true
            | _ => false) = true)
          (rejection "package-lock.json contains an unsupported linked or non-package entry")
        let _ ← npmNameFromLockPath lockPath
        let result := result.insert lockPath entry
        raiseIf (config.maxPackages < result.items.length)
          (rejection "package-lock.json exceeds the configured package limit")
        return result

/-- `_load_lock_packages` -/
def loadLockPackages (raw : List UInt8) : Except Failure (Dict (List Char) Json.Fields) := do
  let packages ← packagesMap (← env.loadJson raw)
  let result ← packages.foldlM (addLockEntry config) Dict.empty
  raiseIf (result.items = []) (rejection "package-lock.json contains no prepared dependencies")
  return result

/-! ## Lifecycle scripts -/

/-- The checks of a preparation, as far as they have got. -/
structure Checks where
  lockfileSha256 : Bool
  lockfileIntegrity : Bool
  packageTreeSha256 : Bool
  lifecycleScriptsDisabled : Bool
  offlineAdvisoryScan : Bool
  boundedCopy : Bool
deriving DecidableEq, Repr

def Checks.items (checks : Checks) : List (String × Bool) :=
  [("snapshot_sha256", true), ("project_set", true), ("lockfile_sha256", checks.lockfileSha256),
    ("lockfile_integrity", checks.lockfileIntegrity),
    ("package_tree_sha256", checks.packageTreeSha256),
    ("lifecycle_scripts_disabled", checks.lifecycleScriptsDisabled),
    ("offline_advisory_scan", checks.offlineAdvisoryScan), ("bounded_copy", checks.boundedCopy)]

def Checks.none : Checks :=
  ⟨false, false, false, false, false, false⟩

def Checks.lockfileRead : Checks :=
  { Checks.none with lockfileSha256 := true }

def Checks.packagesChecked : Checks :=
  { Checks.lockfileRead with
    lockfileIntegrity := true, packageTreeSha256 := true, lifecycleScriptsDisabled := true }

def Checks.complete : Checks :=
  { Checks.packagesChecked with offlineAdvisoryScan := true, boundedCopy := true }

def lifecycleScripts : List (List Char) :=
  ["install", "postinstall", "postpack", "preinstall", "prepack", "prepare", "prepublish",
    "prepublishonly"].map String.toList

/-- `_reject_lifecycle_scripts` -/
def rejectLifecycleScripts (manifest : Json.Fields) (checks : Checks) : Except Failure Unit :=
  match Json.field? manifest "scripts" with
  | none => .ok ()
  | some (.object scripts) =>
      raiseIf ((scripts.any fun script => lifecycleScripts.contains (env.casefold script.1)) = true)
        (.rejected "dependency lifecycle scripts are prohibited during preparation"
          { checks with lifecycleScriptsDisabled := false }.items .failed)
  | some _ => .error (.rejected "package scripts must be an object" checks.items .failed)

/-! ## One package -/

/-- `_ValidatedPackage` -/
structure ValidatedPackage (Digest : Type) where
  evidence : DependencyPackageEvidence Digest
  files : List (InventoryFile Digest)

/-- What the loop over the packages accumulates. -/
structure Validation (Digest : Type) where
  validated : List (ValidatedPackage Digest)
  totalFiles : ℕ
  totalBytes : ℕ

def identityMismatch : Failure :=
  .rejected "offline package identity does not match package-lock.json" Checks.lockfileRead.items
    .notRun

/-- The entry of a package has an integrity value, the version and the name of the package. -/
def checkLockEntry (lockPath : List Char) (package : SnapshotPackage Digest)
    (entry : Json.Fields) : Except Failure (List Char) := do
  let integrity ← lockIntegrity entry
  raiseIf ((Json.field? entry "version").bind Json.string? ≠ some package.version) identityMismatch
  let name ← npmNameFromLockPath lockPath
  raiseIf (name ≠ package.name) identityMismatch
  return integrity

/-- The name and the version that a manifest states. -/
def manifestIdentity (manifest : Json.Fields) : Option (List Char) × Option (List Char) :=
  ((Json.field? manifest "name").bind Json.string?,
    (Json.field? manifest "version").bind Json.string?)

def totalSize (files : List (InventoryFile Digest)) : ℕ :=
  (files.map (·.size)).sum

/-- One turn of the loop over the packages. -/
def validatePackage (snapshotParent : FilePath) (lockPackages : Dict (List Char) Json.Fields)
    (state : Validation Digest) (item : List Char × SnapshotPackage Digest) :
    Except Failure (Validation Digest) := do
  let package := item.2
  let entry ← (match lockPackages.get? item.1 with
    | some entry => .ok entry
    | none => .error (.escaping "KeyError"))
  let integrity ← checkLockEntry item.1 package entry
  let source ← tree.resolveContainedDirectory snapshotParent package.source
  let files ← inventoryDependencyTree env tree config source
  let totalFiles := state.totalFiles + files.length
  let totalBytes := state.totalBytes + totalSize files
  raiseIf (config.maxFiles < totalFiles ∨ config.maxTotalBytes < totalBytes)
    (.rejected "dependency snapshot exceeds aggregate copy limits" Checks.lockfileRead.items .notRun)
  let manifest ← readInventoryPackageJson env tree files
  raiseIf (manifestIdentity manifest ≠ (some package.name, some package.version))
    (.rejected "offline package manifest identity does not match its snapshot entry"
      Checks.lockfileRead.items .notRun)
  rejectLifecycleScripts env manifest Checks.lockfileRead
  let actualTreeHash := inventoryHash env files
  raiseIf (actualTreeHash ≠ package.treeSha256)
    (.rejected "offline package tree SHA-256 does not match its snapshot entry"
      Checks.lockfileRead.items .notRun)
  let evidence ← DependencyPackageEvidence.validate {
    name := package.name
    version := package.version
    lockPath := package.lockPath
    integrity
    treeSha256 := actualTreeHash
    purl := npmPurl package.name package.version
    fileCount := files.length
    totalBytes := totalSize files }
  return ⟨state.validated ++ [⟨evidence, files⟩], totalFiles, totalBytes⟩

/-! ## Advisories and the bill of materials -/

/-- The versions that the advisories name, each with its advisory. -/
def advised (advisories : List SnapshotAdvisory) :
    List ((List Char × List Char) × SnapshotAdvisory) :=
  advisories.flatMap fun advisory =>
    advisory.versions.map fun version => ((advisory.packageName, version), advisory)

/-- The last advisory on each version of each package. -/
def affectedVersions (advisories : List SnapshotAdvisory) :
    Dict (List Char × List Char) SnapshotAdvisory :=
  Dict.empty.assign (advised advisories)

/-- The finding on one package, if there is one. -/
def findingOf (affected : Dict (List Char × List Char) SnapshotAdvisory)
    (package : ValidatedPackage Digest) : Option DependencyAdvisoryFinding :=
  (affected.get? (package.evidence.name, package.evidence.version)).map fun advisory =>
    { advisoryId := advisory.advisoryId
      packageName := package.evidence.name
      version := package.evidence.version
      severity := advisory.severity
      summary := advisory.summary }

/-- `_scan_advisories` -/
def scanAdvisories (packages : List (ValidatedPackage Digest))
    (advisories : List SnapshotAdvisory) : Except Failure (List DependencyAdvisoryFinding) := do
  let findings ← (packages.filterMap (findingOf (affectedVersions advisories))).mapM
    DependencyAdvisoryFinding.validate
  return findings.insertionSort fun finding other => finding.advisoryId ≤ other.advisoryId

def sbomComponent (package : ValidatedPackage Digest) : DependencySbomComponent Digest where
  bomRef := package.evidence.purl ++ '#' :: quote none package.evidence.lockPath
  name := package.evidence.name
  version := package.evidence.version
  purl := package.evidence.purl
  sha256 := package.evidence.treeSha256
  integrity := package.evidence.integrity

/-- `_build_sbom` -/
def buildSbom (projectRoot : List Char) (lockfileSha256 snapshotSha256 : Digest)
    (packages : List (ValidatedPackage Digest)) : Except Failure (DependencySbom Digest) := do
  let components ← (packages.map sbomComponent).mapM DependencySbomComponent.validate
  DependencySbom.validate {
    projectRoot
    lockfileSha256
    snapshotSha256
    components := components.insertionSort fun component other => component.bomRef ≤ other.bomRef }

/-! ## The copy -/

/-- Where the system refuses to write, by the directory of the project. -/
structure Refusals where
  refuses : List Char → FilePath → Bool
  refusesRename : List Char → Bool
  refusesRemoval : List Char → Bool

abbrev PreparedTree := Directory (List Char) (List UInt8)

/-- The private directory of a run: the finished trees, and the directories that still have
something staged. -/
structure PrivateRoot where
  name : List Char
  modules : Dict (List Char) PreparedTree
  abandoned : List (List Char)

def osError : DirectoryError → Failure
  | .fileExists => .failed "FileExistsError"
  | .notADirectory => .failed "NotADirectoryError"
  | .refused => .failed "OSError"

/-- The place of a file of a package. -/
def destinationOf (lockPath relativePath : List Char) : FilePath :=
  (Glob.pathParts lockPath).drop 1 ++ Glob.pathParts relativePath

/-- One turn of the inner loop. -/
def copyFile (refuses : FilePath → Bool) (lockPath : List Char) (staging : PreparedTree)
    (item : InventoryFile Digest) : Except Failure PreparedTree := do
  let data ← tree.read item.sourcePath
  raiseIf (data.length ≠ item.size ∨ env.sha256 data ≠ item.sha256)
    (rejection "offline dependency changed after checksum validation")
  (staging.placeFile refuses (destinationOf lockPath item.relativePath, data)).mapError osError

/-- One turn of the outer loop. -/
def copyPackage (refuses : FilePath → Bool) (staging : PreparedTree)
    (package : ValidatedPackage Digest) : Except Failure PreparedTree := do
  let lockPath := package.evidence.lockPath
  let staging ← (staging.makeFolders refuses ((Glob.pathParts lockPath).drop 1)).mapError osError
  package.files.foldlM (copyFile env tree refuses lockPath) staging

def projectDirectory (projectRoot : List Char) : List Char :=
  env.short (env.sha256 (TextLines.encode projectRoot))

theorem lawfulBEq_digest : LawfulBEq (List Char) :=
  inferInstance

attribute [local instance] lawfulBEq_digest

/-- `_copy_validated_packages` -/
def copyValidatedPackages (refusals : Refusals) (packages : List (ValidatedPackage Digest))
    (projectRoot : List Char) (privateRoot : PrivateRoot) :
    PrivateRoot × Except Failure (List Char) :=
  let digest := projectDirectory env projectRoot
  let cleanUp (failure : Failure) : PrivateRoot × Except Failure (List Char) :=
    if refusals.refusesRemoval digest = true then
      ({ privateRoot with abandoned := privateRoot.abandoned ++ [digest] },
        .error (osError .refused))
    else
      (privateRoot, .error failure)
  if digest ∈ privateRoot.abandoned ∨ digest ∈ privateRoot.modules then
    (privateRoot, .error (rejection "dependency preparation destination already exists"))
  else if refusals.refuses digest [] = true then
    (privateRoot, .error (osError .refused))
  else
    match packages.foldlM (copyPackage env tree (refusals.refuses digest)) Directory.empty with
    | .error failure => cleanUp failure
    | .ok staging =>
        if refusals.refusesRename digest = true then
          cleanUp (osError .refused)
        else
          ({ privateRoot with modules := privateRoot.modules.insert digest staging }, .ok digest)

/-! ## One project -/

/-- A project as discovery describes it. -/
structure SolidityProjectMetadata where
  isHardhat : Bool
  projectRoot : List Char
  frameworkConfigFiles : List (List Char)
deriving DecidableEq, Repr

/-- The lockfile of a project, with its path. -/
def readLockfile (project : SolidityProjectMetadata) (snapshotProject : SnapshotProject Digest) :
    Except Failure (FilePath × List UInt8) := do
  let projectRoot ← (if project.projectRoot = ['.'] then .ok []
    else tree.resolveContainedDirectory [] project.projectRoot)
  rejectLifecycleScripts env (← readPackageJson env tree projectRoot) Checks.none
  let (lockfile, info) ← tree.resolveUniqueFile projectRoot "package-lock.json".toList
  raiseIf (config.maxSnapshotBytes < info.data.length)
    (.rejected "package lockfile exceeds the configured byte limit" Checks.none.items .notRun)
  raiseIf (env.sha256 info.data ≠ snapshotProject.lockfileSha256)
    (.rejected "package lockfile SHA-256 does not match the offline snapshot" Checks.none.items
      .notRun)
  return (lockfile, info.data)

/-- The packages of the snapshot by their lock paths. -/
def snapshotPackages (snapshotProject : SnapshotProject Digest) :
    Dict (List Char) (SnapshotPackage Digest) :=
  Dict.empty.assign (snapshotProject.packages.map fun package => (package.lockPath, package))

/-- The packages of the lockfile and the snapshot, checked against each other and against their
trees. -/
def validatePackages (snapshotProject : SnapshotProject Digest) (snapshotParent : FilePath)
    (lockBytes : List UInt8) : Except Failure (List (ValidatedPackage Digest)) := do
  let lockPackages ← loadLockPackages env config lockBytes
  let packages := snapshotPackages snapshotProject
  raiseIf (¬ ((∀ path ∈ lockPackages.keys, path ∈ packages) ∧
      ∀ path ∈ packages.keys, path ∈ lockPackages))
    (.rejected "offline snapshot package set does not match package-lock.json"
      Checks.lockfileRead.items .notRun)
  raiseIf (config.maxPackages < packages.items.length)
    (.rejected "dependency package count exceeds the configured limit" Checks.lockfileRead.items
      .notRun)
  let validation ← packages.sorted.items.foldlM
    (validatePackage env tree config snapshotParent lockPackages) ⟨[], 0, 0⟩
  return validation.validated

/-- The prepared tree, relative to the directory above the private one. -/
def preparedPath (privateRoot : PrivateRoot) (directory : List Char) : List Char :=
  Glob.pathText [privateRoot.name, directory, nodeModules]

/-- What `_prepare_project` returns. -/
structure Preparation (Digest : Type) where
  result : DependencyPreparationResult Digest
  sbom : DependencySbom Digest
  preparedRoot : Option (List Char)

/-- The result of a project without advisories, once its packages are copied. -/
def preparedResult (project : SolidityProjectMetadata) (lockfile : FilePath)
    (lockfileSha256 snapshotSha256 : Digest) (validated : List (ValidatedPackage Digest))
    (preparedPath : List Char) : DependencyPreparationResult Digest where
  status := .prepared
  projectRoot := project.projectRoot
  lockfilePath := some (Glob.pathText lockfile)
  lockfileSha256 := some lockfileSha256
  snapshotSha256 := some snapshotSha256
  packages := validated.map (·.evidence)
  scanStatus := .passed
  scanFindings := []
  checks := Checks.complete.items
  copiedFiles := (validated.map (·.evidence.fileCount)).sum
  copiedBytes := (validated.map (·.evidence.totalBytes)).sum
  preparedPath := some preparedPath
  errors := []

/-- The result of a project that an advisory names. -/
def advisedResult (project : SolidityProjectMetadata) (lockfile : FilePath)
    (lockfileSha256 snapshotSha256 : Digest) (validated : List (ValidatedPackage Digest))
    (findings : List DependencyAdvisoryFinding) : DependencyPreparationResult Digest where
  status := .rejected
  projectRoot := project.projectRoot
  lockfilePath := some (Glob.pathText lockfile)
  lockfileSha256 := some lockfileSha256
  snapshotSha256 := some snapshotSha256
  packages := validated.map (·.evidence)
  scanStatus := .failed
  scanFindings := findings
  checks := Checks.packagesChecked.items
  copiedFiles := 0
  copiedBytes := 0
  preparedPath := none
  errors := ["offline dependency advisory scan rejected the prepared package set"]

/-- The part of `_prepare_project` before anything is written: the lockfile, the packages, the
findings and the bill of materials. -/
def inspectProject (project : SolidityProjectMetadata) (snapshotProject : SnapshotProject Digest)
    (advisories : List SnapshotAdvisory) (snapshotParent : FilePath) (snapshotSha256 : Digest) :
    Except Failure (FilePath × Digest × List (ValidatedPackage Digest) ×
      List DependencyAdvisoryFinding × DependencySbom Digest) := do
  let (lockfile, lockBytes) ← readLockfile env tree config project snapshotProject
  let lockfileSha256 := env.sha256 lockBytes
  let validated ← validatePackages env tree config snapshotProject snapshotParent lockBytes
  let findings ← scanAdvisories validated advisories
  let sbom ← buildSbom project.projectRoot lockfileSha256 snapshotSha256 validated
  return (lockfile, lockfileSha256, validated, findings, sbom)

/-- `_prepare_project` -/
def prepareProject (refusals : Refusals) (project : SolidityProjectMetadata)
    (snapshotProject : SnapshotProject Digest) (advisories : List SnapshotAdvisory)
    (snapshotParent : FilePath) (snapshotSha256 : Digest) (privateRoot : PrivateRoot) :
    PrivateRoot × Except Failure (Preparation Digest) :=
  match inspectProject env tree config project snapshotProject advisories snapshotParent
      snapshotSha256 with
  | .error failure => (privateRoot, .error failure)
  | .ok (lockfile, lockfileSha256, validated, findings, sbom) =>
      if findings ≠ [] then
        (privateRoot, do
          let result ← (advisedResult project lockfile lockfileSha256 snapshotSha256 validated
            findings).validate
          return ⟨result, sbom, none⟩)
      else
        match copyValidatedPackages env tree refusals validated project.projectRoot privateRoot with
        | (privateRoot, .error failure) => (privateRoot, .error failure)
        | (privateRoot, .ok preparedRoot) =>
            (privateRoot, do
              let result ← (preparedResult project lockfile lockfileSha256 snapshotSha256 validated
                (preparedPath privateRoot preparedRoot)).validate
              return ⟨result, sbom, some preparedRoot⟩)

end Preparing

end Dependencies

end MmAudit
