import MmAudit.Isolation.Preparing

/-!
# Preparing all projects

`prepare_dependencies` loads the snapshot once, compares its projects with the targets, and
prepares the targets one after the other.  What a project raises becomes its result, unless it
is something the loop does not expect.
-/

namespace MmAudit

namespace Dependencies

open Fallible

section Projects

variable {Digest : Type} [DecidableEq Digest] (env : Environment Digest) (tree : FileTree)
  (config : DependencyPreparationConfig Digest)

def hardhatConfigNames : List (List Char) :=
  ["hardhat.config.cjs", "hardhat.config.js", "hardhat.config.mjs", "hardhat.config.ts"].map
    String.toList

/-- `_project_uses_hardhat` -/
def projectUsesHardhat (project : SolidityProjectMetadata) : Bool :=
  project.isHardhat || project.frameworkConfigFiles.any fun path =>
    hardhatConfigNames.contains (env.lower ((Glob.pathParts path).getLastD []))

/-- The projects to prepare, in the order of their roots. -/
def targetsOf (projects : List SolidityProjectMetadata) : List SolidityProjectMetadata :=
  (projects.filter (projectUsesHardhat env)).insertionSort fun project other =>
    project.projectRoot ≤ other.projectRoot

def snapshotRejection (message : String) : Failure :=
  .rejected message [("snapshot_sha256", false)] .notRun

def irregularSnapshot : String :=
  "offline dependency snapshot must be a unique regular file"

/-- `_load_snapshot`: the directory of the snapshot, the snapshot and its hash. -/
def loadSnapshot : Except Failure (FilePath × DependencySnapshot Digest × Digest) :=
  match config.offlineSnapshotPath, config.offlineSnapshotSha256 with
  | some configured, some expectedSha256 => do
      let parts := Glob.pathParts (← safeRelative configured)
      raiseIf (tree.traversesLink [] parts = true)
        (snapshotRejection "offline dependency snapshot path may not traverse links")
      let info ← (match tree.node? parts with
        | none => .error (tree.missing parts)
        | some (.file info) =>
            if info.links = 1 then .ok info
            else .error (snapshotRejection irregularSnapshot)
        | some _ => .error (snapshotRejection irregularSnapshot))
      raiseIf (config.maxSnapshotBytes < info.data.length)
        (snapshotRejection "offline dependency snapshot exceeds the configured byte limit")
      raiseIf (env.sha256 info.data ≠ expectedSha256)
        (snapshotRejection "offline dependency snapshot SHA-256 does not match configuration")
      let payload ← env.loadJson info.data
      match (env.decodeSnapshot payload).map RawSnapshot.validate with
      | some (.ok snapshot) => .ok (parts.dropLast, snapshot, env.sha256 info.data)
      | _ => .error validationError
  | _, _ => .error
      (snapshotRejection "dependency preparation requires a checksum-pinned offline snapshot")

/-- What a run returns, and what its private directory holds then. -/
structure DependencyPreparationRun (Digest : Type) where
  results : List (DependencyPreparationResult Digest)
  sboms : List (DependencySbom Digest)
  preparedRoots : Dict (List Char) (List Char)
  privateRoot : PrivateRoot

/-- A run that prepares nothing and returns one result for every target. -/
def batchResult (privateRoot : PrivateRoot) (targets : List SolidityProjectMetadata)
    (status : DependencyPreparationStatus) (snapshotSha256 : Option Digest)
    (checks : List (String × Bool)) (error : String) : DependencyPreparationRun Digest where
  results := targets.map fun project =>
    unpreparedResult status project.projectRoot snapshotSha256 .notRun checks error
  sboms := []
  preparedRoots := Dict.empty
  privateRoot := privateRoot

/-- The result that stands for what a project raised. -/
def resultOfFailure (project : SolidityProjectMetadata) (snapshotSha256 : Digest) :
    Failure → Except Failure (DependencyPreparationResult Digest)
  | .rejected message checks scanStatus =>
      .ok (unpreparedResult .rejected project.projectRoot (some snapshotSha256) scanStatus checks
        message)
  | .failed exception =>
      .ok (unpreparedResult .failed project.projectRoot (some snapshotSha256) .notRun []
        ("dependency preparation failed safely: " ++ exception))
  | .escaping exception => .error (.escaping exception)

/-- One turn of the loop over the targets. -/
def prepareTarget (refusals : Refusals) (snapshotParent : FilePath)
    (snapshot : DependencySnapshot Digest) (snapshotSha256 : Digest)
    (run : DependencyPreparationRun Digest) (project : SolidityProjectMetadata) :
    Except Failure (DependencyPreparationRun Digest) :=
  match snapshot.projects.find? fun candidate => candidate.projectRoot = project.projectRoot with
  | none => .error (.escaping "KeyError")
  | some snapshotProject =>
      match prepareProject env tree config refusals project snapshotProject snapshot.advisories
          snapshotParent snapshotSha256 run.privateRoot with
      | (privateRoot, .error failure) => do
          let result ← resultOfFailure project snapshotSha256 failure
          return { run with results := run.results ++ [result], privateRoot }
      | (privateRoot, .ok preparation) =>
          .ok
            { results := run.results ++ [preparation.result]
              sboms := run.sboms ++ [preparation.sbom]
              preparedRoots := match preparation.preparedRoot with
                | none => run.preparedRoots
                | some root => run.preparedRoots.insert project.projectRoot root
              privateRoot }

/-- The run over the targets, once the snapshot is known to be about them. -/
def prepareTargets (refusals : Refusals) (targets : List SolidityProjectMetadata)
    (snapshotParent : FilePath) (snapshot : DependencySnapshot Digest) (snapshotSha256 : Digest)
    (privateRoot : PrivateRoot) : Except Failure (DependencyPreparationRun Digest) :=
  targets.foldlM (prepareTarget env tree config refusals snapshotParent snapshot snapshotSha256)
    ⟨[], [], Dict.empty, privateRoot⟩

/-- `prepare_dependencies` -/
def prepareDependencies (refusals : Refusals) (projects : List SolidityProjectMetadata)
    (privateIsLink : Bool) (privateRoot : PrivateRoot) :
    Except Failure (DependencyPreparationRun Digest) :=
  let targets := targetsOf env projects
  if config.enabled = false then
    .ok (batchResult privateRoot targets .disabled none []
      "dependency preparation disabled by configuration")
  else if targets = [] then
    .ok
      { results := [unpreparedResult .notApplicable ['.'] none .notRun []
          "no Hardhat project requires npm dependency preparation"]
        sboms := []
        preparedRoots := Dict.empty
        privateRoot }
  else if config.maxProjects < targets.length then
    .ok (batchResult privateRoot targets .rejected none []
      "dependency project count exceeds the configured limit")
  else
    match loadSnapshot env tree config with
    | .error (.rejected message checks _) =>
        .ok (batchResult privateRoot targets .rejected none checks message)
    | .error (.failed exception) =>
        .ok (batchResult privateRoot targets .failed none []
          ("offline dependency snapshot could not be loaded: " ++ exception))
    | .error (.escaping exception) => .error (.escaping exception)
    | .ok (snapshotParent, snapshot, snapshotSha256) =>
        if snapshot.projects.map (·.projectRoot) ≠ targets.map (·.projectRoot) then
          .ok (batchResult privateRoot targets .rejected (some snapshotSha256)
            [("snapshot_sha256", true), ("project_set", false)]
            ("offline dependency snapshot project set does not match detected Hardhat " ++
              "projects"))
        else if privateIsLink = true then
          .ok (batchResult privateRoot targets .failed none []
            "dependency preparation directory may not be a link")
        else
          prepareTargets env tree config refusals targets snapshotParent snapshot snapshotSha256
            privateRoot

end Projects

end Dependencies

end MmAudit
