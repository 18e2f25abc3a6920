import MmAudit.Consensus.Candidates
import MmAudit.Isolation.Names

/-!
# The offline snapshot

The file that says which package trees stand for the packages of every project, and which
advisories are known.  Reading its JSON into records is a parameter; the validators of the
records are here, and what they have checked is kept in the types.

A lowercase hexadecimal SHA-256 is a value of the type of digests.
-/

namespace MmAudit

namespace Dependencies

open Fallible

export Consensus (Severity)

/-! ## Records before their validators -/

structure RawPackage (Digest : Type) where
  lockPath : List Char
  name : List Char
  version : List Char
  source : List Char
  treeSha256 : Digest

structure RawProject (Digest : Type) where
  projectRoot : List Char
  lockfileSha256 : Digest
  packages : List (RawPackage Digest)

structure RawAdvisory where
  advisoryId : List Char
  packageName : List Char
  versions : List (List Char)
  severity : Severity
  summary : List Char

structure RawSnapshot (Digest : Type) where
  projects : List (RawProject Digest)
  advisories : List RawAdvisory

/-! ## Validated records -/

/-- `_SnapshotPackage` -/
structure SnapshotPackage (Digest : Type) where
  lockPath : List Char
  name : List Char
  version : List Char
  source : List Char
  treeSha256 : Digest
  named : isNpmName name = true
  exactVersion : isVersion version = true

/-- `_SnapshotProject` -/
structure SnapshotProject (Digest : Type) where
  projectRoot : List Char
  lockfileSha256 : Digest
  packages : List (SnapshotPackage Digest)
  nonempty : packages ≠ []
  few : packages.length ≤ 10000
  lockPathsSorted : (packages.map SnapshotPackage.lockPath).SortedLT
  sourcesUnique : (packages.map SnapshotPackage.source).Nodup

/-- `_SnapshotAdvisory` -/
structure SnapshotAdvisory where
  advisoryId : List Char
  packageName : List Char
  versions : List (List Char)
  severity : Severity
  summary : List Char
  boundedId : 1 ≤ advisoryId.length ∧ advisoryId.length ≤ 200
  named : isNpmName packageName = true
  someVersions : 1 ≤ versions.length ∧ versions.length ≤ 1000
  versionsSorted : versions.SortedLT
  exactVersions : ∀ version ∈ versions, isVersion version = true
  boundedSummary : 1 ≤ summary.length ∧ summary.length ≤ 2000

/-- `_DependencySnapshot` -/
structure DependencySnapshot (Digest : Type) where
  projects : List (SnapshotProject Digest)
  advisories : List SnapshotAdvisory
  someProjects : 1 ≤ projects.length ∧ projects.length ≤ 200
  fewAdvisories : advisories.length ≤ 20000
  rootsSorted : (projects.map SnapshotProject.projectRoot).SortedLT
  advisoryIdsSorted : (advisories.map SnapshotAdvisory.advisoryId).SortedLT

/-! ## Validators -/

section Validators

variable {Digest : Type}

/-- The field validators of a package. -/
def RawPackage.validate (package : RawPackage Digest) :
    Except Failure (SnapshotPackage Digest) := do
  let lockPath ← safeRelative package.lockPath
  raiseIf (isBelowNodeModules lockPath = false) validationError
  let _ ← npmNameFromLockPath lockPath
  let source ← safeRelative package.source
  raiseIf ("packages/".toList.isPrefixOf source = false) validationError
  if accepted : isNpmName package.name = true ∧ isVersion package.version = true then
    return {
      lockPath
      name := package.name
      version := package.version
      source := source.rdropWhile (· = '/')
      treeSha256 := package.treeSha256
      named := accepted.1
      exactVersion := accepted.2 }
  else
    throw validationError

/-- The validators of a project, `packages_are_unique` last. -/
def RawProject.validate (project : RawProject Digest) :
    Except Failure (SnapshotProject Digest) := do
  let projectRoot ← (if project.projectRoot = [] ∨ project.projectRoot = ['.'] then .ok ['.']
    else (safeRelative project.projectRoot).map (·.rdropWhile (· = '/')))
  let packages ← project.packages.mapM RawPackage.validate
  if accepted : packages ≠ [] ∧ packages.length ≤ 10000 ∧
      (packages.map SnapshotPackage.lockPath).SortedLT ∧
      (packages.map SnapshotPackage.source).Nodup then
    return {
      projectRoot
      lockfileSha256 := project.lockfileSha256
      packages
      nonempty := accepted.1
      few := accepted.2.1
      lockPathsSorted := accepted.2.2.1
      sourcesUnique := accepted.2.2.2 }
  else
    throw validationError

def RawAdvisory.validate (advisory : RawAdvisory) : Except Failure SnapshotAdvisory :=
  if accepted : (1 ≤ advisory.advisoryId.length ∧ advisory.advisoryId.length ≤ 200) ∧
      isNpmName advisory.packageName = true ∧
      (1 ≤ advisory.versions.length ∧ advisory.versions.length ≤ 1000) ∧
      advisory.versions.SortedLT ∧
      (∀ version ∈ advisory.versions, isVersion version = true) ∧
      1 ≤ advisory.summary.length ∧ advisory.summary.length ≤ 2000 then
    .ok {
      advisoryId := advisory.advisoryId
      packageName := advisory.packageName
      versions := advisory.versions
      severity := advisory.severity
      summary := advisory.summary
      boundedId := accepted.1
      named := accepted.2.1
      someVersions := accepted.2.2.1
      versionsSorted := accepted.2.2.2.1
      exactVersions := accepted.2.2.2.2.1
      boundedSummary := accepted.2.2.2.2.2 }
  else
    .error validationError

/-- The validators of a snapshot, `projects_and_advisories_are_unique` last. -/
def RawSnapshot.validate (snapshot : RawSnapshot Digest) :
    Except Failure (DependencySnapshot Digest) := do
  let projects ← snapshot.projects.mapM RawProject.validate
  let advisories ← snapshot.advisories.mapM RawAdvisory.validate
  if accepted : (1 ≤ projects.length ∧ projects.length ≤ 200) ∧ advisories.length ≤ 20000 ∧
      (projects.map SnapshotProject.projectRoot).SortedLT ∧
      (advisories.map SnapshotAdvisory.advisoryId).SortedLT then
    return {
      projects
      advisories
      someProjects := accepted.1
      fewAdvisories := accepted.2.1
      rootsSorted := accepted.2.2.1
      advisoryIdsSorted := accepted.2.2.2 }
  else
    throw validationError

end Validators

end Dependencies

end MmAudit
