import MmAudit.Library.Collecting
import MmAudit.Repository.Discovery
import MmAudit.Repository.Locations

/-!
# The walk of discovery, with links and limits

`discover_repository` walks a tree with `os.walk`, from each directory to the directories
in it that it enters.  What it comes across, and in which order, does not depend on what
the files hold; so the walk is written as the list of what it visits, and discovery as one
pass over that list, which ends at the limit on files.

Trees are given by what the system answers about a path: the names in a directory, where a
link leads, and what can be read.
-/

namespace MmAudit

namespace Discovery

open Ignore TextLines Context Collecting

/-! ## Trees and rules -/

/-- Where a path leads, links followed. -/
inductive Target where
  | broken
  | outside
  | inside (path : Path)
deriving DecidableEq, Repr

structure FileStat where
  links : ℕ
  size : ℕ
deriving DecidableEq, Repr

/-- What the system answers about the paths below the root. -/
structure FileTree where
  directoryNames : Path → List Name
  fileNames : Path → List Name
  isLink : Path → Bool
  resolve : Path → Target
  stat : Path → Option FileStat
  read : Path → Option (List UInt8)
  directoryNodup : ∀ directory, (directoryNames directory).Nodup
  fileNodup : ∀ directory, (fileNames directory).Nodup

/-- The tree with other bytes in one file. -/
def FileTree.withContent (tree : FileTree) (path : Path) (data : List UInt8) : FileTree where
  directoryNames := tree.directoryNames
  fileNames := tree.fileNames
  isLink := tree.isLink
  resolve := tree.resolve
  stat other :=
    if other = path then (tree.stat other).map fun stat => ⟨stat.links, data.length⟩
    else tree.stat other
  read other := if other = path then (tree.read other).map fun _ => data else tree.read other
  directoryNodup := tree.directoryNodup
  fileNodup := tree.fileNodup

/-- What discovery asks the matcher. -/
structure Rules where
  /-- `normalize_relative_path` -/
  normalizes : Path → Except ValueError Unit
  ignored : Path → Bool → Except ValueError Bool
  mayIncludeDescendant : Path → Except ValueError Bool

/-- The directory is left out together with everything below it. -/
def Rules.prunes (rules : Rules) (directory : Path) : Except ValueError Bool := do
  if ← rules.ignored directory true then
    return !(← rules.mayIncludeDescendant directory)
  else
    return false

/-- The error of `normalize_relative_path` for a path that is not supported. -/
def normalizeError (control : Char → Bool) (path : Path) : ValueError :=
  if 4096 < utf8Length path.text ∨ path.text.any control = true then
    ⟨"repository paths containing control characters are not supported"⟩
  else if drivePath path.text = true then
    ⟨"absolute drive path rejected: " ++ String.ofList path.text⟩
  else
    ⟨"repository path component exceeds the supported byte length"⟩

def matcherRules (lower : List Char → List Char) (control : Char → Bool)
    (matcher : IgnoreMatcher) : Rules where
  normalizes path :=
    if supported control path then .ok () else .error (normalizeError control path)
  ignored path isDir := matcher.ignored lower path isDir
  mayIncludeDescendant path := matcher.mayIncludeDescendant lower path

/-- The limits of `RepositoryConfig`, all of them at least one, with the options. -/
structure DiscoveryConfig extends Ignore.RepositoryConfig where
  maxFiles : ℕ
  maxWalkEntries : ℕ
  maxFileBytes : ℕ
  maxDiscoveryBytes : ℕ
  followSymlinks : Bool
  someFiles : 1 ≤ maxFiles
deriving Repr

instance : DecidableEq DiscoveryConfig := fun first second =>
  decidable_of_iff (first.toRepositoryConfig = second.toRepositoryConfig ∧
    first.maxFiles = second.maxFiles ∧ first.maxWalkEntries = second.maxWalkEntries ∧
    first.maxFileBytes = second.maxFileBytes ∧
    first.maxDiscoveryBytes = second.maxDiscoveryBytes ∧
    first.followSymlinks = second.followSymlinks) (by cases first; cases second; simp)

/-! ## The walk -/

/-- The note with which discovery ends at the limit on files. -/
def fullNote : List Char :=
  "repository: max_files reached".toList

/-- What the walk comes across. -/
inductive Visit where
  | note (text : List Char)
  | failure (error : ValueError)
  | file (path : Path)
deriving DecidableEq, Repr

/-- A note about a path. -/
def noteOn (path : Path) (ending : String) : List Char :=
  path.text ++ ending.toList

/-- What becomes of a directory. -/
inductive DirectoryFate where
  | left
  | omitted (text : List Char)
  | entered
  | followed (target : Path)
deriving DecidableEq, Repr

section Walk

variable (tree : FileTree) (rules : Rules) (config : DiscoveryConfig)

def linkedDirectoryFate (visited : List Path) (relative : Path) :
    Except ValueError DirectoryFate :=
  match tree.resolve relative with
  | .broken => .ok (.omitted (noteOn relative ": broken symlink"))
  | .outside => .ok (.omitted (noteOn relative ": symlink excluded"))
  | .inside target =>
      if !config.followSymlinks then
        .ok (.omitted (noteOn relative ": symlink excluded"))
      else do
        rules.normalizes target
        if ← rules.ignored target true then
          return .omitted (noteOn relative ": sensitive symlink target excluded")
        else if visited.contains target then
          return .omitted (noteOn relative ": symlink cycle or duplicate directory excluded")
        else
          return .followed target

def directoryFate (visited : List Path) (relative : Path) : Except ValueError DirectoryFate :=
  match rules.normalizes relative with
  | .error _ => .ok (.omitted "repository directory omitted: unsupported path".toList)
  | .ok _ => do
      if ← rules.prunes relative then
        return .left
      else if tree.isLink relative then
        linkedDirectoryFate tree rules config visited relative
      else
        return .entered

/-- What the loop over the directories of a directory has collected. -/
structure Selection where
  visits : List Visit
  retained : List Name
  visited : List Path

/-- The body of that loop.  An error ends discovery at this visit, so what follows it is never
looked at. -/
def selectDirectory (directory : Path) (selection : Selection) (name : Name) : Selection :=
  match directoryFate tree rules config selection.visited (directory ++ [name]) with
  | .error error => { selection with visits := selection.visits ++ [.failure error] }
  | .ok .left => selection
  | .ok (.omitted text) => { selection with visits := selection.visits ++ [.note text] }
  | .ok .entered => { selection with retained := selection.retained ++ [name] }
  | .ok (.followed target) =>
      { selection with
        retained := selection.retained ++ [name]
        visited := selection.visited ++ [target] }

/-- `sorted(names)` -/
def sortedNames (names : List Name) : List Name :=
  names.insertionSort fun name other => name.chars ≤ other.chars

def selectDirectories (directory : Path) (visited : List Path) : Selection :=
  (sortedNames (tree.directoryNames directory)).foldl (selectDirectory tree rules config directory)
    ⟨[], [], visited⟩

/-- The walk from a stack of directories on, over at most so many of them. -/
def walkWithin : ℕ → ℕ → List Path → List Path → List Visit
  | 0, _, _, _ => []
  | _ + 1, _, _, [] => []
  | fuel + 1, walked, visited, directory :: stack =>
      let walkedEntries := walked + (tree.directoryNames directory).length +
        (tree.fileNames directory).length
      if config.maxWalkEntries < walkedEntries then
        [.note "repository: max_walk_entries reached".toList]
      else
        let selection := selectDirectories tree rules config directory visited
        selection.visits ++
          (sortedNames (tree.fileNames directory)).map (fun name => .file (directory ++ [name])) ++
          walkWithin fuel walkedEntries selection.visited
            (selection.retained.map (directory ++ [·]) ++ stack)

/-- Every directory but the root is an entry of another one, so that the walk visits at most one
directory more than the limit on entries. -/
def walk : List Visit :=
  walkWithin tree rules config (config.maxWalkEntries + 1) 0 [[]] [[]]

end Walk

/-! ## Discovery -/

/-- `DiscoveredFile` -/
structure MappedFile (Digest : Type) where
  absolutePath : Path
  relativePath : Path
  content : List Char
  size : ℕ
  lines : ℕ
  sha256 : Digest
  language : String
  categories : List String
deriving DecidableEq, Repr

/-- What discovery computes from a path and from the content of a file alone. -/
structure Mapping (Digest : Type) where
  lower : List Char → List Char
  sha256 : List UInt8 → Digest
  language : Path → String
  categories : List Char → List Char → Bool → List String

structure DiscoveryResult (Digest : Type) where
  files : List (MappedFile Digest)
  omitted : List (List Char)
  changedPaths : Finset (List Char)
  gitCommit : Option String
deriving DecidableEq

section Discovering

variable {Digest : Type} (mapping : Mapping Digest) (tree : FileTree) (rules : Rules)
  (config : DiscoveryConfig) (changed : Finset (List Char))

def mapFile (path target : Path) (data : List UInt8) : MappedFile Digest where
  absolutePath := target
  relativePath := path
  content := decode data
  size := data.length
  lines := (splitLines (decode data)).length
  sha256 := mapping.sha256 data
  language := mapping.language path
  categories := mapping.categories path.text (decode data) (decide (path.text ∈ changed))

abbrev FileOutcome (Digest : Type) := Outcome (MappedFile Digest) (List Char) ValueError

/-- The checks of a file that is neither ignored nor excluded as a link. -/
def readFile (path target : Path) : FileOutcome Digest :=
  match tree.stat path with
  | none => .note (noteOn path ": unreadable")
  | some stat =>
      if 1 < stat.links then
        .note (noteOn path ": hardlink excluded")
      else if config.maxFileBytes < stat.size then
        .note (noteOn path ": exceeds max_file_bytes")
      else
        match tree.read path with
        | none => .note (noteOn path ": unreadable")
        | some data =>
            if isBinary data then
              .note (noteOn path ": binary")
            else if config.selects mapping.lower path then
              .item (mapFile mapping changed path target data)
            else
              .nothing

def linkedFileOutcome (path : Path) : FileOutcome Digest :=
  match tree.resolve path with
  | .broken => .note (noteOn path ": broken symlink")
  | .outside => .note (noteOn path ": symlink excluded")
  | .inside target =>
      if !config.followSymlinks then
        .note (noteOn path ": symlink excluded")
      else
        match rules.normalizes target with
        | .error error => .failure error
        | .ok _ =>
            match rules.ignored target false with
            | .error error => .failure error
            | .ok true => .note (noteOn path ": sensitive symlink target excluded")
            | .ok false => readFile mapping tree config changed path target

/-- The body of the loop over the files of a directory, up to the limits on the whole. -/
def fileOutcome (path : Path) : FileOutcome Digest :=
  match rules.normalizes path with
  | .error _ => .note "repository file omitted: unsupported path".toList
  | .ok _ =>
      match rules.ignored path false with
      | .error error => .failure error
      | .ok true => .nothing
      | .ok false =>
          if tree.isLink path then
            linkedFileOutcome mapping tree rules config changed path
          else
            match tree.resolve path with
            | .outside => .note (noteOn path ": escaped repository")
            | .inside target => readFile mapping tree config changed path target
            | .broken => readFile mapping tree config changed path path

def visitOutcome : Visit → FileOutcome Digest
  | .note text => .note text
  | .failure error => .failure error
  | .file path => fileOutcome mapping tree rules config changed path

/-- The limits on files and retained bytes. -/
def fileLimits : Limits (MappedFile Digest) (List Char) where
  places := config.maxFiles
  room := config.maxDiscoveryBytes
  size := MappedFile.size
  strip file := { file with content := [] }
  overflow file := noteOn file.relativePath ": mapped without content after max_discovery_bytes"
  full := fullNote

/-- `discover_repository` -/
def discoverRepository (gitCommit : Option String) : Except ValueError (DiscoveryResult Digest) :=
  (collect (fileLimits config) 0 0
    ((walk tree rules config).map (visitOutcome mapping tree rules config changed))).map
      fun collected =>
        { files := collected.1
          omitted := collected.2
          changedPaths := changed
          gitCommit := gitCommit }

end Discovering

/-! ## Withholding the prior audit -/

/-- The configured path, which names a JSON file. -/
structure PriorAuditPath where
  path : Path
  nonempty : path ≠ []
  json : ".json".toList <:+ path.text.map Char.toLower

/-- A note about the prior audit. -/
def aboutPrior (prior : Path) (text : List Char) : Bool :=
  (noteOn prior ":").isPrefixOf text

/-- `withhold_prior_audit_from_discovery` -/
def withholdPriorAuditFromDiscovery {Digest : Type} (discovery : DiscoveryResult Digest)
    (configuredPath : Option PriorAuditPath) : DiscoveryResult Digest × Bool :=
  match configuredPath with
  | none => (discovery, false)
  | some prior =>
      let files := discovery.files.filter fun file => decide (file.relativePath ≠ prior.path)
      ({ files := files
         omitted := discovery.omitted.filter fun text => !aboutPrior prior.path text
         changedPaths := discovery.changedPaths.filter fun path => path ≠ prior.path.text
         gitCommit := discovery.gitCommit },
        files.all fun file => decide (file.relativePath ≠ prior.path))

end Discovery

end MmAudit
