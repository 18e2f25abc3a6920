import MmAudit.Library.Fallible

/-!
# Growing directories

A directory that is filled by making folders and by creating files exclusively: a file is
never written where one stands already.  Every operation may also be refused for a path, for
lack of space or of permission.

What is created stays, so a directory that was filled by a list of creations holds exactly
these files, each at a place of its own.
-/

namespace MmAudit

open Fallible

inductive DirectoryError where
  | fileExists
  | notADirectory
  | refused
deriving DecidableEq, Repr

/-- Folders, and files with their contents, by their paths. -/
structure Directory (Name Data : Type) where
  folders : List (List Name)
  files : List (List Name × Data)
  distinct : (files.map Prod.fst).Nodup

namespace Directory

variable {Name Data : Type} [DecidableEq Name]

def empty : Directory Name Data :=
  ⟨[], [], List.nodup_nil⟩

def IsFile (directory : Directory Name Data) (path : List Name) : Prop :=
  path ∈ directory.files.map Prod.fst

def IsFolder (directory : Directory Name Data) (path : List Name) : Prop :=
  path = [] ∨ path ∈ directory.folders

instance (directory : Directory Name Data) (path : List Name) :
    Decidable (directory.IsFile path) :=
  inferInstanceAs (Decidable (path ∈ directory.files.map Prod.fst))

instance (directory : Directory Name Data) (path : List Name) :
    Decidable (directory.IsFolder path) :=
  inferInstanceAs (Decidable (path = [] ∨ path ∈ directory.folders))

section Operations

variable (refuses : List Name → Bool)

/-- Make one of the folders on the way to a target, unless it is there. -/
def makeFolder (target : List Name) (directory : Directory Name Data) (path : List Name) :
    Except DirectoryError (Directory Name Data) := do
  raiseIf (directory.IsFile path) (if path = target then .fileExists else .notADirectory)
  if directory.IsFolder path then
    return directory
  else
    raiseIf (refuses path = true) .refused
    return ⟨directory.folders ++ [path], directory.files, directory.distinct⟩

/-- Make a folder and those above it. -/
def makeFolders (directory : Directory Name Data) (target : List Name) :
    Except DirectoryError (Directory Name Data) :=
  target.inits.foldlM (makeFolder refuses target) directory

/-- Create a file where nothing stands. -/
def createFile (directory : Directory Name Data) (path : List Name) (data : Data) :
    Except DirectoryError (Directory Name Data) :=
  if taken : directory.IsFile path ∨ directory.IsFolder path then
    .error .fileExists
  else if refuses path = true then
    .error .refused
  else
    .ok
      { folders := directory.folders
        files := directory.files ++ [(path, data)]
        distinct := by
          rw [List.map_append, List.map_singleton, ← List.concat_eq_append]
          exact directory.distinct.concat fun present => taken (.inl present) }

/-- Create a file after the folders above it. -/
def placeFile (directory : Directory Name Data) (file : List Name × Data) :
    Except DirectoryError (Directory Name Data) := do
  let above ← directory.makeFolders refuses file.1.dropLast
  above.createFile refuses file.1 file.2

/-! ## What the operations leave alone -/

theorem makeFolder_files {target path : List Name} {directory next : Directory Name Data}
    (made : makeFolder refuses target directory path = .ok next) : next.files = directory.files := by
  unfold makeFolder at made
  rw [raiseIf_bind_eq_ok_iff] at made
  obtain ⟨-, made⟩ := made
  split at made
  · exact congrArg files (Except.ok.inj made).symm
  · rw [raiseIf_bind_eq_ok_iff] at made
    rw [← Except.ok.inj made.2]

/-- Folders do not touch the files. -/
theorem makeFolders_files {directory next : Directory Name Data} {target : List Name}
    (made : directory.makeFolders refuses target = .ok next) : next.files = directory.files := by
  refine foldlM_invariant (fun _ state => state.files = directory.files) target.inits made rfl ?_
  intro _ path state next kept stepped
  rw [makeFolder_files refuses stepped, kept]

theorem createFile_files {directory next : Directory Name Data} {path : List Name} {data : Data}
    (created : directory.createFile refuses path data = .ok next) :
    next.files = directory.files ++ [(path, data)] := by
  unfold createFile at created
  split at created
  · cases created
  · split at created
    · cases created
    · exact congrArg files (Except.ok.inj created).symm

theorem placeFile_files {directory next : Directory Name Data} {file : List Name × Data}
    (placed : directory.placeFile refuses file = .ok next) :
    next.files = directory.files ++ [file] := by
  obtain ⟨above, made, created⟩ := bind_eq_ok_iff.mp placed
  rw [createFile_files refuses created, makeFolders_files refuses made]

end Operations

end Directory

end MmAudit
