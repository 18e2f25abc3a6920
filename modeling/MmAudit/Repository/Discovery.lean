import MmAudit.Repository.Pruning

/-!
# Which files discovery finds

The walk of `discover_repository` over a tree of plain text files: it leaves pruned
directories out, descends into the others, and keeps the files that are supported,
not ignored and selected by the configuration.  Links, binary files and the limits on
sizes and counts do not occur in such a tree.

A file that is not ignored is missed exactly when a pruned directory lies above it.
-/

namespace MmAudit

open Fallible

namespace Ignore

/-- The entries of a directory, one after the other in the order in which the walk sorts them. -/
inductive Tree where
  | done
  | file (name : Name) (rest : Tree)
  | directory (name : Name) (contents rest : Tree)
deriving Repr

namespace Tree

/-- The paths of all files of the tree. -/
def files (path : Path) : Tree → List Path
  | done => []
  | file name rest => (path ++ [name]) :: files path rest
  | directory name contents rest => files (path ++ [name]) contents ++ files path rest

/-- The files that lie in the directory itself. -/
def ownFiles (path : Path) : Tree → List Path
  | done => []
  | file name rest => (path ++ [name]) :: ownFiles path rest
  | directory _ _ rest => ownFiles path rest

end Tree

/-- The options of a repository that select files by their paths. -/
structure RepositoryConfig where
  includeTests : Bool
  includeDocs : Bool
deriving DecidableEq, Repr

def testParts : List (List Char) :=
  ["test", "tests", "spec", "specs"].map String.toList

def docEndings : List (List Char) :=
  [".md", ".rst", ".adoc", ".txt"].map String.toList

section Walk

variable (lower : List Char → List Char) (control : Char → Bool)

def RepositoryConfig.selects (config : RepositoryConfig) (path : Path) : Bool :=
  let lowerRelative := lower path.text
  (config.includeTests || !(lowerRelative.splitOn '/').any testParts.contains) &&
    (config.includeDocs || !docEndings.any (·.isSuffixOf lowerRelative))

def utf8Length (text : List Char) : ℕ :=
  (text.map fun char => char.utf8Size).sum

/-- The text begins with a drive letter, a colon and a separator. -/
def drivePath : List Char → Bool
  | letter :: ':' :: '/' :: _ => letter.isAlpha
  | _ => false

/-- `normalize_relative_path` accepts the path.  `control` tells the control, format and surrogate
characters and the delete character. -/
def supported (path : Path) : Bool :=
  decide (utf8Length path.text ≤ 4096) && path.text.all (!control ·) && !drivePath path.text &&
    path.parts.all fun part => decide (utf8Length part ≤ 255)

namespace IgnoreMatcher

variable (matcher : IgnoreMatcher) (config : RepositoryConfig)

/-- Whether the walk keeps a file. -/
def keepsFile (path : Path) : Except ValueError Bool :=
  if supported control path then
    (matcher.ignored lower path false).map fun ignored => !ignored && config.selects lower path
  else
    .ok false

def keptFiles (paths : List Path) : Except ValueError (List Path) :=
  paths.foldlM (fun found path =>
    (matcher.keepsFile lower control config path).map fun keeps =>
      if keeps then found ++ [path] else found) []

/-- Whether the walk descends into a directory. -/
def entersDirectory (path : Path) : Except ValueError Bool :=
  if supported control path then
    (matcher.prunes lower path).map (!·)
  else
    .ok false

/-- The files found below the subdirectories of a directory. -/
def discoverBelow (path : Path) : Tree → Except ValueError (List Path)
  | .done => .ok []
  | .file _ rest => discoverBelow path rest
  | .directory name contents rest => do
      let enters ← matcher.entersDirectory lower control (path ++ [name])
      let own ← (if enters then
        matcher.keptFiles lower control config (contents.ownFiles (path ++ [name])) else .ok [])
      let deeper ← (if enters then discoverBelow (path ++ [name]) contents else .ok [])
      let others ← discoverBelow path rest
      return own ++ deeper ++ others

def discoverRepository (tree : Tree) : Except ValueError (List Path) := do
  let own ← matcher.keptFiles lower control config (tree.ownFiles [])
  let deeper ← matcher.discoverBelow lower control config [] tree
  return own ++ deeper

end IgnoreMatcher

end Walk

/-! ## Files and the directories above them -/

namespace Tree

/-- The files that lie in the subdirectories of a directory. -/
def deepFiles (path : Path) : Tree → List Path
  | done => []
  | file _ rest => deepFiles path rest
  | directory name contents rest => files (path ++ [name]) contents ++ deepFiles path rest

theorem mem_files_iff (path : Path) (tree : Tree) (found : Path) :
    found ∈ tree.files path ↔ found ∈ tree.ownFiles path ∨ found ∈ tree.deepFiles path := by
  induction tree with
  | done => simp [files, ownFiles, deepFiles]
  | file name rest ih => simp only [files, ownFiles, deepFiles, List.mem_cons, ih, or_assoc]
  | directory name contents rest _ ih =>
      simp only [files, ownFiles, deepFiles, List.mem_append, ih]
      exact or_left_comm

theorem eq_of_mem_ownFiles {path : Path} {tree : Tree} {found : Path}
    (member : found ∈ tree.ownFiles path) : ∃ name, found = path ++ [name] := by
  induction tree with
  | done => cases member
  | file name rest ih =>
      rcases List.mem_cons.mp member with rfl | member
      · exact ⟨name, rfl⟩
      · exact ih member
  | directory name contents rest _ ih => exact ih member

theorem below_of_mem_files {path : Path} {tree : Tree} {found : Path}
    (member : found ∈ tree.files path) : Path.Below path found := by
  induction tree generalizing path with
  | done => cases member
  | file name rest ih =>
      rcases List.mem_cons.mp member with rfl | member
      · exact ⟨[name], by simp, rfl⟩
      · exact ih member
  | directory name contents rest contentsIh ih =>
      rcases List.mem_append.mp member with inside | member
      · exact Path.Below.trans ⟨[name], by simp, rfl⟩ (contentsIh inside)
      · exact ih member

end Tree

namespace Path

/-- Nothing lies between a directory and the entries in it. -/
theorem not_between (path directory : Path) (name : Name) (under : Below path directory) :
    ¬ Below directory (path ++ [name]) := by
  rintro ⟨rest, restNonempty, same⟩
  obtain ⟨middle, middleNonempty, rfl⟩ := under
  have lengths := congrArg List.length same
  simp only [List.length_append, List.length_singleton] at lengths
  have := List.length_pos_iff.mpr restNonempty
  have := List.length_pos_iff.mpr middleNonempty
  omega

/-- The directories between a directory and a path below one of its subdirectories. -/
theorem between_iff {path directory found : Path} {name : Name}
    (below : Below (path ++ [name]) found) :
    Below path directory ∧ Below directory found ↔
      directory = path ++ [name] ∨ Below (path ++ [name]) directory ∧ Below directory found := by
  constructor
  · rintro ⟨⟨middle, middleNonempty, rfl⟩, inside⟩
    cases middle with
    | nil => exact absurd rfl middleNonempty
    | cons first middle =>
        obtain ⟨rest, _, sameFound⟩ := below
        obtain ⟨more, moreNonempty, rfl⟩ := inside
        have heads : first :: (middle ++ more) = name :: rest := by
          simpa using sameFound
        obtain ⟨rfl, _⟩ := List.cons.inj heads
        cases middle with
        | nil => exact Or.inl rfl
        | cons second middle =>
            exact Or.inr ⟨⟨second :: middle, by simp, by simp⟩, more, moreNonempty, rfl⟩
  · rintro (rfl | ⟨under, inside⟩)
    · exact ⟨⟨[name], by simp, rfl⟩, below⟩
    · exact ⟨Below.trans ⟨[name], by simp, rfl⟩ under, inside⟩

end Path

theorem utf8Length_append (text more : List Char) :
    utf8Length (text ++ more) = utf8Length text + utf8Length more := by
  simp [utf8Length]

/-- What is above a supported path is supported. -/
theorem supported_of_below {control : Char → Bool} {directory path : Path}
    (nonempty : directory ≠ []) (below : Path.Below directory path)
    (accepted : supported control path = true) : supported control directory = true := by
  obtain ⟨rest, sameText⟩ := below.text_eq nonempty
  unfold supported at accepted ⊢
  simp only [Bool.and_eq_true, decide_eq_true_eq, Bool.not_eq_true', List.all_eq_true] at accepted ⊢
  obtain ⟨⟨⟨short, printable⟩, noDrive⟩, shortParts⟩ := accepted
  rw [sameText] at short printable noDrive
  refine ⟨⟨⟨?_, ?_⟩, ?_⟩, ?_⟩
  · rw [utf8Length_append] at short
    omega
  · exact fun char member => printable char (List.mem_append_left _ member)
  · rw [Bool.eq_false_iff] at noDrive ⊢
    intro drive
    apply noDrive
    unfold drivePath at drive ⊢
    split at drive
    · next letter more same => simpa [same] using drive
    · cases drive
  · exact fun part member => shortParts part (List.mem_of_mem_dropLast (below.parts_subset member))

/-! ## What the walk finds -/

section Walk

variable {lower : List Char → List Char} {control : Char → Bool} {matcher : IgnoreMatcher}
  {config : RepositoryConfig}

namespace IgnoreMatcher

theorem mem_keptFiles_iff {paths found : List Path}
    (returned : matcher.keptFiles lower control config paths = .ok found) (path : Path) :
    path ∈ found ↔ path ∈ paths ∧ matcher.keepsFile lower control config path = .ok true := by
  unfold keptFiles at returned
  induction paths using List.reverseRecOn generalizing found with
  | nil => cases returned; simp
  | append_singleton paths last ih =>
      rw [List.foldlM_append] at returned
      obtain ⟨earlier, folded, step⟩ := bind_eq_ok_iff.mp returned
      have lastStep : (matcher.keepsFile lower control config last).map (fun keeps =>
          if keeps then earlier ++ [last] else earlier) = .ok found := by simpa using step
      cases outcome : matcher.keepsFile lower control config last with
      | error error => rw [outcome] at lastStep; cases lastStep
      | ok keeps =>
          rw [outcome] at lastStep
          cases keeps with
          | false =>
              obtain rfl : earlier = found := Except.ok.inj lastStep
              rw [ih folded, List.mem_append, List.mem_singleton, or_and_right]
              refine (or_iff_left ?_).symm
              rintro ⟨rfl, kept⟩
              rw [outcome] at kept
              cases kept
          | true =>
              obtain rfl : earlier ++ [last] = found := Except.ok.inj lastStep
              rw [List.mem_append, ih folded, List.mem_append, List.mem_singleton, or_and_right]
              refine or_congr_right ⟨?_, And.left⟩
              rintro rfl
              exact ⟨rfl, outcome⟩

/-- The walk enters every directory between `path` and the file. -/
def Reaches (lower : List Char → List Char) (control : Char → Bool) (matcher : IgnoreMatcher)
    (path found : Path) : Prop :=
  ∀ directory, Path.Below path directory → Path.Below directory found →
    matcher.entersDirectory lower control directory = .ok true

theorem reaches_own {path found : Path} {tree : Tree} (member : found ∈ tree.ownFiles path) :
    matcher.Reaches lower control path found := by
  obtain ⟨name, rfl⟩ := Tree.eq_of_mem_ownFiles member
  exact fun directory under inside => absurd inside (Path.not_between path directory name under)

theorem reaches_cons_iff {path found : Path} {name : Name}
    (below : Path.Below (path ++ [name]) found) :
    matcher.Reaches lower control path found ↔
      matcher.entersDirectory lower control (path ++ [name]) = .ok true ∧
        matcher.Reaches lower control (path ++ [name]) found := by
  constructor
  · intro reaches
    refine ⟨reaches _ ⟨[name], by simp, rfl⟩ below, fun directory under inside => ?_⟩
    exact reaches directory (Path.Below.trans ⟨[name], by simp, rfl⟩ under) inside
  · rintro ⟨enters, reaches⟩ directory under inside
    rcases (Path.between_iff below).mp ⟨under, inside⟩ with rfl | ⟨deeper, _⟩
    · exact enters
    · exact reaches directory deeper inside

theorem mem_discoverBelow_iff {path : Path} {tree : Tree} {found : List Path}
    (returned : matcher.discoverBelow lower control config path tree = .ok found) (file : Path) :
    file ∈ found ↔ file ∈ tree.deepFiles path ∧
      matcher.keepsFile lower control config file = .ok true ∧
        matcher.Reaches lower control path file := by
  induction tree generalizing path found with
  | done => cases returned; simp [Tree.deepFiles]
  | file name rest ih => exact ih returned
  | directory name contents rest contentsIh ih =>
      unfold discoverBelow at returned
      obtain ⟨enters, entered, returned⟩ := bind_eq_ok_iff.mp returned
      obtain ⟨own, ownReturned, returned⟩ := bind_eq_ok_iff.mp returned
      obtain ⟨deeper, deeperReturned, returned⟩ := bind_eq_ok_iff.mp returned
      obtain ⟨others, othersReturned, returned⟩ := bind_eq_ok_iff.mp returned
      obtain rfl : own ++ deeper ++ others = found := Except.ok.inj returned
      have inside : file ∈ own ++ deeper ↔ file ∈ contents.files (path ++ [name]) ∧
          matcher.keepsFile lower control config file = .ok true ∧
            matcher.Reaches lower control path file := by
        cases enters with
        | false =>
            obtain rfl : [] = own := Except.ok.inj ownReturned
            obtain rfl : [] = deeper := Except.ok.inj deeperReturned
            simp only [List.append_nil, List.not_mem_nil, false_iff]
            rintro ⟨member, _, reaches⟩
            rw [reaches_cons_iff (Tree.below_of_mem_files member), entered] at reaches
            cases reaches.1
        | true =>
            rw [if_pos rfl] at ownReturned deeperReturned
            rw [List.mem_append, mem_keptFiles_iff ownReturned, contentsIh deeperReturned,
              Tree.mem_files_iff]
            constructor
            · rintro (⟨member, keeps⟩ | ⟨member, keeps, reaches⟩)
              · have below := Tree.below_of_mem_files ((Tree.mem_files_iff _ _ _).mpr (Or.inl member))
                exact ⟨Or.inl member, keeps, (reaches_cons_iff below).mpr
                  ⟨entered, reaches_own member⟩⟩
              · have below := Tree.below_of_mem_files ((Tree.mem_files_iff _ _ _).mpr (Or.inr member))
                exact ⟨Or.inr member, keeps, (reaches_cons_iff below).mpr ⟨entered, reaches⟩⟩
            · rintro ⟨member | member, keeps, reaches⟩
              · exact Or.inl ⟨member, keeps⟩
              · have below := Tree.below_of_mem_files ((Tree.mem_files_iff _ _ _).mpr (Or.inr member))
                exact Or.inr ⟨member, keeps, ((reaches_cons_iff below).mp reaches).2⟩
      rw [List.mem_append, inside, ih othersReturned, Tree.deepFiles, List.mem_append, or_and_right]

/-- A file that the walk would keep is found unless a pruned directory lies above it. -/
theorem mem_discoverRepository_iff {tree : Tree} {found : List Path}
    (returned : matcher.discoverRepository lower control config tree = .ok found) (file : Path) :
    file ∈ found ↔ file ∈ tree.files [] ∧
      matcher.keepsFile lower control config file = .ok true ∧
        matcher.Reaches lower control [] file := by
  unfold discoverRepository at returned
  obtain ⟨own, ownReturned, returned⟩ := bind_eq_ok_iff.mp returned
  obtain ⟨deeper, deeperReturned, returned⟩ := bind_eq_ok_iff.mp returned
  obtain rfl : own ++ deeper = found := Except.ok.inj returned
  rw [List.mem_append, mem_keptFiles_iff ownReturned, mem_discoverBelow_iff deeperReturned,
    Tree.mem_files_iff, or_and_right]
  refine or_congr_left ⟨?_, ?_⟩
  · exact fun own => ⟨own.1, own.2, reaches_own own.1⟩
  · exact fun own => ⟨own.1, own.2.1⟩

theorem keepsFile_iff (file : Path) :
    matcher.keepsFile lower control config file = .ok true ↔
      supported control file = true ∧ matcher.ignored lower file false = .ok false ∧
        config.selects lower file = true := by
  unfold keepsFile
  by_cases accepted : supported control file = true
  · rw [if_pos accepted]
    cases matcher.ignored lower file false with
    | error error => simp [Except.map]
    | ok ignored => cases ignored <;> simp [Except.map, accepted]
  · simp [accepted]

theorem exists_ignored (comparable : ∀ rawRule ∈ matcher.rules, raises (ruleOf rawRule) = false)
    {path : Path} (nonempty : path ≠ []) (isDir : Bool) :
    ∃ answer, matcher.ignored lower path isDir = .ok answer := by
  obtain ⟨permanent, permanently⟩ := exists_permanentlyExcluded path nonempty isDir
  unfold ignored
  split
  · exact ⟨true, rfl⟩
  · rcases @foldlM_applyRule path isDir matcher.rules nonempty with
      ⟨_, decided, folded, _⟩ | ⟨⟨rawRule, member, raised⟩, _⟩
    · exact ⟨permanent || decided, by rw [folded, permanently]; rfl⟩
    · rw [comparable rawRule member] at raised
      cases raised

/-- Where the rules can be compared, every directory is either pruned or not. -/
theorem exists_prunes (comparable : ∀ rawRule ∈ matcher.rules, raises (ruleOf rawRule) = false)
    {directory : Path} (nonempty : directory ≠ []) :
    ∃ answer, matcher.prunes lower directory = .ok answer := by
  obtain ⟨permanent, permanently⟩ := exists_permanentlyExcluded directory nonempty true
  have includes : ∃ answer, matcher.mayIncludeDescendant lower directory = .ok answer := by
    unfold mayIncludeDescendant
    split
    · exact ⟨false, rfl⟩
    · exact ⟨_, by rw [permanently]; rfl⟩
  obtain ⟨answer, answered⟩ := @exists_ignored lower matcher comparable directory nonempty true
  obtain ⟨may, included⟩ := includes
  unfold prunes
  rw [answered]
  cases answer with
  | false => exact ⟨false, rfl⟩
  | true => exact ⟨!may, by rw [included]; rfl⟩

/-- A path that was looked up among the rules shows that they can be compared. -/
theorem comparable_of_not_ignored {path : Path} (nonempty : path ≠ [])
    (notIgnored : matcher.ignored lower path false = .ok false) :
    ∀ rawRule ∈ matcher.rules, raises (ruleOf rawRule) = false := by
  unfold ignored at notIgnored
  split at notIgnored
  · cases notIgnored
  · rcases @foldlM_applyRule path false matcher.rules nonempty with
      ⟨comparable, _⟩ | ⟨_, never⟩
    · exact comparable
    · obtain ⟨decided, folded, _⟩ := bind_eq_ok_iff.mp notIgnored
      exact absurd folded (never decided)

/-- Below a pruned directory every path is either ignored or not. -/
theorem ignored_of_pruned {directory path : Path} (nonempty : directory ≠ [])
    (below : Path.Below directory path) (pruned : matcher.prunes lower directory = .ok true) :
    matcher.ignored lower path false = .ok true ∨ matcher.ignored lower path false = .ok false := by
  have directoryIgnored := ignored_of_prunes pruned
  rcases (matcher.ignored_iff lower directory nonempty true).mp directoryIgnored with
    sensitive | ⟨comparable, _⟩
  · refine Or.inl ((matcher.ignored_iff lower path below.path_nonempty false).mpr (Or.inl ?_))
    exact sensitive_below lower below sensitive false
  · obtain ⟨answer, answered⟩ := @exists_ignored lower matcher comparable path below.path_nonempty false
    cases answer with
    | false => exact Or.inr answered
    | true => exact Or.inl answered

/-- The walk reaches a file that it would keep when no directory above it is pruned. -/
theorem reaches_iff {file : Path}
    (keeps : matcher.keepsFile lower control config file = .ok true) :
    matcher.Reaches lower control [] file ↔
      ∀ directory, directory ≠ [] → Path.Below directory file →
        matcher.prunes lower directory ≠ .ok true := by
  obtain ⟨accepted, notIgnored, _⟩ := (keepsFile_iff file).mp keeps
  have below_iff : ∀ directory : Path, Path.Below [] directory ↔ directory ≠ [] := fun directory =>
    ⟨fun below => below.path_nonempty, fun nonempty => ⟨directory, nonempty, rfl⟩⟩
  unfold Reaches
  refine forall_congr' fun directory => ?_
  rw [below_iff]
  refine forall_congr' fun nonempty => forall_congr' fun inside => ?_
  have comparable := comparable_of_not_ignored inside.path_nonempty notIgnored
  obtain ⟨answer, pruned⟩ := @exists_prunes lower matcher comparable directory nonempty
  rw [entersDirectory, if_pos (supported_of_below nonempty inside accepted), pruned]
  cases answer <;> simp [Except.map]

/-- What keeps a file below a pruned directory ignored: the directory is withheld by name, or the
file is withheld by name or permanently excluded, or the exclusion of the directory carries over
to the file. -/
def KeptOut (lower : List Char → List Char) (matcher : IgnoreMatcher) (directory file : Path) :
    Prop :=
  isSensitiveWorkspacePath lower directory true = true ∨
    isSensitiveWorkspacePath lower file false = true ∨
      permanentlyExcluded file false = .ok true ∨ matcher.Carries directory file

end IgnoreMatcher

end Walk

def vendorName : Name :=
  ⟨"vendor".toList, by decide, by decide, by decide⟩

def keepName : Name :=
  ⟨"keep.sol".toList, by decide, by decide, by decide⟩

/-- The default exclusions, and a negated rule for one file name. -/
def keepMatcher : IgnoreMatcher :=
  .ofUserRules ["!keep.sol".toList]

end Ignore

end MmAudit
