import MmAudit.Library.Dict
import MmAudit.Repository.Chunking
import MmAudit.Repository.Discovery

/-!
# Locations in unchanged files

Discovery reads the bytes of a file and hashes them; chunking hashes the lines of the
decoded text; `validate_location` reads the file again in text mode, which translates
line ends, and hashes the lines of that text and the whole of it.

The hashes of one file agree exactly where no carriage return and no ill-formed byte
sequence is involved, so a location in a file that nobody touched can be rejected.
-/

namespace MmAudit

namespace Context

open TextLines Ignore

/-! ## Paths as text -/

/-- A component of a path, unless it is a way up. -/
def nameOf? (chars : List Char) : Option Name :=
  if accepted : chars ≠ [] ∧ ('/' ∉ chars ∧ '\\' ∉ chars) ∧ chars ≠ ['.'] ∧ chars ≠ ['.', '.'] then
    some ⟨chars, accepted.1, accepted.2.1, accepted.2.2⟩
  else
    none

/-- `normalize_relative_path` on the text of a path. -/
def normalizeRelativePath (control : Char → Bool) (path : List Char) : Option Path :=
  let value := path.map fun char => if char = '\\' then '/' else char
  if decide (4096 < utf8Length value) || value.any control || drivePath value ||
      value.head? == some '/' then
    none
  else
    let parts := Glob.pathParts value
    if parts.any fun part => decide (255 < utf8Length part) then none
    else parts.mapM nameOf?

theorem mapM_nameOf? (path : Path) : path.parts.mapM nameOf? = some path := by
  induction path with
  | nil => rfl
  | cons name path ih =>
      have named : nameOf? name.chars = some name :=
        dif_pos ⟨name.nonempty, name.noSeparator, name.notDots⟩
      change ((name.chars :: Path.parts path).mapM nameOf?) = _
      rw [List.mapM_cons, named, ih]
      rfl

theorem splitOn_text (path : Path) (nonempty : path ≠ []) : path.text.splitOn '/' = path.parts := by
  refine List.splitOn_intercalate '/' ?_ (by simpa [Path.parts] using nonempty)
  intro part member
  obtain ⟨name, _, rfl⟩ := List.mem_map.mp member
  exact name.noSeparator.1

theorem text_injective {path other : Path} (nonempty : path ≠ []) (otherNonempty : other ≠ [])
    (same : path.text = other.text) : path = other := by
  have sameParts : path.parts = other.parts := by
    rw [← splitOn_text path nonempty, same, splitOn_text other otherNonempty]
  have sameNames := mapM_nameOf? path
  rw [sameParts, mapM_nameOf?] at sameNames
  exact (Option.some.inj sameNames).symm

theorem map_separator_text (path : Path) :
    (path.text.map fun char => if char = '\\' then '/' else char) = path.text := by
  have noBackslash : '\\' ∉ path.text := by
    intro member
    rcases Glob.mem_intercalate member with same | ⟨part, partMem, inside⟩
    · exact absurd same (by decide)
    · obtain ⟨name, _, rfl⟩ := List.mem_map.mp partMem
      exact name.noSeparator.2 inside
  refine (List.map_congr_left fun char member => ?_).trans (List.map_id _)
  refine if_neg ?_
  rintro rfl
  exact noBackslash member

theorem head?_text {path : Path} (nonempty : path ≠ []) : path.text.head? ≠ some '/' := by
  cases path with
  | nil => exact absurd rfl nonempty
  | cons name rest =>
      obtain ⟨more, whole⟩ : ∃ more, Path.text (name :: rest) = name.chars ++ more := by
        cases rest with
        | nil => exact ⟨[], by simp [Path.text, Path.parts, Glob.pathText]⟩
        | cons next rest =>
            have split := Path.text_append [name] (next :: rest) (by simp) (by simp)
            refine ⟨'/' :: Path.text (next :: rest), split.trans ?_⟩
            simp [Path.text, Path.parts, Glob.pathText]
      cases chars : name.chars with
      | nil => exact absurd chars name.nonempty
      | cons char others =>
          rw [whole, chars]
          rintro begins
          obtain rfl : char = '/' := Option.some.inj begins
          exact name.noSeparator.1 (by rw [chars]; exact List.mem_cons_self)

theorem pathParts_text {path : Path} (nonempty : path ≠ []) :
    Glob.pathParts path.text = path.parts := by
  unfold Glob.pathParts
  rw [splitOn_text path nonempty]
  refine List.filter_eq_self.mpr fun part member => ?_
  obtain ⟨name, _, rfl⟩ := List.mem_map.mp member
  simp [name.nonempty, name.notDots.1]

/-- The text of a supported path is read as the path. -/
theorem normalizeRelativePath_text {control : Char → Bool} {path : Path} (nonempty : path ≠ [])
    (accepted : supported control path = true) :
    normalizeRelativePath control path.text = some path := by
  unfold supported at accepted
  simp only [Bool.and_eq_true, decide_eq_true_eq, Bool.not_eq_true', List.all_eq_true] at accepted
  obtain ⟨⟨⟨short, printable⟩, noDrive⟩, shortParts⟩ := accepted
  unfold normalizeRelativePath
  simp only [map_separator_text, pathParts_text nonempty]
  have plain : path.text.any control = false := by
    rw [List.any_eq_false]
    intro char member
    simpa using printable char member
  have shortNames : (path.parts.any fun part => decide (255 < utf8Length part)) = false := by
    rw [List.any_eq_false]
    intro part member
    have := shortParts part member
    simp only [decide_eq_true_eq]
    omega
  rw [plain, noDrive, shortNames]
  simp only [Bool.or_false, Bool.false_eq_true, ↓reduceIte, mapM_nameOf?, Bool.or_eq_true,
    decide_eq_true_eq, beq_iff_eq, head?_text nonempty, or_false, ite_eq_right_iff]
  omega

theorem utf8Length_sublist {text other : List Char} (within : text.Sublist other) :
    utf8Length text ≤ utf8Length other :=
  (within.map _).sum_le_sum fun _ _ => Nat.zero_le _

theorem map_chars_of_mapM_nameOf? {parts : List (List Char)} {path : Path}
    (named : parts.mapM nameOf? = some path) : path.parts = parts := by
  induction parts generalizing path with
  | nil =>
      obtain rfl : [] = path := Option.some.inj named
      rfl
  | cons part parts ih =>
      rw [List.mapM_cons] at named
      obtain ⟨name, isName, later⟩ := Option.bind_eq_some_iff.mp named
      obtain ⟨names, areNames, same⟩ := Option.bind_eq_some_iff.mp later
      obtain rfl : name :: names = path := Option.some.inj same
      have chars : name.chars = part := by
        unfold nameOf? at isName
        split at isName
        · cases isName
          rfl
        · cases isName
      change name.chars :: Path.parts names = _
      rw [chars, ih areNames]

/-- What normalization checks of a path. -/
structure Clean (control : Char → Bool) (path : Path) : Prop where
  short : utf8Length path.text ≤ 4096
  printable : path.text.all (!control ·) = true
  shortNames : (path.parts.all fun part => decide (utf8Length part ≤ 255)) = true

/-- A normalized path is clean.  Its text may begin with a drive letter, behind a dot. -/
theorem clean_of_normalizeRelativePath {control : Char → Bool} {text : List Char} {path : Path}
    (normalized : normalizeRelativePath control text = some path) : Clean control path := by
  unfold normalizeRelativePath at normalized
  dsimp only at normalized
  split at normalized
  · cases normalized
  next accepted =>
    split at normalized
    · cases normalized
    next shortParts =>
      simp only [Bool.or_eq_true, decide_eq_true_eq, not_or, Bool.not_eq_true, not_lt] at accepted
      obtain ⟨⟨⟨short, plain⟩, -⟩, -⟩ := accepted
      have parts := map_chars_of_mapM_nameOf? normalized
      have within : path.text.Sublist (text.map fun char => if char = '\\' then '/' else char) := by
        have whole := Glob.intercalate_sublist '/'
          (@List.filter_sublist _ (fun part => !part.isEmpty && part ≠ ['.'])
          ((text.map fun char => if char = '\\' then '/' else char).splitOn '/'))
        rw [List.intercalate_splitOn] at whole
        rw [Path.text, parts]
        exact whole
      refine ⟨(utf8Length_sublist within).trans short, ?_, ?_⟩
      · rw [List.all_eq_true]
        intro char member
        have := List.any_eq_false.mp plain char (within.subset member)
        simpa using this
      · rw [parts, List.all_eq_true]
        intro part member
        by_contra long
        refine shortParts (List.any_eq_true.mpr ⟨part, member, ?_⟩)
        simpa using long

theorem Clean.supported_eq {control : Char → Bool} {path : Path} (clean : Clean control path) :
    supported control path = !drivePath path.text := by
  rw [supported, clean.printable, clean.shortNames, decide_eq_true clean.short]
  simp

/-- The text of a path is read as the path, or it is not supported. -/
theorem normalizeRelativePath_text_eq_some_iff {control : Char → Bool} {path read : Path}
    (nonempty : path ≠ []) :
    normalizeRelativePath control path.text = some read ↔
      path = read ∧ supported control path = true := by
  constructor
  · intro normalized
    have clean := clean_of_normalizeRelativePath normalized
    unfold normalizeRelativePath at normalized
    simp only [map_separator_text, pathParts_text nonempty] at normalized
    split at normalized
    · cases normalized
    next accepted =>
      split at normalized
      · cases normalized
      · rw [mapM_nameOf?] at normalized
        obtain rfl := Option.some.inj normalized
        simp only [Bool.or_eq_true, not_or, Bool.not_eq_true] at accepted
        refine ⟨rfl, ?_⟩
        rw [clean.supported_eq, accepted.1.2]
        rfl
  · rintro ⟨rfl, accepted⟩
    exact normalizeRelativePath_text nonempty accepted

/-! ## The repository on disk -/

/-- What is found under a path. -/
inductive Entry where
  | missing
  | linked (data : List UInt8)
  | notRegular
  | hardlinked
  | unreadable
  | file (data : List UInt8)
deriving DecidableEq, Repr

/-- The file system below the root of the repository. -/
structure Repository where
  entry : Path → Entry

/-- The bytes are taken for a binary file. -/
def isBinary (data : List UInt8) : Bool :=
  let sample := data.take 8192
  let controls := sample.countP fun byte => decide (byte < 9 ∨ 13 < byte ∧ byte < 32)
  data.contains 0 || decide (3 * sample.length < 20 * controls)

/-- A file as discovery captures it.  Past the limit on retained bytes the text is dropped. -/
structure DiscoveredFile (Digest : Type) where
  relativePath : Path
  content : List Char
  sha256 : Digest
  categories : List String
deriving DecidableEq, Repr

structure Location (Digest : Type) where
  path : List Char
  startLine : ℕ
  endLine : ℕ
  symbol : Option (List Char)
  contentHash : Option Digest
  positive : 1 ≤ startLine
  ordered : startLine ≤ endLine
deriving DecidableEq, Repr

structure LocationValidation (Digest : Type) where
  valid : Bool
  contentHash : Option Digest
  errors : List String
deriving DecidableEq, Repr

/-- A path with its lines; the whole file is listed under the lines zero and zero. -/
abbrev HashKey := List Char × ℕ × ℕ

/-- The parts of a context package that locations are checked against. -/
structure ContextPackage (Digest : Type) where
  repositoryFiles : List (List Char × Digest)
  excerpts : List (ContextExcerpt Digest)
deriving DecidableEq, Repr

section Validation

variable {Digest : Type} (source : Syntax Digest)
  (lower : List Char → List Char) (control : Char → Bool)

def captureFile (path : Path) (data : List UInt8) (retained : Bool) (categories : List String) :
    DiscoveredFile Digest where
  relativePath := path
  content := if retained then decode data else []
  sha256 := source.sha256 data
  categories := categories

/-- The hashes that one package adds to the index. -/
def packageHashes (package : ContextPackage Digest) : List (HashKey × Digest) :=
  package.repositoryFiles.map (fun file => ((file.1, 0, 0), file.2)) ++
    package.excerpts.map fun excerpt =>
      ((excerpt.path, excerpt.startLine, excerpt.endLine), excerpt.contentHash)

def contextHashIndex (packages : List (ContextPackage Digest)) : Dict HashKey Digest :=
  (packages.flatMap packageHashes).foldl (fun index hash => index.insert hash.1 hash.2) Dict.empty

/-- `_resolve_location`, and the reading of the file. -/
def resolveLocation (repository : Repository) (relative : List Char) :
    Except String (List UInt8) :=
  match normalizeRelativePath control relative with
  | none => .error "path traversal or absolute path rejected"
  | some path =>
      if isSensitiveWorkspacePath lower path false then
        .error "sensitive repository path rejected"
      else
        match repository.entry path with
        | .linked _ => .error "linked repository path rejected"
        | .missing => .error "path does not exist inside repository"
        | .notRegular => .error "path is not a regular file"
        | .hardlinked => .error "hardlinked files are outside the trusted repository boundary"
        | .unreadable => .error "file is no longer readable"
        | .file data => .ok data

/-- The lines of a location in the text as it is read now; nothing where they exceed it. -/
def currentLines (location : Location Digest) (content : List Char) : List Char :=
  let lines := splitLines content
  if location.startLine > lines.length || location.endLine > lines.length then []
  else selectLines lines location.startLine location.endLine

/-- The hash of these lines. -/
def currentHash (location : Location Digest) (content : List Char) : Option Digest :=
  let selected := currentLines location content
  if selected.isEmpty then none else some (source.hashText selected)

variable [DecidableEq Digest]

/-- The errors that come from the context, without the comparison of the lines. -/
def contextErrors (location : Location Digest) (content : List Char)
    (index : Dict HashKey Digest) : List String :=
  let fromContext := index.get? (location.path, location.startLine, location.endLine)
  let containing := index.keys.any fun key =>
    key.1 = location.path && decide (0 < key.2.1) && decide (key.2.1 ≤ location.startLine) &&
      decide (location.endLine ≤ key.2.2)
  (if fromContext.isNone && !containing then
      ["location was not present in supplied context"]
    else if fromContext.isSome && location.contentHash.isSome &&
        location.contentHash ≠ fromContext then
      ["model-supplied hash differs from context hash"]
    else []) ++
  match index.get? (location.path, 0, 0) with
  | some snapshot =>
      if snapshot ≠ source.hashText content then ["file changed since repository discovery"] else []
  | none => []

def rangeErrors (location : Location Digest) (content : List Char) : List String :=
  let lineCount := (splitLines content).length
  if location.startLine > lineCount || location.endLine > lineCount then
    ["line range exceeds file length (" ++ toString lineCount ++ ")"]
  else []

def symbolErrors (location : Location Digest) (content : List Char) : List String :=
  match location.symbol with
  | some (char :: symbol) =>
      if (char :: symbol) <:+: currentLines location content then []
      else ["quoted symbol is absent from the referenced range"]
  | _ => []

/-- `validate_location` -/
def validateLocation (repository : Repository) (location : Location Digest)
    (contextHashes : Option (Dict HashKey Digest)) : LocationValidation Digest :=
  match resolveLocation lower control repository location.path with
  | .error error => { valid := false, contentHash := none, errors := [error] }
  | .ok data =>
      let content := universalNewlines (decode data)
      let contentHash := currentHash source location content
      let expected := match contextHashes with
        | none => location.contentHash
        | some index =>
            (index.get? (location.path, location.startLine, location.endLine)).or
              location.contentHash
      let errors :=
        rangeErrors location content ++
          (contextHashes.elim [] fun index => contextErrors source location content index) ++
          (if expected.isSome && contentHash ≠ expected then
            ["location content changed since context construction"]
          else []) ++
          symbolErrors location content
      { valid := errors.isEmpty, contentHash := contentHash, errors := errors }

end Validation

/-! ## Discovered files and the packages built from them -/

/-- A file that discovery found: a supported path that is not ignored, and bytes that are no
binary. -/
structure Capture (lower : List Char → List Char) (control : Char → Bool)
    (matcher : IgnoreMatcher) where
  path : Path
  data : List UInt8
  retained : Bool
  categories : List String
  nonempty : path ≠ []
  isSupported : supported control path = true
  notIgnored : matcher.ignored lower path false = .ok false
  isText : isBinary data = false

section Unchanged

variable {Digest : Type} {source : Syntax Digest}
  {lower : List Char → List Char} {control : Char → Bool} {matcher : IgnoreMatcher}
  {captures : List (Capture lower control matcher)} {package : ContextPackage Digest}
  {repository : Repository}

def Capture.file (source : Syntax Digest) (capture : Capture lower control matcher) :
    DiscoveredFile Digest :=
  captureFile source capture.path capture.data capture.retained capture.categories

/-- The files were found once each, and are on disk as they were found. -/
structure Unchanged (repository : Repository) (captures : List (Capture lower control matcher)) :
    Prop where
  distinct : (captures.map Capture.path).Nodup
  present : ∀ capture ∈ captures, repository.entry capture.path = .file capture.data ∨
    repository.entry capture.path = .linked capture.data

/-- The package lists some of the files, and excerpts of some of them. -/
structure BuiltFrom (source : Syntax Digest) (captures : List (Capture lower control matcher))
    (package : ContextPackage Digest) : Prop where
  listed : ∀ file ∈ package.repositoryFiles, ∃ capture ∈ captures,
    file = (capture.path.text, (capture.file source).sha256)
  chunked : ∀ excerpt ∈ package.excerpts, ∃ capture ∈ captures, ∃ maxChunkBytes,
    excerpt ∈ (source.chunkText lower capture.path.text (capture.file source).content
      capture.categories maxChunkBytes).excerpts

theorem Unchanged.eq_of_text_eq (unchanged : Unchanged repository captures)
    {capture other : Capture lower control matcher} (member : capture ∈ captures)
    (otherMember : other ∈ captures) (same : capture.path.text = other.path.text) :
    capture = other :=
  List.inj_on_of_nodup_map unchanged.distinct member otherMember
    (text_injective capture.nonempty other.nonempty same)

/-- An excerpt of a captured file, by its path. -/
theorem BuiltFrom.excerpt_spec (unchanged : Unchanged repository captures)
    (built : BuiltFrom source captures package) {capture : Capture lower control matcher}
    (member : capture ∈ captures) {excerpt : ContextExcerpt Digest}
    (inPackage : excerpt ∈ package.excerpts) (samePath : excerpt.path = capture.path.text) :
    excerpt.contentHash = source.hashText excerpt.content ∧
      ((capture.file source).content = [] ∧ excerpt.content = [] ∧ excerpt.startLine = 1 ∧
          excerpt.endLine = 1 ∨
        Syntax.InText (splitLines (capture.file source).content).length
            (excerpt.startLine, excerpt.endLine) ∧
          excerpt.content = selectLines (splitLines (capture.file source).content)
            excerpt.startLine excerpt.endLine) := by
  obtain ⟨other, otherMember, maxChunkBytes, chunk⟩ := built.chunked excerpt inPackage
  obtain ⟨otherPath, spec⟩ := source.chunkText_spec lower _ _ _ _ _ chunk
  obtain rfl := unchanged.eq_of_text_eq member otherMember (samePath.symm.trans otherPath)
  exact spec

/-- Excerpts of the same lines of the same file are the same text. -/
theorem BuiltFrom.content_eq (unchanged : Unchanged repository captures)
    (built : BuiltFrom source captures package) {capture : Capture lower control matcher}
    (member : capture ∈ captures) {excerpt other : ContextExcerpt Digest}
    (inPackage : excerpt ∈ package.excerpts) (otherInPackage : other ∈ package.excerpts)
    (samePath : excerpt.path = capture.path.text) (otherPath : other.path = capture.path.text)
    (sameStart : other.startLine = excerpt.startLine) (sameEnd : other.endLine = excerpt.endLine) :
    other.contentHash = excerpt.contentHash := by
  obtain ⟨hash, lines⟩ := built.excerpt_spec unchanged member inPackage samePath
  obtain ⟨otherHash, otherLines⟩ := built.excerpt_spec unchanged member otherInPackage otherPath
  have noLines : (capture.file source).content = [] →
      ¬ Syntax.InText (splitLines (capture.file source).content).length
        (excerpt.startLine, excerpt.endLine) := by
    rintro empty ⟨first, second, third⟩
    rw [empty, splitLines, List.length_nil] at third
    simp only at first second third
    omega
  rw [hash, otherHash]
  congr 1
  rcases lines with ⟨empty, none, _⟩ | ⟨inText, selected⟩
  · rcases otherLines with ⟨_, otherNone, _⟩ | ⟨otherInText, _⟩
    · rw [none, otherNone]
    · rw [sameStart, sameEnd] at otherInText
      exact absurd otherInText (noLines empty)
  · rcases otherLines with ⟨empty, _⟩ | ⟨_, otherSelected⟩
    · exact absurd inText (noLines empty)
    · rw [selected, otherSelected, sameStart, sameEnd]

theorem BuiltFrom.positive (built : BuiltFrom source captures package)
    {excerpt : ContextExcerpt Digest} (inPackage : excerpt ∈ package.excerpts) :
    1 ≤ excerpt.startLine := by
  obtain ⟨capture, _, maxChunkBytes, chunk⟩ := built.chunked excerpt inPackage
  obtain ⟨_, _, ⟨_, _, start, _⟩ | ⟨inText, _⟩⟩ := source.chunkText_spec lower _ _ _ _ _ chunk
  · exact start.ge
  · exact inText.1

theorem contextHashIndex_singleton (package : ContextPackage Digest) :
    contextHashIndex [package] = (packageHashes package).foldl
      (fun index hash => index.insert hash.1 hash.2) Dict.empty := by
  unfold contextHashIndex
  rw [List.flatMap_singleton]

/-- The index knows the hash of an excerpt under its lines. -/
theorem BuiltFrom.get?_excerpt (unchanged : Unchanged repository captures)
    (built : BuiltFrom source captures package) {capture : Capture lower control matcher}
    (member : capture ∈ captures) {excerpt : ContextExcerpt Digest}
    (inPackage : excerpt ∈ package.excerpts) (samePath : excerpt.path = capture.path.text) :
    (contextHashIndex [package]).get? (excerpt.path, excerpt.startLine, excerpt.endLine) =
      some excerpt.contentHash := by
  rw [contextHashIndex_singleton]
  refine Dict.get?_foldl_insert_of_agree ?_ ?_ _
  · exact List.mem_append_right _ (List.mem_map.mpr ⟨excerpt, inPackage, rfl⟩)
  · intro assignment assigned sameKey
    rcases List.mem_append.mp assigned with listed | chunk
    · obtain ⟨file, _, rfl⟩ := List.mem_map.mp listed
      have positive := built.positive inPackage
      have noStart : 0 = excerpt.startLine := (Prod.ext_iff.mp (Prod.ext_iff.mp sameKey).2).1
      omega
    · obtain ⟨other, otherInPackage, rfl⟩ := List.mem_map.mp chunk
      obtain ⟨otherPath, otherLines⟩ := Prod.ext_iff.mp sameKey
      obtain ⟨sameStart, sameEnd⟩ := Prod.ext_iff.mp otherLines
      exact built.content_eq unchanged member inPackage otherInPackage samePath
        (otherPath.trans samePath) sameStart sameEnd

/-- The index knows the hash of a whole file when the package lists the file. -/
theorem BuiltFrom.get?_file (unchanged : Unchanged repository captures)
    (built : BuiltFrom source captures package) {capture : Capture lower control matcher}
    (member : capture ∈ captures) :
    (contextHashIndex [package]).get? (capture.path.text, 0, 0) =
      if ∃ file ∈ package.repositoryFiles, file.1 = capture.path.text then
        some (source.sha256 capture.data)
      else
        none := by
  have fromFile : ∀ assignment ∈ packageHashes package,
      assignment.1 = (capture.path.text, 0, 0) →
        ∃ file ∈ package.repositoryFiles, file.1 = capture.path.text ∧ assignment.2 = file.2 := by
    intro assignment assigned sameKey
    rcases List.mem_append.mp assigned with listed | chunk
    · obtain ⟨file, fileMem, rfl⟩ := List.mem_map.mp listed
      exact ⟨file, fileMem, (Prod.ext_iff.mp sameKey).1, rfl⟩
    · obtain ⟨excerpt, inPackage, rfl⟩ := List.mem_map.mp chunk
      have positive := built.positive inPackage
      have noStart : excerpt.startLine = 0 := (Prod.ext_iff.mp (Prod.ext_iff.mp sameKey).2).1
      omega
  have hash_eq : ∀ file ∈ package.repositoryFiles, file.1 = capture.path.text →
      file.2 = source.sha256 capture.data := by
    intro file fileMem samePath
    obtain ⟨other, otherMember, rfl⟩ := built.listed file fileMem
    obtain rfl := unchanged.eq_of_text_eq member otherMember samePath.symm
    rfl
  rw [contextHashIndex_singleton]
  split
  · next listed =>
      obtain ⟨file, fileMem, samePath⟩ := listed
      refine Dict.get?_foldl_insert_of_agree ?_ ?_ _
      · rw [← samePath, ← hash_eq file fileMem samePath]
        exact List.mem_append_left _ (List.mem_map.mpr ⟨file, fileMem, rfl⟩)
      · intro assignment assigned sameKey
        obtain ⟨other, otherMem, otherPath, sameHash⟩ := fromFile assignment assigned sameKey
        rw [sameHash, hash_eq other otherMem otherPath]
  · next unlisted =>
      rw [Dict.get?_foldl_insert_of_ne]
      · exact Dict.get?_empty _
      · intro assignment assigned sameKey
        obtain ⟨file, fileMem, samePath, _⟩ := fromFile assignment assigned sameKey
        exact unlisted ⟨file, fileMem, samePath⟩

/-! ## When locations are valid -/

/-- A file that is not linked resolves to its bytes. -/
theorem resolveLocation_text (capture : Capture lower control matcher) :
    resolveLocation lower control repository capture.path.text =
      match repository.entry capture.path with
      | .linked _ => .error "linked repository path rejected"
      | .missing => .error "path does not exist inside repository"
      | .notRegular => .error "path is not a regular file"
      | .hardlinked => .error "hardlinked files are outside the trusted repository boundary"
      | .unreadable => .error "file is no longer readable"
      | .file data => .ok data := by
  have notSensitive : isSensitiveWorkspacePath lower capture.path false = false := by
    rw [Bool.eq_false_iff]
    intro sensitive
    have ignored := (matcher.ignored_iff lower capture.path capture.nonempty false).mpr
      (Or.inl sensitive)
    rw [capture.notIgnored] at ignored
    cases ignored
  unfold resolveLocation
  rw [normalizeRelativePath_text capture.nonempty capture.isSupported]
  simp only [notSensitive, Bool.false_eq_true, ↓reduceIte]

/-- Bytes survive decoding and text mode exactly when they encode a text without carriage
returns. -/
theorem encode_universalNewlines_decode_iff (data : List UInt8) :
    data = encode (universalNewlines (decode data)) ↔
      ∃ text, data = encode text ∧ '\r' ∉ text := by
  constructor
  · intro same
    exact ⟨_, same, carriage_not_mem_universalNewlines _⟩
  · rintro ⟨text, rfl, absent⟩
    rw [decode_encode, (universalNewlines_eq_self_iff text).mpr absent]

/-- The lines that are read now are those of the excerpt exactly when they are some lines without
carriage returns. -/
theorem currentHash_eq_iff (collisionFree : Function.Injective source.sha256)
    {location : Location Digest} {excerpt : ContextExcerpt Digest} {content data : List Char}
    (sameStart : location.startLine = excerpt.startLine)
    (sameEnd : location.endLine = excerpt.endLine) (hash : excerpt.contentHash =
      source.hashText excerpt.content)
    (spec : content = [] ∧ excerpt.content = [] ∧ excerpt.startLine = 1 ∧ excerpt.endLine = 1 ∨
      Syntax.InText (splitLines content).length (excerpt.startLine, excerpt.endLine) ∧
        excerpt.content =
          selectLines (splitLines content) excerpt.startLine excerpt.endLine)
    (retained : content = data ∨ content = []) :
    currentHash source location (universalNewlines data) = some excerpt.contentHash ↔
      excerpt.content ≠ [] ∧ '\r' ∉ excerpt.content := by
  have hash_iff : currentHash source location (universalNewlines data) =
      some excerpt.contentHash ↔
        currentLines location (universalNewlines data) ≠ [] ∧
          currentLines location (universalNewlines data) = excerpt.content := by
    unfold currentHash
    rw [hash]
    by_cases empty : currentLines location (universalNewlines data) = []
    · simp [empty]
    · simp only [List.isEmpty_iff, empty, ↓reduceIte, Option.some.injEq, ne_eq, not_false_eq_true,
        true_and]
      exact (collisionFree.comp encode_injective).eq_iff
  rw [hash_iff]
  rcases spec with ⟨_, noContent, _⟩ | ⟨inText, selected⟩
  · rw [noContent]
    constructor
    · rintro ⟨some, none⟩
      exact absurd none some
    · rintro ⟨some, _⟩
      exact absurd rfl some
  · have whole : content = data := by
      rcases retained with same | empty
      · exact same
      · obtain ⟨first, second, third⟩ := inText
        rw [empty, splitLines, List.length_nil] at third
        simp only at first second third
        omega
    subst whole
    have inRange : currentLines location (universalNewlines content) =
        (((splitLines content).extract (excerpt.startLine - 1) excerpt.endLine).map
          universalNewlines).flatten := by
      obtain ⟨first, second, third⟩ := inText
      simp only at first second third
      unfold currentLines selectLines
      rw [splitLines_universalNewlines, sameStart, sameEnd]
      simp only [List.length_map]
      rw [if_neg (by simp only [Bool.or_eq_true, decide_eq_true_eq]; omega)]
      rw [List.extract_eq_take_drop, List.extract_eq_take_drop, List.map_take, List.map_drop]
    rw [inRange, selected, selectLines, flatten_universalNewlines_eq_iff]
    constructor
    · rintro ⟨someLines, absent⟩
      refine ⟨?_, absent⟩
      rwa [(flatten_universalNewlines_eq_iff _).mpr absent] at someLines
    · rintro ⟨someLines, absent⟩
      refine ⟨?_, absent⟩
      rwa [(flatten_universalNewlines_eq_iff _).mpr absent]

variable [DecidableEq Digest]

/-- The location of an excerpt in an unchanged file is valid exactly when the file is not reached
through a link, the excerpt is some text without carriage returns, and a file that the package
lists is an encoding without carriage returns. -/
theorem unchanged_excerpt_valid_iff (collisionFree : Function.Injective source.sha256)
    (unchanged : Unchanged repository captures) (built : BuiltFrom source captures package)
    {capture : Capture lower control matcher} (member : capture ∈ captures)
    {excerpt : ContextExcerpt Digest} (inPackage : excerpt ∈ package.excerpts)
    (samePath : excerpt.path = capture.path.text) {location : Location Digest}
    (locationPath : location.path = excerpt.path)
    (sameStart : location.startLine = excerpt.startLine)
    (sameEnd : location.endLine = excerpt.endLine)
    (sameHash : location.contentHash = some excerpt.contentHash)
    (noSymbol : location.symbol = none) :
    (validateLocation source lower control repository location
        (some (contextHashIndex [package]))).valid = true ↔
      repository.entry capture.path = .file capture.data ∧
        (excerpt.content ≠ [] ∧ '\r' ∉ excerpt.content) ∧
          ((∃ file ∈ package.repositoryFiles, file.1 = capture.path.text) →
            ∃ text, capture.data = encode text ∧ '\r' ∉ text) := by
  have locationText := locationPath.trans samePath
  have resolved : resolveLocation lower control repository capture.path.text = _ :=
    resolveLocation_text capture
  rcases unchanged.present capture member with present | linked
  case inr =>
    rw [linked] at resolved
    unfold validateLocation
    rw [locationText, resolved, linked]
    simp
  rw [present] at resolved
  obtain ⟨hash, spec⟩ := built.excerpt_spec unchanged member inPackage samePath
  have retained : (capture.file source).content = decode capture.data ∨
      (capture.file source).content = [] := by
    unfold Capture.file captureFile
    cases capture.retained
    · exact Or.inr rfl
    · exact Or.inl rfl
  have fromContext := built.get?_excerpt unchanged member inPackage samePath
  have fromFile := built.get?_file unchanged member
  have lines_iff := currentHash_eq_iff collisionFree sameStart sameEnd hash spec retained
  have snapshot_iff : source.sha256 capture.data =
      source.hashText (universalNewlines (decode capture.data)) ↔
        ∃ text, capture.data = encode text ∧ '\r' ∉ text := by
    unfold Syntax.hashText
    rw [collisionFree.eq_iff]
    exact encode_universalNewlines_decode_iff capture.data
  have range_of_lines : currentHash source location (universalNewlines (decode capture.data)) =
      some excerpt.contentHash →
        rangeErrors location (universalNewlines (decode capture.data)) = [] := by
    intro found
    unfold rangeErrors
    refine if_neg fun exceeds => ?_
    unfold currentHash currentLines at found
    rw [if_pos exceeds] at found
    cases found
  have noSymbolErrors : symbolErrors location (universalNewlines (decode capture.data)) = [] := by
    unfold symbolErrors
    rw [noSymbol]
  have context_iff : contextErrors source location (universalNewlines (decode capture.data))
      (contextHashIndex [package]) = [] ↔
        ((∃ file ∈ package.repositoryFiles, file.1 = capture.path.text) →
          ∃ text, capture.data = encode text ∧ '\r' ∉ text) := by
    unfold contextErrors
    rw [locationPath, sameStart, sameEnd, fromContext, samePath, fromFile, sameHash, ← snapshot_iff]
    split <;> simp_all
  have expected : ((contextHashIndex [package]).get?
      (location.path, location.startLine, location.endLine)).or location.contentHash =
        some excerpt.contentHash := by
    rw [locationPath, sameStart, sameEnd, fromContext, Option.some_or]
  unfold validateLocation
  rw [← locationText] at resolved
  rw [resolved]
  have changed_iff : (if ((some excerpt.contentHash).isSome &&
        currentHash source location (universalNewlines (decode capture.data)) ≠
          some excerpt.contentHash) = true then
      ["location content changed since context construction"] else []) = [] ↔
      currentHash source location (universalNewlines (decode capture.data)) =
        some excerpt.contentHash := by
    simp
  simp only [expected, Option.elim_some, List.isEmpty_iff, List.append_eq_nil_iff, noSymbolErrors,
    and_true, context_iff, changed_iff, ← lines_iff]
  constructor
  · rintro ⟨⟨_, whole⟩, found⟩
    exact ⟨present, found, whole⟩
  · rintro ⟨_, found, whole⟩
    exact ⟨⟨range_of_lines found, whole⟩, found⟩

/-- A location whose claimed hash is not the hash of the lines that are read now is invalid,
whatever the context says. -/
theorem stale_location_invalid {location : Location Digest} {claimed : Digest}
    (supplied : location.contentHash = some claimed)
    (contextHashes : Option (Dict HashKey Digest))
    (differs : ∀ data, resolveLocation lower control repository location.path = .ok data →
      currentHash source location (universalNewlines (decode data)) ≠ some claimed) :
    (validateLocation source lower control repository location contextHashes).valid = false := by
  unfold validateLocation
  cases resolved : resolveLocation lower control repository location.path with
  | error error => rfl
  | ok data =>
      have differs := differs data resolved
      rw [Bool.eq_false_iff]
      simp only [List.isEmpty_iff, List.append_eq_nil_iff, ne_eq]
      rintro ⟨⟨⟨_, context⟩, unchanged⟩, _⟩
      cases contextHashes with
      | none => simp [supplied, differs] at unchanged
      | some index =>
          cases fromContext :
              index.get? (location.path, location.startLine, location.endLine) with
          | none => simp [fromContext, supplied, differs] at unchanged
          | some hash =>
              by_cases same : claimed = hash
              · subst same
                simp [fromContext, differs] at unchanged
              · simp [contextErrors, fromContext, supplied, same] at context

end Unchanged

/-! ## Two files with different line ends -/

/-- The hash is the bytes themselves, and there is no Python. -/
def plainSyntax : Syntax (List UInt8) where
  parsePython _ := none
  isSpace char := char = ' ' || char = '\n' || char = '\r' || char = '\t'
  isWord char := char.isAlphanum || char = '_'
  sha256 := id
  nodesInText := by
    intro content nodes parsed
    cases parsed

def contractName : Name :=
  ⟨"A.sol".toList, by decide, by decide, by decide⟩

/-- A contract in one line, with the given end of the line. -/
def contractCapture (lineEnd : List Char) (isText : isBinary (encode ("contract A {}".toList ++
    lineEnd)) = false) : Capture id (fun _ => false) (.ofUserRules []) where
  path := [contractName]
  data := encode ("contract A {}".toList ++ lineEnd)
  retained := true
  categories := []
  nonempty := by decide
  isSupported := by decide +kernel
  notIgnored := by decide +kernel
  isText := isText

def feedCapture : Capture id (fun _ => false) (.ofUserRules []) :=
  contractCapture ['\n'] (by decide +kernel)

def returnCapture : Capture id (fun _ => false) (.ofUserRules []) :=
  contractCapture ['\r', '\n'] (by decide +kernel)

/-- A repository with one file. -/
def oneFile (capture : Capture id (fun _ => false) (.ofUserRules [])) : Repository where
  entry path := if path = capture.path then .file capture.data else .missing

/-- The package of one file, listed and excerpted as a whole. -/
def wholePackage (capture : Capture id (fun _ => false) (.ofUserRules [])) :
    ContextPackage (List UInt8) where
  repositoryFiles := [(capture.path.text, capture.data)]
  excerpts := (plainSyntax.chunkText id capture.path.text (capture.file plainSyntax).content
    capture.categories 48000).excerpts

/-- The first line of the file, with the hash of the given text. -/
def firstLine (content : List Char) : Location (List UInt8) where
  path := Path.text [contractName]
  startLine := 1
  endLine := 1
  symbol := none
  contentHash := some (encode content)
  positive := le_rfl
  ordered := le_rfl

theorem wholePackage_builtFrom (capture : Capture id (fun _ => false) (.ofUserRules [])) :
    BuiltFrom plainSyntax [capture] (wholePackage capture) where
  listed := by
    intro file member
    obtain rfl := List.mem_singleton.mp member
    exact ⟨capture, List.mem_singleton_self _, rfl⟩
  chunked := fun excerpt member => ⟨capture, List.mem_singleton_self _, 48000, member⟩

theorem oneFile_unchanged (capture : Capture id (fun _ => false) (.ofUserRules [])) :
    Unchanged (oneFile capture) [capture] where
  distinct := List.nodup_singleton _
  present := by
    intro other member
    obtain rfl := List.mem_singleton.mp member
    exact Or.inl (if_pos rfl)

end Context

end MmAudit
