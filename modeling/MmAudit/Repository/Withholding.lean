import MmAudit.Repository.Walking

/-!
# What discovery tells about the prior audit

The prior audit is withheld after the whole walk, but it has taken a place and some of the
retained bytes by then.  So a file after it can lose its content, or its place, because of
what the prior audit holds.  The main result says exactly when that happens.
-/

namespace MmAudit

namespace Discovery

open Ignore TextLines Context Collecting Fallible

/-! ## The walk visits a file once -/

section Walk

variable (tree : FileTree) (rules : Rules) (config : DiscoveryConfig)

/-- A note about a path is not the note of the limit on files. -/
theorem noteOn_ne_full {path : Path} {ending : String}
    (different : ¬ ending.toList <:+ fullNote) :
    noteOn path ending ≠ fullNote :=
  fun same => different ⟨path.text, same⟩

/-- A directory is not omitted with the note of the limit on files. -/
theorem directoryFate_omitted {visited : List Path} {relative : Path} {text : List Char}
    (fate : directoryFate tree rules config visited relative = .ok (.omitted text)) :
    text ≠ fullNote := by
  unfold directoryFate at fate
  split at fate
  · cases fate
    decide
  · obtain ⟨pruned, -, fate⟩ := bind_eq_ok_iff.mp fate
    split at fate
    · cases fate
    · split at fate
      · unfold linkedDirectoryFate at fate
        split at fate
        · cases fate
          exact noteOn_ne_full (by decide)
        · cases fate
          exact noteOn_ne_full (by decide)
        · split at fate
          · cases fate
            exact noteOn_ne_full (by decide)
          · obtain ⟨-, -, fate⟩ := bind_eq_ok_iff.mp fate
            obtain ⟨sensitive, -, fate⟩ := bind_eq_ok_iff.mp fate
            split at fate
            · cases fate
              exact noteOn_ne_full (by decide)
            · split at fate
              · cases fate
                exact noteOn_ne_full (by decide)
              · cases fate
      · cases fate

/-- A visit that is no file, and not the note of the limit on files. -/
def Visit.Aside : Visit → Prop
  | .note text => text ≠ fullNote
  | .failure _ => True
  | .file _ => False

/-- A directory adds notes and errors only, and enters some of its directories. -/
theorem foldl_selectDirectory (directory : Path) (names : List Name) (start : Selection) :
    ∃ visits retained visited, names.foldl (selectDirectory tree rules config directory) start =
        ⟨start.visits ++ visits, start.retained ++ retained, visited⟩ ∧
      (∀ visit ∈ visits, visit.Aside) ∧ List.Sublist retained names := by
  induction names generalizing start with
  | nil => exact ⟨[], [], start.visited, by simp, by simp, List.Sublist.refl _⟩
  | cons name names ih =>
      obtain ⟨visits, retained, visited, result, aside, sublist⟩ :=
        ih (selectDirectory tree rules config directory start name)
      rw [List.foldl_cons, result]
      unfold selectDirectory
      split
      · next error _ =>
          exact ⟨.failure error :: visits, retained, visited, by simp,
            List.forall_mem_cons.mpr ⟨trivial, aside⟩, sublist.cons _⟩
      · exact ⟨visits, retained, visited, rfl, aside, sublist.cons _⟩
      · next text fate =>
          exact ⟨.note text :: visits, retained, visited, by simp, List.forall_mem_cons.mpr
            ⟨directoryFate_omitted tree rules config fate, aside⟩, sublist.cons _⟩
      · exact ⟨visits, name :: retained, visited, by simp, aside, sublist.cons_cons _⟩
      · exact ⟨visits, name :: retained, visited, by simp, aside, sublist.cons_cons _⟩

theorem selectDirectories_spec (directory : Path) (visited : List Path) :
    (∀ visit ∈ (selectDirectories tree rules config directory visited).visits, visit.Aside) ∧
      (selectDirectories tree rules config directory visited).retained.Nodup ∧
      (selectDirectories tree rules config directory visited).retained.length ≤
        (tree.directoryNames directory).length := by
  obtain ⟨visits, retained, visited', result, aside, sublist⟩ := foldl_selectDirectory tree rules
    config directory (sortedNames (tree.directoryNames directory)) ⟨[], [], visited⟩
  have sorted : (sortedNames (tree.directoryNames directory)).Perm (tree.directoryNames directory) :=
    List.perm_insertionSort _ _
  unfold selectDirectories
  rw [result]
  refine ⟨by simpa using aside, ?_, ?_⟩
  · exact (sorted.nodup_iff.mpr (tree.directoryNodup directory)).sublist sublist
  · exact sublist.length_le.trans sorted.length_eq.le

/-- More steps than there are entries left make no difference. -/
theorem walkWithin_succ (fuel walked : ℕ) (visited stack : List Path)
    (enough : config.maxWalkEntries - walked + stack.length ≤ fuel) :
    walkWithin tree rules config (fuel + 1) walked visited stack =
      walkWithin tree rules config fuel walked visited stack := by
  induction fuel generalizing walked visited stack with
  | zero =>
      obtain rfl : stack = [] := List.length_eq_zero_iff.mp (by omega)
      rfl
  | succ fuel ih =>
      cases stack with
      | nil => rfl
      | cons directory stack =>
          rw [walkWithin, walkWithin]
          dsimp only
          split
          · rfl
          · next within =>
              congr 1
              refine ih _ _ _ ?_
              have entered := (selectDirectories_spec tree rules config directory visited).2.2
              rw [List.length_cons] at enough
              rw [List.length_append, List.length_map]
              omega

/-- The directory lies above the file. -/
def isAbove (path directory : Path) : Bool :=
  directory.isPrefixOf path && decide (directory.length < path.length)

/-- What a directory adds to the visits of a file, and to the directories above the file. -/
theorem count_directory_le {names retained : List Name} (namesNodup : names.Nodup)
    (retainedNodup : retained.Nodup) (directory path : Path) :
    (names.map fun name => Visit.file (directory ++ [name])).count (.file path) +
        (retained.map (directory ++ [·])).countP (isAbove path) ≤
      if isAbove path directory then 1 else 0 := by
  have fileCount : (names.map fun name => Visit.file (directory ++ [name])).count (.file path) =
      names.countP fun name => decide (directory ++ [name] = path) := by
    rw [List.count, List.countP_map]
    exact List.countP_congr fun name _ => by simp
  rw [fileCount, List.countP_map]
  by_cases isPrefix : directory <+: path
  · obtain ⟨rest, rfl⟩ := isPrefix
    have oneOf : ∀ {list : List Name} (name : Name), list.Nodup →
        (list.countP fun other => decide (other = name)) ≤ 1 := by
      intro list name nodup
      have counted := List.nodup_iff_count_le_one.mp nodup name
      rwa [List.count] at counted
    rcases rest with _ | ⟨name, _ | ⟨next, rest⟩⟩
    · simp [isAbove]
    · have none : retained.countP (isAbove (directory ++ [name]) ∘ (directory ++ [·])) = 0 := by
        simp [List.countP_eq_zero, isAbove]
      rw [none, if_pos (by simp [isAbove])]
      simpa using oneOf name namesNodup
    · have none : names.countP (fun other =>
          decide (directory ++ [other] = directory ++ name :: next :: rest)) = 0 := by
        simp
      rw [none, if_pos (by simp [isAbove]), Nat.zero_add]
      refine le_trans (List.countP_mono_left fun other _ => ?_) (oneOf name retainedNodup)
      simp [isAbove]
  · have noFile : names.countP (fun name => decide (directory ++ [name] = path)) = 0 := by
      rw [List.countP_eq_zero]
      intro name _ same
      exact isPrefix ⟨[name], of_decide_eq_true same⟩
    have noDirectory : retained.countP (isAbove path ∘ (directory ++ [·])) = 0 := by
      rw [List.countP_eq_zero]
      intro name _ lies
      rw [Function.comp_apply, isAbove, Bool.and_eq_true, List.isPrefixOf_iff_prefix] at lies
      exact isPrefix ((List.prefix_append _ _).trans lies.1)
    rw [noFile, noDirectory]
    exact Nat.zero_le _

/-- The walk visits a file at most as often as it starts above it. -/
theorem count_walkWithin_le (fuel walked : ℕ) (visited stack : List Path) (path : Path) :
    (walkWithin tree rules config fuel walked visited stack).count (.file path) ≤
      stack.countP (isAbove path) := by
  induction fuel generalizing walked visited stack with
  | zero => simp [walkWithin]
  | succ fuel ih =>
      cases stack with
      | nil => simp [walkWithin]
      | cons directory stack =>
          rw [walkWithin]
          dsimp only
          split
          · simp
          · obtain ⟨aside, nodup, -⟩ := selectDirectories_spec tree rules config directory visited
            have noVisit : (selectDirectories tree rules config directory visited).visits.count
                (.file path) = 0 :=
              List.count_eq_zero.mpr fun member => aside _ member
            have sorted : (sortedNames (tree.fileNames directory)).Nodup :=
              (List.perm_insertionSort _ _).nodup_iff.mpr (tree.fileNodup directory)
            have own := count_directory_le sorted nodup directory path
            have later := ih (walked + (tree.directoryNames directory).length +
                (tree.fileNames directory).length)
              (selectDirectories tree rules config directory visited).visited
              ((selectDirectories tree rules config directory visited).retained.map
                (directory ++ [·]) ++ stack)
            rw [List.countP_append] at later
            rw [List.count_append, List.count_append, noVisit, List.countP_cons]
            omega

/-- What the walk comes across besides files. -/
theorem aside_or_file_of_mem_walkWithin (fuel walked : ℕ) (visited stack : List Path)
    {visit : Visit} (member : visit ∈ walkWithin tree rules config fuel walked visited stack) :
    visit.Aside ∨ ∃ path, visit = .file path := by
  induction fuel generalizing walked visited stack with
  | zero => cases member
  | succ fuel ih =>
      cases stack with
      | nil => cases member
      | cons directory stack =>
          rw [walkWithin] at member
          dsimp only at member
          split at member
          · obtain rfl := List.mem_singleton.mp member
            exact Or.inl (by unfold Visit.Aside; decide)
          · rcases List.mem_append.mp member with member | later
            · rcases List.mem_append.mp member with aside | file
              · exact Or.inl ((selectDirectories_spec tree rules config directory visited).1 _ aside)
              · obtain ⟨name, -, rfl⟩ := List.mem_map.mp file
                exact Or.inr ⟨_, rfl⟩
            · exact ih _ _ _ later

end Walk

/-! ## What the bytes of one file change -/

section Content

variable {Digest : Type} (mapping : Mapping Digest) (tree : FileTree) (rules : Rules)
  (config : DiscoveryConfig) (changed : Finset (List Char))

theorem walkWithin_withContent (path : Path) (data : List UInt8) (fuel walked : ℕ)
    (visited stack : List Path) :
    walkWithin (tree.withContent path data) rules config fuel walked visited stack =
      walkWithin tree rules config fuel walked visited stack := by
  induction fuel generalizing walked visited stack with
  | zero => rfl
  | succ fuel ih =>
      cases stack with
      | nil => rfl
      | cons directory stack =>
          rw [walkWithin, walkWithin]
          simp only [ih]
          rfl

/-- The walk does not look into files. -/
theorem walk_withContent (path : Path) (data : List UInt8) :
    walk (tree.withContent path data) rules config = walk tree rules config :=
  walkWithin_withContent ..

theorem readFile_withContent_of_ne {path other : Path} (different : other ≠ path)
    (data : List UInt8) (target : Path) :
    readFile mapping (tree.withContent path data) config changed other target =
      readFile mapping tree config changed other target := by
  unfold readFile FileTree.withContent
  simp only [if_neg different]

theorem visitOutcome_withContent_of_ne {path : Path} {visit : Visit}
    (different : visit ≠ .file path) (data : List UInt8) :
    visitOutcome mapping (tree.withContent path data) rules config changed visit =
      visitOutcome mapping tree rules config changed visit := by
  cases visit with
  | note text => rfl
  | failure error => rfl
  | file other =>
      have otherPath : other ≠ path := fun same => different (by rw [same])
      unfold visitOutcome fileOutcome linkedFileOutcome
      simp only [readFile_withContent_of_ne mapping tree config changed otherPath]
      rfl

/-- The endings of the notes about a file that is read. -/
def readNotes : List String :=
  [": unreadable", ": hardlink excluded", ": exceeds max_file_bytes", ": binary"]

/-- What comes of a file that is read. -/
theorem readFile_cases (path target : Path) :
    (∃ ending ∈ readNotes,
        readFile mapping tree config changed path target = .note (noteOn path ending)) ∨
      readFile mapping tree config changed path target = .nothing ∨
      ∃ data, tree.read path = some data ∧ readFile mapping tree config changed path target =
        .item (mapFile mapping changed path target data) := by
  unfold readFile
  split
  · exact Or.inl ⟨": unreadable", by decide, rfl⟩
  · split
    · exact Or.inl ⟨": hardlink excluded", by decide, rfl⟩
    · split
      · exact Or.inl ⟨": exceeds max_file_bytes", by decide, rfl⟩
      · split
        · exact Or.inl ⟨": unreadable", by decide, rfl⟩
        · next data isData =>
            split
            · exact Or.inl ⟨": binary", by decide, rfl⟩
            · split
              · exact Or.inr (Or.inr ⟨data, isData, rfl⟩)
              · exact Or.inr (Or.inl rfl)

theorem aboutPrior_readNote {path : Path} {ending : String} (listed : ending ∈ readNotes) :
    aboutPrior path (noteOn path ending) = true := by
  unfold aboutPrior noteOn
  rw [List.isPrefixOf_iff_prefix, List.prefix_append_right_inj]
  revert ending
  decide

theorem readNote_ne_full {path : Path} {ending : String} (listed : ending ∈ readNotes) :
    noteOn path ending ≠ fullNote := by
  refine noteOn_ne_full ?_
  revert ending
  decide

/-- The tree has the same links. -/
def SameLinks (other : FileTree) : Prop :=
  other.isLink = tree.isLink ∧ other.resolve = tree.resolve

/-- The file is not read, whatever the files hold, or it is read. -/
def ReadOrNot (path : Path) (outcomeOf : FileTree → FileOutcome Digest) : Prop :=
  (∃ outcome : FileOutcome Digest, (∀ file, outcome ≠ .item file) ∧
      outcome ≠ .note fullNote ∧
      ∀ other, SameLinks tree other → outcomeOf other = outcome) ∨
    ∃ target, ∀ other, SameLinks tree other →
      outcomeOf other = readFile mapping other config changed path target

theorem note_ne_full {path : Path} {ending : String}
    (different : ¬ ending.toList <:+ fullNote) :
    (Outcome.note (noteOn path ending) : FileOutcome Digest) ≠
      .note fullNote :=
  fun same => noteOn_ne_full different (Outcome.note.inj same)

theorem linkedFileOutcome_cases (path : Path) :
    ReadOrNot mapping tree config changed path
      fun other => linkedFileOutcome mapping other rules config changed path := by
  unfold linkedFileOutcome
  cases resolved : tree.resolve path with
  | broken =>
      refine Or.inl ⟨.note (noteOn path ": broken symlink"), by simp, note_ne_full (by decide),
        fun other same => ?_⟩
      simp only [same.2, resolved]
  | outside =>
      refine Or.inl ⟨.note (noteOn path ": symlink excluded"), by simp, note_ne_full (by decide),
        fun other same => ?_⟩
      simp only [same.2, resolved]
  | inside target =>
      cases follow : config.followSymlinks with
      | false =>
          refine Or.inl ⟨.note (noteOn path ": symlink excluded"), by simp,
            note_ne_full (by decide), fun other same => ?_⟩
          simp only [same.2, resolved, Bool.not_false, if_true]
      | true =>
          cases allowed : rules.normalizes target with
          | error error =>
              refine Or.inl ⟨.failure error, by simp, by simp, fun other same => ?_⟩
              simp only [same.2, resolved, allowed, Bool.not_true, Bool.false_eq_true, if_false]
          | ok _ =>
              cases decided : rules.ignored target false with
              | error error =>
                  refine Or.inl ⟨.failure error, by simp, by simp, fun other same => ?_⟩
                  simp only [same.2, resolved, allowed, decided, Bool.not_true,
                    Bool.false_eq_true, if_false]
              | ok ignored =>
                  cases ignored with
                  | true =>
                      refine Or.inl ⟨.note (noteOn path ": sensitive symlink target excluded"),
                        by simp, note_ne_full (by decide), fun other same => ?_⟩
                      simp only [same.2, resolved, allowed, decided, Bool.not_true,
                        Bool.false_eq_true, if_false]
                  | false =>
                      refine Or.inr ⟨target, fun other same => ?_⟩
                      simp only [same.2, resolved, allowed, decided, Bool.not_true,
                        Bool.false_eq_true, if_false]

theorem fileOutcome_cases (path : Path) :
    ReadOrNot mapping tree config changed path
      fun other => fileOutcome mapping other rules config changed path := by
  unfold fileOutcome
  cases rules.normalizes path with
  | error error =>
      exact Or.inl ⟨_, by simp, fun same => absurd (Outcome.note.inj same) (by decide),
        fun _ _ => rfl⟩
  | ok _ =>
      cases rules.ignored path false with
      | error error => exact Or.inl ⟨_, by simp, by simp, fun _ _ => rfl⟩
      | ok ignored =>
          cases ignored with
          | true => exact Or.inl ⟨.nothing, by simp, by simp, fun _ _ => rfl⟩
          | false =>
              cases linked : tree.isLink path with
              | true =>
                  rcases linkedFileOutcome_cases mapping tree rules config changed path with
                    ⟨outcome, noItem, notFull, fixed⟩ | ⟨target, read⟩
                  · refine Or.inl ⟨outcome, noItem, notFull, fun other same => ?_⟩
                    simp only [same.1, linked, if_true]
                    exact fixed other same
                  · refine Or.inr ⟨target, fun other same => ?_⟩
                    simp only [same.1, linked, if_true]
                    exact read other same
              | false =>
                  cases resolved : tree.resolve path with
                  | broken =>
                      refine Or.inr ⟨path, fun other same => ?_⟩
                      simp only [same.1, same.2, linked, resolved, Bool.false_eq_true, if_false]
                  | outside =>
                      refine Or.inl ⟨.note (noteOn path ": escaped repository"), by simp,
                        note_ne_full (by decide), fun other same => ?_⟩
                      simp only [same.1, same.2, linked, resolved, Bool.false_eq_true, if_false]
                  | inside target =>
                      refine Or.inr ⟨target, fun other same => ?_⟩
                      simp only [same.1, same.2, linked, resolved, Bool.false_eq_true, if_false]

/-- No file is omitted with the note of the limit on files. -/
theorem fileOutcome_ne_full (path : Path) :
    fileOutcome mapping tree rules config changed path ≠
      .note fullNote := by
  rcases fileOutcome_cases mapping tree rules config changed path with
    ⟨outcome, -, notFull, fixed⟩ | ⟨target, read⟩
  · have result := fixed tree ⟨rfl, rfl⟩
    exact fun same => notFull (result.symm.trans same)
  · have isRead := read tree ⟨rfl, rfl⟩
    dsimp only at isRead
    rw [isRead]
    rcases readFile_cases mapping tree config changed path target with
      ⟨ending, listed, result⟩ | result | ⟨data, -, result⟩ <;> rw [result]
    · exact fun same => readNote_ne_full listed (Outcome.note.inj same)
    · simp
    · simp

/-- A collected file is a file that was read at its path. -/
theorem fileOutcome_item {path : Path} {file : MappedFile Digest}
    (outcome : fileOutcome mapping tree rules config changed path = .item file) :
    ∃ target data, file = mapFile mapping changed path target data := by
  rcases fileOutcome_cases mapping tree rules config changed path with
    ⟨fixedOutcome, noItem, -, fixed⟩ | ⟨target, read⟩
  · exact absurd ((fixed tree ⟨rfl, rfl⟩).symm.trans outcome) (noItem file)
  · have isRead := (read tree ⟨rfl, rfl⟩).symm.trans outcome
    rcases readFile_cases mapping tree config changed path target with
      ⟨ending, -, result⟩ | result | ⟨data, -, result⟩ <;> rw [result] at isRead <;> cases isRead
    exact ⟨target, data, rfl⟩

end Content

/-! ## What is seen of the other files -/

/-- A text that is translated from some bytes is not empty. -/
theorem decode_eq_nil_iff (data : List UInt8) : decode data = [] ↔ data = [] := by
  constructor
  · intro empty
    cases data with
    | nil => rfl
    | cons byte data =>
        unfold decode at empty
        rw [List.length_cons, decodeWithin] at empty
        split at empty <;> cases empty
  · rintro rfl
    rfl

section Seen

variable {Digest : Type} (mapping : Mapping Digest) (tree : FileTree) (rules : Rules)
  (config : DiscoveryConfig) (changed : Finset (List Char)) (prior : PriorAuditPath)

/-- The note of the limit on files is not about the prior audit. -/
theorem aboutPrior_full : aboutPrior prior.path fullNote = false := by
  rw [Bool.eq_false_iff]
  intro about
  obtain ⟨rest, split⟩ := List.isPrefixOf_iff_prefix.mp about
  have whole : prior.path.text ++ ':' :: rest = fullNote := by
    rw [← split, noteOn, List.append_assoc]
    rfl
  have colons := congrArg (List.count ':') whole
  rw [List.count_append, List.count_cons_self,
    show fullNote.count ':' = 1 from by decide] at colons
  have noColon : ':' ∉ prior.path.text := List.count_eq_zero.mp (by omega)
  have head := congrArg (List.takeWhile (· != ':')) whole
  rw [List.takeWhile_append_of_pos (by
      intro char member
      rw [bne_iff_ne]
      rintro rfl
      exact noColon member), List.takeWhile_cons_of_neg (by simp), List.append_nil] at head
  have json := prior.json
  rw [head] at json
  revert json
  decide

theorem filter_full : [fullNote].filter (fun text => !aboutPrior prior.path text) = [fullNote] :=
  List.filter_cons_of_pos ((Bool.not_eq_true' _).mpr (aboutPrior_full prior))

/-- What is kept of the result after the prior audit is withheld. -/
def hide (result : Except ValueError (List (MappedFile Digest) × List (List Char))) :
    Except ValueError (List (MappedFile Digest) × List (List Char)) :=
  result.map fun collected =>
    (collected.1.filter fun file => decide (file.relativePath ≠ prior.path),
      collected.2.filter fun text => !aboutPrior prior.path text)

/-- The outcomes of visits to other files. -/
structure OtherFiles (outcomes : List (FileOutcome Digest)) : Prop where
  notFull : .note fullNote ∉ outcomes
  other : ∀ file, .item file ∈ outcomes → file.relativePath ≠ prior.path
  whole : ∀ file, .item file ∈ outcomes → file.content = [] → file.size = 0

/-- Of a pass over other files, all files are seen. -/
theorem hide_collect {outcomes : List (FileOutcome Digest)}
    (others : OtherFiles prior outcomes) (count used : ℕ) :
    hide prior (collect (fileLimits config) count used outcomes) =
      seen (fun text => !aboutPrior prior.path text)
        (collect (fileLimits config) count used outcomes) := by
  cases result : collect (fileLimits config) count used outcomes with
  | error error => rfl
  | ok collected =>
      obtain ⟨files, notes⟩ := collected
      have all : files.filter (fun file => decide (file.relativePath ≠ prior.path)) = files := by
        refine List.filter_eq_self.mpr fun entry member => decide_eq_true ?_
        obtain ⟨file, found, rfl | rfl⟩ := mem_of_collect (fileLimits config) result member
        · exact others.other entry found
        · exact others.other file found
      simp only [hide, seen, Except.map, all]

theorem OtherFiles.tellsFull {outcomes : List (FileOutcome Digest)}
    (others : OtherFiles prior outcomes) : TellsFull (fileLimits config) outcomes where
  overflow file := noteOn_ne_full (by decide)
  outcomes := others.notFull

theorem OtherFiles.telling {outcomes : List (FileOutcome Digest)}
    (others : OtherFiles prior outcomes) : Telling (fileLimits config) (itemsOf outcomes) := by
  intro file member stripped
  refine others.whole file (mem_of_mem_itemsOf member) ?_
  exact (congrArg MappedFile.content stripped).symm

theorem otherFiles_of_visits {visits : List Visit} (noPrior : .file prior.path ∉ visits)
    (sides : ∀ visit ∈ visits, visit.Aside ∨ ∃ path, visit = .file path) :
    OtherFiles prior (visits.map (visitOutcome mapping tree rules config changed)) where
  notFull := by
    intro member
    obtain ⟨visit, visitMem, same⟩ := List.mem_map.mp member
    rcases sides visit visitMem with aside | ⟨path, rfl⟩
    · cases visit with
      | note text => exact aside (Outcome.note.inj same)
      | failure error => cases same
      | file path => exact aside
    · exact fileOutcome_ne_full mapping tree rules config changed path same
  other := by
    intro file member
    obtain ⟨visit, visitMem, same⟩ := List.mem_map.mp member
    cases visit with
    | note text => cases same
    | failure error => cases same
    | file path =>
        obtain ⟨target, data, rfl⟩ := fileOutcome_item mapping tree rules config changed same
        rintro rfl
        exact noPrior visitMem
  whole := by
    intro file member
    obtain ⟨visit, visitMem, same⟩ := List.mem_map.mp member
    cases visit with
    | note text => cases same
    | failure error => cases same
    | file path =>
        obtain ⟨target, data, rfl⟩ := fileOutcome_item mapping tree rules config changed same
        intro empty
        rw [mapFile, (decode_eq_nil_iff data).mp empty]
        rfl

/-! ## When the prior audit stays hidden -/

/-- The file is kept, as far as its own bytes go. -/
def Kept (data : List UInt8) : Prop :=
  (fileOutcome mapping (tree.withContent prior.path data) rules config changed
    prior.path).isItem = true

instance (data : List UInt8) : Decidable (Kept mapping tree rules config changed prior data) :=
  inferInstanceAs (Decidable (_ = true))

/-- The bytes that the prior audit takes when so many are used before it. -/
def takes (used : ℕ) (data : List UInt8) : ℕ :=
  if Kept mapping tree rules config changed prior data ∧
      used + data.length ≤ config.maxDiscoveryBytes then
    data.length
  else
    0

/-- What follows the prior audit in a pass that has collected `count` files before it. -/
def afterPrior (count used : ℕ) (outcomes : List (FileOutcome Digest)) (data : List UInt8) :
    Except ValueError (List (MappedFile Digest) × List (List Char)) :=
  hide prior (collect (fileLimits config) count used
    (fileOutcome mapping (tree.withContent prior.path data) rules config changed prior.path ::
      outcomes))

/-- The prior audit is not kept, or it takes a place and maybe some room, or it takes the last
place. -/
theorem afterPrior_cases {outcomes : List (FileOutcome Digest)}
    (others : OtherFiles prior outcomes) (count used : ℕ)
    (read : ∃ target, ∀ data,
      fileOutcome mapping (tree.withContent prior.path data) rules config changed prior.path =
        readFile mapping (tree.withContent prior.path data) config changed prior.path target)
    (data : List UInt8) :
    (¬ Kept mapping tree rules config changed prior data ∧
        afterPrior mapping tree rules config changed prior count used outcomes data =
          seen (fun text => !aboutPrior prior.path text)
            (collect (fileLimits config) count used outcomes)) ∨
      Kept mapping tree rules config changed prior data ∧
        ((count + 1 < config.maxFiles ∧
          afterPrior mapping tree rules config changed prior count used outcomes data =
            seen (fun text => !aboutPrior prior.path text)
              (collect (fileLimits config) (count + 1)
                (used + takes mapping tree rules config changed prior used data) outcomes)) ∨
        (config.maxFiles ≤ count + 1 ∧
          afterPrior mapping tree rules config changed prior count used outcomes data =
            .ok ([], [fullNote]))) := by
  obtain ⟨target, read⟩ := read
  unfold afterPrior
  rcases readFile_cases mapping (tree.withContent prior.path data) config changed prior.path target
    with ⟨ending, listed, result⟩ | result | ⟨bytes, isBytes, result⟩
  · refine Or.inl ⟨?_, ?_⟩
    · intro kept
      rw [Kept, read, result] at kept
      cases kept
    · rw [read, result, collect, ← hide_collect config prior others]
      cases collect (fileLimits config) count used outcomes with
      | error error => rfl
      | ok collected =>
          simp only [hide, Except.map, List.filter_cons, aboutPrior_readNote listed,
            Bool.not_true, Bool.false_eq_true, if_false]
  · refine Or.inl ⟨?_, ?_⟩
    · intro kept
      rw [Kept, read, result] at kept
      cases kept
    · rw [read, result, collect, ← hide_collect config prior others]
  · have kept : Kept mapping tree rules config changed prior data := by
      rw [Kept, read, result]
      rfl
    obtain rfl : bytes = data := by
      unfold FileTree.withContent at isBytes
      simp only [if_true, Option.map_eq_some_iff] at isBytes
      obtain ⟨-, -, same⟩ := isBytes
      exact same.symm
    refine Or.inr ⟨kept, ?_⟩
    have hiddenNotes : ∀ fits, (overflowNotes (fileLimits config) fits
        (mapFile mapping changed prior.path target bytes)).filter
          (fun text => !aboutPrior prior.path text) = [] := by
      intro fits
      cases fits with
      | true => rfl
      | false =>
          have about : aboutPrior prior.path (noteOn prior.path
              ": mapped without content after max_discovery_bytes") = true := by
            unfold aboutPrior noteOn
            rw [List.isPrefixOf_iff_prefix, List.prefix_append_right_inj]
            decide
          rw [overflowNotes, if_neg Bool.false_ne_true]
          change List.filter _ [noteOn prior.path _] = []
          rw [List.filter_cons_of_neg (by simp [about])]
          rfl
    have hiddenFile : ∀ fits, decide ((enter (fileLimits config) fits
        (mapFile mapping changed prior.path target bytes)).relativePath ≠ prior.path) = false := by
      intro fits
      cases fits <;> simp [enter, fileLimits, mapFile]
    have taken : use (fileLimits config) used (mapFile mapping changed prior.path target bytes) =
        used + takes mapping tree rules config changed prior used bytes := by
      unfold use fits takes
      simp only [kept, true_and, decide_eq_true_eq]
      change (if used + bytes.length ≤ config.maxDiscoveryBytes then used + bytes.length else used) =
        used + if used + bytes.length ≤ config.maxDiscoveryBytes then bytes.length else 0
      split <;> rfl
    rw [read, result, collect]
    by_cases last : config.maxFiles ≤ count + 1
    · refine Or.inr ⟨last, ?_⟩
      rw [if_pos (show (fileLimits config).places ≤ count + 1 from last)]
      simp only [hide, Except.map, List.filter_append, hiddenNotes, List.nil_append]
      rw [List.filter_cons_of_neg (by rw [hiddenFile]; exact Bool.false_ne_true)]
      rw [List.filter_nil, show (@fileLimits Digest config).full = fullNote from rfl,
        filter_full prior]
    · refine Or.inl ⟨by omega, ?_⟩
      rw [if_neg (show ¬ (fileLimits config).places ≤ count + 1 from last), taken,
        ← hide_collect config prior others]
      cases collect (fileLimits config) (count + 1) _ outcomes with
      | error error => rfl
      | ok collected =>
          simp only [hide, Except.map, List.filter_append, hiddenNotes, List.nil_append]
          rw [List.filter_cons_of_neg (by rw [hiddenFile]; exact Bool.false_ne_true)]

/-- With the prior audit kept once and left out once, the passes differ where the last place
counts. -/
theorem afterPrior_ne {outcomes : List (FileOutcome Digest)} (others : OtherFiles prior outcomes)
    {count used : ℕ} (started : count < config.maxFiles)
    (read : ∃ target, ∀ data,
      fileOutcome mapping (tree.withContent prior.path data) rules config changed prior.path =
        readFile mapping (tree.withContent prior.path data) config changed prior.path target)
    {first second : List UInt8} (kept : Kept mapping tree rules config changed prior first)
    (left : ¬ Kept mapping tree rules config changed prior second)
    (reached : ¬ count + 1 + (itemsOf outcomes).length < config.maxFiles) :
    afterPrior mapping tree rules config changed prior count used outcomes first ≠
      afterPrior mapping tree rules config changed prior count used outcomes second := by
  have tells := others.tellsFull config
  have showsFull : (fun text => !aboutPrior prior.path text) (@fileLimits Digest config).full =
      true := (Bool.not_eq_true' _).mpr (aboutPrior_full prior)
  have places : (@fileLimits Digest config).places = config.maxFiles := rfl
  have secondSeen := ((afterPrior_cases mapping tree rules config changed prior others count used read
    second).resolve_right fun both => left both.1).2
  rw [secondSeen]
  obtain ⟨-, ⟨more, result⟩ | ⟨last, result⟩⟩ := (afterPrior_cases mapping tree rules config changed
    prior others count used read first).resolve_left fun both => both.1 kept
  · obtain ⟨notes, full⟩ := @collect_of_full _ _ _ (fileLimits config) (count + 1)
      (used + takes mapping tree rules config changed prior used first) outcomes more
      (not_lt.mp reached)
    rw [result, full]
    refine seen_ne_of_place_more (fileLimits config) _ showsFull tells started
      (List.mem_append_right _ (List.mem_singleton_self _)) ?_
    rw [entries, List.length_zipWith, length_fitting, List.length_take]
    omega
  · have shown : (Except.ok ([], [fullNote]) : Except ValueError
        (List (MappedFile Digest) × List (List Char))) =
        .ok ([], [fullNote].filter fun text => !aboutPrior prior.path text) := by
      rw [filter_full prior]
    rw [result, shown]
    exact seen_ne_of_place_more (fileLimits config) _ showsFull tells started
      (List.mem_singleton_self _) (by
        change count + 1 + 0 = config.maxFiles
        omega)

/-- Two contents of the prior audit look the same after so many files and bytes: both are kept or
both left out, or all files stay below the limit; and of the other files that are collected, the
same ones fit (which does not matter where discovery ends with an error). -/
structure SameAfter (count used : ℕ) (outcomes : List (FileOutcome Digest))
    (first second : List UInt8) : Prop where
  places : (Kept mapping tree rules config changed prior first ↔
      Kept mapping tree rules config changed prior second) ∨
    count + 1 + (itemsOf outcomes).length < config.maxFiles
  room : ((failureOf outcomes).isSome = true ∧
      count + 1 + (itemsOf outcomes).length < config.maxFiles) ∨
    fitting (fileLimits config) (used + takes mapping tree rules config changed prior used first)
        ((itemsOf outcomes).take (config.maxFiles - (count + 1))) =
      fitting (fileLimits config) (used + takes mapping tree rules config changed prior used second)
        ((itemsOf outcomes).take (config.maxFiles - (count + 1)))

theorem takes_of_left {data : List UInt8}
    (left : ¬ Kept mapping tree rules config changed prior data) (used : ℕ) :
    takes mapping tree rules config changed prior used data = 0 :=
  if_neg fun both => left both.1

theorem takes_le {used : ℕ} (within : used ≤ config.maxDiscoveryBytes) (data : List UInt8) :
    used + takes mapping tree rules config changed prior used data ≤ config.maxDiscoveryBytes := by
  unfold takes
  split
  · next both => exact both.2
  · exact within

theorem SameAfter.symm {count used : ℕ} {outcomes : List (FileOutcome Digest)}
    {first second : List UInt8}
    (same : SameAfter mapping tree rules config changed prior count used outcomes first second) :
    SameAfter mapping tree rules config changed prior count used outcomes second first :=
  ⟨same.places.imp_left Iff.symm, same.room.imp_right Eq.symm⟩

/-- One content is kept and the other one is left out. -/
theorem afterPrior_eq_iff_of_one {outcomes : List (FileOutcome Digest)}
    (others : OtherFiles prior outcomes) {count used : ℕ} (started : count < config.maxFiles)
    (within : used ≤ config.maxDiscoveryBytes)
    (read : ∃ target, ∀ data,
      fileOutcome mapping (tree.withContent prior.path data) rules config changed prior.path =
        readFile mapping (tree.withContent prior.path data) config changed prior.path target)
    {first second : List UInt8} (kept : Kept mapping tree rules config changed prior first)
    (left : ¬ Kept mapping tree rules config changed prior second) :
    afterPrior mapping tree rules config changed prior count used outcomes first =
        afterPrior mapping tree rules config changed prior count used outcomes second ↔
      SameAfter mapping tree rules config changed prior count used outcomes first second := by
  by_cases below : count + 1 + (itemsOf outcomes).length < config.maxFiles
  · have firstSeen := (((afterPrior_cases mapping tree rules config changed prior others count used
      read first).resolve_left fun both => both.1 kept).2.resolve_right fun both => by omega).2
    have secondSeen := ((afterPrior_cases mapping tree rules config changed prior others count used
      read second).resolve_right fun both => left both.1).2
    have noneTaken := takes_of_left mapping tree rules config changed prior left used
    have alike := seen_eq_iff_of_samePlaces (fileLimits config)
      (fun text => !aboutPrior prior.path text) (others.telling config)
      (takes_le mapping tree rules config changed prior within first) within
      (show count + 1 < (fileLimits config).places from by
        change count + 1 < config.maxFiles
        omega)
      (Or.inr ⟨below, show count + (itemsOf outcomes).length < config.maxFiles from by omega⟩)
    rw [firstSeen, secondSeen, alike]
    constructor
    · intro same
      exact ⟨Or.inr below, by rw [noneTaken, Nat.add_zero]; exact same⟩
    · intro same
      have room := same.room
      rwa [noneTaken, Nat.add_zero] at room
  · refine iff_of_false (afterPrior_ne mapping tree rules config changed prior others started read
      kept left below) fun same => ?_
    rcases same.places with iff | more
    · exact left (iff.mp kept)
    · exact below more

/-- Passes on from the prior audit look alike exactly if the contents do. -/
theorem afterPrior_eq_iff {outcomes : List (FileOutcome Digest)} (others : OtherFiles prior outcomes)
    {count used : ℕ} (started : count < config.maxFiles)
    (within : used ≤ config.maxDiscoveryBytes) (first second : List UInt8) :
    afterPrior mapping tree rules config changed prior count used outcomes first =
        afterPrior mapping tree rules config changed prior count used outcomes second ↔
      SameAfter mapping tree rules config changed prior count used outcomes first second := by
  rcases fileOutcome_cases mapping tree rules config changed prior.path with
    ⟨outcome, noItem, -, fixed⟩ | ⟨target, isRead⟩
  · have same : ∀ data, fileOutcome mapping (tree.withContent prior.path data) rules config changed
        prior.path = outcome := fun data => fixed _ ⟨rfl, rfl⟩
    have left : ∀ data, ¬ Kept mapping tree rules config changed prior data := by
      intro data kept
      rw [Kept, same] at kept
      cases outcome with
      | item file => exact noItem file rfl
      | nothing => cases kept
      | note text => cases kept
      | failure error => cases kept
    refine iff_of_true ?_ ⟨Or.inl (iff_of_false (left first) (left second)), Or.inr ?_⟩
    · rw [afterPrior, afterPrior, same, same]
    · rw [takes_of_left mapping tree rules config changed prior (left first),
        takes_of_left mapping tree rules config changed prior (left second)]
  · have read : ∃ target, ∀ data, fileOutcome mapping (tree.withContent prior.path data) rules config
        changed prior.path = readFile mapping (tree.withContent prior.path data) config changed
          prior.path target := ⟨target, fun data => isRead _ ⟨rfl, rfl⟩⟩
    by_cases keptFirst : Kept mapping tree rules config changed prior first
    · by_cases keptSecond : Kept mapping tree rules config changed prior second
      · have cases_ := fun data kept => ((afterPrior_cases mapping tree rules config changed prior
          others count used read data).resolve_left fun both => both.1 kept).2
        have keptIff : Kept mapping tree rules config changed prior first ↔
            Kept mapping tree rules config changed prior second := iff_of_true keptFirst keptSecond
        rcases cases_ first keptFirst with ⟨more, firstSeen⟩ | ⟨last, firstSeen⟩
        · have secondSeen := ((cases_ second keptSecond).resolve_right fun both => by omega).2
          have alike := seen_eq_iff_of_samePlaces (fileLimits config)
            (fun text => !aboutPrior prior.path text) (others.telling config)
            (takes_le mapping tree rules config changed prior within first)
            (takes_le mapping tree rules config changed prior within second) more (Or.inl rfl)
          rw [firstSeen, secondSeen, alike]
          exact ⟨fun same => ⟨Or.inl keptIff, same⟩, fun same => same.room⟩
        · have secondSeen := ((cases_ second keptSecond).resolve_left fun both => by omega).2
          refine iff_of_true (firstSeen.trans secondSeen.symm) ⟨Or.inl keptIff, Or.inr ?_⟩
          rw [Nat.sub_eq_zero_of_le last]
          rfl
      · exact afterPrior_eq_iff_of_one mapping tree rules config changed prior others started within
          read keptFirst keptSecond
    · by_cases keptSecond : Kept mapping tree rules config changed prior second
      · have swapped := afterPrior_eq_iff_of_one mapping tree rules config changed prior others
          started within read keptSecond keptFirst
        rw [eq_comm, swapped]
        exact ⟨fun same => same.symm, fun same => same.symm⟩
      · have firstSeen := ((afterPrior_cases mapping tree rules config changed prior others count
          used read first).resolve_right fun both => keptFirst both.1).2
        have secondSeen := ((afterPrior_cases mapping tree rules config changed prior others count
          used read second).resolve_right fun both => keptSecond both.1).2
        refine iff_of_true (firstSeen.trans secondSeen.symm)
          ⟨Or.inl (iff_of_false keptFirst keptSecond), Or.inr ?_⟩
        rw [takes_of_left mapping tree rules config changed prior keptFirst,
          takes_of_left mapping tree rules config changed prior keptSecond]

/-- What discovery tells without the prior audit. -/
def withheld (gitCommit : Option String) (data : List UInt8) :
    Except ValueError (DiscoveryResult Digest × Bool) :=
  (discoverRepository mapping (tree.withContent prior.path data) rules config changed
    gitCommit).map (withholdPriorAuditFromDiscovery · (some prior))

/-- The pass of discovery with these bytes in the prior audit. -/
def passWith (data : List UInt8) :
    Except ValueError (List (MappedFile Digest) × List (List Char)) :=
  collect (fileLimits config) 0 0 ((walk tree rules config).map
    (visitOutcome mapping (tree.withContent prior.path data) rules config changed))

theorem withheld_eq_iff_hide (gitCommit : Option String) (first second : List UInt8) :
    withheld mapping tree rules config changed prior gitCommit first =
        withheld mapping tree rules config changed prior gitCommit second ↔
      hide prior (passWith mapping tree rules config changed prior first) =
        hide prior (passWith mapping tree rules config changed prior second) := by
  have whole : ∀ data, withheld mapping tree rules config changed prior gitCommit data =
      (hide prior (passWith mapping tree rules config changed prior data)).map fun collected =>
        (⟨collected.1, collected.2, changed.filter fun path => path ≠ prior.path.text, gitCommit⟩,
          collected.1.all fun file => decide (file.relativePath ≠ prior.path)) := by
    intro data
    unfold withheld discoverRepository passWith hide
    rw [walk_withContent]
    cases collect (fileLimits config) 0 0 ((walk tree rules config).map
      (visitOutcome mapping (tree.withContent prior.path data) rules config changed)) <;> rfl
  rw [whole, whole]
  constructor
  · intro same
    revert same
    generalize hide prior (passWith mapping tree rules config changed prior first) = result
    generalize hide prior (passWith mapping tree rules config changed prior second) = other
    rcases result with error | ⟨files, notes⟩ <;> rcases other with otherError | ⟨others, otherNotes⟩
    · intro same
      cases same
      rfl
    · intro same
      cases same
    · intro same
      cases same
    · intro same
      obtain ⟨sameResult, -⟩ := Prod.mk.inj (Except.ok.inj same)
      obtain ⟨rfl, rfl, -, -⟩ := DiscoveryResult.mk.inj sameResult
      rfl
  · intro same
    rw [same]

/-- The walk comes to the prior audit once. -/
theorem prior_once {before after : List Visit}
    (split : walk tree rules config = before ++ .file prior.path :: after) :
    .file prior.path ∉ before ∧ .file prior.path ∉ after := by
  have once : (walk tree rules config).count (.file prior.path) ≤ 1 :=
    (count_walkWithin_le tree rules config (config.maxWalkEntries + 1) 0 [[]] [[]] prior.path).trans
      List.countP_le_length
  rw [split, List.count_append, List.count_cons_self] at once
  exact ⟨List.count_eq_zero.mp (by omega), List.count_eq_zero.mp (by omega)⟩

theorem map_visitOutcome_withContent {visits : List Visit} (noPrior : .file prior.path ∉ visits)
    (data : List UInt8) :
    visits.map (visitOutcome mapping (tree.withContent prior.path data) rules config changed) =
      visits.map (visitOutcome mapping tree rules config changed) :=
  List.map_congr_left fun _ member => visitOutcome_withContent_of_ne mapping tree rules config
    changed (fun same => noPrior (same ▸ member)) data

/-- Where the walk comes to the prior audit, the passes agree up to it. -/
theorem passWith_of_split {before after : List Visit}
    (split : walk tree rules config = before ++ .file prior.path :: after) (data : List UInt8) :
    passWith mapping tree rules config changed prior data = collect (fileLimits config) 0 0
      (before.map (visitOutcome mapping tree rules config changed) ++
        fileOutcome mapping (tree.withContent prior.path data) rules config changed prior.path ::
          after.map (visitOutcome mapping tree rules config changed)) := by
  obtain ⟨notBefore, notAfter⟩ := prior_once tree rules config prior split
  rw [passWith, split, List.map_append, List.map_cons,
    map_visitOutcome_withContent mapping tree rules config changed prior notBefore,
    map_visitOutcome_withContent mapping tree rules config changed prior notAfter]
  rfl

/-- A common beginning hides nothing. -/
theorem hide_map_append_inj (files : List (MappedFile Digest)) (notes : List (List Char))
    (result other : Except ValueError (List (MappedFile Digest) × List (List Char))) :
    hide prior (result.map fun collected => (files ++ collected.1, notes ++ collected.2)) =
        hide prior (other.map fun collected => (files ++ collected.1, notes ++ collected.2)) ↔
      hide prior result = hide prior other := by
  rcases result with error | ⟨first, firstNotes⟩ <;> rcases other with otherError | ⟨second, secondNotes⟩
  · exact Iff.rfl
  · exact iff_of_false nofun nofun
  · exact iff_of_false nofun nofun
  · simp [hide, Except.map, List.filter_append]

/-- Where the walk comes to the prior audit within the limits, what follows decides. -/
theorem hide_passWith_eq_iff {before after : List Visit}
    (split : walk tree rules config = before ++ .file prior.path :: after)
    (succeeds : failureOf (before.map (visitOutcome mapping tree rules config changed)) = none)
    (started : (itemsOf (before.map (visitOutcome mapping tree rules config changed))).length <
      config.maxFiles) (first second : List UInt8) :
    hide prior (passWith mapping tree rules config changed prior first) =
        hide prior (passWith mapping tree rules config changed prior second) ↔
      SameAfter mapping tree rules config changed prior
        (itemsOf (before.map (visitOutcome mapping tree rules config changed))).length
        (usedAfter (fileLimits config) 0
          (itemsOf (before.map (visitOutcome mapping tree rules config changed))))
        (after.map (visitOutcome mapping tree rules config changed)) first second := by
  obtain ⟨-, notAfter⟩ := prior_once tree rules config prior split
  have sides : ∀ visit ∈ after, visit.Aside ∨ ∃ path, visit = .file path := by
    intro visit member
    refine aside_or_file_of_mem_walkWithin tree rules config (config.maxWalkEntries + 1) 0 [[]] [[]] ?_
    change visit ∈ walk tree rules config
    rw [split]
    exact List.mem_append_right _ (List.mem_cons_of_mem _ member)
  have others := otherFiles_of_visits mapping tree rules config changed prior notAfter sides
  obtain ⟨files, notes, result⟩ := @collect_append_of_open _ _ _ (fileLimits config) 0 0 _ succeeds
    (by rw [Nat.zero_add]; exact started)
  rw [passWith_of_split mapping tree rules config changed prior split,
    passWith_of_split mapping tree rules config changed prior split, result, result,
    hide_map_append_inj, Nat.zero_add]
  exact afterPrior_eq_iff mapping tree rules config changed prior others started
    (usedAfter_le (fileLimits config) (Nat.zero_le _) _) first second

end Seen

/-! ## A prior audit before a contract -/

def priorName : Name :=
  ⟨"a.json".toList, by decide, by decide, by decide⟩

def contractFileName : Name :=
  ⟨"b.sol".toList, by decide, by decide, by decide⟩

/-- A prior audit and a contract of three bytes. -/
def auditedTree : FileTree where
  directoryNames _ := []
  fileNames directory := if directory = [] then [contractFileName, priorName] else []
  isLink _ := false
  resolve path := .inside path
  stat _ := some ⟨1, 3⟩
  read _ := some (encode "abc".toList)
  directoryNodup _ := List.nodup_nil
  fileNodup directory := by
    split
    · decide
    · exact List.nodup_nil

theorem fiveBytes_someFiles : 1 ≤ 10 := by
  decide

/-- Room for five bytes. -/
def fiveBytes : DiscoveryConfig where
  includeTests := true
  includeDocs := false
  maxFiles := 10
  maxWalkEntries := 10
  maxFileBytes := 10
  maxDiscoveryBytes := 5
  followSymlinks := false
  someFiles := fiveBytes_someFiles

def plainMapping : Mapping (List UInt8) where
  lower := id
  sha256 := id
  language _ := "Text"
  categories _ _ _ := []

def auditPath : PriorAuditPath where
  path := [priorName]
  nonempty := by decide
  json := by decide

/-- The discovered contents and the notes, with these bytes in the prior audit. -/
def toldWith (data : List UInt8) : Option (List (List Char) × List (List Char)) :=
  (withheld plainMapping auditedTree (matcherRules id (fun _ => false) (.ofUserRules []))
    fiveBytes ∅ auditPath none data).toOption.map fun told =>
      (told.1.files.map MappedFile.content, told.1.omitted)

end Discovery

end MmAudit
