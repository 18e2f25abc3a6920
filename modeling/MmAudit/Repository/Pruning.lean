import MmAudit.Repository.Ignore

/-!
# Pruned directories

Which rules that match a directory match everything below it too, and which do not.
A name pattern, and a pattern that ends in a separator, carry over to every path
below.  A pattern with an inner separator is compared with the whole path, so it need
not match what lies below a directory that it matches; and a negated rule may match
below a directory although `may_include_descendant` does not expect it to.
-/

namespace MmAudit

namespace Ignore

/-! ## Paths below a directory -/

namespace Path

theorem text_append (directory rest : Path) (nonempty : directory ≠ []) (restNonempty : rest ≠ []) :
    text (directory ++ rest) = directory.text ++ '/' :: text rest := by
  unfold text parts Glob.pathText
  rw [List.map_append]
  have restParts : rest.map Name.chars ≠ [] := by simpa using restNonempty
  induction directory with
  | nil => exact absurd rfl nonempty
  | cons first directory ih =>
      by_cases last : directory = []
      · subst last
        rw [List.map_singleton, List.singleton_append, List.intercalate_cons_of_ne_nil restParts]
        simp
      · have more : directory.map Name.chars ≠ [] := by simpa using last
        rw [List.map_cons, List.cons_append, List.intercalate_cons_of_ne_nil (by simp [more]),
          List.intercalate_cons_of_ne_nil more, ih last]
        simp

namespace Below

variable {directory path : Path}

theorem text_eq (below : Below directory path) (nonempty : directory ≠ []) :
    ∃ rest, path.text = directory.text ++ '/' :: rest := by
  obtain ⟨rest, restNonempty, rfl⟩ := below
  exact ⟨text rest, text_append directory rest nonempty restNonempty⟩

theorem parts_subset (below : Below directory path) : directory.parts ⊆ path.parts.dropLast := by
  obtain ⟨rest, restNonempty, rfl⟩ := below
  intro part member
  have restParts : Path.parts rest ≠ [] := by simpa [parts] using restNonempty
  have split : Path.parts (directory ++ rest) = directory.parts ++ Path.parts rest :=
    List.map_append
  rw [split, List.dropLast_append_of_ne_nil restParts]
  exact List.mem_append_left _ member

theorem path_nonempty (below : Below directory path) : path ≠ [] := by
  obtain ⟨rest, restNonempty, rfl⟩ := below
  simp [restNonempty]

theorem trans {middle : Path} (first : Below directory middle) (second : Below middle path) :
    Below directory path := by
  obtain ⟨rest, restNonempty, rfl⟩ := first
  obtain ⟨more, _, rfl⟩ := second
  exact ⟨rest ++ more, by simp [restNonempty], List.append_assoc _ _ _⟩

end Below

theorem name_mem (path : Path) (nonempty : path ≠ []) : path.name ∈ path.parts := by
  have partsNonempty : path.parts ≠ [] := by simpa [parts] using nonempty
  rw [name, List.getLastD_eq_getLast?, List.getLast?_eq_some_getLast partsNonempty]
  exact List.getLast_mem partsNonempty

end Path

/-! ## Patterns that carry over -/

/-- A pattern with an inner separator and without a last one.  It is compared with the whole path
and with the last names of the path. -/
def Shape.isPathGlob (shape : Shape) : Bool :=
  !shape.core.isEmpty && !shape.directory && shape.core.contains '/'

theorem isPrefixOf_trans_below {directory path : Path} (below : Path.Below directory path)
    (nonempty : directory ≠ []) {core : List Char}
    (reached : directory.text = core ∨ core ++ ['/'] <+: directory.text) :
    core ++ ['/'] <+: path.text := by
  obtain ⟨rest, pathText⟩ := below.text_eq nonempty
  rw [pathText]
  rcases reached with rfl | ⟨more, same⟩
  · exact ⟨rest, by simp⟩
  · exact ⟨more ++ '/' :: rest, by rw [← same]; simp⟩

/-- A pattern that is no path glob matches everything below a directory that it matches. -/
theorem pathMatches_below {directory path : Path} (below : Path.Below directory path)
    (nonempty : directory ≠ []) {pattern : List Char}
    (noGlob : (shapeOf pattern).isPathGlob = false)
    (matched : pathMatches directory pattern true = .ok true) (isDir : Bool) :
    pathMatches path pattern isDir = .ok true := by
  unfold pathMatches at matched ⊢
  unfold Shape.isPathGlob at noGlob
  cases emptyCore : (shapeOf pattern).core.isEmpty
  case true => simp [emptyCore] at matched
  cases directoryPattern : (shapeOf pattern).directory
  · -- A name pattern: some part of the directory matches, and it is a part of the path.
    have noSeparator : (shapeOf pattern).core.contains '/' = false := by
      simpa [emptyCore, directoryPattern] using noGlob
    simp only [emptyCore, directoryPattern, noSeparator, Bool.false_eq_true, ↓reduceIte,
      Bool.not_false, Except.ok.injEq, Bool.or_eq_true, List.any_eq_true] at matched ⊢
    have part : ∃ part ∈ directory.parts, Glob.fnmatch part (shapeOf pattern).core = true := by
      rcases matched with lastName | somePart
      · exact ⟨directory.name, directory.name_mem nonempty, lastName⟩
      · exact somePart
    obtain ⟨part, member, partMatches⟩ := part
    exact Or.inr ⟨part, List.mem_of_mem_dropLast (below.parts_subset member), partMatches⟩
  · cases whole : ((shapeOf pattern).core.contains '/' || (shapeOf pattern).rooted)
    · -- The name of a directory, anywhere above the last name of the path.
      simp only [emptyCore, directoryPattern, whole, Bool.false_eq_true, ↓reduceIte, Except.ok.injEq,
        Bool.or_eq_true, Bool.true_and, List.contains_iff_mem] at matched ⊢
      refine Or.inl (below.parts_subset ?_)
      rcases matched with above | anywhere
      · exact List.mem_of_mem_dropLast above
      · exact anywhere
    · -- A directory given by its path from the root.
      simp only [emptyCore, directoryPattern, whole, Bool.false_eq_true, ↓reduceIte, Except.ok.injEq,
        Bool.or_eq_true, beq_iff_eq, List.isPrefixOf_iff_prefix] at matched ⊢
      exact Or.inr (isPrefixOf_trans_below below nonempty matched)

/-! ## Patterns that cannot be compared -/

/-- A path glob that consists of dots and separators only. -/
def raises (pattern : List Char) : Bool :=
  (shapeOf pattern).isPathGlob && (Glob.pathParts (shapeOf pattern).core).isEmpty

/-- No path is spelled like a pattern without parts. -/
theorem text_ne_of_no_parts (path : Path) (nonempty : path ≠ []) {pattern : List Char}
    (noParts : Glob.pathParts pattern = []) : path.text ≠ pattern := by
  intro same
  have partsNonempty : path.parts ≠ [] := by simpa [Path.parts] using nonempty
  have split : pattern.splitOn '/' = path.parts := by
    rw [← same, Path.text, Glob.pathText]
    refine List.splitOn_intercalate '/' ?_ partsNonempty
    intro part member
    obtain ⟨name, _, rfl⟩ := List.mem_map.mp member
    exact name.noSeparator.1
  unfold Glob.pathParts at noParts
  rw [split, List.filter_eq_nil_iff] at noParts
  have dropped := noParts path.name (path.name_mem nonempty)
  obtain ⟨name, _, sameName⟩ := List.mem_map.mp (path.name_mem nonempty)
  rw [← sameName] at dropped
  simp [name.nonempty, name.notDots.1] at dropped

/-- Whether a comparison raises depends on the pattern alone. -/
theorem pathMatches_ok_iff (path : Path) (nonempty : path ≠ []) (pattern : List Char)
    (isDir : Bool) :
    (∃ matched, pathMatches path pattern isDir = .ok matched) ↔ raises pattern = false := by
  unfold pathMatches raises Shape.isPathGlob
  cases emptyCore : (shapeOf pattern).core.isEmpty
  case true =>
    simp only [emptyCore, ↓reduceIte, Bool.not_true, Bool.false_and, iff_true]
    exact ⟨false, rfl⟩
  cases directoryPattern : (shapeOf pattern).directory
  case true =>
    simp only [emptyCore, directoryPattern, Bool.false_eq_true, ↓reduceIte, Bool.not_true,
      Bool.and_false, Bool.false_and, iff_true]
    split
    · exact ⟨_, rfl⟩
    · exact ⟨_, rfl⟩
  cases separator : (shapeOf pattern).core.contains '/'
  case false =>
    simp only [emptyCore, directoryPattern, separator, Bool.false_eq_true, ↓reduceIte,
      Bool.not_false, Bool.and_false, Bool.false_and, iff_true]
    exact ⟨_, rfl⟩
  simp only [emptyCore, directoryPattern, separator, Bool.false_eq_true, ↓reduceIte, Bool.not_true,
    Bool.not_false, Bool.and_true, Bool.true_and, List.isEmpty_eq_false_iff]
  by_cases noParts : Glob.pathParts (shapeOf pattern).core = []
  · have literal : Glob.fnmatch path.text (shapeOf pattern).core = false := by
      rw [Bool.eq_false_iff]
      intro matched
      have plain := Glob.plain_of_no_parts noParts
      exact text_ne_of_no_parts path nonempty noParts ((Glob.fnmatch_plain_iff plain _).mp matched)
    simp [literal, Glob.pathMatch, noParts]
  · simp only [Glob.pathMatch, List.isEmpty_iff, noParts, ↓reduceIte, ne_eq, not_false_eq_true,
      iff_true]
    split
    · exact ⟨_, rfl⟩
    · exact ⟨_, rfl⟩

theorem exists_anyM {Item : Type} (items : List Item) (test : Item → Except ValueError Bool)
    (defined : ∀ item ∈ items, ∃ answer, test item = .ok answer) :
    ∃ answer, items.anyM test = .ok answer := by
  induction items with
  | nil => exact ⟨false, rfl⟩
  | cons item items ih =>
      obtain ⟨answer, tested⟩ := defined item List.mem_cons_self
      obtain ⟨rest, restTested⟩ := ih fun other member => defined other (List.mem_cons_of_mem _ member)
      cases answer with
      | false => exact ⟨rest, by rw [List.anyM, tested]; exact restTested⟩
      | true => exact ⟨true, by rw [List.anyM, tested]; rfl⟩

/-- The permanent exclusions can always be compared. -/
theorem exists_permanentlyExcluded (path : Path) (nonempty : path ≠ []) (isDir : Bool) :
    ∃ answer, IgnoreMatcher.permanentlyExcluded path isDir = .ok answer := by
  have comparable : ∀ pattern ∈ permanentExclusions, raises pattern = false := by decide
  refine exists_anyM _ _ fun pattern member => ?_
  exact (pathMatches_ok_iff path nonempty pattern isDir).mpr (comparable pattern member)

/-! ## The last rule that matches decides -/

/-- The rule, negated or not, matches the path. -/
def RuleMatches (path : Path) (isDir : Bool) (rawRule : List Char) : Prop :=
  pathMatches path (ruleOf rawRule) isDir = .ok true

/-- A rule that is not negated matches the path. -/
def Excluded (rules : List (List Char)) (path : Path) (isDir : Bool) : Prop :=
  ∃ rawRule ∈ rules, negated rawRule = false ∧ RuleMatches path isDir rawRule

/-- Every negated rule that matches the path comes before a rule that is not negated and matches
the path. -/
def Overridden (rules : List (List Char)) (path : Path) (isDir : Bool) : Prop :=
  ∀ earlier rawRule later, rules = earlier ++ rawRule :: later → negated rawRule = true →
    RuleMatches path isDir rawRule → Excluded later path isDir

section LastRule

variable {path : Path} {isDir : Bool} {rules : List (List Char)} {last : List Char}

theorem excluded_append_singleton_iff :
    Excluded (rules ++ [last]) path isDir ↔
      Excluded rules path isDir ∨ negated last = false ∧ RuleMatches path isDir last := by
  unfold Excluded
  constructor
  · rintro ⟨rawRule, member, positive, ruleMatches⟩
    rcases List.mem_append.mp member with earlier | isLast
    · exact Or.inl ⟨rawRule, earlier, positive, ruleMatches⟩
    · obtain rfl := List.mem_singleton.mp isLast
      exact Or.inr ⟨positive, ruleMatches⟩
  · rintro (⟨rawRule, member, positive, ruleMatches⟩ | ⟨positive, ruleMatches⟩)
    · exact ⟨rawRule, List.mem_append_left _ member, positive, ruleMatches⟩
    · exact ⟨last, by simp, positive, ruleMatches⟩

theorem overridden_append_singleton_iff :
    Overridden (rules ++ [last]) path isDir ↔
      (negated last = true → ¬ RuleMatches path isDir last) ∧
        (Overridden rules path isDir ∨ negated last = false ∧ RuleMatches path isDir last) := by
  constructor
  · intro overridden
    refine ⟨?_, ?_⟩
    · intro isNegated ruleMatches
      obtain ⟨_, member, _⟩ := overridden rules last [] rfl isNegated ruleMatches
      cases member
    · by_cases decides : negated last = false ∧ RuleMatches path isDir last
      · exact Or.inr decides
      · refine Or.inl fun earlier rawRule later split isNegated ruleMatches => ?_
        have excluded := overridden earlier rawRule (later ++ [last])
          (by rw [split]; simp) isNegated ruleMatches
        exact (excluded_append_singleton_iff.mp excluded).resolve_right decides
  · rintro ⟨lastKept, overridden⟩ earlier rawRule later split isNegated ruleMatches
    rcases List.eq_nil_or_concat later with rfl | ⟨init, final, rfl⟩
    · obtain ⟨rfl, same⟩ := List.append_inj' split rfl
      obtain rfl : last = rawRule := by simpa using same
      exact absurd ruleMatches (lastKept isNegated)
    · have resplit : rules ++ [last] = (earlier ++ rawRule :: init) ++ [final] := by
        rw [split]
        simp
      obtain ⟨sameRules, sameLast⟩ := List.append_inj' resplit rfl
      obtain rfl : last = final := by simpa using sameLast
      rw [List.concat_eq_append, excluded_append_singleton_iff]
      rcases overridden with overridden | decides
      · exact Or.inl (overridden earlier rawRule init sameRules isNegated ruleMatches)
      · exact Or.inr decides

/-- A sequence of rules excludes a path when the last rule that matches is not negated. -/
theorem foldlM_applyRule (nonempty : path ≠ []) :
    ((∀ rawRule ∈ rules, raises (ruleOf rawRule) = false) ∧
        ∃ decided, rules.foldlM (IgnoreMatcher.applyRule path isDir) false = .ok decided ∧
          (decided = true ↔ Excluded rules path isDir ∧ Overridden rules path isDir)) ∨
      ((∃ rawRule ∈ rules, raises (ruleOf rawRule) = true) ∧
        ∀ decided, rules.foldlM (IgnoreMatcher.applyRule path isDir) false ≠ .ok decided) := by
  induction rules using List.reverseRecOn with
  | nil => exact Or.inl ⟨by simp, false, rfl, by simp [Excluded]⟩
  | append_singleton rules last ih =>
      rw [List.foldlM_append]
      rcases ih with ⟨earlier, decided, folded, decided_iff⟩ | ⟨⟨rawRule, member, raised⟩, never⟩
      · rw [folded]
        by_cases comparable : raises (ruleOf last) = false
        · obtain ⟨matched, compared⟩ :=
            (pathMatches_ok_iff path nonempty (ruleOf last) isDir).mpr comparable
          refine Or.inl ⟨?_, if matched then !negated last else decided, ?_, ?_⟩
          · simpa [or_imp, forall_and] using ⟨earlier, comparable⟩
          · simp [IgnoreMatcher.applyRule, compared, Except.map, Bind.bind, Except.bind, pure,
              Except.pure]
          · rw [excluded_append_singleton_iff, overridden_append_singleton_iff]
            have matched_iff : RuleMatches path isDir last ↔ matched = true := by
              simp [RuleMatches, compared]
            rw [matched_iff]
            cases matched <;> cases negated last <;> simp [decided_iff]
        · refine Or.inr ⟨⟨last, by simp, by simpa using comparable⟩, fun decision whole => ?_⟩
          have compared : ∀ matched, pathMatches path (ruleOf last) isDir ≠ .ok matched :=
            fun matched same =>
              comparable ((pathMatches_ok_iff path nonempty _ isDir).mp ⟨matched, same⟩)
          cases outcome : pathMatches path (ruleOf last) isDir with
          | ok matched => exact compared matched outcome
          | error error =>
              simp [IgnoreMatcher.applyRule, outcome, Except.map, Bind.bind, Except.bind] at whole
      · refine Or.inr ⟨⟨rawRule, List.mem_append_left _ member, raised⟩, fun decision whole => ?_⟩
        cases outcome : rules.foldlM (IgnoreMatcher.applyRule path isDir) false with
        | ok decided => exact never decided outcome
        | error error => rw [outcome] at whole; cases whole

end LastRule

/-! ## What is ignored below a pruned directory -/

section Casing

variable (lower : List Char → List Char)

/-- A directory that is withheld by name withholds everything below it. -/
theorem sensitive_below {directory path : Path} (below : Path.Below directory path)
    (sensitive : isSensitiveWorkspacePath lower directory true = true) (isDir : Bool) :
    isSensitiveWorkspacePath lower path isDir = true := by
  obtain ⟨rest, restNonempty, rfl⟩ := below
  have split : Path.parts (directory ++ rest) = directory.parts ++ Path.parts rest :=
    List.map_append
  unfold isSensitiveWorkspacePath at sensitive ⊢
  simp only [split, List.map_append]
  generalize directory.parts.map lower = above at sensitive ⊢
  generalize (Path.parts rest).map lower = under
  cases empty : above.isEmpty
  case true => simp [empty] at sensitive
  have notEmpty : (above ++ under).isEmpty = false := by
    simp only [List.isEmpty_eq_false_iff] at empty
    simp [empty]
  simp only [empty, notEmpty, Bool.false_eq_true, ↓reduceIte] at sensitive ⊢
  cases controlled : above.any isControlPlaneName
  · rw [controlled, if_neg Bool.false_ne_true, ite_eq_left_iff] at sensitive
    have windowed : (controlPlanePathSequences.any fun sequence =>
        above.tails.any sequence.isPrefixOf) = true := by
      by_contra absent
      exact Bool.false_ne_true (sensitive absent)
    obtain ⟨sequence, member, window⟩ := List.any_eq_true.mp windowed
    obtain ⟨tail, tailMem, begins⟩ := List.any_eq_true.mp window
    have found : (controlPlanePathSequences.any fun sequence =>
        (above ++ under).tails.any sequence.isPrefixOf) = true := by
      refine List.any_eq_true.mpr ⟨sequence, member, List.any_eq_true.mpr ?_⟩
      obtain ⟨before, sameAbove⟩ := (List.mem_tails tail above).mp tailMem
      refine ⟨tail ++ under, (List.mem_tails _ _).mpr ⟨before, ?_⟩, ?_⟩
      · rw [← List.append_assoc, sameAbove]
      · rw [List.isPrefixOf_iff_prefix] at begins ⊢
        exact begins.trans (List.prefix_append tail under)
    rw [found]
    simp
  · simp [List.any_append, controlled]

namespace IgnoreMatcher

variable (matcher : IgnoreMatcher)

/-- When a path is ignored. -/
theorem ignored_iff (path : Path) (nonempty : path ≠ []) (isDir : Bool) :
    matcher.ignored lower path isDir = .ok true ↔
      isSensitiveWorkspacePath lower path isDir = true ∨
        (∀ rawRule ∈ matcher.rules, raises (ruleOf rawRule) = false) ∧
          (permanentlyExcluded path isDir = .ok true ∨
            Excluded matcher.rules path isDir ∧ Overridden matcher.rules path isDir) := by
  unfold ignored
  cases sensitive : isSensitiveWorkspacePath lower path isDir
  case true => simp
  obtain ⟨permanent, permanently⟩ := exists_permanentlyExcluded path nonempty isDir
  simp only [Bool.false_eq_true, ↓reduceIte, false_or, permanently]
  rcases @foldlM_applyRule path isDir matcher.rules nonempty with
    ⟨comparable, decided, folded, decided_iff⟩ | ⟨⟨rawRule, member, raised⟩, never⟩
  · rw [folded, and_iff_right comparable]
    simp [Bind.bind, Except.bind, pure, Except.pure, decided_iff]
  · constructor
    · intro returned
      cases outcome : matcher.rules.foldlM (applyRule path isDir) false with
      | ok decided => exact absurd outcome (never decided)
      | error error => rw [outcome] at returned; cases returned
    · rintro ⟨comparable, _⟩
      rw [comparable rawRule member] at raised
      cases raised

/-- What carries the exclusion of a directory down to a path below it: some rule that is not
negated matches the path as well, which needs to be checked only where the directory is excluded
by path globs alone, and no negated rule that matches the path has the last word. -/
structure Carries (directory path : Path) : Prop where
  excluded : (∀ rawRule ∈ matcher.rules, negated rawRule = false →
      RuleMatches directory true rawRule → (shapeOf (ruleOf rawRule)).isPathGlob = true) →
    Excluded matcher.rules path false
  overridden : Overridden matcher.rules path false

theorem ignored_of_prunes {lower : List Char → List Char} {matcher : IgnoreMatcher}
    {directory : Path} (pruned : matcher.prunes lower directory = .ok true) :
    matcher.ignored lower directory true = .ok true := by
  unfold prunes at pruned
  cases outcome : matcher.ignored lower directory true with
  | error error => rw [outcome] at pruned; cases pruned
  | ok answer =>
      cases answer with
      | false => rw [outcome] at pruned; cases pruned
      | true => rfl

/-- Below a pruned directory, a path is ignored when it is withheld by name or permanently
excluded, or when the exclusion of the directory carries down to it. -/
theorem pruned_ignored_iff {directory path : Path} (nonempty : directory ≠ [])
    (below : Path.Below directory path)
    (pruned : matcher.prunes lower directory = .ok true) :
    matcher.ignored lower path false = .ok true ↔
      isSensitiveWorkspacePath lower directory true = true ∨
        isSensitiveWorkspacePath lower path false = true ∨
          permanentlyExcluded path false = .ok true ∨ matcher.Carries directory path := by
  have directoryIgnored := ignored_of_prunes pruned
  by_cases sensitive : isSensitiveWorkspacePath lower directory true = true
  · have pathSensitive := sensitive_below lower below sensitive false
    rw [matcher.ignored_iff lower path below.path_nonempty]
    simp [sensitive, pathSensitive]
  · obtain ⟨comparable, _⟩ := ((matcher.ignored_iff lower directory nonempty true).mp
      directoryIgnored).resolve_left sensitive
    rw [matcher.ignored_iff lower path below.path_nonempty]
    have carried : (Excluded matcher.rules path false ∧ Overridden matcher.rules path false) ↔
        matcher.Carries directory path := by
      constructor
      · rintro ⟨excluded, overridden⟩
        exact ⟨fun _ => excluded, overridden⟩
      · rintro ⟨excluded, overridden⟩
        refine ⟨?_, overridden⟩
        by_cases globs : ∀ rawRule ∈ matcher.rules, negated rawRule = false →
            RuleMatches directory true rawRule → (shapeOf (ruleOf rawRule)).isPathGlob = true
        · exact excluded globs
        · push Not at globs
          obtain ⟨rawRule, member, positive, ruleMatches, noGlob⟩ := globs
          exact ⟨rawRule, member, positive,
            pathMatches_below below nonempty (by simpa using noGlob) ruleMatches false⟩
    rw [carried, and_iff_right comparable]
    simp [sensitive]

end IgnoreMatcher

end Casing

end Ignore

end MmAudit
