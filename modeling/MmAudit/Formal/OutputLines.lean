import MmAudit.Formal.Kontrol
import MmAudit.Formal.Textual

/-!
# Lines of a textual output

An output is made of lines that name at most one property each, followed by the outcome of the
property.  A pattern that begins with the prefix of a property finds nothing in the other text.
-/

namespace MmAudit

namespace Formal

open Backtracking

/-- The outcome word of a line. -/
inductive LineOutcome where
  | passed
  | failed
  | failure
  | counterexample
deriving DecidableEq

def LineOutcome.text : LineOutcome → List Char
  | passed => "passed".toList
  | failed => "failed".toList
  | failure => "failure".toList
  | counterexample => "counterexample".toList

/-- A line that names a property. -/
structure ResultLine where
  before : List Char
  propertyPrefix : List Char
  body : List Char
  gap : List Char
  outcome : LineOutcome
  word : List Char
  after : List Char

namespace ResultLine

/-- The name of the property. -/
def name (line : ResultLine) : List Char :=
  line.propertyPrefix ++ line.body

/-- What follows the name. -/
def rest (line : ResultLine) : List Char :=
  line.gap ++ (line.word ++ line.after)

def text (line : ResultLine) : List Char :=
  line.before ++ (line.name ++ line.rest)

/-- The line names one property with its prefix, and no other outcome word stands between the
name and its own; a passed line has no failing word at all. -/
structure WellFormed (prefixes : List (List Char)) (failing : Part) (line : ResultLine) :
    Prop where
  prefixed : line.propertyPrefix ∈ prefixes
  bodyNonempty : line.body ≠ []
  named : ∀ char ∈ line.body, isNameCharacter char = true
  delimited : ∃ char more, line.gap = char :: more ∧ isNameCharacter (foldLetter char) = false
  spelled : line.word.map foldLetter = line.outcome.text.map foldLetter
  oneLine : '\n' ∉ line.text
  firstName : beginsIn (oneOf prefixes) line.before (line.name ++ line.rest) = false
  onlyName : beginsIn (oneOf prefixes) line.rest [] = false
  ownWord : beginsIn failing line.gap (line.word ++ line.after) = false
  passedRest : line.outcome = .passed → beginsIn failing line.rest [] = false

end ResultLine

/-- A line of an output. -/
inductive OutputLine where
  | other (text : List Char)
  | result (line : ResultLine)

namespace OutputLine

def text : OutputLine → List Char
  | other text => text
  | result line => line.text

/-- A line that names no property has no prefix of one. -/
def WellFormed (prefixes : List (List Char)) (failing : Part) : OutputLine → Prop
  | other text => '\n' ∉ text ∧ beginsIn (oneOf prefixes) text [] = false
  | result line => line.WellFormed prefixes failing

/-- The property that the line says has failed. -/
def failingName? : OutputLine → Option (List Char)
  | other _ => none
  | result line => if line.outcome = .passed then none else some line.name

end OutputLine

/-- The properties whose own line has a failing outcome word. -/
def failingNames (lines : List OutputLine) : List (List Char) :=
  lines.filterMap OutputLine.failingName?

/-- An output of some lines. -/
def joined (lines : List OutputLine) : List Char :=
  ['\n'].intercalate (lines.map OutputLine.text)

/-- The text of the lines after a line. -/
def following (lines : List OutputLine) : List Char :=
  lines.flatMap fun line => '\n' :: line.text

theorem joined_cons (line : OutputLine) (lines : List OutputLine) :
    joined (line :: lines) = line.text ++ following lines := by
  induction lines generalizing line with
  | nil => simp [joined, following]
  | cons next lines ih =>
      have rest := ih next
      rw [joined] at rest ⊢
      rw [List.map_cons, List.map_cons, List.intercalate_cons_cons, ← List.map_cons, rest,
        List.append_assoc]
      rfl

/-- A line ends where a text goes on. -/
def LineEnd (follow : List Char) : Prop :=
  follow = [] ∨ ∃ more, follow = '\n' :: more

theorem lineEnd_following_append (lines : List OutputLine) {follow : List Char}
    (ends : LineEnd follow) : LineEnd (following lines ++ follow) := by
  cases lines with
  | nil => exact ends
  | cons line lines => exact .inr ⟨_, rfl⟩

theorem lineEnd_following (lines : List OutputLine) : LineEnd (following lines) := by
  have ends := lineEnd_following_append lines (.inl rfl)
  rwa [List.append_nil] at ends

/-- What is read of a line without its end leaves the text after the line. -/
theorem LineEnd.split {text follow read found : List Char} (ends : LineEnd follow)
    (parts : text ++ follow = read ++ found) (sameLine : '\n' ∉ read) :
    ∃ rest, text = read ++ rest ∧ found = rest ++ follow := by
  rcases List.append_eq_append_iff.mp parts with ⟨passed, rfl, rfl⟩ | ⟨rest, rfl, rfl⟩
  · have nothing : passed = [] := by
      cases passed with
      | nil => rfl
      | cons char passed =>
          rcases ends with none | ⟨more, same⟩
          · cases none
          · cases same
            exact absurd (List.mem_append_right _ (.head _)) sameLine
    exact ⟨[], by rw [nothing, List.append_nil, List.append_nil], by rw [nothing]; rfl⟩
  · exact ⟨rest, rfl, rfl⟩

/-! ## Words within a line -/

/-- Words that stand within a line. -/
structure WithinLines (words : List (List Char)) : Prop where
  stops : Stops words '\n'
  nonempty : [] ∉ words

section Words

variable {words : List (List Char)}

theorem WithinLines.oneOf_nil (within : WithinLines words) : oneOf words [] = [] := by
  refine List.flatMap_eq_nil_iff.mpr fun word member => ?_
  cases word with
  | nil => exact absurd member within.nonempty
  | cons letter word => rfl

theorem WithinLines.oneOf_lineEnd (within : WithinLines words) {follow : List Char}
    (ends : LineEnd follow) : oneOf words follow = [] := by
  rcases ends with rfl | ⟨more, rfl⟩
  · exact within.oneOf_nil
  · have read := oneOf_append_stop within.stops [] more
    rwa [within.oneOf_nil] at read

/-- Words of a line do not depend on the lines after it. -/
theorem WithinLines.oneOf_append_eq_nil (within : WithinLines words) {text follow : List Char}
    (ends : LineEnd follow) (absent : oneOf words text = []) :
    oneOf words (text ++ follow) = [] := by
  rcases ends with rfl | ⟨more, rfl⟩
  · rwa [List.append_nil]
  · rw [oneOf_append_stop within.stops, absent, List.map_nil]

/-- A word that begins behind a part of a line begins in the rest of the line. -/
theorem WithinLines.begins_within (within : WithinLines words)
    {text follow read found : List Char} (ends : LineEnd follow)
    (parts : text ++ follow = read ++ found) (sameLine : '\n' ∉ read)
    (begins : oneOf words found ≠ []) (absent : beginsIn (oneOf words) text [] = false) :
    False := by
  obtain ⟨rest, rfl, rfl⟩ := ends.split parts sameLine
  by_cases nothing : rest = []
  · rw [nothing] at begins
    exact begins (within.oneOf_lineEnd ends)
  · have here := beginsIn_eq_false_iff.mp absent rest (List.suffix_append _ _) nothing
    rw [List.append_nil] at here
    exact begins (within.oneOf_append_eq_nil ends here)

end Words

/-! ## A search over lines -/

/-- A pattern that begins with one of some prefixes. -/
structure BeginsWith {Value : Type*} (pattern : List Char → Option (Value × List Char))
    (prefixes : List (List Char)) : Prop extends WithinLines prefixes where
  begins : ∀ text, pattern text ≠ none → oneOf prefixes text ≠ []

section Searching

variable {Value : Type*} {pattern : List Char → Option (Value × List Char)}
variable {prefixes : List (List Char)}

theorem BeginsWith.eq_none (beginsWith : BeginsWith pattern prefixes) {text : List Char}
    (absent : oneOf prefixes text = []) : pattern text = none := by
  by_contra found
  exact beginsWith.begins text found absent

theorem BeginsWith.findAll_newline (beginsWith : BeginsWith pattern prefixes)
    (text : List Char) : findAll pattern ('\n' :: text) = findAll pattern text := by
  change findAll pattern (['\n'] ++ text) = _
  refine findAll_append fun after suffix nonempty => ?_
  rcases List.suffix_cons_iff.mp suffix with rfl | suffix
  · exact beginsWith.eq_none (beginsWith.oneOf_lineEnd (.inr ⟨text, rfl⟩))
  · exact absurd (List.suffix_nil.mp suffix) nonempty

/-- Text without a prefix is passed over. -/
theorem BeginsWith.findAll_silent (beginsWith : BeginsWith pattern prefixes)
    {text more follow : List Char} (ends : LineEnd follow)
    (silent : beginsIn (oneOf prefixes) text more = false) :
    findAll pattern (text ++ (more ++ follow)) = findAll pattern (more ++ follow) := by
  refine findAll_append fun after suffix nonempty => beginsWith.eq_none ?_
  rw [← List.append_assoc]
  exact beginsWith.oneOf_append_eq_nil ends
    (beginsIn_eq_false_iff.mp silent after suffix nonempty)

/-- Text without a prefix at the end of a line is passed over. -/
theorem BeginsWith.findAll_silent_end (beginsWith : BeginsWith pattern prefixes)
    {text follow : List Char} (ends : LineEnd follow)
    (silent : beginsIn (oneOf prefixes) text [] = false) :
    findAll pattern (text ++ follow) = findAll pattern follow :=
  beginsWith.findAll_silent ends silent

theorem BeginsWith.findAll_other (beginsWith : BeginsWith pattern prefixes) {failing : Part}
    {text follow : List Char} (ends : LineEnd follow)
    (wellFormed : (OutputLine.other text).WellFormed prefixes failing) :
    findAll pattern ((OutputLine.other text).text ++ follow) = findAll pattern follow :=
  beginsWith.findAll_silent_end ends wellFormed.2

/-- The search comes to the name of a line. -/
theorem BeginsWith.findAll_result (beginsWith : BeginsWith pattern prefixes) {failing : Part}
    {line : ResultLine} {follow : List Char} (ends : LineEnd follow)
    (wellFormed : line.WellFormed prefixes failing) :
    findAll pattern ((OutputLine.result line).text ++ follow) =
      findAll pattern (line.name ++ (line.rest ++ follow)) := by
  change findAll pattern (line.before ++ (line.name ++ line.rest) ++ follow) = _
  rw [List.append_assoc, beginsWith.findAll_silent ends wellFormed.firstName, List.append_assoc]

end Searching

end Formal

end MmAudit
