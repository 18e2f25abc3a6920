import Mathlib
import MmAudit.Formal.OutputLines

/-!
# Failures that the line pattern finds

`failure_pattern` of `PropertyToolAdapter.parse` stays within a line.  It finds the property of a
failing line.  In a passed line it gives characters of the name back, and so it takes a failing
word inside the name for the outcome of a shorter name.
-/

namespace MmAudit

namespace Formal

open Backtracking

/-- What stands before the last place where a part begins. -/
def cutBefore (part : Part) : List Char → Option (List Char)
  | [] => none
  | char :: text =>
      match cutBefore part text with
      | some kept => some (char :: kept)
      | none => if (part (char :: text)).isEmpty then none else some []

/-- The name that is left of a passed name with a failing word after its first character. -/
def ResultLine.cutName? (line : ResultLine) : Option (List Char) :=
  match line.body with
  | [] => none
  | first :: others => (cutBefore failureResultPart others).map fun kept =>
      line.propertyPrefix ++ first :: kept

/-- The names that the pattern reads out of a line. -/
def lineReports : OutputLine → List (List Char)
  | .other _ => []
  | .result line => if line.outcome = .passed then line.cutName?.toList else [line.name]

/-! ## The words of the pattern -/

/-- The words that `fail(?:ed|ure)?|counterexample` reads, the preferred one first. -/
def failureWords : List (List Char) :=
  ["failed".toList, "failure".toList, "fail".toList, "counterexample".toList]

theorem failureResultPart_eq : failureResultPart = oneOf failureWords := by
  have failed : "failed".toList = "fail".toList ++ "ed".toList := by decide
  have failure : "failure".toList = "fail".toList ++ "ure".toList := by decide
  funext text
  rw [failureResultPart, failureWords, failed, failure]
  simp only [oneOf, List.flatMap_cons, List.flatMap_nil, List.append_nil, caseless_append_word]
  rcases caseless_cases "fail".toList text with none | ⟨rest, one⟩
  · simp only [orElse, andThen, none, List.flatMap_nil, List.nil_append]
  · simp only [orElse, andThen, maybe, one, List.flatMap_cons, List.flatMap_nil, List.append_nil,
      List.append_assoc]

theorem withinLines_failureWords : WithinLines failureWords where
  stops := stops_of_all (by decide)
  nonempty := by decide

theorem withinLines_propertyPrefixes : WithinLines propertyPrefixes where
  stops := stops_of_all (by decide)
  nonempty := by decide

/-! ## What the pattern reads -/

/-- What a match of the pattern reads before the failing word. -/
structure ReadsFailure (text rest : List Char) where
  word : List Char
  read : List Char
  found : List Char
  wordMem : word ∈ propertyPrefixes
  begins : caseless word text ≠ []
  parts : text = read ++ found
  longer : word.length < read.length
  sameLine : '\n' ∉ read
  reads : rest ∈ oneOf failureWords found

theorem not_mem_of_spelled {word read : List Char} {char : Char}
    (stops : ∀ letter ∈ word, foldLetter letter ≠ foldLetter char)
    (spelled : read.map foldLetter = word.map foldLetter) : char ∉ read := by
  intro member
  have folded := List.mem_map_of_mem (f := foldLetter) member
  rw [spelled] at folded
  obtain ⟨letter, letterMem, same⟩ := List.mem_map.mp folded
  exact stops letter letterMem same

theorem exists_readsFailure {text rest : List Char} {value : List Char × List Char}
    (found : failurePattern text = some (value, rest)) : Nonempty (ReadsFailure text rest) := by
  obtain ⟨⟨names, after⟩, matched, same⟩ := Option.map_eq_some_iff.mp found
  cases same
  obtain ⟨afterName, nameMem, -, restMem⟩ := exists_of_attribution matched
  obtain ⟨afterPrefix, prefixMem, runMem⟩ := List.mem_flatMap.mp nameMem
  obtain ⟨word, wordMem, wordRead⟩ := List.mem_flatMap.mp prefixMem
  obtain ⟨spelling, rfl, spelled⟩ := mem_caseless_iff.mp wordRead
  obtain ⟨body, rfl, nonempty, named⟩ := mem_greedy runMem
  obtain ⟨gap, start, rfl, inLine, -, reads⟩ := exists_of_mem_andThen_upTo restMem
  have lengths := congrArg List.length spelled
  rw [List.length_map, List.length_map] at lengths
  refine ⟨{
    word
    read := spelling ++ (body ++ gap)
    found := start
    wordMem
    begins := List.ne_nil_of_mem wordRead
    parts := by simp only [List.append_assoc]
    longer := ?_
    sameLine := ?_
    reads := by rwa [failureResultPart_eq] at reads }⟩
  · have positive := List.length_pos_iff.mpr nonempty
    rw [List.length_append, List.length_append, lengths]
    omega
  · rw [List.mem_append, List.mem_append, not_or, not_or]
    refine ⟨not_mem_of_spelled (withinLines_propertyPrefixes.stops word wordMem) spelled, ?_, ?_⟩
    · intro member
      exact absurd (named _ member) (by decide)
    · intro member
      exact absurd (inLine _ member) (by decide)

theorem beginsWith_failurePattern : BeginsWith failurePattern propertyPrefixes where
  toWithinLines := withinLines_propertyPrefixes
  begins := by
    intro text found
    obtain ⟨⟨value, rest⟩, same⟩ := Option.ne_none_iff_exists'.mp found
    obtain ⟨reading⟩ := exists_readsFailure same
    obtain ⟨after, member⟩ := List.exists_mem_of_ne_nil _ reading.begins
    exact List.ne_nil_of_mem (List.mem_flatMap.mpr ⟨reading.word, reading.wordMem, member⟩)

/-- A prefix that begins within a prefix ends no earlier. -/
theorem length_le_of_caseless_drop {word other text : List Char} {offset : ℕ}
    (wordMem : word ∈ propertyPrefixes) (otherMem : other ∈ propertyPrefixes)
    (begins : caseless other (word.drop offset ++ text) ≠ []) :
    word.length ≤ offset + other.length := by
  have short : ∀ first ∈ propertyPrefixes, 8 ≤ first.length ∧ first.length ≤ 10 := by
    decide
  have wordLength := short word wordMem
  have otherLength := short other otherMem
  by_cases far : 2 ≤ offset
  · omega
  · by_cases long : word.length ≤ other.length
    · omega
    · have differ : ∀ first ∈ propertyPrefixes, ∀ second ∈ propertyPrefixes,
          second.length < first.length → ∀ offset < 2,
            ¬second.map foldLetter <+: (first.drop offset).map foldLetter ∧
              ¬(first.drop offset).map foldLetter <+: second.map foldLetter := by
        decide
      exact absurd (caseless_eq_nil rfl
        (differ word wordMem other otherMem (not_le.mp long) offset (not_le.mp far)) text) begins

/-- A text without failing words has no match. -/
theorem failurePattern_eq_none {text follow : List Char} (ends : LineEnd follow)
    (absent : beginsIn (oneOf failureWords) text [] = false) :
    failurePattern (text ++ follow) = none := by
  by_contra found
  obtain ⟨⟨value, rest⟩, same⟩ := Option.ne_none_iff_exists'.mp found
  obtain ⟨reading⟩ := exists_readsFailure same
  exact withinLines_failureWords.begins_within ends reading.parts reading.sameLine
    (List.ne_nil_of_mem reading.reads) absent

/-! ## Passed lines -/

/-- The failing words of a name do not depend on what follows it. -/
theorem oneOf_failureWords_append {text follow : List Char} {char : Char}
    (delimiter : isNameCharacter (foldLetter char) = false) :
    oneOf failureWords (text ++ char :: follow) =
      (oneOf failureWords text).map (· ++ char :: follow) := by
  refine oneOf_append_stop (fun word member letter letterMem same => ?_) text follow
  have letters : (failureWords.all fun word => word.all fun letter =>
      isNameCharacter (foldLetter letter)) = true := by
    decide
  have inWord := List.all_eq_true.mp letters word member
  rw [← same, List.all_eq_true.mp inWord letter letterMem] at delimiter
  cases delimiter

/-- A passed line whose name has no failing word after its first character has no match. -/
theorem findAll_passed {line : ResultLine} {follow : List Char} (ends : LineEnd follow)
    (wellFormed : line.WellFormed propertyPrefixes failureResultPart) {first : Char}
    {others : List Char} (body : line.body = first :: others)
    (absent : beginsIn (oneOf failureWords) (others ++ line.rest) [] = false) :
    findAll failurePattern (line.name ++ (line.rest ++ follow)) =
      findAll failurePattern follow := by
  have whole : line.name ++ line.rest =
      (line.propertyPrefix ++ [first]) ++ (others ++ line.rest) := by
    rw [ResultLine.name, body]
    simp
  rw [← List.append_assoc, whole]
  refine findAll_append fun after suffix nonempty => ?_
  rcases suffix_append_cases suffix with inTail | ⟨start, startSuffix, -, rfl⟩
  · exact failurePattern_eq_none ends (beginsIn_of_suffix absent inTail)
  · by_contra found
    obtain ⟨⟨value, rest⟩, same⟩ := Option.ne_none_iff_exists'.mp found
    obtain ⟨⟨word, read, reached, wordMem, begins, parts, longer, sameLine, reads⟩⟩ :=
      exists_readsFailure same
    -- The prefix that begins at this place ends behind the prefix of the name, so the failing
    -- word begins behind the first character of the body.
    have long : start.length ≤ read.length := by
      obtain ⟨place, placed⟩ := startSuffix
      have lengths := congrArg List.length placed
      simp only [List.length_append, List.length_singleton] at lengths
      by_cases within : place.length ≤ line.propertyPrefix.length
      · have dropped := congrArg (List.drop place.length) placed
        rw [List.drop_left, List.drop_append_of_le_length within] at dropped
        rw [dropped, List.append_assoc, List.append_assoc] at begins
        have reachedEnd := length_le_of_caseless_drop wellFormed.prefixed wordMem begins
        omega
      · omega
    have begins := List.ne_nil_of_mem reads
    rw [List.append_assoc] at parts
    rcases List.append_eq_append_iff.mp parts with ⟨passed, rfl, tail⟩ | ⟨more, rfl, rfl⟩
    · exact withinLines_failureWords.begins_within ends tail
        (fun member => sameLine (List.mem_append_right _ member)) begins absent
    · have nothing : more = [] := by
        rw [List.length_append] at long
        exact List.length_eq_zero_iff.mp (by omega)
      subst nothing
      exact withinLines_failureWords.begins_within ends (List.nil_append _).symm List.not_mem_nil
        begins absent

/-! ## The name of a line -/

/-- The name of a line, with what the pattern gives back of it. -/
theorem failurePropertyPart_name {line : ResultLine}
    (wellFormed : line.WellFormed propertyPrefixes failureResultPart) (tail : List Char) :
    failurePropertyPart (line.name ++ tail) =
      greedy (fun char => isNameCharacter (foldLetter char)) (line.body ++ tail) := by
  have prefixed : oneOf propertyPrefixes (line.propertyPrefix ++ (line.body ++ tail)) =
      [line.body ++ tail] := by
    have differ : ∀ word ∈ propertyPrefixes, ∀ other ∈ propertyPrefixes, word ≠ other →
        ¬word.map foldLetter <+: other.map foldLetter ∧
          ¬other.map foldLetter <+: word.map foldLetter := by
      decide
    have distinct : "invariant_".toList ≠ "echidna_".toList := by decide
    have prefixes : propertyPrefixes = ["invariant_".toList, "echidna_".toList] := rfl
    have member := wellFormed.prefixed
    rw [prefixes] at member differ ⊢
    rw [oneOf, List.flatMap_cons, List.flatMap_cons, List.flatMap_nil, List.append_nil]
    rcases List.mem_pair.mp member with same | same
    · rw [same, caseless_append rfl, caseless_eq_nil rfl (differ _ (.tail _ (.head _)) _ (.head _)
        distinct.symm)]
      rfl
    · rw [same, caseless_append rfl, caseless_eq_nil rfl (differ _ (.head _) _ (.tail _ (.head _))
        distinct)]
      rfl
  rw [failurePropertyPart, andThen, ResultLine.name, List.append_assoc, prefixed,
    List.flatMap_singleton]

theorem isNameCharacter_foldLetter {char : Char} (named : isNameCharacter char = true) :
    isNameCharacter (foldLetter char) = true := by
  have small : char.toNat < 128 := by
    simp only [isNameCharacter, Char.isAlphanum, Char.isAlpha, Char.isUpper, Char.isLower,
      Char.isDigit, UInt32.le_iff_toNat_le, Bool.or_eq_true, Bool.and_eq_true,
      decide_eq_true_eq] at named
    rcases named with ((upper | lower) | digit) | rfl
    · exact lt_of_le_of_lt upper.2 (by decide)
    · exact lt_of_le_of_lt lower.2 (by decide)
    · exact lt_of_le_of_lt digit.2 (by decide)
    · decide
  have all : ∀ code < 128, isNameCharacter (Char.ofNat code) = true →
      isNameCharacter (foldLetter (Char.ofNat code)) = true := by
    decide
  have folded := all char.toNat small
  rw [Char.ofNat_toNat] at folded
  exact folded named

theorem not_name_of_rest {line : ResultLine} {prefixes : List (List Char)} {failing : Part}
    (wellFormed : line.WellFormed prefixes failing) (follow : List Char) :
    ∃ char more, line.rest ++ follow = char :: more ∧
      isNameCharacter (foldLetter char) = false := by
  obtain ⟨char, more, gap, delimiter⟩ := wellFormed.delimited
  exact ⟨char, more ++ (line.word ++ line.after) ++ follow, by rw [ResultLine.rest, gap]; rfl,
    delimiter⟩

/-- The outcome word of a failing line is read as a whole. -/
theorem head?_failureResultPart {line : ResultLine} {failing : Part}
    (wellFormed : line.WellFormed propertyPrefixes failing) (failed : line.outcome ≠ .passed)
    (tail : List Char) : (failureResultPart (line.word ++ tail)).head? = some tail := by
  have spelled := wellFormed.spelled
  rw [failureResultPart_eq]
  cases outcome : line.outcome with
  | passed => exact absurd outcome failed
  | failed =>
      rw [outcome] at spelled
      exact head?_oneOf [] spelled (List.forall_mem_nil _) tail
  | failure =>
      rw [outcome] at spelled
      exact head?_oneOf ["failed".toList] spelled (by decide) tail
  | counterexample =>
      rw [outcome] at spelled
      exact head?_oneOf ["failed".toList, "failure".toList, "fail".toList] spelled
        (by decide) tail

/-- The gap of a failing line ends at its outcome word. -/
theorem head?_restOfLine {line : ResultLine} {follow : List Char} (ends : LineEnd follow)
    (wellFormed : line.WellFormed propertyPrefixes failureResultPart)
    (failed : line.outcome ≠ .passed) :
    (andThen restOfLine failureResultPart (line.rest ++ follow)).head? =
      some (line.after ++ follow) := by
  have rest : line.rest ++ follow = line.gap ++ (line.word ++ (line.after ++ follow)) := by
    simp only [ResultLine.rest, List.append_assoc]
  rw [rest]
  refine head?_andThen_upTo ?_ ?_ ?_ (head?_failureResultPart wellFormed failed _)
  · intro char member
    refine decide_eq_true fun newline => wellFormed.oneLine ?_
    rw [← newline, ResultLine.text, ResultLine.rest]
    simp only [List.mem_append, member, true_or, or_true]
  · simp only [List.length_append]
    omega
  · refine beginsIn_eq_false_iff.mpr fun after suffix nonempty => ?_
    have here := beginsIn_eq_false_iff.mp wellFormed.ownWord after suffix nonempty
    rw [failureResultPart_eq] at here ⊢
    have later := withinLines_failureWords.oneOf_append_eq_nil ends here
    simpa only [List.append_assoc] using later

/-- A failing line gives its property, and the search goes on after the outcome word. -/
theorem findAll_failing {line : ResultLine} {follow : List Char} (ends : LineEnd follow)
    (wellFormed : line.WellFormed propertyPrefixes failureResultPart)
    (failed : line.outcome ≠ .passed) :
    (findAll failurePattern (line.name ++ (line.rest ++ follow))).map Prod.fst =
      line.name :: (findAll failurePattern follow).map Prod.fst := by
  obtain ⟨char, more, delimited, delimiter⟩ := not_name_of_rest wellFormed follow
  have nameFirst : (failurePropertyPart (line.name ++ (line.rest ++ follow))).head? =
      some (line.rest ++ follow) := by
    rw [failurePropertyPart_name wellFormed]
    refine head?_greedy wellFormed.bodyNonempty
      (fun char member => isNameCharacter_foldLetter (wellFormed.named char member)) ?_
    rw [delimited]
    rintro other same
    rwa [← Option.some.inj same]
  have matched := attribution_of_head? nameFirst (head?_restOfLine ends wellFormed failed)
  have whole : line.name ++ (line.rest ++ follow) =
      (line.name ++ (line.gap ++ line.word)) ++ (line.after ++ follow) := by
    simp only [ResultLine.rest, List.append_assoc]
  have found : failurePattern (line.name ++ (line.rest ++ follow)) =
      some ((line.name, line.name ++ (line.rest ++ follow)), line.after ++ follow) := by
    rw [failurePattern, matched, Option.map_some, taken_append]
  have nonempty : line.name ++ (line.gap ++ line.word) ≠ [] := by
    rw [ResultLine.name]
    simp [wellFormed.bodyNonempty]
  rw [whole] at found ⊢
  rw [findAll_of_match nonempty found, List.map_cons]
  congr 2
  refine beginsWith_failurePattern.findAll_silent_end ends
    (beginsIn_of_suffix wellFormed.onlyName ?_)
  exact ⟨line.gap ++ line.word, by rw [ResultLine.rest, List.append_assoc]⟩

/-! ## Names that are cut -/

theorem cutBefore_eq_none_iff {part : Part} {text : List Char} :
    cutBefore part text = none ↔ beginsIn part text [] = false := by
  induction text with
  | nil => exact iff_of_true rfl rfl
  | cons char text ih =>
      rw [cutBefore, beginsIn, Bool.or_eq_false_iff, ← ih, Bool.not_eq_false', List.append_nil]
      cases later : cutBefore part text with
      | some kept => simp
      | none => simp

/-- The failing words of a passed line stand in its name. -/
theorem absent_of_passed {line : ResultLine} {text : List Char}
    (wellFormed : line.WellFormed propertyPrefixes failureResultPart)
    (passed : line.outcome = .passed) (absent : beginsIn (oneOf failureWords) text [] = false) :
    beginsIn (oneOf failureWords) (text ++ line.rest) [] = false := by
  refine beginsIn_eq_false_iff.mpr fun after suffix nonempty => ?_
  rcases suffix_append_cases suffix with inRest | ⟨start, startSuffix, startNonempty, rfl⟩
  · have restAbsent := wellFormed.passedRest passed
    rw [failureResultPart_eq] at restAbsent
    exact beginsIn_eq_false_iff.mp restAbsent after inRest nonempty
  · obtain ⟨char, more, delimited, delimiter⟩ := not_name_of_rest wellFormed []
    rw [List.append_nil] at delimited
    have here := beginsIn_eq_false_iff.mp absent start startSuffix startNonempty
    rw [List.append_nil] at here ⊢
    rw [delimited, oneOf_failureWords_append delimiter, here, List.map_nil]

section Cutting

variable {line : ResultLine} {follow : List Char}

/-- What the pattern makes of the rests that a name can leave. -/
def failureFrom (text afterName : List Char) : Option ((List Char × List Char) × List Char) :=
  (andThen restOfLine failureResultPart afterName).head?.map fun rest =>
    ((taken text afterName, taken text rest), rest)

/-- A rest without a failing word gives no match. -/
theorem failureFrom_eq_none (ends : LineEnd follow) {text rest whole : List Char}
    (absent : beginsIn (oneOf failureWords) text [] = false) (suffix : rest <:+ text ++ follow)
    (inLine : ∀ read, text ++ follow = read ++ rest → '\n' ∉ read) :
    failureFrom whole rest = none := by
  by_contra found
  obtain ⟨value, same⟩ := Option.ne_none_iff_exists'.mp found
  obtain ⟨other, head, -⟩ := Option.map_eq_some_iff.mp same
  obtain ⟨gap, start, rfl, newlines, -, member⟩ :=
    exists_of_mem_andThen_upTo (List.mem_of_mem_head? head)
  obtain ⟨read, parts⟩ := suffix
  have sameLine : '\n' ∉ read ++ gap := by
    rw [List.mem_append, not_or]
    exact ⟨inLine read parts.symm, fun newline => absurd (newlines _ newline) (by decide)⟩
  rw [failureResultPart_eq] at member
  rw [← List.append_assoc] at parts
  exact withinLines_failureWords.begins_within ends parts.symm sameLine
    (List.ne_nil_of_mem member) absent

/-- `[A-Za-z0-9_]`, ignoring case. -/
def isNameLetter (char : Char) : Bool :=
  isNameCharacter (foldLetter char)

theorem newline_not_mem_of_named {text : List Char}
    (named : ∀ char ∈ text, isNameLetter char = true) : '\n' ∉ text :=
  fun member => absurd (named _ member) (by decide)

/-- Without a failing word after its first character, no rest of a name gives a match. -/
theorem findSome?_greedy_eq_none (ends : LineEnd follow)
    (wellFormed : line.WellFormed propertyPrefixes failureResultPart)
    (passed : line.outcome = .passed) {others whole : List Char}
    (absent : beginsIn (oneOf failureWords) others [] = false) (first : Char) :
    (greedy isNameLetter (first :: (others ++ (line.rest ++ follow)))).findSome?
      (failureFrom whole) = none := by
  refine List.findSome?_eq_none_iff.mpr fun rest member => ?_
  obtain ⟨read, parts, nonempty, named⟩ := mem_greedy member
  cases read with
  | nil => exact absurd rfl nonempty
  | cons char read =>
      have same := (List.cons.inj parts).2
      rw [← List.append_assoc] at same
      refine failureFrom_eq_none ends (absent_of_passed wellFormed passed absent)
        ⟨read, same.symm⟩ fun other otherParts => ?_
      rw [← List.append_cancel_right (same.symm.trans otherParts)]
      exact newline_not_mem_of_named fun letter letterMem => named letter (.tail _ letterMem)

/-- The pattern gives the name back up to its last failing word. -/
theorem findSome?_greedy_cut (ends : LineEnd follow)
    (wellFormed : line.WellFormed propertyPrefixes failureResultPart)
    (passed : line.outcome = .passed) {others kept : List Char}
    (named : ∀ char ∈ others, isNameLetter char = true)
    (cut : cutBefore failureResultPart others = some kept) :
    ∃ last rest, others = kept ++ last ∧ last ≠ [] ∧
      beginsIn (oneOf failureWords) last.tail [] = false ∧
      rest ∈ oneOf failureWords (last ++ (line.rest ++ follow)) ∧
      ∀ first whole, isNameLetter first = true →
        (greedy isNameLetter (first :: (others ++ (line.rest ++ follow)))).findSome?
          (failureFrom whole) =
            some ((taken whole (last ++ (line.rest ++ follow)), taken whole rest), rest) := by
  induction others generalizing kept with
  | nil => cases cut
  | cons char others ih =>
      have namedLater := fun letter member => named letter (List.mem_cons_of_mem char member)
      have unfolded : ∀ first whole, isNameLetter first = true →
          (greedy isNameLetter (first :: (char :: others ++ (line.rest ++ follow)))).findSome?
            (failureFrom whole) =
              ((greedy isNameLetter (char :: (others ++ (line.rest ++ follow)))).findSome?
                (failureFrom whole)).or
                  (failureFrom whole (char :: (others ++ (line.rest ++ follow)))) := by
        intro first whole accepted
        rw [greedy, if_pos accepted, List.cons_append, List.findSome?_append]
        simp
      rw [cutBefore] at cut
      cases later : cutBefore failureResultPart others with
      | some more =>
          rw [later] at cut
          obtain rfl := Option.some.inj cut
          obtain ⟨last, rest, rfl, nonempty, absent, member, found⟩ := ih namedLater later
          refine ⟨last, rest, rfl, nonempty, absent, member, fun first whole accepted => ?_⟩
          rw [unfolded first whole accepted, found char whole (named char (.head _))]
          rfl
      | none =>
          rw [later] at cut
          dsimp only at cut
          split at cut
          case isTrue => cases cut
          case isFalse begins =>
            obtain rfl := Option.some.inj cut
            have absent := cutBefore_eq_none_iff.mp later
            rw [failureResultPart_eq] at absent begins
            have reached : oneOf failureWords (char :: others ++ (line.rest ++ follow)) ≠ [] :=
              oneOf_append_ne_nil (fun nothing => begins (List.isEmpty_iff.mpr nothing)) _
            obtain ⟨rest, head⟩ := Option.isSome_iff_exists.mp
              (List.isSome_head?.mpr reached)
            refine ⟨char :: others, rest, rfl, List.cons_ne_nil _ _, absent,
              List.mem_of_mem_head? head, fun first whole accepted => ?_⟩
            have here : (andThen restOfLine failureResultPart
                ([] ++ (char :: others ++ (line.rest ++ follow)))).head? = some rest := by
              refine head?_andThen_upTo (List.forall_mem_nil _) (Nat.zero_le _) rfl ?_
              rwa [failureResultPart_eq]
            rw [unfolded first whole accepted,
              findSome?_greedy_eq_none ends wellFormed passed absent, Option.none_or]
            rw [List.nil_append, List.cons_append] at here
            rw [failureFrom, here]
            rfl

/-- A passed line with a failing word in its name gives the name cut before the word. -/
theorem findAll_cut (ends : LineEnd follow)
    (wellFormed : line.WellFormed propertyPrefixes failureResultPart)
    (passed : line.outcome = .passed) {first : Char} {others kept : List Char}
    (body : line.body = first :: others)
    (cut : cutBefore failureResultPart others = some kept) :
    (findAll failurePattern (line.name ++ (line.rest ++ follow))).map Prod.fst =
      (line.propertyPrefix ++ first :: kept) :: (findAll failurePattern follow).map Prod.fst := by
  have named : ∀ char ∈ line.body, isNameLetter char = true := fun char member =>
    isNameCharacter_foldLetter (wellFormed.named char member)
  rw [body] at named
  obtain ⟨last, rest, rfl, nonempty, absent, member, found⟩ := findSome?_greedy_cut ends
    wellFormed passed (fun char charMem => named char (.tail _ charMem)) cut
  have cutName : line.name ++ (line.rest ++ follow) =
      (line.propertyPrefix ++ first :: kept) ++ (last ++ (line.rest ++ follow)) := by
    rw [ResultLine.name, body]
    simp
  -- The search goes on after the failing word, where no other one follows in the line.
  obtain ⟨word, wordMem, wordRead⟩ := List.mem_flatMap.mp member
  obtain ⟨read, readParts, spelled⟩ := mem_caseless_iff.mp wordRead
  have sameLine : '\n' ∉ read :=
    not_mem_of_spelled (withinLines_failureWords.stops word wordMem) spelled
  have readNonempty : read ≠ [] := by
    rintro rfl
    exact withinLines_failureWords.nonempty (List.map_eq_nil_iff.mp spelled.symm ▸ wordMem)
  obtain ⟨remaining, lineParts, rfl⟩ : ∃ remaining, last ++ line.rest = read ++ remaining ∧
      rest = remaining ++ follow := by
    refine ends.split ?_ sameLine
    rw [List.append_assoc]
    exact readParts
  have matched : failurePattern (line.name ++ (line.rest ++ follow)) =
      some ((line.propertyPrefix ++ first :: kept, line.name ++ (line.rest ++ follow)),
        remaining ++ follow) := by
    have ways := found first (line.name ++ (line.rest ++ follow)) (named first (.head _))
    have kept := congrArg (fun rest => taken rest (last ++ (line.rest ++ follow))) cutName
    rw [taken_append] at kept
    rw [kept] at ways
    rw [failurePattern, attribution, failurePropertyPart_name wellFormed, body]
    exact congrArg (Option.map fun found =>
      ((found.1.1, line.name ++ (line.rest ++ follow)), found.2)) ways
  have whole : line.name ++ (line.rest ++ follow) =
      (line.propertyPrefix ++ first :: kept ++ read) ++ (remaining ++ follow) := by
    rw [cutName, readParts]
    simp only [List.append_assoc]
  have remainingAbsent : beginsIn (oneOf failureWords) remaining [] = false := by
    have tailAbsent := absent_of_passed wellFormed passed absent
    cases last with
    | nil => exact absurd rfl nonempty
    | cons letter last =>
        cases read with
        | nil => exact absurd rfl readNonempty
        | cons other read =>
            have same := (List.cons.inj lineParts).2
            exact beginsIn_of_suffix tailAbsent ⟨read, same.symm⟩
  rw [whole] at matched ⊢
  rw [findAll_of_match (by simp) matched, List.map_cons]
  congr 2
  exact findAll_append fun after suffix _ =>
    failurePattern_eq_none ends (beginsIn_of_suffix remainingAbsent suffix)

end Cutting

/-! ## All lines -/

/-- The names that a line adds to the reports. -/
theorem findAll_line {line : OutputLine} {follow : List Char} (ends : LineEnd follow)
    (wellFormed : line.WellFormed propertyPrefixes failureResultPart) :
    (findAll failurePattern (line.text ++ follow)).map Prod.fst =
      lineReports line ++ (findAll failurePattern follow).map Prod.fst := by
  cases line with
  | other text => rw [beginsWith_failurePattern.findAll_other ends wellFormed]; rfl
  | result line =>
      rw [beginsWith_failurePattern.findAll_result ends wellFormed, lineReports]
      by_cases passed : line.outcome = .passed
      · rw [if_pos passed]
        cases body : line.body with
        | nil => exact absurd body wellFormed.bodyNonempty
        | cons first others =>
            cases cut : cutBefore failureResultPart others with
            | none =>
                have absent := cutBefore_eq_none_iff.mp cut
                rw [failureResultPart_eq] at absent
                rw [findAll_passed ends wellFormed body (absent_of_passed wellFormed passed absent),
                  ResultLine.cutName?, body]
                simp only [cut, Option.map_none, Option.toList_none, List.nil_append]
            | some kept =>
                rw [findAll_cut ends wellFormed passed body cut, ResultLine.cutName?, body]
                simp only [cut, Option.map_some, Option.toList_some, List.singleton_append]
      · rw [if_neg passed, findAll_failing ends wellFormed passed]
        rfl

theorem findAll_following {lines : List OutputLine} {follow : List Char} (ends : LineEnd follow)
    (wellFormed : ∀ line ∈ lines, line.WellFormed propertyPrefixes failureResultPart) :
    (findAll failurePattern (following lines ++ follow)).map Prod.fst =
      lines.flatMap lineReports ++ (findAll failurePattern follow).map Prod.fst := by
  induction lines with
  | nil => rfl
  | cons line lines ih =>
      have text : following (line :: lines) ++ follow =
          '\n' :: (line.text ++ (following lines ++ follow)) := by
        simp only [following, List.flatMap_cons, List.cons_append, List.append_assoc]
      rw [text, beginsWith_failurePattern.findAll_newline,
        findAll_line (lineEnd_following_append lines ends) (wellFormed line (.head _)),
        ih fun other member => wellFormed other (.tail _ member), List.flatMap_cons,
        List.append_assoc]

theorem findAll_joined {lines : List OutputLine} {follow : List Char} (ends : LineEnd follow)
    (wellFormed : ∀ line ∈ lines, line.WellFormed propertyPrefixes failureResultPart) :
    (findAll failurePattern (joined lines ++ follow)).map Prod.fst =
      lines.flatMap lineReports ++ (findAll failurePattern follow).map Prod.fst := by
  cases lines with
  | nil => rfl
  | cons line lines =>
      rw [← findAll_following ends wellFormed, joined_cons,
        ← beginsWith_failurePattern.findAll_newline]
      rfl

/-- The names in the reports on two streams. -/
theorem findAll_combined {stdout stderr : List OutputLine}
    (wellFormed : ∀ line ∈ stdout ++ stderr,
      line.WellFormed propertyPrefixes failureResultPart) :
    (findAll failurePattern (combined (joined stdout) (joined stderr))).map Prod.fst =
      (stdout ++ stderr).flatMap lineReports := by
  have text : combined (joined stdout) (joined stderr) =
      joined stdout ++ '\n' :: (joined stderr ++ []) := by
    simp [combined]
  rw [text, findAll_joined (.inr ⟨_, rfl⟩) fun line member =>
      wellFormed line (List.mem_append_left _ member),
    beginsWith_failurePattern.findAll_newline, findAll_joined (.inl rfl) fun line member =>
      wellFormed line (List.mem_append_right _ member), List.flatMap_append]
  exact congrArg _ (List.append_nil _)

/-- The reports are exact when every name that is cut is the name of a failing line. -/
theorem reports_exact_iff {lines : List OutputLine} :
    (∀ name, name ∈ lines.flatMap lineReports ↔ name ∈ failingNames lines) ↔
      ∀ line, .result line ∈ lines → line.outcome = .passed →
        ∀ name, line.cutName? = some name → name ∈ failingNames lines := by
  constructor
  · intro exact line member passed name cut
    refine (exact name).mp (List.mem_flatMap.mpr ⟨_, member, ?_⟩)
    rw [lineReports, if_pos passed, cut]
    exact .head _
  · intro cuts name
    constructor
    · intro reported
      obtain ⟨line, member, listed⟩ := List.mem_flatMap.mp reported
      cases line with
      | other text => cases listed
      | result line =>
          rw [lineReports] at listed
          by_cases passed : line.outcome = .passed
          · rw [if_pos passed, Option.mem_toList] at listed
            exact cuts line member passed name listed
          · rw [if_neg passed, List.mem_singleton] at listed
            refine List.mem_filterMap.mpr ⟨_, member, ?_⟩
            rw [OutputLine.failingName?, if_neg passed, listed]
    · intro failed
      obtain ⟨line, member, named⟩ := List.mem_filterMap.mp failed
      refine List.mem_flatMap.mpr ⟨line, member, ?_⟩
      cases line with
      | other text => cases named
      | result line =>
          rw [OutputLine.failingName?] at named
          by_cases passed : line.outcome = .passed
          · rw [if_pos passed] at named
            cases named
          · rw [if_neg passed] at named
            obtain rfl := Option.some.inj named
            rw [lineReports, if_neg passed]
            exact .head _

end Formal

end MmAudit
