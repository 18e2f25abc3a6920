import MmAudit.Formal.LineFailures
import Mathlib.Data.Finset.Card

/-!
# Attribution of textual results

The pattern of `parse_kontrol_output` reads over the ends of lines.  A passed line followed by a
failing word within the gap is taken for a counterexample, and the line of that word is lost.
-/

namespace MmAudit

namespace Formal

open Backtracking SortedSets

/-! ## What the pattern of Kontrol reads -/

def kontrolPrefixes : List (List Char) :=
  ["testKontrol_".toList]

/-- A name as the pattern reads it. -/
def IsGenerated (name : List Char) : Prop :=
  ∃ spelling digits, name = spelling ++ digits ∧
    spelling.map foldLetter = "testKontrol_".toList.map foldLetter ∧ digits.length = 24 ∧
      ∀ char ∈ digits, isHexDigit (foldLetter char) = true

/-- A failing word begins within the gap that the pattern allows. -/
def FailingWordFollows (text : List Char) : Prop :=
  ∃ gap found, text = gap ++ found ∧ gap.length ≤ 500 ∧ kontrolStatusPart found ≠ []

/-- A passed line has a name that a failing word of its surroundings follows. -/
def TakesFailure (line : ResultLine) (later : List OutputLine) : Prop :=
  ∃ before name after, line.name = before ++ (name ++ after) ∧ IsGenerated name ∧
    FailingWordFollows (after ++ (line.rest ++ following later))

theorem withinLines_kontrolPrefixes : WithinLines kontrolPrefixes where
  stops := stops_of_all (by decide)
  nonempty := by decide

theorem isNameLetter_of_isGenerated {name : List Char} (generated : IsGenerated name) :
    ∀ char ∈ name, isNameLetter char = true := by
  obtain ⟨spelling, digits, rfl, spelled, -, hex⟩ := generated
  intro char member
  rcases List.mem_append.mp member with inSpelling | inDigits
  · have folded := List.mem_map_of_mem (f := foldLetter) inSpelling
    rw [spelled] at folded
    have letters : ("testKontrol_".toList.map foldLetter).all isNameCharacter = true := by
      decide
    exact List.all_eq_true.mp letters _ folded
  · have digit := hex char inDigits
    simp only [isHexDigit, Bool.or_eq_true, Bool.and_eq_true, decide_eq_true_eq] at digit
    rw [isNameLetter, isNameCharacter, Bool.or_eq_true]
    left
    rw [Char.isAlphanum, Bool.or_eq_true]
    rcases digit with digit | ⟨low, high⟩
    · exact .inr digit
    · left
      rw [Char.isAlpha, Bool.or_eq_true]
      right
      rw [Char.isLower, Bool.and_eq_true, decide_eq_true_eq, decide_eq_true_eq]
      exact ⟨low, le_trans high (by decide)⟩

theorem of_kontrolPattern {text rest : List Char} {value : List Char × List Char}
    (found : kontrolPattern text = some (value, rest)) :
    ∃ after, text = value.1 ++ after ∧ IsGenerated value.1 ∧ FailingWordFollows after := by
  obtain ⟨afterName, nameMem, named, restMem⟩ := exists_of_attribution found
  obtain ⟨afterPrefix, prefixMem, digitsMem⟩ := List.mem_flatMap.mp nameMem
  obtain ⟨word, wordMem, wordRead⟩ := List.mem_flatMap.mp prefixMem
  obtain rfl := List.mem_singleton.mp wordMem
  obtain ⟨spelling, rfl, spelled⟩ := mem_caseless_iff.mp wordRead
  obtain ⟨digits, rfl, length, hex⟩ := mem_exactly.mp digitsMem
  obtain ⟨gap, start, rfl, -, short, reads⟩ := exists_of_mem_andThen_upTo restMem
  rw [← List.append_assoc, taken_append] at named
  rw [named]
  exact ⟨_, (List.append_assoc ..).symm, ⟨spelling, digits, rfl, spelled, length, hex⟩, gap, start,
    rfl, short, List.ne_nil_of_mem reads⟩

theorem kontrolPropertyPart_append {name : List Char} (generated : IsGenerated name)
    (after : List Char) : kontrolPropertyPart (name ++ after) = [after] := by
  obtain ⟨spelling, digits, rfl, spelled, length, hex⟩ := generated
  rw [kontrolPropertyPart, andThen, oneOf, List.flatMap_singleton, List.append_assoc,
    caseless_append spelled, List.flatMap_singleton, ← length, exactly_append hex]

theorem kontrolPattern_ne_none {name after : List Char} (generated : IsGenerated name)
    (follows : FailingWordFollows after) : kontrolPattern (name ++ after) ≠ none := by
  obtain ⟨gap, found, rfl, short, begins⟩ := follows
  have reached : andThen kontrolGap kontrolStatusPart (gap ++ found) ≠ [] :=
    andThen_upTo_ne_nil (fun _ _ => rfl) short begins
  obtain ⟨rest, head⟩ := Option.isSome_iff_exists.mp (List.isSome_head?.mpr reached)
  rw [kontrolPattern, attribution_of_head? (by rw [kontrolPropertyPart_append generated]; rfl) head]
  exact Option.some_ne_none _

theorem beginsWith_kontrolPattern : BeginsWith kontrolPattern kontrolPrefixes where
  toWithinLines := withinLines_kontrolPrefixes
  begins := by
    intro text found
    obtain ⟨⟨value, rest⟩, same⟩ := Option.ne_none_iff_exists'.mp found
    obtain ⟨after, rfl, ⟨spelling, digits, named, spelled, -⟩, -⟩ := of_kontrolPattern same
    rw [named, List.append_assoc, kontrolPrefixes, oneOf, List.flatMap_singleton,
      caseless_append spelled]
    exact List.cons_ne_nil _ _

/-! ## One line -/

section Lines

variable {line : ResultLine} {follow : List Char}

/-- The body of a generated name. -/
def HasGeneratedName (line : ResultLine) : Prop :=
  line.body.length = 24 ∧ ∀ char ∈ line.body, isHexDigit (foldLetter char) = true

theorem prefix_eq (wellFormed : line.WellFormed kontrolPrefixes kontrolStatusPart) :
    line.propertyPrefix = "testKontrol_".toList :=
  List.mem_singleton.mp wellFormed.prefixed

theorem isGenerated_iff (wellFormed : line.WellFormed kontrolPrefixes kontrolStatusPart) :
    IsGenerated line.name ↔ HasGeneratedName line := by
  rw [ResultLine.name, prefix_eq wellFormed]
  constructor
  · rintro ⟨spelling, digits, parts, spelled, length, hex⟩
    have lengths := congrArg List.length spelled
    rw [List.length_map, List.length_map] at lengths
    have same := (List.append_inj parts lengths.symm).2
    rw [HasGeneratedName, same]
    exact ⟨length, hex⟩
  · rintro ⟨length, hex⟩
    exact ⟨_, _, rfl, rfl, length, hex⟩

/-- The outcome word of a failing line is read as a whole. -/
theorem head?_kontrolStatusPart
    (wellFormed : line.WellFormed kontrolPrefixes kontrolStatusPart)
    (failed : line.outcome ≠ .passed) (tail : List Char) :
    (kontrolStatusPart (line.word ++ tail)).head? = some tail := by
  have spelled := wellFormed.spelled
  cases outcome : line.outcome with
  | passed => exact absurd outcome failed
  | counterexample =>
      rw [outcome] at spelled
      exact head?_oneOf [] spelled (List.forall_mem_nil _) tail
  | failed =>
      rw [outcome] at spelled
      exact head?_oneOf ["counterexample".toList] spelled (by decide) tail
  | failure =>
      rw [outcome] at spelled
      exact head?_oneOf ["counterexample".toList, "failed".toList] spelled (by decide) tail

theorem withinLines_kontrolStatuses : WithinLines
    ["counterexample".toList, "failed".toList, "failure".toList, "violated".toList] where
  stops := stops_of_all (by decide)
  nonempty := by decide

/-- A failing line gives its property, and the search goes on after the outcome word. -/
theorem kontrol_failing (ends : LineEnd follow)
    (wellFormed : line.WellFormed kontrolPrefixes kontrolStatusPart)
    (failed : line.outcome ≠ .passed) (generated : HasGeneratedName line)
    (near : line.gap.length ≤ 500) :
    (findAll kontrolPattern (line.name ++ (line.rest ++ follow))).map Prod.fst =
      line.name :: (findAll kontrolPattern follow).map Prod.fst := by
  have rest : line.rest ++ follow = line.gap ++ (line.word ++ (line.after ++ follow)) := by
    simp only [ResultLine.rest, List.append_assoc]
  have absent : beginsIn kontrolStatusPart line.gap (line.word ++ (line.after ++ follow)) =
      false := by
    refine beginsIn_eq_false_iff.mpr fun after suffix nonempty => ?_
    have here := beginsIn_eq_false_iff.mp wellFormed.ownWord after suffix nonempty
    rw [← List.append_assoc line.word, ← List.append_assoc after]
    exact withinLines_kontrolStatuses.oneOf_append_eq_nil ends here
  have outcome : (andThen kontrolGap kontrolStatusPart (line.rest ++ follow)).head? =
      some (line.after ++ follow) := by
    rw [rest]
    exact head?_andThen_upTo (fun _ _ => rfl) near absent
      (head?_kontrolStatusPart wellFormed failed _)
  have nameFirst : (kontrolPropertyPart (line.name ++ (line.rest ++ follow))).head? =
      some (line.rest ++ follow) := by
    rw [kontrolPropertyPart_append ((isGenerated_iff wellFormed).mpr generated)]
    rfl
  have found : kontrolPattern (line.name ++ (line.rest ++ follow)) = _ :=
    attribution_of_head? nameFirst outcome
  have whole : line.name ++ (line.rest ++ follow) =
      (line.name ++ (line.gap ++ line.word)) ++ (line.after ++ follow) := by
    simp only [ResultLine.rest, List.append_assoc]
  have nonempty : line.name ++ (line.gap ++ line.word) ≠ [] := by
    rw [ResultLine.name]
    simp [wellFormed.bodyNonempty]
  rw [taken_append] at found
  rw [whole] at found ⊢
  rw [findAll_of_match nonempty found, List.map_cons]
  congr 2
  refine beginsWith_kontrolPattern.findAll_silent_end ends
    (beginsIn_of_suffix wellFormed.onlyName ?_)
  exact ⟨line.gap ++ line.word, by rw [ResultLine.rest, List.append_assoc]⟩

/-- A match that begins in the name of a line has its name there. -/
theorem takesFailure_of_match {later : List OutputLine}
    (wellFormed : line.WellFormed kontrolPrefixes kontrolStatusPart) {start rest : List Char}
    {value : List Char × List Char} (suffix : start <:+ line.name)
    (found : kontrolPattern (start ++ (line.rest ++ following later)) = some (value, rest)) :
    TakesFailure line later ∧ value.1 <:+: line.name := by
  obtain ⟨before, named⟩ := suffix
  obtain ⟨after, parts, generated, follows⟩ := of_kontrolPattern found
  obtain ⟨char, more, delimited, delimiter⟩ := not_name_of_rest wellFormed (following later)
  obtain ⟨more, rfl, rfl⟩ : ∃ more, start = value.1 ++ more ∧
      after = more ++ (line.rest ++ following later) := by
    rcases List.append_eq_append_iff.mp parts with ⟨passed, same, tail⟩ | ⟨more, same, tail⟩
    · cases passed with
      | nil => exact ⟨[], by rw [List.append_nil, same, List.append_nil], by rw [tail]; rfl⟩
      | cons other passed =>
          rw [delimited] at tail
          obtain rfl := (List.cons.inj tail).1
          have letter := isNameLetter_of_isGenerated generated char
            (by rw [same]; exact List.mem_append_right _ (.head _))
          rw [isNameLetter, delimiter] at letter
          cases letter
    · exact ⟨more, same, tail⟩
  exact ⟨⟨before, value.1, more, named.symm, generated, follows⟩,
    ⟨before, more, by rw [← named, List.append_assoc]⟩⟩

/-- A passed line that takes no failure is passed over. -/
theorem kontrol_passed {later : List OutputLine}
    (wellFormed : line.WellFormed kontrolPrefixes kontrolStatusPart)
    (free : ¬TakesFailure line later) :
    findAll kontrolPattern (line.name ++ (line.rest ++ following later)) =
      findAll kontrolPattern (following later) := by
  have ends := lineEnd_following later
  rw [← beginsWith_kontrolPattern.findAll_silent_end ends wellFormed.onlyName]
  refine findAll_append fun start suffix _ => ?_
  by_contra found
  obtain ⟨⟨value, rest⟩, same⟩ := Option.ne_none_iff_exists'.mp found
  exact free (takesFailure_of_match wellFormed suffix same).1

/-- A passed line that takes a failure gives a name that stands in its own. -/
theorem kontrol_takes {later : List OutputLine}
    (wellFormed : line.WellFormed kontrolPrefixes kontrolStatusPart)
    (takes : TakesFailure line later) :
    ∃ name others, name <:+: line.name ∧
      (findAll kontrolPattern (line.name ++ (line.rest ++ following later))).map Prod.fst =
        name :: others := by
  rcases findAll_append_cases line.name (line.rest ++ following later)
    with fails | ⟨start, value, rest, others, suffix, found, same⟩
  · obtain ⟨before, name, after, named, generated, follows⟩ := takes
    refine absurd (fails (name ++ after) ⟨before, named.symm⟩ ?_) ?_
    · obtain ⟨spelling, digits, rfl, -, length, -⟩ := generated
      intro nothing
      have lengths := congrArg List.length nothing
      simp only [List.length_append, length, List.length_nil] at lengths
      omega
    · rw [List.append_assoc]
      exact kontrolPattern_ne_none generated follows
  · rw [same]
    exact ⟨_, _, (takesFailure_of_match wellFormed suffix found).2, rfl⟩

end Lines

/-! ## All lines -/

/-- Failing lines give generated names within the gap of the pattern. -/
structure Readable (lines : List OutputLine) : Prop where
  wellFormed : ∀ line ∈ lines, line.WellFormed kontrolPrefixes kontrolStatusPart
  generated : ∀ line, .result line ∈ lines → line.outcome ≠ .passed → HasGeneratedName line
  near : ∀ line, .result line ∈ lines → line.outcome ≠ .passed → line.gap.length ≤ 500

theorem Readable.tail {line : OutputLine} {lines : List OutputLine}
    (readable : Readable (line :: lines)) : Readable lines where
  wellFormed := fun other member => readable.wellFormed other (.tail _ member)
  generated := fun other member => readable.generated other (.tail _ member)
  near := fun other member => readable.near other (.tail _ member)

/-- The names that the pattern reads out of some lines. -/
def kontrolReports (lines : List OutputLine) : List (List Char) :=
  (findAll kontrolPattern (following lines)).map Prod.fst

theorem kontrolReports_cons (line : OutputLine) (lines : List OutputLine) :
    kontrolReports (line :: lines) =
      (findAll kontrolPattern (line.text ++ following lines)).map Prod.fst := by
  rw [kontrolReports, following, List.flatMap_cons, List.cons_append,
    beginsWith_kontrolPattern.findAll_newline]
  rfl

theorem kontrolReports_result {line : ResultLine} {lines : List OutputLine}
    (wellFormed : line.WellFormed kontrolPrefixes kontrolStatusPart) :
    kontrolReports (.result line :: lines) =
      (findAll kontrolPattern (line.name ++ (line.rest ++ following lines))).map Prod.fst := by
  rw [kontrolReports_cons,
    beginsWith_kontrolPattern.findAll_result (lineEnd_following lines) wellFormed]

/-- A line that takes no failure adds its own name at most. -/
theorem kontrolReports_cons_of_free {line : OutputLine} {lines : List OutputLine}
    (readable : Readable (line :: lines))
    (free : ∀ result, line = .result result → result.outcome = .passed →
      ¬TakesFailure result lines) :
    kontrolReports (line :: lines) = line.failingName?.toList ++ kontrolReports lines := by
  have wellFormed := readable.wellFormed line (.head _)
  cases line with
  | other text =>
      rw [kontrolReports_cons,
        beginsWith_kontrolPattern.findAll_other (lineEnd_following lines) wellFormed]
      rfl
  | result line =>
      rw [kontrolReports_result wellFormed, OutputLine.failingName?]
      by_cases passed : line.outcome = .passed
      · rw [if_pos passed, kontrol_passed wellFormed (free line rfl passed)]
        rfl
      · rw [if_neg passed, kontrol_failing (lineEnd_following lines) wellFormed passed
          (readable.generated line (.head _) passed) (readable.near line (.head _) passed)]
        rfl

theorem failingNames_cons (line : OutputLine) (lines : List OutputLine) :
    failingNames (line :: lines) = line.failingName?.toList ++ failingNames lines := by
  cases failing : line.failingName? with
  | none => rw [failingNames, List.filterMap_cons_none failing]; rfl
  | some name => rw [failingNames, List.filterMap_cons_some failing]; rfl

/-- The places of passed lines that take a failure. -/
def TakesFailureAt (lines earlier : List OutputLine) (line : ResultLine)
    (later : List OutputLine) : Prop :=
  lines = earlier ++ .result line :: later ∧ line.outcome = .passed ∧ TakesFailure line later

/-- Where no passed line takes a failure, the reports are those of the failing lines. -/
theorem kontrolReports_eq {lines : List OutputLine} (readable : Readable lines)
    (free : ∀ earlier line later, ¬TakesFailureAt lines earlier line later) :
    kontrolReports lines = failingNames lines := by
  induction lines with
  | nil => rfl
  | cons line lines ih =>
      rw [kontrolReports_cons_of_free readable, failingNames_cons, ih readable.tail]
      · rintro earlier other later ⟨rfl, passed, takes⟩
        exact free (line :: earlier) other later ⟨rfl, passed, takes⟩
      · rintro result rfl passed takes
        exact free [] result lines ⟨rfl, passed, takes⟩

/-- The first passed line that takes a failure is reported after the failing lines before it. -/
theorem exists_first_taken {earlier later : List OutputLine} {line : ResultLine}
    (readable : Readable (earlier ++ .result line :: later)) (passed : line.outcome = .passed)
    (takes : TakesFailure line later) :
    ∃ before first after name others, before <+: earlier ∧
      TakesFailureAt (earlier ++ .result line :: later) before first after ∧
        name <:+: first.name ∧
          kontrolReports (earlier ++ .result line :: later) =
            failingNames before ++ name :: others := by
  induction earlier with
  | nil =>
      rw [List.nil_append] at readable ⊢
      have wellFormed := readable.wellFormed _ (.head _)
      obtain ⟨name, others, within, reports⟩ := kontrol_takes wellFormed takes
      refine ⟨[], line, later, name, others, List.nil_prefix, ⟨rfl, passed, takes⟩, within, ?_⟩
      rw [kontrolReports_result wellFormed, reports]
      rfl
  | cons other earlier ih =>
      rw [List.cons_append] at readable ⊢
      by_cases free : ∀ result, other = .result result → result.outcome = .passed →
          ¬TakesFailure result (earlier ++ .result line :: later)
      · obtain ⟨before, first, after, name, others, isPrefix, ⟨parts, firstPassed, firstTakes⟩,
          within, reports⟩ := ih readable.tail
        refine ⟨other :: before, first, after, name, others, List.cons_prefix_cons.mpr
          ⟨rfl, isPrefix⟩, ⟨by rw [parts]; rfl, firstPassed, firstTakes⟩, within, ?_⟩
        rw [kontrolReports_cons_of_free readable free, reports, failingNames_cons,
          List.append_assoc]
      · push Not at free
        obtain ⟨result, rfl, resultPassed, resultTakes⟩ := free
        have wellFormed := readable.wellFormed _ (.head _)
        obtain ⟨name, others, within, reports⟩ := kontrol_takes wellFormed resultTakes
        refine ⟨[], result, _, name, others, List.nil_prefix, ⟨rfl, resultPassed, resultTakes⟩,
          within, ?_⟩
        rw [kontrolReports_result wellFormed, reports]
        rfl

/-! ## The loop over the matches -/

/-- The properties of some counterexamples. -/
def foundNames (found : List KontrolCounterexample) : List (List Char) :=
  found.map (·.propertyName)

section Loop

variable {found : List KontrolCounterexample} {matched : List (List Char × List Char)}

theorem any_propertyName_iff (name : List Char) :
    (found.any (·.propertyName = name)) = true ↔ name ∈ foundNames found := by
  rw [List.any_eq_true, foundNames, List.mem_map]
  simp only [decide_eq_true_eq]

/-- What the loop makes of a match. -/
def textCounterexample (found : List Char × List Char) : KontrolCounterexample where
  propertyName := found.1
  counterexample := [("summary".toList, .string (boundedSummary found.2))]

/-- One turn of the loop. -/
theorem kontrolTextLoop_cons (first : List Char × List Char) :
    kontrolTextLoop (first :: matched) found =
      if first.1 ∈ foundNames found then kontrolTextLoop matched found
      else if maxCounterexamples ≤ found.length + 1 then found ++ [textCounterexample first]
      else kontrolTextLoop matched (found ++ [textCounterexample first]) := by
  rw [kontrolTextLoop]
  by_cases known : first.1 ∈ foundNames found
  · rw [if_pos ((any_propertyName_iff first.1).mpr known), if_pos known]
  · rw [if_neg (mt (any_propertyName_iff first.1).mp known), if_neg known]
    simp only [List.length_append, List.length_singleton]
    rfl

theorem foundNames_append_singleton (counterexample : KontrolCounterexample) :
    foundNames (found ++ [counterexample]) = foundNames found ++ [counterexample.propertyName] := by
  rw [foundNames, foundNames, List.map_append]
  rfl

theorem mem_kontrolTextLoop_of_mem {name : List Char} (known : name ∈ foundNames found) :
    name ∈ foundNames (kontrolTextLoop matched found) := by
  induction matched generalizing found with
  | nil => exact known
  | cons first matched ih =>
      rw [kontrolTextLoop_cons]
      split_ifs
      · exact ih known
      · rw [foundNames_append_singleton]
        exact List.mem_append_left _ known
      · refine ih ?_
        rw [foundNames_append_singleton]
        exact List.mem_append_left _ known

theorem of_mem_kontrolTextLoop {name : List Char}
    (reported : name ∈ foundNames (kontrolTextLoop matched found)) :
    name ∈ foundNames found ++ matched.map Prod.fst := by
  induction matched generalizing found with
  | nil => exact List.mem_append_left _ reported
  | cons first matched ih =>
      rw [kontrolTextLoop_cons] at reported
      rw [List.map_cons, List.mem_append, List.mem_cons]
      split_ifs at reported
      · rcases List.mem_append.mp (ih reported) with earlier | later
        · exact .inl earlier
        · exact .inr (.inr later)
      · rw [foundNames_append_singleton, List.mem_append, List.mem_singleton] at reported
        exact reported.imp_right .inl
      · have listed := ih reported
        rw [foundNames_append_singleton, List.append_assoc, List.mem_append,
          List.singleton_append, List.mem_cons] at listed
        exact listed

/-- The different names that the loop has to do with. -/
def allNames (found : List KontrolCounterexample) (matched : List (List Char × List Char)) :
    Finset (List Char) :=
  (foundNames found ++ matched.map Prod.fst).toFinset

/-- What the loop has found before it stops: different names, and fewer than the limit. -/
structure HasRoom (found : List KontrolCounterexample) : Prop where
  nodup : (foundNames found).Nodup
  room : found.length < maxCounterexamples

theorem allNames_of_known {first : List Char × List Char} (known : first.1 ∈ foundNames found) :
    allNames found (first :: matched) = allNames found matched := by
  ext other
  simp only [allNames, List.mem_toFinset, List.map_cons, List.mem_append, List.mem_cons]
  constructor
  · rintro (earlier | rfl | later)
    · exact .inl earlier
    · exact .inl known
    · exact .inr later
  · exact Or.imp_right .inr

theorem allNames_append_singleton (first : List Char × List Char) :
    allNames (found ++ [textCounterexample first]) matched = allNames found (first :: matched) := by
  rw [allNames, foundNames_append_singleton, List.append_assoc]
  rfl

theorem card_foundNames_le (nodup : (foundNames found).Nodup) :
    found.length ≤ (allNames found matched).card := by
  have size := List.toFinset_card_of_nodup nodup
  rw [foundNames, List.length_map] at size
  rw [← size]
  exact Finset.card_le_card fun name member => by
    rw [allNames, List.toFinset_append]
    exact Finset.mem_union_left _ member

theorem nodup_append_singleton (nodup : (foundNames found).Nodup)
    {first : List Char × List Char} (fresh : first.1 ∉ foundNames found) :
    (foundNames (found ++ [textCounterexample first])).Nodup := by
  rw [foundNames_append_singleton, List.nodup_append_comm]
  exact List.nodup_cons.mpr ⟨fresh, nodup⟩

/-- The loop goes on while there are fewer names than the limit. -/
theorem kontrolTextLoop_append {later : List (List Char × List Char)} (room : HasRoom found)
    (few : (allNames found matched).card < maxCounterexamples) :
    kontrolTextLoop (matched ++ later) found =
      kontrolTextLoop later (kontrolTextLoop matched found) := by
  induction matched generalizing found with
  | nil => rfl
  | cons first matched ih =>
      rw [List.cons_append, kontrolTextLoop_cons, kontrolTextLoop_cons]
      by_cases known : first.1 ∈ foundNames found
      · rw [if_pos known, if_pos known]
        rw [allNames_of_known known] at few
        exact ih room few
      · have nodup := nodup_append_singleton room.nodup known
        rw [← allNames_append_singleton] at few
        have within := lt_of_le_of_lt (card_foundNames_le nodup) few
        rw [List.length_append, List.length_singleton] at within
        rw [if_neg known, if_neg known, if_neg (not_le.mpr within), if_neg (not_le.mpr within)]
        exact ih ⟨nodup, by rwa [List.length_append, List.length_singleton]⟩ few

/-- The loop stops within the matches that have as many names as the limit. -/
theorem kontrolTextLoop_append_of_many {later : List (List Char × List Char)}
    (room : HasRoom found) (many : maxCounterexamples ≤ (allNames found matched).card) :
    kontrolTextLoop (matched ++ later) found = kontrolTextLoop matched found := by
  induction matched generalizing found with
  | nil =>
      have size := List.toFinset_card_of_nodup room.nodup
      rw [allNames, List.map_nil, List.append_nil, size, foundNames, List.length_map] at many
      exact absurd room.room (not_lt.mpr many)
  | cons first matched ih =>
      rw [List.cons_append, kontrolTextLoop_cons, kontrolTextLoop_cons]
      by_cases known : first.1 ∈ foundNames found
      · rw [if_pos known, if_pos known]
        rw [allNames_of_known known] at many
        exact ih room many
      · rw [if_neg known, if_neg known]
        split_ifs with full
        · rfl
        · refine ih ⟨nodup_append_singleton room.nodup known, ?_⟩ ?_
          · rw [List.length_append, List.length_singleton]
            exact not_le.mp full
          · rwa [allNames_append_singleton]

/-- With no more names than the limit the loop finds all of them. -/
theorem mem_kontrolTextLoop (room : HasRoom found)
    (few : (allNames found matched).card ≤ maxCounterexamples) {name : List Char}
    (listed : name ∈ allNames found matched) :
    name ∈ foundNames (kontrolTextLoop matched found) := by
  induction matched generalizing found with
  | nil =>
      rw [allNames, List.map_nil, List.append_nil, List.mem_toFinset] at listed
      exact listed
  | cons first matched ih =>
      rw [kontrolTextLoop_cons]
      by_cases known : first.1 ∈ foundNames found
      · rw [if_pos known]
        rw [allNames_of_known known] at few listed
        exact ih room few listed
      · rw [if_neg known]
        have nodup := nodup_append_singleton room.nodup known
        rw [← allNames_append_singleton] at few listed
        split_ifs with full
        · -- The limit is reached, so what is found is everything.
          have size := List.toFinset_card_of_nodup nodup
          rw [foundNames, List.length_map, List.length_append, List.length_singleton] at size
          have all := Finset.eq_of_subset_of_card_le
            (t := allNames (found ++ [textCounterexample first]) matched)
            (s := (foundNames (found ++ [textCounterexample first])).toFinset)
            (fun other member => by
              rw [allNames, List.toFinset_append]
              exact Finset.mem_union_left _ member)
            (few.trans (full.trans size.ge))
          rw [← all, List.mem_toFinset] at listed
          exact listed
        · exact ih ⟨nodup, by
            rw [List.length_append, List.length_singleton]
            exact not_le.mp full⟩ few listed

/-- A match after fewer names than the limit is found. -/
theorem mem_kontrolTextLoop_of_few {later : List (List Char × List Char)} (room : HasRoom found)
    (few : (allNames found matched).card < maxCounterexamples) (name shown : List Char) :
    name ∈ foundNames (kontrolTextLoop (matched ++ (name, shown) :: later) found) := by
  rw [kontrolTextLoop_append room few, kontrolTextLoop_cons]
  split_ifs with known
  · exact mem_kontrolTextLoop_of_mem known
  · rw [foundNames_append_singleton]
    exact List.mem_append_right _ (.head _)
  · refine mem_kontrolTextLoop_of_mem ?_
    rw [foundNames_append_singleton]
    exact List.mem_append_right _ (.head _)

end Loop

/-! ## Exact attribution -/

/-- A textual output of Kontrol within the bounds of the parser, where no property that fails is
named in a passed line. -/
structure KontrolOutput (texts : Texts) (lines : List OutputLine) : Prop where
  wellFormed : ∀ line ∈ lines, line.WellFormed kontrolPrefixes kontrolStatusPart
  nonJson : jsonDocuments texts (joined lines) = []
  size : (joined lines).length ≤ 2000000
  count : (failingNames lines).dedup.length ≤ maxCounterexamples
  near : ∀ line, .result line ∈ lines → line.outcome ≠ .passed → line.gap.length ≤ 500
  settled : ∀ failed, .result failed ∈ lines → failed.outcome ≠ .passed →
    ∀ passed, .result passed ∈ lines → passed.outcome = .passed → ¬failed.name <:+: passed.name

/-- `parse_kontrol_output` reports the properties whose own line fails, and no other name. -/
def KontrolExact (texts : Texts) (lines : List OutputLine) : Prop :=
  ∀ name, name ∈ (parseKontrolOutput texts (joined lines)).map (·.propertyName) ↔
    name ∈ failingNames lines

/-- `PropertyToolAdapter.parse` reports the properties whose own line fails, and no other name. -/
def AdapterExact (tool : String) (stdout stderr : List OutputLine) : Prop :=
  ∀ name, (∃ evidence ∈ parseTextual tool (joined stdout) (joined stderr),
    evidence.propertyId = name ∧ evidence.resultKind = .counterexample) ↔
      name ∈ failingNames (stdout ++ stderr)

/-- Failing lines have generated names, and a passed line takes a failure only when the limit is
reached before it. -/
structure KontrolSeparated (lines : List OutputLine) : Prop where
  generated : ∀ line, .result line ∈ lines → line.outcome ≠ .passed → HasGeneratedName line
  separated : ∀ earlier line later, TakesFailureAt lines earlier line later →
    maxCounterexamples ≤ (failingNames earlier).dedup.length

/-- A name that is left of a passed name is the name of a failing line. -/
def NamesUncut (lines : List OutputLine) : Prop :=
  ∀ line, .result line ∈ lines → line.outcome = .passed →
    ∀ name, line.cutName? = some name → name ∈ failingNames lines

section Exact

variable {texts : Texts} {lines : List OutputLine}

theorem map_findAll_joined (lines : List OutputLine) :
    (findAll kontrolPattern (joined lines)).map Prod.fst = kontrolReports lines := by
  cases lines with
  | nil => rfl
  | cons line lines => rw [kontrolReports_cons, joined_cons]

theorem mem_parseKontrolOutput_iff (output : KontrolOutput texts lines) (name : List Char) :
    name ∈ (parseKontrolOutput texts (joined lines)).map (·.propertyName) ↔
      name ∈ foundNames (kontrolTextLoop (findAll kontrolPattern (joined lines)) []) := by
  rw [parseKontrolOutput, output.nonJson, List.take_of_length_le output.size]
  exact ((perm_sortedBy _ _).map _).mem_iff

theorem hasRoom_nil : HasRoom [] where
  nodup := List.nodup_nil
  room := by decide

theorem card_allNames (matched : List (List Char × List Char)) :
    (allNames [] matched).card = (matched.map Prod.fst).dedup.length := by
  rw [allNames, foundNames, List.map_nil, List.nil_append, List.card_toFinset]

theorem mem_failingNames_of_line {line : ResultLine} (member : .result line ∈ lines)
    (failed : line.outcome ≠ .passed) : line.name ∈ failingNames lines :=
  List.mem_filterMap.mpr ⟨_, member, by rw [OutputLine.failingName?, if_neg failed]⟩

theorem exists_line_of_mem_failingNames {name : List Char} (member : name ∈ failingNames lines) :
    ∃ line, .result line ∈ lines ∧ line.outcome ≠ .passed ∧ line.name = name := by
  obtain ⟨line, lineMem, failing⟩ := List.mem_filterMap.mp member
  cases line with
  | other text => cases failing
  | result line =>
      rw [OutputLine.failingName?] at failing
      by_cases passed : line.outcome = .passed
      · rw [if_pos passed] at failing
        cases failing
      · rw [if_neg passed] at failing
        exact ⟨line, lineMem, passed, Option.some.inj failing⟩

/-- Every report of Kontrol has a name as the pattern reads it. -/
theorem isGenerated_of_mem_findAll {text : List Char} {found : List Char × List Char}
    (member : found ∈ findAll kontrolPattern text) : IsGenerated found.1 := by
  obtain ⟨start, rest, matched⟩ := exists_of_mem_findFrom member
  obtain ⟨after, -, generated, -⟩ := of_kontrolPattern matched
  exact generated

/-- The reports that begin with those of some failing lines. -/
theorem exists_split {names : List (List Char)} {others : List (List Char)}
    (reports : kontrolReports lines = names ++ others) :
    ∃ matched later, findAll kontrolPattern (joined lines) = matched ++ later ∧
      matched.map Prod.fst = names ∧ later.map Prod.fst = others := by
  rw [← map_findAll_joined] at reports
  obtain ⟨matched, later, parts, first, second⟩ := List.map_eq_append_iff.mp reports
  exact ⟨matched, later, parts, first, second⟩

theorem length_dedup_le {first second : List (List Char)} (subset : first ⊆ second) :
    first.dedup.length ≤ second.dedup.length := by
  rw [← List.card_toFinset, ← List.card_toFinset]
  exact Finset.card_le_card fun name member =>
    List.mem_toFinset.mpr (subset (List.mem_toFinset.mp member))

/-- Matches with the names of failing lines are reported with these names. -/
theorem mem_kontrolTextLoop_iff {matched : List (List Char × List Char)}
    {names : List (List Char)} (named : matched.map Prod.fst = names)
    (few : names.dedup.length ≤ maxCounterexamples) (name : List Char) :
    name ∈ foundNames (kontrolTextLoop matched []) ↔ name ∈ names := by
  subst named
  constructor
  · exact of_mem_kontrolTextLoop
  · intro listed
    refine mem_kontrolTextLoop hasRoom_nil (by rwa [card_allNames]) ?_
    rwa [allNames, List.mem_toFinset]

theorem kontrol_exact_iff (output : KontrolOutput texts lines) :
    KontrolExact texts lines ↔ KontrolSeparated lines := by
  simp only [KontrolExact, mem_parseKontrolOutput_iff output]
  constructor
  · intro exact
    have generated : ∀ line, .result line ∈ lines → line.outcome ≠ .passed →
        HasGeneratedName line := by
      intro line member failed
      have reported := (exact line.name).mpr (mem_failingNames_of_line member failed)
      obtain ⟨found, foundMem, same⟩ := List.mem_map.mp (of_mem_kontrolTextLoop reported)
      have shape := isGenerated_of_mem_findAll foundMem
      rw [same] at shape
      exact (isGenerated_iff (output.wellFormed _ member)).mp shape
    refine ⟨generated, ?_⟩
    rintro earlier line later ⟨rfl, passed, takes⟩
    by_contra few
    rw [not_le] at few
    obtain ⟨before, first, after, name, others, isPrefix, ⟨parts, firstPassed, -⟩, within,
      reports⟩ := exists_first_taken ⟨output.wellFormed, generated, output.near⟩ passed takes
    obtain ⟨matched, next, split, named, rest⟩ := exists_split reports
    obtain ⟨taken, remaining, rfl, rfl, -⟩ := List.map_eq_cons_iff.mp rest
    have fewer : (allNames [] matched).card < maxCounterexamples := by
      rw [card_allNames, named]
      exact (length_dedup_le (isPrefix.sublist.filterMap _).subset).trans_lt few
    have reported : taken.1 ∈
        foundNames (kontrolTextLoop (matched ++ (taken.1, taken.2) :: remaining) []) :=
      mem_kontrolTextLoop_of_few hasRoom_nil fewer taken.1 taken.2
    rw [Prod.mk.eta, ← split, exact] at reported
    obtain ⟨failing, member, failed, same⟩ := exists_line_of_mem_failingNames reported
    have firstMem : OutputLine.result first ∈ earlier ++ .result line :: later := by
      rw [parts]
      exact List.mem_append_right _ (.head _)
    exact output.settled failing member failed first firstMem firstPassed (by rwa [same])
  · intro separated name
    have readable : Readable lines := ⟨output.wellFormed, separated.generated, output.near⟩
    by_cases free : ∀ earlier line later, ¬TakesFailureAt lines earlier line later
    · exact mem_kontrolTextLoop_iff
        ((map_findAll_joined lines).trans (kontrolReports_eq readable free)) output.count name
    · push Not at free
      obtain ⟨earlier, line, later, rfl, passed, takes⟩ := free
      obtain ⟨before, first, after, taken, others, isPrefix, takesAt, -, reports⟩ :=
        exists_first_taken readable passed takes
      obtain ⟨matched, next, split, named, -⟩ := exists_split reports
      have full := separated.separated before first after takesAt
      have stopped : kontrolTextLoop (matched ++ next) [] = kontrolTextLoop matched [] :=
        kontrolTextLoop_append_of_many hasRoom_nil (by rwa [card_allNames, named])
      have subset : failingNames before ⊆ failingNames (earlier ++ .result line :: later) := by
        rw [takesAt.1]
        exact ((List.sublist_append_left _ _).filterMap _).subset
      rw [split, stopped, mem_kontrolTextLoop_iff named
        ((length_dedup_le subset).trans output.count)]
      refine ⟨fun member => subset member, fun member => ?_⟩
      have all := Finset.eq_of_subset_of_card_le
        (s := (failingNames before).toFinset)
        (t := (failingNames (earlier ++ .result line :: later)).toFinset)
        (fun other otherMem => List.mem_toFinset.mpr (subset (List.mem_toFinset.mp otherMem)))
        (by rw [List.card_toFinset, List.card_toFinset]; exact output.count.trans full)
      rwa [← List.mem_toFinset, all, List.mem_toFinset]

theorem adapter_exact_iff {tool : String} {stdout stderr : List OutputLine}
    (wellFormed : ∀ line ∈ stdout ++ stderr,
      line.WellFormed propertyPrefixes failureResultPart) :
    AdapterExact tool stdout stderr ↔ NamesUncut (stdout ++ stderr) := by
  rw [NamesUncut, ← reports_exact_iff, ← findAll_combined wellFormed]
  refine forall_congr' fun name => iff_congr ?_ Iff.rfl
  simp only [parseTextual, List.mem_map, exists_exists_and_eq_and,
    propertyCounterexampleEvidence, and_true]

end Exact

/-- Textual results are attributed exactly when no passed line takes the failure of another one,
and no passed name is cut at a failing word. -/
theorem textual_attribution_exact_iff {texts : Texts} {tool : String}
    {lines stdout stderr : List OutputLine} (output : KontrolOutput texts lines)
    (wellFormed : ∀ line ∈ stdout ++ stderr,
      line.WellFormed propertyPrefixes failureResultPart) :
    (KontrolExact texts lines ↔ KontrolSeparated lines) ∧
      (AdapterExact tool stdout stderr ↔ NamesUncut (stdout ++ stderr)) :=
  ⟨kontrol_exact_iff output, adapter_exact_iff wellFormed⟩

/-! ## A passed property before a failed one -/

/-- A line of Kontrol about one of some generated properties. -/
def sampleLine (digit : Char) (outcome : LineOutcome) : ResultLine where
  before := []
  propertyPrefix := "testKontrol_".toList
  body := List.replicate 24 digit
  gap := ": ".toList
  outcome
  word := outcome.text
  after := []

/-- An output of Kontrol where the property of the first line passed. -/
def sampleLines : List OutputLine :=
  [.result (sampleLine 'a' .passed), .result (sampleLine 'b' .failed)]

/-- A library that reads no document. -/
def silentTexts : Texts where
  loads := fun _ => none
  dumps := fun _ => []
  compactDumps := fun _ => []
  str := fun _ => []
  casefold := id
  lower := id
  isWord := isNameCharacter

theorem wellFormed_sampleLine {digit : Char} {outcome : LineOutcome}
    (isSample : (digit, outcome) = ('a', .passed) ∨ (digit, outcome) = ('b', .failed)) :
    (sampleLine digit outcome).WellFormed kontrolPrefixes kontrolStatusPart := by
  rcases isSample with same | same <;> cases same
  all_goals
    exact {
      prefixed := .head _
      bodyNonempty := by decide
      named := List.all_eq_true.mp (by decide)
      delimited := ⟨':', [' '], rfl, by decide⟩
      spelled := rfl
      oneLine := by decide
      firstName := rfl
      onlyName := by decide
      ownWord := by decide
      passedRest := by decide }

theorem kontrolOutput_sampleLines : KontrolOutput silentTexts sampleLines where
  wellFormed := by
    intro line member
    rcases List.mem_pair.mp member with rfl | rfl
    · exact wellFormed_sampleLine (.inl rfl)
    · exact wellFormed_sampleLine (.inr rfl)
  nonJson := List.isEmpty_iff.mp (by decide)
  size := by decide
  count := by decide
  near := by
    intro line member failed
    rcases List.mem_pair.mp member with same | same <;> cases same <;> decide
  settled := by
    intro failed failedMem fails passed passedMem passes
    rcases List.mem_pair.mp failedMem with same | same <;> cases same
    · exact absurd rfl fails
    · rcases List.mem_pair.mp passedMem with same | same <;> cases same
      · decide
      · cases passes

theorem textual_attribution_sample :
    (KontrolExact silentTexts sampleLines ↔ KontrolSeparated sampleLines) ∧
      (AdapterExact "medusa" [.other "done".toList] [] ↔ NamesUncut [.other "done".toList]) :=
  textual_attribution_exact_iff kontrolOutput_sampleLines fun line member => by
    rcases List.mem_singleton.mp member with rfl
    exact ⟨by decide +kernel, by decide +kernel⟩

/-- The passed property is reported as a counterexample, and the failed one is not reported. -/
theorem passed_line_takes_failure :
    ¬∀ (texts : Texts) (tool : String) (lines stdout stderr : List OutputLine),
      KontrolOutput texts lines →
      (∀ line ∈ stdout ++ stderr, line.WellFormed propertyPrefixes failureResultPart) →
        KontrolExact texts lines ∧ AdapterExact tool stdout stderr := by
  intro exact
  have claim := exact silentTexts "medusa" sampleLines [] [] kontrolOutput_sampleLines
    (List.forall_mem_nil _)
  have reported := (claim.1 (sampleLine 'b' .failed).name).mpr (by decide +kernel)
  exact absurd reported (by decide +kernel)

end Formal

end MmAudit
