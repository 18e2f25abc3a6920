import MmAudit.Repository.Locations

/-!
# Lines that chunking loses

A line that is not blank lies in a returned excerpt, or in a range that an omission names,
unless the file is a large Solidity file.  There only the lines from the first to the last
header line are kept, and for each declaration line the lines up to the one where its
braces close.  What lies between (a comment, a file-level type, an `abstract contract`) is
neither returned nor named.
-/

namespace MmAudit

namespace Context

open TextLines

/-- The note for a file of which no block is returned or named. -/
def noBlockNote (path : List Char) : String :=
  String.ofList path ++ ": no complete logical block fit the chunk limit"

/-- The line lies in the range. -/
def LineRange.Contains (range : LineRange) (line : ℕ) : Prop :=
  range.1 ≤ line ∧ line ≤ range.2

/-- The line lies in an excerpt, or in a range that an omission names, or the whole file is
named. -/
def ChunkingResult.AccountsFor {Digest : Type} (result : ChunkingResult Digest)
    (path : List Char) (line : ℕ) : Prop :=
  (∃ excerpt ∈ result.excerpts, LineRange.Contains (excerpt.startLine, excerpt.endLine) line) ∨
    (∃ range : LineRange, Syntax.exceedsNote path range ∈ result.omissions ∧ range.Contains line) ∨
    noBlockNote path ∈ result.omissions

/-! ## What the notes name -/

theorem toList_exceedsNote (path : List Char) (range : LineRange) :
    (Syntax.exceedsNote path range).toList =
      path ++ ':' :: (Nat.toDigits 10 range.1 ++ '-' :: (Nat.toDigits 10 range.2 ++
        " omitted because the logical construct exceeds chunk limit".toList)) := by
  simp [Syntax.exceedsNote]

/-- Two texts that begin with digits have the same digits and the same rest. -/
theorem digits_append_inj {first second : ℕ} {sep : Char} {rest other : List Char}
    (noDigit : sep.isDigit = false)
    (same : Nat.toDigits 10 first ++ sep :: rest = Nat.toDigits 10 second ++ sep :: other) :
    first = second ∧ rest = other := by
  have digits : ∀ number, ∀ char ∈ Nat.toDigits 10 number, char.isDigit = true :=
    fun _ _ member => Nat.isDigit_of_mem_toDigits (by decide) (by decide) member
  have heads := congrArg (List.takeWhile Char.isDigit) same
  have tails := congrArg (List.dropWhile Char.isDigit) same
  rw [List.takeWhile_append_of_pos (digits first), List.takeWhile_append_of_pos (digits second),
    List.takeWhile_cons_of_neg (by simp [noDigit]), List.takeWhile_cons_of_neg (by simp [noDigit]),
    List.append_nil, List.append_nil] at heads
  rw [List.dropWhile_append_of_pos (digits first), List.dropWhile_append_of_pos (digits second),
    List.dropWhile_cons_of_neg (by simp [noDigit]),
    List.dropWhile_cons_of_neg (by simp [noDigit])] at tails
  have values := congrArg (Nat.ofDigitChars 10 · 0) heads
  exact ⟨by simpa using values, List.cons_injective tails⟩

/-- A note names one range. -/
theorem exceedsNote_injective (path : List Char) :
    Function.Injective (Syntax.exceedsNote path) := by
  intro range other same
  have chars := congrArg String.toList same
  rw [toList_exceedsNote, toList_exceedsNote] at chars
  have afterPath := List.cons_injective (List.append_cancel_left chars)
  obtain ⟨starts, rest⟩ := digits_append_inj rfl afterPath
  have noDigit : ' '.isDigit = false := rfl
  obtain ⟨stops, -⟩ := digits_append_inj noDigit rest
  exact Prod.ext starts stops

theorem exceedsNote_ne_noBlockNote (path : List Char) (range : LineRange) :
    Syntax.exceedsNote path range ≠ noBlockNote path := by
  intro same
  have chars := congrArg String.toList same
  have whole : (noBlockNote path).toList =
      path ++ ':' :: " no complete logical block fit the chunk limit".toList := by
    simp [noBlockNote]
  rw [toList_exceedsNote, whole] at chars
  have afterPath := List.cons_injective (List.append_cancel_left chars)
  cases digits : Nat.toDigits 10 range.1 with
  | nil => exact Nat.toDigits_ne_nil digits
  | cons digit rest =>
      have isDigit : digit.isDigit = true :=
        Nat.isDigit_of_mem_toDigits (by decide) (by decide) (digits ▸ List.mem_cons_self)
      rw [digits] at afterPath
      obtain rfl : digit = ' ' := (List.cons.inj afterPath).1
      cases isDigit

namespace Syntax

variable {Digest : Type} (source : Syntax Digest)

/-- Chunking at boundaries accounts for the lines of its ranges, and for every line when there are
none. -/
theorem accountsFor_iff_of_large {lower : List Char → List Char} {path content : List Char}
    {categories : List String} {maxChunkBytes : ℕ}
    (large : ¬ (encode content).length ≤ maxChunkBytes) (line : ℕ) :
    (source.chunkText lower path content categories maxChunkBytes).AccountsFor path line ↔
      source.rangesFor lower path content = [] ∨
        ∃ range ∈ source.rangesFor lower path content, range.Contains line := by
  have someLines : (splitLines content).isEmpty = false := by
    rw [List.isEmpty_eq_false_iff]
    rintro noLines
    have flat := flatten_splitLines content
    rw [noLines] at flat
    subst flat
    exact large (Nat.zero_le _)
  unfold chunkText ChunkingResult.AccountsFor
  obtain ⟨fits, isFits⟩ : ∃ fits : LineRange → Bool, ∀ range : LineRange,
      decide ((encode (selectLines (splitLines content) range.1 range.2)).length ≤
        maxChunkBytes) = fits range := ⟨_, fun _ => rfl⟩
  simp only [someLines, Bool.false_eq_true, if_false, if_neg large, isFits]
  generalize source.rangesFor lower path content = ranges
  have returned : (∃ excerpt ∈ (ranges.filter fits).map fun range =>
        source.makeExcerpt path (splitLines content) range.1 range.2 categories
          (splitLines content).length,
      LineRange.Contains (excerpt.startLine, excerpt.endLine) line) ↔
      ∃ range ∈ ranges, fits range = true ∧ range.Contains line := by
    constructor
    · rintro ⟨_, member, inside⟩
      obtain ⟨range, rangeMem, rfl⟩ := List.mem_map.mp member
      exact ⟨range, (List.mem_filter.mp rangeMem).1, (List.mem_filter.mp rangeMem).2, inside⟩
    · rintro ⟨range, member, isFit, inside⟩
      exact ⟨_, List.mem_map.mpr ⟨range, List.mem_filter.mpr ⟨member, isFit⟩, rfl⟩, inside⟩
  rw [returned]
  by_cases noRanges : ranges = []
  · subst noRanges
    exact iff_of_true (Or.inr (Or.inr List.mem_cons_self)) (Or.inl rfl)
  · rw [if_neg, or_iff_right noRanges]
    · constructor
      · rintro (⟨range, member, -, inside⟩ | ⟨range, named, inside⟩ | noBlock)
        · exact ⟨range, member, inside⟩
        · obtain ⟨other, otherMem, same⟩ := List.mem_map.mp named
          obtain rfl := exceedsNote_injective path same
          exact ⟨other, (List.mem_filter.mp otherMem).1, inside⟩
        · obtain ⟨other, -, same⟩ := List.mem_map.mp noBlock
          exact absurd same (exceedsNote_ne_noBlockNote path other)
      · rintro ⟨range, member, inside⟩
        by_cases isFit : fits range = true
        · exact Or.inl ⟨range, member, isFit, inside⟩
        · refine Or.inr (Or.inl ⟨range, List.mem_map.mpr ⟨range, ?_, rfl⟩, inside⟩)
          exact List.mem_filter.mpr ⟨member, by simpa using isFit⟩
    · simp only [List.isEmpty_map, Bool.and_eq_true, List.isEmpty_iff, List.filter_eq_nil_iff]
      rintro ⟨noneFit, allFit⟩
      obtain ⟨range, member⟩ := List.exists_mem_of_ne_nil ranges noRanges
      have exceeds := allFit range member
      rw [Bool.not_eq_true', Bool.not_eq_false] at exceeds
      exact noneFit range member exceeds

/-! ## Blocks between blank lines -/

def IsBlank (line : List Char) : Prop :=
  source.strip line = []

/-- A block that is open stays open up to the line before the next one, at least. -/
theorem exists_open_block (index first : ℕ) (lines : List (List Char)) :
    ∃ range ∈ source.blockRangesFrom index (some first) lines,
      range.1 = first ∧ index - 1 ≤ range.2 := by
  induction lines generalizing index with
  | nil => exact ⟨(first, index - 1), by simp [blockRangesFrom], rfl, le_rfl⟩
  | cons line lines ih =>
      unfold blockRangesFrom
      cases source.strip line with
      | nil => exact ⟨(first, index - 1), List.mem_cons_self, rfl, le_rfl⟩
      | cons char rest =>
          obtain ⟨range, member, starts, stops⟩ := ih (index + 1)
          exact ⟨range, member, starts, by omega⟩

/-- A line that is not blank lies in a block. -/
theorem exists_block (index : ℕ) (start : Option ℕ) (lines : List (List Char))
    (opened : ∀ first, start = some first → first < index) {offset : ℕ} {line : List Char}
    (found : lines[offset]? = some line) (someText : ¬ source.IsBlank line) :
    ∃ range ∈ source.blockRangesFrom index start lines, range.Contains (index + offset) := by
  induction lines generalizing index start offset with
  | nil => cases found
  | cons head lines ih =>
      cases offset with
      | zero =>
          obtain rfl : head = line := Option.some.inj found
          unfold blockRangesFrom
          cases stripped : source.strip head with
          | nil => exact absurd stripped someText
          | cons char rest =>
              cases start with
              | none =>
                  obtain ⟨range, member, starts, stops⟩ := source.exists_open_block (index + 1) index lines
                  exact ⟨range, member, by rw [starts]; exact le_rfl, stops⟩
              | some first =>
                  obtain ⟨range, member, starts, stops⟩ := source.exists_open_block (index + 1) first lines
                  exact ⟨range, member, by rw [starts]; exact (opened first rfl).le, stops⟩
      | succ offset =>
          have later : ∀ start, (∀ first, start = some first → first < index + 1) →
              ∃ range ∈ source.blockRangesFrom (index + 1) start lines,
                range.Contains (index + (offset + 1)) := by
            intro start opened
            have moved : index + (offset + 1) = index + 1 + offset := by omega
            rw [moved]
            exact ih (index + 1) start opened found
          unfold blockRangesFrom
          cases source.strip head with
          | nil =>
              cases start with
              | none => exact later none (by simp)
              | some first =>
                  obtain ⟨range, member, inside⟩ := later none (by simp)
                  exact ⟨range, List.mem_cons_of_mem _ member, inside⟩
          | cons char rest =>
              cases start with
              | none => exact later (some index) (by simp)
              | some first =>
                  refine later (some first) fun other same => ?_
                  have := opened other same
                  omega

/-! ## Numbers of lines -/

theorem mem_lineNumbersFrom_iff (test : List Char → Bool) (index : ℕ) (lines : List (List Char))
    (number : ℕ) :
    number ∈ lineNumbersFrom test index lines ↔
      ∃ offset line, lines[offset]? = some line ∧ test line = true ∧ number = index + offset := by
  induction lines generalizing index with
  | nil => simp [lineNumbersFrom]
  | cons head lines ih =>
      have later : number ∈ lineNumbersFrom test (index + 1) lines ↔
          ∃ offset line, (head :: lines)[offset + 1]? = some line ∧ test line = true ∧
            number = index + (offset + 1) := by
        rw [ih]
        simp only [List.getElem?_cons_succ, Nat.add_assoc, Nat.add_comm 1]
      rw [lineNumbersFrom]
      constructor
      · intro member
        split at member
        · next passes =>
            rcases List.mem_cons.mp member with rfl | member
            · exact ⟨0, head, rfl, passes, rfl⟩
            · obtain ⟨offset, line, found⟩ := later.mp member
              exact ⟨offset + 1, line, found⟩
        · obtain ⟨offset, line, found⟩ := later.mp member
          exact ⟨offset + 1, line, found⟩
      · rintro ⟨offset, line, found, passes, same⟩
        cases offset with
        | zero =>
            obtain rfl : head = line := Option.some.inj found
            rw [if_pos passes, same]
            exact List.mem_cons_self
        | succ offset =>
            have member := later.mpr ⟨offset, line, found, passes, same⟩
            split
            · exact List.mem_cons_of_mem _ member
            · exact member

/-- Between the first and the last of some ordered numbers. -/
theorem between_iff {numbers : List ℕ} (ordered : numbers.Pairwise (· ≤ ·)) (number : ℕ) :
    (∃ first last, numbers.head? = some first ∧ numbers.getLast? = some last ∧
        first ≤ number ∧ number ≤ last) ↔
      (∃ before ∈ numbers, before ≤ number) ∧ ∃ after ∈ numbers, number ≤ after := by
  constructor
  · rintro ⟨first, last, isFirst, isLast, after, before⟩
    exact ⟨⟨first, List.mem_of_head? isFirst, after⟩, last, List.mem_of_getLast? isLast, before⟩
  · rintro ⟨⟨before, beforeMem, atMost⟩, after, afterMem, atLeast⟩
    obtain ⟨first, rest, rfl⟩ := List.exists_cons_of_ne_nil (List.ne_nil_of_mem beforeMem)
    have first_le : first ≤ before := by
      rcases List.mem_cons.mp beforeMem with rfl | member
      · exact le_rfl
      · exact (List.pairwise_cons.mp ordered).1 before member
    obtain ⟨start, last, shape⟩ :=
      List.eq_nil_or_concat (first :: rest) |>.resolve_left (List.cons_ne_nil _ _)
    rw [List.concat_eq_append] at shape
    have le_last : after ≤ last := by
      rw [shape] at afterMem ordered
      rcases List.mem_append.mp afterMem with member | member
      · exact (List.pairwise_append.mp ordered).2.2 after member last (List.mem_singleton_self last)
      · exact (List.mem_singleton.mp member).le
    refine ⟨first, last, rfl, ?_, first_le.trans atMost, atLeast.trans le_last⟩
    rw [shape, List.getLast?_append]
    rfl

/-! ## The extent of a declaration -/

/-- A declaration whose text so far is `before` ends with the line at this offset: its braces
close there, or it has none and the line ends with a semicolon. -/
def ClosesAfter (before : List Char) (lines : List (List Char)) (offset : ℕ) : Prop :=
  let body := before ++ ((lines.take (offset + 1)).map stripSolidityComments).flatten
  (0 < body.count '{' ∧ body.count '{' ≤ body.count '}') ∨
    body.count '{' = 0 ∧ ∃ line, lines[offset]? = some line ∧
      ((stripSolidityComments line).rdropWhile source.isSpace).getLast? = some ';'

theorem closesAfter_zero (before line : List Char) (lines : List (List Char)) :
    source.ClosesAfter before (line :: lines) 0 ↔
      (0 < (before ++ stripSolidityComments line).count '{' ∧
        (before ++ stripSolidityComments line).count '{' ≤
          (before ++ stripSolidityComments line).count '}') ∨
      (before ++ stripSolidityComments line).count '{' = 0 ∧
        ((stripSolidityComments line).rdropWhile source.isSpace).getLast? = some ';' := by
  simp [ClosesAfter]

theorem closesAfter_succ (before line : List Char) (lines : List (List Char)) (offset : ℕ) :
    source.ClosesAfter before (line :: lines) (offset + 1) ↔
      source.ClosesAfter (before ++ stripSolidityComments line) lines offset := by
  simp [ClosesAfter]

/-- Where the body of a declaration goes on with a line, the loop stops with the line exactly if
the line closes. -/
theorem braceRangeEndFrom_cons (startLine index : ℕ) (before line : List Char)
    (lines : List (List Char)) [Decidable (source.ClosesAfter before (line :: lines) 0)] :
    source.braceRangeEndFrom startLine index
        (before.count '{' - before.count '}') (before.contains '{') (line :: lines) =
      if source.ClosesAfter before (line :: lines) 0 then index
      else source.braceRangeEndFrom startLine (index + 1)
        ((before ++ stripSolidityComments line).count '{' -
          (before ++ stripSolidityComments line).count '}')
        ((before ++ stripSolidityComments line).contains '{') lines := by
  have opens : (before.contains '{' || (stripSolidityComments line).contains '{') =
      (before ++ stripSolidityComments line).contains '{' := by
    rw [Bool.eq_iff_iff, Bool.or_eq_true, List.contains_iff_mem, List.contains_iff_mem,
      List.contains_iff_mem, List.mem_append]
  have opens_iff : (before ++ stripSolidityComments line).contains '{' = true ↔
      0 < (before ++ stripSolidityComments line).count '{' := by
    rw [List.count_pos_iff, List.contains_iff_mem]
  have depth : (before.count '{' - before.count '}' : ℤ) +
      (stripSolidityComments line).count '{' - (stripSolidityComments line).count '}' =
        (before ++ stripSolidityComments line).count '{' -
          (before ++ stripSolidityComments line).count '}' := by
    rw [List.count_append, List.count_append]
    push_cast
    ring
  rw [braceRangeEndFrom]
  simp only [opens, depth, closesAfter_zero]
  generalize (before ++ stripSolidityComments line).contains '{' = opened at opens_iff ⊢
  by_cases isOpen : opened = true
  · have positive := opens_iff.mp isOpen
    simp only [isOpen, positive, positive.ne', Bool.true_and, decide_eq_true_eq, Bool.not_true,
      Bool.false_and, Bool.false_eq_true, if_false, true_and, false_and, or_false]
    congr 1
    rw [eq_iff_iff]
    omega
  · have zero : (before ++ stripSolidityComments line).count '{' = 0 :=
      Nat.eq_zero_of_not_pos fun positive => isOpen (opens_iff.mpr positive)
    rw [Bool.not_eq_true] at isOpen
    simp [isOpen, zero]

/-- The loop ends with the first line that closes, or with the line where it started. -/
theorem braceRangeEndFrom_spec (startLine index : ℕ) (before : List Char)
    (lines : List (List Char)) :
    (∃ offset, offset < lines.length ∧ source.ClosesAfter before lines offset ∧
        (∀ earlier, earlier < offset → ¬ source.ClosesAfter before lines earlier) ∧
          source.braceRangeEndFrom startLine index
            (before.count '{' - before.count '}') (before.contains '{') lines =
              index + offset) ∨
      (∀ offset, offset < lines.length → ¬ source.ClosesAfter before lines offset) ∧
        source.braceRangeEndFrom startLine index
          (before.count '{' - before.count '}') (before.contains '{') lines = startLine := by
  classical
  induction lines generalizing index before with
  | nil => exact Or.inr ⟨by simp, rfl⟩
  | cons line lines ih =>
      rw [source.braceRangeEndFrom_cons]
      by_cases closes : source.ClosesAfter before (line :: lines) 0
      · rw [if_pos closes]
        exact Or.inl ⟨0, by simp, closes, by simp, rfl⟩
      · rw [if_neg closes]
        rcases ih (index + 1) (before ++ stripSolidityComments line) with
          ⟨offset, bound, closesThere, notBefore, result⟩ | ⟨never, result⟩
        · refine Or.inl ⟨offset + 1, by simpa using bound,
            (source.closesAfter_succ ..).mpr closesThere, ?_, by omega⟩
          rintro (_ | earlier) earlierLt
          · exact closes
          · rw [source.closesAfter_succ]
            exact notBefore earlier (by omega)
        · refine Or.inr ⟨?_, result⟩
          rintro (_ | offset) bound
          · exact closes
          · rw [source.closesAfter_succ]
            exact never offset (by simpa using bound)

/-- The line is the declaration line, or comes after it and not after the first line that closes
the declaration. -/
def InExtent (lines : List (List Char)) (declaration line : ℕ) : Prop :=
  declaration = line ∨
    declaration < line ∧ ∃ offset, line ≤ declaration + offset ∧
      declaration + offset ≤ lines.length ∧
      source.ClosesAfter [] (lines.drop (declaration - 1)) offset ∧
      ∀ earlier, earlier < offset → ¬ source.ClosesAfter [] (lines.drop (declaration - 1)) earlier

theorem inExtent_iff {lines : List (List Char)} {declaration : ℕ} (positive : 1 ≤ declaration)
    (line : ℕ) :
    source.InExtent lines declaration line ↔
      LineRange.Contains (declaration, source.braceRangeEnd lines declaration) line := by
  have size : (lines.drop (declaration - 1)).length = lines.length - (declaration - 1) :=
    List.length_drop
  unfold InExtent LineRange.Contains braceRangeEnd
  rcases source.braceRangeEndFrom_spec declaration declaration [] (lines.drop (declaration - 1))
    with ⟨offset, bound, closes, notBefore, result⟩ | ⟨never, result⟩
  · simp only [List.count_nil, List.contains_nil, Nat.cast_zero, sub_zero] at result
    simp only [result]
    constructor
    · rintro (rfl | ⟨after, other, upTo, -, -, otherFirst⟩)
      · exact ⟨le_rfl, Nat.le_add_right _ _⟩
      · refine ⟨after.le, upTo.trans (Nat.add_le_add_left ?_ _)⟩
        by_contra later
        exact otherFirst offset (by omega) closes
    · rintro ⟨after, upTo⟩
      rcases Nat.eq_or_lt_of_le after with same | after
      · exact Or.inl same
      · exact Or.inr ⟨after, offset, upTo, by omega, closes, notBefore⟩
  · simp only [List.count_nil, List.contains_nil, Nat.cast_zero, sub_zero] at result
    simp only [result]
    constructor
    · rintro (rfl | ⟨after, other, -, inText, closes, -⟩)
      · exact ⟨le_rfl, le_rfl⟩
      · exact absurd closes (never other (by omega))
    · rintro ⟨after, upTo⟩
      exact Or.inl (le_antisymm after upTo)

/-! ## The lines of a Solidity file that chunking keeps -/

/-- The line with this number passes the test. -/
def LineWith (content : List Char) (test : List Char → Bool) (number : ℕ) : Prop :=
  1 ≤ number ∧ ∃ line, (splitLines content)[number - 1]? = some line ∧ test line = true

theorem mem_lineNumbers_iff (content : List Char) (test : List Char → Bool) (number : ℕ) :
    number ∈ lineNumbersFrom test 1 (splitLines content) ↔ LineWith content test number := by
  rw [mem_lineNumbersFrom_iff]
  constructor
  · rintro ⟨offset, line, found, passes, rfl⟩
    exact ⟨by omega, line, by rwa [Nat.add_sub_cancel_left], passes⟩
  · rintro ⟨positive, line, found, passes⟩
    exact ⟨number - 1, line, found, passes, by omega⟩

/-- The line lies between two header lines or in the extent of a declaration. -/
def Kept (content : List Char) (line : ℕ) : Prop :=
  ((∃ before, LineWith content source.isHeader before ∧ before ≤ line) ∧
      ∃ after, LineWith content source.isHeader after ∧ line ≤ after) ∨
    ∃ declaration, LineWith content source.isDeclaration declaration ∧
      source.InExtent (splitLines content) declaration line

theorem mem_foldl_unseen_iff (ranges header : List LineRange) (range : LineRange) :
    range ∈ ranges.foldl (fun ranges range =>
        if ranges.contains range then ranges else ranges ++ [range]) header ↔
      range ∈ header ∨ range ∈ ranges := by
  induction ranges generalizing header with
  | nil => simp
  | cons first ranges ih =>
      rw [List.foldl_cons, ih, List.mem_cons, ← or_assoc]
      refine or_congr_left ?_
      split
      · next seen =>
          refine ⟨Or.inl, ?_⟩
          rintro (member | rfl)
          · exact member
          · exact List.contains_iff_mem.mp seen
      · rw [List.mem_append, List.mem_singleton]

theorem mem_solidityRanges_iff (content : List Char) (range : LineRange) :
    range ∈ source.solidityRanges content ↔
      ((lineNumbersFrom source.isHeader 1 (splitLines content)).head? = some range.1 ∧
        (lineNumbersFrom source.isHeader 1 (splitLines content)).getLast? = some range.2) ∨
      LineWith content source.isDeclaration range.1 ∧
        range.2 = source.braceRangeEnd (splitLines content) range.1 := by
  unfold solidityRanges
  rw [List.mem_insertionSort, mem_foldl_unseen_iff]
  refine or_congr ?_ ?_
  · generalize lineNumbersFrom source.isHeader 1 (splitLines content) = headers
    cases headers.head? with
    | none => simp
    | some first =>
        cases headers.getLast? with
        | none => simp
        | some last => simp [Prod.ext_iff, eq_comm]
  · rw [List.mem_map]
    constructor
    · rintro ⟨declaration, member, rfl⟩
      exact ⟨(mem_lineNumbers_iff ..).mp member, rfl⟩
    · rintro ⟨isDeclaration, stops⟩
      exact ⟨range.1, (mem_lineNumbers_iff ..).mpr isDeclaration, Prod.ext rfl stops.symm⟩

/-- The ranges hold exactly the lines that are kept. -/
theorem exists_solidityRange_iff (content : List Char) (line : ℕ) :
    (∃ range ∈ source.solidityRanges content, range.Contains line) ↔ source.Kept content line := by
  have headers := between_iff
    (lineNumbersFrom_bounds source.isHeader 1 (splitLines content)).2 line
  simp only [mem_lineNumbers_iff] at headers
  unfold Kept
  rw [← headers]
  constructor
  · rintro ⟨range, member, inside⟩
    rcases (source.mem_solidityRanges_iff content range).mp member with
      ⟨isFirst, isLast⟩ | ⟨isDeclaration, stops⟩
    · exact Or.inl ⟨range.1, range.2, isFirst, isLast, inside⟩
    · refine Or.inr ⟨range.1, isDeclaration, (source.inExtent_iff isDeclaration.1 line).mpr ?_⟩
      rwa [← stops]
  · rintro (⟨first, last, isFirst, isLast, inside⟩ | ⟨declaration, isDeclaration, inExtent⟩)
    · exact ⟨(first, last),
        (source.mem_solidityRanges_iff content _).mpr (Or.inl ⟨isFirst, isLast⟩), inside⟩
    · exact ⟨(declaration, _),
        (source.mem_solidityRanges_iff content _).mpr (Or.inr ⟨isDeclaration, rfl⟩),
        (source.inExtent_iff isDeclaration.1 line).mp inExtent⟩

theorem solidityRanges_eq_nil_iff (content : List Char) :
    source.solidityRanges content = [] ↔
      ∀ number, ¬ LineWith content source.isHeader number ∧
        ¬ LineWith content source.isDeclaration number := by
  rw [List.eq_nil_iff_forall_not_mem]
  constructor
  · refine fun noRange number => ⟨fun isHeader => ?_, fun isDeclaration => ?_⟩
    · have member := (mem_lineNumbers_iff ..).mpr isHeader
      obtain ⟨first, last, isFirst, isLast, -⟩ := (between_iff
        (lineNumbersFrom_bounds source.isHeader 1 (splitLines content)).2 number).mpr
          ⟨⟨number, member, le_rfl⟩, number, member, le_rfl⟩
      exact noRange (first, last)
        ((source.mem_solidityRanges_iff content _).mpr (Or.inl ⟨isFirst, isLast⟩))
    · exact noRange (number, source.braceRangeEnd (splitLines content) number)
        ((source.mem_solidityRanges_iff content _).mpr (Or.inr ⟨isDeclaration, rfl⟩))
  · intro noLine range member
    rcases (source.mem_solidityRanges_iff content range).mp member with
      ⟨isFirst, -⟩ | ⟨isDeclaration, -⟩
    · exact (noLine range.1).1 ((mem_lineNumbers_iff ..).mp (List.mem_of_head? isFirst))
    · exact (noLine range.1).2 isDeclaration

/-! ## Which files are accounted for -/

/-- The suffix that decides how a file is chunked. -/
def suffixOf (lower : List Char → List Char) (path : List Char) : List Char :=
  lower (Ignore.suffix ((Glob.pathParts path).getLastD []))

/-- Every line that is not blank is accounted for. -/
def LosesNoLine (lower : List Char → List Char) (path content : List Char)
    (categories : List String) (maxChunkBytes : ℕ) : Prop :=
  ∀ number, LineWith content (fun line => !(source.strip line).isEmpty) number →
    (source.chunkText lower path content categories maxChunkBytes).AccountsFor path number

/-- Chunking loses no line of a file that is not Python exactly if the file is no Solidity file,
or is small enough for one excerpt, or has no header and no declaration line, or each line that is
not blank lies between header lines or in the extent of a declaration. -/
theorem loses_no_line_iff (lower : List Char → List Char) (path content : List Char)
    (categories : List String) (maxChunkBytes : ℕ)
    (notPython : suffixOf lower path ≠ ".py".toList) :
    source.LosesNoLine lower path content categories maxChunkBytes ↔
      suffixOf lower path ≠ ".sol".toList ∨ (encode content).length ≤ maxChunkBytes ∨
        (∀ number, ¬ LineWith content source.isHeader number ∧
          ¬ LineWith content source.isDeclaration number) ∨
        ∀ number, LineWith content (fun line => !(source.strip line).isEmpty) number →
          source.Kept content number := by
  by_cases small : (encode content).length ≤ maxChunkBytes
  · refine iff_of_true ?_ (Or.inr (Or.inl small))
    rintro number ⟨positive, line, found, -⟩
    have bound := (List.getElem?_eq_some_iff.mp found).1
    refine Or.inl ⟨source.makeExcerpt path (splitLines content) 1 (splitLines content).length
      categories (splitLines content).length, ?_, positive, ?_⟩
    · unfold chunkText
      rw [if_neg (by rw [List.isEmpty_iff]; rintro none; simp [none] at bound), if_pos small]
      exact List.mem_cons_self
    · exact (by omega : number ≤ (splitLines content).length)
  · unfold LosesNoLine
    simp only [source.accountsFor_iff_of_large small, small, false_or]
    by_cases solidity : suffixOf lower path = ".sol".toList
    · have ranges : source.rangesFor lower path content = source.solidityRanges content := by
        exact (if_neg notPython).trans (if_pos solidity)
      simp only [ranges, source.exists_solidityRange_iff, source.solidityRanges_eq_nil_iff,
        solidity, ne_eq, not_true_eq_false, false_or]
      by_cases none : ∀ number, ¬ LineWith content source.isHeader number ∧
          ¬ LineWith content source.isDeclaration number
      · exact iff_of_true (fun _ _ => Or.inl none) (Or.inl none)
      · simp only [or_iff_right none]
    · refine iff_of_true ?_ (Or.inl solidity)
      rintro number ⟨positive, line, found, someText⟩
      have ranges : source.rangesFor lower path content = source.blockRanges content := by
        exact (if_neg notPython).trans (if_neg solidity)
      rw [ranges]
      obtain ⟨range, member, inside⟩ := source.exists_block 1 none (splitLines content) (by simp)
        found (by simpa [IsBlank] using someText)
      exact Or.inr ⟨range, member, by rwa [Nat.add_sub_cancel' positive] at inside⟩

/-! ## A contract and an abstract contract -/

def contractFile : List Char :=
  "pragma solidity ^0.8.0;\ncontract A \x7b\n\x7d\n".toList

theorem loses_no_line_sample :
    plainSyntax.LosesNoLine id "A.sol".toList contractFile [] 30 := by
  refine (plainSyntax.loses_no_line_iff id "A.sol".toList contractFile [] 30
    (by decide +kernel)).mpr (Or.inr (Or.inr (Or.inr ?_)))
  rintro number ⟨positive, line, found, -⟩
  have bound := (List.getElem?_eq_some_iff.mp found).1
  have lineCount : (splitLines contractFile).length = 3 := by decide +kernel
  have header : LineWith contractFile plainSyntax.isHeader 1 :=
    ⟨le_rfl, "pragma solidity ^0.8.0;\n".toList, by decide +kernel, by decide +kernel⟩
  have declaration : LineWith contractFile plainSyntax.isDeclaration 2 :=
    ⟨by decide, "contract A \x7b\n".toList, by decide +kernel, by decide +kernel⟩
  have stops : plainSyntax.braceRangeEnd (splitLines contractFile) 2 = 3 := by decide +kernel
  by_cases isHeader : number = 1
  · subst isHeader
    exact Or.inl ⟨⟨1, header, le_rfl⟩, 1, header, le_rfl⟩
  · refine Or.inr ⟨2, declaration, (plainSyntax.inExtent_iff (by decide) number).mpr ?_⟩
    rw [stops]
    exact ⟨by dsimp only; omega, by dsimp only; omega⟩

def abstractFile : List Char :=
  "pragma solidity ^0.8.0;\nabstract contract A \x7b\n\x7d\n".toList

/-- The header is returned; nothing names the abstract contract. -/
theorem abstract_contract_lost :
    plainSyntax.chunkText id "A.sol".toList abstractFile [] 30 =
        ⟨[plainSyntax.makeExcerpt "A.sol".toList (splitLines abstractFile) 1 1 [] 3], []⟩ ∧
      ¬ plainSyntax.LosesNoLine id "A.sol".toList abstractFile [] 30 := by
  have result : plainSyntax.chunkText id "A.sol".toList abstractFile [] 30 =
      ⟨[plainSyntax.makeExcerpt "A.sol".toList (splitLines abstractFile) 1 1 [] 3], []⟩ := by
    decide +kernel
  refine ⟨result, fun losesNone => ?_⟩
  have accounted := losesNone 2
    ⟨by decide, "abstract contract A \x7b\n".toList, by decide +kernel, by decide +kernel⟩
  rw [result] at accounted
  rcases accounted with ⟨excerpt, member, inside⟩ | ⟨range, named, -⟩ | noBlock
  · obtain rfl := List.mem_singleton.mp member
    exact absurd inside.2 (by decide)
  · cases named
  · cases noBlock

end Syntax

end Context

end MmAudit
