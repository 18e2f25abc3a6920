import Mathlib.Data.List.Basic
import Mathlib.Data.List.DropRight
import Mathlib.Data.List.Infix
import Mathlib.Data.Nat.Notation

/-!
# Searching a text

A pattern is searched from the left: a test sees the character before a place and the text from
it on.  Which letters of all alphabets are word characters is a parameter.
-/

namespace MmAudit

namespace TextSearch

/-- The characters that `str.isspace` accepts. -/
def isSpace (char : Char) : Bool :=
  let code := char.toNat
  (9 ≤ code && code ≤ 13) || (28 ≤ code && code ≤ 32) || code == 0x85 || code == 0xa0 ||
    code == 0x1680 || (0x2000 ≤ code && code ≤ 0x200a) || code == 0x2028 || code == 0x2029 ||
    code == 0x202f || code == 0x205f || code == 0x3000

/-- `text.lstrip()` -/
def lstrip (text : List Char) : List Char :=
  text.dropWhile isSpace

/-- `text.strip()` -/
def strip (text : List Char) : List Char :=
  (lstrip text).rdropWhile isSpace

/-- A test of a place: the character before it and the text from it on. -/
abbrev Test := Option Char → List Char → Bool

/-- `re.search(test, text)` after a character. -/
def searchFrom (test : Test) : Option Char → List Char → Bool
  | previous, [] => test previous []
  | previous, char :: text => test previous (char :: text) || searchFrom test (some char) text

def search (test : Test) (text : List Char) : Bool :=
  searchFrom test none text

section Words

variable (isWord : Char → Bool)

/-- `\b` -/
def isBoundary (previous next : Option Char) : Bool :=
  previous.any isWord != next.any isWord

/-- `\bword` -/
def wordStart (word : List Char) : Test := fun previous text =>
  isBoundary isWord previous text.head? && word.isPrefixOf text

/-- `\bword\b` -/
def wholeWord (word : List Char) : Test := fun previous text =>
  wordStart isWord word previous text &&
    isBoundary isWord word.getLast? (text.drop word.length).head?

/-- `\bword\s*\(` -/
def call (word : List Char) : Test := fun previous text =>
  wordStart isWord word previous text &&
    ((text.drop word.length).dropWhile isSpace).head? == some '('

end Words

/-! ## Occurrences -/

/-- Counts the occurrences that do not overlap, after some characters of one before. -/
def countFrom (part : List Char) : ℕ → List Char → ℕ
  | _, [] => 0
  | skipped + 1, _ :: text => countFrom part skipped text
  | 0, char :: text =>
      if part.isPrefixOf (char :: text) then 1 + countFrom part (part.length - 1) text
      else countFrom part 0 text

/-- `text.count(part)` for a part that is not empty. -/
def count (part text : List Char) : ℕ :=
  countFrom part 0 text

/-- `text.replace(part, new, 1)` for a part that is not empty. -/
def replaceFirst (part new : List Char) : List Char → List Char
  | [] => []
  | char :: text =>
      if part.isPrefixOf (char :: text) then new ++ (char :: text).drop part.length
      else char :: replaceFirst part new text

/-! ## What a search finds -/

theorem exists_of_searchFrom {test : Test} {previous : Option Char} {text : List Char}
    (found : searchFrom test previous text = true) :
    ∃ before after previous', text = before ++ after ∧ test previous' after = true := by
  induction text generalizing previous with
  | nil => exact ⟨[], [], previous, rfl, found⟩
  | cons char text ih =>
      rw [searchFrom, Bool.or_eq_true] at found
      rcases found with here | later
      · exact ⟨[], char :: text, previous, rfl, here⟩
      · obtain ⟨before, after, previous', parts, holds⟩ := ih later
        exact ⟨char :: before, after, previous', by rw [parts]; rfl, holds⟩

/-- A text where a word starts has the characters of the word. -/
theorem subset_of_search_call {isWord : Char → Bool} {word text : List Char}
    (found : search (call isWord word) text = true) : word ⊆ text := by
  obtain ⟨before, after, previous, rfl, holds⟩ := exists_of_searchFrom found
  rw [call, wordStart, Bool.and_eq_true, Bool.and_eq_true] at holds
  have start := List.isPrefixOf_iff_prefix.mp holds.1.2
  exact fun char member => List.mem_append_right _ (start.subset member)

/-- A single character is counted as in a list. -/
theorem count_singleton (char : Char) (text : List Char) : count [char] text = text.count char := by
  induction text with
  | nil => rfl
  | cons other text ih =>
      rw [count] at ih ⊢
      rw [countFrom, List.count_cons]
      by_cases same : other = char
      · subst same
        simp only [List.isPrefixOf, BEq.rfl, Bool.true_and, if_true, List.length_singleton]
        rw [Nat.sub_self, ih, Nat.add_comm]
      · have different : ¬char = other := fun equal => same equal.symm
        rw [if_neg (by simpa [List.isPrefixOf] using different), ih]
        simp [same]

theorem replaceFirst_singleton {char : Char} (new : List Char) {before : List Char}
    (absent : char ∉ before) (after : List Char) :
    replaceFirst [char] new (before ++ char :: after) = before ++ new ++ after := by
  induction before with
  | nil => simp [replaceFirst, List.isPrefixOf]
  | cons other before ih =>
      rw [List.mem_cons, not_or] at absent
      rw [List.cons_append, replaceFirst, if_neg (by simpa [List.isPrefixOf] using absent.1),
        ih absent.2]
      rfl

theorem not_isSpace_of_mem_lstrip_head {text : List Char} {char : Char} {rest : List Char}
    (stripped : lstrip text = char :: rest) : isSpace char = false := by
  have head := List.head?_dropWhile_not isSpace text
  rw [lstrip] at stripped
  rw [stripped] at head
  simpa using head

theorem strip_subset (text : List Char) : strip text ⊆ text :=
  ((List.rdropWhile_prefix isSpace (lstrip text)).sublist.trans (List.dropWhile_sublist _)).subset

end TextSearch

end MmAudit
