import Mathlib.Data.List.Infix
import Mathlib.Data.Nat.Notation
import Mathlib.Data.Char

/-!
# Shell patterns and relative paths

`fnmatch` compares a whole text with a shell pattern: a star stands for any text,
separators included, a question mark for one character, and brackets for one
character of a set.  A bracket that is never closed stands for itself.

A relative path is the list of its names.  `pathMatch` compares the names of a path
with the parts of a pattern, from the right.
-/

namespace MmAudit

namespace Glob

/-- One element of a compiled pattern. -/
inductive Token where
  | literal (char : Char)
  | any
  | star
  | set (negated : Bool) (ranges : List (Char × Char))
deriving DecidableEq, Repr

/-- The ranges that the text between two brackets lists.  A range whose ends are in the wrong
order is empty. -/
def setRanges : List Char → List (Char × Char)
  | low :: '-' :: high :: rest => (low, high) :: setRanges rest
  | char :: rest => (char, char) :: setRanges rest
  | [] => []

/-- What stands between an opening bracket and its closing one, and what follows.  The first
character of a set may itself be a closing bracket. -/
def splitSet : List Char → Option (List Char × List Char)
  | [] => none
  | first :: rest =>
      match rest.dropWhile (· ≠ ']') with
      | [] => none
      | _ :: after => some (first :: rest.takeWhile (· ≠ ']'), after)

/-- The token at an opening bracket, and the pattern after it. -/
def setToken (pattern : List Char) : Token × List Char :=
  let negated := pattern.head? == some '!'
  match splitSet (if negated then pattern.tail else pattern) with
  | none => (.literal '[', pattern)
  | some (body, after) => (.set negated (setRanges body), after)

/-- Reads a pattern of at most `fuel` characters. -/
def compileWithin : ℕ → List Char → List Token
  | 0, _ => []
  | _ + 1, [] => []
  | fuel + 1, '*' :: rest => .star :: compileWithin fuel rest
  | fuel + 1, '?' :: rest => .any :: compileWithin fuel rest
  | fuel + 1, '[' :: rest => (setToken rest).1 :: compileWithin fuel (setToken rest).2
  | fuel + 1, char :: rest => .literal char :: compileWithin fuel rest

def compile (pattern : List Char) : List Token :=
  compileWithin pattern.length pattern

/-- The character matches a token that stands for one character. -/
def Token.accepts : Token → Char → Bool
  | .literal char, given => char = given
  | .any, _ => true
  | .star, _ => false
  | .set negated ranges, given =>
      (ranges.any fun range => decide (range.1 ≤ given) && decide (given ≤ range.2)) != negated

def tokensMatch : List Token → List Char → Bool
  | [], text => text.isEmpty
  | .star :: tokens, text => text.tails.any (tokensMatch tokens)
  | _ :: _, [] => false
  | token :: tokens, char :: text => token.accepts char && tokensMatch tokens text

def fnmatch (text pattern : List Char) : Bool :=
  tokensMatch (compile pattern) text

/-- The names of a path, with separators between them. -/
def pathText (names : List (List Char)) : List Char :=
  ['/'].intercalate names

/-- The parts of a relative path or pattern.  Empty parts and dots are dropped. -/
def pathParts (text : List Char) : List (List Char) :=
  (text.splitOn '/').filter fun part => !part.isEmpty && part ≠ ['.']

/-- The last names of the path match the parts of the pattern, one by one.  There is no answer
for a pattern without parts. -/
def pathMatch (names : List (List Char)) (pattern : List Char) : Option Bool :=
  let parts := pathParts pattern
  if parts.isEmpty then none
  else some (parts.length ≤ names.length &&
    (parts.zip (names.drop (names.length - parts.length))).all fun pair =>
      fnmatch pair.2 pair.1)

/-! ## Patterns without metacharacters -/

/-- The pattern has no character with a meaning of its own. -/
def Plain (pattern : List Char) : Prop :=
  ∀ char ∈ pattern, char ≠ '*' ∧ char ≠ '?' ∧ char ≠ '['

theorem compileWithin_plain (fuel : ℕ) {pattern : List Char} (plain : Plain pattern)
    (enough : pattern.length ≤ fuel) :
    compileWithin fuel pattern = pattern.map Token.literal := by
  induction fuel generalizing pattern with
  | zero =>
      obtain rfl := List.length_eq_zero_iff.mp (Nat.le_zero.mp enough)
      rfl
  | succ fuel ih =>
      cases pattern with
      | nil => rfl
      | cons char rest =>
          obtain ⟨notStar, notAny, notSet⟩ := plain char List.mem_cons_self
          have shorter : rest.length ≤ fuel := by
            rw [List.length_cons] at enough
            omega
          have more := ih (fun other member => plain other (List.mem_cons_of_mem _ member)) shorter
          rw [List.map_cons, ← more, compileWithin]
          · exact notStar
          · exact notAny
          · exact notSet

theorem tokensMatch_literals_iff (pattern text : List Char) :
    tokensMatch (pattern.map Token.literal) text = true ↔ text = pattern := by
  induction pattern generalizing text with
  | nil => simp [tokensMatch]
  | cons char pattern ih =>
      cases text with
      | nil => simp [tokensMatch]
      | cons given text =>
          simp only [List.map_cons, tokensMatch, Token.accepts, Bool.and_eq_true,
            decide_eq_true_eq, ih, List.cons.injEq]
          exact and_congr_left fun _ => eq_comm

/-- A plain pattern matches itself only. -/
theorem fnmatch_plain_iff {pattern : List Char} (plain : Plain pattern) (text : List Char) :
    fnmatch text pattern = true ↔ text = pattern := by
  rw [fnmatch, compile, compileWithin_plain _ plain le_rfl]
  exact tokensMatch_literals_iff pattern text

/-- Fewer parts give fewer items. -/
theorem intercalate_sublist {Item : Type*} (separator : Item) {parts others : List (List Item)}
    (within : parts.Sublist others) :
    ([separator].intercalate parts).Sublist ([separator].intercalate others) := by
  induction within with
  | slnil => exact List.Sublist.refl _
  | @cons parts others part within ih =>
      cases others with
      | nil =>
          rw [List.sublist_nil.mp within]
          exact List.nil_sublist _
      | cons next others =>
          rw [List.intercalate_cons_cons]
          exact ih.trans (List.sublist_append_right _ _)
  | @cons_cons parts others part within ih =>
      cases parts with
      | nil =>
          cases others with
          | nil => exact List.Sublist.refl _
          | cons next others =>
              rw [List.intercalate_cons_cons, List.append_assoc]
              simp
      | cons first parts =>
          cases others with
          | nil => cases within
          | cons next others =>
              rw [List.intercalate_cons_cons, List.intercalate_cons_cons]
              exact ih.append_left _

theorem mem_intercalate {Item : Type*} {item separator : Item} {parts : List (List Item)}
    (member : item ∈ [separator].intercalate parts) :
    item = separator ∨ ∃ part ∈ parts, item ∈ part := by
  induction parts with
  | nil => cases member
  | cons part parts ih =>
      cases parts with
      | nil => exact Or.inr ⟨part, List.mem_cons_self, by simpa using member⟩
      | cons next parts =>
          rw [List.intercalate_cons_cons, List.mem_append, List.mem_append] at member
          rcases member with (here | between) | later
          · exact Or.inr ⟨part, List.mem_cons_self, here⟩
          · exact Or.inl (List.mem_singleton.mp between)
          · rcases ih later with between | ⟨other, otherMem, inside⟩
            · exact Or.inl between
            · exact Or.inr ⟨other, List.mem_cons_of_mem _ otherMem, inside⟩

/-- A pattern without parts consists of dots and separators. -/
theorem plain_of_no_parts {pattern : List Char} (noParts : pathParts pattern = []) :
    Plain pattern := by
  intro char member
  have dropped : ∀ part ∈ pattern.splitOn '/', part = [] ∨ part = ['.'] := by
    intro part partMem
    have := (List.filter_eq_nil_iff.mp noParts) part partMem
    simpa [or_iff_not_imp_left] using this
  have whole : ['/'].intercalate (pattern.splitOn '/') = pattern := List.intercalate_splitOn '/'
  rw [← whole] at member
  have cases : char = '/' ∨ char = '.' := by
    rcases mem_intercalate member with separator | ⟨part, partMem, inside⟩
    · exact Or.inl separator
    · rcases dropped part partMem with rfl | rfl
      · cases inside
      · exact Or.inr (List.mem_singleton.mp inside)
  rcases cases with rfl | rfl <;> decide

end Glob

end MmAudit
