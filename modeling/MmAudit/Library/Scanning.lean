import Mathlib.Data.List.Basic
import Mathlib.Data.Nat.Notation

/-!
# Searching a text for a pattern

A pattern is tried at a place of a text, with the character before the place, and gives what
it found and the text after it.  A search takes the leftmost place where the pattern finds
something.  All matches are found in turn, each from the end of the one before; the patterns
here never match an empty text.

The parts of a pattern take as much as they can and give nothing back, which is exact when
what follows a part begins with none of its characters.
-/

namespace MmAudit

namespace Scanning

/-! ## Parts of a pattern -/

/-- The text after a given one. -/
def literal (expected text : List Char) : Option (List Char) :=
  if expected <+: text then some (text.drop expected.length) else none

/-- `[...]+`: the accepted characters at the start of a text, and the rest. -/
def run (accepts : Char → Bool) (text : List Char) : Option (List Char × List Char) :=
  match text.takeWhile accepts with
  | [] => none
  | taken => some (taken, text.dropWhile accepts)

@[simp]
theorem literal_append (expected text : List Char) :
    literal expected (expected ++ text) = some text := by
  rw [literal, if_pos (List.prefix_append _ _), List.drop_left]

theorem literal_of_head_ne {expected text : List Char} {char : Char}
    (starts : expected.head? = some char) (differs : text.head? ≠ some char) :
    literal expected text = none := by
  refine if_neg fun isPrefix => differs ?_
  obtain ⟨rest, rfl⟩ := isPrefix
  cases expected with
  | nil => cases starts
  | cons first others => exact starts

theorem run_append {accepts : Char → Bool} {taken rest : List Char} (nonempty : taken ≠ [])
    (accepted : ∀ char ∈ taken, accepts char = true)
    (stops : ∀ char, rest.head? = some char → accepts char = false) :
    run accepts (taken ++ rest) = some (taken, rest) := by
  have stopped : rest.takeWhile accepts = [] ∧ rest.dropWhile accepts = rest := by
    cases rest with
    | nil => exact ⟨rfl, rfl⟩
    | cons char rest =>
        have notAccepted := stops char rfl
        simp [notAccepted]
  rw [run, List.takeWhile_append_of_pos accepted, List.dropWhile_append_of_pos accepted,
    stopped.1, stopped.2, List.append_nil]
  cases taken with
  | nil => exact absurd rfl nonempty
  | cons char taken => rfl

/-! ## Searching -/

section Searching

variable {Value : Type*}

/-- What stands before a match, what was found and what stands after it. -/
structure Match (Value : Type*) where
  before : List Char
  value : Value
  after : List Char

variable (pattern : Option Char → List Char → Option (Value × List Char))

/-- The leftmost match. -/
def search : Option Char → List Char → Option (Match Value)
  | previous, [] => (pattern previous []).map fun found => ⟨[], found.1, found.2⟩
  | previous, char :: text =>
      match pattern previous (char :: text) with
      | some found => some ⟨[], found.1, found.2⟩
      | none => (search (some char) text).map fun found =>
          { found with before := char :: found.before }

/-- The last character of a text, or the one before it. -/
def lastOf : Option Char → List Char → Option Char
  | previous, [] => previous
  | _, char :: text => lastOf (some char) text

/-- At most so many matches, each from the end of the one before. -/
def findAllWithin : ℕ → Option Char → List Char → List (Match Value)
  | 0, _, _ => []
  | fuel + 1, previous, text =>
      match search pattern previous text with
      | none => []
      | some found => found :: findAllWithin fuel
          (lastOf previous (text.take (text.length - found.after.length))) found.after

/-- All matches. -/
def findAll (text : List Char) : List (Match Value) :=
  findAllWithin pattern (text.length + 1) none text

/-! ## Places without a match -/

/-- The pattern finds nothing at the places of a text that another text follows. -/
def FailsAlong : Option Char → List Char → List Char → Prop
  | _, [], _ => True
  | previous, char :: skipped, text =>
      pattern previous (char :: (skipped ++ text)) = none ∧ FailsAlong (some char) skipped text

variable {pattern}

theorem FailsAlong.append {previous : Option Char} {first second text : List Char}
    (firstFails : FailsAlong pattern previous first (second ++ text))
    (secondFails : FailsAlong pattern (lastOf previous first) second text) :
    FailsAlong pattern previous (first ++ second) text := by
  induction first generalizing previous with
  | nil => exact secondFails
  | cons char first ih =>
      obtain ⟨fails, rest⟩ := firstFails
      rw [List.cons_append, FailsAlong, List.append_assoc]
      exact ⟨fails, ih rest secondFails⟩

/-- A pattern with a fixed first character finds nothing where that does not stand. -/
theorem failsAlong_of_not_mem {char : Char}
    (starts : ∀ previous text, text.head? ≠ some char → pattern previous text = none)
    (previous : Option Char) {skipped : List Char} (absent : char ∉ skipped) (text : List Char) :
    FailsAlong pattern previous skipped text := by
  induction skipped generalizing previous with
  | nil => trivial
  | cons other skipped ih =>
      rw [List.mem_cons, not_or] at absent
      refine ⟨starts _ _ ?_, ih _ absent.2⟩
      exact fun same => absent.1 (Option.some.inj same).symm

theorem search_of_match {previous : Option Char} {text : List Char} {found : Value × List Char}
    (matched : pattern previous text = some found) :
    search pattern previous text = some ⟨[], found.1, found.2⟩ := by
  cases text with
  | nil => rw [search, matched, Option.map_some]
  | cons char text => rw [search, matched]

/-- A search passes over the places without a match. -/
theorem search_append {previous : Option Char} {skipped text : List Char}
    (fails : FailsAlong pattern previous skipped text) :
    search pattern previous (skipped ++ text) =
      (search pattern (lastOf previous skipped) text).map fun found =>
        { found with before := skipped ++ found.before } := by
  induction skipped generalizing previous with
  | nil => simp [lastOf]
  | cons char skipped ih =>
      obtain ⟨failsHere, failsLater⟩ := fails
      rw [List.cons_append, search, failsHere, ih failsLater, Option.map_map]
      rfl

theorem search_eq_none {previous : Option Char} {text : List Char}
    (fails : FailsAlong pattern previous text [])
    (failsAtEnd : pattern (lastOf previous text) [] = none) :
    search pattern previous text = none := by
  have passed := search_append fails
  rw [List.append_nil] at passed
  rw [passed, search, failsAtEnd]
  rfl

/-- The first of all matches stands after places without a match. -/
theorem findAllWithin_succ {fuel : ℕ} {previous : Option Char} {skipped text : List Char}
    {found : Value × List Char} (fails : FailsAlong pattern previous skipped text)
    (matched : pattern (lastOf previous skipped) text = some found) :
    findAllWithin pattern (fuel + 1) previous (skipped ++ text) =
      ⟨skipped, found.1, found.2⟩ :: findAllWithin pattern fuel
        (lastOf previous ((skipped ++ text).take ((skipped ++ text).length - found.2.length)))
        found.2 := by
  rw [findAllWithin, search_append fails, search_of_match matched]
  simp

theorem findAllWithin_eq_nil {fuel : ℕ} {previous : Option Char} {text : List Char}
    (fails : FailsAlong pattern previous text [])
    (failsAtEnd : pattern (lastOf previous text) [] = none) :
    findAllWithin pattern fuel previous text = [] := by
  cases fuel with
  | zero => rfl
  | succ fuel => rw [findAllWithin, search_eq_none fails failsAtEnd]

end Searching

end Scanning

end MmAudit
