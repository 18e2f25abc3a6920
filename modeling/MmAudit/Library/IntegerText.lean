import MmAudit.Library.HexText
import Mathlib.Data.Nat.Digits.Defs

/-!
# Integer literals in texts

`int(text, 0)` reads a text as a literal with its prefix, and `\d+` the decimal digits of all
scripts.  What the characters beyond the ASCII characters stand for is a parameter.
-/

namespace MmAudit

namespace IntegerText

open HexText

/-- The base that a prefix names, and the digits after it. -/
def splitPrefix : List Char → ℕ × List Char
  | '0' :: 'x' :: rest => (16, rest)
  | '0' :: 'X' :: rest => (16, rest)
  | '0' :: 'o' :: rest => (8, rest)
  | '0' :: 'O' :: rest => (8, rest)
  | '0' :: 'b' :: rest => (2, rest)
  | '0' :: 'B' :: rest => (2, rest)
  | text => (10, text)

/-- A text after the underscore that may follow a prefix. -/
def dropUnderscore : List Char → List Char
  | '_' :: rest => rest
  | text => text

/-- Digits of a base with single underscores between them. -/
def digitsOf? (base : ℕ) (text : List Char) : Option (List ℕ) :=
  (groupedDigits? text).filter fun digits => digits.all (· < base)

/-- A literal without a sign: a decimal one begins with zero only if it is zero. -/
def natural? (text : List Char) : Option ℕ :=
  let split := splitPrefix text
  if split.1 = 10 then
    ((digitsOf? 10 text).filter fun digits => digits.head? ≠ some 0 || digits.all (· = 0)).map
      (Nat.ofDigits 10 ·.reverse)
  else
    (digitsOf? split.1 (dropUnderscore split.2)).map (Nat.ofDigits split.1 ·.reverse)

/-- `int(text, 0)` -/
def literal? (unicode : Unicode) (text : List Char) : Option ℤ :=
  let signed := splitSign (((text.map unicode.toAscii).dropWhile isSpace).rdropWhile isSpace)
  (natural? signed.2).map fun number => if signed.1 then -(number : ℤ) else number

/-- The value of a decimal digit of some script. -/
def decimal? (unicode : Unicode) (char : Char) : Option ℕ :=
  if '0' ≤ char ∧ char ≤ '9' then some (char.toNat - '0'.toNat)
  else if char.toNat < 128 then none
  else (unicode.decimal char).map Fin.val

/-- The number of the first `\[\d+\]` in a text. -/
def bracketed? (unicode : Unicode) : List Char → Option ℕ
  | [] => none
  | '[' :: rest =>
      let digits := (rest.takeWhile fun char => (decimal? unicode char).isSome).filterMap
        (decimal? unicode)
      if digits ≠ [] ∧ (rest.drop digits.length).head? = some ']' then
        some (Nat.ofDigits 10 digits.reverse)
      else
        bracketed? unicode rest
  | _ :: rest => bracketed? unicode rest

end IntegerText

end MmAudit
