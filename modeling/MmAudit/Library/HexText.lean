import Mathlib.Data.Int.Notation
import Mathlib.Data.List.DropRight

/-!
# Lenient readers of hexadecimal texts

`int(text, 16)` and `bytes.fromhex(text)` read more texts than those of hexadecimal digits:
white space, a sign, a further prefix and single underscores, and for a number the decimal
digits of all scripts.  On a text of hexadecimal digits both read its digits.

What the characters beyond the ASCII characters stand for is a parameter.
-/

namespace MmAudit

namespace HexText

def hexDigit? (char : Char) : Option ℕ :=
  if '0' ≤ char ∧ char ≤ '9' then some (char.toNat - '0'.toNat)
  else if 'a' ≤ char ∧ char ≤ 'f' then some (char.toNat - 'a'.toNat + 10)
  else if 'A' ≤ char ∧ char ≤ 'F' then some (char.toNat - 'A'.toNat + 10)
  else none

def isHexDigit (char : Char) : Bool :=
  (hexDigit? char).isSome

/-- The value of hexadecimal digits. -/
def value (digits : List ℕ) : ℕ :=
  digits.foldl (fun number digit => number * 16 + digit) 0

def digitValue (char : Char) : ℕ :=
  (hexDigit? char).getD 0

/-- The number that a text of hexadecimal digits denotes. -/
def denotes (text : List Char) : ℕ :=
  value (text.map digitValue)

/-- The white space of ASCII. -/
def isSpace (char : Char) : Bool :=
  char == ' ' || decide ('\t' ≤ char ∧ char ≤ '\r')

/-- What the characters beyond ASCII stand for. -/
structure Unicode where
  isSpace : Char → Bool
  decimal : Char → Option (Fin 10)

/-- The ASCII character that a number reader sees in the place of a character. -/
def Unicode.toAscii (unicode : Unicode) (char : Char) : Char :=
  if char.toNat < 127 then char
  else if unicode.isSpace char then ' '
  else
    match unicode.decimal char with
    | some digit => Char.ofNat ('0'.toNat + digit.val)
    | none => '?'

/-- Digits with single underscores between them. -/
def groupedDigits? : List Char → Option (List ℕ)
  | [] => none
  | [char] => (hexDigit? char).map fun digit => [digit]
  | char :: next :: rest =>
      match hexDigit? char with
      | none => none
      | some digit =>
          (if next = '_' then groupedDigits? rest else groupedDigits? (next :: rest)).map (digit :: ·)

/-- A text after a sign. -/
def splitSign : List Char → Bool × List Char
  | '+' :: rest => (false, rest)
  | '-' :: rest => (true, rest)
  | text => (false, text)

/-- A text after the prefix of a hexadecimal number and one underscore. -/
def dropPrefix : List Char → List Char
  | '0' :: 'x' :: '_' :: rest => rest
  | '0' :: 'X' :: '_' :: rest => rest
  | '0' :: 'x' :: rest => rest
  | '0' :: 'X' :: rest => rest
  | text => text

/-- `int(text, 16)` -/
def intOf16? (unicode : Unicode) (text : List Char) : Option ℤ :=
  let signed := splitSign (((text.map unicode.toAscii).dropWhile isSpace).rdropWhile isSpace)
  (groupedDigits? (dropPrefix signed.2)).map fun digits =>
    if signed.1 then -(value digits : ℤ) else value digits

/-- `bytes.fromhex(text)` -/
def bytesFromHex? : List Char → Option (List ℕ)
  | [] => some []
  | [char] => if isSpace char then some [] else none
  | char :: next :: rest =>
      if isSpace char then bytesFromHex? (next :: rest)
      else
        match hexDigit? char, hexDigit? next with
        | some high, some low => (bytesFromHex? rest).map fun bytes => (high * 16 + low) :: bytes
        | _, _ => none

/-! ## Texts of hexadecimal digits -/

/-- A hexadecimal digit is an ASCII character and none of the special ones. -/
structure Plain (char : Char) : Prop where
  ascii : char.toNat < 127
  notSpace : isSpace char = false
  notSign : char ≠ '+' ∧ char ≠ '-'
  notMark : char ≠ '_' ∧ char ≠ 'x' ∧ char ≠ 'X'

theorem code_of_isHexDigit {char : Char} (isDigit : isHexDigit char = true) :
    (48 ≤ char.toNat ∧ char.toNat ≤ 57) ∨ (97 ≤ char.toNat ∧ char.toNat ≤ 102) ∨
      (65 ≤ char.toNat ∧ char.toNat ≤ 70) := by
  unfold isHexDigit hexDigit? at isDigit
  split at isDigit
  next range => exact Or.inl range
  · split at isDigit
    next range => exact Or.inr (Or.inl range)
    · split at isDigit
      next range => exact Or.inr (Or.inr range)
      · cases isDigit

theorem plain_of_isHexDigit {char : Char} (isDigit : isHexDigit char = true) : Plain char := by
  have code := code_of_isHexDigit isDigit
  have differs : ∀ other : Char, ¬ ((48 ≤ other.toNat ∧ other.toNat ≤ 57) ∨
      (97 ≤ other.toNat ∧ other.toNat ≤ 102) ∨ (65 ≤ other.toNat ∧ other.toNat ≤ 70)) →
        char ≠ other := by
    rintro other outside rfl
    exact outside code
  refine ⟨by omega, ?_, ⟨differs _ (by decide), differs _ (by decide)⟩,
    ⟨differs _ (by decide), differs _ (by decide), differs _ (by decide)⟩⟩
  rw [isSpace, Bool.or_eq_false_iff, beq_eq_false_iff_ne, decide_eq_false_iff_not]
  refine ⟨differs _ (by decide), ?_⟩
  rintro ⟨-, upper⟩
  change char.toNat ≤ '\r'.toNat at upper
  have : '\r'.toNat = 13 := rfl
  omega

theorem hexDigit?_of_isHexDigit {char : Char} (isDigit : isHexDigit char = true) :
    hexDigit? char = some (digitValue char) := by
  obtain ⟨digit, isSome⟩ := Option.isSome_iff_exists.mp isDigit
  rw [digitValue, isSome]
  rfl

/-- Digits without underscores are read one by one. -/
theorem groupedDigits?_of_digits {text : List Char} (nonempty : text ≠ [])
    (digits : text.all isHexDigit = true) :
    groupedDigits? text = some (text.map digitValue) := by
  induction text with
  | nil => exact absurd rfl nonempty
  | cons char text ih =>
      obtain ⟨isDigit, rest⟩ := (Bool.and_eq_true _ _).mp (List.all_cons ▸ digits)
      cases text with
      | nil => rw [groupedDigits?, hexDigit?_of_isHexDigit isDigit]; rfl
      | cons next text =>
          have notMark : next ≠ '_' :=
            (plain_of_isHexDigit (List.all_eq_true.mp rest next List.mem_cons_self)).notMark.1
          rw [groupedDigits?, hexDigit?_of_isHexDigit isDigit]
          dsimp only
          rw [if_neg notMark, ih (List.cons_ne_nil _ _) rest]
          rfl

theorem map_toAscii_of_digits (unicode : Unicode) {text : List Char}
    (digits : text.all isHexDigit = true) : text.map unicode.toAscii = text := by
  refine (List.map_congr_left fun char member => ?_).trans (List.map_id text)
  exact if_pos (plain_of_isHexDigit (List.all_eq_true.mp digits char member)).ascii

theorem dropWhile_of_digits {text : List Char} (digits : text.all isHexDigit = true) :
    text.dropWhile isSpace = text := by
  cases text with
  | nil => rfl
  | cons char text =>
      obtain ⟨isDigit, -⟩ := (Bool.and_eq_true _ _).mp (List.all_cons ▸ digits)
      rw [List.dropWhile_cons, (plain_of_isHexDigit isDigit).notSpace]
      rfl

theorem rdropWhile_of_digits {text : List Char} (digits : text.all isHexDigit = true) :
    text.rdropWhile isSpace = text := by
  rw [List.rdropWhile, dropWhile_of_digits (by rw [List.all_reverse]; exact digits),
    List.reverse_reverse]

theorem splitSign_of_digits {text : List Char} (digits : text.all isHexDigit = true) :
    splitSign text = (false, text) := by
  unfold splitSign
  split
  · exact absurd rfl (plain_of_isHexDigit (List.all_eq_true.mp digits '+'
      List.mem_cons_self)).notSign.1
  · exact absurd rfl (plain_of_isHexDigit (List.all_eq_true.mp digits '-'
      List.mem_cons_self)).notSign.2
  · rfl

theorem dropPrefix_of_digits {text : List Char} (digits : text.all isHexDigit = true) :
    dropPrefix text = text := by
  have noMark : 'x' ∉ text ∧ 'X' ∉ text :=
    ⟨fun member => absurd rfl (plain_of_isHexDigit
      (List.all_eq_true.mp digits 'x' member)).notMark.2.1,
    fun member => absurd rfl (plain_of_isHexDigit
      (List.all_eq_true.mp digits 'X' member)).notMark.2.2⟩
  unfold dropPrefix
  split
  · exact absurd (by simp) noMark.1
  · exact absurd (by simp) noMark.2
  · exact absurd (by simp) noMark.1
  · exact absurd (by simp) noMark.2
  · rfl

/-- A number of hexadecimal digits is read as what it denotes. -/
theorem intOf16?_of_digits (unicode : Unicode) {text : List Char} (nonempty : text ≠ [])
    (digits : text.all isHexDigit = true) : intOf16? unicode text = some (denotes text) := by
  unfold intOf16?
  rw [map_toAscii_of_digits unicode digits, dropWhile_of_digits digits,
    rdropWhile_of_digits digits, splitSign_of_digits digits]
  dsimp only
  rw [dropPrefix_of_digits digits, groupedDigits?_of_digits nonempty digits]
  rfl

/-- An even number of hexadecimal digits is read as bytes. -/
theorem bytesFromHex?_of_digits {text : List Char} (digits : text.all isHexDigit = true)
    (even : text.length % 2 = 0) : (bytesFromHex? text).isSome = true := by
  induction text using bytesFromHex?.induct with
  | case1 => rfl
  | case2 char _ => exact absurd even (by simp)
  | case3 char _ => exact absurd even (by simp)
  | case4 char next rest isSpace _ =>
      obtain ⟨isDigit, -⟩ := (Bool.and_eq_true _ _).mp (List.all_cons ▸ digits)
      rw [(plain_of_isHexDigit isDigit).notSpace] at isSpace
      cases isSpace
  | case5 char next rest notSpace high low isHigh isLow ih =>
      rw [List.all_cons, List.all_cons, Bool.and_eq_true, Bool.and_eq_true] at digits
      rw [bytesFromHex?, if_neg notSpace, isHigh, isLow, Option.isSome_map]
      refine ih digits.2.2 ?_
      rw [List.length_cons, List.length_cons] at even
      omega
  | case6 char next rest notSpace noPair =>
      rw [List.all_cons, List.all_cons, Bool.and_eq_true, Bool.and_eq_true] at digits
      exact absurd (hexDigit?_of_isHexDigit digits.2.1)
        (fun isLow => noPair _ _ (hexDigit?_of_isHexDigit digits.1) isLow)

end HexText

end MmAudit
