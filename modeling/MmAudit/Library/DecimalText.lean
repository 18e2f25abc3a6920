import MmAudit.Library.Decimal

/-!
# Positional decimal text

Decimal numbers are exchanged as plain positional text: digits, and after an
optional point the digits of the fraction.  Trimming removes the zeros that end
a fraction, and the point itself when no fraction digit is left.  Reading such
a text back gives the number that was written, in a possibly shorter form.
-/

namespace MmAudit

namespace Decimal

/-- Positional notation of the magnitude of a number, without an exponent. -/
def fixedPoint (number : Decimal) : List Char :=
  let digits := Nat.toDigits 10 number.coefficient.natAbs
  if 0 ≤ number.exponent then
    digits ++ List.replicate number.exponent.toNat '0'
  else
    let places := (-number.exponent).toNat
    let padded := List.replicate (places + 1 - digits.length) '0' ++ digits
    padded.take (padded.length - places) ++ '.' :: padded.drop (padded.length - places)

/-- Remove the zeros that end a fraction, then a final point. -/
def trimFraction (text : List Char) : List Char :=
  if '.' ∈ text then
    (text.rdropWhile (· == '0')).rdropWhile (· == '.')
  else
    text

/-- Read unsigned positional notation. -/
def parse (text : List Char) : Option Decimal :=
  let whole := text.takeWhile (· != '.')
  let fraction := (text.dropWhile (· != '.')).tail
  if (whole ++ fraction).all Char.isDigit && !(whole ++ fraction).isEmpty then
    some ⟨Nat.ofDigitChars 10 (whole ++ fraction) 0, -(fraction.length : ℤ)⟩
  else
    none

/-! ## Digits and points -/

theorem ne_point_of_isDigit {character : Char} (digit : character.isDigit = true) :
    character ≠ '.' := by
  rintro rfl
  exact absurd digit (by decide)

theorem takeWhile_ne_point {whole : List Char}
    (digits : ∀ character ∈ whole, character.isDigit = true) (rest : List Char) :
    (whole ++ '.' :: rest).takeWhile (· != '.') = whole := by
  induction whole with
  | nil => simp
  | cons character whole ih =>
      have notPoint := ne_point_of_isDigit (digits character (by simp))
      simp only [List.cons_append, List.takeWhile_cons]
      rw [if_pos (by simpa using notPoint),
        ih fun other member => digits other (by simp [member])]

theorem dropWhile_ne_point {whole : List Char}
    (digits : ∀ character ∈ whole, character.isDigit = true) (rest : List Char) :
    (whole ++ '.' :: rest).dropWhile (· != '.') = '.' :: rest := by
  induction whole with
  | nil => simp
  | cons character whole ih =>
      have notPoint := ne_point_of_isDigit (digits character (by simp))
      simp only [List.cons_append, List.dropWhile_cons]
      rw [if_pos (by simpa using notPoint),
        ih fun other member => digits other (by simp [member])]

theorem parse_whole {whole : List Char} (nonempty : whole ≠ [])
    (digits : ∀ character ∈ whole, character.isDigit = true) :
    parse whole = some ⟨Nat.ofDigitChars 10 whole 0, 0⟩ := by
  have notPoint : ∀ character ∈ whole, (character != '.') = true := fun character member => by
    simpa using ne_point_of_isDigit (digits character member)
  have wholeEq : whole.takeWhile (· != '.') = whole := List.takeWhile_eq_self_iff.mpr notPoint
  have restEq : whole.dropWhile (· != '.') = [] := List.dropWhile_eq_nil_iff.mpr notPoint
  simp only [parse, wholeEq, restEq]
  rw [if_pos]
  · simp
  · simp [nonempty]
    exact digits

theorem parse_point {whole fraction : List Char} (nonempty : whole ≠ [])
    (wholeDigits : ∀ character ∈ whole, character.isDigit = true)
    (fractionDigits : ∀ character ∈ fraction, character.isDigit = true) :
    parse (whole ++ '.' :: fraction) =
      some ⟨Nat.ofDigitChars 10 (whole ++ fraction) 0, -(fraction.length : ℤ)⟩ := by
  simp only [parse, takeWhile_ne_point wholeDigits, dropWhile_ne_point wholeDigits,
    List.tail_cons]
  rw [if_pos]
  simp only [List.all_append, Bool.and_eq_true, List.all_eq_true, Bool.not_eq_true',
    List.isEmpty_eq_false_iff, List.append_eq_nil_iff, nonempty, false_and, ne_eq]
  exact ⟨⟨wholeDigits, fractionDigits⟩, not_false⟩

/-! ## Trimming -/

theorem rdropWhile_zero_point (whole fraction : List Char) :
    (whole ++ '.' :: fraction).rdropWhile (· == '0') =
      whole ++ '.' :: fraction.rdropWhile (· == '0') := by
  induction fraction using List.reverseRecOn with
  | nil => exact List.rdropWhile_concat_neg (· == '0') _ _ (by decide)
  | append_singleton fraction character ih =>
      have shape : whole ++ '.' :: (fraction ++ [character]) =
          (whole ++ '.' :: fraction) ++ [character] := by simp
      by_cases isZero : (character == '0') = true
      · rw [shape, List.rdropWhile_concat_pos (· == '0') _ _ isZero, ih,
          List.rdropWhile_concat_pos (· == '0') _ _ isZero]
      · rw [shape, List.rdropWhile_concat_neg (· == '0') _ _ isZero,
          List.rdropWhile_concat_neg (· == '0') _ _ isZero]
        simp

theorem rdropWhile_point_of_digits {text : List Char}
    (digits : ∀ character ∈ text, character.isDigit = true) :
    text.rdropWhile (· == '.') = text := by
  refine List.rdropWhile_eq_self_iff.mpr fun nonempty => ?_
  simpa using ne_point_of_isDigit (digits _ (List.getLast_mem nonempty))

/-- Zeros dropped from the end of a digit string divide its value by a power
of ten. -/
theorem ofDigitChars_rdropWhile_zero (whole fraction : List Char) :
    ∃ zeros : ℕ, fraction.length = (fraction.rdropWhile (· == '0')).length + zeros ∧
      Nat.ofDigitChars 10 (whole ++ fraction) 0 =
        Nat.ofDigitChars 10 (whole ++ fraction.rdropWhile (· == '0')) 0 * 10 ^ zeros := by
  induction fraction using List.reverseRecOn with
  | nil => exact ⟨0, by simp⟩
  | append_singleton fraction character ih =>
      by_cases isZero : (character == '0') = true
      · obtain ⟨zeros, lengthEq, valueEq⟩ := ih
        refine ⟨zeros + 1, ?_, ?_⟩
        · rw [List.rdropWhile_concat_pos (· == '0') _ _ isZero]
          simp [lengthEq]
          omega
        · rw [List.rdropWhile_concat_pos (· == '0') _ _ isZero, ← List.append_assoc,
            Nat.ofDigitChars_append, valueEq, beq_iff_eq.mp isZero]
          simp [Nat.ofDigitChars_cons, pow_succ]
          ring
      · refine ⟨0, ?_⟩
        rw [List.rdropWhile_concat_neg (· == '0') _ _ isZero]
        simp

theorem isDigit_of_mem_rdropWhile {fraction : List Char}
    (digits : ∀ character ∈ fraction, character.isDigit = true) :
    ∀ character ∈ fraction.rdropWhile (· == '0'), character.isDigit = true :=
  fun character member => digits character ((List.rdropWhile_prefix _ _).subset member)

/-- A trimmed text with a point reads back as its digits without the zeros that
end the fraction. -/
theorem parse_trimFraction_point {whole fraction : List Char} (nonempty : whole ≠ [])
    (wholeDigits : ∀ character ∈ whole, character.isDigit = true)
    (fractionDigits : ∀ character ∈ fraction, character.isDigit = true) :
    parse (trimFraction (whole ++ '.' :: fraction)) =
      some ⟨Nat.ofDigitChars 10 (whole ++ fraction.rdropWhile (· == '0')) 0,
        -((fraction.rdropWhile (· == '0')).length : ℤ)⟩ := by
  have keptDigits := isDigit_of_mem_rdropWhile fractionDigits
  rw [trimFraction, if_pos (by simp), rdropWhile_zero_point]
  by_cases emptied : fraction.rdropWhile (· == '0') = []
  · rw [emptied, List.rdropWhile_concat_pos (· == '.') _ _ (by decide),
      rdropWhile_point_of_digits wholeDigits, parse_whole nonempty wholeDigits]
    simp
  · have kept : (whole ++ '.' :: fraction.rdropWhile (· == '0')).rdropWhile (· == '.') =
        whole ++ '.' :: fraction.rdropWhile (· == '0') := by
      refine List.rdropWhile_eq_self_iff.mpr fun _ => ?_
      rw [List.getLast_append_of_ne_nil _ (by simp), List.getLast_cons emptied]
      simpa using ne_point_of_isDigit (keptDigits _ (List.getLast_mem emptied))
    rw [kept, parse_point nonempty wholeDigits keptDigits]

/-! ## Round trip -/

theorem isDigit_of_mem_toDigits (coefficient : ℕ) :
    ∀ character ∈ Nat.toDigits 10 coefficient, character.isDigit = true :=
  fun _ member => Nat.isDigit_of_mem_toDigits (by norm_num) (by norm_num) member

theorem ofDigitChars_zeros_append_toDigits (zeros coefficient : ℕ) :
    Nat.ofDigitChars 10 (List.replicate zeros '0' ++ Nat.toDigits 10 coefficient) 0 =
      coefficient := by
  rw [Nat.ofDigitChars_append]
  simp

/-- A number with a fraction splits into a non-empty whole part and exactly as
many fraction digits as its exponent asks for. -/
theorem fixedPoint_of_neg {number : Decimal} (negative : number.exponent < 0) :
    ∃ whole fraction : List Char, number.fixedPoint = whole ++ '.' :: fraction ∧
      whole ≠ [] ∧ fraction.length = (-number.exponent).toNat ∧
      (∀ character ∈ whole ++ fraction, character.isDigit = true) ∧
      Nat.ofDigitChars 10 (whole ++ fraction) 0 = number.coefficient.natAbs := by
  set digits := Nat.toDigits 10 number.coefficient.natAbs with digitsDef
  set places := (-number.exponent).toNat
  set padded := List.replicate (places + 1 - digits.length) '0' ++ digits with paddedDef
  have paddedLength : places + 1 ≤ padded.length := by
    simp [paddedDef]
    omega
  refine ⟨padded.take (padded.length - places), padded.drop (padded.length - places),
    ?_, ?_, ?_, ?_, ?_⟩
  · rw [fixedPoint, if_neg (by omega)]
  · intro empty
    have := congrArg List.length empty
    simp at this
    omega
  · simp
    omega
  · rw [List.take_append_drop]
    intro character member
    rcases List.mem_append.mp member with zero | digit
    · rw [List.eq_of_mem_replicate zero]
      decide
    · exact isDigit_of_mem_toDigits _ _ digit
  · rw [List.take_append_drop]
    exact ofDigitChars_zeros_append_toDigits _ _

/-- Reading back the trimmed positional text of a non-negative number returns a
number of the same value. -/
theorem exists_parse_trimFraction_fixedPoint {number : Decimal}
    (nonneg : 0 ≤ number.coefficient) :
    ∃ read : Decimal, parse (trimFraction number.fixedPoint) = some read ∧
      read.value = number.value := by
  have coefficientEq : ((number.coefficient.natAbs : ℕ) : ℚ) = number.coefficient := by
    have integers : ((number.coefficient.natAbs : ℕ) : ℤ) = number.coefficient :=
      Int.natAbs_of_nonneg nonneg
    rw [← Int.cast_natCast, integers]
  by_cases whole : 0 ≤ number.exponent
  · set text := Nat.toDigits 10 number.coefficient.natAbs ++
      List.replicate number.exponent.toNat '0' with textDef
    have digits : ∀ character ∈ text, character.isDigit = true := by
      intro character member
      rcases List.mem_append.mp member with digit | zero
      · exact isDigit_of_mem_toDigits _ _ digit
      · rw [List.eq_of_mem_replicate zero]
        decide
    have noPoint : '.' ∉ text := fun member => ne_point_of_isDigit (digits _ member) rfl
    have nonempty : text ≠ [] := by simp [textDef, Nat.toDigits_ne_nil]
    refine ⟨_, by rw [fixedPoint, if_pos whole, trimFraction, if_neg noPoint,
      parse_whole nonempty digits], ?_⟩
    have gap : ((number.exponent.toNat : ℕ) : ℤ) = number.exponent := Int.toNat_of_nonneg whole
    have valueEq : Nat.ofDigitChars 10 text 0 =
        10 ^ number.exponent.toNat * number.coefficient.natAbs := by
      rw [textDef, Nat.ofDigitChars_append, Nat.ofDigitChars_ten_toDigits,
        Nat.ofDigitChars_replicate_zero]
    simp only [value, zpow_zero, mul_one, Int.cast_natCast]
    rw [valueEq, Nat.cast_mul, Nat.cast_pow, Nat.cast_ofNat, coefficientEq, ← zpow_natCast, gap, mul_comm]
  · obtain ⟨wholeText, fraction, textEq, nonempty, lengthEq, digits, valueEq⟩ :=
      fixedPoint_of_neg (not_le.mp whole)
    refine ⟨_, by rw [textEq, parse_trimFraction_point nonempty
      (fun character member => digits character (by simp [member]))
      (fun character member => digits character (by simp [member]))], ?_⟩
    obtain ⟨zeros, keptLength, keptValue⟩ := ofDigitChars_rdropWhile_zero wholeText fraction
    set kept := fraction.rdropWhile (· == '0')
    have exponentEq : number.exponent = -(kept.length : ℤ) - zeros := by omega
    have scaledEq : (number.coefficient : ℚ) =
        (Nat.ofDigitChars 10 (wholeText ++ kept) 0 : ℕ) * (10 : ℚ) ^ zeros := by
      rw [← coefficientEq, ← valueEq, keptValue]
      push_cast
      ring
    simp only [value]
    rw [scaledEq, exponentEq, zpow_sub₀ ten_ne_zero, zpow_natCast]
    push_cast
    field_simp

end Decimal

end MmAudit
