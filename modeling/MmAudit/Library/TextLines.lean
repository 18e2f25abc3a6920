import Mathlib.Data.List.Basic
import Mathlib.Data.Nat.Notation

/-!
# Bytes, text and lines

A text is read from bytes as UTF-8, where each maximal part of an ill-formed sequence
is replaced by one replacement character.  Opened in text mode, a file has its line
ends translated to a single line feed; split into lines, a text keeps its line ends.

Translation acts line by line, so both readings of a text have the same number of
lines; and a text survives the way from bytes to text mode and back exactly when its
bytes are an encoding without carriage returns.
-/

namespace MmAudit

namespace TextLines

/-- The UTF-8 encoding of a text. -/
def encode (text : List Char) : List UInt8 :=
  text.flatMap String.utf8EncodeChar

/-- The length of the maximal part of an ill-formed sequence at the head of the bytes. -/
def illFormedLength : List UInt8 → ℕ
  | lead :: second :: rest =>
      let continues := fun byte : UInt8 => decide (0x80 ≤ byte ∧ byte ≤ 0xBF)
      let low : UInt8 := if lead = 0xE0 then 0xA0 else if lead = 0xF0 then 0x90 else 0x80
      let high : UInt8 := if lead = 0xED then 0x9F else if lead = 0xF4 then 0x8F else 0xBF
      if 0xE0 ≤ lead ∧ lead ≤ 0xF4 ∧ low ≤ second ∧ second ≤ high then
        if 0xF0 ≤ lead ∧ rest.head?.any continues then 3 else 2
      else
        1
  | _ => 1

/-- Decodes at most `fuel` characters. -/
def decodeWithin : ℕ → List UInt8 → List Char
  | 0, _ => []
  | _ + 1, [] => []
  | fuel + 1, byte :: bytes =>
      match (byte :: bytes).toByteArray.utf8DecodeChar? 0 with
      | some char => char :: decodeWithin fuel ((byte :: bytes).drop char.utf8Size)
      | none => '\uFFFD' :: decodeWithin fuel ((byte :: bytes).drop (illFormedLength (byte :: bytes)))

/-- `bytes.decode("utf-8", errors="replace")` -/
def decode (bytes : List UInt8) : List Char :=
  decodeWithin bytes.length bytes

/-- The characters that end a line. -/
def isLineEnd (char : Char) : Bool :=
  ['\n', '\r', '\u000b', '\u000c', '\u001c', '\u001d', '\u001e', '\u0085', '\u2028',
    '\u2029'].contains char

/-- `text.splitlines(keepends=True)` -/
def splitLines : List Char → List (List Char)
  | '\r' :: '\n' :: rest => ['\r', '\n'] :: splitLines rest
  | char :: rest =>
      if isLineEnd char then
        [char] :: splitLines rest
      else
        match splitLines rest with
        | [] => [[char]]
        | line :: lines => (char :: line) :: lines
  | [] => []

/-- The translation of line ends in text mode. -/
def universalNewlines : List Char → List Char
  | '\r' :: '\n' :: rest => '\n' :: universalNewlines rest
  | '\r' :: rest => '\n' :: universalNewlines rest
  | char :: rest => char :: universalNewlines rest
  | [] => []

section

-- The equations of both are generated here, once for all that follows.
attribute [local simp] splitLines universalNewlines

end

/-! ## Encoding and decoding -/

theorem encode_cons (char : Char) (text : List Char) :
    encode (char :: text) = String.utf8EncodeChar char ++ encode text :=
  List.flatMap_cons

theorem decodeWithin_encode (fuel : ℕ) (text : List Char) (enough : (encode text).length ≤ fuel) :
    decodeWithin fuel (encode text) = text := by
  induction text generalizing fuel with
  | nil => cases fuel <;> rfl
  | cons char text ih =>
      have size : (String.utf8EncodeChar char).length = char.utf8Size :=
        String.length_utf8EncodeChar char
      have positive := char.utf8Size_pos
      rw [encode_cons, List.length_append, size] at enough
      cases fuel with
      | zero => omega
      | succ fuel =>
          have decoded : (encode (char :: text)).toByteArray.utf8DecodeChar? 0 = some char := by
            rw [encode_cons, List.toByteArray_append, ByteArray.utf8DecodeChar?_utf8EncodeChar_append]
          have dropped : (encode (char :: text)).drop char.utf8Size = encode text := by
            rw [encode_cons, ← size, List.drop_left]
          cases bytes : encode (char :: text) with
          | nil =>
              rw [encode_cons, List.append_eq_nil_iff] at bytes
              rw [bytes.1, List.length_nil] at size
              omega
          | cons byte rest =>
              rw [bytes] at decoded dropped
              rw [decodeWithin, decoded]
              simp only
              rw [dropped, ih fuel (by omega)]

theorem decode_encode (text : List Char) : decode (encode text) = text :=
  decodeWithin_encode _ text (Nat.le_refl _)

theorem encode_injective : Function.Injective encode :=
  Function.LeftInverse.injective decode_encode

/-! ## Line ends -/

/-- Line ends are translated away from the text exactly where there is a carriage return. -/
theorem carriage_not_mem_universalNewlines (text : List Char) :
    '\r' ∉ universalNewlines text := by
  induction text using universalNewlines.induct with
  | case1 rest ih => simp [universalNewlines, ih]
  | case2 rest notFeed ih =>
      rw [universalNewlines]
      · simp [ih]
      · exact notFeed
  | case3 char rest notPair notCarriage ih =>
      rw [universalNewlines]
      · have different : '\r' ≠ char := fun same => notCarriage same.symm
        simp [ih, different]
      · exact notPair
      · exact notCarriage
  | case4 => simp [universalNewlines]

theorem universalNewlines_eq_self_iff (text : List Char) :
    universalNewlines text = text ↔ '\r' ∉ text := by
  constructor
  · intro same
    rw [← same]
    exact carriage_not_mem_universalNewlines text
  · intro absent
    induction text with
    | nil => rfl
    | cons char rest ih =>
        rw [List.mem_cons, not_or] at absent
        obtain ⟨different, restAbsent⟩ := absent
        rw [universalNewlines, ih restAbsent]
        · exact fun more same => absurd same.symm different
        · exact fun same => absurd same.symm different

/-- A character that is no carriage return, at the head of a text. -/
theorem splitLines_cons {char : Char} (rest : List Char) (noCarriage : char ≠ '\r') :
    splitLines (char :: rest) =
      if isLineEnd char then [char] :: splitLines rest
      else
        match splitLines rest with
        | [] => [[char]]
        | line :: lines => (char :: line) :: lines := by
  rw [splitLines]
  exact fun more isCarriage => absurd isCarriage noCarriage

theorem universalNewlines_cons {char : Char} (rest : List Char) (noCarriage : char ≠ '\r') :
    universalNewlines (char :: rest) = char :: universalNewlines rest := by
  rw [universalNewlines]
  · exact fun more isCarriage => absurd isCarriage noCarriage
  · exact noCarriage

/-- Translation acts on the lines one by one. -/
theorem splitLines_universalNewlines (text : List Char) :
    splitLines (universalNewlines text) = (splitLines text).map universalNewlines := by
  induction text using universalNewlines.induct with
  | case1 rest ih => simp [universalNewlines, splitLines, isLineEnd, ih]
  | case2 rest notFeed ih =>
      have alone : splitLines ('\r' :: rest) = ['\r'] :: splitLines rest := by
        rw [splitLines]
        · simp [isLineEnd]
        · exact fun more _ => notFeed more
      have translated : universalNewlines ('\r' :: rest) = '\n' :: universalNewlines rest := by
        rw [universalNewlines]
        exact notFeed
      rw [translated, alone, splitLines_cons _ (by decide), ih]
      simp [isLineEnd, universalNewlines]
  | case3 char rest notPair noCarriage ih =>
      rw [universalNewlines_cons rest noCarriage, splitLines_cons _ noCarriage,
        splitLines_cons _ noCarriage, ih]
      cases isLineEnd char
      · cases splitLines rest with
        | nil => simp [universalNewlines_cons _ noCarriage, universalNewlines]
        | cons line lines => simp [universalNewlines_cons _ noCarriage]
      · simp [universalNewlines_cons _ noCarriage, universalNewlines]
  | case4 => simp [universalNewlines, splitLines]

theorem length_splitLines_universalNewlines (text : List Char) :
    (splitLines (universalNewlines text)).length = (splitLines text).length := by
  rw [splitLines_universalNewlines, List.length_map]

/-- Together the lines are the text. -/
theorem flatten_splitLines (text : List Char) : (splitLines text).flatten = text := by
  induction text using splitLines.induct with
  | case1 rest ih => simp [splitLines, ih]
  | case2 char rest notPair lineEnd ih => rw [splitLines, if_pos lineEnd]; simp [ih]; exact notPair
  | case3 char rest notPair lineEnd empty ih =>
      rw [splitLines, if_neg lineEnd, empty]
      · rw [empty] at ih
        simp [← ih]
      · exact notPair
  | case4 char rest notPair lineEnd line lines found ih =>
      rw [splitLines, if_neg lineEnd, found]
      · rw [found] at ih
        simp [← ih]
      · exact notPair
  | case5 => rfl

/-- No line is empty. -/
theorem ne_nil_of_mem_splitLines {text line : List Char} (member : line ∈ splitLines text) :
    line ≠ [] := by
  induction text using splitLines.induct generalizing line with
  | case1 rest ih =>
      rw [splitLines] at member
      rcases List.mem_cons.mp member with rfl | member
      · simp
      · exact ih member
  | case2 char rest notPair lineEnd ih =>
      rw [splitLines, if_pos lineEnd] at member
      · rcases List.mem_cons.mp member with rfl | member
        · simp
        · exact ih member
      · exact notPair
  | case3 char rest notPair lineEnd empty ih =>
      rw [splitLines, if_neg lineEnd, empty] at member
      · simp_all
      · exact notPair
  | case4 char rest notPair lineEnd first lines found ih =>
      rw [splitLines, if_neg lineEnd, found] at member
      · rcases List.mem_cons.mp member with rfl | member
        · simp
        · exact ih (found ▸ List.mem_cons_of_mem _ member)
      · exact notPair
  | case5 => cases member

theorem universalNewlines_ne_nil {text : List Char} (nonempty : text ≠ []) :
    universalNewlines text ≠ [] := by
  cases text using universalNewlines.fun_cases with
  | case4 => exact absurd rfl nonempty
  | _ => simp [universalNewlines, *]

/-- Some lines stay as they are under translation exactly when they have no carriage return. -/
theorem flatten_universalNewlines_eq_iff (lines : List (List Char)) :
    (lines.map universalNewlines).flatten = lines.flatten ↔ '\r' ∉ lines.flatten := by
  constructor
  · intro same
    rw [← same]
    intro member
    obtain ⟨translated, translatedMem, inside⟩ := List.mem_flatten.mp member
    obtain ⟨line, _, rfl⟩ := List.mem_map.mp translatedMem
    exact carriage_not_mem_universalNewlines line inside
  · intro absent
    have unchanged : ∀ line ∈ lines, universalNewlines line = id line := fun line member =>
      (universalNewlines_eq_self_iff line).mpr fun inside =>
        absent (List.mem_flatten.mpr ⟨line, member, inside⟩)
    rw [List.map_congr_left unchanged, List.map_id]

end TextLines

end MmAudit
