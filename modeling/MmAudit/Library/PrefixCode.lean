import Mathlib.Data.List.Basic
import Mathlib.Data.Nat.Notation

/-!
# Prefix codes

A prefix code writes values as lists of numbers so that no code word begins
another one.  Code words can be written one after the other and still be read
back in one way, so codes of the parts of a record combine to a code of the
record, and every code is injective.
-/

namespace MmAudit

/-- An encoding whose words can be followed by anything. -/
structure PrefixCode (Value : Type) where
  encode : Value → List ℕ
  split : ∀ {first second : Value} {rest others : List ℕ},
    encode first ++ rest = encode second ++ others → first = second ∧ rest = others

namespace PrefixCode

variable {Value Other : Type}

theorem encode_injective (code : PrefixCode Value) : Function.Injective code.encode := by
  intro first second same
  exact (@PrefixCode.split _ code first second [] [] (by rw [same])).1

/-- One number is its own code word. -/
def nat : PrefixCode ℕ where
  encode number := [number]
  split same := by simpa using same

/-- The code of a value that is determined by another one. -/
def comap (code : PrefixCode Value) (view : Other → Value) (injective : Function.Injective view) :
    PrefixCode Other where
  encode value := code.encode (view value)
  split same := (code.split same).imp_left fun sameView => injective sameView

/-- One code word after the other. -/
def pair (code : PrefixCode Value) (other : PrefixCode Other) : PrefixCode (Value × Other) where
  encode value := code.encode value.1 ++ other.encode value.2
  split same := by
    rw [List.append_assoc, List.append_assoc] at same
    obtain ⟨firstSame, restSame⟩ := code.split same
    obtain ⟨secondSame, tailSame⟩ := other.split restSame
    exact ⟨Prod.ext firstSame secondSame, tailSame⟩

/-- A flag before a value that may be absent. -/
def option (code : PrefixCode Value) : PrefixCode (Option Value) where
  encode
    | none => [0]
    | some value => 1 :: code.encode value
  split {first second rest others} same := by
    cases first with
    | none =>
        cases second with
        | none => simpa using same
        | some value => simp at same
    | some value =>
        cases second with
        | none => simp at same
        | some other =>
            obtain ⟨valueSame, restSame⟩ := code.split (List.cons.inj same).2
            exact ⟨congrArg some valueSame, restSame⟩

/-- Lists of one length are read back entry by entry. -/
theorem split_flatMap (code : PrefixCode Value) {first second : List Value}
    {rest others : List ℕ} (sameLength : first.length = second.length)
    (same : first.flatMap code.encode ++ rest = second.flatMap code.encode ++ others) :
    first = second ∧ rest = others := by
  induction first generalizing second with
  | nil =>
      obtain rfl := List.length_eq_zero_iff.mp sameLength.symm
      exact ⟨rfl, same⟩
  | cons value values ih =>
      cases second with
      | nil => cases sameLength
      | cons other more =>
          rw [List.flatMap_cons, List.flatMap_cons, List.append_assoc, List.append_assoc] at same
          obtain ⟨headSame, tailSame⟩ := code.split same
          obtain ⟨restSame, endSame⟩ := ih (by simpa using sameLength) tailSame
          exact ⟨by rw [headSame, restSame], endSame⟩

/-- The number of entries before the entries. -/
def list (code : PrefixCode Value) : PrefixCode (List Value) where
  encode values := values.length :: values.flatMap code.encode
  split same := by
    obtain ⟨sameLength, sameRest⟩ := List.cons.inj same
    exact code.split_flatMap sameLength sameRest

/-- The code of a word. -/
def word : PrefixCode (List ℕ) :=
  list nat

/-- The code of a text by its characters. -/
def text : PrefixCode String :=
  word.comap (fun value => value.toList.map Char.toNat) fun _ _ same =>
    String.toList_injective
      (List.map_injective_iff.mpr (fun _ _ same => Char.toNat_inj.mp same) same)

end PrefixCode

end MmAudit
