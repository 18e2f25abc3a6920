import MmAudit.Library.MarkedLines
import MmAudit.Repository.Locations

/-!
# Excerpts as evidence for locations

`excerpt_proves_location` splits the text of an excerpt again and compares the hash of
the lines of a location with the hash that the location carries.  Consecutive lines of a
file are split into themselves again, so the excerpt proves exactly the hashes that the
file has.
-/

namespace MmAudit

namespace Context

open TextLines

namespace Syntax

variable {Digest : Type} (source : Syntax Digest)

/-- `line_range_hash` -/
def lineRangeHash (content : List Char) (startLine endLine : ℕ) : Digest :=
  source.hashText (selectLines (splitLines content) startLine endLine)

/-- `excerpt_proves_location` -/
def excerptProvesLocation [DecidableEq Digest] (excerpt : ContextExcerpt Digest)
    (location : Location Digest) : Bool :=
  if excerpt.path ≠ location.path ∨ location.startLine < excerpt.startLine ∨
      excerpt.endLine < location.endLine ∨
      source.hashText excerpt.content ≠ excerpt.contentHash then
    false
  else
    let relativeStart := location.startLine - excerpt.startLine
    let relativeEnd := location.endLine - excerpt.startLine + 1
    let lines := splitLines excerpt.content
    if lines.length < relativeEnd then
      false
    else
      let observedHash := source.hashText (lines.extract relativeStart relativeEnd).flatten
      decide (some observedHash = location.contentHash)

/-- Lines of a range that lies in a second range, counted from the start of the second one. -/
theorem extract_extract_lines {Line : Type} (lines : List Line) {start first last stop : ℕ}
    (positive : 1 ≤ start) (after : start ≤ first) (ordered : first ≤ last)
    (before : last ≤ stop) :
    (lines.extract (start - 1) stop).extract (first - start) (last - start + 1) =
      lines.extract (first - 1) last := by
  simp only [List.extract_eq_take_drop, List.drop_take, List.drop_drop, List.take_take]
  congr 1
  · omega
  · congr 1
    omega

/-- An excerpt of a file proves a location in the file exactly when the location lies in the
excerpt and in the file and has the hash of its lines. -/
theorem excerpt_proves_iff [DecidableEq Digest] (lower : List Char → List Char)
    (path content : List Char) (categories : List String) (maxChunkBytes : ℕ)
    (excerpt : ContextExcerpt Digest)
    (member : excerpt ∈
      (source.chunkText lower path content categories maxChunkBytes).excerpts)
    (location : Location Digest) (samePath : location.path = path) :
    source.excerptProvesLocation excerpt location = true ↔
      excerpt.startLine ≤ location.startLine ∧ location.endLine ≤ excerpt.endLine ∧
        location.endLine ≤ (splitLines content).length ∧
        location.contentHash =
          some (source.lineRangeHash content location.startLine location.endLine) := by
  obtain ⟨excerptPath, hashed, range⟩ :=
    source.chunkText_spec lower path content categories maxChunkBytes excerpt member
  have positive := location.positive
  have ordered := location.ordered
  unfold excerptProvesLocation
  by_cases within : excerpt.startLine ≤ location.startLine ∧ location.endLine ≤ excerpt.endLine
  · obtain ⟨after, before⟩ := within
    rw [if_neg (by
      rw [excerptPath, samePath, hashed]
      simp only [ne_eq, not_true_eq_false, false_or, or_false]
      omega)]
    dsimp only
    rcases range with ⟨noLines, empty, -, -⟩ | ⟨⟨startPositive, -, inText⟩, text⟩
    · -- Without lines there is nothing to prove.
      have noEnd : (splitLines content).length = 0 := by rw [noLines]; rfl
      rw [empty, if_pos (by rw [splitLines, List.length_nil]; omega), noEnd]
      constructor
      · exact fun impossible => (nomatch impossible)
      · rintro ⟨-, -, inText, -⟩
        omega
    · rw [text, selectLines, splitLines_extract,
        extract_extract_lines _ startPositive after ordered before]
      have length : ((splitLines content).extract (excerpt.startLine - 1) excerpt.endLine).length =
          excerpt.endLine - (excerpt.startLine - 1) := by
        simp only [List.extract_eq_take_drop, List.length_take, List.length_drop]
        dsimp only at inText
        omega
      dsimp only at inText startPositive
      rw [length, if_neg (by omega), decide_eq_true_eq]
      constructor
      · intro same
        exact ⟨after, before, before.trans inText, same.symm⟩
      · rintro ⟨-, -, -, same⟩
        exact same.symm
  · rw [if_pos (by
      refine Or.inr ?_
      rw [not_and_or, not_le, not_le] at within
      rcases within with early | late
      · exact Or.inl early
      · exact Or.inr (Or.inl late))]
    constructor
    · exact fun impossible => (nomatch impossible)
    · rintro ⟨after, before, -⟩
      exact absurd ⟨after, before⟩ within

/-! ## An excerpt of two lines -/

theorem secondLine_positive : 1 ≤ 2 := by
  decide

theorem secondLine_ordered : 2 ≤ 2 :=
  le_rfl

/-- The second line of two, with its hash. -/
def secondLine : Location (List UInt8) where
  path := "a.txt".toList
  startLine := 2
  endLine := 2
  symbol := none
  contentHash := some (encode "two".toList)
  positive := secondLine_positive
  ordered := secondLine_ordered

theorem excerpt_proves_sample :
    ∃ excerpt ∈ (plainSyntax.chunkText id "a.txt".toList "one\r\ntwo".toList [] 100).excerpts,
      plainSyntax.excerptProvesLocation excerpt secondLine = true := by
  let excerpt := plainSyntax.makeExcerpt "a.txt".toList (splitLines "one\r\ntwo".toList) 1 2 [] 2
  have member : excerpt ∈
      (plainSyntax.chunkText id "a.txt".toList "one\r\ntwo".toList [] 100).excerpts := by
    decide +kernel
  exact ⟨excerpt, member, (plainSyntax.excerpt_proves_iff id "a.txt".toList
    "one\r\ntwo".toList [] 100 excerpt member secondLine rfl).mpr (by decide +kernel)⟩

end Syntax

end Context

end MmAudit
