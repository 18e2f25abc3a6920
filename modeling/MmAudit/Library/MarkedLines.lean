import MmAudit.Library.TextLines
import Mathlib.Data.List.Forall2

/-!
# Lines of a marked text

A marked text is a list of glyphs, each of which shows a character.  It is split into lines
as its characters are.  The rules below follow the lines of a text when a part of it is
replaced: lines of which nothing is replaced stay as they are, and the others stay in
their places as long as the replacement breaks as often as what it replaces.
-/

namespace MmAudit

namespace TextLines

/-- A line ends after the character, given what follows it. -/
def breaksAfter (char : Char) (next : Option Char) : Bool :=
  isLineEnd char && !(char == '\r' && next == some '\n')

variable {Glyph : Type*}

/-- The glyph comes first in the first line. -/
def extendFirst (glyph : Glyph) : List (List Glyph) → List (List Glyph)
  | [] => [[glyph]]
  | line :: lines => (glyph :: line) :: lines

/-- The lines of a marked text. -/
def splitMarked (shown : Glyph → Char) : List Glyph → List (List Glyph)
  | [] => []
  | glyph :: rest =>
      if breaksAfter (shown glyph) (rest.head?.map shown) then [glyph] :: splitMarked shown rest
      else extendFirst glyph (splitMarked shown rest)

theorem map_extendFirst {Other : Type*} (view : Glyph → Other) (glyph : Glyph)
    (lines : List (List Glyph)) :
    (extendFirst glyph lines).map (List.map view) =
      extendFirst (view glyph) (lines.map (List.map view)) := by
  cases lines <;> rfl

/-- Splitting looks at the shown characters alone. -/
theorem map_splitMarked {Other : Type*} (shown : Other → Char) (view : Glyph → Other)
    (glyphs : List Glyph) :
    (splitMarked (shown ∘ view) glyphs).map (List.map view) =
      splitMarked shown (glyphs.map view) := by
  induction glyphs with
  | nil => rfl
  | cons glyph rest ih =>
      rw [List.map_cons, splitMarked, splitMarked, List.head?_map, Option.map_map]
      by_cases breaks : breaksAfter (shown (view glyph)) (rest.head?.map (shown ∘ view)) = true
      · rw [Function.comp_apply, if_pos breaks, if_pos breaks, List.map_cons, ih]
        rfl
      · rw [Function.comp_apply, if_neg breaks, if_neg breaks, map_extendFirst, ih]

/-- A plain text is split into its lines. -/
theorem splitMarked_id (text : List Char) : splitMarked id text = splitLines text := by
  induction text using splitLines.induct with
  | case1 rest ih =>
      have feed : splitMarked id ('\n' :: rest) = ['\n'] :: splitLines rest := by
        simp [splitMarked, breaksAfter, isLineEnd, ih]
      rw [splitMarked, feed]
      rfl
  | case2 char rest notPair lineEnd ih =>
      have breaks : breaksAfter char (rest.head?.map id) = true := by
        unfold breaksAfter
        rw [lineEnd, Bool.true_and, Bool.not_eq_true', Bool.and_eq_false_iff]
        by_cases carriage : char = '\r'
        · refine Or.inr ?_
          cases rest with
          | nil => rfl
          | cons next rest =>
              have different : next ≠ '\n' := fun same => notPair rest carriage (by rw [same])
              simpa using different
        · exact Or.inl (by simpa using carriage)
      rw [splitMarked, id, if_pos breaks, splitLines, if_pos lineEnd, ih]
      exact notPair
  | case3 char rest notPair lineEnd empty ih =>
      rw [splitMarked, if_neg (by simp [breaksAfter, lineEnd]), ih, splitLines, if_neg lineEnd,
        empty]
      · rfl
      · exact notPair
  | case4 char rest notPair lineEnd line lines found ih =>
      rw [splitMarked, if_neg (by simp [breaksAfter, lineEnd]), ih, splitLines, if_neg lineEnd,
        found]
      · rfl
      · exact notPair
  | case5 => rfl

theorem flatten_extendFirst (glyph : Glyph) (lines : List (List Glyph)) :
    (extendFirst glyph lines).flatten = glyph :: lines.flatten := by
  cases lines <;> rfl

theorem flatten_splitMarked (shown : Glyph → Char) (glyphs : List Glyph) :
    (splitMarked shown glyphs).flatten = glyphs := by
  induction glyphs with
  | nil => rfl
  | cons glyph rest ih =>
      rw [splitMarked]
      split
      · rw [List.flatten_cons, ih, List.singleton_append]
      · rw [flatten_extendFirst, ih]

theorem splitMarked_eq_nil_iff (shown : Glyph → Char) (glyphs : List Glyph) :
    splitMarked shown glyphs = [] ↔ glyphs = [] := by
  constructor
  · intro empty
    rw [← flatten_splitMarked shown glyphs, empty]
    rfl
  · rintro rfl
    rfl

/-! ## Some of the lines -/

/-- Where nothing follows a line end, the line ends after it. -/
theorem breaksAfter_none {char : Char} {next : Option Char}
    (breaks : breaksAfter char next = true) : breaksAfter char none = true := by
  rw [breaksAfter, Bool.and_eq_true] at breaks
  rw [breaksAfter, breaks.1]
  simp

/-- The lines after the first are the lines of the text after the first. -/
theorem splitMarked_tail {shown : Glyph → Char} {glyphs line : List Glyph}
    {lines : List (List Glyph)} (split : splitMarked shown glyphs = line :: lines) :
    splitMarked shown lines.flatten = lines := by
  induction glyphs generalizing line with
  | nil => cases split
  | cons glyph rest ih =>
      rw [splitMarked] at split
      split at split
      · cases split
        rw [flatten_splitMarked]
      · cases below : splitMarked shown rest with
        | nil =>
            rw [below] at split
            cases split
            rfl
        | cons first others =>
            rw [below] at split
            cases split
            exact ih below

theorem splitMarked_drop (shown : Glyph → Char) (glyphs : List Glyph) (number : ℕ) :
    splitMarked shown ((splitMarked shown glyphs).drop number).flatten =
      (splitMarked shown glyphs).drop number := by
  induction number generalizing glyphs with
  | zero => rw [List.drop_zero, flatten_splitMarked]
  | succ number ih =>
      cases split : splitMarked shown glyphs with
      | nil => rfl
      | cons line lines =>
          have later := ih lines.flatten
          rwa [splitMarked_tail split] at later

/-- The first lines begin as the text does. -/
theorem head?_flatten_take (shown : Glyph → Char) (glyphs : List Glyph) (number : ℕ) :
    ((splitMarked shown glyphs).take (number + 1)).flatten.head? = glyphs.head? := by
  cases glyphs with
  | nil => rfl
  | cons glyph rest =>
      rw [splitMarked]
      split
      · rfl
      · cases splitMarked shown rest <;> rfl

theorem splitMarked_take (shown : Glyph → Char) (glyphs : List Glyph) (number : ℕ) :
    splitMarked shown ((splitMarked shown glyphs).take number).flatten =
      (splitMarked shown glyphs).take number := by
  induction glyphs generalizing number with
  | nil => rw [splitMarked, List.take_nil]; rfl
  | cons glyph rest ih =>
      cases number with
      | zero => rfl
      | succ number =>
          rw [splitMarked]
          by_cases breaks : breaksAfter (shown glyph) (rest.head?.map shown) = true
          · have sameBreak : breaksAfter (shown glyph)
                (((splitMarked shown rest).take number).flatten.head?.map shown) = true := by
              cases number with
              | zero => exact breaksAfter_none breaks
              | succ number => rwa [head?_flatten_take]
            rw [if_pos breaks, List.take_succ_cons, List.flatten_cons, List.singleton_append,
              splitMarked, if_pos sameBreak, ih]
          · have extended : (extendFirst glyph (splitMarked shown rest)).take (number + 1) =
                extendFirst glyph ((splitMarked shown rest).take (number + 1)) := by
              cases splitMarked shown rest <;> simp [extendFirst]
            rw [if_neg breaks, extended, flatten_extendFirst, splitMarked, head?_flatten_take,
              if_neg breaks, ih]

/-- Consecutive lines of a text are the lines of what they are together. -/
theorem splitLines_extract (text : List Char) (start stop : ℕ) :
    splitLines ((splitLines text).extract start stop).flatten =
      (splitLines text).extract start stop := by
  have dropped := splitMarked_drop id text start
  have taken := splitMarked_take id ((splitMarked id text).drop start).flatten (stop - start)
  rw [dropped] at taken
  simpa only [splitMarked_id, List.extract_eq_take_drop] using taken

/-! ## A common beginning -/

/-- The lines are the same, or both have a marked glyph. -/
def Alike (marked : Glyph → Bool) (line other : List Glyph) : Prop :=
  line = other ∨ line.any marked = true ∧ other.any marked = true

theorem Alike.extend {marked : Glyph → Bool} {line other : List Glyph}
    (alike : Alike marked line other) (glyph : Glyph) :
    Alike marked (glyph :: line) (glyph :: other) := by
  rcases alike with rfl | ⟨here, there⟩
  · exact Or.inl rfl
  · exact Or.inr ⟨by rw [List.any_cons, here, Bool.or_true],
      by rw [List.any_cons, there, Bool.or_true]⟩

variable {shown : Glyph → Char}

/-- The two texts begin alike, as far as a line break before them is concerned. -/
def SameHead (shown : Glyph → Char) (first second : List Glyph) : Prop :=
  ∀ char, breaksAfter char (first.head?.map shown) = breaksAfter char (second.head?.map shown)

theorem SameHead.append_left {first second : List Glyph} (same : SameHead shown first second)
    (start : List Glyph) : SameHead shown (start ++ first) (start ++ second) := by
  cases start with
  | nil => exact same
  | cons glyph start => exact fun _ => rfl

/-- Lines that are alike after a common beginning are alike with it. -/
theorem alike_append_left {marked : Glyph → Bool} {first second : List Glyph}
    (same : SameHead shown first second)
    (alike : List.Forall₂ (Alike marked) (splitMarked shown first) (splitMarked shown second))
    (start : List Glyph) :
    List.Forall₂ (Alike marked) (splitMarked shown (start ++ first))
      (splitMarked shown (start ++ second)) := by
  induction start with
  | nil => exact alike
  | cons glyph start ih =>
      rw [List.cons_append, List.cons_append, splitMarked, splitMarked,
        (same.append_left start) (shown glyph)]
      split
      · exact .cons (Or.inl rfl) ih
      · revert ih
        generalize splitMarked shown (start ++ first) = lines
        generalize splitMarked shown (start ++ second) = others
        rintro (_ | ⟨here, rest⟩)
        · exact .cons (Or.inl rfl) .nil
        · exact .cons (here.extend glyph) rest

/-- A common beginning keeps the difference of the numbers of lines. -/
theorem length_append_left {first second : List Glyph} {difference : ℕ}
    (same : SameHead shown first second) (empty : first = [] ↔ second = [])
    (count : (splitMarked shown first).length = (splitMarked shown second).length + difference)
    (start : List Glyph) :
    (splitMarked shown (start ++ first)).length =
      (splitMarked shown (start ++ second)).length + difference := by
  induction start with
  | nil => exact count
  | cons glyph start ih =>
      have emptyAfter : splitMarked shown (start ++ first) = [] ↔
          splitMarked shown (start ++ second) = [] := by
        rw [splitMarked_eq_nil_iff, splitMarked_eq_nil_iff, List.append_eq_nil_iff,
          List.append_eq_nil_iff, empty]
      rw [List.cons_append, List.cons_append, splitMarked, splitMarked,
        (same.append_left start) (shown glyph)]
      split
      · rw [List.length_cons, List.length_cons, ih]
        omega
      · revert ih emptyAfter
        generalize splitMarked shown (start ++ first) = lines
        generalize splitMarked shown (start ++ second) = others
        intro ih emptyAfter
        cases lines with
        | nil =>
            rw [emptyAfter.mp rfl] at ih ⊢
            simpa [extendFirst, eq_comm] using ih
        | cons line lines =>
            cases others with
            | nil => exact absurd (emptyAfter.mpr rfl) (by simp)
            | cons other others => simpa [extendFirst] using ih

/-! ## A replaced part -/

/-- The glyphs come first in the first line. -/
def joinFirst (glyphs : List Glyph) (lines : List (List Glyph)) : List (List Glyph) :=
  glyphs.foldr extendFirst lines

theorem joinFirst_nil {glyphs : List Glyph} (some_ : glyphs ≠ []) :
    joinFirst glyphs [] = [glyphs] := by
  induction glyphs with
  | nil => exact absurd rfl some_
  | cons glyph glyphs ih =>
      cases glyphs with
      | nil => rfl
      | cons next glyphs =>
          change extendFirst glyph (joinFirst (next :: glyphs) []) = _
          rw [ih (by simp)]
          rfl

theorem joinFirst_cons (glyphs line : List Glyph) (lines : List (List Glyph)) :
    joinFirst glyphs (line :: lines) = (glyphs ++ line) :: lines := by
  induction glyphs with
  | nil => rfl
  | cons glyph glyphs ih =>
      change extendFirst glyph (joinFirst glyphs (line :: lines)) = _
      rw [ih]
      rfl

theorem length_joinFirst {glyphs : List Glyph} (some_ : glyphs ≠ []) (lines : List (List Glyph)) :
    (joinFirst glyphs lines).length = max 1 lines.length := by
  cases lines with
  | nil =>
      rw [joinFirst_nil some_]
      rfl
  | cons line lines =>
      rw [joinFirst_cons, List.length_cons, List.length_cons]
      omega

/-- A part that ends inside a line has some whole lines, and the beginning of the line in which
the text goes on. -/
structure InnerLines (shown : Glyph → Char) (part : List Glyph) (whole : List (List Glyph))
    (last : List Glyph) : Prop where
  some_ : last ≠ []
  nonempty : ∀ line ∈ whole, line ≠ []
  glyphs : whole.flatten ++ last = part
  split : ∀ rest, splitMarked shown (part ++ rest) = whole ++ joinFirst last (splitMarked shown rest)

theorem exists_innerLines (part : List Glyph)
    (inside : ∃ glyph, part.getLast? = some glyph ∧ isLineEnd (shown glyph) = false) :
    ∃ whole last, InnerLines shown part whole last := by
  obtain ⟨final, isLast, noEnd⟩ := inside
  induction part with
  | nil => cases isLast
  | cons glyph part ih =>
      cases part with
      | nil =>
          obtain rfl : glyph = final := Option.some.inj isLast
          refine ⟨[], [glyph], by simp, by simp, rfl, fun rest => ?_⟩
          rw [List.singleton_append, splitMarked, if_neg (by simp [breaksAfter, noEnd])]
          rfl
      | cons next part =>
          obtain ⟨whole, last, inner⟩ := ih (by rwa [List.getLast?_cons_cons] at isLast)
          have splitNext : ∀ rest, splitMarked shown (glyph :: next :: part ++ rest) =
              if breaksAfter (shown glyph) (some (shown next)) then
                [glyph] :: (whole ++ joinFirst last (splitMarked shown rest))
              else extendFirst glyph (whole ++ joinFirst last (splitMarked shown rest)) := by
            intro rest
            rw [← inner.split]
            rfl
          by_cases breaks : breaksAfter (shown glyph) (some (shown next)) = true
          · refine ⟨[glyph] :: whole, last, inner.some_, ?_, ?_, fun rest => ?_⟩
            · intro line member
              rcases List.mem_cons.mp member with rfl | later
              · simp
              · exact inner.nonempty line later
            · rw [List.flatten_cons, List.append_assoc, inner.glyphs]
              rfl
            · rw [splitNext, if_pos breaks]
              rfl
          · cases whole with
            | nil =>
                refine ⟨[], glyph :: last, by simp, by simp, ?_, fun rest => ?_⟩
                · have glyphs := inner.glyphs
                  rw [List.flatten_nil, List.nil_append] at glyphs
                  rw [List.flatten_nil, List.nil_append, glyphs]
                · rw [splitNext, if_neg breaks]
                  rfl
            | cons line whole =>
                refine ⟨(glyph :: line) :: whole, last, inner.some_, ?_, ?_, fun rest => ?_⟩
                · intro other member
                  rcases List.mem_cons.mp member with rfl | later
                  · simp
                  · exact inner.nonempty other (List.mem_cons_of_mem _ later)
                · have glyphs := inner.glyphs
                  rw [List.flatten_cons] at glyphs ⊢
                  rw [← glyphs]
                  simp
                · rw [splitNext, if_neg breaks]
                  rfl

namespace InnerLines

variable {part : List Glyph} {whole : List (List Glyph)} {last : List Glyph}

theorem ne_nil (inner : InnerLines shown part whole last) : part ≠ [] := by
  rw [← inner.glyphs]
  simp [inner.some_]

theorem length_splitMarked (inner : InnerLines shown part whole last) (rest : List Glyph) :
    (splitMarked shown (part ++ rest)).length =
      whole.length + max 1 (splitMarked shown rest).length := by
  rw [inner.split, List.length_append, length_joinFirst inner.some_]

theorem length_whole (inner : InnerLines shown part whole last) :
    (splitMarked shown part).length = whole.length + 1 := by
  have alone := inner.length_splitMarked []
  rwa [List.append_nil] at alone

end InnerLines

/-- A marked part is replaced by a marked part with as many lines; the lines stay alike. -/
theorem alike_replaced {marked : Glyph → Bool} {part replaced first second : List Glyph}
    {whole otherWhole : List (List Glyph)} {last otherLast : List Glyph}
    (inner : InnerLines shown part whole last)
    (otherInner : InnerLines shown replaced otherWhole otherLast)
    (isMarked : ∀ glyph ∈ part, marked glyph = true)
    (otherMarked : ∀ glyph ∈ replaced, marked glyph = true)
    (sameLength : whole.length = otherWhole.length)
    (alike : List.Forall₂ (Alike marked) (splitMarked shown first) (splitMarked shown second)) :
    List.Forall₂ (Alike marked) (splitMarked shown (part ++ first))
      (splitMarked shown (replaced ++ second)) := by
  have anyMarked : ∀ {line glyphs : List Glyph}, line ≠ [] → line ⊆ glyphs →
      (∀ glyph ∈ glyphs, marked glyph = true) → line.any marked = true := by
    intro line glyphs some_ within all
    obtain ⟨glyph, member⟩ := List.exists_mem_of_ne_nil line some_
    exact List.any_eq_true.mpr ⟨glyph, member, all glyph (within member)⟩
  have lastMarked : last.any marked = true := anyMarked inner.some_
    (by rw [← inner.glyphs]; exact List.subset_append_right _ _) isMarked
  have otherLastMarked : otherLast.any marked = true := anyMarked otherInner.some_
    (by rw [← otherInner.glyphs]; exact List.subset_append_right _ _) otherMarked
  rw [inner.split, otherInner.split]
  refine List.rel_append ?_ ?_
  · refine List.forall₂_iff_zip.mpr ⟨sameLength, fun {line other} paired => Or.inr ?_⟩
    obtain ⟨member, otherMember⟩ := List.of_mem_zip paired
    constructor
    · refine anyMarked (inner.nonempty line member) (fun glyph inLine => ?_) isMarked
      rw [← inner.glyphs]
      exact List.mem_append_left _ (List.mem_flatten_of_mem member inLine)
    · refine anyMarked (otherInner.nonempty other otherMember) (fun glyph inLine => ?_) otherMarked
      rw [← otherInner.glyphs]
      exact List.mem_append_left _ (List.mem_flatten_of_mem otherMember inLine)
  · revert alike
    generalize splitMarked shown first = lines
    generalize splitMarked shown second = others
    rintro (_ | ⟨-, rest⟩)
    · rw [joinFirst_nil inner.some_, joinFirst_nil otherInner.some_]
      exact .cons (Or.inr ⟨lastMarked, otherLastMarked⟩) .nil
    · rw [joinFirst_cons, joinFirst_cons]
      refine .cons (Or.inr ?_) rest
      rw [List.any_append, List.any_append, lastMarked, otherLastMarked]
      exact ⟨rfl, rfl⟩

end TextLines

end MmAudit
