import MmAudit.Library.TextLines

/-!
# One line of a text

A line is a part without line ends and then its end, which only the last line may lack.  Where
a line is replaced by one with the same end, all others stay the lines that they were; where its
end goes away, the next line is joined to it.
-/

namespace MmAudit

namespace TextLines

/-- No line ends in the text. -/
def WithinLine (text : List Char) : Prop :=
  ∀ char ∈ text, isLineEnd char = false

instance (text : List Char) : Decidable (WithinLine text) :=
  List.decidableBAll (fun char => isLineEnd char = false) text

/-- What ends a line. -/
def IsTerminator (ending : List Char) : Prop :=
  ending = ['\r', '\n'] ∨ ∃ char, isLineEnd char = true ∧ ending = [char]

/-- No line feed follows an end that is a carriage return. -/
def NotJoined (ending rest : List Char) : Prop :=
  ending = ['\r'] → rest.head? ≠ some '\n'

theorem WithinLine.ne_carriage {char : Char} {text : List Char}
    (within : WithinLine (char :: text)) : char ≠ '\r' := by
  rintro rfl
  cases within '\r' List.mem_cons_self

theorem WithinLine.tail {char : Char} {text : List Char} (within : WithinLine (char :: text)) :
    WithinLine text :=
  fun other member => within other (List.mem_cons_of_mem _ member)

theorem WithinLine.append {first second : List Char} (within : WithinLine first)
    (within' : WithinLine second) : WithinLine (first ++ second) := by
  intro char member
  rcases List.mem_append.mp member with left | right
  · exact within char left
  · exact within' char right

/-- A part without line ends is joined to the line after it. -/
theorem splitLines_within_append {body rest line : List Char} {lines : List (List Char)}
    (within : WithinLine body) (split : splitLines rest = line :: lines) :
    splitLines (body ++ rest) = (body ++ line) :: lines := by
  induction body with
  | nil => exact split
  | cons char body ih =>
      have inside : isLineEnd char = false := within char List.mem_cons_self
      rw [List.cons_append, splitLines_cons _ within.ne_carriage, inside, ih within.tail]
      rfl

theorem splitLines_of_within {body : List Char} (within : WithinLine body)
    (some_ : body ≠ []) : splitLines body = [body] := by
  induction body with
  | nil => exact absurd rfl some_
  | cons char body ih =>
      have inside : isLineEnd char = false := within char List.mem_cons_self
      rw [splitLines_cons _ within.ne_carriage, inside]
      cases body with
      | nil => rfl
      | cons next body =>
          rw [ih within.tail (by simp)]
          rfl

theorem splitLines_terminator_append {ending rest : List Char} (terminator : IsTerminator ending)
    (apart : NotJoined ending rest) :
    splitLines (ending ++ rest) = ending :: splitLines rest := by
  rcases terminator with rfl | ⟨char, isEnd, rfl⟩
  · rw [List.cons_append, List.cons_append, List.nil_append, splitLines]
  · rw [List.cons_append, List.nil_append, splitLines, if_pos isEnd]
    rintro more rfl rfl
    exact apart rfl rfl

theorem splitLines_line_append {body ending rest : List Char} (within : WithinLine body)
    (terminator : IsTerminator ending) (apart : NotJoined ending rest) :
    splitLines (body ++ ending ++ rest) = (body ++ ending) :: splitLines rest := by
  rw [List.append_assoc]
  exact splitLines_within_append within (splitLines_terminator_append terminator apart)

/-! ## The parts of a line -/

/-- The first line of a text, with what follows it. -/
inductive FirstLine (line : List Char) (lines : List (List Char)) : Prop where
  | last (within : WithinLine line) (none_ : lines = [])
  | ended (body ending : List Char) (parts : line = body ++ ending) (within : WithinLine body)
      (terminator : IsTerminator ending) (apart : NotJoined ending lines.flatten)
      (rest : splitLines lines.flatten = lines)

theorem firstLine_of_splitLines {text line : List Char} {lines : List (List Char)}
    (split : splitLines text = line :: lines) : FirstLine line lines := by
  induction text using splitLines.induct generalizing line with
  | case1 rest ih =>
      rw [splitLines, List.cons.injEq] at split
      obtain ⟨rfl, rfl⟩ := split
      refine .ended [] ['\r', '\n'] rfl (by simp [WithinLine]) (.inl rfl) (by simp [NotJoined]) ?_
      rw [flatten_splitLines]
  | case2 char rest notPair isEnd ih =>
      rw [splitLines, if_pos isEnd, List.cons.injEq] at split
      on_goal 2 => exact notPair
      obtain ⟨rfl, rfl⟩ := split
      refine .ended [] [char] rfl (by simp [WithinLine]) (.inr ⟨char, isEnd, rfl⟩) ?_ ?_
      · rw [flatten_splitLines]
        intro same following
        obtain rfl : char = '\r' := by simpa using same
        cases rest with
        | nil => cases following
        | cons next rest =>
            obtain rfl : next = '\n' := by simpa using following
            exact notPair rest rfl rfl
      · rw [flatten_splitLines]
  | case3 char rest notPair inside empty ih =>
      rw [splitLines, if_neg inside, empty, List.cons.injEq] at split
      on_goal 2 => exact notPair
      obtain ⟨rfl, rfl⟩ := split
      exact .last (by simpa [WithinLine] using inside) rfl
  | case4 char rest notPair inside first more found ih =>
      rw [splitLines, if_neg inside, found] at split
      on_goal 2 => exact notPair
      obtain ⟨rfl, rfl⟩ := List.cons.inj split
      have notEnd : WithinLine [char] := by simpa [WithinLine] using inside
      cases ih found with
      | last within none_ => exact .last (notEnd.append within) none_
      | ended body ending parts within terminator apart rest =>
          exact .ended (char :: body) ending (by rw [parts]; rfl) (notEnd.append within)
            terminator apart rest
  | case5 => cases split

theorem IsTerminator.isLineEnd {ending : List Char} (terminator : IsTerminator ending)
    {char : Char} (member : char ∈ ending) : isLineEnd char = true := by
  rcases terminator with rfl | ⟨other, isEnd, rfl⟩
  · rcases List.mem_pair.mp member with rfl | rfl <;> rfl
  · rwa [List.mem_singleton.mp member]

/-- A character that ends no line stands before the end of its line. -/
theorem exists_of_terminated {start rest body ending : List Char} {char : Char}
    (inside : isLineEnd char = false) (terminator : IsTerminator ending)
    (parts : start ++ char :: rest = body ++ ending) :
    ∃ more, body = start ++ char :: more ∧ rest = more ++ ending := by
  have outside : char ∉ ending := by
    intro member
    rw [terminator.isLineEnd member] at inside
    cases inside
  rcases List.append_eq_append_iff.mp parts with ⟨more, bodyParts, restParts⟩ | ⟨more, -, endParts⟩
  · cases more with
    | nil =>
        rw [List.nil_append] at restParts
        exact absurd (restParts ▸ List.mem_cons_self : char ∈ ending) outside
    | cons other more =>
        obtain ⟨rfl, rfl⟩ := List.cons.inj restParts
        exact ⟨more, bodyParts, rfl⟩
  · exact absurd (endParts ▸ List.mem_append_right _ List.mem_cons_self : char ∈ ending) outside

/-- Nothing ends before a character that ends no line. -/
theorem FirstLine.within {start rest : List Char} {char : Char} {lines : List (List Char)}
    (first : FirstLine (start ++ char :: rest) lines) (inside : TextLines.isLineEnd char = false) :
    WithinLine start := by
  cases first with
  | last within none_ => exact fun other member => within other (List.mem_append_left _ member)
  | ended body ending parts within terminator apart others =>
      obtain ⟨more, rfl, rfl⟩ := exists_of_terminated inside terminator parts
      exact fun other member => within other (List.mem_append_left _ member)

/-- A character that ends no line may be replaced by some such characters. -/
theorem FirstLine.replaced {start rest : List Char} {char : Char} {lines : List (List Char)}
    (first : FirstLine (start ++ char :: rest) lines) (inside : TextLines.isLineEnd char = false)
    {new : List Char} (within : WithinLine new) : FirstLine (start ++ new ++ rest) lines := by
  have before := first.within inside
  cases first with
  | last within' none_ =>
      refine .last ((before.append within).append fun other member => ?_) none_
      exact within' other (List.mem_append_right _ (List.mem_cons_of_mem _ member))
  | ended body ending parts within' terminator apart others =>
      obtain ⟨more, rfl, rfl⟩ := exists_of_terminated inside terminator parts
      refine .ended (start ++ new ++ more) ending (List.append_assoc _ _ _).symm
        ((before.append within).append fun other member => ?_) terminator apart others
      exact within' other (List.mem_append_right _ (List.mem_cons_of_mem _ member))

/-- The lines after a place are those of the text after it. -/
theorem splitLines_of_split {text : List Char} {before after : List (List Char)}
    (split : splitLines text = before ++ after) : splitLines after.flatten = after := by
  induction before generalizing text with
  | nil =>
      have whole := flatten_splitLines text
      rw [split, List.nil_append] at whole
      rw [whole, split, List.nil_append]
  | cons line before ih =>
      cases firstLine_of_splitLines split with
      | last within none_ =>
          rw [(List.append_eq_nil_iff.mp none_).2]
          rfl
      | ended body ending parts within terminator apart others => exact ih others

theorem firstLine_of_split {text line : List Char} {before after : List (List Char)}
    (split : splitLines text = before ++ line :: after) : FirstLine line after :=
  firstLine_of_splitLines (splitLines_of_split split)

/-- The lines before a place stay as they are, whatever follows it. -/
theorem splitLines_append_of_split {text : List Char} {before after : List (List Char)}
    (split : splitLines text = before ++ after) (more : after ≠ []) {rest : List Char}
    (noFeed : rest.head? ≠ some '\n') :
    splitLines (before.flatten ++ rest) = before ++ splitLines rest := by
  induction before generalizing text with
  | nil => rfl
  | cons line before ih =>
      cases firstLine_of_splitLines split with
      | last within none_ =>
          exact absurd (List.append_eq_nil_iff.mp none_).2 more
      | ended body ending parts within terminator apart others =>
          have tail := ih others
          have apart' : NotJoined ending (before.flatten ++ rest) := by
            intro carriage
            have original := apart carriage
            cases before with
            | nil => exact noFeed
            | cons next before =>
                have listed : next ∈ splitLines (next :: before ++ after).flatten :=
                  others ▸ List.mem_cons_self
                have some_ := ne_nil_of_mem_splitLines listed
                obtain ⟨char, next, rfl⟩ := List.exists_cons_of_ne_nil some_
                exact original
          rw [List.flatten_cons, parts, List.append_assoc (body ++ ending),
            splitLines_line_append within terminator apart', tail]
          rfl

/-- A line that is replaced by one with the same end leaves all other lines. -/
theorem splitLines_replaced {text line : List Char} {before after : List (List Char)}
    (split : splitLines text = before ++ line :: after) {replaced : List Char}
    (first : FirstLine replaced after) (some_ : replaced ≠ [])
    (noFeed : replaced.head? ≠ some '\n') :
    splitLines (before ++ replaced :: after).flatten = before ++ replaced :: after := by
  have noFeed' : (replaced ++ after.flatten).head? ≠ some '\n' := by
    rwa [List.head?_append_of_ne_nil _ some_]
  rw [List.flatten_append, List.flatten_cons,
    splitLines_append_of_split split (List.cons_ne_nil _ _) noFeed']
  cases first with
  | last within none_ =>
      rw [none_, List.flatten_nil, List.append_nil, splitLines_of_within within some_]
  | ended body ending parts within terminator apart others =>
      rw [parts, splitLines_line_append within terminator apart, others]

/-- A line that loses its end is joined to the next one. -/
theorem length_splitLines_joined {text line : List Char} {before after : List (List Char)}
    (split : splitLines text = before ++ line :: after) (more : after ≠ []) {body : List Char}
    (within : WithinLine body) (noFeed : (body ++ after.flatten).head? ≠ some '\n') :
    (splitLines (before ++ body :: after).flatten).length + 1 =
      (before ++ line :: after).length := by
  have others : splitLines after.flatten = after := by
    rw [List.append_cons] at split
    exact splitLines_of_split split
  obtain ⟨next, later, rfl⟩ := List.exists_cons_of_ne_nil more
  rw [List.flatten_append, List.flatten_cons,
    splitLines_append_of_split split (List.cons_ne_nil _ _) noFeed,
    splitLines_within_append within others]
  simp only [List.length_append, List.length_cons]
  omega

end TextLines

end MmAudit
