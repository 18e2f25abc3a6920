import MmAudit.Benchmark.Mutations

/-!
# When a mutation is reversible

A mutation inside its line keeps the end of the line, and so the lines around it.  A removal
keeps a carriage return or a line feed, but a line that ends in another separator loses it and
is joined to the next line, which only the last line does not have.
-/

namespace MmAudit

namespace Benchmark

namespace Mutations

open Fallible TextLines TextSearch

/-! ## Lines and their endings -/

/-- A text without carriage returns and line feeds. -/
def Plain (text : List Char) : Prop :=
  '\n' ∉ text ∧ '\r' ∉ text

/-- The line endings that are put back. -/
def lineEndings : List (List Char) :=
  [['\r', '\n'], ['\n'], ['\r'], []]

theorem splitLineEnding_append {body ending : List Char} (plain : Plain body)
    (listed : ending ∈ lineEndings) : splitLineEnding (body ++ ending) = (body, ending) := by
  obtain ⟨noFeed, noCarriage⟩ := plain
  simp only [lineEndings, List.mem_cons, List.not_mem_nil, or_false] at listed
  rcases listed with rfl | rfl | rfl | rfl
  · rw [splitLineEnding, if_pos (by simp)]
    simp
  · have notPair : ¬['\r', '\n'].isSuffixOf (body ++ ['\n']) = true := by
      rw [List.isSuffixOf_iff_suffix, List.suffix_concat_iff]
      rintro (empty | ⟨start, parts, suffix⟩)
      · cases empty
      · obtain rfl : start = ['\r'] := (List.append_inj_left' parts rfl).symm
        exact noCarriage (suffix.subset List.mem_cons_self)
    rw [splitLineEnding, if_neg notPair]
    simp
  · have notPair : ¬['\r', '\n'].isSuffixOf (body ++ ['\r']) = true := by
      rw [List.isSuffixOf_iff_suffix, List.suffix_concat_iff]
      rintro (empty | ⟨start, parts, -⟩)
      · cases empty
      · have last := congrArg List.getLast? parts
        rw [List.getLast?_concat] at last
        exact absurd last (by decide)
    rw [splitLineEnding, if_neg notPair]
    simp
  · have notPair : ¬['\r', '\n'].isSuffixOf body = true := by
      rw [List.isSuffixOf_iff_suffix]
      exact fun suffix => noCarriage (suffix.subset List.mem_cons_self)
    rw [List.append_nil, splitLineEnding, if_neg notPair,
      if_neg fun last => noFeed (List.mem_of_getLast? last),
      if_neg fun last => noCarriage (List.mem_of_getLast? last)]

/-- A line is its body and its ending. -/
theorem splitLineEnding_spec (line : List Char) :
    line = (splitLineEnding line).1 ++ (splitLineEnding line).2 ∧
      (splitLineEnding line).2 ∈ lineEndings := by
  unfold splitLineEnding
  split
  case isTrue pair =>
      obtain ⟨start, rfl⟩ := List.isSuffixOf_iff_suffix.mp pair
      simp [lineEndings]
  split
  case isTrue feed =>
      exact ⟨(List.dropLast_append_getLast? _ feed).symm, by simp [lineEndings]⟩
  split
  case isTrue carriage =>
      exact ⟨(List.dropLast_append_getLast? _ carriage).symm, by simp [lineEndings]⟩
  exact ⟨(List.append_nil line).symm, by simp [lineEndings]⟩

/-! ## The line in the place of the current one -/

/-- What a replacement is, and how it relates to the body. -/
inductive Replaces (kind : MutationKind) (body replacement : List Char) : Prop where
  | inside (start rest new : List Char) (char : Char) (operation : kind.isRemoval = false)
      (parts : body = start ++ char :: rest) (result : replacement = start ++ new ++ rest)
      (inside : isLineEnd char = false) (within : WithinLine new) (some_ : new ≠ [])
      (differs : new ≠ [char])
  | removal (indentation rest : List Char) (char shown : Char) (removes : kind.isRemoval = true)
      (parts : body = indentation ++ char :: rest)
      (result : replacement = indentation ++ removalNote kind)
      (inside : isSpace char = false) (member : shown ∈ body) (visible : isSpace shown = false)
      (absent : shown ∉ removalNote kind) (spaces : ∀ other ∈ indentation, isSpace other = true)

theorem isSpace_of_isLineEnd {char : Char} (isEnd : isLineEnd char = true) :
    isSpace char = true := by
  have listed := List.contains_iff_mem.mp isEnd
  clear isEnd
  revert char
  rw [← List.all_eq_true]
  rfl

theorem not_isLineEnd_of_visible {char : Char} (visible : isSpace char = false) :
    isLineEnd char = false := by
  by_contra isEnd
  rw [isSpace_of_isLineEnd (Bool.of_not_eq_false isEnd)] at visible
  cases visible

theorem within_removalNote (kind : MutationKind) : WithinLine (removalNote kind) := by
  cases kind <;> decide

theorem plain_of_within {text : List Char} (within : WithinLine text) : Plain text :=
  ⟨fun member => absurd (within _ member) (by decide),
    fun member => absurd (within _ member) (by decide)⟩

theorem ne_nil_removalNote (kind : MutationKind) : removalNote kind ≠ [] := by
  cases kind <;> decide

variable {isWord : Char → Bool} {spec : SourceMutationSpec}

/-- What the validators leave of a specification. -/
theorem shape_of_validate (valid : spec.validate isWord = .ok ()) :
    Plain spec.expectedLine ∧ mutationShapeMatchesKind isWord spec = .ok () := by
  unfold SourceMutationSpec.validate at valid
  simp only [raiseIf_bind_eq_ok_iff] at valid
  obtain ⟨-, -, plain, shape⟩ := valid
  exact ⟨not_or.mp plain, shape⟩

theorem positive_of_validate (valid : spec.validate isWord = .ok ()) : 1 ≤ spec.line := by
  unfold SourceMutationSpec.validate at valid
  rw [raiseIf_bind_eq_ok_iff, not_not] at valid
  exact valid.1.1

/-- A removed line shows a character that its note does not. -/
theorem exists_shown (valid : spec.validate isWord = .ok ())
    (removes : spec.kind.isRemoval = true) :
    ∃ shown ∈ spec.expectedLine, isSpace shown = false ∧ shown ∉ removalNote spec.kind := by
  obtain ⟨-, shape⟩ := shape_of_validate valid
  have ofRequire : requiresSomething isWord (strip spec.expectedLine) = true →
      'q' ∈ spec.expectedLine := fun found =>
    strip_subset _ (subset_of_search_call found (by decide))
  unfold mutationShapeMatchesKind at shape
  dsimp only at shape
  split at shape
  case h_1 kind _ _ =>
      rw [raiseIf_eq_ok_iff] at shape
      rw [kind]
      exact ⟨'q', ofRequire (by simp_all), by decide, by decide⟩
  case h_2 kind _ _ =>
      rw [raiseIf_eq_ok_iff] at shape
      rw [kind]
      have last : (strip spec.expectedLine).getLast? = some ';' := by
        by_contra other
        exact shape (.inl other)
      exact ⟨';', strip_subset _ (List.mem_of_getLast? last), by decide, by decide⟩
  case h_3 kind _ _ =>
      rw [raiseIf_eq_ok_iff] at shape
      rw [kind]
      exact ⟨'q', ofRequire (by simp_all), by decide, by decide⟩
  case h_4 kind _ _ =>
      rw [kind] at removes
      cases removes
  case h_5 kind _ _ =>
      rw [kind] at removes
      cases removes
  case h_6 =>
      rw [if_pos removes] at shape
      cases shape

/-- The operators of a valid specification. -/
theorem exists_operators (valid : spec.validate isWord = .ok ())
    (operation : spec.kind.isRemoval = false) :
    ∃ original replacement char, spec.originalOperator = some original ∧
      spec.replacementOperator = some replacement ∧ original.text = [char] ∧
      isLineEnd char = false ∧ replacement.text ≠ [char] := by
  obtain ⟨-, shape⟩ := shape_of_validate valid
  unfold mutationShapeMatchesKind at shape
  dsimp only at shape
  split at shape
  case h_4 original replacement _ hasOriginal hasReplacement =>
      rw [raiseIf_eq_ok_iff, not_or] at shape
      have pair := not_not.mp shape.1
      refine ⟨original, replacement, ?_⟩
      cases original <;> cases pair <;>
        exact ⟨_, hasOriginal, hasReplacement, rfl, by decide, by decide⟩
  case h_5 original replacement _ hasOriginal hasReplacement =>
      rw [raiseIf_eq_ok_iff, not_or] at shape
      have pair := not_not.mp shape.1
      refine ⟨original, replacement, ?_⟩
      simp only [allowedPairs, List.mem_cons, Prod.mk.injEq, List.not_mem_nil, or_false] at pair
      rcases pair with ⟨rfl, rfl⟩ | ⟨rfl, rfl⟩ | ⟨rfl, rfl⟩ | ⟨rfl, rfl⟩ <;>
        exact ⟨_, hasOriginal, hasReplacement, rfl, by decide, by decide⟩
  case h_6 =>
      rw [operation] at shape
      cases shape
  all_goals
    rename_i kind _ _
    rw [kind] at operation
    cases operation

/-- What `replacementFor` gives for a valid specification. -/
theorem replaces_of_replacementFor (valid : spec.validate isWord = .ok ()) {replacement : List Char}
    (result : replacementFor spec spec.expectedLine = .ok replacement) :
    Replaces spec.kind spec.expectedLine replacement := by
  unfold replacementFor at result
  cases removes : spec.kind.isRemoval with
  | true =>
      obtain ⟨shown, member, visible, absent⟩ := exists_shown valid removes
      rw [removes, if_pos rfl, Except.ok.injEq] at result
      have indentation : spec.expectedLine.take (spec.expectedLine.length -
          (lstrip spec.expectedLine).length) = spec.expectedLine.takeWhile isSpace := by
        have parts := List.takeWhile_append_dropWhile (p := isSpace) (l := spec.expectedLine)
        have lengths := congrArg List.length parts
        rw [List.length_append] at lengths
        rw [lstrip, ← lengths, Nat.add_sub_cancel]
        exact (List.prefix_iff_eq_take.mp (List.takeWhile_prefix isSpace)).symm
      rw [indentation] at result
      cases stripped : lstrip spec.expectedLine with
      | nil =>
          have space := List.dropWhile_eq_nil_iff.mp stripped shown member
          rw [visible] at space
          cases space
      | cons char rest =>
          refine .removal (spec.expectedLine.takeWhile isSpace) rest char shown removes ?_
            result.symm (not_isSpace_of_mem_lstrip_head stripped) member visible absent ?_
          · rw [← stripped]
            exact List.takeWhile_append_dropWhile.symm
          · exact fun other listed => List.mem_takeWhile_imp listed
  | false =>
      obtain ⟨original, new, char, hasOriginal, hasNew, text, inside, differs⟩ :=
        exists_operators valid removes
      rw [removes, if_neg Bool.false_ne_true, hasOriginal, hasNew] at result
      dsimp only at result
      rw [raiseIf_bind_eq_ok_iff, not_not, text, count_singleton] at result
      obtain ⟨once, result⟩ := result
      have member : char ∈ spec.expectedLine := List.count_pos_iff.mp (by omega)
      obtain ⟨start, rest, parts, absent⟩ := List.eq_append_cons_of_mem member
      rw [parts, replaceFirst_singleton _ absent] at result
      cases result
      refine .inside start rest new.text char removes parts rfl inside ?_ ?_ differs
      · cases new <;> decide
      · cases new <;> decide

section Replaced

variable {kind : MutationKind} {body replacement : List Char}

theorem Replaces.differs (replaces : Replaces kind body replacement) : replacement ≠ body := by
  cases replaces with
  | inside start rest new char operation parts result inside within some_ differs =>
      rw [parts, result, List.append_assoc]
      intro same
      have tail : new ++ rest = [char] ++ rest := List.append_cancel_left same
      exact differs (List.append_cancel_right tail)
  | removal indentation rest char shown removes parts result inside member visible absent spaces =>
      rintro rfl
      rw [result] at member
      rcases List.mem_append.mp member with left | right
      · rw [spaces shown left] at visible
        cases visible
      · exact absent right

theorem Replaces.plain (replaces : Replaces kind body replacement) (plain : Plain body) :
    Plain replacement := by
  cases replaces with
  | inside start rest new char operation parts result inside within some_ differs =>
      have new := plain_of_within within
      rw [parts] at plain
      rw [result]
      simp_all [Plain]
  | removal indentation rest char shown removes parts result inside member visible absent spaces =>
      have note := plain_of_within (within_removalNote kind)
      rw [parts] at plain
      rw [result]
      simp_all [Plain]

theorem Replaces.ne_nil (replaces : Replaces kind body replacement) : replacement ≠ [] := by
  cases replaces with
  | inside start rest new char operation parts result inside within some_ differs =>
      rw [result]
      simp [some_]
  | removal indentation rest char shown removes parts result inside member visible absent spaces =>
      rw [result]
      simp [ne_nil_removalNote]

theorem Replaces.noFeed (replaces : Replaces kind body replacement) (plain : Plain body)
    (rest : List Char) : (replacement ++ rest).head? ≠ some '\n' := by
  rw [List.head?_append_of_ne_nil _ replaces.ne_nil]
  exact fun head => (replaces.plain plain).1 (List.mem_of_head? head)

end Replaced

/-! ## The lines after a mutation -/

/-- A removal keeps a separator other than a carriage return or a line feed only where there is
none, or no line to join: in the last line. -/
def KeepsSeparator (content : List UInt8) (spec : SourceMutationSpec) : Prop :=
  spec.kind.isRemoval = false ∨ (splitLines (decode content)).length = spec.line ∨
    ∀ char, spec.expectedLine.getLast? = some char → isLineEnd char = false

/-- The mutated text has the lines of the original one but for the target line, and reverting
gives the original bytes. -/
structure ExactlyReversible {Digest : Type} [DecidableEq Digest] (sha256 : List UInt8 → Digest)
    (content : List UInt8) (spec : SourceMutationSpec) (change : LineChange) : Prop where
  differs : change.content ≠ content
  lineCount : (splitLines (decode change.content)).length = (splitLines (decode content)).length
  others : ∀ index, index + 1 ≠ spec.line →
    (splitLines (decode change.content))[index]? = (splitLines (decode content))[index]?
  restored : ∃ restored, restore sha256 spec change = .ok restored ∧ restored.content = content

/-- What a mutation that succeeds has seen and done. -/
structure Applied (content : List UInt8) (spec : SourceMutationSpec) (change : LineChange)
    (before after : List (List Char)) : Prop where
  text : encode (decode content) = content
  split : splitLines (decode content) =
    before ++ (spec.expectedLine ++ change.lineEnding) :: after
  position : before.length + 1 = spec.line
  ending : change.lineEnding ∈ lineEndings
  replaces : Replaces spec.kind spec.expectedLine change.replacement
  plain : Plain spec.expectedLine
  content : change.content =
    encode (before ++ (change.replacement ++ change.lineEnding) :: after).flatten

theorem decodeLines_eq_ok_iff {content : List UInt8} {lines : List (List Char)} :
    decodeLines content = .ok lines ↔
      encode (decode content) = content ∧ splitLines (decode content) = lines := by
  rw [decodeLines, raiseIf_bind_eq_ok_iff, not_not]
  exact and_congr_right fun _ => ⟨Except.ok.inj, congrArg Except.ok⟩

theorem exists_applied (valid : spec.validate isWord = .ok ()) {content : List UInt8}
    {change : LineChange} (mutated : mutatedSource content spec = .ok change) :
    ∃ before after, Applied content spec change before after := by
  unfold mutatedSource at mutated
  obtain ⟨lines, decoded, mutated⟩ := bind_eq_ok_iff.mp mutated
  obtain ⟨text, rfl⟩ := decodeLines_eq_ok_iff.mp decoded
  split at mutated
  case h_1 => cases mutated
  case h_2 line found =>
      dsimp only at mutated
      rw [raiseIf_bind_eq_ok_iff, not_not] at mutated
      obtain ⟨body, mutated⟩ := mutated
      obtain ⟨replacement, result, mutated⟩ := bind_eq_ok_iff.mp mutated
      cases mutated
      obtain ⟨inRange, rfl⟩ := List.getElem?_eq_some_iff.mp found
      obtain ⟨parts, ending⟩ := splitLineEnding_spec (splitLines (decode content))[spec.line - 1]
      rw [body] at result parts
      refine ⟨(splitLines (decode content)).take (spec.line - 1),
        (splitLines (decode content)).drop (spec.line - 1 + 1), text, ?_, ?_, ending,
        replaces_of_replacementFor valid result, (shape_of_validate valid).1, ?_⟩
      · dsimp only
        rw [← parts, List.cons_getElem_drop_succ, List.take_append_drop]
      · rw [List.length_take, Nat.min_eq_left inRange.le]
        have positive := positive_of_validate valid
        omega
      · dsimp only
        rw [List.set_eq_take_append_cons_drop, if_pos inRange]

theorem isTerminator_of_listed {ending : List Char} (listed : ending ∈ lineEndings)
    (some_ : ending ≠ []) : IsTerminator ending := by
  simp only [lineEndings, List.mem_cons, List.not_mem_nil, or_false] at listed
  rcases listed with rfl | rfl | rfl | rfl
  · exact .inl rfl
  · exact .inr ⟨'\n', rfl, rfl⟩
  · exact .inr ⟨'\r', rfl, rfl⟩
  · exact absurd rfl some_

theorem exists_getLast?_of_terminator {ending : List Char} (terminator : IsTerminator ending) :
    ∃ char, ending.getLast? = some char ∧ isLineEnd char = true := by
  rcases terminator with rfl | ⟨char, isEnd, rfl⟩
  · exact ⟨'\n', rfl, rfl⟩
  · exact ⟨char, rfl, isEnd⟩

/-- A line that ends with a carriage return ends with nothing more. -/
theorem eq_carriage_of_append {body line ending : List Char} (terminator : IsTerminator ending)
    (parts : line ++ ['\r'] = body ++ ending) : ending = ['\r'] := by
  have last := congrArg List.getLast? parts
  rw [List.getLast?_concat] at last
  rcases terminator with rfl | ⟨char, -, rfl⟩
  · rw [List.getLast?_append_of_ne_nil _ (List.cons_ne_nil _ _)] at last
    exact absurd last (by decide)
  · rw [List.getLast?_concat, Option.some.injEq] at last
    rw [last]

/-- A line whose body ends in a separator has no other ending. -/
theorem lineEnding_eq_nil {body ending : List Char} {lines : List (List Char)} {char : Char}
    (plain : Plain body) (last : body.getLast? = some char) (isEnd : isLineEnd char = true)
    (first : FirstLine (body ++ ending) lines) : ending = [] := by
  have member := List.mem_of_getLast? last
  cases first with
  | last within none_ =>
      rw [within char (List.mem_append_left _ member)] at isEnd
      cases isEnd
  | ended inner terminator parts within isTerminator apart others =>
      have outside : char ∉ inner := fun listed => by
        rw [within char listed] at isEnd
        cases isEnd
      rcases List.append_eq_append_iff.mp parts with
        ⟨more, innerParts, -⟩ | ⟨more, bodyParts, endParts⟩
      · exact absurd (innerParts ▸ List.mem_append_left _ member) outside
      · have inMore : char ∈ more := by
          rw [bodyParts, List.mem_append] at member
          exact member.resolve_left outside
        rcases isTerminator with rfl | ⟨other, -, rfl⟩
        · have pair : char ∈ ['\r', '\n'] := endParts ▸ List.mem_append_left _ inMore
          rcases List.mem_pair.mp pair with rfl | rfl
          · exact absurd member plain.2
          · exact absurd member plain.1
        · obtain ⟨first, more, rfl⟩ := List.exists_cons_of_ne_nil (List.ne_nil_of_mem inMore)
          exact (List.append_eq_nil_iff.mp (List.cons.inj endParts).2.symm).2

namespace Applied

variable {content : List UInt8} {change : LineChange} {before after : List (List Char)}

/-- Nothing ends inside the note for a removed line, which is indented as the line was. -/
theorem within_replacement (applied : Applied content spec change before after)
    (removes : spec.kind.isRemoval = true) : WithinLine change.replacement := by
  have first := firstLine_of_split applied.split
  cases applied.replaces with
  | inside start rest new char operation parts result inside within some_ differs =>
      rw [operation] at removes
      cases removes
  | removal indentation rest char shown removes parts result inside member visible absent spaces =>
      rw [parts, List.append_assoc, List.cons_append] at first
      rw [result]
      exact (first.within (not_isLineEnd_of_visible inside)).append (within_removalNote _)

/-- The target line keeps its end. -/
theorem firstLine (applied : Applied content spec change before after)
    (keeps : KeepsSeparator content spec) :
    FirstLine (change.replacement ++ change.lineEnding) after := by
  have first := firstLine_of_split applied.split
  cases applied.replaces with
  | inside start rest new char operation parts result inside within some_ differs =>
      rw [parts, List.append_assoc, List.cons_append] at first
      rw [result, List.append_assoc]
      exact first.replaced inside within
  | removal indentation rest char shown removes parts result inside member visible absent spaces =>
      have within := applied.within_replacement removes
      cases first with
      | last within' none_ =>
          refine .last (within.append fun other member => ?_) none_
          exact within' other (List.mem_append_right _ member)
      | ended body ending parts' within' terminator apart others =>
          by_cases none_ : change.lineEnding = []
          · rw [none_, List.append_nil] at parts' ⊢
            rcases keeps with operation | isLast | noEnd
            · rw [removes] at operation
              cases operation
            · refine .last within (List.length_eq_zero_iff.mp ?_)
              rw [applied.split, List.length_append, List.length_cons] at isLast
              have position := applied.position
              omega
            · obtain ⟨other, last, isEnd⟩ := exists_getLast?_of_terminator terminator
              have lineLast : spec.expectedLine.getLast? = some other := by
                rw [parts', List.getLast?_append, last]
                rfl
              rw [noEnd other lineLast] at isEnd
              cases isEnd
          · refine .ended _ _ rfl within (isTerminator_of_listed applied.ending none_) ?_ others
            intro carriage
            rw [carriage] at parts'
            exact apart (eq_carriage_of_append terminator parts')

/-- The mutated text has the lines around the target line. -/
theorem split_mutated (applied : Applied content spec change before after)
    (keeps : KeepsSeparator content spec) :
    splitLines (decode change.content) =
      before ++ (change.replacement ++ change.lineEnding) :: after := by
  rw [applied.content, decode_encode]
  exact splitLines_replaced applied.split (applied.firstLine keeps)
    (by simp [applied.replaces.ne_nil]) (applied.replaces.noFeed applied.plain _)

/-- Without its separator the target line is joined to the next one. -/
theorem keeps_of_length (applied : Applied content spec change before after)
    (lineCount : (splitLines (decode change.content)).length =
      (splitLines (decode content)).length) : KeepsSeparator content spec := by
  by_contra loses
  simp only [KeepsSeparator, not_or, Bool.not_eq_false, not_forall] at loses
  obtain ⟨removes, notLast, char, last, isEnd⟩ := loses
  rw [applied.split, List.length_append, List.length_cons] at notLast
  have position := applied.position
  have more : after ≠ [] := by
    rintro rfl
    exact notLast (by rw [List.length_nil]; omega)
  have none_ := lineEnding_eq_nil applied.plain last isEnd (firstLine_of_split applied.split)
  have joined := length_splitLines_joined applied.split more (applied.within_replacement removes)
    (applied.replaces.noFeed applied.plain _)
  rw [applied.content, none_, List.append_nil, decode_encode, applied.split] at lineCount
  omega

theorem restored {Digest : Type} [DecidableEq Digest] (sha256 : List UInt8 → Digest)
    (applied : Applied content spec change before after) (keeps : KeepsSeparator content spec) :
    ∃ restored, restore sha256 spec change = .ok restored ∧ restored.content = content := by
  have body := splitLineEnding_append (applied.replaces.plain applied.plain) applied.ending
  have decoded : decodeLines change.content =
      .ok (before ++ (change.replacement ++ change.lineEnding) :: after) := by
    rw [decodeLines_eq_ok_iff, applied.split_mutated keeps, applied.content, decode_encode]
    exact ⟨rfl, rfl⟩
  have position : spec.line - 1 = before.length := by
    have position := applied.position
    omega
  refine ⟨⟨content, change.replacement, spec.expectedLine, change.lineEnding⟩, ?_, rfl⟩
  rw [restore, replaceTargetLine, bind_of_ok decoded, position,
    List.getElem?_append_right le_rfl, Nat.sub_self, List.getElem?_cons_zero]
  dsimp only
  rw [body]
  dsimp only
  rw [raiseIf_bind_of_not (not_not.mpr rfl), raiseIf_bind_of_not (not_not.mpr rfl),
    List.set_append_right _ _ le_rfl, Nat.sub_self, List.set_cons_zero, ← applied.split,
    flatten_splitLines, applied.text]
  rfl

end Applied

/-- A mutation that succeeds is exactly reversible exactly when it keeps the separator of its
line. -/
theorem reversible_iff_keepsSeparator (isWord : Char → Bool) {Digest : Type} [DecidableEq Digest]
    (sha256 : List UInt8 → Digest) {content : List UInt8} {spec : SourceMutationSpec}
    {change : LineChange} (valid : spec.validate isWord = .ok ())
    (mutated : mutatedSource content spec = .ok change) :
    ExactlyReversible sha256 content spec change ↔ KeepsSeparator content spec := by
  obtain ⟨before, after, applied⟩ := exists_applied valid mutated
  constructor
  · exact fun reversible => applied.keeps_of_length reversible.lineCount
  · intro keeps
    have split := applied.split_mutated keeps
    refine ⟨?_, ?_, ?_, applied.restored sha256 keeps⟩
    · intro same
      rw [same, applied.split] at split
      have target := (List.cons.inj (List.append_cancel_left split)).1
      exact applied.replaces.differs (List.append_cancel_right target).symm
    · rw [split, applied.split]
      simp
    · intro index other
      rw [split, applied.split]
      have position := applied.position
      rcases Nat.lt_or_gt_of_ne (show index ≠ before.length by omega) with left | right
      · rw [List.getElem?_append_left left, List.getElem?_append_left left]
      · rw [List.getElem?_append_right right.le, List.getElem?_append_right right.le]
        obtain ⟨offset, positive⟩ : ∃ offset, index - before.length = offset + 1 :=
          ⟨index - before.length - 1, by omega⟩
        rw [positive, List.getElem?_cons_succ, List.getElem?_cons_succ]

/-- The removal of a guard in the first of two lines, which ends as given. -/
def guardRemoval (ending : List Char) : SourceMutationSpec where
  kind := .accessControlGuardRemoval
  line := 1
  expectedLine := "require(msg.sender == owner);".toList ++ ending
  originalOperator := none
  replacementOperator := none

def asciiWord (char : Char) : Bool :=
  char.isAlphanum || char == '_'

def guardedText (separator : List Char) : List Char :=
  "require(msg.sender == owner);".toList ++ separator ++ "owner = next;\n".toList

theorem guardRemoval_reversible : ∃ change,
    mutatedSource (encode (guardedText ['\n'])) (guardRemoval []) = .ok change ∧
      ExactlyReversible id (encode (guardedText ['\n'])) (guardRemoval []) change := by
  obtain ⟨⟨⟩, valid⟩ := eq_ok_of_toOption_isSome
    (show ((guardRemoval []).validate asciiWord).toOption.isSome by decide +kernel)
  obtain ⟨change, mutated⟩ := eq_ok_of_toOption_isSome
    (show (mutatedSource (encode (guardedText ['\n'])) (guardRemoval [])).toOption.isSome by
      decide +kernel)
  refine ⟨change, mutated, (reversible_iff_keepsSeparator asciiWord id valid mutated).mpr ?_⟩
  refine .inr (.inr fun char last => ?_)
  have semicolon : (guardRemoval []).expectedLine.getLast? = some ';' := by decide +kernel
  rw [semicolon] at last
  cases last
  rfl

/-- A vertical tab ends the line, and the removal takes it away. -/
theorem guardRemoval_joins_lines :
    ∃ change, (guardRemoval ['\u000b']).validate asciiWord = .ok () ∧
      mutatedSource (encode (guardedText ['\u000b'])) (guardRemoval ['\u000b']) = .ok change ∧
      ¬ExactlyReversible id (encode (guardedText ['\u000b'])) (guardRemoval ['\u000b']) change := by
  obtain ⟨⟨⟩, valid⟩ := eq_ok_of_toOption_isSome
    (show ((guardRemoval ['\u000b']).validate asciiWord).toOption.isSome by decide +kernel)
  obtain ⟨change, mutated⟩ := eq_ok_of_toOption_isSome
    (show (mutatedSource (encode (guardedText ['\u000b']))
      (guardRemoval ['\u000b'])).toOption.isSome by decide +kernel)
  refine ⟨change, valid, mutated, fun reversible => ?_⟩
  obtain ⟨before, after, applied⟩ := exists_applied valid mutated
  have last : (guardRemoval ['\u000b']).expectedLine.getLast? = some '\u000b' := by
    decide +kernel
  rcases applied.keeps_of_length reversible.lineCount with operation | one | noEnd
  · cases operation
  · rw [decode_encode] at one
    exact absurd one (by decide +kernel)
  · exact absurd (noEnd _ last) (by decide)

end Mutations

end Benchmark

end MmAudit
