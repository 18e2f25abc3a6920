import MmAudit.Foundry.Agreement
import MmAudit.Library.Scanning

/-!
# Reading a counterexample back

`_foundry_counterexample_sequence` searches a text for the header of a sequence, takes the
lines up to the next invariant and collects the actions that they call.  On a normalized text
it gives back the sequence that was written.
-/

namespace MmAudit

namespace Foundry

open Fallible Scanning

/-! ## Classes of characters -/

/-- `\s`: what `str.isspace` accepts. -/
def isPatternSpace (char : Char) : Bool :=
  let code := char.toNat
  decide (9 ≤ code ∧ code ≤ 13 ∨ 28 ≤ code ∧ code ≤ 32 ∨ code = 0x85 ∨ code = 0xa0 ∨
    code = 0x1680 ∨ 0x2000 ≤ code ∧ code ≤ 0x200a ∨ code = 0x2028 ∨ code = 0x2029 ∨
    code = 0x202f ∨ code = 0x205f ∨ code = 0x3000)

/-- `\w`, where the alphanumeric characters beyond ASCII are given. -/
def isPatternWord (isForeignWord : Char → Bool) (char : Char) : Bool :=
  if char.toNat < 128 then isIdentifierCharacter char else isForeignWord char

def sequenceMark : List Char :=
  "[Sequence]".toList

def originalMark : List Char :=
  "(original:".toList

def shrunkMark : List Char :=
  "shrunk:".toList

/-- The line that opens a sequence: `header_pattern`. -/
def sequenceHeader (_ : Option Char) (text : List Char) :
    Option ((List Char × List Char) × List Char) := do
  let text ← literal sequenceMark text
  let (_, text) ← run isPatternSpace text
  let text ← literal originalMark text
  let (original, text) ← run Char.isDigit (text.dropWhile isPatternSpace)
  let text ← literal [','] text
  let text ← literal shrunkMark (text.dropWhile isPatternSpace)
  let (shrunk, text) ← run Char.isDigit (text.dropWhile isPatternSpace)
  let text ← literal [')'] text
  return ((original, shrunk), text)

/-- `(?m)^\s*invariant_[A-Za-z0-9_]+\(\)` -/
def invariantLine (previous : Option Char) (text : List Char) : Option (Unit × List Char) :=
  if previous.all (· = '\n') then do
    let text ← literal invariantPrefix (text.dropWhile isPatternSpace)
    let (_, text) ← run isIdentifierCharacter text
    let text ← literal ['(', ')'] text
    return ((), text)
  else
    none

def calldataPrefix : List Char :=
  "calldata=action_".toList

/-- `\bcalldata=action_([A-Za-z][A-Za-z0-9_]{0,47})\(` -/
def calledAction (isForeignWord : Char → Bool) (previous : Option Char) (text : List Char) :
    Option (List Char × List Char) :=
  if previous.any (isPatternWord isForeignWord) ≠
      text.head?.any (isPatternWord isForeignWord) then do
    let text ← literal calldataPrefix text
    let (actionId, text) ← run isIdentifierCharacter text
    if isIdentifier 47 actionId then
      (literal ['('] text).map fun text => (actionId, text)
    else
      none
  else
    none

/-- `int` of a text of digits, which refuses very long texts. -/
def intOfDigits (digits : List Char) : Except ValueError ℕ := do
  raiseIf (4300 < digits.length)
    ⟨"Exceeds the limit (4300 digits) for integer string conversion: value has " ++
      toString digits.length ++ " digits; use sys.set_int_max_str_digits() to increase the limit"⟩
  return Nat.ofDigitChars 10 digits 0

/-- What one turn of the loop over the headers adds to the candidates. -/
def headerCandidate (isForeignWord : Char → Bool) (declaredActionIds : List (List Char))
    (header : Match (List Char × List Char)) :
    Except ValueError (Option (ℕ × ℕ × List (List Char))) := do
  let originalLength ← intOfDigits header.value.1
  let shrunkLength ← intOfDigits header.value.2
  match search invariantLine none header.after with
  | none => return none
  | some line =>
      let actionIds := (findAll (calledAction isForeignWord) line.before).map (·.value)
      if actionIds.isEmpty || actionIds.length ≠ shrunkLength ||
          !actionIds.all declaredActionIds.contains || decide (originalLength < shrunkLength) then
        return none
      else
        return some (originalLength, shrunkLength, actionIds)

/-- `_foundry_counterexample_sequence` -/
def foundryCounterexampleSequence (isForeignWord : Char → Bool) (output : List Char)
    (declaredActionIds : List (List Char)) :
    Except ValueError (Option FoundryCounterexampleSequence) := do
  let candidates ← (findAll sequenceHeader output).mapM
    (headerCandidate isForeignWord declaredActionIds)
  match candidates.reduceOption.dedup with
  | [(originalLength, shrunkLength, actionIds)] =>
      return some { originalLength, shrunkLength, actionIds }
  | _ => return none

/-! ## The text of a counterexample -/

theorem intercalate_append_singleton (separator : List Char) (lines : List (List Char))
    (last : List Char) :
    separator.intercalate (lines ++ [last]) = lines.flatMap (· ++ separator) ++ last := by
  induction lines with
  | nil => simp
  | cons line lines ih =>
      rw [List.cons_append, List.intercalate_cons_of_ne_nil (by simp), ih, List.flatMap_cons]
      simp only [List.append_assoc]

theorem cons_flatMap_append (char : Char) (lines : List (List Char)) :
    char :: lines.flatMap (· ++ [char]) = lines.flatMap (char :: ·) ++ [char] := by
  induction lines with
  | nil => rfl
  | cons line lines ih =>
      rw [List.flatMap_cons, List.flatMap_cons, List.append_assoc, List.append_assoc, ← ih]
      rfl

def callLine (actionId : List Char) : List Char :=
  calldataPrefix ++ actionId ++ "()".toList

def headerLine (original shrunk : List Char) : List Char :=
  "[Sequence] (original: ".toList ++ original ++ ", shrunk: ".toList ++ shrunk ++ [')']

/-- The lines between the header and the invariant. -/
def callLines (actionIds : List (List Char)) : List Char :=
  actionIds.flatMap (fun actionId => '\n' :: callLine actionId) ++ ['\n']

def invariantText (propertyId : List Char) : List Char :=
  invariantPrefix ++ propertyId ++ "()".toList

theorem counterexampleText_eq {sequence : FoundryCounterexampleSequence} {original : ℕ}
    (isOriginal : sequence.originalLength = original) (propertyId : List Char) :
    counterexampleText sequence propertyId =
      headerLine (Nat.toDigits 10 original) (Nat.toDigits 10 sequence.shrunkLength) ++
        (callLines sequence.actionIds ++ invariantText propertyId) := by
  have lines : '\n' :: (sequence.actionIds.map callLine).flatMap (· ++ ['\n']) =
      callLines sequence.actionIds := by
    rw [cons_flatMap_append, List.flatMap_map]
    rfl
  have shown : (toString sequence.originalLength).toList = Nat.toDigits 10 original := by
    rw [isOriginal]
    exact Nat.toList_repr
  have shrunk : (toString sequence.shrunkLength).toList =
      Nat.toDigits 10 sequence.shrunkLength := Nat.toList_repr
  have text : counterexampleText sequence propertyId = ['\n'].intercalate
      ([headerLine (Nat.toDigits 10 original) (Nat.toDigits 10 sequence.shrunkLength)] ++
        sequence.actionIds.map callLine ++ [invariantText propertyId]) := by
    rw [counterexampleText, shown, shrunk]
    rfl
  rw [text, intercalate_append_singleton, List.flatMap_append, List.flatMap_singleton, ← lines]
  simp only [List.append_assoc, List.cons_append, List.nil_append]

/-! ## Where the patterns match -/

theorem isPatternSpace_eq_false {char : Char} (named : isIdentifierCharacter char = true) :
    isPatternSpace char = false := by
  obtain ⟨low, high⟩ := bounds_of_isIdentifierCharacter named
  rw [isPatternSpace, decide_eq_false_iff_not]
  omega

theorem isIdentifierCharacter_of_isDigit {char : Char} (digit : char.isDigit = true) :
    isIdentifierCharacter char = true := by
  rw [Char.isDigit, Bool.and_eq_true, decide_eq_true_eq, decide_eq_true_eq] at digit
  simp only [isIdentifierCharacter, Bool.or_eq_true, Bool.and_eq_true, decide_eq_true_eq]
  exact .inl (.inr ⟨digit.1, digit.2⟩)

theorem dropWhile_space_of_named {char : Char} (named : isIdentifierCharacter char = true)
    (text : List Char) : (char :: text).dropWhile isPatternSpace = char :: text := by
  rw [List.dropWhile_cons_of_neg (by rw [isPatternSpace_eq_false named]; decide)]

theorem dropWhile_space_cons (text : List Char) :
    (' ' :: text).dropWhile isPatternSpace = text.dropWhile isPatternSpace :=
  List.dropWhile_cons_of_pos (by decide)

theorem dropWhile_space_digits {digits : List Char} (nonempty : digits ≠ [])
    (areDigits : ∀ char ∈ digits, char.isDigit = true) (text : List Char) :
    (' ' :: (digits ++ text)).dropWhile isPatternSpace = digits ++ text := by
  rw [dropWhile_space_cons]
  cases digits with
  | nil => exact absurd rfl nonempty
  | cons char digits =>
      exact dropWhile_space_of_named
        (isIdentifierCharacter_of_isDigit (areDigits char List.mem_cons_self)) _

theorem dropWhile_space_shrunkMark (text : List Char) :
    (' ' :: (shrunkMark ++ text)).dropWhile isPatternSpace = shrunkMark ++ text := by
  have starts : shrunkMark = 's' :: "hrunk:".toList := by decide
  rw [dropWhile_space_cons, starts, List.cons_append]
  exact dropWhile_space_of_named (by decide) _

theorem run_space_originalMark (text : List Char) :
    run isPatternSpace ([' '] ++ (originalMark ++ text)) = some ([' '], originalMark ++ text) := by
  have starts : originalMark = '(' :: "original:".toList := by decide
  have space : ∀ char ∈ [' '], isPatternSpace char = true := by
    simp [isPatternSpace]
  refine run_append (List.cons_ne_nil _ _) space ?_
  rw [starts, List.cons_append, List.head?_cons]
  rintro char same
  rw [← Option.some.inj same]
  rfl

theorem headerLine_eq (original shrunk rest : List Char) :
    headerLine original shrunk ++ rest =
      sequenceMark ++ ([' '] ++ (originalMark ++ (' ' :: (original ++ ([','] ++
        (' ' :: (shrunkMark ++ (' ' :: (shrunk ++ ([')'] ++ rest)))))))))) := by
  have opening : "[Sequence] (original: ".toList =
      sequenceMark ++ ([' '] ++ (originalMark ++ [' '])) := by decide
  have middle : ", shrunk: ".toList = [','] ++ (' ' :: (shrunkMark ++ [' '])) := by
    decide
  have isLine : headerLine original shrunk =
      (sequenceMark ++ ([' '] ++ (originalMark ++ [' ']))) ++ original ++
        ([','] ++ (' ' :: (shrunkMark ++ [' ']))) ++ shrunk ++ [')'] := by
    rw [← opening, ← middle]
    rfl
  rw [isLine]
  simp only [List.append_assoc, List.cons_append, List.nil_append]

/-- The header that was written is read. -/
theorem sequenceHeader_headerLine (previous : Option Char) {original shrunk : List Char}
    (originalNonempty : original ≠ []) (originalDigits : ∀ char ∈ original, char.isDigit = true)
    (shrunkNonempty : shrunk ≠ []) (shrunkDigits : ∀ char ∈ shrunk, char.isDigit = true)
    (rest : List Char) :
    sequenceHeader previous (headerLine original shrunk ++ rest) =
      some ((original, shrunk), rest) := by
  have digitsBefore : ∀ {digits : List Char}, digits ≠ [] →
      (∀ char ∈ digits, char.isDigit = true) → ∀ (char : Char) (text : List Char),
        char.isDigit = false → run Char.isDigit (digits ++ ([char] ++ text)) =
          some (digits, [char] ++ text) := by
    intro digits nonempty areDigits char text stop
    refine run_append nonempty areDigits fun other same => ?_
    rw [← Option.some.inj same]
    exact stop
  rw [headerLine_eq, sequenceHeader, literal_append]
  dsimp only [Option.bind_eq_bind, Option.bind_some]
  rw [run_space_originalMark, Option.bind_some, literal_append, Option.bind_some,
    dropWhile_space_digits originalNonempty originalDigits,
    digitsBefore originalNonempty originalDigits ',' _ (by decide), Option.bind_some,
    literal_append, Option.bind_some, dropWhile_space_shrunkMark, literal_append,
    Option.bind_some, dropWhile_space_digits shrunkNonempty shrunkDigits,
    digitsBefore shrunkNonempty shrunkDigits ')' _ (by decide), Option.bind_some, literal_append]
  rfl

theorem sequenceHeader_fails (previous : Option Char) {text : List Char}
    (differs : text.head? ≠ some '[') : sequenceHeader previous text = none := by
  rw [sequenceHeader, literal_of_head_ne rfl differs]
  rfl

/-! ### The line of the invariant -/

theorem run_identifier_bracket {text : List Char} (nonempty : text ≠ [])
    (named : ∀ char ∈ text, isIdentifierCharacter char = true) (rest : List Char) :
    run isIdentifierCharacter (text ++ '(' :: rest) = some (text, '(' :: rest) := by
  refine run_append nonempty named fun char same => ?_
  rw [List.head?_cons, Option.some.injEq] at same
  rw [← same]
  rfl

theorem ne_nil_of_isIdentifier {further : ℕ} {text : List Char}
    (named : isIdentifier further text = true) : text ≠ [] := by
  rintro rfl
  cases named

theorem invariantPrefix_eq : invariantPrefix = 'i' :: "nvariant_".toList := by
  decide

theorem literal_invariantPrefix_cons {char : Char} (differs : char ≠ 'i') (text : List Char) :
    literal invariantPrefix (char :: text) = none := by
  have starts : invariantPrefix.head? = some 'i' := by
    rw [invariantPrefix_eq, List.head?_cons]
  exact literal_of_head_ne starts fun same => differs (Option.some.inj same)

theorem invariantLine_invariantText {propertyId : List Char}
    (named : isIdentifier 47 propertyId = true) :
    invariantLine (some '\n') (invariantText propertyId) = some ((), []) := by
  have kept : (invariantText propertyId).dropWhile isPatternSpace = invariantText propertyId := by
    rw [invariantText, invariantPrefix_eq, List.append_assoc, List.cons_append]
    exact dropWhile_space_of_named (by decide) _
  have brackets : "()".toList = ['(', ')'] := by decide
  rw [invariantLine, if_pos (by decide), kept, invariantText, List.append_assoc, literal_append,
    brackets]
  dsimp only [Option.bind_eq_bind, Option.bind_some]
  rw [run_identifier_bracket (ne_nil_of_isIdentifier named)
    (fun _ => isIdentifierCharacter_of_isIdentifier named), Option.bind_some]
  rfl

theorem invariantLine_fails_inside {previous : Char} (inside : previous ≠ '\n')
    (text : List Char) : invariantLine (some previous) text = none :=
  if_neg (by simpa using inside)

theorem invariantLine_fails_call (previous : Option Char) (text : List Char) :
    invariantLine previous ('c' :: text) = none := by
  rw [invariantLine, dropWhile_space_of_named (by decide), literal_invariantPrefix_cons (by decide)]
  exact ite_self _

theorem invariantLine_fails_feed (previous : Option Char) (text : List Char) :
    invariantLine previous ('\n' :: 'c' :: text) = none := by
  have dropped : ('\n' :: 'c' :: text).dropWhile isPatternSpace = 'c' :: text := by
    rw [List.dropWhile_cons_of_pos (by decide)]
    exact dropWhile_space_of_named (by decide) _
  rw [invariantLine, dropped, literal_invariantPrefix_cons (by decide)]
  exact ite_self _

/-- No invariant is read inside a line. -/
theorem failsAlong_inside {previous : Char} (inside : previous ≠ '\n') {line : List Char}
    (noFeed : '\n' ∉ line) (text : List Char) :
    FailsAlong invariantLine (some previous) line text := by
  induction line generalizing previous with
  | nil => trivial
  | cons char line ih =>
      rw [List.mem_cons, not_or] at noFeed
      exact ⟨invariantLine_fails_inside inside _, ih (Ne.symm noFeed.1) noFeed.2⟩

theorem feed_not_mem_callLine {actionId : List Char} (named : isIdentifier 47 actionId = true) :
    '\n' ∉ callLine actionId := by
  simp only [callLine, List.mem_append, not_or]
  exact ⟨⟨by decide, not_mem_of_isIdentifier named (by decide)⟩, by decide⟩

theorem callLine_eq (actionId : List Char) :
    callLine actionId = 'c' :: ("alldata=action_".toList ++ actionId ++ "()".toList) := by
  have opens : calldataPrefix = 'c' :: "alldata=action_".toList := by decide
  rw [callLine, opens]
  rfl

theorem lastOf_append_singleton (previous : Option Char) (text : List Char) (char : Char) :
    lastOf previous (text ++ [char]) = some char := by
  induction text generalizing previous with
  | nil => rfl
  | cons other text ih => exact ih _

theorem lastOf_append (previous : Option Char) (first second : List Char) :
    lastOf previous (first ++ second) = lastOf (lastOf previous first) second := by
  induction first generalizing previous with
  | nil => rfl
  | cons char first ih => exact ih _

theorem lastOf_callLine (previous : Option Char) (actionId : List Char) :
    lastOf previous (callLine actionId) = some ')' := by
  have brackets : "()".toList = ['('] ++ [')'] := by decide
  rw [callLine, brackets, ← List.append_assoc]
  exact lastOf_append_singleton _ _ _

theorem failsAlong_callLine {actionId : List Char} (named : isIdentifier 47 actionId = true)
    (previous : Option Char) (text : List Char) :
    FailsAlong invariantLine previous ('\n' :: callLine actionId) text := by
  have noFeed := feed_not_mem_callLine named
  rw [callLine_eq, List.mem_cons, not_or] at noFeed
  rw [callLine_eq]
  exact ⟨invariantLine_fails_feed _ _, invariantLine_fails_call _ _,
    failsAlong_inside (by decide) noFeed.2 _⟩

/-- No invariant is read at the calls. -/
theorem failsAlong_callLines {actionIds : List (List Char)}
    (named : ∀ actionId ∈ actionIds, isIdentifier 47 actionId = true) (nonempty : actionIds ≠ [])
    (previous : Option Char) (text : List Char) :
    FailsAlong invariantLine previous (callLines actionIds) text := by
  unfold callLines
  induction actionIds generalizing previous with
  | nil => exact absurd rfl nonempty
  | cons actionId actionIds ih =>
      obtain ⟨first, rest⟩ := List.forall_mem_cons.mp named
      rw [List.flatMap_cons, List.append_assoc]
      refine (failsAlong_callLine first previous _).append ?_
      cases actionIds with
      | nil =>
          have last : lastOf previous ('\n' :: callLine actionId) = some ')' :=
            lastOf_callLine (some '\n') actionId
          rw [last]
          exact ⟨invariantLine_fails_inside (by decide) _, trivial⟩
      | cons other actionIds => exact ih rest (List.cons_ne_nil _ _) _

/-! ### The actions -/

variable (isForeignWord : Char → Bool)

theorem calledAction_fails (previous : Option Char) {text : List Char}
    (differs : text.head? ≠ some 'c') : calledAction isForeignWord previous text = none := by
  have starts : calldataPrefix.head? = some 'c' := by decide
  rw [calledAction, literal_of_head_ne starts differs]
  exact ite_self _

theorem calledAction_callLine {actionId : List Char} (named : isIdentifier 47 actionId = true)
    (rest : List Char) :
    calledAction isForeignWord (some '\n') (callLine actionId ++ rest) =
      some (actionId, ')' :: rest) := by
  have brackets : "()".toList = ['(', ')'] := by decide
  have boundary : (some '\n').any (isPatternWord isForeignWord) ≠
      (callLine actionId ++ rest).head?.any (isPatternWord isForeignWord) := by
    have wordless : isPatternWord isForeignWord '\n' = false := rfl
    have word : isPatternWord isForeignWord 'c' = true := rfl
    rw [callLine_eq, List.cons_append, List.head?_cons, Option.any_some, Option.any_some,
      wordless, word]
    exact Bool.false_ne_true
  rw [calledAction, if_pos boundary, callLine, List.append_assoc, List.append_assoc,
    literal_append, brackets]
  dsimp only [Option.bind_eq_bind, Option.bind_some, List.cons_append, List.nil_append]
  rw [run_identifier_bracket (ne_nil_of_isIdentifier named)
    (fun _ => isIdentifierCharacter_of_isIdentifier named), Option.bind_some]
  dsimp only
  rw [if_pos named]
  rfl

/-- The actions of the calls are collected in their order. -/
theorem findAllWithin_callLines {actionIds : List (List Char)}
    (named : ∀ actionId ∈ actionIds, isIdentifier 47 actionId = true) {fuel : ℕ}
    (enough : actionIds.length < fuel) (previous : Option Char) (lead : List Char)
    (noCall : 'c' ∉ lead) :
    (findAllWithin (calledAction isForeignWord) fuel previous
      (lead ++ callLines actionIds)).map (·.value) = actionIds := by
  have starts : ∀ previous text, List.head? text ≠ some 'c' →
      calledAction isForeignWord previous text = none :=
    fun previous text differs => calledAction_fails isForeignWord previous differs
  induction actionIds generalizing fuel previous lead with
  | nil =>
      rw [findAllWithin_eq_nil]
      · rfl
      · refine failsAlong_of_not_mem starts _ ?_ _
        rw [List.mem_append, not_or]
        exact ⟨noCall, by decide⟩
      · exact starts _ _ (by decide)
  | cons actionId actionIds ih =>
      obtain ⟨first, rest⟩ := List.forall_mem_cons.mp named
      obtain ⟨fuel, rfl⟩ : ∃ less, fuel = less + 1 := ⟨fuel - 1, by
        rw [List.length_cons] at enough
        omega⟩
      have split : lead ++ callLines (actionId :: actionIds) =
          (lead ++ ['\n']) ++ (callLine actionId ++ callLines actionIds) := by
        simp [callLines]
      have skips : 'c' ∉ lead ++ ['\n'] := by
        rw [List.mem_append, not_or]
        exact ⟨noCall, by decide⟩
      rw [split, findAllWithin_succ (failsAlong_of_not_mem starts _ skips _)
        (by rw [lastOf_append_singleton]; exact calledAction_callLine isForeignWord first _),
        List.map_cons]
      refine congrArg (actionId :: ·) ?_
      exact ih rest (by rw [List.length_cons] at enough; omega) _ [')'] (by decide)

/-! ## The round trip -/

theorem intOfDigits_toDigits {number : ℕ} (bounded : number ≤ 10000) :
    intOfDigits (Nat.toDigits 10 number) = .ok number := by
  have short : (Nat.toDigits 10 number).length ≤ 4300 := by
    refine (Nat.length_toDigits_le_iff (by decide) (by decide)).mpr ?_
    calc number ≤ 10000 := bounded
      _ < 10 ^ 5 := by decide
      _ ≤ 10 ^ 4300 := Nat.pow_le_pow_right (by decide) (by decide)
  rw [intOfDigits, raiseIf_bind_of_not (by omega), Nat.ofDigitChars_ten_toDigits]
  rfl

theorem length_le_callLines (actionIds : List (List Char)) :
    actionIds.length < (callLines actionIds).length + 1 := by
  have longer : actionIds.length ≤ (callLines actionIds).length := by
    unfold callLines
    induction actionIds with
    | nil => exact Nat.zero_le _
    | cons actionId actionIds ih =>
        rw [List.flatMap_cons, List.append_assoc, List.length_append, List.length_cons,
          List.length_cons]
        omega
  omega

/-- A sequence that the reader accepts and that the normalized text can hold. -/
structure IsSequence (declaredActionIds : List (List Char))
    (sequence : FoundryCounterexampleSequence) : Prop where
  nonempty : sequence.actionIds ≠ []
  length : sequence.shrunkLength = sequence.actionIds.length
  shrunk : (sequence.shrunkLength : ℤ) ≤ sequence.originalLength
  bounded : sequence.originalLength ≤ 10000
  declared : ∀ actionId ∈ sequence.actionIds, actionId ∈ declaredActionIds
  named : ∀ actionId ∈ sequence.actionIds, isIdentifier 47 actionId = true

variable {isForeignWord} {declaredActionIds : List (List Char)}

theorem headerCandidate_counterexample {sequence : FoundryCounterexampleSequence}
    (isSequence : IsSequence declaredActionIds sequence) {original : ℕ}
    (isOriginal : sequence.originalLength = original) {propertyId : List Char}
    (named : isIdentifier 47 propertyId = true) (before : List Char) :
    headerCandidate isForeignWord declaredActionIds
        ⟨before, (Nat.toDigits 10 original, Nat.toDigits 10 sequence.shrunkLength),
          callLines sequence.actionIds ++ invariantText propertyId⟩ =
      .ok (some (original, sequence.shrunkLength, sequence.actionIds)) := by
  have originalBounded := isSequence.bounded
  have shrunk := isSequence.shrunk
  rw [isOriginal] at originalBounded shrunk
  have found : search invariantLine none
      (callLines sequence.actionIds ++ invariantText propertyId) =
        some ⟨callLines sequence.actionIds, (), []⟩ := by
    have last : lastOf none (callLines sequence.actionIds) = some '\n' :=
      lastOf_append_singleton _ _ _
    rw [search_append (failsAlong_callLines isSequence.named isSequence.nonempty _ _), last,
      search_of_match (invariantLine_invariantText named), Option.map_some, List.append_nil]
  have actions : (findAll (calledAction isForeignWord)
      (callLines sequence.actionIds)).map (·.value) = sequence.actionIds :=
    findAllWithin_callLines isForeignWord isSequence.named (length_le_callLines _) none []
      List.not_mem_nil
  rw [headerCandidate, bind_of_ok (intOfDigits_toDigits (by omega)),
    bind_of_ok (intOfDigits_toDigits (by omega)), found]
  dsimp only
  rw [actions, if_neg]
  · rfl
  · simp only [Bool.or_eq_true, not_or, List.isEmpty_iff, decide_eq_true_eq, ne_eq, not_not,
      Bool.not_eq_true', Bool.not_eq_false, List.all_eq_true, List.contains_iff_mem]
    exact ⟨⟨⟨isSequence.nonempty, isSequence.length.symm⟩, isSequence.declared⟩, by omega⟩

/-- No header is read before the counterexample. -/
theorem findAll_sequenceHeader {observations rest original shrunk : List Char}
    (noHeader : '[' ∉ observations) (noFurther : '[' ∉ rest)
    (originalNonempty : original ≠ []) (originalDigits : ∀ char ∈ original, char.isDigit = true)
    (shrunkNonempty : shrunk ≠ []) (shrunkDigits : ∀ char ∈ shrunk, char.isDigit = true) :
    findAll sequenceHeader (observations ++ (headerLine original shrunk ++ rest)) =
      [⟨observations, (original, shrunk), rest⟩] := by
  have starts : ∀ previous text, List.head? text ≠ some '[' →
      sequenceHeader previous text = none := fun previous _ => sequenceHeader_fails previous
  rw [findAll, findAllWithin_succ (failsAlong_of_not_mem starts _ noHeader _)
    (sequenceHeader_headerLine _ originalNonempty originalDigits shrunkNonempty shrunkDigits rest),
    findAllWithin_eq_nil (failsAlong_of_not_mem starts _ noFurther _) (starts _ _ (by decide))]

/-- A text without a header holds no sequence. -/
theorem foundryCounterexampleSequence_eq_none {output : List Char} (noHeader : '[' ∉ output) :
    foundryCounterexampleSequence isForeignWord output declaredActionIds = .ok none := by
  have none : findAll sequenceHeader output = [] :=
    findAllWithin_eq_nil (failsAlong_of_not_mem (fun previous _ => sequenceHeader_fails previous)
      _ noHeader _) (sequenceHeader_fails _ (by decide))
  rw [foundryCounterexampleSequence, none]
  rfl

theorem foundryCounterexampleSequence_counterexampleText
    {sequence : FoundryCounterexampleSequence}
    (isSequence : IsSequence declaredActionIds sequence) {propertyId : List Char}
    (named : isIdentifier 47 propertyId = true) {observations : List Char}
    (noHeader : '[' ∉ observations) :
    foundryCounterexampleSequence isForeignWord
        (observations ++ counterexampleText sequence propertyId) declaredActionIds =
      .ok (some sequence) := by
  obtain ⟨original, isOriginal⟩ : ∃ original : ℕ, sequence.originalLength = original :=
    ⟨sequence.originalLength.toNat, by have := isSequence.shrunk; omega⟩
  have areDigits : ∀ number, ∀ char ∈ Nat.toDigits 10 number, char.isDigit = true :=
    fun _ _ => Nat.isDigit_of_mem_toDigits (by decide) (by decide)
  have noFurther : '[' ∉ callLines sequence.actionIds ++ invariantText propertyId := by
    simp only [callLines, callLine, invariantText, List.mem_append, List.mem_flatMap,
      List.mem_cons, not_or, not_exists, not_and]
    refine ⟨⟨fun actionId listed => ⟨by decide, ⟨by decide, not_mem_of_isIdentifier
      (isSequence.named actionId listed) (by decide)⟩, by decide⟩, by decide, List.not_mem_nil⟩,
      ⟨by decide, not_mem_of_isIdentifier named (by decide)⟩, by decide⟩
  rw [counterexampleText_eq isOriginal, foundryCounterexampleSequence,
    findAll_sequenceHeader noHeader noFurther Nat.toDigits_ne_nil (areDigits _)
      Nat.toDigits_ne_nil (areDigits _), List.mapM_cons, List.mapM_nil,
    bind_of_ok (headerCandidate_counterexample isSequence isOriginal named observations)]
  have single : [some (original, sequence.shrunkLength, sequence.actionIds)].reduceOption.dedup =
      [(original, sequence.shrunkLength, sequence.actionIds)] := (List.nodup_singleton _).dedup
  change (match [some (original, sequence.shrunkLength, sequence.actionIds)].reduceOption.dedup with
    | [(originalLength, shrunkLength, actionIds)] =>
        Except.ok (some (FoundryCounterexampleSequence.mk originalLength shrunkLength actionIds))
    | _ => Except.ok none) = _
  rw [single]
  dsimp only
  rw [← isOriginal]

end Foundry

end MmAudit
