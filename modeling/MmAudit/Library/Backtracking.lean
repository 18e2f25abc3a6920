import Mathlib.Data.List.Basic
import Mathlib.Data.List.Infix
import Mathlib.Data.Nat.Notation

/-!
# Patterns that give characters back

A part of a pattern can leave several rests of a text.  It offers them in the order in which a
backtracking search tries them, so the first rest of a whole pattern is the one of its match.
All matches are found from the left, each after the end of the one before; the patterns here
never match an empty text.
-/

namespace MmAudit

namespace Backtracking

/-- The rests that a part of a pattern can leave of a text, the preferred one first. -/
abbrev Part := List Char → List (List Char)

/-- One part after another. -/
def andThen (first second : Part) : Part := fun text =>
  (first text).flatMap second

/-- `first|second` -/
def orElse (first second : Part) : Part := fun text =>
  first text ++ second text

/-- `(part)?` -/
def maybe (part : Part) : Part := fun text =>
  part text ++ [text]

/-- `[...]+` -/
def greedy (accepts : Char → Bool) : Part
  | [] => []
  | char :: rest => if accepts char then greedy accepts rest ++ [rest] else []

/-- `[...]{count}` -/
def exactly (accepts : Char → Bool) : ℕ → Part
  | 0, text => [text]
  | _ + 1, [] => []
  | count + 1, char :: rest => if accepts char then exactly accepts count rest else []

/-- `[...]{0,bound}?` -/
def upTo (accepts : Char → Bool) : ℕ → Part
  | 0, text => [text]
  | _ + 1, [] => [[]]
  | bound + 1, char :: rest =>
      (char :: rest) :: if accepts char then upTo accepts bound rest else []

/-- The word itself. -/
def literal (word : List Char) : Part := fun text =>
  if word.isPrefixOf text then [text.drop word.length] else []

/-! ## Words in either case -/

/-- What two letters share that match each other in either case, where one of them is ASCII. -/
def foldLetter (char : Char) : Char :=
  if char = 'İ' || char = 'ı' then 'i'
  else if char = 'ſ' then 's'
  else if char = '\u212a' then 'k'
  else char.toLower

/-- A word in either case. -/
def caseless : List Char → Part
  | [], text => [text]
  | _ :: _, [] => []
  | letter :: word, char :: text =>
      if foldLetter letter = foldLetter char then caseless word text else []

/-- `first|second|...` for words in either case. -/
def oneOf (words : List (List Char)) : Part := fun text =>
  words.flatMap (caseless · text)

/-- The part begins at a place of a text that another text follows. -/
def beginsIn (part : Part) : List Char → List Char → Bool
  | [], _ => false
  | char :: text, follow =>
      !(part (char :: (text ++ follow))).isEmpty || beginsIn part text follow

/-! ## Matches -/

/-- What was read of a text that leaves a rest. -/
def taken (text rest : List Char) : List Char :=
  text.take (text.length - rest.length)

/-- `(?P<name>name)gap outcome`: what the name took, what the whole match took, and the rest. -/
def attribution (name gap outcome : Part) (text : List Char) :
    Option ((List Char × List Char) × List Char) :=
  (name text).findSome? fun afterName =>
    (andThen gap outcome afterName).head?.map fun rest =>
      ((taken text afterName, taken text rest), rest)

section Searching

variable {Value : Type*} (pattern : List Char → Option (Value × List Char))

/-- All matches, after some characters of the last one. -/
def findFrom : ℕ → List Char → List Value
  | _, [] => []
  | skipped + 1, _ :: text => findFrom skipped text
  | 0, char :: text =>
      match pattern (char :: text) with
      | some (value, rest) => value :: findFrom (text.length - rest.length) text
      | none => findFrom 0 text

/-- `pattern.finditer(text)` -/
def findAll (text : List Char) : List Value :=
  findFrom pattern 0 text

end Searching

/-! ## What parts read -/

/-- An end of two texts lies in the second, or begins in the first. -/
theorem suffix_append_cases {after first second : List Char} (suffix : after <:+ first ++ second) :
    after <:+ second ∨ ∃ start, start <:+ first ∧ start ≠ [] ∧ after = start ++ second := by
  obtain ⟨before, same⟩ := suffix
  rcases List.append_eq_append_iff.mp same with ⟨start, rfl, rfl⟩ | ⟨passed, -, rfl⟩
  · by_cases nothing : start = []
    · exact .inl (by rw [nothing]; exact List.suffix_rfl)
    · exact .inr ⟨start, List.suffix_append _ _, nothing, rfl⟩
  · exact .inl (List.suffix_append _ _)

/-- The part begins at no place of a text. -/
theorem beginsIn_eq_false_iff {part : Part} {text follow : List Char} :
    beginsIn part text follow = false ↔
      ∀ after, after <:+ text → after ≠ [] → part (after ++ follow) = [] := by
  induction text with
  | nil => simp [beginsIn]
  | cons char text ih =>
      rw [beginsIn, Bool.or_eq_false_iff, ih, Bool.not_eq_false', List.isEmpty_iff]
      constructor
      · rintro ⟨here, later⟩ after suffix nonempty
        rcases List.suffix_cons_iff.mp suffix with rfl | suffix
        · exact here
        · exact later after suffix nonempty
      · intro nowhere
        exact ⟨nowhere _ List.suffix_rfl (List.cons_ne_nil _ _), fun after suffix =>
          nowhere after (suffix.trans (List.suffix_cons char text))⟩

/-- What begins at no place of a text begins at no place of its end. -/
theorem beginsIn_of_suffix {part : Part} {text rest follow : List Char}
    (absent : beginsIn part text follow = false) (suffix : rest <:+ text) :
    beginsIn part rest follow = false :=
  beginsIn_eq_false_iff.mpr fun after isSuffix =>
    beginsIn_eq_false_iff.mp absent after (isSuffix.trans suffix)

/-- A word in either case reads its own letters. -/
theorem mem_caseless_iff {word text rest : List Char} :
    rest ∈ caseless word text ↔
      ∃ read, text = read ++ rest ∧ read.map foldLetter = word.map foldLetter := by
  induction word generalizing text with
  | nil => simp [caseless, eq_comm]
  | cons letter word ih =>
      cases text with
      | nil => simp [caseless]
      | cons char text =>
          rw [caseless]
          by_cases same : foldLetter letter = foldLetter char
          · rw [if_pos same, ih]
            constructor
            · rintro ⟨read, rfl, spelled⟩
              exact ⟨char :: read, rfl, by rw [List.map_cons, List.map_cons, same, spelled]⟩
            · rintro ⟨read, parts, spelled⟩
              cases read with
              | nil => cases spelled
              | cons first read =>
                  cases parts
                  exact ⟨read, rfl, (List.cons.inj spelled).2⟩
          · rw [if_neg same]
            refine iff_of_false List.not_mem_nil ?_
            rintro ⟨read, parts, spelled⟩
            cases read with
            | nil => cases spelled
            | cons first read =>
                cases parts
                exact same (List.cons.inj spelled).1.symm

/-- A spelled word is read in one way. -/
theorem caseless_append {word read : List Char}
    (spelled : read.map foldLetter = word.map foldLetter) (rest : List Char) :
    caseless word (read ++ rest) = [rest] := by
  induction word generalizing read with
  | nil =>
      cases read with
      | nil => rfl
      | cons first read => cases spelled
  | cons letter word ih =>
      cases read with
      | nil => cases spelled
      | cons first read =>
          have same := List.cons.inj spelled
          rw [List.cons_append, caseless, if_pos same.1.symm, ih same.2]

theorem caseless_cases (word text : List Char) :
    caseless word text = [] ∨ ∃ rest, caseless word text = [rest] := by
  by_cases absent : caseless word text = []
  · exact .inl absent
  · obtain ⟨rest, member⟩ := List.exists_mem_of_ne_nil _ absent
    obtain ⟨read, rfl, spelled⟩ := mem_caseless_iff.mp member
    exact .inr ⟨rest, caseless_append spelled rest⟩

/-- One word after another is the longer word. -/
theorem caseless_append_word (first second text : List Char) :
    caseless (first ++ second) text = andThen (caseless first) (caseless second) text := by
  induction first generalizing text with
  | nil => simp [andThen, caseless]
  | cons letter first ih =>
      cases text with
      | nil => rfl
      | cons char text =>
          rw [List.cons_append, andThen, caseless, caseless]
          by_cases same : foldLetter letter = foldLetter char
          · rw [if_pos same, if_pos same, ih]
            rfl
          · rw [if_neg same, if_neg same]
            rfl

/-- A character that matches no letter stops every word. -/
def Stops (words : List (List Char)) (char : Char) : Prop :=
  ∀ word ∈ words, ∀ letter ∈ word, foldLetter letter ≠ foldLetter char

theorem stops_of_all {words : List (List Char)} {char : Char}
    (differ : (words.all fun word => word.all fun letter =>
      foldLetter letter != foldLetter char) = true) : Stops words char := by
  intro word member letter letterMem
  have inWord := List.all_eq_true.mp differ word member
  exact bne_iff_ne.mp (List.all_eq_true.mp inWord letter letterMem)

theorem caseless_append_stop {word : List Char} {char : Char}
    (stops : ∀ letter ∈ word, foldLetter letter ≠ foldLetter char) (text follow : List Char) :
    caseless word (text ++ char :: follow) = (caseless word text).map (· ++ char :: follow) := by
  induction word generalizing text with
  | nil => rfl
  | cons letter word ih =>
      have later := ih fun other member => stops other (.tail _ member)
      cases text with
      | nil => exact if_neg (stops letter (.head _))
      | cons first text =>
          rw [List.cons_append, caseless, caseless]
          by_cases same : foldLetter letter = foldLetter first
          · rw [if_pos same, if_pos same, later]
          · rw [if_neg same, if_neg same, List.map_nil]

theorem oneOf_append_stop {words : List (List Char)} {char : Char} (stops : Stops words char)
    (text follow : List Char) :
    oneOf words (text ++ char :: follow) = (oneOf words text).map (· ++ char :: follow) := by
  rw [oneOf, oneOf, List.map_flatMap]
  exact List.flatMap_congr fun word member =>
    caseless_append_stop (stops word member) text follow

/-- A word that is there stays there when the text goes on. -/
theorem oneOf_append_ne_nil {words : List (List Char)} {text : List Char}
    (begins : oneOf words text ≠ []) (follow : List Char) : oneOf words (text ++ follow) ≠ [] := by
  obtain ⟨rest, member⟩ := List.exists_mem_of_ne_nil _ begins
  obtain ⟨word, wordMem, read⟩ := List.mem_flatMap.mp member
  obtain ⟨spelled, rfl, same⟩ := mem_caseless_iff.mp read
  exact List.ne_nil_of_mem (List.mem_flatMap.mpr
    ⟨word, wordMem, mem_caseless_iff.mpr ⟨spelled, List.append_assoc spelled rest follow, same⟩⟩)

/-- No word begins where a word stands that it neither begins nor goes on. -/
theorem caseless_eq_nil {word other read : List Char}
    (spelled : read.map foldLetter = other.map foldLetter)
    (differ : ¬word.map foldLetter <+: other.map foldLetter ∧
      ¬other.map foldLetter <+: word.map foldLetter) (text : List Char) :
    caseless word (read ++ text) = [] := by
  by_contra begins
  obtain ⟨rest, member⟩ := List.exists_mem_of_ne_nil _ begins
  obtain ⟨start, parts, same⟩ := mem_caseless_iff.mp member
  rcases List.append_eq_append_iff.mp parts with ⟨more, rfl, -⟩ | ⟨more, rfl, -⟩
  · refine differ.2 ⟨more.map foldLetter, ?_⟩
    rw [← spelled, ← List.map_append, same]
  · refine differ.1 ⟨more.map foldLetter, ?_⟩
    rw [← same, ← List.map_append, spelled]

/-- The first of some words that can stand in a place is read there. -/
theorem head?_oneOf (before : List (List Char)) {after : List (List Char)} {word read : List Char}
    (spelled : read.map foldLetter = word.map foldLetter)
    (differ : ∀ other ∈ before, ¬other.map foldLetter <+: word.map foldLetter ∧
      ¬word.map foldLetter <+: other.map foldLetter) (text : List Char) :
    (oneOf (before ++ word :: after) (read ++ text)).head? = some text := by
  have absent : before.flatMap (caseless · (read ++ text)) = [] :=
    List.flatMap_eq_nil_iff.mpr fun other member =>
      caseless_eq_nil spelled (differ other member) text
  rw [oneOf, List.flatMap_append, absent, List.nil_append, List.flatMap_cons,
    caseless_append spelled]
  rfl

/-! ## What a run of characters leaves -/

theorem mem_greedy {accepts : Char → Bool} {text rest : List Char}
    (member : rest ∈ greedy accepts text) :
    ∃ read, text = read ++ rest ∧ read ≠ [] ∧ ∀ char ∈ read, accepts char = true := by
  induction text with
  | nil => cases member
  | cons char text ih =>
      rw [greedy] at member
      split at member
      case isTrue accepted =>
        rcases List.mem_append.mp member with longer | shortest
        · obtain ⟨read, rfl, -, all⟩ := ih longer
          exact ⟨char :: read, rfl, List.cons_ne_nil _ _, List.forall_mem_cons.mpr ⟨accepted, all⟩⟩
        · obtain rfl := List.mem_singleton.mp shortest
          exact ⟨[char], rfl, List.cons_ne_nil _ _, List.forall_mem_singleton.mpr accepted⟩
      case isFalse => cases member

/-- As many characters as possible are read first. -/
theorem head?_greedy {accepts : Char → Bool} {read rest : List Char} (nonempty : read ≠ [])
    (accepted : ∀ char ∈ read, accepts char = true)
    (stops : ∀ char, rest.head? = some char → accepts char = false) :
    (greedy accepts (read ++ rest)).head? = some rest := by
  induction read with
  | nil => exact absurd rfl nonempty
  | cons char read ih =>
      rw [List.cons_append, greedy, if_pos (accepted char (.head _)), List.head?_append]
      cases read with
      | nil =>
          have nothing : greedy accepts rest = [] := by
            cases rest with
            | nil => rfl
            | cons next rest => rw [greedy, stops next rfl]; rfl
          rw [List.nil_append, nothing]
          rfl
      | cons next read =>
          rw [ih (List.cons_ne_nil _ _) fun other member => accepted other (.tail _ member)]
          rfl

theorem mem_exactly {accepts : Char → Bool} {count : ℕ} {text rest : List Char} :
    rest ∈ exactly accepts count text ↔
      ∃ read, text = read ++ rest ∧ read.length = count ∧ ∀ char ∈ read, accepts char = true := by
  induction count generalizing text with
  | zero =>
      rw [exactly, List.mem_singleton]
      constructor
      · rintro rfl
        exact ⟨[], rfl, rfl, List.forall_mem_nil _⟩
      · rintro ⟨read, rfl, length, -⟩
        rw [List.length_eq_zero_iff.mp length]
        rfl
  | succ count ih =>
      cases text with
      | nil =>
          refine iff_of_false List.not_mem_nil ?_
          rintro ⟨read, parts, length, -⟩
          cases read with
          | nil => cases length
          | cons first read => cases parts
      | cons char text =>
          rw [exactly]
          by_cases accepted : accepts char = true
          · rw [if_pos accepted, ih]
            constructor
            · rintro ⟨read, rfl, length, all⟩
              exact ⟨char :: read, rfl, congrArg Nat.succ length,
                List.forall_mem_cons.mpr ⟨accepted, all⟩⟩
            · rintro ⟨read, parts, length, all⟩
              cases read with
              | nil => cases length
              | cons first read =>
                  cases parts
                  exact ⟨read, rfl, Nat.succ.inj length, fun other member =>
                    all other (.tail _ member)⟩
          · rw [if_neg accepted]
            refine iff_of_false List.not_mem_nil ?_
            rintro ⟨read, parts, length, all⟩
            cases read with
            | nil => cases length
            | cons first read =>
                cases parts
                exact accepted (all _ (.head _))

theorem exactly_append {accepts : Char → Bool} {read : List Char}
    (accepted : ∀ char ∈ read, accepts char = true) (rest : List Char) :
    exactly accepts read.length (read ++ rest) = [rest] := by
  induction read with
  | nil => rw [List.length_nil, exactly]; rfl
  | cons char read ih =>
      rw [List.length_cons, List.cons_append, exactly, if_pos (accepted char (.head _)),
        ih fun other member => accepted other (.tail _ member)]

/-! ## What a lazy gap passes over -/

/-- The gap ends at the first place where the outcome begins. -/
theorem head?_andThen_upTo {accepts : Char → Bool} {outcome : Part} {gap text rest : List Char}
    {bound : ℕ} (accepted : ∀ char ∈ gap, accepts char = true) (short : gap.length ≤ bound)
    (absent : beginsIn outcome gap text = false) (begins : (outcome text).head? = some rest) :
    (andThen (upTo accepts bound) outcome (gap ++ text)).head? = some rest := by
  induction gap generalizing bound with
  | nil =>
      cases text with
      | nil => cases bound <;> simpa [andThen, upTo] using begins
      | cons char text =>
          cases bound with
          | zero => simpa [andThen, upTo] using begins
          | succ bound =>
              rw [List.nil_append, andThen, upTo, List.flatMap_cons, List.head?_append, begins]
              rfl
  | cons char gap ih =>
      cases bound with
      | zero => cases short
      | succ bound =>
          rw [beginsIn, Bool.or_eq_false_iff, Bool.not_eq_false', List.isEmpty_iff] at absent
          rw [List.cons_append, andThen, upTo, List.flatMap_cons, absent.1, List.nil_append,
            if_pos (accepted char (.head _))]
          exact ih (fun other member => accepted other (.tail _ member))
            (Nat.le_of_succ_le_succ short) absent.2

/-- What a gap finds stands behind accepted characters. -/
theorem exists_of_mem_andThen_upTo {accepts : Char → Bool} {outcome : Part}
    {text rest : List Char} {bound : ℕ}
    (member : rest ∈ andThen (upTo accepts bound) outcome text) :
    ∃ gap found, text = gap ++ found ∧ (∀ char ∈ gap, accepts char = true) ∧
      gap.length ≤ bound ∧ rest ∈ outcome found := by
  obtain ⟨found, foundMem, restMem⟩ := List.mem_flatMap.mp member
  clear member
  induction bound generalizing text with
  | zero =>
      obtain rfl := List.mem_singleton.mp foundMem
      exact ⟨[], _, rfl, List.forall_mem_nil _, le_rfl, restMem⟩
  | succ bound ih =>
      cases text with
      | nil =>
          obtain rfl := List.mem_singleton.mp foundMem
          exact ⟨[], _, rfl, List.forall_mem_nil _, Nat.zero_le _, restMem⟩
      | cons char text =>
          rw [upTo, List.mem_cons] at foundMem
          rcases foundMem with rfl | later
          · exact ⟨[], _, rfl, List.forall_mem_nil _, Nat.zero_le _, restMem⟩
          · split at later
            case isTrue accepted =>
              obtain ⟨gap, found', rfl, all, short, restMem⟩ := ih later
              exact ⟨char :: gap, found', rfl, List.forall_mem_cons.mpr ⟨accepted, all⟩,
                Nat.succ_le_succ short, restMem⟩
            case isFalse => cases later

/-- A gap that may reach a place finds something there. -/
theorem andThen_upTo_ne_nil {accepts : Char → Bool} {outcome : Part} {gap text : List Char}
    {bound : ℕ} (accepted : ∀ char ∈ gap, accepts char = true) (short : gap.length ≤ bound)
    (begins : outcome text ≠ []) : andThen (upTo accepts bound) outcome (gap ++ text) ≠ [] := by
  have reached : text ∈ upTo accepts bound (gap ++ text) := by
    clear begins
    induction gap generalizing bound with
    | nil =>
        cases text with
        | nil => cases bound <;> exact .head _
        | cons char text => cases bound <;> exact .head _
    | cons char gap ih =>
        cases bound with
        | zero => cases short
        | succ bound =>
            rw [List.cons_append, upTo, if_pos (accepted char (.head _))]
            exact .tail _ (ih (fun other member => accepted other (.tail _ member))
              (Nat.le_of_succ_le_succ short))
  obtain ⟨rest, restMem⟩ := List.exists_mem_of_ne_nil _ begins
  exact List.ne_nil_of_mem (List.mem_flatMap.mpr ⟨text, reached, restMem⟩)

/-! ## What a search finds -/

@[simp]
theorem taken_append (read rest : List Char) : taken (read ++ rest) rest = read := by
  rw [taken, List.length_append, Nat.add_sub_cancel, List.take_left']
  rfl

/-- The first way to read a name counts when an outcome follows it. -/
theorem attribution_of_head? {name gap outcome : Part} {text afterName rest : List Char}
    (nameFirst : (name text).head? = some afterName)
    (outcomeFirst : (andThen gap outcome afterName).head? = some rest) :
    attribution name gap outcome text =
      some ((taken text afterName, taken text rest), rest) := by
  cases ways : name text with
  | nil =>
      rw [ways] at nameFirst
      cases nameFirst
  | cons first others =>
      rw [ways] at nameFirst
      obtain rfl := Option.some.inj nameFirst
      rw [attribution, ways, List.findSome?_cons, outcomeFirst]
      rfl

theorem exists_of_attribution {name gap outcome : Part} {text rest : List Char}
    {value : List Char × List Char}
    (found : attribution name gap outcome text = some (value, rest)) :
    ∃ afterName ∈ name text, value.1 = taken text afterName ∧
      rest ∈ andThen gap outcome afterName := by
  obtain ⟨afterName, member, read⟩ := List.exists_of_findSome?_eq_some found
  obtain ⟨other, head, same⟩ := Option.map_eq_some_iff.mp read
  cases same
  exact ⟨afterName, member, rfl, List.mem_of_mem_head? head⟩

section Searching

variable {Value : Type*} {pattern : List Char → Option (Value × List Char)}

theorem findFrom_length_append (skipped text : List Char) :
    findFrom pattern skipped.length (skipped ++ text) = findAll pattern text := by
  induction skipped with
  | nil => rfl
  | cons char skipped ih => exact ih

/-- A match counts, and the search goes on after it. -/
theorem findAll_of_match {read rest : List Char} {value : Value} (nonempty : read ≠ [])
    (found : pattern (read ++ rest) = some (value, rest)) :
    findAll pattern (read ++ rest) = value :: findAll pattern rest := by
  cases read with
  | nil => cases nonempty rfl
  | cons char read =>
      rw [List.cons_append] at found ⊢
      rw [findAll, findFrom]
      simp only [found]
      rw [List.length_append, Nat.add_sub_cancel, findFrom_length_append]

/-- Everything that a search finds is a match at some place. -/
theorem exists_of_mem_findFrom {skipped : ℕ} {text : List Char} {value : Value}
    (member : value ∈ findFrom pattern skipped text) :
    ∃ start rest, pattern start = some (value, rest) := by
  induction text generalizing skipped with
  | nil => cases skipped <;> cases member
  | cons char text ih =>
      cases skipped with
      | succ skipped => exact ih member
      | zero =>
          rw [findFrom] at member
          cases found : pattern (char :: text) with
          | none =>
              rw [found] at member
              exact ih member
          | some read =>
              rw [found, List.mem_cons] at member
              rcases member with rfl | later
              · exact ⟨_, _, found⟩
              · exact ih later

/-- The search passes over places without a match. -/
theorem findAll_append {skipped text : List Char}
    (fails : ∀ after, after <:+ skipped → after ≠ [] → pattern (after ++ text) = none) :
    findAll pattern (skipped ++ text) = findAll pattern text := by
  induction skipped with
  | nil => rfl
  | cons char skipped ih =>
      have here := fails _ List.suffix_rfl (List.cons_ne_nil _ _)
      rw [List.cons_append] at here ⊢
      rw [findAll, findFrom]
      simp only [here]
      exact ih fun after suffix => fails after (suffix.trans (List.suffix_cons char skipped))

/-- Either there is no match in a text, or the search comes to the first one. -/
theorem findAll_append_cases (skipped text : List Char) :
    (∀ after, after <:+ skipped → after ≠ [] → pattern (after ++ text) = none) ∨
      ∃ after value rest others, after <:+ skipped ∧ pattern (after ++ text) = some (value, rest) ∧
        findAll pattern (skipped ++ text) = value :: others := by
  induction skipped with
  | nil => exact .inl fun after suffix nonempty => absurd (List.suffix_nil.mp suffix) nonempty
  | cons char skipped ih =>
      cases here : pattern (char :: skipped ++ text) with
      | some found =>
          refine .inr ⟨_, found.1, found.2,
            findFrom pattern ((skipped ++ text).length - found.2.length) (skipped ++ text),
            List.suffix_rfl, here, ?_⟩
          rw [List.cons_append] at here ⊢
          rw [findAll, findFrom]
          simp only [here]
      | none =>
          rcases ih with fails | ⟨after, value, rest, others, suffix, found, same⟩
          · refine .inl fun after suffix nonempty => ?_
            rcases List.suffix_cons_iff.mp suffix with rfl | later
            · exact here
            · exact fails after later nonempty
          · refine .inr ⟨after, value, rest, others,
              suffix.trans (List.suffix_cons char skipped), found, ?_⟩
            rw [List.cons_append] at here ⊢
            rw [findAll, findFrom]
            simp only [here]
            exact same

end Searching

end Backtracking

end MmAudit
