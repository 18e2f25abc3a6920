import MmAudit.Library.Fallible
import MmAudit.Library.LineEdits
import MmAudit.Library.TextSearch

/-!
# Source mutations

A mutation replaces one line of a source file.  Lines are split as `str.splitlines` splits them,
at more characters than the line endings that are put back afterwards.

Numbers of lines are positive; the hash of a text is a parameter.
-/

namespace MmAudit

namespace Benchmark

namespace Mutations

open Fallible TextLines TextSearch

structure ValueError where
  message : String
deriving DecidableEq, Repr

/-! ## Specifications -/

inductive MutationKind where
  | accessControlGuardRemoval
  | replayStateUpdateRemoval
  | boundaryCheckWeakening
  | accountingOperatorReplacement
  | externalCallResultCheckRemoval
deriving DecidableEq, Repr

def MutationKind.value : MutationKind → String
  | accessControlGuardRemoval => "access_control_guard_removal"
  | replayStateUpdateRemoval => "replay_state_update_removal"
  | boundaryCheckWeakening => "boundary_check_weakening"
  | accountingOperatorReplacement => "accounting_operator_replacement"
  | externalCallResultCheckRemoval => "external_call_result_check_removal"

/-- The kinds that replace the whole line. -/
def MutationKind.isRemoval : MutationKind → Bool
  | accessControlGuardRemoval | replayStateUpdateRemoval | externalCallResultCheckRemoval => true
  | boundaryCheckWeakening | accountingOperatorReplacement => false

inductive MutationOperator where
  | less
  | lessOrEqual
  | greater
  | greaterOrEqual
  | plus
  | minus
  | times
  | divide
deriving DecidableEq, Repr

def MutationOperator.text : MutationOperator → List Char
  | less => ['<']
  | lessOrEqual => ['<', '=']
  | greater => ['>']
  | greaterOrEqual => ['>', '=']
  | plus => ['+']
  | minus => ['-']
  | times => ['*']
  | divide => ['/']

/-- What selects and transforms the line. -/
structure SourceMutationSpec where
  kind : MutationKind
  line : ℕ
  expectedLine : List Char
  originalOperator : Option MutationOperator
  replacementOperator : Option MutationOperator
deriving DecidableEq, Repr

/-! ## The patterns of the kinds -/

section Patterns

variable (isWord : Char → Bool)

def requireWord : List Char := ['r', 'e', 'q', 'u', 'i', 'r', 'e']

/-- `\brequire\s*\(` -/
def requiresSomething (line : List Char) : Bool :=
  search (call isWord requireWord) line

/-- `\bmsg\.sender\b|\bhasRole\s*\(` -/
def guardsCaller (line : List Char) : Bool :=
  search (fun previous text =>
    wholeWord isWord "msg.sender".toList previous text ||
      call isWord "hasRole".toList previous text) line

/-- `(?<![=!<>])=(?!=)` -/
def assignment : Test := fun previous text =>
  !previous.any (['=', '!', '<', '>'].contains ·) && text.head? == some '=' &&
    (text.drop 1).head? != some '='

/-- `\b(?:used|consumed|executed|processed)[A-Za-z0-9_]*` -/
def consumedState : Test := fun previous text =>
  ["used", "consumed", "executed", "processed"].any fun word =>
    wordStart isWord word.toList previous text

/-- `\b(?:ok|success|succeeded)\b` -/
def successResult : Test := fun previous text =>
  ["ok", "success", "succeeded"].any fun word => wholeWord isWord word.toList previous text

/-- `(?<![=!<>])=(?!=)|\breturn\b` -/
def assignsOrReturns (line : List Char) : Bool :=
  search (fun previous text =>
    assignment previous text || wholeWord isWord "return".toList previous text) line

/-! ## Validation -/

/-- The strict comparison that a boundary mutation expands, with its expansion. -/
def boundaryPair : MutationOperator → Option MutationOperator
  | .less => some .lessOrEqual
  | .greater => some .greaterOrEqual
  | _ => none

def allowedPairs : List (MutationOperator × MutationOperator) :=
  [(.plus, .minus), (.minus, .plus), (.times, .divide), (.divide, .times)]

/-- `mutation_shape_matches_kind` -/
def mutationShapeMatchesKind (spec : SourceMutationSpec) : Except ValueError Unit :=
  let line := strip spec.expectedLine
  match spec.kind, spec.originalOperator, spec.replacementOperator with
  | .accessControlGuardRemoval, none, none =>
      raiseIf (!requiresSomething isWord line || !guardsCaller isWord line)
        ⟨"access-control mutation requires an explicit caller guard"⟩
  | .replayStateUpdateRemoval, none, none =>
      raiseIf (line.getLast? ≠ some ';' ∨ search assignment line = false ∨
          search (consumedState isWord) line = false)
        ⟨"replay mutation requires an explicit consumed-state assignment"⟩
  | .externalCallResultCheckRemoval, none, none =>
      raiseIf (!requiresSomething isWord line || !search (successResult isWord) line)
        ⟨"call-result mutation requires an explicit success check"⟩
  | .boundaryCheckWeakening, some original, some replacement =>
      raiseIf (boundaryPair original ≠ some replacement ∨ !requiresSomething isWord line ∨
          count original.text line ≠ 1)
        ⟨"boundary mutation must expand exactly one strict comparison"⟩
  | .accountingOperatorReplacement, some original, some replacement =>
      raiseIf ((original, replacement) ∉ allowedPairs ∨ !assignsOrReturns isWord line ∨
          count original.text line ≠ 1)
        ⟨"accounting mutation requires one approved arithmetic operator replacement"⟩
  | kind, _, _ =>
      if kind.isRemoval then .error ⟨"line-removal mutations cannot declare operators"⟩
      else .error ⟨"operator mutations require an original and replacement operator"⟩

/-- The validators of a specification, on the fields that it has here. -/
def SourceMutationSpec.validate (spec : SourceMutationSpec) : Except ValueError Unit := do
  raiseIf (¬(1 ≤ spec.line ∧ spec.line ≤ 10000000)) ⟨"line is out of range"⟩
  raiseIf (¬(1 ≤ spec.expectedLine.length ∧ spec.expectedLine.length ≤ 20000))
    ⟨"expected_line has an invalid length"⟩
  raiseIf ('\n' ∈ spec.expectedLine ∨ '\r' ∈ spec.expectedLine)
    ⟨"mutation target must contain exactly one source line"⟩
  mutationShapeMatchesKind isWord spec

end Patterns

/-! ## Applying and reverting -/

/-- `_decode_lines`: the bytes are those of a text when encoding gives them back. -/
def decodeLines (content : List UInt8) : Except ValueError (List (List Char)) := do
  raiseIf (encode (decode content) ≠ content) ⟨"mutation source must be valid UTF-8"⟩
  return splitLines (decode content)

/-- `_split_line_ending` -/
def splitLineEnding (line : List Char) : List Char × List Char :=
  if ['\r', '\n'].isSuffixOf line then (line.take (line.length - 2), ['\r', '\n'])
  else if line.getLast? = some '\n' then (line.dropLast, ['\n'])
  else if line.getLast? = some '\r' then (line.dropLast, ['\r'])
  else (line, [])

/-- The line that stands for a removed one. -/
def removalNote (kind : MutationKind) : List Char :=
  ("// mmaudit defensive mutation: " ++ kind.value).toList

/-- The line that the specification puts in the place of the current one. -/
def replacementFor (spec : SourceMutationSpec) (currentBody : List Char) :
    Except ValueError (List Char) :=
  if spec.kind.isRemoval then
    .ok (currentBody.take (currentBody.length - (lstrip currentBody).length) ++
      removalNote spec.kind)
  else
    match spec.originalOperator, spec.replacementOperator with
    | some original, some replacement => do
        raiseIf (count original.text currentBody ≠ 1)
          ⟨"mutation operator is not unique on the target line"⟩
        return replaceFirst original.text replacement.text currentBody
    | _, _ => .error ⟨"AssertionError"⟩

/-- A changed file, with the line before and after and the line ending. -/
structure LineChange where
  content : List UInt8
  currentBody : List Char
  replacement : List Char
  lineEnding : List Char
deriving DecidableEq, Repr

/-- `_mutated_source` -/
def mutatedSource (original : List UInt8) (spec : SourceMutationSpec) :
    Except ValueError LineChange := do
  let lines ← decodeLines original
  match lines[spec.line - 1]? with
  | none => .error ⟨"mutation line exceeds the source file"⟩
  | some line => do
      let (currentBody, lineEnding) := splitLineEnding line
      raiseIf (currentBody ≠ spec.expectedLine)
        ⟨"mutation target line does not match the planned source"⟩
      let replacement ← replacementFor spec currentBody
      return ⟨encode (lines.set (spec.line - 1) (replacement ++ lineEnding)).flatten, currentBody,
        replacement, lineEnding⟩

section Revert

variable {Digest : Type} [DecidableEq Digest] (sha256 : List UInt8 → Digest)

/-- `_replace_target_line` -/
def replaceTargetLine (current : List UInt8) (lineNumber : ℕ) (expectedOriginal : List Char)
    (expectedCurrentHash : Digest) (replacement replacementLineEnding : List Char) :
    Except ValueError LineChange := do
  let lines ← decodeLines current
  match lines[lineNumber - 1]? with
  | none => .error ⟨"mutation restoration line exceeds the source file"⟩
  | some line => do
      let (currentBody, currentLineEnding) := splitLineEnding line
      raiseIf (sha256 (encode currentBody) ≠ expectedCurrentHash)
        ⟨"mutation restoration target does not match applied evidence"⟩
      raiseIf (currentLineEnding ≠ replacementLineEnding)
        ⟨"mutation target line ending changed before restoration"⟩
      let restored := lines.set (lineNumber - 1) (expectedOriginal ++ replacementLineEnding)
      return ⟨encode restored.flatten, currentBody, replacement, replacementLineEnding⟩

/-- The call in `revert_source_mutation`, with the hash that the application recorded. -/
def restore (spec : SourceMutationSpec) (change : LineChange) : Except ValueError LineChange :=
  replaceTargetLine sha256 change.content spec.line spec.expectedLine
    (sha256 (encode change.replacement)) spec.expectedLine change.lineEnding

end Revert

end Mutations

end Benchmark

end MmAudit
