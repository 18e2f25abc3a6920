import MmAudit.Foundry.Harness
import MmAudit.Library.Dict
import MmAudit.Library.Fallible
import MmAudit.Library.Json

/-!
# Reading the report of an invariant campaign

Forge writes one JSON document.  `_structured_foundry_invariant_result` accepts it when it
has one suite, one result for each property and no other result, and campaign metrics that
agree with the outcome; of a failing property it takes the sequence of calls.

The JSON reader of the standard library, with hooks against repeated keys and non-finite
numbers, is a parameter.
-/

namespace MmAudit

namespace Foundry

open Fallible Json

structure ValueError where
  message : String
deriving DecidableEq, Repr

inductive FoundryStatus where
  | pass
  | fail
  | skip
deriving DecidableEq, Repr

inductive FoundryKind where
  | unit
  | fuzz
  | invariant
deriving DecidableEq, Repr

/-- `_foundry_status` -/
def foundryStatus (result : Fields) : Except ValueError FoundryStatus :=
  match (field? result "status").bind string? with
  | none => .error ⟨"Forge JSON contains an unknown test status"⟩
  | some status =>
      if status = "Success".toList then .ok .pass
      else if status = "Failure".toList then .ok .fail
      else if status = "Skipped".toList then .ok .skip
      else .error ⟨"Forge JSON contains an unknown test status"⟩

/-- `_foundry_nonnegative_integer` -/
def foundryNonnegativeInteger (metadata : Fields) (field : String) : Except ValueError ℤ :=
  match (field? metadata field).bind int? with
  | some value =>
      if value < 0 ∨ 2 ^ 63 - 1 < value then
        .error ⟨"Forge JSON " ++ field ++ " must be a bounded non-negative integer"⟩
      else
        .ok value
  | none => .error ⟨"Forge JSON " ++ field ++ " must be a bounded non-negative integer"⟩

/-- `_foundry_kind` -/
def foundryKind (result : Fields) : Except ValueError (FoundryKind × Fields) :=
  match (field? result "kind").bind object? with
  | some [(name, .object metadata)] =>
      if name = "Unit".toList then
        .ok (.unit, metadata)
      else if name = "Fuzz".toList then do
        let _ ← foundryNonnegativeInteger metadata "runs"
        return (.fuzz, metadata)
      else if name = "Invariant".toList then do
        let _ ← foundryNonnegativeInteger metadata "runs"
        let _ ← foundryNonnegativeInteger metadata "calls"
        return (.invariant, metadata)
      else
        .error ⟨"Forge JSON contains an unsupported test kind"⟩
  | some [_] => .error ⟨"Forge JSON contains an unsupported test kind"⟩
  | _ => .error ⟨"Forge JSON test kind must contain one typed variant"⟩

/-! ## Suites -/

def isControl (char : Char) : Bool :=
  decide (char.toNat < 32) || char.toNat == 127

/-- What stands before and after the last colon of a text. -/
def splitAtLastColon (text : List Char) : Option (List Char × List Char) :=
  match text.reverse.splitOn ':' with
  | [] | [_] => none
  | contract :: path => some (([':'].intercalate path).reverse, contract.reverse)

/-- The path of a suite: relative and in normal form. -/
def isRelativePath (path : List Char) : Bool :=
  !path.contains '\\' && (path = ['.'] ||
    (path.splitOn '/').all fun part =>
      !part.isEmpty && part ≠ ".".toList && part ≠ "..".toList)

/-- The checks of the name of a suite. -/
def checkSuiteName (name : List Char) : Except ValueError Unit := do
  raiseIf (2000 < name.length ∨ name.any isControl ∨ ¬ ':' ∈ name)
    ⟨"Forge JSON contains an invalid suite identifier"⟩
  match splitAtLastColon name with
  | none => .error ⟨"Forge JSON contains an invalid suite identifier"⟩
  | some (path, contract) =>
      raiseIf (!isRelativePath path || contract.isEmpty)
        ⟨"Forge JSON suite identifier is not repository-relative"⟩

/-- The checks of one test of a suite. -/
def checkTest (test : List Char × Json) : Except ValueError Unit :=
  match test.2 with
  | .object result => do
      raiseIf (test.1 = [] ∨ 1000 < test.1.length ∨ test.1.any isControl)
        ⟨"Forge JSON contains an invalid test result"⟩
      let _ ← foundryStatus result
      let _ ← foundryKind result
      return ()
  | _ => .error ⟨"Forge JSON contains an invalid test result"⟩

/-- One turn of the loop over the suites, with the number of tests before it. -/
def suiteStep (total : ℕ) (suite : List Char × Json) : Except ValueError ℕ := do
  checkSuiteName suite.1
  match suite.2 with
  | .object fields =>
      match (field? fields "test_results").bind object? with
      | none => .error ⟨"Forge JSON suite is missing test_results"⟩
      | some tests =>
          raiseIf (200000 < total + tests.length)
            ⟨"Forge JSON test count exceeds the execution bound"⟩
          tests.forM checkTest
          return total + tests.length
  | _ => .error ⟨"Forge JSON suite must be an object"⟩

/-- `_foundry_suites` -/
def foundrySuites (loads : String → Except ValueError Json) (stdout : String) :
    Except ValueError Fields := do
  let payload ← loads stdout
  match payload with
  | .object suites =>
      raiseIf (10000 < suites.length) ⟨"Forge JSON suite count exceeds the execution bound"⟩
      let sorted := suites.insertionSort fun suite other => suite.1 ≤ other.1
      let _ ← sorted.foldlM suiteStep 0
      return sorted
  | _ => .error ⟨"Forge JSON root must be a suite object"⟩

/-! ## Names -/

/-- `re.fullmatch(prefix + "([A-Za-z][A-Za-z0-9_]{0,47})", name)` -/
def idAfter (start name : List Char) : Option (List Char) :=
  if start <+: name then
    let rest := name.drop start.length
    if isIdentifier 47 rest then some rest else none
  else
    none

/-- Where a line end may stand before the end of a searched text. -/
def withoutFinalFeed (text : List Char) : List Char :=
  if text.getLast? = some '\n' then text.dropLast else text

/-- What follows each dot of a text. -/
def afterDots : List Char → List (List Char)
  | [] => []
  | char :: rest => if char = '.' then rest :: afterDots rest else afterDots rest

/-- `re.search(r"(?:^|\.)action_([A-Za-z][A-Za-z0-9_]{0,47})$", name)` -/
def metricActionId (name : List Char) : Option (List Char) :=
  (name :: afterDots name).findSome? fun suffix =>
    (idAfter actionPrefix suffix).or (idAfter actionPrefix (withoutFinalFeed suffix))

/-! ## Campaigns -/

/-- What the metrics of a handler add up to. -/
structure HandlerCalls where
  calls : ℤ
  actionIds : List (List Char)

/-- One turn of the loop over the metrics. -/
def metricStep (actionIds : Option (List (List Char))) (total : HandlerCalls)
    (metric : List Char × Json) : Except ValueError HandlerCalls :=
  match metric.2 with
  | .object fields =>
      match (field? fields "calls").bind int? with
      | none => .error ⟨"Foundry invariant handler call count is invalid"⟩
      | some count => do
          raiseIf (count < 0) ⟨"Foundry invariant handler call count is invalid"⟩
          match metricActionId metric.1 with
          | none => return { total with calls := total.calls + count }
          | some actionId =>
              raiseIf (actionIds.any fun declared => !declared.contains actionId)
                ⟨"Foundry invariant metrics contain an undeclared action"⟩
              return {
                calls := total.calls + count
                actionIds := if 0 < count then total.actionIds ++ [actionId]
                  else total.actionIds }
  | _ => .error ⟨"Foundry invariant handler metric is malformed"⟩

structure FoundryCounterexampleSequence where
  originalLength : ℤ
  shrunkLength : ℕ
  actionIds : List (List Char)

/-- The action that one call of a counterexample names. -/
def counterexampleCall (actionIds : Option (List (List Char))) (call : Json) :
    Except ValueError (List Char) :=
  match call with
  | .object fields =>
      match (field? fields "func_name").bind string?, (field? fields "signature").bind string? with
      | some name, some signature => do
          raiseIf (signature ≠ name ++ "()".toList)
            ⟨"Foundry invariant counterexample call has no exact function"⟩
          match idAfter actionPrefix name with
          | none => .error ⟨"Foundry invariant counterexample contains a non-action call"⟩
          | some actionId =>
              raiseIf (actionIds.any fun declared => !declared.contains actionId)
                ⟨"Foundry invariant counterexample contains an undeclared action"⟩
              return actionId
      | _, _ => .error ⟨"Foundry invariant counterexample call has no exact function"⟩
  | _ => .error ⟨"Foundry invariant counterexample call is malformed"⟩

/-- `_validated_structured_counterexample` -/
def validatedStructuredCounterexample (counterexample : Option Json)
    (actionIds : Option (List (List Char))) : Except ValueError FoundryCounterexampleSequence :=
  match counterexample with
  | some (.object [(name, payload)]) =>
      if name ≠ "Sequence".toList then
        .error ⟨"Foundry invariant counterexample is not one typed sequence"⟩
      else
        match payload with
        | .array [.int originalLength, .array calls] => do
            raiseIf (originalLength < 1 ∨ 10000 < originalLength ∨ calls.isEmpty = true ∨
                originalLength < calls.length)
              ⟨"Foundry invariant counterexample sequence is empty or out of bounds"⟩
            let observed ← calls.mapM (counterexampleCall actionIds)
            return { originalLength, shrunkLength := observed.length, actionIds := observed }
        | .array [_, _] =>
            .error ⟨"Foundry invariant counterexample sequence is empty or out of bounds"⟩
        | _ => .error ⟨"Foundry invariant counterexample sequence is malformed"⟩
  | _ => .error ⟨"Foundry invariant counterexample is not one typed sequence"⟩

/-! ## The campaign -/

/-- What the loop over the results has found. -/
structure CampaignState where
  observed : List (List Char × FoundryStatus)
  observations : List (List Char)
  counterexamples : List (List Char)
  campaignRuns : ℤ
  campaignCalls : ℤ

def CampaignState.start : CampaignState :=
  ⟨[], [], [], 0, 0⟩

/-- The lines that stand for one counterexample. -/
def counterexampleText (sequence : FoundryCounterexampleSequence) (propertyId : List Char) :
    List Char :=
  ['\n'].intercalate
    (["[Sequence] (original: ".toList ++ (toString sequence.originalLength).toList ++
        ", shrunk: ".toList ++ (toString sequence.shrunkLength).toList ++ [')']] ++
      sequence.actionIds.map (fun actionId => "calldata=action_".toList ++ actionId ++ "()".toList) ++
      [invariantPrefix ++ propertyId ++ "()".toList])

/-- What one turn of the loop over the results makes of the outcome of a property. -/
def outcomeStep (actionIds : Option (List (List Char))) (state : CampaignState)
    (propertyId : List Char) (result : Fields) (runs calls : ℤ) (handler : HandlerCalls) :
    FoundryStatus → Except ValueError CampaignState
  | .pass => do
      raiseIf (runs ≤ 0 ∨ calls ≤ 0 ∨ handler.calls ≠ calls ∨
          (field? result "counterexample").isSome = true)
        ⟨"passing Foundry invariant campaign evidence is empty"⟩
      return { state with
        campaignRuns := state.campaignRuns + runs
        campaignCalls := state.campaignCalls + calls }
  | .skip => return state
  | .fail => do
      let sequence ← validatedStructuredCounterexample (field? result "counterexample") actionIds
      raiseIf (handler.calls < sequence.actionIds.length ∨
          !sequence.actionIds.all handler.actionIds.contains)
        ⟨"Foundry invariant handler metrics omit the counterexample calls"⟩
      return { state with
        counterexamples := state.counterexamples ++ [counterexampleText sequence propertyId]
        campaignRuns := state.campaignRuns + runs + 1
        campaignCalls := state.campaignCalls + max calls handler.calls }

/-- One turn of the loop over the results. -/
def resultStep (propertyIds : List (List Char)) (actionIds : Option (List (List Char)))
    (state : CampaignState) (entry : List Char × Json) : Except ValueError CampaignState :=
  match entry.2 with
  | .object result =>
      match idAfter invariantPrefix (entry.1.takeWhile (· ≠ '(')) with
      | none => .error ⟨"Foundry invariant output contains an unexpected test"⟩
      | some propertyId => do
          raiseIf (!propertyIds.contains propertyId)
            ⟨"Foundry invariant output contains an unexpected test"⟩
          raiseIf ((state.observed.map Prod.fst).contains propertyId)
            ⟨"Foundry invariant property result is duplicated"⟩
          let status ← foundryStatus result
          let (kind, metadata) ← foundryKind result
          raiseIf (kind ≠ .invariant)
            ⟨"Foundry generated invariant has a non-invariant test kind"⟩
          match (field? metadata "runs").bind int?, (field? metadata "calls").bind int? with
          | some runs, some calls =>
              raiseIf (runs < 0 ∨ calls < 0) ⟨"Foundry invariant campaign metrics are invalid"⟩
              let metrics := (field? metadata "metrics").bind object?
              raiseIf (status ≠ .skip ∧ (metrics.getD []).isEmpty = true)
                ⟨"Foundry invariant lacks handler campaign metrics"⟩
              let handler ← (metrics.getD []).foldlM (metricStep actionIds) ⟨0, []⟩
              let observations := state.observations ++ handler.actionIds.map fun actionId =>
                "observed=action_".toList ++ actionId ++ "()".toList
              let entered := { state with
                observed := state.observed ++ [(propertyId, status)]
                observations := observations }
              outcomeStep actionIds entered propertyId result runs calls handler status
          | _, _ => .error ⟨"Foundry invariant campaign metrics are invalid"⟩
  | _ => .error ⟨"Forge JSON contains an invalid test result"⟩

inductive InvariantExecutionStatus where
  | notAttempted
  | generationFailed
  | environmentBlocked
  | compileFailed
  | executionFailed
  | timedOut
  | passed
  | counterexample
deriving DecidableEq, Repr

structure StructuredResult where
  status : InvariantExecutionStatus
  counterexample : Option (List Char)
  structuredText : List Char
  observedPropertyIds : List (List Char)
  campaignRuns : ℤ
  campaignCalls : ℤ

/-- What `_structured_foundry_invariant_result` makes of the results of the suite. -/
def campaignResult (returnCode : ℤ) (propertyIds : List (List Char))
    (actionIds : Option (List (List Char))) (results : Fields) :
    Except ValueError StructuredResult := do
  let state ← results.foldlM (resultStep propertyIds actionIds) .start
  raiseIf (!(state.observed.map Prod.fst).all propertyIds.contains ∨
      !propertyIds.all (state.observed.map Prod.fst).contains ∨
      (state.observed.any fun observed => observed.2 = .skip) = true)
    ⟨"Foundry invariant results do not exactly cover declared properties"⟩
  let failures := state.observed.filter fun observed => observed.2 = .fail
  raiseIf (!failures.isEmpty ∧ returnCode ≠ 1 ∨ failures.isEmpty = true ∧ returnCode ≠ 0)
    ⟨"Foundry invariant process exit disagrees with structured outcomes"⟩
  raiseIf (1 < state.counterexamples.length)
    ⟨"Foundry invariant output contains ambiguous counterexamples"⟩
  return {
    status := if failures.isEmpty then .passed else .counterexample
    counterexample := if failures.isEmpty then none
      else some ((toString failures.length).toList ++
        (" generated invariant property result(s) failed with a validated " ++
          "sequence").toList)
    structuredText := ['\n'].intercalate
      (state.observations.dedup.insertionSort (· ≤ ·) ++ state.counterexamples)
    observedPropertyIds := (state.observed.map Prod.fst).insertionSort (· ≤ ·)
    campaignRuns := state.campaignRuns
    campaignCalls := state.campaignCalls }

/-- `_structured_foundry_invariant_result` -/
def structuredFoundryInvariantResult (loads : String → Except ValueError Json) (stdout : String)
    (returnCode : ℤ) (propertyIds : List (List Char)) (actionIds : Option (List (List Char))) :
    Except ValueError StructuredResult := do
  raiseIf (returnCode ≠ 0 ∧ returnCode ≠ 1 ∨ propertyIds.isEmpty = true)
    ⟨"Foundry invariant process or property inventory is invalid"⟩
  let suites ← foundrySuites loads stdout
  match suites with
  | [(_, .object suite)] =>
      campaignResult returnCode propertyIds actionIds
        (((field? suite "test_results").bind object?).getD [])
  | _ => .error ⟨"Foundry invariant output must contain one generated suite"⟩

/-! ## The execution -/

/-- What the runner keeps of one execution: the validated result, or what the legacy reading of
the texts says. -/
structure InvariantExecution where
  status : InvariantExecutionStatus
  machineOutputValidated : Bool

/-- The handling of the result in `FoundryInvariantRunner._execute`. -/
def invariantExecution (loads : String → Except ValueError Json)
    (normalizeFoundryInvariantOutput : ℤ → String → InvariantExecutionStatus)
    (stdout stderr : String) (returnCode : ℤ) (propertyIds actionIds : List (List Char)) :
    InvariantExecution :=
  match structuredFoundryInvariantResult loads stdout returnCode propertyIds (some actionIds) with
  | .ok result => ⟨result.status, true⟩
  | .error _ => ⟨normalizeFoundryInvariantOutput returnCode (stdout ++ "\n" ++ stderr), false⟩

end Foundry

end MmAudit
