import MmAudit.Formal.Textual
import MmAudit.Library.Dict
import MmAudit.Library.SortedSets

/-!
# Campaigns of the fuzz engines

A translated campaign of Echidna or Medusa is run, its output is normalized, the generated names
are mapped back to the corpus and the status is decided.  The outcomes of the engines are then
compared property by property.
-/

namespace MmAudit

namespace Formal

open Backtracking SortedSets

/-! ## The engines -/

/-- What the two adapters differ in. -/
structure FuzzEngine where
  name : String
  passedStatuses : List String
  counterexampleStatuses : List String

/-- `EchidnaAdapter` -/
def echidna : FuzzEngine where
  name := "echidna"
  passedStatuses := ["passed", "success", "succeeded"]
  counterexampleStatuses := ["falsified", "failed", "failure", "counterexample"]

/-- `MedusaAdapter` -/
def medusa : FuzzEngine where
  name := "medusa"
  passedStatuses := ["passed", "success", "succeeded", "property_test_passed"]
  counterexampleStatuses :=
    ["falsified", "failed", "failure", "counterexample", "property_test_failed"]

inductive ResultOutcome where
  | passed
  | counterexample
deriving DecidableEq

variable (texts : Texts) (engine : FuzzEngine)

/-- The outcome that the status of an object stands for. -/
def resultOutcome (item : Json.Fields) : Option ResultOutcome :=
  let status := normalizedStatus texts item
  if engine.passedStatuses.any (·.toList = status) then some .passed
  else if engine.counterexampleStatuses.any (·.toList = status) then some .counterexample
  else none

/-- What an object says about which property. -/
def propertyResult (item : Json.Fields) : Option (List Char × ResultOutcome) := do
  let propertyName ← propertyNameFromJson texts item
  let outcome ← resultOutcome texts engine item
  return (propertyName, outcome)

/-- A step of a call sequence as it is kept. -/
def normalizedStep (value : Json) : Json :=
  match value with
  | .array _ | .object _ => (texts.loads (texts.dumps value)).getD value
  | other => other

/-- `_echidna_counterexample` -/
def echidnaCounterexample (item : Json.Fields) : Json.Fields :=
  let serialized := (texts.dumps (.object item)).take 4000
  let sequence := ["callseq", "sequence", "transactions", "calls"].findSome? fun key =>
    (Json.get? item key).bind Json.array?
  [("summary".toList, .string (boundedSummary serialized)),
    ("sequence".toList, .array (((sequence.getD []).take 64).map (normalizedStep texts)))] ++
  ["seed", "test", "error"].filterMap fun key =>
    match Json.get? item key with
    | none | some .null | some (.array _) | some (.object _) => none
    | some value => some (key.toList, value)

/-- The evidence of one result. -/
def resultEvidence (item : Json.Fields) (propertyName : List Char) :
    ResultOutcome → FormalEvidence
  | .passed => propertyPassEvidence engine.name propertyName
  | .counterexample =>
      propertyCounterexampleEvidence engine.name propertyName (echidnaCounterexample texts item)

/-- The loop over the objects, which takes the first result of each kind for a property. -/
def resultLoop : List Json.Fields → List (List Char × ResultOutcome) → List FormalEvidence
  | [], _ => []
  | item :: items, seen =>
      match propertyResult texts engine item with
      | none => resultLoop items seen
      | some key =>
          if key ∈ seen then resultLoop items seen
          else resultEvidence texts engine item key.1 key.2 :: resultLoop items (key :: seen)

/-- The documents in both streams. -/
def payloads (stdout stderr : List Char) : List Json :=
  jsonDocuments texts stdout ++ jsonDocuments texts stderr

/-- `EchidnaAdapter.parse` and `MedusaAdapter.parse`; neither reads the machine output. -/
def parse (stdout stderr : List Char) : List FormalEvidence :=
  match resultLoop texts engine (walkedDicts (payloads texts stdout stderr)) [] with
  | [] => parseTextual engine.name stdout stderr
  | evidence => evidence

/-- `validates_machine_output` -/
def validatesMachineOutput (stdout stderr : List Char) : Bool :=
  (walkedDicts (payloads texts stdout stderr)).any fun item =>
    (propertyNameFromJson texts item).isSome &&
      (engine.passedStatuses ++ engine.counterexampleStatuses).any
        (·.toList = normalizedStatus texts item)

/-! ## The run -/

/-- A property of the corpus, as far as the evidence takes it. -/
structure DynamicPropertySpec where
  id : List Char
  description : List Char
  assumptions : List (List Char)
  propertyHash : List Char

/-- `PropertyEngineTranslation` -/
structure PropertyEngineTranslation where
  propertyMap : Dict (List Char) DynamicPropertySpec
  seed : Option ℤ
  runs : ℤ
  depth : ℤ
  sourcePath : List Char
  configurationPath : List Char
  propertyMapPath : List Char
  assumptions : List (List Char)

/-- What the counterexample of mapped evidence says beyond the engine's own. -/
def replayFields (translation : PropertyEngineTranslation) : Json :=
  .object [("seed".toList, (translation.seed.map Json.int).getD .null),
    ("runs".toList, .int translation.runs), ("depth".toList, .int translation.depth),
    ("clean_workspace_required".toList, .bool true)]

/-- One turn of the loop of `_remap_property_engine_evidence`. -/
def remapped (translation : PropertyEngineTranslation) (corpusHash : List Char)
    (item : FormalEvidence) (propertySpec : DynamicPropertySpec) : FormalEvidence :=
  { item with
    propertyId := propertySpec.id
    propertyDescription := propertySpec.description
    assumptions := sortedSet (item.assumptions ++ propertySpec.assumptions ++
      translation.assumptions)
    counterexample := [("generated_property", .string item.propertyId),
      ("property_hash", .string propertySpec.propertyHash), ("corpus_hash", .string corpusHash),
      ("replay", replayFields translation)].foldl
        (fun fields field => Json.setField fields field.1 field.2) item.counterexample
    artifactPaths := ([translation.sourcePath, translation.configurationPath,
      translation.propertyMapPath].filter (· ≠ [])).map ("workspace/".toList ++ ·) }

/-- `_remap_property_engine_evidence` -/
def remapPropertyEngineEvidence (evidence : List FormalEvidence)
    (translation : PropertyEngineTranslation) (corpusHash : List Char) : List FormalEvidence :=
  evidence.filterMap fun item =>
    (translation.propertyMap.get? item.propertyId).map (remapped translation corpusHash item)

/-- What `_bounded_process` returns. -/
inductive ProcessResult where
  | exited (code : ℤ)
  | timedOut
  | outputExceeded
deriving DecidableEq

namespace ProcessResult

def exitCode? : ProcessResult → Option ℤ
  | exited code => some code
  | timedOut | outputExceeded => none

/-- The status before the output is looked at, and the reason of a failure. -/
def status : ProcessResult → FormalToolStatus × Option String
  | timedOut => (.timedOut, some "formal engine exceeded its wall-clock limit")
  | outputExceeded => (.failed, some "formal engine output exceeded its private output limit")
  | exited code =>
      if code = 0 then (.success, none)
      else (.inconclusive, some ("formal engine exited with code " ++ toString code))

end ProcessResult

/-- A run, as far as its properties are concerned. -/
structure FormalToolRun where
  tool : String
  status : FormalToolStatus
  evidence : List FormalEvidence
  translatedProperties : ℕ
  executedPropertyIds : List (List Char)
  observedPropertyIds : List (List Char)
  processExitCode : Option ℤ
  machineOutputValidated : Bool
  failureReason : Option String

/-- `sorted(spec.id for spec in property_map.values())` -/
def PropertyEngineTranslation.executedPropertyIds (translation : PropertyEngineTranslation) :
    List (List Char) :=
  (translation.propertyMap.values.map (·.id)).insertionSort (· ≤ ·)

/-- The evidence that the run keeps. -/
def runEvidence (translation : PropertyEngineTranslation) (corpusHash : List Char)
    (result : ProcessResult) (stdout stderr : List Char) : List FormalEvidence :=
  let evidence := match result.status.1 with
    | .success | .inconclusive => parse texts engine stdout stderr
    | _ => []
  let evidence := if translation.propertyMap.items = [] then evidence
    else remapPropertyEngineEvidence evidence translation corpusHash
  if translation.assumptions = [] then evidence
  else evidence.map fun item =>
    { item with assumptions := sortedSet (item.assumptions ++ translation.assumptions) }

/-- Whether the observed results make the run a success. -/
def observationComplete (executed observed : List (List Char)) (validated : Bool)
    (result : ProcessResult) (evidence : List FormalEvidence) : Bool :=
  validated && result.exitCode?.any (fun code => code = 0 || code = 1) &&
    observed = executed && evidence.length = executed.length &&
    evidence.all fun item =>
      item.status = .success && (item.resultKind = .none || item.resultKind = .counterexample)

theorem lawfulBEq_propertyId : LawfulBEq (List Char) :=
  inferInstance

attribute [local instance] lawfulBEq_propertyId

/-- The result handling of `_run_adapter` for a translated campaign. -/
def runAdapter (translation : PropertyEngineTranslation) (corpusHash : List Char)
    (result : ProcessResult) (stdout stderr : List Char) : FormalToolRun :=
  let evidence := runEvidence texts engine translation corpusHash result stdout stderr
  let executed := translation.executedPropertyIds
  let observed := sortedSet ((evidence.map (·.propertyId)).filter (· ∈ executed))
  let validated := validatesMachineOutput texts engine stdout stderr
  let complete := observationComplete executed observed validated result evidence
  { tool := engine.name
    status := if complete then .success else result.status.1
    evidence
    translatedProperties := translation.propertyMap.items.length
    executedPropertyIds := executed
    observedPropertyIds := observed
    processExitCode := result.exitCode?
    machineOutputValidated := validated
    failureReason := if complete then none else result.status.2 }

/-! ## The comparison -/

inductive DynamicPropertyOutcome where
  | counterexample
  | noCounterexample
  | inconclusive
  | notExecuted
deriving DecidableEq

structure DynamicEngineComparison where
  propertyId : List Char
  outcomes : List (String × DynamicPropertyOutcome)
  disagreement : Bool

/-- The outcome of a property in the run of an engine. -/
def dynamicOutcome (run : Option FormalToolRun) (propertyId : List Char) :
    DynamicPropertyOutcome :=
  match run with
  | none => .notExecuted
  | some run =>
      if propertyId ∉ run.executedPropertyIds then .notExecuted
      else if run.evidence.any fun evidence =>
          evidence.propertyId = propertyId && evidence.resultKind = .counterexample then
        .counterexample
      else if run.status = .success then .noCounterexample
      else .inconclusive

/-- `compare_dynamic_engine_outcomes` -/
def compareDynamicEngineOutcomes (runs : List FormalToolRun) : List DynamicEngineComparison :=
  let engines := [echidna.name, medusa.name]
  let byEngine := fun name => runs.find? (·.tool = name)
  let propertyIds := sortedSet
    ((engines.filterMap byEngine).flatMap (·.executedPropertyIds))
  propertyIds.map fun propertyId =>
    let outcomes := engines.map fun name => (name, dynamicOutcome (byEngine name) propertyId)
    { propertyId
      outcomes
      disagreement := decide (1 < (outcomes.map Prod.snd).dedup.length) }

end Formal

end MmAudit
