import MmAudit.Foundry.Results

/-!
# The reports of a generated harness

What Forge writes about a campaign of the generated contract: one suite, one result for
each test, the metrics of the functions of the handler, and for a failing property the
calls that broke it, each with the name and the signature of its function.
-/

namespace MmAudit

namespace Foundry

open Json

/-- How often each function of the handler was called in a number of runs. -/
structure Campaign where
  runs : ℕ
  calls : StatefulActionSpec → ℕ

def Campaign.total (campaign : Campaign) (harness : FoundryInvariantHarnessSpec) : ℕ :=
  (harness.actions.map campaign.calls).sum

/-- A property that failed and the calls that led there. -/
structure BrokenProperty where
  property : InvariantPropertySpec
  originalLength : ℕ
  calls : List StatefulActionSpec

/-- What a campaign of the harness can have been: the calls that broke a property are calls
of the campaign. -/
structure BrokenProperty.WellFormed (broken : BrokenProperty)
    (harness : FoundryInvariantHarnessSpec) : Prop where
  property_declared : broken.property ∈ harness.properties
  calls_declared : ∀ action ∈ broken.calls, action ∈ harness.actions
  calls_nonempty : broken.calls ≠ []
  shrunk : broken.calls.length ≤ broken.originalLength
  original_bounded : broken.originalLength ≤ harness.depth

/-- The metric of one function of the handler, with or without the name of the contract. -/
structure IsMetric (campaign : Campaign) (action : StatefulActionSpec)
    (metric : List Char × Json) : Prop where
  named : metric.1 = action.function.name ∨
    ∃ contract, metric.1 = contract ++ '.' :: action.function.name
  counted : ∃ fields, metric.2 = .object fields ∧
    field? fields "calls" = some (.int (campaign.calls action))

/-- One call of a counterexample. -/
def IsCall (action : StatefulActionSpec) (call : Json) : Prop :=
  ∃ fields, call = .object fields ∧
    field? fields "func_name" = some (.string action.function.name) ∧
    field? fields "signature" = some (.string action.function.abiSignature)

/-- The campaign of one property. -/
structure IsCampaign (harness : FoundryInvariantHarnessSpec) (campaign : Campaign)
    (reportedCalls : ℕ) (result : Fields) : Prop where
  runs_bounded : campaign.runs ≤ harness.runs
  calls_bounded : reportedCalls ≤ harness.runs * harness.depth
  reported : ∃ metadata metrics order,
    field? result "kind" = some (.object [("Invariant".toList, .object metadata)]) ∧
    field? metadata "runs" = some (.int campaign.runs) ∧
    field? metadata "calls" = some (.int reportedCalls) ∧
    field? metadata "metrics" = some (.object metrics) ∧
    order.Perm harness.actions ∧ List.Forall₂ (IsMetric campaign) order metrics

structure IsPassedProperty (harness : FoundryInvariantHarnessSpec) (campaign : Campaign)
    (result : Fields) : Prop where
  metered : IsCampaign harness campaign (campaign.total harness) result
  status : field? result "status" = some (.string "Success".toList)
  ran : 0 < campaign.runs ∧ 0 < campaign.total harness
  no_counterexample : field? result "counterexample" = none

structure IsBrokenProperty (harness : FoundryInvariantHarnessSpec) (broken : BrokenProperty)
    (campaign : Campaign) (reportedCalls : ℕ) (result : Fields) : Prop where
  metered : IsCampaign harness campaign reportedCalls result
  status : field? result "status" = some (.string "Failure".toList)
  counted : ∀ action, broken.calls.count action ≤ campaign.calls action
  sequence : ∃ calls, field? result "counterexample" =
      some (.object [("Sequence".toList, .array [.int broken.originalLength, .array calls])]) ∧
    List.Forall₂ IsCall broken.calls calls

/-- The result of a unit test that passed. -/
structure IsPassedTest (result : Fields) : Prop where
  status : field? result "status" = some (.string "Success".toList)
  kind : ∃ metadata, field? result "kind" = some (.object [("Unit".toList, .object metadata)])

/-- The result of one test of the generated contract. -/
inductive IsResult (harness : FoundryInvariantHarnessSpec) (broken? : Option BrokenProperty) :
    GeneratedTest → List Char × Json → Prop
  | settlement {result : Fields} (passed : IsPassedTest result) :
      IsResult harness broken? .settlement (settlementFunction.abiSignature, .object result)
  | passed {spec : InvariantPropertySpec} {campaign : Campaign} {result : Fields}
      (unbroken : ∀ broken, broken? = some broken → broken.property ≠ spec)
      (passed : IsPassedProperty harness campaign result) :
      IsResult harness broken? (.property spec) (spec.function.abiSignature, .object result)
  | failed {broken : BrokenProperty} {campaign : Campaign} {reportedCalls : ℕ} {result : Fields}
      (isBroken : broken? = some broken)
      (failed : IsBrokenProperty harness broken campaign reportedCalls result) :
      IsResult harness broken? (.property broken.property)
        (broken.property.function.abiSignature, .object result)

/-- A report in which every test passed, or exactly one property failed, with the exit code
that goes with it. -/
structure IsReport (harness : FoundryInvariantHarnessSpec) (broken? : Option BrokenProperty)
    (returnCode : ℤ) (report : Json) : Prop where
  wellFormed : ∀ broken, broken? = some broken → broken.WellFormed harness
  returned : returnCode = if broken?.isSome then 1 else 0
  suite : ∃ suite results order, report = .object [(harness.suiteName, .object suite)] ∧
    field? suite "test_results" = some (.object results) ∧
    order.Perm harness.tests ∧ List.Forall₂ (IsResult harness broken?) order results

end Foundry

end MmAudit
