import Mathlib.Data.List.Sort
import Mathlib.Data.List.Dedup

/-!
# The functions of a generated invariant harness

`translate_foundry_invariant` writes a handler with one function for each action and a
test contract with one function for each property, and with a further test when the
harness settles its finances.  A function of the handler takes one parameter for each
fuzz slot that the actor or the arguments of its action use.
-/

namespace MmAudit

namespace Foundry

/-! ## Identifiers -/

def isLetter (char : Char) : Bool :=
  ('A' ≤ char && char ≤ 'Z') || ('a' ≤ char && char ≤ 'z')

def isIdentifierCharacter (char : Char) : Bool :=
  isLetter char || ('0' ≤ char && char ≤ '9') || char = '_'

theorem bounds_of_isIdentifierCharacter {char : Char}
    (named : isIdentifierCharacter char = true) : 48 ≤ char.toNat ∧ char.toNat ≤ 122 := by
  simp only [isIdentifierCharacter, isLetter, Bool.or_eq_true, Bool.and_eq_true,
    decide_eq_true_eq, Char.le_def, UInt32.le_iff_toNat_le] at named
  rcases named with ((⟨low, high⟩ | ⟨low, high⟩) | ⟨low, high⟩) | rfl
  · exact ⟨le_trans (by decide) low, le_trans high (by decide)⟩
  · exact ⟨le_trans (by decide) low, le_trans high (by decide)⟩
  · exact ⟨low, le_trans high (by decide)⟩
  · decide

/-- A letter and at most so many further characters, as in `[A-Za-z][A-Za-z0-9_]{0,47}`. -/
def isIdentifier (further : ℕ) : List Char → Bool
  | [] => false
  | char :: rest =>
      isLetter char && rest.all isIdentifierCharacter && decide (rest.length ≤ further)

/-- The ID of an action or of a property. -/
structure Identifier where
  text : List Char
  valid : isIdentifier 47 text = true
deriving DecidableEq

/-! ## The specification -/

inductive HarnessArgumentSource where
  | constant
  | fuzzUint
  | actor
deriving DecidableEq, Repr

/-- An argument of an action.  A fuzzed one has a slot. -/
structure HarnessArgument where
  source : HarnessArgumentSource
  fuzzSlot : Option ℕ
  slotted : source ≠ .constant → fuzzSlot.isSome = true
deriving DecidableEq

structure StatefulActionSpec where
  actionId : Identifier
  actorFuzzSlot : Option ℕ
  arguments : List HarnessArgument
deriving DecidableEq

structure InvariantPropertySpec where
  propertyId : Identifier
deriving DecidableEq

/-- What decides about the generated functions.  `settlement` is the action of the settlement, if
there is one. -/
structure FoundryInvariantHarnessSpec where
  name : List Char
  actions : List StatefulActionSpec
  properties : List InvariantPropertySpec
  runs : ℕ
  depth : ℕ
  financialSettlement : Option Identifier
  name_valid : isIdentifier 63 name = true
  runs_bounded : 1 ≤ runs ∧ runs ≤ 100000
  depth_bounded : 1 ≤ depth ∧ depth ≤ 10000
  actions_distinct : (actions.map (·.actionId)).Nodup
  properties_distinct : (properties.map (·.propertyId)).Nodup
  properties_bounded : 1 ≤ properties.length ∧ properties.length ≤ 16
  settlement_declared : ∀ actionId, financialSettlement = some actionId →
    actionId ∈ actions.map (·.actionId)

/-! ## The generated functions -/

/-- A function of a generated contract. -/
structure GeneratedFunction where
  name : List Char
  parameters : List (List Char × List Char)
  modifiers : List Char
deriving DecidableEq, Repr

namespace GeneratedFunction

/-- The line that opens the function. -/
def header (function : GeneratedFunction) : List Char :=
  "    function ".toList ++ function.name ++ "(".toList ++
    ", ".toList.intercalate (function.parameters.map fun parameter =>
      parameter.1 ++ ' ' :: parameter.2) ++
    ") ".toList ++ function.modifiers ++ " \x7b".toList

/-- The name and the types of the parameters, as the function is called from outside. -/
def abiSignature (function : GeneratedFunction) : List Char :=
  function.name ++ '(' :: [','].intercalate (function.parameters.map Prod.fst) ++ [')']

end GeneratedFunction

/-- The slots that the arguments and the actor of an action use, in order. -/
def StatefulActionSpec.fuzzSlots (action : StatefulActionSpec) : List ℕ :=
  ((action.arguments.filter (·.source ≠ .constant)).filterMap (·.fuzzSlot) ++
    action.actorFuzzSlot.toList).dedup.insertionSort (· ≤ ·)

def actionPrefix : List Char :=
  "action_".toList

def invariantPrefix : List Char :=
  "invariant_".toList

/-- The function that `_action_lines` opens. -/
def StatefulActionSpec.function (action : StatefulActionSpec) : GeneratedFunction where
  name := actionPrefix ++ action.actionId.text
  parameters := action.fuzzSlots.map fun slot =>
    ("uint256".toList, "fuzz".toList ++ (toString slot).toList)
  modifiers := "external".toList

/-- The function that `_property_lines` opens. -/
def InvariantPropertySpec.function (property : InvariantPropertySpec) : GeneratedFunction where
  name := invariantPrefix ++ property.propertyId.text
  parameters := []
  modifiers := "public view".toList

/-- The test that `_financial_settlement_test_lines` opens. -/
def settlementFunction : GeneratedFunction where
  name := "test_MMAuditFinancialSettlement".toList
  parameters := []
  modifiers := "public".toList

/-- What Forge runs in the generated test contract. -/
inductive GeneratedTest where
  | property (spec : InvariantPropertySpec)
  | settlement
deriving DecidableEq

def GeneratedTest.function : GeneratedTest → GeneratedFunction
  | .property spec => spec.function
  | .settlement => settlementFunction

def FoundryInvariantHarnessSpec.tests (harness : FoundryInvariantHarnessSpec) :
    List GeneratedTest :=
  harness.properties.map .property ++
    if harness.financialSettlement.isSome then [.settlement] else []

/-- The generated contract. -/
def FoundryInvariantHarnessSpec.contract (harness : FoundryInvariantHarnessSpec) : List Char :=
  "MMAuditInvariant_".toList ++ harness.name

/-- The parts of the path of the generated file. -/
def FoundryInvariantHarnessSpec.fileParts (harness : FoundryInvariantHarnessSpec) :
    List (List Char) :=
  ["test".toList, "mmaudit_generated".toList, harness.contract ++ ".t.sol".toList]

/-- The name under which the generated contract is reported. -/
def FoundryInvariantHarnessSpec.suiteName (harness : FoundryInvariantHarnessSpec) : List Char :=
  ['/'].intercalate harness.fileParts ++ ':' :: harness.contract

def FoundryInvariantHarnessSpec.actionIds (harness : FoundryInvariantHarnessSpec) :
    List (List Char) :=
  harness.actions.map (·.actionId.text)

def FoundryInvariantHarnessSpec.propertyIds (harness : FoundryInvariantHarnessSpec) :
    List (List Char) :=
  harness.properties.map (·.propertyId.text)

end Foundry

end MmAudit
