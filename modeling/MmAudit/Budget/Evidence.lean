import MmAudit.CostLedger.Operations

/-!
# Budget requests and their evidence

A reservation carries self-contained evidence of the token counters before and
after it, and of the request count of its scheduled task.  This file translates
the value types of `orchestration/budgets.py`, their field checks, and how the
evidence is built.

The evidence also stores a hash of its own payload, and its validator hashes the
same payload again; that field is left out.
-/

namespace MmAudit

namespace Budget

open Fallible

/-- The failures of the budget manager, each with its message.  The text of a
cost that does not fit formats floating-point numbers, so that failure carries
its role and amount; a failed field constraint carries the field. -/
inductive BudgetError
  | exhausted (message : String)
  | costExhausted (role : String) (maximumCost : Decimal)
  | unprovenCostBound (message : String)
  | reservationState (message : String)
  | tokenOverrun (message : String)
  | value (message : String)
  | validation (field : String)
  | ledger (failure : CostLedger.CostLedgerError)
deriving DecidableEq, Repr

def maxMeteredUnits : ℤ := 2 ^ 63 - 1

/-! ## Field checks -/

def isModelCharacter (character : Char) : Bool :=
  character.isAlphanum || character == '.' || character == '_' || character == '-'

/-- The pattern `[A-Za-z0-9][A-Za-z0-9._-]{0,127}/[A-Za-z0-9][A-Za-z0-9._:-]{0,255}`. -/
def matchesModelIdPattern (identifier : String) : Bool :=
  match identifier.toList.span (· ≠ '/') with
  | (first :: rest, _ :: second :: tail) =>
      first.isAlphanum && rest.length ≤ 127 && rest.all isModelCharacter &&
        second.isAlphanum && tail.length ≤ 255 &&
        tail.all CostLedger.isRequestIdCharacter
  | _ => false

/-- Roles and request-limit scopes share the pattern of ledger request IDs. -/
def matchesRolePattern (identifier : String) : Bool :=
  CostLedger.matchesRequestIdPattern identifier

/-- The pattern `[0-9a-f]{64}`. -/
def matchesSha256Pattern (digest : String) : Bool :=
  digest.toList.length == 64 &&
    digest.toList.all fun character =>
      character.isDigit || ('a' ≤ character && character ≤ 'f')

/-- The characters that `str.isspace` accepts. -/
def isSpaceCharacter (character : Char) : Bool :=
  let code := character.toNat
  (9 ≤ code && code ≤ 13) || (28 ≤ code && code ≤ 32) || code == 0x85 || code == 0xa0 ||
    code == 0x1680 || (0x2000 ≤ code && code ≤ 0x200a) || code == 0x2028 || code == 0x2029 ||
    code == 0x202f || code == 0x205f || code == 0x3000

def validateTokenCount (count : ℤ) (field : String) : Except BudgetError ℤ := do
  raiseIf (¬ (0 ≤ count ∧ count ≤ maxMeteredUnits)) (.value s!"{field} is invalid")
  .ok count

def validateOptionalTokenCount (count : Option ℤ) (field : String) :
    Except BudgetError (Option ℤ) :=
  match count with
  | none => .ok none
  | some count => some <$> validateTokenCount count field

def validateScopeKey (key : String) (pattern : String → Bool) (scope : String) :
    Except BudgetError Unit :=
  raiseIf (¬ pattern key) (.value s!"{scope} budget key is invalid")

/-! ## Endpoint cost bounds -/

/-- Round an amount up to eighteen decimal places. -/
def quantizeCeiling (number : Decimal) : Decimal :=
  let shift := number.exponent + 18
  if 0 ≤ shift then
    ⟨number.coefficient * 10 ^ shift.toNat, -18⟩
  else
    ⟨-((-number.coefficient) / 10 ^ (-shift).toNat), -18⟩

/-- One endpoint pricing field and its request-specific unit ceiling. -/
structure EndpointPriceComponent where
  pricingField : String
  unitPriceUsd : Decimal
  maximumUnits : ℕ
deriving DecidableEq

/-- The price of all units, which the 96-digit context never rounds. -/
def EndpointPriceComponent.maximumCostUsd (component : EndpointPriceComponent) : Decimal :=
  ⟨component.unitPriceUsd.coefficient * component.maximumUnits,
    component.unitPriceUsd.exponent⟩

def componentsCostUsd (components : List EndpointPriceComponent) : Decimal :=
  quantizeCeiling ((components.map EndpointPriceComponent.maximumCostUsd).foldl
    Decimal.exactAdd 0)

/-- The maximum cost proof for one exact serialized request. -/
structure EndpointRequestCostBound where
  exactModelId : String
  providerEndpoint : String
  requestMaterialSha256 : String
  pricingSnapshotSha256 : String
  components : List EndpointPriceComponent
  exactModelId_valid : matchesModelIdPattern exactModelId = true
  maximumCostUsd_pos : 0 < componentsCostUsd components
deriving DecidableEq

namespace EndpointRequestCostBound

def maximumCostUsd (bound : EndpointRequestCostBound) : Decimal :=
  componentsCostUsd bound.components

def maximumUnitsFor (bound : EndpointRequestCostBound) (pricingField : String) :
    Except BudgetError ℕ :=
  match bound.components.find? fun component => component.pricingField = pricingField with
  | some component => .ok component.maximumUnits
  | none => .error (.unprovenCostBound
      s!"endpoint cost bound omits required {pricingField} pricing")

end EndpointRequestCostBound

/-! ## Token evidence -/

/-- A snapshot of the global token accounting. -/
structure TokenBudgetStateEvidence where
  spentInputTokens : ℤ
  reservedInputTokens : ℤ
  remainingInputTokens : Option ℤ
  spentOutputTokens : ℤ
  reservedOutputTokens : ℤ
  remainingOutputTokens : Option ℤ
deriving DecidableEq, Repr

def remainingTokenCapacity (limit : Option ℤ) (spent reserved : ℤ) (field : String) :
    Except BudgetError (Option ℤ) :=
  match limit with
  | none => .ok none
  | some limit => do
      raiseIf (limit - spent - reserved < 0)
        (.value s!"{field} token state exceeds its global limit")
      .ok (some (limit - spent - reserved))

/-- The constraint `0 ≤ field ≤ _MAX_METERED_UNITS` of a required field. -/
def requireMetered (field : String) (count : ℤ) : Except BudgetError Unit :=
  raiseIf (¬ (0 ≤ count ∧ count ≤ maxMeteredUnits)) (.validation field)

def requireOptionalMetered (field : String) : Option ℤ → Except BudgetError Unit
  | none => .ok ()
  | some count => requireMetered field count

def tokenBudgetState (inputLimit outputLimit : Option ℤ)
    (spentInput reservedInput spentOutput reservedOutput : ℤ) :
    Except BudgetError TokenBudgetStateEvidence := do
  let remainingInput ← remainingTokenCapacity inputLimit spentInput reservedInput "input"
  let remainingOutput ← remainingTokenCapacity outputLimit spentOutput reservedOutput "output"
  requireMetered "spent_input_tokens" spentInput
  requireMetered "reserved_input_tokens" reservedInput
  requireOptionalMetered "remaining_input_tokens" remainingInput
  requireMetered "spent_output_tokens" spentOutput
  requireMetered "reserved_output_tokens" reservedOutput
  requireOptionalMetered "remaining_output_tokens" remainingOutput
  .ok ⟨spentInput, reservedInput, remainingInput, spentOutput, reservedOutput, remainingOutput⟩

def validateTokenState (state : TokenBudgetStateEvidence) (inputLimit outputLimit : Option ℤ) :
    Except BudgetError Unit := do
  let expectedInput ← remainingTokenCapacity inputLimit state.spentInputTokens
    state.reservedInputTokens "input"
  raiseIf (state.remainingInputTokens ≠ expectedInput)
    (.value "input token remaining capacity is inconsistent")
  let expectedOutput ← remainingTokenCapacity outputLimit state.spentOutputTokens
    state.reservedOutputTokens "output"
  raiseIf (state.remainingOutputTokens ≠ expectedOutput)
    (.value "output token remaining capacity is inconsistent")

/-- The before and after proof for one token reservation. -/
structure AtomicTokenReservationEvidence where
  requestId : String
  exactModelId : String
  role : String
  requestTokenPlanSha256 : String
  plannedPromptTokens : ℤ
  plannedVisibleOutputTokens : ℤ
  plannedReasoningTokens : ℤ
  plannedCompletionTokens : ℤ
  globalInputTokenLimit : Option ℤ
  globalOutputTokenLimit : Option ℤ
  before : TokenBudgetStateEvidence
  after : TokenBudgetStateEvidence
deriving DecidableEq

namespace AtomicTokenReservationEvidence

/-- The constraints on the single fields. -/
def checkFields (evidence : AtomicTokenReservationEvidence) : Except BudgetError Unit := do
  raiseIf (¬ matchesSha256Pattern evidence.requestTokenPlanSha256)
    (.validation "request_token_plan_sha256")
  requireMetered "planned_prompt_tokens" evidence.plannedPromptTokens
  requireMetered "planned_visible_output_tokens" evidence.plannedVisibleOutputTokens
  requireMetered "planned_reasoning_tokens" evidence.plannedReasoningTokens
  requireMetered "planned_completion_tokens" evidence.plannedCompletionTokens
  requireOptionalMetered "global_input_token_limit" evidence.globalInputTokenLimit
  requireOptionalMetered "global_output_token_limit" evidence.globalOutputTokenLimit

/-- The checks across fields. -/
def checkBound (evidence : AtomicTokenReservationEvidence) : Except BudgetError Unit := do
  raiseIf (evidence.requestId = "") (.value "token reservation request ID is empty")
  raiseIf (256 < evidence.requestId.length ∨ (evidence.requestId.toList.any fun character =>
      isSpaceCharacter character || character.toNat < 32) = true)
    (.value "token reservation request ID is invalid")
  raiseIf (¬ matchesModelIdPattern evidence.exactModelId)
    (.value "token reservation requires an exact author/model ID")
  raiseIf (¬ matchesRolePattern evidence.role) (.value "token reservation role is invalid")
  validateTokenState evidence.before evidence.globalInputTokenLimit
    evidence.globalOutputTokenLimit
  validateTokenState evidence.after evidence.globalInputTokenLimit
    evidence.globalOutputTokenLimit
  raiseIf (evidence.before.spentInputTokens ≠ evidence.after.spentInputTokens ∨
      evidence.before.spentOutputTokens ≠ evidence.after.spentOutputTokens)
    (.value "token reservation may not change spent token counters")
  raiseIf (evidence.plannedVisibleOutputTokens + evidence.plannedReasoningTokens ≠
      evidence.plannedCompletionTokens)
    (.value "visible-output and reasoning reservations do not conserve completion tokens")
  raiseIf (evidence.before.reservedInputTokens + evidence.plannedPromptTokens ≠
      evidence.after.reservedInputTokens)
    (.value "input token reservation does not conserve tokens")
  raiseIf (evidence.before.reservedOutputTokens + evidence.plannedCompletionTokens ≠
      evidence.after.reservedOutputTokens)
    (.value "output token reservation does not conserve tokens")

def build (requestId exactModelId role requestTokenPlanSha256 : String)
    (plannedPrompt plannedVisible plannedReasoning plannedCompletion : ℤ)
    (inputLimit outputLimit : Option ℤ)
    (spentInputBefore reservedInputBefore spentOutputBefore reservedOutputBefore : ℤ) :
    Except BudgetError AtomicTokenReservationEvidence := do
  let before ← tokenBudgetState inputLimit outputLimit spentInputBefore reservedInputBefore
    spentOutputBefore reservedOutputBefore
  let after ← tokenBudgetState inputLimit outputLimit spentInputBefore
    (reservedInputBefore + plannedPrompt) spentOutputBefore
    (reservedOutputBefore + plannedCompletion)
  let evidence : AtomicTokenReservationEvidence := {
    requestId, exactModelId, role, requestTokenPlanSha256
    plannedPromptTokens := plannedPrompt
    plannedVisibleOutputTokens := plannedVisible
    plannedReasoningTokens := plannedReasoning
    plannedCompletionTokens := plannedCompletion
    globalInputTokenLimit := inputLimit
    globalOutputTokenLimit := outputLimit
    before, after }
  evidence.checkFields
  evidence.checkBound
  .ok evidence

end AtomicTokenReservationEvidence

/-- The request count reservation for one scheduled task. -/
structure AtomicRequestLimitReservationEvidence where
  requestId : String
  exactModelId : String
  role : String
  requestTokenPlanSha256 : String
  requestLimitScope : String
  requestLimitCountBefore : ℤ
  requestLimitCountAfter : ℤ
  requestLimitMaximum : ℤ
deriving DecidableEq

def AtomicRequestLimitReservationEvidence.build
    (requestId exactModelId role requestTokenPlanSha256 requestLimitScope : String)
    (countBefore maximum : ℤ) :
    Except BudgetError AtomicRequestLimitReservationEvidence := do
  raiseIf (¬ CostLedger.matchesRequestIdPattern requestId) (.validation "request_id")
  raiseIf (¬ matchesSha256Pattern requestTokenPlanSha256)
    (.validation "request_token_plan_sha256")
  raiseIf (¬ CostLedger.matchesRequestIdPattern requestLimitScope)
    (.validation "request_limit_scope")
  requireMetered "request_limit_count_before" countBefore
  raiseIf (¬ (1 ≤ countBefore + 1 ∧ countBefore + 1 ≤ maxMeteredUnits))
    (.validation "request_limit_count_after")
  raiseIf (¬ (1 ≤ maximum ∧ maximum ≤ maxMeteredUnits)) (.validation "request_limit_maximum")
  raiseIf (¬ matchesModelIdPattern exactModelId)
    (.value "request-limit reservation requires an exact author/model ID")
  raiseIf (¬ matchesRolePattern role) (.value "request-limit reservation role is invalid")
  raiseIf (maximum < countBefore + 1)
    (.value "request-limit reservation exceeds its configured maximum")
  .ok {
    requestId, exactModelId, role, requestTokenPlanSha256, requestLimitScope
    requestLimitCountBefore := countBefore
    requestLimitCountAfter := countBefore + 1
    requestLimitMaximum := maximum }

end Budget

end MmAudit
