import MmAudit.Budget.Evidence
import MmAudit.Library.DecimalRounding

/-!
# Endpoint pricing

A cost bound is built from the prices that an endpoint advertises, as decimal texts, and a
maximum number of units for each price.  Every price is normalized in the default context, which
keeps 28 digits; products and their sum are formed with 96 digits and rounded up to 18 decimal
places.
-/

namespace MmAudit

namespace Budget

open Fallible

/-- `decimal.InvalidOperation`, or a `ValueError` with its message. -/
inductive PricingError
  | value (message : String)
  | invalidOperation
deriving DecidableEq, Repr

/-! ## Decimal texts -/

/-- The text after an optional sign, and whether the sign is negative. -/
def splitSign : List Char → Bool × List Char
  | '-' :: rest => (true, rest)
  | '+' :: rest => (false, rest)
  | text => (false, text)

/-- An optionally signed run of digits. -/
def integerOfText (text : List Char) : Option ℤ :=
  let (negative, digits) := splitSign text
  if digits ≠ [] ∧ digits.all Char.isDigit = true then
    let magnitude : ℤ := Nat.ofDigitChars 10 digits 0
    some (if negative then -magnitude else magnitude)
  else
    none

/-- The limits of an exact conversion. -/
def withinConversionLimits (number : Decimal) : Bool :=
  decide (-1999999999999999997 ≤ number.exponent) &&
    decide (Decimal.numDigits number.coefficient.natAbs + number.exponent ≤ 10 ^ 18)

def isExponentMark (char : Char) : Bool :=
  char == 'e' || char == 'E'

/-- An unsigned number with an optional exponent. -/
def magnitudeOfText (text : List Char) : Option Decimal := do
  let mantissa ← Decimal.parse (text.takeWhile (!isExponentMark ·))
  match text.dropWhile (!isExponentMark ·) with
  | [] => some mantissa
  | _ :: exponentText =>
      let exponent ← integerOfText exponentText
      some ⟨mantissa.coefficient, mantissa.exponent + exponent⟩

/-- The texts of values that are not finite, in lower case. -/
def specialOfText (text : List Char) : Option CostLedger.DecimalArgument :=
  let lower := text.map Char.toLower
  if lower = "inf".toList ∨ lower = "infinity".toList then
    some .infinite
  else
    let payload := lower.dropWhile fun char => !char.isDigit
    if payload.all Char.isDigit = true ∧
        (lower.takeWhile (fun char => !char.isDigit) = "nan".toList ∨
          lower.takeWhile (fun char => !char.isDigit) = "snan".toList) then
      some .notANumber
    else
      none

/-- `Decimal(text)`: underscores are ignored, and `asciiDigit` replaces the decimal digits of
other scripts. -/
def decimalOfText (asciiDigit : Char → Char) (text : List Char) :
    Option CostLedger.DecimalArgument :=
  let (negative, unsigned) := splitSign ((text.filter (· ≠ '_')).map asciiDigit)
  match specialOfText unsigned with
  | some special => some special
  | none => do
      let number ← magnitudeOfText unsigned
      let signed : Decimal :=
        ⟨if negative then -number.coefficient else number.coefficient, number.exponent⟩
      if withinConversionLimits signed then some (.finite signed) else none

/-! ## Prices -/

/-- A price as the pricing object may hold it. -/
inductive PriceArgument
  | text (text : List Char)
  | decimal (value : CostLedger.DecimalArgument)
  | other
deriving DecidableEq, Repr

def maxPriceDecimalPlaces : ℤ := 36

def maxPriceIntegerDigits : ℤ := 12

/-- `_validate_price` -/
def validatePrice (price : CostLedger.DecimalArgument) : Except PricingError Decimal :=
  match price with
  | .finite number => do
      raiseIf (number < 0) (.value "endpoint price must be a finite non-negative Decimal")
      let normalized := CostLedger.defaultContext.normalize number
      raiseIf (maxPriceDecimalPlaces < max 0 (-normalized.exponent))
        (.value "endpoint price exceeds supported decimal precision")
      raiseIf (maxPriceIntegerDigits <
          max 1 ((Decimal.numDigits normalized.coefficient.natAbs : ℤ) + normalized.exponent))
        (.value "endpoint price exceeds supported magnitude")
      return normalized
  | _ => .error (.value "endpoint price must be a finite non-negative Decimal")

/-- Whether a text has whitespace at one of its ends. -/
def isPadded (text : List Char) : Bool :=
  text.head?.any isSpaceCharacter || text.getLast?.any isSpaceCharacter

/-- `_parse_price` -/
def parsePrice (asciiDigit : Char → Char) (price : PriceArgument) : Except PricingError Decimal :=
  match price with
  | .text text => do
      raiseIf (text = [] ∨ isPadded text = true) (.value "endpoint price is invalid")
      match decimalOfText asciiDigit text with
      | none => .error (.value "endpoint price is invalid")
      | some value => validatePrice value
  | .decimal value => validatePrice value
  | .other => .error (.value "endpoint prices must be decimal strings")

/-! ## Components -/

/-- The pattern `[a-z][a-z0-9_]{0,63}`. -/
def matchesPricingFieldPattern (field : String) : Bool :=
  match field.toList with
  | [] => false
  | first :: rest => decide ('a' ≤ first ∧ first ≤ 'z') && decide (rest.length ≤ 63) &&
      rest.all fun char => decide ('a' ≤ char ∧ char ≤ 'z') || char.isDigit || char == '_'

/-- `EndpointPriceComponent(...)` with its checks. -/
def endpointPriceComponent (pricingField : String) (unitPriceUsd : Decimal) (maximumUnits : ℤ) :
    Except PricingError EndpointPriceComponent := do
  raiseIf (¬ matchesPricingFieldPattern pricingField) (.value "endpoint pricing field is invalid")
  let price ← validatePrice (.finite unitPriceUsd)
  raiseIf (¬ (0 ≤ maximumUnits ∧ maximumUnits ≤ maxMeteredUnits))
    (.value "endpoint pricing maximum units are invalid")
  return ⟨pricingField, price, maximumUnits.toNat⟩

/-- The default context with its precision raised to 96 digits. -/
def costContext : Decimal.Context where
  precision := 96
  etiny := -1000094
  precision_pos := by norm_num

/-- The product that `EndpointPriceComponent.maximum_cost_usd` forms. -/
def EndpointPriceComponent.contextCostUsd (component : EndpointPriceComponent) : Decimal :=
  costContext.fix component.maximumCostUsd

/-- `EndpointRequestCostBound.maximum_cost_usd`; the rounding up raises an error when its result
has more digits than the context. -/
def maximumCostUsd (components : List EndpointPriceComponent) : Except PricingError Decimal := do
  let total := costContext.sum (components.map EndpointPriceComponent.contextCostUsd)
  let quantized := quantizeCeiling total
  raiseIf (costContext.precision < Decimal.numDigits quantized.coefficient.natAbs) .invalidOperation
  return quantized

/-! ## The bound -/

/-- A mapping of the interpreter, whose length is a signed 64-bit number. -/
structure Mapping (Value : Type) where
  dict : Dict String Value
  sized : dict.items.length < 2 ^ 63

/-- The hashes of the request and of the pricing snapshot. -/
structure PricingHashes where
  request : String → String
  pricingSnapshot : String → String → List EndpointPriceComponent → String

/-- A letter or digit, then at most 255 letters, digits, spaces, dots, underscores, colons,
slashes and hyphens. -/
def matchesEndpointIdPattern (identifier : String) : Bool :=
  match identifier.toList with
  | [] => false
  | first :: rest => first.isAlphanum && decide (rest.length ≤ 255) &&
      rest.all fun char => CostLedger.isRequestIdCharacter char || char == ' ' || char == '/'

/-- One turn of the comprehension over the sorted prices. -/
def pricedComponent (asciiDigit : Char → Char) (maximumUnits : Mapping ℤ)
    (item : String × PriceArgument) : Except PricingError EndpointPriceComponent := do
  let price ← parsePrice asciiDigit item.2
  endpointPriceComponent item.1 price ((maximumUnits.dict.get? item.1).getD 0)

/-- `EndpointRequestCostBound.__post_init__` -/
def sealBound (hashes : PricingHashes)
    (exactModelId providerEndpoint requestMaterialSha256 pricingSnapshotSha256 : String)
    (components : List EndpointPriceComponent) : Except PricingError EndpointRequestCostBound :=
  if modelValid : matchesModelIdPattern exactModelId = true then do
    raiseIf (¬ matchesEndpointIdPattern providerEndpoint)
      (.value "endpoint cost bound provider endpoint is invalid")
    raiseIf (¬ matchesSha256Pattern requestMaterialSha256)
      (.value "endpoint cost bound request hash is invalid")
    raiseIf (components = []) (.value "endpoint cost bound requires non-empty pricing components")
    raiseIf (¬ (components.map (·.pricingField)).SortedLT)
      (.value "endpoint pricing components must be unique and sorted")
    raiseIf (¬ ("prompt" ∈ components.map (·.pricingField) ∧
        "completion" ∈ components.map (·.pricingField)))
      (.value "endpoint pricing must include prompt and completion fields")
    raiseIf (pricingSnapshotSha256 ≠
        hashes.pricingSnapshot exactModelId providerEndpoint components)
      (.value "endpoint pricing snapshot hash does not match the bound")
    let _ ← maximumCostUsd components
    if positive : 0 < componentsCostUsd components then
      return ⟨exactModelId, providerEndpoint, requestMaterialSha256, pricingSnapshotSha256,
        components, modelValid, positive⟩
    else
      .error (.value "endpoint request maximum cost must be positive")
  else
    .error (.value "endpoint cost bound requires an exact author/model ID")

/-- `EndpointRequestCostBound.from_endpoint_pricing` -/
def fromEndpointPricing (asciiDigit : Char → Char) (hashes : PricingHashes)
    (exactModelId providerEndpoint requestMaterial : String) (pricing : Mapping PriceArgument)
    (maximumUnits : Mapping ℤ) : Except PricingError EndpointRequestCostBound := do
  raiseIf (pricing.dict.items = []) (.value "endpoint pricing must be non-empty")
  raiseIf (¬ (pricing.dict.keys ⊆ maximumUnits.dict.keys ∧
      maximumUnits.dict.keys ⊆ pricing.dict.keys))
    (.value "every endpoint pricing field requires a maximum-unit bound")
  let components ← pricing.dict.sorted.items.mapM (pricedComponent asciiDigit maximumUnits)
  sealBound hashes exactModelId providerEndpoint (hashes.request requestMaterial)
    (hashes.pricingSnapshot exactModelId providerEndpoint components) components

end Budget

end MmAudit
