import MmAudit.Budget.Pricing
import MmAudit.Library.Pairing

/-!
# How far a cost bound is from the exact cost

The sum of an accepted bound is formed without rounding from the normalized prices, and then
rounded up to 18 decimal places.  So the bound is the smallest multiple of the quantum above the
cost of the rounded prices; it is that of the exact cost unless rounding a price to 28 digits
moved the sum across a multiple of the quantum.
-/

namespace MmAudit

namespace Budget

open Fallible

open Decimal (OnGrid)

/-! ## Exact and rounded costs -/

/-- The value of a price; only finite values are accepted. -/
def PriceArgument.decimal? (asciiDigit : Char → Char) : PriceArgument → Option Decimal
  | .text material =>
      match decimalOfText asciiDigit material with
      | some (.finite number) => some number
      | _ => none
  | .decimal (.finite number) => some number
  | _ => none

section Costs

variable (asciiDigit : Char → Char) (pricing : Mapping PriceArgument) (maximumUnits : Mapping ℤ)

/-- The sum of the prices, each as a function gives it, times their units. -/
def costBy (valueOf : Decimal → ℚ) : ℚ :=
  pricing.dict.total fun field price =>
    ((price.decimal? asciiDigit).elim 0 valueOf) * ((maximumUnits.dict.get? field).getD 0 : ℤ)

/-- The sum of the given prices times the units. -/
def exactCost : ℚ :=
  costBy asciiDigit pricing maximumUnits Decimal.value

/-- The same sum with every price rounded to the 28 digits of the default context. -/
def roundedCost : ℚ :=
  costBy asciiDigit pricing maximumUnits fun number =>
    (CostLedger.defaultContext.fix number).value

end Costs

/-! ## Rounding up -/

theorem quantizeCeiling_eq (number : Decimal) :
    quantizeCeiling number = ⟨⌈number.value * 10 ^ 18⌉, -18⟩ := by
  have scaled : number.value * 10 ^ 18 = number.coefficient * (10 : ℚ) ^ (number.exponent + 18) := by
    rw [Decimal.value, zpow_add₀ Decimal.ten_ne_zero, ← mul_assoc]
    rfl
  rw [scaled, quantizeCeiling]
  split
  · rename_i coarse
    obtain ⟨shift, shiftEq⟩ := Int.eq_ofNat_of_zero_le coarse
    have whole : (number.coefficient : ℚ) * 10 ^ (number.exponent + 18) =
        ((number.coefficient * 10 ^ shift : ℤ) : ℚ) := by
      rw [shiftEq, zpow_natCast]
      push_cast
      rfl
    rw [whole, Int.ceil_intCast, shiftEq]
    rfl
  · rename_i fine
    obtain ⟨shift, shiftEq⟩ := Int.eq_ofNat_of_zero_le (show 0 ≤ -(number.exponent + 18) by omega)
    have quotient : (number.coefficient : ℚ) * 10 ^ (number.exponent + 18) =
        number.coefficient / ((10 ^ shift : ℕ) : ℚ) := by
      rw [show number.exponent + 18 = -(shift : ℤ) by omega, zpow_neg, zpow_natCast,
        div_eq_mul_inv]
      push_cast
      rfl
    rw [quotient, Rat.ceil_intCast_div_natCast, shiftEq]
    push_cast
    rfl

theorem value_quantizeCeiling (number : Decimal) :
    (quantizeCeiling number).value = ⌈number.value * 10 ^ 18⌉ / 10 ^ 18 := by
  rw [quantizeCeiling_eq, Decimal.value, zpow_neg, ← div_eq_mul_inv]
  rfl

/-! ## One component -/

theorem validatePrice_eq_ok {price : CostLedger.DecimalArgument} {normalized : Decimal}
    (accepted : validatePrice price = .ok normalized) :
    ∃ number, price = .finite number ∧ 0 ≤ number.value ∧
      normalized = CostLedger.defaultContext.normalize number ∧
      OnGrid (-36) normalized.value ∧ |normalized.value| < 10 ^ 12 := by
  cases price with
  | infinite => cases accepted
  | notANumber => cases accepted
  | finite number =>
      obtain ⟨nonneg, places⟩ := raiseIf_bind_eq_ok_iff.mp accepted
      obtain ⟨fewPlaces, digits⟩ := raiseIf_bind_eq_ok_iff.mp places
      obtain ⟨fewDigits, returned⟩ := raiseIf_bind_eq_ok_iff.mp digits
      have fixedValue := Decimal.value_normalize CostLedger.defaultContext number
      refine ⟨number, rfl, ?_, (Except.ok.inj returned).symm, ?_, ?_⟩
      · rw [Decimal.lt_iff_value_lt, not_lt, Decimal.value_zero] at nonneg
        exact nonneg
      · rw [← Except.ok.inj returned, fixedValue]
        exact (Decimal.decimalPlaces_normalize_le_iff _ _ (by decide)).mp (not_lt.mp fewPlaces)
      · rw [← Except.ok.inj returned, fixedValue]
        exact (Decimal.integerDigits_normalize_le_iff _ _ (by decide)).mp (not_lt.mp fewDigits)

theorem parsePrice_eq_ok {asciiDigit : Char → Char} {price : PriceArgument} {normalized : Decimal}
    (accepted : parsePrice asciiDigit price = .ok normalized) :
    ∃ number, price.decimal? asciiDigit = some number ∧
      validatePrice (.finite number) = .ok normalized := by
  cases price with
  | other => cases accepted
  | decimal value =>
      obtain ⟨number, rfl, -⟩ := validatePrice_eq_ok accepted
      exact ⟨number, rfl, accepted⟩
  | text material =>
      obtain ⟨-, rest⟩ := raiseIf_bind_eq_ok_iff.mp accepted
      cases read : decimalOfText asciiDigit material with
      | none =>
          rw [read] at rest
          cases rest
      | some value =>
          rw [read] at rest
          obtain ⟨number, rfl, -⟩ := validatePrice_eq_ok rest
          refine ⟨number, ?_, rest⟩
          rw [PriceArgument.decimal?, read]

/-- What an accepted component holds. -/
structure Priced (asciiDigit : Char → Char) (maximumUnits : Mapping ℤ)
    (item : String × PriceArgument) (component : EndpointPriceComponent) : Prop where
  field : component.pricingField = item.1
  price : (item.2.decimal? asciiDigit).elim 0
    (fun number => (CostLedger.defaultContext.fix number).value) = component.unitPriceUsd.value
  units : (maximumUnits.dict.get? item.1).getD 0 = component.maximumUnits
  nonneg : 0 ≤ component.unitPriceUsd.value
  grid : OnGrid (-36) component.unitPriceUsd.value
  small : |component.unitPriceUsd.value| < 10 ^ 12
  metered : component.maximumUnits < 2 ^ 63

theorem priced_of_pricedComponent {asciiDigit : Char → Char} {maximumUnits : Mapping ℤ}
    {item : String × PriceArgument} {component : EndpointPriceComponent}
    (accepted : pricedComponent asciiDigit maximumUnits item = .ok component) :
    Priced asciiDigit maximumUnits item component := by
  obtain ⟨normalized, parsed, built⟩ := bind_eq_ok_iff.mp accepted
  obtain ⟨number, isNumber, validated⟩ := parsePrice_eq_ok parsed
  obtain ⟨_, same, numberNonneg, rfl, -, -⟩ := validatePrice_eq_ok validated
  obtain rfl := CostLedger.DecimalArgument.finite.inj same
  obtain ⟨-, rest⟩ := raiseIf_bind_eq_ok_iff.mp built
  obtain ⟨price, revalidated, rest⟩ := bind_eq_ok_iff.mp rest
  obtain ⟨counted, returned⟩ := raiseIf_bind_eq_ok_iff.mp rest
  obtain rfl := Except.ok.inj returned
  obtain ⟨_, same, fixedNonneg, rfl, grid, small⟩ := validatePrice_eq_ok revalidated
  obtain rfl := CostLedger.DecimalArgument.finite.inj same
  rw [not_not] at counted
  -- The second normalization finds nothing to round.
  have twice : (CostLedger.defaultContext.normalize
      (CostLedger.defaultContext.normalize number)).value =
        (CostLedger.defaultContext.fix number).value := by
    have represented := Decimal.represents_fix CostLedger.defaultContext number
    rw [← Decimal.value_normalize] at represented ⊢
    rw [Decimal.value_normalize, Decimal.value_fix_of_represents represented]
  refine ⟨rfl, ?_, (Int.toNat_of_nonneg counted.1).symm, ?_, grid, small, ?_⟩
  · rw [isNumber, twice]
    rfl
  · rw [Decimal.value_normalize] at fixedNonneg
    rw [twice]
    exact fixedNonneg
  · have most := counted.2
    rw [maxMeteredUnits] at most
    simp only
    omega

/-! ## The total -/

theorem value_maximumCostUsd (component : EndpointPriceComponent) :
    component.maximumCostUsd.value = component.unitPriceUsd.value * component.maximumUnits := by
  rw [EndpointPriceComponent.maximumCostUsd, Decimal.value, Decimal.value]
  push_cast
  ring

/-- The cost of a component is a bounded amount of the 36-place grid. -/
structure BoundedCost (amount : ℚ) : Prop where
  nonneg : 0 ≤ amount
  grid : OnGrid (-36) amount
  small : amount < 10 ^ 31

theorem OnGrid.mul_natCast {grid : ℤ} {amount : ℚ} (onGrid : OnGrid grid amount) (count : ℕ) :
    OnGrid grid (amount * count) := by
  obtain ⟨units, rfl⟩ := onGrid
  exact ⟨units * count, by push_cast; ring⟩

theorem Priced.boundedCost {asciiDigit : Char → Char} {maximumUnits : Mapping ℤ}
    {item : String × PriceArgument} {component : EndpointPriceComponent}
    (priced : Priced asciiDigit maximumUnits item component) :
    BoundedCost component.maximumCostUsd.value := by
  have units : (component.maximumUnits : ℚ) ≤ 2 ^ 63 := by exact_mod_cast priced.metered.le
  have price := priced.small
  rw [abs_of_nonneg priced.nonneg] at price
  rw [value_maximumCostUsd]
  refine ⟨mul_nonneg priced.nonneg (by positivity), OnGrid.mul_natCast priced.grid _, ?_⟩
  calc component.unitPriceUsd.value * component.maximumUnits
      ≤ 10 ^ 12 * 2 ^ 63 :=
        mul_le_mul price.le units (by positivity) (by norm_num)
    _ < 10 ^ 31 := by norm_num

theorem costContext_tiny : costContext.etiny ≤ -36 := by
  decide

/-- A product is written with 96 digits. -/
theorem BoundedCost.value_fix {number : Decimal} (bounded : BoundedCost number.value) :
    (costContext.fix number).value = number.value := by
  refine Decimal.value_fix_of_represents
    (Decimal.Context.represents_of_onGrid bounded.grid costContext_tiny ?_)
  rw [abs_of_nonneg bounded.nonneg]
  exact bounded.small.trans (by norm_num [costContext, zpow_ofNat])

theorem value_foldl_exactAdd (numbers : List Decimal) (start : Decimal) :
    (numbers.foldl Decimal.exactAdd start).value =
      start.value + (numbers.map Decimal.value).sum := by
  induction numbers generalizing start with
  | nil => simp
  | cons number numbers ih =>
      rw [List.foldl_cons, ih, Decimal.value_exactAdd, List.map_cons, List.sum_cons, add_assoc]

section Total

variable {components : List EndpointPriceComponent}

/-- The sum of the costs of components. -/
def totalCost (components : List EndpointPriceComponent) : ℚ :=
  (components.map fun component => component.maximumCostUsd.value).sum

theorem totalCost_le (bounded : ∀ component ∈ components, BoundedCost component.maximumCostUsd.value)
    (few : components.length < 2 ^ 63) : totalCost components < 10 ^ 50 := by
  have each := List.sum_le_card_nsmul
    (components.map fun component => component.maximumCostUsd.value) (10 ^ 31) (by
      intro amount member
      obtain ⟨component, componentMem, rfl⟩ := List.mem_map.mp member
      exact (bounded component componentMem).small.le)
  rw [List.length_map, nsmul_eq_mul] at each
  have count : (components.length : ℚ) ≤ 2 ^ 63 := by exact_mod_cast few.le
  calc totalCost components ≤ components.length * 10 ^ 31 := each
    _ ≤ 2 ^ 63 * 10 ^ 31 := mul_le_mul_of_nonneg_right count (by norm_num)
    _ < 10 ^ 50 := by norm_num

theorem totalCost_nonneg
    (bounded : ∀ component ∈ components, BoundedCost component.maximumCostUsd.value) :
    0 ≤ totalCost components := by
  refine List.sum_nonneg fun amount member => ?_
  obtain ⟨component, componentMem, rfl⟩ := List.mem_map.mp member
  exact (bounded component componentMem).nonneg

/-- No step of the sum is rounded. -/
theorem value_contextTotal
    (bounded : ∀ component ∈ components, BoundedCost component.maximumCostUsd.value)
    (few : components.length < 2 ^ 63) :
    (costContext.sum (components.map EndpointPriceComponent.contextCostUsd)).value =
      totalCost components := by
  have products : (components.map EndpointPriceComponent.contextCostUsd).map Decimal.value =
      components.map fun component => component.maximumCostUsd.value := by
    rw [List.map_map]
    exact List.map_congr_left fun component member => (bounded component member).value_fix
  have each : ∀ number ∈ components.map EndpointPriceComponent.contextCostUsd,
      BoundedCost number.value := by
    intro number member
    obtain ⟨component, componentMem, rfl⟩ := List.mem_map.mp member
    rw [EndpointPriceComponent.contextCostUsd, (bounded component componentMem).value_fix]
    exact bounded component componentMem
  rw [Decimal.value_sum costContext_tiny _ (fun number member => (each number member).grid)
    (fun number member => (each number member).nonneg), products, totalCost]
  rw [products]
  exact (totalCost_le bounded few).trans (by norm_num [costContext, zpow_ofNat])

theorem componentsCostUsd_eq (components : List EndpointPriceComponent) :
    componentsCostUsd components = ⟨⌈totalCost components * 10 ^ 18⌉, -18⟩ := by
  rw [componentsCostUsd, quantizeCeiling_eq, value_foldl_exactAdd, Decimal.value_zero, zero_add,
    List.map_map]
  rfl

/-- The cost that the context computes is the exact total, rounded up. -/
theorem maximumCostUsd_eq
    (bounded : ∀ component ∈ components, BoundedCost component.maximumCostUsd.value)
    (few : components.length < 2 ^ 63) :
    maximumCostUsd components = .ok (componentsCostUsd components) := by
  have nonneg := totalCost_nonneg bounded
  have small := totalCost_le bounded few
  have ceilLe : ⌈totalCost components * 10 ^ 18⌉ ≤ 10 ^ 68 := by
    rw [Int.ceil_le]
    push_cast
    nlinarith
  have ceilNonneg : 0 ≤ ⌈totalCost components * 10 ^ 18⌉ := Int.ceil_nonneg (by positivity)
  have digits : Decimal.numDigits ⌈totalCost components * 10 ^ 18⌉.natAbs ≤ costContext.precision := by
    rw [Decimal.numDigits_le_iff costContext.precision_pos, costContext]
    have : (⌈totalCost components * 10 ^ 18⌉.natAbs : ℤ) < 10 ^ 96 := by
      rw [Int.natAbs_of_nonneg ceilNonneg]
      exact lt_of_le_of_lt ceilLe (by norm_num)
    exact_mod_cast this
  rw [maximumCostUsd, quantizeCeiling_eq, value_contextTotal bounded few, componentsCostUsd_eq]
  exact raiseIf_bind_of_not (not_lt.mpr digits) _ _

end Total

/-! ## The bound -/

/-- What an accepted bound holds. -/
structure BoundFacts (asciiDigit : Char → Char) (pricing : Mapping PriceArgument)
    (maximumUnits : Mapping ℤ) (bound : EndpointRequestCostBound) : Prop where
  computed : maximumCostUsd bound.components = .ok bound.maximumCostUsd
  total : totalCost bound.components = roundedCost asciiDigit pricing maximumUnits

theorem components_sealBound {hashes : PricingHashes}
    {exactModelId providerEndpoint requestMaterialSha256 pricingSnapshotSha256 : String}
    {components : List EndpointPriceComponent} {bound : EndpointRequestCostBound}
    (accepted : sealBound hashes exactModelId providerEndpoint requestMaterialSha256
      pricingSnapshotSha256 components = .ok bound) : bound.components = components := by
  unfold sealBound at accepted
  split at accepted
  · obtain ⟨-, rest⟩ := raiseIf_bind_eq_ok_iff.mp accepted
    obtain ⟨-, rest⟩ := raiseIf_bind_eq_ok_iff.mp rest
    obtain ⟨-, rest⟩ := raiseIf_bind_eq_ok_iff.mp rest
    obtain ⟨-, rest⟩ := raiseIf_bind_eq_ok_iff.mp rest
    obtain ⟨-, rest⟩ := raiseIf_bind_eq_ok_iff.mp rest
    obtain ⟨-, rest⟩ := raiseIf_bind_eq_ok_iff.mp rest
    obtain ⟨_, -, rest⟩ := bind_eq_ok_iff.mp rest
    split at rest
    · obtain rfl := Except.ok.inj rest
      rfl
    · cases rest
  · cases accepted

theorem value_maximumCostUsd_of_priced (asciiDigit : Char → Char) (maximumUnits : Mapping ℤ)
    (item : String × PriceArgument) (component : EndpointPriceComponent)
    (computed : pricedComponent asciiDigit maximumUnits item = .ok component) :
    ((item.2.decimal? asciiDigit).elim 0 fun number =>
      (CostLedger.defaultContext.fix number).value) *
        (((maximumUnits.dict.get? item.1).getD 0 : ℤ) : ℚ) = component.maximumCostUsd.value := by
  have priced := priced_of_pricedComponent computed
  rw [priced.price, priced.units, value_maximumCostUsd]
  rfl

theorem boundFacts_of_fromEndpointPricing {asciiDigit : Char → Char} {hashes : PricingHashes}
    {exactModelId providerEndpoint requestMaterial : String} {pricing : Mapping PriceArgument}
    {maximumUnits : Mapping ℤ} {bound : EndpointRequestCostBound}
    (accepted : fromEndpointPricing asciiDigit hashes exactModelId providerEndpoint
      requestMaterial pricing maximumUnits = .ok bound) :
    BoundFacts asciiDigit pricing maximumUnits bound := by
  obtain ⟨-, rest⟩ := raiseIf_bind_eq_ok_iff.mp accepted
  obtain ⟨-, rest⟩ := raiseIf_bind_eq_ok_iff.mp rest
  obtain ⟨components, mapped, sealed⟩ := bind_eq_ok_iff.mp rest
  have listed := components_sealBound sealed
  have bounded : ∀ component ∈ components, BoundedCost component.maximumCostUsd.value := by
    intro component member
    obtain ⟨item, -, computed⟩ := exists_item_of_mapM mapped member
    exact (priced_of_pricedComponent computed).boundedCost
  have images := (mapM_eq_ok_iff _).mp mapped
  have few : components.length < 2 ^ 63 := by
    have lengths := congrArg List.length images
    rw [List.length_map, List.length_map, (Dict.perm_sorted _).length_eq] at lengths
    rw [← lengths]
    exact pricing.sized
  constructor
  · rw [EndpointRequestCostBound.maximumCostUsd, listed]
    exact maximumCostUsd_eq bounded few
  · -- Each sorted item contributes its rounded price times its units.
    have terms := map_eq_map_of_agrees (value_maximumCostUsd_of_priced asciiDigit maximumUnits)
      images
    rw [listed, totalCost, ← terms, roundedCost, costBy, ← Dict.total_sorted]
    rfl

/-- The bound is not below the exact cost and less than one quantum above it. -/
structure Tight (exact : ℚ) (bound : ℚ) : Prop where
  covers : exact ≤ bound
  close : bound - exact < 1 / 10 ^ 18

theorem tight_ceiling_iff (exact : ℚ) (units : ℤ) :
    Tight exact (units / 10 ^ 18) ↔ units = ⌈exact * 10 ^ 18⌉ := by
  rw [eq_comm, Int.ceil_eq_iff]
  constructor
  · rintro ⟨covers, close⟩
    constructor <;> linarith
  · rintro ⟨above, below⟩
    constructor <;> linarith

/-- Every price is written with at most 28 significant digits. -/
def ShortPrices (asciiDigit : Char → Char) (pricing : Mapping PriceArgument) : Prop :=
  ∀ item ∈ pricing.dict.items, ∀ number, item.2.decimal? asciiDigit = some number →
    CostLedger.defaultContext.Represents number.value

theorem roundedCost_of_short {asciiDigit : Char → Char} {pricing : Mapping PriceArgument}
    (maximumUnits : Mapping ℤ) (short : ShortPrices asciiDigit pricing) :
    roundedCost asciiDigit pricing maximumUnits = exactCost asciiDigit pricing maximumUnits := by
  rw [roundedCost, exactCost, costBy, costBy, Dict.total, Dict.total]
  refine congrArg List.sum (List.map_congr_left fun item member => ?_)
  cases isNumber : item.2.decimal? asciiDigit with
  | none => rfl
  | some number =>
      rw [Option.elim_some, Option.elim_some,
        Decimal.value_fix_of_represents (short item member number isNumber)]

theorem BoundFacts.value_maximumCostUsd {asciiDigit : Char → Char}
    {pricing : Mapping PriceArgument} {maximumUnits : Mapping ℤ} {bound : EndpointRequestCostBound}
    (facts : BoundFacts asciiDigit pricing maximumUnits bound) :
    bound.maximumCostUsd.value =
      ⌈roundedCost asciiDigit pricing maximumUnits * 10 ^ 18⌉ / 10 ^ 18 := by
  rw [EndpointRequestCostBound.maximumCostUsd, componentsCostUsd_eq, facts.total, Decimal.value,
    zpow_neg, ← div_eq_mul_inv]
  rfl

def sampleHashes : PricingHashes where
  request := fun _ => String.ofList (List.replicate 64 '0')
  pricingSnapshot := fun _ _ _ => ""

/-- Prompt tokens have the given price, completion tokens are free. -/
def samplePricing (price : String) : Mapping PriceArgument where
  dict := (Dict.empty.insert "prompt" (.text price.toList)).insert "completion" (.text ['0'])
  sized := by
    have few : ((Dict.empty.insert "prompt" (PriceArgument.text price.toList)).insert
        "completion" (.text ['0'])).items.length = 2 := rfl
    rw [few]
    norm_num

def sampleUnits : Mapping ℤ where
  dict := (Dict.empty.insert "prompt" 1000).insert "completion" 100
  sized := by decide +kernel

def sampleBound (price : String) : Except PricingError EndpointRequestCostBound :=
  fromEndpointPricing id sampleHashes "author/model" "endpoint" "request" (samplePricing price)
    sampleUnits

theorem short_samplePricing : ShortPrices id (samplePricing "3.5E-6") := by
  intro item member number isNumber
  have represented : ∀ read : Decimal, Decimal.numDigits read.coefficient.natAbs ≤ 28 →
      -1000026 ≤ read.exponent → CostLedger.defaultContext.Represents read.value := by
    intro read digits tiny
    refine ⟨read.coefficient, read.exponent, rfl, ?_, tiny⟩
    rw [Int.abs_eq_natAbs]
    exact_mod_cast (Decimal.numDigits_le_iff (by norm_num)).mp digits
  rcases List.mem_cons.mp member with rfl | member
  · obtain rfl : (⟨35, -7⟩ : Decimal) = number := Option.some.inj
      ((show PriceArgument.decimal? id (.text "3.5E-6".toList) = some ⟨35, -7⟩ by
        decide).symm.trans isNumber)
    exact represented _ (by decide) (by decide)
  · obtain rfl := List.mem_singleton.mp member
    obtain rfl : (⟨0, 0⟩ : Decimal) = number := Option.some.inj
      ((show PriceArgument.decimal? id (.text ['0']) = some ⟨0, 0⟩ by
        decide).symm.trans isNumber)
    exact represented _ (by decide) (by decide)

/-- A price of thirty digits. -/
def longPrice : String :=
  "1.00000000000000000000000000004"

theorem exactCost_longPrice :
    exactCost id (samplePricing longPrice) sampleUnits = 1000 + 4 / 10 ^ 26 := by
  have prompt : PriceArgument.decimal? id (.text longPrice.toList) =
      some ⟨100000000000000000000000000004, -29⟩ := by decide
  have completion : PriceArgument.decimal? id (.text ['0']) = some ⟨0, 0⟩ := by decide
  have promptUnits : (sampleUnits.dict.get? "prompt").getD 0 = 1000 := by decide
  change ((PriceArgument.decimal? id (.text longPrice.toList)).elim 0 Decimal.value) *
      (((sampleUnits.dict.get? "prompt").getD 0 : ℤ) : ℚ) +
    (((PriceArgument.decimal? id (.text ['0'])).elim 0 Decimal.value) * _ + 0) = _
  rw [prompt, completion, promptUnits, Option.elim_some, Option.elim_some]
  norm_num [Decimal.value, zpow_neg]

end Budget

end MmAudit
