import MmAudit.Library.HexText
import MmAudit.Rpc.Requests

/-!
# The identity of a pinned fork

Before a fork suite runs, the chain and the pinned block of the fork are asked for and
compared with the configuration.  The quantities are read with `int` and the hash with
`bytes.fromhex`, which read more texts than the patterns that later stages ask for.
-/

namespace MmAudit

namespace Rpc

open Fallible HexText

inductive ForkRpcError where
  | unavailable (message : String)
  | binding (message : String)
deriving DecidableEq, Repr

structure PinnedForkObservation where
  chainId : ℕ
  blockNumber : ℕ
  blockHash : List Char
deriving DecidableEq, Repr

section Observing

variable (unicode : Unicode)

/-- `_hex_quantity` -/
def hexQuantity (value : Json) (label : String) : Except ForkRpcError ℕ :=
  match value with
  | .string ('0' :: 'x' :: digits) =>
      if digits = [] ∨ (1 < digits.length ∧ digits.head? = some '0') then
        .error (.binding ("fork RPC " ++ label ++ " is not a canonical hex quantity"))
      else
        match intOf16? unicode digits with
        | none => .error (.binding ("fork RPC " ++ label ++ " is malformed"))
        | some number =>
            if number < 0 ∨ 2 ^ 256 ≤ number then
              .error (.binding ("fork RPC " ++ label ++ " is outside the supported range"))
            else
              .ok number.toNat
  | _ => .error (.binding ("fork RPC " ++ label ++ " is not a canonical hex quantity"))

/-- The value of a field, or `None`. -/
def fieldOrNone (fields : Json.Fields) (key : String) : Json :=
  (Json.get? fields key).getD .null

/-- The checks of the hash of the pinned block. -/
def pinnedBlockHash (value : Json) : Except ForkRpcError (List Char) :=
  match value with
  | .string ('0' :: 'x' :: digits) =>
      if digits.length ≠ 64 then
        .error (.binding "observed fork block does not match the configured pin")
      else if (bytesFromHex? digits).isNone then
        .error (.binding "observed fork block hash is malformed")
      else
        .ok ('0' :: 'x' :: digits.map Char.toLower)
  | _ => .error (.binding "observed fork block does not match the configured pin")

/-- The part of `observe_pinned_fork_rpc` that reads the block. -/
def observeBlock (block : Json) (chainId pinnedBlockNumber : ℕ) :
    Except ForkRpcError PinnedForkObservation :=
  match block with
  | .object fields => do
      let number ← hexQuantity unicode (fieldOrNone fields "number") "block number"
      raiseIf (number ≠ pinnedBlockNumber)
        (.binding "observed fork block does not match the configured pin")
      let hash ← pinnedBlockHash (fieldOrNone fields "hash")
      return ⟨chainId, number, hash⟩
  | _ => .error (.binding "pinned fork block response is malformed")

/-- `observe_pinned_fork_rpc`, from the port of the endpoint and the answers of `_rpc` on. -/
def observePinnedForkRpc (port : Except ForkRpcError ℕ)
    (rpc : ℕ → String → List Json → Except ForkRpcError Json)
    (expectedChainId pinnedBlockNumber : Option ℤ) :
    Except ForkRpcError PinnedForkObservation := do
  let _ ← port
  match expectedChainId, pinnedBlockNumber with
  | some chainId, some blockNumber =>
      raiseIf (chainId < 1 ∨ blockNumber < 0)
        (.binding "pinned fork identity is outside the supported range")
      let chainValue ← rpc 1 "eth_chainId" []
      let observedChainId ← hexQuantity unicode chainValue "chain ID"
      let block ← rpc 2 "eth_getBlockByNumber" [.string (hexText blockNumber.toNat), .bool false]
      raiseIf ((observedChainId : ℤ) ≠ chainId)
        (.binding "observed fork chain ID does not match the configured pin")
      observeBlock unicode block observedChainId blockNumber.toNat
  | _, _ =>
      .error (.binding
        "repository fork-suite execution requires a pinned chain ID and block number")

end Observing

/-! ## What later stages ask for -/

/-- The identity checks of the constructor of `ReadOnlyRpcBridge`. -/
def bridgeAccepts (chainId blockNumber : ℕ) (blockHash : List Char) : Bool :=
  decide (1 ≤ chainId ∧ chainId < 2 ^ 64 ∧ blockNumber < 2 ^ 64) && isWord64 blockHash

/-- The checks of the observed fields of `RepositorySuiteExecutionStateEvidence`. -/
def evidenceAccepts (observation : PinnedForkObservation) : Bool :=
  decide (1 ≤ observation.chainId) && isWord64 observation.blockHash

/-- The observation passes the checks of the stages that use it. -/
def PinnedForkObservation.Fits (observation : PinnedForkObservation) : Prop :=
  bridgeAccepts observation.chainId observation.blockNumber observation.blockHash = true ∧
    evidenceAccepts observation = true

/-! ## Canonical identities -/

/-- `0x` and hexadecimal digits without a leading zero that denote the number. -/
def CanonicalQuantity (number : ℕ) (value : Json) : Prop :=
  ∃ digits, value = .string ('0' :: 'x' :: digits) ∧ digits ≠ [] ∧
    digits.all isHexDigit = true ∧ (digits.length = 1 ∨ digits.head? ≠ some '0') ∧
      denotes digits = number

/-- `0x` and 64 hexadecimal digits. -/
def CanonicalHash (value : Json) : Prop :=
  ∃ digits, value = .string ('0' :: 'x' :: digits) ∧ digits.length = 64 ∧
    digits.all isHexDigit = true

structure CanonicalIdentity (chainId blockNumber : ℕ) (chainValue blockValue : Json) : Prop where
  chain : CanonicalQuantity chainId chainValue
  block : ∃ fields, blockValue = .object fields ∧
    CanonicalQuantity blockNumber (fieldOrNone fields "number") ∧
      CanonicalHash (fieldOrNone fields "hash")

/-- Only hexadecimal digits stand behind the `0x` of a text. -/
def OnlyDigits (value : Json) : Prop :=
  ∀ digits, value = .string ('0' :: 'x' :: digits) → digits.all isHexDigit = true

/-- The number that the lenient reader finds in a quantity. -/
def ReadsAs (unicode : Unicode) (number : ℕ) (value : Json) : Prop :=
  ∃ digits, value = .string ('0' :: 'x' :: digits) ∧ digits ≠ [] ∧
    (digits.length = 1 ∨ digits.head? ≠ some '0') ∧
      intOf16? unicode digits = some (number : ℤ) ∧ number < 2 ^ 256

/-- The text of 66 characters is read as bytes. -/
def ReadsAsBytes (value : Json) : Prop :=
  ∃ digits, value = .string ('0' :: 'x' :: digits) ∧ digits.length = 64 ∧
    (bytesFromHex? digits).isSome = true

/-- A text that is read as the pinned identity holds a sign, a space, an underscore, another
prefix or a foreign digit. -/
structure LooseIdentity (unicode : Unicode) (chainId blockNumber : ℕ)
    (chainValue : Json) (fields : Json.Fields) : Prop where
  chain : ReadsAs unicode chainId chainValue
  number : ReadsAs unicode blockNumber (fieldOrNone fields "number")
  hash : ReadsAsBytes (fieldOrNone fields "hash")
  loose : ¬ (OnlyDigits chainValue ∧ OnlyDigits (fieldOrNone fields "number") ∧
    OnlyDigits (fieldOrNone fields "hash"))

section Reading

variable (unicode : Unicode)

theorem hexQuantity_eq_ok_iff {value : Json} {label : String} {number : ℕ} :
    hexQuantity unicode value label = .ok number ↔ ReadsAs unicode number value := by
  unfold hexQuantity ReadsAs
  split
  next digits =>
    by_cases refused : digits = [] ∨ 1 < digits.length ∧ digits.head? = some '0'
    · rw [if_pos refused]
      constructor
      · intro impossible
        cases impossible
      · rintro ⟨other, same, nonempty, leading, -⟩
        obtain rfl : digits = other := by simpa using same
        rcases refused with empty | ⟨long, zero⟩
        · exact absurd empty nonempty
        · rcases leading with short | notZero
          · omega
          · exact absurd zero notZero
    · rw [if_neg refused]
      obtain ⟨nonempty, leading⟩ := not_or.mp refused
      have accepted : digits.length = 1 ∨ digits.head? ≠ some '0' := by
        by_cases long : 1 < digits.length
        · exact Or.inr fun zero => leading ⟨long, zero⟩
        · have := List.length_pos_iff.mpr nonempty
          exact Or.inl (by omega)
      cases isRead : intOf16? unicode digits with
      | none =>
          constructor
          · intro impossible
            cases impossible
          · rintro ⟨other, same, -, -, read, -⟩
            obtain rfl : digits = other := by simpa using same
            rw [isRead] at read
            cases read
      | some found =>
          dsimp only
          by_cases outside : found < 0 ∨ 2 ^ 256 ≤ found
          · rw [if_pos outside]
            constructor
            · intro impossible
              cases impossible
            · rintro ⟨other, same, -, -, read, small⟩
              obtain rfl : digits = other := by simpa using same
              rw [isRead] at read
              obtain rfl := Option.some.inj read
              omega
          · rw [if_neg outside]
            obtain ⟨nonneg, small⟩ := not_or.mp outside
            constructor
            · intro same
              obtain rfl := Except.ok.inj same
              refine ⟨digits, rfl, nonempty, accepted, ?_, by omega⟩
              rw [isRead, Int.toNat_of_nonneg (by omega)]
            · rintro ⟨other, same, -, -, read, -⟩
              obtain rfl : digits = other := by simpa using same
              rw [isRead] at read
              obtain rfl := Option.some.inj read
              rfl
  next noText =>
    constructor
    · intro impossible
      cases impossible
    · rintro ⟨digits, same, -⟩
      exact absurd same (noText digits)

theorem pinnedBlockHash_eq_ok_iff {value : Json} {hash : List Char} :
    pinnedBlockHash value = .ok hash ↔ ∃ digits, value = .string ('0' :: 'x' :: digits) ∧
      digits.length = 64 ∧ (bytesFromHex? digits).isSome = true ∧
        hash = '0' :: 'x' :: digits.map Char.toLower := by
  unfold pinnedBlockHash
  split
  next digits =>
    constructor
    · intro accepted
      split at accepted
      · cases accepted
      next length =>
        split at accepted
        · cases accepted
        next isSome =>
          obtain rfl := Except.ok.inj accepted
          exact ⟨digits, rfl, not_not.mp length, by simpa [Option.isSome_iff_ne_none] using isSome, rfl⟩
    · rintro ⟨other, same, length, isSome, rfl⟩
      obtain rfl : digits = other := by simpa using same
      rw [if_neg (not_not.mpr length), if_neg (by simpa [Option.isSome_iff_ne_none] using isSome)]
  next noText =>
    constructor
    · intro impossible
      cases impossible
    · rintro ⟨digits, same, -⟩
      exact absurd same (noText digits)

theorem observeBlock_eq_ok_iff {blockValue : Json} {chainId blockNumber : ℕ}
    {observation : PinnedForkObservation} :
    observeBlock unicode blockValue chainId blockNumber = .ok observation ↔
      ∃ fields digits, blockValue = .object fields ∧
        ReadsAs unicode blockNumber (fieldOrNone fields "number") ∧
          fieldOrNone fields "hash" = .string ('0' :: 'x' :: digits) ∧ digits.length = 64 ∧
            (bytesFromHex? digits).isSome = true ∧
              observation = ⟨chainId, blockNumber, '0' :: 'x' :: digits.map Char.toLower⟩ := by
  unfold observeBlock
  split
  next fields =>
    simp only [bind_eq_ok_iff, raiseIf_eq_ok_iff, hexQuantity_eq_ok_iff,
      pinnedBlockHash_eq_ok_iff]
    constructor
    · rintro ⟨number, isNumber, -, same, hash, ⟨digits, isHash, length, isSome, rfl⟩, made⟩
      obtain rfl := not_not.mp same
      cases made
      exact ⟨fields, digits, rfl, isNumber, isHash, length, isSome, rfl⟩
    · rintro ⟨other, digits, sameFields, isNumber, isHash, length, isSome, rfl⟩
      cases sameFields
      exact ⟨blockNumber, isNumber, (), fun differs => differs rfl, _,
        ⟨digits, isHash, length, isSome, rfl⟩, rfl⟩
  next noObject =>
    constructor
    · intro impossible
      cases impossible
    · rintro ⟨fields, digits, same, -⟩
      exact absurd same (noObject fields)

/-- Answers to the two requests of an observation. -/
def answering (chainValue blockValue : Json) (_ : ℕ) (method : String) (_ : List Json) :
    Except ForkRpcError Json :=
  .ok (if method = "eth_chainId" then chainValue else blockValue)

/-- What is observed of two answers. -/
def observed (port chainId blockNumber : ℕ) (chainValue blockValue : Json) :
    Except ForkRpcError PinnedForkObservation :=
  observePinnedForkRpc unicode (.ok port) (answering chainValue blockValue) (some chainId)
    (some blockNumber)

/-- An observation is made of the answers that the lenient readers accept. -/
theorem observed_eq_ok_iff {port chainId blockNumber : ℕ} (positive : 1 ≤ chainId)
    {chainValue blockValue : Json} {observation : PinnedForkObservation} :
    observed unicode port chainId blockNumber chainValue blockValue = .ok observation ↔
      ReadsAs unicode chainId chainValue ∧
        observeBlock unicode blockValue chainId blockNumber = .ok observation := by
  have inRange : ¬ ((chainId : ℤ) < 1 ∨ (blockNumber : ℤ) < 0) := by omega
  have unfolded : observed unicode port chainId blockNumber chainValue blockValue =
      hexQuantity unicode chainValue "chain ID" >>= fun found =>
        raiseIf ((found : ℤ) ≠ chainId)
          (.binding "observed fork chain ID does not match the configured pin") >>= fun _ =>
            observeBlock unicode blockValue found blockNumber :=
    raiseIf_bind_of_not inRange _ _
  rw [unfolded, bind_eq_ok_iff]
  simp only [raiseIf_bind_eq_ok_iff, hexQuantity_eq_ok_iff]
  constructor
  · rintro ⟨found, isFound, same, block⟩
    obtain rfl : found = chainId := by omega
    exact ⟨isFound, block⟩
  · rintro ⟨isFound, block⟩
    exact ⟨chainId, isFound, by omega, block⟩

/-! ## Canonical texts are read -/

theorem ReadsAs.canonical {number : ℕ} {value : Json} (reads : ReadsAs unicode number value)
    (digitsOnly : OnlyDigits value) : CanonicalQuantity number value := by
  obtain ⟨digits, rfl, nonempty, leading, isRead, -⟩ := reads
  have all := digitsOnly digits rfl
  rw [intOf16?_of_digits unicode nonempty all] at isRead
  exact ⟨digits, rfl, nonempty, all, leading, by simpa using isRead⟩

theorem CanonicalQuantity.readsAs {number : ℕ} {value : Json}
    (canonical : CanonicalQuantity number value) (small : number < 2 ^ 256) :
    ReadsAs unicode number value ∧ OnlyDigits value := by
  obtain ⟨digits, rfl, nonempty, all, leading, rfl⟩ := canonical
  refine ⟨⟨digits, rfl, nonempty, leading, intOf16?_of_digits unicode nonempty all, small⟩, ?_⟩
  intro other same
  obtain rfl : digits = other := by simpa using same
  exact all

/-- The digits of a hash are lower-case digits after they were lowered. -/
theorem isLowerHex_toLower {char : Char} (isDigit : isHexDigit char = true) :
    isLowerHex char.toLower = true := by
  have code := code_of_isHexDigit isDigit
  rw [← Char.ofNat_toNat char]
  generalize char.toNat = number at code
  rcases code with ⟨lower, upper⟩ | ⟨lower, upper⟩ | ⟨lower, upper⟩ <;>
    interval_cases number <;> decide

theorem isWord64_of_digits {digits : List Char} (length : digits.length = 64)
    (all : digits.all isHexDigit = true) :
    isWord64 ('0' :: 'x' :: digits.map Char.toLower) = true := by
  rw [isWord64, List.length_map, length, List.all_map, Bool.and_eq_true]
  refine ⟨rfl, List.all_eq_true.mpr fun char member => ?_⟩
  exact isLowerHex_toLower (List.all_eq_true.mp all char member)

/-! ## The theorem -/

variable {unicode}

theorem LooseIdentity.observed_and_not_canonical (port : ℕ) {chainId blockNumber : ℕ}
    (positive : 1 ≤ chainId) {chainValue : Json} {fields : Json.Fields}
    (identity : LooseIdentity unicode chainId blockNumber chainValue fields) :
    (∃ observation,
        observed unicode port chainId blockNumber chainValue (.object fields) = .ok observation) ∧
      ¬ CanonicalIdentity chainId blockNumber chainValue (.object fields) := by
  constructor
  · obtain ⟨digits, isHash, length, isSome⟩ := identity.hash
    exact ⟨_, (observed_eq_ok_iff unicode positive).mpr ⟨identity.chain,
      (observeBlock_eq_ok_iff unicode).mpr
        ⟨fields, digits, rfl, identity.number, isHash, length, isSome, rfl⟩⟩⟩
  · intro canonical
    obtain ⟨other, same, number, hash⟩ := canonical.block
    cases same
    refine identity.loose ⟨?_, ?_, ?_⟩
    · obtain ⟨digits, rfl, -, all, -⟩ := canonical.chain
      intro other same
      obtain rfl : digits = other := by simpa using same
      exact all
    · obtain ⟨digits, isNumber, -, all, -⟩ := number
      intro other same
      obtain rfl : digits = other := by simpa using isNumber.symm.trans same
      exact all
    · obtain ⟨digits, isHash, -, all⟩ := hash
      intro other same
      obtain rfl : digits = other := by simpa using isHash.symm.trans same
      exact all

end Reading

/-! ## Answers with a sign and with spaces -/

/-- Only the decimal digits and the spaces of ASCII. -/
def asciiOnly : Unicode where
  isSpace _ := false
  decimal _ := none

def textAnswer (text : String) : Json :=
  .string text.toList

/-- A block with this number and hash. -/
def blockAnswer (number : String) (hash : List Char) : Json :=
  .object [("number".toList, textAnswer number), ("hash".toList, .string hash)]

def plainHash : List Char :=
  '0' :: 'x' :: List.replicate 64 'A'

theorem canonicalIdentity_sample :
    CanonicalIdentity 1 0 (textAnswer "0x1") (blockAnswer "0x0" plainHash) where
  chain := ⟨['1'], rfl, by decide, rfl, Or.inl rfl, rfl⟩
  block := ⟨_, rfl, ⟨['0'], rfl, by decide, rfl, Or.inl rfl, rfl⟩,
    List.replicate 64 'A', rfl, rfl, by decide⟩

end Rpc

end MmAudit
