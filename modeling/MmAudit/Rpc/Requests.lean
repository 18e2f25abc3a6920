import MmAudit.Library.Fallible
import MmAudit.Library.Json

/-!
# Requests to the read-only RPC bridge

A payload is one call or a batch.  Each call has an identifier, an allowed method and
parameters; block references in the parameters are pinned to one block, and methods
that name a block by number are sent on under their counterpart that names it by hash.
A few methods are answered by the bridge itself.
-/

namespace MmAudit

namespace Rpc

open Fallible

/-- `_RejectionKind` -/
inductive RejectionKind where
  | denied
  | limit
  | malformed
  | upstream
deriving DecidableEq, Repr

/-- The methods of `_METHOD_ARITY`. -/
inductive RpcMethod where
  | blockNumber
  | call
  | chainId
  | gasPrice
  | getAccountInfo
  | getBalance
  | getBlockByHash
  | getBlockByNumber
  | getBlockReceipts
  | getBlockTransactionCountByHash
  | getBlockTransactionCountByNumber
  | getCode
  | getLogs
  | getStorageAt
  | getTransactionByBlockHashAndIndex
  | getTransactionByBlockNumberAndIndex
  | getTransactionCount
  | getUncleByBlockHashAndIndex
  | getUncleByBlockNumberAndIndex
  | getUncleCountByBlockHash
  | getUncleCountByBlockNumber
  | netVersion
deriving DecidableEq, Repr

namespace RpcMethod

def name : RpcMethod → String
  | blockNumber => "eth_blockNumber"
  | call => "eth_call"
  | chainId => "eth_chainId"
  | gasPrice => "eth_gasPrice"
  | getAccountInfo => "eth_getAccountInfo"
  | getBalance => "eth_getBalance"
  | getBlockByHash => "eth_getBlockByHash"
  | getBlockByNumber => "eth_getBlockByNumber"
  | getBlockReceipts => "eth_getBlockReceipts"
  | getBlockTransactionCountByHash => "eth_getBlockTransactionCountByHash"
  | getBlockTransactionCountByNumber => "eth_getBlockTransactionCountByNumber"
  | getCode => "eth_getCode"
  | getLogs => "eth_getLogs"
  | getStorageAt => "eth_getStorageAt"
  | getTransactionByBlockHashAndIndex => "eth_getTransactionByBlockHashAndIndex"
  | getTransactionByBlockNumberAndIndex => "eth_getTransactionByBlockNumberAndIndex"
  | getTransactionCount => "eth_getTransactionCount"
  | getUncleByBlockHashAndIndex => "eth_getUncleByBlockHashAndIndex"
  | getUncleByBlockNumberAndIndex => "eth_getUncleByBlockNumberAndIndex"
  | getUncleCountByBlockHash => "eth_getUncleCountByBlockHash"
  | getUncleCountByBlockNumber => "eth_getUncleCountByBlockNumber"
  | netVersion => "net_version"

/-- The order of `_METHOD_ARITY`. -/
def all : List RpcMethod :=
  [blockNumber, call, chainId, gasPrice, getAccountInfo, getBalance, getBlockByHash,
    getBlockByNumber, getBlockReceipts, getBlockTransactionCountByHash,
    getBlockTransactionCountByNumber, getCode, getLogs, getStorageAt,
    getTransactionByBlockHashAndIndex, getTransactionByBlockNumberAndIndex, getTransactionCount,
    getUncleByBlockHashAndIndex, getUncleByBlockNumberAndIndex, getUncleCountByBlockHash,
    getUncleCountByBlockNumber, netVersion]

def ofName? (name : List Char) : Option RpcMethod :=
  all.find? (·.name.toList = name)

/-- `_METHOD_ARITY` -/
def arity : RpcMethod → ℕ × ℕ
  | blockNumber | chainId | gasPrice | netVersion => (0, 0)
  | call => (1, 2)
  | getAccountInfo | getBalance | getBlockByHash | getBlockByNumber | getCode
  | getTransactionByBlockHashAndIndex | getTransactionByBlockNumberAndIndex | getTransactionCount
  | getUncleByBlockHashAndIndex | getUncleByBlockNumberAndIndex => (2, 2)
  | getBlockReceipts | getBlockTransactionCountByHash | getBlockTransactionCountByNumber | getLogs
  | getUncleCountByBlockHash | getUncleCountByBlockNumber => (1, 1)
  | getStorageAt => (3, 3)

/-- `_SYNTHETIC_METHODS` -/
def isSynthetic : RpcMethod → Bool
  | blockNumber | chainId | gasPrice | netVersion => true
  | _ => false

/-- `_EIP_1898_PARAM_INDEX` -/
def eip1898ParamIndex? : RpcMethod → Option ℕ
  | call | getAccountInfo | getBalance | getCode | getTransactionCount => some 1
  | getStorageAt => some 2
  | _ => none

/-- `_HASH_PARAM_INDEX` -/
def hashParamIndex? : RpcMethod → Option ℕ
  | getBlockByHash | getBlockTransactionCountByHash | getTransactionByBlockHashAndIndex
  | getUncleByBlockHashAndIndex | getUncleCountByBlockHash => some 0
  | _ => none

/-- `_NUMBER_TO_HASH_METHOD` -/
def numberToHash? : RpcMethod → Option RpcMethod
  | getBlockByNumber => some getBlockByHash
  | getBlockTransactionCountByNumber => some getBlockTransactionCountByHash
  | getTransactionByBlockNumberAndIndex => some getTransactionByBlockHashAndIndex
  | getUncleByBlockNumberAndIndex => some getUncleByBlockHashAndIndex
  | getUncleCountByBlockNumber => some getUncleCountByBlockHash
  | _ => none

end RpcMethod

/-- An identifier with its type, the key of `_rpc_id_key`. -/
inductive RpcId where
  | number (value : ℤ)
  | text (value : List Char)
deriving DecidableEq, Repr

namespace RpcId

def json : RpcId → Json
  | number value => .int value
  | text value => .string value

theorem json_injective : Function.Injective json := by
  intro first second same
  cases first <;> cases second <;> cases same <;> rfl

end RpcId

/-- `_MAX_RPC_ID_TEXT_LENGTH` -/
def maxRpcIdTextLength : ℕ := 128

/-- `_MAX_RPC_PARAMS` -/
def maxRpcParams : ℕ := 64

/-- The key of a value that passes `_valid_rpc_id`. -/
def validRpcId? : Json → Option RpcId
  | .int value => if -2 ^ 63 ≤ value ∧ value < 2 ^ 63 then some (.number value) else none
  | .string value =>
      if 0 < value.length ∧ value.length ≤ maxRpcIdTextLength ∧
          (value.all fun char => decide (32 ≤ char.toNat) && char.toNat != 127) = true then
        some (.text value)
      else none
  | _ => none

theorem json_of_validRpcId? {value : Json} {id : RpcId} (valid : validRpcId? value = some id) :
    value = id.json := by
  unfold validRpcId? at valid
  split at valid
  · split at valid
    · cases valid
      rfl
    · cases valid
  · split at valid
    · cases valid
      rfl
    · cases valid
  · cases valid

def isLowerHex (char : Char) : Bool :=
  char.isDigit || decide ('a' ≤ char ∧ char ≤ 'f')

/-- `0x` and 64 lower-case hexadecimal digits. -/
def isWord64 : List Char → Bool
  | '0' :: 'x' :: digits => digits.length == 64 && digits.all isLowerHex
  | _ => false

/-- `_BLOCK_TAG_PATTERN`: a hexadecimal number without leading zeros. -/
def isBlockTag : List Char → Bool
  | ['0', 'x', '0'] => true
  | '0' :: 'x' :: first :: digits => first != '0' && (first :: digits).all isLowerHex
  | _ => false

/-- `hex` -/
def hexText (number : ℕ) : List Char :=
  '0' :: 'x' :: Nat.toDigits 16 number

/-- `DETERMINISTIC_FORK_GAS_PRICE_WEI` -/
def deterministicForkGasPriceWei : ℕ := 1000000000

/-- The pinned state and the limits that requests are checked against. -/
structure RpcPolicy where
  expectedChainId : ℕ
  pinnedBlockNumber : ℕ
  pinnedBlockHash : List Char
  maxBatchSize : ℕ
  hashIsWord : isWord64 pinnedBlockHash = true

/-- `_PreparedCall` -/
structure PreparedCall where
  requestId : RpcId
  method : RpcMethod
  originMethod : RpcMethod
  payload : Json
  syntheticResult : Option Json
  isSynthetic : Bool

namespace RpcPolicy

variable (policy : RpcPolicy)

/-- `_pinned_block_tag` -/
def pinnedBlockTag : List Char :=
  hexText policy.pinnedBlockNumber

/-- `_canonical_block_reference` -/
def canonicalBlockReference : Json :=
  .object [("blockHash".toList, .string policy.pinnedBlockHash),
    ("requireCanonical".toList, .bool true)]

/-- `_normalize_block_tag` -/
def normalizeBlockTag (value : Json) : Except RejectionKind (List Char) :=
  match value with
  | .string text =>
      if ["latest", "safe", "finalized"].any (·.toList = text) then .ok policy.pinnedBlockTag
      else if text = "earliest".toList ∧ policy.pinnedBlockNumber = 0 then
        .ok policy.pinnedBlockTag
      else if isBlockTag text = true ∧ text = policy.pinnedBlockTag then .ok text
      else .error .denied
  | _ => .error .denied

/-- `_normalize_block_reference` -/
def normalizeBlockReference (value : Json) : Except RejectionKind Json :=
  match value with
  | .object fields =>
      if Json.keysWithin fields ["blockHash", "requireCanonical"] = true ∧
          (Json.get? fields "blockHash").any (·.isText policy.pinnedBlockHash) = true ∧
          (match Json.get? fields "requireCanonical" with
            | some (.bool true) => true
            | _ => false) = true then
        .ok policy.canonicalBlockReference
      else
        .error .denied
  | _ => (policy.normalizeBlockTag value).map fun _ => policy.canonicalBlockReference

/-- `_normalize_block_hash` -/
def normalizeBlockHash (value : Json) : Except RejectionKind Json :=
  if value.isText policy.pinnedBlockHash then .ok (.string policy.pinnedBlockHash)
  else .error .denied

/-- `_pin_log_filter` -/
def pinLogFilter (params : List Json) : Except RejectionKind (List Json) :=
  match params with
  | [.object fields] =>
      match Json.get? fields "blockHash" with
      | some hash => do
          raiseIf ((Json.get? fields "fromBlock").isSome || (Json.get? fields "toBlock").isSome)
            .malformed
          let pinned ← policy.normalizeBlockHash hash
          pure [.object (Json.setField fields "blockHash" pinned)]
      | none => do
          let _ ← policy.normalizeBlockTag
            ((Json.get? fields "fromBlock").getD (.string "latest".toList))
          let _ ← policy.normalizeBlockTag
            ((Json.get? fields "toBlock").getD (.string "latest".toList))
          let remaining := fields.filter fun field =>
            field.1 ≠ "fromBlock".toList ∧ field.1 ≠ "toBlock".toList
          pure [.object (Json.setField remaining "blockHash" (.string policy.pinnedBlockHash))]
  | _ => .error .malformed

/-- Replace the parameter at an index; a missing one is an unexpected error. -/
def replaceParam (params : List Json) (index : ℕ)
    (normalize : Json → Except RejectionKind Json) : Except RejectionKind (List Json) :=
  match params[index]? with
  | some value => (normalize value).map (params.set index)
  | none => .error .upstream

/-- `_pin_params` -/
def pinParams (method : RpcMethod) (params : List Json) : Except RejectionKind (List Json) := do
  let params ← match method.eip1898ParamIndex? with
    | some index =>
        if index = params.length ∧ method = .call then
          pure (params ++ [policy.canonicalBlockReference])
        else
          replaceParam params index policy.normalizeBlockReference
    | none => pure params
  let params ←
    if method.numberToHash?.isSome then
      replaceParam params 0 fun value =>
        (policy.normalizeBlockTag value).map fun _ => .string policy.pinnedBlockHash
    else pure params
  let params ← match method.hashParamIndex? with
    | some index => replaceParam params index policy.normalizeBlockHash
    | none => pure params
  if method = .getBlockReceipts then
    replaceParam params 0 fun value =>
      match value with
      | .string text =>
          if isWord64 text then policy.normalizeBlockHash value
          else (policy.normalizeBlockTag value).map fun _ => .string policy.pinnedBlockHash
      | _ => (policy.normalizeBlockTag value).map fun _ => .string policy.pinnedBlockHash
  else if method = .getLogs then policy.pinLogFilter params
  else pure params

/-- The answer that the bridge gives itself. -/
def syntheticResult? : RpcMethod → Option Json
  | .chainId => some (.string (hexText policy.expectedChainId))
  | .blockNumber => some (.string policy.pinnedBlockTag)
  | .gasPrice => some (.string (hexText deterministicForkGasPriceWei))
  | .netVersion => some (.string (Nat.toDigits 10 policy.expectedChainId))
  | _ => none

/-- `_prepare_call` -/
def prepareCall (item : Json) : Except RejectionKind PreparedCall :=
  match item with
  | .object fields => do
      raiseIf (!(["jsonrpc", "id", "method"].all fun key => (Json.get? fields key).isSome) ||
        !Json.keysWithin fields ["jsonrpc", "id", "method", "params"]) .malformed
      match (Json.get? fields "id").bind validRpcId? with
      | none => .error .malformed
      | some requestId => do
          raiseIf (!(Json.get? fields "jsonrpc").any (·.isText "2.0".toList)) .malformed
          match Json.get? fields "method" with
          | some (.string name) =>
              match RpcMethod.ofName? name with
              | none => .error .denied
              | some method =>
                  match (Json.get? fields "params").getD (.array []) with
                  | .array params => do
                      raiseIf (maxRpcParams < params.length) .malformed
                      raiseIf (params.length < method.arity.1 ∨ method.arity.2 < params.length)
                        .malformed
                      let normalized ← policy.pinParams method params
                      let originMethod := method.numberToHash?.getD method
                      pure {
                        requestId := requestId
                        method := method
                        originMethod := originMethod
                        payload := .object [("jsonrpc".toList, .string "2.0".toList),
                          ("id".toList, requestId.json),
                          ("method".toList, .string originMethod.name.toList),
                          ("params".toList, .array normalized)]
                        syntheticResult := policy.syntheticResult? method
                        isSynthetic := method.isSynthetic }
                  | _ => .error .malformed
          | _ => .error .malformed
  | _ => .error .malformed

/-- The calls of a payload before they are prepared, and whether they came as a batch. -/
def requestItems (payload : Json) : Except RejectionKind (List Json × Bool) :=
  match payload with
  | .array items =>
      if items.isEmpty || decide (policy.maxBatchSize < items.length) then .error .limit
      else .ok (items, true)
  | .object fields => .ok ([.object fields], false)
  | _ => .error .malformed

/-- `_prepare_payload` -/
def preparePayload (payload : Json) : Except RejectionKind (List PreparedCall × Bool) := do
  let request ← policy.requestItems payload
  let prepared ← request.1.mapM policy.prepareCall
  raiseIf (¬ (prepared.map PreparedCall.requestId).Nodup) .malformed
  pure (prepared, request.2)

end RpcPolicy

end Rpc

end MmAudit
