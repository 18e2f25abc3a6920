import MmAudit.Library.Assignments
import MmAudit.Library.Pairing
import MmAudit.Rpc.Requests

/-!
# Answers of the read-only RPC bridge

The calls that are not answered by the bridge itself are sent on together, and what comes
back is checked item by item against the calls that were sent.  The answer has one entry
for each request, in the order of the requests.

An upstream payload passes the checks exactly when its items can be arranged so that they
answer the forwarded calls one by one; then these items, in the places of their requests,
are the answer.
-/

namespace MmAudit

namespace Rpc

open Fallible

namespace RpcPolicy

variable (policy : RpcPolicy)

/-! ## What the origin may return -/

def isRpcQuantity : Json → Bool
  | .string text => isBlockTag text
  | _ => false

/-- `_is_hex_bytes` -/
def isHexBytes : Json → Bool
  | .string ('0' :: 'x' :: encoded) => encoded.length % 2 == 0 && encoded.all isLowerHex
  | _ => false

/-- A field of an object passes a check. -/
def fieldIs (fields : Json.Fields) (key : String) (check : Json → Bool) : Bool :=
  (Json.get? fields key).any check

/-- `_has_exact_block_provenance` -/
def hasExactBlockProvenance : Json → Bool
  | .object fields =>
      fieldIs fields "blockNumber" (·.isText policy.pinnedBlockTag) &&
        fieldIs fields "blockHash" (·.isText policy.pinnedBlockHash)
  | _ => false

/-- `_is_exact_pinned_block` -/
def isExactPinnedBlock : Json → Bool
  | .object fields =>
      fieldIs fields "number" (·.isText policy.pinnedBlockTag) &&
        fieldIs fields "hash" (·.isText policy.pinnedBlockHash)
  | _ => false

/-- A log entry is not marked as removed. -/
def notRemoved : Json → Bool
  | .object fields =>
      match Json.get? fields "removed" with
      | none | some (.bool false) => true
      | _ => false
  | _ => true

/-- The value passes `_validate_origin_result` for the method. -/
def validOriginResult (method : RpcMethod) (value : Json) : Bool :=
  match method with
  | .getBalance | .getBlockTransactionCountByHash | .getBlockTransactionCountByNumber
  | .getTransactionCount | .getUncleCountByBlockHash | .getUncleCountByBlockNumber =>
      isRpcQuantity value
  | .call | .getCode => isHexBytes value
  | .getStorageAt =>
      match value with
      | .string text => isWord64 text
      | _ => false
  | .getAccountInfo =>
      match value with
      | .object fields =>
          Json.keysWithin fields ["balance", "code", "nonce"] &&
            fieldIs fields "balance" isRpcQuantity && fieldIs fields "code" isHexBytes &&
            fieldIs fields "nonce" isRpcQuantity
      | _ => false
  | .getBlockByHash | .getBlockByNumber => policy.isExactPinnedBlock value
  | .getBlockReceipts =>
      match value with
      | .array items => items.all policy.hasExactBlockProvenance
      | _ => false
  | .getLogs =>
      match value with
      | .array items => items.all fun item => policy.hasExactBlockProvenance item && notRemoved item
      | _ => false
  | .getTransactionByBlockHashAndIndex | .getTransactionByBlockNumberAndIndex =>
      match value with
      | .null => true
      | value => policy.hasExactBlockProvenance value
  | .getUncleByBlockHashAndIndex | .getUncleByBlockNumberAndIndex =>
      match value with
      | .null => true
      | .object fields =>
          fieldIs fields "number" isRpcQuantity &&
            fieldIs fields "hash" fun
              | .string text => isWord64 text
              | _ => false
      | _ => false
  | .blockNumber | .chainId | .gasPrice | .netVersion => false

/-! ## Checking the upstream payload -/

/-- The identifier of a well-formed response item, with its result; an error, too, is a
rejection. -/
def readResponse (item : Json) : Except RejectionKind (RpcId × Json) :=
  match item with
  | .object fields => do
      raiseIf (!(Json.get? fields "jsonrpc").any (·.isText "2.0".toList)) .upstream
      match (Json.get? fields "id").bind validRpcId? with
      | none => .error .upstream
      | some responseId => do
          raiseIf (!Json.keysWithin fields ["jsonrpc", "id", "result", "error"]) .upstream
          match Json.get? fields "result", Json.get? fields "error" with
          | some result, none => pure (responseId, result)
          | _, _ => .error .upstream
  | _ => .error .upstream

/-- The body of the loop of `_validate_upstream_responses`. -/
def validateResponse (expected : Dict RpcId PreparedCall) (result : Dict RpcId Json)
    (item : Json) : Except RejectionKind (Dict RpcId Json) := do
  let (responseId, value) ← readResponse item
  match expected.get? responseId with
  | none => .error .upstream
  | some call => do
      raiseIf (responseId ∈ result) .upstream
      raiseIf (!policy.validOriginResult call.method value) .upstream
      pure (result.insert responseId item)

/-- The items of the upstream payload, of which there must be as many as forwarded calls. -/
def upstreamItems (payload : Json) (outbound : List PreparedCall) (isBatch : Bool) :
    Except RejectionKind (List Json) :=
  match isBatch, payload with
  | true, .array items =>
      if items.length ≠ outbound.length then .error .upstream else .ok items
  | false, .object fields =>
      if outbound.length ≠ 1 then .error .upstream else .ok [.object fields]
  | _, _ => .error .upstream

/-- The forwarded calls by their identifiers. -/
def expectedCalls (outbound : List PreparedCall) : Dict RpcId PreparedCall :=
  Dict.empty.assign (outbound.map fun call => (call.requestId, call))

/-- `_validate_upstream_responses` -/
def validateUpstreamResponses (payload : Json) (outbound : List PreparedCall) (isBatch : Bool) :
    Except RejectionKind (Dict RpcId Json) := do
  let items ← upstreamItems payload outbound isBatch
  let expected := expectedCalls outbound
  let result ← items.foldlM (policy.validateResponse expected) Dict.empty
  raiseIf (¬ (result.keys ⊆ expected.keys ∧ expected.keys ⊆ result.keys)) .upstream
  pure result

/-- The entry of a call that the bridge answers itself. -/
def syntheticEntry (call : PreparedCall) : Json :=
  .object [("jsonrpc".toList, .string "2.0".toList), ("id".toList, call.requestId.json),
    ("result".toList, call.syntheticResult.getD .null)]

/-- The entry of one call. -/
def combineResponse (upstream : Dict RpcId Json) (call : PreparedCall) :
    Except RejectionKind Json :=
  if call.isSynthetic then .ok (syntheticEntry call)
  else
    match upstream.get? call.requestId with
    | some response => .ok response
    | none => .error .upstream

/-- `_combine_responses` -/
def combineResponses (prepared : List PreparedCall) (upstream : Dict RpcId Json)
    (isBatch : Bool) : Except RejectionKind Json := do
  let combined ← prepared.mapM (combineResponse upstream)
  if isBatch then pure (.array combined)
  else
    match combined with
    | entry :: _ => pure entry
    | [] => .error .upstream

/-- The calls that are sent on. -/
def outboundCalls (prepared : List PreparedCall) : List PreparedCall :=
  prepared.filter (!·.isSynthetic)

/-- What is checked of the response of the origin, unless nothing is sent on. -/
def upstreamResponses (forward : Json → Except RejectionKind Json) (outbound : List PreparedCall)
    (isBatch : Bool) : Except RejectionKind (Dict RpcId Json) :=
  if outbound.isEmpty then .ok Dict.empty
  else do
    let response ← forward
      (if isBatch then .array (outbound.map PreparedCall.payload)
        else (outbound.head?.map PreparedCall.payload).getD .null)
    policy.validateUpstreamResponses response outbound isBatch

/-- The part of `_handle_http_request` between the two payloads: `forward` sends a payload to the
origin and returns the payload of its response. -/
def handlePayload (forward : Json → Except RejectionKind Json) (payload : Json) :
    Except RejectionKind Json := do
  let request ← policy.preparePayload payload
  let upstream ← policy.upstreamResponses forward (outboundCalls request.1) request.2
  combineResponses request.1 upstream request.2

/-! ## Exact answers -/

/-- The payload consists of these items: it is their batch, or the only one of them. -/
def Carries (isBatch : Bool) (payload : Json) (items : List Json) : Prop :=
  if isBatch then payload = .array items else items = [payload]

/-- The identifier that an item carries. -/
def itemId? : Json → Option Json
  | .object fields => Json.get? fields "id"
  | _ => none

/-- The item is a well-formed response without an error, with the identifier of the call and a
result that is valid for its method. -/
def AnswersCall (call : PreparedCall) (item : Json) : Prop :=
  ∃ value, readResponse item = .ok (call.requestId, value) ∧
    policy.validOriginResult call.method value = true

/-- The payload has one item for each forwarded call, in some order, and no other. -/
def CompleteUpstream (outbound : List PreparedCall) (isBatch : Bool) (payload : Json) : Prop :=
  ∃ items, Carries isBatch payload items ∧
    ∃ arranged : List Json, arranged.Perm items ∧
      List.Forall₂ policy.AnswersCall outbound arranged

/-- What the answer has for one request. -/
structure EntryFor (items : List Json) (call : PreparedCall) (entry : Json) : Prop where
  sameId : itemId? entry = some call.requestId.json
  synthetic : call.isSynthetic = true → entry = syntheticEntry call
  forwarded : call.isSynthetic = false → entry ∈ items ∧ policy.AnswersCall call entry ∧
    ∀ other ∈ items, itemId? other = some call.requestId.json → other = entry

/-- The entries of the forwarded calls. -/
def forwardedEntries (prepared : List PreparedCall) (entries : List Json) : List Json :=
  ((prepared.zip entries).filter fun pair => !pair.1.isSynthetic).map Prod.snd

/-- The answer has one entry for each request, in their order, and uses each upstream item
once. -/
def ExactAnswer (prepared : List PreparedCall) (isBatch : Bool) (items : List Json)
    (answer : Json) : Prop :=
  ∃ entries, Carries isBatch answer entries ∧
    List.Forall₂ (policy.EntryFor items) prepared entries ∧
    (forwardedEntries prepared entries).Perm items

/-! ## The checks of the upstream payload -/

/-- Nothing but the upstream is blamed. -/
def BlamesUpstream {Value : Type} (computation : Except RejectionKind Value) : Prop :=
  ∀ kind, computation = .error kind → kind = .upstream

theorem blamesUpstream_error {Value : Type} :
    BlamesUpstream (.error .upstream : Except RejectionKind Value) :=
  fun _ same => by cases same; rfl

theorem blamesUpstream_ok {Value : Type} (value : Value) :
    BlamesUpstream (.ok value : Except RejectionKind Value) :=
  fun _ same => by cases same

theorem BlamesUpstream.bind {Value Result : Type} {computation : Except RejectionKind Value}
    {continuation : Value → Except RejectionKind Result} (first : BlamesUpstream computation)
    (rest : ∀ value, BlamesUpstream (continuation value)) :
    BlamesUpstream (computation >>= continuation) := by
  intro kind failed
  rcases bind_eq_error_iff.mp failed with early | ⟨value, -, late⟩
  · exact first kind early
  · exact rest value kind late

theorem blamesUpstream_raiseIf (condition : Prop) [Decidable condition] :
    BlamesUpstream (raiseIf condition RejectionKind.upstream) := by
  unfold raiseIf
  split
  · exact blamesUpstream_error
  · exact blamesUpstream_ok _

theorem blamesUpstream_readResponse (item : Json) : BlamesUpstream (readResponse item) := by
  unfold readResponse
  split
  · refine (blamesUpstream_raiseIf _).bind fun _ => ?_
    split
    · exact blamesUpstream_error
    · refine (blamesUpstream_raiseIf _).bind fun _ => ?_
      split
      · exact blamesUpstream_ok _
      · exact blamesUpstream_error
  · exact blamesUpstream_error

theorem blamesUpstream_validateResponse (expected : Dict RpcId PreparedCall)
    (result : Dict RpcId Json) (item : Json) :
    BlamesUpstream (policy.validateResponse expected result item) := by
  unfold validateResponse
  refine (blamesUpstream_readResponse item).bind fun response => ?_
  dsimp only
  split
  · exact blamesUpstream_error
  · exact (blamesUpstream_raiseIf _).bind fun _ => (blamesUpstream_raiseIf _).bind fun _ =>
      blamesUpstream_ok _

theorem blamesUpstream_foldlM (expected : Dict RpcId PreparedCall) (items : List Json)
    (result : Dict RpcId Json) :
    BlamesUpstream (items.foldlM (policy.validateResponse expected) result) := by
  induction items generalizing result with
  | nil => exact blamesUpstream_ok result
  | cons item items ih =>
      rw [List.foldlM_cons]
      exact (policy.blamesUpstream_validateResponse expected result item).bind ih

/-- Whatever is wrong with the payload, the whole request fails, and the upstream is blamed. -/
theorem blamesUpstream_validateUpstreamResponses (payload : Json) (outbound : List PreparedCall)
    (isBatch : Bool) : BlamesUpstream (policy.validateUpstreamResponses payload outbound isBatch) := by
  unfold validateUpstreamResponses
  have ofItems : BlamesUpstream (upstreamItems payload outbound isBatch) := by
    unfold upstreamItems
    split
    · split
      · exact blamesUpstream_error
      · exact blamesUpstream_ok _
    · split
      · exact blamesUpstream_error
      · exact blamesUpstream_ok _
    · exact blamesUpstream_error
  exact ofItems.bind fun items => (policy.blamesUpstream_foldlM _ items _).bind fun result =>
    (blamesUpstream_raiseIf _).bind fun _ => blamesUpstream_ok result

/-- The calls found under the identifiers of the forwarded calls are these calls. -/
theorem get?_expectedCalls {outbound : List PreparedCall}
    (distinct : (outbound.map PreparedCall.requestId).Nodup) {id : RpcId} {call : PreparedCall} :
    (expectedCalls outbound).get? id = some call ↔ call ∈ outbound ∧ call.requestId = id := by
  have items : (expectedCalls outbound).items = outbound.map fun call => (call.requestId, call) :=
    Dict.items_assign_empty (by simpa [Function.comp_def] using distinct)
  rw [Dict.get?_eq_some_iff, items, List.mem_map]
  constructor
  · rintro ⟨found, member, same⟩
    cases same
    exact ⟨member, rfl⟩
  · rintro ⟨member, rfl⟩
    exact ⟨call, member, rfl⟩

theorem keys_expectedCalls {outbound : List PreparedCall}
    (distinct : (outbound.map PreparedCall.requestId).Nodup) :
    (expectedCalls outbound).keys = outbound.map PreparedCall.requestId := by
  rw [Dict.keys, expectedCalls, Dict.items_assign_empty (by simpa [Function.comp_def] using distinct)]
  simp [Function.comp_def]

/-- One item passes the loop body exactly when it answers an expected call that has not been
answered yet. -/
theorem validateResponse_eq_ok_iff (expected : Dict RpcId PreparedCall)
    (before after : Dict RpcId Json) (item : Json) :
    policy.validateResponse expected before item = .ok after ↔
      ∃ call value id, readResponse item = .ok (id, value) ∧ expected.get? id = some call ∧
        policy.validOriginResult call.method value = true ∧ id ∉ before ∧
        before.insert id item = after := by
  unfold validateResponse
  rw [bind_eq_ok_iff]
  constructor
  · rintro ⟨⟨id, value⟩, read, passed⟩
    dsimp only at passed
    split at passed
    · cases passed
    · next call found =>
        rw [raiseIf_bind_eq_ok_iff, raiseIf_bind_eq_ok_iff] at passed
        obtain ⟨fresh, valid, same⟩ := passed
        cases same
        exact ⟨call, value, id, read, found, by simpa using valid, fresh, rfl⟩
  · rintro ⟨call, value, id, read, found, valid, fresh, rfl⟩
    refine ⟨(id, value), read, ?_⟩
    simp only [found]
    rw [raiseIf_bind_eq_ok_iff, raiseIf_bind_eq_ok_iff]
    exact ⟨fresh, by simpa using valid, rfl⟩

/-- The loop succeeds exactly when the items answer different expected calls, and then holds each
item under the identifier of its call. -/
theorem foldlM_validateResponse_iff {outbound : List PreparedCall}
    (distinct : (outbound.map PreparedCall.requestId).Nodup) (items : List Json)
    (before after : Dict RpcId Json) :
    items.foldlM (policy.validateResponse (expectedCalls outbound)) before = .ok after ↔
      ∃ answered, List.Forall₂ (fun call item => call ∈ outbound ∧ policy.AnswersCall call item)
          answered items ∧
        (before.keys ++ answered.map PreparedCall.requestId).Nodup ∧
        before.assign ((answered.map PreparedCall.requestId).zip items) = after := by
  induction items generalizing before with
  | nil =>
      constructor
      · intro finished
        cases finished
        exact ⟨[], .nil, by rw [List.map_nil, List.append_nil]; exact after.nodup, rfl⟩
      · rintro ⟨answered, pairs, -, same⟩
        cases pairs
        cases same
        rfl
  | cons item items ih =>
      rw [List.foldlM_cons, bind_eq_ok_iff]
      constructor
      · rintro ⟨middle, first, rest⟩
        obtain ⟨call, value, id, read, found, valid, fresh, rfl⟩ :=
          (policy.validateResponse_eq_ok_iff _ _ _ _).mp first
        obtain ⟨member, rfl⟩ := (get?_expectedCalls distinct).mp found
        obtain ⟨answered, pairs, apart, rfl⟩ := (ih _).mp rest
        refine ⟨call :: answered, .cons ⟨member, value, read, valid⟩ pairs, ?_, rfl⟩
        rw [Dict.keys_insert_of_not_mem fresh, List.append_assoc] at apart
        exact apart
      · rintro ⟨answered, pairs, apart, rfl⟩
        cases pairs with
        | @cons call _ answered _ first pairs =>
            obtain ⟨member, value, read, valid⟩ := first
            have fresh : call.requestId ∉ before := by
              intro present
              rw [List.map_cons, List.nodup_append] at apart
              exact apart.2.2 _ present _ List.mem_cons_self rfl
            refine ⟨_, (policy.validateResponse_eq_ok_iff _ _ _ _).mpr ⟨call, value,
              call.requestId, read, (get?_expectedCalls distinct).mpr ⟨member, rfl⟩, valid, fresh,
              rfl⟩, (ih _).mpr ⟨answered, pairs, ?_, rfl⟩⟩
            rw [Dict.keys_insert_of_not_mem fresh, List.append_assoc]
            exact apart

theorem upstreamItems_eq_ok_iff {payload : Json} {outbound : List PreparedCall} {isBatch : Bool}
    {items : List Json} :
    upstreamItems payload outbound isBatch = .ok items ↔
      Carries isBatch payload items ∧ items.length = outbound.length ∧
        (isBatch = false → ∃ fields, payload = .object fields) := by
  unfold upstreamItems Carries
  split
  · simp only [↓reduceIte, Bool.true_eq_false, false_implies, and_true, Json.array.injEq]
    split
    · next different =>
        constructor
        · exact fun impossible => (nomatch impossible)
        · rintro ⟨rfl, same⟩
          exact absurd same different
    · next same =>
        constructor
        · intro passed
          cases passed
          exact ⟨rfl, not_not.mp same⟩
        · rintro ⟨rfl, -⟩
          rfl
  · next fields =>
      simp only [Bool.false_eq_true, ↓reduceIte, Json.object.injEq, exists_eq', implies_true,
        and_true]
      split
      · next different =>
          constructor
          · exact fun impossible => (nomatch impossible)
          · rintro ⟨rfl, same⟩
            exact absurd same.symm different
      · next same =>
          constructor
          · intro passed
            cases passed
            exact ⟨rfl, (not_not.mp same).symm⟩
          · rintro ⟨rfl, -⟩
            rfl
  · next noArray noObject =>
      constructor
      · exact fun impossible => (nomatch impossible)
      · rintro ⟨carries, -, isObject⟩
        cases isBatch with
        | true =>
            rw [if_pos rfl] at carries
            exact (noArray items rfl carries).elim
        | false =>
            obtain ⟨fields, same⟩ := isObject rfl
            exact (noObject fields rfl same).elim

/-- An item that answers a call is an object with the identifier of the call. -/
theorem AnswersCall.fields {policy : RpcPolicy} {call : PreparedCall} {item : Json}
    (answers : policy.AnswersCall call item) :
    ∃ fields, item = .object fields ∧ Json.get? fields "id" = some call.requestId.json := by
  obtain ⟨value, read, -⟩ := answers
  unfold readResponse at read
  split at read
  · next fields =>
      refine ⟨fields, rfl, ?_⟩
      rw [raiseIf_bind_eq_ok_iff] at read
      obtain ⟨-, read⟩ := read
      split at read
      · cases read
      · next id valid =>
          rw [raiseIf_bind_eq_ok_iff] at read
          obtain ⟨-, read⟩ := read
          split at read
          · cases read
            obtain ⟨found, isFound, isValid⟩ := Option.bind_eq_some_iff.mp valid
            rw [isFound, json_of_validRpcId? isValid]
          · cases read
  · cases read

theorem AnswersCall.itemId {policy : RpcPolicy} {call : PreparedCall} {item : Json}
    (answers : policy.AnswersCall call item) : itemId? item = some call.requestId.json := by
  obtain ⟨fields, rfl, found⟩ := answers.fields
  exact found

/-- The items under the identifiers of the calls they answer. -/
def responsesOf (answered : List PreparedCall) (items : List Json) : Dict RpcId Json :=
  Dict.empty.assign ((answered.map PreparedCall.requestId).zip items)

theorem items_responsesOf {answered : List PreparedCall} {items : List Json}
    (apart : (answered.map PreparedCall.requestId).Nodup)
    (sameLength : answered.length = items.length) :
    (responsesOf answered items).items = (answered.map PreparedCall.requestId).zip items := by
  refine Dict.items_assign_empty ?_
  rw [List.map_fst_zip (by rw [List.length_map, sameLength])]
  exact apart

theorem keys_responsesOf {answered : List PreparedCall} {items : List Json}
    (apart : (answered.map PreparedCall.requestId).Nodup)
    (sameLength : answered.length = items.length) :
    (responsesOf answered items).keys = answered.map PreparedCall.requestId := by
  rw [Dict.keys, items_responsesOf apart sameLength,
    List.map_fst_zip (by rw [List.length_map, sameLength])]

/-- What passes the checks: items that answer the forwarded calls in some order. -/
theorem validateUpstreamResponses_eq_ok_iff {payload : Json} {outbound : List PreparedCall}
    {isBatch : Bool} (distinct : (outbound.map PreparedCall.requestId).Nodup)
    {responses : Dict RpcId Json} :
    policy.validateUpstreamResponses payload outbound isBatch = .ok responses ↔
      ∃ items answered, Carries isBatch payload items ∧ answered.Perm outbound ∧
        List.Forall₂ policy.AnswersCall answered items ∧ responsesOf answered items = responses := by
  unfold validateUpstreamResponses
  rw [bind_eq_ok_iff]
  constructor
  · rintro ⟨items, ofItems, validated⟩
    rw [bind_eq_ok_iff] at validated
    obtain ⟨result, loop, validated⟩ := validated
    rw [raiseIf_bind_eq_ok_iff, not_not] at validated
    obtain ⟨⟨-, covers⟩, same⟩ := validated
    cases same
    obtain ⟨answered, pairs, apart, rfl⟩ :=
      (policy.foldlM_validateResponse_iff distinct items _ _).mp loop
    have sameLength := pairs.length_eq
    rw [show (Dict.empty : Dict RpcId Json).assign _ = responsesOf answered items from rfl,
      keys_responsesOf apart sameLength, keys_expectedCalls distinct] at covers
    refine ⟨items, answered, (upstreamItems_eq_ok_iff.mp ofItems).1, ?_,
      pairs.imp fun _ _ pair => pair.2, rfl⟩
    refine (List.perm_ext_iff_of_nodup (List.Nodup.of_map _ apart)
      (List.Nodup.of_map _ distinct)).mpr fun call => ⟨fun member => ?_, fun member => ?_⟩
    · obtain ⟨item, -, forwarded, -⟩ := Pairing.exists_right pairs member
      exact forwarded
    · obtain ⟨other, otherMem, same⟩ := List.mem_map.mp (covers (List.mem_map_of_mem member))
      obtain ⟨item, -, forwarded, -⟩ := Pairing.exists_right pairs otherMem
      rwa [← List.inj_on_of_nodup_map distinct forwarded member same]
  · rintro ⟨items, answered, carries, perm, pairs, rfl⟩
    have sameLength := pairs.length_eq
    have apart : (answered.map PreparedCall.requestId).Nodup :=
      (perm.map _).nodup_iff.mpr distinct
    have isObject : isBatch = false → ∃ fields, payload = .object fields := by
      rintro rfl
      rw [Carries, if_neg Bool.false_ne_true] at carries
      subst carries
      cases pairs with
      | cons answers _ =>
          obtain ⟨fields, same, -⟩ := answers.fields
          exact ⟨fields, same⟩
    refine ⟨items, upstreamItems_eq_ok_iff.mpr
      ⟨carries, sameLength.symm.trans perm.length_eq, isObject⟩, ?_⟩
    rw [bind_eq_ok_iff]
    refine ⟨responsesOf answered items, (policy.foldlM_validateResponse_iff distinct items _ _).mpr
      ⟨answered, ?_, apart, rfl⟩, ?_⟩
    · rw [List.forall₂_iff_zip] at pairs ⊢
      exact ⟨sameLength, fun {call item} member =>
        ⟨perm.mem_iff.mp (List.of_mem_zip member).1, pairs.2 member⟩⟩
    · rw [raiseIf_bind_eq_ok_iff, not_not, keys_responsesOf apart sameLength,
        keys_expectedCalls distinct]
      exact ⟨⟨(perm.map _).subset, (perm.map _).symm.subset⟩, rfl⟩

/-- A payload passes the checks exactly when it is complete. -/
theorem exists_validateUpstreamResponses_iff {payload : Json} {outbound : List PreparedCall}
    {isBatch : Bool} (distinct : (outbound.map PreparedCall.requestId).Nodup) :
    (∃ responses, policy.validateUpstreamResponses payload outbound isBatch = .ok responses) ↔
      policy.CompleteUpstream outbound isBatch payload := by
  simp only [policy.validateUpstreamResponses_eq_ok_iff distinct]
  constructor
  · rintro ⟨-, items, answered, carries, perm, pairs, -⟩
    obtain ⟨arranged, arrangedPairs, arrangedPerm⟩ := List.perm_comp_forall₂ perm.symm pairs
    exact ⟨items, carries, arranged, arrangedPerm, arrangedPairs⟩
  · rintro ⟨items, carries, arranged, arrangedPerm, arrangedPairs⟩
    obtain ⟨answered, pairs, perm⟩ :=
      List.perm_comp_forall₂ arrangedPerm.symm arrangedPairs.flip
    exact ⟨_, items, answered, carries, perm, pairs.flip, rfl⟩

/-- Each forwarded call is given the item that answers it. -/
theorem arranged_of_validated {payload : Json} {outbound : List PreparedCall}
    {isBatch : Bool} (distinct : (outbound.map PreparedCall.requestId).Nodup)
    {responses : Dict RpcId Json}
    (validated : policy.validateUpstreamResponses payload outbound isBatch = .ok responses) :
    ∃ items, Carries isBatch payload items ∧ ∃ arranged : List Json, arranged.Perm items ∧
      List.Forall₂ (fun call item => policy.AnswersCall call item ∧
        responses.get? call.requestId = some item) outbound arranged := by
  obtain ⟨items, answered, carries, perm, pairs, rfl⟩ :=
    (policy.validateUpstreamResponses_eq_ok_iff distinct).mp validated
  have sameLength := pairs.length_eq
  have held : List.Forall₂ (fun call item => policy.AnswersCall call item ∧
      (responsesOf answered items).get? call.requestId = some item) answered items := by
    rw [List.forall₂_iff_zip] at pairs ⊢
    refine ⟨sameLength, fun {call item} member => ⟨pairs.2 member, ?_⟩⟩
    rw [Dict.get?_eq_some_iff, items_responsesOf ((perm.map _).nodup_iff.mpr distinct) sameLength,
      List.zip_map_left]
    exact List.mem_map.mpr ⟨(call, item), member, rfl⟩
  obtain ⟨arranged, arrangedPairs, arrangedPerm⟩ := List.perm_comp_forall₂ perm.symm held
  exact ⟨items, carries, arranged, arrangedPerm, arrangedPairs⟩

/-! ## Combining the entries -/

/-- An item with the identifier of a call is the one arranged for that call. -/
theorem eq_of_itemId {outbound : List PreparedCall} {arranged : List Json}
    (distinct : (outbound.map PreparedCall.requestId).Nodup)
    (pairs : List.Forall₂ policy.AnswersCall outbound arranged) {call : PreparedCall}
    {item other : Json} (paired : (call, item) ∈ outbound.zip arranged) (member : other ∈ arranged)
    (sameId : itemId? other = some call.requestId.json) : other = item := by
  induction pairs with
  | nil => cases member
  | @cons first firstItem outbound arranged answers pairs ih =>
      rw [List.map_cons, List.nodup_cons] at distinct
      rw [List.zip_cons_cons] at paired
      rcases List.mem_cons.mp paired with here | later
      · cases here
        rcases List.mem_cons.mp member with rfl | inRest
        · rfl
        · -- Another call has the identifier of the first one.
          obtain ⟨found, foundMem, foundAnswers⟩ := Pairing.exists_left pairs inRest
          have same : found.requestId = call.requestId :=
            RpcId.json_injective (Option.some.inj (foundAnswers.itemId.symm.trans sameId))
          exact absurd (same ▸ List.mem_map_of_mem foundMem) distinct.1
      · rcases List.mem_cons.mp member with rfl | inRest
        · have same : first.requestId = call.requestId :=
            RpcId.json_injective (Option.some.inj (answers.itemId.symm.trans sameId))
          exact absurd (same ▸ List.mem_map_of_mem (List.of_mem_zip later).1) distinct.1
        · exact ih distinct.2 later inRest

/-- The entries of all calls, when the forwarded ones have their items arranged. -/
theorem combined_of_arranged {responses : Dict RpcId Json} {prepared : List PreparedCall}
    {arranged : List Json}
    (pairs : List.Forall₂ (fun call item => policy.AnswersCall call item ∧
      responses.get? call.requestId = some item) (outboundCalls prepared) arranged) :
    ∃ entries, prepared.mapM (combineResponse responses) = .ok entries ∧
      forwardedEntries prepared entries = arranged ∧
      List.Forall₂ (fun call entry => (call.isSynthetic = true → entry = syntheticEntry call) ∧
        (call.isSynthetic = false → (call, entry) ∈ (outboundCalls prepared).zip arranged))
        prepared entries := by
  induction prepared generalizing arranged with
  | nil =>
      cases pairs
      exact ⟨[], rfl, rfl, .nil⟩
  | cons call prepared ih =>
      rw [List.mapM_cons]
      cases synthetic : call.isSynthetic with
      | true =>
          have skipped : outboundCalls (call :: prepared) = outboundCalls prepared := by
            simp [outboundCalls, synthetic]
          rw [skipped] at pairs ⊢
          obtain ⟨entries, combined, forwarded, each⟩ := ih pairs
          refine ⟨syntheticEntry call :: entries, ?_, ?_, .cons ⟨fun _ => rfl, ?_⟩ each⟩
          · rw [combined, combineResponse, if_pos synthetic]
            rfl
          · rw [← forwarded]
            simp [forwardedEntries, synthetic]
          · rw [synthetic]
            exact fun impossible => (nomatch impossible)
      | false =>
          have kept : outboundCalls (call :: prepared) = call :: outboundCalls prepared := by
            simp [outboundCalls, synthetic]
          rw [kept] at pairs ⊢
          cases pairs with
          | @cons _ item _ arranged first pairs =>
              obtain ⟨entries, combined, forwarded, each⟩ := ih pairs
              refine ⟨item :: entries, ?_, ?_, .cons ⟨?_, fun _ => List.mem_cons_self⟩
                (each.imp fun _ _ entry => ⟨entry.1, fun isForwarded =>
                  List.mem_cons_of_mem _ (entry.2 isForwarded)⟩)⟩
              · simp only [combined, combineResponse, synthetic, first.2]
                rfl
              · rw [← forwarded]
                simp [forwardedEntries, synthetic]
              · rw [synthetic]
                exact fun impossible => (nomatch impossible)

theorem itemId_syntheticEntry (call : PreparedCall) :
    itemId? (syntheticEntry call) = some call.requestId.json :=
  rfl

/-- The identifiers of accepted calls are different, and a call that is no batch is alone. -/
theorem preparePayload_spec {payload : Json} {prepared : List PreparedCall} {isBatch : Bool}
    (accepted : policy.preparePayload payload = .ok (prepared, isBatch)) :
    (prepared.map PreparedCall.requestId).Nodup ∧
      (isBatch = false → prepared.length = 1) := by
  unfold preparePayload at accepted
  rw [bind_eq_ok_iff] at accepted
  obtain ⟨⟨items, batch⟩, ofPayload, accepted⟩ := accepted
  rw [bind_eq_ok_iff] at accepted
  obtain ⟨calls, mapped, accepted⟩ := accepted
  rw [raiseIf_bind_eq_ok_iff, not_not] at accepted
  obtain ⟨distinct, same⟩ := accepted
  cases same
  refine ⟨distinct, fun noBatch => ?_⟩
  dsimp only at noBatch mapped
  subst noBatch
  have sameLength := congrArg List.length ((mapM_eq_ok_iff items).mp mapped)
  rw [List.length_map, List.length_map] at sameLength
  rw [← sameLength]
  unfold requestItems at ofPayload
  split at ofPayload
  · split at ofPayload
    · cases ofPayload
    · cases ofPayload
  · cases ofPayload
    rfl
  · cases ofPayload

/-- Where forwarded calls have their items arranged, the answer is exact. -/
theorem exactAnswer_of_arranged {responses : Dict RpcId Json} {prepared : List PreparedCall}
    {isBatch : Bool} {items arranged : List Json}
    (distinct : (prepared.map PreparedCall.requestId).Nodup)
    (single : isBatch = false → prepared.length = 1) (perm : arranged.Perm items)
    (pairs : List.Forall₂ (fun call item => policy.AnswersCall call item ∧
      responses.get? call.requestId = some item) (outboundCalls prepared) arranged) :
    ∃ answer, combineResponses prepared responses isBatch = .ok answer ∧
      policy.ExactAnswer prepared isBatch items answer := by
  obtain ⟨entries, combined, forwarded, each⟩ := policy.combined_of_arranged pairs
  have distinctOutbound : ((outboundCalls prepared).map PreparedCall.requestId).Nodup :=
    (List.filter_sublist.map _).nodup distinct
  have answering : List.Forall₂ policy.AnswersCall (outboundCalls prepared) arranged :=
    pairs.imp fun _ _ pair => pair.1
  have entryFor : List.Forall₂ (policy.EntryFor items) prepared entries := by
    refine each.imp fun call entry ⟨ofSynthetic, ofForwarded⟩ => ?_
    cases synthetic : call.isSynthetic with
    | true =>
        obtain rfl := ofSynthetic synthetic
        exact ⟨rfl, fun _ => rfl, fun impossible => (nomatch synthetic.symm.trans impossible)⟩
    | false =>
        have paired := ofForwarded synthetic
        have answers := (List.forall₂_iff_zip.mp answering).2 paired
        exact ⟨answers.itemId, fun impossible => (nomatch synthetic.symm.trans impossible),
          fun _ => ⟨perm.subset (List.of_mem_zip paired).2, answers, fun other member sameId =>
            policy.eq_of_itemId distinctOutbound answering paired (perm.symm.subset member)
              sameId⟩⟩
  have usedOnce : (forwardedEntries prepared entries).Perm items := by
    rw [forwarded]
    exact perm
  cases isBatch with
  | true =>
      refine ⟨.array entries, ?_, entries, rfl, entryFor, usedOnce⟩
      rw [combineResponses, combined]
      rfl
  | false =>
      have one : entries.length = 1 := each.length_eq.symm.trans (single rfl)
      obtain ⟨entry, rfl⟩ := List.length_eq_one_iff.mp one
      refine ⟨entry, ?_, [entry], rfl, entryFor, usedOnce⟩
      rw [combineResponses, combined]
      rfl

/-- An answer that the bridge gives is exact; and unless the upstream payload has one correct item
for each forwarded call and no other, the whole request fails. -/
theorem answers_exact_or_fail {payload : Json} {prepared : List PreparedCall} {isBatch : Bool}
    (accepted : policy.preparePayload payload = .ok (prepared, isBatch)) (upstream : Json) :
    (∀ responses answer,
        policy.validateUpstreamResponses upstream (outboundCalls prepared) isBatch = .ok responses →
        combineResponses prepared responses isBatch = .ok answer →
        ∃ items, Carries isBatch upstream items ∧
          policy.ExactAnswer prepared isBatch items answer) ∧
      (policy.CompleteUpstream (outboundCalls prepared) isBatch upstream →
        ∃ responses answer,
          policy.validateUpstreamResponses upstream (outboundCalls prepared) isBatch =
            .ok responses ∧ combineResponses prepared responses isBatch = .ok answer) ∧
      (¬ policy.CompleteUpstream (outboundCalls prepared) isBatch upstream →
        policy.validateUpstreamResponses upstream (outboundCalls prepared) isBatch =
            .error .upstream ∧
          (outboundCalls prepared ≠ [] →
            policy.handlePayload (fun _ => .ok upstream) payload = .error .upstream)) := by
  obtain ⟨distinct, single⟩ := policy.preparePayload_spec accepted
  have distinctOutbound : ((outboundCalls prepared).map PreparedCall.requestId).Nodup :=
    (List.filter_sublist.map _).nodup distinct
  have exists_iff : (∃ responses, policy.validateUpstreamResponses upstream
      (outboundCalls prepared) isBatch = .ok responses) ↔
        policy.CompleteUpstream (outboundCalls prepared) isBatch upstream :=
    policy.exists_validateUpstreamResponses_iff distinctOutbound
  refine ⟨fun responses answer validated combined => ?_, fun complete => ?_, fun incomplete => ?_⟩
  · obtain ⟨items, carries, arranged, perm, pairs⟩ :=
      policy.arranged_of_validated distinctOutbound validated
    obtain ⟨other, otherCombined, exact_⟩ :=
      policy.exactAnswer_of_arranged distinct single perm pairs
    obtain rfl := Except.ok.inj (otherCombined.symm.trans combined)
    exact ⟨items, carries, exact_⟩
  · obtain ⟨responses, validated⟩ := exists_iff.mpr complete
    obtain ⟨items, carries, arranged, perm, pairs⟩ :=
      policy.arranged_of_validated distinctOutbound validated
    obtain ⟨answer, combined, -⟩ := policy.exactAnswer_of_arranged distinct single perm pairs
    exact ⟨responses, answer, validated, combined⟩
  · have failed : policy.validateUpstreamResponses upstream (outboundCalls prepared) isBatch =
        .error .upstream := by
      cases validated :
          policy.validateUpstreamResponses upstream (outboundCalls prepared) isBatch with
      | ok responses => exact absurd (exists_iff.mp ⟨responses, validated⟩) incomplete
      | error kind =>
          rw [policy.blamesUpstream_validateUpstreamResponses _ _ _ kind validated]
    refine ⟨failed, fun some_ => ?_⟩
    have notEmpty : ¬ (outboundCalls prepared).isEmpty = true := by simpa using some_
    rw [handlePayload, bind_of_ok accepted]
    dsimp only
    rw [upstreamResponses, if_neg notEmpty, bind_of_ok rfl, failed]
    rfl

/-! ## A batch of two calls -/

/-- A bridge for chain 1, pinned to block 5. -/
def samplePolicy : RpcPolicy where
  expectedChainId := 1
  pinnedBlockNumber := 5
  pinnedBlockHash := "0x".toList ++ List.replicate 64 '7'
  maxBatchSize := 100
  hashIsWord := by decide +kernel

def sampleCall (id : Json) (method : String) (params : List Json) : Json :=
  .object [("jsonrpc".toList, .string "2.0".toList), ("id".toList, id),
    ("method".toList, .string method.toList), ("params".toList, .array params)]

/-- The chain identifier, which the bridge answers itself, and a balance. -/
def samplePayload : Json :=
  .array [sampleCall (.int 1) "eth_chainId" [],
    sampleCall (.string "1".toList) "eth_getBalance"
      [.string "0xabc".toList, .string "latest".toList]]

def samplePrepared : List PreparedCall :=
  ((samplePolicy.preparePayload samplePayload).toOption.map Prod.fst).getD []

/-- The origin answers the balance. -/
def sampleUpstream : Json :=
  .array [.object [("jsonrpc".toList, .string "2.0".toList), ("id".toList, .string "1".toList),
    ("result".toList, .string "0x2a".toList)]]

theorem samplePayload_accepted :
    samplePolicy.preparePayload samplePayload = .ok (samplePrepared, true) := by
  have accepted : ((samplePolicy.preparePayload samplePayload).toOption.map Prod.snd) =
      some true := by decide
  unfold samplePrepared
  cases prepared : samplePolicy.preparePayload samplePayload with
  | error kind =>
      rw [prepared] at accepted
      cases accepted
  | ok request =>
      rw [prepared] at accepted
      obtain ⟨calls, batch⟩ := request
      obtain rfl : batch = true := Option.some.inj accepted
      rfl

theorem answers_exact_or_fail_sample :
    ∃ responses answer items,
      samplePolicy.validateUpstreamResponses sampleUpstream (outboundCalls samplePrepared) true =
        .ok responses ∧
      combineResponses samplePrepared responses true = .ok answer ∧
      Carries true sampleUpstream items ∧
      samplePolicy.ExactAnswer samplePrepared true items answer := by
  obtain ⟨answer, returned⟩ := eq_ok_of_toOption_isSome
    (show (samplePolicy.validateUpstreamResponses sampleUpstream (outboundCalls samplePrepared)
      true >>= fun responses => combineResponses samplePrepared responses true).toOption.isSome =
        true by decide +kernel)
  obtain ⟨responses, validated, combined⟩ := bind_eq_ok_iff.mp returned
  obtain ⟨items, carries, exact_⟩ :=
    (samplePolicy.answers_exact_or_fail samplePayload_accepted sampleUpstream).1 responses answer
      validated combined
  exact ⟨responses, answer, items, validated, combined, carries, exact_⟩

end RpcPolicy

end Rpc

end MmAudit
