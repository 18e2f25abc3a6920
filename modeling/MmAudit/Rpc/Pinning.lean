import MmAudit.Rpc.Answers

/-!
# What the read-only RPC bridge sends on

A call that is sent on names one of the methods that are bound to a block by its hash, and
carries the hash of the pinned block where the method has its block.  So whatever is asked
of the bridge, its answer depends on the origin only through calls that are pinned.

Preparing a payload that was sent on leaves it as it is.
-/

namespace MmAudit

namespace Json

theorem get?_cons (name : List Char) (value : Json) (fields : Fields) (key : String) :
    get? ((name, value) :: fields) key =
      if name = key.toList then some value else get? fields key := by
  by_cases same : name = key.toList <;> simp [get?, same]

theorem keysWithin_cons (name : List Char) (value : Json) (fields : Fields) (keys : List String) :
    keysWithin ((name, value) :: fields) keys =
      (keys.any (·.toList = name) && keysWithin fields keys) :=
  List.all_cons

theorem keysWithin_nil (keys : List String) : keysWithin [] keys = true :=
  rfl
theorem get?_eq_none_iff {fields : Fields} {key : String} :
    get? fields key = none ↔ ∀ field ∈ fields, field.1 ≠ key.toList := by
  simp [get?]

theorem get?_ne_none_iff {fields : Fields} {key : String} :
    get? fields key ≠ none ↔ ∃ field ∈ fields, field.1 = key.toList := by
  rw [ne_eq, get?_eq_none_iff]
  push Not
  rfl

theorem exists_mem_of_get? {fields : Fields} {key : String} {value : Json}
    (found : get? fields key = some value) :
    ∃ field ∈ fields, field.1 = key.toList ∧ field.2 = value := by
  obtain ⟨field, search, same⟩ := Option.map_eq_some_iff.mp found
  exact ⟨field, List.mem_of_find?_eq_some search, by simpa using List.find?_some search, same⟩

/-- After an assignment a field is the assigned one, or an old one of another name. -/
theorem mem_setField {fields : Fields} {key : String} {value : Json} {field : List Char × Json}
    (member : field ∈ setField fields key value) :
    field = (key.toList, value) ∨ (field ∈ fields ∧ field.1 ≠ key.toList) := by
  unfold setField at member
  split at member
  · obtain ⟨old, oldMember, rfl⟩ := List.mem_map.mp member
    by_cases same : old.1 = key.toList
    · rw [if_pos same, same]
      exact .inl rfl
    · rw [if_neg same]
      exact .inr ⟨oldMember, same⟩
  · rename_i missing
    rcases List.mem_append.mp member with oldMember | new
    · refine .inr ⟨oldMember, fun same => missing ?_⟩
      exact List.any_eq_true.mpr ⟨field, oldMember, decide_eq_true same⟩
    · exact .inl (List.mem_singleton.mp new)

theorem exists_mem_setField (fields : Fields) (key : String) (value : Json) :
    ∃ field ∈ setField fields key value, field.1 = key.toList := by
  unfold setField
  split
  · rename_i present
    obtain ⟨old, member, same⟩ := List.any_eq_true.mp present
    refine ⟨_, List.mem_map_of_mem member, ?_⟩
    rw [if_pos (of_decide_eq_true same)]
    exact of_decide_eq_true same
  · exact ⟨_, List.mem_append_right _ (List.mem_singleton_self _), rfl⟩

/-- Nothing changes when every field of the name has the value already. -/
theorem setField_eq_self {fields : Fields} {key : String} {value : Json}
    (present : ∃ field ∈ fields, field.1 = key.toList)
    (same : ∀ field ∈ fields, field.1 = key.toList → field.2 = value) :
    setField fields key value = fields := by
  obtain ⟨witness, witnessMember, witnessKey⟩ := present
  have found : fields.any (·.1 = key.toList) = true :=
    List.any_eq_true.mpr ⟨witness, witnessMember, decide_eq_true witnessKey⟩
  rw [setField, if_pos found]
  refine (List.map_congr_left fun field member => ?_).trans (List.map_id fields)
  by_cases sameKey : field.1 = key.toList
  · rw [if_pos sameKey, ← same field member sameKey]
    rfl
  · rw [if_neg sameKey]
    rfl

end Json

namespace Rpc

open Fallible

namespace RpcMethod

/-- The methods that the bridge may send on: each takes its block by hash. -/
def isHashBound (method : RpcMethod) : Bool :=
  method.eip1898ParamIndex?.isSome || method.hashParamIndex?.isSome ||
    method == .getBlockReceipts || method == .getLogs

/-- The method that is sent on for a method. -/
def origin (method : RpcMethod) : RpcMethod :=
  method.numberToHash?.getD method

theorem isHashBound_origin {method : RpcMethod} (forwarded : method.isSynthetic = false) :
    method.origin.isHashBound = true := by
  cases method <;> first | rfl | cases forwarded

@[simp]
theorem arity_origin (method : RpcMethod) : method.origin.arity = method.arity := by
  cases method <;> rfl

@[simp]
theorem ofName?_name (method : RpcMethod) : ofName? method.name.toList = some method := by
  cases method <;> decide

end RpcMethod

theorem validRpcId?_json {value : Json} {id : RpcId} (valid : validRpcId? value = some id) :
    validRpcId? id.json = some id := by
  rw [← json_of_validRpcId? valid]
  exact valid

namespace RpcPolicy

variable (policy : RpcPolicy)

/-! ## Pinned calls -/

/-- A log filter that names the pinned block, and no range of blocks. -/
structure PinnedFilter (fields : Json.Fields) : Prop where
  named : ∃ field ∈ fields, field.1 = "blockHash".toList
  pinned : ∀ field ∈ fields, field.1 = "blockHash".toList →
    field.2 = .string policy.pinnedBlockHash
  noRange : ∀ field ∈ fields, field.1 ≠ "fromBlock".toList ∧ field.1 ≠ "toBlock".toList

/-- The parameters name the pinned block by its hash wherever the method takes a block. -/
structure PinnedParams (method : RpcMethod) (params : List Json) : Prop where
  reference : ∀ index, method.eip1898ParamIndex? = some index →
    params[index]? = some policy.canonicalBlockReference
  hash : ∀ index, method.hashParamIndex? = some index →
    params[index]? = some (.string policy.pinnedBlockHash)
  receipts : method = .getBlockReceipts → params[0]? = some (.string policy.pinnedBlockHash)
  logs : method = .getLogs → ∃ fields, params = [.object fields] ∧ policy.PinnedFilter fields

/-- The fields of a call. -/
def callFields (id : RpcId) (method : RpcMethod) (params : List Json) : Json.Fields :=
  [("jsonrpc".toList, .string "2.0".toList), ("id".toList, id.json),
    ("method".toList, .string method.name.toList), ("params".toList, .array params)]

/-- A call with this identifier, method and parameters. -/
def callPayload (id : RpcId) (method : RpcMethod) (params : List Json) : Json :=
  .object (callFields id method params)

/-- A call of a hash-bound method with pinned parameters, as many as the method takes. -/
def PinnedCall (call : Json) : Prop :=
  ∃ (id : RpcId) (method : RpcMethod) (params : List Json),
    call = callPayload id method params ∧ validRpcId? id.json = some id ∧
      method.isHashBound = true ∧ method.arity.1 ≤ params.length ∧
      params.length ≤ method.arity.2 ∧ policy.PinnedParams method params

/-- One pinned call, or a batch of them. -/
def PinnedPayload (payload : Json) : Prop :=
  policy.PinnedCall payload ∨
    ∃ calls, payload = .array calls ∧ ∀ call ∈ calls, policy.PinnedCall call

/-! ## Pinning the parameters -/

theorem replaceParam_eq_ok {params out : List Json} {index : ℕ}
    {normalize : Json → Except RejectionKind Json}
    (replaced : replaceParam params index normalize = .ok out) :
    ∃ value normalized, params[index]? = some value ∧ normalize value = .ok normalized ∧
      out = params.set index normalized := by
  unfold replaceParam at replaced
  split at replaced
  · rename_i value found
    obtain ⟨normalized, success, same⟩ := map_eq_ok_iff.mp replaced
    exact ⟨value, normalized, found, success, same.symm⟩
  · cases replaced

/-- A parameter that can only become one value has it, and the others keep theirs. -/
theorem replaced_param {params out : List Json} {index : ℕ} {pinned : Json}
    {normalize : Json → Except RejectionKind Json}
    (only : ∀ value normalized, normalize value = .ok normalized → normalized = pinned)
    (replaced : replaceParam params index normalize = .ok out) :
    out[index]? = some pinned ∧ out.length = params.length := by
  obtain ⟨value, normalized, found, success, rfl⟩ := replaceParam_eq_ok replaced
  obtain ⟨inside, -⟩ := List.getElem?_eq_some_iff.mp found
  rw [only value normalized success]
  exact ⟨List.getElem?_set_self inside, List.length_set⟩

/-- A parameter that is left as it is. -/
theorem replaceParam_eq_self {params : List Json} {index : ℕ} {value : Json}
    {normalize : Json → Except RejectionKind Json} (found : params[index]? = some value)
    (fixed : normalize value = .ok value) : replaceParam params index normalize = .ok params := by
  obtain ⟨inside, same⟩ := List.getElem?_eq_some_iff.mp found
  have unchanged : params.set index value = params := by
    rw [← same]
    exact List.set_getElem_self inside
  simp only [replaceParam, found, fixed]
  exact congrArg Except.ok unchanged

theorem normalizeBlockReference_only {value normalized : Json}
    (success : policy.normalizeBlockReference value = .ok normalized) :
    normalized = policy.canonicalBlockReference := by
  cases value with
  | object fields =>
      rw [normalizeBlockReference] at success
      split_ifs at success
      exact (Except.ok.inj success).symm
  | _ =>
      obtain ⟨_, -, same⟩ := map_eq_ok_iff.mp success
      exact same.symm

theorem normalizeBlockReference_canonical :
    policy.normalizeBlockReference policy.canonicalBlockReference =
      .ok policy.canonicalBlockReference := by
  simp only [normalizeBlockReference, canonicalBlockReference, Json.keysWithin_cons,
    Json.keysWithin_nil, Json.get?_cons, String.toList_inj]
  rw [if_pos]
  refine ⟨by simp, by simp [Json.isText], by simp⟩

theorem normalizeBlockHash_only {value normalized : Json}
    (success : policy.normalizeBlockHash value = .ok normalized) :
    normalized = .string policy.pinnedBlockHash := by
  unfold normalizeBlockHash at success
  split at success
  · exact (Except.ok.inj success).symm
  · cases success

theorem normalizeBlockHash_pinned :
    policy.normalizeBlockHash (.string policy.pinnedBlockHash) =
      .ok (.string policy.pinnedBlockHash) := by
  simp [normalizeBlockHash, Json.isText]

theorem pinnedFilter_of_pinLogFilter {params out : List Json}
    (success : policy.pinLogFilter params = .ok out) :
    ∃ fields, out = [.object fields] ∧ policy.PinnedFilter fields := by
  unfold pinLogFilter at success
  split at success
  · rename_i fields
    split at success
    · -- the hash is there: a range beside it is refused
      rename_i hash found
      simp only [raiseIf_bind_eq_ok_iff] at success
      obtain ⟨noRange, success⟩ := success
      obtain ⟨pinned, isPinned, same⟩ := bind_eq_ok_iff.mp success
      obtain rfl := policy.normalizeBlockHash_only isPinned
      obtain rfl := Except.ok.inj same
      have fromFree : Json.get? fields "fromBlock" = none := by
        by_contra present
        exact noRange (by simp [Option.isSome_iff_ne_none.mpr present])
      have toFree : Json.get? fields "toBlock" = none := by
        by_contra present
        exact noRange (by simp [Option.isSome_iff_ne_none.mpr present])
      refine ⟨_, rfl, Json.exists_mem_setField _ _ _, ?_, ?_⟩
      · intro field member sameKey
        rcases Json.mem_setField member with rfl | ⟨-, different⟩
        · rfl
        · exact absurd sameKey different
      · intro field member
        rcases Json.mem_setField member with rfl | ⟨old, -⟩
        · exact ⟨by simp only [ne_eq, String.toList_inj]; decide,
            by simp only [ne_eq, String.toList_inj]; decide⟩
        · exact ⟨Json.get?_eq_none_iff.mp fromFree field old,
            Json.get?_eq_none_iff.mp toFree field old⟩
    · -- a range of pinned tags is replaced by the hash
      obtain ⟨_, -, success⟩ := bind_eq_ok_iff.mp success
      obtain ⟨_, -, same⟩ := bind_eq_ok_iff.mp success
      obtain rfl := Except.ok.inj same
      refine ⟨_, rfl, Json.exists_mem_setField _ _ _, ?_, ?_⟩
      · intro field member sameKey
        rcases Json.mem_setField member with rfl | ⟨-, different⟩
        · rfl
        · exact absurd sameKey different
      · intro field member
        rcases Json.mem_setField member with rfl | ⟨old, -⟩
        · exact ⟨by simp only [ne_eq, String.toList_inj]; decide,
            by simp only [ne_eq, String.toList_inj]; decide⟩
        · exact of_decide_eq_true (List.mem_filter.mp old).2
  · cases success

theorem pinLogFilter_pinned {fields : Json.Fields} (pinned : policy.PinnedFilter fields) :
    policy.pinLogFilter [.object fields] = .ok [.object fields] := by
  obtain ⟨hash, found⟩ := Option.ne_none_iff_exists'.mp (Json.get?_ne_none_iff.mpr pinned.named)
  have isHash : hash = .string policy.pinnedBlockHash := by
    obtain ⟨field, member, sameKey, same⟩ := Json.exists_mem_of_get? found
    rw [← same]
    exact pinned.pinned field member sameKey
  have fromFree : Json.get? fields "fromBlock" = none :=
    Json.get?_eq_none_iff.mpr fun field member => (pinned.noRange field member).1
  have toFree : Json.get? fields "toBlock" = none :=
    Json.get?_eq_none_iff.mpr fun field member => (pinned.noRange field member).2
  have unchanged : Json.setField fields "blockHash" (.string policy.pinnedBlockHash) = fields :=
    Json.setField_eq_self pinned.named pinned.pinned
  simp only [pinLogFilter, found, fromFree, toFree, isHash, Option.isSome_none, Bool.or_self]
  rw [raiseIf_bind_of_not Bool.false_ne_true, bind_of_ok policy.normalizeBlockHash_pinned, unchanged]
  rfl

/-- The four ways in which a method takes its block. -/
theorem pinParams_reference {method : RpcMethod} {index : ℕ}
    (byReference : method.eip1898ParamIndex? = some index) (params : List Json) :
    policy.pinParams method params =
      if index = params.length ∧ method = .call then
        .ok (params ++ [policy.canonicalBlockReference])
      else replaceParam params index policy.normalizeBlockReference := by
  cases method <;> cases byReference <;>
    simp [pinParams, RpcMethod.eip1898ParamIndex?, RpcMethod.numberToHash?,
      RpcMethod.hashParamIndex?]
  split <;> rfl

theorem pinParams_number {method : RpcMethod} (byNumber : method.numberToHash?.isSome = true)
    (params : List Json) :
    policy.pinParams method params = replaceParam params 0 fun value =>
      (policy.normalizeBlockTag value).map fun _ => .string policy.pinnedBlockHash := by
  cases method <;> cases byNumber <;>
    simp [pinParams, RpcMethod.eip1898ParamIndex?, RpcMethod.numberToHash?,
      RpcMethod.hashParamIndex?]

theorem pinParams_hash {method : RpcMethod} {index : ℕ}
    (byHash : method.hashParamIndex? = some index) (params : List Json) :
    policy.pinParams method params = replaceParam params index policy.normalizeBlockHash := by
  cases method <;> cases byHash <;>
    simp [pinParams, RpcMethod.eip1898ParamIndex?, RpcMethod.numberToHash?,
      RpcMethod.hashParamIndex?]

theorem pinParams_logs (params : List Json) :
    policy.pinParams .getLogs params = policy.pinLogFilter params := by
  simp [pinParams, RpcMethod.eip1898ParamIndex?, RpcMethod.numberToHash?,
    RpcMethod.hashParamIndex?]

theorem pinParams_receipts (params : List Json) :
    policy.pinParams .getBlockReceipts params = replaceParam params 0 fun value =>
      match value with
      | .string text =>
          if isWord64 text then policy.normalizeBlockHash value
          else (policy.normalizeBlockTag value).map fun _ => .string policy.pinnedBlockHash
      | _ => (policy.normalizeBlockTag value).map fun _ => .string policy.pinnedBlockHash :=
  rfl

theorem normalizeBlockTag_map_only {value normalized : Json}
    (success : (policy.normalizeBlockTag value).map
      (fun _ => Json.string policy.pinnedBlockHash) = .ok normalized) :
    normalized = .string policy.pinnedBlockHash := by
  obtain ⟨_, -, same⟩ := map_eq_ok_iff.mp success
  exact same.symm

/-- The block of its receipts is given by the hash or by a tag. -/
theorem normalizeReceiptsBlock_only {value normalized : Json}
    (success : (match value with
      | .string text =>
          if isWord64 text then policy.normalizeBlockHash value
          else (policy.normalizeBlockTag value).map fun _ => .string policy.pinnedBlockHash
      | _ => (policy.normalizeBlockTag value).map fun _ => .string policy.pinnedBlockHash) =
        .ok normalized) :
    normalized = .string policy.pinnedBlockHash := by
  split at success
  · split at success
    · exact policy.normalizeBlockHash_only success
    · exact policy.normalizeBlockTag_map_only success
  · exact policy.normalizeBlockTag_map_only success

/-- A method takes its block in one of these ways, or the bridge answers it itself. -/
theorem block_cases (method : RpcMethod) :
    method.isSynthetic = true ∨ (∃ index, method.eip1898ParamIndex? = some index) ∨
      method.numberToHash?.isSome = true ∨ (∃ index, method.hashParamIndex? = some index) ∨
      method = .getBlockReceipts ∨ method = .getLogs := by
  cases method <;>
    simp [RpcMethod.isSynthetic, RpcMethod.eip1898ParamIndex?, RpcMethod.numberToHash?,
      RpcMethod.hashParamIndex?]

section Kinds

variable {method : RpcMethod} {index : ℕ} {params : List Json}

theorem pinnedParams_of_reference (byReference : method.eip1898ParamIndex? = some index)
    (pinned : params[index]? = some policy.canonicalBlockReference) :
    policy.PinnedParams method params where
  reference other same := by
    rw [byReference] at same
    exact Option.some.inj same ▸ pinned
  hash other same := by cases method <;> cases byReference <;> cases same
  receipts same := by
    subst same
    cases byReference
  logs same := by
    subst same
    cases byReference

theorem pinnedParams_of_hash (byHash : method.hashParamIndex? = some index)
    (pinned : params[index]? = some (.string policy.pinnedBlockHash)) :
    policy.PinnedParams method params where
  reference other same := by cases method <;> cases byHash <;> cases same
  hash other same := by
    rw [byHash] at same
    exact Option.some.inj same ▸ pinned
  receipts same := by
    subst same
    cases byHash
  logs same := by
    subst same
    cases byHash

theorem hashParamIndex?_origin (byNumber : method.numberToHash?.isSome = true) :
    method.origin.hashParamIndex? = some 0 := by
  cases method <;> cases byNumber <;> rfl

theorem origin_of_reference (byReference : method.eip1898ParamIndex? = some index) :
    method.origin = method := by
  cases method <;> cases byReference <;> rfl

theorem origin_of_hash (byHash : method.hashParamIndex? = some index) :
    method.origin = method := by
  cases method <;> cases byHash <;> rfl

end Kinds

/-- What the parameters of a call that is sent on look like. -/
theorem pinnedParams_of_pinParams {method : RpcMethod} {params out : List Json}
    (forwarded : method.isSynthetic = false) (few : params.length ≤ method.arity.2)
    (success : policy.pinParams method params = .ok out) :
    policy.PinnedParams method.origin out ∧ params.length ≤ out.length ∧
      out.length ≤ method.arity.2 := by
  rcases block_cases method with synthetic | ⟨index, byReference⟩ | byNumber | ⟨index, byHash⟩ |
    rfl | rfl
  · cases forwarded.symm.trans synthetic
  · rw [policy.pinParams_reference byReference] at success
    rw [origin_of_reference byReference]
    split at success
    · -- a call without a block gets one
      rename_i missing
      obtain ⟨atEnd, rfl⟩ := missing
      obtain rfl := Except.ok.inj success
      have one : index = 1 := (Option.some.inj byReference).symm
      refine ⟨policy.pinnedParams_of_reference byReference ?_, by simp, ?_⟩
      · rw [atEnd, List.getElem?_concat_length]
      · rw [List.length_append, ← atEnd, one]
        exact le_refl 2
    · obtain ⟨pinned, same⟩ := replaced_param (fun _ _ => policy.normalizeBlockReference_only)
        success
      exact ⟨policy.pinnedParams_of_reference byReference pinned, same.ge, same.trans_le few⟩
  · rw [policy.pinParams_number byNumber] at success
    obtain ⟨pinned, same⟩ := replaced_param (fun _ _ => policy.normalizeBlockTag_map_only) success
    exact ⟨policy.pinnedParams_of_hash (hashParamIndex?_origin byNumber) pinned, same.ge,
      same.trans_le few⟩
  · rw [policy.pinParams_hash byHash] at success
    rw [origin_of_hash byHash]
    obtain ⟨pinned, same⟩ := replaced_param (fun _ _ => policy.normalizeBlockHash_only) success
    exact ⟨policy.pinnedParams_of_hash byHash pinned, same.ge, same.trans_le few⟩
  · rw [policy.pinParams_receipts] at success
    obtain ⟨pinned, same⟩ := replaced_param (fun _ _ => policy.normalizeReceiptsBlock_only) success
    exact ⟨⟨fun _ same => (nomatch same), fun _ same => (nomatch same), fun _ => pinned,
      fun same => (nomatch same)⟩, same.ge, same.trans_le few⟩
  · rw [policy.pinParams_logs] at success
    obtain ⟨fields, rfl, pinned⟩ := policy.pinnedFilter_of_pinLogFilter success
    refine ⟨⟨fun _ same => (nomatch same), fun _ same => (nomatch same),
      fun same => (nomatch same), fun _ => ⟨fields, rfl, pinned⟩⟩, few, le_refl 1⟩

/-- Pinned parameters are left as they are. -/
theorem pinParams_of_pinned {method : RpcMethod} {params : List Json}
    (hashBound : method.isHashBound = true) (pinned : policy.PinnedParams method params) :
    policy.pinParams method params = .ok params := by
  rcases block_cases method with synthetic | ⟨index, byReference⟩ | byNumber | ⟨index, byHash⟩ |
    rfl | rfl
  · cases method <;> cases synthetic <;> cases hashBound
  · have found := pinned.reference index byReference
    obtain ⟨inside, -⟩ := List.getElem?_eq_some_iff.mp found
    rw [policy.pinParams_reference byReference, if_neg fun atEnd => inside.ne atEnd.1]
    exact replaceParam_eq_self found policy.normalizeBlockReference_canonical
  · cases method <;> cases byNumber <;> cases hashBound
  · rw [policy.pinParams_hash byHash]
    exact replaceParam_eq_self (pinned.hash index byHash) policy.normalizeBlockHash_pinned
  · rw [policy.pinParams_receipts]
    refine replaceParam_eq_self (pinned.receipts rfl) ?_
    simp only [policy.hashIsWord, if_true]
    exact policy.normalizeBlockHash_pinned
  · obtain ⟨fields, rfl, filter⟩ := pinned.logs rfl
    rw [policy.pinParams_logs]
    exact policy.pinLogFilter_pinned filter

/-! ## Pinned calls and payloads -/

/-- What an accepted call consists of. -/
theorem prepareCall_spec {item : Json} {call : PreparedCall}
    (accepted : policy.prepareCall item = .ok call) :
    validRpcId? call.requestId.json = some call.requestId ∧
      call.originMethod = call.method.origin ∧
      call.syntheticResult = policy.syntheticResult? call.method ∧
      call.isSynthetic = call.method.isSynthetic ∧
      ∃ params normalized, call.method.arity.1 ≤ params.length ∧
        params.length ≤ call.method.arity.2 ∧
        policy.pinParams call.method params = .ok normalized ∧
        call.payload = callPayload call.requestId call.originMethod normalized := by
  unfold prepareCall at accepted
  split at accepted
  · rw [raiseIf_bind_eq_ok_iff] at accepted
    obtain ⟨-, accepted⟩ := accepted
    split at accepted
    · cases accepted
    · rename_i requestId valid
      rw [raiseIf_bind_eq_ok_iff] at accepted
      obtain ⟨-, accepted⟩ := accepted
      split at accepted
      · split at accepted
        · cases accepted
        · rename_i method _
          split at accepted
          · rename_i params _
            rw [raiseIf_bind_eq_ok_iff, raiseIf_bind_eq_ok_iff] at accepted
            obtain ⟨-, arity, accepted⟩ := accepted
            obtain ⟨normalized, success, same⟩ := bind_eq_ok_iff.mp accepted
            obtain rfl := Except.ok.inj same
            obtain ⟨value, -, validValue⟩ := Option.bind_eq_some_iff.mp valid
            rw [not_or, not_lt, not_lt] at arity
            exact ⟨validRpcId?_json validValue, rfl, rfl, rfl, params, normalized, arity.1,
              arity.2, success, rfl⟩
          · cases accepted
      · cases accepted
  · cases accepted

theorem pinnedCall_of_prepareCall {item : Json} {call : PreparedCall}
    (accepted : policy.prepareCall item = .ok call) (forwarded : call.isSynthetic = false) :
    policy.PinnedCall call.payload := by
  obtain ⟨valid, sameOrigin, -, sameKind, params, normalized, enough, few, success, same⟩ :=
    policy.prepareCall_spec accepted
  rw [sameKind] at forwarded
  obtain ⟨pinned, longer, short⟩ := policy.pinnedParams_of_pinParams forwarded few success
  refine ⟨call.requestId, call.method.origin, normalized, sameOrigin ▸ same, valid,
    RpcMethod.isHashBound_origin forwarded, ?_, ?_, pinned⟩
  · rw [RpcMethod.arity_origin]
    exact enough.trans longer
  · rw [RpcMethod.arity_origin]
    exact short

section Fields

variable (id : RpcId) (method : RpcMethod) (params : List Json)

theorem get?_callFields_jsonrpc :
    Json.get? (callFields id method params) "jsonrpc" = some (.string "2.0".toList) := by
  rw [callFields, Json.get?_cons, if_pos rfl]

theorem get?_callFields_id : Json.get? (callFields id method params) "id" = some id.json := by
  simp only [callFields, Json.get?_cons, String.toList_inj]
  simp

theorem get?_callFields_method :
    Json.get? (callFields id method params) "method" = some (.string method.name.toList) := by
  simp only [callFields, Json.get?_cons, String.toList_inj]
  simp

theorem get?_callFields_params :
    Json.get? (callFields id method params) "params" = some (.array params) := by
  simp only [callFields, Json.get?_cons, String.toList_inj]
  simp

theorem keysWithin_callFields :
    Json.keysWithin (callFields id method params) ["jsonrpc", "id", "method", "params"] = true := by
  simp only [callFields, Json.keysWithin_cons, Json.keysWithin_nil, String.toList_inj]
  simp

end Fields

/-- A pinned call is accepted, and its payload stays the same. -/
theorem prepareCall_callPayload {id : RpcId} {method : RpcMethod} {params : List Json}
    (valid : validRpcId? id.json = some id) (hashBound : method.isHashBound = true)
    (enough : method.arity.1 ≤ params.length) (few : params.length ≤ method.arity.2)
    (pinned : policy.PinnedParams method params) :
    policy.prepareCall (callPayload id method params) = .ok {
      requestId := id, method := method, originMethod := method,
      payload := callPayload id method params, syntheticResult := none, isSynthetic := false } := by
  have short : ¬ maxRpcParams < params.length := by
    have bound : method.arity.2 ≤ maxRpcParams := by cases method <;> decide
    omega
  have ownOrigin : method.numberToHash?.getD method = method := by
    cases method <;> first | rfl | cases hashBound
  have noResult : policy.syntheticResult? method = none := by
    cases method <;> first | rfl | cases hashBound
  have notSynthetic : method.isSynthetic = false := by
    cases method <;> first | rfl | cases hashBound
  have version : Option.any (·.isText "2.0".toList) (some (Json.string "2.0".toList)) = true := by
    rw [Option.any_some, Json.isText, decide_eq_true rfl]
  simp only [callPayload, prepareCall, get?_callFields_jsonrpc, get?_callFields_id,
    get?_callFields_method, get?_callFields_params, keysWithin_callFields, Option.bind_some, valid,
    RpcMethod.ofName?_name, Option.getD_some, version, List.all_cons, List.all_nil,
    Option.isSome_some, Bool.and_self, Bool.not_true, Bool.or_self]
  rw [raiseIf_bind_of_not Bool.false_ne_true, raiseIf_bind_of_not Bool.false_ne_true,
    raiseIf_bind_of_not short, raiseIf_bind_of_not (by omega),
    bind_of_ok (policy.pinParams_of_pinned hashBound pinned)]
  rw [ownOrigin, noResult, notSynthetic]
  rfl

/-- The payload that is sent on for these calls. -/
def forwardedPayload (outbound : List PreparedCall) (isBatch : Bool) : Json :=
  if isBatch then .array (outbound.map PreparedCall.payload)
  else (outbound.head?.map PreparedCall.payload).getD .null

theorem exists_item_of_preparePayload {payload : Json} {prepared : List PreparedCall}
    {isBatch : Bool} (accepted : policy.preparePayload payload = .ok (prepared, isBatch))
    {call : PreparedCall} (member : call ∈ prepared) :
    ∃ item, policy.prepareCall item = .ok call := by
  unfold preparePayload at accepted
  obtain ⟨request, -, accepted⟩ := bind_eq_ok_iff.mp accepted
  obtain ⟨calls, mapped, accepted⟩ := bind_eq_ok_iff.mp accepted
  rw [raiseIf_bind_eq_ok_iff] at accepted
  cases accepted.2
  obtain ⟨item, -, same⟩ := exists_item_of_mapM mapped member
  exact ⟨item, same⟩

theorem length_le_of_preparePayload {payload : Json} {prepared : List PreparedCall}
    (accepted : policy.preparePayload payload = .ok (prepared, true)) :
    prepared.length ≤ policy.maxBatchSize := by
  unfold preparePayload at accepted
  obtain ⟨⟨items, isBatch⟩, ofPayload, accepted⟩ := bind_eq_ok_iff.mp accepted
  obtain ⟨calls, mapped, accepted⟩ := bind_eq_ok_iff.mp accepted
  rw [raiseIf_bind_eq_ok_iff] at accepted
  cases accepted.2
  have sameLength := congrArg List.length ((mapM_eq_ok_iff items).mp mapped)
  rw [List.length_map, List.length_map] at sameLength
  rw [← sameLength]
  unfold requestItems at ofPayload
  split at ofPayload
  · split at ofPayload
    · cases ofPayload
    · rename_i fits
      cases ofPayload
      rw [Bool.or_eq_true, decide_eq_true_eq, not_or, not_lt] at fits
      exact fits.2
  · cases ofPayload
  · cases ofPayload

/-- What is sent on for an accepted payload is pinned. -/
theorem pinnedPayload_forwarded {payload : Json} {prepared : List PreparedCall} {isBatch : Bool}
    (accepted : policy.preparePayload payload = .ok (prepared, isBatch))
    (some_ : outboundCalls prepared ≠ []) :
    policy.PinnedPayload (forwardedPayload (outboundCalls prepared) isBatch) := by
  have each : ∀ call ∈ outboundCalls prepared, policy.PinnedCall call.payload := by
    intro call member
    obtain ⟨inPrepared, forwarded⟩ := List.mem_filter.mp member
    obtain ⟨item, same⟩ := policy.exists_item_of_preparePayload accepted inPrepared
    exact policy.pinnedCall_of_prepareCall same (by simpa using forwarded)
  cases isBatch with
  | true =>
      refine .inr ⟨_, rfl, fun call member => ?_⟩
      obtain ⟨prepared, preparedMember, rfl⟩ := List.mem_map.mp member
      exact each prepared preparedMember
  | false =>
      obtain ⟨first, rest, split⟩ := List.exists_cons_of_ne_nil some_
      rw [split] at each ⊢
      exact .inl (each first List.mem_cons_self)

/-- The answer depends on the origin only through pinned payloads: two origins that agree on these
lead to the same answer, or to the same rejection, of every payload. -/
theorem handlePayload_depends_on_pinned {forward other : Json → Except RejectionKind Json}
    (agree : ∀ sent, policy.PinnedPayload sent → forward sent = other sent) (payload : Json) :
    policy.handlePayload forward payload = policy.handlePayload other payload := by
  unfold handlePayload
  cases accepted : policy.preparePayload payload with
  | error kind => rfl
  | ok request =>
      obtain ⟨prepared, isBatch⟩ := request
      rw [bind_of_ok rfl, bind_of_ok rfl]
      suffices same : policy.upstreamResponses forward (outboundCalls prepared) isBatch =
          policy.upstreamResponses other (outboundCalls prepared) isBatch by
        dsimp only
        rw [same]
      unfold upstreamResponses
      split
      · rfl
      · rename_i some_
        exact congrArg (· >>= fun response =>
          policy.validateUpstreamResponses response (outboundCalls prepared) isBatch)
          (agree _ (policy.pinnedPayload_forwarded accepted (by simpa using some_)))

/-- A bridge in front of a bridge: what is sent on is accepted again as it is, by the methods of
the origin and with the same identifiers. -/
theorem preparePayload_forwarded {payload : Json} {prepared : List PreparedCall} {isBatch : Bool}
    (accepted : policy.preparePayload payload = .ok (prepared, isBatch))
    (some_ : outboundCalls prepared ≠ []) :
    policy.preparePayload (forwardedPayload (outboundCalls prepared) isBatch) =
      .ok ((outboundCalls prepared).map fun call => { call with method := call.originMethod },
        isBatch) := by
  obtain ⟨distinct, single⟩ := policy.preparePayload_spec accepted
  have again : ∀ call ∈ outboundCalls prepared,
      policy.prepareCall call.payload = .ok { call with method := call.originMethod } := by
    intro call member
    obtain ⟨inPrepared, forwarded⟩ := List.mem_filter.mp member
    obtain ⟨item, ofItem⟩ := policy.exists_item_of_preparePayload accepted inPrepared
    have notSynthetic : call.isSynthetic = false := by simpa using forwarded
    obtain ⟨valid, sameOrigin, sameResult, sameKind, params, normalized, enough, few, success,
      same⟩ := policy.prepareCall_spec ofItem
    have methodForwarded : call.method.isSynthetic = false := sameKind ▸ notSynthetic
    obtain ⟨pinned, longer, short⟩ :=
      policy.pinnedParams_of_pinParams methodForwarded few success
    have noResult : policy.syntheticResult? call.method = none := by
      generalize call.method = method at methodForwarded
      cases method <;> first | rfl | cases methodForwarded
    rw [same, policy.prepareCall_callPayload valid
      (sameOrigin ▸ RpcMethod.isHashBound_origin methodForwarded)
      (by rw [sameOrigin, RpcMethod.arity_origin]; exact enough.trans longer)
      (by rw [sameOrigin, RpcMethod.arity_origin]; exact short) (sameOrigin ▸ pinned)]
    rw [noResult] at sameResult
    rw [← same, ← sameResult, ← notSynthetic]
  have distinctAgain : (((outboundCalls prepared).map fun call =>
      { call with method := call.originMethod }).map PreparedCall.requestId).Nodup := by
    rw [List.map_map]
    exact (List.filter_sublist.map _).nodup distinct
  have items : policy.requestItems (forwardedPayload (outboundCalls prepared) isBatch) =
      .ok ((outboundCalls prepared).map PreparedCall.payload, isBatch) := by
    cases isBatch with
    | true =>
        have fits : (outboundCalls prepared).length ≤ policy.maxBatchSize :=
          (List.length_filter_le _ _).trans (policy.length_le_of_preparePayload accepted)
        have passes : ¬ (((outboundCalls prepared).map PreparedCall.payload).isEmpty ||
            decide (policy.maxBatchSize <
              ((outboundCalls prepared).map PreparedCall.payload).length)) = true := by
          simpa [some_] using fits
        exact if_neg passes
    | false =>
        have one := single rfl
        obtain ⟨call, rfl⟩ := List.length_eq_one_iff.mp one
        have forwarded : call.isSynthetic = false := by
          cases synthetic : call.isSynthetic with
          | true => exact absurd (by simp [outboundCalls, synthetic]) some_
          | false => rfl
        have outbound : outboundCalls [call] = [call] := by simp [outboundCalls, forwarded]
        obtain ⟨item, ofItem⟩ :=
          policy.exists_item_of_preparePayload accepted (List.mem_singleton_self call)
        obtain ⟨-, -, -, -, params, normalized, -, -, -, same⟩ := policy.prepareCall_spec ofItem
        rw [outbound]
        simp only [forwardedPayload, List.head?_cons, Option.map_some, Option.getD_some, same,
          List.map_cons, List.map_nil]
        rfl
  unfold preparePayload
  rw [bind_of_ok items]
  have mapped : ((outboundCalls prepared).map PreparedCall.payload).mapM policy.prepareCall =
      .ok ((outboundCalls prepared).map fun call => { call with method := call.originMethod }) := by
    rw [mapM_eq_ok_iff, List.map_map, List.map_map]
    exact List.map_congr_left again
  rw [bind_of_ok mapped, raiseIf_bind_of_not (not_not.mpr distinctAgain)]
  rfl

/-! ## The sample -/

/-- The origin is only asked for the balance. -/
theorem handlePayload_depends_on_pinned_sample :
    samplePolicy.handlePayload (fun _ => .ok sampleUpstream) samplePayload =
      samplePolicy.handlePayload
        (fun | .null => .error .upstream | _ => .ok sampleUpstream) samplePayload := by
  refine samplePolicy.handlePayload_depends_on_pinned (fun sent pinned => ?_) samplePayload
  rcases pinned with ⟨_, _, _, rfl, -⟩ | ⟨_, rfl, -⟩
  · rfl
  · rfl

theorem preparePayload_forwarded_sample :
    samplePolicy.preparePayload (forwardedPayload (outboundCalls samplePrepared) true) =
      .ok ((outboundCalls samplePrepared).map fun call =>
        { call with method := call.originMethod }, true) := by
  refine samplePolicy.preparePayload_forwarded samplePayload_accepted (List.ne_nil_of_length_pos ?_)
  decide +kernel

end RpcPolicy

end Rpc

end MmAudit
