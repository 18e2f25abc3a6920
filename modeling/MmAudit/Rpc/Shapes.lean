import MmAudit.Rpc.Requests

/-!
# The shape of JSON payloads

Before a payload is looked at, its values are counted and the depth of their nesting is
checked, with a stack of values that are still to be visited.  The walk stops at the first
value that is too deep or one too many, so it never visits more values than the limit.
-/

namespace MmAudit

namespace Json

/-- The values directly inside of a value. -/
def children : Json → List Json
  | .array items => items
  | .object fields => fields.map Prod.snd
  | _ => []

theorem sizeOf_lt_of_mem_children {value child : Json} (member : child ∈ value.children) :
    sizeOf child < sizeOf value := by
  cases value with
  | array items =>
      have smaller := List.sizeOf_lt_of_mem (show child ∈ items from member)
      rw [array.sizeOf_spec]
      omega
  | object fields =>
      obtain ⟨field, inFields, rfl⟩ := List.mem_map.mp member
      have smaller := List.sizeOf_lt_of_mem inFields
      rw [object.sizeOf_spec]
      have part : sizeOf field = 1 + sizeOf field.1 + sizeOf field.2 := rfl
      omega
  | _ => cases member

/-- The number of values in a value, itself included. -/
def nodes (value : Json) : ℕ :=
  1 + (value.children.attach.map fun child => nodes child.1).sum
termination_by sizeOf value
decreasing_by exact sizeOf_lt_of_mem_children child.2

/-- The depth of the nesting. -/
def depth (value : Json) : ℕ :=
  1 + (value.children.attach.map fun child => depth child.1).foldr max 0
termination_by sizeOf value
decreasing_by exact sizeOf_lt_of_mem_children child.2

theorem nodes_eq (value : Json) : value.nodes = 1 + (value.children.map nodes).sum := by
  rw [nodes, List.attach_map_val]

theorem depth_le_iff (value : Json) (limit : ℕ) :
    value.depth ≤ limit + 1 ↔ ∀ child ∈ value.children, child.depth ≤ limit := by
  have bounded : ∀ depths : List ℕ, depths.foldr max 0 ≤ limit ↔ ∀ depth ∈ depths, depth ≤ limit := by
    intro depths
    induction depths with
    | nil => simp
    | cons depth depths ih => simp [ih]
  rw [depth, List.attach_map_val, Nat.add_comm, Nat.add_le_add_iff_right,
    bounded, List.forall_mem_map]

end Json

namespace Rpc

/-- The values that are still to be visited, each with its depth, the top of the stack first. -/
abbrev ShapeStack := List (Json × ℕ)

def ShapeStack.nodes (stack : ShapeStack) : ℕ :=
  (stack.map fun item => item.1.nodes).sum

/-- What `stack.extend` leaves of the stack for the children of a value. -/
def ShapeStack.extend (stack : ShapeStack) (value : Json) (depth : ℕ) : ShapeStack :=
  (value.children.map (·, depth)).reverse ++ stack

theorem ShapeStack.nodes_extend (stack : ShapeStack) (value : Json) (depth : ℕ) :
    (stack.extend value depth).nodes + 1 = value.nodes + stack.nodes := by
  rw [Json.nodes_eq]
  simp only [ShapeStack.nodes, ShapeStack.extend, List.map_append, List.map_reverse, List.map_map,
    List.sum_append, List.sum_reverse, Function.comp_def]
  change _ = 1 + (value.children.map fun child => child.nodes).sum + _
  omega

/-- The loop of `_validate_json_shape`, after it has visited this many values. -/
def validateShapes (maxDepth maxNodes : ℕ) (failure : RejectionKind) :
    ShapeStack → ℕ → Except RejectionKind Unit
  | [], _ => .ok ()
  | (current, depth) :: stack, visited =>
      if maxDepth < depth ∨ maxNodes < visited + 1 then .error failure
      else validateShapes maxDepth maxNodes failure (ShapeStack.extend stack current (depth + 1))
        (visited + 1)
termination_by stack => ShapeStack.nodes stack
decreasing_by
  have fewer := ShapeStack.nodes_extend stack current (depth + 1)
  have parts : ShapeStack.nodes ((current, depth) :: stack) =
      current.nodes + ShapeStack.nodes stack := List.sum_cons
  omega

/-- `_validate_json_shape` -/
def validateJsonShape (value : Json) (maxDepth maxNodes : ℕ) (failureKind : RejectionKind) :
    Except RejectionKind Unit :=
  validateShapes maxDepth maxNodes
    (if failureKind = .malformed then .limit else failureKind) [(value, 1)] 0

/-- The walk ends well exactly when there are few enough values and none of them is too deep. -/
theorem validateShapes_eq {maxDepth maxNodes : ℕ} {failure : RejectionKind} (stack : ShapeStack)
    (visited : ℕ) (within : visited ≤ maxNodes) :
    validateShapes maxDepth maxNodes failure stack visited =
      if visited + ShapeStack.nodes stack ≤ maxNodes ∧
        ∀ item ∈ stack, item.2 + item.1.depth ≤ maxDepth + 1 then .ok () else .error failure := by
  fun_induction validateShapes maxDepth maxNodes failure stack visited with
  | case1 => rw [if_pos ⟨by simpa [ShapeStack.nodes] using within, by simp⟩]
  | case2 current depth stack visited failed =>
      rw [if_neg]
      rintro ⟨few, shallow⟩
      have parts : ShapeStack.nodes ((current, depth) :: stack) =
          current.nodes + ShapeStack.nodes stack := List.sum_cons
      have one := current.nodes_eq
      have top := shallow _ List.mem_cons_self
      have atLeast : 1 ≤ current.depth := by
        rw [Json.depth]
        omega
      dsimp only at top
      omega
  | case3 current depth stack visited passed ih =>
      rw [not_or, not_lt, not_lt] at passed
      rw [ih passed.2]
      have fewer := ShapeStack.nodes_extend stack current (depth + 1)
      have parts : ShapeStack.nodes ((current, depth) :: stack) =
          current.nodes + ShapeStack.nodes stack := List.sum_cons
      have sameCount : visited + 1 + (ShapeStack.extend stack current (depth + 1)).nodes =
          visited + ShapeStack.nodes ((current, depth) :: stack) := by omega
      have children := current.depth_le_iff (maxDepth - depth)
      rw [sameCount]
      refine if_congr (and_congr_right fun _ => ?_) rfl rfl
      simp only [ShapeStack.extend, List.mem_append, List.mem_reverse, List.mem_map,
        List.mem_cons, or_imp, forall_and, forall_eq, forall_exists_index, and_imp,
        forall_apply_eq_imp_iff₂]
      refine and_congr_left fun _ => ?_
      rw [show depth + current.depth ≤ maxDepth + 1 ↔ current.depth ≤ maxDepth - depth + 1 by omega,
        children]
      exact forall₂_congr fun child _ => by omega

/-- A payload is accepted exactly when it is within both limits; of an inbound payload the limit is
blamed, of another the given kind. -/
theorem validateJsonShape_eq (value : Json) (maxDepth maxNodes : ℕ) (failureKind : RejectionKind) :
    validateJsonShape value maxDepth maxNodes failureKind =
      if value.depth ≤ maxDepth ∧ value.nodes ≤ maxNodes then .ok ()
      else .error (if failureKind = .malformed then .limit else failureKind) := by
  rw [validateJsonShape, validateShapes_eq _ _ (Nat.zero_le _)]
  refine if_congr ?_ rfl rfl
  rw [List.forall_mem_singleton, ShapeStack.nodes, List.map_singleton, List.sum_singleton,
    Nat.zero_add, and_comm, Nat.add_comm, Nat.add_le_add_iff_right]

end Rpc

end MmAudit
