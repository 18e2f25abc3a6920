import MmAudit.Library.Dict

/-!
# Dictionaries from lists of assignments

A dictionary that is filled by one assignment after the other.  A key of it was assigned, and
its value is one that it was assigned; where no key is assigned twice, the dictionary holds the
assignments as they came.
-/

namespace MmAudit

namespace Dict

variable {Key Value : Type*} [DecidableEq Key]

/-- A new key comes last. -/
theorem keys_insert_of_not_mem {dict : Dict Key Value} {key : Key} (isNew : key ∉ dict)
    (value : Value) : (dict.insert key value).keys = dict.keys ++ [key] := by
  have absent : key ∉ dict.keys := isNew
  rw [keys, insert, dif_neg absent, List.map_append, List.map_singleton]
  rfl

/-- Make the assignments in order. -/
def assign (dict : Dict Key Value) (assignments : List (Key × Value)) : Dict Key Value :=
  assignments.foldl (fun dict assignment => dict.insert assignment.1 assignment.2) dict

theorem assign_cons (dict : Dict Key Value) (assignment : Key × Value)
    (assignments : List (Key × Value)) :
    dict.assign (assignment :: assignments) =
      (dict.insert assignment.1 assignment.2).assign assignments :=
  rfl

theorem mem_assign_iff (dict : Dict Key Value) (assignments : List (Key × Value)) (key : Key) :
    key ∈ dict.assign assignments ↔ key ∈ dict ∨ key ∈ assignments.map Prod.fst := by
  induction assignments generalizing dict with
  | nil => simp [assign]
  | cons assignment assignments ih =>
      rw [assign_cons, ih, mem_insert_iff, List.map_cons, List.mem_cons]
      tauto

/-- A value was there at the start or was assigned. -/
theorem get?_assign_cases {dict : Dict Key Value} {assignments : List (Key × Value)} {key : Key}
    {value : Value} (found : (dict.assign assignments).get? key = some value) :
    dict.get? key = some value ∨ (key, value) ∈ assignments := by
  induction assignments generalizing dict with
  | nil => exact .inl found
  | cons assignment assignments ih =>
      rw [assign_cons] at found
      rcases ih found with before | later
      · rw [get?_insert] at before
        split at before
        · rename_i same
          cases before
          exact .inr (by rw [same]; exact List.mem_cons_self)
        · exact .inl before
      · exact .inr (List.mem_cons_of_mem _ later)

/-- Assignments to different new keys are appended. -/
theorem items_assign_of_nodup (dict : Dict Key Value) (assignments : List (Key × Value))
    (fresh : (dict.keys ++ assignments.map Prod.fst).Nodup) :
    (dict.assign assignments).items = dict.items ++ assignments := by
  induction assignments generalizing dict with
  | nil => simp [assign]
  | cons assignment assignments ih =>
      have absent : assignment.1 ∉ dict.keys := by
        intro present
        rw [List.map_cons, List.nodup_append] at fresh
        exact fresh.2.2 _ present _ List.mem_cons_self rfl
      have inserted : (dict.insert assignment.1 assignment.2).items = dict.items ++ [assignment] := by
        rw [insert, dif_neg absent]
      rw [assign_cons, ih, inserted, List.append_assoc, List.singleton_append]
      rw [keys, inserted, List.map_append, List.append_assoc]
      exact fresh

theorem items_assign_empty {assignments : List (Key × Value)}
    (distinct : (assignments.map Prod.fst).Nodup) :
    ((empty : Dict Key Value).assign assignments).items = assignments :=
  items_assign_of_nodup empty assignments distinct

/-! ## Items under their keys -/

section ByKey

variable {Item : Type*} (key : Item → Key)

/-- Every item is assigned to its key. -/
theorem foldl_insert_eq_assign (items : List Item) :
    items.foldl (fun dict item => dict.insert (key item) item) empty =
      empty.assign (items.map fun item => (key item, item)) := by
  rw [assign, List.foldl_map]

/-- Items with distinct keys are all kept in their order. -/
theorem values_foldl_insert_of_nodup {items : List Item} (distinct : (items.map key).Nodup) :
    (items.foldl (fun dict item => dict.insert (key item) item) empty).values = items := by
  rw [foldl_insert_eq_assign, values, items_assign_empty, List.map_map]
  · exact List.map_id items
  · rw [List.map_map]
    exact distinct

theorem values_foldl_insert_ne_nil {items : List Item} (nonempty : items ≠ []) :
    (items.foldl (fun dict item => dict.insert (key item) item) empty).values ≠ [] := by
  obtain ⟨item, member⟩ := List.exists_mem_of_ne_nil items nonempty
  have stored : key item ∈ ((empty : Dict Key Item).assign
      (items.map fun item => (key item, item))).keys := by
    refine (mem_assign_iff empty _ _).mpr (.inr ?_)
    rw [List.map_map]
    exact List.mem_map_of_mem member
  rw [foldl_insert_eq_assign, values, ne_eq, List.map_eq_nil_iff]
  intro none
  rw [keys, none] at stored
  exact List.not_mem_nil stored

/-- If as many items are kept as there were then their keys are distinct. -/
theorem nodup_of_length_values {items : List Item}
    (same : (items.foldl (fun dict item => dict.insert (key item) item) empty).values.length =
      items.length) : (items.map key).Nodup := by
  rw [foldl_insert_eq_assign, values, List.length_map] at same
  set dict := (empty : Dict Key Item).assign (items.map fun item => (key item, item)) with isDict
  have subset : dict.keys ⊆ items.map key := by
    intro listed member
    have assigned := (mem_assign_iff empty (items.map fun item => (key item, item)) listed).mp member
    rw [List.map_map] at assigned
    exact assigned.resolve_left (List.not_mem_nil)
  have subperm : dict.keys.Subperm (items.map key) := List.subperm_of_subset dict.nodup subset
  have perm := subperm.perm_of_length_le (by rw [keys, List.length_map, List.length_map, same])
  exact perm.nodup_iff.mp dict.nodup

end ByKey

end Dict

end MmAudit
