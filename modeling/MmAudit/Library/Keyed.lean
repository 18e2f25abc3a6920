import Mathlib

/-!
# Lists whose items have keys

An append-only list of items is read through the key of an item.  While the keys
are distinct, a lookup does not depend on the order of the list; and a lookup that
found an item still finds it after items were appended.
-/

namespace MmAudit

namespace Keyed

variable {Item Key : Type*} [DecidableEq Key] {key : Item → Key}

theorem find?_append_singleton (items : List Item) (item : Item) (sought : Key) :
    (items ++ [item]).find? (key · = sought) =
      (items.find? (key · = sought)).or (if key item = sought then some item else none) := by
  rw [List.find?_append]
  by_cases same : key item = sought <;> simp [same]

theorem find?_eq_none_iff (items : List Item) (sought : Key) :
    items.find? (key · = sought) = none ↔ sought ∉ items.map key := by
  simp [List.find?_eq_none]

theorem find?_append_of_some {items : List Item} {item : Item} {sought : Key}
    (found : items.find? (key · = sought) = some item) (more : List Item) :
    (items ++ more).find? (key · = sought) = some item := by
  rw [List.find?_append, found, Option.some_or]

theorem mem_of_find? {items : List Item} {item : Item} {sought : Key}
    (found : items.find? (key · = sought) = some item) : item ∈ items ∧ key item = sought :=
  ⟨List.mem_of_find?_eq_some found, by simpa using List.find?_some found⟩

theorem find?_eq_some_iff {items : List Item} (distinct : (items.map key).Nodup) {item : Item}
    {sought : Key} :
    items.find? (key · = sought) = some item ↔ item ∈ items ∧ key item = sought := by
  refine ⟨mem_of_find?, ?_⟩
  rintro ⟨member, rfl⟩
  induction items with
  | nil => cases member
  | cons head items ih =>
      rw [List.map_cons, List.nodup_cons] at distinct
      rcases List.mem_cons.mp member with rfl | member
      · simp
      · have different : key head ≠ key item := fun same =>
          distinct.1 (same ▸ List.mem_map_of_mem member)
        rw [List.find?_cons_of_neg (by simpa using different)]
        exact ih distinct.2 member

theorem find?_perm {items others : List Item} (perm : items.Perm others)
    (distinct : (items.map key).Nodup) (sought : Key) :
    items.find? (key · = sought) = others.find? (key · = sought) := by
  refine Option.ext fun item => ?_
  rw [find?_eq_some_iff distinct, find?_eq_some_iff ((perm.map key).nodup_iff.mp distinct),
    perm.mem_iff]

theorem nodup_append_singleton {items : List Item} (distinct : (items.map key).Nodup) {item : Item}
    (fresh : items.find? (key · = key item) = none) : ((items ++ [item]).map key).Nodup := by
  rw [List.map_append, List.map_singleton, List.nodup_append]
  refine ⟨distinct, List.nodup_singleton _, ?_⟩
  intro first firstMem second secondMem same
  obtain rfl := List.mem_singleton.mp secondMem
  exact (find?_eq_none_iff items _).mp fresh (same ▸ firstMem)

/-- Distinct keys make the items with one key a list of at most one. -/
theorem eq_of_key_eq {items : List Item} (distinct : (items.map key).Nodup) {first second : Item}
    (firstMem : first ∈ items) (secondMem : second ∈ items) (same : key first = key second) :
    first = second := by
  have found := (find?_eq_some_iff distinct).mpr ⟨firstMem, rfl⟩
  rw [same, (find?_eq_some_iff distinct).mpr ⟨secondMem, rfl⟩] at found
  exact (Option.some.inj found).symm

omit [DecidableEq Key] in
/-- A filter that only one key passes leaves one item. -/
theorem filter_eq_singleton {items : List Item} (distinct : (items.map key).Nodup) {item : Item}
    (member : item ∈ items) {passes : Item → Bool} (itemPasses : passes item = true)
    (alone : ∀ other ∈ items, passes other = true → key other = key item) :
    items.filter passes = [item] := by
  induction items with
  | nil => cases member
  | cons head items ih =>
      rw [List.map_cons, List.nodup_cons] at distinct
      rcases List.mem_cons.mp member with rfl | member
      · rw [List.filter_cons_of_pos itemPasses, List.cons_inj_right, List.filter_eq_nil_iff]
        intro other otherMem otherPasses
        have same := alone other (List.mem_cons_of_mem _ otherMem) otherPasses
        exact distinct.1 (same ▸ List.mem_map_of_mem otherMem)
      · have headFails : ¬ passes head = true := fun headPasses =>
          distinct.1 (alone head List.mem_cons_self headPasses ▸ List.mem_map_of_mem member)
        rw [List.filter_cons_of_neg headFails]
        exact ih distinct.2 member fun other otherMem => alone other (List.mem_cons_of_mem _ otherMem)

/-- A property that holds of every item before an item with it holds of a prefix. -/
theorem filter_eq_take {Element : Type*} {items : List Element} {holds : Element → Bool}
    (downward : ∀ before item after, items = before ++ item :: after → holds item = true →
      ∀ other ∈ before, holds other = true) :
    items.filter holds = items.take (items.filter holds).length := by
  induction items with
  | nil => rfl
  | cons head items ih =>
      by_cases headHolds : holds head = true
      · have rest := ih fun before item after split itemHolds other member =>
          downward (head :: before) item after (by rw [split, List.cons_append]) itemHolds other
            (List.mem_cons_of_mem _ member)
        rw [List.filter_cons_of_pos headHolds, List.length_cons, List.take_succ_cons, ← rest]
      · have none_ : items.filter holds = [] := by
          rw [List.filter_eq_nil_iff]
          intro item member itemHolds
          obtain ⟨before, after, split⟩ := List.append_of_mem member
          exact headHolds (downward (head :: before) item after (by rw [split, List.cons_append])
            itemHolds head List.mem_cons_self)
        rw [List.filter_cons_of_neg headHolds, none_, List.length_nil, List.take_zero]

/-- Where an item of a list stands that was extended by one. -/
theorem append_singleton_eq_append_cons {items before after : List Item} {item other : Item}
    (split : items ++ [item] = before ++ other :: after) :
    (before = items ∧ other = item) ∨
      ∃ rest, items = before ++ other :: rest := by
  rcases List.eq_nil_or_concat after with rfl | ⟨rest, last, rfl⟩
  · left
    have same := List.append_inj' split rfl
    exact ⟨same.1.symm, (List.singleton_inj.mp same.2).symm⟩
  · right
    rw [List.concat_eq_append, ← List.cons_append, ← List.append_assoc] at split
    exact ⟨rest, (List.append_inj' split rfl).1⟩

/-- A list, or nothing if it is empty. -/
def listed (items : List Item) : Option (List Item) :=
  if items = [] then none else some items

@[simp]
theorem getD_listed (items : List Item) : (listed items).getD [] = items := by
  by_cases empty : items = [] <;> simp [listed, empty]

@[simp]
theorem listed_append_singleton (items : List Item) (item : Item) :
    listed (items ++ [item]) = some (items ++ [item]) := by
  simp [listed]

theorem listed_eq_none_iff (items : List Item) : listed items = none ↔ items = [] := by
  by_cases empty : items = [] <;> simp [listed, empty]

end Keyed

end MmAudit
