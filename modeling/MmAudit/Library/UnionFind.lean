import Mathlib.Data.List.Basic
import Mathlib.Data.Nat.Basic
import Mathlib.Logic.Relation
import Mathlib.Order.MinMax

/-!
# Disjoint sets as a list of parents

Every item has a parent that is not above it, and is a root when it is its own parent.
Looking for the root of an item lets the items on the way skip their parents, which leaves
all roots as they are; a union makes the smaller of two roots the parent of the larger one.
-/

namespace MmAudit

namespace UnionFind

/-- Follows the parents, at most so many times two at once, and lets the items skip them. -/
def findWithin : ℕ → List ℕ → ℕ → List ℕ × ℕ
  | 0, parent, index => (parent, index)
  | fuel + 1, parent, index =>
      let next := parent.getD index index
      if next = index then
        (parent, index)
      else
        let skipped := parent.getD next next
        findWithin fuel (parent.set index skipped) skipped

/-- The root of an item.  As parents are never above an item, its number bounds the way. -/
def find (parent : List ℕ) (index : ℕ) : List ℕ × ℕ :=
  findWithin index parent index

def union (parent : List ℕ) (left right : ℕ) : List ℕ :=
  let (parent, leftRoot) := find parent left
  let (parent, rightRoot) := find parent right
  if leftRoot = rightRoot then parent
  else parent.set (max leftRoot rightRoot) (min leftRoot rightRoot)

/-- No parent is above its item. -/
def Rooted (parent : List ℕ) : Prop :=
  ∀ index, parent.getD index index ≤ index

def rootWithin (parent : List ℕ) : ℕ → ℕ → ℕ
  | 0, index => index
  | fuel + 1, index =>
      if parent.getD index index = index then index
      else rootWithin parent fuel (parent.getD index index)

/-- The item that the parents lead to. -/
def root (parent : List ℕ) (index : ℕ) : ℕ :=
  rootWithin parent index index

variable {parent : List ℕ}

theorem rootWithin_of_le (rooted : Rooted parent) {fuel more index : ℕ} (enough : index ≤ fuel)
    (ordered : fuel ≤ more) : rootWithin parent more index = rootWithin parent fuel index := by
  induction fuel generalizing more index with
  | zero =>
      obtain rfl := Nat.le_zero.mp enough
      have fixed : parent.getD 0 0 = 0 := Nat.le_zero.mp (rooted 0)
      cases more with
      | zero => rfl
      | succ more =>
          change (if parent.getD 0 0 = 0 then 0 else _) = 0
          rw [if_pos fixed]
  | succ fuel ih =>
      obtain ⟨more, rfl⟩ : ∃ rest, more = rest + 1 := ⟨more - 1, by omega⟩
      rw [rootWithin, rootWithin]
      split
      · rfl
      · rename_i moved
        have below := rooted index
        exact ih (by omega) (by omega)

/-- The root of an item is the root of its parent. -/
theorem root_eq (rooted : Rooted parent) (index : ℕ) :
    root parent index =
      if parent.getD index index = index then index else root parent (parent.getD index index) := by
  cases index with
  | zero =>
      have fixed : parent.getD 0 0 = 0 := Nat.le_zero.mp (rooted 0)
      rw [if_pos fixed]
      rfl
  | succ index =>
      rw [root, rootWithin]
      split
      · rfl
      · rename_i moved
        have below := rooted (index + 1)
        exact rootWithin_of_le rooted le_rfl (by omega)

theorem root_of_fixed (rooted : Rooted parent) {index : ℕ}
    (fixed : parent.getD index index = index) : root parent index = index := by
  rw [root_eq rooted, if_pos fixed]

theorem root_parent (rooted : Rooted parent) (index : ℕ) :
    root parent (parent.getD index index) = root parent index := by
  rw [root_eq rooted index]
  split
  · rename_i fixed
    rw [fixed, root_of_fixed rooted fixed]
  · rfl

theorem fixed_root (rooted : Rooted parent) (index : ℕ) :
    parent.getD (root parent index) (root parent index) = root parent index := by
  induction index using Nat.strong_induction_on with
  | _ index ih =>
      rw [root_eq rooted]
      split
      · assumption
      · rename_i moved
        have below := rooted index
        exact ih _ (by omega)

theorem root_root (rooted : Rooted parent) (index : ℕ) :
    root parent (root parent index) = root parent index :=
  root_of_fixed rooted (fixed_root rooted index)

theorem root_le (rooted : Rooted parent) (index : ℕ) : root parent index ≤ index := by
  induction index using Nat.strong_induction_on with
  | _ index ih =>
      rw [root_eq rooted]
      split
      · exact le_rfl
      · rename_i moved
        have below := rooted index
        exact (ih _ (by omega)).trans below

theorem getD_set (parent : List ℕ) (index value other : ℕ) :
    (parent.set index value).getD other other =
      if index = other ∧ index < parent.length then value else parent.getD other other := by
  rw [List.getD_eq_getElem?_getD, List.getD_eq_getElem?_getD, List.getElem?_set]
  by_cases same : index = other
  · subst same
    by_cases inside : index < parent.length
    · simp [inside]
    · simp [inside]
  · simp [same]

/-- Other parents, of which each has the root of its item. -/
theorem root_congr (rooted : Rooted parent) {changed : List ℕ} (changedRooted : Rooted changed)
    (sameRoots : ∀ index, root parent (changed.getD index index) = root parent index)
    (sameFixed : ∀ index, changed.getD index index = index → parent.getD index index = index)
    (index : ℕ) : root changed index = root parent index := by
  induction index using Nat.strong_induction_on with
  | _ index ih =>
      rw [root_eq changedRooted]
      split
      · rename_i fixed
        exact (root_of_fixed rooted (sameFixed index fixed)).symm
      · rename_i moved
        have below := changedRooted index
        rw [ih _ (by omega), sameRoots]

/-- Skipping a parent changes no root. -/
theorem root_set_skipped (rooted : Rooted parent) {index : ℕ}
    (moved : parent.getD index index ≠ index) :
    let next := parent.getD index index
    let changed := parent.set index (parent.getD next next)
    Rooted changed ∧ ∀ other, root changed other = root parent other := by
  intro next changed
  have nextBelow : next < index := lt_of_le_of_ne (rooted index) moved
  have skippedBelow : parent.getD next next ≤ next := rooted next
  have value : ∀ other, changed.getD other other =
      if index = other ∧ index < parent.length then parent.getD next next
      else parent.getD other other := getD_set parent index (parent.getD next next)
  have changedRooted : Rooted changed := by
    intro other
    rw [value]
    split
    · omega
    · exact rooted other
  refine ⟨changedRooted, root_congr rooted changedRooted ?_ ?_⟩
  · intro other
    rw [value]
    split
    · rename_i here
      rw [root_parent rooted next, ← here.1, root_parent rooted index]
    · exact root_parent rooted other
  · intro other
    rw [value]
    split
    · omega
    · exact id

/-- A search finds the root and changes none. -/
theorem findWithin_spec (rooted : Rooted parent) {fuel index : ℕ} (enough : index ≤ fuel) :
    (findWithin fuel parent index).2 = root parent index ∧
      Rooted (findWithin fuel parent index).1 ∧
      (findWithin fuel parent index).1.length = parent.length ∧
      ∀ other, root (findWithin fuel parent index).1 other = root parent other := by
  induction fuel generalizing parent index with
  | zero =>
      obtain rfl := Nat.le_zero.mp enough
      exact ⟨rfl, rooted, rfl, fun _ => rfl⟩
  | succ fuel ih =>
      rw [findWithin]
      dsimp only
      split
      · rename_i fixed
        exact ⟨(root_of_fixed rooted fixed).symm, rooted, rfl, fun _ => rfl⟩
      · rename_i moved
        obtain ⟨changedRooted, sameRoots⟩ := root_set_skipped rooted moved
        have nextBelow := rooted index
        have skippedBelow := rooted (parent.getD index index)
        obtain ⟨found, foundRooted, length, kept⟩ := ih changedRooted
          (show parent.getD (parent.getD index index) (parent.getD index index) ≤ fuel by omega)
        refine ⟨?_, foundRooted, ?_, fun other => (kept other).trans (sameRoots other)⟩
        · rw [found, sameRoots, root_parent rooted, root_parent rooted]
        · rw [length, List.length_set]

theorem find_spec (rooted : Rooted parent) (index : ℕ) :
    (find parent index).2 = root parent index ∧ Rooted (find parent index).1 ∧
      (find parent index).1.length = parent.length ∧
      ∀ other, root (find parent index).1 other = root parent other :=
  findWithin_spec rooted le_rfl

/-- Linking the larger of two roots to the smaller one. -/
theorem root_set_link (rooted : Rooted parent) {low high : ℕ} (ordered : low < high)
    (inside : high < parent.length) (lowFixed : parent.getD low low = low)
    (highFixed : parent.getD high high = high) :
    Rooted (parent.set high low) ∧
      ∀ other, root (parent.set high low) other =
        if root parent other = high then low else root parent other := by
  have value := getD_set parent high low
  have changedRooted : Rooted (parent.set high low) := by
    intro other
    rw [value]
    split
    · omega
    · exact rooted other
  refine ⟨changedRooted, ?_⟩
  intro other
  induction other using Nat.strong_induction_on with
  | _ other ih =>
      rw [root_eq changedRooted]
      by_cases here : high = other
      · subst here
        have linked : (parent.set high low).getD high high = low := by
          rw [value, if_pos ⟨rfl, inside⟩]
        rw [linked, if_neg ordered.ne, ih low ordered, root_of_fixed rooted lowFixed,
          root_of_fixed rooted highFixed, if_pos rfl, if_neg ordered.ne]
      · have unlinked : (parent.set high low).getD other other = parent.getD other other := by
          rw [value, if_neg fun both => here both.1]
        rw [unlinked]
        split
        · rename_i fixed
          rw [root_of_fixed rooted fixed, if_neg (Ne.symm here)]
        · rename_i moved
          have below := rooted other
          rw [ih _ (by omega), root_parent rooted]

/-- A union joins the sets of its two items and leaves the others alone. -/
theorem union_spec (rooted : Rooted parent) {left right : ℕ} (leftInside : left < parent.length)
    (rightInside : right < parent.length) :
    Rooted (union parent left right) ∧ (union parent left right).length = parent.length ∧
      ∀ index, root (union parent left right) index =
        if root parent index = root parent left ∨ root parent index = root parent right then
          min (root parent left) (root parent right)
        else root parent index := by
  obtain ⟨leftFound, leftRooted, leftLength, leftKept⟩ := find_spec rooted left
  obtain ⟨rightFound, rightRooted, rightLength, rightKept⟩ :=
    find_spec leftRooted right
  rw [leftKept] at rightFound
  have kept : ∀ index, root (find (find parent left).1 right).1 index = root parent index :=
    fun index => (rightKept index).trans (leftKept index)
  unfold union
  dsimp only
  rw [leftFound, rightFound]
  by_cases same : root parent left = root parent right
  · rw [if_pos same]
    refine ⟨rightRooted, rightLength.trans leftLength, fun index => ?_⟩
    rw [kept]
    split_ifs with member
    · omega
    · rfl
  · rw [if_neg same]
    have leftBelow := root_le rooted left
    have rightBelow := root_le rooted right
    have fixed : ∀ index, (find (find parent left).1 right).1.getD (root parent index)
        (root parent index) = root parent index := by
      intro index
      have isFixed := fixed_root rightRooted index
      rwa [kept] at isFixed
    have lowFixed : (find (find parent left).1 right).1.getD
        (min (root parent left) (root parent right)) (min (root parent left) (root parent right)) =
          min (root parent left) (root parent right) := by
      rcases min_choice (root parent left) (root parent right) with low | low
      · rw [low, fixed]
      · rw [low, fixed]
    have highFixed : (find (find parent left).1 right).1.getD
        (max (root parent left) (root parent right)) (max (root parent left) (root parent right)) =
          max (root parent left) (root parent right) := by
      rcases max_choice (root parent left) (root parent right) with high | high
      · rw [high, fixed]
      · rw [high, fixed]
    obtain ⟨linkRooted, linked⟩ := root_set_link rightRooted
      (show min (root parent left) (root parent right) < max (root parent left) (root parent right)
        by omega)
      (show _ < _ by rw [rightLength, leftLength]; omega) lowFixed highFixed
    refine ⟨linkRooted, by rw [List.length_set, rightLength, leftLength], fun index => ?_⟩
    rw [linked, kept]
    split_ifs <;> omega

/-- The items of two sets stay together. -/
theorem root_union_eq (rooted : Rooted parent) {left right : ℕ} (leftInside : left < parent.length)
    (rightInside : right < parent.length) {index other : ℕ}
    (together : root parent index = root parent other) :
    root (union parent left right) index = root (union parent left right) other := by
  obtain ⟨-, -, roots⟩ := union_spec rooted leftInside rightInside
  rw [roots, roots, together]

/-- A union brings its items together. -/
theorem root_union_self (rooted : Rooted parent) {left right : ℕ}
    (leftInside : left < parent.length) (rightInside : right < parent.length) :
    root (union parent left right) left = root (union parent left right) right := by
  obtain ⟨-, -, roots⟩ := union_spec rooted leftInside rightInside
  rw [roots, roots, if_pos (.inl rfl), if_pos (.inr rfl)]

theorem rooted_range (count : ℕ) : Rooted (List.range count) := by
  intro index
  rw [List.getD_eq_getElem?_getD]
  by_cases inside : index < count
  · rw [List.getElem?_range inside, Option.getD_some]
  · rw [List.getElem?_eq_none (by simpa using inside), Option.getD_none]

theorem root_range {count index : ℕ} (inside : index < count) :
    root (List.range count) index = index := by
  refine root_of_fixed (rooted_range count) ?_
  rw [List.getD_eq_getElem?_getD, List.getElem?_range inside, Option.getD_some]

/-! ## Single writes -/

/-- One assignment to the list: an item skips its parent, or a root goes under a lower one. -/
inductive Write : List ℕ → List ℕ → Prop where
  | skip {parent : List ℕ} {index : ℕ} (moved : parent.getD index index ≠ index) :
      Write parent (parent.set index
        (parent.getD (parent.getD index index) (parent.getD index index)))
  | link {parent : List ℕ} {low high : ℕ} (ordered : low < high)
      (lowFixed : parent.getD low low = low) (highFixed : parent.getD high high = high) :
      Write parent (parent.set high low)

/-- No assignment puts a parent above its item. -/
theorem Write.rooted {next : List ℕ} (write : Write parent next) (rooted : Rooted parent) :
    Rooted next := by
  cases write with
  | skip moved => exact (root_set_skipped rooted moved).1
  | @link low high ordered lowFixed highFixed =>
      intro other
      rw [getD_set]
      split
      · omega
      · exact rooted other

/-- One assignment after the other. -/
abbrev Writes : List ℕ → List ℕ → Prop :=
  Relation.ReflTransGen Write

theorem Writes.rooted {next : List ℕ} (writes : Writes parent next) (rooted : Rooted parent) :
    Rooted next := by
  induction writes with
  | refl => exact rooted
  | tail _ write ih => exact write.rooted ih

theorem writes_findWithin (parent : List ℕ) (fuel index : ℕ) :
    Writes parent (findWithin fuel parent index).1 := by
  induction fuel generalizing parent index with
  | zero => exact .refl
  | succ fuel ih =>
      rw [findWithin]
      dsimp only
      split
      · exact .refl
      · rename_i moved
        exact .head (.skip moved) (ih _ _)

theorem writes_find (parent : List ℕ) (index : ℕ) : Writes parent (find parent index).1 :=
  writes_findWithin parent index index

theorem writes_union (rooted : Rooted parent) (left right : ℕ) :
    Writes parent (union parent left right) := by
  obtain ⟨leftFound, leftRooted, -, -⟩ := find_spec rooted left
  obtain ⟨rightFound, rightRooted, -, kept⟩ := find_spec leftRooted right
  have searched : Writes parent (find (find parent left).1 right).1 :=
    (writes_find parent left).trans (writes_find _ right)
  have leftFixed := fixed_root rightRooted (find parent left).2
  have rightFixed := fixed_root rightRooted (find (find parent left).1 right).2
  rw [kept, leftFound, ← (find_spec rooted left).2.2.2, root_root leftRooted] at leftFixed
  rw [kept, rightFound, root_root leftRooted] at rightFixed
  unfold union
  dsimp only
  split
  · exact searched
  · rename_i different
    refine searched.tail (.link (by omega) ?_ ?_)
    · rcases min_choice (find parent left).2 (find (find parent left).1 right).2 with low | low
      · rw [low, leftFound, ← (find_spec rooted left).2.2.2, leftFixed]
      · rw [low, rightFound, rightFixed]
    · rcases max_choice (find parent left).2 (find (find parent left).1 right).2 with high | high
      · rw [high, leftFound, ← (find_spec rooted left).2.2.2, leftFixed]
      · rw [high, rightFound, rightFixed]

/-- A search ends at a root before its fuel does. -/
theorem findWithin_eq_find (rooted : Rooted parent) {fuel index : ℕ} (enough : index ≤ fuel) :
    findWithin fuel parent index = find parent index := by
  suffices general : ∀ (fuel more : ℕ) (parent : List ℕ) (index : ℕ), Rooted parent →
      index ≤ fuel → fuel ≤ more →
        findWithin more parent index = findWithin fuel parent index from
    general index fuel parent index rooted le_rfl enough
  intro fuel
  induction fuel with
  | zero =>
      intro more parent index rooted enough ordered
      obtain rfl := Nat.le_zero.mp enough
      have fixed : parent.getD 0 0 = 0 := Nat.le_zero.mp (rooted 0)
      cases more with
      | zero => rfl
      | succ more =>
          rw [findWithin]
          exact if_pos fixed
  | succ fuel ih =>
      intro more parent index rooted enough ordered
      obtain ⟨more, rfl⟩ : ∃ rest, more = rest + 1 := ⟨more - 1, by omega⟩
      rw [findWithin, findWithin]
      dsimp only
      split
      · rfl
      · rename_i moved
        have nextBelow := rooted index
        have skippedBelow := rooted (parent.getD index index)
        exact ih more _ _ (root_set_skipped rooted moved).1 (by omega) (by omega)

/-- The item a search ends at is its own parent. -/
theorem find_fixed (rooted : Rooted parent) (index : ℕ) :
    (find parent index).1.getD (find parent index).2 (find parent index).2 =
      (find parent index).2 := by
  obtain ⟨found, foundRooted, -, kept⟩ := find_spec rooted index
  have fixed := fixed_root foundRooted index
  rw [kept] at fixed
  rw [found, fixed]

end UnionFind

end MmAudit
