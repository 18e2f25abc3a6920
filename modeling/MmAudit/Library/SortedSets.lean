import Mathlib.Data.List.Sort
import Mathlib.Data.List.Dedup
import Mathlib.Order.Lex
import Mathlib.Data.Prod.Lex

/-!
# Sorted lists without repetitions

Validators often ask that a list of keys equals the sorted list of its distinct members.
A list that was sorted by its keys passes exactly when the keys are distinct.
-/

namespace MmAudit

namespace SortedSets

variable {Item Key : Type} [LinearOrder Key]

def sortedSet (keys : List Key) : List Key :=
  keys.dedup.insertionSort (· ≤ ·)

def sortedBy (key : Item → Key) (items : List Item) : List Item :=
  items.insertionSort fun first second => key first ≤ key second

@[simp]
theorem mem_sortedSet {keys : List Key} {key : Key} : key ∈ sortedSet keys ↔ key ∈ keys := by
  rw [sortedSet, List.mem_insertionSort, List.mem_dedup]

theorem nodup_sortedSet (keys : List Key) : (sortedSet keys).Nodup :=
  (List.perm_insertionSort _ _).nodup_iff.mpr keys.nodup_dedup

theorem eq_sortedSet_iff {keys : List Key} :
    keys = sortedSet keys ↔ keys.Pairwise (· ≤ ·) ∧ keys.Nodup := by
  constructor
  · intro same
    rw [same]
    exact ⟨List.pairwise_insertionSort _ _, nodup_sortedSet keys⟩
  · rintro ⟨ordered, distinct⟩
    rw [sortedSet, distinct.dedup]
    exact (List.Pairwise.insertionSort_eq ordered).symm

theorem perm_sortedBy (key : Item → Key) (items : List Item) : (sortedBy key items).Perm items :=
  List.perm_insertionSort _ _

theorem pairwise_map_sortedBy (key : Item → Key) (items : List Item) :
    ((sortedBy key items).map key).Pairwise (· ≤ ·) := by
  have : Std.Total fun first second : Item => key first ≤ key second :=
    ⟨fun first second => le_total (key first) (key second)⟩
  have : IsTrans Item fun first second => key first ≤ key second :=
    ⟨fun _ _ _ before after => le_trans before after⟩
  exact List.pairwise_map.mpr (List.pairwise_insertionSort _ _)

/-- A list sorted by its keys passes the check exactly when the keys are distinct. -/
theorem map_sortedBy_eq_sortedSet_iff (key : Item → Key) (items : List Item) :
    (sortedBy key items).map key = sortedSet ((sortedBy key items).map key) ↔
      (items.map key).Nodup := by
  rw [eq_sortedSet_iff]
  exact (and_iff_right (pairwise_map_sortedBy key items)).trans
    ((perm_sortedBy key items).map key).nodup_iff

end SortedSets

end MmAudit
