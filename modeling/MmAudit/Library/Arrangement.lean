import Mathlib.Data.List.Sort
import Mathlib.Order.Extension.Linear

/-!
# Arrangements of a list

A relation without cycles is respected by some arrangement of every list.  Sorting by an
injective key forgets the arrangement, and keeps the order of what has the same key.
-/

namespace MmAudit

namespace Arrangement

open Relation

variable {Item : Type*}

/-- A list can be arranged so that no earlier item is related to a later one. -/
theorem exists_arrangement {related : Item → Item → Prop}
    (acyclic : ∀ item, ¬ TransGen related item item) (items : List Item) :
    ∃ arrangement : List Item, arrangement.Perm items ∧
      arrangement.Pairwise fun earlier later => ¬ related earlier later := by
  classical
  have order : IsPartialOrder Item (ReflTransGen related) := {
    refl := fun _ => .refl
    trans := fun _ _ _ => .trans
    antisymm := by
      intro first second forth back
      rcases (reflTransGen_iff_eq_or_transGen).mp forth with same | forth
      · exact same.symm
      · exact absurd (forth.trans_left back) (acyclic first) }
  obtain ⟨linear, isLinear, extending⟩ := extend_partialOrder (ReflTransGen related)
  refine ⟨items.insertionSort fun first second => linear second first,
    List.perm_insertionSort _ items, ?_⟩
  have total : Std.Total fun first second => linear second first :=
    ⟨fun first second => isLinear.total second first⟩
  have transitive : IsTrans Item fun first second => linear second first :=
    ⟨fun _ _ _ forth back => isLinear.trans _ _ _ back forth⟩
  refine (List.pairwise_insertionSort _ items).imp fun {earlier later} ordered isRelated => ?_
  have same : earlier = later :=
    isLinear.antisymm _ _ (extending _ _ (.single isRelated)) ordered
  subst same
  exact acyclic earlier (.single isRelated)

variable {Key : Type*} [LinearOrder Key] {key : Item → Key}

/-- Sorting arrangements of items with different keys gives one list. -/
theorem insertionSort_congr {items others : List Item} (perm : items.Perm others)
    (distinct : ∀ first ∈ items, ∀ second ∈ items, key first = key second → first = second) :
    items.insertionSort (fun first second => key first ≤ key second) =
      others.insertionSort fun first second => key first ≤ key second := by
  have total : Std.Total fun first second : Item => key first ≤ key second :=
    ⟨fun first second => le_total _ _⟩
  have transitive : IsTrans Item fun first second => key first ≤ key second :=
    ⟨fun _ _ _ => le_trans⟩
  have sorted := List.perm_insertionSort (fun first second : Item => key first ≤ key second)
  refine List.Perm.eq_of_pairwise ?_ (List.pairwise_insertionSort _ items)
    (List.pairwise_insertionSort _ others) ((sorted items).trans (perm.trans (sorted others).symm))
  intro first second firstMember secondMember forth back
  exact distinct first ((sorted items).mem_iff.mp firstMember) second
    (perm.mem_iff.mpr ((sorted others).mem_iff.mp secondMember)) (le_antisymm forth back)

/-- Two items cannot stand in both orders in a list without repetitions. -/
theorem eq_of_sublist_both {items : List Item} (nodup : items.Nodup) {first second : Item}
    (forth : [first, second].Sublist items) (back : [second, first].Sublist items) :
    first = second := by
  induction items with
  | nil => cases forth
  | cons item items ih =>
      obtain ⟨absent, restNodup⟩ := List.nodup_cons.mp nodup
      cases forth with
      | cons _ forthLater =>
          cases back with
          | cons _ backLater => exact ih restNodup forthLater backLater
          | cons_cons _ backLater =>
              exact absurd (forthLater.subset (by simp)) absent
      | cons_cons _ forthLater =>
          cases back with
          | cons _ backLater => exact absurd (backLater.subset (by simp)) absent
          | cons_cons _ backLater => rfl

end Arrangement

end MmAudit
