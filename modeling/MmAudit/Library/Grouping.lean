import MmAudit.Library.Dict

/-!
# Grouping a list by a key

A list of keyed items is collected into one list per key, in the order of the
items.  Collecting keeps every item, and it commutes with a change of the items
that leaves their keys alone.  Sorting a dictionary by its keys forgets
everything but its lookups.
-/

namespace MmAudit

namespace Dict

variable {Key Item Other : Type*} [DecidableEq Key]

/-! ## Dictionaries with equal items -/

omit [DecidableEq Key] in
theorem eq_of_items {first second : Dict Key Item} (same : first.items = second.items) :
    first = second := by
  cases first
  cases second
  cases same
  rfl

theorem mapValues_insert (dict : Dict Key Item) (key : Key) (item : Item) (map : Item → Other) :
    (dict.insert key item).mapValues map = (dict.mapValues map).insert key (map item) := by
  have sameKeys : (dict.mapValues map).keys = dict.keys := keys_mapValues _ _
  by_cases present : key ∈ dict.keys
  · rw [insert, dif_pos present, insert, dif_pos (sameKeys ▸ present)]
    refine eq_of_items ?_
    dsimp only [mapValues]
    rw [List.map_map, List.map_map]
    refine List.map_congr_left fun other _ => ?_
    by_cases same : other.1 = key <;> simp [same]
  · rw [insert, dif_neg present, insert, dif_neg (sameKeys ▸ present)]
    refine eq_of_items ?_
    simp [mapValues]

/-! ## Collecting -/

/-- One list of items per key. -/
def collect (keyed : List (Key × Item)) : Dict Key (List Item) :=
  keyed.foldl (fun dict entry => dict.push entry.1 entry.2) empty

theorem mapValues_push (dict : Dict Key (List Item)) (key : Key) (item : Item)
    (map : Item → Other) :
    (dict.push key item).mapValues (List.map map) =
      (dict.mapValues (List.map map)).push key (map item) := by
  have stored : ((dict.get? key).map (List.map map)).getD [] =
      ((dict.get? key).getD []).map map := by
    cases dict.get? key <;> rfl
  rw [push, mapValues_insert, push, get?_mapValues, stored, List.map_append]
  rfl

theorem mapValues_foldl_push (dict : Dict Key (List Item)) (keyed : List (Key × Item))
    (map : Item → Other) :
    (keyed.foldl (fun dict entry => dict.push entry.1 entry.2) dict).mapValues (List.map map) =
      (keyed.map fun entry => (entry.1, map entry.2)).foldl
        (fun dict entry => dict.push entry.1 entry.2) (dict.mapValues (List.map map)) := by
  induction keyed generalizing dict with
  | nil => rfl
  | cons entry keyed ih => rw [List.foldl_cons, ih, mapValues_push, List.map_cons, List.foldl_cons]

/-- Changing the items before or after they are collected is the same. -/
theorem collect_map (keyed : List (Key × Item)) (map : Item → Other) :
    collect (keyed.map fun entry => (entry.1, map entry.2)) =
      (collect keyed).mapValues (List.map map) :=
  (mapValues_foldl_push empty keyed map).symm

theorem perm_flatten_values_push (dict : Dict Key (List Item)) (key : Key) (item : Item) :
    (dict.push key item).values.flatten.Perm (dict.values.flatten ++ [item]) := by
  cases stored : dict.get? key with
  | none =>
      have absent : key ∉ dict.keys := (get?_eq_none_iff _ _).mp stored
      rw [push, stored, insert, dif_neg absent]
      simp [values]
  | some items =>
      have present : key ∈ dict.keys := (mem_iff_exists_get? dict key).mpr ⟨items, stored⟩
      obtain ⟨before, after, split, beforeNe, afterNe⟩ := exists_split stored
      have unchanged : ∀ others : List (Key × List Item), (∀ other ∈ others, other.1 ≠ key) →
          (others.map fun other => if other.1 = key then (key, items ++ [item]) else other) =
            others := by
        intro others different
        refine (List.map_congr_left fun other member => ?_).trans (List.map_id _)
        exact if_neg (different other member)
      rw [push, stored, Option.getD_some, insert, dif_pos present]
      simp only [values, split, List.map_append, List.map_cons, unchanged _ beforeNe,
        unchanged _ afterNe, if_true, List.flatten_append, List.flatten_cons, List.append_assoc]
      exact (List.perm_append_comm.append_left items).append_left _

/-- Collecting keeps every item. -/
theorem perm_flatten_values_collect (keyed : List (Key × Item)) :
    (collect keyed).values.flatten.Perm (keyed.map Prod.snd) := by
  have along : ∀ dict : Dict Key (List Item),
      (keyed.foldl (fun dict entry => dict.push entry.1 entry.2) dict).values.flatten.Perm
        (dict.values.flatten ++ keyed.map Prod.snd) := by
    induction keyed with
    | nil => intro dict; simp
    | cons entry keyed ih =>
        intro dict
        rw [List.foldl_cons, List.map_cons, ← List.singleton_append, ← List.append_assoc]
        exact (ih _).trans ((perm_flatten_values_push dict entry.1 entry.2).append_right _)
  exact along empty

theorem mem_of_get?_foldl_push {keyed : List (Key × Item)} (dict : Dict Key (List Item))
    {key : Key} {items : List Item} {item : Item}
    (stored : (keyed.foldl (fun dict entry => dict.push entry.1 entry.2) dict).get? key =
      some items) (member : item ∈ items) :
    (∃ earlier, dict.get? key = some earlier ∧ item ∈ earlier) ∨ (key, item) ∈ keyed := by
  induction keyed generalizing dict with
  | nil => exact .inl ⟨items, stored, member⟩
  | cons entry keyed ih =>
      rcases ih _ stored with ⟨earlier, earlierStored, earlierMember⟩ | later
      · rw [get?_push] at earlierStored
        split at earlierStored
        · rename_i sameKey
          cases earlierStored
          rcases List.mem_append.mp earlierMember with before | here
          · cases previous : dict.get? entry.1 with
            | none => simp [previous] at before
            | some previousItems =>
                refine .inl ⟨previousItems, sameKey ▸ previous, ?_⟩
                simpa [previous] using before
          · rw [List.mem_singleton] at here
            exact .inr (List.mem_cons.mpr (.inl (Prod.ext sameKey here)))
        · exact .inl ⟨earlier, earlierStored, earlierMember⟩
      · exact .inr (List.mem_cons_of_mem _ later)

/-- The items collected under a key carried it. -/
theorem mem_of_get?_collect {keyed : List (Key × Item)} {key : Key} {items : List Item}
    (stored : (collect keyed).get? key = some items) {item : Item} (member : item ∈ items) :
    (key, item) ∈ keyed := by
  rcases mem_of_get?_foldl_push empty stored member with ⟨_, impossible, -⟩ | listed
  · simp at impossible
  · exact listed

/-! ## Sorting by key -/

section Sorting

variable {Order Value Result : Type*} [LinearOrder Order]

theorem pairwise_items_sorted (dict : Dict Order Value) :
    dict.sorted.items.Pairwise (·.1 < ·.1) := by
  have ordered : dict.sorted.items.Pairwise (·.1 ≤ ·.1) :=
    List.pairwise_insertionSort (fun first second : Order × Value => first.1 ≤ second.1) _
  have distinct : dict.sorted.items.Pairwise (·.1 ≠ ·.1) := List.pairwise_map.mp dict.sorted.nodup
  exact (ordered.and distinct).imp fun both => lt_of_le_of_ne both.1 both.2

/-- Dictionaries with the same lookups are sorted alike. -/
theorem sorted_eq_of_get?_eq {first second : Dict Order Value}
    (same : ∀ key, first.get? key = second.get? key) : first.sorted = second.sorted := by
  have perm : first.sorted.items.Perm second.sorted.items :=
    (perm_items_iff _ _).mpr fun key => by rw [get?_sorted, get?_sorted, same]
  refine eq_of_items (perm.eq_of_pairwise ?_ (pairwise_items_sorted first)
    (pairwise_items_sorted second))
  exact fun _ _ _ _ before after => absurd before (lt_asymm after)

theorem sorted_mapValues (dict : Dict Order Value) (map : Value → Result) :
    (dict.mapValues map).sorted = dict.sorted.mapValues map := by
  refine eq_of_items ?_
  exact (List.map_insertionSort (fun first second : Order × Value => first.1 ≤ second.1)
    (fun first second : Order × Result => first.1 ≤ second.1)
    (fun item : Order × Value => (item.1, map item.2)) dict.items
    fun _ _ _ _ => Iff.rfl).symm

/-- A dictionary whose values carry their keys, looked up in another one with
the same keys. -/
theorem values_sorted_of_lookups {before after : Dict Order Value} {keyOf : Value → Order}
    (keyed : ∀ key value, before.get? key = some value → key = keyOf value)
    (sameKeys : ∀ key, (after.get? key).isSome ↔ (before.get? key).isSome) :
    after.sorted.values =
      before.sorted.values.map fun value => (after.get? (keyOf value)).getD value := by
  have same : ∀ key, after.get? key = (before.mapValues fun value =>
      (after.get? (keyOf value)).getD value).get? key := by
    intro key
    rw [get?_mapValues]
    have agree := sameKeys key
    cases stored : before.get? key with
    | none =>
        rw [stored] at agree
        simpa using agree
    | some value =>
        rw [stored] at agree
        obtain ⟨other, otherStored⟩ := Option.isSome_iff_exists.mp (agree.mpr rfl)
        rw [Option.map_some, ← keyed key value stored, otherStored, Option.getD_some]
  rw [sorted_eq_of_get?_eq same, sorted_mapValues]
  simp [values, mapValues]

end Sorting

end Dict

end MmAudit
