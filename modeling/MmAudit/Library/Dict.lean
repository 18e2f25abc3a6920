import Mathlib

/-!
# Insertion-ordered dictionaries

A dictionary is a list of key-value pairs with distinct keys, in the order in
which the keys were first inserted.  Assigning to an existing key keeps its
place.  Besides the lookup rules this file develops the running totals of a
dictionary, because counters kept beside it are proved equal to such totals.
-/

namespace MmAudit

/-- Key-value pairs with distinct keys. -/
structure Dict (Key Value : Type*) where
  items : List (Key × Value)
  nodup : (items.map Prod.fst).Nodup
deriving DecidableEq

namespace Dict

variable {Key Value : Type*} [DecidableEq Key]

/-- The dictionary without any key. -/
def empty : Dict Key Value :=
  ⟨[], List.nodup_nil⟩

/-- The value stored under a key. -/
def get? (dict : Dict Key Value) (key : Key) : Option Value :=
  (dict.items.find? (·.1 = key)).map Prod.snd

/-- The keys in insertion order. -/
def keys (dict : Dict Key Value) : List Key :=
  dict.items.map Prod.fst

/-- The values in insertion order. -/
def values (dict : Dict Key Value) : List Value :=
  dict.items.map Prod.snd

instance : Membership Key (Dict Key Value) :=
  ⟨fun dict key => key ∈ dict.keys⟩

instance (key : Key) (dict : Dict Key Value) : Decidable (key ∈ dict) :=
  inferInstanceAs (Decidable (key ∈ dict.keys))

theorem map_fst_replace (items : List (Key × Value)) (key : Key) (value : Value) :
    (items.map fun item => if item.1 = key then (key, value) else item).map Prod.fst =
      items.map Prod.fst := by
  rw [List.map_map]
  refine List.map_congr_left fun item _ => ?_
  by_cases same : item.1 = key <;> simp [same]

/-- Assign a value to a key, keeping the place of a key that already exists. -/
def insert (dict : Dict Key Value) (key : Key) (value : Value) : Dict Key Value :=
  if present : key ∈ dict.keys then
    ⟨dict.items.map fun item => if item.1 = key then (key, value) else item, by
      rw [map_fst_replace]
      exact dict.nodup⟩
  else
    ⟨dict.items ++ [(key, value)], by
      rw [List.map_append, List.map_singleton, List.nodup_append]
      refine ⟨dict.nodup, List.nodup_singleton _, ?_⟩
      rintro other otherMem same sameMem rfl
      rw [List.mem_singleton.mp sameMem] at otherMem
      exact present otherMem⟩

/-- Remove a key. -/
def erase (dict : Dict Key Value) (key : Key) : Dict Key Value :=
  ⟨dict.items.filter (·.1 ≠ key),
    (List.filter_sublist.map Prod.fst).nodup dict.nodup⟩

/-! ## Lookup -/

theorem get?_eq_some_iff (dict : Dict Key Value) (key : Key) (value : Value) :
    dict.get? key = some value ↔ (key, value) ∈ dict.items := by
  obtain ⟨items, nodup⟩ := dict
  simp only [get?]
  induction items with
  | nil => simp
  | cons item items ih =>
      obtain ⟨itemKey, itemValue⟩ := item
      rw [List.map_cons, List.nodup_cons] at nodup
      by_cases same : itemKey = key
      · subst same
        have absent : (itemKey, value) ∉ items := fun member =>
          nodup.1 (List.mem_map.mpr ⟨_, member, rfl⟩)
        simp [absent, eq_comm]
      · simp [same, ih nodup.2, Ne.symm same]

theorem get?_eq_none_iff (dict : Dict Key Value) (key : Key) :
    dict.get? key = none ↔ key ∉ dict := by
  change _ ↔ key ∉ dict.keys
  simp only [get?, keys, Option.map_eq_none_iff, List.find?_eq_none, decide_eq_true_eq,
    List.mem_map, not_exists, not_and]

theorem mem_iff_exists_get? (dict : Dict Key Value) (key : Key) :
    key ∈ dict ↔ ∃ value, dict.get? key = some value := by
  rw [← not_iff_not, ← get?_eq_none_iff, not_exists]
  exact ⟨fun none => by simp [none], Option.eq_none_iff_forall_ne_some.mpr⟩

@[simp]
theorem get?_empty (key : Key) : (empty : Dict Key Value).get? key = none :=
  rfl

theorem get?_insert (dict : Dict Key Value) (key : Key) (value : Value) (other : Key) :
    (dict.insert key value).get? other = if other = key then some value else dict.get? other := by
  refine Option.ext fun stored => ?_
  rw [get?_eq_some_iff]
  by_cases present : key ∈ dict.keys
  · rw [insert, dif_pos present]
    simp only [List.mem_map]
    split
    · rename_i same
      subst same
      constructor
      · rintro ⟨item, itemMem, itemEq⟩
        by_cases sameKey : item.1 = other
        · rw [if_pos sameKey] at itemEq
          exact congrArg some (Prod.mk.inj itemEq).2
        · rw [if_neg sameKey] at itemEq
          exact absurd (congrArg Prod.fst itemEq) sameKey
      · intro storedEq
        obtain ⟨item, itemMem, itemKey⟩ := List.mem_map.mp present
        exact ⟨item, itemMem, by rw [if_pos itemKey, Option.some.inj storedEq]⟩
    · rename_i different
      rw [get?_eq_some_iff]
      constructor
      · rintro ⟨item, itemMem, itemEq⟩
        by_cases sameKey : item.1 = key
        · rw [if_pos sameKey] at itemEq
          exact absurd (congrArg Prod.fst itemEq).symm different
        · rw [if_neg sameKey] at itemEq
          exact itemEq ▸ itemMem
      · exact fun member => ⟨_, member, by rw [if_neg different]⟩
  · rw [insert, dif_neg present]
    have absent : dict.get? key = none := (get?_eq_none_iff _ _).mpr present
    simp only [List.mem_append, List.mem_singleton, Prod.mk.injEq]
    split
    · rename_i same
      subst same
      rw [← get?_eq_some_iff, absent]
      simp [eq_comm]
    · rename_i different
      rw [← get?_eq_some_iff]
      simp [different]

@[simp]
theorem get?_insert_self (dict : Dict Key Value) (key : Key) (value : Value) :
    (dict.insert key value).get? key = some value := by
  simp [get?_insert]

theorem get?_insert_ne (dict : Dict Key Value) {key other : Key} (value : Value)
    (different : other ≠ key) : (dict.insert key value).get? other = dict.get? other := by
  simp [get?_insert, different]

/-- After a sequence of assignments, a key without an assignment has its old value. -/
theorem get?_foldl_insert_of_ne {assignments : List (Key × Value)} {key : Key}
    (unassigned : ∀ assignment ∈ assignments, assignment.1 ≠ key) (dict : Dict Key Value) :
    (assignments.foldl (fun dict assignment => dict.insert assignment.1 assignment.2) dict).get? key =
      dict.get? key := by
  induction assignments generalizing dict with
  | nil => rfl
  | cons assignment assignments ih =>
      rw [List.foldl_cons, ih (fun other member => unassigned other (List.mem_cons_of_mem _ member))]
      exact get?_insert_ne dict _ (unassigned assignment List.mem_cons_self).symm

/-- After a sequence of assignments, a key that was always given the same value has it. -/
theorem get?_foldl_insert_of_agree {assignments : List (Key × Value)} {key : Key} {value : Value}
    (assigned : (key, value) ∈ assignments)
    (agree : ∀ assignment ∈ assignments, assignment.1 = key → assignment.2 = value)
    (dict : Dict Key Value) :
    (assignments.foldl (fun dict assignment => dict.insert assignment.1 assignment.2) dict).get? key =
      some value := by
  induction assignments generalizing dict with
  | nil => cases assigned
  | cons assignment assignments ih =>
      have agreeLater : ∀ other ∈ assignments, other.1 = key → other.2 = value :=
        fun other member => agree other (List.mem_cons_of_mem _ member)
      rw [List.foldl_cons]
      by_cases later : (key, value) ∈ assignments
      · exact ih later agreeLater _
      · have isFirst : (key, value) = assignment := by
          rcases List.mem_cons.mp assigned with same | member
          · exact same
          · exact absurd member later
        subst isFirst
        rw [get?_foldl_insert_of_ne, get?_insert_self]
        intro other member same
        apply later
        rw [← same, ← agreeLater other member same]
        exact member

theorem get?_erase (dict : Dict Key Value) (key other : Key) :
    (dict.erase key).get? other = if other = key then none else dict.get? other := by
  refine Option.ext fun stored => ?_
  rw [get?_eq_some_iff, erase, List.mem_filter]
  split
  · rename_i same
    simp [same]
  · rename_i different
    rw [get?_eq_some_iff]
    simp [different]

@[simp]
theorem get?_erase_self (dict : Dict Key Value) (key : Key) :
    (dict.erase key).get? key = none := by
  simp [get?_erase]

/-- Append a value to the list stored under a key. -/
def push {Item : Type*} (dict : Dict Key (List Item)) (key : Key) (item : Item) :
    Dict Key (List Item) :=
  dict.insert key ((dict.get? key).getD [] ++ [item])

theorem get?_push {Item : Type*} (dict : Dict Key (List Item)) (key : Key) (item : Item)
    (other : Key) :
    (dict.push key item).get? other =
      if other = key then some ((dict.get? key).getD [] ++ [item]) else dict.get? other :=
  get?_insert dict key _ other

theorem mem_insert_iff (dict : Dict Key Value) (key : Key) (value : Value) (other : Key) :
    other ∈ dict.insert key value ↔ other = key ∨ other ∈ dict := by
  rw [mem_iff_exists_get?, mem_iff_exists_get?, get?_insert]
  by_cases same : other = key <;> simp [same]

/-- Dictionaries with the same lookups have the same pairs. -/
theorem perm_items_iff (first second : Dict Key Value) :
    first.items.Perm second.items ↔ ∀ key, first.get? key = second.get? key := by
  constructor
  · intro perm key
    refine Option.ext fun value => ?_
    rw [get?_eq_some_iff, get?_eq_some_iff, perm.mem_iff]
  · intro same
    refine (List.perm_ext_iff_of_nodup (List.Nodup.of_map _ first.nodup)
      (List.Nodup.of_map _ second.nodup)).mpr fun item => ?_
    rw [← get?_eq_some_iff first item.1 item.2, same, get?_eq_some_iff]

/-! ## Totals -/

/-- The sum of a weight over all pairs. -/
def total {Amount : Type*} [AddCommMonoid Amount] (dict : Dict Key Value)
    (weight : Key → Value → Amount) : Amount :=
  (dict.items.map fun item => weight item.1 item.2).sum

section Totals

variable {Amount : Type*} [AddCommGroup Amount]

omit [DecidableEq Key] in
@[simp]
theorem total_empty (weight : Key → Value → Amount) :
    (empty : Dict Key Value).total weight = 0 :=
  rfl

theorem total_insert_of_none {dict : Dict Key Value} {key : Key} (value : Value)
    (weight : Key → Value → Amount) (absent : dict.get? key = none) :
    (dict.insert key value).total weight = dict.total weight + weight key value := by
  have notMem : key ∉ dict.keys := (get?_eq_none_iff _ _).mp absent
  rw [insert, dif_neg notMem]
  simp [total]

/-- Splitting one stored pair off a dictionary. -/
theorem exists_split {dict : Dict Key Value} {key : Key} {value : Value}
    (stored : dict.get? key = some value) :
    ∃ before after : List (Key × Value), dict.items = before ++ (key, value) :: after ∧
      (∀ item ∈ before, item.1 ≠ key) ∧ ∀ item ∈ after, item.1 ≠ key := by
  obtain ⟨before, after, itemsEq⟩ :=
    List.append_of_mem ((get?_eq_some_iff _ _ _).mp stored)
  have nodup := dict.nodup
  rw [itemsEq, List.map_append, List.map_cons, List.nodup_append, List.nodup_cons] at nodup
  refine ⟨before, after, itemsEq, fun item member same => ?_, fun item member same => ?_⟩
  · exact nodup.2.2 _ (List.mem_map_of_mem member) _ List.mem_cons_self same
  · have keyMem : item.1 ∈ after.map Prod.fst := List.mem_map_of_mem member
    exact nodup.2.1.1 (same ▸ keyMem)

theorem total_insert_of_some {dict : Dict Key Value} {key : Key} {old : Value} (value : Value)
    (weight : Key → Value → Amount) (stored : dict.get? key = some old) :
    (dict.insert key value).total weight =
      dict.total weight - weight key old + weight key value := by
  obtain ⟨before, after, itemsEq, beforeNe, afterNe⟩ := exists_split stored
  have present : key ∈ dict.keys := by simp [keys, itemsEq]
  have unchanged : ∀ items : List (Key × Value), (∀ item ∈ items, item.1 ≠ key) →
      (items.map fun item => if item.1 = key then (key, value) else item) = items := by
    intro items different
    refine (List.map_congr_left fun item member => ?_).trans (List.map_id _)
    exact if_neg (different item member)
  rw [insert, dif_pos present]
  simp only [total, itemsEq, List.map_append, List.map_cons, unchanged _ beforeNe,
    unchanged _ afterNe, List.sum_append, List.sum_cons, if_true]
  abel

theorem total_erase_of_some {dict : Dict Key Value} {key : Key} {old : Value}
    (weight : Key → Value → Amount) (stored : dict.get? key = some old) :
    (dict.erase key).total weight = dict.total weight - weight key old := by
  obtain ⟨before, after, itemsEq, beforeNe, afterNe⟩ := exists_split stored
  have kept : ∀ items : List (Key × Value), (∀ item ∈ items, item.1 ≠ key) →
      items.filter (fun item => decide (item.1 ≠ key)) = items := by
    intro items different
    exact List.filter_eq_self.mpr fun item member => by simpa using different item member
  simp only [total, erase, itemsEq, List.filter_append, List.filter_cons, kept _ beforeNe,
    kept _ afterNe]
  simp only [ne_eq, not_true_eq_false, decide_false, Bool.false_eq_true, if_false,
    List.map_append, List.map_cons, List.sum_append, List.sum_cons]
  abel

theorem total_congr {dict : Dict Key Value} {first second : Key → Value → Amount}
    (agree : ∀ key value, dict.get? key = some value → first key value = second key value) :
    dict.total first = dict.total second := by
  refine congrArg List.sum (List.map_congr_left fun item member => ?_)
  exact agree _ _ ((get?_eq_some_iff _ _ _).mpr member)

end Totals

/-! ## Mapping the values -/

section Mapping

variable {Result : Type*}

omit [DecidableEq Key] in
theorem keys_mapValues (items : List (Key × Value)) (map : Value → Result) :
    (items.map fun item => (item.1, map item.2)).map Prod.fst = items.map Prod.fst := by
  rw [List.map_map]
  rfl

/-- Apply a function to every value. -/
def mapValues (dict : Dict Key Value) (map : Value → Result) : Dict Key Result :=
  ⟨dict.items.map fun item => (item.1, map item.2), by
    rw [keys_mapValues]
    exact dict.nodup⟩

@[simp]
theorem get?_mapValues (dict : Dict Key Value) (map : Value → Result) (key : Key) :
    (dict.mapValues map).get? key = (dict.get? key).map map := by
  simp only [get?, mapValues, List.find?_map, Option.map_map]
  rfl

/-- Apply a fallible function to every pair, in order, stopping at the first
failure. -/
def mapValuesM {Failure : Type*} (dict : Dict Key Value)
    (map : Key → Value → Except Failure Result) : Except Failure (Dict Key Result) :=
  dict.items.foldlM (fun mapped item => (map item.1 item.2).map (mapped.insert item.1)) empty

/-- The pairs of a successfully mapped dictionary, one for each original. -/
def MapsTo {Failure : Type*} (map : Key → Value → Except Failure Result) :
    List (Key × Value) → List (Key × Result) → Prop :=
  List.Forall₂ fun item mapped => item.1 = mapped.1 ∧ map item.1 item.2 = .ok mapped.2

theorem foldlM_insert_eq_ok {Failure : Type*} {map : Key → Value → Except Failure Result}
    (items : List (Key × Value)) (start finish : Dict Key Result)
    (nodup : (start.items.map Prod.fst ++ items.map Prod.fst).Nodup) :
    items.foldlM (fun mapped item => (map item.1 item.2).map (mapped.insert item.1)) start =
        .ok finish ↔
      ∃ added, finish.items = start.items ++ added ∧ MapsTo map items added := by
  induction items generalizing start with
  | nil =>
      simp only [List.foldlM_nil, MapsTo, List.forall₂_nil_left_iff, exists_eq_right,
        List.append_nil]
      constructor
      · intro equal
        cases equal
        rfl
      · intro equal
        obtain ⟨_, _⟩ := start
        obtain ⟨_, _⟩ := finish
        cases equal
        rfl
  | cons item items ih =>
      have absent : item.1 ∉ start.keys := by
        intro present
        rw [List.map_cons, List.nodup_append] at nodup
        exact nodup.2.2 _ present _ List.mem_cons_self rfl
      rw [List.foldlM_cons]
      cases mapped : map item.1 item.2 with
      | error failure =>
          simp only [MapsTo, List.forall₂_cons_left_iff, mapped]
          constructor
          · intro impossible
            cases impossible
          · rintro ⟨added, -, result, rest, ⟨-, impossible⟩, -⟩
            cases impossible
      | ok result =>
          have insertedItems : (start.insert item.1 result).items =
              start.items ++ [(item.1, result)] := by
            rw [insert, dif_neg absent]
          change List.foldlM _ (start.insert item.1 result) items = Except.ok finish ↔ _
          rw [ih _ (by simpa [insertedItems] using nodup)]
          simp only [MapsTo, insertedItems, List.forall₂_cons_left_iff, mapped,
            List.append_assoc, List.singleton_append]
          constructor
          · rintro ⟨added, finishEq, maps⟩
            exact ⟨_, finishEq, _, _, ⟨rfl, rfl⟩, maps, rfl⟩
          · rintro ⟨added, finishEq, ⟨key, value⟩, rest, ⟨keyEq, valueEq⟩, maps, rfl⟩
            cases valueEq
            exact ⟨rest, by rw [finishEq, keyEq], maps⟩

theorem mapValuesM_eq_ok_iff {Failure : Type*} {map : Key → Value → Except Failure Result}
    (dict : Dict Key Value) (mapped : Dict Key Result) :
    dict.mapValuesM map = .ok mapped ↔ MapsTo map dict.items mapped.items := by
  rw [mapValuesM, foldlM_insert_eq_ok _ _ _ (by simpa [empty] using dict.nodup)]
  simp [empty]

omit [DecidableEq Key] in
theorem MapsTo.keys_eq {Failure : Type*} {map : Key → Value → Except Failure Result}
    {items : List (Key × Value)} {mapped : List (Key × Result)}
    (maps : MapsTo map items mapped) : items.map Prod.fst = mapped.map Prod.fst := by
  induction maps with
  | nil => rfl
  | cons pair _ ih => simp [pair.1, ih]

omit [DecidableEq Key] in
theorem MapsTo.exists_mapped {Failure : Type*} {map : Key → Value → Except Failure Result}
    {items : List (Key × Value)} {mapped : List (Key × Result)}
    (maps : MapsTo map items mapped) {key : Key} {value : Value}
    (member : (key, value) ∈ items) :
    ∃ result, map key value = .ok result ∧ (key, result) ∈ mapped := by
  induction maps with
  | nil => simp at member
  | @cons item other items mapped pair _ ih =>
      obtain ⟨keyEq, mapEq⟩ := pair
      rcases List.mem_cons.mp member with rfl | rest
      · have otherEq : (key, other.2) = other := Prod.ext keyEq rfl
        exact ⟨other.2, mapEq, otherEq ▸ List.mem_cons_self⟩
      · obtain ⟨result, resultEq, resultMem⟩ := ih rest
        exact ⟨result, resultEq, List.mem_cons_of_mem _ resultMem⟩

omit [DecidableEq Key] in
theorem MapsTo.exists_original {Failure : Type*} {map : Key → Value → Except Failure Result}
    {items : List (Key × Value)} {mapped : List (Key × Result)}
    (maps : MapsTo map items mapped) {key : Key} {result : Result}
    (member : (key, result) ∈ mapped) :
    ∃ value, (key, value) ∈ items ∧ map key value = .ok result := by
  induction maps with
  | nil => simp at member
  | @cons item other items mapped pair _ ih =>
      obtain ⟨keyEq, mapEq⟩ := pair
      rcases List.mem_cons.mp member with rfl | rest
      · have itemEq : (key, item.2) = item := Prod.ext keyEq.symm rfl
        refine ⟨item.2, itemEq ▸ List.mem_cons_self, ?_⟩
        rw [keyEq] at mapEq
        exact mapEq
      · obtain ⟨value, valueMem, valueEq⟩ := ih rest
        exact ⟨value, List.mem_cons_of_mem _ valueMem, valueEq⟩

/-- A fallible map succeeds on a dictionary when it does on every pair. -/
theorem exists_mapValuesM {Failure : Type*} (map : Key → Value → Except Failure Result)
    (dict : Dict Key Value)
    (succeeds : ∀ key value, dict.get? key = some value → ∃ result, map key value = .ok result) :
    ∃ mapped, dict.mapValuesM map = .ok mapped := by
  have lists : ∀ items : List (Key × Value),
      (∀ item ∈ items, ∃ result, map item.1 item.2 = .ok result) →
      ∃ mapped, MapsTo map items mapped := by
    intro items
    induction items with
    | nil => exact fun _ => ⟨[], .nil⟩
    | cons item items ih =>
        intro itemSucceeds
        obtain ⟨result, resultEq⟩ := itemSucceeds item (by simp)
        obtain ⟨mapped, maps⟩ := ih fun other member => itemSucceeds other (by simp [member])
        exact ⟨(item.1, result) :: mapped, .cons ⟨rfl, resultEq⟩ maps⟩
  obtain ⟨mapped, maps⟩ := lists dict.items fun item member =>
    succeeds _ _ ((get?_eq_some_iff _ _ _).mpr member)
  have nodup := dict.nodup
  rw [maps.keys_eq] at nodup
  exact ⟨⟨mapped, nodup⟩, (mapValuesM_eq_ok_iff _ _).mpr maps⟩

/-- A fallible map fails on a dictionary only with a failure on some pair. -/
theorem exists_error_of_mapValuesM {Failure : Type*}
    {map : Key → Value → Except Failure Result} {dict : Dict Key Value} {failure : Failure}
    (raised : dict.mapValuesM map = .error failure) :
    ∃ key value, map key value = .error failure := by
  have lists : ∀ (items : List (Key × Value)) (start : Dict Key Result),
      items.foldlM (fun mapped item => (map item.1 item.2).map (mapped.insert item.1)) start =
        .error failure → ∃ key value, map key value = .error failure := by
    intro items
    induction items with
    | nil =>
        intro start impossible
        cases impossible
    | cons item items ih =>
        intro start failed
        rw [List.foldlM_cons] at failed
        cases mapped : map item.1 item.2 with
        | error other =>
            rw [mapped] at failed
            cases failed
            exact ⟨item.1, item.2, mapped⟩
        | ok result =>
            rw [mapped] at failed
            exact ih _ failed
  exact lists _ _ raised

omit [DecidableEq Key] in
theorem total_mapValues {Amount : Type*} [AddCommMonoid Amount] (dict : Dict Key Value)
    (map : Value → Result) (weight : Key → Result → Amount) :
    (dict.mapValues map).total weight = dict.total fun key value => weight key (map value) := by
  simp only [total, mapValues, List.map_map]
  rfl

omit [DecidableEq Key] in
/-- Weights that agree on every mapped pair have the same total. -/
theorem MapsTo.sum_eq {Failure Amount : Type*} [AddCommMonoid Amount]
    {map : Key → Value → Except Failure Result}
    {items : List (Key × Value)} {mapped : List (Key × Result)}
    (maps : MapsTo map items mapped)
    (weight : Key × Value → Amount) (mappedWeight : Key × Result → Amount)
    (agree : ∀ key value result, (key, value) ∈ items → map key value = .ok result →
      weight (key, value) = mappedWeight (key, result)) :
    (items.map weight).sum = (mapped.map mappedWeight).sum := by
  induction maps with
  | nil => rfl
  | @cons item other items mapped pair _ ih =>
      obtain ⟨keyEq, mapEq⟩ := pair
      have head := agree item.1 item.2 other.2 (by simp) mapEq
      rw [List.map_cons, List.sum_cons, List.map_cons, List.sum_cons,
        ih fun key value result member => agree key value result (by simp [member])]
      have otherEq : (item.1, other.2) = other := Prod.ext keyEq rfl
      rw [← otherEq, ← head]

end Mapping

/-! ## Sorting by key -/

section Sorting

variable {Order : Type*} [LinearOrder Order]

/-- The same pairs in ascending order of their keys. -/
def sorted (dict : Dict Order Value) : Dict Order Value :=
  ⟨dict.items.insertionSort (·.1 ≤ ·.1),
    (((List.perm_insertionSort _ _).map Prod.fst).nodup_iff).mpr dict.nodup⟩

theorem perm_sorted (dict : Dict Order Value) : dict.sorted.items.Perm dict.items :=
  List.perm_insertionSort _ _

@[simp]
theorem get?_sorted (dict : Dict Order Value) (key : Order) :
    dict.sorted.get? key = dict.get? key := by
  refine Option.ext fun value => ?_
  rw [get?_eq_some_iff, get?_eq_some_iff, dict.perm_sorted.mem_iff]

@[simp]
theorem total_sorted {Amount : Type*} [AddCommMonoid Amount] (dict : Dict Order Value)
    (weight : Order → Value → Amount) : dict.sorted.total weight = dict.total weight :=
  (dict.perm_sorted.map _).sum_eq

end Sorting

end Dict

end MmAudit
