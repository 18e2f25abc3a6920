import Mathlib

/-!
# Peeling successful computations apart

A computation in `Except` that returned a value must have passed every guard on
its way.  The rules below turn such an equation into the guards and the results
of the intermediate computations.
-/

namespace MmAudit

namespace Fallible

variable {Failure : Type*} {Value Result : Type}

theorem bind_eq_ok_iff {computation : Except Failure Value}
    {continuation : Value → Except Failure Result} {result : Result} :
    (computation >>= continuation) = .ok result ↔
      ∃ value, computation = .ok value ∧ continuation value = .ok result := by
  cases computation with
  | error failure =>
      constructor
      · intro impossible
        cases impossible
      · rintro ⟨value, impossible, -⟩
        cases impossible
  | ok value =>
      constructor
      · exact fun success => ⟨value, rfl, success⟩
      · rintro ⟨other, sameValue, success⟩
        cases sameValue
        exact success

/-- A check, followed by the rest. -/
theorem check_bind_eq_ok_iff {check : Except Failure Unit}
    {continuation : Unit → Except Failure Result} {result : Result} :
    (check >>= continuation) = .ok result ↔ check = .ok () ∧ continuation () = .ok result := by
  rw [bind_eq_ok_iff]
  constructor
  · rintro ⟨_, success, finished⟩
    exact ⟨success, finished⟩
  · rintro ⟨success, finished⟩
    exact ⟨(), success, finished⟩

theorem exists_bind_eq_ok_iff {computation : Except Failure Value}
    {continuation : Value → Except Failure Result} :
    (∃ result, (computation >>= continuation) = .ok result) ↔
      ∃ value, computation = .ok value ∧ ∃ result, continuation value = .ok result := by
  simp only [bind_eq_ok_iff]
  constructor
  · rintro ⟨result, value, success, finished⟩
    exact ⟨value, success, result, finished⟩
  · rintro ⟨value, success, result, finished⟩
    exact ⟨result, value, success, finished⟩

theorem bind_of_ok {computation : Except Failure Value} {value : Value}
    (success : computation = .ok value) (continuation : Value → Except Failure Result) :
    (computation >>= continuation) = continuation value := by
  rw [success]
  rfl

theorem bind_of_error {computation : Except Failure Value} {failure : Failure}
    (raised : computation = .error failure) (continuation : Value → Except Failure Result) :
    (computation >>= continuation) = .error failure := by
  rw [raised]
  rfl

theorem map_eq_ok_iff {computation : Except Failure Value} {map : Value → Result}
    {result : Result} :
    (map <$> computation) = .ok result ↔ ∃ value, computation = .ok value ∧ map value = result := by
  cases computation with
  | error failure =>
      constructor
      · intro impossible
        cases impossible
      · rintro ⟨value, impossible, -⟩
        cases impossible
  | ok value =>
      constructor
      · intro success
        exact ⟨value, rfl, Except.ok.inj success⟩
      · rintro ⟨other, sameValue, rfl⟩
        cases sameValue
        rfl

/-- Raise a failure when a condition holds. -/
def raiseIf (condition : Prop) [Decidable condition] (failure : Failure) :
    Except Failure Unit :=
  if condition then .error failure else .ok ()

theorem raiseIf_eq_ok_iff {condition : Prop} [Decidable condition] {failure : Failure}
    {done : Unit} : raiseIf condition failure = .ok done ↔ ¬ condition := by
  by_cases holds : condition <;> simp [raiseIf, holds]

@[simp]
theorem raiseIf_bind_eq_ok_iff {condition : Prop} [Decidable condition] {failure : Failure}
    {continuation : Unit → Except Failure Result} {result : Result} :
    (raiseIf condition failure >>= continuation) = .ok result ↔
      ¬ condition ∧ continuation () = .ok result := by
  by_cases holds : condition
  · simp [raiseIf, holds, bind, Except.bind]
  · simp [raiseIf, holds, bind, Except.bind]

/-- A check that passes is skipped. -/
theorem raiseIf_bind_of_not {condition : Prop} [Decidable condition] (passes : ¬ condition)
    (failure : Failure) (continuation : Unit → Except Failure Result) :
    (raiseIf condition failure >>= continuation) = continuation () := by
  rw [raiseIf, if_neg passes]
  rfl

theorem raiseIf_eq_error_iff {condition : Prop} [Decidable condition] {failure raised : Failure} :
    raiseIf condition failure = .error raised ↔ condition ∧ failure = raised := by
  by_cases holds : condition <;> simp [raiseIf, holds]

/-- A failing computation fails first, or in what follows a success. -/
theorem bind_eq_error_iff {computation : Except Failure Value}
    {continuation : Value → Except Failure Result} {failure : Failure} :
    (computation >>= continuation) = .error failure ↔
      computation = .error failure ∨
        ∃ value, computation = .ok value ∧ continuation value = .error failure := by
  cases computation with
  | error other =>
      constructor
      · intro same
        exact .inl (congrArg Except.error (Except.error.inj same))
      · rintro (same | ⟨value, impossible, -⟩)
        · cases same
          rfl
        · cases impossible
  | ok value =>
      constructor
      · exact fun raised => .inr ⟨value, rfl, raised⟩
      · rintro (impossible | ⟨other, sameValue, raised⟩)
        · cases impossible
        · cases sameValue
          exact raised

theorem map_eq_error_iff {computation : Except Failure Value} {map : Value → Result}
    {failure : Failure} : (map <$> computation) = .error failure ↔ computation = .error failure := by
  cases computation with
  | error other =>
      constructor
      · exact fun same => congrArg Except.error (Except.error.inj same)
      · intro same
        cases same
        rfl
  | ok value =>
      constructor
      · intro impossible
        cases impossible
      · intro impossible
        cases impossible

/-- A guard that raises lets only the other branch return. -/
theorem guard_eq_ok_iff {condition : Prop} [Decidable condition] {failure : Failure}
    {computation : Except Failure Result} {result : Result} :
    (if condition then .error failure else computation) = .ok result ↔
      ¬ condition ∧ computation = .ok result := by
  by_cases holds : condition <;> simp [holds]

/-- A guard that is required lets only its own branch return. -/
theorem require_eq_ok_iff {condition : Prop} [Decidable condition] {failure : Failure}
    {computation : Except Failure Result} {result : Result} :
    (if condition then computation else .error failure) = .ok result ↔
      condition ∧ computation = .ok result := by
  by_cases holds : condition <;> simp [holds]

/-- A loop that returned has kept an invariant of the items it has done. -/
theorem foldlM_invariant {State Item : Type} {step : State → Item → Except Failure State}
    (holds : List Item → State → Prop) (items : List Item) {start final : State}
    (returned : items.foldlM step start = .ok final) (begins : holds [] start)
    (keeps : ∀ done item state next, holds done state → step state item = .ok next →
      holds (done ++ [item]) next) : holds items final := by
  suffices general : ∀ done state, holds done state → items.foldlM step state = .ok final →
      holds (done ++ items) final from general [] start begins returned
  clear returned begins
  induction items with
  | nil =>
      intro done state holdsDone finished
      obtain rfl := Except.ok.inj finished
      rwa [List.append_nil]
  | cons item items ih =>
      intro done state holdsDone finished
      rw [List.foldlM_cons, bind_eq_ok_iff] at finished
      obtain ⟨next, stepped, rest⟩ := finished
      have kept := ih (done ++ [item]) next (keeps done item state next holdsDone stepped) rest
      rwa [List.append_assoc, List.singleton_append] at kept

/-- A loop returns when every item can be done while the invariant holds. -/
theorem exists_foldlM_of_invariant {State Item : Type}
    (step : State → Item → Except Failure State) (start : State)
    (holds : List Item → State → Prop) (items : List Item)
    (begins : holds [] start)
    (keeps : ∀ done item rest state, done ++ item :: rest = items → holds done state →
      ∃ next, step state item = .ok next ∧ holds (done ++ [item]) next) :
    ∃ final, items.foldlM step start = .ok final ∧ holds items final := by
  suffices general : ∀ remaining done state, done ++ remaining = items → holds done state →
      ∃ final, remaining.foldlM step state = .ok final ∧ holds items final from
    general items [] start rfl begins
  intro remaining
  induction remaining with
  | nil =>
      intro done state split holdsDone
      rw [List.append_nil] at split
      exact ⟨state, rfl, split ▸ holdsDone⟩
  | cons item remaining ih =>
      intro done state split holdsDone
      obtain ⟨next, stepped, kept⟩ := keeps done item remaining state split holdsDone
      obtain ⟨final, finished, holdsFinal⟩ := ih (done ++ [item]) next (by simp [split]) kept
      exact ⟨final, by rw [List.foldlM_cons, bind_of_ok stepped, finished], holdsFinal⟩

/-- A loop of checks returns exactly when every check does. -/
theorem forM_eq_ok_iff {Item : Type} {check : Item → Except Failure Unit} (items : List Item)
    {done : Unit} : items.forM check = .ok done ↔ ∀ item ∈ items, check item = .ok () := by
  induction items with
  | nil => simp [pure, Except.pure]
  | cons item items ih =>
      change (check item >>= fun _ => items.forM check) = .ok done ↔ _
      rw [bind_eq_ok_iff]
      constructor
      · rintro ⟨_, first, rest⟩ other member
        rcases List.mem_cons.mp member with rfl | member
        · exact first
        · exact ih.mp rest other member
      · intro checks
        exact ⟨(), checks item List.mem_cons_self,
          ih.mpr fun other member => checks other (List.mem_cons_of_mem _ member)⟩

/-- A loop of computations returns exactly the values that each of them returns. -/
theorem mapM_eq_ok_iff {Item : Type} {compute : Item → Except Failure Value} (items : List Item)
    {values : List Value} : items.mapM compute = .ok values ↔ items.map compute = values.map .ok := by
  induction items generalizing values with
  | nil =>
      cases values <;> simp [pure, Except.pure]
  | cons item items ih =>
      rw [List.mapM_cons, bind_eq_ok_iff]
      constructor
      · rintro ⟨value, computed, finished⟩
        rw [bind_eq_ok_iff] at finished
        obtain ⟨rest, restComputed, same⟩ := finished
        obtain rfl := Except.ok.inj same
        rw [List.map_cons, List.map_cons, computed, ih.mp restComputed]
      · intro same
        cases values with
        | nil => cases same
        | cons value rest =>
            obtain ⟨computed, restComputed⟩ := List.cons.inj same
            exact ⟨value, computed, bind_eq_ok_iff.mpr ⟨rest, ih.mpr restComputed, rfl⟩⟩

theorem exists_value_of_mapM {Item : Type} {compute : Item → Except Failure Value}
    {items : List Item} {values : List Value} (computed : items.mapM compute = .ok values)
    {item : Item} (member : item ∈ items) : ∃ value ∈ values, compute item = .ok value := by
  have listed := List.mem_map_of_mem member (f := compute)
  rw [(mapM_eq_ok_iff items).mp computed] at listed
  obtain ⟨value, valueMember, same⟩ := List.mem_map.mp listed
  exact ⟨value, valueMember, same.symm⟩

theorem exists_item_of_mapM {Item : Type} {compute : Item → Except Failure Value}
    {items : List Item} {values : List Value} (computed : items.mapM compute = .ok values)
    {value : Value} (member : value ∈ values) : ∃ item ∈ items, compute item = .ok value := by
  have listed : Except.ok value ∈ values.map (Except.ok : Value → Except Failure Value) :=
    List.mem_map_of_mem member
  rw [← (mapM_eq_ok_iff items).mp computed] at listed
  exact List.mem_map.mp listed

/-- Two lists of observations of the same items that agree on every item. -/
theorem map_eq_map_of_agrees {Item First Second : Type} {first : Item → First}
    {second : Item → Second} {firstValue : Value → First} {secondValue : Value → Second}
    (agrees : ∀ item value, first item = firstValue value → second item = secondValue value)
    {items : List Item} {values : List Value} (same : items.map first = values.map firstValue) :
    items.map second = values.map secondValue := by
  induction items generalizing values with
  | nil =>
      rw [List.map_nil, eq_comm, List.map_eq_nil_iff] at same
      rw [same, List.map_nil, List.map_nil]
  | cons item items ih =>
      cases values with
      | nil => cases same
      | cons value values =>
          obtain ⟨head, tail⟩ := List.cons.inj same
          rw [List.map_cons, List.map_cons, agrees item value head, ih tail]

/-- An optional check returns exactly when it does on the value. -/
theorem option_forM_eq_ok_iff {Item : Type} {check : Item → Except Failure Unit}
    (item : Option Item) {done : Unit} :
    item.forM check = .ok done ↔ ∀ value, item = some value → check value = .ok () := by
  cases item with
  | none => simp [Option.forM, pure, Except.pure]
  | some value => simp [Option.forM]

theorem eq_ok_of_toOption_isSome {computation : Except Failure Value}
    (returns : computation.toOption.isSome) : ∃ value, computation = .ok value := by
  cases computation with
  | error failure => cases returns
  | ok value => exact ⟨value, rfl⟩

theorem eq_ok_of_toOption_eq_some {Value : Type} {computation : Except String Value} {value : Value}
    (returned : computation.toOption = some value) : computation = .ok value := by
  cases computation with
  | error failure => cases returned
  | ok other => exact congrArg Except.ok (Option.some.inj returned)

theorem eq_error_of_toOption_eq_none {Value : Type} {computation : Except String Value}
    (raises : computation.toOption = none) : ∃ failure, computation = .error failure := by
  cases computation with
  | error failure => exact ⟨failure, rfl⟩
  | ok value => cases raises

end Fallible

end MmAudit
