import Mathlib.Data.Finset.Basic
import Mathlib.Data.Finset.Filter

/-!
# Walks through layers

A walk takes one node of each layer, and each of its steps goes to another node.  The search
keeps the nodes where walks through the layers so far end, but takes all of them out of the next
layer.  What it keeps are ends of walks; it keeps all of them exactly when no step leads from
one end to another end that is in the next layer too.
-/

namespace MmAudit

namespace LayeredSearch

variable {Node : Type*} [DecidableEq Node] (step : Node → Node → Prop) [DecidableRel step]

/-- A walk from a node through the layers that ends at a node. -/
def Walks : Node → List (Finset Node) → Node → Prop
  | start, [], finish => start = finish
  | start, layer :: layers, finish =>
      ∃ next ∈ layer, start ≠ next ∧ step start next ∧ Walks next layers finish

/-- The nodes of a layer that steps from other nodes of a frontier lead to. -/
def ends (frontier layer : Finset Node) : Finset Node :=
  layer.filter fun next => ∃ source ∈ frontier, source ≠ next ∧ step source next

/-- The search takes the frontier out of the layer first. -/
def advance (frontier layer : Finset Node) : Finset Node :=
  (layer \ frontier).filter fun next => ∃ source ∈ frontier, step source next

/-- No step leads from one node of a frontier to another one in the next layer. -/
def Separated : Finset Node → List (Finset Node) → Prop
  | _, [] => True
  | frontier, layer :: layers =>
      (∀ source ∈ frontier, ∀ next ∈ frontier, next ∈ layer → source ≠ next → ¬step source next) ∧
        Separated (ends step frontier layer) layers

variable {step}

theorem mem_ends {frontier layer : Finset Node} {next : Node} :
    next ∈ ends step frontier layer ↔
      next ∈ layer ∧ ∃ source ∈ frontier, source ≠ next ∧ step source next :=
  Finset.mem_filter

theorem mem_advance {frontier layer : Finset Node} {next : Node} :
    next ∈ advance step frontier layer ↔
      (next ∈ layer ∧ next ∉ frontier) ∧ ∃ source ∈ frontier, step source next := by
  rw [advance, Finset.mem_filter, Finset.mem_sdiff]

theorem advance_subset_ends (frontier layer : Finset Node) :
    advance step frontier layer ⊆ ends step frontier layer := by
  intro next member
  obtain ⟨⟨listed, fresh⟩, source, isSource, leads⟩ := mem_advance.mp member
  refine mem_ends.mpr ⟨listed, source, isSource, ?_, leads⟩
  rintro rfl
  exact fresh isSource

/-- The search loses no end of this layer exactly when the frontier is separated from it. -/
theorem advance_eq_ends_iff (frontier layer : Finset Node) :
    advance step frontier layer = ends step frontier layer ↔
      ∀ source ∈ frontier, ∀ next ∈ frontier, next ∈ layer → source ≠ next →
        ¬step source next := by
  constructor
  · intro same source isSource next isNext listed apart leads
    have member : next ∈ ends step frontier layer :=
      mem_ends.mpr ⟨listed, source, isSource, apart, leads⟩
    rw [← same, mem_advance] at member
    exact member.1.2 isNext
  · intro separated
    refine (advance_subset_ends frontier layer).antisymm fun next member => ?_
    obtain ⟨listed, source, isSource, apart, leads⟩ := mem_ends.mp member
    refine mem_advance.mpr ⟨⟨listed, fun isNext => ?_⟩, source, isSource, leads⟩
    exact separated source isSource next isNext listed apart leads

/-- Walks from a frontier go on at the ends in the first layer. -/
theorem exists_walks_cons {frontier layer : Finset Node} {layers : List (Finset Node)}
    {finish : Node} :
    (∃ start ∈ frontier, Walks step start (layer :: layers) finish) ↔
      ∃ next ∈ ends step frontier layer, Walks step next layers finish := by
  constructor
  · rintro ⟨start, isStart, next, listed, apart, leads, walks⟩
    exact ⟨next, mem_ends.mpr ⟨listed, start, isStart, apart, leads⟩, walks⟩
  · rintro ⟨next, member, walks⟩
    obtain ⟨listed, start, isStart, apart, leads⟩ := mem_ends.mp member
    exact ⟨start, isStart, next, listed, apart, leads, walks⟩

/-- The ends of all walks. -/
theorem mem_foldl_ends_iff {frontier : Finset Node} {layers : List (Finset Node)} {finish : Node} :
    finish ∈ layers.foldl (ends step) frontier ↔
      ∃ start ∈ frontier, Walks step start layers finish := by
  induction layers generalizing frontier with
  | nil => simp [Walks]
  | cons layer layers ih => rw [List.foldl_cons, ih, exists_walks_cons]

/-- A separated search keeps the ends of all walks. -/
theorem mem_foldl_advance_iff {frontier : Finset Node} {layers : List (Finset Node)}
    (separated : Separated step frontier layers) {finish : Node} :
    finish ∈ layers.foldl (advance step) frontier ↔
      ∃ start ∈ frontier, Walks step start layers finish := by
  induction layers generalizing frontier with
  | nil => simp [Walks]
  | cons layer layers ih =>
      have same := (advance_eq_ends_iff frontier layer).mpr separated.1
      rw [List.foldl_cons, same, ih separated.2, exists_walks_cons]

/-- The search keeps all ends at every layer exactly when it is separated. -/
theorem foldl_advance_eq_iff (frontier : Finset Node) (layers : List (Finset Node)) :
    (∀ number, (layers.take number).foldl (advance step) frontier =
        (layers.take number).foldl (ends step) frontier) ↔
      Separated step frontier layers := by
  induction layers generalizing frontier with
  | nil => simp [Separated]
  | cons layer layers ih =>
      constructor
      · intro same
        have first : advance step frontier layer = ends step frontier layer := by
          simpa using same 1
        refine ⟨(advance_eq_ends_iff frontier layer).mp first, (ih _).mp fun number => ?_⟩
        have later := same (number + 1)
        rw [List.take_succ_cons, List.foldl_cons, List.foldl_cons, first] at later
        exact later
      · rintro ⟨apart, separated⟩ number
        have first := (advance_eq_ends_iff frontier layer).mpr apart
        cases number with
        | zero => rfl
        | succ number =>
            rw [List.take_succ_cons, List.foldl_cons, List.foldl_cons, first]
            exact (ih _).mpr separated number

end LayeredSearch

end MmAudit
