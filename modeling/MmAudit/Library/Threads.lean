import Mathlib.Algebra.BigOperators.Group.List.Basic
import Mathlib.Algebra.Order.BigOperators.Group.List
import Mathlib.Algebra.Order.Ring.Nat

/-!
# Totals over threads that run side by side

The threads of a system are a list of their states.  A step changes the state of one of
them, starts one or removes one, so a total over all of them changes by what the step
does to that one.
-/

namespace MmAudit

namespace Threads

variable {Thread : Type*}

/-- The total of a measure over all threads. -/
def total (measure : Thread → ℕ) (threads : List Thread) : ℕ :=
  (threads.map measure).sum

variable (measure : Thread → ℕ) {threads : List Thread} {index : ℕ} {old : Thread}

@[simp]
theorem total_nil : total measure [] = 0 :=
  rfl

@[simp]
theorem total_append (first second : List Thread) :
    total measure (first ++ second) = total measure first + total measure second := by
  simp [total]

@[simp]
theorem total_singleton (thread : Thread) : total measure [thread] = measure thread := by
  simp [total]

/-- A thread taken out of the list. -/
theorem exists_split (found : threads[index]? = some old) :
    ∃ before after, threads = before ++ old :: after ∧ before.length = index := by
  obtain ⟨inside, rfl⟩ := List.getElem?_eq_some_iff.mp found
  refine ⟨threads.take index, threads.drop (index + 1), ?_, ?_⟩
  · rw [List.getElem_cons_drop inside, List.take_append_drop]
  · rw [List.length_take]
    omega

theorem total_set (found : threads[index]? = some old) (new : Thread) :
    total measure (threads.set index new) + measure old = total measure threads + measure new := by
  obtain ⟨before, after, rfl, rfl⟩ := exists_split found
  simp only [total, List.set_append_right _ _ (le_refl _), Nat.sub_self, List.set_cons_zero,
    List.map_append, List.map_cons, List.sum_append, List.sum_cons]
  omega

theorem total_eraseIdx (found : threads[index]? = some old) :
    total measure (threads.eraseIdx index) + measure old = total measure threads := by
  obtain ⟨before, after, rfl, rfl⟩ := exists_split found
  simp only [total, List.eraseIdx_append_of_length_le (le_refl _), Nat.sub_self,
    List.eraseIdx_cons_zero, List.map_append, List.map_cons, List.sum_append, List.sum_cons]
  omega

theorem total_le_total {first second : Thread → ℕ}
    (below : ∀ thread ∈ threads, first thread ≤ second thread) :
    total first threads ≤ total second threads :=
  List.sum_le_sum below

theorem total_eq_zero_iff : total measure threads = 0 ↔ ∀ thread ∈ threads, measure thread = 0 := by
  rw [total, List.sum_eq_zero_iff_forall_eq_nat, List.forall_mem_map]

/-- Totals of a lesser measure are the same only when the measures are. -/
theorem total_eq_total_iff {first second : Thread → ℕ}
    (below : ∀ thread ∈ threads, first thread ≤ second thread) :
    total first threads = total second threads ↔
      ∀ thread ∈ threads, first thread = second thread := by
  induction threads with
  | nil => simp
  | cons thread threads ih =>
      rw [List.forall_mem_cons] at below
      have rest := total_le_total below.2
      rw [List.forall_mem_cons, ← ih below.2]
      simp only [total, List.map_cons, List.sum_cons] at rest ⊢
      omega

variable {holds : Thread → Prop}

theorem forall_set (each : ∀ thread ∈ threads, holds thread) {new : Thread} (isNew : holds new) :
    ∀ thread ∈ threads.set index new, holds thread := by
  intro thread member
  rcases List.mem_or_eq_of_mem_set member with old | rfl
  · exact each thread old
  · exact isNew

theorem forall_eraseIdx (each : ∀ thread ∈ threads, holds thread) :
    ∀ thread ∈ threads.eraseIdx index, holds thread :=
  fun thread member => each thread (List.mem_of_mem_eraseIdx member)

end Threads

end MmAudit
