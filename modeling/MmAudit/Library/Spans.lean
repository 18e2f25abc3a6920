import Mathlib.Data.List.Induction
import Mathlib.Data.Nat.Notation
import Mathlib.Order.Nat

/-!
# Spans of positions and the greedy choice of disjoint ones

A span is a half-open range of positions.  A greedy pass over a list of spans keeps
each span that overlaps none of the spans kept before it.  The kept spans are
pairwise disjoint, and which spans are kept is determined by one recursive equation
on their places in the list, however the pass is organised.
-/

namespace MmAudit

/-- The positions from `start` up to, and without, `stop`. -/
structure Span where
  start : ℕ
  stop : ℕ
deriving DecidableEq, Repr

namespace Span

/-- The position lies in the span. -/
def Contains (span : Span) (position : ℕ) : Prop :=
  span.start ≤ position ∧ position < span.stop

instance (span : Span) (position : ℕ) : Decidable (span.Contains position) :=
  inferInstanceAs (Decidable (_ ∧ _))

/-- Each span starts before the other one stops. -/
def Overlaps (span other : Span) : Prop :=
  span.start < other.stop ∧ other.start < span.stop

instance (span other : Span) : Decidable (span.Overlaps other) :=
  inferInstanceAs (Decidable (_ ∧ _))

theorem Overlaps.symm {span other : Span} (overlap : span.Overlaps other) :
    other.Overlaps span :=
  ⟨overlap.2, overlap.1⟩

/-- Two spans with a common position overlap. -/
theorem Contains.overlaps {span other : Span} {position : ℕ} (inSpan : span.Contains position)
    (inOther : other.Contains position) : span.Overlaps other :=
  ⟨Nat.lt_of_le_of_lt inSpan.1 inOther.2, Nat.lt_of_le_of_lt inOther.1 inSpan.2⟩

/-- The span overlaps none of the occupied ones. -/
def Clear (occupied : List Span) (span : Span) : Prop :=
  ∀ other ∈ occupied, ¬ span.Overlaps other

instance (occupied : List Span) (span : Span) : Decidable (Clear occupied span) :=
  inferInstanceAs (Decidable (∀ other ∈ occupied, _))

/-- One step of the greedy pass. -/
def claim (occupied : List Span) (span : Span) : List Span :=
  if Clear occupied span then occupied ++ [span] else occupied

/-- The spans that the greedy pass keeps, in the order of the list. -/
def kept (spans : List Span) : List Span :=
  spans.foldl claim []

@[simp] theorem kept_nil : kept [] = [] := rfl

theorem kept_append_singleton (spans : List Span) (span : Span) :
    kept (spans ++ [span]) = claim (kept spans) span := by
  rw [kept, List.foldl_append]
  rfl

/-- The span at a place of the list overlaps no span kept before that place. -/
def KeptAt (spans : List Span) (place : ℕ) : Prop :=
  ∃ span, spans[place]? = some span ∧ Clear (kept (spans.take place)) span

theorem mem_kept_iff (spans : List Span) (span : Span) :
    span ∈ kept spans ↔ ∃ place, spans[place]? = some span ∧ KeptAt spans place := by
  induction spans using List.reverseRecOn with
  | nil => simp
  | append_singleton spans last ih =>
      have earlier : ∀ place < spans.length,
          (spans ++ [last])[place]? = spans[place]? ∧
            (spans ++ [last]).take place = spans.take place := fun place before =>
        ⟨List.getElem?_append_left before, List.take_append_of_le_length before.le⟩
      have atLast : (spans ++ [last])[spans.length]? = some last := by simp
      rw [kept_append_singleton, claim]
      constructor
      · intro member
        have cases : span ∈ kept spans ∨ span = last ∧ Clear (kept spans) last := by
          split at member
          · next clear =>
              rcases List.mem_append.mp member with old | new
              · exact Or.inl old
              · exact Or.inr ⟨List.mem_singleton.mp new, clear⟩
          · exact Or.inl member
        rcases cases with old | ⟨rfl, clear⟩
        · obtain ⟨place, found, keptSpan, sameSpan, clear⟩ := ih.mp old
          have before : place < spans.length := (List.getElem?_eq_some_iff.mp found).1
          refine ⟨place, (earlier place before).1.trans found, keptSpan,
            (earlier place before).1.trans sameSpan, ?_⟩
          rw [(earlier place before).2]
          exact clear
        · refine ⟨spans.length, atLast, span, atLast, ?_⟩
          rw [List.take_left]
          exact clear
      · rintro ⟨place, found, keptSpan, sameSpan, clear⟩
        obtain rfl : span = keptSpan := Option.some.inj (found.symm.trans sameSpan)
        rcases Nat.lt_trichotomy place spans.length with before | rfl | after
        · rw [(earlier place before).1] at found
          rw [(earlier place before).2] at clear
          have old := ih.mpr ⟨place, found, span, found, clear⟩
          split
          · exact List.mem_append_left _ old
          · exact old
        · rw [atLast] at found
          rw [List.take_left] at clear
          cases found
          rw [if_pos clear]
          simp
        · rw [List.getElem?_eq_none (by simp; omega)] at found
          cases found

/-- The spans that a pass keeps are pairwise disjoint. -/
theorem pairwise_kept (spans : List Span) :
    (kept spans).Pairwise fun span other => ¬ span.Overlaps other := by
  induction spans using List.reverseRecOn with
  | nil => exact List.Pairwise.nil
  | append_singleton spans last ih =>
      rw [kept_append_singleton, claim]
      split
      · next clear =>
          refine List.pairwise_append.mpr ⟨ih, List.pairwise_singleton _ _, ?_⟩
          intro span member other isLast overlap
          obtain rfl := List.mem_singleton.mp isLast
          exact clear span member overlap.symm
      · exact ih

/-- A choice of places such that a place is chosen exactly when its span overlaps the span of
no chosen place before it. -/
def Unobstructed (spans : List Span) (chosen : ℕ → Prop) : Prop :=
  ∀ place span, spans[place]? = some span →
    (chosen place ↔ ∀ before < place, chosen before →
      ∀ other, spans[before]? = some other → ¬ span.Overlaps other)

/-- The places that the greedy pass keeps are such a choice. -/
theorem unobstructed_keptAt (spans : List Span) : Unobstructed spans (KeptAt spans) := by
  intro place span found
  have place_lt : place < spans.length := (List.getElem?_eq_some_iff.mp found).1
  have clear_iff : KeptAt spans place ↔ Clear (kept (spans.take place)) span := by
    constructor
    · rintro ⟨keptSpan, sameSpan, clear⟩
      obtain rfl : span = keptSpan := Option.some.inj (found.symm.trans sameSpan)
      exact clear
    · exact fun clear => ⟨span, found, clear⟩
  have shorter : ∀ before < place, (spans.take place)[before]? = spans[before]? ∧
      (spans.take place).take before = spans.take before := by
    intro before earlier
    refine ⟨by rw [List.getElem?_take_of_lt earlier], ?_⟩
    rw [List.take_take, Nat.min_eq_left earlier.le]
  rw [clear_iff]
  constructor
  · rintro clear before earlier ⟨keptSpan, sameSpan, keptClear⟩ other otherFound
    obtain rfl : other = keptSpan := Option.some.inj (otherFound.symm.trans sameSpan)
    refine clear other ((mem_kept_iff _ _).mpr ⟨before, ?_, other, ?_, ?_⟩)
    · rw [(shorter before earlier).1]
      exact otherFound
    · rw [(shorter before earlier).1]
      exact otherFound
    · rw [(shorter before earlier).2]
      exact keptClear
  · intro separate other member overlap
    obtain ⟨before, otherFound, keptSpan, sameSpan, keptClear⟩ := (mem_kept_iff _ _).mp member
    have earlier : before < place := by
      have bound := (List.getElem?_eq_some_iff.mp otherFound).1
      rw [List.length_take] at bound
      omega
    rw [(shorter before earlier).1] at otherFound sameSpan
    rw [(shorter before earlier).2] at keptClear
    exact separate before earlier ⟨keptSpan, sameSpan, keptClear⟩ other otherFound overlap

/-- There is only one such choice, by induction on the place. -/
theorem Unobstructed.unique {spans : List Span} {chosen other : ℕ → Prop}
    (first : Unobstructed spans chosen) (second : Unobstructed spans other) :
    ∀ place span, spans[place]? = some span → (chosen place ↔ other place) := by
  intro place
  induction place using Nat.strongRecOn with
  | ind place ih =>
      intro span found
      rw [first place span found, second place span found]
      constructor
      · intro clear before earlier isOther blocking blockingFound
        exact clear before earlier ((ih before earlier blocking blockingFound).mpr isOther)
          blocking blockingFound
      · intro clear before earlier isChosen blocking blockingFound
        exact clear before earlier ((ih before earlier blocking blockingFound).mp isChosen)
          blocking blockingFound

/-- What the greedy pass keeps, read off any choice that satisfies the equation. -/
theorem Unobstructed.mem_kept_iff {spans : List Span} {chosen : ℕ → Prop}
    (unobstructed : Unobstructed spans chosen) (span : Span) :
    span ∈ kept spans ↔ ∃ place, spans[place]? = some span ∧ chosen place := by
  rw [Span.mem_kept_iff]
  refine exists_congr fun place => and_congr_right fun found => ?_
  exact (unobstructed_keptAt spans).unique unobstructed place span found

end Span

end MmAudit
