import Mathlib.Data.List.Forall2

/-!
# Lists related item by item

Rules for two lists of which each item of one is related to the item of the other at the same
place: what a member of one list says about the other, and how such lists come about.
-/

namespace MmAudit

namespace Pairing

variable {First Second : Type*} {related : First → Second → Prop} {firsts : List First}
  {seconds : List Second}

/-- Related items with equal keys give lists with equal keys. -/
theorem map_eq_map {Key : Type*} {first : First → Key} {second : Second → Key}
    (pairs : List.Forall₂ related firsts seconds)
    (agree : ∀ one other, related one other → first one = second other) :
    firsts.map first = seconds.map second := by
  induction pairs with
  | nil => rfl
  | cons pair _ ih => rw [List.map_cons, List.map_cons, agree _ _ pair, ih]

theorem exists_left (pairs : List.Forall₂ related firsts seconds) {second : Second}
    (member : second ∈ seconds) : ∃ first ∈ firsts, related first second := by
  induction pairs with
  | nil => cases member
  | @cons first other firsts seconds pair _ ih =>
      rcases List.mem_cons.mp member with rfl | later
      · exact ⟨first, List.mem_cons_self, pair⟩
      · obtain ⟨found, foundMem, relatedTo⟩ := ih later
        exact ⟨found, List.mem_cons_of_mem _ foundMem, relatedTo⟩

theorem exists_right (pairs : List.Forall₂ related firsts seconds) {first : First}
    (member : first ∈ firsts) : ∃ second ∈ seconds, related first second :=
  exists_left pairs.flip member

/-- A list whose items all have a partner is related to a list of partners. -/
theorem exists_partners (found : ∀ second ∈ seconds, ∃ first, related first second) :
    ∃ firsts, List.Forall₂ related firsts seconds := by
  induction seconds with
  | nil => exact ⟨[], .nil⟩
  | cons second seconds ih =>
      obtain ⟨⟨first, pair⟩, others⟩ := List.forall_mem_cons.mp found
      obtain ⟨firsts, pairs⟩ := ih others
      exact ⟨first :: firsts, .cons pair pairs⟩

theorem append {moreFirsts : List First} {moreSeconds : List Second}
    (pairs : List.Forall₂ related firsts seconds)
    (more : List.Forall₂ related moreFirsts moreSeconds) :
    List.Forall₂ related (firsts ++ moreFirsts) (seconds ++ moreSeconds) := by
  induction pairs with
  | nil => exact more
  | cons pair _ ih => exact .cons pair ih

end Pairing

end MmAudit
