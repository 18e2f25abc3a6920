import Mathlib.Data.Finset.Card
import Mathlib.Data.Finset.Dedup

/-!
# Choosing items with different labels

A greedy choice goes through a list once and takes an item whenever its label is new, until
enough labels are chosen.  However the list is ordered, it ends with as many labels as were
asked for, or with all there are.
-/

namespace MmAudit

namespace Selection

variable {Item Label : Type} [DecidableEq Label] (label : Item → Label) (target : ℕ)

/-- The items that are taken when some labels are chosen already. -/
def pick : List Item → List Label → List Item
  | [], _ => []
  | item :: items, chosen =>
      if target ≤ chosen.length then []
      else if label item ∈ chosen then pick items chosen
      else item :: pick items (chosen ++ [label item])

theorem pick_sublist (items : List Item) (chosen : List Label) :
    (pick label target items chosen).Sublist items := by
  induction items generalizing chosen with
  | nil => exact List.Sublist.refl _
  | cons item items ih =>
      rw [pick]
      split
      · exact List.nil_sublist _
      · split
        · exact (ih chosen).cons item
        · exact (ih (chosen ++ [label item])).cons_cons item

omit [DecidableEq Label] in
theorem nodup_concat {chosen : List Label} {new : Label} (distinct : chosen.Nodup)
    (isNew : new ∉ chosen) : (chosen ++ [new]).Nodup := by
  rw [← List.concat_eq_append]
  exact distinct.concat isNew

/-- No label is chosen twice. -/
theorem nodup_labels_pick (items : List Item) {chosen : List Label} (distinct : chosen.Nodup) :
    (chosen ++ (pick label target items chosen).map label).Nodup := by
  induction items generalizing chosen with
  | nil => simpa [pick] using distinct
  | cons item items ih =>
      rw [pick]
      split
      · simpa using distinct
      · split
        · exact ih distinct
        · rename_i new
          have rest := ih (nodup_concat distinct new)
          rwa [List.append_assoc] at rest

/-- The choice stops at the target or has all labels. -/
theorem length_pick (items : List Item) {chosen : List Label} (distinct : chosen.Nodup)
    (notOver : chosen.length ≤ target) :
    chosen.length + (pick label target items chosen).length =
      min target (chosen ++ items.map label).toFinset.card := by
  induction items generalizing chosen with
  | nil =>
      rw [pick, List.map_nil, List.append_nil, List.toFinset_card_of_nodup distinct]
      exact (min_eq_right notOver).symm
  | cons item items ih =>
      rw [pick]
      split
      · rename_i full
        have chosenCard : chosen.toFinset.card = chosen.length :=
          List.toFinset_card_of_nodup distinct
        have all : chosen.toFinset.card ≤ (chosen ++ (item :: items).map label).toFinset.card :=
          Finset.card_le_card fun _ member => by
            rw [List.mem_toFinset] at member ⊢
            exact List.mem_append_left _ member
        rw [List.length_nil]
        omega
      · split
        · rename_i old
          have same : (chosen ++ (item :: items).map label).toFinset =
              (chosen ++ items.map label).toFinset := by
            ext other
            simp only [List.map_cons, List.mem_toFinset, List.mem_append, List.mem_cons]
            constructor
            · rintro (member | rfl | member)
              · exact .inl member
              · exact .inl old
              · exact .inr member
            · exact Or.imp_right Or.inr
          rw [same]
          exact ih distinct notOver
        · rename_i notFull new
          have lengthExtended : (chosen ++ [label item]).length = chosen.length + 1 :=
            List.length_append
          have rest := ih (nodup_concat distinct new) (by omega)
          rw [List.append_assoc, List.singleton_append, lengthExtended] at rest
          rw [List.length_cons, List.map_cons, ← rest]
          omega

end Selection

end MmAudit
