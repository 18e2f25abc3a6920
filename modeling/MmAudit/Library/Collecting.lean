import MmAudit.Library.Fallible
import Mathlib.Data.List.Basic

/-!
# Collecting items within limits

A pass over a list of outcomes collects items until so many are collected.  An item whose
size no longer fits is collected without its content.  The rules below compare two such
passes over the same outcomes that start with different amounts already used up.
-/

namespace MmAudit

namespace Collecting

/-- What one step of the pass comes to. -/
inductive Outcome (Item Note Error : Type) where
  | nothing
  | note (note : Note)
  | item (item : Item)
  | failure (error : Error)

def Outcome.isItem {Item Note Error : Type} : Outcome Item Note Error → Bool
  | .item _ => true
  | _ => false

structure Limits (Item Note : Type) where
  places : ℕ
  room : ℕ
  size : Item → ℕ
  /-- The item without its content. -/
  strip : Item → Item
  /-- The note for an item that does not fit. -/
  overflow : Item → Note
  /-- The note with which the pass ends at the last place. -/
  full : Note

variable {Item Note Error : Type} (limits : Limits Item Note)

/-- The item still fits. -/
def fits (used : ℕ) (item : Item) : Bool :=
  decide (used + limits.size item ≤ limits.room)

/-- The room that is used after the item. -/
def use (used : ℕ) (item : Item) : ℕ :=
  if fits limits used item then used + limits.size item else used

/-- The item as it is collected. -/
def enter (fits : Bool) (item : Item) : Item :=
  if fits then item else limits.strip item

def overflowNotes (fits : Bool) (item : Item) : List Note :=
  if fits then [] else [limits.overflow item]

/-- The pass, from so many items and so much used room on. -/
def collect : ℕ → ℕ → List (Outcome Item Note Error) → Except Error (List Item × List Note)
  | _, _, [] => .ok ([], [])
  | count, used, .nothing :: rest => collect count used rest
  | count, used, .note note :: rest =>
      (collect count used rest).map fun result => (result.1, note :: result.2)
  | _, _, .failure error :: _ => .error error
  | count, used, .item item :: rest =>
      let fits := fits limits used item
      if limits.places ≤ count + 1 then
        .ok ([enter limits fits item], overflowNotes limits fits item ++ [limits.full])
      else
        (collect (count + 1) (use limits used item) rest).map fun result =>
          (enter limits fits item :: result.1, overflowNotes limits fits item ++ result.2)

/-- The items before the first failure. -/
def itemsOf : List (Outcome Item Note Error) → List Item
  | [] => []
  | .nothing :: rest => itemsOf rest
  | .note _ :: rest => itemsOf rest
  | .failure _ :: _ => []
  | .item item :: rest => item :: itemsOf rest

/-- The first failure. -/
def failureOf : List (Outcome Item Note Error) → Option Error
  | [] => none
  | .nothing :: rest => failureOf rest
  | .note _ :: rest => failureOf rest
  | .failure error :: _ => some error
  | .item _ :: rest => failureOf rest

/-- Which of the items fit, one after the other. -/
def fitting : ℕ → List Item → List Bool
  | _, [] => []
  | used, item :: items => fits limits used item :: fitting (use limits used item) items

/-- The room that is used after the items. -/
def usedAfter : ℕ → List Item → ℕ
  | used, [] => used
  | used, item :: items => usedAfter (use limits used item) items

theorem use_le {used : ℕ} (within : used ≤ limits.room) (item : Item) :
    use limits used item ≤ limits.room := by
  unfold use
  split
  · next fits => exact of_decide_eq_true fits
  · exact within

theorem usedAfter_le {used : ℕ} (within : used ≤ limits.room) (items : List Item) :
    usedAfter limits used items ≤ limits.room := by
  induction items generalizing used with
  | nil => exact within
  | cons item items ih =>
      exact ih (use_le limits within item)

/-! ## One pass -/

/-- The items with or without their contents. -/
def entries (fits : List Bool) (items : List Item) : List Item :=
  List.zipWith (enter limits) fits items

theorem length_fitting (used : ℕ) (items : List Item) :
    (fitting limits used items).length = items.length := by
  induction items generalizing used with
  | nil => rfl
  | cons item items ih => rw [fitting, List.length_cons, List.length_cons, ih]

theorem mem_of_mem_itemsOf {outcomes : List (Outcome Item Note Error)} {item : Item}
    (member : item ∈ itemsOf outcomes) : .item item ∈ outcomes := by
  induction outcomes with
  | nil => cases member
  | cons outcome rest ih =>
      cases outcome with
      | nothing => exact List.mem_cons_of_mem _ (ih member)
      | note note => exact List.mem_cons_of_mem _ (ih member)
      | failure error => cases member
      | item first =>
          rcases List.mem_cons.mp member with rfl | member
          · exact List.mem_cons_self
          · exact List.mem_cons_of_mem _ (ih member)

def Outcome.item? : Outcome Item Note Error → Option Item
  | .item found => some found
  | _ => none

/-- What a pass collects are items of its outcomes, in their order. -/
theorem collect_sublist {Key : Type} (key : Item → Key)
    (strips : ∀ item, key (limits.strip item) = key item) {count used : ℕ}
    {outcomes : List (Outcome Item Note Error)} {result : List Item × List Note}
    (collected : collect limits count used outcomes = .ok result) :
    (result.1.map key).Sublist ((outcomes.filterMap Outcome.item?).map key) := by
  have entered : ∀ fits item, key (enter limits fits item) = key item := by
    intro fits item
    cases fits with
    | true => rfl
    | false => exact strips item
  induction outcomes generalizing count used result with
  | nil =>
      cases collected
      exact List.Sublist.refl _
  | cons outcome rest ih =>
      cases outcome with
      | nothing => exact ih collected
      | note note =>
          obtain ⟨later, found, rfl⟩ := Fallible.map_eq_ok_iff.mp collected
          exact @ih _ _ later found
      | failure error => cases collected
      | item item =>
          rw [collect] at collected
          split at collected
          · cases collected
            change [key (enter limits _ item)].Sublist (key item :: _)
            rw [entered]
            exact List.singleton_sublist.mpr List.mem_cons_self
          · obtain ⟨later, found, rfl⟩ := Fallible.map_eq_ok_iff.mp collected
            change (key (enter limits _ item) :: _).Sublist (key item :: _)
            rw [entered]
            exact (ih found).cons_cons _

/-- A pass that reaches its last place ends there with a note. -/
theorem collect_of_full {count used : ℕ} {outcomes : List (Outcome Item Note Error)}
    (started : count < limits.places)
    (full : limits.places ≤ count + (itemsOf outcomes).length) :
    ∃ notes, collect limits count used outcomes =
      .ok (entries limits (fitting limits used ((itemsOf outcomes).take (limits.places - count)))
        ((itemsOf outcomes).take (limits.places - count)), notes ++ [limits.full]) := by
  induction outcomes generalizing count used with
  | nil => simp only [itemsOf, List.length_nil] at full; omega
  | cons outcome rest ih =>
      cases outcome with
      | nothing => exact ih started full
      | note note =>
          obtain ⟨notes, result⟩ := @ih count used started full
          exact ⟨note :: notes, by rw [collect, result]; rfl⟩
      | failure error => simp only [itemsOf, List.length_nil] at full; omega
      | item item =>
          rw [itemsOf, List.length_cons] at full
          rw [itemsOf, collect]
          by_cases last : limits.places ≤ count + 1
          · have one : limits.places - count = 1 := by omega
            rw [if_pos last, one]
            exact ⟨overflowNotes limits (fits limits used item) item, rfl⟩
          · have more : limits.places - count = limits.places - (count + 1) + 1 := by omega
            rw [if_neg last, more]
            obtain ⟨notes, result⟩ := @ih (count + 1) (use limits used item) (by omega) (by omega)
            rw [result]
            exact ⟨_ ++ notes, by rw [List.append_assoc]; rfl⟩

/-- A pass that does not reach its last place ends with a failure, if there is one. -/
theorem collect_of_failure {count used : ℕ} {outcomes : List (Outcome Item Note Error)}
    {error : Error} (fails : failureOf outcomes = some error)
    (places : count + (itemsOf outcomes).length < limits.places) :
    collect limits count used outcomes = .error error := by
  induction outcomes generalizing count used with
  | nil => cases fails
  | cons outcome rest ih =>
      cases outcome with
      | nothing => exact ih fails places
      | note note => rw [collect, ih fails places]; rfl
      | failure other =>
          cases fails
          rfl
      | item item =>
          rw [itemsOf, List.length_cons] at places
          rw [collect, if_neg (by omega), ih fails (by omega)]
          rfl

/-- A pass that does not reach its last place collects all items. -/
theorem collect_of_open {count used : ℕ} {outcomes : List (Outcome Item Note Error)}
    (succeeds : failureOf outcomes = none)
    (places : count + (itemsOf outcomes).length < limits.places) :
    ∃ notes, collect limits count used outcomes =
      .ok (entries limits (fitting limits used (itemsOf outcomes)) (itemsOf outcomes), notes) ∧
      ∀ note ∈ notes, .note note ∈ outcomes ∨ ∃ item, note = limits.overflow item := by
  induction outcomes generalizing count used with
  | nil => exact ⟨[], rfl, by simp⟩
  | cons outcome rest ih =>
      have later : ∀ {notes : List Note},
          (∀ note ∈ notes, .note note ∈ rest ∨ ∃ item, note = limits.overflow item) →
            ∀ note ∈ notes, .note note ∈ outcome :: rest ∨ ∃ item, note = limits.overflow item :=
        fun known note member => (known note member).imp_left (List.mem_cons_of_mem _)
      cases outcome with
      | nothing =>
          obtain ⟨notes, result, known⟩ := @ih count used succeeds places
          exact ⟨notes, result, later known⟩
      | note note =>
          obtain ⟨notes, result, known⟩ := @ih count used succeeds places
          refine ⟨note :: notes, by rw [collect, result]; rfl, ?_⟩
          intro other member
          rcases List.mem_cons.mp member with rfl | member
          · exact Or.inl List.mem_cons_self
          · exact later known other member
      | failure other => cases succeeds
      | item item =>
          rw [itemsOf, List.length_cons] at places
          obtain ⟨notes, result, known⟩ := @ih (count + 1) (use limits used item)
            succeeds (by omega)
          refine ⟨_, by rw [collect, if_neg (by omega), result]; rfl, ?_⟩
          intro other member
          rcases List.mem_append.mp member with overflow | member
          · unfold overflowNotes at overflow
            split at overflow
            · cases overflow
            · exact Or.inr ⟨item, List.mem_singleton.mp overflow⟩
          · exact later known other member

/-- What is collected comes from the outcomes. -/
theorem mem_of_collect {count used : ℕ} {outcomes : List (Outcome Item Note Error)}
    {items : List Item} {notes : List Note}
    (result : collect limits count used outcomes = .ok (items, notes)) {entry : Item}
    (member : entry ∈ items) :
    ∃ item, .item item ∈ outcomes ∧ (entry = item ∨ entry = limits.strip item) := by
  have entered : ∀ fits (item : Item), enter limits fits item = item ∨
      enter limits fits item = limits.strip item := by
    intro fits item
    cases fits
    · exact Or.inr rfl
    · exact Or.inl rfl
  induction outcomes generalizing count used items notes with
  | nil =>
      cases result
      cases member
  | cons outcome rest ih =>
      have later : ∀ {count used items notes}, collect limits count used rest = .ok (items, notes) →
          entry ∈ items →
            ∃ item, .item item ∈ outcome :: rest ∧ (entry = item ∨ entry = limits.strip item) := by
        intro count used items notes result member
        obtain ⟨item, found, same⟩ := ih result member
        exact ⟨item, List.mem_cons_of_mem _ found, same⟩
      cases outcome with
      | nothing => exact later result member
      | note note =>
          rw [collect] at result
          obtain ⟨collected, earlier, same⟩ := Fallible.map_eq_ok_iff.mp result
          obtain ⟨rfl, -⟩ := Prod.mk.inj same
          exact later earlier member
      | failure error => cases result
      | item item =>
          rw [collect] at result
          split at result
          · cases result
            obtain rfl := List.mem_singleton.mp member
            exact ⟨item, List.mem_cons_self, entered _ item⟩
          · obtain ⟨collected, earlier, same⟩ := Fallible.map_eq_ok_iff.mp result
            obtain ⟨rfl, -⟩ := Prod.mk.inj same
            rcases List.mem_cons.mp member with rfl | member
            · exact ⟨item, List.mem_cons_self, entered _ item⟩
            · exact later earlier member

/-! ## A pass in two parts -/

/-- A pass whose first part fails or reaches the last place ends there. -/
theorem collect_append_of_ended {count used : ℕ} {start : List (Outcome Item Note Error)}
    (started : count < limits.places)
    (ended : (failureOf start).isSome = true ∨ limits.places ≤ count + (itemsOf start).length)
    (rest : List (Outcome Item Note Error)) :
    collect limits count used (start ++ rest) = collect limits count used start := by
  induction start generalizing count used with
  | nil =>
      rcases ended with fails | full
      · cases fails
      · simp only [itemsOf, List.length_nil] at full
        omega
  | cons outcome start ih =>
      cases outcome with
      | nothing => exact ih started ended
      | note note => rw [List.cons_append, collect, collect, ih started ended]
      | failure other => rfl
      | item item =>
          rw [List.cons_append, collect, collect]
          by_cases last : limits.places ≤ count + 1
          · rw [if_pos last, if_pos last]
          · rw [if_neg last, if_neg last, ih (by omega)]
            refine ended.imp_right fun full => ?_
            rw [itemsOf, List.length_cons] at full
            omega

/-- Otherwise it goes on with what the first part has used up. -/
theorem collect_append_of_open {count used : ℕ} {start : List (Outcome Item Note Error)}
    (succeeds : failureOf start = none)
    (places : count + (itemsOf start).length < limits.places) :
    ∃ items notes, ∀ rest, collect limits count used (start ++ rest) =
      (collect limits (count + (itemsOf start).length) (usedAfter limits used (itemsOf start))
        rest).map fun result => (items ++ result.1, notes ++ result.2) := by
  induction start generalizing count used with
  | nil =>
      refine ⟨[], [], fun rest => ?_⟩
      simp only [itemsOf, usedAfter, List.length_nil, Nat.add_zero, List.nil_append]
      cases collect limits count used rest <;> rfl
  | cons outcome start ih =>
      cases outcome with
      | nothing => exact ih succeeds places
      | note note =>
          obtain ⟨items, notes, result⟩ := @ih count used succeeds places
          refine ⟨items, note :: notes, fun rest => ?_⟩
          rw [List.cons_append, collect, result, itemsOf]
          cases collect limits _ _ rest <;> rfl
      | failure other => cases succeeds
      | item item =>
          rw [itemsOf, List.length_cons] at places
          obtain ⟨items, notes, result⟩ := @ih (count + 1) (use limits used item)
            succeeds (by omega)
          refine ⟨enter limits (fits limits used item) item :: items,
            overflowNotes limits (fits limits used item) item ++ notes, fun rest => ?_⟩
          have moved : count + 1 + (itemsOf start).length =
              count + ((itemsOf start).length + 1) := by omega
          rw [List.cons_append, collect, if_neg (by omega), result, itemsOf, List.length_cons,
            usedAfter, moved]
          cases collect limits _ _ rest with
          | error error => rfl
          | ok result => simp [Except.map]

/-! ## Two passes over the same outcomes -/

/-- The passes have the same places left, or both have more places than there are items. -/
def SamePlaces (count other items : ℕ) : Prop :=
  count = other ∨ count + items < limits.places ∧ other + items < limits.places

/-- Passes for which the same items fit collect the same. -/
theorem collect_congr {count other used otherUsed : ℕ} {outcomes : List (Outcome Item Note Error)}
    (started : count < limits.places)
    (places : SamePlaces limits count other (itemsOf outcomes).length)
    (same : fitting limits used ((itemsOf outcomes).take (limits.places - count)) =
      fitting limits otherUsed ((itemsOf outcomes).take (limits.places - count))) :
    collect limits count used outcomes = collect limits other otherUsed outcomes := by
  induction outcomes generalizing count other used otherUsed with
  | nil => rfl
  | cons outcome rest ih =>
      cases outcome with
      | nothing => exact ih started places same
      | note note => rw [collect, collect, ih started places same]
      | failure error => rfl
      | item item =>
          have more : limits.places - count = limits.places - (count + 1) + 1 := by omega
          rw [itemsOf, more, List.take_succ_cons, fitting, fitting] at same
          obtain ⟨sameFits, sameLater⟩ := List.cons.inj same
          rw [itemsOf, List.length_cons] at places
          rw [collect, collect, sameFits]
          by_cases last : limits.places ≤ count + 1
          · have otherLast : limits.places ≤ other + 1 := by
              rcases places with rfl | ⟨here, -⟩ <;> omega
            rw [if_pos last, if_pos otherLast]
          · have otherMore : ¬ limits.places ≤ other + 1 := by
              rcases places with rfl | ⟨-, there⟩ <;> omega
            rw [if_neg last, if_neg otherMore, ih (by omega) ?_ sameLater]
            rcases places with rfl | ⟨here, there⟩
            · exact Or.inl rfl
            · exact Or.inr ⟨by omega, by omega⟩

/-- Items without content can be told from the items themselves, unless these are empty. -/
def Telling (items : List Item) : Prop :=
  ∀ item ∈ items, limits.strip item = item → limits.size item = 0

/-- What is collected tells which items fit. -/
theorem fitting_eq_of_entries_eq {items : List Item} (telling : Telling limits items)
    {used otherUsed : ℕ} (within : used ≤ limits.room) (otherWithin : otherUsed ≤ limits.room)
    (same : entries limits (fitting limits used items) items =
      entries limits (fitting limits otherUsed items) items) :
    fitting limits used items = fitting limits otherUsed items := by
  induction items generalizing used otherUsed with
  | nil => rfl
  | cons item items ih =>
      rw [fitting, fitting] at same ⊢
      obtain ⟨sameEntry, sameLater⟩ := List.cons.inj same
      refine congrArg₂ List.cons ?_
        (ih (fun other member => telling other (List.mem_cons_of_mem _ member))
          (use_le limits within item) (use_le limits otherWithin item) sameLater)
      have emptyFits : limits.strip item = item →
          fits limits used item = true ∧ fits limits otherUsed item = true := by
        intro stripped
        have empty := telling item List.mem_cons_self stripped
        exact ⟨decide_eq_true (by omega), decide_eq_true (by omega)⟩
      cases here : fits limits used item <;> cases there : fits limits otherUsed item
      · rfl
      · rw [here, there] at sameEntry
        rw [(emptyFits sameEntry).1] at here
        cases here
      · rw [here, there] at sameEntry
        rw [(emptyFits sameEntry.symm).2] at there
        cases there
      · rfl

/-- What is seen of a pass: the items, and some of the notes. -/
def seen (shows : Note → Bool) (result : Except Error (List Item × List Note)) :
    Except Error (List Item × List Note) :=
  result.map fun collected => (collected.1, collected.2.filter shows)

/-- Two passes with the same places look alike exactly if the same items fit, or both fail. -/
theorem seen_eq_iff_of_samePlaces (shows : Note → Bool)
    {outcomes : List (Outcome Item Note Error)} (telling : Telling limits (itemsOf outcomes))
    {count other used otherUsed : ℕ} (within : used ≤ limits.room)
    (otherWithin : otherUsed ≤ limits.room)
    (started : count < limits.places)
    (places : SamePlaces limits count other (itemsOf outcomes).length) :
    seen shows (collect limits count used outcomes) =
        seen shows (collect limits other otherUsed outcomes) ↔
      ((failureOf outcomes).isSome = true ∧ count + (itemsOf outcomes).length < limits.places) ∨
        fitting limits used ((itemsOf outcomes).take (limits.places - count)) =
          fitting limits otherUsed ((itemsOf outcomes).take (limits.places - count)) := by
  constructor
  · intro same
    by_cases open_ : count + (itemsOf outcomes).length < limits.places
    · cases fails : failureOf outcomes with
      | some error => exact Or.inl ⟨rfl, open_⟩
      | none =>
          have otherOpen : other + (itemsOf outcomes).length < limits.places := by
            rcases places with rfl | ⟨-, there⟩ <;> assumption
          obtain ⟨notes, result, -⟩ := @collect_of_open _ _ _ limits _ used _ fails open_
          obtain ⟨otherNotes, otherResult, -⟩ :=
            @collect_of_open _ _ _ limits _ otherUsed _ fails otherOpen
          rw [result, otherResult] at same
          have sameItems := congrArg Prod.fst (Except.ok.inj same)
          rw [List.take_of_length_le (by omega)]
          exact Or.inr (fitting_eq_of_entries_eq limits telling within otherWithin sameItems)
    · obtain rfl : count = other := places.resolve_right fun both => open_ both.1
      obtain ⟨notes, result⟩ := @collect_of_full _ _ _ limits _ used outcomes started (by omega)
      obtain ⟨otherNotes, otherResult⟩ :=
        @collect_of_full _ _ _ limits _ otherUsed outcomes started (by omega)
      rw [result, otherResult] at same
      have sameItems := congrArg Prod.fst (Except.ok.inj same)
      exact Or.inr (fitting_eq_of_entries_eq limits
        (fun item member => telling item (List.mem_of_mem_take member)) within otherWithin
        sameItems)
  · rintro (⟨fails, open_⟩ | sameFits)
    · obtain ⟨error, fails⟩ := Option.isSome_iff_exists.mp fails
      have otherOpen : other + (itemsOf outcomes).length < limits.places := by
        rcases places with rfl | ⟨-, there⟩ <;> assumption
      rw [collect_of_failure limits fails open_, collect_of_failure limits fails otherOpen]
    · rw [collect_congr limits started places sameFits]

/-- The last note says that all places are taken, and no other note does. -/
structure TellsFull (outcomes : List (Outcome Item Note Error)) : Prop where
  overflow : ∀ item, limits.overflow item ≠ limits.full
  outcomes : .note limits.full ∉ outcomes

/-- A pass has the last note exactly if it has taken all places. -/
theorem full_mem_iff {count used : ℕ} {outcomes : List (Outcome Item Note Error)}
    (tells : TellsFull limits outcomes) (started : count < limits.places) {items : List Item}
    {notes : List Note} (result : collect limits count used outcomes = .ok (items, notes)) :
    limits.full ∈ notes ↔ count + items.length = limits.places := by
  by_cases reached : limits.places ≤ count + (itemsOf outcomes).length
  · obtain ⟨before, full⟩ := @collect_of_full _ _ _ limits _ used outcomes started reached
    rw [full] at result
    cases result
    refine iff_of_true (List.mem_append_right _ (List.mem_singleton_self _)) ?_
    rw [entries, List.length_zipWith, length_fitting, List.length_take]
    omega
  · rw [not_le] at reached
    cases fails : failureOf outcomes with
    | some error =>
        rw [collect_of_failure limits fails reached] at result
        cases result
    | none =>
        obtain ⟨before, open_, known⟩ := @collect_of_open _ _ _ limits _ used _ fails reached
        rw [open_] at result
        cases result
        refine iff_of_false (fun member => ?_) ?_
        · rcases known _ member with noted | ⟨item, overflows⟩
          · exact tells.outcomes noted
          · exact tells.overflow item overflows.symm
        · rw [entries, List.length_zipWith, length_fitting]
          omega

/-- A result that took all places but one more looks different from a pass with that place. -/
theorem seen_ne_of_place_more (shows : Note → Bool) (showsFull : shows limits.full = true)
    {count used : ℕ} {outcomes : List (Outcome Item Note Error)}
    (tells : TellsFull limits outcomes) (started : count < limits.places) {items : List Item}
    {notes : List Note} (isFull : limits.full ∈ notes)
    (taken : count + 1 + items.length = limits.places) :
    (Except.ok (items, notes.filter shows) : Except Error _) ≠
      seen shows (collect limits count used outcomes) := by
  intro same
  cases result : collect limits count used outcomes with
  | error error =>
      rw [result] at same
      cases same
  | ok collected =>
      obtain ⟨otherItems, otherNotes⟩ := collected
      rw [result] at same
      obtain ⟨rfl, sameNotes⟩ := Prod.mk.inj (Except.ok.inj same)
      have shown : limits.full ∈ notes.filter shows := List.mem_filter.mpr ⟨isFull, showsFull⟩
      rw [sameNotes] at shown
      have allTaken := (full_mem_iff limits tells started result).mp (List.mem_filter.mp shown).1
      omega

end Collecting

end MmAudit
