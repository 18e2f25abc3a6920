import MmAudit.Library.Dict

/-!
# Breadth-first search for a goal

The search starts at several nodes in increasing order and follows the edges of a node in the
order of their ranks.  It notes the edge that a node was first reached by, and stops when it
reaches the goal; going back along the noted edges gives a chain.  Of all chains from a start to
the goal this is the least one: a shortest one and, among these, the first by its start and the
ranks of its edges.  A least chain stays least where other edges are taken away.
-/

namespace MmAudit

namespace BreadthFirst

section Loops

variable {Node Edge : Type*} [DecidableEq Node] (target : Edge → Node)
  (outgoing : Node → List Edge) (goal : Node)

/-! ## The loops -/

/-- The edges of one node: what is new is noted and waits, unless it is the goal. -/
def scan (current : Node) :
    List Edge → List Node → Dict Node (Option (Node × Edge)) →
      List Node × Dict Node (Option (Node × Edge))
  | [], pending, predecessor => (pending, predecessor)
  | edge :: edges, pending, predecessor =>
      if target edge ∈ predecessor then scan current edges pending predecessor
      else
        let noted := predecessor.insert (target edge) (some (current, edge))
        if target edge = goal then ([], noted)
        else scan current edges (pending ++ [target edge]) noted

/-- At most so many turns of the search. -/
def search : ℕ → List Node → Dict Node (Option (Node × Edge)) →
    Option (Dict Node (Option (Node × Edge)))
  | _, [], predecessor => some predecessor
  | 0, _ :: _, _ => none
  | turns + 1, current :: pending, predecessor =>
      let (pending, predecessor) := scan target goal current (outgoing current) pending predecessor
      search turns pending predecessor

/-- The way back from a node, at most so many edges. -/
def trace (predecessor : Dict Node (Option (Node × Edge))) : ℕ → Node → List Edge →
    Option (List Edge)
  | turns, cursor, path =>
      match predecessor.get? cursor with
      | none => none
      | some none => some path.reverse
      | some (some (previous, edge)) =>
          match turns with
          | 0 => none
          | turns + 1 => trace predecessor turns previous (path ++ [edge])

end Loops

section Chains

variable {Node Edge : Type*} (source target : Edge → Node)

/-! ## Chains -/

/-- The path leads along edges from the one node to the other. -/
def Leads (edges : List Edge) : Node → List Edge → Node → Prop
  | start, [], finish => start = finish
  | start, edge :: path, finish =>
      edge ∈ edges ∧ source edge = start ∧ Leads edges (target edge) path finish

variable {source target} {edges : List Edge}

theorem leads_append {start finish : Node} {path rest : List Edge} :
    Leads source target edges start (path ++ rest) finish ↔
      ∃ middle, Leads source target edges start path middle ∧
        Leads source target edges middle rest finish := by
  induction path generalizing start with
  | nil => simp [Leads]
  | cons edge path ih =>
      rw [List.cons_append, Leads, ih]
      constructor
      · rintro ⟨listed, starts, middle, before, after⟩
        exact ⟨middle, ⟨listed, starts, before⟩, after⟩
      · rintro ⟨middle, ⟨listed, starts, before⟩, after⟩
        exact ⟨listed, starts, middle, before, after⟩

theorem leads_concat {start finish : Node} {path : List Edge} {edge : Edge} :
    Leads source target edges start (path ++ [edge]) finish ↔
      Leads source target edges start path (source edge) ∧ edge ∈ edges ∧
        target edge = finish := by
  rw [leads_append]
  constructor
  · rintro ⟨middle, before, listed, rfl, last⟩
    exact ⟨before, listed, last⟩
  · rintro ⟨before, listed, last⟩
    exact ⟨source edge, before, listed, rfl, last⟩

theorem Leads.mem {start finish : Node} {path : List Edge}
    (leads : Leads source target edges start path finish) : ∀ edge ∈ path, edge ∈ edges := by
  induction path generalizing start with
  | nil => exact fun _ member => absurd member List.not_mem_nil
  | cons first path ih =>
      intro edge member
      rcases List.mem_cons.mp member with rfl | member
      · exact leads.1
      · exact ih leads.2.2 edge member

theorem Leads.of_mem {others : List Edge} {start finish : Node} {path : List Edge}
    (leads : Leads source target edges start path finish)
    (listed : ∀ edge ∈ path, edge ∈ others) : Leads source target others start path finish := by
  induction path generalizing start with
  | nil => exact leads
  | cons first path ih =>
      exact ⟨listed first List.mem_cons_self, leads.2.1,
        ih leads.2.2 fun edge member => listed edge (List.mem_cons_of_mem _ member)⟩

/-- The first edge that leaves a set of nodes. -/
theorem Leads.exists_leaving (inside : Node → Prop) {start finish : Node} {path : List Edge}
    (leads : Leads source target edges start path finish) (startInside : inside start)
    (finishOutside : ¬ inside finish) :
    ∃ before edge after, path = before ++ edge :: after ∧
      Leads source target edges start before (source edge) ∧ edge ∈ edges ∧
      inside (source edge) ∧ ¬ inside (target edge) := by
  induction path generalizing start with
  | nil =>
      change start = finish at leads
      exact absurd (leads ▸ startInside) finishOutside
  | cons edge path ih =>
      obtain ⟨listed, starts, rest⟩ := leads
      by_cases stays : inside (target edge)
      · obtain ⟨before, leaving, after, split, leads, isEdge, insideSource, outside⟩ := ih rest stays
        exact ⟨edge :: before, leaving, after, by rw [split, List.cons_append],
          ⟨listed, starts, leads⟩, isEdge, insideSource, outside⟩
      · exact ⟨[], edge, path, rfl, starts.symm, listed, starts ▸ startInside, stays⟩

/-! ## The order of chains -/

section Order

variable {Rank : Type*} [LinearOrder Node] [LinearOrder Rank] (rank : Edge → Rank)

/-- By length, start and ranks. -/
def key (start : Node) (path : List Edge) : ℕ ×ₗ Node ×ₗ List Rank :=
  toLex (path.length, toLex (start, path.map rank))

theorem lt_append {first second : List Rank} (less : first < second)
    (length : first.length = second.length) (left right : List Rank) :
    first ++ left < second ++ right := by
  induction first generalizing second with
  | nil =>
      cases second with
      | nil => exact absurd less (lt_irrefl _)
      | cons _ _ => cases length
  | cons head tail ih =>
      cases second with
      | nil => cases length
      | cons other others =>
          rw [List.cons_append, List.cons_append, List.cons_lt_cons_iff]
          rcases List.cons_lt_cons_iff.mp less with before | ⟨same, less⟩
          · exact .inl before
          · exact .inr ⟨same, ih less (Nat.succ.inj length)⟩

variable {rank} {start other : Node} {path others : List Edge}

theorem key_lt_iff : key rank start path < key rank other others ↔
    path.length < others.length ∨ path.length = others.length ∧
      (start < other ∨ start = other ∧ path.map rank < others.map rank) := by
  rw [key, key, Prod.Lex.toLex_lt_toLex, Prod.Lex.toLex_lt_toLex]

theorem key_le_iff : key rank start path ≤ key rank other others ↔
    path.length < others.length ∨ path.length = others.length ∧
      (start < other ∨ start = other ∧ path.map rank ≤ others.map rank) := by
  rw [key, key, Prod.Lex.toLex_le_toLex, Prod.Lex.toLex_le_toLex]

/-- A smaller chain stays smaller, whatever edges are added to both. -/
theorem key_concat_lt (less : key rank start path < key rank other others) (edge last : Edge) :
    key rank start (path ++ [edge]) < key rank other (others ++ [last]) := by
  rw [key_lt_iff] at less ⊢
  rw [List.length_append, List.length_append, List.length_singleton, List.length_singleton]
  rcases less with shorter | ⟨length, before | ⟨same, less⟩⟩
  · exact .inl (Nat.succ_lt_succ shorter)
  · exact .inr ⟨congrArg Nat.succ length, .inl before⟩
  · refine .inr ⟨congrArg Nat.succ length, .inr ⟨same, ?_⟩⟩
    rw [List.map_append, List.map_append]
    exact lt_append less (by rw [List.length_map, List.length_map, length]) _ _

theorem key_concat_rank_lt {edge last : Edge} (less : rank edge < rank last) :
    key rank start (path ++ [edge]) < key rank start (path ++ [last]) := by
  rw [key_lt_iff]
  refine .inr ⟨by rw [List.length_append, List.length_append]; rfl, .inr ⟨rfl, ?_⟩⟩
  rw [List.map_append, List.map_append]
  exact List.Lex.append_left _ (List.Lex.rel less) _

theorem key_le_append (start : Node) (path rest : List Edge) :
    key rank start path ≤ key rank start (path ++ rest) := by
  rw [key_le_iff, List.length_append]
  cases rest with
  | nil => exact .inr ⟨rfl, .inr ⟨rfl, by rw [List.append_nil]⟩⟩
  | cons edge rest => exact .inl (Nat.lt_add_of_pos_right (Nat.succ_pos _))

end Order

end Chains

section Search

variable {Node Edge Rank : Type*} [LinearOrder Node] [LinearOrder Rank]
  (source target : Edge → Node) (rank : Edge → Rank) (starts : List Node) (edges : List Edge)

/-! ## What a search has reached -/

/-- A node that was reached, with the chain it was first reached by. -/
structure Visit (Node Edge : Type*) where
  node : Node
  start : Node
  path : List Edge

/-- The place of a visit in the order of chains. -/
def Visit.place (visit : Visit Node Edge) : ℕ ×ₗ Node ×ₗ List Rank :=
  key rank visit.start visit.path

/-- What is noted for a visit: the last edge and the node it comes from. -/
def Visit.note (visit : Visit Node Edge) : Node × Option (Node × Edge) :=
  (visit.node, visit.path.getLast?.map fun edge => (source edge, edge))

/-- The visits so far, in their order: `done` were searched, `todo` wait, and of the edges of the
first that waits some were scanned. -/
structure Reached (done todo : List (Visit Node Edge)) (scanned : List Edge) : Prop where
  distinct : ((done ++ todo).map Visit.node).Nodup
  sorted : (done ++ todo).Pairwise fun visit later => visit.place rank < later.place rank
  sound : ∀ visit ∈ done ++ todo, visit.start ∈ starts ∧
    Leads source target edges visit.start visit.path visit.node
  least : ∀ visit ∈ done ++ todo, ∀ start ∈ starts, ∀ path,
    Leads source target edges start path visit.node → visit.place rank ≤ key rank start path
  /-- A visit is a start or comes from a scanned edge of another one. -/
  born : ∀ visit ∈ done ++ todo, (visit.path = [] ∧ visit.node = visit.start) ∨
    ∃ previous ∈ done ++ todo, ∃ edge, (previous ∈ done ∨ todo.head? = some previous ∧
      edge ∈ scanned) ∧ source edge = previous.node ∧ target edge = visit.node ∧
        visit.start = previous.start ∧ visit.path = previous.path ++ [edge]
  short : ∀ visit ∈ done ++ todo, visit.path.length < (done ++ todo).length
  startsReached : ∀ start ∈ starts, start ∈ (done ++ todo).map Visit.node
  closed : ∀ visit ∈ done, ∀ edge ∈ edges, source edge = visit.node →
    target edge ∈ (done ++ todo).map Visit.node
  scannedReached : ∀ edge ∈ scanned, target edge ∈ (done ++ todo).map Visit.node

/-- The dictionary notes exactly these visits. -/
def Notes (visits : List (Visit Node Edge)) (predecessor : Dict Node (Option (Node × Edge))) :
    Prop :=
  predecessor.items = visits.map (Visit.note source)

variable {source target rank starts edges} {done todo : List (Visit Node Edge)}
  {scanned : List Edge} {visits : List (Visit Node Edge)}
  {predecessor : Dict Node (Option (Node × Edge))}

omit [LinearOrder Node] in
theorem Notes.mem_iff (notes : Notes source visits predecessor) (node : Node) :
    node ∈ predecessor ↔ node ∈ visits.map Visit.node := by
  change node ∈ predecessor.keys ↔ _
  rw [Dict.keys, notes, List.map_map]
  rfl

theorem Notes.get? (notes : Notes source visits predecessor) {visit : Visit Node Edge}
    (member : visit ∈ visits) :
    predecessor.get? visit.node =
      some (visit.path.getLast?.map fun edge => (source edge, edge)) := by
  rw [Dict.get?_eq_some_iff, notes]
  exact List.mem_map_of_mem member

theorem Notes.insert (notes : Notes source visits predecessor) {visit : Visit Node Edge}
    (isNew : visit.node ∉ visits.map Visit.node) :
    Notes source (visits ++ [visit])
      (predecessor.insert visit.node
        (visit.path.getLast?.map fun edge => (source edge, edge))) := by
  have absent : visit.node ∉ predecessor.keys := fun present =>
    isNew ((notes.mem_iff visit.node).mp present)
  rw [Notes, Dict.insert, dif_neg absent, List.map_append, List.map_singleton]
  exact congrArg (· ++ [visit.note source]) notes

/-- At the start nothing was scanned. -/
theorem reached_starts (increasing : starts.Pairwise (· < ·)) :
    Reached source target rank starts edges [] (starts.map fun start => ⟨start, start, []⟩) [] := by
  have nodes : (starts.map fun start => (⟨start, start, []⟩ : Visit Node Edge)).map Visit.node =
      starts := by
    rw [List.map_map]
    exact List.map_id _
  constructor
  case distinct =>
    rw [List.nil_append, nodes]
    exact increasing.imp ne_of_lt
  case sorted =>
    rw [List.nil_append, List.pairwise_map]
    exact increasing.imp fun before => key_lt_iff.mpr (.inr ⟨rfl, .inl before⟩)
  case sound =>
    intro visit member
    obtain ⟨start, listed, rfl⟩ := List.mem_map.mp member
    exact ⟨listed, rfl⟩
  case least =>
    intro visit member other otherListed path leads
    obtain ⟨start, listed, rfl⟩ := List.mem_map.mp member
    cases path with
    | nil =>
        change other = start at leads
        subst leads
        exact le_rfl
    | cons edge path => exact key_le_iff.mpr (.inl (Nat.succ_pos _))
  case born =>
    intro visit member
    obtain ⟨start, listed, rfl⟩ := List.mem_map.mp member
    exact .inl ⟨rfl, rfl⟩
  case short =>
    intro visit member
    obtain ⟨start, listed, rfl⟩ := List.mem_map.mp member
    exact List.length_pos_of_mem member
  case startsReached =>
    intro start listed
    rw [List.nil_append, nodes]
    exact listed
  case closed => exact fun _ member => absurd member List.not_mem_nil
  case scannedReached => exact fun _ member => absurd member List.not_mem_nil

/-! ## One edge -/

section Step

variable {current : Visit Node Edge} {edge : Edge} {rest : List Edge}
  (reached : Reached source target rank starts edges done (current :: todo) scanned)

include reached

/-- An edge to what was reached already. -/
theorem Reached.scan_old (old : target edge ∈ (done ++ current :: todo).map Visit.node) :
    Reached source target rank starts edges done (current :: todo) (scanned ++ [edge]) :=
  { reached with
    born := by
      intro visit member
      refine (reached.born visit member).imp_right ?_
      rintro ⟨previous, listed, last, origin, facts⟩
      exact ⟨previous, listed, last,
        origin.imp_right fun here => ⟨here.1, List.mem_append_left _ here.2⟩, facts⟩
    scannedReached := by
      intro other member
      rcases List.mem_append.mp member with member | member
      · exact reached.scannedReached other member
      · rw [List.mem_singleton.mp member]
        exact old }

/-- What waits behind or is the current visit. -/
theorem Reached.current_le {visit : Visit Node Edge} (member : visit ∈ current :: todo) :
    current.place rank ≤ visit.place rank := by
  rcases List.mem_cons.mp member with rfl | later
  · exact le_rfl
  · have waiting := (List.pairwise_append.mp reached.sorted).2.1
    exact (List.rel_of_pairwise_cons waiting later).le

/-- What was searched comes before the current visit. -/
theorem Reached.lt_current {visit : Visit Node Edge} (member : visit ∈ done) :
    visit.place rank < current.place rank :=
  (List.pairwise_append.mp reached.sorted).2.2 visit member current List.mem_cons_self

/-- The visit that an edge of the current one makes. -/
def Visit.next (current : Visit Node Edge) (target : Edge → Node) (edge : Edge) :
    Visit Node Edge :=
  ⟨target edge, current.start, current.path ++ [edge]⟩

variable (fromCurrent : source edge = current.node) (listed : edge ∈ edges)
  (smaller : ∀ other ∈ scanned, rank other < rank edge)
  (larger : ∀ other ∈ edges, source other = current.node → other ∉ scanned →
    rank edge ≤ rank other)

include smaller in
/-- A new visit comes after all others. -/
theorem Reached.lt_next {visit : Visit Node Edge} (member : visit ∈ done ++ current :: todo) :
    visit.place rank < (current.next target edge).place rank := by
  rcases reached.born visit member with ⟨isStart, -⟩ | ⟨previous, -, last, origin, -, -, start, path⟩
  · refine key_lt_iff.mpr (.inl ?_)
    rw [isStart]
    change 0 < (current.path ++ [edge]).length
    rw [List.length_append]
    exact Nat.succ_pos _
  · rw [Visit.place, start, path]
    rcases origin with earlier | ⟨isCurrent, wasScanned⟩
    · exact key_concat_lt (reached.lt_current earlier) last edge
    · obtain rfl := Option.some.inj isCurrent
      exact key_concat_rank_lt (smaller last wasScanned)

include larger in
/-- A new visit has the least chain of its node. -/
theorem Reached.next_le (isNew : target edge ∉ (done ++ current :: todo).map Visit.node)
    {start : Node} (isStart : start ∈ starts) {path : List Edge}
    (leads : Leads source target edges start path (target edge)) :
    (current.next target edge).place rank ≤ key rank start path := by
  obtain ⟨before, leaving, after, split, leadsBefore, isEdge, insideSource, outside⟩ :=
    leads.exists_leaving (· ∈ (done ++ current :: todo).map Visit.node)
      (reached.startsReached start isStart) isNew
  obtain ⟨visit, member, node⟩ := List.mem_map.mp insideSource
  have waits : visit ∈ current :: todo := by
    rcases List.mem_append.mp member with searched | waits
    · exact absurd (reached.closed visit searched leaving isEdge node.symm) outside
    · exact waits
  have unscanned : leaving ∉ scanned := fun wasScanned =>
    outside (reached.scannedReached leaving wasScanned)
  have leastBefore := reached.least visit member start isStart before (node ▸ leadsBefore)
  have currentLe := reached.current_le waits
  have whole : key rank start (before ++ [leaving]) ≤ key rank start path := by
    rw [split, ← List.singleton_append (l := after), ← List.append_assoc]
    exact key_le_append start _ after
  refine le_trans ?_ whole
  rcases lt_or_eq_of_le (currentLe.trans leastBefore) with less | same
  · exact (key_concat_lt less edge leaving).le
  · -- the chain comes from the current visit, so its last edge was not scanned before
    have isCurrent : visit = current := by
      rcases List.mem_cons.mp waits with here | later
      · exact here
      · have waiting := (List.pairwise_append.mp reached.sorted).2.1
        have after := List.rel_of_pairwise_cons waiting later
        exact absurd (same ▸ after.trans_le leastBefore) (lt_irrefl _)
    subst isCurrent
    have rankLe := larger leaving isEdge node.symm unscanned
    have lengths : visit.path.length = before.length ∧ visit.start = start ∧
        visit.path.map rank = before.map rank := by
      have parts := toLex.injective same
      exact ⟨congrArg Prod.fst parts, congrArg Prod.fst (toLex.injective (congrArg Prod.snd parts)),
        congrArg Prod.snd (toLex.injective (congrArg Prod.snd parts))⟩
    refine key_le_iff.mpr (.inr ⟨?_, .inr ⟨lengths.2.1, ?_⟩⟩)
    · change (visit.path ++ [edge]).length = _
      rw [List.length_append, List.length_append, lengths.1]
      rfl
    · change (visit.path ++ [edge]).map rank ≤ _
      rw [List.map_append, List.map_append, lengths.2.2]
      rcases lt_or_eq_of_le rankLe with less | equal
      · exact (show _ < _ from List.Lex.append_left _ (List.Lex.rel less) _).le
      · rw [List.map_singleton, List.map_singleton, equal]

include fromCurrent listed smaller larger in
/-- An edge to a new node. -/
theorem Reached.scan_new (isNew : target edge ∉ (done ++ current :: todo).map Visit.node) :
    Reached source target rank starts edges done (current :: (todo ++ [current.next target edge]))
      (scanned ++ [edge]) := by
  have visitsEq : done ++ current :: (todo ++ [current.next target edge]) =
      (done ++ current :: todo) ++ [current.next target edge] := by
    rw [List.append_assoc, List.cons_append]
  have currentMember : current ∈ done ++ current :: todo :=
    List.mem_append_right _ List.mem_cons_self
  have nodes : ((done ++ current :: todo) ++ [current.next target edge]).map Visit.node =
      (done ++ current :: todo).map Visit.node ++ [target edge] := by
    rw [List.map_append]
    rfl
  have older : ∀ node ∈ (done ++ current :: todo).map Visit.node,
      node ∈ (done ++ current :: (todo ++ [current.next target edge])).map Visit.node := by
    intro node member
    rw [visitsEq, nodes]
    exact List.mem_append_left _ member
  have newOrOld : ∀ visit ∈ done ++ current :: (todo ++ [current.next target edge]),
      visit ∈ done ++ current :: todo ∨ visit = current.next target edge := by
    intro visit member
    rw [visitsEq, List.mem_append, List.mem_singleton] at member
    exact member
  have currentSound := reached.sound current currentMember
  constructor
  case distinct =>
    rw [visitsEq, nodes, List.nodup_append]
    refine ⟨reached.distinct, List.nodup_singleton _, ?_⟩
    intro node member other otherMember same
    rw [List.mem_singleton.mp otherMember] at same
    exact isNew (same ▸ member)
  case sorted =>
    rw [visitsEq, List.pairwise_append]
    refine ⟨reached.sorted, List.pairwise_singleton _ _, ?_⟩
    intro visit member other otherMember
    rw [List.mem_singleton.mp otherMember]
    exact reached.lt_next smaller member
  case sound =>
    intro visit member
    rcases newOrOld visit member with old | rfl
    · exact reached.sound visit old
    · exact ⟨currentSound.1, leads_concat.mpr ⟨fromCurrent ▸ currentSound.2, listed, rfl⟩⟩
  case least =>
    intro visit member start isStart path leads
    rcases newOrOld visit member with old | rfl
    · exact reached.least visit old start isStart path leads
    · exact reached.next_le larger isNew isStart leads
  case born =>
    intro visit member
    rcases newOrOld visit member with old | rfl
    · refine (reached.born visit old).imp_right ?_
      rintro ⟨previous, isVisit, last, origin, facts⟩
      refine ⟨previous, ?_, last, ?_, facts⟩
      · rw [visitsEq]
        exact List.mem_append_left _ isVisit
      · exact origin.imp_right fun here => ⟨here.1, List.mem_append_left _ here.2⟩
    · refine .inr ⟨current, ?_, edge, .inr ⟨rfl, ?_⟩, fromCurrent, rfl, rfl, rfl⟩
      · rw [visitsEq]
        exact List.mem_append_left _ currentMember
      · exact List.mem_append_right _ (List.mem_singleton_self edge)
  case short =>
    intro visit member
    rw [visitsEq, List.length_append, List.length_singleton]
    rcases newOrOld visit member with old | rfl
    · exact (reached.short visit old).trans (Nat.lt_succ_self _)
    · change (current.path ++ [edge]).length < _
      rw [List.length_append, List.length_singleton]
      exact Nat.succ_lt_succ (reached.short current currentMember)
  case startsReached => exact fun start isStart => older _ (reached.startsReached start isStart)
  case closed =>
    exact fun visit searched other isEdge origin =>
      older _ (reached.closed visit searched other isEdge origin)
  case scannedReached =>
    intro other member
    rcases List.mem_append.mp member with member | member
    · exact older _ (reached.scannedReached other member)
    · rw [List.mem_singleton.mp member, visitsEq, nodes]
      exact List.mem_append_right _ (List.mem_singleton_self _)

/-- Once its edges are scanned, the current visit was searched. -/
theorem Reached.finish (complete : ∀ other ∈ edges, source other = current.node → other ∈ scanned) :
    Reached source target rank starts edges (done ++ [current]) todo [] := by
  have visitsEq : (done ++ [current]) ++ todo = done ++ current :: todo := by
    rw [List.append_assoc, List.singleton_append]
  constructor
  case distinct => exact visitsEq ▸ reached.distinct
  case sorted => exact visitsEq ▸ reached.sorted
  case sound => exact visitsEq ▸ reached.sound
  case least => exact visitsEq ▸ reached.least
  case born =>
    rw [visitsEq]
    intro visit member
    refine (reached.born visit member).imp_right ?_
    rintro ⟨previous, isVisit, last, origin, facts⟩
    refine ⟨previous, isVisit, last, .inl ?_, facts⟩
    rcases origin with searched | ⟨isCurrent, -⟩
    · exact List.mem_append_left _ searched
    · obtain rfl := Option.some.inj isCurrent
      exact List.mem_append_right _ (List.mem_singleton_self _)
  case short => exact visitsEq ▸ reached.short
  case startsReached => exact visitsEq ▸ reached.startsReached
  case closed =>
    rw [visitsEq]
    intro visit searched other isEdge origin
    rcases List.mem_append.mp searched with before | isCurrent
    · exact reached.closed visit before other isEdge origin
    · rw [List.mem_singleton.mp isCurrent] at origin
      exact reached.scannedReached other (complete other isEdge origin)
  case scannedReached => exact fun _ member => absurd member List.not_mem_nil

end Step

/-! ## The edges of a node -/

variable {outgoing : Node → List Edge} {goal : Node}

/-- The edges of every node are those of the graph, by increasing ranks. -/
structure IsOutgoing (source : Edge → Node) (rank : Edge → Rank) (edges : List Edge)
    (outgoing : Node → List Edge) : Prop where
  mem_iff : ∀ node edge, edge ∈ outgoing node ↔ edge ∈ edges ∧ source edge = node
  increasing : ∀ node, (outgoing node).Pairwise fun edge later => rank edge < rank later

/-- The end of a search: it stopped at the goal, or everything was searched. -/
def Ended (source target : Edge → Node) (rank : Edge → Rank) (starts : List Node)
    (edges : List Edge) (goal : Node) (visits : List (Visit Node Edge)) : Prop :=
  ∃ done todo scanned, visits = done ++ todo ∧
    Reached source target rank starts edges done todo scanned ∧
    (goal ∈ visits.map Visit.node ∨ todo = [])

/-- Scanning the edges of the current visit reaches the goal or what they lead to. -/
theorem scan_reached (isOutgoing : IsOutgoing source rank edges outgoing)
    {current : Visit Node Edge} {rest : List Edge}
    (split : outgoing current.node = scanned ++ rest)
    (reached : Reached source target rank starts edges done (current :: todo) scanned)
    (notes : Notes source (done ++ current :: todo) predecessor)
    (unreached : goal ∉ (done ++ current :: todo).map Visit.node) :
    (∃ visits, Notes source visits (scan target goal current.node rest (todo.map Visit.node)
          predecessor).2 ∧
        (scan target goal current.node rest (todo.map Visit.node) predecessor).1 = [] ∧
        Ended source target rank starts edges goal visits ∧ goal ∈ visits.map Visit.node) ∨
      ∃ added, Notes source (done ++ current :: (todo ++ added))
          (scan target goal current.node rest (todo.map Visit.node) predecessor).2 ∧
        (scan target goal current.node rest (todo.map Visit.node) predecessor).1 =
          (todo ++ added).map Visit.node ∧
        Reached source target rank starts edges (done ++ [current]) (todo ++ added) [] ∧
        goal ∉ (done ++ current :: (todo ++ added)).map Visit.node := by
  induction rest generalizing scanned todo predecessor with
  | nil =>
      refine .inr ⟨[], ?_, ?_, ?_, ?_⟩
      · rw [List.append_nil]
        exact notes
      · rw [List.append_nil]
        rfl
      · rw [List.append_nil]
        refine reached.finish fun other isEdge origin => ?_
        rw [List.append_nil] at split
        rw [← split]
        exact (isOutgoing.mem_iff _ _).mpr ⟨isEdge, origin⟩
      · rw [List.append_nil]
        exact unreached
  | cons edge rest ih =>
      have splitNext : outgoing current.node = (scanned ++ [edge]) ++ rest := by
        rw [split, List.append_assoc, List.singleton_append]
      have isListed : edge ∈ outgoing current.node := by
        rw [split]
        exact List.mem_append_right _ List.mem_cons_self
      obtain ⟨listed, fromCurrent⟩ := (isOutgoing.mem_iff _ _).mp isListed
      rw [scan]
      by_cases old : target edge ∈ predecessor
      · rw [if_pos old]
        exact ih splitNext (reached.scan_old ((notes.mem_iff _).mp old)) notes unreached
      · have isNew : target edge ∉ (done ++ current :: todo).map Visit.node := fun member =>
          old ((notes.mem_iff _).mpr member)
        have increasing := isOutgoing.increasing current.node
        rw [split, List.pairwise_append] at increasing
        have smaller : ∀ other ∈ scanned, rank other < rank edge := fun other member =>
          increasing.2.2 other member edge List.mem_cons_self
        have larger : ∀ other ∈ edges, source other = current.node → other ∉ scanned →
            rank edge ≤ rank other := by
          intro other isEdge origin unscanned
          have isOut := (isOutgoing.mem_iff _ _).mpr ⟨isEdge, origin⟩
          rw [split] at isOut
          rcases List.mem_append.mp isOut with wasScanned | later
          · exact absurd wasScanned unscanned
          · rcases List.mem_cons.mp later with rfl | later
            · exact le_rfl
            · exact (List.rel_of_pairwise_cons increasing.2.1 later).le
        have next := reached.scan_new fromCurrent listed smaller larger isNew
        have visitsEq : done ++ current :: (todo ++ [current.next target edge]) =
            (done ++ current :: todo) ++ [current.next target edge] := by
          rw [List.append_assoc, List.cons_append]
        have noted : Notes source (done ++ current :: (todo ++ [current.next target edge]))
            (predecessor.insert (target edge) (some (current.node, edge))) := by
          have isNewNode : (current.next target edge).node ∉
              (done ++ current :: todo).map Visit.node := isNew
          have inserted := notes.insert isNewNode
          rw [visitsEq]
          have last : (current.next target edge).path.getLast? = some edge :=
            List.getLast?_concat
          rw [last, Option.map_some, fromCurrent] at inserted
          exact inserted
        rw [if_neg old]
        dsimp only
        by_cases isGoal : target edge = goal
        · rw [if_pos isGoal]
          have goalReached : goal ∈ (done ++ current ::
              (todo ++ [current.next target edge])).map Visit.node := by
            rw [visitsEq, List.map_append]
            exact List.mem_append_right _ (List.mem_singleton.mpr isGoal.symm)
          exact .inl ⟨_, noted, rfl, ⟨_, _, _, rfl, next, .inl goalReached⟩, goalReached⟩
        · rw [if_neg isGoal]
          have stillUnreached : goal ∉ (done ++ current ::
              (todo ++ [current.next target edge])).map Visit.node := by
            rw [visitsEq, List.map_append, List.mem_append, not_or]
            exact ⟨unreached, fun same => isGoal (List.mem_singleton.mp same).symm⟩
          have continued := ih splitNext next noted stillUnreached
          rw [List.map_append] at continued
          rcases continued with found | ⟨added, facts⟩
          · exact .inl found
          · refine .inr ⟨current.next target edge :: added, ?_⟩
            rw [List.append_assoc, List.singleton_append] at facts
            exact facts

/-! ## The whole search -/

/-- More visits than starts and edges there cannot be. -/
theorem Reached.length_le (reached : Reached source target rank starts edges done todo scanned) :
    (done ++ todo).length ≤ starts.length + edges.length := by
  have subset : ((done ++ todo).map Visit.node).Subperm (starts ++ edges.map target) := by
    refine reached.distinct.subperm fun node member => ?_
    obtain ⟨visit, isVisit, rfl⟩ := List.mem_map.mp member
    rcases reached.born visit isVisit with ⟨-, isStart⟩ | ⟨previous, -, edge, -, -, isTarget, -, path⟩
    · rw [isStart]
      exact List.mem_append_left _ (reached.sound visit isVisit).1
    · rw [← isTarget]
      refine List.mem_append_right _ (List.mem_map_of_mem ?_)
      refine (reached.sound visit isVisit).2.mem edge ?_
      rw [path]
      exact List.mem_append_right _ (List.mem_singleton_self edge)
  have length := subset.length_le
  rw [List.length_map] at length
  refine length.trans_eq ?_
  rw [List.length_append, List.length_map]

/-- With enough turns the search ends. -/
theorem search_ended (isOutgoing : IsOutgoing source rank edges outgoing) {turns : ℕ}
    (enough : starts.length + edges.length ≤ done.length + turns)
    (reached : Reached source target rank starts edges done todo [])
    (notes : Notes source (done ++ todo) predecessor)
    (unreached : goal ∉ (done ++ todo).map Visit.node) :
    ∃ visits found, search target outgoing goal turns (todo.map Visit.node) predecessor =
        some found ∧ Notes source visits found ∧
      Ended source target rank starts edges goal visits := by
  induction turns generalizing done todo predecessor with
  | zero =>
      have bounded := reached.length_le
      rw [List.length_append] at bounded
      have nothingWaits : todo = [] := List.length_eq_zero_iff.mp (by omega)
      subst nothingWaits
      exact ⟨done ++ [], predecessor, rfl, notes, done, [], [], rfl, reached, .inr rfl⟩
  | succ turns ih =>
      cases todo with
      | nil => exact ⟨done ++ [], predecessor, rfl, notes, done, [], [], rfl, reached, .inr rfl⟩
      | cons current todo =>
          rw [List.map_cons, search]
          rcases scan_reached isOutgoing (List.nil_append _).symm reached notes unreached with
            ⟨visits, noted, stopped, ended, -⟩ | ⟨added, noted, waiting, next, stillUnreached⟩
          · dsimp only
            rw [stopped]
            exact ⟨visits, _, by cases turns <;> rfl, noted, ended⟩
          · have visitsEq : done ++ current :: (todo ++ added) =
                (done ++ [current]) ++ (todo ++ added) := by
              rw [List.append_assoc, List.singleton_append]
            rw [visitsEq] at noted stillUnreached
            dsimp only
            rw [waiting]
            refine ih ?_ next noted stillUnreached
            rw [List.length_append, List.length_singleton]
            omega

/-- The way back from a visit is its path. -/
theorem trace_eq (ended : Ended source target rank starts edges goal visits)
    (notes : Notes source visits predecessor) {visit : Visit Node Edge} (member : visit ∈ visits)
    {turns : ℕ} (enough : visit.path.length ≤ turns) (path : List Edge) :
    trace predecessor turns visit.node path = some (visit.path ++ path.reverse) := by
  obtain ⟨done, todo, scanned, rfl, reached, -⟩ := ended
  induction turns generalizing visit path with
  | zero =>
      have isStart : visit.path = [] := List.length_eq_zero_iff.mp (Nat.le_zero.mp enough)
      rw [trace, notes.get? member, isStart]
      rfl
  | succ turns ih =>
      rcases reached.born visit member with
        ⟨isStart, -⟩ | ⟨previous, isVisit, edge, -, origin, -, -, pathEq⟩
      · rw [trace, notes.get? member, isStart]
        rfl
      · rw [trace, notes.get? member, pathEq, List.getLast?_concat, Option.map_some, origin]
        dsimp only
        have shorter : previous.path.length ≤ turns := by
          rw [pathEq, List.length_append, List.length_singleton] at enough
          exact Nat.le_of_succ_le_succ enough
        rw [ih shorter _ isVisit, List.reverse_append, List.reverse_singleton,
          List.singleton_append, ← List.append_cons]

/-- A chain from a start that no other chain to its end precedes. -/
structure LeastChain (source target : Edge → Node) (rank : Edge → Rank) (starts : List Node)
    (edges : List Edge) (goal start : Node) (path : List Edge) : Prop where
  isStart : start ∈ starts
  leads : Leads source target edges start path goal
  least : ∀ other ∈ starts, ∀ others, Leads source target edges other others goal →
    key rank start path ≤ key rank other others

/-- The least chain is a shortest one. -/
theorem LeastChain.length_le {start : Node} {path : List Edge}
    (chain : LeastChain source target rank starts edges goal start path) {other : Node}
    (isStart : other ∈ starts) {others : List Edge}
    (leads : Leads source target edges other others goal) : path.length ≤ others.length := by
  rcases key_le_iff.mp (chain.least other isStart others leads) with shorter | ⟨same, -⟩
  · exact shorter.le
  · exact same.le

omit [LinearOrder Node] [LinearOrder Rank] in
/-- Edges of the graph are known by their ranks, when these are different. -/
theorem eq_of_map_rank_eq (distinct : (edges.map rank).Nodup) {path others : List Edge}
    (listed : ∀ edge ∈ path, edge ∈ edges) (othersListed : ∀ edge ∈ others, edge ∈ edges)
    (same : path.map rank = others.map rank) : path = others := by
  induction path generalizing others with
  | nil => exact (List.map_eq_nil_iff.mp same.symm).symm
  | cons edge path ih =>
      cases others with
      | nil => cases same
      | cons other others =>
          obtain ⟨sameRank, sameRest⟩ := List.cons.inj same
          rw [List.inj_on_of_nodup_map distinct (listed edge List.mem_cons_self)
              (othersListed other List.mem_cons_self) sameRank,
            ih (fun edge member => listed edge (List.mem_cons_of_mem _ member))
              (fun edge member => othersListed edge (List.mem_cons_of_mem _ member)) sameRest]

/-- There is one least chain, when the ranks of the edges are different. -/
theorem LeastChain.eq (distinct : (edges.map rank).Nodup) {start other : Node}
    {path others : List Edge}
    (chain : LeastChain source target rank starts edges goal start path)
    (otherChain : LeastChain source target rank starts edges goal other others) :
    path = others := by
  have same := le_antisymm (chain.least other otherChain.isStart others otherChain.leads)
    (otherChain.least start chain.isStart path chain.leads)
  have ranks : path.map rank = others.map rank :=
    congrArg Prod.snd (toLex.injective (congrArg Prod.snd (toLex.injective same)))
  exact eq_of_map_rank_eq distinct chain.leads.mem otherChain.leads.mem ranks

variable (target) in
/-- The search and the way back return the least chain, or there is no chain. -/
theorem search_trace (isOutgoing : IsOutgoing source rank edges outgoing)
    (increasing : starts.Pairwise (· < ·)) (notStart : goal ∉ starts)
    (notes : Notes source (starts.map fun start => ⟨start, start, []⟩) predecessor) {turns : ℕ}
    (enough : starts.length + edges.length ≤ turns) :
    ∃ found, search target outgoing goal turns starts predecessor = some found ∧
      ((goal ∈ found ∧ ∃ start path, LeastChain source target rank starts edges goal start path ∧
          trace found turns goal [] = some path) ∨
        goal ∉ found ∧ ∀ start ∈ starts, ∀ path, ¬ Leads source target edges start path goal) := by
  have nodes : (starts.map fun start => (⟨start, start, []⟩ : Visit Node Edge)).map Visit.node =
      starts := by
    rw [List.map_map]
    exact List.map_id _
  have allTurns : starts.length + edges.length ≤ ([] : List (Visit Node Edge)).length + turns := by
    rw [List.length_nil, Nat.zero_add]
    exact enough
  obtain ⟨visits, found, searched, noted, ended⟩ := search_ended isOutgoing allTurns
    (reached_starts increasing) notes (by rw [List.nil_append, nodes]; exact notStart)
  rw [nodes] at searched
  refine ⟨found, searched, ?_⟩
  obtain ⟨done, todo, scanned, rfl, reached, goalOrAll⟩ := id ended
  by_cases isReached : goal ∈ (done ++ todo).map Visit.node
  · obtain ⟨visit, member, rfl⟩ := List.mem_map.mp isReached
    have sound := reached.sound visit member
    refine .inl ⟨(noted.mem_iff _).mpr isReached, visit.start, visit.path,
      ⟨sound.1, sound.2, reached.least visit member⟩, ?_⟩
    have short := reached.short visit member
    have bounded := reached.length_le
    rw [trace_eq ended noted member (by omega), List.reverse_nil, List.append_nil]
  · refine .inr ⟨fun member => isReached ((noted.mem_iff _).mp member), ?_⟩
    intro start isStart path leads
    have allSearched : todo = [] := goalOrAll.resolve_left isReached
    subst allSearched
    obtain ⟨before, leaving, after, -, -, isEdge, insideSource, outside⟩ :=
      leads.exists_leaving (· ∈ (done ++ []).map Visit.node) (reached.startsReached start isStart)
        isReached
    obtain ⟨visit, member, node⟩ := List.mem_map.mp insideSource
    rw [List.append_nil] at member
    exact outside (reached.closed visit member leaving isEdge node.symm)

end Search

end BreadthFirst

end MmAudit
