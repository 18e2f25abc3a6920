import MmAudit.Library.BreadthFirst
import MmAudit.Library.Json

/-!
# The entry path of a call

A call surface is only reviewed with a path of graph edges that leads to its source from a
constructor or a public function.  The path is found breadth first among the edges between
indexed entities, so it is the least chain by its length, its entry and the IDs of its edges.
It therefore does not depend on the order of the edges, and it is found again in every part of
the graph that still has it.
-/

namespace MmAudit

namespace Context

open BreadthFirst

/-! ## Entities and edges -/

inductive SolidityEntityKind where
  | contract
  | interface
  | library
  | function
  | constructor
  | modifier
  | event
  | error
  | struct
  | enum
  | stateVariable
  | immutable
  | constant
deriving DecidableEq, Repr

/-- An entity of the index, as far as entry paths look at it. -/
structure SolidityEntity where
  id : String
  kind : SolidityEntityKind
  visibility : Option String
deriving DecidableEq, Repr

inductive SolidityGraphKind where
  | inheritance
  | modifier
  | internalCall
  | externalCall
  | lowLevelCall
  | delegatecall
  | contractCreation
  | stateRead
  | stateWrite
  | stateDependency
  | assetFlow
  | privilege
  | governance
  | dependency
  | proxy
  | storageLayout
  | upgradeCompatibility
  | initializer
  | oracleDependency
  | eventState
  | eventFlow
  | crossChain
  | offchainDependency
  | signatureReplay
  | reentrancy
deriving DecidableEq, Repr

def SolidityGraphKind.value : SolidityGraphKind → String
  | inheritance => "inheritance"
  | modifier => "modifier"
  | internalCall => "internal_call"
  | externalCall => "external_call"
  | lowLevelCall => "low_level_call"
  | delegatecall => "delegatecall"
  | contractCreation => "contract_creation"
  | stateRead => "state_read"
  | stateWrite => "state_write"
  | stateDependency => "state_dependency"
  | assetFlow => "asset_flow"
  | privilege => "privilege"
  | governance => "governance"
  | dependency => "dependency"
  | proxy => "proxy"
  | storageLayout => "storage_layout"
  | upgradeCompatibility => "upgrade_compatibility"
  | initializer => "initializer"
  | oracleDependency => "oracle_dependency"
  | eventState => "event_state"
  | eventFlow => "event_flow"
  | crossChain => "cross_chain"
  | offchainDependency => "offchain_dependency"
  | signatureReplay => "signature_replay"
  | reentrancy => "reentrancy"

structure SolidityGraphEdge where
  graph : SolidityGraphKind
  sourceId : String
  targetId : String
  label : String
  path : String
  startLine : ℕ
  endLine : ℕ
  sourceHash : String
  metadata : Json

structure ContextBudgetError where
  message : String
deriving DecidableEq, Repr

/-- Entities under their IDs. -/
structure EntityMap where
  entities : Dict String SolidityEntity
  keyed : ∀ item ∈ entities.items, item.2.id = item.1

/-- The hash of a JSON text with sorted keys. -/
abbrev JsonSha256 := Json → String

section Paths

variable (jsonSha256 : JsonSha256)

/-- The text under `_edge_digest`. -/
def edgePayload (edge : SolidityGraphEdge) : Json :=
  .object [
    ("end_line".toList, .int edge.endLine),
    ("graph".toList, .string edge.graph.value.toList),
    ("label".toList, .string edge.label.toList),
    ("metadata".toList, edge.metadata),
    ("path".toList, .string edge.path.toList),
    ("source_hash".toList, .string edge.sourceHash.toList),
    ("source_id".toList, .string edge.sourceId.toList),
    ("start_line".toList, .int edge.startLine),
    ("target_id".toList, .string edge.targetId.toList)]

/-- `model_review_edge_subject_id` -/
def modelReviewEdgeSubjectId (edge : SolidityGraphEdge) : String :=
  "graph-edge:" ++ jsonSha256 (edgePayload edge)

/-! ## The path -/

/-- A constructor, or a function that can be called from outside. -/
def isEntry (entity : SolidityEntity) : Bool :=
  decide (entity.kind = .function ∨ entity.kind = .constructor) &&
    (entity.kind = .constructor || entity.visibility = some "public" ||
      entity.visibility = some "external")

def entryIds (entitiesById : EntityMap) : List String :=
  ((entitiesById.entities.values.filter isEntry).map (·.id)).insertionSort (· ≤ ·)

/-- The edges between entities by their sources. -/
def outgoingEdges (entitiesById : EntityMap) (edges : List SolidityGraphEdge) :
    Dict String (List SolidityGraphEdge) :=
  (edges.foldl (fun outgoing edge =>
    if edge.sourceId ∉ entitiesById.entities ∨ edge.targetId ∉ entitiesById.entities then outgoing
    else outgoing.push edge.sourceId edge) Dict.empty).mapValues fun edges =>
      edges.insertionSort fun edge other =>
        modelReviewEdgeSubjectId jsonSha256 edge ≤ modelReviewEdgeSubjectId jsonSha256 other

/-- `_deterministic_entry_path`, with a bound on the turns of its loops. -/
def deterministicEntryPath (turns : ℕ) (sourceId : String) (entitiesById : EntityMap)
    (edges : List SolidityGraphEdge) :
    Option (Except ContextBudgetError (List SolidityGraphEdge)) :=
  let entries := entryIds entitiesById
  if sourceId ∈ entries then some (.ok [])
  else
    let outgoing := outgoingEdges jsonSha256 entitiesById edges
    let predecessor := entries.foldl (fun predecessor entry => predecessor.insert entry none)
      Dict.empty
    match search (·.targetId) (fun node => (outgoing.get? node).getD []) sourceId turns entries
        predecessor with
    | none => none
    | some predecessor =>
        if sourceId ∉ predecessor then
          some (.error
            ⟨"requested call surface lacks a deterministic public entry-to-source path"⟩)
        else (trace predecessor turns sourceId []).map .ok

/-- From some number of turns on, this is the result. -/
def Returns (sourceId : String) (entitiesById : EntityMap) (edges : List SolidityGraphEdge)
    (result : Except ContextBudgetError (List SolidityGraphEdge)) : Prop :=
  ∃ bound, ∀ turns, bound ≤ turns →
    deterministicEntryPath jsonSha256 turns sourceId entitiesById edges = some result

/-- The edges between entities. -/
def usableEdges (entitiesById : EntityMap) (edges : List SolidityGraphEdge) :
    List SolidityGraphEdge :=
  edges.filter fun edge =>
    edge.sourceId ∈ entitiesById.entities ∧ edge.targetId ∈ entitiesById.entities

/-- A chain of the edges from the one node to the other. -/
abbrev EdgeChain (edges : List SolidityGraphEdge) (start : String)
    (path : List SolidityGraphEdge) (finish : String) : Prop :=
  Leads SolidityGraphEdge.sourceId SolidityGraphEdge.targetId edges start path finish

/-! ## The parts of the search -/

variable {entitiesById : EntityMap} {edges : List SolidityGraphEdge} {sourceId : String}

theorem mem_entryIds {entry : String} :
    entry ∈ entryIds entitiesById ↔
      ∃ entity, entitiesById.entities.get? entry = some entity ∧ isEntry entity = true := by
  rw [entryIds, List.mem_insertionSort, List.mem_map]
  constructor
  · rintro ⟨entity, member, rfl⟩
    obtain ⟨listed, entryKind⟩ := List.mem_filter.mp member
    obtain ⟨item, isItem, rfl⟩ := List.mem_map.mp listed
    refine ⟨item.2, (Dict.get?_eq_some_iff _ _ _).mpr ?_, entryKind⟩
    rw [entitiesById.keyed item isItem]
    exact isItem
  · rintro ⟨entity, stored, entryKind⟩
    have isItem := (Dict.get?_eq_some_iff _ _ _).mp stored
    exact ⟨entity, List.mem_filter.mpr ⟨List.mem_map_of_mem isItem, entryKind⟩,
      entitiesById.keyed _ isItem⟩

/-- The entries come in increasing order. -/
theorem increasing_entryIds (entitiesById : EntityMap) :
    (entryIds entitiesById).Pairwise (· < ·) := by
  have ids : entitiesById.entities.values.map (·.id) = entitiesById.entities.keys := by
    rw [Dict.values, Dict.keys, List.map_map]
    exact List.map_congr_left fun item member => entitiesById.keyed item member
  have nodup : ((entitiesById.entities.values.filter isEntry).map (·.id)).Nodup := by
    refine (List.filter_sublist.map _).nodup ?_
    rw [ids]
    exact entitiesById.entities.nodup
  have sorted := List.pairwise_insertionSort (· ≤ ·)
    ((entitiesById.entities.values.filter isEntry).map (·.id))
  have distinct := (List.perm_insertionSort (· ≤ ·)
    ((entitiesById.entities.values.filter isEntry).map (·.id))).nodup_iff.mpr nodup
  exact (sorted.and distinct).imp fun both => lt_of_le_of_ne both.1 both.2

/-- The edges of a node, in the order of the graph. -/
theorem getD_foldl_push (entitiesById : EntityMap) (edges : List SolidityGraphEdge)
    (start : Dict String (List SolidityGraphEdge)) (node : String) :
    ((edges.foldl (fun outgoing edge =>
        if edge.sourceId ∉ entitiesById.entities ∨ edge.targetId ∉ entitiesById.entities then
          outgoing
        else outgoing.push edge.sourceId edge) start).get? node).getD [] =
      (start.get? node).getD [] ++
        (usableEdges entitiesById edges).filter (·.sourceId = node) := by
  induction edges generalizing start with
  | nil => simp [usableEdges]
  | cons edge edges ih =>
      rw [List.foldl_cons, ih]
      by_cases unusable : edge.sourceId ∉ entitiesById.entities ∨
          edge.targetId ∉ entitiesById.entities
      · have dropped : usableEdges entitiesById (edge :: edges) =
            usableEdges entitiesById edges := by
          refine List.filter_cons_of_neg ?_
          rw [decide_eq_true_eq]
          tauto
        rw [if_pos unusable, dropped]
      · have kept : usableEdges entitiesById (edge :: edges) =
            edge :: usableEdges entitiesById edges := by
          refine List.filter_cons_of_pos ?_
          rw [decide_eq_true_eq]
          tauto
        rw [if_neg unusable, kept, Dict.get?_push]
        by_cases here : node = edge.sourceId
        · subst here
          rw [if_pos rfl, Option.getD_some, List.filter_cons_of_pos (by simp),
            List.append_assoc, List.singleton_append]
        · rw [if_neg here, List.filter_cons_of_neg (by simpa using Ne.symm here)]

/-- The edges between entities, by their sources and in the order of their IDs. -/
theorem isOutgoing_outgoingEdges (entitiesById : EntityMap)
    (distinct : (edges.map (modelReviewEdgeSubjectId jsonSha256)).Nodup) :
    IsOutgoing SolidityGraphEdge.sourceId (modelReviewEdgeSubjectId jsonSha256)
      (usableEdges entitiesById edges)
      (fun node => ((outgoingEdges jsonSha256 entitiesById edges).get? node).getD []) := by
  have listEq : ∀ node, ((outgoingEdges jsonSha256 entitiesById edges).get? node).getD [] =
      ((usableEdges entitiesById edges).filter (·.sourceId = node)).insertionSort fun edge other =>
        modelReviewEdgeSubjectId jsonSha256 edge ≤ modelReviewEdgeSubjectId jsonSha256 other := by
    intro node
    have collected := getD_foldl_push entitiesById edges Dict.empty node
    rw [Dict.get?_empty, Option.getD_none, List.nil_append] at collected
    rw [← collected, outgoingEdges, Dict.get?_mapValues]
    generalize Dict.get? _ node = found
    cases found with
    | none => rfl
    | some found => rfl
  constructor
  · intro node edge
    rw [listEq, List.mem_insertionSort, List.mem_filter, decide_eq_true_eq]
  · intro node
    rw [listEq]
    have nodup : (((usableEdges entitiesById edges).filter (·.sourceId = node)).map
        (modelReviewEdgeSubjectId jsonSha256)).Nodup :=
      ((List.filter_sublist.trans List.filter_sublist).map _).nodup distinct
    have total : Std.Total fun edge other : SolidityGraphEdge =>
        modelReviewEdgeSubjectId jsonSha256 edge ≤ modelReviewEdgeSubjectId jsonSha256 other :=
      ⟨fun _ _ => le_total _ _⟩
    have transitive : IsTrans SolidityGraphEdge fun edge other =>
        modelReviewEdgeSubjectId jsonSha256 edge ≤ modelReviewEdgeSubjectId jsonSha256 other :=
      ⟨fun _ _ _ => le_trans⟩
    have sorted := List.pairwise_insertionSort (fun edge other : SolidityGraphEdge =>
      modelReviewEdgeSubjectId jsonSha256 edge ≤ modelReviewEdgeSubjectId jsonSha256 other)
        ((usableEdges entitiesById edges).filter (·.sourceId = node))
    have apart := ((List.perm_insertionSort (fun edge other : SolidityGraphEdge =>
      modelReviewEdgeSubjectId jsonSha256 edge ≤ modelReviewEdgeSubjectId jsonSha256 other)
        ((usableEdges entitiesById edges).filter (·.sourceId = node))).map
          (modelReviewEdgeSubjectId jsonSha256)).nodup_iff.mpr nodup
    rw [List.Nodup, List.pairwise_map] at apart
    exact (sorted.and apart).imp fun both => lt_of_le_of_ne both.1 both.2

/-- The entries are noted without an edge. -/
theorem notes_foldl_insert {entries : List String} (nodup : entries.Nodup) :
    Notes SolidityGraphEdge.sourceId
      (entries.map fun entry => (⟨entry, entry, []⟩ : Visit String SolidityGraphEdge))
      (entries.foldl (fun predecessor entry => predecessor.insert entry none) Dict.empty) := by
  suffices general : ∀ (entries : List String)
      (start : Dict String (Option (String × SolidityGraphEdge))),
      (start.keys ++ entries).Nodup →
      (entries.foldl (fun predecessor entry => predecessor.insert entry none) start).items =
        start.items ++ entries.map (·, none) by
    have items := general entries Dict.empty nodup
    rw [Notes, items, List.map_map]
    rfl
  intro entries
  induction entries with
  | nil => intro start _; simp
  | cons entry entries ih =>
      intro start distinct
      have absent : entry ∉ start.keys := fun present =>
        (List.nodup_append.mp distinct).2.2 _ present _ List.mem_cons_self rfl
      have inserted : (start.insert entry none).items = start.items ++ [(entry, none)] := by
        rw [Dict.insert, dif_neg absent]
      rw [List.foldl_cons, ih, inserted, List.map_cons, List.append_assoc, List.singleton_append]
      rw [Dict.keys, inserted, List.map_append, List.append_assoc]
      exact distinct

/-- The result is the least chain from an entry, or there is none. -/
theorem deterministicEntryPath_spec
    (distinct : (edges.map (modelReviewEdgeSubjectId jsonSha256)).Nodup)
    (notEntry : sourceId ∉ entryIds entitiesById) :
    (∃ start path, LeastChain SolidityGraphEdge.sourceId SolidityGraphEdge.targetId
        (modelReviewEdgeSubjectId jsonSha256) (entryIds entitiesById)
        (usableEdges entitiesById edges) sourceId start path ∧
        Returns jsonSha256 sourceId entitiesById edges (.ok path)) ∨
      ((∀ start ∈ entryIds entitiesById, ∀ path,
          ¬ EdgeChain (usableEdges entitiesById edges) start path sourceId) ∧
        Returns jsonSha256 sourceId entitiesById edges (.error
          ⟨"requested call surface lacks a deterministic public entry-to-source path"⟩)) := by
  have isOutgoing := isOutgoing_outgoingEdges jsonSha256 entitiesById distinct
  have increasing := increasing_entryIds entitiesById
  have notes := notes_foldl_insert (increasing.imp ne_of_lt)
  have usableDistinct : ((usableEdges entitiesById edges).map
      (modelReviewEdgeSubjectId jsonSha256)).Nodup :=
    (List.filter_sublist.map _).nodup distinct
  have run := fun turns (enough : (entryIds entitiesById).length +
      (usableEdges entitiesById edges).length ≤ turns) =>
    search_trace SolidityGraphEdge.targetId isOutgoing increasing notEntry notes enough
  by_cases someChain : ∃ start ∈ entryIds entitiesById, ∃ path,
      EdgeChain (usableEdges entitiesById edges) start path sourceId
  · obtain ⟨start, isStart, others, leads⟩ := someChain
    obtain ⟨_, -, ⟨-, least, path, chain, -⟩ | ⟨-, noChain⟩⟩ := run _ le_rfl
    · refine .inl ⟨least, path, chain, (entryIds entitiesById).length +
        (usableEdges entitiesById edges).length, fun turns enough => ?_⟩
      obtain ⟨found, searched, ⟨member, other, others, otherChain, traced⟩ | ⟨-, noChain⟩⟩ :=
        run turns enough
      · rw [deterministicEntryPath, if_neg notEntry]
        dsimp only
        rw [searched]
        dsimp only
        rw [if_neg (not_not_intro member), traced, chain.eq usableDistinct otherChain]
        rfl
      · exact absurd chain.leads (noChain least chain.isStart path)
    · exact absurd leads (noChain start isStart others)
  · refine .inr ⟨fun start isStart path leads => someChain ⟨start, isStart, path, leads⟩,
      (entryIds entitiesById).length + (usableEdges entitiesById edges).length,
      fun turns enough => ?_⟩
    obtain ⟨found, searched, ⟨-, other, others, chain, -⟩ | ⟨absent, -⟩⟩ := run turns enough
    · exact absurd ⟨other, chain.isStart, others, chain.leads⟩ someChain
    · rw [deterministicEntryPath, if_neg notEntry]
      dsimp only
      rw [searched]
      exact if_pos absent

/-! ## The result -/

theorem Returns.eq {result other : Except ContextBudgetError (List SolidityGraphEdge)}
    (returns : Returns jsonSha256 sourceId entitiesById edges result)
    (otherReturns : Returns jsonSha256 sourceId entitiesById edges other) : result = other := by
  obtain ⟨bound, run⟩ := returns
  obtain ⟨otherBound, otherRun⟩ := otherReturns
  have same := run (max bound otherBound) (le_max_left _ _)
  rw [otherRun (max bound otherBound) (le_max_right _ _)] at same
  exact (Option.some.inj same).symm

theorem returns_of_entry (entry : sourceId ∈ entryIds entitiesById) :
    Returns jsonSha256 sourceId entitiesById edges (.ok []) :=
  ⟨0, fun _ _ => if_pos entry⟩

/-- The least chain is the result. -/
theorem returns_of_least (distinct : (edges.map (modelReviewEdgeSubjectId jsonSha256)).Nodup)
    (notEntry : sourceId ∉ entryIds entitiesById) {start : String}
    {path : List SolidityGraphEdge}
    (chain : LeastChain SolidityGraphEdge.sourceId SolidityGraphEdge.targetId
      (modelReviewEdgeSubjectId jsonSha256) (entryIds entitiesById)
      (usableEdges entitiesById edges) sourceId start path) :
    Returns jsonSha256 sourceId entitiesById edges (.ok path) := by
  rcases deterministicEntryPath_spec jsonSha256 distinct notEntry with
    ⟨other, others, otherChain, returns⟩ | ⟨noChain, -⟩
  · have usableDistinct : ((usableEdges entitiesById edges).map
        (modelReviewEdgeSubjectId jsonSha256)).Nodup :=
      (List.filter_sublist.map _).nodup distinct
    rw [chain.eq usableDistinct otherChain]
    exact returns
  · exact absurd chain.leads (noChain start chain.isStart path)

/-- Without a chain the search fails. -/
theorem returns_of_noChain (distinct : (edges.map (modelReviewEdgeSubjectId jsonSha256)).Nodup)
    (notEntry : sourceId ∉ entryIds entitiesById)
    (noChain : ∀ start ∈ entryIds entitiesById, ∀ path,
      ¬ EdgeChain (usableEdges entitiesById edges) start path sourceId) :
    Returns jsonSha256 sourceId entitiesById edges (.error
      ⟨"requested call surface lacks a deterministic public entry-to-source path"⟩) := by
  rcases deterministicEntryPath_spec jsonSha256 distinct notEntry with
    ⟨start, path, chain, -⟩ | ⟨-, returns⟩
  · exact absurd chain.leads (noChain start chain.isStart path)
  · exact returns

/-- A map that has some of the entities. -/
def PartOf (part whole : EntityMap) : Prop :=
  ∀ key entity, part.entities.get? key = some entity → whole.entities.get? key = some entity

variable {part : EntityMap} {partEdges : List SolidityGraphEdge}

theorem PartOf.mem_iff (isPart : PartOf part entitiesById) {key : String}
    (kept : key ∈ part.entities) :
    key ∈ entryIds part ↔ key ∈ entryIds entitiesById := by
  obtain ⟨entity, stored⟩ := (Dict.mem_iff_exists_get? _ _).mp kept
  rw [mem_entryIds, mem_entryIds, stored, isPart key entity stored]

theorem PartOf.entryIds_subset (isPart : PartOf part entitiesById) :
    entryIds part ⊆ entryIds entitiesById := by
  intro key isEntryId
  obtain ⟨entity, stored, kind⟩ := mem_entryIds.mp isEntryId
  exact mem_entryIds.mpr ⟨entity, isPart key entity stored, kind⟩

theorem PartOf.usableEdges_subset (isPart : PartOf part entitiesById)
    (subset : partEdges ⊆ edges) :
    usableEdges part partEdges ⊆ usableEdges entitiesById edges := by
  have kept : ∀ {key}, key ∈ part.entities → key ∈ entitiesById.entities := by
    intro key member
    obtain ⟨entity, stored⟩ := (Dict.mem_iff_exists_get? _ _).mp member
    exact (Dict.mem_iff_exists_get? _ _).mpr ⟨entity, isPart key entity stored⟩
  intro edge member
  obtain ⟨listed, ends⟩ := List.mem_filter.mp member
  have usable := of_decide_eq_true ends
  exact List.mem_filter.mpr ⟨subset listed, decide_eq_true ⟨kept usable.1, kept usable.2⟩⟩

/-- A part that keeps the path has the same path. -/
theorem returns_part (distinct : (edges.map (modelReviewEdgeSubjectId jsonSha256)).Nodup)
    (partDistinct : (partEdges.map (modelReviewEdgeSubjectId jsonSha256)).Nodup)
    (isPart : PartOf part entitiesById) (subset : partEdges ⊆ edges)
    {path : List SolidityGraphEdge}
    (returns : Returns jsonSha256 sourceId entitiesById edges (.ok path))
    (sourceKept : sourceId ∈ part.entities)
    (pathKept : ∀ edge ∈ path, edge ∈ partEdges ∧ edge.sourceId ∈ part.entities ∧
      edge.targetId ∈ part.entities) :
    Returns jsonSha256 sourceId part partEdges (.ok path) := by
  by_cases entry : sourceId ∈ entryIds entitiesById
  · cases (returns_of_entry jsonSha256 entry).eq jsonSha256 returns
    exact returns_of_entry jsonSha256 ((isPart.mem_iff sourceKept).mpr entry)
  · have partNotEntry : sourceId ∉ entryIds part := fun partEntry =>
      entry ((isPart.mem_iff sourceKept).mp partEntry)
    rcases deterministicEntryPath_spec jsonSha256 distinct entry with
      ⟨start, others, chain, otherReturns⟩ | ⟨-, fails⟩
    · cases otherReturns.eq jsonSha256 returns
      have startKept : start ∈ part.entities := by
        cases path with
        | nil =>
            have same : start = sourceId := chain.leads
            rw [same]
            exact sourceKept
        | cons edge path =>
            rw [← chain.leads.2.1]
            exact (pathKept edge List.mem_cons_self).2.1
      have listed : ∀ edge ∈ path, edge ∈ usableEdges part partEdges := fun edge member =>
        List.mem_filter.mpr ⟨(pathKept edge member).1, decide_eq_true (pathKept edge member).2⟩
      have partChain : LeastChain SolidityGraphEdge.sourceId SolidityGraphEdge.targetId
          (modelReviewEdgeSubjectId jsonSha256) (entryIds part) (usableEdges part partEdges)
          sourceId start path := by
        refine ⟨(isPart.mem_iff startKept).mpr chain.isStart, chain.leads.of_mem listed, ?_⟩
        intro other isStart others leads
        exact chain.least other (isPart.entryIds_subset isStart) others
          (leads.of_mem fun edge member =>
            isPart.usableEdges_subset subset (leads.mem edge member))
      exact returns_of_least jsonSha256 partDistinct partNotEntry partChain
    · cases fails.eq jsonSha256 returns

/-- What the result is: nothing for an entry, else a shortest chain from an entry, and an error
when there is none. -/
def IsEntryPath (sourceId : String) (entitiesById : EntityMap) (edges : List SolidityGraphEdge) :
    Except ContextBudgetError (List SolidityGraphEdge) → Prop
  | .ok path => sourceId ∈ entryIds entitiesById ∧ path = [] ∨
      sourceId ∉ entryIds entitiesById ∧ ∃ start ∈ entryIds entitiesById,
        EdgeChain (usableEdges entitiesById edges) start path sourceId ∧
          ∀ other ∈ entryIds entitiesById, ∀ others,
            EdgeChain (usableEdges entitiesById edges) other others sourceId →
              path.length ≤ others.length
  | .error failure =>
      failure.message =
          "requested call surface lacks a deterministic public entry-to-source path" ∧
        sourceId ∉ entryIds entitiesById ∧ ∀ start ∈ entryIds entitiesById, ∀ path,
          ¬ EdgeChain (usableEdges entitiesById edges) start path sourceId

theorem isEntryPath_of_returns (sourceId : String) (entitiesById : EntityMap)
    (distinct : (edges.map (modelReviewEdgeSubjectId jsonSha256)).Nodup) :
    ∃ result, Returns jsonSha256 sourceId entitiesById edges result ∧
      IsEntryPath sourceId entitiesById edges result := by
  by_cases entry : sourceId ∈ entryIds entitiesById
  · exact ⟨.ok [], returns_of_entry jsonSha256 entry, .inl ⟨entry, rfl⟩⟩
  · rcases deterministicEntryPath_spec jsonSha256 distinct entry with
      ⟨start, path, chain, returns⟩ | ⟨noChain, returns⟩
    · exact ⟨.ok path, returns, .inr ⟨entry, start, chain.isStart, chain.leads,
        fun other isStart others leads => chain.length_le isStart leads⟩⟩
    · exact ⟨_, returns, rfl, entry, noChain⟩

/-- The edges in another order have the same result. -/
theorem returns_perm (distinct : (edges.map (modelReviewEdgeSubjectId jsonSha256)).Nodup)
    {arrangement : List SolidityGraphEdge} (perm : arrangement.Perm edges)
    {result : Except ContextBudgetError (List SolidityGraphEdge)}
    (returns : Returns jsonSha256 sourceId entitiesById edges result) :
    Returns jsonSha256 sourceId entitiesById arrangement result := by
  have arrangedDistinct := (perm.map (modelReviewEdgeSubjectId jsonSha256)).nodup_iff.mpr distinct
  have sameUsable : ∀ edge, edge ∈ usableEdges entitiesById edges ↔
      edge ∈ usableEdges entitiesById arrangement := fun edge =>
    (perm.filter _).mem_iff.symm
  by_cases entry : sourceId ∈ entryIds entitiesById
  · rw [returns.eq jsonSha256 (returns_of_entry jsonSha256 entry)]
    exact returns_of_entry jsonSha256 entry
  · rcases deterministicEntryPath_spec jsonSha256 distinct entry with
      ⟨start, path, chain, least⟩ | ⟨noChain, fails⟩
    · rw [returns.eq jsonSha256 least]
      have arrangedChain : LeastChain SolidityGraphEdge.sourceId SolidityGraphEdge.targetId
          (modelReviewEdgeSubjectId jsonSha256) (entryIds entitiesById)
          (usableEdges entitiesById arrangement) sourceId start path :=
        ⟨chain.isStart,
          chain.leads.of_mem fun edge member => (sameUsable edge).mp (chain.leads.mem edge member),
          fun other isStart others leads => chain.least other isStart others
            (leads.of_mem fun edge member => (sameUsable edge).mpr (leads.mem edge member))⟩
      exact returns_of_least jsonSha256 arrangedDistinct entry arrangedChain
    · rw [returns.eq jsonSha256 fails]
      exact returns_of_noChain jsonSha256 arrangedDistinct entry fun start isStart path leads =>
        noChain start isStart path
          (leads.of_mem fun edge member => (sameUsable edge).mpr (leads.mem edge member))

/-- The entry path is a shortest chain of edges between entities, it does not depend on the order
of the edges, and every part of the graph that keeps it has the same entry path. -/
theorem entry_path_is_stable (sourceId : String) (entitiesById : EntityMap)
    (distinct : (edges.map (modelReviewEdgeSubjectId jsonSha256)).Nodup) :
    ∃ result, Returns jsonSha256 sourceId entitiesById edges result ∧
      IsEntryPath sourceId entitiesById edges result ∧
      (∀ arrangement : List SolidityGraphEdge, arrangement.Perm edges →
        Returns jsonSha256 sourceId entitiesById arrangement result) ∧
      ∀ path, result = .ok path → ∀ (part : EntityMap) (partEdges : List SolidityGraphEdge),
        PartOf part entitiesById → partEdges ⊆ edges →
        (partEdges.map (modelReviewEdgeSubjectId jsonSha256)).Nodup →
        sourceId ∈ part.entities →
        (∀ edge ∈ path, edge ∈ partEdges ∧ edge.sourceId ∈ part.entities ∧
          edge.targetId ∈ part.entities) →
        Returns jsonSha256 sourceId part partEdges (.ok path) := by
  obtain ⟨result, returns, isPath⟩ :=
    isEntryPath_of_returns jsonSha256 sourceId entitiesById distinct
  refine ⟨result, returns, isPath, fun arrangement perm =>
    returns_perm jsonSha256 distinct perm returns, ?_⟩
  rintro path rfl part partEdges isPart subset partDistinct sourceKept pathKept
  exact returns_part jsonSha256 distinct partDistinct isPart subset returns sourceKept pathKept

end Paths

/-! ## A chain through an unknown node -/

/-- The texts of a JSON object, one after the other. -/
def plainJson : JsonSha256
  | .object fields => String.ofList (fields.flatMap fun field =>
      match field.2 with
      | .string text => text
      | _ => [])
  | _ => ""

def callEdge (sourceId targetId : String) : SolidityGraphEdge where
  graph := .internalCall
  sourceId := sourceId
  targetId := targetId
  label := "call"
  path := "Vault.sol"
  startLine := 3
  endLine := 3
  sourceHash := "a"
  metadata := .object []

/-- A public function and an internal one. -/
def twoFunctions : EntityMap where
  entities := ⟨[("deposit", ⟨"deposit", .function, some "public"⟩),
    ("credit", ⟨"credit", .function, some "internal"⟩)], by decide⟩
  keyed := by decide

/-- The only chain from the entry to the source passes a node that is no entity. -/
theorem chain_through_unknown_node_is_ignored :
    "deposit" ∈ entryIds twoFunctions ∧
      EdgeChain [callEdge "deposit" "library", callEdge "library" "credit"] "deposit"
        [callEdge "deposit" "library", callEdge "library" "credit"] "credit" ∧
      ([callEdge "deposit" "library", callEdge "library" "credit"].map
        (modelReviewEdgeSubjectId plainJson)).Nodup ∧
      Returns plainJson "credit" twoFunctions
        [callEdge "deposit" "library", callEdge "library" "credit"] (.error
          ⟨"requested call surface lacks a deterministic public entry-to-source path"⟩) := by
  have distinct : ([callEdge "deposit" "library", callEdge "library" "credit"].map
      (modelReviewEdgeSubjectId plainJson)).Nodup := by
    decide +kernel
  have notEntry : "credit" ∉ entryIds twoFunctions := by
    decide +kernel
  have unusable : usableEdges twoFunctions
      [callEdge "deposit" "library", callEdge "library" "credit"] = [] := by
    refine List.length_eq_zero_iff.mp ?_
    decide +kernel
  refine ⟨by decide +kernel, ?_, distinct, ?_⟩
  · exact ⟨List.mem_cons_self, rfl, List.mem_cons_of_mem _ List.mem_cons_self, rfl, rfl⟩
  · refine returns_of_noChain plainJson distinct notEntry fun start isStart path leads => ?_
    rw [unusable] at leads
    cases path with
    | nil =>
        have same : start = "credit" := leads
        exact notEntry (same ▸ isStart)
    | cons edge path => exact absurd leads.1 List.not_mem_nil

/-- The path of a direct call. -/
theorem entry_path_of_direct_call :
    ∃ result, Returns plainJson "credit" twoFunctions [callEdge "deposit" "credit"] result ∧
      IsEntryPath "credit" twoFunctions [callEdge "deposit" "credit"] result := by
  have distinct : ([callEdge "deposit" "credit"].map (modelReviewEdgeSubjectId plainJson)).Nodup := by
    decide +kernel
  obtain ⟨result, returns, isPath, -⟩ :=
    entry_path_is_stable plainJson "credit" twoFunctions distinct
  exact ⟨result, returns, isPath⟩

end Context

end MmAudit
