import MmAudit.Review.ReviewGraph

/-!
# The verdict on reachability

A surface is reached when the tokens of the citations can be chosen such that they form a walk
from the entry token to a token of the surface.  A function is joined to its contract by the
name alone, the frontier is taken out of the next tokens, and the only token of a path need not
be the entry token.  The verdict is exact where none of the three makes a difference.
-/

namespace MmAudit

namespace Review

open Context Fallible LayeredSearch

/-! ## Reaching a surface -/

/-- The contract of a function: of its file, with the name it gives and around its lines. -/
structure IsContractOf (contract function : ReviewEntity) : Prop where
  kind : isContractKind contract.kind = true
  name : function.contractName = some contract.name
  path : contract.path = function.path
  around : contract.startLine ≤ function.startLine ∧ function.endLine ≤ contract.endLine

/-- The steps of the reference relation. -/
inductive Step (edgeDigest : SolidityGraphEdge → String) (artifacts : Artifacts) :
    Token → Token → Prop where
  | across (edge : SolidityGraphEdge) (member : edge ∈ artifacts.edges) :
      Step edgeDigest artifacts (.identity edge.sourceId) (.identity edge.targetId)
  | intoEdge (edge : SolidityGraphEdge) (member : edge ∈ artifacts.edges) :
      Step edgeDigest artifacts (.identity edge.sourceId) (edgeToken edgeDigest edge)
  | fromEdge (edge : SolidityGraphEdge) (member : edge ∈ artifacts.edges) :
      Step edgeDigest artifacts (edgeToken edgeDigest edge) (.identity edge.targetId)
  | intoContract (function contract : ReviewEntity) (member : function ∈ artifacts.entities)
      (isFunction : isFunctionKind function.kind = true) (listed : contract ∈ artifacts.entities)
      (isContract : IsContractOf contract function) :
      Step edgeDigest artifacts (.identity function.id) (.identity contract.id)

section Verdict

variable (normalized : List Char → List Char) (edgeDigest : SolidityGraphEdge → String)
  (artifacts : Artifacts) (request : ModelSurfaceReviewRequest String)

/-- The one entry token of the citation of the entry point. -/
def IsEntryToken (reachability : ModelSurfaceReviewReachability) (entry : Token) : Prop :=
  let graph := buildDeterministicReviewGraph normalized edgeDigest artifacts
  resolveCitation normalized graph reachability.entryPoint ∩ graph.entryTokens = {entry}

/-- A walk from the entry token through the tokens of the citations to the surface; only some
surfaces are reached without a step. -/
def ReachesSurface (record : Option ModelSurfaceReviewReachability) : Prop :=
  let graph := buildDeterministicReviewGraph normalized edgeDigest artifacts
  ∃ reachability entry tokens layers, record = some reachability ∧
    IsEntryToken normalized edgeDigest artifacts reachability entry ∧
    pathLayers normalized graph request reachability.path = tokens :: layers ∧
    entry ∈ tokens ∧
    (∃ finish ∈ expectedSurfaceTokens graph request,
      Walks (Step edgeDigest artifacts) entry layers finish) ∧
    (layers = [] → isDirectEntrySurface request.kind = true)

/-- The name of a function's contract leads to the contract of the function, and to no other. -/
def ContractsByName : Prop :=
  ∀ function ∈ artifacts.entities, isFunctionKind function.kind = true →
    ∀ token, contractTokenOf artifacts.entities function = some token ↔
      ∃ contract ∈ artifacts.entities, IsContractOf contract function ∧
        token = .identity contract.id

theorem lawfulBEq_edge : LawfulBEq (Token × Token) :=
  inferInstance

attribute [local instance] lawfulBEq_edge

/-- Where the three differences do not matter: an entry point that alone stands for the surface
is the cited one; names lead to contracts, and no step leads from a token that walks reach to
another one that they reach with as many citations and that the next citation resolves to too. -/
def FollowsWalks (reachability : ModelSurfaceReviewReachability) : Prop :=
  let graph := buildDeterministicReviewGraph normalized edgeDigest artifacts
  ∀ entry, IsEntryToken normalized edgeDigest artifacts reachability entry →
    match pathLayers normalized graph request reachability.path with
    | [] => True
    | [tokens] =>
        isDirectEntrySurface request.kind = true →
          (∃ token ∈ tokens, token ∈ graph.entryTokens ∧
            token ∈ expectedSurfaceTokens graph request) →
          entry ∈ expectedSurfaceTokens graph request
    | _ :: layers =>
        ContractsByName artifacts ∧
          Separated (fun source target => (source, target) ∈ graph.adjacency) {entry} layers

end Verdict

/-! ## The relation of the graph -/

section Relation

variable {normalized : List Char → List Char} {edgeDigest : SolidityGraphEdge → String}
  {artifacts : Artifacts}

theorem mem_adjacency_iff {source target : Token} :
    (source, target) ∈ (buildDeterministicReviewGraph normalized edgeDigest artifacts).adjacency ↔
      (∃ edge ∈ artifacts.edges, (source, target) ∈ edgeSteps edgeDigest edge) ∨
        ∃ function ∈ artifacts.entities, isFunctionKind function.kind = true ∧
          source = .identity function.id ∧
          contractTokenOf artifacts.entities function = some target := by
  have contracts : (source, target) ∈ contractSteps artifacts.entities ↔
      ∃ function ∈ artifacts.entities, isFunctionKind function.kind = true ∧
        source = .identity function.id ∧
        contractTokenOf artifacts.entities function = some target := by
    simp only [contractSteps, List.mem_filterMap, List.mem_filter, Option.map_eq_some_iff,
      Prod.mk.injEq]
    constructor
    · rintro ⟨function, ⟨member, isFunction⟩, token, joined, rfl, rfl⟩
      exact ⟨function, member, isFunction, rfl, joined⟩
    · rintro ⟨function, member, isFunction, rfl, joined⟩
      exact ⟨function, ⟨member, isFunction⟩, target, joined, rfl, rfl⟩
  rw [buildDeterministicReviewGraph]
  dsimp only
  rw [List.mem_append, List.mem_flatMap, contracts]

theorem adjacency_eq_step (normalized : List Char → List Char)
    (byName : ContractsByName artifacts) :
    (fun source target => (source, target) ∈
      (buildDeterministicReviewGraph normalized edgeDigest artifacts).adjacency) =
        Step edgeDigest artifacts := by
  funext source target
  refine propext (mem_adjacency_iff.trans ⟨?_, ?_⟩)
  · rintro (⟨edge, member, steps⟩ | ⟨function, member, isFunction, rfl, joined⟩)
    · simp only [edgeSteps, List.mem_cons, Prod.mk.injEq, List.not_mem_nil, or_false] at steps
      rcases steps with ⟨rfl, rfl⟩ | ⟨rfl, rfl⟩ | ⟨rfl, rfl⟩
      · exact .across edge member
      · exact .intoEdge edge member
      · exact .fromEdge edge member
    · obtain ⟨contract, listed, isContract, rfl⟩ :=
        (byName function member isFunction target).mp joined
      exact .intoContract function contract member isFunction listed isContract
  · rintro (⟨edge, member⟩ | ⟨edge, member⟩ | ⟨edge, member⟩ |
      ⟨function, contract, member, isFunction, listed, isContract⟩)
    · exact .inl ⟨edge, member, by simp [edgeSteps]⟩
    · exact .inl ⟨edge, member, by simp [edgeSteps]⟩
    · exact .inl ⟨edge, member, by simp [edgeSteps]⟩
    · exact .inr ⟨function, member, isFunction, rfl,
        (byName function member isFunction _).mpr ⟨contract, listed, isContract, rfl⟩⟩

end Relation

/-! ## The loops -/

section Loops

variable {graph : DeterministicReviewGraph} {request : ModelSurfaceReviewRequest String}

theorem requireResolved_eq_ok_iff (position : ℕ) (layers : List (Finset Token)) :
    requireResolved request position layers = .ok () ↔ ∀ tokens ∈ layers, tokens ≠ ∅ := by
  induction layers generalizing position with
  | nil => simp [requireResolved]
  | cons tokens layers ih =>
      rw [requireResolved, raiseIf_bind_eq_ok_iff, ih, List.forall_mem_cons]

theorem foldl_advance_empty {step : Token → Token → Prop} [DecidableRel step]
    (layers : List (Finset Token)) : layers.foldl (advance step) ∅ = ∅ := by
  induction layers with
  | nil => rfl
  | cons layer layers ih =>
      have none_ : advance step ∅ layer = ∅ := by simp [advance]
      rw [List.foldl_cons, none_, ih]

theorem followPath_eq_ok {position : ℕ} {frontier finish : Finset Token}
    {layers : List (Finset Token)}
    (follows : followPath graph request position frontier layers = .ok finish) :
    layers.foldl (advance fun source target => (source, target) ∈ graph.adjacency) frontier =
      finish := by
  induction layers generalizing position frontier with
  | nil => exact Except.ok.inj follows
  | cons tokens layers ih =>
      rw [followPath, raiseIf_bind_eq_ok_iff, raiseIf_bind_eq_ok_iff] at follows
      exact ih follows.2.2

/-- The loop goes through where something is kept to the end. -/
theorem followPath_of_nonempty (position : ℕ) {frontier : Finset Token}
    {layers : List (Finset Token)}
    (kept : layers.foldl (advance fun source target => (source, target) ∈ graph.adjacency)
      frontier ≠ ∅) :
    followPath graph request position frontier layers =
      .ok (layers.foldl (advance fun source target => (source, target) ∈ graph.adjacency)
        frontier) := by
  induction layers generalizing position frontier with
  | nil => rfl
  | cons tokens layers ih =>
      rw [List.foldl_cons] at kept ⊢
      have next : advance (fun source target => (source, target) ∈ graph.adjacency) frontier
          tokens ≠ ∅ := by
        intro none_
        rw [none_, foldl_advance_empty] at kept
        exact kept rfl
      have fresh : tokens \ frontier ≠ ∅ := by
        intro none_
        refine next ?_
        rw [advance, none_, Finset.filter_empty]
      rw [followPath, raiseIf_bind_of_not fresh, raiseIf_bind_of_not next, ih _ kept]

end Loops

section Walks

variable {step : Token → Token → Prop}

theorem ne_empty_of_walks {start finish : Token} {layers : List (Finset Token)}
    (walks : Walks step start layers finish) : ∀ tokens ∈ layers, tokens ≠ ∅ := by
  induction layers generalizing start with
  | nil => exact fun tokens member => nomatch member
  | cons layer layers ih =>
      obtain ⟨next, listed, -, -, later⟩ := walks
      exact List.forall_mem_cons.mpr ⟨Finset.ne_empty_of_mem listed, ih later⟩

/-- A walk with a step ends in the last layer. -/
theorem mem_getLastD_of_walks {start finish : Token} {layers : List (Finset Token)}
    (walks : Walks step start layers finish) {first : Finset Token} (member : start ∈ first) :
    finish ∈ (first :: layers).getLastD ∅ := by
  induction layers generalizing start first with
  | nil =>
      obtain rfl : start = finish := walks
      exact member
  | cons layer layers ih =>
      obtain ⟨next, listed, -, -, later⟩ := walks
      exact ih later listed

end Walks

/-! ## The verdict -/

section Verdict

variable {normalized : List Char → List Char} {edgeDigest : SolidityGraphEdge → String}
  {artifacts : Artifacts} {request : ModelSurfaceReviewRequest String}
  {reachability : ModelSurfaceReviewReachability} {entry : Token}

theorem reachabilityFailures_eq_nil_iff (graph : DeterministicReviewGraph)
    (record : Option ModelSurfaceReviewReachability) :
    reachabilityFailures normalized graph request record = [] ↔
      checkReachability normalized graph request record = .ok () := by
  unfold reachabilityFailures
  cases checkReachability normalized graph request record with
  | ok done => simp
  | error failure => simp

attribute [local instance] lawfulBEq_edge

/-- What the last checks demand of the first tokens and of those after them. -/
def PathEnds (graph : DeterministicReviewGraph) (request : ModelSurfaceReviewRequest String)
    (entry : Token) (first : Finset Token) : List (Finset Token) → Prop
  | [] => isDirectEntrySurface request.kind = true ∧
      (first ∩ expectedSurfaceTokens graph request ∩ graph.entryTokens).Nonempty
  | next :: layers => (((next :: layers).foldl
      (advance fun source target => (source, target) ∈ graph.adjacency) {entry}) ∩
        expectedSurfaceTokens graph request).Nonempty

/-- The checks of a path that begins with some tokens. -/
theorem checkReachability_eq_ok_iff {graph : DeterministicReviewGraph} {first : Finset Token}
    {layers : List (Finset Token)}
    (entries : resolveCitation normalized graph reachability.entryPoint ∩ graph.entryTokens =
      {entry})
    (path : pathLayers normalized graph request reachability.path = first :: layers) :
    checkReachability normalized graph request (some reachability) = .ok () ↔
      (∀ tokens ∈ first :: layers, tokens ≠ ∅) ∧ entry ∈ first ∧
        ((first :: layers).getLastD ∅ ∩ expectedSurfaceTokens graph request).Nonempty ∧
        PathEnds graph request entry first layers := by
  have begins : ¬first ∩ {entry} = ∅ ↔ entry ∈ first := by
    rw [← ne_eq, ← Finset.nonempty_iff_ne_empty, Finset.Nonempty]
    simp
  have ends : ¬(expectedSurfaceTokens graph request = ∅ ∨
      (first :: layers).getLastD ∅ ∩ expectedSurfaceTokens graph request = ∅) ↔
        ((first :: layers).getLastD ∅ ∩ expectedSurfaceTokens graph request).Nonempty := by
    rw [not_or, ← ne_eq, ← ne_eq, ← Finset.nonempty_iff_ne_empty, ← Finset.nonempty_iff_ne_empty]
    exact ⟨fun both => both.2, fun some_ => ⟨some_.mono Finset.inter_subset_right, some_⟩⟩
  unfold checkReachability
  dsimp only
  rw [entries, path, raiseIf_bind_of_not (by simp), check_bind_eq_ok_iff,
    requireResolved_eq_ok_iff, raiseIf_bind_eq_ok_iff, raiseIf_bind_eq_ok_iff, List.headD_cons,
    begins, ends]
  refine and_congr_right fun resolved => and_congr_right fun isFirst => and_congr_right fun _ => ?_
  cases layers with
  | nil =>
      dsimp only
      rw [PathEnds, raiseIf_eq_ok_iff, not_or, Bool.not_eq_false, ← ne_eq,
        ← Finset.nonempty_iff_ne_empty]
  | cons next layers =>
      dsimp only
      rw [PathEnds, Finset.inter_singleton_of_mem isFirst]
      constructor
      · intro accepted
        obtain ⟨frontier, follows, kept⟩ := bind_eq_ok_iff.mp accepted
        rw [raiseIf_eq_ok_iff, ← ne_eq, ← Finset.nonempty_iff_ne_empty] at kept
        rwa [followPath_eq_ok follows]
      · intro kept
        have some_ := (kept.mono Finset.inter_subset_left).ne_empty
        rw [bind_of_ok (followPath_of_nonempty 1 some_), raiseIf_eq_ok_iff]
        exact kept.ne_empty

/-- The path begins with the tokens of the entry point. -/
theorem exists_pathLayers (request : ModelSurfaceReviewRequest String)
    (isEntry : IsEntryToken normalized edgeDigest artifacts reachability entry) :
    ∃ first layers, pathLayers normalized
        (buildDeterministicReviewGraph normalized edgeDigest artifacts) request reachability.path =
      first :: layers ∧ entry ∈ first := by
  have starts := reachability.entryStartsPath
  cases path : reachability.path with
  | nil =>
      rw [path] at starts
      cases starts
  | cons citation citations =>
      rw [path, List.head?_cons, Option.some.injEq] at starts
      refine ⟨_, _, rfl, ?_⟩
      have member : entry ∈ resolveCitation normalized
          (buildDeterministicReviewGraph normalized edgeDigest artifacts) citation := by
        rw [starts]
        exact (Finset.mem_inter.mp (isEntry ▸ Finset.mem_singleton_self entry)).1
      unfold pathTokens
      dsimp only
      split
      · split
        · exact Finset.mem_union_left _ member
        · exact member
      · exact member

/-- Reaching a surface from a given entry token through given layers. -/
theorem reachesSurface_iff
    (isEntry : IsEntryToken normalized edgeDigest artifacts reachability entry)
    {first : Finset Token} {layers : List (Finset Token)}
    (path : pathLayers normalized (buildDeterministicReviewGraph normalized edgeDigest artifacts)
      request reachability.path = first :: layers) (isFirst : entry ∈ first) :
    ReachesSurface normalized edgeDigest artifacts request (some reachability) ↔
      (∃ finish ∈ expectedSurfaceTokens
          (buildDeterministicReviewGraph normalized edgeDigest artifacts) request,
        Walks (Step edgeDigest artifacts) entry layers finish) ∧
        (layers = [] → isDirectEntrySurface request.kind = true) := by
  constructor
  · rintro ⟨other, entry', tokens, layers', same, isEntry', path', -, walks, direct⟩
    cases same
    obtain ⟨rfl, rfl⟩ := List.cons.inj (path.symm.trans path')
    obtain rfl : entry = entry' := Finset.singleton_injective (isEntry.symm.trans isEntry')
    exact ⟨walks, direct⟩
  · rintro ⟨walks, direct⟩
    exact ⟨reachability, entry, first, layers, rfl, isEntry, path, isFirst, walks, direct⟩

/-- Without one entry token there is a failure, and nothing is reached. -/
theorem checkReachability_ne_ok {graph : DeterministicReviewGraph}
    (none_ : ∀ entry, resolveCitation normalized graph reachability.entryPoint ∩ graph.entryTokens ≠
      {entry}) :
    checkReachability normalized graph request (some reachability) ≠ .ok () := by
  intro accepted
  unfold checkReachability at accepted
  rw [raiseIf_bind_eq_ok_iff, not_not] at accepted
  obtain ⟨entry, one⟩ := Finset.card_eq_one.mp accepted.1
  exact none_ entry one

/-- For one citation the verdict is exact exactly when the entry token is the surface, where any
entry token is. -/
theorem singleCitation_exact_iff
    (isEntry : IsEntryToken normalized edgeDigest artifacts reachability entry)
    {first : Finset Token}
    (path : pathLayers normalized (buildDeterministicReviewGraph normalized edgeDigest artifacts)
      request reachability.path = [first]) (isFirst : entry ∈ first) :
    (reachabilityFailures normalized (buildDeterministicReviewGraph normalized edgeDigest artifacts)
        request (some reachability) = [] ↔
      ReachesSurface normalized edgeDigest artifacts request (some reachability)) ↔
      FollowsWalks normalized edgeDigest artifacts request reachability := by
  have follows : FollowsWalks normalized edgeDigest artifacts request reachability ↔
      (isDirectEntrySurface request.kind = true →
        (∃ token ∈ first, token ∈ (buildDeterministicReviewGraph normalized edgeDigest
            artifacts).entryTokens ∧
          token ∈ expectedSurfaceTokens (buildDeterministicReviewGraph normalized edgeDigest
            artifacts) request) →
        entry ∈ expectedSurfaceTokens (buildDeterministicReviewGraph normalized edgeDigest
          artifacts) request) := by
    unfold FollowsWalks
    dsimp only
    rw [path]
    constructor
    · exact fun all => all entry isEntry
    · intro holds entry' isEntry'
      obtain rfl : entry = entry' := Finset.singleton_injective (isEntry.symm.trans isEntry')
      exact holds
  rw [follows, reachabilityFailures_eq_nil_iff, checkReachability_eq_ok_iff isEntry path,
    reachesSurface_iff isEntry path isFirst]
  have inEntries := (Finset.mem_inter.mp (isEntry ▸ Finset.mem_singleton_self entry)).2
  generalize buildDeterministicReviewGraph normalized edgeDigest artifacts = graph at *
  have accepted : ((∀ tokens ∈ [first], tokens ≠ ∅) ∧ entry ∈ first ∧
      ([first].getLastD ∅ ∩ expectedSurfaceTokens graph request).Nonempty ∧
        PathEnds graph request entry first []) ↔
      isDirectEntrySurface request.kind = true ∧ ∃ token ∈ first, token ∈ graph.entryTokens ∧
        token ∈ expectedSurfaceTokens graph request := by
    constructor
    · rintro ⟨-, -, -, direct, token, member⟩
      obtain ⟨both, isEntryToken⟩ := Finset.mem_inter.mp member
      obtain ⟨listed, expected⟩ := Finset.mem_inter.mp both
      exact ⟨direct, token, listed, isEntryToken, expected⟩
    · rintro ⟨direct, token, listed, isEntryToken, expected⟩
      have both := Finset.mem_inter.mpr ⟨listed, expected⟩
      refine ⟨fun tokens same => ?_, isFirst, ⟨token, both⟩, direct, token,
        Finset.mem_inter.mpr ⟨both, isEntryToken⟩⟩
      obtain rfl := List.mem_singleton.mp same
      exact Finset.ne_empty_of_mem isFirst
  have reached : ((∃ finish ∈ expectedSurfaceTokens graph request,
      Walks (Step edgeDigest artifacts) entry [] finish) ∧
        (([] : List (Finset Token)) = [] → isDirectEntrySurface request.kind = true)) ↔
      entry ∈ expectedSurfaceTokens graph request ∧ isDirectEntrySurface request.kind = true := by
    constructor
    · rintro ⟨⟨finish, expected, rfl⟩, direct⟩
      exact ⟨expected, direct rfl⟩
    · rintro ⟨expected, direct⟩
      exact ⟨⟨entry, expected, rfl⟩, fun _ => direct⟩
  rw [accepted, reached]
  constructor
  · intro exact_ direct some_
    exact (exact_.mp ⟨direct, some_⟩).1
  · intro holds
    constructor
    · exact fun ⟨direct, some_⟩ => ⟨holds direct some_, direct⟩
    · exact fun ⟨expected, direct⟩ => ⟨direct, entry, isFirst, inEntries, expected⟩

/-- After some citations the search is where walks along them end, exactly where it follows the
walks: the condition leaves out no path on which the search loses nothing. -/
theorem separated_iff_keepsEnds (graph : DeterministicReviewGraph) (entry : Token)
    (layers : List (Finset Token)) :
    Separated (fun source target => (source, target) ∈ graph.adjacency) {entry} layers ↔
      ∀ number finish, finish ∈ (layers.take number).foldl
          (advance fun source target => (source, target) ∈ graph.adjacency) {entry} ↔
        Walks (fun source target => (source, target) ∈ graph.adjacency) entry
          (layers.take number) finish := by
  rw [← foldl_advance_eq_iff]
  constructor
  · intro same number finish
    rw [same number, mem_foldl_ends_iff]
    simp
  · intro kept number
    ext finish
    rw [kept number finish, mem_foldl_ends_iff]
    simp

/-- Where the search follows the walks, its verdict is exact. -/
theorem exact_of_separated
    (isEntry : IsEntryToken normalized edgeDigest artifacts reachability entry)
    {first next : Finset Token} {layers : List (Finset Token)}
    (path : pathLayers normalized (buildDeterministicReviewGraph normalized edgeDigest artifacts)
      request reachability.path = first :: next :: layers) (isFirst : entry ∈ first)
    (byName : ContractsByName artifacts)
    (separated : Separated (fun source target => (source, target) ∈
      (buildDeterministicReviewGraph normalized edgeDigest artifacts).adjacency) {entry}
        (next :: layers)) :
    reachabilityFailures normalized (buildDeterministicReviewGraph normalized edgeDigest artifacts)
        request (some reachability) = [] ↔
      ReachesSurface normalized edgeDigest artifacts request (some reachability) := by
  rw [reachabilityFailures_eq_nil_iff, checkReachability_eq_ok_iff isEntry path,
    reachesSurface_iff isEntry path isFirst, ← adjacency_eq_step normalized byName]
  have ends : ∀ finish, finish ∈ (next :: layers).foldl (advance fun source target =>
      (source, target) ∈ (buildDeterministicReviewGraph normalized edgeDigest
        artifacts).adjacency) {entry} ↔
      Walks (fun source target => (source, target) ∈ (buildDeterministicReviewGraph normalized
        edgeDigest artifacts).adjacency) entry (next :: layers) finish := by
    intro finish
    rw [mem_foldl_advance_iff separated]
    simp
  constructor
  · rintro ⟨-, -, -, finish, member⟩
    obtain ⟨kept, expected⟩ := Finset.mem_inter.mp member
    exact ⟨⟨finish, expected, (ends finish).mp kept⟩, fun none_ => nomatch none_⟩
  · rintro ⟨⟨finish, expected, walks⟩, -⟩
    have resolved : ∀ tokens ∈ first :: next :: layers, tokens ≠ ∅ :=
      List.forall_mem_cons.mpr ⟨Finset.ne_empty_of_mem isFirst, ne_empty_of_walks walks⟩
    have inLast := Finset.mem_inter.mpr ⟨mem_getLastD_of_walks walks isFirst, expected⟩
    have kept := Finset.mem_inter.mpr ⟨(ends finish).mpr walks, expected⟩
    exact ⟨resolved, isFirst, ⟨finish, inLast⟩, finish, kept⟩

theorem length_pathLayers (normalized : List Char → List Char) (graph : DeterministicReviewGraph)
    (request : ModelSurfaceReviewRequest String) (path : List ModelSurfaceReviewCitation) :
    (pathLayers normalized graph request path).length = path.length := by
  induction path with
  | nil => rfl
  | cons citation path ih => rw [pathLayers, List.length_cons, List.length_cons, ih]

def contractEntity (id path : String) : ReviewEntity where
  id := id
  kind := .contract
  name := "Vault"
  contractName := none
  path := path.toList
  startLine := 1
  endLine := 9
  sourceHash := ""
  visibility := none
  signature := none

def runFunction : ReviewEntity where
  id := "function:run"
  kind := .function
  name := "run"
  contractName := some "Vault"
  path := "A.sol".toList
  startLine := 3
  endLine := 5
  sourceHash := ""
  visibility := some "public"
  signature := some "run()"

def vaultArtifacts (others : List ReviewEntity) : Artifacts where
  entities := contractEntity "contract:a" "A.sol" :: runFunction :: others
  nodes := []
  edges := []

def contractRequest (id : String) : ModelSurfaceReviewRequest String where
  surfaceId := "model-surface:" ++ String.ofList (List.replicate 64 '0')
  kind := .contract
  subjectId := id
  contract := "Vault"
  functionOrStateSurface := "Vault"
  critical := false
  allowedLocations := []
  allowedSymbols := [id]
  invariantConsidered := "accounting"
  priority := .standard
  coverageGapIds := []
  stableId := by decide +kernel
  gapsElevate := by decide

def symbolCitation (symbol : String) : ModelSurfaceReviewCitation where
  location := none
  symbol := some symbol.toList

def intoContract (id : String) : ModelSurfaceReviewReachability where
  entryPoint := symbolCitation "function:run"
  path := [symbolCitation "function:run", symbolCitation id]
  entryStartsPath := rfl

/-- The graph of the contract around the function and of others. -/
def vaultGraph (others : List ReviewEntity) : DeterministicReviewGraph :=
  buildDeterministicReviewGraph id (fun _ => "") (vaultArtifacts others)

theorem contractsByName_vaultArtifacts : ContractsByName (vaultArtifacts []) := by
  intro function member isFunction token
  have entities : (vaultArtifacts []).entities =
      [contractEntity "contract:a" "A.sol", runFunction] := rfl
  rw [entities, List.mem_cons, List.mem_singleton] at member
  rcases member with rfl | rfl
  · cases isFunction
  · have joined : contractTokenOf (vaultArtifacts []).entities runFunction =
        some (.identity "contract:a") := by decide
    have own : IsContractOf (contractEntity "contract:a" "A.sol") runFunction :=
      ⟨rfl, rfl, rfl, by decide⟩
    rw [joined, Option.some.injEq]
    constructor
    · rintro rfl
      exact ⟨_, List.mem_cons_self, own, rfl⟩
    · rintro ⟨contract, listed, isContract, rfl⟩
      rw [entities, List.mem_cons, List.mem_singleton] at listed
      rcases listed with rfl | rfl
      · rfl
      · cases isContract.kind

end Verdict

end Review

end MmAudit
