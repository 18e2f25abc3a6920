import MmAudit.Context.EntryPath
import MmAudit.Library.LayeredSearch
import MmAudit.Review.Requests

/-!
# The deterministic review graph

Entities, graph nodes and edges of the compiler artifacts have tokens, and citations resolve to
tokens by location and by symbol.  The evidence of a reviewer is a path of citations from an
entry point to the surface, which the search follows through the tokens of the citations.

How symbols are normalised and how an edge is hashed are parameters.
-/

namespace MmAudit

namespace Review

open Context Fallible

/-! ## Compiler artifacts -/

structure ReviewEntity where
  id : String
  kind : SolidityEntityKind
  name : String
  contractName : Option String
  path : List Char
  startLine : ℕ
  endLine : ℕ
  sourceHash : String
  visibility : Option String
  signature : Option String
deriving DecidableEq, Repr

structure ReviewNode where
  id : String
  label : String
  path : List Char
  startLine : ℕ
  endLine : ℕ
  sourceHash : String
deriving DecidableEq, Repr

/-- A parameter `nodes` or `edges` is empty where there are no graphs. -/
structure Artifacts where
  entities : List ReviewEntity
  nodes : List ReviewNode
  edges : List SolidityGraphEdge

/-! ## Evidence -/

structure ModelSurfaceReviewCitation where
  location : Option (Location String)
  symbol : Option (List Char)
deriving DecidableEq, Repr

/-- The path begins at the entry point. -/
structure ModelSurfaceReviewReachability where
  entryPoint : ModelSurfaceReviewCitation
  path : List ModelSurfaceReviewCitation
  entryStartsPath : path.head? = some entryPoint

/-! ## Tokens and keys -/

inductive Token where
  | identity (id : String)
  | edge (digest : String)
deriving DecidableEq, Repr

abbrev LocationKey := List Char × ℕ × ℕ × List Char × String

/-- `_location_key` -/
def locationKey (location : Location String) : LocationKey :=
  (location.path, location.startLine, location.endLine, location.symbol.getD [],
    location.contentHash.getD "")

/-- A text that is there and not empty. -/
def present (text : Option String) : Option String :=
  text.filter (· ≠ "")

/-- The key of `_entity_location`. -/
def entityKey (entity : ReviewEntity) : LocationKey :=
  (entity.path, entity.startLine, entity.endLine,
    ((present entity.signature).getD entity.name).toList, entity.sourceHash)

/-- The key of `_node_location`. -/
def nodeKey (node : ReviewNode) : LocationKey :=
  (node.path, node.startLine, node.endLine, [], node.sourceHash)

/-- The key of `_edge_location`. -/
def edgeKey (edge : SolidityGraphEdge) : LocationKey :=
  (edge.path.toList, edge.startLine, edge.endLine, [], edge.sourceHash)

def isFunctionKind (kind : SolidityEntityKind) : Bool :=
  [.function, .constructor].contains kind

/-- The kinds of `contract_tokens`. -/
def isContractKind (kind : SolidityEntityKind) : Bool :=
  [.contract, .interface, .library].contains kind

def isEntryPoint (entity : ReviewEntity) : Bool :=
  isFunctionKind entity.kind && (entity.kind == .constructor ||
    entity.visibility == some "public" || entity.visibility == some "external")

/-! ## The graph -/

/-- Sets of tokens are kept as the list of what is registered under each key. -/
structure DeterministicReviewGraph where
  locationTokens : List (LocationKey × Token)
  symbolTokens : List (List Char × Token)
  identitySymbolTokens : List (List Char × Token)
  entryTokens : Finset Token
  adjacency : List (Token × Token)
  entitiesById : Dict String ReviewEntity
  edgeTokensBySubject : Dict String Token

/-- The tokens that are registered under a key. -/
def tokensAt {Key : Type} [DecidableEq Key] (registered : List (Key × Token)) (key : Key) :
    Finset Token :=
  ((registered.filter (·.1 = key)).map (·.2)).toFinset

section Graph

variable (normalized : List Char → List Char) (edgeDigest : SolidityGraphEdge → String)

/-- The symbols of `register_symbol`. -/
def registeredSymbols (symbols : List (Option String)) (token : Token) :
    List (List Char × Token) :=
  (symbols.filterMap present).map fun symbol => (normalized symbol.toList, token)

def entitySymbols (entity : ReviewEntity) : List (List Char × Token) :=
  registeredSymbols normalized [some entity.id, some entity.name, entity.signature]
    (.identity entity.id)

def edgeToken (edge : SolidityGraphEdge) : Token :=
  .edge (edgeDigest edge)

def edgeSymbols (entitiesById : Dict String ReviewEntity) (edge : SolidityGraphEdge) :
    List (List Char × Token) :=
  let source := entitiesById.get? edge.sourceId
  registeredSymbols normalized [some edge.sourceId, some edge.targetId, some edge.label,
    source.map (·.name), source.bind (·.signature)] (edgeToken edgeDigest edge)

/-- The last entity with an ID stands for it. -/
def entitiesById (entities : List ReviewEntity) : Dict String ReviewEntity :=
  entities.foldl (fun dict entity => dict.insert entity.id entity) .empty

/-- The last contract with a name stands for it. -/
def contractTokens (entities : List ReviewEntity) : Dict String Token :=
  (entities.filter (isContractKind ·.kind)).foldl
    (fun dict entity => dict.insert entity.name (.identity entity.id)) .empty

/-- The contract that a function is joined to. -/
def contractTokenOf (entities : List ReviewEntity) (entity : ReviewEntity) : Option Token :=
  (present entity.contractName).bind (contractTokens entities).get?

def edgeSteps (edge : SolidityGraphEdge) : List (Token × Token) :=
  [(.identity edge.sourceId, .identity edge.targetId),
    (.identity edge.sourceId, edgeToken edgeDigest edge),
    (edgeToken edgeDigest edge, .identity edge.targetId)]

def contractSteps (entities : List ReviewEntity) : List (Token × Token) :=
  (entities.filter (isFunctionKind ·.kind)).filterMap fun entity =>
    (contractTokenOf entities entity).map fun token => (.identity entity.id, token)

/-- `_build_deterministic_review_graph` -/
def buildDeterministicReviewGraph (artifacts : Artifacts) : DeterministicReviewGraph :=
  let byId := entitiesById artifacts.entities
  let identitySymbols := artifacts.entities.flatMap (entitySymbols normalized)
  let nodeIdentitySymbols := artifacts.nodes.flatMap fun node =>
    registeredSymbols normalized [some node.id] (.identity node.id)
  { locationTokens :=
      (artifacts.entities.map fun entity => (entityKey entity, .identity entity.id)) ++
        (artifacts.nodes.map fun node => (nodeKey node, .identity node.id)) ++
        artifacts.edges.map fun edge => (edgeKey edge, edgeToken edgeDigest edge)
    symbolTokens := identitySymbols ++ nodeIdentitySymbols ++
      (artifacts.nodes.flatMap fun node =>
        registeredSymbols normalized [some node.label] (.identity node.id)) ++
      artifacts.edges.flatMap (edgeSymbols normalized edgeDigest byId)
    identitySymbolTokens := identitySymbols ++ nodeIdentitySymbols
    entryTokens :=
      ((artifacts.entities.filter isEntryPoint).map fun entity => Token.identity entity.id).toFinset
    adjacency := artifacts.edges.flatMap (edgeSteps edgeDigest) ++
      contractSteps artifacts.entities
    entitiesById := byId
    edgeTokensBySubject := artifacts.edges.foldl (fun dict edge =>
      dict.insert ("graph-edge:" ++ edgeDigest edge) (edgeToken edgeDigest edge)) .empty }

/-! ## Citations and surfaces -/

/-- `_resolve_citation` -/
def resolveCitation (graph : DeterministicReviewGraph) (citation : ModelSurfaceReviewCitation) :
    Finset Token :=
  let locationTokens := citation.location.map fun location =>
    tokensAt graph.locationTokens (locationKey location)
  let symbolTokens := citation.symbol.map fun symbol =>
    let identityTokens := tokensAt graph.identitySymbolTokens (normalized symbol)
    if identityTokens.card = 1 then identityTokens
    else tokensAt graph.symbolTokens (normalized symbol)
  match locationTokens, symbolTokens with
  | some locations, some symbols => locations ∩ symbols
  | some locations, none => locations
  | none, symbols => symbols.getD ∅

def invariantTemplateValues : List String :=
  ["conservation_of_balances", "observed_asset_accounting", "no_free_mint", "claim_once",
    "reward_index_monotonic", "debt_collateral_consistency", "authorized_upgrade",
    "authorized_admin_change", "pause_enforcement", "initialize_once", "erc20_supply_balance",
    "erc4626_conversion_sanity", "permit_replay_protection", "fee_bounds", "rounding_bounds",
    "oracle_manipulation_resistance", "oracle_guard_sanity", "governance_delay_sanity",
    "upgrade_initializer_sanity", "message_consumption_once", "callback_state_consistency",
    "state_growth_bound", "erc20_return_handling", "donation_inflation_resistance",
    "ordering_value_bound", "multi_step_state_consistency"]

def economicSimulationKindValues : List String :=
  ["erc4626_donation_inflation", "reward_index_manipulation", "flash_loan_oracle_manipulation",
    "oracle_freshness_scale_availability", "amm_reserve_manipulation", "liquidation_edge_cases",
    "share_price_exchange_rate", "fee_on_transfer_rebasing_accounting", "rounding_exploitation",
    "governance_timelock_race", "upgrade_initializer_misuse", "cross_chain_duplicate_ordering",
    "callback_receiver_reentrancy", "bounded_state_growth", "multi_transaction_state_ordering",
    "sandwich_sensitive_flow", "signature_nonce_domain_replay"]

def canonicalTemplateSubjectIds : List String :=
  invariantTemplateValues.map ("invariant-template:" ++ ·) ++
    economicSimulationKindValues.map ("economic-template:" ++ ·)

/-- `^inv-[0-9a-f]{20}$` -/
def isCanonicalInvariantId (subjectId : String) : Bool :=
  "inv-".toList.isPrefixOf subjectId.toList && (subjectId.toList.drop 4).length == 20 &&
    (subjectId.toList.drop 4).all isHexDigit

/-- `_expected_surface_tokens` -/
def expectedSurfaceTokens (graph : DeterministicReviewGraph)
    (request : ModelSurfaceReviewRequest String) : Finset Token :=
  match graph.entitiesById.get? request.subjectId with
  | some entity => {.identity entity.id}
  | none =>
      match graph.edgeTokensBySubject.get? request.subjectId with
      | some token => {token}
      | none =>
          if (request.kind = .invariant ∧ isCanonicalInvariantId request.subjectId = true) ∨
              (request.kind = .template ∧ request.subjectId ∈ canonicalTemplateSubjectIds) then
            ((graph.entitiesById.values.filter fun entity =>
              request.allowedSymbols.contains entity.id ||
                (request.allowedLocations.map locationKey).contains (entityKey entity)).map
              fun entity => Token.identity entity.id).toFinset
          else ∅

/-- `_surface_terminal_token` -/
def surfaceTerminalToken (graph : DeterministicReviewGraph)
    (request : ModelSurfaceReviewRequest String) : Option Token :=
  match graph.entitiesById.get? request.subjectId with
  | some entity => some (.identity entity.id)
  | none => graph.edgeTokensBySubject.get? request.subjectId

/-- `_citation_matches_request` -/
def citationMatchesRequest (citation : ModelSurfaceReviewCitation)
    (request : ModelSurfaceReviewRequest String) : Bool :=
  if citation.location.any fun location => !request.allowedLocations.contains location then false
  else if citation.symbol.any fun symbol => !(request.allowedSymbols.map (·.toList)).contains symbol
    then false
  else citation.location.isSome || citation.symbol.isSome

/-! ## Following the path -/

/-- The tokens of a citation of the path; the surface itself may be added to those of the last
one. -/
def pathTokens (graph : DeterministicReviewGraph) (request : ModelSurfaceReviewRequest String)
    (isLast : Bool) (citation : ModelSurfaceReviewCitation) : Finset Token :=
  let tokens := resolveCitation normalized graph citation
  if isLast && citationMatchesRequest citation request then
    match surfaceTerminalToken graph request with
    | some token => tokens ∪ {token}
    | none => tokens
  else tokens

/-- The tokens of all citations of a path. -/
def pathLayers (graph : DeterministicReviewGraph) (request : ModelSurfaceReviewRequest String) :
    List ModelSurfaceReviewCitation → List (Finset Token)
  | [] => []
  | citation :: citations =>
      pathTokens normalized graph request citations.isEmpty citation ::
        pathLayers graph request citations

/-- The beginning of the messages about a surface. -/
def surfaceLabel (request : ModelSurfaceReviewRequest String) : String :=
  "model surface " ++ request.surfaceId ++ " "

def requireResolved (request : ModelSurfaceReviewRequest String) :
    ℕ → List (Finset Token) → Except String Unit
  | _, [] => .ok ()
  | position, tokens :: layers => do
      raiseIf (tokens = ∅) (surfaceLabel request ++ "reachability path node " ++
        toString position ++ " lacked deterministic source or graph identity")
      requireResolved request (position + 1) layers

/-- The loop over the rest of the path, with the frontier after it. -/
def followPath (graph : DeterministicReviewGraph) (request : ModelSurfaceReviewRequest String) :
    ℕ → Finset Token → List (Finset Token) → Except String (Finset Token)
  | _, frontier, [] => .ok frontier
  | position, frontier, tokens :: layers => do
      raiseIf (tokens \ frontier = ∅) (surfaceLabel request ++ "reachability path node " ++
        toString position ++ " repeated the preceding deterministic surface")
      let nextFrontier := LayeredSearch.advance (fun source target =>
        (source, target) ∈ graph.adjacency) frontier tokens
      raiseIf (nextFrontier = ∅) (surfaceLabel request ++ "reachability path node " ++
        toString position ++ " was not adjacent in the deterministic graph")
      followPath graph request (position + 1) nextFrontier layers

def isDirectEntrySurface (kind : ModelReviewSurfaceKind) : Bool :=
  [.entryPoint, .privilegeFunction, .assetFunction].contains kind

def wrongEnd (request : ModelSurfaceReviewRequest String) : String :=
  surfaceLabel request ++
    "reachability path did not terminate at the exact deterministic surface"

/-- The checks of a path in their order; the first one that fails gives the failure. -/
def checkReachability (graph : DeterministicReviewGraph)
    (request : ModelSurfaceReviewRequest String) (record : Option ModelSurfaceReviewReachability) :
    Except String Unit :=
  match record with
  | none => .error (surfaceLabel request ++ "omitted reachability evidence")
  | some reachability => do
      let entryCandidates := resolveCitation normalized graph reachability.entryPoint
      let entryTokens := entryCandidates ∩ graph.entryTokens
      raiseIf (entryTokens.card ≠ 1) (surfaceLabel request ++ "reachability entry point " ++
        "was not one exact known public, external, or constructor entry point")
      let resolvedPath := pathLayers normalized graph request reachability.path
      requireResolved request 0 resolvedPath
      raiseIf (resolvedPath.headD ∅ ∩ entryTokens = ∅) (surfaceLabel request ++
        "reachability path did not begin at its exact known entry point")
      let terminalTokens := expectedSurfaceTokens graph request
      raiseIf (terminalTokens = ∅ ∨ resolvedPath.getLastD ∅ ∩ terminalTokens = ∅)
        (wrongEnd request)
      match resolvedPath with
      | [] => .ok ()
      | [tokens] =>
          raiseIf (isDirectEntrySurface request.kind = false ∨
              tokens ∩ terminalTokens ∩ graph.entryTokens = ∅)
            (surfaceLabel request ++ "used an unsupported self-to-self reachability path")
      | tokens :: layers => do
          let frontier ← followPath graph request 1 (tokens ∩ entryTokens) layers
          raiseIf (frontier ∩ terminalTokens = ∅) (wrongEnd request)

/-- `_reachability_failures` -/
def reachabilityFailures (graph : DeterministicReviewGraph)
    (request : ModelSurfaceReviewRequest String) (record : Option ModelSurfaceReviewReachability) :
    List String :=
  match checkReachability normalized graph request record with
  | .ok _ => []
  | .error failure => [failure]

end Graph

end Review

end MmAudit
