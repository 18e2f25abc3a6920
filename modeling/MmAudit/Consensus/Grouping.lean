import MmAudit.Consensus.Merging
import MmAudit.Library.Binary64
import MmAudit.Library.UnionFind

/-!
# Groups of candidates

`group_candidates` joins candidates that are similar enough, pair after pair in the order of
the list.  A candidate that comes from an execution anchors its group: two groups are only
joined when every anchor fits every member of both.

The similarity is a sum of parts in double precision.
-/

namespace MmAudit

namespace Consensus

open Context

section Similarity

variable {Digest : Type} (texts : Texts Digest)

/-! ## Similarity -/

/-- A decimal literal of the source. -/
def literal (number : ℚ) : ℚ :=
  Binary64.round number

/-- `score += part` -/
def addTo (score part : ℚ) : ℚ :=
  Binary64.round (score + part)

/-- `_jaccard` on sets without repetitions. -/
def jaccard (left right : List String) : ℚ :=
  if left.isEmpty || right.isEmpty then 0
  else
    let shared := (left.filter right.contains).length
    Binary64.round (shared / (left.length + right.length - shared : ℕ))

/-- What one location of the left candidate adds: only the first location of the right one with
the same path counts. -/
def locationScore (rightLocations : List (Location Digest)) (score : ℚ)
    (leftLocation : Location Digest) : ℚ :=
  match rightLocations.find? (leftLocation.path = ·.path) with
  | none => score
  | some rightLocation =>
      let samePath := addTo score (literal (25 / 100))
      let near :=
        if leftLocation.startLine ≤ rightLocation.startLine + 12 ∧
            rightLocation.startLine ≤ leftLocation.startLine + 12 then
          addTo samePath (literal (2 / 10))
        else samePath
      if leftLocation.symbol.any (!·.isEmpty) ∧ leftLocation.symbol = rightLocation.symbol then
        addTo near (literal (1 / 10))
      else near

def samePlace (left right : Option SourceSink) : Bool :=
  left.any fun left => right.any fun right => left.path = right.path

/-- `candidate_similarity` -/
def candidateSimilarity (left right : CandidateFinding Digest) : ℚ :=
  let leftCwe := left.cwe.map texts.upper
  let rightCwe := right.cwe.map texts.upper
  let score := if leftCwe.any rightCwe.contains then addTo 0 (literal (3 / 10)) else 0
  let score := left.locations.foldl (locationScore right.locations) score
  let score := addTo score (Binary64.round (literal (1 / 10) *
    jaccard (tokens texts left.title) (tokens texts right.title)))
  let score := addTo score (Binary64.round (literal (5 / 100) *
    jaccard (tokens texts (" ".intercalate left.attackPath))
      (tokens texts (" ".intercalate right.attackPath))))
  let score := if samePlace left.source right.source then addTo score (literal (5 / 100)) else score
  let score := if samePlace left.sink right.sink then addTo score (literal (5 / 100)) else score
  min 1 score

/-! ## Anchors -/

/-- `_execution_location_compatible` -/
def executionLocationCompatible (anchor candidate : CandidateFinding Digest) : Bool :=
  anchor.locations.any fun anchorLocation => candidate.locations.any fun location =>
    anchorLocation.path = location.path &&
      (decide (location.startLine ≤ anchorLocation.endLine ∧
          anchorLocation.startLine ≤ location.endLine) ||
        (anchorLocation.symbol.any (!·.isEmpty) && anchorLocation.symbol = location.symbol))

def hostExecutionAnalysisLinkSource : String :=
  "mmaudit-host-execution-link"

variable [DecidableEq Digest]

/-- `_execution_semantic_compatible` -/
def executionSemanticCompatible (anchor candidate : CandidateFinding Digest) : Bool :=
  if anchor = candidate then true
  else
    match anchor.executionProvenance with
    | none => false
    | some provenance =>
        if candidate.originKind = .deterministicExecution then
          candidate.executionProvenance = some provenance
        else
          candidate.evidence.any fun evidence => evidence.type = .repository &&
            evidence.source = hostExecutionAnalysisLinkSource &&
            evidence.ruleId = some provenance.invariantId &&
            evidence.fingerprint = some (texts.hex provenance.provenanceSha256)

/-- The anchor accepts the member of its group. -/
def anchorAccepts (anchor member : CandidateFinding Digest) : Bool :=
  anchor = member ||
    (executionLocationCompatible anchor member && executionSemanticCompatible texts anchor member)

/-! ## Groups -/

open UnionFind

/-- `component_indices` -/
def componentIndices (count : ℕ) (parent : List ℕ) (atRoot : ℕ) : List ℕ × List ℕ :=
  (List.range count).foldl (fun (parent, found) index =>
    let (parent, indexRoot) := find parent index
    (parent, if indexRoot = atRoot then found ++ [index] else found)) (parent, [])

/-- `can_union` -/
def canUnion (candidates : List (CandidateFinding Digest)) (parent : List ℕ) (left right : ℕ) :
    List ℕ × Bool :=
  let (parent, leftRoot) := find parent left
  let (parent, leftIndices) := componentIndices candidates.length parent leftRoot
  let (parent, rightRoot) := find parent right
  let (parent, rightIndices) := componentIndices candidates.length parent rightRoot
  let members := ((leftIndices ++ rightIndices).dedup.insertionSort (· ≤ ·)).filterMap
    (candidates[·]?)
  let anchors := members.filter (·.originKind = .deterministicExecution)
  (parent, anchors.all fun anchor => members.all (anchorAccepts texts anchor))

/-- One turn of the loop over the pairs. -/
def pairStep (candidates : List (CandidateFinding Digest)) (parent : List ℕ)
    (pair : (ℕ × CandidateFinding Digest) × (ℕ × CandidateFinding Digest)) : List ℕ :=
  if literal (55 / 100) ≤ candidateSimilarity texts pair.1.2 pair.2.2 then
    let (parent, allowed) := canUnion texts candidates parent pair.1.1 pair.2.1
    if allowed then union parent pair.1.1 pair.2.1 else parent
  else parent

def indexed (candidates : List (CandidateFinding Digest)) : List (ℕ × CandidateFinding Digest) :=
  (List.range candidates.length).zip candidates

/-- The pairs of different candidates in the order of the loops. -/
def pairsOf {Item : Type} : List Item → List (Item × Item)
  | [] => []
  | item :: items => items.map (item, ·) ++ pairsOf items

def joinedParents (candidates : List (CandidateFinding Digest)) : List ℕ :=
  (pairsOf (indexed candidates)).foldl (pairStep texts candidates) (List.range candidates.length)

/-- The candidates by their roots, in the order in which the roots are found. -/
def groupedByRoot (candidates : List (CandidateFinding Digest)) (parent : List ℕ) :
    List ℕ × Dict ℕ (List (CandidateFinding Digest)) :=
  (indexed candidates).foldl (fun (parent, grouped) (index, candidate) =>
    let (parent, indexRoot) := find parent index
    (parent, grouped.push indexRoot candidate)) (parent, Dict.empty)

/-- The ID of a group comes from its anchors, or from all of it when it has none. -/
def groupOf (members : List (CandidateFinding Digest)) : CandidateGroup Digest :=
  let ordered := members.insertionSort fun candidate other =>
    candidate.candidateId ≤ other.candidateId
  let anchors := ordered.filter (·.originKind = .deterministicExecution)
  let identityMembers := if anchors.isEmpty then ordered else anchors
  let digest := texts.hex (texts.source.hashText (['\x00'].intercalate
    (identityMembers.map (·.candidateId.toList))))
  { groupId := "group-" ++ String.ofList (digest.toList.take 16)
    candidates := ordered }

/-- `group_candidates` -/
def groupCandidates (candidates : List (CandidateFinding Digest)) :
    List (CandidateGroup Digest) :=
  ((groupedByRoot candidates (joinedParents texts candidates)).2.values.map
    (groupOf texts)).insertionSort fun group other => group.groupId ≤ other.groupId

end Similarity

end Consensus

end MmAudit
