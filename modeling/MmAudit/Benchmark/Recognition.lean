import MmAudit.Benchmark.GroundTruth
import MmAudit.Consensus.EvidenceCap

/-!
# When the benchmark recognises a finding

The hash of a location is the hash of its lines, the hash of a case is that of the whole
file.  So a finding with the exact lines of a case is recognised when these lines are the
whole file, and hardly ever otherwise; and a finding about another version of the file is
recognised when its lines are the whole file of the case.
-/

namespace MmAudit

namespace Benchmark

open Context Consensus TextLines Fallible
open Ignore (Path)

section Recognition

variable {Digest : Type} {texts : Texts Digest} {control : Char → Bool}
  {lower : List Char → List Char}

/-! ## Lines and bytes -/

/-- The lines of a location are some of the lines of the text. -/
def InRange (location : Location Digest) (content : List Char) : Prop :=
  location.endLine ≤ (splitLines content).length

theorem currentLines_of_inRange {location : Location Digest} {content : List Char}
    (inRange : InRange location content) :
    currentLines location content =
      selectLines (splitLines content) location.startLine location.endLine := by
  have ordered := location.ordered
  unfold InRange at inRange
  unfold currentLines
  dsimp only
  rw [if_neg]
  simp only [Bool.or_eq_true, decide_eq_true_eq]
  omega

/-- A text is its lines before, in and after a range. -/
theorem flatten_around (lines : List (List Char)) (start stop : ℕ) (ordered : start ≤ stop) :
    (lines.take start).flatten ++ (lines.extract start stop).flatten ++
      (lines.drop stop).flatten = lines.flatten := by
  have rest : (lines.drop start).drop (stop - start) = lines.drop stop := by
    rw [List.drop_drop]
    congr 1
    omega
  rw [List.extract_eq_take_drop, ← List.flatten_append, ← List.flatten_append, ← rest,
    List.append_assoc, List.take_append_drop, List.take_append_drop]

theorem eq_nil_of_flatten_eq_nil {lines : List (List Char)}
    (nonempty : ∀ line ∈ lines, line ≠ []) (empty : lines.flatten = []) : lines = [] := by
  cases lines with
  | nil => rfl
  | cons line rest =>
      rw [List.flatten_cons, List.append_eq_nil_iff] at empty
      exact absurd empty.1 (nonempty line List.mem_cons_self)

/-- The lines of a range are the whole text only if the range has all lines. -/
theorem currentLines_eq_self_iff {location : Location Digest} {content : List Char}
    (inRange : InRange location content) :
    currentLines location content = content ↔
      location.startLine = 1 ∧ location.endLine = (splitLines content).length := by
  have ordered := location.ordered
  have positive := location.positive
  have bound : location.endLine ≤ (splitLines content).length := inRange
  rw [currentLines_of_inRange inRange, selectLines]
  have around := flatten_around (splitLines content) (location.startLine - 1) location.endLine
    (by omega)
  rw [flatten_splitLines] at around
  constructor
  · intro whole
    rw [whole] at around
    have sizes := congrArg List.length around
    simp only [List.length_append] at sizes
    have noneBefore : (splitLines content).take (location.startLine - 1) = [] := by
      apply eq_nil_of_flatten_eq_nil
      · exact fun line member => ne_nil_of_mem_splitLines (List.mem_of_mem_take member)
      · apply List.eq_nil_of_length_eq_zero
        omega
    have noneAfter : (splitLines content).drop location.endLine = [] := by
      apply eq_nil_of_flatten_eq_nil
      · exact fun line member => ne_nil_of_mem_splitLines (List.mem_of_mem_drop member)
      · apply List.eq_nil_of_length_eq_zero
        omega
    have before := congrArg List.length noneBefore
    rw [List.length_take, List.length_nil] at before
    rw [List.drop_eq_nil_iff] at noneAfter
    omega
  · rintro ⟨start, stop⟩
    rw [start, stop, List.extract_eq_take_drop]
    simp [flatten_splitLines]

theorem carriage_not_mem_currentLines {location : Location Digest} {content : List Char}
    (absent : '\r' ∉ content) : '\r' ∉ currentLines location content := by
  unfold currentLines
  dsimp only
  split
  · simp
  · intro member
    rw [selectLines, List.extract_eq_take_drop] at member
    obtain ⟨line, listed, inLine⟩ := List.mem_flatten.mp member
    apply absent
    rw [← flatten_splitLines content]
    exact List.mem_flatten.mpr ⟨line, List.mem_of_mem_drop (List.mem_of_mem_take listed), inLine⟩

/-- The lines of a location, as they are read in text mode, are the bytes of the file exactly when
they are all lines and the file has no carriage return. -/
theorem encode_currentLines_eq_iff {location : Location Digest} {data : List UInt8}
    (wellFormed : encode (decode data) = data)
    (inRange : InRange location (universalNewlines (decode data))) :
    encode (currentLines location (universalNewlines (decode data))) = data ↔
      location.startLine = 1 ∧ location.endLine = (splitLines (decode data)).length ∧
        '\r' ∉ decode data := by
  have lineCount := length_splitLines_universalNewlines (decode data)
  constructor
  · intro same
    have lines : currentLines location (universalNewlines (decode data)) = decode data := by
      rw [← decode_encode (currentLines location (universalNewlines (decode data))), same]
    have absent : '\r' ∉ decode data := by
      rw [← lines]
      exact carriage_not_mem_currentLines (carriage_not_mem_universalNewlines _)
    have read := (universalNewlines_eq_self_iff (decode data)).mpr absent
    rw [read] at lines inRange
    obtain ⟨start, stop⟩ := (currentLines_eq_self_iff inRange).mp lines
    exact ⟨start, stop, absent⟩
  · rintro ⟨start, stop, absent⟩
    have whole := (currentLines_eq_self_iff inRange).mpr ⟨start, stop.trans lineCount.symm⟩
    rw [whole, (universalNewlines_eq_self_iff (decode data)).mpr absent, wellFormed]

/-! ## What is validated -/

variable [DecidableEq Digest]

/-- A valid location lies in a file that resolves, and its own hash is that of its lines. -/
theorem validateLocation_spec {repository : Context.Repository} {location : Location Digest}
    {index : Dict HashKey Digest}
    (valid : (validateLocation texts.source lower control repository location
      (some index)).errors = []) :
    ∃ data, resolveLocation lower control repository location.path = .ok data ∧
      InRange location (universalNewlines (decode data)) ∧
      ∀ hash, location.contentHash = some hash →
        currentHash texts.source location (universalNewlines (decode data)) = some hash := by
  unfold validateLocation at valid
  split at valid
  · cases valid
  · rename_i data resolved
    simp only [List.append_eq_nil_iff, Option.elim_some] at valid
    obtain ⟨⟨⟨range, context⟩, hash⟩, -⟩ := valid
    refine ⟨data, resolved, ?_, ?_⟩
    · unfold rangeErrors at range
      dsimp only at range
      split at range
      · cases range
      · rename_i bounded
        simp only [Bool.or_eq_true, decide_eq_true_eq, not_or, not_lt] at bounded
        exact bounded.2
    · intro own claimed
      unfold contextErrors at context
      rw [claimed] at hash context
      cases found : index.get? (location.path, location.startLine, location.endLine) with
      | none => simpa [found] using hash
      | some known =>
          have agree : known = own := by
            by_contra different
            simp [found, Ne.symm different] at context
          simpa [found, agree] using hash

theorem placedErrors_eq_nil_iff {path : List Char} {line : ℕ} {errors : List String} :
    placedErrors path line errors = [] ↔ errors = [] :=
  List.map_eq_nil_iff

theorem errors_of_validateCandidate {repository : Context.Repository}
    {candidate : CandidateFinding Digest} {index : Dict HashKey Digest}
    (valid : (validateCandidate control texts lower repository candidate index).valid = true)
    {location : Location Digest} (member : location ∈ candidate.locations) :
    (validateLocation texts.source lower control repository location (some index)).errors = [] := by
  unfold validateCandidate at valid
  rw [List.isEmpty_iff, List.append_eq_nil_iff, List.flatMap_eq_nil_iff] at valid
  exact placedErrors_eq_nil_iff.mp (valid.1 location member)

/-! ## What the ground truth says of a case -/

/-- The directory of a case's repository. -/
def IsTreeOf (manifest : BenchmarkManifest Digest) (workspace : Workspace)
    (case : BenchmarkCase Digest) (tree : Path → WorkspaceEntry) : Prop :=
  ∃ repository ∈ manifest.repositories, repository.repositoryId = case.repositoryId ∧
    workspace.directory repository.sourceRoot = some tree

omit [DecidableEq Digest] in
theorem mem_sourcesOf {manifest : BenchmarkManifest Digest} {case : BenchmarkCase Digest}
    (member : case ∈ manifest.cases) :
    (toLex (case.repositoryId, case.path) : String ×ₗ List Char) ∈ sourcesOf manifest := by
  rw [sourcesOf, List.mem_insertionSort, List.mem_dedup]
  exact List.mem_map_of_mem member

theorem bindSource_spec {manifest : BenchmarkManifest Digest} {tree : Path → WorkspaceEntry}
    {case : BenchmarkCase Digest} {binding : BenchmarkGroundTruthBinding Digest}
    (member : case ∈ manifest.cases)
    (bound : bindSource texts.source control tree
      (casesOf manifest case.repositoryId case.path) case.repositoryId case.path = .ok binding) :
    ∃ data, resolveGroundTruthSource control tree case.path = .ok data ∧
      case.sourceSha256 = texts.source.sha256 data ∧ encode (decode data) = data ∧
      case.endLine ≤ (splitLines (decode data)).length := by
  have listed : case ∈ casesOf manifest case.repositoryId case.path :=
    List.mem_filter.mpr ⟨member, by simp⟩
  rw [bindSource, bind_eq_ok_iff] at bound
  obtain ⟨data, resolved, bound⟩ := bound
  rw [raiseIf_bind_eq_ok_iff, raiseIf_bind_eq_ok_iff, raiseIf_bind_eq_ok_iff, not_not,
    not_not] at bound
  obtain ⟨hash, wellFormed, inRange, -⟩ := bound
  refine ⟨data, resolved, ?_, wellFormed, ?_⟩
  · obtain ⟨first, isFirst, same⟩ := Option.map_eq_some_iff.mp hash
    obtain ⟨firstMember, sameSource⟩ := List.mem_filter.mp (List.mem_of_mem_head? isFirst)
    rw [Bool.and_eq_true, decide_eq_true_eq, decide_eq_true_eq] at sameSource
    rw [← same]
    exact manifest.hashes_agree case member first firstMember sameSource.1.symm sameSource.2.symm
  · rw [List.any_eq_true] at inRange
    push Not at inRange
    simpa using inRange case listed

/-- A ground truth that was validated holds of every case. -/
theorem exists_source_of_validateBenchmarkGroundTruth {manifest : BenchmarkManifest Digest}
    {workspace : Workspace} {bindings : List (BenchmarkGroundTruthBinding Digest)}
    (validated : validateBenchmarkGroundTruth texts.source control manifest workspace = .ok bindings)
    {case : BenchmarkCase Digest} (member : case ∈ manifest.cases) :
    ∃ tree data, IsTreeOf manifest workspace case tree ∧
      resolveGroundTruthSource control tree case.path = .ok data ∧
      case.sourceSha256 = texts.source.sha256 data ∧ encode (decode data) = data ∧
      case.endLine ≤ (splitLines (decode data)).length := by
  rw [validateBenchmarkGroundTruth, bind_eq_ok_iff] at validated
  obtain ⟨trees, opened, bound⟩ := validated
  obtain ⟨binding, -, here⟩ := exists_value_of_mapM bound (mem_sourcesOf member)
  dsimp only [ofLex_toLex] at here
  split at here
  · cases here
  · rename_i tree found
    obtain ⟨data, spec⟩ := bindSource_spec member here
    obtain ⟨repository, listed, isTree⟩ :=
      exists_item_of_mapM opened (List.mem_of_find?_eq_some found)
    have sameId : tree.1 = case.repositoryId := by
      have passed := List.find?_some found
      exact of_decide_eq_true passed
    refine ⟨tree.2, data, ⟨repository, listed, ?_⟩, spec⟩
    split at isTree
    · rename_i directory _ present
      obtain rfl := Except.ok.inj isTree
      exact ⟨sameId, present⟩
    · cases isTree

/-! ## The hash of a finding -/

/-- The hashes that the hash of a finding is made of. -/
def mergedHashes (texts : Texts Digest) (validations : Dict String (LocationValidation Digest))
    (group : CandidateGroup Digest) : List Digest :=
  if executionOriginValid validations group then
    (provenanceLocations texts (executionProvenanceOf texts group)).filterMap (·.contentHash)
  else
    validHashes validations group

theorem aggregateHash_eq_some {validations : Dict String (LocationValidation Digest)}
    {group : CandidateGroup Digest} {aggregate : Option Digest}
    (aggregated : aggregateHash texts validations group (executionOriginValid validations group) =
      .ok aggregate) :
    aggregate = if mergedHashes texts validations group = [] then none
      else some (texts.source.hashText (joinHashes texts (mergedHashes texts validations group))) := by
  unfold aggregateHash at aggregated
  unfold mergedHashes
  split at aggregated
  · rename_i execution
    rw [map_eq_ok_iff] at aggregated
    obtain ⟨hash, computed, rfl⟩ := aggregated
    unfold executionOriginLocationValidationSha256 at computed
    dsimp only at computed
    rw [raiseIf_bind_eq_ok_iff, raiseIf_bind_eq_ok_iff, not_not] at computed
    obtain ⟨someLocation, allHashed, same⟩ := computed
    obtain rfl := Except.ok.inj same
    have someHash : (provenanceLocations texts (executionProvenanceOf texts group)).filterMap
        (·.contentHash) ≠ [] := by
      intro none
      rw [none, List.length_nil, eq_comm, List.length_eq_zero_iff] at allHashed
      exact someLocation allHashed
    rw [if_pos execution, if_neg someHash]
  · rename_i noExecution
    rw [if_neg noExecution]
    split at aggregated
    · rename_i empty
      rw [List.isEmpty_iff] at empty
      rw [if_pos empty]
      exact (Except.ok.inj aggregated).symm
    · rename_i nonempty
      rw [List.isEmpty_iff] at nonempty
      rw [if_neg nonempty]
      exact (Except.ok.inj aggregated).symm

/-- The merged hashes, one after the other, are the bytes of a file. -/
def SpelledBy (data : List UInt8) (texts : Texts Digest)
    (validations : Dict String (LocationValidation Digest)) (group : CandidateGroup Digest) : Prop :=
  mergedHashes texts validations group ≠ [] ∧
    encode (joinHashes texts (mergedHashes texts validations group)) = data

/-- What the matcher compares with the hash of the case. -/
def boundHash (finding : Finding Digest) (location : Location Digest) : Option Digest :=
  location.contentHash.or finding.locationValidation.contentHash

theorem boundHash_eq_iff (collisionFree : Function.Injective texts.source.sha256)
    {validations : Dict String (LocationValidation Digest)} {group : CandidateGroup Digest}
    {finding : Finding Digest}
    (aggregated : aggregateHash texts validations group (executionOriginValid validations group) =
      .ok finding.locationValidation.contentHash)
    {location : Location Digest} {data : List UInt8} :
    boundHash finding location = some (texts.source.sha256 data) ↔
      location.contentHash = some (texts.source.sha256 data) ∨
        location.contentHash = none ∧ SpelledBy data texts validations group := by
  rw [boundHash, aggregateHash_eq_some aggregated]
  cases claimed : location.contentHash with
  | some hash => simp
  | none =>
      by_cases empty : mergedHashes texts validations group = []
      · simp [empty, SpelledBy]
      · simp only [empty, ↓reduceIte, Option.none_or, Option.some.injEq, reduceCtorEq, true_and,
          false_or, SpelledBy, ne_eq, not_false_eq_true]
        exact collisionFree.eq_iff

theorem matchesCaseExactly_iff {finding : Finding Digest} {case : BenchmarkCase Digest}
    (valid : finding.locationValidation.valid = true) :
    matchesCaseExactly finding case = true ↔
      ∃ kept ∈ finding.locations, kept.path = case.path ∧
        boundHash finding kept = some case.sourceSha256 ∧
        kept.startLine = case.startLine ∧ kept.endLine = case.endLine := by
  rw [matchesCaseExactly, hashValidatedCaseLocations, if_pos valid, List.any_eq_true]
  simp only [List.mem_filter, Bool.and_eq_true, decide_eq_true_eq, beq_iff_eq, and_assoc, boundHash]

theorem matchesCase_iff {finding : Finding Digest} {case : BenchmarkCase Digest}
    (valid : finding.locationValidation.valid = true) :
    matchesCase finding case = true ↔
      ∃ kept ∈ finding.locations, kept.path = case.path ∧
        boundHash finding kept = some case.sourceSha256 ∧
        kept.startLine ≤ case.endLine ∧ case.startLine ≤ kept.endLine := by
  rw [matchesCase, hashValidatedCaseLocations, if_pos valid, List.any_eq_true]
  simp only [List.mem_filter, Bool.and_eq_true, decide_eq_true_eq, and_assoc, boundHash]

/-- A finding with the exact lines of a case overlaps it. -/
theorem matchesCase_of_exactly {finding : Finding Digest} {case : BenchmarkCase Digest}
    (valid : finding.locationValidation.valid = true)
    (exactly : matchesCaseExactly finding case = true) : matchesCase finding case = true := by
  obtain ⟨kept, member, path, hash, start, stop⟩ := (matchesCaseExactly_iff valid).mp exactly
  have ordered := case.ordered
  exact (matchesCase_iff valid).mpr ⟨kept, member, path, hash, by omega, by omega⟩

/-! ## Recognition -/

/-- The pipeline reads the file that the ground truth was validated on. -/
def SameFiles (tree : Path → WorkspaceEntry) (repository : Context.Repository) : Prop :=
  ∀ path shared data now, tree path = .file shared data → repository.entry path = .file now →
    now = data

omit [DecidableEq Digest] in
theorem SameFiles.eq {tree : Path → WorkspaceEntry} {repository : Context.Repository}
    (same : SameFiles tree repository) {path : List Char} {data now : List UInt8}
    (resolved : resolveGroundTruthSource control tree path = .ok data)
    (read : resolveLocation lower control repository path = .ok now) : now = data := by
  unfold resolveGroundTruthSource at resolved
  unfold resolveLocation at read
  cases normal : normalizeRelativePath control path with
  | none =>
      rw [normal] at read
      cases read
  | some normalized =>
      rw [normal] at resolved read
      dsimp only at resolved read
      split at read
      · cases read
      · cases entry : repository.entry normalized with
        | file current =>
            rw [entry] at read
            obtain rfl := Except.ok.inj read
            cases source : tree normalized with
            | file shared bytes =>
                rw [source] at resolved
                dsimp only at resolved
                split at resolved
                · cases resolved
                · obtain rfl := Except.ok.inj resolved
                  exact same normalized shared bytes current source entry
            | link => simp [source] at resolved
            | unresolved => simp [source] at resolved
            | notRegular => simp [source] at resolved
        | missing => simp [entry] at read
        | linked _ => simp [entry] at read
        | notRegular => simp [entry] at read
        | hardlinked => simp [entry] at read
        | unreadable => simp [entry] at read

variable (texts control lower)

/-- A candidate with the lines of a case that was validated on a repository, and the finding that
its group was merged into, which keeps the location with these lines. -/
structure Reported (repository : Context.Repository) (case : BenchmarkCase Digest)
    (validations : Dict String (LocationValidation Digest)) (group : CandidateGroup Digest)
    (finding : Finding Digest) (location : Location Digest) : Prop where
  merged : ∃ scannerFindings decisions judge,
    mergeGroup texts scannerFindings decisions validations group judge = .ok finding
  validated : ∃ candidate ∈ group.candidates, location ∈ candidate.locations ∧
    ∃ index, (validateCandidate control texts lower repository candidate index).valid = true
  path : location.path = case.path
  start : location.startLine = case.startLine
  stop : location.endLine = case.endLine
  kept : location ∈ finding.locations
  valid : finding.locationValidation.valid = true
  active : findingIsActive finding = true
  severe : case.minimumSeverity.order ≤ finding.severity.order

/-- The lines of the case are the whole file, as it is read in text mode. -/
def WholeFile (case : BenchmarkCase Digest) (data : List UInt8) : Prop :=
  case.startLine = 1 ∧ case.endLine = (splitLines (decode data)).length ∧ '\r' ∉ decode data

/-- The hash of the location is that of the file: the lines with the hash are the whole file, or
the hashes that stand in for a missing one spell the file; or another location of the finding with
the same lines has the hash of the file. -/
def Recognisable (validations : Dict String (LocationValidation Digest))
    (group : CandidateGroup Digest) (finding : Finding Digest) (location : Location Digest)
    (case : BenchmarkCase Digest) (data : List UInt8) : Prop :=
  location.contentHash ≠ none ∧ WholeFile case data ∨
    location.contentHash = none ∧ SpelledBy data texts validations group ∨
    ∃ other ∈ finding.locations, other ≠ location ∧ other.path = case.path ∧
      other.startLine = case.startLine ∧ other.endLine = case.endLine ∧
      (other.contentHash = some (texts.source.sha256 data) ∨
        other.contentHash = none ∧ SpelledBy data texts validations group)

variable {texts control lower}

omit [DecidableEq Digest] in
theorem currentHash_eq_sha256_iff (collisionFree : Function.Injective texts.source.sha256)
    {location : Location Digest} {data other : List UInt8}
    (inRange : InRange location (universalNewlines (decode other))) :
    currentHash texts.source location (universalNewlines (decode other)) =
        some (texts.source.sha256 data) ↔
      encode (currentLines location (universalNewlines (decode other))) = data := by
  have nonempty : currentLines location (universalNewlines (decode other)) ≠ [] := by
    have ordered := location.ordered
    have positive := location.positive
    have bound : location.endLine ≤ (splitLines (universalNewlines (decode other))).length := inRange
    rw [currentLines_of_inRange inRange, selectLines, List.extract_eq_take_drop]
    intro empty
    have noLines := eq_nil_of_flatten_eq_nil (fun line member =>
      ne_nil_of_mem_splitLines (List.mem_of_mem_drop (List.mem_of_mem_take member))) empty
    have count := congrArg List.length noLines
    rw [List.length_take, List.length_drop, List.length_nil] at count
    omega
  unfold currentHash
  dsimp only
  rw [if_neg (by simpa using nonempty), Option.some.injEq]
  exact collisionFree.eq_iff

/-- A finding that reports a case is recognised exactly under that condition. -/
theorem Reported.matches_iff (collisionFree : Function.Injective texts.source.sha256)
    {tree : Path → WorkspaceEntry} {repository : Context.Repository}
    {case : BenchmarkCase Digest} {data : List UInt8}
    (resolved : resolveGroundTruthSource control tree case.path = .ok data)
    (hash : case.sourceSha256 = texts.source.sha256 data)
    (wellFormed : encode (decode data) = data) (same : SameFiles tree repository)
    {validations : Dict String (LocationValidation Digest)} {group : CandidateGroup Digest}
    {finding : Finding Digest} {location : Location Digest}
    (reported : Reported texts control lower repository case validations group finding location) :
    matchesCase finding case = true ∧ matchesCaseExactly finding case = true ↔
      Recognisable texts validations group finding location case data := by
  obtain ⟨⟨scannerFindings, decisions, judge, returned⟩, ⟨candidate, -, member, index, accepted⟩,
    path, start, stop, kept, valid, -, -⟩ := reported
  have aggregated :=
    (merged_of_mergeGroup texts scannerFindings decisions validations returned).hash
  obtain ⟨now, read, inRange, own⟩ :=
    validateLocation_spec (errors_of_validateCandidate accepted member)
  rw [path] at read
  obtain rfl := same.eq resolved read
  -- The hash that the validated location carries is that of its lines.
  have standsFor : location.contentHash = some (texts.source.sha256 now) ↔
      location.contentHash ≠ none ∧ WholeFile case now := by
    rw [WholeFile, ← start, ← stop, ← encode_currentLines_eq_iff wellFormed inRange,
      ← currentHash_eq_sha256_iff collisionFree inRange]
    cases claimed : location.contentHash with
    | none => simp
    | some known => simp [own known claimed]
  have onlyExact : matchesCase finding case = true ∧ matchesCaseExactly finding case = true ↔
      matchesCaseExactly finding case = true :=
    ⟨fun both => both.2, fun exactly => ⟨matchesCase_of_exactly valid exactly, exactly⟩⟩
  rw [onlyExact, matchesCaseExactly_iff valid, hash]
  simp only [boundHash_eq_iff collisionFree aggregated]
  constructor
  · rintro ⟨other, otherKept, otherPath, otherHash, otherStart, otherStop⟩
    by_cases isLocation : other = location
    · rw [isLocation, standsFor] at otherHash
      rcases otherHash with whole | spelled
      · exact .inl whole
      · exact .inr (.inl spelled)
    · exact .inr (.inr ⟨other, otherKept, isLocation, otherPath, otherStart, otherStop, otherHash⟩)
  · rintro (whole | spelled | ⟨other, otherKept, -, otherPath, otherStart, otherStop, otherHash⟩)
    · exact ⟨location, kept, path, .inl (standsFor.mpr whole), start, stop⟩
    · exact ⟨location, kept, path, .inr spelled, start, stop⟩
    · exact ⟨other, otherKept, otherPath, otherHash, otherStart, otherStop⟩

/-! ## Other versions of a file -/

/-- A finding whose locations at the path of a case are valid in another version of the file. -/
structure ReportedElsewhere (texts : Texts Digest) (control : Char → Bool)
    (lower : List Char → List Char) (repository : Context.Repository) (case : BenchmarkCase Digest)
    (stale : List UInt8) (validations : Dict String (LocationValidation Digest))
    (group : CandidateGroup Digest) (finding : Finding Digest) : Prop where
  merged : ∃ scannerFindings decisions judge,
    mergeGroup texts scannerFindings decisions validations group judge = .ok finding
  read : resolveLocation lower control repository case.path = .ok stale
  validated : ∃ index, ∀ kept ∈ finding.locations, kept.path = case.path →
    (validateLocation texts.source lower control repository kept (some index)).errors = []
  valid : finding.locationValidation.valid = true

/-- No overlapping location of the finding has the hash of the case's file: its lines in the other
version are not that file, and the hashes that stand in for a missing one do not spell it. -/
def Apart (texts : Texts Digest) (validations : Dict String (LocationValidation Digest))
    (group : CandidateGroup Digest) (finding : Finding Digest) (case : BenchmarkCase Digest)
    (data stale : List UInt8) : Prop :=
  ∀ kept ∈ finding.locations, kept.path = case.path → kept.startLine ≤ case.endLine →
    case.startLine ≤ kept.endLine →
      (kept.contentHash ≠ none →
        encode (currentLines kept (universalNewlines (decode stale))) ≠ data) ∧
      (kept.contentHash = none → ¬ SpelledBy data texts validations group)

/-- Such a finding matches no case exactly under that condition. -/
theorem ReportedElsewhere.matches_iff (collisionFree : Function.Injective texts.source.sha256)
    {repository : Context.Repository} {case : BenchmarkCase Digest} {data stale : List UInt8}
    (hash : case.sourceSha256 = texts.source.sha256 data)
    {validations : Dict String (LocationValidation Digest)} {group : CandidateGroup Digest}
    {finding : Finding Digest}
    (reported : ReportedElsewhere texts control lower repository case stale validations group
      finding) :
    matchesCase finding case = false ↔
      Apart texts validations group finding case data stale := by
  obtain ⟨⟨scannerFindings, decisions, judge, returned⟩, read, ⟨index, validated⟩, valid⟩ := reported
  have aggregated :=
    (merged_of_mergeGroup texts scannerFindings decisions validations returned).hash
  rw [← Bool.not_eq_true, matchesCase_iff valid, hash]
  simp only [boundHash_eq_iff collisionFree aggregated]
  push Not
  unfold Apart
  apply forall₂_congr
  intro kept member
  constructor
  · intro different path start stop
    obtain ⟨now, readNow, inRange, own⟩ := validateLocation_spec (validated kept member path)
    rw [path, read] at readNow
    obtain rfl := Except.ok.inj readNow
    constructor
    · intro claimed same
      obtain ⟨known, isKnown⟩ := Option.ne_none_iff_exists'.mp claimed
      have ownHash := own known isKnown
      rw [(currentHash_eq_sha256_iff collisionFree inRange).mpr same] at ownHash
      have overlap := different path (.inl (isKnown.trans ownHash.symm)) start
      omega
    · intro unclaimed spelled
      have overlap := different path (.inr ⟨unclaimed, spelled⟩) start
      omega
  · intro apart path sameHash start
    by_contra overlap
    push Not at overlap
    obtain ⟨notLines, notSpelled⟩ := apart path start overlap
    obtain ⟨now, readNow, inRange, own⟩ := validateLocation_spec (validated kept member path)
    rw [path, read] at readNow
    obtain rfl := Except.ok.inj readNow
    rcases sameHash with claimed | ⟨unclaimed, spelled⟩
    · apply notLines
      · rw [claimed]
        exact Option.some_ne_none _
      · exact (currentHash_eq_sha256_iff collisionFree inRange).mp (own _ claimed)
    · exact notSpelled unclaimed spelled

/-- The benchmark recognises what the pipeline reports exactly where the hash of the reported lines
is that of the whole file; and it takes nothing that was reported on another version of the file
exactly where no reported lines of that version are the file of the case. -/
theorem benchmark_recognises_iff (collisionFree : Function.Injective texts.source.sha256)
    {manifest : BenchmarkManifest Digest} {workspace : Workspace}
    {bindings : List (BenchmarkGroundTruthBinding Digest)}
    (validated : validateBenchmarkGroundTruth texts.source control manifest workspace = .ok bindings)
    {case : BenchmarkCase Digest} (member : case ∈ manifest.cases) :
    ∃ tree data, IsTreeOf manifest workspace case tree ∧
      resolveGroundTruthSource control tree case.path = .ok data ∧
      (∀ repository validations group finding location, SameFiles tree repository →
        Reported texts control lower repository case validations group finding location →
        (matchesCase finding case = true ∧ matchesCaseExactly finding case = true ↔
          Recognisable texts validations group finding location case data)) ∧
      ∀ repository validations group finding stale, stale ≠ data →
        ReportedElsewhere texts control lower repository case stale validations group finding →
        (matchesCase finding case = false ↔
          Apart texts validations group finding case data stale) := by
  obtain ⟨tree, data, isTree, resolved, hash, wellFormed, -⟩ :=
    exists_source_of_validateBenchmarkGroundTruth validated member
  refine ⟨tree, data, isTree, resolved, ?_, ?_⟩
  · intro repository validations group finding location same reported
    exact reported.matches_iff collisionFree resolved hash wellFormed same
  · intro repository validations group finding stale _ reported
    exact reported.matches_iff collisionFree hash

end Recognition

/-! ## One line of a file -/

def vaultFile : List UInt8 :=
  encode "contract Vault \x7b\n  uint x;\n\x7d\n".toList

/-- The second line of the file, with the hash of that line. -/
def secondLine : Location (List UInt8) where
  path := "Vault.sol".toList
  startLine := 2
  endLine := 2
  symbol := none
  contentHash := some (encode "  uint x;\n".toList)
  positive := by decide
  ordered := by decide

theorem allLines_ordered : 1 ≤ 3 := by
  decide

/-- All lines of the file. -/
def allLines : Location (List UInt8) where
  path := "Vault.sol".toList
  startLine := 1
  endLine := 3
  symbol := none
  contentHash := some vaultFile
  positive := by decide
  ordered := allLines_ordered

def vaultCase (id : String) (variant : Variant) (startLine endLine : ℕ) (positive : 1 ≤ startLine)
    (ordered : startLine ≤ endLine) : BenchmarkCase (List UInt8) where
  id := id
  repositoryId := "vault"
  variant := variant
  category := "reentrancy"
  path := "Vault.sol".toList
  startLine := startLine
  endLine := endLine
  sourceSha256 := vaultFile
  minimumSeverity := .high
  positive := positive
  ordered := ordered

/-- A vulnerable second line, the whole file as another vulnerable case, and a safe control. -/
def vaultManifest : BenchmarkManifest (List UInt8) where
  repositories := [⟨"vault", "vault".toList⟩]
  cases := [vaultCase "a" .vulnerable 2 2 (by decide) (by decide),
    vaultCase "b" .vulnerable 1 3 (by decide) allLines_ordered,
    vaultCase "c" .safe 1 1 (by decide) (by decide)]
  repositories_sorted := by simp
  cases_sorted := by decide +kernel
  repositories_covered := by
    intro repositoryId
    simp [vaultCase]
  hashes_agree := by decide +kernel
  some_vulnerable := by decide +kernel
  safe_controls := by decide +kernel

def vaultWorkspace : Workspace where
  directory := fun _ => some fun _ => .file false vaultFile

def vaultRepository : Context.Repository where
  entry := fun _ => .file vaultFile

/-- The hash of the file, and of an excerpt with all its lines. -/
def vaultIndex : Dict HashKey (List UInt8) :=
  (Dict.empty.insert ("Vault.sol".toList, 0, 0) vaultFile).insert ("Vault.sol".toList, 1, 3)
    vaultFile

def vaultCandidate (location : Location (List UInt8)) : CandidateFinding (List UInt8) :=
  { sampleCandidate "a" [scannerEvidence] with
    locations := [location]
    source := none
    sink := none }

def vaultGroup (location : Location (List UInt8)) : CandidateGroup (List UInt8) where
  groupId := "group-1"
  candidates := [vaultCandidate location]

def vaultValidations (location : Location (List UInt8)) :
    Dict String (LocationValidation (List UInt8)) :=
  Dict.empty.insert "a" (validateCandidate (fun _ => false) plainTexts id vaultRepository
    (vaultCandidate location) vaultIndex)

def vaultFinding (location : Location (List UInt8)) : Except ValueError (Finding (List UInt8)) :=
  mergeGroup plainTexts [] sampleDecisions (vaultValidations location) (vaultGroup location) none

/-- The finding is active, severe and valid, and keeps the location. -/
def isKept (location : Location (List UInt8)) (finding : Finding (List UInt8)) : Bool :=
  findingIsActive finding && finding.locationValidation.valid &&
    decide (finding.severity = .critical) && decide (finding.locations = [location])

/-- The ground truth and the candidate are valid, the finding keeps the exact lines of the case,
and it matches nothing. -/
theorem exact_lines_unmatched :
    (validateBenchmarkGroundTruth plainTexts.source (fun _ => false) vaultManifest
        vaultWorkspace).toOption.isSome = true ∧
      (validateCandidate (fun _ => false) plainTexts id vaultRepository
        (vaultCandidate secondLine) vaultIndex).valid = true ∧
      ((vaultFinding secondLine).toOption.any fun finding => isKept secondLine finding &&
        !matchesCase finding (vaultCase "a" .vulnerable 2 2 (by decide) (by decide))) = true := by
  decide +kernel

/-- A finding with all lines of the file matches the case with all lines. -/
theorem all_lines_recognised_sample :
    ∃ finding, vaultFinding allLines = .ok finding ∧
      matchesCase finding (vaultCase "b" .vulnerable 1 3 (by decide) (by decide)) = true ∧
      matchesCaseExactly finding (vaultCase "b" .vulnerable 1 3 (by decide) (by decide)) = true := by
  obtain ⟨bindings, validated⟩ := @eq_ok_of_toOption_isSome _ _
    (validateBenchmarkGroundTruth plainTexts.source (fun _ => false) vaultManifest vaultWorkspace)
    (by decide +kernel)
  obtain ⟨finding, returned⟩ := @eq_ok_of_toOption_isSome _ _ (vaultFinding allLines)
    (by decide +kernel)
  have kept : ((vaultFinding allLines).toOption.any (isKept allLines)) = true := by decide +kernel
  rw [returned] at kept
  simp only [Except.toOption, Option.any_some, isKept, Bool.and_eq_true, decide_eq_true_eq] at kept
  obtain ⟨⟨⟨active, valid⟩, severity⟩, locations⟩ := kept
  obtain ⟨tree, data, ⟨_, _, _, isTree⟩, resolved, recognised, -⟩ :=
    @benchmark_recognises_iff _ plainTexts _ id _ Function.injective_id _ _ _ validated _
      (List.mem_cons_of_mem _ List.mem_cons_self :
        vaultCase "b" .vulnerable 1 3 (by decide) (by decide) ∈ vaultManifest.cases)
  obtain rfl := Option.some.inj isTree
  have isFile : resolveGroundTruthSource (fun _ => false) (fun _ => .file false vaultFile)
      "Vault.sol".toList = .ok vaultFile := by decide +kernel
  obtain rfl := Except.ok.inj (isFile.symm.trans resolved)
  refine ⟨finding, returned, (recognised vaultRepository (vaultValidations allLines)
    (vaultGroup allLines) finding allLines ?_ ?_).mpr ?_⟩
  · rintro path shared data now ⟨⟩ ⟨⟩
    rfl
  · exact {
      merged := ⟨[], sampleDecisions, none, returned⟩
      validated := ⟨vaultCandidate allLines, List.mem_cons_self, List.mem_cons_self, vaultIndex,
        by decide +kernel⟩
      path := rfl
      start := rfl
      stop := rfl
      kept := by rw [locations]; exact List.mem_cons_self
      valid := valid
      active := active
      severe := by rw [severity]; decide }
  · exact .inl ⟨by decide, by unfold WholeFile; decide +kernel⟩

end Benchmark

end MmAudit
