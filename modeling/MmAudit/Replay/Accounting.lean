import MmAudit.Replay.Presenting

/-!
# Every sealed component is accounted for

The replay is assembled from the components of the four stages.  It accounts for every sealed
component exactly once, unless one component cannot be presented, there are too many of them, or a
harness and a saved test share one identifier: then the replay of all components is lost.
-/

namespace MmAudit

namespace Replay

open Fallible

section Assembly

variable {Digest Details Project : Type} [DecidableEq Digest]
  (canonicalSha256 : Projection Details → Digest)
  (artifacts : ReplayArtifacts Digest Details) (outcomes : ReplayOutcomes Digest Details Project)

/-! ## The assembly -/

/-- The components of all stages. -/
def stageComponents : List (OfflineReplayComponent Digest) :=
  replayScanners canonicalSha256 artifacts.scannerRuns outcomes.scanners ++
    replayRepositoryDifferential canonicalSha256 artifacts outcomes ++
    artifacts.harnesses.map (invariantComponent canonicalSha256 artifacts outcomes) ++
    artifacts.testSpecifications.map (reproductionComponent canonicalSha256 artifacts outcomes)

def harnessKey (harness : FoundryInvariantHarnessSpec Details) : ReplayComponentKind × String :=
  (invariantKind (invariantBaseline? artifacts harness), harnessIdentifier harness)

/-- `_applicable_replay_components` -/
def applicableReplayComponents : List (ReplayComponentKind × String) :=
  artifacts.scannerRuns.map (fun run => (.scanner, run.scanner)) ++
    artifacts.harnesses.map (harnessKey artifacts) ++
    artifacts.testSpecifications.map
      (fun specification => (.savedTest, specificationIdentifier specification)) ++
    if artifacts.differentialRequired then
      [(.repositorySuiteDifferential, differentialIdentifier)]
    else []

/-- `_applicable_replay_kinds` -/
def applicableReplayKinds : Except ValueError (List ReplayComponentKind) := do
  raiseIf (applicableReplayComponents artifacts = [])
    ⟨"offline replay has no sealed deterministic component to execute"⟩
  return sortedKinds ((applicableReplayComponents artifacts).map Prod.fst)

structure OfflineReplay (Digest : Type) where
  payload : OfflineReplayPayload Digest
  replaySha256 : Digest

/-- The validators of `OfflineReplay`. -/
def OfflineReplay.validate (payloadSha256 : OfflineReplayPayload Digest → Digest)
    (replay : OfflineReplay Digest) : Except ValueError (OfflineReplay Digest) := do
  let payload ← replay.payload.validate
  raiseIf (replay.replaySha256 ≠ payloadSha256 payload) ⟨"offline replay hash is inconsistent"⟩
  return replay

/-- What the verification of the run says about it. -/
structure RunIdentity (Digest : Type) where
  runId : String
  manifestSha256 : Digest
  runVerificationSha256 : Digest

def sortComponents (components : List (OfflineReplayComponent Digest)) :
    List (OfflineReplayComponent Digest) :=
  components.insertionSort fun component other => orderOf component.key ≤ orderOf other.key

/-- The assembly in `OfflineReplayOrchestrator.replay`. -/
def assembleReplay (payloadSha256 : OfflineReplayPayload Digest → Digest)
    (run : RunIdentity Digest) : Except ValueError (OfflineReplay Digest) := do
  let components ← (stageComponents canonicalSha256 artifacts outcomes).mapM (·.validate)
  let ordered := sortComponents components
  let applicable ← applicableReplayKinds artifacts
  let missing := missingKindsOf applicable ordered
  let payload ← OfflineReplayPayload.validate {
    status := statusOf ordered missing
    runId := run.runId
    manifestSha256 := run.manifestSha256
    runVerificationSha256 := run.runVerificationSha256
    components := ordered
    applicableKinds := applicable
    missingKinds := missing }
  OfflineReplay.validate payloadSha256 ⟨payload, payloadSha256 payload⟩

/-! ## Keys -/

/-- The scanners that were observed although none was sealed under their names. -/
def unexpectedScanners : List String :=
  if artifacts.scannerRuns.isEmpty || outcomes.scanners.failure.isSome then []
  else (byName outcomes.scanners.observed).keys.filter
    (· ∉ artifacts.scannerRuns.map (·.scanner))

/-- The names of the components of scanners. -/
def scannerNames : List String :=
  if artifacts.scannerRuns.isEmpty then []
  else if outcomes.scanners.failure.isSome then artifacts.scannerRuns.map (·.scanner)
  else ((byName artifacts.scannerRuns).keys ++ (byName outcomes.scanners.observed).keys).dedup
    |>.insertionSort (· ≤ ·)

omit [DecidableEq Digest] in
theorem mem_keys_byName (runs : List (ScannerRun Digest Details)) (name : String) :
    name ∈ (byName runs).keys ↔ name ∈ runs.map (·.scanner) := by
  have general : ∀ (items : List (String × ScannerRun Digest Details))
      (dict : Dict String (ScannerRun Digest Details)),
      name ∈ items.foldl (fun named item => named.insert item.1 item.2) dict ↔
        name ∈ dict ∨ name ∈ items.map Prod.fst := by
    intro items
    induction items with
    | nil => exact fun dict => by simp
    | cons item items ih =>
        intro dict
        rw [List.foldl_cons, ih, Dict.mem_insert_iff, List.map_cons, List.mem_cons]
        tauto
  have whole := general (runs.map fun run => (run.scanner, run)) Dict.empty
  rw [List.map_map] at whole
  refine whole.trans ⟨?_, .inr⟩
  rintro (inEmpty | member)
  · exact absurd inEmpty List.not_mem_nil
  · exact member

theorem keys_replayScanners :
    (replayScanners canonicalSha256 artifacts.scannerRuns outcomes.scanners).map (·.key) =
      (scannerNames artifacts outcomes).map fun name => (.scanner, name) := by
  unfold replayScanners scannerNames
  cases artifacts.scannerRuns.isEmpty with
  | true => rfl
  | false =>
      rw [if_neg Bool.false_ne_true, if_neg Bool.false_ne_true]
      cases outcomes.scanners.failure with
      | some failure =>
          dsimp only
          rw [Option.isSome_some, if_pos rfl, List.map_map, List.map_map]
          rfl
      | none =>
          dsimp only
          rw [Option.isSome_none, if_neg Bool.false_ne_true, List.map_filterMap,
            ← List.filterMap_eq_map]
          refine List.filterMap_congr fun name member => ?_
          rw [List.mem_insertionSort, List.mem_dedup, List.mem_append] at member
          cases prior : (byName artifacts.scannerRuns).get? name with
          | some prior =>
              cases (byName outcomes.scanners.observed).get? name with
              | some current => rfl
              | none => rfl
          | none =>
              cases current : (byName outcomes.scanners.observed).get? name with
              | some current =>
                  dsimp only [scannerComponent, Option.map_some, Function.comp_apply]
                  unfold driftedComponent
                  split
                  · rfl
                  · rfl
              | none =>
                  rw [Dict.get?_eq_none_iff] at prior current
                  exact absurd member (not_or.mpr ⟨prior, current⟩)

omit [DecidableEq Digest] in
theorem nodup_scannerNames : (scannerNames artifacts outcomes).Nodup := by
  unfold scannerNames
  split
  · exact List.nodup_nil
  · split
    · exact artifacts.scannersUnique
    · exact (List.perm_insertionSort _ _).nodup_iff.mpr (List.nodup_dedup _)

omit [DecidableEq Digest] in
theorem nodup_unexpectedScanners : (unexpectedScanners artifacts outcomes).Nodup := by
  unfold unexpectedScanners
  split
  · exact List.nodup_nil
  · exact List.filter_sublist.nodup (byName outcomes.scanners.observed).nodup

omit [DecidableEq Digest] in
/-- The names are those of the sealed scanners and the unexpected ones. -/
theorem scannerNames_perm : (scannerNames artifacts outcomes).Perm
    (artifacts.scannerRuns.map (·.scanner) ++ unexpectedScanners artifacts outcomes) := by
  have disjoint : ∀ name ∈ artifacts.scannerRuns.map (·.scanner),
      ∀ other ∈ unexpectedScanners artifacts outcomes, name ≠ other := by
    rintro name member other unexpected rfl
    unfold unexpectedScanners at unexpected
    split at unexpected
    · cases unexpected
    · exact of_decide_eq_true (List.mem_filter.mp unexpected).2 member
  refine (List.perm_ext_iff_of_nodup (nodup_scannerNames artifacts outcomes) (List.nodup_append.mpr
    ⟨artifacts.scannersUnique, nodup_unexpectedScanners artifacts outcomes, disjoint⟩)).mpr ?_
  intro name
  unfold scannerNames unexpectedScanners
  cases isEmpty : artifacts.scannerRuns.isEmpty with
  | true =>
      rw [List.isEmpty_iff] at isEmpty
      simp [isEmpty]
  | false =>
      rw [if_neg Bool.false_ne_true, Bool.false_or]
      cases outcomes.scanners.failure with
      | some failure => simp
      | none =>
          rw [Option.isSome_none, if_neg Bool.false_ne_true, if_neg Bool.false_ne_true,
            List.mem_insertionSort, List.mem_dedup, List.mem_append, List.mem_append,
            List.mem_filter, mem_keys_byName, mem_keys_byName, decide_eq_true_eq]
          tauto

theorem keys_replayRepositoryDifferential :
    (replayRepositoryDifferential canonicalSha256 artifacts outcomes).map (·.key) =
      if artifacts.differentialRequired then
        [(.repositorySuiteDifferential, differentialIdentifier)]
      else [] := by
  unfold replayRepositoryDifferential
  cases artifacts.differentialRequired with
  | false => rfl
  | true =>
      rw [if_neg (by decide), if_pos rfl]
      split
      · rename_i expected _ _
        unfold differentialComponent
        dsimp only
        split
        · rfl
        · rfl
        · rfl
      · rfl

theorem key_invariantComponent (harness : FoundryInvariantHarnessSpec Details) :
    (invariantComponent canonicalSha256 artifacts outcomes harness).key =
      harnessKey artifacts harness := by
  unfold invariantComponent harnessKey
  dsimp only
  split
  · rename_i noPrior
    rw [noPrior]
    rfl
  · rename_i prior hasPrior
    rw [hasPrior]
    split
    · rfl
    · rfl
    · rfl

theorem key_reproductionComponent (specification : GeneratedFoundryTestSpec Details) :
    (reproductionComponent canonicalSha256 artifacts outcomes specification).key =
      (.savedTest, specificationIdentifier specification) := by
  unfold reproductionComponent
  dsimp only
  split
  · rfl
  · split
    · rfl
    · rfl
    · rfl

/-- The keys of all components. -/
theorem keys_stageComponents :
    (stageComponents canonicalSha256 artifacts outcomes).map (·.key) =
      (scannerNames artifacts outcomes).map (fun name => (ReplayComponentKind.scanner, name)) ++
        (if artifacts.differentialRequired then
          [(.repositorySuiteDifferential, differentialIdentifier)] else []) ++
        artifacts.harnesses.map (harnessKey artifacts) ++
        artifacts.testSpecifications.map
          (fun specification => (.savedTest, specificationIdentifier specification)) := by
  rw [stageComponents, List.map_append, List.map_append, List.map_append, keys_replayScanners,
    keys_replayRepositoryDifferential, List.map_map, List.map_map]
  congr 1
  · congr 1
    exact List.map_congr_left fun harness _ =>
      key_invariantComponent canonicalSha256 artifacts outcomes harness
  · exact List.map_congr_left fun specification _ =>
      key_reproductionComponent canonicalSha256 artifacts outcomes specification

/-- The components are those that apply and the unexpected scanners. -/
theorem keys_stageComponents_perm :
    ((stageComponents canonicalSha256 artifacts outcomes).map (·.key)).Perm
      (applicableReplayComponents artifacts ++
        (unexpectedScanners artifacts outcomes).map fun name => (.scanner, name)) := by
  rw [keys_stageComponents, applicableReplayComponents]
  have names := (scannerNames_perm artifacts outcomes).map
    fun name => (ReplayComponentKind.scanner, name)
  rw [List.map_append, List.map_map] at names
  rw [← Multiset.coe_eq_coe] at names ⊢
  simp only [← Multiset.coe_add] at names ⊢
  rw [names]
  simp only [Function.comp_def]
  abel

/-- A harness and a saved test that share ID and name, while the harness has no counterexample. -/
def SharesIdentifier : Prop :=
  ∃ harness ∈ artifacts.harnesses, ∃ specification ∈ artifacts.testSpecifications,
    harness.invariantId = specification.candidateId ∧ harness.name = specification.name ∧
      invariantKind (invariantBaseline? artifacts harness) = .savedTest

omit [DecidableEq Digest] in
theorem invariantKind_cases (prior : Option (InvariantExecutionResult Digest Details)) :
    invariantKind prior = .counterexample ∨ invariantKind prior = .savedTest := by
  unfold invariantKind
  split
  · exact .inl rfl
  · exact .inr rfl

/-- The keys are distinct exactly when no identifier is shared. -/
theorem nodup_keys_iff : ((stageComponents canonicalSha256 artifacts outcomes).map (·.key)).Nodup ↔
    ¬ SharesIdentifier artifacts := by
  have scanners : ((scannerNames artifacts outcomes).map
      fun name => (ReplayComponentKind.scanner, name)).Nodup :=
    (nodup_scannerNames artifacts outcomes).map fun first second same => (Prod.mk.inj same).2
  have harnesses : (artifacts.harnesses.map (harnessKey artifacts)).Nodup := by
    have distinct := artifacts.harnessesUnique
    rw [List.Nodup, List.pairwise_map] at distinct ⊢
    refine distinct.imp fun {first second} different same => different ?_
    obtain ⟨sameId, sameName⟩ :=
      identifier_injective first.named second.named (Prod.mk.inj same).2
    rw [sameId, sameName]
  have specifications : (artifacts.testSpecifications.map fun specification =>
      (ReplayComponentKind.savedTest, specificationIdentifier specification)).Nodup := by
    have distinct := artifacts.specificationsUnique
    rw [List.Nodup, List.pairwise_map] at distinct ⊢
    refine distinct.imp fun {first second} different same => different ?_
    obtain ⟨sameId, sameName⟩ :=
      identifier_injective first.named second.named (Prod.mk.inj same).2
    rw [sameId, sameName]
  rw [keys_stageComponents, List.nodup_append, List.nodup_append, List.nodup_append]
  constructor
  · rintro ⟨-, -, apart⟩ ⟨harness, member, specification, listed, sameId, sameName, savedTest⟩
    refine apart (harnessKey artifacts harness)
      (List.mem_append_right _ (List.mem_map_of_mem member)) _
      (List.mem_map_of_mem listed) ?_
    rw [harnessKey, savedTest, harnessIdentifier, specificationIdentifier, sameId, sameName]
  · intro notShared
    refine ⟨⟨⟨scanners, ?_, ?_⟩, harnesses, ?_⟩, specifications, ?_⟩
    · split
      · exact List.nodup_singleton _
      · exact List.nodup_nil
    · rintro key member other otherMember rfl
      obtain ⟨name, -, rfl⟩ := List.mem_map.mp member
      split at otherMember
      · cases (Prod.mk.inj (List.mem_singleton.mp otherMember)).1
      · cases otherMember
    · rintro key member other otherMember rfl
      obtain ⟨harness, -, rfl⟩ := List.mem_map.mp otherMember
      have isKind := invariantKind_cases (invariantBaseline? artifacts harness)
      rcases List.mem_append.mp member with scanner | differential
      · obtain ⟨name, -, same⟩ := List.mem_map.mp scanner
        rw [← (Prod.mk.inj same).1] at isKind
        rcases isKind with kind | kind <;> cases kind
      · split at differential
        · rw [(Prod.mk.inj (List.mem_singleton.mp differential)).1] at isKind
          rcases isKind with kind | kind <;> cases kind
        · cases differential
    · rintro key member other otherMember rfl
      obtain ⟨specification, listed, rfl⟩ := List.mem_map.mp otherMember
      rcases List.mem_append.mp member with others | inHarnesses
      · rcases List.mem_append.mp others with scanner | differential
        · obtain ⟨name, -, same⟩ := List.mem_map.mp scanner
          cases (Prod.mk.inj same).1
        · split at differential
          · cases (Prod.mk.inj (List.mem_singleton.mp differential)).1
          · cases differential
      · obtain ⟨harness, harnessMember, same⟩ := List.mem_map.mp inHarnesses
        obtain ⟨savedTest, sameIdentifier⟩ := Prod.mk.inj same
        obtain ⟨sameId, sameName⟩ :=
          identifier_injective harness.named specification.named sameIdentifier
        exact notShared ⟨harness, harnessMember, specification, listed, sameId, sameName, savedTest⟩

/-! ## What must be presentable -/

/-- The backend that a result names is short and not empty. -/
def ExecutionIdentity.IsPresentable (identity : ExecutionIdentity Digest) : Prop :=
  ∀ backend ∈ identity.isolationBackend, isBounded 100 backend = true

/-- Fixed words and the name of a class make a limitation. -/
theorem isText_limitation {words : String} (isWords : isText 700 words = true)
    (failure : CaughtError) : isText 1000 (words ++ failure.className) = true :=
  isText_mono (by decide) (isText_append isWords (isText_className failure))

theorem isText_stateLimitation {words state : String} (isWords : isText 700 words = true)
    (isState : isText 200 state = true) : isText 1000 (words ++ state) = true :=
  isText_mono (by decide) (isText_append isWords isState)

theorem isPresentable_scannerComponent {name : String}
    {prior current : Option (ScannerRun Digest Details)}
    {component : OfflineReplayComponent Digest}
    (made : scannerComponent canonicalSha256 name prior current = some component) :
    component.IsPresentable ↔ isText 1000 name = true ∧
      (prior ≠ none → ∀ run ∈ current, run.identity.IsPresentable) := by
  cases prior with
  | none =>
      cases current with
      | none => cases made
      | some run =>
          obtain rfl := Option.some.inj made
          refine (isPresentable_driftedComponent canonicalSha256 _ _ _ _ _ _ _).trans
            (and_iff_left fun hasPrior => absurd rfl hasPrior).symm
  | some prior =>
      cases current with
      | none =>
          obtain rfl := Option.some.inj made
          refine (isPresentable_blockedComponent canonicalSha256 _ _ _ _ _).trans
            (and_congr_right fun _ => ?_)
          refine iff_of_true (by decide) ?_
          rintro - run ⟨⟩
      | some run =>
          obtain rfl := Option.some.inj made
          refine (isPresentable_comparedComponent canonicalSha256 _ _ _ _ _ _ _ _
            (isText_stateLimitation (by decide) (isText_scannerStatus _))).trans
            (and_congr_right fun _ => ?_)
          constructor
          · rintro good - _ ⟨⟩
            exact good
          · exact fun good => good (Option.some_ne_none prior) run rfl

theorem isPresentable_replayScanners :
    (∀ component ∈ replayScanners canonicalSha256 artifacts.scannerRuns outcomes.scanners,
      component.IsPresentable) ↔
    (∀ run ∈ artifacts.scannerRuns, isText 1000 run.scanner = true) ∧
    (∀ name ∈ unexpectedScanners artifacts outcomes, isText 1000 name = true) ∧
    (outcomes.scanners.failure = none → ∀ run ∈ artifacts.scannerRuns,
      ∀ current ∈ (byName outcomes.scanners.observed).get? run.scanner,
        current.identity.IsPresentable) := by
  have names := scannerNames_perm artifacts outcomes
  unfold replayScanners unexpectedScanners
  unfold scannerNames unexpectedScanners at names
  cases isEmpty : artifacts.scannerRuns.isEmpty with
  | true =>
      rw [List.isEmpty_iff] at isEmpty
      simp [isEmpty]
  | false =>
      rw [isEmpty, if_neg Bool.false_ne_true, Bool.false_or] at names
      rw [if_neg Bool.false_ne_true, Bool.false_or]
      cases failed : outcomes.scanners.failure with
      | some failure =>
          dsimp only
          rw [List.forall_mem_map, Option.isSome_some, if_pos rfl]
          have each : ∀ run : ScannerRun Digest Details, (blockedComponent canonicalSha256 .scanner
              run.scanner run.status.value (.scanner run.projection)
              ("scanner replay failed safely: " ++ failure.className)).IsPresentable ↔
                isText 1000 run.scanner = true := fun run =>
            (isPresentable_blockedComponent canonicalSha256 _ _ _ _ _).trans
              (and_iff_left (isText_limitation (by decide) failure))
          constructor
          · intro presentable
            refine ⟨fun run member => (each run).mp (presentable run member),
              fun name member => absurd member List.not_mem_nil, ?_⟩
            rintro ⟨⟩
          · rintro ⟨runs, -⟩ run member
            exact (each run).mpr (runs run member)
      | none =>
          rw [failed, Option.isSome_none, if_neg Bool.false_ne_true, if_neg Bool.false_ne_true]
            at names
          dsimp only
          rw [Option.isSome_none, if_neg Bool.false_ne_true]
          have made : ∀ name ∈ ((byName artifacts.scannerRuns).keys ++
              (byName outcomes.scanners.observed).keys).dedup.insertionSort (· ≤ ·),
              ∃ component, scannerComponent canonicalSha256 name
                ((byName artifacts.scannerRuns).get? name)
                ((byName outcomes.scanners.observed).get? name) = some component := by
            intro name member
            rw [List.mem_insertionSort, List.mem_dedup, List.mem_append] at member
            cases prior : (byName artifacts.scannerRuns).get? name with
            | some prior =>
                cases (byName outcomes.scanners.observed).get? name with
                | some current => exact ⟨_, rfl⟩
                | none => exact ⟨_, rfl⟩
            | none =>
                cases current : (byName outcomes.scanners.observed).get? name with
                | some current => exact ⟨_, rfl⟩
                | none =>
                    rw [Dict.get?_eq_none_iff] at prior current
                    exact absurd member (not_or.mpr ⟨prior, current⟩)
          have sealed : ∀ run ∈ artifacts.scannerRuns,
              (byName artifacts.scannerRuns).get? run.scanner ≠ none := by
            intro run member
            rw [Ne, Dict.get?_eq_none_iff, not_not]
            exact (mem_keys_byName _ _).mpr (List.mem_map_of_mem member)
          constructor
          · intro presentable
            have each : ∀ name, name ∈ artifacts.scannerRuns.map (·.scanner) ++
                (byName outcomes.scanners.observed).keys.filter
                  (· ∉ artifacts.scannerRuns.map (·.scanner)) → isText 1000 name = true ∧
                ((byName artifacts.scannerRuns).get? name ≠ none →
                  ∀ current ∈ (byName outcomes.scanners.observed).get? name,
                    current.identity.IsPresentable) := by
              intro name member
              have listed := names.mem_iff.mpr member
              obtain ⟨component, isMade⟩ := made name listed
              exact (isPresentable_scannerComponent canonicalSha256 isMade).mp
                (presentable component (List.mem_filterMap.mpr ⟨name, listed, isMade⟩))
            refine ⟨fun run member => ?_, fun name member => ?_, fun _ run member => ?_⟩
            · exact (each run.scanner (List.mem_append_left _ (List.mem_map_of_mem member))).1
            · exact (each name (List.mem_append_right _ member)).1
            · exact (each run.scanner (List.mem_append_left _ (List.mem_map_of_mem member))).2
                (sealed run member)
          · rintro ⟨runs, unexpected, backends⟩ component member
            obtain ⟨name, listed, isMade⟩ := List.mem_filterMap.mp member
            refine (isPresentable_scannerComponent canonicalSha256 isMade).mpr ?_
            rcases List.mem_append.mp (names.mem_iff.mp listed) with isSealed | isUnexpected
            · obtain ⟨run, inRuns, rfl⟩ := List.mem_map.mp isSealed
              exact ⟨runs run inRuns, fun _ => backends rfl run inRuns⟩
            · refine ⟨unexpected name isUnexpected, fun hasPrior => absurd ?_ hasPrior⟩
              rw [Dict.get?_eq_none_iff]
              intro isKey
              exact of_decide_eq_true (List.mem_filter.mp isUnexpected).2
                ((mem_keys_byName _ _).mp isKey)

theorem isText_differentialRefusal {expected : RepositorySuiteDifferentialRun Digest Details}
    {limitation : String}
    (attempt : differentialAttempt canonicalSha256 artifacts outcomes expected =
      .refused limitation) : isText 1000 limitation = true := by
  unfold differentialAttempt at attempt
  split at attempt
  · cases attempt
    decide
  · split at attempt
    · cases attempt
      decide
    · split at attempt
      · rename_i missing _
        cases attempt
        cases missing <;> decide
      · split at attempt
        · cases attempt
          decide
        · cases run : outcomes.differential <;> rw [run] at attempt <;> cases attempt

theorem isPresentable_replayRepositoryDifferential :
    (∀ component ∈ replayRepositoryDifferential canonicalSha256 artifacts outcomes,
      component.IsPresentable) ↔
    (∀ limitation ∈ artifacts.differentialLimitation,
      limitation = "" ∨ isText 1000 limitation = true) ∧
    (∀ expected ∈ artifacts.differential, ∀ repositorySha256 current,
      differentialAttempt canonicalSha256 artifacts outcomes expected =
        .returned (repositorySha256, current) → current.identity.IsPresentable) := by
  have isIdentifier : isText 1000 differentialIdentifier = true := by decide
  unfold replayRepositoryDifferential
  cases required : artifacts.differentialRequired with
  | false =>
      have absent : artifacts.differential = none := by
        by_contra present
        rw [artifacts.obligation present] at required
        cases required
      have noLimitation := artifacts.noLimitation (by simp [required])
      simp [absent, noLimitation]
  | true =>
      rw [if_neg (by decide)]
      cases present : artifacts.differential with
      | none =>
          obtain ⟨limitation, limited⟩ := Option.ne_none_iff_exists'.mp
            (artifacts.limitation present required)
          rw [limited]
          dsimp only
          rw [List.forall_mem_singleton, isPresentable_blockedComponent, Option.getD_some]
          by_cases isEmpty : limitation.isEmpty = true
          · rw [if_pos isEmpty]
            obtain rfl := String.isEmpty_iff.mp isEmpty
            refine iff_of_true ⟨isIdentifier, by decide⟩ ⟨?_, ?_⟩
            · rintro _ ⟨⟩
              exact .inl rfl
            · rintro _ ⟨⟩
          · rw [if_neg isEmpty]
            constructor
            · rintro ⟨-, isLimitation⟩
              refine ⟨?_, ?_⟩
              · rintro _ ⟨⟩
                exact .inr isLimitation
              · rintro _ ⟨⟩
            · rintro ⟨isLimitation, -⟩
              refine ⟨isIdentifier, (isLimitation limitation rfl).resolve_left ?_⟩
              rintro rfl
              exact isEmpty rfl
      | some expected =>
          have noLimitation := artifacts.noLimitation (by simp [present])
          rw [noLimitation]
          dsimp only
          rw [List.forall_mem_singleton]
          have onlyExpected : (∀ other ∈ some expected, ∀ repositorySha256 current,
              differentialAttempt canonicalSha256 artifacts outcomes other =
                .returned (repositorySha256, current) → current.identity.IsPresentable) ↔
              ∀ repositorySha256 current,
                differentialAttempt canonicalSha256 artifacts outcomes expected =
                  .returned (repositorySha256, current) → current.identity.IsPresentable := by
            constructor
            · exact fun good => good expected rfl
            · rintro good other ⟨⟩
              exact good
          rw [onlyExpected, and_iff_right (by rintro _ ⟨⟩)]
          unfold differentialComponent
          dsimp only
          cases attempt : differentialAttempt canonicalSha256 artifacts outcomes expected with
          | refused limitation =>
              rw [isPresentable_blockedComponent]
              refine iff_of_true ⟨isIdentifier, ?_⟩ ?_
              · exact isText_differentialRefusal canonicalSha256 artifacts outcomes attempt
              · rintro _ _ ⟨⟩
          | failed failure =>
              rw [isPresentable_blockedComponent]
              refine iff_of_true ⟨isIdentifier, isText_limitation (by decide) failure⟩ ?_
              rintro _ _ ⟨⟩
          | returned result =>
              refine (isPresentable_comparedComponent canonicalSha256 _ _ _ _ _ _ _ _
                (by decide)).trans ((and_iff_right isIdentifier).trans ?_)
              constructor
              · rintro good _ _ ⟨⟩
                exact good
              · exact fun good => good result.1 result.2 rfl

theorem isPresentable_invariantComponent {harness : FoundryInvariantHarnessSpec Details}
    (member : harness ∈ artifacts.harnesses) :
    (invariantComponent canonicalSha256 artifacts outcomes harness).IsPresentable ↔
      isPrintable harness.invariantId = true ∧
      ∀ current, invariantAttempt artifacts outcomes harness = .returned current →
        current.identity.IsPresentable := by
  have identifier := isText_identifier harness.bounded harness.named
  obtain ⟨prior, hasPrior⟩ : ∃ prior, invariantBaseline? artifacts harness = some prior := by
    rw [invariantBaseline?, ← Option.isSome_iff_exists, List.find?_isSome]
    obtain ⟨result, listed, same⟩ := List.mem_map.mp
      ((artifacts.invariantResultsCover _).mpr (List.mem_map_of_mem member))
    exact ⟨result, listed, decide_eq_true same⟩
  unfold invariantComponent
  dsimp only
  rw [hasPrior]
  dsimp only
  cases attempt : invariantAttempt artifacts outcomes harness with
  | refused limitation =>
      have isLimitation : isText 1000 limitation = true := by
        unfold invariantAttempt at attempt
        split at attempt
        · cases attempt
          decide
        · rename_i project _
          cases run : outcomes.invariant harness project <;> rw [run] at attempt <;> cases attempt
      refine (isPresentable_blockedComponent canonicalSha256 _ _ _ _ _).trans
        (and_congr identifier (iff_of_true isLimitation ?_))
      rintro current ⟨⟩
  | failed failure =>
      refine (isPresentable_blockedComponent canonicalSha256 _ _ _ _ _).trans
        (and_congr identifier (iff_of_true (isText_limitation (by decide) failure) ?_))
      rintro current ⟨⟩
  | returned result =>
      refine (isPresentable_comparedComponent canonicalSha256 _ _ _ _ _ _ _ _
        (isText_stateLimitation (by decide) (isText_invariantStatus _))).trans
        (and_congr identifier ?_)
      constructor
      · rintro good current ⟨⟩
        exact good
      · exact fun good => good result rfl

theorem isPresentable_reproductionComponent {specification : GeneratedFoundryTestSpec Details}
    (member : specification ∈ artifacts.testSpecifications) :
    (reproductionComponent canonicalSha256 artifacts outcomes specification).IsPresentable ↔
      isPrintable specification.candidateId = true ∧
      ∀ prior ∈ reproductionBaseline? artifacts specification, ∀ current,
        reproductionAttempt canonicalSha256 artifacts outcomes specification prior =
          .returned current → current.identity.IsPresentable := by
  have identifier := isText_identifier specification.bounded specification.named
  obtain ⟨prior, hasPrior⟩ : ∃ prior, reproductionBaseline? artifacts specification =
      some prior := by
    rw [reproductionBaseline?, ← Option.isSome_iff_exists, List.find?_isSome]
    obtain ⟨result, listed, same⟩ := List.mem_map.mp
      ((artifacts.reproductionResultsCover _).mpr (List.mem_map_of_mem member))
    exact ⟨result, listed, decide_eq_true same⟩
  have onlyPrior : (∀ other ∈ some prior, ∀ current, reproductionAttempt canonicalSha256 artifacts
      outcomes specification other = .returned current → current.identity.IsPresentable) ↔
      ∀ current, reproductionAttempt canonicalSha256 artifacts outcomes specification prior =
        .returned current → current.identity.IsPresentable := by
    constructor
    · exact fun good => good prior rfl
    · rintro good other ⟨⟩
      exact good
  unfold reproductionComponent
  dsimp only
  rw [hasPrior, onlyPrior]
  dsimp only
  cases attempt : reproductionAttempt canonicalSha256 artifacts outcomes specification prior with
  | refused limitation =>
      have isLimitation : isText 1000 limitation = true := by
        unfold reproductionAttempt at attempt
        split at attempt
        · cases attempt
          decide
        · rename_i candidate _
          split at attempt
          · cases attempt
            decide
          · rename_i project _
            split at attempt
            · cases attempt
              decide
            · cases run : outcomes.reproduction specification candidate project <;>
                rw [run] at attempt <;> cases attempt
      refine (isPresentable_blockedComponent canonicalSha256 _ _ _ _ _).trans
        (and_congr identifier (iff_of_true isLimitation ?_))
      rintro current ⟨⟩
  | failed failure =>
      refine (isPresentable_blockedComponent canonicalSha256 _ _ _ _ _).trans
        (and_congr identifier (iff_of_true (isText_limitation (by decide) failure) ?_))
      rintro current ⟨⟩
  | returned result =>
      refine (isPresentable_comparedComponent canonicalSha256 _ _ _ _ _ _ _ _
        (isText_stateLimitation (by decide) (isText_reproductionState _))).trans
        (and_congr identifier ?_)
      constructor
      · rintro good current ⟨⟩
        exact good
      · exact fun good => good result rfl

/-- The components of the stages are consistent in themselves. -/
theorem isConsistent_of_mem_stageComponents (injective : Function.Injective canonicalSha256)
    {component : OfflineReplayComponent Digest}
    (member : component ∈ stageComponents canonicalSha256 artifacts outcomes) :
    component.IsConsistent := by
  have missingBaseline : isText 200 "missing_baseline" = true := by decide
  rw [stageComponents, List.mem_append, List.mem_append, List.mem_append] at member
  rcases member with ((scanner | differential) | harness) | test
  · unfold replayScanners at scanner
    split at scanner
    · cases scanner
    · split at scanner
      · obtain ⟨run, -, rfl⟩ := List.mem_map.mp scanner
        exact isConsistent_blockedComponent _ _ _ (isText_scannerStatus _) _ _
      · obtain ⟨name, -, made⟩ := List.mem_filterMap.mp scanner
        unfold scannerComponent at made
        split at made
        · cases made
        · obtain rfl := Option.some.inj made
          refine isConsistent_driftedComponent _ _ _ (by decide) (isText_scannerStatus _)
            (fun same => ?_) _
          cases injective same
        · obtain rfl := Option.some.inj made
          exact isConsistent_blockedComponent _ _ _ (isText_scannerStatus _) _ _
        · obtain rfl := Option.some.inj made
          exact isConsistent_comparedComponent _ _ _ (isText_scannerStatus _)
            (isText_scannerStatus _) _ _ _ _ _
  · unfold replayRepositoryDifferential at differential
    split at differential
    · cases differential
    · split at differential
      · rw [List.mem_singleton] at differential
        subst differential
        unfold differentialComponent
        dsimp only
        split
        · exact isConsistent_blockedComponent _ _ _ (isText_differentialStatus _) _ _
        · exact isConsistent_blockedComponent _ _ _ (isText_differentialStatus _) _ _
        · exact isConsistent_comparedComponent _ _ _ (isText_differentialStatus _)
            (isText_differentialStatus _) _ _ _ _ _
      · rw [List.mem_singleton] at differential
        subst differential
        refine isConsistent_blockedComponent _ _ _ ?_ _ _
        cases artifacts.differential with
        | none =>
            rw [Option.elim_none]
            decide
        | some expected => exact isText_differentialStatus _
  · obtain ⟨specification, -, rfl⟩ := List.mem_map.mp harness
    unfold invariantComponent
    dsimp only
    split
    · exact isConsistent_blockedComponent _ _ _ missingBaseline _ _
    · split
      · exact isConsistent_blockedComponent _ _ _ (isText_invariantStatus _) _ _
      · exact isConsistent_blockedComponent _ _ _ (isText_invariantStatus _) _ _
      · exact isConsistent_comparedComponent _ _ _ (isText_invariantStatus _)
          (isText_invariantStatus _) _ _ _ _ _
  · obtain ⟨specification, -, rfl⟩ := List.mem_map.mp test
    unfold reproductionComponent
    dsimp only
    split
    · exact isConsistent_blockedComponent _ _ _ missingBaseline _ _
    · split
      · exact isConsistent_blockedComponent _ _ _ (isText_reproductionState _) _ _
      · exact isConsistent_blockedComponent _ _ _ (isText_reproductionState _) _ _
      · exact isConsistent_comparedComponent _ _ _ (isText_reproductionState _)
          (isText_reproductionState _) _ _ _ _ _

/-! ## The validators of the whole -/

theorem value_injective : Function.Injective ReplayComponentKind.value := by
  intro kind other same
  revert same
  cases kind <;> cases other <;> decide

theorem orderOf_injective : Function.Injective orderOf := by
  rintro ⟨kind, identifier⟩ ⟨other, otherIdentifier⟩ same
  obtain ⟨sameKind, sameIdentifier⟩ := Prod.mk.inj (toLex_inj.mp same)
  exact Prod.ext (value_injective sameKind) sameIdentifier

theorem nodup_sortedKinds (kinds : List ReplayComponentKind) : (sortedKinds kinds).Nodup :=
  (List.perm_insertionSort _ _).nodup_iff.mpr (List.nodup_dedup _)

theorem mem_sortedKinds {kinds : List ReplayComponentKind} {kind : ReplayComponentKind} :
    kind ∈ sortedKinds kinds ↔ kind ∈ kinds := by
  rw [sortedKinds, List.mem_insertionSort, List.mem_dedup]

theorem sortedKinds_sortedKinds (kinds : List ReplayComponentKind) :
    sortedKinds (sortedKinds kinds) = sortedKinds kinds := by
  have sorted : ((sortedKinds kinds).map (·.value)).Pairwise (· ≤ ·) := by
    rw [sortedKinds, List.map_insertionSort _ (· ≤ ·) ReplayComponentKind.value _
      fun _ _ _ _ => Iff.rfl]
    exact List.sortedLE_insertionSort.pairwise
  rw [sortedKinds, List.dedup_eq_self.mpr (nodup_sortedKinds kinds)]
  exact (List.pairwise_map.mp sorted).insertionSort_eq

theorem length_sortedKinds (kinds : List ReplayComponentKind) :
    (sortedKinds kinds).length ≤ 4 := by
  have inside : sortedKinds kinds ⊆
      [.scanner, .savedTest, .counterexample, .repositorySuiteDifferential] := by
    intro kind _
    cases kind <;> decide
  exact (List.subperm_of_subset (nodup_sortedKinds kinds) inside).length_le

omit [DecidableEq Digest] in
/-- Sorted components have strictly increasing keys exactly when their keys are distinct. -/
theorem strict_sortComponents_iff (components : List (OfflineReplayComponent Digest)) :
    ((sortComponents components).map fun component => orderOf component.key).Pairwise (· < ·) ↔
      (components.map (·.key)).Nodup := by
  have sorted : ((sortComponents components).map fun component =>
      orderOf component.key).Pairwise (· ≤ ·) := by
    rw [sortComponents, List.map_insertionSort _ (· ≤ ·)
      (fun component : OfflineReplayComponent Digest => orderOf component.key) _
      fun _ _ _ _ => Iff.rfl]
    exact List.sortedLE_insertionSort.pairwise
  have distinct : ((sortComponents components).map fun component =>
      orderOf component.key).Nodup ↔ (components.map (·.key)).Nodup := by
    have permuted : (sortComponents components).Perm components := List.perm_insertionSort _ _
    rw [(permuted.map _).nodup_iff, ← List.nodup_map_iff orderOf_injective, List.map_map]
    rfl
  rw [← distinct]
  constructor
  · exact List.Pairwise.imp ne_of_lt
  · exact fun nodup => (sorted.and nodup).imp fun both => lt_of_le_of_ne both.1 both.2

omit [DecidableEq Digest] in
/-- The payload of sorted components passes when there are not too many and no key is repeated. -/
theorem validate_payload_iff {payload validated : OfflineReplayPayload Digest}
    {components : List (OfflineReplayComponent Digest)} {kinds : List ReplayComponentKind}
    (nonempty : kinds ≠ []) (isSorted : payload.components = sortComponents components)
    (applicable : payload.applicableKinds = sortedKinds kinds)
    (missing : payload.missingKinds = missingKindsOf payload.applicableKinds payload.components)
    (status : payload.status = statusOf payload.components payload.missingKinds) :
    payload.validate = .ok validated ↔
      (components.length ≤ 200000 ∧ (components.map (·.key)).Nodup) ∧ payload = validated := by
  have someKind : ¬ (payload.applicableKinds.length < 1 ∨ 4 < payload.applicableKinds.length) := by
    have few := length_sortedKinds kinds
    obtain ⟨kind, member⟩ := List.exists_mem_of_ne_nil _ nonempty
    have positive := List.length_pos_of_mem (mem_sortedKinds.mpr member)
    rw [applicable]
    omega
  have fewMissing : ¬ 4 < payload.missingKinds.length := by
    rw [missing]
    exact (length_sortedKinds _).not_gt
  have sortedMissing : ¬ payload.missingKinds ≠ sortedKinds payload.missingKinds := by
    rw [not_not, missing]
    exact (sortedKinds_sortedKinds _).symm
  have sortedApplicable : ¬ payload.applicableKinds ≠ sortedKinds payload.applicableKinds := by
    rw [not_not, applicable, sortedKinds_sortedKinds]
  have sameLength : payload.components.length = components.length := by
    rw [isSorted]
    exact List.length_insertionSort _ _
  unfold OfflineReplayPayload.validate
  rw [raiseIf_bind_eq_ok_iff, raiseIf_bind_of_not someKind, raiseIf_bind_of_not fewMissing,
    raiseIf_bind_eq_ok_iff, raiseIf_bind_of_not sortedMissing,
    raiseIf_bind_of_not sortedApplicable, raiseIf_bind_of_not (not_not.mpr missing),
    raiseIf_bind_of_not (not_not.mpr status), not_lt, not_not, sameLength, and_assoc]
  refine and_congr_right fun _ => and_congr ?_ ?_
  · rw [isSorted]
    exact strict_sortComponents_iff components
  · exact ⟨Except.ok.inj, congrArg Except.ok⟩

/-! ## When the replay accounts for everything -/

/-- The conditions on the artifacts and on what the runners return. -/
structure IsReplayable : Prop where
  unshared : ¬ SharesIdentifier artifacts
  few : artifacts.scannerRuns.length + (unexpectedScanners artifacts outcomes).length +
    (if artifacts.differentialRequired then 1 else 0) + artifacts.harnesses.length +
    artifacts.testSpecifications.length ≤ 200000
  scannerNames : ∀ run ∈ artifacts.scannerRuns, isText 1000 run.scanner = true
  unexpectedNames : ∀ name ∈ unexpectedScanners artifacts outcomes, isText 1000 name = true
  invariantIds : ∀ harness ∈ artifacts.harnesses, isPrintable harness.invariantId = true
  candidateIds : ∀ specification ∈ artifacts.testSpecifications,
    isPrintable specification.candidateId = true
  differentialLimitation : ∀ limitation ∈ artifacts.differentialLimitation,
    limitation = "" ∨ isText 1000 limitation = true
  scannerBackends : outcomes.scanners.failure = none → ∀ run ∈ artifacts.scannerRuns,
    ∀ current ∈ (byName outcomes.scanners.observed).get? run.scanner,
      current.identity.IsPresentable
  differentialBackend : ∀ expected ∈ artifacts.differential, ∀ repositorySha256 current,
    differentialAttempt canonicalSha256 artifacts outcomes expected =
      .returned (repositorySha256, current) → current.identity.IsPresentable
  invariantBackends : ∀ harness ∈ artifacts.harnesses, ∀ current,
    invariantAttempt artifacts outcomes harness = .returned current →
      current.identity.IsPresentable
  reproductionBackends : ∀ specification ∈ artifacts.testSpecifications,
    ∀ prior ∈ reproductionBaseline? artifacts specification, ∀ current,
      reproductionAttempt canonicalSha256 artifacts outcomes specification prior =
        .returned current → current.identity.IsPresentable

theorem length_stageComponents : (stageComponents canonicalSha256 artifacts outcomes).length =
    artifacts.scannerRuns.length + (unexpectedScanners artifacts outcomes).length +
      (if artifacts.differentialRequired then 1 else 0) + artifacts.harnesses.length +
      artifacts.testSpecifications.length := by
  have lengths := (keys_stageComponents_perm canonicalSha256 artifacts outcomes).length_eq
  rw [List.length_map, applicableReplayComponents] at lengths
  rw [lengths]
  cases artifacts.differentialRequired with
  | false =>
      simp
      omega
  | true =>
      simp
      omega

/-- The conditions are that the components are presentable, few and distinct. -/
theorem isReplayable_iff : IsReplayable canonicalSha256 artifacts outcomes ↔
    (∀ component ∈ stageComponents canonicalSha256 artifacts outcomes, component.IsPresentable) ∧
      (stageComponents canonicalSha256 artifacts outcomes).length ≤ 200000 ∧
      ((stageComponents canonicalSha256 artifacts outcomes).map (·.key)).Nodup := by
  have harnesses : (∀ component ∈ artifacts.harnesses.map (invariantComponent canonicalSha256
      artifacts outcomes), component.IsPresentable) ↔ ∀ harness ∈ artifacts.harnesses,
        isPrintable harness.invariantId = true ∧
        ∀ current, invariantAttempt artifacts outcomes harness = .returned current →
          current.identity.IsPresentable := by
    rw [List.forall_mem_map]
    exact forall₂_congr fun harness member =>
      isPresentable_invariantComponent canonicalSha256 artifacts outcomes member
  have tests : (∀ component ∈ artifacts.testSpecifications.map (reproductionComponent
      canonicalSha256 artifacts outcomes), component.IsPresentable) ↔
        ∀ specification ∈ artifacts.testSpecifications,
          isPrintable specification.candidateId = true ∧
          ∀ prior ∈ reproductionBaseline? artifacts specification, ∀ current,
            reproductionAttempt canonicalSha256 artifacts outcomes specification prior =
              .returned current → current.identity.IsPresentable := by
    rw [List.forall_mem_map]
    exact forall₂_congr fun specification member =>
      isPresentable_reproductionComponent canonicalSha256 artifacts outcomes member
  rw [nodup_keys_iff, length_stageComponents, stageComponents, List.forall_mem_append,
    List.forall_mem_append, List.forall_mem_append, isPresentable_replayScanners,
    isPresentable_replayRepositoryDifferential, harnesses, tests]
  constructor
  · intro replayable
    exact ⟨⟨⟨⟨⟨replayable.scannerNames, replayable.unexpectedNames, replayable.scannerBackends⟩,
      replayable.differentialLimitation, replayable.differentialBackend⟩,
      fun harness member => ⟨replayable.invariantIds harness member,
        replayable.invariantBackends harness member⟩⟩,
      fun specification member => ⟨replayable.candidateIds specification member,
        replayable.reproductionBackends specification member⟩⟩, replayable.few,
      replayable.unshared⟩
  · rintro ⟨⟨⟨⟨⟨scannerNames, unexpectedNames, scannerBackends⟩, limitation, differential⟩,
      harnesses⟩, tests⟩, few, unshared⟩
    exact ⟨unshared, few, scannerNames, unexpectedNames,
      fun harness member => (harnesses harness member).1,
      fun specification member => (tests specification member).1, limitation, scannerBackends,
      differential, fun harness member => (harnesses harness member).2,
      fun specification member => (tests specification member).2⟩

/-- The replay accounts for every sealed component and every unexpected scanner once, and its
status says what the components say. -/
def AccountsForAll (payloadSha256 : OfflineReplayPayload Digest → Digest)
    (run : RunIdentity Digest) : Prop :=
  ∃ replay, assembleReplay canonicalSha256 artifacts outcomes payloadSha256 run = .ok replay ∧
    (replay.payload.components.map (·.key)).Nodup ∧
    (∀ key, key ∈ replay.payload.components.map (·.key) ↔
      key ∈ applicableReplayComponents artifacts ∨
        ∃ name ∈ unexpectedScanners artifacts outcomes, key = (.scanner, name)) ∧
    (replay.payload.status = .replayed ↔
      ∀ component ∈ replay.payload.components, component.status = .matched) ∧
    (replay.payload.status = .drifted ↔ ∃ component ∈ replay.payload.components,
      component.executed = true ∧ component.observedSha256 ≠ some component.expectedSha256)

/-- What the status of a consistent component says about its evidence. -/
theorem OfflineReplayComponent.IsConsistent.evidence {component : OfflineReplayComponent Digest}
    (consistent : component.IsConsistent) :
    (component.status = .matched → component.executed = true) ∧
      (component.status = .drifted ↔ component.executed = true ∧
        component.observedSha256 ≠ some component.expectedSha256) := by
  have checked := consistent.status
  rw [OfflineReplayComponent.statusMatchesEvidence, raiseIf_bind_eq_ok_iff, raiseIf_bind_eq_ok_iff,
    raiseIf_eq_ok_iff] at checked
  obtain ⟨matched, drifted, blocked⟩ := checked
  cases status : component.status with
  | matched => simp_all
  | drifted => simp_all
  | blocked => simp_all

omit [DecidableEq Digest] in
theorem statusOf_eq_drifted_iff {components : List (OfflineReplayComponent Digest)}
    {missing : List ReplayComponentKind} : statusOf components missing = .drifted ↔
      ∃ component ∈ components, component.status = .drifted := by
  unfold statusOf
  split
  · rename_i drifted
    obtain ⟨component, member, isDrifted⟩ := List.any_eq_true.mp drifted
    exact iff_of_true rfl ⟨component, member, of_decide_eq_true isDrifted⟩
  · rename_i notDrifted
    refine iff_of_false ?_ ?_
    · split <;> nofun
    · rintro ⟨component, member, isDrifted⟩
      exact notDrifted (List.any_eq_true.mpr ⟨component, member, decide_eq_true isDrifted⟩)

omit [DecidableEq Digest] in
/-- When every applicable kind has a component, the replay is complete if all components match. -/
theorem statusOf_eq_replayed_iff {components : List (OfflineReplayComponent Digest)}
    {applicable : List ReplayComponentKind}
    (covered : ∀ kind ∈ applicable, ∃ component ∈ components, component.kind = kind)
    (executed : ∀ component ∈ components, component.status = .matched →
      component.executed = true) :
    statusOf components (missingKindsOf applicable components) = .replayed ↔
      ∀ component ∈ components, component.status = .matched := by
  unfold statusOf
  constructor
  · intro replayed component member
    split at replayed
    · cases replayed
    · rename_i notDrifted
      split at replayed
      · cases replayed
      · rename_i complete
        cases status : component.status with
        | matched => rfl
        | drifted =>
            exact absurd (List.any_eq_true.mpr ⟨component, member, decide_eq_true status⟩)
              notDrifted
        | blocked =>
            exact absurd (.inr (List.any_eq_true.mpr ⟨component, member, decide_eq_true status⟩))
              complete
  · intro allMatched
    have noneIs : ∀ status : ReplayComponentStatus, status ≠ .matched →
        ¬ components.any (·.status = status) = true := by
      intro status different found
      obtain ⟨component, member, isStatus⟩ := List.any_eq_true.mp found
      exact different ((of_decide_eq_true isStatus).symm.trans (allMatched component member))
    have noneMissing : missingKindsOf applicable components = [] := by
      rw [missingKindsOf]
      refine List.eq_nil_iff_forall_not_mem.mpr fun kind member => ?_
      obtain ⟨isApplicable, unobserved⟩ := List.mem_filter.mp (mem_sortedKinds.mp member)
      obtain ⟨component, listed, rfl⟩ := covered kind isApplicable
      refine of_decide_eq_true unobserved (List.mem_map.mpr ⟨component, List.mem_filter.mpr
        ⟨listed, ?_⟩, rfl⟩)
      rw [executed component listed (allMatched component listed), Bool.and_true,
        decide_eq_true_eq]
      exact allMatched component listed
    rw [if_neg (noneIs .drifted (by decide)), if_neg]
    rintro (missing | blocked)
    · exact missing noneMissing
    · exact noneIs .blocked (by decide) blocked

/-- All components of the stages pass their validators, or one of them is not presentable. -/
theorem mapM_validate_iff (injective : Function.Injective canonicalSha256)
    {components : List (OfflineReplayComponent Digest)} :
    (stageComponents canonicalSha256 artifacts outcomes).mapM (·.validate) = .ok components ↔
      (∀ component ∈ stageComponents canonicalSha256 artifacts outcomes, component.IsPresentable) ∧
        stageComponents canonicalSha256 artifacts outcomes = components := by
  have consistent : ∀ component ∈ stageComponents canonicalSha256 artifacts outcomes,
      component.IsConsistent := fun component member =>
    isConsistent_of_mem_stageComponents canonicalSha256 artifacts outcomes injective member
  rw [mapM_eq_ok_iff]
  generalize stageComponents canonicalSha256 artifacts outcomes = stage at consistent
  induction stage generalizing components with
  | nil => cases components <;> simp
  | cons component stage ih =>
      obtain ⟨first, rest⟩ := List.forall_mem_cons.mp consistent
      rw [List.forall_mem_cons]
      cases components with
      | nil => simp
      | cons validated components =>
          rw [List.map_cons, List.map_cons, List.cons.injEq, List.cons.injEq]
          refine (and_congr (validate_eq_ok_iff first) (@ih components rest)).trans ?_
          tauto

end Assembly

/-! ## A harness and a test with one identifier -/

/-- Hashes that are the projections themselves. -/
abbrev PlainDigest := Projection ℕ

def realIdentity : ExecutionIdentity PlainDigest where
  evidence := .real
  isolationBackend := some "bubblewrap"
  isolationAttestationSha256 := none

def sampleHarness (invariantId : String) (bounded : isBounded 160 invariantId = true) :
    FoundryInvariantHarnessSpec ℕ where
  invariantId := invariantId
  name := "check"
  firstDeploymentPath := some "src/Vault.sol"
  details := 1
  bounded := bounded
  named := by decide +kernel

def sampleSpecification : GeneratedFoundryTestSpec ℕ where
  candidateId := "INV-1"
  name := "check"
  details := 2
  bounded := by decide +kernel
  named := by decide +kernel

/-- A scanner, a harness and a saved test. -/
def sampleArtifacts (invariantId : String) (bounded : isBounded 160 invariantId = true) :
    ReplayArtifacts PlainDigest ℕ where
  scannerRuns := [⟨"slither", .success, realIdentity, false, 3⟩]
  invariants := []
  harnesses := [sampleHarness invariantId bounded]
  invariantResults := [⟨invariantId, "check", .passed, 1, realIdentity, 4⟩]
  candidates := [⟨"INV-1", ["src/Vault.sol"]⟩]
  testSpecifications := [sampleSpecification]
  reproductionResults :=
    [⟨"INV-1", "check", .reproduced, .specification 2, 1, realIdentity, 5⟩]
  differential := none
  differentialRequired := false
  differentialLimitation := none
  fewScanners := by decide
  scannersUnique := List.nodup_singleton _
  harnessesUnique := List.nodup_singleton _
  invariantResultsUnique := List.nodup_singleton _
  invariantResultsCover := fun _ => Iff.rfl
  specificationsUnique := List.nodup_singleton _
  reproductionResultsUnique := List.nodup_singleton _
  reproductionResultsCover := fun _ => Iff.rfl
  candidatesCover := by
    intro specification member
    rw [List.mem_singleton.mp member]
    exact List.mem_cons_self
  obligation := fun present => absurd rfl present
  limitation := by decide
  noLimitation := fun _ => rfl

/-- Every runner returns what was sealed. -/
def sampleOutcomes : ReplayOutcomes PlainDigest ℕ Unit where
  scanners := ⟨[⟨"slither", .success, realIdentity, false, 3⟩], none⟩
  suiteConfig := none
  missingRunner := none
  repositoryIdentity := .ok none
  differential := .error ⟨"ValueError", by decide +kernel⟩
  differentialQualifies := fun _ _ => false
  projectForPath := fun _ => some ()
  invariant := fun harness _ =>
    .ok ⟨harness.invariantId, harness.name, .passed, 1, realIdentity, 4⟩
  reproduction := fun specification _ _ =>
    .ok ⟨specification.candidateId, specification.name, .reproduced, .specification 2, 1,
      realIdentity, 5⟩

def sampleRun : RunIdentity PlainDigest :=
  ⟨"run-1", .absentScanner "manifest", .absentScanner "verification"⟩

def sampleSha256 (payload : OfflineReplayPayload PlainDigest) : PlainDigest :=
  .absentScanner payload.runId

theorem isPresentable_realIdentity : realIdentity.IsPresentable := by
  rintro _ ⟨⟩
  decide

end Replay

end MmAudit
