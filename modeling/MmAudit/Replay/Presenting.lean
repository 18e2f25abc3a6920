import MmAudit.Replay.Stages

/-!
# Which components pass their validators

A component of a stage is always consistent in itself: its states are short texts, and its
status fits its evidence.  So its validators reject it only for what comes from outside: the
identifier, the isolation backend that a runner names, or the text of a limitation.
-/

namespace MmAudit

namespace Replay

open Fallible

/-! ## Texts -/

theorem isText_mono {small large : ℕ} (ordered : small ≤ large) {text : String}
    (isSmall : isText small text = true) : isText large text = true := by
  simp only [isText, isBounded, Bool.and_eq_true, decide_eq_true_eq] at isSmall ⊢
  exact ⟨⟨isSmall.1.1, isSmall.1.2.trans ordered⟩, isSmall.2⟩

theorem isPrintable_append (first second : String) :
    isPrintable (first ++ second) = (isPrintable first && isPrintable second) := by
  rw [isPrintable, String.toList_append, List.all_append]
  rfl

theorem isText_append {limit other : ℕ} {first second : String} (isFirst : isText limit first = true)
    (isSecond : isText other second = true) : isText (limit + other) (first ++ second) = true := by
  simp only [isText, isBounded, Bool.and_eq_true, decide_eq_true_eq, isPrintable_append,
    String.toList_append, List.length_append] at isFirst isSecond ⊢
  exact ⟨by omega, isFirst.2, isSecond.2⟩

theorem isText_alphanumeric {text : String} {limit : ℕ} (bounded : isBounded limit text = true)
    (chars : ∀ char ∈ text.toList, (char.isAlphanum || char == '_') = true) :
    isText limit text = true := by
  rw [isText, bounded, Bool.true_and, isPrintable, List.all_eq_true]
  intro char member
  have allowed := chars char member
  rw [decide_eq_true_eq]
  simp only [Char.isAlphanum, Char.isAlpha, Char.isUpper, Char.isLower, Char.isDigit,
    Bool.or_eq_true, Bool.and_eq_true, decide_eq_true_eq, beq_iff_eq, ge_iff_le,
    UInt32.le_iff_toNat_le] at allowed
  rcases allowed with ((⟨lower, upper⟩ | ⟨lower, upper⟩) | ⟨lower, upper⟩) | rfl
  · simp at lower upper
    omega
  · simp at lower upper
    omega
  · simp at lower upper
    omega
  · decide

theorem isText_className (failure : CaughtError) : isText 255 failure.className = true := by
  have named := failure.named
  rw [isClassName, Bool.and_eq_true, List.all_eq_true] at named
  exact isText_alphanumeric named.1 named.2

theorem isText_testName {name : String} (named : isTestName name = true) :
    isText 64 name = true := by
  rw [isTestName] at named
  cases chars : name.toList with
  | nil =>
      rw [chars] at named
      cases named
  | cons first rest =>
      rw [chars] at named
      simp only [Bool.and_eq_true, decide_eq_true_eq, List.all_eq_true] at named
      refine isText_alphanumeric ?_ ?_
      · rw [isBounded, chars, List.length_cons, decide_eq_true_eq]
        omega
      · rw [chars]
        intro char member
        rcases List.mem_cons.mp member with rfl | member
        · simp [Char.isAlphanum, named.1.1]
        · exact named.2 char member

theorem not_mem_testName {name : String} (named : isTestName name = true) : '/' ∉ name.toList := by
  intro member
  rw [isTestName] at named
  cases chars : name.toList with
  | nil =>
      rw [chars] at member
      cases member
  | cons first rest =>
      rw [chars] at named member
      simp only [Bool.and_eq_true, List.all_eq_true] at named
      rcases List.mem_cons.mp member with rfl | member
      · exact absurd named.1.1 (by decide)
      · exact absurd (named.2 _ member) (by decide)

/-- An ID and a name make an identifier when the ID is printable. -/
theorem isText_identifier {id name : String} (bounded : isBounded 160 id = true)
    (named : isTestName name = true) :
    isText 1000 (id ++ "/" ++ name) = true ↔ isPrintable id = true := by
  constructor
  · intro whole
    rw [isText, isPrintable_append, isPrintable_append, Bool.and_eq_true, Bool.and_eq_true,
      Bool.and_eq_true] at whole
    exact whole.2.1.1
  · intro printable
    have isId : isText 160 id = true := by rw [isText, bounded, printable, Bool.and_self]
    exact isText_mono (by decide) (isText_append (isText_append isId
      (show isText 1 "/" = true by decide)) (isText_testName named))

/-- The identifiers of IDs and names tell them apart. -/
theorem identifier_injective {id other name otherName : String} (named : isTestName name = true)
    (otherNamed : isTestName otherName = true)
    (same : id ++ "/" ++ name = other ++ "/" ++ otherName) : id = other ∧ name = otherName := by
  have reversed := congrArg (fun text => text.toList.reverse) same
  simp only [String.toList_append, List.reverse_append] at reversed
  -- Read from the end, the name stops at the first slash.
  have stops : ∀ {id name : String}, isTestName name = true →
      (name.toList.reverse ++ ("/".toList.reverse ++ id.toList.reverse)).takeWhile
        (fun char => decide (char ≠ '/')) = name.toList.reverse := by
    intro id name named
    rw [List.takeWhile_append_of_pos]
    · exact List.append_nil _
    · intro char member
      rw [decide_eq_true_eq]
      rintro rfl
      exact not_mem_testName named (List.mem_reverse.mp member)
  have sameName : name.toList.reverse = otherName.toList.reverse := by
    rw [← stops named, reversed, stops otherNamed]
  rw [sameName] at reversed
  have sameId := List.append_cancel_left (List.append_cancel_left reversed)
  exact ⟨String.toList_inj.mp (List.reverse_injective sameId),
    String.toList_inj.mp (List.reverse_injective sameName)⟩

theorem isText_scannerStatus (status : ScannerStatus) : isText 200 status.value = true := by
  cases status <;> decide

theorem isText_invariantStatus (status : InvariantExecutionStatus) :
    isText 200 status.value = true := by
  cases status <;> decide

theorem isText_reproductionState (state : ReproductionState) : isText 200 state.value = true := by
  cases state <;> decide

theorem isText_differentialStatus (status : RepositoryDifferentialRunStatus) :
    isText 200 status.value = true := by
  cases status <;> decide

/-! ## Components -/

section Components

variable {Digest Details : Type} [DecidableEq Digest]

/-- The texts that come from outside are short and printable. -/
structure OfflineReplayComponent.IsPresentable (component : OfflineReplayComponent Digest) :
    Prop where
  identifier : isText 1000 component.identifier = true
  backend : ∀ backend ∈ component.isolationBackend, isBounded 100 backend = true
  limitations : ∀ limitation ∈ component.limitations, isText 1000 limitation = true

/-- The states are short texts, and the status fits the evidence. -/
structure OfflineReplayComponent.IsConsistent (component : OfflineReplayComponent Digest) :
    Prop where
  expectedState : isText 200 component.expectedState = true
  observedState : ∀ state ∈ component.observedState, isText 200 state = true
  few : component.limitations.length ≤ 1
  status : component.statusMatchesEvidence = .ok ()

/-- The validators pass exactly the presentable ones of the consistent components. -/
theorem validate_eq_ok_iff {component validated : OfflineReplayComponent Digest}
    (consistent : component.IsConsistent) :
    component.validate = .ok validated ↔ component.IsPresentable ∧ component = validated := by
  have stateOk : ¬ isText 200 component.expectedState = false := by
    rw [consistent.expectedState]
    decide
  have observedOk : ¬ component.observedState.any (!isText 200 ·) = true := by
    intro bad
    obtain ⟨state, member, isBad⟩ := (Option.any_eq_true _ _).mp bad
    rw [consistent.observedState state member] at isBad
    cases isBad
  have fewOk : ¬ 20 < component.limitations.length := by
    have few := consistent.few
    omega
  have nodup : ¬ ¬ component.limitations.Nodup := by
    rw [not_not]
    match component.limitations, consistent.few with
    | [], _ => exact List.nodup_nil
    | [limitation], _ => exact List.nodup_singleton limitation
  have unfolded : component.validate = (do
      raiseIf (isText 1000 component.identifier = false)
        ⟨"offline replay identifiers and states must be printable"⟩
      raiseIf (component.isolationBackend.any (!isBounded 100 ·) = true)
        ⟨"isolation_backend: bad length"⟩
      raiseIf (component.limitations.any (!isText 1000 ·) = true)
        ⟨"offline replay limitations must be bounded printable text"⟩
      return component) := by
    unfold OfflineReplayComponent.validate
    rw [raiseIf_bind_of_not stateOk, raiseIf_bind_of_not observedOk, raiseIf_bind_of_not fewOk,
      raiseIf_bind_of_not nodup, bind_of_ok consistent.status]
  rw [unfolded, raiseIf_bind_eq_ok_iff, raiseIf_bind_eq_ok_iff, raiseIf_bind_eq_ok_iff]
  simp only [Bool.not_eq_false, Bool.not_eq_true, Option.any_eq_false, List.any_eq_false,
    Bool.not_eq_true', Bool.not_eq_false']
  constructor
  · rintro ⟨identifier, backend, limitations, returned⟩
    exact ⟨⟨identifier, backend, limitations⟩, Except.ok.inj returned⟩
  · rintro ⟨presentable, rfl⟩
    exact ⟨presentable.identifier, presentable.backend, presentable.limitations, rfl⟩

section Builders

variable (canonicalSha256 : Projection Details → Digest)

theorem isConsistent_blockedComponent (kind : ReplayComponentKind)
    (identifier : String) {expectedState : String} (isState : isText 200 expectedState = true)
    (expected : Projection Details) (limitation : String) :
    (blockedComponent canonicalSha256 kind identifier expectedState expected
      limitation).IsConsistent := by
  refine ⟨isState, fun state member => (by cases member), le_rfl, ?_⟩
  rfl

omit [DecidableEq Digest] in
theorem isPresentable_blockedComponent (kind : ReplayComponentKind)
    (identifier expectedState : String) (expected : Projection Details) (limitation : String) :
    (blockedComponent canonicalSha256 kind identifier expectedState expected
      limitation).IsPresentable ↔
        isText 1000 identifier = true ∧ isText 1000 limitation = true := by
  constructor
  · exact fun presentable => ⟨presentable.identifier, presentable.limitations _ List.mem_cons_self⟩
  · rintro ⟨isIdentifier, isLimitation⟩
    refine ⟨isIdentifier, fun backend member => (by cases member), ?_⟩
    intro other member
    rwa [List.mem_singleton.mp member]

theorem isConsistent_comparedComponent (kind : ReplayComponentKind)
    (identifier : String) {expectedState observedState : String}
    (isExpected : isText 200 expectedState = true) (isObserved : isText 200 observedState = true)
    (expected observed : Projection Details) (executed : Bool) (identity : ExecutionIdentity Digest)
    (blockedLimitation : String) :
    (comparedComponent canonicalSha256 kind identifier expectedState observedState expected observed
      executed identity blockedLimitation).IsConsistent := by
  refine ⟨isExpected, ?_, ?_, ?_⟩
  · rintro state member
    obtain rfl := Option.some.inj member
    exact isObserved
  · cases executed with
    | false => exact le_rfl
    | true => exact Nat.zero_le 1
  · cases executed with
    | false => rfl
    | true =>
        by_cases same : canonicalSha256 observed = canonicalSha256 expected
        · simp [OfflineReplayComponent.statusMatchesEvidence, comparedComponent, same, raiseIf,
            bind, Except.bind]
        · simp [OfflineReplayComponent.statusMatchesEvidence, comparedComponent, same, raiseIf,
            bind, Except.bind]

theorem isPresentable_comparedComponent (kind : ReplayComponentKind)
    (identifier expectedState observedState : String)
    (expected observed : Projection Details) (executed : Bool) (identity : ExecutionIdentity Digest)
    {blockedLimitation : String} (isLimitation : isText 1000 blockedLimitation = true) :
    (comparedComponent canonicalSha256 kind identifier expectedState observedState expected observed
      executed identity blockedLimitation).IsPresentable ↔
        isText 1000 identifier = true ∧
          ∀ backend ∈ identity.isolationBackend, isBounded 100 backend = true := by
  constructor
  · exact fun presentable => ⟨presentable.identifier, presentable.backend⟩
  · rintro ⟨isIdentifier, backend⟩
    refine ⟨isIdentifier, backend, ?_⟩
    intro other member
    cases executed with
    | false => rwa [List.mem_singleton.mp member]
    | true => cases member

theorem isConsistent_driftedComponent (kind : ReplayComponentKind)
    (identifier : String) {expectedState observedState : String}
    (isExpected : isText 200 expectedState = true) (isObserved : isText 200 observedState = true)
    {expected observed : Projection Details}
    (different : canonicalSha256 observed ≠ canonicalSha256 expected) (executed : Bool) :
    (driftedComponent canonicalSha256 kind identifier expectedState observedState expected observed
      executed).IsConsistent := by
  cases executed with
  | false => exact isConsistent_blockedComponent canonicalSha256 kind identifier isExpected _ _
  | true =>
      refine ⟨isExpected, ?_, Nat.zero_le 1, ?_⟩
      · rintro state member
        obtain rfl := Option.some.inj member
        exact isObserved
      · simp [OfflineReplayComponent.statusMatchesEvidence, driftedComponent, different, raiseIf,
          bind, Except.bind]

omit [DecidableEq Digest] in
theorem isPresentable_driftedComponent (kind : ReplayComponentKind)
    (identifier expectedState observedState : String) (expected observed : Projection Details)
    (executed : Bool) :
    (driftedComponent canonicalSha256 kind identifier expectedState observedState expected observed
      executed).IsPresentable ↔ isText 1000 identifier = true := by
  cases executed with
  | false =>
      refine (isPresentable_blockedComponent canonicalSha256 kind identifier expectedState expected
        _).trans (and_iff_left ?_)
      decide
  | true =>
      refine ⟨fun presentable => presentable.identifier, fun isIdentifier => ⟨isIdentifier, ?_, ?_⟩⟩
      · exact fun backend member => (by cases member)
      · exact fun limitation member => (by cases member)

end Builders

end Components

end Replay

end MmAudit
