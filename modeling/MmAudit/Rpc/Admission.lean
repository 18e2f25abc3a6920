import MmAudit.Library.Runs
import MmAudit.Rpc.Bridge
import Mathlib.Data.List.Count

/-!
# The request budget of the bridge

Admission is saturated when the request counter equals the limit.  The counter also
grows when a connection of an old generation is turned away, and that branch does not
look at the limit.  A stale connection that takes the counter to the limit steps over
the equality: from then on every current connection is admitted.

Without such a step no run admits more requests than the limit.
-/

namespace MmAudit

namespace Rpc

open Fallible Runs

variable {Identity Digest : Type}

namespace Bridge

/-- What `_admit_http_request` does to a registered connection. -/
theorem admitHttpRequest_cases (settings : BridgeSettings Identity Digest)
    {bridge next : Bridge Identity Digest} {generation : ℕ} {admitted saturated : Bool}
    (answer : bridge.admitHttpRequest settings generation = .ok (next, admitted, saturated)) :
    next.admissionClosed = bridge.admissionClosed ∧
      ((bridge.admissionClosed = true ∨ generation ≠ bridge.acceptGeneration) ∧
          admitted = false ∧ next.httpRequestCount = bridge.httpRequestCount + 1 ∧
          next.httpAdmissionSaturated = bridge.httpAdmissionSaturated ∨
        bridge.httpAdmissionSaturated = true ∧ admitted = false ∧
          next.httpRequestCount = bridge.httpRequestCount ∧
          next.httpAdmissionSaturated = true ∨
        bridge.admissionClosed = false ∧ generation = bridge.acceptGeneration ∧
          bridge.httpAdmissionSaturated = false ∧ admitted = true ∧ next.httpRequestCount = bridge.httpRequestCount + 1 ∧
          next.httpAdmissionSaturated =
            (bridge.httpRequestCount + 1 == settings.maxHttpRequests)) := by
  unfold admitHttpRequest at answer
  rw [raiseIf_bind_eq_ok_iff] at answer
  obtain ⟨-, answer⟩ := answer
  dsimp only at answer
  split at answer
  · next refused =>
      cases answer
      have cause : bridge.admissionClosed = true ∨ generation ≠ bridge.acceptGeneration := by
        simpa using refused
      exact ⟨rfl, Or.inl ⟨cause, rfl, rfl, rfl⟩⟩
  · next current =>
      split at answer
      · next full =>
          cases answer
          exact ⟨rfl, Or.inr (Or.inl ⟨full, rfl, rfl, full⟩)⟩
      · next free =>
          cases answer
          obtain ⟨isOpen, same⟩ :
              bridge.admissionClosed = false ∧ generation = bridge.acceptGeneration := by
            simpa using current
          exact ⟨rfl, Or.inr (Or.inr ⟨isOpen, same, by simpa using free, rfl, rfl, rfl⟩)⟩

/-- A registered connection is always answered. -/
theorem exists_admitHttpRequest (settings : BridgeSettings Identity Digest)
    {bridge : Bridge Identity Digest} (registered : 1 ≤ bridge.pendingAcceptedHttpRequestCount)
    (generation : ℕ) :
    ∃ next admitted saturated,
      bridge.admitHttpRequest settings generation = .ok (next, admitted, saturated) := by
  unfold admitHttpRequest
  rw [raiseIf_bind_of_not (by omega)]
  dsimp only
  split
  · exact ⟨_, _, _, rfl⟩
  · split
    · exact ⟨_, _, _, rfl⟩
    · exact ⟨_, _, _, rfl⟩

/-- Past the limit, an unsaturated bridge admits a current connection and stays unsaturated. -/
theorem admitHttpRequest_past (settings : BridgeSettings Identity Digest)
    (bridge : Bridge Identity Digest) (registered : 1 ≤ bridge.pendingAcceptedHttpRequestCount)
    (isOpen : bridge.admissionClosed = false) (unsaturated : bridge.httpAdmissionSaturated = false)
    (past : settings.maxHttpRequests ≤ bridge.httpRequestCount) :
    ∃ next, bridge.admitHttpRequest settings bridge.acceptGeneration = .ok (next, true, false) ∧
      next.httpAdmissionSaturated = false := by
  have notLimit : (bridge.httpRequestCount + 1 == settings.maxHttpRequests) = false := by
    rw [beq_eq_false_iff_ne]
    omega
  unfold admitHttpRequest
  rw [raiseIf_bind_of_not (by omega)]
  simp only [isOpen, unsaturated, notLimit, bne_self_eq_false, Bool.or_self, Bool.false_eq_true,
    ↓reduceIte]
  exact ⟨_, rfl, rfl⟩

/-- The counts that admission leaves behind. -/
theorem counts_of_admitHttpRequest {settings : BridgeSettings Identity Digest}
    {bridge next : Bridge Identity Digest} {generation : ℕ} {admitted saturated : Bool}
    (answer : bridge.admitHttpRequest settings generation = .ok (next, admitted, saturated)) :
    next.pendingAcceptedHttpRequestCount = bridge.pendingAcceptedHttpRequestCount - 1 ∧
      next.inflightAdmittedHttpRequestCount =
        bridge.inflightAdmittedHttpRequestCount + admitted.toNat := by
  unfold admitHttpRequest at answer
  rw [raiseIf_bind_eq_ok_iff] at answer
  obtain ⟨-, answer⟩ := answer
  dsimp only at answer
  split at answer
  · cases answer
    exact ⟨rfl, rfl⟩
  · split at answer
    · cases answer
      exact ⟨rfl, rfl⟩
    · cases answer
      exact ⟨rfl, rfl⟩

/-- Finishing a request changes one count. -/
theorem finishAdmittedHttpRequest_frame {bridge next : Bridge Identity Digest}
    (finished : bridge.finishAdmittedHttpRequest = .ok next) :
    ∃ inflight, next = { bridge with inflightAdmittedHttpRequestCount := inflight } := by
  unfold finishAdmittedHttpRequest at finished
  rw [raiseIf_bind_eq_ok_iff] at finished
  obtain ⟨-, same⟩ := finished
  cases same
  exact ⟨_, rfl⟩

theorem finishAdmittedHttpRequest_of_inflight {bridge : Bridge Identity Digest}
    (inflight : 1 ≤ bridge.inflightAdmittedHttpRequestCount) :
    bridge.finishAdmittedHttpRequest = .ok { bridge with
      inflightAdmittedHttpRequestCount := bridge.inflightAdmittedHttpRequestCount - 1 } := by
  unfold finishAdmittedHttpRequest
  rw [raiseIf_bind_of_not (by omega)]
  rfl

end Bridge

namespace Boundary

variable [DecidableEq Identity] [DecidableEq Digest]

/-- A boundary changes the scope and raises the generation. -/
theorem cross_frame {settings : BridgeSettings Identity Digest} {boundary : Boundary Identity}
    {bridge next : Bridge Identity Digest} (crossed : boundary.cross settings bridge = some next) :
    ∃ scope snapshots, next = { bridge with
      acceptGeneration := bridge.acceptGeneration + 1
      activeTestScope := scope
      selectedTestScopeSnapshotSha256s := snapshots } := by
  unfold cross at crossed
  split at crossed
  · cases crossed
    exact ⟨_, _, rfl⟩
  · cases crossed
  · cases crossed
  · dsimp only at crossed
    split at crossed
    · cases crossed
    · cases crossed
      exact ⟨_, _, rfl⟩

end Boundary

namespace System

/-- The number of requests that `_admit_http_request` has admitted. -/
def admissions (system : System Identity Digest) : ℕ :=
  system.answers.countP (·.1)

/-- The listener is about to ask for the admission of a connection of another generation. -/
def staleAccepted (system : System Identity Digest) : Bool :=
  match system.listener with
  | .accepted generation => generation != system.bridge.acceptGeneration
  | _ => false

/-- The next admission is of a stale connection that takes the counter of an open, unsaturated
bridge to the limit. -/
def StepsOver (settings : BridgeSettings Identity Digest) (system : System Identity Digest)
    (action : Action Identity) : Prop :=
  action = .admitRequest ∧ system.staleAccepted = true ∧
    system.bridge.admissionClosed = false ∧ system.bridge.httpAdmissionSaturated = false ∧
    system.bridge.httpRequestCount + 1 = settings.maxHttpRequests

instance [DecidableEq Identity] (settings : BridgeSettings Identity Digest)
    (system : System Identity Digest) (action : Action Identity) :
    Decidable (StepsOver settings system action) :=
  inferInstanceAs (Decidable (_ ∧ _))

/-- A stale connection waits for its admission. -/
theorem staleAccepted_iff (system : System Identity Digest) :
    system.staleAccepted = true ↔ ∃ generation, system.listener = .accepted generation ∧
      generation ≠ system.bridge.acceptGeneration := by
  unfold staleAccepted
  split
  · next generation isAccepted => simp [isAccepted]
  · next other =>
      constructor
      · exact fun impossible => (nomatch impossible)
      · exact fun ⟨generation, isAccepted, _⟩ => (other generation isAccepted).elim

/-! ## The accounts of accepted and admitted requests -/

/-- Connections that are registered and wait for admission. -/
def registered : Listener → ℕ
  | .accepted _ => 1
  | _ => 0

/-- The two counters of the bridge count what the threads hold. -/
structure Accounted (system : System Identity Digest) : Prop where
  pending : system.bridge.pendingAcceptedHttpRequestCount = registered system.listener
  inflight : system.bridge.inflightAdmittedHttpRequestCount =
    undispatched system.listener + system.activeConnections + system.leaving + system.finishing

theorem accounted_started : Accounted (started : System Identity Digest) :=
  ⟨rfl, rfl⟩

variable [DecidableEq Identity] [DecidableEq Digest]

/-- Every section keeps the accounts. -/
theorem Accounted.step {settings : BridgeSettings Identity Digest} {action : Action Identity}
    {system next : System Identity Digest} (taken : perform settings action system = some next)
    (accounted : Accounted system) : Accounted next := by
  obtain ⟨pending, inflight⟩ := accounted
  unfold perform at taken
  split at taken
  case h_4 generation isAccepted =>
      obtain ⟨bridge, admitted, saturated, answer⟩ := Bridge.exists_admitHttpRequest settings
        (by rw [pending, isAccepted, registered]) generation
      obtain ⟨pendingAfter, inflightAfter⟩ := Bridge.counts_of_admitHttpRequest answer
      rw [answer] at taken
      cases taken
      rw [isAccepted] at pending inflight
      constructor
      · simp [pendingAfter, pending, registered]
      · dsimp only
        rw [inflightAfter, inflight]
        cases admitted
        · simp [undispatched]
        · simp only [undispatched, Bool.toNat_true]
          omega
  case h_5 admitted saturated isAnswered =>
      rw [isAnswered] at pending inflight
      cases taken
      cases admitted <;> exact ⟨pending, inflight⟩
  case h_6 isDispatching =>
      rw [isDispatching] at pending inflight
      split at taken
      · cases taken
        refine ⟨pending, ?_⟩
        simp only [undispatched] at inflight ⊢
        omega
      · cases taken
        exact ⟨pending, inflight⟩
  case h_7 isRefusing =>
      rw [isRefusing] at pending inflight
      simp only [undispatched] at inflight
      rw [Bridge.finishAdmittedHttpRequest_of_inflight (by omega)] at taken
      cases taken
      refine ⟨pending, ?_⟩
      simp only [undispatched]
      omega
  case h_8 =>
      split at taken
      · cases taken
        exact ⟨pending, by dsimp only; omega⟩
      · cases taken
  case h_9 =>
      split at taken
      · cases taken
        exact ⟨pending, by dsimp only; omega⟩
      · cases taken
  case h_10 =>
      split at taken
      · rw [Bridge.finishAdmittedHttpRequest_of_inflight (by omega)] at taken
        cases taken
        exact ⟨pending, by dsimp only; omega⟩
      · cases taken
  case h_16 =>
      split at taken
      · split at taken
        · obtain ⟨bridge, crossed, same⟩ := Option.map_eq_some_iff.mp taken
          obtain ⟨scope, snapshots, rfl⟩ := Boundary.cross_frame crossed
          cases same
          exact ⟨pending, inflight⟩
        · cases taken
      · cases taken
  case h_1 isSelecting =>
      rw [isSelecting] at pending inflight
      cases taken
      exact ⟨pending, inflight⟩
  case h_2 generation isAccepting =>
      rw [isAccepting] at pending inflight
      cases taken
      exact ⟨by rw [Bridge.registerAcceptedHttpRequest, pending]; rfl, inflight⟩
  case h_3 generation isAccepting =>
      rw [isAccepting] at pending inflight
      cases taken
      exact ⟨pending, inflight⟩
  case h_14 generation isAccepting =>
      rw [isAccepting] at pending inflight
      split at taken
      · cases taken
        exact ⟨pending, inflight⟩
      · cases taken
  case h_15 =>
      split at taken
      · obtain ⟨stage, -, rfl⟩ := Option.map_eq_some_iff.mp taken
        exact ⟨pending, inflight⟩
      · cases taken
  case h_17 =>
      split at taken
      · cases taken
      · cases taken
        exact ⟨pending, inflight⟩
  case h_18 isPaused =>
      rw [isPaused] at pending inflight
      cases taken
      exact ⟨pending, inflight⟩
  case h_22 isSelecting =>
      rw [isSelecting] at pending inflight
      split at taken
      · cases taken
        exact ⟨pending, inflight⟩
      · cases taken
  case h_23 => cases taken
  -- What is left has a guard and touches neither the listener nor the counters.
  all_goals
    split at taken
    · cases taken
      exact ⟨pending, inflight⟩
    · cases taken

theorem Accounted.of_reaches {settings : BridgeSettings Identity Digest}
    {system next : System Identity Digest} (accounted : Accounted system)
    (reaches : Reaches (perform settings) system next) : Accounted next :=
  invariant_of_reaches (perform settings) Accounted
    (fun _ _ _ taken accounted => accounted.step taken) reaches accounted

/-! ## Runs that do not step over the limit -/

/-- Until it is closed or saturated, a bridge has counted less than the limit. -/
structure Budgeted (settings : BridgeSettings Identity Digest) (system : System Identity Digest) :
    Prop where
  counted : system.admissions ≤ system.bridge.httpRequestCount
  within : system.admissions ≤ settings.maxHttpRequests
  below : system.bridge.admissionClosed = false → system.bridge.httpAdmissionSaturated = false →
    system.bridge.httpRequestCount < settings.maxHttpRequests

omit [DecidableEq Identity] [DecidableEq Digest] in
theorem budgeted_started (settings : BridgeSettings Identity Digest) :
    Budgeted settings (started : System Identity Digest) :=
  ⟨le_rfl, Nat.zero_le _, fun _ _ => settings.admitsOne⟩

/-- Only an admission changes what the budget is about; admission may also be closed. -/
theorem perform_frame {settings : BridgeSettings Identity Digest} {action : Action Identity}
    {system next : System Identity Digest} (taken : perform settings action system = some next)
    (other : action ≠ .admitRequest) :
    next.answers = system.answers ∧
      next.bridge.httpRequestCount = system.bridge.httpRequestCount ∧
      next.bridge.httpAdmissionSaturated = system.bridge.httpAdmissionSaturated ∧
      (next.bridge.admissionClosed = false → system.bridge.admissionClosed = false) := by
  unfold perform at taken
  split at taken
  case h_4 => exact absurd rfl other
  case h_6 =>
      split at taken
      · cases taken
        exact ⟨rfl, rfl, rfl, id⟩
      · cases taken
        exact ⟨rfl, rfl, rfl, id⟩
  case h_7 =>
      split at taken
      · cases taken
        exact ⟨rfl, rfl, rfl, id⟩
      · next finished =>
          obtain ⟨inflight, rfl⟩ := Bridge.finishAdmittedHttpRequest_frame finished
          cases taken
          exact ⟨rfl, rfl, rfl, id⟩
  case h_10 =>
      split at taken
      · split at taken
        · cases taken
          exact ⟨rfl, rfl, rfl, id⟩
        · next finished =>
            obtain ⟨inflight, rfl⟩ := Bridge.finishAdmittedHttpRequest_frame finished
            cases taken
            exact ⟨rfl, rfl, rfl, id⟩
      · cases taken
  case h_15 =>
      split at taken
      · obtain ⟨stage, -, rfl⟩ := Option.map_eq_some_iff.mp taken
        exact ⟨rfl, rfl, rfl, id⟩
      · cases taken
  case h_16 =>
      split at taken
      · split at taken
        · obtain ⟨bridge, crossed, same⟩ := Option.map_eq_some_iff.mp taken
          obtain ⟨scope, snapshots, rfl⟩ := Boundary.cross_frame crossed
          cases same
          exact ⟨rfl, rfl, rfl, id⟩
        · cases taken
      · cases taken
  case h_17 =>
      split at taken
      · cases taken
      · cases taken
        exact ⟨rfl, rfl, rfl, id⟩
  case h_19 =>
      split at taken
      · cases taken
        exact ⟨rfl, rfl, rfl, fun stillOpen => (nomatch stillOpen)⟩
      · cases taken
  case h_23 => cases taken
  -- What is left changes neither the bridge nor the answers.
  all_goals first
    | (cases taken; exact ⟨rfl, rfl, rfl, id⟩)
    | (split at taken
       · cases taken
         exact ⟨rfl, rfl, rfl, id⟩
       · cases taken)

/-- What an admission does to the budget. -/
theorem perform_admitRequest {settings : BridgeSettings Identity Digest}
    {system next : System Identity Digest}
    (taken : perform settings .admitRequest system = some next) (accounted : Accounted system) :
    ∃ generation bridge admitted saturated,
      system.listener = .accepted generation ∧
      system.bridge.admitHttpRequest settings generation = .ok (bridge, admitted, saturated) ∧
      next = { system with
        bridge := bridge
        listener := .answered admitted saturated
        answers := system.answers ++ [(admitted, saturated)] } := by
  cases isAccepted : system.listener <;> simp only [perform, isAccepted, reduceCtorEq] at taken
  next generation =>
    obtain ⟨bridge, admitted, saturated, answer⟩ := Bridge.exists_admitHttpRequest settings
      (by rw [accounted.pending, isAccepted, registered]) generation
    simp only [answer, Option.some.injEq] at taken
    exact ⟨generation, bridge, admitted, saturated, rfl, answer, taken.symm⟩

omit [DecidableEq Identity] [DecidableEq Digest] in
theorem admissions_append (system : System Identity Digest) (bridge : Bridge Identity Digest)
    (listener : Listener) (admitted saturated : Bool) :
    admissions { system with
      bridge := bridge
      listener := listener
      answers := system.answers ++ [(admitted, saturated)] } =
      system.admissions + admitted.toNat := by
  simp only [admissions, List.countP_append]
  cases admitted <;> rfl

/-- A section that does not step over the limit keeps the budget. -/
theorem Budgeted.step {settings : BridgeSettings Identity Digest} {action : Action Identity}
    {system next : System Identity Digest} (taken : perform settings action system = some next)
    (careful : ¬ StepsOver settings system action) (accounted : Accounted system)
    (budgeted : Budgeted settings system) : Budgeted settings next := by
  by_cases isAdmission : action = .admitRequest
  · subst isAdmission
    obtain ⟨generation, bridge, admitted, saturated, isAccepted, answer, rfl⟩ :=
      perform_admitRequest taken accounted
    obtain ⟨sameClosed, effect⟩ := Bridge.admitHttpRequest_cases settings answer
    have counted := budgeted.counted
    have within := budgeted.within
    rcases effect with ⟨cause, rfl, count, saturation⟩ | ⟨full, rfl, count, saturation⟩ |
      ⟨isOpen, -, free, rfl, count, saturation⟩
    · refine ⟨?_, ?_, fun stillOpen unsaturated => ?_⟩
      · rw [admissions_append, Bool.toNat_false]
        dsimp only
        omega
      · rw [admissions_append, Bool.toNat_false]
        exact within
      · -- The connection is stale, and does not take the counter to the limit.
        rw [sameClosed] at stillOpen
        rw [saturation] at unsaturated
        have stale := cause.resolve_left (by rw [stillOpen]; exact Bool.false_ne_true)
        have below := budgeted.below stillOpen unsaturated
        have notLimit : system.bridge.httpRequestCount + 1 ≠ settings.maxHttpRequests :=
          fun limit => careful ⟨rfl, (staleAccepted_iff _).mpr ⟨generation, isAccepted, stale⟩,
            stillOpen, unsaturated, limit⟩
        dsimp only
        omega
    · refine ⟨?_, ?_, fun _ unsaturated => ?_⟩
      · rw [admissions_append, Bool.toNat_false]
        dsimp only
        omega
      · rw [admissions_append, Bool.toNat_false]
        exact within
      · rw [saturation] at unsaturated
        cases unsaturated
    · have below := budgeted.below isOpen free
      refine ⟨?_, ?_, fun _ unsaturated => ?_⟩
      · rw [admissions_append, Bool.toNat_true]
        dsimp only
        omega
      · rw [admissions_append, Bool.toNat_true]
        omega
      · rw [saturation, beq_eq_false_iff_ne] at unsaturated
        dsimp only
        omega
  · obtain ⟨answers, count, saturation, closure⟩ := perform_frame taken isAdmission
    have sameAdmissions : next.admissions = system.admissions := by
      rw [admissions, answers, admissions]
    refine ⟨?_, ?_, fun stillOpen unsaturated => ?_⟩
    · rw [sameAdmissions, count]
      exact budgeted.counted
    · rw [sameAdmissions]
      exact budgeted.within
    · rw [count]
      exact budgeted.below (closure stillOpen) (saturation ▸ unsaturated)

/-! ## Runs that step over the limit -/

/-- An open bridge past its limit that has not been saturated, with its listener at the select. -/
structure Overstepped (settings : BridgeSettings Identity Digest) (system : System Identity Digest) :
    Prop where
  accounted : Accounted system
  isOpen : system.bridge.admissionClosed = false
  unsaturated : system.bridge.httpAdmissionSaturated = false
  past : settings.maxHttpRequests ≤ system.bridge.httpRequestCount
  selecting : system.listener = .selecting

/-- Past the limit, the next current connection is admitted, and the bridge stays as it is. -/
theorem Overstepped.admits {settings : BridgeSettings Identity Digest}
    {system : System Identity Digest} (overstepped : Overstepped settings system) :
    ∃ actions next, run (perform settings) actions system = some next ∧
      Overstepped settings next ∧ next.admissions = system.admissions + 1 := by
  obtain ⟨bridge, answer, unsaturated⟩ := Bridge.admitHttpRequest_past settings
    system.bridge.registerAcceptedHttpRequest (Nat.le_add_left 1 _) overstepped.isOpen
    overstepped.unsaturated overstepped.past
  obtain ⟨sameClosed, effect⟩ := Bridge.admitHttpRequest_cases settings answer
  have isOpen : bridge.admissionClosed = false := sameClosed.trans overstepped.isOpen
  have past : settings.maxHttpRequests ≤ bridge.httpRequestCount := by
    have before := overstepped.past
    rcases effect with ⟨-, -, count, -⟩ | ⟨full, -⟩ | ⟨-, -, -, -, count, -⟩
    · rw [count]
      exact before.trans (Nat.le_succ _)
    · exact absurd (full.symm.trans overstepped.unsaturated) (by decide)
    · rw [count]
      exact before.trans (Nat.le_succ _)
  -- The listener serves one connection, up to the moment when it looks for a handler slot.
  let dispatched : System Identity Digest := { system with
    bridge := bridge
    listener := .dispatching
    answers := system.answers ++ [(true, false)] }
  have served : run (perform settings)
      [.captureGeneration, .acceptConnection, .admitRequest, .heedAnswer] system =
        some dispatched := by
    have selecting := overstepped.selecting
    have admission : system.bridge.registerAcceptedHttpRequest.admitHttpRequest settings
        system.bridge.acceptGeneration = .ok (bridge, true, false) := answer
    simp [run, perform, selecting, admission, dispatched]
  have counted : dispatched.admissions = system.admissions + 1 :=
    admissions_append system bridge .dispatching true false
  have accounted := overstepped.accounted.of_reaches ⟨_, served⟩
  have dispatching : dispatched.listener = .dispatching := rfl
  by_cases free : dispatched.slotsHeld < settings.maxConcurrentHandlers
  · have handled : run (perform settings) [.acquireSlot] dispatched = some { dispatched with
        activeConnections := dispatched.activeConnections + 1
        listener := .selecting } := by
      simp [run, perform, dispatching, free]
    have ends := run_append_eq_some (perform settings) served handled
    exact ⟨_, _, ends, ⟨overstepped.accounted.of_reaches ⟨_, ends⟩, isOpen, unsaturated, past, rfl⟩,
      counted⟩
  · have refused : run (perform settings) [.acquireSlot, .finishRefused] dispatched =
        some { dispatched with
          bridge := { bridge.recordLimitRejection with
            inflightAdmittedHttpRequestCount := bridge.inflightAdmittedHttpRequestCount - 1 }
          listener := .selecting } := by
      have inflight : 1 ≤ bridge.recordLimitRejection.inflightAdmittedHttpRequestCount := by
        change 1 ≤ dispatched.bridge.inflightAdmittedHttpRequestCount
        rw [accounted.inflight, dispatching, undispatched]
        omega
      have finished := Bridge.finishAdmittedHttpRequest_of_inflight inflight
      have sameBridge : dispatched.bridge = bridge := rfl
      simp [run, perform, dispatching, free, sameBridge, finished]
      rfl
    have ends := run_append_eq_some (perform settings) served refused
    exact ⟨_, _, ends, ⟨overstepped.accounted.of_reaches ⟨_, ends⟩, isOpen, unsaturated, past, rfl⟩,
      counted⟩

/-- Past the limit, any number of requests can still be admitted. -/
theorem Overstepped.exceeds {settings : BridgeSettings Identity Digest}
    {system : System Identity Digest} (overstepped : Overstepped settings system) (number : ℕ) :
    ∃ actions next, run (perform settings) actions system = some next ∧
      Overstepped settings next ∧ number ≤ next.admissions := by
  induction number with
  | zero => exact ⟨[], system, rfl, overstepped, Nat.zero_le _⟩
  | succ number ih =>
      obtain ⟨actions, middle, reaches, past, enough⟩ := ih
      obtain ⟨more, next, continues, stillPast, counted⟩ := past.admits
      exact ⟨actions ++ more, next, run_append_eq_some _ reaches continues, stillPast, by omega⟩

/-- The step over the limit leads there. -/
theorem overstepped_of_stepsOver {settings : BridgeSettings Identity Digest}
    {system : System Identity Digest} (accounted : Accounted system)
    (stepsOver : StepsOver settings system .admitRequest) :
    ∃ next, run (perform settings) [.admitRequest, .heedAnswer] system = some next ∧
      Overstepped settings next := by
  obtain ⟨-, staleAccepted, isOpen, unsaturated, limit⟩ := stepsOver
  obtain ⟨generation, isAccepted, stale⟩ := (staleAccepted_iff system).mp staleAccepted
  obtain ⟨bridge, admitted, saturated, answer⟩ := Bridge.exists_admitHttpRequest settings
    (by rw [accounted.pending, isAccepted, registered]) generation
  obtain ⟨sameClosed, effect⟩ := Bridge.admitHttpRequest_cases settings answer
  rcases effect with ⟨-, rfl, count, saturation⟩ | ⟨full, -⟩ | ⟨-, same, -⟩
  · have turnedAway : run (perform settings) [.admitRequest, .heedAnswer] system =
        some { system with
          bridge := bridge
          admissionStopRequested := system.admissionStopRequested || saturated
          listener := .selecting
          answers := system.answers ++ [(false, saturated)] } := by
      simp [run, perform, isAccepted, answer]
    exact ⟨_, turnedAway, accounted.of_reaches ⟨_, turnedAway⟩, sameClosed.trans isOpen,
      saturation.trans unsaturated, (count.trans limit).ge, rfl⟩
  · exact absurd (full.symm.trans unsaturated) (by decide)
  · exact absurd same stale

/-- A run that never steps over the limit admits at most as many requests as the limit allows; a
step over the limit can be followed by any number of admissions. -/
theorem http_budget_hard_unless_overstepped (settings : BridgeSettings Identity Digest)
    (actions : List (Action Identity)) (system : System Identity Digest)
    (reaches : run (perform settings) actions started = some system) :
    (EveryStep (perform settings) (fun state action => ¬ StepsOver settings state action) actions
        started → system.admissions ≤ settings.maxHttpRequests) ∧
      (StepsOver settings system .admitRequest → ∀ number, ∃ more next,
        run (perform settings) more system = some next ∧ number ≤ next.admissions) := by
  constructor
  · intro careful
    exact (invariant_of_everyStep (perform settings)
      (fun state => Accounted state ∧ Budgeted settings state)
      (fun action state next taken isCareful kept =>
        ⟨kept.1.step taken, kept.2.step taken isCareful kept.1⟩)
      reaches careful ⟨accounted_started, budgeted_started settings⟩).2.within
  · intro stepsOver number
    obtain ⟨past, turnsAway, overstepped⟩ :=
      overstepped_of_stepsOver (accounted_started.of_reaches ⟨actions, reaches⟩) stepsOver
    obtain ⟨more, next, continues, -, enough⟩ := overstepped.exceeds number
    exact ⟨_, next, run_append_eq_some _ turnsAway continues, enough⟩

/-! ## A bridge for two requests -/

theorem twoRequests_admitsOne : 1 ≤ 2 := by
  decide

theorem twoRequests_handlesOne : 1 ≤ 1 :=
  le_rfl

/-- Two requests, answered by one handler at a time. -/
def twoRequests : BridgeSettings ℕ ℕ where
  maxHttpRequests := 2
  maxConcurrentHandlers := 1
  admitsOne := twoRequests_admitsOne
  handlesOne := twoRequests_handlesOne
  snapshotSha256 identity requests rejections := identity + requests + rejections

/-- One request, from the select to the end of its handler. -/
def oneRequest : List (Action ℕ) :=
  [.captureGeneration, .acceptConnection, .admitRequest, .heedAnswer, .acquireSlot,
    .leaveConnection, .releaseSlot, .finishHandler]

/-- A scope begins while the listener waits at the checkpoint; the wait ends first, and the
listener captures the old generation. -/
def lateBoundary : List (Action ℕ) :=
  [.requestBoundary (.begin_ 7), .captureGeneration, .deliverCheckpoint, .waitDrained,
    .waitDrained, .waitDrained, .resumeListener, .captureGeneration, .crossBoundary,
    .acceptConnection, .admitRequest, .heedAnswer]

/-- Three requests are admitted by a bridge for two. -/
theorem stale_connection_lifts_budget :
    ∃ system, run (perform twoRequests) (oneRequest ++ lateBoundary ++ oneRequest ++ oneRequest)
        started = some system ∧
      system.admissions = 3 ∧ twoRequests.maxHttpRequests = 2 ∧
      ¬ ∀ (actions : List (Action ℕ)) (reached : System ℕ ℕ),
        run (perform twoRequests) actions started = some reached →
          reached.admissions ≤ twoRequests.maxHttpRequests := by
  obtain ⟨system, reaches⟩ : ∃ system, run (perform twoRequests)
      (oneRequest ++ lateBoundary ++ oneRequest ++ oneRequest) started = some system :=
    Option.isSome_iff_exists.mp (by decide)
  have three : (run (perform twoRequests)
      (oneRequest ++ lateBoundary ++ oneRequest ++ oneRequest) started).map admissions = some 3 := by
    decide
  rw [reaches, Option.map_some, Option.some.injEq] at three
  refine ⟨system, reaches, three, rfl, fun always => ?_⟩
  have few := always _ system reaches
  rw [three] at few
  exact absurd few (by decide)

/-- Two requests in a row are admitted and saturate the bridge. -/
theorem http_budget_hard_sample :
    ∃ system, run (perform twoRequests) (oneRequest ++ oneRequest) started = some system ∧
      system.admissions ≤ 2 := by
  obtain ⟨system, reaches⟩ : ∃ system,
      run (perform twoRequests) (oneRequest ++ oneRequest) started = some system :=
    Option.isSome_iff_exists.mp (by decide)
  exact ⟨system, reaches,
    (http_budget_hard_unless_overstepped twoRequests _ system reaches).1 (by decide)⟩

end System

end Rpc

end MmAudit
