import MmAudit.Library.Fallible

/-!
# Computations that leave a log

A computation that writes durable entries returns the entries it has written,
in order, beside its value or its failure.  What was written before a failure or
an interruption stays written, so a property of the store must survive every
prefix of the log.

`Writes` is the triple for such computations: every entry is admissible in the
store it finds, and a returned value satisfies the postcondition together with
the store it leaves.
-/

namespace MmAudit

/-- The entries written so far, and the value or the failure. -/
structure Logged (Entry Value : Type) where
  log : List Entry
  result : Except String Value

namespace Logged

variable {Entry Value Result : Type}

/-- Run a computation that writes nothing. -/
def lift (computation : Except String Value) : Logged Entry Value :=
  ⟨[], computation⟩

/-- Write one entry. -/
def write (entry : Entry) : Logged Entry Unit :=
  ⟨[entry], .ok ()⟩

/-- Continue after a computation that returned; a failure ends the log. -/
def andThen (computation : Logged Entry Value) (continuation : Value → Logged Entry Result) :
    Logged Entry Result :=
  match computation.result with
  | .error failure => ⟨computation.log, .error failure⟩
  | .ok value => ⟨computation.log ++ (continuation value).log, (continuation value).result⟩

instance : Monad (Logged Entry) where
  pure value := ⟨[], .ok value⟩
  bind := andThen

/-! ## Returned values -/

theorem result_bind_eq_ok_iff {computation : Logged Entry Value}
    {continuation : Value → Logged Entry Result} {result : Result} :
    (computation >>= continuation).result = .ok result ↔
      ∃ value, computation.result = .ok value ∧ (continuation value).result = .ok result := by
  change (andThen computation continuation).result = .ok result ↔ _
  rw [andThen]
  cases computation.result with
  | error failure => simp
  | ok value => simp

theorem log_bind_of_ok {computation : Logged Entry Value} {value : Value}
    (returned : computation.result = .ok value) (continuation : Value → Logged Entry Result) :
    (computation >>= continuation).log = computation.log ++ (continuation value).log := by
  change (andThen computation continuation).log = _
  rw [andThen, returned]

@[simp]
theorem result_lift (computation : Except String Value) :
    (lift computation : Logged Entry Value).result = computation :=
  rfl

@[simp]
theorem log_lift (computation : Except String Value) :
    (lift computation : Logged Entry Value).log = [] :=
  rfl

@[simp]
theorem result_write (entry : Entry) : (write entry).result = .ok () :=
  rfl

@[simp]
theorem log_write (entry : Entry) : (write entry).log = [entry] :=
  rfl

@[simp]
theorem result_pure (value : Value) : (pure value : Logged Entry Value).result = .ok value :=
  rfl

@[simp]
theorem log_pure (value : Value) : (pure value : Logged Entry Value).log = [] :=
  rfl

/-- A returned value and the log that led to it. -/
def Returns (computation : Logged Entry Value) (log : List Entry) (value : Value) : Prop :=
  computation.log = log ∧ computation.result = .ok value

theorem returns_of_ok {computation : Logged Entry Value} {value : Value}
    (returned : computation.result = .ok value) : computation.Returns computation.log value :=
  ⟨rfl, returned⟩

theorem returns_bind_iff {computation : Logged Entry Value}
    {continuation : Value → Logged Entry Result} {log : List Entry} {result : Result} :
    (computation >>= continuation).Returns log result ↔
      ∃ first value rest, computation.Returns first value ∧
        (continuation value).Returns rest result ∧ log = first ++ rest := by
  constructor
  · rintro ⟨rfl, returned⟩
    obtain ⟨value, firstReturned, restReturned⟩ := result_bind_eq_ok_iff.mp returned
    exact ⟨_, value, _, returns_of_ok firstReturned, returns_of_ok restReturned,
      log_bind_of_ok firstReturned continuation⟩
  · rintro ⟨first, value, rest, ⟨rfl, firstReturned⟩, ⟨rfl, restReturned⟩, rfl⟩
    exact ⟨log_bind_of_ok firstReturned continuation,
      result_bind_eq_ok_iff.mpr ⟨value, firstReturned, restReturned⟩⟩

@[simp]
theorem returns_lift_iff {computation : Except String Value} {log : List Entry} {value : Value} :
    (lift computation).Returns log value ↔ log = [] ∧ computation = .ok value := by
  simp only [Returns, log_lift, result_lift, eq_comm (a := ([] : List Entry))]

@[simp]
theorem returns_write_iff {entry : Entry} {log : List Entry} {value : Unit} :
    (write entry).Returns log value ↔ log = [entry] := by
  simp only [Returns, log_write, result_write, and_true, eq_comm (a := [entry])]

@[simp]
theorem returns_pure_iff {value other : Value} {log : List Entry} :
    (pure value : Logged Entry Value).Returns log other ↔ log = [] ∧ value = other := by
  simp only [Returns, log_pure, result_pure, Except.ok.injEq, eq_comm (a := ([] : List Entry))]

@[simp]
theorem returns_lift_bind_iff {computation : Except String Value}
    {continuation : Value → Logged Entry Result} {log : List Entry} {result : Result} :
    (lift computation >>= continuation).Returns log result ↔
      ∃ value, computation = .ok value ∧ (continuation value).Returns log result := by
  rw [returns_bind_iff]
  constructor
  · rintro ⟨first, value, rest, found, finished, rfl⟩
    obtain ⟨rfl, success⟩ := returns_lift_iff.mp found
    exact ⟨value, success, finished⟩
  · rintro ⟨value, found, finished⟩
    exact ⟨[], value, log, returns_lift_iff.mpr ⟨rfl, found⟩, finished, rfl⟩

@[simp]
theorem returns_write_bind_iff {entry : Entry} {continuation : Unit → Logged Entry Result}
    {log : List Entry} {result : Result} :
    (write entry >>= continuation).Returns log result ↔
      ∃ rest, (continuation ()).Returns rest result ∧ log = entry :: rest := by
  rw [returns_bind_iff]
  constructor
  · rintro ⟨first, value, rest, written, finished, rfl⟩
    obtain rfl := returns_write_iff.mp written
    exact ⟨rest, finished, rfl⟩
  · rintro ⟨rest, finished, rfl⟩
    exact ⟨[entry], (), rest, returns_write_iff.mpr rfl, finished, rfl⟩

/-- What a computation writes before or after a continuation starts. -/
theorem mem_log_bind {computation : Logged Entry Value}
    {continuation : Value → Logged Entry Result} {entry : Entry}
    (member : entry ∈ (computation >>= continuation).log) :
    entry ∈ computation.log ∨
      ∃ value, computation.result = .ok value ∧ entry ∈ (continuation value).log := by
  change entry ∈ (andThen computation continuation).log at member
  unfold andThen at member
  cases returned : computation.result with
  | error failure =>
      rw [returned] at member
      exact .inl member
  | ok value =>
      rw [returned] at member
      rcases List.mem_append.mp member with first | second
      · exact .inl first
      · exact .inr ⟨value, rfl, second⟩

/-- A loop writes what its bodies write. -/
theorem forall_mem_log_foldlM {Item : Type} {body : Value → Item → Logged Entry Value}
    (kind : Entry → Prop) (items : List Item)
    (bodies : ∀ value item, ∀ entry ∈ (body value item).log, kind entry) (value : Value) :
    ∀ entry ∈ (items.foldlM body value).log, kind entry := by
  induction items generalizing value with
  | nil => exact fun _ impossible => nomatch impossible
  | cons item items ih =>
      rw [List.foldlM_cons]
      intro entry member
      rcases mem_log_bind member with first | ⟨next, -, rest⟩
      · exact bodies value item entry first
      · exact ih next entry rest

/-! ## Admissible logs -/

section Admissible

variable {Store : Type} (apply : Store → Entry → Store) (admits : Store → Entry → Prop)

/-- Every entry of a log is admissible in the store it finds. -/
def Follows : Store → List Entry → Prop
  | _, [] => True
  | store, entry :: rest => admits store entry ∧ Follows (apply store entry) rest

variable {apply admits}

theorem follows_append {store : Store} {first second : List Entry} :
    Follows apply admits store (first ++ second) ↔
      Follows apply admits store first ∧
        Follows apply admits (first.foldl apply store) second := by
  induction first generalizing store with
  | nil => simp [Follows]
  | cons entry first ih =>
      simp only [List.cons_append, Follows, ih, List.foldl_cons, and_assoc]

/-- A prefix of an admissible log is admissible. -/
theorem Follows.initial {store : Store} {before log : List Entry}
    (follows : Follows apply admits store log) (isPrefix : before <+: log) :
    Follows apply admits store before := by
  obtain ⟨rest, rfl⟩ := isPrefix
  exact (follows_append.mp follows).1

theorem Follows.mono {weaker : Store → Entry → Prop} {store : Store} {log : List Entry}
    (follows : Follows apply admits store log)
    (implies : ∀ store entry, admits store entry → weaker store entry) :
    Follows apply weaker store log := by
  induction log generalizing store with
  | nil => trivial
  | cons entry log ih => exact ⟨implies _ _ follows.1, ih follows.2⟩

/-- A further condition that all entries of the log meet wherever they are
written. -/
theorem Follows.and_of_forall {other : Store → Entry → Prop} {store : Store} {log : List Entry}
    (follows : Follows apply admits store log) (all : ∀ entry ∈ log, ∀ store, other store entry) :
    Follows apply (fun store entry => admits store entry ∧ other store entry) store log := by
  induction log generalizing store with
  | nil => trivial
  | cons entry log ih =>
      exact ⟨⟨follows.1, all entry List.mem_cons_self store⟩,
        ih follows.2 fun later member => all later (List.mem_cons_of_mem _ member)⟩

/-- An invariant that every admissible entry preserves holds after a log. -/
theorem Follows.invariant (holds : Store → Prop) {store : Store} {log : List Entry}
    (follows : Follows apply admits store log) (start : holds store)
    (step : ∀ store entry, holds store → admits store entry → holds (apply store entry)) :
    holds (log.foldl apply store) := by
  induction log generalizing store with
  | nil => exact start
  | cons entry log ih => exact ih follows.2 (step _ _ start follows.1)

variable (apply admits) in
/-- The triple of a computation that writes. -/
structure Writes (start : Store) (computation : Logged Entry Value)
    (post : Value → Store → Prop) : Prop where
  follows : Follows apply admits start computation.log
  returns : ∀ value, computation.result = .ok value → post value (computation.log.foldl apply start)

theorem Writes.pure {start : Store} {value : Value} {post : Value → Store → Prop}
    (holds : post value start) : Writes apply admits start (Pure.pure value) post where
  follows := trivial
  returns := by
    intro other same
    obtain rfl := Except.ok.inj same
    exact holds

theorem Writes.lift {start : Store} {computation : Except String Value}
    {post : Value → Store → Prop}
    (holds : ∀ value, computation = .ok value → post value start) :
    Writes apply admits start (lift computation) post where
  follows := trivial
  returns := holds

theorem Writes.write {start : Store} {entry : Entry} {post : Unit → Store → Prop}
    (admitted : admits start entry) (holds : post () (apply start entry)) :
    Writes apply admits start (write entry) post where
  follows := ⟨admitted, trivial⟩
  returns := fun _ _ => holds

theorem Writes.bind {start : Store} {computation : Logged Entry Value}
    {continuation : Value → Logged Entry Result} {middle : Value → Store → Prop}
    {post : Result → Store → Prop} (first : Writes apply admits start computation middle)
    (second : ∀ value store, middle value store →
      Writes apply admits store (continuation value) post) :
    Writes apply admits start (computation >>= continuation) post := by
  cases returned : computation.result with
  | error failure =>
      have same : computation >>= continuation = ⟨computation.log, .error failure⟩ := by
        change andThen computation continuation = _
        rw [andThen, returned]
      rw [same]
      exact ⟨first.follows, fun _ impossible => nomatch impossible⟩
  | ok value =>
      have next := second value _ (first.returns value returned)
      refine ⟨?_, fun result finished => ?_⟩
      · rw [log_bind_of_ok returned]
        exact follows_append.mpr ⟨first.follows, next.follows⟩
      · obtain ⟨other, otherReturned, otherFinished⟩ := result_bind_eq_ok_iff.mp finished
        obtain rfl := Except.ok.inj (returned.symm.trans otherReturned)
        rw [log_bind_of_ok returned, List.foldl_append]
        exact next.returns result otherFinished

/-- A check or a lookup, followed by the rest. -/
theorem Writes.lift_bind {start : Store} {computation : Except String Value}
    {continuation : Value → Logged Entry Result} {post : Result → Store → Prop}
    (next : ∀ value, computation = .ok value →
      Writes apply admits start (continuation value) post) :
    Writes apply admits start (Logged.lift computation >>= continuation) post := by
  have found : Writes apply admits start (Logged.lift computation)
      fun value store => computation = .ok value ∧ store = start :=
    Writes.lift fun value found => ⟨found, rfl⟩
  refine found.bind ?_
  rintro value store ⟨returned, rfl⟩
  exact next value returned

/-- A write, followed by the rest. -/
theorem Writes.write_bind {start : Store} {entry : Entry}
    {continuation : Unit → Logged Entry Result} {post : Result → Store → Prop}
    (admitted : admits start entry)
    (next : Writes apply admits (apply start entry) (continuation ()) post) :
    Writes apply admits start (Logged.write entry >>= continuation) post := by
  have written : Writes apply admits start (Logged.write entry)
      fun _ store => store = apply start entry :=
    Writes.write admitted rfl
  refine written.bind ?_
  rintro _ store rfl
  exact next

theorem Writes.mono {start : Store} {computation : Logged Entry Value}
    {post weaker : Value → Store → Prop} (writes : Writes apply admits start computation post)
    (implies : ∀ value store, post value store → weaker value store) :
    Writes apply admits start computation weaker :=
  ⟨writes.follows, fun value returned => implies _ _ (writes.returns value returned)⟩

/-- A loop keeps an invariant that speaks of the items still to come. -/
theorem Writes.foldlM {Item : Type} {body : Value → Item → Logged Entry Value}
    (invariant : List Item → Value → Store → Prop) (items : List Item) {start : Store}
    {value : Value} (begins : invariant items value start)
    (step : ∀ item rest value store, invariant (item :: rest) value store →
      Writes apply admits store (body value item) (invariant rest)) :
    Writes apply admits start (items.foldlM body value) (invariant []) := by
  induction items generalizing value start with
  | nil => exact Writes.pure begins
  | cons item items ih =>
      rw [List.foldlM_cons]
      exact (step item items value start begins).bind fun next store holds => ih holds

end Admissible

end Logged

end MmAudit
