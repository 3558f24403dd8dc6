import Gofi.Sqln.Transaction

/-! `sqln/transaction`: a call of `Execute` as the sequence of its attempts. -/

namespace Gofi.Sqln.Transaction

open Gofi.Go

theorem Event.tx_of_ends {event : Event} {tx : Nat} (ends : event.ends tx = true) : event.tx = tx := by
  cases event <;> simp_all [Event.ends, Event.tx]

structure Extends (w after : World σ) (events : List Event) : Prop where
  log : after.log = w.log ++ events
  next : w.next ≤ after.next
  fresh : ∀ event ∈ events, w.next ≤ event.tx ∧ event.tx < after.next

theorem Extends.outside {after : World σ} {outside : σ} (extended : Extends w after events) :
    Extends w { after with outside } events :=
  ⟨extended.log, extended.next, extended.fresh⟩

theorem Extends.trans {w middle after : World σ} (first : Extends w middle events)
    (second : Extends middle after later) :
    Extends w after (events ++ later) where
  log := by rw [second.log, first.log, List.append_assoc]
  next := Nat.le_trans first.next second.next
  fresh event present := by
    have between := first.next
    have onward := second.next
    rcases List.mem_append.mp present with early | late
    · have range := first.fresh event early
      lia
    · have range := second.fresh event late
      lia

def Frames (fn : Body σ) : Prop := ∀ ctx w, ∃ events, Extends w (fn ctx w).2 events

inductive Ending where
  | committed (success : Bool)
  | rolledBack (success : Bool)
  deriving DecidableEq

def Ending.event (tx : Nat) : Ending → Event
  | committed success => .committed tx success
  | rolledBack success => .rolledBack tx success

@[simp] theorem Ending.event_tx (tx : Nat) (ending : Ending) : (ending.event tx).tx = tx := by
  cases ending <;> rfl

/-- An attempt: the transaction did not begin, or the function ran with it and did
something of its own, before the transaction was ended. -/
inductive Attempt where
  | refused
  | ran (tx : Nat) (inner : List Event) (ending : Ending)
  deriving DecidableEq

namespace Attempt

def events (db : Nat) : Attempt → List Event
  | refused => []
  | ran tx inner ending => .began db tx :: .called tx :: (inner ++ [ending.event tx])

def begun : Attempt → List Nat
  | refused => []
  | ran tx _ _ => [tx]

def committed : Attempt → Bool
  | refused => false
  | ran _ _ ending => ending = .committed true

/-- What an attempt came to that committed nothing: its transaction did not begin, was
given a rollback, which may have failed, or ended with a commit that failed. -/
inductive Undone : Attempt → Prop where
  | refused : Undone .refused
  | rolledBack (tx : Nat) (inner : List Event) (success : Bool) : Undone (.ran tx inner (.rolledBack success))
  | commitFailed (tx : Nat) (inner : List Event) : Undone (.ran tx inner (.committed false))

theorem undone_of_committed {attempt : Attempt} (nothing : attempt.committed = false) : attempt.Undone := by
  match attempt with
  | refused => exact .refused
  | ran tx inner (.rolledBack success) => exact .rolledBack tx inner success
  | ran tx inner (.committed false) => exact .commitFailed tx inner
  | ran tx inner (.committed true) => cases nothing

theorem begun_events {attempt : Attempt} (begun : tx ∈ attempt.begun) : .began db tx ∈ attempt.events db := by
  cases attempt with
  | refused => cases begun
  | ran own inner ending => simp_all [Attempt.begun, events]

end Attempt

section

variable {backend : Backend σ} {opts : Options} {fn : Body σ}

/-- Whatever the function's result, its transaction is ended by one call, and a
successful commit is all that makes the attempt succeed. -/
theorem finish_ends (backend : Backend σ) (tx : Nat) (result : Result) (w : World σ) : ∃ ending : Ending,
    (finish backend tx (result, w)).2.log = w.log ++ [ending.event tx] ∧
    (finish backend tx (result, w)).2.next = w.next ∧
    (ending = .committed true ↔ (finish backend tx (result, w)).1 = .returned none) := by
  match result with
  | .panicked => exact ⟨.rolledBack _, rfl, rfl, by simp [finish]⟩
  | .returned (some err) =>
    refine ⟨.rolledBack (backend.rollsBack tx w.outside).1.isNone, ?_⟩
    cases failed : (backend.rollsBack tx w.outside).1 <;> simp [finish, rollback, failed, Ending.event]
  | .returned none =>
    refine ⟨.committed (backend.commits tx w.outside).1.isNone, ?_⟩
    cases failed : (backend.commits tx w.outside).1 <;> simp [finish, commit, failed, Ending.event]

theorem Attempt.ended {inner : List Event} (inside : ∀ event ∈ inner, tx < event.tx) (ending : Ending) :
    ((Attempt.ran tx inner ending).events db).countP (Event.ends tx) = 1 := by
  have none_inside : inner.countP (Event.ends tx) = 0 := by
    refine List.countP_eq_zero.mpr fun event present ends => ?_
    have later := inside event present
    have same := Event.tx_of_ends ends
    lia
  cases ending <;> simp [events, Ending.event, Event.ends, none_inside]

variable {w : World σ}

theorem executeTransaction_attempt (frames : Frames fn) (outer : ctx.txFor db = none)
    (ran : executeTransaction backend opts ctx db fn w = called) : ∃ attempt : Attempt,
    Extends w called.2 (attempt.events db) ∧ (∀ tx ∈ attempt.begun, (attempt.events db).countP (Event.ends tx) = 1) ∧
    (attempt.committed = true ↔ called.1 = .returned none) := by
  subst ran
  simp only [executeTransaction, outer, beginTransaction]
  match backend.begins opts ctx db w.outside with
  | (some err, outside) =>
    exact ⟨.refused, ⟨by simp [Attempt.events], Nat.le_refl _, by simp [Attempt.events]⟩, by simp [Attempt.begun],
      by simp [Attempt.committed]⟩
  | (none, outside) =>
    let begun : World σ := ⟨outside, w.next + 1, w.log ++ [.began db w.next] ++ [.called w.next]⟩
    obtain ⟨inner, extended⟩ := frames (ctx.withTx db w.next) begun
    obtain ⟨ending, log, next, succeeds⟩ :=
      finish_ends backend w.next (fn (ctx.withTx db w.next) begun).1 (fn (ctx.withTx db w.next) begun).2
    have inside : ∀ event ∈ inner, w.next < event.tx := fun event present => (extended.fresh event present).1
    have after : w.next < (finish backend w.next (fn (ctx.withTx db w.next) begun)).2.next :=
      Nat.lt_of_lt_of_eq (Nat.lt_of_succ_le extended.next) next.symm
    refine ⟨.ran w.next inner ending, ⟨?_, Nat.le_of_lt after, ?_⟩, ?_, ?_⟩
    · refine log.trans ?_
      rw [extended.log]
      simp [begun, Attempt.events]
    · intro event present
      simp only [Attempt.events, List.mem_cons, List.mem_append, List.not_mem_nil, or_false] at present
      rcases present with rfl | rfl | own | rfl
      · exact ⟨Nat.le_refl _, after⟩
      · exact ⟨Nat.le_refl _, after⟩
      · exact ⟨Nat.le_of_lt (inside event own), Nat.lt_of_lt_of_eq (extended.fresh event own).2 next.symm⟩
      · exact ⟨(ending.event_tx w.next).ge, (ending.event_tx w.next).trans_lt after⟩
    · intro tx begun
      rw [List.mem_singleton.mp begun]
      exact Attempt.ended inside ending
    · refine .trans ?_ succeeds
      simp [Attempt.committed]

/-- A call of `Execute` told by its attempts: each transaction begun is ended once,
and the call succeeds by a commit of the last one and no other. -/
structure Ran (db : Nat) (w : World σ) (called : Result × World σ) (attempts : List Attempt) : Prop where
  extended : Extends w called.2 (attempts.flatMap (Attempt.events db))
  ended : ∀ tx ∈ attempts.flatMap Attempt.begun, (attempts.flatMap (Attempt.events db)).countP (Event.ends tx) = 1
  succeeded : called.1 = .returned none → ∃ earlier last, attempts = earlier ++ [last] ∧ last.committed = true ∧
    ∀ attempt ∈ earlier, attempt.Undone
  failed : called.1 ≠ .returned none → ∀ attempt ∈ attempts, attempt.Undone

variable {called : Result × World σ}

theorem Ran.one {attempt : Attempt} (extended : Extends w called.2 (attempt.events db))
    (ended : ∀ tx ∈ attempt.begun, (attempt.events db).countP (Event.ends tx) = 1)
    (committed : attempt.committed = true ↔ called.1 = .returned none) : Ran db w called [attempt] where
  extended := by simpa using extended
  ended := by simpa using ended
  succeeded success := ⟨[], attempt, rfl, committed.mpr success, by simp⟩
  failed failure := by
    intro other present
    rw [List.mem_singleton.mp present]
    exact Attempt.undone_of_committed (Bool.eq_false_iff.mpr fun success => failure (committed.mp success))

variable {after : World σ}

theorem Extends.ends_none (extended : Extends w after events)
    (apart : tx < w.next ∨ after.next ≤ tx) : events.countP (Event.ends tx) = 0 := by
  refine List.countP_eq_zero.mpr fun event present ends => ?_
  have range := extended.fresh event present
  have same := Event.tx_of_ends ends
  lia

theorem Extends.begun {attempts : List Attempt}
    (extended : Extends w after (attempts.flatMap (Attempt.events db)))
    (present : tx ∈ attempts.flatMap Attempt.begun) :
    w.next ≤ tx ∧ tx < after.next := by
  obtain ⟨attempt, tried, begun⟩ := List.mem_flatMap.mp present
  exact extended.fresh (.began db tx) (List.mem_flatMap.mpr ⟨attempt, tried, Attempt.begun_events begun⟩)

theorem Ran.more (extended : Extends w middle (attempt.events db))
    (ended : ∀ tx ∈ attempt.begun, (attempt.events db).countP (Event.ends tx) = 1)
    (undone : attempt.Undone) (rest : Ran db middle called attempts) :
    Ran db w called (attempt :: attempts) where
  extended := extended.trans rest.extended
  ended tx present := by
    rw [List.flatMap_cons, List.countP_append]
    rcases List.mem_append.mp present with own | later
    · have range : w.next ≤ tx ∧ tx < middle.next := extended.fresh _ (Attempt.begun_events own)
      rw [ended tx own, rest.extended.ends_none (.inl range.2)]
    · have range := rest.extended.begun later
      rw [rest.ended tx later, extended.ends_none (.inr range.1)]
  succeeded success := by
    obtain ⟨earlier, last, split, committed, others⟩ := rest.succeeded success
    refine ⟨attempt :: earlier, last, by rw [split, List.cons_append], committed, ?_⟩
    simpa [undone] using others
  failed failure := by simpa [undone] using rest.failed failure

theorem executeTransaction_last (frames : Frames fn) (outer : ctx.txFor db = none)
    (ran : executeTransaction backend opts ctx db fn w = (result, after)) (outside : σ) (limit : Int)
    (same : final = .returned none ↔ result = .returned none) :
    ∃ attempts, Ran db w (final, { after with outside }) attempts ∧ (attempts.length : Int) ≤ 1 + max 0 limit := by
  obtain ⟨attempt, extended, ended, committed⟩ := executeTransaction_attempt frames outer ran
  exact ⟨[attempt], .one extended.outside ended (committed.trans same.symm), by simp⟩

theorem executeWithRetry_ran (backend : Backend σ) (opts : Options) (frames : Frames fn) (outer : ctx.txFor db = none)
    (attempt : Nat) (w : World σ) : ∃ attempts, Ran db w (executeWithRetry backend opts ctx db fn attempt w) attempts ∧
      (attempts.length : Int) ≤ 1 + max 0 (opts.maxRetries - attempt) := by
  fun_induction executeWithRetry backend opts ctx db fn attempt w with
  | case1 attempt w after ran | case2 attempt w after ran | case3 attempt w err after ran
  | case4 attempt w err after ran =>
    exact executeTransaction_last frames outer ran after.outside _ Iff.rfl
  | case5 attempt w err after ran => exact executeTransaction_last frames outer ran after.outside _ (by simp)
  | case6 attempt w err after ran => exact executeTransaction_last frames outer ran _ _ Iff.rfl
  | case7 attempt w err after ran more _ _ _ _ _ _ _ outside _ _ ih =>
    obtain ⟨first, extended, ended, committed⟩ := executeTransaction_attempt frames outer ran
    obtain ⟨rest, later, few⟩ := ih
    have undone : first.Undone := Attempt.undone_of_committed (by simpa using committed)
    refine ⟨first :: rest, later.more extended.outside ended undone, ?_⟩
    push_cast [List.length_cons] at few ⊢
    lia

theorem executeWithRetry_nested (carried : ctx.txFor db = some tx) (fn : Body σ) (attempt : Nat) (w : World σ) :
    executeWithRetry backend opts ctx db fn attempt w = fn ctx w := by
  have called : executeTransaction backend opts ctx db fn w = fn ctx w := by rw [executeTransaction, carried]
  rw [executeWithRetry, called]
  match fn ctx w with
  | (.panicked, after) => rfl
  | (.returned none, after) => rfl
  | (.returned (some err), after) => simp [carried]

end

inductive Derived (db tx : Nat) : Ctx → Prop where
  | own (ctx : Ctx) : Derived db tx (ctx.withTx db tx)
  | within (derived : Derived db tx ctx) (other own : Nat) : Derived db tx (ctx.withTx other own)

theorem Derived.bound (derived : Derived db tx ctx) : (db, tx) ∈ ctx.bindings := by
  induction derived with
  | own ctx => simp [Ctx.withTx]
  | within derived other own ih => simp [Ctx.withTx, ih]

theorem Derived.carries (derived : Derived db tx ctx) : ∃ carried, ctx.txFor db = some carried := by
  have bound := derived.bound
  have some_ : ctx.bindings.length ≠ 0 := List.length_pos_of_mem bound |>.ne'
  obtain ⟨binding, found⟩ : ∃ binding, ctx.bindings.reverse.find? (·.1 = db) = some binding := by
    refine Option.isSome_iff_exists.mp (List.find?_isSome.mpr ⟨(db, tx), List.mem_reverse.mpr bound, ?_⟩)
    simp
  exact ⟨binding.2, by simp [Ctx.txFor, some_, found]⟩

section

variable {backend : Backend σ} {opts : Options} {fn : Body σ} {connection : Option Nat}

theorem Frames.execute (frames : Frames fn) : Frames (execute backend opts connection · fn) := by
  intro ctx w
  simp only [Transaction.execute]
  split
  · rename_i db _
    cases carried : ctx.txFor db with
    | some tx =>
      rw [executeWithRetry_nested carried]
      exact frames ctx w
    | none =>
      obtain ⟨attempts, ran, _⟩ := executeWithRetry_ran backend opts frames carried 0 w
      exact ⟨_, ran.extended⟩
  · exact ⟨[], by simp, Nat.le_refl _, by simp⟩

/-- A call of `Execute` outside a transaction of its database: the calls it makes
are those of its attempts, at most one and `MaxRetries` more, each of which ends
the transaction it begins once. It returns no error exactly by committing the
transaction of the last attempt, and every other attempt is undone. A call inside, on a context
that stems from the function's own, is a call of its function and nothing else. -/
theorem execute_is_all_or_nothing (backend : Backend σ) (opts : Options) (connection : Option Nat) (ctx : Ctx)
    (fn : Body σ) (w : World σ) (selected : opts.connection.or connection = some db) (outer : ctx.txFor db = none)
    (frames : Frames fn) (numbered : ∀ event ∈ w.log, event.tx < w.next) : (∃ attempts : List Attempt,
      (execute backend opts connection ctx fn w).2.log = w.log ++ attempts.flatMap (Attempt.events db) ∧
      (attempts.length : Int) ≤ 1 + max 0 opts.maxRetries ∧
      (∀ tx ∈ attempts.flatMap Attempt.begun,
        (execute backend opts connection ctx fn w).2.log.countP (Event.ends tx) = 1) ∧
      ((execute backend opts connection ctx fn w).1 = .returned none → ∃ earlier last, attempts = earlier ++ [last] ∧
        last.committed = true ∧ ∀ attempt ∈ earlier, attempt.Undone) ∧
      ((execute backend opts connection ctx fn w).1 ≠ .returned none → ∀ attempt ∈ attempts, attempt.Undone)) ∧
    ∀ (inside : Options) (body : Body σ) (tx : Nat) (inner : Ctx), inside.connection.or connection = some db →
      Derived db tx inner → execute backend inside connection inner body = body inner := by
  constructor
  · obtain ⟨attempts, ran, few⟩ := executeWithRetry_ran backend opts frames outer 0 w
    simp only [execute, selected]
    refine ⟨attempts, ran.extended.log, by simpa using few, ?_, ran.succeeded, ran.failed⟩
    intro tx begun
    have before : w.log.countP (Event.ends tx) = 0 := by
      refine List.countP_eq_zero.mpr fun event present ends => ?_
      have range := ran.extended.begun begun
      have early := numbered event present
      have same := Event.tx_of_ends ends
      lia
    rw [ran.extended.log, List.countP_append, before, ran.ended tx begun]
  · intro inside body tx inner same derived
    obtain ⟨carried, found⟩ := derived.carries
    funext w
    rw [execute, same]
    exact executeWithRetry_nested found body 0 w

end

namespace Sample

def conflict : Err := .sqlState (ascii "40001")

/-- A database that refuses to begin, to commit or to roll back in the first attempt. -/
def flaky (begin commit rollback : Bool) : Backend Nat where
  begins _ _ _ tried := (if begin ∧ tried = 0 then some conflict else none, tried + 1)
  commits _ tried := (if commit ∧ tried = 1 then some conflict else none, tried)
  rollsBack _ tried := (if rollback ∧ tried = 1 then some (.plain (ascii "lost")) else none, tried)
  random _ tried := (0, tried)
  ended _ _ tried := (false, tried)

def quiet : Body Nat := fun _ w => (.returned none, w)

def conflicting : Body Nat := fun _ w => (.returned (if w.outside = 1 then some conflict else none), w)

theorem quiet_frames : Frames quiet := fun _ _ => ⟨[], by simp [quiet], Nat.le_refl _, by simp⟩

def retries (maxRetries : Int) : Options := ⟨0, false, some 0, maxRetries⟩

def nesting : Body Nat := (execute (flaky false true false) (retries 5) none · quiet)

def run (backend : Backend Nat) (maxRetries : Int) (fn : Body Nat) : Result × World Nat :=
  execute backend (retries maxRetries) none ⟨none, []⟩ fn ⟨0, 0, []⟩

theorem nesting_transaction (backend : Backend Nat) (opts : Options) (w : World Nat) :
    executeTransaction backend opts ⟨none, []⟩ 0 nesting w = executeTransaction backend opts ⟨none, []⟩ 0 quiet w := by
  simp only [executeTransaction, show (Ctx.mk none []).txFor 0 = none from rfl]
  split
  · rfl
  · rename_i tx _ _
    have inside : ((Ctx.mk none []).withTx 0 tx).txFor 0 = some tx := rfl
    simp only [nesting, execute, retries, Option.some_or, executeWithRetry_nested inside]

/-- A run whose first attempt is repeated. -/
theorem run_twice (begin commit rollback : Bool) (fn : Body Nat) (w : World Nat) (positive : 0 < maxRetries)
    (first : executeTransaction (flaky begin commit rollback) (retries maxRetries) ⟨none, []⟩ 0 fn ⟨0, 0, []⟩ =
      (.returned (some err), w)) (conflict : isRetryable err = true)
    (second : executeTransaction (flaky begin commit rollback) (retries maxRetries) ⟨none, []⟩ 0 fn w =
      (.returned none, last)) : run (flaky begin commit rollback) maxRetries fn = (.returned none, last) := by
  have once : executeWithRetry (flaky begin commit rollback) (retries maxRetries) ⟨none, []⟩ 0 fn 1 w =
      (.returned none, last) := by
    rw [executeWithRetry, second]
  have allowed : ¬ ((0 : Nat) ≥ (retries maxRetries).maxRetries ∨ ¬ isRetryable err) := by
    simp [retries, conflict, positive]
  simp only [run, execute, Option.some_or, show (retries maxRetries).connection = some 0 from rfl]
  rw [executeWithRetry, first]
  simp only [if_neg allowed]
  exact once

end Sample

theorem sample_conflict_is_retried : ∃ attempts : List Attempt,
    (Sample.run (Sample.flaky false true false) 3 Sample.nesting).2.log = attempts.flatMap (Attempt.events 0) ∧
      attempts.length ≤ 4 ∧ ∃ earlier last, attempts = earlier ++ [last] ∧ last.committed = true ∧
        ∀ attempt ∈ earlier, attempt.Undone := by
  obtain ⟨⟨attempts, log, few, _, succeeded, _⟩, _⟩ := execute_is_all_or_nothing (Sample.flaky false true false)
    (Sample.retries 3) none ⟨none, []⟩ Sample.nesting ⟨0, 0, []⟩ rfl rfl Sample.quiet_frames.execute (by simp)
  refine ⟨attempts, log, by simpa [Sample.retries] using few, succeeded ?_⟩
  exact congrArg Prod.fst (Sample.run_twice false true false Sample.nesting
    ⟨1, 1, [.began 0 0, .called 0, .committed 0 false]⟩ (by decide) ((Sample.nesting_transaction _ _ _).trans rfl)
    (show isRetryable (errCommit Sample.conflict) = true by decide) ((Sample.nesting_transaction _ _ _).trans rfl))

/-- A negative `MaxRetries` still lets the function run once, and an attempt is
repeated that did not begin, that failed to commit or that failed to roll back. -/
theorem attempts_without_rollback_are_repeated :
    (Sample.run (Sample.flaky false true false) (-1) Sample.quiet).2.log =
      [.began 0 0, .called 0, .committed 0 false] ∧ ¬ (1 : Int) ≤ 1 + (Sample.retries (-1)).maxRetries ∧
    Sample.run (Sample.flaky true false false) 1 Sample.quiet =
      (.returned none, ⟨2, 1, [.began 0 0, .called 0, .committed 0 true]⟩) ∧
    Sample.run (Sample.flaky false true false) 1 Sample.quiet =
      (.returned none, ⟨2, 2, [.began 0 0, .called 0, .committed 0 false, .began 0 1, .called 1, .committed 1 true]⟩) ∧
    Sample.run (Sample.flaky false false true) 1 Sample.conflicting =
      (.returned none,
        ⟨2, 2, [.began 0 0, .called 0, .rolledBack 0 false, .began 0 1, .called 1, .committed 1 true]⟩) := by
  refine ⟨?_, by decide, ?_, ?_, ?_⟩
  · simp only [Sample.run, execute, Sample.retries, Option.some_or]
    rw [executeWithRetry]
    rfl
  · exact Sample.run_twice _ _ _ _ ⟨1, 0, []⟩ (by decide) rfl (by decide) rfl
  · exact Sample.run_twice _ _ _ _ ⟨1, 1, [.began 0 0, .called 0, .committed 0 false]⟩ (by decide) rfl (by decide) rfl
  · exact Sample.run_twice _ _ _ _ ⟨1, 1, [.began 0 0, .called 0, .rolledBack 0 false]⟩ (by decide) rfl (by decide) rfl

end Gofi.Sqln.Transaction
