import Gofi.Session.LockRuns

/-! While an entry is alive, and nobody forces or deletes it, every call of `CreateOrGet`
that gets an answer gets this entry. -/

namespace Gofi.Session

open Gofi.Go Gofi.Concurrent

def Call.answer (call : Call) : Option Entry :=
  match call.stage with
  | .leaving _ result | .left result => result
  | _ => none

namespace System

variable {cfg : Config}

variable {m : System}

theorem Alive.back {next : System} (alive : next.Alive key) (store : next.store key = m.store key)
    (clock : m.clock ≤ next.clock) : m.Alive key := by
  obtain ⟨entry, expires, stored, lives, current⟩ := alive
  refine ⟨entry, expires, store ▸ stored, ?_, ?_⟩
  · cases expires with
    | none => rfl
    | some limit =>
      simp only [Option.all_some, decide_eq_true_eq] at lives ⊢
      exact Int.lt_of_le_of_lt clock lives
  · simp only [isExpired, decide_eq_false_iff_not, Int.not_lt] at current ⊢
    exact Int.le_trans clock current

/-- A call of `CreateOrGet` saves an entry only where none is alive. -/
def Absent (m : System) : Prop :=
  ∀ key token acquired entry, ⟨.createOrGet key, .saving token acquired entry⟩ ∈ m.calls → ¬ m.Alive key

theorem not_alive_write (before : ¬ m.Alive key) (dead : ∀ entry ∈ item, ∃ token, entry.value = .token token) :
    ¬ (m.write other item).Alive key := by
  intro alive
  by_cases same : key = other
  · obtain ⟨entry, expires, stored, -⟩ := alive
    rw [show (m.write other item).store key = item from if_pos same] at stored
    obtain ⟨token, equal⟩ := dead _ stored
    cases equal
  · exact before (alive.back (if_neg same) (Int.le_refl _))

private theorem not_alive_released (before : ¬ m.Alive key) : ¬ (m.releaseLock cfg job token).Alive key := by
  unfold releaseLock
  split
  · exact not_alive_write before fun _ none => nomatch none
  · exact before

theorem Guarded.saves_apart (sound : Guarded cfg m)
    (placed : m.calls[place]? = some ⟨job, .saving token acquired entry⟩) (under : job.entryKey = some written)
    (other : ⟨.createOrGet key, .saving taken since made⟩ ∈ m.calls.eraseIdx place) : key ≠ written := by
  rintro rfl
  obtain ⟨there, apart, second⟩ := List.mem_eraseIdx_iff_getElem?.mp other
  have same : cfg.lockOf job = cfg.lockOf (.createOrGet key) := by
    cases job <;> cases under <;> rfl
  exact apart (sound.one_section placed second rfl rfl same).symm

theorem Absent.step (absent : Absent m) (sound : Guarded cfg m) (does : Does cfg m move next) : Absent next := by
  have old : ∀ {place key token acquired entry},
      ⟨.createOrGet key, .saving token acquired entry⟩ ∈ m.calls.eraseIdx place → ¬ m.Alive key := fun member =>
    absent _ _ _ _ (List.mem_of_mem_eraseIdx member)
  intro key token acquired entry member
  cases does with
  | starts job => exact absent key token acquired entry (List.mem_of_ne_of_mem (by simp) member)
  | acquires placed free =>
    have before := old (List.mem_of_ne_of_mem (by simp) member)
    exact not_alive_write before fun _ own => ⟨m.fresh, by cases own; rfl⟩
  | loses placed free => exact not_alive_write (old member) fun _ own => ⟨m.fresh, by cases own; rfl⟩
  | waits => exact absent key token acquired entry member
  | goesOn ids placed follows =>
    rcases List.mem_cons.mp member with same | member
    · cases same
      cases follows with
      | makes none => exact none key rfl
    · exact old member
  | saves placed under =>
    have other := List.mem_of_ne_of_mem (by simp) member
    have apart := sound.saves_apart placed under other
    exact fun alive => old other (alive.back (if_neg apart) (Int.le_refl _))
  | releases placed =>
    rw [releaseLock_calls] at member
    exact not_alive_released (absent key token acquired entry member)
  | gone placed | returns placed => exact old member
  | deletes other => exact not_alive_write (absent key token acquired entry member) fun _ none => nomatch none
  | passes time =>
    intro alive
    exact absent key token acquired entry member
      (alive.back rfl (Int.le_add_of_nonneg_right (Int.natCast_nonneg time)))

/-- The step is no write of `Force` or `Delete` under the key. -/
def Undisturbed (m : System) (key : Str) : Move → Prop
  | .saves place | .saveLost place => ∀ call ∈ m.calls[place]?, call.job ≠ .force key
  | .deletes other => other ≠ key
  | _ => True

instance (m : System) (key : Str) : (move : Move) → Decidable (Undisturbed m key move)
  | .saves place | .saveLost place => inferInstanceAs (Decidable (∀ call ∈ m.calls[place]?, call.job ≠ .force key))
  | .deletes other => inferInstanceAs (Decidable (other ≠ key))
  | .starts _ | .acquires _ | .loses _ | .gives _ | .reads _ | .readFails _ | .saveFails _ | .ends _ | .releases _
  | .leaves _ | .returns _ | .passes _ => .isTrue trivial

/-- An orderly step within the lifetime of an entry, between two calls of `Force` or `Delete`. -/
def Lifetime (cfg : Config) (key : Str) (entry : Entry) (expires : Option Time) (m : System) (move : Move) : Prop :=
  Orderly cfg m move ∧ Undisturbed m key move ∧ expires.all (m.clock < ·) = true ∧ m.isExpired entry = false

instance (m : System) (move : Move) : Decidable (Lifetime cfg key entry expires m move) :=
  inferInstanceAs (Decidable (_ ∧ _ ∧ _ ∧ _))

structure Agreed (key : Str) (entry : Entry) (expires : Option Time) (base : List (Str × Entry)) (m : System) :
    Prop where
  stored : m.store key = some ⟨.entry entry, expires⟩
  answers : ∀ call ∈ m.calls, call.job = .createOrGet key → ∀ answer ∈ call.answer, answer = entry
  returned : ∃ added, m.returns = added ++ base ∧ ∀ answer, (key, answer) ∈ added → answer = entry

section Agreement

variable {m : System} {key : Str} {entry : Entry} {expires : Option Time}

theorem Follows.gives {answer : Entry} (follows : Follows cfg m (.createOrGet key) stage later)
    (stored : m.store key = some ⟨.entry entry, expires⟩)
    (got : (⟨.createOrGet key, later⟩ : Call).answer = some answer) :
    answer = entry ∨ (⟨.createOrGet key, stage⟩ : Call).answer = some answer := by
  cases follows with
  | found gets found =>
    cases gets
    cases got
    obtain ⟨other, here, -⟩ := store_of_getEntry found
    cases stored.symm.trans here
    exact .inl rfl
  | leaves => exact .inr got
  | ends | fails | makes => cases got

private theorem store_released (stored : m.store key = some ⟨.entry entry, expires⟩) :
    (m.releaseLock cfg job token).store key = some ⟨.entry entry, expires⟩ := by
  unfold releaseLock
  split
  · rename_i own
    refine (if_neg ?_).trans stored
    rintro rfl
    obtain ⟨item, found, value⟩ := Option.map_eq_some_iff.mp own
    cases stored.symm.trans (store_of_find found).1
    cases value
  · exact stored

private theorem saved_elsewhere {place : Nat} (absent : Absent m) (alive : m.Alive key)
    (calm : ∀ call ∈ m.calls[place]?, call.job ≠ .force key)
    (placed : m.calls[place]? = some ⟨job, .saving token acquired made⟩) (under : job.entryKey = some written) :
    key ≠ written := by
  rintro rfl
  cases job with
  | user => cases under
  | createOrGet other =>
    cases under
    exact absent _ _ _ _ (List.mem_of_getElem? placed) alive
  | force other =>
    cases under
    exact calm _ placed rfl

theorem Agreed.step (agreed : Agreed key entry expires base m) (absent : Absent m)
    (lifetime : Lifetime cfg key entry expires m move) (does : Does cfg m move next) :
    Agreed key entry expires base next := by
  obtain ⟨orderly, calm, lives, current⟩ := lifetime
  have alive : m.Alive key := ⟨entry, expires, agreed.stored, lives, current⟩
  have taken : m.find key = some ⟨.entry entry, expires⟩ := find_of_alive agreed.stored lives
  have old : ∀ {place call}, call ∈ m.calls.eraseIdx place → call.job = .createOrGet key →
      ∀ answer ∈ call.answer, answer = entry := fun member => agreed.answers _ (List.mem_of_mem_eraseIdx member)
  have kept : ∀ {job : Job}, m.find (cfg.lockOf job) = none →
      (m.takeLock cfg job).store key = some ⟨.entry entry, expires⟩ := by
    intro job free
    refine (if_neg ?_).trans agreed.stored
    rintro rfl
    cases taken.symm.trans free
  cases does with
  | starts job =>
    refine ⟨agreed.stored, ?_, agreed.returned⟩
    intro call member
    rcases List.mem_cons.mp member with rfl | member
    · exact fun _ _ none => nomatch none
    · exact agreed.answers call member
  | acquires placed free =>
    refine ⟨kept free, ?_, agreed.returned⟩
    intro call member
    rcases List.mem_cons.mp member with rfl | member
    · exact fun _ _ none => nomatch none
    · exact old member
  | loses placed free => exact ⟨kept free, fun call member => old member, agreed.returned⟩
  | waits => exact agreed
  | goesOn ids placed follows =>
    refine ⟨agreed.stored, ?_, agreed.returned⟩
    intro call member
    rcases List.mem_cons.mp member with rfl | member
    · rintro rfl answer got
      rcases follows.gives agreed.stored got with same | before
      · exact same
      · exact agreed.answers _ (List.mem_of_getElem? placed) rfl answer before
    · exact old member
  | saves placed under result own which =>
    have apart : key ≠ _ := saved_elsewhere absent alive (by rcases which with rfl | rfl <;> exact calm) placed under
    refine ⟨(if_neg apart).trans agreed.stored, ?_, agreed.returned⟩
    intro call member
    rcases List.mem_cons.mp member with rfl | member
    · rintro rfl
      cases under
      exact absurd rfl apart
    · exact old member
  | releases placed =>
    refine ⟨store_released agreed.stored, ?_, by simpa using agreed.returned⟩
    rw [releaseLock_calls]
    exact agreed.answers
  | gone placed => exact ⟨agreed.stored, fun call member => old member, agreed.returned⟩
  | @returns place own answer placed =>
    refine ⟨agreed.stored, fun call member => old member, ?_⟩
    obtain ⟨added, log, same⟩ := agreed.returned
    refine ⟨(own, answer) :: added, by simp [log], ?_⟩
    intro other member
    rcases List.mem_cons.mp member with equal | member
    · cases equal
      exact agreed.answers _ (List.mem_of_getElem? placed) rfl answer rfl
    · exact same other member
  | deletes other => exact ⟨(if_neg fun same => calm same.symm).trans agreed.stored, agreed.answers, agreed.returned⟩
  | passes time => exact ⟨agreed.stored, agreed.answers, agreed.returned⟩

end Agreement

/-- A release removes no lock but that of its call, whose token no other call has. Where
no entry has the key of a lock and every critical section ends before its lock expires,
critical sections under one lock do not overlap, and calls of `CreateOrGet` that get
their answers while one entry is alive, and nobody forces or deletes it, return it. -/
theorem session_locks_exclude (cfg : Config) :
    (∀ moves m place job token result next, feed (step cfg) .new moves = some m →
      m.calls[place]? = some ⟨job, .leaving token result⟩ → m.step cfg (.releases place) = some next →
      (∀ key, (m.find key).map Item.value ≠ some (.token token) → next.find key = m.find key) ∧
      ∀ other ∈ m.calls.eraseIdx place, token ∉ other.tokens) ∧
    ∀ moves m, Along (step cfg) (Orderly cfg) .new moves → feed (step cfg) .new moves = some m →
      (∀ (i j : Nat) (call other : Call), m.calls[i]? = some call → m.calls[j]? = some other → call.within.isSome →
        other.within.isSome → cfg.lockOf call.job = cfg.lockOf other.job → i = j) ∧
      ∀ key entry expires, m.store key = some ⟨.entry entry, expires⟩ →
        (∀ call ∈ m.calls, call.job = .createOrGet key → ∀ answer ∈ call.answer, answer = entry) →
        ∀ later last, Along (step cfg) (Lifetime cfg key entry expires) m later → feed (step cfg) m later = some last →
          ∃ added, last.returns = added ++ m.returns ∧ ∀ answer, (key, answer) ∈ added → answer = entry := by
  refine ⟨?_, ?_⟩
  · intro moves m place job token result next run placed released
    have tokens : Tokens m :=
      feed_invariant Tokens (fun _ _ _ sound stepped => sound.step (does_of_step stepped)) .new run
    simp only [step, placed, Option.some.injEq] at released
    subst released
    refine ⟨fun key other => releaseLock_keeps other, ?_⟩
    intro other member shared
    obtain ⟨there, apart, second⟩ := List.mem_eraseIdx_iff_getElem?.mp member
    exact apart (tokens.same_place placed second (List.mem_singleton_self token) shared).symm
  · intro moves m orderly run
    obtain ⟨guarded, absent⟩ : Guarded cfg m ∧ Absent m := by
      refine Along.invariant (fun m => Guarded cfg m ∧ Absent m) ?_
        ⟨.new, fun _ _ _ _ member => absurd member List.not_mem_nil⟩ orderly run
      rintro state move next ⟨guarded, absent⟩ allowed stepped
      have does := does_of_step stepped
      exact ⟨guarded.step allowed does, absent.step guarded does⟩
    refine ⟨fun i j call other first second => guarded.one_section first second, ?_⟩
    intro key entry expires stored answers later last lifetime run
    have agreed : Agreed key entry expires m.returns last := by
      refine (Along.invariant (fun n => Guarded cfg n ∧ Absent n ∧ Agreed key entry expires m.returns n) ?_
        ⟨guarded, absent, stored, answers, [], rfl, fun _ member => absurd member List.not_mem_nil⟩ lifetime run).2.2
      rintro state move next ⟨guarded, absent, agreed⟩ allowed stepped
      have does := does_of_step stepped
      exact ⟨guarded.step allowed.1 does, absent.step guarded does, agreed.step absent allowed does⟩
    exact agreed.returned

def minutes : Config := { keyPrefix := ascii "app", ttl := Time.minute, lockTTL := 0, driverTTL := 0 }

theorem second_call_returns_saved : ∃ m last,
    feed (step minutes) .new [.starts (.createOrGet (ascii "a")), .acquires 0, .reads 0, .saves 0] = some m ∧
    feed (step minutes) m [.starts (.createOrGet (ascii "a")), .acquires 0, .releases 1, .acquires 0, .reads 0,
      .releases 0, .leaves 0, .returns 0] = some last ∧ last.returns.length = 1 ∧
    ∃ added, last.returns = added ++ m.returns ∧ ∀ answer, (ascii "a", answer) ∈ added →
      answer = ⟨0, Time.minute⟩ := by
  refine ⟨_, _, rfl, rfl, by decide, ?_⟩
  refine ((session_locks_exclude minutes).2 [.starts (.createOrGet (ascii "a")), .acquires 0, .reads 0, .saves 0] _
    (by decide) rfl).2 (ascii "a") ⟨0, Time.minute⟩ (some Time.minute) (by decide) (by decide)
    [.starts (.createOrGet (ascii "a")), .acquires 0, .releases 1, .acquires 0, .reads 0, .releases 0, .leaves 0,
      .returns 0] _ (by decide) rfl

def brief : Config := { minutes with ttl := Time.millisecond }

/-- `Force` under the key of a lock replaces the lock, and when its entry has expired
another call enters the critical section that the first is still in. A call of
`CreateOrGet` that has its answer and returns after a `Force` returns the entry from before. -/
theorem forced_lock_lets_in_another :
    (∃ m, feed (step brief) .new [.starts (.user (ascii "a")), .acquires 0, .starts (.force (ascii "lock:a")),
        .acquires 0, .reads 0, .saves 0, .passes 1000000, .starts (.user (ascii "a")), .acquires 0] = some m ∧
      (∀ call ∈ m.calls, ∀ held ∈ call.within, m.clock < held.2 + brief.lockFor) ∧
      m.calls.map (fun call => (call.job, call.within.isSome)) =
        [(.user (ascii "a"), true), (.force (ascii "lock:a"), false), (.user (ascii "a"), true)]) ∧
    ∃ m last, feed (step minutes) .new [.starts (.createOrGet (ascii "a")), .acquires 0, .reads 0, .saves 0,
        .releases 0, .leaves 0, .starts (.force (ascii "a")), .acquires 0, .reads 0, .saves 0, .releases 0,
        .leaves 0, .returns 0] = some m ∧
      feed (step minutes) m [.starts (.createOrGet (ascii "a")), .acquires 0, .reads 0, .releases 0, .leaves 0,
        .returns 0, .returns 0] = some last ∧
      last.returns = [(ascii "a", ⟨0, Time.minute⟩), (ascii "a", ⟨1, Time.minute⟩)] :=
  ⟨⟨_, rfl, by decide, by decide⟩, _, _, rfl, rfl, by decide⟩

end System

end Gofi.Session
