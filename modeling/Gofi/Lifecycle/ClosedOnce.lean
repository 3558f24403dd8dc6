import Gofi.Lifecycle.Runners

/-! Every closer of a service runs once, after the runners have returned, and no
runner starts after that. -/

namespace Gofi.Lifecycle

open Gofi.Concurrent

namespace Service

/-- No runner will be started: the service was shut down before `ListenAndServe` got
past its critical section, or the latter has stopped its runners. -/
def Past (m : Service) : Prop := (m.stop = false ∧ m.closed = true) ∨ m.listening.ending = true

variable {m : Service}

theorem Past.step (past : Past m) (stepped : m.step move = some after) : Past after := by
  rcases past with ⟨absent, shut⟩ | ending
  · left
    cases move <;> simp only [Service.step] at stepped <;> (repeat' split at stepped) <;> cases stepped <;>
      first | exact ⟨absent, shut⟩ | exact ⟨absent, rfl⟩
  · right
    cases move <;> simp only [Service.step] at stepped <;> (repeat' split at stepped) <;> cases stepped <;>
      first | exact ending | rfl | simp_all [Listening.ending]

theorem Past.of_closing (gate : Gate m) (found : m.closings owner = some closing) : Past m := by
  cases owner with
  | none =>
    right
    simp only [closings, Listening.closing?] at found
    split at found <;> simp_all [Listening.ending]
  | some call =>
    left
    simp only [closings, ShutdownCall.closing?] at found
    split at found
    · rename_i stage
      exact ⟨gate.direct call _ stage, gate.shut stage rfl⟩
    · cases found

private theorem starts_step (stepped : m.step move = some after) :
    after.starts = m.starts ∨ ∃ runner, m.runners runner = .spawned := by
  cases move with
  | begins runner =>
    simp only [step] at stepped
    split at stepped <;> cases stepped
    rename_i stage
    exact .inr ⟨runner, stage⟩
  | _ =>
    simp only [step] at stepped
    (repeat' split at stepped) <;> cases stepped <;> exact .inl rfl

private theorem returned_step (stepped : m.step move = some after) (found : after.calls call = .returned true) :
    m.calls call = .returned true ∨ (∃ failed, m.listening = .returned failed) ∨
      ∃ closing, m.closings (some call) = some closing ∧ closing.working = false := by
  cases move <;> simp only [step] at stepped
  case shutsDown other | cancels other | abandons other =>
    split at stepped <;> cases stepped
    rcases update_eq found with ⟨_, same⟩ | ⟨_, before⟩
    · cases same
    · exact .inl before
  case enters other =>
    (repeat' split at stepped) <;> cases stepped
    all_goals
      rcases update_eq found with ⟨_, same⟩ | ⟨_, before⟩
      · cases same
      · exact .inl before
  case asks other answer =>
    split at stepped
    · split at stepped <;> cases stepped
      · rcases update_eq found with ⟨_, same⟩ | ⟨_, before⟩
        · split at same <;> cases same
        · exact .inl before
      · rcases update_eq found with ⟨_, same⟩ | ⟨_, before⟩
        · cases same
        · exact .inl before
    · cases stepped
  case awaits other =>
    split at stepped <;> cases stepped
    rename_i spent
    exact .inr (.inl ⟨_, spent⟩)
  case releases other answer =>
    split at stepped
    · rename_i stage
      cases stepped
      rcases update_eq found with ⟨same, _⟩ | ⟨_, before⟩
      · subst same
        exact .inr (.inr ⟨_, congrArg ShutdownCall.closing? stage, rfl⟩)
      · exact .inl before
    · cases stepped
      rcases update_eq found with ⟨_, same⟩ | ⟨_, before⟩
      · cases same
      · exact .inl before
    · cases stepped
      rcases update_eq found with ⟨_, same⟩ | ⟨_, before⟩
      · cases same
      · exact .inl before
    · cases stepped
  all_goals
    (repeat' split at stepped) <;> cases stepped <;> exact .inl found

private theorem listened_step (orderly : Orderly m move) (stepped : m.step move = some after)
    (found : after.listening = .returned failed) :
    m.listening = .returned failed ∨ ∃ closing, m.closings none = some closing ∧ closing.working = false := by
  cases move with
  | closes answer =>
    simp only [step] at stepped
    split at stepped
    · rename_i stage
      exact .inr ⟨_, congrArg Listening.closing? stage, rfl⟩
    · rename_i stage
      exact .inr ⟨_, congrArg Listening.closing? stage, rfl⟩
    · cases stepped
      cases found
    · cases stepped
  | stops answer =>
    simp only [step, if_neg (show answer ≠ .panics from orderly)] at stepped
    (repeat' split at stepped) <;> cases stepped <;> cases found
  | _ =>
    simp only [step] at stepped
    (repeat' split at stepped) <;> cases stepped <;> first | exact .inl found | cases found

structure Sound (m : Service) : Prop where
  gate : Gate m
  crew : Crew m
  books : Books m.closerCount m.ledger m.closings
  returned : ∀ call, m.calls call = .returned true → m.ledger.Released m.closerCount
  listened : ∀ failed, m.listening = .returned failed → m.ledger.Released m.closerCount
  begun : m.ledger.began ≠ [] → m.Past

theorem Sound.built (runners closers : Nat) : Sound (Service.built runners closers) where
  gate := ⟨rfl, by simp [Service.built, ShutdownCall.entered], by simp [Service.built], by simp [Service.built]⟩
  crew := ⟨fun _ _ => rfl, fun _ => rfl⟩
  books := by
    have none : (Service.built runners closers).closings = fun _ => none := by
      funext owner
      cases owner <;> rfl
    rw [none]
    exact .start closers
  returned call found := by cases found
  listened failed found := by cases found
  begun some := absurd rfl some

theorem Sound.calm (sound : Sound m) (orderly : Orderly m move)
    (alone : (owner = none ∧ m.listening.locked = true ∧ m.listening.closing? = none) ∨
      ∃ call, move = .enters call ∧ m.stop = false)
    (other : Option Nat) (closing : Closing) (found : m.closings other = some closing) : closing.working = false := by
  have direct (call : Nat) (stage : (m.calls call).closing? = some closing) : m.calls call = .closing closing := by
    simp only [ShutdownCall.closing?] at stage
    split at stage <;> cases stage
    assumption
  rcases alone with ⟨_, locked, before⟩ | ⟨call, rfl, absent⟩
  · cases other with
    | none => cases before.symm.trans found
    | some call =>
      have stop := sound.gate.direct call closing (direct call found)
      rw [sound.gate.locked, locked] at stop
      cases stop
  · cases other with
    | none =>
      rw [sound.gate.locked] at absent
      simp only [closings, Listening.closing?] at found
      split at found
      · simp_all [Listening.locked]
      · cases found
    | some other => exact orderly absent other closing (direct other found)

theorem Sound.effects (sound : Sound m) (orderly : Orderly m move) (stepped : m.step move = some after) :
    Books m.closerCount after.ledger after.closings ∧
      (m.ledger.Released m.closerCount → after.ledger = m.ledger) ∧
      (after.ledger.began ≠ [] → m.ledger.began ≠ [] ∨ m.Past) := by
  rcases effect stepped with ⟨ledger, closings⟩ | ⟨owner, ledger, closings, alone⟩ |
      ⟨owner, closing, answer, found, ledger, closings, how⟩ | ⟨owner, closing, found, spent, ledger, closings⟩
  · rw [ledger, closings]
    exact ⟨sound.books, fun _ => rfl, .inl⟩
  · rw [ledger, closings]
    exact ⟨sound.books.opens (sound.calm orderly alone) owner, fun _ => rfl, .inl⟩
  · have calm : answer ≠ .panics := by rcases how with rfl | ⟨call, rfl⟩ <;> exact orderly
    rw [ledger, closings]
    exact ⟨sound.books.steps found answer calm, fun released =>
      (sound.books.fits owner closing found).kept released answer,
      fun _ => .inr (.of_closing sound.gate found)⟩
  · rw [ledger, closings]
    exact ⟨sound.books.leaves found spent, fun _ => rfl, .inl⟩

theorem Sound.step (sound : Sound m) (orderly : Orderly m move) (stepped : m.step move = some after) :
    Sound after := by
  obtain ⟨books, kept, begins⟩ := sound.effects orderly stepped
  have still (released : m.ledger.Released m.closerCount) : after.ledger.Released after.closerCount := by
    rwa [kept released, (counts_step stepped).2]
  refine ⟨sound.gate.step stepped, sound.crew.step orderly stepped, (counts_step stepped).2 ▸ books,
    fun call found => ?_, fun failed found => ?_, fun some => ?_⟩
  · rcases returned_step stepped found with before | ⟨failed, spent⟩ | ⟨closing, closes, spent⟩
    · exact still (sound.returned call before)
    · exact still (sound.listened failed spent)
    · exact still ((sound.books.fits _ closing closes).released spent)
  · rcases listened_step orderly stepped found with before | ⟨closing, closes, spent⟩
    · exact still (sound.listened failed before)
    · exact still ((sound.books.fits _ closing closes).released spent)
  · rcases begins some with before | past
    · exact (sound.begun before).step stepped
    · exact past.step stepped

theorem Sound.run (sound : Sound m) (orderly : Along Service.step Orderly m moves)
    (run : feed Service.step m moves = some last) : Sound last :=
  Along.invariant Sound (fun _ _ _ sound orderly stepped => sound.step orderly stepped) sound orderly run

theorem Sound.idle (sound : Sound m) (past : Past m) : (∀ runner, m.runners runner ≠ .spawned) ∧
      (m.expired = true ∨ ∀ runner, m.runners runner = .unstarted ∨ m.runners runner = .received) := by
  obtain ⟨outside, known⟩ := sound.crew
  rcases past with ⟨absent, _⟩ | ending
  · have unlocked : m.listening.locked = false := sound.gate.locked.symm.trans absent
    have unstarted : ∀ runner, m.runners runner = .unstarted := by
      cases listening : m.listening <;> simp_all [Listening.locked]
    exact ⟨by simp [unstarted], .inr fun runner => .inl (unstarted runner)⟩
  · have stopped : (m.expired = true ∨ ∀ runner < m.runnerCount, m.runners runner = .received) ∧
        ∀ runner, m.runners runner ≠ .spawned := by
      cases listening : m.listening <;> simp_all [Listening.ending]
    refine ⟨stopped.2, stopped.1.imp_right fun all runner => ?_⟩
    by_cases inside : runner < m.runnerCount
    · exact .inr (all runner inside)
    · exact .inl (outside runner (by lia))

def Quiet (m : Service) : Prop :=
  ∀ onward last, Along step Orderly m onward → feed step m onward = some last → last.starts = m.starts

theorem Sound.quiet (sound : Sound m) (past : Past m) : Quiet m := by
  intro onward last orderly run
  have kept := Along.invariant (fun state => Sound state ∧ Past state ∧ state.starts = m.starts)
    (fun state move next kept orderly stepped => by
      obtain ⟨sound, past, same⟩ := kept
      refine ⟨sound.step orderly stepped, past.step stepped, ?_⟩
      rcases starts_step stepped with still | ⟨runner, spawned⟩
      · exact still.trans same
      · exact absurd spawned ((sound.idle past).1 runner))
    ⟨sound, past, rfl⟩ orderly run
  exact kept.2.2

/-- The closers that began are the last ones registered, called once each and one at a
time, after the runners; a `Shutdown` that returned nil has seen all of them end. -/
structure ClosedOnce (m : Service) : Prop where
  once : m.ledger.began.Nodup
  reverse : m.ledger.began <+: (List.range m.closerCount).reverse
  turns : m.ledger.ended <+: m.ledger.began ∧ m.ledger.began.length ≤ m.ledger.ended.length + 1
  stopped : m.ledger.began ≠ [] → Quiet m ∧
    (m.expired = true ∨ ∀ runner, m.runners runner = .unstarted ∨ m.runners runner = .received)
  returned : ∀ call, m.calls call = .returned true → Quiet m ∧ m.ledger.ended = (List.range m.closerCount).reverse

theorem Sound.closedOnce (sound : Sound m) : ClosedOnce m := by
  obtain ⟨reverse, ended, turns⟩ := sound.books.turns
  refine ⟨?_, reverse, ⟨ended, turns⟩, fun some => ?_, fun call found => ?_⟩
  · exact reverse.sublist.nodup (List.nodup_reverse.mpr List.nodup_range)
  · exact ⟨sound.quiet (sound.begun some), (sound.idle (sound.begun some)).2⟩
  · have past : m.Past := by
      rcases sound.gate.returned call found with absent | ⟨failed, spent⟩
      · exact .inl ⟨absent, sound.gate.shut found rfl⟩
      · exact .inr (by rw [spent]; rfl)
    exact ⟨sound.quiet past, by rw [sound.returned call found]⟩

/-- In every run whose steps are orderly, the closers run once each and one at a time,
in reverse order, when the runners have returned or the stop timeout has passed; a
`Shutdown` returns nil after all of them, and no runner starts after that. -/
theorem closers_run_once (runners closers : Nat) (moves : List Move)
    (orderly : Along step Orderly (built runners closers) moves)
    (run : feed step (built runners closers) moves = some m) : ClosedOnce m :=
  ((Sound.built runners closers).run orderly run).closedOnce

namespace Sample

def shutDown : List Move := [.listens, .locks, .spawns, .spawns, .begins 0, .shutsDown 7, .enters 7]

def served : List Move :=
  [.cancels 7, .asks 7 .ok, .asks 7 .ok, .ends 0 false, .observes, .stops .ok, .stops .ok, .receives 0, .collected] ++
  List.replicate 9 (.closes .fails) ++ [.awaits 7]

theorem served_orderly : Along step Orderly (built 1 2) (shutDown ++ served) := by
  iterate 7
    rintro next ⟨⟩
    refine ⟨(by first | trivial | exact fun absent => by cases absent), ?_⟩
  exact Along.of_all (by simp [served, List.replicate, Orderly])

end Sample

theorem served_run_closes_once : ∃ m, feed step (built 1 2) (Sample.shutDown ++ Sample.served) = some m ∧
    m.calls 7 = .returned true ∧ ClosedOnce m := by
  refine ⟨_, rfl, ?_, closers_run_once 1 2 _ Sample.served_orderly ?_⟩
  all_goals rfl

/-- Two calls of `Shutdown` find the service not running: both run the closer, or one of
them returns nil while the other is in it. And a runner whose goroutine is not
scheduled before the stop timeout starts after a `Shutdown` has returned nil. -/
theorem overlapping_shutdowns_close_twice :
    (∃ moves m, feed step (built 0 1) moves = some m ∧ m.ledger.began = [0, 0] ∧
      m.closings (some 0) = some (.inside 0 [] false) ∧ m.closings (some 1) = some (.inside 0 [] false)) ∧
    (∃ moves m, feed step (built 0 1) moves = some m ∧ m.calls 1 = .returned true ∧ m.ledger.ended = []) ∧
    ∃ moves m last, feed step (built 1 0) moves = some m ∧ m.calls 0 = .returned true ∧
      feed step m [.begins 0] = some last ∧ m.starts = [] ∧ last.starts = [0] := by
  refine ⟨⟨[.shutsDown 0, .shutsDown 1, .enters 0, .enters 1, .releases 0 .ok, .releases 1 .ok, .releases 0 .ok,
    .releases 1 .ok, .releases 0 .ok, .releases 1 .ok], _, rfl, rfl, rfl, rfl⟩, ?_, ?_⟩
  · exact ⟨[.shutsDown 0, .shutsDown 1, .enters 0, .enters 1, .releases 0 .ok, .releases 0 .ok, .releases 0 .ok,
      .releases 1 .ok, .releases 1 .ok, .releases 1 .ok, .releases 1 .ok, .releases 1 .ok], _, rfl, rfl, rfl⟩
  · exact ⟨[.listens, .locks, .spawns, .spawns, .shutsDown 0, .enters 0, .cancels 0, .asks 0 .ok, .asks 0 .ok,
      .observes,
      .stops .ok, .stops .ok, .expires, .timesOut, .closes .ok, .closes .ok, .closes .ok, .closes .ok, .closes .ok,
      .awaits 0], _, _, rfl, rfl, rfl, rfl, rfl⟩

end Service

end Gofi.Lifecycle
