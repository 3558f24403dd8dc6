import Gofi.Cronjob.PoolRuns

/-! How the runs of a worker pool end: as long as a call has not returned there is a
step to take, and each step brings the calls nearer to their end. -/

namespace Gofi.Cronjob.WorkerPool

open Gofi.Concurrent

namespace Pool

def Move.own : Move → Bool
  | enqueues _ | waits | closes => false
  | _ => true

def Goes (m : Pool) : Prop := ∃ move : Move, move.own = true ∧ Orderly m move ∧ (m.step move).isSome = true

end Pool

def Worker.atRest (worker : Worker) : Prop := worker = .receiving ∨ worker = .exited

def batchRank (batch : List Nat) : Nat := 2 + 4 * batch.length

def Enqueue.rank (call : Enqueue) : Nat :=
  match call.stage with
  | .called => 5 + batchRank call.batch
  | .locked => 4 + batchRank call.batch
  | .adding => 3 + batchRank call.batch
  | .sending => 2 + batchRank call.batch
  | .unlocking _ => 1

def Worker.rank : Worker → Nat
  | .exited => 0
  | .receiving => 1
  | .between left => 2 + 4 * left.length
  | .waking _ left => 3 + 4 * left.length
  | .lowering _ left => 4 + 4 * left.length
  | .inside _ left => 5 + 4 * left.length

def Waiter.rank (waiter : Waiter) : Nat :=
  match waiter.stage with
  | .called => 4
  | .asleep => 3
  | .awake => 2
  | .past => 1

def Closer.rank : Closer → Nat
  | .called => 7
  | .announced => 6
  | .holding => 5

namespace Pool

/-- A bound for the steps that the calls there are and the workers can take. -/
def rank (m : Pool) : Nat :=
  (m.enqueues.map Enqueue.rank).sum + (m.queue.map batchRank).sum + (m.workers.map Worker.rank).sum +
    (m.waiters.map Waiter.rank).sum + (m.closers.map Closer.rank).sum

theorem wake_rank (waiters : List Waiter) :
    ((waiters.map Waiter.wake).map Waiter.rank).sum ≤ (waiters.map Waiter.rank).sum := by
  induction waiters with
  | nil => exact Nat.le_refl _
  | cons waiter rest ih =>
    have less : waiter.wake.rank ≤ waiter.rank := by
      cases waiter with
      | mk closing stage => cases stage <;> simp [Waiter.wake, Waiter.rank]
    simp only [List.map_cons, List.sum_cons]
    omega

variable {m : Pool}

/-- Every step that is not a new call brings the calls nearer to their end. -/
theorem rank_step (own : Move.own move = true) (does : Does m move after) (alive : after.crash = none) :
    after.rank + 1 ≤ m.rank := by
  cases does with
  | enqueues | waits | closes => cases own
  | fails => cases alive
  | rlocks placed | refuses placed | looks placed | adds placed | sends placed | runlocks placed =>
    simp only [rank, enqueue, sum_eraseIdx placed, List.map_cons, List.map_append, List.sum_append, List.sum_cons,
      List.map_nil, List.sum_nil, Enqueue.rank]
    omega
  | slips placed =>
    have woken := wake_rank m.waiters
    simp only [rank, enqueue, wakeAll, sum_eraseIdx placed, List.map_cons, List.sum_cons, Enqueue.rank]
    omega
  | passes placed | sleeps placed | returns placed | shuts placed =>
    simp only [rank, await, sum_eraseIdx placed, List.map_cons, List.sum_cons, Waiter.rank]
    omega
  | announces placed | acquires placed | yields placed | sets placed =>
    simp only [rank, sum_eraseIdx placed, List.map_cons, List.sum_cons, Closer.rank, Waiter.rank]
    omega
  | receives placed queued =>
    simp only [rank, work, queued, sum_eraseIdx placed, List.map_cons, List.sum_cons, Worker.rank, batchRank]
    omega
  | exits placed | rests placed | starts placed | ends placed | last placed | lowers placed =>
    simp only [rank, work, sum_eraseIdx placed, List.map_cons, List.sum_cons, Worker.rank, List.length_cons,
      List.length_nil]
    omega
  | wakes placed =>
    have woken := wake_rank m.waiters
    simp only [rank, work, wakeAll, sum_eraseIdx placed, List.map_cons, List.sum_cons, Worker.rank]
    omega

/-! ### A step to take -/

section Progress

variable {m : Pool} (sound : Sound m)

include sound

theorem Sound.goes_of_busy (member : worker ∈ m.workers) (busy : ¬ worker.atRest) : Goes m := by
  obtain ⟨place, placed⟩ := List.mem_iff_getElem?.mp member
  cases worker with
  | receiving => exact absurd (.inl rfl) busy
  | exited => exact absurd (.inr rfl) busy
  | between left => cases left <;> exact ⟨.starts place, rfl, trivial, by simp [Pool.step, act, placed, sound.alive]⟩
  | inside job left => exact ⟨.ends place, rfl, trivial, by simp [Pool.step, act, placed, sound.alive]⟩
  | lowering job left =>
    refine ⟨.lowers place, rfl, trivial, ?_⟩
    simp only [Pool.step, act, placed, sound.alive, if_true]
    split <;> rfl
  | waking sleepers left =>
    refine ⟨.wakes place, rfl, trivial, ?_⟩
    simp only [Pool.step, act, placed, sound.alive, if_true]
    split <;> rfl

theorem Sound.goes_of_queued (positive : 0 < m.size) (rest : ∀ worker ∈ m.workers, worker.atRest)
    (queued : m.queue ≠ []) : Goes m := by
  have length := sound.room.workers
  obtain ⟨worker, member⟩ := List.exists_mem_of_length_pos (length ▸ positive)
  rcases rest worker member with receiving | exited
  · obtain ⟨place, placed⟩ := List.mem_iff_getElem?.mp (receiving ▸ member)
    obtain ⟨batch, left, queue⟩ := List.exists_cons_of_ne_nil queued
    exact ⟨.receives place, rfl, trivial, by simp [Pool.step, act, placed, queue, sound.alive]⟩
  · exact absurd (sound.room.exited (exited ▸ member)).2 queued

theorem Sound.goes_of_awake (member : waiter ∈ m.waiters) (awake : waiter.stage = .awake) : Goes m := by
  obtain ⟨closing, stage⟩ := waiter
  cases awake
  obtain ⟨place, placed⟩ := List.mem_iff_getElem?.mp member
  refine ⟨.returns place, rfl, trivial, ?_⟩
  simp only [Pool.step, act, placed, sound.alive, if_true]
  split <;> rfl

theorem Sound.goes_of_reading (positive : 0 < m.size) (rest : ∀ worker ∈ m.workers, worker.atRest)
    (empty : m.queue = []) (member : call ∈ m.enqueues) (reading : call.stage ≠ .called) : Goes m := by
  obtain ⟨stage, batch⟩ := call
  obtain ⟨place, placed⟩ := List.mem_iff_getElem?.mp member
  cases stage with
  | called => exact absurd rfl reading
  | locked => exact ⟨.looks place, rfl, trivial, by simp [Pool.step, act, placed, sound.alive]⟩
  | unlocking accepted => exact ⟨.runlocks place, rfl, trivial, by simp [Pool.step, act, placed, sound.alive]⟩
  | sending =>
    refine ⟨.sends place, rfl, trivial, ?_⟩
    simp only [Pool.step, act, placed, sound.alive, if_true, empty, List.length_nil, positive]
    split <;> rfl
  | adding =>
    by_cases awake : ∃ waiter ∈ m.waiters, waiter.stage = .awake
    · obtain ⟨waiter, waits, woken⟩ := awake
      exact sound.goes_of_awake waits woken
    refine ⟨.adds place, rfl, ?_, ?_⟩
    · by_cases zero : m.counter = 0
      · refine .inr fun waiter waits => ⟨fun asleep => ?_, fun woken => awake ⟨waiter, waits, woken⟩⟩
        have sleeping : m.sleepers ≠ 0 := by
          rw [sleepers, ← Nat.pos_iff_ne_zero, List.countP_pos_iff]
          exact ⟨waiter, waits, by simp [asleep]⟩
        rcases sound.sleep.asleep sleeping with raised | ⟨worker, works, waking⟩
        · exact raised zero
        · rcases rest worker works with rfl | rfl <;> cases waking
      · exact .inl zero
    · simp only [Pool.step, act, placed, sound.alive, if_true]
      (repeat' split) <;> rfl

theorem Sound.goes_of_writing (calls : ∀ call ∈ m.enqueues, call.stage = .called) (writing : m.writing = true) :
    Goes m := by
  obtain ⟨closer, member, writes⟩ := List.any_eq_true.mp writing
  obtain ⟨place, placed⟩ := List.mem_iff_getElem?.mp member
  have reading : m.reading = false := by
    rw [Pool.reading, List.any_eq_false]
    intro call present
    simp [Enqueue.reading, calls call present]
  cases closer with
  | called => cases writes
  | announced => exact ⟨.acquires place, rfl, trivial, by simp [Pool.step, act, placed, sound.alive, reading]⟩
  | holding => exact ⟨.sets place, rfl, trivial, by simp [Pool.step, act, placed, sound.alive]⟩

theorem Sound.goes_of_waiting (rest : ∀ worker ∈ m.workers, worker.atRest) (unsettled : m.unsettled = [])
    (member : waiter ∈ m.waiters) (waiting : waiter.stage ≠ .past ∨ waiter.closing = true) : Goes m := by
  obtain ⟨closing, stage⟩ := waiter
  obtain ⟨place, placed⟩ := List.mem_iff_getElem?.mp member
  cases stage with
  | called => exact ⟨.registers place, rfl, trivial, by simp [Pool.step, act, placed, sound.alive]⟩
  | awake => exact sound.goes_of_awake member rfl
  | past =>
    obtain _ | closing := waiting
    · contradiction
    cases closing
    refine ⟨.shuts place, rfl, trivial, ?_⟩
    simp only [Pool.step, act, placed, sound.alive, if_true]
    split <;> rfl
  | asleep =>
    have sleeping : m.sleepers ≠ 0 := by
      rw [sleepers, ← Nat.pos_iff_ne_zero, List.countP_pos_iff]
      exact ⟨_, member, rfl⟩
    have zero : m.counter = 0 := by rw [sound.jobs.counter, unsettled]; rfl
    rcases sound.sleep.asleep sleeping with raised | ⟨worker, works, waking⟩
    · exact absurd zero raised
    · rcases rest worker works with rfl | rfl <;> cases waking

theorem Sound.goes_of_closer (calls : ∀ call ∈ m.enqueues, call.stage = .called) (member : closer ∈ m.closers) :
    Goes m := by
  by_cases writing : m.writing = true
  · exact sound.goes_of_writing calls writing
  obtain ⟨place, placed⟩ := List.mem_iff_getElem?.mp member
  have called : closer = .called := by
    have quiet := List.any_eq_false.mp (Bool.not_eq_true _ ▸ writing) closer member
    simpa [Closer.writing] using quiet
  exact ⟨.announces place, rfl, trivial, by simp [Pool.step, act, placed, called, sound.alive, writing]⟩

theorem Sound.goes_of_enqueue (positive : 0 < m.size) (rest : ∀ worker ∈ m.workers, worker.atRest)
    (empty : m.queue = []) (member : call ∈ m.enqueues) : Goes m := by
  by_cases reader : ∃ call ∈ m.enqueues, call.stage ≠ .called
  · obtain ⟨call, present, reading⟩ := reader
    exact sound.goes_of_reading positive rest empty present reading
  have calls : ∀ call ∈ m.enqueues, call.stage = .called := fun call present =>
    Decidable.byContradiction fun reading => reader ⟨call, present, reading⟩
  by_cases writing : m.writing = true
  · exact sound.goes_of_writing calls writing
  obtain ⟨stage, batch⟩ := call
  cases calls _ member
  obtain ⟨place, placed⟩ := List.mem_iff_getElem?.mp member
  exact ⟨.rlocks place, rfl, trivial, by simp [Pool.step, act, placed, sound.alive, writing]⟩

end Progress

structure Rests (m : Pool) : Prop where
  enqueues : m.enqueues = []
  closers : m.closers = []
  waiters : ∀ waiter ∈ m.waiters, waiter.stage = .past ∧ waiter.closing = false
  ran : ∀ batch ∈ m.accepted, ∀ job ∈ batch, m.started.count job = 1 ∧ m.ended.count job = 1

theorem Sound.goes_or_rests (sound : Sound m) (positive : 0 < m.size) : m.Goes ∨ m.Rests := by
  by_cases busy : ∃ worker ∈ m.workers, ¬ worker.atRest
  · obtain ⟨worker, member, working⟩ := busy
    exact .inl (sound.goes_of_busy member working)
  have rest : ∀ worker ∈ m.workers, worker.atRest := fun worker member =>
    Classical.byContradiction fun working => busy ⟨worker, member, working⟩
  by_cases queued : m.queue = []
  swap
  · exact .inl (sound.goes_of_queued positive rest queued)
  cases enqueues : m.enqueues with
  | cons call calls => exact .inl (sound.goes_of_enqueue positive rest queued (enqueues ▸ List.mem_cons_self))
  | nil =>
    cases closers : m.closers with
    | cons closer others =>
      exact .inl (sound.goes_of_closer (by simp [enqueues]) (closers ▸ List.mem_cons_self))
    | nil =>
      have idle : m.workers.flatMap Worker.left = [] := List.flatMap_eq_nil_iff.mpr fun worker member => by
        rcases rest worker member with rfl | rfl <;> rfl
      have none : m.unsettled = [] := by simp [unsettled, enqueues, queued, idle]
      by_cases waiting : ∃ waiter ∈ m.waiters, waiter.stage ≠ .past ∨ waiter.closing = true
      · obtain ⟨waiter, member, waits⟩ := waiting
        exact .inl (sound.goes_of_waiting rest none member waits)
      · refine .inr ⟨enqueues, closers, fun waiter member => ?_, fun batch accepted job => sound.ran none accepted⟩
        constructor
        · exact Decidable.byContradiction fun waits => waiting ⟨waiter, member, .inl waits⟩
        · exact Bool.eq_false_iff.mpr fun closing => waiting ⟨waiter, member, .inr closing⟩

/-! ### Whole runs -/

theorem size_step (does : Does m move after) : after.size = m.size := by
  cases does <;> rfl

theorem Sound.sealed_step (sound : Sound m) (closed : m.closed = true) (does : Does m move after) :
    after.closed = true ∧ after.accepted = m.accepted := by
  cases does with
  | @runlocks _ success _ placed =>
    have answer := (sound.locks.closed closed _ (List.mem_of_getElem? placed)).2.2
    cases success with
    | true => exact absurd rfl answer
    | false => exact ⟨closed, rfl⟩
  | sets => exact ⟨rfl, rfl⟩
  | _ => exact ⟨closed, rfl⟩

theorem Sound.run (sound : Sound m) (orderly : Along Pool.step Orderly m moves)
    (run : feed Pool.step m moves = some after) : Sound after :=
  Along.invariant Sound (fun _ _ _ sound ok stepped => sound.step ok stepped) sound orderly run

/-- What the pool promises for its jobs: the process goes on, no job is run twice,
those of the accepted batches have been run once when `Close` returns, no batch is
accepted after that, and when no more calls are made every one of them returns. -/
structure KeepsJobs (m : Pool) : Prop where
  alive : m.crash = none
  once : ∀ job, m.started.count job ≤ 1
  finished : m.finished = true → ∀ batch ∈ m.accepted, ∀ job ∈ batch,
    m.started.count job = 1 ∧ m.ended.count job = 1
  sealed : m.finished = true → ∀ moves after, Along step Orderly m moves → feed step m moves = some after →
    after.accepted = m.accepted
  returns : ∀ moves after, Along step (fun state move => Orderly state move ∧ move.own = true) m moves →
    feed step m moves = some after → moves.length ≤ m.rank ∧ (after.Goes ∨ after.Rests)

theorem Sound.ran_when_finished (sound : Sound m) (finished : m.finished = true) : m.unsettled = [] := by
  have shut : m.channelClosed = true := sound.locks.finished ▸ finished
  have counter := sound.locks.past (.inl shut)
  rw [sound.jobs.counter] at counter
  exact List.eq_nil_of_length_eq_zero counter

theorem Sound.sealed_run (sound : Sound m) (finished : m.finished = true)
    (orderly : Along Pool.step Orderly m moves) (run : feed Pool.step m moves = some after) :
    after.accepted = m.accepted := by
  have spent : m.channelClosed = true ∨ ⟨true, .past⟩ ∈ m.waiters := .inl (sound.locks.finished ▸ finished)
  have closed := sound.locks.closed_of_past spent
  refine (Along.invariant (fun state => Sound state ∧ state.closed = true ∧ state.accepted = m.accepted)
    (fun state move next held ok stepped => ?_) ⟨sound, closed, rfl⟩ orderly run).2.2
  obtain ⟨sound, closed, same⟩ := held
  obtain ⟨still, accepted⟩ := sound.sealed_step closed (does_of_step sound.fits stepped)
  exact ⟨sound.step ok stepped, still, accepted.trans same⟩

theorem Sound.ends (sound : Sound m) (positive : 0 < m.size)
    (orderly : Along Pool.step (fun state move => Orderly state move ∧ move.own = true) m moves)
    (run : feed Pool.step m moves = some after) : moves.length ≤ m.rank ∧ (after.Goes ∨ after.Rests) := by
  obtain ⟨⟨kept, sized⟩, bound⟩ := Along.bounded (fun state => Sound state ∧ 0 < state.size) rank (fun _ => true)
    (fun state move next held ok stepped => by
      obtain ⟨sound, positive⟩ := held
      have does := does_of_step sound.fits stepped
      have kept := sound.step ok.1 stepped
      exact ⟨⟨kept, size_step does ▸ positive⟩, rank_step ok.2 does kept.alive⟩)
    ⟨sound, positive⟩ orderly run
  rw [List.countP_true] at bound
  exact ⟨by omega, kept.goes_or_rests sized⟩

private theorem workerCount_pos {workers : Int} (processors : 0 < maxProcs) : 0 < workerCount workers maxProcs := by
  simp only [workerCount]
  split <;> omega

/-- A pool whose wait group is used as it asks for keeps its promise in every run. -/
theorem orderly_pool_keeps_jobs {workers : Int} (processors : 0 < maxProcs)
    (orderly : Along Pool.step Orderly (new (workerCount workers maxProcs)) moves)
    (run : feed Pool.step (new (workerCount workers maxProcs)) moves = some m) : KeepsJobs m := by
  obtain ⟨sound, sized⟩ := Along.invariant (fun state => Sound state ∧ state.size = workerCount workers maxProcs)
    (fun state move next held ok stepped =>
      ⟨held.1.step ok stepped, (size_step (does_of_step held.1.fits stepped)).trans held.2⟩)
    ⟨.new _, rfl⟩ orderly run
  refine ⟨sound.alive, sound.once, fun finished batch accepted job => ?_, fun finished moves after => ?_,
    fun moves after => ?_⟩
  · exact sound.ran (sound.ran_when_finished finished) accepted
  · exact sound.sealed_run finished
  · exact sound.ends (sized ▸ workerCount_pos processors)

/-- Once `Close` has returned, every item whose batches of `GenerateJobs` were all
accepted has been processed once. An item is the number of the job made of it. -/
theorem generated_jobs_run_once {workers : Int}
    (orderly : Along Pool.step Orderly (new (workerCount workers maxProcs)) moves)
    (run : feed Pool.step (new (workerCount workers maxProcs)) moves = some m) (finished : m.finished = true)
    (accepted : ∀ batch ∈ generateJobs batchSize items [] [], batch ∈ m.accepted) :
    ∀ item ∈ items, m.started.count item = 1 ∧ m.ended.count item = 1 := by
  intro item member
  have sound : Sound m := (Sound.new _).run orderly run
  have whole : (generateJobs batchSize items [] []).flatten = items := by simp [generateJobs_flatten]
  obtain ⟨batch, listed, inside⟩ := List.mem_flatten.mp (whole.symm ▸ member)
  exact sound.ran (sound.ran_when_finished finished) (accepted batch listed) inside

/-- Two jobs are run while a call of `Wait` is asleep, and `Close` returns. -/
def servedMoves : List Move :=
  [.enqueues 2, .rlocks 0, .looks 0, .adds 0, .sends 0, .runlocks 0, .waits, .registers 0, .closes, .announces 0,
    .acquires 0, .sets 0, .registers 0, .receives 0, .starts 0, .ends 0, .lowers 0, .starts 0, .ends 0, .lowers 0,
    .wakes 0, .returns 0, .returns 1, .shuts 1]

theorem served_pool_keeps_jobs : ∃ m, feed step (new (workerCount 0 1)) servedMoves = some m ∧ m.finished = true ∧
    m.accepted = [[0, 1]] ∧ KeepsJobs m := by
  have orderly : Along step Orderly (new (workerCount 0 1)) servedMoves := by decide
  exact ⟨_, rfl, rfl, rfl, orderly_pool_keeps_jobs Nat.one_pos orderly rfl⟩

theorem served_items_run_once : ∃ m, feed step (new (workerCount 0 1)) servedMoves = some m ∧
    ∀ item ∈ [0, 1], m.started.count item = 1 ∧ m.ended.count item = 1 := by
  have orderly : Along step Orderly (new (workerCount 0 1)) servedMoves := by decide
  have accepted : ∀ batch ∈ generateJobs 2 [0, 1] [] [], batch ∈ [[0, 1]] := by decide
  exact ⟨_, rfl, generated_jobs_run_once orderly rfl rfl accepted⟩

/-- A call of `Wait` is asleep, the last job has been taken off the counter, and before
its worker wakes the sleeper up `EnqueueJobBatch` raises the counter. -/
def raisedMoves : List Move :=
  [.enqueues 1, .rlocks 0, .looks 0, .adds 0, .sends 0, .runlocks 0, .waits, .registers 0, .receives 0, .starts 0,
    .ends 0, .lowers 0, .enqueues 1, .rlocks 0, .looks 0, .adds 0]

/-- The same after the sleeper was woken up: the job is in the channel and its batch
accepted when the call of `Wait` ends the process. -/
def reusedMoves : List Move :=
  [.enqueues 1, .rlocks 0, .looks 0, .adds 0, .sends 0, .runlocks 0, .waits, .registers 0, .receives 0, .starts 0,
    .ends 0, .lowers 0, .wakes 0, .enqueues 1, .rlocks 0, .looks 0, .adds 0, .sends 0, .runlocks 0, .returns 0]

/-- `EnqueueJobBatch` beside `Wait` ends the process, and an accepted batch is lost. -/
theorem wait_beside_enqueue_ends_the_process :
    (∃ m, feed step (new (workerCount 1 1)) raisedMoves = some m ∧ m.crash = some .waitGroupMisuse) ∧
    ∃ m, feed step (new (workerCount 1 1)) reusedMoves = some m ∧ m.crash = some .waitGroupMisuse ∧
      m.accepted = [[1], [0]] ∧ m.started = [0] ∧ ¬ KeepsJobs m := by
  refine ⟨⟨_, rfl, rfl⟩, ⟨_, rfl, rfl, rfl, rfl, fun kept => ?_⟩⟩
  exact absurd kept.alive (by decide)

end Pool

end Gofi.Cronjob.WorkerPool
