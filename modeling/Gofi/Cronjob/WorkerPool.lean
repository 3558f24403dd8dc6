import Gofi.Concurrent.Machine

/-! `cronjob/worker_pool.go`: the pool that runs batches of jobs. `EnqueueJobBatch`
holds the read lock from its look at `closed` until its batch is in the channel;
`Close` takes the write lock to set `closed`, waits for the jobs and closes the
channel. The locks are modelled by who holds them, `sync.WaitGroup` by its counter,
a signed 32-bit number, and by who waits for it. -/

namespace Gofi.Cronjob

open Gofi.Concurrent

def generateJobs (batchSize : Int) : List α → List (List α) → List α → List (List α)
  | [], batches, batch => if batch = [] then batches else batches ++ [batch]
  | item :: rest, batches, batch =>
    let batch := batch ++ [item]
    if batchSize ≤ batch.length then generateJobs batchSize rest (batches ++ [batch]) []
    else generateJobs batchSize rest batches batch

theorem generateJobs_flatten (batchSize : Int) (items : List α) (batches : List (List α)) (batch : List α) :
    (generateJobs batchSize items batches batch).flatten = batches.flatten ++ batch ++ items := by
  induction items generalizing batches batch with
  | nil =>
    simp only [generateJobs]
    split
    · rename_i empty
      simp [empty]
    · simp
  | cons item rest ih =>
    simp only [generateJobs]
    split <;> simp [ih]

namespace WorkerPool

/-- Where a call of `EnqueueJobBatch` is: before `RLock`, before it looks at `closed`,
before `wg.Add`, before the send, or before `RUnlock` with its answer. -/
inductive EnqueueStage where
  | called
  | locked
  | adding
  | sending
  | unlocking (accepted : Bool)
  deriving DecidableEq

structure Enqueue where
  stage : EnqueueStage
  batch : List Nat
  deriving DecidableEq

/-- The jobs of a call that `wg.Add` has not counted yet. -/
def Enqueue.uncounted (call : Enqueue) : List Nat :=
  match call.stage with
  | .called | .locked | .adding => call.batch
  | _ => []

def Enqueue.reading (call : Enqueue) : Bool := call.stage ≠ .called

/-- Where a call of `Close` is until it has released the write lock: before `Lock`,
announced and waiting for the readers, or in its critical section. -/
inductive Closer where
  | called
  | announced
  | holding
  deriving DecidableEq

def Closer.writing (closer : Closer) : Bool := closer ≠ .called

/-- Where a call of `wg.Wait` is: before it looks at the counter, asleep, woken up and
before its last look at the state, or past it. -/
inductive WaitStage where
  | called
  | asleep
  | awake
  | past
  deriving DecidableEq

structure Waiter where
  closing : Bool
  stage : WaitStage
  deriving DecidableEq

def Waiter.wake (waiter : Waiter) : Waiter :=
  if waiter.stage = .asleep then { waiter with stage := .awake } else waiter

/-- Where a worker is: at the channel, between the jobs of its batch, in a job, in
`wg.Done` after it, waking up the sleepers the counter left at zero, or returned. -/
inductive Worker where
  | receiving
  | between (left : List Nat)
  | inside (job : Nat) (left : List Nat)
  | lowering (job : Nat) (left : List Nat)
  | waking (sleepers : Nat) (left : List Nat)
  | exited
  deriving DecidableEq

inductive Crash where
  | waitGroupMisuse
  | negativeCounter
  | sendOnClosed
  | closeOfClosed
  deriving DecidableEq

/-- The pool: its calls, its workers and its channel `Jobs`, which holds as many
batches as there are workers. Jobs are numbered; `started`, `ended` and `settled` log
those that were called, have ended, and were taken off the counter, `accepted` the
batches for which `EnqueueJobBatch` returned nil, and `finished` that the `Close`
that closed the pool has returned. -/
structure Pool where
  size : Nat
  closed : Bool
  channelClosed : Bool
  counter : Nat
  queue : List (List Nat)
  enqueues : List Enqueue
  closers : List Closer
  waiters : List Waiter
  workers : List Worker
  fresh : Nat
  started : List Nat
  ended : List Nat
  settled : List Nat
  accepted : List (List Nat)
  finished : Bool
  crash : Option Crash

namespace Pool

def workerCount (workers : Int) (maxProcs : Nat) : Nat := if workers < 1 then maxProcs else workers.toNat

/-- `NewPool` and `Start`. -/
def new (size : Nat) : Pool :=
  { size, closed := false, channelClosed := false, counter := 0, queue := [], enqueues := [], closers := [],
    waiters := [], workers := List.replicate size .receiving, fresh := 0, started := [], ended := [], settled := [],
    accepted := [], finished := false, crash := none }

def reading (m : Pool) : Bool := m.enqueues.any Enqueue.reading

def writing (m : Pool) : Bool := m.closers.any Closer.writing

def uncounted (m : Pool) : List Nat := m.enqueues.flatMap Enqueue.uncounted

/-- The jobs on the counter, and those that a call is about to add to it. -/
def outstanding (m : Pool) : Nat := m.counter + m.uncounted.length

def sleepers (m : Pool) : Nat := m.waiters.countP (·.stage = .asleep)

def enqueue (m : Pool) (place : Nat) (call : Enqueue) : Pool :=
  { m with enqueues := call :: m.enqueues.eraseIdx place }

def work (m : Pool) (place : Nat) (worker : Worker) : Pool :=
  { m with workers := worker :: m.workers.eraseIdx place }

def await (m : Pool) (place : Nat) (waiter : Waiter) : Pool :=
  { m with waiters := waiter :: m.waiters.eraseIdx place }

def wakeAll (m : Pool) : Pool := { m with waiters := m.waiters.map Waiter.wake }

def fails (m : Pool) (crash : Crash) : Pool := { m with crash := some crash }

/-- The steps between which others may run: `enqueues`, `waits` and `closes` are new
calls; the others are those of a call or a worker at a place. A job that ends has
returned, or has panicked and `safeRun` has recovered. -/
inductive Move where
  | enqueues (size : Nat)
  | rlocks (place : Nat)
  | looks (place : Nat)
  | adds (place : Nat)
  | sends (place : Nat)
  | runlocks (place : Nat)
  | waits
  | registers (place : Nat)
  | returns (place : Nat)
  | shuts (place : Nat)
  | closes
  | announces (place : Nat)
  | acquires (place : Nat)
  | sets (place : Nat)
  | receives (place : Nat)
  | starts (place : Nat)
  | ends (place : Nat)
  | lowers (place : Nat)
  | wakes (place : Nat)
  deriving DecidableEq

def act (m : Pool) : Move → Option Pool
  | .enqueues size => some { m with
      enqueues := ⟨.called, List.range' m.fresh size⟩ :: m.enqueues
      fresh := m.fresh + size }
  | .rlocks place =>
    match m.enqueues[place]? with
    | some ⟨.called, batch⟩ => if m.writing then none else some (m.enqueue place ⟨.locked, batch⟩)
    | _ => none
  | .looks place =>
    match m.enqueues[place]? with
    | some ⟨.locked, batch⟩ => some (m.enqueue place ⟨if m.closed then .unlocking false else .adding, batch⟩)
    | _ => none
  | .adds place =>
    match m.enqueues[place]? with
    | some ⟨.adding, batch⟩ =>
      let counter := (m.counter + batch.length) % 2 ^ 32
      if 2 ^ 31 ≤ counter then some (m.fails .negativeCounter)
      else if m.counter = 0 ∧ m.sleepers ≠ 0 ∧ batch ≠ [] then some (m.fails .waitGroupMisuse)
      -- whoever leaves the counter at zero wakes the sleepers up, also with an empty batch
      else if counter = 0 ∧ m.sleepers ≠ 0 then
        some { m.enqueue place ⟨.sending, batch⟩ with counter, waiters := m.waiters.map Waiter.wake }
      else some { m.enqueue place ⟨.sending, batch⟩ with counter }
    | _ => none
  | .sends place =>
    match m.enqueues[place]? with
    | some ⟨.sending, batch⟩ =>
      if m.channelClosed then some (m.fails .sendOnClosed)
      else if m.queue.length < m.size then
        some { m.enqueue place ⟨.unlocking true, batch⟩ with queue := m.queue ++ [batch] }
      else none
    | _ => none
  | .runlocks place =>
    match m.enqueues[place]? with
    | some ⟨.unlocking accepted, batch⟩ => some { m with
        enqueues := m.enqueues.eraseIdx place
        accepted := if accepted then batch :: m.accepted else m.accepted }
    | _ => none
  | .waits => some { m with waiters := ⟨false, .called⟩ :: m.waiters }
  | .registers place =>
    match m.waiters[place]? with
    | some ⟨closing, .called⟩ => some (m.await place ⟨closing, if m.counter = 0 then .past else .asleep⟩)
    | _ => none
  | .returns place =>
    match m.waiters[place]? with
    | some ⟨closing, .awake⟩ =>
      if m.counter = 0 ∧ m.sleepers = 0 then some (m.await place ⟨closing, .past⟩) else some (m.fails .waitGroupMisuse)
    | _ => none
  | .shuts place =>
    match m.waiters[place]? with
    | some ⟨true, .past⟩ =>
      if m.channelClosed then some (m.fails .closeOfClosed)
      else some { m with waiters := m.waiters.eraseIdx place, channelClosed := true, finished := true }
    | _ => none
  | .closes => some { m with closers := .called :: m.closers }
  | .announces place =>
    match m.closers[place]? with
    | some .called => if m.writing then none else some { m with closers := .announced :: m.closers.eraseIdx place }
    | _ => none
  | .acquires place =>
    match m.closers[place]? with
    | some .announced => if m.reading then none else some { m with closers := .holding :: m.closers.eraseIdx place }
    | _ => none
  | .sets place =>
    match m.closers[place]? with
    | some .holding =>
      let left := { m with closers := m.closers.eraseIdx place }
      some (if m.closed then left else { left with closed := true, waiters := ⟨true, .called⟩ :: m.waiters })
    | _ => none
  | .receives place =>
    match m.workers[place]?, m.queue with
    | some .receiving, batch :: rest => some { m.work place (.between batch) with queue := rest }
    | some .receiving, [] => if m.channelClosed then some (m.work place .exited) else none
    | _, _ => none
  | .starts place =>
    match m.workers[place]? with
    | some (.between []) => some (m.work place .receiving)
    | some (.between (job :: left)) => some { m.work place (.inside job left) with started := job :: m.started }
    | _ => none
  | .ends place =>
    match m.workers[place]? with
    | some (.inside job left) => some { m.work place (.lowering job left) with ended := job :: m.ended }
    | _ => none
  | .lowers place =>
    match m.workers[place]? with
    | some (.lowering job left) =>
      if m.counter = 0 then some (m.fails .negativeCounter)
      else some { m.work place (if m.counter = 1 ∧ m.sleepers ≠ 0 then .waking m.sleepers left else .between left) with
        counter := m.counter - 1
        settled := job :: m.settled }
    | _ => none
  | .wakes place =>
    match m.workers[place]? with
    | some (.waking sleepers left) =>
      if m.counter = 0 ∧ m.sleepers = sleepers then some (m.work place (.between left)).wakeAll
      else some (m.fails .waitGroupMisuse)
    | _ => none

def step (m : Pool) (move : Move) : Option Pool := if m.crash = none then m.act move else none

inductive Fails (m : Pool) : Move → Prop where
  | adds (placed : m.enqueues[place]? = some ⟨.adding, batch⟩) (late : m.counter = 0 ∧ m.sleepers ≠ 0) :
    Fails m (.adds place)
  | sends (placed : m.enqueues[place]? = some ⟨.sending, batch⟩) (shut : m.channelClosed = true) :
    Fails m (.sends place)
  | returns (placed : m.waiters[place]? = some ⟨closing, .awake⟩) (raised : ¬(m.counter = 0 ∧ m.sleepers = 0)) :
    Fails m (.returns place)
  | shuts (placed : m.waiters[place]? = some ⟨true, .past⟩) (shut : m.channelClosed = true) : Fails m (.shuts place)
  | lowers (placed : m.workers[place]? = some (.lowering job left)) (zero : m.counter = 0) : Fails m (.lowers place)
  | wakes (placed : m.workers[place]? = some (.waking count left)) (raised : ¬(m.counter = 0 ∧ m.sleepers = count)) :
    Fails m (.wakes place)

inductive Does (m : Pool) : Move → Pool → Prop where
  | enqueues : Does m (.enqueues count)
    { m with enqueues := ⟨.called, List.range' m.fresh count⟩ :: m.enqueues, fresh := m.fresh + count }
  | rlocks (placed : m.enqueues[place]? = some ⟨.called, batch⟩) (free : ¬m.writing = true) :
    Does m (.rlocks place) (m.enqueue place ⟨.locked, batch⟩)
  | refuses (placed : m.enqueues[place]? = some ⟨.locked, batch⟩) (closed : m.closed = true) :
    Does m (.looks place) (m.enqueue place ⟨.unlocking false, batch⟩)
  | looks (placed : m.enqueues[place]? = some ⟨.locked, batch⟩) (opened : ¬m.closed = true) :
    Does m (.looks place) (m.enqueue place ⟨.adding, batch⟩)
  | slips (placed : m.enqueues[place]? = some ⟨.adding, batch⟩) (late : m.counter = 0 ∧ m.sleepers ≠ 0)
    (empty : batch = []) : Does m (.adds place) (m.enqueue place ⟨.sending, batch⟩).wakeAll
  | adds (placed : m.enqueues[place]? = some ⟨.adding, batch⟩) (calm : ¬(m.counter = 0 ∧ m.sleepers ≠ 0)) :
    Does m (.adds place) { m.enqueue place ⟨.sending, batch⟩ with counter := m.counter + batch.length }
  | sends (placed : m.enqueues[place]? = some ⟨.sending, batch⟩) (opened : ¬m.channelClosed = true)
    (space : m.queue.length < m.size) :
    Does m (.sends place) { m.enqueue place ⟨.unlocking true, batch⟩ with queue := m.queue ++ [batch] }
  | runlocks (placed : m.enqueues[place]? = some ⟨.unlocking success, batch⟩) : Does m (.runlocks place) { m with
      enqueues := m.enqueues.eraseIdx place
      accepted := if success then batch :: m.accepted else m.accepted }
  | waits : Does m .waits { m with waiters := ⟨false, .called⟩ :: m.waiters }
  | passes (placed : m.waiters[place]? = some ⟨closing, .called⟩) (zero : m.counter = 0) :
    Does m (.registers place) (m.await place ⟨closing, .past⟩)
  | sleeps (placed : m.waiters[place]? = some ⟨closing, .called⟩) (positive : ¬m.counter = 0) :
    Does m (.registers place) (m.await place ⟨closing, .asleep⟩)
  | returns (placed : m.waiters[place]? = some ⟨closing, .awake⟩) (zero : m.counter = 0 ∧ m.sleepers = 0) :
    Does m (.returns place) (m.await place ⟨closing, .past⟩)
  | shuts (placed : m.waiters[place]? = some ⟨true, .past⟩) (opened : ¬m.channelClosed = true) :
    Does m (.shuts place) { m with waiters := m.waiters.eraseIdx place, channelClosed := true, finished := true }
  | closes : Does m .closes { m with closers := .called :: m.closers }
  | announces (placed : m.closers[place]? = some .called) (free : ¬m.writing = true) :
    Does m (.announces place) { m with closers := .announced :: m.closers.eraseIdx place }
  | acquires (placed : m.closers[place]? = some .announced) (free : ¬m.reading = true) :
    Does m (.acquires place) { m with closers := .holding :: m.closers.eraseIdx place }
  | yields (placed : m.closers[place]? = some .holding) (closed : m.closed = true) :
    Does m (.sets place) { m with closers := m.closers.eraseIdx place }
  | sets (placed : m.closers[place]? = some .holding) (opened : ¬m.closed = true) :
    Does m (.sets place) { m with
      closers := m.closers.eraseIdx place, closed := true, waiters := ⟨true, .called⟩ :: m.waiters }
  | receives (placed : m.workers[place]? = some .receiving) (queued : m.queue = batch :: rest) :
    Does m (.receives place) { m.work place (.between batch) with queue := rest }
  | exits (placed : m.workers[place]? = some .receiving) (queued : m.queue = []) (shut : m.channelClosed = true) :
    Does m (.receives place) (m.work place .exited)
  | rests (placed : m.workers[place]? = some (.between [])) : Does m (.starts place) (m.work place .receiving)
  | starts (placed : m.workers[place]? = some (.between (job :: left))) :
    Does m (.starts place) { m.work place (.inside job left) with started := job :: m.started }
  | ends (placed : m.workers[place]? = some (.inside job left)) :
    Does m (.ends place) { m.work place (.lowering job left) with ended := job :: m.ended }
  | last (placed : m.workers[place]? = some (.lowering job left)) (positive : ¬m.counter = 0)
    (last : m.counter = 1 ∧ m.sleepers ≠ 0) : Does m (.lowers place) { m.work place (.waking m.sleepers left) with
      counter := m.counter - 1
      settled := job :: m.settled }
  | lowers (placed : m.workers[place]? = some (.lowering job left)) (positive : ¬m.counter = 0)
    (more : ¬(m.counter = 1 ∧ m.sleepers ≠ 0)) : Does m (.lowers place) { m.work place (.between left) with
      counter := m.counter - 1
      settled := job :: m.settled }
  | wakes (placed : m.workers[place]? = some (.waking count left)) (same : m.counter = 0 ∧ m.sleepers = count) :
    Does m (.wakes place) (m.work place (.between left)).wakeAll
  | fails (fails : Fails m move) : Does m move (m.fails reason)

/-- The counter has room for every batch on its way to it. -/
def Fits (m : Pool) : Prop := m.outstanding < 2 ^ 31

variable {m : Pool} {place : Nat}

theorem Fits.adding {batch : List Nat} (fits : Fits m) (placed : m.enqueues[place]? = some ⟨.adding, batch⟩) :
    m.counter + batch.length < 2 ^ 31 := by
  have here : batch.length ≤ m.uncounted.length := by
    rw [uncounted, length_flatMap placed]
    exact Nat.le_add_right ..
  exact Nat.lt_of_le_of_lt (Nat.add_le_add_left here _) fits

private theorem does_of_adds (fits : Fits m) (acted : m.act (.adds place) = some after) :
    Does m (.adds place) after := by
  simp only [act] at acted
  split at acted
  · rename_i batch placed
    have room := fits.adding placed
    have whole : (m.counter + batch.length) % 2 ^ 32 = m.counter + batch.length := Nat.mod_eq_of_lt (by omega)
    rw [whole] at acted
    split at acted
    · omega
    split at acted
    · rename_i late
      cases acted
      exact .fails (.adds placed ⟨late.1, late.2.1⟩)
    rename_i calm
    split at acted
    · rename_i zero
      cases acted
      have empty : batch = [] := List.eq_nil_of_length_eq_zero (by omega)
      subst empty
      exact .slips placed ⟨by simpa using zero.1, zero.2⟩ rfl
    · rename_i raised
      cases acted
      refine .adds placed fun late => ?_
      by_cases empty : batch = []
      · exact raised ⟨by simpa [empty] using late.1, late.2⟩
      · exact calm ⟨late.1, late.2, empty⟩
  · cases acted

theorem does_of_act (fits : Fits m) (acted : m.act move = some after) : Does m move after := by
  cases move
  case adds => exact does_of_adds fits acted
  all_goals simp only [act] at acted
  case runlocks => split at acted <;> cases acted; exact .runlocks ‹_›
  all_goals (repeat' split at acted) <;> cases acted
  all_goals first
    | constructor <;> assumption
    | exact .fails (by constructor <;> assumption)

end Pool

end WorkerPool

end Gofi.Cronjob
