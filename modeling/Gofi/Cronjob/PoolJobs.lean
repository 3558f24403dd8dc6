import Gofi.Cronjob.WorkerPool
import Mathlib.Data.List.Flatten

/-! Where the jobs of a worker pool are. A job that `wg.Add` has counted is in one
place until `wg.Done` takes it off: with the call that sends its batch, in the
channel, or with a worker. -/

namespace Gofi.Cronjob.WorkerPool

open Gofi.Concurrent

def Enqueue.counted (call : Enqueue) : List Nat :=
  match call.stage with
  | .sending => call.batch
  | _ => []

def Enqueue.sent (call : Enqueue) : List Nat :=
  match call.stage with
  | .unlocking true => call.batch
  | _ => []

namespace Worker

def left : Worker → List Nat
  | between left | waking _ left => left
  | inside job left | lowering job left => job :: left
  | _ => []

def current : Worker → List Nat
  | inside job _ | lowering job _ => [job]
  | _ => []

def spent : Worker → List Nat
  | lowering job _ => [job]
  | _ => []

def isWaking : Worker → Bool
  | waking _ _ => true
  | _ => false

theorem isWaking_iff {worker : Worker} : worker.isWaking = true ↔ ∃ sleepers left, worker = .waking sleepers left := by
  cases worker <;> simp [isWaking]

end Worker

namespace Pool

def unsettled (m : Pool) : List Nat :=
  m.enqueues.flatMap Enqueue.counted ++ m.queue.flatten ++ m.workers.flatMap Worker.left

/-- The jobs of the pool: each is in one place at a time, the counter counts those that
are not settled, and the logs tell what happened to them. -/
structure Jobs (m : Pool) : Prop where
  counter : m.counter = m.unsettled.length
  single : ∀ job, m.uncounted.count job + m.unsettled.count job + m.settled.count job ≤ if job < m.fresh then 1 else 0
  started : ∀ job, m.started.count job = m.settled.count job + (m.workers.flatMap Worker.current).count job
  ended : ∀ job, m.ended.count job = m.settled.count job + (m.workers.flatMap Worker.spent).count job
  accepted : ∀ batch ∈ m.accepted, ∀ job ∈ batch, 0 < m.unsettled.count job + m.settled.count job
  sent : ∀ call ∈ m.enqueues, ∀ job ∈ call.sent, 0 < m.unsettled.count job + m.settled.count job

theorem Jobs.new (size : Nat) : (new size).Jobs := by
  refine ⟨?_, ?_, ?_, ?_, ?_, ?_⟩ <;>
    simp [Pool.new, uncounted, unsettled, List.flatMap_replicate, Worker.left, Worker.current, Worker.spent]

/-- How many jobs the counter stands for, and where each of them is, from one step to
the next: jobs are new, or move on, and none is lost once it is counted. -/
structure Passes (m after : Pool) : Prop where
  counter : after.counter + m.unsettled.length = m.counter + after.unsettled.length
  single : ∀ job, after.uncounted.count job + after.unsettled.count job + after.settled.count job ≤
    m.uncounted.count job + m.unsettled.count job + m.settled.count job +
      (List.range' m.fresh (after.fresh - m.fresh)).count job
  kept : ∀ job, m.unsettled.count job + m.settled.count job ≤ after.unsettled.count job + after.settled.count job

variable {after m : Pool}

theorem Passes.of_enqueue (placed : m.enqueues[place]? = some call) (next : List Enqueue)
    (enqueues : after.enqueues = next ++ m.enqueues.eraseIdx place) (workers : after.workers = m.workers)
    (queue : after.queue = m.queue ++ arrived) (settled : after.settled = m.settled) (fresh : after.fresh = m.fresh)
    (counter : after.counter + call.counted.length =
      m.counter + (next.flatMap Enqueue.counted).length + arrived.flatten.length)
    (single : ∀ job, (next.flatMap Enqueue.uncounted).count job + (next.flatMap Enqueue.counted).count job +
      arrived.flatten.count job ≤ call.uncounted.count job + call.counted.count job)
    (kept : ∀ job, call.counted.count job ≤ (next.flatMap Enqueue.counted).count job + arrived.flatten.count job) :
    Passes m after := by
  refine ⟨?_, fun job => ?_, fun job => ?_⟩
  · simp only [unsettled, enqueues, workers, queue, List.length_append, List.flatMap_append, List.flatten_append,
      length_flatMap placed]
    omega
  · have here := single job
    simp only [uncounted, unsettled, enqueues, workers, queue, settled, fresh, List.count_append, List.flatMap_append,
      List.flatten_append, count_flatMap placed]
    omega
  · have here := kept job
    simp only [unsettled, enqueues, workers, queue, settled, List.count_append, List.flatMap_append,
      List.flatten_append, count_flatMap placed]
    omega

theorem Passes.of_worker (placed : m.workers[place]? = some worker) (next : Worker)
    (taken : List (List Nat)) (done : List Nat) (workers : after.workers = next :: m.workers.eraseIdx place)
    (enqueues : after.enqueues = m.enqueues)
    (queue : m.queue = taken ++ after.queue) (settled : after.settled = done ++ m.settled)
    (fresh : after.fresh = m.fresh)
    (counter : after.counter + taken.flatten.length + worker.left.length = m.counter + next.left.length)
    (same : ∀ job, next.left.count job + done.count job = taken.flatten.count job + worker.left.count job) :
    Passes m after := by
  refine ⟨?_, fun job => ?_, fun job => ?_⟩
  · simp only [unsettled, enqueues, workers, queue, List.length_append, List.flatMap_cons, List.flatten_append,
      length_flatMap placed]
    omega
  · have here := same job
    simp only [uncounted, unsettled, enqueues, workers, queue, settled, fresh, List.count_append, List.flatMap_cons,
      List.flatten_append, count_flatMap placed]
    omega
  · have here := same job
    simp only [unsettled, enqueues, workers, queue, settled, List.count_append, List.flatMap_cons,
      List.flatten_append, count_flatMap placed]
    omega

theorem Passes.of_same (counter : after.counter = m.counter) (enqueues : after.enqueues = m.enqueues)
    (workers : after.workers = m.workers) (queue : after.queue = m.queue) (settled : after.settled = m.settled) :
    Passes m after := by
  refine ⟨?_, fun job => ?_, fun job => ?_⟩
  · rw [unsettled, unsettled, counter, enqueues, workers, queue]
  · rw [uncounted, unsettled, uncounted, unsettled, enqueues, workers, queue, settled]
    exact Nat.le_add_right ..
  · exact Nat.le_of_eq (by rw [unsettled, unsettled, enqueues, workers, queue, settled])

theorem passes (does : Does m move after) : Passes m after := by
  cases does with
  | enqueues =>
    refine ⟨rfl, fun job => ?_, fun job => Nat.le_refl _⟩
    simp only [uncounted, unsettled, List.flatMap_cons, List.count_append, Enqueue.uncounted, Enqueue.counted,
      List.nil_append, Nat.add_sub_cancel_left]
    omega
  | rlocks placed | refuses placed | looks placed | adds placed =>
    refine .of_enqueue placed [_] rfl rfl (List.append_nil _).symm rfl rfl ?_ ?_ ?_ <;>
      simp [Enqueue.uncounted, Enqueue.counted, enqueue]
  | slips placed _ empty =>
    subst empty
    refine .of_enqueue placed [_] rfl rfl (List.append_nil _).symm rfl rfl ?_ ?_ ?_ <;>
      simp [Enqueue.uncounted, Enqueue.counted, enqueue, wakeAll]
  | sends placed =>
    refine .of_enqueue placed [_] rfl rfl rfl rfl rfl ?_ ?_ ?_ <;> simp [Enqueue.uncounted, Enqueue.counted, enqueue]
  | runlocks placed =>
    exact .of_enqueue placed [] rfl rfl (List.append_nil _).symm rfl rfl rfl (by simp) (by simp [Enqueue.counted])
  | receives placed queued =>
    exact .of_worker placed _ [_] [] rfl rfl queued rfl rfl (by simp [Worker.left, work]) (by simp [Worker.left])
  | exits placed | rests placed | starts placed | ends placed | wakes placed =>
    exact .of_worker placed _ [] [] rfl rfl rfl rfl rfl rfl (by simp [Worker.left])
  | last placed positive | lowers placed positive =>
    refine .of_worker placed _ [] [_] rfl rfl rfl rfl rfl ?_ fun other => ?_ <;>
      simp only [Worker.left, List.length_cons, List.count_cons, List.count_nil, List.flatten_nil, List.length_nil] <;>
      omega
  | _ => exact .of_same rfl rfl rfl rfl rfl

def Logged (m : Pool) (log : List Nat) (shows : Worker → List Nat) : Prop :=
  ∀ job, log.count job = m.settled.count job + (m.workers.flatMap shows).count job

theorem Logged.of_worker (logged : Logged m log shows) (placed : m.workers[place]? = some worker)
    (next : Worker) (new done : List Nat) (workers : after.workers = next :: m.workers.eraseIdx place)
    (settled : after.settled = done ++ m.settled)
    (same : ∀ job, new.count job + (shows worker).count job = done.count job + (shows next).count job) :
    Logged after (new ++ log) shows := by
  intro job
  have before := logged job
  have here := same job
  simp only [workers, settled, List.flatMap_cons, List.count_append, count_flatMap placed] at before ⊢
  omega

private theorem logged_step (started : Logged m m.started Worker.current) (ended : Logged m m.ended Worker.spent)
    (does : Does m move after) : Logged after after.started Worker.current ∧
      Logged after after.ended Worker.spent := by
  cases does with
  | receives placed | exits placed | rests placed | wakes placed =>
    exact ⟨started.of_worker placed _ [] [] rfl rfl fun _ => rfl, ended.of_worker placed _ [] [] rfl rfl fun _ => rfl⟩
  | starts placed =>
    exact ⟨started.of_worker placed _ [_] [] rfl rfl (by simp [Worker.current]),
      ended.of_worker placed _ [] [] rfl rfl fun _ => rfl⟩
  | ends placed =>
    exact ⟨started.of_worker placed _ [] [] rfl rfl fun _ => rfl,
      ended.of_worker placed _ [_] [] rfl rfl (by simp [Worker.spent])⟩
  | last placed | lowers placed =>
    exact ⟨started.of_worker placed _ [] [_] rfl rfl (by simp [Worker.current]),
      ended.of_worker placed _ [] [_] rfl rfl (by simp [Worker.spent])⟩
  | _ => exact ⟨started, ended⟩

private theorem accepted_step (does : Does m move after) (accepted : batch ∈ after.accepted) :
    batch ∈ m.accepted ∨ ∃ call ∈ m.enqueues, call.sent = batch := by
  cases does with
  | @runlocks _ success _ placed =>
    cases success with
    | false => exact .inl accepted
    | true =>
      rcases List.mem_cons.mp accepted with rfl | before
      · exact .inr ⟨_, List.mem_of_getElem? placed, rfl⟩
      · exact .inl before
  | _ => exact .inl accepted

private theorem sent_step (does : Does m move after) (present : call ∈ after.enqueues)
    (sent : job ∈ call.sent) : (∃ call ∈ m.enqueues, job ∈ call.sent) ∨ job ∈ after.queue.flatten := by
  cases does with
  | enqueues =>
    rcases List.mem_cons.mp present with rfl | kept
    · simp [Enqueue.sent] at sent
    · exact .inl ⟨call, kept, sent⟩
  | rlocks | refuses | looks | adds | slips | sends =>
    rcases List.mem_cons.mp present with rfl | kept
    · simp_all [Enqueue.sent]
    · exact .inl ⟨call, List.mem_of_mem_eraseIdx kept, sent⟩
  | runlocks => exact .inl ⟨call, List.mem_of_mem_eraseIdx present, sent⟩
  | _ => exact .inl ⟨call, present, sent⟩

theorem fresh_step (does : Does m move after) : m.fresh ≤ after.fresh := by
  cases does with
  | enqueues => exact Nat.le_add_right ..
  | _ => exact Nat.le_refl _

theorem Jobs.step (jobs : Jobs m) (does : Does m move after) : Jobs after := by
  have passes := passes does
  have logged := logged_step jobs.started jobs.ended does
  refine ⟨?_, fun job => ?_, logged.1, logged.2, fun batch accepted job member => ?_, fun call present job sent => ?_⟩
  · have same := passes.counter
    have before := jobs.counter
    omega
  · have before := jobs.single job
    have moved := passes.single job
    have grows := fresh_step does
    rw [(List.nodup_range' ..).count] at moved
    simp only [List.mem_range'_1] at moved
    split at before <;> split at moved <;> split <;> omega
  · have kept := passes.kept job
    rcases accepted_step does accepted with before | ⟨call, present, rfl⟩
    · exact Nat.lt_of_lt_of_le (jobs.accepted batch before job member) kept
    · exact Nat.lt_of_lt_of_le (jobs.sent call present job member) kept
  · rcases sent_step does present sent with ⟨earlier, before, held⟩ | queued
    · exact Nat.lt_of_lt_of_le (jobs.sent earlier before job held) (passes.kept job)
    · have counted := List.count_pos_iff.mpr queued
      simp only [unsettled, List.count_append]
      omega

end Pool

end Gofi.Cronjob.WorkerPool
