import Gofi.Cronjob.PoolSleep

/-! The runs of a worker pool: no job is lost or run twice, the process does not end,
and every call returns. -/

namespace Gofi.Cronjob.WorkerPool.Pool

open Gofi.Concurrent

structure Room (m : Pool) : Prop where
  workers : m.workers.length = m.size
  queue : m.queue.length ≤ m.size
  exited : .exited ∈ m.workers → m.channelClosed = true ∧ m.queue = []

theorem Room.new (size : Nat) : (new size).Room := by
  refine ⟨?_, ?_, ?_⟩ <;> simp [Pool.new, List.mem_replicate]

variable {m : Pool}

theorem Room.work {after : Pool} (room : Room m) (placed : m.workers[place]? = some worker) (next : Worker)
    (taken : Nat) (workers : after.workers = next :: m.workers.eraseIdx place) (size : after.size = m.size)
    (channel : after.channelClosed = m.channelClosed) (shorter : after.queue = m.queue.drop taken)
    (exits : next = .exited → m.channelClosed = true ∧ m.queue = []) : Room after where
  workers := by
    have length := length_eraseIdx placed
    rw [workers, size, List.length_cons, length]
    exact room.workers
  queue := by
    rw [shorter, size, List.length_drop]
    have bound := room.queue
    omega
  exited member := by
    rw [workers] at member
    rw [channel, shorter]
    have left : m.channelClosed = true ∧ m.queue = [] := by
      rcases List.mem_cons.mp member with here | kept
      · exact exits here.symm
      · exact room.exited (List.mem_of_mem_eraseIdx kept)
    exact ⟨left.1, by simp [left.2]⟩

theorem Room.step (room : Room m) (does : Does m move after) : Room after := by
  cases does with
  | receives placed queued => exact room.work placed _ 1 rfl rfl rfl (by rw [queued]; rfl) nofun
  | exits placed queued shut => exact room.work placed _ 0 rfl rfl rfl rfl fun _ => ⟨shut, queued⟩
  | rests placed | starts placed | ends placed | last placed | lowers placed | wakes placed =>
    exact room.work placed _ 0 rfl rfl rfl rfl nofun
  | sends _ opened space =>
    refine ⟨room.workers, ?_, fun member => absurd (room.exited member).1 opened⟩
    rw [List.length_append]
    exact space
  | shuts => exact ⟨room.workers, room.queue, fun member => ⟨rfl, (room.exited member).2⟩⟩
  | _ => exact ⟨room.workers, room.queue, room.exited⟩

theorem Fits.step (fits : Fits m) (orderly : Orderly m move) (does : Does m move after) : Fits after := by
  have before : m.counter + m.uncounted.length < 2 ^ 31 := fits
  cases does with
  | @enqueues count =>
    have room : m.counter + m.uncounted.length + count < 2 ^ 31 := orderly
    simp only [Fits, outstanding, uncounted, List.flatMap_cons, Enqueue.uncounted, List.length_append,
      List.length_range'] at room ⊢
    omega
  | rlocks placed | refuses placed | looks placed | slips placed | adds placed | sends placed | runlocks placed =>
    rw [uncounted, length_flatMap placed] at before
    simp only [Fits, outstanding, uncounted, enqueue, wakeAll, List.flatMap_cons, Enqueue.uncounted,
      List.length_append, List.length_nil] at before ⊢
    omega
  | last | lowers =>
    refine Nat.lt_of_le_of_lt ?_ before
    exact Nat.add_le_add_right (Nat.sub_le ..) _
  | _ => exact before

structure Sound (m : Pool) : Prop where
  jobs : Jobs m
  locks : Locks m
  sleep : Sleep m
  room : Room m
  fits : Fits m
  alive : m.crash = none

theorem Sound.new (size : Nat) : (new size).Sound :=
  ⟨.new size, .new size, .new size, .new size, by simp [Fits, outstanding, uncounted, Pool.new], rfl⟩

theorem Sound.not_fails (sound : Sound m) (orderly : Orderly m move) : ¬Fails m move := by
  intro fails
  cases fails with
  | adds _ late => exact orderly.calm late
  | sends placed shut =>
    have spent : m.channelClosed = true ∨ ⟨true, .past⟩ ∈ m.waiters := .inl shut
    have closed := sound.locks.closed_of_past spent
    exact (sound.locks.closed closed _ (List.mem_of_getElem? placed)).2.1 rfl
  | returns placed raised => exact raised (sound.sleep.awake _ (List.mem_of_getElem? placed) rfl)
  | shuts placed shut =>
    have owner := sound.locks.owner
    rw [countP_eraseIdx placed, shut] at owner
    simp only [if_true] at owner
    split at owner <;> omega
  | lowers placed zero =>
    have counted := sound.jobs.counter
    simp only [unsettled, List.length_append, length_flatMap placed, Worker.left, List.length_cons, zero] at counted
    omega
  | wakes placed raised =>
    obtain ⟨zero, same, _⟩ := sound.sleep.waking _ _ (List.mem_of_getElem? placed)
    exact raised ⟨zero, same⟩

theorem Sound.alive_step (sound : Sound m) (orderly : Orderly m move) (does : Does m move after) :
    after.crash = none := by
  cases does with
  | fails fails => exact absurd fails (sound.not_fails orderly)
  | _ => exact sound.alive

theorem does_of_step (fits : Fits m) (stepped : m.step move = some after) : Does m move after := by
  simp only [step] at stepped
  split at stepped
  · exact does_of_act fits stepped
  · cases stepped

theorem Sound.step (sound : Sound m) (orderly : Orderly m move) (stepped : m.step move = some after) : Sound after :=
  have does := does_of_step sound.fits stepped
  ⟨sound.jobs.step does, sound.locks.step orderly does, sound.sleep.step orderly does, sound.room.step does,
    sound.fits.step orderly does, sound.alive_step orderly does⟩

theorem count_flatMap_le [DecidableEq β] (items : List α) (f g : α → List β) (value : β)
    (less : ∀ item, (f item).count value ≤ (g item).count value) :
    (items.flatMap f).count value ≤ (items.flatMap g).count value := by
  induction items with
  | nil => exact Nat.le_refl _
  | cons item rest ih =>
    rw [List.flatMap_cons, List.flatMap_cons, List.count_append, List.count_append]
    exact Nat.add_le_add (less item) ih

theorem Sound.once (sound : Sound m) (job : Nat) : m.started.count job ≤ 1 := by
  have started := sound.jobs.started job
  have single := sound.jobs.single job
  have within := count_flatMap_le m.workers Worker.current Worker.left job fun worker => by
    cases worker <;> simp [Worker.current, Worker.left, List.count_cons]
  simp only [unsettled, List.count_append] at single
  split at single <;> omega

theorem Sound.ran (sound : Sound m) (none : m.unsettled = []) (accepted : batch ∈ m.accepted)
    (member : job ∈ batch) : m.started.count job = 1 ∧ m.ended.count job = 1 := by
  have started := sound.jobs.started job
  have ended := sound.jobs.ended job
  have single := sound.jobs.single job
  have kept := sound.jobs.accepted batch accepted job member
  have idle : m.workers.flatMap Worker.left = [] := by
    simp only [unsettled, List.append_eq_nil_iff] at none
    exact none.2
  have current := count_flatMap_le m.workers Worker.current Worker.left job fun worker => by
    cases worker <;> simp [Worker.current, Worker.left, List.count_cons]
  have spent := count_flatMap_le m.workers Worker.spent Worker.left job fun worker => by
    cases worker <;> simp [Worker.spent, Worker.left, List.count_cons]
  simp only [none, idle, List.count_nil] at kept current spent single
  split at single <;> omega

end Gofi.Cronjob.WorkerPool.Pool
