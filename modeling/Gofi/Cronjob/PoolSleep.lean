import Gofi.Cronjob.PoolLocks

/-! `sync.WaitGroup` in a worker pool: a call of `Wait` that was woken up finds the
counter at zero, as long as no batch is counted in between. -/

namespace Gofi.Cronjob.WorkerPool.Pool

open Gofi.Concurrent

/-- Whoever sleeps is woken up, by the worker that took the counter to zero, and wakes
up while it is still there. -/
structure Sleep (m : Pool) : Prop where
  awake : ∀ waiter ∈ m.waiters, waiter.stage = .awake → m.counter = 0 ∧ m.sleepers = 0
  waking : ∀ sleepers left, .waking sleepers left ∈ m.workers →
    m.counter = 0 ∧ m.sleepers = sleepers ∧ sleepers ≠ 0
  single : m.workers.countP Worker.isWaking ≤ 1
  asleep : m.sleepers ≠ 0 → m.counter ≠ 0 ∨ ∃ worker ∈ m.workers, worker.isWaking = true

theorem Sleep.new (size : Nat) : (new size).Sleep := by
  refine ⟨?_, ?_, ?_, ?_⟩ <;> simp [Pool.new, sleepers, List.countP_replicate, Worker.isWaking, List.mem_replicate]

variable {after m : Pool}

theorem Sleep.work (sleep : Sleep m) (placed : m.workers[place]? = some worker)
    (before : worker.isWaking = false) (next : Worker) (now : next.isWaking = false)
    (workers : after.workers = next :: m.workers.eraseIdx place) (waiters : after.waiters = m.waiters)
    (counter : after.counter = m.counter) : Sleep after where
  awake := by
    rw [waiters, counter, sleepers, waiters]
    exact sleep.awake
  waking sleepers left member := by
    rw [workers] at member
    rw [counter, Pool.sleepers, waiters]
    rcases List.mem_cons.mp member with rfl | kept
    · cases now
    · exact sleep.waking sleepers left (List.mem_of_mem_eraseIdx kept)
  single := by
    have single := sleep.single
    rw [countP_eraseIdx placed] at single
    rw [workers, List.countP_cons]
    simp only [before, now] at single ⊢
    omega
  asleep := by
    intro some
    rw [sleepers, waiters] at some
    rw [counter, workers]
    refine (sleep.asleep some).imp_right fun ⟨other, member, wakes⟩ => ?_
    refine ⟨other, List.mem_cons_of_mem _ ?_, wakes⟩
    rw [← (eraseIdx_perm placed).mem_iff] at member
    rcases List.mem_cons.mp member with rfl | kept
    · cases before.symm.trans wakes
    · exact kept

theorem Sleep.of_waiters (sleep : Sleep m) (workers : after.workers = m.workers)
    (counter : after.counter = m.counter) (sleepers : after.sleepers = m.sleepers)
    (awake : ∀ waiter ∈ after.waiters, waiter.stage = .awake → waiter ∈ m.waiters) : Sleep after where
  awake waiter member woken := by
    rw [counter, sleepers]
    exact sleep.awake waiter (awake waiter member woken) woken
  waking := by
    rw [workers, counter, sleepers]
    exact sleep.waking
  single := by rw [workers]; exact sleep.single
  asleep := by
    rw [sleepers, counter, workers]
    exact sleep.asleep

theorem Sleep.quiet_of_positive (sleep : Sleep m) (positive : m.counter ≠ 0) :
    (∀ waiter ∈ m.waiters, waiter.stage ≠ .awake) ∧ ∀ worker ∈ m.workers, worker.isWaking = false := by
  refine ⟨fun waiter member woken => positive (sleep.awake waiter member woken).1, fun worker member => ?_⟩
  by_contra wakes
  obtain ⟨sleepers, left, rfl⟩ := Worker.isWaking_iff.mp (by simpa using wakes)
  exact positive (sleep.waking sleepers left member).1

theorem Sleep.of_quiet (waiters : after.waiters = m.waiters) (workers : after.workers = m.workers)
    (awake : ∀ waiter ∈ m.waiters, waiter.stage ≠ .awake) (waking : ∀ worker ∈ m.workers, worker.isWaking = false)
    (asleep : m.sleepers ≠ 0 → after.counter ≠ 0) : Sleep after where
  awake waiter member woken := absurd woken (awake waiter (waiters ▸ member))
  waking sleepers left member := by cases waking _ (workers ▸ member)
  single := by
    have none : m.workers.countP Worker.isWaking = 0 := List.countP_eq_zero.mpr fun worker member => by
      simp [waking worker member]
    rw [workers, none]
    exact Nat.zero_le _
  asleep some := .inl (asleep (by rwa [Pool.sleepers, waiters] at some))

private theorem sleepers_wakeAll (m : Pool) : m.wakeAll.sleepers = 0 := by
  refine List.countP_eq_zero.mpr fun waiter member => ?_
  obtain ⟨before, _, rfl⟩ := List.mem_map.mp member
  simp only [Waiter.wake]
  split <;> simp_all

theorem Sleep.adds (sleep : Sleep m) (orderly : Orderly m (.adds place))
    (waiters : after.waiters = m.waiters) (workers : after.workers = m.workers) (counter : m.counter ≤ after.counter) :
    Sleep after := by
  rcases orderly with positive | none
  · obtain ⟨awake, waking⟩ := sleep.quiet_of_positive positive
    exact .of_quiet waiters workers awake waking fun _ => by omega
  · have zero : m.sleepers = 0 := List.countP_eq_zero.mpr fun waiter member => by simpa using (none waiter member).1
    refine .of_quiet waiters workers (fun waiter member => (none waiter member).2) (fun worker member => ?_)
      fun some => absurd zero some
    by_contra wakes
    obtain ⟨sleepers, left, rfl⟩ := Worker.isWaking_iff.mp (by simpa using wakes)
    obtain ⟨_, same, some⟩ := sleep.waking sleepers left member
    exact some (same.symm.trans zero)

theorem Sleep.lowers (sleep : Sleep m) (positive : m.counter ≠ 0) (next : Worker)
    (waiters : after.waiters = m.waiters) (workers : after.workers = next :: m.workers.eraseIdx place)
    (wakes : next.isWaking = true → after.counter = 0 ∧ (∃ left, next = .waking m.sleepers left) ∧ m.sleepers ≠ 0)
    (asleep : m.sleepers ≠ 0 → after.counter ≠ 0 ∨ next.isWaking = true) : Sleep after := by
  obtain ⟨awake, waking⟩ := sleep.quiet_of_positive positive
  have same : after.sleepers = m.sleepers := by rw [sleepers, waiters, sleepers]
  have others (worker : Worker) (kept : worker ∈ m.workers.eraseIdx place) : worker.isWaking = false :=
    waking worker (List.mem_of_mem_eraseIdx kept)
  refine ⟨fun waiter member woken => absurd woken (awake waiter (waiters ▸ member)), fun sleepers rest member => ?_,
    ?_, fun some => (asleep (same ▸ some)).imp_right fun woken => ⟨next, workers ▸ List.mem_cons_self, woken⟩⟩
  · rw [workers] at member
    rcases List.mem_cons.mp member with rfl | kept
    · obtain ⟨zero, ⟨_, here⟩, some⟩ := wakes rfl
      cases here
      exact ⟨zero, same, some⟩
    · cases others _ kept
  · have calm : (m.workers.eraseIdx place).countP Worker.isWaking = 0 :=
      List.countP_eq_zero.mpr fun worker kept => by simp [others worker kept]
    rw [workers, List.countP_cons, calm]
    split <;> omega

theorem Sleep.wakes (sleep : Sleep m) (placed : m.workers[place]? = some (.waking count left)) :
    Sleep (m.work place (.between left)).wakeAll := by
  have zero : (m.work place (.between left)).wakeAll.sleepers = 0 := sleepers_wakeAll _
  have calm : (m.workers.eraseIdx place).countP Worker.isWaking = 0 := by
    have single := sleep.single
    rw [countP_eraseIdx placed] at single
    simp only [Worker.isWaking, if_true] at single
    omega
  refine ⟨fun waiter _ _ => ⟨(sleep.waking count left (List.mem_of_getElem? placed)).1, zero⟩,
    fun sleepers rest member => ?_, ?_, fun some => absurd zero some⟩
  · rcases List.mem_cons.mp member with here | kept
    · cases here
    · cases List.countP_eq_zero.mp calm _ kept rfl
  · have workers : (m.work place (.between left)).wakeAll.workers = .between left :: m.workers.eraseIdx place := rfl
    rw [workers, List.countP_cons, calm]
    simp [Worker.isWaking]

theorem Sleep.await (sleep : Sleep m) (placed : m.waiters[place]? = some waiter) (next : Waiter)
    (before : waiter.stage ≠ .asleep) (now : next.stage ≠ .asleep) (woken : next.stage ≠ .awake) :
    Sleep (m.await place next) := by
  refine sleep.of_waiters rfl rfl ?_ fun other member awake => ?_
  · rw [sleepers, sleepers, countP_eraseIdx placed]
    simp [Pool.await, before, now]
  · rcases List.mem_cons.mp member with rfl | kept
    · exact absurd awake woken
    · exact List.mem_of_mem_eraseIdx kept

theorem Sleep.sleeps (sleep : Sleep m) (positive : m.counter ≠ 0) : Sleep (m.await place ⟨closing, .asleep⟩) := by
  obtain ⟨awake, waking⟩ := sleep.quiet_of_positive positive
  refine ⟨fun waiter member woken => ?_, fun sleepers left member => ?_, sleep.single, fun _ => .inl positive⟩
  · rcases List.mem_cons.mp member with rfl | kept
    · cases woken
    · exact absurd woken (awake waiter (List.mem_of_mem_eraseIdx kept))
  · cases waking _ member

theorem Sleep.step (sleep : Sleep m) (orderly : Orderly m move) (does : Does m move after) : Sleep after := by
  cases does with
  | slips _ late => exact absurd late orderly.calm
  | adds => exact sleep.adds orderly rfl rfl (Nat.le_add_right ..)
  | waits | sets =>
    refine sleep.of_waiters rfl rfl rfl fun waiter member woken => ?_
    rcases List.mem_cons.mp member with rfl | kept
    · cases woken
    · exact kept
  | sleeps _ positive => exact sleep.sleeps positive
  | passes placed | returns placed => exact sleep.await placed _ nofun nofun nofun
  | shuts placed =>
    refine sleep.of_waiters rfl rfl ?_ fun waiter member _ => List.mem_of_mem_eraseIdx member
    rw [sleepers, sleepers, countP_eraseIdx placed]
    simp
  | receives placed | exits placed | rests placed | starts placed | ends placed =>
    exact sleep.work placed rfl _ rfl rfl rfl rfl
  | last _ positive last =>
    exact sleep.lowers positive _ rfl rfl (fun _ => ⟨by simp [last.1], ⟨_, rfl⟩, last.2⟩) fun _ => .inr rfl
  | lowers _ positive more =>
    refine sleep.lowers positive _ rfl rfl nofun fun some => .inl fun zero => more ⟨?_, some⟩
    simp only at zero
    omega
  | wakes placed => exact sleep.wakes placed
  | _ => exact ⟨sleep.awake, sleep.waking, sleep.single, sleep.asleep⟩

end Gofi.Cronjob.WorkerPool.Pool
