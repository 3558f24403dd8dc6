import Gofi.Cronjob.PoolJobs

/-! What the lock of a worker pool keeps apart: once `closed` is set no batch is on its
way to the channel, and one call of `Close` closes the channel. -/

namespace Gofi.Cronjob.WorkerPool.Pool

open Gofi.Concurrent

/-- The steps of a run that use the wait group as it asks for: a batch raises the
counter from zero only when no call of `Wait` is asleep or has just been woken up, and a
call of `EnqueueJobBatch` leaves fewer than 2^31 jobs outstanding. -/
def Orderly (m : Pool) : Move → Prop
  | .enqueues size => m.outstanding + size < 2 ^ 31
  | .adds _ => m.counter ≠ 0 ∨ ∀ waiter ∈ m.waiters, waiter.stage ≠ .asleep ∧ waiter.stage ≠ .awake
  | _ => True

instance (m : Pool) : (move : Move) → Decidable (Orderly m move)
  | .enqueues _ => inferInstanceAs (Decidable (_ < _))
  | .adds _ => inferInstanceAs (Decidable (_ ∨ _))
  | .rlocks _ | .looks _ | .sends _ | .runlocks _ | .waits | .registers _ | .returns _ | .shuts _ | .closes
  | .announces _ | .acquires _ | .sets _ | .receives _ | .starts _ | .ends _ | .lowers _ | .wakes _ => .isTrue trivial

/-- The read lock keeps `closed` as `EnqueueJobBatch` has seen it, and the call of
`Close` that sets it is the one that closes the channel, when the counter is zero. -/
structure Locks (m : Pool) : Prop where
  holding : .holding ∈ m.closers → ∀ call ∈ m.enqueues, call.stage = .called
  closed : m.closed = true → ∀ call ∈ m.enqueues,
    call.stage ≠ .adding ∧ call.stage ≠ .sending ∧ call.stage ≠ .unlocking true
  owner : m.waiters.countP (·.closing) + (if m.channelClosed then 1 else 0) = if m.closed then 1 else 0
  finished : m.finished = m.channelClosed
  past : m.channelClosed = true ∨ ⟨true, .past⟩ ∈ m.waiters → m.counter = 0

theorem Locks.new (size : Nat) : (new size).Locks := by
  refine ⟨?_, ?_, ?_, ?_, ?_⟩ <;> simp [Pool.new]

variable {m : Pool}

theorem Locks.closed_of_past (locks : Locks m) (past : m.channelClosed = true ∨ ⟨true, stage⟩ ∈ m.waiters) :
    m.closed = true := by
  have owner := locks.owner
  rcases past with shut | member
  · simp only [shut, if_true] at owner
    cases closed : m.closed with
    | true => rfl
    | false => simp [closed] at owner
  · have positive : 0 < m.waiters.countP (·.closing) := List.countP_pos_iff.mpr ⟨_, member, rfl⟩
    cases closed : m.closed with
    | true => rfl
    | false =>
      simp only [closed, Bool.false_eq_true, if_false] at owner
      omega

theorem Locks.of_enqueue {after : Pool} (locks : Locks m) (next : List Enqueue)
    (enqueues : after.enqueues = next ++ m.enqueues.eraseIdx place)
    (closers : after.closers = m.closers) (closed : after.closed = m.closed) (waiters : after.waiters = m.waiters)
    (channel : after.channelClosed = m.channelClosed) (finished : after.finished = m.finished)
    (unlocked : .holding ∉ m.closers) (open_ : m.closed = true → ∀ call ∈ next,
      call.stage ≠ .adding ∧ call.stage ≠ .sending ∧ call.stage ≠ .unlocking true)
    (counter : m.closed = true → m.counter = 0 → after.counter = 0) : Locks after where
  holding held := absurd (closers ▸ held) unlocked
  closed set call present := by
    rw [closed] at set
    rw [enqueues] at present
    rcases List.mem_append.mp present with new | kept
    · exact open_ set call new
    · exact locks.closed set call (List.mem_of_mem_eraseIdx kept)
  owner := by rw [waiters, channel, closed]; exact locks.owner
  finished := by rw [finished, channel]; exact locks.finished
  past spent := by
    rw [channel, waiters] at spent
    exact counter (locks.closed_of_past spent) (locks.past spent)

theorem not_holding_of_reading {place : Nat} {call : Enqueue} (locks : Locks m)
    (placed : m.enqueues[place]? = some call) (reads : call.stage ≠ .called) : .holding ∉ m.closers :=
  fun held => reads (locks.holding held call (List.mem_of_getElem? placed))

private theorem not_holding_of_not_writing (free : ¬m.writing = true) : .holding ∉ m.closers :=
  fun held => free (List.any_eq_true.mpr ⟨_, held, rfl⟩)

theorem Orderly.calm (orderly : Orderly m (.adds place)) : ¬ (m.counter = 0 ∧ m.sleepers ≠ 0) := by
  rintro ⟨zero, some⟩
  rcases orderly with positive | none
  · exact positive zero
  · refine some (List.countP_eq_zero.mpr fun waiter member => ?_)
    simpa using (none waiter member).1

theorem Locks.of_waiters {after : Pool} (locks : Locks m) (enqueues : after.enqueues = m.enqueues)
    (closers : after.closers = m.closers) (closed : after.closed = m.closed)
    (channel : after.channelClosed = m.channelClosed) (finished : after.finished = m.finished)
    (counter : m.counter = 0 → after.counter = 0)
    (owners : after.waiters.countP (·.closing) = m.waiters.countP (·.closing))
    (past : ⟨true, .past⟩ ∈ after.waiters → ⟨true, .past⟩ ∈ m.waiters ∨ m.counter = 0) : Locks after where
  holding := by rw [closers, enqueues]; exact locks.holding
  closed := by rw [closed, enqueues]; exact locks.closed
  owner := by rw [owners, channel, closed]; exact locks.owner
  finished := by rw [finished, channel]; exact locks.finished
  past spent := by
    rw [channel] at spent
    rcases spent with shut | member
    · exact counter (locks.past (.inl shut))
    · rcases past member with before | zero
      · exact counter (locks.past (.inr before))
      · exact counter zero

theorem Waiter.wake_closing (waiter : Waiter) : waiter.wake.closing = waiter.closing := by
  simp only [Waiter.wake]
  split <;> rfl

theorem Waiter.past_of_wake {waiter : Waiter} (past : waiter.wake = ⟨closing, .past⟩) : waiter = ⟨closing, .past⟩ := by
  simp only [Waiter.wake] at past
  split at past
  · cases past
  · exact past

theorem Locks.wakeAll (locks : Locks m) : Locks m.wakeAll := by
  refine locks.of_waiters rfl rfl rfl rfl rfl id ?_ fun member => ?_
  · simp [Pool.wakeAll, List.countP_map, Function.comp_def, Waiter.wake_closing]
  · obtain ⟨waiter, before, past⟩ := List.mem_map.mp member
    exact .inl (Waiter.past_of_wake past ▸ before)

theorem Locks.await (locks : Locks m) (placed : m.waiters[place]? = some ⟨closing, stage⟩) (next : WaitStage)
    (past : next = .past → m.counter = 0) : Locks (m.await place ⟨closing, next⟩) := by
  refine locks.of_waiters rfl rfl rfl rfl rfl id ?_ fun member => ?_
  · rw [countP_eraseIdx placed]
    simp only [Pool.await, List.countP_cons]
    omega
  · rcases List.mem_cons.mp member with here | kept
    · cases here
      exact .inr (past rfl)
    · exact .inl (List.mem_of_mem_eraseIdx kept)

theorem Locks.step (locks : Locks m) (orderly : Orderly m move) (does : Does m move after) : Locks after := by
  cases does with
  | enqueues =>
    refine { locks with holding := fun held call present => ?_, closed := fun set call present => ?_ }
    · rcases List.mem_cons.mp present with rfl | kept
      · rfl
      · exact locks.holding held call kept
    · rcases List.mem_cons.mp present with rfl | kept
      · exact ⟨nofun, nofun, nofun⟩
      · exact locks.closed set call kept
  | rlocks _ free =>
    exact locks.of_enqueue [_] rfl rfl rfl rfl rfl rfl (not_holding_of_not_writing free) (by simp) fun _ zero => zero
  | refuses placed closed =>
    exact locks.of_enqueue [_] rfl rfl rfl rfl rfl rfl (not_holding_of_reading locks placed nofun) (by simp)
      fun _ zero => zero
  | looks placed opened =>
    exact locks.of_enqueue [_] rfl rfl rfl rfl rfl rfl (not_holding_of_reading locks placed nofun)
      (fun set => absurd set opened) fun _ zero => zero
  | slips _ late => exact absurd late orderly.calm
  | adds placed =>
    have opened (set : m.closed = true) : False := (locks.closed set _ (List.mem_of_getElem? placed)).1 rfl
    exact locks.of_enqueue [_] rfl rfl rfl rfl rfl rfl (not_holding_of_reading locks placed nofun)
      (fun set => (opened set).elim) fun set => (opened set).elim
  | sends placed =>
    have opened (set : m.closed = true) : False := (locks.closed set _ (List.mem_of_getElem? placed)).2.1 rfl
    exact locks.of_enqueue [_] rfl rfl rfl rfl rfl rfl (not_holding_of_reading locks placed nofun)
      (fun set => (opened set).elim) fun set => (opened set).elim
  | runlocks placed =>
    exact locks.of_enqueue [] rfl rfl rfl rfl rfl rfl (not_holding_of_reading locks placed nofun)
      (by simp) fun _ zero => zero
  | waits => exact locks.of_waiters rfl rfl rfl rfl rfl id (by simp) (by simp +contextual)
  | passes placed zero => exact locks.await placed _ fun _ => zero
  | sleeps placed => exact locks.await placed _ nofun
  | returns placed zero => exact locks.await placed _ fun _ => zero.1
  | shuts placed opened =>
    refine ⟨locks.holding, locks.closed, ?_, rfl, fun _ => locks.past (.inr (List.mem_of_getElem? placed))⟩
    have owner := locks.owner
    rw [countP_eraseIdx placed] at owner
    simpa [opened, Nat.add_comm] using owner
  | closes =>
    exact { locks with holding := fun held => locks.holding (by simpa using held) }
  | announces =>
    exact { locks with holding := fun held => locks.holding (List.mem_of_mem_eraseIdx (by simpa using held)) }
  | acquires _ free =>
    refine { locks with holding := fun _ call present => ?_ }
    simp only [reading, Bool.not_eq_true, List.any_eq_false] at free
    simpa [Enqueue.reading] using free call present
  | yields =>
    exact { locks with holding := fun held => locks.holding (List.mem_of_mem_eraseIdx held) }
  | sets placed opened =>
    have called := locks.holding (List.mem_of_getElem? placed)
    have owner := locks.owner
    refine ⟨fun _ => called, fun _ call present => ?_, ?_, locks.finished, fun spent =>
      locks.past (by simpa using spent)⟩
    · simp [called call present]
    · simp only [opened, Bool.false_eq_true, if_false] at owner
      simp only [List.countP_cons, if_true]
      omega
  | last _ positive | lowers _ positive =>
    exact { locks with past := fun spent => absurd (locks.past spent) positive }
  | @wakes place _ left =>
    have worked : Locks (m.work place (.between left)) :=
      { locks with }
    exact worked.wakeAll
  | receives | exits | rests | starts | ends | fails =>
    exact { locks with }

end Gofi.Cronjob.WorkerPool.Pool
