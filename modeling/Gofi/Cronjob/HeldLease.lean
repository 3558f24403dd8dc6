import Gofi.Cronjob.LeaseTiming

/-! Every step of the replicas keeps their leases ahead of them, so a run holds its
lease until it is over or cancelled. -/

namespace Gofi.Cronjob.KeepAlive

open Gofi.Concurrent Gofi.Go

variable {lockTTL : Duration}

section Starting

variable {s : State n}

theorem Sound.acquireActs (thirds : Thirds lockTTL) (sound : Sound lockTTL s)
    (stepped : step lockTTL s (.acquireActs i) = some next) : Sound lockTTL next := by
  simp only [step] at stepped
  split at stepped
  · rename_i sent acquiring
    obtain ⟨before, bound⟩ := sound.acquiring i sent acquiring
    have grown := Locker.acquire_fence_le (l := s.locker) s.now .lease lockTTL
    split at stepped
    · rename_i token locker got
      cases stepped
      obtain ⟨free, rfl, rfl⟩ := Locker.acquire_token got
      refine sound.goTo i _ (fun j token _ holds => ?_) (Nat.le_succ _) (by simp)
        (fun token holds => ?_) fun token has => ?_
      · cases free.symm.trans (sound.live thirds holds)
      · cases holds
        exact ⟨s.now + wholeMillis lockTTL, by simp, by lia, bound⟩
      · cases has
        exact .inr ⟨Nat.lt_succ_self _, le_refl _⟩
    · rename_i answer locker none_given got
      cases stepped
      rw [got] at grown
      refine sound.goTo i locker (fun j token _ _ => ?_) grown (by simp) (by simp [Stage.holds])
        (by simp [Stage.carries])
      rw [Locker.acquire_held got none_given]
  · cases stepped

theorem Sound.acquireReturns (sound : Sound lockTTL s) (thirds : Thirds lockTTL)
    (acquired : s.stages i = .acquired sent token) : Sound lockTTL (s.goTo i (.claiming s.now token)) := by
  have positive := thirds.positive
  refine sound.goOn i (by simp) (fun other holds => ?_) fun other has => ?_
  · cases holds
    obtain ⟨expiry, held, timed⟩ := sound.holding i token (by rw [acquired]; rfl)
    rw [acquired] at timed
    obtain ⟨late, bound⟩ := timed
    exact ⟨expiry, held, by lia, by lia⟩
  · rw [acquired]
    exact has

theorem Sound.slotReturns (sound : Sound lockTTL s) (thirds : Thirds lockTTL)
    (claiming : s.stages i = .claiming sent token) :
    Sound lockTTL (s.goTo i (.running (.start lockTTL s.now token))) := by
  obtain ⟨positive, _, _, tenth⟩ := thirds
  refine sound.goOn i (by simp) (fun other holds => ?_) fun other has => ?_
  · cases holds
    obtain ⟨expiry, held, timed⟩ := sound.holding i token (by rw [claiming]; rfl)
    rw [claiming] at timed
    obtain ⟨late, bound⟩ := timed
    refine ⟨expiry, held, ?_, ?_, .inl rfl⟩
    all_goals
      simp only [Run.start]
      lia
  · rw [claiming]
    exact has

end Starting

section Renewing

variable {s : State n}

theorem Sound.running (sound : Sound lockTTL s) (running : s.stages i = .running run) :
    ∃ expiry, s.locker.held .lease = some ⟨run.token, expiry⟩ ∧
      10 * run.origin + 10 * wholeMillis lockTTL ≤ 10 * expiry + 2 * lockTTL ∧ run.Timed lockTTL s.now expiry := by
  obtain ⟨expiry, held, timed⟩ := sound.holding i run.token (by rw [running]; rfl)
  rw [running] at timed
  exact ⟨expiry, held, timed⟩

theorem Sound.ends (sound : Sound lockTTL s) (carries : (s.stages i).carries = some token) (renewing : Bool) :
    Sound lockTTL (s.goTo i (.ending token renewing)) := by
  refine sound.letGo i (by simp) rfl fun other has => ?_
  rw [carries]
  exact has

theorem Sound.rerun (sound : Sound lockTTL s) (running : s.stages i = .running run) (later : Run)
    (same : later.token = run.token) (timed : ∀ expiry, s.locker.held .lease = some ⟨run.token, expiry⟩ →
      10 * run.origin + 10 * wholeMillis lockTTL ≤ 10 * expiry + 2 * lockTTL → run.Timed lockTTL s.now expiry →
      10 * later.origin + 10 * wholeMillis lockTTL ≤ 10 * expiry + 2 * lockTTL ∧ later.Timed lockTTL s.now expiry) :
    Sound lockTTL (s.goTo i (.running later)) := by
  refine sound.goOn i (by simp) (fun token holds => ?_) fun token has => ?_
  · cases holds
    obtain ⟨expiry, held, late, ticking⟩ := sound.running running
    exact ⟨expiry, by rw [held, same], timed expiry held late ticking⟩
  · rw [running]
    simpa [Stage.carries, same] using has

theorem Sound.tick (sound : Sound lockTTL s) (thirds : Thirds lockTTL)
    (stepped : step lockTTL s (.tick i) = some next) : Sound lockTTL next := by
  simp only [step] at stepped
  split at stepped
  · rename_i token tick renewed origin running
    split at stepped <;> cases stepped
    rename_i due
    refine sound.rerun running _ rfl fun expiry held late ticking => ⟨late, ?_⟩
    obtain ⟨_, ticks⟩ := ticking
    subst due
    exact ⟨rfl, ticks, le_refl _, by simpa using thirds.positive.le, by simp⟩
  · cases stepped

theorem Ticks.le {origin tick : Time} (ticks : Ticks lockTTL origin tick) (thirds : Thirds lockTTL) :
    origin ≤ tick := by
  obtain ⟨positive, _, _, tenth⟩ := thirds
  rcases ticks with first | second
  all_goals lia

theorem Sound.renewActs (sound : Sound lockTTL s) (thirds : Thirds lockTTL)
    (running : s.stages i = .running ⟨token, next, renewed, some ⟨sent, none⟩, origin⟩) (outcome : Outcome) :
    Sound lockTTL { s.goTo i (.running ⟨token, next, renewed, some ⟨sent, some outcome⟩, origin⟩) with
      locker := (s.locker.renew s.now .lease token lockTTL).2 } := by
  have holds : (s.stages i).holds = some token := by rw [running]; rfl
  have renewing : (s.locker.renew s.now .lease token lockTTL).2.held .lease =
      some ⟨token, s.now + wholeMillis lockTTL⟩ := by
    simp [Locker.renew, sound.live thirds holds]
  obtain ⟨expiry, held, late, tick, ticks, before, bound, _⟩ := sound.running running
  have after := ticks.le thirds
  refine sound.goTo i _ (fun j other apart also => absurd (sound.alone also holds) apart) (by simp) (by simp)
    (fun other same => ?_) fun other has => ?_
  · cases same
    exact ⟨_, renewing, by dsimp only; lia, tick, ticks, before, bound, fun _ => by dsimp only; lia⟩
  · rw [running]
    exact .inl has

private theorem patience_le (positive : 0 < lockTTL) : patience lockTTL ≤ (lockTTL * 2).tdiv 3 := by
  refine Int.tdiv_le_tdiv (by decide) ?_
  simp only [Int.bmod]
  split
  all_goals
    lia

theorem before_next (thirds : Thirds lockTTL) (bound : 10 * (now - sent) ≤ lockTTL) : now ≤ sent + period lockTTL := by
  obtain ⟨_, _, _, tenth⟩ := thirds
  lia

theorem Sound.renewReturns (sound : Sound lockTTL s) (thirds : Thirds lockTTL)
    (running : s.stages i = .running ⟨token, next, renewed, some ⟨sent, some outcome⟩, origin⟩)
    (paced : Paced lockTTL s (.renewReturns i)) :
    Sound lockTTL (s.goTo i (Run.answered lockTTL ⟨token, next, renewed, some ⟨sent, some outcome⟩, origin⟩
      s.now sent outcome)) := by
  have ends : Sound lockTTL (s.goTo i (.ending token false)) := sound.ends (by rw [running]; rfl) false
  cases outcome with
  | lost => exact ends
  | renewed =>
    refine sound.rerun running _ rfl fun expiry held late ticking => ?_
    obtain ⟨tick, ticks, before, bound, extended⟩ := ticking
    exact ⟨by lia, by rw [tick]; exact before_next thirds bound, .inl tick⟩
  | error =>
    simp only [Paced, running] at paced
    simp only [Run.answered]
    split
    · rename_i patient
      refine sound.rerun running _ rfl fun expiry held late ticking => ⟨late, ?_⟩
      obtain ⟨tick, ticks, before, bound, _⟩ := ticking
      refine ⟨by rw [tick]; exact before_next thirds bound, ?_⟩
      rcases ticks with first | second
      · right
        lia
      · -- the second error in a row is met with a cancellation
        have limit := patience_le thirds.positive
        lia
    · exact ends

end Renewing

section Moves

variable {s : State n}

theorem Sound.waits (sound : Sound lockTTL s) (stepped : step lockTTL s (.wait length) = some next) :
    Sound lockTTL next := by
  simp only [step] at stepped
  split at stepped <;> cases stepped
  rename_i waits
  refine sound.wait length fun i => ?_
  exact of_decide_eq_true (List.all_eq_true.mp waits i (List.mem_finRange i))

theorem Sound.acquire (sound : Sound lockTTL s) (thirds : Thirds lockTTL) :
    Sound lockTTL (s.goTo i (.acquiring s.now)) := by
  refine sound.goOn i (fun sent same => ?_) (by simp [Stage.holds]) (by simp [Stage.carries])
  cases same
  exact ⟨le_refl _, by simpa using thirds.positive.le⟩

theorem Sound.renews (sound : Sound lockTTL s) (thirds : Thirds lockTTL)
    (stepped : step lockTTL s (.renewActs i answered) = some next) : Sound lockTTL next := by
  simp only [step] at stepped
  split at stepped
  · rename_i token tick renewed sent origin running
    cases stepped
    exact sound.renewActs thirds running _
  · rename_i token ending
    cases stepped
    refine sound.relock _ (fun j other holds => ?_) (by simp)
    rw [Locker.renew, if_neg (sound.unheld thirds ending holds)]
  · cases stepped

theorem Sound.renewFails (sound : Sound lockTTL s)
    (running : s.stages i = .running ⟨token, next, renewed, some ⟨sent, none⟩, origin⟩) :
    Sound lockTTL (s.goTo i (.running ⟨token, next, renewed, some ⟨sent, some .error⟩, origin⟩)) := by
  refine sound.rerun running _ rfl fun expiry held late ticking => ⟨late, ?_⟩
  obtain ⟨next, ticks, before, bound, _⟩ := ticking
  exact ⟨next, ticks, before, bound, by simp⟩

theorem Sound.release (sound : Sound lockTTL s) (thirds : Thirds lockTTL)
    (stepped : step lockTTL s (.release i arrives) = some next) : Sound lockTTL next := by
  simp only [step] at stepped
  split at stepped <;> cases stepped
  rename_i token ending
  refine sound.goTo i _ (fun j other _ holds => ?_) ?_ (by simp) (by simp [Stage.holds]) (by simp [Stage.carries])
  · rw [Locker.release, if_neg (sound.unheld thirds ending holds), ite_self]
  · split <;> simp

end Moves

theorem Sound.step (thirds : Thirds lockTTL) (sound : Sound lockTTL s) (paced : Paced lockTTL s move)
    (stepped : KeepAlive.step lockTTL s move = some next) : Sound lockTTL next := by
  cases move <;> simp only [KeepAlive.step] at stepped
  case wait length => exact sound.waits stepped
  case acquireActs i => exact sound.acquireActs thirds stepped
  case tick i => exact sound.tick thirds stepped
  case renewActs i answered => exact sound.renews thirds stepped
  case release i arrives => exact sound.release thirds stepped
  case acquire i =>
    split at stepped <;> cases stepped
    exact sound.acquire thirds
  case acquireFails i =>
    split at stepped <;> cases stepped
    all_goals exact sound.letGo i (by simp) rfl (by simp [Stage.carries])
  case acquireReturns i =>
    split at stepped <;> cases stepped
    rename_i sent token acquired
    exact sound.acquireReturns thirds acquired
  case slotActs slot slotTTL =>
    cases stepped
    exact sound.relock _ (fun _ _ _ => Locker.acquire_other s.now slotTTL (by simp))
      (Locker.acquire_fence_le s.now (.slot slot) slotTTL)
  case slotReturns i claimed =>
    split at stepped <;> cases stepped
    rename_i sent token claiming
    split
    · exact sound.slotReturns thirds claiming
    · exact sound.ends (by rw [claiming]; rfl) false
  case renewFails i =>
    split at stepped <;> cases stepped
    rename_i token tick renewed sent origin running
    exact sound.renewFails running
  case renewReturns i =>
    split at stepped
    · rename_i run running
      split at stepped <;> cases stepped
      rename_i sent outcome call
      obtain ⟨token, tick, renewed, call, origin⟩ := run
      subst call
      exact sound.renewReturns thirds running paced
    · cases stepped
  case finish i =>
    split at stepped <;> cases stepped
    rename_i run running
    exact sound.ends (by rw [running]; rfl) _
  case renewingEnds i =>
    split at stepped <;> cases stepped
    rename_i token ending
    exact sound.ends (by rw [ending]; rfl) false

def Initial (s : State n) : Prop := ∀ i, s.stages i = .idle

theorem Initial.sound (initial : Initial s) : Sound lockTTL s := by
  constructor <;> simp [initial _, Stage.holds, Stage.carries]

/-- Every run holds its lease until it is over or cancelled, and no two replicas
run the job, when the second error of a `Renew` in a row does not come too soon. -/
theorem lease_is_held (lockTTL : Duration) (coarse : Coarse lockTTL) (first last : State n) (initial : Initial first)
    (moves : List (Move n)) (paced : Along (step lockTTL) (Paced lockTTL) first moves)
    (run : feed (step lockTTL) first moves = some last) : Held last ∧ Exclusive last := by
  have thirds := coarse.thirds
  have sound : Sound lockTTL last :=
    paced.invariant (Sound lockTTL) (fun _ _ _ sound => sound.step thirds) initial.sound run
  exact ⟨sound.held thirds, sound.exclusive thirds⟩

namespace Sample

def ttl : Duration := 30 * Time.second

def replicas : State 2 := ⟨0, ⟨0, fun _ => none⟩, fun _ => .idle⟩

def starts (i : Fin 2) : List (Move 2) := [.acquire i, .acquireActs i, .acquireReturns i, .slotReturns i true]

def fails (seconds : Nat) : List (Move 2) := [.wait (seconds * 1000000000), .tick 0, .renewFails 0, .renewReturns 0]

def renewed : List (Move 2) :=
  starts 0 ++ [.wait 10000000000, .tick 0, .renewActs 0 true, .wait 3000000000, .renewReturns 0]

def retried : List (Move 2) := renewed ++ fails 7

/-- The lease is renewed, two `Renew` fail at once, and the third is under way
when another replica finds the lease expired. -/
def overrun : List (Move 2) := renewed ++ fails 7 ++ fails 10 ++ [.wait 10000000000, .tick 0] ++ starts 1

end Sample

theorem sample_lease_is_held :
    ∃ last, feed (step Sample.ttl) Sample.replicas Sample.retried = some last ∧ Held last ∧ Exclusive last :=
  ⟨_, rfl, lease_is_held Sample.ttl ⟨by decide, .inl (by decide)⟩ Sample.replicas _ (fun _ => rfl) Sample.retried
    (by decide) rfl⟩

/-- A slow renewal followed by two quick errors: the lease expires under a run that
is not cancelled, and another replica runs the job at the same time. -/
theorem slow_renewal_lets_two_replicas_run :
    ∃ last, feed (step Sample.ttl) Sample.replicas Sample.overrun = some last ∧ ¬ Held last ∧ ¬ Exclusive last := by
  refine ⟨_, rfl, fun held => ?_, fun exclusive => ?_⟩
  · have holder := held 0 _ rfl
    cases holder
  · cases exclusive 0 1 _ _ rfl rfl

end Gofi.Cronjob.KeepAlive
