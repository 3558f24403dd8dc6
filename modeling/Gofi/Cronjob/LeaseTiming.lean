import Gofi.Cronjob.KeepAlive

/-! The lease of a run is held as long as the run is not cancelled. What carries
the proof is how far a replica may be behind the expiry of its lease: a tenth of
the ttl for each call of its start, two ticks and a call afterwards. -/

namespace Gofi.Cronjob.KeepAlive

open Gofi.Concurrent Gofi.Go

variable {lockTTL : Duration}

/-- The token that a replica has, and may still renew or release with. -/
def Stage.carries : Stage → Option Nat
  | .acquired _ token | .claiming _ token | .ending token _ => some token
  | .running run => some run.token
  | .idle | .acquiring _ => none

def Stage.holds : Stage → Option Nat
  | .acquired _ token | .claiming _ token => some token
  | .running run => some run.token
  | .idle | .acquiring _ | .ending _ _ => none

variable {stage : Stage}

theorem Stage.carries_of_holds (holds : stage.holds = some token) : stage.carries = some token := by
  cases stage <;> simp_all [Stage.holds, Stage.carries]

def Ticks (lockTTL : Duration) (origin tick : Time) : Prop :=
  tick = origin + period lockTTL ∨ tick = origin + 2 * period lockTTL

/-- The ticks and the call of a run, with the expiry of its lease. -/
def Run.Timed (lockTTL : Duration) (now expiry : Time) (run : Run) : Prop :=
  match run.call with
  | none => now ≤ run.next ∧ Ticks lockTTL run.origin run.next
  | some call => run.next = call.sent + period lockTTL ∧ Ticks lockTTL run.origin call.sent ∧ call.sent ≤ now ∧
      10 * (now - call.sent) ≤ lockTTL ∧ (call.outcome = some .renewed → call.sent + wholeMillis lockTTL ≤ expiry)

def Stage.Timed (lockTTL : Duration) (now expiry : Time) : Stage → Prop
  | .acquired sent _ => sent + wholeMillis lockTTL ≤ expiry ∧ 10 * (now - sent) ≤ lockTTL
  | .claiming sent _ => 10 * sent + 10 * wholeMillis lockTTL ≤ 10 * expiry + lockTTL ∧ 10 * (now - sent) ≤ lockTTL
  | .running run =>
    10 * run.origin + 10 * wholeMillis lockTTL ≤ 10 * expiry + 2 * lockTTL ∧ run.Timed lockTTL now expiry
  | _ => True

structure Thirds (lockTTL : Duration) : Prop where
  positive : 0 < lockTTL
  whole : 29 * lockTTL < 30 * wholeMillis lockTTL
  third : 3 * period lockTTL ≤ lockTTL
  tenth : lockTTL ≤ 10 * period lockTTL

theorem Coarse.thirds (coarse : Coarse lockTTL) : Thirds lockTTL := by
  obtain ⟨positive, fine⟩ := coarse
  have millis := Int.mul_tdiv_add_tmod lockTTL 1000000
  have rest := Int.tmod_lt_of_pos lockTTL (show 0 < 1000000 by decide)
  simp only [Time.millisecond] at fine
  refine ⟨positive, ?_, ?_, ?_⟩
  · simp only [wholeMillis, Time.millisecond]
    rcases fine with whole | long
    all_goals lia
  · simp only [period]
    lia
  · simp only [period]
    lia

theorem Stage.Timed.live (thirds : Thirds lockTTL) (holds : stage.holds = some token)
    (timed : stage.Timed lockTTL now expiry) : now < expiry := by
  obtain ⟨positive, whole, third, _⟩ := thirds
  cases stage with
  | idle | acquiring _ | ending _ _ => cases holds
  | acquired sent _ | claiming sent _ =>
    obtain ⟨late, bound⟩ := timed
    lia
  | running run =>
    obtain ⟨late, ticking⟩ := timed
    unfold Run.Timed at ticking
    split at ticking
    · obtain ⟨before, ticks⟩ := ticking
      rcases ticks with first | second
      all_goals lia
    · obtain ⟨_, ticks, _, bound, _⟩ := ticking
      rcases ticks with first | second
      all_goals lia

structure Sound (lockTTL : Duration) (s : State n) : Prop where
  acquiring : ∀ i sent, s.stages i = .acquiring sent → sent ≤ s.now ∧ 10 * (s.now - sent) ≤ lockTTL
  holding : ∀ i token, (s.stages i).holds = some token →
    ∃ expiry, s.locker.held .lease = some ⟨token, expiry⟩ ∧ (s.stages i).Timed lockTTL s.now expiry
  known : ∀ i token, (s.stages i).carries = some token → token ≤ s.locker.fence
  apart : ∀ i j token, (s.stages i).carries = some token → (s.stages j).carries = some token → i = j

variable {s : State n}

theorem Sound.live (sound : Sound lockTTL s) (thirds : Thirds lockTTL)
    (holds : (s.stages i).holds = some token) : s.locker.holder s.now .lease = some token := by
  obtain ⟨expiry, held, timed⟩ := sound.holding i token holds
  exact Locker.holder_eq_some.mpr ⟨expiry, held, timed.live thirds holds⟩

theorem Sound.held (sound : Sound lockTTL s) (thirds : Thirds lockTTL) : Held s :=
  fun i run running => sound.live thirds (by rw [running]; rfl)

theorem Sound.exclusive (sound : Sound lockTTL s) (thirds : Thirds lockTTL) : Exclusive s := by
  intro i j first second running also
  have same : some first.token = some second.token :=
    (sound.held thirds i first running).symm.trans (sound.held thirds j second also)
  refine sound.apart i j first.token ?_ ?_
  · rw [running]
    rfl
  · rw [also, Option.some.inj same]
    rfl

@[simp] theorem goTo_self (s : State n) (i : Fin n) (stage : Stage) : (s.goTo i stage).stages i = stage :=
  Function.update_self ..

theorem goTo_other (s : State n) (stage : Stage) (apart : j ≠ i) : (s.goTo i stage).stages j = s.stages j :=
  Function.update_of_ne apart ..

theorem Sound.goTo (sound : Sound lockTTL s) (i : Fin n) (locker : Locker)
    (others : ∀ j token, j ≠ i → (s.stages j).holds = some token → locker.held .lease = s.locker.held .lease)
    (grown : s.locker.fence ≤ locker.fence)
    (acquiring : ∀ sent, stage = .acquiring sent → sent ≤ s.now ∧ 10 * (s.now - sent) ≤ lockTTL)
    (holding : ∀ token, stage.holds = some token →
      ∃ expiry, locker.held .lease = some ⟨token, expiry⟩ ∧ stage.Timed lockTTL s.now expiry)
    (carries : ∀ token, stage.carries = some token →
      (s.stages i).carries = some token ∨ s.locker.fence < token ∧ token ≤ locker.fence) :
    Sound lockTTL { s.goTo i stage with locker } := by
  have other (j : Fin n) (apart : j ≠ i) (token : Nat) (new : stage.carries = some token) :
      (s.stages j).carries ≠ some token := by
    intro old
    rcases carries token new with same | ⟨above, _⟩
    · exact apart (sound.apart j i token old same)
    · exact absurd (sound.known j token old) (by lia)
  refine ⟨fun j sent at_ => ?_, fun j token holds => ?_, fun j token has => ?_, fun j k token has also => ?_⟩
  · by_cases same : j = i
    · subst same
      exact acquiring sent ((goTo_self s j stage).symm.trans at_)
    · exact sound.acquiring j sent ((goTo_other s stage same).symm.trans at_)
  · by_cases same : j = i
    · subst same
      simp only [goTo_self] at holds ⊢
      exact holding token holds
    · simp only [goTo_other s stage same] at holds ⊢
      rw [others j token same holds]
      exact sound.holding j token holds
  · by_cases same : j = i
    · subst same
      simp only [goTo_self] at has
      rcases carries token has with old | ⟨_, bound⟩
      · exact (sound.known j token old).trans grown
      · exact bound
    · simp only [goTo_other s stage same] at has
      exact (sound.known j token has).trans grown
  · by_cases first : j = i <;> by_cases second : k = i
    · rw [first, second]
    · subst first
      simp only [goTo_self] at has
      simp only [goTo_other s stage second] at also
      exact absurd also (other k second token has)
    · subst second
      simp only [goTo_self] at also
      simp only [goTo_other s stage first] at has
      exact absurd has (other j first token also)
    · simp only [goTo_other s stage first] at has
      simp only [goTo_other s stage second] at also
      exact sound.apart j k token has also

theorem Sound.alone (sound : Sound lockTTL s) (first : (s.stages i).holds = some token)
    (second : (s.stages j).holds = some other) : i = j := by
  obtain ⟨_, held, _⟩ := sound.holding i token first
  obtain ⟨_, also, _⟩ := sound.holding j other second
  cases held.symm.trans also
  exact sound.apart i j token (Stage.carries_of_holds first) (Stage.carries_of_holds second)

theorem Sound.unheld (sound : Sound lockTTL s) (thirds : Thirds lockTTL)
    (ending : s.stages i = .ending token renewing) (holds : (s.stages j).holds = some other) :
    s.locker.holder s.now .lease ≠ some token := by
  intro mine
  cases mine.symm.trans (sound.live thirds holds)
  have same := sound.apart i j token (by rw [ending]; rfl) (Stage.carries_of_holds holds)
  rw [← same, ending] at holds
  cases holds

theorem Sound.relock (sound : Sound lockTTL s) (locker : Locker)
    (same : ∀ j token, (s.stages j).holds = some token → locker.held .lease = s.locker.held .lease)
    (grown : s.locker.fence ≤ locker.fence) : Sound lockTTL { s with locker } := by
  refine ⟨sound.acquiring, fun j token holds => ?_, fun j token has => (sound.known j token has).trans grown,
    sound.apart⟩
  simpa only [same j token holds] using sound.holding j token holds

theorem Sound.goOn (sound : Sound lockTTL s) (i : Fin n)
    (acquiring : ∀ sent, stage = .acquiring sent → sent ≤ s.now ∧ 10 * (s.now - sent) ≤ lockTTL)
    (holding : ∀ token, stage.holds = some token →
      ∃ expiry, s.locker.held .lease = some ⟨token, expiry⟩ ∧ stage.Timed lockTTL s.now expiry)
    (carries : ∀ token, stage.carries = some token → (s.stages i).carries = some token) :
    Sound lockTTL (s.goTo i stage) :=
  sound.goTo i s.locker (fun _ _ _ _ => rfl) (le_refl _) acquiring holding fun token has => .inl (carries token has)

theorem Sound.letGo (sound : Sound lockTTL s) (i : Fin n) (quiet : ∀ sent, stage ≠ .acquiring sent)
    (idle : stage.holds = none) (carries : ∀ token, stage.carries = some token → (s.stages i).carries = some token) :
    Sound lockTTL (s.goTo i stage) :=
  sound.goOn i (fun sent same => absurd same (quiet sent)) (by simp [idle]) carries

theorem Stage.Timed.wait (timed : stage.Timed lockTTL now expiry) (waits : stage.Waits lockTTL later)
    (passed : now ≤ later) : stage.Timed lockTTL later expiry := by
  cases stage with
  | idle | acquiring _ | ending _ _ => trivial
  | acquired _ _ | claiming _ _ => exact ⟨timed.1, waits⟩
  | running run =>
    obtain ⟨token, next, renewed, call, origin⟩ := run
    refine ⟨timed.1, ?_⟩
    cases call with
    | none => exact ⟨waits, timed.2.2⟩
    | some call =>
      obtain ⟨_, next, ticks, sent, _, outcome⟩ := timed
      exact ⟨next, ticks, sent.trans passed, waits, outcome⟩

theorem Sound.wait (sound : Sound lockTTL s) (length : Nat)
    (waits : ∀ i, (s.stages i).Waits lockTTL (s.now + length)) :
    Sound lockTTL { s with now := s.now + length } := by
  refine ⟨fun i sent at_ => ?_, fun i token holds => ?_, sound.known, sound.apart⟩
  · have within := waits i
    rw [at_] at within
    exact ⟨(sound.acquiring i sent at_).1.trans (by simp), within⟩
  · obtain ⟨expiry, held, timed⟩ := sound.holding i token holds
    exact ⟨expiry, held, timed.wait (waits i) (by simp)⟩

end Gofi.Cronjob.KeepAlive
