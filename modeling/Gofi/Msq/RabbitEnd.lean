import Gofi.Msq.RabbitConsume

/-! `provider/rabbitmq`: `Consume` ends with its context. The end of the context
closes the channel that is current at that moment, and nothing but the end of its
stream takes the loop out of draining a channel. -/

namespace Gofi.Msq.RabbitMQ

open Gofi.Concurrent

def Phase.channel : Phase → Option Nat
  | .registering channel | .refused channel | .failed channel | .draining channel => some channel
  | _ => none

def Phase.remaining : Phase → Nat
  | .closing => 1
  | .leaving => 2
  | .drained | .refused _ | .sleeping => 3
  | .failed _ | .draining _ => 4
  | .registering _ => 5
  | .top => 6
  | .waiting _ => 7
  | .held => 8
  | .alive => 9
  | _ => 0

def Closer.remaining : Closer → Nat
  | .armed => 2
  | .picked _ => 1
  | _ => 0

def Phase.replacing : Phase → Bool
  | .opening | .installing _ => true
  | _ => false

theorem Phase.replacing_eq_false (phase : Phase) :
    phase.replacing = false ↔ phase ≠ .opening ∧ ∀ channel, phase ≠ .installing channel := by
  cases phase <;> simp [replacing]

namespace Consumer

/-- The context does not end while a channel is being opened and put in place, and
a wait whose context has ended does not end by its timer. -/
def EndsInTime (c : Consumer) : Move → Prop
  | .contextEnds => c.phase ≠ .opening ∧ ∀ channel, c.phase ≠ .installing channel
  | .slept => c.ended = false
  | _ => True

/-- The consumer is not registered on a channel opened after the context ended. -/
def RegistersInTime (c : Consumer) : Move → Prop
  | .registers => ∀ channel, c.phase = .registering channel → (c.channels channel).late = false
  | _ => True

structure Orderly (c : Consumer) : Prop where
  live : ∀ channel, (c.channels channel).live = true → c.phase = .draining channel
  working : ∀ channel, c.phase.channel = some channel → channel = c.current
  replacing : c.ended = true → c.phase ≠ .opening ∧ ∀ channel, c.phase ≠ .installing channel
  picked : ∀ channel, c.closer = .picked channel → c.ended = true ∧ channel = c.current
  done : c.closer = .done → c.ended = true ∧ (c.channels c.current).isOpen = false
  armed : c.phase ≠ .before → c.phase ≠ .closing → c.phase ≠ .returned → c.closer ≠ .unarmed ∧ c.closer ≠ .stopped
  early : ∀ channel, (c.channels channel).late = false

theorem Orderly.start : Consumer.start.Orderly := by
  constructor <;> simp [Consumer.start, Phase.channel]

variable {c : Consumer}

private theorem live_step (live : ∀ channel, (c.channels channel).live = true → c.phase = .draining channel)
    (stepped : c.step capacity move = some after) (channel : Nat) (registered : (after.channels channel).live = true) :
    after.phase = .draining channel := by
  have before := live channel
  cases does_of_step stepped with
  | turns turn =>
    cases turn <;> simp_all
  | registers | opens | pauseCancels | closerCloses | lost | cancelled =>
    simp only [onChannel, Function.update_apply, close, cancel] at registered ⊢
    grind [Channel.live]
  | _ => simp_all

private theorem working_step (working : ∀ channel, c.phase.channel = some channel → channel = c.current)
    (stepped : c.step capacity move = some after) (channel : Nat) (works : after.phase.channel = some channel) :
    channel = after.current := by
  have before := working channel
  cases does_of_step stepped with
  | turns turn => cases turn <;> simp_all [Phase.channel]
  | swaps =>
    split at works <;> cases works
  | registers | opens => simp_all [Phase.channel, onChannel]
  | begins | installs | stops => cases works
  | _ => exact before works

private theorem replacing_step (replacing : c.ended = true → c.phase ≠ .opening ∧
    ∀ channel, c.phase ≠ .installing channel)
    (inTime : c.EndsInTime move) (stepped : c.step capacity move = some after) (ended : after.ended = true) :
    after.phase ≠ .opening ∧ ∀ channel, after.phase ≠ .installing channel := by
  cases does_of_step stepped with
  | turns turn => cases turn <;> simp_all [EndsInTime]
  | contextEnds => exact inTime
  | swaps => cases c.canceled <;> simp
  | opens here => exact absurd here (replacing ended).1
  | begins | registers | installs | stops => exact ⟨nofun, nofun⟩
  | _ => exact replacing ended

private theorem picked_step (replacing : c.ended = true → c.phase ≠ .opening ∧
    ∀ channel, c.phase ≠ .installing channel)
    (picked : ∀ channel, c.closer = .picked channel → c.ended = true ∧ channel = c.current)
    (stepped : c.step capacity move = some after) (channel : Nat) (closing : after.closer = .picked channel) :
    after.ended = true ∧ channel = after.current := by
  have before := picked channel
  cases does_of_step stepped with
  | installs here => exact absurd here ((replacing (before closing).1).2 _)
  | stops => exact before (by grind)
  | closerReads armed ended => exact ⟨ended, by cases closing; rfl⟩
  | begins | closerCloses => cases closing
  | contextEnds => exact ⟨rfl, (before closing).2⟩
  | _ => exact before closing

theorem done_step (replacing : c.ended = true → c.phase ≠ .opening ∧ ∀ channel, c.phase ≠ .installing channel)
    (picked : ∀ channel, c.closer = .picked channel → c.ended = true ∧ channel = c.current)
    (done : c.closer = .done → c.ended = true ∧ (c.channels c.current).isOpen = false)
    (stepped : c.step capacity move = some after) (closed : after.closer = .done) :
    after.ended = true ∧ (after.channels after.current).isOpen = false := by
  cases does_of_step stepped with
  | opens here => exact absurd here (replacing (done closed).1).1
  | installs here => exact absurd here ((replacing (done closed).1).2 _)
  | stops => exact done (by grind)
  | begins | closerReads => cases closed
  | contextEnds => exact ⟨rfl, (done closed).2⟩
  | registers | pauseCancels | lost | cancelled =>
    obtain ⟨ended, shut⟩ := done closed
    refine ⟨ended, ?_⟩
    simp only [onChannel, Function.update_apply, close, cancel]
    grind
  | closerCloses aimed =>
    obtain ⟨ended, rfl⟩ := picked _ aimed
    exact ⟨ended, by simp [onChannel, close]⟩
  | _ => exact done closed

private theorem armed_step (armed : c.phase ≠ .before → c.phase ≠ .closing → c.phase ≠ .returned →
      c.closer ≠ .unarmed ∧ c.closer ≠ .stopped)
    (stepped : c.step capacity move = some after) : after.phase ≠ .before → after.phase ≠ .closing →
      after.phase ≠ .returned → after.closer ≠ .unarmed ∧ after.closer ≠ .stopped := by
  cases does_of_step stepped with
  | turns turn => cases turn <;> simp_all
  | begins | closerReads | closerCloses => exact fun _ _ _ => ⟨nofun, nofun⟩
  | registers here | swaps here | opens here | installs here => simp_all [onChannel]
  | stops => exact fun _ other => absurd rfl other
  | _ => exact armed

private theorem early_step (replacing : c.ended = true → c.phase ≠ .opening ∧ ∀ channel, c.phase ≠ .installing channel)
    (early : ∀ channel, (c.channels channel).late = false)
    (stepped : c.step capacity move = some after) (channel : Nat) : (after.channels channel).late = false := by
  have before := early channel
  cases does_of_step stepped with
  | opens here =>
    have ended : c.ended = false := Bool.eq_false_iff.mpr fun ended => (replacing ended).1 here
    by_cases same : channel = c.opened <;> simp [onChannel, same, ended, early]
  | registers | pauseCancels | closerCloses | lost | cancelled =>
    simp only [onChannel, Function.update_apply, close, cancel]
    split <;> simp_all
  | _ => exact before

theorem Orderly.step (orderly : Orderly c) (inTime : c.EndsInTime move)
    (stepped : c.step capacity move = some after) : Orderly after where
  live := live_step orderly.live stepped
  working := working_step orderly.working stepped
  replacing := replacing_step orderly.replacing inTime stepped
  picked := picked_step orderly.replacing orderly.picked stepped
  done := done_step orderly.replacing orderly.picked orderly.done stepped
  armed := armed_step orderly.armed stepped
  early := early_step orderly.replacing orderly.early stepped

def ownMoves : List Move :=
  [.reads, .registers, .refuses, .checksContext, .checksClosed, .enqueues, .streamEnds, .swaps, .readsGate, .wakes,
    .waitEnds, .slept, .sleepEnds, .opens, .openFails, .installs, .stops, .poolCloses, .closerReads, .closerCloses,
    .dropped, .handled]

def remaining (c : Consumer) : Nat :=
  c.phase.remaining + c.closer.remaining + 2 * c.buffered + c.jobs

structure Ending (c : Consumer) : Prop extends Orderly c where
  ended : c.ended = true
  begun : c.phase ≠ .before

def Draining (c : Consumer) (move : Move) : Prop := c.EndsInTime move ∧ move ≠ .arrives

theorem Ending.step (ending : Ending c) (drains : c.Draining move) (stepped : c.step capacity move = some after) :
    Ending after := by
  refine ⟨ending.toOrderly.step drains.1 stepped, ?_, ?_⟩
  · cases does_of_step stepped with
    | contextEnds => rfl
    | _ => exact ending.ended
  · cases does_of_step stepped with
    | turns turn => cases turn <;> exact nofun
    | begins | registers | opens | installs | stops => exact nofun
    | swaps => cases c.canceled <;> simp
    | _ => exact ending.begun

theorem Ending.nearer (ending : Ending c) (drains : c.Draining move) (stepped : c.step capacity move = some after) :
    after.remaining + (if move ∈ ownMoves then 1 else 0) ≤ c.remaining := by
  have ended := ending.ended
  have begun := ending.begun
  have replacing := ending.replacing
  have cost : (if move ∈ ownMoves then 1 else 0) ≤ 1 := by split <;> decide
  obtain ⟨inTime, others⟩ := drains
  cases does_of_step stepped with
  | @turns _ next turn =>
    have lower : next.remaining < c.phase.remaining := by cases turn <;> simp_all [Phase.remaining, EndsInTime]
    simp only [remaining]
    lia
  | arrives => exact absurd rfl others
  | begins here => exact absurd here begun
  | opens here => exact absurd here (replacing ended).1
  | installs here => exact absurd here ((replacing ended).2 _)
  | swaps here =>
    cases c.canceled <;> simp only [remaining, here, Phase.remaining, if_true, if_false, Bool.false_eq_true] <;> omega
  | stops here =>
    have closer : Closer.remaining (if c.closer = .armed then .stopped else c.closer) ≤ c.closer.remaining := by
      split
      · exact Nat.zero_le _
      · exact Nat.le_refl _
    simp only [remaining, here, Phase.remaining]
    omega
  | registers here | closerReads here | closerCloses here =>
    simp only [remaining, onChannel, here, Phase.remaining, Closer.remaining]
    omega
  | enqueues _ allowed | dropped _ _ allowed | handled allowed => simp only [remaining]; omega
  | _ => simp [remaining, onChannel, ownMoves]

theorem Ending.goes_on (ending : Ending c) (room : 0 < capacity) :
    c.phase = .returned ∨ ∃ move ∈ ownMoves, c.EndsInTime move ∧ c.step capacity move ≠ none := by
  have ended := ending.ended
  have finish : 0 < c.jobs → ∃ move ∈ ownMoves, c.EndsInTime move ∧ c.step capacity move ≠ none :=
    fun busy => ⟨.handled, by decide, trivial, by simp [Consumer.step, busy]⟩
  cases phase : c.phase with
  | returned => exact .inl rfl
  | draining channel =>
    right
    cases live : (c.channels channel).live with
    | false =>
      by_cases taken : c.buffered = 0
      · exact ⟨.streamEnds, by decide, trivial, by simp [Consumer.step, phase, live, taken]⟩
      · by_cases free : c.jobs < capacity
        · exact ⟨.enqueues, by decide, trivial, by simp [Consumer.step, phase, free]; lia⟩
        · exact finish (by lia)
    | true =>
      -- The channel is current, so the end of the context has still to close it.
      have current := ending.working channel (by simp [phase, Phase.channel])
      have armed := ending.armed (by simp [phase]) (by simp [phase]) (by simp [phase])
      cases closer : c.closer with
      | unarmed => exact absurd closer armed.1
      | stopped => exact absurd closer armed.2
      | armed => exact ⟨.closerReads, by decide, trivial, by simp [Consumer.step, closer, ended]⟩
      | picked channel => exact ⟨.closerCloses, by decide, trivial, by simp [Consumer.step, closer]⟩
      | done =>
        have closed := (ending.done closer).2
        rw [← current] at closed
        simp [Channel.live, closed] at live
  | closing =>
    right
    by_cases idle : c.jobs = 0
    · exact ⟨.poolCloses, by decide, trivial, by simp [Consumer.step, phase, idle]⟩
    · exact finish (by lia)
  | before => exact absurd phase ending.begun
  | opening => exact absurd phase (ending.replacing ended).1
  | installing channel => exact absurd phase ((ending.replacing ended).2 channel)
  | top => exact .inr ⟨.reads, by decide, trivial, by simp [Consumer.step, phase]⟩
  | registering channel => exact .inr ⟨.refuses, by decide, trivial, by simp [Consumer.step, phase]⟩
  | refused channel => exact .inr ⟨.checksContext, by decide, trivial, by simp [Consumer.step, phase]⟩
  | failed channel => exact .inr ⟨.checksClosed, by decide, trivial, by simp [Consumer.step, phase]⟩
  | drained => exact .inr ⟨.checksContext, by decide, trivial, by simp [Consumer.step, phase]⟩
  | alive => exact .inr ⟨.swaps, by decide, trivial, by simp [Consumer.step, phase]⟩
  | held => exact .inr ⟨.readsGate, by decide, trivial, by simp [Consumer.step, phase]⟩
  | waiting resume => exact .inr ⟨.waitEnds, by decide, trivial, by simp [Consumer.step, phase, ended]⟩
  | sleeping => exact .inr ⟨.sleepEnds, by decide, trivial, by simp [Consumer.step, phase, ended]⟩
  | leaving => exact .inr ⟨.stops, by decide, trivial, by simp [Consumer.step, phase]⟩

instance decidableEndsInTime (c : Consumer) (move : Move) : Decidable (c.EndsInTime move) := by
  unfold EndsInTime
  split
  · exact decidable_of_iff (c.phase.replacing = false) c.phase.replacing_eq_false
  · infer_instance
  · exact .isTrue trivial

end Consumer

open Consumer

/-- In every run in which the context ends in time, the consumer is never
registered on a channel opened after the end of the context, and a channel is
open with the consumer registered only while `Consume` drains it. Once the context
has ended `Consume` returns after at most `remaining` further actions, those of its
handlers included, whatever calls of `Pause` and `Resume` and losses of channels
come in between. -/
theorem consume_ends_with_its_context (capacity : Nat) (room : 0 < capacity) (moves : List Move) (c : Consumer)
    (inTime : Along (Consumer.step capacity) EndsInTime Consumer.start moves)
    (run : feed (Consumer.step capacity) Consumer.start moves = some c) :
    Along (Consumer.step capacity) RegistersInTime Consumer.start moves ∧
    (c.phase = .returned → ∀ channel, (c.channels channel).live = false) ∧
    (c.ended = true → c.phase ≠ .before → ∀ onward last,
      Along (Consumer.step capacity) Draining c onward → feed (Consumer.step capacity) c onward = some last →
      onward.countP (· ∈ ownMoves) ≤ c.remaining ∧
      (last.phase = .returned ∨ ∃ move ∈ ownMoves, last.EndsInTime move ∧ last.step capacity move ≠ none)) := by
  have orderly := inTime.invariant Orderly (fun c move after orderly timely stepped => orderly.step timely stepped)
    Orderly.start run
  refine ⟨?_, fun returned channel => ?_, fun ended begun onward last drains continued => ?_⟩
  · refine inTime.of_invariant Orderly (fun c move after orderly timely stepped => orderly.step timely stepped)
      (fun c move after orderly _ _ => ?_) Orderly.start
    cases move with
    | registers => exact fun channel _ => orderly.early channel
    | _ => trivial
  · cases live : (c.channels channel).live with
    | false => rfl
    | true => exact absurd (orderly.live channel live) (by simp [returned])
  · obtain ⟨ending, bound⟩ := drains.bounded Ending Consumer.remaining (· ∈ ownMoves)
      (fun c move after ending allowed stepped =>
        ⟨ending.step allowed stepped, by simpa using ending.nearer allowed stepped⟩)
      ⟨orderly, ended, begun⟩ continued
    exact ⟨by lia, ending.goes_on room⟩

namespace Sample

def endedWhileDraining : List Move := [.begins, .reads, .registers, .arrives, .enqueues, .contextEnds]

def endedWhileOpening : List Move :=
  [.begins, .reads, .registers, .lost 0, .streamEnds, .checksContext, .swaps, .slept, .contextEnds, .closerReads,
    .closerCloses, .opens, .installs, .reads, .registers]

end Sample

theorem sample_consume_ends : ∃ c, feed (Consumer.step 3) Consumer.start Sample.endedWhileDraining = some c ∧
    c.ended = true ∧ ∀ onward last, Along (Consumer.step 3) Draining c onward →
      feed (Consumer.step 3) c onward = some last → onward.countP (· ∈ ownMoves) ≤ 7 := by
  refine ⟨_, rfl, rfl, fun onward last drains continued => ?_⟩
  exact ((consume_ends_with_its_context 3 (by decide) Sample.endedWhileDraining _ (by decide) rfl).2.2 rfl
    (by decide) onward last drains continued).1

/-- `Consume` then registers the consumer on a channel opened after the end of the
context, and nothing it or its handlers could do is left: it never returns, and
the channel stays open and registered. -/
theorem consume_outlives_its_context : ∃ c,
    feed (Consumer.step 3) Consumer.start Sample.endedWhileOpening = some c ∧ c.ended = true ∧
    c.phase = .draining 1 ∧ (c.channels 1).live = true ∧ (c.channels 1).late = true ∧
    ∀ move ∈ ownMoves, c.step 3 move = none :=
  ⟨_, rfl, rfl, rfl, rfl, rfl, by decide⟩

end Gofi.Msq.RabbitMQ
