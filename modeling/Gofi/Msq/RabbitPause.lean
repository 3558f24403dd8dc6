import Gofi.Msq.RabbitConsume

/-! `provider/rabbitmq`: what a `Pause` holds back. It sets the gate and a flag and
cancels the consumer on the current channel; the loop looks at the gate only after
a stream has ended with the flag set. -/

namespace Gofi.Msq.RabbitMQ

open Gofi.Concurrent

namespace Consumer

/-- The loop cannot register the consumer before a `Resume`: it has still to find
the flag and the gate set, or waits for the `Resume`, or is on its way out. -/
def Holding (c : Consumer) : Prop :=
  match c.phase with
  | .draining _ | .drained | .alive => c.canceled = true ∧ c.gate ≠ none
  | .held => c.gate ≠ none
  | .waiting resume => c.gate = some resume
  | .leaving | .closing | .returned => True
  | _ => False

theorem Holding.mono (holding : Holding c) (phase : after.phase = c.phase)
    (flag : c.canceled = true → after.canceled = true)
    (gate : ∀ resume, c.gate = some resume → after.gate = some resume) :
    Holding after := by
  have paused : c.gate ≠ none → after.gate ≠ none := by
    intro set
    obtain ⟨resume, set⟩ := Option.ne_none_iff_exists'.mp set
    simp [gate resume set]
  unfold Holding at holding ⊢
  rw [phase]
  split <;> simp_all

theorem Holding.step (holding : Holding c) (stepped : c.step capacity move = some after) (other : move ≠ .resume) :
    Holding after := by
  cases does_of_step stepped with
  | resume => exact absurd rfl other
  | turns turn => cases turn <;> simp_all [Holding]
  | pauseGate => exact holding.mono rfl id (fun resume set => by simp [set])
  | pauseFlag => exact holding.mono rfl (fun _ => rfl) (fun _ => id)
  | begins here | registers here | swaps here | opens here | installs here | stops here =>
    simp_all [Holding]
  | _ => exact holding.mono rfl id (fun _ => id)

theorem Holding.not_registers (holding : Holding c) : c.step capacity .registers = none := by
  unfold Holding at holding
  simp only [Consumer.step]
  split
  · simp_all
  · rfl

/-- A `Pause` that cancels the consumer finds the loop held: draining a stream or
waiting at the gate, with the flag and the gate as the `Pause` set them. -/
def PausesInTime (c : Consumer) : Move → Prop
  | .pauseCancels _ => c.Holding
  | _ => True

/-- Between the return of a `Pause` and the next `Resume` the consumer is not registered. -/
def StaysPaused (c : Consumer) : Move → Prop
  | .registers => c.paused = false
  | _ => True

private theorem paused_step {c : Consumer} (held : c.paused = true → c.Holding) (inTime : c.PausesInTime move)
    (stepped : c.step capacity move = some after) (paused : after.paused = true) : after.Holding := by
  cases move with
  | resume => cases stepped; cases paused
  | pauseCancels call => exact Holding.step inTime stepped nofun
  | _ =>
    refine Holding.step (held ?_) stepped nofun
    cases does_of_step stepped <;> exact paused

/-- What `Consume` itself does while the broker opens channels and accepts consumers. -/
def Healthy (c : Consumer) : Move → Prop
  | .reads | .registers | .checksContext | .checksClosed | .enqueues | .streamEnds | .swaps | .readsGate | .wakes
  | .slept | .opens | .installs | .dropped | .handled => True
  | .refuses => ∃ channel, c.phase = .registering channel ∧ (c.channels channel).isOpen = false
  | _ => False

/-- The loop is running, and no open channel has refused the consumer. -/
def Running (c : Consumer) : Prop :=
  match c.phase with
  | .before | .leaving | .closing | .returned => False
  | .refused channel | .failed channel => (c.channels channel).isOpen = false
  | _ => True

/-- How far the loop is from registering the consumer on an open channel. -/
def distance (c : Consumer) : Nat :=
  match c.phase with
  | .draining channel => if (c.channels channel).live then 0 else 14
  | .registering channel => if (c.channels channel).isOpen then 1 else 8
  | .top => if (c.channels c.current).isOpen then 2 else 9
  | .installing channel => if (c.channels channel).isOpen then 3 else 10
  | .opening => 4
  | .sleeping => 5
  | .failed _ => 6
  | .refused _ => 7
  | .waiting _ => 10
  | .held => 11
  | .alive => 12
  | .drained => 13
  | _ => 0

structure Resuming (c : Consumer) : Prop where
  running : c.Running
  gate : c.gate = none
  ended : c.ended = false

def rank (c : Consumer) : Nat := c.distance + 2 * c.buffered + c.jobs

theorem Resuming.step (resuming : Resuming c) (healthy : c.Healthy move)
    (stepped : c.step capacity move = some after) : Resuming after := by
  obtain ⟨running, gate, ended⟩ := resuming
  cases does_of_step stepped with
  | turns turn => exact ⟨by cases turn <;> simp_all [Running, Healthy], gate, ended⟩
  | registers | opens | installs => exact ⟨by simp [Running], gate, ended⟩
  | swaps => exact ⟨by cases c.canceled <;> simp [Running], gate, ended⟩
  | enqueues | dropped | handled => exact ⟨running, gate, ended⟩
  | _ => cases healthy

theorem Resuming.nearer (resuming : Resuming c) (healthy : c.Healthy move)
    (stepped : c.step capacity move = some after) : after.rank + 1 ≤ c.rank := by
  obtain ⟨running, gate, ended⟩ := resuming
  cases does_of_step stepped with
  | turns turn => cases turn <;> simp_all [Running, Healthy, rank, distance] <;> grind
  | registers here isOpen =>
    simp only [rank, distance, onChannel, here, isOpen, Function.update_self, live_mk, Bool.and_true, if_true]
    lia
  | opens here =>
    simp only [rank, distance, onChannel, here, Function.update_self, if_true]
    lia
  | installs here =>
    simp only [rank, distance, here]
    split <;> lia
  | swaps here =>
    cases c.canceled <;> simp only [rank, distance, here, if_true, if_false, Bool.false_eq_true] <;> omega
  | enqueues here allowed | dropped here _ allowed => simp [rank, distance, here]; lia
  | handled allowed => simp only [rank, distance]; lia
  | _ => cases healthy

theorem Resuming.goes_on (resuming : Resuming c) (room : 0 < capacity) :
    c.Registered ∨ ∃ move, c.Healthy move ∧ c.step capacity move ≠ none := by
  obtain ⟨running, gate, ended⟩ := resuming
  cases phase : c.phase with
  | draining channel =>
    cases live : (c.channels channel).live with
    | true => exact .inl ⟨channel, phase, live⟩
    | false =>
      right
      by_cases taken : c.buffered = 0
      · exact ⟨.streamEnds, trivial, by simp [Consumer.step, phase, live, taken]⟩
      · by_cases free : c.jobs < capacity
        · exact ⟨.enqueues, trivial, by simp [Consumer.step, phase, free]; lia⟩
        · exact ⟨.handled, trivial, by simp [Consumer.step]; lia⟩
  | registering channel =>
    right
    cases isOpen : (c.channels channel).isOpen with
    | true => exact ⟨.registers, trivial, by simp [Consumer.step, phase, isOpen]⟩
    | false => exact ⟨.refuses, ⟨channel, phase, isOpen⟩, by simp [Consumer.step, phase]⟩
  | top => exact .inr ⟨.reads, trivial, by simp [Consumer.step, phase]⟩
  | refused channel => exact .inr ⟨.checksContext, trivial, by simp [Consumer.step, phase]⟩
  | failed channel => exact .inr ⟨.checksClosed, trivial, by simp [Consumer.step, phase]⟩
  | drained => exact .inr ⟨.checksContext, trivial, by simp [Consumer.step, phase]⟩
  | alive => exact .inr ⟨.swaps, trivial, by simp [Consumer.step, phase]⟩
  | held => exact .inr ⟨.readsGate, trivial, by simp [Consumer.step, phase]⟩
  | waiting resume => exact .inr ⟨.wakes, trivial, by simp [Consumer.step, phase, gate]⟩
  | sleeping => exact .inr ⟨.slept, trivial, by simp [Consumer.step, phase]⟩
  | opening => exact .inr ⟨.opens, trivial, by simp [Consumer.step, phase]⟩
  | installing channel => exact .inr ⟨.installs, trivial, by simp [Consumer.step, phase]⟩
  | before | leaving | closing | returned => simp [Running, phase] at running

instance decidableGated (c : Consumer) : Decidable (c.gate ≠ none) :=
  decidable_of_iff (c.gate.isSome = true) Option.isSome_iff_ne_none

instance decidableHolding (c : Consumer) : Decidable c.Holding := by
  unfold Holding
  generalize c.phase = phase
  cases phase with
  | draining _ | drained | alive => exact inferInstanceAs (Decidable (c.canceled = true ∧ c.gate ≠ none))
  | held => exact decidableGated c
  | waiting resume => exact inferInstanceAs (Decidable (c.gate = some resume))
  | leaving | closing | returned => exact .isTrue trivial
  | _ => exact .isFalse id

instance decidablePausesInTime (c : Consumer) (move : Move) : Decidable (c.PausesInTime move) := by
  unfold PausesInTime
  split <;> infer_instance

end Consumer

open Consumer

/-- In every run in which each `Pause` cancels the consumer in time, the consumer
is not registered between the return of a `Pause` and the next `Resume`. Once the
gate is open again and as long as the context has not ended, a running `Consume`
registers it, from any state, after at most `rank` further actions, with a broker
that opens channels and accepts the consumer. -/
theorem paused_consumer_stays_paused (capacity : Nat) (room : 0 < capacity) (moves : List Move)
    (inTime : Along (Consumer.step capacity) PausesInTime Consumer.start moves) :
    Along (Consumer.step capacity) StaysPaused Consumer.start moves ∧
    ∀ c : Consumer, c.gate = none → c.ended = false → c.Running → ∀ onward last,
      Along (Consumer.step capacity) Healthy c onward → feed (Consumer.step capacity) c onward = some last →
      onward.length ≤ c.rank ∧ (last.Registered ∨ ∃ move, last.Healthy move ∧ last.step capacity move ≠ none) := by
  constructor
  · refine inTime.of_invariant (fun c => c.paused = true → c.Holding)
      (fun c move after held timely stepped => paused_step held timely stepped)
      (fun c move after held _ stepped => ?_) nofun
    cases move with
    | registers =>
      cases paused : c.paused with
      | false => exact paused
      | true => exact absurd stepped (by simp [(held paused).not_registers])
    | _ => trivial
  · intro c gate ended running onward last healthy continued
    obtain ⟨resuming, bound⟩ := healthy.bounded Resuming Consumer.rank (fun _ => true)
      (fun c move after resuming allowed stepped => ⟨resuming.step allowed stepped, resuming.nearer allowed stepped⟩)
      ⟨running, gate, ended⟩ continued
    rw [List.countP_true] at bound
    exact ⟨by lia, resuming.goes_on room⟩

namespace Sample

def pause (call : Nat) : List Move := [.pauseGate call, .pauseFlag call, .pauseReads call, .pauseCancels call]

def pausedWhileDraining : List Move :=
  [.begins, .reads, .registers] ++ pause 0 ++ [.streamEnds, .checksContext, .swaps, .readsGate, .resume]

end Sample

theorem sample_pause_holds : Along (Consumer.step 3) StaysPaused Consumer.start Sample.pausedWhileDraining :=
  (paused_consumer_stays_paused 3 (by decide) Sample.pausedWhileDraining (by decide)).1

/-- The run ends with `Consume` about to register the consumer, although a `Pause`
has returned and no `Resume` came since. -/
def Consumer.RegistersPaused (moves : List Move) : Prop := ∃ c,
  feed (Consumer.step 3) Consumer.start moves = some c ∧ c.paused = true ∧ c.ended = false ∧ c.step 3 .registers ≠ none

/-- The `Pause` comes before the first registration, while a lost channel is being
replaced, or right after a `Resume`. -/
theorem paused_consumer_is_registered : RegistersPaused (Sample.pause 0 ++ [.begins, .reads]) ∧
    RegistersPaused ([.begins, .reads, .registers, .lost 0, .streamEnds, .checksContext, .swaps] ++ Sample.pause 0 ++
      [.slept, .opens, .installs, .reads]) ∧
    RegistersPaused (Sample.pausedWhileDraining ++ [.wakes] ++ Sample.pause 1 ++ [.reads]) :=
  ⟨⟨_, rfl, rfl, rfl, by decide⟩, ⟨_, rfl, rfl, rfl, by decide⟩, ⟨_, rfl, rfl, rfl, by decide⟩⟩

end Gofi.Msq.RabbitMQ
