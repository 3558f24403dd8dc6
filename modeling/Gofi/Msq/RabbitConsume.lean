import Gofi.Concurrent.Machine
import Mathlib.Logic.Function.Basic

/-! `provider/rabbitmq`: one call of `amqpConsumer.Consume` and the calls of
`Pause` and `Resume` beside it, one step for each access to what they share. The
surroundings may lose a channel at any time, end the context and let handlers
finish. -/

namespace Gofi.Msq.RabbitMQ

/-- A channel: whether it is open and the consumer registered on it. `late` notes
that it was opened after the context had ended. -/
structure Channel where
  isOpen : Bool
  registered : Bool
  late : Bool
  deriving DecidableEq

def Channel.live (channel : Channel) : Bool := channel.isOpen && channel.registered

@[simp] theorem live_mk (isOpen registered late : Bool) :
    Channel.live ⟨isOpen, registered, late⟩ = (isOpen && registered) := rfl

inductive Phase where
  | before
  /-- At the head of the loop. -/
  | top
  | registering (channel : Nat)
  | refused (channel : Nat)
  /-- The registration failed, and not because the context had ended. -/
  | failed (channel : Nat)
  | draining (channel : Nat)
  | drained
  /-- The stream has ended, and not because the context had. -/
  | alive
  /-- The flag said that the consumer was paused. -/
  | held
  /-- Inside `Gate.Wait`, with the channel that a `Resume` closes. -/
  | waiting (resume : Nat)
  | sleeping
  | opening
  | installing (channel : Nat)
  /-- The loop was left; `stop` is called. -/
  | leaving
  /-- Inside `Pool.Close`. -/
  | closing
  | returned
  deriving DecidableEq

inductive Pausing where
  | gated
  | flagged
  | aimed (channel : Nat)
  deriving DecidableEq

inductive Closer where
  | unarmed
  | armed
  | picked (channel : Nat)
  | done
  | stopped
  deriving DecidableEq

/-- The consumer. `gate` holds the channel a `Resume` closes, `gates` counts those
made so far; `buffered` counts deliveries the loop has not taken from the stream,
`jobs` those whose handlers have not returned. `paused` notes that a `Pause` has
returned, and that no `Resume` came since. -/
structure Consumer where
  phase : Phase
  channels : Nat → Channel
  opened : Nat
  current : Nat
  gate : Option Nat
  gates : Nat
  canceled : Bool
  pausing : Nat → Option Pausing
  paused : Bool
  ended : Bool
  closer : Closer
  buffered : Nat
  jobs : Nat

def Consumer.start : Consumer where
  phase := .before
  channels _ := ⟨true, false, false⟩
  opened := 1
  current := 0
  gate := none
  gates := 0
  canceled := false
  pausing _ := none
  paused := false
  ended := false
  closer := .unarmed
  buffered := 0
  jobs := 0

/-- The actions of `Consume`, of a call of `Pause` or `Resume`, of the function
started by the end of the context, and of the surroundings. -/
inductive Move where
  | begins
  | reads
  | registers
  | refuses
  | checksContext
  | checksClosed
  | enqueues
  | streamEnds
  | swaps
  | readsGate
  | wakes
  | waitEnds
  | slept
  | sleepEnds
  | opens
  | openFails
  | installs
  | stops
  | poolCloses
  | pauseGate (call : Nat)
  | pauseFlag (call : Nat)
  | pauseReads (call : Nat)
  | pauseCancels (call : Nat)
  | resume
  | closerReads
  | closerCloses
  | arrives
  | dropped
  | handled
  | lost (channel : Nat)
  | cancelled (channel : Nat)
  | contextEnds
  deriving DecidableEq

namespace Consumer

def onChannel (c : Consumer) (channel : Nat) (change : Channel → Channel) : Consumer :=
  { c with channels := Function.update c.channels channel (change (c.channels channel)) }

def close (channel : Channel) : Channel := { channel with isOpen := false, registered := false }

def cancel (channel : Channel) : Channel := { channel with registered := false }

def step (capacity : Nat) (c : Consumer) : Move → Option Consumer
  | .begins => if c.phase = .before then some { c with phase := .top, closer := .armed } else none
  | .reads => if c.phase = .top then some { c with phase := .registering c.current } else none
  | .registers =>
    match c.phase with
    | .registering channel =>
      if (c.channels channel).isOpen then
        some { c.onChannel channel ({ · with registered := true }) with phase := .draining channel, buffered := 0 }
      else none
    | _ => none
  | .refuses =>
    match c.phase with
    | .registering channel => some { c with phase := .refused channel }
    | _ => none
  | .checksContext =>
    match c.phase with
    | .refused channel => some { c with phase := if c.ended then .leaving else .failed channel }
    | .drained => some { c with phase := if c.ended then .leaving else .alive }
    | _ => none
  | .checksClosed =>
    match c.phase with
    -- An open channel that refuses the consumer is an error that `Consume` returns.
    | .failed channel => some { c with phase := if (c.channels channel).isOpen then .leaving else .sleeping }
    | _ => none
  | .enqueues =>
    match c.phase with
    | .draining _ =>
      if 0 < c.buffered ∧ c.jobs < capacity then some { c with buffered := c.buffered - 1, jobs := c.jobs + 1 }
        else none
    | _ => none
  | .streamEnds =>
    match c.phase with
    | .draining channel =>
      if (c.channels channel).live = false ∧ c.buffered = 0 then some { c with phase := .drained } else none
    | _ => none
  | .swaps =>
    if c.phase = .alive then some { c with canceled := false, phase := if c.canceled then .held else .sleeping }
      else none
  | .readsGate =>
    if c.phase = .held then
      some { c with phase := match c.gate with | none => .top | some resume => .waiting resume }
    else none
  | .wakes =>
    match c.phase with
    | .waiting resume => if c.gate ≠ some resume then some { c with phase := .top } else none
    | _ => none
  | .waitEnds =>
    match c.phase with
    | .waiting _ => if c.ended then some { c with phase := .leaving } else none
    | _ => none
  | .slept => if c.phase = .sleeping then some { c with phase := .opening } else none
  | .sleepEnds => if c.phase = .sleeping ∧ c.ended = true then some { c with phase := .leaving } else none
  | .opens =>
    if c.phase = .opening then
      some { c.onChannel c.opened (fun _ => ⟨true, false, c.ended⟩) with
        phase := .installing c.opened, opened := c.opened + 1 }
    else none
  | .openFails => if c.phase = .opening then some { c with phase := .sleeping } else none
  | .installs =>
    match c.phase with
    | .installing channel => some { c with current := channel, phase := .top }
    | _ => none
  | .stops =>
    if c.phase = .leaving then
      some { c with phase := .closing, closer := if c.closer = .armed then .stopped else c.closer }
    else none
  | .poolCloses => if c.phase = .closing ∧ c.jobs = 0 then some { c with phase := .returned } else none
  | .pauseGate call =>
    if c.pausing call = none then
      some { c with
        gate := some (c.gate.getD c.gates)
        gates := if c.gate = none then c.gates + 1 else c.gates
        pausing := Function.update c.pausing call (some .gated) }
    else none
  | .pauseFlag call =>
    if c.pausing call = some .gated then
      some { c with canceled := true, pausing := Function.update c.pausing call (some .flagged) }
    else none
  | .pauseReads call =>
    if c.pausing call = some .flagged then
      some { c with pausing := Function.update c.pausing call (some (.aimed c.current)) }
    else none
  | .pauseCancels call =>
    match c.pausing call with
    | some (.aimed channel) =>
      some { c.onChannel channel cancel with pausing := Function.update c.pausing call none, paused := true }
    | _ => none
  | .resume => some { c with gate := none, paused := false }
  | .closerReads =>
    if c.closer = .armed ∧ c.ended = true then some { c with closer := .picked c.current } else none
  | .closerCloses =>
    match c.closer with
    | .picked channel => some { c.onChannel channel close with closer := .done }
    | _ => none
  | .arrives =>
    match c.phase with
    | .draining channel => if (c.channels channel).live then some { c with buffered := c.buffered + 1 } else none
    | _ => none
  | .dropped =>
    match c.phase with
    | .draining channel =>
      if (c.channels channel).isOpen = false ∧ 0 < c.buffered then some { c with buffered := 0 } else none
    | _ => none
  | .handled => if 0 < c.jobs then some { c with jobs := c.jobs - 1 } else none
  | .lost channel => some (c.onChannel channel close)
  | .cancelled channel => some (c.onChannel channel cancel)
  | .contextEnds => some { c with ended := true }

/-- The actions that change nothing but where `Consume` stands. -/
inductive Turns (c : Consumer) : Move → Phase → Prop
  | reads : c.phase = .top → c.Turns .reads (.registering c.current)
  | refuses : c.phase = .registering channel → c.Turns .refuses (.refused channel)
  | refusedAtEnd : c.phase = .refused channel → c.ended = true → c.Turns .checksContext .leaving
  | fails : c.phase = .refused channel → c.ended = false → c.Turns .checksContext (.failed channel)
  | drainedAtEnd : c.phase = .drained → c.ended = true → c.Turns .checksContext .leaving
  | goesOn : c.phase = .drained → c.ended = false → c.Turns .checksContext .alive
  | errs : c.phase = .failed channel → (c.channels channel).isOpen = true → c.Turns .checksClosed .leaving
  | retries : c.phase = .failed channel → (c.channels channel).isOpen = false → c.Turns .checksClosed .sleeping
  | streamEnds : c.phase = .draining channel → (c.channels channel).live = false → c.buffered = 0 →
      c.Turns .streamEnds .drained
  | passes : c.phase = .held → c.gate = none → c.Turns .readsGate .top
  | waits : c.phase = .held → c.gate = some resume → c.Turns .readsGate (.waiting resume)
  | wakes : c.phase = .waiting resume → c.gate ≠ some resume → c.Turns .wakes .top
  | waitEnds : c.phase = .waiting resume → c.ended = true → c.Turns .waitEnds .leaving
  | slept : c.phase = .sleeping → c.Turns .slept .opening
  | sleepEnds : c.phase = .sleeping → c.ended = true → c.Turns .sleepEnds .leaving
  | openFails : c.phase = .opening → c.Turns .openFails .sleeping
  | poolCloses : c.phase = .closing → c.jobs = 0 → c.Turns .poolCloses .returned

inductive Does (capacity : Nat) (c : Consumer) : Move → Consumer → Prop
  | turns : c.Turns move next → c.Does capacity move { c with phase := next }
  | begins : c.phase = .before → c.Does capacity .begins { c with phase := .top, closer := .armed }
  | registers : c.phase = .registering channel → (c.channels channel).isOpen = true → c.Does capacity .registers
      { c.onChannel channel ({ · with registered := true }) with phase := .draining channel, buffered := 0 }
  | enqueues : c.phase = .draining channel → 0 < c.buffered ∧ c.jobs < capacity →
      c.Does capacity .enqueues { c with buffered := c.buffered - 1, jobs := c.jobs + 1 }
  | swaps : c.phase = .alive →
      c.Does capacity .swaps { c with canceled := false, phase := if c.canceled then .held else .sleeping }
  | opens : c.phase = .opening → c.Does capacity .opens { c.onChannel c.opened (fun _ => ⟨true, false, c.ended⟩) with
      phase := .installing c.opened, opened := c.opened + 1 }
  | installs : c.phase = .installing channel → c.Does capacity .installs { c with current := channel, phase := .top }
  | stops : c.phase = .leaving → c.Does capacity .stops
      { c with phase := .closing, closer := if c.closer = .armed then .stopped else c.closer }
  | pauseGate : c.pausing call = none → c.Does capacity (.pauseGate call) { c with
      gate := some (c.gate.getD c.gates), gates := if c.gate = none then c.gates + 1 else c.gates
      pausing := Function.update c.pausing call (some .gated) }
  | pauseFlag : c.pausing call = some .gated → c.Does capacity (.pauseFlag call)
      { c with canceled := true, pausing := Function.update c.pausing call (some .flagged) }
  | pauseReads : c.pausing call = some .flagged → c.Does capacity (.pauseReads call)
      { c with pausing := Function.update c.pausing call (some (.aimed c.current)) }
  | pauseCancels : c.pausing call = some (.aimed channel) → c.Does capacity (.pauseCancels call)
      { c.onChannel channel cancel with pausing := Function.update c.pausing call none, paused := true }
  | resume : c.Does capacity .resume { c with gate := none, paused := false }
  | closerReads : c.closer = .armed → c.ended = true →
      c.Does capacity .closerReads { c with closer := .picked c.current }
  | closerCloses : c.closer = .picked channel →
      c.Does capacity .closerCloses { c.onChannel channel close with closer := .done }
  | arrives : c.phase = .draining channel → (c.channels channel).live = true →
      c.Does capacity .arrives { c with buffered := c.buffered + 1 }
  | dropped : c.phase = .draining channel → (c.channels channel).isOpen = false → 0 < c.buffered →
      c.Does capacity .dropped { c with buffered := 0 }
  | handled : 0 < c.jobs → c.Does capacity .handled { c with jobs := c.jobs - 1 }
  | lost : c.Does capacity (.lost channel) (c.onChannel channel close)
  | cancelled : c.Does capacity (.cancelled channel) (c.onChannel channel cancel)
  | contextEnds : c.Does capacity .contextEnds { c with ended := true }

theorem does_of_step (stepped : step capacity c move = some after) : c.Does capacity move after := by
  cases move <;> simp only [step] at stepped
  case begins | swaps | opens | stops | pauseGate | pauseFlag | pauseReads | handled =>
    simp only [Option.ite_none_right_eq_some, Option.some.injEq] at stepped
    obtain ⟨allowed, rfl⟩ := stepped
    constructor
    exact allowed
  case reads | slept | openFails =>
    simp only [Option.ite_none_right_eq_some, Option.some.injEq] at stepped
    obtain ⟨allowed, rfl⟩ := stepped
    exact .turns (by constructor; exact allowed)
  case sleepEnds | poolCloses =>
    simp only [Option.ite_none_right_eq_some, Option.some.injEq] at stepped
    obtain ⟨⟨here, allowed⟩, rfl⟩ := stepped
    exact .turns (by constructor; exacts [here, allowed])
  case closerReads =>
    simp only [Option.ite_none_right_eq_some, Option.some.injEq] at stepped
    obtain ⟨⟨armed, ended⟩, rfl⟩ := stepped
    exact .closerReads armed ended
  case resume | lost | cancelled | contextEnds => cases stepped; constructor
  case readsGate =>
    simp only [Option.ite_none_right_eq_some, Option.some.injEq] at stepped
    obtain ⟨here, rfl⟩ := stepped
    refine .turns ?_
    cases gate : c.gate with
    | none => exact .passes here gate
    | some resume => exact .waits here gate
  case checksContext =>
    split at stepped <;> cases stepped <;> refine .turns ?_ <;> cases ended : c.ended
    · exact .fails (by assumption) ended
    · exact .refusedAtEnd (by assumption) ended
    · exact .goesOn (by assumption) ended
    · exact .drainedAtEnd (by assumption) ended
  case checksClosed =>
    split at stepped <;> cases stepped
    refine .turns ?_
    split
    · exact .errs (by assumption) (by assumption)
    · exact .retries (by assumption) (Bool.eq_false_iff.mpr (by assumption))
  case refuses | waitEnds | wakes =>
    (repeat' split at stepped) <;> cases stepped
    exact .turns (by constructor <;> assumption)
  case streamEnds =>
    (repeat' split at stepped) <;> cases stepped
    rename_i allowed
    exact .turns (.streamEnds (by assumption) allowed.1 allowed.2)
  case dropped =>
    (repeat' split at stepped) <;> cases stepped
    rename_i allowed
    exact .dropped (by assumption) allowed.1 allowed.2
  case registers | enqueues | installs | pauseCancels | closerCloses | arrives =>
    (repeat' split at stepped) <;> cases stepped
    constructor <;> assumption

def Registered (c : Consumer) : Prop := ∃ channel, c.phase = .draining channel ∧ (c.channels channel).live = true

end Consumer

end Gofi.Msq.RabbitMQ
