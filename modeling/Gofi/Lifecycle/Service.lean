import Gofi.Concurrent.Machine
import Mathlib.Logic.Function.Basic

/-! `gofi/service.go`: the life of a built service. One call of `ListenAndServe`
runs the runners, and any number of calls of `Shutdown` end it; whichever of them
owns the closing step runs the closers of `Runtime.Close`. Closers and runners are
numbered in the order in which they were registered. -/

namespace Gofi.Lifecycle

open Gofi.Concurrent

/-- How a call into the program's own components ends. A panic unwinds the caller,
which the program may recover from; one in `Run`, in a goroutine of its own, ends
the process. -/
inductive Answer where
  | ok
  | fails
  | panics
  deriving DecidableEq

/-- The closers: those the runtime holds, those that were called, and those that
have ended, the latter in the order of their calls. -/
structure Ledger where
  closers : List Nat
  began : List Nat
  ended : List Nat
  deriving DecidableEq

/-- Where a call of `closeResources` is: in `observer.Shutdown`, between reading
`r.closers` and resetting it, at the head of the loop of `Close`, in a closer, in
`logging.Shutdown`, or over. `failed` notes that an error was collected. -/
inductive Closing where
  | observing
  | taken (closers : List Nat)
  | between (left : List Nat) (failed : Bool)
  | inside (closer : Nat) (left : List Nat) (failed : Bool)
  | flushing (failed : Bool)
  | finished (failed : Bool)
  | unwound
  deriving DecidableEq

def Closing.step (ledger : Ledger) (answer : Answer) : Closing → Ledger × Closing
  | observing => (ledger, taken ledger.closers)
  | taken closers => ({ ledger with closers := [] }, between closers.reverse false)
  | between [] failed => (ledger, flushing failed)
  | between (closer :: left) failed =>
    ({ ledger with began := ledger.began ++ [closer] }, inside closer left failed)
  | inside closer left failed =>
    ({ ledger with ended := ledger.ended ++ [closer] },
      if answer = .panics then unwound else between left (failed || answer = .fails))
  | flushing failed => (ledger, finished (failed || answer = .fails))
  | finished failed => (ledger, finished failed)
  | unwound => (ledger, unwound)

inductive RunnerStage where
  | unstarted
  | spawned
  | running
  | sent (failed : Bool)
  | received
  deriving DecidableEq

/-- Where `ListenAndServe` is: before its critical section, sent away because the
service was shut down, in the loop of `run` that starts the runners, in its select,
calling `Stop` on the runners, receiving the `pending` results, closing the
resources, or returned, with `done` closed. -/
inductive Listening where
  | uncalled
  | called
  | refused
  | spawning (next : Nat)
  | selecting
  | stopping (next pending : Nat) (failed : Bool)
  | collecting (pending : Nat) (failed : Bool)
  | closing (failed : Bool) (closing : Closing)
  | returned (failed : Bool)
  deriving DecidableEq

/-- Where a call of `Shutdown` is: before its critical section, about to call
`stop`, calling `Stop` on the runners, waiting for `done`, closing the resources, or
returned, with a nil error or not. -/
inductive ShutdownCall where
  | uncalled
  | called
  | canceling
  | stopping (next : Nat)
  | waiting
  | closing (closing : Closing)
  | returned (success : Bool)
  deriving DecidableEq

/-- A service returned by `Build`: how many runners and closers it has, the flag
`closed`, whether `stop` and `done` are set, whether the context of `ListenAndServe`
was cancelled and the one of `run` has expired. `goroutines` and `starts` log the
`go` statements of `run` and the calls of `Run`. -/
structure Service where
  runnerCount : Nat
  closerCount : Nat
  closed : Bool
  stop : Bool
  canceled : Bool
  expired : Bool
  ledger : Ledger
  listening : Listening
  calls : Nat → ShutdownCall
  runners : Nat → RunnerStage
  goroutines : List Nat
  starts : List Nat

namespace Service

def built (runnerCount closerCount : Nat) : Service :=
  { runnerCount, closerCount
    closed := false, stop := false, canceled := false, expired := false
    ledger := ⟨List.range closerCount, [], []⟩
    listening := .uncalled
    calls := fun _ => .uncalled
    runners := fun _ => .unstarted
    goroutines := [], starts := [] }

def goOn (m : Service) (call : Nat) (stage : ShutdownCall) : Service :=
  { m with calls := Function.update m.calls call stage }

def setRunner (m : Service) (runner : Nat) (stage : RunnerStage) : Service :=
  { m with runners := Function.update m.runners runner stage }

/-- The steps between which others may run: those of `ListenAndServe`, from its call
to `closes`; those of the runners; those of the calls of `Shutdown`, from `shutsDown`
to `releases`; a signal, and the end of the stop timeout. -/
inductive Move where
  | listens
  | locks
  | spawns
  | receives (runner : Nat)
  | observes
  | stops (answer : Answer)
  | timesOut
  | collected
  | closes (answer : Answer)
  | begins (runner : Nat)
  | ends (runner : Nat) (failed : Bool)
  | shutsDown (call : Nat)
  | enters (call : Nat)
  | cancels (call : Nat)
  | asks (call : Nat) (answer : Answer)
  | awaits (call : Nat)
  | abandons (call : Nat)
  | releases (call : Nat) (answer : Answer)
  | signals
  | expires

def step (m : Service) : Move → Option Service
  | .listens => if m.listening = .uncalled then some { m with listening := .called } else none
  | .locks =>
    if m.listening = .called then
      if m.closed then some { m with listening := .refused }
      else some { m with stop := true, listening := .spawning 0 }
    else none
  | .spawns =>
    match m.listening with
    | .spawning next =>
      if next < m.runnerCount then some { m.setRunner next .spawned with
        listening := .spawning (next + 1)
        goroutines := m.goroutines ++ [next] }
      else some { m with listening := .selecting }
    | _ => none
  | .receives runner =>
    match m.runners runner, m.listening with
    | .sent failed, .selecting =>
      some { m.setRunner runner .received with listening := .stopping 0 (m.runnerCount - 1) failed }
    | .sent failed, .collecting (pending + 1) before =>
      some { m.setRunner runner .received with listening := .collecting pending (before || failed) }
    | _, _ => none
  | .observes =>
    if m.listening = .selecting ∧ m.canceled then
      -- without runners there is nothing to stop
      if m.runnerCount = 0 then some { m with listening := .closing false .observing }
      else some { m with listening := .stopping 0 m.runnerCount false }
    else none
  | .stops answer =>
    match m.listening with
    | .stopping next pending failed =>
      if next < m.runnerCount then
        if answer = .panics then some { m with listening := .returned true }
        else some { m with listening := .stopping (next + 1) pending (failed || answer = .fails) }
      else some { m with listening := .collecting pending failed }
    | _ => none
  | .timesOut =>
    match m.listening with
    | .collecting (_ + 1) _ => if m.expired then some { m with listening := .closing true .observing } else none
    | _ => none
  | .collected =>
    match m.listening with
    | .collecting 0 failed => some { m with listening := .closing failed .observing }
    | _ => none
  | .closes answer =>
    match m.listening with
    | .closing failed (.finished closing) => some { m with listening := .returned (failed || closing) }
    | .closing _ .unwound => some { m with listening := .returned true }
    | .closing failed closing =>
      let (ledger, closing) := closing.step m.ledger answer
      some { m with ledger, listening := .closing failed closing }
    | _ => none
  | .begins runner =>
    if m.runners runner = .spawned then some { m.setRunner runner .running with starts := m.starts ++ [runner] }
    else none
  | .ends runner failed => if m.runners runner = .running then some (m.setRunner runner (.sent failed)) else none
  | .shutsDown call => if m.calls call = .uncalled then some (m.goOn call .called) else none
  | .enters call =>
    if m.calls call = .called then
      if m.stop then some { m.goOn call .canceling with closed := true }
      else some { m.goOn call (.closing .observing) with closed := true }
    else none
  | .cancels call =>
    if m.calls call = .canceling then some { m.goOn call (.stopping 0) with canceled := true } else none
  | .asks call answer =>
    match m.calls call with
    | .stopping next =>
      if next < m.runnerCount then
        some (m.goOn call (if answer = .ok then .stopping (next + 1) else .returned false))
      else some (m.goOn call .waiting)
    | _ => none
  | .awaits call =>
    match m.calls call, m.listening with
    | .waiting, .returned _ => some (m.goOn call (.returned true))
    | _, _ => none
  | .abandons call => if m.calls call = .waiting then some (m.goOn call (.returned false)) else none
  | .releases call answer =>
    match m.calls call with
    | .closing (.finished failed) => some (m.goOn call (.returned (!failed)))
    | .closing .unwound => some (m.goOn call (.returned false))
    | .closing closing =>
      let (ledger, closing) := closing.step m.ledger answer
      some { m.goOn call (.closing closing) with ledger }
    | _ => none
  | .signals => if m.listening = .uncalled then none else some { m with canceled := true }
  | .expires =>
    match m.listening with
    | .stopping _ _ _ | .collecting _ _ => some { m with expired := true }
    | _ => none

end Service

end Gofi.Lifecycle
