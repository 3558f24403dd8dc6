import Gofi.Concurrent.Machine
import Gofi.Go.Text
import Mathlib.Logic.Function.Basic

/-! `provider/rabbitmq/conn.go`: the publishes of one channel in confirm mode and
the tracker that matches the broker's returns to them. A return carries only the
message id; it reaches the tracker's goroutine through a buffered Go channel. -/

namespace Gofi.Msq.RabbitMQ

open Gofi.Concurrent Gofi.Go

inductive Report where
  | ok
  | unroutable
  | failed
  deriving DecidableEq

/-- Where a publish stands, from `track` to the end of its wait. -/
inductive Publish where
  | unborn
  | tracked
  | waiting
  /-- Its confirmation was an ack. -/
  | acked
  /-- Its request was taken, and `done` is not closed yet. -/
  | syncing
  | synced
  /-- The result is known, and `untrack` is called. -/
  | leaving (report : Report)
  | reported (report : Report)
  deriving DecidableEq

/-- Where the tracker's goroutine stands: at the `select` of `run`, inside `match`
with a return, the same within `drain` on behalf of a publish, or at its end. -/
inductive Runner where
  | selecting
  | matching (ret : Nat)
  | draining (asker : Nat)
  | drainMatching (ret asker : Nat)
  | stopped
  deriving DecidableEq

def Runner.inHand : Runner → Option Nat
  | .matching ret | .drainMatching ret _ => some ret
  | _ => none

def Runner.asker : Runner → Option Nat
  | .draining asker | .drainMatching _ asker => some asker
  | _ => none

/-- One channel. Publishes are numbered in the order they are tracked. `unroutable`
says which of them the broker returned and `confirmed` which confirmations were
dispatched; `returned` is the field `ret` that the tracker sets. -/
structure Confirms where
  count : Nat
  ids : Nat → Str
  stage : Nat → Publish
  onWire : Nat → Bool
  unroutable : Nat → Bool
  confirmed : Nat → Option Bool
  pending : Str → List Nat
  returned : Nat → Bool
  buffer : List Nat
  runner : Runner
  closed : Bool

def Confirms.start : Confirms where
  count := 0
  ids _ := []
  stage _ := .unborn
  onWire _ := false
  unroutable _ := false
  confirmed _ := none
  pending _ := []
  returned _ := false
  buffer := []
  runner := .selecting
  closed := false

namespace Confirms

inductive Move where
  | tracks (id : Str)
  | writes (publish : Nat)
  | publishReturns (publish : Nat)
  | publishFails (publish : Nat)
  | returnArrives (publish : Nat)
  | confirmArrives (publish : Nat) (ack : Bool)
  | waitEnds (publish : Nat)
  | waitGivenUp (publish : Nat)
  | asks (publish : Nat)
  | seesStopped (publish : Nat)
  | reads (publish : Nat)
  | untracks (publish : Nat)
  | receives
  | matchesReturn
  | drained
  | closes
  | stops

def returnBuffer : Nat := 64

def matchReturn (c : Confirms) (ret : Nat) : Confirms :=
  match (c.pending (c.ids ret)).find? (c.returned · = false) with
  | some publish => { c with returned := Function.update c.returned publish true }
  | none => c

def setStage (c : Confirms) (publish : Nat) (stage : Publish) : Confirms :=
  { c with stage := Function.update c.stage publish stage }

def step (c : Confirms) : Move → Option Confirms
  | .tracks id => some {
      c.setStage c.count .tracked with
      count := c.count + 1
      ids := Function.update c.ids c.count id
      pending := Function.update c.pending id (c.pending id ++ [c.count]) }
  | .writes publish =>
    if c.stage publish = .tracked ∧ c.onWire publish = false then
      some { c with onWire := Function.update c.onWire publish true }
    else none
  | .publishReturns publish =>
    if c.stage publish = .tracked ∧ c.onWire publish = true then some (c.setStage publish .waiting) else none
  | .publishFails publish =>
    if c.stage publish = .tracked ∧ c.onWire publish = false then some (c.setStage publish (.leaving .failed))
      else none
  | .returnArrives publish =>
    if c.onWire publish = true ∧ c.confirmed publish = none ∧ c.unroutable publish = false ∧ c.closed = false ∧
        c.buffer.length < returnBuffer then
      some { c with unroutable := Function.update c.unroutable publish true, buffer := c.buffer ++ [publish] }
    else none
  | .confirmArrives publish ack =>
    if c.onWire publish = true ∧ c.confirmed publish = none then
      some { c with confirmed := Function.update c.confirmed publish (some ack) }
    else none
  | .waitEnds publish =>
    if c.stage publish = .waiting then
      match c.confirmed publish with
      | some true => some (c.setStage publish .acked)
      | some false => some (c.setStage publish (.leaving .failed))
      | none => none
    else none
  | .waitGivenUp publish => if c.stage publish = .waiting then some (c.setStage publish (.leaving .failed)) else none
  | .asks publish =>
    if c.stage publish = .acked ∧ c.runner = .selecting then
      some { c.setStage publish .syncing with runner := .draining publish }
    else none
  | .seesStopped publish =>
    if c.stage publish = .acked ∧ c.runner = .stopped then some (c.setStage publish .synced) else none
  | .reads publish =>
    if c.stage publish = .synced then
      some (c.setStage publish (.leaving (if c.returned publish then .unroutable else .ok)))
    else none
  | .untracks publish =>
    match c.stage publish with
    | .leaving report => some {
        c.setStage publish (.reported report) with
        pending := Function.update c.pending (c.ids publish) ((c.pending (c.ids publish)).erase publish) }
    | _ => none
  | .receives =>
    match c.buffer, c.runner with
    | ret :: rest, .selecting => some { c with buffer := rest, runner := .matching ret }
    | ret :: rest, .draining asker => some { c with buffer := rest, runner := .drainMatching ret asker }
    | _, _ => none
  | .matchesReturn =>
    match c.runner with
    | .matching ret => some { c.matchReturn ret with runner := .selecting }
    | .drainMatching ret asker => some { c.matchReturn ret with runner := .draining asker }
    | _ => none
  | .drained =>
    match c.runner with
    -- `drain` found the Go channel empty; once it is closed the goroutine ends, too.
    | .draining asker =>
      if c.buffer = [] then
        some { c.setStage asker .synced with runner := if c.closed then .stopped else .selecting }
      else none
    | _ => none
  | .closes => some { c with closed := true }
  | .stops =>
    if c.runner = .selecting ∧ c.buffer = [] ∧ c.closed = true then some { c with runner := .stopped } else none

def Outstanding (c : Confirms) (publish : Nat) : Prop :=
  publish ∈ c.pending (c.ids publish) ∨ (c.onWire publish = true ∧ c.confirmed publish = none) ∨
    publish ∈ c.buffer ∨ c.runner.inHand = some publish

/-- No publish is tracked while another one with its message id is outstanding. -/
def TracksApart (c : Confirms) : Move → Prop
  | .tracks id => ∀ publish < c.count, c.ids publish = id → ¬ c.Outstanding publish
  | _ => True

instance decidableTracksApart (c : Confirms) (move : Move) : Decidable (c.TracksApart move) := by
  unfold TracksApart Outstanding
  split <;> infer_instance

end Confirms

end Gofi.Msq.RabbitMQ
