import Gofi.Concurrent.Machine
import Gofi.Go.Text

/-! `gofi/builder.go` and `gofi/runtime.go`: `Build` starts the components of a
service by stage and closes what they opened when one of them fails. A builder
keeps what was declared on it from one call of `Build` to the next. -/

namespace Gofi.Lifecycle

open Gofi.Go Gofi.Concurrent

structure Component where
  id : Nat
  name : Str
  stage : Int
  runner : Bool
  deriving DecidableEq

/-- The runtime handed to the components, as far as `Close` reads it. -/
structure Runtime (γ : Type) where
  closers : List γ

structure Started (γ ε : Type) where
  closers : List γ
  error : Option ε

structure Closed (γ ε : Type) where
  closers : List γ
  error : Option ε

namespace Runtime

def new : Runtime γ := ⟨[]⟩

def onClose (rt : Runtime γ) (closers : List γ) : Runtime γ := ⟨rt.closers ++ closers⟩

def closeEach (close : γ → Closed γ ε) : List γ → Runtime γ → Runtime γ × List ε
  | [], rt => (rt, [])
  | closer :: rest, rt =>
    let (after, errs) := closeEach close rest (rt.onClose (close closer).closers)
    (after, (close closer).error.toList ++ errs)

def close (close : γ → Closed γ ε) (rt : Runtime γ) : Runtime γ × List γ × List ε :=
  let closers := rt.closers.reverse
  let (after, errs) := closeEach close closers ⟨[]⟩
  (after, closers, errs)

theorem closeEach_closers (close : γ → Closed γ ε) (closers : List γ) (rt : Runtime γ) :
    (closeEach close closers rt).1.closers = rt.closers ++ closers.flatMap fun closer => (close closer).closers := by
  induction closers generalizing rt with
  | nil => simp [closeEach]
  | cons closer rest ih => simp [closeEach, ih, onClose]

end Runtime

inductive BuildError (ε : Type) where
  | alreadyBuilt
  | misuse (nilComponents : Nat)
  | setup (errs : List ε)
  | start (name : Str) (err : ε) (closing : List ε)
  deriving DecidableEq

structure Instance (γ : Type) where
  components : List Component
  runners : List Component
  rt : Option (Runtime γ)
  errs : Nat
  built : Bool

/-- What the world does during one call of `Build`: the problems `bootstrap` and
`checkTransport` find, what each call of `Start` does, given its place in the order,
and what the closers do when they are run. -/
structure Attempt (γ ε : Type) where
  setup : List ε
  start : Nat → Component → Runtime γ → Started γ ε
  close : γ → Closed γ ε

/-- The loop of `Build`: the runtime, the calls of `Start` and what they returned, the
runners collected, and the failure that ended the loop. -/
structure Starts (γ ε : Type) where
  rt : Runtime γ
  calls : List (Component × Option ε)
  runners : List Component
  failure : Option (Component × ε)

def startEach (start : Nat → Component → Runtime γ → Started γ ε) : Nat → List Component → Runtime γ → Starts γ ε
  | _, [], rt => ⟨rt, [], [], none⟩
  | place, c :: rest, rt =>
    let started := start place c rt
    let opened := rt.onClose started.closers
    match started.error with
    | some err => ⟨opened, [(c, some err)], [], some (c, err)⟩
    | none =>
      let later := startEach start (place + 1) rest opened
      { later with
        calls := (c, none) :: later.calls
        runners := if c.runner then c :: later.runners else later.runners }

/-- A call of `Build`: the builder after it, its answer, the calls of `Start`, and the
closers that were registered and run, each in this order. -/
structure Built (γ ε : Type) where
  builder : Instance γ
  answer : Except (BuildError ε) Unit
  calls : List (Component × Option ε)
  registered : List γ
  ran : List γ

namespace Instance

def new : Instance γ := ⟨[], [], none, 0, false⟩

def with_ (g : Instance γ) (components : List (Option Component)) : Instance γ :=
  { g with
    components := g.components ++ components.filterMap id
    errs := g.errs + components.countP Option.isNone }

def ordered (g : Instance γ) : List Component := g.components.mergeSort fun a b => a.stage ≤ b.stage

def refused (g : Instance γ) (err : BuildError ε) : Built γ ε := ⟨g, .error err, [], [], []⟩

def build (g : Instance γ) (attempt : Attempt γ ε) : Built γ ε :=
  if g.built then g.refused .alreadyBuilt
  else if g.errs ≠ 0 then g.refused (.misuse g.errs)
  else if attempt.setup ≠ [] then g.refused (.setup attempt.setup)
  else
    let run := startEach attempt.start 0 g.ordered .new
    let g := { g with runners := g.runners ++ run.runners }
    match run.failure with
    | some (c, err) =>
      let (rt, ran, errs) := run.rt.close attempt.close
      ⟨{ g with rt := some rt }, .error (.start c.name err errs), run.calls, run.rt.closers ++ rt.closers, ran⟩
    | none => ⟨{ g with rt := some run.rt, built := true }, .ok (), run.calls, run.rt.closers, []⟩

inductive Call (γ ε : Type) where
  | with_ (components : List (Option Component))
  | build (attempt : Attempt γ ε)

def step (g : Instance γ) : Call γ ε → Option (Instance γ)
  | .with_ components => some (g.with_ components)
  | .build attempt => some (g.build attempt).builder

end Instance

end Gofi.Lifecycle
