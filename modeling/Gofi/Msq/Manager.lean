import Gofi.Concurrent.Machine

/-! `core/manager.go`: the consumer manager. `start` takes the entries registered
since the last start in one critical section, creates their consumers outside the
lock, and hands each to a supervisor in a second one; supervisors recreate their
consumer whenever it stops, until `Close` cancels the context and waits for them. -/

namespace Gofi.Msq.Core

open Gofi.Concurrent

/-- Where the loop of `start` is: at its head, in `newConsumer`, before the second
critical section with what `newConsumer` returned, or in `closeConsumer` because
the manager was closed in the meantime. -/
inductive StartStage where
  | looping
  | creating (entry : Nat)
  | offered (entry : Nat) (consumer : Option Nat)
  | closing (entry consumer : Nat)
  deriving DecidableEq

structure StartCall where
  stage : StartStage
  pending : List Nat
  deriving DecidableEq

namespace StartStage

def entries : StartStage → List Nat
  | looping => []
  | creating entry | offered entry _ | closing entry _ => [entry]

def held : StartStage → List (Nat × Nat)
  | offered entry (some consumer) | closing entry consumer => [(entry, consumer)]
  | _ => []

end StartStage

namespace StartCall

def entries (call : StartCall) : List Nat := call.stage.entries ++ call.pending

def held (call : StartCall) : List (Nat × Nat) := call.stage.held

end StartCall

/-- Where a supervisor is: asleep before it creates a consumer, in `newConsumer`,
about to call `Consume`, in it, in `closeConsumer`, before it looks at the
context, or returned. -/
inductive Stage where
  | lacking
  | creating
  | starting (consumer : Nat)
  | consuming (consumer : Nat)
  | closing (consumer : Nat)
  | checking
  | ended
  deriving DecidableEq

structure Supervisor where
  entry : Nat
  stage : Stage
  deriving DecidableEq

def Supervisor.held (supervisor : Supervisor) : List (Nat × Nat) :=
  match supervisor.stage with
  | .starting consumer | .consuming consumer | .closing consumer => [(supervisor.entry, consumer)]
  | _ => []

/-- The manager. `entries` tells of each registered entry whether it has a topic;
`closed`, `canceled` and `done` are the flag, the context and the channel of the
source; `wg` counts the supervisors that have not returned. Consumers are numbered
as they are created; `consumed` and `closes` log the calls of `Consume` and `Close`
on them. -/
structure Manager where
  entries : List Bool
  started : Nat
  closed : Bool
  canceled : Bool
  done : Bool
  calls : List StartCall
  supervisors : List Supervisor
  created : Nat
  consumed : List Nat
  closes : List Nat

namespace Manager

def new : Manager := ⟨[], 0, false, false, false, [], [], 0, [], []⟩

def continues (m : Manager) (place : Nat) (call : StartCall) : Manager :=
  { m with calls := call :: m.calls.eraseIdx place }

def supervises (m : Manager) (place : Nat) (supervisor : Supervisor) : Manager :=
  { m with supervisors := supervisor :: m.supervisors.eraseIdx place }

/-- The steps of the goroutines between which others may run. `registers` to
`closesOffered` are `Register` and `start`, which `Dispatcher` ends in; `sleeps` to
`checks` are `supervise`; `locks`, `cancels` and `drains` are `CloseContext` and the
goroutine it starts. -/
inductive Move where
  | registers (topic : Bool)
  | starts
  | visits (place : Nat)
  | answers (place : Nat) (success : Bool)
  | decides (place : Nat)
  | closesOffered (place : Nat)
  | sleeps (place : Nat)
  | interrupted (place : Nat)
  | recreates (place : Nat) (success : Bool)
  | consumes (place : Nat)
  | stops (place : Nat)
  | closesConsumer (place : Nat)
  | checks (place : Nat)
  | locks
  | cancels
  | drains

def firstStage : Option Nat → Stage
  | some consumer => .starting consumer
  | none => .lacking

def refusedStage (entry : Nat) : Option Nat → StartStage
  | some consumer => .closing entry consumer
  | none => .looping

def step (m : Manager) : Move → Option Manager
  | .registers topic => some { m with entries := m.entries ++ [topic] }
  | .starts => if m.closed then some m else some { m with
      started := m.entries.length
      calls := ⟨.looping, List.range' m.started (m.entries.length - m.started)⟩ :: m.calls }
  | .visits place =>
    match m.calls[place]? with
    | some ⟨.looping, []⟩ => some { m with calls := m.calls.eraseIdx place }
    | some ⟨.looping, entry :: rest⟩ =>
      -- an entry without a topic is an error of the call, and nothing else
      some (m.continues place ⟨if m.entries[entry]? = some true then .creating entry else .looping, rest⟩)
    | _ => none
  | .answers place success =>
    match m.calls[place]? with
    | some ⟨.creating entry, rest⟩ =>
      if success then some { m.continues place ⟨.offered entry (some m.created), rest⟩ with created := m.created + 1 }
      else some (m.continues place ⟨.offered entry none, rest⟩)
    | _ => none
  | .decides place =>
    match m.calls[place]? with
    | some ⟨.offered entry consumer, rest⟩ =>
      if m.closed then some (m.continues place ⟨refusedStage entry consumer, rest⟩)
      else some { m.continues place ⟨.looping, rest⟩ with
        supervisors := ⟨entry, firstStage consumer⟩ :: m.supervisors }
    | _ => none
  | .closesOffered place =>
    match m.calls[place]? with
    | some ⟨.closing _ consumer, rest⟩ =>
      some { m.continues place ⟨.looping, rest⟩ with closes := consumer :: m.closes }
    | _ => none
  | .sleeps place =>
    -- the timer may win although the context has ended
    match m.supervisors[place]? with
    | some ⟨entry, .lacking⟩ => some (m.supervises place ⟨entry, .creating⟩)
    | _ => none
  | .interrupted place =>
    match m.supervisors[place]? with
    | some ⟨entry, .lacking⟩ => if m.canceled then some (m.supervises place ⟨entry, .ended⟩) else none
    | _ => none
  | .recreates place success =>
    match m.supervisors[place]? with
    | some ⟨entry, .creating⟩ =>
      if success then some { m.supervises place ⟨entry, .starting m.created⟩ with created := m.created + 1 }
      else some (m.supervises place ⟨entry, .lacking⟩)
    | _ => none
  | .consumes place =>
    match m.supervisors[place]? with
    | some ⟨entry, .starting consumer⟩ =>
      some { m.supervises place ⟨entry, .consuming consumer⟩ with consumed := consumer :: m.consumed }
    | _ => none
  | .stops place =>
    match m.supervisors[place]? with
    | some ⟨entry, .consuming consumer⟩ => some (m.supervises place ⟨entry, .closing consumer⟩)
    | _ => none
  | .closesConsumer place =>
    match m.supervisors[place]? with
    | some ⟨entry, .closing consumer⟩ =>
      some { m.supervises place ⟨entry, .checking⟩ with closes := consumer :: m.closes }
    | _ => none
  | .checks place =>
    match m.supervisors[place]? with
    | some ⟨entry, .checking⟩ => some (m.supervises place ⟨entry, if m.canceled then .ended else .lacking⟩)
    | _ => none
  | .locks => some { m with closed := true }
  | .cancels => if m.closed then some { m with canceled := true } else none
  | .drains =>
    if m.canceled ∧ ∀ supervisor ∈ m.supervisors, supervisor.stage = .ended then some { m with done := true } else none

end Manager

end Gofi.Msq.Core
