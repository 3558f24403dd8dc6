import Gofi.Readiness.Rounds

/-! `grpcx/health.go`: `result` and `runChecks`. A round waits for its checks to
return; the probes that come while it runs wait for it and look at the cache again, or
give up when their own context is done. Between two moments every goroutine that can
go on does so. -/

namespace Gofi.Readiness.Grpc

open Gofi.Go Gofi.Concurrent

structure Gather where
  round : Round
  running : List Str
  failed : Bool
  deriving DecidableEq

/-- Where a probe is in `result`: before its look at the cache, waiting for the round
whose channel has this number, before `runChecks`, in it, and before it stores the
outcome. -/
inductive Stage where
  | called
  | waiting (serial : Nat)
  | claimed (serial : Nat)
  | gathering (serial : Nat) (gather : Gather)
  | storing (serial : Nat) (round : Round) (ok : Bool)
  deriving DecidableEq

structure Probe where
  arrived : Nat
  stage : Stage
  deriving DecidableEq

/-- The `healthService`, with the round that `ok` comes from, and the channels that
are closed. `answers` logs what the probes were told, `crashed` that the process has
ended. -/
structure Server where
  clock : Nat
  cachedAt : Option Nat
  ok : Bool
  stored : Option Round
  flight : Option Nat
  fresh : Nat
  closed : List Nat
  probes : List Probe
  answers : List Answer
  crashed : Bool

def Server.new : Server :=
  { clock := 0, cachedAt := none, ok := false, stored := none, flight := none, fresh := 0, closed := [], probes := [],
    answers := [], crashed := false }

namespace Server

variable (cfg : Config)

def cacheFresh (m : Server) : Bool := m.cachedAt.any (m.clock - · < cfg.ttl)

def goOn (m : Server) (place : Nat) (probe : Probe) : Server := { m with probes := probe :: m.probes.eraseIdx place }

def answer (m : Server) (place : Nat) (arrived : Nat) (ok : Bool) (round : Option Round) : Server :=
  { m with
    probes := m.probes.eraseIdx place
    answers := ⟨arrived, m.clock, ok, round⟩ :: m.answers }

def idle (m : Server) (probe : Probe) : Bool :=
  match probe.stage with
  | .waiting serial => serial ∉ m.closed
  | .gathering _ gather => !gather.running.isEmpty
  | _ => false

def quiet (m : Server) : Bool := m.probes.all m.idle

inductive Move where
  | arrives
  | gives (place : Nat)
  | returns (place : Nat) (name : Str) (outcome : Outcome)
  | tick
  | looks (place : Nat)
  | wakes (place : Nat)
  | begins (place : Nat)
  | completes (place : Nat)
  | stores (place : Nat)
  deriving DecidableEq

def Move.own : Move → Bool
  | arrives | gives _ | returns _ _ _ | tick => false
  | _ => true

def act (m : Server) : Move → Option Server
  | .arrives => some { m with probes := ⟨m.clock, .called⟩ :: m.probes }
  | .gives place =>
    match m.probes[place]? with
    | some ⟨arrived, .waiting _⟩ => some (m.answer place arrived false none)
    | _ => none
  | .returns place name outcome =>
    match m.probes[place]? with
    | some ⟨arrived, .gathering serial gather⟩ =>
      if name ∈ gather.running then
        match outcome with
        -- `wg.Go` does not recover
        | .panic => some { m with crashed := true }
        | _ => some (m.goOn place ⟨arrived, .gathering serial
            { round := gather.round.returns name outcome m.clock
              running := gather.running.erase name
              failed := gather.failed || outcome ≠ .ok }⟩)
      else none
    | _ => none
  | .tick => if m.quiet then some { m with clock := m.clock + 1 } else none
  | .looks place =>
    match m.probes[place]? with
    | some ⟨arrived, .called⟩ =>
      if m.cacheFresh cfg then some (m.answer place arrived m.ok m.stored)
      else match m.flight with
        | some serial => some (m.goOn place ⟨arrived, .waiting serial⟩)
        | none => some { m.goOn place ⟨arrived, .claimed m.fresh⟩ with
          flight := some m.fresh
          fresh := m.fresh + 1 }
    | _ => none
  | .wakes place =>
    match m.probes[place]? with
    | some ⟨arrived, .waiting serial⟩ =>
      if serial ∈ m.closed then some (m.goOn place ⟨arrived, .called⟩) else none
    | _ => none
  | .begins place =>
    match m.probes[place]? with
    | some ⟨arrived, .claimed serial⟩ =>
      some (m.goOn place ⟨arrived, .gathering serial ⟨⟨cfg.checks, m.clock, []⟩, cfg.checks, false⟩⟩)
    | _ => none
  | .completes place =>
    match m.probes[place]? with
    | some ⟨arrived, .gathering serial gather⟩ =>
      if gather.running = [] then some (m.goOn place ⟨arrived, .storing serial gather.round (!gather.failed)⟩)
      else none
    | _ => none
  | .stores place =>
    match m.probes[place]? with
    | some ⟨arrived, .storing serial round ok⟩ => some { m.answer place arrived ok (some round) with
        ok
        cachedAt := some m.clock
        stored := some round
        flight := none
        closed := serial :: m.closed }
    | _ => none

def step (m : Server) (move : Move) : Option Server := if m.crashed then none else m.act cfg move

end Server

end Gofi.Readiness.Grpc
