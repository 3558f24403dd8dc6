import Gofi.Readiness.Rounds

/-! `httpx/server_health.go`: `readinessResult` and `runChecks`. A round collects the
results of its checks from a channel until all are there or its time is over; the
probes that come while it runs wait for it. Between two moments every goroutine that
can go on does so. -/

namespace Gofi.Readiness.Http

open Gofi.Go Gofi.Concurrent

/-- The loop of `runChecks`: the map of the checks without a result, the goroutines
that have not returned, the channel, and how often the loop goes on. -/
structure Gather where
  round : Round
  left : List Str
  running : List Str
  results : List (Str × Bool)
  remaining : Nat
  failed : List Str
  deriving DecidableEq

def Gather.begin (checks : List Str) (clock : Nat) : Gather :=
  { round := ⟨checks, clock, []⟩, left := checks, running := checks, results := [], remaining := checks.length,
    failed := [] }

/-- Where a probe is in `readinessResult`: before its look at the cache, waiting for
the round whose channel has this number, before `runChecks`, in its loop, and before it
stores the failures and before it closes the channel. -/
inductive Stage where
  | called
  | waiting (serial : Nat)
  | claimed (serial : Nat)
  | gathering (serial : Nat) (gather : Gather)
  | storing (serial : Nat) (round : Round) (failed : List Str)
  | closing (serial : Nat) (round : Round) (failed : List Str)
  deriving DecidableEq

structure Probe where
  arrived : Nat
  stage : Stage
  deriving DecidableEq

/-- The server: `readinessCache`, with the round that `failed` comes from, and the
channels that are closed. `answers` logs what the probes were told. -/
structure Server where
  clock : Nat
  cachedAt : Option Nat
  failed : List Str
  stored : Option Round
  pending : Option Nat
  fresh : Nat
  closed : List Nat
  probes : List Probe
  answers : List Answer

def Server.new : Server :=
  { clock := 0, cachedAt := none, failed := [], stored := none, pending := none, fresh := 0, closed := [], probes :=
    [],
    answers := [] }

namespace Server

variable (cfg : Config)

def cacheFresh (m : Server) : Bool := m.cachedAt.any (m.clock - · < cfg.ttl)

def goOn (m : Server) (place : Nat) (probe : Probe) : Server := { m with probes := probe :: m.probes.eraseIdx place }

def answer (m : Server) (place : Nat) (arrived : Nat) (failed : List Str) (round : Option Round) : Server :=
  { m with
    probes := m.probes.eraseIdx place
    answers := ⟨arrived, m.clock, failed.isEmpty, round⟩ :: m.answers }

def idle (m : Server) (probe : Probe) : Bool :=
  match probe.stage with
  | .waiting serial => serial ∉ m.closed
  | .gathering _ gather =>
    gather.results.isEmpty && gather.remaining ≠ 0 && m.clock < gather.round.started + cfg.timeout
  | _ => false

def quiet (m : Server) : Bool := m.probes.all (m.idle cfg)

/-- A probe arrives, a check of a running round returns, time goes on, or the probe at
a place does: `receives` and `expires` are the two cases of the `select`. -/
inductive Move where
  | arrives
  | returns (place : Nat) (name : Str) (outcome : Outcome)
  | tick
  | looks (place : Nat)
  | begins (place : Nat)
  | receives (place : Nat)
  | expires (place : Nat)
  | completes (place : Nat)
  | stores (place : Nat)
  | closes (place : Nat)
  | reads (place : Nat)
  deriving DecidableEq

def Move.own : Move → Bool
  | arrives | returns _ _ _ | tick => false
  | _ => true

def step (m : Server) : Move → Option Server
  | .arrives => some { m with probes := ⟨m.clock, .called⟩ :: m.probes }
  | .returns place name outcome =>
    match m.probes[place]? with
    | some ⟨arrived, .gathering serial gather⟩ =>
      -- `safeCheck` makes a panic an error
      if name ∈ gather.running then
        some (m.goOn place ⟨arrived, .gathering serial { gather with
          round := gather.round.returns name outcome m.clock
          running := gather.running.erase name
          results := gather.results ++ [(name, decide (outcome = .ok))] }⟩)
      else none
    | _ => none
  | .tick => if m.quiet cfg then some { m with clock := m.clock + 1 } else none
  | .looks place =>
    match m.probes[place]? with
    | some ⟨arrived, .called⟩ =>
      if m.cacheFresh cfg then some (m.answer place arrived m.failed m.stored)
      else match m.pending with
        | some serial => some (m.goOn place ⟨arrived, .waiting serial⟩)
        | none => some { m.goOn place ⟨arrived, .claimed m.fresh⟩ with
          pending := some m.fresh
          fresh := m.fresh + 1 }
    | _ => none
  | .begins place =>
    match m.probes[place]? with
    | some ⟨arrived, .claimed serial⟩ =>
      some (m.goOn place ⟨arrived, .gathering serial (.begin cfg.checks m.clock)⟩)
    | _ => none
  | .receives place =>
    match m.probes[place]? with
    | some ⟨arrived, .gathering serial gather⟩ =>
      match gather.remaining, gather.results with
      | remaining + 1, (name, ok) :: results =>
        some (m.goOn place ⟨arrived, .gathering serial { gather with
          left := gather.left.filter (· ≠ name)
          results
          remaining
          failed := if ok then gather.failed else gather.failed ++ [name] }⟩)
      | _, _ => none
    | _ => none
  | .expires place =>
    match m.probes[place]? with
    | some ⟨arrived, .gathering serial gather⟩ =>
      if gather.remaining ≠ 0 ∧ gather.round.started + cfg.timeout ≤ m.clock then
        some (m.goOn place ⟨arrived, .storing serial gather.round (gather.failed ++ gather.left)⟩)
      else none
    | _ => none
  | .completes place =>
    match m.probes[place]? with
    | some ⟨arrived, .gathering serial gather⟩ =>
      if gather.remaining = 0 then some (m.goOn place ⟨arrived, .storing serial gather.round gather.failed⟩) else none
    | _ => none
  | .stores place =>
    match m.probes[place]? with
    | some ⟨arrived, .storing serial round failed⟩ => some { m.goOn place ⟨arrived, .closing serial round failed⟩ with
        failed
        cachedAt := some m.clock
        stored := some round
        pending := none }
    | _ => none
  | .closes place =>
    match m.probes[place]? with
    | some ⟨arrived, .closing serial round failed⟩ =>
      some { m.answer place arrived failed (some round) with closed := serial :: m.closed }
    | _ => none
  | .reads place =>
    match m.probes[place]? with
    | some ⟨arrived, .waiting serial⟩ =>
      if serial ∈ m.closed then some (m.answer place arrived m.failed m.stored) else none
    | _ => none

end Server

end Gofi.Readiness.Http
