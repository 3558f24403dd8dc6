import Gofi.Go.Text
import Gofi.Concurrent.SingleFlight

/-! Rounds of readiness checks, and what a probe may expect from the round that its
answer comes from. Time is counted in nanoseconds. -/

namespace Gofi.Readiness

open Gofi.Go Gofi.Concurrent

inductive Outcome where
  | ok
  | error
  | panic
  deriving DecidableEq

structure Return where
  name : Str
  outcome : Outcome
  time : Nat
  deriving DecidableEq

structure Round where
  names : List Str
  started : Nat
  returned : List Return
  deriving DecidableEq

def Round.PassedBy (timeout : Nat) (round : Round) (name : Str) : Prop :=
  ∃ time, ⟨name, .ok, time⟩ ∈ round.returned ∧ time ≤ round.started + timeout

/-- Every check of the round has returned nil in time: none has panicked, failed or
kept the round waiting. -/
def Round.Passed (timeout : Nat) (round : Round) : Prop := ∀ name ∈ round.names, round.PassedBy timeout name

def Round.returns (round : Round) (name : Str) (outcome : Outcome) (time : Nat) : Round :=
  { round with returned := round.returned ++ [⟨name, outcome, time⟩] }

theorem Round.PassedBy.later {round : Round} (passed : round.PassedBy timeout name) :
    (round.returns other outcome time).PassedBy timeout name := by
  obtain ⟨when_, member, intime⟩ := passed
  exact ⟨when_, List.mem_append_left _ member, intime⟩

theorem Round.passedBy_returns {round : Round} (intime : time ≤ round.started + timeout) :
    (round.returns name .ok time).PassedBy timeout name :=
  ⟨time, List.mem_append_right _ (List.mem_singleton_self _), intime⟩

/-- The answer to a probe; `round` is the one it comes from, none when the probe gave
up waiting. -/
structure Answer where
  arrived : Nat
  answered : Nat
  ready : Bool
  round : Option Round

/-- The answer is given by the end of the time the round has, or at once when the
probe came later, and it is "ready" only if every check has passed in time. -/
def Answer.Fine (timeout : Nat) (answer : Answer) : Prop :=
  match answer.round with
  | some round => answer.answered ≤ max answer.arrived (round.started + timeout) ∧
    (answer.ready = true → round.Passed timeout)
  | none => answer.ready = false

theorem fine_of_round {round : Round} (intime : arrived = clock ∨ clock ≤ round.started + timeout)
    (passed : ready = true → round.Passed timeout) : Answer.Fine timeout ⟨arrived, clock, ready, some round⟩ :=
  ⟨le_max_iff.mpr (intime.imp_left (·.ge)), passed⟩

def orDefault (duration fallback : Int) : Int := if duration ≤ 0 then fallback else duration

/-- The registered checks and the two durations of `HealthConfig`. -/
structure Config where
  checks : List Str
  checkTimeout : Int
  cacheTTL : Int

def Config.timeout (cfg : Config) : Nat := (orDefault cfg.checkTimeout 2000000000).toNat

def Config.ttl (cfg : Config) : Nat := (orDefault cfg.cacheTTL 1000000000).toNat

theorem Config.ttl_pos (cfg : Config) : 0 < cfg.ttl := by
  rw [ttl, orDefault]
  split <;> omega

end Gofi.Readiness
