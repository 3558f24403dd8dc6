import Gofi.Readiness.HttpProbes
import Gofi.Readiness.GrpcProbes

/-! The readiness probes of both servers: `httpx` answers whatever its checks do,
`grpcx` when they return in time. -/

namespace Gofi.Readiness

open Gofi.Go Gofi.Concurrent

/-- Every run of the probes of `httpx` keeps the promise, and so does every run of
those of `grpcx` in which each check returns in time and none panics. -/
theorem probes_are_answered (cfg : Config) :
    (∀ moves m, feed (Http.Server.step cfg) Http.Server.new moves = some m → m.KeepsProbes cfg) ∧
    ∀ moves m, Along (Grpc.Server.step cfg) (Grpc.Server.Orderly cfg) Grpc.Server.new moves →
      feed (Grpc.Server.step cfg) Grpc.Server.new moves = some m → m.KeepsProbes cfg :=
  ⟨fun _ _ run => Http.Server.keepsProbes run, fun _ _ orderly run => Grpc.Server.keepsProbes orderly run⟩

def oneCheck : Config := ⟨[ascii "db"], 1, 1⟩

def sharedRound : List Grpc.Server.Move :=
  [.arrives, .looks 0, .begins 0, .arrives, .looks 0, .tick, .returns 1 (ascii "db") .ok, .completes 0, .stores 0,
    .wakes 0, .looks 0]

theorem shared_round_is_ready : ∃ m, feed (Grpc.Server.step oneCheck) Grpc.Server.new sharedRound = some m ∧
    m.answers.map (·.ready) = [true, true] ∧ m.KeepsProbes oneCheck := by
  have orderly : Along (Grpc.Server.step oneCheck) (Grpc.Server.Orderly oneCheck) Grpc.Server.new sharedRound := by
    decide
  exact ⟨_, rfl, rfl, (probes_are_answered oneCheck).2 sharedRound _ orderly rfl⟩

def panickingCheck : List Grpc.Server.Move :=
  [.arrives, .looks 0, .begins 0, .returns 0 (ascii "db") .panic]

def blockingCheck : List Grpc.Server.Move :=
  [.arrives, .looks 0, .begins 0, .arrives, .looks 0, .tick, .tick]

def lateCheck : List Grpc.Server.Move :=
  [.arrives, .looks 0, .begins 0, .tick, .tick, .returns 0 (ascii "db") .ok, .completes 0, .stores 0]

/-- A check of `grpcx` ends the process with a panic, keeps all probes waiting beyond
its time, or passes after it. -/
theorem grpcx_check_defeats_probes :
    (∃ m, feed (Grpc.Server.step oneCheck) Grpc.Server.new panickingCheck = some m ∧ m.crashed = true) ∧
    (∃ m, feed (Grpc.Server.step oneCheck) Grpc.Server.new blockingCheck = some m ∧ m.quiet = true ∧
      m.answers.length = 0 ∧ m.probes.map (·.arrived) = [0, 0] ∧ oneCheck.timeout < m.clock) ∧
    ∃ m answer round, feed (Grpc.Server.step oneCheck) Grpc.Server.new lateCheck = some m ∧ m.answers = [answer] ∧
      answer.round = some round ∧ answer.ready = true ∧ ¬ round.Passed oneCheck.timeout ∧
      ¬ answer.Fine oneCheck.timeout := by
  refine ⟨⟨_, rfl, rfl⟩, ⟨_, rfl, rfl, rfl, rfl, by decide⟩, ⟨_, _, _, rfl, rfl, rfl, rfl, ?_, ?_⟩⟩
  · intro passed
    obtain ⟨time, member, intime⟩ := passed _ List.mem_cons_self
    cases List.mem_singleton.mp member
    exact absurd intime (by decide)
  · intro fine
    exact absurd fine.1 (by decide)

end Gofi.Readiness
