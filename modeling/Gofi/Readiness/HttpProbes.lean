import Gofi.Readiness.HttpRuns

/-! No probe of `httpx` is kept waiting: the server goes on until every probe has its
answer or waits for checks that have time left. -/

namespace Gofi.Readiness.Http.Server

open Gofi.Go Gofi.Concurrent

def probeRank (cfg : Config) (probe : Probe) : Nat :=
  match probe.stage with
  | .called => 6 + cfg.checks.length
  | .claimed _ => 5 + cfg.checks.length
  | .gathering _ gather => 4 + gather.remaining
  | .storing _ _ _ => 3
  | .closing _ _ _ => 2
  | .waiting _ => 1

def rank (cfg : Config) (m : Server) : Nat := (m.probes.map (probeRank cfg)).sum

variable {after m : Server} {probe : Probe}

theorem rank_goOn (placed : m.probes[place]? = some probe) (next : Probe)
    (probes : after.probes = next :: m.probes.eraseIdx place) (less : probeRank cfg next < probeRank cfg probe) :
    after.rank cfg + 1 ≤ m.rank cfg := by
  rw [rank, rank, probes, sum_eraseIdx placed, List.map_cons, List.sum_cons]
  omega

theorem rank_answer (placed : m.probes[place]? = some probe)
    (probes : after.probes = m.probes.eraseIdx place) (positive : 0 < probeRank cfg probe) :
    after.rank cfg + 1 ≤ m.rank cfg := by
  rw [rank, rank, probes, sum_eraseIdx placed]
  omega

theorem rank_step (own : move.own = true) (stepped : m.step cfg move = some after) :
    after.rank cfg + 1 ≤ m.rank cfg := by
  cases move <;> simp only [Server.step] at stepped
  case arrives | returns | tick => cases own
  case looks place =>
    (repeat' split at stepped) <;> cases stepped
    · rename_i placed _
      exact rank_answer placed rfl (by simp [probeRank])
    · rename_i placed _ _ _ _
      exact rank_goOn placed _ rfl (by simp only [probeRank]; omega)
    · rename_i placed _ _ _
      exact rank_goOn placed _ rfl (by simp only [probeRank]; omega)
  case begins place =>
    split at stepped <;> cases stepped
    rename_i placed
    exact rank_goOn placed _ rfl (by simp only [probeRank, Gather.begin]; omega)
  case receives place =>
    split at stepped
    · rename_i placed
      split at stepped <;> cases stepped
      rename_i count queued
      exact rank_goOn placed _ rfl (by simp only [probeRank, count]; omega)
    · cases stepped
  case expires place =>
    (repeat' split at stepped) <;> cases stepped
    rename_i placed _
    exact rank_goOn placed _ rfl (by simp only [probeRank]; omega)
  case completes place =>
    (repeat' split at stepped) <;> cases stepped
    rename_i placed _
    exact rank_goOn placed _ rfl (by simp only [probeRank]; omega)
  case stores place =>
    split at stepped <;> cases stepped
    rename_i placed
    exact rank_goOn placed _ rfl (by simp only [probeRank]; omega)
  case closes place =>
    split at stepped <;> cases stepped
    rename_i placed
    exact rank_answer placed rfl (by simp [probeRank])
  case reads place =>
    (repeat' split at stepped) <;> cases stepped
    rename_i placed _
    exact rank_answer placed rfl (by simp [probeRank])

theorem Sound.goes (sound : m.Sound cfg) (busy : m.quiet cfg = false) :
    ∃ move : Move, move.own = true ∧ (m.step cfg move).isSome = true := by
  obtain ⟨probe, member, works⟩ := List.all_eq_false.mp busy
  obtain ⟨place, placed⟩ := List.mem_iff_getElem?.mp member
  have fine := sound.probes probe member
  obtain ⟨arrived, stage⟩ := probe
  cases stage with
  | called =>
    refine ⟨.looks place, rfl, ?_⟩
    simp only [Server.step, placed]
    (repeat' split) <;> rfl
  | claimed serial => exact ⟨.begins place, rfl, by simp [Server.step, placed]⟩
  | storing serial round failed => exact ⟨.stores place, rfl, by simp [Server.step, placed]⟩
  | closing serial round failed => exact ⟨.closes place, rfl, by simp [Server.step, placed]⟩
  | waiting serial =>
    have closed : serial ∈ m.closed := by simpa [Server.idle] using works
    exact ⟨.reads place, rfl, by simp [Server.step, placed, closed]⟩
  | gathering serial gather =>
    have counted := fine.2.counted
    cases results : gather.results with
    | cons result later =>
      obtain ⟨less, count⟩ : ∃ less, gather.remaining = less + 1 :=
        ⟨gather.running.length + later.length, by rw [counted, results, List.length_cons]; omega⟩
      exact ⟨.receives place, rfl, by simp [Server.step, placed, count, results]⟩
    | nil =>
      by_cases spent : gather.remaining = 0
      · exact ⟨.completes place, rfl, by simp [Server.step, placed, spent]⟩
      · have late : gather.round.started + cfg.timeout ≤ m.clock := by
          simpa [Server.idle, results, spent] using works
        exact ⟨.expires place, rfl, by simp [Server.step, placed, spent, late]⟩

/-- The probe waits, or has its round run, and the round has time left. -/
def Waits (cfg : Config) (m : Server) (probe : Probe) : Prop :=
  ∃ runner ∈ m.probes, ∃ serial gather, runner.stage = .gathering serial gather ∧
    (probe = runner ∨ probe.stage = .waiting serial) ∧ m.clock < gather.round.started + cfg.timeout

theorem Flights.waits (flights : m.Flights) (quiet : m.quiet cfg = true) (member : probe ∈ m.probes) :
    m.Waits cfg probe := by
  have idle := List.all_eq_true.mp quiet
  have here := idle probe member
  obtain ⟨arrived, stage⟩ := probe
  cases stage with
  | gathering serial gather =>
    simp only [Server.idle, Bool.and_eq_true, decide_eq_true_eq] at here
    exact ⟨_, member, serial, gather, rfl, .inl rfl, here.2⟩
  | waiting serial =>
    have unclosed : serial ∉ m.closed := by simpa [Server.idle] using here
    have served := flights.served _ member serial rfl
    obtain ⟨runner, runs, serves⟩ := List.mem_filterMap.mp ((List.mem_append.mp served).resolve_right unclosed)
    have busy := idle runner runs
    obtain ⟨came, stage⟩ := runner
    cases stage with
    | gathering other gather =>
      cases serves
      simp only [Server.idle, Bool.and_eq_true, decide_eq_true_eq] at busy
      exact ⟨_, runs, serial, gather, rfl, .inr rfl, busy.2⟩
    | waiting _ | called => cases serves
    | claimed _ | storing _ _ _ | closing _ _ _ => cases busy
  | called | claimed _ | storing _ _ _ | closing _ _ _ => cases here

/-- What is promised to the probes: the answers are fine, one round runs at a time,
and until the next moment the server makes a bounded number of moves, after which a
probe without an answer waits for checks that have time left. -/
structure KeepsProbes (cfg : Config) (m : Server) : Prop where
  answers : ∀ answer ∈ m.answers, answer.Fine cfg.timeout
  single : (m.probes.filterMap roles.runs).length ≤ 1
  bounded : ∀ moves after, (∀ move ∈ moves, move.own = true) → feed (step cfg) m moves = some after →
    moves.length ≤ m.rank cfg
  goes : m.quiet cfg = false → ∃ move : Move, move.own = true ∧ (m.step cfg move).isSome = true
  waits : m.quiet cfg = true → ∀ probe ∈ m.probes, m.Waits cfg probe

theorem bounded (own : ∀ move ∈ moves, Move.own move = true) (run : feed (step cfg) m moves = some after) :
    moves.length ≤ m.rank cfg := by
  have along : Along (step cfg) (fun _ move => Move.own move = true) m moves := .of_all fun move member _ =>
    own move member
  have bound := (Along.bounded (fun _ => True) (rank cfg) (fun _ => true)
    (fun _ _ _ _ own stepped => ⟨trivial, rank_step own stepped⟩) trivial along run).2
  rw [List.countP_true] at bound
  omega

theorem keepsProbes (run : feed (step cfg) new moves = some m) : m.KeepsProbes cfg := by
  have kept : m.Sound cfg ∧ m.Flights := feed_invariant (fun state => state.Sound cfg ∧ state.Flights)
    (fun _ _ _ held stepped => ⟨held.1.step held.2 stepped, held.2.step stepped⟩) ⟨Sound.new, Roles.Flights.new⟩ run
  exact ⟨kept.1.answers, kept.2.length_le_one, fun _ _ own run => bounded own run, kept.1.goes,
    fun quiet _ member => kept.2.waits quiet member⟩

end Gofi.Readiness.Http.Server
