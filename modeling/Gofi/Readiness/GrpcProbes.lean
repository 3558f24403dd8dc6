import Gofi.Readiness.GrpcRuns

/-! No probe of `grpcx` is kept waiting when every check returns in time. -/

namespace Gofi.Readiness.Grpc.Server

open Gofi.Go Gofi.Concurrent

/-- How many moves a probe has left before it waits for something or is answered: one
that is woken up finds the round it waited for in the cache. -/
def probeRank (cfg : Config) (m : Server) (probe : Probe) : Nat :=
  match probe.stage with
  | .called => if m.cacheFresh cfg then 1 else 7
  | .claimed _ => 6
  | .gathering _ _ => 5
  | .storing _ _ _ => 4
  | .waiting serial => if serial ∈ m.closed then 2 else 3

def rank (cfg : Config) (m : Server) : Nat := (m.probes.map (m.probeRank cfg)).sum

variable {after m : Server}

private theorem probeRank_congr (clock : after.clock = m.clock) (cachedAt : after.cachedAt = m.cachedAt)
    (closed : after.closed = m.closed) : after.probeRank cfg = m.probeRank cfg := by
  have fresh : after.cacheFresh cfg = m.cacheFresh cfg := by rw [cacheFresh, cacheFresh, clock, cachedAt]
  funext probe
  simp only [probeRank, fresh, closed]

variable {probe : Probe}

theorem rank_goOn (placed : m.probes[place]? = some probe) (next : Probe)
    (probes : after.probes = next :: m.probes.eraseIdx place) (clock : after.clock = m.clock)
    (cachedAt : after.cachedAt = m.cachedAt) (closed : after.closed = m.closed)
    (less : m.probeRank cfg next < m.probeRank cfg probe) : after.rank cfg + 1 ≤ m.rank cfg := by
  rw [rank, rank, probes, probeRank_congr clock cachedAt closed, sum_eraseIdx placed, List.map_cons, List.sum_cons]
  omega

theorem rank_answer (placed : m.probes[place]? = some probe)
    (probes : after.probes = m.probes.eraseIdx place) (positive : 0 < m.probeRank cfg probe)
    (others : ∀ probe, after.probeRank cfg probe ≤ m.probeRank cfg probe) : after.rank cfg + 1 ≤ m.rank cfg := by
  have less : ∀ probes : List Probe, (probes.map (after.probeRank cfg)).sum ≤ (probes.map (m.probeRank cfg)).sum := by
    intro probes
    induction probes with
    | nil => exact Nat.le_refl _
    | cons probe rest ih => exact Nat.add_le_add (others probe) ih
  have rest := less (m.probes.eraseIdx place)
  rw [rank, rank, probes, sum_eraseIdx placed]
  omega

theorem Current.fresh (current : m.Current cfg) : m.cacheFresh cfg = true := by
  rw [cacheFresh, current.1]
  simp [cfg.ttl_pos]

theorem rank_step (sound : m.Sound cfg) (own : move.own = true) (acted : m.act cfg move = some after) :
    after.rank cfg + 1 ≤ m.rank cfg := by
  cases move <;> simp only [act] at acted
  case arrives | gives | returns | tick => cases own
  case looks place =>
    (repeat' split at acted) <;> cases acted
    · rename_i placed fresh
      exact rank_answer placed rfl (by simp [probeRank, fresh]) fun probe => Nat.le_refl _
    · rename_i placed stale _ _ _
      refine rank_goOn placed _ rfl rfl rfl rfl ?_
      simp only [probeRank, stale]
      split <;> decide
    · rename_i placed stale _ _
      refine rank_goOn placed _ rfl rfl rfl rfl ?_
      simp [probeRank, stale]
  case wakes place =>
    (repeat' split at acted) <;> cases acted
    rename_i placed closed
    have fresh := (sound.probes _ (List.mem_of_getElem? placed) closed).fresh
    refine rank_goOn placed _ rfl rfl rfl rfl ?_
    simp [probeRank, fresh, closed]
  case begins place =>
    split at acted <;> cases acted
    rename_i placed
    exact rank_goOn placed _ rfl rfl rfl rfl (by simp [probeRank])
  case completes place =>
    (repeat' split at acted) <;> cases acted
    rename_i placed _
    exact rank_goOn placed _ rfl rfl rfl rfl (by simp [probeRank])
  case stores place =>
    split at acted <;> cases acted
    rename_i placed
    refine rank_answer placed rfl (by simp [probeRank]) fun probe => ?_
    obtain ⟨arrived, stage⟩ := probe
    cases stage with
    | called =>
      simp only [probeRank]
      rw [if_pos (by simp [cacheFresh, Server.answer, cfg.ttl_pos])]
      split <;> decide
    | waiting serial =>
      simp only [probeRank, List.mem_cons]
      by_cases closed : serial ∈ m.closed
      · simp [closed]
      · simp only [closed, or_false, if_false]
        split <;> decide
    | claimed _ | gathering _ _ | storing _ _ _ => exact Nat.le_refl _

theorem Sound.goes (sound : m.Sound cfg) (busy : m.quiet = false) :
    ∃ move : Move, move.own = true ∧ (m.step cfg move).isSome = true := by
  obtain ⟨probe, member, works⟩ := List.all_eq_false.mp busy
  obtain ⟨place, placed⟩ := List.mem_iff_getElem?.mp member
  have alive := sound.alive
  obtain ⟨arrived, stage⟩ := probe
  cases stage with
  | called =>
    refine ⟨.looks place, rfl, ?_⟩
    simp only [Server.step, act, placed, alive, Bool.false_eq_true, if_false]
    (repeat' split) <;> rfl
  | claimed serial => exact ⟨.begins place, rfl, by simp [Server.step, act, placed, alive]⟩
  | storing serial round ok => exact ⟨.stores place, rfl, by simp [Server.step, act, placed, alive]⟩
  | waiting serial =>
    have closed : serial ∈ m.closed := by simpa [Server.idle] using works
    exact ⟨.wakes place, rfl, by simp [Server.step, act, placed, alive, closed]⟩
  | gathering serial gather =>
    have spent : gather.running = [] := by simpa [Server.idle] using works
    exact ⟨.completes place, rfl, by simp [Server.step, act, placed, alive, spent]⟩

def Waits (cfg : Config) (m : Server) (probe : Probe) : Prop :=
  ∃ runner ∈ m.probes, ∃ serial gather, runner.stage = .gathering serial gather ∧
    (probe = runner ∨ probe.stage = .waiting serial) ∧ gather.running ≠ [] ∧
    m.clock ≤ gather.round.started + cfg.timeout

theorem Sound.waits (sound : m.Sound cfg) (flights : m.Flights) (quiet : m.quiet = true)
    (member : probe ∈ m.probes) : m.Waits cfg probe := by
  have idle := List.all_eq_true.mp quiet
  have here := idle probe member
  have fine := sound.probes probe member
  obtain ⟨arrived, stage⟩ := probe
  cases stage with
  | gathering serial gather =>
    exact ⟨_, member, serial, gather, rfl, .inl rfl, by simpa [Server.idle] using here, fine.1⟩
  | waiting serial =>
    have unclosed : serial ∉ m.closed := by simpa [Server.idle] using here
    have served := flights.served _ member serial rfl
    obtain ⟨runner, runs, serves⟩ := List.mem_filterMap.mp ((List.mem_append.mp served).resolve_right unclosed)
    have busy := idle runner runs
    have fine := sound.probes runner runs
    obtain ⟨came, stage⟩ := runner
    cases stage with
    | gathering other gather =>
      cases serves
      exact ⟨_, runs, serial, gather, rfl, .inr rfl, by simpa [Server.idle] using busy, fine.1⟩
    | waiting _ | called => cases serves
    | claimed _ | storing _ _ _ => cases busy
  | called | claimed _ | storing _ _ _ => cases here

/-- What is promised to the probes: the answers are fine, one round runs at a time, no
check has ended the process, and until the next moment the server makes a bounded
number of moves, after which a probe without an answer waits for checks. -/
structure KeepsProbes (cfg : Config) (m : Server) : Prop where
  answers : ∀ answer ∈ m.answers, answer.Fine cfg.timeout
  single : (m.probes.filterMap roles.runs).length ≤ 1
  alive : m.crashed = false
  bounded : ∀ moves after, (∀ move ∈ moves, move.own = true) → feed (step cfg) m moves = some after →
    moves.length ≤ m.rank cfg
  goes : m.quiet = false → ∃ move : Move, move.own = true ∧ (m.step cfg move).isSome = true
  waits : m.quiet = true → ∀ probe ∈ m.probes, m.Waits cfg probe

theorem act_of_step (stepped : m.step cfg move = some after) : m.act cfg move = some after := by
  simp only [step] at stepped
  split at stepped
  · cases stepped
  · exact stepped

theorem Sound.bounded (sound : m.Sound cfg) (flights : m.Flights)
    (own : ∀ move ∈ moves, Move.own move = true) (run : feed (Server.step cfg) m moves = some after) :
    moves.length ≤ m.rank cfg := by
  have along : Along (Server.step cfg) (fun _ move => Move.own move = true) m moves :=
    .of_all fun move member _ => own move member
  have bound := (Along.bounded (fun state => state.Sound cfg ∧ state.Flights) (rank cfg) (fun _ => true)
    (fun state move _ held own stepped => by
      have acted := act_of_step stepped
      have orderly : state.Orderly cfg move := by cases move <;> first | rfl | cases own
      exact ⟨⟨held.1.step held.2 orderly acted, held.2.step acted⟩, rank_step held.1 own acted⟩)
    ⟨sound, flights⟩ along run).2
  rw [List.countP_true] at bound
  omega

theorem keepsProbes (orderly : Along (step cfg) (Orderly cfg) new moves) (run : feed (step cfg) new moves = some m) :
    m.KeepsProbes cfg := by
  have kept : m.Sound cfg ∧ m.Flights := Along.invariant (fun state => state.Sound cfg ∧ state.Flights)
    (fun _ _ _ held ok stepped =>
      ⟨held.1.step held.2 ok (act_of_step stepped), held.2.step (act_of_step stepped)⟩)
    ⟨Sound.new, Roles.Flights.new⟩ orderly run
  exact ⟨kept.1.answers, kept.2.length_le_one, kept.1.alive, fun _ _ own run => kept.1.bounded kept.2 own run,
    kept.1.goes, fun quiet _ member => kept.1.waits kept.2 quiet member⟩

end Gofi.Readiness.Grpc.Server
