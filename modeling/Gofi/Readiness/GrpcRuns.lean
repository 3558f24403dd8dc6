import Gofi.Readiness.Grpc

/-! What the runs of the readiness probes of `grpcx` keep when every check returns in
time and does not panic. -/

namespace Gofi.Readiness.Grpc

open Gofi.Go Gofi.Concurrent

def roles : Roles Probe where
  runs probe := match probe.stage with
    | .claimed serial | .gathering serial _ | .storing serial _ _ => some serial
    | _ => none
  serves probe := match probe.stage with
    | .claimed serial | .gathering serial _ | .storing serial _ _ => some serial
    | _ => none
  waits probe := match probe.stage with
    | .waiting serial => some serial
    | _ => none
  serves_of_runs _ _ same := same

/-- Every check of the round still runs, has failed or has passed. -/
def Gather.Kept (timeout : Nat) (gather : Gather) : Prop :=
  ∀ name ∈ gather.round.names, name ∈ gather.running ∨ gather.failed = true ∨ gather.round.PassedBy timeout name

variable {gather : Gather}

theorem Gather.Kept.returns (kept : gather.Kept timeout)
    (intime : clock ≤ gather.round.started + timeout) (name : Str) (outcome : Outcome) : Gather.Kept timeout
      { round := gather.round.returns name outcome clock
        running := gather.running.erase name
        failed := gather.failed || outcome ≠ .ok } := by
  intro other member
  rcases kept other member with running | failed | passed
  · by_cases same : other = name
    · by_cases ok : outcome = .ok
      · rw [same, ok]
        exact .inr (.inr (Round.passedBy_returns intime))
      · exact .inr (.inl (by simp [ok]))
    · exact .inl ((List.mem_erase_of_ne same).mpr running)
  · exact .inr (.inl (by simp [failed]))
  · exact .inr (.inr passed.later)

theorem Gather.Kept.passed (kept : gather.Kept timeout) (spent : gather.running = [])
    (ok : (!gather.failed) = true) : gather.round.Passed timeout := by
  intro name member
  rcases kept name member with running | failed | passed
  · simp [spent] at running
  · simp [failed] at ok
  · exact passed

namespace Server

variable (cfg : Config)

def inTime (m : Server) (probe : Probe) : Bool :=
  match probe.stage with
  | .gathering _ gather => gather.running.isEmpty || m.clock < gather.round.started + cfg.timeout
  | _ => true

/-- The steps of a run in which no check panics, and time does not go on when a round
has none left and a check of it has not returned. -/
def orderly (m : Server) : Move → Bool
  | .returns _ _ .panic => false
  | .tick => m.probes.all (m.inTime cfg)
  | _ => true

def Orderly (m : Server) (move : Move) : Prop := m.orderly cfg move = true

instance (m : Server) (move : Move) : Decidable (m.Orderly cfg move) := inferInstanceAs (Decidable (_ = true))

def Current (m : Server) : Prop :=
  m.cachedAt = some m.clock ∧ ∃ round, m.stored = some round ∧ m.clock ≤ round.started + cfg.timeout

/-- What a probe can rely on: it has just arrived, or the round it runs, or the one
whose end it has been told, has time left. -/
def FineAt (m : Server) (arrived : Nat) : Stage → Prop
  | .called => arrived = m.clock ∨ m.Current cfg
  | .waiting serial => serial ∈ m.closed → m.Current cfg
  | .claimed _ => True
  | .gathering _ gather => m.clock ≤ gather.round.started + cfg.timeout ∧ gather.Kept cfg.timeout
  | .storing _ round ok => m.clock ≤ round.started + cfg.timeout ∧ (ok = true → round.Passed cfg.timeout)

def Fine (m : Server) (probe : Probe) : Prop := m.FineAt cfg probe.arrived probe.stage

structure Sound (m : Server) : Prop where
  probes : ∀ probe ∈ m.probes, m.Fine cfg probe
  cached : m.cachedAt.isSome = true → m.stored.isSome = true
  passed : m.ok = true → ∀ round, m.stored = some round → round.Passed cfg.timeout
  answers : ∀ answer ∈ m.answers, answer.Fine cfg.timeout
  alive : m.crashed = false

def Flights (m : Server) : Prop := roles.Flights m.probes m.flight m.fresh m.closed

variable {cfg}

theorem Sound.new : (new).Sound cfg := ⟨nofun, nofun, nofun, nofun, rfl⟩

variable {after m : Server}

theorem Fine.keep (fine : m.Fine cfg probe) (clock : after.clock = m.clock)
    (stored : m.Current cfg → after.Current cfg)
    (closed : ∀ serial ∈ after.closed, serial ∈ m.closed ∨ after.Current cfg) : after.Fine cfg probe := by
  obtain ⟨arrived, stage⟩ := probe
  cases stage with
  | called => exact fine.imp (·.trans clock.symm) stored
  | claimed serial => trivial
  | waiting serial =>
    intro member
    rcases closed serial member with was | current
    · exact stored (fine was)
    · exact current
  | gathering serial gather | storing serial round ok => exact ⟨clock ▸ fine.1, fine.2⟩

theorem Sound.probe (sound : m.Sound cfg) (next : Probe)
    (probes : after.probes = next :: m.probes.eraseIdx place) (clock : after.clock = m.clock)
    (closed : after.closed = m.closed) (stored : after.stored = m.stored) (cachedAt : after.cachedAt = m.cachedAt)
    (ok : after.ok = m.ok) (answers : after.answers = m.answers) (crashed : after.crashed = m.crashed)
    (fine : m.Fine cfg next) : after.Sound cfg where
  probes probe member := by
    rw [probes] at member
    have was : m.Fine cfg probe := by
      rcases List.mem_cons.mp member with rfl | kept
      · exact fine
      · exact sound.probes probe (List.mem_of_mem_eraseIdx kept)
    refine was.keep clock (fun current => ?_) fun _ shut => .inl (closed ▸ shut)
    rwa [Current, stored, clock, cachedAt]
  cached := by rw [cachedAt, stored]; exact sound.cached
  passed := by rw [ok, stored]; exact sound.passed
  answers := by rw [answers]; exact sound.answers
  alive := by rw [crashed]; exact sound.alive

theorem Sound.answer (sound : m.Sound cfg) (place arrived : Nat) (ok : Bool) (round : Option Round)
    (fine : Answer.Fine cfg.timeout ⟨arrived, m.clock, ok, round⟩) : (m.answer place arrived ok round).Sound cfg where
  probes probe member :=
    (sound.probes probe (List.mem_of_mem_eraseIdx member)).keep rfl id fun _ shut => .inl shut
  cached := sound.cached
  passed := sound.passed
  answers answer member := by
    rcases List.mem_cons.mp member with rfl | before
    · exact fine
    · exact sound.answers answer before
  alive := sound.alive

theorem Sound.cachedFine (sound : m.Sound cfg) (stored : m.stored.isSome = true)
    (intime : arrived = m.clock ∨ m.Current cfg) : Answer.Fine cfg.timeout ⟨arrived, m.clock, m.ok, m.stored⟩ := by
  obtain ⟨round, some⟩ := Option.isSome_iff_exists.mp stored
  rw [some]
  refine fine_of_round (intime.imp_right ?_) fun ready => sound.passed ready round some
  rintro ⟨_, recent, same, bound⟩
  rw [some, Option.some.injEq] at same
  exact same ▸ bound

theorem Sound.stores {round : Round} (sound : m.Sound cfg)
    (placed : m.probes[place]? = some ⟨arrived, .storing serial round outcome⟩) :
    ({ m.answer place arrived outcome (some round) with
      ok := outcome, cachedAt := some m.clock, stored := some round, flight := none,
      closed := serial :: m.closed }).Sound cfg := by
  obtain ⟨intime, passed⟩ := sound.probes _ (List.mem_of_getElem? placed)
  refine ⟨fun probe member => ?_, fun _ => rfl, fun ok other same => ?_, fun answer member => ?_, sound.alive⟩
  · exact (sound.probes probe (List.mem_of_mem_eraseIdx member)).keep rfl (fun _ => ⟨rfl, round, rfl, intime⟩)
      fun _ _ => .inr ⟨rfl, round, rfl, intime⟩
  · exact Option.some.inj same ▸ passed ok
  · rcases List.mem_cons.mp member with rfl | before
    · exact fine_of_round (.inr intime) passed
    · exact sound.answers answer before

theorem Sound.tick (sound : m.Sound cfg) (quiet : m.quiet = true) (orderly : m.Orderly cfg .tick) :
    ({ m with clock := m.clock + 1 }).Sound cfg where
  probes probe member := by
    have fine := sound.probes probe member
    have idle := List.all_eq_true.mp quiet probe member
    have intime := List.all_eq_true.mp orderly probe member
    obtain ⟨arrived, stage⟩ := probe
    cases stage with
    | waiting serial => exact fun closed => absurd closed (by simpa [Server.idle] using idle)
    | gathering serial gather =>
      simp only [Server.idle, Bool.not_eq_true'] at idle
      simp only [inTime, idle, Bool.false_or, decide_eq_true_eq] at intime
      exact ⟨intime, fine.2⟩
    | called | claimed _ | storing _ _ _ => cases idle
  cached := sound.cached
  passed := sound.passed
  answers := sound.answers
  alive := sound.alive

theorem Sound.step (sound : m.Sound cfg) (flights : m.Flights) (orderly : m.Orderly cfg move)
    (acted : m.act cfg move = some after) : after.Sound cfg := by
  cases move <;> simp only [act] at acted
  case arrives =>
    cases acted
    refine ⟨fun probe member => ?_, sound.cached, sound.passed, sound.answers, sound.alive⟩
    rcases List.mem_cons.mp member with rfl | before
    · exact .inl rfl
    · exact (sound.probes probe before).keep rfl id fun _ closed => .inl closed
  case gives place =>
    split at acted <;> cases acted
    exact sound.answer _ _ _ _ rfl
  case returns place name outcome =>
    (repeat' split at acted) <;> cases acted
    · cases orderly
    · rename_i placed _ _ _
      obtain ⟨intime, kept⟩ := sound.probes _ (List.mem_of_getElem? placed)
      exact sound.probe _ rfl rfl rfl rfl rfl rfl rfl rfl ⟨intime, kept.returns intime name outcome⟩
  case tick =>
    split at acted <;> cases acted
    rename_i quiet
    exact sound.tick quiet orderly
  case looks place =>
    (repeat' split at acted) <;> cases acted
    · rename_i placed fresh
      have now := sound.probes _ (List.mem_of_getElem? placed)
      have stored := sound.cached (Option.isSome_of_any fresh)
      exact sound.answer _ _ _ _ (sound.cachedFine stored now)
    · rename_i flight
      refine sound.probe _ rfl rfl rfl rfl rfl rfl rfl rfl fun closed => ?_
      exact absurd closed (flights.of_pending flight).open_of_pending
    · exact sound.probe _ rfl rfl rfl rfl rfl rfl rfl rfl trivial
  case wakes place =>
    (repeat' split at acted) <;> cases acted
    rename_i placed closed
    have current := sound.probes _ (List.mem_of_getElem? placed) closed
    exact sound.probe _ rfl rfl rfl rfl rfl rfl rfl rfl (.inr current)
  case begins place =>
    split at acted <;> cases acted
    exact sound.probe _ rfl rfl rfl rfl rfl rfl rfl rfl ⟨Nat.le_add_right _ _, fun _ member => .inl member⟩
  case completes place =>
    (repeat' split at acted) <;> cases acted
    rename_i placed spent
    obtain ⟨intime, kept⟩ := sound.probes _ (List.mem_of_getElem? placed)
    exact sound.probe _ rfl rfl rfl rfl rfl rfl rfl rfl ⟨intime, kept.passed spent⟩
  case stores place =>
    split at acted <;> cases acted
    rename_i placed
    exact sound.stores placed

theorem Flights.step (flights : m.Flights) (acted : m.act cfg move = some after) : after.Flights := by
  cases move <;> simp only [act] at acted
  case arrives =>
    cases acted
    exact flights.arrives rfl rfl rfl
  case gives place =>
    split at acted <;> cases acted
    rename_i placed
    exact flights.moves placed [] rfl rfl nofun
  case tick =>
    split at acted <;> cases acted
    exact flights
  case looks place =>
    (repeat' split at acted) <;> cases acted
    · rename_i placed _
      exact flights.moves placed [] rfl rfl nofun
    · rename_i placed _ _ serial flight
      refine flights.moves placed [⟨_, .waiting serial⟩] rfl rfl fun probe member other waiting => ?_
      cases List.mem_singleton.mp member
      cases waiting
      exact List.mem_append_left _ (flights.of_pending flight).serves_of_pending
    · rename_i placed _ _ flight
      exact (flights.of_pending flight).claims placed rfl _ rfl rfl
  case returns place name outcome =>
    (repeat' split at acted) <;> cases acted
    · exact flights
    · exact flights.moves ‹m.probes[place]? = some _› [_] rfl rfl (by simp [roles])
  case wakes place | begins place | completes place =>
    repeat' split at acted
    all_goals cases acted
    all_goals exact flights.moves ‹m.probes[place]? = some _› [_] rfl rfl (by simp [roles])
  case stores place =>
    split at acted <;> cases acted
    rename_i placed
    refine flights.closes placed rfl ?_
    rw [flights.others placed rfl]
    exact .refl _

end Server

end Gofi.Readiness.Grpc
