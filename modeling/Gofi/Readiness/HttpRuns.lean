import Gofi.Readiness.Http

/-! What the runs of the readiness probes of `httpx` keep. -/

namespace Gofi.Readiness.Http

open Gofi.Go Gofi.Concurrent

def roles : Roles Probe where
  runs probe := match probe.stage with
    | .claimed serial | .gathering serial _ | .storing serial _ _ => some serial
    | _ => none
  serves probe := match probe.stage with
    | .claimed serial | .gathering serial _ | .storing serial _ _ | .closing serial _ _ => some serial
    | _ => none
  waits probe := match probe.stage with
    | .waiting serial => some serial
    | _ => none
  serves_of_runs probe serial same := by
    obtain ⟨arrived, stage⟩ := probe
    cases stage <;> first | exact same | cases same

structure Gather.Kept (timeout : Nat) (gather : Gather) : Prop where
  counted : gather.remaining = gather.running.length + gather.results.length
  covered : ∀ name ∈ gather.left, name ∈ gather.running ∨ ∃ ok, (name, ok) ∈ gather.results
  results : ∀ name, (name, true) ∈ gather.results → gather.round.PassedBy timeout name
  names : ∀ name ∈ gather.round.names, name ∈ gather.left ∨ name ∈ gather.failed ∨ gather.round.PassedBy timeout name

theorem Gather.Kept.begin (timeout : Nat) (checks : List Str) (clock : Nat) :
    (Gather.begin checks clock).Kept timeout where
  counted := by simp [Gather.begin]
  covered name member := .inl member
  results := nofun
  names name member := .inl member

variable {gather : Gather}

theorem Gather.Kept.returns (kept : gather.Kept timeout) (running : name ∈ gather.running)
    (intime : clock ≤ gather.round.started + timeout) (outcome : Outcome) : Gather.Kept timeout { gather with
      round := gather.round.returns name outcome clock
      running := gather.running.erase name
      results := gather.results ++ [(name, decide (outcome = .ok))] } where
  counted := by
    have length := List.length_erase_of_mem running
    have positive := List.length_pos_of_mem running
    have counted := kept.counted
    simp only [List.length_append, List.length_singleton]
    omega
  covered other member := by
    rcases kept.covered other member with still | ⟨ok, there⟩
    · by_cases same : other = name
      · exact .inr ⟨decide (outcome = .ok), List.mem_append_right _ (by rw [same]; exact List.mem_singleton_self _)⟩
      · exact .inl ((List.mem_erase_of_ne same).mpr still)
    · exact .inr ⟨ok, List.mem_append_left _ there⟩
  results other member := by
    rcases List.mem_append.mp member with before | now
    · exact (kept.results other before).later
    · rw [List.mem_singleton, Prod.mk.injEq] at now
      obtain ⟨rfl, ok⟩ := now
      obtain rfl : outcome = .ok := by simpa using ok.symm
      exact Round.passedBy_returns intime
  names other member := by
    rcases kept.names other member with left | failed | passed
    · exact .inl left
    · exact .inr (.inl failed)
    · exact .inr (.inr passed.later)

theorem Gather.Kept.receives (kept : gather.Kept timeout) (count : gather.remaining = less + 1)
    (queued : gather.results = (name, ok) :: later) : Gather.Kept timeout { gather with
      left := gather.left.filter (· ≠ name)
      results := later
      remaining := less
      failed := if ok then gather.failed else gather.failed ++ [name] } where
  counted := by
    have counted := kept.counted
    rw [count, queued, List.length_cons] at counted
    simp only
    omega
  covered other member := by
    simp only [List.mem_filter, decide_eq_true_eq] at member
    rcases kept.covered other member.1 with running | ⟨value, there⟩
    · exact .inl running
    · rw [queued, List.mem_cons, Prod.mk.injEq] at there
      rcases there with ⟨same, _⟩ | behind
      · exact absurd same member.2
      · exact .inr ⟨value, behind⟩
  results other member := kept.results other (by rw [queued]; exact List.mem_cons_of_mem _ member)
  names other member := by
    rcases kept.names other member with left | failed | passed
    · by_cases same : other = name
      · cases ok with
        | true =>
          refine .inr (.inr (kept.results other ?_))
          rw [queued, same]
          exact List.mem_cons_self
        | false =>
          refine .inr (.inl ?_)
          simp [same]
      · exact .inl (by simp [left, same])
    · refine .inr (.inl ?_)
      simp only
      split
      · exact failed
      · exact List.mem_append_left _ failed
    · exact .inr (.inr passed)

theorem Gather.Kept.passed (kept : gather.Kept timeout) (spent : gather.remaining = 0)
    (none : gather.failed = []) : gather.round.Passed timeout := by
  intro name member
  have counted := kept.counted
  rcases kept.names name member with left | failed | passed
  · rcases kept.covered name left with running | ⟨ok, there⟩
    · have positive := List.length_pos_of_mem running
      omega
    · have positive := List.length_pos_of_mem there
      omega
  · simp [none] at failed
  · exact passed

theorem Gather.Kept.expired (kept : gather.Kept timeout)
    (none : gather.failed ++ gather.left = []) : gather.round.Passed timeout := by
  rw [List.append_eq_nil_iff] at none
  intro name member
  rcases kept.names name member with left | failed | passed
  · simp [none.2] at left
  · simp [none.1] at failed
  · exact passed

namespace Server

variable (cfg : Config)

def Recent (m : Server) : Prop := ∃ round, m.stored = some round ∧ m.clock ≤ round.started + cfg.timeout

def FineAt (m : Server) (arrived : Nat) : Stage → Prop
  | .called => arrived = m.clock
  | .waiting serial => serial ∈ m.closed → m.Recent cfg
  | .claimed _ => True
  | .gathering _ gather => m.clock ≤ gather.round.started + cfg.timeout ∧ gather.Kept cfg.timeout
  | .storing _ round failed => m.clock ≤ round.started + cfg.timeout ∧ (failed = [] → round.Passed cfg.timeout)
  | .closing _ round failed =>
    m.clock ≤ round.started + cfg.timeout ∧ (failed = [] → round.Passed cfg.timeout) ∧ m.Recent cfg

def Fine (m : Server) (probe : Probe) : Prop := m.FineAt cfg probe.arrived probe.stage

structure Sound (m : Server) : Prop where
  probes : ∀ probe ∈ m.probes, m.Fine cfg probe
  cached : m.cachedAt.isSome = true → m.stored.isSome = true
  passed : m.failed = [] → ∀ round, m.stored = some round → round.Passed cfg.timeout
  answers : ∀ answer ∈ m.answers, answer.Fine cfg.timeout

def Flights (m : Server) : Prop := roles.Flights m.probes m.pending m.fresh m.closed

variable {cfg}

theorem Sound.new : (new).Sound cfg := ⟨nofun, nofun, nofun, nofun⟩

variable {after m : Server}

theorem Fine.keep (fine : m.Fine cfg probe) (clock : after.clock = m.clock)
    (stored : m.Recent cfg → after.Recent cfg)
    (closed : ∀ serial ∈ after.closed, serial ∈ m.closed ∨ after.Recent cfg) :
    after.Fine cfg probe := by
  obtain ⟨arrived, stage⟩ := probe
  cases stage with
  | called => exact Eq.trans fine clock.symm
  | claimed serial => trivial
  | waiting serial =>
    intro member
    rcases closed serial member with was | recent
    · exact stored (fine was)
    · exact recent
  | gathering serial gather | storing serial round failed => exact ⟨clock ▸ fine.1, fine.2⟩
  | closing serial round failed => exact ⟨clock ▸ fine.1, fine.2.1, stored fine.2.2⟩

theorem Sound.probe (sound : m.Sound cfg) (next : Probe)
    (probes : after.probes = next :: m.probes.eraseIdx place) (clock : after.clock = m.clock)
    (closed : after.closed = m.closed) (stored : after.stored = m.stored) (cachedAt : after.cachedAt = m.cachedAt)
    (failed : after.failed = m.failed) (answers : after.answers = m.answers) (fine : m.Fine cfg next) :
    after.Sound cfg where
  probes probe member := by
    rw [probes] at member
    have was : m.Fine cfg probe := by
      rcases List.mem_cons.mp member with rfl | kept
      · exact fine
      · exact sound.probes probe (List.mem_of_mem_eraseIdx kept)
    refine was.keep clock (fun recent => ?_) fun _ shut => .inl (closed ▸ shut)
    rwa [Recent, stored, clock]
  cached := by rw [cachedAt, stored]; exact sound.cached
  passed := by rw [failed, stored]; exact sound.passed
  answers := by rw [answers]; exact sound.answers

theorem Sound.answer (sound : m.Sound cfg) (arrived : Nat) (failed : List Str) (round : Option Round)
    (fine : Answer.Fine cfg.timeout ⟨arrived, m.clock, failed.isEmpty, round⟩) (closed : List Nat)
    (recent : ∀ serial ∈ closed, serial ∈ m.closed ∨ m.Recent cfg) :
    ({ m.answer place arrived failed round with closed }).Sound cfg where
  probes probe member :=
    (sound.probes probe (List.mem_of_mem_eraseIdx member)).keep rfl id recent
  cached := sound.cached
  passed := sound.passed
  answers answer member := by
    rcases List.mem_cons.mp member with rfl | before
    · exact fine
    · exact sound.answers answer before

theorem Sound.cachedFine (sound : m.Sound cfg) (stored : m.stored.isSome = true)
    (intime : arrived = m.clock ∨ m.Recent cfg) :
    Answer.Fine cfg.timeout ⟨arrived, m.clock, m.failed.isEmpty, m.stored⟩ := by
  obtain ⟨round, some⟩ := Option.isSome_iff_exists.mp stored
  rw [some]
  refine fine_of_round (intime.imp_right ?_) fun ready => sound.passed (List.isEmpty_iff.mp ready) round some
  rintro ⟨recent, same, bound⟩
  rw [some, Option.some.injEq] at same
  exact same ▸ bound

theorem Sound.tick (sound : m.Sound cfg) (quiet : m.quiet cfg = true) :
    ({ m with clock := m.clock + 1 }).Sound cfg where
  probes probe member := by
    have fine := sound.probes probe member
    have idle := List.all_eq_true.mp quiet probe member
    obtain ⟨arrived, stage⟩ := probe
    cases stage with
    | waiting serial => exact fun closed => absurd closed (by simpa [Server.idle] using idle)
    | gathering serial gather =>
      simp only [Server.idle, Bool.and_eq_true, decide_eq_true_eq] at idle
      exact ⟨idle.2, fine.2⟩
    | called | claimed _ | storing _ _ _ | closing _ _ _ => cases idle
  cached := sound.cached
  passed := sound.passed
  answers := sound.answers

theorem Sound.stores {round : Round} (sound : m.Sound cfg)
    (placed : m.probes[place]? = some ⟨arrived, .storing serial round failures⟩)
    (probes : after.probes = ⟨arrived, .closing serial round failures⟩ :: m.probes.eraseIdx place)
    (clock : after.clock = m.clock) (stored : after.stored = some round) (failed : after.failed = failures)
    (answers : after.answers = m.answers) : after.Sound cfg := by
  obtain ⟨intime, passed⟩ := sound.probes _ (List.mem_of_getElem? placed)
  have recent : after.Recent cfg := ⟨round, stored, clock ▸ intime⟩
  refine ⟨fun probe member => ?_, fun _ => by rw [stored]; rfl, fun none other same => ?_, ?_⟩
  · rw [probes] at member
    rcases List.mem_cons.mp member with rfl | kept
    · exact ⟨clock ▸ intime, passed, recent⟩
    · exact (sound.probes probe (List.mem_of_mem_eraseIdx kept)).keep clock (fun _ => recent) fun _ _ => .inr recent
  · rw [stored] at same
    exact Option.some.inj same ▸ passed (failed ▸ none)
  · rw [answers]
    exact sound.answers

theorem Sound.step (sound : m.Sound cfg) (flights : m.Flights) (stepped : m.step cfg move = some after) :
    after.Sound cfg := by
  cases move <;> simp only [Server.step] at stepped
  case arrives =>
    cases stepped
    refine ⟨fun probe member => ?_, sound.cached, sound.passed, sound.answers⟩
    rcases List.mem_cons.mp member with rfl | before
    · exact rfl
    · exact (sound.probes probe before).keep rfl id fun _ closed => .inl closed
  case returns place name outcome =>
    (repeat' split at stepped) <;> cases stepped
    rename_i placed running
    obtain ⟨intime, kept⟩ := sound.probes _ (List.mem_of_getElem? placed)
    exact sound.probe _ rfl rfl rfl rfl rfl rfl rfl ⟨intime, kept.returns running intime outcome⟩
  case tick =>
    split at stepped <;> cases stepped
    rename_i quiet
    exact sound.tick quiet
  case looks place =>
    (repeat' split at stepped) <;> cases stepped
    · rename_i placed fresh
      have now := sound.probes _ (List.mem_of_getElem? placed)
      have stored := sound.cached (Option.isSome_of_any fresh)
      exact sound.answer _ _ _ (sound.cachedFine stored (.inl now)) _ fun _ closed => .inl closed
    · rename_i pending
      refine sound.probe _ rfl rfl rfl rfl rfl rfl rfl fun closed => ?_
      exact absurd closed (flights.of_pending pending).open_of_pending
    · exact sound.probe _ rfl rfl rfl rfl rfl rfl rfl trivial
  case begins place =>
    split at stepped <;> cases stepped
    exact sound.probe _ rfl rfl rfl rfl rfl rfl rfl ⟨Nat.le_add_right _ _, Gather.Kept.begin _ _ _⟩
  case receives place =>
    split at stepped
    · rename_i placed
      split at stepped <;> cases stepped
      rename_i count queued
      obtain ⟨intime, kept⟩ := sound.probes _ (List.mem_of_getElem? placed)
      exact sound.probe _ rfl rfl rfl rfl rfl rfl rfl ⟨intime, kept.receives count queued⟩
    · cases stepped
  case expires place =>
    (repeat' split at stepped) <;> cases stepped
    rename_i placed spent
    obtain ⟨intime, kept⟩ := sound.probes _ (List.mem_of_getElem? placed)
    exact sound.probe _ rfl rfl rfl rfl rfl rfl rfl ⟨intime, kept.expired⟩
  case completes place =>
    (repeat' split at stepped) <;> cases stepped
    rename_i placed spent
    obtain ⟨intime, kept⟩ := sound.probes _ (List.mem_of_getElem? placed)
    exact sound.probe _ rfl rfl rfl rfl rfl rfl rfl ⟨intime, kept.passed spent⟩
  case stores place =>
    split at stepped <;> cases stepped
    rename_i placed
    exact sound.stores placed rfl rfl rfl rfl rfl
  case closes place =>
    split at stepped <;> cases stepped
    rename_i placed
    obtain ⟨intime, passed, recent⟩ := sound.probes _ (List.mem_of_getElem? placed)
    refine sound.answer _ _ _ ?_ _ fun _ _ => .inr recent
    exact fine_of_round (.inr intime) fun ready => passed (List.isEmpty_iff.mp ready)
  case reads place =>
    (repeat' split at stepped) <;> cases stepped
    rename_i placed closed
    have recent := sound.probes _ (List.mem_of_getElem? placed) closed
    have stored : m.stored.isSome = true := by
      obtain ⟨round, some, _⟩ := recent
      rw [some]
      rfl
    exact sound.answer _ _ _ (sound.cachedFine stored (.inr recent)) _ fun _ closed => .inl closed

/-! ### One round at a time -/

theorem Flights.step (flights : m.Flights) (stepped : m.step cfg move = some after) : after.Flights := by
  cases move <;> simp only [Server.step] at stepped
  case arrives =>
    cases stepped
    exact flights.arrives rfl rfl rfl
  case tick =>
    split at stepped <;> cases stepped
    exact flights
  case looks place =>
    (repeat' split at stepped) <;> cases stepped
    · rename_i placed _
      exact flights.moves placed [] rfl rfl nofun
    · rename_i placed _ _ serial pending
      refine flights.moves placed [⟨_, .waiting serial⟩] rfl rfl fun probe member other waiting => ?_
      cases List.mem_singleton.mp member
      cases waiting
      exact List.mem_append_left _ (flights.of_pending pending).serves_of_pending
    · rename_i placed _ _ pending
      exact (flights.of_pending pending).claims placed rfl _ rfl rfl
  case returns place name outcome | begins place | receives place | expires place | completes place =>
    (repeat' split at stepped) <;> cases stepped <;>
      exact flights.moves ‹m.probes[place]? = some _› [_] rfl rfl (by simp [roles])
  case stores place =>
    split at stepped <;> cases stepped
    rename_i placed
    exact flights.releases placed rfl _ rfl rfl rfl
  case closes place =>
    split at stepped <;> cases stepped
    rename_i placed
    exact flights.closes placed rfl ((Roles.filterMap_eraseIdx placed roles.runs).symm.trans flights.single)
  case reads place =>
    (repeat' split at stepped) <;> cases stepped
    rename_i placed _
    exact flights.moves placed [] rfl rfl nofun

end Server

end Gofi.Readiness.Http
