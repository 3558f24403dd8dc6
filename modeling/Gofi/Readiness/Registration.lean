import Gofi.Concurrent.Machine
import Gofi.Go.Text
import Mathlib.Logic.Function.Basic
import Mathlib.Order.Basic

/-! `AddHealthCheck` of `httpx` and `addCheck` of `grpcx` beside the probes: which checks
the round has run that a probe is answered from. How long things take and what the checks
return is left out: a result may leave the cache, and a round may end, at any time. -/

namespace Gofi.Readiness.Registration

open Gofi.Go Gofi.Concurrent

inductive Package where
  | httpx
  | grpcx
  deriving DecidableEq

/-- Which registration under each name, counted from one: those in the map of the checks,
or those that a round has copied. -/
abbrev Checks := Str → Nat

/-- Where a probe is in `readinessResult` or `result`: before its look at the cache,
waiting for a round, before and after the round copies the checks, and before the channel
of the round is closed. -/
inductive Stage where
  | called
  | waiting (serial : Nat)
  | claimed (serial : Nat)
  | running (serial : Nat) (round : Checks)
  | closing (serial : Nat) (round : Checks)

/-- A round that is running has copied the checks after this registration. -/
def Stage.covers (name : Str) (number : Nat) : Stage → Bool
  | running _ round => number ≤ round name
  | _ => true

/-- A probe with the registrations that had returned when it started. -/
structure Probe where
  known : Checks
  stage : Stage

/-- `adding` are the registrations that have changed the map and not reset the cache,
`returned` those that have; `cached` is the round of the fresh result, `stored` that of
the last one. `answers` logs for each probe what it knew, and the round of its answer. -/
structure Server where
  checks : Checks
  adding : List (Str × Nat)
  returned : Checks
  cached : Option Checks
  stored : Checks
  pending : Option Nat
  fresh : Nat
  closed : List Nat
  probes : List Probe
  answers : List (Checks × Checks)

inductive Move where
  | adds (name : Str)
  | resets (place : Nat)
  | arrives
  | expires
  | looks (place : Nat)
  | copies (place : Nat)
  | stores (place : Nat)
  | closes (place : Nat)
  | wakes (place : Nat)
  | givesUp (place : Nat)

namespace Server

def new : Server :=
  { checks := fun _ => 0, adding := [], returned := fun _ => 0, cached := none, stored := fun _ => 0, pending := none,
    fresh := 0, closed := [], probes := [], answers := [] }

def goOn (m : Server) (place : Nat) (probe : Probe) : Server := { m with probes := probe :: m.probes.eraseIdx place }

def answer (m : Server) (place : Nat) (known round : Checks) : Server :=
  { m with probes := m.probes.eraseIdx place, answers := (known, round) :: m.answers }

def locked (package : Package) (m : Server) : Bool := package = .httpx && !m.adding.isEmpty

def step (package : Package) (m : Server) : Move → Option Server
  | .adds name =>
    if m.locked package then none else some { m with
      checks := Function.update m.checks name (m.checks name + 1)
      adding := (name, m.checks name + 1) :: m.adding }
  | .resets place =>
    match m.adding[place]? with
    | some (name, number) => some { m with
      adding := m.adding.eraseIdx place
      returned := Function.update m.returned name (max (m.returned name) number)
      cached := none }
    | none => none
  | .arrives => some { m with probes := ⟨m.returned, .called⟩ :: m.probes }
  | .expires => some { m with cached := none }
  | .looks place =>
    match m.probes[place]?, m.cached, m.pending with
    | some ⟨known, .called⟩, some round, _ => some (m.answer place known round)
    | some ⟨known, .called⟩, none, some serial => some (m.goOn place ⟨known, .waiting serial⟩)
    | some ⟨known, .called⟩, none, none => some { m.goOn place ⟨known, .claimed m.fresh⟩ with
      pending := some m.fresh
      fresh := m.fresh + 1 }
    | _, _, _ => none
  | .copies place =>
    match m.probes[place]? with
    | some ⟨known, .claimed serial⟩ =>
      if m.locked package then none else some (m.goOn place ⟨known, .running serial m.checks⟩)
    | _ => none
  | .stores place =>
    match m.probes[place]?, package with
    | some ⟨known, .running serial round⟩, .httpx => some { m.goOn place ⟨known, .closing serial round⟩ with
      cached := some round
      stored := round
      pending := none }
    | some ⟨known, .running serial round⟩, .grpcx => some { m.answer place known round with
      cached := some round
      stored := round
      pending := none
      closed := serial :: m.closed }
    | _, _ => none
  | .closes place =>
    match m.probes[place]? with
    | some ⟨known, .closing serial round⟩ => some { m.answer place known round with closed := serial :: m.closed }
    | _ => none
  | .wakes place =>
    match m.probes[place]?, package with
    | some ⟨known, .waiting serial⟩, .httpx => if serial ∈ m.closed then some (m.answer place known m.stored) else none
    | some ⟨known, .waiting serial⟩, .grpcx =>
      -- it looks at the cache again
      if serial ∈ m.closed then some (m.goOn place ⟨known, .called⟩) else none
    | _, _ => none
  | .givesUp place =>
    match m.probes[place]?, package with
    | some ⟨_, .waiting _⟩, .grpcx => some { m with probes := m.probes.eraseIdx place }
    | _, _ => none

/-- Registrations return while no round is running that has copied the checks before. -/
def Apart (m : Server) : Move → Prop
  | .resets place => ∀ reg ∈ m.adding[place]?, ∀ probe ∈ m.probes, probe.stage.covers reg.1 reg.2 = true
  | _ => True

instance (m : Server) (move : Move) : Decidable (m.Apart move) := by
  cases move with
  | resets place => exact inferInstanceAs (Decidable (∀ reg ∈ m.adding[place]?, ∀ probe ∈ m.probes, _ = true))
  | _ => exact .isTrue trivial

/-- What is known of a probe. A round that has copied the checks covers every registration
that has returned, and who waits for a round that is over finds a result that does. -/
def Fine (m : Server) (probe : Probe) : Prop :=
  probe.known ≤ m.returned ∧
  match probe.stage with
  | .called => True
  | .waiting serial => m.pending = some serial ∨ probe.known ≤ m.stored
  | .claimed serial => serial < m.fresh
  | .running serial round => serial < m.fresh ∧ m.returned ≤ round
  | .closing serial round => serial < m.fresh ∧ m.pending ≠ some serial ∧ probe.known ≤ round

structure Sound (m : Server) : Prop where
  checks : m.returned ≤ m.checks
  adding : ∀ reg ∈ m.adding, reg.2 ≤ m.checks reg.1
  cached : ∀ round ∈ m.cached, m.returned ≤ round
  closed : ∀ serial ∈ m.closed, serial < m.fresh ∧ m.pending ≠ some serial
  probes : ∀ probe ∈ m.probes, m.Fine probe
  answers : ∀ answer ∈ m.answers, answer.1 ≤ answer.2

variable {m after : Server}

theorem Sound.goOn (sound : Sound m) (fine : m.Fine probe) : Sound (m.goOn place probe) where
  __ := sound
  probes other member := by
    rcases List.mem_cons.mp member with rfl | old
    · exact fine
    · exact sound.probes other (List.mem_of_mem_eraseIdx old)

theorem Sound.answer (sound : Sound m) (covers : known ≤ ran) : Sound (m.answer place known ran) where
  __ := sound
  probes other member := sound.probes other (List.mem_of_mem_eraseIdx member)
  answers := List.forall_mem_cons.mpr ⟨covers, sound.answers⟩

theorem Sound.claim (sound : Sound m) (none : m.pending = none) :
    Sound { m with pending := some m.fresh, fresh := m.fresh + 1 } where
  __ := sound
  closed serial member := by
    have less := (sound.closed serial member).1
    exact ⟨by lia, by simp; lia⟩
  probes := by
    rintro ⟨known, stage⟩ member
    obtain ⟨before, fine⟩ := sound.probes _ member
    refine ⟨before, ?_⟩
    cases stage <;> simp_all <;> lia

theorem Sound.store (sound : Sound m) (covers : m.returned ≤ ran) :
    Sound { m with cached := some ran, stored := ran, pending := none } where
  __ := sound
  cached other same := Option.some.inj same ▸ covers
  closed serial member := ⟨(sound.closed serial member).1, nofun⟩
  probes := by
    rintro ⟨known, stage⟩ member
    obtain ⟨before, fine⟩ := sound.probes _ member
    refine ⟨before, ?_⟩
    cases stage with
    | waiting serial => exact .inr (before.trans covers)
    | closing serial round => exact ⟨fine.1, nofun, fine.2.2⟩
    | called | claimed serial | running serial round => exact fine

theorem Sound.reset (sound : Sound m) (placed : m.adding[place]? = some (name, number))
    (apart : ∀ probe ∈ m.probes, probe.stage.covers name number = true) : Sound { m with
      adding := m.adding.eraseIdx place
      returned := Function.update m.returned name (max (m.returned name) number)
      cached := none } := by
  have covered {checks : Checks} (before : m.returned ≤ checks) (new : number ≤ checks name) :
      Function.update m.returned name (max (m.returned name) number) ≤ checks :=
    update_le_iff.mpr ⟨max_le (before name) new, fun other _ => before other⟩
  refine { sound with checks := ?_, adding := ?_, cached := nofun, probes := ?_ }
  · exact covered sound.checks (sound.adding _ (List.mem_of_getElem? placed))
  · exact fun reg member => sound.adding reg (List.mem_of_mem_eraseIdx member)
  · rintro ⟨known, stage⟩ member
    obtain ⟨before, fine⟩ := sound.probes _ member
    refine ⟨before.trans (le_update_iff.mpr ⟨le_max_left .., fun _ _ => le_rfl⟩), ?_⟩
    cases stage with
    | running serial round => exact ⟨fine.1, covered fine.2 (of_decide_eq_true (apart _ member))⟩
    | called | waiting serial | claimed serial | closing serial round => exact fine

theorem Sound.step (sound : Sound m)
    (apart : m.Apart move) (stepped : m.step package move = some after) : Sound after := by
  cases move <;> simp only [Server.step] at stepped
  case adds name =>
    split at stepped <;> cases stepped
    have more : m.checks ≤ Function.update m.checks name (m.checks name + 1) :=
      le_update_iff.mpr ⟨Nat.le_succ _, fun _ _ => le_rfl⟩
    refine { sound with checks := sound.checks.trans more, adding := List.forall_mem_cons.mpr ⟨by simp, ?_⟩ }
    exact fun reg member => (sound.adding reg member).trans (more _)
  case resets place =>
    split at stepped <;> cases stepped
    rename_i placed
    exact sound.reset placed (apart _ placed)
  case arrives =>
    cases stepped
    exact { sound with probes := List.forall_mem_cons.mpr ⟨⟨le_rfl, trivial⟩, sound.probes⟩ }
  case expires =>
    cases stepped
    exact { sound with cached := nofun }
  case looks place =>
    split at stepped <;> cases stepped
    · rename_i placed cached
      exact sound.answer ((sound.probes _ (List.mem_of_getElem? placed)).1.trans (sound.cached _ cached))
    · rename_i placed _ pending
      exact sound.goOn ⟨(sound.probes _ (List.mem_of_getElem? placed)).1, .inl pending⟩
    · rename_i placed _ pending
      exact (sound.claim pending).goOn ⟨(sound.probes _ (List.mem_of_getElem? placed)).1, Nat.lt_succ_self _⟩
  case copies place =>
    (repeat' split at stepped) <;> cases stepped
    rename_i placed _
    have fine := sound.probes _ (List.mem_of_getElem? placed)
    exact sound.goOn ⟨fine.1, fine.2, sound.checks⟩
  case stores place =>
    split at stepped <;> cases stepped
    all_goals
      rename_i placed
      obtain ⟨known, less, covers⟩ := sound.probes _ (List.mem_of_getElem? placed)
      have stored := sound.store covers
    · exact stored.goOn ⟨known, less, nofun, known.trans covers⟩
    · exact { stored.answer (known.trans covers) with closed := List.forall_mem_cons.mpr ⟨⟨less, nofun⟩,
        stored.closed⟩ }
  case closes place =>
    split at stepped <;> cases stepped
    rename_i placed
    obtain ⟨_, less, apart, covers⟩ := sound.probes _ (List.mem_of_getElem? placed)
    exact { sound.answer covers with closed := List.forall_mem_cons.mpr ⟨⟨less, apart⟩, sound.closed⟩ }
  case wakes place =>
    (repeat' split at stepped) <;> cases stepped
    all_goals
      rename_i serial placed closed
      have fine := sound.probes _ (List.mem_of_getElem? placed)
    · exact sound.answer (fine.2.resolve_left (sound.closed serial closed).2)
    · exact sound.goOn ⟨fine.1, trivial⟩
  case givesUp place =>
    split at stepped <;> cases stepped
    exact { sound with probes := fun other member => sound.probes other (List.mem_of_mem_eraseIdx member) }

/-- A probe that starts after a registration has returned is answered from a round that
has run its check, or one that was registered later under its name. -/
theorem answers_cover_known_checks (package : Package) (apart : Along (step package) Apart new moves)
    (run : feed (step package) new moves = some m) : ∀ answer ∈ m.answers, answer.1 ≤ answer.2 :=
  (Along.invariant Sound (fun _ _ _ sound apart stepped => sound.step apart stepped)
    (by constructor <;> simp [new]) apart run).answers

def Sample.moves : List Move := [.adds [], .resets 0, .arrives, .looks 0, .copies 0, .stores 0, .arrives, .looks 0]

theorem Sample.apart : Along (step .httpx) Apart new Sample.moves := by decide

theorem sample_probe_is_covered : ∃ m known round, feed (step .httpx) new Sample.moves = some m ∧
    m.answers = [(known, round)] ∧ known [] = 1 ∧ known ≤ round :=
  ⟨_, _, _, rfl, rfl, rfl, answers_cover_known_checks .httpx Sample.apart rfl _ (List.mem_singleton.mpr rfl)⟩

/-- A probe starts after a check was registered and is answered from the round that was
running before: it waits for that round, or finds its result in the cache. -/
theorem running_round_answers_later_probe :
    (∃ m, feed (step .httpx) new [.arrives, .looks 0, .copies 0, .adds [], .resets 0, .arrives, .looks 0, .stores 1,
      .closes 0, .wakes 0] = some m ∧ ∃ known round, (known, round) ∈ m.answers ∧ known [] = 1 ∧ round [] = 0) ∧
    ∃ m, feed (step .grpcx) new [.arrives, .looks 0, .copies 0, .adds [], .resets 0, .stores 0, .arrives, .looks 0] =
      some m ∧ ∃ known round, (known, round) ∈ m.answers ∧ known [] = 1 ∧ round [] = 0 :=
  ⟨⟨_, rfl, _, _, List.mem_cons_self, rfl, rfl⟩, _, rfl, _, _, List.mem_cons_self, rfl, rfl⟩

end Server

end Gofi.Readiness.Registration
