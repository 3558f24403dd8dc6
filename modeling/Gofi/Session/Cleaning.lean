import Gofi.Session.LockRuns

/-! `CleanExpired` of the Redis driver, beside the calls of `CreateOrGet` and `Force`. -/

namespace Gofi.Session

open Gofi.Go Gofi.Concurrent

/-- Where a call of `CleanExpired` is, with the keys of `ScanAll` that are left: before
`Get`, before `IsExpired`, or before `DEL`. -/
inductive Sweep where
  | next (keys : List Str)
  | judging (key : Str) (entry : Entry) (keys : List Str)
  | deleting (key : Str) (keys : List Str)
  deriving DecidableEq

def Sweep.holds (key : Str) : Sweep → Bool
  | next _ => false
  | judging other _ _ | deleting other _ => other = key

structure Cleaning where
  system : System
  sweeps : List Sweep
  deleted : List (Entry × Bool)

namespace Cleaning

def new : Cleaning := ⟨.new, [], []⟩

def goOn (m : Cleaning) (place : Nat) (sweep : Sweep) : Cleaning :=
  { m with sweeps := sweep :: m.sweeps.eraseIdx place }

inductive Move where
  | other (move : System.Move)
  | scans (keys : List Str)
  | gets (place : Nat)
  | checks (place : Nat)
  | dels (place : Nat)
  | skips (place : Nat)

variable (cfg : Config)

def step (m : Cleaning) : Move → Option Cleaning
  | .other move => (m.system.step cfg move).map fun system => { m with system }
  | .scans keys => some { m with sweeps := .next keys :: m.sweeps }
  | .gets place =>
    match m.sweeps[place]? with
    | some (.next (key :: keys)) =>
      match m.system.getEntry key with
      | .ok (some entry) => some (m.goOn place (.judging key entry keys))
      | _ => some (m.goOn place (.next keys))
    | _ => none
  | .checks place =>
    match m.sweeps[place]? with
    | some (.judging key entry keys) =>
      some (m.goOn place (if m.system.isExpired entry then .deleting key keys else .next keys))
    | _ => none
  | .dels place =>
    match m.sweeps[place]? with
    | some (.deleting key keys) => some { m.goOn place (.next keys) with
        system := m.system.write key none
        deleted := match m.system.getEntry key with
          | .ok (some entry) => (entry, m.system.isExpired entry) :: m.deleted
          | _ => m.deleted }
    | _ => none
  | .skips place =>
    match m.sweeps[place]? with
    | some (.next (_ :: keys)) | some (.deleting _ keys) => some (m.goOn place (.next keys))
    | _ => none

/-- No entry is saved under a key between the `Get` and the `DEL` of a call of
`CleanExpired` for it. -/
def Apart (m : Cleaning) : Move → Prop
  | .other (.saves place) | .other (.saveLost place) => ∀ call ∈ m.system.calls[place]?, ∀ key ∈ call.job.entryKey,
    ∀ sweep ∈ m.sweeps, sweep.holds key = false
  | _ => True

instance (m : Cleaning) (move : Move) : Decidable (m.Apart move) := by
  unfold Apart
  split <;> infer_instance

end Cleaning

/-- What a call of `CleanExpired` knows of the entry under its key. -/
def Sweep.Fits (m : System) : Sweep → Prop
  | next _ => True
  | judging key entry _ => ∀ other expires, m.store key = some ⟨.entry other, expires⟩ → other = entry
  | deleting key _ => ∀ other expires, m.store key = some ⟨.entry other, expires⟩ → m.isExpired other = true

theorem Sweep.Fits.keep {m next : System} {sweep : Sweep} (fits : sweep.Fits m) (clock : m.clock ≤ next.clock)
    (before : ∀ key, sweep.holds key = true → ∀ entry expires, next.store key = some ⟨.entry entry, expires⟩ →
      m.store key = some ⟨.entry entry, expires⟩) : sweep.Fits next := by
  cases sweep with
  | next => trivial
  | judging key entry keys =>
    intro other expires stored
    exact fits other expires (before key (by simp [Sweep.holds]) other expires stored)
  | deleting key keys =>
    intro other expires stored
    have expired := fits other expires (before key (by simp [Sweep.holds]) other expires stored)
    simp only [System.isExpired, decide_eq_true_eq] at expired ⊢
    exact Int.lt_of_lt_of_le expired clock

namespace Cleaning

variable {cfg : Config}

private theorem clock_step (does : System.Does cfg m move next) : m.clock ≤ next.clock := by
  cases does with
  | passes time => exact Int.le_add_of_nonneg_right (Int.natCast_nonneg time)
  | releases =>
    unfold System.releaseLock
    split <;> exact Int.le_refl _
  | _ => exact Int.le_refl _

theorem entry_before (does : System.Does cfg m move next)
    (unsaved : ∀ place, move = .saves place ∨ move = .saveLost place →
      ∀ call ∈ m.calls[place]?, call.job.entryKey ≠ some key)
    (stored : next.store key = some ⟨.entry entry, expires⟩) : m.store key = some ⟨.entry entry, expires⟩ := by
  have kept {other : Str} {item : Option Item} (none : ∀ entry expires, item ≠ some ⟨.entry entry, expires⟩)
      (stored : (m.write other item).store key = some ⟨.entry entry, expires⟩) :
      m.store key = some ⟨.entry entry, expires⟩ := by
    simp only [System.write] at stored
    split at stored
    · exact absurd stored (none _ _)
    · exact stored
  cases does with
  | acquires | loses | deletes => exact kept (by simp) stored
  | releases =>
    unfold System.releaseLock at stored
    split at stored
    · exact kept (by simp) stored
    · exact stored
  | saves placed under _ _ which =>
    simp only [System.save, System.goOn, System.write] at stored
    split at stored
    · rename_i same
      exact absurd (same ▸ under) (unsaved _ which _ placed)
    · exact stored
  | _ => exact stored

structure Sound (m : Cleaning) : Prop where
  deleted : ∀ entry ∈ m.deleted, entry.2 = true
  sweeps : ∀ sweep ∈ m.sweeps, sweep.Fits m.system

theorem Sound.goOn (sound : Sound m) (fits : sweep.Fits m.system) : Sound (m.goOn place sweep) := by
  refine ⟨sound.deleted, fun other member => ?_⟩
  rcases List.mem_cons.mp member with rfl | kept
  · exact fits
  · exact sound.sweeps other (List.mem_of_mem_eraseIdx kept)

theorem Sound.step {m : Cleaning} (sound : Sound m) (apart : m.Apart move) (stepped : m.step cfg move = some after) :
    Sound after := by
  cases move <;> simp only [Cleaning.step] at stepped
  case other move =>
    obtain ⟨system, moved, rfl⟩ := Option.map_eq_some_iff.mp stepped
    have does := System.does_of_step moved
    refine ⟨sound.deleted, fun sweep member => (sound.sweeps sweep member).keep (clock_step does) ?_⟩
    intro key holds entry expires
    refine entry_before does fun place which call placed under => ?_
    have none : sweep.holds key = false := by
      rcases which with rfl | rfl <;> exact apart call placed key under sweep member
    cases holds.symm.trans none
  case scans keys =>
    cases stepped
    refine ⟨sound.deleted, fun sweep member => ?_⟩
    rcases List.mem_cons.mp member with rfl | kept
    · trivial
    · exact sound.sweeps sweep kept
  case gets place =>
    (repeat' split at stepped) <;> cases stepped
    · rename_i got
      obtain ⟨_, stored, _⟩ := System.store_of_getEntry got
      refine sound.goOn fun other expires same => ?_
      cases stored.symm.trans same
      rfl
    · exact sound.goOn trivial
  case checks place =>
    split at stepped <;> cases stepped
    rename_i placed
    have same := sound.sweeps _ (List.mem_of_getElem? placed)
    split
    · rename_i expired
      exact sound.goOn fun other expires stored => same other expires stored ▸ expired
    · exact sound.goOn trivial
  case dels place =>
    split at stepped <;> cases stepped
    rename_i key keys placed
    have expired := sound.sweeps _ (List.mem_of_getElem? placed)
    refine ⟨fun entry member => ?_, fun sweep member => ?_⟩
    · simp only at member
      split at member
      · rename_i got
        rcases List.mem_cons.mp member with rfl | before
        · obtain ⟨expires, stored, _⟩ := System.store_of_getEntry got
          exact expired _ expires stored
        · exact sound.deleted entry before
      · exact sound.deleted entry member
    · have cleared : Sound (m.goOn place (.next keys)) := sound.goOn trivial
      refine (cleared.sweeps sweep member).keep (Int.le_refl _) ?_
      intro other _ entry expires stored
      simp only [System.write] at stored
      split at stored
      · cases stored
      · exact stored
  case skips place =>
    split at stepped <;> cases stepped <;> exact sound.goOn trivial

/-- Where no entry is saved under the key that a call of `CleanExpired` is at, every
entry it deletes has expired by then. -/
theorem cleaning_removes_expired (apart : Along (step cfg) Apart new moves)
    (run : feed (step cfg) new moves = some m) :
    ∀ entry ∈ m.deleted, entry.2 = true :=
  (Along.invariant Sound (fun _ _ _ sound apart stepped => sound.step apart stepped)
    (by constructor <;> simp [new]) apart run).deleted

def Sample.late : List Move :=
  [.other (.starts (.force (ascii "k"))), .other (.acquires 0), .other (.reads 0), .other (.passes 2000000000),
    .other (.saves 0), .other (.releases 0), .other (.leaves 0), .other (.returns 0)]

def Sample.config : Config := ⟨ascii "s", 1000000000, 1000000000, 60000000000⟩

def Sample.clean : List Move := Sample.late ++ [.scans [ascii "k"], .gets 0, .checks 0, .dels 0]

private theorem late_is_apart : Along (step Sample.config) Apart new Sample.clean := by decide

theorem late_entry_is_cleaned : ∃ m, feed (step Sample.config) new Sample.clean = some m ∧
    m.deleted = [(⟨0, 1000000000⟩, true)] ∧ ∀ entry ∈ m.deleted, entry.2 = true :=
  ⟨_, rfl, rfl, cleaning_removes_expired late_is_apart rfl⟩

/-- `Force` saves an entry between `Get` and `DEL`. -/
theorem forced_entry_is_cleaned : ∃ m, feed (step Sample.config) new (Sample.late ++
    [.other (.starts (.force (ascii "k"))), .other (.acquires 0), .scans [ascii "k"], .gets 0, .checks 0,
      .other (.reads 0), .other (.saves 0), .dels 0]) = some m ∧ m.deleted = [(⟨1, 3000000000⟩, false)] :=
  ⟨_, rfl, rfl⟩

end Cleaning

end Gofi.Session
