import Gofi.Go.Text

/-! `connection.NewConnection`: the pools and the monitor that are left after every pattern of failures. -/

namespace Gofi.Sqln.Opening

open Gofi.Go

inductive Pool where
  | primary
  | replica
  | migration
  deriving DecidableEq

structure Config where
  driver : Str
  readDSN : Str
  /-- Migrations are configured. -/
  migrates : Bool
  /-- Full-text indexes are configured. -/
  indexed : Bool

/-- What fails, and with which error. -/
structure World where
  registered : Bool
  opening : Pool → Option Str
  ping : Pool → Option Str
  migrationDriver : Bool
  instantiate : Option Str
  migrating : Option Str
  requireTextIndexes : Option Str

structure Resources where
  pools : List Pool
  monitors : Nat
  deriving DecidableEq

/-- The error that is returned, and what is open then. -/
abbrev Result := Option Str × Resources

def Resources.close (r : Resources) (pool : Pool) : Resources := { r with pools := r.pools.erase pool }

section Code

variable (w : World) (cfg : Config) (r : Resources)

def openPool (pool : Pool) : Result :=
  match w.opening pool with
  | some e => (some (ascii "open connection failed: " ++ e), r)
  | none =>
    let r := { r with pools := pool :: r.pools }
    match w.ping pool with
    | some e => (some (ascii "database ping failed: " ++ e), r.close pool)
    | none => (none, r)

/-- Closing the migration instance closes the pool it was given. -/
def runAndClose : Result :=
  if !w.migrationDriver then (some (ascii "migration driver not registered: " ++ cfg.driver), r)
  else
    match w.instantiate with
    | some e => (some e, r.close .migration)
    | none => (w.migrating, r.close .migration)

def closeBoth : Resources :=
  if cfg.readDSN = [] then r.close .primary else (r.close .primary).close .replica

def bootstrap : Result :=
  if !cfg.migrates then (none, r)
  else
    match w.opening .migration with
    | some e => (some (ascii "migration bootstrap failed: " ++ e), r.close .primary)
    | none =>
      match runAndClose w cfg { r with pools := .migration :: r.pools } with
      | (some e, r) => (some (ascii "migration bootstrap failed: " ++ e), closeBoth cfg r)
      | (none, r) => (none, r)

/-- From the migrations on. -/
def finish : Result :=
  match bootstrap w cfg r with
  | (some e, r) => (some e, r)
  | (none, r) =>
    let r := { r with monitors := r.monitors + 1 }
    match if cfg.indexed then w.requireTextIndexes else none with
    | some e => (some (ascii "full-text indexes: " ++ e), closeBoth cfg { r with monitors := r.monitors - 1 })
    | none => (none, r)

def newConnection : Result :=
  if !w.registered then (some (ascii "database driver not registered: " ++ cfg.driver), ⟨[], 0⟩)
  else
    match openPool w ⟨[], 0⟩ .primary with
    | (some e, r) => (some e, r)
    | (none, r) =>
      match if cfg.readDSN = [] then (none, r) else openPool w r .replica with
      | (some e, r) => (some (ascii "replica: " ++ e), r.close .primary)
      | (none, r) => finish w cfg r

end Code

def Config.pools (cfg : Config) : List Pool := if cfg.readDSN = [] then [.primary] else [.replica, .primary]

/-- A failure leaves nothing, a success the pools of the connection and its monitor. -/
def Clean (cfg : Config) : Result → Prop
  | (some _, left) => left = ⟨[], 0⟩
  | (none, left) => left = ⟨cfg.pools, 1⟩

def Opens (w : World) (pool : Pool) : Prop := w.opening pool = none ∧ w.ping pool = none

/-- The pools of the connection are open when the migrations start. -/
def Reached (w : World) (cfg : Config) : Prop :=
  w.registered = true ∧ Opens w .primary ∧ (cfg.readDSN = [] ∨ Opens w .replica)

def Migratable (w : World) (cfg : Config) : Prop :=
  cfg.migrates = false ∨ if w.opening .migration = none then w.migrationDriver = true else cfg.readDSN = []

theorem openPool_of_opens (opens : Opens w pool) (r : Resources) :
    openPool w r pool = (none, { r with pools := pool :: r.pools }) := by
  simp [openPool, opens.1, opens.2]

theorem openPool_of_not (fails : ¬Opens w pool) (r : Resources) : ∃ e, openPool w r pool = (some e, r) := by
  unfold openPool
  cases opening : w.opening pool with
  | some e => exact ⟨_, rfl⟩
  | none =>
    cases ping : w.ping pool with
    | some e => simp [Resources.close]
    | none => exact absurd ⟨opening, ping⟩ fails

theorem closeBoth_pools (cfg : Config) : closeBoth cfg ⟨cfg.pools, monitors⟩ = ⟨[], monitors⟩ := by
  unfold closeBoth Config.pools
  split <;> rfl

private theorem bootstrap_pools (w : World) (cfg : Config) :
    (∃ e left, bootstrap w cfg ⟨cfg.pools, 0⟩ = (some e, left) ∧ (left = ⟨[], 0⟩ ↔ Migratable w cfg)) ∨
      bootstrap w cfg ⟨cfg.pools, 0⟩ = (none, ⟨cfg.pools, 0⟩) ∧ Migratable w cfg := by
  unfold bootstrap Migratable
  cases migrates : cfg.migrates with
  | false => simp
  | true =>
  cases opening : w.opening .migration with
  | some e =>
    refine .inl ⟨_, _, rfl, ?_⟩
    by_cases single : cfg.readDSN = [] <;> simp [Config.pools, Resources.close, single]
  | none =>
  cases driver : w.migrationDriver with
  | false =>
    refine .inl ⟨_, _, by rw [runAndClose, driver]; rfl, ?_⟩
    by_cases single : cfg.readDSN = [] <;> simp [closeBoth, Config.pools, Resources.close, single]
  | true =>
    cases built : w.instantiate with
    | some e => simp [runAndClose, driver, built, Resources.close, closeBoth_pools]
    | none => cases ran : w.migrating <;> simp [runAndClose, driver, built, ran, Resources.close, closeBoth_pools]

theorem finish_clean_iff (w : World) (cfg : Config) : Clean cfg (finish w cfg ⟨cfg.pools, 0⟩) ↔ Migratable w cfg := by
  obtain ⟨e, left, failed, empty⟩ | ⟨done, migratable⟩ := bootstrap_pools w cfg
  · simp [finish, failed, Clean, empty]
  · cases checked : if cfg.indexed then w.requireTextIndexes else none <;>
      simp [finish, done, checked, Clean, closeBoth_pools, migratable]

/-- A replica is left open when the migration pool fails to open, a migration pool without its driver. -/
theorem new_connection_leaks_nothing_iff (w : World) (cfg : Config) :
    Clean cfg (newConnection w cfg) ↔ (Reached w cfg → Migratable w cfg) := by
  unfold newConnection Reached
  cases registered : w.registered with
  | false => simp [Clean]
  | true =>
  by_cases primary : Opens w .primary
  · by_cases single : cfg.readDSN = []
    · have finished := finish_clean_iff w cfg
      simpa [openPool_of_opens primary, primary, single, Config.pools] using finished
    · by_cases replica : Opens w .replica
      · have finished := finish_clean_iff w cfg
        simpa [openPool_of_opens, primary, replica, single, Config.pools] using finished
      · obtain ⟨e, failed⟩ := openPool_of_not replica ⟨[.primary], 0⟩
        simp [openPool_of_opens primary, single, failed, replica, Clean, Resources.close]
  · obtain ⟨e, failed⟩ := openPool_of_not primary ⟨[], 0⟩
    simp [failed, primary, Clean]

/-- With a replica, and a migration pool that fails to open, the replica's pool stays open. -/
theorem failed_migration_pool_leaks_replica : newConnection
      ⟨true, fun pool => if pool = .migration then some (ascii "down") else none, fun _ => none, true, none, none,
        none⟩
      ⟨ascii "postgres", ascii "replica", true, false⟩ =
    (some (ascii "migration bootstrap failed: down"), ⟨[.replica], 0⟩) := by
  decide

end Gofi.Sqln.Opening
