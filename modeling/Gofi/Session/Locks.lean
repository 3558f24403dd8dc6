import Gofi.Concurrent.Machine
import Gofi.Redis.Server
import Mathlib.Tactic.Simps.Basic

/-! `base/session`: locks and entries on a Redis driver. Locks and entries are in one
keyspace. A ttl is sent in whole milliseconds, and a key expires when exactly that has
passed. A command is executed at once; its reply may be lost. -/

namespace Gofi.Session

open Gofi.Go Gofi.Concurrent

structure Entry where
  id : Nat
  expiresAt : Time
  deriving DecidableEq

inductive Value where
  | token (token : Nat)
  | entry (entry : Entry)
  deriving DecidableEq

structure Item where
  value : Value
  expires : Option Time
  deriving DecidableEq

structure Config where
  keyPrefix : Str
  ttl : Duration
  lockTTL : Duration
  driverTTL : Duration

def Config.lockFor (cfg : Config) : Duration :=
  Redis.px (if cfg.lockTTL ≤ 0 then 10 * Time.second else cfg.lockTTL) * Time.millisecond

def lockKey (key : Str) : Str := ascii "lock:" ++ key

/-- What a process does under a lock: the function of `WithLock` or its own code
between `TryLock` and `Unlock`, or that of `CreateOrGet` or `Force`. -/
inductive Job where
  | user (key : Str)
  | createOrGet (key : Str)
  | force (key : Str)
  deriving DecidableEq

def Config.lockOf (cfg : Config) : Job → Str
  | .user key => lockKey key
  | .createOrGet key | .force key => lockKey (cfg.keyPrefix ++ ascii ":lock:" ++ key)

def Job.entryKey : Job → Option Str
  | .user _ => none
  | .createOrGet key | .force key => some key

/-- Where a call is: before it has the lock; in its critical section, where it is
going to read or to save an entry; before the release; before it returns. -/
inductive Stage where
  | waiting
  | inside (token : Nat) (acquired : Time)
  | saving (token : Nat) (acquired : Time) (entry : Entry)
  | leaving (token : Nat) (result : Option Entry)
  | left (result : Option Entry)
  deriving DecidableEq

structure Call where
  job : Job
  stage : Stage
  deriving DecidableEq

/-- The driver's Redis and the calls of all processes. `returns` logs what the calls of
`CreateOrGet` returned without an error. -/
structure System where
  clock : Time
  store : Str → Option Item
  calls : List Call
  fresh : Nat
  ids : Nat
  returns : List (Str × Entry)

def System.new : System := { clock := 0, store := fun _ => none, calls := [], fresh := 0, ids := 0, returns := [] }

namespace System

variable (cfg : Config)

def find (m : System) (key : Str) : Option Item := (m.store key).filter fun item => item.expires.all (m.clock < ·)

def write (m : System) (key : Str) (item : Option Item) : System :=
  { m with store := fun other => if other = key then item else m.store other }

def goOn (m : System) (place : Nat) (call : Call) : System := { m with calls := call :: m.calls.eraseIdx place }

def gone (m : System) (place : Nat) : System := { m with calls := m.calls.eraseIdx place }

def getEntry (m : System) (key : Str) : Except Unit (Option Entry) :=
  match m.find key with
  | none => .ok none
  | some ⟨.entry entry, _⟩ => .ok (some entry)
  | some ⟨.token _, _⟩ => .error ()

def isExpired (m : System) (entry : Entry) : Bool := entry.expiresAt < m.clock

def newEntry (m : System) : Entry := ⟨m.ids, m.clock + cfg.ttl⟩

def save (m : System) (key : Str) (entry : Entry) : System :=
  let ttl := if entry.expiresAt - m.clock ≤ 0 then cfg.driverTTL else entry.expiresAt - m.clock
  m.write key (some ⟨.entry entry, if 0 < ttl then some (m.clock + Redis.px ttl * Time.millisecond) else none⟩)

def takeLock (m : System) (job : Job) : System :=
  { m.write (cfg.lockOf job) (some ⟨.token m.fresh, some (m.clock + cfg.lockFor)⟩) with fresh := m.fresh + 1 }

attribute [simps -fullyApplied calls store clock fresh returns] goOn gone
attribute [simps calls clock fresh returns] write takeLock

def releaseLock (m : System) (job : Job) (token : Nat) : System :=
  if (m.find (cfg.lockOf job)).map Item.value = some (.token token) then m.write (cfg.lockOf job) none else m

/-- A call starts; the call at a place goes on; another process deletes an entry; time
goes on. Of a failing command the effect may be there (`loses`, `saveLost`) or not; the
release may fail, and it may be sent again. -/
inductive Move where
  | starts (job : Job)
  | acquires (place : Nat)
  | loses (place : Nat)
  | gives (place : Nat)
  | reads (place : Nat)
  | readFails (place : Nat)
  | saves (place : Nat)
  | saveFails (place : Nat)
  | saveLost (place : Nat)
  | ends (place : Nat)
  | releases (place : Nat)
  | leaves (place : Nat)
  | returns (place : Nat)
  | deletes (key : Str)
  | passes (time : Nat)
  deriving DecidableEq

def step (m : System) : Move → Option System
  | .starts job => if job = .user [] then none else some { m with calls := ⟨job, .waiting⟩ :: m.calls }
  | .acquires place =>
    match m.calls[place]? with
    | some ⟨job, .waiting⟩ =>
      match m.find (cfg.lockOf job), job with
      | none, _ => some ((m.takeLock cfg job).goOn place ⟨job, .inside m.fresh m.clock⟩)
      -- `WithLock` and `TryLock` return, the others try again
      | some _, .user _ => some (m.gone place)
      | some _, _ => some m
    | _ => none
  | .loses place =>
    match m.calls[place]? with
    | some ⟨job, .waiting⟩ =>
      match m.find (cfg.lockOf job) with
      | none => some ((m.takeLock cfg job).gone place)
      | some _ => some (m.gone place)
    | _ => none
  | .gives place =>
    match m.calls[place]? with
    | some ⟨_, .waiting⟩ => some (m.gone place)
    | _ => none
  | .reads place =>
    match m.calls[place]? with
    | some ⟨.createOrGet key, .inside token acquired⟩ =>
      match m.getEntry key with
      | .error _ => some (m.goOn place ⟨.createOrGet key, .leaving token none⟩)
      | .ok (some entry) =>
        if m.isExpired entry then
          some { m.goOn place ⟨.createOrGet key, .saving token acquired (m.newEntry cfg)⟩ with ids := m.ids + 1 }
        else some (m.goOn place ⟨.createOrGet key, .leaving token (some entry)⟩)
      | .ok none =>
        some { m.goOn place ⟨.createOrGet key, .saving token acquired (m.newEntry cfg)⟩ with ids := m.ids + 1 }
    | some ⟨.force key, .inside token acquired⟩ =>
      some { m.goOn place ⟨.force key, .saving token acquired (m.newEntry cfg)⟩ with ids := m.ids + 1 }
    | _ => none
  | .readFails place =>
    match m.calls[place]? with
    | some ⟨.createOrGet key, .inside token _⟩ => some (m.goOn place ⟨.createOrGet key, .leaving token none⟩)
    | _ => none
  | .saves place =>
    match m.calls[place]? with
    | some ⟨job, .saving token _ entry⟩ =>
      match job.entryKey with
      | some key => some ((m.save cfg key entry).goOn place ⟨job, .leaving token (some entry)⟩)
      | none => none
    | _ => none
  | .saveFails place =>
    match m.calls[place]? with
    | some ⟨job, .saving token _ _⟩ => some (m.goOn place ⟨job, .leaving token none⟩)
    | _ => none
  | .saveLost place =>
    match m.calls[place]? with
    | some ⟨job, .saving token _ entry⟩ =>
      match job.entryKey with
      | some key => some ((m.save cfg key entry).goOn place ⟨job, .leaving token none⟩)
      | none => none
    | _ => none
  | .ends place =>
    match m.calls[place]? with
    | some ⟨.user key, .inside token _⟩ => some (m.goOn place ⟨.user key, .leaving token none⟩)
    | _ => none
  | .releases place =>
    match m.calls[place]? with
    | some ⟨job, .leaving token _⟩ => some (m.releaseLock cfg job token)
    | _ => none
  | .leaves place =>
    match m.calls[place]? with
    | some ⟨job, .leaving _ result⟩ => some (m.goOn place ⟨job, .left result⟩)
    | _ => none
  | .returns place =>
    match m.calls[place]? with
    | some ⟨.createOrGet key, .left (some entry)⟩ => some { m.gone place with returns := (key, entry) :: m.returns }
    | some ⟨_, .left _⟩ => some (m.gone place)
    | _ => none
  | .deletes key => some (m.write key none)
  | .passes time => some { m with clock := m.clock + time }

end System

end Gofi.Session
