import Gofi.Iam.World

/-! `provider/memory`: sessions in a map behind a mutex. Each critical section
is one atomic operation; what the source reads outside the lock is read by
operations of its own. -/

namespace Gofi.Iam.Memory

open Gofi.Concurrent Gofi.Go

/-- The stored objects and the map that lists them. An object deleted from the
map stays readable through a pointer taken before; an id names one object,
because each session is saved once under a fresh id. -/
structure Store where
  objects : Str → Option Session
  listed : Str → Bool
  revokedBefore : Str → Time

def Store.find (store : Store) (id : Str) : Option Session :=
  if store.listed id then store.objects id else none

inductive Op where
  | save (session : Session)
  | lookup (id : Str)
  | load (id : Str)
  | delete (id : Str)
  | revoke (id : Str)
  | revokeIfActive (id : Str)
  | revokeAll (userID : Str)
  | cutoff (userID : Str)

@[reducible] def atoms : Sig where
  Op := Op
  Ans
    | .save _ => Unit
    | .lookup _ => Bool
    | .load _ => Session
    | .delete _ => Unit
    | .revoke _ => Bool
    | .revokeIfActive _ => Option Bool
    | .revokeAll _ => Time
    | .cutoff _ => Time

def revokedSession (s : Session) (now : Time) (revokedBy : Str) : Session :=
  { s with revoked := true, revokedAt := some now, revokedBy := revokedBy }

def Store.put (store : Store) (id : Str) (s : Session) : Store :=
  { store with objects := Function.update store.objects id (some s) }

/-- `RevokeAllForUser` inside the lock, where it reads the clock: the cut-off,
then every listed session of the user. -/
def Store.revokeAll (store : Store) (userID : Str) (now : Time) : Store where
  objects id := (store.objects id).map fun s =>
    if store.listed id ∧ s.userID = userID ∧ !s.revoked then revokedSession s now (ascii "system") else s
  listed := store.listed
  revokedBefore := Function.update store.revokedBefore userID now

def respond (now : Instant) (store : Store) : (op : Op) → Option (atoms.Ans op × Store)
  | .save s => some ((), { store.put s.id s with listed := Function.update store.listed s.id true })
  | .lookup id => some ((store.find id).isSome, store)
  | .load id => (store.objects id).map fun s => (s, store)
  | .delete id => some ((), { store with listed := Function.update store.listed id false })
  | .revoke id =>
    match store.find id with
    | none => some (false, store)
    | some s => some (true, store.put id (revokedSession s now.time (ascii "user")))
  | .revokeIfActive id =>
    match store.find id with
    | none => some (none, store)
    | some s =>
      if s.revoked then some (some false, store)
      else some (some true, store.put id (revokedSession s now.time (ascii "user")))
  | .revokeAll userID => some (now.time, store.revokeAll userID now.time)
  | .cutoff userID => some (store.revokedBefore userID, store)

def gc (now : Instant) (store : Store) : Store :=
  { store with listed := fun id =>
      store.listed id && !((store.objects id).any fun s => now.time > s.expiresAt + 5 * Time.minute) }

abbrev Script := Iam.Script atoms

def atom (op : Op) : Script (atoms.Ans op) := Script.atom atoms op

def save (session : Session) : Script (Except Err Unit) := do
  atom (.save session.sanitize)
  pure (.ok ())

def get (withTTL : Bool) (sessionID : Str) : Script (Except Err (Option Session)) := do
  let ok : Bool ← atom (.lookup sessionID)
  if !ok then pure (.error Sentinel.sessionNotFound)
  else if withTTL then
    let now ← Script.now atoms
    let s : Session ← atom (.load sessionID)
    if now > s.expiresAt ∧ !s.revoked then
      atom (.delete sessionID)
      pure (.error Sentinel.sessionNotFound)
    else
      let copied : Session ← atom (.load sessionID)
      pure (.ok (some copied))
  else
    let copied : Session ← atom (.load sessionID)
    pure (.ok (some copied))

def revoke (sessionID : Str) : Script (Except Err Unit) := do
  let ok : Bool ← atom (.revoke sessionID)
  pure (if ok then .ok () else .error Sentinel.sessionNotFound)

def revokeIfActive (sessionID : Str) : Script (Except Err Bool) := do
  let outcome : Option Bool ← atom (.revokeIfActive sessionID)
  match outcome with
  | none => pure (.error Sentinel.sessionNotFound)
  | some revoked => pure (.ok revoked)

def revokeAllForUser (userID : Str) : Script (Except Err Unit) := do
  let _now : Time ← atom (.revokeAll userID)
  pure (.ok ())

def revokedBefore (userID : Str) : Script (Except Err Time) := do
  let cutoff : Time ← atom (.cutoff userID)
  pure (.ok cutoff)

def impl (withTTL : Bool) : (op : PortOp) → Script (ports.Ans op)
  | .save session => save session
  | .get sessionID => get withTTL sessionID
  | .revoke sessionID => revoke sessionID
  | .revokeIfActive sessionID => revokeIfActive sessionID
  | .revokeAllForUser userID => revokeAllForUser userID
  | .revokedBefore userID => revokedBefore userID
  | op => Script.outside atoms op

@[reducible] def backend (withTTL : Bool) : Backend where
  atoms := atoms
  Store := Store
  Luck _ := Unit
  respond _ now store op _ := respond now store op
  Chore := Unit
  chore now store _ := if withTTL then some (gc now store) else none
  impl := impl withTTL

end Gofi.Iam.Memory
