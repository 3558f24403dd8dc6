import Gofi.Concurrent.Run
import Gofi.Iam.Core

/-! The service over one store. The store implements some of the ports by
programs over its own atomic operations; the application answers the others as
it likes. All calls share one clock that never goes back. -/

namespace Gofi.Iam

open Gofi.Concurrent Gofi.Go

/-- A store: its atomic operations and the ports they implement. `Luck` is what
the caller does not control about an operation, `Chore` the work the store does
by itself. -/
structure Backend where
  atoms : Sig
  Store : Type
  Luck : atoms.Op → Type
  respond : Nat → Instant → Store → (op : atoms.Op) → Luck op → Option (atoms.Ans op × Store)
  Chore : Type
  chore : Instant → Store → Chore → Option Store
  impl : (op : PortOp) → Prog (ports.sum atoms) (ports.Ans op)

/-- The programs that implement a port over the atomic operations of a store. -/
abbrev Script (atoms : Sig) := Prog (ports.sum atoms)

namespace Script

def outside (atoms : Sig) (op : PortOp) : Script atoms (ports.Ans op) :=
  .call (S := ports.sum atoms) (.inl op) .done

def atom (atoms : Sig) (op : atoms.Op) : Script atoms (atoms.Ans op) :=
  .call (S := ports.sum atoms) (.inr op) .done

abbrev told (atoms : Sig) (op : PortOp) (ans : ports.Ans op) : Event (ports.sum atoms) := ⟨.inl op, ans⟩

abbrev did (atoms : Sig) (op : atoms.Op) (ans : atoms.Ans op) : Event (ports.sum atoms) := ⟨.inr op, ans⟩

def now (atoms : Sig) : Script atoms Time :=
  .call (S := ports.sum atoms) (.inl .now) fun clock : Instant => .done clock.time

end Script

structure World (Store : Type) where
  clock : Instant
  issued : List Str
  store : Store

/-- The operations left to the application: the clock tells the time, a new
UUID is fresh, everything else is answered at will. -/
def World.outside {Store : Type} (world : World Store) :
    (op : PortOp) → ports.Ans op → Option (ports.Ans op × World Store)
  | .now, _ => some (world.clock, world)
  | .newUUID, id =>
    if Uuid.text id ∈ world.issued then none
    else some (id, { world with issued := Uuid.text id :: world.issued })
  | _, ans => some (ans, world)

/-- What happens without a call: time passes, or the store does a chore. -/
inductive Tick (Chore : Type) where
  | wait (clock : Instant)
  | chore (chore : Chore)

namespace Backend

variable (b : Backend)

def answer (name : Nat) (world : World b.Store) : (op : (ports.sum b.atoms).Op) → Sum.elim ports.Ans b.Luck op →
      Option ((ports.sum b.atoms).Ans op × World b.Store)
  | .inl op, ans => world.outside op ans
  | .inr op, luck => (b.respond name world.clock world.store op luck).map fun (ans, store) =>
      (ans, { world with store := store })

def background (world : World b.Store) : Tick b.Chore → Option (World b.Store)
  | .wait clock => if world.clock.time ≤ clock.time then some { world with clock := clock } else none
  | .chore chore => (b.chore world.clock world.store chore).map fun store => { world with store := store }

@[reducible] def system (a : LocalAuth) : System ports (ports.sum b.atoms) where
  World := World b.Store
  Choice := Sum.elim ports.Ans b.Luck
  respond := b.answer
  Tick := Tick b.Chore
  background := b.background
  Call := Call
  Result := Call.Result
  body := a.body
  impl := b.impl

end Backend

end Gofi.Iam

namespace Gofi.Concurrent.State

open Gofi.Iam

variable {b : Backend} {a : LocalAuth}

abbrev clock (σ : State (b.system a)) : Gofi.Go.Instant := World.clock σ.world
abbrev issued (σ : State (b.system a)) : List Gofi.Go.Str := World.issued σ.world
abbrev store (σ : State (b.system a)) : b.Store := World.store σ.world

end Gofi.Concurrent.State
