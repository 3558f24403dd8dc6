import Gofi.Concurrent.Program
import Gofi.Go.Text
import Gofi.Go.Time
import Mathlib.Data.List.Perm.Basic
import Mathlib.Logic.Function.Basic

/-! A Redis server as a keyspace with expiry times and watched keys, and the
commands that the client library sends it. Server time is counted in
milliseconds. An item stays in the keyspace after its expiry time but no
command finds it any more. -/

namespace Gofi.Redis

open Gofi.Concurrent Gofi.Go

inductive Failure where
  | wrongType
  | invalidExpire
  | connection (text : Str)

def Failure.text : Failure → Str
  | .wrongType => ascii "WRONGTYPE Operation against a key holding the wrong kind of value"
  | .invalidExpire => ascii "ERR invalid expire time"
  | .connection text => text

inductive Value (V : Type) where
  | text (value : V)
  | members (set : List Str)

structure Item (V : Type) where
  value : Value V
  expireAt : Option Int

/-- A connection watches at most one key; the flag tells whether it was written since. -/
structure Server (V : Type) where
  items : Str → Option (Item V)
  watches : Nat → Option (Str × Bool)

def millis (now : Time) : Int := now / Time.millisecond

def px (ttl : Duration) : Int :=
  if 0 < ttl ∧ ttl < Time.millisecond then 1 else ttl.tdiv Time.millisecond

def seconds (ttl : Duration) : Int :=
  if 0 < ttl ∧ ttl < Time.second then 1 else ttl.tdiv Time.second

def Item.live (item : Item V) (now : Int) : Bool :=
  match item.expireAt with
  | none => true
  | some expiry => now < expiry

namespace Server

def find (server : Server V) (now : Int) (key : Str) : Option (Item V) :=
  match server.items key with
  | some item => if item.live now then some item else none
  | none => none

/-- Replace or remove an item; every watch on its key notices. -/
def write (server : Server V) (key : Str) (item : Option (Item V)) : Server V where
  items := Function.update server.items key item
  watches conn := (server.watches conn).map fun (watched, dirty) => (watched, dirty || watched = key)

def setWatch (server : Server V) (conn : Nat) (watch : Option (Str × Bool)) : Server V :=
  { server with watches := Function.update server.watches conn watch }

end Server

/-- The commands, with the durations the caller gave the client library. -/
inductive Command (V : Type) where
  | get (key : Str)
  | set (key : Str) (value : V) (ttl : Duration)
  | setNX (key : Str) (value : V) (ttl : Duration)
  | sAdd (key member : Str)
  | sMembers (key : Str)
  | sRem (key : Str) (members : List Str)
  | expire (key : Str) (ttl : Duration)
  | watch (key : Str)
  | exec (key : Str) (value : V) (ttl : Duration)

@[reducible] def Command.Reply {V : Type} : Command V → Type
  | .get _ => Option V
  | .setNX _ _ _ => Bool
  | .sMembers _ => List Str
  | .exec _ _ _ => Bool
  | _ => Unit

@[reducible] def commands (V : Type) : Sig where
  Op := Command V
  Ans command := Except Failure command.Reply

/-- What the network does to a command: it arrives and its reply returns, it
never arrives, or only its reply is lost. -/
inductive Fate where
  | delivered
  | failed (text : Str)
  | lost (text : Str)

/-- Everything about one command that the caller does not control: the network,
the order of a set's members, and transactions aborted for reasons of the server. -/
structure Luck where
  fate : Fate
  order : List Str
  abort : Bool

namespace Server

def set (server : Server V) (now : Int) (key : Str) (value : V) (ttl : Duration) : Server V :=
  server.write key (some ⟨.text value, if 0 < ttl then some (now + px ttl) else none⟩)

/-- The expiry of `SET … NX`: none for a zero duration (plain `SETNX`) and for
minus one nanosecond (`KEEPTTL` on a new key); the server refuses other
durations below one millisecond of either sign but the positive ones. -/
def setNX (server : Server V) (now : Int) (key : Str) (value : V) (ttl : Duration) : Except Failure Bool × Server V :=
  if ttl = 0 ∨ ttl = -1 then
    match server.find now key with
    | some _ => (.ok false, server)
    | none => (.ok true, server.write key (some ⟨.text value, none⟩))
  else if px ttl ≤ 0 then (.error .invalidExpire, server)
  else
    match server.find now key with
    | some _ => (.ok false, server)
    | none => (.ok true, server.write key (some ⟨.text value, some (now + px ttl)⟩))

def get (server : Server V) (now : Int) (key : Str) : Except Failure (Option V) :=
  match server.find now key with
  | none => .ok none
  | some ⟨.text value, _⟩ => .ok (some value)
  | some ⟨.members _, _⟩ => .error .wrongType

def sAdd (server : Server V) (now : Int) (key member : Str) : Except Failure Unit × Server V :=
  match server.find now key with
  | none => (.ok (), server.write key (some ⟨.members [member], none⟩))
  | some ⟨.members set, expiry⟩ =>
    (.ok (), server.write key (some ⟨.members (if member ∈ set then set else member :: set), expiry⟩))
  | some ⟨.text _, _⟩ => (.error .wrongType, server)

def sRem (server : Server V) (now : Int) (key : Str) (gone : List Str) : Except Failure Unit × Server V :=
  match server.find now key with
  | none => (.ok (), server)
  | some ⟨.members set, expiry⟩ =>
    match set.filter (· ∉ gone) with
    | [] => (.ok (), server.write key none)
    | kept => (.ok (), server.write key (some ⟨.members kept, expiry⟩))
  | some ⟨.text _, _⟩ => (.error .wrongType, server)

def expire (server : Server V) (now : Int) (key : Str) (ttl : Duration) : Server V :=
  match server.find now key with
  | none => server
  | some item =>
    if 0 < seconds ttl then server.write key (some ⟨item.value, some (now + 1000 * seconds ttl)⟩)
    else server.write key none

def del (server : Server V) (keys : List Str) : Server V := keys.foldl (fun server key => server.write key none) server

def execute (conn : Nat) (server : Server V) (now : Int) (luck : Luck) :
    (command : Command V) → Option (Except Failure command.Reply × Server V)
  | .get key => some (server.get now key, server)
  | .set key value ttl => some (.ok (), server.set now key value ttl)
  | .setNX key value ttl => some (server.setNX now key value ttl)
  | .sAdd key member => some (server.sAdd now key member)
  | .sMembers key =>
    match server.find now key with
    | none => some (.ok [], server)
    | some ⟨.members set, _⟩ => if luck.order.Perm set then some (.ok luck.order, server) else none
    | some ⟨.text _, _⟩ => some (.error .wrongType, server)
  | .sRem key members => some (server.sRem now key members)
  | .expire key ttl => some (.ok (), server.expire now key ttl)
  | .watch key => some (.ok (), server.setWatch conn (some (key, false)))
  | .exec key value ttl =>
    if server.watches conn = some (key, false) ∧ luck.abort = false then
      some (.ok true, (server.setWatch conn none).set now key value ttl)
    else some (.ok false, server.setWatch conn none)

def respond (conn : Nat) (server : Server V) (now : Int) (command : Command V) (luck : Luck) :
    Option (Except Failure command.Reply × Server V) :=
  match luck.fate with
  | .failed text => some (.error (.connection text), server)
  | .delivered => server.execute conn now luck command
  | .lost text => (server.execute conn now luck command).map fun (_, later) =>
      (.error (.connection text), later)

end Server

end Gofi.Redis
