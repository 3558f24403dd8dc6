import Gofi.Redis.Server

/-! Everything a command can do to the server, whatever the network does to it,
and what its reply tells. -/

namespace Gofi.Redis

open Gofi.Go

variable {V : Type}

theorem Item.live_of_lt {item : Item V} (outlives : ∀ time, item.expireAt = some time → now < time) :
    item.live now = true := by
  unfold Item.live
  split
  · rfl
  · rename_i time set
    exact decide_eq_true (outlives time set)

theorem Item.live_before {item : Item V} (live : item.live later = true) (passed : time ≤ later) :
    item.live time = true := by
  unfold Item.live at *
  split at live
  · rfl
  · simp only [decide_eq_true_eq] at *
    lia

namespace Server

variable {server later : Server V}

theorem find_some {key : Str} (found : server.find now key = some item) :
    server.items key = some item ∧ item.live now := by
  unfold find at found
  split at found
  · rename_i present
    split at found <;> cases found
    rename_i live
    exact ⟨present, live⟩
  · cases found

theorem find_of_live {key : Str} (present : server.items key = some item) (live : item.live now = true) :
    server.find now key = some item := by
  simp [find, present, live]

theorem find_before {key : Str} (found : later.find afterwards key = some item) (passed : now ≤ afterwards)
    (same : later.items key = server.items key) : server.find now key = some item := by
  obtain ⟨present, live⟩ := find_some found
  exact find_of_live (same ▸ present) (Item.live_before live passed)

def membersOf (item : Option (Item V)) : List Str :=
  match item.map Item.value with
  | some (.members set) => set
  | _ => []

def Holds (server : Server V) (key member : Str) : Prop := member ∈ membersOf (server.items key)

theorem holds_of_find {key member : Str} {members : List Str}
    (found : server.find now key = some ⟨.members members, expiry⟩)
    (listed : member ∈ members) : server.Holds key member := by
  rw [Holds, (find_some found).1]
  exact listed

inductive Effect (conn : Nat) (now : Int) (server : Server V) : Command V → Server V → Prop where
  | still : Effect conn now server command server
  | set : Effect conn now server (.set key value ttl) (server.set now key value ttl)
  | setNX (free : server.find now key = none) :
      Effect conn now server (.setNX key value ttl) (server.write key (some ⟨.text value, expiry⟩))
  | sAdd {members : List Str} (known : ∀ m ∈ members, m = member ∨ server.Holds key m) :
      Effect conn now server (.sAdd key member) (server.write key (some ⟨.members members, expiry⟩))
  | sRem {members : List Str} (known : ∀ m ∈ members, server.Holds key m) :
      Effect conn now server (.sRem key gone) (server.write key (some ⟨.members members, expiry⟩))
  | emptied : Effect conn now server (.sRem key gone) (server.write key none)
  | expired : Effect conn now server (.expire key ttl) (server.write key none)
  | expire (found : server.items key = some ⟨value, before⟩) :
      Effect conn now server (.expire key ttl) (server.write key (some ⟨value, some expiry⟩))
  | watch : Effect conn now server (.watch key) (server.setWatch conn (some (key, false)))
  | discard : Effect conn now server (.exec key value ttl) (server.setWatch conn none)
  | exec (clean : server.watches conn = some (key, false)) :
      Effect conn now server (.exec key value ttl) ((server.setWatch conn none).set now key value ttl)

@[simp] theorem write_items_self (key : Str) (item : Option (Item V)) :
    (server.write key item).items key = item := Function.update_self ..

variable {other : Str}

theorem write_items_other {key : Str} (item : Option (Item V)) (apart : other ≠ key) :
    (server.write key item).items other = server.items other := Function.update_of_ne apart ..

theorem del_items (keys : List Str) (key : Str) :
    (server.del keys).items key = if key ∈ keys then none else server.items key := by
  induction keys generalizing server with
  | nil => rfl
  | cons first rest ih =>
    rw [del, List.foldl_cons, ← del, ih]
    by_cases same : key = first
    · simp [same]
    · simp [same, write_items_other none same]

theorem setWatch_other (watch : Option (Str × Bool)) (apart : name ≠ conn) :
    (server.setWatch conn watch).watches name = server.watches name := Function.update_of_ne apart ..

theorem write_clean {key watched : Str} {item : Option (Item V)}
    (clean : (server.write key item).watches name = some (watched, false)) :
    server.watches name = some (watched, false) ∧ (server.write key item).items watched = server.items watched := by
  obtain ⟨⟨was, dirty⟩, old, same⟩ := Option.map_eq_some_iff.mp clean
  obtain ⟨rfl, unwritten⟩ := Prod.mk.inj same
  simp only [Bool.or_eq_false_iff, decide_eq_false_iff_not] at unwritten
  obtain ⟨rfl, apart⟩ := unwritten
  exact ⟨old, write_items_other item apart⟩

theorem Effect.clean {key : Str} (effect : Effect conn now server command later)
    (other : name ≠ conn ∨ ∀ key, command ≠ .watch key) (clean : later.watches name = some (key, false)) :
    server.watches name = some (key, false) ∧ later.items key = server.items key := by
  have unwatched (watched : (server.setWatch conn none).watches name = some (key, false)) :
      server.watches name = some (key, false) := by
    by_cases self : name = conn
    · simp [self, setWatch] at watched
    · exact (setWatch_other none self).symm.trans watched
  cases effect with
  | still => exact ⟨clean, rfl⟩
  | watch =>
    rcases other with apart | different
    · exact ⟨(setWatch_other _ apart).symm.trans clean, rfl⟩
    · exact absurd rfl (different _)
  | discard => exact ⟨unwatched clean, rfl⟩
  | exec _ =>
    obtain ⟨before, kept⟩ := write_clean clean
    exact ⟨unwatched before, kept⟩
  | _ => exact write_clean clean

theorem sAdd_items_other {key : Str} (now : Int) (member : Str) (apart : other ≠ key) :
    (server.sAdd now key member).2.items other = server.items other := by
  unfold sAdd
  split
  · exact write_items_other _ apart
  · exact write_items_other _ apart
  · rfl

theorem expire_items_other {key : Str} (now : Int) (ttl : Duration) (apart : other ≠ key) :
    (server.expire now key ttl).items other = server.items other := by
  unfold expire
  split
  · rfl
  split
  all_goals exact write_items_other _ apart

theorem sAdd_effect (conn : Nat) (now : Int) (key member : Str) :
    Effect conn now server (.sAdd key member) (server.sAdd now key member).2 := by
  unfold sAdd
  split
  · exact .sAdd fun m listed => .inl (List.mem_singleton.mp listed)
  · rename_i set expiry found
    refine .sAdd fun m listed => ?_
    split at listed
    · exact .inr (holds_of_find found listed)
    · rcases List.mem_cons.mp listed with new | old
      · exact .inl new
      · exact .inr (holds_of_find found old)
  · exact .still

theorem sRem_effect (conn : Nat) (now : Int) (key : Str) (gone : List Str) :
    Effect conn now server (.sRem key gone) (server.sRem now key gone).2 := by
  unfold sRem
  split
  · exact .still
  · rename_i set expiry found
    split
    · exact .emptied
    · exact .sRem fun m listed => holds_of_find found (List.mem_of_mem_filter listed)
  · exact .still

theorem expire_effect (conn : Nat) (now : Int) (key : Str) (ttl : Duration) :
    Effect conn now server (.expire key ttl) (server.expire now key ttl) := by
  unfold expire
  split
  · exact .still
  · rename_i item found
    split
    · exact .expire (find_some found).1
    · exact .expired

theorem setNX_effect (conn : Nat) (now : Int) (key : Str) (value : V) (ttl : Duration) :
    Effect conn now server (.setNX key value ttl) (server.setNX now key value ttl).2 := by
  unfold setNX
  split
  · split
    · exact .still
    · exact .setNX ‹_›
  · split
    · exact .still
    · split
      · exact .still
      · exact .setNX ‹_›

variable {command : Command V}

theorem execute_effect
    (executed : server.execute conn now luck command = some (ans, later)) : Effect conn now server command later := by
  have second {pair : Except Failure command.Reply × Server V} (same : some pair = some (ans, later)) :
      pair.2 = later := congrArg Prod.snd (Option.some.inj same)
  cases command with
  | get key => exact second executed ▸ .still
  | set key value ttl => exact second executed ▸ .set
  | setNX key value ttl => exact second executed ▸ setNX_effect ..
  | sAdd key member => exact second executed ▸ sAdd_effect ..
  | sMembers key =>
    simp only [execute] at executed
    split at executed
    · exact second executed ▸ .still
    · split at executed
      · exact second executed ▸ .still
      · cases executed
    · exact second executed ▸ .still
  | sRem key members => exact second executed ▸ sRem_effect ..
  | expire key ttl => exact second executed ▸ expire_effect ..
  | watch key => exact second executed ▸ .watch
  | exec key value ttl =>
    simp only [execute] at executed
    split at executed
    · rename_i clean
      exact second executed ▸ .exec clean.1
    · exact second executed ▸ .discard

theorem effect
    (responded : server.respond conn now command luck = some (ans, later)) : Effect conn now server command later := by
  unfold respond at responded
  split at responded
  · obtain rfl := (Prod.mk.inj (Option.some.inj responded)).2
    exact .still
  · exact execute_effect responded
  · obtain ⟨⟨reply, after⟩, executed, same⟩ := Option.map_eq_some_iff.mp responded
    obtain rfl := (Prod.mk.inj same).2
    exact execute_effect executed

theorem executed_of_ok
    (responded : server.respond conn now command luck = some (.ok reply, later)) :
    server.execute conn now luck command = some (.ok reply, later) := by
  unfold respond at responded
  split at responded
  · cases responded
  · exact responded
  · obtain ⟨⟨_, after⟩, _, same⟩ := Option.map_eq_some_iff.mp responded
    cases same

theorem got_value {key : Str} (responded : server.respond conn now (.get key) luck = some (.ok (some value), later)) :
    later = server ∧ ∃ expiry, server.find now key = some ⟨.text value, expiry⟩ := by
  have executed := Prod.mk.inj (Option.some.inj (executed_of_ok responded))
  refine ⟨executed.2.symm, ?_⟩
  have reply := executed.1
  unfold get at reply
  split at reply
  · cases reply
  · rename_i present expiry found
    cases reply
    exact ⟨expiry, found⟩
  · cases reply

theorem got_nothing {key : Str} (responded : server.respond conn now (.get key) luck = some (.ok none, later)) :
    later = server ∧ server.find now key = none := by
  have executed := Prod.mk.inj (Option.some.inj (executed_of_ok responded))
  refine ⟨executed.2.symm, ?_⟩
  have reply := executed.1
  unfold get at reply
  split at reply
  · assumption
  · cases reply
  · cases reply

theorem got_members {key member : Str}
    (responded : server.respond conn now (.sMembers key) luck = some (.ok reply, later))
    (listed : member ∈ reply) : later = server ∧ server.Holds key member := by
  have executed := executed_of_ok responded
  simp only [execute] at executed
  split at executed
  · cases executed
    cases listed
  · rename_i set expiry found
    split at executed <;> cases executed
    rename_i perm
    exact ⟨rfl, holds_of_find found (perm.mem_iff.mp listed)⟩
  · cases executed

theorem committed {key : Str}
    (responded : server.respond conn now (.exec key value ttl) luck = some (.ok true, later)) :
    server.watches conn = some (key, false) ∧ later = (server.setWatch conn none).set now key value ttl := by
  have executed := executed_of_ok responded
  simp only [execute] at executed
  split at executed <;> cases executed
  rename_i clean
  exact ⟨clean.1, rfl⟩

end Server

end Gofi.Redis
