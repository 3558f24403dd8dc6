import Gofi.Concurrent.Machine
import Gofi.Redis.Effect

/-! `cache/cache.go`: the keyed entries of one cache in Redis, and the index by
which `Del` finds them. The calls are split into their commands; the transaction
of `SetKeyed` is one step. -/

namespace Gofi.Sqln

open Gofi.Concurrent Gofi.Go Gofi.Redis

structure Cache where
  keyPrefix : Str
  name : Str
  ttl : Duration

namespace Cache

variable {V : Type} (c : Cache)

def getNamePrefixed : Str := c.keyPrefix ++ ascii "::" ++ c.name

def keyedKey (key : Str) : Str := ascii "\x7b" ++ c.getNamePrefixed ++ (ascii "\x7d::q:" ++ key)

def indexKey : Str := ascii "\x7b" ++ c.getNamePrefixed ++ ascii "\x7d::keys"

def setKeyed (server : Server V) (now : Int) (key : Str) (payload : V) : Server V :=
  let indexed := ((server.set now (c.keyedKey key) payload c.ttl).sAdd now c.indexKey (c.keyedKey key)).2
  if 0 < c.ttl then indexed.expire now c.indexKey c.ttl else indexed

inductive Deleting where
  | base
  | index
  | entries (keys : List Str)

def del (server : Server V) (now : Int) (order : List Str) : Deleting → Option (Server V × Option Deleting)
  | .base => some (server.del [c.getNamePrefixed], some .index)
  | .index =>
    match server.find now c.indexKey with
    | none => some (server, some (.entries []))
    | some ⟨.members set, _⟩ => if order.Perm set then some (server, some (.entries order)) else none
    | some ⟨.text _, _⟩ => some (server, none)
  | .entries keys => some (server.del (keys ++ [c.indexKey]), none)

structure Site (V : Type) where
  server : Server V
  now : Int
  dels : List Deleting

inductive Move (V : Type) where
  | wait (ms : Nat)
  | setKeyed (key : Str) (payload : V)
  | startDel
  | del (place : Nat) (order : List Str)
  /-- The next command of a `Del` fails. -/
  | fail (place : Nat)

def goOn (dels : List Deleting) (place : Nat) : Option Deleting → List Deleting
  | some next => dels.set place next
  | none => dels.eraseIdx place

def step (site : Site V) : Move V → Option (Site V)
  | .wait ms => some { site with now := site.now + ms }
  | .setKeyed key payload => some { site with server := c.setKeyed site.server site.now key payload }
  | .startDel => some { site with dels := site.dels ++ [.base] }
  | .del place order =>
    site.dels[place]?.bind fun d => (c.del site.server site.now order d).map fun (server, next) =>
      { site with server, dels := goOn site.dels place next }
  | .fail place => site.dels[place]?.map fun _ => { site with dels := goOn site.dels place none }

def Indexed (site : Site V) : Prop :=
  ∀ key item, site.server.find site.now (c.keyedKey key) = some item →
    ∃ set expiry, site.server.find site.now c.indexKey = some ⟨.members set, expiry⟩ ∧ c.keyedKey key ∈ set

def Emptied (site : Site V) : Prop := ∀ key, site.server.find site.now (c.keyedKey key) = none

/-- A `Del` past `SMEMBERS` has seen the key. -/
def Deleting.covers (key : Str) : Deleting → Bool
  | .entries keys => key ∈ keys
  | _ => true

/-- No `SetKeyed` adds a key behind the back of a `Del` that has read the index. -/
def Apart (site : Site V) : Move V → Prop
  | .setKeyed key _ => ∀ d ∈ site.dels, d.covers (c.keyedKey key) = true
  | _ => True

instance (site : Site V) : (move : Move V) → Decidable (c.Apart site move)
  | .setKeyed key _ => inferInstanceAs (Decidable (∀ d ∈ site.dels, d.covers (c.keyedKey key) = true))
  | .wait _ | .startDel | .del _ _ | .fail _ => .isTrue trivial

def Timely : Prop := 0 < c.ttl → px c.ttl ≤ 1000 * seconds c.ttl

instance : Decidable c.Timely := inferInstanceAs (Decidable (_ → _))

structure Unused (site : Site V) : Prop where
  entries : ∀ key, site.server.items (c.keyedKey key) = none
  index : site.server.items c.indexKey = none
  dels : site.dels = []

variable {c}

section Keys

theorem keyedKey_ne_indexKey (key : Str) : c.keyedKey key ≠ c.indexKey := by
  intro same
  have tails := List.append_cancel_left same
  simp [ascii] at tails

private theorem keyedKey_injective (same : c.keyedKey first = c.keyedKey second) : first = second :=
  List.append_cancel_left (List.append_cancel_left same)

private theorem getNamePrefixed_ne_indexKey : c.indexKey ≠ c.getNamePrefixed := by
  intro same
  have lengths := congrArg List.length same
  simp [indexKey, ascii] at lengths
  lia

end Keys

def Outlives (longer shorter : Option Int) : Prop := ∀ last, longer = some last → ∃ first, shorter = some first ∧
    first ≤ last

theorem Outlives.refl (expiry : Option Int) : Outlives expiry expiry := fun last same => ⟨last, same, le_refl last⟩

theorem Outlives.trans (first : Outlives longest longer) (second : Outlives longer shorter) :
    Outlives longest shorter := by
  intro last same
  obtain ⟨middle, next, later⟩ := first last same
  obtain ⟨early, found, earlier⟩ := second middle next
  exact ⟨early, found, earlier.trans later⟩

private theorem live_of_outlives {entry index : Item V} (outlives : Outlives index.expireAt entry.expireAt)
    (live : entry.live now = true) : index.live now = true := by
  unfold Item.live
  split
  · rfl
  · rename_i last expiry
    obtain ⟨first, same, before⟩ := outlives last expiry
    simp only [Item.live, same, decide_eq_true_eq] at live ⊢
    lia

def expiry (c : Cache) (now length : Int) : Option Int := if 0 < c.ttl then some (now + length) else none

theorem Timely.outlives (timely : c.Timely) (now : Int) :
    Outlives (c.expiry now (1000 * seconds c.ttl)) (c.expiry now (px c.ttl)) := by
  intro last ends
  unfold expiry at ends ⊢
  split at ends <;> cases ends
  rename_i positive
  have shorter := timely positive
  exact ⟨_, if_pos positive, by lia⟩

private theorem seconds_pos {ttl : Duration} (positive : 0 < ttl) : 0 < seconds ttl := by
  unfold seconds
  split
  · exact Int.one_pos
  · rename_i large
    rw [Int.tdiv_eq_ediv_of_nonneg positive.le]
    exact (Int.le_ediv_iff_mul_le (by decide)).mpr (by lia)

def IsIndex (c : Cache) (item : Item V) : Prop := ∃ set, item.value = .members set ∧ (item.expireAt = none ∨ 0 < c.ttl)

private theorem sAdd_members (now : Int) {server : Server V} {key : Str} (member : Str)
    (typed : ∀ item, server.items key = some item → IsIndex c item) :
    ∃ set expiry, (server.sAdd now key member).2 = server.write key (some ⟨.members set, expiry⟩) ∧ member ∈ set ∧
      (Item.mk (V := V) (.members set) expiry).live now = true ∧ (expiry = none ∨ 0 < c.ttl) ∧
      ∀ old before, server.find now key = some ⟨.members old, before⟩ → old ⊆ set := by
  unfold Server.sAdd
  split
  · rename_i missing
    exact ⟨[member], none, rfl, List.mem_singleton_self _, rfl, .inl rfl, by simp [missing]⟩
  · rename_i old before found
    obtain ⟨present, live⟩ := Server.find_some found
    obtain ⟨_, _, ends⟩ := typed _ present
    refine ⟨if member ∈ old then old else member :: old, before, rfl, ?_, live, ends, ?_⟩
    · split <;> simp_all
    · intro other expiry same
      cases found.symm.trans same
      split <;> simp
  · rename_i value before found
    obtain ⟨set, other, _⟩ := typed _ (Server.find_some found).1
    cases other

private theorem setKeyed_items {server : Server V}
    (typed : ∀ item, server.items c.indexKey = some item → IsIndex c item)
    (now : Int) (key : Str) (payload : V) : ∃ set, (c.setKeyed server now key payload).items =
        Function.update (Function.update server.items (c.keyedKey key) (some ⟨.text payload, c.expiry now (px c.ttl)⟩))
          c.indexKey (some ⟨.members set, c.expiry now (1000 * seconds c.ttl)⟩) ∧
      c.keyedKey key ∈ set ∧ ∀ old before, server.find now c.indexKey = some ⟨.members old, before⟩ → old ⊆ set := by
  have apart : c.indexKey ≠ c.keyedKey key := (keyedKey_ne_indexKey key).symm
  have untouched : (server.set now (c.keyedKey key) payload c.ttl).items c.indexKey = server.items c.indexKey :=
    Server.write_items_other _ apart
  obtain ⟨set, before, added, member, live, ends, more⟩ :=
    sAdd_members now (c.keyedKey key) (untouched ▸ typed)
  refine ⟨set, ?_, member, fun old expiry found => more old expiry ?_⟩
  · unfold setKeyed
    rw [added]
    split
    · rename_i positive
      rw [Server.expire, Server.find_of_live (Server.write_items_self ..) live]
      simp only [seconds_pos positive, if_true]
      simp [Server.write, Server.set, expiry, positive]
    · rename_i zero
      obtain rfl : before = none := ends.resolve_right zero
      simp [Server.write, Server.set, expiry, zero]
  · simpa [Server.find, untouched] using found

theorem setKeyed_entry (server : Server V) (now : Int) (key : Str) (payload : V) :
    (c.setKeyed server now key payload).items (c.keyedKey key) = some ⟨.text payload, c.expiry now (px c.ttl)⟩ := by
  have apart := keyedKey_ne_indexKey (c := c) key
  have indexed : ((server.set now (c.keyedKey key) payload c.ttl).sAdd now c.indexKey (c.keyedKey key)).2.items
      (c.keyedKey key) = some ⟨.text payload, c.expiry now (px c.ttl)⟩ :=
    (Server.sAdd_items_other now _ apart).trans (Server.write_items_self ..)
  unfold setKeyed
  split
  · exact (Server.expire_items_other now _ apart).trans indexed
  · exact indexed

structure Sound (c : Cache) (site : Site V) : Prop where
  typed : ∀ item, site.server.items c.indexKey = some item → IsIndex c item
  covered : ∀ key item, site.server.find site.now (c.keyedKey key) = some item →
    ∃ set expiry, site.server.items c.indexKey = some ⟨.members set, expiry⟩ ∧ c.keyedKey key ∈ set ∧
      Outlives expiry item.expireAt
  bounded : ∀ key item, site.server.find site.now (c.keyedKey key) = some item →
    Outlives (c.expiry site.now (px c.ttl)) item.expireAt
  seen : ∀ keys, .entries keys ∈ site.dels → ∀ key item,
    site.server.find site.now (c.keyedKey key) = some item → c.keyedKey key ∈ keys

theorem Sound.indexed {site : Site V} (sound : c.Sound site) : c.Indexed site := by
  intro key item found
  obtain ⟨set, expiry, present, member, outlives⟩ := sound.covered key item found
  exact ⟨set, expiry, Server.find_of_live present (live_of_outlives outlives (Server.find_some found).2), member⟩

theorem Unused.sound {site : Site V} (unused : c.Unused site) : c.Sound site := by
  have none_found (key : Str) : site.server.find site.now (c.keyedKey key) = none := by
    simp [Server.find, unused.entries]
  exact ⟨by simp [unused.index], by simp [none_found], by simp [none_found], by simp [unused.dels]⟩

theorem Sound.shrink {site later : Site V} (sound : c.Sound site) (passed : site.now ≤ later.now)
    (index : later.server.items c.indexKey = site.server.items c.indexKey)
    (kept : ∀ key, later.server.items (c.keyedKey key) = none ∨
      later.server.items (c.keyedKey key) = site.server.items (c.keyedKey key))
    (dels : ∀ keys, .entries keys ∈ later.dels → .entries keys ∈ site.dels) : c.Sound later := by
  have before (key : Str) (item : Item V) (found : later.server.find later.now (c.keyedKey key) = some item) :
      site.server.find site.now (c.keyedKey key) = some item := by
    rcases kept key with gone | same
    · simp [Server.find, gone] at found
    · exact Server.find_before found passed same
  refine ⟨index ▸ sound.typed, fun key item found => index ▸ sound.covered key item (before key item found),
    fun key item found last ends => ?_, fun keys member key item found =>
      sound.seen keys (dels keys member) key item (before key item found)⟩
  have positive : 0 < c.ttl := by
    by_contra zero
    simp [expiry, zero] at ends
  obtain ⟨first, same, earlier⟩ := sound.bounded key item (before key item found) _ (if_pos positive)
  obtain rfl := Option.some.inj ((if_pos positive).symm.trans ends)
  exact ⟨first, same, by lia⟩

theorem mem_goOn (member : d ∈ goOn dels place next) : d ∈ dels ∨ next = some d := by
  cases next with
  | none => exact .inl (List.mem_of_mem_eraseIdx member)
  | some other =>
    rcases List.mem_or_eq_of_mem_set member with old | rfl
    · exact .inl old
    · exact .inr rfl

theorem Sound.setKeyed {site : Site V} (sound : c.Sound site) (timely : c.Timely)
    (apart : ∀ d ∈ site.dels, d.covers (c.keyedKey key) = true) (payload : V) :
    c.Sound { site with server := c.setKeyed site.server site.now key payload } := by
  obtain ⟨set, items, member, more⟩ := setKeyed_items sound.typed site.now key payload
  have index : (c.setKeyed site.server site.now key payload).items c.indexKey =
      some ⟨.members set, c.expiry site.now (1000 * seconds c.ttl)⟩ := by
    rw [items, Function.update_self]
  have either (other : Str) (item : Item V)
      (found : (c.setKeyed site.server site.now key payload).find site.now (c.keyedKey other) = some item) :
      other = key ∧ item = ⟨.text payload, c.expiry site.now (px c.ttl)⟩ ∨
        site.server.find site.now (c.keyedKey other) = some item := by
    have written : (c.setKeyed site.server site.now key payload).items (c.keyedKey other) = _ :=
      (congrFun items _).trans (Function.update_of_ne (keyedKey_ne_indexKey other) ..)
    by_cases same : other = key
    · subst same
      rw [Function.update_self, (Server.find_some found).1] at written
      exact .inl ⟨rfl, Option.some.inj written⟩
    · rw [Function.update_of_ne fun keys => same (keyedKey_injective keys)] at written
      exact .inr (Server.find_before found (le_refl _) written)
  have bounded (other : Str) (item : Item V)
      (found : (c.setKeyed site.server site.now key payload).find site.now (c.keyedKey other) = some item) :
      Outlives (c.expiry site.now (px c.ttl)) item.expireAt := by
    rcases either other item found with ⟨_, rfl⟩ | old
    · exact .refl _
    · exact sound.bounded other item old
  refine ⟨fun item present => ?_, fun other item found => ⟨set, _, index, ?_, ?_⟩, bounded,
    fun keys reading other item found => ?_⟩
  · cases index.symm.trans present
    refine ⟨set, rfl, ?_⟩
    by_cases positive : 0 < c.ttl
    · exact .inr positive
    · exact .inl (if_neg positive)
  · rcases either other item found with ⟨rfl, _⟩ | old
    · exact member
    · obtain ⟨listed, before, present, inside⟩ := sound.indexed other item old
      exact more listed before present inside
  · exact (timely.outlives _).trans (bounded other item found)
  · rcases either other item found with ⟨rfl, _⟩ | old
    · exact of_decide_eq_true (apart _ reading)
    · exact sound.seen keys reading other item old

theorem Sound.read {site : Site V} (sound : c.Sound site)
    (deleted : c.del site.server site.now order .index = some (server, next)) :
    server = site.server ∧ ∀ keys, next = some (.entries keys) → ∀ key item,
      site.server.find site.now (c.keyedKey key) = some item → c.keyedKey key ∈ keys := by
  simp only [del] at deleted
  split at deleted
  · rename_i missing
    cases deleted
    refine ⟨rfl, fun keys _ key item found => ?_⟩
    obtain ⟨set, expiry, present, _⟩ := sound.indexed key item found
    cases missing.symm.trans present
  · rename_i set expiry found
    split at deleted <;> cases deleted
    rename_i listed
    refine ⟨rfl, fun keys same key item live => ?_⟩
    cases same
    obtain ⟨_, _, present, member⟩ := sound.indexed key item live
    cases found.symm.trans present
    exact listed.mem_iff.mpr member
  · cases deleted
    exact ⟨rfl, by simp⟩

theorem Sound.emptied {site : Site V} (sound : c.Sound site) (reading : .entries keys ∈ site.dels) (key : Str) :
    (site.server.del (keys ++ [c.indexKey])).find site.now (c.keyedKey key) = none := by
  rw [Option.eq_none_iff_forall_ne_some]
  intro item found
  have present := (Server.find_some found).1
  rw [Server.del_items] at present
  split at present
  · cases present
  · rename_i untouched
    have old : site.server.find site.now (c.keyedKey key) = some item :=
      Server.find_before found (le_refl _) ((Server.del_items ..).trans (if_neg untouched))
    exact untouched (List.mem_append_left _ (sound.seen keys reading key item old))

theorem Sound.step {site : Site V} (timely : c.Timely) (sound : c.Sound site) (apart : c.Apart site move)
    (stepped : c.step site move = some next) : c.Sound next := by
  cases move with
  | wait ms =>
    cases stepped
    exact sound.shrink (by simp) rfl (fun _ => .inr rfl) (fun _ => id)
  | setKeyed key payload =>
    cases stepped
    exact sound.setKeyed timely apart payload
  | startDel =>
    cases stepped
    exact sound.shrink (le_refl _) rfl (fun _ => .inr rfl) (by simp)
  | fail place =>
    obtain ⟨d, _, rfl⟩ := Option.map_eq_some_iff.mp stepped
    exact sound.shrink (le_refl _) rfl (fun _ => .inr rfl) fun keys => List.mem_of_mem_eraseIdx
  | del place order =>
    obtain ⟨d, placed, rest⟩ := Option.bind_eq_some_iff.mp stepped
    obtain ⟨⟨server, onward⟩, deleted, rfl⟩ := Option.map_eq_some_iff.mp rest
    cases d with
    | base =>
      cases deleted
      refine sound.shrink (le_refl _) ?_ (fun key => ?_) fun keys member => ?_
      · simp [Server.del_items, getNamePrefixed_ne_indexKey]
      · rw [Server.del_items]
        split
        · exact .inl rfl
        · exact .inr rfl
      · dsimp only at member
        exact (mem_goOn member).resolve_right (by simp)
    | index =>
      obtain ⟨rfl, reads⟩ := sound.read deleted
      refine ⟨sound.typed, sound.covered, sound.bounded, fun keys member => ?_⟩
      rcases mem_goOn member with old | new
      · exact sound.seen keys old
      · exact reads keys new
    | entries keys =>
      cases deleted
      have emptied := sound.emptied (List.mem_of_getElem? placed)
      refine ⟨?_, ?_, ?_, ?_⟩
      · simp [Server.del_items]
      all_goals simp [emptied]

/-- Between any two commands every live entry is indexed, and each `Del` that ends
leaves no entry, when the index lives as long as the entries and no `SetKeyed`
adds a key that a `Del` has missed. -/
theorem invalidation_misses_nothing (c : Cache) (timely : c.Timely) (first last : Site V) (unused : c.Unused first)
    (moves : List (Move V)) (apart : Along c.step c.Apart first moves) (run : feed c.step first moves = some last) :
    c.Indexed last ∧ ∀ place keys order next, last.dels[place]? = some (.entries keys) →
      c.step last (.del place order) = some next → c.Emptied next := by
  have sound : c.Sound last := apart.invariant c.Sound (fun _ _ _ sound => sound.step timely) unused.sound run
  refine ⟨sound.indexed, fun place keys order next placed stepped => ?_⟩
  simp only [Cache.step, placed, del, Option.bind_some, Option.map_some, Option.some.injEq] at stepped
  subst stepped
  exact sound.emptied (List.mem_of_getElem? placed)

namespace Sample

def cache (ttl : Duration) : Cache := ⟨ascii "app", ascii "users", ttl⟩

def site : Site Nat := ⟨⟨fun _ => none, fun _ => none⟩, 0, []⟩

theorem site_unused (ttl : Duration) : (cache ttl).Unused site := ⟨fun _ => rfl, rfl, rfl⟩

def deleted : List (Move Nat) :=
  [.setKeyed (ascii "a") 1, .startDel, .del 0 [], .del 0 [(cache 0).keyedKey (ascii "a")]]

def missed : List (Move Nat) := deleted ++ [.setKeyed (ascii "b") 2, .del 0 []]

end Sample

theorem sample_entry_is_deleted : ∃ last, feed (Sample.cache 0).step Sample.site Sample.deleted = some last ∧
    (Sample.cache 0).Indexed last ∧ ∀ place keys order next, last.dels[place]? = some (.entries keys) →
      (Sample.cache 0).step last (.del place order) = some next → (Sample.cache 0).Emptied next :=
  ⟨_, rfl, invalidation_misses_nothing (Sample.cache 0) (by decide) Sample.site _ (Sample.site_unused 0) Sample.deleted
    (by decide) rfl⟩

/-- An entry stored between the `SMEMBERS` and the last `DEL` of a `Del` stays live
without an index; and an index with a ttl of 1.5 seconds expires half a second
before its entries. -/
theorem entry_is_left_without_index :
    (∃ last, feed (Sample.cache 0).step Sample.site Sample.missed = some last ∧ ¬ (Sample.cache 0).Indexed last) ∧
      ∃ last, feed (Sample.cache 1500000000).step Sample.site [.setKeyed (ascii "a") 1, .wait 1000] = some last ∧
        ¬ (Sample.cache 1500000000).Indexed last := by
  refine ⟨⟨_, rfl, fun indexed => ?_⟩, _, rfl, fun indexed => ?_⟩
  · obtain ⟨_, _, found, _⟩ := indexed (ascii "b") ⟨.text 2, none⟩ rfl
    cases found
  · obtain ⟨_, _, found, _⟩ := indexed (ascii "a") ⟨.text 1, some 1500⟩ rfl
    cases found

end Cache

end Gofi.Sqln
