import Gofi.Concurrent.Sequential
import Gofi.Iam.Provider.RedisScript
import Gofi.Redis.Effect

/-! The index of a user's sessions on Redis. Sessions and index are separate keys
with separate expiry times, and every `Save` sets the one of the index anew; a
session is listed as long as the index outlives it. -/

namespace Gofi.Iam.Redis

open Gofi.Concurrent Gofi.Go Gofi.Redis

structure Site where
  clock : Instant
  server : Server Payload

inductive Answered (site : Site) : (op : (ports.sum (commands Payload)).Op) →
    (ports.sum (commands Payload)).Ans op → Site → Prop where
  | now (clock : Instant) (passed : site.clock.time ≤ clock.time) :
      Answered site (.inl .now) clock { site with clock := clock }
  | command {cmd : Command Payload} {reply : Except Failure cmd.Reply} {server : Server Payload} (clock : Instant)
      (luck : Luck) (passed : site.clock.time ≤ clock.time)
      (executed : site.server.execute 0 (millis clock.time) luck cmd = some (reply, server)) :
      Answered site (.inr cmd) reply ⟨clock, server⟩

inductive Request where
  | save (session : Session)
  | revoke (sessionID : Str)
  | revokeIfActive (sessionID : Str)
  | revokeAllForUser (userID : Str)
  | listByUser (userID : Str)

@[reducible] def Request.Reply : Request → Type
  | .save _ => Except Err Unit
  | .revoke _ => Except Err Unit
  | .revokeIfActive _ => Except Err Bool
  | .revokeAllForUser _ => Except Err Unit
  | .listByUser _ => Except Err (List Session)

section Provider

variable (keyPrefix : Str)

def script : (request : Request) → Script request.Reply
  | .save session => save keyPrefix session
  | .revoke sessionID => revoke keyPrefix sessionID
  | .revokeIfActive sessionID => revokeIfActive keyPrefix sessionID
  | .revokeAllForUser userID => revokeAllForUser keyPrefix userID
  | .listByUser userID => listByUser keyPrefix userID

/-- One request after the other is served, each as the guard allows. -/
inductive Served (guard : Site → Request → Site → Prop) (first : Site) : Site → Prop where
  | refl : Served guard first first
  | next (earlier : Served guard first site) (request : Request) {reply : request.Reply}
      (allowed : guard site request later)
      (executed : Executes Answered site (script keyPrefix request) later reply) : Served guard first later

/-- The last session written under its id, whether or not its key has expired. -/
def Saved (site : Site) (s : Session) : Prop :=
  ∃ expiry, site.server.items (sessionKey keyPrefix s.id) = some ⟨.text (.json s), expiry⟩

structure Active (site : Site) (s : Session) : Prop where
  readable : site.server.get (millis site.clock.time) (sessionKey keyPrefix s.id) = .ok (some (.json s))
  unrevoked : s.revoked = false
  unexpired : site.clock.time ≤ s.expiresAt

/-- What lets the index outlive its sessions: a session is saved under an id
without a colon and with a deadline not before those of the user's other active
sessions (and so near that its distance is a duration), and the index does not
expire meanwhile. -/
def Lasting (site : Site) : Request → Site → Prop
  | .save s, later => 58 ∉ s.id ∧ s.expiresAt - site.clock.time < 2 ^ 63 - Time.minute ∧
    (∀ other, Active keyPrefix site other → other.userID = s.userID → other.id ≠ s.id →
      other.expiresAt ≤ s.expiresAt) ∧
    ∀ members expiry, site.server.items (userKey keyPrefix s.userID) = some ⟨.members members, some expiry⟩ →
      expiry ≤ millis site.clock.time ∨ millis later.clock.time < expiry
  | _, _ => True

/-- The items each key may have. An unrevoked session is kept until the last
millisecond before its deadline. -/
inductive Proper : Str → Item Payload → Prop where
  | session (plain : 58 ∉ s.id) (lasts : s.revoked = false → millis s.expiresAt ≤ expiry + 1) :
      Proper (sessionKey keyPrefix s.id) ⟨.text (.json s), some expiry⟩
  | index (plain : ∀ id ∈ members, 58 ∉ id) : Proper (userKey keyPrefix userID) ⟨.members members, expiry⟩
  | cutoff : Proper (revokedBeforeKey keyPrefix userID) ⟨.text (.text text), expiry⟩

def Indexed (server : Server Payload) (s : Session) : Prop :=
  ∃ members expiry, server.items (userKey keyPrefix s.userID) = some ⟨.members members, expiry⟩ ∧ s.id ∈ members ∧
    ∀ time, expiry = some time → millis s.expiresAt < time

structure Tidy (site : Site) : Prop where
  proper : ∀ {key item}, site.server.items key = some item → Proper keyPrefix key item
  indexed : ∀ {s}, Active keyPrefix site s → Indexed keyPrefix site.server s

def Calms (site later : Site) : Prop := ∀ s, Active keyPrefix later s → Active keyPrefix site s

end Provider

variable {keyPrefix : Str}

theorem millis_mono {now later : Time} (passed : now ≤ later) : millis now ≤ millis later := by
  simp only [millis, Time.millisecond]
  lia

variable {site : Site}

theorem Active.live (active : Active keyPrefix site s) : ∃ expiry,
    site.server.find (millis site.clock.time) (sessionKey keyPrefix s.id) = some ⟨.text (.json s), expiry⟩ := by
  have readable := active.readable
  unfold Server.get at readable
  split at readable
  · cases readable
  · rename_i value expiry found
    cases readable
    exact ⟨expiry, found⟩
  · cases readable

theorem get_of_find {server : Server Payload} {key : Str} (found : server.find time key = some ⟨.text value, expiry⟩) :
    server.get time key = .ok (some value) := by
  simp [Server.get, found]

theorem Active.before {later : Site} (active : Active keyPrefix later s) (passed : site.clock.time ≤ later.clock.time)
    (same : later.server.items (sessionKey keyPrefix s.id) = site.server.items (sessionKey keyPrefix s.id)) :
    Active keyPrefix site s := by
  obtain ⟨expiry, found⟩ := active.live
  obtain ⟨present, live⟩ := Server.find_some found
  refine ⟨get_of_find (Server.find_of_live (same ▸ present) (Item.live_before live (millis_mono passed))),
    active.unrevoked, ?_⟩
  exact le_trans passed active.unexpired

theorem Active.of_write (active : Active keyPrefix ⟨clock, site.server.write key item⟩ s)
    (passed : site.clock.time ≤ clock.time) :
    Active keyPrefix site s ∨ key = sessionKey keyPrefix s.id ∧ ∃ expiry, item = some ⟨.text (.json s), expiry⟩ := by
  by_cases self : sessionKey keyPrefix s.id = key
  · subst self
    obtain ⟨expiry, found⟩ := active.live
    exact .inr ⟨rfl, expiry, (Server.write_items_self ..).symm.trans (Server.find_some found).1⟩
  · exact .inl (active.before passed (Server.write_items_other _ self))

structure Waits (site later : Site) : Prop where
  passed : site.clock.time ≤ later.clock.time
  same : later.server.items = site.server.items

theorem Waits.trans {middle later : Site} (first : Waits site middle) (second : Waits middle later) :
    Waits site later := ⟨le_trans first.passed second.passed, second.same.trans first.same⟩

theorem Waits.calms {later : Site} (waits : Waits site later) : Calms keyPrefix site later :=
  fun _ active => active.before waits.passed (congrFun waits.same _)

theorem Tidy.wait {later : Site} (tidy : Tidy keyPrefix site) (waits : Waits site later) : Tidy keyPrefix later := by
  refine ⟨fun present => tidy.proper (waits.same ▸ present), fun active => ?_⟩
  unfold Indexed
  rw [waits.same]
  exact tidy.indexed (waits.calms _ active)

theorem Tidy.write (tidy : Tidy keyPrefix site) (passed : site.clock.time ≤ clock.time)
    (proper : ∀ new, item = some new → Proper keyPrefix key new)
    (quiet : ∀ s expiry, item = some ⟨.text (.json s), expiry⟩ → s.revoked = true)
    (kept : ∀ s, Active keyPrefix site s → Active keyPrefix ⟨clock, site.server.write key item⟩ s →
      key = userKey keyPrefix s.userID → Indexed keyPrefix (site.server.write key item) s) :
    Tidy keyPrefix ⟨clock, site.server.write key item⟩ ∧ Calms keyPrefix site ⟨clock, site.server.write key item⟩ := by
  have calms : Calms keyPrefix site ⟨clock, site.server.write key item⟩ := by
    intro s active
    rcases active.of_write passed with before | ⟨_, expiry, same⟩
    · exact before
    · cases active.unrevoked.symm.trans (quiet s expiry same)
  refine ⟨⟨fun {other new} present => ?_, fun {s} active => ?_⟩, calms⟩
  · by_cases self : other = key
    · subst self
      exact proper new ((Server.write_items_self ..).symm.trans present)
    · exact tidy.proper ((Server.write_items_other item self).symm.trans present)
  · by_cases self : userKey keyPrefix s.userID = key
    · exact kept s (calms s active) active self.symm
    · obtain ⟨members, expiry, present, rest⟩ := tidy.indexed (calms s active)
      exact ⟨members, expiry, (Server.write_items_other item self).trans present, rest⟩

theorem Calms.trans {middle later : Site} (first : Calms keyPrefix site middle)
    (second : Calms keyPrefix middle later) : Calms keyPrefix site later := fun s active => first s (second s active)

def Gone (keyPrefix : Str) (site : Site) (id : Str) : Prop := ∀ s, Active keyPrefix site s → s.id ≠ id

variable {id : Str}

theorem Gone.later {later : Site} (gone : Gone keyPrefix site id) (calms : Calms keyPrefix site later) :
    Gone keyPrefix later id := fun s active => gone s (calms s active)

theorem Proper.json (proper : Proper keyPrefix key ⟨.text (.json s), expiry⟩) :
    key = sessionKey keyPrefix s.id ∧ 58 ∉ s.id ∧
    ∃ time, expiry = some time ∧ (s.revoked = false → millis s.expiresAt ≤ time + 1) := by
  cases proper with
  | session plain lasts => exact ⟨rfl, plain, _, rfl, lasts⟩

theorem Proper.of_index (proper : Proper keyPrefix key item) (index : key = userKey keyPrefix userID) :
    ∃ members expiry, item = ⟨.members members, expiry⟩ ∧ ∀ id ∈ members, 58 ∉ id := by
  cases proper with
  | session plain => exact absurd index (sessionKey_ne_userKey plain)
  | index plain => exact ⟨_, _, rfl, plain⟩
  | cutoff => exact absurd index.symm userKey_ne_revokedBeforeKey

theorem Proper.of_session (proper : Proper keyPrefix key item) (named : key = sessionKey keyPrefix id)
    (plain : 58 ∉ id) : ∃ s expiry, item = ⟨.text (.json s), expiry⟩ := by
  cases proper with
  | session => exact ⟨_, _, rfl⟩
  | index => exact absurd named.symm (sessionKey_ne_userKey plain)
  | cutoff => exact absurd named.symm (sessionKey_ne_revokedBeforeKey plain)

theorem Tidy.mark (tidy : Tidy keyPrefix site) (passed : site.clock.time ≤ clock.time)
    (present : site.server.items (sessionKey keyPrefix id) = some ⟨.text (.json s), expiry⟩)
    (same : marked.id = s.id) (revoked : marked.revoked = true) (positive : 0 < ttl) :
    let later : Site := ⟨clock, site.server.set (millis clock.time) (sessionKey keyPrefix id) (.json marked) ttl⟩
    Tidy keyPrefix later ∧ Calms keyPrefix site later ∧ Gone keyPrefix later id := by
  obtain ⟨named, plain, _⟩ := (tidy.proper present).json
  rw [sessionKey_inj] at named
  subst named
  intro later
  have written : Tidy keyPrefix later ∧ Calms keyPrefix site later := by
    refine tidy.write passed (fun new same' => ?_) (fun new expiry same' => ?_) (fun other _ _ clash => ?_)
    · rw [if_pos positive] at same'
      cases same'
      rw [← same] at plain ⊢
      exact .session plain fun active => absurd (active.symm.trans revoked) (by decide)
    · cases same'
      exact revoked
    · exact absurd clash (sessionKey_ne_userKey plain)
  refine ⟨written.1, written.2, fun other active clash => ?_⟩
  obtain ⟨expiry, found⟩ := active.live
  rw [clash] at found
  have replaced := (Server.write_items_self ..).symm.trans (Server.find_some found).1
  cases replaced
  cases active.unrevoked.symm.trans revoked

end Gofi.Iam.Redis
