import Gofi.Iam.Provider.RedisScript
import Gofi.Redis.Effect

/-! The Redis provider keeps the laws of a session store: sessions stand under
their own keys, a revocation writes back a version of what was read, and a
committed transaction revokes what it read. -/

namespace Gofi.Iam.Redis

open Gofi.Concurrent Gofi.Go Gofi.Redis

variable {keyPrefix : Str}

def sessionOf (item : Option (Item Payload)) : Option Session :=
  match item.map Item.value with
  | some (.text (.json s)) => some s
  | _ => none

def cutoffOf (item : Option (Item Payload)) : Time :=
  match item.map Item.value with
  | some (.text payload) =>
    match decodeCutoff (.ok (some payload)) with
    | .ok cutoff => cutoff
    | .error _ => 0
  | _ => 0

/-- A revocation writes a revoked session, so an active one is new. -/
def writes : Command Payload → Option Session
  | .set _ (.json s) _ => if s.revoked then none else some s
  | _ => none

def claims (keyPrefix : Str) : (cmd : Command Payload) → Except Failure cmd.Reply → Option Str
  | .exec key _ _, .ok true => some (key.drop keyPrefix.length)
  | _, _ => none

structure Sound (keyPrefix : Str) (issued : List Str) (server : Server Payload) : Prop where
  placed : ∀ {key s}, sessionOf (server.items key) = some s → key = sessionKey keyPrefix s.id ∧ 58 ∉ s.id
  indexed : ∀ {userID id}, server.Holds (userKey keyPrefix userID) id → id ∈ issued ∧
    ∀ s, sessionOf (server.items (sessionKey keyPrefix id)) = some s → s.userID = userID

theorem saves (op : PortOp) : ((backend keyPrefix).impl op).Meets (fun trail atom => ∀ write s,
    atom = Sum.inr write → writes write = some s → (∃ given, op = .save given ∧ s = given.sanitize) ∧
      ∀ earlier ans, Script.did (backend keyPrefix).atoms earlier ans ∈ trail → writes earlier = none)
    (fun _ _ => True) [] := by
  refine (impl_meets keyPrefix op).mono ?_ fun _ _ _ => trivial
  intro trail next sends cmd s same new
  cases sends cmd same with
  | save silent =>
    simp only [writes] at new
    split at new <;> cases new
    exact ⟨⟨_, rfl, rfl⟩, fun earlier ans seen => absurd seen (silent _ _)⟩
  | mark _ _ _ revoked => simp [writes, revoked] at new
  | _ => cases new

def view (keyPrefix : Str) : SessionView (backend keyPrefix) where
  record server id := sessionOf (server.items (sessionKey keyPrefix id))
  cutoff server userID := cutoffOf (server.items (revokedBeforeKey keyPrefix userID))
  writes := writes
  claims := claims keyPrefix
  Sound := Sound keyPrefix
  plain := ⟨rfl, rfl⟩
  saves := saves

/-! What one command does to the sessions. -/

section Step

variable {server later : Server Payload} {key : Str}

theorem session_of_write {item : Option (Item Payload)}
    (present : sessionOf ((server.write other item).items key) = some s) :
    sessionOf (server.items key) = some s ∨ key = other ∧ sessionOf item = some s := by
  by_cases self : key = other
  · subst self
    exact .inr ⟨rfl, by simpa using present⟩
  · exact .inl (by rwa [Server.write_items_other _ self] at present)

theorem session_appears (serves : Serves keyPrefix op trail cmd) (effect : Server.Effect conn time server cmd later)
    (present : sessionOf (later.items key) = some s) : sessionOf (server.items key) = some s ∨
    (∃ given ttl, op = .save given ∧ s = given.sanitize ∧ key = sessionKey keyPrefix given.id ∧
      cmd = .set key (.json s) ttl) ∨
    ∃ id r, key = sessionKey keyPrefix id ∧ sent (.get key) (.ok (some (.json r))) ∈ trail ∧
      s.identity = r.identity ∧ s.revoked = true ∧ (Targets keyPrefix op trail id ∨ op = .revokeIfActive id) := by
  cases effect with
  | still | watch | discard => exact .inl present
  | set =>
    rcases session_of_write present with old | ⟨rfl, new⟩
    · exact .inl old
    · cases serves with
      | save => cases new; exact .inr (.inl ⟨_, _, rfl, rfl, rfl, rfl⟩)
      | mark target read same revoked =>
        cases new
        exact .inr (.inr ⟨_, _, rfl, read, same, revoked, .inl target⟩)
      | cutoff => cases new
  | exec =>
    rcases session_of_write present with old | ⟨rfl, new⟩
    · exact .inl old
    · cases serves with
      | exec read _ same revoked =>
        cases new
        exact .inr (.inr ⟨_, _, rfl, read, same, revoked, .inr rfl⟩)
  | expire found =>
    rcases session_of_write present with old | ⟨rfl, new⟩
    · exact .inl old
    · refine .inl ?_
      rw [found]
      exact new
  | setNX => cases serves
  | _ =>
    rcases session_of_write present with old | ⟨_, new⟩
    · exact .inl old
    · cases new

private theorem session_stays {id : Str} (serves : Serves keyPrefix op trail cmd)
    (effect : Server.Effect conn time server cmd later) (plain : 58 ∉ id)
    (present : sessionOf (server.items (sessionKey keyPrefix id)) = some s) :
    ∃ r, sessionOf (later.items (sessionKey keyPrefix id)) = some r := by
  have apart {other : Str} {item : Option (Item Payload)} (different : sessionKey keyPrefix id ≠ other) :
      ∃ r, sessionOf ((server.write other item).items (sessionKey keyPrefix id)) = some r :=
    ⟨s, by rw [Server.write_items_other _ different]; exact present⟩
  have replaced {other : Str} {new : Session} {expiry : Option Int} :
      ∃ r, sessionOf ((server.write other (some ⟨.text (.json new), expiry⟩)).items (sessionKey keyPrefix id)) =
        some r := by
    by_cases self : sessionKey keyPrefix id = other
    · subst self
      exact ⟨new, by simp [sessionOf]⟩
    · exact apart self
  cases effect with
  | still | watch | discard => exact ⟨s, present⟩
  | set =>
    cases serves with
    | save | mark => exact replaced
    | cutoff => exact apart (sessionKey_ne_revokedBeforeKey plain)
  | exec =>
    cases serves with
    | exec => exact replaced
  | setNX => cases serves
  | _ =>
    cases serves
    exact apart (sessionKey_ne_userKey plain)

private theorem member_appears (serves : Serves keyPrefix op trail cmd)
    (effect : Server.Effect conn time server cmd later) (holds : later.Holds key member) :
    server.Holds key member ∨ ∃ s, op = .save s ∧ key = userKey keyPrefix s.userID ∧ member = s.id := by
  have written {other : Str} {item : Option (Item Payload)}
      (held : (server.write other item).Holds key member) :
      server.Holds key member ∨ key = other ∧ member ∈ Server.membersOf item := by
    by_cases self : key = other
    · subst self
      exact .inr ⟨rfl, by simpa [Server.Holds] using held⟩
    · exact .inl (by rwa [Server.Holds, Server.write_items_other item self] at held)
  cases effect with
  | still | watch | discard => exact .inl holds
  | set | exec =>
    rcases written holds with old | ⟨_, new⟩
    · exact .inl old
    · cases new
  | setNX => cases serves
  | sAdd known =>
    rcases written holds with old | ⟨rfl, new⟩
    · exact .inl old
    · cases serves with
      | index =>
        rcases known _ new with rfl | old
        · exact .inr ⟨_, rfl, rfl, rfl⟩
        · exact .inl old
  | sRem known =>
    rcases written holds with old | ⟨rfl, new⟩
    · exact .inl old
    · exact .inl (known _ new)
  | expire found =>
    rcases written holds with old | ⟨rfl, new⟩
    · exact .inl old
    · refine .inl ?_
      rw [Server.Holds, found]
      exact new
  | _ =>
    rcases written holds with old | ⟨_, new⟩
    · exact .inl old
    · cases new

end Step

variable {a : LocalAuth} {first σ after : State ((backend keyPrefix).system a)}

abbrev server (σ : State ((backend keyPrefix).system a)) : Server Payload := σ.store

structure Placed (first σ : State ((backend keyPrefix).system a)) (key : Str) (s : Session) : Prop where
  own : key = sessionKey keyPrefix s.id
  plain : 58 ∉ s.id
  genuine : (view keyPrefix).Genuine first σ s.id s

variable {key : Str}

theorem Placed.moved (placed : Placed first σ key s) (moved : State.Moved σ move after) : Placed first after key s :=
  ⟨placed.own, placed.plain, placed.genuine.moved _ moved⟩

theorem Placed.congr (placed : Placed first σ key s) (same : r.identity = s.identity) : Placed first σ key r := by
  have ids := Session.identity_id same
  exact ⟨ids ▸ placed.own, ids ▸ placed.plain, ids ▸ placed.genuine.congr _ same⟩

structure Clean (first σ : State ((backend keyPrefix).system a)) : Prop where
  stored : ∀ {key s}, sessionOf ((server σ).items key) = some s → Placed first σ key s
  read : ∀ {name thread key s}, σ.threads name = some thread →
    sent (.get key) (.ok (some (.json s))) ∈ thread.low → Placed first σ key s

variable {thread : Thread ((backend keyPrefix).system a)}

theorem serves_of_waits (waits : thread.Waits op trail (.inr cmd)) : Serves keyPrefix op trail cmd :=
  Thread.waits_allowed (impl_meets keyPrefix op) waits cmd rfl

theorem session_of_find {server : Server Payload}
    (found : server.find time key = some ⟨.text (.json s), expiry⟩) : sessionOf (server.items key) = some s := by
  rw [(Server.find_some found).1]
  rfl

theorem clean (start : (view keyPrefix).Start first) (run : Reach Guard.none first σ) : Clean first σ := by
  refine run.invariant (Clean first) ⟨?_, ?_⟩ ?_
  · intro key s present
    obtain ⟨rfl, plain⟩ := start.sound.placed present
    exact ⟨rfl, plain, .initial present rfl⟩
  · intro name thread key s found
    rw [start.quiet name] at found
    cases found
  · intro σ move after reached holds _ moved
    refine ⟨?_, ?_⟩
    · intro key s present
      cases Backend.effect moved with
      | still same =>
        rw [server, same] at present
        exact (holds.stored present).moved moved
      | @chore work => exact Empty.elim work
      | acted running waits responded _ _ arrived logged =>
        rcases session_appears (serves_of_waits waits) (Server.effect responded) present with old |
          ⟨given, ttl, rfl, rfl, rfl, rfl⟩ | ⟨id, r, rfl, seen, same, _⟩
        · exact (holds.stored old).moved moved
        · obtain ⟨id, _, named⟩ := Backend.saved_id (view keyPrefix).plain (Thread.asked_of_waits waits)
          have active := (Thread.inside_allowed (body_meets a _) waits).1.active
          refine ⟨rfl, ?_, .written arrived logged ?_ rfl rfl⟩
          · exact named ▸ id.no_colon
          · exact if_neg (by simp [Session.sanitize, active])
        · have low := Thread.low_of_waits waits ▸ List.mem_append_left _ seen
          exact ((holds.read running low).congr same).moved moved
    · intro name thread key s found member
      rcases moved.observed found member with ⟨before, present, old⟩ |
        ⟨before, op, trail, choose, present, waits, rfl, answered⟩
      · exact (holds.read present old).moved moved
      · obtain ⟨later, responded, _⟩ := Backend.answer_inr _ answered
        obtain ⟨_, expiry, there⟩ := Server.got_value responded
        exact (holds.stored (session_of_find there)).moved moved

/-- The id belongs in the user's index: it did from the start, or it is the id
of a session that is being saved for the user. -/
inductive Listed (first σ : State ((backend keyPrefix).system a)) (userID id : Str) : Prop where
  | initial (listed : (server first).Holds (userKey keyPrefix userID) id)
  | added {thread : Thread ((backend keyPrefix).system a)} (found : σ.threads name = some thread)
      (asked : thread.Asked (.save s)) (named : s.id = id) (owned : s.userID = userID)

variable {id : Str}

theorem Listed.moved (listed : Listed first σ userID id) (moved : State.Moved σ move after) :
    Listed first after userID id := by
  cases listed with
  | initial listed => exact .initial listed
  | added found asked named owned =>
    obtain ⟨later, arrived, onward⟩ := moved.continues found
    exact .added arrived (onward.asked _ asked) named owned

theorem listed (run : Reach Guard.none first σ) :
    ∀ {userID id}, (server σ).Holds (userKey keyPrefix userID) id → Listed first σ userID id := by
  refine run.invariant (fun σ => ∀ {userID id}, (server σ).Holds (userKey keyPrefix userID) id →
    Listed first σ userID id) (fun held => .initial held) ?_
  intro σ move after _ holds _ moved userID id held
  cases Backend.effect moved with
  | still same =>
    rw [server, same] at held
    exact (holds held).moved moved
  | @chore work => exact Empty.elim work
  | acted running waits responded =>
    rcases member_appears (serves_of_waits waits) (Server.effect responded) held with old |
      ⟨s, rfl, owned, rfl⟩
    · exact (holds old).moved moved
    · exact (Listed.added running (Thread.asked_of_waits waits) rfl (userKey_inj.mp owned).symm).moved moved

private theorem listed_read
    (start : (view keyPrefix).Start first) (run : Reach Guard.none first σ) (found : σ.threads name = some thread)
    (read : sent (.sMembers (userKey keyPrefix userID)) (.ok ids) ∈ thread.low) (member : id ∈ ids) :
    Listed first σ userID id := by
  obtain ⟨op, did⟩ := Thread.did_of_low read
  refine run.facts (fun _ => True) (fun σ _ _ event => ∀ userID (ids : List Str) id,
    event = sent (.sMembers (userKey keyPrefix userID)) (.ok ids) → id ∈ ids → Listed first σ userID id)
    (fun name _ => start.quiet name)
      (fun _ _ _ _ _ _ fact => fact) ?_ ?_ found trivial _ _ did userID ids id rfl member
  · rintro σ other thread op trail choose event after reached - - moved - - answered userID ids id rfl member
    obtain ⟨later, responded, _⟩ := Backend.answer_inr _ answered
    exact (listed reached (Server.got_members responded member).2).moved moved
  · rintro σ move after thread op event - - moved fact userID ids id rfl member
    exact (fact userID ids id rfl member).moved moved

theorem Listed.user (start : (view keyPrefix).Start first) (run : Reach Guard.none first σ)
    (listed : Listed first σ userID id) (genuine : (view keyPrefix).Genuine first σ id s) : s.userID = userID := by
  cases listed with
  | initial held =>
    obtain ⟨known, ofUser⟩ := start.sound.indexed held
    cases genuine with
    | initial stored same => exact (Session.identity_userID same).trans (ofUser _ stored)
    | written found wrote new named =>
      obtain ⟨given, asked, rfl⟩ := (view keyPrefix).asked_of_wrote wrote new
      exact (Backend.save_new (view keyPrefix).plain start.quiet run found asked (named ▸ known)).elim
  | added found asked named owned =>
    cases genuine with
    | initial stored =>
      exact (Backend.save_new (view keyPrefix).plain start.quiet run found asked
        (named ▸ (start.known _ _ stored).2)).elim
    | written found' wrote new named' same =>
      obtain ⟨given, asked', rfl⟩ := (view keyPrefix).asked_of_wrote wrote new
      obtain ⟨_, rfl⟩ := Backend.save_unique (view keyPrefix).plain start.quiet run found found' asked asked'
        (named.trans named'.symm)
      exact (Session.identity_userID same).trans owned

private theorem snapshot (start : (view keyPrefix).Start first)
    (run : Reach Guard.none first σ) (found : σ.threads name = some thread) (inside : thread.Inside op trail)
    (read : sent (.get key) (.ok (some (.json s))) ∈ trail)
    (watched : (server σ).watches name = some (key, false)) : sessionOf ((server σ).items key) = some s := by
  refine run.inside (fun σ name _ trail => ∀ key s, sent (.get key) (.ok (some (.json s))) ∈ trail →
    (server σ).watches name = some (key, false) → sessionOf ((server σ).items key) = some s)
    start.quiet (fun σ name op key s seen => absurd seen List.not_mem_nil) ?_ ?_ found inside key s read watched
  · rintro σ after name thread op trail ⟨atom, ans⟩ choose reached moved running waits answered holds key s seen clean
    rcases List.mem_cons.mp seen with new | old
    · cases new
      obtain ⟨later, responded, world⟩ := Backend.answer_inr _ answered
      obtain ⟨same, expiry, there⟩ := Server.got_value responded
      have unchanged : server after = server σ := (congrArg World.store world).trans same
      rw [unchanged]
      exact session_of_find there
    · cases atom with
      | inl outer =>
        have unchanged : server after = server σ := (World.outside_frame answered).1
        rw [unchanged] at clean ⊢
        exact holds key s old clean
      | inr cmd =>
        obtain ⟨later, responded, world⟩ := Backend.answer_inr _ answered
        have changed : server after = later := congrArg World.store world
        have further : ∀ key, cmd ≠ .watch key := by
          rintro key rfl
          cases serves_of_waits waits
          cases old
        rw [changed] at clean ⊢
        obtain ⟨before, kept⟩ := (Server.effect responded).clean (.inr further) clean
        rw [kept]
        exact holds key s old before
  · intro σ move after name op trail reached moved apart holds key s seen clean
    cases Backend.effect moved with
    | still same =>
      have unchanged : server after = server σ := same
      rw [unchanged] at clean ⊢
      exact holds key s seen clean
    | @chore work => exact Empty.elim work
    | @acted _ other _ _ _ _ _ _ _ waits responded _ _ _ _ scheduled =>
      obtain ⟨choose, rfl⟩ := scheduled
      have different : name ≠ other := by
        rintro rfl
        exact apart choose rfl
      obtain ⟨before, kept⟩ := (Server.effect responded).clean (.inl different) clean
      exact kept.symm ▸ holds key s seen before

theorem held (absent : first.threads name = none)
    (run : Reach Guard.none first σ) (found : σ.threads name = some thread)
    (read : Answered.get id (.ok (some s)) ∈ thread.past) : (view keyPrefix).Held first σ id s := by
  obtain ⟨trail, sound, inside⟩ := Thread.visited read
  have replied := inside _ ((impl_meets keyPrefix (.get id)).along sound s rfl)
  refine run.facts (· = name) (fun σ _ _ event => ∀ id s,
    event = sent (.get (sessionKey keyPrefix id)) (.ok (some (.json s))) → (view keyPrefix).Held first σ id s)
    (fun _ same => same ▸ absent) (fun _ _ _ _ _ _ fact => fact) ?_ ?_ found rfl _ _ replied id s rfl
  · rintro σ other thread op trail choose event after reached - - moved - - answered id s rfl
    obtain ⟨later, responded, _⟩ := Backend.answer_inr _ answered
    obtain ⟨_, expiry, there⟩ := Server.got_value responded
    exact ⟨σ, reached, .next .refl trivial (State.step_of_moved moved), session_of_find there⟩
  · rintro σ move after thread op event - - moved fact id s rfl
    exact (fact id s rfl).moved _ moved

section Laws

variable {thread : Thread ((backend keyPrefix).system a)} {trail : Trail} {cmd : Command Payload}
  {later : Server Payload}

theorem revises (start : (view keyPrefix).Start first) (run : Reach Guard.none first σ)
    (found : σ.threads name = some thread) (waits : thread.Waits op trail (.inr cmd))
    (effect : Server.Effect conn time (server σ) cmd later) (id : Str) :
    (view keyPrefix).record later id = (view keyPrefix).record σ.store id ∨
      (∃ s, writes cmd = some s ∧ s.id = id ∧ (view keyPrefix).record later id = some s) ∨
      ∃ s, (view keyPrefix).record later id = some s ∧ s.revoked = true ∧ op.MayRevoke s := by
  have serves := serves_of_waits waits
  have placed := clean start run
  cases now : (view keyPrefix).record later id with
  | none =>
    left
    cases before : (view keyPrefix).record σ.store id with
    | none => rfl
    | some s =>
      have own := placed.stored before
      obtain ⟨r, still⟩ := session_stays serves effect (sessionKey_inj.mp own.own ▸ own.plain) before
      exact absurd (now.symm.trans still) (by simp)
  | some s =>
    rcases session_appears serves effect now with old | ⟨given, ttl, rfl, rfl, own, rfl⟩ |
      ⟨named, r, own, seen, same, revoked, target⟩
    · exact .inl old.symm
    · have active := (Thread.inside_allowed (body_meets a _) waits).1.active
      exact .inr (.inl ⟨_, if_neg (by simp [Session.sanitize, active]), (sessionKey_inj.mp own).symm, rfl⟩)
    · refine .inr (.inr ⟨s, rfl, revoked, ?_⟩)
      obtain rfl := sessionKey_inj.mp own
      have low := Thread.low_of_waits waits ▸ List.mem_append_left _ seen
      have read := (placed.read found low).congr same
      have ids := sessionKey_inj.mp read.own
      rcases target with target | rfl
      · cases target with
        | revoke => exact .inl (by rw [ids])
        | all listed member =>
          have low := Thread.low_of_waits waits ▸ List.mem_append_left _ listed
          have ofUser := (listed_read start run found low member).user start run (ids ▸ read.genuine)
          exact .inr (.inr (by rw [ofUser]))
      · exact .inr (.inl (by rw [ids]))

theorem cutoff_item (start : (view keyPrefix).Start first) (run : Reach Guard.none first σ)
    (found : σ.threads name = some thread) (waits : thread.Waits op trail (.inr cmd))
    (effect : Server.Effect conn time (server σ) cmd later) (userID : Str) :
    later.items (revokedBeforeKey keyPrefix userID) = (server σ).items (revokedBeforeKey keyPrefix userID) ∨
      ∃ clock : Instant, op = .revokeAllForUser userID ∧ clockRead clock ∈ trail ∧
        cmd = .set (revokedBeforeKey keyPrefix userID) (.text (formatInt clock.time.unixNano)) revokedBeforeTTL ∧
        later = (server σ).set time (revokedBeforeKey keyPrefix userID)
          (.text (formatInt clock.time.unixNano)) revokedBeforeTTL := by
  have plain {id : Str} {s : Session}
      (seen : sent (.get (sessionKey keyPrefix id)) (.ok (some (.json s))) ∈ trail) : 58 ∉ id := by
    have low := Thread.low_of_waits waits ▸ List.mem_append_left _ seen
    have read := (clean start run).read found low
    exact sessionKey_inj.mp read.own ▸ read.plain
  have unwritten {server : Server Payload} {id : Str} {item : Option (Item Payload)} (colon : 58 ∉ id) :
      (server.write (sessionKey keyPrefix id) item).items (revokedBeforeKey keyPrefix userID) =
        server.items (revokedBeforeKey keyPrefix userID) :=
    Server.write_items_other item (sessionKey_ne_revokedBeforeKey colon).symm
  have serves := serves_of_waits waits
  cases effect with
  | still | watch | discard => exact .inl rfl
  | setNX => cases serves
  | exec =>
    cases serves with
    | exec read => exact .inl (unwritten (plain read))
  | set =>
    cases serves with
    | save =>
      obtain ⟨id, _, named⟩ := Backend.saved_id (view keyPrefix).plain (Thread.asked_of_waits waits)
      exact .inl (unwritten (named ▸ id.no_colon))
    | mark _ read => exact .inl (unwritten (plain read))
    | @cutoff _ other clock read =>
      by_cases self : other = userID
      · subst self
        exact .inr ⟨clock, rfl, read, rfl, rfl⟩
      · exact .inl (Server.write_items_other _ fun same => self (revokedBeforeKey_inj.mp same).symm)
  | _ =>
    cases serves
    exact .inl (Server.write_items_other _ userKey_ne_revokedBeforeKey.symm)

theorem flips (start : (view keyPrefix).Start first) (run : Reach Guard.none first σ)
    (found : σ.threads name = some thread) (waits : thread.Waits op trail (.inr cmd))
    {id : Str} (responded : (server σ).respond name time cmd luck = some (ans, later))
    (claim : claims keyPrefix cmd ans = some id) :
    (∃ s, (view keyPrefix).record σ.store id = some s ∧ s.revoked = false) ∧
      ∃ s, (view keyPrefix).record later id = some s ∧ s.revoked = true := by
  cases serves_of_waits waits with
  | @exec trail ttl named s marked read active same revoked =>
    rcases ans with failure | _ | _
    · cases claim
    · cases claim
    · obtain rfl : named = id := by simpa [claims, sessionKey] using claim
      obtain ⟨clean, rfl⟩ := Server.committed responded
      refine ⟨⟨s, snapshot start run found (Thread.inside_of_waits waits) read clean, active⟩, marked, ?_, revoked⟩
      simp [view, Server.set, sessionOf]
  | _ => cases claim

end Laws

def sessionStore (keyPrefix : Str) : SessionStore (backend keyPrefix) where
  toSessionView := view keyPrefix
  genuine start run _ _ stored := by
    have placed := (clean start run).stored stored
    exact sessionKey_inj.mp placed.own ▸ placed.genuine
  got start run found _ _ read := held (start.quiet _) run found read
  revises start run found waits responded id := revises start run found waits (Server.effect responded) id
  flips start run found waits responded claim := flips start run found waits responded claim
  claimed id := (impl_meets keyPrefix (.revokeIfActive id)).mono (fun _ _ _ => trivial) fun trail r tells ok => by
    obtain ⟨payload, ttl, committed⟩ := tells ok
    exact ⟨_, _, committed, by simp [view, claims, sessionKey]⟩
  cutoffs start run found waits responded userID := by
    rcases cutoff_item start run found waits (Server.effect responded) userID with same | ⟨_, asked, _⟩
    · exact .inl (congrArg cutoffOf same)
    · exact .inr asked
  keeps {_ _ work _} _ := Empty.elim work

end Gofi.Iam.Redis
