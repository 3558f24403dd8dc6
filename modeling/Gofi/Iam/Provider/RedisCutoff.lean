import Gofi.Iam.CutoffStore
import Gofi.Iam.Provider.RedisStore

/-! The Redis provider reads the clock before it writes a cut-off, and the key
of a cut-off expires. A recorded cut-off is remembered as long as no older one
is written over it and no call waits a day before it reads it. -/

namespace Gofi.Iam.Redis

open Gofi.Concurrent Gofi.Go Gofi.Redis

variable {keyPrefix : Str}

def Records (keyPrefix : Str) : (cmd : Command Payload) → Except Failure cmd.Reply → Str → Time → Prop
  | .set key (.text text) _, .ok () => fun userID cutoff => key = revokedBeforeKey keyPrefix userID ∧
      ∃ clock : Instant, text = formatInt clock.time.unixNano ∧ clock.time = cutoff
  | _, _ => fun _ _ => False

/-- Moves that write a cut-off of the user only over one that is not newer, and
that read the cut-off less than a day after the clock readings of their call. -/
structure Orderly (keyPrefix : Str) (a : LocalAuth) (userID : Str) (σ : State ((backend keyPrefix).system a))
    (move : Move ((backend keyPrefix).system a)) : Prop where
  forward : ∀ name choose thread trail (clock : Instant) ttl, move = .act name choose → σ.threads name = some thread →
    thread.Waits (.revokeAllForUser userID) trail
      (.inr (.set (revokedBeforeKey keyPrefix userID) (.text (formatInt clock.time.unixNano)) ttl)) →
    (view keyPrefix).cutoff σ.store userID ≤ clock.time
  prompt : ∀ name choose thread trail cmd clock, move = .act name choose → σ.threads name = some thread →
    thread.Waits (.revokedBefore userID) trail (.inr cmd) → Iam.Answered.now clock ∈ thread.past →
    σ.clock.time + Time.millisecond ≤ clock.time + Time.day

theorem parseInt_unixNano (clock : Instant) : parseInt (formatInt clock.time.unixNano) = some clock.time.unixNano := by
  rw [clock.unixNano]
  exact parseInt_formatInt clock.lower clock.upper

theorem decodeCutoff_unixNano (clock : Instant) :
    decodeCutoff (.ok (some (.text (formatInt clock.time.unixNano)))) = .ok clock.time := by
  simp only [decodeCutoff, parseInt_unixNano, clock.ofUnixNano_unixNano]

private theorem clock_of_text {clock other : Instant}
    (same : formatInt clock.time.unixNano = formatInt other.time.unixNano) :
    clock.time = other.time := by
  have parsed := (parseInt_unixNano clock).symm.trans ((congrArg parseInt same).trans (parseInt_unixNano other))
  rw [← clock.ofUnixNano_unixNano, ← other.ofUnixNano_unixNano, Option.some.inj parsed]

variable {a : LocalAuth} {first σ after : State ((backend keyPrefix).system a)}

structure Remembers (userID : Str) (cutoff : Time) (σ : State ((backend keyPrefix).system a)) : Prop where
  item : ∃ (clock : Instant) (expiry : Int), (server σ).items (revokedBeforeKey keyPrefix userID) =
    some ⟨.text (.text (formatInt clock.time.unixNano)), some expiry⟩ ∧ cutoff ≤ clock.time ∧
      millis cutoff + px revokedBeforeTTL ≤ expiry
  past : cutoff ≤ σ.clock.time

theorem set_item (server : Server Payload) (time : Int) (key : Str) (payload : Payload) :
    (server.set time key payload revokedBeforeTTL).items key =
      some ⟨.text payload, some (time + px revokedBeforeTTL)⟩ := by
  rw [Server.set, Server.write_items_self, if_pos (by decide)]

theorem millis_le {left right : Time} (le : left ≤ right) : millis left ≤ millis right :=
  Int.ediv_le_ediv (by decide) le

private theorem cutoffOf_item (clock : Instant) (expiry : Option Int) :
    cutoffOf (some ⟨.text (.text (formatInt clock.time.unixNano)), expiry⟩) = clock.time := by
  simp only [cutoffOf, Option.map_some, decodeCutoff_unixNano]

theorem Remembers.moved (start : (view keyPrefix).Start first) (run : Reach Guard.none first σ)
    (holds : Remembers userID cutoff σ) (orderly : Orderly keyPrefix a userID σ move)
    (moved : State.Moved σ move after) : Remembers userID cutoff after := by
  refine ⟨?_, holds.past.trans (Backend.moved_frame moved).1⟩
  obtain ⟨clock, expiry, item, newer, lasting⟩ := holds.item
  cases Backend.effect moved with
  | still same => exact ⟨clock, expiry, by rw [server, same]; exact item, newer, lasting⟩
  | @chore work => exact Empty.elim work
  | acted running waits responded _ _ _ _ scheduled =>
    rcases cutoff_item start run running waits (Server.effect responded) userID with same |
      ⟨clock', rfl, _, rfl, written⟩
    · exact ⟨clock, expiry, same.trans item, newer, lasting⟩
    · obtain ⟨choose, rfl⟩ := scheduled
      have rewritten : (server after).items (revokedBeforeKey keyPrefix userID) = _ :=
        (congrArg (fun server => Server.items server _) written).trans (set_item ..)
      have forward : cutoffOf _ ≤ clock'.time := orderly.forward _ choose _ _ clock' _ rfl running waits
      rw [item, cutoffOf_item] at forward
      refine ⟨clock', _, rewritten, newer.trans forward, ?_⟩
      exact Int.add_le_add_right (millis_le holds.past) _

private theorem cutoff_of_text {key text : Str} (serves : Serves keyPrefix op trail (.set key (.text text) ttl)) :
    ∃ (userID : Str) (clock : Instant), key = revokedBeforeKey keyPrefix userID ∧ clockRead clock ∈ trail ∧
      text = formatInt clock.time.unixNano ∧ ttl = revokedBeforeTTL := by
  cases serves with
  | cutoff read => exact ⟨_, _, rfl, read, rfl, rfl⟩

variable {thread : Thread ((backend keyPrefix).system a)}

theorem remembers (start : (view keyPrefix).Start first)
    (run : Reach (Orderly keyPrefix a userID) first σ) (found : σ.threads name = some thread) {clock : Instant}
    (did : thread.Did op (sent (.set (revokedBeforeKey keyPrefix userID) (.text (formatInt clock.time.unixNano)) ttl)
      (.ok ()))) : Remembers userID clock.time σ := by
  refine run.facts (fun _ => True) (fun σ _ _ event => ∀ (clock : Instant) ttl,
    event = sent (.set (revokedBeforeKey keyPrefix userID) (.text (formatInt clock.time.unixNano)) ttl) (.ok ()) →
      Remembers userID clock.time σ)
    (fun name _ => start.quiet name) (fun _ _ _ _ _ _ fact => fact) ?_ ?_ found trivial _ _ did clock ttl rfl
  · rintro σ other thread op trail choose event after reached - - moved present waits answered clock ttl rfl
    obtain ⟨_, clock', _, read, same, rfl⟩ := cutoff_of_text (serves_of_waits waits)
    have past := (Backend.told_between reached (start.quiet other) present
      (.inside (Thread.inside_of_waits waits) read)).2
    rw [← clock_of_text same] at past
    obtain ⟨later, responded, world⟩ := Backend.answer_inr _ answered
    have executed := Prod.mk.inj (Option.some.inj (Server.executed_of_ok responded))
    have written : (server after).items (revokedBeforeKey keyPrefix userID) = _ :=
      (congrArg (fun world => Server.items (World.store world) _) world).trans
        ((congrArg (fun server => Server.items server _) executed.2.symm).trans (set_item ..))
    refine ⟨⟨clock, _, written, le_refl _, ?_⟩, past.trans (Backend.moved_frame moved).1⟩
    exact Int.add_le_add_right (millis_le past) _
  · rintro σ move after thread op event reached permitted moved fact clock ttl rfl
    have unguarded : Reach Guard.none first σ := reached.weaken fun _ _ _ => trivial
    exact (fact clock ttl rfl).moved start unguarded permitted moved

private theorem expired_late {cutoff now : Time} {expiry : Int}
    (lasting : millis cutoff + px revokedBeforeTTL ≤ expiry)
    (expired : expiry ≤ millis now) : cutoff + 91 * Time.day < now + Time.millisecond := by
  have life : px revokedBeforeTTL = 91 * 86400000 := by decide
  simp only [millis, life, Time.millisecond, Time.day, Time.hour, Time.minute, Time.second] at *
  lia

private theorem remembers_of_records (start : (view keyPrefix).Start first)
    (run : Reach (Orderly keyPrefix a userID) first σ) (found : σ.threads name = some thread)
    (did : thread.Did op (sent cmd reply))
    (records : Records keyPrefix cmd reply userID cutoff) : Remembers userID cutoff σ ∧ 0 < cutoff := by
  unfold Records at records
  split at records
  · obtain ⟨rfl, clock, rfl, rfl⟩ := records
    exact ⟨remembers start run found did, clock.positive⟩
  · cases records

private theorem cutoff_read {later : Server Payload}
    (holds : Remembers userID cutoff σ)
    (responded : (server σ).respond name (millis σ.clock.time) (.get (revokedBeforeKey keyPrefix userID)) luck =
      some (reply, later))
    (decoded : decodeCutoff reply = .ok seen) :
    cutoff ≤ seen ∨ cutoff + 91 * Time.day < σ.clock.time + Time.millisecond := by
  obtain ⟨clock, expiry, item, newer, lasting⟩ := holds.item
  rcases reply with failure | _ | payload
  · cases decoded
  · have gone := (Server.got_nothing responded).2
    simp only [Server.find, item, Item.live, decide_eq_true_eq, ite_eq_right_iff, reduceCtorEq, imp_false,
      not_lt] at gone
    exact .inr (expired_late lasting gone)
  · obtain ⟨_, _, there⟩ := Server.got_value responded
    cases item.symm.trans (Server.find_some there).1
    rw [decodeCutoff_unixNano] at decoded
    cases decoded
    exact .inl newer

def cutoffStore (keyPrefix : Str) : CutoffStore (sessionStore keyPrefix) where
  Records := Records keyPrefix
  Orderly := Orderly keyPrefix
  recorded userID :=
    (impl_meets keyPrefix (.revokeAllForUser userID)).mono (fun _ _ _ => trivial) fun trail r tells ok => by
    obtain ⟨clock, written⟩ := tells ok
    exact ⟨_, _, clock.time, written, rfl, clock, rfl, rfl⟩
  remembers {a first middle last userID recorder name thread reader op atom ans cutoff seen} start before found did
      records after absent present read := by
    obtain ⟨recorded, positive⟩ := remembers_of_records start before found did records
    obtain ⟨trail, sound, inside⟩ := Thread.visited read
    obtain ⟨reply, replied, decoded⟩ := (impl_meets keyPrefix (.revokedBefore userID)).along sound seen rfl
    refine after.facts (fun name => middle.threads name = none) (fun _ thread op event => ∀ reply seen,
      op = PortOp.revokedBefore userID → event = sent (.get (revokedBeforeKey keyPrefix userID)) reply →
      decodeCutoff reply = .ok seen → (cutoff ≤ seen ∧ seen ≠ 0) ∨ ∃ id s clock,
        Iam.Answered.get id (.ok (some s)) ∈ thread.past ∧ clock ≤ s.expiresAt ∧ cutoff + 90 * Time.day < clock)
      (fun _ absent => absent) ?_ ?_ ?_ present absent _ _ (inside _ replied) reply seen rfl rfl decoded
    · intro σ thread later op event onward fact reply seen served same decoded
      rcases fact reply seen served same decoded with fresh | ⟨id, s, clock, got, timely, late⟩
      · exact .inl fresh
      · exact .inr ⟨id, s, clock, onward.past.subset got, timely, late⟩
    · rintro σ other thread op trail choose event later reached - permitted moved found waits answered reply seen
        rfl rfl decoded
      have holds : Remembers userID cutoff σ := reached.invariant (Remembers userID cutoff) recorded
        fun _ _ _ sofar holds permitted moved =>
          holds.moved start ((before.trans sofar).weaken fun _ _ _ => trivial) permitted moved
      obtain ⟨_, responded, _⟩ := Backend.answer_inr _ answered
      rcases cutoff_read holds responded decoded with fresh | expired
      · exact .inl ⟨fresh, (positive.trans_le fresh).ne'⟩
      · obtain ⟨id, s, clock, got, told, timely, _⟩ := Thread.inside_allowed (body_meets a thread.call) waits
        have prompt := permitted.prompt other choose thread trail _ clock rfl found waits told
        exact .inr ⟨id, s, clock.time, got, timely, by lia⟩
    · rintro σ move after thread op event - - - fact reply seen served same decoded
      exact fact reply seen served same decoded

end Gofi.Iam.Redis
