import Gofi.Iam.Provider.Redis
import Gofi.Iam.SessionStore

/-! What each port of the Redis provider sends, given the replies it has seen,
and what its result means. -/

namespace Gofi.Iam.Redis

open Gofi.Concurrent Gofi.Go Gofi.Redis

/-! Keys. -/

section Keys

variable {keyPrefix : Str}

theorem sessionKey_inj {id id' : Str} : sessionKey keyPrefix id = sessionKey keyPrefix id' ↔ id = id' := by
  simp [sessionKey]

theorem userKey_inj : userKey keyPrefix userID = userKey keyPrefix other ↔ userID = other := by
  simp [userKey]

theorem revokedBeforeKey_inj :
    revokedBeforeKey keyPrefix userID = revokedBeforeKey keyPrefix other ↔ userID = other := by
  simp [revokedBeforeKey]

theorem sessionKey_ne_userKey {id : Str} (plain : 58 ∉ id) : sessionKey keyPrefix id ≠ userKey keyPrefix userID := by
  intro same
  rw [sessionKey, userKey, List.append_cancel_left_eq] at same
  exact plain (same ▸ List.mem_append_left _ (by decide))

theorem sessionKey_ne_revokedBeforeKey {id : Str} (plain : 58 ∉ id) :
    sessionKey keyPrefix id ≠ revokedBeforeKey keyPrefix userID := by
  intro same
  rw [sessionKey, revokedBeforeKey, List.append_cancel_left_eq] at same
  exact plain (same ▸ List.mem_append_left _ (by decide))

theorem userKey_ne_revokedBeforeKey : userKey keyPrefix userID ≠ revokedBeforeKey keyPrefix other := by
  intro same
  rw [userKey, revokedBeforeKey, List.append_cancel_left_eq] at same
  exact absurd (congrArg List.head? same) (by simp [ascii])

end Keys

abbrev Trail := History (ports.sum (commands Payload))

abbrev sent (cmd : Command Payload) (reply : Except Failure cmd.Reply) : Event (ports.sum (commands Payload)) :=
  Script.did (commands Payload) cmd reply

abbrev clockRead (clock : Instant) : Event (ports.sum (commands Payload)) :=
  Script.told (commands Payload) .now clock

variable (keyPrefix : Str)

inductive Targets : PortOp → Trail → Str → Prop where
  | revoke {id : Str} : Targets (.revoke id) trail id
  | all {id : Str} {ids : List Str} (listed : sent (.sMembers (userKey keyPrefix userID)) (.ok ids) ∈ trail)
      (member : id ∈ ids) : Targets (.revokeAllForUser userID) trail id

inductive Serves : PortOp → Trail → Command Payload → Prop where
  | save (silent : ∀ cmd reply, sent cmd reply ∉ trail) :
      Serves (.save s) trail (.set (sessionKey keyPrefix s.id) (.json s.sanitize) ttl)
  | index : Serves (.save s) trail (.sAdd (userKey keyPrefix s.userID) s.id)
  | keep : Serves (.save s) trail (.expire (userKey keyPrefix s.userID) ttl)
  | get : Serves op trail (.get key)
  | mark {id : Str} {s marked : Session} (target : Targets keyPrefix op trail id)
      (read : sent (.get (sessionKey keyPrefix id)) (.ok (some (.json s))) ∈ trail)
      (same : marked.identity = s.identity) (revoked : marked.revoked = true) :
      Serves op trail (.set (sessionKey keyPrefix id) (.json marked) ttl)
  | cutoff {clock : Instant} (read : clockRead clock ∈ trail) :
      Serves (.revokeAllForUser userID) trail (.set (revokedBeforeKey keyPrefix userID)
        (.text (formatInt clock.time.unixNano)) revokedBeforeTTL)
  | list : Serves (.revokeAllForUser userID) trail (.sMembers (userKey keyPrefix userID))
  | prune : Serves (.revokeAllForUser userID) trail (.sRem (userKey keyPrefix userID) ids)
  | watch {id : Str} : Serves (.revokeIfActive id) [] (.watch (sessionKey keyPrefix id))
  | exec {id : Str} {s marked : Session}
      (read : sent (.get (sessionKey keyPrefix id)) (.ok (some (.json s))) ∈ trail) (active : s.revoked = false)
      (same : marked.identity = s.identity) (revoked : marked.revoked = true) :
      Serves (.revokeIfActive id) trail (.exec (sessionKey keyPrefix id) (.json marked) ttl)

def Sends (op : PortOp) (trail : Trail) (next : (ports.sum (commands Payload)).Op) : Prop :=
  ∀ cmd, next = Sum.inr cmd → Serves keyPrefix op trail cmd

def Tells : (op : PortOp) → Trail → ports.Ans op → Prop
  | .get id, trail, r => ∀ s, r = .ok (some s) →
      sent (.get (sessionKey keyPrefix id)) (.ok (some (.json s))) ∈ trail
  | .revokeIfActive id, trail, r => r = .ok true →
      ∃ payload ttl, sent (.exec (sessionKey keyPrefix id) payload ttl) (.ok true) ∈ trail
  | .revokeAllForUser userID, trail, r => r = .ok () → ∃ clock : Instant,
      sent (.set (revokedBeforeKey keyPrefix userID) (.text (formatInt clock.time.unixNano)) revokedBeforeTTL)
        (.ok ()) ∈ trail
  | .revokedBefore userID, trail, r => ∀ cutoff, r = .ok cutoff →
      ∃ reply, sent (.get (revokedBeforeKey keyPrefix userID)) reply ∈ trail ∧ decodeCutoff reply = .ok cutoff
  | _, _, _ => True

variable {keyPrefix}

theorem Sends.of_serves (serves : Serves keyPrefix op trail cmd) :
    Sends keyPrefix op trail (.inr cmd) := by
  rintro _ ⟨⟩
  exact serves

theorem Sends.of_port {op asked : PortOp} : Sends keyPrefix op trail (.inl asked) :=
  fun _ same => absurd same Sum.inl_ne_inr

theorem Targets.mono {trail later : Trail} {id : Str} (target : Targets keyPrefix op trail id)
    (grown : trail <:+ later) : Targets keyPrefix op later id := by
  cases target with
  | revoke => exact .revoke
  | all listed member => exact .all (grown.subset listed) member

theorem decodeSession_ok (decoded : decodeSession reply = .ok s) : reply = .ok (some (.json s)) := by
  unfold decodeSession at decoded
  split at decoded
  · cases decoded
  · cases decoded
  · cases decoded
    rfl
  · cases decoded

theorem markRevoked_meets (op : PortOp) (s : Session) (trail : Trail) : (markRevoked s).Meets (Sends keyPrefix op)
      (fun later out => trail <:+ later ∧ out.identity = s.identity ∧ out.revoked = true) trail := by
  unfold markRevoked
  split
  · rename_i revoked
    exact ⟨List.suffix_refl _, rfl, revoked⟩
  · exact ⟨.of_port, fun clock => ⟨List.suffix_cons .., rfl, rfl⟩⟩

theorem revokedTTL_meets (op : PortOp) (s : Session) (trail : Trail) :
    (revokedTTL s).Meets (Sends keyPrefix op) (fun later _ => trail <:+ later) trail :=
  ⟨.of_port, fun _ => List.suffix_cons ..⟩

theorem revoke_meets {id : Str} (target : Targets keyPrefix op trail id) :
    (revoke keyPrefix id).Meets (Sends keyPrefix op) (fun later _ => trail <:+ later) trail := by
  refine ⟨.of_serves .get, fun reply => ?_⟩
  simp only [Prog.pure_eq, Prog.bind_eq, Prog.done_bind]
  cases decoded : decodeSession reply with
  | error err => exact List.suffix_cons ..
  | ok s =>
    rw [decodeSession_ok decoded]
    refine (markRevoked_meets op s _).bind fun marking marked ⟨grown, same, revoked⟩ => ?_
    refine (revokedTTL_meets op s marking).bind fun later ttl grown' => ?_
    have since := grown.trans grown'
    have whole := (List.suffix_cons _ _).trans since
    refine ⟨.of_serves (.mark (target.mono whole) (since.subset (List.mem_cons_self ..)) same revoked),
      fun written => ?_⟩
    cases written with
    | error failure | ok done => exact whole.trans (List.suffix_cons ..)

private theorem revokeIfActive_meets (id : Str) :
    (revokeIfActive keyPrefix id).Meets (Sends keyPrefix (.revokeIfActive id))
      (Tells keyPrefix (.revokeIfActive id)) [] := by
  refine ⟨.of_serves .watch, fun watched => ?_⟩
  cases watched with
  | error failure => exact nofun
  | ok watching =>
    refine ⟨.of_serves .get, fun reply => ?_⟩
    simp only [Prog.pure_eq, Prog.bind_eq, Prog.done_bind]
    cases decoded : decodeSession reply with
    | error err => exact nofun
    | ok s =>
      rw [decodeSession_ok decoded]
      dsimp only
      split
      · exact nofun
      · rename_i active
        refine (revokedTTL_meets _ s _).bind fun timed ttl grown => ?_
        refine (markRevoked_meets _ s timed).bind fun later out ⟨grown', same, revoked⟩ => ?_
        have read := (grown.trans grown').subset (List.mem_cons_self ..)
        refine ⟨.of_serves (.exec read (by simpa using active) same revoked), fun committed => ?_⟩
        cases committed with
        | error failure => exact nofun
        | ok done =>
          cases done with
          | false => exact nofun
          | true => exact fun _ => ⟨_, _, List.mem_cons_self ..⟩

private theorem revokeEach_meets (targets : ∀ id ∈ ids, Targets keyPrefix op trail id) :
    (revokeEach keyPrefix ids).Meets (Sends keyPrefix op) (fun later _ => trail <:+ later) trail := by
  induction ids generalizing trail with
  | nil => exact List.suffix_refl _
  | cons id rest ih =>
    refine (revoke_meets (targets id (List.mem_cons_self ..))).bind fun middle outcome grown => ?_
    have onward := ih fun id member => (targets id (List.mem_cons_of_mem _ member)).mono grown
    refine onward.bind fun later collected grown' => ?_
    obtain ⟨errs, stale⟩ := collected
    have whole := grown.trans grown'
    cases outcome with
    | ok done => exact whole
    | error err =>
      dsimp only
      split
      all_goals exact whole

private theorem prune_meets (userID : Str) (ids : List Str) (trail : Trail) :
    (prune keyPrefix userID ids).Meets (Sends keyPrefix (.revokeAllForUser userID))
      (fun later _ => trail <:+ later) trail := by
  unfold prune
  split
  · exact List.suffix_refl _
  · refine ⟨.of_serves .prune, fun reply => ?_⟩
    cases reply with
    | error failure | ok done => exact List.suffix_cons ..

private theorem revokeAllForUser_meets (userID : Str) :
    (revokeAllForUser keyPrefix userID).Meets (Sends keyPrefix (.revokeAllForUser userID))
      (Tells keyPrefix (.revokeAllForUser userID)) [] := by
  refine ⟨.of_port, fun clock => ⟨.of_serves (.cutoff (List.mem_cons_self ..)), fun recorded => ?_⟩⟩
  cases recorded with
  | error failure => exact nofun
  | ok done =>
    refine ⟨.of_serves .list, fun listed => ?_⟩
    cases listed with
    | error failure => exact nofun
    | ok sessionIDs =>
      refine (revokeEach_meets fun id member => .all (List.mem_cons_self ..) member).bind
        fun middle collected grown => ?_
      obtain ⟨errs, stale⟩ := collected
      refine (prune_meets userID stale middle).bind fun later pruned grown' => ?_
      have whole := grown.trans grown'
      split
      · exact fun _ => ⟨clock, whole.subset (List.mem_cons_of_mem _ (List.mem_cons_self ..))⟩
      · exact nofun

private theorem save_meets (s : Session) :
    (save keyPrefix s).Meets (Sends keyPrefix (.save s)) (fun _ _ => True) [] := by
  refine ⟨.of_port, fun clock => ?_⟩
  simp only [Prog.done_bind]
  split
  · trivial
  · refine ⟨.of_serves (.save ?_), fun stored => ⟨.of_serves .index, fun indexed =>
      ⟨.of_serves .keep, fun kept => ?_⟩⟩⟩
    · intro cmd reply seen
      cases List.mem_singleton.mp seen
    · simp only [Prog.done_bind]
      split <;> trivial

private theorem outside_meets (op : PortOp) {post : Trail → ports.Ans op → Prop} (free : ∀ trail ans, post trail ans) :
    (Script.outside (commands Payload) op).Meets (Sends keyPrefix op) post [] :=
  ⟨.of_port, fun _ => free _ _⟩

theorem impl_meets (keyPrefix : Str) (op : PortOp) :
    (impl keyPrefix op).Meets (Sends keyPrefix op) (Tells keyPrefix op) [] := by
  cases op with
  | save s => exact save_meets s
  | get id =>
    refine ⟨.of_serves .get, fun reply => ?_⟩
    simp only [Prog.pure_eq, Prog.done_bind]
    cases decoded : decodeSession reply with
    | error err => exact nofun
    | ok s =>
      rintro r ⟨⟩
      rw [decodeSession_ok decoded]
      exact List.mem_cons_self ..
  | revoke id => exact (revoke_meets .revoke).mono (fun _ _ sends => sends) fun _ _ _ => trivial
  | revokeIfActive id => exact revokeIfActive_meets id
  | revokeAllForUser userID => exact revokeAllForUser_meets userID
  | revokedBefore userID =>
    refine ⟨.of_serves .get, fun reply => ?_⟩
    intro cutoff decoded
    exact ⟨reply, List.mem_cons_self .., decoded⟩
  | _ => exact outside_meets _ fun _ _ => trivial

end Gofi.Iam.Redis
