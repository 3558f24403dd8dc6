import Gofi.Iam.LogoutAll

/-! The life and the end of one session: a login has one at a time, an access
token is valid only with a live one, a logout and a rotation are final for it,
and its token presented once more ends the logins of its user. -/

namespace Gofi.Iam

open Gofi.Concurrent Gofi.Go

namespace SessionStore

variable {b : Backend} (store : SessionStore b) {a : LocalAuth} {first middle last σ : State (b.system a)} {id : Str}

def Revoked (σ : State (b.system a)) (id : Str) : Prop := ∃ s, store.record σ.store id = some s ∧ s.revoked = true

theorem Revoked.always (start : store.Start first) (before : Reach Guard.none first middle)
    (revoked : store.Revoked middle id) (after : Reach Guard.none middle last) : store.Revoked last id := by
  refine after.invariant (store.Revoked · id) revoked ?_
  intro σ move after reached holds _ moved
  obtain ⟨s, stored, isRevoked⟩ := holds
  exact store.revoked_step start (before.trans reached) moved stored isRevoked

/-- An answer after which the session is revoked leaves it so for good. -/
theorem revoked_of_did {thread : Thread (b.system a)} (start : store.Start first) (run : Reach Guard.none first σ)
    (found : σ.threads name = some thread) (did : thread.Did op (Script.did b.atoms atom ans))
    (revokes : ∀ {conn clock before luck later}, b.respond conn clock before atom luck = some (ans, later) →
      ∃ s, store.record later id = some s ∧ s.revoked = true) : store.Revoked σ id := by
  refine run.facts (fun _ => True) (fun σ _ _ event => event = Script.did b.atoms atom ans → store.Revoked σ id)
    (fun name _ => start.quiet name) (fun _ _ _ _ _ _ fact => fact) ?_ ?_ found trivial _ _ did rfl
  · rintro σ other thread op trail choose event after - - - - - - answered rfl
    obtain ⟨later, responded, world⟩ := Backend.answer_inr _ answered
    rw [Revoked, State.store, world]
    exact revokes responded
  · intro σ move after thread op event reached _ moved fact same
    obtain ⟨s, stored, revoked⟩ := fact same
    exact store.revoked_step start reached moved stored revoked

/-- A refresh with a token of the first session has saved the second one. -/
inductive Replaced (σ : State (b.system a)) (s s' : Session) : Prop where
  | saved {thread : Thread (b.system a)} (found : σ.threads name = some thread)
    (call : thread.call = .refreshToken token)
      (parsed : parseRefreshToken token = .ok s.id) (asked : thread.Asked (.save s'))

theorem Replaced.claim (start : store.Start first) (run : Reach Guard.none first σ) (revoker : a.revoker = true)
    (replaced : Replaced σ s s') : ∃ name thread, σ.threads name = some thread ∧ thread.Asked (.save s') ∧
      Answered.revokeIfActive s.id (.ok true) ∈ thread.past := by
  cases replaced with
  | saved found call parsed asked =>
    obtain ⟨named, parsed', claim⟩ := store.claimed_of_saved start run revoker found call asked
    obtain rfl : s.id = named := Except.ok.inj (parsed.symm.trans parsed')
    exact ⟨_, _, found, asked, claim⟩

theorem revoked_of_claim (start : store.Start first) (run : Reach Guard.none first σ)
    (found : σ.threads name = some thread) (claim : Answered.revokeIfActive id (.ok true) ∈ thread.past) :
    store.Revoked σ id := by
  obtain ⟨trail, sound, inside⟩ := Thread.visited claim
  obtain ⟨atom, ans, did, claims⟩ := (store.claimed id).along sound rfl
  exact (store.claimed_always start run).revoked found (Thread.low_of_did (inside _ did)) claims

theorem Replaced.revoked (start : store.Start first) (run : Reach Guard.none first σ) (revoker : a.revoker = true)
    (replaced : Replaced σ s s') : store.Revoked σ s.id := by
  obtain ⟨name, thread, found, _, claim⟩ := replaced.claim store start run revoker
  exact store.revoked_of_claim start run found claim

theorem Replaced.unique (start : store.Start first) (run : Reach Guard.none first σ) (revoker : a.revoker = true)
    (left : Replaced σ s t) (right : Replaced σ s t') : t = t' := by
  obtain ⟨name, thread, found, saved, claim⟩ := left.claim store start run revoker
  obtain ⟨name', other, found', saved', claim'⟩ := right.claim store start run revoker
  obtain rfl := store.claim_unique start run found found' claim claim'
  obtain rfl := Option.some.inj (found.symm.trans found')
  exact Backend.save_once saved saved'

/-- Read from its beginning, a refresh chain has one session or goes on from the one that replaced it. -/
theorem Chain.onward (chain : store.Chain first σ root s) :
    s = root ∨ ∃ t, Replaced σ root t ∧ store.Chain first σ t s := by
  induction chain with
  | head => exact .inl rfl
  | next earlier found call parsed saved ih =>
    right
    rcases ih with rfl | ⟨t, replaced, chain⟩
    · exact ⟨_, .saved found call parsed saved, .head (.saved found saved)⟩
    · exact ⟨t, replaced, .next chain found call parsed saved⟩

/-- A refresh chain does not branch. -/
theorem Chain.linear (start : store.Start first) (run : Reach Guard.none first σ) (revoker : a.revoker = true)
    (left : store.Chain first σ root s) (right : store.Chain first σ root s') :
    store.Chain first σ s s' ∨ store.Chain first σ s' s := by
  induction left with
  | head => exact .inl right
  | next earlier found call parsed saved ih =>
    rcases ih with ahead | behind
    · rcases ahead.onward with rfl | ⟨t, replaced, chain⟩
      · exact .inr (.next (.head earlier.known) found call parsed saved)
      · obtain rfl := replaced.unique store start run revoker (.saved found call parsed saved)
        exact .inl chain
    · exact .inr (.next behind found call parsed saved)

end SessionStore

/-- Whatever runs on either provider, a refresh chain does not branch: a session of it has one successor at most, and
of two sessions the one continues the other. So a login has one live session at most: of two different sessions of its
chain one is revoked. -/
theorem login_has_one_live_session (p : Provider) (a : LocalAuth) {first last : State (p.system a)}
    (start : p.sessions.Start first) (run : Reach Guard.none first last)
    (left : p.sessions.Chain first last root s) (right : p.sessions.Chain first last root s') :
    (∀ t t', SessionStore.Replaced last s t → SessionStore.Replaced last s t' → t = t') ∧
    (p.sessions.Chain first last s s' ∨ p.sessions.Chain first last s' s) ∧
    (s = s' ∨ p.sessions.Revoked last s.id ∨ p.sessions.Revoked last s'.id) := by
  have linear := left.linear _ start run rfl right
  refine ⟨fun t t' one other => one.unique _ start run rfl other, linear, ?_⟩
  rcases linear with chain | chain
  · rcases chain.onward with rfl | ⟨t, replaced, _⟩
    · exact .inl rfl
    · exact .inr (.inl (replaced.revoked _ start run rfl))
  · rcases chain.onward with rfl | ⟨t, replaced, _⟩
    · exact .inl rfl
    · exact .inr (.inr (replaced.revoked _ start run rfl))

section Refreshed

open Sample

/-- The refreshed session has the new one as its only successor, and is revoked. -/
theorem refreshed_sample_has_one_live_session : ∃ s, s.id = (uuid 1).text ∧
    (Provider.memory true).sessions.Chain (memory auth) refreshed (session 0) s ∧
    SessionStore.Replaced refreshed (session 0) s ∧ (∀ t, SessionStore.Replaced refreshed (session 0) t → t = s) ∧
    (Provider.memory true).sessions.Revoked refreshed (session 0).id ∧
    ¬ (Provider.memory true).sessions.Revoked refreshed s.id := by
  obtain ⟨s, thread, named, found, call, saved⟩ := refreshed_saved
  have chain := (root_chain refreshed).next found call token_parses saved
  have replaced : SessionStore.Replaced refreshed (session 0) s := .saved found call token_parses saved
  have live : ¬ (Provider.memory true).sessions.Revoked refreshed s.id := by
    rintro ⟨r, stored, revoked⟩
    have active : ((Provider.memory true).sessions.record refreshed.store (uuid 1).text).all (!·.revoked) = true := by
      decide +kernel
    rw [named] at stored
    simp [stored, revoked] at active
  obtain ⟨unique, _, distinct⟩ := login_has_one_live_session (.memory true) auth (memory_start _) refreshed_run
    (root_chain _) chain
  refine ⟨s, named, chain, replaced, fun t other => unique t s other replaced, ?_, live⟩
  rcases distinct with rfl | first | second
  · exact absurd named (by decide)
  · exact first
  · exact absurd second live

end Refreshed

namespace Memory

theorem revoke_tells (id : Str) : (revoke id).Meets (fun _ _ => True)
    (fun trail r => r = .ok () → Script.did atoms (.revoke id) true ∈ trail) [] := by
  refine ⟨trivial, fun ok => ?_⟩
  cases ok with
  | false => rintro ⟨⟩
  | true => exact fun _ => List.mem_cons_self ..

theorem revoked_of_respond {id : Str} (responded : respond now store (.revoke id) = some (true, later)) :
    ∃ s, later.objects id = some s ∧ s.revoked = true := by
  simp only [respond] at responded
  split at responded
  · cases responded
  · obtain rfl := (Prod.mk.inj (Option.some.inj responded)).2
    exact ⟨_, Function.update_self .., rfl⟩

end Memory

namespace Redis

variable {keyPrefix id : Str}

theorem revoke_tells : (revoke keyPrefix id).Meets (fun _ _ => True) (fun trail r => r = .ok () →
    ∃ marked ttl, marked.revoked = true ∧ sent (.set (sessionKey keyPrefix id) (.json marked) ttl) (.ok ()) ∈ trail)
      [] := by
  refine ⟨trivial, fun reply => ?_⟩
  simp only [Prog.pure_eq, Prog.bind_eq, Prog.done_bind]
  cases decodeSession reply with
  | error err => rintro ⟨⟩
  | ok s =>
    refine ((@markRevoked_meets keyPrefix .now s _).mono (fun _ _ _ => trivial) fun _ _ met => met).bind ?_
    rintro marking marked ⟨-, -, revoked⟩
    refine ⟨trivial, fun clock => ⟨trivial, fun written => ?_⟩⟩
    cases written with
    | error failure => rintro ⟨⟩
    | ok done => exact fun _ => ⟨marked, _, revoked, List.mem_cons_self ..⟩

end Redis

namespace Provider

variable (p : Provider) {a : LocalAuth} {first middle last σ : State (p.system a)} {id : Str}

theorem held_since (run : Reach Guard.none middle last) (absent : middle.threads name = none)
    (found : last.threads name = some thread) (read : Answered.get id (.ok (some s)) ∈ thread.past) :
    p.sessions.Held middle last id s := by
  cases p with
  | memory withTTL => exact Memory.held absent run found read
  | redis keyPrefix => exact Redis.held absent run found read

theorem revoked_of_answer (start : p.sessions.Start first) (run : Reach Guard.none first σ)
    (found : σ.threads name = some thread) (answered : Answered.revoke id (.ok ()) ∈ thread.past) :
    p.sessions.Revoked σ id := by
  obtain ⟨trail, sound, inside⟩ := Thread.visited answered
  cases p with
  | memory withTTL =>
    have told := (Memory.revoke_tells id).along sound rfl
    exact (Memory.sessionStore withTTL).revoked_of_did start run found (inside _ told) Memory.revoked_of_respond
  | redis keyPrefix =>
    obtain ⟨marked, ttl, revoked, told⟩ := Redis.revoke_tells.along sound rfl
    refine (Redis.sessionStore keyPrefix).revoked_of_did start run found (inside _ told) ?_
    intro conn clock before luck later responded
    obtain rfl := (Prod.mk.inj (Option.some.inj (Redis.Server.executed_of_ok responded))).2
    exact ⟨marked, congrArg Redis.sessionOf (Redis.Server.write_items_self ..), revoked⟩

/-- What ends one session: its logout, or a refresh with its token. -/
inductive Ended (σ : State (p.system a)) (id : Str) : Prop where
  | loggedOut (finished : σ.Finished name (.logout id) (.ok ()))
  | rotated (parsed : parseRefreshToken token = .ok id) (finished : σ.Finished name (.refreshToken token) (.ok s))

theorem Ended.revoked (start : p.sessions.Start first) (run : Reach Guard.none first σ) (ended : p.Ended σ id) :
    p.sessions.Revoked σ id := by
  cases ended with
  | loggedOut finished =>
    obtain ⟨thread, found, _, answered⟩ := Thread.finished_meets (body_meets (equip a) (.logout id)) finished
    exact p.revoked_of_answer start run found answered
  | @rotated token name s parsed finished =>
    obtain ⟨thread, found, call, saved⟩ := Thread.finished_meets (body_meets (equip a) (.refreshToken token)) finished
    obtain ⟨named, parsed', claim⟩ :=
      p.sessions.claimed_of_saved start run rfl found call (Thread.asked_of_past saved)
    obtain rfl : id = named := Except.ok.inj (parsed.symm.trans parsed')
    exact p.sessions.revoked_of_claim start run found claim

end Provider

/-- On either provider and whatever runs beside it: once a logout of a session
or a refresh with its token has succeeded, no call that begins later validates
one of its access tokens or refreshes it. -/
theorem ended_session_is_never_accepted (p : Provider) (a : LocalAuth) {first middle last : State (p.system a)}
    {id : Str} (start : p.sessions.Start first) (before : Reach Guard.none first middle) (ended : p.Ended middle id)
    (after : Reach Guard.none middle last) (absent : middle.threads name = none) : ¬ Accepted last name id := by
  intro accepted
  obtain ⟨thread, s, found, read, cleared⟩ := accepted.cleared
  obtain ⟨between, since, _, stored⟩ := p.held_since after absent found read
  obtain ⟨r, current, revoked⟩ := (ended.revoked p start before).always _ start before since
  obtain rfl := Option.some.inj (current.symm.trans stored)
  exact Bool.false_ne_true (cleared.active.symm.trans revoked)

namespace Sample

def signedOut : State (Provider.system (.memory true) auth) :=
  (memory auth).follow (.start 0 (.logout (session 0).id) :: performed 10 0 (uuid 1))

def signsOut (id : Str) : (call : Call) → call.Result → Bool
  | .logout sessionID, .ok () => sessionID = id
  | _, _ => false

end Sample

theorem signed_out_sample_is_never_accepted : (Provider.memory true).Ended Sample.signedOut (Sample.session 0).id ∧
    ∀ moves name, Sample.signedOut.threads name = none →
      ¬ Accepted (Sample.signedOut.follow moves) name (Sample.session 0).id := by
  have done : Sample.signedOut.ended 0 (Sample.signsOut (Sample.session 0).id) = true := by decide +kernel
  obtain ⟨call, value, finished, fine⟩ := State.finished_of_ended done
  unfold Sample.signsOut at fine
  split at fine
  · cases of_decide_eq_true fine
    refine ⟨.loggedOut finished, fun moves name absent => ?_⟩
    exact ended_session_is_never_accepted (.memory true) Sample.auth (Sample.memory_start _) (.of_follow _)
      (.loggedOut finished) (.of_follow moves) absent
  · cases fine

/-- A validated access token had a live session while it was validated: between
the beginning of the call and its end, the store held under the session id of
the claims an unrevoked session of their user and tenant that had not expired
before. It was stored from the start, or saved by a call. -/
theorem validated_token_has_live_session (p : Provider) (a : LocalAuth) {first middle last : State (p.system a)}
    {claims : Claims} (start : p.sessions.Start first) (before : Reach Guard.none first middle)
    (absent : middle.threads name = none) (after : Reach Guard.none middle last)
    (finished : last.Finished name (.validateToken token) (.ok claims)) :
    ∃ between s origin, Reach Guard.none middle between ∧ Reach Guard.none between last ∧
      p.sessions.record between.store claims.sessionID = some s ∧ s.revoked = false ∧
      middle.clock.time ≤ s.expiresAt ∧ s.userID = claims.userID ∧ s.tenantID = claims.tenantID ∧
      p.sessions.Known first between origin ∧ s.identity = origin.identity := by
  obtain ⟨thread, found, _, _, s, read, user, tenant, cleared⟩ :=
    Thread.finished_meets (body_meets (Provider.equip a) (.validateToken token)) finished
  obtain ⟨between, since, onward, stored⟩ := p.held_since after absent found read
  obtain ⟨clock, told, timely⟩ := cleared.timely
  have late := (Backend.read_between p.sessions.plain after absent found told).1
  have live := late.trans timely
  cases p.sessions.genuine start (before.trans since) stored with
  | @initial origin old same =>
    have named := (start.known _ _ old).1
    exact ⟨between, s, origin, since, onward, stored, cleared.active, live, user, tenant, .initial (named ▸ old), same⟩
  | written wroteIn wrote new named same =>
    obtain ⟨origin, asked, rfl⟩ := p.sessions.asked_of_wrote wrote new
    exact ⟨between, s, origin, since, onward, stored, cleared.active, live, user, tenant, .saved wroteIn asked, same⟩

namespace Sample

def validated : State (Provider.system (.memory true) auth) :=
  (memory auth).follow (.start 0 (.validateToken (session 0).id) :: performed 60 0 (uuid 1))

end Sample

theorem validated_sample_has_live_session : ∃ token claims, claims.sessionID = (Sample.session 0).id ∧
    Sample.validated.Finished 0 (.validateToken token) (.ok claims) ∧
    ∃ between s, Reach Guard.none between Sample.validated ∧
      (Provider.memory true).sessions.record between.store claims.sessionID = some s ∧ s.revoked = false := by
  have done : Sample.validated.ended 0 (Sample.admits (Sample.session 0).id) = true := by decide +kernel
  obtain ⟨call, value, finished, fine⟩ := State.finished_of_ended done
  unfold Sample.admits at fine
  split at fine
  · obtain ⟨between, s, _, _, onward, stored, active, _⟩ := validated_token_has_live_session (.memory true) Sample.auth
      (Sample.memory_start _) .refl rfl (.of_follow _) finished
    exact ⟨_, _, of_decide_eq_true fine, finished, between, s, onward, stored, active⟩
  · cases fine

/-- The answer to a refresh token of a revoked session: all sessions of the user
are to be revoked, and the refresh fails, with the failure to do so if there is one. -/
inductive Alarmed (past : History ports) (userID : Str) (r : Except Err Session) : Prop where
  | revoked (asked : Answered.revokeAllForUser userID (.ok ()) ∈ past) (refused : r = .error Sentinel.sessionRevoked)
  | failed (asked : Answered.revokeAllForUser userID (.error err) ∈ past)
      (refused : r = .error (.join (ascii ": revoking all sessions of the user: ") Sentinel.sessionRevoked err))

/-- The refresh read no session, or one whose token sets off the alarm if it is revoked. -/
def Watchful (lib : Library) (token : Str) (past : History ports) (r : Except Err Session) : Prop :=
  ((∃ err, r = .error err) ∧ ∀ id s, Answered.get id (.ok (some s)) ∉ past) ∨
  ∃ id s, Answered.get id (.ok (some s)) ∈ past ∧
    (tokenHashMatches lib token s.refreshTokenHash = true → s.revoked = true → Alarmed past s.userID r)

private theorem refreshable_watchful (a : LocalAuth) (token : Str) :
    (a.refreshable token).Meets (fun _ _ => True) (Watchful a.lib token) [] := by
  unfold LocalAuth.refreshable
  split
  · exact ⟨trivial, fun clock => ⟨trivial, fun _ => .inl ⟨⟨_, rfl⟩, by simp⟩⟩⟩
  · rename_i id parsed
    refine ⟨trivial, fun reply => ?_⟩
    rcases reply with err | _ | existing
    · exact ⟨trivial, fun clock => ⟨trivial, fun _ => .inl ⟨⟨_, rfl⟩, by simp⟩⟩⟩
    · exact ⟨trivial, fun clock => ⟨trivial, fun _ => .inl ⟨⟨_, rfl⟩, by simp⟩⟩⟩
    · have passed {r : Except Err Session} {later : History ports}
          (grown : [Answered.get id (.ok (some existing))] <:+ later)
          (harmless : tokenHashMatches a.lib token existing.refreshTokenHash = true → existing.revoked = false) :
          Watchful a.lib token later r :=
        .inr ⟨id, existing, grown.subset (List.mem_cons_self ..), fun same revoked =>
          absurd revoked (by simp [harmless same])⟩
      simp only [Prog.done_bind]
      split
      · rename_i mismatch
        exact (Prog.Meets.grows _ _).mono (fun _ _ _ => trivial) fun later r grown =>
          passed grown fun same => by simp [same] at mismatch
      · split
        · refine ⟨trivial, fun reply => ?_⟩
          cases reply with
          | error err =>
            exact ⟨trivial, fun clock => ⟨trivial, fun _ => .inr ⟨id, existing, by simp, fun _ _ =>
              .failed (by simp) rfl⟩⟩⟩
          | ok done =>
            exact ⟨trivial, fun clock => ⟨trivial, fun _ => .inr ⟨id, existing, by simp, fun _ _ =>
              .revoked (by simp) rfl⟩⟩⟩
        · rename_i active
          exact (Prog.Meets.grows _ _).mono (fun _ _ _ => trivial) fun later r grown =>
            passed grown fun _ => by simpa using active

private theorem refreshToken_watchful (a : LocalAuth) (token : Str) :
    (a.refreshToken token).Meets (fun _ _ => True) (Watchful a.lib token) [] := by
  unfold LocalAuth.refreshToken
  split
  · exact .inl ⟨⟨_, rfl⟩, by simp⟩
  · refine (refreshable_watchful a token).bind fun before reply watchful => ?_
    cases reply with
    | error err => exact watchful
    | ok existing =>
      rcases watchful with ⟨⟨err, failed⟩, _⟩ | ⟨id, s, got, alarmed⟩
      · cases failed
      · refine (Prog.Meets.grows _ _).mono (fun _ _ _ => trivial) fun later r grown =>
          .inr ⟨id, s, grown.subset got, ?_⟩
        intro same revoked
        rcases alarmed same revoked with ⟨_, refused⟩ | ⟨_, refused⟩
        all_goals cases refused

/-- A refresh that presents the token of a session it finds revoked fails, whatever else runs, and has asked to revoke
all sessions of the user. Where that was done, and no session lives longer than the 90 days for which a cut-off is
kept, in orderly runs no call that begins later succeeds for a session whose refresh chain began with a
`SelectTenant` of the user at or before the recorded cut-off. -/
theorem reused_token_ends_logins (p : Provider) (a : LocalAuth) {first middle : State (p.system a)}
    {thread : Thread (p.system a)} {s : Session} (start : p.sessions.Start first) (run : Reach Guard.none first middle)
    (finished : middle.Finished refresher (.refreshToken token) value) (found : middle.threads refresher = some thread)
    (presented : Presented a.lib token thread.past s) (revoked : s.revoked = true) :
    Alarmed thread.past s.userID value ∧
    (Answered.revokeAllForUser s.userID (.ok ()) ∈ thread.past → a.cfg.Enforced →
      Reach (p.Orderly a s.userID) first middle → ∃ cutoff, p.cutoffs.Recorded thread s.userID cutoff ∧
      ∀ last root r name, Reach (p.Orderly a s.userID) middle last → Opened last s.userID root →
        root.authTime ≤ cutoff → p.sessions.Chain first last root r → middle.threads name = none →
        ¬ Accepted last name r.id) := by
  obtain ⟨id, parsed, read, same⟩ := presented
  refine ⟨?_, fun returned limits before => ?_⟩
  · obtain ⟨other, present, _, watchful⟩ :=
      Thread.finished_meets (refreshToken_watchful (Provider.equip a) token) finished
    obtain rfl := Option.some.inj (found.symm.trans present)
    rcases watchful with ⟨_, none⟩ | ⟨id', r, got, alarmed⟩
    · exact absurd read (none id s)
    · obtain rfl := Backend.got_once read got
      exact alarmed same revoked
  · obtain ⟨cutoff, recorded⟩ := p.cutoffs.recorded_of_returned returned
    refine ⟨cutoff, recorded, fun last root r name after opened early chain absent => ?_⟩
    have all : Reach Guard.none first last := run.trans (after.weaken fun _ _ _ => trivial)
    obtain ⟨user, login, ends⟩ := p.sessions.chain_of_opened start all opened chain
    exact p.sessions.rejected_after_cutoff p.cutoffs limits rfl start before after found recorded chain user
      (login ▸ early) (ends.trans (Int.add_le_add_right early _)) absent

namespace Sample

/-- The token of the rotated session is presented once more. -/
def reused : State (Provider.system (.memory true) auth) :=
  refreshed.follow (.start 1 (.refreshToken (token 0)) :: performed 60 1 (uuid 2))

def refuses (presented : Str) : (call : Call) → call.Result → Bool
  | .refreshToken text, .error _ => text = presented
  | _, _ => false

def replays : Event ports → Bool
  | ⟨.get id, .ok (some s)⟩ =>
    id = (session 0).id && tokenHashMatches library (token 0) s.refreshTokenHash && s.revoked &&
      s.userID = ascii "user"
  | _ => false

theorem reused_ran : reused.ended 1 (refuses (token 0)) = true ∧
    ((reused.threads 1).any fun thread =>
      thread.past.any replays && thread.past.any (revokesAll (ascii "user"))) = true := by
  decide +kernel

end Sample

open Sample

theorem reused_sample_ends_logins : ∃ value thread s cutoff, reused.Finished 1 (.refreshToken (token 0)) value ∧
    reused.threads 1 = some thread ∧ Presented auth.lib (token 0) thread.past s ∧ s.revoked = true ∧
    Alarmed thread.past s.userID value ∧ (Provider.memory true).cutoffs.Recorded thread s.userID cutoff ∧
    ∀ moves root r name, Opened (reused.follow moves) s.userID root → root.authTime ≤ cutoff →
      (Provider.memory true).sessions.Chain (memory auth) (reused.follow moves) root r →
      reused.threads name = none → ¬ Accepted (reused.follow moves) name r.id := by
  obtain ⟨call, value, finished, fine⟩ := State.finished_of_ended reused_ran.1
  obtain ⟨thread, found, both⟩ := (Option.any_eq_true _ _).mp reused_ran.2
  obtain ⟨read, asked⟩ := Bool.and_eq_true_iff.mp both
  obtain ⟨event, member, replays⟩ := List.any_eq_true.mp read
  unfold refuses at fine
  split at fine
  · cases of_decide_eq_true fine
    unfold Sample.replays at replays
    split at replays
    · rename_i err _ id s
      simp only [Bool.and_eq_true, decide_eq_true_eq] at replays
      obtain ⟨⟨⟨rfl, same⟩, revoked⟩, user⟩ := replays
      have presented : Presented auth.lib (token 0) thread.past s := ⟨_, token_parses, member, same⟩
      have run : Reach Guard.none (memory auth) reused := refreshed_run.trans (.of_follow _)
      obtain ⟨alarmed, ends⟩ := reused_token_ends_logins (.memory true) auth (memory_start _) run finished found
        presented revoked
      have returned : Answered.revokeAllForUser s.userID (.ok ()) ∈ thread.past := by
        obtain ⟨event, member, revokes⟩ := List.any_eq_true.mp asked
        rw [user]
        unfold revokesAll at revokes
        split at revokes
        · cases of_decide_eq_true revokes
          exact member
        · cases revokes
      obtain ⟨cutoff, recorded, final⟩ := ends returned ⟨by decide, by decide⟩ run
      refine ⟨_, thread, s, cutoff, finished, found, presented, revoked, alarmed, recorded, ?_⟩
      exact fun moves root r name => final _ root r name (.of_follow moves)
    · cases replays
  · cases fine

end Gofi.Iam
