import Gofi.Iam.Rotation

/-! The absolute lifetime of a login: every session of a refresh chain keeps the
login time of the chain's first session, and none is accepted once the lifetime
counted from it has passed. -/

namespace Gofi.Iam

open Gofi.Concurrent Gofi.Go

namespace LocalAuth

variable (a : LocalAuth)

theorem maxLife_lt : a.cfg.maxLife < 2 ^ 63 := by
  unfold AuthConfig.maxLife
  split
  · exact a.cfg.refreshTokenTTL_lt
  · exact a.cfg.sessionMaxLifetime_lt

theorem login_of_alive {clock : Instant} (alive : clock.time < a.cfg.sessionExpiry clock.time login) :
    login ≠ 0 := by
  rintro rfl
  have cap := a.cfg.sessionExpiry_le clock.time 0
  have late := clock.late
  have short := a.maxLife_lt
  norm_num [Time.day, Time.hour, Time.minute, Time.second] at late short
  lia

theorem selectAuthTime_ne_zero {clock : Instant} (login : a.selectAuthTime input clock.time = .ok authTime) :
    authTime ≠ 0 := by
  unfold SessionIssuer.selectAuthTime at login
  split at login
  · rename_i carried
    split at login <;> cases login
    simpa [Time.isZero] using carried.1
  · cases login
    have late := clock.late
    norm_num [Time.day, Time.hour, Time.minute, Time.second] at late
    lia

end LocalAuth

theorem loginTime_of_ne_zero {s : Session} (set : s.authTime ≠ 0) : s.loginTime = s.authTime := by
  simp [Session.loginTime, Time.isZero, set]

theorem Issued.capped {past : History ports} (issued : Issued a past call s) :
    s.loginTime = s.authTime ∧ s.expiresAt ≤ s.authTime + a.cfg.maxLife := by
  cases issued with
  | opened _ _ _ login =>
    exact ⟨loginTime_of_ne_zero (a.selectAuthTime_ne_zero login), a.cfg.sessionExpiry_le ..⟩
  | rotated _ _ refreshable =>
    obtain ⟨clock, _, alive⟩ := refreshable.alive
    exact ⟨loginTime_of_ne_zero (a.login_of_alive alive), a.cfg.sessionExpiry_le ..⟩

namespace SessionStore

variable {b : Backend} (store : SessionStore b) {a : LocalAuth} {first σ last : State (b.system a)}

/-- A session of the run: stored from the start, or saved by a call. -/
inductive Known (first σ : State (b.system a)) (s : Session) : Prop where
  | initial (stored : store.record first.store s.id = some s)
  | saved {thread : Thread (b.system a)} (found : σ.threads name = some thread) (asked : thread.Asked (.save s))

theorem same_known {id : Str} (start : store.Start first) (run : Reach Guard.none first σ)
    (known : store.Known first σ s) (genuine : store.Genuine first σ id r) (named : s.id = id) :
    r.identity = s.identity := by
  subst named
  cases known with
  | initial stored => exact store.same_identity start run genuine (.initial stored rfl)
  | saved found asked =>
    cases genuine with
    | initial old =>
      exact (Backend.save_new store.plain start.quiet run found asked (start.known _ _ old).2).elim
    | written found' wrote new named same =>
      obtain ⟨given, asked', rfl⟩ := store.asked_of_wrote wrote new
      obtain ⟨_, rfl⟩ := Backend.save_unique store.plain start.quiet run found' found asked' asked named
      exact same

/-- The refresh chain of a login, from its first session on: each session is
saved by a refresh with a token that names the one before. -/
inductive Chain (first σ : State (b.system a)) (root : Session) : Session → Prop where
  | head (known : store.Known first σ root) : Chain first σ root root
  | next {thread : Thread (b.system a)} (chain : Chain first σ root s) (found : σ.threads name = some thread)
      (call : thread.call = .refreshToken token) (parsed : parseRefreshToken token = .ok s.id)
      (saved : thread.Asked (.save s')) : Chain first σ root s'

theorem Chain.known (chain : store.Chain first σ root s) : store.Known first σ s := by
  cases chain with
  | head known => exact known
  | next _ found _ _ saved => exact .saved found saved

theorem rotation_login (start : store.Start first) (run : Reach Guard.none first σ)
    (known : store.Known first σ s) (found : σ.threads name = some thread)
    (call : thread.call = .refreshToken token) (parsed : parseRefreshToken token = .ok s.id)
    (saved : thread.Asked (.save s')) : s'.authTime = s.loginTime ∧ s'.userID = s.userID := by
  obtain ⟨earlier, suffix, issued, _⟩ := Thread.asked_allowed (body_meets a thread.call) saved
  rw [call] at issued
  obtain ⟨existing, refreshable, _, clock, id, access, refresh, _, rfl⟩ := issued.rotation
  obtain ⟨named, parsed', read, _⟩ := refreshable.presented
  obtain rfl : s.id = named := Except.ok.inj (parsed.symm.trans parsed')
  have genuine := store.genuine_of_held start (store.got start run found (suffix.subset read))
  have same := store.same_known start run known genuine rfl
  have user : existing.userID = s.userID := Session.identity_userID same
  exact ⟨Session.identity_loginTime same, user⟩

theorem chain_login (start : store.Start first) (run : Reach Guard.none first σ)
    (chain : store.Chain first σ root s) : s.loginTime = root.loginTime ∧ s.userID = root.userID := by
  induction chain with
  | head => exact ⟨rfl, rfl⟩
  | next earlier found call parsed saved ih =>
    obtain ⟨login, user⟩ := store.rotation_login start run earlier.known found call parsed saved
    obtain ⟨_, _, issued, _⟩ := Thread.asked_allowed (body_meets a _) saved
    exact ⟨issued.capped.1.trans (login.trans ih.1), user.trans ih.2⟩

theorem chain_authTime (start : store.Start first) (run : Reach Guard.none first σ)
    (chain : store.Chain first σ root s) (set : root.authTime ≠ 0) : s.authTime = root.authTime := by
  cases chain with
  | head => rfl
  | next earlier found call parsed saved =>
    rw [(store.rotation_login start run earlier.known found call parsed saved).1,
      (store.chain_login start run earlier).1, loginTime_of_ne_zero set]

def Capped (σ : State (b.system a)) : Prop :=
  ∀ id s, store.record σ.store id = some s → s.expiresAt ≤ s.loginTime + a.cfg.maxLife

theorem known_capped (capped : store.Capped first) (known : store.Known first σ s) :
    s.expiresAt ≤ s.loginTime + a.cfg.maxLife := by
  cases known with
  | initial stored => exact capped _ _ stored
  | saved found asked =>
    obtain ⟨_, _, issued, _⟩ := Thread.asked_allowed (body_meets a _) asked
    rw [issued.capped.1]
    exact issued.capped.2

theorem stored_capped (start : store.Start first) (capped : store.Capped first)
    (run : Reach Guard.none first σ) : store.Capped σ := by
  intro id s stored
  cases store.genuine start run stored with
  | initial stored same =>
    rw [Session.identity_expiresAt same, Session.identity_loginTime same]
    exact capped _ _ stored
  | written found wrote new named same =>
    obtain ⟨given, asked, rfl⟩ := store.asked_of_wrote wrote new
    rw [Session.identity_expiresAt same, Session.identity_loginTime same]
    have cap := store.known_capped capped (.saved found asked)
    exact cap

end SessionStore

/-- The call succeeded for the session of this id: it validated an access token
of the session, or refreshed it. -/
inductive Accepted {b : Backend} {a : LocalAuth} (σ : State (b.system a)) (name : Nat) : Str → Prop where
  | validated {claims : Claims} (finished : σ.Finished name (.validateToken token) (.ok claims)) :
      Accepted σ name claims.sessionID
  | refreshed {id : Str} {s : Session} (parsed : parseRefreshToken token = .ok id)
      (finished : σ.Finished name (.refreshToken token) (.ok s)) : Accepted σ name id

theorem Accepted.cleared {b : Backend} {a : LocalAuth} {σ : State (b.system a)} {id : Str}
    (accepted : Accepted σ name id) : ∃ thread s, σ.threads name = some thread ∧
      Answered.get id (.ok (some s)) ∈ thread.past ∧ Cleared a thread.past s := by
  cases accepted with
  | @validated token claims finished =>
    obtain ⟨thread, found, _, _, s, read, _, _, cleared⟩ :=
      Thread.finished_meets (body_meets a (.validateToken token)) finished
    exact ⟨thread, s, found, read, cleared⟩
  | @refreshed token _ s parsed finished =>
    obtain ⟨thread, found, call, saved⟩ :=
      Thread.finished_meets (body_meets a (.refreshToken token)) finished
    obtain ⟨earlier, suffix, issued, _⟩ :=
      Thread.asked_allowed (body_meets a thread.call) (Thread.asked_of_past saved)
    rw [call] at issued
    obtain ⟨existing, refreshable, _⟩ := issued.rotation
    obtain ⟨named, parsed', read, _⟩ := refreshable.presented
    obtain rfl : id = named := Except.ok.inj (parsed.symm.trans parsed')
    exact ⟨thread, existing, found, suffix.subset read, refreshable.toCleared.mono suffix.subset⟩

/-- Whatever the store held at first within its lifetime, and whatever the calls
do: every stored session ends within the lifetime counted from its login; the
login time is the same all along a refresh chain, as the recorded one or, for a
first session without one, as its creation; and no call that begins after that
lifetime, counted from the login of the chain's first session, succeeds for any
session of the chain. -/
theorem session_lifetime_is_absolute (p : Provider) (a : LocalAuth) {first middle last : State (p.system a)}
    (start : p.sessions.Start first) (capped : p.sessions.Capped first)
    (before : Reach Guard.none first middle) (after : Reach Guard.none middle last) : p.sessions.Capped last ∧
    (∀ root s, p.sessions.Chain first last root s →
      s.loginTime = root.loginTime ∧ (root.authTime ≠ 0 → s.authTime = root.authTime)) ∧
    ∀ root s name, p.sessions.Chain first last root s → root.loginTime + a.cfg.maxLife < middle.clock.time →
      middle.threads name = none → ¬ Accepted last name s.id := by
  have run := before.trans after
  refine ⟨p.sessions.stored_capped start capped run, ?_, ?_⟩
  · intro root s chain
    exact ⟨(p.sessions.chain_login start run chain).1, p.sessions.chain_authTime start run chain⟩
  · intro root s name chain late absent accepted
    obtain ⟨thread, r, found, read, cleared⟩ := accepted.cleared
    obtain ⟨clock, told, timely⟩ := cleared.timely
    have since := (Backend.read_between p.sessions.plain after absent found told).1
    have genuine := p.sessions.genuine_of_held start (p.sessions.got start run found read)
    have same := p.sessions.same_known start run chain.known genuine rfl
    have cap := p.sessions.known_capped capped chain.known
    rw [Session.identity_expiresAt same] at timely
    rw [(p.sessions.chain_login start run chain).1, Provider.equip_cfg] at cap
    lia

namespace Sample

theorem token_parses : parseRefreshToken (token 0) = .ok (session 0).id := by rfl

private theorem memory_capped : (Provider.sessions (.memory true)).Capped (memory auth) := by
  intro id s stored
  replace stored : (if id = (session 0).id then some (session 0) else none) = some s := stored
  split at stored <;> cases stored
  decide +kernel

theorem root_chain (last : State (Provider.system (.memory true) auth)) :
    (Provider.sessions (.memory true)).Chain (memory auth) last (session 0) (session 0) := by
  have stored : (if (session 0).id = (session 0).id then some (session 0) else none) = _ := if_pos rfl
  exact .head (.initial stored)

theorem refreshed_saved : ∃ s thread, s.id = (uuid 1).text ∧ refreshed.threads 0 = some thread ∧
    thread.call = .refreshToken (token 0) ∧ thread.Asked (.save s) := by
  obtain ⟨s, named, finished⟩ := refreshed_finished
  obtain ⟨thread, found, call, saved⟩ :=
    Thread.finished_meets (body_meets (Provider.equip auth) (.refreshToken (token 0))) finished
  exact ⟨s, thread, named, found, call, Thread.asked_of_past saved⟩

/-- A month after the refresh the lifetime of its login is over. -/
def outlived : State (Provider.system (.memory true) auth) := refreshed.follow [.tick (.wait (clock 2678400000000000))]

private theorem outlived_run : Reach Guard.none (memory auth) outlived := refreshed_run.trans (.of_follow _)

end Sample

open Sample

/-- The stored session of the sample and its successor share one login, and a
call that begins after its lifetime succeeds for neither. -/
theorem sample_lifetime_is_absolute : (session 0).loginTime + config.maxLife < outlived.clock.time ∧
    (∃ s, s.id = (uuid 1).text ∧ (Provider.sessions (.memory true)).Chain (memory auth) outlived (session 0) s) ∧
    ∀ moves s name, (Provider.sessions (.memory true)).Chain (memory auth) (outlived.follow moves) (session 0) s →
      outlived.threads name = none → ¬ Accepted (outlived.follow moves) name s.id := by
  have late : (session 0).loginTime + config.maxLife < outlived.clock.time := by decide +kernel
  refine ⟨late, ?_, fun moves s name chain absent => ?_⟩
  · obtain ⟨s, thread, named, found, call, saved⟩ := refreshed_saved
    exact ⟨s, named, (root_chain _).next ((State.follow_tick_threads ..).symm ▸ found) call token_parses saved⟩
  · have absolute := session_lifetime_is_absolute (.memory true) auth (memory_start _) memory_capped outlived_run
      (.of_follow moves)
    exact absolute.2.2 _ s name chain late absent

end Gofi.Iam
