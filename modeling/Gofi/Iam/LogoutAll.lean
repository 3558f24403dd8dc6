import Gofi.Iam.Lifetime

/-! `LogoutAll`: what becomes of the logins made before it. -/

namespace Gofi.Iam

open Gofi.Concurrent Gofi.Go

def Opened {b : Backend} {a : LocalAuth} (σ : State (b.system a)) (userID : Str) (root : Session) : Prop :=
  ∃ name thread provider input, σ.threads name = some thread ∧ thread.call = .selectTenant provider input ∧
    input.userID = userID ∧ thread.Asked (.save root)

theorem saved_of_selected {b : Backend} {a : LocalAuth} {σ : State (b.system a)}
    (finished : σ.Finished name (.selectTenant provider input) (.ok s)) :
    ∃ thread, σ.threads name = some thread ∧ thread.call = .selectTenant provider input ∧ thread.Asked (.save s) := by
  obtain ⟨thread, found, call, saved⟩ := Thread.finished_meets (body_meets a (.selectTenant provider input)) finished
  exact ⟨thread, found, call, Thread.asked_of_past saved⟩

namespace SessionStore

variable {b : Backend} (store : SessionStore b) {a : LocalAuth} {first σ last : State (b.system a)}

/-- The sessions of a login that was opened in the run are the user's, carry the
login time that `SelectTenant` took, and end within its lifetime. -/
theorem chain_of_opened (start : store.Start first) (run : Reach Guard.none first σ) (opened : Opened σ userID root)
    (chain : store.Chain first σ root s) :
    s.userID = userID ∧ s.loginTime = root.authTime ∧ s.expiresAt ≤ root.authTime + a.cfg.maxLife := by
  obtain ⟨name, thread, provider, input, found, call, user, saved⟩ := opened
  obtain ⟨_, _, issued, _⟩ := Thread.asked_allowed (body_meets a thread.call) saved
  have login := issued.capped.1
  rw [call] at issued
  have same := store.chain_login start run chain
  rw [login] at same
  refine ⟨same.2.trans (issued.opening.1.trans user), same.1, ?_⟩
  cases chain with
  | head => exact issued.capped.2
  | next _ _ _ _ asked =>
    obtain ⟨_, _, successor, _⟩ := Thread.asked_allowed (body_meets a _) asked
    rw [← same.1, successor.capped.1]
    exact successor.capped.2

theorem rejected_after_cutoff (cutoffs : CutoffStore store) (limits : a.cfg.Enforced)
    (equipped : a.revocationStore = true)
    (start : store.Start first)
    (before : Reach (cutoffs.Orderly a userID) first middle) (after : Reach (cutoffs.Orderly a userID) middle last)
    (found : middle.threads recorder = some thread) (recorded : cutoffs.Recorded thread userID cutoff)
    (chain : store.Chain first last root s) (user : s.userID = userID) (early : s.loginTime ≤ cutoff)
    (capped : s.expiresAt ≤ cutoff + a.cfg.maxLife) (absent : middle.threads name = none) :
    ¬ Accepted last name s.id := by
  intro accepted
  have run : Reach Guard.none first last := (before.trans after).weaken fun _ _ _ => trivial
  obtain ⟨reader, r, present, read, cleared⟩ := accepted.cleared
  have genuine := store.genuine_of_held start (store.got start run present read)
  have same := store.same_known start run chain.known genuine rfl
  obtain ⟨seen, looked, passed⟩ := cleared.admitted equipped
  rw [Session.identity_userID same, user] at looked
  rw [Session.identity_loginTime same] at passed
  obtain ⟨atom, ans, did, records⟩ := recorded
  rcases cutoffs.remembers start before found did records after absent present looked with ⟨newer, set⟩ |
    ⟨id, t, clock, got, timely, late⟩
  · rcases passed with zero | later
    · exact set zero
    · lia
  · obtain rfl := Backend.got_once read got
    rw [Session.identity_expiresAt same] at timely
    have life := limits.maxLife
    lia

end SessionStore

/-- In orderly runs `LogoutAll` is final: it has recorded a cut-off when it
returns, and from then on no new call succeeds for a session whose refresh chain
began with a `SelectTenant` that took its login time at or before the cut-off,
whenever the session itself was saved. -/
theorem logoutAll_is_final_in_orderly_runs (p : Provider) (a : LocalAuth) (limits : a.cfg.Enforced)
    {first middle last : State (p.system a)} {thread : Thread (p.system a)} (start : p.sessions.Start first)
    (before : Reach (p.Orderly a userID) first middle) (after : Reach (p.Orderly a userID) middle last)
    (found : middle.threads recorder = some thread)
    (returned : Answered.revokeAllForUser userID (.ok ()) ∈ thread.past) :
    (∃ cutoff, p.cutoffs.Recorded thread userID cutoff) ∧
    ∀ cutoff root s name, p.cutoffs.Recorded thread userID cutoff → Opened last userID root →
      root.authTime ≤ cutoff → p.sessions.Chain first last root s → middle.threads name = none →
      ¬ Accepted last name s.id := by
  refine ⟨p.cutoffs.recorded_of_returned returned, ?_⟩
  intro cutoff root s name recorded opened early chain absent
  have run : Reach Guard.none first last := (before.trans after).weaken fun _ _ _ => trivial
  obtain ⟨user, login, ends⟩ := p.sessions.chain_of_opened start run opened chain
  exact p.sessions.rejected_after_cutoff p.cutoffs limits rfl start before after found recorded chain user
    (login ▸ early) (ends.trans (Int.add_le_add_right early _)) absent

namespace Sample

def loggedOut : State (Provider.system (.memory true) auth) :=
  (memory auth).follow (.start 0 (.logoutAll (ascii "user")) :: performed 20 0 (uuid 1))

def logsOut (user : Str) : (call : Call) → call.Result → Bool
  | .logoutAll userID, .ok () => userID = user
  | _, _ => false

theorem finished_of_logsOut {b : Backend} {σ : State (b.system a)} (ended : σ.ended 0 (logsOut user) = true) :
    σ.Finished 0 (.logoutAll user) (.ok ()) := by
  obtain ⟨call, value, finished, fine⟩ := State.finished_of_ended ended
  unfold logsOut at fine
  split at fine
  · cases of_decide_eq_true fine
    exact finished
  · cases fine

private theorem loggedOut_finished : loggedOut.Finished 0 (.logoutAll (ascii "user")) (.ok ()) :=
  finished_of_logsOut (by decide +kernel)

open Gofi.Redis

def keyPrefix : Str := ascii "iam:session:"

def redis (s : Session) : State (Provider.system (.redis keyPrefix) auth) where
  world := {
    clock := clock 0
    issued := [s.id]
    store := {
      items := fun key => if key = Redis.sessionKey keyPrefix s.id then some ⟨.text (.json s), none⟩ else none
      watches := fun _ => none } }
  threads := fun _ => none
  log := []

theorem redis_start (s : Session) (plain : 58 ∉ s.id) : (Provider.sessions (.redis keyPrefix)).Start (redis s) := by
  have stored {key : Str} {r : Session} (found : Redis.sessionOf ((redis s).store.items key) = some r) :
      key = Redis.sessionKey keyPrefix s.id ∧ r = s := by
    replace found : Redis.sessionOf (if key = Redis.sessionKey keyPrefix s.id then
      some ⟨.text (.json s), none⟩ else none) = some r := found
    split at found <;> cases found
    exact ⟨‹_›, rfl⟩
  refine ⟨fun _ => rfl, ⟨?_, ?_⟩, ?_⟩
  · intro key r found
    obtain ⟨rfl, rfl⟩ := stored found
    exact ⟨rfl, plain⟩
  · intro userID id held
    replace held : id ∈ Redis.Server.membersOf (if Redis.userKey keyPrefix userID = Redis.sessionKey keyPrefix s.id
      then some (⟨.text (.json s), none⟩ : Redis.Item Redis.Payload) else none) := held
    split at held <;> cases held
  · intro id r found
    obtain ⟨own, rfl⟩ := stored found
    obtain rfl := Redis.sessionKey_inj.mp own
    exact ⟨rfl, List.mem_cons_self ..⟩

def delivered {a : LocalAuth} (count name : Nat) (id : Uuid) : List (Move (Provider.system (.redis keyPrefix) a)) :=
  List.replicate count (.act name (answers (b := Redis.backend keyPrefix) id fun _ => ⟨.delivered, [], false⟩))

def dismissed : State (Provider.system (.redis keyPrefix) auth) :=
  (redis (session 0)).follow (.start 0 (.logoutAll (ascii "user")) :: delivered 60 0 (uuid 1))

/-- Whether a call that waits for this would write a cut-off over one that is not newer, and not read it. -/
def keepsCutoff (userID : Str) (σ : State (Provider.system (.redis keyPrefix) auth)) :
    Option (PortOp × (ports.sum (commands Redis.Payload)).Op) → Bool
  | some (.revokeAllForUser _, .inr (.set _ (.text text) _)) =>
    match Redis.decodeCutoff (.ok (some (.text text))) with
    | .ok cutoff => (Redis.view keyPrefix).cutoff σ.store userID ≤ cutoff
    | .error _ => true
  | some (.revokedBefore _, _) => false
  | _ => true

def keepsOrder (userID : Str) (σ : State (Provider.system (.redis keyPrefix) auth)) :
    Move (Provider.system (.redis keyPrefix) auth) → Bool
  | .act name _ => (σ.threads name).all fun thread => keepsCutoff userID σ thread.pending
  | _ => true

private theorem orderly_of_keepsOrder (σ : State (Provider.system (.redis keyPrefix) auth))
    (move : Move (Provider.system (.redis keyPrefix) auth)) (keeps : keepsOrder userID σ move = true) :
    (Provider.redis keyPrefix).Orderly auth userID σ move := by
  have keeping {name choose thread} (acts : move = .act name choose) (found : σ.threads name = some thread) :
      keepsCutoff userID σ thread.pending = true := by
    subst acts
    replace keeps : (σ.threads name).all (fun thread => keepsCutoff userID σ thread.pending) = true := keeps
    rwa [found] at keeps
  constructor
  · intro name choose thread trail clock ttl acts found waits
    have kept := (congrArg (keepsCutoff userID σ) waits.pending).symm.trans (keeping acts found)
    simpa [keepsCutoff, Redis.decodeCutoff_unixNano] using kept
  · intro name choose thread trail cmd clock acts found waits
    have kept := (congrArg (keepsCutoff userID σ) waits.pending).symm.trans (keeping acts found)
    cases kept

private theorem dismissed_ran : (redis (session 0)).passes (keepsOrder (ascii "user"))
    (.start 0 (.logoutAll (ascii "user")) :: delivered 60 0 (uuid 1)) = true := by
  decide +kernel

private theorem dismissed_finished : dismissed.Finished 0 (.logoutAll (ascii "user")) (.ok ()) :=
  finished_of_logsOut (by decide +kernel)

end Sample

section Final

open Sample

/-- On the memory provider in every run, on Redis in the orderly ones. -/
theorem sample_logoutAll_is_final :
    (∃ thread cutoff, loggedOut.threads 0 = some thread ∧
      (Provider.memory true).cutoffs.Recorded thread (ascii "user") cutoff ∧
      ∀ moves root s name, Opened (loggedOut.follow moves) (ascii "user") root → root.authTime ≤ cutoff →
        (Provider.memory true).sessions.Chain (memory auth) (loggedOut.follow moves) root s →
        loggedOut.threads name = none → ¬ Accepted (loggedOut.follow moves) name s.id) ∧
    ∃ thread cutoff, dismissed.threads 0 = some thread ∧
      (Provider.redis keyPrefix).cutoffs.Recorded thread (ascii "user") cutoff ∧
      ∀ last root s name, Reach ((Provider.redis keyPrefix).Orderly auth (ascii "user")) dismissed last →
        Opened last (ascii "user") root → root.authTime ≤ cutoff →
        (Provider.redis keyPrefix).sessions.Chain (redis (session 0)) last root s →
        dismissed.threads name = none → ¬ Accepted last name s.id := by
  have limits : config.Enforced := ⟨by decide, by decide⟩
  constructor
  · obtain ⟨thread, found, _, returned⟩ :=
      Thread.finished_meets (body_meets (Provider.equip auth) (.logoutAll (ascii "user"))) loggedOut_finished
    have final (moves : List (Move (Provider.system (.memory true) auth))) :=
      logoutAll_is_final_in_orderly_runs (.memory true) auth limits (memory_start _)
        (Reach.of_follow _ : Reach Guard.none (memory auth) loggedOut) (Reach.of_follow moves) found returned
    obtain ⟨cutoff, recorded⟩ := (final []).1
    exact ⟨thread, cutoff, found, recorded, fun moves root s name => (final moves).2 cutoff root s name recorded⟩
  · obtain ⟨thread, found, _, returned⟩ :=
      Thread.finished_meets (body_meets (Provider.equip auth) (.logoutAll (ascii "user"))) dismissed_finished
    have run : Reach ((Provider.redis keyPrefix).Orderly auth (ascii "user")) (redis (session 0)) dismissed :=
      .of_passes orderly_of_keepsOrder dismissed_ran
    have final {last : State (Provider.system (.redis keyPrefix) auth)}
        (after : Reach ((Provider.redis keyPrefix).Orderly auth (ascii "user")) dismissed last) :=
      logoutAll_is_final_in_orderly_runs (.redis keyPrefix) auth limits
        (redis_start _ (uuid 0).no_colon) run after found
        returned
    obtain ⟨cutoff, recorded⟩ := (final .refl).1
    exact ⟨thread, cutoff, found, recorded, fun last root s name after => (final after).2 cutoff root s name recorded⟩

end Final

namespace Sample

open Gofi.Redis

def admits (sessionID : Str) : (call : Call) → call.Result → Bool
  | .validateToken _, .ok claims => claims.sessionID = sessionID
  | _, _ => false

/-- A refresh with the token of a rotated session has read the clock in order to
revoke all sessions of the user; then `SelectTenant` takes its login time; then
`LogoutAll` runs from beginning to end. -/
def overtaken : State (Provider.system (.redis keyPrefix) auth) :=
  (redis { session 0 with revoked := true }).follow <|
    .start 0 (.refreshToken (token 0)) :: delivered 5 0 (uuid 1) ++
    .tick (.wait (clock 1)) :: .start 1 (.selectTenant LocalAuth.localProvider selection) :: delivered 9 1 (uuid 2) ++
    .tick (.wait (clock 2)) :: .start 2 (.logoutAll (ascii "user")) :: delivered 40 2 (uuid 3)

/-- The refresh writes its cut-off over the newer one, the session is saved, and
its access token is validated. -/
def readmitted : State (Provider.system (.redis keyPrefix) auth) :=
  overtaken.follow <| delivered 60 0 (uuid 1) ++ delivered 60 1 (uuid 2) ++
    .start 3 (.validateToken (uuid 2).text) :: delivered 60 3 (uuid 4)

def records (userID : Str) (now : Instant) : Event (ports.sum (commands Redis.Payload)) → Bool
  | ⟨.inr (.set key (.text text) _), .ok ()⟩ =>
    key = Redis.revokedBeforeKey keyPrefix userID && text = formatInt now.time.unixNano
  | _ => false

private theorem of_records (found : records userID now event = true) : ∃ ttl, event = Redis.sent
    (.set (Redis.revokedBeforeKey keyPrefix userID) (.text (formatInt now.time.unixNano)) ttl) (.ok ()) := by
  unfold records at found
  split at found
  · rename_i key text ttl
    simp only [Bool.and_eq_true, decide_eq_true_eq] at found
    obtain ⟨rfl, rfl⟩ := found
    exact ⟨ttl, rfl⟩
  · cases found

private theorem recorded_of_records
    {visit : Visit (Provider.system (.redis keyPrefix) a)} (visited : visit ∈ thread.visits)
    (served : visit.op = .revokeAllForUser userID) (wrote : visit.trail.any (records userID now) = true) :
    (Provider.redis keyPrefix).cutoffs.Recorded thread userID now.time := by
  obtain ⟨event, member, found⟩ := List.any_eq_true.mp wrote
  obtain ⟨ttl, rfl⟩ := of_records found
  exact ⟨_, _, .visit visited served member, rfl, now, rfl, rfl⟩

theorem overtaken_run : Reach Guard.none (redis { session 0 with revoked := true }) overtaken := .of_follow _

theorem readmitted_run : Reach Guard.none overtaken readmitted := .of_follow _

def revokesAll (user : Str) : Event ports → Bool
  | ⟨.revokeAllForUser userID, .ok ()⟩ => userID = user
  | _ => false

def opens (user sessionID : Str) (login : Time) : (call : Call) → call.Result → Bool
  | .selectTenant _ input, .ok s => input.userID = user && s.id = sessionID && s.authTime = login
  | _, _ => false

theorem readmitted_ran :
    ((overtaken.threads 2).any fun thread => thread.visits.any fun visit =>
      revokesAll (ascii "user") visit.event && visit.trail.any (records (ascii "user") (clock 2))) = true ∧
    readmitted.ended 1 (opens (ascii "user") (uuid 2).text (clock 1).time) = true ∧
    (overtaken.threads 3).isNone = true ∧ readmitted.ended 3 (admits (uuid 2).text) = true := by
  decide +kernel

theorem overtaken_recorded : ∃ thread, overtaken.threads 2 = some thread ∧
    Answered.revokeAllForUser (ascii "user") (.ok ()) ∈ thread.past ∧
    (Provider.redis keyPrefix).cutoffs.Recorded thread (ascii "user") (clock 2).time := by
  obtain ⟨thread, found, some_⟩ := (Option.any_eq_true _ _).mp readmitted_ran.1
  obtain ⟨visit, visited, both⟩ := List.any_eq_true.mp some_
  obtain ⟨served, recorded⟩ := Bool.and_eq_true_iff.mp both
  unfold revokesAll at served
  split at served
  · rename_i same
    cases of_decide_eq_true served
    refine ⟨thread, found, List.mem_map.mpr ⟨visit, visited, same⟩, recorded_of_records visited ?_ recorded⟩
    exact congrArg Event.op same
  · cases served

theorem readmitted_opened : ∃ root, Opened readmitted (ascii "user") root ∧ root.id = (uuid 2).text ∧
    root.authTime = (clock 1).time := by
  obtain ⟨call, value, finished, fine⟩ := State.finished_of_ended readmitted_ran.2.1
  unfold opens at fine
  split at fine
  · rename_i provider input s
    simp only [Bool.and_eq_true, decide_eq_true_eq] at fine
    obtain ⟨⟨user, named⟩, login⟩ := fine
    obtain ⟨thread, found, call, saved⟩ := saved_of_selected finished
    exact ⟨s, ⟨1, thread, provider, input, found, call, user, saved⟩, named, login⟩
  · cases fine

theorem readmitted_accepted : overtaken.threads 3 = none ∧ Accepted readmitted 3 (uuid 2).text := by
  obtain ⟨_, _, absent, ended⟩ := readmitted_ran
  refine ⟨Option.isNone_iff_eq_none.mp absent, ?_⟩
  obtain ⟨call, value, finished, fine⟩ := State.finished_of_ended ended
  unfold admits at fine
  split at fine
  · rename_i text claims
    rw [← of_decide_eq_true fine]
    exact .validated finished
  · cases fine

end Sample

/-- On Redis an older cut-off can be written over a newer one: `LogoutAll` has
recorded its cut-off and returned, and yet a call that begins afterwards
validates a session whose `SelectTenant` took its login time before that cut-off. -/
theorem older_cutoff_readmits_session :
    ∃ (first middle last : State (Provider.system (.redis Sample.keyPrefix) Sample.auth))
    (thread : Thread (Provider.system (.redis Sample.keyPrefix) Sample.auth)) (cutoff : Time) (root : Session)
    (name : Nat),
    (Provider.redis Sample.keyPrefix).sessions.Start first ∧ Sample.config.Enforced ∧
    Reach Guard.none first middle ∧ Reach Guard.none middle last ∧ middle.threads 2 = some thread ∧
    Answered.revokeAllForUser (ascii "user") (.ok ()) ∈ thread.past ∧
    (Provider.redis Sample.keyPrefix).cutoffs.Recorded thread (ascii "user") cutoff ∧
    Opened last (ascii "user") root ∧ root.authTime ≤ cutoff ∧
    (Provider.redis Sample.keyPrefix).sessions.Chain first last root root ∧ middle.threads name = none ∧
    Accepted last name root.id := by
  obtain ⟨thread, found, returned, recorded⟩ := Sample.overtaken_recorded
  obtain ⟨root, opened, named, login⟩ := Sample.readmitted_opened
  obtain ⟨absent, accepted⟩ := Sample.readmitted_accepted
  have known : (Provider.redis Sample.keyPrefix).sessions.Known
      (Sample.redis { Sample.session 0 with revoked := true }) Sample.readmitted root := by
    obtain ⟨_, _, _, _, present, _, _, saved⟩ := opened
    exact .saved present saved
  have early : root.authTime ≤ (Sample.clock 2).time := by
    rw [login]
    decide
  exact ⟨_, _, _, thread, _, root, 3, Sample.redis_start _ (Sample.uuid 0).no_colon, ⟨by decide, by decide⟩,
    Sample.overtaken_run, Sample.readmitted_run, found, returned, recorded, opened, early, .head known, absent,
    named ▸ accepted⟩

end Gofi.Iam
