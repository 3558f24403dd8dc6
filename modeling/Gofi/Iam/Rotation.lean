import Gofi.Iam.Provider

/-! Refresh rotation: of all the calls that present one refresh token, one at
most replaces the session, and a revocation is never taken back. -/

namespace Gofi.Iam

open Gofi.Concurrent Gofi.Go

namespace SessionStore

variable {b : Backend} (store : SessionStore b) {a : LocalAuth} {first σ : State (b.system a)}

variable {thread : Thread (b.system a)}

theorem presented_id (start : store.Start first) (run : Reach Guard.none first σ)
    (found : σ.threads name = some thread) (presented : Presented a.lib token thread.past s) :
    parseRefreshToken token = .ok s.id := by
  obtain ⟨id, parsed, read, _⟩ := presented
  have genuine := store.genuine_of_held start (store.got start run found read)
  rw [parsed, genuine.named _ start]

theorem claimed_of_saved (start : store.Start first) (run : Reach Guard.none first σ)
    (revoker : a.revoker = true) (found : σ.threads name = some thread) (call : thread.call = .refreshToken token)
    (saved : thread.Asked (.save s)) :
    ∃ id, parseRefreshToken token = .ok id ∧ Answered.revokeIfActive id (.ok true) ∈ thread.past := by
  obtain ⟨earlier, suffix, issued, _⟩ := Thread.asked_allowed (body_meets a thread.call) saved
  rw [call] at issued
  obtain ⟨existing, refreshable, claimed, _⟩ := issued.rotation
  have presented := refreshable.presented.mono suffix.subset
  exact ⟨existing.id, store.presented_id start run found presented, suffix.subset (claimed revoker)⟩

end SessionStore

/-- Of all the calls that refresh with one token, whatever runs beside them, one
at most saves a successor session, and it saves one; and no step of any call
takes back the revocation of a stored session. -/
theorem refresh_rotates_at_most_once (p : Provider) (a : LocalAuth) {first last : State (p.system a)}
    (start : p.sessions.Start first) (run : Reach Guard.none first last) :
    (∀ token left right one other s s', last.threads left = some one → last.threads right = some other →
      one.call = .refreshToken token → other.call = .refreshToken token →
      one.Asked (.save s) → other.Asked (.save s') → left = right ∧ s = s') ∧
    ∀ move after id s, last.step move = some after → p.sessions.record last.store id = some s →
      s.revoked = true → ∃ r, p.sessions.record after.store id = some r ∧ r.revoked = true := by
  refine ⟨?_, ?_⟩
  · intro token left right one other s s' oneFound otherFound oneCall otherCall oneSaved otherSaved
    obtain ⟨id, parsed, oneClaim⟩ := p.sessions.claimed_of_saved start run rfl oneFound oneCall oneSaved
    obtain ⟨id', parsed', otherClaim⟩ := p.sessions.claimed_of_saved start run rfl otherFound otherCall otherSaved
    obtain rfl : id = id' := Except.ok.inj (parsed.symm.trans parsed')
    obtain rfl := p.sessions.claim_unique start run oneFound otherFound oneClaim otherClaim
    rw [oneFound, Option.some.injEq] at otherFound
    subst otherFound
    exact ⟨rfl, Backend.save_once oneSaved otherSaved⟩
  · intro move after id s stepped stored revoked
    exact p.sessions.revoked_step start run (State.moved_of_step stepped) stored revoked

/-! A small configuration, one stored session and an obliging application. -/

namespace Sample

def config : AuthConfig where
  accessTokenTTL := 15 * Time.minute
  refreshTokenTTL := 7 * Time.day
  sessionMaxLifetime := 30 * Time.day
  issuer := ascii "gofi/iam"
  ticketKey := ascii "key"
  skipTicket := true
  dummyPasswordHash := []
  tickets := false
  refreshTokenTTL_lt := by decide
  sessionMaxLifetime_lt := by decide

def library : Library where
  sha256 := id
  hmacSHA256 key message := key ++ message
  toLower := id
  trimSpace := id

def jti : RandText where
  text := List.replicate 26 65
  size := List.length_replicate
  letters byte member := by
    rw [List.eq_of_mem_replicate member]
    decide

def auth : LocalAuth where
  lib := library
  cfg := config
  tenant := true
  revocationStore := true
  user := true
  throttle := false
  dummyVerifier := false
  revoker := true

instance neZero_digits : NeZero 10 := ⟨by decide⟩

instance neZero_offsets : NeZero (10 ^ 18) := ⟨by decide⟩

private theorem clock_lower (offset : Fin (10 ^ 18)) :
    -2 ^ 63 ≤ 63900000000 * Time.second + offset.val - Time.unixEpoch := by
  norm_num [Time.second, Time.unixEpoch, Time.unixSeconds] at *
  lia

private theorem clock_upper (offset : Fin (10 ^ 18)) :
    63900000000 * Time.second + offset.val - Time.unixEpoch < 2 ^ 63 := by
  have := offset.isLt
  norm_num [Time.second, Time.unixEpoch, Time.unixSeconds] at *
  lia

def clock (offset : Fin (10 ^ 18)) : Instant where
  time := 63900000000 * Time.second + offset.val
  lower := clock_lower offset
  upper := clock_upper offset

def uuid (digit : Fin 10) : Uuid where
  text := List.replicate 36 (UInt8.ofNat (48 + digit.val))
  size := List.length_replicate
  letters byte member := by
    rw [List.eq_of_mem_replicate member]
    clear member byte
    revert digit
    decide

def token (digit : Fin 10) : Str := (uuid digit).text ++ ascii "." ++ Base64.encode (List.replicate 32 0)

def selection : SelectTenantInput := ⟨ascii "user", ascii "tenant", ascii "module", [], 0, [], [], [], [], []⟩

def session (digit : Fin 10) : Session := {
  auth.issueSession (SessionIssuer.selectSeed LocalAuth.localProvider selection (clock 0).time)
    (clock 0).time (uuid digit).text [] (token digit) with refreshToken := [] }

/-- What the application answers when nothing goes wrong: `id` is the next UUID,
and an access token is the id of its session. -/
def answers {b : Backend} (id : Uuid) (luck : (op : b.atoms.Op) → b.Luck op) :
    (op : (ports.sum b.atoms).Op) → Sum.elim ports.Ans b.Luck op
  | .inl .now => clock 0
  | .inl .newUUID => id
  | .inl .randText => jti
  | .inl (.randRead n) => Except.ok (ε := Err) ⟨List.replicate n 0, List.length_replicate⟩
  | .inl (.emit _) => ()
  | .inl (.findByID userID) => Except.ok (ε := Err) (some ⟨userID, true⟩)
  | .inl (.findByEmail _) => Except.ok (ε := Err) (some ⟨ascii "user", true⟩)
  | .inl (.validatePassword _ _) => Except.ok (ε := Err) ()
  | .inl (.dummyValidatePassword _) => ()
  | .inl (.listUserTenants _) => Except.ok (ε := Err) []
  | .inl (.assertAccess _ _ _) => Except.ok (ε := Err) ()
  | .inl (.issueAccessToken claims) => Except.ok (ε := Err) claims.sessionID
  | .inl (.parseToken text) =>
    Except.ok (ε := Err) ⟨ascii "user", ascii "tenant", ascii "module", [], text, [], [], 0, 0, []⟩
  | .inl (.allow _) => Except.ok (ε := Err) ()
  | .inl (.failure _) => Except.ok (ε := Err) ()
  | .inl (.success _) => Except.ok (ε := Err) ()
  | .inl (.consume _ _) => Except.ok (ε := Err) true
  | .inl (.save _) => Except.ok (ε := Err) ()
  | .inl (.get _) => Except.ok (ε := Err) none
  | .inl (.revoke _) => Except.ok (ε := Err) ()
  | .inl (.revokeAllForUser _) => Except.ok (ε := Err) ()
  | .inl (.revokeIfActive _) => Except.ok (ε := Err) true
  | .inl (.revokedBefore _) => Except.ok (ε := Err) (0 : Time)
  | .inr op => luck op

def performed {a : LocalAuth} (count name : Nat) (id : Uuid) : List (Move (Provider.system (.memory true) a)) :=
  List.replicate count (.act name (answers (b := Memory.backend true) id fun _ => ()))

def memory (a : LocalAuth) : State (Provider.system (.memory true) a) where
  world := {
    clock := clock 0
    issued := [(session 0).id]
    store := {
      objects := fun id => if id = (session 0).id then some (session 0) else none
      listed := fun id => id = (session 0).id
      revokedBefore := fun _ => 0 } }
  threads := fun _ => none
  log := []

theorem memory_start (a : LocalAuth) : (Provider.sessions (.memory true)).Start (memory a) where
  quiet _ := rfl
  sound := trivial
  known id s stored := by
    replace stored : (if id = (session 0).id then some (session 0) else none) = some s := stored
    split at stored <;> cases stored
    rename_i same
    exact ⟨same.symm, same ▸ List.mem_cons_self ..⟩

def refreshed : State (Provider.system (.memory true) auth) :=
  (memory auth).follow (.start 0 (.refreshToken (token 0)) :: performed 60 0 (uuid 1))

theorem refreshed_run : Reach Guard.none (memory auth) refreshed := .of_follow _

def rotates (presented successor : Str) : (call : Call) → call.Result → Bool
  | .refreshToken text, .ok s => text = presented && s.id = successor
  | _, _ => false

theorem refreshed_finished : ∃ s, s.id = (uuid 1).text ∧ refreshed.Finished 0 (.refreshToken (token 0)) (.ok s) := by
  have ended : refreshed.ended 0 (rotates (token 0) (uuid 1).text) = true := by decide +kernel
  obtain ⟨call, value, finished, fine⟩ := State.finished_of_ended ended
  unfold rotates at fine
  split at fine
  · rename_i presented s
    simp only [Bool.and_eq_true, decide_eq_true_eq] at fine
    obtain ⟨rfl, named⟩ := fine
    exact ⟨s, named, finished⟩
  · cases fine

end Sample

theorem sample_rotates_once : Sample.refreshed.threads 0 ≠ none ∧
    ∀ name thread s, Sample.refreshed.threads name = some thread →
      thread.call = .refreshToken (Sample.token 0) → thread.Asked (.save s) → name = 0 := by
  obtain ⟨s, _, finished⟩ := Sample.refreshed_finished
  obtain ⟨renewed, found, call, saved⟩ :=
    Thread.finished_meets (body_meets (Provider.equip Sample.auth) (.refreshToken (Sample.token 0))) finished
  have once := refresh_rotates_at_most_once (.memory true) Sample.auth (Sample.memory_start _)
    Sample.refreshed_run
  refine ⟨by simp [found], fun name thread s' present same asked => ?_⟩
  exact (once.1 _ name 0 thread renewed s' s present found same call asked (Thread.asked_of_past saved)).1

end Gofi.Iam
