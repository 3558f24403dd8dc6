import Gofi.Iam.Facts

/-! What the service relies on in a session store, stated over whole runs: a
stored session changes only in its revocation, which is never taken back, and
nothing is revoked unless a call asked for it. Both providers are shown to be
such stores; the properties of the service are derived from this alone. -/

namespace Gofi.Iam

open Gofi.Concurrent Gofi.Go

namespace Session

def identity (s : Session) : Session := { s.sanitize with revoked := false, revokedAt := none, revokedBy := [] }

variable {r s : Session}

theorem identity_id (same : s.identity = r.identity) : s.id = r.id := by
  have fields := congrArg Session.id same
  exact fields

theorem identity_userID (same : s.identity = r.identity) : s.userID = r.userID := by
  have fields := congrArg userID same
  exact fields

theorem identity_loginTime (same : s.identity = r.identity) : s.loginTime = r.loginTime := by
  have fields := congrArg loginTime same
  exact fields

theorem identity_expiresAt (same : s.identity = r.identity) : s.expiresAt = r.expiresAt := by
  have fields := congrArg expiresAt same
  exact fields

end Session

def PortOp.MayRevoke (op : PortOp) (s : Session) : Prop :=
  op = .revoke s.id ∨ op = .revokeIfActive s.id ∨ op = .revokeAllForUser s.userID

/-- How to read a store: the session under an id, expired ones included; the
recorded cut-off of a user, zero when there is none; which operations write a
new session, and which answers tell their caller that it was the one to revoke. -/
structure SessionView (b : Backend) where
  record : b.Store → Str → Option Session
  cutoff : b.Store → Str → Time
  writes : b.atoms.Op → Option Session
  claims : (op : b.atoms.Op) → b.atoms.Ans op → Option Str
  /-- What the service may find, given the ids drawn before. -/
  Sound : List Str → b.Store → Prop
  plain : b.Plain
  /-- New sessions are written for `Save` alone, once each, without their raw tokens. -/
  saves : ∀ op, (b.impl op).Meets (fun trail atom => ∀ write s, atom = Sum.inr write →
    writes write = some s → (∃ given, op = .save given ∧ s = given.sanitize) ∧
      ∀ earlier ans, Script.did b.atoms earlier ans ∈ trail → writes earlier = none) (fun _ _ => True) []

namespace SessionView

variable {b : Backend} (view : SessionView b) {a : LocalAuth}

/-- A state in which the service may start: no call runs, and every stored
session stands under its own id, which counts as drawn. -/
structure Start (first : State (b.system a)) : Prop where
  quiet : ∀ name, first.threads name = none
  sound : view.Sound first.issued first.store
  known : ∀ id s, view.record first.store id = some s → s.id = id ∧ id ∈ first.issued

/-- A version of the session under this id: of one stored from the start, or of
one that a call has written. -/
inductive Genuine (first σ : State (b.system a)) (id : Str) (s : Session) : Prop where
  | initial (stored : view.record first.store id = some r) (same : s.identity = r.identity)
  | written {thread : Thread (b.system a)} {ans : b.atoms.Ans atom} (found : σ.threads name = some thread)
      (wrote : Script.did b.atoms atom ans ∈ thread.low) (new : view.writes atom = some r)
      (named : r.id = id) (same : s.identity = r.identity)

variable {first σ : State (b.system a)} {id : Str}

theorem Genuine.congr (genuine : view.Genuine first σ id s)
    (same : s'.identity = s.identity) : view.Genuine first σ id s' := by
  cases genuine with
  | initial stored old => exact .initial stored (same.trans old)
  | written found wrote new named old => exact .written found wrote new named (same.trans old)

variable {after : State (b.system a)}

theorem Genuine.moved (genuine : view.Genuine first σ id s)
    (moved : State.Moved σ move after) : view.Genuine first after id s := by
  cases genuine with
  | initial stored same => exact .initial stored same
  | written found wrote new named same =>
    obtain ⟨later, arrived, onward⟩ := moved.continues found
    exact .written arrived (onward.low.subset wrote) new named same

theorem Genuine.named (start : view.Start first) (genuine : view.Genuine first σ id s) : s.id = id := by
  cases genuine with
  | initial stored same => exact (Session.identity_id same).trans (start.known _ _ stored).1
  | written _ _ _ named same => exact (Session.identity_id same).trans named

theorem asked_of_wrote {thread : Thread (b.system a)}
    (wrote : Script.did b.atoms atom ans ∈ thread.low) (new : view.writes atom = some s) :
    ∃ given, thread.Asked (.save given) ∧ s = given.sanitize := by
  obtain ⟨op, did⟩ := Thread.did_of_low wrote
  obtain ⟨asked, trail, rest, run, inside⟩ := did.asked
  obtain ⟨earlier, _, permitted⟩ := (view.saves op).performed run inside
  obtain ⟨⟨given, rfl, same⟩, _⟩ := permitted atom s rfl new
  exact ⟨given, asked, same⟩

def Held (first σ : State (b.system a)) (id : Str) (s : Session) : Prop :=
  ∃ middle, Reach Guard.none first middle ∧ Reach Guard.none middle σ ∧ view.record middle.store id = some s

theorem Held.moved (held : view.Held first σ id s) (moved : State.Moved σ move after) :
    view.Held first after id s := by
  obtain ⟨middle, before, since, stored⟩ := held
  exact ⟨middle, before, .next since trivial (State.step_of_moved moved), stored⟩

end SessionView

structure SessionStore (b : Backend) extends SessionView b where
  /-- What is stored under an id is a version of what was written there. -/
  genuine : ∀ {a : LocalAuth} {first σ : State (b.system a)}, toSessionView.Start first →
    Reach Guard.none first σ → ∀ {id s}, record σ.store id = some s → toSessionView.Genuine first σ id s
  /-- What a call reads under an id was stored there. -/
  got : ∀ {a : LocalAuth} {first σ : State (b.system a)} {name : Nat} {thread : Thread (b.system a)},
    toSessionView.Start first → Reach Guard.none first σ → σ.threads name = some thread →
    ∀ {id s}, Answered.get id (.ok (some s)) ∈ thread.past → toSessionView.Held first σ id s
  /-- An operation writes a new session, or revokes one it was asked to revoke, or
  leaves the session as it is. -/
  revises : ∀ {a : LocalAuth} {first σ : State (b.system a)} {name : Nat} {thread : Thread (b.system a)}
    {op : PortOp} {trail : History (ports.sum b.atoms)} {atom : b.atoms.Op} {luck : b.Luck atom} {ans store},
    toSessionView.Start first → Reach Guard.none first σ → σ.threads name = some thread →
    thread.Waits op trail (.inr atom) → b.respond name σ.clock σ.store atom luck = some (ans, store) →
    ∀ id, record store id = record σ.store id ∨
      (∃ s, writes atom = some s ∧ s.id = id ∧ record store id = some s) ∨
      (∃ s, record store id = some s ∧ s.revoked = true ∧ op.MayRevoke s)
  /-- An answer that tells its caller to have revoked a session: it was not revoked before. -/
  flips : ∀ {a : LocalAuth} {first σ : State (b.system a)} {name : Nat} {thread : Thread (b.system a)}
    {op : PortOp} {trail : History (ports.sum b.atoms)} {atom : b.atoms.Op} {luck : b.Luck atom} {ans store id},
    toSessionView.Start first → Reach Guard.none first σ → σ.threads name = some thread →
    thread.Waits op trail (.inr atom) → b.respond name σ.clock σ.store atom luck = some (ans, store) →
    claims atom ans = some id → (∃ s, record σ.store id = some s ∧ s.revoked = false) ∧
      ∃ s, record store id = some s ∧ s.revoked = true
  claimed : ∀ id, (b.impl (.revokeIfActive id)).Meets (fun _ _ => True) (fun trail r => r = .ok true →
    ∃ atom ans, Script.did b.atoms atom ans ∈ trail ∧ claims atom ans = some id) []
  /-- A cut-off is recorded for `RevokeAllForUser` alone. -/
  cutoffs : ∀ {a : LocalAuth} {first σ : State (b.system a)} {name : Nat} {thread : Thread (b.system a)}
    {op : PortOp} {trail : History (ports.sum b.atoms)} {atom : b.atoms.Op} {luck : b.Luck atom} {ans store},
    toSessionView.Start first → Reach Guard.none first σ → σ.threads name = some thread →
    thread.Waits op trail (.inr atom) → b.respond name σ.clock σ.store atom luck = some (ans, store) →
    ∀ userID, cutoff store userID = cutoff σ.store userID ∨ op = .revokeAllForUser userID
  keeps : ∀ {clock store work later}, b.chore clock store work = some later →
    record later = record store ∧ cutoff later = cutoff store

namespace SessionStore

variable {b : Backend} (store : SessionStore b) {a : LocalAuth} {first σ : State (b.system a)}

theorem fresh_write {thread : Thread (b.system a)} (start : store.Start first)
    (run : Reach Guard.none first σ) (found : σ.threads name = some thread)
    (waits : thread.Waits op trail (.inr atom)) (new : store.writes atom = some s) :
    store.record σ.store s.id = none := by
  obtain ⟨⟨given, rfl, rfl⟩, silent⟩ := Thread.waits_allowed (store.saves op) waits atom s rfl new
  have asked : thread.Asked (.save given) := Thread.asked_of_waits waits
  cases stored : store.record σ.store given.sanitize.id with
  | none => rfl
  | some r =>
    exfalso
    cases store.genuine start run stored with
    | initial old => exact Backend.save_new store.plain start.quiet run found asked (start.known _ _ old).2
    | @written earlier ans name' s' other otherFound wrote earlierNew named =>
      obtain ⟨given', otherAsked, rfl⟩ := store.asked_of_wrote wrote earlierNew
      obtain ⟨rfl, rfl⟩ := Backend.save_unique store.plain start.quiet run otherFound found otherAsked asked named
      rw [found, Option.some.injEq] at otherFound
      subst otherFound
      rw [Thread.low_of_waits waits] at wrote
      rcases List.mem_append.mp wrote with here | before
      · rw [silent earlier _ here] at earlierNew
        cases earlierNew
      · obtain ⟨op, reply, trail, seen, ran, inside⟩ := Thread.mem_trails before
        obtain ⟨_, _, permitted⟩ := (store.saves op).performed ran inside
        obtain ⟨⟨given'', rfl, _⟩, _⟩ := permitted earlier _ rfl earlierNew
        exact (Thread.inside_allowed (body_meets a thread.call) waits).2 given'' reply seen

variable {id : Str}

theorem genuine_of_held (start : store.Start first) (held : store.Held first σ id s) : store.Genuine first σ id s := by
  obtain ⟨middle, before, since, stored⟩ := held
  refine since.invariant (fun σ => store.Genuine first σ id s) (store.genuine start before stored) ?_
  intro σ move after _ genuine _ moved
  exact genuine.moved _ moved

theorem same_identity (start : store.Start first) (run : Reach Guard.none first σ)
    (left : store.Genuine first σ id s) (right : store.Genuine first σ id r) : s.identity = r.identity := by
  have apart {name : Nat} {stored given : Session} {thread : Thread (b.system a)}
      (old : store.record first.store id = some stored) (found : σ.threads name = some thread)
      (asked : thread.Asked (.save given)) (named : given.sanitize.id = id) : False :=
    Backend.save_new store.plain start.quiet run found asked (named ▸ (start.known _ _ old).2)
  cases left with
  | initial old same =>
    cases right with
    | initial old' same' =>
      rw [old, Option.some.injEq] at old'
      rw [same, same', old']
    | written found wrote new named =>
      obtain ⟨given, asked, rfl⟩ := store.asked_of_wrote wrote new
      exact (apart old found asked named).elim
  | written found wrote new named same =>
    obtain ⟨given, asked, rfl⟩ := store.asked_of_wrote wrote new
    cases right with
    | initial old' => exact (apart old' found asked named).elim
    | written found' wrote' new' named' same' =>
      obtain ⟨given', asked', rfl⟩ := store.asked_of_wrote wrote' new'
      obtain ⟨_, rfl⟩ := Backend.save_unique store.plain start.quiet run found found' asked asked'
        (named.trans named'.symm)
      rw [same, same']

theorem revoked_step {after : State (b.system a)} (start : store.Start first)
    (run : Reach Guard.none first σ) (moved : State.Moved σ move after)
    (stored : store.record σ.store id = some s) (revoked : s.revoked = true) :
    ∃ r, store.record after.store id = some r ∧ r.revoked = true := by
  cases Backend.effect moved with
  | still same => exact ⟨s, by rw [same]; exact stored, revoked⟩
  | acted running waits responded =>
    rcases store.revises start run running waits responded id with kept | ⟨new, writes, rfl, wrote⟩ |
      ⟨r, wrote, isRevoked, _⟩
    · exact ⟨s, kept.trans stored, revoked⟩
    · rw [store.fresh_write start run running waits writes] at stored
      cases stored
    · exact ⟨r, wrote, isRevoked⟩
  | chore did => exact ⟨s, by rw [(store.keeps did).1]; exact stored, revoked⟩

structure Claimed (σ : State (b.system a)) : Prop where
  revoked : ∀ {name thread atom ans id}, σ.threads name = some thread →
    Script.did b.atoms atom ans ∈ thread.low → store.claims atom ans = some id →
    ∃ s, store.record σ.store id = some s ∧ s.revoked = true
  single : ∀ {left right one other oneAtom oneAns otherAtom otherAns id}, σ.threads left = some one →
    σ.threads right = some other → Script.did b.atoms oneAtom oneAns ∈ one.low →
    Script.did b.atoms otherAtom otherAns ∈ other.low → store.claims oneAtom oneAns = some id →
    store.claims otherAtom otherAns = some id → left = right

theorem claimed_always (start : store.Start first) (run : Reach Guard.none first σ) : store.Claimed σ := by
  refine run.invariant store.Claimed ⟨?_, ?_⟩ ?_
  · intro name thread atom ans id found
    rw [start.quiet name] at found
    cases found
  · intro left right one other oneAtom oneAns otherAtom otherAns id found
    rw [start.quiet left] at found
    cases found
  · intro σ move after reached holds _ moved
    have flipped {name : Nat} {before : Thread (b.system a)} {op : PortOp}
        {trail : History (ports.sum b.atoms)} {atom : b.atoms.Op} {ans : b.atoms.Ans atom} {id : Str}
        {luck : b.Luck atom} (present : σ.threads name = some before) (waits : before.Waits op trail (.inr atom))
        (answered : b.answer name σ.world (.inr atom) luck = some (ans, after.world))
        (claim : store.claims atom ans = some id) :
        (∃ s, store.record σ.store id = some s ∧ s.revoked = false) ∧
          ∃ s, store.record after.store id = some s ∧ s.revoked = true := by
      obtain ⟨later, responded, world⟩ := Backend.answer_inr _ answered
      simp only [State.store, world]
      exact store.flips start reached present waits responded claim
    refine ⟨?_, ?_⟩
    · intro name thread atom ans id found member claim
      rcases moved.observed found member with ⟨before, present, old⟩ |
        ⟨before, op, trail, choose, present, waits, rfl, answered⟩
      · obtain ⟨s, stored, revoked⟩ := holds.revoked present old claim
        exact store.revoked_step start reached moved stored revoked
      · exact (flipped present waits answered claim).2
    · intro left right one other oneAtom oneAns otherAtom otherAns id oneFound otherFound oneDid otherDid
        oneClaim otherClaim
      have clash {stored active : Session} (old : store.record σ.store id = some stored)
          (revoked : stored.revoked = true) (now : store.record σ.store id = some active)
          (alive : active.revoked = false) : False := by
        rw [old, Option.some.injEq] at now
        subst now
        rw [alive] at revoked
        cases revoked
      rcases moved.observed oneFound oneDid with ⟨oneBefore, onePresent, oneOld⟩ |
          ⟨oneBefore, op, trail, choose, onePresent, waits, rfl, answered⟩ <;>
        rcases moved.observed otherFound otherDid with ⟨otherBefore, otherPresent, otherOld⟩ |
          ⟨otherBefore, op', trail', choose', otherPresent, waits', moving, answered'⟩
      · exact holds.single onePresent otherPresent oneOld otherOld oneClaim otherClaim
      · obtain ⟨stored, old, revoked⟩ := holds.revoked onePresent oneOld oneClaim
        obtain ⟨⟨active, now, alive⟩, _⟩ := flipped otherPresent waits' answered' otherClaim
        exact (clash old revoked now alive).elim
      · obtain ⟨stored, old, revoked⟩ := holds.revoked otherPresent otherOld otherClaim
        obtain ⟨⟨active, now, alive⟩, _⟩ := flipped onePresent waits answered oneClaim
        exact (clash old revoked now alive).elim
      · cases moving
        rfl

theorem claim_unique (start : store.Start first) (run : Reach Guard.none first σ)
    (leftFound : σ.threads left = some one) (rightFound : σ.threads right = some other)
    (leftClaim : Answered.revokeIfActive id (.ok true) ∈ one.past)
    (rightClaim : Answered.revokeIfActive id (.ok true) ∈ other.past) : left = right := by
  have behind {thread : Thread (b.system a)} (claim : Answered.revokeIfActive id (.ok true) ∈ thread.past) :
      ∃ atom ans, Script.did b.atoms atom ans ∈ thread.low ∧ store.claims atom ans = some id := by
    obtain ⟨trail, sound, inside⟩ := Thread.visited claim
    obtain ⟨atom, ans, did, named⟩ := (store.claimed id).along sound rfl
    exact ⟨atom, ans, Thread.low_of_did (inside _ did), named⟩
  obtain ⟨oneAtom, oneAns, oneDid, oneClaim⟩ := behind leftClaim
  obtain ⟨otherAtom, otherAns, otherDid, otherClaim⟩ := behind rightClaim
  exact (store.claimed_always start run).single leftFound rightFound oneDid otherDid oneClaim otherClaim

end SessionStore

end Gofi.Iam
