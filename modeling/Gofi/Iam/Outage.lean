import Gofi.Iam.Rotation

/-! What a refresh that one of its dependencies interrupts leaves in the session
store. A single call runs here; the store is any that keeps to its port. -/

namespace Gofi.Iam

open Gofi.Concurrent Gofi.Go

def PortOp.Writes : PortOp → Prop
  | .save _ | .revoke _ | .revokeIfActive _ | .revokeAllForUser _ => True
  | _ => False

def PortOp.Revokes : PortOp → Prop
  | .revoke _ | .revokeIfActive _ => True
  | _ => False

theorem PortOp.Revokes.writes {op : PortOp} (revokes : op.Revokes) : op.Writes := by
  cases op with
  | revoke id | revokeIfActive id => trivial
  | _ => exact revokes.elim

/-- The operations by which a refresh finds out whether it may rotate. -/
def PortOp.LooksUp : PortOp → Prop
  | .get _ | .revokedBefore _ | .findByID _ | .assertAccess _ _ _ | .listUserTenants _ => True
  | _ => False

def Failed : Event ports → Bool
  | ⟨.get _, .error _⟩ => true
  | ⟨.revokedBefore _, .error _⟩ => true
  | ⟨.findByID _, .error _⟩ => true
  | ⟨.assertAccess _ _ _, .error _⟩ => true
  | ⟨.listUserTenants _, .error _⟩ => true
  | ⟨.revoke _, .error _⟩ => true
  | ⟨.revokeIfActive _, .error _⟩ => true
  | ⟨.issueAccessToken _, .error _⟩ => true
  | ⟨.randRead _, .error _⟩ => true
  | ⟨.save _, .error _⟩ => true
  | _ => false

def Smooth (past : History ports) : Prop := ∀ event ∈ past, Failed event = false

structure Ready (past : History ports) : Prop where
  smooth : Smooth past
  calm : ∀ event ∈ past, ¬ event.op.Writes

structure Rotating (past : History ports) : Prop where
  smooth : Smooth past
  revoked : ∃ event ∈ past, event.op.Revokes

/-- The order of a refresh: it looks up, revokes and then issues; once something
has failed it only reads the clock and emits events. -/
def Due (past : History ports) : PortOp → Prop
  | .now | .emit _ => True
  | .newUUID | .issueAccessToken _ | .randRead _ | .save _ => Rotating past
  | _ => Ready past

theorem Ready.cons {past : History ports} (ready : Ready past) (fine : Failed event = false)
    (reads : ¬ event.op.Writes) : Ready (event :: past) :=
  ⟨List.forall_mem_cons.mpr ⟨fine, ready.smooth⟩, List.forall_mem_cons.mpr ⟨reads, ready.calm⟩⟩

theorem Rotating.cons {past : History ports} (rotating : Rotating past) (fine : Failed event = false) :
    Rotating (event :: past) := by
  obtain ⟨old, member, revokes⟩ := rotating.revoked
  exact ⟨List.forall_mem_cons.mpr ⟨fine, rotating.smooth⟩, old, List.mem_cons_of_mem _ member, revokes⟩

section Order

variable {past : History ports} (a : LocalAuth)

theorem emitNow_due (event : Time → IAMEvent)
    (then_ : ∀ clock, post (⟨.emit (event clock.time), ()⟩ :: Answered.now clock :: past) ()) :
    (Port.emitNow event).Meets Due post past := ⟨trivial, fun clock => ⟨trivial, fun _ => then_ clock⟩⟩

private theorem issue_due (seed : Session) (roles : List Str) (now : Time) (rotating : Rotating past) :
    (a.issue seed roles now).Meets Due (fun _ _ => True) past := by
  refine ⟨rotating, fun id => ?_⟩
  have drawn : Rotating (Answered.newUUID id :: past) := rotating.cons rfl
  refine ⟨drawn, fun accessToken => ?_⟩
  cases accessToken with
  | error err => trivial
  | ok accessToken =>
    refine ⟨drawn.cons rfl, fun random => ?_⟩
    cases random with
    | error err => trivial
    | ok bytes =>
      refine ⟨(drawn.cons rfl).cons rfl, fun saved => ?_⟩
      cases saved <;> trivial

private theorem revokeAllOnReuse_due (s : Session) (ready : Ready past) :
    (LocalAuth.revokeAllOnReuse s).Meets Due (fun _ _ => True) past := by
  refine ⟨ready, fun reply => ?_⟩
  cases reply with
  | error err | ok done => exact ⟨trivial, fun _ => ⟨trivial, fun _ => trivial⟩⟩

private theorem refreshable_due (token : Str) (ready : Ready past) :
    (a.refreshable token).Meets Due (fun later r => ∀ s, r = .ok s → Ready later) past := by
  have refused (past : History ports) (err : Err) : (Prog.done (.error err) : Port (Except Err Session)).Meets Due
      (fun later r => ∀ s, r = .ok s → Ready later) past := fun s ok => nomatch ok
  unfold LocalAuth.refreshable
  split
  · exact (emitNow_due _ fun _ => trivial).bind fun _ _ (_ : True) => refused _ _
  · rename_i id parsed
    refine ⟨ready, fun reply => ?_⟩
    rcases reply with err | _ | existing
    · exact (emitNow_due _ fun _ => trivial).bind fun _ _ (_ : True) => refused _ _
    · exact (emitNow_due _ fun _ => trivial).bind fun _ _ (_ : True) => refused _ _
    · have got : Ready (Answered.get id (.ok (some existing)) :: past) := ready.cons rfl not_false
      simp only [Prog.done_bind]
      split
      · exact (emitNow_due _ fun _ => trivial).bind fun _ _ (_ : True) => refused _ _
      · split
        · exact (revokeAllOnReuse_due existing got).bind fun _ err _ => refused _ err
        · refine ⟨trivial, fun clock => ?_⟩
          have read : Ready (Answered.now clock :: Answered.get id (.ok (some existing)) :: past) :=
            got.cons rfl not_false
          simp only [Prog.done_bind]
          split
          · exact refused _ _
          · unfold SessionIssuer.checkUserCutoff
            split
            · exact fun _ _ => read
            · refine ⟨read, fun reply => ?_⟩
              cases reply with
              | error err => exact refused _ err
              | ok cutoff =>
                simp only [Prog.pure_eq, Prog.done_bind]
                split
                · exact refused _ _
                · exact fun _ _ => read.cons rfl not_false

private theorem revalidate_due (s : Session) (ready : Ready past) :
    (LocalAuth.revalidate s).Meets Due (fun later r => r = .ok () → Ready later) past := by
  refine ⟨ready, fun reply => ?_⟩
  cases reply with
  | error err => exact fun ok => nomatch ok
  | ok user =>
    have found : Ready ((⟨.findByID s.userID, .ok user⟩ : Event ports) :: past) := ready.cons rfl not_false
    simp only [Prog.done_bind]
    split
    · refine ⟨found, fun revoked => ?_⟩
      cases revoked with
      | error err | ok done => exact ⟨trivial, fun _ => ⟨trivial, fun _ ok => nomatch ok⟩⟩
    · refine ⟨found, fun access => ?_⟩
      cases access with
      | ok done => exact fun _ => found.cons rfl not_false
      | error err =>
        simp only [Prog.done_bind]
        split
        · exact fun ok => nomatch ok
        · exact ⟨trivial, fun _ => ⟨trivial, fun _ ok => nomatch ok⟩⟩

private theorem revokeForRotation_due (s : Session) (ready : Ready past) :
    (a.revokeForRotation s).Meets Due (fun later r => r = .ok () → Rotating later) past := by
  have revoked {event : Event ports} (fine : Failed event = false) (revokes : event.op.Revokes) :
      Rotating (event :: past) :=
    ⟨List.forall_mem_cons.mpr ⟨fine, ready.smooth⟩, event, List.mem_cons_self .., revokes⟩
  unfold LocalAuth.revokeForRotation
  split
  · refine ⟨ready, fun reply => ?_⟩
    cases reply with
    | error err => exact fun ok => nomatch ok
    | ok done => exact fun _ => revoked rfl trivial
  · refine ⟨ready, fun reply => ?_⟩
    cases reply with
    | error err => exact fun ok => nomatch ok
    | ok won =>
      simp only [Prog.done_bind]
      split
      · exact ⟨trivial, fun _ => ⟨trivial, fun _ ok => nomatch ok⟩⟩
      · exact fun _ => revoked rfl trivial

theorem refreshToken_due (token : Str) : (a.refreshToken token).Meets Due (fun _ _ => True) [] := by
  have ready : Ready [] := ⟨by simp [Smooth], by simp⟩
  unfold LocalAuth.refreshToken
  split
  · trivial
  · refine (refreshable_due a token ready).bind fun later reply found => ?_
    cases reply with
    | error err => trivial
    | ok existing =>
      refine (revalidate_due existing (found existing rfl)).bind fun later reply checked => ?_
      cases reply with
      | error err => trivial
      | ok done =>
        refine ⟨checked rfl, fun tenants => ?_⟩
        cases tenants with
        | error err => trivial
        | ok tenants =>
          have listed : Ready ((⟨.listUserTenants existing.userID, .ok tenants⟩ : Event ports) :: later) :=
            (checked rfl).cons rfl not_false
          refine (revokeForRotation_due a existing listed).bind fun later reply claimed => ?_
          cases reply with
          | error err => trivial
          | ok done =>
            refine ⟨trivial, fun clock => ?_⟩
            refine (issue_due a _ _ _ ((claimed rfl).cons rfl)).bind fun later reply _ => ?_
            cases reply with
            | error err => trivial
            | ok s => exact ⟨trivial, fun _ => trivial⟩

end Order

/-- What becomes of a write: the store carries it out and confirms it, refuses
it, or carries it out and its reply is lost. -/
inductive Fate where
  | confirmed
  | refused
  | lost
  deriving DecidableEq

abbrev Contents := Str → Option Session

namespace Contents

def revoke (c : Contents) (which : Str → Session → Bool) : Contents := fun id =>
  (c id).map fun s => if which id s then { s with revoked := true } else s

def write (c : Contents) : PortOp → Contents
  | .save s => Function.update c s.id (some s.sanitize)
  | .revoke id => c.revoke fun key _ => key = id
  | .revokeIfActive id => c.revoke fun key _ => key = id
  | .revokeAllForUser userID => c.revoke fun _ s => s.userID = userID
  | _ => c

def after (c : Contents) (fate : PortOp → Fate) (op : PortOp) : Contents :=
  if fate op = .refused then c else c.write op

def admits (c : Contents) (fate : PortOp → Fate) : Event ports → Bool
  | ⟨.newUUID, id⟩ => (c (Uuid.text id)).isNone
  | ⟨.get id, .ok found⟩ => found = c id
  | ⟨.save s, .ok ()⟩ => fate (.save s) = .confirmed
  | ⟨.save s, .error _⟩ => fate (.save s) ≠ .confirmed
  | ⟨.revoke id, .ok ()⟩ => fate (.revoke id) = .confirmed
  | ⟨.revoke id, .error _⟩ => fate (.revoke id) ≠ .confirmed
  | ⟨.revokeIfActive id, .ok won⟩ => fate (.revokeIfActive id) = .confirmed ∧ won = (c id).any (!·.revoked)
  | ⟨.revokeIfActive id, .error _⟩ => fate (.revokeIfActive id) ≠ .confirmed
  | ⟨.revokeAllForUser userID, .ok ()⟩ => fate (.revokeAllForUser userID) = .confirmed
  | ⟨.revokeAllForUser userID, .error _⟩ => fate (.revokeAllForUser userID) ≠ .confirmed
  | _ => true

def replay (c : Contents) (fate : PortOp → Fate) : History ports → Option Contents
  | [] => some c
  | event :: earlier => (c.replay fate earlier).bind fun now =>
    if now.admits fate event then some (now.after fate event.op) else none

theorem replay_cons {c d : Contents} {event : Event ports} :
    c.replay fate (event :: earlier) = some d ↔
      ∃ now, c.replay fate earlier = some now ∧ now.admits fate event = true ∧ now.after fate event.op = d := by
  simp [replay, Option.bind_eq_some_iff]

variable {c d : Contents} {fate : PortOp → Fate} {past : History ports}

theorem replay_suffix (served : c.replay fate past = some d) (suffix : earlier <:+ past) :
    ∃ now, c.replay fate earlier = some now := by
  obtain ⟨later, rfl⟩ := suffix
  induction later generalizing d with
  | nil => exact ⟨d, served⟩
  | cons event later ih =>
    obtain ⟨now, before, _⟩ := replay_cons.mp served
    exact ih before

theorem after_of_not_writes (c : Contents) (reads : ¬ op.Writes) : c.after fate op = c := by
  unfold after write
  split
  · rfl
  · split
    all_goals first | rfl | exact absurd trivial reads

theorem replay_calm (calm : ∀ event ∈ past, ¬ event.op.Writes) (served : c.replay fate past = some d) : d = c := by
  induction past generalizing d with
  | nil => exact (Option.some.inj served).symm
  | cons event past ih =>
    obtain ⟨now, before, _, rfl⟩ := replay_cons.mp served
    obtain ⟨reads, calm⟩ := List.forall_mem_cons.mp calm
    rw [after_of_not_writes now reads, ih calm before]

private theorem after_stored {id : Str} (stored : (c id).isSome) (op : PortOp) : (c.after fate op id).isSome := by
  unfold after write
  split
  · exact stored
  · split
    · rename_i s _
      by_cases same : id = s.id
      · simp [same]
      · simpa [same] using stored
    all_goals simpa [revoke] using stored

theorem replay_stored {id : Str} (stored : (c id).isSome) (served : c.replay fate past = some d) : (d id).isSome := by
  induction past generalizing d with
  | nil => exact Option.some.inj served ▸ stored
  | cons event past ih =>
    obtain ⟨now, before, _, rfl⟩ := replay_cons.mp served
    exact after_stored (ih before) _

theorem failed_iff_fate (revokes : event.op.Revokes) (admitted : c.admits fate event = true) :
    Failed event = true ↔ fate event.op ≠ .confirmed := by
  obtain ⟨op, ans⟩ := event
  cases op with
  | revoke id | revokeIfActive id => cases ans <;> simp_all [admits, Failed]
  | _ => exact revokes.elim

end Contents

section Interruption

variable {a : LocalAuth} {fate : PortOp → Fate} {before after : Contents} {past : History ports} {s : Session}

theorem write_revokes (named : parseRefreshToken token = .ok s.id) (stored : before s.id = some s)
    (run : Runs (a.refreshToken token) past rest) (served : before.replay fate past = some after)
    (suffix : event :: earlier <:+ past) (revokes : event.op.Revokes) :
    ∃ r, before.write event.op s.id = some r ∧ r.revoked = true := by
  have target {id : Str} (presented : ∃ existing, Presented a.lib token earlier existing ∧ id = existing.id) :
      id = s.id := by
    obtain ⟨existing, ⟨read, parsed, got, _⟩, rfl⟩ := presented
    obtain rfl : s.id = read := Except.ok.inj (named.symm.trans parsed)
    obtain ⟨later, first, rfl⟩ := List.append_of_mem got
    have begun : Answered.get s.id (.ok (some existing)) :: first <:+ past :=
      (List.suffix_append ..).trans ((List.suffix_cons ..).trans suffix)
    have ready : Ready first := (refreshToken_due a token).at_suffix run begun
    obtain ⟨_, reached⟩ := Contents.replay_suffix served begun
    obtain ⟨now, unchanged, admitted, _⟩ := Contents.replay_cons.mp reached
    have found : some existing = now s.id := of_decide_eq_true admitted
    rw [Contents.replay_calm ready.calm unchanged, stored] at found
    rw [Option.some.inj found]
  have licensed := (refreshToken_meets a token).at_suffix run suffix
  obtain ⟨op, ans⟩ := event
  cases op with
  | revoke id =>
    obtain rfl : id = s.id := by
      rcases licensed with logout | ⟨token', existing, same, presented, _, own⟩
      · cases logout
      · cases same
        exact target ⟨existing, presented, own⟩
    simp [Contents.write, Contents.revoke, stored]
  | revokeIfActive id =>
    obtain rfl : id = s.id := by
      obtain ⟨token', existing, same, presented, _, own⟩ := licensed
      cases same
      exact target ⟨existing, presented, own⟩
    simp [Contents.write, Contents.revoke, stored]
  | _ => exact revokes.elim

private theorem revoked_from_then_on (named : parseRefreshToken token = .ok s.id) (stored : before s.id = some s)
    (run : Runs (a.refreshToken token) past rest) (served : before.replay fate past = some after)
    (suffix : added ++ event :: earlier <:+ past) (revokes : event.op.Revokes) (fine : Failed event = false)
    (reached : before.replay fate (added ++ event :: earlier) = some now) :
    ∃ r, now s.id = some r ∧ r.revoked = true := by
  induction added generalizing now with
  | nil =>
    obtain ⟨unchanged, calm, admitted, rfl⟩ := Contents.replay_cons.mp reached
    have ready : Ready earlier := by
      have due := (refreshToken_due a token).at_suffix run suffix
      obtain ⟨op, ans⟩ := event
      cases op with
      | revoke id | revokeIfActive id => exact due
      | _ => exact revokes.elim
    obtain rfl := Contents.replay_calm ready.calm calm
    have confirmed : fate event.op = .confirmed := by
      by_contra other
      simp [(Contents.failed_iff_fate revokes admitted).mpr other] at fine
    rw [Contents.after, confirmed, if_neg nofun]
    exact write_revokes named stored run served suffix revokes
  | cons next added ih =>
    obtain ⟨now, sofar, _, rfl⟩ := Contents.replay_cons.mp reached
    have shorter : added ++ event :: earlier <:+ past := (List.suffix_cons ..).trans suffix
    obtain ⟨r, found, revoked⟩ := ih shorter sofar
    have due := (refreshToken_due a token).at_suffix run suffix
    have licensed := (refreshToken_meets a token).at_suffix run suffix
    suffices kept : now.after fate next.op s.id = now s.id from ⟨r, kept.trans found, revoked⟩
    by_cases writes : next.op.Writes
    · obtain ⟨op, ans⟩ := next
      -- Nothing but the save of the successor is due after the revocation, and its id is new.
      have member : event ∈ added ++ event :: earlier := by simp
      cases op with
      | save successor =>
        obtain ⟨id, drawn, own⟩ := licensed.1.id
        obtain ⟨later, first, parts⟩ := List.append_of_mem drawn
        have begun : Answered.newUUID id :: first <:+ past :=
          (List.suffix_append later _).trans (parts ▸ shorter)
        obtain ⟨_, drawing⟩ := Contents.replay_suffix served begun
        obtain ⟨then_, known, admitted, _⟩ := Contents.replay_cons.mp drawing
        have fresh : (then_ id.text).isNone = true := admitted
        have present := Contents.replay_stored (by simp [stored] : (before s.id).isSome) known
        have other : s.id ≠ successor.id := by
          intro same
          simp_all
        unfold Contents.after Contents.write
        split
        · rfl
        · exact Function.update_of_ne other ..
      | revoke id | revokeIfActive id | revokeAllForUser userID => exact absurd revokes.writes (due.calm event member)
      | _ => exact writes.elim
    · rw [Contents.after_of_not_writes now writes]

theorem settled (run : Runs (a.refreshToken token) past rest) (failure : Failed failed = true)
    (suffix : added ++ failed :: earlier <:+ past)
    (reached : before.replay fate (added ++ failed :: earlier) = some now) :
    before.replay fate (failed :: earlier) = some now := by
  induction added generalizing now with
  | nil => exact reached
  | cons next added ih =>
    obtain ⟨now, sofar, _, rfl⟩ := Contents.replay_cons.mp reached
    have due := (refreshToken_due a token).at_suffix run suffix
    have rough : ¬ Smooth (added ++ failed :: earlier) := fun smooth => by
      simp [smooth failed (by simp)] at failure
    have reads : ¬ next.op.Writes := by
      obtain ⟨op, ans⟩ := next
      cases op with
      | save | revoke | revokeIfActive | revokeAllForUser => exact absurd due.smooth rough
      | _ => exact not_false
    rw [Contents.after_of_not_writes now reads]
    exact ih ((List.suffix_cons ..).trans suffix) sofar

end Interruption

/-- A refresh that a dependency interrupts leaves the session of its token
unrevoked if and only if the dependency is one of those asked before the
revocation, or the revocation itself and the store has not carried it out. -/
theorem interrupted_refresh_keeps_session_iff (a : LocalAuth) (fate : PortOp → Fate) {before after : Contents}
    {past : History ports} {s : Session} (named : parseRefreshToken token = .ok s.id) (stored : before s.id = some s)
    (live : s.revoked = false) (run : Runs (a.refreshToken token) past (.done (.error err)))
    (served : before.replay fate past = some after) (member : failed ∈ past) (failure : Failed failed = true) :
    (∃ r, after s.id = some r ∧ r.revoked = false) ↔
      failed.op.LooksUp ∨ failed.op.Revokes ∧ fate failed.op = .refused := by
  obtain ⟨added, earlier, rfl⟩ := List.append_of_mem member
  have suffix : failed :: earlier <:+ added ++ failed :: earlier := List.suffix_append ..
  have due := (refreshToken_due a token).at_suffix run suffix
  have reached := settled run failure (List.suffix_refl _) served
  obtain ⟨now, sofar, admitted, left⟩ := Contents.replay_cons.mp reached
  have looking (ready : Ready earlier) (reads : ¬ failed.op.Writes) : ∃ r, after s.id = some r ∧
    r.revoked = false := by
    rw [← left, Contents.after_of_not_writes now reads, Contents.replay_calm ready.calm sofar]
    exact ⟨s, stored, live⟩
  have revoking (ready : Ready earlier) (revokes : failed.op.Revokes) :
      (∃ r, after s.id = some r ∧ r.revoked = false) ↔ fate failed.op = .refused := by
    obtain rfl := Contents.replay_calm ready.calm sofar
    rw [← left, Contents.after]
    split
    · exact ⟨fun _ => ‹_›, fun _ => ⟨s, stored, live⟩⟩
    · rename_i applied
      obtain ⟨r, found, revoked⟩ := write_revokes named stored run served suffix revokes
      simp [found, revoked, applied]
  have issuing (rotating : Rotating earlier) : ¬ ∃ r, after s.id = some r ∧ r.revoked = false := by
    rintro ⟨r, found, active⟩
    obtain ⟨event, revoked, revokes⟩ := rotating.revoked
    obtain ⟨since, first, rfl⟩ := List.append_of_mem revoked
    have whole : (failed :: since) ++ event :: first <:+ added ++ failed :: (since ++ event :: first) := suffix
    obtain ⟨r', found', gone⟩ := revoked_from_then_on named stored run served whole revokes
      (rotating.smooth event revoked) reached
    simp_all
  have looked (looks : failed.op.LooksUp) (ready : Ready earlier) (reads : ¬ failed.op.Writes) :=
    iff_of_true (looking ready reads) (Or.inl (b := failed.op.Revokes ∧ fate failed.op = .refused) looks)
  have issued (rotating : Rotating earlier) (other : ¬ (failed.op.LooksUp ∨ failed.op.Revokes)) :
      (∃ r, after s.id = some r ∧ r.revoked = false) ↔
        failed.op.LooksUp ∨ failed.op.Revokes ∧ fate failed.op = .refused :=
    iff_of_false (issuing rotating) fun kind => other (kind.imp_right And.left)
  obtain ⟨op, ans⟩ := failed
  cases op with
  | get id | revokedBefore userID | findByID userID | assertAccess userID tenantID module | listUserTenants userID =>
    exact looked trivial due not_false
  | revoke id | revokeIfActive id => simpa [PortOp.LooksUp, PortOp.Revokes] using revoking due trivial
  | issueAccessToken claims | randRead n | save successor =>
    exact issued due (by simp [PortOp.LooksUp, PortOp.Revokes])
  | _ => nomatch failure

namespace Sample

def contents : Contents := fun id => if id = (session 0).id then some (session 0) else none

def failing (lookup signing : Except Err Unit) (id : Uuid) :
    (op : (ports.sum Memory.atoms).Op) → Sum.elim ports.Ans (Backend.Luck (Memory.backend true)) op
  | .inl (.findByID userID) => lookup.map fun _ => some (⟨userID, true⟩ : User)
  | .inl (.issueAccessToken claims) => signing.map fun _ => claims.sessionID
  | op => answers (b := Memory.backend true) id (fun _ => ()) op

def down : Except Err Unit := .error (.plain (ascii "down"))

def interrupted (lookup signing : Except Err Unit) : State (Provider.system (.memory true) auth) :=
  (memory auth).follow <|
    .start 0 (.refreshToken (token 0)) :: List.replicate 60 (.act 0 (failing lookup signing (uuid 1)))

/-- Among the failures of the history is one of this kind, and the store has
answered so and holds a session whose revocation is as given. -/
def leaves (kind : PortOp → Bool) (revoked : Bool) (past : History ports) : Bool :=
  past.any (fun event => Failed event && kind event.op) &&
    (contents.replay (fun _ => .confirmed) past).any fun after => (after (session 0).id).any (·.revoked == revoked)

theorem interruption {σ : State (Provider.system (.memory true) auth)} (kind : PortOp → Bool) (revoked : Bool)
    (ended : σ.ended 0 (fun
      | .refreshToken presented, .error _ => presented = token 0
      | _, _ => false) = true)
    (left : ((σ.threads 0).any fun thread => leaves kind revoked thread.past) = true) :
    ∃ past err after failed r, Runs (auth.refreshToken (token 0)) past (.done (.error err)) ∧
      contents.replay (fun _ => .confirmed) past = some after ∧ failed ∈ past ∧ Failed failed = true ∧
      kind failed.op = true ∧ after (session 0).id = some r ∧ r.revoked = revoked := by
  obtain ⟨call, value, finished, fine⟩ := State.finished_of_ended ended
  split at fine
  · cases of_decide_eq_true fine
    obtain ⟨thread, found, _, run⟩ := Thread.finished_ran finished
    rw [found] at left
    obtain ⟨failures, served⟩ := Bool.and_eq_true_iff.mp left
    obtain ⟨failed, member, both⟩ := List.any_eq_true.mp failures
    obtain ⟨after, replayed, present⟩ := (Option.any_eq_true _ _).mp served
    obtain ⟨r, stored, same⟩ := (Option.any_eq_true _ _).mp present
    obtain ⟨failure, ofKind⟩ := Bool.and_eq_true_iff.mp both
    exact ⟨_, _, after, failed, r, run, replayed, member, failure, ofKind, stored, beq_iff_eq.mp same⟩
  · cases fine

end Sample

theorem sample_lookup_failure_keeps_session : ∃ past err after,
    Runs (Sample.auth.refreshToken (Sample.token 0)) past (.done (.error err)) ∧
    Sample.contents.replay (fun _ => .confirmed) past = some after ∧
    ∃ r, after (Sample.session 0).id = some r ∧ r.revoked = false := by
  obtain ⟨past, err, after, failed, r, run, served, member, failure, kind, _⟩ :=
    Sample.interruption (σ := Sample.interrupted Sample.down (.ok ()))
      (fun | .findByID _ => true | _ => false) false (by decide +kernel) (by decide +kernel)
  refine ⟨past, err, after, run, served, ?_⟩
  refine (interrupted_refresh_keeps_session_iff Sample.auth _ rfl (if_pos rfl) rfl run served member
    failure).mpr (.inl ?_)
  split at kind
  · rename_i looks
    rw [looks]
    trivial
  · cases kind

/-- When the access token cannot be signed, the session of a refresh stays
revoked although it has no successor. -/
theorem failed_signing_leaves_session_revoked : ∃ past err after,
    Runs (Sample.auth.refreshToken (Sample.token 0)) past (.done (.error err)) ∧
    Sample.contents.replay (fun _ => .confirmed) past = some after ∧
    Sample.contents (Sample.session 0).id = some (Sample.session 0) ∧ (Sample.session 0).revoked = false ∧
    (∃ failed ∈ past, Failed failed = true ∧ ∃ claims, failed.op = .issueAccessToken claims) ∧
    ∃ r, after (Sample.session 0).id = some r ∧ r.revoked = true := by
  obtain ⟨past, err, after, failed, r, run, served, member, failure, kind, stored, revoked⟩ :=
    Sample.interruption (σ := Sample.interrupted (.ok ()) Sample.down)
      (fun | .issueAccessToken _ => true | _ => false) true (by decide +kernel) (by decide +kernel)
  refine ⟨past, err, after, run, served, if_pos rfl, rfl, ⟨failed, member, failure, ?_⟩, r, stored, revoked⟩
  split at kind
  · rename_i claims signs
    exact ⟨claims, signs⟩
  · cases kind

end Gofi.Iam
