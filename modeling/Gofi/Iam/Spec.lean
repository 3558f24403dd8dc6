import Gofi.Iam.Core

/-! What each call may ask of its ports and what its result means, in terms of
the answers it has received: the whole core is read once here, and everything
about runs is derived from it. -/

namespace Gofi.Iam

open Gofi.Concurrent Gofi.Go

/-! Answers of the ports, as events of a call's history. -/

namespace Answered

abbrev now (clock : Instant) : Event ports := ⟨PortOp.now, clock⟩
abbrev newUUID (id : Uuid) : Event ports := ⟨PortOp.newUUID, id⟩
abbrev parseToken (token : Str) (r : Except Err Claims) : Event ports := ⟨.parseToken token, r⟩
abbrev consume (jti : Str) (ttl : Duration) (r : Except Err Bool) : Event ports := ⟨.consume jti ttl, r⟩
abbrev save (s : Session) (r : Except Err Unit) : Event ports := ⟨.save s, r⟩
abbrev get (id : Str) (r : Except Err (Option Session)) : Event ports := ⟨.get id, r⟩
abbrev revoke (id : Str) (r : Except Err Unit) : Event ports := ⟨.revoke id, r⟩
abbrev revokeAllForUser (userID : Str) (r : Except Err Unit) : Event ports := ⟨.revokeAllForUser userID, r⟩
abbrev revokeIfActive (id : Str) (r : Except Err Bool) : Event ports := ⟨.revokeIfActive id, r⟩
abbrev revokedBefore (userID : Str) (r : Except Err Time) : Event ports := ⟨.revokedBefore userID, r⟩

end Answered

/-- The call presented the genuine refresh token of the session it read. -/
def Presented (lib : Library) (token : Str) (past : History ports) (s : Session) : Prop :=
  ∃ id, parseRefreshToken token = .ok id ∧ Answered.get id (.ok (some s)) ∈ past ∧
    tokenHashMatches lib token s.refreshTokenHash

structure Cleared (a : LocalAuth) (past : History ports) (s : Session) : Prop where
  active : s.revoked = false
  timely : ∃ clock, Answered.now clock ∈ past ∧ clock.time ≤ s.expiresAt
  admitted : a.revocationStore = true →
    ∃ cutoff, Answered.revokedBefore s.userID (.ok cutoff) ∈ past ∧ (cutoff = 0 ∨ cutoff < s.loginTime)

structure Refreshable (a : LocalAuth) (token : Str) (past : History ports) (s : Session) : Prop
    extends Cleared a past s where
  presented : Presented a.lib token past s
  alive : ∃ clock, Answered.now clock ∈ past ∧ clock.time < a.cfg.sessionExpiry clock.time s.loginTime

def Redeemed (a : LocalAuth) (past : History ports) (provider : Str) (input : SelectTenantInput) : Prop :=
  a.cfg.skipTicket = false → ∃ clock claims, Answered.now clock ∈ past ∧
    verifyTenantTicket a.lib a.cfg.ticketKey input.ticket provider input.userID clock.time = .ok claims ∧
    (a.cfg.tickets = true → claims.jti ≠ [] → ∃ later, Answered.now later ∈ past ∧
      Answered.consume claims.jti (claims.exp - later.time + Time.minute) (.ok true) ∈ past)

/-- The sessions a call may save: one opened by `SelectTenant`, or the successor
of a session that this call has just revoked. -/
inductive Issued (a : LocalAuth) (past : History ports) : Call → Session → Prop where
  | opened {id : Uuid} {clock : Instant} (drawn : Answered.newUUID id ∈ past)
      (read : Answered.now clock ∈ past) (redeemed : Redeemed a past provider input)
      (login : a.selectAuthTime input clock.time = .ok authTime) :
      Issued a past (.selectTenant provider input)
        (a.issueSession (SessionIssuer.selectSeed provider input authTime) clock.time id.text access refresh)
  | rotated {id : Uuid} {clock : Instant} {existing : Session} (drawn : Answered.newUUID id ∈ past)
      (read : Answered.now clock ∈ past) (refreshable : Refreshable a token past existing)
      (claimed : a.revoker = true → Answered.revokeIfActive existing.id (.ok true) ∈ past) :
      Issued a past (.refreshToken token)
        (a.issueSession { existing with authTime := existing.loginTime } clock.time id.text access refresh)

variable {past : History ports}

theorem Issued.id (issued : Issued a past call s) : ∃ id : Uuid, Answered.newUUID id ∈ past ∧ s.id = id.text := by
  cases issued with
  | opened drawn | rotated drawn => exact ⟨_, drawn, rfl⟩

theorem Issued.active (issued : Issued a past call s) : s.revoked = false := by
  cases issued with
  | opened | rotated => rfl

theorem Issued.opening (issued : Issued a past (.selectTenant provider input) s) :
    s.userID = input.userID ∧ Redeemed a past provider input ∧ ∃ clock : Instant, Answered.now clock ∈ past ∧
      a.selectAuthTime input clock.time = .ok s.authTime := by
  cases issued with
  | opened _ read redeemed login => exact ⟨rfl, redeemed, _, read, login⟩

theorem Issued.rotation (issued : Issued a past (.refreshToken token) s) :
    ∃ existing, Refreshable a token past existing ∧
      (a.revoker = true → Answered.revokeIfActive existing.id (.ok true) ∈ past) ∧
      ∃ (clock : Instant) (id : Uuid) (access refresh : Str), Answered.now clock ∈ past ∧
        s = a.issueSession { existing with authTime := existing.loginTime } clock.time id.text access refresh := by
  cases issued with
  | rotated _ read refreshable claimed => exact ⟨_, refreshable, claimed, _, _, _, _, read, rfl⟩

variable {later : History ports}

theorem Presented.mono (presented : Presented lib token past s) (sub : past ⊆ later) :
    Presented lib token later s := by
  obtain ⟨id, parsed, got, same⟩ := presented
  exact ⟨id, parsed, sub got, same⟩

theorem Cleared.mono (cleared : Cleared a past s) (sub : past ⊆ later) : Cleared a later s where
  active := cleared.active
  timely := by
    obtain ⟨clock, read, inTime⟩ := cleared.timely
    exact ⟨clock, sub read, inTime⟩
  admitted store := by
    obtain ⟨cutoff, read, passed⟩ := cleared.admitted store
    exact ⟨cutoff, sub read, passed⟩

theorem Refreshable.mono (refreshable : Refreshable a token past s)
    (sub : past ⊆ later) : Refreshable a token later s where
  toCleared := refreshable.toCleared.mono sub
  presented := refreshable.presented.mono sub
  alive := by
    obtain ⟨clock, read, left⟩ := refreshable.alive
    exact ⟨clock, sub read, left⟩

theorem Redeemed.mono (redeemed : Redeemed a past provider input)
    (sub : past ⊆ later) : Redeemed a later provider input := by
  intro checking
  obtain ⟨clock, claims, read, valid, consumed⟩ := redeemed checking
  refine ⟨clock, claims, sub read, valid, fun store named => ?_⟩
  obtain ⟨then_, reread, used⟩ := consumed store named
  exact ⟨then_, sub reread, sub used⟩

def PortOp.Issues : PortOp → Prop
  | .newUUID => True
  | .save _ => True
  | _ => False

inductive Names (past : History ports) : Call → Str → Prop where
  | token {id : Str} (parsed : parseRefreshToken token = .ok id) : Names past (.refreshToken token) id
  | claims {claims : Claims} (parsed : Answered.parseToken accessToken (.ok claims) ∈ past) :
      Names past (.validateToken accessToken) claims.sessionID

def Licensed (a : LocalAuth) (call : Call) (past : History ports) : PortOp → Prop
  | .newUUID => ∀ event ∈ past, ¬ event.op.Issues
  | .save s => Issued a past call s ∧ ∀ s' r, Answered.save s' r ∉ past
  | .get id => Names past call id ∧ ∀ id' r, Answered.get id' r ∉ past
  | .revoke id => call = .logout id ∨ ∃ token s, call = .refreshToken token ∧
      Presented a.lib token past s ∧ s.revoked = false ∧ id = s.id
  | .revokeIfActive id => ∃ token s, call = .refreshToken token ∧
      Presented a.lib token past s ∧ s.revoked = false ∧ id = s.id
  | .revokeAllForUser userID => call = .logoutAll userID ∨ ∃ token s, call = .refreshToken token ∧
      Presented a.lib token past s ∧ s.revoked = true ∧ userID = s.userID
  | .revokedBefore userID => ∃ id s clock, Answered.get id (.ok (some s)) ∈ past ∧
      Answered.now clock ∈ past ∧ clock.time ≤ s.expiresAt ∧ userID = s.userID
  | .consume _ _ => ∀ jti ttl r, Answered.consume jti ttl r ∉ past
  | _ => True

def Returned (a : LocalAuth) (past : History ports) : (call : Call) → call.Result → Prop
  | .authenticate _, .ok result => result.ticket = [] ∨ ∃ clock jti, Answered.now clock ∈ past ∧
      result.ticket = signTenantTicket a.lib a.cfg.ticketKey LocalAuth.localProvider result.userID clock.time jti
  | .selectTenant _ _, .ok s => Answered.save s (.ok ()) ∈ past
  | .refreshToken _, .ok s => Answered.save s (.ok ()) ∈ past
  | .validateToken accessToken, .ok claims => Answered.parseToken accessToken (.ok claims) ∈ past ∧
      ∃ s, Answered.get claims.sessionID (.ok (some s)) ∈ past ∧ s.userID = claims.userID ∧
        s.tenantID = claims.tenantID ∧ Cleared a past s
  | .logout id, .ok () => Answered.revoke id (.ok ()) ∈ past
  | .logoutAll userID, .ok () => Answered.revokeAllForUser userID (.ok ()) ∈ past
  | _, _ => True

section Core

variable {call : Call} {past : History ports} (a : LocalAuth)

abbrev Preparing (a : LocalAuth) (call : Call) (past : History ports) (op : PortOp) : Prop :=
  Licensed a call past op ∧ ¬ op.Issues

theorem issue_meets (seed : Session) (roles : List Str) (now : Time) (fresh : ∀ event ∈ past, ¬ event.op.Issues)
    (issued : ∀ id access refresh later, past <:+ later → Answered.newUUID id ∈ later →
      Issued a later call (a.issueSession seed now id.text access refresh)) :
    (a.issue seed roles now).Meets (Licensed a call)
      (fun later r => ∃ added, later = added ++ past ∧ ∀ s, r = .ok s → Answered.save s (.ok ()) ∈ added) past := by
  refine ⟨fresh, fun id => ⟨trivial, fun accessToken => ?_⟩⟩
  cases accessToken with
  | error err => exact ⟨[_, _], rfl, fun s ok => nomatch ok⟩
  | ok accessToken =>
    refine ⟨trivial, fun random => ?_⟩
    cases random with
    | error err => exact ⟨[_, _, _], rfl, fun s ok => nomatch ok⟩
    | ok bytes =>
      refine ⟨⟨issued _ _ _ _ ⟨[_, _, _], rfl⟩ (by simp), ?_⟩, fun saved => ?_⟩
      · intro s r member
        simp only [List.mem_cons, Event.mk.injEq, reduceCtorEq, false_and, false_or] at member
        exact fresh _ member trivial
      · cases saved with
        | error err => exact ⟨[_, _, _, _], rfl, fun s ok => nomatch ok⟩
        | ok done =>
          refine ⟨[_, _, _, _], rfl, ?_⟩
          rintro s ⟨⟩
          exact List.mem_cons_self ..

theorem checkUserCutoff_meets (s : Session)
    (free : allowed past (.revokedBefore s.userID)) :
    (a.checkUserCutoff s).Meets allowed (fun later r => ∃ added, later = added ++ past ∧
      (r = .ok () → a.revocationStore = true → ∃ cutoff,
        Answered.revokedBefore s.userID (.ok cutoff) ∈ later ∧ (cutoff = 0 ∨ cutoff < s.loginTime)))
      past := by
  unfold SessionIssuer.checkUserCutoff
  split
  · rename_i absent
    exact ⟨[], rfl, fun _ present => by simp [present] at absent⟩
  · refine ⟨free, fun reply => ?_⟩
    cases reply with
    | error err => exact ⟨[_], rfl, fun ok => nomatch ok⟩
    | ok cutoff =>
      simp only [Prog.pure_eq, Prog.done_bind]
      split
      · exact ⟨[_], rfl, fun ok => nomatch ok⟩
      · rename_i passed
        refine ⟨[_], rfl, fun _ _ => ⟨cutoff, List.mem_cons_self .., ?_⟩⟩
        by_cases zero : cutoff = 0
        · exact .inl zero
        · exact .inr (by_contra fun late => passed ⟨by simp [Time.isZero, zero], late⟩)

theorem emitNow_meets (event : Time → IAMEvent)
    (then_ : ∀ clock, post (⟨.emit (event clock.time), ()⟩ :: Answered.now clock :: past) ()) :
    (Port.emitNow event).Meets (Preparing a call) post past :=
  ⟨⟨trivial, not_false⟩, fun clock => ⟨⟨trivial, not_false⟩, fun _ => then_ clock⟩⟩

variable {token : Str}

private theorem revokeAllOnReuse_meets (s : Session) (presented : Presented a.lib token past s)
    (revoked : s.revoked = true) :
    (LocalAuth.revokeAllOnReuse s).Meets (Preparing a (.refreshToken token)) (fun _ _ => True) past := by
  refine ⟨⟨.inr ⟨token, s, rfl, presented, revoked, rfl⟩, not_false⟩, fun reply => ?_⟩
  cases reply with
  | error err | ok done => exact ⟨⟨trivial, not_false⟩, fun clock => ⟨⟨trivial, not_false⟩, fun _ => trivial⟩⟩

private theorem refreshable_meets (token : Str) : (a.refreshable token).Meets (Preparing a (.refreshToken token))
      (fun later r => ∀ s, r = .ok s → Refreshable a token later s) [] := by
  have refused (past : History ports) (err : Err) :
      (Prog.done (.error err) : Port (Except Err Session)).Meets (Preparing a (.refreshToken token))
        (fun later r => ∀ s, r = .ok s → Refreshable a token later s) past := fun s ok => nomatch ok
  unfold LocalAuth.refreshable
  split
  · exact (emitNow_meets a _ fun _ => trivial).bind fun _ _ (_ : True) => refused _ _
  · rename_i id parsed
    refine ⟨⟨⟨.token parsed, by simp⟩, not_false⟩, fun reply => ?_⟩
    rcases reply with err | _ | existing
    · exact (emitNow_meets a _ fun _ => trivial).bind fun _ _ (_ : True) => refused _ _
    · exact (emitNow_meets a _ fun _ => trivial).bind fun _ _ (_ : True) => refused _ _
    · simp only [Prog.done_bind]
      split
      · exact (emitNow_meets a _ fun _ => trivial).bind fun _ _ (_ : True) => refused _ _
      · rename_i matching
        have presented : Presented a.lib token [Answered.get id (.ok (some existing))] existing :=
          ⟨id, parsed, List.mem_cons_self .., by simpa using matching⟩
        split
        · rename_i revoked
          exact (revokeAllOnReuse_meets a existing presented revoked).bind fun _ err _ => refused _ err
        · rename_i active
          refine ⟨⟨trivial, not_false⟩, fun clock => ?_⟩
          simp only [Prog.done_bind]
          split
          · exact refused _ _
          · rename_i inTime
            simp only [not_or, not_lt, not_le, gt_iff_lt] at inTime
            refine (checkUserCutoff_meets a existing
              ⟨⟨id, existing, clock, by simp, by simp, inTime.1, rfl⟩, not_false⟩).bind ?_
            rintro _ reply ⟨added, rfl, passed⟩
            cases reply with
            | error err => exact refused _ err
            | ok done =>
              rintro s ⟨⟩
              exact {
                active := by simpa using active
                timely := ⟨clock, by simp, inTime.1⟩
                admitted := passed rfl
                presented := ⟨id, parsed, by simp, presented.choose_spec.2.2⟩
                alive := ⟨clock, by simp, inTime.2⟩ }

private theorem revalidate_meets (s : Session) (presented : Presented a.lib token past s)
    (active : s.revoked = false) :
    (LocalAuth.revalidate s).Meets (Preparing a (.refreshToken token)) (fun _ _ => True) past := by
  refine ⟨⟨trivial, not_false⟩, fun reply => ?_⟩
  cases reply with
  | error err => trivial
  | ok user =>
    simp only [Prog.done_bind]
    split
    · have licensed : Licensed a (.refreshToken token)
          ((⟨.findByID s.userID, .ok user⟩ : Event ports) :: past) (.revoke s.id) := by
        obtain ⟨id, parsed, got, same⟩ := presented
        exact .inr ⟨token, s, rfl, ⟨id, parsed, List.mem_cons_of_mem _ got, same⟩, active, rfl⟩
      refine ⟨⟨licensed, not_false⟩, fun revoked => ?_⟩
      cases revoked with
      | error err | ok done => exact ⟨⟨trivial, not_false⟩, fun _ => ⟨⟨trivial, not_false⟩, fun _ => trivial⟩⟩
    · refine ⟨⟨trivial, not_false⟩, fun access => ?_⟩
      cases access with
      | ok done => trivial
      | error err =>
        simp only [Prog.done_bind]
        split
        · trivial
        · exact ⟨⟨trivial, not_false⟩, fun _ => ⟨⟨trivial, not_false⟩, fun _ => trivial⟩⟩

private theorem revokeForRotation_meets (s : Session) (presented : Presented a.lib token past s)
    (active : s.revoked = false) :
    (a.revokeForRotation s).Meets (Preparing a (.refreshToken token)) (fun later r => r = .ok () →
      a.revoker = true → Answered.revokeIfActive s.id (.ok true) ∈ later) past := by
  unfold LocalAuth.revokeForRotation
  split
  · rename_i absent
    exact ⟨⟨.inr ⟨token, s, rfl, presented, active, rfl⟩, not_false⟩,
      fun _ _ present => by simp [present] at absent⟩
  · refine ⟨⟨⟨token, s, rfl, presented, active, rfl⟩, not_false⟩, fun reply => ?_⟩
    cases reply with
    | error err => exact fun ok => nomatch ok
    | ok revoked =>
      simp only [Prog.done_bind]
      split
      · exact ⟨⟨trivial, not_false⟩, fun _ => ⟨⟨trivial, not_false⟩, fun _ ok => nomatch ok⟩⟩
      · rename_i claimed
        simp only [Bool.not_eq_true, Bool.not_eq_false_eq_eq_true] at claimed
        subst claimed
        exact fun _ _ => List.mem_cons_self ..

private theorem rotate_meets (existing : Session) (tenants : List TenantAccess)
    (fresh : ∀ event ∈ past, ¬ event.op.Issues) (refreshable : Refreshable a token past existing)
    (claimed : a.revoker = true → Answered.revokeIfActive existing.id (.ok true) ∈ past) :
    (a.rotate existing tenants).Meets (Licensed a (.refreshToken token))
      (fun later r => Returned a later (.refreshToken token) r) past := by
  refine ⟨trivial, fun clock => ?_⟩
  refine (issue_meets a _ _ clock.time ?_ ?_).bind ?_
  · intro event member
    rcases List.mem_cons.mp member with rfl | old
    · exact not_false
    · exact fresh event old
  · intro id access refresh later kept drawn
    have old : past ⊆ later := fun _ member => kept.subset (List.mem_cons_of_mem _ member)
    exact .rotated drawn (kept.subset (List.mem_cons_self ..)) (refreshable.mono old)
      fun revoker => old (claimed revoker)
  · rintro _ reply ⟨added, rfl, saved⟩
    cases reply with
    | error err => trivial
    | ok s => exact ⟨trivial, fun _ => List.mem_cons_of_mem _ (List.mem_append_left _ (saved s rfl))⟩

theorem refreshToken_meets (token : Str) : (a.refreshToken token).Meets (Licensed a (.refreshToken token))
      (fun later r => Returned a later (.refreshToken token) r) [] := by
  unfold LocalAuth.refreshToken
  split
  · trivial
  · refine (refreshable_meets a token).seq fun before reply quiet found => ?_
    cases reply with
    | error err => trivial
    | ok existing =>
      have refreshable := found existing rfl
      refine (revalidate_meets a existing refreshable.presented refreshable.active).seq
        fun checked reply still _ => ?_
      cases reply with
      | error err => trivial
      | ok done =>
        refine ⟨trivial, fun tenants => ?_⟩
        cases tenants with
        | error err => trivial
        | ok tenants =>
          have known : Refreshable a token ((⟨.listUserTenants existing.userID, .ok tenants⟩ : Event ports) ::
              (checked ++ (before ++ []))) existing :=
            refreshable.mono fun event member => by simp_all
          refine (revokeForRotation_meets a existing known.presented known.active).seq
            fun revoking reply calm claimed => ?_
          cases reply with
          | error err => trivial
          | ok done =>
            refine rotate_meets a existing tenants ?_ (known.mono (List.subset_append_right ..)) (claimed rfl)
            intro event member
            simp only [List.mem_append, List.mem_cons, List.not_mem_nil, or_false] at member
            rcases member with inner | rfl | inner | inner
            · exact calm event inner
            · exact not_false
            · exact still event inner
            · exact quiet event inner

private theorem checkTenantTicket_meets (ticket provider userID : Str) :
    (a.cfg.checkTenantTicket a.lib ticket provider userID).Meets (Preparing a call)
      (fun later r => (∀ jti ttl r, Answered.consume jti ttl r ∉ later) ∧ ∀ claims, r = .ok claims →
        a.cfg.skipTicket = false → ∃ clock, Answered.now clock ∈ later ∧
          verifyTenantTicket a.lib a.cfg.ticketKey ticket provider userID clock.time = .ok claims) [] := by
  unfold AuthConfig.checkTenantTicket
  split
  · rename_i skipped
    exact ⟨by simp, fun claims _ checked => by simp [checked] at skipped⟩
  · split
    · exact ⟨by simp, fun claims ok => nomatch ok⟩
    · refine ⟨⟨trivial, not_false⟩, fun clock => ?_⟩
      exact ⟨by simp, fun claims ok _ => ⟨clock, by simp, ok⟩⟩

private theorem consumeTicket_meets (t : TicketClaims) (unused : ∀ jti ttl r, Answered.consume jti ttl r ∉ past) :
    (a.cfg.consumeTicket t).Meets (Preparing a call) (fun later r => r = .ok () →
      a.cfg.tickets = true → t.jti ≠ [] → ∃ clock, Answered.now clock ∈ later ∧
        Answered.consume t.jti (t.exp - clock.time + Time.minute) (.ok true) ∈ later) past := by
  unfold AuthConfig.consumeTicket
  split
  · rename_i absent
    intro _ store named
    simp [store, named] at absent
  · refine ⟨⟨trivial, not_false⟩, fun clock => ⟨⟨?_, not_false⟩, fun reply => ?_⟩⟩
    · intro jti ttl r member
      simp only [List.mem_cons, Event.mk.injEq, reduceCtorEq, false_and, false_or] at member
      exact unused jti ttl r member
    · cases reply with
      | error err => exact fun ok => nomatch ok
      | ok first =>
        cases first with
        | false => exact fun ok => nomatch ok
        | true => exact fun _ _ _ => ⟨clock, by simp, List.mem_cons_self ..⟩

private theorem openSession_meets (provider : Str) (input : SelectTenantInput) (tenants : List TenantAccess)
    (fresh : ∀ event ∈ past, ¬ event.op.Issues) (redeemed : Redeemed a past provider input) :
    (a.openSession provider input tenants).Meets (Licensed a (.selectTenant provider input))
      (fun later r => Returned a later (.selectTenant provider input) r) past := by
  refine ⟨trivial, fun clock => ?_⟩
  simp only [Prog.done_bind]
  split
  · trivial
  · rename_i authTime login
    refine (issue_meets a _ _ clock.time ?_ ?_).bind ?_
    · intro event member
      rcases List.mem_cons.mp member with rfl | old
      · exact not_false
      · exact fresh event old
    · intro id access refresh later kept drawn
      have old : past ⊆ later := fun _ member => kept.subset (List.mem_cons_of_mem _ member)
      exact .opened drawn (kept.subset (List.mem_cons_self ..)) (redeemed.mono old) login
    · rintro _ reply ⟨added, rfl, saved⟩
      cases reply with
      | error err => trivial
      | ok s => exact ⟨trivial, fun _ => List.mem_cons_of_mem _ (List.mem_append_left _ (saved s rfl))⟩

private theorem selectTenant_meets (provider : Str) (input : SelectTenantInput) :
    (a.selectTenant provider input).Meets (Licensed a (.selectTenant provider input))
      (fun later r => Returned a later (.selectTenant provider input) r) [] := by
  have refused (past : History ports) (err : Err) (reason : Err) :
      ((SessionIssuer.denied provider input reason).bind fun _ =>
        (Prog.done (.error err) : Port (Except Err Session))).Meets (Licensed a (.selectTenant provider input))
        (fun later r => Returned a later (.selectTenant provider input) r) past :=
    ⟨trivial, fun _ => ⟨trivial, fun _ => trivial⟩⟩
  unfold SessionIssuer.selectTenant
  split
  · trivial
  · refine (checkTenantTicket_meets a input.ticket provider input.userID).seq
      fun checked reply quiet ⟨unused, verified⟩ => ?_
    cases reply with
    | error err => exact refused _ _ _
    | ok ticket =>
      refine ⟨trivial, fun access => ?_⟩
      cases access with
      | error err =>
        simp only [Prog.done_bind]
        split
        · trivial
        · exact refused _ _ _
      | ok done =>
        refine (consumeTicket_meets a ticket ?_).seq fun consuming reply calm consumed => ?_
        · intro jti ttl r member
          simp only [List.mem_cons, Event.mk.injEq, reduceCtorEq, false_and, false_or] at member
          exact unused jti ttl r member
        · cases reply with
          | error err => exact refused _ _ _
          | ok done =>
            refine ⟨trivial, fun tenants => ?_⟩
            cases tenants with
            | error err => trivial
            | ok tenants =>
              refine openSession_meets a provider input tenants ?_ ?_
              · intro event member
                simp only [List.mem_append, List.mem_cons, List.not_mem_nil, or_false] at member
                rcases member with rfl | inner | rfl | inner
                · exact not_false
                · exact calm event inner
                · exact not_false
                · exact quiet event inner
              · intro checking
                obtain ⟨clock, read, valid⟩ := verified ticket rfl checking
                refine ⟨clock, ticket, by simp_all, valid, fun store named => ?_⟩
                obtain ⟨later, reread, used⟩ := consumed rfl store named
                exact ⟨later, List.mem_cons_of_mem _ reread, List.mem_cons_of_mem _ used⟩

private theorem checkSession_meets (claims : Claims)
    (parsed : Answered.parseToken accessToken (.ok claims) ∈ past) (unread : ∀ id r, Answered.get id r ∉ past) :
    (a.checkSession claims).Meets (Licensed a (.validateToken accessToken)) (fun later r => past ⊆ later ∧
      (r = .ok () → ∃ s, Answered.get claims.sessionID (.ok (some s)) ∈ later ∧ s.userID = claims.userID ∧
        s.tenantID = claims.tenantID ∧ Cleared a later s)) past := by
  refine ⟨⟨.claims parsed, unread⟩, fun reply => ?_⟩
  rcases reply with err | _ | session
  · exact ⟨by simp, fun ok => nomatch ok⟩
  · exact ⟨by simp, fun ok => nomatch ok⟩
  · simp only [Prog.done_bind]
    split
    · refine ⟨trivial, fun _ => ⟨trivial, fun _ => ⟨?_, fun ok => nomatch ok⟩⟩⟩
      exact fun event member => by simp [member]
    · rename_i own
      simp only [not_or, not_not, ne_eq] at own
      split
      · exact ⟨by simp, fun ok => nomatch ok⟩
      · rename_i active
        refine ⟨trivial, fun clock => ?_⟩
        simp only [Prog.done_bind]
        split
        · exact ⟨fun event member => by simp [member], fun ok => nomatch ok⟩
        · rename_i inTime
          rw [gt_iff_lt, not_lt] at inTime
          have licensed : Licensed a (.validateToken accessToken)
              (Answered.now clock :: Answered.get claims.sessionID (.ok (some session)) :: past)
              (.revokedBefore session.userID) :=
            ⟨claims.sessionID, session, clock, by simp, by simp, inTime, rfl⟩
          refine (checkUserCutoff_meets a session licensed).mono (fun _ _ permitted => permitted) ?_
          rintro _ reply ⟨added, rfl, passed⟩
          refine ⟨fun event member => by simp [member], ?_⟩
          rintro rfl
          exact ⟨session, by simp, own.1, own.2, by simpa using active, ⟨clock, by simp, inTime⟩, passed rfl⟩

private theorem validateToken_meets (accessToken : Str) :
    (a.validateToken accessToken).Meets (Licensed a (.validateToken accessToken))
      (fun later r => Returned a later (.validateToken accessToken) r) [] := by
  refine ⟨trivial, fun reply => ?_⟩
  cases reply with
  | error err => exact ⟨trivial, fun _ => ⟨trivial, fun _ => trivial⟩⟩
  | ok claims =>
    refine (checkSession_meets a claims (List.mem_cons_self ..) (by simp)).bind ?_
    rintro later reply ⟨kept, found⟩
    cases reply with
    | error err => trivial
    | ok done =>
      refine ⟨trivial, fun clock => ⟨trivial, fun _ => ?_⟩⟩
      obtain ⟨s, got, user, tenant, cleared⟩ := found rfl
      have old {event : Event ports} (member : event ∈ later) (e : IAMEvent) :
          event ∈ (⟨.emit e, ()⟩ :: Answered.now clock :: later : History ports) := by simp [member]
      exact ⟨old (kept (List.mem_cons_self ..)) _, s, old got _, user, tenant, cleared.mono fun _ member =>
        old member _⟩

private theorem allowLogin_meets (attempt : LoginAttempt) :
    (a.allowLogin attempt).Meets (Licensed a call) (fun _ _ => True) past := by
  unfold LocalAuth.allowLogin
  split
  · trivial
  · refine ⟨trivial, fun reply => ?_⟩
    cases reply with
    | ok done => trivial
    | error err =>
      refine ⟨trivial, fun _ => ⟨trivial, fun _ => ?_⟩⟩
      simp only [Prog.done_bind]
      split <;> trivial

theorem loginFailed_meets (attempt : LoginAttempt) (userID : Str) (cause : Err) :
    (a.loginFailed attempt userID cause).Meets (Licensed a call) (fun _ _ => True) past := by
  refine ⟨trivial, fun clock => ?_⟩
  simp only [Prog.done_bind]
  split
  · exact ⟨trivial, fun _ => trivial⟩
  · refine ⟨trivial, fun reply => ?_⟩
    cases reply with
    | ok done | error err => exact ⟨trivial, fun _ => trivial⟩

private theorem loginSucceeded_meets (attempt : LoginAttempt) :
    (a.loginSucceeded attempt).Meets (Licensed a call) (fun _ _ => True) past := by
  unfold LocalAuth.loginSucceeded
  split
  · trivial
  · refine ⟨trivial, fun reply => ?_⟩
    cases reply with
    | ok done => trivial
    | error err => exact ⟨trivial, fun _ => ⟨trivial, fun _ => trivial⟩⟩

private theorem dummyPasswordCheck_meets (password : Str) :
    (a.dummyPasswordCheck password).Meets (Licensed a call) (fun _ _ => True) past := by
  unfold LocalAuth.dummyPasswordCheck
  split
  · exact ⟨trivial, fun _ => trivial⟩
  · trivial

private theorem issueTenantTicket_meets (provider userID : Str) :
    (a.cfg.issueTenantTicket a.lib provider userID).Meets (Licensed a call)
      (fun later ticket => ticket = [] ∨ ∃ clock jti, Answered.now clock ∈ later ∧
        ticket = signTenantTicket a.lib a.cfg.ticketKey provider userID clock.time jti) past := by
  unfold AuthConfig.issueTenantTicket
  split
  · exact .inl rfl
  · exact ⟨trivial, fun clock => ⟨trivial, fun jti => .inr ⟨clock, jti, by simp, rfl⟩⟩⟩

private theorem authenticate_meets (input : AuthInput) :
    (a.authenticate input).Meets (Licensed a (.authenticate input))
      (fun later r => Returned a later (.authenticate input) r) [] := by
  unfold LocalAuth.authenticate
  split
  · trivial
  · refine (allowLogin_meets a _).bind fun _ allowed _ => ?_
    cases allowed with
    | error err => trivial
    | ok done =>
      refine ⟨trivial, fun found => ?_⟩
      have unknown (past : History ports) : Prog.Meets (Licensed a (.authenticate input))
          (fun later r => Returned a later (.authenticate input) r)
          ((a.dummyPasswordCheck input.password).bind fun _ =>
            (a.loginFailed ⟨LocalAuth.normalizeEmail a.lib input.email, input.ipAddress⟩ []
              Sentinel.invalidCredentials).bind fun err =>
                (Prog.done (.error err) : Port (Except Err AuthResult))) past :=
        (dummyPasswordCheck_meets a _).bind fun _ _ _ => (loginFailed_meets a _ _ _).bind fun _ _ _ => trivial
      rcases found with err | _ | user
      · exact unknown _
      · exact unknown _
      · refine ⟨trivial, fun valid => ?_⟩
        cases valid with
        | error err => exact (loginFailed_meets a _ _ _).bind fun _ _ _ => trivial
        | ok done =>
          refine (loginSucceeded_meets a _).bind fun _ _ _ => ?_
          split
          · exact ⟨trivial, fun _ => ⟨trivial, fun _ => trivial⟩⟩
          · refine ⟨trivial, fun tenants => ?_⟩
            cases tenants with
            | error err => trivial
            | ok tenants =>
              refine ⟨trivial, fun _ => ⟨trivial, fun _ => ?_⟩⟩
              exact (issueTenantTicket_meets a _ _).bind fun _ ticket signed => signed

private theorem logout_meets (id : Str) : (LocalAuth.logout id).Meets (Licensed a (.logout id))
    (fun later r => Returned a later (.logout id) r) [] := by
  refine ⟨.inl rfl, fun reply => ?_⟩
  cases reply with
  | error err => trivial
  | ok done =>
    exact ⟨trivial, fun _ =>
      ⟨trivial, fun _ => List.mem_cons_of_mem _ (List.mem_cons_of_mem _ (List.mem_cons_self ..))⟩⟩

private theorem logoutAll_meets (userID : Str) : (LocalAuth.logoutAll userID).Meets (Licensed a (.logoutAll userID))
    (fun later r => Returned a later (.logoutAll userID) r) [] := by
  refine ⟨.inl rfl, fun reply => ?_⟩
  cases reply with
  | error err => trivial
  | ok done =>
    exact ⟨trivial, fun _ =>
      ⟨trivial, fun _ => List.mem_cons_of_mem _ (List.mem_cons_of_mem _ (List.mem_cons_self ..))⟩⟩

theorem body_meets (call : Call) :
    (a.body call).Meets (Licensed a call) (fun later r => Returned a later call r) [] := by
  cases call with
  | authenticate input => exact authenticate_meets a input
  | selectTenant provider input => exact selectTenant_meets a provider input
  | refreshToken token => exact refreshToken_meets a token
  | validateToken accessToken => exact validateToken_meets a accessToken
  | logout sessionID => exact logout_meets a sessionID
  | logoutAll userID => exact logoutAll_meets a userID

end Core

end Gofi.Iam
