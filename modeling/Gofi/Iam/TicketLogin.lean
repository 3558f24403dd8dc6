import Gofi.Iam.LogoutAll

/-! A login is not over with `LogoutAll` while its ticket lives: a session that
is opened with the ticket afterwards counts as a new login. -/

namespace Gofi.Iam

open Gofi.Concurrent Gofi.Go

private theorem signed_until {lib : Library} {key provider userID provider' userID' : Str} {now : Time}
    {jti : RandText}
    {claims : TicketClaims} (plain : 124 ∉ provider)
    (accepted : verifyTenantTicket lib key (signTenantTicket lib key provider userID now jti) provider' userID' t =
      .ok claims) : t.unix ≤ (now + tenantTicketTTL).unix := by
  rw [verify_signed _ _ _ _ _ _ _ _ _ provider userID (by rw [splitN_cons plain 0]; rfl)] at accepted
  split at accepted
  · cases accepted
  · rename_i fine
    simp only [not_or, not_lt] at fine
    exact fine.2.2

theorem LocalAuth.selectAuthTime_le {a : LocalAuth} {now authTime : Time}
    (login : a.selectAuthTime input now = .ok authTime) : authTime ≤ now := by
  unfold SessionIssuer.selectAuthTime at login
  split at login
  · rename_i carried
    split at login <;> cases login
    exact carried.2.le
  · cases login
    exact le_refl _

/-- In orderly runs a login made before `LogoutAll` opens no session that outlives
it if every `SelectTenant` with its ticket reads the clock at or before the
recorded cut-off only, or only when five minutes have passed since the login. -/
theorem ticket_session_rejected_unless_between (p : Provider) (a : LocalAuth) (limits : a.cfg.Enforced)
    (checked : a.cfg.skipTicket = false) {first middle last : State (p.system a)}
    {thread issuer opener : Thread (p.system a)} (start : p.sessions.Start first)
    (before : Reach (p.Orderly a userID) first middle) (after : Reach (p.Orderly a userID) middle last)
    (found : middle.threads recorder = some thread) (recorded : p.cutoffs.Recorded thread userID cutoff)
    (issued : middle.Finished login (.authenticate credentials) (.ok result))
    (authenticated : middle.threads login = some issuer) (opening : last.threads selector = some opener)
    (call : opener.call = .selectTenant provider input)
    (same : input.userID = userID) (presented : input.ticket = result.ticket)
    (apart : (∀ clock, Answered.now clock ∈ opener.past → clock.time ≤ cutoff) ∨
      ∀ clock since, Answered.now clock ∈ opener.past → Answered.now since ∈ issuer.past →
        (since.time + tenantTicketTTL).unix < clock.time.unix)
    (saved : opener.Asked (.save root)) (chain : p.sessions.Chain first last root s)
    (absent : middle.threads name = none) : ¬ Accepted last name s.id := by
  have run : Reach Guard.none first last := (before.trans after).weaken fun _ _ _ => trivial
  have opened : Opened last userID root := ⟨selector, opener, provider, input, opening, call, same, saved⟩
  obtain ⟨earlier, suffix, issue, _⟩ := Thread.asked_allowed (body_meets (Provider.equip a) opener.call) saved
  rw [call] at issue
  obtain ⟨_, redeemed, clock, read, taken⟩ := issue.opening
  rcases apart with earlier_ | expired
  · have early : root.authTime ≤ cutoff :=
      (LocalAuth.selectAuthTime_le taken).trans (earlier_ clock (suffix.subset read))
    obtain ⟨ofUser, login, ends⟩ := p.sessions.chain_of_opened start run opened chain
    exact p.sessions.rejected_after_cutoff p.cutoffs limits rfl start before after found recorded chain ofUser
      (login ▸ early) (ends.trans (Int.add_le_add_right early _)) absent
  · exfalso
    obtain ⟨verified, claims, told, valid, _⟩ := redeemed checked
    obtain ⟨thread', found', _, returned⟩ :=
      Thread.finished_meets (body_meets (Provider.equip a) (.authenticate credentials)) issued
    rw [authenticated, Option.some.injEq] at found'
    subst found'
    rw [presented] at valid
    rcases returned with none_ | ⟨since, jti, signedAt, signed⟩
    · rw [none_] at valid
      cases valid
    · rw [signed] at valid
      have inTime := signed_until (by decide) valid
      have late := expired verified since (suffix.subset told) signedAt
      lia

namespace Sample

def ticketed : LocalAuth := { auth with cfg := { config with skipTicket := false } }

def credentials : AuthInput := ⟨ascii "e-mail", ascii "password", []⟩

def redemption : SelectTenantInput := { selection with
  ticket := signTenantTicket library config.ticketKey LocalAuth.localProvider (ascii "user") (clock 0).time jti }

def opening : State (Provider.system (.memory true) ticketed) :=
  (memory ticketed).follow <|
    .start 0 (.authenticate credentials) :: performed 60 0 (uuid 1) ++
    .start 1 (.selectTenant LocalAuth.localProvider redemption) :: performed 15 1 (uuid 2) ++
    .tick (.wait (clock 1)) :: .start 2 (.logoutAll (ascii "user")) :: performed 20 2 (uuid 3)

def opened : State (Provider.system (.memory true) ticketed) :=
  opening.follow <| performed 60 1 (uuid 2) ++ .start 3 (.validateToken (uuid 2).text) :: performed 60 3 (uuid 4)

def closed : State (Provider.system (.memory true) ticketed) :=
  (memory ticketed).follow <|
    .start 0 (.authenticate credentials) :: performed 60 0 (uuid 1) ++
    .tick (.wait (clock 1)) :: .start 2 (.logoutAll (ascii "user")) :: performed 20 2 (uuid 3)

def reopened : State (Provider.system (.memory true) ticketed) :=
  closed.follow <| .tick (.wait (clock 2)) ::
    .start 1 (.selectTenant LocalAuth.localProvider redemption) :: performed 60 1 (uuid 2) ++
    .start 3 (.validateToken (uuid 2).text) :: performed 60 3 (uuid 4)

def cutsOff (userID : Str) (cutoff : Time) : Event (ports.sum Memory.atoms) → Bool
  | ⟨.inr (.revokeAll recorded), now⟩ => recorded = userID && now = cutoff
  | _ => false

private theorem of_cutsOff (found : cutsOff userID cutoff event = true) :
    event = Script.did Memory.atoms (.revokeAll userID) cutoff := by
  unfold cutsOff at found
  split at found
  · simp only [Bool.and_eq_true, decide_eq_true_eq] at found
    obtain ⟨rfl, rfl⟩ := found
    rfl
  · cases found

theorem recorded_of_cutsOff {a : LocalAuth} {σ : State (Provider.system (.memory true) a)} (name : Nat)
    (userID : Str) (cutoff : Time) (ran : ((σ.threads name).any fun thread => thread.visits.any fun visit =>
      (match visit.op with
        | .revokeAllForUser served => served = userID
        | _ => false) && visit.trail.any (cutsOff userID cutoff)) = true) :
    ∃ thread, σ.threads name = some thread ∧ (Provider.memory true).cutoffs.Recorded thread userID cutoff := by
  obtain ⟨thread, found, some_⟩ := (Option.any_eq_true _ _).mp ran
  obtain ⟨visit, visited, both⟩ := List.any_eq_true.mp some_
  obtain ⟨served, wrote⟩ := Bool.and_eq_true_iff.mp both
  obtain ⟨event, member, records⟩ := List.any_eq_true.mp wrote
  split at served
  · rename_i op
    cases of_decide_eq_true served
    obtain rfl := of_cutsOff records
    exact ⟨thread, found, _, _, .visit visited op member, rfl, rfl⟩
  · cases served

variable {σ : State (Provider.system (.memory true) ticketed)}

theorem finished_of_loggedIn (ended : σ.ended 0 (fun
      | .authenticate _, .ok result => result.userID = ascii "user" && result.ticket = redemption.ticket
      | _, _ => false) = true) :
    ∃ input result, σ.Finished 0 (.authenticate input) (.ok result) ∧ result.userID = ascii "user" ∧
      redemption.ticket = result.ticket := by
  obtain ⟨call, value, finished, fine⟩ := State.finished_of_ended ended
  split at fine
  · simp only [Bool.and_eq_true, decide_eq_true_eq] at fine
    exact ⟨_, _, finished, fine.1, fine.2.symm⟩
  · cases fine

theorem finished_of_selected (ended : σ.ended 1 (fun
      | .selectTenant _ input, .ok s => input.userID = ascii "user" && input.authTime = 0 &&
        input.ticket = redemption.ticket && s.id = (uuid 2).text
      | _, _ => false) = true) :
    ∃ provider input root, σ.Finished 1 (.selectTenant provider input) (.ok root) ∧
      (input.userID = ascii "user" ∧ input.authTime = 0 ∧ input.ticket = redemption.ticket) ∧
      root.id = (uuid 2).text := by
  obtain ⟨call, value, finished, fine⟩ := State.finished_of_ended ended
  split at fine
  · simp only [Bool.and_eq_true, decide_eq_true_eq] at fine
    exact ⟨_, _, _, finished, ⟨fine.1.1.1, fine.1.1.2, fine.1.2⟩, fine.2⟩
  · cases fine

theorem opening_run : Reach Guard.none (memory ticketed) opening := .of_follow _

theorem opened_run : Reach Guard.none opening opened := .of_follow _

theorem closed_run : Reach Guard.none (memory ticketed) closed := .of_follow _

theorem reopened_run : Reach Guard.none closed reopened := .of_follow _

theorem early_of_all (limit : Time)
    (early : ((σ.threads name).all fun thread => thread.past.all fun event => match event with
      | ⟨.now, clock⟩ => Instant.time clock ≤ limit
      | _ => true) = true) (found : σ.threads name = some thread) {clock : Instant}
    (read : Answered.now clock ∈ thread.past) : clock.time ≤ limit := by
  rw [found] at early
  exact of_decide_eq_true (List.all_eq_true.mp early _ read)

end Sample

theorem sample_ticket_session_rejected : ∃ provider input root,
    Sample.opened.Finished 1 (.selectTenant provider input) (.ok root) ∧ ¬ Accepted Sample.opened 3 root.id := by
  obtain ⟨credentials, result, loggedIn, _, same⟩ :=
    Sample.finished_of_loggedIn (σ := Sample.opening) (by decide +kernel)
  obtain ⟨provider, input, root, selected, ⟨user, _, ticket⟩, _⟩ :=
    Sample.finished_of_selected (σ := Sample.opened) (by decide +kernel)
  obtain ⟨recorder, recording, recorded⟩ := Sample.recorded_of_cutsOff (σ := Sample.opening) 2
    (ascii "user") (Sample.clock 1).time (by decide +kernel)
  obtain ⟨issuer, issuing, _⟩ :=
    Thread.finished_meets (body_meets (Provider.equip Sample.ticketed) (.authenticate credentials)) loggedIn
  obtain ⟨opener, opening, call, saved⟩ := saved_of_selected selected
  refine ⟨provider, input, root, selected, ?_⟩
  exact ticket_session_rejected_unless_between (.memory true) Sample.ticketed ⟨by decide, by decide⟩ rfl
    (Sample.memory_start _) Sample.opening_run Sample.opened_run recording recorded loggedIn issuing opening call user
    (ticket.trans same)
    (.inl fun _ => Sample.early_of_all (Sample.clock 1).time (by decide +kernel) opening)
    saved (.head (.saved opening saved)) (Option.isNone_iff_eq_none.mp (by decide +kernel))

/-- A login made before `LogoutAll` opens a session after it: `SelectTenant`
with the ticket begins after the cut-off was recorded, takes the time it runs at
for the login time, and the session's access token is validated. -/
theorem ticket_outlives_logoutAll : ∃ (first middle last : State (Provider.system (.memory true) Sample.ticketed))
      (recorder : Thread (Provider.system (.memory true) Sample.ticketed)) (cutoff : Time) (credentials : AuthInput)
      (result : AuthResult) (provider : Str) (input : SelectTenantInput) (root : Session),
    (Provider.memory true).sessions.Start first ∧ Sample.ticketed.cfg.Enforced ∧ Reach Guard.none first middle ∧
    middle.Finished 0 (.authenticate credentials) (.ok result) ∧ result.userID = ascii "user" ∧
    middle.threads 2 = some recorder ∧ (Provider.memory true).cutoffs.Recorded recorder (ascii "user") cutoff ∧
    middle.threads 1 = none ∧ middle.threads 3 = none ∧ Reach Guard.none middle last ∧
    last.Finished 1 (.selectTenant provider input) (.ok root) ∧ input.userID = ascii "user" ∧ input.authTime = 0 ∧
    input.ticket = result.ticket ∧ Accepted last 3 root.id := by
  obtain ⟨credentials, result, loggedIn, user, same⟩ :=
    Sample.finished_of_loggedIn (σ := Sample.closed) (by decide +kernel)
  obtain ⟨provider, input, root, selected, ⟨own, zero, ticket⟩, named⟩ :=
    Sample.finished_of_selected (σ := Sample.reopened) (by decide +kernel)
  obtain ⟨recorder, recording, recorded⟩ := Sample.recorded_of_cutsOff (σ := Sample.closed) 2
    (ascii "user") (Sample.clock 1).time (by decide +kernel)
  have accepted : Accepted Sample.reopened 3 root.id := by
    have ended : Sample.reopened.ended 3 (Sample.admits (Sample.uuid 2).text) = true := by decide +kernel
    obtain ⟨call, value, finished, fine⟩ := State.finished_of_ended ended
    unfold Sample.admits at fine
    split at fine
    · rename_i text claims
      rw [named, ← of_decide_eq_true fine]
      exact .validated finished
    · cases fine
  have selector : Sample.closed.threads 1 = none := Option.isNone_iff_eq_none.mp (by decide +kernel)
  have validator : Sample.closed.threads 3 = none := Option.isNone_iff_eq_none.mp (by decide +kernel)
  exact ⟨_, _, _, recorder, _, credentials, result, provider, input, root, Sample.memory_start _,
    ⟨by decide, by decide⟩,
    Sample.closed_run, loggedIn, user, recording, recorded, selector, validator, Sample.reopened_run, selected, own,
    zero, ticket.trans same, accepted⟩

end Gofi.Iam
