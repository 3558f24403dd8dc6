import Gofi.Iam.Provider.RedisIndex
import Gofi.Iam.Rotation

/-! What each request on Redis does to the index of a user's sessions, and that
`ListByUser` is complete as long as the index outlives its sessions. -/

namespace Gofi.Iam.Redis

open Gofi.Concurrent Gofi.Go Gofi.Redis

variable {keyPrefix : Str}

variable {id : Str} {site : Site}

theorem get_spec : (get keyPrefix id).Ensures Answered (fun later reply => Waits site later ∧
      reply = decodeSession (later.server.get (millis later.clock.time) (sessionKey keyPrefix id))) site := by
  intro ans later answered
  cases answered with
  | command clock luck passed executed =>
    cases executed
    exact ⟨⟨passed, rfl⟩, rfl⟩

variable {server : Server Payload}

theorem found_of_decode {key : Str} (decoded : decodeSession (server.get time key) = .ok s) :
    ∃ expiry, server.find time key = some ⟨.text (.json s), expiry⟩ := by
  have reply := decodeSession_ok decoded
  unfold Server.get at reply
  split at reply
  · cases reply
  · rename_i value expiry found
    cases reply
    exact ⟨expiry, found⟩
  · cases reply

theorem gone_of_decode
    (decoded : decodeSession (site.server.get (millis site.clock.time) (sessionKey keyPrefix id)) = .error err) :
    Gone keyPrefix site id := by
  rintro s active rfl
  rw [active.readable] at decoded
  cases decoded

theorem markRevoked_spec : (markRevoked s).Ensures Answered (fun later marked =>
    Waits site later ∧ marked.id = s.id ∧ marked.revoked = true) site := by
  unfold markRevoked
  split
  · rename_i revoked
    exact ⟨⟨le_refl _, rfl⟩, rfl, revoked⟩
  · intro ans later answered
    cases answered with
    | now clock passed => exact ⟨⟨passed, rfl⟩, rfl, rfl⟩

theorem revokedTTL_spec : (revokedTTL s).Ensures Answered (fun later ttl => Waits site later ∧ 0 < ttl) site := by
  intro ans later answered
  cases answered with
  | now clock passed => exact ⟨⟨passed, rfl⟩, lt_max_of_lt_right (by decide)⟩

theorem revoke_spec (tidy : Tidy keyPrefix site) : (revoke keyPrefix id).Ensures Answered (fun later _ =>
      Tidy keyPrefix later ∧ Calms keyPrefix site later ∧ Gone keyPrefix later id) site := by
  refine get_spec.bind fun read reply ⟨waited, said⟩ => ?_
  subst said
  split
  · rename_i err decoded
    exact ⟨tidy.wait waited, waited.calms, gone_of_decode decoded⟩
  · rename_i s decoded
    obtain ⟨expiry, found⟩ := found_of_decode decoded
    refine markRevoked_spec.bind fun at_mark marked ⟨waited', same, revoked⟩ => ?_
    refine revokedTTL_spec.bind fun at_set ttl ⟨waited'', positive⟩ => ?_
    have idle := waited.trans (waited'.trans waited'')
    intro ans later answered
    cases answered with
    | command clock luck passed executed =>
      cases executed
      have present := (congrFun (waited'.trans waited'').same _).trans (Server.find_some found).1
      obtain ⟨tidied, calms, gone⟩ := (tidy.wait idle).mark passed present same revoked positive
      exact ⟨tidied, idle.calms.trans calms, gone⟩

private theorem revokeIfActive_spec (tidy : Tidy keyPrefix site) :
    (revokeIfActive keyPrefix id).Ensures Answered (fun later _ => Tidy keyPrefix later) site := by
  intro watched at_watch answered
  cases answered with
  | command clock luck passed executed =>
    cases executed
    intro reply read answered
    cases answered with
    | command clock' luck passed' executed =>
    cases executed
    have start : Waits site ⟨clock', site.server.setWatch 0 (some (sessionKey keyPrefix id, false))⟩ :=
      ⟨le_trans passed passed', rfl⟩
    simp only [Prog.done_bind]
    split
    · exact tidy.wait start
    · rename_i s decoded
      obtain ⟨expiry, found⟩ := found_of_decode decoded
      split
      · exact tidy.wait start
      · refine revokedTTL_spec.bind fun at_mark ttl ⟨waited', positive⟩ => ?_
        refine markRevoked_spec.bind fun at_exec marked ⟨waited'', same, revoked⟩ => ?_
        intro ans later answered
        cases answered with
        | command clock luck passed executed =>
          have idle := start.trans (waited'.trans waited'')
          simp only [Server.execute] at executed
          split at executed
          · cases executed
            have present := (congrFun (waited'.trans waited'').same _).trans (Server.find_some found).1
            let unwatched : Site := ⟨at_exec.clock, at_exec.server.setWatch 0 none⟩
            have tidied : Tidy keyPrefix unwatched := tidy.wait (idle.trans ⟨le_refl _, rfl⟩)
            exact (tidied.mark passed present same revoked positive).1
          · cases executed
            exact tidy.wait (idle.trans ⟨passed, rfl⟩)

private theorem revokeEach_spec (tidy : Tidy keyPrefix site) (ids : List Str) :
    (revokeEach keyPrefix ids).Ensures Answered (fun later out =>
      Tidy keyPrefix later ∧ Calms keyPrefix site later ∧ ∀ id ∈ out.2, Gone keyPrefix later id) site := by
  induction ids generalizing site with
  | nil => exact ⟨tidy, fun _ active => active, nofun⟩
  | cons id rest ih =>
    refine (revoke_spec tidy).bind fun at_rest outcome ⟨tidied, calms, gone⟩ => ?_
    refine (ih tidied).bind fun later out ⟨tidied', calms', gone'⟩ => ?_
    have all : ∀ other ∈ id :: out.2, Gone keyPrefix later other :=
      List.forall_mem_cons.mpr ⟨gone.later calms', gone'⟩
    dsimp only
    split
    · exact ⟨tidied', calms.trans calms', all⟩
    · split
      · exact ⟨tidied', calms.trans calms', all⟩
      · exact ⟨tidied', calms.trans calms', gone'⟩

theorem Tidy.index_live (tidy : Tidy keyPrefix site) (active : Active keyPrefix site s) :
    ∃ members expiry, site.server.find (millis site.clock.time) (userKey keyPrefix s.userID) =
      some ⟨.members members, expiry⟩ ∧ s.id ∈ members ∧ ∀ time, expiry = some time → millis s.expiresAt < time := by
  obtain ⟨members, expiry, present, listed, outlives⟩ := tidy.indexed active
  refine ⟨members, expiry, Server.find_of_live present (Item.live_of_lt fun time set => ?_), listed, outlives⟩
  exact lt_of_le_of_lt (millis_mono active.unexpired) (outlives time set)

variable {ids : List Str}

theorem Tidy.sRem (tidy : Tidy keyPrefix site) (userID : Str) (gone : ∀ id ∈ ids, Gone keyPrefix site id) :
    let out := site.server.sRem (millis site.clock.time) (userKey keyPrefix userID) ids
    out.1 = .ok () ∧ Tidy keyPrefix ⟨site.clock, out.2⟩ ∧ Calms keyPrefix site ⟨site.clock, out.2⟩ := by
  unfold Server.sRem
  cases found : site.server.find (millis site.clock.time) (userKey keyPrefix userID) with
  | none => exact ⟨rfl, tidy, fun _ active => active⟩
  | some item =>
    obtain ⟨members, expiry, rfl, plain⟩ := (tidy.proper (Server.find_some found).1).of_index rfl
    have keeps (s : Session) (active : Active keyPrefix site s)
      (own : userKey keyPrefix userID = userKey keyPrefix s.userID) :
        s.id ∈ members.filter (· ∉ ids) ∧ ∀ time, expiry = some time → millis s.expiresAt < time := by
      obtain ⟨_, _, found', listed, outlives⟩ := tidy.index_live active
      rw [← own] at found'
      cases found.symm.trans found'
      exact ⟨List.mem_filter.mpr ⟨listed, by simpa using fun stale => gone s.id stale s active rfl⟩, outlives⟩
    dsimp only
    split
    · rename_i emptied
      refine ⟨rfl, tidy.write (le_refl _) (by rintro _ ⟨⟩) (by rintro _ _ ⟨⟩) fun s active _ own => ?_⟩
      have kept := (keeps s active own).1
      rw [emptied] at kept
      cases kept
    · refine ⟨rfl, tidy.write (le_refl _) ?_ (by rintro _ _ ⟨⟩) fun s active _ own => ?_⟩
      · rintro _ ⟨⟩
        exact .index fun id member => plain id (List.mem_of_mem_filter member)
      · exact ⟨_, expiry, own ▸ Server.write_items_self .., keeps s active own⟩

theorem prune_spec (tidy : Tidy keyPrefix site)
    (gone : ∀ id ∈ ids, Gone keyPrefix site id) : (prune keyPrefix userID ids).Ensures Answered (fun later reply =>
      Tidy keyPrefix later ∧ Calms keyPrefix site later ∧ reply = none) site := by
  unfold prune
  split
  · exact ⟨tidy, fun _ active => active, rfl⟩
  · intro ans later answered
    cases answered with
    | command clock luck passed executed =>
      obtain ⟨replied, rfl⟩ := Prod.mk.inj (Option.some.inj executed)
      have waits : Waits site ⟨clock, site.server⟩ := ⟨passed, rfl⟩
      obtain ⟨fine, tidied, calms⟩ := (tidy.wait waits).sRem userID fun id stale => (gone id stale).later waits.calms
      obtain rfl := replied.symm.trans fine
      exact ⟨tidied, waits.calms.trans calms, rfl⟩

theorem sMembers_spec (tidy : Tidy keyPrefix site)
    (executed : site.server.execute 0 (millis site.clock.time) luck (.sMembers (userKey keyPrefix userID)) =
      some (reply, server)) :
    server = site.server ∧ ∃ ids, reply = .ok ids ∧ (∀ id ∈ ids, 58 ∉ id) ∧
      ∀ s, Active keyPrefix site s → s.userID = userID → s.id ∈ ids := by
  simp only [Server.execute] at executed
  split at executed
  · rename_i missing
    cases executed
    refine ⟨rfl, [], rfl, List.forall_mem_nil _, fun s active own => ?_⟩
    obtain ⟨_, _, found, _⟩ := tidy.index_live active
    rw [own, missing] at found
    cases found
  · rename_i members expiry found
    split at executed <;> cases executed
    rename_i perm
    obtain ⟨_, _, same, plain⟩ := (tidy.proper (Server.find_some found).1).of_index rfl
    cases same
    refine ⟨rfl, _, rfl, fun id member => plain id (perm.mem_iff.mp member), fun s active own => ?_⟩
    obtain ⟨_, _, found', listed, _⟩ := tidy.index_live active
    rw [own, found] at found'
    cases found'
    exact perm.mem_iff.mpr listed
  · rename_i found
    obtain ⟨_, _, same, _⟩ := (tidy.proper (Server.find_some found).1).of_index rfl
    cases same

theorem Tidy.setCutoff (tidy : Tidy keyPrefix site) (userID text : Str) (ttl : Duration)
    (passed : site.clock.time ≤ clock.time) :
    Tidy keyPrefix
      ⟨clock, site.server.set (millis clock.time) (revokedBeforeKey keyPrefix userID) (.text text) ttl⟩ := by
  refine (tidy.write passed ?_ (fun s expiry same => ?_) fun s _ _ clash => ?_).1
  · rintro _ ⟨⟩
    exact .cutoff
  · cases same
  · exact absurd clash.symm userKey_ne_revokedBeforeKey

private theorem revokeAllForUser_spec (tidy : Tidy keyPrefix site) :
    (revokeAllForUser keyPrefix userID).Ensures Answered (fun later _ => Tidy keyPrefix later) site := by
  intro time at_cutoff answered
  cases answered with
  | now clock passed =>
  intro ans at_list answered
  cases answered with
  | command clock' luck passed' executed =>
  cases executed
  have cut := tidy.setCutoff userID (formatInt (Instant.time time).unixNano) revokedBeforeTTL (le_trans passed passed')
  intro ans at_each answered
  cases answered with
  | command clock'' luck passed'' executed =>
  have listing : Tidy keyPrefix ⟨clock'', _⟩ := cut.wait ⟨passed'', rfl⟩
  obtain ⟨rfl, ids, rfl, _⟩ := sMembers_spec listing executed
  refine (revokeEach_spec listing ids).bind fun at_prune out ⟨tidied, _, gone⟩ => ?_
  refine (prune_spec tidied gone).bind fun later pruned ⟨tidied', _⟩ => ?_
  split
  all_goals exact tidied'

private theorem listEach_spec (tidy : Tidy keyPrefix site) (plain : ∀ id ∈ ids, 58 ∉ id) :
    (listEach keyPrefix ids).Ensures Answered (fun later out => Waits site later ∧ ∃ sessions stale,
      out = .ok (sessions, stale) ∧ (∀ id ∈ stale, Gone keyPrefix later id) ∧
      ∀ s, Active keyPrefix later s → s.id ∈ ids → s ∈ sessions) site := by
  induction ids generalizing site with
  | nil => exact ⟨⟨le_refl _, rfl⟩, [], [], rfl, List.forall_mem_nil _, fun _ _ => by rintro ⟨⟩⟩
  | cons id rest ih =>
    obtain ⟨plainId, plainRest⟩ := List.forall_mem_cons.mp plain
    refine get_spec.bind ?_
    rintro read reply ⟨waited, said⟩
    have tidied := tidy.wait waited
    cases found : read.server.find (millis read.clock.time) (sessionKey keyPrefix id) with
    | none =>
      have missing : reply = .error Sentinel.sessionNotFound := by simp [said, Server.get, found, decodeSession]
      have gone : Gone keyPrefix read id := gone_of_decode (said.symm.trans missing)
      subst missing
      refine (ih tidied plainRest).bind ?_
      rintro later out ⟨waited', sessions, stale, rfl, gone', lists⟩
      refine ⟨waited.trans waited', sessions, id :: stale, rfl,
        List.forall_mem_cons.mpr ⟨gone.later waited'.calms, gone'⟩, fun s active member => ?_⟩
      rcases List.mem_cons.mp member with self | other
      · exact absurd self (gone.later waited'.calms s active)
      · exact lists s active other
    | some item =>
      obtain ⟨s, expiry, rfl⟩ := (tidied.proper (Server.find_some found).1).of_session rfl plainId
      have present : reply = .ok s := by simp [said, Server.get, found, decodeSession]
      subst present
      refine (ih tidied plainRest).bind ?_
      rintro later out ⟨waited', sessions, stale, rfl, gone', lists⟩
      have here (r : Session) (active : Active keyPrefix read r) (self : r.id = id) : r = s := by
        have readable := active.readable
        rw [self, get_of_find found] at readable
        cases readable
        rfl
      dsimp only
      split
      · rename_i revoked
        have gone : Gone keyPrefix read id := fun r active self => by
          cases active.unrevoked.symm.trans (here r active self ▸ revoked)
        refine ⟨waited.trans waited', sessions, id :: stale, rfl,
          List.forall_mem_cons.mpr ⟨gone.later waited'.calms, gone'⟩, fun r active member => ?_⟩
        rcases List.mem_cons.mp member with self | other
        · exact absurd self (gone.later waited'.calms r active)
        · exact lists r active other
      · refine ⟨waited.trans waited', s :: sessions, stale, rfl, gone', fun r active member => ?_⟩
        rcases List.mem_cons.mp member with self | other
        · exact here r (waited'.calms r active) self ▸ List.mem_cons_self ..
        · exact List.mem_cons_of_mem _ (lists r active other)

theorem listByUser_spec (tidy : Tidy keyPrefix site) :
    (listByUser keyPrefix userID).Ensures Answered (fun later reply => Tidy keyPrefix later ∧
      ∃ sessions, reply = .ok sessions ∧ ∀ s, Active keyPrefix later s → s.userID = userID → s ∈ sessions) site := by
  intro ans at_each answered
  cases answered with
  | command clock luck passed executed =>
  have listing : Tidy keyPrefix ⟨clock, site.server⟩ := tidy.wait ⟨passed, rfl⟩
  obtain ⟨rfl, ids, rfl, plain, complete⟩ := sMembers_spec listing executed
  refine (listEach_spec listing plain).bind fun at_prune out ⟨waited, sessions, stale, same, gone, lists⟩ => ?_
  subst same
  refine (prune_spec (listing.wait waited) gone).bind fun later pruned ⟨tidied, calms, fine⟩ => ?_
  subst fine
  refine ⟨tidied, sessions, rfl, fun s active own => ?_⟩
  have before := calms s active
  exact lists s before (complete s (waited.calms s before) own)

section Save

variable {start clock : Instant} {deadline : Time} (near : deadline - start.time < 2 ^ 63 - Time.minute)
include near

theorem sub_near (positive : 0 < Time.sub deadline start.time) :
    Time.sub deadline start.time = deadline - start.time ∧ 0 < deadline - start.time ∧
    Duration.add (Time.sub deadline start.time) Time.minute = deadline - start.time + Time.minute := by
  simp only [Time.minute, Time.second] at near ⊢
  have left : Time.sub deadline start.time = deadline - start.time := by
    simp only [Time.sub] at positive ⊢
    lia
  rw [left] at positive ⊢
  exact ⟨rfl, positive, Int.bmod_eq_of_le (by norm_num; lia) (by norm_num; lia)⟩

private theorem index_outlives (passed : start.time ≤ clock.time) (positive : 0 < Time.sub deadline start.time) :
    0 < seconds (Duration.add (Time.sub deadline start.time) Time.minute) ∧ millis deadline <
      millis clock.time + 1000 * seconds (Duration.add (Time.sub deadline start.time) Time.minute) := by
  obtain ⟨_, ahead, sum⟩ := sub_near near positive
  rw [sum, seconds, if_neg (by simp only [Time.minute, Time.second]; lia)]
  rw [Int.tdiv_eq_ediv_of_nonneg (by simp only [Time.minute, Time.second]; lia)]
  simp only [millis, Time.minute, Time.second, Time.millisecond]
  lia

private theorem session_lasts (passed : start.time ≤ clock.time) (positive : 0 < Time.sub deadline start.time) :
    millis deadline ≤ millis clock.time + px (Time.sub deadline start.time) + 1 := by
  obtain ⟨left, ahead, _⟩ := sub_near near positive
  rw [left, px]
  split
  · simp only [millis, Time.millisecond] at *
    lia
  · rw [Int.tdiv_eq_ediv_of_nonneg (by lia)]
    simp only [millis, Time.millisecond]
    lia

end Save

private theorem indexed_anew (added kept : Int)
    (proper : ∀ {item}, server.items (userKey keyPrefix userID) = some item →
      ∃ members expiry, item = ⟨.members members, expiry⟩ ∧ ∀ id ∈ members, 58 ∉ id)
    (steady : ∀ members expiry, server.items (userKey keyPrefix userID) = some ⟨.members members, some expiry⟩ →
      expiry ≤ added ∨ kept < expiry)
    (plain : 58 ∉ id) (positive : 0 < seconds ttl) :
    ∃ members, ((server.sAdd added (userKey keyPrefix userID) id).2.expire kept (userKey keyPrefix userID) ttl).items =
      Function.update server.items (userKey keyPrefix userID)
        (some ⟨.members members, some (kept + 1000 * seconds ttl)⟩) ∧
      (∀ id ∈ members, 58 ∉ id) ∧ id ∈ members ∧
      ∀ old expiry, server.find added (userKey keyPrefix userID) = some ⟨.members old, expiry⟩ →
        ∀ id ∈ old, id ∈ members := by
  unfold Server.sAdd
  cases found : server.find added (userKey keyPrefix userID) with
  | none =>
    refine ⟨[id], ?_, by simpa using plain, List.mem_singleton_self _, nofun⟩
    simp [Server.expire, Server.find, Item.live, Server.write, positive]
  | some item =>
    obtain ⟨present, live⟩ := Server.find_some found
    obtain ⟨members, expiry, rfl, plain'⟩ := proper present
    have still : (Item.live (V := Payload) ⟨.members (if id ∈ members then members else id :: members), expiry⟩ kept) =
      true := by
      cases expiry with
      | none => rfl
      | some time =>
        have := steady members time present
        simp only [Item.live, decide_eq_true_eq] at live ⊢
        lia
    refine ⟨if id ∈ members then members else id :: members, ?_, ?_, ?_, ?_⟩
    · simp [Server.expire, Server.find, Server.write, positive, still]
    · split
      · exact plain'
      · exact List.forall_mem_cons.mpr ⟨plain, plain'⟩
    · split
      · assumption
      · exact List.mem_cons_self ..
    · rintro old expiry ⟨⟩ other member
      split
      · exact member
      · exact List.mem_cons_of_mem _ member

theorem Tidy.save {start stored added kept : Instant} (tidy : Tidy keyPrefix site)
    (began : site.clock.time ≤ start.time) (storing : start.time ≤ stored.time) (adding : stored.time ≤ added.time)
    (keeping : added.time ≤ kept.time) (positive : 0 < Time.sub s.expiresAt start.time) :
    let later : Site := ⟨kept, ((site.server.set (millis stored.time) (sessionKey keyPrefix s.id) (.json s.sanitize)
      (Time.sub s.expiresAt start.time)).sAdd (millis added.time) (userKey keyPrefix s.userID) s.id).2.expire
      (millis kept.time) (userKey keyPrefix s.userID) (Duration.add (Time.sub s.expiresAt start.time) Time.minute)⟩
    Lasting keyPrefix site (.save s) later → Tidy keyPrefix later := by
  rintro later ⟨plain, near, latest, steady⟩
  replace near : s.expiresAt - start.time < 2 ^ 63 - Time.minute := by lia
  obtain ⟨lasting, outlives⟩ := index_outlives near (storing.trans (adding.trans keeping)) positive
  have apart : sessionKey keyPrefix s.id ≠ userKey keyPrefix s.userID := sessionKey_ne_userKey plain
  have before : (site.server.set (millis stored.time) (sessionKey keyPrefix s.id) (.json s.sanitize)
      (Time.sub s.expiresAt start.time)).items (userKey keyPrefix s.userID) =
      site.server.items (userKey keyPrefix s.userID) := Server.write_items_other _ apart.symm
  obtain ⟨members, items, plains, own, all⟩ := indexed_anew (millis added.time) (millis kept.time)
    (fun present => (tidy.proper (before.symm.trans present)).of_index rfl) (fun members expiry present => by
      have := millis_mono (began.trans (storing.trans adding))
      have := steady members expiry (before.symm.trans present)
      lia) plain lasting
  have onIndex : later.server.items (userKey keyPrefix s.userID) = some ⟨.members members, some _⟩ :=
    (congrFun items _).trans (Function.update_self ..)
  have offIndex {key : Str} (other : key ≠ userKey keyPrefix s.userID) : later.server.items key =
      (site.server.set (millis stored.time) (sessionKey keyPrefix s.id) (.json s.sanitize)
        (Time.sub s.expiresAt start.time)).items key := (congrFun items _).trans (Function.update_of_ne other ..)
  have onSession : later.server.items (sessionKey keyPrefix s.id) =
      some ⟨.text (.json s.sanitize), some (millis stored.time + px (Time.sub s.expiresAt start.time))⟩ := by
    rw [offIndex apart, Server.set, Server.write_items_self, if_pos positive]
  have off {key : Str} (other : key ≠ userKey keyPrefix s.userID) (another : key ≠ sessionKey keyPrefix s.id) :
      later.server.items key = site.server.items key := (offIndex other).trans (Server.write_items_other _ another)
  refine ⟨fun {key item} present => ?_, fun {r} active => ?_⟩
  · by_cases isIndex : key = userKey keyPrefix s.userID
    · subst isIndex
      cases onIndex.symm.trans present
      exact .index plains
    by_cases isSession : key = sessionKey keyPrefix s.id
    · subst isSession
      cases onSession.symm.trans present
      exact .session (s := s.sanitize) plain fun _ => session_lasts near storing positive
    · exact tidy.proper ((off isIndex isSession).symm.trans present)
  · obtain ⟨expiry, found⟩ := active.live
    have present := (Server.find_some found).1
    by_cases same : r.id = s.id
    · rw [same] at present
      cases onSession.symm.trans present
      exact ⟨members, _, onIndex, own, fun time set => Option.some.inj set ▸ outlives⟩
    have notIndex : sessionKey keyPrefix r.id ≠ userKey keyPrefix s.userID := fun clash => by
      rw [clash] at present
      cases onIndex.symm.trans present
    have old : Active keyPrefix site r := active.before (began.trans (storing.trans (adding.trans keeping)))
      (off notIndex fun clash => same (sessionKey_inj.mp clash))
    obtain ⟨members', expiry', present', listed, outlives'⟩ := tidy.indexed old
    by_cases sameUser : r.userID = s.userID
    · rw [sameUser] at present'
      have live : Item.live (V := Payload) ⟨.members members', expiry'⟩ (millis added.time) = true :=
        Item.live_of_lt fun time set =>
          lt_of_le_of_lt (millis_mono (keeping.trans active.unexpired)) (outlives' time set)
      have still := all members' expiry' (Server.find_of_live (before.trans present') live) r.id listed
      refine ⟨members, _, sameUser ▸ onIndex, still, fun time set => ?_⟩
      have := millis_mono (latest r old sameUser same)
      obtain rfl := Option.some.inj set
      lia
    · exact ⟨members', expiry', (off (fun clash => sameUser (userKey_inj.mp clash))
        (sessionKey_ne_userKey plain).symm).trans present', listed, outlives'⟩

private theorem save_spec (tidy : Tidy keyPrefix site) : (save keyPrefix s).Ensures Answered (fun later _ =>
    Lasting keyPrefix site (.save s) later → Tidy keyPrefix later) site := by
  intro start at_set answered
  cases answered with
  | now _ began =>
  simp only [Prog.done_bind]
  split
  · exact fun _ => tidy.wait ⟨began, rfl⟩
  · rename_i positive
    intro stored at_add answered
    cases answered with
    | command clock luck storing executed =>
    cases executed
    intro indexed at_keep answered
    cases answered with
    | command clock' luck' adding executed =>
    obtain ⟨_, rfl⟩ := Prod.mk.inj (Option.some.inj executed)
    intro kept later answered
    cases answered with
    | command clock'' luck'' keeping executed =>
    cases executed
    have tidied := tidy.save began storing adding keeping (not_le.mp positive)
    simp only [Prog.done_bind]
    split
    all_goals exact tidied

theorem Tidy.next {later : Site} (tidy : Tidy keyPrefix site)
    (allowed : Lasting keyPrefix site request later)
    (executed : Executes Answered site (script keyPrefix request) later reply) : Tidy keyPrefix later := by
  cases request with
  | save s => exact (save_spec tidy).of_executes executed allowed
  | revoke id => exact ((revoke_spec tidy).of_executes executed).1
  | revokeIfActive id => exact (revokeIfActive_spec tidy).of_executes executed
  | revokeAllForUser userID => exact (revokeAllForUser_spec tidy).of_executes executed
  | listByUser userID => exact ((listByUser_spec tidy).of_executes executed).1

theorem Tidy.served {first : Site} (tidy : Tidy keyPrefix first)
    (run : Served keyPrefix (Lasting keyPrefix) first site) : Tidy keyPrefix site := by
  induction run with
  | refl => exact tidy
  | next _ request allowed executed ih => exact ih.next allowed executed

theorem Tidy.readable (tidy : Tidy keyPrefix site) (saved : Saved keyPrefix site s)
    (unrevoked : s.revoked = false) (left : site.clock.time + 2 * Time.millisecond ≤ s.expiresAt) :
    Active keyPrefix site s := by
  obtain ⟨expiry, present⟩ := saved
  obtain ⟨_, _, time, rfl, lasts⟩ := (tidy.proper present).json
  have := lasts unrevoked
  simp only [millis, Time.millisecond] at this left
  refine ⟨get_of_find (Server.find_of_live present ?_), unrevoked, by lia⟩
  simp only [Item.live, millis, Time.millisecond]
  lia

/-- In every run of requests on an empty server, whatever the order and the
times, in which each session is saved with a deadline not before those of the
user's other active sessions, `ListByUser` returns every active session of the
user; and a saved session that is not revoked is active until the last two
milliseconds before its deadline. -/
theorem listByUser_is_complete_where_index_lasts (keyPrefix userID : Str) (first site later : Site)
    (reply : Except Err (List Session)) (empty : ∀ key, first.server.items key = none)
    (run : Served keyPrefix (Lasting keyPrefix) first site)
    (listed : Executes Answered site (listByUser keyPrefix userID) later reply) :
    ∃ sessions, reply = .ok sessions ∧ (∀ s, Active keyPrefix later s → s.userID = userID → s ∈ sessions) ∧
      ∀ s, Saved keyPrefix later s → s.revoked = false → later.clock.time + 2 * Time.millisecond ≤ s.expiresAt →
        Active keyPrefix later s := by
  have initial : Tidy keyPrefix first :=
    ⟨fun present => absurd ((empty _).symm.trans present) nofun, fun active => by
      obtain ⟨_, found⟩ := active.live
      cases (empty _).symm.trans (Server.find_some found).1⟩
  obtain ⟨tidied, sessions, same, complete⟩ := (listByUser_spec (initial.served run)).of_executes listed
  exact ⟨sessions, same, complete, fun s saved unrevoked left => tidied.readable saved unrevoked left⟩

namespace Sample

def session (id : Str) (expiresAt : Time) : Session :=
  ⟨id, ascii "user", [], [], [], [], [], [], [], 0, expiresAt, 0, 0, false, none, [], [], [], [], [], []⟩

def long : Session := session (ascii "long") (Iam.Sample.clock ⟨2592000000000000, by decide⟩).time

def short : Session := session (ascii "short") (Iam.Sample.clock ⟨3600000000000, by decide⟩).time

def luck (order : List Str) : Luck := ⟨.delivered, order, false⟩

def filed (now : Instant) (site : Site) (s : Session) : Except Failure Unit × Server Payload :=
  (site.server.set (millis now.time) (sessionKey [] s.id) (.json s.sanitize) (Time.sub s.expiresAt now.time)).sAdd
    (millis now.time) (userKey [] s.userID) s.id

def saved (now : Instant) (site : Site) (s : Session) : Site :=
  ⟨now, (filed now site s).2.expire (millis now.time) (userKey [] s.userID)
    (Duration.add (Time.sub s.expiresAt now.time) Time.minute)⟩

def empty : Site := ⟨Iam.Sample.clock 0, ⟨fun _ => none, fun _ => none⟩⟩

theorem executes_save (now : Instant) (site : Site) (s : Session) (passed : site.clock.time ≤ now.time)
    (positive : 0 < Time.sub s.expiresAt now.time) :
    ∃ reply, Executes Answered site (save [] s) (saved now site s) reply := by
  have started : ¬ Time.sub s.expiresAt now.time ≤ 0 := not_le.mpr positive
  have listed : Answered ⟨now, site.server.set (millis now.time) (sessionKey [] s.id) (.json s.sanitize)
      (Time.sub s.expiresAt now.time)⟩ (.inr (.sAdd (userKey [] s.userID) s.id)) (filed now site s).1
      ⟨now, (filed now site s).2⟩ := .command now (luck []) (le_refl _) rfl
  cases verdict : firstError [.ok (), (filed now site s).1, .ok ()] with
  | error failure =>
    refine ⟨.error (failed "iam/redis: failed to save session: " failure), .call (.now now passed) ?_⟩
    simp only [Prog.done_bind, if_neg started]
    refine .call (.command now (luck []) (le_refl _) rfl) (.call listed
      (.call (.command now (luck []) (le_refl _) rfl) ?_))
    dsimp only [Prog.done_bind]
    rw [verdict]
    exact .done
  | ok done =>
    refine ⟨.ok (), .call (.now now passed) ?_⟩
    simp only [Prog.done_bind, if_neg started]
    refine .call (.command now (luck []) (le_refl _) rfl) (.call listed
      (.call (.command now (luck []) (le_refl _) rfl) ?_))
    dsimp only [Prog.done_bind]
    rw [verdict]
    exact .done

def halfAnHour : Instant := Iam.Sample.clock ⟨1800000000000, by decide⟩

def twoHours : Instant := Iam.Sample.clock ⟨7200000000000, by decide⟩

def first : Site := saved (Iam.Sample.clock 0) empty short

def second : Site := saved halfAnHour first long

private theorem first_items : ∃ own index, first.server.items = Function.update (Function.update (fun _ => none)
    (sessionKey [] short.id) (some ⟨.text (.json short), own⟩)) (userKey [] (ascii "user"))
    (some ⟨.members [short.id], some index⟩) ∧ millis halfAnHour.time < index := by
  have items : first.server.items = Function.update (Function.update (Function.update (fun _ => none)
      (sessionKey [] short.id) (some ⟨.text (.json short), _⟩)) (userKey [] (ascii "user"))
      (some ⟨.members [short.id], none⟩)) (userKey [] (ascii "user")) (some ⟨.members [short.id], some _⟩) := rfl
  rw [Function.update_idem] at items
  exact ⟨_, _, items, by decide⟩

/-- The session of thirty days is saved after the one of an hour, which keeps the index. -/
theorem second_lasting : Lasting [] first (.save long) second := by
  obtain ⟨own, index, items, lasts⟩ := first_items
  refine ⟨by decide, by decide, fun other active _ _ => ?_, fun members expiry present => ?_⟩
  · obtain ⟨expiry, found⟩ := active.live
    obtain ⟨present, _⟩ := Server.find_some found
    rw [items, Function.update_apply, Function.update_apply] at present
    split_ifs at present
    · cases present
    · cases present
      decide
  · rw [items] at present
    cases (Function.update_self ..).symm.trans present
    exact .inr lasts

end Sample

theorem sample_listed : ∃ later sessions, Served [] (Lasting []) Sample.empty Sample.second ∧
    Executes Answered Sample.second (listByUser [] (ascii "user")) later (.ok sessions) ∧
    later.clock = Sample.twoHours ∧ Active [] later Sample.long ∧ Sample.long ∈ sessions ∧
      Sample.short ∉ sessions := by
  obtain ⟨_, one⟩ := Sample.executes_save (Iam.Sample.clock 0) Sample.empty Sample.short (le_refl _) (by decide)
  obtain ⟨_, other⟩ := Sample.executes_save Sample.halfAnHour Sample.first Sample.long (by decide) (by decide)
  have lasting : Lasting [] Sample.empty (.save Sample.short) Sample.first := by
    refine ⟨by decide, by decide, fun other active => ?_, nofun⟩
    obtain ⟨_, found⟩ := active.live
    cases found
  have run : Served [] (Lasting []) Sample.empty Sample.second :=
    .next (.next .refl (.save Sample.short) lasting one) (.save Sample.long) Sample.second_lasting other
  -- both ids are read, in either order; the short session has expired and its id is pruned
  have lists : ∃ later, later.clock = Sample.twoHours ∧ Saved [] later Sample.long ∧
      Executes Answered Sample.second (listByUser [] (ascii "user")) later (.ok [Sample.long]) :=
    ⟨_, rfl, ⟨_, rfl⟩, .call (.command Sample.twoHours (Sample.luck [ascii "long", ascii "short"]) (by decide) rfl)
      (.call (.command Sample.twoHours (Sample.luck []) (le_refl _) rfl)
        (.call (.command Sample.twoHours (Sample.luck []) (le_refl _) rfl)
          (.call (.command Sample.twoHours (Sample.luck []) (le_refl _) rfl) .done)))⟩
  obtain ⟨later, time, saved, listed⟩ := lists
  obtain ⟨sessions, same, complete, readable⟩ := listByUser_is_complete_where_index_lasts [] (ascii "user") _ _ _ _
    (fun _ => rfl) run listed
  have active := readable Sample.long saved rfl (by rw [time]; decide)
  refine ⟨later, sessions, run, same ▸ listed, time, active, complete _ active rfl, ?_⟩
  cases same
  decide

/-- A session of an hour that is saved after one of thirty days cuts the index
short: two hours later the long session can be read but is not listed. -/
theorem shorter_session_hides_longer_one : ∃ site later s, Served [] (fun _ _ _ => True) Sample.empty site ∧
    Executes Answered site (listByUser [] (ascii "user")) later (.ok []) ∧ Saved [] later s ∧ Active [] later s ∧
    s.userID = ascii "user" := by
  let now := Iam.Sample.clock 0
  let site := Sample.saved now (Sample.saved now Sample.empty Sample.long) Sample.short
  obtain ⟨_, first⟩ := Sample.executes_save now Sample.empty Sample.long (le_refl _) (by decide)
  obtain ⟨_, second⟩ := Sample.executes_save now (Sample.saved now Sample.empty Sample.long) Sample.short (le_refl _)
    (by decide)
  have run : Served [] (fun _ _ _ => True) Sample.empty site :=
    .next (.next .refl (.save Sample.long) trivial first) (.save Sample.short) trivial second
  let later : Site := ⟨Sample.twoHours, site.server⟩
  have lists : Executes Answered site (listByUser [] (ascii "user")) later (.ok []) :=
    .call (.command later.clock (Sample.luck []) (by decide) rfl) .done
  exact ⟨_, later, Sample.long, run, lists, ⟨_, rfl⟩, ⟨rfl, rfl, by decide⟩, rfl⟩

end Gofi.Iam.Redis
