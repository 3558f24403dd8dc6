import Gofi.Concurrent.Sequential
import Gofi.Iam.Provider.Oidc
import Gofi.Iam.Rotation
import Mathlib.Logic.Relation

/-! Logins through an OpenID Connect provider: whom `IDPService` takes the user
of a callback for. The caches of the provider are shared, so they may be
refreshed by other calls between any two operations of one. -/

namespace Gofi.Iam.Oidc

open Gofi.Concurrent Gofi.Go

structure IDPService extends SessionIssuer where
  provider : Provider
  user : Bool

namespace IDPService

variable (net : Jwks.Net) (jwt : Jwt.Parser Jwks.Key) (s : IDPService)

def loginFailed (userID : Str) (err : Err) : Script web (Except Err CallbackResult) := do
  Prog.left (Port.emitNow fun timestamp => {
    type := .idpLoginFailed
    userID := userID
    provider := s.provider.name
    timestamp := timestamp
    error := some err })
  pure (.error err)

def identity (user : IDPUser) (linkedAt : Time) : ExternalIdentity where
  provider := user.provider
  externalID := user.externalID
  email := user.email
  emailVerified := user.emailVerified
  linkedAt := linkedAt

def welcome (result : CallbackResult) (user : User) : Port (Except Err CallbackResult) := do
  match ← Port.listUserTenants user.id with
  | .error err => pure (.error err)
  | .ok tenants =>
    Port.emitNow fun timestamp => {
      type := if result.isNewUser then .newUser else .idpLogin
      userID := user.id
      provider := s.provider.name
      timestamp := timestamp }
    let ticket ← s.cfg.issueTenantTicket s.lib s.provider.name user.id
    pure (.ok ⟨user.id, ticket, result.idpUser, tenants, result.isNewUser⟩)

def handleCallback (input : CallbackInput) : Script web (Except Err CallbackResult) :=
  if !s.user ∨ !s.tenant then pure (.error Sentinel.loginPortsRequired)
  -- Equal empty states would pass any comparison: that is login CSRF.
  else if input.state = [] ∨ input.expectedState = [] then s.loginFailed [] Sentinel.invalidIDPState
  else do
    match ← s.provider.handleCallback net jwt s.lib input with
    | .error err => s.loginFailed [] err
    | .ok result =>
      let linkedAt ← Script.now web
      match ← Script.atom web (.findOrCreateByExternalIdentity (identity result.idpUser linkedAt)) with
      | .error err => pure (.error err)
      | .ok none => s.loginFailed [] Sentinel.accountInactive
      | .ok (some user) =>
        if !user.active then s.loginFailed user.id Sentinel.accountInactive
        else Prog.left (s.welcome result user)

end IDPService

structure Internet where
  discovery : Str → Response DiscoveryDoc → Prop
  keys : Str → Response (List Jwks.JwkKey) → Prop

/-- The process while callbacks run: its clock, the caches of the provider, and
what the callback in question has done, the latest first. -/
structure Host where
  clock : Instant
  discovery : Option DiscoveryDoc
  discFetchedAt : Time
  keys : Jwks.Cache
  log : History (ports.sum web)

def Host.fresh (clock : Instant) : Host := ⟨clock, none, 0, .empty, []⟩

section Process

variable (net : Jwks.Net) (jwt : Jwt.Parser Jwks.Key) (internet : Internet) (p : Provider)

/-- A document that discovery accepts. -/
def Admitted (doc : DiscoveryDoc) : Prop :=
  ∃ response, internet.discovery p.discoveryURL response ∧ p.fetchDiscovery net response = .ok doc

def KeyOf (key : Jwks.Key) : Prop :=
  ∃ doc set, Admitted net internet p doc ∧ internet.keys doc.jwksURI (.document set) ∧
    ∃ k ∈ set, k.publicKey net = .ok key

/-- What happens around a callback: time passes, and a refetch that this or
another call has started ends well. One that fails changes nothing. -/
inductive Moves : Host → Host → Prop where
  | wait (later : host.clock.time ≤ clock.time) : Moves host { host with clock := clock }
  | discovered (admitted : Admitted net internet p doc) :
      Moves host { host with discovery := some doc, discFetchedAt := host.clock.time }
  | fetched (admitted : Admitted net internet p doc) (served : internet.keys doc.jwksURI response)
      (made : Jwks.fetch net doc.jwksURI response = .ok keys) :
      Moves host { host with keys := ⟨keys, host.clock.time⟩ }

/-- The answers to the operations of a callback: the clock and the caches tell
what they hold, everybody else answers at will. -/
def Responds (host : Host) : (op : (ports.sum web).Op) → (ports.sum web).Ans op → Prop
  | .inl .now, clock => clock = host.clock
  | .inr .readDiscovery, seen => seen = (host.discovery, host.discFetchedAt)
  | .inr .readKeys, seen => seen = host.keys
  | _, _ => True

/-- One operation of a callback, after whatever happened before it. -/
def Answered : Answers (ports.sum web) Host := fun host op ans later =>
  ∃ middle, Relation.ReflTransGen (Moves net internet p) host middle ∧ Responds middle op ans ∧
    later = { middle with log := ⟨op, ans⟩ :: middle.log }

variable {net jwt internet p}

/-- Everything in the caches comes from the provider's servers. -/
structure Sound (net : Jwks.Net) (internet : Internet) (p : Provider) (host : Host) : Prop where
  discovery : ∀ doc, host.discovery = some doc → Admitted net internet p doc
  keys : ∀ cached ∈ host.keys.keys, KeyOf net internet p cached.key

theorem Sound.fresh (clock : Instant) : Sound net internet p (.fresh clock) := ⟨nofun, nofun⟩

theorem Sound.moves (sound : Sound net internet p host) (moved : Moves net internet p host later) :
    Sound net internet p later := by
  cases moved with
  | wait => exact ⟨sound.discovery, sound.keys⟩
  | discovered admitted =>
    refine ⟨fun doc found => ?_, sound.keys⟩
    cases found
    exact admitted
  | fetched admitted served made =>
    refine ⟨sound.discovery, fun cached member => ?_⟩
    obtain ⟨set, rfl, published⟩ := Jwks.published_of_fetch net made member
    exact ⟨_, set, admitted, served, published⟩

theorem Sound.around (sound : Sound net internet p host)
    (moved : Relation.ReflTransGen (Moves net internet p) host later) : Sound net internet p later := by
  induction moved with
  | refl => exact sound
  | tail _ last ih => exact ih.moves last

theorem log_around (moved : Relation.ReflTransGen (Moves net internet p) host later) : later.log = host.log := by
  induction moved with
  | refl => rfl
  | tail _ last ih =>
    rw [← ih]
    cases last <;> rfl

theorem log_of_answered (answered : Answered net internet p host op ans later) :
    later.log = ⟨op, ans⟩ :: host.log := by
  obtain ⟨middle, moved, _, rfl⟩ := answered
  rw [log_around moved]

def Lookup (op : (ports.sum web).Op) : Prop := ∃ identity, op = .inr (.findOrCreateByExternalIdentity identity)

structure Kept (net : Jwks.Net) (internet : Internet) (p : Provider) (host later : Host) : Prop where
  sound : Sound net internet p later
  grown : host.log ⊆ later.log
  silent : ∀ event ∈ later.log, Lookup event.op → event ∈ host.log

theorem Kept.refl (sound : Sound net internet p host) : Kept net internet p host host :=
  ⟨sound, fun _ => id, fun _ member _ => member⟩

theorem Kept.trans (before : Kept net internet p host middle) (after : Kept net internet p middle later) :
    Kept net internet p host later where
  sound := after.sound
  grown := List.Subset.trans before.grown after.grown
  silent event member lookup := before.silent event (after.silent event member lookup) lookup

theorem Sound.answered (sound : Sound net internet p host) (answered : Answered net internet p host op ans later) :
    Sound net internet p later ∧ ∃ middle, Sound net internet p middle ∧ Responds middle op ans := by
  obtain ⟨middle, moved, told, rfl⟩ := answered
  have still := sound.around moved
  exact ⟨⟨still.discovery, still.keys⟩, middle, still, told⟩

theorem Kept.answered (kept : Kept net internet p host middle) (answered : Answered net internet p middle op ans later)
    (other : ¬ Lookup op) : Kept net internet p host later ∧ ⟨op, ans⟩ ∈ later.log := by
  obtain ⟨sound, -⟩ := kept.sound.answered answered
  have logged := log_of_answered answered
  refine ⟨⟨sound, ?_, ?_⟩, ?_⟩
  · rw [logged]
    exact List.Subset.trans kept.grown (List.subset_cons_self _ _)
  · intro event member lookup
    rw [logged] at member
    rcases List.mem_cons.mp member with rfl | old
    · exact absurd lookup other
    · exact kept.silent event old lookup
  · rw [logged]
    exact List.mem_cons_self

private theorem getDiscovery_spec (sound : Sound net internet p host) :
    Provider.getDiscovery.Ensures (Answered net internet p) (fun later r => Kept net internet p host later ∧
      ∀ doc, r = .ok doc → Admitted net internet p doc) host := by
  intro seen one answered
  obtain ⟨kept, -⟩ := (Kept.refl sound).answered answered nofun
  obtain ⟨-, middle, source, rfl⟩ := sound.answered answered
  intro clock two read
  obtain ⟨kept, -⟩ := kept.answered read nofun
  dsimp only [Prog.done_bind]
  split
  · rename_i doc fresh
    refine ⟨kept, fun found same => ?_⟩
    cases same
    split at fresh
    · exact source.discovery _ fresh
    · cases fresh
  · intro fetched three refetched
    obtain ⟨kept, -⟩ := kept.answered refetched nofun
    intro seen four reread
    obtain ⟨-, again, current, rfl⟩ := kept.sound.answered reread
    obtain ⟨kept, -⟩ := kept.answered reread nofun
    dsimp only [Prog.done_bind]
    split
    · rename_i doc present
      refine ⟨kept, fun found same => ?_⟩
      cases same
      exact current.discovery _ present
    · exact ⟨kept, nofun⟩
    · exact ⟨kept, nofun⟩

theorem KeyOf.of_findKey (sound : Sound net internet p host) (found : host.keys.findKey kid = some key) :
    KeyOf net internet p key := by
  obtain ⟨cached, member, rfl⟩ := Jwks.Cache.mem_of_findKey found
  exact sound.keys cached member

private theorem getKey_spec (sound : Sound net internet p host) :
    (Jwks.getKey net (Script.atom web .readKeys) (Script.now web) (Script.atom web (.refetchKeys url)) ttl kid).Ensures
      (Answered net internet p) (fun later r => Kept net internet p host later ∧
        ∀ key, r = .ok key → KeyOf net internet p key) host := by
  intro seen one answered
  obtain ⟨kept, -⟩ := (Kept.refl sound).answered answered nofun
  obtain ⟨-, middle, source, rfl⟩ := sound.answered answered
  intro clock two read
  obtain ⟨kept, -⟩ := kept.answered read nofun
  dsimp only [Prog.done_bind]
  split
  · rename_i key fresh
    refine ⟨kept, fun found same => ?_⟩
    cases same
    split at fresh
    · exact .of_findKey source fresh
    · cases fresh
  · split
    · exact ⟨kept, nofun⟩
    · intro fetched three refetched
      obtain ⟨kept, -⟩ := kept.answered refetched nofun
      intro seen four reread
      obtain ⟨-, again, current, rfl⟩ := kept.sound.answered reread
      obtain ⟨kept, -⟩ := kept.answered reread nofun
      dsimp only [Prog.done_bind]
      split
      · rename_i key present
        refine ⟨kept, fun found same => ?_⟩
        cases same
        exact .of_findKey current present
      · exact ⟨kept, nofun⟩
      · exact ⟨kept, nofun⟩

def Received (log : History (ports.sum web)) (token : Str) : Prop :=
  ∃ endpoint form, ⟨.inr (.post endpoint form), .document ⟨token⟩⟩ ∈ log

private theorem exchangeCode_spec (sound : Sound net internet p host) :
    (p.exchangeCode net endpoint input redirectURI).Ensures (Answered net internet p) (fun later r =>
      Kept net internet p host later ∧ ∀ tokens, r = .ok tokens → Received later.log tokens.idToken) host := by
  unfold Provider.exchangeCode
  split
  · exact ⟨.refl sound, nofun⟩
  · intro response later answered
    obtain ⟨kept, logged⟩ := (Kept.refl sound).answered answered nofun
    dsimp only [Prog.done_bind]
    split
    · exact ⟨kept, nofun⟩
    · exact ⟨kept, nofun⟩
    · exact ⟨kept, nofun⟩
    · exact ⟨kept, nofun⟩
    · refine ⟨kept, fun tokens same => ?_⟩
      cases same
      exact ⟨_, _, logged⟩

/-- What holds of the id_token of an accepted callback. -/
structure Checked (net : Jwks.Net) (jwt : Jwt.Parser Jwks.Key) (Signed : Jwks.Key → Str → Prop) (internet : Internet)
    (p : Provider) (log : History (ports.sum web)) (token nonce : Str) (mc : MapClaims) : Prop where
  decoded : ∃ parsed, jwt.parseUnverified token = .ok parsed ∧ parsed.claims = mc
  signed : ∃ key, KeyOf net internet p key ∧ Signed key token
  audience : mc.Addressed p.cfg.clientID
  unexpired : ∃ clock, ⟨.inl PortOp.now, clock⟩ ∈ log ∧ mc.Unexpired (Instant.time clock - p.cfg.clockSkew)
  nonce : mc.lookup (ascii "nonce") = some (.string nonce) ∧ nonce ≠ []

private theorem checkIDTokenClaims_spec (accepted : p.checkIDTokenClaims mc nonce = .ok user) :
    user = mapClaims mc p.name ∧ mc.lookup (ascii "nonce") = some (.string nonce) ∧ nonce ≠ [] := by
  unfold Provider.checkIDTokenClaims at accepted
  split at accepted
  · cases accepted
  · split at accepted
    · cases accepted
    · rename_i matched
      rw [not_or, not_not] at matched
      split at accepted <;> cases accepted
      exact ⟨rfl, (MapClaims.getString_eq_iff mc matched.1).mp matched.2, matched.1⟩

private theorem keyFunc_eq (chosen : Provider.keyFunc alg key method = .ok used) : used = key := by
  unfold Provider.keyFunc at chosen
  split at chosen <;> cases chosen
  rfl

theorem Provider.addressed (documented : jwt.Documented Signed)
    (accepted : jwt.parseWithClaims now p.idTokenParserOptions choose token = .ok mc) :
    mc.Addressed p.cfg.clientID := by
  have asked : .withAudience p.cfg.clientID ∈ p.idTokenParserOptions :=
    List.mem_append_left _ (by simp [commonOptions])
  obtain ⟨audience, given, addressed⟩ := documented.audience accepted asked
  have only : audience = p.cfg.clientID := by simpa [idTokenParserOptions, commonOptions] using given
  exact only ▸ addressed

theorem Provider.unexpired (documented : jwt.Documented Signed)
    (accepted : jwt.parseWithClaims now p.idTokenParserOptions choose token = .ok mc) :
    mc.Unexpired (now - p.cfg.clockSkew) := by
  have asked : .withExpirationRequired ∈ p.idTokenParserOptions := List.mem_append_left _ (by simp [commonOptions])
  obtain ⟨leeway, given, exp, dated, early⟩ := documented.expiration accepted asked
  have skewed := p.skewed
  refine ⟨exp, dated, lt_of_le_of_lt ?_ early⟩
  rcases given with rfl | given
  · lia
  · have only : leeway = p.cfg.clockSkew := by simpa [idTokenParserOptions, commonOptions] using given
    rw [only]

private theorem validateIDToken_spec (documented : jwt.Documented Signed) (sound : Sound net internet p host) :
    (p.validateIDToken net jwt disc token nonce).Ensures (Answered net internet p) (fun later r =>
      Kept net internet p host later ∧ ∀ user, r = .ok user →
        ∃ mc, user = mapClaims mc p.name ∧ Checked net jwt Signed internet p later.log token nonce mc) host := by
  unfold Provider.validateIDToken
  split
  · exact ⟨.refl sound, nofun⟩
  · refine (getKey_spec sound).bind ?_
    rintro middle found ⟨kept, ofProvider⟩
    split
    · exact ⟨kept, nofun⟩
    · rename_i key
      intro clock later read
      obtain ⟨kept, logged⟩ := kept.answered read nofun
      dsimp only [Prog.done_bind]
      split
      · exact ⟨kept, nofun⟩
      · rename_i mc accepted
        refine ⟨kept, fun user same => ?_⟩
        obtain ⟨rfl, nonce⟩ := checkIDTokenClaims_spec same
        obtain ⟨alg, used, chosen, signed⟩ := documented.signed accepted
        exact ⟨mc, rfl, documented.decoded accepted, ⟨key, ofProvider key rfl, keyFunc_eq chosen ▸ signed⟩,
          Provider.addressed documented accepted, ⟨clock, logged, Provider.unexpired documented accepted⟩, nonce⟩

/-- An accepted callback: its state is the expected one, and the token endpoint sent the id_token. -/
structure Vouched (net : Jwks.Net) (jwt : Jwt.Parser Jwks.Key) (Signed : Jwks.Key → Str → Prop) (internet : Internet)
    (p : Provider) (lib : Library) (log : History (ports.sum web)) (input : CallbackInput) (token : Str)
    (mc : MapClaims) : Prop where
  state : input.state = input.expectedState
  filled : input.expectedState ≠ []
  received : Received log token
  checked : Checked net jwt Signed internet p log token (input.boundNonce lib) mc

theorem Received.mono (received : Received log token) (grown : log ⊆ longer) : Received longer token := by
  obtain ⟨endpoint, form, member⟩ := received
  exact ⟨endpoint, form, grown member⟩

theorem Vouched.mono (vouched : Vouched net jwt Signed internet p lib log input token mc) (grown : log ⊆ longer) :
    Vouched net jwt Signed internet p lib longer input token mc := by
  obtain ⟨clock, read, unexpired⟩ := vouched.checked.unexpired
  exact ⟨vouched.state, vouched.filled, vouched.received.mono grown,
    { vouched.checked with unexpired := ⟨clock, grown read, unexpired⟩ }⟩

theorem handleCallback_spec (documented : jwt.Documented Signed) (sound : Sound net internet p host) :
    (p.handleCallback net jwt lib input).Ensures (Answered net internet p) (fun later r =>
      Kept net internet p host later ∧ ∀ result, r = .ok result → ∃ token mc,
        Vouched net jwt Signed internet p lib later.log input token mc ∧
          result.idpUser = mapClaims mc p.name) host := by
  unfold Provider.handleCallback
  split
  · exact ⟨.refl sound, nofun⟩
  · rename_i stated
    simp only [not_or, not_not] at stated
    split
    · exact ⟨.refl sound, nofun⟩
    · refine (getDiscovery_spec sound).bind ?_
      rintro one disc ⟨discovered, -⟩
      split
      · exact ⟨discovered, nofun⟩
      · refine (exchangeCode_spec discovered.sound).bind ?_
        rintro two tokens ⟨exchanged, received⟩
        split
        · exact ⟨discovered.trans exchanged, nofun⟩
        · rename_i tokens
          refine (validateIDToken_spec documented exchanged.sound).bind ?_
          rintro three user ⟨validated, accepted⟩
          have kept := (discovered.trans exchanged).trans validated
          split
          · exact ⟨kept, nofun⟩
          · refine ⟨kept, fun result same => ?_⟩
            cases same
            obtain ⟨mc, rfl, checked⟩ := accepted _ rfl
            exact ⟨tokens.idToken, mc, ⟨stated.2.2.2, stated.2.1, (received tokens rfl).mono validated.grown, checked⟩,
              rfl⟩

/-- Every user looked up is named by the token of an accepted callback. -/
def Named (net : Jwks.Net) (jwt : Jwt.Parser Jwks.Key) (Signed : Jwks.Key → Str → Prop) (internet : Internet)
    (p : Provider) (lib : Library) (input : CallbackInput) (log : History (ports.sum web)) : Prop :=
  ∀ identity ans, ⟨.inr (.findOrCreateByExternalIdentity identity), ans⟩ ∈ log →
    ∃ token mc, Vouched net jwt Signed internet p lib log input token mc ∧ identity.provider = p.name ∧
      identity.externalID = mc.getString (ascii "sub")

theorem Named.silent (kept : Kept net internet p host later) (started : host.log = []) :
    Named net jwt Signed internet p lib input later.log := by
  intro identity ans member
  have before := kept.silent _ member ⟨identity, rfl⟩
  rw [started] at before
  cases before

theorem Named.grown (named : Named net jwt Signed internet p lib input log)
    (other : ¬ Lookup op) : Named net jwt Signed internet p lib input (⟨op, ans⟩ :: log) := by
  intro identity found member
  rcases List.mem_cons.mp member with same | old
  · cases same
    exact absurd ⟨identity, rfl⟩ other
  · obtain ⟨token, mc, vouched, agrees⟩ := named identity found old
    exact ⟨token, mc, vouched.mono (List.subset_cons_self _ _), agrees⟩

theorem Named.asked (named : Named net jwt Signed internet p lib input log)
    (vouched : Vouched net jwt Signed internet p lib log input token mc) : Named net jwt Signed internet p lib input
      (⟨.inr (.findOrCreateByExternalIdentity (IDPService.identity (mapClaims mc p.name) linkedAt)), ans⟩ :: log) := by
  intro identity found member
  rcases List.mem_cons.mp member with same | old
  · cases same
    exact ⟨token, mc, vouched.mono (List.subset_cons_self _ _), rfl, rfl⟩
  · obtain ⟨earlier, claims, accepted, agrees⟩ := named identity found old
    exact ⟨earlier, claims, accepted.mono (List.subset_cons_self _ _), agrees⟩

theorem Named.left (named : Named net jwt Signed internet p lib input host.log) (program : Port α) :
    (program.left (L := web)).Ensures (Answered net internet p)
      (fun later _ => Named net jwt Signed internet p lib input later.log) host := by
  refine Prog.Ensures.left ?_ program named
  intro world op ans later before answered
  rw [log_of_answered answered]
  exact before.grown nofun

theorem Named.loginFailed {s : IDPService} (named : Named net jwt Signed internet p lib input host.log) :
    (s.loginFailed userID err).Ensures (Answered net internet p)
      (fun later _ => Named net jwt Signed internet p lib input later.log) host :=
  (named.left _).bind fun _ _ still => still

private theorem service_spec (documented : jwt.Documented Signed) (s : IDPService)
    (sound : Sound net internet s.provider host) (started : host.log = []) :
    (s.handleCallback net jwt input).Ensures (Answered net internet s.provider)
      (fun later _ => Named net jwt Signed internet s.provider s.lib input later.log) host := by
  have nobody : Named net jwt Signed internet s.provider s.lib input host.log := .silent (.refl sound) started
  unfold IDPService.handleCallback
  split
  · exact nobody
  · split
    · exact nobody.loginFailed
    · refine (handleCallback_spec documented sound).bind ?_
      rintro one result ⟨kept, accepted⟩
      split
      · exact Named.loginFailed (.silent kept started)
      · rename_i result
        obtain ⟨token, mc, vouched, user⟩ := accepted result rfl
        intro clock two read
        obtain ⟨timed, -⟩ := kept.answered read nofun
        intro found three asked
        have named : Named net jwt Signed internet s.provider s.lib input three.log := by
          rw [log_of_answered asked, user]
          refine Named.asked (.silent timed started) (vouched.mono ?_)
          rw [log_of_answered read]
          exact List.subset_cons_self _ _
        dsimp only [Prog.done_bind]
        split
        · exact named
        · exact named.loginFailed
        · split
          · exact named.loginFailed
          · exact named.left _

def HasSubject (mc : MapClaims) : Prop := ∃ sub, sub ≠ [] ∧ mc.lookup (ascii "sub") = some (.string sub)

theorem HasSubject.lookup (subject : HasSubject mc) :
    mc.lookup (ascii "sub") = some (.string (mc.getString (ascii "sub"))) := by
  obtain ⟨sub, filled, found⟩ := subject
  rw [(MapClaims.getString_eq_iff mc filled).mpr found, found]

private theorem hasSubject_iff (mc : MapClaims) : mc.getString (ascii "sub") ≠ [] ∧
    mc.lookup (ascii "sub") = some (.string (mc.getString (ascii "sub"))) ↔ HasSubject mc := by
  constructor
  · rintro ⟨filled, found⟩
    exact ⟨_, filled, found⟩
  · intro subject
    refine ⟨?_, subject.lookup⟩
    obtain ⟨sub, filled, found⟩ := subject
    rw [(MapClaims.getString_eq_iff mc filled).mpr found]
    exact filled

/-- A process that a provider was created in, after any refreshes of its caches. -/
def Reachable (net : Jwks.Net) (internet : Internet) (p : Provider) (host : Host) : Prop :=
  ∃ clock, Relation.ReflTransGen (Moves net internet p) (.fresh clock) host

theorem Reachable.sound (reachable : Reachable net internet p host) : Sound net internet p host := by
  obtain ⟨clock, moved⟩ := reachable
  exact (Sound.fresh clock).around moved

theorem Reachable.started (reachable : Reachable net internet p host) : host.log = [] := by
  obtain ⟨clock, moved⟩ := reachable
  exact log_around moved

/-- A run of `IDPService.HandleCallback` in which a user was looked up. -/
structure Arrival (net : Jwks.Net) (jwt : Jwt.Parser Jwks.Key) (internet : Internet) (s : IDPService) where
  input : CallbackInput
  host : Host
  later : Host
  result : Except Err CallbackResult
  reachable : Reachable net internet s.provider host
  ran : Executes (Answered net internet s.provider) host (s.handleCallback net jwt input) later result
  identity : ExternalIdentity
  found : Except Err (Option User)
  asked : ⟨.inr (.findOrCreateByExternalIdentity identity), found⟩ ∈ later.log

theorem Arrival.named (documented : jwt.Documented Signed) (arrival : Arrival net jwt internet s) :
    Named net jwt Signed internet s.provider s.lib arrival.input arrival.later.log :=
  (service_spec documented s arrival.reachable.sound arrival.reachable.started).of_executes arrival.ran

variable (net jwt internet)

/-- A callback that the provider accepts has a matching state and an id_token that
is signed by the provider, meant for this client, not expired, and bound to the
state. Its user is the subject of the token if and only if the token has one;
logins with a subject share an identity exactly when they share the subject. -/
theorem external_identity_is_subject_iff (documented : jwt.Documented Signed) (s : IDPService) :
    (∀ input host later result, Reachable net internet s.provider host →
      Executes (Answered net internet s.provider) host (s.provider.handleCallback net jwt s.lib input) later
        (.ok result) →
      ∃ token mc, Vouched net jwt Signed internet s.provider s.lib later.log input token mc ∧
        (result.idpUser.externalID ≠ [] ∧ mc.lookup (ascii "sub") = some (.string result.idpUser.externalID) ↔
          HasSubject mc)) ∧
    ∀ one two : Arrival net jwt internet s, ∃ token mc token' mc',
      Vouched net jwt Signed internet s.provider s.lib one.later.log one.input token mc ∧
      Vouched net jwt Signed internet s.provider s.lib two.later.log two.input token' mc' ∧
      (HasSubject mc → HasSubject mc' →
        (one.identity.provider = two.identity.provider ∧ one.identity.externalID = two.identity.externalID ↔
          mc.lookup (ascii "sub") = mc'.lookup (ascii "sub"))) := by
  constructor
  · intro input host later result reachable ran
    obtain ⟨-, accepted⟩ := (handleCallback_spec documented reachable.sound).of_executes ran
    obtain ⟨token, mc, vouched, user⟩ := accepted result rfl
    refine ⟨token, mc, vouched, ?_⟩
    rw [user]
    exact hasSubject_iff mc
  · intro one two
    obtain ⟨token, mc, vouched, provider, external⟩ := one.named documented _ _ one.asked
    obtain ⟨token', mc', vouched', provider', external'⟩ := two.named documented _ _ two.asked
    refine ⟨token, mc, token', mc', vouched, vouched', fun subject subject' => ?_⟩
    rw [provider, provider', external, external', subject.lookup, subject'.lookup]
    simp

end Process

namespace Sample

def net : Jwks.Net where
  parseURL _ := .ok ⟨ascii "https", ascii "idp", ascii "idp"⟩
  isLoopback _ := false
  onCurve _ _ := true
  quote := id

def jwk : Jwks.JwkKey := ⟨ascii "EC", ascii "key", [], [], ascii "P-256", [], []⟩

def key : Jwks.Key := .ecdsa .p256 (4 :: List.replicate 64 0)

def doc : DiscoveryDoc := ⟨ascii "https://idp", ascii "https://idp/token", ascii "https://idp/jwks"⟩

def internet : Internet := ⟨fun _ response => response = .document doc, fun _ response => response = .document [jwk]⟩

def subject (token : Str) : MapClaims :=
  if token = ascii "without" then []
  else if token = ascii "number" then [(ascii "sub", .number 7)]
  else [(ascii "sub", .string token)]

def claims (token : Str) : MapClaims :=
  subject token ++ [(ascii "iss", .string (ascii "https://idp")), (ascii "aud", .string (ascii "client")),
    (ascii "exp", .number 4000000000), (ascii "nonce", .string (ascii "nonce"))]

def jwt : Jwt.Parser Jwks.Key :=
  .strict key [(ascii "alg", .string (ascii "ES256")), (ascii "kid", .string (ascii "key"))] claims

def Signed (used : Jwks.Key) (_ : Str) : Prop := used = key

theorem documented : jwt.Documented Signed := Jwt.Parser.strict_documented key _ claims

def service : IDPService where
  toSessionIssuer := Iam.Sample.auth.toSessionIssuer
  provider := .new (ascii "idp") ⟨ascii "https://idp", ascii "client", ascii "secret", [], none, none, 0, 0⟩
  user := true

def input : CallbackInput := ⟨ascii "code", ascii "state", ascii "state", ascii "verifier", ascii "nonce", []⟩

def host : Host :=
  ⟨Iam.Sample.clock 0, some doc, (Iam.Sample.clock 0).time, ⟨[⟨ascii "key", key⟩], (Iam.Sample.clock 0).time⟩, []⟩

theorem admitted : Admitted net internet service.provider doc := ⟨.document doc, rfl, rfl⟩

theorem reachable : Reachable net internet service.provider host := by
  refine ⟨Iam.Sample.clock 0, .tail (.tail .refl (.discovered admitted)) (.fetched admitted rfl ?_)⟩
  rfl

theorem onward {value : α} (op : (ports.sum web).Op) (ans : (ports.sum web).Ans op) (log : History (ports.sum web))
    {next : (ports.sum web).Ans op → Script web α} (responds : Responds { host with log := log } op ans)
    (rest : ∃ later, Executes (Answered net internet service.provider) { host with log := ⟨op, ans⟩ :: log }
      (next ans) later value) :
    ∃ later, Executes (Answered net internet service.provider) { host with log := log } (.call op next) later value :=
  rest.imp fun _ => .call ⟨_, .refl, responds, rfl⟩

theorem accepted (token : Str) (known : token ∈ [ascii "without", ascii "number", ascii "alice"]) :
    ∃ later, Executes (Answered net internet service.provider) host
      (service.provider.handleCallback net jwt service.lib input) later
      (.ok { idpUser := mapClaims (claims token) (ascii "idp"), isNewUser := false }) := by
  simp only [List.mem_cons, List.not_mem_nil, or_false] at known
  refine onward (.inr .readDiscovery) (some doc, (Iam.Sample.clock 0).time) [] rfl ?_
  refine onward (.inl .now) (Iam.Sample.clock 0) _ rfl ?_
  refine onward (.inr (.post _ _)) (.document ⟨token⟩) _ trivial ?_
  refine onward (.inr .readKeys) host.keys _ rfl ?_
  refine onward (.inl .now) (Iam.Sample.clock 0) _ rfl ?_
  refine onward (.inl .now) (Iam.Sample.clock 0) _ rfl ?_
  rcases known with rfl | rfl | rfl
  all_goals exact ⟨_, .done⟩

end Sample

theorem sample_user_is_subject : ∃ (later : Host) (token : Str) (mc : MapClaims),
    Reachable Sample.net Sample.internet Sample.service.provider Sample.host ∧
    Vouched Sample.net Sample.jwt Sample.Signed Sample.internet Sample.service.provider Sample.service.lib later.log
      Sample.input token mc ∧
        (ascii "alice" ≠ [] ∧ mc.lookup (ascii "sub") = some (.string (ascii "alice")) ↔ HasSubject mc) := by
  obtain ⟨later, ran⟩ := Sample.accepted (ascii "alice") (by decide)
  obtain ⟨token, mc, vouched, agrees⟩ :=
    (external_identity_is_subject_iff Sample.net Sample.jwt Sample.internet Sample.documented Sample.service).1 _ _ _ _
      Sample.reachable ran
  exact ⟨later, token, mc, Sample.reachable, vouched, agrees⟩

/-- A token without a sub and one whose sub is a number are both accepted, and
both callbacks return the empty identity. -/
theorem tokens_without_subject_share_an_identity : ∃ later later' result result',
    Reachable Sample.net Sample.internet Sample.service.provider Sample.host ∧
    Executes (Answered Sample.net Sample.internet Sample.service.provider) Sample.host
      (Sample.service.provider.handleCallback Sample.net Sample.jwt Sample.service.lib Sample.input) later
        (.ok result) ∧
    Executes (Answered Sample.net Sample.internet Sample.service.provider) Sample.host
      (Sample.service.provider.handleCallback Sample.net Sample.jwt Sample.service.lib Sample.input) later'
        (.ok result') ∧
    result.idpUser.rawClaims.lookup (ascii "sub") = none ∧
    result'.idpUser.rawClaims.lookup (ascii "sub") = some (.number 7) ∧
    result.idpUser.externalID = [] ∧ result'.idpUser.externalID = [] := by
  obtain ⟨later, ran⟩ := Sample.accepted (ascii "without") (by decide)
  obtain ⟨later', ran'⟩ := Sample.accepted (ascii "number") (by decide)
  exact ⟨later, later', _, _, Sample.reachable, ran, ran', rfl, rfl, rfl, rfl⟩

end Gofi.Iam.Oidc
