import Gofi.Iam.Ticket

/-! The built-in login of the service: opening, refreshing, validating and
revoking sessions (`core/session.go`, `core/issuer.go`, `core/auth.go` and the
`LogoutAll` of `core/service.go`). -/

namespace Gofi.Iam

open Gofi.Concurrent Gofi.Go

/-! Refresh tokens. -/

def hexDigit (value : Nat) : UInt8 := if value < 10 then digit value else UInt8.ofNat (87 + value)

def hex (bytes : Str) : Str := bytes.flatMap fun byte => [hexDigit (byte.toNat / 16), hexDigit (byte.toNat % 16)]

def hashToken (lib : Library) (token : Str) : Str := hex (lib.sha256 token)

def lastFour (s : Str) : Str := s.drop (s.length - 4)

def generateSecureToken (n : Nat) : Port (Except Err Str) := do
  match ← Port.randRead n with
  | .error err => pure (.error (.wrap (ascii "iam: failed to generate secure token: ") err))
  | .ok bytes => pure (.ok (Base64.encode bytes.val))

def buildRefreshToken (sessionID : Str) : Port (Except Err Str) := do
  match ← generateSecureToken 32 with
  | .error err => pure (.error err)
  | .ok randomPart => pure (.ok (sessionID ++ ascii "." ++ randomPart))

def parseRefreshToken (token : Str) : Except Err Str :=
  match cut 46 token with
  | none => .error Sentinel.tokenInvalid
  | some ([], _) => .error Sentinel.tokenInvalid
  | some (sessionID, _) => .ok sessionID

def tokenHashMatches (lib : Library) (token storedHash : Str) : Bool := hashToken lib token = storedHash

def rolesForTenant (tenants : List TenantAccess) (tenantID : Str) : List Str :=
  match tenants.find? (·.tenantID = tenantID) with
  | some access => access.roles
  | none => []

def sessionLookupError : Option Err → Err
  | none => Sentinel.sessionNotFound
  | some err =>
    if err.is .sessionNotFound then Sentinel.sessionNotFound
    else .wrap (ascii "iam: session store: ") err

structure SessionIssuer where
  lib : Library
  cfg : AuthConfig
  tenant : Bool
  /-- The session store implements `UserRevocationStore`. -/
  revocationStore : Bool

namespace SessionIssuer

variable (s : SessionIssuer)

def denied (provider : Str) (input : SelectTenantInput) (err : Err) : Port Unit :=
  Port.emitNow fun timestamp => {
    type := .tenantAccessDenied
    userID := input.userID
    tenantID := input.tenantID
    module := input.module
    provider := provider
    ipAddress := input.ipAddress
    timestamp := timestamp
    error := some err }

def suspicious (sess : Session) (reason : Str) (err : Option Err) : Port Unit :=
  Port.emitNow fun timestamp => {
    type := .suspiciousActivity
    userID := sess.userID
    sessionID := sess.id
    timestamp := timestamp
    error := err
    extra := [(ascii "reason", reason)] }

def issueClaims (seed : Session) (roles : List Str) (now : Time) (sessionID : Str) : Claims where
  userID := seed.userID
  tenantID := seed.tenantID
  module := seed.module
  roles := roles
  sessionID := sessionID
  authProvider := seed.authProvider
  issuer := s.cfg.issuer
  issuedAt := now
  expiresAt := now + s.cfg.accessTokenTTL
  extra := seed.claimsExtra

def issueSession (seed : Session) (now : Time) (sessionID accessToken refreshToken : Str) : Session where
  id := sessionID
  userID := seed.userID
  tenantID := seed.tenantID
  module := seed.module
  accessToken := accessToken
  refreshToken := refreshToken
  refreshTokenHash := hashToken s.lib refreshToken
  refreshTokenLastFour := lastFour refreshToken
  authProvider := seed.authProvider
  authTime := seed.authTime
  expiresAt := s.cfg.sessionExpiry now seed.authTime
  createdAt := now
  lastUsedAt := now
  revoked := false
  revokedAt := none
  revokedBy := []
  ipAddress := seed.ipAddress
  userAgent := seed.userAgent
  deviceID := seed.deviceID
  claimsExtra := seed.claimsExtra
  sessionExtra := seed.sessionExtra

def issue (seed : Session) (roles : List Str) (now : Time) : Port (Except Err Session) := do
  let sessionID ← Port.newUUID
  match ← Port.issueAccessToken (s.issueClaims seed roles now sessionID.text) with
  | .error err => pure (.error err)
  | .ok accessToken =>
    match ← buildRefreshToken sessionID.text with
    | .error err => pure (.error err)
    | .ok refreshToken =>
      let session := s.issueSession seed now sessionID.text accessToken refreshToken
      match ← Port.save session with
      | .error err => pure (.error err)
      | .ok () => pure (.ok session)

def checkUserCutoff (sess : Session) : Port (Except Err Unit) :=
  if !s.revocationStore then pure (.ok ())
  else do
    match ← Port.revokedBefore sess.userID with
    | .error err => pure (.error err)
    | .ok cutoff =>
      if !cutoff.isZero ∧ ¬ sess.loginTime > cutoff then pure (.error Sentinel.sessionRevoked)
      else pure (.ok ())

def selectSeed (provider : Str) (input : SelectTenantInput) (authTime : Time) : Session where
  id := []
  userID := input.userID
  tenantID := input.tenantID
  module := input.module
  accessToken := []
  refreshToken := []
  refreshTokenHash := []
  refreshTokenLastFour := []
  authProvider := provider
  authTime := authTime
  expiresAt := 0
  createdAt := 0
  lastUsedAt := 0
  revoked := false
  revokedAt := none
  revokedBy := []
  ipAddress := input.ipAddress
  userAgent := input.userAgent
  deviceID := input.deviceID
  claimsExtra := input.claimsExtra
  sessionExtra := input.sessionExtra

/-- The login time a new session starts with; an earlier one that the caller
carries over must leave the session some lifetime. -/
def selectAuthTime (input : SelectTenantInput) (now : Time) : Except Err Time :=
  if !input.authTime.isZero ∧ input.authTime < now then
    if ¬ s.cfg.sessionExpiry now input.authTime > now then .error Sentinel.sessionExpired
    else .ok input.authTime
  else .ok now

def openSession (provider : Str) (input : SelectTenantInput) (tenants : List TenantAccess) :
    Port (Except Err Session) := do
  let now ← Port.now
  match s.selectAuthTime input now with
  | .error err => pure (.error err)
  | .ok authTime =>
    match ← s.issue (selectSeed provider input authTime) (rolesForTenant tenants input.tenantID) now with
    | .error err => pure (.error err)
    | .ok session =>
      Prog.perform (S := ports) (.emit {
        type := .tenantSelected
        userID := input.userID
        tenantID := input.tenantID
        module := input.module
        sessionID := session.id
        provider := provider
        ipAddress := input.ipAddress
        userAgent := input.userAgent
        deviceID := input.deviceID
        timestamp := now })
      pure (.ok session)

def selectTenant (provider : Str) (input : SelectTenantInput) : Port (Except Err Session) :=
  if !s.tenant then pure (.error Sentinel.loginPortsRequired)
  else do
    match ← s.cfg.checkTenantTicket s.lib input.ticket provider input.userID with
    | .error err => do
      denied provider input err
      pure (.error err)
    | .ok ticket =>
      match ← Port.assertAccess input.userID input.tenantID input.module with
      | .error err =>
        if !err.is .tenantAccessDenied then
          pure (.error (.wrap (ascii "iam: tenant access check: ") err))
        else do
          denied provider input Sentinel.tenantAccessDenied
          pure (.error Sentinel.tenantAccessDenied)
      | .ok () =>
        match ← s.cfg.consumeTicket ticket with
        | .error err => do
          denied provider input err
          pure (.error err)
        | .ok () =>
          match ← Port.listUserTenants input.userID with
          | .error err => pure (.error err)
          | .ok tenants => s.openSession provider input tenants

end SessionIssuer

structure LocalAuth extends SessionIssuer where
  user : Bool
  throttle : Bool
  /-- The user port implements `DummyPasswordVerifier`. -/
  dummyVerifier : Bool
  /-- The session store implements `SessionRevoker`. -/
  revoker : Bool

namespace LocalAuth

def localProvider : Str := ascii "local"

variable (a : LocalAuth)

def normalizeEmail (lib : Library) (email : Str) : Str := lib.toLower (lib.trimSpace email)

def allowLogin (attempt : LoginAttempt) : Port (Except Err Unit) :=
  if !a.throttle then pure (.ok ())
  else do
    match ← Port.allow attempt with
    | .ok () => pure (.ok ())
    | .error err => do
      Port.emitNow fun timestamp => {
        type := .loginThrottled
        ipAddress := attempt.ipAddress
        timestamp := timestamp
        error := some err }
      if err.is .tooManyAttempts then pure (.error Sentinel.tooManyAttempts)
      else pure (.error (.wrap (ascii "iam: login throttler: ") err))

def loginFailed (attempt : LoginAttempt) (userID : Str) (cause : Err) : Port Err := do
  let timestamp ← Port.now
  let event : IAMEvent := {
    type := .loginFailed
    userID := userID
    ipAddress := attempt.ipAddress
    timestamp := timestamp
    error := some cause }
  if !a.throttle then
    Prog.perform (S := ports) (.emit event)
    pure cause
  else
    match ← Port.failure attempt with
    | .ok () =>
      Prog.perform (S := ports) (.emit event)
      pure cause
    | .error err =>
      Prog.perform (S := ports) (.emit { event with extra := [(ascii "throttler_error", err.message)] })
      pure cause

def loginSucceeded (attempt : LoginAttempt) : Port Unit :=
  if !a.throttle then pure ()
  else do
    match ← Port.success attempt with
    | .ok () => pure ()
    | .error err => Port.emitNow fun timestamp => {
        type := .loginThrottled
        ipAddress := attempt.ipAddress
        timestamp := timestamp
        error := some err }

/-- Burns the cost of a real verification when the user does not exist. The
fallback of the source, a local hash verification, touches no port. -/
def dummyPasswordCheck (password : Str) : Port Unit :=
  if a.dummyVerifier then Port.dummyValidatePassword password else pure ()

def authenticate (input : AuthInput) : Port (Except Err AuthResult) :=
  if !a.user ∨ !a.tenant then pure (.error Sentinel.loginPortsRequired)
  else do
    let attempt : LoginAttempt := ⟨normalizeEmail a.lib input.email, input.ipAddress⟩
    match ← a.allowLogin attempt with
    | .error err => pure (.error err)
    | .ok () =>
      match ← Port.findByEmail input.email with
      | .ok (some user) =>
        match ← Port.validatePassword user.id input.password with
        | .error _ => do
          let err ← a.loginFailed attempt user.id Sentinel.invalidCredentials
          pure (.error err)
        | .ok () =>
          a.loginSucceeded attempt
          -- Checked after the password so account status is not revealed to guessers.
          if !user.active then
            Port.emitNow fun timestamp => {
              type := .loginFailed
              userID := user.id
              ipAddress := input.ipAddress
              timestamp := timestamp
              error := some Sentinel.accountInactive }
            pure (.error Sentinel.accountInactive)
          else
            match ← Port.listUserTenants user.id with
            | .error err => pure (.error err)
            | .ok tenants =>
              Port.emitNow fun timestamp => {
                type := .login
                userID := user.id
                provider := localProvider
                ipAddress := input.ipAddress
                timestamp := timestamp }
              let ticket ← a.cfg.issueTenantTicket a.lib localProvider user.id
              pure (.ok ⟨user.id, tenants, ticket⟩)
      | _ => do
        a.dummyPasswordCheck input.password
        let err ← a.loginFailed attempt [] Sentinel.invalidCredentials
        pure (.error err)

def logout (sessionID : Str) : Port (Except Err Unit) := do
  match ← Port.revoke sessionID with
  | .error err => pure (.error err)
  | .ok () =>
    Port.emitNow fun timestamp => { type := .logout, sessionID := sessionID, timestamp := timestamp }
    pure (.ok ())

def logoutAll (userID : Str) : Port (Except Err Unit) := do
  match ← Port.revokeAllForUser userID with
  | .error err => pure (.error err)
  | .ok () =>
    Port.emitNow fun timestamp => { type := .logoutAll, userID := userID, timestamp := timestamp }
    pure (.ok ())

def revokeAllOnReuse (s : Session) : Port Err := do
  match ← Port.revokeAllForUser s.userID with
  | .ok () =>
    SessionIssuer.suspicious s (ascii "refresh_token_reuse") none
    pure Sentinel.sessionRevoked
  | .error err =>
    SessionIssuer.suspicious s (ascii "refresh_token_reuse") (some err)
    pure (.join (ascii ": revoking all sessions of the user: ") Sentinel.sessionRevoked err)

def refreshable (refreshToken : Str) : Port (Except Err Session) :=
  match parseRefreshToken refreshToken with
  | .error err => do
    Port.emitNow fun timestamp => {
      type := .tokenRefreshFailed, timestamp := timestamp, error := some err }
    pure (.error Sentinel.tokenInvalid)
  | .ok sessionID => do
    match ← Port.get sessionID with
    | .error err =>
      Port.emitNow fun timestamp => {
        type := .tokenRefreshFailed, sessionID := sessionID, timestamp := timestamp, error := some err }
      pure (.error (sessionLookupError (some err)))
    | .ok none =>
      Port.emitNow fun timestamp => {
        type := .tokenRefreshFailed, sessionID := sessionID, timestamp := timestamp }
      pure (.error (sessionLookupError none))
    | .ok (some existing) =>
      -- The session id is public: without the secret part nothing may change.
      if !tokenHashMatches a.lib refreshToken existing.refreshTokenHash then
        SessionIssuer.suspicious existing (ascii "refresh_token_hash_mismatch") (some Sentinel.tokenInvalid)
        pure (.error Sentinel.tokenInvalid)
      else if existing.revoked then do
        let err ← revokeAllOnReuse existing
        pure (.error err)
      else do
        let now ← Port.now
        if now > existing.expiresAt ∨ ¬ a.cfg.sessionExpiry now existing.loginTime > now then
          pure (.error Sentinel.sessionExpired)
        else
          match ← a.checkUserCutoff existing with
          | .error err => pure (.error err)
          | .ok () => pure (.ok existing)

def revalidate (s : Session) : Port (Except Err Unit) := do
  match ← Port.findByID s.userID with
  | .error err => pure (.error err)
  | .ok user =>
    if !(user.any (·.active)) then
      let err : Err ← (do
        match ← Port.revoke s.id with
        | .ok () => pure (Sentinel.accountInactive : Err)
        | .error revokeErr => pure (.join (ascii "\n") Sentinel.accountInactive revokeErr))
      Port.emitNow fun timestamp => {
        type := .tokenRefreshFailed, userID := s.userID, sessionID := s.id, timestamp := timestamp
        error := some err }
      pure (.error err)
    else
      match ← Port.assertAccess s.userID s.tenantID s.module with
      | .ok () => pure (.ok ())
      | .error err =>
        if !err.is .tenantAccessDenied then
          pure (.error (.wrap (ascii "iam: tenant access check: ") err))
        else
          Port.emitNow fun timestamp => {
            type := .tenantAccessDenied
            userID := s.userID
            tenantID := s.tenantID
            module := s.module
            sessionID := s.id
            timestamp := timestamp
            error := some Sentinel.tenantAccessDenied }
          pure (.error Sentinel.tenantAccessDenied)

def revokeForRotation (s : Session) : Port (Except Err Unit) :=
  if !a.revoker then Port.revoke s.id
  else do
    match ← Port.revokeIfActive s.id with
    | .error err => pure (.error err)
    | .ok revoked =>
      if !revoked then
        Port.emitNow fun timestamp => {
          type := .tokenRefreshFailed, userID := s.userID, sessionID := s.id, timestamp := timestamp
          error := some Sentinel.sessionRevoked }
        pure (.error Sentinel.sessionRevoked)
      else pure (.ok ())

def rotate (existing : Session) (tenants : List TenantAccess) : Port (Except Err Session) := do
  let now ← Port.now
  let seed := { existing with authTime := existing.loginTime }
  match ← a.issue seed (rolesForTenant tenants existing.tenantID) now with
  | .error err => pure (.error err)
  | .ok newSession =>
    Prog.perform (S := ports) (.emit {
      type := .tokenRefreshed
      userID := existing.userID
      tenantID := existing.tenantID
      sessionID := newSession.id
      provider := existing.authProvider
      timestamp := now })
    pure (.ok newSession)

def refreshToken (token : Str) : Port (Except Err Session) :=
  if !a.user ∨ !a.tenant then pure (.error Sentinel.loginPortsRequired)
  else do
    match ← a.refreshable token with
    | .error err => pure (.error err)
    | .ok existing =>
      match ← revalidate existing with
      | .error err => pure (.error err)
      | .ok () =>
        -- Resolved before revoking so a tenant lookup failure keeps the current session usable.
        match ← Port.listUserTenants existing.userID with
        | .error err => pure (.error err)
        | .ok tenants =>
          match ← a.revokeForRotation existing with
          | .error err => pure (.error err)
          | .ok () => a.rotate existing tenants

def checkSession (claims : Claims) : Port (Except Err Unit) := do
  match ← Port.get claims.sessionID with
  | .error err => pure (.error (sessionLookupError (some err)))
  | .ok none => pure (.error (sessionLookupError none))
  | .ok (some session) =>
    if session.userID ≠ claims.userID ∨ session.tenantID ≠ claims.tenantID then
      SessionIssuer.suspicious session (ascii "session_claims_mismatch") (some Sentinel.tokenInvalid)
      pure (.error Sentinel.tokenInvalid)
    else if session.revoked then pure (.error Sentinel.sessionRevoked)
    else do
      let now ← Port.now
      if now > session.expiresAt then pure (.error Sentinel.sessionExpired)
      else a.checkUserCutoff session

def validateToken (accessToken : Str) : Port (Except Err Claims) := do
  match ← Port.parseToken accessToken with
  | .error err =>
    Port.emitNow fun timestamp => { type := .tokenInvalid, timestamp := timestamp, error := some err }
    pure (.error err)
  | .ok claims =>
    match ← a.checkSession claims with
    | .error err => pure (.error err)
    | .ok () =>
      Port.emitNow fun timestamp => {
        type := .tokenValidated
        userID := claims.userID
        tenantID := claims.tenantID
        sessionID := claims.sessionID
        timestamp := timestamp }
      pure (.ok claims)

end LocalAuth

inductive Call where
  | authenticate (input : AuthInput)
  | selectTenant (provider : Str) (input : SelectTenantInput)
  | refreshToken (token : Str)
  | validateToken (accessToken : Str)
  | logout (sessionID : Str)
  | logoutAll (userID : Str)

def Call.Result : Call → Type
  | .authenticate _ => Except Err AuthResult
  | .selectTenant _ _ => Except Err Session
  | .refreshToken _ => Except Err Session
  | .validateToken _ => Except Err Claims
  | .logout _ => Except Err Unit
  | .logoutAll _ => Except Err Unit

/-- `SelectTenant` of the local login and of every external login flow is one
function of the flow's name. -/
def LocalAuth.body (a : LocalAuth) : (call : Call) → Port call.Result
  | .authenticate input => a.authenticate input
  | .selectTenant provider input => a.selectTenant provider input
  | .refreshToken token => a.refreshToken token
  | .validateToken accessToken => a.validateToken accessToken
  | .logout sessionID => LocalAuth.logout sessionID
  | .logoutAll userID => LocalAuth.logoutAll userID

end Gofi.Iam
