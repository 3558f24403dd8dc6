import Gofi.Go.Text
import Gofi.Go.Time

/-! The values the identity service passes around: errors, sessions, claims,
events and the inputs of its calls. Maps are association lists. -/

namespace Gofi.Iam

open Gofi.Go

inductive Sentinel where
  | invalidCredentials
  | accountInactive
  | tooManyAttempts
  | tokenInvalid
  | sessionRevoked
  | sessionNotFound
  | sessionExpired
  | tenantAccessDenied
  | invalidTenantTicket
  | loginPortsRequired
  | invalidIDPState
  | invalidIDPNonce
  deriving DecidableEq

def emDash : Str := [226, 128, 148]

def Sentinel.text : Sentinel → Str
  | .invalidCredentials => ascii "iam: invalid credentials"
  | .accountInactive => ascii "iam: account inactive"
  | .tooManyAttempts => ascii "iam: too many login attempts, try again later"
  | .tokenInvalid => ascii "iam: token invalid"
  | .sessionRevoked => ascii "iam: session revoked"
  | .sessionNotFound => ascii "iam: session not found"
  | .sessionExpired => ascii "iam: session expired"
  | .tenantAccessDenied => ascii "iam: tenant access denied"
  | .invalidTenantTicket => ascii "iam: invalid or expired tenant ticket"
  | .loginPortsRequired =>
    ascii "iam: UserPort and TenantPort are required for login; set User and Tenant in the config"
  | .invalidIDPState => ascii "iam: invalid idp state " ++ emDash ++ ascii " possible CSRF"
  | .invalidIDPNonce => ascii "iam: invalid idp nonce " ++ emDash ++ ascii " possible token replay"

/-- A Go error: a sentinel, a foreign error, or one that wraps others. -/
inductive Err where
  | sentinel (which : Sentinel)
  | plain (text : Str)
  | wrap (label : Str) (cause : Err)
  | join (between : Str) (first second : Err)

namespace Err

def message : Err → Str
  | .sentinel which => which.text
  | .plain text => text
  | .wrap label cause => label ++ cause.message
  | .join between first second => first.message ++ between ++ second.message

/-- `errors.Is(err, target)` for a sentinel target. -/
def is (target : Sentinel) : Err → Bool
  | .sentinel which => which = target
  | .plain _ => false
  | .wrap _ cause => cause.is target
  | .join _ first second => first.is target || second.is target

def joinAll : List Err → Option Err
  | [] => none
  | first :: rest =>
    match joinAll rest with
    | none => some first
    | some others => some (.join (ascii "\n") first others)

end Err

instance : Coe Sentinel Err := ⟨.sentinel⟩

structure Session where
  id : Str
  userID : Str
  tenantID : Str
  module : Str
  accessToken : Str
  refreshToken : Str
  refreshTokenHash : Str
  refreshTokenLastFour : Str
  authProvider : Str
  authTime : Time
  expiresAt : Time
  createdAt : Time
  lastUsedAt : Time
  revoked : Bool
  revokedAt : Option Time
  revokedBy : Str
  ipAddress : Str
  userAgent : Str
  deviceID : Str
  claimsExtra : List (Str × Str)
  sessionExtra : List (Str × Str)
  deriving DecidableEq

namespace Session

def sanitize (s : Session) : Session := { s with refreshToken := [], accessToken := [] }

/-- `core.sessionAuthTime`: the original login time; sessions stored before
`AuthTime` existed fall back to their creation time. -/
def loginTime (s : Session) : Time := if s.authTime.isZero then s.createdAt else s.authTime

end Session

structure Claims where
  userID : Str
  tenantID : Str
  module : Str
  roles : List Str
  sessionID : Str
  authProvider : Str
  issuer : Str
  issuedAt : Time
  expiresAt : Time
  extra : List (Str × Str)

inductive EventType where
  | login
  | loginFailed
  | loginThrottled
  | tenantSelected
  | logout
  | logoutAll
  | tokenRefreshed
  | tokenRefreshFailed
  | tenantAccessDenied
  | tokenValidated
  | tokenInvalid
  | suspiciousActivity
  | idpLogin
  | idpLoginFailed
  | newUser

structure IAMEvent where
  type : EventType
  userID : Str := []
  tenantID : Str := []
  module : Str := []
  sessionID : Str := []
  provider : Str := []
  ipAddress : Str := []
  userAgent : Str := []
  deviceID : Str := []
  timestamp : Time
  error : Option Err := none
  extra : List (Str × Str) := []

structure User where
  id : Str
  active : Bool

structure TenantAccess where
  tenantID : Str
  roles : List Str

structure AuthInput where
  email : Str
  password : Str
  ipAddress : Str

structure AuthResult where
  userID : Str
  tenants : List TenantAccess
  ticket : Str

structure SelectTenantInput where
  userID : Str
  tenantID : Str
  module : Str
  ticket : Str
  authTime : Time
  ipAddress : Str
  userAgent : Str
  deviceID : Str
  claimsExtra : List (Str × Str)
  sessionExtra : List (Str × Str)

structure LoginAttempt where
  email : Str
  ipAddress : Str

structure AuthConfig where
  accessTokenTTL : Duration
  refreshTokenTTL : Duration
  sessionMaxLifetime : Duration
  issuer : Str
  ticketKey : Str
  skipTicket : Bool
  dummyPasswordHash : Str
  tickets : Bool
  refreshTokenTTL_lt : refreshTokenTTL < 2 ^ 63
  sessionMaxLifetime_lt : sessionMaxLifetime < 2 ^ 63

namespace AuthConfig

def maxLife (c : AuthConfig) : Duration :=
  if c.sessionMaxLifetime ≤ 0 then c.refreshTokenTTL else c.sessionMaxLifetime

def sessionExpiry (c : AuthConfig) (now authTime : Time) : Time :=
  let exp := now + c.refreshTokenTTL
  let limit := authTime + c.maxLife
  if limit < exp then limit else exp

theorem sessionExpiry_le (c : AuthConfig) (now authTime : Time) :
    c.sessionExpiry now authTime ≤ authTime + c.maxLife := by
  simp only [sessionExpiry]
  split <;> lia

structure Enforced (c : AuthConfig) : Prop where
  refreshTokenTTL : c.refreshTokenTTL ≤ 90 * Time.day
  sessionMaxLifetime : c.sessionMaxLifetime ≤ 90 * Time.day

theorem Enforced.maxLife {c : AuthConfig} (limits : c.Enforced) : c.maxLife ≤ 90 * Time.day := by
  unfold AuthConfig.maxLife
  split
  · exact limits.refreshTokenTTL
  · exact limits.sessionMaxLifetime

end AuthConfig

/-- The functions of Go's standard library that the model leaves open. -/
structure Library where
  sha256 : Str → Str
  hmacSHA256 : Str → Str → Str
  toLower : Str → Str
  trimSpace : Str → Str

end Gofi.Iam
