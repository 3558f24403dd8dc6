import Gofi.Concurrent.Program
import Gofi.Iam.Types

/-! The ports the identity service calls, one operation each, together with the
clock and the random sources it reads. -/

namespace Gofi.Iam

open Gofi.Concurrent Gofi.Go

/-- A random UUID of version 4, by its text. -/
structure Uuid where
  text : Str
  size : text.length = 36
  letters : ∀ byte ∈ text, byte = 45 ∨ (48 ≤ byte ∧ byte ≤ 57) ∨ (97 ≤ byte ∧ byte ≤ 102)

theorem Uuid.no_colon (id : Uuid) : 58 ∉ id.text := by
  intro colon
  rcases id.letters 58 colon with dash | ⟨_, digit⟩ | ⟨letter, _⟩
  · exact absurd dash (by decide)
  · exact absurd digit (by decide)
  · exact absurd letter (by decide)

/-- What `rand.Text` returns: 26 letters of base 32. -/
structure RandText where
  text : Str
  size : text.length = 26
  letters : ∀ byte ∈ text, (65 ≤ byte ∧ byte ≤ 90) ∨ (50 ≤ byte ∧ byte ≤ 55)

/-- Every call that leaves the service. -/
inductive PortOp where
  | now
  | newUUID
  | randText
  | randRead (n : Nat)
  | emit (event : IAMEvent)
  | findByID (userID : Str)
  | findByEmail (email : Str)
  | validatePassword (userID password : Str)
  | dummyValidatePassword (password : Str)
  | listUserTenants (userID : Str)
  | assertAccess (userID tenantID module : Str)
  | issueAccessToken (claims : Claims)
  | parseToken (token : Str)
  | allow (attempt : LoginAttempt)
  | failure (attempt : LoginAttempt)
  | success (attempt : LoginAttempt)
  | consume (jti : Str) (ttl : Duration)
  | save (session : Session)
  | get (sessionID : Str)
  | revoke (sessionID : Str)
  | revokeAllForUser (userID : Str)
  | revokeIfActive (sessionID : Str)
  | revokedBefore (userID : Str)

/-- The calls with the types of their answers. -/
@[reducible] def ports : Sig where
  Op := PortOp
  Ans
    | .now => Instant
    | .newUUID => Uuid
    | .randText => RandText
    | .randRead n => Except Err { bytes : Str // bytes.length = n }
    | .emit _ => Unit
    | .findByID _ => Except Err (Option User)
    | .findByEmail _ => Except Err (Option User)
    | .validatePassword _ _ => Except Err Unit
    | .dummyValidatePassword _ => Unit
    | .listUserTenants _ => Except Err (List TenantAccess)
    | .assertAccess _ _ _ => Except Err Unit
    | .issueAccessToken _ => Except Err Str
    | .parseToken _ => Except Err Claims
    | .allow _ => Except Err Unit
    | .failure _ => Except Err Unit
    | .success _ => Except Err Unit
    | .consume _ _ => Except Err Bool
    | .save _ => Except Err Unit
    | .get _ => Except Err (Option Session)
    | .revoke _ => Except Err Unit
    | .revokeAllForUser _ => Except Err Unit
    | .revokeIfActive _ => Except Err Bool
    | .revokedBefore _ => Except Err Time

/-- A program that makes such calls. -/
abbrev Port := Prog ports

namespace Port

/-- `time.Now`. -/
def now : Port Time := .call (S := ports) .now fun clock => .done clock.time
/-- `uuid.New`. -/
def newUUID : Port Uuid := Prog.perform (S := ports) .newUUID
/-- `rand.Text`. -/
def randText : Port RandText := Prog.perform (S := ports) .randText
/-- `rand.Read` of so many bytes. -/
def randRead (n : Nat) : Port (Except Err { bytes : Str // bytes.length = n }) :=
  Prog.perform (S := ports) (.randRead n)
/-- `UserPort.FindByID`. -/
def findByID (userID : Str) : Port (Except Err (Option User)) :=
  Prog.perform (S := ports) (.findByID userID)
/-- `UserPort.FindByEmail`. -/
def findByEmail (email : Str) : Port (Except Err (Option User)) :=
  Prog.perform (S := ports) (.findByEmail email)
/-- `UserPort.ValidatePassword`. -/
def validatePassword (userID password : Str) : Port (Except Err Unit) :=
  Prog.perform (S := ports) (.validatePassword userID password)
/-- `DummyPasswordVerifier.DummyValidatePassword`. -/
def dummyValidatePassword (password : Str) : Port Unit :=
  Prog.perform (S := ports) (.dummyValidatePassword password)
/-- `TenantPort.ListUserTenants`. -/
def listUserTenants (userID : Str) : Port (Except Err (List TenantAccess)) :=
  Prog.perform (S := ports) (.listUserTenants userID)
/-- `TenantPort.AssertAccess`. -/
def assertAccess (userID tenantID module : Str) : Port (Except Err Unit) :=
  Prog.perform (S := ports) (.assertAccess userID tenantID module)
/-- `TokenPort.IssueAccessToken`. -/
def issueAccessToken (claims : Claims) : Port (Except Err Str) :=
  Prog.perform (S := ports) (.issueAccessToken claims)
/-- `TokenPort.ParseToken`. -/
def parseToken (token : Str) : Port (Except Err Claims) :=
  Prog.perform (S := ports) (.parseToken token)
/-- `LoginThrottler.Allow`. -/
def allow (attempt : LoginAttempt) : Port (Except Err Unit) :=
  Prog.perform (S := ports) (.allow attempt)
/-- `LoginThrottler.Failure`. -/
def failure (attempt : LoginAttempt) : Port (Except Err Unit) :=
  Prog.perform (S := ports) (.failure attempt)
/-- `LoginThrottler.Success`. -/
def success (attempt : LoginAttempt) : Port (Except Err Unit) :=
  Prog.perform (S := ports) (.success attempt)
/-- `TicketStore.Consume`: whether the ticket is used for the first time. -/
def consume (jti : Str) (ttl : Duration) : Port (Except Err Bool) :=
  Prog.perform (S := ports) (.consume jti ttl)
/-- `SessionPort.Save`. -/
def save (session : Session) : Port (Except Err Unit) :=
  Prog.perform (S := ports) (.save session)
/-- `SessionPort.Get`. -/
def get (sessionID : Str) : Port (Except Err (Option Session)) :=
  Prog.perform (S := ports) (.get sessionID)
/-- `SessionPort.Revoke`. -/
def revoke (sessionID : Str) : Port (Except Err Unit) :=
  Prog.perform (S := ports) (.revoke sessionID)
/-- `SessionPort.RevokeAllForUser`. -/
def revokeAllForUser (userID : Str) : Port (Except Err Unit) :=
  Prog.perform (S := ports) (.revokeAllForUser userID)
/-- `SessionRevoker.RevokeIfActive`: whether this call revoked it. -/
def revokeIfActive (sessionID : Str) : Port (Except Err Bool) :=
  Prog.perform (S := ports) (.revokeIfActive sessionID)
/-- `UserRevocationStore.RevokedBefore`: the cutoff of the user. -/
def revokedBefore (userID : Str) : Port (Except Err Time) :=
  Prog.perform (S := ports) (.revokedBefore userID)

/-- An event with the time at which it is emitted. -/
def emitNow (event : Time → IAMEvent) : Port Unit := do
  let timestamp ← now
  Prog.perform (S := ports) (.emit (event timestamp))

end Port

end Gofi.Iam
