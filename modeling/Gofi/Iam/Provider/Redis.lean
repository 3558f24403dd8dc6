import Gofi.Iam.World
import Gofi.Redis.Server

/-! `provider/redis`: sessions as JSON under their id, an index of session ids
per user, and the revocation cut-off of each user. JSON is taken as an exact
codec: the payload of a session key is the session itself. -/

namespace Gofi.Iam.Redis

open Gofi.Concurrent Gofi.Go Gofi.Redis

inductive Payload where
  | json (session : Session)
  | text (text : Str)

abbrev Script := Iam.Script (commands Payload)

def command (cmd : Command Payload) : Script (Except Failure cmd.Reply) :=
  Script.atom (commands Payload) cmd

def now : Script Time := Script.now (commands Payload)

section Keys

variable (keyPrefix : Str)

def sessionKey (sessionID : Str) : Str := keyPrefix ++ sessionID

def userKey (userID : Str) : Str := keyPrefix ++ (ascii "user:" ++ userID)

/-- Outside the user namespace, so no user id can collide with another user's index key. -/
def revokedBeforeKey (userID : Str) : Str := keyPrefix ++ (ascii "revoked_before:" ++ userID)

end Keys

def failed (label : String) (failure : Failure) : Err := .wrap (ascii label) (.plain failure.text)

/-- The minimum time a revoked session is kept. -/
def revokedRetention : Duration := 5 * Time.minute

/-- Outlives any session (at most 90 days). -/
def revokedBeforeTTL : Duration := 91 * Time.day

def revokedTTL (s : Session) : Script Duration := do
  let now ← now
  pure (max (Time.sub s.expiresAt now) revokedRetention)

def markRevoked (s : Session) : Script Session :=
  if s.revoked then pure s.sanitize
  else do
    let now ← now
    pure { s with revoked := true, revokedAt := some now, revokedBy := ascii "user" }.sanitize

section Provider

variable (keyPrefix : Str)

/-- The first error of a pipeline whose commands are all sent. -/
def firstError : List (Except Failure Unit) → Except Failure Unit
  | [] => .ok ()
  | .error failure :: _ => .error failure
  | .ok () :: rest => firstError rest

/-- Pipelined, not a transaction: the commands may interleave with others. -/
def save (session : Session) : Script (Except Err Unit) := do
  let now ← now
  let ttl := Time.sub session.expiresAt now
  if ttl ≤ 0 then pure (.error (.plain (ascii "iam/redis: session already expired")))
  else
    let stored ← command (.set (sessionKey keyPrefix session.id) (.json session.sanitize) ttl)
    let indexed ← command (.sAdd (userKey keyPrefix session.userID) session.id)
    let kept ← command (.expire (userKey keyPrefix session.userID) (Duration.add ttl Time.minute))
    match firstError [stored, indexed, kept] with
    | .error failure => pure (.error (failed "iam/redis: failed to save session: " failure))
    | .ok () => pure (.ok ())

def decodeSession : Except Failure (Option Payload) → Except Err Session
  | .error failure => .error (failed "iam/redis: failed to get session: " failure)
  | .ok none => .error Sentinel.sessionNotFound
  | .ok (some (.json s)) => .ok s
  | .ok (some (.text _)) => .error (.wrap (ascii "iam/redis: failed to unmarshal session: ")
      (.plain (ascii "json: cannot unmarshal number into Go value of type types.Session")))

def get (sessionID : Str) : Script (Except Err Session) := do
  let reply ← command (.get (sessionKey keyPrefix sessionID))
  pure (decodeSession reply)

def revoke (sessionID : Str) : Script (Except Err Unit) := do
  match ← get keyPrefix sessionID with
  | .error err => pure (.error err)
  | .ok session =>
    let marked ← markRevoked session
    let ttl ← revokedTTL session
    match ← command (.set (sessionKey keyPrefix sessionID) (.json marked) ttl) with
    | .error failure => pure (.error (.plain failure.text))
    | .ok () => pure (.ok ())

def revokeIfActive (sessionID : Str) : Script (Except Err Bool) := do
  match ← command (.watch (sessionKey keyPrefix sessionID)) with
  | .error failure => pure (.error (.plain failure.text))
  | .ok () =>
    let reply ← command (.get (sessionKey keyPrefix sessionID))
    match decodeSession reply with
    | .error err => pure (.error err)
    | .ok s =>
      if s.revoked then pure (.ok false)
      else
        let ttl ← revokedTTL s
        let out ← markRevoked s
        match ← command (.exec (sessionKey keyPrefix sessionID) (.json out) ttl) with
        | .error failure => pure (.error (.plain failure.text))
        | .ok committed => pure (.ok committed)

def revokeEach : List Str → Script (List Err × List Str)
  | [] => pure ([], [])
  | id :: rest => do
    let outcome ← revoke keyPrefix id
    let (errs, stale) ← revokeEach rest
    match outcome with
    | .ok () => pure (errs, id :: stale)
    | .error err =>
      if err.is .sessionNotFound then pure (errs, id :: stale)
      else pure (.wrap (ascii "iam/redis: revoke session " ++ id ++ ascii ": ") err :: errs, stale)

def prune (userID : Str) (ids : List Str) : Script (Option Err) :=
  if ids = [] then pure none
  else do
    match ← command (.sRem (userKey keyPrefix userID) ids) with
    | .error failure => pure (some (failed "iam/redis: failed to prune user index: " failure))
    | .ok () => pure none

def revokeAllForUser (userID : Str) : Script (Except Err Unit) := do
  let now ← now
  match ← command (.set (revokedBeforeKey keyPrefix userID) (.text (formatInt now.unixNano))
      revokedBeforeTTL) with
  | .error failure => pure (.error (failed "iam/redis: failed to record revocation cut-off: " failure))
  | .ok () =>
    match ← command (.sMembers (userKey keyPrefix userID)) with
    | .error failure => pure (.error (failed "iam/redis: failed to list user sessions: " failure))
    | .ok sessionIDs =>
      let (errs, stale) ← revokeEach keyPrefix sessionIDs
      let pruned ← prune keyPrefix userID stale
      match Err.joinAll (errs ++ pruned.toList) with
      | none => pure (.ok ())
      | some err => pure (.error err)

def listEach : List Str → Script (Except Err (List Session × List Str))
  | [] => pure (.ok ([], []))
  | id :: rest => do
    match ← get keyPrefix id with
    | .error err =>
      if err.is .sessionNotFound then
        match ← listEach rest with
        | .error err => pure (.error err)
        | .ok (sessions, stale) => pure (.ok (sessions, id :: stale))
      else pure (.error err)
    | .ok s =>
      match ← listEach rest with
      | .error err => pure (.error err)
      | .ok (sessions, stale) =>
        if s.revoked then pure (.ok (sessions, id :: stale)) else pure (.ok (s :: sessions, stale))

def listByUser (userID : Str) : Script (Except Err (List Session)) := do
  match ← command (.sMembers (userKey keyPrefix userID)) with
  | .error failure => pure (.error (failed "iam/redis: failed to list user sessions: " failure))
  | .ok sessionIDs =>
    match ← listEach keyPrefix sessionIDs with
    | .error err => pure (.error err)
    | .ok (sessions, stale) =>
      match ← prune keyPrefix userID stale with
      | some err => pure (.error err)
      | none => pure (.ok sessions)

def decodeCutoff : Except Failure (Option Payload) → Except Err Time
  | .error failure => .error (failed "iam/redis: failed to read revocation cut-off: " failure)
  | .ok none => .ok 0
  | .ok (some (.json _)) => .error (.wrap (ascii "iam/redis: failed to read revocation cut-off: ")
      (.plain (ascii "invalid syntax")))
  | .ok (some (.text text)) =>
    match parseInt text with
    | none => .error (.wrap (ascii "iam/redis: failed to read revocation cut-off: ")
        (.plain (ascii "invalid syntax")))
    | some ns => .ok (Time.ofUnixNano ns)

def revokedBefore (userID : Str) : Script (Except Err Time) := do
  let reply ← command (.get (revokedBeforeKey keyPrefix userID))
  pure (decodeCutoff reply)

def impl : (op : PortOp) → Script (ports.Ans op)
  | .save session => save keyPrefix session
  | .get sessionID => do
    match ← get keyPrefix sessionID with
    | .error err => pure (.error err)
    | .ok session => pure (.ok (some session))
  | .revoke sessionID => revoke keyPrefix sessionID
  | .revokeIfActive sessionID => revokeIfActive keyPrefix sessionID
  | .revokeAllForUser userID => revokeAllForUser keyPrefix userID
  | .revokedBefore userID => revokedBefore keyPrefix userID
  | op => Script.outside (commands Payload) op

@[reducible] def backend : Backend where
  atoms := commands Payload
  Store := Server Payload
  Luck _ := Luck
  respond name clock server cmd luck := server.respond name (millis clock.time) cmd luck
  Chore := Empty
  chore _ _ chore := nomatch chore
  impl := impl keyPrefix

end Provider

end Gofi.Iam.Redis
