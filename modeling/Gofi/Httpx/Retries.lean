import Gofi.Go.Text

/-! `httpx/client_request.go`: `Request.Execute` and its retry loop. What the world
does in each attempt is given; the events are what the world sees of the client. -/

namespace Gofi.Httpx.Client

open Gofi.Go

/-- The functions of the standard library that are left open. A date has a byte that
is neither a digit nor a sign. -/
structure RetryLibrary where
  trimSpace : Str → Str
  equalFold : Str → Str → Bool
  statusText : Nat → Str
  parseTime : Str → Option Int
  dated : ∀ text time, parseTime text = some time → ∃ byte ∈ text, digitValue byte = none ∧ byte ≠ 43 ∧ byte ≠ 45

def second : Int := 1000000000

def maxDuration : Int := 2 ^ 63 - 1

def addDuration (left right : Int) : Int := (left + right + 2 ^ 63) % 2 ^ 64 - 2 ^ 63

def subTime (left right : Int) : Int := max (-2 ^ 63) (min (left - right) maxDuration)

/-- A body: form values as they are encoded, a buffer, which gives no slice when it
was never written to, a reader with what can be read and whether it fails then, and
other values with their JSON if there is one. -/
inductive Body where
  | none
  | values (encoded : Str)
  | buffer (bytes : Option Str)
  | reader (bytes : Str) (fails : Bool)
  | other (json : Option Str)

structure Request where
  method : Str
  headers : List (Str × Str)
  body : Body
  retries : Nat
  retrySleep : Int
  disableRetryOn429 : Bool
  urlErr : Bool
  clientMaxRetryAfter : Int
  bounded : clientMaxRetryAfter ≤ maxDuration

/-- How `Client.Do` ends: with an error, perhaps with a response whose body is closed;
with nothing; with a response. -/
inductive DoResult where
  | failure (redirectBlocked : Bool) (message : Str) (status : Option Nat)
  | nothing
  | response (status : Nat) (retryAfter : Str)

/-- What the world does in an attempt: whether the rate limiter and the making of the
request fail, how `Do` ends and how much of a stream it has read, the random number of
the jitter, the time, and whether the context is done before the wait ends. -/
structure Turn where
  limited : Bool
  refused : Bool
  result : DoResult
  consumed : Nat
  jitter : Nat
  now : Int
  canceled : Bool

/-- What can be seen of an attempt: the body that is sent, the response body that is
received and the closing of it, and the wait with the sleep it was made of. -/
inductive Event where
  | sends (attempt : Nat) (body : Option Str)
  | receives (attempt : Nat)
  | closes (attempt : Nat)
  | waits (attempt : Nat) (sleep wait : Int)
  deriving DecidableEq

inductive RequestError where
  | unsupportedBody
  | readBody
  | rateLimiting
  | createRequest
  | redirectBlocked
  | responseIsNil
  | canceled
  | unexpected
  | api (status : Nat) (message : Str)
  deriving DecidableEq

def newAPIError (status : Nat) (message : Str) : RequestError :=
  .api (if status = 0 then 500 else status) (if message = [] then ascii "Internal Server Error" else message)

/-- The events of a call, and the attempt whose response it returns. -/
structure Run where
  events : List Event
  result : Except RequestError Nat

/-- How an attempt ends: the call returns, or it goes on with this sleep. -/
inductive Step where
  | done (events : List Event) (result : Except RequestError Nat)
  | again (events : List Event) (sleep : Int)

def maxBufferedRequestBytes : Nat := 2 ^ 20

namespace Request

structure Prepared where
  reader : Option Str
  jsonData : Option Str

def prepareRequestBody (r : Request) : Except RequestError Prepared :=
  if r.method = ascii "GET" then .ok ⟨none, none⟩
  else match r.body with
    | .none => .ok ⟨none, none⟩
    | .values encoded => .ok ⟨some encoded, some encoded⟩
    | .buffer bytes => .ok ⟨some (bytes.getD []), bytes⟩
    | .reader bytes fails =>
      if bytes.length ≤ maxBufferedRequestBytes then
        if fails then .error .readBody else .ok ⟨some bytes, some bytes⟩
      else .ok ⟨some bytes, none⟩
    | .other (some json) => .ok ⟨some json, some json⟩
    | .other none => .error .unsupportedBody

def idempotentMethods : List Str :=
  [ascii "GET", ascii "HEAD", ascii "OPTIONS", ascii "PUT", ascii "DELETE", ascii "TRACE"]

def retrySafe (lib : RetryLibrary) (r : Request) : Bool :=
  r.method ∈ idempotentMethods ||
    r.headers.any fun (key, value) => lib.equalFold key (ascii "Idempotency-Key") && !value.isEmpty

def maxRetryAfter (r : Request) : Int := if 0 < r.clientMaxRetryAfter then r.clientMaxRetryAfter else 30 * second

end Request

/-- `withJitter`; the jitter stands for `rand.N`. -/
def withJitter (duration : Int) (jitter : Nat) : Int :=
  if duration ≤ 1 then duration else duration.tdiv 2 + jitter % duration.tdiv 2

def isRetryableStatus (code : Nat) : Bool := code = 500 || code = 502 || code = 503 || code = 504

def parseRetryAfter (lib : RetryLibrary) (text : Str) (now : Int) : Option Int :=
  let text := lib.trimSpace text
  if text = [] then none
  else match parseInt text with
    | some secs =>
      if secs < 0 then none
      else if maxDuration / second < secs then some maxDuration
      else some (secs * second)
    | none => (lib.parseTime text).map fun time => max (subTime time now) 0

section Loop

variable (lib : RetryLibrary) (r : Request)

def handleRetryAfterHeader (retryAfter : Str) (now sleep : Int) : Int × Bool :=
  match parseRetryAfter lib retryAfter now with
  | some delay => (min delay r.maxRetryAfter, true)
  | none => (addDuration sleep (5 * second), false)

def pause (attempt : Nat) (turn : Turn) (events : List Event) (sleep wait : Int) : Step :=
  let events := events ++ [.waits attempt sleep wait]
  if turn.canceled then .done events (.error .canceled) else .again events sleep

def afterFailure (last : Bool) (attempt : Nat) (turn : Turn) (sleep : Int) (redirectBlocked : Bool) (message : Str)
    (status : Option Nat) : Step :=
  -- the body of the response that comes with the error is closed
  let events := if status.isSome then [.receives attempt, .closes attempt] else []
  if redirectBlocked then .done events (.error .redirectBlocked)
  else if last || !r.retrySafe lib then .done events (.error (newAPIError (status.getD 503) message))
  else pause attempt turn events sleep (withJitter sleep turn.jitter)

def afterResponse (last : Bool) (attempt : Nat) (turn : Turn) (sleep : Int) (status : Nat) (retryAfter : Str) : Step :=
  let closed := [.receives attempt, .closes attempt]
  if status = 429 then
    if r.disableRetryOn429 then
      .done closed (.error (newAPIError 429 (ascii "request rate limited (retry on 429 disabled)")))
    else if last then .done closed (.error (newAPIError 408 (ascii "request exceeded retries due to status 429")))
    else
      let (sleep, fromHeader) := handleRetryAfterHeader lib r retryAfter turn.now sleep
      pause attempt turn closed sleep (if fromHeader then sleep else withJitter sleep turn.jitter)
  else if 400 ≤ status ∧ status < 500 then .done closed (.error (newAPIError status (lib.statusText status)))
  else if 500 ≤ status then
    if !isRetryableStatus status || last || !r.retrySafe lib
      then .done closed (.error (newAPIError status (lib.statusText status)))
    else pause attempt turn closed sleep (withJitter sleep turn.jitter)
  else .done [.receives attempt] (.ok attempt)

def attemptOnce (last : Bool) (attempt : Nat) (turn : Turn) (sleep : Int) (reader : Option Str) : Step :=
  if turn.limited then .done [] (.error .rateLimiting)
  else if r.urlErr || turn.refused then .done [] (.error .createRequest)
  else
    let step := match turn.result with
      | .failure redirectBlocked message status =>
        afterFailure lib r last attempt turn sleep redirectBlocked message status
      | .nothing => .done [] (.error .responseIsNil)
      | .response status retryAfter => afterResponse lib r last attempt turn sleep status retryAfter
    match step with
    | .done events result => .done (.sends attempt reader :: events) result
    | .again events sleep => .again (.sends attempt reader :: events) sleep

def attempts (turns : Nat → Turn) (jsonData : Option Str) : Nat → Nat → Int → Option Str → Run
  | left, attempt, sleep, reader =>
    -- the reader is made anew from the bytes, or goes on where the last attempt left it
    let reader := jsonData.or reader
    match attemptOnce lib r (left = 0) attempt (turns attempt) sleep reader with
    | .done events result => ⟨events, result⟩
    | .again events sleep =>
      match left with
      | 0 => ⟨events, .error .unexpected⟩
      | left + 1 =>
        let later := attempts turns jsonData left (attempt + 1) sleep
          (reader.map (·.drop (turns attempt).consumed))
        ⟨events ++ later.events, later.result⟩

def executeWithRetries (turns : Nat → Turn) (prepared : Request.Prepared) : Run :=
  let retries := if prepared.reader.isSome ∧ prepared.jsonData = none ∧ 0 < r.retries then 0 else r.retries
  attempts lib r turns prepared.jsonData retries 0 r.retrySleep prepared.reader

def execute (turns : Nat → Turn) : Run :=
  match r.prepareRequestBody with
  | .error err => ⟨[], .error err⟩
  | .ok prepared =>
    let run := executeWithRetries lib r turns prepared
    match run.result with
    | .error _ => run
    | .ok attempt => { run with events := run.events ++ [.closes attempt] }

end Loop

end Gofi.Httpx.Client
