import Gofi.Msq.Codec

/-! `provider/nats`: the producer, and the streams its messages are stored in.
JetStream drops a publish whose message id the capturing stream has seen within its
duplicate window, and acknowledges it all the same. -/

namespace Gofi.Msq.Nats

open Gofi.Go

def coversTokens : List Str → List Str → Bool
  | [[62]], _ :: _ => true
  | pattern :: patterns, token :: tokens => (pattern = [42] || pattern = token) && coversTokens patterns tokens
  | [], [] => true
  | _, _ => false

def covers (pattern subject : Str) : Bool := coversTokens (pattern.splitOn 46) (subject.splitOn 46)

structure Msg where
  subject : Str
  header : Headers
  data : Str

def msgIDHeader : Str := ascii "Nats-Msg-Id"

def Msg.id (nm : Msg) : Option Str := nm.header msgIDHeader

structure Stream where
  name : Str
  subjects : List Str
  window : Duration
  stored : List (Msg × Time)

namespace Stream

def captures (stream : Stream) (subject : Str) : Bool := stream.subjects.any (covers · subject)

def seen (stream : Stream) (now : Time) (id : Option Str) : Bool :=
  id.isSome && stream.stored.any fun (nm, time) => nm.id = id && now - time < stream.window

end Stream

structure Server where
  now : Time
  streams : List Stream

structure Config where
  maxAge : Duration

structure Broker where
  cfg : Config
  /-- The names of streams by subject. -/
  streams : List (Str × Str)

inductive PublishFate where
  | unsent (err : Str)
  | refused (err : Str)
  | arrives (lost : Option Str)

/-- What the server answers to a send: errors of looking a stream up, other than
that there is none, of creating one, and of the publish. -/
structure Fate where
  lookup : Option Str
  create : Option Str
  publish : PublishFate

inductive SendError where
  | topicRequired
  | stream (subject err : Str)
  | publish (subject err : Str)
  | unacked (err : Str)
  | ended

inductive Ack where
  | acked
  | unsent (err : Str)
  | failed (err : Str)

namespace Server

def capturing (s : Server) (subject : Str) : Option Stream := s.streams.find? (·.captures subject)

def store (nm : Msg) (now : Time) : List Stream → List Stream
  | [] => []
  | stream :: rest =>
    if stream.captures nm.subject then { stream with stored := (nm, now) :: stream.stored } :: rest
    else stream :: store nm now rest

def publish (s : Server) (fate : PublishFate) (nm : Msg) : Ack × Server :=
  match fate with
  | .unsent err => (.unsent err, s)
  | .refused err => (.failed err, s)
  | .arrives lost =>
    match s.capturing nm.subject with
    | none => (.failed (ascii "nats: no response from stream"), s)
    | some stream =>
      let after := if stream.seen s.now nm.id then s else { s with streams := store nm s.now s.streams }
      match lost with
      | none => (.acked, after)
      | some err => (.failed err, after)

def defaultWindow (maxAge : Duration) : Duration :=
  if maxAge = 0 ∨ 2 * Time.minute ≤ maxAge then 2 * Time.minute else maxAge

/-- `CreateStream` with a name and one subject. The broker takes a stream of that
name for its own, whatever it captures. -/
def createStream (s : Server) (refusal : Option Str) (name subject : Str) (maxAge : Duration) : Option Str × Server :=
  if s.streams.any (·.name = name) then (none, s)
  else
    match refusal with
    | some err => (some err, s)
    | none => (none, { s with streams := s.streams ++ [⟨name, [subject], defaultWindow maxAge, []⟩] })

end Server

def streamName (subject : Str) : Str :=
  subject.map fun byte => if byte ∈ [46, 42, 62, 32] then 95 else byte

def Broker.stream (b : Broker) (fate : Fate) (subject : Str) (s : Server) : Except SendError Str × Broker × Server :=
  match b.streams.lookup subject with
  | some name => (.ok name, b, s)
  | none =>
    match fate.lookup with
    | some err => (.error (.stream subject err), b, s)
    | none =>
      match s.capturing subject with
      | some stream => (.ok stream.name, { b with streams := (subject, stream.name) :: b.streams }, s)
      | none =>
        match s.createStream fate.create (streamName subject) subject b.cfg.maxAge with
        | (some err, s) => (.error (.stream subject err), b, s)
        | (none, s) =>
          (.ok (streamName subject), { b with streams := (subject, streamName subject) :: b.streams }, s)

section

def wire (m : Message) : Msg :=
  ⟨m.topic, Function.update (natsBinding.encodeHeaders m) msgIDHeader (some m.id), m.value⟩

def msg (b : Broker) (fate : Fate) (m : Message) (s : Server) : Except SendError Msg × Broker × Server :=
  if m.topic = [] then (.error .topicRequired, b, s)
  else
    match b.stream fate m.topic s with
    | (.error err, b, s) => (.error err, b, s)
    | (.ok _, b, s) => (.ok (wire m), b, s)

def sendMessage (b : Broker) (fate : Fate) (m : Message) (s : Server) : Option SendError × Broker × Server :=
  match msg b fate m s with
  | (.error err, b, s) => (some err, b, s)
  | (.ok nm, b, s) =>
    match s.publish fate.publish nm with
    | (.acked, s) => (none, b, s)
    | (.unsent err, s) => (some (.publish m.topic err), b, s)
    | (.failed err, s) => (some (.publish m.topic err), b, s)

/-- `SendMessagesBatch` with the errors collected so far; `ended` when the context
ends before every message was acknowledged. -/
def sendMessagesBatch (ended : Bool) :
    List (Message × Fate) → List SendError → Broker → Server → List SendError × Broker × Server
  | [], errs, b, s => (if ended then [.ended] else errs, b, s)
  | (m, fate) :: rest, errs, b, s =>
    match msg b fate m s with
    | (.error err, b, s) => ([err], b, s)
    | (.ok nm, b, s) =>
      match s.publish fate.publish nm with
      | (.unsent err, s) => ([.publish m.topic err], b, s)
      | (.acked, s) => sendMessagesBatch ended rest errs b s
      | (.failed err, s) => sendMessagesBatch ended rest (errs ++ [.unacked err]) b s

end

end Gofi.Msq.Nats
