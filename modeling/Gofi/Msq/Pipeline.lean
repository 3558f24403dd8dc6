import Gofi.Msq.Types

/-! `core/pipeline.go`: one delivery of a message through recovery, retries and
dead-lettering. Spans, metrics, logs and the length of the waits are left out. -/

namespace Gofi.Msq

open Gofi.Go

/-- What one run of the handler does. An error is known by its text. -/
inductive Outcome where
  | returned (result : Result) (err : Option Str)
  | panicked (value : Str)

def run : Outcome → Result × Option Str
  | .returned result err => (result, err)
  | .panicked value => (.nack, some (ascii "msq: handler panic: " ++ value))

/-- Everything a delivery meets: what the handler does on each attempt, whether
the wait after an attempt is cut short by the end of the context, whether the
context has ended when the retries are over, and what the dead-letter producer
returns. A context that has ended stays so. -/
structure Surroundings where
  handler : Nat → Outcome
  cutShort : Nat → Bool
  ended : Bool
  ended_of_cutShort : ∀ attempt, cutShort attempt = true → ended = true
  sendMessage : Message → Option Str

inductive EventType where
  | received
  | acked
  | nacked
  | rejected
  | deadLettered

structure BrokerEvent where
  type : EventType
  topic : Str
  messageID : Str
  error : Option Str

/-- What a delivery came to: what `Handle` returns, how often the handler ran,
the dead-letter copy that was published, and the emitted events. -/
structure Handled where
  result : Result
  err : Option Str
  attempts : Nat
  published : Option Message
  events : List BrokerEvent

def headerDLQOriginalTopic : Str := ascii "x-gofi-dlq-original-topic"
def headerDLQError : Str := ascii "x-gofi-dlq-error"
def headerDLQAttempts : Str := ascii "x-gofi-dlq-attempts"
def headerDLQDeliveries : Str := ascii "x-gofi-dlq-deliveries"

def maxDLQErrorLen : Nat := 512

def runeStart (byte : UInt8) : Bool := byte &&& 0xC0 != 0x80

def runeCut (s : Str) : Nat → Nat
  | 0 => 0
  | n + 1 => if runeStart (s.getD (n + 1) 0) then n + 1 else runeCut s n

def truncate (s : Str) (n : Nat) : Str := if s.length ≤ n then s else s.take (runeCut s n)

def errorText : Option Str → Str
  | none => ascii "nack"
  | some text => text

section Pipeline

variable (cfg : ConsumeConfig) (s : Surroundings)

def retry (attempt : Nat) : Result × Nat × Option Str :=
  match run (s.handler attempt) with
  | (result, err) =>
    if result ≠ .nack ∨ (attempt : Int) > cfg.maxRetries then (result, attempt, err)
    else if s.cutShort attempt then (result, attempt, err)
    else retry (attempt + 1)
termination_by (cfg.maxRetries + 1 - attempt).toNat

def deadLetter (msg : Message) (cause : Option Str) (attempts : Nat) : Message :=
  let headers := Function.update msg.headers headerDLQOriginalTopic
    (some (if msg.topic ≠ [] then msg.topic else cfg.topic))
  let headers := Function.update headers headerDLQError (some (truncate (errorText cause) maxDLQErrorLen))
  let headers := Function.update headers headerDLQAttempts (some (formatInt attempts))
  { msg with
    topic := cfg.deadLetterTopic
    deliveryCount := 0
    headers := if msg.deliveryCount > 0 then
        Function.update headers headerDLQDeliveries (some (formatInt msg.deliveryCount))
      else headers }

def event (type : EventType) (msg : Message) (error : Option Str) : BrokerEvent := ⟨type, cfg.topic, msg.id, error⟩

/-- Decides the fate of a message the handler nacked: dead-letter it, reject it
once the delivery limit is reached, or keep the Nack. The producer exists when
there is a dead-letter topic. -/
def settleNack (msg : Message) (err : Option Str) (attempts : Nat) : Result × Option Message × List BrokerEvent :=
  if cfg.deadLetterTopic ≠ [] then
    match s.sendMessage (deadLetter cfg msg err attempts) with
    | some _ => (.nack, none, [])
    | none => (.ack, some (deadLetter cfg msg err attempts), [event cfg .deadLettered msg err])
  else if cfg.deliveryLimitReached msg.deliveryCount then (.reject, none, [])
  else (.nack, none, [])

def settledEvent (msg : Message) (result : Result) (err : Option Str) : BrokerEvent :=
  match result with
  | .nack => event cfg .nacked msg err
  | .reject => event cfg .rejected msg err
  | _ => event cfg .acked msg none

def handle (msg : Message) : Handled :=
  match retry cfg s 1 with
  | (result, attempts, err) =>
    if result = .nack ∧ s.ended = false then
      match settleNack cfg s msg err attempts with
      | (settled, published, events) =>
        ⟨settled, err, attempts, published,
          event cfg .received msg none :: events ++ [settledEvent cfg msg settled err]⟩
    else ⟨result, err, attempts, none, [event cfg .received msg none, settledEvent cfg msg result err]⟩

end Pipeline

/-- What the retry loop has done when it returns: every attempt before the last
was nacked, and a Nack is returned only when no attempt is left or the context
has ended. -/
structure Retried (cfg : ConsumeConfig) (s : Surroundings) (from_ : Nat) (result : Result) (attempts : Nat)
    (err : Option Str) : Prop where
  begun : from_ ≤ attempts
  last : run (s.handler attempts) = (result, err)
  nacked : ∀ n, from_ ≤ n → n < attempts → (run (s.handler n)).1 = .nack
  bound : (attempts : Int) ≤ max (from_ : Int) (cfg.maxRetries + 1)
  exhausted : result = .nack → (attempts : Int) > cfg.maxRetries ∨ s.ended = true

theorem retry_retried (cfg : ConsumeConfig) (s : Surroundings) (from_ : Nat) :
    Retried cfg s from_ (retry cfg s from_).1 (retry cfg s from_).2.1 (retry cfg s from_).2.2 := by
  fun_induction retry cfg s from_ with
  | case1 attempt result err ran spent =>
    refine ⟨le_refl _, ran, fun n low high => by lia, le_max_left _ _, fun nack => .inl ?_⟩
    exact spent.resolve_left fun other => other nack
  | case2 attempt result err ran more cut =>
    exact ⟨le_refl _, ran, fun n low high => by lia, le_max_left _ _, fun _ => .inr (s.ended_of_cutShort attempt cut)⟩
  | case3 attempt result err ran more onward ih =>
    simp only [ne_eq, gt_iff_lt, not_or, not_not, not_lt] at more
    refine ⟨by have := ih.begun; lia, ih.last, fun n low high => ?_, ?_, ih.exhausted⟩
    · rcases Nat.eq_or_lt_of_le low with rfl | later
      · rw [ran, more.1]
      · exact ih.nacked n later high
    · have bound := ih.bound
      lia

def dlqHeaders : List Str := [headerDLQOriginalTopic, headerDLQError, headerDLQAttempts, headerDLQDeliveries]

/-- A copy of the message on the dead-letter topic: the same content, and the
same headers up to those that say why it is there. -/
structure DeadCopy (cfg : ConsumeConfig) (msg dead : Message) (err : Option Str) (attempts : Nat) : Prop where
  topic : dead.topic = cfg.deadLetterTopic
  content : dead.id = msg.id ∧ dead.key = msg.key ∧ dead.value = msg.value ∧ dead.type = msg.type
  headers : ∀ name, name ∉ dlqHeaders → dead.headers name = msg.headers name
  origin : dead.headers headerDLQOriginalTopic = some (if msg.topic ≠ [] then msg.topic else cfg.topic)
  cause : dead.headers headerDLQError = some (truncate (errorText err) maxDLQErrorLen)
  attempts : dead.headers headerDLQAttempts = some (formatInt attempts)
  deliveries : 0 < msg.deliveryCount → dead.headers headerDLQDeliveries = some (formatInt msg.deliveryCount)

theorem deadLetter_copy (cfg : ConsumeConfig) (msg : Message) (err : Option Str) (attempts : Nat) :
    DeadCopy cfg msg (deadLetter cfg msg err attempts) err attempts := by
  have apart : dlqHeaders.Nodup := by decide
  simp only [dlqHeaders, List.nodup_cons, List.mem_cons, List.not_mem_nil, or_false, not_or] at apart
  obtain ⟨⟨topicError, topicAttempts, topicDeliveries⟩, ⟨errorAttempts, errorDeliveries⟩, attemptsDeliveries, _⟩ :=
    apart
  refine ⟨rfl, ⟨rfl, rfl, rfl, rfl⟩, fun name other => ?_, ?_, ?_, ?_, fun counted => ?_⟩
  · simp only [dlqHeaders, List.mem_cons, List.not_mem_nil, or_false, not_or] at other
    by_cases counted : 0 < msg.deliveryCount <;> simp [deadLetter, counted, other]
  · by_cases counted : 0 < msg.deliveryCount <;> simp [deadLetter, counted, topicError, topicAttempts, topicDeliveries]
  · by_cases counted : 0 < msg.deliveryCount <;> simp [deadLetter, counted, errorAttempts, errorDeliveries]
  · by_cases counted : 0 < msg.deliveryCount <;> simp [deadLetter, counted, attemptsDeliveries]
  · simp [deadLetter, counted]

theorem nacked_of_failing (cfg : ConsumeConfig) (s : Surroundings) (msg : Message)
    (nacks : ∀ attempt, (run (s.handler attempt)).1 = .nack) (routed : cfg.deadLetterTopic ≠ [])
    (fails : ∀ dead, s.sendMessage dead ≠ none) :
    (handle cfg s msg).result = .nack ∧ (handle cfg s msg).published = none := by
  have retried := retry_retried cfg s 1
  unfold handle
  generalize retry cfg s 1 = out at retried ⊢
  obtain ⟨result, attempts, err⟩ := out
  obtain rfl : result = .nack := (congrArg Prod.fst retried.last).symm.trans (nacks attempts)
  dsimp only
  split
  · cases sent : s.sendMessage (deadLetter cfg msg err attempts) with
    | none => exact absurd sent (fails _)
    | some failure => simp only [settleNack, if_pos routed, sent, and_self]
  · exact ⟨rfl, rfl⟩

inductive Justified (cfg : ConsumeConfig) (s : Surroundings) (msg : Message) (out : Handled) : Prop where
  /-- The last run of the handler returned this result. -/
  | handler (same : (run (s.handler out.attempts)).1 = out.result) (settled : out.result ≠ .nack)
  /-- The dead-letter copy was published. -/
  | published (nacked : (run (s.handler out.attempts)).1 = .nack) (result : out.result = .ack)
      (sent : out.published = some dead) (stored : s.sendMessage dead = none)
      (copy : DeadCopy cfg msg dead out.err out.attempts)
  /-- There is no dead-letter topic, and the message has used its last delivery. -/
  | limit (nacked : (run (s.handler out.attempts)).1 = .nack) (result : out.result = .reject)
      (unrouted : cfg.deadLetterTopic = []) (limited : 0 < cfg.deliveryLimit)
      (reached : cfg.deliveryLimit ≤ msg.deliveryCount)
  /-- The handler nacked, and nothing settled the message. -/
  | kept (nacked : (run (s.handler out.attempts)).1 = .nack) (result : out.result = .nack)

/-- A delivery never loses its message. It ends as the last run of the handler
says, or with its dead-letter copy published, or at its delivery limit; in every
other case it is nacked, as whenever the context has ended or the copy could not
be published. The handler runs at most once more than `MaxRetries`, and not
again after any other outcome than a Nack. -/
theorem delivery_never_loses_its_message (cfg : ConsumeConfig) (s : Surroundings) (msg : Message) :
    Justified cfg s msg (handle cfg s msg) ∧
    ((run (s.handler (handle cfg s msg).attempts)).1 = .nack →
      (s.ended = true ∨ cfg.deadLetterTopic ≠ [] ∧
        s.sendMessage (deadLetter cfg msg (handle cfg s msg).err (handle cfg s msg).attempts) ≠ none) →
      (handle cfg s msg).result = .nack) ∧
    ((handle cfg s msg).attempts : Int) ≤ 1 + max 0 cfg.maxRetries ∧
    ∀ n, 1 ≤ n → n < (handle cfg s msg).attempts → (run (s.handler n)).1 = .nack := by
  have retried := retry_retried cfg s 1
  unfold handle
  generalize retry cfg s 1 = out at retried ⊢
  obtain ⟨result, attempts, err⟩ := out
  dsimp only at retried ⊢
  have bound : (attempts : Int) ≤ 1 + max 0 cfg.maxRetries := by
    have := retried.bound
    lia
  have last : (run (s.handler attempts)).1 = result := congrArg Prod.fst retried.last
  by_cases open_ : result = .nack ∧ s.ended = false
  · rw [if_pos open_]
    obtain ⟨rfl, alive⟩ := open_
    by_cases routed : cfg.deadLetterTopic ≠ []
    · cases sent : s.sendMessage (deadLetter cfg msg err attempts) with
      | some failure =>
        simp only [settleNack, if_pos routed, sent]
        exact ⟨.kept last rfl, fun _ _ => trivial, bound, retried.nacked⟩
      | none =>
        simp only [settleNack, if_pos routed, sent]
        refine ⟨.published last rfl rfl sent (deadLetter_copy cfg msg err attempts), fun _ why => ?_, bound,
          retried.nacked⟩
        simp [alive] at why
    · cases reached : cfg.deliveryLimitReached msg.deliveryCount with
      | true =>
        simp only [settleNack, if_neg routed, reached, if_true]
        obtain ⟨limited, used⟩ := Bool.and_eq_true_iff.mp reached
        refine ⟨.limit last rfl (not_not.mp routed) (of_decide_eq_true limited) (of_decide_eq_true used),
          fun _ why => ?_, bound, retried.nacked⟩
        simp_all
      | false =>
        simp only [settleNack, if_neg routed, reached]
        exact ⟨.kept last rfl, fun _ _ => rfl, bound, retried.nacked⟩
  · rw [if_neg open_]
    by_cases nack : result = .nack
    · exact ⟨.kept (last.trans nack) nack, fun _ _ => nack, bound, retried.nacked⟩
    · exact ⟨.handler last nack, fun again _ => absurd (last.symm.trans again) nack, bound, retried.nacked⟩

end Gofi.Msq
