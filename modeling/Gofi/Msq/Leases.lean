import Gofi.Concurrent.Machine
import Gofi.Msq.Sqs

/-! `worker` and the polling consumers of SQS, NATS and Redis Streams: a poll takes
free slots, receives at most as many messages, starts a renewal for each and hands
jobs to the pool; a job gives back one slot for each message it has run. -/

namespace Gofi.Msq.Leases

open Gofi.Concurrent Gofi.Go

/-- A renewal of `KeepAlive`: its goroutine has ended, waits for a tick or for the
end of its context, or is inside `renew`; `canceled` says whether that has ended. -/
inductive Lease where
  | off
  | idle (canceled : Bool)
  | renewing (canceled : Bool)
  deriving DecidableEq

inductive Provider where
  | sqs
  | sqsFifo
  | nats
  | redis
  deriving DecidableEq

inductive Action where
  | release
  | lease (message : Nat)
  | enqueue (job : List Nat)
  deriving DecidableEq

def groupJobs (first : Nat) (keys : List Str) : List (List Nat) :=
  let grouping := Sqs.Batch.collect ⟨[], fun _ => []⟩ first keys
  grouping.order.map grouping.members

/-- The rest of a poll that took `taken` slots and received one message for each
key, numbered from `first`. SQS releases the unused slots at once, the others when
every message has its job. -/
def plan (provider : Provider) (first taken : Nat) (keys : List Str) : List Action :=
  let messages := List.range' first keys.length
  let unused := List.replicate (taken - keys.length) .release
  match provider with
  | .sqs => unused ++ (messages.map .lease ++ messages.map fun message => .enqueue [message])
  | .sqsFifo => unused ++ (messages.map .lease ++ (groupJobs first keys).map .enqueue)
  | .nats | .redis => (messages.flatMap fun message => [.lease message, .enqueue [message]]) ++ unused

/-- How far a job has come with its current message: inside the handler, inside
`stopLease`, or settling the message. -/
inductive Stage where
  | handling
  | stopping
  | settling
  deriving DecidableEq

structure Job where
  run : List Nat
  current : Nat
  stage : Stage
  rest : List Nat
  deriving DecidableEq

namespace Job

def messages (job : Job) : List Nat := job.run ++ job.current :: job.rest

def pending (job : Job) : List Nat := job.current :: job.rest

def renewed (job : Job) : List Nat := if job.stage = .settling then job.rest else job.current :: job.rest

end Job

/-- Where the loop of `Consume` stands: before a poll, inside `Slots.Acquire`, at
the request, or at the rest of its plan. -/
inductive Poll where
  | idle
  | acquiring (taken : Nat)
  | acquired (taken : Nat)
  | planned (todo : List Action)
  deriving DecidableEq

namespace Poll

def held : Poll → Nat
  | .idle => 0
  | .acquiring taken | .acquired taken => taken
  | .planned todo => todo.count .release

def todo : Poll → List Action
  | .planned todo => todo
  | _ => []

end Poll

/-- A consumer. `finished` counts the messages whose run has ended; `ended` lists the
jobs that have ended with all their messages. -/
structure Consumer where
  free : Nat
  poll : Poll
  received : Nat
  finished : Nat
  leases : Nat → Lease
  queued : List (List Nat)
  running : List Job
  ended : List (List Nat)

def Consumer.start (capacity : Nat) : Consumer := ⟨capacity, .idle, 0, 0, fun _ => .off, [], [], []⟩

inductive Move where
  | takes
  | acquires
  | receives (keys : List Str)
  | acts
  | pollEnds
  | begins
  | returns (job : Nat)
  | panics (job : Nat)
  | stopped (job : Nat)
  | settles (job : Nat)
  | ticks (message : Nat)
  | renews (message : Nat)
  | quits (message : Nat)

namespace Consumer

def release (capacity : Nat) (c : Consumer) : Consumer := { c with free := min (c.free + 1) capacity }

def advance (c : Consumer) (place : Nat) (job : Job) : Consumer :=
  match job.rest with
  | [] => { c with finished := c.finished + 1, running := c.running.eraseIdx place, ended := job.messages :: c.ended }
  | next :: rest => { c with
      finished := c.finished + 1
      running := ⟨job.run ++ [job.current], next, .handling, rest⟩ :: c.running.eraseIdx place }

def step (provider : Provider) (capacity limit : Nat) (c : Consumer) : Move → Option Consumer
  | .takes =>
    if 0 < c.free then
      match c.poll with
      | .idle => some { c with free := c.free - 1, poll := .acquiring 1 }
      | .acquiring taken =>
        if taken < limit then some { c with free := c.free - 1, poll := .acquiring (taken + 1) } else none
      | _ => none
    else none
  | .acquires =>
    match c.poll with
    | .acquiring taken => if limit ≤ taken ∨ c.free = 0 then some { c with poll := .acquired taken } else none
    | _ => none
  | .receives keys =>
    match c.poll with
    | .acquired taken =>
      if keys.length ≤ taken then
        some { c with poll := .planned (plan provider c.received taken keys), received := c.received + keys.length }
      else none
    | _ => none
  | .acts =>
    match c.poll with
    | .planned (.release :: todo) => some { c.release capacity with poll := .planned todo }
    | .planned (.lease message :: todo) =>
      some { c with poll := .planned todo, leases := Function.update c.leases message (.idle false) }
    | .planned (.enqueue job :: todo) =>
      -- The pool's Go channel holds twice as many jobs as there are workers.
      if c.queued.length < 2 * capacity then some { c with poll := .planned todo, queued := c.queued ++ [job] }
        else none
    | _ => none
  | .pollEnds => if c.poll = .planned [] then some { c with poll := .idle } else none
  | .begins =>
    match c.queued with
    | (current :: rest) :: queued =>
      if c.running.length < capacity then
        some { c with queued, running := ⟨[], current, .handling, rest⟩ :: c.running }
      else none
    | _ => none
  | .returns place =>
    match c.running[place]? with
    | some ⟨run, current, .handling, rest⟩ => some { c with
        running := ⟨run, current, .stopping, rest⟩ :: c.running.eraseIdx place
        leases := Function.update c.leases current (match c.leases current with
          | .off => .off
          | .idle _ => .idle true
          | .renewing _ => .renewing true) }
    | _ => none
  | .panics place =>
    match c.running[place]? with
    -- The deferred release runs; `stopLease` and the rest of the job do not.
    | some ⟨run, current, .handling, rest⟩ => some { c.release capacity with
        finished := c.finished + 1
        running := c.running.eraseIdx place
        ended := Job.messages ⟨run, current, .handling, rest⟩ :: c.ended }
    | _ => none
  | .stopped place =>
    match c.running[place]? with
    | some ⟨run, current, .stopping, rest⟩ =>
      if c.leases current = .off then
        some { c with running := ⟨run, current, .settling, rest⟩ :: c.running.eraseIdx place }
      else none
    | _ => none
  | .settles place =>
    match c.running[place]? with
    | some ⟨run, current, .settling, rest⟩ => some ((c.release capacity).advance place ⟨run, current, .settling, rest⟩)
    | _ => none
  | .ticks message =>
    match c.leases message with
    | .idle canceled => some { c with leases := Function.update c.leases message (.renewing canceled) }
    | _ => none
  | .renews message =>
    match c.leases message with
    | .renewing canceled => some { c with leases := Function.update c.leases message (.idle canceled) }
    | _ => none
  | .quits message =>
    match c.leases message with
    | .idle true => some { c with leases := Function.update c.leases message .off }
    | _ => none

end Consumer

def Action.job : Action → List Nat
  | .enqueue job => job
  | _ => []

private theorem join_perm (order : List Str) (members : Str → List Nat) (g : Str) (next : Nat) (apart : order.Nodup)
    (listed : g ∈ order ↔ members g ≠ []) :
    ((if members g = [] then order ++ [g] else order).flatMap (Function.update members g (members g ++ [next]))).Perm
      (order.flatMap members ++ [next]) := by
  have others (part : List Str) (absent : g ∉ part) :
      part.flatMap (Function.update members g (members g ++ [next])) = part.flatMap members := by
    refine List.flatMap_congr fun other member => Function.update_of_ne ?_ ..
    rintro rfl
    exact absent member
  split
  · rename_i new
    have absent : g ∉ order := fun member => listed.mp member new
    rw [List.flatMap_append, others order absent, List.flatMap_singleton, Function.update_self, new, List.nil_append]
  · rename_i old
    obtain ⟨before, after, rfl⟩ := List.append_of_mem (listed.mpr old)
    rw [List.nodup_append, List.nodup_cons] at apart
    have notBefore : g ∉ before := fun member => apart.2.2 g member g List.mem_cons_self rfl
    simp only [List.flatMap_append, List.flatMap_cons, Function.update_self, others _ notBefore, others _ apart.2.1.1]
    refine List.perm_iff_count.mpr fun message => ?_
    simp only [List.count_append]
    lia

private theorem collect_perm (acc : Sqs.Batch.Grouping) (next : Nat) (keys : List Str) (apart : acc.order.Nodup)
    (listed : ∀ g, g ∈ acc.order ↔ acc.members g ≠ []) :
    ((Sqs.Batch.collect acc next keys).order.flatMap (Sqs.Batch.collect acc next keys).members).Perm
      (acc.order.flatMap acc.members ++ List.range' next keys.length) := by
  induction keys generalizing acc next with
  | nil => simp [Sqs.Batch.collect]
  | cons g rest ih =>
    rw [Sqs.Batch.collect, List.length_cons, List.range'_succ]
    refine (ih _ _ ?_ (fun other => ?_)).trans ?_
    · dsimp only
      split
      · rename_i new
        have absent : g ∉ acc.order := fun member => (listed g).mp member new
        rw [List.nodup_append]
        refine ⟨apart, List.nodup_singleton g, fun other member same alone => ?_⟩
        rintro rfl
        exact absent (List.mem_singleton.mp alone ▸ member)
      · exact apart
    · have known := listed other
      by_cases same : other = g
      · subst same
        by_cases new : acc.members other = [] <;> simp_all
      · by_cases new : acc.members g = [] <;> simp [new, same, known]
    · have joined := (join_perm acc.order acc.members g next apart (listed g)).append_right
        (List.range' (next + 1) rest.length)
      rwa [List.append_assoc (List.flatMap _ _) [next], List.singleton_append] at joined

theorem groupJobs_perm (first : Nat) (keys : List Str) :
    (groupJobs first keys).flatten.Perm (List.range' first keys.length) := by
  have perm := collect_perm ⟨[], fun _ => []⟩ first keys List.nodup_nil (by simp)
  rwa [groupJobs, ← List.flatMap_def]

private theorem plan_releases (provider : Provider) (first taken : Nat) (keys : List Str) :
    (plan provider first taken keys).count .release = taken - keys.length := by
  have unused : (List.replicate (taken - keys.length) Action.release).count .release = taken - keys.length :=
    List.count_replicate_self ..
  cases provider <;> simp only [plan, List.count_append, unused, Nat.add_eq_left, Nat.add_eq_right] <;>
    simp [List.count_eq_zero]

theorem plan_jobs (provider : Provider) (first taken : Nat) (keys : List Str) :
    ((plan provider first taken keys).flatMap Action.job).Perm (List.range' first keys.length) := by
  have unused : (List.replicate (taken - keys.length) Action.release).flatMap Action.job = [] := by
    simp [Action.job]
  have leases (messages : List Nat) : (messages.map Action.lease).flatMap Action.job = [] := by
    simp [Action.job, List.flatMap_map]
  have single (messages : List Nat) : messages.flatMap (fun message => [message]) = messages :=
    List.flatMap_singleton' _
  cases provider with
  | sqs => simp [plan, List.flatMap_append, unused, leases, List.flatMap_map, Action.job, single]
  | sqsFifo =>
    have handed (jobs : List (List Nat)) : (jobs.map Action.enqueue).flatMap Action.job = jobs.flatten := by
      simp [List.flatMap_map, Action.job, List.flatMap_id']
    simp only [plan, List.flatMap_append, unused, leases, handed, List.nil_append]
    exact groupJobs_perm first keys
  | nats | redis => simp [plan, List.flatMap_append, unused, List.flatMap_assoc, Action.job, single]

def Ordered : List Action → Prop
  | [] => True
  | .lease message :: todo => message ∈ todo.flatMap Action.job ∧ Ordered todo
  | _ :: todo => Ordered todo

theorem ordered_releases (count : Nat) (later : Ordered todo) : Ordered (List.replicate count .release ++ todo) := by
  induction count with
  | zero => simpa using later
  | succ count ih =>
    rw [List.replicate_succ]
    exact ih

private theorem ordered_unused (count : Nat) : Ordered (List.replicate count .release) := by
  simpa using ordered_releases count (show Ordered [] from trivial)

theorem ordered_leases (messages : List Nat) {todo : List Action} (later : Ordered todo)
    (handed : ∀ message ∈ messages, message ∈ todo.flatMap Action.job) : Ordered (messages.map .lease ++ todo) := by
  induction messages with
  | nil => exact later
  | cons message messages ih =>
    refine ⟨?_, ih fun other member => handed other (List.mem_cons_of_mem _ member)⟩
    show message ∈ (messages.map Action.lease ++ todo).flatMap Action.job
    rw [List.flatMap_append, List.mem_append]
    exact .inr (handed message List.mem_cons_self)

theorem ordered_jobs (jobs : List (List Nat)) : Ordered (jobs.map .enqueue) := by
  induction jobs with
  | nil => trivial
  | cons job jobs ih => exact ih

private theorem ordered_each (messages : List Nat) (later : Ordered todo) :
    Ordered ((messages.flatMap fun message => [.lease message, .enqueue [message]]) ++ todo) := by
  induction messages with
  | nil => exact later
  | cons message messages ih => exact ⟨List.mem_append_left _ List.mem_cons_self, ih⟩

private theorem plan_ordered (provider : Provider) (first taken : Nat) (keys : List Str) :
    Ordered (plan provider first taken keys) := by
  cases provider with
  | sqs =>
    refine ordered_releases _ (ordered_leases _ ?_ fun message member => ?_)
    · have jobs := ordered_jobs ((List.range' first keys.length).map fun message => [message])
      rwa [List.map_map] at jobs
    · simpa [List.flatMap_map, Action.job] using member
  | sqsFifo =>
    refine ordered_releases _ (ordered_leases _ (ordered_jobs _) fun message member => ?_)
    have handed := (groupJobs_perm first keys).mem_iff.mpr member
    simpa [List.flatMap_map, Action.job, List.mem_flatten] using handed
  | nats | redis => exact ordered_each _ (ordered_unused _)

namespace Consumer

/-- No renewal is on that was off before. -/
def Fewer (later before : Nat → Lease) : Prop := ∀ message, later message ≠ .off → before message ≠ .off

theorem Fewer.update {now : Nat → Lease} {lease : Lease} (on : lease ≠ .off → now message ≠ .off) :
    Fewer (Function.update now message lease) now := by
  intro other
  by_cases same : other = message
  · subst same
    rwa [Function.update_self]
  · rw [Function.update_of_ne same]
    exact id

section

variable (provider : Provider) (capacity : Nat) (c : Consumer)

/-- What a step can do. -/
inductive Does : Move → Consumer → Prop where
  | takes (free : 0 < c.free) (todo : c.poll.todo = []) (held : c.poll.held = taken) :
      Does .takes { c with free := c.free - 1, poll := .acquiring (taken + 1) }
  | acquires (poll : c.poll = .acquiring taken) : Does .acquires { c with poll := .acquired taken }
  | receives (poll : c.poll = .acquired taken) (few : keys.length ≤ taken) : Does (.receives keys) { c with
      poll := .planned (plan provider c.received taken keys), received := c.received + keys.length }
  | gives (poll : c.poll = .planned (.release :: todo)) : Does .acts { c.release capacity with poll := .planned todo }
  | lets (poll : c.poll = .planned (.lease message :: todo)) : Does .acts { c with
      poll := .planned todo, leases := Function.update c.leases message (.idle false) }
  | enqueues (poll : c.poll = .planned (.enqueue job :: todo)) :
      Does .acts { c with poll := .planned todo, queued := c.queued ++ [job] }
  | pollEnds (poll : c.poll = .planned []) : Does .pollEnds { c with poll := .idle }
  | begins (waiting : c.queued = (current :: rest) :: others) :
      Does .begins { c with queued := others, running := ⟨[], current, .handling, rest⟩ :: c.running }
  | returns (placed : c.running[place]? = some ⟨earlier, current, .handling, rest⟩) (fewer : Fewer later c.leases) :
      Does (.returns place) { c with
        running := ⟨earlier, current, .stopping, rest⟩ :: c.running.eraseIdx place, leases := later }
  | panics (placed : c.running[place]? = some ⟨earlier, current, .handling, rest⟩) :
      Does (.panics place) { c.release capacity with
        finished := c.finished + 1
        running := c.running.eraseIdx place
        ended := Job.messages ⟨earlier, current, .handling, rest⟩ :: c.ended }
  | stopped (placed : c.running[place]? = some ⟨earlier, current, .stopping, rest⟩) (off : c.leases current = .off) :
      Does (.stopped place) { c with running := ⟨earlier, current, .settling, rest⟩ :: c.running.eraseIdx place }
  | settles (placed : c.running[place]? = some ⟨earlier, current, .settling, []⟩) :
      Does (.settles place) { c.release capacity with
        finished := c.finished + 1
        running := c.running.eraseIdx place
        ended := Job.messages ⟨earlier, current, .settling, []⟩ :: c.ended }
  | goesOn (placed : c.running[place]? = some ⟨earlier, current, .settling, following :: rest⟩) :
      Does (.settles place) { c.release capacity with
        finished := c.finished + 1
        running := ⟨earlier ++ [current], following, .handling, rest⟩ :: c.running.eraseIdx place }
  | ticks (fewer : Fewer later c.leases) : Does (.ticks message) { c with leases := later }
  | renews (fewer : Fewer later c.leases) : Does (.renews message) { c with leases := later }
  | quits (fewer : Fewer later c.leases) : Does (.quits message) { c with leases := later }

end

variable {c : Consumer}

theorem does_of_step (stepped : c.step provider capacity limit move = some after) :
    Does provider capacity c move after := by
  cases move <;> simp only [Consumer.step] at stepped
  case takes =>
    (repeat' split at stepped) <;> cases stepped
    all_goals exact .takes ‹0 < c.free› (by simp [*, Poll.todo]) (by simp [*, Poll.held])
  case acquires =>
    (repeat' split at stepped) <;> cases stepped
    exact .acquires ‹_›
  case receives keys =>
    (repeat' split at stepped) <;> cases stepped
    exact .receives ‹_› ‹_›
  case acts =>
    (repeat' split at stepped) <;> cases stepped
    · exact .gives ‹_›
    · exact .lets ‹_›
    · exact .enqueues ‹_›
  case pollEnds =>
    split at stepped <;> cases stepped
    exact .pollEnds ‹_›
  case begins =>
    (repeat' split at stepped) <;> cases stepped
    exact .begins ‹_›
  case returns place =>
    split at stepped <;> cases stepped
    rename_i placed
    exact .returns placed (.update fun on off => on (by rw [off]))
  case panics place =>
    split at stepped <;> cases stepped
    exact .panics ‹_›
  case stopped place =>
    (repeat' split at stepped) <;> cases stepped
    exact .stopped ‹_› ‹_›
  case settles place =>
    split at stepped <;> cases stepped
    rename_i rest placed
    cases rest with
    | nil => exact .settles placed
    | cons following rest => exact .goesOn placed
  case ticks message =>
    split at stepped <;> cases stepped
    exact .ticks (.update fun _ => by simp [*])
  case renews message =>
    split at stepped <;> cases stepped
    exact .renews (.update fun _ => by simp [*])
  case quits message =>
    split at stepped <;> cases stepped
    exact .quits (.update nofun)

def planned (c : Consumer) : List Nat := c.poll.todo.flatMap Action.job

def pending (c : Consumer) : List Nat := c.planned ++ (c.queued.flatten ++ c.running.flatMap Job.pending)

/-- Free slots, those a poll holds and the messages received and not finished make
up the capacity; the messages that wait in jobs are among the latter. -/
structure Balanced (capacity : Nat) (c : Consumer) : Prop where
  slots : c.free + c.poll.held + c.received = capacity + c.finished
  pending : c.pending.length + c.finished ≤ c.received

theorem Balanced.start (capacity : Nat) : Balanced capacity (start capacity) := by
  constructor <;> simp [Consumer.start, Poll.held, Consumer.pending, planned, Poll.todo]

def abandons (c : Consumer) : Move → Nat
  | .panics place => ((c.running[place]?).map (·.rest.length)).getD 0
  | _ => 0

theorem pending_step (stepped : c.step provider capacity limit move = some after) :
    after.pending.length + after.finished + c.abandons move + c.received =
      c.pending.length + c.finished + after.received := by
  cases does_of_step stepped with
  | takes _ todo =>
    simp only [pending, planned, todo]
    rfl
  | acquires poll | pollEnds poll | gives poll | lets poll =>
    simp [pending, planned, abandons, poll, Poll.todo, Action.job, Consumer.release]
  | @receives taken keys poll =>
    have jobs := (plan_jobs provider c.received taken keys).length_eq
    simp only [pending, planned, abandons, poll, Poll.todo, List.length_append, jobs, List.flatMap_nil,
      List.length_nil, List.length_range']
    lia
  | enqueues poll =>
    simp [pending, planned, abandons, poll, Poll.todo, Action.job]
    lia
  | begins waiting =>
    simp [pending, planned, abandons, waiting, Job.pending]
    lia
  | returns placed | panics placed | stopped placed | settles placed | goesOn placed =>
    simp [pending, planned, abandons, length_flatMap placed, placed, Job.pending, Consumer.release]
    lia
  | ticks | renews | quits => rfl

theorem Balanced.room {place : Nat} (balanced : Balanced capacity c) (placed : c.running[place]? = some job) :
    c.free < capacity := by
  have slots := balanced.slots
  have some_ := balanced.pending
  rw [Consumer.pending, List.length_append, List.length_append, length_flatMap placed,
    Job.pending, List.length_cons] at some_
  lia

theorem Balanced.step (balanced : Balanced capacity c) (stepped : c.step provider capacity limit move = some after) :
    Balanced capacity after := by
  have counted := pending_step stepped
  have slots := balanced.slots
  have few := balanced.pending
  refine ⟨?_, by lia⟩
  cases does_of_step stepped with
  | takes free _ held =>
    rw [held] at slots
    simp only [Poll.held]
    lia
  | receives poll enough =>
    simp only [poll, Poll.held, plan_releases] at slots ⊢
    lia
  | gives poll =>
    simp only [poll, Poll.held, Consumer.release, List.count_cons_self] at slots ⊢
    lia
  | acquires poll | pollEnds poll | lets poll | enqueues poll => simpa [poll, Poll.held] using slots
  | panics placed | settles placed | goesOn placed =>
    have room := balanced.room placed
    simp only [Consumer.release]
    lia
  | begins | returns | stopped | ticks | renews | quits => exact slots

def messages (c : Consumer) : List Nat :=
  c.planned ++ (c.queued.flatten ++ (c.running.flatMap Job.messages ++ c.ended.flatten))

def renewed (c : Consumer) : List Nat := c.planned ++ (c.queued.flatten ++ c.running.flatMap Job.renewed)

def added (c : Consumer) : Move → List Nat
  | .receives keys => List.range' c.received keys.length
  | _ => []

private theorem messages_perm (stepped : c.step provider capacity limit move = some after) :
    after.messages.Perm (c.added move ++ c.messages) := by
  refine List.perm_iff_count.mpr fun message => ?_
  cases does_of_step stepped with
  | takes _ todo =>
    simp only [messages, planned, todo]
    rfl
  | acquires poll | pollEnds poll | gives poll | lets poll =>
    simp [messages, planned, added, poll, Poll.todo, Action.job, Consumer.release]
  | @receives taken keys poll =>
    have jobs := (plan_jobs provider c.received taken keys).count_eq message
    simp only [messages, planned, added, poll, Poll.todo, List.count_append, jobs, List.flatMap_nil, List.nil_append]
  | enqueues poll =>
    simp [messages, planned, added, poll, Poll.todo, Action.job, List.count_append]
    lia
  | begins waiting =>
    simp [messages, planned, added, waiting, Job.messages, List.count_append, List.count_cons]
    lia
  | returns placed | panics placed | stopped placed | settles placed | goesOn placed =>
    simp [messages, planned, added, count_flatMap placed, Job.messages, Consumer.release, List.count_append,
      List.count_cons]
    lia
  | ticks | renews | quits => rfl

/-- Every message that is not finished is in a job that has not ended, each in one
job only, and only such messages have a renewal running. -/
structure Renewing (c : Consumer) : Prop where
  all : c.pending.length + c.finished = c.received
  apart : c.messages.Nodup
  numbered : ∀ message ∈ c.messages, message < c.received
  ordered : Ordered c.poll.todo
  leased : ∀ message, c.leases message ≠ .off → message ∈ c.renewed

theorem Renewing.start (capacity : Nat) : Renewing (start capacity) := by
  constructor <;> simp [Consumer.start, Consumer.pending, planned, Poll.todo, messages, Ordered]

private theorem added_step (stepped : c.step provider capacity limit move = some after) :
    c.added move = List.range' c.received (after.received - c.received) ∧ c.received ≤ after.received := by
  cases does_of_step stepped <;> simp [added, Consumer.release]

private theorem ordered_step (ordered : Ordered c.poll.todo)
    (stepped : c.step provider capacity limit move = some after) : Ordered after.poll.todo := by
  cases does_of_step stepped with
  | takes | acquires | pollEnds => trivial
  | receives => exact plan_ordered ..
  | gives poll | enqueues poll =>
    rw [poll] at ordered
    exact ordered
  | lets poll =>
    rw [poll] at ordered
    exact ordered.2
  | begins | returns | panics | stopped | settles | goesOn | ticks | renews | quits => exact ordered

theorem Renewing.leased_step (renewing : Renewing c) (stepped : c.step provider capacity limit move = some after)
    (calm : ∀ job, move ≠ .panics job) (message : Nat) (on : after.leases message ≠ .off) :
    message ∈ after.renewed := by
  have leased := renewing.leased message
  cases does_of_step stepped with
  | takes _ todo =>
    have known := leased on
    simp only [renewed, planned, todo] at known
    exact known
  | acquires poll | pollEnds poll | gives poll =>
    have known := leased on
    simp only [renewed, planned, poll] at known
    exact known
  | receives poll =>
    have known := leased on
    simp only [renewed, planned, poll, Poll.todo, List.flatMap_nil, List.nil_append] at known ⊢
    exact List.mem_append_right _ known
  | enqueues poll =>
    have known := leased on
    simp only [renewed, planned, poll, Poll.todo, List.flatMap_cons, Action.job, List.flatten_append,
      List.flatten_cons, List.mem_append] at known ⊢
    grind
  | @lets given todo poll =>
    -- the message that gets a renewal is in a job that the poll has still to hand over
    have ordered := renewing.ordered
    simp only [renewed, planned, poll, Poll.todo, Ordered, List.flatMap_cons, Action.job, List.nil_append] at *
    by_cases here : message = given
    · subst here
      exact List.mem_append_left _ ordered.1
    · exact leased (by rwa [Function.update_of_ne here] at on)
  | begins waiting =>
    have known := leased on
    simp only [renewed, planned, waiting, List.flatten_cons, List.flatMap_cons, Job.renewed,
      List.mem_append] at known ⊢
    grind
  | returns placed fewer =>
    have known := leased (fewer message on)
    simp only [renewed, planned, mem_flatMap placed, List.flatMap_cons, List.mem_append, Job.renewed] at known ⊢
    grind
  | panics => exact absurd rfl (calm _)
  | stopped placed off =>
    have known := leased on
    simp only [renewed, planned, mem_flatMap placed, List.flatMap_cons, List.mem_append, Job.renewed] at known ⊢
    grind
  | settles placed | goesOn placed =>
    have known := leased on
    simp only [renewed, planned, mem_flatMap placed, List.flatMap_cons, List.mem_append, Job.renewed,
      Consumer.release] at known ⊢
    grind
  | ticks fewer | renews fewer | quits fewer => exact leased (fewer message on)

theorem Renewing.step (renewing : Renewing c) (stepped : c.step provider capacity limit move = some after)
    (calm : ∀ job, move ≠ .panics job) : Renewing after := by
  have perm := messages_perm stepped
  obtain ⟨fresh, more⟩ := added_step stepped
  refine ⟨?_, ?_, ?_, ordered_step renewing.ordered stepped, renewing.leased_step stepped calm⟩
  · have counted := pending_step stepped
    have all := renewing.all
    have kept : c.abandons move = 0 := by
      cases move with
      | panics place => exact absurd rfl (calm place)
      | _ => rfl
    lia
  · refine perm.nodup_iff.mpr (List.nodup_append.mpr ⟨fresh ▸ List.nodup_range', renewing.apart, ?_⟩)
    rintro message new other old rfl
    rw [fresh, List.mem_range'_1] at new
    have := renewing.numbered message old
    lia
  · intro message member
    rcases List.mem_append.mp (perm.mem_iff.mp member) with new | old
    · rw [fresh, List.mem_range'_1] at new
      lia
    · exact lt_of_lt_of_le (renewing.numbered message old) more

private theorem mem_messages_of_renewed (job : Job) (member : message ∈ job.renewed) : message ∈ job.messages := by
  unfold Job.renewed at member
  unfold Job.messages
  refine List.mem_append_right _ ?_
  split at member
  · exact List.mem_cons_of_mem _ member
  · exact member

theorem Renewing.not_ended (renewing : Renewing c) (on : c.leases message ≠ .off) : message ∉ c.ended.flatten := by
  have apart := renewing.apart
  have leased := renewing.leased message on
  unfold messages at apart
  unfold renewed at leased
  rw [← List.append_assoc, ← List.append_assoc] at apart
  refine List.disjoint_of_nodup_append apart ?_
  simp only [List.mem_append, List.mem_flatMap] at leased ⊢
  rcases leased with planned | queued | ⟨job, running, member⟩
  · exact .inl (.inl planned)
  · exact .inl (.inr queued)
  · exact .inr ⟨job, running, mem_messages_of_renewed job member⟩

end Consumer

open Consumer

def Calm (_ : Consumer) (move : Move) : Prop := ∀ job, move ≠ .panics job

/-- In every run the free slots, those a poll is holding and the messages received
and not finished make up the capacity. In every run without a panic each message
that is not finished is in a job that has not ended, and the renewals of every job
that has ended are off. -/
theorem slots_and_leases_are_conserved (provider : Provider) (capacity limit : Nat) (moves : List Move) (c : Consumer)
    (run : feed (Consumer.step provider capacity limit) (Consumer.start capacity) moves = some c) :
    c.finished ≤ c.received ∧ c.free + c.poll.held + (c.received - c.finished) = capacity ∧
    (Along (Consumer.step provider capacity limit) Calm (Consumer.start capacity) moves →
      c.received - c.finished = c.pending.length ∧ ∀ job ∈ c.ended, ∀ message ∈ job, c.leases message = .off) := by
  have balanced := feed_invariant (Balanced capacity) (fun c move after balanced stepped => balanced.step stepped)
    (Balanced.start capacity) run
  have slots := balanced.slots
  have few := balanced.pending
  refine ⟨by lia, by lia, fun calm => ?_⟩
  have renewing := calm.invariant Renewing (fun c move after renewing calm stepped => renewing.step stepped calm)
    (Renewing.start capacity) run
  have all := renewing.all
  refine ⟨by lia, fun job ended message member => ?_⟩
  by_contra on
  exact renewing.not_ended on (List.mem_flatten.mpr ⟨job, ended, member⟩)

instance decidableCalm (c : Consumer) (move : Move) : Decidable (Calm c move) := by
  unfold Calm
  cases move with
  | panics job => exact .isFalse fun calm => calm job rfl
  | _ => exact .isTrue nofun

def Sample.handled : List Move :=
  [.takes, .takes, .acquires, .receives [[]], .acts, .acts, .acts, .pollEnds, .begins, .returns 0, .quits 0,
    .stopped 0, .settles 0]

theorem sample_lease_has_stopped : ∃ c,
    feed (Consumer.step .nats 2 2) (Consumer.start 2) Sample.handled = some c ∧ c.ended = [[0]] ∧
    c.leases 0 = .off := by
  refine ⟨_, rfl, rfl, ?_⟩
  exact ((slots_and_leases_are_conserved .nats 2 2 Sample.handled _ rfl).2.2 (by decide)).2 [0] (by decide) 0
    (by decide)

/-- A handler panics: its job has ended with the renewal running, and in a FIFO
group the message behind it keeps its renewal and its slot for ever. -/
theorem panic_leaves_leases_behind : (∃ c, feed (Consumer.step .sqs 1 10) (Consumer.start 1)
        [.takes, .acquires, .receives [[]], .acts, .acts, .pollEnds, .begins, .panics 0] = some c ∧
      c.ended = [[0]] ∧ c.leases 0 = .idle false) ∧
    ∃ c, feed (Consumer.step .sqsFifo 2 10) (Consumer.start 2)
        [.takes, .takes, .acquires, .receives [[], []], .acts, .acts, .acts, .pollEnds, .begins, .panics 0] = some c ∧
      c.ended = [[0, 1]] ∧ c.leases 1 = .idle false ∧ c.free = 1 ∧ c.poll = .idle ∧ c.queued = [] ∧ c.running = [] :=
  ⟨⟨_, rfl, rfl, rfl⟩, _, rfl, rfl, rfl, rfl, rfl, rfl, rfl⟩

end Gofi.Msq.Leases
