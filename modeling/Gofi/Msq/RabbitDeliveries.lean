import Gofi.Concurrent.Machine
import Gofi.Msq.Codec
import Gofi.Msq.Pipeline

/-! `provider/rabbitmq`: how often a message was delivered. The count comes from a
header, from the `redelivered` flag or from a local map of nacked messages. -/

namespace Gofi.Msq.RabbitMQ

open Gofi.Concurrent Gofi.Go

/-- A value of an AMQP header; those of all other types are known by what
`fmt.Sprint` prints for them. -/
inductive Field where
  | int64 (value : Int64)
  | int32 (value : Int32)
  | int (value : Int64)
  | int16 (value : Int16)
  | uint8 (value : UInt8)
  | text (value : Str)
  | other (printed : Str)

abbrev Table := Str → Option Field

/-- The text `decode` makes of a header: `fmt.Sprint`, a string kept as it is. -/
def Field.print : Field → Str
  | .int64 value => formatInt value.toInt
  | .int32 value => formatInt value.toInt
  | .int value => formatInt value.toInt
  | .int16 value => formatInt value.toInt
  | .uint8 value => formatInt value.toNat
  | .text value => value
  | .other printed => printed

def deliveryCountName : Str := ascii "x-delivery-count"

def deliveryCountHeader (headers : Table) : Option Int :=
  match headers deliveryCountName with
  | some (.int64 value) => some value.toInt
  | some (.int32 value) => some value.toInt
  | some (.int value) => some value.toInt
  | some (.int16 value) => some value.toInt
  | some (.uint8 value) => some value.toNat
  | some (.text value) => parseInt value
  | _ => none

structure Delivery where
  headers : Table
  messageId : Str
  redelivered : Bool

def next (n : Int) : Int := (n + 1).bmod (2 ^ 64)

theorem next_le (inRange : -2 ^ 63 ≤ n) : next n ≤ n + 1 := by
  unfold next Int.bmod
  norm_num at inRange ⊢
  split <;> lia

abbrev Nacks := List (Str × Int)

namespace Nacks

def maxTrackedDeliveries : Nat := 10000

def get (nacks : Nacks) (id : Str) : Int := (nacks.lookup id).getD 0

def delete (nacks : Nacks) (id : Str) : Nacks := nacks.filter fun entry => entry.1 ≠ id

def count (nacks : Nacks) (d : Delivery) : Int :=
  match deliveryCountHeader d.headers with
  | some n => next n
  | none =>
    if d.redelivered = false then 1
    else if d.messageId = [] then 2
    else next (max (nacks.get d.messageId) 1)

def nacked (nacks : Nacks) (messageId : Str) (count : Int) : Nacks :=
  if messageId = [] then nacks
  else (messageId, count) :: delete (if nacks.length ≥ maxTrackedDeliveries then [] else nacks) messageId

def settled (nacks : Nacks) (messageId : Str) : Nacks := if messageId = [] then nacks else nacks.delete messageId

theorem get_delete (nacks : Nacks) (gone id : Str) :
    (nacks.delete gone).get id = if id = gone then 0 else nacks.get id := by
  unfold get delete
  induction nacks with
  | nil => simp
  | cons entry rest ih =>
    obtain ⟨name, count⟩ := entry
    by_cases same : name = gone
    · subst same
      by_cases here : id = name
      · subst here
        simpa using ih
      · simpa [List.lookup_cons, beq_false_of_ne here] using ih
    · by_cases here : id = name
      · subst here
        simp [same]
      · simpa [same, List.lookup_cons, beq_false_of_ne here] using ih

theorem get_nacked_of_ne (nacks : Nacks) {id name : Str} (other : id ≠ name) (count : Int) :
    (nacks.nacked name count).get id = 0 ∨ (nacks.nacked name count).get id = nacks.get id := by
  unfold nacked
  split
  · exact .inr rfl
  · have beyond (kept : Nacks) : Nacks.get ((name, count) :: kept.delete name) id = kept.get id := by
      have deleted := kept.get_delete name id
      rw [if_neg other] at deleted
      simpa [get, List.lookup_cons, beq_false_of_ne other] using deleted
    split
    · exact .inl (beyond [])
    · exact .inr (beyond nacks)

theorem get_nacked_self (nacks : Nacks) (id : Str) (count : Int) :
    (nacks.nacked id count).get id = count ∨ (nacks.nacked id count).get id = nacks.get id := by
  unfold nacked
  split
  · exact .inr rfl
  · exact .inl (by simp [get])

theorem get_settled (nacks : Nacks) (gone id : Str) :
    (nacks.settled gone).get id = 0 ∨ (nacks.settled gone).get id = nacks.get id := by
  unfold settled
  split
  · exact .inr rfl
  · rw [get_delete]
    split
    · exact .inl rfl
    · exact .inr rfl

end Nacks

/-- A delivery whose handler has not begun: the flag, and the broker's own count of
the previous deliveries, which a quorum queue sets on redeliveries. -/
structure Received where
  redelivered : Bool
  own : Option Int64

def Received.headers (producer : Table) (r : Received) : Table :=
  match r.own with
  | some n => Function.update producer deliveryCountName (some (.int64 n))
  | none => producer

/-- The history of one message on one queue: how often the queue has delivered it,
to this consumer or another; what this consumer has received and not begun to
handle; the counts given to its running handlers; its map; and every count
reported, with the number of deliveries at that time. -/
structure History where
  delivered : Nat
  received : List Received
  running : List Int
  nacks : Nacks
  reports : List (Int × Nat)

def History.start : History := ⟨0, [], [], [], []⟩

namespace History

/-- What happens to the message, and to the map on account of other messages. -/
inductive Move where
  | delivers (redelivered : Bool) (own : Option Int64)
  | deliversElsewhere
  | dropped (place : Nat)
  | handles (place : Nat)
  | nacks (place : Nat)
  | settles (place : Nat)
  | nacksOther (id : Str) (count : Int)
  | settlesOther (id : Str)

/-- One step of a message published with the headers of `producer`. -/
def step (quorum : Bool) (producer : Table) (messageId : Str) (h : History) : Move → Option History
  | .delivers redelivered own =>
    -- A first delivery is not flagged, and the broker counts no more than it has delivered.
    if (redelivered = true → 0 < h.delivered) ∧ own.isSome = (quorum && redelivered) ∧
        own.all (fun n => decide (n.toInt ≤ (h.delivered : Int))) = true then
      some { h with delivered := h.delivered + 1, received := ⟨redelivered, own⟩ :: h.received }
    else none
  | .deliversElsewhere => some { h with delivered := h.delivered + 1 }
  | .dropped place => some { h with received := h.received.eraseIdx place }
  | .handles place =>
    match h.received[place]? with
    | some r =>
      let count := h.nacks.count ⟨r.headers producer, messageId, r.redelivered⟩
      some { h with
        received := h.received.eraseIdx place
        running := count :: h.running
        reports := (count, h.delivered) :: h.reports }
    | none => none
  | .nacks place =>
    match h.running[place]? with
    | some count => some { h with running := h.running.eraseIdx place, nacks := h.nacks.nacked messageId count }
    | none => none
  | .settles place =>
    match h.running[place]? with
    | some _ => some { h with running := h.running.eraseIdx place, nacks := h.nacks.settled messageId }
    | none => none
  | .nacksOther id count => if id ≠ messageId then some { h with nacks := h.nacks.nacked id count } else none
  | .settlesOther id => if id ≠ messageId then some { h with nacks := h.nacks.settled id } else none

def backlog (quorum : Bool) (h : History) : Nat := if quorum then 0 else h.received.countP (·.redelivered)

structure Counted (quorum : Bool) (messageId : Str) (h : History) : Prop where
  first : h.received.countP (·.redelivered) + 1 ≤ h.delivered ∨ h.received = []
  own : ∀ r ∈ h.received, r.own.isSome = (quorum && r.redelivered) ∧ ∀ n ∈ r.own, n.toInt + 1 ≤ h.delivered
  known : ∀ count ∈ h.nacks.get messageId :: h.running, count + h.backlog quorum ≤ h.delivered
  reports : ∀ report ∈ h.reports, report.1 ≤ report.2

/-- A header of the producer that is read as a count exceeds no first delivery. -/
def Harmless (producer : Table) : Prop := ∀ n, deliveryCountHeader producer = some n → next n ≤ 1

theorem Counted.start : Counted quorum messageId History.start := by
  constructor <;> simp [History.start, backlog, Nacks.get]

theorem Counted.count_le (counted : Counted quorum messageId h) (harmless : Harmless producer)
    (perm : (r :: rest).Perm h.received) : h.nacks.count ⟨r.headers producer, messageId, r.redelivered⟩ +
      (if quorum then 0 else rest.countP (·.redelivered) : Nat) ≤ h.delivered := by
  have member : r ∈ h.received := perm.subset List.mem_cons_self
  have first := counted.first.resolve_right (List.ne_nil_of_mem member)
  have last := counted.known _ List.mem_cons_self
  obtain ⟨kind, own⟩ := counted.own r member
  have total := perm.countP_eq (·.redelivered)
  rw [List.countP_cons] at total
  cases broker : r.own with
  | some n =>
    -- The broker's own count: all redeliveries on this queue carry one.
    have bound := own n broker
    have both : quorum = true ∧ r.redelivered = true := by simpa [broker] using kind.symm
    have header : deliveryCountHeader (r.headers producer) = some n.toInt := by
      simp [deliveryCountHeader, Received.headers, broker]
    have atMost := next_le n.le_toInt
    simp only [Nacks.count, header, both.1, if_true]
    lia
  | none =>
    have same : r.headers producer = producer := by simp [Received.headers, broker]
    cases header : deliveryCountHeader producer with
    | some n =>
      have small := harmless n header
      simp only [Nacks.count, same, header]
      lia
    | none =>
      simp only [Nacks.count, same, header]
      cases flag : r.redelivered with
      | false => simp; lia
      | true =>
        have classic : quorum = false := by simpa [broker, flag] using kind.symm
        have atMost : next (max (h.nacks.get messageId) 1) ≤ max (h.nacks.get messageId) 1 + 1 :=
          next_le (by lia)
        simp only [classic, backlog, flag] at last total ⊢
        split <;> push_cast <;> lia

theorem Counted.known_of {map : Nacks} {later : List Int} (counted : Counted quorum messageId h)
    (kept : map.get messageId = 0 ∨ map.get messageId ∈ h.nacks.get messageId :: h.running)
    (running : ∀ count ∈ later, count ∈ h.running) :
    ∀ count ∈ map.get messageId :: later, count + h.backlog quorum ≤ h.delivered := by
  have room : (h.backlog quorum : Int) ≤ h.delivered := by
    unfold backlog
    split
    · lia
    · rcases counted.first with some_ | none_
      · lia
      · simp [none_]
  intro count member
  rcases List.mem_cons.mp member with rfl | member
  · rcases kept with zero | old
    · rw [zero]
      lia
    · exact counted.known _ old
  · exact counted.known count (List.mem_cons_of_mem _ (running count member))

theorem Counted.dropped (counted : Counted quorum messageId h) (place : Nat) :
    Counted quorum messageId { h with received := h.received.eraseIdx place } := by
  have kept := List.eraseIdx_sublist h.received place
  have fewer : _ ≤ h.received.countP (·.redelivered) := kept.countP_le
  refine ⟨?_, fun r member => counted.own r (kept.subset member), fun count member => ?_, counted.reports⟩
  · rcases counted.first with some_ | none_
    · exact .inl (by dsimp only; lia)
    · exact .inr (by simp [none_])
  · have before := counted.known count member
    unfold backlog at before ⊢
    split at before <;> simp_all
    lia

theorem Counted.delivers (counted : Counted quorum messageId h)
    (stepped : h.step quorum producer messageId (.delivers redelivered broker) = some after) :
    Counted quorum messageId after := by
  simp only [History.step, Option.ite_none_right_eq_some, Option.some.injEq] at stepped
  obtain ⟨⟨flagged, kind, within⟩, rfl⟩ := stepped
  have within (n : Int64) (same : broker = some n) : n.toInt ≤ h.delivered := by simpa [same] using within
  refine ⟨.inl ?_, ?_, fun count member => ?_, counted.reports⟩
  · rw [List.countP_cons]
    rcases counted.first with some_ | none_
    · split <;> lia
    · rw [none_]
      cases redelivered <;> simp at flagged ⊢
      lia
  · rintro r (_ | ⟨_, member⟩)
    · exact ⟨kind, fun n same => by have := within n same; push_cast; lia⟩
    · obtain ⟨kind, own⟩ := counted.own r member
      exact ⟨kind, fun n same => by have := own n same; push_cast; lia⟩
  · have before := counted.known count member
    unfold backlog at before ⊢
    split at before
    · simp_all
      lia
    · rw [List.countP_cons]
      split <;> push_cast <;> lia

theorem Counted.deliversElsewhere (counted : Counted quorum messageId h) :
    Counted quorum messageId { h with delivered := h.delivered + 1 } := by
  refine ⟨counted.first.imp_left (by lia), fun r member => ?_, fun count member => ?_, counted.reports⟩
  · obtain ⟨kind, own⟩ := counted.own r member
    exact ⟨kind, fun n same => by have := own n same; push_cast; lia⟩
  · have before : _ + (h.backlog quorum : Int) ≤ _ := counted.known count member
    show _ + (h.backlog quorum : Int) ≤ _
    lia

theorem Counted.handles (counted : Counted quorum messageId h) (harmless : Harmless producer)
    (stepped : h.step quorum producer messageId (.handles place) = some after) : Counted quorum messageId after := by
  simp only [History.step] at stepped
  split at stepped <;> cases stepped
  rename_i r placed
  have bound := counted.count_le harmless (eraseIdx_perm placed)
  refine { counted.dropped place with
    known := fun count member => ?_
    reports := List.forall_mem_cons.mpr ⟨by dsimp only; lia, counted.reports⟩ }
  have others := (counted.dropped place).known count
  simp only [List.mem_cons] at member others
  rcases member with last | rfl | running
  · exact others (.inl last)
  · exact bound
  · exact others (.inr running)

theorem Counted.nacks (counted : Counted quorum messageId h)
    (stepped : h.step quorum producer messageId (.nacks place) = some after) : Counted quorum messageId after := by
  simp only [History.step] at stepped
  split at stepped <;> cases stepped
  rename_i count placed
  have perm := eraseIdx_perm placed
  refine { counted with known := counted.known_of ?_ fun count member => perm.subset (List.mem_cons_of_mem _ member) }
  rcases Nacks.get_nacked_self h.nacks messageId count with same | same
  · refine .inr (List.mem_cons_of_mem _ ?_)
    rw [same]
    exact perm.subset List.mem_cons_self
  · exact .inr (same ▸ List.mem_cons_self)

theorem Counted.settled (counted : Counted quorum messageId h) (gone : Str)
    (running : ∀ count ∈ later, count ∈ h.running) :
    Counted quorum messageId { h with running := later, nacks := h.nacks.settled gone } := by
  refine { counted with known := counted.known_of ?_ running }
  rcases Nacks.get_settled h.nacks gone messageId with same | same
  · exact .inl same
  · exact .inr (same ▸ List.mem_cons_self)

theorem Counted.step (counted : Counted quorum messageId h) (harmless : Harmless producer)
    (stepped : h.step quorum producer messageId move = some after) : Counted quorum messageId after := by
  cases move with
  | delivers redelivered own => exact counted.delivers stepped
  | handles place => exact counted.handles harmless stepped
  | nacks place => exact counted.nacks stepped
  | deliversElsewhere =>
    cases stepped
    exact counted.deliversElsewhere
  | dropped place =>
    cases stepped
    exact counted.dropped place
  | settles place =>
    simp only [History.step] at stepped
    split at stepped <;> cases stepped
    rename_i placed
    exact counted.settled messageId fun count member => (eraseIdx_perm placed).subset (List.mem_cons_of_mem _ member)
  | nacksOther id count =>
    simp only [History.step, Option.ite_none_right_eq_some, Option.some.injEq] at stepped
    obtain ⟨other, rfl⟩ := stepped
    refine { counted with known := counted.known_of ?_ fun _ member => member }
    rcases Nacks.get_nacked_of_ne h.nacks (Ne.symm other) count with same | same
    · exact .inl same
    · exact .inr (same ▸ List.mem_cons_self)
  | settlesOther id =>
    simp only [History.step, Option.ite_none_right_eq_some, Option.some.injEq] at stepped
    obtain ⟨other, rfl⟩ := stepped
    exact counted.settled id fun _ member => member

theorem first_report (quorum : Bool) (messageId : Str) (header : deliveryCountHeader producer = some n) :
    ∃ h, feed (History.step quorum producer messageId) start [.delivers false none, .handles 0] = some h ∧
      h.reports = [(next n, 1)] :=
  ⟨⟨1, [], [next n], [], [(next n, 1)]⟩, by
    simp [feed, step, start, Nacks.count, Received.headers, header], rfl⟩

end History

open History

/-- A message is never reported with more deliveries than its queue has made, and
so never rejected before it has used its limit, if and only if its producer set no
`x-delivery-count` that reads as a positive number. -/
theorem count_bounded_by_deliveries_iff (quorum : Bool) (producer : Table) (messageId : Str) :
    (∀ moves h, feed (History.step quorum producer messageId) History.start moves = some h →
      ∀ report ∈ h.reports, report.1 ≤ report.2 ∧
        ∀ cfg : ConsumeConfig, cfg.deliveryLimitReached report.1 = true → cfg.deliveryLimit ≤ report.2) ↔
    Harmless producer := by
  constructor
  · intro bounded n header
    obtain ⟨h, run, reports⟩ := first_report quorum messageId header
    exact_mod_cast (bounded _ h run (next n, 1) (by simp [reports])).1
  · intro harmless moves h run report member
    have counted := feed_invariant (Counted quorum messageId)
      (fun h move after counted stepped => counted.step harmless stepped) Counted.start run
    have bound := counted.reports report member
    refine ⟨bound, fun cfg reached => ?_⟩
    obtain ⟨_, used⟩ := Bool.and_eq_true_iff.mp reached
    exact le_trans (of_decide_eq_true used) bound

def decodedHeaders (headers : Table) : Headers := fun name => (headers name).map Field.print

def publishedHeaders (m : Message) : Table :=
  fun name => (amqpBinding.encodeHeaders m name).map Field.text

private theorem dead_copy_keeps_count (cfg : ConsumeConfig) (m : Message) (cause : Option Str)
    (attempts : Nat) (headers : Table) (decoded : m.headers = amqpBinding.decodeHeaders (decodedHeaders headers))
    (count : deliveryCountHeader headers = some n) :
    deliveryCountHeader (publishedHeaders (deadLetter cfg m cause attempts)) = some n := by
  have plain : amqpBinding.Plain deliveryCountName := ⟨by decide, by decide⟩
  have copied : (deadLetter cfg m cause attempts).headers deliveryCountName =
      (headers deliveryCountName).map Field.print := by
    rw [(deadLetter_copy cfg m cause attempts).headers deliveryCountName (by decide), decoded,
      Binding.decodeHeaders_plain _ plain, decodedHeaders]
  have published : publishedHeaders (deadLetter cfg m cause attempts) deliveryCountName =
      (headers deliveryCountName).map fun field => .text field.print := by
    rw [publishedHeaders, Binding.encodeHeaders_plain _ plain, copied, Option.map_map]
    rfl
  unfold deliveryCountHeader at count ⊢
  rw [published]
  generalize headers deliveryCountName = field at count
  cases field with
  | none => cases count
  | some field =>
    cases field with
    | int64 value | int value => exact count ▸ parseInt_formatInt value.le_toInt value.toInt_lt
    | int32 value | int16 value =>
      have lower := value.le_toInt
      have upper := value.toInt_lt
      exact count ▸ parseInt_formatInt (by lia) (by lia)
    | uint8 value =>
      have upper := value.toNat_lt
      exact count ▸ parseInt_formatInt (by lia) (by lia)
    | text value => exact count
    | other printed => cases count

namespace Sample

def config : ConsumeConfig := ⟨ascii "orders", 0, ascii "orders.dlq", 10⟩

def sixth : Table := fun name =>
  if name = deliveryCountName then some (.int64 5)
  else if name = amqpBinding.header "specversion" then some (.text (ascii "1.0"))
  else none

def message : Message := amqpBinding.decode ⟨some, id⟩ (ascii "1") (decodedHeaders sixth)

def deadHeaders : Table := publishedHeaders (deadLetter config message none 1)

end Sample

/-- The first delivery of the dead-letter copy is reported as its sixth, and
rejected by a consumer that allows five. -/
theorem dead_letter_is_rejected_early : ∃ h,
    feed (History.step false Sample.deadHeaders (ascii "id")) History.start [.delivers false none, .handles 0] =
      some h ∧
    h.reports = [(6, 1)] ∧ ConsumeConfig.deliveryLimitReached ⟨ascii "orders.dlq", 0, [], 5⟩ 6 = true := by
  have count : deliveryCountHeader Sample.deadHeaders = some 5 :=
    dead_copy_keeps_count Sample.config Sample.message none 1 Sample.sixth rfl rfl
  obtain ⟨h, run, reports⟩ := first_report false (ascii "id") count
  exact ⟨h, run, reports, by decide⟩

end Gofi.Msq.RabbitMQ
