import Gofi.Concurrent.Machine
import Gofi.Msq.Pipeline

/-! `provider/nats`: the deliveries of one message by a durable consumer whose
`MaxDeliver` is the delivery limit of the consumer's settings. -/

namespace Gofi.Msq.Nats

open Gofi.Concurrent Gofi.Go

inductive Closing where
  | acked
  | terminated

/-- The message as the servers see it: its deliveries, whether it was settled,
and the dead-letter copies that were stored. -/
structure Durable where
  delivered : Nat
  closing : Option Closing
  deadLetters : List Message

def Durable.start : Durable := ⟨0, none, []⟩

/-- One delivery: what the pipeline meets, and whether its settlement reaches the
server; it does not when the process shuts down before or the connection fails. -/
structure Delivery where
  surroundings : Surroundings
  settles : Bool

variable (cfg : ConsumeConfig) (msg : Message)

def Durable.deliverable (d : Durable) : Bool :=
  d.closing.isNone && (cfg.deliveryLimit ≤ 0 || (d.delivered : Int) < cfg.deliveryLimit)

/-- `consumer.handle`: what the server is told after a result. -/
def settlement : Result → Option Closing
  | .nack => none
  | .reject => some .terminated
  | _ => some .acked

def deliveryCount (d : Durable) : Int := min (d.delivered + 1) 2147483647

def Durable.step (d : Durable) (delivery : Delivery) : Option Durable :=
  if d.deliverable cfg then
    let out := handle cfg delivery.surroundings { msg with deliveryCount := deliveryCount d }
    some {
      delivered := d.delivered + 1
      closing := if delivery.settles then settlement out.result else none
      deadLetters := out.published.toList ++ d.deadLetters }
  else none

def Durable.Open (d : Durable) : Prop := d.closing = none ∧ d.deadLetters = []

theorem Durable.delivered_step {d after : Durable} (stepped : d.step cfg msg delivery = some after) :
    after.delivered = d.delivered + 1 := by
  unfold Durable.step at stepped
  split at stepped <;> cases stepped
  rfl

theorem Durable.delivered_eq {first last : Durable} (run : feed (Durable.step cfg msg) first deliveries = some last) :
    last.delivered = first.delivered + deliveries.length := by
  induction deliveries generalizing first with
  | nil => cases run; rfl
  | cons delivery rest ih =>
    obtain ⟨next, stepped, onward⟩ := feed_cons.mp run
    rw [ih onward, Durable.delivered_step cfg msg stepped, List.length_cons]
    lia

/-- However its deliveries failed, a message that is still open is delivered
again if and only if its deliveries have not reached the limit. -/
theorem open_message_is_redelivered_iff (deliveries : List Delivery) (d : Durable)
    (run : feed (Durable.step cfg msg) Durable.start deliveries = some d) (unsettled : d.Open) :
    d.deliverable cfg = true ↔ cfg.deliveryLimit = 0 ∨ (deliveries.length : Int) < cfg.deliveryLimit := by
  have counted := Durable.delivered_eq cfg msg run
  have limit : 0 ≤ cfg.deliveryLimit := by
    unfold ConsumeConfig.deliveryLimit ConsumeConfig.defaultMaxDeliveries
    split
    · exact le_refl _
    · split
      · exact le_refl _
      · split <;> lia
  rw [Durable.start, Nat.zero_add] at counted
  simp only [Durable.deliverable, unsettled.1, Option.isNone_none, Bool.true_and, Bool.or_eq_true, decide_eq_true_eq,
    counted]
  lia

namespace Sample

def config : ConsumeConfig := ⟨ascii "orders", 0, ascii "orders.dlq", 0⟩

def message : Message := ⟨ascii "id", ascii "orders", [], [], [], [], 0, fun _ => none, 0⟩

def failing : Delivery where
  surroundings := {
    handler := fun _ => .returned .nack none
    cutShort := fun _ => false
    ended := false
    ended_of_cutShort := nofun
    sendMessage := fun _ => some (ascii "unreachable") }
  settles := true

theorem failing_run (cfg : ConsumeConfig) (msg : Message) (routed : cfg.deadLetterTopic ≠ []) (count : Nat)
    (allowed : (count : Int) ≤ cfg.deliveryLimit) :
    ∃ d, feed (Durable.step cfg msg) Durable.start (List.replicate count failing) = some d ∧ d.Open := by
  suffices general : ∀ first : Durable, first.Open → (first.delivered + count : Int) ≤ cfg.deliveryLimit →
      ∃ d, feed (Durable.step cfg msg) first (List.replicate count failing) = some d ∧ d.Open from
    general Durable.start ⟨rfl, rfl⟩ (by simpa [Durable.start] using allowed)
  clear allowed
  induction count with
  | zero => exact fun first unsettled _ => ⟨first, rfl, unsettled⟩
  | succ count ih =>
    intro first unsettled allowed
    have ready : first.deliverable cfg = true := by
      simp only [Durable.deliverable, unsettled.1, Option.isNone_none, Bool.true_and, Bool.or_eq_true,
        decide_eq_true_eq]
      lia
    obtain ⟨nacked, unpublished⟩ := nacked_of_failing cfg failing.surroundings
      { msg with deliveryCount := deliveryCount first } (fun _ => rfl) routed (fun _ => Option.some_ne_none _)
    obtain ⟨d, onward, still⟩ := ih ⟨first.delivered + 1, none, []⟩ ⟨rfl, rfl⟩ (by push_cast at allowed ⊢; lia)
    refine ⟨d, feed_cons.mpr ⟨_, ?_, onward⟩, still⟩
    simp [Durable.step, ready, nacked, unpublished, settlement, unsettled.2]

end Sample

theorem sample_redelivered : ∃ d, feed (Durable.step Sample.config Sample.message) Durable.start
    (List.replicate 9 Sample.failing) = some d ∧ d.Open ∧ d.deliverable Sample.config = true := by
  obtain ⟨d, run, unsettled⟩ := Sample.failing_run Sample.config Sample.message (by decide) 9 (by decide)
  exact ⟨d, run, unsettled, (open_message_is_redelivered_iff Sample.config Sample.message _ d run unsettled).mpr
    (.inr (by decide))⟩

/-- After ten deliveries that were nacked while the dead-letter topic was
unreachable, the server never delivers the message again: it is lost. -/
theorem outage_loses_message : ∃ d, feed (Durable.step Sample.config Sample.message) Durable.start
    (List.replicate 10 Sample.failing) = some d ∧ Sample.config.deadLetterTopic ≠ [] ∧
    0 ≤ Sample.config.maxDeliveries ∧ d.Open ∧ d.deliverable Sample.config = false := by
  obtain ⟨d, run, unsettled⟩ := Sample.failing_run Sample.config Sample.message (by decide) 10 (by decide)
  have counted := Durable.delivered_eq Sample.config Sample.message run
  refine ⟨d, run, by decide, by decide, unsettled, ?_⟩
  simp only [Durable.deliverable, counted]
  rw [Bool.and_eq_false_iff]
  exact .inr (by decide)

end Gofi.Msq.Nats
