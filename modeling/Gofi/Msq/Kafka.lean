import Gofi.Concurrent.Machine
import Gofi.Msq.Types

/-! `provider/kafka`: a consumer group's claim on one partition. Kafka cannot
redeliver a single record, so a nacked record is handled again in place until it
is settled or the session ends; only settled records are marked. -/

namespace Gofi.Msq.Kafka

open Gofi.Concurrent

inductive Phase where
  | fetching
  | handling (attempt : Nat)
  | nacked (attempt : Nat)
  | waiting (attempt : Nat)
  | settled
  | returned
  deriving DecidableEq

structure Handling where
  record : Nat
  deliveryCount : Nat
  result : Result

/-- The claim: the place of the record in hand or to be fetched next, what was
marked and what was handled, the latest first, and whether the session's context
has ended. -/
structure Claim where
  position : Nat
  phase : Phase
  marked : List Nat
  handled : List Handling
  ended : Bool

def Claim.start : Claim := ⟨0, .fetching, [], [], false⟩

/-- What the claim meets: the channel of records yields one or is closed, the
handler returns, the session ends, a wait ends by itself or with the session;
`proceed` lets the claim's own code go on. -/
inductive Input where
  | fetched
  | closed
  | handled (result : Result)
  | sessionEnds
  | awake
  | interrupted
  | proceed

/-- One step of a claim on the first `total` records of the partition. -/
def Claim.step (total : Nat) (c : Claim) : Input → Option Claim
  | .fetched => if c.phase = .fetching ∧ c.position < total then some { c with phase := .handling 1 } else none
  | .closed => if c.phase = .fetching then some { c with phase := .returned } else none
  | .handled result =>
    match c.phase with
    | .handling attempt => some { c with
        phase := if result ≠ .nack then .settled else .nacked attempt
        handled := ⟨c.position, attempt, result⟩ :: c.handled }
    | _ => none
  | .sessionEnds => some { c with ended := true }
  | .awake =>
    match c.phase with
    | .waiting attempt => some { c with phase := .handling (attempt + 1) }
    | _ => none
  | .interrupted =>
    match c.phase with
    | .waiting _ => if c.ended then some { c with phase := .returned } else none
    | _ => none
  | .proceed =>
    match c.phase with
    | .nacked attempt => some { c with phase := if c.ended then .returned else .waiting attempt }
    | .settled => some { c with phase := .fetching, marked := c.position :: c.marked, position := c.position + 1 }
    | _ => none

def settledIn (handled : List Handling) (record : Nat) : Bool :=
  (handled.find? (·.record = record)).any (·.result ≠ .nack)

def InOrder : List Handling → Prop
  | [] => True
  | latest :: earlier => (∀ record < latest.record, settledIn earlier record = true) ∧ InOrder earlier

theorem InOrder.at_split {later earlier : List Handling} (ordered : InOrder (later ++ entry :: earlier)) :
    ∀ record < entry.record, settledIn earlier record = true := by
  induction later with
  | nil => exact ordered.1
  | cons latest later ih => exact ih ordered.2

structure Sound (total : Nat) (c : Claim) : Prop where
  marked : c.marked = (List.range c.position).reverse
  fits : c.position ≤ total
  inHand : c.phase ≠ .fetching → c.phase ≠ .returned → c.position < total
  settled : ∀ record < c.position, settledIn c.handled record = true
  justSettled : c.phase = .settled → settledIn c.handled c.position = true
  ordered : InOrder c.handled
  reached : ∀ entry ∈ c.handled, entry.record ≤ c.position

private theorem settledIn_cons_other {handled : List Handling} (other : entry.record ≠ record) :
    settledIn (entry :: handled) record = settledIn handled record := by
  simp [settledIn, other]

theorem Sound.step (sound : Sound total c) (stepped : c.step total input = some after) : Sound total after := by
  cases input <;> simp only [Claim.step] at stepped
  case fetched =>
    split at stepped <;> cases stepped
    rename_i ready
    exact { sound with inHand := fun _ _ => ready.2, justSettled := nofun }
  case closed =>
    split at stepped <;> cases stepped
    exact { sound with inHand := fun _ done => absurd rfl done, justSettled := nofun }
  case handled result =>
    split at stepped <;> cases stepped
    rename_i attempt phase
    have here : c.position < total := sound.inHand (by simp [phase]) (by simp [phase])
    refine ⟨sound.marked, sound.fits, fun _ _ => here, fun record earlier => ?_, fun settled => ?_,
      ⟨sound.settled, sound.ordered⟩, List.forall_mem_cons.mpr ⟨le_refl _, sound.reached⟩⟩
    · rw [settledIn_cons_other (by simp; lia)]
      exact sound.settled record earlier
    · dsimp only at settled
      split at settled
      · rename_i fine
        simp [settledIn, fine]
      · cases settled
  case sessionEnds =>
    cases stepped
    exact { sound with }
  case awake =>
    split at stepped <;> cases stepped
    rename_i attempt phase
    exact { sound with inHand := fun _ _ => sound.inHand (by simp [phase]) (by simp [phase]), justSettled := nofun }
  case interrupted =>
    split at stepped
    · split at stepped <;> cases stepped
      exact { sound with inHand := fun _ done => absurd rfl done, justSettled := nofun }
    · cases stepped
  case proceed =>
    split at stepped
    · rename_i attempt phase
      cases stepped
      refine { sound with
        inHand := fun _ _ => sound.inHand (by simp [phase]) (by simp [phase])
        justSettled := fun settled => ?_ }
      split at settled <;> cases settled
    · rename_i phase
      cases stepped
      have here : c.position < total := sound.inHand (by simp [phase]) (by simp [phase])
      refine ⟨by rw [List.range_succ, List.reverse_append, sound.marked]; rfl, here, fun other => absurd rfl other,
        fun record earlier => ?_, nofun, sound.ordered, fun entry member =>
          Nat.le_succ_of_le (sound.reached entry member)⟩
      rcases Nat.lt_succ_iff_lt_or_eq.mp earlier with before | rfl
      · exact sound.settled record before
      · exact sound.justSettled phase
    · cases stepped

/-- Offsets never pass an unsettled record, whatever the handler returns and
whenever the session ends: the marked records are the first ones of the claim,
and each is settled; no record is handled before all earlier ones are settled;
and a record that was handled and not settled is not marked. -/
theorem offsets_never_pass_unsettled_record (total : Nat) (inputs : List Input) (c : Claim)
    (run : feed (Claim.step total) Claim.start inputs = some c) :
    (∃ count ≤ total, c.marked = (List.range count).reverse) ∧
    (∀ record ∈ c.marked, settledIn c.handled record = true) ∧
    (∀ later entry earlier, c.handled = later ++ entry :: earlier →
      ∀ record < entry.record, settledIn earlier record = true) ∧
    ∀ entry ∈ c.handled, settledIn c.handled entry.record = false → entry.record = c.position ∧
      entry.record ∉ c.marked := by
  have initial : Sound total Claim.start :=
    ⟨rfl, Nat.zero_le _, fun other => absurd rfl other, nofun, nofun, trivial, nofun⟩
  have sound : Sound total c := feed_invariant (Sound total) (fun _ _ _ holds => holds.step) initial run
  have prefix_ (record : Nat) (member : record ∈ c.marked) : record < c.position := by
    rw [sound.marked] at member
    simpa using member
  refine ⟨⟨c.position, sound.fits, sound.marked⟩, fun record member => sound.settled record (prefix_ record member),
    fun later entry earlier split => (split ▸ sound.ordered).at_split, fun entry member open_ => ?_⟩
  have last : ¬ entry.record < c.position := fun earlier => by
    rw [sound.settled _ earlier] at open_
    cases open_
  have reached := sound.reached entry member
  exact ⟨by lia, fun member => last (prefix_ _ member)⟩

/-- A claim whose first record is settled at its second handling and whose second
one is still nacked when the session ends. -/
def Sample.inputs : List Input :=
  [.fetched, .handled .nack, .proceed, .awake, .handled .ack, .proceed, .fetched, .handled .nack, .sessionEnds,
    .proceed]

theorem sample_claim_stops_unsettled : ∃ c, feed (Claim.step 3) Claim.start Sample.inputs = some c ∧
    c.marked = [0] ∧ ⟨1, 1, .nack⟩ ∈ c.handled ∧ 1 ∉ c.marked := by
  refine ⟨_, rfl, rfl, List.mem_cons_self .., ?_⟩
  exact ((offsets_never_pass_unsettled_record 3 Sample.inputs _ rfl).2.2.2 ⟨1, 1, .nack⟩ (List.mem_cons_self ..) rfl).2

end Gofi.Msq.Kafka
