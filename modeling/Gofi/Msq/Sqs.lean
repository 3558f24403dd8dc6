import Gofi.Concurrent.Machine
import Gofi.Msq.Types

/-! `provider/sqs`: one batch received from a FIFO queue. The messages of a group
form one job; the jobs run in parallel in a worker pool. -/

namespace Gofi.Msq.Sqs

open Gofi.Concurrent Gofi.Go

/-- What happens to a message, known by its place in the batch. -/
inductive Action where
  | handled (message : Nat)
  | deleted (message : Nat)
  deriving DecidableEq

structure Batch where
  groups : List Str
  outcome : Nat → Result
  deletes : Nat → Bool

namespace Batch

variable (b : Batch)

structure Grouping where
  order : List Str
  members : Str → List Nat

def collect (acc : Grouping) (next : Nat) : List Str → Grouping
  | [] => acc
  | g :: rest => collect
      { order := if acc.members g = [] then acc.order ++ [g] else acc.order
        members := Function.update acc.members g (acc.members g ++ [next]) } (next + 1) rest

def grouping : Grouping := collect ⟨[], fun _ => []⟩ 0 b.groups

def handle (message : Nat) : List Action :=
  .handled message :: match b.outcome message with
    | .nack => []
    | _ => if b.deletes message then [.deleted message] else []

def job (group : Str) : List Action := (b.grouping.members group).flatMap b.handle

/-- The jobs still to be done by group, and what was done, the latest first. -/
structure Polling where
  jobs : Str → List Action
  log : List Action

def start : Polling := ⟨fun g => if g ∈ b.grouping.order then b.job g else [], []⟩

def Polling.step (p : Polling) (group : Str) : Option Polling :=
  match p.jobs group with
  | [] => none
  | action :: rest => some ⟨Function.update p.jobs group rest, action :: p.log⟩

/-- No message is deleted that has an earlier one of its group before it, nacked and not deleted. -/
def KeepsOrder (log : List Action) : Prop :=
  ∀ later earlier i j, log = later ++ .deleted j :: earlier → i < j → b.groups[i]? = b.groups[j]? →
    .handled i ∈ earlier → b.outcome i = .nack → .deleted i ∈ earlier

def places (g : Str) (next : Nat) : List Str → List Nat
  | [] => []
  | head :: rest => if head = g then next :: places g (next + 1) rest else places g (next + 1) rest

private theorem collect_members (acc : Grouping) (next : Nat) (groups : List Str) (g : Str) :
    (collect acc next groups).members g = acc.members g ++ places g next groups := by
  induction groups generalizing acc next with
  | nil => simp [collect, places]
  | cons head rest ih =>
    rw [collect, ih, places]
    by_cases same : head = g
    · subst same
      simp
    · simp [same, Ne.symm same]

private theorem collect_order (acc : Grouping) (next : Nat) (groups : List Str)
    (listed : ∀ g, g ∈ acc.order ↔ acc.members g ≠ []) :
    ∀ g, g ∈ (collect acc next groups).order ↔ (collect acc next groups).members g ≠ [] := by
  induction groups generalizing acc next with
  | nil => exact listed
  | cons head rest ih =>
    rw [collect]
    apply ih
    intro g
    by_cases same : g = head
    · subst same
      by_cases new : acc.members g = [] <;> simp_all
    · have known := listed g
      by_cases new : acc.members head = [] <;> simp [new, same, known]

theorem mem_places {next : Nat} {groups : List Str} :
    place ∈ places g next groups ↔ next ≤ place ∧ groups[place - next]? = some g := by
  induction groups generalizing next with
  | nil => simp [places]
  | cons head rest ih =>
    have onward : place ∈ places g (next + 1) rest ↔ next + 1 ≤ place ∧ rest[place - next - 1]? = some g := by
      rw [ih, Nat.sub_add_eq]
    rcases Nat.lt_trichotomy place next with before | rfl | after
    · have notOnward : ¬ next + 1 ≤ place := by lia
      have notHere : place ≠ next := by lia
      rw [places]
      split <;> simp [onward, notOnward, notHere, Nat.not_le.mpr before]
    · rw [places]
      split <;> simp_all
    · obtain ⟨distance, apart⟩ : ∃ distance, place - next = distance + 1 := ⟨place - next - 1, by lia⟩
      have notHere : place ≠ next := by lia
      rw [places]
      split <;> simp [onward, notHere, apart, after, Nat.le_of_lt after]

theorem places_sorted (g : Str) (next : Nat) (groups : List Str) : (places g next groups).Pairwise (· < ·) := by
  induction groups generalizing next with
  | nil => exact .nil
  | cons head rest ih =>
    rw [places]
    split
    · exact List.pairwise_cons.mpr ⟨fun place member => (mem_places.mp member).1, ih (next + 1)⟩
    · exact ih (next + 1)

theorem start_jobs (g : Str) : b.start.jobs g = (places g 0 b.groups).flatMap b.handle := by
  have members : b.grouping.members g = places g 0 b.groups := by simp [grouping, collect_members]
  have listed := collect_order ⟨[], fun _ => []⟩ 0 b.groups (by simp) g
  unfold start job
  dsimp only
  split
  · rw [members]
  · rename_i absent
    have none_ : b.grouping.members g = [] := by
      by_contra some_
      exact absent (listed.mpr some_)
    rw [← members, none_]
    rfl

theorem settled_of_deleted (member : Action.deleted j ∈ b.handle i) :
    j = i ∧ b.outcome j ≠ .nack ∧ b.deletes j = true := by
  unfold handle at member
  split at member
  · simp at member
  · rename_i settled
    split at member
    · rename_i deleted
      obtain rfl : j = i := by simpa using member
      exact ⟨rfl, settled, deleted⟩
    · simp at member

def Does (action : Action) : Prop := ∃ message g, b.groups[message]? = some g ∧ action ∈ b.handle message

theorem log_from_jobs (run : feed Polling.step b.start schedule = some p) : ∀ action ∈ p.log, b.Does action := by
  have both :=
    feed_invariant (fun p : Polling => (∀ action ∈ p.log, b.Does action) ∧ ∀ g, ∀ action ∈ p.jobs g, b.Does action)
    ?_ ⟨by simp [start], fun g action member => ?_⟩ run
  · exact both.1
  · rintro p g after ⟨logged, pending⟩ stepped
    unfold Polling.step at stepped
    split at stepped <;> cases stepped
    rename_i action rest jobs
    refine ⟨List.forall_mem_cons.mpr ⟨pending g action (by simp [jobs]), logged⟩, fun other action' member => ?_⟩
    dsimp only at member
    by_cases same : other = g
    · subst same
      rw [Function.update_self] at member
      exact pending other action' (by simp [jobs, member])
    · rw [Function.update_of_ne same] at member
      exact pending other action' member
  · rw [start_jobs] at member
    obtain ⟨message, placed, inside⟩ := List.mem_flatMap.mp member
    exact ⟨message, g, (mem_places.mp placed).2, inside⟩

theorem drain (p : Polling) (g : Str) :
    ∃ after, feed Polling.step p (List.replicate (p.jobs g).length g) = some after ∧
    after.log = (p.jobs g).reverse ++ p.log := by
  induction jobs : p.jobs g generalizing p with
  | nil => exact ⟨p, rfl, by simp⟩
  | cons action rest ih =>
    have stepped : p.step g = some ⟨Function.update p.jobs g rest, action :: p.log⟩ := by simp [Polling.step, jobs]
    obtain ⟨after, onward, log⟩ := ih ⟨Function.update p.jobs g rest, action :: p.log⟩ (by simp)
    exact ⟨after, feed_cons.mpr ⟨_, stepped, onward⟩, by simp [log]⟩

end Batch

/-- The order of every group survives, whatever the order the pool runs the jobs
in, if and only if no message that follows a nacked one of its group is deleted:
the handler nacks it, too, or its deletion fails. -/
theorem group_order_survives_iff (b : Batch) :
    (∀ schedule p, feed Batch.Polling.step b.start schedule = some p → b.KeepsOrder p.log) ↔
    ∀ i j, i < j → (∃ g, b.groups[i]? = some g ∧ b.groups[j]? = some g) → b.outcome i = .nack →
      b.outcome j = .nack ∨ b.deletes j = false := by
  constructor
  · rintro keeps i j before ⟨g, first, second⟩ nacked
    by_contra settled
    simp only [not_or, Bool.not_eq_false] at settled
    obtain ⟨p, run, log⟩ := Batch.drain b.start g
    -- The job of the group handles `i`, and then handles and deletes `j`.
    have later : j ∈ Batch.places g 0 b.groups := Batch.mem_places.mpr ⟨Nat.zero_le _, second⟩
    have earlier : i ∈ Batch.places g 0 b.groups := Batch.mem_places.mpr ⟨Nat.zero_le _, first⟩
    obtain ⟨front, back, split⟩ := List.append_of_mem later
    have ahead : i ∈ front := by
      have sorted := Batch.places_sorted g 0 b.groups
      rw [split] at earlier sorted
      rcases List.mem_append.mp earlier with inFront | inBack
      · exact inFront
      · rcases List.mem_cons.mp inBack with rfl | inBack
        · exact absurd before (lt_irrefl _)
        · have := (List.pairwise_cons.mp (List.pairwise_append.mp sorted).2.1).1 i inBack
          lia
    have handled : b.handle j = [.handled j, .deleted j] := by
      unfold Batch.handle
      split
      · exact absurd ‹_› settled.1
      · rw [if_pos settled.2]
    have ending :
      p.log = (back.flatMap b.handle).reverse ++ .deleted j :: .handled j :: (front.flatMap b.handle).reverse := by
      rw [log, Batch.start_jobs, split]
      simp [Batch.start, handled]
    have deleted := keeps _ p run _ _ i j ending before (by rw [first, second]) (by
      simp only [List.mem_cons, List.mem_reverse, List.mem_flatMap]
      exact .inr ⟨i, ahead, List.mem_cons_self ..⟩) nacked
    simp only [List.mem_cons, reduceCtorEq, List.mem_reverse, List.mem_flatMap, false_or] at deleted
    obtain ⟨message, _, member⟩ := deleted
    exact (b.settled_of_deleted member).2.1 nacked
  · intro follows schedule p run later earlier i j log before same _ nacked
    exfalso
    obtain ⟨message, g, placed, member⟩ := b.log_from_jobs run (.deleted j) (by simp [log])
    obtain ⟨rfl, settled, deleted⟩ := b.settled_of_deleted member
    rcases follows i j before ⟨g, same.trans placed, placed⟩ nacked with nacked' | kept
    · exact settled nacked'
    · rw [kept] at deleted
      cases deleted

def sampleBatch : Batch := ⟨[[], []], fun message => if message = 0 then .nack else .ack, fun _ => true⟩

/-- The second message is deleted although the first one was nacked and is not deleted. -/
theorem acked_message_overtakes_nacked_one : ∃ p,
    feed Batch.Polling.step sampleBatch.start [[], [], []] = some p ∧ p.log = [.deleted 1, .handled 1, .handled 0] ∧
    ¬ sampleBatch.KeepsOrder p.log := by
  refine ⟨_, rfl, by decide, fun keeps => ?_⟩
  have deleted := keeps [] [.handled 1, .handled 0] 0 1 (by decide) (by decide) rfl (by decide) rfl
  exact absurd deleted (by decide)

end Gofi.Msq.Sqs
