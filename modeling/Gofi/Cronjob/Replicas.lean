import Gofi.Concurrent.Machine
import Gofi.Cronjob.Locker
import Mathlib.Data.Fin.Basic

/-! `cronjob/scheduler.go`: how the replicas of a job share its runs. Each firing
takes the job's lease and claims its slot before it runs. Calls of the Locker take
any time: a call has its effect at some later step, or none. -/

namespace Gofi.Cronjob

open Gofi.Concurrent Gofi.Go

/-- When a job fires: at the ticks of an interval, or at instants of the day. The
clocks of the replicas agree in the first case; in the second they are at most
`ahead` ahead of the Locker's, and within an hour of each other. -/
inductive Schedule where
  | interval (every : Duration) (positive : 0 < every)
  | fixed (ahead : Duration)

namespace Schedule

def slotTTL : Schedule → Duration
  | interval every _ => every
  | fixed _ => Time.hour

def Fires (schedule : Schedule) (now slot : Time) : Prop :=
  match schedule with
  | interval every _ => slot = now - now % every
  | fixed ahead => slot - now ≤ ahead ∧ ahead - Time.hour < slot - now

instance (schedule : Schedule) (now slot : Time) : Decidable (schedule.Fires now slot) :=
  match schedule with
  | interval every _ => inferInstanceAs (Decidable (slot = now - now % every))
  | fixed ahead => inferInstanceAs (Decidable (slot - now ≤ ahead ∧ ahead - Time.hour < slot - now))

def opening : Schedule → Time → Time
  | interval _ _, slot => slot
  | fixed ahead, slot => slot - ahead

theorem opening_le {schedule : Schedule} (fires : schedule.Fires now slot) : schedule.opening slot ≤ now := by
  cases schedule with
  | interval every positive =>
    have rest := Int.emod_nonneg now positive.ne'
    simp only [Fires] at fires
    simp only [opening]
    lia
  | fixed ahead =>
    simp only [Fires] at fires
    simp only [opening]
    lia

end Schedule

structure Job where
  schedule : Schedule
  lockTTL : Duration

inductive Stage where
  | idle
  | leasing (slot : Time)
  | claiming (slot : Time) (token : Nat)
  | running (slot : Time) (token : Nat)
  | releasing (token : Nat)
  deriving DecidableEq

/-- The replicas and the Locker, with the tokens of the leases in the order in
which they were taken, and the slot and token of every run. -/
structure Replicas (n : Nat) where
  now : Time
  locker : Locker
  stages : Fin n → Stage
  leases : List Nat
  runs : List (Time × Nat)

/-- What the network does to a call: it arrives and its answer returns, it never
arrives, or only its answer is lost. -/
inductive Fate where
  | delivered
  | failed
  | lost
  deriving DecidableEq

inductive Move (n : Nat) where
  | wait (length : Nat)
  | fire (i : Fin n) (slot : Time)
  | lease (i : Fin n) (fate : Fate)
  | claim (i : Fin n) (fate : Fate)
  | renew (i : Fin n)
  | finish (i : Fin n)
  | release (i : Fin n) (fate : Fate)

namespace Replicas

variable (job : Job)

def goTo (r : Replicas n) (i : Fin n) (stage : Stage) : Replicas n :=
  { r with stages := Function.update r.stages i stage }

def lease (r : Replicas n) (i : Fin n) (slot : Time) (fate : Fate) : Replicas n :=
  match fate with
  | .failed => r.goTo i .idle
  | _ =>
    match r.locker.acquire r.now .lease job.lockTTL with
    | (.token token, locker) =>
      { r.goTo i (if fate = .lost then .idle else .claiming slot token) with locker, leases := r.leases ++ [token] }
    | (_, locker) => { r.goTo i .idle with locker }

/-- The slot is claimed at the Locker, and the job starts when it is. -/
def claim (r : Replicas n) (i : Fin n) (slot : Time) (token : Nat) (fate : Fate) : Replicas n :=
  match fate with
  | .failed => r.goTo i (.releasing token)
  | _ =>
    match r.locker.acquire r.now (.slot slot) job.schedule.slotTTL with
    | (.token _, locker) =>
      if fate = .lost then { r.goTo i (.releasing token) with locker }
      else { r.goTo i (.running slot token) with locker, runs := r.runs ++ [(slot, token)] }
    | (_, locker) => { r.goTo i (.releasing token) with locker }

def step (r : Replicas n) : Move n → Option (Replicas n)
  | .wait length => some { r with now := r.now + length }
  | .fire i slot =>
    if r.stages i = .idle ∧ job.schedule.Fires r.now slot then some (r.goTo i (.leasing slot)) else none
  | .lease i fate =>
    match r.stages i with
    | .leasing slot => some (r.lease job i slot fate)
    | _ => none
  | .claim i fate =>
    match r.stages i with
    | .claiming slot token => some (r.claim job i slot token fate)
    | _ => none
  | .renew i =>
    match r.stages i with
    | .running _ token => some { r with locker := (r.locker.renew r.now .lease token job.lockTTL).2 }
    | _ => none
  | .finish i =>
    match r.stages i with
    | .running _ token => some (r.goTo i (.releasing token))
    | _ => none
  | .release i fate =>
    match r.stages i with
    | .releasing token => some { r.goTo i .idle with
        locker := if fate = .failed then r.locker else r.locker.release r.now .lease token }
    | _ => none

structure Initial (r : Replicas n) : Prop where
  idle : ∀ i, r.stages i = .idle
  leases : r.leases = []
  runs : r.runs = []

def OncePerSlot (r : Replicas n) : Prop := (r.runs.map Prod.fst).Nodup

/-- The tokens grow in the order of the leases, and each run has one of its own. -/
structure Fenced (r : Replicas n) : Prop where
  grow : r.leases.Pairwise (· < ·)
  own : (r.runs.map Prod.snd).Nodup
  taken : ∀ run ∈ r.runs, run.2 ∈ r.leases

/-- A claim has its effect before the first claim on the slot can have expired. -/
def InTime (r : Replicas n) : Move n → Prop
  | .claim i _ =>
    match r.stages i with
    | .claiming slot _ => r.now < job.schedule.opening slot + wholeMillis job.schedule.slotTTL
    | _ => True
  | _ => True

instance (r : Replicas n) : (move : Move n) → Decidable (r.InTime job move)
  | .claim i _ =>
    match stage : r.stages i with
    | .claiming slot _ => decidable_of_iff (r.now < job.schedule.opening slot + wholeMillis job.schedule.slotTTL)
        (by simp [InTime, stage])
    | .idle | .leasing _ | .running _ _ | .releasing _ => .isTrue (by simp [InTime, stage])
  | .wait _ | .fire _ _ | .lease _ _ | .renew _ | .finish _ | .release _ _ => .isTrue trivial

variable {job}

@[simp] theorem goTo_self (r : Replicas n) (i : Fin n) (stage : Stage) : (r.goTo i stage).stages i = stage :=
  Function.update_self ..

theorem goTo_other (r : Replicas n) (stage : Stage) (apart : j ≠ i) : (r.goTo i stage).stages j = r.stages j :=
  Function.update_of_ne apart ..

theorem stage_of_goTo {r : Replicas n} (at_ : (r.goTo i stage).stages j = other) :
    j = i ∧ other = stage ∨ r.stages j = other := by
  by_cases same : j = i
  · subst same
    exact .inl ⟨rfl, at_.symm.trans (goTo_self r j stage)⟩
  · exact .inr ((goTo_other r stage same).symm.trans at_)

end Replicas

end Gofi.Cronjob
