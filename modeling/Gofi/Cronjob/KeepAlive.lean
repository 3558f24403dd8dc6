import Gofi.Concurrent.Machine
import Gofi.Cronjob.Locker
import Mathlib.Data.Fin.Basic

/-! `scheduler.fire` and `keepAlive`: how a run takes its lease and renews it while
the job lasts. Time passes between steps, as far as the timers and the calls that
are under way allow: every call returns within a tenth of the ttl, with its effect
at some instant before. -/

namespace Gofi.Cronjob.KeepAlive

open Gofi.Concurrent Gofi.Go

inductive Outcome where
  | renewed
  | lost
  | error

/-- A `Renew` under way; it has an outcome once it has had its effect. -/
structure Call where
  sent : Time
  outcome : Option Outcome

/-- A run and the goroutine that renews its lease: the next tick, the time of the
last renewal, and the call under way. `origin` notes the tick of that renewal;
for the lease of the start it is the start. -/
structure Run where
  token : Nat
  next : Time
  renewed : Time
  call : Option Call
  origin : Time

inductive Stage where
  | idle
  | acquiring (sent : Time)
  | acquired (sent : Time) (token : Nat)
  | claiming (sent : Time) (token : Nat)
  | running (run : Run)
  | ending (token : Nat) (renewing : Bool)

structure State (n : Nat) where
  now : Time
  locker : Locker
  stages : Fin n → Stage

/-- `effect` is the instant at which a call acts at the Locker; an answer that is
lost is an error, as is a call that never arrives. Whether the slot is free is
left open. -/
inductive Move (n : Nat) where
  | wait (length : Nat)
  | acquire (i : Fin n)
  | acquireActs (i : Fin n)
  | acquireFails (i : Fin n)
  | acquireReturns (i : Fin n)
  | slotActs (slot : Time) (slotTTL : Duration)
  | slotReturns (i : Fin n) (claimed : Bool)
  | tick (i : Fin n)
  | renewActs (i : Fin n) (answered : Bool)
  | renewFails (i : Fin n)
  | renewReturns (i : Fin n)
  | finish (i : Fin n)
  | renewingEnds (i : Fin n)
  | release (i : Fin n) (arrives : Bool)

variable (lockTTL : Duration)

def period : Duration := lockTTL.tdiv 3

/-- `s.lockTTL*2/3`, in a signed 64-bit number. -/
def patience : Duration := ((lockTTL * 2).bmod (2 ^ 64)).tdiv 3

/-- How long time can pass for a replica: until its call returns, or its ticker ticks. -/
def Stage.Waits (until_ : Time) : Stage → Prop
  | .acquiring sent | .acquired sent _ | .claiming sent _ => 10 * (until_ - sent) ≤ lockTTL
  | .running run =>
    match run.call with
    | some call => 10 * (until_ - call.sent) ≤ lockTTL
    | none => until_ ≤ run.next
  | .idle | .ending _ _ => True

instance (until_ : Time) : (stage : Stage) → Decidable (stage.Waits lockTTL until_)
  | .acquiring sent | .acquired sent _ | .claiming sent _ =>
    inferInstanceAs (Decidable (10 * (until_ - sent) ≤ lockTTL))
  | .running ⟨_, _, _, some call, _⟩ => inferInstanceAs (Decidable (10 * (until_ - call.sent) ≤ lockTTL))
  | .running ⟨_, next, _, none, _⟩ => inferInstanceAs (Decidable (until_ ≤ next))
  | .idle | .ending _ _ => .isTrue trivial

def Run.start (now : Time) (token : Nat) : Run := ⟨token, now + period lockTTL, now, none, now⟩

def Run.answered (run : Run) (now sent : Time) : Outcome → Stage
  | .renewed => .running { run with renewed := now, call := none, origin := sent }
  | .lost => .ending run.token false
  | .error =>
    if now - run.renewed < patience lockTTL then .running { run with call := none } else .ending run.token false

def Outcome.of (held answered : Bool) : Outcome :=
  if answered then (if held then .renewed else .lost) else .error

def State.goTo (s : State n) (i : Fin n) (stage : Stage) : State n :=
  { s with stages := Function.update s.stages i stage }

def State.wait (s : State n) (until_ : Time) : Bool :=
  (List.finRange n).all fun i => decide ((s.stages i).Waits lockTTL until_)

def step (s : State n) : Move n → Option (State n)
  | .wait length =>
    if s.wait lockTTL (s.now + length) then some { s with now := s.now + length } else none
  | .acquire i =>
    match s.stages i with
    | .idle => some (s.goTo i (.acquiring s.now))
    | _ => none
  | .acquireActs i =>
    match s.stages i with
    | .acquiring sent =>
      match s.locker.acquire s.now .lease lockTTL with
      | (.token token, locker) => some { s.goTo i (.acquired sent token) with locker }
      | (_, locker) => some { s.goTo i .idle with locker }
    | _ => none
  | .acquireFails i =>
    match s.stages i with
    | .acquiring _ | .acquired _ _ => some (s.goTo i .idle)
    | _ => none
  | .acquireReturns i =>
    match s.stages i with
    | .acquired _ token => some (s.goTo i (.claiming s.now token))
    | _ => none
  | .slotActs slot slotTTL => some { s with locker := (s.locker.acquire s.now (.slot slot) slotTTL).2 }
  | .slotReturns i claimed =>
    match s.stages i with
    | .claiming _ token =>
      some (s.goTo i (if claimed then .running (.start lockTTL s.now token) else .ending token false))
    | _ => none
  | .tick i =>
    match s.stages i with
    | .running ⟨token, next, renewed, none, origin⟩ =>
      if s.now = next then
        some (s.goTo i (.running ⟨token, next + period lockTTL, renewed, some ⟨s.now, none⟩, origin⟩))
      else none
    | _ => none
  | .renewActs i answered =>
    match s.stages i with
    | .running ⟨token, next, renewed, some ⟨sent, none⟩, origin⟩ =>
      let (held, locker) := s.locker.renew s.now .lease token lockTTL
      some { s.goTo i (.running ⟨token, next, renewed, some ⟨sent, some (.of held answered)⟩, origin⟩) with locker }
    | .ending token true => some { s with locker := (s.locker.renew s.now .lease token lockTTL).2 }
    | _ => none
  | .renewFails i =>
    match s.stages i with
    | .running ⟨token, next, renewed, some ⟨sent, none⟩, origin⟩ =>
      some (s.goTo i (.running ⟨token, next, renewed, some ⟨sent, some .error⟩, origin⟩))
    | _ => none
  | .renewReturns i =>
    match s.stages i with
    | .running run =>
      match run.call with
      | some ⟨sent, some outcome⟩ => some (s.goTo i (run.answered lockTTL s.now sent outcome))
      | _ => none
    | _ => none
  | .finish i =>
    match s.stages i with
    | .running run => some (s.goTo i (.ending run.token run.call.isSome))
    | _ => none
  | .renewingEnds i =>
    match s.stages i with
    | .ending token true => some (s.goTo i (.ending token false))
    | _ => none
  | .release i arrives =>
    match s.stages i with
    | .ending token false => some { s.goTo i .idle with
        locker := if arrives then s.locker.release s.now .lease token else s.locker }
    | _ => none

def Held (s : State n) : Prop :=
  ∀ i run, s.stages i = .running run → s.locker.holder s.now .lease = some run.token

def Exclusive (s : State n) : Prop :=
  ∀ i j first second, s.stages i = .running first → s.stages j = .running second → i = j

def Coarse : Prop := 0 < lockTTL ∧ (lockTTL % Time.millisecond = 0 ∨ 30 * Time.millisecond ≤ lockTTL)

/-- The second error in a row comes no sooner after its tick than the last renewal
came after its own; a nanosecond later, when thirds of the ttl are rounded so. -/
def Paced (s : State n) : Move n → Prop
  | .renewReturns i =>
    match s.stages i with
    | .running ⟨_, _, renewed, some ⟨sent, some .error⟩, origin⟩ =>
      sent = origin + 2 * period lockTTL →
        renewed - origin + ((lockTTL * 2).tdiv 3 - 2 * period lockTTL) ≤ s.now - sent
    | _ => True
  | _ => True

instance (s : State n) : (move : Move n) → Decidable (Paced lockTTL s move)
  | .renewReturns i =>
    match stage : s.stages i with
    | .running ⟨_, _, renewed, some ⟨sent, some .error⟩, origin⟩ =>
      decidable_of_iff (sent = origin + 2 * period lockTTL →
        renewed - origin + ((lockTTL * 2).tdiv 3 - 2 * period lockTTL) ≤ s.now - sent) (by simp [Paced, stage])
    | .running ⟨_, _, _, none, _⟩ | .running ⟨_, _, _, some ⟨_, none⟩, _⟩ => .isTrue (by simp [Paced, stage])
    | .running ⟨_, _, _, some ⟨_, some .renewed⟩, _⟩ | .running ⟨_, _, _, some ⟨_, some .lost⟩, _⟩ =>
      .isTrue (by simp [Paced, stage])
    | .idle | .acquiring _ | .acquired _ _ | .claiming _ _ | .ending _ _ => .isTrue (by simp [Paced, stage])
  | .wait _ | .acquire _ | .acquireActs _ | .acquireFails _ | .acquireReturns _ | .slotActs _ _ | .slotReturns _ _
  | .tick _ | .renewActs _ _ | .renewFails _ | .finish _ | .renewingEnds _ | .release _ _ => .isTrue trivial

end Gofi.Cronjob.KeepAlive
