import Gofi.Concurrent.Machine
import Mathlib.Logic.Function.Basic

/-! `provider/kafka`: pausing a consumer while its group sessions come and go. A
pause is a flag and one call on the partitions that are being consumed at that
moment; sarama starts every claim unpaused. -/

namespace Gofi.Msq.Kafka

open Gofi.Concurrent

/-- A partition being consumed: whether fetching from it is suspended, and how
many records were fetched and not yet handed to the handler. `startedPaused`
notes that the claim started after a `Pause`, and that no `Resume` came since. -/
structure Consumed where
  suspended : Bool
  fetched : Nat
  startedPaused : Bool
  deriving DecidableEq

/-- The consumer: its `paused` flag, whether its `group` is set, the partitions
its session was assigned, and those being consumed. -/
structure GroupMember where
  paused : Bool
  joined : Bool
  session : Option (List Nat)
  claims : Nat → Option Consumed

def GroupMember.start : GroupMember := ⟨false, false, none, fun _ => none⟩

namespace GroupMember

/-- `PauseAll` and `ResumeAll` act on the partitions being consumed. -/
def suspendAll (suspended : Bool) (claims : Nat → Option Consumed) : Nat → Option Consumed :=
  fun partition => (claims partition).map ({ · with suspended })

/-- The claims that started since a `Pause` are no longer held back. -/
def forget (claims : Nat → Option Consumed) : Nat → Option Consumed :=
  fun partition => (claims partition).map ({ · with startedPaused := false })

/-- What happens to a consumer. `join` and `leave` are the critical sections at
the beginning and the end of `Consume`; the others are the calls of `Pause` and
`Resume`, and what sarama does in between. -/
inductive Move where
  | pause
  | resume
  | join
  | leave
  | sessionStarts (assigned : List Nat)
  | claimStarts (partition : Nat)
  | fetched (partition : Nat)
  | delivered (partition : Nat)
  | claimEnds (partition : Nat)
  | sessionEnds

def step (m : GroupMember) : Move → Option GroupMember
  | .pause => some { m with paused := true, claims := if m.joined then suspendAll true m.claims else m.claims }
  | .resume => some { m with
      paused := false
      claims := forget (if m.joined then suspendAll false m.claims else m.claims) }
  | .join => if m.joined then none else some { m with
      joined := true
      claims := if m.paused then suspendAll true m.claims else m.claims }
  | .leave => if m.joined ∧ m.session = none then some { m with joined := false } else none
  | .sessionStarts assigned => if m.joined ∧ m.session = none then some { m with session := some assigned } else none
  | .claimStarts partition =>
    if (∃ assigned ∈ m.session, partition ∈ assigned) ∧ m.claims partition = none then
      some { m with claims := Function.update m.claims partition (some ⟨false, 0, m.paused⟩) }
    else none
  | .fetched partition =>
    match m.claims partition with
    | some claim => if claim.suspended then none else
        some { m with claims := Function.update m.claims partition (some { claim with fetched := claim.fetched + 1 }) }
    | none => none
  | .delivered partition =>
    match m.claims partition with
    | some claim => if claim.fetched = 0 then none else
        some { m with claims := Function.update m.claims partition (some { claim with fetched := claim.fetched - 1 }) }
    | none => none
  | .claimEnds partition => some { m with claims := Function.update m.claims partition none }
  | .sessionEnds => some { m with session := none, claims := fun _ => none }

/-- Only partitions a running session was assigned are consumed, only while the
consumer is a member of its group, and none is suspended unless it is paused. -/
structure Sound (m : GroupMember) : Prop where
  assigned : ∀ partition claim, m.claims partition = some claim → ∃ assigned ∈ m.session, partition ∈ assigned
  member : m.session ≠ none → m.joined = true
  suspended : ∀ partition claim, m.claims partition = some claim → claim.suspended = true → m.paused = true

theorem Sound.start : GroupMember.start.Sound := by
  refine ⟨?_, ?_, ?_⟩ <;> simp [GroupMember.start]

theorem Sound.joined (sound : Sound m) (present : m.claims partition = some claim) : m.joined = true := by
  obtain ⟨assigned, running, _⟩ := sound.assigned partition claim present
  exact sound.member (Option.ne_none_iff_exists'.mpr ⟨assigned, running⟩)

inductive Origin (m : GroupMember) (move : Move) (after : GroupMember) (partition : Nat) (claim : Consumed) :
    Prop where
  | kept (before : m.claims partition = some old) (suspended : claim.suspended = old.suspended)
      (started : claim.startedPaused = old.startedPaused) (flag : after.paused = m.paused)
      (session : after.session = m.session)
  | paused (before : m.claims partition = some old) (suspended : claim.suspended = true)
      (started : claim.startedPaused = old.startedPaused) (flag : after.paused = true)
      (session : after.session = m.session)
  | resumed (before : m.claims partition = some old) (suspended : claim.suspended = false)
      (started : claim.startedPaused = false) (flag : after.paused = false)
      (session : after.session = m.session)
  | started (starts : move = .claimStarts partition) (fresh : claim = ⟨false, 0, m.paused⟩)
      (flag : after.paused = m.paused)
      (assigned : ∃ assigned ∈ after.session, partition ∈ assigned)

theorem Origin.of_update {replaced : Option Consumed} (flag : after.paused = m.paused)
    (session : after.session = m.session)
    (updated : after.claims = Function.update m.claims changed replaced)
    (here : ∀ claim, replaced = some claim → Origin m move after changed claim)
    (present : after.claims partition = some claim) : Origin m move after partition claim := by
  rw [updated] at present
  by_cases same : partition = changed
  · subst same
    rw [Function.update_self] at present
    exact here claim present
  · rw [Function.update_of_ne same] at present
    exact .kept present rfl rfl flag session

theorem origin (sound : Sound m) (stepped : m.step move = some after) (present : after.claims partition = some claim) :
    Origin m move after partition claim := by
  cases move with
  | pause =>
    cases stepped
    cases joined : m.joined with
    | false =>
      simp only [joined] at present
      exact absurd (sound.joined present) (by simp [joined])
    | true =>
      simp only [joined, if_true, suspendAll, Option.map_eq_some_iff] at present
      obtain ⟨old, before, rfl⟩ := present
      exact .paused before rfl rfl rfl rfl
  | resume =>
    cases stepped
    cases joined : m.joined with
    | false =>
      simp only [joined, forget, Option.map_eq_some_iff] at present
      obtain ⟨old, before, _⟩ := present
      exact absurd (sound.joined before) (by simp [joined])
    | true =>
      simp only [joined, if_true, forget, suspendAll, Option.map_eq_some_iff] at present
      obtain ⟨_, ⟨old, before, rfl⟩, rfl⟩ := present
      exact .resumed before rfl rfl rfl rfl
  | join =>
    simp only [step, Option.ite_none_left_eq_some, Option.some.injEq] at stepped
    obtain ⟨apart, rfl⟩ := stepped
    have gone : ∃ old, m.claims partition = some old := by
      cases flag : m.paused <;> simp only [flag, if_true, suspendAll, Option.map_eq_some_iff] at present
      · exact ⟨claim, present⟩
      · exact ⟨_, present.choose_spec.1⟩
    exact absurd (sound.joined gone.choose_spec) apart
  | leave =>
    simp only [step, Option.ite_none_right_eq_some, Option.some.injEq] at stepped
    obtain ⟨_, rfl⟩ := stepped
    exact .kept present rfl rfl rfl rfl
  | sessionStarts assigned =>
    simp only [step, Option.ite_none_right_eq_some, Option.some.injEq] at stepped
    obtain ⟨⟨_, ended⟩, rfl⟩ := stepped
    obtain ⟨_, running, _⟩ := sound.assigned partition claim present
    exact absurd running (by simp [ended])
  | claimStarts changed =>
    simp only [step, Option.ite_none_right_eq_some, Option.some.injEq] at stepped
    obtain ⟨⟨assigned, _⟩, rfl⟩ := stepped
    refine .of_update rfl rfl rfl (fun claim here => ?_) present
    exact .started rfl (Option.some.inj here).symm rfl assigned
  | fetched changed | delivered changed =>
    simp only [step] at stepped
    split at stepped
    · rename_i old before
      simp only [Option.ite_none_left_eq_some, Option.some.injEq] at stepped
      obtain ⟨_, rfl⟩ := stepped
      refine .of_update rfl rfl rfl (fun claim here => ?_) present
      cases here
      exact .kept before rfl rfl rfl rfl
    · cases stepped
  | claimEnds changed =>
    cases stepped
    refine .of_update rfl rfl rfl (fun claim here => ?_) present
    cases here
  | sessionEnds =>
    cases stepped
    cases present

private theorem member_step (sound : Sound m) (stepped : m.step move = some after) (running : after.session ≠ none) :
    after.joined = true := by
  cases move <;>
    simp only [step, Option.ite_none_left_eq_some, Option.ite_none_right_eq_some, Option.some.injEq] at stepped
  case pause | resume | claimEnds partition =>
    subst stepped
    exact sound.member running
  case join =>
    obtain ⟨_, rfl⟩ := stepped
    rfl
  case leave =>
    obtain ⟨⟨_, ended⟩, rfl⟩ := stepped
    exact absurd ended running
  case sessionStarts assigned =>
    obtain ⟨⟨joined, _⟩, rfl⟩ := stepped
    exact joined
  case claimStarts partition =>
    obtain ⟨_, rfl⟩ := stepped
    exact sound.member running
  case fetched partition | delivered partition =>
    (repeat' split at stepped) <;> cases stepped
    exact sound.member running
  case sessionEnds =>
    subst stepped
    exact absurd rfl running

theorem Sound.step (sound : Sound m) (stepped : m.step move = some after) : Sound after := by
  refine ⟨fun partition claim present => ?_, member_step sound stepped, fun partition claim present held => ?_⟩
  · cases origin sound stepped present with
    | kept before _ _ _ session | paused before _ _ _ session | resumed before _ _ _ session =>
      exact session ▸ sound.assigned partition _ before
    | started _ _ _ assigned => exact assigned
  · cases origin sound stepped present with
    | kept before suspended _ flag _ => exact flag.trans (sound.suspended partition _ before (suspended ▸ held))
    | paused _ _ _ flag _ => exact flag
    | resumed _ suspended _ _ _ => exact absurd held (by simp [suspended])
    | started _ fresh _ _ => exact absurd held (by simp [fresh])

def StartsUnpaused (m : GroupMember) : Move → Prop
  | .claimStarts _ => m.paused = false
  | _ => True

instance decidableStartsUnpaused (m : GroupMember) (move : Move) : Decidable (m.StartsUnpaused move) := by
  unfold StartsUnpaused
  split <;> infer_instance

/-- Nothing is fetched while the consumer is paused, and no claim that started
after the `Pause` hands a record to the handler. -/
def Quiet (m : GroupMember) : Move → Prop
  | .fetched _ => m.paused = false
  | .delivered partition => ∀ claim, m.claims partition = some claim → claim.startedPaused = false
  | _ => True

structure Held (m : GroupMember) : Prop extends Sound m where
  older : ∀ partition claim, m.claims partition = some claim → claim.startedPaused = false
  paused : ∀ partition claim, m.claims partition = some claim → m.paused = true → claim.suspended = true

theorem Held.start : GroupMember.start.Held := by
  refine ⟨Sound.start, ?_, ?_⟩ <;> simp [GroupMember.start]

theorem Held.step (held : Held m) (unpaused : StartsUnpaused m move) (stepped : m.step move = some after) :
    Held after := by
  refine ⟨held.toSound.step stepped, fun partition claim present => ?_, fun partition claim present flagged => ?_⟩
  · cases origin held.toSound stepped present with
    | kept before _ started _ _ | paused before _ started _ _ => exact started.trans (held.older partition _ before)
    | resumed _ _ started _ _ => exact started
    | started starts fresh _ _ =>
      subst starts fresh
      exact unpaused
  · cases origin held.toSound stepped present with
    | kept before suspended _ flag _ => exact suspended.trans (held.paused partition _ before (flag ▸ flagged))
    | paused _ suspended _ _ _ => exact suspended
    | resumed _ _ _ flag _ => exact absurd flagged (by simp [flag])
    | started starts _ flag _ =>
      subst starts
      rw [flag, show m.paused = false from unpaused] at flagged
      cases flagged

theorem Sound.fetchable (sound : Sound m) (resumed : m.paused = false) (running : m.session = some partitions)
    (member : partition ∈ partitions) :
    (∃ claim, m.claims partition = some claim ∧ m.step (.fetched partition) ≠ none) ∨
      m.claims partition = none ∧ m.step (.claimStarts partition) ≠ none := by
  cases present : m.claims partition with
  | none =>
    refine .inr ⟨rfl, ?_⟩
    simp only [GroupMember.step, present, and_true]
    rw [if_pos ⟨partitions, running, member⟩]
    exact Option.some_ne_none _
  | some claim =>
    have free : claim.suspended = false := by
      cases held : claim.suspended with
      | false => rfl
      | true => exact absurd (sound.suspended partition claim present held) (by simp [resumed])
    refine .inl ⟨claim, rfl, ?_⟩
    simp [GroupMember.step, present, free]

end GroupMember

open GroupMember

/-- A paused consumer is quiet in every run in which no claim starts between a
`Pause` and the next `Resume`: nothing is fetched, and no claim that started
after the `Pause` delivers a record. After a `Resume` every assigned partition
is fetched again. -/
theorem paused_consumer_is_quiet (moves : List Move) (m : GroupMember)
    (steady : Along GroupMember.step StartsUnpaused GroupMember.start moves)
    (run : feed GroupMember.step GroupMember.start moves = some m) :
    Along GroupMember.step Quiet GroupMember.start moves ∧
    (m.paused = false → ∀ partitions, m.session = some partitions → ∀ partition ∈ partitions,
      (∃ claim, m.claims partition = some claim ∧ m.step (.fetched partition) ≠ none) ∨
        m.claims partition = none ∧ m.step (.claimStarts partition) ≠ none) := by
  constructor
  · refine steady.of_invariant Held (fun m move after held unpaused stepped => held.step unpaused stepped)
      (fun m move after held unpaused stepped => ?_) Held.start
    cases move with
    | fetched partition =>
      simp only [GroupMember.step] at stepped
      split at stepped
      · rename_i claim present
        simp only [Option.ite_none_left_eq_some] at stepped
        cases flag : m.paused with
        | false => exact flag
        | true => exact absurd (held.paused partition claim present flag) stepped.1
      · cases stepped
    | delivered partition => exact held.older partition
    | _ => trivial
  · intro resumed partitions running partition member
    have sound := feed_invariant Sound (fun m move after sound stepped => sound.step stepped) Sound.start run
    exact sound.fetchable resumed running member

def Sample.pausedSession : List Move :=
  [.join, .sessionStarts [0], .claimStarts 0, .fetched 0, .delivered 0, .pause, .resume, .fetched 0]

theorem sample_session_is_quiet : Along GroupMember.step Quiet GroupMember.start Sample.pausedSession :=
  (paused_consumer_is_quiet Sample.pausedSession _ (by decide) rfl).1

/-- The run ends with a claim that started after a `Pause` about to deliver a record
to the handler, although no `Resume` came. -/
def GroupMember.DeliversPaused (moves : List Move) : Prop := ∃ m,
  feed GroupMember.step GroupMember.start moves = some m ∧ m.paused = true ∧
  (∃ claim, m.claims 0 = some claim ∧ claim.startedPaused = true) ∧ m.step (.delivered 0) ≠ none

/-- The `Pause` comes before `Consume`, between two sessions, or during a session
that a rebalance ends. -/
theorem later_claim_delivers_while_paused :
    DeliversPaused [.pause, .join, .sessionStarts [0], .claimStarts 0, .fetched 0] ∧
    DeliversPaused [.join, .sessionStarts [0], .claimStarts 0, .sessionEnds, .pause, .sessionStarts [0],
      .claimStarts 0, .fetched 0] ∧
    DeliversPaused [.join, .sessionStarts [0], .claimStarts 0, .pause, .sessionEnds, .sessionStarts [0],
      .claimStarts 0, .fetched 0] :=
  ⟨⟨_, rfl, rfl, ⟨_, rfl, rfl⟩, by decide⟩, ⟨_, rfl, rfl, ⟨_, rfl, rfl⟩, by decide⟩,
    ⟨_, rfl, rfl, ⟨_, rfl, rfl⟩, by decide⟩⟩

end Gofi.Msq.Kafka
