import Gofi.Concurrent.Pool

/-! Rules for whole runs: what one call knows from its own history, and how a
property of the world, or of everything the calls have observed, is carried
from move to move. -/

namespace Gofi.Concurrent

variable {P L : Sig} {sys : System P L}

namespace Thread

variable {thread : Thread sys}

theorem asked_of_past (member : ⟨op, ans⟩ ∈ thread.past) : thread.Asked op :=
  .inr ⟨ans, member⟩

variable {allowed : History P → P.Op → Prop} {post : History P → sys.Result thread.call → Prop}

theorem asked_allowed (meets : (sys.body thread.call).Meets allowed post []) (asked : thread.Asked op) :
    ∃ earlier, earlier <:+ thread.past ∧ allowed earlier op := by
  obtain ⟨call, visits, stage⟩ := thread
  cases stage with
  | idle core run =>
    rcases asked with inside | ⟨ans, member⟩
    · cases inside
    · obtain ⟨earlier, suffix, permitted⟩ := meets.performed run member
      exact ⟨earlier, (List.suffix_cons _ _).trans suffix, permitted⟩
  | busy named next trail rest run inner =>
    rcases asked with inside | ⟨ans, member⟩
    · cases inside
      exact ⟨_, List.suffix_refl _, (meets.along run).1⟩
    · obtain ⟨earlier, suffix, permitted⟩ := meets.performed run member
      exact ⟨earlier, (List.suffix_cons _ _).trans suffix, permitted⟩

theorem ran (thread : Thread sys) : ∃ core, Runs (sys.body thread.call) thread.past core := by
  obtain ⟨call, visits, stage⟩ := thread
  cases stage with
  | idle core run | busy op next trail rest run inner => exact ⟨_, run⟩

theorem past_once (kind : P.Op → Prop) (first : ∀ past op, allowed past op → kind op → ∀ event ∈ past, ¬ kind event.op)
    (meets : (sys.body thread.call).Meets allowed post []) (left : one ∈ thread.past)
    (right : other ∈ thread.past) (leftKind : kind one.op) (rightKind : kind other.op) : one = other := by
  obtain ⟨core, run⟩ := thread.ran
  exact meets.once kind first run left right leftKind rightKind

theorem asked_once (kind : P.Op → Prop)
    (first : ∀ past op, allowed past op → kind op → ∀ event ∈ past, ¬ kind event.op)
    (meets : (sys.body thread.call).Meets allowed post []) (left : thread.Asked one)
    (right : thread.Asked other) (leftKind : kind one) (rightKind : kind other) : one = other := by
  have inside {asked : P.Op} {event : Event P} (busy : thread.current = some asked) (seen : event ∈ thread.past)
      (busyKind : kind asked) (seenKind : kind event.op) : False := by
    obtain ⟨call, visits, stage⟩ := thread
    cases stage with
    | idle => cases busy
    | busy op next trail rest run inner =>
      cases busy
      exact first _ _ (meets.along run).1 busyKind _ seen seenKind
  rcases left with busy | ⟨leftAns, oneSeen⟩ <;> rcases right with busy' | ⟨rightAns, otherSeen⟩
  · exact Option.some.inj (busy.symm.trans busy')
  · exact (inside busy otherSeen leftKind rightKind).elim
  · exact (inside busy' oneSeen rightKind leftKind).elim
  · exact congrArg Event.op (past_once kind first meets oneSeen otherSeen leftKind rightKind)

theorem inside_allowed (meets : (sys.body thread.call).Meets allowed post []) (waits : thread.Waits op trail atom) :
    allowed thread.past op := by
  obtain ⟨next, resume, run, inner, _⟩ := waits
  exact (meets.along run).1

theorem waits_allowed {allowed : History L → L.Op → Prop}
    {post : History L → P.Ans op → Prop} (meets : (sys.impl op).Meets allowed post [])
    (waits : thread.Waits op trail atom) : allowed trail atom := by
  obtain ⟨next, resume, run, inner, _⟩ := waits
  exact (meets.along inner).1

theorem asked_of_waits (waits : thread.Waits op trail atom) : thread.Asked op := by
  obtain ⟨next, resume, run, inner, stage⟩ := waits
  exact .inl (by simp [current, stage])

theorem inside_of_waits (waits : thread.Waits op trail atom) : thread.Inside op trail := by
  obtain ⟨next, resume, run, inner, stage⟩ := waits
  exact ⟨next, _, run, inner, stage⟩

theorem low_of_waits (waits : thread.Waits op trail atom) : thread.low = trail ++ trails thread.visits := by
  obtain ⟨next, resume, run, inner, stage⟩ := waits
  simp [low, stage]

theorem mem_trails (old : event ∈ trails thread.visits) :
    ∃ op ans trail, ⟨op, ans⟩ ∈ thread.past ∧ Runs (sys.impl op) trail (.done ans) ∧ event ∈ trail := by
  obtain ⟨trail, listed, inside⟩ := List.mem_flatten.mp old
  obtain ⟨visit, present, rfl⟩ := List.mem_map.mp listed
  exact ⟨visit.op, visit.ans, visit.trail, List.mem_map.mpr ⟨visit, present, rfl⟩, visit.sound, inside⟩

/-- The call performed the atomic operation for this upper one, finished or not. -/
inductive Did (thread : Thread sys) (op : P.Op) (event : Event L) : Prop where
  | visit {visit : Visit sys} (finished : visit ∈ thread.visits) (served : visit.op = op)
      (member : event ∈ visit.trail)
  | inside (busy : thread.Inside op trail) (member : event ∈ trail)

theorem low_of_did (did : thread.Did op event) : event ∈ thread.low := by
  cases did with
  | @visit visit finished served member =>
    have old : event ∈ trails thread.visits :=
      List.mem_flatten.mpr ⟨visit.trail, List.mem_map.mpr ⟨visit, finished, rfl⟩, member⟩
    unfold low
    split
    · exact old
    · exact List.mem_append_right _ old
  | inside busy member =>
    obtain ⟨next, rest, run, inner, stage⟩ := busy
    simp [low, stage, member]

theorem did_of_low (member : event ∈ thread.low) : ∃ op, thread.Did op event := by
  have finished (old : event ∈ trails thread.visits) : ∃ op, thread.Did op event := by
    obtain ⟨trail, listed, inside⟩ := List.mem_flatten.mp old
    obtain ⟨visit, present, rfl⟩ := List.mem_map.mp listed
    exact ⟨visit.op, .visit present rfl inside⟩
  unfold low at member
  split at member
  · exact finished member
  · rename_i op next trail rest run inner stage
    rcases List.mem_append.mp member with new | old
    · exact ⟨op, .inside ⟨next, rest, run, inner, stage⟩ new⟩
    · exact finished old

theorem Did.asked (did : thread.Did op event) :
    thread.Asked op ∧ ∃ trail rest, Runs (sys.impl op) trail rest ∧ event ∈ trail := by
  cases did with
  | @visit visit finished served member =>
    subst served
    exact ⟨asked_of_past (List.mem_map.mpr ⟨visit, finished, rfl⟩), _, _, visit.sound, member⟩
  | inside busy member =>
    obtain ⟨next, rest, run, inner, stage⟩ := busy
    exact ⟨.inl (by simp [current, stage]), _, _, inner, member⟩

theorem visited (member : ⟨op, ans⟩ ∈ thread.past) :
    ∃ trail, Runs (sys.impl op) trail (.done ans) ∧ ∀ event ∈ trail, thread.Did op event := by
  obtain ⟨visit, present, same⟩ := List.mem_map.mp member
  obtain ⟨named, given, trail, sound⟩ := visit
  cases same
  exact ⟨trail, sound, fun event inside => .visit present rfl inside⟩

variable {call : sys.Call} {value : sys.Result call} {σ : State sys}

theorem finished_ran (finished : σ.Finished name call value) :
    ∃ thread, σ.threads name = some thread ∧ thread.call = call ∧ Runs (sys.body call) thread.past (.done value) := by
  unfold State.Finished State.result at finished
  split at finished
  · rename_i called visits returned run found
    cases finished
    exact ⟨_, found, rfl, run⟩
  · cases finished

theorem finished_meets {post : History P → sys.Result call → Prop} (meets : (sys.body call).Meets allowed post [])
    (finished : σ.Finished name call value) :
    ∃ thread, σ.threads name = some thread ∧ thread.call = call ∧ post thread.past value := by
  obtain ⟨thread, found, same, run⟩ := finished_ran finished
  exact ⟨thread, found, same, meets.along run⟩

/-- The same call later on: it has seen and asked for at least as much. -/
structure Continues (thread later : Thread sys) : Prop where
  call : later.call = thread.call
  past : thread.past <:+ later.past
  low : thread.low <:+ later.low
  asked : ∀ op, thread.Asked op → later.Asked op

theorem Continues.refl : thread.Continues thread :=
  ⟨rfl, List.suffix_refl _, List.suffix_refl _, fun _ asked => asked⟩

end Thread

namespace State

section Fields

variable (σ : State sys) (name : Nat) (thread : Thread sys) (event : Event L) (later : sys.World)

@[simp] theorem put_self : (σ.put name thread).threads name = some thread := by simp [put]
@[simp] theorem advance_self : (σ.advance name thread event later).threads name = some thread := by
  simp [advance]

variable {name} (apart : other ≠ name)

include apart

theorem put_other : (σ.put name thread).threads other = σ.threads other := by simp [put, apart]
theorem advance_other : (σ.advance name thread event later).threads other = σ.threads other := by
  simp [advance, apart]

end Fields

variable {after σ : State sys} {thread : Thread sys}

/-- A move leaves a call alone unless it starts it or is one of its own. -/
theorem Moved.turn (moved : Moved σ move after) (name : Nat) :
    (after.threads name = σ.threads name ∧ ∀ choose, move ≠ .act name choose) ∨
      (∃ call, move = .start name call) ∨ ∃ choose, move = .act name choose := by
  have apart {acting : Nat} {choose : (op : L.Op) → sys.Choice op} (other : name ≠ acting) :
      ∀ choose', Move.act acting choose ≠ .act name choose' := by
    rintro _ ⟨⟩
    exact other rfl
  cases moved with
  | @start acting call idle =>
    by_cases self : name = acting
    · exact .inr (.inl ⟨call, by rw [self]⟩)
    · exact .inl ⟨put_other _ _ self, nofun⟩
  | @enter acting _ _ _ _ _ choose running | @leave acting _ _ _ _ _ _ _ _ choose running =>
    by_cases self : name = acting
    · exact .inr (.inr ⟨choose, by rw [self]⟩)
    · exact .inl ⟨put_other _ _ self, apart self⟩
  | @answer acting _ _ _ _ _ _ _ _ _ _ choose later running answered =>
    by_cases self : name = acting
    · exact .inr (.inr ⟨choose, by rw [self]⟩)
    · exact .inl ⟨advance_other _ _ _ _ self, apart self⟩
  | tick => exact .inl ⟨rfl, nofun⟩

/-- A started call goes on as the call it was and forgets nothing. -/
theorem Moved.continues (moved : Moved σ move after) (found : σ.threads name = some thread) :
    ∃ later, after.threads name = some later ∧ thread.Continues later := by
  rcases moved.turn name with ⟨same, _⟩ | ⟨call, rfl⟩ | ⟨choose, rfl⟩
  · exact ⟨thread, same.trans found, .refl⟩
  · cases moved with
    | start idle => cases idle.symm.trans found
  · cases moved with
    | enter running =>
      cases running.symm.trans found
      refine ⟨_, put_self .., rfl, List.suffix_refl _, List.suffix_refl _, fun asked was => ?_⟩
      rcases was with inside | seen
      · cases inside
      · exact .inr seen
    | @leave _ _ _ _ _ _ ans _ _ _ running =>
      cases running.symm.trans found
      refine ⟨_, put_self .., rfl, List.suffix_cons _ _, List.suffix_refl _, fun asked was => ?_⟩
      rcases was with inside | ⟨given, seen⟩
      · cases inside
        exact .inr ⟨ans, List.mem_cons_self ..⟩
      · exact .inr ⟨given, List.mem_cons_of_mem _ seen⟩
    | answer running answered =>
      cases running.symm.trans found
      exact ⟨_, advance_self .., rfl, List.suffix_refl _, List.suffix_cons _ _, fun asked was => was⟩

/-- The operation a call is inside of has just begun, or was left alone by the
move, or took one more step. -/
theorem Moved.inside (moved : Moved σ move after)
    (found : after.threads name = some thread) (inside : thread.Inside op trail) : trail = [] ∨
    (∃ before, σ.threads name = some before ∧ before.Inside op trail ∧ ∀ choose, move ≠ .act name choose) ∨
    ∃ before event earlier choose, trail = event :: earlier ∧ move = .act name choose ∧
      σ.threads name = some before ∧ before.Waits op earlier event.op ∧
      sys.respond name σ.world event.op (choose event.op) = some (event.ans, after.world) := by
  rcases moved.turn name with ⟨same, apart⟩ | ⟨call, rfl⟩ | ⟨choose, rfl⟩
  · exact .inr (.inl ⟨thread, same.symm.trans found, inside, apart⟩)
  · obtain ⟨next, rest, run, inner, stage⟩ := inside
    cases moved with
    | start idle =>
      cases (put_self ..).symm.trans found
      cases stage
  · obtain ⟨next, rest, run, inner, stage⟩ := inside
    cases moved with
    | enter running =>
      cases (put_self ..).symm.trans found
      cases stage
      exact .inl rfl
    | leave running =>
      cases (put_self ..).symm.trans found
      cases stage
    | answer running answered =>
      cases (advance_self ..).symm.trans found
      cases stage
      exact .inr (.inr ⟨_, _, _, choose, rfl, rfl, running, ⟨_, _, _, _, rfl⟩, answered⟩)

/-- Every atomic operation a call has performed was performed before the move,
or is the one that the move performed. -/
theorem Moved.did (moved : Moved σ move after) (found : after.threads name = some thread) (did : thread.Did op event) :
    (∃ before, σ.threads name = some before ∧ before.Did op event) ∨
    ∃ before trail choose, σ.threads name = some before ∧ before.Waits op trail event.op ∧
      move = .act name choose ∧
      sys.respond name σ.world event.op (choose event.op) = some (event.ans, after.world) := by
  cases did with
  | inside busy member =>
    rcases moved.inside found busy with rfl | ⟨before, present, was, _⟩ |
      ⟨before, newest, earlier, choose, rfl, rfl, present, waits, answered⟩
    · cases member
    · exact .inl ⟨before, present, .inside was member⟩
    · rcases List.mem_cons.mp member with rfl | old
      · exact .inr ⟨before, earlier, choose, present, waits, rfl, answered⟩
      · exact .inl ⟨before, present, .inside (Thread.inside_of_waits waits) old⟩
  | visit finished served member =>
    left
    rcases moved.turn name with ⟨same, _⟩ | ⟨call, rfl⟩ | ⟨choose, rfl⟩
    · exact ⟨thread, same.symm.trans found, .visit finished served member⟩
    · cases moved with
      | start idle =>
        cases (put_self ..).symm.trans found
        cases finished
    · cases moved with
      | enter running =>
        cases (put_self ..).symm.trans found
        exact ⟨_, running, .visit finished served member⟩
      | leave running =>
        cases (put_self ..).symm.trans found
        rcases List.mem_cons.mp finished with rfl | old
        · cases served
          exact ⟨_, running, .inside ⟨_, _, _, _, rfl⟩ member⟩
        · exact ⟨_, running, .visit old served member⟩
      | answer running answered =>
        cases (advance_self ..).symm.trans found
        exact ⟨_, running, .visit finished served member⟩

theorem Moved.observed (moved : Moved σ move after)
    (found : after.threads name = some thread) (member : event ∈ thread.low) :
    (∃ before, σ.threads name = some before ∧ event ∈ before.low) ∨
    ∃ before op trail choose, σ.threads name = some before ∧ before.Waits op trail event.op ∧
      move = .act name choose ∧
      sys.respond name σ.world event.op (choose event.op) = some (event.ans, after.world) := by
  obtain ⟨op, did⟩ := Thread.did_of_low member
  rcases moved.did found did with ⟨before, present, old⟩ | ⟨before, trail, choose, new⟩
  · exact .inl ⟨before, present, Thread.low_of_did old⟩
  · exact .inr ⟨before, op, trail, choose, new⟩

end State

/-- A condition on moves, judged in the state in which the move is made. -/
abbrev Guard (sys : System P L) := State sys → Move sys → Prop

def Guard.none : Guard sys := fun _ _ => True

/-- The states reached by runs whose moves all meet the guard. -/
inductive Reach (guard : Guard sys) (first : State sys) : State sys → Prop where
  | refl : Reach guard first first
  | next (earlier : Reach guard first σ) (permitted : guard σ move)
      (stepped : σ.step move = some after) : Reach guard first after

namespace Reach

variable {guard : Guard sys} {first middle last : State sys}

theorem trans (before : Reach guard first middle) (later : Reach guard middle last) : Reach guard first last := by
  induction later with
  | refl => exact before
  | next _ permitted stepped ih => exact .next ih permitted stepped

theorem weaken (imp : ∀ σ move, guard σ move → weaker σ move)
    (run : Reach guard first last) : Reach weaker first last := by
  induction run with
  | refl => exact .refl
  | next _ permitted stepped ih => exact .next ih (imp _ _ permitted) stepped

/-- A run of moves that pass a check of the guard. -/
theorem of_passes {check : State sys → Move sys → Bool} (permits : ∀ σ move, check σ move = true → guard σ move)
    (passes : first.passes check moves = true) : Reach guard first (first.follow moves) := by
  induction moves generalizing first with
  | nil => exact .refl
  | cons move rest ih =>
    obtain ⟨here, later⟩ := Bool.and_eq_true_iff.mp passes
    cases stepped : first.step move with
    | none => simpa [State.follow, stepped] using ih (by simpa [stepped] using later)
    | some next =>
      have onward := (Reach.next .refl (permits _ _ here) stepped).trans (ih (by simpa [stepped] using later))
      simpa [State.follow, stepped] using onward

theorem of_follow (moves : List (Move sys)) : Reach Guard.none first (first.follow moves) := by
  refine of_passes (fun _ _ _ => trivial) (?_ : first.passes (fun _ _ => true) moves = true)
  induction moves generalizing first with
  | nil => rfl
  | cons move rest ih => exact ih

/-- What the first state satisfies and every permitted move keeps holds wherever
a run leads; each move may be looked at as a part of the whole run. -/
theorem invariant_until (property : State sys → Prop) (initial : property first)
    (kept : ∀ σ move after, Reach guard first σ → Reach guard after last → property σ → guard σ move →
      State.Moved σ move after → property after)
    (run : Reach guard first last) : property last := by
  suffices all : ∀ σ, Reach guard first σ → Reach guard σ last → property σ from all last run .refl
  intro σ reached
  induction reached with
  | refl => exact fun _ => initial
  | next earlier permitted stepped ih =>
    intro onward
    exact kept _ _ _ earlier onward (ih ((Reach.next .refl permitted stepped).trans onward)) permitted
      (State.moved_of_step stepped)

theorem invariant (property : State sys → Prop) (initial : property first)
    (kept : ∀ σ move after, Reach guard first σ → property σ → guard σ move →
      State.Moved σ move after → property after)
    (run : Reach guard first last) : property last :=
  run.invariant_until property initial fun σ move after reached _ => kept σ move after reached

variable {thread : Thread sys}

/-- Everything the calls observe: a fact that holds when an atomic operation is
answered, and that no further move destroys, holds of every answer the watched
calls have received. -/
theorem facts (watched : Nat → Prop) (fact : State sys → Thread sys → P.Op → Event L → Prop)
    (initial : ∀ name, watched name → first.threads name = none)
    (grows : ∀ σ thread later op event, Thread.Continues thread later →
      fact σ thread op event → fact σ later op event)
    (established : ∀ σ name thread op trail choose event after, Reach guard first σ → watched name →
      guard σ (.act name choose) → State.Moved σ (.act name choose) after →
      σ.threads name = some thread → thread.Waits op trail event.op →
      sys.respond name σ.world event.op (choose event.op) = some (event.ans, after.world) →
      fact after thread op event)
    (kept : ∀ σ move after thread op event, Reach guard first σ → guard σ move →
      State.Moved σ move after → fact σ thread op event → fact after thread op event)
    (run : Reach guard first last) (found : last.threads name = some thread)
    (watch : watched name) : ∀ op event, thread.Did op event → fact last thread op event := by
  have all := run.invariant (fun σ => ∀ name thread, watched name → σ.threads name = some thread →
    ∀ op event, thread.Did op event → fact σ thread op event) ?_ ?_
  · exact all name thread watch found
  · intro name thread watch found
    rw [initial name watch] at found
    cases found
  · intro σ move after reached holds permitted moved name thread watch found op event did
    have grown {before : Thread sys} (present : σ.threads name = some before)
        (holds : fact after before op event) : fact after thread op event := by
      obtain ⟨later, arrived, onward⟩ := moved.continues present
      rw [found, Option.some.injEq] at arrived
      subst arrived
      exact grows _ before thread op event onward holds
    rcases moved.did found did with ⟨before, present, old⟩ |
      ⟨before, trail, choose, present, waits, rfl, answered⟩
    · exact grown present (kept σ move after before op event reached permitted moved
        (holds name before watch present op event old))
    · exact grown present (established σ name before op trail choose event after
        reached watch permitted moved present waits answered)

/-- What a call knows inside one operation: a fact about the steps it took there
that each further step of it, and every move of the others, keeps. -/
theorem inside (fact : State sys → Nat → P.Op → History L → Prop)
    (quiet : ∀ name, first.threads name = none) (begun : ∀ σ name op, fact σ name op [])
    (extended : ∀ σ after name thread op trail event choose, Reach guard first σ →
      State.Moved σ (.act name choose) after → σ.threads name = some thread → thread.Waits op trail event.op →
      sys.respond name σ.world event.op (choose event.op) = some (event.ans, after.world) →
      fact σ name op trail → fact after name op (event :: trail))
    (kept : ∀ σ move after name op trail, Reach guard first σ → State.Moved σ move after →
      (∀ choose, move ≠ .act name choose) → fact σ name op trail → fact after name op trail)
    (run : Reach guard first last) (found : last.threads name = some thread)
    (inside : thread.Inside op trail) : fact last name op trail := by
  have all := run.invariant (fun σ => ∀ name thread op trail, σ.threads name = some thread →
    thread.Inside op trail → fact σ name op trail) ?_ ?_
  · exact all name thread op trail found inside
  · intro name thread op trail found
    rw [quiet name] at found
    cases found
  · intro σ move after reached holds _ moved name thread op trail found inside
    rcases moved.inside found inside with rfl | ⟨before, present, was, apart⟩ |
      ⟨before, event, earlier, choose, rfl, rfl, present, waits, answered⟩
    · exact begun after name op
    · exact kept σ move after name op trail reached moved apart (holds name before op trail present was)
    · exact extended σ after name before op earlier event choose reached moved present waits answered
        (holds name before op earlier present (Thread.inside_of_waits waits))

end Reach

end Gofi.Concurrent
