import Gofi.Iam.Spec
import Gofi.Iam.World

/-! What holds in every run whatever the store is: the clock never goes back, a
UUID is drawn once, and so a session id is saved by one call only. -/

namespace Gofi.Iam

open Gofi.Concurrent Gofi.Go

namespace World

variable {Store : Type} {world later : World Store}

theorem outside_now (ans : Instant) {given : Instant} (answered : world.outside .now ans = some (given, later)) :
    given = world.clock ∧ later = world := by
  simp only [outside, Option.some.injEq, Prod.mk.injEq] at answered
  exact ⟨answered.1.symm, answered.2.symm⟩

theorem outside_newUUID (id : Uuid) {given : Uuid} (answered : world.outside .newUUID id = some (given, later)) :
    given.text ∉ world.issued ∧ later = { world with issued := given.text :: world.issued } := by
  simp only [outside] at answered
  split at answered <;> cases answered
  rename_i fresh
  exact ⟨fresh, rfl⟩

theorem outside_frame (answered : world.outside op ans = some (given, later)) :
    later.store = world.store ∧ later.clock = world.clock ∧ world.issued ⊆ later.issued := by
  by_cases drawn : op = .newUUID
  · subst drawn
    obtain ⟨_, rfl⟩ := outside_newUUID _ answered
    exact ⟨rfl, rfl, List.subset_cons_self ..⟩
  · have same : later = world := by
      cases op <;> simp_all [outside]
    rw [same]
    exact ⟨rfl, rfl, List.Subset.refl _⟩

end World

namespace Backend

variable {b : Backend} {a : LocalAuth}

theorem answer_inr (op : b.atoms.Op) {luck : b.Luck op} {given : b.atoms.Ans op}
    (answered : b.answer name world (.inr op) luck = some (given, later)) :
    ∃ store, b.respond name world.clock world.store op luck = some (given, store) ∧
      later = { world with store := store } := by
  obtain ⟨⟨ans, store⟩, responded, same⟩ := Option.map_eq_some_iff.mp answered
  cases same
  exact ⟨store, responded, rfl⟩

inductive Effect (σ : State (b.system a)) (move : Move (b.system a)) (after : State (b.system a)) : Prop where
  | still (store : after.store = σ.store) (clock : σ.clock.time ≤ after.clock.time)
      (issued : σ.issued ⊆ after.issued)
  | acted {thread later : Thread (b.system a)} {luck : b.Luck atom} {given : b.atoms.Ans atom}
      (running : σ.threads name = some thread) (waits : thread.Waits op trail (.inr atom))
      (responded : b.respond name σ.clock σ.store atom luck = some (given, after.store))
      (clock : after.clock = σ.clock) (issued : after.issued = σ.issued)
      (arrived : after.threads name = some later) (logged : Script.did b.atoms atom given ∈ later.low)
      (scheduled : ∃ choose, move = .act name choose)
  | chore {work : b.Chore} (did : b.chore σ.clock σ.store work = some after.store)
      (clock : after.clock = σ.clock) (issued : after.issued = σ.issued)

variable {after σ : State (b.system a)}

theorem effect (moved : State.Moved σ move after) : Effect σ move after := by
  cases moved with
  | start | enter | leave => exact .still rfl (le_refl _) (List.Subset.refl _)
  | @answer name call visits op next trail atom resume run inner ans choose later running answered =>
    cases atom with
    | inl outer =>
      obtain ⟨store, clock, issued⟩ := World.outside_frame answered
      exact .still store (le_of_eq (congrArg Instant.time clock.symm)) issued
    | inr atom =>
      obtain ⟨store, responded, rfl⟩ := answer_inr _ answered
      exact .acted running ⟨_, _, _, _, rfl⟩ responded rfl rfl (State.advance_self ..) (List.mem_cons_self ..)
        ⟨choose, rfl⟩
  | @tick tick later moved =>
    cases tick with
    | wait clock =>
      replace moved : (if σ.clock.time ≤ clock.time then
        some (World.mk clock σ.issued σ.store) else none) = some later := moved
      split at moved <;> cases moved
      rename_i passed
      exact .still rfl passed (List.Subset.refl _)
    | chore chore =>
      obtain ⟨store, did, rfl⟩ := Option.map_eq_some_iff.mp moved
      exact .chore did rfl rfl

theorem moved_frame (moved : State.Moved σ move after) : σ.clock.time ≤ after.clock.time ∧
    σ.issued ⊆ after.issued := by
  cases effect moved with
  | still _ clock issued => exact ⟨clock, issued⟩
  | acted _ _ _ clock issued | chore _ clock issued => rw [clock, issued]; exact ⟨le_refl _, List.Subset.refl _⟩

/-- The store leaves the clock and the random ids to the machine. -/
structure Plain (b : Backend) : Prop where
  now : b.impl .now = Script.outside b.atoms .now
  newUUID : b.impl .newUUID = Script.outside b.atoms .newUUID

theorem outside_runs {atoms : Sig} {trail : History (ports.sum atoms)}
    (run : Runs (Script.outside atoms op) trail (.done ans)) : Script.told atoms op ans ∈ trail := by
  have meets : (Script.outside atoms op).Meets (fun _ _ => True)
      (fun past value => Script.told atoms op value ∈ past) [] :=
    ⟨trivial, fun _ => List.mem_cons_self ..⟩
  exact meets.along run

variable {first last : State (b.system a)} {guard : Guard (b.system a)}

private theorem clock_le (run : Reach guard first last) : first.clock.time ≤ last.clock.time := by
  refine run.invariant (fun σ => first.clock.time ≤ σ.clock.time) (le_refl _) ?_
  intro σ move after _ holds _ moved
  exact holds.trans (moved_frame moved).1

private theorem issued_subset (run : Reach guard first last) : first.issued ⊆ last.issued := by
  refine run.invariant (fun σ => first.issued ⊆ σ.issued) (List.Subset.refl _) ?_
  intro σ move after _ holds _ moved
  exact List.Subset.trans holds (moved_frame moved).2

theorem told_between (run : Reach guard first last) (started : first.threads name = none)
    (found : last.threads name = some thread) {clock : Instant}
    (told : thread.Did op (Script.told b.atoms .now clock)) :
    first.clock.time ≤ clock.time ∧ clock.time ≤ last.clock.time := by
  refine run.facts (fun name => first.threads name = none)
    (fun σ _ _ event => ∀ t : Instant, event = Script.told b.atoms .now t →
      first.clock.time ≤ t.time ∧ t.time ≤ σ.clock.time)
    (fun _ absent => absent) (fun _ _ _ _ _ _ fact => fact) ?_ ?_ found started _ _ told clock rfl
  · rintro σ other thread op trail choose event after reached - - moved - - answered t rfl
    obtain ⟨same, _⟩ := World.outside_now (choose (.inl .now)) answered
    cases same
    exact ⟨clock_le reached, (moved_frame moved).1⟩
  · rintro σ move after thread op event - - moved fact t rfl
    obtain ⟨since, until_⟩ := fact t rfl
    exact ⟨since, until_.trans (moved_frame moved).1⟩

theorem read_between (plain : Plain b) (run : Reach guard first last)
    (started : first.threads name = none) (found : last.threads name = some thread)
    (read : Answered.now clock ∈ thread.past) : first.clock.time ≤ clock.time ∧ clock.time ≤ last.clock.time := by
  obtain ⟨trail, sound, inside⟩ := Thread.visited read
  exact told_between run started found (inside _ (outside_runs (by rw [← plain.now]; exact sound)))

/-- A drawn id is new, stays drawn, and belongs to the call that drew it. -/
structure Owned (first σ : State (b.system a)) : Prop where
  drawn : ∀ {name thread id}, σ.threads name = some thread →
    Script.told b.atoms .newUUID id ∈ thread.low → id.text ∈ σ.issued ∧ id.text ∉ first.issued
  single : ∀ {left right one other} {oneID otherID : Uuid}, σ.threads left = some one →
    σ.threads right = some other → Script.told b.atoms .newUUID oneID ∈ one.low →
    Script.told b.atoms .newUUID otherID ∈ other.low → oneID.text = otherID.text → left = right

theorem owned (quiet : ∀ name, first.threads name = none) (run : Reach guard first last) : Owned first last := by
  refine run.invariant (Owned first) ⟨?_, ?_⟩ ?_
  · intro name thread id found
    rw [quiet name] at found
    cases found
  · intro left right one other oneID otherID found
    rw [quiet left] at found
    cases found
  · intro σ move after reached holds permitted moved
    have kept := (moved_frame moved).2
    refine ⟨?_, ?_⟩
    · intro name thread id found member
      rcases moved.observed found member with ⟨before, present, old⟩ |
        ⟨before, op, trail, choose, present, waits, rfl, answered⟩
      · obtain ⟨issued, new⟩ := holds.drawn present old
        exact ⟨kept issued, new⟩
      · obtain ⟨fresh, later⟩ := World.outside_newUUID (choose (.inl .newUUID)) answered
        refine ⟨?_, fun known => fresh (issued_subset reached known)⟩
        rw [State.issued, later]
        exact List.mem_cons_self ..
    · intro left right one other oneID otherID oneFound otherFound oneMember otherMember same
      rcases moved.observed oneFound oneMember with ⟨oneBefore, onePresent, oneOld⟩ |
          ⟨oneBefore, op, trail, choose, onePresent, waits, rfl, answered⟩ <;>
        rcases moved.observed otherFound otherMember with ⟨otherBefore, otherPresent, otherOld⟩ |
          ⟨otherBefore, op', trail', choose', otherPresent, waits', moving, answered'⟩
      · exact holds.single onePresent otherPresent oneOld otherOld same
      · subst moving
        obtain ⟨fresh, _⟩ := World.outside_newUUID (choose' (.inl .newUUID)) answered'
        exact absurd (same ▸ (holds.drawn onePresent oneOld).1) fresh
      · obtain ⟨fresh, _⟩ := World.outside_newUUID (choose (.inl .newUUID)) answered
        exact absurd (same ▸ (holds.drawn otherPresent otherOld).1) fresh
      · cases moving
        rfl

variable {thread : Thread (b.system a)}

theorem saved_id (plain : Plain b) (asked : thread.Asked (.save s)) :
    ∃ id : Uuid, Script.told b.atoms .newUUID id ∈ thread.low ∧ s.id = id.text := by
  obtain ⟨earlier, suffix, issued, _⟩ := Thread.asked_allowed (body_meets a thread.call) asked
  obtain ⟨id, drawn, same⟩ := issued.id
  obtain ⟨trail, sound, inside⟩ := Thread.visited (suffix.subset drawn)
  exact ⟨id, Thread.low_of_did (inside _ (outside_runs (by rw [← plain.newUUID]; exact sound))), same⟩

theorem save_once (left : thread.Asked (.save s)) (right : thread.Asked (.save s')) : s = s' := by
  have ops : PortOp.save s = PortOp.save s' :=
    Thread.asked_once (fun op : PortOp => ∃ s, op = .save s) (by
      rintro past op licensed ⟨s, rfl⟩ ⟨other, ans⟩ member ⟨s', named⟩
      cases named
      exact licensed.2 s' ans member) (body_meets a thread.call) left right ⟨s, rfl⟩ ⟨s', rfl⟩
  injection ops

theorem got_once {id id' : Str}
    (left : Answered.get id (.ok (some s)) ∈ thread.past) (right : Answered.get id' (.ok (some s')) ∈ thread.past) :
    s = s' := by
  have events := Thread.past_once (fun op : PortOp => ∃ id, op = .get id) (by
    rintro past op licensed ⟨id, rfl⟩ ⟨other, ans⟩ member ⟨id', named⟩
    cases named
    exact licensed.2 id' ans member) (body_meets a thread.call) left right ⟨id, rfl⟩ ⟨id', rfl⟩
  cases events
  rfl

theorem save_unique (plain : Plain b) (quiet : ∀ name, first.threads name = none)
    (run : Reach guard first last) (leftFound : last.threads left = some one)
    (rightFound : last.threads right = some other) (leftAsked : one.Asked (.save s))
    (rightAsked : other.Asked (.save s')) (same : s.id = s'.id) : left = right ∧ s = s' := by
  obtain ⟨oneID, oneDrawn, oneSame⟩ := saved_id plain leftAsked
  obtain ⟨otherID, otherDrawn, otherSame⟩ := saved_id plain rightAsked
  have together : left = right := (owned quiet run).single leftFound rightFound oneDrawn otherDrawn
    (oneSame.symm.trans (same.trans otherSame))
  subst together
  rw [leftFound, Option.some.injEq] at rightFound
  subst rightFound
  exact ⟨rfl, save_once leftAsked rightAsked⟩

theorem save_new (plain : Plain b) (quiet : ∀ name, first.threads name = none)
    (run : Reach guard first last) (found : last.threads name = some thread)
    (asked : thread.Asked (.save s)) : s.id ∉ first.issued := by
  obtain ⟨id, drawn, same⟩ := saved_id plain asked
  rw [same]
  exact ((owned quiet run).drawn found drawn).2

end Backend

end Gofi.Iam
