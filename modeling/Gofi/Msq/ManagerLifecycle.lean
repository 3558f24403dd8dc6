import Gofi.Msq.Manager
import Mathlib.Data.List.Flatten

/-! `core/manager.go`: what the manager keeps of its entries and consumers, whatever
the interleaving of `Register`, `Start`, the supervisors and `Close`. -/

namespace Gofi.Msq.Core

open Gofi.Concurrent

namespace Manager

/-- The entries taken by a call of `start`, those supervised included. -/
def claimed (m : Manager) : List Nat := m.calls.flatMap StartCall.entries ++ m.supervisors.flatMap ([·.entry])

def held (m : Manager) : List (Nat × Nat) := m.calls.flatMap StartCall.held ++ m.supervisors.flatMap Supervisor.held

def accounted (m : Manager) : List Nat := m.held.map Prod.snd ++ m.closes

variable {m : Manager}

theorem done_step (stepped : m.step move = some after) : after.done = true ↔ m.done = true ∨ move = .drains := by
  cases move <;> simp only [step] at stepped <;> (repeat' split at stepped) <;> cases stepped <;>
    simp [continues, supervises]

/-- Each entry is taken once, each consumer created is either open in one place or
was closed once, and when the drain is over no supervisor runs. -/
structure Sound (m : Manager) : Prop where
  claimed : ∀ entry, m.claimed.count entry ≤ if entry < m.started then 1 else 0
  started : m.started ≤ m.entries.length
  consumers : ∀ consumer, m.accounted.count consumer = if consumer < m.created then 1 else 0
  canceled : m.canceled = true → m.closed = true
  done : m.done = true → m.canceled = true ∧ ∀ supervisor ∈ m.supervisors, supervisor.stage = .ended

theorem Sound.new : Manager.new.Sound := by
  constructor <;> simp [Manager.new, Manager.claimed, accounted, held]

private theorem refusedStage_entries (entry value : Nat) (consumer : Option Nat) :
    (refusedStage entry consumer).entries.count value ≤ [entry].count value := by
  cases consumer <;> simp [refusedStage, StartStage.entries]

private theorem refusedStage_not_creating (entry other : Nat) (consumer : Option Nat) :
    refusedStage entry consumer ≠ .creating other := by
  cases consumer <;> simp [refusedStage]

@[simp] theorem refusedStage_held (entry : Nat) (consumer : Option Nat) :
    (refusedStage entry consumer).held = (StartStage.offered entry consumer).held := by
  cases consumer <;> rfl

@[simp] theorem firstStage_held (entry : Nat) (consumer : Option Nat) :
    Supervisor.held ⟨entry, firstStage consumer⟩ = (StartStage.offered entry consumer).held := by
  cases consumer <;> rfl

private theorem claimed_step (stepped : m.step move = some after) (entry : Nat) : after.claimed.count entry ≤
      m.claimed.count entry + if m.started ≤ entry ∧ entry < after.started then 1 else 0 := by
  cases move with
  | starts =>
    simp only [step] at stepped
    split at stepped <;> cases stepped
    · lia
    · have fresh : (List.range' m.started (m.entries.length - m.started)).count entry =
          if m.started ≤ entry ∧ entry < m.entries.length then 1 else 0 := by
        rw [(List.nodup_range' ..).count]
        simp only [List.mem_range'_1]
        grind
      simp only [claimed, List.flatMap_cons, StartCall.entries, StartStage.entries, List.nil_append, List.count_append,
        fresh]
      lia
  | visits place | answers place | decides place | closesOffered place =>
    simp only [step] at stepped
    (repeat' split at stepped) <;> cases stepped <;>
      simp only [claimed, continues, List.count_append, List.flatMap_cons, count_flatMap ‹m.calls[place]? = some _›,
        StartCall.entries] <;> grind [refusedStage_entries, StartStage.entries]
  | sleeps place | interrupted place | recreates place | consumes place | stops place | closesConsumer place
  | checks place =>
    simp only [step] at stepped
    (repeat' split at stepped) <;> cases stepped <;>
      simp only [claimed, supervises, List.count_append, List.flatMap_cons,
        count_flatMap ‹m.supervisors[place]? = some _›] <;> lia
  | registers topic | locks | cancels | drains =>
    simp only [step] at stepped
    (repeat' split at stepped) <;> cases stepped
    all_goals exact Nat.le_add_right ..

private theorem accounted_step (stepped : m.step move = some after) (consumer : Nat) : after.accounted.count consumer =
      m.accounted.count consumer + if m.created ≤ consumer ∧ consumer < after.created then 1 else 0 := by
  cases move with
  | visits place | answers place | decides place | closesOffered place =>
    simp only [step] at stepped
    (repeat' split at stepped) <;> cases stepped <;>
      simp only [accounted, held, continues, List.count_append, List.map_append, List.map_flatMap, List.flatMap_cons,
        count_flatMap ‹m.calls[place]? = some _›, StartCall.held, refusedStage_held, firstStage_held] <;>
      grind [StartStage.held]
  | sleeps place | interrupted place | recreates place | consumes place | stops place | closesConsumer place
  | checks place =>
    simp only [step] at stepped
    (repeat' split at stepped) <;> cases stepped <;>
      simp only [accounted, held, supervises, List.count_append, List.map_append, List.map_flatMap, List.flatMap_cons,
        count_flatMap ‹m.supervisors[place]? = some _›, Supervisor.held] <;> grind
  | registers topic | starts | locks | cancels | drains =>
    simp only [step] at stepped
    (repeat' split at stepped) <;> cases stepped <;> simp [accounted, held, StartCall.held, StartStage.held]

theorem started_step (bounded : m.started ≤ m.entries.length) (stepped : m.step move = some after) :
    m.started ≤ after.started ∧ after.started ≤ after.entries.length ∧ m.created ≤ after.created := by
  cases move <;> simp only [step] at stepped <;> (repeat' split at stepped) <;> cases stepped <;>
    simp [continues, supervises] <;> lia

theorem drained_step (closed : m.closed = true)
    (returned : ∀ supervisor ∈ m.supervisors, supervisor.stage = .ended) (stepped : m.step move = some after) :
    after.supervisors = m.supervisors ∧ after.consumed = m.consumed ∧ (m.canceled = true → after.canceled = true) := by
  have absent (place : Nat) (supervisor : Supervisor) (placed : m.supervisors[place]? = some supervisor) :
      supervisor.stage = .ended := returned supervisor (List.mem_of_getElem? placed)
  cases move <;> simp only [step] at stepped <;> (repeat' split at stepped) <;> cases stepped <;>
    grind [continues]

theorem Sound.step (sound : Sound m) (stepped : m.step move = some after) : Sound after where
  claimed entry := by
    have taken := claimed_step stepped entry
    have before := sound.claimed entry
    have grows := started_step sound.started stepped
    grind
  started := (started_step sound.started stepped).2.1
  consumers consumer := by
    have counted := accounted_step stepped consumer
    have before := sound.consumers consumer
    have grows := started_step sound.started stepped
    grind
  canceled := by
    have flags := sound.canceled
    cases move <;> simp only [Manager.step] at stepped <;> (repeat' split at stepped) <;> cases stepped <;>
      first | exact flags | exact fun _ => rfl | exact fun _ => ‹_›
  done stopped := by
    rcases (done_step stepped).mp stopped with before | rfl
    · obtain ⟨canceled, returned⟩ := sound.done before
      obtain ⟨same, _, still⟩ := drained_step (sound.canceled canceled) returned stepped
      exact ⟨still canceled, same ▸ returned⟩
    · simp only [Manager.step] at stepped
      split at stepped <;> cases stepped
      assumption

theorem Sound.run (run : feed Manager.step Manager.new moves = some m) : Sound m :=
  feed_invariant Sound (fun _ _ _ sound stepped => sound.step stepped) Sound.new run

def Unfinished (m : Manager) (call : StartCall) : Prop :=
  (∃ entry, call.stage = .creating entry) ∨ ∃ entry ∈ call.pending, m.entries[entry]? = some true

def Settled (m : Manager) : Prop := ∀ call ∈ m.calls, ¬ m.Unfinished call

theorem Sound.pending_registered (sound : Sound m) (present : call ∈ m.calls)
    (pending : entry ∈ call.pending) : entry < m.entries.length := by
  have taken : entry ∈ m.claimed := by
    refine List.mem_append_left _ (List.mem_flatMap.mpr ⟨call, present, ?_⟩)
    exact List.mem_append_right _ pending
  have counted := sound.claimed entry
  have started := sound.started
  grind

theorem Settled.step (sound : Sound m) (stopped : m.done = true) (settled : Settled m)
    (stepped : m.step move = some after) : Settled after ∧ after.created = m.created := by
  have closed := sound.canceled (sound.done stopped).1
  have absent (place : Nat) (supervisor : Supervisor) (placed : m.supervisors[place]? = some supervisor) :
      supervisor.stage = .ended := (sound.done stopped).2 supervisor (List.mem_of_getElem? placed)
  have others (place : Nat) (call : StartCall) (present : call ∈ m.calls.eraseIdx place) : ¬ m.Unfinished call :=
    settled call (List.mem_of_mem_eraseIdx present)
  have finished (place : Nat) (call : StartCall) (placed : m.calls[place]? = some call) : ¬ m.Unfinished call :=
    settled call (List.mem_of_getElem? placed)
  cases move with
  | registers topic =>
    cases stepped
    refine ⟨fun call present unfinished => settled call present ?_, rfl⟩
    refine unfinished.imp_right fun ⟨entry, pending, topic⟩ => ⟨entry, pending, ?_⟩
    rwa [List.getElem?_append_left (sound.pending_registered present pending)] at topic
  | visits place | answers place | decides place | closesOffered place =>
    simp only [Manager.step] at stepped
    (repeat' split at stepped) <;> cases stepped <;>
      grind [Settled, Unfinished, continues, refusedStage_not_creating]
  | _ =>
    simp only [Manager.step] at stepped
    (repeat' split at stepped) <;> cases stepped <;> grind [Settled, Unfinished]

def Creates (m : Manager) : Prop := ∃ onward last, feed step m onward = some last ∧ m.created < last.created

theorem Creates.later (move : Move) (stepped : m.step move = some next) (same : next.created = m.created)
    (creates : Creates next) : Creates m := by
  obtain ⟨onward, last, run, more⟩ := creates
  exact ⟨move :: onward, last, feed_cons.mpr ⟨next, stepped, run⟩, same ▸ more⟩

theorem Creates.creating (place : Nat) (placed : m.calls[place]? = some ⟨.creating entry, pending⟩) : Creates m := by
  refine ⟨[.answers place true],
    { m.continues place ⟨.offered entry (some m.created), pending⟩ with created := m.created + 1 }, ?_,
      Nat.lt_succ_self _⟩
  simp only [feed, step, placed]
  rfl

theorem Creates.looping (place : Nat) {pending : List Nat}
    (placed : m.calls[place]? = some ⟨.looping, pending⟩) (left : ∃ entry ∈ pending, m.entries[entry]? = some true) :
    Creates m := by
  induction pending generalizing m place with
  | nil => simp at left
  | cons entry rest ih =>
    have visited : m.step (.visits place) = some (m.continues place
        ⟨if m.entries[entry]? = some true then .creating entry else .looping, rest⟩) := by
      rw [step, placed]
    refine .later _ visited rfl ?_
    by_cases topic : m.entries[entry]? = some true
    · rw [if_pos topic]
      exact .creating 0 rfl
    · rw [if_neg topic]
      refine ih 0 rfl ?_
      simpa [continues, topic] using left

theorem Creates.of_unfinished {place : Nat} (closed : m.closed = true)
    (placed : m.calls[place]? = some call) (unfinished : m.Unfinished call) : Creates m := by
  obtain ⟨stage, pending⟩ := call
  cases stage with
  | creating entry => exact .creating place placed
  | looping => exact .looping place placed (by simpa [Unfinished] using unfinished)
  | closing entry consumer =>
    have closes : m.step (.closesOffered place) =
        some { m.continues place ⟨.looping, pending⟩ with closes := consumer :: m.closes } := by
      rw [step, placed]
    refine .later _ closes rfl ?_
    exact .looping 0 rfl (by simpa [Unfinished, continues] using unfinished)
  | offered entry consumer =>
    have decides : m.step (.decides place) = some (m.continues place ⟨refusedStage entry consumer, pending⟩) := by
      simp only [step, placed, closed, if_true]
    refine .later _ decides rfl ?_
    cases consumer with
    | none => exact .looping 0 rfl (by simpa [Unfinished, continues] using unfinished)
    | some consumer =>
      refine .later (.closesOffered 0) rfl rfl ?_
      exact .looping 0 rfl (by simpa [Unfinished, continues] using unfinished)

theorem Sound.after_drain (sound : Sound m) (stopped : m.done = true) (run : feed Manager.step m onward = some last) :
    last.done = true ∧ Sound last ∧ last.consumed = m.consumed := by
  refine feed_invariant (fun last => last.done = true ∧ Sound last ∧ last.consumed = m.consumed) ?_
    ⟨stopped, sound, rfl⟩ run
  intro state move next ⟨stopped, sound, same⟩ stepped
  obtain ⟨canceled, returned⟩ := sound.done stopped
  have kept := (drained_step (sound.canceled canceled) returned stepped).2.1
  exact ⟨(done_step stepped).mpr (.inl stopped), sound.step stepped, kept.trans same⟩

theorem Sound.creates_iff (sound : Sound m) (stopped : m.done = true) :
    (∀ onward last, feed Manager.step m onward = some last → last.created = m.created) ↔ m.Settled := by
  constructor
  · intro never call present unfinished
    obtain ⟨place, placed⟩ := List.mem_iff_getElem?.mp present
    have closed := sound.canceled (sound.done stopped).1
    obtain ⟨onward, last, run, more⟩ := Creates.of_unfinished closed placed unfinished
    have same := never onward last run
    lia
  · intro settled onward last run
    refine (feed_invariant (fun last => Sound last ∧ last.done = true ∧ Settled last ∧ last.created = m.created) ?_
      ⟨sound, stopped, settled, rfl⟩ run).2.2.2
    intro state move next ⟨sound, stopped, settled, same⟩ stepped
    obtain ⟨still, none⟩ := settled.step sound stopped stepped
    exact ⟨sound.step stepped, (done_step stepped).mpr (.inl stopped), still, none.trans same⟩

private theorem held_claimed (m : Manager) : (m.held.map Prod.fst).Sublist m.claimed := by
  rw [held, claimed, List.map_append, List.map_flatMap, List.map_flatMap]
  refine .append (.flatMap_right _ fun call _ => ?_) (.flatMap_right _ fun supervisor _ => ?_)
  · refine .trans ?_ (List.sublist_append_left ..)
    rw [StartCall.held]
    cases call.stage with
    | offered entry consumer => cases consumer <;> simp [StartStage.held, StartStage.entries]
    | _ => simp [StartStage.held, StartStage.entries]
  · rw [Supervisor.held]
    split <;> simp

def opened (m : Manager) (entry : Nat) : List (Nat × Nat) := m.held.filter (·.1 = entry)

theorem Sound.opened (sound : Sound m) (entry : Nat) : (m.opened entry).length ≤ 1 := by
  have counted : (m.opened entry).length = (m.held.map Prod.fst).count entry := by
    rw [Manager.opened, ← List.countP_eq_length_filter, List.count_eq_countP, List.countP_map]
    rfl
  have claimed := (held_claimed m).count_le entry
  have once := sound.claimed entry
  grind

theorem Sound.supervised (sound : Sound m) (entry : Nat) : (m.supervisors.map Supervisor.entry).count entry ≤ 1 := by
  have once := sound.claimed entry
  rw [Manager.claimed, List.count_append, ← List.map_eq_flatMap] at once
  grind

theorem Sound.perm (sound : Sound m) : m.accounted.Perm (List.range m.created) := by
  refine List.perm_iff_count.mpr fun consumer => ?_
  rw [sound.consumers, List.nodup_range.count]
  simp only [List.mem_range]

theorem Sound.drained (sound : Sound m) (stopped : m.done = true) (calls : m.calls = []) :
    m.closes.Perm (List.range m.created) := by
  have none_held : m.held = [] := by
    rw [held, calls, List.flatMap_nil, List.nil_append, List.flatMap_eq_nil_iff]
    intro supervisor present
    rw [Supervisor.held, (sound.done stopped).2 supervisor present]
  have all := sound.perm
  rwa [accounted, none_held, List.map_nil, List.nil_append] at all

end Manager

/-- Whatever the goroutines do, an entry is supervised at most once and has at most
one consumer open; each consumer created is either open in one place or was closed
once, and once the drain is over and the calls of `start` have returned each was
closed exactly once. After a `Close` that waited for the drain nothing is consumed,
then or later. A consumer is created later exactly if a call of `start` had one to
create when the drain ended. -/
theorem manager_owns_its_consumers (moves : List Manager.Move) (run : feed Manager.step Manager.new moves = some m) :
    (∀ entry, (m.supervisors.map Supervisor.entry).count entry ≤ 1 ∧ (m.opened entry).length ≤ 1) ∧
    (m.held.map Prod.snd ++ m.closes).Perm (List.range m.created) ∧
    (m.done = true → m.calls = [] → m.closes.Perm (List.range m.created)) ∧
    (m.done = true → ∀ onward last, feed Manager.step m onward = some last →
      last.consumed = m.consumed ∧ ∀ supervisor ∈ last.supervisors, supervisor.stage = .ended) ∧
    (m.done = true →
      ((∀ onward last, feed Manager.step m onward = some last → last.created = m.created) ↔ m.Settled)) := by
  have sound := Manager.Sound.run run
  refine ⟨fun entry => ⟨sound.supervised entry, sound.opened entry⟩, sound.perm, sound.drained, ?_, sound.creates_iff⟩
  intro stopped onward last later
  obtain ⟨still, valid, same⟩ := sound.after_drain stopped later
  exact ⟨same, (valid.done still).2⟩

def Sample.lifecycle : List Manager.Move :=
  [.registers true, .starts, .visits 0, .answers 0 true, .decides 0, .visits 0, .consumes 0, .stops 0,
    .closesConsumer 0, .locks, .cancels, .checks 0, .drains]

theorem sample_lifecycle_is_closed : ∃ m, feed Manager.step Manager.new Sample.lifecycle = some m ∧ m.done = true ∧
    m.consumed = [0] ∧ m.closes.Perm (List.range 1) :=
  ⟨_, rfl, rfl, rfl, (manager_owns_its_consumers Sample.lifecycle rfl).2.2.1 rfl rfl⟩

/-- `Start` has taken an entry when `Close` locks, drains and returns: the consumer
is created afterwards. -/
def Sample.lateStart : List Manager.Move := [.registers true, .starts, .visits 0, .locks, .cancels, .drains]

theorem consumer_is_created_after_close : ∃ m last, feed Manager.step Manager.new Sample.lateStart = some m ∧
    m.done = true ∧ m.created = 0 ∧ feed Manager.step m [.answers 0 true] = some last ∧ last.created = 1 :=
  ⟨_, _, rfl, rfl, rfl, rfl, rfl⟩

end Gofi.Msq.Core
