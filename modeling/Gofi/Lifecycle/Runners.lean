import Gofi.Lifecycle.Shutdown
import Mathlib.Data.Finset.Card
import Mathlib.Data.Finset.Range

/-! What `ListenAndServe` and the calls of `Shutdown` know of each other and of the
runners: who may close the resources, and which runners have returned. -/

namespace Gofi.Lifecycle

open Gofi.Concurrent

def ShutdownCall.entered : ShutdownCall → Bool
  | uncalled | called => false
  | _ => true

def Listening.ending : Listening → Bool
  | closing _ _ | returned _ => true
  | _ => false

def Listening.running : Listening → Bool
  | uncalled | called | refused | spawning _ => false
  | _ => true

namespace Service

/-- Who may close the resources: `ListenAndServe` when it got past its critical section
before the first `Shutdown`, the calls of `Shutdown` otherwise. -/
structure Gate (m : Service) : Prop where
  locked : m.stop = m.listening.locked
  entered : ∀ call, (m.calls call).entered = true → m.closed = true
  direct : ∀ call closing, m.calls call = .closing closing → m.stop = false
  returned : ∀ call, m.calls call = .returned true → m.stop = false ∨ ∃ failed, m.listening = .returned failed

variable {m : Service}

theorem Gate.shut (gate : Gate m) (stage : m.calls call = reached) (past : reached.entered = true) :
    m.closed = true := gate.entered call (stage ▸ past)

variable {after : Service}

theorem Gate.of_listening (gate : Gate m) (calls : after.calls = m.calls)
    (closed : after.closed = m.closed) (stop : after.stop = m.stop)
    (locked : m.listening.locked = after.listening.locked)
    (ended : ∀ failed, m.listening = .returned failed → after.listening = .returned failed) : Gate after where
  locked := stop.trans (gate.locked.trans locked)
  entered call past := closed.trans (gate.entered call (calls ▸ past))
  direct call closing found := stop.trans (gate.direct call closing (calls ▸ found))
  returned call found := by
    rw [stop]
    refine (gate.returned call (calls ▸ found)).imp_right fun ⟨failed, spent⟩ => ?_
    exact ⟨failed, ended failed spent⟩

theorem Gate.of_call (gate : Gate m) (listening : after.listening = m.listening)
    (stop : after.stop = m.stop) (closed : m.closed = true → after.closed = true)
    (calls : after.calls = Function.update m.calls call stage) (entered : stage.entered = true → after.closed = true)
    (direct : ∀ closing, stage = .closing closing → m.stop = false)
    (returned : stage = .returned true → m.stop = false ∨ ∃ failed, m.listening = .returned failed) : Gate after where
  locked := by rw [stop, listening, gate.locked]
  entered other past := by
    rw [calls] at past
    rcases update_eq (rfl : Function.update m.calls call stage other = _) with ⟨_, same⟩ | ⟨_, before⟩
    · exact entered (same ▸ past)
    · exact closed (gate.entered other (before ▸ past))
  direct other closing found := by
    rw [calls] at found
    rw [stop]
    rcases update_eq found with ⟨_, same⟩ | ⟨_, before⟩
    · exact direct closing same
    · exact gate.direct other closing before
  returned other found := by
    rw [calls] at found
    rw [stop, listening]
    rcases update_eq found with ⟨_, same⟩ | ⟨_, before⟩
    · exact returned same
    · exact gate.returned other before

theorem Gate.step (gate : Gate m) (stepped : m.step move = some after) : Gate after := by
  cases move <;> simp only [Service.step] at stepped
  case listens | spawns | observes | stops | timesOut | collected | closes | signals | expires | receives | begins
    | ends =>
    (repeat' split at stepped) <;> cases stepped <;>
      exact gate.of_listening rfl rfl rfl (by simp [*, setRunner, Listening.locked]) (by simp [*, setRunner])
  case locks =>
    split at stepped
    · rename_i called
      split at stepped <;> cases stepped
      · exact gate.of_listening rfl rfl rfl (by simp [called, Listening.locked]) (by simp [called])
      · rename_i opened
        refine ⟨rfl, gate.entered, fun call closing found => ?_, fun call found => ?_⟩
        all_goals exact absurd (gate.shut found rfl) opened
    · cases stepped
  case shutsDown call =>
    split at stepped <;> cases stepped
    exact gate.of_call rfl rfl id rfl (fun past => by cases past) (by simp) (by simp)
  case abandons call | cancels call | asks call answer =>
    (repeat' split at stepped) <;> cases stepped
    all_goals
      have shut := gate.shut ‹m.calls call = _› rfl
      exact gate.of_call rfl rfl id rfl (fun _ => shut) (by grind) (by grind)
  case enters call =>
    split at stepped
    · split at stepped <;> cases stepped
      · exact gate.of_call rfl rfl (fun _ => rfl) rfl (fun _ => rfl) (by simp) (by simp)
      · rename_i absent
        exact gate.of_call rfl rfl (fun _ => rfl) rfl (fun _ => rfl) (fun _ _ => by simpa using absent) (by simp)
    · cases stepped
  case awaits call =>
    split at stepped <;> cases stepped
    rename_i stage spent
    exact gate.of_call rfl rfl id rfl (fun _ => gate.shut stage rfl) (by simp)
      fun _ => .inr ⟨_, spent⟩
  case releases call answer =>
    split at stepped <;> cases stepped
    all_goals
      rename_i stage
      have direct := gate.direct call _ stage
      exact gate.of_call rfl rfl id rfl (fun _ => gate.shut stage rfl) (fun _ _ => direct) fun _ => .inl direct

def unreceived (m : Service) : Finset Nat := {runner ∈ Finset.range m.runnerCount | m.runners runner ≠ .received}

/-- What `ListenAndServe` knows of its runners, wherever it is. -/
def Crew (m : Service) : Prop :=
  (∀ runner, m.runnerCount ≤ runner → m.runners runner = .unstarted) ∧
  match m.listening with
  | .uncalled | .called | .refused => ∀ runner, m.runners runner = .unstarted
  | .spawning next =>
    (∀ runner, next ≤ runner → m.runners runner = .unstarted) ∧ ∀ runner, m.runners runner ≠ .received
  | .selecting => ∀ runner, m.runners runner ≠ .received
  | .stopping _ pending _ | .collecting pending _ => m.unreceived.card = pending
  | .closing _ _ | .returned _ =>
      (m.expired = true ∨ ∀ runner < m.runnerCount, m.runners runner = .received) ∧
      ∀ runner, m.runners runner ≠ .spawned

/-- The steps of a run that keep the closing of the resources to one call: no `Shutdown`
finds the service not running while another closes its resources, the stop timeout
does not pass before every goroutine of `run` has called `Run`, and no closer and no
`Stop` called by `ListenAndServe` panics. -/
def Orderly (m : Service) : Move → Prop
  | .enters _ => m.stop = false → ∀ call closing, m.calls call = .closing closing → closing.working = false
  | .timesOut => ∀ runner, m.runners runner ≠ .spawned
  | .stops answer | .closes answer | .releases _ answer => answer ≠ .panics
  | _ => True

theorem mem_unreceived : runner ∈ m.unreceived ↔ runner < m.runnerCount ∧ m.runners runner ≠ .received := by
  simp [unreceived]

private theorem unreceived_setRunner (before : m.runners runner ≠ .received) (stage : RunnerStage)
    (apart : stage ≠ .received) : (m.setRunner runner stage).unreceived = m.unreceived := by
  ext other
  rw [mem_unreceived, mem_unreceived]
  by_cases same : other = runner
  · subst same
    simp [setRunner, before, apart]
  · simp [setRunner, same]

private theorem unreceived_receive (inside : runner < m.runnerCount) (before : m.runners runner ≠ .received) :
    (m.setRunner runner .received).unreceived.card = m.unreceived.card - 1 := by
  have erased : (m.setRunner runner .received).unreceived = m.unreceived.erase runner := by
    ext other
    rw [Finset.mem_erase, mem_unreceived, mem_unreceived]
    by_cases same : other = runner
    · subst same
      simp [setRunner]
    · simp [setRunner, same]
  rw [erased, Finset.card_erase_of_mem (mem_unreceived.mpr ⟨inside, before⟩)]

theorem Crew.started (crew : Crew m) (started : m.runners runner ≠ .unstarted) : runner < m.runnerCount := by
  by_contra outside
  exact started (crew.1 runner (by lia))

theorem unreceived_card (none : ∀ runner, m.runners runner ≠ .received) : m.unreceived.card = m.runnerCount := by
  simp [unreceived, none]

theorem setRunner_outside (crew : Crew m) (started : m.runners runner ≠ .unstarted) (stage : RunnerStage) :
    ∀ other, m.runnerCount ≤ other → (m.setRunner runner stage).runners other = .unstarted := by
  intro other outside
  have apart : other ≠ runner := by
    rintro rfl
    exact started (crew.1 other outside)
  simpa [setRunner, apart] using crew.1 other outside

theorem Crew.setRunner (crew : Crew m) (stage : RunnerStage) (apart : stage ≠ .received)
    (started : m.runners runner ≠ .unstarted) (before : m.runners runner ≠ .received)
    (late : stage ≠ .spawned) : Crew (m.setRunner runner stage) := by
  have outside := setRunner_outside crew started stage
  have inside := crew.started started
  have others (value : RunnerStage) (here : stage ≠ value) (all : ∀ other, m.runners other ≠ value) :
      ∀ other, Function.update m.runners runner stage other ≠ value := by
    intro other
    by_cases same : other = runner
    · subst same
      simpa using here
    · simpa [same] using all other
  obtain ⟨_, known⟩ := crew
  refine ⟨outside, ?_⟩
  cases listening : m.listening with
  | uncalled | called | refused =>
    simp only [listening] at known
    exact absurd (known runner) started
  | spawning next =>
    simp only [listening] at known
    obtain ⟨later, none⟩ := known
    simp only [Service.setRunner, listening]
    refine ⟨fun other far => ?_, others _ apart none⟩
    have apart : other ≠ runner := by
      rintro rfl
      exact started (later other far)
    simpa [apart] using later other far
  | selecting =>
    simp only [listening] at known
    simp only [Service.setRunner, listening]
    exact others _ apart known
  | stopping next pending failed | collecting pending failed =>
    simp only [listening] at known
    simp only [Service.setRunner, listening]
    exact (unreceived_setRunner before stage apart).symm ▸ known
  | closing failed closing | returned failed =>
    simp only [listening] at known
    simp only [Service.setRunner, listening]
    refine ⟨known.1.imp_right fun all => ?_, others _ late known.2⟩
    exact absurd (all runner inside) before

theorem Crew.spawns (crew : Crew m) (stepped : m.step .spawns = some after) : Crew after := by
  simp only [Service.step] at stepped
  split at stepped
  · rename_i next stage
    simp only [Crew, stage] at crew
    obtain ⟨outside, later, none⟩ := crew
    split at stepped <;> cases stepped
    · rename_i more
      refine ⟨fun runner far => ?_, fun runner far => ?_, fun runner => ?_⟩
      · have apart : runner ≠ next := (Nat.lt_of_lt_of_le more far).ne'
        simpa [Service.setRunner, apart] using outside runner far
      · have apart : runner ≠ next := (Nat.lt_of_succ_le far).ne'
        simpa [Service.setRunner, apart] using later runner (Nat.le_of_succ_le far)
      · by_cases same : runner = next
        · simp [Service.setRunner, same]
        · simpa [Service.setRunner, same] using none runner
    · exact ⟨outside, none⟩
  · cases stepped

theorem Crew.receives (crew : Crew m) (stepped : m.step (.receives runner) = some after) : Crew after := by
  simp only [Service.step] at stepped
  split at stepped <;> cases stepped
  all_goals
    have sent := ‹m.runners runner = _›
    have fewer := unreceived_receive (crew.started (by simp [sent])) (by simp [sent] : m.runners runner ≠ .received)
    refine ⟨setRunner_outside crew (by simp [sent]) .received, ?_⟩
    simp only [Crew, *] at crew
  · exact fewer.trans (by rw [unreceived_card crew.2])
  · exact fewer.trans (by rw [crew.2]; rfl)

theorem Crew.observes (crew : Crew m) (stepped : m.step .observes = some after) : Crew after := by
  simp only [Service.step] at stepped
  split at stepped
  · rename_i ready
    simp only [Crew, ready.1] at crew
    obtain ⟨outside, none⟩ := crew
    split at stepped <;> cases stepped
    · rename_i empty
      exact ⟨outside, .inr fun runner inside => by simp [empty] at inside,
        fun runner => by simp [outside runner (by simp [empty])]⟩
    · exact ⟨outside, unreceived_card none⟩
  · cases stepped

theorem Crew.collected (crew : Crew m) (stepped : m.step .collected = some after) : Crew after := by
  simp only [Service.step] at stepped
  split at stepped <;> cases stepped
  rename_i stage
  simp only [Crew, stage] at crew
  obtain ⟨outside, pending⟩ := crew
  have all (runner : Nat) (inside : runner < m.runnerCount) : m.runners runner = .received := by
    by_contra missing
    have member : runner ∈ m.unreceived := mem_unreceived.mpr ⟨inside, missing⟩
    simp [Finset.card_eq_zero.mp pending] at member
  refine ⟨outside, .inr all, fun runner => ?_⟩
  by_cases inside : runner < m.runnerCount
  · simp [all runner inside]
  · simp [outside runner (by lia)]

theorem Crew.step (crew : Crew m) (orderly : Orderly m move) (stepped : m.step move = some after) : Crew after := by
  cases move <;> simp only [Service.step] at stepped
  case spawns => exact crew.spawns stepped
  case receives runner => exact crew.receives stepped
  case observes => exact crew.observes stepped
  case collected => exact crew.collected stepped
  case listens | locks | stops | closes | expires =>
    (repeat' split at stepped) <;> cases stepped <;> simp_all [Crew, Orderly, unreceived]
  case timesOut =>
    (repeat' split at stepped) <;> cases stepped
    rename_i stage expired
    exact ⟨crew.1, .inl expired, orderly⟩
  case begins runner | ends runner failed =>
    split at stepped <;> cases stepped
    rename_i stage
    exact crew.setRunner _ (by simp) (by simp [stage]) (by simp [stage]) (by simp)
  case shutsDown | cancels | abandons | enters | asks | awaits | releases | signals =>
    (repeat' split at stepped) <;> cases stepped <;> exact crew

theorem counts_step (stepped : m.step move = some after) :
    after.runnerCount = m.runnerCount ∧ after.closerCount = m.closerCount := by
  cases move <;> simp only [step] at stepped <;> (repeat' split at stepped) <;> cases stepped <;> exact ⟨rfl, rfl⟩

def Spawned (m : Service) : Prop :=
  match m.listening with
  | .uncalled | .called | .refused => m.goroutines = []
  | .spawning next => next ≤ m.runnerCount ∧ m.goroutines = List.range next
  | _ => m.goroutines = List.range m.runnerCount

theorem Spawned.step (spawned : Spawned m) (stepped : m.step move = some after) : Spawned after := by
  cases move with
  | spawns =>
    simp only [Service.step] at stepped
    split at stepped
    · rename_i next stage
      simp only [Spawned, stage] at spawned
      obtain ⟨bound, goroutines⟩ := spawned
      split at stepped <;> cases stepped
      · rename_i more
        exact ⟨more, by simp [goroutines, List.range_succ]⟩
      · rename_i full
        have all : next = m.runnerCount := by lia
        exact all ▸ goroutines
    · cases stepped
  | locks =>
    simp only [Service.step] at stepped
    split at stepped
    · rename_i stage
      simp only [Spawned, stage] at spawned
      split at stepped <;> cases stepped
      · exact spawned
      · exact ⟨Nat.zero_le _, spawned⟩
    · cases stepped
  | listens | observes | stops answer | timesOut | collected | closes answer | receives runner | expires =>
    simp only [Service.step] at stepped
    (repeat' split at stepped) <;> cases stepped <;> simp_all [Spawned, Service.setRunner]
  | begins runner | ends runner failed | shutsDown call | cancels call | abandons call | enters call | asks call answer
  | awaits call | releases call answer | signals =>
    simp only [Service.step] at stepped
    (repeat' split at stepped) <;> cases stepped <;> exact spawned

theorem goroutines_eq_range {runners closers : Nat} (run : feed step (built runners closers) moves = some m)
    (running : m.listening.running = true) : m.goroutines = List.range runners := by
  have start : Spawned (built runners closers) ∧ (built runners closers).runnerCount = runners := ⟨rfl, rfl⟩
  obtain ⟨spawned, count⟩ := feed_invariant (fun state => Spawned state ∧ state.runnerCount = runners)
    (fun _ _ _ kept stepped => ⟨kept.1.step stepped, (counts_step stepped).1.trans kept.2⟩) start run
  rw [← count]
  simp only [Spawned] at spawned
  cases listening : m.listening <;> simp_all [Listening.running]

private theorem spawns_all (stage : m.listening = .spawning next) (left : m.runnerCount = next + rest) :
    ∃ last, feed step m (List.replicate (rest + 1) .spawns) = some last ∧ last.listening = .selecting := by
  induction rest generalizing m next with
  | zero => exact ⟨{ m with listening := .selecting }, by simp [feed, step, stage, left], rfl⟩
  | succ rest ih =>
    have more : next < m.runnerCount := by lia
    let middle := { m.setRunner next .spawned with
      listening := .spawning (next + 1), goroutines := m.goroutines ++ [next] }
    have later : middle.listening = .spawning (next + 1) := rfl
    obtain ⟨last, run, selecting⟩ := ih later (left.trans (by lia))
    refine ⟨last, feed_cons.mpr ⟨middle, ?_, run⟩, selecting⟩
    simp [step, stage, more, middle]

theorem exists_running (runners closers : Nat) :
    ∃ moves m, feed step (built runners closers) moves = some m ∧ m.listening.running = true := by
  let opened : Service := { built runners closers with stop := true, listening := .spawning 0 }
  have stage : opened.listening = .spawning 0 := rfl
  obtain ⟨m, run, selecting⟩ := spawns_all stage (Nat.zero_add runners).symm
  refine ⟨.listens :: .locks :: List.replicate (runners + 1) .spawns, m, ?_, by rw [selecting]; rfl⟩
  exact feed_cons.mpr ⟨_, rfl, feed_cons.mpr ⟨opened, rfl, run⟩⟩

end Service

end Gofi.Lifecycle
