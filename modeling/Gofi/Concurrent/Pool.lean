import Gofi.Concurrent.Program
import Mathlib.Logic.Function.Basic

/-! Any number of calls running over one shared world. A call is a program over
an upper interface whose operations are themselves programs over a lower,
atomic one. A scheduler picks the next call to advance, the fate of its
operation and the background moves, so a list of moves is one interleaving. -/

namespace Gofi.Concurrent

/-- A shared world and the calls that run over it. `respond` answers one atomic
operation of one call; the choice stands for everything the world leaves open. -/
structure System (P L : Sig) where
  World : Type
  Choice : L.Op → Type
  respond : Nat → World → (op : L.Op) → Choice op → Option (L.Ans op × World)
  Tick : Type
  background : World → Tick → Option World
  Call : Type
  Result : Call → Type
  body : (call : Call) → Prog P (Result call)
  impl : (op : P.Op) → Prog L (P.Ans op)

variable {P L : Sig} {sys : System P L}

/-- A finished upper operation with the atomic operations it took. -/
structure Visit (sys : System P L) where
  op : P.Op
  ans : P.Ans op
  trail : History L
  sound : Runs (sys.impl op) trail (.done ans)

def Visit.event (visit : Visit sys) : Event P := ⟨visit.op, visit.ans⟩

/-- Where a call stands after the finished operations `past`: between two
operations, or inside one after the atomic operations of `trail`. -/
inductive Stage (sys : System P L) (program : Prog P α) (past : History P) where
  | idle (core : Prog P α) (run : Runs program past core)
  | busy (op : P.Op) (next : P.Ans op → Prog P α) (trail : History L) (rest : Prog L (P.Ans op))
      (run : Runs program past (.call op next)) (inner : Runs (sys.impl op) trail rest)

/-- One call, with the proof that it has done nothing but run its own body. -/
structure Thread (sys : System P L) where
  call : sys.Call
  visits : List (Visit sys)
  stage : Stage sys (sys.body call) (visits.map Visit.event)

namespace Thread

def past (thread : Thread sys) : History P := thread.visits.map Visit.event

def trails (visits : List (Visit sys)) : History L := (visits.map Visit.trail).flatten

def low (thread : Thread sys) : History L :=
  match thread.stage with
  | .idle _ _ => trails thread.visits
  | .busy _ _ trail _ _ _ => trail ++ trails thread.visits

def current (thread : Thread sys) : Option P.Op :=
  match thread.stage with
  | .idle _ _ => none
  | .busy op _ _ _ _ _ => some op

def Asked (thread : Thread sys) (op : P.Op) : Prop :=
  thread.current = some op ∨ ∃ ans, ⟨op, ans⟩ ∈ thread.past

/-- The call is inside `op` and took `trail` there. -/
def Inside (thread : Thread sys) (op : P.Op) (trail : History L) : Prop :=
  ∃ next rest run inner, thread.stage = .busy op next trail rest run inner

/-- The operation and the atomic one that the call waits for. -/
def pending (thread : Thread sys) : Option (P.Op × L.Op) :=
  match thread.stage with
  | .busy op _ _ (.call atom _) _ _ => some (op, atom)
  | _ => none

/-- The call is inside `op`, took `trail` there and performs `atom` next. -/
def Waits (thread : Thread sys) (op : P.Op) (trail : History L) (atom : L.Op) : Prop :=
  ∃ next resume run inner, thread.stage = .busy op next trail (.call atom resume) run inner

theorem Waits.pending {thread : Thread sys} (waits : thread.Waits op trail atom) :
    thread.pending = some (op, atom) := by
  obtain ⟨next, resume, run, inner, busy⟩ := waits
  rw [Thread.pending, busy]

end Thread

/-- One performed atomic operation: by which call, in which world. -/
structure Entry (sys : System P L) where
  name : Nat
  world : sys.World
  event : Event L

structure State (sys : System P L) where
  world : sys.World
  threads : Nat → Option (Thread sys)
  log : List (Entry sys)

inductive Move (sys : System P L) where
  | start (name : Nat) (call : sys.Call)
  | act (name : Nat) (choose : (op : L.Op) → sys.Choice op)
  | tick (tick : sys.Tick)

namespace State

def put (σ : State sys) (name : Nat) (thread : Thread sys) : State sys :=
  { σ with threads := Function.update σ.threads name (some thread) }

def shift (σ : State sys) (later : sys.World) : State sys := { σ with world := later }

/-- The state after one atomic operation was answered and its effect applied. -/
def advance (σ : State sys) (name : Nat) (thread : Thread sys) (event : Event L) (later : sys.World) : State sys where
  world := later
  threads := Function.update σ.threads name (some thread)
  log := ⟨name, σ.world, event⟩ :: σ.log

attribute [simps -fullyApplied world log] put advance
attribute [simps -fullyApplied] shift

/-- One move of the scheduler; `none` when the move is not possible. -/
def step (σ : State sys) : Move sys → Option (State sys)
  | .start name call =>
    match σ.threads name with
    | none => some (σ.put name ⟨call, [], .idle (sys.body call) .start⟩)
    | some _ => none
  | .act name choose =>
    match σ.threads name with
    | some ⟨call, visits, .idle (.call op next) run⟩ =>
      some (σ.put name ⟨call, visits, .busy op next [] (sys.impl op) run .start⟩)
    | some ⟨call, visits, .busy op next trail (.done ans) run inner⟩ =>
      some (σ.put name ⟨call, ⟨op, ans, trail, inner⟩ :: visits, .idle (next ans) (.step run ans)⟩)
    | some ⟨call, visits, .busy op next trail (.call atom resume) run inner⟩ =>
      match sys.respond name σ.world atom (choose atom) with
      | some (ans, later) => some (σ.advance name
          ⟨call, visits, .busy op next (⟨atom, ans⟩ :: trail) (resume ans) run (.step inner ans)⟩
          ⟨atom, ans⟩ later)
      | none => none
    | _ => none
  | .tick tick => (sys.background σ.world tick).map σ.shift

/-- Follow a schedule; a move that is not possible is left out. -/
def follow (σ : State sys) : List (Move sys) → State sys
  | [] => σ
  | move :: rest => ((σ.step move).getD σ).follow rest

/-- Every move of the run passes a check in the state it is made in. -/
def passes (check : State sys → Move sys → Bool) (σ : State sys) : List (Move sys) → Bool
  | [] => true
  | move :: rest => check σ move && ((σ.step move).getD σ).passes check rest

theorem follow_tick_threads (σ : State sys) (tick : sys.Tick) : (σ.follow [.tick tick]).threads = σ.threads := by
  simp only [follow, step]
  cases sys.background σ.world tick <;> rfl

def result (σ : State sys) (name : Nat) : Option ((call : sys.Call) × sys.Result call) :=
  match σ.threads name with
  | some ⟨call, _, .idle (.done value) _⟩ => some ⟨call, value⟩
  | _ => none

def Finished (σ : State sys) (name : Nat) (call : sys.Call) (value : sys.Result call) : Prop :=
  σ.result name = some ⟨call, value⟩

def ended (σ : State sys) (name : Nat) (check : (call : sys.Call) → sys.Result call → Bool) : Bool :=
  (σ.result name).any fun returned => check returned.1 returned.2

theorem finished_of_ended {σ : State sys} {check : (call : sys.Call) → sys.Result call → Bool}
    (passed : σ.ended name check = true) : ∃ call value, σ.Finished name call value ∧ check call value = true := by
  obtain ⟨⟨call, value⟩, returned, fine⟩ := (Option.any_eq_true _ _).mp passed
  exact ⟨call, value, returned, fine⟩

inductive Moved (σ : State sys) : Move sys → State sys → Prop where
  | start (idle : σ.threads name = none) :
      Moved σ (.start name call) (σ.put name ⟨call, [], .idle (sys.body call) .start⟩)
  | enter (running : σ.threads name = some ⟨call, visits, .idle (.call op next) run⟩) :
      Moved σ (.act name choose) (σ.put name ⟨call, visits, .busy op next [] (sys.impl op) run .start⟩)
  | leave (running : σ.threads name = some ⟨call, visits, .busy op next trail (.done ans) run within⟩) :
      Moved σ (.act name choose)
        (σ.put name ⟨call, ⟨op, ans, trail, within⟩ :: visits, .idle (next ans) (.step run ans)⟩)
  | answer {choose : (op : L.Op) → sys.Choice op} {later : sys.World}
      (running : σ.threads name = some ⟨call, visits, .busy op next trail (.call atom resume) run within⟩)
      (answered : sys.respond name σ.world atom (choose atom) = some (ans, later)) :
      Moved σ (.act name choose) (σ.advance name
        ⟨call, visits, .busy op next (⟨atom, ans⟩ :: trail) (resume ans) run (.step within ans)⟩
        ⟨atom, ans⟩ later)
  | tick {later : sys.World} (moved : sys.background σ.world tick = some later) :
      Moved σ (.tick tick) (σ.shift later)

theorem moved_of_step {σ after : State sys} (stepped : σ.step move = some after) : Moved σ move after := by
  cases move with
  | start name call =>
    simp only [step] at stepped
    split at stepped <;> cases stepped
    rename_i idle
    exact .start idle
  | act name choose =>
    simp only [step] at stepped
    split at stepped
    · rename_i running
      cases stepped
      exact .enter running
    · rename_i running
      cases stepped
      exact .leave running
    · rename_i running
      split at stepped <;> cases stepped
      rename_i answered
      exact .answer running answered
    · cases stepped
  | tick tick =>
    simp only [step, Option.map_eq_some_iff] at stepped
    obtain ⟨later, moved, rfl⟩ := stepped
    exact .tick moved

theorem step_of_moved {σ after : State sys} (moved : Moved σ move after) : σ.step move = some after := by
  cases moved with
  | start idle => simp [step, idle]
  | enter running | leave running => simp [step, running]
  | answer running answered => simp [step, running, answered]
  | tick moved => simp [step, moved]

end State

end Gofi.Concurrent
