import Gofi.Lifecycle.Builder
import Gofi.Lifecycle.Runners

/-! Calling `Build` again on a builder whose first attempts failed. A call starts the
components in order and undoes what it opened, but the runners it has collected by
then stay with the builder. -/

namespace Gofi.Lifecycle

open Gofi.Concurrent

private theorem startEach_calls (start : Nat → Component → Runtime γ → Started γ ε) (place : Nat)
    (components : List Component)
    (rt : Runtime γ) : (startEach start place components rt).calls.map Prod.fst <+: components := by
  induction components generalizing place rt with
  | nil => exact List.prefix_rfl
  | cons c rest ih =>
    simp only [startEach]
    split
    · exact ⟨rest, rfl⟩
    · exact List.prefix_cons_inj c |>.mpr (ih ..)

variable {start : Nat → Component → Runtime γ → Started γ ε}

private theorem startEach_failed (failed : (c, some err) ∈ (startEach start place components rt).calls) :
    (startEach start place components rt).failure = some (c, err) ∧
      (startEach start place components rt).calls.getLast? = some (c, some err) := by
  induction components generalizing place rt with
  | nil => simp [startEach] at failed
  | cons first rest ih =>
    simp only [startEach] at failed ⊢
    split at failed
    · simp_all
    · simp only [List.mem_cons, Prod.mk.injEq, reduceCtorEq, and_false, false_or] at failed ⊢
      obtain ⟨failure, last⟩ := ih failed
      refine ⟨failure, ?_⟩
      rw [List.getLast?_cons, last]
      rfl

private theorem startEach_failure (failure : (startEach start place components rt).failure = some failed) :
    (failed.1, some failed.2) ∈ (startEach start place components rt).calls := by
  induction components generalizing place rt with
  | nil => simp [startEach] at failure
  | cons first rest ih =>
    simp only [startEach] at failure ⊢
    split at failure
    · cases failure
      simp
    · exact List.mem_cons_of_mem _ (ih failure)

private theorem startEach_succeeded (succeeded : (startEach start place components rt).failure = none) :
    (startEach start place components rt).runners = components.filter (·.runner) := by
  induction components generalizing place rt with
  | nil => rfl
  | cons first rest ih =>
    simp only [startEach] at succeeded ⊢
    split at succeeded
    · cases succeeded
    · simp only [List.filter_cons]
      rw [ih succeeded]

namespace Instance

theorem stage_trans (a b c : Component) (first : decide (a.stage ≤ b.stage) = true)
    (second : decide (b.stage ≤ c.stage) = true) : decide (a.stage ≤ c.stage) = true :=
  decide_eq_true (Int.le_trans (of_decide_eq_true first) (of_decide_eq_true second))

theorem stage_total (a b : Component) : (decide (a.stage ≤ b.stage) || decide (b.stage ≤ a.stage)) = true := by
  simpa using Int.le_total a.stage b.stage

theorem ordered_perm (g : Instance γ) : g.ordered.Perm g.components := List.mergeSort_perm ..

theorem ordered_staged (g : Instance γ) : g.ordered.Pairwise (·.stage ≤ ·.stage) :=
  (List.pairwise_mergeSort stage_trans stage_total g.components).imp of_decide_eq_true

private theorem ordered_ties (g : Instance γ) (stage : Int) :
    g.ordered.filter (·.stage = stage) = g.components.filter (·.stage = stage) := by
  have equal : (g.components.filter (·.stage = stage)).Pairwise (fun a b => decide (a.stage ≤ b.stage) = true) := by
    refine List.pairwise_of_forall_mem_list fun a left b right => ?_
    simp_all
  have kept : (g.components.filter (·.stage = stage)).Sublist g.ordered :=
    List.sublist_mergeSort stage_trans stage_total equal List.filter_sublist
  have within := kept.filter (·.stage = stage)
  simp only [List.filter_filter, Bool.and_self] at within
  have same : (g.ordered.filter (·.stage = stage)).length = (g.components.filter (·.stage = stage)).length :=
    (g.ordered_perm.filter _).length_eq
  exact (within.eq_of_length_le same.le).symm

def Ready (g : Instance γ) (attempt : Attempt γ ε) : Prop := g.built = false ∧ g.errs = 0 ∧ attempt.setup = []

def starts (g : Instance γ) (attempt : Attempt γ ε) : Starts γ ε := startEach attempt.start 0 g.ordered .new

def service (g : Instance γ) : Service := .built g.runners.length ((g.rt.map (·.closers.length)).getD 0)

def running (g : Instance γ) (m : Service) : List Component := m.goroutines.filterMap (g.runners[·]?)

variable {g : Instance γ}

theorem build_refused {attempt : Attempt γ ε} (unready : ¬ g.Ready attempt) :
    ∃ err, g.build attempt = g.refused err := by
  simp only [Ready, not_and] at unready
  by_cases built : g.built = true
  · exact ⟨.alreadyBuilt, by simp [build, built]⟩
  · by_cases misused : g.errs = 0
    · exact ⟨.setup attempt.setup, by simp [build, built, misused, unready (by simpa using built) misused]⟩
    · exact ⟨.misuse g.errs, by simp [build, built, misused]⟩

theorem build_failed {attempt : Attempt γ ε} (ready : g.Ready attempt)
    (failed : (g.starts attempt).failure = some (c, err)) :
    (∃ err, (g.build attempt).answer = .error err) ∧ (g.build attempt).calls = (g.starts attempt).calls ∧
      (g.build attempt).ran = (g.starts attempt).rt.closers.reverse ∧
      (g.build attempt).registered = (g.starts attempt).rt.closers ++
        (g.starts attempt).rt.closers.reverse.flatMap fun closer => (attempt.close closer).closers := by
  obtain ⟨fresh, fine, calm⟩ := ready
  simp only [starts] at failed
  simp [build, starts, fresh, fine, calm, failed, Runtime.close, Runtime.closeEach_closers]

theorem build_succeeded {attempt : Attempt γ ε} (ready : g.Ready attempt)
    (succeeded : (g.starts attempt).failure = none) :
    (g.build attempt).answer = .ok () ∧ (g.build attempt).calls = (g.starts attempt).calls ∧
      (g.build attempt).builder.runners = g.runners ++ g.ordered.filter (·.runner) := by
  obtain ⟨fresh, fine, calm⟩ := ready
  have runners := startEach_succeeded succeeded
  simp only [starts] at succeeded
  simp [build, starts, fresh, fine, calm, succeeded, runners]

private theorem build_answer {attempt : Attempt γ ε} (success : (g.build attempt).answer = .ok ()) :
    g.Ready attempt ∧ (g.starts attempt).failure = none := by
  have ready : g.Ready attempt := by
    by_contra unready
    obtain ⟨err, refused⟩ := build_refused unready
    simp [refused, Instance.refused] at success
  refine ⟨ready, ?_⟩
  cases failure : (g.starts attempt).failure with
  | none => rfl
  | some failed =>
    obtain ⟨⟨err, answer⟩, _⟩ := build_failed ready failure
    simp [answer] at success

/-- A call of `Build` starts the components by stage, those of one stage in the order of
`With`; if one fails, it is the last one and every closer was run, in reverse order;
and `ListenAndServe` runs each runner of a service it returns once. -/
structure Right (g : Instance γ) (attempt : Attempt γ ε) : Prop where
  staged : (g.build attempt).calls.Pairwise (·.1.stage ≤ ·.1.stage)
  ties : ∀ stage, ((g.build attempt).calls.map Prod.fst).filter (·.stage = stage) <+:
    g.components.filter (·.stage = stage)
  undone : ∀ c err, (c, some err) ∈ (g.build attempt).calls →
    (∃ err, (g.build attempt).answer = .error err) ∧ (g.build attempt).calls.getLast? = some (c, some err) ∧
      (g.build attempt).ran = (g.build attempt).registered.reverse
  returned : (g.build attempt).answer = .ok () → ∀ moves m,
    feed Service.step (g.build attempt).builder.service moves = some m → m.listening.running = true →
      ∀ c, ((g.build attempt).builder.running m).count c = (g.components.filter (·.runner)).count c

/-- No runner is left from an attempt that failed when all components start, and no
closer registers another while `Build` undoes what it opened. -/
def Undisturbed (g : Instance γ) (attempt : Attempt γ ε) : Prop :=
  g.Ready attempt →
    match (g.starts attempt).failure with
    | none => g.runners = []
    | some _ => ∀ closer ∈ (g.starts attempt).rt.closers, (attempt.close closer).closers = []

theorem calls_eq_starts {attempt : Attempt γ ε} (ready : g.Ready attempt) :
    (g.build attempt).calls = (g.starts attempt).calls := by
  cases failure : (g.starts attempt).failure with
  | none => exact (build_succeeded ready failure).2.1
  | some failed => exact (build_failed ready failure).2.1

private theorem calls_ordered (g : Instance γ) (attempt : Attempt γ ε) :
    (g.build attempt).calls.map Prod.fst <+: g.ordered := by
  by_cases ready : g.Ready attempt
  · rw [calls_eq_starts ready]
    exact startEach_calls ..
  · obtain ⟨err, refused⟩ := build_refused ready
    simp [refused, Instance.refused]

private theorem calls_ready {attempt : Attempt γ ε} (called : call ∈ (g.build attempt).calls) : g.Ready attempt := by
  by_contra unready
  obtain ⟨err, refused⟩ := build_refused unready
  simp [refused, Instance.refused] at called

private theorem range_filterMap (items : List α) : (List.range items.length).filterMap (items[·]?) = items := by
  induction items with
  | nil => rfl
  | cons item rest ih =>
    rw [List.length_cons, List.range_succ_eq_map, List.filterMap_cons, List.filterMap_map]
    simpa using ih

theorem running_eq (run : feed Service.step g.service moves = some m)
    (running : m.listening.running = true) : g.running m = g.runners := by
  rw [Instance.running, Service.goroutines_eq_range run running, range_filterMap]

theorem undone_iff {close : γ → Closed γ ε} {closers : List γ} :
    closers.reverse = (closers ++ closers.reverse.flatMap fun closer => (close closer).closers).reverse ↔
      ∀ closer ∈ closers, (close closer).closers = [] := by
  rw [List.reverse_inj, List.self_eq_append_right, List.flatMap_eq_nil_iff]
  simp

theorem returned_iff {attempt : Attempt γ ε} (ready : g.Ready attempt)
    (succeeded : (g.starts attempt).failure = none) :
    (∀ moves m, feed Service.step (g.build attempt).builder.service moves = some m → m.listening.running = true →
      ∀ c, ((g.build attempt).builder.running m).count c = (g.components.filter (·.runner)).count c) ↔
        g.runners = [] := by
  have runners := (build_succeeded ready succeeded).2.2
  have counted (c : Component) : (g.build attempt).builder.runners.count c =
      g.runners.count c + (g.components.filter (·.runner)).count c := by
    rw [runners, List.count_append, (g.ordered_perm.filter _).count_eq]
  constructor
  · intro once
    obtain ⟨moves, m, run, running⟩ := Service.exists_running (g.build attempt).builder.runners.length
      (((g.build attempt).builder.rt.map (·.closers.length)).getD 0)
    refine List.eq_nil_iff_forall_not_mem.mpr fun c member => ?_
    have same := once moves m run running c
    rw [running_eq run running, counted] at same
    have present := List.count_pos_iff.mpr member
    lia
  · intro none moves m run running c
    rw [running_eq run running, counted, none]
    simp

private theorem undone_of_undisturbed {attempt : Attempt γ ε} (undisturbed : Undisturbed g attempt)
    (failed : (c, some err) ∈ (g.build attempt).calls) :
    (∃ err, (g.build attempt).answer = .error err) ∧ (g.build attempt).calls.getLast? = some (c, some err) ∧
      (g.build attempt).ran = (g.build attempt).registered.reverse := by
  have ready := calls_ready failed
  have calm := undisturbed ready
  rw [calls_eq_starts ready] at failed
  obtain ⟨failure, last⟩ := startEach_failed failed
  obtain ⟨answer, calls, ran, registered⟩ := build_failed ready failure
  simp only [starts, failure] at calm
  refine ⟨answer, calls ▸ last, ?_⟩
  rw [ran, registered]
  exact undone_iff.mpr calm

private theorem right_iff (g : Instance γ) (attempt : Attempt γ ε) : Right g attempt ↔ Undisturbed g attempt := by
  constructor
  · intro right ready
    cases failure : (g.starts attempt).failure with
    | none => exact (returned_iff ready failure).mp (right.returned (build_succeeded ready failure).1)
    | some failed =>
      obtain ⟨_, calls, ran, registered⟩ := build_failed ready failure
      have complete := (right.undone failed.1 failed.2 (calls ▸ startEach_failure failure)).2.2
      rw [ran, registered] at complete
      exact undone_iff.mp complete
  · intro undisturbed
    have within := calls_ordered g attempt
    refine ⟨?_, fun stage => ?_, fun c err => undone_of_undisturbed undisturbed, fun success => ?_⟩
    · have staged := g.ordered_staged.sublist within.sublist
      rwa [List.pairwise_map] at staged
    · rw [← ordered_ties]
      exact within.filter _
    · obtain ⟨ready, succeeded⟩ := build_answer success
      have none := undisturbed ready
      simp only [succeeded] at none
      exact (returned_iff ready succeeded).mpr none

def OfBuild (condition : Instance γ → Attempt γ ε → Prop) (g : Instance γ) : Call γ ε → Prop
  | .with_ _ => True
  | .build attempt => condition g attempt

/-- Whatever is called on a builder, its calls of `Build` do what they should as long as
no runner is left from a failed one when another succeeds, and no closer registers
another during a rollback. -/
theorem builds_are_right_iff (calls : List (Call γ ε)) :
    Along step (OfBuild Right) (new : Instance γ) calls ↔ Along step (OfBuild Undisturbed)
    (new : Instance γ) calls := by
  refine Along.congr fun g call => ?_
  cases call with
  | with_ components => exact Iff.rfl
  | build attempt => exact right_iff g attempt

namespace Sample

def http : Component := ⟨1, Go.ascii "http", 900, true⟩

def grpc : Component := ⟨2, Go.ascii "grpc", 900, true⟩

def attempt (failing : Option Nat) : Attempt Nat Unit where
  setup := []
  start place _ _ := ⟨[place], if failing = some place then some () else none⟩
  close _ := ⟨[], none⟩

theorem ordered_servers (servers : g.components = [http, grpc]) : g.ordered = [http, grpc] := by
  rw [ordered, servers]
  exact List.mergeSort_of_pairwise (by simp [http, grpc])

def failedOnce : Instance Nat := ⟨[http, grpc], [http], some ⟨[]⟩, 0, false⟩

theorem build_failedOnce : ((new : Instance Nat).with_ [some http, some grpc]).build (attempt (some 1)) =
    ⟨failedOnce, .error (.start grpc.name () []), [(http, none), (grpc, some ())], [0, 1], [1, 0]⟩ := by
  have ordered : ((new : Instance Nat).with_ [some http, some grpc]).ordered = [http, grpc] := ordered_servers rfl
  simp only [build, ordered]
  rfl

def rebuilt : Instance Nat := ⟨[http, grpc], [http, http, grpc], some ⟨[0, 1]⟩, 0, true⟩

theorem build_rebuilt : failedOnce.build (attempt none) =
    ⟨rebuilt, .ok (), [(http, none), (grpc, none)], [0, 1], []⟩ := by
  have ordered : failedOnce.ordered = [http, grpc] := ordered_servers rfl
  simp only [build, ordered]
  rfl

end Sample

/-- The second server fails to start in the first call of `Build`, and starts in the
second: the service runs the first one twice. -/
theorem rebuilt_service_runs_twice : ∃ (g after : Instance Nat) (m : Service),
    feed step new [.with_ [some Sample.http, some Sample.grpc], .build (Sample.attempt (some 1))] = some g ∧
    (g.build (Sample.attempt none)).answer = .ok () ∧ (g.build (Sample.attempt none)).builder = after ∧
    feed Service.step after.service [.listens, .locks, .spawns, .spawns, .spawns, .spawns] = some m ∧
    m.listening = .selecting ∧ after.running m = [Sample.http, Sample.http, Sample.grpc] := by
  refine ⟨Sample.failedOnce, Sample.rebuilt, _, ?_, ?_, ?_, rfl, rfl, rfl⟩
  · simp only [feed, step, Sample.build_failedOnce, Option.bind_some]
  · rw [Sample.build_rebuilt]
  · rw [Sample.build_rebuilt]

end Instance

end Gofi.Lifecycle
