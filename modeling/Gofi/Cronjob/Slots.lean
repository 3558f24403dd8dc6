import Gofi.Cronjob.Replicas

/-! The slots and fencing tokens of the runs of all replicas. A token comes from a
counter that only grows; a slot is claimed before its run, and what keeps it from
a second run is that the claim outlives every other attempt. -/

namespace Gofi.Cronjob

open Gofi.Concurrent Gofi.Go

namespace Replicas

variable {job : Job}

section Fencing

structure Counted (r : Replicas n) : Prop where
  known : ∀ token ∈ r.leases, token ≤ r.locker.fence
  fenced : r.Fenced
  unused : ∀ i slot token, r.stages i = .claiming slot token → token ∈ r.leases ∧ token ∉ r.runs.map Prod.snd
  apart : ∀ i j slot other token, r.stages i = .claiming slot token → r.stages j = .claiming other token → i = j

variable {r : Replicas n}

theorem Initial.counted (initial : r.Initial) : r.Counted where
  known := by simp [initial.leases]
  fenced := ⟨by simp [initial.leases], by simp [initial.runs], by simp [initial.runs]⟩
  unused := by simp [initial.idle]
  apart := by simp [initial.idle]

theorem Counted.goTo (counted : r.Counted) (i : Fin n) (locker : Locker)
    (grown : r.locker.fence ≤ locker.fence) (other : ∀ slot token, stage ≠ .claiming slot token) :
    Counted { r.goTo i stage with locker } := by
  have before (j : Fin n) (slot : Time) (token : Nat) (at_ : (r.goTo i stage).stages j = .claiming slot token) :
      r.stages j = .claiming slot token := by
    rcases stage_of_goTo at_ with ⟨_, same⟩ | old
    · exact absurd same.symm (other slot token)
    · exact old
  exact ⟨fun token taken => (counted.known token taken).trans grown,
    ⟨counted.fenced.grow, counted.fenced.own, counted.fenced.taken⟩,
    fun j slot token at_ => counted.unused j slot token (before j slot token at_),
    fun j k slot other token at_ also => counted.apart j k slot other token (before _ _ _ at_) (before _ _ _ also)⟩

theorem Counted.taken (counted : r.Counted) (i : Fin n) (slot : Time) (held : Key → Option Hold)
    (new : stage = .idle ∨ stage = .claiming slot (r.locker.fence + 1)) :
    Counted { r.goTo i stage with locker := ⟨r.locker.fence + 1, held⟩, leases :=
      r.leases ++ [r.locker.fence + 1] } := by
  have fresh (token : Nat) (taken : token ∈ r.leases) : token < r.locker.fence + 1 :=
    Nat.lt_succ_of_le (counted.known token taken)
  have unrun : r.locker.fence + 1 ∉ r.runs.map Prod.snd := by
    intro member
    obtain ⟨run, present, same⟩ := List.mem_map.mp member
    exact absurd (fresh _ (counted.fenced.taken run present)) (by lia)
  have before (j : Fin n) (slot : Time) (token : Nat) (at_ : (r.goTo i stage).stages j = .claiming slot token) :
      j = i ∧ token = r.locker.fence + 1 ∨ r.stages j = .claiming slot token := by
    rcases stage_of_goTo at_ with ⟨rfl, same⟩ | old
    · rcases new with rfl | rfl
      · cases same
      · cases same
        exact .inl ⟨rfl, rfl⟩
    · exact .inr old
  refine ⟨fun token member => ?_, ⟨?_, counted.fenced.own, fun run present => ?_⟩, fun j slot token at_ => ?_,
    fun j k slot other token at_ also => ?_⟩
  · rcases List.mem_append.mp member with old | new
    · exact (fresh token old).le
    · exact (List.mem_singleton.mp new).le
  · refine List.pairwise_append.mpr ⟨counted.fenced.grow, List.pairwise_singleton .., fun token old new same => ?_⟩
    exact List.mem_singleton.mp same ▸ fresh token old
  · exact List.mem_append_left _ (counted.fenced.taken run present)
  · rcases before j slot token at_ with ⟨_, rfl⟩ | old
    · exact ⟨by simp, unrun⟩
    · obtain ⟨taken, unused⟩ := counted.unused j slot token old
      exact ⟨List.mem_append_left _ taken, unused⟩
  · rcases before j slot token at_ with ⟨rfl, new⟩ | old <;> rcases before k other token also with ⟨rfl, same⟩ | older
    · rfl
    · exact absurd (fresh token (counted.unused k other token older).1) (by lia)
    · exact absurd (fresh token (counted.unused j slot token old).1) (by lia)
    · exact counted.apart j k slot other token old older

theorem Counted.run (counted : r.Counted) (claiming : r.stages i = .claiming slot token) (locker : Locker)
    (grown : r.locker.fence ≤ locker.fence) :
    Counted { r.goTo i (.running slot token) with locker, runs := r.runs ++ [(slot, token)] } := by
  obtain ⟨taken, unused⟩ := counted.unused i slot token claiming
  have moved : Counted { r.goTo i (.running slot token) with locker } := counted.goTo i locker grown (by simp)
  refine ⟨moved.known, ⟨counted.fenced.grow, ?_, fun run member => ?_⟩, fun j other old at_ => ?_, moved.apart⟩
  · simp only [List.map_append, List.map_cons, List.map_nil]
    refine List.nodup_append.mpr ⟨counted.fenced.own, List.nodup_singleton _, fun a first b second => ?_⟩
    rintro rfl
    exact unused (List.mem_singleton.mp second ▸ first)
  · rcases List.mem_append.mp member with old | new
    · exact counted.fenced.taken run old
    · obtain rfl := List.mem_singleton.mp new
      exact taken
  · obtain ⟨listed, free⟩ := moved.unused j other old at_
    refine ⟨listed, ?_⟩
    simp only [List.map_append, List.map_cons, List.map_nil, List.mem_append, List.mem_singleton, not_or]
    refine ⟨free, fun same => ?_⟩
    rcases stage_of_goTo at_ with ⟨_, wrong⟩ | still
    · cases wrong
    · subst same
      obtain rfl := counted.apart i j slot other old claiming still
      cases (goTo_self r i _).symm.trans at_

theorem Counted.lease (counted : r.Counted) (i : Fin n) (slot : Time) (fate : Fate) :
    (r.lease job i slot fate).Counted := by
  unfold Replicas.lease
  split
  · exact counted.goTo i r.locker (le_refl _) (by simp)
  · have grown := Locker.acquire_fence_le (l := r.locker) r.now .lease job.lockTTL
    split
    · rename_i token locker got
      obtain ⟨_, rfl, rfl⟩ := Locker.acquire_token got
      refine counted.taken i slot _ ?_
      split
      · exact .inl rfl
      · exact .inr rfl
    · rename_i answer locker none_given got
      rw [got] at grown
      exact counted.goTo i locker grown (by simp)

theorem Counted.claim (counted : r.Counted) (claiming : r.stages i = .claiming slot token) (fate : Fate) :
    (r.claim job i slot token fate).Counted := by
  unfold Replicas.claim
  split
  · exact counted.goTo i r.locker (le_refl _) (by simp)
  · have grown := Locker.acquire_fence_le (l := r.locker) r.now (.slot slot) job.schedule.slotTTL
    split
    · rename_i got
      rw [got] at grown
      split
      · exact counted.goTo i _ grown (by simp)
      · exact counted.run claiming _ grown
    · rename_i got
      rw [got] at grown
      exact counted.goTo i _ grown (by simp)

theorem Counted.step (counted : r.Counted) (stepped : r.step job move = some next) : next.Counted := by
  cases move <;> simp only [Replicas.step] at stepped
  case wait length =>
    cases stepped
    exact ⟨counted.known, ⟨counted.fenced.grow, counted.fenced.own, counted.fenced.taken⟩, counted.unused,
      counted.apart⟩
  case fire i slot =>
    split at stepped <;> cases stepped
    exact counted.goTo i r.locker (le_refl _) (by simp)
  case lease i fate =>
    split at stepped <;> cases stepped
    exact counted.lease i _ fate
  case claim i fate =>
    split at stepped <;> cases stepped
    rename_i slot token claiming
    exact counted.claim claiming fate
  case renew i =>
    split at stepped <;> cases stepped
    refine ⟨fun token taken => ?_, ⟨counted.fenced.grow, counted.fenced.own, counted.fenced.taken⟩,
      counted.unused, counted.apart⟩
    rw [Locker.renew_fence]
    exact counted.known token taken
  case finish i =>
    split at stepped <;> cases stepped
    exact counted.goTo i r.locker (le_refl _) (by simp)
  case release i fate =>
    split at stepped <;> cases stepped
    refine counted.goTo i _ ?_ (by simp)
    split
    · exact le_refl _
    · rw [Locker.release_fence]

end Fencing

section Slots

def Awaits (slot : Time) : Stage → Prop
  | .leasing fired => fired = slot
  | .claiming fired _ => fired = slot
  | _ => False

variable {r : Replicas n}

theorem awaits_of_goTo (awaits : Awaits slot ((r.goTo i stage).stages j)) :
    Awaits slot stage ∨ Awaits slot (r.stages j) := by
  by_cases same : j = i
  · rw [same, goTo_self] at awaits
    exact .inl awaits
  · rw [goTo_other r stage same] at awaits
    exact .inr awaits

structure Kept (job : Job) (r : Replicas n) : Prop where
  opened : ∀ i slot, Awaits slot (r.stages i) → job.schedule.opening slot ≤ r.now
  covered : ∀ run ∈ r.runs, ∃ token expiry, r.locker.held (.slot run.1) = some ⟨token, expiry⟩ ∧
    job.schedule.opening run.1 + wholeMillis job.schedule.slotTTL ≤ expiry
  once : r.OncePerSlot

theorem Initial.kept (initial : r.Initial) : r.Kept job where
  opened := by simp [initial.idle, Awaits]
  covered := by simp [initial.runs]
  once := by simp [OncePerSlot, initial.runs]

theorem Kept.goTo (kept : r.Kept job) (i : Fin n) (locker : Locker) (leases : List Nat)
    (untouched : ∀ slot, locker.held (.slot slot) = r.locker.held (.slot slot))
    (opened : ∀ slot, Awaits slot stage → job.schedule.opening slot ≤ r.now) :
    Kept job { r.goTo i stage with locker, leases } := by
  refine ⟨fun j slot awaits => ?_, fun run present => ?_, kept.once⟩
  · rcases awaits_of_goTo awaits with new | old
    · exact opened slot new
    · exact kept.opened j slot old
  · simpa only [untouched] using kept.covered run present

theorem Kept.lease (kept : r.Kept job) (leasing : r.stages i = .leasing slot) (fate : Fate) :
    (r.lease job i slot fate).Kept job := by
  have opened (other : Time) (awaits : other = slot) : job.schedule.opening other ≤ r.now :=
    kept.opened i other (by simp [leasing, Awaits, awaits])
  have untouched (other : Time) : (r.locker.acquire r.now .lease job.lockTTL).2.held (.slot other) =
      r.locker.held (.slot other) := Locker.acquire_other r.now job.lockTTL (by simp)
  unfold Replicas.lease
  split
  · exact kept.goTo i r.locker r.leases (fun _ => rfl) (by simp [Awaits])
  · split
    · rename_i token locker got
      rw [got] at untouched
      refine kept.goTo i locker _ untouched fun other awaits => ?_
      split at awaits
      · cases awaits
      · exact opened other awaits.symm
    · rename_i got
      rw [got] at untouched
      exact kept.goTo i _ r.leases untouched (by simp [Awaits])

theorem Kept.unclaimed (kept : r.Kept job)
    (inTime : r.now < job.schedule.opening slot + wholeMillis job.schedule.slotTTL)
    (free : r.locker.holder r.now (.slot slot) = none) : slot ∉ r.runs.map Prod.fst := by
  intro member
  obtain ⟨run, present, rfl⟩ := List.mem_map.mp member
  obtain ⟨token, expiry, held, long⟩ := kept.covered run present
  cases free.symm.trans (Locker.holder_eq_some.mpr ⟨expiry, held, by lia⟩)

theorem Kept.claimed (kept : r.Kept job) (opened : job.schedule.opening slot ≤ r.now) (i : Fin n)
    (other : ∀ slot, ¬ Awaits slot stage) (token : Nat) (runs : List (Time × Nat))
    (old : ∀ run ∈ runs, run ∈ r.runs ∨ run.1 = slot) (once : (runs.map Prod.fst).Nodup) :
    Kept job { r.goTo i stage with
      locker := ⟨token, Function.update r.locker.held (.slot slot)
        (some ⟨token, r.now + wholeMillis job.schedule.slotTTL⟩)⟩
      runs } := by
  refine ⟨fun j time awaits => ?_, fun run present => ?_, once⟩
  · exact kept.opened j time ((awaits_of_goTo awaits).resolve_left (other time))
  · by_cases same : run.1 = slot
    · refine ⟨token, r.now + wholeMillis job.schedule.slotTTL, ?_, by rw [same]; lia⟩
      rw [same]
      exact Function.update_self ..
    · obtain ⟨holder, expiry, held, long⟩ := kept.covered run ((old run present).resolve_right same)
      exact ⟨holder, expiry, (Function.update_of_ne (by simpa using same) ..).trans held, long⟩

theorem Kept.claim (kept : r.Kept job) (claiming : r.stages i = .claiming slot token)
    (inTime : r.now < job.schedule.opening slot + wholeMillis job.schedule.slotTTL) (fate : Fate) :
    (r.claim job i slot token fate).Kept job := by
  have opened : job.schedule.opening slot ≤ r.now := kept.opened i slot (by simp [claiming, Awaits])
  unfold Replicas.claim
  split
  · exact kept.goTo i r.locker r.leases (fun _ => rfl) (by simp [Awaits])
  · split
    · rename_i given locker got
      obtain ⟨free, _, rfl⟩ := Locker.acquire_token got
      have unclaimed := kept.unclaimed inTime free
      split
      · exact kept.claimed opened i (by simp [Awaits]) _ r.runs (fun run => .inl) kept.once
      · refine kept.claimed opened i (by simp [Awaits]) _ _ (fun run member => ?_) ?_
        · rcases List.mem_append.mp member with old | new
          · exact .inl old
          · exact .inr (by rw [List.mem_singleton.mp new])
        · rw [List.map_append]
          refine List.nodup_append.mpr ⟨kept.once, by simp, fun a first b second => ?_⟩
          rintro rfl
          obtain rfl : a = slot := List.mem_singleton.mp second
          exact unclaimed first
    · rename_i answer locker none_given got
      refine kept.goTo i locker r.leases (fun other => ?_) (by simp [Awaits])
      rw [Locker.acquire_held got none_given]

theorem Kept.step (kept : r.Kept job) (inTime : r.InTime job move)
    (stepped : r.step job move = some next) : next.Kept job := by
  cases move <;> simp only [Replicas.step] at stepped
  case wait length =>
    cases stepped
    refine ⟨fun i slot awaits => ?_, kept.covered, kept.once⟩
    have opened := kept.opened i slot awaits
    lia
  case fire i slot =>
    split at stepped <;> cases stepped
    rename_i fires
    refine kept.goTo i r.locker r.leases (fun _ => rfl) fun other awaits => ?_
    exact awaits ▸ Schedule.opening_le fires.2
  case lease i fate =>
    split at stepped <;> cases stepped
    rename_i slot leasing
    exact kept.lease leasing fate
  case claim i fate =>
    split at stepped <;> cases stepped
    rename_i slot token claiming
    simp only [InTime, claiming] at inTime
    exact kept.claim claiming inTime fate
  case renew i =>
    split at stepped <;> cases stepped
    refine ⟨kept.opened, fun run present => ?_, kept.once⟩
    simpa only [Locker.renew_other r.now _ job.lockTTL (show Key.slot run.1 ≠ .lease by simp)] using
      kept.covered run present
  case finish i =>
    split at stepped <;> cases stepped
    exact kept.goTo i r.locker r.leases (fun _ => rfl) (by simp [Awaits])
  case release i fate =>
    split at stepped <;> cases stepped
    refine kept.goTo i _ r.leases (fun other => ?_) (by simp [Awaits])
    split
    · rfl
    · exact Locker.release_other r.now _ (by simp)

end Slots

/-- The tokens of the runs grow in the order of their leases; and no slot is run
twice when every claim has its effect before the first one can have expired. -/
theorem slots_run_once (job : Job) (first last : Replicas n) (initial : first.Initial) (moves : List (Move n))
    (run : feed (step job) first moves = some last) :
    last.Fenced ∧ (Along (step job) (InTime job) first moves → last.OncePerSlot) := by
  constructor
  · have counted : last.Counted := feed_invariant Counted (fun _ _ _ => Counted.step) initial.counted run
    exact counted.fenced
  · intro inTime
    have kept : last.Kept job := inTime.invariant (Kept job) (fun _ _ _ => Kept.step) initial.kept run
    exact kept.once

end Replicas

namespace Sample

def job : Job := ⟨.interval (10 * Time.second) (by decide), 30 * Time.second⟩

def replicas : Replicas 2 := ⟨0, ⟨0, fun _ => none⟩, fun _ => .idle, [], []⟩

theorem replicas_initial : replicas.Initial := ⟨fun _ => rfl, rfl, rfl⟩

def one : Fin 2 := ⟨0, Nat.two_pos⟩

def other : Fin 2 := ⟨1, Nat.one_lt_two⟩

def firstRuns : List (Move 2) :=
  [.fire one 0, .fire other 0, .lease one .delivered, .claim one .delivered, .renew one, .finish one,
    .release one .delivered, .lease other .delivered]

def prompt : List (Move 2) := firstRuns ++ [.claim other .delivered, .release other .delivered]

def slow : List (Move 2) := firstRuns ++ [.wait 10000000000, .claim other .delivered]

end Sample

namespace Replicas

theorem sample_slot_runs_once : ∃ last, feed (step Sample.job) Sample.replicas Sample.prompt = some last ∧
    last.runs = [(0, 1)] ∧ last.Fenced ∧ last.OncePerSlot := by
  obtain ⟨fenced, once⟩ := slots_run_once Sample.job Sample.replicas _ Sample.replicas_initial Sample.prompt rfl
  exact ⟨_, rfl, rfl, fenced, once (by decide)⟩

/-- The second claim has its effect when the first one has expired. -/
theorem slow_claim_runs_slot_again :
    ∃ last, feed (step Sample.job) Sample.replicas Sample.slow = some last ∧ last.runs = [(0, 1), (0, 3)] ∧
      ¬ last.OncePerSlot := by
  refine ⟨_, rfl, rfl, fun once => ?_⟩
  have twice : (([(0, 1), (0, 3)] : List (Time × Nat)).map Prod.fst).Nodup := once
  exact absurd twice (by decide)

end Replicas

end Gofi.Cronjob
