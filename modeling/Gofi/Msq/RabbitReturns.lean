import Gofi.Msq.RabbitTracker

/-! Every report of a publish is about that publish: the frames of the broker, the
calls and the tracker's goroutine one after the other, in any order. -/

namespace Gofi.Msq.RabbitMQ

open Gofi.Concurrent Gofi.Go

namespace Confirms.Exact

theorem writes (sound : Exact c) (stepped : c.step (.writes publish) = some after) : Exact after := by
  simp only [step, Option.ite_none_right_eq_some, Option.some.injEq] at stepped
  obtain ⟨⟨stage, dry⟩, rfl⟩ := stepped
  refine { sound with
    unborn := fun other late => ?_, wired := fun other returned => ?_,
    apart := sound.apart_of_less rfl fun other outstanding => ?_ }
  · obtain ⟨still, wire⟩ := sound.unborn other late
    have apart : other ≠ publish := by
      rintro rfl
      cases still.symm.trans stage
    exact ⟨still, (Function.update_of_ne apart ..).trans wire⟩
  · by_cases same : other = publish
    · rw [same]
      exact Function.update_self ..
    · exact (Function.update_of_ne same ..).trans (sound.wired other returned)
  · by_cases same : other = publish
    · rw [same]
      exact .inl (sound.pending (by simp [stage]) (by simp [stage]))
    · simpa [Outstanding, same] using outstanding

theorem returnArrives (sound : Exact c) (stepped : c.step (.returnArrives publish) = some after) : Exact after := by
  simp only [step, Option.ite_none_right_eq_some, Option.some.injEq] at stepped
  obtain ⟨⟨onWire, unconfirmed, once, alive, _⟩, rfl⟩ := stepped
  have here : Function.update c.unroutable publish true publish = true := Function.update_self ..
  have others {other : Nat} (apart : other ≠ publish) :
      Function.update c.unroutable publish true other = c.unroutable other := Function.update_of_ne apart ..
  have still {other : Nat} (returned : c.unroutable other = true) :
    Function.update c.unroutable publish true other = true := by
    by_cases same : other = publish
    · rw [same, here]
    · rw [others same, returned]
  have earlier {other : Nat} (confirmed : c.confirmed other = some true) : other ≠ publish := by
    rintro rfl
    cases unconfirmed.symm.trans confirmed
  refine { sound with
    wired := fun other returned => ?_, buffered := fun other member => ?_,
    inHand := fun other held => still (sound.inHand other held), marked := fun other flag =>
      still (sound.marked other flag),
    arrived := fun other returned tracked => ?_, synced := fun other synced => ?_, stopped := fun stopped => ?_,
    exact_ := fun other report left acknowledged => ?_, apart := sound.apart_of_less rfl fun other outstanding => ?_ }
  · by_cases same : other = publish
    · rwa [same]
    · exact sound.wired other ((others same).symm.trans returned)
  · rcases List.mem_append.mp member with old | new
    · exact still (sound.buffered other old)
    · rw [List.mem_singleton.mp new]
      exact here
  · by_cases same : other = publish
    · exact .inl (List.mem_append_right _ (List.mem_singleton.mpr same))
    · rcases sound.arrived other ((others same).symm.trans returned) tracked with member | rest
      · exact .inl (List.mem_append_left _ member)
      · exact .inr rest
  · obtain ⟨outside, empty⟩ := sound.synced other synced
    have apart := earlier (sound.acked other (.inr (.inr synced)))
    exact ⟨by simp [outside, apart], empty⟩
  · cases alive.symm.trans (sound.stopped stopped).2
  · obtain ⟨confirmed, means⟩ := sound.exact_ other report left acknowledged
    exact ⟨confirmed, means.trans (others (earlier confirmed) ▸ Iff.rfl)⟩
  · rcases outstanding with member | wire | member | held
    · exact .inl member
    · exact .inr (.inl wire)
    · rcases List.mem_append.mp member with old | new
      · exact .inr (.inr (.inl old))
      · rw [List.mem_singleton.mp new]
        exact .inr (.inl ⟨onWire, unconfirmed⟩)
    · exact .inr (.inr (.inr held))

theorem confirmArrives {ack : Bool} (sound : Exact c) (stepped : c.step (.confirmArrives publish ack) = some after) :
    Exact after := by
  simp only [step, Option.ite_none_right_eq_some, Option.some.injEq] at stepped
  obtain ⟨⟨onWire, unconfirmed⟩, rfl⟩ := stepped
  have still {other : Nat} (confirmed : c.confirmed other = some true) :
      Function.update c.confirmed publish (some ack) other = some true := by
    have apart : other ≠ publish := by
      rintro rfl
      cases unconfirmed.symm.trans confirmed
    exact (Function.update_of_ne apart ..).trans confirmed
  refine { sound with
    acked := fun other reached => still (sound.acked other reached),
    exact_ := fun other report left acknowledged => ?_, apart := sound.apart_of_less rfl fun other outstanding => ?_ }
  · obtain ⟨confirmed, means⟩ := sound.exact_ other report left acknowledged
    exact ⟨still confirmed, means⟩
  · rcases outstanding with member | ⟨wire, waits⟩ | rest
    · exact .inl member
    · have apart : other ≠ publish := by
        rintro rfl
        simp at waits
      exact .inr (.inl ⟨wire, (Function.update_of_ne apart ..).symm.trans waits⟩)
    · exact .inr (.inr rest)

theorem asks (sound : Exact c) (stepped : c.step (.asks publish) = some after) : Exact after := by
  simp only [step, Option.ite_none_right_eq_some, Option.some.injEq] at stepped
  obtain ⟨⟨stage, selecting⟩, rfl⟩ := stepped
  have syncing : Exact (c.setStage publish .syncing) :=
    sound.setStage (by simp [stage]) (by simp [stage]) (by simp [selecting, Runner.asker])
      (fun _ => sound.acked publish (.inl stage)) (by simp) (by simp)
  refine syncing.setRunner ?_ (fun other asked => ?_) (by simp)
  · simp [Confirms.setStage, selecting, Runner.inHand]
  · cases asked
    exact Function.update_self ..

theorem forgets (sound : Exact c) (ended : c.stage publish = .reported report) : Exact { c with
    pending := Function.update c.pending (c.ids publish) ((c.pending (c.ids publish)).erase publish) } := by
  have mem_of {key : Str} {other : Nat}
      (member : other ∈ Function.update c.pending (c.ids publish) ((c.pending (c.ids publish)).erase publish) key) :
      other ∈ c.pending key := by
    by_cases same : key = c.ids publish
    · subst same
      rw [Function.update_self] at member
      exact List.mem_of_mem_erase member
    · rwa [Function.update_of_ne same] at member
  refine { sound with
    known := fun key other member => sound.known key other (mem_of member), tracked := fun other => ?_,
    arrived := fun other returned member => sound.arrived other returned (mem_of member),
    apart := sound.apart_of_less rfl fun other outstanding => outstanding.imp_left mem_of }
  rcases sound.tracked other with early | reported | member
  · exact .inl early
  · exact .inr (.inl reported)
  · by_cases same : other = publish
    · exact .inr (.inl ⟨report, same ▸ ended⟩)
    · refine .inr (.inr ?_)
      by_cases shared : c.ids other = c.ids publish
      · have kept := (List.mem_erase_of_ne same).mpr (shared ▸ member)
        simpa [shared] using kept
      · simpa [shared] using member

theorem untracks (sound : Exact c) (stepped : c.step (.untracks publish) = some after) : Exact after := by
  simp only [step] at stepped
  split at stepped <;> cases stepped
  rename_i report stage
  have reported : Exact (c.setStage publish (.reported report)) := by
    refine sound.setStage (by simp [stage]) (by simp [stage]) (sound.idle (by simp [stage])) nofun nofun ?_
    rintro other (same | same)
    · cases same
    · cases same
      exact sound.exact_ publish report (.inl stage)
  exact reported.forgets (Function.update_self ..)

theorem takes {later : Runner} (sound : Exact c) (buffer : c.buffer = ret :: rest) (empty : c.runner.inHand = none)
    (holds : later.inHand = some ret) (same : later.asker = c.runner.asker) (goesOn : later ≠ .stopped) :
    Exact { c with buffer := rest, runner := later } := by
  have first : ret ∈ c.buffer := by simp [buffer]
  have inside {other : Nat} (member : other ∈ rest) : other ∈ c.buffer := by simp [buffer, member]
  refine { sound with
    buffered := fun other member => sound.buffered other (inside member), inHand := fun other held => ?_,
    arrived := fun other returned tracked => ?_, asker := fun other asks => sound.asker other (same ▸ asks),
    synced := fun other synced => ?_, stopped := fun stopped => absurd stopped goesOn,
    apart := sound.apart_of_less rfl fun other outstanding => ?_ }
  · cases holds.symm.trans held
    exact sound.buffered ret first
  · rcases sound.arrived other returned tracked with member | held | flag
    · rcases List.mem_cons.mp (buffer ▸ member) with rfl | later
      · exact .inr (.inl holds)
      · exact .inl later
    · cases empty.symm.trans held
    · exact .inr (.inr flag)
  · have outside := (sound.synced other synced).1
    refine ⟨fun member => outside (inside member), fun held => ?_⟩
    cases holds.symm.trans held
    exact outside first
  · rcases outstanding with member | wire | member | held
    · exact .inl member
    · exact .inr (.inl wire)
    · exact .inr (.inr (.inl (inside member)))
    · cases holds.symm.trans held
      exact .inr (.inr (.inl first))

theorem receives (sound : Exact c) (stepped : c.step .receives = some after) : Exact after := by
  simp only [step] at stepped
  split at stepped
  · rename_i ret rest buffer selecting
    cases stepped
    exact sound.takes buffer (by rw [selecting]; rfl) rfl (by rw [selecting]; rfl) nofun
  · rename_i ret rest asking buffer draining
    cases stepped
    exact sound.takes buffer (by rw [draining]; rfl) rfl (by rw [draining]; rfl) nofun
  · cases stepped

theorem drained (sound : Exact c) (stepped : c.step .drained = some after) : Exact after := by
  simp only [step] at stepped
  split at stepped
  · rename_i asking runner
    simp only [Option.ite_none_right_eq_some, Option.some.injEq] at stepped
    obtain ⟨empty, rfl⟩ := stepped
    have waits : c.stage asking = .syncing := sound.asker asking (by rw [runner]; rfl)
    have idle : (if c.closed then Runner.stopped else .selecting).inHand = none ∧
        (if c.closed then Runner.stopped else .selecting).asker = none := by
      cases c.closed <;> exact ⟨rfl, rfl⟩
    have goesOn : Exact { c with runner := if c.closed then .stopped else .selecting } := by
      refine sound.setRunner (by rw [idle.1, runner]; rfl) (fun other asks => ?_) fun stops => ⟨empty, ?_⟩
      · cases idle.2.symm.trans asks
      · cases closed : c.closed with
        | false => simp [closed] at stops
        | true => rfl
    refine goesOn.setStage (by simp [waits]) (by simp [waits]) (by simp [idle.2]) (fun _ => ?_) (fun _ => ?_) nofun
    · exact sound.acked asking (.inr (.inl waits))
    · simp [empty, idle.1]
  · cases stepped

theorem closes (sound : Exact c) : Exact { c with closed := true } :=
  { sound with stopped := fun stopped => ⟨(sound.stopped stopped).1, rfl⟩ }

theorem stops (sound : Exact c) (stepped : c.step .stops = some after) : Exact after := by
  simp only [step, Option.ite_none_right_eq_some, Option.some.injEq] at stepped
  obtain ⟨⟨selecting, empty, closed⟩, rfl⟩ := stepped
  exact sound.setRunner (by rw [selecting]; rfl) nofun fun _ => ⟨empty, closed⟩

theorem returned_iff (sound : Exact c) (synced : c.stage publish = .synced) :
    c.returned publish = true ↔ c.unroutable publish = true := by
  refine ⟨sound.marked publish, fun unroutable => ?_⟩
  obtain ⟨notBuffered, notInHand⟩ := sound.synced publish synced
  have tracked : publish ∈ c.pending (c.ids publish) := sound.pending (by simp [synced]) (by simp [synced])
  rcases sound.arrived publish unroutable tracked with member | hand | returned
  · exact absurd member notBuffered
  · exact absurd hand notInHand
  · exact returned

theorem reads (sound : Exact c) (stepped : c.step (.reads publish) = some after) : Exact after := by
  simp only [step, Option.ite_none_right_eq_some, Option.some.injEq] at stepped
  obtain ⟨synced, rfl⟩ := stepped
  refine sound.setStage (by simp [synced]) (by simp [synced]) (sound.idle (by simp [synced])) (by simp) (by simp) ?_
  intro report leaves acknowledged
  refine ⟨sound.acked publish (.inr (.inr synced)), ?_⟩
  rw [← sound.returned_iff synced]
  cases returned : c.returned publish <;> simp [returned] at leaves <;> simp [← leaves]

theorem step (sound : Exact c) (fresh : c.TracksApart move) (stepped : c.step move = some after) : Exact after := by
  cases move with
  | tracks id => exact sound.tracks fresh stepped
  | writes publish => exact sound.writes stepped
  | publishReturns publish =>
    simp only [Confirms.step, Option.ite_none_right_eq_some, Option.some.injEq] at stepped
    obtain ⟨⟨stage, _⟩, rfl⟩ := stepped
    exact sound.setStage (by simp [stage]) (by simp [stage]) (sound.idle (by simp [stage])) (by simp) (by simp)
      (by simp)
  | publishFails publish =>
    simp only [Confirms.step, Option.ite_none_right_eq_some, Option.some.injEq] at stepped
    obtain ⟨⟨stage, _⟩, rfl⟩ := stepped
    exact sound.fails (.inl stage)
  | returnArrives publish => exact sound.returnArrives stepped
  | confirmArrives publish ack => exact sound.confirmArrives stepped
  | waitEnds publish =>
    simp only [Confirms.step, Option.ite_none_right_eq_some] at stepped
    obtain ⟨stage, stepped⟩ := stepped
    split at stepped
    · rename_i ack
      cases stepped
      exact sound.setStage (by simp [stage]) (by simp [stage]) (sound.idle (by simp [stage])) (fun _ => ack) (by simp)
        (by simp)
    · cases stepped
      exact sound.fails (.inr stage)
    · cases stepped
  | waitGivenUp publish =>
    simp only [Confirms.step, Option.ite_none_right_eq_some, Option.some.injEq] at stepped
    obtain ⟨stage, rfl⟩ := stepped
    exact sound.fails (.inr stage)
  | asks publish => exact sound.asks stepped
  | seesStopped publish =>
    simp only [Confirms.step, Option.ite_none_right_eq_some, Option.some.injEq] at stepped
    obtain ⟨⟨stage, runner⟩, rfl⟩ := stepped
    refine sound.setStage (by simp [stage]) (by simp [stage]) (sound.idle (by simp [stage]))
      (fun _ => sound.acked publish (.inl stage)) (fun _ => ?_) (by simp)
    simp [(sound.stopped runner).1, runner, Runner.inHand]
  | reads publish => exact sound.reads stepped
  | untracks publish => exact sound.untracks stepped
  | receives => exact sound.receives stepped
  | matchesReturn =>
    simp only [Confirms.step] at stepped
    split at stepped
    · rename_i ret runner
      cases stepped
      exact sound.matched (by simp [runner, Runner.inHand]) rfl (by simp [runner, Runner.asker]) (by simp)
    · rename_i ret asking runner
      cases stepped
      exact sound.matched (by simp [runner, Runner.inHand]) rfl (by simp [runner, Runner.asker]) (by simp)
    · cases stepped
  | drained => exact sound.drained stepped
  | closes =>
    cases stepped
    exact sound.closes
  | stops => exact sound.stops stepped

end Confirms.Exact

open Confirms

/-- However publishes, frames of the broker and the tracker interleave, as long as
no publish is tracked while another one with its message id is outstanding, a
publish whose wait saw the ack reports `ErrUnroutable` if and only if the broker
returned that very publish. -/
theorem publish_results_are_exact (moves : List Confirms.Move) (c : Confirms)
    (apart : Along Confirms.step TracksApart Confirms.start moves)
    (run : feed Confirms.step Confirms.start moves = some c) (publish : Nat) (report : Report)
    (reported : c.stage publish = .reported report) (acknowledged : report ≠ .failed) :
    report = .unroutable ↔ c.unroutable publish = true := by
  have sound :=
    apart.invariant Exact (fun c move after sound fresh stepped => sound.step fresh stepped) Exact.start run
  exact (sound.exact_ publish report (.inr reported) acknowledged).2

namespace Sample

def inFlight (first second : Str) : List Confirms.Move :=
  [.tracks first, .tracks second, .writes 0, .writes 1, .publishReturns 0, .publishReturns 1, .returnArrives 1,
    .confirmArrives 0 true, .confirmArrives 1 true, .receives, .matchesReturn,
    .waitEnds 0, .asks 0, .drained, .reads 0, .untracks 0, .waitEnds 1, .asks 1, .drained, .reads 1, .untracks 1]

end Sample

theorem sample_reports_are_exact : ∃ c,
    feed Confirms.step Confirms.start (Sample.inFlight (ascii "a") (ascii "b")) = some c ∧
    c.stage 1 = .reported .unroutable ∧ c.unroutable 1 = true :=
  ⟨_, rfl, rfl,
    (publish_results_are_exact (Sample.inFlight (ascii "a") (ascii "b")) _ (by decide) rfl 1 .unroutable rfl
    (by decide)).mp rfl⟩

/-- With one message id in flight twice, the first publish reports that it was
returned, which it was not, and the second that all is well. -/
theorem return_blames_another_publish : ∃ c,
    feed Confirms.step Confirms.start (Sample.inFlight (ascii "a") (ascii "a")) = some c ∧
    c.stage 0 = .reported .unroutable ∧ c.unroutable 0 = false ∧
    c.stage 1 = .reported .ok ∧ c.unroutable 1 = true :=
  ⟨_, rfl, rfl, rfl, rfl, rfl⟩

end Gofi.Msq.RabbitMQ
