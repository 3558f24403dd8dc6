import Gofi.Msq.RabbitConfirms
import Mathlib.Data.List.Basic

/-! What holds of the publishes of a channel and its tracker as long as publishes
with one message id are kept apart: how a publish and the tracker go on. -/

namespace Gofi.Msq.RabbitMQ.Confirms

open Gofi.Go

structure Exact (c : Confirms) : Prop where
  known : ∀ id, ∀ publish ∈ c.pending id, c.ids publish = id ∧ publish < c.count
  unborn : ∀ publish, c.count ≤ publish → c.stage publish = .unborn ∧ c.onWire publish = false
  wired : ∀ publish, c.unroutable publish = true → c.onWire publish = true
  buffered : ∀ publish ∈ c.buffer, c.unroutable publish = true
  inHand : ∀ publish, c.runner.inHand = some publish → c.unroutable publish = true
  tracked : ∀ publish, c.stage publish = .unborn ∨ (∃ report, c.stage publish = .reported report) ∨
    publish ∈ c.pending (c.ids publish)
  marked : ∀ publish, c.returned publish = true → c.unroutable publish = true
  arrived : ∀ publish, c.unroutable publish = true → publish ∈ c.pending (c.ids publish) →
    publish ∈ c.buffer ∨ c.runner.inHand = some publish ∨ c.returned publish = true
  acked : ∀ publish, c.stage publish = .acked ∨ c.stage publish = .syncing ∨ c.stage publish = .synced →
    c.confirmed publish = some true
  asker : ∀ publish, c.runner.asker = some publish → c.stage publish = .syncing
  synced : ∀ publish, c.stage publish = .synced → publish ∉ c.buffer ∧ c.runner.inHand ≠ some publish
  stopped : c.runner = .stopped → c.buffer = [] ∧ c.closed = true
  exact_ : ∀ publish report, c.stage publish = .leaving report ∨ c.stage publish = .reported report →
    report ≠ .failed → c.confirmed publish = some true ∧ (report = .unroutable ↔ c.unroutable publish = true)
  apart : ∀ one other, c.Outstanding one → c.Outstanding other → c.ids one = c.ids other → one = other

theorem Exact.start : Confirms.start.Exact := by
  constructor <;> simp [Confirms.start, Outstanding, Runner.inHand, Runner.asker]

namespace Exact

theorem apart_of_less {after : Confirms} (sound : Exact c) (ids : after.ids = c.ids)
    (less : ∀ publish, after.Outstanding publish → c.Outstanding publish) (one other : Nat)
    (first : after.Outstanding one) (second : after.Outstanding other) (same : after.ids one = after.ids other) :
    one = other := by
  rw [ids] at same
  exact sound.apart one other (less one first) (less other second) same

theorem lt_of_unroutable (sound : Exact c) (returned : c.unroutable publish = true) : publish < c.count := by
  by_contra late
  have dry := (sound.unborn publish (Nat.not_lt.mp late)).2
  simp [sound.wired publish returned] at dry

theorem lt_of_outstanding (sound : Exact c) (outstanding : c.Outstanding publish) : publish < c.count := by
  rcases outstanding with member | ⟨onWire, _⟩ | member | inHand
  · exact (sound.known _ publish member).2
  · by_contra late
    simp [(sound.unborn publish (Nat.not_lt.mp late)).2] at onWire
  · exact sound.lt_of_unroutable (sound.buffered publish member)
  · exact sound.lt_of_unroutable (sound.inHand publish inHand)

theorem pending (sound : Exact c) (begun : c.stage publish ≠ .unborn)
    (ongoing : ∀ report, c.stage publish ≠ .reported report) : publish ∈ c.pending (c.ids publish) := by
  rcases sound.tracked publish with unborn | ⟨report, reported⟩ | member
  · exact absurd unborn begun
  · exact absurd reported (ongoing report)
  · exact member

theorem setStage {later : Publish} (sound : Exact c) (begun : c.stage publish ≠ .unborn)
    (ongoing : ∀ report, c.stage publish ≠ .reported report) (idle : c.runner.asker ≠ some publish)
    (sees : later = .acked ∨ later = .syncing ∨ later = .synced → c.confirmed publish = some true)
    (drains : later = .synced → publish ∉ c.buffer ∧ c.runner.inHand ≠ some publish)
    (reports : ∀ report, later = .leaving report ∨ later = .reported report → report ≠ .failed →
      c.confirmed publish = some true ∧ (report = .unroutable ↔ c.unroutable publish = true)) :
    Exact (c.setStage publish later) := by
  have here : (c.setStage publish later).stage publish = later := Function.update_self ..
  have others (other : Nat) (apart : other ≠ publish) : (c.setStage publish later).stage other = c.stage other :=
    Function.update_of_ne apart ..
  refine { sound with
    unborn := fun other late => ?_, tracked := fun other => ?_, acked := fun other => ?_,
    asker := fun other asks => ?_,
    synced := fun other => ?_, exact_ := fun other => ?_ }
  · have apart : other ≠ publish := by
      rintro rfl
      exact begun (sound.unborn other late).1
    rw [others other apart]
    exact sound.unborn other late
  · by_cases same : other = publish
    · subst same
      exact .inr (.inr (sound.pending begun ongoing))
    · rw [others other same]
      exact sound.tracked other
  · by_cases same : other = publish
    · rw [same, here]
      exact sees
    · rw [others other same]
      exact sound.acked other
  · have apart : other ≠ publish := by
      rintro rfl
      exact idle asks
    rw [others other apart]
    exact sound.asker other asks
  · by_cases same : other = publish
    · rw [same, here]
      exact drains
    · rw [others other same]
      exact sound.synced other
  · by_cases same : other = publish
    · rw [same, here]
      exact reports
    · rw [others other same]
      exact sound.exact_ other

theorem setRunner {later : Runner} (sound : Exact c) (same : later.inHand = c.runner.inHand)
    (asks : ∀ publish, later.asker = some publish → c.stage publish = .syncing)
    (ends : later = .stopped → c.buffer = [] ∧ c.closed = true) : Exact { c with runner := later } where
  __ := sound
  inHand publish held := sound.inHand publish (same ▸ held)
  arrived publish := by
    rw [same]
    exact sound.arrived publish
  asker := asks
  synced publish := by
    rw [same]
    exact sound.synced publish
  stopped := ends
  apart := sound.apart_of_less rfl fun publish => by
    unfold Outstanding
    rw [same]
    exact id

theorem idle (sound : Exact c) (stage : c.stage publish ≠ .syncing) : c.runner.asker ≠ some publish :=
  fun asks => stage (sound.asker publish asks)

theorem fails (sound : Exact c) (stage : c.stage publish = .tracked ∨ c.stage publish = .waiting) :
    Exact (c.setStage publish (.leaving .failed)) := by
  refine sound.setStage ?_ ?_ (sound.idle ?_) nofun nofun ?_
  · rcases stage with stage | stage <;> simp [stage]
  · rcases stage with stage | stage <;> simp [stage]
  · rcases stage with stage | stage <;> simp [stage]
  · rintro report (same | same) acknowledged
    · cases same
      exact absurd rfl acknowledged
    · cases same

theorem pending_eq (sound : Exact c) (outstanding : c.Outstanding publish)
    (member : other ∈ c.pending (c.ids publish)) : other = publish := by
  obtain ⟨same, _⟩ := sound.known _ other member
  exact sound.apart other publish (.inl (by rwa [same])) outstanding same

theorem returned_matchReturn (sound : Exact c) (outstanding : c.Outstanding ret) (publish : Nat) :
    (c.matchReturn ret).returned publish = true ↔
      c.returned publish = true ∨ publish = ret ∧ ret ∈ c.pending (c.ids ret) := by
  unfold matchReturn
  split
  · rename_i found search
    have member := List.mem_of_find?_eq_some search
    obtain rfl := sound.pending_eq outstanding member
    by_cases same : publish = found
    · subst same
      simp [member]
    · simp [same]
  · rename_i search
    have returned := List.find?_eq_none.mp search
    constructor
    · exact .inl
    · rintro (old | ⟨rfl, member⟩)
      · exact old
      · simpa using returned publish member

private theorem matchReturn_eq (c : Confirms) (ret : Nat) :
    c.matchReturn ret = { c with returned := (c.matchReturn ret).returned } := by
  unfold matchReturn
  split <;> rfl

theorem matched (sound : Exact c) (inHand : c.runner.inHand = some ret) (empty : later.inHand = none)
    (same : later.asker = c.runner.asker) (goesOn : later ≠ .stopped) :
    Exact { c.matchReturn ret with runner := later } := by
  have returned := sound.returned_matchReturn (.inr (.inr (.inr inHand)))
  rw [matchReturn_eq]
  generalize (c.matchReturn ret).returned = flags at returned
  refine { sound with
    inHand := fun publish held => ?_, marked := fun publish flag => ?_,
    arrived := fun publish unroutable tracked => ?_,
    asker := fun publish asks => sound.asker publish (same ▸ asks), synced := fun publish synced => ?_,
    stopped := fun stopped => absurd stopped goesOn, apart := sound.apart_of_less rfl fun publish outstanding => ?_ }
  · rw [empty] at held
    cases held
  · rcases (returned publish).mp flag with old | ⟨rfl, _⟩
    · exact sound.marked publish old
    · exact sound.inHand publish inHand
  · rcases sound.arrived publish unroutable tracked with member | held | old
    · exact .inl member
    · cases inHand.symm.trans held
      exact .inr (.inr ((returned ret).mpr (.inr ⟨rfl, tracked⟩)))
    · exact .inr (.inr ((returned publish).mpr (.inl old)))
  · refine ⟨(sound.synced publish synced).1, ?_⟩
    rw [empty]
    exact nofun
  · rcases outstanding with member | unconfirmed | member | held
    · exact .inl member
    · exact .inr (.inl unconfirmed)
    · exact .inr (.inr (.inl member))
    · exact absurd (empty.symm.trans held) nofun

/-- The next publish, with this message id, is tracked. -/
def tracking (c : Confirms) (id : Str) : Confirms :=
  { c.setStage c.count .tracked with
    count := c.count + 1
    ids := Function.update c.ids c.count id
    pending := Function.update c.pending id (c.pending id ++ [c.count]) }

section Tracking

variable {id : Str}

theorem mem_pending {key : Str} : publish ∈ (tracking c id).pending key ↔
    publish ∈ c.pending key ∨ key = id ∧ publish = c.count := by
  by_cases same : key = id
  · subst same
    simp [tracking]
  · simp [tracking, same]

theorem ids_count : (tracking c id).ids c.count = id := Function.update_self ..

theorem ids_of_ne (apart : publish ≠ c.count) : (tracking c id).ids publish = c.ids publish :=
  Function.update_of_ne apart ..

theorem stage_of_ne (apart : publish ≠ c.count) : (tracking c id).stage publish = c.stage publish :=
  Function.update_of_ne apart ..

theorem stage_before (reached : (tracking c id).stage publish = later) (further : later ≠ .tracked) :
    c.stage publish = later := by
  have apart : publish ≠ c.count := by
    rintro rfl
    exact further (reached.symm.trans (Function.update_self ..))
  exact (stage_of_ne apart).symm.trans reached

theorem outstanding_before (apart : publish ≠ c.count) (outstanding : (tracking c id).Outstanding publish) :
    c.Outstanding publish := by
  rcases outstanding with member | rest
  · rw [ids_of_ne apart] at member
    exact .inl ((mem_pending.mp member).resolve_right fun new => apart new.2)
  · exact .inr rest

theorem apart_tracking (sound : Exact c) (fresh : c.TracksApart (.tracks id)) (one other : Nat)
    (first : (tracking c id).Outstanding one) (second : (tracking c id).Outstanding other)
    (same : (tracking c id).ids one = (tracking c id).ids other) : one = other := by
  by_cases newer : one = c.count
  · by_cases newest : other = c.count
    · rw [newer, newest]
    · have earlier := outstanding_before newest second
      refine absurd earlier (fresh other (sound.lt_of_outstanding earlier) ?_)
      exact (ids_of_ne newest).symm.trans (same.symm.trans (newer ▸ ids_count))
  · by_cases newest : other = c.count
    · have earlier := outstanding_before newer first
      refine absurd earlier (fresh one (sound.lt_of_outstanding earlier) ?_)
      exact (ids_of_ne newer).symm.trans (same.trans (newest ▸ ids_count))
    · exact sound.apart one other (outstanding_before newer first) (outstanding_before newest second)
        ((ids_of_ne newer).symm.trans (same.trans (ids_of_ne newest)))

theorem tracked_tracking (sound : Exact c) (publish : Nat) : (tracking c id).stage publish = .unborn ∨
    (∃ report, (tracking c id).stage publish = .reported report) ∨
      publish ∈ (tracking c id).pending ((tracking c id).ids publish) := by
  by_cases same : publish = c.count
  · exact .inr (.inr (mem_pending.mpr (.inr ⟨same ▸ ids_count, same⟩)))
  · rw [stage_of_ne same, ids_of_ne same]
    rcases sound.tracked publish with early | ended | member
    · exact .inl early
    · exact .inr (.inl ended)
    · exact .inr (.inr (mem_pending.mpr (.inl member)))

theorem tracks (sound : Exact c) (fresh : c.TracksApart (.tracks id)) (stepped : c.step (.tracks id) = some after) :
    Exact after := by
  cases stepped
  change Exact (tracking c id)
  have older {publish : Nat} (returned : c.unroutable publish = true) : publish ≠ c.count :=
    Nat.ne_of_lt (sound.lt_of_unroutable returned)
  refine { sound with
    known := fun key publish member => ?_, unborn := fun publish late => ?_, tracked := sound.tracked_tracking,
    arrived := fun publish returned member => ?_, acked := fun publish reached => ?_, asker := fun publish asks => ?_,
    synced := fun publish synced => sound.synced publish (stage_before synced nofun),
    exact_ := fun publish report left => ?_, apart := sound.apart_tracking fresh }
  · rcases mem_pending.mp member with old | ⟨rfl, rfl⟩
    · obtain ⟨same, known⟩ := sound.known key publish old
      exact ⟨(ids_of_ne (Nat.ne_of_lt known)).trans same, Nat.lt_succ_of_lt known⟩
    · exact ⟨ids_count, Nat.lt_succ_self _⟩
  · obtain ⟨still, wire⟩ := sound.unborn publish (Nat.le_of_succ_le late)
    exact ⟨(stage_of_ne (Nat.ne_of_gt late)).trans still, wire⟩
  · rw [ids_of_ne (older returned)] at member
    rcases mem_pending.mp member with old | ⟨_, same⟩
    · exact sound.arrived publish returned old
    · exact absurd same (older returned)
  · refine sound.acked publish ?_
    rcases reached with reached | reached | reached <;> simp [stage_before reached nofun]
  · have waits := sound.asker publish asks
    have apart : publish ≠ c.count := by
      rintro rfl
      cases (sound.unborn c.count (Nat.le_refl _)).1.symm.trans waits
    exact (stage_of_ne apart).trans waits
  · refine sound.exact_ publish report ?_
    rcases left with left | left <;> simp [stage_before left nofun]

end Tracking

end Exact

end Gofi.Msq.RabbitMQ.Confirms
