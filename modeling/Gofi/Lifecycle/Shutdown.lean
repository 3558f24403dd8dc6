import Gofi.Lifecycle.Service
import Mathlib.Data.List.Basic

/-! Who closes the resources of a service. The closing step belongs to one call at a
time, `ListenAndServe` or a `Shutdown` that finds it not running, as long as no two
calls of `Shutdown` find that at once. -/

namespace Gofi.Lifecycle

open Gofi.Concurrent

namespace Ledger

def Untouched (count : Nat) (ledger : Ledger) : Prop := ledger = ⟨List.range count, [], []⟩

/-- Every closer was called and has ended, the last one registered first. -/
def Released (count : Nat) (ledger : Ledger) : Prop :=
  ledger = ⟨[], (List.range count).reverse, (List.range count).reverse⟩

end Ledger

namespace Closing

def working : Closing → Bool
  | observing | taken _ | between _ _ | inside _ _ _ => true
  | flushing _ | finished _ | unwound => false

/-- The closers a call has still to run are those that were not called yet. -/
def Fits (count : Nat) (ledger : Ledger) : Closing → Prop
  | observing => ledger.Untouched count ∨ ledger.Released count
  | taken closers => closers = ledger.closers ∧ (ledger.Untouched count ∨ ledger.Released count)
  | between left _ =>
    ledger.closers = [] ∧ ledger.ended = ledger.began ∧ ledger.began ++ left = (List.range count).reverse
  | inside closer left _ =>
    ledger.closers = [] ∧ ledger.ended ++ [closer] = ledger.began ∧ ledger.began ++ left = (List.range count).reverse
  | flushing _ | finished _ => ledger.Released count
  | unwound => False

variable {closing : Closing}

theorem Fits.released (fits : closing.Fits count ledger) (spent : closing.working = false) :
    ledger.Released count := by
  cases closing <;> first | exact fits | exact fits.elim | cases spent

theorem Fits.step (fits : closing.Fits count ledger) (answer : Answer) (calm : answer ≠ .panics) :
    (closing.step ledger answer).2.Fits count (closing.step ledger answer).1 := by
  match closing, fits with
  | observing, fits => exact ⟨rfl, fits⟩
  | taken _, ⟨rfl, .inl untouched⟩ => subst untouched; exact ⟨rfl, rfl, by simp [Closing.step]⟩
  | taken _, ⟨rfl, .inr released⟩ => subst released; exact ⟨rfl, rfl, by simp [Closing.step]⟩
  | between [] _, ⟨closers, ended, left⟩ =>
    obtain ⟨_, _, _⟩ := ledger
    simp only [List.append_nil] at closers ended left
    subst closers ended left
    rfl
  | between (closer :: left) _, ⟨closers, ended, rest⟩ =>
    exact ⟨closers, congrArg (· ++ [closer]) ended, by simpa [Closing.step] using rest⟩
  | inside closer left _, ⟨closers, ended, rest⟩ =>
    simp only [Closing.step, if_neg calm]
    exact ⟨closers, ended, rest⟩
  | flushing _, released | finished _, released => exact released

theorem Fits.kept (fits : closing.Fits count ledger) (released : ledger.Released count)
    (answer : Answer) : (closing.step ledger answer).1 = ledger := by
  subst released
  match closing, fits with
  | observing, _ | taken _, _ | between [] _, _ | flushing _, _ | finished _, _ => rfl
  | between (closer :: left) _, ⟨_, _, rest⟩ => simp at rest
  | inside closer left _, ⟨_, ended, _⟩ => simp at ended

theorem Fits.turns (fits : closing.Fits count ledger) :
    ledger.began <+: (List.range count).reverse ∧ ledger.ended <+: ledger.began ∧
      ledger.began.length ≤ ledger.ended.length + 1 := by
  match closing, fits with
  | observing, .inl untouched | taken _, ⟨_, .inl untouched⟩ => subst untouched; simp
  | observing, .inr released | taken _, ⟨_, .inr released⟩ | flushing _, released | finished _, released =>
    subst released; exact ⟨List.prefix_rfl, List.prefix_rfl, by simp⟩
  | between left _, ⟨_, ended, rest⟩ => exact ⟨⟨left, rest⟩, ended ▸ List.prefix_rfl, by simp [ended]⟩
  | inside closer left _, ⟨_, ended, rest⟩ => exact ⟨⟨left, rest⟩, ⟨[closer], ended⟩, by simp [← ended]⟩

end Closing

structure Books (count : Nat) (ledger : Ledger) (closings : Option Nat → Option Closing) : Prop where
  fits : ∀ owner closing, closings owner = some closing → closing.Fits count ledger
  single : ∀ owner other closing rival, closings owner = some closing → closings other = some rival →
    closing.working = true → rival.working = true → owner = other
  idle : (∀ owner closing, closings owner = some closing → closing.working = false) →
    ledger.Untouched count ∨ ledger.Released count

theorem update_eq [DecidableEq ι] {f : ι → β} (found : Function.update f place value other = item) :
    (other = place ∧ value = item) ∨ (other ≠ place ∧ f other = item) := by
  by_cases same : other = place
  · subst same
    exact .inl ⟨rfl, by simpa using found⟩
  · exact .inr ⟨same, by simpa [same] using found⟩

namespace Books

theorem start (count : Nat) : Books count ⟨List.range count, [], []⟩ fun _ => none where
  fits _ _ found := by cases found
  single _ _ _ _ found := by cases found
  idle _ := .inl rfl

theorem opens (books : Books count ledger closings)
    (calm : ∀ owner closing, closings owner = some closing → closing.working = false) (owner : Option Nat) :
    Books count ledger (Function.update closings owner (some .observing)) where
  fits other closing found := by
    rcases update_eq found with ⟨_, same⟩ | ⟨_, before⟩
    · cases same
      exact books.idle calm
    · exact books.fits other closing before
  single other third closing rival found present working busy := by
    rcases update_eq found with ⟨here, _⟩ | ⟨_, before⟩
    · rcases update_eq present with ⟨there, _⟩ | ⟨_, elsewhere⟩
      · exact here.trans there.symm
      · rw [calm third rival elsewhere] at busy
        cases busy
    · rw [calm other closing before] at working
      cases working
  idle spent := by cases spent owner .observing (Function.update_self ..)

theorem steps (books : Books count ledger closings) (found : closings owner = some closing)
    (answer : Answer) (calm : answer ≠ .panics) : Books count (closing.step ledger answer).1
      (Function.update closings owner (some (closing.step ledger answer).2)) where
  fits other rival present := by
    have fits := books.fits owner closing found
    rcases update_eq present with ⟨_, same⟩ | ⟨apart, before⟩
    · cases same
      exact fits.step answer calm
    · have rivals := books.fits other rival before
      cases busy : rival.working with
      | false => rwa [fits.kept (rivals.released busy) answer]
      | true =>
        cases spent : closing.working with
        | true => exact absurd (books.single other owner rival closing before found busy spent) apart
        | false => rwa [fits.kept (fits.released spent) answer]
  single other third rival last present here busy working := by
    have onward : (closing.step ledger answer).2.working = true → closing.working = true := by
      cases closing <;> simp [Closing.step, Closing.working]
    rcases update_eq present with ⟨same, new⟩ | ⟨apart, before⟩ <;>
      rcases update_eq here with ⟨alike, fresh⟩ | ⟨aside, earlier⟩
    · exact same.trans alike.symm
    · cases new
      exact same ▸ books.single owner third closing last found earlier (onward busy) working
    · cases fresh
      exact alike ▸ books.single other owner rival closing before found busy (onward working)
    · exact books.single other third rival last before earlier busy working
  idle spent := by
    have done := spent owner _ (Function.update_self ..)
    exact .inr (((books.fits owner closing found).step answer calm).released done)

theorem leaves (books : Books count ledger closings) (found : closings owner = some closing)
    (spent : closing.working = false) : Books count ledger (Function.update closings owner none) where
  fits other rival present := by
    rcases update_eq present with ⟨_, same⟩ | ⟨_, before⟩
    · cases same
    · exact books.fits other rival before
  single other third rival last present here := by
    rcases update_eq present with ⟨_, same⟩ | ⟨_, before⟩
    · cases same
    · rcases update_eq here with ⟨_, same⟩ | ⟨_, earlier⟩
      · cases same
      · exact books.single other third rival last before earlier
  idle _ := .inr ((books.fits owner closing found).released spent)

theorem turns (books : Books count ledger closings) :
    ledger.began <+: (List.range count).reverse ∧ ledger.ended <+: ledger.began ∧
      ledger.began.length ≤ ledger.ended.length + 1 := by
  by_cases busy : ∃ owner closing, closings owner = some closing
  · obtain ⟨owner, closing, found⟩ := busy
    exact (books.fits owner closing found).turns
  · have rest : Closing.observing.Fits count ledger :=
      books.idle fun owner closing found => absurd ⟨owner, closing, found⟩ busy
    exact rest.turns

end Books

def Listening.closing? : Listening → Option Closing
  | .closing _ stage => some stage
  | _ => none

def Listening.locked : Listening → Bool
  | uncalled | called | refused => false
  | _ => true

def ShutdownCall.closing? : ShutdownCall → Option Closing
  | .closing stage => some stage
  | _ => none

namespace Service

def closings (m : Service) : Option Nat → Option Closing
  | none => m.listening.closing?
  | some call => (m.calls call).closing?

variable {after m : Service}

theorem closings_listening (calls : after.calls = m.calls) :
    after.closings = Function.update m.closings none after.listening.closing? := by
  funext owner
  cases owner with
  | none => rfl
  | some call => simp [closings, calls]

theorem closings_call (stage : ShutdownCall) (listening : after.listening = m.listening)
    (calls : after.calls = Function.update m.calls call stage) :
    after.closings = Function.update m.closings (some call) stage.closing? := by
  funext owner
  cases owner with
  | none => simp [closings, listening]
  | some other =>
    by_cases same : other = call
    · subst same
      simp [closings, calls]
    · simp [closings, calls, same]

inductive Effect (m : Service) (move : Move) (after : Service) : Prop where
  | quiet (ledger : after.ledger = m.ledger) (closings : after.closings = m.closings)
  | opens (owner : Option Nat) (ledger : after.ledger = m.ledger)
      (closings : after.closings = Function.update m.closings owner (some .observing))
      (alone : (owner = none ∧ m.listening.locked = true ∧ m.listening.closing? = none) ∨
        ∃ call, move = .enters call ∧ m.stop = false)
  | steps (owner : Option Nat) (closing : Closing) (answer : Answer) (found : m.closings owner = some closing)
      (ledger : after.ledger = (closing.step m.ledger answer).1)
      (closings : after.closings = Function.update m.closings owner (some (closing.step m.ledger answer).2))
      (how : move = .closes answer ∨ ∃ call, move = .releases call answer)
  | leaves (owner : Option Nat) (closing : Closing) (found : m.closings owner = some closing)
      (spent : closing.working = false) (ledger : after.ledger = m.ledger)
      (closings : after.closings = Function.update m.closings owner none)

theorem Effect.of_listening (calls : after.calls = m.calls) (ledger : after.ledger = m.ledger)
    (same : after.listening.closing? = m.listening.closing?) : Effect m move after := by
  refine .quiet ledger ?_
  rw [closings_listening calls, same]
  exact Function.update_eq_self none m.closings

theorem Effect.of_call (listening : after.listening = m.listening)
    (calls : after.calls = Function.update m.calls call stage) (ledger : after.ledger = m.ledger)
    (same : stage.closing? = (m.calls call).closing?) : Effect m move after := by
  refine .quiet ledger ?_
  rw [closings_call stage listening calls, same]
  exact Function.update_eq_self (some call) m.closings

theorem Effect.of_closing (calls : after.calls = m.calls) (ledger : after.ledger = m.ledger)
    (locked : m.listening.locked = true) (before : m.listening.closing? = none)
    (opened : after.listening.closing? = some .observing) : Effect m move after :=
  .opens none ledger (opened ▸ closings_listening calls) (.inl ⟨rfl, locked, before⟩)

theorem effect (stepped : m.step move = some after) : Effect m move after := by
  cases move <;> simp only [step] at stepped
  case listens | locks | spawns | stops | signals | expires | receives =>
    (repeat' split at stepped) <;> cases stepped <;> exact .of_listening rfl rfl (by simp [*, Listening.closing?])
  case begins | ends =>
    split at stepped <;> cases stepped
    exact .of_listening rfl rfl rfl
  case observes =>
    split at stepped
    · rename_i ready
      split at stepped <;> cases stepped
      · exact .of_closing rfl rfl (by simp [ready.1, Listening.locked]) (by simp [ready.1, Listening.closing?]) rfl
      · exact .of_listening rfl rfl (by simp [ready.1, Listening.closing?])
    · cases stepped
  case timesOut | collected =>
    (repeat' split at stepped) <;> cases stepped
    all_goals exact .of_closing rfl rfl (by simp [*, Listening.locked]) (by simp [*, Listening.closing?]) rfl
  case closes answer =>
    split at stepped <;> cases stepped
    all_goals
      rename_i stage
      have found := congrArg Listening.closing? stage
    · exact .leaves none _ found rfl rfl (closings_listening (m := m) rfl)
    · exact .leaves none _ found rfl rfl (closings_listening (m := m) rfl)
    · exact .steps none _ answer found rfl (closings_listening (m := m) rfl) (.inl rfl)
  case shutsDown | cancels | abandons | asks | awaits =>
    (repeat' split at stepped) <;> cases stepped <;> exact .of_call rfl rfl rfl (by grind [ShutdownCall.closing?])
  case enters call =>
    split at stepped
    · rename_i stage
      split at stepped <;> cases stepped
      · exact .of_call rfl rfl rfl (by simp [stage, ShutdownCall.closing?])
      · rename_i absent
        exact .opens (some call) rfl (closings_call (.closing .observing) rfl rfl)
          (.inr ⟨call, rfl, by simpa using absent⟩)
    · cases stepped
  case releases call answer =>
    split at stepped <;> cases stepped
    all_goals
      rename_i stage
      have found : m.closings (some call) = _ := congrArg ShutdownCall.closing? stage
    · exact .leaves _ _ found rfl rfl (closings_call (.returned _) rfl rfl)
    · exact .leaves _ _ found rfl rfl (closings_call (.returned _) rfl rfl)
    · exact .steps _ _ answer found rfl (closings_call (.closing _) rfl rfl) (.inr ⟨call, rfl⟩)

end Service

end Gofi.Lifecycle
