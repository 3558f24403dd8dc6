import Mathlib.Algebra.Order.Ring.Int
import Mathlib.Tactic.Positivity

/-! `worker.Backoff`: the delays of a consumer that tries again and again, in nanoseconds. -/

namespace Gofi.Msq

structure Limits where
  min : Int
  max : Int
  positive : 0 < min
  ordered : min ≤ max
  bounded : max < 2 ^ 63

structure Backoff extends Limits where
  attempt : Int

namespace Backoff

def delay (b : Backoff) : Int :=
  let d := (b.min * 2 ^ (Min.min b.attempt.toNat 30)).bmod (2 ^ 64)
  if d ≤ 0 ∨ d > b.max then b.max else d

/-- `Next`, for what `rand.N` returns; a shift by a negative count panics. -/
def next (b : Backoff) (jitter : Int) : Option (Int × Backoff) :=
  if b.attempt < 0 then none
  else some (b.delay.tdiv 2 + jitter, { b with attempt := (b.attempt + 1).bmod (2 ^ 64) })

end Backoff

namespace Limits

def calls (limits : Limits) : List Int → Option Backoff
  | [] => some { limits with attempt := 0 }
  | jitter :: earlier => (limits.calls earlier).bind fun b => (b.next jitter).map Prod.snd

/-- The delay after so many calls, in numbers that do not wrap around. -/
def unbounded (limits : Limits) (count : Nat) : Int := limits.min * 2 ^ (Min.min count 30)

def asked (limits : Limits) (count : Nat) : Int := Min.min (limits.unbounded count) limits.max

/-- The shifted minimum, if it is over the maximum, does not wrap around to a positive
number below the maximum. -/
def Fits (limits : Limits) (count : Nat) : Prop :=
  limits.unbounded count ≤ limits.max ∨ limits.unbounded count % 2 ^ 64 = 0 ∨
    2 ^ 63 ≤ limits.unbounded count % 2 ^ 64 ∨ limits.max ≤ limits.unbounded count % 2 ^ 64

variable (limits : Limits)

theorem calls_of_few (few : earlier.length < 2 ^ 63) :
    limits.calls earlier = some { limits with attempt := earlier.length } := by
  induction earlier with
  | nil => rfl
  | cons jitter earlier ih =>
    rw [List.length_cons] at few
    have started : ¬ (earlier.length : Int) < 0 := by omega
    have counted : ((earlier.length : Int) + 1).bmod (2 ^ 64) = earlier.length + 1 :=
      Int.bmod_eq_of_le (by omega) (by omega)
    rw [calls, ih (by omega), Option.bind_some, Backoff.next, if_neg started, Option.map_some, counted]
    simp

theorem next_of_many (many : 2 ^ 63 ≤ earlier.length)
    (called : limits.calls earlier = some b) (jitter : Int) : b.next jitter = none := by
  suffices negative : b.attempt < 0 by simp [Backoff.next, negative]
  induction earlier generalizing b with
  | nil => simp at many
  | cons last earlier ih =>
    obtain ⟨before, ran, stepped⟩ := Option.bind_eq_some_iff.mp called
    obtain ⟨⟨_, _⟩, answered, rfl⟩ := Option.map_eq_some_iff.mp stepped
    rw [List.length_cons] at many
    rcases Nat.lt_or_ge earlier.length (2 ^ 63) with few | more
    · rw [limits.calls_of_few few] at ran
      cases ran
      unfold Backoff.next at answered
      split at answered <;> cases answered
      simp only [Int.bmod_def]
      omega
    · simp [Backoff.next, ih more ran] at answered

theorem delay_eq_asked_iff (count : Nat) :
    ({ limits with attempt := (count : Int) } : Backoff).delay = limits.asked count ↔ limits.Fits count := by
  have positive : 0 < limits.unbounded count := Int.mul_pos limits.positive (by positivity)
  have bounded := limits.bounded
  have same : limits.min * 2 ^ (Min.min (count : Int).toNat 30) = limits.unbounded count := rfl
  simp only [Backoff.delay, asked, Fits, same, Int.bmod_def]
  omega

theorem asked_mono (count : Nat) : limits.asked count ≤ limits.asked (count + 1) := by
  have doubled : limits.unbounded count ≤ limits.unbounded (count + 1) :=
    Int.mul_le_mul_of_nonneg_left (pow_le_pow_right₀ (by decide) (by omega)) limits.positive.le
  exact min_le_min_right _ doubled

/-- The next call waits for the delay that is asked for, or at least half of it, up to
the maximum, and no longer than the call after it is to. -/
def KeepsBounds (earlier : List Int) : Prop :=
  ∃ b, limits.calls earlier = some b ∧ b.delay = limits.asked earlier.length ∧
    limits.asked earlier.length ≤ limits.asked (earlier.length + 1) ∧
    ∀ jitter, 0 ≤ jitter → jitter < b.delay.tdiv 2 + 1 → ∃ delay after, b.next jitter = some (delay, after) ∧
      limits.asked earlier.length / 2 ≤ delay ∧ delay ≤ limits.asked earlier.length ∧ delay ≤ limits.max

/-- After any calls the next delay keeps its bounds exactly while the attempts can be
counted and the shift does no harm. -/
theorem backoff_keeps_bounds_iff (earlier : List Int) :
    limits.KeepsBounds earlier ↔ earlier.length < 2 ^ 63 ∧ limits.Fits earlier.length := by
  have positive : 0 < limits.asked earlier.length :=
    lt_min (Int.mul_pos limits.positive (by positivity)) (limits.positive.trans_le limits.ordered)
  have most : limits.asked earlier.length ≤ limits.max := min_le_right _ _
  have half : (limits.asked earlier.length).tdiv 2 = limits.asked earlier.length / 2 :=
    Int.tdiv_eq_ediv_of_nonneg positive.le
  rw [← limits.delay_eq_asked_iff]
  constructor
  · rintro ⟨b, called, same, -, within⟩
    obtain ⟨delay, after, answered, _⟩ := within 0 (Int.le_refl _) (by rw [same, half]; omega)
    have few : earlier.length < 2 ^ 63 := by
      by_contra many
      cases (limits.next_of_many (Nat.not_lt.mp many) called 0).symm.trans answered
    cases (limits.calls_of_few few).symm.trans called
    exact ⟨few, same⟩
  · rintro ⟨few, same⟩
    refine ⟨_, limits.calls_of_few few, same, limits.asked_mono _, fun jitter low high => ?_⟩
    refine ⟨_, _, if_neg (by simp), ?_⟩
    rw [same, half] at high
    rw [same, half]
    omega

end Limits

/-- The third delay for a minimum of about 146 years is four nanoseconds. -/
theorem shifted_minimum_wraps_around : ∃ limits : Limits, limits.max = 2 ^ 63 - 1 ∧
    (limits.calls [0, 0]).map Backoff.delay = some 4 ∧ limits.asked 2 = 2 ^ 63 - 1 :=
  ⟨⟨2 ^ 62 + 1, 2 ^ 63 - 1, by decide, by decide, by decide⟩, rfl, by decide, by decide⟩

end Gofi.Msq
