import Gofi.Sqln.Transaction
import Mathlib.Algebra.Order.Ring.Int
import Mathlib.Tactic.Positivity

/-! `executeWithRetry`: the delays between its attempts. -/

namespace Gofi.Sqln.Transaction

open Gofi.Go

/-- The argument of `rand.N` is positive, and whatever it returns the delay is neither
negative nor over the maximum, and at least half of what doubling asks for. -/
def ValidDelay (attempt : Nat) : Prop :=
  0 < (backoff attempt).tdiv 2 + 1 ∧ ∀ jitter, 0 ≤ jitter → jitter < (backoff attempt).tdiv 2 + 1 →
    0 ≤ (backoff attempt).tdiv 2 + jitter ∧ (backoff attempt).tdiv 2 + jitter ≤ retryMaxDelay ∧
    (min (retryBaseDelay * 2 ^ attempt) retryMaxDelay : Int) / 2 ≤ (backoff attempt).tdiv 2 + jitter

/-- The loop, from an attempt on, computes the delay after another attempt. -/
inductive Delays (backend : Backend σ) (opts : Options) (ctx : Ctx) (db : Nat) (fn : Body σ) :
    Nat → World σ → Nat → Prop where
  | here {attempt : Nat} (failed : executeTransaction backend opts ctx db fn w = (.returned (some err), after))
    (again : ¬(attempt ≥ opts.maxRetries ∨ ¬isRetryable err)) (outer : ctx.txFor db = none) :
    Delays backend opts ctx db fn attempt w attempt
  | later (here : Delays backend opts ctx db fn attempt w attempt)
    (failed : executeTransaction backend opts ctx db fn w = (.returned (some err), after))
    (drawn : backend.random ((backoff attempt).tdiv 2 + 1) after.outside = (jitter, outside))
    (waited : backend.ended ctx ((backoff attempt).tdiv 2 + jitter) outside = (false, left))
    (onward : Delays backend opts ctx db fn (attempt + 1) { after with outside := left } last) :
    Delays backend opts ctx db fn attempt w last

theorem Delays.lt_maxRetries (delays : Delays backend opts ctx db fn attempt w last) : last < opts.maxRetries := by
  induction delays with
  | here failed again =>
    rw [not_or] at again
    omega
  | later here failed drawn waited onward _ ih => exact ih

private theorem backoff_eq (early : attempt ≤ 38) :
    backoff attempt = min (20000000 * 2 ^ attempt : Int) 1000000000 := by
  have bound : (2 : Int) ^ attempt ≤ 2 ^ 38 := pow_le_pow_right₀ (by decide) early
  have positive : (0 : Int) < 2 ^ attempt := by positivity
  have same : retryBaseDelay * 2 ^ attempt = (20000000 * 2 ^ attempt : Int) := rfl
  rw [backoff, same, Int.bmod_eq_of_le (by omega) (by omega)]
  rfl

theorem validDelay_of_early (early : attempt ≤ 38) : ValidDelay attempt := by
  have positive : (0 : Int) < 2 ^ attempt := by positivity
  have bound : (0 : Int) ≤ min (20000000 * 2 ^ attempt) 1000000000 := by omega
  have same : min (retryBaseDelay * 2 ^ attempt) retryMaxDelay = (min (20000000 * 2 ^ attempt) 1000000000 : Int) := rfl
  have most : retryMaxDelay = (1000000000 : Int) := rfl
  rw [ValidDelay, backoff_eq early, Int.tdiv_eq_ediv_of_nonneg bound, same, most]
  exact ⟨by omega, fun jitter low high => ⟨by omega, by omega, by omega⟩⟩

section

variable {backend : Backend σ} {opts : Options} {ctx : Ctx} {db : Nat} {fn : Body σ}

private theorem executeTransaction_panicked (quiet : ∀ ctx w, (fn ctx w).1 ≠ .panicked) (w : World σ) :
    (executeTransaction backend opts ctx db fn w).1 ≠ .panicked := by
  rw [executeTransaction]
  split
  · exact quiet _ _
  · split
    · nofun
    · rename_i tx after _
      have called := quiet (ctx.withTx db tx) { after with log := after.log ++ [.called tx] }
      unfold finish
      split
      · rename_i panicked
        simp [panicked] at called
      · split <;> nofun
      · split <;> nofun

private theorem executeWithRetry_not_panicked (few : opts.maxRetries ≤ 39) (quiet : ∀ ctx w, (fn ctx w).1 ≠ .panicked)
    (attempt : Nat) (w : World σ) : (executeWithRetry backend opts ctx db fn attempt w).1 ≠ .panicked := by
  fun_induction executeWithRetry backend opts ctx db fn attempt w with
  | case1 attempt w after ran => exact absurd (congrArg Prod.fst ran) (executeTransaction_panicked quiet w)
  | case5 attempt w err after ran more _ half bound =>
    rw [not_or] at more
    have valid : ValidDelay attempt := validDelay_of_early (by omega)
    exact absurd valid.1 (by omega)
  | case7 attempt w err after ran more _ _ _ _ _ _ _ outside _ _ ih => exact ih
  | case2 | case3 | case4 | case6 => nofun

end

/-- The delays of every call with these options are valid, and none makes it panic. -/
def KeepsDelays (opts : Options) : Prop :=
  ∀ (σ : Type) (backend : Backend σ) (ctx : Ctx) (db : Nat) (fn : Body σ) (w : World σ),
    (∀ attempt, Delays backend opts ctx db fn 0 w attempt → ValidDelay attempt) ∧
    ((∀ ctx w, (fn ctx w).1 ≠ .panicked) → (executeWithRetry backend opts ctx db fn 0 w).1 ≠ .panicked)

def Sample.busy : Backend Unit where
  begins _ _ _ _ := (none, ())
  commits _ _ := (some (.sqlState (ascii "40001")), ())
  rollsBack _ _ := (none, ())
  random _ _ := (0, ())
  ended _ _ _ := (false, ())

def Sample.idle : Body Unit := fun _ w => (.returned none, w)

theorem busy_fails (opts : Options) (w : World Unit) :
    ∃ after, executeTransaction Sample.busy opts ⟨none, []⟩ 0 Sample.idle w =
      (.returned (some (errCommit (.sqlState (ascii "40001")))), after) := ⟨_, rfl⟩

theorem busy_panics (many : 40 ≤ opts.maxRetries) (left : Nat) (w : World Unit) (close : left ≤ 39) :
    Delays Sample.busy opts ⟨none, []⟩ 0 Sample.idle (39 - left) w 39 ∧
      (executeWithRetry Sample.busy opts ⟨none, []⟩ 0 Sample.idle (39 - left) w).1 = .panicked := by
  have again (attempt : Nat) (early : attempt ≤ 39) :
      ¬((attempt : Int) ≥ opts.maxRetries ∨ ¬isRetryable (errCommit (.sqlState (ascii "40001")))) := by
    rw [not_or]
    exact ⟨by omega, not_not_intro rfl⟩
  induction left generalizing w with
  | zero =>
    obtain ⟨after, failed⟩ := busy_fails opts w
    refine ⟨.here failed (again 39 (Nat.le_refl _)) rfl, ?_⟩
    rw [executeWithRetry, failed]
    simp only [if_neg (again 39 (Nat.le_refl _))]
    rfl
  | succ left ih =>
    obtain ⟨after, failed⟩ := busy_fails opts w
    have next : 39 - (left + 1) + 1 = 39 - left := by omega
    obtain ⟨delays, panics⟩ := ih { after with outside := () } (by omega)
    have here : Delays Sample.busy opts ⟨none, []⟩ 0 Sample.idle (39 - (left + 1)) w (39 - (left + 1)) :=
      .here failed (again _ (by omega)) rfl
    refine ⟨here.later failed rfl rfl (next ▸ delays), ?_⟩
    have valid : ValidDelay (39 - (left + 1)) := validDelay_of_early (by omega)
    rw [executeWithRetry, failed]
    simp only [if_neg (again (39 - (left + 1)) (by omega)), if_neg (Int.not_le.mpr valid.1)]
    rw [next]
    exact panics

/-- The delays of every call are valid exactly with at most 39 retries: the shift for
the next one overflows, and `rand.N` panics. -/
theorem retry_delays_valid_iff (opts : Options) : KeepsDelays opts ↔ opts.maxRetries ≤ 39 := by
  constructor
  · intro keeps
    by_contra many
    have delays := (busy_panics (Int.not_le.mp many) 39 ⟨(), 0, []⟩ (Nat.le_refl _)).1
    have valid := (keeps Unit Sample.busy ⟨none, []⟩ 0 Sample.idle ⟨(), 0, []⟩).1 39 delays
    exact absurd valid.1 (by decide)
  · intro few σ backend ctx db fn w
    refine ⟨fun attempt delays => validDelay_of_early ?_, fun quiet => executeWithRetry_not_panicked few quiet 0 w⟩
    have := delays.lt_maxRetries
    omega

/-- Forty retries of a transaction that is never done. -/
theorem fortieth_retry_panics :
    (executeWithRetry Sample.busy ⟨0, false, some 0, 40⟩ ⟨none, []⟩ 0 Sample.idle 0 ⟨(), 0, []⟩).1 = .panicked :=
  (busy_panics (Int.le_refl _) 39 ⟨(), 0, []⟩ (Nat.le_refl _)).2

end Gofi.Sqln.Transaction
