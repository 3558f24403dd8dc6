import Gofi.Go.Time
import Mathlib.Algebra.Order.Group.Unbundled.Abs
import Mathlib.Data.Int.ConditionallyCompleteOrder

/-! `cronjob/scheduler.go`: the runs of a fixed schedule in any time zone. Dates are
numbered by their days, and the reading of a clock is a time as if it were in UTC. -/

namespace Gofi.Cronjob.Fixed

open Gofi.Go

/-- A `time.Location` with its offsets, and `time.Date`: a reading that the clock shows
becomes an instant at which it does, and one that is skipped by a change of the offset
is taken with the offset before the change or after it. -/
structure Zone where
  offset : Time → Duration
  date : Int → Time
  shown : ∀ t, date (t + offset t) + offset (date (t + offset t)) = t + offset t
  skipped : ∀ reading, (∀ t, t + offset t ≠ reading) → ∃ change,
    change + offset (change - 1) ≤ reading ∧ reading < change + offset change ∧
    (date reading = reading - offset (change - 1) ∨ date reading = reading - offset change)

structure Clock where
  hour : Int
  minute : Int
  hours : 0 ≤ hour ∧ hour ≤ 23
  minutes : 0 ≤ minute ∧ minute ≤ 59

/-- What the clock is to show at the run of a date. -/
def Clock.reading (c : Clock) (date : Int) : Int := date * Time.day + c.hour * Time.hour + c.minute * Time.minute

def Zone.shows (z : Zone) (t : Time) : Int := t + z.offset t

def Zone.day (z : Zone) (t : Time) : Int := z.shows t / Time.day

def Zone.at (z : Zone) (c : Clock) (date : Int) : Time := z.date (c.reading date)

def nextFixedRun (z : Zone) (c : Clock) (now : Time) : Time :=
  if z.at c (z.day now) > now then z.at c (z.day now) else z.at c (z.day now + 1)

/-- The loop of `runFixed`, with what `s.now` reads before each run: the runs in their
order. -/
def runFixed (z : Zone) (c : Clock) (reading : Nat → Time) : Nat → Time
  | 0 => nextFixedRun z c (if reading 0 < 0 then 0 else reading 0)
  | run + 1 =>
    let lastRun := runFixed z c reading run
    nextFixedRun z c (if reading (run + 1) < lastRun then lastRun else reading (run + 1))

/-- Each run is followed by another, and every date from that of the first has one run. -/
structure OnceADay (z : Zone) (runs : Nat → Time) : Prop where
  increasing : StrictMono runs
  once : ∀ t, z.day (runs 0) ≤ z.day t → ∃! run, z.day (runs run) = z.day t

/-! The changes of a zone. -/

def Zone.jump (z : Zone) (change : Time) : Duration := z.offset change - z.offset (change - 1)

/-- The clock is changed by a day at most, and two changes are at least as far apart as
both move it. -/
structure Zone.Ordinary (z : Zone) : Prop where
  short : ∀ change, |z.jump change| ≤ Time.day
  apart : ∀ first second, first < second → z.jump first ≠ 0 → z.jump second ≠ 0 →
    |z.jump first| + |z.jump second| ≤ second - first

/-- What the clock is to show on the following date is neither skipped by a change ahead
and taken with the offset after it, which leads back to now or before, nor was it shown
before a past change that set the clock back behind it, and is taken with the offset of
that time. -/
structure Ahead (z : Zone) (c : Clock) (now change : Time) : Prop where
  skipped : change + z.offset (change - 1) ≤ c.reading (z.day now + 1) →
    c.reading (z.day now + 1) < change + z.offset change →
    z.date (c.reading (z.day now + 1)) = c.reading (z.day now + 1) - z.offset change →
    now < change → now + z.offset change < c.reading (z.day now + 1)
  repeated : change + z.offset change ≤ c.reading (z.day now + 1) →
    c.reading (z.day now + 1) < change + z.offset (change - 1) →
    z.date (c.reading (z.day now + 1)) = c.reading (z.day now + 1) - z.offset (change - 1) → now < change

/-- A change that skips or repeats the clock time of a date moves the clock by no more
than that time is away from midnight. -/
def Clear (z : Zone) (c : Clock) : Prop :=
  ∀ change date, change + min (z.offset (change - 1)) (z.offset change) ≤ c.reading date →
    c.reading date < change + max (z.offset (change - 1)) (z.offset change) →
    date * Time.day ≤ c.reading date - |z.jump change| ∧ c.reading date + |z.jump change| < (date + 1) * Time.day

section Zones

variable {z : Zone} {c : Clock} {change date reading s t : Int}

private theorem reading_bounds (c : Clock) (date : Int) :
    date * Time.day ≤ c.reading date ∧ c.reading date < (date + 1) * Time.day := by
  obtain ⟨hour, minute, hours, minutes⟩ := c
  simp only [Clock.reading, Time.day, Time.hour, Time.minute, Time.second]
  lia

private theorem reading_succ (c : Clock) (date : Int) : c.reading (date + 1) = c.reading date + Time.day := by
  simp only [Clock.reading, Time.day, Time.hour, Time.minute, Time.second]
  lia

private theorem day_eq_iff : z.day t = date ↔ date * Time.day ≤ z.shows t ∧ z.shows t < (date + 1) * Time.day := by
  simp only [Zone.day, Time.day, Time.hour, Time.minute, Time.second]
  lia

private theorem day_le_iff : z.day t ≤ date ↔ z.shows t < (date + 1) * Time.day := by
  simp only [Zone.day, Time.day, Time.hour, Time.minute, Time.second]
  lia

private theorem le_day_iff : date ≤ z.day t ↔ date * Time.day ≤ z.shows t := by
  simp only [Zone.day, Time.day, Time.hour, Time.minute, Time.second]
  lia

/-- An offset that differs later has been changed, the first time from what it was. -/
theorem Zone.changed_since (since : s ≤ t) : z.offset t = z.offset s ∨
    ∃ change, s < change ∧ change ≤ t ∧ z.jump change ≠ 0 ∧ z.offset (change - 1) = z.offset s := by
  induction t, since using Int.leInduction with
  | base => exact .inl rfl
  | succ t since ih =>
    rcases ih with same | ⟨change, after, before, moves, from_⟩
    · by_cases moves : z.jump (t + 1) = 0
      · refine .inl ?_
        simp only [Zone.jump, add_sub_cancel_right] at moves
        lia
      · exact .inr ⟨t + 1, by lia, le_rfl, moves, by rwa [add_sub_cancel_right]⟩
    · exact .inr ⟨change, after, by lia, moves, from_⟩

/-- And the last time to what it is. -/
theorem Zone.changed_until (since : s ≤ t) : z.offset t = z.offset s ∨
    ∃ change, s < change ∧ change ≤ t ∧ z.jump change ≠ 0 ∧ z.offset change = z.offset t := by
  induction t, since using Int.leInduction with
  | base => exact .inl rfl
  | succ t since ih =>
    by_cases moves : z.jump (t + 1) = 0
    · have kept : z.offset (t + 1) = z.offset t := by
        simp only [Zone.jump, add_sub_cancel_right] at moves
        lia
      rw [kept]
      rcases ih with same | ⟨change, after, before, moves, reached⟩
      · exact .inl same
      · exact .inr ⟨change, after, by lia, moves, reached⟩
    · exact .inr ⟨t + 1, by lia, le_rfl, moves, rfl⟩

namespace Zone.Ordinary

variable (ordinary : z.Ordinary) (moves : z.jump change ≠ 0)

include ordinary moves

/-- For as long before a change as it moves the clock, there is no other one. -/
theorem steady_before (near : change - |z.jump change| ≤ t) (early : t < change) :
    z.offset t = z.offset (change - 1) := by
  rcases z.changed_since (by lia : t ≤ change - 1) with same | ⟨other, after, before, moves', _⟩
  · exact same.symm
  · have apart := ordinary.apart other change (by lia) moves' moves
    have positive := abs_nonneg (z.jump other)
    lia

theorem steady_after (late : change ≤ t) (near : t < change + |z.jump change|) : z.offset t = z.offset change := by
  rcases z.changed_since late with same | ⟨other, after, before, moves', _⟩
  · exact same
  · have apart := ordinary.apart change other after moves moves'
    have positive := abs_nonneg (z.jump other)
    lia

/-- What the clock shows after a change is never shown again once it has passed. -/
theorem shows_after (late : change ≤ t) : z.shows change ≤ z.shows t := by
  obtain ⟨distance, rfl⟩ : ∃ distance : Nat, t = change + distance := ⟨(t - change).toNat, by lia⟩
  induction distance using Nat.strong_induction_on generalizing change with
  | _ distance ih =>
    rcases z.changed_since late with same | ⟨other, after, before, moves', from_⟩
    · simp only [Zone.shows, same]
      lia
    · have apart := ordinary.apart change other after moves moves'
      have back := neg_abs_le (z.jump other)
      have positive := abs_nonneg (z.jump change)
      have first : z.shows change ≤ z.shows other := by
        simp only [Zone.shows, Zone.jump] at *
        lia
      obtain ⟨less, rest⟩ : ∃ less : Nat, change + distance = other + less :=
        ⟨(change + distance - other).toNat, by lia⟩
      rw [rest]
      exact first.trans (ih less (by lia) moves' (by lia))

theorem shows_before (early : t < change) : z.shows t ≤ z.shows (change - 1) := by
  obtain ⟨distance, rfl⟩ : ∃ distance : Nat, change = t + 1 + distance := ⟨(change - t - 1).toNat, by lia⟩
  induction distance using Nat.strong_induction_on with
  | _ distance ih =>
    rcases z.changed_until (by lia : t ≤ t + 1 + distance - 1) with same | ⟨other, after, before, moves', reached⟩
    · simp only [Zone.shows, same]
      lia
    · have apart := ordinary.apart other _ (by lia) moves' moves
      have forth := le_abs_self (-z.jump other)
      rw [abs_neg] at forth
      have positive := abs_nonneg (z.jump (t + 1 + distance))
      have last : z.shows (other - 1) ≤ z.shows (t + 1 + distance - 1) := by
        simp only [Zone.shows, Zone.jump] at *
        lia
      obtain ⟨less, rest⟩ : ∃ less : Nat, other = t + 1 + less := ⟨(other - t - 1).toNat, by lia⟩
      subst rest
      exact (ih less (by lia) moves' (by lia)).trans last

end Zone.Ordinary

end Zones

/-! The next run. -/

variable {z : Zone} {c : Clock}

private theorem at_cases (z : Zone) (c : Clock) (date : Int) : z.shows (z.at c date) = c.reading date ∨
    ∃ change, change + z.offset (change - 1) ≤ c.reading date ∧ c.reading date < change + z.offset change ∧
      (z.at c date = c.reading date - z.offset (change - 1) ∨ z.at c date = c.reading date - z.offset change) := by
  by_cases shown : ∃ t, t + z.offset t = c.reading date
  · obtain ⟨t, same⟩ := shown
    refine .inl ?_
    rw [Zone.shows, Zone.at, ← same]
    exact z.shown t
  · exact .inr (z.skipped _ fun t same => shown ⟨t, same⟩)

-- A reading below those that a change skips or repeats is taken for an instant before the change.
private theorem at_before (c : Clock) (date : Int) (ordinary : z.Ordinary) (moves : z.jump change ≠ 0)
    (below : c.reading date < change + z.offset (change - 1)) (below' : c.reading date < change + z.offset change) :
    z.at c date ≤ change - |z.jump change| ∨ z.at c date < change ∧ z.shows (z.at c date) = c.reading date := by
  rcases at_cases z c date with shown | ⟨other, from_, until_, taken⟩
  · refine .inr ⟨?_, shown⟩
    by_contra late
    have after := ordinary.shows_after moves (not_lt.mp late)
    rw [shown, Zone.shows] at after
    lia
  · have moves' : z.jump other ≠ 0 := by
      rw [Zone.jump]
      lia
    rcases lt_trichotomy other change with earlier | rfl | later
    · have apart := ordinary.apart other change earlier moves' moves
      have forth := le_abs_self (z.jump other)
      refine .inl ?_
      simp only [Zone.jump] at *
      lia
    · exact absurd from_ (by lia)
    · have after := ordinary.shows_after moves (by lia : change ≤ other - 1)
      simp only [Zone.shows] at after
      lia

private theorem ahead_of_lt (ordinary : z.Ordinary) (later : now < nextFixedRun z c now) (change : Time) :
    Ahead z c now change := by
  have short := ordinary.short change
  have today := reading_succ c (z.day now)
  have both (past : z.at c (z.day now) ≤ now) (next : z.at c (z.day now + 1) ≤ now) : False := by
    rw [nextFixedRun, if_neg (not_lt.mpr past)] at later
    exact absurd later (not_lt.mpr next)
  constructor
  · intro from_ until_ taken early
    by_contra passed
    have moves : z.jump change ≠ 0 := by
      rw [Zone.jump]
      lia
    have jump : |z.jump change| = z.offset change - z.offset (change - 1) := abs_of_pos (by rw [Zone.jump]; lia)
    have before := at_before c (z.day now) ordinary moves (by lia) (by lia)
    refine both ?_ (by rw [Zone.at, taken]; lia)
    rcases before with far | ⟨near, shown⟩
    · lia
    · by_contra after
      have steady := ordinary.steady_before (t := z.at c (z.day now)) moves (by lia) near
      rw [Zone.shows, steady] at shown
      lia
  · intro from_ until_ taken
    by_contra passed
    have moves : z.jump change ≠ 0 := by
      rw [Zone.jump]
      lia
    have jump : |z.jump change| = z.offset (change - 1) - z.offset change := by
      rw [abs_of_neg (by rw [Zone.jump]; lia), Zone.jump, neg_sub]
    have before := at_before c (z.day now) ordinary moves (by lia) (by lia)
    refine both ?_ (by rw [Zone.at, taken]; lia)
    rcases before with far | ⟨near, _⟩ <;> lia

private theorem lt_of_ahead (ordinary : z.Ordinary) (ahead : ∀ change, Ahead z c now change) :
    now < nextFixedRun z c now := by
  rw [nextFixedRun]
  split
  · assumption
  by_contra passed
  have past : z.at c (z.day now + 1) ≤ now := not_lt.mp passed
  have shown : z.shows now < c.reading (z.day now + 1) :=
    (day_le_iff.mp le_rfl).trans_le (reading_bounds c _).1
  -- After a change that skips the reading, the clock shows later ones only.
  have unskipped (change : Time) (from_ : change + z.offset (change - 1) ≤ c.reading (z.day now + 1))
      (until_ : c.reading (z.day now + 1) < change + z.offset change) : now < change := by
    by_contra late
    have moves : z.jump change ≠ 0 := by
      rw [Zone.jump]
      lia
    have after := ordinary.shows_after moves (not_lt.mp late)
    rw [Zone.shows] at after
    lia
  rcases at_cases z c (z.day now + 1) with reached | ⟨change, from_, until_, taken | taken⟩
  · rcases z.changed_since past with same | ⟨change, after, before, moves, from_⟩
    · rw [Zone.shows] at reached shown
      lia
    · have later := ordinary.shows_after moves before
      rw [Zone.shows] at later reached
      have early := (ahead change).repeated (by lia) (by lia) (by rw [from_]; rw [Zone.at] at *; lia)
      lia
  · have early := unskipped change from_ until_
    lia
  · have early := unskipped change from_ until_
    have missed := (ahead change).skipped from_ until_ taken early
    lia

/-! The runs. -/

/-- The clock time of each date is on that date, after those before it and before those
after it. -/
structure Orderly (z : Zone) (c : Clock) : Prop where
  before : ∀ date t, t ≤ z.at c date → z.day t ≤ date
  after : ∀ date t, z.at c date ≤ t → date ≤ z.day t

private theorem Clear.skipped (clear : Clear z c) (from_ : change + z.offset (change - 1) ≤ c.reading date)
    (until_ : c.reading date < change + z.offset change) :
    z.jump change ≠ 0 ∧ |z.jump change| = z.offset change - z.offset (change - 1) ∧
      date * Time.day ≤ c.reading date - |z.jump change| ∧
      c.reading date + |z.jump change| < (date + 1) * Time.day := by
  have positive : 0 < z.jump change := by
    rw [Zone.jump]
    lia
  exact ⟨positive.ne', abs_of_pos positive, clear change date (by lia) (by lia)⟩

private theorem Clear.repeated (clear : Clear z c) (change date : Int)
    (from_ : change + z.offset change ≤ c.reading date)
    (until_ : c.reading date < change + z.offset (change - 1)) :
    |z.jump change| = z.offset (change - 1) - z.offset change ∧
      date * Time.day ≤ c.reading date - |z.jump change| ∧
      c.reading date + |z.jump change| < (date + 1) * Time.day := by
  have negative : z.jump change < 0 := by
    rw [Zone.jump]
    lia
  exact ⟨by rw [abs_of_neg negative, Zone.jump, neg_sub], clear change date (by lia) (by lia)⟩

theorem Clear.before (clear : Clear z c) (ordinary : z.Ordinary) (early : t ≤ z.at c date) : z.day t ≤ date := by
  rw [day_le_iff]
  by_contra late
  obtain ⟨_, inside⟩ := reading_bounds c date
  rcases at_cases z c date with reached | ⟨change, from_, until_, taken⟩
  · rcases z.changed_since early with same | ⟨change, after, before, moves, from_⟩
    · simp only [Zone.shows] at *
      lia
    · have later := ordinary.shows_after moves before
      simp only [Zone.shows] at *
      obtain ⟨jump, _, above⟩ := clear.repeated change date (by lia) (by lia)
      lia
  · obtain ⟨moves, jump, _, above⟩ := clear.skipped from_ until_
    rcases lt_or_ge t change with ahead | passed
    · have earlier := ordinary.shows_before moves ahead
      simp only [Zone.shows] at *
      lia
    · have steady := ordinary.steady_after moves passed (by lia)
      simp only [Zone.shows] at *
      lia

theorem Clear.after (clear : Clear z c) (ordinary : z.Ordinary) (since : z.at c date ≤ t) : date ≤ z.day t := by
  rw [le_day_iff]
  by_contra early
  obtain ⟨inside, _⟩ := reading_bounds c date
  rcases at_cases z c date with reached | ⟨change, from_, until_, taken⟩
  · rcases z.changed_since since with same | ⟨change, after, before, moves, from_⟩
    · simp only [Zone.shows] at *
      lia
    · have later := ordinary.shows_after moves before
      simp only [Zone.shows] at *
      obtain ⟨jump, below, _⟩ := clear.repeated change date (by lia) (by lia)
      lia
  · obtain ⟨moves, jump, below, _⟩ := clear.skipped from_ until_
    rcases lt_or_ge t change with ahead | passed
    · have steady := ordinary.steady_before moves (by lia) ahead
      simp only [Zone.shows] at *
      lia
    · have later := ordinary.shows_after moves passed
      simp only [Zone.shows] at *
      lia

theorem Clear.orderly (clear : Clear z c) (ordinary : z.Ordinary) : Orderly z c :=
  ⟨fun _ _ => clear.before ordinary, fun _ _ => clear.after ordinary⟩

namespace Orderly

variable (orderly : Orderly z c)

include orderly

theorem day_at (date : Int) : z.day (z.at c date) = date :=
  le_antisymm (orderly.before date _ le_rfl) (orderly.after date _ le_rfl)

theorem mono : StrictMono (z.at c) := by
  intro date other less
  by_contra early
  have shown := orderly.before date _ (not_lt.mp early)
  rw [orderly.day_at] at shown
  lia

/-- The run of the following date is the next one until it comes. -/
theorem nextFixedRun_eq (since : z.at c date ≤ now) (due : now < z.at c (date + 1)) :
    nextFixedRun z c now = z.at c (date + 1) := by
  have last := orderly.after date now since
  have next := orderly.before (date + 1) now due.le
  rw [nextFixedRun]
  rcases last.lt_or_eq with later | same
  · have shown : z.day now = date + 1 := by lia
    rw [shown, if_pos due]
  · rw [← same, if_neg (not_lt.mpr since)]

theorem lt_nextFixedRun (now : Time) : now < nextFixedRun z c now := by
  rw [nextFixedRun]
  split
  · assumption
  · by_contra past
    have shown := orderly.after _ _ (not_lt.mp past)
    lia

/-- Every next run is that of a date, and the one before it is past. -/
theorem exists_date (now : Time) : ∃ date, nextFixedRun z c now = z.at c (date + 1) ∧ z.at c date ≤ now := by
  rw [nextFixedRun]
  split
  · refine ⟨z.day now - 1, by rw [sub_add_cancel], ?_⟩
    by_contra early
    have shown := orderly.before _ _ (not_le.mp early).le
    lia
  · exact ⟨z.day now, rfl, not_lt.mp ‹_›⟩

end Orderly

section Runs

variable {reading : Nat → Time}

/-- Where each run is over before the next one is due, the runs are those of consecutive
dates. -/
theorem Orderly.run_eq (orderly : Orderly z c)
    (due : ∀ run, reading (run + 1) < nextFixedRun z c (runFixed z c reading run)) :
    ∃ first : Int, ∀ run : Nat, runFixed z c reading run = z.at c (first + run) := by
  obtain ⟨before, begins, _⟩ := orderly.exists_date (if reading 0 < 0 then 0 else reading 0)
  refine ⟨before + 1, fun run => ?_⟩
  induction run with
  | zero => simpa [runFixed] using begins
  | succ run ih =>
    have follows : nextFixedRun z c (runFixed z c reading run) = z.at c (before + 1 + run + 1) := by
      rw [ih]
      exact orderly.nextFixedRun_eq le_rfl (orderly.mono (by lia))
    have next : before + 1 + ((run + 1 : Nat) : Int) = before + 1 + run + 1 := by
      push_cast
      lia
    have early := due run
    rw [follows] at early
    rw [next, runFixed]
    split
    · exact follows
    · rename_i since
      rw [ih] at since
      exact orderly.nextFixedRun_eq (not_lt.mp since) early

theorem Orderly.onceADay (orderly : Orderly z c)
    (due : ∀ run, reading (run + 1) < nextFixedRun z c (runFixed z c reading run)) :
    OnceADay z (runFixed z c reading) := by
  obtain ⟨first, runs⟩ := orderly.run_eq due
  constructor
  · intro run other less
    rw [runs, runs]
    exact orderly.mono (by lia)
  · intro t since
    rw [runs, orderly.day_at] at since
    refine ⟨(z.day t - first).toNat, ?_, fun run shown => ?_⟩
    · dsimp only
      rw [runs, orderly.day_at]
      lia
    · dsimp only at shown
      rw [runs, orderly.day_at] at shown
      lia

end Runs

/-- The next run is later than now unless a change of the zone stands against it. Where
the changes that touch the clock time leave it on its date, and each clock reading comes
before the next run is due, every date from the first has one run. -/
theorem fixed_schedule_runs_daily (z : Zone) (c : Clock) (ordinary : z.Ordinary) :
    (∀ now, now < nextFixedRun z c now ↔ ∀ change, Ahead z c now change) ∧
    (Clear z c → (∀ now, now < nextFixedRun z c now) ∧ ∀ reading : Nat → Time,
      (∀ run, reading (run + 1) < nextFixedRun z c (runFixed z c reading run)) → OnceADay z (runFixed z c reading)) :=
  ⟨fun _ => ⟨ahead_of_lt ordinary, lt_of_ahead ordinary⟩, fun clear =>
    ⟨(clear.orderly ordinary).lt_nextFixedRun, fun _ due => (clear.orderly ordinary).onceADay due⟩⟩

namespace Sample

/-- Clocks go from two to three on day 10, from an hour ahead of UTC to two. `time.Date`
takes the readings in between with the old offset. -/
def spring : Zone where
  offset t := if t < 10 * Time.day + Time.hour then Time.hour else 2 * Time.hour
  date reading := if reading < 10 * Time.day + 3 * Time.hour then reading - Time.hour else reading - 2 * Time.hour
  shown t := by
    have hour : Time.hour = 3600000000000 := rfl
    simp only [hour]
    split <;> split <;> split <;> lia
  skipped reading none := by
    have hour : Time.hour = 3600000000000 := rfl
    refine ⟨10 * Time.day + Time.hour, ?_⟩
    have early := none (reading - Time.hour)
    have late := none (reading - 2 * Time.hour)
    simp only [hour] at *
    split at early <;> split at late <;> simp <;> lia

def halfPastTwo : Clock := ⟨2, 30, by decide, by decide⟩

theorem spring_jump (change : Time) :
    spring.jump change = if change = 10 * Time.day + Time.hour then Time.hour else 0 := by
  have hour : Time.hour = 3600000000000 := rfl
  simp only [Zone.jump, spring, hour]
  split <;> split <;> split <;> lia

theorem spring_ordinary : spring.Ordinary := by
  constructor
  · intro change
    rw [spring_jump]
    split <;> decide
  · intro first second less moves moves'
    rw [spring_jump] at moves moves'
    split at moves
    · split at moves'
      · lia
      · exact absurd rfl moves'
    · exact absurd rfl moves

theorem spring_clear : Clear spring halfPastTwo := by
  intro change date from_ until_
  have units : Time.hour = 3600000000000 ∧ Time.minute = 60000000000 ∧ Time.day = 86400000000000 := ⟨rfl, rfl, rfl⟩
  rw [spring_jump]
  simp only [spring, Clock.reading, halfPastTwo, units] at *
  split
  · rw [abs_of_pos (by decide)]
    lia
  · exfalso
    split at from_ <;> split at from_ <;> lia

def afterwards (run : Nat) : Time := (8 + run) * Time.day + 2 * Time.hour + 30 * Time.minute

private theorem spring_at (date : Int) : spring.at halfPastTwo date =
    if date ≤ 10 then date * Time.day + 90 * Time.minute else date * Time.day + 30 * Time.minute := by
  have units : Time.hour = 3600000000000 ∧ Time.minute = 60000000000 ∧ Time.day = 86400000000000 := ⟨rfl, rfl, rfl⟩
  simp only [Zone.at, spring, Clock.reading, halfPastTwo, units]
  split <;> split <;> lia

theorem afterwards_bounds (run : Nat) : spring.at halfPastTwo (8 + run) ≤ afterwards run ∧
    afterwards run < spring.at halfPastTwo (8 + run + 1) := by
  have units : Time.hour = 3600000000000 ∧ Time.minute = 60000000000 ∧ Time.day = 86400000000000 := ⟨rfl, rfl, rfl⟩
  simp only [spring_at, afterwards, units]
  constructor <;> split <;> lia

private theorem spring_due (run : Nat) :
    afterwards (run + 1) < nextFixedRun spring halfPastTwo (runFixed spring halfPastTwo afterwards run) := by
  have orderly := spring_clear.orderly spring_ordinary
  have next (run : Nat) : nextFixedRun spring halfPastTwo (afterwards run) = spring.at halfPastTwo (8 + run + 1) :=
    orderly.nextFixedRun_eq (afterwards_bounds run).1 (afterwards_bounds run).2
  have bounds := afterwards_bounds (run + 1)
  have runs : runFixed spring halfPastTwo afterwards run = spring.at halfPastTwo (8 + run + 1) := by
    clear bounds
    induction run with
    | zero => exact next 0
    | succ run ih =>
      have since := (afterwards_bounds (run + 1)).1
      push_cast [← add_assoc] at since
      rw [runFixed, ih, if_neg (not_lt.mpr since)]
      exact next (run + 1)
  push_cast [← add_assoc] at bounds
  rw [runs, orderly.nextFixedRun_eq le_rfl (orderly.mono (by lia))]
  exact bounds.2

/-- Clocks are an hour ahead from the midnight of day 10 on, and `time.Date` takes the
readings in between with the new offset. -/
def summerTime : Zone where
  offset t := if t < 10 * Time.day + 3 * Time.hour then -3 * Time.hour else -2 * Time.hour
  date reading := if reading < 10 * Time.day then reading + 3 * Time.hour else reading + 2 * Time.hour
  shown t := by
    have hour : Time.hour = 3600000000000 := rfl
    simp only [hour]
    split <;> split <;> split <;> lia
  skipped reading none := by
    have hour : Time.hour = 3600000000000 := rfl
    refine ⟨10 * Time.day + 3 * Time.hour, ?_⟩
    have early := none (reading + 3 * Time.hour)
    have late := none (reading + 2 * Time.hour)
    simp only [hour] at *
    split at early <;> split at late <;> simp <;> lia

def halfPast : Clock := ⟨0, 30, by decide, by decide⟩

end Sample

open Sample

/-- The job of 02:30 takes an hour or two each day, also when its time is skipped. -/
theorem spring_runs_daily : OnceADay spring (runFixed spring halfPastTwo afterwards) ∧
    ∀ now change, Ahead spring halfPastTwo now change := by
  obtain ⟨law, runs⟩ := fixed_schedule_runs_daily spring halfPastTwo spring_ordinary
  obtain ⟨later, daily⟩ := runs spring_clear
  exact ⟨daily afterwards spring_due, fun now => (law now).mp (later now)⟩

/-- Half past midnight is skipped and becomes 23:30 of the date before: that date has two
runs, and `nextFixedRun` at the second of them is not later. -/
theorem skipped_midnight_runs_twice : let run := runFixed summerTime halfPast fun _ => 9 * Time.day
    summerTime.day (run 0) = 9 ∧ summerTime.day (run 1) = 9 ∧ nextFixedRun summerTime halfPast (run 1) = run 1 := by
  decide

end Gofi.Cronjob.Fixed
