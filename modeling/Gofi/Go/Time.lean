import Mathlib.Data.Int.Basic
import Mathlib.Tactic.NormNum

/-! Go's `time`: an instant is the number of nanoseconds since the zero time
(the start of year 1, UTC), a duration a number of nanoseconds. -/

namespace Gofi.Go

abbrev Time := Int

abbrev Duration := Int

namespace Time

def millisecond : Duration := 1000000
def second : Duration := 1000000000
def minute : Duration := 60 * second
def hour : Duration := 60 * minute
def day : Duration := 24 * hour

/-- 1970-01-01, in seconds since the zero time. -/
def unixSeconds : Int := 62135596800

def unixEpoch : Time := unixSeconds * second

def isZero (t : Time) : Bool := t = 0

/-- `Unix`: whole seconds since 1970, in a signed 64-bit number. -/
def unix (t : Time) : Int := (t / second - unixSeconds).bmod (2 ^ 64)

/-- `UnixNano`: nanoseconds since 1970, in a signed 64-bit number. -/
def unixNano (t : Time) : Int := (t - unixEpoch).bmod (2 ^ 64)

def ofUnix (seconds : Int) : Time := (seconds + unixSeconds) * second

def ofUnixNano (nanoseconds : Int) : Time := unixEpoch + nanoseconds

/-- `t.Sub(u)`: the largest or smallest duration when the difference is none. -/
def sub (t u : Time) : Duration := max (-2 ^ 63) (min (2 ^ 63 - 1) (t - u))

end Time

/-- The sum of two durations, in a signed 64-bit number. -/
def Duration.add (d e : Duration) : Duration := (d + e).bmod (2 ^ 64)

/-- A reading of the machine's clock: `UnixNano` is exact on it (years 1678 to 2262). -/
structure Instant where
  time : Time
  lower : -2 ^ 63 ≤ time - Time.unixEpoch
  upper : time - Time.unixEpoch < 2 ^ 63

namespace Instant

theorem unixNano (now : Instant) : now.time.unixNano = now.time - Time.unixEpoch := by
  have lower := now.lower
  have upper := now.upper
  exact Int.bmod_eq_of_le (by norm_num at *; lia) (by norm_num at *; lia)

theorem ofUnixNano_unixNano (now : Instant) : Time.ofUnixNano now.time.unixNano = now.time := by
  rw [now.unixNano, Time.ofUnixNano]
  lia

theorem late (now : Instant) : 1600 * 365 * Time.day ≤ now.time := by
  have lower := now.lower
  norm_num [Time.unixEpoch, Time.unixSeconds, Time.day, Time.hour, Time.minute, Time.second] at *
  lia

theorem positive (now : Instant) : 0 < now.time := by
  have late := now.late
  norm_num [Time.day, Time.hour, Time.minute, Time.second] at late
  lia

end Instant

end Gofi.Go
