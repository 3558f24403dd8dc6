import Gofi.Go.Text
import Gofi.Go.Time
import Mathlib.Logic.Function.Basic

/-! `cronjob/lock.go`: the keys of a job and the scripts of `RedisLocker`. A ttl
is sent in whole milliseconds, and a key expires when exactly that has passed. -/

namespace Gofi.Cronjob

open Gofi.Go

inductive Key where
  | lease
  | slot (time : Time)
  deriving DecidableEq

structure Hold where
  token : Nat
  expireAt : Time
  deriving DecidableEq

structure Locker where
  fence : Nat
  held : Key → Option Hold

def wholeMillis (ttl : Duration) : Duration := ttl.tdiv Time.millisecond * Time.millisecond

inductive Answer where
  | token (token : Nat)
  | held
  | error

namespace Locker

def holder (l : Locker) (now : Time) (key : Key) : Option Nat :=
  match l.held key with
  | some hold => if now < hold.expireAt then some hold.token else none
  | none => none

/-- `acquireScript`. The server refuses a ttl below a millisecond, with the
token already counted. -/
def acquire (l : Locker) (now : Time) (key : Key) (ttl : Duration) : Answer × Locker :=
  if (l.holder now key).isSome then (.held, l)
  else if ttl.tdiv Time.millisecond ≤ 0 then (.error, { l with fence := l.fence + 1 })
  else (.token (l.fence + 1),
    ⟨l.fence + 1, Function.update l.held key (some ⟨l.fence + 1, now + wholeMillis ttl⟩)⟩)

def renew (l : Locker) (now : Time) (key : Key) (token : Nat) (ttl : Duration) : Bool × Locker :=
  if l.holder now key = some token then
    (true, { l with held := Function.update l.held key (some ⟨token, now + wholeMillis ttl⟩) })
  else (false, l)

def release (l : Locker) (now : Time) (key : Key) (token : Nat) : Locker :=
  if l.holder now key = some token then { l with held := Function.update l.held key none } else l

variable {l : Locker}

theorem holder_eq_some : l.holder now key = some token ↔ ∃ expiry, l.held key = some ⟨token, expiry⟩ ∧
    now < expiry := by
  unfold holder
  split
  · rename_i hold found
    obtain ⟨owner, expiry⟩ := hold
    simp only [found, Option.some.injEq, Hold.mk.injEq]
    grind
  · rename_i missing
    simp [missing]

theorem acquire_token (got : l.acquire now key ttl = (.token token, later)) :
    l.holder now key = none ∧ token = l.fence + 1 ∧
      later = ⟨l.fence + 1, Function.update l.held key (some ⟨l.fence + 1, now + wholeMillis ttl⟩)⟩ := by
  unfold acquire at got
  split at got
  · cases got
  · rename_i free
    split at got <;> cases got
    exact ⟨Option.not_isSome_iff_eq_none.mp free, rfl, rfl⟩

theorem acquire_held (got : l.acquire now key ttl = (answer, later)) (none_given : ∀ token, answer ≠ .token token) :
    later.held = l.held := by
  unfold acquire at got
  split at got
  · cases got
    rfl
  · split at got
    · cases got
      rfl
    · cases got
      exact absurd rfl (none_given _)

theorem acquire_fence_le (now : Time) (key : Key) (ttl : Duration) : l.fence ≤ (l.acquire now key ttl).2.fence := by
  unfold acquire
  split
  · exact le_refl _
  · split <;> exact Nat.le_succ _

variable {key other : Key}

theorem acquire_other (now : Time) (ttl : Duration) (apart : other ≠ key) :
    (l.acquire now key ttl).2.held other = l.held other := by
  unfold acquire
  split
  · rfl
  · split
    · rfl
    · exact Function.update_of_ne apart ..

@[simp] theorem renew_fence (now : Time) (key : Key) (token : Nat) (ttl : Duration) :
    (l.renew now key token ttl).2.fence = l.fence := by
  unfold renew
  split <;> rfl

theorem renew_other (now : Time) (token : Nat) (ttl : Duration) (apart : other ≠ key) :
    (l.renew now key token ttl).2.held other = l.held other := by
  unfold renew
  split
  · exact Function.update_of_ne apart ..
  · rfl

@[simp] theorem release_fence (now : Time) (key : Key) (token : Nat) : (l.release now key token).fence = l.fence := by
  unfold release
  split <;> rfl

theorem release_other (now : Time) (token : Nat) (apart : other ≠ key) :
    (l.release now key token).held other = l.held other := by
  unfold release
  split
  · exact Function.update_of_ne apart ..
  · rfl

end Locker

end Gofi.Cronjob
