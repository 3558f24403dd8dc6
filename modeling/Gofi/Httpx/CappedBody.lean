import Mathlib.Algebra.Group.Int.Defs
import Mathlib.Algebra.Group.Nat.Defs
import Mathlib.Data.List.Basic

/-! `cappedBody` of `httpx/client_safe.go` and `cappedReader` of `client_request.go`: two
ways to read a response up to a limit. -/

namespace Gofi.Httpx.Capping

inductive ReadError where
  | eof
  | tooLarge
  | other (number : Nat)
  deriving DecidableEq

/-- How a reader answers one call: with at most so many bytes, and with its final error
as soon as, or only some time after, it has no more of them. -/
structure Turn where
  count : Nat
  tells : Bool

structure Source (α : Type) where
  rest : List α
  final : ReadError
  told : Bool

def Source.read (s : Source α) (size : Nat) (turn : Turn) : List α × Option ReadError × Source α :=
  let n := min turn.count (min size s.rest.length)
  let tells := decide (s.rest.length = n) && turn.tells
  (s.rest.take n, if tells then some s.final else none, { s with rest := s.rest.drop n, told := tells })

structure Capped (α : Type) where
  source : Source α
  left : Int

def cappedBody (b : Capped α) (size : Nat) (turn : Turn) : Option (List α × Option ReadError × Capped α) :=
  if b.left ≤ 0 then
    let (probe, _, source) := b.source.read 1 turn
    if probe.length > 0 then some ([], some .tooLarge, { b with source }) else some ([], some .eof, { b with source })
  else
    let (bytes, err, source) := b.source.read (if (size : Int) > b.left then b.left.toNat else size) turn
    some (bytes, err, ⟨source, b.left - bytes.length⟩)

def oneMore (n : Int) : Int := (n + 1).bmod (2 ^ 64)

/-- `cappedReader.Read`; to slice a buffer to less than nothing panics. -/
def cappedReader (c : Capped α) (size : Nat) (turn : Turn) : Option (List α × Option ReadError × Capped α) :=
  if c.left < 0 then some ([], some .tooLarge, c)
  else if (size : Int) > oneMore c.left ∧ oneMore c.left < 0 then none
  else
    let (bytes, err, source) :=
      c.source.read (if (size : Int) > oneMore c.left then (oneMore c.left).toNat else size) turn
    let left := c.left - bytes.length
    some (bytes, if left < 0 then some .tooLarge else err, ⟨source, left⟩)

inductive Outcome (α : Type) where
  | panicked
  | reading (bytes : List α) (reader : Capped α)
  | ended (bytes : List α) (err : ReadError)

/-- A caller that reads with buffers of these sizes until there is an error. -/
def readAll (read : Capped α → Nat → Turn → Option (List α × Option ReadError × Capped α)) (got : List α)
    (reader : Capped α) : List (Nat × Turn) → Outcome α
  | [] => .reading got reader
  | (size, turn) :: calls =>
    match read reader size turn with
    | none => .panicked
    | some (bytes, some err, _) => .ended (got ++ bytes) err
    | some (bytes, none, reader) => readAll read (got ++ bytes) reader calls

/-- A caller never panics and, unless its source has not told its end, has come to one:
it has got the bytes and the error of the source, or a stream beyond the limit has failed. -/
def Faithful (limit : Int) (data : List α) (final : ReadError) : Outcome α → Prop
  | .panicked => False
  | .reading bytes reader => data = bytes ++ reader.source.rest ∧ reader.source.told = false
  | .ended bytes err => if data.length ≤ limit then bytes = data ∧ err = final else err = .tooLarge

structure Passed (limit : Int) (data : List α) (final : ReadError) (got : List α) (reader : Capped α) : Prop where
  whole : data = got ++ reader.source.rest
  left : reader.left = limit - got.length
  fits : 0 ≤ reader.left
  same : reader.source.final = final
  quiet : reader.source.told = false

variable {reader : Capped α}

theorem Passed.read (passed : Passed limit data final got reader) (size : Nat) (turn : Turn)
    (few : min turn.count (min size reader.source.rest.length) ≤ reader.left)
    (read : reader.source.read size turn = (bytes, err, source)) :
    (err = none → Passed limit data final (got ++ bytes) ⟨source, reader.left - bytes.length⟩) ∧
      (∀ told, err = some told → got ++ bytes = data ∧ told = final ∧ data.length ≤ limit) := by
  have whole := passed.whole
  have left := passed.left
  cases read
  constructor
  · intro silent
    simp only [ite_eq_right_iff, reduceCtorEq, imp_false, Bool.not_eq_true] at silent
    refine ⟨by simp [whole], ?_, ?_, passed.same, silent⟩
    · simp only [List.length_append]
      omega
    · simp only [List.length_take]
      omega
  · intro told ends
    simp only [Option.ite_none_right_eq_some, Bool.and_eq_true, decide_eq_true_eq, Option.some.injEq] at ends
    obtain ⟨⟨all, _⟩, rfl⟩ := ends
    rw [← all, List.take_length, whole, List.length_append]
    exact ⟨rfl, passed.same, by omega⟩

private theorem reader_faithful (bound : limit < 2 ^ 63 - 1) (passed : Passed limit data final got reader)
    (calls : List (Nat × Turn)) : Faithful limit data final (readAll cappedReader got reader calls) := by
  induction calls generalizing got reader with
  | nil => exact ⟨passed.whole, passed.quiet⟩
  | cons call calls ih =>
    obtain ⟨size, turn⟩ := call
    have fits := passed.fits
    have left := passed.left
    have more : oneMore reader.left = reader.left + 1 := Int.bmod_eq_of_le (by omega) (by omega)
    rw [readAll, cappedReader, if_neg (by omega), if_neg (by omega), more]
    generalize size_eq : (if (size : Int) > reader.left + 1 then (reader.left + 1).toNat else size) = capped
    obtain ⟨⟨bytes, err, source⟩, read⟩ : ∃ answer, reader.source.read capped turn = answer := ⟨_, rfl⟩
    rw [read]
    have count : bytes.length = min turn.count (min capped reader.source.rest.length) := by
      cases read
      simp only [List.length_take]
      omega
    by_cases beyond : reader.left - bytes.length < 0
    · have long : ¬ data.length ≤ limit := by
        rw [passed.whole, List.length_append]
        omega
      simp only [if_pos beyond, Faithful, if_neg long]
    · obtain ⟨on, ends⟩ := passed.read capped turn (by omega) read
      simp only [if_neg beyond]
      cases err with
      | none => exact ih (on rfl)
      | some told =>
        obtain ⟨all, same, short⟩ := ends told rfl
        simp [Faithful, all, same, short]

def Prompt (calls : List (Nat × Turn)) : Prop := ∀ call ∈ calls, 0 < call.2.count

theorem body_faithful (passed : Passed limit data final got reader) (calls : List (Nat × Turn))
    (bound : data.length = limit → final = .eof) (prompt : data.length ≤ limit ∨ Prompt calls) :
    Faithful limit data final (readAll cappedBody got reader calls) := by
  induction calls generalizing got reader with
  | nil => exact ⟨passed.whole, passed.quiet⟩
  | cons call calls ih =>
    obtain ⟨size, turn⟩ := call
    have fits := passed.fits
    have left := passed.left
    have whole := congrArg List.length passed.whole
    rw [List.length_append] at whole
    rw [readAll, cappedBody]
    by_cases spent : reader.left ≤ 0
    · simp only [if_pos spent, Source.read, List.length_take]
      by_cases none : min turn.count (min 1 reader.source.rest.length) = 0
      · have empty : reader.source.rest = [] := by
          rw [← List.length_eq_zero_iff]
          rcases prompt with short | prompt
          · omega
          · have positive := prompt _ List.mem_cons_self
            simp only at positive
            omega
        have same : data = got := by simpa [empty] using passed.whole
        have exact_ : data.length = limit := by
          rw [empty, List.length_nil] at whole
          omega
        rw [same] at exact_
        simp [none, Faithful, same, exact_, bound (same ▸ exact_)]
      · have beyond : ¬ data.length ≤ limit := by omega
        have some : min (min turn.count (min 1 reader.source.rest.length)) reader.source.rest.length > 0 := by omega
        simp only [if_pos some, Faithful, if_neg beyond]
    · simp only [if_neg spent]
      generalize size_eq : (if (size : Int) > reader.left then reader.left.toNat else size) = capped
      have short : (capped : Int) ≤ reader.left := by
        split at size_eq <;> omega
      obtain ⟨⟨bytes, err, source⟩, read⟩ : ∃ answer, reader.source.read capped turn = answer := ⟨_, rfl⟩
      rw [read]
      obtain ⟨on, ends⟩ := passed.read capped turn (by omega) read
      cases err with
      | none =>
        exact ih (on rfl) (prompt.imp_right fun prompt call member => prompt call (List.mem_cons_of_mem _ member))
      | some told =>
        obtain ⟨all, same, short⟩ := ends told rfl
        simp [Faithful, all, same, short]

def start (limit : Int) (data : List α) (final : ReadError) : Capped α := ⟨⟨data, final, false⟩, limit⟩

theorem Passed.start (positive : 0 < limit) : Passed limit data final [] (start limit data final) :=
  ⟨rfl, (Int.sub_zero limit).symm, Int.le_of_lt positive, rfl, rfl⟩

theorem probe_ends {limit : Nat} (positive : 0 < limit) (long : limit ≤ data.length) (turn : Turn)
    (silent : data.length = limit ∨ turn.count = 0) :
    readAll cappedBody [] (start limit data final) [(limit, ⟨limit, false⟩), (1, turn)] =
      .ended (data.take limit) .eof := by
  have taken : (start limit data final).source.read limit ⟨limit, false⟩ =
      (data.take limit, none, ⟨data.drop limit, final, false⟩) := by
    simp [Source.read, start, long]
  have probe : (Source.read ⟨data.drop limit, final, false⟩ 1 turn).1 = [] := by
    rcases silent with same | zero
    · simp [Source.read, same]
    · simp [Source.read, zero]
  have spent : (limit : Int) - (data.take limit).length = 0 := by
    rw [List.length_take]
    omega
  rw [readAll, cappedBody, if_neg (by simp [start]; omega), if_neg (by simp [start]), taken]
  simp only [start, spent, List.nil_append, readAll, cappedBody, if_pos (Int.le_refl 0), probe, List.length_nil,
    gt_iff_lt, Nat.lt_irrefl, if_false, List.append_nil]

/-- What the source answers decides for `cappedBody`: with answers that may be empty it
is faithful only to what is below the limit, or ends there with `io.EOF`; with none that
are, to everything but a stream of the limit's length that does not end so. The other
reader is faithful to every stream, except that it panics with the largest limit. -/
theorem capped_readers_faithful_iff {limit : Nat} (positive : 0 < limit) (range : limit < 2 ^ 63) (data : List α)
    (final : ReadError) :
    ((∀ calls, Faithful limit data final (readAll cappedBody [] (start limit data final) calls)) ↔
      data.length < limit ∨ data.length = limit ∧ final = .eof) ∧
    ((∀ calls, Prompt calls → Faithful limit data final (readAll cappedBody [] (start limit data final) calls)) ↔
      (data.length = limit → final = .eof)) ∧
    ((∀ calls, Faithful limit data final (readAll cappedReader [] (start limit data final) calls)) ↔
      limit ≠ 2 ^ 63 - 1) := by
  have begun : Passed (limit : Int) data final [] (start limit data final) := .start (by omega)
  refine ⟨⟨fun faithful => ?_, fun short calls => ?_⟩, ⟨fun faithful same => ?_, fun bound calls prompt => ?_⟩,
    ⟨fun faithful same => ?_, fun other calls => ?_⟩⟩
  · by_contra long
    rw [not_or] at long
    have ended := faithful [(limit, ⟨limit, false⟩), (1, ⟨0, true⟩)]
    rw [probe_ends positive (by omega) _ (.inr rfl), Faithful] at ended
    split at ended
    · exact long.2 ⟨by omega, ended.2.symm⟩
    · cases ended
  · refine body_faithful begun calls (fun same => ?_) (.inl (by omega))
    rcases short with less | ⟨_, eof⟩
    · omega
    · exact eof
  · have ended := faithful [(limit, ⟨limit, false⟩), (1, ⟨1, true⟩)] (by simp [Prompt, positive])
    rw [probe_ends positive (by omega) _ (.inl same), Faithful, if_pos (by omega)] at ended
    exact ended.2.symm
  · exact body_faithful begun calls (fun same => bound (by omega)) (.inr prompt)
  · have wraps : oneMore limit = -2 ^ 63 := by
      rw [same]
      decide
    have panics : readAll cappedReader [] (start limit data final) [(limit, ⟨0, false⟩)] = .panicked := by
      rw [readAll, cappedReader, if_neg (by simp [start]), if_pos]
      simp only [start, wraps]
      omega
    have broken : ¬ Faithful limit data final
        (readAll cappedReader [] (start limit data final) [(limit, ⟨0, false⟩)]) := by
      rw [panics]
      exact id
    simp only [faithful, not_true_eq_false] at broken
  · exact reader_faithful (by omega) begun calls

theorem short_response_is_read :
    let calls := [(4, ⟨1, false⟩), (4, ⟨0, false⟩), (4, ⟨1, false⟩), (4, ⟨0, true⟩)]
    readAll cappedBody [] (start 3 [0, 1] (.other 0)) calls = .ended [0, 1] (.other 0) ∧
    Faithful 3 [0, 1] (.other 0) (readAll cappedBody [] (start 3 [0, 1] (.other 0)) calls) ∧
    readAll cappedReader [] (start 1 [0, 1] .eof) calls = .ended [0, 1] .tooLarge ∧
    Faithful 1 [0, 1] .eof (readAll cappedReader [] (start 1 [0, 1] .eof) calls) :=
  ⟨rfl, (capped_readers_faithful_iff (by decide) (by decide) _ _).1.mpr (.inl (by decide)) _, rfl,
    (capped_readers_faithful_iff (by decide) (by decide) _ _).2.2.mpr (by decide) _⟩

/-- A response of two bytes is cut off after a byte that is followed by an empty answer. -/
theorem empty_answer_truncates :
    readAll cappedBody [] (start 1 [0, 1] .eof) [(4, ⟨1, false⟩), (4, ⟨0, false⟩)] = .ended [0] .eof := rfl

end Gofi.Httpx.Capping
