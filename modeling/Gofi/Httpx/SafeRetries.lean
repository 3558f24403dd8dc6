import Gofi.Httpx.Retries

/-! What a call of `Execute` does, whatever the world does: it is bounded, repeats
only what may be repeated, sends one body, waits as long as it is asked to, and closes
every response. -/

namespace Gofi.Httpx.Client

open Gofi.Go

def askedDelay (lib : RetryLibrary) (text : Str) (now : Int) : Option Int :=
  match parseNat (lib.trimSpace text) with
  | some secs => some (secs * second)
  | none => (lib.parseTime (lib.trimSpace text)).map fun time => max (time - now) 0

/-- The seconds that the response asks to wait for fit 64 bits. -/
def Turn.Fits (lib : RetryLibrary) (turn : Turn) : Prop :=
  ∀ text, turn.result = .response 429 text → ∀ secs, parseNat (lib.trimSpace text) = some secs → secs < 2 ^ 63

def Request.payload (r : Request) : Option Str :=
  if r.method = ascii "GET" then none
  else match r.body with
    | .none => none
    | .values encoded => some encoded
    | .buffer bytes => some (bytes.getD [])
    | .reader bytes _ => some bytes
    | .other json => json

def Request.Streamed (r : Request) : Prop :=
  r.method ≠ ascii "GET" ∧ ∃ bytes fails, r.body = .reader bytes fails ∧ maxBufferedRequestBytes < bytes.length

def Request.Repeatable (lib : RetryLibrary) (r : Request) : Prop :=
  r.method ∈ Request.idempotentMethods ∨
    ∃ key value, (key, value) ∈ r.headers ∧ lib.equalFold key (ascii "Idempotency-Key") = true ∧ value ≠ []

def Event.isSend : Event → Bool
  | .sends _ _ => true
  | _ => false

def Between (sleep wait : Int) : Prop := min (sleep.tdiv 2) sleep ≤ wait ∧ wait ≤ max (sleep.tdiv 2) sleep

def WaitFine (lib : RetryLibrary) (r : Request) (turn : Turn) (sleep wait : Int) : Prop :=
  (∀ text delay, turn.result = .response 429 text → askedDelay lib text turn.now = some delay →
    wait = min delay r.maxRetryAfter) ∧ Between sleep wait

structure SafeRetries (lib : RetryLibrary) (r : Request) (turns : Nat → Turn) (run : Run) : Prop where
  bounded : run.events.countP Event.isSend ≤ 1 + r.retries
  repeats : ¬ r.Repeatable lib → ∀ attempt body, .sends (attempt + 1) body ∈ run.events →
    ∃ text, (turns attempt).result = .response 429 text
  payload : ∀ attempt body, .sends attempt body ∈ run.events → body = r.payload
  streamed : r.Streamed → run.events.countP Event.isSend ≤ 1
  waits : ∀ attempt sleep wait, .waits attempt sleep wait ∈ run.events → WaitFine lib r (turns attempt) sleep wait
  closed : ∀ attempt, .receives attempt ∈ run.events → .closes attempt ∈ run.events

/-! ### The parts of an attempt -/

theorem retrySafe_iff (lib : RetryLibrary) (r : Request) : r.retrySafe lib = true ↔ r.Repeatable lib := by
  simp [Request.retrySafe, Request.Repeatable]

theorem between_self (sleep : Int) : Between sleep sleep := ⟨Int.min_le_right _ _, Int.le_max_right _ _⟩

theorem between_withJitter (sleep : Int) (jitter : Nat) : Between sleep (withJitter sleep jitter) := by
  rw [withJitter]
  split
  · exact between_self sleep
  · have half : sleep.tdiv 2 = sleep / 2 := Int.tdiv_eq_ediv_of_nonneg (by omega)
    have positive : 0 < sleep / 2 := by omega
    have low := Int.emod_nonneg jitter (Int.ne_of_gt positive)
    have high := Int.emod_lt_of_pos jitter positive
    rw [Between, half]
    constructor <;> omega

variable {text : Str}

private theorem digits_of_parseDigits {value : Nat} (parsed : parseDigits value text = some result) :
    ∀ byte ∈ text, digitValue byte ≠ none := by
  induction text generalizing value with
  | nil => exact fun _ member => absurd member List.not_mem_nil
  | cons byte rest ih =>
    simp only [parseDigits, Option.bind_eq_some_iff] at parsed
    obtain ⟨next, here, later⟩ := parsed
    intro other member
    rcases List.mem_cons.mp member with rfl | behind
    · rw [here]
      exact Option.some_ne_none _
    · exact ih later other behind

theorem digits_of_parseNat (parsed : parseNat text = some value) : ∀ byte ∈ text, digitValue byte ≠ none := by
  cases text with
  | nil => cases parsed
  | cons byte rest => exact digits_of_parseDigits parsed

private theorem signed_of_parseInt (parsed : parseInt text = some value) :
    ∀ byte ∈ text, digitValue byte ≠ none ∨ byte = 43 ∨ byte = 45 := by
  intro byte member
  simp only [parseInt] at parsed
  split at parsed <;> obtain ⟨number, digits, _⟩ := Option.bind_eq_some_iff.mp parsed
  · rcases List.mem_cons.mp member with rfl | behind
    · exact .inr (.inr rfl)
    · exact .inl (digits_of_parseNat digits byte behind)
  · rcases List.mem_cons.mp member with rfl | behind
    · exact .inr (.inl rfl)
    · exact .inl (digits_of_parseNat digits byte behind)
  · exact .inl (digits_of_parseNat digits byte member)

private theorem parseInt_of_parseNat (parsed : parseNat text = some value) (fits : value < 2 ^ 63) :
    parseInt text = some (value : Int) := by
  have digits := digits_of_parseNat parsed
  rw [parseInt.eq_def]
  split
  · exact absurd (show digitValue 45 = none by decide) (digits 45 List.mem_cons_self)
  · exact absurd (show digitValue 43 = none by decide) (digits 43 List.mem_cons_self)
  · rw [parsed, Option.bind_some, if_pos fits]

theorem Request.maxRetryAfter_le (r : Request) : r.maxRetryAfter ≤ maxDuration := by
  rw [maxRetryAfter]
  split
  · exact r.bounded
  · decide

theorem parseRetryAfter_of_asked {lib : RetryLibrary} (asked : askedDelay lib text now = some delay)
    (fits : ∀ secs, parseNat (lib.trimSpace text) = some secs → secs < 2 ^ 63) (r : Request) :
    ∃ read, parseRetryAfter lib text now = some read ∧ min read r.maxRetryAfter = min delay r.maxRetryAfter := by
  have most := r.maxRetryAfter_le
  simp only [askedDelay] at asked
  split at asked
  · rename_i secs number
    cases asked
    have filled : lib.trimSpace text ≠ [] := fun empty => by simp [empty, parseNat] at number
    simp only [parseRetryAfter, if_neg filled, parseInt_of_parseNat number (fits secs number)]
    rw [if_neg (Int.not_lt.mpr (Int.natCast_nonneg secs))]
    split
    · rename_i large
      refine ⟨_, rfl, ?_⟩
      simp only [maxDuration, second] at most large ⊢
      omega
    · exact ⟨_, rfl, rfl⟩
  · obtain ⟨time, date, rfl⟩ := Option.map_eq_some_iff.mp asked
    obtain ⟨byte, member, other, plus, minus⟩ := lib.dated _ _ date
    have filled : lib.trimSpace text ≠ [] := List.ne_nil_of_mem member
    have text_ : parseInt (lib.trimSpace text) = none := by
      refine Option.eq_none_iff_forall_ne_some.mpr fun value parsed => ?_
      rcases signed_of_parseInt parsed byte member with digit | sign | sign
      · exact digit other
      · exact plus sign
      · exact minus sign
    simp only [parseRetryAfter, if_neg filled, text_, date, Option.map_some]
    refine ⟨_, rfl, ?_⟩
    simp only [subTime, maxDuration] at most ⊢
    omega

section

variable {lib : RetryLibrary} {r : Request} {turn : Turn}

def Step.events : Step → List Event
  | .done events _ => events
  | .again events _ => events

/-- What an attempt does after its request, and what it does beside sending it. -/
structure Step.Kept (lib : RetryLibrary) (r : Request) (last : Bool) (attempt : Nat) (turn : Turn) (step : Step) :
    Prop where
  waits : ∀ number sleep wait, .waits number sleep wait ∈ step.events →
    number = attempt ∧ (turn.Fits lib → WaitFine lib r turn sleep wait)
  closed : ∀ number, .receives number ∈ step.events → .closes number ∈ step.events ∨
    ∃ events, step = .done events (.ok number)
  again : ∀ events sleep, step = .again events sleep →
    last = false ∧ (r.Repeatable lib ∨ ∃ text, turn.result = .response 429 text)

structure Step.Follows (lib : RetryLibrary) (r : Request) (last : Bool) (attempt : Nat) (turn : Turn) (step : Step) :
    Prop extends step.Kept lib r last attempt turn where
  sends : ∀ number body, .sends number body ∉ step.events

theorem follows_done (events : List Event) (empty : events = [] ∨ events = [.receives attempt, .closes attempt])
    (error : RequestError) : (Step.done events (.error error)).Follows lib r last attempt turn := by
  rcases empty with rfl | rfl <;> refine ⟨⟨?_, ?_, nofun⟩, ?_⟩ <;> simp [Step.events]

theorem follows_pause (events : List Event) (empty : events = [] ∨ events = [.receives attempt, .closes attempt])
    (wait : turn.Fits lib → WaitFine lib r turn sleep duration) (going : last = false)
    (allowed : r.Repeatable lib ∨ ∃ text, turn.result = .response 429 text) :
    (pause attempt turn events sleep duration).Follows lib r last attempt turn := by
  have waits : ∀ number other slept, .waits number other slept ∈ events ++ [.waits attempt sleep duration] →
      number = attempt ∧ (turn.Fits lib → WaitFine lib r turn other slept) := by
    intro number other slept member
    rcases empty with rfl | rfl <;> simp at member <;> obtain ⟨rfl, rfl, rfl⟩ := member <;> exact ⟨rfl, wait⟩
  simp only [pause]
  split
  · refine ⟨⟨waits, ?_, nofun⟩, ?_⟩ <;> rcases empty with rfl | rfl <;> simp [Step.events]
  · refine ⟨⟨waits, ?_, fun _ _ _ => ⟨going, allowed⟩⟩, ?_⟩ <;> rcases empty with rfl | rfl <;> simp [Step.events]

theorem waitFine_jitter (other : ∀ text, turn.result ≠ .response 429 text) (sleep : Int) :
    WaitFine lib r turn sleep (withJitter sleep turn.jitter) :=
  ⟨fun text _ same => absurd same (other text), between_withJitter sleep turn.jitter⟩

private theorem follows_failure (result : turn.result = .failure redirectBlocked message status) (sleep : Int) :
    (afterFailure lib r last attempt turn sleep redirectBlocked message status).Follows lib r last attempt turn := by
  simp only [afterFailure]
  generalize seen : (if status.isSome then [Event.receives attempt, .closes attempt] else []) = events
  have empty : events = [] ∨ events = [.receives attempt, .closes attempt] := by
    rw [← seen]
    split
    · exact .inr rfl
    · exact .inl rfl
  split
  · exact follows_done _ empty _
  · split
    · exact follows_done _ empty _
    · rename_i going
      rw [Bool.or_eq_true, not_or, Bool.not_eq_true, Bool.not_eq_true', Bool.not_eq_false] at going
      refine follows_pause _ empty (fun _ => waitFine_jitter (fun text same => ?_) sleep) going.1
        (.inl ((retrySafe_iff lib r).mp going.2))
      rw [result] at same
      cases same

private theorem waitFine_retryAfter (fits : turn.Fits lib) (result : turn.result = .response 429 retryAfter)
    (sleep : Int) :
    let next := handleRetryAfterHeader lib r retryAfter turn.now sleep
    WaitFine lib r turn next.1 (if next.2 then next.1 else withJitter next.1 turn.jitter) := by
  cases parsed : parseRetryAfter lib retryAfter turn.now with
  | some read =>
    simp only [handleRetryAfterHeader, parsed, if_true]
    refine ⟨fun text delay same asked => ?_, between_self _⟩
    rw [result, DoResult.response.injEq] at same
    obtain ⟨_, rfl⟩ := same
    obtain ⟨_, also, equal⟩ := parseRetryAfter_of_asked asked (fits _ result) r
    rw [parsed, Option.some.injEq] at also
    rw [also]
    exact equal
  | none =>
    simp only [handleRetryAfterHeader, parsed, Bool.false_eq_true, if_false]
    refine ⟨fun text delay same asked => ?_, between_withJitter _ _⟩
    rw [result, DoResult.response.injEq] at same
    obtain ⟨_, rfl⟩ := same
    obtain ⟨_, read, _⟩ := parseRetryAfter_of_asked asked (fits _ result) r
    rw [parsed] at read
    cases read

private theorem follows_response (result : turn.result = .response status retryAfter) (sleep : Int) :
    (afterResponse lib r last attempt turn sleep status retryAfter).Follows lib r last attempt turn := by
  simp only [afterResponse]
  split
  · rename_i limited
    rw [limited] at result
    split
    · exact follows_done _ (.inr rfl) _
    · split
      · exact follows_done _ (.inr rfl) _
      · rename_i going
        exact follows_pause _ (.inr rfl) (fun fits => waitFine_retryAfter fits result sleep)
          (Bool.not_eq_true _ ▸ going)
          (.inr ⟨_, result⟩)
  · rename_i unlimited
    split
    · exact follows_done _ (.inr rfl) _
    · split
      · split
        · exact follows_done _ (.inr rfl) _
        · rename_i going
          simp only [Bool.or_eq_true, not_or, Bool.not_eq_true, Bool.not_eq_eq_eq_not, Bool.not_true,
            Bool.not_eq_false] at going
          refine follows_pause _ (.inr rfl) (fun _ => waitFine_jitter (fun text same => ?_) sleep) going.1.2
            (.inl ((retrySafe_iff lib r).mp going.2))
          rw [result, DoResult.response.injEq] at same
          exact unlimited same.1
      · refine ⟨⟨?_, ?_, nofun⟩, ?_⟩ <;> simp [Step.events]

structure Step.Fine (lib : RetryLibrary) (r : Request) (last : Bool) (attempt : Nat) (turn : Turn)
    (reader : Option Str)
    (step : Step) : Prop extends step.Kept lib r last attempt turn where
  sends : ∀ number body, .sends number body ∈ step.events → number = attempt ∧ body = reader
  once : step.events.countP Event.isSend ≤ 1

private theorem countP_isSend {events : List Event} (none : ∀ number body, .sends number body ∉ events) :
    events.countP Event.isSend = 0 := by
  refine List.countP_eq_zero.mpr fun event member send => ?_
  cases event with
  | sends number body => exact none number body member
  | receives | closes | waits => cases send

theorem Step.Follows.sent {step : Step} (follows : step.Follows lib r last attempt turn) (reader : Option Str) :
    (match step with
      | .done events result => Step.done (.sends attempt reader :: events) result
      | .again events sleep =>
        .again (.sends attempt reader :: events) sleep).Fine lib r last attempt turn reader := by
  have count := countP_isSend follows.sends
  obtain ⟨⟨waits, closed, again⟩, sends⟩ := follows
  have sent (events : List Event) (none : ∀ number body, .sends number body ∉ events) (number : Nat)
    (body : Option Str)
      (member : .sends number body ∈ .sends attempt reader :: events) : number = attempt ∧ body = reader := by
    rcases List.mem_cons.mp member with same | behind
    · cases same
      exact ⟨rfl, rfl⟩
    · exact absurd behind (none number body)
  cases step with
  | done events result =>
    refine ⟨⟨fun number sleep wait member => ?_, fun number member => ?_, nofun⟩, sent events sends, ?_⟩
    · exact waits number sleep wait ((List.mem_cons.mp member).resolve_left nofun)
    · rcases closed number ((List.mem_cons.mp member).resolve_left nofun) with shut | ⟨_, returned⟩
      · exact .inl (List.mem_cons_of_mem _ shut)
      · cases returned
        exact .inr ⟨_, rfl⟩
    · rw [Step.events, List.countP_cons, show events.countP Event.isSend = 0 from count]
      split <;> decide
  | again events sleep =>
    refine ⟨⟨fun number sleep wait member => ?_, fun number member => ?_, fun _ _ _ => again events sleep rfl⟩,
      sent events sends, ?_⟩
    · exact waits number sleep wait ((List.mem_cons.mp member).resolve_left nofun)
    · rcases closed number ((List.mem_cons.mp member).resolve_left nofun) with shut | ⟨_, returned⟩
      · exact .inl (List.mem_cons_of_mem _ shut)
      · cases returned
    · rw [Step.events, List.countP_cons, show events.countP Event.isSend = 0 from count]
      split <;> decide

theorem fine_attemptOnce (lib : RetryLibrary) (r : Request) (turn : Turn) (last : Bool) (attempt : Nat) (sleep : Int)
    (reader : Option Str) :
    (attemptOnce lib r last attempt turn sleep reader).Fine lib r last attempt turn reader := by
  have unsent : ∀ error, (Step.done [] (.error error)).Fine lib r last attempt turn reader := fun _ =>
    ⟨⟨nofun, nofun, nofun⟩, nofun, by simp [Step.events]⟩
  simp only [attemptOnce]
  split
  · exact unsent _
  · split
    · exact unsent _
    · refine Step.Follows.sent ?_ reader
      split
      · rename_i result
        exact follows_failure result sleep
      · exact follows_done _ (.inl rfl) _
      · rename_i result
        exact follows_response result sleep

end

end Gofi.Httpx.Client
