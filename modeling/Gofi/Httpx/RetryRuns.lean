import Gofi.Httpx.SafeRetries

/-! The attempts of a call of `Execute`, one after the other. -/

namespace Gofi.Httpx.Client

open Gofi.Go

section

variable {lib : RetryLibrary} {r : Request} {turns : Nat → Turn}

/-- What the attempts from one on do, when `left` may follow it. -/
structure Attempts (lib : RetryLibrary) (r : Request) (turns : Nat → Turn) (left attempt : Nat) (payload : Option Str)
    (run : Run) : Prop where
  bounded : run.events.countP Event.isSend ≤ left + 1
  sends : ∀ number body, .sends number body ∈ run.events → attempt ≤ number ∧ body = payload
  repeats : ∀ number body, .sends (number + 1) body ∈ run.events → attempt ≤ number →
    r.Repeatable lib ∨ ∃ text, (turns number).result = .response 429 text
  waits : ∀ number sleep wait, .waits number sleep wait ∈ run.events → (turns number).Fits lib →
    WaitFine lib r (turns number) sleep wait
  closed : ∀ number, .receives number ∈ run.events → .closes number ∈ run.events ∨ run.result = .ok number

theorem Step.Fine.ends {step : Step} {turn : Turn} (fine : step.Fine lib r last attempt turn reader)
    (same : turn = turns attempt) (result : Except RequestError Nat)
    (returned : ∀ events number, step = .done events (.ok number) → result = .ok number) :
    Attempts lib r turns left attempt reader ⟨step.events, result⟩ where
  bounded := Nat.le_trans fine.once (Nat.le_add_left _ _)
  sends number body member := by
    obtain ⟨rfl, rfl⟩ := fine.sends number body member
    exact ⟨Nat.le_refl _, rfl⟩
  repeats number body member later := by
    obtain ⟨rfl, _⟩ := fine.sends _ body member
    omega
  waits number sleep wait member := by
    obtain ⟨rfl, waited⟩ := fine.waits number sleep wait member
    exact same ▸ waited
  closed number member := by
    rcases fine.closed number member with shut | ⟨events, done⟩
    · exact .inl shut
    · exact .inr (returned events number done)

theorem Step.Fine.goesOn {turn : Turn} (fine : (Step.again seen sleep).Fine lib r last attempt turn payload)
    (same : turn = turns attempt) (later : Attempts lib r turns left (attempt + 1) payload run) :
    Attempts lib r turns (left + 1) attempt payload ⟨seen ++ run.events, run.result⟩ where
  bounded := by
    have here := fine.once
    have rest := later.bounded
    simp only [Step.events] at here
    rw [List.countP_append]
    omega
  sends number body member := by
    rcases List.mem_append.mp member with here | rest
    · obtain ⟨rfl, rfl⟩ := fine.sends number body here
      exact ⟨Nat.le_refl _, rfl⟩
    · obtain ⟨after, sent⟩ := later.sends number body rest
      exact ⟨Nat.le_of_succ_le after, sent⟩
  repeats number body member from_ := by
    rcases List.mem_append.mp member with here | rest
    · obtain ⟨rfl, _⟩ := fine.sends _ body here
      omega
    · by_cases first : number = attempt
      · rw [first, ← same]
        exact (fine.again seen sleep rfl).2
      · exact later.repeats number body rest (by omega)
  waits number sleep wait member := by
    rcases List.mem_append.mp member with here | rest
    · obtain ⟨rfl, waited⟩ := fine.waits number sleep wait here
      exact same ▸ waited
    · exact later.waits number sleep wait rest
  closed number member := by
    rcases List.mem_append.mp member with here | rest
    · rcases fine.closed number here with shut | ⟨_, done⟩
      · exact .inl (List.mem_append_left _ shut)
      · cases done
    · rcases later.closed number rest with shut | returned
      · exact .inl (List.mem_append_right _ shut)
      · exact .inr returned

/-- The induction over the attempts: each of them sends what was to be sent, since
the reader is made anew, or there is none, or there is no other attempt. -/
theorem attempts_fine (jsonData : Option Str) (left : Nat) :
    ∀ (attempt : Nat) (sleep : Int) (reader : Option Str), (jsonData = none → reader = none ∨ left = 0) →
      Attempts lib r turns left attempt (jsonData.or reader)
        (attempts lib r turns jsonData left attempt sleep reader) := by
  induction left with
  | zero =>
    intro attempt sleep reader _
    have fine := fine_attemptOnce lib r (turns attempt) true attempt sleep (jsonData.or reader)
    rw [attempts]
    generalize step : attemptOnce lib r (decide (0 = 0)) attempt (turns attempt) sleep (jsonData.or reader) = outcome
    rw [show attemptOnce lib r true attempt (turns attempt) sleep (jsonData.or reader) = outcome from step] at fine
    cases outcome with
    | done events result => exact fine.ends rfl result fun _ _ same => by cases same; rfl
    | again events next => exact fine.ends rfl _ nofun
  | succ left ih =>
    intro attempt sleep reader kept
    have fine := fine_attemptOnce lib r (turns attempt) (decide (left + 1 = 0)) attempt sleep (jsonData.or reader)
    rw [attempts]
    generalize step : attemptOnce lib r (decide (left + 1 = 0)) attempt (turns attempt) sleep (jsonData.or reader) =
      outcome at fine
    cases outcome with
    | done events result => exact fine.ends rfl result fun _ _ same => by cases same; rfl
    | again events next =>
      refine fine.goesOn rfl ?_
      have again := ih (attempt + 1) next ((jsonData.or reader).map (·.drop (turns attempt).consumed))
      cases jsonData with
      | some data => exact again nofun
      | none =>
        have absent : reader = none := (kept rfl).resolve_right (Nat.succ_ne_zero left)
        rw [absent]
        rw [absent] at again
        exact again fun _ => .inl rfl

private theorem prepared_payload (prepared : r.prepareRequestBody = .ok body) :
    body.jsonData.or body.reader = r.payload ∧ (r.Streamed → body.jsonData = none ∧ body.reader.isSome = true) := by
  simp only [Request.prepareRequestBody, Request.payload, Request.Streamed] at prepared ⊢
  by_cases get : r.method = ascii "GET"
  · rw [if_pos get] at prepared ⊢
    cases prepared
    exact ⟨rfl, fun streamed => absurd get streamed.1⟩
  · rw [if_neg get] at prepared ⊢
    cases shape : r.body with
    | none | values =>
      rw [shape] at prepared
      cases prepared
      exact ⟨rfl, fun streamed => by obtain ⟨_, _, _, other, _⟩ := streamed; cases other⟩
    | buffer bytes =>
      rw [shape] at prepared
      cases prepared
      exact ⟨by cases bytes <;> rfl, fun streamed => by obtain ⟨_, _, _, other, _⟩ := streamed; cases other⟩
    | other json =>
      rw [shape] at prepared
      cases json <;> cases prepared
      exact ⟨rfl, fun streamed => by obtain ⟨_, _, _, other, _⟩ := streamed; cases other⟩
    | reader bytes fails =>
      simp only [shape] at prepared
      split at prepared
      · rename_i small
        split at prepared <;> cases prepared
        refine ⟨rfl, fun streamed => ?_⟩
        obtain ⟨_, _, _, same, large⟩ := streamed
        cases same
        omega
      · cases prepared
        exact ⟨rfl, fun _ => ⟨rfl, rfl⟩⟩

private theorem executeWithRetries_fine (lib : RetryLibrary) (turns : Nat → Turn)
    (prepared : r.prepareRequestBody = .ok body) : ∃ retries ≤ r.retries,
    (r.Streamed → retries = 0) ∧ Attempts lib r turns retries 0 r.payload (executeWithRetries lib r turns body) := by
  obtain ⟨payload, streamed⟩ := prepared_payload prepared
  rw [← payload]
  simp only [executeWithRetries]
  split
  · exact ⟨0, Nat.zero_le _, fun _ => rfl, attempts_fine _ 0 0 _ _ fun _ => .inr rfl⟩
  · rename_i kept
    refine ⟨r.retries, Nat.le_refl _, fun stream => ?_, attempts_fine _ _ 0 _ _ fun absent => ?_⟩
    · obtain ⟨absent, some⟩ := streamed stream
      exact Nat.eq_zero_of_not_pos fun positive => kept ⟨some, absent, positive⟩
    · cases reader : body.reader with
      | none => exact .inl rfl
      | some bytes =>
        exact .inr (Nat.eq_zero_of_not_pos fun positive => kept ⟨by rw [reader]; rfl, absent, positive⟩)

/-- A call of `Execute` keeps the promise when no 429 that it waits after asks for a
delay of more seconds than 64 bits hold. -/
theorem retries_are_safe (fits : ∀ attempt sleep wait, .waits attempt sleep wait ∈ (execute lib r turns).events →
    (turns attempt).Fits lib) : SafeRetries lib r turns (execute lib r turns) := by
  revert fits
  simp only [execute]
  split
  · refine fun _ => ⟨?_, ?_, ?_, ?_, ?_, ?_⟩ <;> simp
  · rename_i body prepared
    obtain ⟨retries, fewer, single, fine⟩ := executeWithRetries_fine lib turns prepared
    have repeats : ¬ r.Repeatable lib →
      ∀ attempt sent, .sends (attempt + 1) sent ∈ (executeWithRetries lib r turns body).events →
        ∃ text, (turns attempt).result = .response 429 text := fun harmful attempt sent member =>
      (fine.repeats attempt sent member (Nat.zero_le _)).resolve_left harmful
    split
    · rename_i error failed
      refine fun fits => ⟨?_, repeats, fun attempt sent member => (fine.sends attempt sent member).2, fun stream => ?_,
        fun attempt sleep wait member => fine.waits _ _ _ member (fits _ _ _ member), fun attempt member => ?_⟩
      · have bounded := fine.bounded
        omega
      · have bounded := fine.bounded
        rwa [single stream] at bounded
      · exact (fine.closed attempt member).resolve_right fun returned => by rw [failed] at returned; cases returned
    · rename_i last returned
      have count : ((executeWithRetries lib r turns body).events ++ [Event.closes last]).countP Event.isSend =
          (executeWithRetries lib r turns body).events.countP Event.isSend := by
        rw [List.countP_append]
        rfl
      refine fun fits => ⟨?_, fun harmful attempt sent member => ?_, fun attempt sent member => ?_, fun stream => ?_,
        fun attempt sleep wait member => ?_, fun attempt member => ?_⟩
      · have bounded := fine.bounded
        rw [count]
        omega
      · exact repeats harmful attempt sent ((List.mem_append.mp member).resolve_right (by simp))
      · exact (fine.sends attempt sent ((List.mem_append.mp member).resolve_right (by simp))).2
      · have bounded := fine.bounded
        rw [count]
        rwa [single stream] at bounded
      · exact fine.waits attempt sleep wait ((List.mem_append.mp member).resolve_right (by simp)) (fits _ _ _ member)
      · have before := (List.mem_append.mp member).resolve_right (by simp)
        rcases fine.closed attempt before with shut | same
        · exact List.mem_append_left _ shut
        · rw [returned, Except.ok.injEq] at same
          exact List.mem_append_right _ (List.mem_singleton.mpr (by rw [same]))

end

def plainLibrary : RetryLibrary where
  trimSpace text := text
  equalFold left right := left = right
  statusText _ := []
  parseTime _ := none
  dated := nofun

def onePost : Request :=
  { method := ascii "POST", headers := [], body := .other (some (ascii "1")), retries := 1, retrySleep := 2 * second,
    disableRetryOn429 := false, urlErr := false, clientMaxRetryAfter := 0, bounded := by decide }

def limitedOnce (retryAfter : Str) (attempt : Nat) : Turn :=
  { limited := false, refused := false, consumed := 0, jitter := 0, now := 0, canceled := false,
    result := if attempt = 0 then .response 429 retryAfter else .response 200 [] }

theorem limited_post_is_repeated_safely : (execute plainLibrary onePost (limitedOnce (ascii "1"))).events =
      [.sends 0 (some (ascii "1")), .receives 0, .closes 0, .waits 0 second second, .sends 1 (some (ascii "1")),
        .receives 1, .closes 1] ∧
    SafeRetries plainLibrary onePost (limitedOnce (ascii "1"))
      (execute plainLibrary onePost (limitedOnce (ascii "1"))) := by
  refine ⟨rfl, retries_are_safe fun attempt _ _ _ text same secs number => ?_⟩
  cases attempt with
  | zero =>
    cases same
    have one : parseNat (ascii "1") = some 1 := by decide
    cases one.symm.trans number
    decide
  | succ attempt => cases same

/-- A delay of 2^63 seconds, which the field may ask for, is taken for none: the wait is
of a few seconds and not the longest one allowed. -/
theorem large_delay_is_ignored : askedDelay plainLibrary (ascii "9223372036854775808") 0 = some (2 ^ 63 * second) ∧
    .waits 0 (7 * second) 3500000000 ∈
      (execute plainLibrary onePost (limitedOnce (ascii "9223372036854775808"))).events ∧
    min (2 ^ 63 * second) onePost.maxRetryAfter = 30 * second ∧
    ¬ SafeRetries plainLibrary onePost (limitedOnce (ascii "9223372036854775808"))
      (execute plainLibrary onePost (limitedOnce (ascii "9223372036854775808"))) := by
  have asked : askedDelay plainLibrary (ascii "9223372036854775808") 0 = some (2 ^ 63 * second) := by decide
  have waits : .waits 0 (7 * second) 3500000000 ∈
      (execute plainLibrary onePost (limitedOnce (ascii "9223372036854775808"))).events := by decide
  refine ⟨asked, waits, by decide, fun safe => ?_⟩
  have same := (safe.waits 0 _ _ waits).1 _ _ rfl asked
  exact absurd same (by decide)

end Gofi.Httpx.Client
