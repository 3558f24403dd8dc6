import Gofi.Go.Text
import Mathlib.Data.List.Basic

/-! Scanners: automata that turn a text into tokens, one character at a time. A
token may only be known to end with the character after it, so a piece of text
spells its tokens before a rest that begins with a stopping character. -/

namespace Gofi.Text

structure Scanner (σ : Type) (c : Type) (t : Type) where
  start : σ
  step : σ → c → Option (List t × σ)
  finish : σ → Option (List t)
  finish_start : finish start = some []

namespace Scanner

variable {σ c t : Type} (scanner : Scanner σ c t)

def run : σ → List c → Option (List t × σ)
  | state, [] => some ([], state)
  | state, char :: rest =>
    (scanner.step state char).bind fun (tokens, next) =>
      (run next rest).map fun (later, last) => (tokens ++ later, last)

def readFrom (state : σ) (text : List c) : Option (List t) :=
  (scanner.run state text).bind fun (tokens, last) => (scanner.finish last).map (tokens ++ ·)

def read (text : List c) : Option (List t) := scanner.readFrom scanner.start text

/-- A rest that is empty or begins with a character of a kind. -/
def Before (stop : c → Bool) (rest : List c) : Prop := ∀ char ∈ rest.head?, stop char = true

/-- The tokens of a text wherever it is read before a stopping character. -/
def Spells (stop : c → Bool) (text : List c) (tokens : List t) : Prop :=
  ∀ rest, Before stop rest → scanner.read (text ++ rest) = (scanner.read rest).map (tokens ++ ·)

variable {scanner}

theorem run_cons (stepped : scanner.step state char = some (tokens, next)) :
    scanner.run state (char :: rest) = (scanner.run next rest).map fun (later, last) => (tokens ++ later, last) := by
  simp [run, stepped]

theorem run_append (front back : List c) (moved : scanner.run state front = some (tokens, next)) :
    scanner.run state (front ++ back) = (scanner.run next back).map fun (later, last) => (tokens ++ later, last) := by
  induction front generalizing state tokens with
  | nil =>
    cases moved
    simp
  | cons char front ih =>
    cases stepped : scanner.step state char with
    | none => simp [run, stepped] at moved
    | some first =>
      obtain ⟨early, middle⟩ := first
      rw [run_cons stepped] at moved
      obtain ⟨⟨later, last⟩, continued, same⟩ := Option.map_eq_some_iff.mp moved
      cases same
      rw [List.cons_append, run_cons stepped, ih continued, Option.map_map]
      simp [Function.comp_def]

variable {front : List c}

theorem readFrom_append (rest : List c) (moved : scanner.run state front = some (tokens, next)) :
    scanner.readFrom state (front ++ rest) = (scanner.readFrom next rest).map (tokens ++ ·) := by
  simp only [readFrom, run_append front rest moved]
  cases scanner.run next rest with
  | none => rfl
  | some ended => simp [Option.map_map, Function.comp_def]

variable {text : List c}

theorem run_gathered {gathered : List c → σ}
    (steps : ∀ begun, ∀ char ∈ text, scanner.step (gathered begun) char = some ([], gathered (begun ++ [char])))
    (begun : List c) : scanner.run (gathered begun) text = some ([], gathered (begun ++ text)) := by
  induction text generalizing begun with
  | nil => simp [run]
  | cons char rest ih =>
    rw [run_cons (steps begun char (List.mem_cons_self ..)),
      ih (fun begun other later => steps begun other (List.mem_cons_of_mem _ later))]
    simp

theorem run_digits {scanner : Scanner σ UInt8 t} {number : Nat → σ} {text : Go.Str}
    (steps : ∀ value char digit, Go.digitValue char = some digit →
      scanner.step (number value) char = some ([], number (10 * value + digit)))
    (parsed : Go.parseDigits value text = some last) : scanner.run (number value) text = some ([], number last) := by
  induction text generalizing value with
  | nil =>
    cases parsed
    rfl
  | cons char rest ih =>
    obtain ⟨digit, read, later⟩ := Option.bind_eq_some_iff.mp parsed
    rw [run_cons (steps value char digit read), ih later]
    rfl

theorem spells_of_run (moved : scanner.run scanner.start text = some (tokens, scanner.start))
    (stop : c → Bool) : scanner.Spells stop text tokens :=
  fun rest _ => readFrom_append rest moved

variable {stop : c → Bool}

theorem spells_of_open (moved : scanner.run scanner.start text = some (tokens, state))
    (last : scanner.finish state = some more) (ends : ∀ char, stop char = true →
      scanner.step state char = (scanner.step scanner.start char).map fun (later, next) => (more ++ later, next)) :
    scanner.Spells stop text (tokens ++ more) := by
  intro rest before
  have opened : scanner.readFrom state rest = (scanner.read rest).map (more ++ ·) := by
    cases rest with
    | nil => simp [read, readFrom, run, last, scanner.finish_start]
    | cons char rest =>
      simp only [read, readFrom, run, ends char (before char rfl)]
      cases scanner.step scanner.start char with
      | none => rfl
      | some first =>
        obtain ⟨later, next⟩ := first
        cases ran : scanner.run next rest with
        | none => simp [ran]
        | some ended => simp [ran, Option.map_map, Function.comp_def]
  rw [read, readFrom_append rest moved, opened, Option.map_map]
  simp [Function.comp_def]

variable {after : c → Bool} {back : List c}

theorem Spells.append (one : scanner.Spells stop front early)
    (other : scanner.Spells after back late) (nonempty : back ≠ []) (begins : Before stop back) :
    scanner.Spells after (front ++ back) (early ++ late) := by
  intro rest before
  have meets : Before stop (back ++ rest) := by
    cases back with
    | nil => exact absurd rfl nonempty
    | cons char back => exact begins
  rw [List.append_assoc, one _ meets, other rest before, Option.map_map]
  simp [Function.comp_def]

theorem Spells.before_any (one : scanner.Spells (fun _ => true) front early)
    (other : scanner.Spells after back late) : scanner.Spells after (front ++ back) (early ++ late) := by
  intro rest before
  rw [List.append_assoc, one _ (fun _ _ => rfl), other rest before, Option.map_map]
  simp [Function.comp_def]

theorem Spells.read (spelled : scanner.Spells stop text tokens) : scanner.read text = some tokens := by
  have whole := spelled [] (by simp [Before])
  simpa [Scanner.read, readFrom, run, scanner.finish_start] using whole

end Scanner

end Gofi.Text
