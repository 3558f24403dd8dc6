import Mathlib.Data.List.Basic

/-! Expressions of operands, a negation, binary operators of several strengths and
parentheses: the machine that reads them with a stack of open operators, and the
grammar it reads. Binary operators associate to the left. -/

namespace Gofi.Text.Operators

inductive Token (α β : Type) where
  | operand (value : α)
  | binary (o : β)
  | not
  | opening
  | closing
  deriving DecidableEq

inductive Expr (α β : Type) where
  | operand (value : α)
  | not (e : Expr α β)
  | binary (o : β) (left right : Expr α β)

/-- How strongly the operators bind; the negation binds the strongest. -/
structure Table (β : Type) where
  strength : β → Nat
  negation : Nat
  negation_pos : 0 < negation
  strength_lt : ∀ o, strength o < negation

inductive Mark (β : Type) where
  | opening
  | binary (o : β)
  | not

structure Machine (α β : Type) where
  values : List (Expr α β)
  marks : List (Mark β)
  waiting : Bool

variable {α β : Type} (table : Table β)

def Table.binds : Mark β → Nat
  | .opening => 0
  | .binary o => table.strength o
  | .not => table.negation

def Mark.apply : Mark β → List (Expr α β) → Option (List (Expr α β))
  | .not, value :: rest => some (.not value :: rest)
  | .binary o, right :: left :: rest => some (.binary o left right :: rest)
  | _, _ => none

/-- Applies the open operators that bind at least so strongly. -/
def settle (least : Nat) : List (Expr α β) → List (Mark β) → Option (List (Expr α β) × List (Mark β))
  | values, [] => some (values, [])
  | values, mark :: marks =>
    if least ≤ table.binds mark then (mark.apply values).bind fun values => settle least values marks
    else some (values, mark :: marks)

def step : Machine α β → Token α β → Option (Machine α β)
  | ⟨values, marks, true⟩, .operand value => some ⟨.operand value :: values, marks, false⟩
  | ⟨values, marks, true⟩, .not => some ⟨values, .not :: marks, true⟩
  | ⟨values, marks, true⟩, .opening => some ⟨values, .opening :: marks, true⟩
  | ⟨values, marks, false⟩, .binary o =>
    (settle table (table.strength o) values marks).map fun (values, marks) => ⟨values, .binary o :: marks, true⟩
  | ⟨values, marks, false⟩, .closing =>
    match settle table 1 values marks with
    | some (values, .opening :: marks) => some ⟨values, marks, false⟩
    | _ => none
  | _, _ => none

def run : Machine α β → List (Token α β) → Option (Machine α β)
  | machine, [] => some machine
  | machine, token :: rest => (step table machine token).bind fun next => run next rest

def parse (tokens : List (Token α β)) : Option (Expr α β) :=
  match run table ⟨[], [], true⟩ tokens with
  | some ⟨values, marks, false⟩ =>
    match settle table 1 values marks with
    | some ([e], []) => some e
    | _ => none
  | _ => none

inductive Derives : Nat → List (Token α β) → Expr α β → Prop where
  | operand : Derives least [.operand value] (.operand value)
  | not : Derives (table.negation + 1) tokens e → Derives least (.not :: tokens) (.not e)
  | grouped : Derives 1 tokens e → Derives least (.opening :: tokens ++ [.closing]) e
  | binary : least ≤ table.strength o → Derives (table.strength o) front left →
      Derives (table.strength o + 1) back right → Derives least (front ++ .binary o :: back) (.binary o left right)

variable {table}

variable {e : Expr α β} {tokens : List (Token α β)}

theorem Derives.weaken (derived : Derives table level tokens e)
    (weak : least ≤ level) : Derives table least tokens e := by
  cases derived with
  | operand => exact .operand
  | not inner => exact .not inner
  | grouped inner => exact .grouped inner
  | binary strong left right => exact .binary (Nat.le_trans weak strong) left right

theorem run_append (machine : Machine α β) (front back : List (Token α β)) :
    run table machine (front ++ back) = (run table machine front).bind fun next => run table next back := by
  induction front generalizing machine with
  | nil => rfl
  | cons token rest ih =>
    rw [List.cons_append, run, run]
    cases step table machine token with
    | none => rfl
    | some next => exact ih next

variable {marks : List (Mark β)}

theorem settle_below {values : List (Expr α β)}
    (below : ∀ mark ∈ marks.head?, table.binds mark < least) :
    settle table least values marks = some (values, marks) := by
  cases marks with
  | nil => rfl
  | cons mark marks => rw [settle, if_neg (Nat.not_le.mpr (below mark rfl))]

/-- The machine reads what the grammar derives and leaves a state that settles
like the whole expression. -/
theorem Derives.run (derived : Derives table level tokens e)
    (values : List (Expr α β)) (below : ∀ mark ∈ marks.head?, table.binds mark < level) :
    ∃ values' marks', run table ⟨values, marks, true⟩ tokens = some ⟨values', marks', false⟩ ∧
      ∀ least, least ≤ level → least ≤ table.negation →
        settle table least values' marks' = settle table least (e :: values) marks := by
  induction derived generalizing values marks with
  | operand => exact ⟨_, _, rfl, fun _ _ _ => rfl⟩
  | @not tokens e level derived ih =>
    have open_ : ∀ mark ∈ (Mark.not :: marks).head?, table.binds mark < table.negation + 1 := by
      simp [Table.binds]
    obtain ⟨values', marks', ran, settles⟩ := ih values open_
    refine ⟨values', marks', ran, fun least _ bounded => ?_⟩
    rw [settles least (by lia) bounded, settle, Table.binds, if_pos bounded]
    rfl
  | @grouped tokens e level derived ih =>
    have open_ : ∀ mark ∈ (Mark.opening :: marks).head?, table.binds mark < 1 := by
      simp [Table.binds]
    obtain ⟨values', marks', ran, settles⟩ := ih values open_
    refine ⟨e :: values, marks, ?_, fun _ _ _ => rfl⟩
    have settled : settle table 1 values' marks' = some (e :: values, .opening :: marks) := by
      rw [settles 1 (Nat.le_refl _) table.negation_pos, settle_below open_]
    rw [List.cons_append, Operators.run, step, Option.bind_some, run_append, ran]
    simp [Operators.run, step, settled]
  | @binary level o front left back right strong leftDerived rightDerived leftRead rightRead =>
    have weaker : ∀ mark ∈ marks.head?, table.binds mark < table.strength o :=
      fun mark top => Nat.lt_of_lt_of_le (below mark top) strong
    obtain ⟨values₁, marks₁, leftRan, leftSettles⟩ := leftRead values weaker
    have applied : settle table (table.strength o) values₁ marks₁ = some (left :: values, marks) := by
      rw [leftSettles _ (Nat.le_refl _) (Nat.le_of_lt (table.strength_lt o)), settle_below weaker]
    have open_ : ∀ mark ∈ (Mark.binary o :: marks).head?, table.binds mark < table.strength o + 1 := by
      simp [Table.binds]
    obtain ⟨values₂, marks₂, rightRan, rightSettles⟩ := rightRead (left :: values) open_
    refine ⟨values₂, marks₂, ?_, fun least weak bounded => ?_⟩
    · rw [run_append, leftRan, Option.bind_some, Operators.run, step, applied]
      exact rightRan
    · rw [rightSettles least (by lia) bounded, settle, Table.binds, if_pos (Nat.le_trans weak strong)]
      rfl

theorem Derives.parse (derived : Derives table 1 tokens e) : parse table tokens = some e := by
  have nothing : ∀ mark ∈ ([] : List (Mark β)).head?, table.binds mark < 1 := by simp
  obtain ⟨values, marks, ran, settles⟩ := derived.run [] nothing
  have settled : settle table 1 values marks = some ([e], []) := by
    rw [settles 1 (Nat.le_refl _) table.negation_pos]
    rfl
  simp [Operators.parse, ran, settled]

end Gofi.Text.Operators
