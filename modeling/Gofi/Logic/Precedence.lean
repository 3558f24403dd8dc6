import Mathlib.Order.BoundedOrder.Lattice

/-! Conditions written as a sequence of tokens, read from left to right: NOT binds
tighter than AND, and AND tighter than OR. The values may be those of any logic
whose connectives form a lattice, such as the three-valued one of SQL. -/

namespace Gofi.Logic

inductive Token (α : Type u) where
  | operand (value : α)
  | and
  | or
  | not
  | opening
  | closing

namespace Token

def map (f : α → β) : Token α → Token β
  | .operand value => .operand (f value)
  | .and => .and
  | .or => .or
  | .not => .not
  | .opening => .opening
  | .closing => .closing

/-- The token without its operand. -/
def kind (token : Token α) : Token Unit := token.map fun _ => ()

end Token

/-- What has been read of a condition since its opening parenthesis: the value before the last OR, the
value after it, and whether the next operand is negated. -/
structure Frame (V : Type u) where
  disjunction : V
  conjunction : V
  negated : Bool

structure Reading (V : Type u) where
  current : Frame V
  outer : List (Frame V)
  waiting : Bool

variable {V : Type u} [Lattice V] [BoundedOrder V] (neg : V → V)

def Frame.fresh : Frame V := ⟨⊥, ⊤, false⟩

def Frame.value (frame : Frame V) : V := frame.disjunction ⊔ frame.conjunction

def Frame.take (frame : Frame V) (operand : V) : Frame V :=
  ⟨frame.disjunction, frame.conjunction ⊓ if frame.negated then neg operand else operand, false⟩

def step : Reading V → Token V → Option (Reading V)
  | ⟨current, outer, true⟩, .operand value => some ⟨current.take neg value, outer, false⟩
  | ⟨current, outer, true⟩, .not => some ⟨{ current with negated := !current.negated }, outer, true⟩
  | ⟨current, outer, true⟩, .opening => some ⟨.fresh, current :: outer, true⟩
  | ⟨current, outer, false⟩, .and => some ⟨current, outer, true⟩
  | ⟨current, outer, false⟩, .or => some ⟨⟨current.value, ⊤, false⟩, outer, true⟩
  | ⟨current, enclosing :: outer, false⟩, .closing => some ⟨enclosing.take neg current.value, outer, false⟩
  | _, _ => none

def scan : Reading V → List (Token V) → Option (Reading V)
  | reading, [] => some reading
  | reading, token :: rest => (step neg reading token).bind fun next => scan next rest

/-- The frame of a whole condition; none for a sequence that is not one. -/
def frameOf (tokens : List (Token V)) : Option (Frame V) :=
  match scan neg ⟨.fresh, [], true⟩ tokens with
  | some ⟨frame, [], false⟩ => some frame
  | _ => none

def denote (tokens : List (Token V)) : Option V := (frameOf neg tokens).map Frame.value

variable {neg}

theorem scan_append (reading : Reading V) (front back : List (Token V)) :
    scan neg reading (front ++ back) = (scan neg reading front).bind fun next => scan neg next back := by
  induction front generalizing reading with
  | nil => rfl
  | cons token rest ih =>
    rw [List.cons_append, scan, scan]
    cases step neg reading token with
    | none => rfl
    | some next => exact ih next

variable {after inner outer : List (Frame V)} {later waiting : Bool} {token : Token V}

theorem step_outer {current next : Frame V}
    (stepped : step neg ⟨current, inner, waiting⟩ token = some ⟨next, after, later⟩) :
    step neg ⟨current, inner ++ outer, waiting⟩ token = some ⟨next, after ++ outer, later⟩ := by
  cases waiting with
  | true => cases token <;> cases stepped <;> rfl
  | false =>
    cases token with
    | closing =>
      cases inner with
      | nil => cases stepped
      | cons enclosing inner => cases stepped; rfl
    | operand value => cases stepped
    | and | or => cases stepped; rfl
    | not | opening => cases stepped

variable {tokens : List (Token V)}

theorem scan_outer {current next : Frame V}
    (reads : scan neg ⟨current, inner, waiting⟩ tokens = some ⟨next, after, later⟩) :
    scan neg ⟨current, inner ++ outer, waiting⟩ tokens = some ⟨next, after ++ outer, later⟩ := by
  induction tokens generalizing current inner waiting with
  | nil =>
    cases reads
    rfl
  | cons token rest ih =>
    obtain ⟨⟨middle, frames, between⟩, stepped, onward⟩ := Option.bind_eq_some_iff.mp reads
    rw [scan, step_outer stepped]
    exact ih onward

variable {next reading : Reading V}

theorem step_settled (stepped : step neg reading token = some next)
    (ended : next.waiting = false) : next.current.negated = false := by
  obtain ⟨current, outer, waiting⟩ := reading
  cases waiting with
  | true => cases token <;> cases stepped <;> first | rfl | cases ended
  | false =>
    cases token with
    | closing =>
      cases outer with
      | nil => cases stepped
      | cons enclosing outer => cases stepped; rfl
    | operand value => cases stepped
    | and => cases stepped; cases ended
    | or => cases stepped; rfl
    | not | opening => cases stepped

variable {last : Reading V}

theorem scan_settled (reads : scan neg reading tokens = some last)
    (begun : reading.waiting = false → reading.current.negated = false) (ended : last.waiting = false) :
    last.current.negated = false := by
  induction tokens generalizing reading with
  | nil =>
    cases reads
    exact begun ended
  | cons token rest ih =>
    obtain ⟨next, stepped, onward⟩ := Option.bind_eq_some_iff.mp reads
    exact ih onward (step_settled stepped)

variable {frame : Frame V}

theorem frameOf_eq_some : frameOf neg tokens = some frame ↔
    scan neg ⟨.fresh, [], true⟩ tokens = some ⟨frame, [], false⟩ := by
  unfold frameOf
  constructor
  · intro found
    split at found <;> cases found
    rename_i reads
    exact reads
  · intro reads
    rw [reads]

variable {clause condition : List (Token V)} {value : V}

theorem frameOf_narrowed (base : frameOf neg condition = some frame) (inner : denote neg clause = some value) :
    frameOf neg (condition ++ [.and, .opening] ++ clause ++ [.closing]) =
      some ⟨frame.disjunction, frame.conjunction ⊓ value, false⟩ := by
  obtain ⟨clauseFrame, clauseRead, rfl⟩ := Option.map_eq_some_iff.mp inner
  have baseRead := frameOf_eq_some.mp base
  have settled : frame.negated = false := scan_settled baseRead (by simp) rfl
  have insideRead : scan neg ⟨.fresh, [] ++ [frame], true⟩ clause = some ⟨clauseFrame, [] ++ [frame], false⟩ :=
    scan_outer (frameOf_eq_some.mp clauseRead)
  apply frameOf_eq_some.mpr
  rw [List.append_assoc, List.append_assoc, scan_append, baseRead, Option.bind_some, scan_append]
  have opened : scan neg ⟨frame, [], false⟩ [.and, .opening] = some ⟨.fresh, [frame], true⟩ := rfl
  rw [opened, Option.bind_some, scan_append]
  have inside : scan neg ⟨.fresh, [frame], true⟩ clause = some ⟨clauseFrame, [frame], false⟩ := insideRead
  rw [inside]
  simp [scan, step, Frame.take, settled]

def outerOr : Nat → List (Token α) → Bool
  | 0, .or :: _ => true
  | depth, .opening :: rest => outerOr (depth + 1) rest
  | depth + 1, .closing :: rest => outerOr depth rest
  | depth, _ :: rest => outerOr depth rest
  | _, [] => false

/-- The frame of everything outside of parentheses. -/
def Reading.bottom (reading : Reading V) : Frame V := reading.outer.getLast?.getD reading.current

theorem step_bottom
    (stepped : step neg reading token = some next) (conjunctive : outerOr reading.outer.length (token :: rest) = false)
    (begun : reading.bottom.disjunction = ⊥) :
    next.bottom.disjunction = ⊥ ∧ outerOr next.outer.length rest = false := by
  obtain ⟨current, outer, waiting⟩ := reading
  cases waiting with
  | true =>
    cases token with
    | operand value | not =>
      cases stepped
      cases outer <;> exact ⟨begun, conjunctive⟩
    | opening =>
      cases stepped
      refine ⟨?_, by simpa [outerOr] using conjunctive⟩
      cases outer with
      | nil => exact begun
      | cons enclosing outer => simpa [Reading.bottom, List.getLast?_cons] using begun
    | and | or | closing => cases stepped
  | false =>
    cases token with
    | and =>
      cases stepped
      cases outer <;> exact ⟨begun, conjunctive⟩
    | or =>
      cases stepped
      cases outer with
      | nil => simp [outerOr] at conjunctive
      | cons enclosing outer => exact ⟨by simpa [Reading.bottom, List.getLast?_cons] using begun, conjunctive⟩
    | closing =>
      cases outer with
      | nil => cases stepped
      | cons enclosing outer =>
        cases stepped
        refine ⟨?_, by simpa [outerOr] using conjunctive⟩
        cases outer with
        | nil => exact begun
        | cons around outer => simpa [Reading.bottom, List.getLast?_cons] using begun
    | operand value | not | opening => cases stepped

theorem scan_bottom (reads : scan neg reading tokens = some last)
    (conjunctive : outerOr reading.outer.length tokens = false) (begun : reading.bottom.disjunction = ⊥) :
    last.bottom.disjunction = ⊥ := by
  induction tokens generalizing reading with
  | nil =>
    cases reads
    exact begun
  | cons token rest ih =>
    obtain ⟨next, stepped, onward⟩ := Option.bind_eq_some_iff.mp reads
    obtain ⟨kept, later⟩ := step_bottom stepped conjunctive begun
    exact ih onward later kept

theorem disjunction_of_no_outerOr (found : frameOf neg tokens = some frame)
    (conjunctive : outerOr 0 tokens = false) : frame.disjunction = ⊥ :=
  scan_bottom (frameOf_eq_some.mp found) conjunctive rfl

theorem denote_narrowed (base : frameOf neg condition = some frame) (inner : denote neg clause = some value) :
    denote neg (condition ++ [.and, .opening] ++ clause ++ [.closing]) =
      some (frame.disjunction ⊔ frame.conjunction ⊓ value) := by
  rw [denote, frameOf_narrowed base inner]
  rfl

/-- Conditions and connectors strictly alternate, from a condition to a condition. A condition is an operand, or
such a list in parentheses of its own. -/
inductive Alternates : List (Token α) → Prop
  | operand (value : α) : Alternates [.operand value]
  | closed {inner : List (Token α)} (alternates : Alternates inner) : Alternates (.opening :: inner ++ [.closing])
  | and {front back : List (Token α)} (first : Alternates front) (second : Alternates back) :
      Alternates (front ++ .and :: back)
  | or {front back : List (Token α)} (first : Alternates front) (second : Alternates back) :
      Alternates (front ++ .or :: back)

/-- A list that alternates is read to its end and leaves the enclosing parentheses open, whatever its operands are. -/
theorem Alternates.reads {shape : List (Token α)} (alternates : Alternates shape) {tokens : List (Token V)}
    (same : tokens.map Token.kind = shape.map Token.kind) (frame : Frame V) (outer : List (Frame V)) :
    ∃ last, scan neg ⟨frame, outer, true⟩ tokens = some ⟨last, outer, false⟩ := by
  induction alternates generalizing tokens frame outer with
  | operand value =>
    obtain ⟨token, rest, rfl, single, none⟩ := List.map_eq_cons_iff.mp same
    cases List.map_eq_nil_iff.mp none
    cases token <;> cases single
    exact ⟨_, rfl⟩
  | closed alternates ih =>
    obtain ⟨first, rest, rfl, opens, later⟩ := List.map_eq_cons_iff.mp same
    cases first <;> cases opens
    obtain ⟨inner, closing, rfl, inside, ends⟩ := List.map_eq_append_iff.mp (later.trans List.map_append)
    obtain ⟨token, rest, rfl, closes, none⟩ := List.map_eq_cons_iff.mp ends
    cases List.map_eq_nil_iff.mp none
    cases token <;> cases closes
    obtain ⟨last, reads⟩ := ih inside .fresh (frame :: outer)
    have opened : scan neg ⟨frame, outer, true⟩ (.opening :: (inner ++ [.closing])) =
        (scan neg ⟨.fresh, frame :: outer, true⟩ inner).bind fun next => scan neg next [.closing] :=
      scan_append _ inner [.closing]
    rw [opened, reads]
    exact ⟨_, rfl⟩
  | and first second one other =>
    obtain ⟨front, back, rfl, before, after⟩ := List.map_eq_append_iff.mp (same.trans List.map_append)
    obtain ⟨token, rest, rfl, connects, later⟩ := List.map_eq_cons_iff.mp after
    cases token <;> cases connects
    obtain ⟨middle, reads⟩ := one before frame outer
    rw [scan_append, reads]
    exact other later middle outer
  | or first second one other =>
    obtain ⟨front, back, rfl, before, after⟩ := List.map_eq_append_iff.mp (same.trans List.map_append)
    obtain ⟨token, rest, rfl, connects, later⟩ := List.map_eq_cons_iff.mp after
    cases token <;> cases connects
    obtain ⟨middle, reads⟩ := one before frame outer
    rw [scan_append, reads]
    exact other later ⟨middle.value, ⊤, false⟩ outer

/-- The clause is a condition. Whatever its operands denote, it restricts a base condition that it is joined to in
parentheses: what the base says after its last OR outside of parentheses and, without such an OR, all of it. -/
def Narrows (clause : List (Token α)) : Prop :=
  ∀ (V : Type) [Lattice V] [BoundedOrder V] (neg : V → V) (meant : List (Token V)),
    meant.map Token.kind = clause.map Token.kind → ∃ value, denote neg meant = some value ∧
      ∀ condition frame, frameOf neg condition = some frame →
        denote neg (condition ++ [.and, .opening] ++ meant ++ [.closing]) =
          some (frame.disjunction ⊔ frame.conjunction ⊓ value) ∧
        frame.disjunction ⊔ frame.conjunction ⊓ value ≤ frame.value ∧
        (outerOr 0 condition = false → frame.disjunction ⊔ frame.conjunction ⊓ value = frame.value ⊓ value)

theorem Alternates.narrows {clause : List (Token α)} (alternates : Alternates clause) : Narrows clause := by
  intro V _ _ neg meant same
  obtain ⟨last, reads⟩ : ∃ last, scan neg ⟨.fresh, [], true⟩ meant = some ⟨last, [], false⟩ :=
    alternates.reads same .fresh []
  have denoted : denote neg meant = some last.value := by
    rw [denote, frameOf_eq_some.mpr reads]
    rfl
  refine ⟨last.value, denoted, fun condition frame framed => ⟨denote_narrowed framed denoted, ?_, ?_⟩⟩
  · exact sup_le_sup_left inf_le_left _
  · intro conjunctive
    have nothing := disjunction_of_no_outerOr framed conjunctive
    have whole : frame.value = frame.conjunction := by rw [Frame.value, nothing, bot_sup_eq]
    rw [whole, nothing, bot_sup_eq]

end Gofi.Logic
