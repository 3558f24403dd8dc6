import Mathlib.Data.List.Basic

/-! Sequential programs over an interface of atomic operations. A program is
suspended at each operation until its surroundings answer, so one definition
serves the sequential meaning and every interleaving. -/

namespace Gofi.Concurrent

/-- An interface: its operations and the type of the answer to each of them. -/
structure Sig where
  Op : Type
  Ans : Op → Type

/-- The operations of two interfaces side by side. -/
@[reducible] def Sig.sum (P L : Sig) : Sig where
  Op := Sum P.Op L.Op
  Ans
    | .inl op => P.Ans op
    | .inr op => L.Ans op

/-- A program either returned a value or waits for the answer to one operation. -/
inductive Prog (S : Sig) (α : Type) where
  | done (value : α)
  | call (op : S.Op) (next : S.Ans op → Prog S α)

structure Event (S : Sig) where
  op : S.Op
  ans : S.Ans op

/-- The operations a program has performed, the latest first. -/
abbrev History (S : Sig) := List (Event S)

namespace Prog

def bind : Prog S α → (α → Prog S β) → Prog S β
  | .done value, rest => rest value
  | .call op next, rest => .call op fun ans => (next ans).bind rest

instance : Monad (Prog S) where
  pure := .done
  bind := bind

def perform (op : S.Op) : Prog S (S.Ans op) := .call op .done

/-- A program over the first of two interfaces, as one over both. -/
def left : Prog P α → Prog (P.sum L) α
  | .done value => .done value
  | .call op next => .call (.inl op) fun ans => (next ans).left

@[simp] theorem pure_eq (value : α) : (pure value : Prog S α) = .done value := rfl

@[simp] theorem bind_eq (program : Prog S α) (rest : α → Prog S β) : program >>= rest = program.bind rest := rfl

@[simp] theorem done_bind (value : α) (rest : α → Prog S β) : (Prog.done value).bind rest = rest value := rfl

@[simp] theorem call_bind (op : S.Op) (next : S.Ans op → Prog S α) (rest : α → Prog S β) :
    (Prog.call op next).bind rest = .call op fun ans => (next ans).bind rest := rfl

end Prog

/-- `Runs program past rest`: answering the operations of `past` takes `program` to `rest`. -/
inductive Runs (program : Prog S α) : History S → Prog S α → Prop where
  | start : Runs program [] program
  | step {op : S.Op} {next : S.Ans op → Prog S α} (earlier : Runs program past (.call op next))
      (ans : S.Ans op) : Runs program (⟨op, ans⟩ :: past) (next ans)

/-- Every operation the program performs from `past` on is allowed by the history
before it, and every value it returns meets the postcondition. -/
def Prog.Meets (allowed : History S → S.Op → Prop) (post : History S → α → Prop) : Prog S α → History S → Prop
  | .done value, past => post past value
  | .call op next, past => allowed past op ∧ ∀ ans, (next ans).Meets allowed post (⟨op, ans⟩ :: past)

namespace Prog.Meets

variable {allowed : History S → S.Op → Prop}

@[simp] theorem done_iff (value : α) (post : History S → α → Prop) (past : History S) :
    (Prog.done value).Meets allowed post past ↔ post past value := Iff.rfl

@[simp] theorem call_iff (op : S.Op) (next : S.Ans op → Prog S α) (post : History S → α → Prop)
    (past : History S) : (Prog.call op next).Meets allowed post past ↔
      allowed past op ∧ ∀ ans, (next ans).Meets allowed post (⟨op, ans⟩ :: past) := Iff.rfl

variable {post : History S → α → Prop}

theorem mono {looser : History S → S.Op → Prop} {weaker : History S → α → Prop}
    (meets : Prog.Meets allowed post program past) (permits : ∀ later op, allowed later op → looser later op)
    (imp : ∀ later value, post later value → weaker later value) : Prog.Meets looser weaker program past := by
  induction program generalizing past with
  | done value => exact imp past value meets
  | call op next ih => exact ⟨permits past op meets.1, fun ans => ih ans (meets.2 ans)⟩

variable {middle : History S → α → Prop}

/-- Sequencing: the rest of the program starts where the first part returned. -/
theorem bind {rest : α → Prog S β} {post : History S → β → Prop} (first : Prog.Meets allowed middle program past)
    (next : ∀ later value, middle later value → (rest value).Meets allowed post later) :
    (program.bind rest).Meets allowed post past := by
  induction program generalizing past with
  | done value => exact next past value first
  | call op continued ih => exact ⟨first.1, fun ans => ih ans (first.2 ans)⟩

/-- Sequencing with a frame: whatever the first part adds to the history is of the kind it keeps to. -/
theorem seq {kind : S.Op → Prop} {rest : α → Prog S β} {post : History S → β → Prop}
    (first : Prog.Meets (fun past op => allowed past op ∧ kind op) middle program past)
    (next : ∀ added value, (∀ event ∈ added, kind event.op) → middle (added ++ past) value →
      (rest value).Meets allowed post (added ++ past)) :
    (program.bind rest).Meets allowed post past := by
  suffices general : ∀ before, (∀ event ∈ before, kind event.op) →
      Prog.Meets (fun past op => allowed past op ∧ kind op) middle program (before ++ past) →
      (program.bind rest).Meets allowed post (before ++ past) from general [] (by simp) first
  clear first
  induction program with
  | done value => exact fun before ofKind meets => next before value ofKind meets
  | call op continued ih =>
    intro before ofKind meets
    refine ⟨meets.1.1, fun ans => ih ans (⟨op, ans⟩ :: before) ?_ (meets.2 ans)⟩
    intro event member
    rcases List.mem_cons.mp member with rfl | old
    · exact meets.1.2
    · exact ofKind event old

theorem grows (program : Prog S α) (past : History S) :
    program.Meets (fun _ _ => True) (fun later _ => past <:+ later) past := by
  suffices general : ∀ now, past <:+ now → program.Meets (fun _ _ => True) (fun later _ => past <:+ later) now from
    general past (List.suffix_refl _)
  induction program with
  | done value => exact fun now grown => grown
  | call op next ih => exact fun now grown => ⟨trivial, fun ans => ih ans _ (grown.trans (List.suffix_cons ..))⟩

/-- A run keeps what its program meets, at the history reached so far. -/
theorem along (meets : Prog.Meets allowed post program [])
    (run : Runs program past rest) : rest.Meets allowed post past := by
  induction run with
  | start => exact meets
  | step earlier ans ih => exact ih.2 ans

/-- Every operation a run has performed was allowed when it was performed. -/
theorem at_suffix (meets : Prog.Meets allowed post program [])
    (run : Runs program past rest) (suffix : event :: earlier <:+ past) : allowed earlier event.op := by
  induction run with
  | start => cases List.suffix_nil.mp suffix
  | step before ans ih =>
    rcases List.suffix_cons_iff.mp suffix with same | old
    · cases same
      exact (meets.along before).1
    · exact ih old

theorem performed (meets : Prog.Meets allowed post program []) (run : Runs program past rest) (member : event ∈ past) :
    ∃ earlier, event :: earlier <:+ past ∧ allowed earlier event.op := by
  obtain ⟨later, earlier, rfl⟩ := List.append_of_mem member
  exact ⟨earlier, List.suffix_append .., meets.at_suffix run (List.suffix_append ..)⟩

/-- An operation that is only allowed while no other of its kind was performed is performed once. -/
theorem once (kind : S.Op → Prop) (first : ∀ past op, allowed past op → kind op → ∀ event ∈ past, ¬ kind event.op)
    (meets : Prog.Meets allowed post program []) (run : Runs program past rest)
    (left : one ∈ past) (right : other ∈ past) (leftKind : kind one.op) (rightKind : kind other.op) : one = other := by
  induction run with
  | start => cases left
  | @step before op next earlier ans ih =>
    have fresh := first before op (meets.along earlier).1
    rcases List.mem_cons.mp left with rfl | oldLeft <;> rcases List.mem_cons.mp right with rfl | oldRight
    · rfl
    · exact absurd rightKind (fresh leftKind _ oldRight)
    · exact absurd leftKind (fresh rightKind _ oldLeft)
    · exact ih oldLeft oldRight

end Prog.Meets

end Gofi.Concurrent
