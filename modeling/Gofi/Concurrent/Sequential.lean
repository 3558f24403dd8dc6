import Gofi.Concurrent.Program

/-! Programs that run alone, from beginning to end, over a world that answers
their operations. -/

namespace Gofi.Concurrent

/-- How a world answers: the operation, the answer, and the world after it. -/
abbrev Answers (S : Sig) (W : Type) := W → (op : S.Op) → S.Ans op → W → Prop

inductive Executes (answers : Answers S W) : W → Prog S α → W → α → Prop where
  | done : Executes answers world (.done value) world value
  | call {next : S.Ans op → Prog S α} (answered : answers world op ans middle)
      (onward : Executes answers middle (next ans) later value) : Executes answers world (.call op next) later value

/-- Wherever the program ends, the postcondition holds. -/
def Prog.Ensures (answers : Answers S W) (post : W → α → Prop) : Prog S α → W → Prop
  | .done value, world => post world value
  | .call op next, world => ∀ ans later, answers world op ans later → (next ans).Ensures answers post later

namespace Prog.Ensures

variable {answers : Answers S W}

theorem of_executes (ensures : Prog.Ensures answers post program world)
    (executed : Executes answers world program later value) : post later value := by
  induction executed with
  | done => exact ensures
  | call answered _ ih => exact ih (ensures _ _ answered)

theorem bind {rest : α → Prog S β}
    (first : Prog.Ensures answers middle program world)
    (next : ∀ later value, middle later value → (rest value).Ensures answers post later) :
    (program.bind rest).Ensures answers post world := by
  induction program generalizing world with
  | done value => exact next world value first
  | call op continued ih => exact fun ans later answered => ih ans (first ans later answered)

theorem left {P L : Sig} {answers : Answers (P.sum L) W} {property : W → Prop}
    (kept : ∀ world op ans later, property world → answers world (.inl op) ans later → property later)
    (program : Prog P α) (initial : property world) :
    Prog.Ensures answers (fun later _ => property later) (program.left (L := L)) world := by
  induction program generalizing world with
  | done value => exact initial
  | call op next ih => exact fun ans later answered => ih ans (kept world op ans later initial answered)

end Prog.Ensures

end Gofi.Concurrent
