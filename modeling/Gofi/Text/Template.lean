import Gofi.Go.Text

/-! Texts with holes: every value stands where its placeholder is to be written.
Rendering numbers the holes from left to right. -/

namespace Gofi.Text

open Gofi.Go

inductive Piece (α : Type) where
  | text (bytes : Str)
  | hole (value : α)

abbrev Template (α : Type) := List (Piece α)

namespace Template

variable {α : Type}

def values : Template α → List α
  | [] => []
  | .text _ :: rest => values rest
  | .hole value :: rest => value :: values rest

/-- The text with a mark in each hole, the first of them numbered `count + 1`. -/
def render (mark : Nat → Str) : Nat → Template α → Str
  | _, [] => []
  | count, .text bytes :: rest => bytes ++ render mark count rest
  | count, .hole _ :: rest => mark (count + 1) ++ render mark (count + 1) rest

def skeleton : Template α → Template Unit
  | [] => []
  | .text bytes :: rest => .text bytes :: skeleton rest
  | .hole _ :: rest => .hole () :: skeleton rest

@[simp] theorem values_append (front back : Template α) : values (front ++ back) = values front ++ values back := by
  induction front with
  | nil => rfl
  | cons piece rest ih => cases piece <;> simp [values, ih]

@[simp] theorem skeleton_append (front back : Template α) :
    skeleton (front ++ back) = skeleton front ++ skeleton back := by
  induction front with
  | nil => rfl
  | cons piece rest ih => cases piece <;> simp [skeleton, ih]

theorem render_append (mark : Nat → Str) (count : Nat) (front back : Template α) :
    render mark count (front ++ back) = render mark count front ++
      render mark (count + (values front).length) back := by
  induction front generalizing count with
  | nil => rfl
  | cons piece rest ih =>
    cases piece with
    | text bytes => simp [render, values, ih]
    | hole value =>
      have shifted : count + 1 + (values rest).length = count + ((values rest).length + 1) := by omega
      simp [render, values, ih, shifted]

theorem render_skeleton (mark : Nat → Str) (count : Nat) (template : Template α) :
    render mark count (skeleton template) = render mark count template := by
  induction template generalizing count with
  | nil => rfl
  | cons piece rest ih => cases piece <;> simp [skeleton, render, ih]

/-- Templates that differ only in how their texts are cut into pieces. -/
def Same (one other : Template α) : Prop :=
  one.values = other.values ∧ ∀ mark count, one.render mark count = other.render mark count

namespace Same

theorem refl (template : Template α) : Same template template := ⟨rfl, fun _ _ => rfl⟩

theorem trans {one other third : Template α} (first : Same one other) (second : Same other third) : Same one third :=
  ⟨first.1.trans second.1, fun mark count => (first.2 mark count).trans (second.2 mark count)⟩

theorem append {one other front back : Template α} (first : Same one other) (second : Same front back) :
    Same (one ++ front) (other ++ back) := by
  refine ⟨by rw [values_append, values_append, first.1, second.1], fun mark count => ?_⟩
  rw [render_append, render_append, first.1, first.2, second.2]

theorem join_texts (one other : Str) (rest : Template α) :
    Same (.text one :: .text other :: rest) (.text (one ++ other) :: rest) := by
  refine ⟨rfl, fun mark count => ?_⟩
  simp [render]

end Same

end Template

end Gofi.Text
