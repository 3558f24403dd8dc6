import Mathlib.Data.List.Basic
import Mathlib.Data.List.Infix

/-! Paths with segments for the place itself and the place above: where such a
walk leads, and when it ends below a given place. -/

namespace Gofi.Text

/-- The two segments that are no names. -/
structure Dots (α : Type) where
  here : α
  above : α

namespace Dots

variable {α β : Type} [DecidableEq α] (d : Dots α)

/-- One segment further; above the root is the root. -/
def visit (place : List α) (segment : α) : List α :=
  if segment = d.here then place else if segment = d.above then place.dropLast else place ++ [segment]

def resolve (walk : List α) : List α := walk.foldl d.visit []

/-- A walk that starts this many segments below a place and stays below it. -/
def Descends : Nat → List α → Prop
  | _, [] => True
  | depth, segment :: rest =>
    if segment = d.here then Descends depth rest
    else if segment = d.above then 0 < depth ∧ Descends (depth - 1) rest
    else Descends (depth + 1) rest

/-- The first place on the way to which the names of the base have been read. -/
def First (names : α → List β) (base : List β) (place : List α) : Prop :=
  base <+: place.flatMap names ∧ ∀ earlier, earlier <+: place → base <+: earlier.flatMap names → earlier = place

/-- The walk reaches the base, and stays below it from then on. -/
def Enters (names : α → List β) (base : List β) (walk : List α) : Prop :=
  ∃ climb stay, walk = climb ++ stay ∧ First names base (d.resolve climb) ∧ d.Descends 0 stay

variable {d}

theorem visit_here (place : List α) : d.visit place d.here = place := if_pos rfl

theorem visit_above (apart : d.above ≠ d.here) (place : List α) : d.visit place d.above = place.dropLast := by
  rw [visit, if_neg apart, if_pos rfl]

theorem visit_name {segment : α} (here : segment ≠ d.here) (above : segment ≠ d.above) (place : List α) :
    d.visit place segment = place ++ [segment] := by
  rw [visit, if_neg here, if_neg above]

theorem descends_here (depth : Nat) (rest : List α) : d.Descends depth (d.here :: rest) ↔ d.Descends depth rest := by
  rw [Descends, if_pos rfl]

theorem descends_above (apart : d.above ≠ d.here) (depth : Nat) (rest : List α) :
    d.Descends depth (d.above :: rest) ↔ 0 < depth ∧ d.Descends (depth - 1) rest := by
  rw [Descends, if_neg apart, if_pos rfl]

theorem descends_name {segment : α} (here : segment ≠ d.here) (above : segment ≠ d.above) (depth : Nat)
    (rest : List α) :
    d.Descends depth (segment :: rest) ↔ d.Descends (depth + 1) rest := by
  rw [Descends, if_neg here, if_neg above]

variable {walk : List α}

theorem foldl_visit_append (descends : d.Descends below.length walk) (place : List α) :
    walk.foldl d.visit (place ++ below) = place ++ walk.foldl d.visit below := by
  induction walk generalizing below with
  | nil => rfl
  | cons segment rest ih =>
    rw [List.foldl_cons, List.foldl_cons]
    by_cases here : segment = d.here
    · subst here
      rw [visit_here, visit_here]
      exact ih ((descends_here ..).mp descends)
    by_cases above : segment = d.above
    · subst above
      obtain ⟨deep, onward⟩ := (descends_above here ..).mp descends
      rw [visit_above here, visit_above here, List.dropLast_append_of_ne_nil (List.ne_nil_of_length_pos deep)]
      exact ih (by rwa [List.length_dropLast])
    · rw [visit_name here above, visit_name here above, List.append_assoc]
      exact ih (by simpa using (descends_name here above ..).mp descends)

theorem resolve_append (descends : d.Descends 0 stay) :
    d.resolve (climb ++ stay) = d.resolve climb ++ d.resolve stay := by
  have from_here : stay.foldl d.visit (d.resolve climb ++ []) = d.resolve climb ++ d.resolve stay :=
    foldl_visit_append descends (d.resolve climb)
  rwa [List.append_nil, resolve, ← List.foldl_append] at from_here

variable {place : List α}

theorem passes {start : List α} (reached : place <+: walk.foldl d.visit start) :
    (∃ below, start = place ++ below ∧ d.Descends below.length walk) ∨
      ∃ climb stay, walk = climb ++ stay ∧ climb.foldl d.visit start = place ∧ d.Descends 0 stay := by
  induction walk generalizing start with
  | nil =>
    obtain ⟨below, same⟩ := reached
    exact .inl ⟨below, same.symm, trivial⟩
  | cons segment rest ih =>
    rw [List.foldl_cons] at reached
    rcases ih reached with ⟨below, same, descends⟩ | ⟨climb, stay, rfl, through, descends⟩
    · cases below using List.reverseRecOn with
      | nil => exact .inr ⟨[segment], rest, rfl, by rw [List.foldl_cons, same]; simp, descends⟩
      | append_singleton front last =>
        left
        by_cases here : segment = d.here
        · subst here
          rw [visit_here] at same
          exact ⟨front ++ [last], same, (descends_here ..).mpr descends⟩
        by_cases above : segment = d.above
        · subst above
          rw [visit_above here] at same
          have nonempty : start ≠ [] := by
            rintro rfl
            simp at same
          refine ⟨front ++ [last, start.getLast nonempty], ?_, ?_⟩
          · conv_lhs => rw [← List.dropLast_append_getLast nonempty, same]
            simp
          · exact (descends_above here ..).mpr ⟨by simp, by simpa using descends⟩
        · rw [visit_name here above, ← List.append_assoc] at same
          obtain ⟨same, _⟩ := List.append_inj' same rfl
          exact ⟨front, same, (descends_name here above ..).mpr (by simpa using descends)⟩
    · exact .inr ⟨segment :: climb, stay, rfl, through, descends⟩

theorem exists_cut (reached : place <+: d.resolve walk) :
    ∃ climb stay, walk = climb ++ stay ∧ d.resolve climb = place ∧ d.Descends 0 stay := by
  rcases passes reached with ⟨below, root, descends⟩ | cut
  · obtain ⟨rfl, rfl⟩ := List.append_eq_nil_iff.mp root.symm
    exact ⟨[], walk, rfl, rfl, descends⟩
  · exact cut

variable {names : α → List β}

omit [DecidableEq α] in
theorem exists_first (inside : base <+: place.flatMap names) : ∃ first, first <+: place ∧ First names base first := by
  induction place using List.reverseRecOn with
  | nil => exact ⟨[], List.prefix_refl _, inside, fun earlier empty _ => List.prefix_nil.mp empty⟩
  | append_singleton front last ih =>
    by_cases before : base <+: front.flatMap names
    · obtain ⟨first, early, is_first⟩ := ih before
      exact ⟨first, early.trans (List.prefix_append ..), is_first⟩
    · refine ⟨front ++ [last], List.prefix_refl _, inside, fun earlier early read => ?_⟩
      rcases List.prefix_concat_iff.mp early with same | proper
      · exact same
      · obtain ⟨more, rfl⟩ := proper
        exact absurd (read.trans (by simp)) before

/-- A walk ends below the base exactly if it enters it and stays. -/
theorem below_resolve_iff : base <+: (d.resolve walk).flatMap names ↔ d.Enters names base walk := by
  constructor
  · intro inside
    obtain ⟨first, early, is_first⟩ := exists_first inside
    obtain ⟨climb, stay, rfl, rfl, descends⟩ := exists_cut early
    exact ⟨climb, stay, rfl, is_first, descends⟩
  · rintro ⟨climb, stay, rfl, is_first, descends⟩
    rw [resolve_append descends, List.flatMap_append]
    exact is_first.1.trans (List.prefix_append ..)

end Dots

end Gofi.Text
