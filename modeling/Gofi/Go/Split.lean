import Mathlib.Data.List.Basic

/-! `strings.Split` at a one-byte separator, over any alphabet. -/

namespace Gofi.Go

variable {α : Type} [DecidableEq α]

/-- The parts between the separators; an empty text is one empty part. -/
def split (sep : α) : List α → List (List α)
  | [] => [[]]
  | item :: rest =>
    if item = sep then [] :: split sep rest
    else
      match split sep rest with
      | [] => [[item]]
      | first :: others => (item :: first) :: others

attribute [local simp] split

theorem split_ne_nil (sep : α) (text : List α) : split sep text ≠ [] := by
  fun_cases split sep text <;> simp

variable {sep : α}

theorem split_of_not_mem {text : List α} (absent : sep ∉ text) : split sep text = [text] := by
  induction text with
  | nil => rfl
  | cons item rest ih =>
    simp only [List.mem_cons, not_or] at absent
    simp [Ne.symm absent.1, ih absent.2]

theorem split_append (sep : α) (front back : List α) :
    split sep (front ++ sep :: back) = split sep front ++ split sep back := by
  induction front with
  | nil => simp
  | cons item rest ih =>
    by_cases same : item = sep
    · simp [same, ih]
    · obtain ⟨first, others, parts⟩ := List.exists_cons_of_ne_nil (split_ne_nil sep rest)
      simp [same, ih, parts]

omit [DecidableEq α] in
theorem intercalate_cons (part : List α) (nonempty : rest ≠ []) :
    [sep].intercalate (part :: rest) = part ++ sep :: [sep].intercalate rest := by
  obtain ⟨second, others, rfl⟩ := List.exists_cons_of_ne_nil nonempty
  simp [List.intercalate]

omit [DecidableEq α] in
theorem intercalate_append {first second : List (List α)} (left : first ≠ []) (right : second ≠ []) :
    [sep].intercalate (first ++ second) = [sep].intercalate first ++ sep :: [sep].intercalate second := by
  induction first with
  | nil => contradiction
  | cons part rest ih =>
    by_cases last : rest = []
    · subst last
      rw [List.singleton_append, intercalate_cons part right]
      simp [List.intercalate]
    · rw [List.cons_append, intercalate_cons part (by simp [last]), ih last, intercalate_cons part last]
      simp

theorem intercalate_split (sep : α) (text : List α) : [sep].intercalate (split sep text) = text := by
  induction text with
  | nil => rfl
  | cons item rest ih =>
    by_cases same : item = sep
    · rw [split, if_pos same, intercalate_cons [] (split_ne_nil sep rest), ih, same, List.nil_append]
    · obtain ⟨first, others, parts⟩ := List.exists_cons_of_ne_nil (split_ne_nil sep rest)
      rw [split, if_neg same, parts]
      rw [parts] at ih
      cases others with
      | nil | cons second others => simpa [List.intercalate] using ih

theorem split_intercalate {parts : List (List α)} (nonempty : parts ≠ []) :
    split sep ([sep].intercalate parts) = parts.flatMap (split sep) := by
  induction parts with
  | nil => contradiction
  | cons part rest ih =>
    by_cases last : rest = []
    · simp [last, List.intercalate]
    · rw [intercalate_cons part last, split_append, ih last, List.flatMap_cons]

theorem split_intercalate_of_not_mem {parts : List (List α)} (nonempty : parts ≠ [])
    (absent : ∀ part ∈ parts, sep ∉ part) : split sep ([sep].intercalate parts) = parts := by
  rw [split_intercalate nonempty, List.flatMap_congr fun part member => split_of_not_mem (absent part member)]
  exact List.flatMap_singleton' parts

/-- The parts of a text begin with those of another that it is, or that it goes
on after with a separator. -/
theorem split_isPrefix_iff {short long : List α} :
    split sep short <+: split sep long ↔ long = short ∨ short ++ [sep] <+: long := by
  constructor
  · rintro ⟨more, same⟩
    by_cases last : more = []
    · rw [last, List.append_nil] at same
      rw [← intercalate_split sep long, ← same, intercalate_split]
      exact .inl rfl
    · refine .inr ⟨[sep].intercalate more, ?_⟩
      rw [← intercalate_split sep long, ← same, intercalate_append (split_ne_nil sep short) last, intercalate_split]
      simp
  · rintro (rfl | ⟨more, rfl⟩)
    · exact List.prefix_refl _
    · rw [List.append_assoc, List.singleton_append, split_append]
      exact List.prefix_append ..

end Gofi.Go
