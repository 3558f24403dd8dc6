import Gofi.Go.Text

/-! Texts whose parentheses match. -/

namespace Gofi.Text

open Gofi.Go

def depth : Nat → Str → Option Nat
  | n, [] => some n
  | n, byte :: rest =>
    if byte = 40 then depth (n + 1) rest
    else if byte = 41 then if n = 0 then none else depth (n - 1) rest
    else depth n rest

/-- The text needs `before` open parentheses and leaves `after` of them. -/
def Nests (before after : Nat) (text : Str) : Prop := ∀ more, depth (more + before) text = some (more + after)

/-- Every parenthesis of the text is closed in the text. -/
def Balanced (text : Str) : Prop := Nests 0 0 text

theorem depth_append (n : Nat) (front back : Str) : depth n (front ++ back) = (depth n front).bind fun m =>
    depth m back := by
  induction front generalizing n with
  | nil => rfl
  | cons byte rest ih =>
    rw [List.cons_append, depth, depth]
    split
    · exact ih (n + 1)
    split
    · split
      · rfl
      · exact ih (n - 1)
    · exact ih n

variable {a b : Nat}

theorem Nests.append {front back : Str} (one : Nests a b front) (other : Nests b c back) :
    Nests a c (front ++ back) := by
  intro more
  rw [depth_append, one more]
  exact other more

variable {text : Str}

theorem Nests.deeper (nests : Nests a b text) : Nests (a + 1) (b + 1) text := by
  intro more
  have shifted := nests (more + 1)
  rwa [Nat.add_right_comm, Nat.add_right_comm more 1 b] at shifted

theorem nests_of_depth (reached : depth a text = some b) : Nests a b text := by
  intro more
  induction text generalizing a with
  | nil =>
    cases reached
    rfl
  | cons byte rest ih =>
    rw [depth] at reached ⊢
    split at reached
    · rename_i opening
      rw [if_pos opening]
      exact ih reached
    rename_i noOpening
    rw [if_neg noOpening]
    split at reached
    · rename_i closing
      rw [if_pos closing]
      split at reached
      · cases reached
      · rename_i some_open
        rw [if_neg (by omega), Nat.add_sub_assoc (by omega)]
        exact ih reached
    · rename_i noClosing
      rw [if_neg noClosing]
      exact ih reached

theorem nests_of_plain (opening : 40 ∉ text) (closing : 41 ∉ text) (n : Nat) : Nests n n text := by
  intro more
  induction text with
  | nil => rfl
  | cons byte rest ih =>
    obtain ⟨noOpening, laterOpening⟩ := List.ne_and_not_mem_of_not_mem_cons opening
    obtain ⟨noClosing, laterClosing⟩ := List.ne_and_not_mem_of_not_mem_cons closing
    rw [depth, if_neg noOpening.symm, if_neg noClosing.symm]
    exact ih laterOpening laterClosing

theorem nests_intercalate {between : Str} {parts : List Str} (apart : Nests n n between)
    (each : ∀ part ∈ parts, Nests n n part) : Nests n n (between.intercalate parts) := by
  induction parts with
  | nil => exact fun _ => rfl
  | cons part rest ih =>
    obtain ⟨here, later⟩ := List.forall_mem_cons.mp each
    cases rest with
    | nil => simpa [List.intercalate] using here
    | cons next rest =>
      rw [intercalate_cons_cons]
      exact (here.append apart).append (ih later)

end Gofi.Text
