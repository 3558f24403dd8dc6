import Gofi.Logging.Logger

/-! The console and every attached handler mask the same attributes, and what is
masked does not show in what they write. -/

namespace Gofi.Logging

open Gofi.Go

/-- An attribute that is not a group, with the names of the groups it is in. -/
structure Entry (α : Type) where
  groups : List Str
  key : Str
  leaf : Leaf α

mutual

def Tree.leaves (groups : List Str) (key : Str) : Tree α → List (Entry α)
  | .leaf leaf => [⟨groups, key, leaf⟩]
  | .group members => memberLeaves (enter groups key) members

def memberLeaves (groups : List Str) : List (Str × Tree α) → List (Entry α)
  | [] => []
  | (key, tree) :: rest => tree.leaves groups key ++ memberLeaves groups rest

end

def leaves (groups : List Str) (attr : Attr α) : List (Entry α) := attr.2.resolve.leaves groups attr.1

def Call.opens (groups : List Str) : Call α → List Str
  | .attrs _ => groups
  | .group name => enter groups name

def opened (calls : List (Call α)) : List Str := calls.foldl Call.opens []

def given (groups : List Str) : List (Call α) → List (Entry α)
  | [] => []
  | .attrs attrs :: rest => attrs.flatMap (leaves groups) ++ given groups rest
  | .group name :: rest => given (enter groups name) rest

def entries (calls : List (Call α)) (attrs : List (Attr α)) : List (Entry α) :=
  given [] calls ++ attrs.flatMap (leaves (opened calls))

def Delivery.entries (delivery : Delivery α ω) : List (Entry α) := Logging.entries delivery.received delivery.attrs

def Entry.masked [DecidableEq α] (r : Redactor) (entry : Entry α) : Entry α :=
  if entry.leaf ≠ .string [] ∧ (r.sensitive entry.key = true ∨ ∃ name ∈ entry.groups, r.sensitive name = true) then
    { entry with leaf := .string redactedValue }
  else entry

mutual

def Tree.Alike (r : Redactor) (sensitive : Bool) : Tree α → Tree α → Prop
  | .leaf one, .leaf other => one = other ∨ sensitive = true ∧ one ≠ .string [] ∧ other ≠ .string []
  | .group ones, .group others => AlikeMembers r sensitive ones others
  | .leaf _, .group _ => False
  | .group _, .leaf _ => False

def AlikeMembers (r : Redactor) (sensitive : Bool) : List (Str × Tree α) → List (Str × Tree α) → Prop
  | [], [] => True
  | (key, one) :: ones, (name, other) :: others =>
    key = name ∧ one.Alike r (sensitive || r.sensitive key) other ∧ AlikeMembers r sensitive ones others
  | [], _ :: _ => False
  | _ :: _, [] => False

end

structure Record.Alike (r : Redactor) (groups : List Str) (one other : Record α) : Prop where
  time : one.time = other.time
  level : one.level = other.level
  message : one.message = other.message
  pc : one.pc = other.pc
  attrs : AlikeMembers r (groups.any r.sensitive) (one.attrs.map fun attr => (attr.1, attr.2.resolve))
    (other.attrs.map fun attr => (attr.1, attr.2.resolve))

/-! ### What one value becomes -/

mutual

theorem Tree.resolveIn_value (calls : Nat) : (tree : Tree α) → tree.value.resolveIn (calls + 1) = tree
  | .leaf _ => by simp only [Tree.value, Value.resolveIn]
  | .group members => by simp only [Tree.value, Value.resolveIn, resolveMembers_values members]

theorem resolveMembers_values : (members : List (Str × Tree α)) → resolveMembers (memberValues members) = members
  | [] => by simp only [memberValues, resolveMembers]
  | (_, tree) :: rest => by
    simp only [memberValues, resolveMembers, Tree.resolveIn_value 99 tree, resolveMembers_values rest]

end

@[simp] theorem Tree.resolve_value (tree : Tree α) : tree.value.resolve = tree := tree.resolveIn_value 99

private theorem memberLeaves_groupValue (groups : List Str) (members : List (Str × Tree α)) :
    memberLeaves groups (groupValue members) = memberLeaves groups members := by
  induction members with
  | nil => rfl
  | cons member rest ih =>
    obtain ⟨key, tree⟩ := member
    have without : tree.isEmptyGroup = true → tree.leaves groups key = [] := by
      intro empty
      cases tree with
      | leaf _ => cases empty
      | group members =>
        cases members with
        | nil => simp only [Tree.leaves, memberLeaves]
        | cons _ _ => cases empty
    cases empty : tree.isEmptyGroup with
    | true => simp [groupValue, memberLeaves, empty, without empty, ← ih]
    | false => simp [groupValue, memberLeaves, empty, ← ih]

theorem any_enter (r : Redactor) (groups : List Str) (key : Str) :
    (enter groups key).any r.sensitive = (groups.any r.sensitive || r.sensitive key) := by
  rw [enter]
  split
  · rename_i empty
    simp [empty]
  · simp

section

variable [DecidableEq α] (r : Redactor)

theorem masked_eq (groups : List Str) (key : Str) (leaf : Leaf α) :
    Entry.masked r ⟨groups, key, leaf⟩ = ⟨groups, key, replaceAttr r groups key leaf⟩ := by
  have same : (r.sensitive key || groups.any r.sensitive) = true ↔
      r.sensitive key = true ∨ ∃ name ∈ groups, r.sensitive name = true := by
    simp only [Bool.or_eq_true, List.any_eq_true]
  simp only [Entry.masked, replaceAttr, same, mask]
  by_cases empty : leaf = .string [] <;>
    by_cases hidden : r.sensitive key = true ∨ ∃ name ∈ groups, r.sensitive name = true <;> simp [empty, hidden]

mutual

theorem leaves_replaceIn (groups : List Str) (key : Str) : (tree : Tree α) →
    (replaceIn r groups key tree).leaves groups key = (tree.leaves groups key).map (Entry.masked r)
  | .leaf leaf => by simp only [replaceIn, Tree.leaves, List.map_cons, List.map_nil, masked_eq]
  | .group members => by simp only [replaceIn, Tree.leaves, leaves_replaceMembers _ members]

theorem leaves_replaceMembers (groups : List Str) : (members : List (Str × Tree α)) →
    memberLeaves groups (replaceMembers r groups members) = (memberLeaves groups members).map (Entry.masked r)
  | [] => by simp only [replaceMembers, memberLeaves, List.map_nil]
  | (key, tree) :: rest => by
    simp only [replaceMembers, memberLeaves, List.map_append, leaves_replaceIn groups key tree,
      leaves_replaceMembers groups rest]

end

mutual

theorem leaves_redactIn (groups : List Str) (key : Str) : (tree : Tree α) →
    (redactIn r (groups.any r.sensitive) key tree).leaves groups key = (tree.leaves groups key).map (Entry.masked r)
  | .leaf leaf => by
    simp only [redactIn, Tree.leaves, List.map_cons, List.map_nil, masked_eq, replaceAttr, Bool.or_comm]
  | .group members => by
    simp only [redactIn, Tree.leaves, memberLeaves_groupValue, ← any_enter, leaves_redactMembers _ members]

theorem leaves_redactMembers (groups : List Str) : (members : List (Str × Tree α)) →
    memberLeaves groups (redactMembers r (groups.any r.sensitive) members) =
      (memberLeaves groups members).map (Entry.masked r)
  | [] => by simp only [redactMembers, memberLeaves, List.map_nil]
  | (key, tree) :: rest => by
    simp only [redactMembers, memberLeaves, List.map_append, leaves_redactIn groups key tree,
      leaves_redactMembers groups rest]

end

theorem leaves_replace (groups : List Str) (attr : Attr α) :
    leaves groups (replace r groups attr) = (leaves groups attr).map (Entry.masked r) := by
  simp only [leaves, replace, Tree.resolve_value, leaves_replaceIn]

theorem leaves_redact (groups : List Str) (attr : Attr α) :
    leaves groups (redact r (groups.any r.sensitive) attr) = (leaves groups attr).map (Entry.masked r) := by
  simp only [leaves, redact, Tree.resolve_value, leaves_redactIn]

theorem mask_alike {one other : Leaf α} (first : one ≠ .string []) (second : other ≠ .string []) :
    mask one = mask other := by simp only [mask, if_neg first, if_neg second]

mutual

private theorem replaceIn_alike (groups : List Str) (key : Str) : (one other : Tree α) →
    one.Alike r (groups.any r.sensitive || r.sensitive key) other →
    replaceIn r groups key one = replaceIn r groups key other
  | .leaf one, .leaf other => by
    intro alike
    rcases alike with rfl | ⟨hidden, first, second⟩
    · rfl
    · simp only [replaceIn, replaceAttr, Bool.or_comm _ (groups.any r.sensitive), hidden, if_true,
        mask_alike first second]
  | .group ones, .group others => by
    intro alike
    simp only [Tree.Alike, ← any_enter] at alike
    simp only [replaceIn, replaceMembers_alike _ ones others alike]
  | .leaf _, .group _ => by simp only [Tree.Alike, false_implies]
  | .group _, .leaf _ => by simp only [Tree.Alike, false_implies]

theorem replaceMembers_alike (groups : List Str) : (ones others : List (Str × Tree α)) →
    AlikeMembers r (groups.any r.sensitive) ones others →
    replaceMembers r groups ones = replaceMembers r groups others
  | [], [] => fun _ => rfl
  | (key, one) :: ones, (name, other) :: others => by
    intro alike
    obtain ⟨rfl, here, rest⟩ := alike
    simp only [replaceMembers, replaceIn_alike groups key one other here, replaceMembers_alike groups ones others rest]
  | [], _ :: _ => by simp only [AlikeMembers, false_implies]
  | _ :: _, [] => by simp only [AlikeMembers, false_implies]

end

mutual

private theorem redactIn_alike (sensitive : Bool) (key : Str) : (one other : Tree α) →
    one.Alike r (sensitive || r.sensitive key) other → redactIn r sensitive key one = redactIn r sensitive key other
  | .leaf one, .leaf other => by
    intro alike
    rcases alike with rfl | ⟨hidden, first, second⟩
    · rfl
    · simp only [redactIn, hidden, if_true, mask_alike first second]
  | .group ones, .group others => by
    intro alike
    simp only [redactIn, redactMembers_alike _ ones others alike]
  | .leaf _, .group _ => by simp only [Tree.Alike, false_implies]
  | .group _, .leaf _ => by simp only [Tree.Alike, false_implies]

theorem redactMembers_alike (sensitive : Bool) : (ones others : List (Str × Tree α)) →
    AlikeMembers r sensitive ones others → redactMembers r sensitive ones = redactMembers r sensitive others
  | [], [] => fun _ => rfl
  | (key, one) :: ones, (name, other) :: others => by
    intro alike
    obtain ⟨rfl, here, rest⟩ := alike
    simp only [redactMembers, redactIn_alike sensitive key one other here,
      redactMembers_alike sensitive ones others rest]
  | [], _ :: _ => by simp only [AlikeMembers, false_implies]
  | _ :: _, [] => by simp only [AlikeMembers, false_implies]

end

end

end Gofi.Logging
