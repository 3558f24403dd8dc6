import Gofi.Go.Text

/-! `obs/logging/redact.go`: which attributes of a log record are masked, and the two
ways they are: `replaceAttr`, which the handlers of `slog` call, and `redact`. -/

namespace Gofi.Logging

open Gofi.Go

/-- A `slog.Value` that is neither a group nor a `LogValuer`. `panicked` and `tooMany`
are the errors `Resolve` puts in the place of a value; `other` are all further kinds. -/
inductive Leaf (α : Type) where
  | string (text : Str)
  | time (nanos : Int)
  | level (level : Int)
  | panicked
  | tooMany
  | other (value : α)
  deriving DecidableEq

/-- A `slog.Value`: a `LogValuer` is known by the value its `LogValue` returns, or by
that it panics. -/
inductive Value (α : Type) where
  | leaf (leaf : Leaf α)
  | group (members : List (Str × Value α))
  | valuer (value : Value α)
  | panicking

inductive Tree (α : Type) where
  | leaf (leaf : Leaf α)
  | group (members : List (Str × Tree α))

abbrev Attr (α : Type) := Str × Value α

mutual

def Value.resolveIn : Nat → Value α → Tree α
  | 0, _ => .leaf .tooMany
  | _ + 1, .leaf leaf => .leaf leaf
  | _ + 1, .group members => .group (resolveMembers members)
  | calls + 1, .valuer value => value.resolveIn calls
  | _ + 1, .panicking => .leaf .panicked

def resolveMembers : List (Str × Value α) → List (Str × Tree α)
  | [] => []
  | (key, value) :: rest => (key, value.resolveIn 100) :: resolveMembers rest

end

def Value.resolve (value : Value α) : Tree α := value.resolveIn 100

mutual

def Tree.value : Tree α → Value α
  | .leaf leaf => .leaf leaf
  | .group members => .group (memberValues members)

def memberValues : List (Str × Tree α) → List (Str × Value α)
  | [] => []
  | (key, tree) :: rest => (key, tree.value) :: memberValues rest

end

def Tree.isEmptyGroup : Tree α → Bool
  | .group [] => true
  | _ => false

def Value.isEmptyGroup : Value α → Bool
  | .group [] => true
  | _ => false

def groupValue (members : List (Str × Tree α)) : List (Str × Tree α) := members.filter (!·.2.isEmptyGroup)

/-- The functions of `strings` that depend on the tables of Unicode. -/
structure Letters where
  trimSpace : Str → Str
  toLower : Str → Str
  trimSpace_nil : trimSpace [] = []
  toLower_nil : toLower [] = []

def Letters.normalizeKey (letters : Letters) (key : Str) : Str :=
  (letters.toLower (letters.trimSpace key)).map fun byte => if byte = 45 then 95 else byte

/-- The keys that are masked by every logger. -/
def defaultRedactKeys : List Str :=
  [ascii "password", ascii "passwd", ascii "secret", ascii "token", ascii "access_token", ascii "refresh_token",
    ascii "authorization", ascii "cookie", ascii "set-cookie", ascii "api_key", ascii "apikey", ascii "private_key",
    ascii "passphrase", ascii "client_secret", ascii "credential", ascii "credentials"]

/-- A `redactor`: its keys are not empty, so that no key ends with all of them. -/
structure Redactor where
  letters : Letters
  keys : List Str
  named : [] ∉ keys

namespace Redactor

def add (r : Redactor) (key : Str) : Redactor :=
  if fresh : r.letters.normalizeKey key ≠ [] ∧ r.letters.normalizeKey key ∉ r.keys then
    { r with
      keys := r.keys ++ [r.letters.normalizeKey key]
      named := by
        rw [List.mem_append, List.mem_singleton, not_or]
        exact ⟨r.named, Ne.symm fresh.1⟩ }
  else r

def new (letters : Letters) (extra : List Str) : Redactor :=
  (defaultRedactKeys ++ extra).foldl add ⟨letters, [], List.not_mem_nil⟩

def sensitive (r : Redactor) (key : Str) : Bool := r.keys.any (·.isSuffixOf (r.letters.normalizeKey key))

/-- A group with an empty name is none to the handlers of `slog`; it is not sensitive either. -/
@[simp] theorem sensitive_nil (r : Redactor) : r.sensitive [] = false := by
  rw [sensitive, List.any_eq_false]
  intro key member ends
  have empty : key = [] := by
    simpa [Letters.normalizeKey, r.letters.trimSpace_nil, r.letters.toLower_nil] using ends
  exact r.named (empty ▸ member)

end Redactor

def redactedValue : Str := ascii "[REDACTED]"

def mask [DecidableEq α] (leaf : Leaf α) : Leaf α := if leaf = .string [] then leaf else .string redactedValue

/-- The groups that are open inside a group: one with an empty key is inlined. -/
def enter (groups : List Str) (key : Str) : List Str := if key = [] then groups else groups ++ [key]

section Masking

variable [DecidableEq α] (r : Redactor)

/-- `replaceAttr` on an attribute that is not a group. -/
def replaceAttr (groups : List Str) (key : Str) (leaf : Leaf α) : Leaf α :=
  if r.sensitive key || groups.any r.sensitive then mask leaf else leaf

mutual

/-- A value as `slog`'s handlers write it: each resolved attribute that is not a group
went through `replaceAttr` with the groups that are open. -/
def replaceIn (groups : List Str) (key : Str) : Tree α → Tree α
  | .leaf leaf => .leaf (replaceAttr r groups key leaf)
  | .group members => .group (replaceMembers (enter groups key) members)

def replaceMembers (groups : List Str) : List (Str × Tree α) → List (Str × Tree α)
  | [] => []
  | (key, tree) :: rest => (key, replaceIn groups key tree) :: replaceMembers groups rest

end

mutual

def redactIn (inSensitiveGroup : Bool) (key : Str) : Tree α → Tree α
  | .leaf leaf => .leaf (if inSensitiveGroup || r.sensitive key then mask leaf else leaf)
  | .group members => .group (groupValue (redactMembers (inSensitiveGroup || r.sensitive key) members))

def redactMembers (inSensitiveGroup : Bool) : List (Str × Tree α) → List (Str × Tree α)
  | [] => []
  | (key, tree) :: rest => (key, redactIn inSensitiveGroup key tree) :: redactMembers inSensitiveGroup rest

end

def replace (groups : List Str) (attr : Attr α) : Attr α := (attr.1, (replaceIn r groups attr.1 attr.2.resolve).value)

def redact (inSensitiveGroup : Bool) (attr : Attr α) : Attr α :=
  (attr.1, (redactIn r inSensitiveGroup attr.1 attr.2.resolve).value)

end Masking

end Gofi.Logging
