import Gofi.Go.Split
import Gofi.Go.Text

/-! `session.NewKey`: the bytes that are hashed for a lock or session key. -/

namespace Gofi.Session

open Gofi.Go

def keyBytes (start : Str) (parts : List Str) : Str := start ++ parts.flatMap (124 :: ·)

/-- `NewKey`, for parts that are strings and the hash as a hexadecimal text. -/
def newKey (sha256 : Str → Str) (start : Str) (parts : List Str) : Str :=
  start ++ ascii ":" ++ (sha256 (keyBytes start parts)).take 16

private theorem split_parts (text : Str) (parts : List Str) :
    split 124 (text ++ parts.flatMap (124 :: ·)) = split 124 text ++ parts.flatMap (split 124) := by
  induction parts generalizing text with
  | nil => simp
  | cons part rest ih => rw [List.flatMap_cons, List.cons_append, split_append, ih, List.flatMap_cons]

private theorem keyBytes_eq_iff {start : Str} {parts others : List Str} :
    keyBytes start parts = keyBytes start others ↔ parts.flatMap (split 124) = others.flatMap (split 124) := by
  have pieces (parts : List Str) : split 124 (parts.flatMap (124 :: ·)) = [] :: parts.flatMap (split 124) :=
    split_parts [] parts
  rw [keyBytes, keyBytes, List.append_cancel_left_eq]
  constructor
  · intro same
    have cut := congrArg (split 124) same
    rwa [pieces, pieces, List.cons.injEq, eq_self, true_and] at cut
  · intro same
    rw [← intercalate_split 124 (parts.flatMap _), ← intercalate_split 124 (others.flatMap _), pieces, pieces, same]

/-- Keys of different parts are hashed from different bytes exactly when the parts are
still different after each is cut at its bars. -/
theorem different_parts_hash_differently_iff (start : Str) (parts others : List Str) :
    (parts ≠ others → keyBytes start parts ≠ keyBytes start others) ↔
      (parts ≠ others → parts.flatMap (split 124) ≠ others.flatMap (split 124)) := by
  rw [Ne, Ne, keyBytes_eq_iff]

/-- A part with a bar is hashed as two parts. -/
theorem barred_part_shares_its_key : ([ascii "a|b"] : List Str) ≠ [ascii "a", ascii "b"] ∧
    keyBytes (ascii "order") [ascii "a|b"] = keyBytes (ascii "order") [ascii "a", ascii "b"] := by
  decide

end Gofi.Session
