import Gofi.Sqln.CacheKey
import Mathlib.Data.List.Forall2

/-! The bytes hashed for a cached query are read back: equal bytes are written for
the same query, up to how its times are written, and for no other. -/

namespace Gofi.Sqln.CacheKey

open Gofi.Go

/-- Two arguments are the same up to a relation of driver values: related values, or
slices of the same type name and length with the same elements. -/
inductive Arg.Same (same : DriverValue → DriverValue → Prop) : Arg → Arg → Prop where
  | value (values : same v w) : Same same (.value v) (.value w)
  | slice (typeName : Text) (elements : List.Forall₂ (Arg.Same same) left right) :
      Same same (.slice typeName left) (.slice typeName right)

structure Page.Same (same : DriverValue → DriverValue → Prop) (p p' : Page) : Prop where
  page : p.page = p'.page
  limit : p.limit = p'.limit
  order : p.order = p'.order
  countQuery : p.countQuery = p'.countQuery
  countArgs : List.Forall₂ (Arg.Same same) p.countArgs.list p'.countArgs.list

structure Manager.Same (same : DriverValue → DriverValue → Prop) (q q' : Manager) : Prop where
  names : q.names = q'.names
  args : List.Forall₂ (Arg.Same same) q.args.list q'.args.list
  page : Option.Rel (Page.Same same) q.page q'.page

section Reading

/-- Values for which the same bytes are written. -/
def alike (v w : DriverValue) : Prop := v.tag = w.tag ∧ v.payload = w.payload

private theorem formatBool_small : ∀ b, (formatBool b).length < 2 ^ 63 := by decide

theorem DriverValue.payload_small (v : DriverValue) : v.payload.length < 2 ^ 63 := by
  cases v with
  | null => simp [payload]
  | int64 | uint64 | float64 => simp [payload, bigEndian_length]
  | bool b => exact formatBool_small b
  | bytes b =>
    cases b with
    | none => simp [payload]
    | some b => exact b.property
  | string s => exact s.property
  | time t => exact t.rfc3339Nano_small

theorem lengths_of_written {left right : List α} (small : left.length < 2 ^ 63) (small' : right.length < 2 ^ 63)
    (same : bigEndian 8 left.length = bigEndian 8 right.length) : left.length = right.length :=
  bigEndian_inj (by lia) (by lia) same

theorem bigEndian_small (width value : Nat) (narrow : width < 2 ^ 63) : (bigEndian width value).length < 2 ^ 63 := by
  rwa [bigEndian_length]

mutual

private theorem writeArg_same (a b : Arg) (sized : a.Sized) (sized' : b.Sized) (first : writeArg a = some x)
    (second : writeArg b = some y) (same : x ++ rest = y ++ rest') :
    a.Same alike b ∧ rest = rest' := by
  match a, b with
  | .value v, .value w =>
    cases first
    cases second
    obtain ⟨tags, payloads, rests⟩ := writeBytes_inj v.payload_small w.payload_small same
    exact ⟨.value ⟨tags, payloads⟩, rests⟩
  | .value v, .slice typeName elements =>
    obtain ⟨written, _, rfl⟩ := Option.map_eq_some_iff.mp second
    cases first
    rw [List.append_assoc, List.append_assoc] at same
    obtain ⟨tags, _⟩ := writeBytes_inj v.payload_small typeName.property same
    cases v <;> simp [DriverValue.tag] at tags
  | .slice typeName elements, .value v =>
    obtain ⟨written, _, rfl⟩ := Option.map_eq_some_iff.mp first
    cases second
    rw [List.append_assoc, List.append_assoc] at same
    obtain ⟨tags, _⟩ := writeBytes_inj typeName.property v.payload_small same
    cases v <;> simp [DriverValue.tag] at tags
  | .slice typeName elements, .slice typeName' elements' =>
    obtain ⟨written, inner, rfl⟩ := Option.map_eq_some_iff.mp first
    obtain ⟨written', inner', rfl⟩ := Option.map_eq_some_iff.mp second
    cases sized with | slice _ small all =>
    cases sized' with | slice _ small' all' =>
    simp only [List.append_assoc] at same
    obtain ⟨_, types, later⟩ := writeBytes_inj typeName.property typeName'.property same
    obtain ⟨_, lengths, content⟩ :=
      writeBytes_inj (bigEndian_small 8 _ (by decide)) (bigEndian_small 8 _ (by decide)) later
    obtain ⟨all₂, rests⟩ := writeElements_same elements elements' all all' (lengths_of_written small small' lengths)
      inner inner' content
    obtain rfl : typeName = typeName' := Subtype.ext types
    exact ⟨.slice typeName all₂, rests⟩
  | .other, _ => cases first
  | _, .other => cases second

theorem writeElements_same (left right : List Arg) (sized : ∀ one ∈ left, one.Sized)
    (sized' : ∀ one ∈ right, one.Sized) (lengths : left.length = right.length)
    (first : writeElements left = some x) (second : writeElements right = some y)
    (same : x ++ rest = y ++ rest') : List.Forall₂ (Arg.Same alike) left right ∧ rest = rest' := by
  match left, right with
  | [], [] =>
    cases first
    cases second
    exact ⟨.nil, same⟩
  | a :: left, b :: right =>
    simp only [writeElements, Option.bind_eq_some_iff, Option.map_eq_some_iff] at first second
    obtain ⟨front, head, back, tail, rfl⟩ := first
    obtain ⟨front', head', back', tail', rfl⟩ := second
    simp only [List.append_assoc] at same
    obtain ⟨one, later⟩ := writeArg_same a b (sized a (by simp)) (sized' b (by simp)) head head' same
    obtain ⟨others, rests⟩ := writeElements_same left right (fun one member => sized one (by simp [member]))
      (fun one member => sized' one (by simp [member])) (by simpa using lengths) tail tail' later
    exact ⟨.cons one others, rests⟩
  | [], _ :: _ => cases lengths
  | _ :: _, [] => cases lengths

end

theorem writeArgs_same {left right : Args} (first : writeArgs left = some x)
    (second : writeArgs right = some y) (same : x ++ rest = y ++ rest') :
    List.Forall₂ (Arg.Same alike) left.list right.list ∧ rest = rest' := by
  obtain ⟨written, inner, rfl⟩ := Option.map_eq_some_iff.mp first
  obtain ⟨written', inner', rfl⟩ := Option.map_eq_some_iff.mp second
  simp only [List.append_assoc] at same
  obtain ⟨_, lengths, content⟩ :=
    writeBytes_inj (bigEndian_small 8 _ (by decide)) (bigEndian_small 8 _ (by decide)) same
  exact writeElements_same _ _ left.sized right.sized
    (lengths_of_written left.small right.small lengths) inner inner' content

private theorem writeOrder_same {left right : List Order} {name name' : Text} (first : List.head? rest = some 110)
    (second : List.head? rest' = some 110)
    (same : left.flatMap Manager.writeOrder ++ (writeBytes 115 name.val ++ rest) =
      right.flatMap Manager.writeOrder ++ (writeBytes 115 name'.val ++ rest')) :
    left = right ∧ name = name' ∧ rest = rest' := by
  -- an order and the field after the list have the same tag; the tag that follows tells them apart
  have apart (o : Order) (more tail : Str) (counted : List.head? tail = some 110) (one : Text)
      (mixed : writeBytes 115 one.val ++ tail = Manager.writeOrder o ++ more) : False := by
    rw [Manager.writeOrder, List.append_assoc] at mixed
    obtain ⟨_, _, later⟩ := writeBytes_inj one.property o.field.property mixed
    rw [later] at counted
    simp [writeBytes] at counted
  induction left generalizing right with
  | nil =>
    cases right with
    | nil =>
      obtain ⟨_, names, rests⟩ := writeBytes_inj name.property name'.property same
      exact ⟨rfl, Subtype.ext names, rests⟩
    | cons o others =>
      simp only [List.flatMap_nil, List.nil_append, List.flatMap_cons, List.append_assoc] at same
      exact (apart o _ rest first name same).elim
  | cons o left ih =>
    cases right with
    | nil =>
      simp only [List.flatMap_nil, List.nil_append, List.flatMap_cons, List.append_assoc] at same
      exact (apart o _ rest' second name' same.symm).elim
    | cons o' right =>
      simp only [List.flatMap_cons, Manager.writeOrder, List.append_assoc] at same
      obtain ⟨_, fields, later⟩ := writeBytes_inj o.field.property o'.field.property same
      obtain ⟨_, directions, content⟩ := writeBytes_inj o.direction.property o'.direction.property later
      obtain ⟨lists, names, rests⟩ := ih content
      obtain rfl : o = o' := by
        cases o; cases o'
        exact congrArg₂ Order.mk (Subtype.ext fields) (Subtype.ext directions)
      exact ⟨by rw [lists], names, rests⟩

theorem writeArgs_head (written : writeArgs args = some x) (rest : Str) :
    List.head? (x ++ rest) = some 110 := by
  obtain ⟨inner, _, rfl⟩ := Option.map_eq_some_iff.mp written
  rfl

private theorem pageBits_inj {page page' limit limit' : BitVec 16}
    (same : bigEndian 4 (page.toNat <<< 16 ||| limit.toNat) = bigEndian 4 (page'.toNat <<< 16 ||| limit'.toNat)) :
    page = page' ∧ limit = limit' := by
  have low := limit.isLt
  have low' := limit'.isLt
  have high := page.isLt
  have high' := page'.isLt
  rw [← Nat.shiftLeft_add_eq_or_of_lt low, ← Nat.shiftLeft_add_eq_or_of_lt low', Nat.shiftLeft_eq,
    Nat.shiftLeft_eq] at same
  have words := bigEndian_inj (by lia) (by lia) same
  exact ⟨BitVec.eq_of_toNat_eq (by lia), BitVec.eq_of_toNat_eq (by lia)⟩

variable {left right : Option Page}

private theorem writePage_same (first : Manager.writePage left = some x)
    (second : Manager.writePage right = some x) : Option.Rel (Page.Same alike) left right := by
  match left, right with
  | none, none => exact .none
  | none, some p =>
    cases first
    obtain ⟨written, _, same⟩ := Option.map_eq_some_iff.mp second
    simp [writeBytes] at same
  | some p, none =>
    cases second
    obtain ⟨written, _, same⟩ := Option.map_eq_some_iff.mp first
    simp [writeBytes] at same
  | some p, some p' =>
    obtain ⟨written, inner, rfl⟩ := Option.map_eq_some_iff.mp first
    obtain ⟨written', inner', same⟩ := Option.map_eq_some_iff.mp second
    simp only [List.append_assoc] at same
    obtain ⟨_, bits, later⟩ :=
      writeBytes_inj (bigEndian_small 4 _ (by decide)) (bigEndian_small 4 _ (by decide)) same.symm
    have counted := writeArgs_head inner []
    have counted' := writeArgs_head inner' []
    rw [List.append_nil] at counted counted'
    obtain ⟨orders, names, rests⟩ := writeOrder_same counted counted' later
    obtain ⟨page, limit⟩ := pageBits_inj bits
    have args := writeArgs_same inner inner' (congrArg (· ++ []) rests)
    exact .some ⟨page, limit, orders, names, args.1⟩

private theorem names_same {left right : List Text} (lengths : left.length = right.length)
    (same : left.flatMap (fun name => writeBytes 115 name.val) ++ rest =
      right.flatMap (fun name => writeBytes 115 name.val) ++ rest') : left = right ∧ rest = rest' := by
  induction left generalizing right with
  | nil =>
    obtain rfl := List.length_eq_zero_iff.mp lengths.symm
    exact ⟨rfl, same⟩
  | cons name left ih =>
    cases right with
    | nil => cases lengths
    | cons name' right =>
      simp only [List.flatMap_cons, List.append_assoc] at same
      obtain ⟨_, names, later⟩ := writeBytes_inj name.property name'.property same
      obtain ⟨others, rests⟩ := ih (by simpa using lengths) later
      exact ⟨by rw [others, Subtype.ext names], rests⟩

variable {q : Manager}

theorem Manager.cacheKey_parts (ok : q.cacheKey = some x) :
    ∃ args page, writeArgs q.args = some args ∧ writePage q.page = some page ∧
      x = q.names.flatMap (fun name => writeBytes 115 name.val) ++ (args ++ page) := by
  unfold cacheKey at ok
  split at ok
  · cases ok
  split at ok
  · cases ok
  simp only [Option.bind_eq_bind, Option.bind_eq_some_iff, Option.some.injEq] at ok
  obtain ⟨args, written, page, paged, rfl⟩ := ok
  exact ⟨args, page, written, paged, by simp⟩

variable {q' : Manager}

theorem Manager.same_of_cacheKey (first : q.cacheKey = some x)
    (second : q'.cacheKey = some x) : q.Same alike q' := by
  obtain ⟨args, page, written, paged, rfl⟩ := cacheKey_parts first
  obtain ⟨args', page', written', paged', same⟩ := cacheKey_parts second
  have lengths : q.names.length = q'.names.length := rfl
  obtain ⟨names, rests⟩ := names_same lengths same
  obtain ⟨lists, pages⟩ := writeArgs_same written written' rests
  subst pages
  exact ⟨names, lists, writePage_same paged paged'⟩

private theorem writeBytes_of_alike (same : alike v w) : writeBytes v.tag v.payload = writeBytes w.tag w.payload := by
  rw [same.1, same.2]

mutual

private theorem writeArg_of_same (a b : Arg) (same : a.Same alike b) : writeArg a = writeArg b := by
  match a, b with
  | .value v, .value w =>
    cases same with | value values =>
    exact congrArg some (writeBytes_of_alike values)
  | .slice typeName left, .slice typeName' right =>
    cases same with | slice _ elements =>
    simp only [writeArg, elements.length_eq, writeElements_of_same left right elements]
  | .other, .other => rfl
  | .value _, .slice .. | .value _, .other | .slice .., .value _ | .slice .., .other | .other, .value _
  | .other, .slice .. => cases same

theorem writeElements_of_same (left right : List Arg) (same : List.Forall₂ (Arg.Same alike) left right) :
    writeElements left = writeElements right := by
  match left, right with
  | [], [] => rfl
  | a :: left, b :: right =>
    cases same with | cons one others =>
    rw [writeElements, writeElements, writeArg_of_same a b one, writeElements_of_same left right others]
  | [], _ :: _ | _ :: _, [] => cases same

end

theorem writeArgs_of_same {left right : Args} (same : List.Forall₂ (Arg.Same alike) left.list right.list) :
    writeArgs left = writeArgs right := by
  rw [writeArgs, writeArgs, writeElements_of_same _ _ same, same.length_eq]

private theorem writePage_of_same (same : Option.Rel (Page.Same alike) left right) :
    Manager.writePage left = Manager.writePage right := by
  cases same with
  | none => rfl
  | some pages =>
    simp only [Manager.writePage, pages.page, pages.limit, pages.order, pages.countQuery,
      writeArgs_of_same pages.countArgs]

theorem Manager.cacheKey_of_same (same : q.Same alike q')
    (first : q.cacheKey = some x) (second : q'.cacheKey = some y) : x = y := by
  obtain ⟨args, page, written, paged, rfl⟩ := cacheKey_parts first
  obtain ⟨args', page', written', paged', rfl⟩ := cacheKey_parts second
  rw [writeArgs_of_same same.args, written', Option.some.injEq] at written
  rw [writePage_of_same same.page, paged', Option.some.injEq] at paged
  rw [same.names, written, paged]

end Reading

end Gofi.Sqln.CacheKey
