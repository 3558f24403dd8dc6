import Gofi.Go.Rfc3339

/-! `manager.cacheKey`: the byte string that is hashed for a cached query. Fields
are tagged and carry their length. -/

namespace Gofi.Sqln.CacheKey

open Gofi.Go

abbrev Text := { bytes : Str // bytes.length < 2 ^ 63 }

def bigEndian : Nat → Nat → Str
  | 0, _ => []
  | width + 1, value => bigEndian width (value / 256) ++ [UInt8.ofNat (value % 256)]

def writeBytes (tag : UInt8) (bytes : Str) : Str := tag :: (bigEndian 8 bytes.length ++ bytes)

theorem bigEndian_length (width value : Nat) : (bigEndian width value).length = width := by
  induction width generalizing value with
  | zero => rfl
  | succ width ih => simp [bigEndian, ih]

theorem bigEndian_inj {width left right : Nat} (small : left < 256 ^ width) (small' : right < 256 ^ width)
    (same : bigEndian width left = bigEndian width right) : left = right := by
  induction width generalizing left right with
  | zero => lia
  | succ width ih =>
    obtain ⟨high, low⟩ := List.append_inj' same rfl
    have front := ih (by rw [pow_succ] at small; lia) (by rw [pow_succ] at small'; lia) high
    have back := congrArg UInt8.toNat (List.singleton_inj.mp low)
    simp only [UInt8.toNat_ofNat'] at back
    lia

theorem writeBytes_inj {tag tag' : UInt8} (small : bytes.length < 2 ^ 63)
    (small' : bytes'.length < 2 ^ 63) (same : writeBytes tag bytes ++ rest = writeBytes tag' bytes' ++ rest') :
    tag = tag' ∧ bytes = bytes' ∧ rest = rest' := by
  simp only [writeBytes, List.cons_append, List.append_assoc, List.cons.injEq] at same
  obtain ⟨tags, tail⟩ := same
  obtain ⟨lengths, content⟩ := List.append_inj tail (by simp [bigEndian_length])
  have length := bigEndian_inj (by lia) (by lia) lengths
  exact ⟨tags, List.append_inj content length⟩

/-- A `time.Time`: an instant and the offset of its zone in seconds, in a range in
which the calendar of `time` does not overflow. Equal times in the same zone are one stamp. -/
structure Stamp where
  instant : Time
  offset : Int
  lower : -2 ^ 92 ≤ instant
  upper : instant < 2 ^ 92
  west : -2 ^ 32 ≤ offset
  east : offset < 2 ^ 32

namespace Stamp

/-- What a clock in the zone shows. -/
def clock (t : Stamp) : Time := t.instant + t.offset * Time.second

/-- The zone as RFC 3339 writes it: absent, or in whole minutes. -/
def zone (t : Stamp) : Option Int := if t.offset = 0 then none else some (t.offset.tdiv 60)

def rfc3339Nano (t : Stamp) : Str := Rfc3339.format t.clock t.zone

theorem rfc3339Nano_small (t : Stamp) : t.rfc3339Nano.length < 2 ^ 63 := by
  have := t.lower
  have := t.upper
  have := t.west
  have := t.east
  have zones : ∀ minutes ∈ t.zone, minutes.natAbs < 10 ^ 30 := by
    intro minutes shown
    unfold zone at shown
    split at shown <;> cases shown
    lia
  have clocks : Int.natAbs t.clock < 10 ^ 29 := by
    norm_num [clock, Time.second] at *
    lia
  exact (Rfc3339.format_length clocks zones).trans_lt (by decide)

end Stamp

/-- A `driver.Value`; a byte slice may be nil, which drivers send as NULL. -/
inductive DriverValue where
  | null
  | int64 (bits : BitVec 64)
  | uint64 (bits : BitVec 64)
  | float64 (bits : BitVec 64)
  | bool (b : Bool)
  | bytes (b : Option Text)
  | string (s : Text)
  | time (t : Stamp)

/-- An argument as `writeArg` sees it: a driver value, a slice or array with the
name of its type, or something without an encoding. -/
inductive Arg where
  | value (v : DriverValue)
  | slice (typeName : Text) (elements : List Arg)
  | other

inductive Arg.Sized : Arg → Prop where
  | value (v : DriverValue) : Sized (.value v)
  | slice (typeName : Text) (small : elements.length < 2 ^ 63) (all : ∀ one ∈ elements, Sized one) :
      Sized (.slice typeName elements)
  | other : Sized .other

structure Args where
  list : List Arg
  small : list.length < 2 ^ 63
  sized : ∀ arg ∈ list, arg.Sized

def DriverValue.tag : DriverValue → UInt8
  | .null => 48
  | .int64 _ => 105
  | .uint64 _ => 117
  | .float64 _ => 102
  | .bool _ => 98
  | .bytes _ => 121
  | .string _ => 115
  | .time _ => 116

def formatBool (b : Bool) : Str := if b then ascii "true" else ascii "false"

def DriverValue.payload : DriverValue → Str
  | .null => []
  | .int64 bits | .uint64 bits | .float64 bits => bigEndian 8 bits.toNat
  | .bool b => formatBool b
  | .bytes b => (b.map Subtype.val).getD []
  | .string s => s.val
  | .time t => t.rfc3339Nano

mutual

def writeArg : Arg → Option Str
  | .value v => some (writeBytes v.tag (v.payload))
  | .slice typeName elements => (writeElements elements).map fun written =>
    writeBytes 76 typeName.val ++ writeBytes 110 (bigEndian 8 elements.length) ++ written
  | .other => none

def writeElements : List Arg → Option Str
  | [] => some []
  | first :: rest => (writeArg first).bind fun written => (writeElements rest).map (written ++ ·)

end

def writeArgs (args : Args) : Option Str :=
  (writeElements args.list).map (writeBytes 110 (bigEndian 8 args.list.length) ++ ·)

structure Order where
  field : Text
  direction : Text
  deriving DecidableEq

structure Page where
  page : BitVec 16
  limit : BitVec 16
  order : List Order
  countQuery : Text
  countArgs : Args

structure Manager where
  hasCache : Bool
  hasInstance : Bool
  fromPrimary : Bool
  inTransaction : Bool
  databaseID : Text
  cacheScope : Text
  contextScope : Text
  typeName : Text
  kind : Text
  query : Text
  args : Args
  page : Option Page

namespace Manager

def names (q : Manager) : List Text :=
  [q.databaseID, q.cacheScope, q.contextScope, q.typeName, q.kind, q.query]

def writeOrder (o : Order) : Str := writeBytes 115 o.field.val ++ writeBytes 115 o.direction.val

def writePage : Option Page → Option Str
  | none => some []
  | some p => (writeArgs p.countArgs).map fun written =>
    writeBytes 112 (bigEndian 4 (p.page.toNat <<< 16 ||| p.limit.toNat)) ++ p.order.flatMap writeOrder ++
      writeBytes 115 p.countQuery.val ++ written

def cacheKey (q : Manager) : Option Str :=
  if !q.hasCache || !q.hasInstance || q.fromPrimary then none
  else if q.inTransaction then none
  else do
    let args ← writeArgs q.args
    let page ← writePage q.page
    some (q.names.flatMap (fun name => writeBytes 115 name.val) ++ args ++ page)

end Manager

end Gofi.Sqln.CacheKey
