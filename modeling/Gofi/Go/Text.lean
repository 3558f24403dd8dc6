import Mathlib.Data.Nat.Digits.Lemmas

/-! Go strings as byte sequences, with the functions of `strings` and `strconv`
that the SDK splits and numbers its tokens with. -/

namespace Gofi.Go

/-- A Go string: any bytes, valid UTF-8 or not. -/
abbrev Str := List UInt8

instance lawfulBEq_str : LawfulBEq Str := inferInstance

/-- The bytes of an ASCII literal of the source. -/
def ascii (text : String) : Str := text.toList.map fun char => UInt8.ofNat char.toNat

/-- `strings.Cut` at a one-byte separator; `none` when the separator is absent. -/
def cut (sep : UInt8) : Str → Option (Str × Str)
  | [] => none
  | byte :: rest =>
    if byte = sep then some ([], rest)
    else (cut sep rest).map fun (before, after) => (byte :: before, after)

/-- `strings.SplitN` at a one-byte separator, for a positive count: the last
part keeps every further separator. -/
def splitN (sep : UInt8) : Nat → Str → List Str
  | 0, _ => []
  | 1, text => [text]
  | parts + 2, text =>
    match cut sep text with
    | none => [text]
    | some (before, after) => before :: splitN sep (parts + 1) after

variable {sep : UInt8}

theorem cut_append {before : Str} (absent : sep ∉ before) (after : Str) :
    cut sep (before ++ sep :: after) = some (before, after) := by
  induction before with
  | nil => simp [cut]
  | cons byte rest ih =>
    simp only [List.mem_cons, not_or] at absent
    simp [cut, Ne.symm absent.1, ih absent.2]

variable {text : Str}

theorem cut_eq_some {before after : Str} (found : cut sep text = some (before, after)) :
    text = before ++ sep :: after ∧ sep ∉ before := by
  induction text generalizing before with
  | nil => simp [cut] at found
  | cons byte rest ih =>
    by_cases same : byte = sep
    · simp only [cut, same, ↓reduceIte, Option.some.injEq, Prod.mk.injEq] at found
      obtain ⟨rfl, rfl⟩ := found
      simp [same]
    · simp only [cut, same, ↓reduceIte, Option.map_eq_some_iff] at found
      obtain ⟨⟨front, back⟩, inner, joined⟩ := found
      obtain ⟨rfl, rfl⟩ := joined
      obtain ⟨split, absent⟩ := ih inner
      simp [split, absent, Ne.symm same]

theorem cut_of_mem (member : sep ∈ text) : ∃ before after, cut sep text = some (before, after) := by
  induction text with
  | nil => cases member
  | cons byte rest ih =>
    by_cases same : byte = sep
    · exact ⟨[], rest, by simp [cut, same]⟩
    · rcases List.mem_cons.mp member with here | later
      · exact absurd here.symm same
      · obtain ⟨before, after, found⟩ := ih later
        exact ⟨byte :: before, after, by simp [cut, same, found]⟩

theorem splitN_cons (absent : sep ∉ part) (parts : Nat) (rest : Str) :
    splitN sep (parts + 2) (part ++ sep :: rest) = part :: splitN sep (parts + 1) rest := by
  simp [splitN, cut_append absent]

theorem intercalate_cons_cons (between first second : Str) (rest : List Str) :
    between.intercalate (first :: second :: rest) = first ++ between ++ between.intercalate (second :: rest) := by
  simp [List.intercalate]

variable {between : Str} {byte : UInt8} {parts : List Str}

theorem mem_intercalate (member : byte ∈ between.intercalate parts) :
    byte ∈ between ∨ ∃ part ∈ parts, byte ∈ part := by
  induction parts with
  | nil => simp [List.intercalate] at member
  | cons part rest ih =>
    cases rest with
    | nil => exact .inr ⟨part, List.mem_cons_self .., by simpa [List.intercalate] using member⟩
    | cons next rest =>
      rw [intercalate_cons_cons, List.mem_append, List.mem_append] at member
      rcases member with (here | between) | later
      · exact .inr ⟨part, List.mem_cons_self .., here⟩
      · exact .inl between
      · rcases ih later with between | ⟨other, listed, inside⟩
        · exact .inl between
        · exact .inr ⟨other, List.mem_cons_of_mem _ listed, inside⟩

/-! Decimal numbers. -/

def digit (value : Nat) : UInt8 := UInt8.ofNat (48 + value)

def formatNat (value : Nat) : Str :=
  if value = 0 then [digit 0] else (Nat.digits 10 value).reverse.map digit

/-- `strconv.FormatInt` in base ten. -/
def formatInt (value : Int) : Str :=
  if value < 0 then 45 :: formatNat value.natAbs else formatNat value.natAbs

def digitValue (byte : UInt8) : Option Nat :=
  if 48 ≤ byte.toNat ∧ byte.toNat ≤ 57 then some (byte.toNat - 48) else none

def parseDigits (value : Nat) : Str → Option Nat
  | [] => some value
  | byte :: rest => (digitValue byte).bind fun next => parseDigits (10 * value + next) rest

/-- The unsigned part of `strconv.ParseInt`: at least one digit, digits only. -/
def parseNat : Str → Option Nat
  | [] => none
  | byte :: rest => parseDigits 0 (byte :: rest)

/-- `strconv.ParseInt` in base ten for 64 bits: an optional sign, digits, and the
range check of a signed 64-bit number. -/
def parseInt : Str → Option Int
  | 45 :: rest => (parseNat rest).bind fun value => if value ≤ 2 ^ 63 then some (-value) else none
  | 43 :: rest => (parseNat rest).bind fun value => if value < 2 ^ 63 then some value else none
  | text => (parseNat text).bind fun value => if value < 2 ^ 63 then some value else none

variable {value : Nat}

theorem digit_toNat (small : value < 10) : (digit value).toNat = 48 + value := by
  rw [digit, UInt8.toNat_ofNat_of_lt' (by rw [UInt8.size]; omega)]

theorem digitValue_digit (small : value < 10) : digitValue (digit value) = some value := by
  rw [digitValue, digit_toNat small, if_pos (by omega)]
  simp

theorem parseDigits_append (front back : Str) (value : Nat) :
    parseDigits value (front ++ back) = (parseDigits value front).bind fun next => parseDigits next back := by
  induction front generalizing value with
  | nil => simp [parseDigits]
  | cons byte rest ih =>
    simp only [List.cons_append, parseDigits, Option.bind_assoc]
    cases digitValue byte with
    | none => simp
    | some next => simp [ih]

private theorem parseDigits_digits (digits : List Nat) (small : ∀ value ∈ digits, value < 10) :
    parseDigits 0 (digits.reverse.map digit) = some (Nat.ofDigits 10 digits) := by
  induction digits with
  | nil => simp [parseDigits]
  | cons head rest ih =>
    have tail := ih fun value member => small value (List.mem_cons_of_mem _ member)
    rw [List.reverse_cons, List.map_append, parseDigits_append, tail]
    simp only [List.map_cons, List.map_nil, parseDigits, Option.bind_some,
      digitValue_digit (small head (List.mem_cons_self ..)), Nat.ofDigits_cons]
    simp [Nat.add_comm]

theorem parseNat_formatNat (value : Nat) : parseNat (formatNat value) = some value := by
  by_cases zero : value = 0
  · subst zero; decide
  · have parsed := parseDigits_digits (Nat.digits 10 value) fun digit member =>
      Nat.digits_lt_base (by decide) member
    rw [Nat.ofDigits_digits] at parsed
    rw [formatNat, if_neg zero]
    cases shape : (Nat.digits 10 value).reverse.map digit with
    | nil => simp [Nat.digits_eq_nil_iff_eq_zero, zero] at shape
    | cons byte rest => rw [shape] at parsed; exact parsed

theorem formatNat_ne_nil (value : Nat) : formatNat value ≠ [] := by
  intro empty
  have parsed := parseNat_formatNat value
  rw [empty] at parsed
  cases parsed

theorem formatNat_digits (value : Nat) (byte : UInt8) (member : byte ∈ formatNat value) :
    ∃ small, small < 10 ∧ byte = digit small := by
  unfold formatNat at member
  split at member
  · exact ⟨0, by decide, by simpa using member⟩
  · obtain ⟨small, present, rfl⟩ := List.mem_map.mp member
    exact ⟨small, Nat.digits_lt_base (by decide) (List.mem_reverse.mp present), rfl⟩

theorem formatInt_chars (value : Int) (byte : UInt8) (member : byte ∈ formatInt value) :
    byte = 45 ∨ (48 ≤ byte.toNat ∧ byte.toNat ≤ 57) := by
  have digits (small : Nat) (present : byte ∈ formatNat small) :
      48 ≤ byte.toNat ∧ byte.toNat ≤ 57 := by
    obtain ⟨one, bound, rfl⟩ := formatNat_digits small byte present
    rw [digit_toNat bound]
    omega
  unfold formatInt at member
  split at member
  · rcases List.mem_cons.mp member with sign | present
    · exact .inl sign
    · exact .inr (digits _ present)
  · exact .inr (digits _ member)

private theorem parseInt_unsigned (parsed : parseNat text = some value)
    (digits : ∀ byte ∈ text, 48 ≤ byte.toNat) (small : value < 2 ^ 63) : parseInt text = some (value : Int) := by
  unfold parseInt
  split
  · have := digits 45 (List.mem_cons_self ..)
    simp at this
  · have := digits 43 (List.mem_cons_self ..)
    simp at this
  · simp only [parsed, Option.bind_some, small, ↓reduceIte]

theorem parseInt_formatInt {value : Int} (lower : -2 ^ 63 ≤ value) (upper : value < 2 ^ 63) :
    parseInt (formatInt value) = some value := by
  by_cases negative : value < 0
  · have bound : value.natAbs ≤ 2 ^ 63 := by omega
    rw [formatInt, if_pos negative]
    simp only [parseInt, parseNat_formatNat, Option.bind_some, bound, ↓reduceIte, Option.some.injEq]
    omega
  · have bound : value.natAbs < 2 ^ 63 := by omega
    rw [formatInt, if_neg negative, parseInt_unsigned (parseNat_formatNat _) ?_ bound]
    · simp only [Option.some.injEq]
      omega
    · intro byte member
      obtain ⟨small, limit, rfl⟩ := formatNat_digits _ byte member
      rw [digit_toNat limit]
      omega

example : parseInt (formatInt (-300)) = some (-300) := by decide

end Gofi.Go
