import Gofi.Go.Text
import Mathlib.Tactic.IntervalCases

/-! `base64.RawURLEncoding`: the URL alphabet without padding. Decoding follows
the library: line breaks are skipped and trailing bits are not checked. -/

namespace Gofi.Go.Base64

def letter (value : Nat) : UInt8 :=
  if value < 26 then UInt8.ofNat (65 + value)
  else if value < 52 then UInt8.ofNat (71 + value)
  else if value < 62 then UInt8.ofNat (value - 4)
  else if value = 62 then 45 else 95

def letterValue (byte : UInt8) : Option Nat :=
  let code := byte.toNat
  if 65 ≤ code ∧ code ≤ 90 then some (code - 65)
  else if 97 ≤ code ∧ code ≤ 122 then some (code - 71)
  else if 48 ≤ code ∧ code ≤ 57 then some (code + 4)
  else if code = 45 then some 62
  else if code = 95 then some 63
  else none

def sextets : Str → List Nat
  | [] => []
  | [a] => [a.toNat / 4, a.toNat % 4 * 16]
  | [a, b] => [a.toNat / 4, a.toNat % 4 * 16 + b.toNat / 16, b.toNat % 16 * 4]
  | a :: b :: c :: rest =>
    a.toNat / 4 :: (a.toNat % 4 * 16 + b.toNat / 16) :: (b.toNat % 16 * 4 + c.toNat / 64) ::
      c.toNat % 64 :: sextets rest

def octets : List Nat → Option Str
  | [] => some []
  | [_] => none
  | [p, q] => some [UInt8.ofNat (p * 4 + q / 16)]
  | [p, q, r] => some [UInt8.ofNat (p * 4 + q / 16), UInt8.ofNat (q % 16 * 16 + r / 4)]
  | p :: q :: r :: s :: rest => (octets rest).map fun bytes =>
      UInt8.ofNat (p * 4 + q / 16) :: UInt8.ofNat (q % 16 * 16 + r / 4) ::
        UInt8.ofNat (r % 4 * 64 + s) :: bytes

/-- `EncodeToString`. -/
def encode (bytes : Str) : Str := (sextets bytes).map letter

/-- `DecodeString`. -/
def decode (text : Str) : Option Str :=
  ((text.filter fun byte => byte ≠ 10 ∧ byte ≠ 13).mapM letterValue).bind octets

theorem letter_spec {value : Nat} (small : value < 64) :
    letterValue (letter value) = some value ∧ letter value ≠ 10 ∧ letter value ≠ 13 ∧
      letter value ≠ 46 := by
  interval_cases value <;> decide

theorem sextets_small (bytes : Str) : ∀ value ∈ sextets bytes, value < 64 := by
  induction bytes using sextets.induct with
  | case1 => simp [sextets]
  | case2 a =>
    have := a.toNat_lt
    simp only [sextets, List.mem_cons, List.not_mem_nil, or_false]
    omega
  | case3 a b =>
    have := a.toNat_lt
    have := b.toNat_lt
    simp only [sextets, List.mem_cons, List.not_mem_nil, or_false]
    omega
  | case4 a b c rest ih =>
    have := a.toNat_lt
    have := b.toNat_lt
    have := c.toNat_lt
    intro value member
    simp only [sextets, List.mem_cons] at member
    rcases member with first | second | third | fourth | later
    · omega
    · omega
    · omega
    · omega
    · exact ih value later

private theorem ofNat_eq (byte : UInt8) (value : Nat) (same : value = byte.toNat) : UInt8.ofNat value = byte := by
  rw [same]; exact UInt8.ofNat_toNat

theorem octets_sextets (bytes : Str) : octets (sextets bytes) = some bytes := by
  induction bytes using sextets.induct with
  | case1 => rfl
  | case2 a =>
    simp only [sextets, octets]
    rw [ofNat_eq a _ (by omega)]
  | case3 a b =>
    have := b.toNat_lt
    simp only [sextets, octets]
    rw [ofNat_eq a _ (by omega), ofNat_eq b _ (by omega)]
  | case4 a b c rest ih =>
    have := b.toNat_lt
    have := c.toNat_lt
    simp only [sextets, octets, ih, Option.map_some]
    rw [ofNat_eq a _ (by omega), ofNat_eq b _ (by omega), ofNat_eq c _ (by omega)]

private theorem decode_letters (values : List Nat) (small : ∀ value ∈ values, value < 64) :
    ((values.map letter).filter fun byte => byte ≠ 10 ∧ byte ≠ 13).mapM letterValue = some values := by
  induction values with
  | nil => rfl
  | cons value rest ih =>
    obtain ⟨back, noFeed, noReturn, _⟩ := letter_spec (small value (List.mem_cons_self ..))
    have tail := ih fun other member => small other (List.mem_cons_of_mem _ member)
    simp only [List.map_cons]
    rw [List.filter_cons_of_pos (by simp [noFeed, noReturn]), List.mapM_cons, back, tail]
    rfl

theorem decode_encode (bytes : Str) : decode (encode bytes) = some bytes := by
  rw [decode, encode, decode_letters _ (sextets_small bytes)]
  exact octets_sextets bytes

theorem dot_not_mem_encode (bytes : Str) : (46 : UInt8) ∉ encode bytes := by
  intro member
  obtain ⟨value, present, same⟩ := List.mem_map.mp member
  exact (letter_spec (sextets_small bytes value present)).2.2.2 same

end Gofi.Go.Base64
