import Gofi.Go.Text

/-! UTF-8 as Go's `unicode/utf8` reads it. -/

namespace Gofi.Go.Utf8

def trailing (byte : UInt8) : Bool := 0x80 ≤ byte ∧ byte ≤ 0xBF

/-- The second byte that may follow the first byte of a sequence of three or four: the
encodings of surrogates, of runes past the last one and overlong ones are left out. -/
def second (first byte : UInt8) : Bool :=
  (if first = 0xE0 then 0xA0 else if first = 0xF0 then 0x90 else 0x80) ≤ byte ∧
    byte ≤ (if first = 0xED then 0x9F else if first = 0xF4 then 0x8F else 0xBF)

/-- `utf8.ValidString`. -/
def valid : Str → Bool
  | [] => true
  | a :: rest =>
    if a < 0x80 then valid rest
    else match rest with
      | b :: rest =>
        if 0xC2 ≤ a ∧ a ≤ 0xDF then trailing b && valid rest
        else match rest with
          | c :: rest =>
            if 0xE0 ≤ a ∧ a ≤ 0xEF then second a b && trailing c && valid rest
            else match rest with
              | d :: rest =>
                0xF0 ≤ a && a ≤ 0xF4 && second a b && trailing c && trailing d && valid rest
              | [] => false
          | [] => false
      | [] => false

theorem valid_of_lt (plain : text.all (· < 0x80) = true) : valid text = true := by
  induction text with
  | nil => rfl
  | cons byte rest ih =>
    rw [List.all_cons, Bool.and_eq_true, decide_eq_true_iff] at plain
    rw [valid.eq_def]
    simp only [if_pos plain.1, ih plain.2]

end Gofi.Go.Utf8
