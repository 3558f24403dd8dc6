import Gofi.Go.Text
import Gofi.Go.Time
import Mathlib.Data.List.DropRight

/-! Go's `time.RFC3339Nano`: how `Format` writes a clock reading, and what `Parse`
reads. Dates are those of the proleptic Gregorian calendar. -/

namespace Gofi.Go

/-! ## The calendar -/

/-- The days from 0001-01-01 to the first day of a year. -/
def daysBeforeYear (year : Int) : Int :=
  365 * (year - 1) + (year - 1) / 4 - (year - 1) / 100 + (year - 1) / 400

def isLeap (year : Int) : Bool := year % 4 = 0 ∧ (year % 100 ≠ 0 ∨ year % 400 = 0)

/-- The lengths of the months of a year. -/
def months (year : Int) : List Nat :=
  [31, if isLeap year then 29 else 28, 31, 30, 31, 30, 31, 31, 30, 31, 30, 31]

/-- The year of a day: an average year has 146097 / 400 days, which is at most one year short. -/
def yearOf (days : Int) : Int :=
  let guess := 400 * days / 146097 + 1
  if daysBeforeYear (guess + 1) ≤ days then guess + 1 else guess

theorem daysBeforeYear_yearOf (days : Int) : daysBeforeYear (yearOf days) ≤ days := by
  dsimp only [yearOf]
  split
  · assumption
  · unfold daysBeforeYear
    lia

theorem lt_daysBeforeYear_yearOf (days : Int) : days < daysBeforeYear (yearOf days + 1) := by
  dsimp only [yearOf]
  split
  · unfold daysBeforeYear
    lia
  · lia

theorem yearOf_natAbs_le (days : Int) : (yearOf days).natAbs ≤ days.natAbs + 2 := by
  dsimp only [yearOf]
  split <;> lia

theorem daysBeforeYear_succ (year : Int) : daysBeforeYear (year + 1) = daysBeforeYear year + (months year).sum := by
  unfold daysBeforeYear
  by_cases leap : isLeap year <;> simp [months, leap] <;> simp [isLeap] at leap <;> lia

/-- The part of a list of lengths that a position lies in, and the position in it. -/
def partOf : List Nat → Nat → Nat × Nat
  | [], place => (0, place)
  | length :: rest, place =>
    if place < length then (0, place) else
      let (index, inner) := partOf rest (place - length)
      (index + 1, inner)

theorem partOf_spec (lengths : List Nat) (place : Nat) (inside : place < lengths.sum) :
    place = (lengths.take (partOf lengths place).1).sum + (partOf lengths place).2 ∧
      ∃ length, lengths[(partOf lengths place).1]? = some length ∧ (partOf lengths place).2 < length := by
  induction lengths generalizing place with
  | nil => cases inside
  | cons length rest ih =>
    unfold partOf
    split
    · rename_i here
      simp [here]
    · rename_i beyond
      rw [List.sum_cons] at inside
      obtain ⟨split, found⟩ := ih (place - length) (by lia)
      refine ⟨?_, found⟩
      rw [List.take_succ_cons, List.sum_cons]
      lia

structure Date where
  year : Int
  month : Nat
  day : Nat

namespace Date

/-- The days from 0001-01-01 to a date. -/
def days (date : Date) : Int :=
  daysBeforeYear date.year + ((months date.year).take (date.month - 1)).sum + (date.day - 1 : Nat)

/-- The month and the day exist in the year. -/
def Valid (date : Date) : Prop :=
  1 ≤ date.month ∧ 1 ≤ date.day ∧ ∃ length, (months date.year)[date.month - 1]? = some length ∧ date.day ≤ length

instance (date : Date) : Decidable date.Valid :=
  match found : (months date.year)[date.month - 1]? with
  | none => .isFalse fun valid => by simp [Valid, found] at valid
  | some length => decidable_of_iff (1 ≤ date.month ∧ 1 ≤ date.day ∧ date.day ≤ length) (by simp [Valid, found])

def ofDays (days : Int) : Date :=
  let year := yearOf days
  let (index, inner) := partOf (months year) (days - daysBeforeYear year).toNat
  ⟨year, index + 1, inner + 1⟩

theorem ofDays_spec (days : Int) : (ofDays days).days = days ∧ (ofDays days).Valid := by
  have lower := daysBeforeYear_yearOf days
  have upper := lt_daysBeforeYear_yearOf days
  rw [daysBeforeYear_succ] at upper
  obtain ⟨split, length, found, short⟩ :=
    partOf_spec (months (yearOf days)) (days - daysBeforeYear (yearOf days)).toNat (by lia)
  simp only [ofDays, Date.days, Valid, Nat.add_sub_cancel]
  refine ⟨by lia, by lia, by lia, length, found, by lia⟩

theorem Valid.bounds {date : Date} (valid : date.Valid) : date.month ≤ 12 ∧ date.day ≤ 31 := by
  obtain ⟨_, _, length, found, inside⟩ := valid
  obtain ⟨index, rfl⟩ := List.getElem?_eq_some_iff.mp found
  have longest : ∀ length ∈ months date.year, length ≤ 31 := by
    by_cases leap : isLeap date.year <;> simp [months, leap]
  have few : (months date.year).length = 12 := rfl
  exact ⟨by lia, inside.trans (longest _ (List.getElem_mem index))⟩

end Date

/-- The year of a clock reading. -/
def Time.year (clock : Time) : Int := (Date.ofDays (clock / Time.day)).year

namespace Rfc3339

/-! ## `Format` -/

/-- `appendInt` of a number that is not negative: zeros in front up to the width. -/
def pad (width value : Nat) : Str :=
  List.replicate (width - (formatNat value).length) (digit 0) ++ formatNat value

def appendInt (width : Nat) (value : Int) : Str :=
  if value < 0 then 45 :: pad width value.natAbs else pad width value.natAbs

/-- `appendNano` with trailing zeros removed. -/
def appendNano (nanoseconds : Nat) : Str :=
  if nanoseconds = 0 then [] else 46 :: (pad 9 nanoseconds).rdropWhile (· = digit 0)

/-- The minutes of a zone, which are absent for a zone without an offset. -/
def zoneText : Option Int → Str
  | none => [90]
  | some minutes =>
    (if minutes < 0 then 45 else 43) :: (pad 2 (minutes.natAbs / 60) ++ 58 :: pad 2 (minutes.natAbs % 60))

def dateText (date : Date) : Str :=
  appendInt 4 date.year ++ 45 :: (pad 2 date.month ++ 45 :: pad 2 date.day)

/-- The time of the day, in seconds. -/
def clockText (seconds : Nat) : Str :=
  pad 2 (seconds / 3600) ++ 58 :: (pad 2 (seconds / 60 % 60) ++ 58 :: pad 2 (seconds % 60))

/-- The text of a clock reading: the nanoseconds since 0001-01-01T00:00:00 in its zone. -/
def format (clock : Time) (zone : Option Int) : Str :=
  dateText (Date.ofDays (clock / Time.day)) ++ 84 :: (clockText (clock % Time.day / Time.second).toNat ++
    (appendNano (clock % Time.second).toNat ++ zoneText zone))

/-! ## `Parse` -/

/-- A number of exactly so many digits. -/
def readDigits (width : Nat) (text : Str) : Option (Nat × Str) :=
  if width ≤ text.length then (parseDigits 0 (text.take width)).map (·, text.drop width) else none

def readByte (byte : UInt8) : Str → Option Str
  | [] => none
  | first :: rest => if first = byte then some rest else none

/-- Hours may have one digit. -/
def readHour (text : Str) : Option (Nat × Str) := readDigits 2 text <|> readDigits 1 text

def isDigit (byte : UInt8) : Bool := (digitValue byte).isSome

/-- `parseNanoseconds`: digits after the ninth are dropped. -/
def nanoseconds (digits : Str) : Nat := (parseDigits 0 (digits.take 9)).getD 0 * 10 ^ (9 - digits.length)

/-- A fraction of a second after a point or a comma, if there is one. -/
def readNano : Str → Nat × Str
  | [] => (0, [])
  | mark :: rest =>
    let digits := rest.takeWhile isDigit
    if (mark = 46 ∨ mark = 44) ∧ digits ≠ [] then (nanoseconds digits, rest.drop digits.length) else (0, mark :: rest)

/-- The offset of a zone in seconds, which ends the text. -/
def readZone : Str → Option Int
  | [90] => some 0
  | [] => none
  | sign :: text => do
    let (hours, text) ← readDigits 2 text
    let text ← readByte 58 text
    let (minutes, text) ← readDigits 2 text
    -- 24 hours and 60 minutes are let through.
    if text = [] ∧ hours ≤ 24 ∧ minutes ≤ 60 then
      if sign = 43 then some ((hours * 60 + minutes) * 60 : Nat)
      else if sign = 45 then some (-((hours * 60 + minutes) * 60 : Nat))
      else none
    else none

def readDate (text : Str) : Option (Date × Str) := do
  let (year, text) ← readDigits 4 text
  let text ← readByte 45 text
  let (month, text) ← readDigits 2 text
  let text ← readByte 45 text
  let (day, text) ← readDigits 2 text
  some (⟨year, month, day⟩, text)

/-- The seconds of a time of the day. -/
def readClock (text : Str) : Option (Nat × Str) := do
  let (hour, text) ← readHour text
  let text ← readByte 58 text
  let (minute, text) ← readDigits 2 text
  let text ← readByte 58 text
  let (second, text) ← readDigits 2 text
  if hour < 24 ∧ minute < 60 ∧ second < 60 then some (hour * 3600 + minute * 60 + second, text) else none

def parse (text : Str) : Option Time := do
  let (date, text) ← readDate text
  let text ← readByte 84 text
  let (seconds, text) ← readClock text
  let (nanosecond, text) := readNano text
  let offset ← readZone text
  if date.Valid then some ((date.days * 86400 + seconds - offset) * Time.second + nanosecond) else none

/-! ## Reading what was written -/

section Digits

variable {value width : Nat}

private theorem parseDigits_zeros (value count : Nat) :
    parseDigits value (List.replicate count (digit 0)) = some (value * 10 ^ count) := by
  induction count generalizing value with
  | zero => simp [parseDigits]
  | succ count ih =>
    rw [List.replicate_succ, parseDigits, digitValue_digit (by decide), Option.bind_some, ih, pow_succ]
    congr 1
    ring

private theorem parseDigits_formatNat (value : Nat) : parseDigits 0 (formatNat value) = some value := by
  have parsed := parseNat_formatNat value
  cases text : formatNat value with
  | nil => exact absurd text (formatNat_ne_nil value)
  | cons byte rest => rwa [text] at parsed

theorem parseDigits_pad (width value : Nat) : parseDigits 0 (pad width value) = some value := by
  rw [pad, parseDigits_append, parseDigits_zeros, Nat.zero_mul]
  exact parseDigits_formatNat value

theorem formatNat_length (positive : 0 < width) (small : value < 10 ^ width) : (formatNat value).length ≤ width := by
  unfold formatNat
  split
  · exact positive
  · rw [List.length_map, List.length_reverse]
    exact (Nat.digits_length_le_iff (by decide) _).mpr small

theorem pad_length_le (wide : width ≤ limit) (positive : 0 < limit) (small : value < 10 ^ limit) :
    (pad width value).length ≤ limit := by
  have := formatNat_length positive small
  rw [pad, List.length_append, List.length_replicate]
  lia

theorem pad_length (positive : 0 < width) (small : value < 10 ^ width) : (pad width value).length = width := by
  refine (pad_length_le le_rfl positive small).antisymm ?_
  rw [pad, List.length_append, List.length_replicate]
  lia

theorem isDigit_of_mem_pad {byte : UInt8} (member : byte ∈ pad width value) : isDigit byte = true := by
  rcases List.mem_append.mp member with zero | digit
  · rw [List.eq_of_mem_replicate zero]
    rfl
  · obtain ⟨small, bound, rfl⟩ := formatNat_digits value byte digit
    rw [isDigit, digitValue_digit bound]
    rfl

theorem readDigits_pad (positive : 0 < width) (small : value < 10 ^ width) (rest : Str) :
    readDigits width (pad width value ++ rest) = some (value, rest) := by
  have length := pad_length positive small
  rw [readDigits, if_pos (by rw [List.length_append]; lia), List.take_left' length, List.drop_left' length,
    parseDigits_pad]
  rfl

theorem readHour_pad (small : value < 10 ^ 2) (rest : Str) : readHour (pad 2 value ++ rest) = some (value, rest) := by
  rw [readHour, readDigits_pad (by decide) small]
  rfl

end Digits

/-- A text that does not go on with a digit. -/
def Stops (text : Str) : Prop := ∀ byte, text.head? = some byte → isDigit byte = false

theorem takeWhile_isDigit {digits rest : Str} (all : ∀ byte ∈ digits, isDigit byte = true) (stops : Stops rest) :
    (digits ++ rest).takeWhile isDigit = digits := by
  rw [List.takeWhile_append_of_pos all]
  cases rest with
  | nil => simp
  | cons byte rest => simp [stops byte rfl]

theorem digits_append_inj {digits digits' rest rest' : Str} (all : ∀ byte ∈ digits, isDigit byte = true)
    (all' : ∀ byte ∈ digits', isDigit byte = true) (stops : Stops rest) (stops' : Stops rest')
    (same : digits ++ rest = digits' ++ rest') : digits = digits' ∧ rest = rest' := by
  have read := congrArg (List.takeWhile isDigit) same
  rw [takeWhile_isDigit all stops, takeWhile_isDigit all' stops'] at read
  subst read
  exact ⟨rfl, List.append_cancel_left same⟩

theorem pad_append_inj {width value value' : Nat} {rest rest' : Str} (stops : Stops rest) (stops' : Stops rest')
    (same : pad width value ++ rest = pad width value' ++ rest') : value = value' ∧ rest = rest' := by
  obtain ⟨digits, rests⟩ :=
    digits_append_inj (fun _ => isDigit_of_mem_pad) (fun _ => isDigit_of_mem_pad) stops stops' same
  have parsed := congrArg (parseDigits 0) digits
  rw [parseDigits_pad, parseDigits_pad] at parsed
  exact ⟨Option.some.inj parsed, rests⟩

theorem pad_ne_nil (width value : Nat) : pad width value ≠ [] :=
  fun empty => formatNat_ne_nil value (List.append_eq_nil_iff.mp empty).2

/-- The nine digits are those that are kept, and zeros. -/
private theorem trimmed_append (digits : Str) (length : digits.length = 9) :
    digits = digits.rdropWhile (· = digit 0) ++
      List.replicate (9 - (digits.rdropWhile (· = digit 0)).length) (digit 0) := by
  have parts := List.rdropWhile_append_rtakeWhile (p := (· = digit 0)) (l := digits)
  have zeros := List.eq_replicate_of_mem fun byte member =>
    of_decide_eq_true (List.mem_rtakeWhile_imp (p := (· = digit 0)) (l := digits) member)
  have lengths := congrArg List.length parts
  rw [List.length_append, length] at lengths
  rw [zeros] at parts
  rw [show 9 - _ = (digits.rtakeWhile (· = digit 0)).length by lia]
  exact parts.symm

theorem nanoseconds_trimmed (small : value < 10 ^ 9) :
    nanoseconds ((pad 9 value).rdropWhile (· = digit 0)) = value := by
  have parsed := parseDigits_pad 9 value
  have length := pad_length (by decide) small
  have parts := trimmed_append (pad 9 value) length
  have short : ((pad 9 value).rdropWhile (· = digit 0)).length ≤ 9 :=
    (List.rdropWhile_prefix _ _).length_le.trans length.le
  rw [parts, parseDigits_append, Option.bind_eq_some_iff] at parsed
  obtain ⟨front, read, scaled⟩ := parsed
  rw [parseDigits_zeros] at scaled
  rw [nanoseconds, List.take_of_length_le short, read, Option.getD_some]
  exact Option.some.inj scaled

/-- A text that a fraction can stand before: neither a digit nor a mark. -/
def Final (text : Str) : Prop := Stops text ∧ text.head? ≠ some 46 ∧ text.head? ≠ some 44

theorem readNano_appendNano (small : value < 10 ^ 9) (final : Final rest) :
    readNano (appendNano value ++ rest) = (value, rest) := by
  unfold appendNano
  split
  · rename_i zero
    cases rest with
    | nil => rw [zero]; rfl
    | cons mark rest =>
      have unmarked : ¬ (mark = 46 ∨ mark = 44) := by
        simpa [not_or] using final.2
      simp [readNano, unmarked, zero]
  · rename_i positive
    have digits : ∀ byte ∈ (pad 9 value).rdropWhile (· = digit 0), isDigit byte = true := fun byte member =>
      isDigit_of_mem_pad ((List.rdropWhile_prefix _ _).subset member)
    have kept : (pad 9 value).rdropWhile (· = digit 0) ≠ [] := by
      intro none
      have all := nanoseconds_trimmed small
      rw [none] at all
      exact positive all.symm
    rw [List.cons_append, readNano, takeWhile_isDigit digits final.1]
    simp [kept, nanoseconds_trimmed small]

theorem zoneText_final (zone : Option Int) : Final (zoneText zone) := by
  cases zone with
  | none => exact ⟨fun byte first => by cases first; rfl, by decide, by decide⟩
  | some minutes =>
    by_cases west : minutes < 0
    all_goals
      refine ⟨fun byte first => ?_, ?_, ?_⟩
      all_goals simp only [zoneText, west, ↓reduceIte, List.head?_cons] at *
      · cases first; rfl
      · decide
      · decide

private theorem stops_cons {byte : UInt8} (other : isDigit byte = false) (rest : Str) : Stops (byte :: rest) := by
  intro first same
  cases same
  exact other

private theorem stops_nil : Stops [] := by
  intro byte first
  cases first

theorem zoneText_inj {zone zone' : Option Int} (same : zoneText zone = zoneText zone') : zone = zone' := by
  match zone, zone' with
  | none, none => rfl
  | none, some minutes | some minutes, none =>
    simp only [zoneText, List.cons.injEq] at same
    split at same <;> simp at same
  | some minutes, some minutes' =>
    obtain ⟨signs, numbers⟩ := List.cons.inj same
    obtain ⟨hours, rests⟩ := pad_append_inj (stops_cons rfl _) (stops_cons rfl _) numbers
    have ends := List.tail_eq_of_cons_eq rests
    rw [← List.append_nil (pad 2 (minutes.natAbs % 60)), ← List.append_nil (pad 2 (minutes'.natAbs % 60))] at ends
    obtain ⟨below, _⟩ := pad_append_inj stops_nil stops_nil ends
    have sign : minutes < 0 ↔ minutes' < 0 := by
      split at signs <;> split at signs
      all_goals first | (simp at signs; done) | lia
    congr 1
    lia

private theorem appendInt_append_inj {value value' : Int} (stops : Stops rest) (stops' : Stops rest')
    (same : appendInt width value ++ rest = appendInt width value' ++ rest') : value = value' ∧ rest = rest' := by
  have apart (number : Nat) (more other : Str) (mixed : pad width number ++ more = 45 :: other) : False := by
    cases text : pad width number with
    | nil => exact pad_ne_nil _ _ text
    | cons byte digits =>
      have digit := isDigit_of_mem_pad (text ▸ List.mem_cons_self : byte ∈ pad width number)
      rw [text] at mixed
      rw [(List.cons.inj mixed).1] at digit
      cases digit
  unfold appendInt at same
  split at same <;> split at same
  · obtain ⟨numbers, rests⟩ := pad_append_inj stops stops' (List.tail_eq_of_cons_eq same)
    exact ⟨by lia, rests⟩
  · exact (apart _ _ _ same.symm).elim
  · exact (apart _ _ _ same).elim
  · obtain ⟨numbers, rests⟩ := pad_append_inj stops stops' same
    exact ⟨by lia, rests⟩

private theorem dateText_append_inj {date date' : Date} (stops : Stops rest) (stops' : Stops rest')
    (same : dateText date ++ rest = dateText date' ++ rest') : date = date' ∧ rest = rest' := by
  simp only [dateText, List.append_assoc, List.cons_append] at same
  obtain ⟨year, same⟩ := appendInt_append_inj (stops_cons rfl _) (stops_cons rfl _) same
  obtain ⟨month, same⟩ := pad_append_inj (stops_cons rfl _) (stops_cons rfl _) (List.tail_eq_of_cons_eq same)
  obtain ⟨day, same⟩ := pad_append_inj stops stops' (List.tail_eq_of_cons_eq same)
  cases date
  cases date'
  simp_all

private theorem clockText_append_inj {seconds seconds' : Nat} (stops : Stops rest) (stops' : Stops rest')
    (same : clockText seconds ++ rest = clockText seconds' ++ rest') : seconds = seconds' ∧ rest = rest' := by
  simp only [clockText, List.append_assoc, List.cons_append] at same
  obtain ⟨hour, same⟩ := pad_append_inj (stops_cons rfl _) (stops_cons rfl _) same
  obtain ⟨minute, same⟩ := pad_append_inj (stops_cons rfl _) (stops_cons rfl _) (List.tail_eq_of_cons_eq same)
  obtain ⟨second, same⟩ := pad_append_inj stops stops' (List.tail_eq_of_cons_eq same)
  exact ⟨by lia, same⟩

private theorem nanoseconds_lt (clock : Time) : (clock % Time.second).toNat < 10 ^ 9 := by
  unfold Time.second
  lia

private theorem seconds_lt (clock : Time) : (clock % Time.day / Time.second).toNat < 86400 := by
  simp only [Time.day, Time.hour, Time.minute, Time.second]
  lia

/-- A clock reading is its day, the seconds of the day and the nanoseconds. -/
private theorem clock_eq (clock : Time) :
    clock = (clock / Time.day * 86400 + (clock % Time.day / Time.second).toNat) * Time.second +
      (clock % Time.second).toNat := by
  simp only [Time.day, Time.hour, Time.minute, Time.second]
  lia

/-- A text is written for one clock reading and one zone, as far as it shows the zone. -/
theorem format_inj (same : format clock zone = format clock' zone') : clock = clock' ∧ zone = zone' := by
  have stops (clock : Time) (zone : Option Int) : Stops (appendNano (clock % Time.second).toNat ++ zoneText zone) := by
    unfold appendNano
    split
    · exact (zoneText_final zone).1
    · exact stops_cons rfl _
  unfold format at same
  obtain ⟨dates, same⟩ := dateText_append_inj (stops_cons rfl _) (stops_cons rfl _) same
  obtain ⟨seconds, same⟩ := clockText_append_inj (stops clock zone) (stops clock' zone') (List.tail_eq_of_cons_eq same)
  have rests := congrArg readNano same
  rw [readNano_appendNano (nanoseconds_lt clock) (zoneText_final zone),
    readNano_appendNano (nanoseconds_lt clock') (zoneText_final zone'), Prod.mk.injEq] at rests
  have days : clock / Time.day = clock' / Time.day := by
    rw [← (Date.ofDays_spec (clock / Time.day)).1, dates, (Date.ofDays_spec _).1]
  exact ⟨by rw [clock_eq clock, clock_eq clock', days, seconds, rests.1], zoneText_inj rests.2⟩

private theorem zoneText_length (small : ∀ minutes ∈ zone, minutes.natAbs < 10 ^ 30) :
    (zoneText zone).length ≤ 62 := by
  cases zone with
  | none => decide
  | some minutes =>
    have bound := small minutes rfl
    have hours : (pad 2 (minutes.natAbs / 60)).length ≤ 30 := pad_length_le (by decide) (by decide) (by lia)
    have rest : (pad 2 (minutes.natAbs % 60)).length ≤ 30 := pad_length_le (by decide) (by decide) (by lia)
    simp only [zoneText, List.length_cons, List.length_append]
    lia

private theorem appendNano_length (small : value < 10 ^ 9) : (appendNano value).length ≤ 10 := by
  unfold appendNano
  split
  · decide
  · rw [List.length_cons]
    exact Nat.succ_le_succ ((List.rdropWhile_prefix _ _).length_le.trans (pad_length (by decide) small).le)

theorem format_length (small : clock.natAbs < 10 ^ 29) (zones : ∀ minutes ∈ zone, minutes.natAbs < 10 ^ 30) :
    (format clock zone).length ≤ 300 := by
  have part {width value : Nat} (narrow : width ≤ 30) (bound : value < 10 ^ 30) : (pad width value).length ≤ 30 :=
    pad_length_le narrow (by decide) bound
  have year : (appendInt 4 (yearOf (clock / Time.day))).length ≤ 31 := by
    have near := yearOf_natAbs_le (clock / Time.day)
    have number := @part 4 (yearOf (clock / Time.day)).natAbs (by decide) (by
      simp only [Time.day, Time.hour, Time.minute, Time.second] at near ⊢
      lia)
    unfold appendInt
    split
    · rw [List.length_cons]
      lia
    · lia
  obtain ⟨_, valid⟩ := Date.ofDays_spec (clock / Time.day)
  obtain ⟨month, day⟩ := valid.bounds
  have months := @part 2 (Date.ofDays (clock / Time.day)).month (by decide) (by lia)
  have days := @part 2 (Date.ofDays (clock / Time.day)).day (by decide) (by lia)
  have nanos := appendNano_length (nanoseconds_lt clock)
  have zone := zoneText_length zones
  have early : (clock % Time.day / Time.second).toNat < 86400 := seconds_lt clock
  have hours := @part 2 ((clock % Time.day / Time.second).toNat / 3600) (by decide) (by lia)
  have minutes := @part 2 ((clock % Time.day / Time.second).toNat / 60 % 60) (by decide) (by lia)
  have seconds := @part 2 ((clock % Time.day / Time.second).toNat % 60) (by decide) (by lia)
  have same : (Date.ofDays (clock / Time.day)).year = yearOf (clock / Time.day) := rfl
  simp only [format, dateText, clockText, List.length_append, List.length_cons, same]
  lia

private theorem readByte_cons (byte : UInt8) (rest : Str) : readByte byte (byte :: rest) = some rest := if_pos rfl

private theorem readTwo (small : value < 100) (rest : Str) : readDigits 2 (pad 2 value ++ rest) = some (value, rest) :=
  readDigits_pad (by decide) small rest

private theorem readDate_dateText (valid : date.Valid) (lower : 0 ≤ date.year) (upper : date.year ≤ 9999)
    (rest : Str) :
    readDate (dateText date ++ rest) = some (date, rest) := by
  obtain ⟨year, month, day⟩ := date
  obtain ⟨months, days⟩ := Date.Valid.bounds valid
  lift year to Nat using lower
  have years : year < 10 ^ 4 := by
    dsimp only at upper
    lia
  dsimp only at months days
  rw [dateText, appendInt, if_neg (by simp), Int.natAbs_natCast]
  simp only [List.append_assoc, List.cons_append, readDate, readDigits_pad (show 0 < 4 by decide) years,
    Option.bind_eq_bind, Option.bind_some, readByte_cons, readTwo (show month < 100 by lia),
    readTwo (show day < 100 by lia)]

private theorem readClock_clockText (early : seconds < 86400) (rest : Str) :
    readClock (clockText seconds ++ rest) = some (seconds, rest) := by
  simp only [clockText, List.append_assoc, List.cons_append, readClock,
    readHour_pad (show seconds / 3600 < 100 by lia),
    Option.bind_eq_bind, Option.bind_some, readByte_cons, readTwo (show seconds / 60 % 60 < 100 by lia),
    readTwo (show seconds % 60 < 100 by lia)]
  rw [if_pos (by lia)]
  congr 2
  lia

/-- A time in UTC whose year has four digits is read back. -/
theorem parse_format (lower : 0 ≤ clock.year) (upper : clock.year ≤ 9999) :
    parse (format clock none) = some clock := by
  obtain ⟨days, valid⟩ := Date.ofDays_spec (clock / Time.day)
  have zone : readZone (zoneText none) = some 0 := rfl
  simp only [format, parse, readDate_dateText valid lower upper, Option.bind_eq_bind, Option.bind_some, readByte_cons,
    readClock_clockText (seconds_lt clock), readNano_appendNano (nanoseconds_lt clock) (zoneText_final none), zone,
      valid, ↓reduceIte,
    days, Int.sub_zero]
  rw [← clock_eq clock]

end Rfc3339

end Gofi.Go
