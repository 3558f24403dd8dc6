import Gofi.Sqln.SearchMeaning
import Gofi.Text.Operators
import Gofi.Text.Scanner
import Mathlib.Data.Set.Basic
import Mathlib.Data.Int.Basic

/-! The query language of `to_tsquery`: quoted words, word prefixes, `!`, `<N>`,
`&`, `|` and parentheses, from the strongest operator to the weakest. Unquoted
words and weights are left out: a text that uses them is not read here. -/

namespace Gofi.Sqln.Tsquery

open Gofi.Go Gofi.Text

structure Lexeme where
  word : Str
  isPrefix : Bool
  deriving DecidableEq

inductive Operator where
  | or
  | and
  /-- `<N>`: the right operand stands so many positions after the left one. -/
  | followed (distance : Nat)
  deriving DecidableEq

abbrev Token := Operators.Token Lexeme Operator

abbrev Query := Operators.Expr Lexeme Operator

def strength : Operator → Nat
  | .or => 1
  | .and => 2
  | .followed _ => 3

def table : Operators.Table Operator where
  strength := strength
  negation := 4
  negation_pos := Nat.succ_pos 3
  strength_lt o := by cases o <;> simp [strength]

/-! Reading the tokens. -/

inductive Mode where
  | between
  /-- Inside of quotes, with what has been read. -/
  | quoted (word : Str)
  /-- After a backslash there. -/
  | escaped (word : Str)
  /-- After a quote that closes the word, or is the first of two. -/
  | closed (word : Str)
  /-- After the colon behind a word. -/
  | flag (word : Str)
  | angle
  | dash
  | distance (value : Nat)
  deriving DecidableEq

def signs : List UInt8 := ascii " '\\!()&|<>:*"

def maxDistance : Nat := 16384

def begin_ (char : UInt8) : Option (List Token × Mode) :=
  if char = 32 then some ([], .between)
  else if char = 39 then some ([], .quoted [])
  else if char = 33 then some ([.not], .between)
  else if char = 40 then some ([.opening], .between)
  else if char = 41 then some ([.closing], .between)
  else if char = 38 then some ([.binary .and], .between)
  else if char = 124 then some ([.binary .or], .between)
  else if char = 60 then some ([], .angle)
  else none

def step : Mode → UInt8 → Option (List Token × Mode)
  | .between, char => begin_ char
  | .quoted word, char =>
    if char = 39 then some ([], .closed word)
    else if char = 92 then some ([], .escaped word)
    else some ([], .quoted (word ++ [char]))
  | .escaped word, char => some ([], .quoted (word ++ [char]))
  | .closed word, char =>
    if char = 39 then some ([], .quoted (word ++ [char]))
    else if char = 58 then some ([], .flag word)
    else (begin_ char).map fun (tokens, mode) => (.operand ⟨word, false⟩ :: tokens, mode)
  | .flag word, char => if char = 42 then some ([.operand ⟨word, true⟩], .between) else none
  | .angle, char => if char = 45 then some ([], .dash) else (digitValue char).map fun value => ([], .distance value)
  | .dash, char => if char = 62 then some ([.binary (.followed 1)], .between) else none
  | .distance value, char =>
    if char = 62 then if value ≤ maxDistance then some ([.binary (.followed value)], .between) else none
    else (digitValue char).map fun digit => ([], .distance (10 * value + digit))

def finish : Mode → Option (List Token)
  | .between => some []
  | .closed word => some [.operand ⟨word, false⟩]
  | _ => none

def scanner : Scanner Mode UInt8 Token where
  start := .between
  step := step
  finish := finish
  finish_start := rfl

attribute [local simp] scanner step

def parse (text : Str) : Option Query := (scanner.read text).bind (Operators.parse table)

/-! Which documents a query matches. -/

/-- Where a query ends in a document, and how far before that it begins. -/
structure Hits where
  width : Nat
  ends : Set Int

def Lexeme.at (doc : Document) (lexeme : Lexeme) (place : Nat) : Prop :=
  if lexeme.isPrefix then doc.begins place lexeme.word else doc.holds place lexeme.word

def places (found : Nat → Prop) : Set Int := {place | ∃ known : Nat, place = (known : Int) ∧ found known}

open Classical in
/-- The operands of `<N>` are matched by position. Alternatives of different
widths are aligned at their beginnings; one without a hit has no width. -/
noncomputable def hits (doc : Document) : Query → Hits
  | .operand lexeme => ⟨0, places (lexeme.at doc)⟩
  | .not q => ⟨(hits doc q).width, (hits doc q).endsᶜ⟩
  | .binary (.followed distance) left right =>
    ⟨distance + (hits doc left).width + (hits doc right).width,
      {place | place ∈ (hits doc right).ends ∧ place - (distance + (hits doc right).width) ∈ (hits doc left).ends}⟩
  | .binary .and left right =>
    let width := max (hits doc left).width (hits doc right).width
    ⟨width, {place | place - (width - (hits doc left).width) ∈ (hits doc left).ends ∧
      place - (width - (hits doc right).width) ∈ (hits doc right).ends}⟩
  | .binary .or left right =>
    let leftWidth := if (hits doc left).ends = ∅ then 0 else (hits doc left).width
    let rightWidth := if (hits doc right).ends = ∅ then 0 else (hits doc right).width
    let width := max leftWidth rightWidth
    ⟨width, {place | place - (width - leftWidth) ∈ (hits doc left).ends ∨
      place - (width - rightWidth) ∈ (hits doc right).ends}⟩

def Matches (doc : Document) : Query → Prop
  | .operand lexeme => ∃ place, lexeme.at doc place
  | .not q => ¬ Matches doc q
  | .binary .and left right => Matches doc left ∧ Matches doc right
  | .binary .or left right => Matches doc left ∨ Matches doc right
  | .binary (.followed distance) left right => (hits doc (.binary (.followed distance) left right)).ends.Nonempty

/-! Texts that are read as a query wherever operators of a strength may stand. -/

/-- What ends a word: not a second quote, and not the colon before a flag. -/
def stop (char : UInt8) : Bool := char ≠ 39 && char ≠ 58

def Reads (least : Nat) (text : Str) (q : Query) : Prop :=
  ∃ tokens, scanner.Spells stop text tokens ∧ Operators.Derives table least tokens q

structure Signs (text : Str) (tokens : List Token) : Prop where
  run : scanner.run .between text = some (tokens, .between)
  begins : Scanner.Before stop text
  nonempty : text ≠ []

theorem Reads.parse (reads : Reads 1 text q) : parse text = some q := by
  obtain ⟨tokens, spelled, derived⟩ := reads
  rw [Tsquery.parse, spelled.read, Option.bind_some, derived.parse]

theorem signs_of_cons (run : scanner.run .between (char :: rest) = some (tokens, .between))
    (stops : stop char = true) : Signs (char :: rest) tokens :=
  ⟨run, fun first same => by cases same; exact stops, by simp⟩

theorem signs_and : Signs (ascii " & ") [.binary .and] := signs_of_cons rfl rfl

theorem signs_or : Signs (ascii " | ") [.binary .or] := signs_of_cons rfl rfl

theorem signs_next : Signs (ascii " <-> ") [.binary (.followed 1)] := signs_of_cons rfl rfl

theorem signs_opening : Signs (ascii "( ") [.opening] := signs_of_cons rfl rfl

theorem signs_closing : Signs (ascii " )") [.closing] := signs_of_cons rfl rfl

theorem signs_followed (bounded : distance ≤ maxDistance) :
    Signs (ascii " <" ++ formatNat distance ++ ascii "> ") [.binary (.followed distance)] := by
  have parsed := parseNat_formatNat distance
  obtain ⟨first, rest, digits⟩ := List.exists_cons_of_ne_nil (formatNat_ne_nil distance)
  rw [digits, parseNat, parseDigits] at parsed
  obtain ⟨value, read, later⟩ := Option.bind_eq_some_iff.mp parsed
  have started : scanner.step .angle first = some ([], .distance (10 * 0 + value)) := by
    have noDash : first ≠ 45 := by rintro rfl; cases read
    simp [noDash, read]
  have number : scanner.run (.distance (10 * 0 + value)) rest = some ([], .distance distance) := by
    refine Scanner.run_digits (fun value char digit read => ?_) later
    have noEnd : char ≠ 62 := by rintro rfl; cases read
    simp [noEnd, read]
  have opened : scanner.run .between (ascii " <" ++ formatNat distance) = some ([], .distance distance) := by
    rw [Scanner.run_append _ _ (show _ = some ([], Mode.angle) from rfl), digits, Scanner.run_cons started, number]
    rfl
  have closed : scanner.run (.distance distance) (ascii "> ") = some ([.binary (.followed distance)], .between) := by
    simp [ascii, Scanner.run, bounded, begin_]
  have whole : scanner.run .between (ascii " <" ++ formatNat distance ++ ascii "> ") =
      some ([.binary (.followed distance)], .between) := by
    rw [Scanner.run_append _ _ opened, closed]
    rfl
  exact signs_of_cons whole rfl

theorem Signs.spells (signs : Signs text tokens) (after : UInt8 → Bool) : scanner.Spells after text tokens :=
  Scanner.spells_of_run signs.run after

theorem not_sign (plain : wordByte byte = true) : byte ∉ signs :=
  not_mem_of_wordByte plain (by simp [signs, ascii, wordByte])

theorem run_quoted (plain : PlainWord word) : scanner.run (.quoted []) word = some ([], .quoted word) := by
  refine Scanner.run_gathered (fun begun byte member => ?_) []
  have noQuote : byte ≠ 39 := ne_of_wordByte (plain.2 byte member) rfl
  have noEscape : byte ≠ 92 := ne_of_wordByte (plain.2 byte member) rfl
  simp [noQuote, noEscape]

theorem run_word (plain : PlainWord word) :
    scanner.run .between (ascii "'" ++ word ++ ascii "'") = some ([], .closed word) := by
  have opened : scanner.run .between (ascii "'" ++ word) = some ([], .quoted word) := by
    rw [Scanner.run_append (ascii "'") word (show _ = some ([], Mode.quoted []) from rfl), run_quoted plain]
    rfl
  rw [Scanner.run_append _ _ opened]
  rfl

theorem reads_word (plain : PlainWord word) :
    Reads least (ascii "'" ++ word ++ ascii "'") (.operand ⟨word, false⟩) := by
  refine ⟨[.operand ⟨word, false⟩], ?_, .operand⟩
  refine Scanner.spells_of_open (run_word plain) rfl fun char stops => ?_
  simp only [stop, Bool.and_eq_true, decide_eq_true_eq] at stops
  simp [stops.1, stops.2]

theorem reads_beginning (plain : PlainWord word) :
    Reads least (ascii "'" ++ word ++ ascii "'" ++ ascii ":*") (.operand ⟨word, true⟩) := by
  refine ⟨[.operand ⟨word, true⟩], Scanner.spells_of_run ?_ stop, .operand⟩
  rw [show scanner.start = Mode.between from rfl, Scanner.run_append _ _ (run_word plain)]
  rfl

theorem Reads.binary (front : Reads (strength o) text left) (signs : Signs between [.binary o])
    (back : Reads (strength o + 1) more right) (weak : least ≤ strength o) :
    Reads least (text ++ between ++ more) (.binary o left right) := by
  obtain ⟨early, spelled, derived⟩ := front
  obtain ⟨late, spelledMore, derivedMore⟩ := back
  refine ⟨early ++ [.binary o] ++ late, ?_, ?_⟩
  · exact (spelled.append (signs.spells _) signs.nonempty signs.begins).before_any spelledMore
  · rw [List.append_assoc]
    exact .binary weak derived derivedMore

theorem Reads.grouped (inner : Reads 1 text q) (opening : Signs before [.opening]) (closing : Signs after [.closing]) :
    Reads least (before ++ text ++ after) q := by
  obtain ⟨tokens, spelled, derived⟩ := inner
  refine ⟨[.opening] ++ tokens ++ [.closing], ?_, .grouped derived⟩
  exact ((opening.spells _).before_any spelled).append (closing.spells _) closing.nonempty closing.begins

theorem Reads.not (inner : Reads 5 text q) : Reads least (ascii "!" ++ text) (.not q) := by
  obtain ⟨tokens, spelled, derived⟩ := inner
  refine ⟨[.not] ++ tokens, ?_, .not derived⟩
  exact (Scanner.spells_of_run rfl _).before_any spelled

end Gofi.Sqln.Tsquery
