import Gofi.Sqln.SearchMeaning
import Gofi.Go.Split
import Gofi.Text.Scanner

/-! The query language of `MATCH … AGAINST (… IN BOOLEAN MODE)` on InnoDB: words,
word prefixes, phrases, `"words"@N`, the signs `+` and `-`, and parentheses. The
operators that only change the relevance are left out: a text that uses them is
not read here. -/

namespace Gofi.Sqln.BooleanMode

open Gofi.Go Gofi.Text

inductive Sign where
  | required
  | excluded
  deriving DecidableEq

inductive Token where
  | sign (s : Sign)
  | word (text : Str) (isPrefix : Bool)
  /-- Quoted words, and how many words they may span together. -/
  | quoted (words : List Str) (span : Option Nat)
  | opening
  | closing
  deriving DecidableEq

inductive Item where
  | word (s : Option Sign) (text : Str) (isPrefix : Bool)
  | quoted (s : Option Sign) (words : List Str) (span : Option Nat)
  | group (s : Option Sign) (items : List Item)

def Item.sign : Item → Option Sign
  | .word s _ _ => s
  | .quoted s _ _ => s
  | .group s _ => s

/-! Reading the tokens. -/

inductive Mode where
  | between
  | word (text : Str)
  /-- Inside of quotes. -/
  | inside (text : Str)
  /-- After the closing quote. -/
  | closed (text : Str)
  /-- After the `@` behind it. -/
  | at (text : Str)
  | span (text : Str) (value : Nat)
  deriving DecidableEq

def signs : List UInt8 := ascii " \"+-()<>~*@"

def wordsOf (text : Str) : List Str := (split 32 text).filter (· ≠ [])

def begin_ (char : UInt8) : Option (List Token × Mode) :=
  if char = 32 then some ([], .between)
  else if char = 34 then some ([], .inside [])
  else if char = 43 then some ([.sign .required], .between)
  else if char = 45 then some ([.sign .excluded], .between)
  else if char = 40 then some ([.opening], .between)
  else if char = 41 then some ([.closing], .between)
  else if char ∈ signs then none
  else some ([], .word [char])

def after (token : Token) (char : UInt8) : Option (List Token × Mode) :=
  (begin_ char).map fun (tokens, mode) => (token :: tokens, mode)

def step : Mode → UInt8 → Option (List Token × Mode)
  | .between, char => begin_ char
  | .word text, char =>
    if char = 42 then some ([.word text true], .between)
    else if char ∈ signs then after (.word text false) char
    else some ([], .word (text ++ [char]))
  | .inside text, char => if char = 34 then some ([], .closed text) else some ([], .inside (text ++ [char]))
  | .closed text, char => if char = 64 then some ([], .at text) else after (.quoted (wordsOf text) none) char
  | .at text, char => (digitValue char).map fun value => ([], .span text value)
  | .span text value, char =>
    match digitValue char with
    | some digit => some ([], .span text (10 * value + digit))
    | none => after (.quoted (wordsOf text) (some value)) char

def finish : Mode → Option (List Token)
  | .between => some []
  | .word text => some [.word text false]
  | .closed text => some [.quoted (wordsOf text) none]
  | .span text value => some [.quoted (wordsOf text) (some value)]
  | _ => none

def scanner : Scanner Mode UInt8 Token where
  start := .between
  step := step
  finish := finish
  finish_start := rfl

/-! Reading the expression. -/

/-- The items of the innermost parentheses so far, the sign before the next item,
and the parentheses around with the sign before them. -/
structure Reading where
  items : List Item
  sign : Option Sign
  outer : List (List Item × Option Sign)

def Reading.add (reading : Reading) (item : Option Sign → Item) : Reading :=
  ⟨reading.items ++ [item reading.sign], none, reading.outer⟩

def read : Reading → Token → Option Reading
  | ⟨items, none, outer⟩, .sign s => some ⟨items, some s, outer⟩
  | reading, .word text isPrefix => some (reading.add (.word · text isPrefix))
  | reading, .quoted words span => some (reading.add (.quoted · words span))
  | ⟨items, sign, outer⟩, .opening => some ⟨[], none, (items, sign) :: outer⟩
  | ⟨items, none, (before, sign) :: outer⟩, .closing => some ⟨before ++ [.group sign items], none, outer⟩
  | _, _ => none

def readAll : Reading → List Token → Option Reading
  | reading, [] => some reading
  | reading, token :: rest => (read reading token).bind fun next => readAll next rest

def parse (text : Str) : Option (List Item) :=
  (scanner.read text).bind fun tokens =>
    match readAll ⟨[], none, []⟩ tokens with
    | some ⟨items, none, []⟩ => some items
    | _ => none

/-! Which documents an expression matches. -/

/-- Occurrences of all the words within a stretch of so many words. -/
def Within (doc : Document) (span : Nat) (words : List Str) : Prop :=
  ∃ places : List Nat, List.Forall₂ doc.holds places words ∧ places.Nodup ∧
    ∀ place ∈ places, ∀ other ∈ places, place < other + span

def Item.Matches (doc : Document) : Item → Prop
  | .word _ text isPrefix => ∃ place, if isPrefix then doc.begins place text else doc.holds place text
  | .quoted _ words none => doc.Phrase words
  | .quoted _ words (some span) => Within doc span words
  | .group _ items =>
    (∀ item ∈ items, item.sign = some .required → item.Matches doc) ∧
    (∀ item ∈ items, item.sign = some .excluded → ¬ item.Matches doc) ∧
    ((∃ item ∈ items, item.sign = some .required) ∨ ∃ item, ∃ _ : item ∈ items, item.sign = none ∧ item.Matches doc)

def Matches (doc : Document) (items : List Item) : Prop := (Item.group none items).Matches doc

/-! Texts and what is read in them. -/

def stop (char : UInt8) : Bool := char = 32 || char = 41

def Reads (text : Str) (items : List Item) : Prop :=
  ∃ tokens, scanner.Spells stop text tokens ∧
    ∀ before outer, readAll ⟨before, none, outer⟩ tokens = some ⟨before ++ items, none, outer⟩

def ReadsItem (text : Str) (item : Option Sign → Item) : Prop :=
  ∃ tokens, scanner.Spells stop text tokens ∧
    ∀ before sign outer, readAll ⟨before, sign, outer⟩ tokens = some ⟨before ++ [item sign], none, outer⟩

theorem readAll_append (reading : Reading) (front back : List Token) :
    readAll reading (front ++ back) = (readAll reading front).bind fun next => readAll next back := by
  induction front generalizing reading with
  | nil => rfl
  | cons token rest ih =>
    rw [List.cons_append, readAll, readAll]
    cases read reading token with
    | none => rfl
    | some next => exact ih next

theorem Reads.parse (reads : Reads text items) : parse text = some items := by
  obtain ⟨tokens, spelled, added⟩ := reads
  simp [BooleanMode.parse, spelled.read, added]

attribute [local simp] scanner step

theorem not_sign (plain : wordByte byte = true) : byte ∉ signs :=
  not_mem_of_wordByte plain (by simp [signs, ascii, wordByte])

theorem run_word (plain : PlainWord word) : scanner.run .between word = some ([], .word word) := by
  obtain ⟨first, rest, rfl⟩ := List.exists_cons_of_ne_nil plain.1
  obtain ⟨here, later⟩ := List.forall_mem_cons.mp plain.2
  have begun : scanner.step .between first = some ([], .word [first]) := by
    have apart (sign : UInt8) (known : wordByte sign = false) : first ≠ sign := ne_of_wordByte here known
    simp [begin_, not_sign here, apart 32 rfl, apart 34 rfl, apart 43 rfl, apart 45 rfl, apart 40 rfl, apart 41 rfl]
  have goesOn : scanner.run (.word [first]) rest = some ([], .word ([first] ++ rest)) := by
    refine Scanner.run_gathered (fun begun byte member => ?_) [first]
    have noStar : byte ≠ 42 := ne_of_wordByte (later byte member) rfl
    simp [noStar, not_sign (later byte member)]
  rw [Scanner.run_cons begun, goesOn]
  rfl

variable {words : List Str}

theorem run_quoted (plain : ∀ word ∈ words, PlainWord word) :
    scanner.run .between (ascii "\"" ++ join " " words ++ ascii "\"") = some ([], .closed (join " " words)) := by
  have inside : scanner.run (.inside []) (join " " words) = some ([], .inside ([] ++ join " " words)) := by
    refine Scanner.run_gathered (fun begun byte member => ?_) []
    have noQuote : byte ≠ 34 := by
      rcases mem_intercalate member with space | ⟨word, listed, letter⟩
      · rintro rfl
        exact absurd space (by decide)
      · exact ne_of_wordByte ((plain word listed).2 byte letter) rfl
    simp [noQuote]
  have opened : scanner.run .between (ascii "\"" ++ join " " words) = some ([], .inside (join " " words)) := by
    rw [Scanner.run_append (ascii "\"") _ (show _ = some ([], Mode.inside []) from rfl), inside]
    rfl
  rw [Scanner.run_append _ _ opened]
  rfl

theorem wordsOf_join (nonempty : words ≠ []) (plain : ∀ word ∈ words, PlainWord word) :
    wordsOf (join " " words) = words := by
  have parts : split 32 (join " " words) = words := split_intercalate_of_not_mem nonempty fun word member space =>
    ne_of_wordByte ((plain word member).2 32 space) rfl rfl
  rw [wordsOf, parts, List.filter_eq_self]
  intro word member
  simpa using (plain word member).1

theorem stop_cases (stops : stop char = true) : char = 32 ∨ char = 41 := by
  simpa [stop] using stops

theorem readsItem_word (plain : PlainWord word) : ReadsItem word (.word · word false) := by
  refine ⟨[.word word false], ?_, fun _ sign _ => by cases sign <;> rfl⟩
  refine Scanner.spells_of_open (run_word plain) rfl fun char stops => ?_
  obtain rfl | rfl := stop_cases stops <;> rfl

theorem readsItem_beginning (plain : PlainWord word) : ReadsItem (word ++ ascii "*") (.word · word true) := by
  refine ⟨[.word word true], Scanner.spells_of_run ?_ stop, fun _ sign _ => by cases sign <;> rfl⟩
  rw [show scanner.start = Mode.between from rfl, Scanner.run_append _ _ (run_word plain)]
  rfl

private theorem readsItem_words (nonempty : words ≠ []) (plain : ∀ word ∈ words, PlainWord word)
    (spelled : scanner.Spells stop text [.quoted (wordsOf (join " " words)) span]) :
    ReadsItem text (.quoted · words span) := by
  rw [wordsOf_join nonempty plain] at spelled
  exact ⟨_, spelled, fun _ sign _ => by cases sign <;> rfl⟩

theorem readsItem_quoted (nonempty : words ≠ []) (plain : ∀ word ∈ words, PlainWord word) :
    ReadsItem (ascii "\"" ++ join " " words ++ ascii "\"") (.quoted · words none) := by
  refine readsItem_words nonempty plain (Scanner.spells_of_open (run_quoted plain) rfl fun char stops => ?_)
  obtain rfl | rfl := stop_cases stops <;> rfl

private theorem run_span (plain : ∀ word ∈ words, PlainWord word) (span : Nat) :
    scanner.run .between (ascii "\"" ++ join " " words ++ ascii "\"@" ++ formatNat span) =
      some ([], .span (join " " words) span) := by
  have parsed := parseNat_formatNat span
  obtain ⟨first, rest, digits⟩ := List.exists_cons_of_ne_nil (formatNat_ne_nil span)
  rw [digits, parseNat, parseDigits] at parsed
  obtain ⟨value, read, later⟩ := Option.bind_eq_some_iff.mp parsed
  have marked : scanner.run .between (ascii "\"" ++ join " " words ++ ascii "\"@") =
    some ([], .at (join " " words)) := by
    rw [show ascii "\"@" = ascii "\"" ++ ascii "@" from rfl, ← List.append_assoc,
      Scanner.run_append _ _ (run_quoted plain)]
    rfl
  have started : scanner.step (.at (join " " words)) first = some ([], .span (join " " words) (10 * 0 + value)) := by
    simp [read]
  have number : scanner.run (.span (join " " words) (10 * 0 + value)) rest =
    some ([], .span (join " " words) span) := by
    refine Scanner.run_digits (fun value char digit read => ?_) later
    simp [read]
  rw [Scanner.run_append _ _ marked, digits, Scanner.run_cons started, number]
  rfl

theorem readsItem_span (nonempty : words ≠ []) (plain : ∀ word ∈ words, PlainWord word) (span : Nat) :
    ReadsItem (ascii "\"" ++ join " " words ++ ascii "\"@" ++ formatNat span) (.quoted · words (some span)) := by
  refine readsItem_words nonempty plain (Scanner.spells_of_open (run_span plain span) rfl fun char stops => ?_)
  obtain rfl | rfl := stop_cases stops <;> rfl

theorem ReadsItem.alone (one : ReadsItem text item) : Reads text [item none] := by
  obtain ⟨tokens, spelled, added⟩ := one
  exact ⟨tokens, spelled, fun before outer => added before none outer⟩

def signOf (negate : Bool) : Sign := if negate then .excluded else .required

theorem ReadsItem.signed (one : ReadsItem text item) (negate : Bool) :
    Reads ((if negate then ascii "-" else ascii "+") ++ text) [item (some (signOf negate))] := by
  obtain ⟨tokens, spelled, added⟩ := one
  have sign : scanner.Spells (fun _ => true) (if negate then ascii "-" else ascii "+") [.sign (signOf negate)] := by
    cases negate <;> exact Scanner.spells_of_run rfl _
  exact ⟨[.sign (signOf negate)] ++ tokens, sign.before_any spelled, fun before outer => added before _ outer⟩

theorem Reads.grouped (inner : Reads text items) : ReadsItem (ascii "(" ++ text ++ ascii ")") (.group · items) := by
  obtain ⟨tokens, spelled, added⟩ := inner
  have opening : scanner.Spells (fun _ => true) (ascii "(") [.opening] := Scanner.spells_of_run rfl _
  have closing : scanner.Spells stop (ascii ")") [.closing] := Scanner.spells_of_run rfl _
  refine ⟨[.opening] ++ tokens ++ [.closing], (opening.before_any spelled).append closing (by decide) ?_,
    fun before sign outer => ?_⟩
  · intro char first
    cases first
    rfl
  · have opened : read ⟨before, sign, outer⟩ .opening = some ⟨[], none, (before, sign) :: outer⟩ := by
      cases sign <;> rfl
    rw [List.append_assoc, List.singleton_append, readAll, opened, Option.bind_some, readAll_append, added]
    rfl

theorem Reads.append (front : Reads text items) (back : Reads more others) :
    Reads (text ++ ascii " " ++ more) (items ++ others) := by
  obtain ⟨early, spelled, added⟩ := front
  obtain ⟨late, spelledMore, addedMore⟩ := back
  have space : scanner.Spells (fun _ => true) (ascii " ") [] := Scanner.spells_of_run rfl _
  refine ⟨early ++ [] ++ late, (spelled.append space (by decide) ?_).before_any spelledMore, fun before outer => ?_⟩
  · intro char first
    cases first
    rfl
  · rw [List.append_nil, readAll_append, added, Option.bind_some, addedMore, List.append_assoc]

variable {list : List ι}

theorem Reads.joined {text : ι → Str} {item : ι → Item} (nonempty : list ≠ [])
    (all : ∀ one ∈ list, Reads (text one) [item one]) : Reads (join " " (list.map text)) (list.map item) := by
  induction list with
  | nil => exact absurd rfl nonempty
  | cons one rest ih =>
    obtain ⟨here, later⟩ := List.forall_mem_cons.mp all
    cases rest with
    | nil => simpa [join, List.intercalate] using here
    | cons next rest =>
      rw [List.map_cons, List.map_cons, join, intercalate_cons_cons]
      exact here.append (ih (by simp) later)

/-! What the texts mean. -/

def Denotes (text : Str) (meaning : Document → Prop) : Prop :=
  ∃ items, Reads text items ∧ ∀ doc, Matches doc items ↔ meaning doc

def DenotesItem (text : Str) (meaning : Document → Prop) : Prop :=
  ∃ item, ReadsItem text item ∧ (∀ sign, (item sign).sign = sign) ∧ ∀ sign doc, (item sign).Matches doc ↔ meaning doc

theorem matches_iff (doc : Document) (items : List Item) : Matches doc items ↔
    (∀ item ∈ items, item.sign = some .required → item.Matches doc) ∧
    (∀ item ∈ items, item.sign = some .excluded → ¬ item.Matches doc) ∧
    ((∃ item ∈ items, item.sign = some .required) ∨ ∃ item ∈ items, item.sign = none ∧ item.Matches doc) := by
  simp only [Matches, Item.Matches, exists_prop]

private theorem matches_group (doc : Document) (sign : Option Sign) (items : List Item) :
    (Item.group sign items).Matches doc ↔ Matches doc items := by
  simp only [Matches, Item.Matches]

theorem Denotes.grouped (denoted : Denotes text meaning) : DenotesItem (ascii "(" ++ text ++ ascii ")") meaning := by
  obtain ⟨items, reads, means⟩ := denoted
  exact ⟨_, reads.grouped, fun _ => rfl, fun sign doc => (matches_group doc sign items).trans (means doc)⟩

theorem Denotes.congr (denoted : Denotes text meaning) (same : ∀ doc, meaning doc ↔ other doc) :
    Denotes text other := by
  obtain ⟨items, reads, means⟩ := denoted
  exact ⟨items, reads, fun doc => (means doc).trans (same doc)⟩

theorem DenotesItem.congr (denoted : DenotesItem text meaning) (same : ∀ doc, meaning doc ↔ other doc) :
    DenotesItem text other := by
  obtain ⟨item, reads, signed, means⟩ := denoted
  exact ⟨item, reads, signed, fun sign doc => (means sign doc).trans (same doc)⟩

variable {meaning : ι → Document → Prop}

theorem exists_items {text : ι → Str} (all : ∀ one ∈ list, DenotesItem (text one) (meaning one)) :
    ∃ item : ι → Option Sign → Item, ∀ one ∈ list, ReadsItem (text one) (item one) ∧
      (∀ sign, (item one sign).sign = sign) ∧ ∀ sign doc, (item one sign).Matches doc ↔ meaning one doc := by
  have total : ∀ one, ∃ item : Option Sign → Item, one ∈ list → ReadsItem (text one) item ∧
      (∀ sign, (item sign).sign = sign) ∧ ∀ sign doc, (item sign).Matches doc ↔ meaning one doc := by
    intro one
    by_cases member : one ∈ list
    · obtain ⟨item, denoted⟩ := all one member
      exact ⟨item, fun _ => denoted⟩
    · exact ⟨fun sign => .group sign [], fun other => absurd other member⟩
  choose item denoted using total
  exact ⟨item, denoted⟩

theorem Denotes.alternatives {text : ι → Str} (nonempty : list ≠ [])
    (all : ∀ one ∈ list, DenotesItem (text one) (meaning one)) :
    Denotes (join " " (list.map text)) fun doc => ∃ one ∈ list, meaning one doc := by
  obtain ⟨item, denoted⟩ := exists_items all
  refine ⟨_, .joined nonempty fun one member => (denoted one member).1.alone, fun doc => ?_⟩
  rw [matches_iff, List.forall_mem_map, List.forall_mem_map]
  simp only [List.mem_map, exists_exists_and_eq_and]
  have unsigned : ∀ one ∈ list, (item one none).sign = none := fun one member => (denoted one member).2.1 none
  have means : ∀ one ∈ list, ((item one none).Matches doc ↔ meaning one doc) :=
    fun one member => (denoted one member).2.2 none doc
  constructor
  · rintro ⟨_, _, ⟨one, member, required⟩ | ⟨one, member, _, found⟩⟩
    · simp [unsigned one member] at required
    · exact ⟨one, member, (means one member).mp found⟩
  · rintro ⟨one, member, found⟩
    refine ⟨fun other listed required => ?_, fun other listed excluded => ?_,
      .inr ⟨one, member, unsigned one member, (means one member).mpr found⟩⟩
    · simp [unsigned other listed] at required
    · simp [unsigned other listed] at excluded

theorem Denotes.conjunction {text : ι → Str} {negate : ι → Bool}
    (positive : ∃ one ∈ list, negate one = false) (all : ∀ one ∈ list, DenotesItem (text one) (meaning one)) :
    Denotes (join " " (list.map fun one => (if negate one then ascii "-" else ascii "+") ++ text one)) fun doc =>
      ∀ one ∈ list, if negate one then ¬ meaning one doc else meaning one doc := by
  obtain ⟨item, denoted⟩ := exists_items all
  obtain ⟨first, present, needed⟩ := positive
  refine ⟨_, .joined (List.ne_nil_of_mem present) fun one member => (denoted one member).1.signed (negate one),
    fun doc => ?_⟩
  rw [matches_iff, List.forall_mem_map, List.forall_mem_map]
  simp only [List.mem_map, exists_exists_and_eq_and]
  have signed : ∀ one ∈ list, (item one (some (signOf (negate one)))).sign = some (signOf (negate one)) :=
    fun one member => (denoted one member).2.1 _
  have means : ∀ one ∈ list, ((item one (some (signOf (negate one)))).Matches doc ↔ meaning one doc) :=
    fun one member => (denoted one member).2.2 _ doc
  have satisfied : (∃ one ∈ list, (item one (some (signOf (negate one)))).sign = some .required) :=
    ⟨first, present, by rw [signed first present, needed]; rfl⟩
  constructor
  · rintro ⟨required, excluded, _⟩ one member
    cases sign : negate one with
    | false =>
      have found := required one member (by rw [signed one member, sign]; rfl)
      simpa using (means one member).mp found
    | true =>
      have absent := excluded one member (by rw [signed one member, sign]; rfl)
      simpa using mt (means one member).mpr absent
  · intro holds
    refine ⟨fun one member required => ?_, fun one member excluded => ?_, .inl satisfied⟩
    · have held := holds one member
      cases sign : negate one with
      | false => exact sign ▸ (means one member).mpr (by simpa [sign] using held)
      | true =>
        rw [signed one member, sign] at required
        cases required
    · have held := holds one member
      cases sign : negate one with
      | false =>
        rw [signed one member, sign] at excluded
        cases excluded
      | true => exact sign ▸ mt (means one member).mp (by simpa [sign] using held)

end Gofi.Sqln.BooleanMode
