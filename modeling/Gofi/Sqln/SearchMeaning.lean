import Gofi.Sqln.Search

/-! What a parsed search means: which documents it matches. How a database
normalises and compares words is its own business; a document says where the
words of a search occur in it. -/

namespace Gofi.Sqln

open Gofi.Go

structure Document where
  /-- The word at a position. -/
  holds : Nat → Str → Prop
  /-- The word at a position begins so. -/
  begins : Nat → Str → Prop

namespace Document

variable (doc : Document)

def PhraseFrom : Nat → List Str → Prop
  | _, [] => True
  | start, word :: rest => doc.holds start word ∧ PhraseFrom (start + 1) rest

def Phrase (words : List Str) : Prop := ∃ start, doc.PhraseFrom start words

def Near (near : Nat) (first second : Str) : Prop :=
  ∃ place other, doc.holds place first ∧ doc.holds other second ∧ place ≠ other ∧ place ≤ other + near ∧
    other ≤ place + near

end Document

def TextTerm.Occurs (doc : Document) (t : TextTerm) : Prop :=
  if t.isPrefix then ∃ word ∈ t.words, ∃ place, doc.begins place word
  else if 0 < t.near then ∃ first second, t.words = [first, second] ∧ doc.Near t.near first second
  else ∃ alternative ∈ t.words :: t.synonyms, doc.Phrase alternative

def TextTerm.Holds (doc : Document) (t : TextTerm) : Prop := if t.negate then ¬ t.Occurs doc else t.Occurs doc

def TextQuery.Matches (doc : Document) (q : TextQuery) : Prop := ∃ g ∈ q, ∀ t ∈ g, t.Holds doc

def TextQuery.allWords (q : TextQuery) : List Str := q.flatten.flatMap fun t => (t.words :: t.synonyms).flatten

def wordByte (byte : UInt8) : Bool :=
  128 ≤ byte.toNat || 48 ≤ byte.toNat && byte.toNat ≤ 57 || 65 ≤ byte.toNat && byte.toNat ≤ 90 ||
    97 ≤ byte.toNat && byte.toNat ≤ 122

theorem ne_of_wordByte (plain : wordByte byte = true) (sign : wordByte char = false) : byte ≠ char := by
  rintro rfl
  rw [plain] at sign
  cases sign

theorem not_mem_of_wordByte {signs : List UInt8} (plain : wordByte byte = true)
    (known : ∀ sign ∈ signs, wordByte sign = false) : byte ∉ signs :=
  fun member => ne_of_wordByte plain (known byte member) rfl

def PlainWord (word : Str) : Prop := word ≠ [] ∧ ∀ byte ∈ word, wordByte byte = true

namespace Unicode

/-- What UTF-8 and the Unicode tables say of ASCII: such a byte is always its own
rune, and only letters and digits are word runes. -/
structure Utf8 (u : Unicode) : Prop where
  runes_nil : u.runes [] = []
  own_rune : ∀ (text : Str), ∀ byte ∈ text, byte.toNat < 128 → byte.toNat ∈ u.runes text
  word_rune : ∀ byte : UInt8, byte.toNat < 128 → u.isWordRune byte.toNat = true → wordByte byte = true

variable {u : Unicode}

theorem Utf8.plain (utf8 : u.Utf8) (safe : u.IsWord word) : PlainWord word := by
  refine ⟨?_, fun byte member => ?_⟩
  · rintro rfl
    exact safe.nonempty utf8.runes_nil
  · by_cases single : byte.toNat < 128
    · exact utf8.word_rune byte single (safe.letters _ (utf8.own_rune word byte member single))
    · simp [wordByte, Nat.not_lt.mp single]

theorem bare_readToken (found : (u.readToken negate first text).1 = .term t) : t.synonyms = [] := by
  simp only [readToken, readPhrase, readWord] at found
  split at found
  · split at found <;> cases found
    rfl
  split at found
  · split at found <;> cases found
    rfl
  · cases found

private theorem bare_next (found : (u.next previous first text).1 = .term t) : t.synonyms = [] := by
  unfold next at found
  split at found
  · split at found
    · cases found
    · exact bare_readToken found
  · exact bare_readToken found

private theorem bare_parse (text : List Rune) (mode : Mode) : ∀ g ∈ u.parse text mode, ∀ t ∈ g, t.synonyms = [] := by
  intro g member t inside
  cases mode with
  | websearch =>
    exact terms_scan (fun _ _ _ _ => bare_next) none text (by simp) (by simp) g
      (List.mem_of_mem_filter member) t inside
  | allTerms | wordPrefix =>
    rw [parse, keepPositive] at member
    obtain rfl := List.mem_singleton.mp (List.mem_of_mem_filter member)
    obtain ⟨word, _, rfl⟩ := List.mem_map.mp inside
    rfl
  | anyTerm =>
    obtain ⟨word, _, rfl⟩ := List.mem_map.mp member
    obtain rfl := List.mem_singleton.mp inside
    rfl
  | phrase =>
    rw [parse] at member
    split at member
    · cases member
    · obtain rfl := List.mem_singleton.mp member
      obtain rfl := List.mem_singleton.mp inside
      rfl

private theorem bare_expandTerm (bare : t.synonyms = []) : (expandTerm m t).isPrefix = true →
    (expandTerm m t).synonyms = [] := by
  fun_cases expandTerm m t with
  | case1 word single begins => exact fun _ => bare
  | case2 word single whole => exact fun begins => absurd begins whole
  | case3 => exact fun _ => bare

theorem bare_query (ok : u.query m mode text = .ok q) : ∀ g ∈ q, ∀ t ∈ g, t.isPrefix = true → t.synonyms = [] := by
  simp only [query] at ok
  split at ok
  · cases ok
  split at ok
  · cases ok
  split at ok
  · cases ok
  cases ok
  intro g member t inside
  obtain ⟨group, listed, rfl⟩ := List.mem_map.mp member
  obtain ⟨old, held, rfl⟩ := List.mem_map.mp inside
  exact bare_expandTerm (bare_parse _ mode group listed old held)

end Unicode

theorem intercalate_enclosed (opening between closing : Str) (parts : List Str) (nonempty : parts ≠ []) :
    opening ++ (closing ++ between ++ opening).intercalate parts ++ closing =
      between.intercalate (parts.map fun part => opening ++ part ++ closing) := by
  induction parts with
  | nil => exact absurd rfl nonempty
  | cons part rest ih =>
    cases rest with
    | nil => simp [List.intercalate]
    | cons next rest =>
      have later := ih (by simp)
      rw [List.map_cons] at later
      rw [List.map_cons, List.map_cons, intercalate_cons_cons, intercalate_cons_cons, ← later]
      simp

structure PlainTerm (t : TextTerm) : Prop where
  nonempty : t.words ≠ []
  words : ∀ word ∈ t.words, PlainWord word
  synonyms : ∀ alternative ∈ t.synonyms, alternative ≠ [] ∧ ∀ word ∈ alternative, PlainWord word
  single : t.isPrefix = true ∨ t.synonyms ≠ [] → t.words.length = 1
  pair : 0 < t.near → t.words.length = 2
  close : t.near ≤ maxNear
  bare : t.isPrefix = true → t.synonyms = []

theorem plain_query {u : Unicode} (utf8 : u.Utf8) (synonyms : u.SafeSynonyms m) (ok : u.query m mode text = .ok q) :
    ∀ g ∈ q, ∀ t ∈ g, PlainTerm t := by
  intro g member t inside
  have safe := (Unicode.safe_query synonyms ok).terms g member t inside
  exact {
    nonempty := safe.nonempty
    words := fun word listed => utf8.plain (safe.words word listed)
    synonyms := fun alternative listed =>
      ⟨(safe.synonyms alternative listed).1, fun word held =>
        utf8.plain ((safe.synonyms alternative listed).2 word held)⟩
    single := safe.single
    pair := safe.pair
    close := safe.close
    bare := Unicode.bare_query ok g member t inside }

end Gofi.Sqln
