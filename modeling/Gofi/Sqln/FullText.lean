import Gofi.Sqln.Driver

/-! Full-text search: the index definition and parsed search of `driver`, and
what PostgreSQL and MySQL render for them. A dialect binds its search strings
through the function it is given, which returns a placeholder. -/

namespace Gofi.Sqln

open Gofi.Go

/-- How much a match in a column counts, most of all in `a`. -/
inductive TextWeight where
  | a
  | b
  | c
  | d
  deriving DecidableEq

namespace TextWeight

/-- The label of `setweight`. -/
def letter : TextWeight → Str
  | .a => ascii "A"
  | .b => ascii "B"
  | .c => ascii "C"
  | .d => ascii "D"

/-- The factor of the rank, as MySQL computes it. -/
def factor : TextWeight → Str
  | .a => ascii "1.0"
  | .b => ascii "0.4"
  | .c => ascii "0.2"
  | .d => ascii "0.1"

end TextWeight

/-- A column of an index; without a weight it has the least. -/
structure TextColumn where
  name : Str
  weight : Option TextWeight

/-- `TextColumn.Effective`. -/
def TextColumn.effective (column : TextColumn) : TextWeight := column.weight.getD .d

/-- Whether PostgreSQL stores the vector or indexes an expression. -/
inductive TextStrategy where
  | storedVector
  | expressionIndex

/-- The text search configurations a definition may name. -/
def languages : List Str :=
  ["simple", "portuguese", "english", "spanish", "french", "german", "italian", "dutch", "arabic", "armenian",
    "basque",
    "catalan", "danish", "finnish", "greek", "hindi", "hungarian", "indonesian", "irish", "lithuanian", "nepali",
    "norwegian", "romanian", "russian", "serbian", "swedish", "tamil", "turkish", "yiddish"].map ascii

/-- A registered index: its names passed the check for columns. -/
structure TextIndex where
  name : Str
  table : Str
  columns : List TextColumn
  language : Str
  unaccent : Bool
  strategy : TextStrategy
  vectorColumn : Str
  minTokenSize : Nat
  columns_named : ∀ column ∈ columns, isColumnName column.name = true
  language_known : language ∈ languages
  vectorColumn_named : isColumnName vectorColumn = true

/-- `WeightGroups`: the columns by weight, when there are several weights. -/
def TextIndex.weightGroups (idx : TextIndex) : Option (List (List TextColumn)) :=
  let groups := ([.a, .b, .c, .d].map fun weight => idx.columns.filter (·.effective = weight)).filter (· ≠ [])
  if groups.length < 2 then none else some groups

/-- A word, a phrase or words near each other, with synonyms. -/
structure TextTerm where
  words : List Str
  isPrefix : Bool
  negate : Bool
  near : Nat
  synonyms : List (List Str)

/-- Terms that are all searched for. -/
abbrev TextGroup := List TextTerm

/-- Groups of which one is searched for. -/
abbrev TextQuery := List TextGroup

/-- How the text of a search is read. -/
inductive Mode where
  | websearch
  | allTerms
  | anyTerm
  | wordPrefix
  | phrase

/-- A search as the caller gives it, before it is parsed. -/
structure Search where
  index : Option TextIndex
  term : Str
  mode : Mode
  qualifier : Str

/-- What reads the text of a search for an index. -/
abbrev Parser := TextIndex → Mode → Str → Except Err TextQuery

/-- `Search.Query`: what the parser reads, or why there is nothing to search. -/
def Search.query (parse : Parser) (s : Search) : Except Err (TextIndex × TextQuery) :=
  match s.index with
  | none => .error ⟨[.invalidIndex], ascii "fts: invalid index: search without an index"⟩
  | some idx => (parse idx s.mode s.term).map fun q => (idx, q)

theorem Search.index_of_query {parse : Parser} {s : Search}
    (ok : s.query parse = .ok (idx, q)) : s.index = some idx := by
  unfold Search.query at ok
  split at ok
  · cases ok
  · rename_i found given
    cases parsed : parse found s.mode s.term with
    | error err => simp [parsed, Except.map] at ok
    | ok query =>
      simp only [parsed, Except.map, Except.ok.injEq, Prod.mk.injEq] at ok
      rw [given, ok.1]

/-- A rendering that appends to the values of the statement. -/
abbrev Binding := StateM (List Value)

/-- `strings.Join`. -/
def join (between : String) (parts : List Str) : Str := (ascii between).intercalate parts

namespace Postgres

/-- The configuration that removes accents, or that of the language. -/
def textConfig (idx : TextIndex) : Str :=
  if idx.unaccent then ascii "gofi_" ++ idx.language ++ ascii "_unaccent" else idx.language

/-- The quoted configuration. -/
def regconfig (idx : TextIndex) : Str := ascii "'" ++ textConfig idx ++ ascii "'::regconfig"

theorem not_mem_textConfig (idx : TextIndex) (other : isNameByte byte = false) : byte ∉ textConfig idx := by
  have known : ∀ language ∈ languages, language.all isNameByte = true := by decide +kernel
  have fixed : (ascii "gofi_" ++ ascii "_unaccent").all isNameByte = true := by decide
  have named := known idx.language idx.language_known
  rw [List.all_append, Bool.and_eq_true] at fixed
  have whole : (textConfig idx).all isNameByte = true := by
    unfold textConfig
    split
    · simp only [List.all_append, fixed, named, Bool.and_self]
    · exact named
  intro member
  exact absurd (List.all_eq_true.mp whole byte member) (by simp [other])

/-- A column behind the alias of its table. -/
def qualify (qualifier column : Str) : Str := if qualifier = [] then column else qualifier ++ ascii "." ++ column

/-- The vector of one column, with its label. -/
def columnVector (idx : TextIndex) (qualifier : Str) (column : TextColumn) : Str :=
  let vector := ascii "to_tsvector(" ++ regconfig idx ++ ascii ", coalesce(" ++ qualify qualifier column.name ++
    ascii ", ''))"
  match column.weight with
  | none => vector
  | some weight => ascii "setweight(" ++ vector ++ ascii ", '" ++ weight.letter ++ ascii "')"

/-- The vector of all columns. -/
def vectorExpr (idx : TextIndex) (qualifier : Str) : Str :=
  join " || " (idx.columns.map (columnVector idx qualifier))

/-- What is searched: the stored vector or the expression. -/
def document (idx : TextIndex) (qualifier : Str) : Str :=
  match idx.strategy with
  | .storedVector => qualify qualifier idx.vectorColumn
  | .expressionIndex => ascii "(" ++ vectorExpr idx qualifier ++ ascii ")"

/-- The query that a placeholder stands for. -/
def tsquery (idx : TextIndex) (param : Str) : Str :=
  ascii "to_tsquery(" ++ regconfig idx ++ ascii ", " ++ param ++ ascii ")"

/-- Words one after the other. -/
def tsPhrase (words : List Str) : Str := join " <-> " (words.map fun word => ascii "'" ++ word ++ ascii "'")

/-- The two orders of two words at each distance up to `near`. -/
def proximity (a b : Str) (near : Nat) : List Str :=
  (List.range near).flatMap fun k =>
    let distance := ascii " <" ++ formatNat (k + 1) ++ ascii "> "
    [a ++ distance ++ b, b ++ distance ++ a]

/-- A term with its synonyms, negated or not. -/
def tsTerm (t : TextTerm) : Str :=
  let (rendered, grouped) : Str × Bool :=
    match t.words with
    | [a, b] =>
      if t.near > 0 then
        (ascii "( " ++ join " | " (proximity (ascii "'" ++ a ++ ascii "'") (ascii "'" ++ b ++ ascii "'") t.near) ++
          ascii " )", true)
      else (tsPhrase t.words, false)
    | [_] =>
      if t.synonyms ≠ [] then
        (ascii "( " ++ join " | " (tsPhrase t.words :: t.synonyms.map tsPhrase) ++ ascii " )", true)
      else (if t.isPrefix then tsPhrase t.words ++ ascii ":*" else tsPhrase t.words, false)
    | _ => (tsPhrase t.words, false)
  if !t.negate then rendered
  else if t.words.length > 1 && !grouped then ascii "!(" ++ rendered ++ ascii ")"
  else ascii "!" ++ rendered

/-- `TextSearchValue`: the text in the grammar of `to_tsquery`. -/
def textSearchValue (q : TextQuery) : Option Str :=
  let groups := (q.map fun g => (g.filter (·.words ≠ [])).map tsTerm).filter (· ≠ []) |>.map (join " & ")
  match groups with
  | [] => none
  | [group] => some group
  | _ => some (ascii "( " ++ join " ) | ( " groups ++ ascii " )")

/-- `TextMatch`: the condition of the search. -/
def textMatch (idx : TextIndex) (qualifier : Str) (q : TextQuery) (bind : Value → Binding Str) :
    Binding (Option Str) :=
  match textSearchValue q with
  | none => pure none
  | some value => do
    let param ← bind (.string value)
    pure (some (document idx qualifier ++ ascii " @@ " ++ tsquery idx param))

/-- `TextRank`: what the results are ordered by. -/
def textRank (idx : TextIndex) (qualifier : Str) (q : TextQuery) (bind : Value → Binding Str) : Binding (Option Str) :=
  match textSearchValue q with
  | none => pure none
  | some value => do
    let param ← bind (.string value)
    pure (some (ascii "ts_rank_cd(" ++ document idx qualifier ++ ascii ", " ++ tsquery idx param ++ ascii ")"))

/-- How `ts_headline` marks and cuts what it found. -/
def headlineOptions : Str :=
  ascii "'StartSel=\"" ++ [238, 128, 128] ++ ascii "\", StopSel=\"" ++ [238, 128, 129] ++
    ascii "\", HighlightAll=true'"

/-- `TextHighlight`: the column with what was found marked. -/
def textHighlight (idx : TextIndex) (qualifier column : Str) (q : TextQuery) (bind : Value → Binding Str) :
    Binding (Option Str) :=
  match textSearchValue q with
  | none => pure none
  | some value => do
    let param ← bind (.string value)
    pure (some (ascii "ts_headline(" ++ regconfig idx ++ ascii ", coalesce(" ++ qualify qualifier column ++
      ascii ", ''), " ++ tsquery idx param ++ ascii ", " ++ headlineOptions ++ ascii ")"))

end Postgres

namespace MySQL

variable (lib : Library)

/-- The words that InnoDB does not index. -/
def innodbStopwords : List Str :=
  ["a", "about", "an", "are", "as", "at", "be", "by", "com", "de", "en", "for", "from", "how", "i", "in", "is", "it",
    "la", "of", "on", "or", "that", "the", "this", "to", "was", "what", "when", "where", "who", "will", "with", "und",
    "www"].map ascii

/-- A stop word of the language, without its accents. -/
def stopword (idx : TextIndex) (word : Str) : Bool := lib.stopwords idx.language (lib.foldAccents word)

/-- The index holds the word: it is long enough and no stop word. -/
def indexable (idx : TextIndex) (word : Str) : Bool :=
  lib.runeCount word ≥ idx.minTokenSize && word ∉ innodbStopwords && !stopword lib idx word

/-- A phrase of which at least one word is indexed. -/
def phrase (idx : TextIndex) : List Str → Option Str
  | [word] => if indexable lib idx word then some word else none
  | words => if words.any (indexable lib idx) then some (ascii "\"" ++ join " " words ++ ascii "\"") else none

/-- `booleanTerm`: a term in boolean mode, if it can be searched for. -/
def booleanTerm (idx : TextIndex) (t : TextTerm) : Option Str :=
  match t.words with
  | [] => none
  | [word] =>
    if t.isPrefix then if stopword lib idx word then none else some (word ++ ascii "*")
    else
      match (t.words :: t.synonyms).filterMap (phrase lib idx) with
      | [] => none
      | [alternative] => some alternative
      | alternatives => some (ascii "(" ++ join " " alternatives ++ ascii ")")
  | [first, second] =>
    if t.near > 0 ∧ indexable lib idx first ∧ indexable lib idx second then
      some (ascii "\"" ++ first ++ ascii " " ++ second ++ ascii "\"@" ++ formatNat (t.near + 1))
    else phrase lib idx t.words
  | words => phrase lib idx words

/-- A group in boolean mode, if a positive term is left. -/
def booleanGroup (idx : TextIndex) (g : TextGroup) : Option Str :=
  let terms := g.filterMap fun t => (booleanTerm lib idx t).map fun rendered =>
    (if t.negate then ascii "-" ++ rendered else ascii "+" ++ rendered, t.negate)
  if terms.any fun (_, negate) => !negate then some (join " " (terms.map Prod.fst)) else none

/-- `TextSearchValue`: the text in the grammar of boolean mode. -/
def textSearchValue (idx : TextIndex) (q : TextQuery) : Option Str :=
  match q.filterMap (booleanGroup lib idx) with
  | [] => none
  | [group] => some group
  | groups => some (ascii "(" ++ join ") (" groups ++ ascii ")")

/-- The text of the rank; an empty one finds nothing. -/
def rankValue (idx : TextIndex) (q : TextQuery) : Str :=
  join " " (q.flatMap fun g => (g.filter fun t => !t.negate).filterMap (booleanTerm lib idx))

/-- The MATCH of some columns. -/
def matchColumns (columns : List TextColumn) (qualifier param : Str) : Str :=
  ascii "MATCH(" ++ join ", " (columns.map fun column =>
    if qualifier = [] then column.name else qualifier ++ ascii "." ++ column.name) ++
  ascii ") AGAINST (" ++ param ++ ascii " IN BOOLEAN MODE)"

/-- `TextMatch`: the condition, false when nothing can be searched for. -/
def textMatch (idx : TextIndex) (qualifier : Str) (q : TextQuery) (bind : Value → Binding Str) :
    Binding (Option Str) :=
  match textSearchValue lib idx q with
  | none => pure none
  | some value => do
    let param ← bind (.string value)
    pure (some (matchColumns idx.columns qualifier param))

/-- The MATCH of one group of columns, times its factor. -/
def rankPart (qualifier value : Str) (bind : Value → Binding Str) (columns : List TextColumn) : Binding Str := do
  let param ← bind (.string value)
  pure (matchColumns columns qualifier param ++ ascii " * " ++
    ((columns.head?.map TextColumn.effective).getD .d).factor)

/-- `TextRank`: the sum over the groups, or one MATCH. -/
def textRank (idx : TextIndex) (qualifier : Str) (q : TextQuery) (bind : Value → Binding Str) : Binding (Option Str) :=
  match textSearchValue lib idx q with
  | none => pure none
  | some value =>
    match idx.weightGroups with
    | none => do
      let param ← bind (.string value)
      pure (some (matchColumns idx.columns qualifier param))
    | some groups => do
      let parts ← groups.mapM (rankPart qualifier (rankValue lib idx q) bind)
      pure (some (ascii "(" ++ join " + " parts ++ ascii ")"))

/-- What a word is looked for with in a text. -/
def highlightAlternative (idx : TextIndex) (word : Str) (isPrefix : Bool) : Option Str :=
  if isPrefix then
    if stopword lib idx word then none
      else some (lib.accentClasses word ++ ascii "[\\p\x7bL\x7d\\p\x7bN\x7d\\p\x7bM\x7d]*")
  else if indexable lib idx word then
    some (lib.accentClasses word ++ ascii "(?![\\p\x7bL\x7d\\p\x7bN\x7d\\p\x7bM\x7d])")
  else none

/-- The words of all terms that are not negated. -/
def highlightAlternatives (idx : TextIndex) (q : TextQuery) : List Str :=
  let found := q.flatMap fun g => (g.filter fun t => !t.negate).flatMap fun t =>
    (t.words :: t.synonyms).flatMap fun words =>
      words.filterMap fun word => highlightAlternative lib idx word (t.isPrefix && t.words.length = 1)
  found.foldl (fun seen alternative => if alternative ∈ seen then seen else seen ++ [alternative]) []

/-- `TextHighlight`: a regular expression marks the words. -/
def textHighlight (idx : TextIndex) (qualifier column : Str) (q : TextQuery) (bind : Value → Binding Str) :
    Binding (Option Str) :=
  let col := if qualifier = [] then column else qualifier ++ ascii "." ++ column
  match highlightAlternatives lib idx q with
  | [] => pure (some (ascii "COALESCE(" ++ col ++ ascii ", '')"))
  | alternatives => do
    let pattern ← bind
      (.string (ascii "(?<![\\p\x7bL\x7d\\p\x7bN\x7d\\p\x7bM\x7d])(?:" ++ join "|" alternatives ++ ascii ")"))
    let replacement ← bind (.string ([238, 128, 128] ++ ascii "$0" ++ [238, 128, 129]))
    pure (some (ascii "REGEXP_REPLACE(COALESCE(" ++ col ++ ascii ", ''), " ++ pattern ++ ascii ", " ++ replacement ++
      ascii ", 1, 0, 'i')"))

end MySQL

end Gofi.Sqln
