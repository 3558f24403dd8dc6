import Gofi.Go.Split
import Gofi.Sqln.FullText

/-! `mysql.TextIndexDDL`: the FULLTEXT indexes that are created for a definition, and
the lists of columns that its searches look into, both read off the texts. -/

namespace Gofi.Sqln

open Gofi.Go

/-- The bytes of unquoted names, and the dot between a schema and a table. -/
def isPlainByte (byte : UInt8) : Bool := isLetter byte || isDigit byte || byte = 95 || byte = 46

/-- `tableRe`: a name, or a schema and a name. -/
def isTableName (text : Str) : Bool :=
  match cut 46 text with
  | none => isColumnName text
  | some (schema, table) => isColumnName schema && isColumnName table

/-- `nameRe`: a name in lower case. -/
def isIndexName (text : Str) : Bool :=
  isColumnName text && text.all (fun byte => !(65 ≤ byte && byte ≤ 90)) && text.length ≤ 59

/-- A definition that `NewIndex` accepts. -/
structure IndexDefinition extends TextIndex where
  concurrently : Bool
  suggest : Bool
  expression : concurrently = true → strategy = .expressionIndex
  indexed : columns ≠ []
  name_plain : isIndexName name = true
  table_plain : isTableName table = true

/-- One migration step: its statements, and whether it has to run by itself. -/
structure TextStep where
  up : List Str
  down : List Str
  isolated : Bool

/-- The lexicon stands in the schema of the table. -/
def TextIndex.lexiconTable (idx : TextIndex) : Str :=
  (idx.table.reverse.dropWhile (· ≠ 46)).reverse ++ idx.name ++ ascii "_lex"

namespace Plain

/-- A text of letters, digits, underscores and points. -/
def Only (text : Str) : Prop := ∀ byte ∈ text, isPlainByte byte = true

theorem Only.of_all (plain : text.all isPlainByte = true) : Only text := List.all_eq_true.mp plain

theorem Only.not_mem (plain : Only text) (other : isPlainByte byte = false) : byte ∉ text := by
  intro member
  rw [plain byte member] at other
  cases other

theorem Only.append (first : Only text) (second : Only more) : Only (text ++ more) := by
  intro byte member
  rcases List.mem_append.mp member with before | after
  · exact first byte before
  · exact second byte after

theorem of_columnName (named : isColumnName text = true) : Only text ∧ 46 ∉ text := by
  have letters : ∀ byte ∈ text, isLetter byte || isDigit byte || decide (byte = 95) := by
    unfold isColumnName at named
    split at named
    · cases named
    · simp only [Bool.and_eq_true, Bool.or_eq_true, List.all_eq_true] at named
      intro byte member
      rcases List.mem_cons.mp member with rfl | later
      · grind
      · have := named.1.2 byte later
        grind
  refine ⟨fun byte member => ?_, fun dot => ?_⟩
  · have := letters byte member
    grind [isPlainByte]
  · exact absurd (letters 46 dot) (by decide)

theorem of_tableName (named : isTableName text = true) : Only text := by
  unfold isTableName at named
  split at named
  · exact (of_columnName named).1
  · rename_i schema table found
    obtain ⟨rfl, -⟩ := cut_eq_some found
    rw [Bool.and_eq_true] at named
    have dot : Only [46] := .of_all rfl
    simpa using (of_columnName named.1).1.append (dot.append (of_columnName named.2).1)

end Plain

section Plain

variable (idx : IndexDefinition)

theorem IndexDefinition.name_only : Plain.Only idx.name := by
  have named := idx.name_plain
  unfold isIndexName at named
  rw [Bool.and_eq_true, Bool.and_eq_true] at named
  exact (Plain.of_columnName named.1.1).1

theorem IndexDefinition.table_only : Plain.Only idx.table := Plain.of_tableName idx.table_plain

theorem IndexDefinition.lexiconTable_only : Plain.Only idx.lexiconTable := by
  have suffix : Plain.Only (ascii "_lex") := .of_all rfl
  refine Plain.Only.append (Plain.Only.append (fun byte member => ?_) idx.name_only) suffix
  exact idx.table_only byte (List.mem_reverse.mp ((List.dropWhile_suffix _).subset (List.mem_reverse.mp member)))

end Plain

namespace MySQL

/-- The weight of a group of columns. -/
def weightOf (columns : List TextColumn) : TextWeight := (columns.head?.map TextColumn.effective).getD .d

/-- What the name of the index of a group ends with. -/
def groupSuffix (weight : TextWeight) : Str := ascii "_w" ++ weight.letter.map (· + 32)

/-- The name of the index of a group. -/
def groupIndexName (idx : TextIndex) (weight : TextWeight) : Str := idx.name ++ groupSuffix weight

/-- The columns, separated by commas. -/
def columnList (columns : List TextColumn) : Str := join ", " (columns.map TextColumn.name)

/-- MySQL builds no index concurrently. -/
def errConcurrentIndex : Err := ⟨[], ascii
  "mysql: a FULLTEXT index cannot be added without blocking writes; schedule the migration or drop Concurrently"⟩

/-- `strings.ReplaceAll` of a quote by two. -/
def doubled (comment : Str) : Str := comment.flatMap fun byte => if byte = 39 then [39, 39] else [byte]

/-- The statement that adds an index. -/
def addIndex (table name : Str) (columns : List TextColumn) : Str :=
  ascii "ALTER TABLE " ++ table ++ ascii " ADD FULLTEXT INDEX " ++ name ++ ascii " (" ++ columnList columns ++
    ascii ")"

/-- The statement that drops it. -/
def dropIndex (table name : Str) : Str := ascii "ALTER TABLE " ++ table ++ ascii " DROP INDEX " ++ name

/-- The statement that creates the table of terms. -/
def createLexicon (table index : Str) : Str :=
  ascii "CREATE TABLE " ++ table ++
    ascii " (term VARCHAR(64) PRIMARY KEY, word VARCHAR(64) NOT NULL, ndoc INT NOT NULL, FULLTEXT INDEX " ++ index ++
    ascii " (term) WITH PARSER ngram) DEFAULT CHARSET utf8mb4 COLLATE utf8mb4_0900_ai_ci"

/-- The statement that drops a table. -/
def dropTable (table : Str) : Str := ascii "DROP TABLE IF EXISTS " ++ table

/-- The comment of an index, if there is one. -/
def commentClause (comment : Str) : Str :=
  if comment = [] then [] else ascii " COMMENT '" ++ doubled comment ++ ascii "'"

/-- InnoDB builds one FULLTEXT index per statement: one for all columns, then one per weight. -/
def textIndexDDL (idx : IndexDefinition) (comment : Str) : Except Err (List TextStep) :=
  if idx.concurrently then .error errConcurrentIndex
  else
    let main := addIndex idx.table idx.name idx.columns ++ commentClause comment
    let groups := idx.weightGroups.getD []
    let nameOf (columns : List TextColumn) := groupIndexName idx.toTextIndex (weightOf columns)
    .ok (⟨main :: groups.map fun columns => addIndex idx.table (nameOf columns) columns,
        groups.map (fun columns => dropIndex idx.table (nameOf columns)) ++ [dropIndex idx.table idx.name], false⟩ ::
      if idx.suggest then
        [⟨[createLexicon idx.lexiconTable (idx.name ++ ascii "_lexg")], [dropTable idx.lexiconTable], false⟩]
      else [])

/-! ## Reading the texts -/

/-- A column at the end of a word: without what opens the list, its qualifier and the punctuation. -/
def columnOf (word : Str) : Str :=
  (word.reverse.takeWhile fun byte => byte ≠ 40 ∧ byte ≠ 46).reverse.filter fun byte => byte ≠ 41 ∧ byte ≠ 44

/-- The columns of a list that starts with the first word, up to its closing parenthesis. -/
def listed : List Str → List Str
  | [] => []
  | word :: rest => columnOf word :: if 41 ∈ word then [] else listed rest

/-- Whether a word opens the list of a MATCH. -/
def opensMatch (word : Str) : Bool := word.take 6 = ascii "MATCH(" ∨ word.take 7 = ascii "(MATCH("

/-- The lists of columns of the MATCHes in some words. -/
def matchLists : List Str → List (List Str)
  | [] => []
  | word :: rest => if opensMatch word then listed (word :: rest) :: matchLists rest else matchLists rest

/-- The lists of columns that the MATCHes of an expression look into. -/
def searched (expr : Str) : List (List Str) := matchLists (split 32 expr)

/-- The name and the columns of a FULLTEXT index in a statement. -/
def indexIn : List Str → Option (Str × List Str)
  | first :: second :: name :: rest =>
    if first = ascii "FULLTEXT" ∧ second = ascii "INDEX" then some (name, listed rest)
      else indexIn (second :: name :: rest)
  | _ => none

/-- An index: its table, its name and its columns. -/
structure FullTextIndex where
  table : Str
  name : Str
  columns : List Str
  deriving DecidableEq

/-- The FULLTEXT index that a statement creates: its table is the third word. -/
def fullTextIndex (statement : Str) : Option FullTextIndex :=
  (indexIn (split 32 statement)).map fun (name, columns) => ⟨(split 32 statement).getD 2 [], name, columns⟩

/-- What a statement creates or drops: a table, or an index of a table. -/
inductive Object where
  | table (name : Str)
  | index (table name : Str)
  deriving DecidableEq

/-- The object a statement names behind one of two beginnings. -/
def objectIn (alter table : List String) (place : Nat) (words : List Str) : Option Object :=
  if alter.map ascii <+: words.eraseIdx 2 then some (.index (words.getD 2 []) (words.getD (alter.length + 1) []))
  else if table.map ascii <+: words then some (.table (words.getD place []))
  else none

/-- What a statement creates. -/
def created (statement : Str) : Option Object :=
  objectIn ["ALTER", "TABLE", "ADD", "FULLTEXT", "INDEX"] ["CREATE", "TABLE"] 2 (split 32 statement)

/-- What a statement drops. -/
def dropped (statement : Str) : Option Object :=
  objectIn ["ALTER", "TABLE", "DROP", "INDEX"] ["DROP", "TABLE", "IF", "EXISTS"] 4 (split 32 statement)

/-! ## What the rendered texts read as -/

/-- The words of a list of columns and what stands directly before it. -/
def listWords (front : Str) : List Str → List Str
  | [] => [front ++ [41]]
  | [name] => [front ++ name ++ [41]]
  | name :: rest => (front ++ name ++ [44]) :: listWords [] rest

private theorem listWords_ne_nil (front : Str) (names : List Str) : listWords front names ≠ [] := by
  fun_cases listWords front names <;> simp

private theorem intercalate_listWords (front : Str) (names : List Str) :
    [32].intercalate (listWords front names) = front ++ join ", " names ++ [41] := by
  fun_induction listWords front names with
  | case1 => simp [join, List.intercalate]
  | case2 => simp [join, List.intercalate]
  | case3 front name rest more ih =>
    obtain ⟨second, others, rfl⟩ := List.exists_cons_of_ne_nil fun none => more none
    rw [intercalate_cons _ (listWords_ne_nil _ _), ih]
    simp [join, ascii]

private theorem columnOf_word {front name : Str} (opened : ∀ byte ∈ front.getLast?, byte = 40 ∨ byte = 46)
    (plain : Plain.Only name) (undotted : 46 ∉ name) (mark : byte = 41 ∨ byte = 44) :
    columnOf (front ++ name ++ [byte]) = name := by
  have kept : ∀ byte ∈ name, (byte ≠ 40 ∧ byte ≠ 46) ∧ byte ≠ 41 ∧ byte ≠ 44 := by
    intro byte member
    refine ⟨⟨?_, ?_⟩, ?_, ?_⟩ <;> rintro rfl
    · exact plain.not_mem (by decide) member
    · exact undotted member
    · exact plain.not_mem (by decide) member
    · exact plain.not_mem (by decide) member
  have inside : ∀ one ∈ byte :: name.reverse, decide (one ≠ 40 ∧ one ≠ 46) = true := by
    intro one member
    rcases List.mem_cons.mp member with rfl | within
    · rcases mark with rfl | rfl <;> decide
    · exact decide_eq_true (kept one (List.mem_reverse.mp within)).1
  have ends : front.reverse.takeWhile (fun byte => byte ≠ 40 ∧ byte ≠ 46) = [] := by
    cases ending : front.reverse with
    | nil => rfl
    | cons last rest =>
      have closes := opened last (by rw [← List.head?_reverse, ending]; rfl)
      exact List.takeWhile_cons_of_neg (by rcases closes with rfl | rfl <;> decide)
  have reversed : (front ++ name ++ [byte]).reverse = byte :: name.reverse ++ front.reverse := by simp
  rw [columnOf, reversed, List.takeWhile_append_of_pos inside, ends, List.append_nil, List.reverse_cons,
    List.reverse_reverse, List.filter_append, List.filter_eq_self.mpr fun byte member =>
      decide_eq_true (kept byte member).2]
  rcases mark with rfl | rfl <;> simp

/-- What a qualifier puts before a column. -/
def dotted (qualifier : Str) : Str := if qualifier = [] then [] else qualifier ++ [46]

private theorem dotted_opened (qualifier : Str) : ∀ byte ∈ (dotted qualifier).getLast?, byte = 40 ∨ byte = 46 := by
  unfold dotted
  split <;> simp

private theorem dotted_only (plain : Plain.Only qualifier) : Plain.Only (dotted qualifier) := by
  unfold dotted
  split
  · simp [Plain.Only]
  · exact plain.append (.of_all rfl)

/-- What may stand directly before a list of columns. -/
structure Opens (front : Str) : Prop where
  spaceless : 32 ∉ front
  unclosed : 41 ∉ front
  last : ∀ byte ∈ front.getLast?, byte = 40 ∨ byte = 46

theorem listed_listWords (plain : ∀ name ∈ names, Plain.Only name ∧ 46 ∉ name) (qualified : Plain.Only qualifier)
    (opens : Opens front) (some_ : names ≠ []) (more : List Str) :
    listed (listWords front (names.map (dotted qualifier ++ ·)) ++ more) = names := by
  have before {front : Str} (opens : Opens front) :
      ∀ byte ∈ (front ++ dotted qualifier).getLast?, byte = 40 ∨ byte = 46 := by
    intro byte last
    rw [List.getLast?_append] at last
    cases ending : (dotted qualifier).getLast? with
    | none => exact opens.last byte (by simpa [ending] using last)
    | some other => exact dotted_opened qualifier byte (by simpa [ending] using last)
  induction names generalizing front with
  | nil => exact absurd rfl some_
  | cons name rest ih =>
    obtain ⟨named, undotted⟩ := plain name (List.mem_cons_self ..)
    cases rest with
    | nil =>
      simp only [List.map_cons, List.map_nil, listWords, List.singleton_append, listed, ← List.append_assoc]
      rw [columnOf_word (before opens) named undotted (.inl rfl), if_pos (by simp)]
    | cons second rest =>
      have open_ : 41 ∉ front ++ (dotted qualifier ++ name) ++ [44] := by
        simpa using ⟨opens.unclosed, (dotted_only qualified).not_mem (by decide), named.not_mem (by decide)⟩
      have blank : Opens [] := ⟨by simp, by simp, by simp⟩
      have later := ih (fun name member => plain name (List.mem_cons_of_mem _ member)) blank (by simp)
      simp only [List.map_cons, listWords, List.cons_append, listed, if_neg open_]
      rw [← List.append_assoc, columnOf_word (before opens) named undotted (.inr rfl)]
      exact congrArg _ later

private theorem not_mem_listWords {byte : UInt8} (other : byte ≠ 41 ∧ byte ≠ 44) (absent : ∀ name ∈ names, byte ∉ name)
    (opens : byte ∉ front) : ∀ word ∈ listWords front names, byte ∉ word := by
  fun_induction listWords front names with
  | case1 => simpa using ⟨opens, other.1⟩
  | case2 front name => simpa using ⟨opens, absent name (List.mem_cons_self ..), other.1⟩
  | case3 front name rest more ih =>
    intro word member
    rcases List.mem_cons.mp member with rfl | later
    · simpa using ⟨opens, absent name (List.mem_cons_self ..), other.2⟩
    · exact ih (fun name member => absent name (List.mem_cons_of_mem _ member)) (by simp) word later

/-- The words of a text that some words start and a list of columns ends. -/
private theorem split_listed (words : List Str) (plain : ∀ word ∈ words, 32 ∉ word)
    (spaceless : ∀ name ∈ names, 32 ∉ name)
    (opens : 32 ∉ front) :
    split 32 ([32].intercalate (words ++ listWords front names)) = words ++ listWords front names := by
  refine split_intercalate_of_not_mem (by simp [listWords_ne_nil]) fun word member => ?_
  rcases List.mem_append.mp member with first | second
  · exact plain word first
  · exact not_mem_listWords (by decide) spaceless opens word second

private theorem plain_columns {columns : List TextColumn}
    (named : ∀ column ∈ columns, isColumnName column.name = true) :
    ∀ name ∈ columns.map TextColumn.name, Plain.Only name ∧ 46 ∉ name := by
  intro name member
  obtain ⟨column, listed, rfl⟩ := List.mem_map.mp member
  exact Plain.of_columnName (named column listed)

/-- The words of the lexicon's columns, and those after the name of its index. -/
def lexiconColumns : List String :=
  ["(term", "VARCHAR(64)", "PRIMARY", "KEY,", "word", "VARCHAR(64)", "NOT", "NULL,", "ndoc", "INT", "NOT", "NULL,"]

/-- The words behind the columns of the table of terms. -/
def lexiconOptions : List String :=
  ["(term)", "WITH", "PARSER", "ngram)", "DEFAULT", "CHARSET", "utf8mb4", "COLLATE", "utf8mb4_0900_ai_ci"]

section Statements

variable {table name : Str} (tables : 32 ∉ table) (names : 32 ∉ name)
include tables

private theorem dropTable_words : split 32 (dropTable table) =
    [ascii "DROP", ascii "TABLE", ascii "IF", ascii "EXISTS", table] := by
  have text : dropTable table = [32].intercalate [ascii "DROP", ascii "TABLE", ascii "IF", ascii "EXISTS", table] := by
    simp [dropTable, List.intercalate, ascii]
  rw [text]
  exact split_intercalate_of_not_mem (by simp) (by simp [ascii, tables])

include names

private theorem dropIndex_words : split 32 (dropIndex table name) =
    [ascii "ALTER", ascii "TABLE", table, ascii "DROP", ascii "INDEX", name] := by
  have text : dropIndex table name =
      [32].intercalate [ascii "ALTER", ascii "TABLE", table, ascii "DROP", ascii "INDEX", name] := by
    simp [dropIndex, List.intercalate, ascii]
  rw [text]
  exact split_intercalate_of_not_mem (by simp) (by simp [ascii, tables, names])

private theorem createLexicon_words : split 32 (createLexicon table name) = ascii "CREATE" :: ascii "TABLE" :: table ::
    (lexiconColumns.map ascii ++ ascii "FULLTEXT" :: ascii "INDEX" :: name :: lexiconOptions.map ascii) := by
  have text : createLexicon table name = [32].intercalate (ascii "CREATE" :: ascii "TABLE" :: table ::
      (lexiconColumns.map ascii ++ ascii "FULLTEXT" :: ascii "INDEX" :: name :: lexiconOptions.map ascii)) := by
    simp [createLexicon, List.intercalate, lexiconColumns, lexiconOptions, ascii]
  have spaceless : ∀ word ∈ lexiconColumns ++ lexiconOptions, 32 ∉ ascii word := by decide
  rw [text]
  refine split_intercalate_of_not_mem (by simp) ?_
  simp only [List.mem_append, or_imp, forall_and] at spaceless
  simpa [or_imp, forall_and, tables, names, spaceless] using by decide

private theorem addIndex_words {columns : List TextColumn}
    (named : ∀ column ∈ columns, isColumnName column.name = true)
    (comment : Str) : ∃ more, split 32 (addIndex table name columns ++ commentClause comment) =
      ascii "ALTER" :: ascii "TABLE" :: table :: ascii "ADD" :: ascii "FULLTEXT" :: ascii "INDEX" :: name ::
        (listWords [40] (columns.map TextColumn.name) ++ more) := by
  have text : addIndex table name columns = [32].intercalate ([ascii "ALTER", ascii "TABLE", table, ascii "ADD",
      ascii "FULLTEXT", ascii "INDEX", name] ++ listWords [40] (columns.map TextColumn.name)) := by
    rw [intercalate_append (by simp) (listWords_ne_nil _ _), intercalate_listWords]
    simp [addIndex, columnList, List.intercalate, ascii]
  have words := split_listed [ascii "ALTER", ascii "TABLE", table, ascii "ADD", ascii "FULLTEXT", ascii "INDEX", name]
    (by simp [ascii, tables, names])
    (fun name member => ((plain_columns named) name member).1.not_mem (by decide)) (by decide : 32 ∉ ([40] : Str))
  rw [← text] at words
  unfold commentClause
  split
  · exact ⟨[], by simpa using words⟩
  · refine ⟨split 32 (ascii "COMMENT '" ++ doubled comment ++ ascii "'"), ?_⟩
    rw [show ascii " COMMENT '" = 32 :: ascii "COMMENT '" from rfl, List.cons_append, List.cons_append, split_append,
      words]
    simp

private theorem created_lexicon : created (createLexicon table name) = some (.table table) := by
  rw [created, createLexicon_words tables names, objectIn, if_neg (by simp [ascii]), if_pos ⟨_, rfl⟩]
  rfl

private theorem created_index {columns : List TextColumn} (named : ∀ column ∈ columns, isColumnName column.name = true)
    (comment : Str) : created (addIndex table name columns ++ commentClause comment) = some (.index table name) := by
  obtain ⟨more, words⟩ := addIndex_words tables names named comment
  rw [created, words, objectIn, if_pos ⟨_, rfl⟩]
  rfl

private theorem dropped_index : dropped (dropIndex table name) = some (.index table name) := by
  rw [dropped, dropIndex_words tables names, objectIn, if_pos ⟨_, rfl⟩]
  rfl

omit names in
private theorem dropped_table : dropped (dropTable table) = some (.table table) := by
  rw [dropped, dropTable_words tables, objectIn, if_neg (by simp [ascii]), if_pos ⟨_, rfl⟩]
  rfl

omit tables names in
private theorem indexIn_cons (other : first ≠ ascii "FULLTEXT" ∨ second ≠ ascii "INDEX") (rest : List Str) :
    indexIn (first :: second :: rest) = indexIn (second :: rest) := by
  cases rest with
  | nil => rfl
  | cons name rest => rw [indexIn, if_neg (by tauto)]

private theorem fullTextIndex_lexicon :
    fullTextIndex (createLexicon table name) = some ⟨table, name, [ascii "term"]⟩ := by
  rw [fullTextIndex, createLexicon_words tables names, indexIn_cons (.inl (by decide)),
    indexIn_cons (.inl (by decide)),
    lexiconColumns, List.map_cons, List.cons_append, indexIn_cons (.inr (by decide))]
  rfl

private theorem fullTextIndex_index {columns : List TextColumn} (some_ : columns ≠ [])
    (named : ∀ column ∈ columns, isColumnName column.name = true) (comment : Str) :
    fullTextIndex (addIndex table name columns ++ commentClause comment) =
      some ⟨table, name, columns.map TextColumn.name⟩ := by
  obtain ⟨more, words⟩ := addIndex_words tables names named comment
  have unqualified : Plain.Only [] := by simp [Plain.Only]
  have bracket : Opens [40] := ⟨by decide, by decide, by simp⟩
  have read := listed_listWords (plain_columns named) unqualified bracket (by simpa using some_) more
  rw [fullTextIndex, words, indexIn_cons (.inl (by decide)), indexIn_cons (.inl (by decide)),
    indexIn_cons (.inr (by decide)),
    indexIn_cons (.inl (by decide)), indexIn, if_pos ⟨rfl, rfl⟩]
  simp only [dotted, ↓reduceIte, List.nil_append, List.map_id'] at read
  rw [read]
  rfl

end Statements

section Matches

variable {qualifier : Str} (qualified : Plain.Only qualifier)

/-- The dialect's placeholder. -/
def Marks (bind : Value → Binding Str) : Prop := ∀ v params, ((bind v).run params).1 = ascii "?"

/-- The words behind the columns of a MATCH. -/
def againstWords : List Str := ["AGAINST", "(?", "IN", "BOOLEAN", "MODE)"].map ascii

private theorem opensMatch_mem (opens : opensMatch word = true) : 40 ∈ word := by
  have parens : 40 ∈ ascii "MATCH(" ∧ 40 ∈ ascii "(MATCH(" := by decide
  rcases of_decide_eq_true opens with six | seven
  · exact List.mem_of_mem_take (six ▸ parens.1)
  · exact List.mem_of_mem_take (seven ▸ parens.2)

private theorem matchLists_skip (words more : List Str) (none_ : ∀ word ∈ words, opensMatch word = false) :
    matchLists (words ++ more) = matchLists more := by
  induction words with
  | nil => rfl
  | cons word rest ih =>
    rw [List.cons_append, matchLists, none_ word (List.mem_cons_self ..)]
    exact ih fun word member => none_ word (List.mem_cons_of_mem _ member)

private theorem matchLists_against (more : List Str) : matchLists (againstWords ++ more) = matchLists more :=
  matchLists_skip _ _ (by decide)

include qualified

private theorem matchLists_columns (front : Str) (opens : front = ascii "MATCH(" ∨ front = ascii "(MATCH(")
    {names : List Str} (plain : ∀ name ∈ names, Plain.Only name ∧ 46 ∉ name) (some_ : names ≠ []) (more : List Str) :
    matchLists (listWords front (names.map (dotted qualifier ++ ·)) ++ more) = names :: matchLists more := by
  have before : Opens front := by
    rcases opens with rfl | rfl <;> exact ⟨by decide, by decide, by simp [ascii]⟩
  have starts (text : Str) : opensMatch (front ++ text) = true := by
    rcases opens with rfl | rfl <;> simp [opensMatch, ascii]
  have read := listed_listWords plain qualified before some_ more
  obtain ⟨name, rest, rfl⟩ := List.exists_cons_of_ne_nil some_
  cases rest with
  | nil =>
    simp only [List.map_cons, List.map_nil, listWords, List.singleton_append, List.append_assoc] at read ⊢
    rw [matchLists, if_pos (starts _), read]
  | cons second rest =>
    simp only [List.map_cons, listWords, List.cons_append, List.append_assoc] at read ⊢
    rw [matchLists, if_pos (starts _), read, ← List.map_cons, matchLists_skip]
    intro word member
    refine Bool.eq_false_iff.mpr fun opens =>
      not_mem_listWords (by decide) ?_ (by simp) word member (opensMatch_mem opens)
    intro item listed
    obtain ⟨name, known, rfl⟩ := List.mem_map.mp listed
    simpa using ⟨(dotted_only qualified).not_mem (by decide),
      (plain name (List.mem_cons_of_mem _ known)).1.not_mem (by decide)⟩

/-- A MATCH in a text, alone or at the start of a sum, is read as its columns. -/
private theorem matchLists_matchColumns (front : Str) (opens : front = [] ∨ front = [40]) {columns : List TextColumn}
    (named : ∀ column ∈ columns, isColumnName column.name = true) (some_ : columns ≠ []) (more : List Str) :
    matchLists (split 32 (front ++ matchColumns columns qualifier (ascii "?")) ++ more) =
      columns.map TextColumn.name :: matchLists more := by
  have plain := plain_columns named
  let items := (columns.map TextColumn.name).map (dotted qualifier ++ ·)
  have text : front ++ matchColumns columns qualifier (ascii "?") =
      [32].intercalate (listWords (front ++ ascii "MATCH(") items ++ againstWords) := by
    have lists :
      (columns.map fun column => if qualifier = [] then column.name else qualifier ++ ascii "." ++ column.name) =
        items := by
      simp only [items, List.map_map]
      refine List.map_congr_left fun column _ => ?_
      by_cases none_ : qualifier = [] <;> simp [dotted, none_, ascii]
    rw [intercalate_append (listWords_ne_nil _ _) (by decide), intercalate_listWords, matchColumns, lists]
    simp [againstWords, List.intercalate, ascii]
  have spaceless : ∀ word ∈ listWords (front ++ ascii "MATCH(") items ++ againstWords, 32 ∉ word := by
    refine List.forall_mem_append.mpr ⟨not_mem_listWords (by decide) ?_ ?_, by decide⟩
    · intro item listed
      obtain ⟨name, known, rfl⟩ := List.mem_map.mp listed
      simpa using ⟨(dotted_only qualified).not_mem (by decide), (plain name known).1.not_mem (by decide)⟩
    · rcases opens with rfl | rfl <;> decide
  rw [text, split_intercalate_of_not_mem (by simp [listWords_ne_nil]) spaceless, List.append_assoc,
    matchLists_columns qualified _ ?_ plain (by simpa using some_), matchLists_against]
  rcases opens with rfl | rfl
  · exact .inl rfl
  · exact .inr rfl

omit qualified in
private theorem matchLists_factor (weight : TextWeight) (more : List Str) :
    matchLists (ascii "*" :: weight.factor :: more) = matchLists more ∧
      matchLists [ascii "*", weight.factor ++ [41]] = [] ∧ 32 ∉ weight.factor := by
  cases weight <;> exact ⟨rfl, rfl, by decide⟩

/-- What `TextRank` sums up for a group of columns. -/
def rankText (qualifier : Str) (columns : List TextColumn) : Str :=
  matchColumns columns qualifier (ascii "?") ++ ascii " * " ++ (weightOf columns).factor

private theorem matchLists_ranks (front : Str) (opens : front = [] ∨ front = [40]) {groups : List (List TextColumn)}
    (named : ∀ columns ∈ groups, columns ≠ [] ∧ ∀ column ∈ columns, isColumnName column.name = true)
    (some_ : groups ≠ []) :
    matchLists (split 32 (front ++ join " + " (groups.map (rankText qualifier)) ++ [41])) =
      groups.map (·.map TextColumn.name) := by
  induction groups generalizing front with
  | nil => exact absurd rfl some_
  | cons columns rest ih =>
    obtain ⟨filled, known⟩ := named columns (List.mem_cons_self ..)
    have factor := matchLists_factor (weightOf columns)
    cases rest with
    | nil =>
      have text : front ++ join " + " ([columns].map (rankText qualifier)) ++ [41] =
          front ++ matchColumns columns qualifier (ascii "?") ++ 32 :: (ascii "*" ++ 32 ::
            ((weightOf columns).factor ++ [41])) := by
        simp [join, List.intercalate, rankText, ascii]
      have last : 32 ∉ (weightOf columns).factor ++ [41] := by simpa using (factor []).2.2
      rw [text, split_append, split_append, split_of_not_mem last,
        matchLists_matchColumns qualified front opens known filled]
      exact congrArg _ (factor []).2.1
    | cons second others =>
      have text : front ++ join " + " ((columns :: second :: others).map (rankText qualifier)) ++ [41] =
          front ++ matchColumns columns qualifier (ascii "?") ++
            32 :: (ascii "*" ++ 32 :: ((weightOf columns).factor ++
            32 :: (ascii "+" ++ 32 :: ([] ++ join " + " ((second :: others).map (rankText qualifier)) ++ [41])))) := by
        simp [join, List.intercalate, rankText, ascii]
      rw [text, split_append, split_append, split_append, split_append, split_of_not_mem (factor []).2.2,
        matchLists_matchColumns qualified front opens known filled]
      refine congrArg (_ :: ·) (((factor _).1.trans ?_).trans
        (ih [] (.inl rfl) (fun columns member => named columns (List.mem_cons_of_mem _ member)) (by simp)))
      rfl

variable {bind : Value → Binding Str} {params : List Value} {expr : Str} {q : TextQuery}

omit qualified in
private theorem rankParts_eq (params : List Value) (marks : Marks bind) (value : Str)
    (groups : List (List TextColumn)) :
    ((groups.mapM (rankPart qualifier value bind)).run params).1 = groups.map (rankText qualifier) := by
  induction groups generalizing params with
  | nil => rfl
  | cons columns rest ih =>
    have part : ((rankPart qualifier value bind columns).run params).1 = rankText qualifier columns := by
      rw [rankText, ← marks (.string value) params]
      rfl
    rw [List.mapM_cons]
    exact congrArg₂ List.cons part (ih _)

private theorem textMatch_searched {lib : Library} {idx : TextIndex} (marks : Marks bind) (some_ : idx.columns ≠ [])
    (rendered : ((textMatch lib idx qualifier q bind).run params).1 = some expr) :
    searched expr = [idx.columns.map TextColumn.name] := by
  unfold textMatch at rendered
  split at rendered
  · cases rendered
  · rename_i value _
    obtain rfl : matchColumns idx.columns qualifier (ascii "?") = expr := by
      rw [← marks (.string value) params]
      exact Option.some.inj rendered
    simpa [searched, matchLists] using matchLists_matchColumns qualified [] (.inl rfl) idx.columns_named some_ []

omit qualified in
theorem named_of_weightGroups {idx : TextIndex} (grouped : idx.weightGroups = some groups) : groups ≠ [] ∧
    ∀ columns ∈ groups, columns ≠ [] ∧ ∀ column ∈ columns, isColumnName column.name = true := by
  unfold TextIndex.weightGroups at grouped
  dsimp only at grouped
  split at grouped <;> cases grouped
  rename_i several
  refine ⟨fun none_ => several (by rw [none_]; decide), fun columns member => ?_⟩
  obtain ⟨listed, filled⟩ := List.mem_filter.mp member
  obtain ⟨weight, -, rfl⟩ := List.mem_map.mp listed
  exact ⟨of_decide_eq_true filled, fun column inside => idx.columns_named column (List.mem_filter.mp inside).1⟩

private theorem textRank_searched {lib : Library} {idx : TextIndex} (marks : Marks bind) (some_ : idx.columns ≠ [])
    (rendered : ((textRank lib idx qualifier q bind).run params).1 = some expr) :
    searched expr = (idx.weightGroups.getD [idx.columns]).map (·.map TextColumn.name) := by
  unfold textRank at rendered
  split at rendered
  · cases rendered
  · rename_i value _
    split at rendered
    · rename_i ungrouped
      obtain rfl : matchColumns idx.columns qualifier (ascii "?") = expr := by
        rw [← marks (.string value) params]
        exact Option.some.inj rendered
      rw [ungrouped]
      simpa [searched, matchLists] using matchLists_matchColumns qualified [] (.inl rfl) idx.columns_named some_ []
    · rename_i groups grouped
      obtain ⟨filled, named⟩ := named_of_weightGroups grouped
      have sum := matchLists_ranks qualified [40] (.inr rfl) named filled
      rw [← rankParts_eq params marks (rankValue lib idx q)] at sum
      rw [grouped, Option.getD_some, ← sum, ← Option.some.inj rendered]
      rfl

end Matches

/-! ## The indexes of a definition -/

private theorem weights_sublist (idx : TextIndex) :
    ((idx.weightGroups.getD []).map weightOf).Sublist [.a, .b, .c, .d] := by
  unfold TextIndex.weightGroups
  dsimp only
  split
  · exact List.nil_sublist _
  · rw [Option.getD_some, List.filter_map, List.map_map]
    have own : ∀ weight ∈ ([.a, .b, .c, .d] : List TextWeight).filter
        ((· ≠ []) ∘ fun weight => idx.columns.filter (·.effective = weight)),
        (weightOf ∘ fun weight => idx.columns.filter (·.effective = weight)) weight = weight := by
      intro weight kept
      simp only [List.mem_filter, Function.comp_apply, decide_eq_true_eq] at kept
      cases same : idx.columns.filter (·.effective = weight) with
      | nil => exact absurd same kept.2
      | cons first rest =>
        have member : first ∈ idx.columns.filter (·.effective = weight) := by simp [same]
        simpa [weightOf, same] using (List.mem_filter.mp member).2
    rw [List.map_congr_left own, List.map_id']
    exact List.filter_sublist

private theorem filterMap_map_eq {items : List α} (read : β → Option γ) {write : α → β} {value : α → γ}
    (each : ∀ item ∈ items, read (write item) = some (value item)) :
    (items.map write).filterMap read = items.map value := by
  rw [List.filterMap_map, ← List.filterMap_eq_map]
  exact List.filterMap_congr each

section Definitions

variable {idx : IndexDefinition} {steps : List TextStep}

/-- What a definition's statements name has no spaces. -/
private theorem spaceless (idx : IndexDefinition) : 32 ∉ idx.table ∧ 32 ∉ idx.name ∧ 32 ∉ idx.lexiconTable ∧
    32 ∉ idx.name ++ ascii "_lexg" ∧ ∀ weight, 32 ∉ groupIndexName idx.toTextIndex weight := by
  have names := idx.name_only.not_mem (show isPlainByte 32 = false by decide)
  have suffixes : 32 ∉ ascii "_lexg" ∧ ∀ weight, 32 ∉ groupSuffix weight := by
    refine ⟨by decide, fun weight => ?_⟩
    cases weight <;> decide
  refine ⟨idx.table_only.not_mem (by decide), names, idx.lexiconTable_only.not_mem (by decide), ?_, fun weight => ?_⟩
  · exact List.not_mem_append names suffixes.1
  · exact List.not_mem_append names (suffixes.2 weight)

theorem groups_named (idx : TextIndex) : ∀ columns ∈ idx.weightGroups.getD [],
    columns ≠ [] ∧ ∀ column ∈ columns, isColumnName column.name = true := by
  cases grouped : idx.weightGroups with
  | none => simp
  | some groups => exact (named_of_weightGroups grouped).2

theorem indexes_eq (built : textIndexDDL idx comment = .ok steps) :
    (steps.flatMap TextStep.up).filterMap fullTextIndex =
      ⟨idx.table, idx.name, idx.columns.map TextColumn.name⟩ ::
        ((idx.weightGroups.getD []).map (fun columns => ⟨idx.table, groupIndexName idx.toTextIndex (weightOf columns),
            columns.map TextColumn.name⟩) ++
          if idx.suggest then [⟨idx.lexiconTable, idx.name ++ ascii "_lexg", [ascii "term"]⟩] else []) := by
  obtain ⟨tables, names, lexicons, lexgs, groups⟩ := spaceless idx
  unfold textIndexDDL at built
  split at built <;> cases built
  have main := fullTextIndex_index tables names idx.indexed idx.columns_named comment
  have grouped := filterMap_map_eq fullTextIndex fun columns member =>
    show fullTextIndex (addIndex idx.table (groupIndexName idx.toTextIndex (weightOf columns)) columns) = some _ by
      obtain ⟨filled, named⟩ := groups_named idx.toTextIndex columns member
      simpa [commentClause] using fullTextIndex_index tables (groups (weightOf columns)) filled named []
  cases idx.suggest <;> simp [main, grouped, fullTextIndex_lexicon lexicons lexgs, List.filterMap_append]

private theorem created_names (built : textIndexDDL idx comment = .ok steps) :
    (((steps.flatMap TextStep.up).filterMap fullTextIndex).map FullTextIndex.name).Nodup := by
  have all : ([] :: ([.a, .b, .c, .d].map groupSuffix ++ [ascii "_lexg"])).Nodup := by decide
  have groups := (weights_sublist idx.toTextIndex).map groupSuffix
  have suffixes : ([] :: (((idx.weightGroups.getD []).map weightOf).map groupSuffix ++
      if idx.suggest then [ascii "_lexg"] else [])).Nodup := by
    refine all.sublist ((groups.append ?_).cons_cons _)
    split
    · exact .refl _
    · exact List.nil_sublist _
  rw [indexes_eq built]
  convert suffixes.map (List.append_right_injective idx.name) using 1
  cases idx.suggest <;> simp [groupIndexName, Function.comp_def]

private theorem dropped_created (built : textIndexDDL idx comment = .ok steps) :
    ((steps.flatMap TextStep.down).filterMap dropped).Perm ((steps.flatMap TextStep.up).filterMap created) := by
  obtain ⟨tables, names, lexicons, lexgs, groups⟩ := spaceless idx
  unfold textIndexDDL at built
  split at built <;> cases built
  have main := created_index tables names idx.columns_named comment
  have ups := filterMap_map_eq created fun columns member =>
    show created (addIndex idx.table (groupIndexName idx.toTextIndex (weightOf columns)) columns) = some _ by
      obtain ⟨-, named⟩ := groups_named idx.toTextIndex columns member
      simpa [commentClause] using created_index tables (groups (weightOf columns)) named []
  have downs := filterMap_map_eq dropped fun columns (_ : columns ∈ idx.weightGroups.getD []) =>
    dropped_index tables (groups (weightOf columns))
  cases idx.suggest <;> simp [main, ups, downs, dropped_index tables names, created_lexicon lexicons lexgs,
    dropped_table lexicons, List.filterMap_append]

end Definitions

/-- Unless it is to be built concurrently, every list of columns that a MATCH of a
search names is that of an index that is created. The indexes have different names,
and what is created is what is dropped. -/
theorem every_match_has_its_index (lib : Library) (idx : IndexDefinition) (comment : Str)
    (blocking : idx.concurrently = false) : ∃ steps, textIndexDDL idx comment = .ok steps ∧
      (∀ qualifier q (bind : Value → Binding Str) params expr, Plain.Only qualifier → Marks bind →
        ((textMatch lib idx.toTextIndex qualifier q bind).run params).1 = some expr ∨
          ((textRank lib idx.toTextIndex qualifier q bind).run params).1 = some expr →
        searched expr ≠ [] ∧ ∀ columns ∈ searched expr, ∃ name,
          ⟨idx.table, name, columns⟩ ∈ (steps.flatMap TextStep.up).filterMap fullTextIndex) ∧
      (((steps.flatMap TextStep.up).filterMap fullTextIndex).map FullTextIndex.name).Nodup ∧
      ((steps.flatMap TextStep.down).filterMap dropped).Perm ((steps.flatMap TextStep.up).filterMap created) := by
  obtain ⟨steps, built⟩ : ∃ steps, textIndexDDL idx comment = .ok steps := by simp [textIndexDDL, blocking]
  refine ⟨steps, built, fun qualifier q bind params expr qualified marks rendered => ?_, created_names built,
    dropped_created built⟩
  have indexed : ∀ columns, columns = idx.columns ∨ columns ∈ idx.weightGroups.getD [] →
      ∃ name, ⟨idx.table, name, columns.map TextColumn.name⟩ ∈
        (steps.flatMap TextStep.up).filterMap fullTextIndex := by
    rw [indexes_eq built]
    rintro columns (rfl | grouped)
    · exact ⟨idx.name, List.mem_cons_self ..⟩
    · exact ⟨_, List.mem_cons_of_mem _ (List.mem_append_left _ (List.mem_map_of_mem grouped))⟩
  rcases rendered with matched | ranked
  · rw [textMatch_searched qualified marks idx.indexed matched]
    exact ⟨by simp, by simpa using indexed _ (.inl rfl)⟩
  · rw [textRank_searched qualified marks idx.indexed ranked]
    cases grouped : idx.weightGroups with
    | none => exact ⟨by simp, by simpa using indexed _ (.inl rfl)⟩
    | some groups =>
      refine ⟨by simpa using (named_of_weightGroups grouped).1, fun columns member => ?_⟩
      obtain ⟨group, listed, rfl⟩ := List.mem_map.mp member
      exact indexed group (.inr (by rwa [grouped]))

namespace Sample

def shoes (concurrently : Bool) : IndexDefinition where
  name := ascii "ftx_shoes"
  table := ascii "shop.shoes"
  columns := [⟨ascii "name", some .a⟩, ⟨ascii "brand", some .a⟩, ⟨ascii "notes", none⟩]
  language := ascii "simple"
  unaccent := false
  strategy := .expressionIndex
  vectorColumn := ascii "search"
  minTokenSize := 3
  columns_named := by decide
  language_known := by decide
  vectorColumn_named := by decide
  suggest := true
  concurrently
  expression _ := rfl
  indexed := by decide
  name_plain := by decide
  table_plain := by decide

def boots : TextQuery := [[⟨[ascii "boots"], false, false, 0, []⟩]]

def mark (_ : Value) : Binding Str := pure (ascii "?")

def rank : Str := ascii
  "(MATCH(s.name, s.brand) AGAINST (? IN BOOLEAN MODE) * 1.0 + MATCH(s.notes) AGAINST (? IN BOOLEAN MODE) * 0.1)"

theorem ranked (concurrently : Bool) :
    ((textRank .plain (shoes concurrently).toTextIndex (ascii "s") boots mark).run []).1 = some rank := by
  decide +revert +kernel

theorem searched_rank : searched rank = [[ascii "name", ascii "brand"], [ascii "notes"]] := by decide +kernel

end Sample

theorem sample_match_has_its_index : ∃ steps, textIndexDDL (Sample.shoes false) (ascii "it's") = .ok steps ∧
    searched Sample.rank = [[ascii "name", ascii "brand"], [ascii "notes"]] ∧
    (∀ columns ∈ searched Sample.rank, ∃ name,
      ⟨ascii "shop.shoes", name, columns⟩ ∈ (steps.flatMap TextStep.up).filterMap fullTextIndex) ∧
    (((steps.flatMap TextStep.up).filterMap fullTextIndex).map FullTextIndex.name).Nodup :=
  have ⟨steps, built, indexed, names, _⟩ := every_match_has_its_index .plain (Sample.shoes false) (ascii "it's") rfl
  have ⟨_, each⟩ := indexed (ascii "s") Sample.boots Sample.mark [] Sample.rank (.of_all rfl)
    (fun _ _ => rfl) (.inr (Sample.ranked false))
  ⟨steps, built, Sample.searched_rank, each, names⟩

/-- A definition that is to be built concurrently has searches but no index. -/
theorem concurrent_definition_has_no_index : textIndexDDL (Sample.shoes true) [] = .error errConcurrentIndex ∧
    ((textRank .plain (Sample.shoes true).toTextIndex (ascii "s") Sample.boots Sample.mark).run []).1 =
      some Sample.rank ∧
    searched Sample.rank = [[ascii "name", ascii "brand"], [ascii "notes"]] :=
  ⟨rfl, Sample.ranked true, Sample.searched_rank⟩

end MySQL

end Gofi.Sqln
