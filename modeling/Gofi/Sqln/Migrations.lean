import Gofi.Sqln.SearchIndexes

/-! `sqln/fts`: the migration files of full-text indexes against the plain list of their statements. -/

namespace Gofi.Sqln

open Gofi.Go

namespace Fts

/-- A dialect as the migrations see it. -/
structure Dialect where
  typeName : Str
  /-- `TextIndexDDL`, where the dialect has full-text search. -/
  textIndexDDL : Option (IndexDefinition → Str → Except Err (List TextStep))

def fullText (d : Dialect) : Except Err (IndexDefinition → Str → Except Err (List TextStep)) :=
  match d.textIndexDDL with
  | some ddl => .ok ddl
  | none => .error ⟨[.unsupported], ascii "fts: full-text search not supported by the dialect: " ++ d.typeName⟩

section Rendering

variable (sum : Str → Str) (d : Dialect)

/-- The tag of an index: a hash of what creates it in blocking mode. -/
def comment (idx : IndexDefinition) : Except Err Str := do
  let ddl ← fullText d
  let steps ← ddl { idx with concurrently := false, expression := nofun } []
  return ascii "gofi-fts:v1:" ++ sum (join ";\n" (steps.flatMap TextStep.up))

/-- One turn of the loop of `steps`. -/
def indexSteps (ddl : IndexDefinition → Str → Except Err (List TextStep)) :
    Option IndexDefinition → Except Err (List TextStep)
  | none => .error ⟨[.invalidIndex], ascii "fts: invalid index: nil index"⟩
  | some idx => do
    let note ← comment sum d idx
    match ddl idx note with
    | .ok steps => return steps
    | .error e => .error ⟨.invalidIndex :: e.wraps, ascii "fts: invalid index: " ++ idx.name ++ ascii ": " ++ e.text⟩

def steps (indexes : List (Option IndexDefinition)) : Except Err (List TextStep) := do
  let ddl ← fullText d
  return (← indexes.mapM (indexSteps sum d ddl)).flatten

def upOf (s : List TextStep) : List Str := s.flatMap TextStep.up

def downOf (s : List TextStep) : List Str := s.reverse.flatMap TextStep.down

def statements (indexes : List (Option IndexDefinition)) : Except Err (List Str × List Str) := do
  let s ← steps sum d indexes
  return (upOf s, downOf s)

/-- A body; an empty one still runs, so it holds a statement that changes nothing. -/
def joinStatements (s : List Str) : Str :=
  if s = [] then ascii "SELECT 1;\n" else join ";\n\n" s ++ ascii ";\n"

/-- The bodies of one up and one down migration file. -/
structure File where
  up : Str
  down : Str

/-- The steps of each file: an isolated step and the one after it open files of their own. -/
def groups (sofar : List (List TextStep)) (previous : Option TextStep) : List TextStep → List (List TextStep)
  | [] => sofar
  | st :: rest =>
    let opened := if st.isolated || previous.all TextStep.isolated then sofar ++ [[]] else sofar
    groups (opened.dropLast ++ [opened.getLast?.getD [] ++ [st]]) (some st) rest

def fileOf (group : List TextStep) : File := ⟨joinStatements (upOf group), joinStatements (downOf group)⟩

def migrations (indexes : List (Option IndexDefinition)) : Except Err (List File) := do
  let s ← steps sum d indexes
  return (groups [] none s).map fileOf

end Rendering

/-- An isolated step is the only one of its file. -/
def Alone (group : List TextStep) : Prop := ∀ st ∈ group, st.isolated = true → group = [st]

structure Sorted (sofar : List (List TextStep)) (previous : Option TextStep) : Prop where
  alone : ∀ group ∈ sofar, Alone group
  last : previous.all TextStep.isolated = false →
    ∃ before final, sofar = before ++ [final] ∧ ∀ st ∈ final, st.isolated = false

theorem Sorted.groups (sorted : Sorted sofar previous) (s : List TextStep) :
    (groups sofar previous s).flatten = sofar.flatten ++ s ∧ ∀ group ∈ groups sofar previous s, Alone group := by
  induction s generalizing sofar previous with
  | nil => exact ⟨(List.append_nil _).symm, sorted.alone⟩
  | cons st rest ih =>
    rw [Fts.groups]
    cases opens : st.isolated || previous.all TextStep.isolated with
    | true =>
      have next : Sorted (sofar ++ [[st]]) (some st) := by
        refine ⟨fun group member => ?_, fun ordinary => ⟨sofar, [st], rfl, by simpa using ordinary⟩⟩
        obtain old | rfl := by simpa using member
        · exact sorted.alone group old
        · simp [Alone]
      simpa using ih next
    | false =>
      obtain ⟨ordinary, shared⟩ := Bool.or_eq_false_iff.mp opens
      obtain ⟨before, final, rfl, open_⟩ := sorted.last shared
      have still : ∀ member ∈ final ++ [st], member.isolated = false := by
        simpa [or_imp, forall_and, ordinary] using open_
      have next : Sorted (before ++ [final ++ [st]]) (some st) := by
        refine ⟨fun group member => ?_, fun _ => ⟨before, _, rfl, still⟩⟩
        obtain old | rfl := by simpa using member
        · exact sorted.alone group (by simp [old])
        · intro one among alone
          simp [still one among] at alone
      simpa using ih next

private theorem upOf_flatten (parts : List (List TextStep)) : upOf parts.flatten = parts.flatMap upOf := by
  rw [← List.flatMap_id, upOf, List.flatMap_assoc]
  rfl

private theorem downOf_flatten (parts : List (List TextStep)) :
    downOf parts.flatten = parts.reverse.flatMap downOf := by
  rw [downOf, List.reverse_flatten, ← List.flatMap_id, List.flatMap_assoc, ← List.map_reverse, List.flatMap_map]
  rfl

/-! ## Running a body -/

/-- Where a script is read: outside of quotes, in a quoted string, after a dollar sign,
in a dollar-quoted string, or after a dollar sign in one. -/
inductive Mode where
  | plain
  | quoted
  | opening
  | dollar
  | closing
  deriving DecidableEq

def Mode.next : Mode → UInt8 → Mode
  | .plain, byte => if byte = 39 then .quoted else if byte = 36 then .opening else .plain
  | .quoted, byte => if byte = 39 then .plain else .quoted
  | .opening, byte => if byte = 39 then .quoted else if byte = 36 then .dollar else .plain
  | .dollar, byte => if byte = 36 then .closing else .dollar
  | .closing, byte => if byte = 36 then .plain else .dollar

/-- Whether a byte ends a statement. -/
def Mode.ends (mode : Mode) (byte : UInt8) : Bool := byte = 59 ∧ (mode = .plain ∨ mode = .opening)

/-- The parts of a script between the semicolons that end statements. -/
def pieces (mode : Mode) : Str → List Str
  | [] => [[]]
  | byte :: rest =>
    if mode.ends byte then [] :: pieces .plain rest
    else
      match pieces (mode.next byte) rest with
      | [] => [[byte]]
      | first :: others => (byte :: first) :: others

def isBlank (byte : UInt8) : Bool := byte = 32 ∨ byte = 10

/-- The statements that running a body executes. -/
def executed (body : Str) : List Str := ((pieces .plain body).map (·.dropWhile isBlank)).filter (· ≠ [])

/-- The mode after a text in which no statement ends. -/
def scan (mode : Mode) : Str → Option Mode
  | [] => some mode
  | byte :: rest => if mode.ends byte then none else scan (mode.next byte) rest

theorem scan_append (first : scan mode text = some middle) (more : Str) :
    scan mode (text ++ more) = scan middle more := by
  induction text generalizing mode with
  | nil =>
    cases first
    rfl
  | cons byte rest ih =>
    rw [scan] at first
    rw [List.cons_append, scan]
    split at first
    · cases first
    · rename_i inside
      rw [if_neg inside, ih first]

private theorem pieces_append (passed : scan mode text = some .plain) (rest : Str) :
    pieces mode (text ++ 59 :: rest) = text :: pieces .plain rest := by
  induction text generalizing mode with
  | nil =>
    cases passed
    rfl
  | cons byte more ih =>
    rw [scan] at passed
    split at passed
    · cases passed
    · rename_i inside
      rw [List.cons_append, pieces, if_neg inside, ih passed]

/-- A text in which no statement ends and no quote stays open. -/
def Whole (text : Str) : Prop := scan .plain text = some .plain

/-- One statement of SQL: no semicolon ends it before its end. -/
structure Single (statement : Str) : Prop where
  whole : Whole statement
  starts : ∃ byte rest, statement = byte :: rest ∧ isBlank byte = false

theorem Single.of_head (whole : Whole statement) (solid : statement.head?.all isBlank = false) : Single statement := by
  cases statement with
  | nil => cases solid
  | cons byte rest => exact ⟨whole, byte, rest, rfl, solid⟩

theorem Single.executed (single : Single statement) (rest : Str) :
    executed (statement ++ 59 :: rest) = statement :: executed rest := by
  obtain ⟨byte, more, rfl, solid⟩ := single.starts
  rw [Fts.executed, pieces_append single.whole]
  simp [Fts.executed, solid]

private theorem executed_line (text : Str) : executed (10 :: text) = executed text := by
  have line : ¬ Mode.ends .plain 10 = true := by decide
  rw [executed, pieces, if_neg line]
  cases found : pieces (Mode.next .plain 10) text with
  | nil => simp [executed, show pieces .plain text = [] from found, isBlank]
  | cons first others => simp [executed, show pieces .plain text = first :: others from found, isBlank]

/-- Running a body executes the statements it was made of; an empty one runs `SELECT 1`. -/
theorem executed_joinStatements (single : ∀ statement ∈ list, Single statement) :
    executed (joinStatements list) = if list = [] then [ascii "SELECT 1"] else list := by
  unfold joinStatements
  split
  · decide
  · rename_i filled
    induction list with
    | nil => exact absurd rfl filled
    | cons first rest ih =>
      have own := (single first (List.mem_cons_self ..)).executed
      cases rest with
      | nil =>
        have text : join ";\n\n" [first] ++ ascii ";\n" = first ++ 59 :: [10] := by
          simp [join, List.intercalate, ascii]
        rw [text, own]
        rfl
      | cons second others =>
        have text : join ";\n\n" (first :: second :: others) ++ ascii ";\n" =
            first ++ 59 :: 10 :: 10 :: (join ";\n\n" (second :: others) ++ ascii ";\n") := by
          simp [join, List.intercalate, ascii]
        rw [text, own, executed_line, executed_line,
          ih (fun statement member => single statement (List.mem_cons_of_mem _ member)) (by simp)]

/-- Every statement that the dialect renders is one statement of SQL. -/
def Dialect.Lawful (d : Dialect) : Prop :=
  ∀ ddl, d.textIndexDDL = some ddl → ∀ idx note steps, ddl idx note = .ok steps →
  ∀ st ∈ steps, ∀ statement ∈ st.up ++ st.down, Single statement

private theorem single_of_indexSteps (single : ∀ idx note steps, ddl idx note = .ok steps →
      ∀ st ∈ steps, ∀ statement ∈ st.up ++ st.down, Single statement) (built : indexSteps sum d ddl index = .ok s) :
    ∀ st ∈ s, ∀ statement ∈ st.up ++ st.down, Single statement := by
  unfold indexSteps at built
  split at built
  · cases built
  · rename_i idx
    cases noted : comment sum d idx with
    | error e => simp [noted, bind, Except.bind] at built
    | ok note =>
      cases rendered : ddl idx note with
      | error e => simp [noted, rendered, bind, Except.bind] at built
      | ok steps =>
        obtain rfl : steps = s := by simpa [noted, rendered, bind, Except.bind, pure, Except.pure] using built
        exact single idx note steps rendered

private theorem mem_of_mapM {items : List α} {step : α → Except Err β} {results : List β}
    (done : items.mapM step = .ok results) (member : result ∈ results) :
    ∃ item, step item = .ok result := by
  induction items generalizing results with
  | nil =>
    obtain rfl : [] = results := by simpa [pure, Except.pure] using done
    cases member
  | cons item rest ih =>
    rw [List.mapM_cons] at done
    cases first : step item with
    | error e => simp [first, bind, Except.bind] at done
    | ok value =>
      cases others : rest.mapM step with
      | error e => simp [first, others, bind, Except.bind] at done
      | ok values =>
        obtain rfl : value :: values = results := by
          simpa [first, others, bind, Except.bind, pure, Except.pure] using done
        rcases List.mem_cons.mp member with rfl | later
        · exact ⟨item, first⟩
        · exact ih others later

theorem Dialect.Lawful.steps (lawful : d.Lawful) (built : steps sum d indexes = .ok s) :
    ∀ st ∈ s, ∀ statement ∈ st.up ++ st.down, Single statement := by
  unfold Fts.steps fullText at built
  cases supported : d.textIndexDDL with
  | none => simp [supported, bind, Except.bind] at built
  | some ddl =>
    cases rendered : indexes.mapM (indexSteps sum d ddl) with
    | error e => simp [supported, rendered, bind, Except.bind] at built
    | ok lists =>
      obtain rfl : lists.flatten = s := by
        simpa [supported, rendered, bind, Except.bind, pure, Except.pure] using built
      intro st member
      obtain ⟨list, listed, inside⟩ := List.mem_flatten.mp member
      obtain ⟨index, own⟩ := mem_of_mapM rendered listed
      exact single_of_indexSteps (lawful ddl supported) own st inside

/-- A file and the steps that its bodies execute. -/
structure File.Holds (file : File) (part : List TextStep) : Prop where
  up : executed file.up = if upOf part = [] then [ascii "SELECT 1"] else upOf part
  down : executed file.down = if downOf part = [] then [ascii "SELECT 1"] else downOf part
  alone : Alone part

/-- The files hold consecutive parts of the steps, none with an isolated step and
another one: running the up bodies in order executes the up statements, and running
the down bodies backwards the down statements. -/
theorem migration_files_replay_statements (sum : Str → Str) (d : Dialect) (lawful : d.Lawful)
    (indexes : List (Option IndexDefinition)) (rendered : migrations sum d indexes = .ok files) :
    ∃ parts : List (List TextStep), List.Forall₂ File.Holds files parts ∧ steps sum d indexes = .ok parts.flatten ∧
      statements sum d indexes = .ok (parts.flatMap upOf, parts.reverse.flatMap downOf) := by
  unfold migrations at rendered
  cases built : steps sum d indexes with
  | error e => simp [built, bind, Except.bind] at rendered
  | ok s =>
    obtain rfl : (groups [] none s).map fileOf = files := by
      simpa [built, bind, Except.bind, pure, Except.pure] using rendered
    have start : Sorted [] none := ⟨by simp, by simp⟩
    obtain ⟨flat, alone⟩ := start.groups s
    rw [List.flatten_nil, List.nil_append] at flat
    have single : ∀ part ∈ groups [] none s, ∀ st ∈ part, ∀ statement ∈ st.up ++ st.down, Single statement := by
      intro part member st inside
      exact lawful.steps built st (flat ▸ List.mem_flatten.mpr ⟨part, member, inside⟩)
    refine ⟨groups [] none s, ?_, by rw [flat], ?_⟩
    · rw [List.forall₂_map_left_iff, List.forall₂_same]
      intro part member
      refine ⟨executed_joinStatements fun statement listed => ?_, executed_joinStatements fun statement listed => ?_,
        alone part member⟩
      · obtain ⟨st, inside, own⟩ := List.mem_flatMap.mp listed
        exact single part member st inside statement (List.mem_append_left _ own)
      · obtain ⟨st, inside, own⟩ := List.mem_flatMap.mp listed
        exact single part member st (List.mem_reverse.mp inside) statement (List.mem_append_right _ own)
    · rw [← upOf_flatten, ← downOf_flatten, flat, statements, built]
      rfl

/-! ## The dialects of the repository -/

theorem Whole.append (first : Whole text) (second : Whole more) : Whole (text ++ more) :=
  (scan_append first _).trans second

theorem Whole.literal {text : String} (whole : scan .plain (ascii text) = some .plain) : Whole (ascii text) := whole

private theorem whole_of_calm (calm : 36 ∉ text ∧ 39 ∉ text ∧ 59 ∉ text) : Whole text := by
  induction text with
  | nil => rfl
  | cons byte rest ih =>
    simp only [List.mem_cons, not_or] at calm
    have stays : Mode.next .plain byte = .plain := by simp [Mode.next, Ne.symm calm.1.1, Ne.symm calm.2.1.1]
    rw [Whole, scan, if_neg (by simp [Mode.ends, Ne.symm calm.2.2.1]), stays]
    exact ih ⟨calm.1.2, calm.2.1.2, calm.2.2.2⟩

theorem whole_of_plain (plain : Plain.Only text) : Whole text :=
  whole_of_calm ⟨plain.not_mem (by decide), plain.not_mem (by decide), plain.not_mem (by decide)⟩

private theorem whole_join (apart : Whole (ascii between)) (each : ∀ part ∈ parts, Whole part) :
    Whole (join between parts) := by
  induction parts with
  | nil => rfl
  | cons part rest ih =>
    have own := each part (List.mem_cons_self ..)
    cases rest with
    | nil => simpa [join, List.intercalate] using own
    | cons next others =>
      rw [join, intercalate_cons_cons]
      exact (own.append apart).append (ih fun part member => each part (List.mem_cons_of_mem _ member))

private theorem scan_quoted (absent : 39 ∉ text) : scan .quoted text = some .quoted := by
  induction text with
  | nil => rfl
  | cons byte rest ih =>
    rw [List.mem_cons, not_or] at absent
    rw [scan, if_neg (by simp [Mode.ends]), Mode.next, if_neg (Ne.symm absent.1)]
    exact ih absent.2

private theorem scan_doubled (comment : Str) : scan .quoted (MySQL.doubled comment) = some .quoted := by
  induction comment with
  | nil => rfl
  | cons byte rest ih =>
    rw [MySQL.doubled, List.flatMap_cons]
    split
    · have twice : scan .quoted [39, 39] = some .quoted := by decide
      exact (scan_append twice _).trans ih
    · rename_i other
      exact (scan_append (scan_quoted (by simpa using Ne.symm other)) _).trans ih

/-- A quoted text between two texts. -/
theorem whole_quoted (opens : scan .plain front = some .quoted) (inside : scan .quoted text = some .quoted)
    (closes : scan .quoted back = some .plain) : Whole (front ++ text ++ back) := by
  rw [Whole, List.append_assoc, scan_append opens, scan_append inside, closes]

private theorem whole_columnName (named : isColumnName name = true) : Whole name :=
  whole_of_plain (Plain.of_columnName named).1

private theorem whole_comment (comment : Str) : Whole (MySQL.commentClause comment) := by
  unfold MySQL.commentClause
  split
  · rfl
  · exact whole_quoted rfl (scan_doubled comment) rfl

/-- The names in the statements of a definition. -/
private theorem whole_names (idx : IndexDefinition) : Whole idx.table ∧ Whole idx.name ∧ Whole idx.lexiconTable :=
  ⟨whole_of_plain idx.table_only, whole_of_plain idx.name_only, whole_of_plain idx.lexiconTable_only⟩

private theorem whole_addIndex (tables : Whole table) (names : Whole name)
    (named : ∀ column ∈ columns, isColumnName column.name = true) : Whole (MySQL.addIndex table name columns) := by
  have lists : Whole (MySQL.columnList columns) := by
    refine whole_join rfl fun part member => ?_
    obtain ⟨column, listed, rfl⟩ := List.mem_map.mp member
    exact whole_columnName (named column listed)
  exact .append (.append (.append (.append (.append (.append (.literal rfl) tables) (.literal rfl)) names)
    (.literal rfl)) lists) (.literal rfl)

private theorem whole_groupIndexName (idx : IndexDefinition) (weight : TextWeight) :
    Whole (MySQL.groupIndexName idx.toTextIndex weight) :=
  (whole_names idx).2.1.append (by cases weight <;> rfl)

private theorem whole_dropIndex (tables : Whole table) (names : Whole name) : Whole (MySQL.dropIndex table name) :=
  .append (.append (.append (.literal rfl) tables) (.literal rfl)) names

def mysql : Dialect := ⟨ascii "mysql.MySQLDialect", some MySQL.textIndexDDL⟩

private theorem mysql_lawful : mysql.Lawful := by
  rintro ddl ⟨⟩ idx note steps built st member statement listed
  obtain ⟨tables, names, lexicons⟩ := whole_names idx
  unfold MySQL.textIndexDDL at built
  split at built <;> cases built
  rcases List.mem_cons.mp member with rfl | lexicon
  · simp only [List.cons_append, List.mem_cons, List.mem_append, List.mem_map, List.not_mem_nil, or_false] at listed
    rcases listed with rfl | ⟨columns, grouped, rfl⟩ | ⟨columns, grouped, rfl⟩ | rfl
    · exact ⟨(whole_addIndex tables names idx.columns_named).append (whole_comment note), _, _, rfl, rfl⟩
    · exact ⟨whole_addIndex tables (whole_groupIndexName idx _) (MySQL.groups_named _ columns grouped).2, _, _, rfl,
        rfl⟩
    · exact ⟨whole_dropIndex tables (whole_groupIndexName idx _), _, _, rfl, rfl⟩
    · exact ⟨whole_dropIndex tables names, _, _, rfl, rfl⟩
  · split at lexicon
    · obtain rfl := List.mem_singleton.mp lexicon
      simp only [List.singleton_append, List.mem_cons, List.not_mem_nil, or_false] at listed
      rcases listed with rfl | rfl
      · exact ⟨.append (.append (.append (.append (.literal rfl) lexicons) (.literal (by decide +kernel)))
          (.append names (.literal rfl))) (.literal (by decide +kernel)), _, _, rfl, rfl⟩
      · exact ⟨.append (.literal rfl) lexicons, _, _, rfl, rfl⟩
    · cases lexicon

namespace Sample

/-- An isolated step between two that are not, and several statements in each. -/
def isolated : List TextStep :=
  [⟨[ascii "ADD ';'", ascii "NOTE"], [ascii "UNDO"], false⟩, ⟨[ascii "INDEX"], [ascii "DROP A", ascii "DROP B"], true⟩,
    ⟨[ascii "ANALYZE", ascii "CHECK"], [], false⟩]

def isolating : Dialect := ⟨ascii "sample", some fun _ _ => .ok isolated⟩

theorem isolating_lawful : isolating.Lawful := by
  rintro ddl ⟨⟩ idx note steps ⟨⟩ st member statement listed
  have all : ∀ st ∈ isolated, ∀ statement ∈ st.up ++ st.down,
      scan .plain statement = some .plain ∧ statement.head?.all isBlank = false := by decide
  exact .of_head (all st member statement listed).1 (all st member statement listed).2

end Sample

theorem isolated_sample_replays : ∃ parts : List (List TextStep),
    migrations (fun _ => []) Sample.isolating [some (MySQL.Sample.shoes false)] = .ok
      [⟨ascii "ADD ';';\n\nNOTE;\n", ascii "UNDO;\n"⟩, ⟨ascii "INDEX;\n", ascii "DROP A;\n\nDROP B;\n"⟩,
        ⟨ascii "ANALYZE;\n\nCHECK;\n", ascii "SELECT 1;\n"⟩] ∧
    List.Forall₂ File.Holds [⟨ascii "ADD ';';\n\nNOTE;\n", ascii "UNDO;\n"⟩,
      ⟨ascii "INDEX;\n", ascii "DROP A;\n\nDROP B;\n"⟩, ⟨ascii "ANALYZE;\n\nCHECK;\n", ascii "SELECT 1;\n"⟩] parts ∧
    parts.flatMap upOf = ["ADD ';'", "NOTE", "INDEX", "ANALYZE", "CHECK"].map ascii ∧
    parts.reverse.flatMap downOf = ["DROP A", "DROP B", "UNDO"].map ascii ∧
    ∃ files, migrations (fun _ => []) mysql [some (MySQL.Sample.shoes false)] = .ok files ∧
      ∃ parts, List.Forall₂ File.Holds files parts := by
  obtain ⟨parts, held, _, same⟩ :=
    migration_files_replay_statements (fun _ => []) Sample.isolating Sample.isolating_lawful
    [some (MySQL.Sample.shoes false)] rfl
  obtain ⟨ups, downs⟩ := Prod.mk.inj (Except.ok.inj same)
  have generated : ∃ files, migrations (fun _ => []) mysql [some (MySQL.Sample.shoes false)] = .ok files := ⟨_, rfl⟩
  obtain ⟨files, built⟩ := generated
  obtain ⟨shared, holding, _⟩ := migration_files_replay_statements (fun _ => []) mysql mysql_lawful _ built
  exact ⟨parts, rfl, held, ups.symm, downs.symm, files, built, shared, holding⟩

end Fts

end Gofi.Sqln
