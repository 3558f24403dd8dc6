import Gofi.Sqln.FullText

/-! `sqln/criteria`: predicates, and the builder that writes them as SQL text
while it binds their values. -/

namespace Gofi.Sqln

open Gofi.Go

structure Predicate where
  field : Str := []
  operator : Operator := .unset
  value : Value := .null
  logical : Option Connector := none
  children : List Predicate := []
  raw : Bool := false
  literal : Bool := false
  search : Option Search := none
  err : Option Err := none

namespace Predicate

def substring (p : Predicate) : Predicate := { p with literal := true }

end Predicate

def toSlice : Value → Option (List Value)
  | .list elements => some elements
  | .typed elements => some elements
  | _ => none

def isTypedSlice : Value → Bool
  | .typed _ => true
  | _ => false

namespace Criteria

def compare (operator : Operator) (field : Str) (value : Value) : Predicate := { field, operator, value }

def eq (field : Str) (value : Value) : Predicate := compare .eq field value
def ne (field : Str) (value : Value) : Predicate := compare .notEqual field value
def lt (field : Str) (value : Value) : Predicate := compare .less field value
def lte (field : Str) (value : Value) : Predicate := compare .lessOrEqual field value
def gt (field : Str) (value : Value) : Predicate := compare .greater field value
def gte (field : Str) (value : Value) : Predicate := compare .greaterOrEqual field value
def isIn (field : Str) (values : Value) : Predicate := compare .isIn field values
def notIn (field : Str) (values : Value) : Predicate := compare .notIn field values
def contains (field text : Str) : Predicate := compare .contains field (.string text)
def notContains (field text : Str) : Predicate := compare .notContains field (.string text)
def like (field text : Str) : Predicate := compare .like field (.string text)
def notLike (field text : Str) : Predicate := compare .notLike field (.string text)
def between (field : Str) (lower upper : Value) : Predicate := compare .between field (.list [lower, upper])

def isNull (field : Str) : Predicate := { field, operator := .isNull }
def isNotNull (field : Str) : Predicate := { field, operator := .isNotNull }

def group (predicates : List Predicate) : Predicate := { operator := .group, children := predicates }
def and : Predicate := { logical := some .and }
def or : Predicate := { logical := some .or }

def matching (s : Search) : Predicate := { operator := .search, search := some s }

end Criteria

structure Setting where
  lib : Library
  parse : Parser
  dialect : Dialect
  /-- The qualifiers of each table in the query; none for a bare clause. -/
  tables : Option (Str → List Str)

structure Builder where
  params : List Value
  sb : Str
  err : Option Err

namespace Builder

variable (st : Setting)

def fail (b : Builder) (err : Err) : Builder := { b with err := b.err.or (some err) }

def write (b : Builder) (parts : List Str) : Builder := { b with sb := b.sb ++ parts.flatten }

def nextParam (value : Value) : Binding Str := fun params =>
  (st.dialect.param (params.length + 1), params ++ [value])

/-- Text that depends on the placeholders of the values it binds. -/
def writeBinding (b : Builder) (text : Binding (List Str)) : Builder :=
  let (parts, params) := text.run b.params
  { b with params := params }.write parts

def invalidField (detail : Str) : Err := ⟨[.invalidField], ascii "criteria: invalid field: " ++ detail⟩

def invalidValue (detail : Str) : Err := ⟨[.invalidValue], ascii "criteria: invalid value: " ++ detail⟩

def fieldError (field : Str) (raw : Bool) : Option Err :=
  if raw || isIdentifier field then none
  else some (invalidField (st.lib.quote field ++
    ascii " is not a column reference (use Raw for a trusted expression)"))

def qualifier (s : Search) (idx : TextIndex) : Except Err Str :=
  if s.qualifier ≠ [] then
    if isIdentifier s.qualifier then .ok s.qualifier
    else .error (invalidField (ascii "search qualifier " ++ st.lib.quote s.qualifier ++ ascii " is not an alias"))
  else
    match st.tables with
    | none => .ok []
    | some tables =>
      match tables idx.table with
      | [only] => .ok only
      | [] => .error (invalidField (ascii "table " ++ idx.table ++ ascii " of full-text index " ++ idx.name ++
          ascii " is not in the query; set Search.On"))
      | several => .error (invalidField (ascii "table " ++ idx.table ++ ascii " of full-text index " ++ idx.name ++
          ascii " appears " ++ formatNat several.length ++ ascii " times; set Search.On"))

inductive TextKind where
  | condition
  | rank
  | highlight (column : Str)

def textOf (idx : TextIndex) (qualifier : Str) (q : TextQuery) : TextKind → Binding (Option Str)
  | .condition =>
    match st.dialect with
    | .postgres => Postgres.textMatch idx qualifier q (nextParam st)
    | _ => MySQL.textMatch st.lib idx qualifier q (nextParam st)
  | .rank =>
    match st.dialect with
    | .postgres => Postgres.textRank idx qualifier q (nextParam st)
    | _ => MySQL.textRank st.lib idx qualifier q (nextParam st)
  | .highlight column =>
    match st.dialect with
    | .postgres => Postgres.textHighlight idx qualifier column q (nextParam st)
    | _ => MySQL.textHighlight st.lib idx qualifier column q (nextParam st)

def textTarget (s : Search) (kind : TextKind) : Except Err (TextIndex × Str × TextQuery) :=
  if !st.dialect.hasFullText then
    .error ⟨[.invalidValue, .unsupported], ascii
      "criteria: invalid value: fts: full-text search not supported by the dialect: " ++ st.dialect.typeName⟩
  else
    match s.query st.parse with
    | .error err => .error ⟨.invalidValue :: err.wraps, ascii "criteria: invalid value: " ++ err.text⟩
    | .ok (idx, q) =>
      match qualifier st s idx with
      | .error err => .error err
      | .ok aliased =>
        match kind with
        | .highlight column =>
          if idx.columns.any (·.name = column) then .ok (idx, aliased, q)
          else .error (invalidField (st.lib.quote column ++ ascii " is not a column of full-text index " ++ idx.name))
        | _ => .ok (idx, aliased, q)

theorem textTarget_spec
    (target : textTarget st s kind = .ok (idx, aliased, q)) :
    st.dialect.hasFullText = true ∧ s.index = some idx ∧ qualifier st s idx = .ok aliased ∧
      ∀ column, kind = .highlight column → isColumnName column = true := by
  unfold textTarget at target
  split at target
  · cases target
  rename_i supported
  have supported : st.dialect.hasFullText = true := by simpa using supported
  split at target
  · cases target
  rename_i found query queried
  have indexed := Search.index_of_query queried
  split at target
  · cases target
  rename_i name qualified
  cases kind with
  | highlight column =>
    dsimp only at target
    split at target <;> cases target
    rename_i listed
    refine ⟨supported, indexed, qualified, ?_⟩
    rintro _ ⟨⟩
    obtain ⟨named, member, rfl⟩ := by simpa using listed
    exact idx.columns_named named member
  | condition | rank =>
    cases target
    exact ⟨supported, indexed, qualified, nofun⟩

def textExpr (b : Builder) (s : Search) (kind : TextKind) : Str × Builder :=
  match textTarget st s kind with
  | .error err => ([], b.fail err)
  | .ok (idx, aliased, q) =>
    match (textOf st idx aliased q kind).run b.params with
    | (some expr, params) => (expr, { b with params := params })
    | (none, params) => ([], { b with params := params }.fail
        ⟨[.invalidValue, .emptySearch], ascii "criteria: invalid value: fts: empty search"⟩)

def likePattern (p : Predicate) : Except Err Value :=
  if !p.literal then .ok p.value
  else
    match p.value with
    | .string text => .ok (.string (ascii "%" ++ escapeLike st.lib st.dialect text ++ ascii "%"))
    | _ => .error (invalidValue (ascii "substring match on " ++ st.lib.quote p.field ++ ascii " requires a string"))

/-- A `LIKE` in one of its forms, with the escape clause of a literal match. When
the pattern is wrong the text goes on without a placeholder. -/
def writeLike (b : Builder) (p : Predicate) (form : Str → Str) : Builder :=
  let written :=
    match likePattern st p with
    | .error err => (b.fail err).write [form []]
    | .ok pattern => b.writeBinding (do let param ← nextParam st pattern; pure [form param])
  if p.literal then written.write [likeEscapeClause] else written

def writeOverlap (b : Builder) (p : Predicate) : Builder :=
  if !st.dialect.hasArrays then
    b.fail (invalidValue (ascii "Overlaps on " ++ st.lib.quote p.field ++ ascii " needs a dialect with array columns"))
  else
    match toSlice p.value with
    | some [] => b.write [ascii "1 = 0"]
    | _ => b.writeBinding (do let param ← nextParam st p.value; pure [arrayOverlap p.field param])

def listParams : List Value → Binding (List Str)
  | [] => pure []
  | [value] => do
    let param ← nextParam st value
    pure [param]
  | value :: rest => do
    let param ← nextParam st value
    let params ← listParams rest
    pure (param :: ascii ", " :: params)

def writeMembership (b : Builder) (p : Predicate) : Builder :=
  match toSlice p.value with
  | none => b.writeBinding (do
      let param ← nextParam st p.value
      pure [p.field, ascii " ", p.operator.text, ascii " (", param, ascii ")"])
  | some [] => b.write [if p.operator = .notIn then ascii "1 = 1" else ascii "1 = 0"]
  | some values =>
    if st.dialect.hasArrays && isTypedSlice p.value then
      b.writeBinding (do
        let param ← nextParam st p.value
        pure [arrayMembership p.field param (p.operator = .notIn)])
    else b.writeBinding (do
      let params ← listParams st values
      pure ([p.field, ascii " ", p.operator.text, ascii " ("] ++ params ++ [ascii ")"]))

def writeBetween (b : Builder) (p : Predicate) : Builder :=
  match toSlice p.value with
  | some [lower, upper] => b.writeBinding (do
      let start ← nextParam st lower
      let stop ← nextParam st upper
      pure [p.field, ascii " BETWEEN ", start, ascii " AND ", stop])
  | _ => b.fail (invalidValue (ascii "BETWEEN on " ++ st.lib.quote p.field ++ ascii " requires exactly two values"))

def writeSearch (b : Builder) (s : Search) : Builder :=
  let (expr, b) := textExpr st b s .condition
  b.write [expr]

def writeLeaf (b : Builder) (p : Predicate) : Builder :=
  match p.operator with
  | .isNull => b.write [p.field, ascii " ", p.operator.text]
  | .isNotNull => b.write [p.field, ascii " ", p.operator.text]
  | .isTrue => b.write [p.field, ascii " ", p.operator.text]
  | .isFalse => b.write [p.field, ascii " ", p.operator.text]
  | .overlaps => writeOverlap st b p
  | .isIn => writeMembership st b p
  | .notIn => writeMembership st b p
  | .between => writeBetween st b p
  | .contains => writeLike st b p (st.dialect.like p.field)
  | .notContains => writeLike st b p (st.dialect.notLike p.field)
  | .like => writeLike st b p fun param => p.field ++ ascii " LIKE " ++ param
  | .notLike => writeLike st b p fun param => p.field ++ ascii " NOT LIKE " ++ param
  | _ => b.writeBinding (do
      let param ← nextParam st p.value
      pure [p.field, ascii " ", p.operator.text, ascii " ", param])

mutual

def writePredicate (b : Builder) : Predicate → Builder
  | ⟨field, operator, value, logical, children, raw, literal, search, err⟩ =>
    match err with
    | some err => b.fail err
    | none =>
      match operator with
      | .group => (writeClause (b.write [ascii "("]) none children).write [ascii ")"]
      | .search =>
        match search with
        | some s => writeSearch st b s
        | none => b
      | _ =>
        match fieldError st field raw with
        | some err => b.fail err
        | none => writeLeaf st b ⟨field, operator, value, logical, children, raw, literal, search, none⟩

/-- The body of a clause. Connectors are written as they are; adjacent conditions
are joined with AND. `previous` tells whether the predicate before was a
connector, `none` at the beginning. -/
def writeClause (b : Builder) (previous : Option Bool) : List Predicate → Builder
  | [] => b
  | p :: rest =>
    let b := if previous.isSome then b.write [ascii " "] else b
    match p.logical with
    | some connector => writeClause (b.write [connector.text]) (some true) rest
    | none =>
      let b := if previous = some false then b.write [Connector.and.text, ascii " "] else b
      writeClause (writePredicate b p) (some false) rest

end

end Builder

def buildClauseAfter (lib : Library) (parse : Parser) (args : List Value) (predicates : List Predicate) (d : Dialect) :
    Except Err (Str × List Value) :=
  let b := Builder.writeClause ⟨lib, parse, d, none⟩ ⟨args, [], none⟩ none predicates
  match b.err with
  | some err => .error err
  | none => .ok (b.sb, b.params)

end Gofi.Sqln
