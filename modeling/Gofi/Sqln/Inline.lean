import Gofi.Sqln.Criteria
import Gofi.Text.Template

/-! What a query says, with every value written at its place: the meaning against
which the builder, which binds values and writes text in separate steps, is
checked. -/

namespace Gofi.Sqln

open Gofi.Go Gofi.Text

/-- A statement with its values in the places of the marks. -/
abbrev Sql := Template Value

namespace Sql

/-- A text without values. -/
def text (part : Str) : Sql := [.text part]

/-- One value. -/
def value (v : Value) : Sql := [.hole v]

/-- Statements with a text between them. -/
def join (between : Str) : List Sql → Sql
  | [] => []
  | [part] => part
  | part :: rest => part ++ text between ++ join between rest

end Sql

open Sql (text value)

namespace Postgres

/-- The query of a search, with its text as a value. -/
def tsquerySql (idx : TextIndex) (search : Str) : Sql :=
  text (ascii "to_tsquery(" ++ regconfig idx ++ ascii ", ") ++ value (.string search) ++ text (ascii ")")

/-- PostgreSQL's condition, rank or highlighted column of a search. -/
def textSql (idx : TextIndex) (qualifier : Str) (q : TextQuery) : Builder.TextKind → Sql
  | .condition => text (document idx qualifier ++ ascii " @@ ") ++ tsquerySql idx ((textSearchValue q).getD [])
  | .rank => text (ascii "ts_rank_cd(" ++ document idx qualifier ++ ascii ", ") ++
      tsquerySql idx ((textSearchValue q).getD []) ++ text (ascii ")")
  | .highlight column =>
    text (ascii "ts_headline(" ++ regconfig idx ++ ascii ", coalesce(" ++ qualify qualifier column ++
      ascii ", ''), ") ++ tsquerySql idx ((textSearchValue q).getD []) ++
        text (ascii ", " ++ headlineOptions ++ ascii ")")

end Postgres

namespace MySQL

variable (lib : Library)

/-- The MATCH of some columns. -/
def matchSql (columns : List TextColumn) (qualifier search : Str) : Sql :=
  text (ascii "MATCH(" ++ join ", " (columns.map fun column =>
    if qualifier = [] then column.name else qualifier ++ ascii "." ++ column.name) ++ ascii ") AGAINST (") ++
  value (.string search) ++ text (ascii " IN BOOLEAN MODE)")

/-- The MATCH of a group of columns, times its factor. -/
def rankSql (qualifier search : Str) (columns : List TextColumn) : Sql :=
  matchSql columns qualifier search ++
  text (ascii " * " ++ ((columns.head?.map TextColumn.effective).getD .d).factor)

/-- MySQL's condition, rank or highlighted column of a search. -/
def textSql (idx : TextIndex) (qualifier : Str) (q : TextQuery) : Builder.TextKind → Sql
  | .condition => matchSql idx.columns qualifier ((textSearchValue lib idx q).getD [])
  | .rank =>
    match idx.weightGroups with
    | none => matchSql idx.columns qualifier ((textSearchValue lib idx q).getD [])
    | some groups =>
      text (ascii "(") ++ Sql.join (ascii " + ") (groups.map (rankSql qualifier (rankValue lib idx q))) ++
        text (ascii ")")
  | .highlight column =>
    let col := if qualifier = [] then column else qualifier ++ ascii "." ++ column
    match highlightAlternatives lib idx q with
    | [] => text (ascii "COALESCE(" ++ col ++ ascii ", '')")
    | alternatives => text (ascii "REGEXP_REPLACE(COALESCE(" ++ col ++ ascii ", ''), ") ++
        value (.string
          (ascii "(?<![\\p\x7bL\x7d\\p\x7bN\x7d\\p\x7bM\x7d])(?:" ++ Sqln.join "|" alternatives ++ ascii ")")) ++
        text (ascii ", ") ++ value (.string ([238, 128, 128] ++ ascii "$0" ++ [238, 128, 129])) ++
        text (ascii ", 1, 0, 'i')")

end MySQL

section Predicates

variable (st : Setting)

/-- That of the dialect. -/
def textSql (idx : TextIndex) (qualifier : Str) (q : TextQuery) (kind : Builder.TextKind) : Sql :=
  match st.dialect with
  | .postgres => Postgres.textSql idx qualifier q kind
  | _ => MySQL.textSql st.lib idx qualifier q kind

/-- The search of a predicate, if it can be rendered. -/
def searchSql (s : Search) (kind : Builder.TextKind) : Sql :=
  match Builder.textTarget st s kind with
  | .ok (idx, aliased, q) => textSql st idx aliased q kind
  | .error _ => []

/-- LIKE or ILIKE with the pattern as a value. -/
def likeSql (p : Predicate) (keyword : String) : Sql :=
  match Builder.likePattern st p with
  | .ok pattern => text (p.field ++ ascii keyword) ++ value pattern ++
      if p.literal then text likeEscapeClause else []
  | .error _ => []

/-- IN and NOT IN over the values of a list. -/
def membershipSql (p : Predicate) : Sql :=
  match toSlice p.value with
  | none => text (p.field ++ ascii " " ++ p.operator.text ++ ascii " (") ++ value p.value ++ text (ascii ")")
  | some [] => text (if p.operator = .notIn then ascii "1 = 1" else ascii "1 = 0")
  | some values =>
    if st.dialect.hasArrays && isTypedSlice p.value then
      text (p.field ++ if p.operator = .notIn then ascii " <> ALL(" else ascii " = ANY(") ++ value p.value ++
        text (ascii ")")
    else text (p.field ++ ascii " " ++ p.operator.text ++ ascii " (") ++ Sql.join (ascii ", ") (values.map value) ++
      text (ascii ")")

/-- The overlap with an array. -/
def overlapSql (p : Predicate) : Sql :=
  match toSlice p.value with
  | some [] => text (ascii "1 = 0")
  | _ => text (p.field ++ ascii " && ") ++ value p.value

/-- BETWEEN two values. -/
def betweenSql (p : Predicate) : Sql :=
  match toSlice p.value with
  | some [lower, upper] => text (p.field ++ ascii " BETWEEN ") ++ value lower ++ text (ascii " AND ") ++ value upper
  | _ => []

/-- A predicate that is not a group. -/
def leafSql (p : Predicate) : Sql :=
  match p.operator with
  | .isNull => text (p.field ++ ascii " " ++ p.operator.text)
  | .isNotNull => text (p.field ++ ascii " " ++ p.operator.text)
  | .isTrue => text (p.field ++ ascii " " ++ p.operator.text)
  | .isFalse => text (p.field ++ ascii " " ++ p.operator.text)
  | .overlaps => overlapSql p
  | .isIn => membershipSql st p
  | .notIn => membershipSql st p
  | .between => betweenSql p
  | .contains => likeSql st p (if st.dialect = .postgres then " ILIKE " else " LIKE ")
  | .notContains => likeSql st p (if st.dialect = .postgres then " NOT ILIKE " else " NOT LIKE ")
  | .like => likeSql st p " LIKE "
  | .notLike => likeSql st p " NOT LIKE "
  | _ => text (p.field ++ ascii " " ++ p.operator.text ++ ascii " ") ++ value p.value

mutual

/-- A predicate; a group stands in parentheses. -/
def predicateSql : Predicate → Sql
  | ⟨field, operator, value, logical, children, raw, literal, search, err⟩ =>
    match operator with
    | .group => text (ascii "(") ++ clauseSql none children ++ text (ascii ")")
    | .search =>
      match search with
      | some s => searchSql st s .condition
      | none => []
    | _ => leafSql st ⟨field, operator, value, logical, children, raw, literal, search, err⟩

/-- The predicates one after the other with their connectives. -/
def clauseSql (previous : Option Bool) : List Predicate → Sql
  | [] => []
  | p :: rest =>
    (if previous.isSome then text (ascii " ") else []) ++
    match p.logical with
    | some connector => text connector.text ++ clauseSql (some true) rest
    | none => (if previous = some false then text (Connector.and.text ++ ascii " ") else []) ++ predicateSql p ++
        clauseSql (some false) rest

end

end Predicates

end Gofi.Sqln
