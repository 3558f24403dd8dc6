import Gofi.Go.Text
import Gofi.Go.Time

/-! `sqln/driver`: the values a query binds, its operators, and what the four
built-in dialects write differently. -/

namespace Gofi.Sqln

open Gofi.Go

/-- A Go value of type `any`. Slices of mixed and of one element type, byte
slices and arrays are told apart; the last three kinds but one are the wrappers
of the dynamic filter. -/
inductive Value where
  | null
  | string (text : Str)
  | int (value : Int)
  | float (bits : UInt64)
  | bool (value : Bool)
  | time (value : Time)
  | bytes (data : Str)
  | list (elements : List Value)
  | typed (elements : List Value)
  | array (elements : List Value)
  | stringValue (text : Str)
  | intValue (value : Int)
  | floatValue (bits : UInt64)
  | other (text : Str)

inductive Sentinel where
  | invalidField
  | invalidValue
  | invalidFilter
  | invalidIndex
  | invalidSearch
  | emptySearch
  | unsupported

structure Err where
  wraps : List Sentinel
  text : Str

structure Library where
  /-- Every invalid byte of a text becomes U+FFFD. -/
  toValidUTF8 : Str → Str
  runeCount : Str → Nat
  /-- `%q` of a string. -/
  quote : Str → Str
  /-- `%v` of any value. -/
  sprint : Value → Str
  /-- `time.Parse` in the layout RFC 3339. -/
  parseTime : Str → Option Time
  /-- The stop words of a language, folded. -/
  stopwords : Str → Str → Bool
  foldAccents : Str → Str
  /-- A pattern that matches a word in all its accented forms. -/
  accentClasses : Str → Str

def Library.plain : Library where
  toValidUTF8 := id
  runeCount := List.length
  quote text := ascii "\"" ++ text ++ ascii "\""
  sprint _ := []
  parseTime _ := none
  stopwords _ _ := false
  foldAccents := id
  accentClasses := id

inductive Operator where
  | eq
  | notEqual
  | less
  | lessOrEqual
  | greater
  | greaterOrEqual
  | isIn
  | notIn
  | overlaps
  | contains
  | notContains
  | like
  | notLike
  | search
  | between
  | isNull
  | isNotNull
  | isTrue
  | isFalse
  | group
  /-- The operator of the zero predicate. -/
  | unset
  deriving DecidableEq

def Operator.text : Operator → Str
  | .eq => ascii "="
  | .notEqual => ascii "!="
  | .less => ascii "<"
  | .lessOrEqual => ascii "<="
  | .greater => ascii ">"
  | .greaterOrEqual => ascii ">="
  | .isIn => ascii "IN"
  | .notIn => ascii "NOT IN"
  | .overlaps => ascii "&&"
  | .contains => ascii "LIKE"
  | .notContains => ascii "NOT LIKE"
  | .like => ascii "~~"
  | .notLike => ascii "!~~"
  | .search => ascii "SEARCH"
  | .between => ascii "BETWEEN"
  | .isNull => ascii "IS NULL"
  | .isNotNull => ascii "IS NOT NULL"
  | .isTrue => ascii "IS TRUE"
  | .isFalse => ascii "IS FALSE"
  | .group => ascii "__group__"
  | .unset => []

def allowedOperators : List Operator :=
  [.eq, .notEqual, .less, .lessOrEqual, .greater, .greaterOrEqual, .isIn, .notIn, .contains, .notContains, .like,
    .notLike, .search, .between, .isNull, .isNotNull, .isTrue, .isFalse, .group]

inductive Connector where
  | and
  | or
  deriving DecidableEq

def Connector.text : Connector → Str
  | .and => ascii "AND"
  | .or => ascii "OR"

inductive Dialect where
  | postgres
  | mysql
  | oracle
  | sqlserver
  deriving DecidableEq

namespace Dialect

def param : Dialect → Nat → Str
  | .postgres, index => ascii "$" ++ formatNat index
  | .mysql, _ => ascii "?"
  | .oracle, index => ascii ":" ++ formatNat index
  | .sqlserver, index => ascii "@p" ++ formatNat index

def like : Dialect → Str → Str → Str
  | .postgres, field, param => field ++ ascii " ILIKE " ++ param
  | _, field, param => field ++ ascii " LIKE " ++ param

def notLike : Dialect → Str → Str → Str
  | .postgres, field, param => field ++ ascii " NOT ILIKE " ++ param
  | _, field, param => field ++ ascii " NOT LIKE " ++ param

def hasArrays : Dialect → Bool
  | .postgres => true
  | _ => false

def hasFullText : Dialect → Bool
  | .postgres => true
  | .mysql => true
  | _ => false

def typeName : Dialect → Str
  | .postgres => ascii "postgres.PostgresDialect"
  | .mysql => ascii "mysql.MySQLDialect"
  | .oracle => ascii "oracle.OracleDialect"
  | .sqlserver => ascii "sqlserver.SQLServerDialect"

def likeWildcards : Dialect → Str
  | .sqlserver => ascii "["
  | _ => []

end Dialect

def arrayMembership (field param : Str) (negate : Bool) : Str :=
  if negate then field ++ ascii " <> ALL(" ++ param ++ ascii ")" else field ++ ascii " = ANY(" ++ param ++ ascii ")"

def arrayOverlap (field param : Str) : Str := field ++ ascii " && " ++ param

def escapeLike (lib : Library) (d : Dialect) (text : Str) : Str :=
  (lib.toValidUTF8 text).flatMap fun byte => if byte ∈ ascii "!%_" ++ d.likeWildcards then [33, byte] else [byte]

def likeEscapeClause : Str := ascii " ESCAPE '!'"

/-! Names that may be written into the text of a query. -/

def isLetter (byte : UInt8) : Bool := (65 ≤ byte && byte ≤ 90) || (97 ≤ byte && byte ≤ 122)

def isDigit (byte : UInt8) : Bool := 48 ≤ byte && byte ≤ 57

def isNameByte (byte : UInt8) : Bool := isLetter byte || isDigit byte || byte = 95 || byte = 36

def isQuoted (closing : UInt8) (text : Str) : Bool :=
  text.getLast? = some closing && text.dropLast ≠ [] && text.dropLast.all fun byte => isNameByte byte || byte = 32

/-- A plain name, or one in double quotes, backquotes or brackets. -/
def isSegment : Str → Bool
  | [] => false
  | 34 :: rest => isQuoted 34 rest
  | 96 :: rest => isQuoted 96 rest
  | 91 :: rest => isQuoted 93 rest
  | first :: rest => (isLetter first || first = 95) && rest.all isNameByte

def isIdentifier (text : Str) : Bool :=
  let segments := text.splitOn 46
  segments.length ≤ 3 && segments.all isSegment

def isColumnName : Str → Bool
  | [] => false
  | first :: rest =>
    (isLetter first || first = 95) && rest.all (fun byte => isLetter byte || isDigit byte || byte = 95) &&
    rest.length ≤ 62

end Gofi.Sqln
