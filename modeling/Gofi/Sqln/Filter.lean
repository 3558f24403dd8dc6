import Gofi.Sqln.Criteria

/-! `sqln/filter`: conditions that a client sends, resolved through an allowlist
of fields and appended to a query. Logging is left out. -/

namespace Gofi.Sqln

open Gofi.Go

structure Filter where
  field : Str
  condition : Str
  value : Value
  logicalOperator : Str

structure Field where
  column : Str
  /-- The accepted conditions; when there are none, every operator is. -/
  ops : List Str
  search : Option TextIndex
  searchMode : Mode
  searchOn : Str

abbrev Mapping := Str → Option Field

/-! Bounds of a request. -/

structure Limits where
  maxFilters : Int
  maxInValues : Int
  maxLikeLength : Int

inductive FilterOption where
  | withMaxFilters (n : Int)
  | withMaxInValues (n : Int)
  | withMaxLikeLength (n : Int)

def FilterOption.apply (l : Limits) : FilterOption → Limits
  | .withMaxFilters n => { l with maxFilters := n }
  | .withMaxInValues n => { l with maxInValues := n }
  | .withMaxLikeLength n => { l with maxLikeLength := n }

def newLimits (opts : List FilterOption) : Limits :=
  let l := opts.foldl FilterOption.apply ⟨0, 0, 0⟩
  ⟨if l.maxFilters ≤ 0 then 50 else l.maxFilters, if l.maxInValues ≤ 0 then 1000 else l.maxInValues,
    if l.maxLikeLength ≤ 0 then 256 else l.maxLikeLength⟩

def likeConditions : List Str :=
  [Operator.contains, .notContains, .like, .notLike, .search].map Operator.text

def countConditions (filters : List (Option Filter)) : Nat :=
  filters.countP fun f => f.any (·.logicalOperator = [])

def toAnySlice : Value → Option (List Value)
  | .list elements => some elements
  | .typed elements => some elements
  | .array elements => some elements
  | .bytes data => some (data.map fun byte => .other (formatNat byte.toNat))
  | _ => none

section Library

variable (lib : Library)

def Limits.check (l : Limits) (f : Filter) : Except Str Unit :=
  let long (v : Value) : Bool :=
    match v with
    | .string text => lib.runeCount text > l.maxLikeLength
    | _ => false
  match toAnySlice f.value with
  | some values =>
    if values.length > l.maxInValues then
      .error (ascii "field " ++ lib.quote f.field ++ ascii ": " ++ formatNat values.length ++
        ascii " values exceed the limit of " ++ formatInt l.maxInValues)
    else bounded long values
  | none => bounded long [f.value]
where
  bounded (long : Value → Bool) (values : List Value) : Except Str Unit :=
    if f.condition ∉ likeConditions then .ok ()
    else if values.any long then
      .error (ascii "field " ++ lib.quote f.field ++ ascii ": value exceeds " ++ formatInt l.maxLikeLength ++
        ascii " characters")
    else .ok ()

/-! Predicates. -/

inductive Resolved where
  | string (text : Str)
  | float (bits : UInt64)
  | int (value : Int)
  | times (start stop : Time)

def parseBetweenDates (text : Str) : Option (Time × Time) :=
  match text.splitOn 124 with
  | [start, stop] =>
    match lib.parseTime start, lib.parseTime stop with
    | some start, some stop => some (start, stop)
    | _, _ => none
  | _ => none

def resolveValueType : Value → Resolved
  | .string text =>
    match parseBetweenDates lib text with
    | some (start, stop) => .times start stop
    | none => .string text
  | .int value => .int value
  | .float bits => .float bits
  | value => .string (lib.sprint value)

def scalarConditionPredicate (field condition : Str) (value : Value) : Option Predicate :=
  if condition = Operator.eq.text then some (Criteria.eq field value)
  else if condition = Operator.notEqual.text then some (Criteria.ne field value)
  else if condition = Operator.less.text then some (Criteria.lt field value)
  else if condition = Operator.lessOrEqual.text then some (Criteria.lte field value)
  else if condition = Operator.greater.text then some (Criteria.gt field value)
  else if condition = Operator.greaterOrEqual.text then some (Criteria.gte field value)
  else none

def buildScalarPredicate (field condition : Str) (value : Value) : Option Predicate :=
  match resolveValueType lib value with
  | .string text =>
    if condition = Operator.contains.text then some (Criteria.contains field text).substring
    else if condition = Operator.notContains.text then some (Criteria.notContains field text).substring
    else if condition = Operator.like.text then some (Criteria.like field text).substring
    else if condition = Operator.notLike.text then some (Criteria.notLike field text).substring
    else scalarConditionPredicate field condition (.stringValue text)
  | .float bits => scalarConditionPredicate field condition (.floatValue bits)
  | .int value => scalarConditionPredicate field condition (.intValue value)
  | .times start stop =>
    if condition = Operator.between.text then some (Criteria.between field (.time start) (.time stop)) else none

def buildSingleElementPredicate (field condition : Str) (value : Value) : Option Predicate :=
  let cond :=
    if condition = Operator.isIn.text then Operator.eq.text
    else if condition = Operator.notIn.text then Operator.notEqual.text
    else condition
  buildScalarPredicate lib field cond value

def buildBetweenPredicate (field : Str) : List Value → Option Predicate
  | [.time start, .time stop] => some (Criteria.between field (.time start) (.time stop))
  | _ => none

def orParts (field condition : Str) : List Value → Option (List Predicate)
  | [] => some []
  | [value] => do
    let p ← scalarConditionPredicate field condition value
    pure [p]
  | value :: rest => do
    let p ← scalarConditionPredicate field condition value
    let parts ← orParts field condition rest
    pure (p :: Criteria.or :: parts)

def buildOrExpansion (field condition : Str) (slice : List Value) : Option Predicate :=
  (orParts field condition slice).map Criteria.group

def buildSlicePredicate (field condition : Str) : List Value → Option Predicate
  | [] => none
  | [value] => buildSingleElementPredicate lib field condition value
  | slice =>
    if condition = Operator.between.text then buildBetweenPredicate field slice
    else if condition = Operator.isIn.text ∨ condition = Operator.eq.text then some (Criteria.isIn field (.list slice))
    else if condition = Operator.notIn.text ∨ condition = Operator.notEqual.text then
      some (Criteria.notIn field (.list slice))
    else buildOrExpansion field condition slice

def filterToPredicate (f : Filter) : Option Predicate :=
  if f.logicalOperator ≠ [] then
    if f.logicalOperator = Connector.and.text then some Criteria.and
    else if f.logicalOperator = Connector.or.text then some Criteria.or
    else none
  else if !isIdentifier f.field then none
  else if f.condition = Operator.isNull.text then some (Criteria.isNull f.field)
  else if f.condition = Operator.isNotNull.text then some (Criteria.isNotNull f.field)
  else
    match f.value with
    | .null => some (Criteria.isNull f.field)
    | value =>
      if !allowedOperators.any (·.text = f.condition) then none
      else
        match toAnySlice value with
        | some slice => buildSlicePredicate lib f.field f.condition slice
        | none => buildScalarPredicate lib f.field f.condition value

/-! The mapping. -/

def Value.isNil : Value → Bool
  | .null => true
  | _ => false

def Filter.asked (f : Filter) : Str := if f.value.isNil && f.condition = [] then Operator.isNull.text else f.condition

def Field.searchPredicate (field : Field) (f : Filter) : Except Str Predicate :=
  match field.search with
  | none => .error (ascii "field " ++ lib.quote f.field ++ ascii " has no full-text index")
  | some index =>
    match f.value with
    | .string term => .ok (Criteria.matching ⟨some index, term, field.searchMode, field.searchOn⟩)
    | _ => .error (ascii "field " ++ lib.quote f.field ++ ascii ": SEARCH requires a string")

def Mapping.predicate (m : Mapping) : Option Filter → Except Str Predicate
  | none => .error (ascii "nil filter")
  | some f =>
    if f.logicalOperator ≠ [] then
      match filterToPredicate lib f with
      | some p => .ok p
      | none => .error (ascii "invalid logical operator: " ++ f.logicalOperator)
    else
      match m f.field with
      | none => .error (ascii "field " ++ lib.quote f.field ++ ascii " is not in the mapping")
      | some field =>
        if field.ops ≠ [] ∧ f.asked ∉ field.ops then
          .error (ascii "condition " ++ lib.quote f.asked ++ ascii " is not allowed for field " ++ lib.quote f.field)
        else if f.asked = Operator.search.text then field.searchPredicate lib f
        else if !isIdentifier field.column then
          .error
            (ascii "mapping for " ++ lib.quote f.field ++ ascii " has an invalid column " ++ lib.quote field.column)
        else
          match filterToPredicate lib { f with field := field.column } with
          | some p => .ok p
          | none =>
            .error (ascii "field " ++ lib.quote f.field ++ ascii ": invalid condition " ++ lib.quote f.condition ++
              ascii " or value")

def Mapping.checkedPredicate (m : Mapping) (lim : Limits) (f : Option Filter) : Except Str Predicate :=
  match f with
  | some g =>
    if g.logicalOperator = [] then
      match lim.check lib g with
      | .error err => .error err
      | .ok () => m.predicate lib f
    else m.predicate lib f
  | none => m.predicate lib f

def validateLogicalPlacement (filters : List (Option Filter)) : Except Str Unit :=
  let logical (f : Option Filter) : Bool := f.any (·.logicalOperator ≠ [])
  if filters.head?.any logical then .error (ascii "filter list cannot start with a logical operator")
  else if filters.getLast?.any logical then .error (ascii "filter list cannot end with a logical operator")
  else if (filters.zip filters.tail).any fun (f, next) => logical f && logical next then
    .error (ascii "consecutive logical operators are not allowed")
  else .ok ()

def Mapping.resolve (m : Mapping) (lim : Limits) (i : Nat) : List (Option Filter) → List Str × List Predicate
  | [] => ([], [])
  | f :: rest =>
    let (errs, predicates) := resolve m lim (i + 1) rest
    match m.checkedPredicate lib lim f with
    | .error err => ((ascii "sqln/filter: invalid filter at " ++ formatNat i ++ ascii ": " ++ err) :: errs, predicates)
    | .ok p => (errs, p :: predicates)

structure QueryParam where
  query : Str
  params : List Value

def invalidFilter (detail : Str) : Err := ⟨[.invalidFilter], ascii "sqln/filter: invalid filter: " ++ detail⟩

/-- Appends the filters to `base`, which must end inside a WHERE clause. Any
invalid filter rejects the whole set. `filters` is none for a nil pointer. -/
def buildFilters (parse : Parser) (base : Str) (args : List Value) (filters : Option (List (Option Filter)))
    (m : Mapping)
    (d : Dialect) (opts : List FilterOption) : Except Err QueryParam :=
  match filters with
  | none => .ok ⟨base, args⟩
  | some [] => .ok ⟨base, args⟩
  | some filters =>
    let lim := newLimits opts
    if countConditions filters > lim.maxFilters then
      .error (invalidFilter (formatNat (countConditions filters) ++ ascii " conditions exceed the limit of " ++
        formatInt lim.maxFilters))
    else
      let placement :=
        match validateLogicalPlacement filters with
        | .error err => [ascii "sqln/filter: invalid filter: " ++ err]
        | .ok () => []
      let (errs, predicates) := m.resolve lib lim 0 filters
      match placement ++ errs with
      | [] =>
        match buildClauseAfter lib parse args predicates d with
        | .error err => .error ⟨.invalidFilter :: err.wraps, ascii "sqln/filter: invalid filter: " ++ err.text⟩
        | .ok (clause, params) => .ok ⟨base ++ ascii " AND ( " ++ clause ++ ascii " )", params⟩
      | problems => .error ⟨[.invalidFilter], join "\n" problems⟩

end Library

end Gofi.Sqln
