import Gofi.Sqln.Accepted
import Gofi.Sqln.Writes

/-! The text that a list of filters appends, made without looking at a value:
only from the mapping entries that the request names, its conditions, and the
number of values in each list. -/

namespace Gofi.Sqln

open Gofi.Go Gofi.Text
open Sql (text value)

/-- What one filter adds: a connective, a condition or a search. -/
inductive Item where
  | connector (connector : Connector)
  | condition (field : Field) (condition : Str) (absent : Bool) (shape : Option Nat)

/-- The item of a filter, if its field is mapped. -/
def Filter.item (m : Mapping) (f : Filter) : Option Item :=
  if f.logicalOperator = Connector.and.text then some (.connector .and)
  else if f.logicalOperator = Connector.or.text then some (.connector .or)
  else (m f.field).map fun field => .condition field f.condition f.value.isNil f.value.shape

/-- Whether the item is a connective. -/
def Item.joins : Item → Bool
  | .connector _ => true
  | .condition .. => false

/-- What the item names is an identifier: the column, or where a search looks for its index. -/
def Item.Named : Item → Prop
  | .connector _ => True
  | .condition field asked _ _ =>
    if asked = Operator.search.text then field.searchOn = [] ∨ isIdentifier field.searchOn = true
    else isIdentifier field.column = true

/-- The filter asks for the item, under the mapping of its field. -/
structure Requests (m : Mapping) (f : Filter) (item : Item) : Prop where
  found : f.item m = some item
  named : item.Named
  joins : item.joins = decide (f.logicalOperator ≠ [])

/-- A text with places for values. -/
abbrev Outline := Template Unit

namespace Outline

/-- A text without places. -/
def phrase (parts : List Str) : Outline := [.text parts.flatten]

/-- One place. -/
def hole : Outline := [.hole ()]

/-- Outlines with one between them. -/
def join (between : Outline) : List Outline → Outline
  | [] => []
  | [part] => part
  | part :: rest => part ++ between ++ join between rest

end Outline

open Outline (phrase hole)

section Conditions

variable (d : Dialect) (column : Str)

/-- IS NULL and IS NOT NULL. -/
def outlineNull (op : Operator) : Outline := phrase [column, ascii " ", op.text]

/-- A comparison with one value. -/
def outlineComparison (op : Operator) : Outline := phrase [column, ascii " ", op.text, ascii " "] ++ hole

/-- BETWEEN two values. -/
def outlineRange : Outline := phrase [column, ascii " BETWEEN "] ++ hole ++ phrase [ascii " AND "] ++ hole

/-- A pattern, for the column or its text. -/
def outlinePattern (op : Operator) : Outline :=
  let keyword :=
    match op with
    | .contains => if d = .postgres then " ILIKE " else " LIKE "
    | .notContains => if d = .postgres then " NOT ILIKE " else " NOT LIKE "
    | .like => " LIKE "
    | _ => " NOT LIKE "
  phrase [column, ascii keyword] ++ hole ++ phrase [likeEscapeClause]

/-- A list of so many values in parentheses. -/
def outlineList (op : Operator) (count : Nat) : Outline :=
  phrase [column, ascii " ", op.text, ascii " ("] ++ Outline.join (phrase [ascii ", "]) (List.replicate count hole) ++
    phrase [ascii ")"]

/-- A condition for each of so many values. -/
def outlineExpansion (op : Operator) (count : Nat) : Outline :=
  let between := phrase [ascii " "] ++ phrase [Connector.or.text] ++ phrase [ascii " "]
  phrase [ascii "("] ++ Outline.join between (List.replicate count (outlineComparison column op)) ++ phrase [ascii ")"]

/-- The condition of one value. -/
def outlineScalar (op : Operator) : Outline :=
  if op ∈ patterns then outlinePattern d column op
  else if op = .between then outlineRange column
  else outlineComparison column op

/-- The condition of several values. -/
def outlineSeveral (op : Operator) (count : Nat) : Outline :=
  if op = .between then outlineRange column
  else if op = .isIn ∨ op = .eq then outlineList column .isIn count
  else if op = .notIn ∨ op = .notEqual then outlineList column .notIn count
  else outlineExpansion column op count

/-- The condition of a search, with one place. -/
def outlineSearch (index : TextIndex) (qualifier : Str) : Outline :=
  match d with
  | .postgres => phrase [Postgres.document index qualifier, ascii " @@ "] ++
      phrase [ascii "to_tsquery(", Postgres.regconfig index, ascii ", "] ++ hole ++ phrase [ascii ")"]
  | _ => phrase [ascii "MATCH(", join ", " (index.columns.map fun column => Postgres.qualify qualifier column.name),
      ascii ") AGAINST ("] ++ hole ++ phrase [ascii " IN BOOLEAN MODE)"]

/-- The condition of a filter, by the shape of its value. -/
def outlineCondition (field : Field) (condition : Str) (absent : Bool) (shape : Option Nat) : Outline :=
  let op := operatorNamed condition
  if op = .search then (field.search.map fun index => outlineSearch d index field.searchOn).getD []
  else if op = .isNull ∨ op = .isNotNull then outlineNull field.column op
  else if absent then outlineNull field.column .isNull
  else
    match shape with
    | none => outlineScalar d field.column op
    | some 1 => outlineScalar d field.column (operatorNamed (collapse condition))
    | some count => outlineSeveral field.column op count

/-- The items one after the other; AND stands where none is given. -/
def outline (previous : Option Bool) : List Item → Outline
  | [] => []
  | .connector connector :: rest =>
    (if previous.isSome then phrase [ascii " "] else []) ++ phrase [connector.text] ++ outline (some true) rest
  | .condition field condition absent shape :: rest =>
    (if previous.isSome then phrase [ascii " "] else []) ++
    (if previous = some false then phrase [Connector.and.text, ascii " "] else []) ++
    outlineCondition d field condition absent shape ++ outline (some false) rest

end Conditions

/-! The inline text of what is emitted has this outline. -/

section Skeleton

variable {st : Setting}

@[simp] theorem skeleton_text (part : Str) : (text part).skeleton = [.text part] := rfl

@[simp] theorem skeleton_value (v : Value) : (value v).skeleton = hole := rfl

@[simp] theorem skeleton_nil : Template.skeleton ([] : Sql) = [] := rfl

private theorem skeleton_join (between : Str) (parts : List Sql) :
    (Sql.join between parts).skeleton = Outline.join (phrase [between]) (parts.map Template.skeleton) := by
  induction parts with
  | nil => rfl
  | cons part rest ih =>
    cases rest with
    | nil => rfl
    | cons next rest => simpa [Sql.join, Outline.join, phrase] using ih

variable {condition : Str} {op : Operator}

theorem text_of_operatorNamed (named : operatorNamed condition = op) (known : op ≠ .unset) : condition = op.text := by
  unfold operatorNamed at named
  cases found : allowedOperators.find? (·.text = condition) with
  | none =>
    rw [found] at named
    exact absurd named.symm known
  | some other =>
    rw [found] at named
    cases named
    exact (by simpa using List.find?_some found : other.text = condition).symm

variable {column : Str}

theorem skeleton_compare (v : Value) (listed : op ∈ comparisons) :
    (predicateSql st (Criteria.compare op column v)).skeleton = outlineComparison column op := by
  simp only [comparisons, List.mem_cons, List.not_mem_nil, or_false] at listed
  rcases listed with rfl | rfl | rfl | rfl | rfl | rfl <;>
    simp [Criteria.compare, predicateSql, leafSql, outlineComparison, phrase]

theorem skeleton_between (lower upper : Value) :
    (predicateSql st (Criteria.between column lower upper)).skeleton = outlineRange column := by
  simp [Criteria.between, Criteria.compare, predicateSql, leafSql, betweenSql, toSlice, outlineRange, phrase]

private theorem skeleton_pattern (literal : Str) (listed : op ∈ patterns) :
    (predicateSql st (Criteria.compare op column (.string literal)).substring).skeleton =
      outlinePattern st.dialect column op := by
  simp only [patterns, List.mem_cons, List.not_mem_nil, or_false] at listed
  rcases listed with rfl | rfl | rfl | rfl <;>
    simp [Criteria.compare, Predicate.substring, predicateSql, leafSql, likeSql, Builder.likePattern, outlinePattern,
      phrase]

variable {p : Predicate}

theorem skeleton_scalar (built : OnScalar column condition p) :
    (predicateSql st p).skeleton = outlineScalar st.dialect column (operatorNamed condition) := by
  cases built with
  | comparison listed v =>
    rw [skeleton_compare v listed]
    simp only [comparisons, List.mem_cons, List.not_mem_nil, or_false] at listed
    rcases listed with rfl | rfl | rfl | rfl | rfl | rfl <;> rfl
  | pattern listed literal =>
    rw [skeleton_pattern literal listed]
    simp only [patterns, List.mem_cons, List.not_mem_nil, or_false] at listed
    rcases listed with rfl | rfl | rfl | rfl <;> rfl
  | range start stop => exact skeleton_between _ _

variable {slice : List Value}

theorem skeleton_list (listed : op ∈ [Operator.isIn, .notIn]) (long : 2 ≤ slice.length) :
    (predicateSql st (Criteria.compare op column (.list slice))).skeleton = outlineList column op slice.length := by
  cases slice with
  | nil => simp at long
  | cons first rest =>
    have holes : (List.map value (first :: rest)).map Template.skeleton = List.replicate (rest.length + 1) hole := by
      rw [List.map_map, show (Template.skeleton ∘ value) = fun _ => hole from rfl, List.map_const', List.length_cons]
    have listing := skeleton_join (ascii ", ") (List.map value (first :: rest))
    rw [holes] at listing
    simp only [List.mem_cons, List.not_mem_nil, or_false] at listed
    rcases listed with rfl | rfl
    all_goals
      simp only [Criteria.compare, predicateSql, leafSql, membershipSql, toSlice, isTypedSlice, Bool.and_false,
        Bool.false_eq_true, ↓reduceIte, Template.skeleton_append, listing, outlineList, List.length_cons,
          skeleton_text,
        phrase, List.flatten_cons, List.flatten_nil, List.append_nil, List.append_assoc]

variable {rest : List Predicate}

private theorem clauseSql_condition (condition : p.logical = none) :
    clauseSql st none (p :: rest) = predicateSql st p ++ clauseSql st (some false) rest := by
  simp [clauseSql, condition]

private theorem clauseSql_connector {after : Bool}
    (connects : p.logical = some connector) : clauseSql st (some after) (p :: rest) =
      text (ascii " ") ++ (text connector.text ++ clauseSql st (some true) rest) := by
  simp [clauseSql, connects]

private theorem clauseSql_after (condition : p.logical = none) :
    clauseSql st (some true) (p :: rest) = text (ascii " ") ++ clauseSql st none (p :: rest) := by
  simp [clauseSql, condition]

private theorem skeleton_alternatives (slice : List Value) (listed : op ∈ comparisons) :
    (clauseSql st none ((slice.map (Criteria.compare op column)).intersperse Criteria.or)).skeleton =
      Outline.join (phrase [ascii " "] ++ phrase [Connector.or.text] ++ phrase [ascii " "])
        (List.replicate slice.length (outlineComparison column op)) := by
  induction slice with
  | nil => rfl
  | cons v rest ih =>
    have here : (predicateSql st (Criteria.compare op column v)).skeleton = _ := skeleton_compare v listed
    cases rest with
    | nil => simpa [clauseSql, Criteria.compare, Outline.join] using here
    | cons next rest =>
      obtain ⟨tail, shape⟩ : ∃ tail, ((next :: rest).map (Criteria.compare op column)).intersperse Criteria.or =
          Criteria.compare op column next :: tail := by
        cases rest with
        | nil | cons other rest => exact ⟨_, rfl⟩
      have begun : ((v :: next :: rest).map (Criteria.compare op column)).intersperse Criteria.or =
          Criteria.compare op column v :: Criteria.or :: Criteria.compare op column next :: tail := by
        rw [← shape]
        rfl
      rw [shape] at ih
      have connected :
        clauseSql st none (Criteria.compare op column v :: Criteria.or :: Criteria.compare op column next :: tail) =
          predicateSql st (Criteria.compare op column v) ++ (text (ascii " ") ++ (text Connector.or.text ++
            clauseSql st (some true) (Criteria.compare op column next :: tail))) := by
        rw [clauseSql_condition rfl, clauseSql_connector rfl]
      rw [begun, connected, clauseSql_after rfl, Template.skeleton_append, Template.skeleton_append,
        Template.skeleton_append, Template.skeleton_append, here, ih]
      simp [Outline.join, List.replicate_succ, phrase]

private theorem skeleton_several (long : 2 ≤ slice.length) (built : OnSeveral column slice condition p) :
    (predicateSql st p).skeleton = outlineSeveral column (operatorNamed condition) slice.length := by
  cases built with
  | range start stop => exact skeleton_between _ _
  | isIn listed =>
    have whole : (predicateSql st (Criteria.isIn column (.list slice))).skeleton = _ := skeleton_list (by decide) long
    simp only [List.mem_cons, List.not_mem_nil, or_false] at listed
    rcases listed with rfl | rfl
    all_goals exact whole
  | notIn listed =>
    have whole : (predicateSql st (Criteria.notIn column (.list slice))).skeleton = _ := skeleton_list (by decide) long
    simp only [List.mem_cons, List.not_mem_nil, or_false] at listed
    rcases listed with rfl | rfl
    all_goals exact whole
  | expansion listed =>
    rename_i op
    have known : op ∈ comparisons := by
      simp only [List.mem_cons, List.not_mem_nil, or_false] at listed
      rcases listed with rfl | rfl | rfl | rfl <;> decide
    have expanded : (predicateSql st (Criteria.group ((slice.map (Criteria.compare op column)).intersperse
        Criteria.or))).skeleton = outlineExpansion column op slice.length := by
      unfold Criteria.group predicateSql
      dsimp only
      rw [Template.skeleton_append, Template.skeleton_append, skeleton_alternatives slice known]
      rfl
    rw [expanded]
    simp only [List.mem_cons, List.not_mem_nil, or_false] at listed
    rcases listed with rfl | rfl | rfl | rfl <;> rfl

/-- The condition compares with a value. -/
def NeedsValue (condition : Str) : Prop :=
  condition ≠ Operator.search.text ∧ condition ≠ Operator.isNull.text ∧ condition ≠ Operator.isNotNull.text

theorem OnScalar.needsValue (built : OnScalar column condition p) : NeedsValue condition := by
  have apart : ∀ op ∈ comparisons ++ patterns ++ [.between],
      op ∈ allowedOperators ∧ op ≠ .search ∧ op ≠ .isNull ∧ op ≠ .isNotNull := by decide
  have known (op : Operator) (listed : op ∈ comparisons ++ patterns ++ [.between]) : NeedsValue op.text := by
    obtain ⟨allowed, search, isNull, isNotNull⟩ := apart op listed
    exact ⟨fun same => search (text_inj allowed (by decide) same), fun same =>
      isNull (text_inj allowed (by decide) same),
      fun same => isNotNull (text_inj allowed (by decide) same)⟩
  cases built with
  | comparison listed v | pattern listed literal => exact known _ (by simp [listed])
  | range start stop => exact known .between (by simp)

theorem OnSeveral.needsValue (built : OnSeveral column slice condition p) : NeedsValue condition := by
  have known :
    ∀ op ∈ [Operator.between, .isIn, .eq, .notIn, .notEqual, .less, .lessOrEqual, .greater, .greaterOrEqual],
      op.text ≠ Operator.search.text ∧ op.text ≠ Operator.isNull.text ∧ op.text ≠ Operator.isNotNull.text := by decide
  cases built with
  | range start stop => exact known .between (by simp)
  | isIn listed | notIn listed => exact known _ (by revert listed; simp +contextual [or_imp])
  | expansion listed => exact known _ (by revert listed; simp +contextual)

private theorem needsValue_of_collapse (needs : NeedsValue (collapse condition)) : NeedsValue condition := by
  obtain ⟨notSearch, notNull, notNotNull⟩ := needs
  refine ⟨?_, ?_, ?_⟩
  · rintro rfl
    exact notSearch rfl
  · rintro rfl
    exact notNull rfl
  · rintro rfl
    exact notNotNull rfl

theorem operatorNamed_ne (known : op ≠ .unset) (different : condition ≠ op.text) :
    operatorNamed condition ≠ op := fun named => different (text_of_operatorNamed named known)

variable {field : Field}

theorem outlineCondition_value {shape : Option Nat}
    (needs : NeedsValue condition) : outlineCondition d field condition false shape =
      match shape with
      | none => outlineScalar d field.column (operatorNamed condition)
      | some 1 => outlineScalar d field.column (operatorNamed (collapse condition))
      | some count => outlineSeveral field.column (operatorNamed condition) count := by
  have notNull := operatorNamed_ne (by decide) needs.2.1
  have notNotNull := operatorNamed_ne (by decide) needs.2.2
  unfold outlineCondition
  rw [if_neg (operatorNamed_ne (by decide) needs.1), if_neg (by simp [notNull, notNotNull])]
  rfl

theorem skeleton_null (listed : op ∈ [Operator.isNull, .isNotNull]) :
    (predicateSql st { field := column, operator := op }).skeleton = outlineNull column op := by
  simp only [List.mem_cons, List.not_mem_nil, or_false] at listed
  rcases listed with rfl | rfl <;> simp [predicateSql, leafSql, outlineNull, phrase]

private theorem skeleton_emitted {given : Value}
    (notSearch : condition ≠ Operator.search.text) (emits : Emits field.column condition given p) :
    (predicateSql st p).skeleton = outlineCondition st.dialect field condition given.isNil given.shape := by
  cases emits with
  | isNull asked =>
    have named : operatorNamed condition = .isNull := asked ▸ operatorNamed_text .isNull (by decide)
    rw [Criteria.isNull, skeleton_null (by simp)]
    simp [outlineCondition, named]
  | isNotNull asked =>
    have named : operatorNamed condition = .isNotNull := asked ▸ operatorNamed_text .isNotNull (by decide)
    rw [Criteria.isNotNull, skeleton_null (by simp)]
    simp [outlineCondition, named]
  | absent asked =>
    have notNull := operatorNamed_ne (by decide) asked.1
    have notNotNull := operatorNamed_ne (by decide) asked.2
    have notSearching := operatorNamed_ne (by decide) notSearch
    rw [Criteria.isNull, skeleton_null (by simp)]
    simp [outlineCondition, notNull, notNotNull, notSearching, Value.isNil]
  | scalar present one built =>
    rw [skeleton_scalar built, present, outlineCondition_value built.needsValue, Value.shape, one]
    rfl
  | single one built =>
    have present : given.isNil = false := by cases given <;> first | rfl | cases one
    rw [skeleton_scalar built, present, outlineCondition_value (needsValue_of_collapse built.needsValue), Value.shape,
      one]
    rfl
  | several all long built =>
    rename_i slice
    have present : given.isNil = false := by cases given <;> first | rfl | cases all
    rw [skeleton_several long built, present, outlineCondition_value built.needsValue, Value.shape, all,
      Option.map_some]
    obtain ⟨first, second, rest, rfl⟩ : ∃ first second rest, slice = first :: second :: rest := by
      rcases slice with - | ⟨first, - | ⟨second, rest⟩⟩
      · simp at long
      · simp at long
      · exact ⟨first, second, rest, rfl⟩
    rfl

theorem qualifier_spec (noTables : st.tables = none)
    (qualified : Builder.qualifier st s idx = .ok aliased) :
    aliased = s.qualifier ∧ (s.qualifier = [] ∨ isIdentifier s.qualifier = true) := by
  unfold Builder.qualifier at qualified
  split at qualified
  · split at qualified <;> cases qualified
    rename_i identifier
    exact ⟨rfl, .inr identifier⟩
  · rename_i empty
    have none_given : s.qualifier = [] := by simpa using empty
    rw [noTables] at qualified
    cases qualified
    exact ⟨none_given.symm, .inl none_given⟩

private theorem skeleton_search {term : Str} (noTables : st.tables = none)
    (indexed : field.search = some index)
    (rendered : ∃ target, Builder.textTarget st ⟨some index, term, field.searchMode, field.searchOn⟩ .condition =
      .ok target) :
    (predicateSql st (Criteria.matching ⟨some index, term, field.searchMode, field.searchOn⟩)).skeleton =
      outlineCondition st.dialect field Operator.search.text false none := by
  obtain ⟨⟨idx, aliased, q⟩, target⟩ := rendered
  obtain ⟨supported, same, qualified, _⟩ := Builder.textTarget_spec st target
  cases same
  have unqualified : aliased = field.searchOn := (qualifier_spec noTables qualified).1
  subst unqualified
  have searched : operatorNamed Operator.search.text = .search := operatorNamed_text .search (by decide)
  have written : predicateSql st (Criteria.matching ⟨some index, term, field.searchMode, field.searchOn⟩) =
      textSql st index field.searchOn q .condition := by
    simp [Criteria.matching, predicateSql, searchSql, target]
  rw [written]
  cases dialect : st.dialect with
  | postgres =>
    simp [textSql, dialect, Postgres.textSql, Postgres.tsquerySql, outlineCondition, searched, indexed, outlineSearch,
      phrase]
  | mysql =>
    simp [textSql, dialect, MySQL.textSql, MySQL.matchSql, outlineCondition, searched, indexed, outlineSearch, phrase,
      Postgres.qualify]
  | oracle | sqlserver => simp [dialect, Dialect.hasFullText] at supported

/-- The predicate renders to what the item says. -/
def Item.Shows (st : Setting) : Item → Predicate → Prop
  | .connector joining, p => p.logical = some joining
  | .condition field asked absent shape, p => p.logical = none ∧
      (predicateSql st p).skeleton = outlineCondition st.dialect field asked absent shape

variable {predicates : List Predicate}

private theorem skeleton_clause
    (shows_ : List.Forall₂ (Item.Shows st) items predicates) (previous : Option Bool) :
    (clauseSql st previous predicates).skeleton = outline st.dialect previous items := by
  induction shows_ generalizing previous with
  | nil => rfl
  | @cons item p items predicates here _ ih =>
    have spaced : Template.skeleton (if previous.isSome then text (ascii " ") else []) =
        if previous.isSome then phrase [ascii " "] else [] := by split <;> simp [phrase]
    have joined : Template.skeleton (if previous = some false then text (Connector.and.text ++ ascii " ") else []) =
        if previous = some false then phrase [Connector.and.text, ascii " "] else [] := by split <;> simp [phrase]
    cases item with
    | connector connector =>
      have connects : p.logical = some connector := here
      simp [clauseSql, connects, outline, ih, spaced, phrase]
    | condition field condition absent shape =>
      obtain ⟨unconnected, same⟩ := here
      simp [clauseSql, unconnected, outline, ih, spaced, joined, same]

theorem OnScalar.logical (built : OnScalar column condition p) : p.logical = none := by
  cases built <;> rfl

theorem Emits.logical {given : Value} (emits : Emits column condition given p) : p.logical = none := by
  cases emits with
  | isNull | isNotNull | absent => rfl
  | scalar _ _ built | single _ built => exact built.logical
  | several _ _ built => cases built <;> rfl

variable {b : Builder}

private theorem written_of_clause (fine : (Builder.writeClause st b previous predicates).err = none) :
    ∀ p ∈ predicates, p.logical = none → ∃ before, (Builder.writePredicate st before p).err = none := by
  induction predicates generalizing previous b with
  | nil => nofun
  | cons p rest ih =>
    unfold Builder.writeClause at fine
    intro q member condition
    cases connected : p.logical with
    | some connector =>
      rw [connected] at fine
      rcases List.mem_cons.mp member with rfl | later
      · cases connected.symm.trans condition
      · exact ih fine q later condition
    | none =>
      rw [connected] at fine
      have onward : Writes st _ _ := writes_clause (some false) rest
      rcases List.mem_cons.mp member with rfl | later
      · exact ⟨_, (onward _ fine).1⟩
      · exact ih fine q later condition

private theorem target_of_written (fine : (Builder.writePredicate st b (Criteria.matching s)).err = none) :
    ∃ target, Builder.textTarget st s .condition = .ok target := by
  unfold Criteria.matching Builder.writePredicate at fine
  cases target : Builder.textTarget st s .condition with
  | ok found => exact ⟨found, rfl⟩
  | error err =>
    have failed : (b.fail err).err = none := by
      simpa [Builder.writeSearch, Builder.textExpr, target, Builder.write] using fine
    cases found : b.err <;> simp [Builder.fail, found] at failed

theorem item_of_accepted (noTables : st.tables = none)
    (accepted : Accepts m f p) (fine : p.logical = none → (Builder.writePredicate st b p).err = none) :
    ∃ item, Requests m f item ∧ item.Shows st p := by
  cases accepted with
  | connector connector named =>
    refine ⟨.connector connector, ⟨?_, trivial, ?_⟩, rfl⟩
    · cases connector <;> simp [Filter.item, named, Connector.text, ascii]
    · rw [named]
      cases connector <;> rfl
  | search condition mapped allowed asked indexed given =>
    rename_i field index term
    obtain ⟨⟨idx, aliased, q⟩, target⟩ := target_of_written (fine rfl)
    obtain ⟨_, _, qualified, _⟩ := Builder.textTarget_spec st target
    refine ⟨.condition field f.condition f.value.isNil f.value.shape, ⟨?_, ?_, ?_⟩, rfl, ?_⟩
    · simp [Filter.item, condition, mapped, Connector.text, ascii]
    · rw [Item.Named, if_pos asked]
      exact (qualifier_spec noTables qualified).2
    · simp [Item.joins, condition]
    · rw [skeleton_search noTables indexed ⟨_, target⟩, asked, given]
      rfl
  | condition condition mapped allowed asked named emits =>
    rename_i field
    refine ⟨.condition field f.condition f.value.isNil f.value.shape, ⟨?_, ?_, ?_⟩, emits.logical,
      skeleton_emitted asked emits⟩
    · simp [Filter.item, condition, mapped, Connector.text, ascii]
    · rwa [Item.Named, if_neg asked]
    · simp [Item.joins, condition]

private theorem items_of_accepted (accepted : List.Forall₂ (Accepts m) fs predicates)
    (shown : ∀ f, ∀ p ∈ predicates, Accepts m f p → ∃ item, Requests m f item ∧ item.Shows st p) :
    ∃ items, List.Forall₂ (Requests m) fs items ∧ List.Forall₂ (Item.Shows st) items predicates := by
  induction accepted with
  | nil => exact ⟨[], .nil, .nil⟩
  | cons here _ ih =>
    obtain ⟨item, asked, shows_⟩ := shown _ _ (List.mem_cons_self ..) here
    obtain ⟨items, others, later⟩ := ih fun f p member => shown f p (List.mem_cons_of_mem _ member)
    exact ⟨item :: items, .cons asked others, .cons shows_ later⟩

end Skeleton

/-- The text of an accepted request is the outline of its items. -/
theorem query_outline {lib : Library} {parse : Parser} {result : QueryParam} (nonempty : filters ≠ [])
    (ok : buildFilters lib parse base args (some filters) m d opts = .ok result) :
    ∃ fs items, filters = List.map some fs ∧ List.Forall₂ (Requests m) fs items ∧
      validateLogicalPlacement filters = .ok () ∧
      result.query = base ++ ascii " AND ( " ++ (outline d none items).render d.param args.length ++ ascii " )" := by
  obtain ⟨fs, predicates, clause, all, emitted, placed, built, query⟩ := buildFilters_spec nonempty ok
  have accepted : List.Forall₂ (Accepts m) fs predicates := emitted.imp fun _ _ => predicate_accepts
  obtain ⟨written, _⟩ := buildClauseAfter_eq built
  have fine := fine_of_buildClauseAfter built
  have shown : ∀ f, ∀ p ∈ predicates, Accepts m f p →
      ∃ item, Requests m f item ∧ item.Shows ⟨lib, parse, d, none⟩ p := by
    intro f p member accepts
    by_cases condition : p.logical = none
    · obtain ⟨before, quiet⟩ := written_of_clause fine p member condition
      exact item_of_accepted rfl accepts fun _ => quiet
    · exact item_of_accepted (b := ⟨args, [], none⟩) rfl accepts fun unconnected => absurd unconnected condition
  obtain ⟨items, asked, shows_⟩ := items_of_accepted accepted shown
  refine ⟨fs, items, all, asked, placed, ?_⟩
  rw [query, written, ← Template.render_skeleton, skeleton_clause shows_]

theorem items_of_requests {fs : List Filter} (asked : List.Forall₂ (Requests m) fs items) :
    fs.map (Filter.item m) = List.map some items := by
  induction asked with
  | nil => rfl
  | cons here _ ih => rw [List.map_cons, List.map_cons, here.found, ih]

end Gofi.Sqln
