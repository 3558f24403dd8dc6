import Gofi.Sqln.Filter
import Mathlib.Data.List.Forall2

/-! What is emitted for a filter that is accepted: one case for each path from
the requested condition and the form of the value to a predicate. -/

namespace Gofi.Sqln

open Gofi.Go

def Value.shape (v : Value) : Option Nat := (toAnySlice v).map List.length

def comparisons : List Operator := [.eq, .notEqual, .less, .lessOrEqual, .greater, .greaterOrEqual]

def patterns : List Operator := [.contains, .notContains, .like, .notLike]

inductive OnScalar (column : Str) : Str → Predicate → Prop
  | comparison {op : Operator} (listed : op ∈ comparisons) (value : Value) :
      OnScalar column op.text (Criteria.compare op column value)
  | pattern {op : Operator} (listed : op ∈ patterns) (text : Str) :
      OnScalar column op.text (Criteria.compare op column (.string text)).substring
  | range (start stop : Time) :
      OnScalar column Operator.between.text (Criteria.between column (.time start) (.time stop))

inductive OnSeveral (column : Str) (slice : List Value) : Str → Predicate → Prop
  | range (start stop : Time) :
      OnSeveral column slice Operator.between.text (Criteria.between column (.time start) (.time stop))
  | isIn {op : Operator} (listed : op ∈ [Operator.isIn, .eq]) :
      OnSeveral column slice op.text (Criteria.isIn column (.list slice))
  | notIn {op : Operator} (listed : op ∈ [Operator.notIn, .notEqual]) :
      OnSeveral column slice op.text (Criteria.notIn column (.list slice))
  | expansion {op : Operator} (listed : op ∈ [Operator.less, .lessOrEqual, .greater, .greaterOrEqual]) :
      OnSeveral column slice op.text
        (Criteria.group ((slice.map (Criteria.compare op column)).intersperse Criteria.or))

def collapse (condition : Str) : Str :=
  if condition = Operator.isIn.text then Operator.eq.text
  else if condition = Operator.notIn.text then Operator.notEqual.text
  else condition

def operatorNamed (condition : Str) : Operator := (allowedOperators.find? (·.text = condition)).getD .unset

theorem operatorNamed_text : ∀ op ∈ allowedOperators, operatorNamed op.text = op := by decide

theorem text_inj {op other : Operator} (one : op ∈ allowedOperators) (two : other ∈ allowedOperators)
    (same : op.text = other.text) : op = other := by
  rw [← operatorNamed_text op one, same, operatorNamed_text other two]

inductive Emits (column condition : Str) : Value → Predicate → Prop
  | isNull (asked : condition = Operator.isNull.text) (value : Value) :
    Emits column condition value (Criteria.isNull column)
  | isNotNull (asked : condition = Operator.isNotNull.text) (value : Value) :
      Emits column condition value (Criteria.isNotNull column)
  | absent (asked : condition ≠ Operator.isNull.text ∧ condition ≠ Operator.isNotNull.text) :
      Emits column condition .null (Criteria.isNull column)
  | scalar {value : Value} {p : Predicate} (present : value.isNil = false) (one : toAnySlice value = none)
      (built : OnScalar column condition p) : Emits column condition value p
  | single {value element : Value} {p : Predicate} (one : toAnySlice value = some [element])
      (built : OnScalar column (collapse condition) p) : Emits column condition value p
  | several {value : Value} {slice : List Value} {p : Predicate} (all : toAnySlice value = some slice)
      (long : 2 ≤ slice.length) (built : OnSeveral column slice condition p) : Emits column condition value p

section Inversion

variable {lib : Library} {column condition : Str} {p : Predicate}

variable {value : Value}

theorem scalarConditionPredicate_spec (built : scalarConditionPredicate column condition value = some p) :
    ∃ op ∈ comparisons, condition = op.text ∧ p = Criteria.compare op column value := by
  unfold scalarConditionPredicate at built
  split at built
  · cases built
    exact ⟨.eq, by decide, ‹_›, rfl⟩
  split at built
  · cases built
    exact ⟨.notEqual, by decide, ‹_›, rfl⟩
  split at built
  · cases built
    exact ⟨.less, by decide, ‹_›, rfl⟩
  split at built
  · cases built
    exact ⟨.lessOrEqual, by decide, ‹_›, rfl⟩
  split at built
  · cases built
    exact ⟨.greater, by decide, ‹_›, rfl⟩
  split at built <;> cases built
  exact ⟨.greaterOrEqual, by decide, ‹_›, rfl⟩

private theorem scalarConditionPredicate_of_mem (listed : op ∈ comparisons) (value : Value) :
    scalarConditionPredicate column op.text value = some (Criteria.compare op column value) := by
  simp only [comparisons, List.mem_cons, List.not_mem_nil, or_false] at listed
  rcases listed with rfl | rfl | rfl | rfl | rfl | rfl <;> rfl

theorem onScalar_of_comparison (built : scalarConditionPredicate column condition value = some p) :
    OnScalar column condition p := by
  obtain ⟨op, listed, rfl, rfl⟩ := scalarConditionPredicate_spec built
  exact .comparison listed value

theorem buildScalarPredicate_spec (built : buildScalarPredicate lib column condition value = some p) :
    OnScalar column condition p := by
  unfold buildScalarPredicate at built
  split at built
  · split at built
    · rename_i same
      cases built
      rw [same]
      exact .pattern (by decide) _
    split at built
    · rename_i same
      cases built
      rw [same]
      exact .pattern (by decide) _
    split at built
    · rename_i same
      cases built
      rw [same]
      exact .pattern (by decide) _
    split at built
    · rename_i same
      cases built
      rw [same]
      exact .pattern (by decide) _
    · exact onScalar_of_comparison built
  · exact onScalar_of_comparison built
  · exact onScalar_of_comparison built
  · split at built <;> cases built
    rename_i same
    rw [same]
    exact .range _ _

variable {slice : List Value}

private theorem orParts_spec {parts : List Predicate} (built : orParts column condition slice = some parts)
    (nonempty : slice ≠ []) :
    ∃ op ∈ comparisons, condition = op.text ∧
      parts = (slice.map (Criteria.compare op column)).intersperse Criteria.or := by
  induction slice generalizing parts with
  | nil => exact absurd rfl nonempty
  | cons value rest ih =>
    cases rest with
    | nil =>
      simp only [orParts, Option.bind_eq_bind, Option.bind_eq_some_iff, Option.pure_def] at built
      obtain ⟨part, one, same⟩ := built
      cases same
      obtain ⟨op, listed, asked, rfl⟩ := scalarConditionPredicate_spec one
      exact ⟨op, listed, asked, rfl⟩
    | cons next rest =>
      simp only [orParts, Option.bind_eq_bind, Option.bind_eq_some_iff, Option.pure_def] at built
      obtain ⟨part, one, later, remaining, same⟩ := built
      cases same
      obtain ⟨op, listed, asked, rfl⟩ := ih remaining (by simp)
      rw [asked, scalarConditionPredicate_of_mem listed] at one
      cases one
      exact ⟨op, listed, asked, rfl⟩

private theorem buildSlicePredicate_spec (long : 2 ≤ slice.length)
    (built : buildSlicePredicate lib column condition slice = some p) : OnSeveral column slice condition p := by
  unfold buildSlicePredicate at built
  split at built
  · cases built
  · simp at long
  · split at built
    · rename_i same
      rw [same]
      unfold buildBetweenPredicate at built
      split at built <;> cases built
      exact .range _ _
    split at built
    · rename_i same
      cases built
      rcases same with same | same
      all_goals
        rw [same]
        exact .isIn (by decide)
    rename_i notIn
    split at built
    · rename_i same
      cases built
      rcases same with same | same
      all_goals
        rw [same]
        exact .notIn (by decide)
    · rename_i noOther
      obtain ⟨parts, expanded, rfl⟩ := Option.map_eq_some_iff.mp built
      obtain ⟨op, listed, rfl, rfl⟩ := orParts_spec expanded (by rintro rfl; simp at long)
      simp only [comparisons, List.mem_cons, List.not_mem_nil, or_false] at listed
      rcases listed with rfl | rfl | rest
      · exact absurd (.inr rfl) notIn
      · exact absurd (.inr rfl) noOther
      · exact .expansion (by simpa using rest)

private theorem filterToPredicate_emits (condition_ : f.logicalOperator = [])
    (built : filterToPredicate lib f = some p) :
    isIdentifier f.field = true ∧ Emits f.field f.condition f.value p := by
  unfold filterToPredicate at built
  rw [if_neg (by simpa using condition_)] at built
  split at built
  · cases built
  rename_i named
  refine ⟨by simpa using named, ?_⟩
  split at built
  · rename_i asked
    cases built
    exact .isNull asked _
  rename_i notNull
  split at built
  · rename_i asked
    cases built
    exact .isNotNull asked _
  rename_i notNotNull
  split at built
  · rename_i absent
    cases built
    rw [absent]
    exact .absent ⟨notNull, notNotNull⟩
  rename_i present
  split at built
  · cases built
  split at built
  · rename_i slice sliced
    match slice, sliced, built with
    | [], _, built => cases built
    | [element], sliced, built =>
      refine .single sliced ?_
      exact buildScalarPredicate_spec built
    | first :: second :: rest, sliced, built =>
      exact .several sliced (by simp) (buildSlicePredicate_spec (by simp) built)
  · rename_i scalar
    refine .scalar ?_ scalar (buildScalarPredicate_spec built)
    cases value : f.value with
    | null => exact absurd value present
    | _ => rfl

end Inversion

/-! The mapping. -/

inductive Accepts (m : Mapping) : Filter → Predicate → Prop
  | connector {f : Filter} (connector : Connector) (named : f.logicalOperator = connector.text) :
      Accepts m f { logical := some connector }
  | search {f : Filter} {field : Field} {index : TextIndex} {term : Str} (condition : f.logicalOperator = [])
      (mapped : m f.field = some field) (allowed : field.ops = [] ∨ f.condition ∈ field.ops)
      (asked : f.condition = Operator.search.text) (indexed : field.search = some index)
        (given : f.value = .string term) :
      Accepts m f (Criteria.matching ⟨some index, term, field.searchMode, field.searchOn⟩)
  | condition {f : Filter} {field : Field} {p : Predicate} (condition : f.logicalOperator = [])
      (mapped : m f.field = some field) (allowed : field.ops = [] ∨ f.asked ∈ field.ops)
      (asked : f.condition ≠ Operator.search.text) (named : isIdentifier field.column = true)
      (emits : Emits field.column f.condition f.value p) : Accepts m f p

section Mapping

variable {lib : Library} {m : Mapping} {p : Predicate}

variable {f : Filter}

private theorem connector_of_filter (logical : f.logicalOperator ≠ []) (built : filterToPredicate lib f = some p) :
    Accepts m f p := by
  unfold filterToPredicate at built
  rw [if_pos logical] at built
  split at built
  · rename_i named
    cases built
    exact .connector .and named
  split at built <;> cases built
  rename_i named
  exact .connector .or named

private theorem searchPredicate_spec {field : Field} (built : field.searchPredicate lib f = .ok p) :
    ∃ index term, field.search = some index ∧ f.value = .string term ∧
      p = Criteria.matching ⟨some index, term, field.searchMode, field.searchOn⟩ := by
  unfold Field.searchPredicate at built
  split at built
  · cases built
  · rename_i index indexed
    split at built <;> cases built
    rename_i term given
    exact ⟨index, term, indexed, given, rfl⟩

theorem predicate_accepts (built : m.predicate lib (some f) = .ok p) : Accepts m f p := by
  unfold Mapping.predicate at built
  dsimp only at built
  by_cases logical : f.logicalOperator = []
  · rw [if_neg (by simpa using logical)] at built
    split at built
    · cases built
    rename_i field mapped
    split at built
    · cases built
    rename_i checked
    have allowed : field.ops = [] ∨ f.asked ∈ field.ops := by
      by_contra refused
      simp only [not_or] at refused
      exact checked refused
    split at built
    · rename_i searched
      obtain ⟨index, term, indexed, given, rfl⟩ := searchPredicate_spec built
      have same : f.condition = Operator.search.text := by simpa [Filter.asked, given, Value.isNil] using searched
      refine .search logical mapped ?_ same indexed given
      simpa [Filter.asked, given, Value.isNil] using allowed
    rename_i notSearch
    split at built
    · cases built
    rename_i named
    split at built <;> cases built
    rename_i emitted converted
    have emits :=
      (filterToPredicate_emits (f := ⟨field.column, f.condition, f.value, f.logicalOperator⟩) logical converted).2
    refine .condition logical mapped allowed ?_ (by simpa using named) emits
    intro same
    apply notSearch
    simp [Filter.asked, same, Operator.text, ascii]
  · rw [if_pos logical] at built
    split at built <;> cases built
    rename_i converted
    exact connector_of_filter logical converted

private theorem checkedPredicate_spec {lim : Limits} {f : Option Filter}
    (built : m.checkedPredicate lib lim f = .ok p) :
    ∃ g, f = some g ∧ m.predicate lib (some g) = .ok p := by
  cases f with
  | none => cases built
  | some g =>
    refine ⟨g, rfl, ?_⟩
    unfold Mapping.checkedPredicate at built
    dsimp only at built
    split at built
    · split at built
      · cases built
      · exact built
    · exact built

variable {filters : List (Option Filter)}

private theorem resolve_spec {lim : Limits} {i : Nat} (fine : (m.resolve lib lim i filters).1 = []) :
    ∃ fs, filters = fs.map some ∧
      List.Forall₂ (fun f p => m.predicate lib (some f) = .ok p) fs (m.resolve lib lim i filters).2 := by
  induction filters generalizing i with
  | nil => exact ⟨[], rfl, .nil⟩
  | cons f rest ih =>
    unfold Mapping.resolve at fine ⊢
    cases checked : m.checkedPredicate lib lim f with
    | error err => simp [checked] at fine
    | ok p =>
      simp only [checked] at fine ⊢
      obtain ⟨fs, rfl, later⟩ := ih fine
      obtain ⟨g, rfl, here⟩ := checkedPredicate_spec checked
      exact ⟨g :: fs, rfl, .cons here later⟩

variable {args : List Value} {base : Str} {d : Dialect} {opts : List FilterOption} {parse : Parser}

theorem buildFilters_empty {lib : Library} {m : Mapping}
    {filters : Option (List (Option Filter))} (empty : filters.getD [] = []) :
    buildFilters lib parse base args filters m d opts = .ok ⟨base, args⟩ := by
  match filters, empty with
  | none, _ => rfl
  | some [], _ => rfl

theorem buildFilters_spec {result : QueryParam} (nonempty : filters ≠ [])
    (ok : buildFilters lib parse base args (some filters) m d opts = .ok result) :
    ∃ fs predicates clause, filters = List.map some fs ∧
      List.Forall₂ (fun f p => m.predicate lib (some f) = .ok p) fs predicates ∧
      validateLogicalPlacement filters = .ok () ∧
      buildClauseAfter lib parse args predicates d = .ok (clause, result.params) ∧
      result.query = base ++ ascii " AND ( " ++ clause ++ ascii " )" := by
  cases filters with
  | nil => exact absurd rfl nonempty
  | cons first rest =>
    unfold buildFilters at ok
    dsimp only at ok
    split at ok
    · cases ok
    split at ok
    · rename_i none_wrong
      obtain ⟨placed, resolved⟩ := List.append_eq_nil_iff.mp none_wrong
      obtain ⟨fs, all, accepted⟩ := resolve_spec resolved
      split at ok <;> cases ok
      rename_i clause params built
      refine ⟨fs, _, clause, all, accepted, ?_, built, rfl⟩
      cases placement : validateLogicalPlacement (first :: rest) with
      | error err => simp [placement] at placed
      | ok done => rfl
    · cases ok

end Mapping

end Gofi.Sqln
