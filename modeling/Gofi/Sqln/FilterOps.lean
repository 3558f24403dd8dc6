import Gofi.Sqln.Accepted

/-! Whether the operators that are emitted are those that the mapping lists and
the request asks for. A nil value makes every condition a test for NULL, also a
negative one and also where that test is not listed. -/

namespace Gofi.Sqln

open Gofi.Go

mutual

def Predicate.operators : Predicate → List Operator
  | ⟨_, operator, _, _, children, _, _, _, _⟩ => if operator = .group then operatorsOf children else [operator]

def operatorsOf : List Predicate → List Operator
  | [] => []
  | p :: rest => (if p.logical.isSome then [] else p.operators) ++ operatorsOf rest

end

def Operator.negative (op : Operator) : Bool := op ∈ [.notEqual, .notIn, .notContains, .notLike, .isNotNull]

def Operator.negations : Operator → List Operator
  | .eq => [.notEqual, .notIn]
  | .isIn => [.notEqual, .notIn]
  | .notEqual => [.eq, .isIn]
  | .notIn => [.eq, .isIn]
  | .less => [.greaterOrEqual]
  | .greaterOrEqual => [.less]
  | .lessOrEqual => [.greater]
  | .greater => [.lessOrEqual]
  | .contains => [.notContains]
  | .notContains => [.contains]
  | .like => [.notLike]
  | .notLike => [.like]
  | .isNull => [.isNotNull]
  | .isNotNull => [.isNull]
  | .isTrue => [.isFalse]
  | .isFalse => [.isTrue]
  | _ => []

def Means (condition : Str) (value : Value) (op : Operator) : Prop :=
  op.text = condition ∨
  (value.shape.isSome = true ∧
    ((condition = Operator.eq.text ∧ op = .isIn) ∨ (condition = Operator.notEqual.text ∧ op = .notIn))) ∨
  (value.shape = some 1 ∧
    ((condition = Operator.isIn.text ∧ op = .eq) ∨ (condition = Operator.notIn.text ∧ op = .notEqual)))

def opposed (condition : Str) (op : Operator) : Bool :=
  allowedOperators.any fun asked =>
    asked.text = condition && (op ∈ asked.negations || (asked.negative && !op.negative))

/-- Every operator emitted for a filter is listed, and none says the contrary of its condition. -/
def Faithful (field : Field) (f : Filter) (p : Predicate) : Prop :=
  (field.ops ≠ [] → ∀ op ∈ p.operators, ∃ condition ∈ field.ops, Means condition f.value op) ∧
  ∀ op ∈ p.operators, opposed f.condition op = false

/-- A condition other than a test for NULL comes without a value, and is negative or the test for NULL is not listed.
-/
def Misread (field : Field) (f : Filter) : Prop :=
  f.value.isNil = true ∧ f.condition ∉ [[], Operator.isNull.text, Operator.isNotNull.text] ∧
  ((field.ops ≠ [] ∧ Operator.isNull.text ∉ field.ops) ∨
    ∃ op : Operator, op.negative = true ∧ op.text = f.condition)

section Emitted

variable {field : Field} {f : Filter} {p : Predicate}

variable {column : Str} {op : Operator} {value : Value}

theorem operators_compare (single : op ≠ .group) : (Criteria.compare op column value).operators = [op] := by
  simp [Criteria.compare, Predicate.operators, single]

theorem faithful_of_one (only : p.operators = [op]) (allowed : field.ops = [] ∨ f.condition ∈ field.ops)
    (means : Means f.condition f.value op) (agrees : opposed f.condition op = false) : Faithful field f p := by
  constructor
  · intro listed other member
    rw [only, List.mem_singleton] at member
    subst member
    exact ⟨f.condition, allowed.resolve_left listed, means⟩
  · intro other member
    rw [only, List.mem_singleton] at member
    subst member
    exact agrees

theorem opposed_text {asked : Operator} (listed : asked ∈ allowedOperators) (op : Operator) :
    opposed asked.text op = (op ∈ asked.negations || (asked.negative && !op.negative)) := by
  rw [Bool.eq_iff_iff, opposed, List.any_eq_true]
  constructor
  · rintro ⟨other, present, holds⟩
    rw [Bool.and_eq_true, decide_eq_true_eq] at holds
    rw [← text_inj present listed holds.1]
    exact holds.2
  · intro holds
    exact ⟨asked, listed, by simp only [decide_true, Bool.true_and, holds]⟩

theorem agrees_with_itself (op : Operator) (listed : op ∈ allowedOperators) : opposed op.text op = false := by
  rw [opposed_text listed]
  cases op <;> rfl

theorem OnScalar.operator (built : OnScalar column condition p) :
    ∃ op ∈ comparisons ++ patterns ++ [.between], condition = op.text ∧ p.operators = [op] := by
  cases built with
  | comparison listed value =>
    rename_i op
    refine ⟨op, by simp [listed], rfl, operators_compare ?_⟩
    rintro rfl
    exact absurd listed (by decide)
  | pattern listed text =>
    rename_i op
    refine ⟨op, by simp [listed], rfl, ?_⟩
    simp only [patterns, List.mem_cons, List.not_mem_nil, or_false] at listed
    rcases listed with rfl | rfl | rfl | rfl <;> rfl
  | range start stop => exact ⟨.between, by simp, rfl, rfl⟩

private theorem operators_alternatives (slice : List Value) (single : op ≠ .group) :
    ∀ other ∈ operatorsOf ((slice.map (Criteria.compare op column)).intersperse Criteria.or), other = op := by
  induction slice with
  | nil => nofun
  | cons value rest ih =>
    cases rest with
    | nil =>
      intro other member
      simpa [operatorsOf, operators_compare single, Criteria.compare, Predicate.operators, single] using member
    | cons next rest =>
      intro other member
      have split_ : operatorsOf (((value :: next :: rest).map (Criteria.compare op column)).intersperse Criteria.or) =
          op :: operatorsOf (((next :: rest).map (Criteria.compare op column)).intersperse Criteria.or) := by
        simp [operatorsOf, Criteria.or, Criteria.compare, Predicate.operators, single]
      rw [split_] at member
      rcases List.mem_cons.mp member with rfl | later
      · rfl
      · exact ih other later

theorem known_of_scalar : ∀ op ∈ comparisons ++ patterns ++ [.between], op ∈ allowedOperators := by decide

theorem faithful_scalar (allowed : field.ops = [] ∨ f.condition ∈ field.ops)
    (built : OnScalar column f.condition p) : Faithful field f p := by
  obtain ⟨op, listed, asked, only⟩ := built.operator
  refine faithful_of_one only allowed (.inl asked.symm) ?_
  rw [asked]
  exact agrees_with_itself op (known_of_scalar op listed)

private theorem faithful_single (one : toAnySlice f.value = some [element])
    (allowed : field.ops = [] ∨ f.condition ∈ field.ops) (built : OnScalar column (collapse f.condition) p) :
    Faithful field f p := by
  have shape : f.value.shape = some 1 := by rw [Value.shape, one]; rfl
  by_cases isIn : f.condition = Operator.isIn.text
  · obtain ⟨op, listed, asked, only⟩ := built.operator
    rw [collapse, if_pos isIn] at asked
    cases text_inj (by decide) (known_of_scalar op listed) asked
    refine faithful_of_one only allowed (.inr (.inr ⟨shape, .inl ⟨isIn, rfl⟩⟩)) ?_
    rw [isIn, opposed_text (by decide)]
    rfl
  by_cases notIn : f.condition = Operator.notIn.text
  · obtain ⟨op, listed, asked, only⟩ := built.operator
    rw [collapse, if_neg isIn, if_pos notIn] at asked
    cases text_inj (by decide) (known_of_scalar op listed) asked
    refine faithful_of_one only allowed (.inr (.inr ⟨shape, .inr ⟨notIn, rfl⟩⟩)) ?_
    rw [notIn, opposed_text (by decide)]
    rfl
  · rw [collapse, if_neg isIn, if_neg notIn] at built
    exact faithful_scalar allowed built

variable {slice : List Value}

private theorem faithful_several (all : toAnySlice f.value = some slice)
    (allowed : field.ops = [] ∨ f.condition ∈ field.ops) (built : OnSeveral column slice f.condition p) :
    Faithful field f p := by
  have shape : f.value.shape.isSome = true := by rw [Value.shape, all]; rfl
  generalize asked : f.condition = condition at built
  cases built with
  | range start stop =>
    have only : (Criteria.between column (.time start) (.time stop)).operators = [.between] := rfl
    refine faithful_of_one only allowed (.inl asked.symm) ?_
    rw [asked]
    exact agrees_with_itself .between (by decide)
  | isIn listed =>
    have only : (Criteria.isIn column (.list slice)).operators = [.isIn] := rfl
    refine faithful_of_one only allowed ?_ ?_
    all_goals
      simp only [List.mem_cons, List.not_mem_nil, or_false] at listed
      rcases listed with rfl | rfl
    · exact .inl asked.symm
    · exact .inr (.inl ⟨shape, .inl ⟨asked, rfl⟩⟩)
    · rw [asked]; exact agrees_with_itself _ (by decide)
    · rw [asked, opposed_text (by decide)]; rfl
  | notIn listed =>
    have only : (Criteria.notIn column (.list slice)).operators = [.notIn] := rfl
    refine faithful_of_one only allowed ?_ ?_
    all_goals
      simp only [List.mem_cons, List.not_mem_nil, or_false] at listed
      rcases listed with rfl | rfl
    · exact .inl asked.symm
    · exact .inr (.inl ⟨shape, .inr ⟨asked, rfl⟩⟩)
    · rw [asked]; exact agrees_with_itself _ (by decide)
    · rw [asked, opposed_text (by decide)]; rfl
  | expansion listed =>
    rename_i op
    have known : op ∈ allowedOperators ∧ op ≠ .group := by
      simp only [List.mem_cons, List.not_mem_nil, or_false] at listed
      rcases listed with rfl | rfl | rfl | rfl <;> decide
    have only :
      ∀ other ∈ (Criteria.group ((slice.map (Criteria.compare op column)).intersperse Criteria.or)).operators,
        other = op := by
      intro other member
      exact operators_alternatives slice known.2 other (by simpa [Criteria.group, Predicate.operators] using member)
    constructor
    · intro nonempty other member
      rw [only other member]
      exact ⟨f.condition, allowed.resolve_left nonempty, .inl asked.symm⟩
    · intro other member
      rw [only other member, asked]
      exact agrees_with_itself op known.1

private theorem faithful_absent (absent : f.value = .null)
    (asked : f.condition ≠ Operator.isNull.text ∧ f.condition ≠ Operator.isNotNull.text)
    (allowed : field.ops = [] ∨ f.asked ∈ field.ops) :
    Faithful field f (Criteria.isNull column) ↔ ¬ Misread field f := by
  have only (op : Operator) : op ∈ (Criteria.isNull column).operators ↔ op = .isNull := List.mem_singleton
  have nil : f.value.isNil = true := by rw [absent]; rfl
  have means (condition : Str) : Means condition f.value .isNull ↔ condition = Operator.isNull.text := by
    simp [Means, absent, Value.shape, toAnySlice, eq_comm]
  have contrary : opposed f.condition .isNull = true ↔ ∃ op : Operator, op.negative = true ∧
    op.text = f.condition := by
    have negative : ∀ asked ∈ allowedOperators,
        (Operator.isNull ∈ asked.negations || (asked.negative && !Operator.isNull.negative)) = asked.negative := by
          decide
    have known (op : Operator) (holds : op.negative = true) : op ∈ allowedOperators := by
      cases op <;> first | decide | cases holds
    simp only [opposed, List.any_eq_true, Bool.and_eq_true, decide_eq_true_eq]
    constructor
    · rintro ⟨op, listed, named, holds⟩
      exact ⟨op, (negative op listed).symm.trans holds, named⟩
    · rintro ⟨op, holds, named⟩
      exact ⟨op, known op holds, named, (negative op (known op holds)).trans holds⟩
  have faithful : Faithful field f (Criteria.isNull column) ↔
      (field.ops ≠ [] → Operator.isNull.text ∈ field.ops) ∧ ¬ ∃ op : Operator, op.negative = true ∧
        op.text = f.condition := by
    simp [Faithful, only, means, ← contrary]
  rw [faithful, Misread]
  by_cases empty : f.condition = []
  · have listed : field.ops = [] ∨ Operator.isNull.text ∈ field.ops := by
      simpa [Filter.asked, nil, empty] using allowed
    have none_negative : ∀ op : Operator, op.negative = true → op.text ≠ [] := by
      intro op holds
      cases op <;> first | decide | cases holds
    simp only [empty, List.mem_cons, true_or, not_true_eq_false, false_and, and_false, not_false_eq_true, iff_true]
    refine ⟨listed.resolve_left, ?_⟩
    rintro ⟨op, holds, named⟩
    exact none_negative op holds named
  · have other : f.condition ∉ [[], Operator.isNull.text, Operator.isNotNull.text] := by
      simp [empty, asked.1, asked.2]
    constructor
    · rintro ⟨listed, positive⟩ ⟨_, _, unlisted | negative⟩
      · exact unlisted.2 (listed unlisted.1)
      · exact positive negative
    · intro fine
      constructor
      · intro nonempty
        by_contra missing
        exact fine ⟨nil, other, .inl ⟨nonempty, missing⟩⟩
      · intro negative
        exact fine ⟨nil, other, .inr negative⟩

theorem not_misread_of_value (present : f.value.isNil = false) : ¬ Misread field f := by
  rintro ⟨nil, _⟩
  rw [present] at nil
  cases nil

theorem isNil_of_slice (sliced : toAnySlice value = some slice) : value.isNil = false := by
  cases value with
  | null => cases sliced
  | _ => rfl

private theorem faithful_iff (accepted : Accepts m f p) (condition_ : f.logicalOperator = [])
    (mapped : m f.field = some field) : Faithful field f p ↔ ¬ Misread field f := by
  cases accepted with
  | connector connector named =>
    rw [condition_] at named
    cases connector <;> cases named
  | search _ found allowed asked _ given =>
    cases mapped.symm.trans found
    refine iff_of_true (faithful_of_one rfl allowed (.inl asked.symm) ?_) (not_misread_of_value (by rw [given]; rfl))
    rw [asked]
    exact agrees_with_itself .search (by decide)
  | condition _ found allowed asked _ emits =>
    cases mapped.symm.trans found
    have valued (present : f.value.isNil = false) : field.ops = [] ∨ f.condition ∈ field.ops := by
      simpa [Filter.asked, present] using allowed
    have named (nonempty : f.condition ≠ []) : field.ops = [] ∨ f.condition ∈ field.ops := by
      simpa [Filter.asked, nonempty] using allowed
    have nonempty_of {condition : Str} (same : f.condition = condition) (nonempty : condition ≠ []) :
      f.condition ≠ [] :=
      same ▸ nonempty
    have explicit {op : Operator} (same : f.condition = op.text) (listed : op ∈ [Operator.isNull, .isNotNull])
        (only : p.operators = [op]) : Faithful field f p ↔ ¬ Misread field f := by
      have known : ∀ op ∈ [Operator.isNull, .isNotNull], op.text ≠ [] ∧ op ∈ allowedOperators ∧
          op.text ∈ [[], Operator.isNull.text, Operator.isNotNull.text] := by decide
      obtain ⟨nonempty, allowedOperator, null⟩ := known op listed
      refine iff_of_true (faithful_of_one only (named (nonempty_of same nonempty)) (.inl same.symm) ?_) ?_
      · rw [same]
        exact agrees_with_itself op allowedOperator
      · rintro ⟨_, other, _⟩
        exact other (same ▸ null)
    generalize given : f.value = value at emits
    cases emits with
    | isNull same | isNotNull same => exact explicit same (by simp) rfl
    | absent neither => exact faithful_absent given neither allowed
    | scalar present one built =>
      have nonnil : f.value.isNil = false := given ▸ present
      exact iff_of_true (faithful_scalar (valued nonnil) built) (not_misread_of_value nonnil)
    | single one built =>
      have nonnil : f.value.isNil = false := given ▸ isNil_of_slice one
      exact iff_of_true (faithful_single (given ▸ one) (valued nonnil) built) (not_misread_of_value nonnil)
    | several all long built =>
      have nonnil : f.value.isNil = false := given ▸ isNil_of_slice all
      exact iff_of_true (faithful_several (given ▸ all) (valued nonnil) built) (not_misread_of_value nonnil)

end Emitted

/-- A filter that `Build` accepts is emitted as it was asked for, and within the listed conditions, unless it
names a condition without a value that is not a test for NULL. -/
theorem operators_follow_request_iff {lib : Library} {parse : Parser} {base : Str} {args : List Value}
    {filters : List (Option Filter)} {m : Mapping} {d : Dialect} {opts : List FilterOption} {result : QueryParam}
    (ok : buildFilters lib parse base args (some filters) m d opts = .ok result) {f : Filter}
    (member : some f ∈ filters)
    (condition_ : f.logicalOperator = []) : ∃ field p, m f.field = some field ∧ m.predicate lib (some f) = .ok p ∧
      (Faithful field f p ↔ ¬ Misread field f) := by
  have nonempty : filters ≠ [] := List.ne_nil_of_mem member
  obtain ⟨fs, predicates, _, rfl, emitted, -⟩ := buildFilters_spec nonempty ok
  obtain ⟨_, listed, ⟨⟩⟩ := List.mem_map.mp member
  obtain ⟨p, built⟩ : ∃ p, m.predicate lib (some f) = .ok p := by
    clear ok member nonempty
    induction emitted with
    | nil => cases listed
    | cons here _ ih =>
      rcases List.mem_cons.mp listed with rfl | later
      · exact ⟨_, here⟩
      · exact ih later
  have accepted := predicate_accepts built
  obtain ⟨field, mapped⟩ : ∃ field, m f.field = some field := by
    cases accepted with
    | connector connector named =>
      rw [condition_] at named
      cases connector <;> cases named
    | search _ found | condition _ found => exact ⟨_, found⟩
  exact ⟨field, p, mapped, built, faithful_iff accepted condition_ mapped⟩

def statusMapping : Mapping := fun name =>
  if name = ascii "status" then some ⟨ascii "status", [Operator.eq.text, Operator.notEqual.text], none, .websearch, []⟩
  else none

def statusFilter (value : Value) : Filter := ⟨ascii "status", Operator.notEqual.text, value, []⟩

/-- Asked for a status other than nothing, `Build` selects the rows without a status. -/
theorem not_equal_nil_becomes_is_null :
    buildFilters .plain (fun _ _ _ => .ok []) (ascii "WHERE a") [] (some [some (statusFilter .null)]) statusMapping
      .postgres [] = .ok ⟨ascii "WHERE a AND ( status IS NULL )", []⟩ ∧
    statusMapping.predicate .plain (some (statusFilter .null)) = .ok (Criteria.isNull (ascii "status")) ∧
    (Criteria.isNull (ascii "status")).operators = [.isNull] ∧
    opposed (statusFilter .null).condition .isNull = true ∧
    Operator.isNull.text ∉ [Operator.eq.text, Operator.notEqual.text] := by
  have negative : opposed Operator.notEqual.text .isNull = true := opposed_text (by decide) .isNull
  refine ⟨rfl, rfl, rfl, negative, ?_⟩
  simp only [List.mem_cons, List.not_mem_nil, or_false]
  rintro (same | same) <;> cases text_inj (by decide) (by decide) same

theorem sample_operators_follow_request : ∃ field p, statusMapping (statusFilter (.int 3)).field = some field ∧
      statusMapping.predicate .plain (some (statusFilter (.int 3))) = .ok p ∧
      (Faithful field (statusFilter (.int 3)) p ↔ ¬ Misread field (statusFilter (.int 3))) := by
  have built : buildFilters .plain (fun _ _ _ => .ok []) (ascii "WHERE a") [] (some [some (statusFilter (.int 3))])
      statusMapping .postgres [] = .ok ⟨ascii "WHERE a AND ( status != $1 )", [.intValue 3]⟩ := rfl
  exact operators_follow_request_iff built (List.mem_singleton.mpr rfl) rfl

end Gofi.Sqln
