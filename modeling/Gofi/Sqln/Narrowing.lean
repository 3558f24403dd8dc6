import Gofi.Sqln.Balance
import Gofi.Logic.Precedence

/-! Filters narrow the query they are appended to: what they append is a complete
condition in parentheses of its own, joined to the base by AND. -/

namespace Gofi.Sqln

open Gofi.Go Gofi.Text Gofi.Logic
open Outline (phrase)

/-- What a request asks for, filter by filter. -/
def requested (m : Mapping) (filters : Option (List (Option Filter))) : List Item :=
  (filters.getD []).filterMap fun f => f.bind (Filter.item m)

/-! The clause of a request. -/

def Connector.token : Connector → Token Outline
  | .and => .and
  | .or => .or

/-- How many alternatives a condition is expanded to: an ordering is asked of each of several values. -/
def expansion (asked : Str) (absent : Bool) (shape : Option Nat) : Option Nat :=
  if operatorNamed asked ∈ [Operator.less, .lessOrEqual, .greater, .greaterOrEqual] ∧ absent = false then
    shape.filter (1 < ·)
  else none

/-- A condition is one operand. An expansion has one for each alternative, in parentheses of its own. -/
def conditionTokens (d : Dialect) (field : Field) (asked : Str) (absent : Bool) (shape : Option Nat) :
    List (Token Outline) :=
  match expansion asked absent shape with
  | some count =>
    let alternative := Token.operand (outlineComparison field.column (operatorNamed asked))
    .opening :: (List.replicate count alternative).intersperse .or ++ [.closing]
  | none => [.operand (outlineCondition d field asked absent shape)]

/-- The conditions and connectors of a request in their order, with an AND before a condition that follows another. -/
def clauseTokens (d : Dialect) (adjacent : Bool) : List Item → List (Token Outline)
  | [] => []
  | .connector connector :: rest => connector.token :: clauseTokens d false rest
  | .condition field asked absent shape :: rest =>
    (if adjacent then [.and] else []) ++ conditionTokens d field asked absent shape ++ clauseTokens d true rest

/-! How it is spelled: one space between two tokens, and none inside of parentheses. -/

def word : Token Outline → Outline
  | .operand outline => outline
  | .and => phrase [ascii "AND"]
  | .or => phrase [ascii "OR"]
  | .not => phrase [ascii "NOT"]
  | .opening => phrase [ascii "("]
  | .closing => phrase [ascii ")"]

def gap : Token Outline → Token Outline → Outline
  | .opening, _ => []
  | _, .closing => []
  | _, _ => phrase [ascii " "]

def spellAfter (last : Token Outline) : List (Token Outline) → Outline
  | [] => []
  | token :: rest => gap last token ++ word token ++ spellAfter token rest

def spell (tokens : List (Token Outline)) : Outline := spellAfter .opening tokens

section Spelling

variable {last : Token Outline}

private def gapAfter : Token Outline → Outline
  | .opening => []
  | _ => phrase [ascii " "]

private theorem spellAfter_cons (last token : Token Outline) (rest : List (Token Outline)) (other : token ≠ .closing) :
    spellAfter last (token :: rest) = gapAfter last ++ (word token ++ spellAfter token rest) := by
  have same : gap last token = gapAfter last := by
    cases token with
    | closing => exact absurd rfl other
    | _ => cases last <;> rfl
  rw [spellAfter, same, List.append_assoc]

private theorem spellAfter_closing (last : Token Outline) (rest : List (Token Outline)) :
    spellAfter last (.closing :: rest) = phrase [ascii ")"] ++ spellAfter .closing rest := by
  cases last <;> rfl

private theorem spell_alternatives (part : Outline) (more : Nat) (last : Token Outline) (rest : List (Token Outline)) :
    spellAfter last ((List.replicate (more + 1) (.operand part)).intersperse .or ++ .closing :: rest) =
      gapAfter last ++ (Outline.join (phrase [ascii " "] ++ phrase [Connector.or.text] ++ phrase [ascii " "])
        (List.replicate (more + 1) part) ++ (phrase [ascii ")"] ++ spellAfter .closing rest)) := by
  induction more generalizing last with
  | zero =>
    have only : spellAfter last (.operand part :: .closing :: rest) =
        gapAfter last ++ (part ++ spellAfter (.operand part) (.closing :: rest)) := spellAfter_cons _ _ _ nofun
    rw [spellAfter_closing] at only
    exact only
  | succ more ih =>
    have first := spellAfter_cons last (.operand part)
      (.or :: ((List.replicate (more + 1) (.operand part)).intersperse .or ++ .closing :: rest)) nofun
    rw [spellAfter_cons _ .or _ nofun, ih] at first
    refine first.trans ?_
    simp [gapAfter, word, Outline.join, List.replicate_succ, Connector.text]

private theorem expansion_spec (expanded : expansion asked absent shape = some count) :
    operatorNamed asked ∈ [Operator.less, .lessOrEqual, .greater, .greaterOrEqual] ∧ absent = false ∧
      shape = some count ∧ 1 < count := by
  unfold expansion at expanded
  split at expanded
  · rename_i ordered
    obtain ⟨whole, several⟩ := Option.filter_eq_some_iff.mp expanded
    exact ⟨ordered.1, ordered.2, whole, by simpa using several⟩
  · cases expanded

private theorem outline_of_expansion (expanded : expansion asked absent shape = some count) :
    outlineCondition d field asked absent shape = outlineExpansion field.column (operatorNamed asked) count := by
  obtain ⟨ordered, rfl, rfl, several⟩ := expansion_spec expanded
  have plain : ∀ op ∈ [Operator.less, .lessOrEqual, .greater, .greaterOrEqual], op ≠ .search ∧ op ≠ .isNull ∧
      op ≠ .isNotNull ∧ op ≠ .between ∧ op ≠ .isIn ∧ op ≠ .eq ∧ op ≠ .notIn ∧ op ≠ .notEqual := by decide
  obtain ⟨more, rfl⟩ : ∃ more, count = more + 2 := ⟨count - 2, by omega⟩
  obtain ⟨search, isNull, isNotNull, between, isIn, eq, notIn, notEqual⟩ := plain _ ordered
  simp [outlineCondition, outlineSeveral, search, isNull, isNotNull, between, isIn, eq, notIn, notEqual]

private theorem spell_condition
    (onward : ∀ before, before ≠ .opening → Template.Same (spellAfter before rest) out) :
    Template.Same (spellAfter last (conditionTokens d field asked absent shape ++ rest))
      (gapAfter last ++ (outlineCondition d field asked absent shape ++ out)) := by
  unfold conditionTokens
  split
  · rename_i count expanded
    obtain ⟨more, rfl⟩ : ∃ more, count = more + 1 := ⟨count - 1, by have := (expansion_spec expanded).2.2.2; omega⟩
    simp only [List.cons_append, List.append_assoc, List.nil_append]
    rw [spellAfter_cons _ .opening _ nofun, spell_alternatives, outline_of_expansion expanded]
    simp only [outlineExpansion, word, gapAfter, List.append_assoc, List.nil_append]
    refine (Template.Same.refl _).append ((Template.Same.refl _).append ((Template.Same.refl _).append ?_))
    exact (Template.Same.refl _).append (onward .closing nofun)
  · rw [List.singleton_append, spellAfter_cons _ (.operand _) _ nofun]
    exact (Template.Same.refl _).append ((Template.Same.refl _).append (onward _ nofun))

/-- The text of the outline is the clause as it is spelled. -/
private theorem spell_clause (previous : Option Bool) (items : List Item)
    (begun : gapAfter last = if previous.isSome then phrase [ascii " "] else []) :
    Template.Same (spellAfter last (clauseTokens d (previous = some false) items)) (outline d previous items) := by
  induction items generalizing previous last with
  | nil => exact .refl _
  | cons item rest ih =>
    cases item with
    | connector connector =>
      have after :
        Template.Same (spellAfter connector.token (clauseTokens d false rest)) (outline d (some true) rest) :=
        ih (some true) (by cases connector <;> rfl)
      have first : spellAfter last (connector.token :: clauseTokens d false rest) =
          gapAfter last ++ (phrase [connector.text] ++ spellAfter connector.token (clauseTokens d false rest)) := by
        cases connector <;> exact spellAfter_cons _ _ _ (by simp [Connector.token])
      rw [clauseTokens, first, begun, outline, List.append_assoc]
      exact (Template.Same.refl _).append ((Template.Same.refl _).append after)
    | condition field asked absent shape =>
      have after (before : Token Outline) (other : before ≠ .opening) :
          Template.Same (spellAfter before (clauseTokens d true rest)) (outline d (some false) rest) :=
        ih (some false) (by cases before <;> first | rfl | exact absurd rfl other)
      rw [clauseTokens, outline]
      by_cases adjacent : previous = some false
      · have condition :
          Template.Same (spellAfter .and (conditionTokens d field asked absent shape ++ clauseTokens d true rest))
            (phrase [ascii " "] ++ (outlineCondition d field asked absent shape ++ outline d (some false) rest)) :=
          spell_condition after
        subst adjacent
        simp only [decide_true, ↓reduceIte, List.append_assoc, List.cons_append, List.nil_append]
        rw [spellAfter_cons _ .and _ (by simp), begun]
        refine (Template.Same.refl _).append (((Template.Same.refl _).append condition).trans ?_)
        exact Template.Same.join_texts ..
      · simp only [adjacent, decide_false, Bool.false_eq_true, ↓reduceIte, List.append_assoc, List.nil_append, ← begun]
        exact spell_condition after

end Spelling

/-! Where the connectors stand. -/

/-- Connectors, marked by `true`, each stand between two conditions. -/
def alternating (connectable : Bool) : List Bool → Bool
  | [] => connectable
  | true :: rest => connectable && alternating false rest
  | false :: rest => alternating true rest

private theorem alternating_of_placed (some_mark : marks ≠ [] ∨ connectable = true)
    (first : connectable = false → marks.head? ≠ some true) (last : marks.getLast? ≠ some true)
    (apart : (marks.zip marks.tail).any (fun (one, next) => one && next) = false) :
    alternating connectable marks = true := by
  induction marks generalizing connectable with
  | nil => exact some_mark.resolve_left (absurd rfl)
  | cons mark rest ih =>
    have laterApart : (rest.zip rest.tail).any (fun (one, next) => one && next) = false := by
      cases rest with
      | nil => rfl
      | cons next rest => exact (Bool.or_eq_false_iff.mp apart).2
    cases mark with
    | true =>
      have connects : connectable = true := by
        cases connectable with
        | true => rfl
        | false => exact absurd rfl (first rfl)
      subst connects
      cases rest with
      | nil => exact absurd rfl last
      | cons next rest =>
        have condition : next = false := by simpa using (Bool.or_eq_false_iff.mp apart).1
        subst condition
        have onward : alternating false (false :: rest) = true :=
          ih (.inl (by simp)) (by simp) (by simpa using last) laterApart
        exact onward
    | false =>
      cases rest with
      | nil => rfl
      | cons next rest =>
        have onward : alternating true (next :: rest) = true :=
          ih (.inr rfl) (by simp) (by simpa using last) laterApart
        exact onward

private theorem alternating_of_validate {fs : List Filter} (nonempty : fs ≠ [])
    (placed : validateLogicalPlacement (fs.map some) = .ok ()) :
    alternating false (fs.map fun f => decide (f.logicalOperator ≠ [])) = true := by
  unfold validateLogicalPlacement at placed
  dsimp only at placed
  split at placed
  · cases placed
  rename_i first
  split at placed
  · cases placed
  rename_i last
  split at placed
  · cases placed
  rename_i apart
  refine alternating_of_placed (.inl (by simpa using nonempty)) ?_ ?_ ?_
  · intro _ same
    rw [List.head?_map] at same first
    cases head : fs.head? with
    | none => simp [head] at same
    | some f => simp_all
  · intro same
    rw [List.getLast?_map] at same last
    cases final : fs.getLast? with
    | none => simp [final] at same
    | some f => simp_all
  · rw [← List.map_tail, List.zip_map, List.any_map] at apart ⊢
    simpa using apart

private theorem alternates_alternatives (part : Outline) (more : Nat) :
    Alternates ((List.replicate (more + 1) (.operand part)).intersperse .or) := by
  induction more with
  | zero => exact .operand part
  | succ more ih => exact .or (.operand part) ih

private theorem alternates_condition : Alternates (conditionTokens d field asked absent shape) := by
  unfold conditionTokens
  split
  · rename_i count expanded
    obtain ⟨more, rfl⟩ : ∃ more, count = more + 1 := ⟨count - 1, by have := (expansion_spec expanded).2.2.2; omega⟩
    exact .closed (alternates_alternatives _ more)
  · exact .operand _

-- The items that are left either begin the clause, or go on after a condition.
private theorem alternates_clause (items : List Item) :
    (alternating false (items.map Item.joins) = true → Alternates (clauseTokens d false items)) ∧
    (alternating true (items.map Item.joins) = true →
      ∀ front, Alternates front → Alternates (front ++ clauseTokens d true items)) := by
  induction items with
  | nil => exact ⟨nofun, fun _ front first => by simpa [clauseTokens] using first⟩
  | cons item rest ih =>
    cases item with
    | connector connector =>
      refine ⟨nofun, fun placed front first => ?_⟩
      cases connector with
      | and => exact .and first (ih.1 placed)
      | or => exact .or first (ih.1 placed)
    | condition field asked absent shape =>
      refine ⟨fun placed => ?_, fun placed front first => ?_⟩
      · exact ih.2 placed _ alternates_condition
      · have here : Alternates (conditionTokens d field asked absent shape) := alternates_condition
        simpa [clauseTokens] using ih.2 placed _ (.and first here)

/-! The operands of the clause. -/

private theorem mem_of_mem_intersperse {parts : List α} (member : part ∈ parts.intersperse separator) :
    part = separator ∨ part ∈ parts := by
  induction parts with
  | nil => cases member
  | cons first rest ih =>
    cases rest with
    | nil => exact .inr member
    | cons second rest =>
      rcases List.mem_cons.mp member with rfl | later
      · exact .inr (List.mem_cons_self ..)
      rcases List.mem_cons.mp later with rfl | later
      · exact .inl rfl
      · exact (ih later).imp_right (List.mem_cons_of_mem _)

private theorem balanced_operand (named : (Item.condition field asked absent shape).Named)
    (member : .operand operand ∈ conditionTokens d field asked absent shape) : Brackets d 0 0 operand := by
  unfold conditionTokens at member
  split at member
  · rename_i count expanded
    have column : isIdentifier field.column = true := by
      obtain ⟨ordered, _⟩ := expansion_spec expanded
      rwa [Item.Named, if_neg] at named
      rintro rfl
      exact absurd ordered (by decide)
    simp only [List.cons_append, List.mem_cons, reduceCtorEq, List.mem_append, List.not_mem_nil, or_false,
      false_or] at member
    rcases mem_of_mem_intersperse member with other | alternative
    · cases other
    · cases List.eq_of_mem_replicate alternative
      exact balanced_comparison column _
  · cases List.mem_singleton.mp member
    exact balanced_condition named

private theorem balanced_operands (named : ∀ item ∈ items, item.Named)
    (member : .operand operand ∈ clauseTokens d adjacent items) : Brackets d 0 0 operand := by
  induction items generalizing adjacent with
  | nil => cases member
  | cons item rest ih =>
    obtain ⟨here, later⟩ := List.forall_mem_cons.mp named
    cases item with
    | connector connector =>
      rcases List.mem_cons.mp member with first | after
      · cases connector <;> cases first
      · exact ih later after
    | condition field asked absent shape =>
      rcases List.mem_append.mp member with front | after
      · rcases List.mem_append.mp front with joined | inside
        · split at joined
          · cases List.mem_singleton.mp joined
          · cases joined
        · exact balanced_operand here inside
      · exact ih later after

private theorem requested_eq {fs : List Filter} (asked : List.Forall₂ (Requests m) fs items) :
    requested m (some (fs.map some)) = items := by
  induction asked with
  | nil => rfl
  | cons here _ ih =>
    rw [requested] at ih ⊢
    simpa [here.found] using ih

/-- Without filters nothing is appended. Otherwise it is one condition in parentheses, which has an operand and a
connector for each filter that asks for one, in their order, and narrows the base. -/
theorem filters_narrow_the_base {lib : Library} {parse : Parser} {base : Str} {args : List Value}
    {filters : Option (List (Option Filter))} {m : Mapping} {d : Dialect} {opts : List FilterOption}
    {result : QueryParam}
    (ok : buildFilters lib parse base args filters m d opts = .ok result) :
    (filters.getD [] = [] ∧ result = ⟨base, args⟩) ∨
      (requested m filters).length = (filters.getD []).length ∧
      result.query = base ++ ascii " AND ( " ++
        (spell (clauseTokens d false (requested m filters))).render d.param args.length ++ ascii " )" ∧
      Balanced ((spell (clauseTokens d false (requested m filters))).render d.param args.length) ∧
      (∀ operand, .operand operand ∈ clauseTokens d false (requested m filters) → Brackets d 0 0 operand) ∧
      Alternates (clauseTokens d false (requested m filters)) ∧
        Narrows (clauseTokens d false (requested m filters)) := by
  by_cases empty : filters.getD [] = []
  · rw [buildFilters_empty empty] at ok
    cases ok
    exact .inl ⟨empty, rfl⟩
  obtain ⟨filters, rfl⟩ : ∃ list, filters = some list := by
    cases filters with
    | none => exact absurd rfl empty
    | some list => exact ⟨list, rfl⟩
  obtain ⟨fs, items, rfl, asked, placed, query⟩ := query_outline empty ok
  have nonempty : fs ≠ [] := by
    rintro rfl
    exact empty rfl
  have marks : items.map Item.joins = fs.map fun f => decide (f.logicalOperator ≠ []) := by
    clear empty ok placed query nonempty
    induction asked with
    | nil => rfl
    | cons here _ ih => rw [List.map_cons, List.map_cons, here.joins, ih]
  have named : ∀ item ∈ items, item.Named := by
    clear empty ok placed query nonempty marks
    induction asked with
    | nil => nofun
    | cons here _ ih => exact List.forall_mem_cons.mpr ⟨here.named, ih⟩
  have spelled : Template.Same (spell (clauseTokens d false items)) (outline d none items) :=
    spell_clause none items rfl
  have alternates : Alternates (clauseTokens d false items) := by
    apply (alternates_clause items).1
    rw [marks]
    exact alternating_of_validate nonempty placed
  rw [requested_eq asked, spelled.2]
  have counted : items.length = fs.length := asked.length_eq.symm
  refine .inr ⟨by simpa using counted, query, balanced_outline named none args.length, ?_, alternates,
    alternates.narrows⟩
  exact fun operand member => balanced_operands named member

def totalMapping : Mapping := fun name =>
  if name = ascii "total" then some ⟨ascii "total", [], none, .websearch, []⟩ else none

def totalFilter : Filter := ⟨ascii "total", Operator.eq.text, .int 1, []⟩

/-- The AND that is appended to a base with an OR binds to its last alternative only: a row that meets the first one
is kept though it does not meet the filter. -/
theorem outer_or_escapes_the_filter :
    buildFilters .plain (fun _ _ _ => .ok []) (ascii "SELECT 1 WHERE mine OR shared") [] (some [some totalFilter])
      totalMapping .postgres [] = .ok ⟨ascii "SELECT 1 WHERE mine OR shared AND ( total = $1 )", [.intValue 1]⟩ ∧
    denote not ([.operand true, .or, .operand false] ++ [.and, .opening] ++ [.operand false] ++ [.closing]) =
      some true ∧
    denote not [.operand true, .or, .operand false] = some true ∧ denote not [.operand false] = some false ∧
    (true ⊓ false) ≠ true := by
  exact ⟨rfl, rfl, rfl, rfl, by decide⟩

def orderingFilter : Filter := ⟨ascii "total", Operator.greater.text, .list [.int 1, .int 2], []⟩

/-- The expansion of the first filter is closed, and joined to the second filter by AND. -/
theorem sample_narrowed :
    let filters := some [some orderingFilter, some totalFilter]
    let ordering : Token Outline := .operand (outlineComparison (ascii "total") .greater)
    let clause := [.opening, ordering, .or, ordering, .closing, .and, .operand (outlineComparison (ascii "total") .eq)]
    buildFilters .plain (fun _ _ _ => .ok []) (ascii "SELECT 1 WHERE mine") [] filters totalMapping .postgres [] =
      .ok ⟨ascii "SELECT 1 WHERE mine AND ( (total > $1 OR total > $2) AND total = $3 )",
        [.int 1, .int 2, .intValue 1]⟩ ∧
    clauseTokens .postgres false (requested totalMapping filters) = clause ∧
    (spell clause).render Dialect.postgres.param 0 = ascii "(total > $1 OR total > $2) AND total = $3" ∧
    Balanced ((spell clause).render Dialect.postgres.param 0) ∧ Alternates clause ∧ Narrows clause := by
  intro filters ordering clause
  have built :
    buildFilters .plain (fun _ _ _ => .ok []) (ascii "SELECT 1 WHERE mine") [] filters totalMapping .postgres [] =
      .ok ⟨ascii "SELECT 1 WHERE mine AND ( (total > $1 OR total > $2) AND total = $3 )",
        [.int 1, .int 2, .intValue 1]⟩ := rfl
  obtain ⟨_, _, balanced, _, alternates, narrows⟩ := (filters_narrow_the_base built).resolve_left (by simp [filters])
  exact ⟨built, rfl, rfl, balanced, alternates, narrows⟩

end Gofi.Sqln
