import Gofi.Sqln.Outline

/-! Values of a request never reach the text of the query: it is woven from
literal texts, placeholders, and names that stand in the mapping. -/

namespace Gofi.Sqln

open Gofi.Go Gofi.Text
open Outline (phrase hole)

structure Alike (f g : Filter) : Prop where
  logicalOperator : f.logicalOperator = g.logicalOperator
  field : f.field = g.field
  condition : f.condition = g.condition
  absent : f.value.isNil = g.value.isNil
  shape : f.value.shape = g.value.shape

variable {m : Mapping}

theorem Alike.item_eq (alike : Alike f g) : f.item m = g.item m := by
  rw [Filter.item, Filter.item, alike.logicalOperator, alike.field, alike.condition, alike.absent, alike.shape]

private theorem items_of_alike {fs gs : List Filter}
    (alike : List.Forall₂ (Option.Rel Alike) (fs.map some) (gs.map some)) :
    fs.map (Filter.item m) = gs.map (Filter.item m) := by
  induction fs generalizing gs with
  | nil =>
    cases gs with
    | nil => rfl
    | cons => cases alike
  | cons f rest ih =>
    cases gs with
    | nil => cases alike
    | cons g others =>
      obtain ⟨here, later⟩ := List.forall₂_cons.mp alike
      cases here with
      | some same => rw [List.map_cons, List.map_cons, same.item_eq, ih later]

/-! The words of the text. -/

def literals : List Str :=
  (Operator.unset :: .overlaps :: allowedOperators).map Operator.text ++
  [" ", "AND", "OR", " BETWEEN ", " AND ", " ILIKE ", " NOT ILIKE ", " LIKE ", " NOT LIKE ", " ESCAPE '!'", " (", "(",
    ", ",
    ")", " @@ ", "to_tsquery(", ".", "to_tsvector(", ", coalesce(", ", ''))", "setweight(", ", 'A')", ", 'B')",
      ", 'C')",
    ", 'D')", " || ", "MATCH(", ") AGAINST (", " IN BOOLEAN MODE)"].map ascii

def Field.names (field : Field) : List Str :=
  field.column ::
    match field.search with
    | none => []
    | some index => index.columns.map TextColumn.name ++ [index.vectorColumn, index.language, field.searchOn]

def Item.names : Item → List Str
  | .connector _ => []
  | .condition field _ _ _ => field.names

def namesOf (m : Mapping) (filters : List (Option Filter)) : List Str :=
  filters.flatMap fun f => ((f.bind fun f => m f.field).map Field.names).getD []

/-- A text made of literal texts, placeholders, and the given names. -/
inductive Woven (d : Dialect) (names : List Str) : Str → Prop
  | empty : Woven d names []
  | literal {word rest : Str} (known : word ∈ literals) (later : Woven d names rest) : Woven d names (word ++ rest)
  | name {word rest : Str} (known : word ∈ names) (later : Woven d names rest) : Woven d names (word ++ rest)
  /-- The configuration of a language. -/
  | config {language rest : Str} (known : language ∈ names) (later : Woven d names rest) :
      Woven d names (ascii "'" ++ language ++ ascii "'::regconfig" ++ rest)
  /-- The configuration that the SDK makes of a language. -/
  | unaccent {language rest : Str} (known : language ∈ names) (later : Woven d names rest) :
      Woven d names (ascii "'gofi_" ++ language ++ ascii "_unaccent'::regconfig" ++ rest)
  | placeholder {rest : Str} (number : Nat) (later : Woven d names rest) : Woven d names (d.param number ++ rest)

section Woven

variable {d : Dialect} {names : List Str}

@[simp] theorem operator_known (op : Operator) : op.text ∈ literals :=
  List.mem_append_left _ (List.mem_map_of_mem (by cases op <;> decide))

@[simp] theorem word_known {word : String}
    (listed : word ∈ [" ", "AND", "OR", " BETWEEN ", " AND ", " ILIKE ", " NOT ILIKE ",
    " LIKE ", " NOT LIKE ", " ESCAPE '!'", " (", "(", ", ", ")", " @@ ", "to_tsquery(", ".", "to_tsvector(",
      ", coalesce(",
    ", ''))", "setweight(", ", 'A')", ", 'B')", ", 'C')", ", 'D')", " || ", "MATCH(", ") AGAINST (",
    " IN BOOLEAN MODE)"]) : ascii word ∈ literals :=
  List.mem_append_right _ (List.mem_map_of_mem listed)

@[simp] theorem connector_known (connector : Connector) : connector.text ∈ literals := by
  cases connector <;> exact word_known (by simp)

theorem Woven.append {front back : Str} (one : Woven d names front) (other : Woven d names back) :
    Woven d names (front ++ back) := by
  induction one with
  | empty => exact other
  | literal known _ ih => rw [List.append_assoc]; exact .literal known ih
  | name known _ ih => rw [List.append_assoc]; exact .name known ih
  | config known _ ih => rw [List.append_assoc]; exact .config known ih
  | unaccent known _ ih => rw [List.append_assoc]; exact .unaccent known ih
  | placeholder number _ ih => rw [List.append_assoc]; exact .placeholder number ih

theorem woven_literal {word : Str} (known : word ∈ literals) : Woven d names word := by
  have rest : Woven d names [] := .empty
  simpa using Woven.literal known rest

theorem woven_name {word : Str} (known : word ∈ names) : Woven d names word := by
  have rest : Woven d names [] := .empty
  simpa using Woven.name known rest

private theorem woven_flatten {parts : List Str} (each : ∀ part ∈ parts, Woven d names part) :
    Woven d names parts.flatten := by
  induction parts with
  | nil => exact .empty
  | cons part rest ih =>
    obtain ⟨here, later⟩ := List.forall_mem_cons.mp each
    exact here.append (ih later)

theorem woven_join {between : String} {parts : List Str} (known : ascii between ∈ literals)
    (each : ∀ part ∈ parts, Woven d names part) : Woven d names (join between parts) := by
  unfold join
  induction parts with
  | nil => exact .empty
  | cons part rest ih =>
    obtain ⟨here, later⟩ := List.forall_mem_cons.mp each
    cases rest with
    | nil => simpa [List.intercalate] using here
    | cons next rest =>
      rw [intercalate_cons_cons]
      exact (here.append (woven_literal known)).append (ih later)

def WovenOutline (d : Dialect) (names : List Str) (o : Outline) : Prop :=
  ∀ count, Woven d names (o.render d.param count)

theorem wovenOutline_nil : WovenOutline d names [] := fun _ => .empty

theorem WovenOutline.append {front back : Outline} (one : WovenOutline d names front)
    (other : WovenOutline d names back) :
    WovenOutline d names (front ++ back) := by
  intro count
  rw [Template.render_append]
  exact (one count).append (other _)

theorem wovenOutline_phrase {parts : List Str} (each : ∀ part ∈ parts, Woven d names part) :
    WovenOutline d names (phrase parts) := by
  intro count
  simpa [phrase, Template.render] using woven_flatten each

theorem wovenOutline_hole : WovenOutline d names hole := by
  intro count
  exact .placeholder (count + 1) .empty

theorem wovenOutline_join {between : Outline} {parts : List Outline} (apart : WovenOutline d names between)
    (each : ∀ part ∈ parts, WovenOutline d names part) : WovenOutline d names (Outline.join between parts) := by
  induction parts with
  | nil => exact wovenOutline_nil
  | cons part rest ih =>
    obtain ⟨here, later⟩ := List.forall_mem_cons.mp each
    cases rest with
    | nil => exact here
    | cons next rest => exact (here.append apart).append (ih later)

theorem wovenOutline_literal {word : Str} (known : word ∈ literals) : WovenOutline d names (phrase [word]) :=
  wovenOutline_phrase fun part member => by
    rw [List.mem_singleton.mp member]
    exact woven_literal known

/-! The outlines of conditions. -/

section Conditions

variable {column : Str} (known : column ∈ names)

include known

theorem wovenOutline_column {parts : List Str} (each : ∀ part ∈ parts, part ∈ literals) :
    WovenOutline d names (phrase (column :: parts)) := by
  apply wovenOutline_phrase
  intro part member
  rcases List.mem_cons.mp member with rfl | later
  · exact woven_name known
  · exact woven_literal (each part later)

theorem woven_null (op : Operator) : WovenOutline d names (outlineNull column op) := by
  apply wovenOutline_column known
  simp

theorem woven_comparison (op : Operator) : WovenOutline d names (outlineComparison column op) := by
  refine WovenOutline.append (wovenOutline_column known ?_) wovenOutline_hole
  simp

theorem woven_range : WovenOutline d names (outlineRange column) := by
  have lower : WovenOutline d names (phrase [column, ascii " BETWEEN "]) := wovenOutline_column known (by simp)
  exact ((lower.append wovenOutline_hole).append (wovenOutline_literal (by simp))).append wovenOutline_hole

private theorem woven_pattern (op : Operator) : WovenOutline d names (outlinePattern d column op) := by
  have spelled (keyword : String) (listed : keyword ∈ [" ILIKE ", " NOT ILIKE ", " LIKE ", " NOT LIKE "]) :
      WovenOutline d names (phrase [column, ascii keyword] ++ hole ++ phrase [likeEscapeClause]) := by
    refine WovenOutline.append (.append (wovenOutline_column known ?_) wovenOutline_hole)
      (wovenOutline_literal (by simp [likeEscapeClause]))
    simp only [List.mem_cons, List.not_mem_nil, or_false] at listed
    rcases listed with rfl | rfl | rfl | rfl <;> simp
  unfold outlinePattern
  apply spelled
  cases op <;> cases d <;> simp

theorem woven_list (op : Operator) (count : Nat) : WovenOutline d names (outlineList column op count) := by
  have opened : WovenOutline d names (phrase [column, ascii " ", op.text, ascii " ("]) := by
    apply wovenOutline_column known
    simp
  refine (opened.append (wovenOutline_join (wovenOutline_literal (by simp)) ?_)).append
    (wovenOutline_literal (by simp))
  intro part member
  rw [List.eq_of_mem_replicate member]
  exact wovenOutline_hole

private theorem woven_expansion (op : Operator) (count : Nat) :
    WovenOutline d names (outlineExpansion column op count) := by
  have between : WovenOutline d names (phrase [ascii " "] ++ phrase [Connector.or.text] ++ phrase [ascii " "]) :=
    ((wovenOutline_literal (by simp)).append (wovenOutline_literal (by simp))).append (wovenOutline_literal (by simp))
  refine WovenOutline.append (.append (wovenOutline_literal (by simp)) (wovenOutline_join between ?_))
    (wovenOutline_literal (by simp))
  intro part member
  rw [List.eq_of_mem_replicate member]
  exact woven_comparison known op

theorem woven_scalar (op : Operator) : WovenOutline d names (outlineScalar d column op) := by
  unfold outlineScalar
  split
  · exact woven_pattern known op
  split
  · exact woven_range known
  · exact woven_comparison known op

private theorem woven_several (op : Operator) (count : Nat) :
    WovenOutline d names (outlineSeveral column op count) := by
  unfold outlineSeveral
  split
  · exact woven_range known
  split
  · exact woven_list known .isIn count
  split
  · exact woven_list known .notIn count
  · exact woven_expansion known op count

end Conditions

theorem woven_qualified {qualifier column : Str} (one : qualifier ∈ names) (other : column ∈ names) :
    Woven d names (Postgres.qualify qualifier column) := by
  unfold Postgres.qualify
  split
  · exact woven_name other
  · exact ((woven_name one).append (woven_literal (by simp))).append (woven_name other)

private theorem woven_search {qualifier : Str} (columns : ∀ column ∈ index.columns, column.name ∈ names)
    (vector : index.vectorColumn ∈ names) (language : index.language ∈ names) (qualified : qualifier ∈ names) :
    WovenOutline d names (outlineSearch d index qualifier) := by
  have config : Woven d names (Postgres.regconfig index) := by
    unfold Postgres.regconfig Postgres.textConfig
    split
    · simpa [ascii] using Woven.unaccent (d := d) language .empty
    · simpa using Woven.config (d := d) language .empty
  have columnVector (column : TextColumn) (member : column ∈ index.columns) :
      Woven d names (Postgres.columnVector index qualifier column) := by
    have plain := ((((woven_literal (by simp : ascii "to_tsvector(" ∈ literals)).append config).append
      (woven_literal (by simp : ascii ", coalesce(" ∈ literals))).append
      (woven_qualified qualified (columns column member))).append (woven_literal (by simp : ascii ", ''))" ∈ literals))
    unfold Postgres.columnVector
    cases column.weight with
    | none => exact plain
    | some weight =>
      have label : Woven d names (ascii ", '" ++ weight.letter ++ ascii "')") := by
        have known : ascii ", '" ++ weight.letter ++ ascii "')" ∈ literals := by cases weight <;> decide
        exact woven_literal known
      simpa using ((woven_literal (by simp : ascii "setweight(" ∈ literals)).append plain).append label
  have document : Woven d names (Postgres.document index qualifier) := by
    unfold Postgres.document
    split
    · exact woven_qualified qualified vector
    · refine ((woven_literal (by simp)).append (woven_join (by simp) ?_)).append (woven_literal (by simp))
      intro part member
      obtain ⟨column, listed, rfl⟩ := List.mem_map.mp member
      exact columnVector column listed
  have listed :
    Woven d names (join ", " (index.columns.map fun column => Postgres.qualify qualifier column.name)) := by
    apply woven_join (by simp)
    intro part member
    obtain ⟨column, present, rfl⟩ := List.mem_map.mp member
    exact woven_qualified qualified (columns column present)
  have matched : WovenOutline d names (phrase [ascii "MATCH(",
      join ", " (index.columns.map fun column => Postgres.qualify qualifier column.name), ascii ") AGAINST ("] ++
        hole ++
      phrase [ascii " IN BOOLEAN MODE)"]) := by
    refine WovenOutline.append (.append (wovenOutline_phrase ?_) wovenOutline_hole) (wovenOutline_literal (by simp))
    simp only [List.forall_mem_cons, List.not_mem_nil, IsEmpty.forall_iff, implies_true, and_true]
    exact ⟨woven_literal (by simp), listed, woven_literal (by simp)⟩
  unfold outlineSearch
  split
  · refine WovenOutline.append (.append (.append (wovenOutline_phrase ?_) (wovenOutline_phrase ?_)) wovenOutline_hole)
      (wovenOutline_literal (by simp))
    · simp only [List.forall_mem_cons, List.not_mem_nil, IsEmpty.forall_iff, implies_true, and_true]
      exact ⟨document, woven_literal (by simp)⟩
    · simp only [List.forall_mem_cons, List.not_mem_nil, IsEmpty.forall_iff, implies_true, and_true]
      exact ⟨woven_literal (by simp), config, woven_literal (by simp)⟩
  · exact matched

private theorem woven_condition (known : ∀ name ∈ field.names, name ∈ names) (condition : Str) (absent : Bool)
    (shape : Option Nat) : WovenOutline d names (outlineCondition d field condition absent shape) := by
  have column : field.column ∈ names := known _ (List.mem_cons_self ..)
  unfold outlineCondition
  dsimp only
  split
  · cases indexed : field.search with
    | none => exact wovenOutline_nil
    | some index =>
      have listed (name : Str) (member : name ∈ index.columns.map TextColumn.name ++
          [index.vectorColumn, index.language, field.searchOn]) : name ∈ names := by
        apply known
        simp only [Field.names, indexed]
        exact List.mem_cons_of_mem _ member
      exact woven_search (fun column member => listed _ (List.mem_append_left _ (List.mem_map_of_mem member)))
        (listed _ (by simp)) (listed _ (by simp)) (listed _ (by simp))
  split
  · exact woven_null column _
  split
  · exact woven_null column .isNull
  split
  · exact woven_scalar column _
  · exact woven_scalar column _
  · exact woven_several column _ _

private theorem woven_outline (known : ∀ item ∈ items, ∀ name ∈ item.names, name ∈ names)
    (previous : Option Bool) : WovenOutline d names (outline d previous items) := by
  induction items generalizing previous with
  | nil => exact wovenOutline_nil
  | cons item rest ih =>
    obtain ⟨here, later⟩ := List.forall_mem_cons.mp known
    have spaced : WovenOutline d names (if previous.isSome then phrase [ascii " "] else []) := by
      split
      · exact wovenOutline_literal (by simp)
      · exact wovenOutline_nil
    have joined :
      WovenOutline d names (if previous = some false then phrase [Connector.and.text, ascii " "] else []) := by
      split
      · apply wovenOutline_phrase
        intro part member
        exact woven_literal ((by simp : ∀ word ∈ [Connector.and.text, ascii " "], word ∈ literals) part member)
      · exact wovenOutline_nil
    cases item with
    | connector connector =>
      exact (spaced.append (wovenOutline_literal (by simp))).append (ih later _)
    | condition field condition absent shape =>
      exact ((spaced.append joined).append (woven_condition here condition absent shape)).append (ih later _)

end Woven

private theorem names_of_item {f : Filter} {item : Item} (found : f.item m = some item) :
    ∀ name ∈ item.names, name ∈ ((m f.field).map Field.names).getD [] := by
  intro name member
  unfold Filter.item at found
  split at found
  · cases found
    cases member
  split at found
  · cases found
    cases member
  · obtain ⟨field, mapped, rfl⟩ := Option.map_eq_some_iff.mp found
    rw [mapped]
    exact member

/-- Requests that differ in their values only have the same text, and its names are those of
mapping entries that the request names. -/
theorem values_stay_out_of_the_text (lib : Library) (parse : Parser) (base : Str) (args : List Value) (m : Mapping)
    (d : Dialect) (opts : List FilterOption) :
    (∀ filters others result other, buildFilters lib parse base args filters m d opts = .ok result →
      buildFilters lib parse base args others m d opts = .ok other →
      List.Forall₂ (Option.Rel Alike) (filters.getD []) (others.getD []) → result.query = other.query) ∧
    ∀ filters result, buildFilters lib parse base args (some filters) m d opts = .ok result → filters ≠ [] →
      ∃ clause, result.query = base ++ ascii " AND ( " ++ clause ++ ascii " )" ∧
        Woven d (namesOf m filters) clause := by
  constructor
  · intro filters others result other one another alike
    by_cases empty : filters.getD [] = []
    · have both : others.getD [] = [] := by simpa [empty] using alike
      rw [buildFilters_empty empty] at one
      rw [buildFilters_empty both] at another
      cases one
      cases another
      rfl
    · have nonempty : others.getD [] ≠ [] := fun both => empty (by simpa [both] using alike)
      obtain ⟨filters, rfl⟩ : ∃ list, filters = some list := by
        cases filters with
        | none => exact absurd rfl empty
        | some list => exact ⟨list, rfl⟩
      obtain ⟨others, rfl⟩ : ∃ list, others = some list := by
        cases others with
        | none => exact absurd rfl nonempty
        | some list => exact ⟨list, rfl⟩
      obtain ⟨fs, items, rfl, asked, _, query⟩ := query_outline empty one
      obtain ⟨gs, others, rfl, asked', _, query'⟩ := query_outline nonempty another
      have same : items = others := by
        apply List.map_injective_iff.mpr (Option.some_injective Item)
        rw [← items_of_requests asked, ← items_of_requests asked', items_of_alike alike]
      rw [query, query', same]
  · intro filters result ok nonempty
    obtain ⟨fs, items, rfl, asked, _, query⟩ := query_outline nonempty ok
    refine ⟨_, query, woven_outline ?_ none args.length⟩
    intro item listed name member
    have some_item : some item ∈ fs.map (Filter.item m) := by
      rw [items_of_requests asked]
      exact List.mem_map_of_mem listed
    obtain ⟨f, present, found⟩ := List.mem_map.mp some_item
    exact List.mem_flatMap.mpr ⟨some f, List.mem_map_of_mem present, names_of_item found name member⟩

def sampleMapping : Mapping := fun name =>
  if name = ascii "total" then some ⟨ascii "o.total", [], none, .websearch, []⟩ else none

def sampleFilter (condition : String) (value : Value) : Filter := ⟨ascii "total", ascii condition, value, []⟩

def sampleBuild (one other : Value) : Except Err QueryParam :=
  buildFilters .plain (fun _ _ _ => .ok []) (ascii "WHERE a") [] (some [some (sampleFilter ">" (.list [one, other]))])
    sampleMapping .postgres []

def sampleParam (one other : Value) : QueryParam :=
  ⟨ascii "WHERE a AND ( (o.total > $1 OR o.total > $2) )", [one, other]⟩

theorem sample_texts_agree : sampleBuild (.int 1) (.int 2) = .ok (sampleParam (.int 1) (.int 2)) ∧
    sampleBuild (.string (ascii "') OR 1=1 --")) .null = .ok (sampleParam (.string (ascii "') OR 1=1 --")) .null) ∧
    (sampleParam (.int 1) (.int 2)).query = (sampleParam (.string (ascii "') OR 1=1 --")) .null).query ∧
    ∃ clause, (sampleParam (.int 1) (.int 2)).query = ascii "WHERE a" ++ ascii " AND ( " ++ clause ++ ascii " )" ∧
      Woven .postgres (namesOf sampleMapping [some (sampleFilter ">" (.list [.int 1, .int 2]))]) clause := by
  have numbers : sampleBuild (.int 1) (.int 2) = .ok (sampleParam (.int 1) (.int 2)) := rfl
  have texts : sampleBuild (.string (ascii "') OR 1=1 --")) .null =
      .ok (sampleParam (.string (ascii "') OR 1=1 --")) .null) := rfl
  obtain ⟨agree, woven⟩ :=
    values_stay_out_of_the_text .plain (fun _ _ _ => .ok []) (ascii "WHERE a") [] sampleMapping .postgres []
  refine ⟨numbers, texts, ?_, woven _ _ numbers (by simp)⟩
  exact agree _ _ _ _ numbers texts (.cons (.some ⟨rfl, rfl, rfl, rfl, rfl⟩) .nil)

end Gofi.Sqln
