import Gofi.Sqln.Outline
import Gofi.Text.Brackets

/-! The parentheses of every condition match. -/

namespace Gofi.Sqln

open Gofi.Go Gofi.Text
open Outline (phrase hole)

/-! Names hold no parentheses. -/

def identifierByte (byte : UInt8) : Bool := isNameByte byte || byte ∈ [32, 34, 46, 91, 93, 96]

theorem isQuoted_bytes {opening closing : UInt8} (opens : identifierByte opening = true)
    (closes : identifierByte closing = true) (ok : isQuoted closing rest = true) :
    ∀ byte ∈ opening :: rest, identifierByte byte = true := by
  simp only [isQuoted, Bool.and_eq_true, decide_eq_true_eq, List.all_eq_true, Bool.or_eq_true] at ok
  obtain ⟨⟨last, nonempty⟩, inside⟩ := ok
  intro byte member
  rcases List.mem_cons.mp member with rfl | member
  · exact opens
  rw [← List.dropLast_append_getLast? closing last] at member
  rcases List.mem_append.mp member with front | back
  · rcases inside byte front with name | rfl
    · simp [identifierByte, name]
    · rfl
  · rw [List.mem_singleton.mp back]
    exact closes

variable {part : Str}

private theorem isSegment_bytes (ok : isSegment part = true) : ∀ byte ∈ part, identifierByte byte = true := by
  unfold isSegment at ok
  split at ok
  · cases ok
  · exact isQuoted_bytes rfl rfl ok
  · exact isQuoted_bytes rfl rfl ok
  · exact isQuoted_bytes rfl rfl ok
  · simp only [Bool.and_eq_true, Bool.or_eq_true, decide_eq_true_eq, List.all_eq_true] at ok
    intro byte member
    rcases List.mem_cons.mp member with rfl | later
    · rcases ok.1 with letter | rfl
      · simp [identifierByte, isNameByte, letter]
      · rfl
    · simp [identifierByte, ok.2 byte later]

private theorem isIdentifier_bytes (ok : isIdentifier part = true) : ∀ byte ∈ part, identifierByte byte = true := by
  simp only [isIdentifier, Bool.and_eq_true, decide_eq_true_eq, List.all_eq_true] at ok
  intro byte member
  have whole : [46].intercalate (List.splitOn 46 part) = part := List.intercalate_splitOn 46
  rw [← whole] at member
  rcases mem_intercalate member with dot | ⟨segment, listed, inside⟩
  · rw [List.mem_singleton.mp dot]
    rfl
  · exact isSegment_bytes (ok.2 segment listed) byte inside

theorem nests_identifier (ok : isIdentifier part = true) (n : Nat) : Nests n n part := by
  have bytes := isIdentifier_bytes ok
  refine nests_of_plain (fun member => ?_) (fun member => ?_) n
  · exact absurd (bytes 40 member) (by decide)
  · exact absurd (bytes 41 member) (by decide)

theorem nests_columnName (ok : isColumnName part = true) (n : Nat) : Nests n n part := by
  have plain : ∀ byte ∈ part, isNameByte byte = true := by
    unfold isColumnName at ok
    split at ok
    · nofun
    · rename_i first rest
      simp only [Bool.and_eq_true, Bool.or_eq_true, decide_eq_true_eq, List.all_eq_true] at ok
      intro byte member
      rcases List.mem_cons.mp member with rfl | later
      · rcases ok.1.1 with letter | underscore
        · simp [isNameByte, letter]
        · simp [isNameByte, underscore]
      · rcases ok.1.2 byte later with (letter | digit) | underscore
        · simp [isNameByte, letter]
        · simp [isNameByte, digit]
        · simp [isNameByte, underscore]
  refine nests_of_plain (fun member => ?_) (fun member => ?_) n
  · exact absurd (plain 40 member) (by decide)
  · exact absurd (plain 41 member) (by decide)

private theorem nests_param (d : Dialect) (number n : Nat) : Nests n n (d.param number) := by
  have digits : ∀ byte ∈ formatNat number, byte ≠ 40 ∧ byte ≠ 41 := by
    intro byte member
    obtain ⟨small, bound, rfl⟩ := formatNat_digits number byte member
    interval_cases small <;> decide
  have plain (mark : Str) (free : 40 ∉ mark ∧ 41 ∉ mark) : Nests n n (mark ++ formatNat number) := by
    refine nests_of_plain (fun member => ?_) (fun member => ?_) n
    · rcases List.mem_append.mp member with front | back
      · exact free.1 front
      · exact (digits 40 back).1 rfl
    · rcases List.mem_append.mp member with front | back
      · exact free.2 front
      · exact (digits 41 back).2 rfl
  cases d with
  | postgres => exact plain _ (by decide)
  | mysql =>
    have question : Nests n n (ascii "?") := nests_of_plain (by decide) (by decide) n
    exact question
  | oracle | sqlserver => exact plain _ (by decide)

theorem nests_operator (op : Operator) : Nests 0 0 op.text := nests_of_depth (by cases op <;> decide)

theorem nests_space : Nests 0 0 (ascii " ") := nests_of_depth (by decide)

/-! Outlines. -/

section Outlines

variable {d : Dialect}

def Brackets (d : Dialect) (before after : Nat) (o : Outline) : Prop :=
  ∀ count, Nests before after (o.render d.param count)

variable {a b : Nat}

theorem Brackets.append {front back : Outline} (one : Brackets d a b front) (other : Brackets d b c back) :
    Brackets d a c (front ++ back) := by
  intro count
  rw [Template.render_append]
  exact (one count).append (other _)

theorem brackets_phrase {parts : List Str} (nests : Nests a b parts.flatten) : Brackets d a b (phrase parts) := by
  intro count
  simpa [phrase, Template.render] using nests

theorem brackets_hole (n : Nat) : Brackets d n n hole := by
  intro count
  simpa [hole, Template.render] using nests_param d (count + 1) n

theorem brackets_join {between : Outline} {parts : List Outline} (apart : Brackets d n n between)
    (each : ∀ part ∈ parts, Brackets d n n part) : Brackets d n n (Outline.join between parts) := by
  induction parts with
  | nil => exact fun _ _ => rfl
  | cons part rest ih =>
    obtain ⟨here, later⟩ := List.forall_mem_cons.mp each
    cases rest with
    | nil => exact here
    | cons next rest => exact (here.append apart).append (ih later)

variable {column : Str} (named : isIdentifier column = true)

include named

theorem balanced_null (op : Operator) : Brackets d 0 0 (outlineNull column op) := by
  apply brackets_phrase
  simpa using (nests_identifier named 0).append (nests_space.append (nests_operator op))

theorem balanced_comparison (op : Operator) : Brackets d 0 0 (outlineComparison column op) := by
  refine Brackets.append (brackets_phrase ?_) (brackets_hole 0)
  simpa using (nests_identifier named 0).append (nests_space.append ((nests_operator op).append nests_space))

theorem balanced_range : Brackets d 0 0 (outlineRange column) := by
  have lower : Brackets d 0 0 (phrase [column, ascii " BETWEEN "]) :=
    brackets_phrase (Nests.append (nests_identifier named 0) (nests_of_depth (by decide)))
  have middle : Brackets d 0 0 (phrase [ascii " AND "]) := brackets_phrase (nests_of_depth (by decide))
  exact ((lower.append (brackets_hole 0)).append middle).append (brackets_hole 0)

private theorem balanced_pattern (op : Operator) : Brackets d 0 0 (outlinePattern d column op) := by
  have escape : Brackets d 0 0 (phrase [likeEscapeClause]) := brackets_phrase (nests_of_depth (by decide))
  have spelled (keyword : String) (plain : depth 0 (ascii keyword) = some 0) :
      Brackets d 0 0 (phrase [column, ascii keyword] ++ hole ++ phrase [likeEscapeClause]) := by
    refine ((brackets_phrase (Nests.append (nests_identifier named 0) (nests_of_depth ?_))).append
      (brackets_hole 0)).append
      escape
    simpa using plain
  unfold outlinePattern
  split
  · split <;> exact spelled _ (by decide)
  · split <;> exact spelled _ (by decide)
  all_goals exact spelled _ (by decide)

theorem balanced_list (op : Operator) (count : Nat) : Brackets d 0 0 (outlineList column op count) := by
  have opened : Brackets d 0 1 (phrase [column, ascii " ", op.text, ascii " ("]) := by
    apply brackets_phrase
    have listed : Nests 0 1 (ascii " (") := nests_of_depth (by decide)
    simpa using (nests_identifier named 0).append (nests_space.append ((nests_operator op).append listed))
  have closed : Brackets d 1 0 (phrase [ascii ")"]) := brackets_phrase (nests_of_depth (by decide))
  have comma : Brackets d 1 1 (phrase [ascii ", "]) := brackets_phrase (nests_of_depth (by decide))
  refine (opened.append (brackets_join comma ?_)).append closed
  intro part member
  rw [List.eq_of_mem_replicate member]
  exact brackets_hole 1

private theorem balanced_expansion (op : Operator) (count : Nat) :
    Brackets d 0 0 (outlineExpansion column op count) := by
  have opened : Brackets d 0 1 (phrase [ascii "("]) := brackets_phrase (nests_of_depth (by decide))
  have closed : Brackets d 1 0 (phrase [ascii ")"]) := brackets_phrase (nests_of_depth (by decide))
  have space : Brackets d 1 1 (phrase [ascii " "]) := brackets_phrase (nests_of_depth (by decide))
  have or : Brackets d 1 1 (phrase [Connector.or.text]) := brackets_phrase (nests_of_depth (by decide))
  refine (opened.append (brackets_join ((space.append or).append space) ?_)).append closed
  intro part member
  rw [List.eq_of_mem_replicate member]
  exact fun numbers => (balanced_comparison named op numbers).deeper

theorem balanced_scalar (op : Operator) : Brackets d 0 0 (outlineScalar d column op) := by
  unfold outlineScalar
  split
  · exact balanced_pattern named op
  split
  · exact balanced_range named
  · exact balanced_comparison named op

private theorem balanced_several (op : Operator) (count : Nat) : Brackets d 0 0 (outlineSeveral column op count) := by
  unfold outlineSeveral
  split
  · exact balanced_range named
  split
  · exact balanced_list named _ _
  split
  · exact balanced_list named _ _
  · exact balanced_expansion named op count

end Outlines

section Search

variable {index : TextIndex} {qualifier : Str}

theorem nests_qualified (one : Nests n n qualifier) (other : Nests n n column) :
    Nests n n (Postgres.qualify qualifier column) := by
  unfold Postgres.qualify
  split
  · exact other
  · exact (one.append (nests_of_plain (by decide) (by decide) n)).append other

theorem nests_regconfig (index : TextIndex) : Nests 0 0 (Postgres.regconfig index) := by
  have config : Nests 0 0 (Postgres.textConfig index) :=
    nests_of_plain (Postgres.not_mem_textConfig index rfl) (Postgres.not_mem_textConfig index rfl) 0
  have quote : Nests 0 0 (ascii "'") := nests_of_depth (by decide)
  have cast : Nests 0 0 (ascii "'::regconfig") := nests_of_depth (by decide)
  exact (quote.append config).append cast

private theorem nests_columnVector (qualified : ∀ n, Nests n n qualifier)
    (named : isColumnName column.name = true) : Nests 0 0 (Postgres.columnVector index qualifier column) := by
  have opened : Nests 0 1 (ascii "to_tsvector(") := nests_of_depth (by decide)
  have coalesced : Nests 1 2 (ascii ", coalesce(") := nests_of_depth (by decide)
  have closed : Nests 2 0 (ascii ", ''))") := nests_of_depth (by decide)
  have vector := (((opened.append (nests_regconfig index).deeper).append coalesced).append
    (nests_qualified (qualified 2) (nests_columnName named 2))).append closed
  unfold Postgres.columnVector
  cases column.weight with
  | none => exact vector
  | some weight =>
    have weighted : Nests 0 1 (ascii "setweight(") := nests_of_depth (by decide)
    have quote : Nests 1 1 (ascii ", '") := nests_of_depth (by decide)
    have letter : Nests 1 1 weight.letter := nests_of_depth (by cases weight <;> decide)
    have ended : Nests 1 0 (ascii "')") := nests_of_depth (by decide)
    exact (((weighted.append vector.deeper).append quote).append letter).append ended

private theorem nests_document (qualified : ∀ n, Nests n n qualifier) :
    Nests 0 0 (Postgres.document index qualifier) := by
  unfold Postgres.document
  split
  · exact nests_qualified (qualified 0) (nests_columnName index.vectorColumn_named 0)
  · have opened : Nests 0 1 (ascii "(") := nests_of_depth (by decide)
    have closed : Nests 1 0 (ascii ")") := nests_of_depth (by decide)
    have apart : Nests 0 0 (ascii " || ") := nests_of_depth (by decide)
    have vectors : Nests 0 0 (Postgres.vectorExpr index qualifier) := by
      refine nests_intercalate apart fun part member => ?_
      obtain ⟨column, listed, rfl⟩ := List.mem_map.mp member
      exact nests_columnVector qualified (index.columns_named column listed)
    exact (opened.append vectors.deeper).append closed

private theorem balanced_search (d : Dialect) (qualified : ∀ n, Nests n n qualifier) :
    Brackets d 0 0 (outlineSearch d index qualifier) := by
  have matched : Brackets d 0 0 (phrase [ascii "MATCH(",
      join ", " (index.columns.map fun column => Postgres.qualify qualifier column.name), ascii ") AGAINST ("] ++
        hole ++
      phrase [ascii " IN BOOLEAN MODE)"]) := by
    have opened : Nests 0 1 (ascii "MATCH(") := nests_of_depth (by decide)
    have apart : Nests 1 1 (ascii ", ") := nests_of_depth (by decide)
    have against : Nests 1 1 (ascii ") AGAINST (") := nests_of_depth (by decide)
    have ended : Brackets d 1 0 (phrase [ascii " IN BOOLEAN MODE)"]) := brackets_phrase (nests_of_depth (by decide))
    have columns : Nests 1 1 (join ", " (index.columns.map fun column => Postgres.qualify qualifier column.name)) := by
      refine nests_intercalate apart fun part member => ?_
      obtain ⟨column, listed, rfl⟩ := List.mem_map.mp member
      exact nests_qualified (qualified 1) (nests_columnName (index.columns_named column listed) 1)
    have front : Brackets d 0 1 (phrase [ascii "MATCH(",
        join ", " (index.columns.map fun column => Postgres.qualify qualifier column.name), ascii ") AGAINST ("]) := by
      apply brackets_phrase
      simpa using opened.append (columns.append against)
    exact (front.append (brackets_hole 1)).append ended
  unfold outlineSearch
  split
  · have front : Brackets .postgres 0 0 (phrase [Postgres.document index qualifier, ascii " @@ "]) := by
      apply brackets_phrase
      have operator : Nests 0 0 (ascii " @@ ") := nests_of_depth (by decide)
      simpa using (nests_document qualified).append operator
    have opened : Brackets .postgres 0 1 (phrase [ascii "to_tsquery(", Postgres.regconfig index, ascii ", "]) := by
      apply brackets_phrase
      have query : Nests 0 1 (ascii "to_tsquery(") := nests_of_depth (by decide)
      have comma : Nests 1 1 (ascii ", ") := nests_of_depth (by decide)
      simpa using query.append ((nests_regconfig index).deeper.append comma)
    have closed : Brackets .postgres 1 0 (phrase [ascii ")"]) := brackets_phrase (nests_of_depth (by decide))
    exact ((front.append opened).append (brackets_hole 1)).append closed
  · exact matched

end Search

/-! What a request asks for. -/

theorem brackets_nil (d : Dialect) : Brackets d 0 0 [] := fun _ _ => rfl

theorem balanced_condition (named : (Item.condition field asked absent shape).Named) :
    Brackets d 0 0 (outlineCondition d field asked absent shape) := by
  unfold outlineCondition
  dsimp only
  by_cases searched : operatorNamed asked = .search
  · rw [Item.Named, if_pos (text_of_operatorNamed searched (by decide))] at named
    rw [if_pos searched]
    have nests (n : Nat) : Nests n n field.searchOn := by
      rcases named with empty | identifier
      · rw [empty]
        exact nests_of_plain (by decide) (by decide) n
      · exact nests_identifier identifier n
    cases field.search with
    | none => exact brackets_nil d
    | some index => exact balanced_search d nests
  · have plain : asked ≠ Operator.search.text := by
      rintro rfl
      exact searched (operatorNamed_text .search (by decide))
    rw [Item.Named, if_neg plain] at named
    rw [if_neg searched]
    split
    · exact balanced_null named _
    split
    · exact balanced_null named _
    split
    · exact balanced_scalar named _
    · exact balanced_scalar named _
    · exact balanced_several named _ _

/-- The parentheses of a whole clause match. -/
theorem balanced_outline (named : ∀ item ∈ items, item.Named) (previous : Option Bool) :
    Brackets d 0 0 (outline d previous items) := by
  induction items generalizing previous with
  | nil => exact brackets_nil d
  | cons item rest ih =>
    obtain ⟨here, later⟩ := List.forall_mem_cons.mp named
    have spaced : Brackets d 0 0 (if previous.isSome then phrase [ascii " "] else []) := by
      split
      · exact brackets_phrase (nests_of_depth (by decide))
      · exact brackets_nil d
    have joined : Brackets d 0 0 (if previous = some false then phrase [Connector.and.text, ascii " "] else []) := by
      split
      · exact brackets_phrase (nests_of_depth (by decide))
      · exact brackets_nil d
    cases item with
    | connector connector =>
      have word : Brackets d 0 0 (phrase [connector.text]) :=
        brackets_phrase (nests_of_depth (by cases connector <;> decide))
      exact (spaced.append word).append (ih later _)
    | condition field asked absent shape =>
      exact ((spaced.append joined).append (balanced_condition here)).append (ih later _)

end Gofi.Sqln
