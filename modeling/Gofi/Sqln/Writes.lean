import Gofi.Sqln.Inline

/-! The builder binds its values in the order in which it writes their
placeholders: what it writes of a clause is the inline text with its values
numbered from left to right. -/

namespace Gofi.Sqln

open Gofi.Go Gofi.Text
open Sql (text value)

def Renders (st : Setting) (written : α → Str) (binding : Binding α) (sql : Sql) : Prop :=
  ∀ params, written (binding.run params).1 = sql.render st.dialect.param params.length ∧
    (binding.run params).2 = params ++ sql.values

def Writes (st : Setting) (run : Builder → Builder) (sql : Sql) : Prop :=
  ∀ b, (run b).err = none → b.err = none ∧
    run b = ⟨b.params ++ sql.values, b.sb ++ sql.render st.dialect.param b.params.length, none⟩

variable {st : Setting}

@[simp] theorem render_text (mark : Nat → Str) (count : Nat) (part : Str) : (text part).render mark count = part := by
  simp [text, Template.render]

@[simp] theorem values_text (part : Str) : (text part).values = [] := rfl

@[simp] theorem render_value (mark : Nat → Str) (count : Nat) (v : Value) :
    (value v).render mark count = mark (count + 1) := by
  simp [value, Template.render]

@[simp] theorem values_value (v : Value) : (value v).values = [v] := rfl

@[simp] theorem values_nil : Template.values ([] : Sql) = [] := rfl

@[simp] theorem render_nil (mark : Nat → Str) (count : Nat) : Template.render mark count ([] : Sql) = [] := rfl

namespace Writes

theorem write (parts : List Str) : Writes st (·.write parts) (text parts.flatten) := by
  intro b fine
  have before : b.err = none := fine
  refine ⟨before, ?_⟩
  simp [Builder.write, before]

theorem fail (err : Err) (sql : Sql) : Writes st (·.fail err) sql := by
  intro b fine
  cases found : b.err <;> simp [Builder.fail, found] at fine

theorem same : Writes st id [] := by
  intro b fine
  have before : b.err = none := fine
  obtain ⟨params, sb, err⟩ := b
  cases before
  simp

theorem comp {first second : Builder → Builder} {front back : Sql} (one : Writes st first front)
    (other : Writes st second back) : Writes st (fun b => second (first b)) (front ++ back) := by
  intro b fine
  obtain ⟨middle, ended⟩ := other (first b) fine
  obtain ⟨before, began⟩ := one b middle
  refine ⟨before, ended.trans ?_⟩
  rw [began]
  simp [Template.render_append]

theorem binding {parts : Binding (List Str)} {sql : Sql} (renders : Renders st List.flatten parts sql) :
    Writes st (·.writeBinding parts) sql := by
  intro b fine
  have before : b.err = none := fine
  obtain ⟨written, bound⟩ := renders b.params
  refine ⟨before, ?_⟩
  rw [← written, ← bound, ← before]
  rfl

end Writes

theorem renders_one (parts : Str → List Str) (v : Value) {sql : Sql}
    (written : ∀ count, sql.render st.dialect.param count = (parts (st.dialect.param (count + 1))).flatten)
    (bound : sql.values = [v]) :
    Renders st List.flatten (do let param ← Builder.nextParam st v; pure (parts param)) sql := by
  intro params
  rw [written, bound]
  exact ⟨rfl, rfl⟩

private theorem renders_list (values : List Value) :
    Renders st List.flatten (Builder.listParams st values) (Sql.join (ascii ", ") (values.map value)) := by
  induction values with
  | nil =>
    intro params
    have run : (Builder.listParams st []).run params = ([], params) := rfl
    rw [run]
    simp [Sql.join]
  | cons v rest ih =>
    cases rest with
    | nil =>
      intro params
      have run : (Builder.listParams st [v]).run params = ([st.dialect.param (params.length + 1)], params ++ [v]) :=
        rfl
      rw [run]
      simp [Sql.join]
    | cons next rest =>
      intro params
      obtain ⟨written, bound⟩ := ih (params ++ [v])
      have run : (Builder.listParams st (v :: next :: rest)).run params =
          (st.dialect.param (params.length + 1) :: ascii ", " ::
            ((Builder.listParams st (next :: rest)).run (params ++ [v])).1,
          ((Builder.listParams st (next :: rest)).run (params ++ [v])).2) := rfl
      rw [run, bound, List.flatten_cons, List.flatten_cons, written]
      simp [Sql.join, Template.render_append]

/-! Searches. -/

def RendersText (st : Setting) (binding : Binding (Option Str)) (sql : Sql) : Prop :=
  ∀ params expr after, binding.run params = (some expr, after) →
    expr = sql.render st.dialect.param params.length ∧ after = params ++ sql.values

theorem RendersText.nothing (sql : Sql) : RendersText st (pure none) sql := by
  intro params expr after run
  cases run

theorem RendersText.one (expr : Str → Str) (v : Value) {sql : Sql}
    (written : ∀ count, sql.render st.dialect.param count = expr (st.dialect.param (count + 1)))
    (bound : sql.values = [v]) :
    RendersText st (do let param ← Builder.nextParam st v; pure (some (expr param))) sql := by
  intro params rendered after run
  cases run
  rw [written, bound]
  exact ⟨rfl, rfl⟩

private theorem postgres_renders (idx : TextIndex) (qualifier : Str) (q : TextQuery) (kind : Builder.TextKind)
    (postgres : st.dialect = .postgres) :
    RendersText st (Builder.textOf st idx qualifier q kind) (Postgres.textSql idx qualifier q kind) := by
  cases searched : Postgres.textSearchValue q with
  | none =>
    cases kind <;>
      simp only [Builder.textOf, postgres, Postgres.textMatch, Postgres.textRank, Postgres.textHighlight, searched] <;>
      exact .nothing _
  | some search =>
    cases kind with
    | condition =>
      simp only [Builder.textOf, postgres, Postgres.textMatch, searched]
      refine .one _ _ (fun count => ?_) ?_
      · simp [Postgres.textSql, Postgres.tsquerySql, Postgres.tsquery, Template.render_append]
      · simp [Postgres.textSql, Postgres.tsquerySql, searched]
    | rank =>
      simp only [Builder.textOf, postgres, Postgres.textRank, searched]
      refine .one _ _ (fun count => ?_) ?_
      · simp [Postgres.textSql, Postgres.tsquerySql, Postgres.tsquery, Template.render_append]
      · simp [Postgres.textSql, Postgres.tsquerySql, searched]
    | highlight column =>
      simp only [Builder.textOf, postgres, Postgres.textHighlight, searched]
      refine .one _ _ (fun count => ?_) ?_
      · simp [Postgres.textSql, Postgres.tsquerySql, Postgres.tsquery, Template.render_append]
      · simp [Postgres.textSql, Postgres.tsquerySql, searched]

theorem matchSql_render (columns : List TextColumn) (qualifier search : Str) (mark : Nat → Str) (count : Nat) :
    (MySQL.matchSql columns qualifier search).render mark count = MySQL.matchColumns columns qualifier
      (mark (count + 1)) := by
  simp [MySQL.matchSql, MySQL.matchColumns, Template.render_append]

@[simp] theorem matchSql_values (columns : List TextColumn) (qualifier search : Str) :
    (MySQL.matchSql columns qualifier search).values = [.string search] := by
  simp [MySQL.matchSql]

private theorem mapM_length (step : α → Binding β) (items : List α) (params : List Value) :
    ((items.mapM step).run params).1.length = items.length := by
  induction items generalizing params with
  | nil => rfl
  | cons item rest ih =>
    rw [List.mapM_cons]
    exact congrArg (· + 1) (ih ((step item).run params).2)

private theorem rankParts_render (qualifier search : Str) (groups : List (List TextColumn)) : Renders st (join " + ")
    (groups.mapM (MySQL.rankPart qualifier search (Builder.nextParam st)))
    (Sql.join (ascii " + ") (groups.map (MySQL.rankSql qualifier search))) := by
  induction groups with
  | nil =>
    intro params
    have run : (List.mapM (MySQL.rankPart qualifier search (Builder.nextParam st)) []).run params = ([], params) := rfl
    rw [run]
    simp [Sql.join, join]
  | cons columns rest ih =>
    intro params
    obtain ⟨written, bound⟩ := ih (params ++ [.string search])
    have length : ((List.mapM (MySQL.rankPart qualifier search (Builder.nextParam st)) rest).run
        (params ++ [.string search])).1.length = rest.length := mapM_length _ _ _
    have run : (List.mapM (MySQL.rankPart qualifier search (Builder.nextParam st)) (columns :: rest)).run params =
        ((MySQL.matchColumns columns qualifier (st.dialect.param (params.length + 1)) ++ ascii " * " ++
          ((columns.head?.map TextColumn.effective).getD .d).factor) ::
          ((List.mapM (MySQL.rankPart qualifier search (Builder.nextParam st)) rest).run
            (params ++ [.string search])).1,
        ((List.mapM (MySQL.rankPart qualifier search (Builder.nextParam st)) rest).run
          (params ++ [.string search])).2) := by
      rw [List.mapM_cons]
      rfl
    rw [run, bound]
    generalize ((List.mapM (MySQL.rankPart qualifier search (Builder.nextParam st)) rest).run
      (params ++ [.string search])).1 = parts at written length
    cases rest with
    | nil =>
      cases List.length_eq_zero_iff.mp length
      simp [Sql.join, join, MySQL.rankSql, Template.render_append, matchSql_render]
    | cons next rest =>
      cases parts with
      | nil => cases length
      | cons part parts =>
        have joined : ∀ front, join " + " (front :: part :: parts) = front ++ ascii " + " ++
          join " + " (part :: parts) := by
          simp [join, List.intercalate]
        dsimp only
        rw [joined, written]
        simp [Sql.join, MySQL.rankSql, Template.render_append, matchSql_render]

private theorem mysql_renders (idx : TextIndex) (qualifier : Str) (q : TextQuery) (kind : Builder.TextKind)
    (mysql : st.dialect = .mysql) :
    RendersText st (Builder.textOf st idx qualifier q kind) (MySQL.textSql st.lib idx qualifier q kind) := by
  cases kind with
  | condition =>
    simp only [Builder.textOf, mysql, MySQL.textMatch]
    cases searched : MySQL.textSearchValue st.lib idx q with
    | none => exact .nothing _
    | some search =>
      refine .one _ _ (fun count => ?_) ?_
      · exact matchSql_render ..
      · simp [MySQL.textSql, searched]
  | rank =>
    simp only [Builder.textOf, mysql, MySQL.textRank, MySQL.textSql]
    cases searched : MySQL.textSearchValue st.lib idx q with
    | none => exact .nothing _
    | some search =>
      cases idx.weightGroups with
      | none =>
        refine .one _ _ (fun count => ?_) ?_
        · exact matchSql_render ..
        · simp
      | some groups =>
        intro params expr after run
        have ranks : Renders st _ _ _ := rankParts_render qualifier (MySQL.rankValue st.lib idx q) groups
        obtain ⟨written, bound⟩ := ranks params
        cases run
        refine ⟨?_, bound.trans (by simp)⟩
        refine (congrArg (fun parts => ascii "(" ++ parts ++ ascii ")") written).trans ?_
        simp [Template.render_append]
  | highlight column =>
    simp only [Builder.textOf, mysql, MySQL.textHighlight, MySQL.textSql]
    cases MySQL.highlightAlternatives st.lib idx q with
    | nil =>
      intro params expr after run
      cases run
      simp
    | cons alternative alternatives =>
      intro params expr after run
      cases run
      simp [Template.render_append]

private theorem textExpr_spec
    (fine : (Builder.textExpr st b s kind).2.err = none) : b.err = none ∧ Builder.textExpr st b s kind =
      ((searchSql st s kind).render st.dialect.param b.params.length,
        ⟨b.params ++ (searchSql st s kind).values, b.sb, none⟩) := by
  unfold Builder.textExpr searchSql at *
  cases target : Builder.textTarget st s kind with
  | error err =>
    simp only [target] at fine
    cases found : b.err <;> simp [Builder.fail, found] at fine
  | ok found =>
    obtain ⟨idx, aliased, q⟩ := found
    simp only [target] at fine ⊢
    have renders : RendersText st (Builder.textOf st idx aliased q kind) (textSql st idx aliased q kind) := by
      cases d : st.dialect with
      | postgres => simpa only [textSql, d] using postgres_renders idx aliased q kind d
      | mysql => simpa only [textSql, d] using mysql_renders idx aliased q kind d
      | oracle | sqlserver => simp [Builder.textTarget, d, Dialect.hasFullText] at target
    cases run : (Builder.textOf st idx aliased q kind).run b.params with
    | mk result after =>
      cases result with
      | none =>
        rw [run] at fine
        cases found : b.err <;> simp [Builder.fail, found] at fine
      | some expr =>
        rw [run] at fine
        obtain ⟨rfl, rfl⟩ := renders b.params expr after run
        have before : b.err = none := fine
        exact ⟨before, by simp [before]⟩

private theorem writes_search (s : Search) : Writes st (Builder.writeSearch st · s) (searchSql st s .condition) := by
  intro b fine
  have quiet : (Builder.textExpr st b s .condition).2.err = none := fine
  obtain ⟨before, same⟩ := textExpr_spec quiet
  refine ⟨before, ?_⟩
  simp [Builder.writeSearch, same, Builder.write]

/-! Predicates. -/

theorem writes_like (p : Predicate) (form : Str → Str) (keyword : String)
    (spelled : ∀ param, form param = p.field ++ ascii keyword ++ param) :
    Writes st (Builder.writeLike st · p form) (likeSql st p keyword) := by
  unfold Builder.writeLike likeSql
  cases Builder.likePattern st p with
  | error err =>
    intro b fine
    cases found : b.err <;> cases literal : p.literal <;> simp [Builder.fail, Builder.write, found, literal] at fine
  | ok pattern =>
    have matched : Writes st (·.writeBinding (do let param ← Builder.nextParam st pattern; pure [form param]))
        (text (p.field ++ ascii keyword) ++ value pattern) :=
      .binding (renders_one _ _ (fun count => by simp [spelled, Template.render_append]) (by simp))
    dsimp only
    split
    · exact matched.comp (by simpa using Writes.write [likeEscapeClause])
    · simpa using matched

private theorem writes_overlap (p : Predicate) : Writes st (Builder.writeOverlap st · p) (overlapSql p) := by
  have whole :
    Writes st (·.writeBinding (do let param ← Builder.nextParam st p.value; pure [arrayOverlap p.field param]))
      (text (p.field ++ ascii " && ") ++ value p.value) :=
    .binding (renders_one _ _ (fun count => by simp [arrayOverlap, Template.render_append]) (by simp))
  unfold Builder.writeOverlap overlapSql
  split
  · exact .fail _ _
  · cases toSlice p.value with
    | none => exact whole
    | some values =>
      cases values with
      | nil => simpa using Writes.write [ascii "1 = 0"]
      | cons first rest => exact whole

private theorem writes_membership (p : Predicate) :
    Writes st (Builder.writeMembership st · p) (membershipSql st p) := by
  unfold Builder.writeMembership membershipSql
  cases toSlice p.value with
  | none => exact .binding (renders_one _ _ (fun count => by simp [Template.render_append]) (by simp))
  | some values =>
    cases values with
    | nil => simpa using Writes.write [if p.operator = .notIn then ascii "1 = 1" else ascii "1 = 0"]
    | cons first rest =>
      dsimp only
      split
      · refine .binding (renders_one _ _ (fun count => ?_) (by simp))
        by_cases negated : p.operator = .notIn <;> simp [arrayMembership, negated, Template.render_append]
      · refine .binding fun params => ?_
        have listing : Renders st _ _ _ := renders_list (first :: rest)
        obtain ⟨written, bound⟩ := listing params
        refine ⟨?_, bound.trans (by simp)⟩
        have parts : ((do
            let listed ← Builder.listParams st (first :: rest)
            pure ([p.field, ascii " ", p.operator.text, ascii " ("] ++ listed ++ [ascii ")"]) : Binding (List Str)).run
              params).1 = [p.field, ascii " ", p.operator.text, ascii " ("] ++
                ((Builder.listParams st (first :: rest)).run params).1 ++ [ascii ")"] := rfl
        rw [parts, List.flatten_append, List.flatten_append, written]
        simp [Template.render_append]

private theorem writes_between (p : Predicate) : Writes st (Builder.writeBetween st · p) (betweenSql p) := by
  unfold Builder.writeBetween betweenSql
  match toSlice p.value with
  | none => exact .fail _ _
  | some [] => exact .fail _ _
  | some [_] => exact .fail _ _
  | some [lower, upper] =>
    refine .binding fun params => ?_
    have run : (do
        let start ← Builder.nextParam st lower
        let stop ← Builder.nextParam st upper
        pure [p.field, ascii " BETWEEN ", start, ascii " AND ", stop] : Binding (List Str)).run params =
        ([p.field, ascii " BETWEEN ", st.dialect.param (params.length + 1), ascii " AND ",
          st.dialect.param ((params ++ [lower]).length + 1)], params ++ [lower] ++ [upper]) := rfl
    rw [run]
    simp [Template.render_append]
  | some (_ :: _ :: _ :: _) => exact .fail _ _

private theorem writes_leaf (p : Predicate) : Writes st (Builder.writeLeaf st · p) (leafSql st p) := by
  have nullary :
    Writes st (·.write [p.field, ascii " ", p.operator.text]) (text (p.field ++ ascii " " ++ p.operator.text)) := by
    simpa using Writes.write [p.field, ascii " ", p.operator.text]
  have comparison : Writes st (·.writeBinding (do
      let param ← Builder.nextParam st p.value
      pure [p.field, ascii " ", p.operator.text, ascii " ", param]))
      (text (p.field ++ ascii " " ++ p.operator.text ++ ascii " ") ++ value p.value) :=
    .binding (renders_one _ _ (fun count => by simp [Template.render_append]) (by simp))
  have spelled (param : Str) : st.dialect.like p.field param =
      p.field ++ ascii (if st.dialect = .postgres then " ILIKE " else " LIKE ") ++ param := by
    cases st.dialect <;> simp [Dialect.like]
  have negated (param : Str) : st.dialect.notLike p.field param =
      p.field ++ ascii (if st.dialect = .postgres then " NOT ILIKE " else " NOT LIKE ") ++ param := by
    cases st.dialect <;> simp [Dialect.notLike]
  unfold Builder.writeLeaf leafSql
  cases operator : p.operator with
  | isNull | isNotNull | isTrue | isFalse => rw [operator] at nullary; exact nullary
  | overlaps => exact writes_overlap p
  | isIn | notIn => exact writes_membership p
  | between => exact writes_between p
  | contains => exact writes_like p _ _ spelled
  | notContains => exact writes_like p _ _ negated
  | like | notLike => exact writes_like p _ _ fun _ => rfl
  | _ => rw [operator] at comparison; exact comparison

mutual

private theorem writes_predicate : (p : Predicate) → Writes st (Builder.writePredicate st · p) (predicateSql st p)
  | ⟨field, operator, value, logical, children, raw, literal, search, err⟩ => by
    cases err with
    | some err =>
      unfold Builder.writePredicate
      exact .fail _ _
    | none =>
      have leaf : Writes st (fun b =>
          match Builder.fieldError st field raw with
          | some err => b.fail err
          | none => Builder.writeLeaf st b ⟨field, operator, value, logical, children, raw, literal, search, none⟩)
          (leafSql st ⟨field, operator, value, logical, children, raw, literal, search, none⟩) := by
        split
        · exact .fail _ _
        · exact writes_leaf _
      unfold Builder.writePredicate predicateSql
      cases operator with
      | group =>
        have opened : Writes st (·.write [ascii "("]) (text (ascii "(")) := by simpa using Writes.write [ascii "("]
        have closed : Writes st (·.write [ascii ")"]) (text (ascii ")")) := by simpa using Writes.write [ascii ")"]
        exact (opened.comp (writes_clause none children)).comp closed
      | search =>
        cases search with
        | some s => exact writes_search s
        | none => exact .same
      | _ => exact leaf

theorem writes_clause (previous : Option Bool) :
    (predicates : List Predicate) →
      Writes st (Builder.writeClause st · previous predicates) (clauseSql st previous predicates)
  | [] => .same
  | p :: rest => by
    have spaced : Writes st (fun b => if previous.isSome then b.write [ascii " "] else b)
        (if previous.isSome then text (ascii " ") else []) := by
      split
      · simpa using Writes.write [ascii " "]
      · exact .same
    have joined : Writes st (fun b => if previous = some false then b.write [Connector.and.text, ascii " "] else b)
        (if previous = some false then text (Connector.and.text ++ ascii " ") else []) := by
      split
      · simpa using Writes.write [Connector.and.text, ascii " "]
      · exact .same
    unfold Builder.writeClause clauseSql
    cases p.logical with
    | some connector =>
      have named : Writes st (·.write [connector.text]) (text connector.text) := by
        simpa using Writes.write [connector.text]
      exact spaced.comp (named.comp (writes_clause (some true) rest))
    | none => exact spaced.comp ((joined.comp (writes_predicate p)).comp (writes_clause (some false) rest))

end

variable {args params : List Value} {built : Str} {d : Dialect} {lib : Library} {parse : Parser}
  {predicates : List Predicate}

theorem buildClauseAfter_eq (ok : buildClauseAfter lib parse args predicates d = .ok (built, params)) :
    built = (clauseSql ⟨lib, parse, d, none⟩ none predicates).render d.param args.length ∧
    params = args ++ (clauseSql ⟨lib, parse, d, none⟩ none predicates).values := by
  unfold buildClauseAfter at ok
  dsimp only at ok
  split at ok
  · cases ok
  · rename_i fine
    have whole : Writes ⟨lib, parse, d, none⟩ _ _ := writes_clause none predicates
    obtain ⟨_, same⟩ := whole ⟨args, [], none⟩ fine
    dsimp only at same
    rw [same] at ok
    cases ok
    simp

theorem fine_of_buildClauseAfter (ok : buildClauseAfter lib parse args predicates d = .ok (built, params)) :
    (Builder.writeClause ⟨lib, parse, d, none⟩ ⟨args, [], none⟩ none predicates).err = none := by
  unfold buildClauseAfter at ok
  dsimp only at ok
  split at ok
  · cases ok
  · assumption

end Gofi.Sqln
