import Gofi.Sqln.BooleanMode

/-! What MySQL reads in the search strings of `TextSearchValue`: the parsed search
without what InnoDB cannot look for. -/

namespace Gofi.Sqln.MySQL

open Gofi.Go BooleanMode

section Searchable

variable (lib : Library) (idx : TextIndex)

/-- What is left of a term. A word prefix stays unless it is a stop word of the
language. Of the alternatives those stay that hold an indexed word, as a whole.
The distance to a word that is not indexed is unknown, so such a pair becomes a
phrase. -/
def searchableTerm (t : TextTerm) : Option TextTerm :=
  if t.isPrefix then if t.words.any (stopword lib idx) then none else some t
  else
    match (t.words :: t.synonyms).filter (·.any (indexable lib idx)) with
    | [] => none
    | first :: others =>
      some { t with words := first, synonyms := others, near := if t.words.all (indexable lib idx) then t.near else 0 }

def searchableGroup (g : TextGroup) : Option TextGroup :=
  let kept := g.filterMap (searchableTerm lib idx)
  if kept.any fun t => !t.negate then some kept else none

def searchable (q : TextQuery) : TextQuery := q.filterMap (searchableGroup lib idx)

end Searchable

variable {lib : Library} {idx : TextIndex}

variable {t : TextTerm}

theorem searchableTerm_eq (whole : t.isPrefix = false)
    (kept : (t.words :: t.synonyms).filter (·.any (indexable lib idx)) = first :: others) :
    searchableTerm lib idx t = some { t with
      words := first, synonyms := others, near := if t.words.all (indexable lib idx) then t.near else 0 } := by
  rw [searchableTerm, if_neg (by simp [whole]), kept]

theorem searchableTerm_none (whole : t.isPrefix = false)
    (kept : (t.words :: t.synonyms).filter (·.any (indexable lib idx)) = []) : searchableTerm lib idx t = none := by
  rw [searchableTerm, if_neg (by simp [whole]), kept]

def phraseText : List Str → Str
  | [word] => word
  | words => ascii "\"" ++ join " " words ++ ascii "\""

theorem phrase_eq (words : List Str) :
    phrase lib idx words = if words.any (indexable lib idx) then some (phraseText words) else none := by
  match words with
  | [] => rfl
  | [word] => simp [phrase, phraseText]
  | first :: second :: rest => simp [phrase, phraseText]

theorem denotes_phrase {words : List Str} (nonempty : words ≠ []) (plain : ∀ word ∈ words, PlainWord word) :
    DenotesItem (phraseText words) fun doc => doc.Phrase words := by
  match words with
  | [] => exact absurd rfl nonempty
  | [word] =>
    refine ⟨_, readsItem_word (plain word (by simp)), fun _ => rfl, fun sign doc => ?_⟩
    simp [Item.Matches, phraseText, Document.Phrase, Document.PhraseFrom]
  | first :: second :: rest =>
    exact ⟨_, readsItem_quoted nonempty plain, fun _ => rfl, fun sign doc => by simp [Item.Matches]⟩

theorem denotes_beginning (plain : PlainWord word) :
    DenotesItem (word ++ ascii "*") fun doc => ∃ place, doc.begins place word :=
  ⟨_, readsItem_beginning plain, fun _ => rfl, fun sign doc => by simp [Item.Matches]⟩

private theorem within_iff (doc : Document) : Within doc (near + 1) [first, second] ↔ doc.Near near first second := by
  constructor
  · rintro ⟨places, held, distinct, close⟩
    obtain _ | ⟨here, _ | ⟨there, _ | _⟩⟩ := held
    simp only [List.nodup_cons, List.mem_cons, List.not_mem_nil, or_false, forall_eq_or_imp,
      forall_eq] at distinct close
    exact ⟨_, _, here, there, distinct.1, by lia, by lia⟩
  · rintro ⟨place, other, here, there, apart, below, above⟩
    refine ⟨[place, other], .cons here (.cons there .nil), by simp [apart], ?_⟩
    simp only [List.mem_cons, List.not_mem_nil, or_false, forall_eq_or_imp, forall_eq]
    lia

private theorem denotes_pair (plain : ∀ word ∈ [first, second], PlainWord word) (near : Nat) :
    DenotesItem (ascii "\"" ++ first ++ ascii " " ++ second ++ ascii "\"@" ++ formatNat (near + 1))
      fun doc => doc.Near near first second := by
  have joined : ascii "\"" ++ first ++ ascii " " ++ second ++ ascii "\"@" ++ formatNat (near + 1) =
      ascii "\"" ++ join " " [first, second] ++ ascii "\"@" ++ formatNat (near + 1) := by
    simp [join, List.intercalate]
  rw [joined]
  refine ⟨_, readsItem_span (by simp) plain (near + 1), fun _ => rfl, fun sign doc => ?_⟩
  simp only [Item.Matches]
  exact within_iff doc

def alternativesText : List Str → Option Str
  | [] => none
  | [alternative] => some alternative
  | several => some (ascii "(" ++ join " " several ++ ascii ")")

private theorem denotes_alternatives {alternatives : List (List Str)}
    (plain : ∀ words ∈ alternatives, words ≠ [] ∧ ∀ word ∈ words, PlainWord word)
    (rendered : alternativesText (alternatives.map phraseText) = some text) :
    DenotesItem text fun doc => ∃ words ∈ alternatives, doc.Phrase words := by
  match alternatives with
  | [] => cases rendered
  | [one] =>
    cases rendered
    exact (denotes_phrase (plain one (by simp)).1 (plain one (by simp)).2).congr fun doc => by simp
  | first :: second :: rest =>
    cases rendered
    have each : ∀ words ∈ first :: second :: rest, DenotesItem (phraseText words) fun doc => doc.Phrase words :=
      fun words member => denotes_phrase (plain words member).1 (plain words member).2
    exact (Denotes.alternatives (by simp) each).grouped

private theorem filterMap_phrase (alternatives : List (List Str)) : alternatives.filterMap (phrase lib idx) =
    (alternatives.filter (·.any (indexable lib idx))).map phraseText := by
  induction alternatives with
  | nil => rfl
  | cons words rest ih =>
    by_cases kept : words.any (indexable lib idx) = true
    · rw [List.filterMap_cons_some (by rw [phrase_eq, if_pos kept]), List.filter_cons, if_pos kept, List.map_cons, ih]
    · rw [List.filterMap_cons_none (by rw [phrase_eq, if_neg kept]), List.filter_cons, if_neg kept, ih]

def RendersTerm (lib : Library) (idx : TextIndex) (t : TextTerm) : Prop :=
  (searchableTerm lib idx t = none ∧ booleanTerm lib idx t = none) ∨
  ∃ kept text, searchableTerm lib idx t = some kept ∧ booleanTerm lib idx t = some text ∧
    kept.negate = t.negate ∧ DenotesItem text (kept.Occurs ·)

private theorem renders_beginning (plain : PlainTerm t) (begins : t.isPrefix = true) : RendersTerm lib idx t := by
  obtain ⟨word, shape⟩ := List.length_eq_one_iff.mp (plain.single (.inl begins))
  by_cases stopped : stopword lib idx word = true
  · exact .inl ⟨by simp [searchableTerm, begins, shape, stopped], by simp [booleanTerm, begins, shape, stopped]⟩
  · refine .inr ⟨t, word ++ ascii "*", ?_, ?_, rfl, ?_⟩
    · simp [searchableTerm, begins, shape, stopped]
    · simp [booleanTerm, begins, shape, stopped]
    · refine (denotes_beginning (plain.words word (by simp [shape]))).congr fun doc => ?_
      simp [TextTerm.Occurs, begins, shape]

private theorem renders_single (plain : PlainTerm t) (whole : t.isPrefix = false) (shape : t.words = [word]) :
    RendersTerm lib idx t := by
  have apart : t.near = 0 := by
    by_contra near
    have pair := plain.pair (Nat.pos_of_ne_zero near)
    simp [shape] at pair
  have rendered : booleanTerm lib idx t =
      alternativesText (((t.words :: t.synonyms).filter (·.any (indexable lib idx))).map phraseText) := by
    rw [← filterMap_phrase]
    simp only [booleanTerm, shape, whole, Bool.false_eq_true, if_false]
    rcases ([word] :: t.synonyms).filterMap (phrase lib idx) with _ | ⟨first, _ | ⟨second, rest⟩⟩ <;> rfl
  cases kept : (t.words :: t.synonyms).filter (·.any (indexable lib idx)) with
  | nil => exact .inl ⟨searchableTerm_none whole kept, by rw [rendered, kept]; rfl⟩
  | cons first others =>
    have plainKept : ∀ words ∈ first :: others, words ≠ [] ∧ ∀ word ∈ words, PlainWord word := by
      intro words member
      rw [← kept] at member
      rcases List.mem_cons.mp (List.mem_of_mem_filter member) with rfl | listed
      · exact ⟨plain.nonempty, plain.words⟩
      · exact plain.synonyms words listed
    obtain ⟨text, written⟩ : ∃ text, alternativesText ((first :: others).map phraseText) = some text := by
      cases others <;> exact ⟨_, rfl⟩
    refine .inr ⟨_, text, searchableTerm_eq whole kept, by rw [rendered, kept, written], rfl, ?_⟩
    refine (denotes_alternatives plainKept written).congr fun doc => ?_
    simp [TextTerm.Occurs, whole, apart]

theorem renders_phrase (plain : PlainTerm t) (several : 1 < t.words.length)
    (rendered : booleanTerm lib idx t = phrase lib idx t.words)
    (apart : t.near = 0 ∨ t.words.all (indexable lib idx) = false) : RendersTerm lib idx t := by
  have single := mt plain.single (by lia)
  rw [not_or, not_ne_iff, Bool.not_eq_true] at single
  obtain ⟨whole, bare⟩ := single
  rw [phrase_eq] at rendered
  by_cases any : t.words.any (indexable lib idx) = true
  · have kept : (t.words :: t.synonyms).filter (·.any (indexable lib idx)) = [t.words] := by
      rw [bare, List.filter_cons, if_pos any, List.filter_nil]
    have unknown : (if t.words.all (indexable lib idx) then t.near else 0) = 0 := by
      rcases apart with apart | missing <;> simp [*]
    rw [if_pos any] at rendered
    refine .inr ⟨_, _, searchableTerm_eq whole kept, rendered, rfl, ?_⟩
    refine (denotes_phrase plain.nonempty plain.words).congr fun doc => ?_
    simp only [TextTerm.Occurs, whole, unknown]
    simp
  · have kept : (t.words :: t.synonyms).filter (·.any (indexable lib idx)) = [] := by
      rw [bare, List.filter_cons, if_neg any, List.filter_nil]
    rw [if_neg any] at rendered
    exact .inl ⟨searchableTerm_none whole kept, rendered⟩

private theorem renders_pair (plain : PlainTerm t) (shape : t.words = [first, second]) (near : 0 < t.near)
    (known : indexable lib idx first = true) (other : indexable lib idx second = true) : RendersTerm lib idx t := by
  have single := mt plain.single (by simp [shape])
  rw [not_or, not_ne_iff, Bool.not_eq_true] at single
  obtain ⟨whole, bare⟩ := single
  have kept : (t.words :: t.synonyms).filter (·.any (indexable lib idx)) = [t.words] := by
    simp [bare, shape, known]
  have rendered : booleanTerm lib idx t =
      some (ascii "\"" ++ first ++ ascii " " ++ second ++ ascii "\"@" ++ formatNat (t.near + 1)) := by
    simp only [booleanTerm, shape]
    exact if_pos ⟨near, known, other⟩
  refine .inr ⟨_, _, searchableTerm_eq whole kept, rendered, rfl, ?_⟩
  refine (denotes_pair (fun word member => plain.words word (shape ▸ member)) t.near).congr fun doc => ?_
  simp [TextTerm.Occurs, whole, known, other, near, shape]

private theorem renders_term (lib : Library) (idx : TextIndex) (plain : PlainTerm t) : RendersTerm lib idx t := by
  by_cases begins : t.isPrefix = true
  · exact renders_beginning plain begins
  match shape : t.words with
  | [] => exact absurd shape plain.nonempty
  | [word] => exact renders_single plain (by simpa using begins) shape
  | [first, second] =>
    by_cases near : t.near > 0 ∧ indexable lib idx first ∧ indexable lib idx second
    · exact renders_pair plain shape near.1 near.2.1 near.2.2
    · refine renders_phrase plain (by simp [shape]) ?_ ?_
      · simp only [booleanTerm, shape, if_neg near]
      · by_contra pair
        rw [not_or, Bool.not_eq_false] at pair
        refine near ⟨Nat.pos_of_ne_zero pair.1, ?_⟩
        simpa [shape] using pair.2
  | first :: second :: third :: rest =>
    refine renders_phrase plain (by simp [shape]) (by simp only [booleanTerm, shape]) (.inl ?_)
    by_contra near
    have pair := plain.pair (Nat.pos_of_ne_zero near)
    simp [shape] at pair

theorem exists_pairs {one : α → Option β} {other : α → Option γ} {related : β → γ → Prop} (list : List α)
    (each : ∀ item ∈ list, (one item = none ∧ other item = none) ∨
      ∃ first second, one item = some first ∧ other item = some second ∧ related first second) :
    ∃ pairs : List (β × γ), list.filterMap one = pairs.map Prod.fst ∧ list.filterMap other = pairs.map Prod.snd ∧
      ∀ pair ∈ pairs, related pair.1 pair.2 := by
  induction list with
  | nil => exact ⟨[], rfl, rfl, by simp⟩
  | cons item rest ih =>
    obtain ⟨here, later⟩ := List.forall_mem_cons.mp each
    obtain ⟨pairs, firsts, seconds, agree⟩ := ih later
    rcases here with ⟨dropped, dropped'⟩ | ⟨first, second, kept, kept', same⟩
    · exact ⟨pairs,
        by rw [List.filterMap_cons_none dropped, firsts], by rw [List.filterMap_cons_none dropped', seconds], agree⟩
    · refine ⟨(first, second) :: pairs, ?_, ?_, List.forall_mem_cons.mpr ⟨same, agree⟩⟩
      · rw [List.filterMap_cons_some kept, firsts, List.map_cons]
      · rw [List.filterMap_cons_some kept', seconds, List.map_cons]

private theorem exists_terms (lib : Library) (idx : TextIndex) (plain : ∀ t ∈ g, PlainTerm t) : ∃ pairs :
    List (TextTerm × Str),
    g.filterMap (searchableTerm lib idx) = pairs.map Prod.fst ∧
    booleanGroup lib idx g = (if pairs.any fun pair => !pair.1.negate then
      some (join " " (pairs.map fun pair => (if pair.1.negate then ascii "-" else ascii "+") ++ pair.2)) else none) ∧
    ∀ pair ∈ pairs, DenotesItem pair.2 (pair.1.Occurs ·) := by
  have each : ∀ t ∈ g, (searchableTerm lib idx t = none ∧
      ((booleanTerm lib idx t).map fun text => (text, t.negate)) = none) ∨
      ∃ kept piece, searchableTerm lib idx t = some kept ∧
        ((booleanTerm lib idx t).map fun text => (text, t.negate)) = some piece ∧
        piece.2 = kept.negate ∧ DenotesItem piece.1 (kept.Occurs ·) := by
    intro t member
    rcases renders_term lib idx (plain t member) with ⟨dropped, nothing⟩ | ⟨kept, text, left, rendered, same, denoted⟩
    · exact .inl ⟨dropped, by rw [nothing]; rfl⟩
    · exact .inr ⟨kept, (text, t.negate), left, by rw [rendered]; rfl, same.symm, denoted⟩
  obtain ⟨pairs, kept, rendered, agree⟩ := exists_pairs g each
  have signed : (g.filterMap fun t => (booleanTerm lib idx t).map fun text =>
      (if t.negate then ascii "-" ++ text else ascii "+" ++ text, t.negate)) =
      pairs.map fun pair => ((if pair.1.negate then ascii "-" else ascii "+") ++ pair.2.1, pair.1.negate) := by
    calc _ = (g.filterMap fun t => (booleanTerm lib idx t).map fun text => (text, t.negate)).map fun piece =>
          ((if piece.2 then ascii "-" else ascii "+") ++ piece.1, piece.2) := by
          rw [List.map_filterMap]
          refine List.filterMap_congr fun t _ => ?_
          cases booleanTerm lib idx t <;> cases t.negate <;> rfl
      _ = _ := by
          rw [rendered, List.map_map]
          refine List.map_congr_left fun pair member => ?_
          simp only [Function.comp_apply, (agree pair member).1]
  refine ⟨pairs.map fun pair => (pair.1, pair.2.1), by simp [kept], ?_, ?_⟩
  · simp only [booleanGroup, signed, List.any_map, List.map_map]
    rfl
  · intro pair member
    obtain ⟨whole, listed, rfl⟩ := List.mem_map.mp member
    exact (agree whole listed).2

private theorem renders_group (plain : ∀ t ∈ g, PlainTerm t) :
    (searchableGroup lib idx g = none ∧ booleanGroup lib idx g = none) ∨
    ∃ kept text, searchableGroup lib idx g = some kept ∧ booleanGroup lib idx g = some text ∧
      Denotes text fun doc => ∀ t ∈ kept, t.Holds doc := by
  obtain ⟨pairs, kept, rendered, denoted⟩ := exists_terms lib idx plain
  have left : searchableGroup lib idx g =
      if pairs.any fun pair => !pair.1.negate then some (pairs.map Prod.fst) else none := by
    simp only [searchableGroup, kept, List.any_map]
    rfl
  by_cases positive : (pairs.any fun pair => !pair.1.negate) = true
  · refine .inr ⟨_, _, left.trans (if_pos positive), rendered.trans (if_pos positive), ?_⟩
    have needed : ∃ pair ∈ pairs, pair.1.negate = false := by simpa using positive
    refine (Denotes.conjunction needed denoted).congr fun doc => ?_
    rw [List.forall_mem_map]
    rfl
  · exact .inl ⟨left.trans (if_neg positive), rendered.trans (if_neg positive)⟩

theorem denotes_search (plain : ∀ g ∈ q, ∀ t ∈ g, PlainTerm t) :
    (searchable lib idx q = [] ∧ textSearchValue lib idx q = none) ∨
    searchable lib idx q ≠ [] ∧ ∃ value, textSearchValue lib idx q = some value ∧
      Denotes value (searchable lib idx q).Matches := by
  obtain ⟨pairs, groups, texts, denoted⟩ := exists_pairs q fun g member => renders_group (plain g member)
  rw [searchable, groups, textSearchValue, texts]
  match pairs with
  | [] => exact .inl ⟨rfl, rfl⟩
  | [pair] =>
    refine .inr ⟨by simp, _, rfl, (denoted pair (by simp)).congr fun doc => ?_⟩
    simp [TextQuery.Matches]
  | first :: second :: rest =>
    refine .inr ⟨by simp, _, rfl, ?_⟩
    have enclosed := intercalate_enclosed (ascii "(") (ascii " ") (ascii ")")
      ((first :: second :: rest).map Prod.snd) (by simp)
    rw [List.map_map] at enclosed
    have any := Denotes.alternatives (by simp) fun pair member => (denoted pair member).grouped
    have same : ∀ doc, (∃ pair ∈ first :: second :: rest, ∀ t ∈ pair.1, t.Holds doc) ↔
        TextQuery.Matches doc ((first :: second :: rest).map Prod.fst) := fun doc => by simp [TextQuery.Matches]
    exact enclosed ▸ any.congr same

end Gofi.Sqln.MySQL
