import Gofi.Sqln.PostgresSearch
import Gofi.Sqln.MySQLSearch

/-! A search string from the request to the database: what it was parsed to is
what PostgreSQL and MySQL read in the rendered text. -/

namespace Gofi.Sqln

open Gofi.Go

private theorem allWords_plain {q : TextQuery} (plain : ∀ g ∈ q, ∀ t ∈ g, PlainTerm t) (member : word ∈ q.allWords) :
    PlainWord word := by
  simp only [TextQuery.allWords, List.mem_flatMap, List.mem_flatten, List.mem_cons] at member
  obtain ⟨t, ⟨g, group, inside⟩, words, rfl | listed, held⟩ := member
  · exact (plain g group t inside).words word held
  · exact ((plain g group t inside).synonyms words listed).2 word held

/-- For every search string that is accepted, PostgreSQL reads the rendered text as
the search, and MySQL as what is searchable of it; MySQL gets no text exactly when
nothing is. No word holds a sign of either language. -/
theorem rendered_search_keeps_its_meaning (u : Unicode) (utf8 : u.Utf8) (name : Str) (quote : Str → Str)
    (listText : List Str → Str) (groups : List (List Str)) (m : Unicode.SynonymMap)
    (built : u.synonymMap name quote listText groups (fun _ => []) = .ok m) (mode : Mode) (text : Str) (q : TextQuery)
    (ok : u.query m mode text = .ok q) (lib : Library) (idx : TextIndex) :
    (∃ value tree, Postgres.textSearchValue q = some value ∧ Tsquery.parse value = some tree ∧
      ∀ doc, Tsquery.Matches doc tree ↔ q.Matches doc) ∧
    (MySQL.searchable lib idx q = [] → MySQL.textSearchValue lib idx q = none) ∧
    (MySQL.searchable lib idx q ≠ [] → ∃ value items, MySQL.textSearchValue lib idx q = some value ∧
      BooleanMode.parse value = some items ∧
      ∀ doc, BooleanMode.Matches doc items ↔ (MySQL.searchable lib idx q).Matches doc) ∧
    ∀ word ∈ q.allWords, ∀ byte ∈ word, byte ∉ Tsquery.signs ∧ byte ∉ BooleanMode.signs := by
  have synonyms : u.SafeSynonyms m := Unicode.safe_synonymMap (by simp [Unicode.SafeSynonyms]) built
  have safe := Unicode.safe_query synonyms ok
  have plain := plain_query utf8 synonyms ok
  have filled : ∀ g ∈ q, g ≠ [] := by
    intro g member
    obtain ⟨t, inside, _⟩ := safe.positive g member
    exact List.ne_nil_of_mem inside
  refine ⟨?_, ?_, ?_, fun word member byte letter => ?_⟩
  · obtain ⟨value, rendered, tree, reads, means⟩ := Postgres.denotes_search safe.nonempty filled plain
    exact ⟨value, tree, rendered, reads.parse, means⟩
  · intro nothing
    rcases MySQL.denotes_search plain with ⟨_, rendered⟩ | ⟨something, _⟩
    · exact rendered
    · exact absurd nothing something
  · intro something
    rcases MySQL.denotes_search plain with ⟨nothing, _⟩ | ⟨_, value, rendered, items, reads, means⟩
    · exact absurd nothing something
    · exact ⟨value, items, rendered, reads.parse, means⟩
  · have known := (allWords_plain plain member).2 byte letter
    exact ⟨Tsquery.not_sign known, BooleanMode.not_sign known⟩

namespace Sample

theorem latin_utf8 : Unicode.Sample.latin.Utf8 where
  runes_nil := rfl
  own_rune text byte member _ := List.mem_map_of_mem member
  word_rune byte _ letter := by
    simp only [Unicode.Sample.latin, decide_eq_true_eq] at letter
    simp [wordByte, letter, or_assoc]

private theorem simple_known : ascii "simple" ∈ languages := by decide

private theorem vector_named : isColumnName (ascii "search") = true := by decide

def products : TextIndex where
  name := ascii "ftx_products"
  table := ascii "products"
  columns := [⟨ascii "title", some .a⟩, ⟨ascii "description", none⟩]
  language := ascii "simple"
  unaccent := false
  strategy := .storedVector
  vectorColumn := ascii "search"
  minTokenSize := 3
  columns_named := by simp only [List.forall_mem_cons]; decide
  language_known := simple_known
  vectorColumn_named := vector_named

end Sample

theorem sample_search_keeps_its_meaning :
    (∃ value tree, Postgres.textSearchValue Unicode.Sample.parsed = some value ∧ Tsquery.parse value = some tree ∧
      ∀ doc, Tsquery.Matches doc tree ↔ Unicode.Sample.parsed.Matches doc) ∧
    (∃ value items, MySQL.textSearchValue .plain Sample.products Unicode.Sample.parsed = some value ∧
      BooleanMode.parse value = some items ∧
      ∀ doc, BooleanMode.Matches doc items ↔
        (MySQL.searchable .plain Sample.products Unicode.Sample.parsed).Matches doc) :=
  have whole := rendered_search_keeps_its_meaning Unicode.Sample.latin Sample.latin_utf8 [] id (fun _ => [])
    [[ascii "car", ascii "auto"]] Unicode.Sample.synonyms Unicode.Sample.synonyms_built .allTerms (ascii "Car, sale")
    Unicode.Sample.parsed Unicode.Sample.parsed_query .plain Sample.products
  ⟨whole.1, whole.2.2.1 (by decide +kernel)⟩

def MySQL.indexed (lib : Library) (idx : TextIndex) (q : TextQuery) : TextQuery :=
  q.filterMap fun g =>
    let kept := g.filterMap fun t =>
      match (t.words :: t.synonyms).filter (·.any (indexable lib idx)) with
      | [] => none
      | first :: others => some { t with words := first, synonyms := others }
    if kept.any fun t => !t.negate then some kept else none

namespace Sample

def reversed : Document where
  holds place word := place = 0 ∧ word = ascii "de" ∨ place = 1 ∧ word = ascii "cafe"
  begins _ _ := False

def pair : TextQuery := [[⟨[ascii "cafe", ascii "de"], false, false, 3, []⟩]]

theorem pair_query : Unicode.Sample.latin.query (fun _ => []) .websearch (ascii "\"cafe de\"~3") = .ok pair := by
  have first : Unicode.Sample.latin.next none 34 (Unicode.Sample.latin.runes (ascii "cafe de\"~3")) =
      (.term ⟨[ascii "cafe", ascii "de"], false, false, 3, []⟩, ⟨some 51, []⟩) := by
    rfl
  have read : Unicode.Sample.latin.parse (Unicode.Sample.latin.runes (ascii "\"cafe de\"~3")) .websearch = pair := by
    have runes : Unicode.Sample.latin.runes (ascii "\"cafe de\"~3") =
        34 :: Unicode.Sample.latin.runes (ascii "cafe de\"~3") := rfl
    rw [runes, Unicode.parse, Unicode.parseWebsearch, Unicode.scan, first, Unicode.scan]
    rfl
  have short : (Unicode.Sample.latin.runes (ascii "\"cafe de\"~3")).length ≤ maxTermLength := by decide +kernel
  simp only [Unicode.query, read, Nat.not_lt.mpr short, if_false]
  rfl

end Sample

/-- A distance to a word that is not indexed becomes a phrase: MySQL does not find
the words in the other order. -/
theorem unindexed_word_makes_a_phrase : ∃ q value items doc,
    Unicode.Sample.latin.query (fun _ => []) .websearch (ascii "\"cafe de\"~3") = .ok q ∧
    MySQL.textSearchValue .plain Sample.products q = some value ∧ BooleanMode.parse value = some items ∧
    (MySQL.indexed .plain Sample.products q).Matches doc ∧ ¬ BooleanMode.Matches doc items := by
  refine ⟨Sample.pair, ascii "+\"cafe de\"", [.quoted (some .required) [ascii "cafe", ascii "de"] none],
    Sample.reversed, Sample.pair_query, by decide +kernel, by rfl, ?_, ?_⟩
  · have indexed : MySQL.indexed .plain Sample.products Sample.pair = Sample.pair := by rfl
    rw [indexed]
    refine ⟨_, List.mem_singleton_self _, fun t member => ?_⟩
    obtain rfl := List.mem_singleton.mp member
    exact ⟨_, _, rfl, 1, 0, .inr ⟨rfl, rfl⟩, .inl ⟨rfl, rfl⟩, by decide, by decide, by decide⟩
  · rw [BooleanMode.matches_iff]
    rintro ⟨required, _⟩
    have phrase := required _ (List.mem_singleton_self _) rfl
    simp only [BooleanMode.Item.Matches, Document.Phrase, Document.PhraseFrom, Sample.reversed] at phrase
    obtain ⟨start, ⟨_, cafe⟩ | ⟨rfl, _⟩, ⟨impossible, _⟩ | ⟨_, de⟩, _⟩ := phrase
    · cases impossible
    · exact absurd de (by decide)
    · cases impossible
    · exact absurd de (by decide)

end Gofi.Sqln
