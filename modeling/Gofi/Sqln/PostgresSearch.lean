import Gofi.Sqln.Tsquery

/-! What PostgreSQL reads in the search strings of `TextSearchValue`: the parsed
search, whatever its words, groups and terms are. -/

namespace Gofi.Sqln.Tsquery

open Gofi.Go Gofi.Text

def Denotes (least : Nat) (text : Str) (meaning : Document → Prop) : Prop :=
  ∃ q, Reads least text q ∧ ∀ doc, Matches doc q ↔ meaning doc

attribute [local simp] Matches hits

private theorem matches_conjunction (doc : Document) (q : Query) (rest : List Query) :
    Matches doc (rest.foldl (.binary .and) q) ↔ ∀ one ∈ q :: rest, Matches doc one := by
  induction rest generalizing q with
  | nil => simp
  | cons next rest ih => simp [ih, and_assoc]

private theorem matches_disjunction (doc : Document) (q : Query) (rest : List Query) :
    Matches doc (rest.foldl (.binary .or) q) ↔ ∃ one ∈ q :: rest, Matches doc one := by
  induction rest generalizing q with
  | nil => simp
  | cons next rest ih => simp [ih, or_assoc]

private theorem join_step (between : String) (first second : Str) (rest : List Str) :
    join between (first :: second :: rest) = join between ((first ++ ascii between ++ second) :: rest) := by
  cases rest <;> simp [join, List.intercalate]

theorem Reads.joined {text : ι → Str} {query : ι → Query} (signs : Signs (ascii between) [.binary o])
    (front : Reads (strength o) begun q) (rest : List ι)
    (all : ∀ item ∈ rest, Reads (strength o + 1) (text item) (query item)) :
    Reads (strength o) (join between (begun :: rest.map text)) ((rest.map query).foldl (.binary o) q) := by
  induction rest generalizing begun q with
  | nil => simpa [join, List.intercalate] using front
  | cons item rest ih =>
    obtain ⟨here, later⟩ := List.forall_mem_cons.mp all
    rw [List.map_cons, join_step]
    exact ih (front.binary signs here (Nat.le_refl _)) later

theorem Reads.weaken (reads : Reads level text q) (weak : least ≤ level) : Reads least text q := by
  obtain ⟨tokens, spelled, derived⟩ := reads
  exact ⟨tokens, spelled, derived.weaken weak⟩

theorem exists_joined {text : ι → Str} {meaning : ι → Document → Prop} (signs : Signs (ascii between) [.binary o])
    (all : ∀ item ∈ first :: rest, Denotes (strength o + 1) (text item) (meaning item)) :
    ∃ query : ι → Query, (∀ item ∈ first :: rest, ∀ doc, Matches doc (query item) ↔ meaning item doc) ∧
      Reads (strength o) (join between ((first :: rest).map text))
        ((rest.map query).foldl (.binary o) (query first)) := by
  have total : ∀ item, ∃ q, item ∈ first :: rest →
      Reads (strength o + 1) (text item) q ∧ ∀ doc, Matches doc q ↔ meaning item doc := by
    intro item
    by_cases member : item ∈ first :: rest
    · obtain ⟨q, denoted⟩ := all item member
      exact ⟨q, fun _ => denoted⟩
    · exact ⟨.operand ⟨[], false⟩, fun other => absurd other member⟩
  choose query denoted using total
  refine ⟨query, fun item member => (denoted item member).2, ?_⟩
  refine .joined signs ?_ rest fun item member => (denoted item (List.mem_cons_of_mem _ member)).1
  exact (denoted first (List.mem_cons_self ..)).1.weaken (Nat.le_succ _)

theorem Denotes.conjunction {text : ι → Str} {meaning : ι → Document → Prop} (nonempty : items ≠ [])
    (all : ∀ item ∈ items, Denotes 3 (text item) (meaning item)) :
    Denotes 2 (join " & " (items.map text)) fun doc => ∀ item ∈ items, meaning item doc := by
  obtain ⟨first, rest, rfl⟩ := List.exists_cons_of_ne_nil nonempty
  obtain ⟨query, means, reads⟩ := exists_joined signs_and all
  refine ⟨_, reads, fun doc => ?_⟩
  rw [matches_conjunction, ← List.map_cons, List.forall_mem_map]
  exact forall₂_congr fun item member => means item member doc

theorem Denotes.disjunction {text : ι → Str} {meaning : ι → Document → Prop} (nonempty : items ≠ [])
    (all : ∀ item ∈ items, Denotes 2 (text item) (meaning item)) :
    Denotes 1 (join " | " (items.map text)) fun doc => ∃ item ∈ items, meaning item doc := by
  obtain ⟨first, rest, rfl⟩ := List.exists_cons_of_ne_nil nonempty
  obtain ⟨query, means, reads⟩ := exists_joined signs_or all
  refine ⟨_, reads, fun doc => ?_⟩
  rw [matches_disjunction, ← List.map_cons]
  simp only [List.mem_map, exists_exists_and_eq_and]
  exact exists_congr fun item => and_congr_right fun member => means item member doc

theorem Denotes.weaken (denoted : Denotes level text meaning) (weak : least ≤ level) : Denotes least text meaning := by
  obtain ⟨q, reads, means⟩ := denoted
  exact ⟨q, reads.weaken weak, means⟩

theorem Denotes.congr (denoted : Denotes level text meaning) (same : ∀ doc, meaning doc ↔ other doc) :
    Denotes level text other := by
  obtain ⟨q, reads, means⟩ := denoted
  exact ⟨q, reads, fun doc => (means doc).trans (same doc)⟩

theorem Denotes.grouped (denoted : Denotes 1 text meaning) (opening : Signs before [.opening])
    (closing : Signs after [.closing]) : Denotes least (before ++ text ++ after) meaning := by
  obtain ⟨q, reads, means⟩ := denoted
  exact ⟨q, reads.grouped opening closing, means⟩

theorem Denotes.not (denoted : Denotes 5 text meaning) :
    Denotes least (ascii "!" ++ text) fun doc => ¬ meaning doc := by
  obtain ⟨q, reads, means⟩ := denoted
  exact ⟨.not q, reads.not, fun doc => not_congr (means doc)⟩

private theorem denotes_word (plain : PlainWord word) :
    Denotes least (ascii "'" ++ word ++ ascii "'") fun doc => ∃ place, doc.holds place word :=
  ⟨_, reads_word plain, fun _ => Iff.rfl⟩

theorem denotes_beginning (plain : PlainWord word) :
    Denotes least (ascii "'" ++ word ++ ascii "'" ++ ascii ":*") fun doc => ∃ place, doc.begins place word :=
  ⟨_, reads_beginning plain, fun _ => Iff.rfl⟩

private theorem matches_phrase (doc : Document) {found : Nat → Prop} (ends : (hits doc q).ends = places found)
    (positional : Matches doc q ↔ (hits doc q).ends.Nonempty) (rest : List Str) :
    Matches doc ((rest.map fun word => .operand ⟨word, false⟩).foldl (.binary (.followed 1)) q) ↔
      ∃ place, found place ∧ doc.PhraseFrom (place + 1) rest := by
  induction rest generalizing q found with
  | nil => simp [positional, ends, places, Set.Nonempty, Document.PhraseFrom]
  | cons word rest ih =>
    have next : (hits doc (.binary (.followed 1) q (.operand ⟨word, false⟩))).ends =
        places fun place => doc.holds place word ∧ ∃ before, place = before + 1 ∧ found before := by
      ext place
      simp only [hits, ends, places, Lexeme.at, Set.mem_ofPred_eq]
      constructor
      · rintro ⟨⟨known, rfl, held⟩, before, same, was⟩
        exact ⟨known, rfl, held, before, by lia, was⟩
      · rintro ⟨known, rfl, held, before, rfl, was⟩
        exact ⟨⟨_, rfl, held⟩, before, by simp, was⟩
    rw [List.map_cons, List.foldl_cons, ih next Iff.rfl]
    constructor
    · rintro ⟨_, ⟨held, before, rfl, was⟩, later⟩
      exact ⟨before, was, held, later⟩
    · rintro ⟨before, was, held, later⟩
      exact ⟨before + 1, ⟨held, before, rfl, was⟩, later⟩

theorem denotes_followed (plainFirst : PlainWord first) (plainSecond : PlainWord second) (weak : least ≤ 3)
    (bounded : distance ≤ maxDistance) :
    Denotes least (ascii "'" ++ first ++ ascii "'" ++ (ascii " <" ++ formatNat distance ++ ascii "> ") ++
        (ascii "'" ++ second ++ ascii "'"))
      fun doc => ∃ place, doc.holds place first ∧ doc.holds (place + distance) second := by
  refine ⟨_, (reads_word plainFirst).binary (signs_followed bounded) (reads_word plainSecond) weak, fun doc => ?_⟩
  simp only [Matches, hits, places, Lexeme.at, Set.Nonempty, Set.mem_ofPred_eq]
  constructor
  · rintro ⟨_, ⟨known, rfl, held⟩, before, same, was⟩
    have apart : known = before + distance := by lia
    exact ⟨before, was, apart ▸ held⟩
  · rintro ⟨place, was, held⟩
    exact ⟨_, ⟨place + distance, rfl, held⟩, place, by simp, was⟩

end Gofi.Sqln.Tsquery

namespace Gofi.Sqln.Postgres

open Gofi.Go Gofi.Text Tsquery

theorem denotes_phrase {words : List Str} (nonempty : words ≠ []) (plain : ∀ word ∈ words, PlainWord word) :
    Denotes 3 (tsPhrase words) fun doc => doc.Phrase words := by
  obtain ⟨first, rest, rfl⟩ := List.exists_cons_of_ne_nil nonempty
  obtain ⟨here, later⟩ := List.forall_mem_cons.mp plain
  refine ⟨_, Reads.joined signs_next (reads_word here) rest fun word member => reads_word (later word member),
    fun doc => ?_⟩
  refine matches_phrase doc (q := .operand ⟨first, false⟩) rfl ?_ rest
  simp [Matches, hits, places, Set.Nonempty]

def orders (first second : Str) (near : Nat) : List (Nat × Str × Str) :=
  (List.range near).flatMap fun k => [(k + 1, first, second), (k + 1, second, first)]

private theorem proximity_eq (first second : Str) (near : Nat) :
    proximity (ascii "'" ++ first ++ ascii "'") (ascii "'" ++ second ++ ascii "'") near =
      (orders first second near).map fun (distance, before, after) =>
        ascii "'" ++ before ++ ascii "'" ++ (ascii " <" ++ formatNat distance ++ ascii "> ") ++
          (ascii "'" ++ after ++ ascii "'") := by
  simp [proximity, orders, List.map_flatMap]

theorem mem_orders : (distance, before, after) ∈ orders first second near ↔
    (0 < distance ∧ distance ≤ near) ∧
      (before = first ∧ after = second ∨ before = second ∧ after = first) := by
  simp only [orders, List.mem_flatMap, List.mem_range, List.mem_cons, List.not_mem_nil, or_false, Prod.mk.injEq]
  constructor
  · rintro ⟨k, small, ⟨rfl, words⟩ | ⟨rfl, words⟩⟩
    · exact ⟨by lia, .inl words⟩
    · exact ⟨by lia, .inr words⟩
  · rintro ⟨⟨positive, bounded⟩, words | words⟩
    · exact ⟨distance - 1, by lia, .inl ⟨by lia, words⟩⟩
    · exact ⟨distance - 1, by lia, .inr ⟨by lia, words⟩⟩

private theorem near_iff (doc : Document) : (∃ item ∈ orders first second near, ∃ place,
    doc.holds place item.2.1 ∧ doc.holds (place + item.1) item.2.2) ↔ doc.Near near first second := by
  constructor
  · rintro ⟨⟨distance, before, after⟩, member, place, was, held⟩
    obtain ⟨bounds, ⟨rfl, rfl⟩ | ⟨rfl, rfl⟩⟩ := mem_orders.mp member
    · exact ⟨place, place + distance, was, held, by lia, by lia, by lia⟩
    · exact ⟨place + distance, place, held, was, by lia, by lia, by lia⟩
  · rintro ⟨place, other, here, there, apart, below, above⟩
    rcases Nat.lt_or_gt_of_ne apart with earlier | later
    · refine ⟨(other - place, first, second), mem_orders.mpr ⟨by lia, .inl ⟨rfl, rfl⟩⟩, place, here, ?_⟩
      rwa [Nat.add_sub_cancel' earlier.le]
    · refine ⟨(place - other, second, first), mem_orders.mpr ⟨by lia, .inr ⟨rfl, rfl⟩⟩, other, there, ?_⟩
      rwa [Nat.add_sub_cancel' (Nat.le_of_lt later)]

private theorem denotes_proximity (plainFirst : PlainWord first) (plainSecond : PlainWord second) (positive : 0 < near)
    (bounded : near ≤ maxNear) :
    Denotes least
      (ascii "( " ++ join " | " (proximity (ascii "'" ++ first ++ ascii "'") (ascii "'" ++ second ++ ascii "'")
      near) ++ ascii " )") (Document.Near · near first second) := by
  rw [proximity_eq]
  refine ((Denotes.disjunction ?_ ?_).congr near_iff).grouped signs_opening signs_closing
  · exact List.ne_nil_of_mem (mem_orders.mpr ⟨⟨Nat.one_pos, positive⟩, .inl ⟨rfl, rfl⟩⟩)
  · rintro ⟨distance, before, after⟩ member
    obtain ⟨⟨_, close⟩, ⟨rfl, rfl⟩ | ⟨rfl, rfl⟩⟩ := mem_orders.mp member
    · exact denotes_followed plainFirst plainSecond (by decide) (close.trans (bounded.trans (by decide)))
    · exact denotes_followed plainSecond plainFirst (by decide) (close.trans (bounded.trans (by decide)))

variable {t : TextTerm}

theorem occurs_phrase (plain : PlainTerm t) (several : 1 < t.words.length) (apart : t.near = 0)
    (doc : Document) : doc.Phrase t.words ↔ t.Occurs doc := by
  have single := mt plain.single (by lia)
  rw [not_or, not_ne_iff, Bool.not_eq_true] at single
  simp [TextTerm.Occurs, single, apart]

private theorem denotes_single (plain : PlainTerm t) (shape : t.words = [word]) (least : Nat) :
    Denotes least (if t.synonyms ≠ [] then
        ascii "( " ++ join " | " (tsPhrase t.words :: t.synonyms.map tsPhrase) ++ ascii " )"
      else if t.isPrefix then tsPhrase t.words ++ ascii ":*" else tsPhrase t.words) (t.Occurs ·) := by
  have apart : ¬ 0 < t.near := fun near => by
    have pair := plain.pair near
    simp [shape] at pair
  have here : PlainWord word := plain.words word (by simp [shape])
  have alone : tsPhrase t.words = ascii "'" ++ word ++ ascii "'" := by
    simp [shape, tsPhrase, join, List.intercalate]
  by_cases alternatives : t.synonyms = []
  · rw [if_neg (not_not.mpr alternatives), alone]
    by_cases begins : t.isPrefix = true
    · rw [if_pos begins]
      refine (denotes_beginning here).congr fun doc => ?_
      simp [TextTerm.Occurs, begins, shape]
    · rw [if_neg begins]
      refine (denotes_word here).congr fun doc => ?_
      simp [TextTerm.Occurs, begins, apart, shape, alternatives, Document.Phrase, Document.PhraseFrom]
  · rw [if_pos alternatives, ← List.map_cons]
    have whole : ¬ t.isPrefix = true := fun begins => alternatives (plain.bare begins)
    have each : ∀ words ∈ t.words :: t.synonyms, Denotes 2 (tsPhrase words) fun doc => doc.Phrase words := by
      refine List.forall_mem_cons.mpr ⟨?_, fun words listed => ?_⟩
      · exact (denotes_phrase plain.nonempty plain.words).weaken (by decide)
      · exact (denotes_phrase (plain.synonyms _ listed).1 (plain.synonyms _ listed).2).weaken (by decide)
    refine ((Denotes.disjunction (by simp) each).congr fun doc => ?_).grouped signs_opening signs_closing
    simp [TextTerm.Occurs, whole, apart]

theorem holds_of_atom (atom : ∀ least, Denotes least text (t.Occurs ·)) :
    Denotes 3 (if !t.negate then text else ascii "!" ++ text) (t.Holds ·) := by
  unfold TextTerm.Holds
  cases t.negate with
  | false => exact atom 3
  | true => exact (atom 5).not

theorem holds_of_phrase (phrase : Denotes 3 text (t.Occurs ·)) :
    Denotes 3 (if !t.negate then text else ascii "!(" ++ text ++ ascii ")") (t.Holds ·) := by
  have opening : Signs (ascii "(") [.opening] := signs_of_cons rfl rfl
  have closing : Signs (ascii ")") [.closing] := signs_of_cons rfl rfl
  unfold TextTerm.Holds
  cases t.negate with
  | false => exact phrase
  | true => exact ((phrase.weaken (by decide)).grouped opening closing).not

private theorem denotes_term (plain : PlainTerm t) : Denotes 3 (tsTerm t) (t.Holds ·) := by
  match shape : t.words with
  | [] => exact absurd shape plain.nonempty
  | [word] =>
    convert holds_of_atom (denotes_single plain shape) using 1
    by_cases alternatives : t.synonyms = [] <;> simp [tsTerm, shape, alternatives]
  | [first, second] =>
    by_cases near : 0 < t.near
    · have whole : ¬ t.isPrefix = true := fun begins => by
        have single := plain.single (.inl begins)
        simp [shape] at single
      have here : PlainWord first := plain.words first (by simp [shape])
      have there : PlainWord second := plain.words second (by simp [shape])
      convert holds_of_atom fun least => (denotes_proximity here there near plain.close).congr fun doc => ?_ using 1
      · simp [tsTerm, shape, near]
      · simp [TextTerm.Occurs, whole, near, shape]
    · have phrase := (denotes_phrase plain.nonempty plain.words).congr (occurs_phrase plain (by simp [shape]) (by lia))
      convert holds_of_phrase phrase using 1
      simp [tsTerm, shape, near]
  | first :: second :: third :: rest =>
    have apart : t.near = 0 := by
      by_contra near
      have pair := plain.pair (Nat.pos_of_ne_zero near)
      simp [shape] at pair
    have phrase := (denotes_phrase plain.nonempty plain.words).congr (occurs_phrase plain (by simp [shape]) apart)
    convert holds_of_phrase phrase using 1
    simp [tsTerm, shape]

private theorem denotes_group (nonempty : g ≠ []) (plain : ∀ t ∈ g, PlainTerm t) :
    Denotes 2 (join " & " (g.map tsTerm)) fun doc => ∀ t ∈ g, t.Holds doc :=
  Denotes.conjunction nonempty fun t member => denotes_term (plain t member)

private theorem groups_eq {q : TextQuery} (nonempty : ∀ g ∈ q, g ≠ []) (plain : ∀ g ∈ q, ∀ t ∈ g, PlainTerm t) :
    ((q.map fun g => (g.filter (·.words ≠ [])).map tsTerm).filter (· ≠ []) |>.map (join " & ")) =
      q.map fun g => join " & " (g.map tsTerm) := by
  have whole : (q.map fun g : TextGroup => (g.filter (·.words ≠ [])).map tsTerm) = q.map fun g => g.map tsTerm := by
    refine List.map_congr_left fun g member => ?_
    rw [List.filter_eq_self.mpr fun t inside => by simpa using (plain g member t inside).nonempty]
  rw [whole, List.filter_eq_self.mpr ?_, List.map_map]
  · rfl
  · intro texts member
    obtain ⟨g, listed, rfl⟩ := List.mem_map.mp member
    simpa using nonempty g listed

theorem denotes_search {q : TextQuery} (nonempty : q ≠ []) (groups : ∀ g ∈ q, g ≠ [])
    (plain : ∀ g ∈ q, ∀ t ∈ g, PlainTerm t) : ∃ value, textSearchValue q = some value ∧ Denotes 1 value q.Matches := by
  have each : ∀ g ∈ q, Denotes 2 (join " & " (g.map tsTerm)) fun doc => ∀ t ∈ g, t.Holds doc :=
    fun g member => denotes_group (groups g member) (plain g member)
  rw [textSearchValue, groups_eq groups plain]
  match q with
  | [] => exact absurd rfl nonempty
  | [g] =>
    refine ⟨_, rfl, ((each g (by simp)).weaken (by decide)).congr fun doc => ?_⟩
    simp [TextQuery.Matches]
  | first :: second :: rest =>
    refine ⟨_, rfl, ?_⟩
    have enclosed := intercalate_enclosed (ascii "( ") (ascii " | ") (ascii " )")
      ((first :: second :: rest).map fun g => join " & " (g.map tsTerm)) (by simp)
    rw [List.map_map] at enclosed
    have any := Denotes.disjunction nonempty fun g member =>
      ((each g member).weaken (by decide)).grouped signs_opening signs_closing
    exact enclosed ▸ any

end Gofi.Sqln.Postgres
