import Gofi.Sqln.FullText

/-! `fts/search.go` and `fts/synonyms.go`: how a search string is read in each
mode, and what the renderers may rely on in the parsed search. Strings cut out
of a rune slice stay lists of runes. -/

namespace Gofi.Sqln

open Gofi.Go

abbrev Rune := Nat

/-- The functions of `unicode` and `utf8`. Letters, digits and marks are valid
runes, and lower-casing keeps them so. -/
structure Unicode where
  /-- `[]rune(s)`: an invalid byte is U+FFFD. -/
  runes : Str → List Rune
  /-- `string(runes)`. -/
  encode : List Rune → Str
  isWordRune : Rune → Bool
  isSpace : Rune → Bool
  toLower : Rune → Rune
  toLower_word : ∀ r, isWordRune r = true → isWordRune (toLower r) = true
  runes_encode : ∀ word, (∀ r ∈ word, isWordRune r = true) → runes (encode word) = word

def maxTermLength : Nat := 256
def maxTerms : Nat := 16
def maxNear : Nat := 10

def fieldsFrom (word : α → Bool) (begun : List α) : List α → List (List α)
  | [] => if begun.isEmpty then [] else [begun]
  | item :: rest =>
    if word item then fieldsFrom word (begun ++ [item]) rest
    else if begun.isEmpty then fieldsFrom word [] rest
    else begun :: fieldsFrom word [] rest

namespace Unicode

variable (u : Unicode)

def splitWords (text : List Rune) : List Str := (fieldsFrom u.isWordRune [] (text.map u.toLower)).map u.encode

def term (words : List Str) (negate : Bool) : TextTerm := ⟨words, false, negate, 0, []⟩

def nearDigits (text : List Rune) : List Rune := (text.takeWhile fun r => decide (48 ≤ r ∧ r ≤ 57)).take 3

def nearValue (digits : List Rune) : Nat := digits.foldl (fun near r => near * 10 + (r - 48)) 0

/-- What the scanner finds at one place: a term, the word OR, or nothing. -/
inductive Found where
  | term (t : TextTerm)
  | alternative
  | nothing

/-- Where the scanner goes on: the rune before it, and what is left. -/
structure Cursor where
  previous : Option Rune
  rest : List Rune

def readNear : List Rune → Nat × Cursor
  | [] => (0, ⟨some 34, []⟩)
  | r :: rest =>
    if r = 126
      then (nearValue (nearDigits rest), ⟨(r :: nearDigits rest).getLast?, rest.drop (nearDigits rest).length⟩)
    else (0, ⟨some 34, r :: rest⟩)

def readPhrase (negate : Bool) (text : List Rune) : Found × Cursor :=
  let words := u.splitWords (text.takeWhile (· ≠ 34))
  let (near, cursor) := readNear ((text.dropWhile (· ≠ 34)).drop 1)
  (if words = [] then .nothing
    else .term { term words negate with near := if words.length = 2 ∧ near > 0 then min near maxNear else 0 }, cursor)

def readWord (negate : Bool) (first : Rune) (text : List Rune) : Found × Cursor :=
  let run := first :: text.takeWhile u.isWordRune
  let word := u.encode (run.map u.toLower)
  (if word = ascii "or" ∧ negate = false then .alternative else .term (term [word] negate),
    ⟨run.getLast?, text.dropWhile u.isWordRune⟩)

def negates (previous : Option Rune) (first : Rune) (text : List Rune) : Bool :=
  first = 45 && (previous.map u.isSpace).getD true && (text.head?.map fun r => r = 34 || u.isWordRune r).getD false

def readToken (negate : Bool) (first : Rune) (text : List Rune) : Found × Cursor :=
  if first = 34 then u.readPhrase negate text
  else if u.isWordRune first then u.readWord negate first text
  else (.nothing, ⟨some first, text⟩)

def next (previous : Option Rune) (first : Rune) (text : List Rune) : Found × Cursor :=
  if u.negates previous first text then
    match text with
    | [] => (.nothing, ⟨some first, []⟩)
    | second :: rest => u.readToken true second rest
  else u.readToken false first text

private theorem readNear_shorter (text : List Rune) : (readNear text).2.rest.length ≤ text.length := by
  fun_cases readNear text with
  | case1 => exact le_refl _
  | case2 rest =>
    rw [List.length_drop, List.length_cons]
    lia
  | case3 => exact le_refl _

theorem readPhrase_shorter (negate : Bool) (text : List Rune) :
    (u.readPhrase negate text).2.rest.length ≤ text.length :=
  calc (u.readPhrase negate text).2.rest.length
      ≤ ((text.dropWhile (· ≠ 34)).drop 1).length := readNear_shorter _
    _ ≤ (text.dropWhile (· ≠ 34)).length := by rw [List.length_drop]; lia
    _ ≤ text.length := (List.dropWhile_suffix _).length_le

theorem readToken_shorter (negate : Bool) (first : Rune) (text : List Rune) :
    (u.readToken negate first text).2.rest.length ≤ text.length := by
  unfold readToken
  split
  · exact u.readPhrase_shorter negate text
  split
  · exact (List.dropWhile_suffix _).length_le
  · exact le_refl _

theorem next_shorter (previous : Option Rune) (first : Rune) (text : List Rune) :
    (u.next previous first text).2.rest.length ≤ text.length := by
  unfold next
  split
  · split
    · exact le_refl _
    · exact (u.readToken_shorter true _ _).trans (by simp)
  · exact u.readToken_shorter false first text

def close (q : TextQuery) (g : TextGroup) : TextQuery := if g = [] then q else q ++ [g]

/-- What is found, with the groups so far and the group being read. -/
def Found.add (q : TextQuery) (g : TextGroup) : Found → TextQuery × TextGroup
  | .term t => (q, g ++ [t])
  | .alternative => (close q g, [])
  | .nothing => (q, g)

def scan (previous : Option Rune) (text : List Rune) (q : TextQuery) (g : TextGroup) : TextQuery :=
  match text with
  | [] => close q g
  | first :: rest =>
    let turn := u.next previous first rest
    scan turn.2.previous turn.2.rest (turn.1.add q g).1 (turn.1.add q g).2
termination_by text.length
decreasing_by exact Nat.lt_succ_of_le (u.next_shorter previous first rest)

def keepPositive (q : TextQuery) : TextQuery := q.filter fun g => g.any fun t => !t.negate

def parseWebsearch (text : List Rune) : TextQuery := keepPositive (u.scan none text [] [])

def parse (text : List Rune) : Mode → TextQuery
  | .allTerms => keepPositive [(u.splitWords text).map fun word => term [word] false]
  | .wordPrefix => keepPositive [(u.splitWords text).map fun word => { term [word] false with isPrefix := true }]
  | .anyTerm => (u.splitWords text).map fun word => [term [word] false]
  | .phrase => if u.splitWords text = [] then [] else [[term (u.splitWords text) false]]
  | .websearch => u.parseWebsearch text

abbrev SynonymMap := Str → List (List Str)

def expandTerm (synonyms : SynonymMap) (t : TextTerm) : TextTerm :=
  match t.words with
  | [word] => if t.isPrefix then t else { t with synonyms := synonyms word }
  | _ => t

def expand (synonyms : SynonymMap) (q : TextQuery) : TextQuery := q.map fun g => g.map (expandTerm synonyms)

def termCount (q : TextQuery) : Nat := (q.map List.length).sum

def query (synonyms : SynonymMap) (mode : Mode) (text : Str) : Except Err TextQuery :=
  let runes := u.runes text
  if runes.length > maxTermLength then
    .error
      ⟨[.invalidSearch], ascii "fts: invalid search: " ++ formatNat runes.length ++ ascii " characters exceed 256"⟩
  else
    let q := u.parse runes mode
    if termCount q > maxTerms then
      .error ⟨[.invalidSearch], ascii "fts: invalid search: " ++ formatNat (termCount q) ++ ascii " terms exceed 16"⟩
    else if q = [] then .error ⟨[.emptySearch], ascii "fts: empty search"⟩
    else .ok (expand synonyms q)

section Synonyms

def hasWords (listed : List (List Str)) (words : List Str) : Bool :=
  listed.any fun other => join " " other = join " " words

def members (name : Str) (quote : Str → Str) : List Str → Except Err (List (List Str))
  | [] => .ok []
  | entry :: rest => do
    let words := u.splitWords (u.runes entry)
    if words = [] ∨ words.length > maxTerms then
      .error ⟨[.invalidIndex], ascii "fts: invalid index: " ++ name ++ ascii ": synonym " ++ quote entry ++
        ascii " needs 1 to 16 words"⟩
    else
      let others ← members name quote rest
      pure (words :: others)

def addSynonym (word : Str) (m : SynonymMap) (words : List Str) : SynonymMap :=
  if hasWords (m word) words then m else Function.update m word (m word ++ [words])

def addGroup (m : SynonymMap) (group : List (List Str)) : SynonymMap :=
  group.zipIdx.foldl (fun m (member, i) =>
    match member with
    | [word] => ((group.zipIdx.filter fun (_, j) => i ≠ j).map Prod.fst).foldl (addSynonym word) m
    | _ => m) m

def synonymMap (name : Str) (quote : Str → Str) (listText : List Str → Str) : List (List Str) → SynonymMap →
    Except Err SynonymMap
  | [], m => .ok m
  | group :: rest, m => do
    let words ← u.members name quote group
    if words.length < 2 then
      .error ⟨[.invalidIndex], ascii "fts: invalid index: " ++ name ++
        ascii ": a synonym group needs two members, got " ++ listText group⟩
    else synonymMap name quote listText rest (addGroup m words)

end Synonyms

structure IsWord (word : Str) : Prop where
  nonempty : u.runes word ≠ []
  letters : ∀ r ∈ u.runes word, u.isWordRune r = true

structure SafeTerm (t : TextTerm) : Prop where
  nonempty : t.words ≠ []
  words : ∀ word ∈ t.words, u.IsWord word
  synonyms : ∀ words ∈ t.synonyms, words ≠ [] ∧ ∀ word ∈ words, u.IsWord word
  single : t.isPrefix = true ∨ t.synonyms ≠ [] → t.words.length = 1
  pair : 0 < t.near → t.words.length = 2
  close : t.near ≤ maxNear

structure SafeQuery (q : TextQuery) : Prop where
  nonempty : q ≠ []
  positive : ∀ g ∈ q, ∃ t ∈ g, t.negate = false
  bounded : termCount q ≤ maxTerms
  terms : ∀ g ∈ q, ∀ t ∈ g, u.SafeTerm t

private theorem fieldsFrom_run {word : α → Bool} {begun text : List α} (run : ∀ item ∈ begun, word item = true)
    (member : field ∈ fieldsFrom word begun text) : field ≠ [] ∧ ∀ item ∈ field, word item = true := by
  induction text generalizing begun with
  | nil =>
    simp only [fieldsFrom, List.isEmpty_iff] at member
    split at member
    · cases member
    · obtain rfl := List.mem_singleton.mp member
      exact ⟨‹_›, run⟩
  | cons item rest ih =>
    simp only [fieldsFrom, List.isEmpty_iff] at member
    split at member
    · refine ih (fun one inside => ?_) member
      rcases List.mem_append.mp inside with old | new
      · exact run one old
      · obtain rfl := List.mem_singleton.mp new
        assumption
    split at member
    · exact ih (by simp) member
    · rcases List.mem_cons.mp member with rfl | later
      · exact ⟨‹_›, run⟩
      · exact ih (by simp) later

variable {u}

theorem isWord_encode {runes : List Rune} (nonempty : runes ≠ []) (letters : ∀ r ∈ runes, u.isWordRune r = true) :
    u.IsWord (u.encode runes) := by
  have same := u.runes_encode runes letters
  exact ⟨by rwa [same], by rwa [same]⟩

theorem splitWords_isWord (member : word ∈ u.splitWords text) : u.IsWord word := by
  obtain ⟨run, found, rfl⟩ := List.mem_map.mp member
  obtain ⟨nonempty, letters⟩ := fieldsFrom_run (by simp) found
  exact isWord_encode nonempty letters

theorem safe_term {words : List Str} (nonempty : words ≠ []) (all : ∀ word ∈ words, u.IsWord word) (negate : Bool) :
    u.SafeTerm (term words negate) :=
  ⟨nonempty, all, by simp [term], by simp [term], by simp [term], by simp [term]⟩

private theorem safe_readPhrase (found : (u.readPhrase negate text).1 = .term t) : u.SafeTerm t := by
  simp only [readPhrase] at found
  split at found <;> cases found
  rename_i nonempty
  have safe := safe_term nonempty (fun word => splitWords_isWord) negate
  refine ⟨safe.nonempty, safe.words, safe.synonyms, safe.single, fun near => ?_, ?_⟩
  · by_contra other
    simp [term] at other
    simp [other] at near
  · dsimp only
    split
    · exact min_le_right _ _
    · exact Nat.zero_le _

private theorem safe_readWord (letter : u.isWordRune first = true)
    (found : (u.readWord negate first text).1 = .term t) :
    u.SafeTerm t := by
  simp only [readWord] at found
  split at found <;> cases found
  refine safe_term (by simp) (fun word member => ?_) negate
  obtain rfl := List.mem_singleton.mp member
  refine isWord_encode (by simp) fun r inside => ?_
  obtain ⟨upper, run, rfl⟩ := List.mem_map.mp inside
  refine u.toLower_word upper ?_
  rcases List.mem_cons.mp run with rfl | later
  · exact letter
  · exact List.all_eq_true.mp List.all_takeWhile upper later

theorem safe_readToken (found : (u.readToken negate first text).1 = .term t) : u.SafeTerm t := by
  unfold readToken at found
  split at found
  · exact safe_readPhrase found
  split at found
  · exact safe_readWord ‹_› found
  · cases found

private theorem safe_next (found : (u.next previous first text).1 = .term t) : u.SafeTerm t := by
  unfold next at found
  split at found
  · split at found
    · cases found
    · exact safe_readToken found
  · exact safe_readToken found

section Terms

variable {holds : TextTerm → Prop} {q : TextQuery} {g : TextGroup}

theorem terms_close (groups : ∀ g ∈ q, ∀ t ∈ g, holds t) (current : ∀ t ∈ g, holds t) :
    ∀ one ∈ close q g, ∀ t ∈ one, holds t := by
  unfold close
  split
  · exact groups
  · intro one member
    rcases List.mem_append.mp member with old | new
    · exact groups one old
    · exact List.mem_singleton.mp new ▸ current

private theorem terms_add {what : Found} (groups : ∀ g ∈ q, ∀ t ∈ g, holds t) (current : ∀ t ∈ g, holds t)
    (found : ∀ t, what = .term t → holds t) :
    (∀ one ∈ (what.add q g).1, ∀ t ∈ one, holds t) ∧ ∀ t ∈ (what.add q g).2, holds t := by
  cases what with
  | term t =>
    refine ⟨groups, fun one member => ?_⟩
    rcases List.mem_append.mp member with old | new
    · exact current one old
    · exact List.mem_singleton.mp new ▸ found t rfl
  | alternative => exact ⟨terms_close groups current, by simp [Found.add]⟩
  | nothing => exact ⟨groups, current⟩

theorem terms_scan (found : ∀ previous first text t, (u.next previous first text).1 = .term t → holds t)
    (previous : Option Rune) (text : List Rune) (groups : ∀ g ∈ q, ∀ t ∈ g, holds t) (current : ∀ t ∈ g, holds t) :
    ∀ one ∈ u.scan previous text q g, ∀ t ∈ one, holds t := by
  fun_induction scan u previous text q g with
  | case1 previous q g => exact terms_close groups current
  | case2 previous q g first rest turn ih =>
    obtain ⟨later, open_⟩ := terms_add groups current (found previous first rest)
    exact ih later open_

end Terms

def SafeTerms (u : Unicode) (q : TextQuery) : Prop := ∀ g ∈ q, ∀ t ∈ g, u.SafeTerm t

private theorem safe_scan (previous : Option Rune) (text : List Rune) (groups : u.SafeTerms q)
    (current : ∀ t ∈ g, u.SafeTerm t) : u.SafeTerms (u.scan previous text q g) :=
  terms_scan (fun _ _ _ _ found => safe_next found) previous text groups current

theorem safe_keepPositive (groups : u.SafeTerms q) : u.SafeTerms (keepPositive q) :=
  fun g member => groups g (List.mem_of_mem_filter member)

theorem safe_single (member : word ∈ u.splitWords text) : u.SafeTerm (term [word] false) :=
  safe_term (by simp) (fun one same => List.mem_singleton.mp same ▸ splitWords_isWord member) false

private theorem safe_parse (text : List Rune) (mode : Mode) : u.SafeTerms (u.parse text mode) := by
  cases mode with
  | websearch => exact safe_keepPositive (safe_scan none text (by simp [SafeTerms]) (by simp))
  | allTerms =>
    refine safe_keepPositive fun g member t inside => ?_
    obtain rfl := List.mem_singleton.mp member
    obtain ⟨word, listed, rfl⟩ := List.mem_map.mp inside
    exact safe_single listed
  | anyTerm =>
    intro g member t inside
    obtain ⟨word, listed, rfl⟩ := List.mem_map.mp member
    obtain rfl := List.mem_singleton.mp inside
    exact safe_single listed
  | wordPrefix =>
    refine safe_keepPositive fun g member t inside => ?_
    obtain rfl := List.mem_singleton.mp member
    obtain ⟨word, listed, rfl⟩ := List.mem_map.mp inside
    have safe := safe_single listed
    exact ⟨safe.nonempty, safe.words, safe.synonyms, fun _ => rfl, safe.pair, safe.close⟩
  | phrase =>
    rw [parse]
    split
    · simp [SafeTerms]
    · rename_i nonempty
      intro g member t inside
      obtain rfl := List.mem_singleton.mp member
      obtain rfl := List.mem_singleton.mp inside
      exact safe_term nonempty (fun word => splitWords_isWord) false

private theorem positive_keepPositive (member : g ∈ keepPositive q) : ∃ t ∈ g, t.negate = false := by
  have any := (List.mem_filter.mp member).2
  simpa using any

private theorem positive_parse (text : List Rune) (mode : Mode) (member : g ∈ u.parse text mode) :
    ∃ t ∈ g, t.negate = false := by
  cases mode with
  | websearch | allTerms | wordPrefix => exact positive_keepPositive member
  | anyTerm =>
    obtain ⟨word, _, rfl⟩ := List.mem_map.mp member
    exact ⟨_, List.mem_singleton_self _, rfl⟩
  | phrase =>
    rw [parse] at member
    split at member
    · cases member
    · obtain rfl := List.mem_singleton.mp member
      exact ⟨_, List.mem_singleton_self _, rfl⟩

def SafeSynonyms (u : Unicode) (m : SynonymMap) : Prop :=
  ∀ word, ∀ words ∈ m word, words ≠ [] ∧ ∀ one ∈ words, u.IsWord one

private theorem safe_expandTerm (synonyms : u.SafeSynonyms m) (safe : u.SafeTerm t) : u.SafeTerm (expandTerm m t) := by
  unfold expandTerm
  split
  · rename_i word single
    split
    · exact safe
    · exact ⟨safe.nonempty, safe.words, synonyms word, fun _ => by rw [single]; rfl, safe.pair, safe.close⟩
  · exact safe

private theorem expandTerm_negate (m : SynonymMap) (t : TextTerm) : (expandTerm m t).negate = t.negate := by
  unfold expandTerm
  split
  · split <;> rfl
  · rfl

private theorem termCount_expand (m : SynonymMap) (q : TextQuery) : termCount (expand m q) = termCount q := by
  simp [termCount, expand, Function.comp_def]

theorem safe_query (synonyms : u.SafeSynonyms m) (ok : u.query m mode text = .ok q) : u.SafeQuery q := by
  simp only [query] at ok
  split at ok
  · cases ok
  split at ok
  · cases ok
  split at ok
  · cases ok
  rename_i small nonempty
  cases ok
  refine ⟨by simpa [expand] using nonempty, fun g member => ?_,
    by rw [termCount_expand]; lia, fun g member t inside => ?_⟩
  · obtain ⟨group, listed, rfl⟩ := List.mem_map.mp member
    obtain ⟨t, held, positive⟩ := positive_parse _ mode listed
    exact ⟨_, List.mem_map_of_mem held, by rw [expandTerm_negate, positive]⟩
  · obtain ⟨group, listed, rfl⟩ := List.mem_map.mp member
    obtain ⟨old, held, rfl⟩ := List.mem_map.mp inside
    exact safe_expandTerm synonyms (safe_parse _ mode group listed old held)

section Synonyms

private theorem members_words {words : List Str} (read : u.members name quote entries = .ok groups)
    (member : words ∈ groups) :
    words ≠ [] ∧ ∀ one ∈ words, u.IsWord one := by
  induction entries generalizing groups with
  | nil =>
    cases read
    cases member
  | cons entry rest ih =>
    simp only [members] at read
    split at read
    · cases read
    · rename_i sized
      cases others : u.members name quote rest with
      | error err => simp [others, bind, Except.bind] at read
      | ok groups =>
        simp only [others, bind, Except.bind, pure, Except.pure, Except.ok.injEq] at read
        subst read
        rcases List.mem_cons.mp member with rfl | later
        · exact ⟨fun empty => sized (.inl empty), fun one => splitWords_isWord⟩
        · exact ih others later

private theorem safe_addSynonym (safe : u.SafeSynonyms m) (word : Str) {words : List Str}
    (good : words ≠ [] ∧ ∀ one ∈ words, u.IsWord one) : u.SafeSynonyms (addSynonym word m words) := by
  unfold addSynonym
  split
  · exact safe
  · intro key listed member
    by_cases same : key = word
    · subst same
      rw [Function.update_self] at member
      rcases List.mem_append.mp member with old | new
      · exact safe key listed old
      · exact List.mem_singleton.mp new ▸ good
    · rw [Function.update_of_ne same] at member
      exact safe key listed member

private theorem safe_addGroup (safe : u.SafeSynonyms m)
    (good : ∀ words ∈ group, words ≠ [] ∧ ∀ one ∈ words, u.IsWord one) :
    u.SafeSynonyms (addGroup m group) := by
  refine List.foldlRecOn _ _ safe fun m safe pair placed => ?_
  obtain ⟨member, i⟩ := pair
  clear placed
  dsimp only
  split
  · rename_i word
    refine List.foldlRecOn _ _ safe fun m safe words listed => ?_
    obtain ⟨⟨other, j⟩, kept, rfl⟩ := List.mem_map.mp listed
    exact safe_addSynonym safe word (good _ (List.fst_mem_of_mem_zipIdx (List.mem_of_mem_filter kept)))
  · exact safe

theorem safe_synonymMap (safe : u.SafeSynonyms m) (built : u.synonymMap name quote listText groups m = .ok last) :
    u.SafeSynonyms last := by
  induction groups generalizing m with
  | nil =>
    cases built
    exact safe
  | cons group rest ih =>
    cases read : u.members name quote group with
    | error err => simp [synonymMap, read, bind, Except.bind] at built
    | ok words =>
      simp only [synonymMap, read, bind, Except.bind] at built
      split at built
      · cases built
      · exact ih (safe_addGroup safe fun words member => members_words read member) built

end Synonyms

/-- Every search string that is accepted, in every mode and on every index, gives
a search the renderers can rely on. -/
theorem parsed_search_is_safe (u : Unicode) (name : Str) (quote : Str → Str) (listText : List Str → Str)
    (groups : List (List Str)) (m : SynonymMap) (built : u.synonymMap name quote listText groups (fun _ => []) = .ok m)
    (mode : Mode) (text : Str) (q : TextQuery) (ok : u.query m mode text = .ok q) : u.SafeQuery q :=
  safe_query (safe_synonymMap (by simp [SafeSynonyms]) built) ok

namespace Sample

def latin : Unicode where
  runes text := text.map UInt8.toNat
  encode runes := runes.map UInt8.ofNat
  isWordRune r := decide (48 ≤ r ∧ r ≤ 57 ∨ 65 ≤ r ∧ r ≤ 90 ∨ 97 ≤ r ∧ r ≤ 122)
  isSpace r := r = 32
  toLower r := if 65 ≤ r ∧ r ≤ 90 then r + 32 else r
  toLower_word r letter := by
    simp only [decide_eq_true_eq] at letter ⊢
    split <;> lia
  runes_encode word letters := by
    rw [List.map_map]
    conv_rhs => rw [← List.map_id word]
    refine List.map_congr_left fun r member => ?_
    have letter := letters r member
    simp only [decide_eq_true_eq] at letter
    simp only [Function.comp_apply, UInt8.toNat_ofNat', id]
    lia

def synonyms : SynonymMap := addGroup (fun _ => []) [[ascii "car"], [ascii "auto"]]

def parsed : TextQuery := [[{ term [ascii "car"] false with synonyms := [[ascii "auto"]] }, term [ascii "sale"] false]]

theorem synonyms_built :
    latin.synonymMap [] id (fun _ => []) [[ascii "car", ascii "auto"]] (fun _ => []) = .ok synonyms := by
  have car : latin.splitWords (latin.runes (ascii "car")) = [ascii "car"] := by decide +kernel
  have auto : latin.splitWords (latin.runes (ascii "auto")) = [ascii "auto"] := by decide +kernel
  simp [synonymMap, members, car, auto, maxTerms, synonyms, bind, Except.bind, pure, Except.pure]

theorem parsed_query : latin.query synonyms .allTerms (ascii "Car, sale") = .ok parsed := by
  have short : (latin.runes (ascii "Car, sale")).length ≤ maxTermLength := by decide +kernel
  have split : latin.splitWords (latin.runes (ascii "Car, sale")) = [ascii "car", ascii "sale"] := by decide +kernel
  have car : synonyms (ascii "car") = [[ascii "auto"]] := by decide +kernel
  have sale : synonyms (ascii "sale") = [] := by decide +kernel
  have read : latin.parse (latin.runes (ascii "Car, sale")) .allTerms =
      [[term [ascii "car"] false, term [ascii "sale"] false]] := by
    simp [parse, split, keepPositive, term]
  have expanded : expand synonyms [[term [ascii "car"] false, term [ascii "sale"] false]] = parsed := by
    simp [expand, expandTerm, term, car, sale, parsed]
  simp only [query, read, expanded, Nat.not_lt.mpr short, if_false]
  rfl

end Sample

theorem sample_search_is_safe : Sample.latin.SafeQuery Sample.parsed :=
  parsed_search_is_safe Sample.latin [] id (fun _ => []) [[ascii "car", ascii "auto"]] Sample.synonyms
    Sample.synonyms_built .allTerms (ascii "Car, sale") Sample.parsed Sample.parsed_query

end Unicode

end Gofi.Sqln
