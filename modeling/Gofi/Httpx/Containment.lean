import Gofi.Httpx.BaseURL

/-! When the path of a request stays below the base URL for every server. The
client checks the path as a server sees it that decodes first and merges slashes;
for the other three ways the walk of the server decides. -/

namespace Gofi.Httpx

open Gofi.Go Gofi.Go.Url Gofi.Text

variable {parseAuthority : Str → Option Authority}

section Printing

def IsRooted (base : Str) : Prop := base = [] ∨ ∃ rest, base = 47 :: rest

theorem below_printed_iff (rooted : IsRooted base) {parts : List Str} (nonempty : parts ≠ []) :
    Below base (printed parts) ↔ names base <+: parts.flatMap (split 47) := by
  rcases rooted with rfl | ⟨rest, rfl⟩
  · simp [Below, printed, names]
  · rw [names, ← split_intercalate nonempty, split_isPrefix_iff]
    simp [Below, printed]

private theorem isRooted_trimSlash (rooted : IsRooted path) : IsRooted (trimSlash path) := by
  unfold trimSlash
  split
  · rcases rooted with rfl | ⟨rest, rfl⟩
    · exact .inl rfl
    · cases rest with
      | nil => exact .inl rfl
      | cons byte others => exact .inr ⟨(byte :: others).dropLast, rfl⟩
  · exact rooted

end Printing

section Walks

theorem resolve_concat (walk : List Str) (part : Str) :
    dots.resolve (walk ++ [part]) = dots.visit (dots.resolve walk) part := by
  simp [Dots.resolve]

theorem visit_empty (place : List Str) : dots.visit place [] = place ++ [[]] :=
  Dots.visit_name (by decide) (by decide) place

variable {parts : List Str}

theorem closed_of_dot (dot : parts.getLast? = some dots.here ∨ parts.getLast? = some dots.above) :
    closed parts = parts ++ [[]] := if_pos dot

theorem closed_of_name (name : ¬ (parts.getLast? = some dots.here ∨ parts.getLast? = some dots.above)) :
    closed parts = parts := if_neg name

private theorem resolve_closed_ne_nil (nonempty : parts ≠ []) : dots.resolve (closed parts) ≠ [] := by
  by_cases dot : parts.getLast? = some dots.here ∨ parts.getLast? = some dots.above
  · rw [closed_of_dot dot, resolve_concat, visit_empty]
    simp
  · rw [closed_of_name dot]
    obtain ⟨front, last, rfl⟩ := (List.eq_nil_or_concat parts).resolve_left nonempty
    simp only [List.getLast?_concat, Option.some.injEq, not_or, List.concat_eq_append] at dot ⊢
    rw [resolve_concat, Dots.visit_name dot.1 dot.2]
    simp

private theorem mem_resolve {walk : List Str} (member : part ∈ dots.resolve walk) : part ∈ walk := by
  induction walk using List.reverseRecOn with
  | nil => exact member
  | append_singleton front last ih =>
    rw [resolve_concat, Dots.visit] at member
    split at member
    · exact List.mem_append_left _ (ih member)
    split at member
    · exact List.mem_append_left _ (ih (List.mem_of_mem_dropLast member))
    · rcases List.mem_append.mp member with old | new
      · exact List.mem_append_left _ (ih old)
      · exact List.mem_append_right _ new

private theorem mem_closed (member : part ∈ closed parts) : part ∈ parts ∨ part = [] := by
  unfold closed at member
  split at member
  · simpa using member
  · exact .inl member

private theorem mem_merged (member : part ∈ merged parts) : part ∈ parts ∨ part = [] := by
  rcases List.mem_append.mp member with old | new
  · exact .inl (List.mem_of_mem_dropLast (List.mem_of_mem_filter old))
  · rw [List.mem_singleton] at new
    cases last : parts.getLast? with
    | none => exact .inr (by simpa [last] using new)
    | some final =>
      rw [last, Option.getD_some] at new
      exact .inl (new ▸ List.mem_of_getLast? last)

theorem Way.mem_walk {way : Way} (member : part ∈ way.walk parts) : part ∈ parts ∨ part = [] := by
  rcases mem_closed member with inside | empty
  · split at inside
    · exact mem_merged inside
    · exact .inl inside
  · exact .inr empty

theorem Way.walk_ne_nil (way : Way) (nonempty : parts ≠ []) : dots.resolve (way.walk parts) ≠ [] := by
  refine resolve_closed_ne_nil ?_
  split
  · simp [merged]
  · exact nonempty

end Walks

section Decoding

variable {parts : List Str}

private theorem unescape_parts (decoded : unescape ([47].intercalate parts) = some text) :
    ∀ part ∈ parts, ∃ plain, unescape part = some plain := by
  induction parts generalizing text with
  | nil => simp
  | cons first rest ih =>
    by_cases last : rest = []
    · subst last
      intro part member
      obtain rfl := List.mem_singleton.mp member
      exact ⟨text, by simpa [List.intercalate] using decoded⟩
    · rw [intercalate_cons first last, unescape_append] at decoded
      obtain ⟨front, here, onward⟩ := Option.bind_eq_some_iff.mp decoded
      obtain ⟨back, there, _⟩ := Option.map_eq_some_iff.mp onward
      intro part member
      rcases List.mem_cons.mp member with rfl | later
      · exact ⟨front, here⟩
      · exact ih there part later

private theorem unescape_intercalate (decodable : ∀ part ∈ parts, ∃ plain, unescape part = some plain) :
    unescape ([47].intercalate parts) = some ([47].intercalate (parts.map fun part => (unescape part).getD [])) := by
  induction parts with
  | nil => rfl
  | cons first rest ih =>
    obtain ⟨plain, here⟩ := decodable first (List.mem_cons_self ..)
    by_cases last : rest = []
    · subst last
      simp [List.intercalate, here]
    · rw [intercalate_cons first last, unescape_append, here,
        ih fun part member => decodable part (List.mem_cons_of_mem _ member), List.map_cons,
        intercalate_cons _ (by simpa using last), here]
      rfl

theorem Way.contains_iff (way : Way) {base : Str} (rooted : IsRooted base) (decoded : unescape rest = some text) :
    way.Contains base (47 :: rest) ↔ way.Enters base (47 :: rest) := by
  rw [Way.Enters, ← Dots.below_resolve_iff]
  have whole : unescape (47 :: rest) = some (47 :: text) := by rw [unescape_slash, decoded]; rfl
  cases first : way.decodesFirst with
  | true =>
    have parts : way.parts (47 :: rest) = way.walk (split 47 text) := by simp [Way.parts, first, whole, segments]
    have normal : way.normalise (47 :: rest) = some (printed (dots.resolve (way.walk (split 47 text)))) := by
      simp [Way.normalise, first, whole, segments]
    have reads : way.reads = split 47 := by funext part; simp [Way.reads, first]
    rw [parts, reads, ← below_printed_iff rooted (way.walk_ne_nil (split_ne_nil 47 text))]
    simp [Way.Contains, normal]
  | false =>
    have parts : way.parts (47 :: rest) = way.walk (split 47 rest) := by simp [Way.parts, first, segments]
    have reads : way.reads = split 47 ∘ fun part => (unescape part).getD [] := by funext part; simp [Way.reads, first]
    have each (part : Str) (member : part ∈ dots.resolve (way.walk (split 47 rest))) :
        ∃ plain, unescape part = some plain := by
      rcases Way.mem_walk (mem_resolve member) with inside | rfl
      · exact unescape_parts (by rwa [intercalate_split]) part inside
      · exact ⟨[], rfl⟩
    have normal : way.normalise (47 :: rest) = some (printed
        ((dots.resolve (way.walk (split 47 rest))).map fun part => (unescape part).getD [])) := by
      simp [Way.normalise, first, segments, printed, unescape_slash, unescape_intercalate each]
    have nonempty := way.walk_ne_nil (split_ne_nil 47 rest)
    have flat : (dots.resolve (way.walk (split 47 rest))).flatMap way.reads =
        ((dots.resolve (way.walk (split 47 rest))).map fun part => (unescape part).getD []).flatMap (split 47) := by
      rw [List.flatMap_map, reads]
      rfl
    rw [parts, flat, ← below_printed_iff rooted (by simpa using nonempty)]
    simp [Way.Contains, normal]

end Decoding

section Checked

def checkedWay : Way := ⟨true, true⟩

theorem resolve_merged {parts : List Str} (nonempty : parts ≠ []) :
    dots.resolve (checkedWay.walk parts) = dots.resolve (parts.filter (· ≠ [])) ∨
      dots.resolve (checkedWay.walk parts) = dots.resolve (parts.filter (· ≠ [])) ++ [[]] := by
  obtain ⟨front, last, rfl⟩ := (List.eq_nil_or_concat parts).resolve_left nonempty
  simp only [List.concat_eq_append, Way.walk, checkedWay, if_true, merged, List.dropLast_concat, List.getLast?_concat,
    Option.getD_some, List.filter_append]
  by_cases empty : last = []
  · subst empty
    right
    rw [closed_of_name (by simp [dots, ascii]), resolve_concat, visit_empty]
    simp
  · have kept : [last].filter (· ≠ []) = [last] := by simp [empty]
    rw [kept]
    by_cases dot : last = dots.here ∨ last = dots.above
    · right
      rw [closed_of_dot (by simpa using dot), resolve_concat, visit_empty]
    · left
      rw [closed_of_name (by simpa using dot)]

private theorem checked_contains (rooted : IsRooted base) (decoded : unescape rest = some text)
    (below : Below base (printed (dots.resolve ((split 47 text).filter (· ≠ []))))) :
    checkedWay.Contains base (47 :: rest) := by
  let kept := (split 47 text).filter (· ≠ [])
  let walk := checkedWay.walk (split 47 text)
  have nonempty : dots.resolve walk ≠ [] := checkedWay.walk_ne_nil (split_ne_nil 47 text)
  have longer : dots.resolve kept <+: dots.resolve walk := by
    rcases resolve_merged (split_ne_nil 47 text) with same | same
    · exact same ▸ List.prefix_refl _
    · exact same ▸ List.prefix_append ..
  have normal : checkedWay.normalise (47 :: rest) = some (printed (dots.resolve walk)) := by
    simp [Way.normalise, checkedWay, unescape_slash, decoded, segments, walk]
  refine ⟨_, normal, (below_printed_iff rooted nonempty).mpr ?_⟩
  by_cases root : dots.resolve kept = []
  · have slash : Below base (printed []) := root ▸ below
    rcases rooted with rfl | ⟨rest, rfl⟩
    · exact List.nil_prefix
    · obtain rfl : rest = [] := by simpa [Below, printed, List.intercalate] using slash
      have only : dots.resolve walk = [[]] := by
        rcases resolve_merged (split_ne_nil 47 text) with same | same
        · exact absurd (same.trans root) nonempty
        · exact same.trans (congrArg (· ++ [[]]) root)
      rw [only]
      exact List.prefix_refl _
  · obtain ⟨more, same⟩ := longer
    refine ((below_printed_iff rooted root).mp below).trans ?_
    rw [← same, List.flatMap_append]
    exact List.prefix_append ..

private theorem sent_path (parsed : parse parseAuthority url = some u) (goes : send parseAuthority url = some sent) :
    sent.scheme = u.scheme ∧ sent.authority = u.authority ∧ u.authority.host ≠ [] ∧
      ∃ rest text, sent.path = 47 :: rest ∧ unescape rest = some text ∧
        (u.path = [] ∧ text = [] ∨ u.path = 47 :: text) := by
  simp only [send, parsed, Option.bind_some] at goes
  split at goes <;> cases goes
  rename_i host
  refine ⟨rfl, rfl, host, ?_⟩
  obtain ⟨slash, decoded⟩ := rooted_of_host parsed host
  rcases slash with empty | ⟨rest, written⟩
  · rw [empty] at decoded
    have nothing : u.escapedPath = [] := by simp [URL.escapedPath, validEncoded, empty]
    exact ⟨[], [], by simp [nothing], rfl, .inl ⟨(Option.some.inj decoded).symm, rfl⟩⟩
  · rw [written, unescape_slash] at decoded
    obtain ⟨text, plain, whole⟩ := Option.map_eq_some_iff.mp decoded
    unfold URL.escapedPath
    split
    · exact ⟨rest, text, by simp [written], plain, .inr whole.symm⟩
    · refine ⟨escape text, text, ?_, unescape_escape text, .inr whole.symm⟩
      rw [← whole, escape_slash]
      simp

end Checked

/-- Every URL that is sent has the scheme, userinfo and host of the base, and its
path stays below the base for every server exactly if, for the three ways of
normalising that are not checked, the walk over its segments enters the base path
and does not climb out of it again. -/
theorem client_path_stays_inside_iff (parseAuthority : Str → Option Authority) (quote : Str → Str)
    (base path url : Str)
    (nonempty : base ≠ []) (joined : joinBaseURL parseAuthority quote base path = .ok url) (sent : Sent)
    (goes : send parseAuthority url = some sent) :
    StaysInside parseAuthority base sent ↔ ∀ b, parse parseAuthority base = some b →
      ∀ way : Way, ¬ (way.decodesFirst = true ∧ way.mergesSlashes = true) →
        way.Enters (trimSlash b.path) sent.path := by
  simp only [joinBaseURL, nonempty, if_false] at joined
  split at joined
  · rename_i b u basis parsed
    split at joined <;> cases joined
    rename_i accepted
    simp only [ne_eq, not_or, not_not] at accepted
    obtain ⟨scheme, host, user, below⟩ := accepted
    obtain ⟨sameScheme, sameAuthority, there, rest, text, written, decoded, either⟩ := sent_path parsed goes
    have rooted : IsRooted (trimSlash b.path) := by
      obtain ⟨slash, plain⟩ := rooted_of_host basis (host ▸ there)
      refine isRooted_trimSlash ?_
      rcases slash with empty | ⟨more, raw⟩
      · rw [empty] at plain
        exact .inl (Option.some.inj plain).symm
      · rw [raw, unescape_slash] at plain
        obtain ⟨text, _, whole⟩ := Option.map_eq_some_iff.mp plain
        exact .inr ⟨text, whole.symm⟩
    have cleaned : clean (47 :: u.path) = printed (dots.resolve ((split 47 text).filter (· ≠ []))) := by
      rcases either with ⟨none_, rfl⟩ | some_
      · simp [clean, printed, none_, split]
      · simp [clean, printed, some_, split]
    rw [cleaned] at below
    constructor
    · rintro ⟨other, same, _, _, contains⟩ b' basis' way _
      cases basis.symm.trans same
      cases basis.symm.trans basis'
      rw [written, ← way.contains_iff rooted decoded, ← written]
      exact contains way
    · intro enters
      refine ⟨b, basis, sameScheme.trans scheme, ?_, fun way => ?_⟩
      · rw [sameAuthority]
        cases ofU : u.authority
        cases ofB : b.authority
        simp_all
      · rw [written]
        by_cases checked : way.decodesFirst = true ∧ way.mergesSlashes = true
        · obtain ⟨first, merges⟩ := checked
          obtain rfl : way = checkedWay := by
            cases way
            simp_all [checkedWay]
          exact checked_contains rooted decoded below
        · exact (way.contains_iff rooted decoded).mpr (written ▸ enters b basis way checked)
  · cases joined

namespace Sample

def authority (text : Str) : Option Authority := some ⟨[], text⟩

def apiBase : Str := ascii "https://api.x.com/v1"

def apiURL : URL := ⟨ascii "https", [], ⟨[], ascii "api.x.com"⟩, ascii "/v1", ascii "/v1"⟩

def sentTo (path : String) : Sent := ⟨ascii "https", ⟨[], ascii "api.x.com"⟩, ascii path⟩

theorem parse_apiBase : parse authority apiBase = some apiURL := by decide +kernel

def Goes (path sent : String) : Prop :=
  joinBaseURL authority id apiBase (ascii path) = .ok (apiBase ++ ascii path) ∧
    send authority (apiBase ++ ascii path) = some (sentTo sent)

instance (path sent : String) : Decidable (Goes path sent) := inferInstanceAs (Decidable (_ ∧ _))

end Sample

theorem sample_path_stays_inside : Sample.Goes "/a/../b" "/v1/a/../b" ∧
    StaysInside Sample.authority Sample.apiBase (Sample.sentTo "/v1/a/../b") := by
  have goes : Sample.Goes "/a/../b" "/v1/a/../b" := by decide +kernel
  refine ⟨goes,
    (client_path_stays_inside_iff Sample.authority id Sample.apiBase _ _ (by decide) goes.1 _ goes.2).mpr ?_⟩
  intro b parsed way _
  cases Sample.parse_apiBase.symm.trans parsed
  refine Dots.below_resolve_iff.mp ?_
  obtain ⟨first, merges⟩ := way
  cases first <;> cases merges <;> decide +kernel

theorem not_inside {sent : Sent} (way : Way) (text : Str) (normal : way.normalise sent.path = some text)
    (outside : ¬ Below (trimSlash Sample.apiURL.path) text) : ¬ StaysInside Sample.authority Sample.apiBase sent := by
  rintro ⟨b, parsed, _, _, contains⟩
  cases Sample.parse_apiBase.symm.trans parsed
  obtain ⟨found, same, below⟩ := contains way
  cases normal.symm.trans same
  exact outside below

/-- An encoded slash makes one segment of two: a server that removes the dot
segments first climbs out of the base. And a path that climbs out and comes back
with an empty segment is outside for a server that does not merge slashes. -/
theorem encoded_slash_leaves_the_base : (Sample.Goes "/x%2fy/../../admin" "/v1/x%2fy/../../admin" ∧
        ¬ StaysInside Sample.authority Sample.apiBase (Sample.sentTo "/v1/x%2fy/../../admin")) ∧
      Sample.Goes "/..//v1/x" "/v1/..//v1/x" ∧
        ¬ StaysInside Sample.authority Sample.apiBase (Sample.sentTo "/v1/..//v1/x") := by
  refine ⟨⟨by decide +kernel, ?_⟩, by decide +kernel, ?_⟩
  · exact not_inside ⟨false, false⟩ (ascii "/admin") (by decide +kernel) (by decide +kernel)
  · exact not_inside ⟨true, false⟩ (ascii "//v1/x") (by decide +kernel) (by decide +kernel)

end Gofi.Httpx
