import Gofi.Sqln.CacheKeyReading

/-! Which queries share the bytes that are hashed for them: RFC 3339 writes a zone
in whole minutes, and a nil byte slice is written as an empty one. -/

namespace Gofi.Sqln.CacheKey

open Gofi.Go

def emptyText : Text := ⟨[], by decide⟩

/-- Values that are the same but for what the bytes do not show. -/
inductive Blurred : DriverValue → DriverValue → Prop where
  | refl (v : DriverValue) : Blurred v v
  | time (clocks : t.clock = u.clock) (zones : t.zone = u.zone) : Blurred (.time t) (.time u)
  | nilFirst : Blurred (.bytes none) (.bytes (some emptyText))
  | nilSecond : Blurred (.bytes (some emptyText)) (.bytes none)

private theorem formatBool_inj : ∀ b b', formatBool b = formatBool b' → b = b' := by decide

private theorem bigEndian_bits {left right : BitVec 64} (same : bigEndian 8 left.toNat = bigEndian 8 right.toNat) :
    left = right :=
  BitVec.eq_of_toNat_eq (bigEndian_inj left.isLt right.isLt same)

private theorem blurred_bytes {b c : Option Text}
    (same : (b.map Subtype.val).getD [] = (c.map Subtype.val).getD []) : Blurred (.bytes b) (.bytes c) := by
  match b, c with
  | none, none => exact .refl _
  | none, some c =>
    obtain rfl : c = emptyText := Subtype.ext same.symm
    exact .nilFirst
  | some b, none =>
    obtain rfl : b = emptyText := Subtype.ext same
    exact .nilSecond
  | some b, some c =>
    obtain rfl : b = c := Subtype.ext same
    exact .refl _

private theorem blurred_of_alike (same : alike v w) : Blurred v w := by
  obtain ⟨tags, payloads⟩ := same
  cases v <;> cases w <;> first | (simp [DriverValue.tag] at tags; done) | skip
  case null => exact .refl _
  case int64 bits bits' => exact bigEndian_bits payloads ▸ .refl _
  case uint64 bits bits' => exact bigEndian_bits payloads ▸ .refl _
  case float64 bits bits' => exact bigEndian_bits payloads ▸ .refl _
  case bool b b' => exact formatBool_inj b b' payloads ▸ .refl _
  case bytes b b' => exact blurred_bytes payloads
  case string s s' => exact (Subtype.ext payloads : s = s') ▸ .refl _
  case time t u =>
    obtain ⟨clocks, zones⟩ := Rfc3339.format_inj payloads
    exact .time clocks zones

private theorem alike_iff (v w : DriverValue) : alike v w ↔ Blurred v w := by
  refine ⟨blurred_of_alike, fun blurred => ?_⟩
  cases blurred with
  | refl => exact ⟨rfl, rfl⟩
  | time clocks zones => exact ⟨rfl, by simp only [DriverValue.payload, Stamp.rfc3339Nano, clocks, zones]⟩
  | nilFirst => exact ⟨rfl, rfl⟩
  | nilSecond => exact ⟨rfl, rfl⟩

section Values

mutual

/-- The driver values that an argument holds at any depth. -/
def Arg.values : Arg → List DriverValue
  | .value v => [v]
  | .slice _ elements => elementValues elements
  | .other => []

def elementValues : List Arg → List DriverValue
  | [] => []
  | first :: rest => first.values ++ elementValues rest

end

def Page.values (p : Page) : List DriverValue := elementValues p.countArgs.list

def Manager.values (q : Manager) : List DriverValue := elementValues q.args.list ++ (q.page.map Page.values).getD []

variable {same same' : DriverValue → DriverValue → Prop}

mutual

theorem Arg.Same.tighten (a b : Arg) (args : a.Same same b)
    (closer : ∀ v ∈ a.values, ∀ w ∈ b.values, same v w → same' v w) : a.Same same' b := by
  match a, b with
  | .value v, .value w =>
    cases args with | value values =>
    exact .value (closer v (by simp [Arg.values]) w (by simp [Arg.values]) values)
  | .slice typeName left, .slice typeName' right =>
    cases args with | slice _ elements =>
    exact .slice typeName (elements_tighten left right elements closer)
  | .value _, .slice .. | .value _, .other | .slice .., .value _ | .slice .., .other | .other, _ => cases args

theorem elements_tighten (left right : List Arg) (args : List.Forall₂ (Arg.Same same) left right)
    (closer : ∀ v ∈ elementValues left, ∀ w ∈ elementValues right, same v w → same' v w) :
    List.Forall₂ (Arg.Same same') left right := by
  match left, right with
  | [], [] => exact .nil
  | a :: left, b :: right =>
    cases args with | cons one others =>
    exact .cons (Arg.Same.tighten a b one fun v member w member' => closer v (by simp [elementValues, member]) w
        (by simp [elementValues, member']))
      (elements_tighten left right others fun v member w member' => closer v (by simp [elementValues, member]) w
        (by simp [elementValues, member']))
  | [], _ :: _ | _ :: _, [] => cases args

end

theorem Manager.Same.tighten {q q' : Manager} (queries : q.Same same q')
    (closer : ∀ v ∈ q.values, ∀ w ∈ q'.values, same v w → same' v w) : q.Same same' q' := by
  refine ⟨queries.names, elements_tighten _ _ queries.args fun v member w member' =>
    closer v (by simp [values, member]) w (by simp [values, member']), ?_⟩
  have paged := queries.page
  unfold values at closer
  revert paged closer
  generalize q.page = left
  generalize q'.page = right
  intro closer paged
  cases paged with
  | none => exact .none
  | some pages =>
    exact .some ⟨pages.page, pages.limit, pages.order, pages.countQuery,
      elements_tighten _ _ pages.countArgs fun v member w member' =>
        closer v (by simp [Page.values, member]) w (by simp [Page.values, member'])⟩

end Values

theorem Stamp.eq_of_shown {t u : Stamp} (whole : 60 ∣ t.offset) (whole' : 60 ∣ u.offset) (clocks : t.clock = u.clock)
    (zones : t.zone = u.zone) : t = u := by
  have offsets : t.offset = u.offset := by
    unfold zone at zones
    split at zones <;> split at zones
    · lia
    · cases zones
    · cases zones
    · have minutes := Option.some.inj zones
      rw [← Int.mul_tdiv_cancel' whole, ← Int.mul_tdiv_cancel' whole', minutes]
  have instants : t.instant = u.instant := by
    rw [clock, clock, offsets] at clocks
    lia
  cases t
  cases u
  simp_all

/-- A value that its bytes determine among its like: no nil slice, and no zone with seconds. -/
def DriverValue.Sharp : DriverValue → Prop
  | .bytes b => b ≠ none
  | .time t => 60 ∣ t.offset
  | _ => True

theorem DriverValue.Sharp.eq_of_blurred (sharp : v.Sharp) (sharp' : w.Sharp) (blurred : Blurred v w) : v = w := by
  cases blurred with
  | refl => rfl
  | time clocks zones => exact congrArg _ (Stamp.eq_of_shown sharp sharp' clocks zones)
  | nilFirst => exact absurd rfl sharp
  | nilSecond => exact absurd rfl sharp'

/-- The bytes hashed for two queries tell them apart, unless the queries differ
only in times that show the same clock reading in zones of the same minutes and in
nil slices for empty ones; so they do when no zone has seconds and no slice is nil. -/
theorem cached_results_never_mix_iff (q q' : Manager) (x y : Str) (first : q.cacheKey = some x)
    (second : q'.cacheKey = some y) : ((x = y → q.Same Eq q') ↔ ¬ (q.Same Blurred q' ∧ ¬ q.Same Eq q')) ∧
    ((∀ v ∈ q.values ++ q'.values, v.Sharp) → x = y → q.Same Eq q') := by
  have blurred : q.Same Blurred q' ↔ x = y := by
    rw [show Blurred = alike from funext₂ fun v w => propext (alike_iff v w).symm]
    exact ⟨fun same => Manager.cacheKey_of_same same first second,
      fun same => Manager.same_of_cacheKey first (same ▸ second)⟩
  refine ⟨by rw [blurred, not_and_not_right],
    fun sharp same => (blurred.mpr same).tighten fun v member w member' => ?_⟩
  exact (sharp v (List.mem_append_left _ member)).eq_of_blurred (sharp w (List.mem_append_right _ member'))

namespace Sample

def word (text : String) (small : (ascii text).length < 2 ^ 63) : Text := ⟨ascii text, small⟩

/-- A query with one argument. -/
def since (v : DriverValue) : Manager where
  hasCache := true
  hasInstance := true
  fromPrimary := false
  inTransaction := false
  databaseID := word "orders" (by decide)
  cacheScope := word "" (by decide)
  contextScope := word "" (by decide)
  typeName := word "Entry" (by decide)
  kind := word "list" (by decide)
  query := word "SELECT * FROM entries WHERE at >= $1" (by decide)
  args := ⟨[.value v], by simp, by simp [Arg.Sized.value]⟩
  page := none

/-- Noon of 1930-01-01 as a clock in Amsterdam showed it, 19 minutes and 32 seconds
ahead of UTC, and as one does that is 19 minutes ahead. -/
def amsterdam : Stamp := ⟨Time.ofUnix (-1262261972), 1172, by decide, by decide, by decide, by decide⟩
def rounded : Stamp := ⟨Time.ofUnix (-1262261940), 1140, by decide, by decide, by decide, by decide⟩
def utc : Stamp := ⟨Time.ofUnix (-1262261940), 0, by decide, by decide, by decide, by decide⟩

def hashed (v : DriverValue) : Str :=
  (since v).names.flatMap (fun name => writeBytes 115 name.val) ++
    (writeBytes 110 (bigEndian 8 1) ++ (writeBytes v.tag v.payload ++ []))

theorem since_cacheKey (v : DriverValue) : (since v).cacheKey = some (hashed v) := by
  simp [Manager.cacheKey, since, writeArgs, writeElements, writeArg, Manager.writePage, hashed, Manager.names]

theorem eq_of_same (same : (since v).Same Eq (since w)) : v = w := by
  cases same.args with | cons one _ =>
  cases one with | value values =>
  exact values

end Sample

example : Sample.amsterdam.rfc3339Nano = ascii "1930-01-01T12:00:00+00:19" := by decide

/-- Two queries that differ in the zone of a time, without seconds in it, are told apart. -/
theorem sample_queries_are_told_apart :
    (Sample.since (.time Sample.rounded)).cacheKey = some (Sample.hashed (.time Sample.rounded)) ∧
    (Sample.since (.time Sample.utc)).cacheKey = some (Sample.hashed (.time Sample.utc)) ∧
    (∀ v ∈ (Sample.since (.time Sample.rounded)).values ++ (Sample.since (.time Sample.utc)).values, v.Sharp) ∧
    Sample.hashed (.time Sample.rounded) ≠ Sample.hashed (.time Sample.utc) := by
  have sharp : ∀ v ∈ (Sample.since (.time Sample.rounded)).values ++ (Sample.since (.time Sample.utc)).values,
    v.Sharp := by
    simp [Sample.since, Manager.values, elementValues, Arg.values, DriverValue.Sharp, Sample.rounded, Sample.utc]
  refine ⟨Sample.since_cacheKey _, Sample.since_cacheKey _, sharp, fun equal => ?_⟩
  have same := (cached_results_never_mix_iff _ _ _ _ (Sample.since_cacheKey (.time Sample.rounded))
    (Sample.since_cacheKey (.time Sample.utc))).2 sharp equal
  have times := Sample.eq_of_same same
  exact absurd (congrArg Stamp.offset (DriverValue.time.inj times)) (by decide)

/-- Two instants half a minute apart are written alike, and so are a nil and an empty
slice: in both cases the two queries share an entry. -/
theorem zone_seconds_are_lost :
    ((Sample.since (.time Sample.amsterdam)).cacheKey = (Sample.since (.time Sample.rounded)).cacheKey ∧
      (Sample.since (.bytes none)).cacheKey = (Sample.since (.bytes (some emptyText))).cacheKey) ∧
    (∀ v, (Sample.since v).cacheKey.isSome = true) ∧ Sample.amsterdam.instant ≠ Sample.rounded.instant ∧
    ¬ (Sample.since (.time Sample.amsterdam)).Same Eq (Sample.since (.time Sample.rounded)) ∧
    ¬ (Sample.since (.bytes none)).Same Eq (Sample.since (.bytes (some emptyText))) := by
  have alike : Sample.amsterdam.rfc3339Nano = Sample.rounded.rfc3339Nano := by decide
  refine ⟨⟨?_, ?_⟩, fun v => by rw [Sample.since_cacheKey]; rfl, by decide, fun same => ?_, fun same => ?_⟩
  · rw [Sample.since_cacheKey, Sample.since_cacheKey, Sample.hashed, Sample.hashed, DriverValue.payload, alike]
    rfl
  · rw [Sample.since_cacheKey, Sample.since_cacheKey]
    rfl
  · have times := Sample.eq_of_same same
    exact absurd (congrArg Stamp.instant (DriverValue.time.inj times)) (by decide)
  · cases Sample.eq_of_same same

end Gofi.Sqln.CacheKey
