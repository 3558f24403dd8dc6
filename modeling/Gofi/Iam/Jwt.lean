import Gofi.Iam.Types

/-! Id tokens as `golang-jwt` hands them over. The library is a parameter; what is
relied on is the documented meaning of the options it is called with. -/

namespace Gofi.Iam

open Gofi.Go

/-- A decoded JSON value; a number is the exact value of its float. -/
inductive Json where
  | null
  | bool (value : Bool)
  | number (value : Rat)
  | string (text : Str)
  | array (items : List Json)
  | object (fields : List (Str × Json))

abbrev MapClaims := List (Str × Json)

namespace MapClaims

variable (mc : MapClaims)

/-- A claim asserted to be a string: empty where it is missing or something else. -/
def getString (key : Str) : Str :=
  match mc.lookup key with
  | some (.string text) => text
  | _ => []

def getBool (key : Str) : Bool :=
  match mc.lookup key with
  | some (.bool value) => value
  | _ => false

theorem getString_eq_iff {text : Str} (filled : text ≠ []) :
    getString mc key = text ↔ mc.lookup key = some (.string text) := by
  unfold getString
  split
  · rename_i found
    simp [found]
  · rename_i other
    constructor
    · exact fun same => absurd same.symm filled
    · exact fun found => absurd found (other text)

def holds (key text : Str) : Bool :=
  match mc.lookup key with
  | some (.string found) => found = text
  | _ => false

theorem holds_iff : holds mc key text = true ↔ mc.lookup key = some (.string text) := by
  unfold holds
  split
  · rename_i found
    simp [found]
  · rename_i other
    simpa using other text

/-- The `aud` claim is the audience, or an array that holds it. -/
def Addressed (audience : Str) : Prop :=
  mc.lookup (ascii "aud") = some (.string audience) ∨
    ∃ items, mc.lookup (ascii "aud") = some (.array items) ∧ .string audience ∈ items

/-- The `exp` claim is a time that `now` is before. -/
def Unexpired (now : Time) : Prop :=
  ∃ seconds, mc.lookup (ascii "exp") = some (.number seconds) ∧ now < Time.ofUnix seconds.floor

end MapClaims

namespace Jwt

/-- The options that this package passes to `ParseWithClaims`. -/
inductive ParserOption where
  | withAudience (audience : Str)
  | withExpirationRequired
  | withIssuedAt
  | withLeeway (leeway : Duration)
  | withIssuer (issuer : Str)

/-- A token that is parsed, its signature unverified. -/
structure Token where
  header : MapClaims
  claims : MapClaims

/-- The two functions of the library in use. A key function is shown the `alg` of
the token's method; the second one is also given the time it reads. -/
structure Parser (Key : Type) where
  parseUnverified : Str → Except Err Token
  parseWithClaims : Time → List ParserOption → (Str → Except Err Key) → Str → Except Err MapClaims

/-- What the library documents. `Signed` says with whose private key a token was made. -/
structure Parser.Documented (jwt : Parser Key) (Signed : Key → Str → Prop) : Prop where
  decoded : jwt.parseWithClaims now options keyFunc token = .ok mc →
    ∃ parsed, jwt.parseUnverified token = .ok parsed ∧ parsed.claims = mc
  signed : jwt.parseWithClaims now options keyFunc token = .ok mc → ∃ alg key, keyFunc alg = .ok key ∧ Signed key token
  audience : jwt.parseWithClaims now options keyFunc token = .ok mc → .withAudience given ∈ options →
    ∃ audience, .withAudience audience ∈ options ∧ mc.Addressed audience
  expiration : jwt.parseWithClaims now options keyFunc token = .ok mc → .withExpirationRequired ∈ options →
    ∃ leeway, (leeway = 0 ∨ .withLeeway leeway ∈ options) ∧ mc.Unexpired (now - leeway)
  -- An empty issuer disables the check; any other one requires the claim.
  issuer : jwt.parseWithClaims now options keyFunc token = .ok mc → (∀ other, .withIssuer other ∉ options) →
    (jwt.parseWithClaims now (options ++ [.withIssuer expected]) keyFunc token = .ok claims ↔
      mc = claims ∧ (expected = [] ∨ mc.lookup (ascii "iss") = some (.string expected)))

/-! A library that gives no leeway, for tokens of one key that carry no `iat`. -/

section Strict

def ParserOption.passes (now : Time) (mc : MapClaims) : ParserOption → Bool
  | .withAudience audience => mc.holds (ascii "aud") audience
  | .withExpirationRequired =>
    match mc.lookup (ascii "exp") with
    | some (.number seconds) => now < Time.ofUnix seconds.floor
    | _ => false
  | .withIssuedAt => true
  | .withLeeway _ => true
  | .withIssuer issuer => issuer = [] ∨ mc.holds (ascii "iss") issuer

variable [DecidableEq Key] (key : Key) (header : MapClaims) (claims : Str → MapClaims)

def Parser.strict : Parser Key where
  parseUnverified token := .ok ⟨header, claims token⟩
  parseWithClaims now options keyFunc token :=
    match keyFunc (header.getString (ascii "alg")) with
    | .error err => .error (.wrap (ascii "token is unverifiable: error while executing keyfunc: ") err)
    | .ok used =>
      if used ≠ key then .error (.plain (ascii "token signature is invalid"))
      else if options.all (ParserOption.passes now (claims token)) then .ok (claims token)
      else .error (.plain (ascii "token has invalid claims"))

theorem Parser.strict_accepts_iff :
    (strict key header claims).parseWithClaims now options keyFunc token = .ok mc ↔
      keyFunc (header.getString (ascii "alg")) = .ok key ∧
        (∀ option ∈ options, option.passes now (claims token) = true) ∧ claims token = mc := by
  dsimp only [strict]
  split
  · rename_i refused
    simp [refused]
  · rename_i used chosen
    simp only [chosen, Except.ok.injEq, ← List.all_eq_true]
    grind

theorem Parser.strict_documented : (strict key header claims).Documented fun used _ => used = key where
  decoded accepted := ⟨_, rfl, ((strict_accepts_iff key header claims).mp accepted).2.2⟩
  signed accepted := ⟨_, _, ((strict_accepts_iff key header claims).mp accepted).1, rfl⟩
  audience accepted given := by
    obtain ⟨-, passed, rfl⟩ := (strict_accepts_iff key header claims).mp accepted
    exact ⟨_, given, .inl ((MapClaims.holds_iff _).mp (passed _ given))⟩
  expiration accepted given := by
    obtain ⟨-, passed, rfl⟩ := (strict_accepts_iff key header claims).mp accepted
    have early := passed _ given
    refine ⟨0, .inl rfl, ?_⟩
    simp only [ParserOption.passes] at early
    split at early
    · rename_i seconds dated
      exact ⟨seconds, dated, by simpa using early⟩
    · cases early
  issuer accepted _ := by
    obtain ⟨chosen, passed, rfl⟩ := (strict_accepts_iff key header claims).mp accepted
    rw [strict_accepts_iff, List.forall_mem_append, List.forall_mem_singleton, and_iff_right chosen,
      and_iff_right passed, and_comm]
    simp [ParserOption.passes, MapClaims.holds_iff]

end Strict

end Jwt

end Gofi.Iam
