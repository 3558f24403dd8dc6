import Gofi.Go.Split
import Gofi.Go.Text

/-! Go's `net/url`: percent-encoding of paths, and `Parse`. How an authority is
read, with its userinfo and ports, is left open. -/

namespace Gofi.Go.Url

open Gofi.Go

/-- `unhex`; `none` when the byte is no hexadecimal digit. -/
def unhex (byte : UInt8) : Option UInt8 :=
  if 48 ≤ byte ∧ byte ≤ 57 then some (byte - 48)
  else if 97 ≤ byte ∧ byte ≤ 102 then some (byte - 97 + 10)
  else if 65 ≤ byte ∧ byte ≤ 70 then some (byte - 65 + 10)
  else none

/-- `unescape` in a path or a fragment; `none` for a `%` without two digits. -/
def unescape : Str → Option Str
  | [] => some []
  | 37 :: high :: low :: rest =>
    match unhex high, unhex low, unescape rest with
    | some h, some l, some text => some ((h <<< 4 ||| l) :: text)
    | _, _, _ => none
  | byte :: rest => if byte = 37 then none else (unescape rest).map (byte :: ·)

/-- Letters, digits and `-_.~`. -/
def unreserved (byte : UInt8) : Bool :=
  97 ≤ byte && byte ≤ 122 || 65 ≤ byte && byte ≤ 90 || 48 ≤ byte && byte ≤ 57 ||
    byte = 45 || byte = 95 || byte = 46 || byte = 126

/-- `shouldEscape` in a path: all but the unreserved bytes and `$&+,/:;=@`. -/
def shouldEscape (byte : UInt8) : Bool := !(unreserved byte || byte ∈ ascii "$&+,/:;=@")

def upperhex (digit : UInt8) : UInt8 := if digit < 10 then digit + 48 else digit + 55

def escape : Str → Str
  | [] => []
  | byte :: rest =>
    if shouldEscape byte then 37 :: upperhex (byte >>> 4) :: upperhex (byte &&& 15) :: escape rest
    else byte :: escape rest

def validEncoded (text : Str) : Bool := text.all fun byte => byte ∈ ascii "!$&'()*+,;=:@[]%" || !shouldEscape byte

/-- An authority: the text of its userinfo, and its host. -/
structure Authority where
  user : Str
  host : Str
  deriving DecidableEq

structure URL where
  scheme : Str
  opaquePart : Str
  authority : Authority
  rawPath : Str
  path : Str
  deriving DecidableEq

def isLetter (byte : UInt8) : Bool := 97 ≤ byte && byte ≤ 122 || 65 ≤ byte && byte ≤ 90

def isDigit (byte : UInt8) : Bool := 48 ≤ byte && byte ≤ 57

def toLower (byte : UInt8) : UInt8 := if 65 ≤ byte && byte ≤ 90 then byte + 32 else byte

/-- `getScheme`, after some bytes of a scheme: the scheme and the rest, or `none`
when there is no scheme. -/
def schemeFrom (read : Str) : Str → Option (Str × Str)
  | [] => none
  | byte :: rest =>
    if isLetter byte || (isDigit byte || byte ∈ ascii "+-.") && !read.isEmpty then schemeFrom (read ++ [byte]) rest
    else if byte = 58 then some (read, rest)
    else none

/-- `getScheme`; a URL that starts with a colon is an error. -/
def getScheme (text : Str) : Option (Str × Str) :=
  match schemeFrom [] text with
  | some ([], _) => none
  | some found => some found
  | none => some ([], text)

def cutAt (sep : UInt8) (text : Str) : Str × Str := (cut sep text).getD (text, [])

def beforeQuery (text : Str) : Str := (cutAt 63 text).1

/-- `parse`, for a text without a fragment. -/
def parseRest (parseAuthority : Str → Option Authority) (scheme rest : Str) : Option URL :=
  match rest with
  | 47 :: 47 :: after =>
    if scheme = [] ∧ after.head? = some 47 then
      (unescape rest).map fun path => ⟨scheme, [], ⟨[], []⟩, rest, path⟩
    else do
      let host := after.takeWhile (· ≠ 47)
      let raw := after.dropWhile (· ≠ 47)
      let authority ← parseAuthority host
      let path ← unescape raw
      return ⟨scheme, [], authority, raw, path⟩
  | 47 :: _ => (unescape rest).map fun path => ⟨scheme, [], ⟨[], []⟩, rest, path⟩
  | _ =>
    if scheme ≠ [] then some ⟨scheme, rest, ⟨[], []⟩, [], []⟩
    else if 58 ∈ (cutAt 47 rest).1 then none
    else (unescape rest).map fun path => ⟨scheme, [], ⟨[], []⟩, rest, path⟩

/-- `Parse`; `none` for an error. -/
def parse (parseAuthority : Str → Option Authority) (text : Str) : Option URL := do
  let (url, fragment) := cutAt 35 text
  let _ ← unescape fragment
  if url.any (fun byte => byte < 32 || byte = 127) then none
  else if url = [42] then some ⟨[], [], ⟨[], []⟩, [42], [42]⟩
  else do
    let (scheme, rest) ← getScheme url
    parseRest parseAuthority (scheme.map toLower) (beforeQuery rest)

/-- `EscapedPath`: the path as it was written, if that is a valid encoding. -/
def URL.escapedPath (u : URL) : Str := if validEncoded u.rawPath then u.rawPath else escape u.path

section Escapes

theorem unescape_cons (plain : byte ≠ 37) (rest : Str) :
    unescape (byte :: rest) = (unescape rest).map (byte :: ·) := by
  rw [unescape.eq_def]
  split
  · contradiction
  · rename_i same
    cases same
    contradiction
  · rename_i same
    cases same
    rw [if_neg plain]

theorem unescape_append (front back : Str) : unescape (front ++ 47 :: back) =
    (unescape front).bind fun first => (unescape back).map fun second => first ++ 47 :: second := by
  fun_induction unescape front with
  | case1 => simp [unescape_cons]
  | case2 high low rest h l text read unlow unhigh ih =>
    rw [read, Option.bind_some] at ih
    rw [Option.bind_some, List.cons_append, List.cons_append, List.cons_append, unescape, unhigh, unlow, ih]
    cases unescape back <;> rfl
  | case3 high low rest unread ih =>
    rw [List.cons_append, List.cons_append, List.cons_append, unescape, Option.bind_none]
    split
    · rename_i h l text unhigh unlow read
      rw [ih] at read
      obtain ⟨first, front, _⟩ := Option.bind_eq_some_iff.mp read
      exact absurd front (unread h l first unhigh unlow)
    · rfl
  | case4 rest short =>
    match rest with
    | [] => cases back <;> rfl
    | [digit] => simp [unescape, show unhex 47 = none from rfl]
    | high :: low :: rest => exact absurd rfl (short high low rest rfl)
  | case5 byte rest _ plain ih =>
    rw [List.cons_append, unescape_cons plain, ih]
    cases unescape rest <;> simp [Function.comp_def]

theorem unhex_upperhex (byte : UInt8) : unhex (upperhex (byte >>> 4)) = some (byte >>> 4) ∧
    unhex (upperhex (byte &&& 15)) = some (byte &&& 15) ∧ (byte >>> 4) <<< 4 ||| (byte &&& 15) = byte := by
  have each : ∀ value : Fin 256, unhex (upperhex (UInt8.ofNat value >>> 4)) = some (UInt8.ofNat value >>> 4) ∧
      unhex (upperhex (UInt8.ofNat value &&& 15)) = some (UInt8.ofNat value &&& 15) ∧
      (UInt8.ofNat value >>> 4) <<< 4 ||| (UInt8.ofNat value &&& 15) = UInt8.ofNat value := by
    decide +kernel
  simpa using each ⟨byte.toNat, byte.toNat_lt⟩

theorem unescape_escape (text : Str) : unescape (escape text) = some text := by
  induction text with
  | nil => rfl
  | cons byte rest ih =>
    rw [escape]
    split
    · obtain ⟨high, low, whole⟩ := unhex_upperhex byte
      simp [unescape, high, low, ih, whole]
    · rename_i plain
      have unlike : byte ≠ 37 := by
        rintro rfl
        exact plain (by decide)
      rw [unescape_cons unlike, ih]
      rfl

theorem unescape_slash (rest : Str) : unescape (47 :: rest) = (unescape rest).map (47 :: ·) :=
  unescape_cons (by decide) rest

theorem escape_slash (rest : Str) : escape (47 :: rest) = 47 :: escape rest := by
  rw [escape, if_neg (by decide)]

end Escapes

section Parse

variable {parseAuthority : Str → Option Authority}

/-- The path of a URL with a host, as written and decoded. -/
structure Rooted (u : URL) : Prop where
  slash : u.rawPath = [] ∨ ∃ rest, u.rawPath = 47 :: rest
  decoded : unescape u.rawPath = some u.path

theorem from_slash (text : Str) : text.dropWhile (· ≠ 47) = [] ∨ ∃ rest, text.dropWhile (· ≠ 47) = 47 :: rest := by
  induction text with
  | nil => exact .inl rfl
  | cons byte rest ih =>
    by_cases slash : byte = 47
    · exact .inr ⟨rest, by simp [slash]⟩
    · simpa [List.dropWhile_cons, slash] using ih

theorem rooted_parseRest (parsed : parseRest parseAuthority scheme rest = some u) (host : u.authority.host ≠ []) :
    Rooted u := by
  unfold parseRest at parsed
  split at parsed
  · rename_i after
    split at parsed
    · obtain ⟨path, decoded, rfl⟩ := Option.map_eq_some_iff.mp parsed
      exact absurd rfl host
    · obtain ⟨authority, _, rest⟩ := Option.bind_eq_some_iff.mp parsed
      obtain ⟨path, decoded, same⟩ := Option.bind_eq_some_iff.mp rest
      cases same
      exact ⟨from_slash after, decoded⟩
  · obtain ⟨path, decoded, rfl⟩ := Option.map_eq_some_iff.mp parsed
    exact absurd rfl host
  · split at parsed
    · cases parsed
      exact absurd rfl host
    · split at parsed
      · cases parsed
      · obtain ⟨path, decoded, rfl⟩ := Option.map_eq_some_iff.mp parsed
        exact absurd rfl host

theorem rooted_of_host (parsed : parse parseAuthority text = some u) (host : u.authority.host ≠ []) : Rooted u := by
  simp only [parse, Option.bind_eq_bind] at parsed
  obtain ⟨fragment, _, rest⟩ := Option.bind_eq_some_iff.mp parsed
  split at rest
  · cases rest
  split at rest
  · cases rest
    exact absurd rfl host
  · obtain ⟨⟨scheme, after⟩, _, onward⟩ := Option.bind_eq_some_iff.mp rest
    exact rooted_parseRest onward host

end Parse

end Gofi.Go.Url
