import Gofi.Go.Base64
import Gofi.Iam.Port
import Mathlib.Data.Nat.Size

/-! `provider/jwks`: the published keys of an issuer and the cache they are kept in. -/

namespace Gofi.Iam

open Gofi.Concurrent Gofi.Go

/-- What came of one HTTP request: it could not be built or sent, the server
refused it, the body was no document, or it was one. -/
inductive Response (α : Type) where
  | unbuilt (err : Err)
  | unsent (err : Err)
  | refused (status : Nat)
  | undecodable (err : Err)
  | document (doc : α)

namespace Jwks

inductive Curve where
  | p256
  | p384
  | p521
  deriving DecidableEq

def Curve.size : Curve → Nat
  | .p256 => 32
  | .p384 => 48
  | .p521 => 66

/-- A public key that can verify signatures; symmetric keys are none. -/
inductive Key where
  | rsa (modulus exponent : Nat)
  | ecdsa (curve : Curve) (point : Str)
  deriving DecidableEq

structure URL where
  scheme : Str
  host : Str
  hostname : Str

structure Net where
  parseURL : Str → Except Err URL
  isLoopback : Str → Bool
  onCurve : Curve → Str → Bool
  quote : Str → Str

structure JwkKey where
  kty : Str
  kid : Str
  n : Str
  e : Str
  crv : Str
  x : Str
  y : Str

def minRSABits : Nat := 2048

def ofBytes (bytes : Str) : Nat := bytes.foldl (fun value byte => value * 256 + byte.toNat) 0

def base64Error : Err := .plain (ascii "illegal base64 data")

namespace JwkKey

variable (net : Net) (k : JwkKey)

def rsaPublicKey : Except Err Key :=
  match Base64.decode k.n, Base64.decode k.e with
  | some nBytes, some eBytes =>
    let bits := (ofBytes nBytes).size
    if bits < minRSABits then
      .error (.plain (ascii "RSA key too small: " ++ formatInt bits ++ ascii " bits"))
    else if eBytes = [] ∨ 4 < eBytes.length then .error (.plain (ascii "invalid RSA exponent"))
    else if ofBytes eBytes < 3 ∨ ofBytes eBytes % 2 = 0 then .error (.plain (ascii "invalid RSA exponent"))
    else .ok (.rsa (ofBytes nBytes) (ofBytes eBytes))
  | _, _ => .error base64Error

def curve : Option Curve :=
  if k.crv = ascii "P-256" then some .p256
  else if k.crv = ascii "P-384" then some .p384
  else if k.crv = ascii "P-521" then some .p521
  else none

def coordinate (size : Nat) (bytes : Str) : Str := List.replicate (size - bytes.length) 0 ++ bytes

def ecPublicKey : Except Err Key :=
  match Base64.decode k.x, Base64.decode k.y with
  | some xBytes, some yBytes =>
    match k.curve with
    | none => .error (.plain (ascii "unsupported EC curve: " ++ k.crv))
    | some curve =>
      if curve.size < xBytes.length ∨ curve.size < yBytes.length then
        .error (.plain (ascii "invalid EC coordinates"))
      else
        let point := 4 :: (coordinate curve.size xBytes ++ coordinate curve.size yBytes)
        if net.onCurve curve point then .ok (.ecdsa curve point)
        else .error (.plain (ascii "invalid public key"))
  | _, _ => .error base64Error

def publicKey : Except Err Key :=
  if k.kty = ascii "RSA" then k.rsaPublicKey
  else if k.kty = ascii "EC" then k.ecPublicKey net
  else .error (.plain (ascii "unsupported key type: " ++ k.kty))

end JwkKey

variable (net : Net)

def insecureEndpoint (raw : Str) : Err :=
  .plain (ascii "iam: endpoint must use https: " ++ net.quote raw)

def requireHTTPS (raw : Str) : Except Err Unit :=
  match net.parseURL raw with
  | .error err => .error (.wrap (ascii "iam/jwks: invalid endpoint " ++ net.quote raw ++ ascii ": ") err)
  | .ok url =>
    if url.scheme = ascii "https" ∧ url.host ≠ [] then .ok ()
    else if url.scheme = ascii "http" ∧ net.isLoopback url.hostname then .ok ()
    else .error (insecureEndpoint net raw)

structure CachedKey where
  kid : Str
  key : Key

structure Cache where
  keys : List CachedKey
  fetchedAt : Time

def Cache.empty : Cache := ⟨[], 0⟩

def cacheTTL (ttl : Duration) : Duration := if ttl ≤ 0 then Time.hour else ttl

/-- Bounds refetches for unknown kids. -/
def minRefresh : Duration := 30 * Time.second

def usable (set : List JwkKey) : List CachedKey :=
  set.filterMap fun k => (k.publicKey net).toOption.map (⟨k.kid, ·⟩)

def fetch (jwksURL : Str) (response : Response (List JwkKey)) : Except Err (List CachedKey) :=
  match requireHTTPS net jwksURL with
  | .error err => .error err
  | .ok () =>
    match response with
    | .unbuilt err => .error err
    | .unsent err => .error (.wrap (ascii "iam/jwks: fetch failed: ") err)
    | .refused status => .error (.plain (ascii "iam/jwks: returned status " ++ formatInt status))
    | .undecodable err => .error (.wrap (ascii "iam/jwks: decode failed: ") err)
    | .document set =>
      if usable net set = [] then .error (.plain (ascii "iam/jwks: no usable keys")) else .ok (usable net set)

def Cache.findKey (c : Cache) (kid : Str) : Option Key :=
  (c.keys.find? fun k => kid = [] ∨ k.kid = kid).map CachedKey.key

def keyNotFound (kid : Str) : Err := .plain (ascii "iam/jwks: key not found: " ++ net.quote kid)

def getKey {S : Sig} (read : Prog S Cache) (now : Prog S Time) (refetch : Prog S (Except Err Unit))
    (ttl : Duration) (kid : Str) : Prog S (Except Err Key) := do
  let cache ← read
  let time ← now
  let age := Time.sub time cache.fetchedAt
  match if age < ttl then cache.findKey kid else none with
  | some key => pure (.ok key)
  | none =>
    if age < ttl ∧ age < minRefresh then pure (.error (keyNotFound net kid))
    else
      -- On failure the previous keys stay in use.
      let fetched ← refetch
      let cache ← read
      match cache.findKey kid, fetched with
      | some key, _ => pure (.ok key)
      | none, .error err => pure (.error err)
      | none, .ok () => pure (.error (keyNotFound net kid))

theorem published_of_fetch (fetched : fetch net jwksURL response = .ok keys)
    (member : cached ∈ keys) : ∃ set, response = .document set ∧ ∃ k ∈ set, k.publicKey net = .ok cached.key := by
  unfold fetch at fetched
  split at fetched
  · cases fetched
  · split at fetched
    · cases fetched
    · cases fetched
    · cases fetched
    · cases fetched
    · rename_i set
      split at fetched <;> cases fetched
      obtain ⟨k, listed, made⟩ := List.mem_filterMap.mp member
      obtain ⟨key, parsed, rfl⟩ := Option.map_eq_some_iff.mp made
      refine ⟨set, rfl, k, listed, ?_⟩
      cases outcome : k.publicKey net with
      | error err => simp [outcome, Except.toOption] at parsed
      | ok found => simpa [outcome, Except.toOption] using parsed

theorem Cache.mem_of_findKey {c : Cache} (found : c.findKey kid = some key) : ∃ cached ∈ c.keys, cached.key = key := by
  obtain ⟨cached, first, same⟩ := Option.map_eq_some_iff.mp found
  exact ⟨cached, List.mem_of_find?_eq_some first, same⟩

end Jwks

end Gofi.Iam
