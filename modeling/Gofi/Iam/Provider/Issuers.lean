import Gofi.Iam.Provider.Oidc

/-! `provider/oidc`: the issuer that discovery accepts against the issuer an id_token must have. -/

namespace Gofi.Iam

open Gofi.Go Gofi.Concurrent

namespace Oidc

section

variable (jwt : Jwt.Parser Jwks.Key) (p : Provider) (now : Time) (alg : Str) (key : Jwks.Key)

/-- `validateIDToken` once it has the key. -/
def Provider.judge (idToken expectedNonce : Str) : Except Err IDPUser :=
  match jwt.parseWithClaims now p.idTokenParserOptions (Provider.keyFunc alg key) idToken with
  | .error err => .error (.wrap (ascii "id_token validation failed: ") err)
  | .ok claims => p.checkIDTokenClaims claims expectedNonce

theorem Provider.validateIDToken_eq (net : Jwks.Net) (disc : DiscoveryDoc) (nonce : Str)
    (read : jwt.parseUnverified idToken = .ok unverified) : p.validateIDToken net jwt disc idToken nonce = do
      match ← Jwks.getKey net (Script.atom web .readKeys) (Script.now web)
          (Script.atom web (.refetchKeys disc.jwksURI)) (Jwks.cacheTTL p.cfg.jwksCacheTTL)
          (unverified.header.getString (ascii "kid")) with
      | .error err => pure (.error (.wrap (ascii "failed to get JWKS key: ") err))
      | .ok key => do
        let now ← Script.now web
        return p.judge jwt now (unverified.header.getString (ascii "alg")) key idToken nonce := by
  rw [Provider.validateIDToken, read]
  refine congrArg (Bind.bind _) (funext fun found => ?_)
  cases found with
  | error err => rfl
  | ok key =>
    refine congrArg (Bind.bind _) (funext fun now => ?_)
    cases parsed : jwt.parseWithClaims now p.idTokenParserOptions
      (Provider.keyFunc (unverified.header.getString (ascii "alg")) key) idToken <;> simp [Provider.judge, parsed]

end

namespace Issuers

def provider (issuerURL : Str) : Provider := .new [] ⟨issuerURL, ascii "client", [], [], none, none, 0, 0⟩

def claims (iss : Str) : MapClaims :=
  [(ascii "iss", .string iss), (ascii "aud", .string (ascii "client")), (ascii "exp", .number 1),
    (ascii "nonce", .string (ascii "n")), (ascii "sub", .string (ascii "alice"))]

def issued (iss : Str) : Jwt.Parser Jwks.Key :=
  .strict (.rsa 0 0) [(ascii "alg", .string (ascii "ES256"))] fun _ => claims iss

def net : Jwks.Net := ⟨fun _ => .error (.plain []), fun _ => false, fun _ _ => false, id⟩

theorem documented (iss : Str) : (issued iss).Documented fun used _ => used = .rsa 0 0 :=
  Jwt.Parser.strict_documented _ _ _

end Issuers

end Oidc

end Gofi.Iam
