import Gofi.Iam.Jwt
import Gofi.Iam.Provider.Jwks
import Gofi.Iam.World
import Mathlib.Data.List.DropRight

/-! `provider/oidc`: the callback of an OpenID Connect login, from the state it
carries to the user its id_token names. -/

namespace Gofi.Iam.Oidc

open Gofi.Concurrent Gofi.Go

structure IDPUser where
  externalID : Str
  provider : Str
  email : Str
  emailVerified : Bool
  name : Str
  pictureURL : Str
  rawClaims : MapClaims

structure ExternalIdentity where
  provider : Str
  externalID : Str
  email : Str
  emailVerified : Bool
  linkedAt : Time

structure CallbackInput where
  code : Str
  state : Str
  expectedState : Str
  codeVerifier : Str
  expectedNonce : Str
  redirectURI : Str

structure CallbackResult where
  userID : Str := []
  ticket : Str := []
  idpUser : IDPUser
  tenants : List TenantAccess := []
  isNewUser : Bool

structure DiscoveryDoc where
  issuer : Str
  tokenEndpoint : Str
  jwksURI : Str

structure TokenResponse where
  idToken : Str

/-- What a callback does outside its own memory, besides the ports: locked reads
of the two caches, their shared refetches, the token request, and the user lookup. -/
inductive WebOp where
  | readDiscovery
  | refetchDiscovery
  | readKeys
  | refetchKeys (jwksURL : Str)
  | post (endpoint : Str) (form : List (Str × Str))
  | findOrCreateByExternalIdentity (identity : ExternalIdentity)

@[reducible] def web : Sig where
  Op := WebOp
  Ans
    | .readDiscovery => Option DiscoveryDoc × Time
    | .refetchDiscovery => Except Err Unit
    | .readKeys => Jwks.Cache
    | .refetchKeys _ => Except Err Unit
    | .post _ _ => Response TokenResponse
    | .findOrCreateByExternalIdentity _ => Except Err (Option User)

structure Config where
  issuerURL : Str
  clientID : Str
  clientSecret : Str
  redirectURI : Str
  validateClaims : Option (MapClaims → Except Err Unit)
  validateIssuer : Option (MapClaims → Except Err Unit)
  jwksCacheTTL : Duration
  clockSkew : Duration

def defaultClockSkew : Duration := Time.minute

def maxClockSkew : Duration := 5 * Time.minute

structure Provider where
  name : Str
  cfg : Config
  skewed : 0 < cfg.clockSkew

def Provider.new (name : Str) (cfg : Config) : Provider where
  name := name
  cfg := { cfg with
    clockSkew := min (if cfg.clockSkew ≤ 0 then defaultClockSkew else cfg.clockSkew) maxClockSkew }
  skewed := by
    refine lt_min ?_ (by decide)
    split
    · decide
    · rename_i positive
      exact not_le.mp positive

def nonceForState (lib : Library) (state : Str) : Str :=
  Base64.encode (lib.sha256 (ascii "gofi/oidc-nonce:" ++ state))

def trimSlashes (text : Str) : Str := text.rdropWhile (· = 47)

def discoveryTTL : Duration := 24 * Time.hour

/-- The `Alg` of the method for a header `alg`; anything else is checked as RS256 and fails. -/
def signingMethodFor (alg : Str) : Str := if alg = ascii "ES256" then ascii "ES256" else ascii "RS256"

def mapClaims (mc : MapClaims) (provider : Str) : IDPUser where
  externalID := mc.getString (ascii "sub")
  provider := provider
  email := mc.getString (ascii "email")
  emailVerified := mc.getBool (ascii "email_verified")
  name := mc.getString (ascii "name")
  pictureURL := mc.getString (ascii "picture")
  rawClaims := mc

def CallbackInput.boundNonce (lib : Library) (input : CallbackInput) : Str :=
  if input.expectedNonce = [] then nonceForState lib input.expectedState else input.expectedNonce

namespace Provider

variable (net : Jwks.Net) (jwt : Jwt.Parser Jwks.Key) (lib : Library) (p : Provider)

def redirectURI (given : Str) : Except Err Str :=
  if p.cfg.redirectURI = [] ∨ given = p.cfg.redirectURI then .ok given
  else if given = [] then .ok p.cfg.redirectURI
  else .error (.plain (ascii "iam/oidc: redirect_uri does not match the configured RedirectURI"))

def discoveryURL : Str := trimSlashes p.cfg.issuerURL ++ ascii "/.well-known/openid-configuration"

def fetchDiscovery : Response DiscoveryDoc → Except Err DiscoveryDoc
  | .unbuilt err => .error err
  | .unsent err => .error (.wrap (ascii "iam/oidc: discovery request failed: ") err)
  | .refused status => .error (.plain (ascii "iam/oidc: discovery returned status " ++ formatInt status))
  | .undecodable err => .error (.wrap (ascii "iam/oidc: failed to decode discovery: ") err)
  | .document doc =>
    -- Multi-tenant issuers are checked per token by ValidateIssuer.
    if p.cfg.validateIssuer.isNone ∧ trimSlashes doc.issuer ≠ trimSlashes p.cfg.issuerURL then
      .error (.plain (ascii "iam/oidc: discovery issuer " ++ net.quote doc.issuer ++
        ascii " does not match " ++ net.quote p.cfg.issuerURL))
    else .ok doc

def getDiscovery : Script web (Except Err DiscoveryDoc) := do
  let (doc, fetchedAt) ← Script.atom web .readDiscovery
  let now ← Script.now web
  match if Time.sub now fetchedAt < discoveryTTL then doc else none with
  | some doc => pure (.ok doc)
  | none =>
    let fetched ← Script.atom web .refetchDiscovery
    let (doc, _) ← Script.atom web .readDiscovery
    match doc, fetched with
    | some doc, _ => pure (.ok doc)
    | none, .error err => pure (.error err)
    -- Never taken: a fetch that succeeded stored its document, and none is removed.
    | none, .ok () => pure (.error (.plain (ascii "nil discovery document")))

def tokenForm (input : CallbackInput) (redirectURI : Str) : List (Str × Str) :=
  [(ascii "grant_type", ascii "authorization_code"), (ascii "code", input.code),
    (ascii "redirect_uri", redirectURI), (ascii "client_id", p.cfg.clientID),
    (ascii "client_secret", p.cfg.clientSecret), (ascii "code_verifier", input.codeVerifier)]

def exchangeCode (tokenEndpoint : Str) (input : CallbackInput) (redirectURI : Str) :
    Script web (Except Err TokenResponse) :=
  match Jwks.requireHTTPS net tokenEndpoint with
  | .error err => pure (.error err)
  | .ok () => do
    match ← Script.atom web (.post tokenEndpoint (p.tokenForm input redirectURI)) with
    | .unbuilt err => pure (.error err)
    | .unsent err => pure (.error err)
    | .refused status => pure (.error (.plain (ascii "iam/oidc: token endpoint returned " ++ formatInt status)))
    | .undecodable err => pure (.error err)
    | .document tokens => pure (.ok tokens)

/-- The options of every provider; the issuer comes on top unless it is checked per token. -/
def commonOptions : List Jwt.ParserOption :=
  [.withAudience p.cfg.clientID, .withExpirationRequired, .withIssuedAt, .withLeeway p.cfg.clockSkew]

def idTokenParserOptions : List Jwt.ParserOption :=
  p.commonOptions ++ if p.cfg.validateIssuer.isNone then [.withIssuer p.cfg.issuerURL] else []

def custom (check : Option (MapClaims → Except Err Unit)) (mc : MapClaims) : Except Err Unit :=
  match check with
  | none => .ok ()
  | some validate => validate mc

def checkIDTokenClaims (mc : MapClaims) (expectedNonce : Str) : Except Err IDPUser :=
  match custom p.cfg.validateIssuer mc with
  | .error err => .error err
  | .ok () =>
    if expectedNonce = [] ∨ mc.getString (ascii "nonce") ≠ expectedNonce then .error Sentinel.invalidIDPNonce
    else
      match custom p.cfg.validateClaims mc with
      | .error err => .error err
      | .ok () => .ok (mapClaims mc p.name)

def keyFunc (alg : Str) (key : Jwks.Key) (method : Str) : Except Err Jwks.Key :=
  if method ≠ signingMethodFor alg then .error (.plain (ascii "unexpected alg: " ++ method)) else .ok key

def validateIDToken (disc : DiscoveryDoc) (idToken expectedNonce : Str) : Script web (Except Err IDPUser) :=
  match jwt.parseUnverified idToken with
  | .error err => pure (.error (.wrap (ascii "failed to parse id_token header: ") err))
  | .ok unverified => do
    let kid := unverified.header.getString (ascii "kid")
    let alg := unverified.header.getString (ascii "alg")
    match ← Jwks.getKey net (Script.atom web .readKeys) (Script.now web)
        (Script.atom web (.refetchKeys disc.jwksURI)) (Jwks.cacheTTL p.cfg.jwksCacheTTL) kid with
    | .error err => pure (.error (.wrap (ascii "failed to get JWKS key: ") err))
    | .ok key =>
      let now ← Script.now web
      match jwt.parseWithClaims now p.idTokenParserOptions (keyFunc alg key) idToken with
      | .error err => pure (.error (.wrap (ascii "id_token validation failed: ") err))
      | .ok claims => pure (p.checkIDTokenClaims claims expectedNonce)

def handleCallback (input : CallbackInput) : Script web (Except Err CallbackResult) :=
  -- Empty values compare equal and would derive a public nonce: login CSRF.
  if input.state = [] ∨ input.expectedState = [] ∨ input.codeVerifier = [] ∨ input.state ≠ input.expectedState then
    pure (.error Sentinel.invalidIDPState)
  else
    match p.redirectURI input.redirectURI with
    | .error err => pure (.error err)
    | .ok redirectURI => do
      match ← getDiscovery with
      | .error err => pure (.error (.wrap (ascii "iam/oidc: discovery failed: ") err))
      | .ok disc =>
        match ← p.exchangeCode net disc.tokenEndpoint input redirectURI with
        | .error err => pure (.error (.wrap (ascii "iam/oidc: token exchange failed: ") err))
        | .ok tokens =>
          match ← p.validateIDToken net jwt disc tokens.idToken (input.boundNonce lib) with
          | .error err => pure (.error (.wrap (ascii "iam/oidc: id_token validation failed: ") err))
          | .ok idpUser => pure (.ok { idpUser := idpUser, isNewUser := false })

end Provider

end Gofi.Iam.Oidc
