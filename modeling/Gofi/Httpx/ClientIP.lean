import Gofi.Go.Split
import Gofi.Go.Text
import Mathlib.Data.BitVec

/-! `server_client_ip.go` and the bucket of `server_rate_limit.go`: which address
a request is counted for when it came through proxies. -/

namespace Gofi.Httpx

open Gofi.Go

inductive Addr where
  | v4 (bits : BitVec 32)
  | v6 (bits : BitVec 128) (zone : Str)
  deriving DecidableEq

namespace Addr

def unmap : Addr → Addr
  | v4 bits => v4 bits
  | v6 bits zone => if bits >>> 32 = 0xffff then v4 (bits.setWidth 32) else v6 bits zone

def withoutZone : Addr → Addr
  | v4 bits => v4 bits
  | v6 bits _ => v6 bits []

def zone : Addr → Str
  | v4 _ => []
  | v6 _ zone => zone

def plain (ip : Addr) : Addr := ip.unmap.withoutZone

theorem plain_of_zone_eq_nil {ip : Addr} (zoneless : ip.unmap.zone = []) : ip.unmap = ip.plain := by
  unfold plain
  cases same : ip.unmap with
  | v4 bits => rfl
  | v6 bits _ =>
    rw [same, zone] at zoneless
    rw [zoneless]
    rfl

theorem zone_plain (ip : Addr) : ip.plain.zone = [] := by
  unfold plain
  cases ip.unmap <;> rfl

end Addr

inductive Network where
  | v4 (bits : BitVec 32) (length : Fin 33)
  | v6 (bits : BitVec 128) (length : Fin 129)

def Network.contains : Network → Addr → Bool
  | v4 bits length, .v4 ip => (ip ^^^ bits) >>> (32 - length.val) = 0
  | v6 bits length, .v6 ip zone => zone = [] ∧ (ip ^^^ bits) >>> (128 - length.val) = 0
  | _, _ => false

def inPrefixes (ip : Addr) (networks : List Network) : Bool := networks.any (·.contains ip)

theorem inPrefixes_zone (networks : List Network) (zoned : ip.zone ≠ []) : inPrefixes ip networks = false := by
  cases ip with
  | v4 bits => simp [Addr.zone] at zoned
  | v6 bits zone =>
    rw [Addr.zone] at zoned
    refine List.any_eq_false.mpr fun network _ => ?_
    cases network <;> simp [Network.contains, zoned]

structure Library where
  parseAddr : Str → Option Addr
  splitHostPort : Str → Option Str
  trimSpace : Str → Str
  addrString : Addr → Str
  prefixString : BitVec 128 → Nat → Str

structure Request where
  remoteAddr : Str
  forwardedFor : List Str
  apiKey : Str

section Resolution

variable (lib : Library)

def peerIP (r : Request) : Option Addr :=
  (lib.parseAddr ((lib.splitHostPort r.remoteAddr).getD r.remoteAddr)).map Addr.unmap

def hops (lines : List Str) : List Str := lines.flatMap (split 44)

def walk (trusted : List Network) (peer : Addr) : List Str → Addr
  | [] => peer
  | hop :: rest =>
    match lib.parseAddr (lib.trimSpace hop) with
    | none => peer
    | some ip => if inPrefixes ip.plain trusted then walk trusted peer rest else ip.plain

def resolveClientIP (r : Request) (trusted : List Network) : Option Addr :=
  match peerIP lib r with
  | none => none
  | some peer =>
    if !inPrefixes peer trusted then some peer else some (walk lib trusted peer (hops r.forwardedFor).reverse)

def clientAddr (r : Request) (trusted : List Network) : Option Addr :=
  (resolveClientIP lib r trusted).or (peerIP lib r)

/-- An IPv4 address, or the network of the first 64 bits. -/
def subject : Addr → Str
  | .v4 bits => lib.addrString (.v4 bits)
  | .v6 bits _ => lib.prefixString (bits >>> 64 <<< 64) 64

def rateLimitSubject (r : Request) (trusted : List Network) : Str :=
  match clientAddr lib r trusted with
  | none => r.remoteAddr
  | some ip => subject lib ip

end Resolution

structure RateLimits (Plan : Type) where
  plans : Str → Option Plan
  default : Plan
  isKnownAPIKey : Option (Str → Bool)
  fingerprint : Str → Str

namespace RateLimits

variable (cfg : RateLimits Plan)

def known (apiKey : Str) : Bool :=
  match cfg.plans apiKey with
  | some _ => true
  | none => (cfg.isKnownAPIKey.map (· apiKey)).getD false

/-- `bucket`: the plan and the key of the counter. -/
def bucket (lib : Library) (r : Request) (trusted : List Network) (keyPrefix : Str) : Plan × Str :=
  if r.apiKey = [] ∨ cfg.known r.apiKey = false then
    (cfg.default, keyPrefix ++ ascii ":" ++ rateLimitSubject lib r trusted)
  else ((cfg.plans r.apiKey).getD cfg.default, keyPrefix ++ ascii ":key:" ++ cfg.fingerprint r.apiKey)

end RateLimits

section Chains

variable (lib : Library) (trusted : List Network)

/-- A text that a proxy writes for an address: without a comma, and read back as
that address, whatever its zone and in either notation of an IPv4 address. -/
structure Writes (text : Str) (ip : Addr) : Prop where
  single : 44 ∉ text
  reads : ∃ read, lib.parseAddr (lib.trimSpace text) = some read ∧ read.plain = ip.plain

/-- One more entry at the end of the header: on a new line or on the last one. -/
inductive Appends (text : Str) : List Str → List Str → Prop where
  | newLine (lines : List Str) : Appends text lines (lines ++ [text])
  | sameLine (lines : List Str) (last : Str) : Appends text (lines ++ [last]) (lines ++ [last ++ 44 :: text])

/-- A request that came from the client through proxies, each of which is in the
trusted networks and has appended the address it got the request from: who sends
it on and with which lines. The client chose its own lines. -/
inductive Forwarded (client : Addr) : Addr → List Str → Prop where
  | sent (lines : List Str) : Forwarded client client lines
  | relayed (before : Forwarded client sender lines) (proxy : Addr) (inside : inPrefixes proxy.plain trusted = true)
      (writes : Writes lib text sender) (appends : Appends text lines longer) : Forwarded client proxy longer

variable {lib trusted}

theorem hops_appends (single : 44 ∉ text) (appends : Appends text lines longer) :
    hops longer = hops lines ++ [text] := by
  cases appends with
  | newLine lines => simp [hops, split_of_not_mem single]
  | sameLine front last => simp [hops, split_append, split_of_not_mem single]

theorem Forwarded.walk (forwarded : Forwarded lib trusted client sender lines)
    (outside : inPrefixes client.plain trusted = false) (writes : Writes lib text sender) (peer : Addr) :
    walk lib trusted peer (text :: (hops lines).reverse) = client.plain := by
  obtain ⟨read, parsed, same⟩ := writes.reads
  induction forwarded generalizing text read with
  | sent lines => simp [Httpx.walk, parsed, same, outside]
  | relayed before proxy inside earlier appends ih =>
    obtain ⟨last, lastParsed, lastSame⟩ := earlier.reads
    simp only [Httpx.walk, parsed, same, inside, if_true]
    rw [hops_appends earlier.single appends, List.reverse_append]
    exact ih earlier last lastParsed lastSame

private theorem resolveClientIP_forwarded (forwarded : Forwarded lib trusted client sender lines)
    (outside : inPrefixes client.plain trusted = false) (writes : Writes lib text sender)
    (appends : Appends text lines r.forwardedFor) (arrived : peerIP lib r = some peer)
    (inside : inPrefixes peer trusted = true) : resolveClientIP lib r trusted = some client.plain := by
  have path : (hops r.forwardedFor).reverse = text :: (hops lines).reverse := by
    rw [hops_appends writes.single appends, List.reverse_append]
    rfl
  simp only [resolveClientIP, arrived, inside, Bool.not_true, Bool.false_eq_true, if_false, path,
    forwarded.walk outside writes peer]

theorem resolveClientIP_outside (arrived : peerIP lib r = some peer) (outside : inPrefixes peer trusted = false) :
    resolveClientIP lib r trusted = some peer := by
  simp [resolveClientIP, arrived, outside]

end Chains

def remote (lib : Library) (r : Request) : Option Addr :=
  lib.parseAddr ((lib.splitHostPort r.remoteAddr).getD r.remoteAddr)

theorem peerIP_of_remote (named : remote lib r = some ip) : peerIP lib r = some ip.unmap := by
  rw [remote] at named
  rw [peerIP, named, Option.map_some]

def Addr.network : Addr → Addr
  | v4 bits => v4 bits
  | v6 bits _ => v6 (bits >>> 64 <<< 64) []

private theorem subject_of_network {left right : Addr} (same : left.network = right.network) (lib : Library) :
    subject lib left = subject lib right := by
  cases left <;> cases right <;> simp_all [Addr.network, subject]

theorem bucket_of_resolved (cfg : RateLimits Plan) (keyPrefix : Str)
    (anonymous : r.apiKey = [] ∨ cfg.known r.apiKey = false) (resolved : resolveClientIP lib r trusted = some ip) :
    cfg.bucket lib r trusted keyPrefix = (cfg.default, keyPrefix ++ ascii ":" ++ subject lib ip) := by
  simp [RateLimits.bucket, anonymous, rateLimitSubject, clientAddr, resolved]

/-- A client does not choose the address it is known by. Through any chain of
trusted proxies it is its own address exactly when the last proxy is seen without
a zone; the address of an untrusted peer is taken whatever the header says; and
without a known API key the bucket depends on the resolved address alone. -/
theorem client_address_is_its_own_iff (lib : Library) (trusted : List Network) :
    (∀ {client sender peer : Addr} {lines : List Str} {text : Str} {r : Request},
      Forwarded lib trusted client sender lines → inPrefixes client.plain trusted = false → Writes lib text sender →
      Appends text lines r.forwardedFor → remote lib r = some peer → inPrefixes peer.plain trusted = true →
      (resolveClientIP lib r trusted = some client.plain ↔ peer.unmap.zone = [])) ∧
    (∀ {peer : Addr} {r : Request}, remote lib r = some peer → inPrefixes peer.plain trusted = false →
      resolveClientIP lib r trusted = some peer.unmap) ∧
    (∀ {Plan : Type} (cfg : RateLimits Plan) (keyPrefix : Str) {left right : Addr} {one other : Request},
      (one.apiKey = [] ∨ cfg.known one.apiKey = false) → (other.apiKey = [] ∨ cfg.known other.apiKey = false) →
      resolveClientIP lib one trusted = some left → resolveClientIP lib other trusted = some right →
      left.network = right.network →
        cfg.bucket lib one trusted keyPrefix = cfg.bucket lib other trusted keyPrefix) := by
  refine ⟨fun {client sender peer lines text r} forwarded outside writes appends named inside =>
    ⟨fun own => ?_, fun zoneless => ?_⟩, fun {peer r} named outside => ?_,
    fun {Plan} cfg keyPrefix {left right one other} unknown unknown' resolved resolved' same => ?_⟩
  · -- a peer with a zone is resolved to itself, and the client has none
    by_contra zoned
    rw [resolveClientIP_outside (peerIP_of_remote named) (inPrefixes_zone trusted zoned), Option.some.injEq] at own
    exact zoned (own ▸ client.zone_plain)
  · rw [← Addr.plain_of_zone_eq_nil zoneless] at inside
    exact resolveClientIP_forwarded forwarded outside writes appends (peerIP_of_remote named) inside
  · refine resolveClientIP_outside (peerIP_of_remote named) ?_
    by_cases zoneless : peer.unmap.zone = []
    · rw [Addr.plain_of_zone_eq_nil zoneless, outside]
    · exact inPrefixes_zone trusted zoneless
  · rw [bucket_of_resolved cfg keyPrefix unknown resolved, bucket_of_resolved cfg keyPrefix unknown' resolved',
      subject_of_network same lib]

namespace Sample

def linkLocal : Network := .v6 (0xfe80#128 <<< 112) 10

def intranet : Network := .v4 0x0a000000 8

def proxy : Addr := .v6 (0xfe80#128 <<< 112 ||| 1) (ascii "eth0")
def balancer : Addr := .v4 0x0a000001
def client : Addr := .v4 0xcb007109

def lib : Library where
  parseAddr text := if text = ascii "fe80::1%eth0" then some proxy else if text = ascii "203.0.113.9" then some client
    else if text = ascii "10.0.0.1" then some balancer else none
  splitHostPort text := if text = ascii "[fe80::1%eth0]:443" then some (ascii "fe80::1%eth0")
    else if text = ascii "10.0.0.1:443" then some (ascii "10.0.0.1") else none
  trimSpace text := text
  addrString _ := []
  prefixString _ _ := []

def request : Request := ⟨ascii "[fe80::1%eth0]:443", [ascii "203.0.113.9"], []⟩

def balanced : Request := ⟨ascii "10.0.0.1:443", [ascii "10.9.9.9,203.0.113.9", ascii "fe80::1%eth0"], []⟩

def direct : Request := ⟨ascii "203.0.113.9", [ascii "10.9.9.9"], []⟩

theorem client_written : Writes lib (ascii "203.0.113.9") client :=
  ⟨by decide, client, by decide, rfl⟩

theorem proxy_written : Writes lib (ascii "fe80::1%eth0") proxy := ⟨by decide, proxy, by decide, rfl⟩

theorem balanced_forwarded : Forwarded lib [linkLocal, intranet] client proxy [ascii "10.9.9.9,203.0.113.9"] :=
  .relayed (.sent [ascii "10.9.9.9"]) proxy (by decide) client_written (.sameLine [] (ascii "10.9.9.9"))

end Sample

/-- The client has written an address of its own choice, and two proxies have added
what they saw; it is known by the address and the bucket of its direct requests. -/
theorem balanced_client_is_itself :
    resolveClientIP Sample.lib Sample.balanced [Sample.linkLocal, Sample.intranet] = some Sample.client ∧
    resolveClientIP Sample.lib Sample.direct [Sample.linkLocal, Sample.intranet] = some Sample.client ∧
    RateLimits.bucket ⟨fun _ => none, 5, none, id⟩ Sample.lib Sample.balanced [Sample.linkLocal, Sample.intranet] [] =
      RateLimits.bucket ⟨fun _ => none, 5, none, id⟩ Sample.lib Sample.direct [Sample.linkLocal, Sample.intranet]
        [] := by
  obtain ⟨forwarded, direct, buckets⟩ := client_address_is_its_own_iff Sample.lib [Sample.linkLocal, Sample.intranet]
  have peer : remote Sample.lib Sample.balanced = some Sample.balancer := by decide
  have own : remote Sample.lib Sample.direct = some Sample.client := by decide
  have one :=
    (forwarded Sample.balanced_forwarded (by decide) Sample.proxy_written (.newLine _) peer (by decide)).mpr rfl
  have other := direct own (by decide)
  exact ⟨one, other, buckets _ [] (.inl rfl) (.inl rfl) one other rfl⟩

/-- A trusted proxy that is reached over a link-local address is taken for the client. -/
theorem link_local_proxy_is_taken_for_the_client :
    Forwarded Sample.lib [Sample.linkLocal] Sample.client Sample.client [] ∧
    inPrefixes Sample.client.plain [Sample.linkLocal] = false ∧
    Writes Sample.lib (ascii "203.0.113.9") Sample.client ∧
    Appends (ascii "203.0.113.9") [] Sample.request.forwardedFor ∧
    remote Sample.lib Sample.request = some Sample.proxy ∧ inPrefixes Sample.proxy.plain [Sample.linkLocal] = true ∧
    resolveClientIP Sample.lib Sample.request [Sample.linkLocal] = some Sample.proxy ∧
    Sample.proxy ≠ Sample.client.plain :=
  ⟨.sent [], by decide, Sample.client_written, .newLine [], by decide, by decide, by decide, by decide⟩

end Gofi.Httpx
