import Gofi.Go.Base64
import Gofi.Iam.Port

/-! Tenant tickets: the signed proof of an authentication that `SelectTenant` asks for. -/

namespace Gofi.Iam

open Gofi.Concurrent Gofi.Go

def tenantTicketTTL : Duration := 5 * Time.minute

structure TicketClaims where
  jti : Str
  exp : Time

def ticketMAC (lib : Library) (key payload : Str) : Str :=
  Base64.encode (lib.hmacSHA256 key (ascii "gofi/iam tenant-ticket/v3:" ++ payload))

def ticketText (exp : Int) (jti provider userID : Str) : Str :=
  formatInt exp ++ ascii "|" ++ jti ++ ascii "|" ++ provider ++ ascii "|" ++ userID

/-- Binds a successful authentication to the user and the login flow; `jti` is
the text drawn from `rand.Text`. -/
def signTenantTicket (lib : Library) (key provider userID : Str) (now : Time) (jti : RandText) : Str :=
  let exp := (now + tenantTicketTTL).unix
  let payload := Base64.encode (ticketText exp jti.text provider userID)
  payload ++ ascii "." ++ ticketMAC lib key payload

def verifyTenantTicket (lib : Library) (key ticket provider userID : Str) (now : Time) : Except Err TicketClaims :=
  match cut 46 ticket with
  | none => .error Sentinel.invalidTenantTicket
  | some (payload, mac) =>
    if mac ≠ ticketMAC lib key payload then .error Sentinel.invalidTenantTicket
    else
      match Base64.decode payload with
      | none => .error Sentinel.invalidTenantTicket
      | some raw =>
        match splitN 124 4 raw with
        | [expText, jti, flow, user] =>
          if jti = [] then .error Sentinel.invalidTenantTicket
          else
            match parseInt expText with
            | none => .error Sentinel.invalidTenantTicket
            | some exp =>
              if flow ≠ provider ∨ user ≠ userID ∨ now.unix > exp then
                .error Sentinel.invalidTenantTicket
              else .ok ⟨jti, Time.ofUnix exp⟩
        | _ => .error Sentinel.invalidTenantTicket

namespace AuthConfig

variable (c : AuthConfig) (lib : Library)

def issueTenantTicket (provider userID : Str) : Port Str :=
  if c.ticketKey = [] then pure []
  else do
    let now ← Port.now
    let jti ← Port.randText
    pure (signTenantTicket lib c.ticketKey provider userID now jti)

def checkTenantTicket (ticket provider userID : Str) : Port (Except Err TicketClaims) :=
  if c.skipTicket then pure (.ok ⟨[], 0⟩)
  else if c.ticketKey = [] ∨ ticket = [] then pure (.error Sentinel.invalidTenantTicket)
  else do
    let now ← Port.now
    pure (verifyTenantTicket lib c.ticketKey ticket provider userID now)

/-- Makes the ticket single-use when a ticket store is configured. The entry is
kept a little past the expiry. -/
def consumeTicket (t : TicketClaims) : Port (Except Err Unit) :=
  if !c.tickets ∨ t.jti = [] then pure (.ok ())
  else do
    let now ← Port.now
    match ← Port.consume t.jti (t.exp - now + Time.minute) with
    | .error err => pure (.error (.wrap (ascii "iam: consume tenant ticket: ") err))
    | .ok first => pure (if first then .ok () else .error Sentinel.invalidTenantTicket)

end AuthConfig

/-! What a signed ticket is taken apart into. -/

private theorem bar_not_mem_formatInt (value : Int) : (124 : UInt8) ∉ formatInt value := by
  intro member
  rcases formatInt_chars value 124 member with minus | ⟨_, upper⟩
  · exact absurd minus (by decide)
  · exact absurd upper (by decide)

theorem RandText.bar_not_mem (jti : RandText) : (124 : UInt8) ∉ jti.text := by
  intro member
  rcases jti.letters 124 member with ⟨_, upper⟩ | ⟨_, upper⟩
  all_goals exact absurd upper (by decide)

theorem RandText.ne_nil (jti : RandText) : jti.text ≠ [] := by
  intro empty
  have size := jti.size
  rw [empty] at size
  cases size

private theorem splitN_ticketText (exp : Int) (jti : RandText) (provider userID : Str) :
    splitN 124 4 (ticketText exp jti.text provider userID) =
      formatInt exp :: jti.text :: splitN 124 2 (provider ++ 124 :: userID) := by
  have shape : ticketText exp jti.text provider userID =
      formatInt exp ++ 124 :: (jti.text ++ 124 :: (provider ++ 124 :: userID)) := by
    have bar : ascii "|" = [124] := by decide
    simp [ticketText, bar]
  rw [shape, splitN_cons (bar_not_mem_formatInt exp) 2, splitN_cons jti.bar_not_mem 1]

private theorem parseInt_formatInt_unix (t : Time) : parseInt (formatInt t.unix) = some t.unix :=
  parseInt_formatInt (by unfold Time.unix; lia) (by unfold Time.unix; lia)

theorem verify_signed (lib : Library) (key provider userID : Str) (now : Time) (jti : RandText)
    (provider' userID' : Str) (t : Time) (flow user : Str)
    (split : splitN 124 2 (provider ++ 124 :: userID) = [flow, user]) :
    verifyTenantTicket lib key (signTenantTicket lib key provider userID now jti) provider' userID' t =
      if flow ≠ provider' ∨ user ≠ userID' ∨ t.unix > (now + tenantTicketTTL).unix then
        .error Sentinel.invalidTenantTicket
      else .ok ⟨jti.text, Time.ofUnix (now + tenantTicketTTL).unix⟩ := by
  have dot : ascii "." = [46] := by decide
  unfold verifyTenantTicket signTenantTicket
  simp only [dot, List.append_assoc, List.singleton_append,
    cut_append (Base64.dot_not_mem_encode _), ne_eq, not_true_eq_false, ↓reduceIte,
    Base64.decode_encode, splitN_ticketText, split, jti.ne_nil, parseInt_formatInt_unix]

/-- A ticket opens exactly the login it was signed for, until the second it
expires in, and returns what was signed, if and only if the provider's name
holds no bar: only the user is parsed as the rest of the text. -/
theorem ticket_binds_one_login_iff (lib : Library) (key provider userID : Str) (now : Time) (jti : RandText) :
    (∀ provider' userID' t,
      verifyTenantTicket lib key (signTenantTicket lib key provider userID now jti) provider' userID' t =
        if provider = provider' ∧ userID = userID' ∧ t.unix ≤ (now + tenantTicketTTL).unix then
          .ok ⟨jti.text, Time.ofUnix (now + tenantTicketTTL).unix⟩
        else .error Sentinel.invalidTenantTicket) ↔
    124 ∉ provider := by
  constructor
  · intro binds member
    -- The own login of such a ticket is refused: the provider is read up to its first bar.
    obtain ⟨front, back, found⟩ := cut_of_mem member
    obtain ⟨rfl, absent⟩ := cut_eq_some found
    have own := binds (front ++ 124 :: back) userID (now + tenantTicketTTL)
    have parts : splitN 124 2 ((front ++ 124 :: back) ++ 124 :: userID) =
        [front, back ++ 124 :: userID] := by
      rw [List.append_assoc, List.cons_append, splitN_cons absent 0]
      rfl
    rw [verify_signed _ _ _ _ _ _ _ _ _ _ _ parts, if_pos (.inl (by simp)), if_pos ⟨rfl, rfl, le_refl _⟩] at own
    cases own
  · intro absent provider' userID' t
    have parts : splitN 124 2 (provider ++ 124 :: userID) = [provider, userID] := by
      rw [splitN_cons absent 0]
      rfl
    rw [verify_signed _ _ _ _ _ _ _ _ _ _ _ parts]
    by_cases same : provider = provider' ∧ userID = userID' ∧ t.unix ≤ (now + tenantTicketTTL).unix
    · obtain ⟨flow, user, time⟩ := same
      rw [if_neg (by simp [flow, user, time]), if_pos ⟨flow, user, time⟩]
    · rw [if_neg same, if_pos]
      by_contra accepted
      simp only [ne_eq, gt_iff_lt, not_or, not_not, not_lt] at accepted
      exact same accepted

/-- The ticket of the login flow `a|b` for the user `c` opens a session of the
user `b|c` in the flow `a`, and none in its own. -/
theorem ticket_of_barred_provider_opens_other_login :
    (∀ (lib : Library) (key : Str) (jti : RandText),
      verifyTenantTicket lib key (signTenantTicket lib key (ascii "a|b") (ascii "c") 0 jti)
        (ascii "a") (ascii "b|c") 0 = .ok ⟨jti.text, Time.ofUnix (Time.unix (0 + tenantTicketTTL))⟩) ∧
    ∀ (lib : Library) (key : Str) (jti : RandText),
      verifyTenantTicket lib key (signTenantTicket lib key (ascii "a|b") (ascii "c") 0 jti)
        (ascii "a|b") (ascii "c") 0 = .error Sentinel.invalidTenantTicket := by
  have parts : splitN 124 2 (ascii "a|b" ++ 124 :: ascii "c") = [ascii "a", ascii "b|c"] := by decide
  constructor <;> intro lib key jti
  · rw [verify_signed _ _ _ _ _ _ _ _ _ _ _ parts, if_neg (by decide)]
  · rw [verify_signed _ _ _ _ _ _ _ _ _ _ _ parts, if_pos (.inl (by decide))]

end Gofi.Iam
