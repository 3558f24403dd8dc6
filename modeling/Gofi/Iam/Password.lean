import Gofi.Go.Base64
import Gofi.Go.Split

/-! `provider/password`: Argon2id hashes in the PHC format, and what is read back of them. -/

namespace Gofi.Iam.Password

open Gofi.Go

structure Params where
  memory : UInt32
  time : UInt32
  threads : UInt8
  saltLen : UInt32
  keyLen : UInt32

def isDigit (byte : UInt8) : Bool := (digitValue byte).isSome

/-- What is left open. `idKey` panics on some parameters; `skipSpace` is how `Sscanf` comes to a number. -/
structure Library where
  idKey : Str → Str → UInt32 → UInt32 → UInt8 → UInt32 → Option Str
  idKey_length : idKey password salt time memory threads keyLen = some key → key.length = keyLen.toNat
  encode : Str → Str
  decode : Str → Option Str
  decode_encode : decode (encode bytes) = some bytes
  encode_plain : 36 ∉ encode bytes
  skipSpace : Str → Option Str
  skipSpace_digit : isDigit byte → skipSpace (byte :: rest) = some (byte :: rest)
  compareBcrypt : Str → Str → Bool
  bcryptCost : Str → Option Nat

abbrev Salt (p : Params) := { salt : Str // salt.length = p.saltLen.toNat }

section Code

variable (lib : Library)

def costs (p : Params) : Str :=
  ascii "m=" ++ (formatNat p.memory.toNat ++ (ascii ",t=" ++ (formatNat p.time.toNat ++
    (ascii ",p=" ++ formatNat p.threads.toNat))))

def phc (p : Params) (salt key : Str) : Str :=
  [36].intercalate [[], ascii "argon2id", ascii "v=19", costs p, lib.encode salt, lib.encode key]

def Params.derive (p : Params) (salt password : Str) : Option Str :=
  lib.idKey password salt p.time p.memory p.threads p.keyLen

def Params.hash (p : Params) (salt : Salt p) (password : Str) : Option Str :=
  (p.derive lib salt.1 password).map (phc lib p salt.1)

def isBcrypt (hash : Str) : Bool :=
  (ascii "$2a$").isPrefixOf hash || (ascii "$2b$").isPrefixOf hash || (ascii "$2y$").isPrefixOf hash

def literal (text : String) (input : Str) : Option Str :=
  if (ascii text).isPrefixOf input then some (input.drop (ascii text).length) else none

def scanInt (input : Str) : Option Int := do
  match ← lib.skipSpace input with
  | [] => none
  | byte :: rest =>
    parseInt (if byte = 43 ∨ byte = 45 then byte :: rest.takeWhile isDigit else (byte :: rest).takeWhile isDigit)

def scanUint (bits : Nat) (input : Str) : Option (Nat × Str) := do
  let input ← lib.skipSpace input
  let value ← parseNat (input.takeWhile isDigit)
  if value < 2 ^ bits then some (value, input.dropWhile isDigit) else none

def scanCosts (input : Str) : Option Params := do
  let (memory, input) ← scanUint lib 32 (← literal "m=" input)
  let (time, input) ← scanUint lib 32 (← literal ",t=" input)
  let (threads, _) ← scanUint lib 8 (← literal ",p=" input)
  return ⟨.ofNat memory, .ofNat time, .ofNat threads, 0, 0⟩

def Params.Bounded (p : Params) : Prop :=
  p.memory ≠ 0 ∧ p.time ≠ 0 ∧ p.threads ≠ 0 ∧ p.memory.toNat ≤ 2 ^ 20 ∧ p.time.toNat ≤ 64

instance (p : Params) : Decidable p.Bounded := inferInstanceAs (Decidable (_ ∧ _))

/-- Every caller asks only whether there is an error, whichever of the checks it comes from. -/
def decode (hash : Str) : Option (Params × Str × Str) :=
  match split 36 hash with
  | [_, name, version, costs, salt, key] => do
    let number ← scanInt lib (← literal "v=" version)
    let p ← scanCosts lib costs
    let salt ← lib.decode salt
    let key ← lib.decode key
    if name = ascii "argon2id" ∧ number = 19 ∧ p.Bounded ∧ salt.length ≤ 1024 ∧ key.length ≠ 0 ∧ key.length ≤ 1024 then
      some (p, salt, key)
    else none
  | _ => none

/-- Whether there is no error; `none` when `idKey` panics. -/
def verify (hash password : Str) : Option Bool :=
  if isBcrypt hash then some (lib.compareBcrypt hash password)
  else
    match decode lib hash with
    | none => some false
    | some (p, salt, key) => (lib.idKey password salt p.time p.memory p.threads (.ofNat key.length)).map (· = key)

def Params.needsRehash (p : Params) (hash : Str) : Bool :=
  isBcrypt hash ||
    match decode lib hash with
    | none => true
    | some (h, salt, key) => h.memory < p.memory ∨ h.time < p.time ∨ h.threads < p.threads ∨
        UInt32.ofNat salt.length < p.saltLen ∨ UInt32.ofNat key.length < p.keyLen

def supported (hash : Str) : Bool :=
  if isBcrypt hash then (lib.bcryptCost hash).isSome else (decode lib hash).isSome

end Code

variable {lib : Library}

private theorem literal_append (text : String) (rest : Str) : literal text (ascii text ++ rest) = some rest := by
  simp [literal]

theorem formatNat_isDigit (value : Nat) (byte : UInt8) (member : byte ∈ formatNat value) : isDigit byte = true := by
  obtain ⟨small, below, rfl⟩ := formatNat_digits value byte member
  simp [isDigit, digitValue_digit below]

theorem scanUint_format (fits : value < 2 ^ bits) (stops : rest.takeWhile isDigit = []) :
    scanUint lib bits (formatNat value ++ rest) = some (value, rest) := by
  obtain ⟨byte, others, shape⟩ := List.exists_cons_of_ne_nil (formatNat_ne_nil value)
  have digits := formatNat_isDigit value
  have skipped : lib.skipSpace (formatNat value ++ rest) = some (formatNat value ++ rest) := by
    rw [shape, List.cons_append]
    exact lib.skipSpace_digit (digits byte (by simp [shape]))
  have kept : rest.dropWhile isDigit = rest := by
    simpa [stops] using List.takeWhile_append_dropWhile (l := rest) (p := isDigit)
  simp [scanUint, skipped, List.takeWhile_append_of_pos digits, List.dropWhile_append_of_pos digits, stops, kept,
    parseNat_formatNat, fits]

private theorem scanCosts_costs (p : Params) :
    scanCosts lib (costs p) = some { p with saltLen := 0, keyLen := 0 } := by
  have memory (rest : Str) : scanUint lib 32 (formatNat p.memory.toNat ++ (ascii ",t=" ++ rest)) = some (_, _) :=
    scanUint_format p.memory.toNat_lt rfl
  have time (rest : Str) : scanUint lib 32 (formatNat p.time.toNat ++ (ascii ",p=" ++ rest)) = some (_, _) :=
    scanUint_format p.time.toNat_lt rfl
  have threads : scanUint lib 8 (formatNat p.threads.toNat ++ []) = some (_, _) :=
    scanUint_format p.threads.toNat_lt rfl
  rw [List.append_nil] at threads
  simp [scanCosts, costs, literal_append, memory, time, threads]

private theorem costs_plain (p : Params) : 36 ∉ costs p := by
  have plain (value : Nat) : 36 ∉ formatNat value := fun member =>
    absurd (formatNat_isDigit value 36 member) (by decide)
  simp only [costs, List.mem_append, plain, or_false, false_or]
  decide

private theorem scanInt_version : scanInt lib (ascii "19") = some 19 := by
  have skipped : lib.skipSpace (ascii "19") = some (ascii "19") := lib.skipSpace_digit rfl
  rw [scanInt, skipped]
  rfl

private theorem decode_phc (p : Params) (salt key : Str) : decode lib (phc lib p salt key) =
    if p.Bounded ∧ salt.length ≤ 1024 ∧ key.length ≠ 0 ∧ key.length ≤ 1024 then
      some ({ p with saltLen := 0, keyLen := 0 }, salt, key) else none := by
  have parts : split 36 (phc lib p salt key) =
      [[], ascii "argon2id", ascii "v=19", costs p, lib.encode salt, lib.encode key] := by
    rw [phc, split_intercalate (List.cons_ne_nil _ _)]
    simp only [List.flatMap_cons, List.flatMap_nil, split_of_not_mem (costs_plain p),
      split_of_not_mem lib.encode_plain]
    rfl
  have version : literal "v=" (ascii "v=19") = some (ascii "19") := rfl
  rw [decode, parts]
  simp only [version, scanInt_version, scanCosts_costs, lib.decode_encode, Option.bind_eq_bind, Option.bind_some,
    true_and]
  rfl

theorem not_isBcrypt (p : Params) (salt key : Str) : isBcrypt (phc lib p salt key) = false := rfl

/-- The hash is verified by its password and by no other that derives another key. -/
structure Works (lib : Library) (p : Params) (salt : Salt p) (password hash : Str) : Prop where
  accepts : verify lib hash password = some true
  rejects : p.derive lib salt.1 other = some key → p.derive lib salt.1 password ≠ some key →
    verify lib hash other = some false
  supported : supported lib hash = true
  current : p.needsRehash lib hash = false

def Params.Readable (p : Params) : Prop :=
  p.Bounded ∧ p.saltLen.toNat ≤ 1024 ∧ p.keyLen.toNat ≠ 0 ∧ p.keyLen.toNat ≤ 1024

section Made

variable {p : Params} {salt : Salt p} (derived : p.derive lib salt.1 password = some key)
include derived

private theorem decode_beyond (beyond : ¬ p.Readable) : decode lib (phc lib p salt.1 key) = none := by
  rw [decode_phc, salt.2, lib.idKey_length derived]
  exact if_neg beyond

private theorem works_of_readable (readable : p.Readable) : Works lib p salt password (phc lib p salt.1 key) := by
  have length : UInt32.ofNat key.length = p.keyLen := by rw [lib.idKey_length derived, UInt32.ofNat_toNat]
  have read : decode lib (phc lib p salt.1 key) = some ({ p with saltLen := 0, keyLen := 0 }, salt.1, key) := by
    rw [decode_phc, salt.2, lib.idKey_length derived]
    exact if_pos readable
  have checked (other : Str) : verify lib (phc lib p salt.1 key) other =
      (p.derive lib salt.1 other).map (decide <| · = key) := by
    simp [verify, not_isBcrypt, read, length, Params.derive]
  refine ⟨by simp [checked, derived], fun got differs => ?_, ?_, ?_⟩
  · simp only [checked, got, Option.map_some]
    simpa [derived, eq_comm] using differs
  · simp [Password.supported, not_isBcrypt, read]
  · simp [Params.needsRehash, not_isBcrypt, read, length, salt.2]

end Made

/-- Every hash that is made with the parameters verifies its password and no
other, is supported and needs no rehash, exactly when they are within the bounds
that `decode` checks or Argon2 makes no key with them. -/
theorem hashes_verify_iff (lib : Library) (p : Params) (salt : Salt p) (password : Str) :
    (∀ hash, p.hash lib salt password = some hash → Works lib p salt password hash) ↔
      (p.hash lib salt password = none ∨ p.Readable) := by
  unfold Params.hash
  cases derived : p.derive lib salt.1 password with
  | none => simp
  | some key =>
    simp only [Option.map_some, Option.some.injEq, forall_eq', reduceCtorEq, false_or]
    constructor
    · intro works
      by_contra beyond
      simpa [Password.supported, not_isBcrypt, decode_beyond derived beyond] using works.supported
    · exact works_of_readable derived

theorem bounded_hash_works (lib : Library) (p : Params) (salt : Salt p) (password hash : Str) (readable : p.Readable)
    (made : p.hash lib salt password = some hash) : Works lib p salt password hash := by
  obtain ⟨key, derived, rfl⟩ := Option.map_eq_some_iff.mp made
  exact works_of_readable derived readable

namespace Sample

def params (time : UInt32) : Params := ⟨8, time, 1, 8, 4⟩

def salt (time : UInt32) : Salt (params time) := ⟨ascii "saltsalt", rfl⟩

/-- With the keys that Argon2id derives from `secret` and this salt in 1 and in 65 passes. -/
def library : Library where
  idKey _ _ time _ _ keyLen := some (.take keyLen.toNat
    ((if time = 1 then [62, 49, 145, 94] else [175, 166, 5, 109]) ++ .replicate keyLen.toNat 0))
  idKey_length derived := by simp [← Option.some.inj derived]
  encode := Base64.encode
  decode := Base64.decode
  decode_encode := Base64.decode_encode _
  encode_plain member := by
    obtain ⟨value, present, same⟩ := List.mem_map.mp member
    have read := (Base64.letter_spec (Base64.sextets_small _ value present)).1
    rw [same] at read
    cases read
  skipSpace := some
  skipSpace_digit _ := rfl
  compareBcrypt _ _ := false
  bcryptCost _ := none

end Sample

theorem secret_is_verified : (Sample.params 1).Readable ∧
    ∃ hash, (Sample.params 1).hash Sample.library (Sample.salt 1) (ascii "secret") = some hash ∧
      Works Sample.library _ (Sample.salt 1) (ascii "secret") hash :=
  have readable : (Sample.params 1).Readable := by unfold Params.Readable; decide
  ⟨readable, _, rfl, bounded_hash_works _ _ _ _ _ readable rfl⟩

/-- 65 passes are more than `decode` accepts. -/
theorem hash_of_many_passes_is_refused :
    ∃ hash, (Sample.params 65).hash Sample.library (Sample.salt 65) (ascii "secret") = some hash ∧
      verify Sample.library hash (ascii "secret") = some false ∧ supported Sample.library hash = false := by
  have beyond : ¬ (Sample.params 65).Readable := fun readable => absurd readable.1 (by decide)
  have unread := decode_beyond (show (Sample.params 65).derive Sample.library (Sample.salt 65).1 (ascii "secret") = _
    from rfl) beyond
  exact ⟨_, rfl, by simp [verify, not_isBcrypt, unread], by simp [supported, not_isBcrypt, unread]⟩

end Gofi.Iam.Password
