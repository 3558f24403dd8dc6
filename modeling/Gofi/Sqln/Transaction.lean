import Gofi.Go.Text
import Gofi.Go.Time

/-! `sqln/transaction` and `connection/txctx.go`: a function run in a transaction,
and again in another one while the database reports a conflict. -/

namespace Gofi.Sqln.Transaction

open Gofi.Go

inductive Err where
  | plain (text : Str)
  | sqlState (code : Str)
  | wrap (text : Str) (inner : Err)
  | both (text : Str) (first second : Err)
  deriving DecidableEq

def Err.as : Err → Option Str
  | plain _ => none
  | sqlState code => some code
  | wrap _ inner => inner.as
  | both _ first second => first.as.or second.as

def retryableStates : List Str := [ascii "40001", ascii "40P01"]

def isRetryable (err : Err) : Bool := err.as.any (retryableStates.contains ·)

def errRollback : Err → Err → Err := .both (ascii "error when executing transaction rollback: %w, original error: %w")
def errCommit : Err → Err := .wrap (ascii "could not commit transaction: %w")
def errStart : Err → Err := .wrap (ascii "could not start database transaction: %w")

/-- What a context carries: the transaction under `SqlTxContextKey`, and the
transactions by owning pool, the innermost last. Pools and transactions are numbers. -/
structure Ctx where
  raw : Option Nat
  bindings : List (Nat × Nat)

namespace Ctx

def withTx (ctx : Ctx) (db tx : Nat) : Ctx := ⟨some tx, ctx.bindings ++ [(db, tx)]⟩

def txFrom (ctx : Ctx) : Option Nat := ctx.raw

def txFor (ctx : Ctx) (db : Nat) : Option Nat :=
  if ctx.bindings.length = 0 then ctx.txFrom
  else (ctx.bindings.reverse.find? (·.1 = db)).map Prod.snd

end Ctx

structure Options where
  /-- Handed to the driver as they are, like `readOnly`. -/
  isolation : Int
  readOnly : Bool
  connection : Option Nat
  maxRetries : Int

inductive Event where
  | began (db tx : Nat)
  | called (tx : Nat)
  | committed (tx : Nat) (success : Bool)
  | rolledBack (tx : Nat) (success : Bool)
  deriving DecidableEq

def Event.tx : Event → Nat
  | began _ tx | called tx | committed tx _ | rolledBack tx _ => tx

def Event.ends (tx : Nat) : Event → Bool
  | committed other _ | rolledBack other _ => other = tx
  | _ => false

/-- The databases and all else a function may read and change, with the number of
the next transaction and what was asked so far. -/
structure World (σ : Type) where
  outside : σ
  next : Nat
  log : List Event

inductive Result where
  | returned (err : Option Err)
  | panicked
  deriving DecidableEq

abbrev Body (σ : Type) := Ctx → World σ → Result × World σ

/-- What the surroundings answer: whether a transaction begins, commits and rolls
back, the random part of a delay, and whether the context ends during it. -/
structure Backend (σ : Type) where
  begins : Options → Ctx → Nat → σ → Option Err × σ
  commits : Nat → σ → Option Err × σ
  rollsBack : Nat → σ → Option Err × σ
  random : Int → σ → Int × σ
  ended : Ctx → Duration → σ → Bool × σ

section

variable (backend : Backend σ) (opts : Options)

def beginTransaction (ctx : Ctx) (db : Nat) (w : World σ) : Except Err Nat × World σ :=
  match backend.begins opts ctx db w.outside with
  | (some err, outside) => (.error (errStart err), { w with outside })
  | (none, outside) => (.ok w.next, { outside, next := w.next + 1, log := w.log ++ [.began db w.next] })

def rollback (tx : Nat) (w : World σ) : Option Err × World σ :=
  let (err, outside) := backend.rollsBack tx w.outside
  (err, { w with outside, log := w.log ++ [.rolledBack tx err.isNone] })

def commit (tx : Nat) (w : World σ) : Option Err × World σ :=
  let (err, outside) := backend.commits tx w.outside
  (err, { w with outside, log := w.log ++ [.committed tx err.isNone] })

def finish (tx : Nat) : Result × World σ → Result × World σ
  | (.panicked, w) => (.panicked, (rollback backend tx w).2)
  | (.returned (some err), w) =>
    match rollback backend tx w with
    | (some rbErr, w) => (.returned (some (errRollback rbErr err)), w)
    | (none, w) => (.returned (some err), w)
  | (.returned none, w) =>
    match commit backend tx w with
    | (some err, w) => (.returned (some (errCommit err)), w)
    | (none, w) => (.returned none, w)

def executeTransaction (ctx : Ctx) (db : Nat) (fn : Body σ) (w : World σ) : Result × World σ :=
  match ctx.txFor db with
  | some _ => fn ctx w
  | none =>
    match beginTransaction backend opts ctx db w with
    | (.error err, w) => (.returned (some err), w)
    | (.ok tx, w) => finish backend tx (fn (ctx.withTx db tx) { w with log := w.log ++ [.called tx] })

def retryBaseDelay : Duration := 20 * Time.millisecond
def retryMaxDelay : Duration := Time.second

def backoff (attempt : Nat) : Duration := min ((retryBaseDelay * 2 ^ attempt).bmod (2 ^ 64)) retryMaxDelay

def executeWithRetry (ctx : Ctx) (db : Nat) (fn : Body σ) (attempt : Nat) (w : World σ) : Result × World σ :=
  match executeTransaction backend opts ctx db fn w with
  | (.panicked, w) => (.panicked, w)
  | (.returned none, w) => (.returned none, w)
  | (.returned (some err), w) =>
    if attempt ≥ opts.maxRetries ∨ ¬ isRetryable err then (.returned (some err), w)
    else if (ctx.txFor db).isSome then (.returned (some err), w)
    else
      let half := (backoff attempt).tdiv 2
      -- `rand.N` panics when its bound is not positive, as it is once the shift overflows
      if half + 1 ≤ 0 then (.panicked, w)
      else
        let (jitter, outside) := backend.random (half + 1) w.outside
        let (ended, outside) := backend.ended ctx (half + jitter) outside
        if ended then (.returned (some err), { w with outside })
        else executeWithRetry ctx db fn (attempt + 1) { w with outside }
  termination_by (opts.maxRetries - attempt).toNat

def execute (connection : Option Nat) (ctx : Ctx) (fn : Body σ) (w : World σ) : Result × World σ :=
  match opts.connection.or connection with
  | some db => executeWithRetry backend opts ctx db fn 0 w
  | none => (.panicked, w)

end

end Gofi.Sqln.Transaction
