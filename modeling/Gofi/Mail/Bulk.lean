import Gofi.Concurrent.Machine
import Mathlib.Data.List.Range

/-! `mail/smtp.go`: `SendBulk`, one connection after the other for a batch of messages. -/

namespace Gofi.Mail

open Gofi.Concurrent

/-- What happens on the connections, numbered as they are opened. -/
inductive Event where
  | opened (conn : Nat)
  | closed (conn : Nat)
  | tried (conn index : Nat) (sent : Bool)

/-- The configuration of the mailer and everything around it. `connect` may fail after
it has opened a connection, which it then closes. -/
structure Mailer (σ μ ρ ε : Type) where
  poolSize : Int
  validate : μ → Option ε
  recipients : μ → ρ
  connects : σ → Option (Bool × ε) × σ
  delivers : μ → σ → Option ε × σ
  resets : σ → Bool × σ
  quits : σ → σ

structure BulkError (ρ ε : Type) where
  index : Nat
  recipients : ρ
  err : ε

structure BulkResult (ρ ε : Type) where
  sent : Nat
  failed : List (BulkError ρ ε)

structure World (σ : Type) where
  outside : σ
  next : Nat
  log : List Event

section

variable (s : Mailer σ μ ρ ε)

def connect (w : World σ) : Except ε Nat × World σ :=
  match s.connects w.outside with
  | (none, outside) => (.ok w.next, ⟨outside, w.next + 1, w.log ++ [.opened w.next]⟩)
  | (some (true, err), outside) => (.error err, ⟨outside, w.next + 1, w.log ++ [.opened w.next, .closed w.next]⟩)
  | (some (false, err), outside) => (.error err, { w with outside })

def quit (conn : Nat) (w : World σ) : World σ :=
  { w with outside := s.quits w.outside, log := w.log ++ [.closed conn] }

def recycle (conn inBatch : Nat) (w : World σ) : Except ε (Nat × Nat) × World σ :=
  if s.poolSize ≤ 0 ∨ inBatch < s.poolSize then (.ok (conn, inBatch), w)
  else match connect s (quit s conn w) with
    | (.ok conn, w) => (.ok (conn, 0), w)
    | (.error err, w) => (.error err, w)

def recover (conn : Nat) (w : World σ) : Except ε Nat × World σ :=
  match s.resets w.outside with
  | (true, outside) => (.ok conn, { w with outside })
  | (false, outside) => connect s (quit s conn { w with outside })

def failRemaining (res : BulkResult ρ ε) (msgs : List μ) (start : Nat) (err : ε) : BulkResult ρ ε :=
  { res with failed := res.failed ++ (msgs.zipIdx start).map fun (m, j) => ⟨j, s.recipients m, err⟩ }

/-- The result, and the count for the connection, after `deliver`. -/
def account (res : BulkResult ρ ε) (inBatch i : Nat) (m : μ) : Option ε → BulkResult ρ ε × Nat
  | some err => ({ res with failed := res.failed ++ [⟨i, s.recipients m, err⟩] }, inBatch)
  | none => ({ res with sent := res.sent + 1 }, inBatch + 1)

def sendFrom (i : Nat) (conn inBatch : Nat) (res : BulkResult ρ ε) (w : World σ) :
    List μ → BulkResult ρ ε × Option Nat × World σ
  | [] => (res, some conn, w)
  | m :: rest =>
    match s.validate m with
    | some err =>
      sendFrom (i + 1) conn inBatch { res with failed := res.failed ++ [⟨i, s.recipients m, err⟩] } w rest
    | none =>
      match recycle s conn inBatch w with
      | (.error err, w) => (failRemaining s res (m :: rest) i err, none, w)
      | (.ok (conn, inBatch), w) =>
        let (failure, outside) := s.delivers m w.outside
        let (res, inBatch) := account s res inBatch i m failure
        match recover s conn { w with outside, log := w.log ++ [Event.tried conn i failure.isNone] } with
        | (.error err, w) => (failRemaining s res rest (i + 1) err, none, w)
        | (.ok conn, w) => sendFrom (i + 1) conn inBatch res w rest

def sendBulk (msgs : List μ) (w : World σ) : Except ε (BulkResult ρ ε) × World σ :=
  if msgs = [] then (.ok ⟨0, []⟩, w)
  else match connect s w with
    | (.error err, w) => (.error err, w)
    | (.ok conn, w) =>
      match sendFrom s 0 conn 0 ⟨0, []⟩ w msgs with
      | (res, some conn, w) => (.ok res, quit s conn w)
      | (res, none, w) => (.ok res, w)

end

/-- The connection that is open, if the events go by one connection at a time. -/
def scan : Option Nat → Event → Option (Option Nat)
  | none, .opened conn => some (some conn)
  | some open_, .closed conn => if conn = open_ then some none else none
  | some open_, .tried conn _ _ => if conn = open_ then some (some open_) else none
  | _, _ => none

def sent (log : List Event) : List (Nat × Nat) :=
  log.filterMap fun
    | .tried conn index true => some (conn, index)
    | _ => none

def tried (log : List Event) : List Nat :=
  log.filterMap fun
    | .tried _ index _ => some index
    | _ => none

theorem sent_append (log events : List Event) : sent (log ++ events) = sent log ++ sent events := List.filterMap_append

theorem tried_append (log events : List Event) : tried (log ++ events) = tried log ++ tried events :=
  List.filterMap_append

/-- What is known before a message: those before it are sent or have failed. -/
structure Kept (poolSize : Int) (i : Nat) (conn : Option Nat) (inBatch : Nat) (res : BulkResult ρ ε) (w : World σ) :
    Prop where
  single : feed scan none w.log = some conn
  accounted : ((sent w.log).map Prod.snd ++ res.failed.map BulkError.index).Perm (List.range i)
  failed : (res.failed.map BulkError.index).Sublist (List.range i)
  tried : (tried w.log).Sublist (List.range i)
  total : res.sent = (sent w.log).length
  pooled : 0 < poolSize → ∀ conn, ((sent w.log).countP (·.1 = conn) : Int) ≤ poolSize
  batch : ∀ open_ ∈ conn, open_ < w.next ∧ (sent w.log).countP (·.1 = open_) ≤ inBatch
  fresh : ∀ delivery ∈ sent w.log, delivery.1 < w.next

section

variable {poolSize : Int} {res : BulkResult ρ ε} {w after : World σ}

theorem Kept.quiet (kept : Kept poolSize i conn inBatch res w) (events : List Event)
    (log : after.log = w.log ++ events)
    (unsent : sent events = []) (untried : Mail.tried events = []) (next : w.next ≤ after.next)
    (single : feed scan conn events = some now)
    (batch : ∀ open_ ∈ now, open_ < after.next ∧ (sent w.log).countP (·.1 = open_) ≤ count) :
    Kept poolSize i now count res after := by
  have same : sent after.log = sent w.log := by rw [log, sent_append, unsent, List.append_nil]
  have tries : Mail.tried after.log = Mail.tried w.log := by rw [log, tried_append, untried, List.append_nil]
  refine ⟨?_, same ▸ kept.accounted, kept.failed, tries ▸ kept.tried, same ▸ kept.total, same ▸ kept.pooled,
    same ▸ batch, fun delivery member => Nat.lt_of_lt_of_le (kept.fresh delivery (same ▸ member)) next⟩
  rw [log, feed_append, kept.single]
  exact single

theorem closed_scan (conn : Nat) : feed scan (some conn) [.closed conn] = some none := by simp [feed, scan]

theorem Kept.quit (kept : Kept poolSize i (some conn) inBatch res w) (s : Mailer σ μ ρ ε) :
    Kept poolSize i none 0 res (quit s conn w) :=
  kept.quiet [.closed conn] rfl rfl rfl (Nat.le_refl _) (closed_scan _) (by simp)

theorem Kept.connect (kept : Kept poolSize i none inBatch res w) (s : Mailer σ μ ρ ε) (count : Nat) :
    (∀ conn after, connect s w = (.ok conn, after) → Kept poolSize i (some conn) count res after) ∧
      ∀ err after, connect s w = (.error err, after) → Kept poolSize i none 0 res after := by
  have new : (sent w.log).countP (·.1 = w.next) = 0 := List.countP_eq_zero.mpr fun delivery member => by
    have := kept.fresh delivery member
    simp only [decide_eq_true_eq]
    omega
  constructor
  · intro conn after connected
    unfold Mail.connect at connected
    split at connected <;> cases connected
    refine kept.quiet [.opened w.next] rfl rfl rfl (Nat.le_succ w.next) rfl fun open_ own => ?_
    cases own
    exact ⟨Nat.lt_succ_self _, by omega⟩
  · intro err after failed
    unfold Mail.connect at failed
    split at failed <;> cases failed
    · exact kept.quiet [.opened w.next, .closed w.next] rfl rfl rfl (Nat.le_succ w.next) (closed_scan _) (by simp)
    · exact kept.quiet [] (List.append_nil _).symm rfl rfl (Nat.le_refl _) rfl (by simp)

theorem Kept.recycle {s : Mailer σ μ ρ ε} (kept : Kept s.poolSize i (some conn) inBatch res w) :
    (∀ now count after, recycle s conn inBatch w = (.ok (now, count), after) →
      Kept s.poolSize i (some now) count res after ∧ (0 < s.poolSize → count < s.poolSize)) ∧
      ∀ err after, recycle s conn inBatch w = (.error err, after) → Kept s.poolSize i none 0 res after := by
  obtain ⟨connected, failed⟩ := (kept.quit s).connect s 0
  unfold Mail.recycle
  split
  · rename_i room
    refine ⟨fun now count after same => ?_, nofun⟩
    cases same
    exact ⟨kept, by omega⟩
  · split
    · rename_i new
      refine ⟨fun now count after same => ?_, nofun⟩
      cases same
      exact ⟨connected _ _ new, id⟩
    · rename_i new
      refine ⟨nofun, fun err after same => ?_⟩
      cases same
      exact failed _ _ new

theorem Kept.recover (kept : Kept poolSize i (some conn) inBatch res w) (s : Mailer σ μ ρ ε) :
    (∀ now after, recover s conn w = (.ok now, after) → Kept poolSize i (some now) inBatch res after) ∧
      ∀ err after, recover s conn w = (.error err, after) → Kept poolSize i none 0 res after := by
  unfold Mail.recover
  split
  · rename_i outside _
    refine ⟨fun now after same => ?_, nofun⟩
    cases same
    exact kept.quiet [] (List.append_nil _).symm rfl rfl (Nat.le_refl _) rfl kept.batch
  · rename_i outside _
    have asked : Kept poolSize i (some conn) inBatch res { w with outside } :=
      kept.quiet [] (List.append_nil _).symm rfl rfl (Nat.le_refl _) rfl kept.batch
    exact (asked.quit s).connect s inBatch

theorem Kept.fails (kept : Kept poolSize i conn inBatch res w) (failures : List (BulkError ρ ε)) (events : List Event)
    (indexes : failures.map BulkError.index = List.range' i failures.length) (log : after.log = w.log ++ events)
    (unsent : sent events = []) (tries : (Mail.tried events).Sublist (List.range' i failures.length))
    (next : after.next = w.next) (single : feed scan conn events = some conn) :
    Kept poolSize (i + failures.length) conn inBatch { res with failed := res.failed ++ failures } after := by
  have same : sent after.log = sent w.log := by rw [log, sent_append, unsent, List.append_nil]
  have range : List.range (i + failures.length) = List.range i ++ List.range' i failures.length := by
    rw [List.range_eq_range', List.range_eq_range', ← List.range'_append_1, Nat.zero_add]
  refine ⟨?_, ?_, ?_, ?_, same ▸ kept.total, same ▸ kept.pooled, same ▸ next ▸ kept.batch, same ▸ next ▸ kept.fresh⟩
  · rw [log, feed_append, kept.single]
    exact single
  · rw [same, List.map_append, indexes, ← List.append_assoc, range]
    exact kept.accounted.append_right _
  · rw [List.map_append, indexes, range]
    exact kept.failed.append (.refl _)
  · rw [log, tried_append, range]
    exact kept.tried.append tries

theorem Kept.sends (kept : Kept poolSize i (some conn) inBatch res w) (room : 0 < poolSize → inBatch < poolSize)
    (outside : σ) : Kept poolSize (i + 1) (some conn) (inBatch + 1) { res with sent := res.sent + 1 }
      { w with outside, log := w.log ++ [.tried conn i true] } := by
  have more : sent (w.log ++ [.tried conn i true]) = sent w.log ++ [(conn, i)] := sent_append ..
  refine ⟨?_, ?_, ?_, ?_, ?_, ?_, ?_, ?_⟩
  · rw [feed_append, kept.single]
    simp [feed, scan]
  · rw [more, List.range_succ, List.map_append, List.append_assoc]
    refine ((List.perm_append_comm).append_left _).trans ?_
    rw [← List.append_assoc]
    exact kept.accounted.append_right _
  · rw [List.range_succ]
    exact kept.failed.trans (List.sublist_append_left ..)
  · rw [tried_append, List.range_succ]
    exact kept.tried.append (.refl _)
  · rw [more, List.length_append, kept.total]
    rfl
  · intro positive other
    have pooled := kept.pooled positive other
    have batch := (kept.batch conn rfl).2
    rw [more, List.countP_append]
    by_cases same : conn = other
    · subst same
      simp only [List.countP_singleton, decide_true, if_true]
      omega
    · simpa [same] using pooled
  · intro open_ own
    cases own
    obtain ⟨known, batch⟩ := kept.batch conn rfl
    rw [more, List.countP_append]
    exact ⟨known, by simpa using batch⟩
  · intro delivery member
    rw [more] at member
    rcases List.mem_append.mp member with before | now
    · exact kept.fresh delivery before
    · rw [List.mem_singleton.mp now]
      exact (kept.batch conn rfl).1

theorem Kept.failRemaining (kept : Kept poolSize i conn inBatch res w) (s : Mailer σ μ ρ ε) (msgs : List μ) (err : ε) :
    Kept poolSize (i + msgs.length) conn inBatch (failRemaining s res msgs i err) w := by
  have rest := kept.fails ((msgs.zipIdx i).map fun (m, j) => (⟨j, s.recipients m, err⟩ : BulkError ρ ε)) []
    (by simp [Function.comp_def])
    (List.append_nil _).symm rfl (List.nil_sublist _) rfl rfl
  simpa [Mail.failRemaining] using rest

theorem Kept.fail (kept : Kept poolSize i conn inBatch res w) (failure : BulkError ρ ε) (index : failure.index = i) :
    Kept poolSize (i + 1) conn inBatch { res with failed := res.failed ++ [failure] } w :=
  kept.fails [failure] [] (by simp [index]) (List.append_nil _).symm rfl (List.nil_sublist _) rfl rfl

private theorem sendFrom_kept (s : Mailer σ μ ρ ε) (msgs : List μ)
    (kept : Kept s.poolSize i (some conn) inBatch res w) :
    ∃ count, Kept s.poolSize (i + msgs.length) (sendFrom s i conn inBatch res w msgs).2.1 count
      (sendFrom s i conn inBatch res w msgs).1 (sendFrom s i conn inBatch res w msgs).2.2 := by
  induction msgs generalizing i conn inBatch res w with
  | nil => exact ⟨inBatch, kept⟩
  | cons m rest ih =>
    have total : i + (m :: rest).length = i + 1 + rest.length := by
      rw [List.length_cons]
      omega
    rw [sendFrom, total]
    split
    · exact ih (kept.fail _ rfl)
    obtain ⟨recycled, failed⟩ := kept.recycle
    split
    · rename_i broken
      rw [← total]
      exact ⟨0, (failed _ _ broken).failRemaining s (m :: rest) _⟩
    rename_i conn count w same
    obtain ⟨now, room⟩ := recycled conn count w same
    obtain ⟨failure, outside⟩ := s.delivers m w.outside
    have next :
      Kept s.poolSize (i + 1) (some conn) (account s res count i m failure).2 (account s res count i m failure).1
        { w with outside, log := w.log ++ [.tried conn i failure.isNone] } := by
      cases failure with
      | some err => exact now.fails [_] [.tried conn i false] rfl rfl rfl (.refl _) rfl (by simp [feed, scan])
      | none => exact now.sends room outside
    simp only
    obtain ⟨back, lost⟩ := next.recover s
    split
    · rename_i broken
      exact ⟨0, (lost _ _ broken).failRemaining s rest _⟩
    · rename_i fresh
      exact ih (back _ _ fresh)

end

/-- Every message of a batch that could be started is sent once or has failed once, the
failures in order; `deliver` is called for none of them twice; the connections are opened
one after the other and all of them are closed; and none carries more messages than
`PoolSize` says. -/
theorem bulk_accounting_is_exact (s : Mailer σ μ ρ ε) (msgs : List μ) (outside : σ)
    (done : sendBulk s msgs ⟨outside, 0, []⟩ = (.ok res, w)) :
    ((sent w.log).map Prod.snd ++ res.failed.map BulkError.index).Perm (List.range msgs.length) ∧
    (res.failed.map BulkError.index).Pairwise (· < ·) ∧ res.sent = (sent w.log).length ∧ (tried w.log).Nodup ∧
    feed scan none w.log = some none ∧
    (0 < s.poolSize → ∀ conn, ((sent w.log).countP (·.1 = conn) : Int) ≤ s.poolSize) := by
  have begun : Kept s.poolSize 0 none 0 (⟨0, []⟩ : BulkResult ρ ε) ⟨outside, 0, []⟩ := by
    constructor <;> simp [feed, sent, tried]
    omega
  obtain ⟨count, kept⟩ : ∃ count, Kept s.poolSize msgs.length none count res w := by
    unfold sendBulk at done
    split at done
    · rename_i empty
      cases done
      subst empty
      exact ⟨0, begun⟩
    split at done
    · cases done
    rename_i conn opened connected
    obtain ⟨count, kept⟩ := sendFrom_kept s msgs ((begun.connect s 0).1 conn opened connected)
    rw [Nat.zero_add] at kept
    split at done <;> cases done
    · rename_i same
      rw [same] at kept
      exact ⟨0, kept.quit s⟩
    · rename_i same
      rw [same] at kept
      exact ⟨count, kept⟩
  exact ⟨kept.accounted, List.pairwise_lt_range.sublist kept.failed, kept.total, List.nodup_range.sublist kept.tried,
    kept.single, kept.pooled⟩

def Sample.mailer : Mailer Nat Nat Unit Unit where
  poolSize := 2
  validate m := if m = 4 then some () else none
  recipients _ := ()
  connects n := (none, n)
  delivers m n := (if m % 3 = 2 then some () else none, n + 1)
  resets n := (n % 2 = 0, n)
  quits n := n

theorem sample_batch_is_accounted : ∃ res w, sendBulk Sample.mailer [0, 1, 2, 3, 4] ⟨0, 0, []⟩ = (.ok res, w) ∧
    res.sent = 3 ∧ res.failed.map BulkError.index = [2, 4] ∧ feed scan none w.log = some none :=
  ⟨_, _, rfl, rfl, rfl, (bulk_accounting_is_exact Sample.mailer [0, 1, 2, 3, 4] 0 rfl).2.2.2.2.1⟩

end Gofi.Mail
