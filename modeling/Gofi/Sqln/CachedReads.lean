import Gofi.Sqln.Cache

/-! `manager_cache.go`: cached reads of one query by any number of processes,
beside a writer that commits a change and then invalidates the cache. Of a
result only one thing is kept: whether all of it was read after the commit. -/

namespace Gofi.Sqln.CachedReads

open Gofi.Concurrent Gofi.Go Gofi.Redis

inductive Kind where
  | list
  | unique
  | page

def Kind.queries : Kind → Nat
  | .list | .unique => 1
  | .page => 2

/-- The query that is read, and the cache that holds its results. -/
structure Query where
  cache : Cache
  key : Str
  kind : Kind

def Query.entry (q : Query) : Str := q.cache.keyedKey q.key

inductive Writer where
  | writing
  | deleting (d : Cache.Deleting)
  | returned
  | failed

def Writer.committed : Writer → Bool
  | .writing => false
  | _ => true

/-- A fetch shared by the callers of one process: the queries it has yet to send,
the result it has yet to store, or what it hands to its callers, which is
nothing after an error. -/
inductive Flight where
  | fetching (left : Nat) (fresh : Bool)
  | storing (fresh : Bool)
  | ended (result : Option Bool)

def Flight.stale : Flight → Bool
  | .fetching _ fresh => !fresh
  | .storing fresh => !fresh
  | .ended result => result = some false

inductive Stage where
  | started
  | missed
  | waiting
  | returned (result : Option Bool)

structure Read (n : Nat) where
  process : Fin n
  late : Bool
  stage : Stage

structure State (n : Nat) where
  server : Server Bool
  now : Int
  writer : Writer
  flights : Fin n → Option Flight
  reads : List (Read n)

inductive Move (n : Nat) where
  | wait (ms : Nat)
  | commit
  | del (order : List Str)
  | delFails
  | start (process : Fin n)
  | getKeyed (place : Nat) (fails : Bool)
  | join (place : Nat)
  | query (process : Fin n) (fails : Bool)
  | setKeyed (process : Fin n) (fails : Bool)
  | finish (process : Fin n)

def Writer.after : Cache.Deleting → Option Cache.Deleting → Writer
  | _, some next => .deleting next
  | .entries _, none => .returned
  | _, none => .failed

/-- What `GetKeyed` finds; an error is a miss. -/
def Query.hit (q : Query) (server : Server Bool) (now : Int) (fails : Bool) : Stage :=
  match server.get now q.entry with
  | .ok (some fresh) => if fails then .missed else .returned (some fresh)
  | _ => .missed

def Flight.query (committed fails : Bool) : Flight → Option Flight
  | .fetching (left + 1) fresh =>
    if fails then some (.ended none)
    else if left = 0 then some (.storing (fresh && committed)) else some (.fetching left (fresh && committed))
  | _ => none

def wake (process : Fin n) (result : Option Bool) (reads : List (Read n)) : List (Read n) :=
  reads.map fun read =>
    match read.stage with
    | .waiting => if read.process = process then { read with stage := .returned result } else read
    | _ => read

variable (q : Query)

def step (s : State n) : Move n → Option (State n)
  | .wait ms => some { s with now := s.now + ms }
  | .commit =>
    match s.writer with
    | .writing => some { s with writer := .deleting .base }
    | _ => none
  | .del order =>
    match s.writer with
    | .deleting d => (q.cache.del s.server s.now order d).map fun (server, next) =>
        { s with server, writer := .after d next }
    | _ => none
  | .delFails =>
    match s.writer with
    | .deleting _ => some { s with writer := .failed }
    | _ => none
  | .start process =>
    some { s with reads := s.reads ++ [⟨process, s.writer matches .returned, .started⟩] }
  | .getKeyed place fails =>
    match s.reads[place]? with
    | some ⟨process, late, .started⟩ =>
      some { s with reads := s.reads.set place ⟨process, late, q.hit s.server s.now fails⟩ }
    | _ => none
  | .join place =>
    match s.reads[place]? with
    | some ⟨process, late, .missed⟩ =>
      some { s with
        flights := Function.update s.flights process
          (some ((s.flights process).getD (.fetching q.kind.queries true)))
        reads := s.reads.set place ⟨process, late, .waiting⟩ }
    | _ => none
  | .query process fails =>
    (s.flights process).bind fun flight => (flight.query s.writer.committed fails).map fun flight =>
      { s with flights := Function.update s.flights process (some flight) }
  | .setKeyed process fails =>
    match s.flights process with
    | some (.storing fresh) => some { s with
        server := if fails then s.server else q.cache.setKeyed s.server s.now q.key fresh
        flights := Function.update s.flights process (some (.ended (some fresh))) }
    | _ => none
  | .finish process =>
    match s.flights process with
    | some (.ended result) => some { s with
        flights := Function.update s.flights process none
        reads := wake process result s.reads }
    | _ => none

structure Initial (s : State n) : Prop where
  writer : s.writer = .writing
  flights : ∀ process, s.flights process = none
  reads : s.reads = []

/-- Every read that started after `Del` had returned gives rows read after the commit. -/
def Final (s : State n) : Prop :=
  ∀ read ∈ s.reads, read.late = true → ∀ fresh, read.stage = .returned (some fresh) → fresh = true

def Query.staleEntry (server : Server Bool) (now : Int) : Bool :=
  match server.get now q.entry with
  | .ok (some fresh) => !fresh
  | _ => false

/-- When the last command of `Del` runs, no flight has read before the commit, and
an entry that was is among the keys to be deleted. -/
def Settled (s : State n) : Move n → Prop
  | .del _ =>
    match s.writer with
    | .deleting (.entries keys) =>
      (∀ process, (s.flights process).any Flight.stale = false) ∧
        (q.staleEntry s.server s.now = true → q.entry ∈ keys)
    | _ => True
  | _ => True

instance (s : State n) : (move : Move n) → Decidable (Settled q s move)
  | .del _ =>
    match s with
    | ⟨server, now, .deleting (.entries keys), flights, _⟩ =>
      have : Decidable (∀ process, (flights process).any Flight.stale = false) := Nat.decidableForallFin _
      inferInstanceAs (Decidable (_ ∧ (q.staleEntry server now = true → q.entry ∈ keys)))
    | ⟨_, _, .deleting .base, _, _⟩ | ⟨_, _, .deleting .index, _, _⟩ => .isTrue trivial
    | ⟨_, _, .writing, _, _⟩ | ⟨_, _, .returned, _, _⟩ | ⟨_, _, .failed, _, _⟩ => .isTrue trivial
  | .wait _ | .commit | .delFails | .start _ | .getKeyed _ _ | .join _ | .query _ _ | .setKeyed _ _ | .finish _ =>
    .isTrue trivial

variable {q}

theorem staleEntry_iff {server : Server Bool} :
    q.staleEntry server now = true ↔ ∃ expiry, server.find now q.entry = some ⟨.text false, expiry⟩ := by
  unfold Query.staleEntry Server.get
  split
  · rename_i fresh got
    split at got
    · cases got
    · rename_i value expiry found
      cases got
      simp [found]
    · cases got
  · rename_i other
    constructor
    · intro never
      cases never
    · rintro ⟨expiry, found⟩
      exact absurd (by rw [found]) (other false)

/-- Nothing is left of what was read before the commit. -/
structure Fresh (q : Query) (s : State n) : Prop where
  flights : ∀ process, (s.flights process).any Flight.stale = false
  entry : q.staleEntry s.server s.now = false

theorem Flight.query_fresh {flight : Flight} (fresh : flight.stale = false)
    (queried : flight.query true fails = some next) : next.stale = false := by
  unfold Flight.query at queried
  split at queried
  · split at queried
    · cases queried
      rfl
    split at queried
    all_goals
      cases queried
      simpa [Flight.stale] using fresh
  · cases queried

theorem update_fresh {flights : Fin n → Option Flight} (fresh : ∀ process, (flights process).any Flight.stale = false)
    (process : Fin n) (new : flight.any Flight.stale = false) (other : Fin n) :
    (Function.update flights process flight other).any Flight.stale = false := by
  by_cases same : other = process
  · rw [same, Function.update_self, new]
  · rw [Function.update_of_ne same, fresh]

theorem entry_before {server later : Server Bool} (fresh : q.staleEntry server now = false) (passed : now ≤ afterwards)
    (same : later.items q.entry = none ∨ later.items q.entry = server.items q.entry) :
    q.staleEntry later afterwards = false := by
  rw [← Bool.not_eq_true, staleEntry_iff] at fresh ⊢
  rintro ⟨expiry, found⟩
  rcases same with gone | same
  · simp [Server.find, gone] at found
  · exact fresh ⟨expiry, Server.find_before found passed same⟩

variable {s : State n}

theorem Fresh.step (fresh : Fresh q s) (returned : s.writer = .returned)
    (stepped : step q s move = some next) : Fresh q next ∧ next.writer = .returned := by
  cases move <;> simp only [CachedReads.step] at stepped
  case wait ms =>
    cases stepped
    exact ⟨⟨fresh.flights, entry_before fresh.entry (by simp) (.inr rfl)⟩, returned⟩
  case commit | del _ | delFails => simp [returned] at stepped
  case start process =>
    cases stepped
    exact ⟨⟨fresh.flights, fresh.entry⟩, returned⟩
  case getKeyed place fails =>
    split at stepped <;> cases stepped
    exact ⟨⟨fresh.flights, fresh.entry⟩, returned⟩
  case join place =>
    split at stepped <;> cases stepped
    rename_i process late placed
    refine ⟨⟨update_fresh fresh.flights process ?_, fresh.entry⟩, returned⟩
    have old := fresh.flights process
    cases flying : s.flights process with
    | none => rfl
    | some flight => simpa [flying] using old
  case query process fails =>
    obtain ⟨flight, flying, rest⟩ := Option.bind_eq_some_iff.mp stepped
    obtain ⟨later, queried, rfl⟩ := Option.map_eq_some_iff.mp rest
    have old := fresh.flights process
    rw [returned] at queried
    simp only [flying, Option.any_some] at old
    exact ⟨⟨update_fresh fresh.flights process (Flight.query_fresh old queried), fresh.entry⟩, returned⟩
  case setKeyed process fails =>
    split at stepped <;> cases stepped
    rename_i value flying
    have old := fresh.flights process
    obtain rfl : value = true := by simpa [flying, Flight.stale] using old
    refine ⟨⟨update_fresh fresh.flights process rfl, ?_⟩, returned⟩
    split
    · exact fresh.entry
    · rw [← Bool.not_eq_true, staleEntry_iff]
      rintro ⟨expiry, found⟩
      cases (Cache.setKeyed_entry ..).symm.trans (Server.find_some found).1
  case finish process =>
    split at stepped <;> cases stepped
    exact ⟨⟨update_fresh fresh.flights process rfl, fresh.entry⟩, returned⟩

private theorem fresh_of_del (settled : Settled q s (.del order)) (stepped : step q s (.del order) = some next)
    (returned : next.writer = .returned) : Fresh q next := by
  simp only [CachedReads.step] at stepped
  split at stepped
  · rename_i d deleting
    obtain ⟨⟨server, onward⟩, deleted, rfl⟩ := Option.map_eq_some_iff.mp stepped
    cases d with
    | base =>
      cases deleted
      cases returned
    | index => cases onward <;> cases returned
    | entries keys =>
      cases deleted
      simp only [Settled, deleting] at settled
      obtain ⟨flights, listed⟩ := settled
      refine ⟨flights, ?_⟩
      cases stale : q.staleEntry s.server s.now with
      | true =>
        rw [← Bool.not_eq_true, staleEntry_iff]
        rintro ⟨expiry, found⟩
        have present := (Server.find_some found).1
        simp [Server.del_items, listed stale] at present
      | false =>
        refine entry_before stale (le_refl _) ?_
        rw [Server.del_items]
        split
        · exact .inl rfl
        · exact .inr rfl
  · cases stepped

structure Sound (q : Query) (s : State n) : Prop where
  fresh : s.writer = .returned → Fresh q s
  late : ∀ read ∈ s.reads, read.late = true → s.writer = .returned
  final : Final s

theorem Initial.sound (initial : Initial s) : Sound q s :=
  ⟨by simp [initial.writer], by simp [initial.reads], by simp [Final, initial.reads]⟩

private theorem returned_of_step (stepped : step q s move = some next) (returned : next.writer = .returned) :
    s.writer = .returned ∨ ∃ order, move = .del order := by
  cases move with
  | del order => exact .inr ⟨order, rfl⟩
  | commit | delFails =>
    simp only [step] at stepped
    split at stepped <;> cases stepped
    cases returned
  | wait _ | start _ => cases stepped; exact .inl returned
  | query process fails =>
    obtain ⟨flight, flying, rest⟩ := Option.bind_eq_some_iff.mp stepped
    obtain ⟨later, queried, rfl⟩ := Option.map_eq_some_iff.mp rest
    exact .inl returned
  | getKeyed _ _ | join _ | setKeyed _ _ | finish _ =>
    simp only [step] at stepped
    split at stepped <;> cases stepped
    exact .inl returned

theorem Sound.fresh_step (sound : Sound q s) (settled : Settled q s move)
    (stepped : CachedReads.step q s move = some next) (returned : next.writer = .returned) : Fresh q next := by
  rcases returned_of_step stepped returned with before | ⟨order, rfl⟩
  · exact ((sound.fresh before).step before stepped).1
  · exact fresh_of_del settled stepped returned

structure Origin (q : Query) (s : State n) (read : Read n) : Prop where
  late : read.late = true → s.writer = .returned ∨ ∃ old ∈ s.reads, old.late = true
  result : ∀ result, read.stage = .returned result →
    (∃ fails, q.hit s.server s.now fails = .returned result) ∨ ∃ process, s.flights process = some (.ended result)

theorem read_of_step {read : Read n} (stepped : step q s move = some next) (member : read ∈ next.reads) :
    read ∈ s.reads ∨ Origin q s read := by
  cases move <;> simp only [step] at stepped
  case wait ms => cases stepped; exact .inl member
  case commit | delFails =>
    split at stepped <;> cases stepped
    exact .inl member
  case del order =>
    split at stepped
    · obtain ⟨_, _, rfl⟩ := Option.map_eq_some_iff.mp stepped
      exact .inl member
    · cases stepped
  case query process fails =>
    obtain ⟨_, _, rest⟩ := Option.bind_eq_some_iff.mp stepped
    obtain ⟨_, _, rfl⟩ := Option.map_eq_some_iff.mp rest
    exact .inl member
  case setKeyed process fails =>
    split at stepped <;> cases stepped
    exact .inl member
  case start process =>
    cases stepped
    rcases List.mem_append.mp member with old | new
    · exact .inl old
    · obtain rfl := List.mem_singleton.mp new
      refine .inr ⟨fun late => ?_, by simp⟩
      cases writer : s.writer <;> simp [writer] at late ⊢
  case getKeyed place fails =>
    split at stepped <;> cases stepped
    rename_i process late placed
    rcases List.mem_or_eq_of_mem_set member with old | rfl
    · exact .inl old
    · exact .inr ⟨fun was => .inr ⟨_, List.mem_of_getElem? placed, was⟩, fun result same => .inl ⟨fails, same⟩⟩
  case join place =>
    split at stepped <;> cases stepped
    rename_i process late placed
    rcases List.mem_or_eq_of_mem_set member with old | rfl
    · exact .inl old
    · exact .inr ⟨fun was => .inr ⟨_, List.mem_of_getElem? placed, was⟩, by simp⟩
  case finish process =>
    split at stepped <;> cases stepped
    rename_i result flying
    obtain ⟨old, present, rfl⟩ := List.mem_map.mp member
    split
    · split
      · refine .inr ⟨fun was => .inr ⟨old, present, was⟩, fun other same => .inr ⟨process, ?_⟩⟩
        cases same
        exact flying
      · exact .inl present
    · exact .inl present

theorem Fresh.result {read : Read n} (fresh : Fresh q s) (origin : Origin q s read)
    (got : read.stage = .returned (some value)) : value = true := by
  by_contra stale
  obtain rfl : value = false := by simpa using stale
  rcases origin.result _ got with ⟨fails, hit⟩ | ⟨process, flying⟩
  · unfold Query.hit at hit
    split at hit
    · rename_i stored found
      split at hit <;> cases hit
      have entry := fresh.entry
      simp [Query.staleEntry, found] at entry
    · cases hit
  · have flight := fresh.flights process
    simp [flying, Flight.stale] at flight

theorem Sound.step (sound : Sound q s) (settled : Settled q s move)
    (stepped : CachedReads.step q s move = some next) : Sound q next := by
  have before (read : Read n) (member : read ∈ next.reads) (late : read.late = true) : s.writer = .returned := by
    rcases read_of_step stepped member with old | origin
    · exact sound.late read old late
    · rcases origin.late late with returned | ⟨old, present, was⟩
      · exact returned
      · exact sound.late old present was
  refine ⟨sound.fresh_step settled stepped, fun read member late => ?_, fun read member late value got => ?_⟩
  · have returned := before read member late
    exact ((sound.fresh returned).step returned stepped).2
  · rcases read_of_step stepped member with old | origin
    · exact sound.final read old late value got
    · exact (sound.fresh (before read member late)).result origin got

/-- Every read that starts after `Del` has returned gives rows read after the
commit, when the last command of `Del` finds no fetch going on that has read
before the commit, and deletes an entry that was. -/
theorem invalidation_is_final (q : Query) (first last : State n) (initial : Initial first) (moves : List (Move n))
    (settled : Along (step q) (Settled q) first moves) (run : feed (step q) first moves = some last) : Final last :=
  (settled.invariant (Sound q) (fun _ _ _ sound => sound.step) initial.sound run).final

namespace Sample

def query : Query := ⟨⟨ascii "app", ascii "users", 0⟩, ascii "k", .list⟩

def state : State 1 := ⟨⟨fun _ => none, fun _ => none⟩, 0, .writing, fun _ => none, []⟩

theorem initial : Initial state := ⟨rfl, fun _ => rfl, rfl⟩

def fetched (place : Nat) : List (Move 1) := [.start 0, .getKeyed place false, .join place, .query 0 false]

def invalidated (keys : List Str) : List (Move 1) := [.commit, .del [], .del keys, .del []]

def refreshed : List (Move 1) :=
  fetched 0 ++ [.setKeyed 0 false, .finish 0] ++ invalidated [query.entry] ++ fetched 1 ++
    [.setKeyed 0 false, .finish 0]

def storedAfter : List (Move 1) :=
  fetched 0 ++ invalidated [] ++ [.setKeyed 0 false, .finish 0, .start 0, .getKeyed 1 false]

def joinedAfter : List (Move 1) :=
  fetched 0 ++ invalidated [] ++ [.start 0, .getKeyed 1 false, .join 1, .setKeyed 0 true, .finish 0]

end Sample

theorem sample_read_is_fresh :
    ∃ last, feed (step Sample.query) Sample.state Sample.refreshed = some last ∧ Final last :=
  ⟨_, rfl, invalidation_is_final Sample.query Sample.state _ Sample.initial Sample.refreshed (by decide) rfl⟩

/-- A read that starts after `Del` has returned finds the rows of before the
commit, or is handed them by a fetch that was in flight. -/
theorem old_rows_survive_the_invalidation :
    (∃ last, feed (step Sample.query) Sample.state Sample.storedAfter = some last ∧ ¬ Final last) ∧
      ∃ last, feed (step Sample.query) Sample.state Sample.joinedAfter = some last ∧ ¬ Final last := by
  refine ⟨⟨_, rfl, fun final => ?_⟩, _, rfl, fun final => ?_⟩
  all_goals exact Bool.noConfusion (final ⟨0, true, .returned (some false)⟩ (.tail _ (.head _)) rfl false rfl)

end Gofi.Sqln.CachedReads
