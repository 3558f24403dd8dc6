import Gofi.Go.Text

/-! `sqln/manager_cache.go`: the memory of the results that coalesced callers of one query get. -/

namespace Gofi.Sqln.SharedResults

open Gofi.Go

/-- A part of a value: text and numbers are never written in place, a reference leads to memory that is. -/
inductive Word where
  | plain (value : Str)
  | ref (address : Nat)

abbrev Memory := List (List Word)

inductive Kind where
  | list
  | unique
  | page

def Memory.read (m : Memory) (address : Nat) : List Word := m.getD address []

def copy (m : Memory) (address : Nat) : Memory × Nat := (m ++ [m.read address], m.length)

/-- The content is the first word of a page. -/
def clonePage (m : Memory) (p : Nat) : Memory × Nat :=
  match m.read p with
  | .ref content :: totals => (m ++ [m.read content, .ref m.length :: totals], m.length + 1)
  | words => (m ++ [words], m.length)

def clone : Kind → Memory → Nat → Memory × Nat
  | .list | .unique => copy
  | .page => clonePage

/-- What `fetch` leaves: the rows, and for a page its own object before them. -/
def fetched (kind : Kind) (totals : List Str) (rows : List Word) (m : Memory) : Memory × Nat :=
  match kind with
  | .list | .unique => (m ++ [rows], m.length)
  | .page => (m ++ [rows, .ref m.length :: totals.map .plain], m.length + 1)

/-- Once a result is shared, every caller gets a clone of it. -/
def clones (kind : Kind) (m : Memory) (root : Nat) : Nat → Memory × List Nat
  | 0 => (m, [])
  | callers + 1 =>
    let (m, others) := clones kind m root callers
    let (m, mine) := clone kind m root
    (m, mine :: others)

def dedup (kind : Kind) (fetched : Memory × Nat) (callers : Nat) : Memory × List Nat :=
  if callers = 1 then (fetched.1, [fetched.2]) else clones kind fetched.1 fetched.2 callers

inductive Reaches (m : Memory) (root : Nat) : Nat → Prop where
  | root : Reaches m root root
  | next (before : Reaches m root middle) (leads : .ref address ∈ m.read middle) : Reaches m root address

def Separate : Memory × List Nat → Prop
  | (m, results) => results.Pairwise fun one other => ∀ address, Reaches m one address → ¬Reaches m other address

/-- The objects that a result has of its own, down to its rows. -/
inductive Owns (totals : List Str) (rows : List Word) (m : Memory) (kind : Kind) (root : Nat) : List Nat → Prop where
  | row (flat : kind ≠ .page) (read : m.read root = rows) : Owns totals rows m kind root [root]
  | page (paged : kind = .page) (read : m.read root = .ref content :: totals.map .plain)
      (held : m.read content = rows) : Owns totals rows m kind root [root, content]

variable {totals : List Str} {rows : List Word} {m : Memory}

theorem read_append (old : address < m.length) (added : Memory) :
    Memory.read (m ++ added) address = m.read address := by
  simp [Memory.read, List.getElem?_append_left old]

theorem Owns.grow (owns : Owns totals rows m kind root cells) (old : ∀ cell ∈ cells, cell < m.length)
    (added : Memory) :
    Owns totals rows (m ++ added) kind root cells := by
  cases owns with
  | row flat read => exact .row flat ((read_append (old _ (by simp)) added).trans read)
  | page paged read held =>
    exact .page paged ((read_append (old _ (by simp)) added).trans read)
      ((read_append (old _ (by simp)) added).trans held)

theorem Owns.mem_of_reaches (owns : Owns totals rows m kind root cells) (leaves : ∀ address, .ref address ∉ rows)
    (reaches : Reaches m root address) : address ∈ cells := by
  induction reaches with
  | root => cases owns <;> simp
  | next before leads ih =>
    cases owns with
    | row flat read =>
      obtain rfl := List.mem_singleton.mp ih
      exact absurd (read ▸ leads) (leaves _)
    | page paged read held =>
      obtain rfl | rfl := by simpa using ih
      · rw [read] at leads
        exact List.mem_cons_of_mem _ (by simpa using leads)
      · exact absurd (held ▸ leads) (leaves _)

theorem Owns.reaches (owns : Owns totals rows m kind root cells) (leads : .ref address ∈ rows) :
    Reaches m root address := by
  cases owns with
  | row flat read => exact .next .root (read ▸ leads)
  | page paged read held => exact .next (.next .root (read ▸ List.mem_cons_self ..)) (held ▸ leads)

/-- A clone is what fetching the same rows once more would leave. -/
theorem Owns.clone (owns : Owns totals rows m kind root cells) : clone kind m root = fetched kind totals rows m := by
  cases owns with
  | row flat read => cases kind <;> simp_all [SharedResults.clone, copy, fetched]
  | page paged read held => simp [paged, SharedResults.clone, clonePage, fetched, read, held]

theorem fetched_owns (kind : Kind) (totals : List Str) (rows : List Word) (m : Memory) : ∃ added root cells,
    fetched kind totals rows m = (m ++ added, root) ∧ Owns totals rows (m ++ added) kind root cells ∧
      ∀ cell ∈ cells, m.length ≤ cell ∧ cell < (m ++ added).length := by
  cases kind with
  | list | unique => exact ⟨[rows], m.length, [m.length], rfl, .row nofun (by simp [Memory.read]), by simp⟩
  | page => exact ⟨[rows, _], m.length + 1, [_, m.length], rfl,
    .page rfl (by simp [Memory.read]) (by simp [Memory.read]), by simp⟩

/-- The clones with the objects of each, none of which is of another. -/
theorem Owns.clones (owns : Owns totals rows m kind root cells) (old : ∀ cell ∈ cells, cell < m.length)
    (callers : Nat) :
    ∃ (added : Memory) (owned : List (Nat × List Nat)),
      clones kind m root callers = (m ++ added, owned.map Prod.fst) ∧
      (∀ one ∈ owned, Owns totals rows (m ++ added) kind one.1 one.2 ∧ ∀ cell ∈ one.2, cell < (m ++ added).length) ∧
      owned.Pairwise fun one other => ∀ cell ∈ one.2, cell ∉ other.2 := by
  induction callers with
  | zero => exact ⟨[], [], by simp [SharedResults.clones], by simp, .nil⟩
  | succ callers ih =>
    obtain ⟨added, owned, made, each, apart⟩ := ih
    obtain ⟨more, mine, own, grown, has, fresh⟩ := fetched_owns kind totals rows (m ++ added)
    rw [← (owns.grow old added).clone] at grown
    rw [List.append_assoc] at *
    refine ⟨added ++ more, (mine, own) :: owned, ?_, ?_, .cons ?_ apart⟩
    · simp [SharedResults.clones, made, grown]
    · rintro one (_ | ⟨_, earlier⟩)
      · exact ⟨has, fun cell among => (fresh cell among).2⟩
      · obtain ⟨holds, below⟩ := each one earlier
        rw [← List.append_assoc]
        exact ⟨holds.grow below more, fun cell among => (below cell among).trans_le (by simp)⟩
    · intro other earlier cell among shared
      exact absurd ((each other earlier).2 cell shared) (Nat.not_lt.mpr (fresh cell among).1)

/-- The copies are one level deep: callers share whatever the rows refer to. -/
theorem coalesced_results_separate_iff (kind : Kind) (totals : List Str) (rows : List Word) (m : Memory) :
    (∀ callers, Separate (dedup kind (fetched kind totals rows m) callers)) ↔ ∀ address, .ref address ∉ rows := by
  obtain ⟨first, root, cells, left, owns, fresh⟩ := fetched_owns kind totals rows m
  have old (cell) (among : cell ∈ cells) := (fresh cell among).2
  rw [left]
  constructor
  · intro separate address leads
    obtain ⟨added, owned, made, each, -⟩ := owns.clones old 2
    have apart := separate 2
    rw [dedup, if_neg (by decide), made] at apart
    have two : owned.length = 2 := by simpa [clones] using (congrArg (·.2.length) made).symm
    obtain ⟨one, other, rfl⟩ := List.length_eq_two.mp two
    refine (List.pairwise_cons.mp apart).1 _ List.mem_cons_self address ?_ ?_
    · exact (each one (by simp)).1.reaches leads
    · exact (each other (by simp)).1.reaches leads
  · intro leaves callers
    unfold dedup
    split
    · exact List.pairwise_singleton ..
    · obtain ⟨added, owned, made, each, apart⟩ := owns.clones old callers
      rw [made]
      refine List.pairwise_map.mpr (apart.imp_of_mem ?_)
      intro one other first second disjoint address reaches shared
      exact disjoint _ ((each one first).1.mem_of_reaches leaves reaches)
        ((each other second).1.mem_of_reaches leaves shared)

/-- One row with a slice field: its two callers can both write to the array behind it. -/
theorem nested_slice_is_shared : ∃ m one other, dedup .list (fetched .list [] [.ref 0] [[.plain (ascii "tag")]]) 2 =
      (m, [one, other]) ∧ one ≠ other ∧ Reaches m one 0 ∧ Reaches m other 0 :=
  ⟨_, _, _, rfl, by decide, .next .root (List.mem_singleton.mpr rfl), .next .root (List.mem_singleton.mpr rfl)⟩

end Gofi.Sqln.SharedResults
