import Gofi.Concurrent.Machine

/-! Calls that share one piece of work: the call that finds nothing going on does the
work, numbers it and closes its channel at the end, and the others wait for that. -/

namespace Gofi.Concurrent

/-- What a call has to do with the work: the number of that it does, while it keeps
others from starting one; that of the channel it will close; that of the channel it
waits for. -/
structure Roles (κ : Type) where
  runs : κ → Option Nat
  serves : κ → Option Nat
  waits : κ → Option Nat
  serves_of_runs : ∀ call serial, runs call = some serial → serves call = some serial

namespace Roles

variable {roles : Roles κ} {calls after : List κ} {pending : Option Nat} {fresh : Nat} {closed : List Nat}

/-- The numbers of the channels that are closed or will be. -/
def serials (roles : Roles κ) (calls : List κ) (closed : List Nat) : List Nat := calls.filterMap roles.serves ++ closed

/-- One call at most does the work, that of the number in `pending`, and every channel
that is waited for is closed or will be. -/
structure Flights (roles : Roles κ) (calls : List κ) (pending : Option Nat) (fresh : Nat) (closed : List Nat) :
    Prop where
  single : (calls.filterMap roles.runs).Perm pending.toList
  distinct : (roles.serials calls closed).Nodup
  below : ∀ serial ∈ roles.serials calls closed, serial < fresh
  served : ∀ call ∈ calls, ∀ serial, roles.waits call = some serial → serial ∈ roles.serials calls closed

theorem filterMap_eraseIdx {items : List α} (placed : items[place]? = some item) (f : α → Option β) :
    (items.filterMap f).Perm ((f item).toList ++ (items.eraseIdx place).filterMap f) := by
  have perm := (eraseIdx_perm placed).symm.filterMap f
  cases here : f item <;> simpa [here] using perm

namespace Flights

theorem new : roles.Flights [] none 0 [] := ⟨.nil, .nil, nofun, nofun⟩

theorem of_pending (flights : roles.Flights calls pending fresh closed) (same : pending = now) :
    roles.Flights calls now fresh closed := same ▸ flights

theorem serves_of_pending (flights : roles.Flights calls (some serial) fresh closed) :
    serial ∈ calls.filterMap roles.serves := by
  have runs : serial ∈ calls.filterMap roles.runs := flights.single.mem_iff.mpr (List.mem_singleton_self _)
  obtain ⟨call, member, same⟩ := List.mem_filterMap.mp runs
  exact List.mem_filterMap.mpr ⟨call, member, roles.serves_of_runs call serial same⟩

theorem open_of_pending (flights : roles.Flights calls (some serial) fresh closed) : serial ∉ closed :=
  fun member => (List.nodup_append.mp flights.distinct).2.2 _ flights.serves_of_pending _ member rfl

theorem length_le_one (flights : roles.Flights calls pending fresh closed) :
    (calls.filterMap roles.runs).length ≤ 1 := by
  rw [flights.single.length_eq]
  cases pending <;> simp

theorem others (flights : roles.Flights calls pending fresh closed) (placed : calls[place]? = some call)
    (runs : roles.runs call = some serial) : (calls.eraseIdx place).filterMap roles.runs = [] := by
  have length := (filterMap_eraseIdx placed roles.runs).length_eq
  have bound := flights.length_le_one
  rw [runs, List.length_append, Option.toList_some, List.length_singleton] at length
  exact List.eq_nil_of_length_eq_zero (by omega)

theorem of (flights : roles.Flights calls pending fresh closed) {now : Option Nat} {shut : List Nat}
    (single : (after.filterMap roles.runs).Perm now.toList)
    (same : (roles.serials after shut).Perm (roles.serials calls closed))
    (waits : ∀ call ∈ after, ∀ serial, roles.waits call = some serial →
      call ∈ calls ∨ serial ∈ roles.serials calls closed) : roles.Flights after now fresh shut := by
  refine ⟨single, same.nodup_iff.mpr flights.distinct, fun serial member => ?_, fun call member serial waiting => ?_⟩
  · exact flights.below serial (same.mem_iff.mp member)
  · refine same.mem_iff.mpr ?_
    rcases waits call member serial waiting with before | there
    · exact flights.served call before serial waiting
    · exact there

theorem arrives (flights : roles.Flights calls pending fresh closed) (runs : roles.runs call = none)
    (serves : roles.serves call = none) (waits : roles.waits call = none) :
    roles.Flights (call :: calls) pending fresh closed := by
  refine flights.of ?_ ?_ fun other member serial waiting => ?_
  · rw [List.filterMap_cons, runs]
    exact flights.single
  · rw [serials, List.filterMap_cons, serves]
    exact .refl _
  · rcases List.mem_cons.mp member with rfl | before
    · rw [waits] at waiting
      cases waiting
    · exact .inl before

theorem moves (flights : roles.Flights calls pending fresh closed) (placed : calls[place]? = some call)
    (next : List κ) (runs : next.filterMap roles.runs = (roles.runs call).toList)
    (serves : next.filterMap roles.serves = (roles.serves call).toList)
    (waits : ∀ call ∈ next, ∀ serial, roles.waits call = some serial → serial ∈ roles.serials calls closed) :
    roles.Flights (next ++ calls.eraseIdx place) pending fresh closed := by
  refine flights.of ?_ ?_ fun other member serial waiting => ?_
  · rw [List.filterMap_append, runs]
    exact (filterMap_eraseIdx placed roles.runs).symm.trans flights.single
  · rw [serials, List.filterMap_append, serves]
    exact (filterMap_eraseIdx placed roles.serves).symm.append_right _
  · rcases List.mem_append.mp member with new | kept
    · exact .inr (waits other new serial waiting)
    · exact .inl (List.mem_of_mem_eraseIdx kept)

theorem claims (flights : roles.Flights calls none fresh closed) (placed : calls[place]? = some call)
    (idle : roles.serves call = none) (next : κ) (runs : roles.runs next = some fresh)
    (waits : roles.waits next = none) :
    roles.Flights (next :: calls.eraseIdx place) (some fresh) (fresh + 1) closed := by
  have none := List.perm_nil.mp flights.single
  have rest : (calls.eraseIdx place).filterMap roles.runs = [] := by
    refine List.filterMap_eq_nil_iff.mpr fun other member => ?_
    exact List.filterMap_eq_nil_iff.mp none other (List.mem_of_mem_eraseIdx member)
  have same := filterMap_eraseIdx placed roles.serves
  rw [idle, Option.toList_none, List.nil_append] at same
  have added : (roles.serials (next :: calls.eraseIdx place) closed).Perm (fresh :: roles.serials calls closed) := by
    rw [serials, List.filterMap_cons, roles.serves_of_runs next fresh runs]
    exact (same.symm.append_right _).cons fresh
  refine ⟨?_, ?_, fun serial member => ?_, fun other member serial waiting => added.mem_iff.mpr ?_⟩
  · rw [List.filterMap_cons, runs, rest]
    exact .refl _
  · rw [added.nodup_iff, List.nodup_cons]
    exact ⟨fun member => absurd (flights.below _ member) (Nat.lt_irrefl _), flights.distinct⟩
  · rcases List.mem_cons.mp (added.mem_iff.mp member) with rfl | old
    · exact Nat.lt_succ_self _
    · exact Nat.lt_succ_of_lt (flights.below serial old)
  · rcases List.mem_cons.mp member with rfl | kept
    · rw [waits] at waiting
      cases waiting
    · exact List.mem_cons_of_mem _ (flights.served other (List.mem_of_mem_eraseIdx kept) serial waiting)

theorem releases (flights : roles.Flights calls pending fresh closed) (placed : calls[place]? = some call)
    (running : roles.runs call = some serial) (next : κ) (runs : roles.runs next = none)
    (serves : roles.serves next = roles.serves call) (waits : roles.waits next = none) :
    roles.Flights (next :: calls.eraseIdx place) none fresh closed := by
  refine flights.of ?_ ?_ fun other member serial waiting => ?_
  · rw [List.filterMap_cons, runs, flights.others placed running]
    exact .refl _
  · have cons : (next :: calls.eraseIdx place).filterMap roles.serves =
        (roles.serves call).toList ++ (calls.eraseIdx place).filterMap roles.serves := by
      rw [List.filterMap_cons, serves]
      cases roles.serves call <;> rfl
    rw [serials, cons]
    exact (filterMap_eraseIdx placed roles.serves).symm.append_right _
  · rcases List.mem_cons.mp member with rfl | kept
    · rw [waits] at waiting
      cases waiting
    · exact .inl (List.mem_of_mem_eraseIdx kept)

theorem closes (flights : roles.Flights calls pending fresh closed) (placed : calls[place]? = some call)
    (serves : roles.serves call = some serial) {now : Option Nat}
    (single : ((calls.eraseIdx place).filterMap roles.runs).Perm now.toList) :
    roles.Flights (calls.eraseIdx place) now fresh (serial :: closed) := by
  refine flights.of single ?_ fun other member _ _ => .inl (List.mem_of_mem_eraseIdx member)
  have same := filterMap_eraseIdx placed roles.serves
  rw [serves] at same
  exact List.perm_middle.trans (same.symm.append_right closed)

end Flights

end Roles

end Gofi.Concurrent
