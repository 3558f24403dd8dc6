import Gofi.Session.Locks

/-! What a step can do, and what it keeps: tokens are held by one call each, and a call
in its critical section holds its lock. -/

namespace Gofi.Session

open Gofi.Go Gofi.Concurrent

namespace System

variable {cfg : Config}

def Alive (m : System) (key : Str) : Prop :=
  ∃ entry expires, m.store key = some ⟨.entry entry, expires⟩ ∧
    expires.all (m.clock < ·) = true ∧ m.isExpired entry = false

variable {m : System}

theorem find_of_alive (stored : m.store key = some item) (lives : item.expires.all (m.clock < ·) = true) :
    m.find key = some item := by
  simp [find, stored, lives]

theorem store_of_find (found : m.find key = some item) :
    m.store key = some item ∧ item.expires.all (m.clock < ·) = true := by
  obtain ⟨stored, lives⟩ := Option.filter_eq_some_iff.mp found
  exact ⟨stored, lives⟩

theorem store_of_getEntry (got : m.getEntry key = .ok (some entry)) :
    ∃ expires, m.store key = some ⟨.entry entry, expires⟩ ∧ expires.all (m.clock < ·) = true := by
  unfold getEntry at got
  split at got
  · simp at got
  · rename_i found
    cases got
    exact ⟨_, store_of_find found⟩
  · simp at got

private theorem getEntry_of_alive (stored : m.store key = some ⟨.entry entry, expires⟩)
    (lives : expires.all (m.clock < ·) = true) : m.getEntry key = .ok (some entry) := by
  rw [getEntry, find_of_alive stored lives]

/-- How the stage of a call goes on while Redis stays as it is. -/
inductive Follows (cfg : Config) (m : System) (job : Job) : Stage → Stage → Prop where
  | found (gets : job = .createOrGet key) (got : m.getEntry key = .ok (some entry))
      (current : m.isExpired entry = false) :
      Follows cfg m job (.inside token acquired) (.leaving token (some entry))
  | ends : Follows cfg m job (.inside token acquired) (.leaving token none)
  | makes (absent : ∀ key, job = .createOrGet key → ¬ m.Alive key) :
      Follows cfg m job (.inside token acquired) (.saving token acquired (m.newEntry cfg))
  | fails : Follows cfg m job (.saving token acquired entry) (.leaving token none)
  | leaves : Follows cfg m job (.leaving token result) (.left result)

inductive Does (cfg : Config) (m : System) : Move → System → Prop where
  | starts (job : Job) : Does cfg m (.starts job) { m with calls := ⟨job, .waiting⟩ :: m.calls }
  | acquires (placed : m.calls[place]? = some ⟨job, .waiting⟩) (free : m.find (cfg.lockOf job) = none) :
      Does cfg m (.acquires place) ((m.takeLock cfg job).goOn place ⟨job, .inside m.fresh m.clock⟩)
  | loses (placed : m.calls[place]? = some ⟨job, .waiting⟩) (free : m.find (cfg.lockOf job) = none) :
      Does cfg m (.loses place) ((m.takeLock cfg job).gone place)
  | waits : Does cfg m (.acquires place) m
  | goesOn (ids : Nat) (placed : m.calls[place]? = some ⟨job, stage⟩) (follows : Follows cfg m job stage later) :
      Does cfg m move { m.goOn place ⟨job, later⟩ with ids := ids }
  | saves (placed : m.calls[place]? = some ⟨job, .saving token acquired entry⟩) (under : job.entryKey = some key)
      (result : Option Entry) (own : ∀ answer, result = some answer → answer = entry)
      (which : move = .saves place ∨ move = .saveLost place) :
      Does cfg m move ((m.save cfg key entry).goOn place ⟨job, .leaving token result⟩)
  | releases (placed : m.calls[place]? = some ⟨job, .leaving token result⟩) :
      Does cfg m (.releases place) (m.releaseLock cfg job token)
  | gone (placed : m.calls[place]? = some call) : Does cfg m move (m.gone place)
  | returns (placed : m.calls[place]? = some ⟨.createOrGet key, .left (some entry)⟩) :
      Does cfg m (.returns place) { m.gone place with returns := (key, entry) :: m.returns }
  | deletes (key : Str) : Does cfg m (.deletes key) (m.write key none)
  | passes (time : Nat) : Does cfg m (.passes time) { m with clock := m.clock + time }

theorem not_alive_of_getEntry (got : m.getEntry key = .ok answer)
    (old : ∀ entry, answer = some entry → m.isExpired entry = true) : ¬ m.Alive key := by
  rintro ⟨entry, expires, stored, lives, current⟩
  cases (getEntry_of_alive stored lives).symm.trans got
  cases current.symm.trans (old entry rfl)

private theorem does_of_acquires (stepped : m.step cfg (.acquires place) = some next) :
    Does cfg m (.acquires place) next := by
  simp only [step] at stepped
  split at stepped
  · rename_i job placed
    split at stepped <;> cases stepped
    · rename_i free
      exact .acquires placed free
    · exact .gone placed
    · exact .waits
  · cases stepped

private theorem does_of_loses (stepped : m.step cfg (.loses place) = some next) : Does cfg m (.loses place) next := by
  simp only [step] at stepped
  split at stepped
  · rename_i job placed
    split at stepped <;> cases stepped
    · rename_i free
      exact .loses placed free
    · exact .gone placed
  · cases stepped

private theorem does_of_reads (stepped : m.step cfg (.reads place) = some next) : Does cfg m (.reads place) next := by
  simp only [step] at stepped
  split at stepped
  · rename_i key token acquired placed
    split at stepped
    · cases stepped
      exact .goesOn m.ids placed .ends
    · rename_i entry got
      split at stepped <;> cases stepped
      · rename_i old
        refine .goesOn _ placed (.makes ?_)
        rintro _ ⟨⟩
        exact not_alive_of_getEntry got (by rintro _ ⟨⟩; exact old)
      · rename_i old
        exact .goesOn m.ids placed (.found rfl got (by simpa using old))
    · rename_i got
      cases stepped
      refine .goesOn _ placed (.makes ?_)
      rintro _ ⟨⟩
      exact not_alive_of_getEntry got nofun
  · rename_i key token acquired placed
    cases stepped
    exact .goesOn _ placed (.makes fun _ same => nomatch same)
  · cases stepped

private theorem does_of_saves (stepped : m.step cfg (.saves place) = some next) : Does cfg m (.saves place) next := by
  simp only [step] at stepped
  split at stepped
  · rename_i job token acquired entry placed
    split at stepped <;> cases stepped
    rename_i key under
    exact .saves placed under _ (fun _ same => (Option.some.inj same).symm) (.inl rfl)
  · cases stepped

private theorem does_of_saveLost (stepped : m.step cfg (.saveLost place) = some next) :
    Does cfg m (.saveLost place) next := by
  simp only [step] at stepped
  split at stepped
  · rename_i job token acquired entry placed
    split at stepped <;> cases stepped
    rename_i key under
    exact .saves placed under none (fun _ same => nomatch same) (.inr rfl)
  · cases stepped

theorem does_of_step (stepped : m.step cfg move = some next) : Does cfg m move next := by
  cases move with
  | acquires place => exact does_of_acquires stepped
  | loses place => exact does_of_loses stepped
  | reads place => exact does_of_reads stepped
  | saves place => exact does_of_saves stepped
  | saveLost place => exact does_of_saveLost stepped
  | starts job =>
    simp only [step] at stepped
    split at stepped <;> cases stepped
    exact .starts job
  | gives place =>
    simp only [step] at stepped
    split at stepped <;> cases stepped
    rename_i placed
    exact .gone placed
  | readFails place | ends place =>
    simp only [step] at stepped
    split at stepped <;> cases stepped
    rename_i placed
    exact .goesOn m.ids placed .ends
  | saveFails place =>
    simp only [step] at stepped
    split at stepped <;> cases stepped
    rename_i placed
    exact .goesOn m.ids placed .fails
  | releases place =>
    simp only [step] at stepped
    split at stepped <;> cases stepped
    rename_i placed
    exact .releases placed
  | leaves place =>
    simp only [step] at stepped
    split at stepped <;> cases stepped
    rename_i placed
    exact .goesOn m.ids placed .leaves
  | returns place =>
    simp only [step] at stepped
    split at stepped <;> cases stepped
    · rename_i placed
      exact .returns placed
    · rename_i placed
      exact .gone placed
  | deletes key => cases stepped; exact .deletes key
  | passes time => cases stepped; exact .passes time

end System

def Call.tokens (call : Call) : List Nat :=
  match call.stage with
  | .inside token _ | .saving token _ _ | .leaving token _ => [token]
  | _ => []

def Call.within (call : Call) : Option (Nat × Time) :=
  match call.stage with
  | .inside token acquired | .saving token acquired _ => some (token, acquired)
  | _ => none

theorem Call.token_of_within {call : Call} (within : call.within = some (token, acquired)) : token ∈ call.tokens := by
  rcases call with ⟨job, _ | _ | _ | _ | _⟩ <;> simp_all [Call.within, Call.tokens]

namespace System

variable {cfg : Config}

@[simp] theorem save_calls (m : System) : (m.save cfg key entry).calls = m.calls := rfl
@[simp] theorem save_clock (m : System) : (m.save cfg key entry).clock = m.clock := rfl
@[simp] theorem save_fresh (m : System) : (m.save cfg key entry).fresh = m.fresh := rfl
@[simp] theorem save_returns (m : System) : (m.save cfg key entry).returns = m.returns := rfl

@[simp] theorem releaseLock_calls (m : System) : (m.releaseLock cfg job token).calls = m.calls := by
  unfold releaseLock; split <;> rfl
@[simp] theorem releaseLock_fresh (m : System) : (m.releaseLock cfg job token).fresh = m.fresh := by
  unfold releaseLock; split <;> rfl
@[simp] theorem releaseLock_returns (m : System) : (m.releaseLock cfg job token).returns = m.returns := by
  unfold releaseLock; split <;> rfl

structure Tokens (m : System) : Prop where
  apart : (m.calls.flatMap Call.tokens).Nodup
  made : ∀ token ∈ m.calls.flatMap Call.tokens, token < m.fresh

variable {m : System}

theorem Follows.tokens (follows : Follows cfg m job stage later) :
    (⟨job, later⟩ : Call).tokens = [] ∨ (⟨job, later⟩ : Call).tokens = (⟨job, stage⟩ : Call).tokens := by
  cases follows <;> simp [Call.tokens]

theorem Tokens.keeps (sound : Tokens m) (placed : m.calls[place]? = some call)
    (fewer : later.tokens = [] ∨ later.tokens = call.tokens) (calls : next.calls = later :: m.calls.eraseIdx place)
    (fresh : next.fresh = m.fresh) : Tokens next := by
  have same := (eraseIdx_perm placed).flatMap_right Call.tokens
  have apart := same.nodup_iff.mpr sound.apart
  have made : ∀ token ∈ (call :: m.calls.eraseIdx place).flatMap Call.tokens, token < m.fresh := fun token member =>
    sound.made token (same.mem_iff.mp member)
  refine ⟨?_, ?_⟩ <;> rw [calls, List.flatMap_cons]
  · rcases fewer with none | all
    · rw [none]
      exact (List.nodup_append.mp apart).2.1
    · rwa [all]
  · intro token member
    rw [fresh]
    refine made token ?_
    rcases fewer with none | all
    · rw [none] at member
      exact List.mem_append_right _ member
    · rwa [all] at member

theorem Tokens.drops (sound : Tokens m) (placed : m.calls[place]? = some call)
    (calls : next.calls = m.calls.eraseIdx place) (fresh : m.fresh ≤ next.fresh) : Tokens next := by
  have dropped : Tokens (m.goOn place ⟨call.job, .waiting⟩) := sound.keeps placed (.inl rfl) rfl rfl
  refine ⟨?_, ?_⟩ <;> rw [calls]
  · simpa [Call.tokens] using dropped.apart
  · intro token member
    have below : token < m.fresh := dropped.made token (by simpa [Call.tokens] using member)
    omega

theorem Tokens.step (sound : Tokens m) (does : Does cfg m move next) : Tokens next := by
  cases does with
  | starts => exact ⟨sound.apart, sound.made⟩
  | @acquires place job placed free =>
    have dropped : Tokens (m.goOn place ⟨job, .waiting⟩) := sound.keeps placed (.inl rfl) rfl rfl
    refine ⟨?_, ?_⟩
    · refine List.nodup_cons.mpr ⟨fun member => ?_, dropped.apart⟩
      exact Nat.lt_irrefl _ (dropped.made _ member)
    · intro token member
      rcases List.mem_cons.mp member with rfl | member
      · exact Nat.lt_succ_self _
      · exact Nat.lt_succ_of_lt (dropped.made token member)
  | loses placed => exact sound.drops placed rfl (Nat.le_succ _)
  | waits => exact sound
  | goesOn ids placed follows => exact sound.keeps placed follows.tokens rfl rfl
  | saves placed =>
    refine sound.keeps placed ?_ rfl rfl
    exact .inr rfl
  | releases placed => exact ⟨by simpa using sound.apart, by simpa using sound.made⟩
  | gone placed | returns placed => exact sound.drops placed rfl (Nat.le_refl _)
  | deletes | passes => exact ⟨sound.apart, sound.made⟩

theorem Tokens.new : Tokens .new := ⟨List.nodup_nil, fun _ member => nomatch member⟩

variable {call : Call} {i j : Nat}

theorem Tokens.same_place {other : Call} (sound : Tokens m) (first : m.calls[i]? = some call)
    (second : m.calls[j]? = some other) (here : token ∈ call.tokens) (there : token ∈ other.tokens) : i = j := by
  obtain ⟨inside, rfl⟩ := List.getElem?_eq_some_iff.mp first
  obtain ⟨within, rfl⟩ := List.getElem?_eq_some_iff.mp second
  have disjoint := List.pairwise_iff_getElem.mp (List.nodup_flatMap.mp sound.apart).2
  rcases Nat.lt_trichotomy i j with before | same | after
  · exact absurd there (disjoint i j inside within before here)
  · exact same
  · exact absurd here (disjoint j i within inside after there)

theorem releaseLock_keeps (other : (m.find key).map Item.value ≠ some (.token token)) :
    (m.releaseLock cfg job token).find key = m.find key := by
  unfold releaseLock
  split
  · rename_i own
    have apart : key ≠ cfg.lockOf job := by
      rintro rfl
      exact other own
    rw [find, write_clock, show (m.write (cfg.lockOf job) none).store key = m.store key from if_neg apart, find]
  · rfl

/-- No key of an entry looks like the key of a lock, and time goes on only while every
critical section can end before its lock expires. -/
def Orderly (cfg : Config) (m : System) : Move → Prop
  | .starts job => ∀ key ∈ job.entryKey, ¬ ascii "lock:" <+: key
  | .deletes key => ¬ ascii "lock:" <+: key
  | .passes time => ∀ call ∈ m.calls, ∀ held ∈ call.within, m.clock + time < held.2 + cfg.lockFor
  | _ => True

instance (m : System) : (move : Move) → Decidable (Orderly cfg m move)
  | .starts job => inferInstanceAs (Decidable (∀ key ∈ job.entryKey, ¬ ascii "lock:" <+: key))
  | .deletes key => inferInstanceAs (Decidable (¬ ascii "lock:" <+: key))
  | .passes time =>
    inferInstanceAs (Decidable (∀ call ∈ m.calls, ∀ held ∈ call.within, m.clock + time < held.2 + cfg.lockFor))
  | .acquires _ | .loses _ | .gives _ | .reads _ | .readFails _ | .saves _ | .saveFails _ | .saveLost _ | .ends _
  | .releases _ | .leaves _ | .returns _ => .isTrue trivial

/-- A call in its critical section has its lock, which has not expired. -/
def Holds (cfg : Config) (m : System) (call : Call) : Prop :=
  ∀ held ∈ call.within, m.store (cfg.lockOf call.job) = some ⟨.token held.1, some (held.2 + cfg.lockFor)⟩ ∧
    m.clock < held.2 + cfg.lockFor

structure Guarded (cfg : Config) (m : System) : Prop where
  tokens : Tokens m
  named : ∀ call ∈ m.calls, ∀ key ∈ call.job.entryKey, ¬ ascii "lock:" <+: key
  holds : ∀ call ∈ m.calls, Holds cfg m call

private theorem px_pos {ttl : Duration} (positive : 0 < ttl) : 0 < Redis.px ttl := by
  unfold Redis.px
  split
  · decide
  · rename_i long
    have whole : Time.millisecond ≤ ttl := Int.not_lt.mp fun short => long ⟨positive, short⟩
    rw [Int.tdiv_eq_ediv_of_nonneg (Int.le_of_lt positive)]
    exact Int.lt_of_lt_of_le Int.one_pos ((Int.le_ediv_iff_mul_le (by decide)).mpr (by simpa using whole))

private theorem lockFor_pos : 0 < cfg.lockFor := by
  have positive : 0 < if cfg.lockTTL ≤ 0 then 10 * Time.second else cfg.lockTTL := by
    split
    · decide
    · rename_i above
      exact Int.not_le.mp above
  exact Int.mul_pos (px_pos positive) (by decide)

private theorem lockOf_named (job : Job) : ascii "lock:" <+: cfg.lockOf job := by
  cases job <;> exact List.prefix_append _ _

theorem Holds.frame (holds : Holds cfg m call)
    (store : next.store (cfg.lockOf call.job) = m.store (cfg.lockOf call.job)) (clock : next.clock = m.clock) :
    Holds cfg next call := by
  intro held within
  rw [store, clock]
  exact holds held within

theorem Holds.found (holds : Holds cfg m call) (within : call.within = some held) :
    m.find (cfg.lockOf call.job) = some ⟨.token held.1, some (held.2 + cfg.lockFor)⟩ := by
  obtain ⟨stored, early⟩ := holds held within
  exact find_of_alive stored (by simpa using early)

theorem Holds.other (holds : Holds cfg m call) (free : m.find key = none) (clock : next.clock = m.clock)
    (store : ∀ other, other ≠ key → next.store other = m.store other) : Holds cfg next call := by
  intro held within
  have apart : cfg.lockOf call.job ≠ key := by
    rintro rfl
    cases (holds.found within).symm.trans free
  exact holds.frame (store _ apart) clock held within

theorem Holds.unnamed (holds : Holds cfg m call) (unnamed : ¬ ascii "lock:" <+: key) :
    Holds cfg (m.write key item) call := by
  refine holds.frame (if_neg ?_) rfl
  rintro rfl
  exact unnamed (lockOf_named _)

theorem Follows.within (follows : Follows cfg m job stage later) :
    (⟨job, later⟩ : Call).within = none ∨ (⟨job, later⟩ : Call).within = (⟨job, stage⟩ : Call).within := by
  cases follows <;> simp [Call.within]

theorem Tokens.released {place : Nat} (tokens : Tokens m)
    (placed : m.calls[place]? = some ⟨job, .leaving token result⟩) (member : call ∈ m.calls)
    (holds : Holds cfg m call) : Holds cfg (m.releaseLock cfg job token) call := by
  unfold releaseLock
  split
  · rename_i own
    intro held within
    have apart : cfg.lockOf call.job ≠ cfg.lockOf job := ?_
    · have kept : Holds cfg (m.write (cfg.lockOf job) none) call := holds.frame (if_neg apart) rfl
      exact kept held within
    intro same
    -- the lock would have the token of the releasing call, which is in no critical section
    rw [← same, holds.found within] at own
    obtain ⟨there, second⟩ := List.mem_iff_getElem?.mp member
    have shared : token ∈ call.tokens := by
      cases own
      exact Call.token_of_within within
    have one := tokens.same_place placed second (List.mem_singleton_self token) shared
    subst one
    cases placed.symm.trans second
    simp [Call.within] at within
  · exact holds

theorem Guarded.holds_step (sound : Guarded cfg m) (orderly : Orderly cfg m move)
    (does : Does cfg m move next) : ∀ call ∈ next.calls, Holds cfg next call := by
  have old : ∀ {place call}, call ∈ m.calls.eraseIdx place → Holds cfg m call := fun member =>
    sound.holds _ (List.mem_of_mem_eraseIdx member)
  intro call member
  cases does with
  | starts job =>
    rcases List.mem_cons.mp member with rfl | member
    · simp [Holds, Call.within]
    · exact sound.holds call member
  | @acquires place job placed free =>
    rcases List.mem_cons.mp member with rfl | member
    · intro held within
      cases within
      exact ⟨if_pos rfl, Int.lt_add_of_pos_right _ lockFor_pos⟩
    · exact (old member).other free rfl fun other apart => if_neg apart
  | loses placed free => exact (old member).other free rfl fun other apart => if_neg apart
  | waits => exact sound.holds call member
  | goesOn ids placed follows =>
    rcases List.mem_cons.mp member with rfl | member
    · intro held within
      rcases follows.within with out | same
      · cases out.symm.trans within
      · exact sound.holds _ (List.mem_of_getElem? placed) held (same ▸ within)
    · exact (old member).frame rfl rfl
  | saves placed under =>
    rcases List.mem_cons.mp member with rfl | member
    · simp [Holds, Call.within]
    · exact (old member).unnamed (sound.named _ (List.mem_of_getElem? placed) _ under)
  | releases placed =>
    have before : call ∈ m.calls := by simpa using member
    exact sound.tokens.released placed before (sound.holds call before)
  | gone placed | returns placed => exact (old member).frame rfl rfl
  | deletes key => exact (sound.holds call member).unnamed orderly
  | passes time =>
    intro held within
    exact ⟨(sound.holds call member held within).1, orderly call member held within⟩

theorem Guarded.named_step (sound : Guarded cfg m) (orderly : Orderly cfg m move)
    (does : Does cfg m move next) : ∀ call ∈ next.calls, ∀ key ∈ call.job.entryKey, ¬ ascii "lock:" <+: key := by
  have old : ∀ {place call}, call ∈ m.calls.eraseIdx place → ∀ key ∈ call.job.entryKey, ¬ ascii "lock:" <+: key :=
    fun member => sound.named _ (List.mem_of_mem_eraseIdx member)
  intro call member
  cases does with
  | starts job =>
    rcases List.mem_cons.mp member with rfl | member
    · exact orderly
    · exact sound.named call member
  | acquires placed | goesOn ids placed | saves placed =>
    rcases List.mem_cons.mp member with rfl | member
    · have before := sound.named _ (List.mem_of_getElem? placed)
      exact before
    · exact old member
  | waits | deletes | passes => exact sound.named call member
  | loses placed | gone placed | returns placed => exact old member
  | releases placed =>
    rw [releaseLock_calls] at member
    exact sound.named call member

theorem Guarded.step (sound : Guarded cfg m) (orderly : Orderly cfg m move)
    (does : Does cfg m move next) : Guarded cfg next :=
  ⟨sound.tokens.step does, sound.named_step orderly does, sound.holds_step orderly does⟩

theorem Guarded.new : Guarded cfg .new :=
  ⟨.new, (fun _ member => nomatch member), (fun _ member => nomatch member)⟩

theorem Guarded.one_section {other : Call} (sound : Guarded cfg m)
    (first : m.calls[i]? = some call) (second : m.calls[j]? = some other) (here : call.within.isSome)
    (there : other.within.isSome)
    (same : cfg.lockOf call.job = cfg.lockOf other.job) : i = j := by
  obtain ⟨held, within⟩ := Option.isSome_iff_exists.mp here
  obtain ⟨too, also⟩ := Option.isSome_iff_exists.mp there
  have found := (sound.holds call (List.mem_of_getElem? first)).found within
  rw [same, (sound.holds other (List.mem_of_getElem? second)).found also] at found
  have shared : too.1 = held.1 := by simpa using congrArg (Option.map Item.value) found
  refine sound.tokens.same_place first second (Call.token_of_within within) ?_
  rw [← shared]
  exact Call.token_of_within also

end System

end Gofi.Session
