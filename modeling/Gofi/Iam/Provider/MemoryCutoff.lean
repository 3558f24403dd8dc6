import Gofi.Iam.CutoffStore
import Gofi.Iam.Provider.MemoryStore

/-! The memory provider records a cut-off and reads it under one lock. -/

namespace Gofi.Iam.Memory

open Gofi.Concurrent Gofi.Go

def Records : (op : Op) → atoms.Ans op → Str → Time → Prop
  | .revokeAll recorded, now => fun userID cutoff => recorded = userID ∧ now = cutoff
  | _, _ => fun _ _ => False

variable {withTTL : Bool} {a : LocalAuth} {first σ after : State ((backend withTTL).system a)}

theorem responded_of_answer (op : Op) (ans : atoms.Ans op) {luck : Unit}
    (answered : ((backend withTTL).system a).respond name σ.world (.inr op) luck = some (ans, after.world)) :
    respond σ.clock σ.store op = some (ans, after.store) ∧ after.clock = σ.clock := by
  obtain ⟨later, responded, world⟩ := Backend.answer_inr (b := backend withTTL) op answered
  exact ⟨responded.trans (by rw [State.store, world]), by rw [State.clock, world]⟩

structure Remembers (userID : Str) (cutoff : Time) (σ : State ((backend withTTL).system a)) : Prop where
  stored : cutoff ≤ (view withTTL).cutoff σ.store userID
  past : cutoff ≤ σ.clock.time
  positive : 0 < cutoff

theorem Remembers.moved (holds : Remembers userID cutoff σ) (moved : State.Moved σ move after) :
    Remembers userID cutoff after := by
  refine ⟨?_, holds.past.trans (Backend.moved_frame moved).1, holds.positive⟩
  cases Backend.effect moved with
  | still same => exact same ▸ holds.stored
  | chore did => exact holds.stored.trans (le_of_eq (congrFun (chore_keeps did).2 userID).symm)
  | acted _ _ responded =>
    rcases respond_revokedBefore responded userID with same | ⟨_, now⟩
    · exact holds.stored.trans (le_of_eq same.symm)
    · exact holds.past.trans (le_of_eq now.symm)

theorem remembers (start : (view withTTL).Start first)
    (run : Reach Guard.none first σ) (found : σ.threads name = some thread)
    (did : thread.Did op (Script.did atoms (.revokeAll userID) cutoff)) : Remembers userID cutoff σ := by
  refine run.facts (fun _ => True) (fun σ _ _ event => ∀ userID (cutoff : Time),
    event = Script.did atoms (.revokeAll userID) cutoff → Remembers userID cutoff σ)
    (fun name _ => start.quiet name) (fun _ _ _ _ _ _ fact => fact) ?_ ?_ found trivial _ _ did userID cutoff rfl
  · rintro σ other thread op trail choose event after - - - moved - - answered userID cutoff rfl
    obtain ⟨responded, clock⟩ := responded_of_answer (.revokeAll userID) cutoff answered
    obtain ⟨now, stored⟩ := Prod.mk.inj (Option.some.inj responded)
    refine ⟨?_, ?_, ?_⟩
    · rw [← stored, ← now]
      simp [view, Store.revokeAll]
    · rw [clock, ← now]
    · exact now ▸ σ.clock.positive
  · rintro σ move after thread op event - - moved fact userID cutoff rfl
    exact (fact userID cutoff rfl).moved moved

def cutoffStore (withTTL : Bool) : CutoffStore (sessionStore withTTL) where
  Records := Records
  Orderly _ _ := Guard.none
  recorded userID := (impl_meets withTTL (.revokeAllForUser userID)).mono (fun _ _ _ => trivial) fun trail r tells _ =>
    by
    obtain ⟨now, did⟩ := tells
    exact ⟨_, _, now, did, rfl, rfl⟩
  remembers {a first middle last userID recorder name thread reader op atom ans cutoff seen} start before found did
      records after absent present read := by
    cases atom with
    | revokeAll owner =>
      obtain ⟨rfl, same⟩ := records
      subst same
      have recorded := remembers start before found did
      obtain ⟨trail, sound, inside⟩ := Thread.visited read
      have looked := inside _ ((impl_meets withTTL (.revokedBefore owner)).along sound seen rfl)
      refine .inl (after.facts (fun name => middle.threads name = none) (fun _ _ _ event => ∀ seen : Time,
        event = Script.did atoms (.cutoff owner) seen → ans ≤ seen ∧ seen ≠ 0)
        (fun _ absent => absent) (fun _ _ _ _ _ _ fact => fact) ?_ ?_ present absent _ _ looked seen rfl)
      · rintro σ other thread op trail choose event later reached - - moved - - answered seen rfl
        have holds : Remembers owner ans σ := reached.invariant (Remembers owner ans) recorded
          fun _ _ _ _ holds _ moved => holds.moved moved
        obtain ⟨responded, _⟩ := responded_of_answer (.cutoff owner) seen answered
        have same : (view withTTL).cutoff σ.store owner = seen := (Prod.mk.inj (Option.some.inj responded)).1
        rw [← same]
        exact ⟨holds.stored, (holds.positive.trans_le holds.stored).ne'⟩
      · rintro σ move after thread op event - - - fact seen rfl
        exact fact seen rfl
    | _ => cases records

end Gofi.Iam.Memory
