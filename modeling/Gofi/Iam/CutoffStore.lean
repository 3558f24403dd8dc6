import Gofi.Iam.SessionStore

/-! What the service relies on in a store of revocation cut-offs: whoever reads
the user's cut-off after one was recorded reads one that is not older. -/

namespace Gofi.Iam

open Gofi.Concurrent Gofi.Go

/-- A session store that records cut-offs. `Records` tells which answers mean
that a cut-off was recorded. The laws hold in the runs that `Orderly` permits. -/
structure CutoffStore {b : Backend} (store : SessionStore b) where
  Records : (op : b.atoms.Op) → b.atoms.Ans op → Str → Time → Prop
  Orderly : (a : LocalAuth) → Str → Guard (b.system a)
  recorded : ∀ userID, (b.impl (.revokeAllForUser userID)).Meets (fun _ _ => True) (fun trail r => r = .ok () →
    ∃ atom ans cutoff, Script.did b.atoms atom ans ∈ trail ∧ Records atom ans userID cutoff) []
  /-- A call that starts after a cut-off was recorded reads no older one, unless
  it has seen the time pass a session's longest life after it. -/
  remembers : ∀ {a : LocalAuth} {first middle last : State (b.system a)} {userID : Str} {recorder name : Nat}
    {thread reader : Thread (b.system a)} {op : PortOp} {atom : b.atoms.Op} {ans : b.atoms.Ans atom}
      {cutoff seen : Time},
    store.Start first → Reach (Orderly a userID) first middle → middle.threads recorder = some thread →
    thread.Did op (Script.did b.atoms atom ans) → Records atom ans userID cutoff →
    Reach (Orderly a userID) middle last → middle.threads name = none → last.threads name = some reader →
    Answered.revokedBefore userID (.ok seen) ∈ reader.past → (cutoff ≤ seen ∧ seen ≠ 0) ∨
      ∃ id s clock, Answered.get id (.ok (some s)) ∈ reader.past ∧ clock ≤ s.expiresAt ∧
        cutoff + 90 * Time.day < clock

def CutoffStore.Recorded {b : Backend} {store : SessionStore b} (cutoffs : CutoffStore store) {a : LocalAuth}
    (thread : Thread (b.system a)) (userID : Str) (cutoff : Time) : Prop :=
  ∃ atom ans, thread.Did (.revokeAllForUser userID) (Script.did b.atoms atom ans) ∧
    cutoffs.Records atom ans userID cutoff

theorem CutoffStore.recorded_of_returned {store : SessionStore b} (cutoffs : CutoffStore store)
    (returned : Answered.revokeAllForUser userID (.ok ()) ∈ thread.past) :
    ∃ cutoff, cutoffs.Recorded thread userID cutoff := by
  obtain ⟨trail, sound, inside⟩ := Thread.visited returned
  obtain ⟨atom, ans, cutoff, did, records⟩ := (cutoffs.recorded userID).along sound rfl
  exact ⟨cutoff, atom, ans, inside _ did, records⟩

end Gofi.Iam
