import Gofi.Iam.Provider.Memory
import Gofi.Iam.SessionStore

/-! The memory provider keeps the laws of a session store. -/

namespace Gofi.Iam.Memory

open Gofi.Concurrent Gofi.Go

inductive Serves : PortOp → Op → Prop where
  | save : Serves (.save s) (.save s.sanitize)
  | lookup {id : Str} : Serves (.get id) (.lookup id)
  | load {id : Str} : Serves (.get id) (.load id)
  | delete {id : Str} : Serves (.get id) (.delete id)
  | revoke {id : Str} : Serves (.revoke id) (.revoke id)
  | revokeIfActive {id : Str} : Serves (.revokeIfActive id) (.revokeIfActive id)
  | revokeAll : Serves (.revokeAllForUser userID) (.revokeAll userID)
  | cutoff : Serves (.revokedBefore userID) (.cutoff userID)

def Enters (op : PortOp) (trail : History (ports.sum atoms)) (next : (ports.sum atoms).Op) : Prop :=
  ∀ atom, next = Sum.inr atom → Serves op atom ∧ ∀ s, atom = .save s → trail = []

def Tells : (op : PortOp) → History (ports.sum atoms) → ports.Ans op → Prop
  | .get id, trail, r => ∀ s, r = .ok (some s) → Script.did atoms (.load id) s ∈ trail
  | .revokeIfActive id, trail, r => r = .ok true → Script.did atoms (.revokeIfActive id) (some true) ∈ trail
  | .revokeAllForUser userID, trail, _ => ∃ now : Time, Script.did atoms (.revokeAll userID) now ∈ trail
  | .revokedBefore userID, trail, r => ∀ cutoff : Time, r = .ok cutoff →
      Script.did atoms (.cutoff userID) cutoff ∈ trail
  | _, _, _ => True

def writes : Op → Option Session
  | .save s => some s
  | _ => none

theorem Enters.of_serves {atom : Op} (serves : Serves op atom) (reads : writes atom = none) :
    Enters op trail (.inr atom) := by
  rintro _ ⟨⟩
  refine ⟨serves, fun s same => ?_⟩
  rw [same] at reads
  cases reads

theorem Enters.of_port {op asked : PortOp} : Enters op trail (.inl asked) :=
  fun _ same => absurd same Sum.inl_ne_inr

private theorem get_meets (withTTL : Bool) (id : Str) :
    (get withTTL id).Meets (Enters (.get id)) (Tells (.get id)) [] := by
  have loaded (trail : History (ports.sum atoms)) :
      (Prog.call (S := ports.sum atoms) (.inr (Op.load id)) fun copied : Session =>
        .done (.ok (some copied))).Meets (Enters (.get id)) (Tells (.get id)) trail := by
    refine ⟨.of_serves .load rfl, fun copied => ?_⟩
    rintro s ⟨⟩
    exact List.mem_cons_self ..
  refine ⟨.of_serves .lookup rfl, fun ok => ?_⟩
  cases ok with
  | false => exact nofun
  | true =>
    cases withTTL with
    | false => exact loaded _
    | true =>
      refine ⟨.of_port, fun clock => ⟨.of_serves .load rfl, fun (s : Session) => ?_⟩⟩
      simp only [Prog.done_bind]
      split
      · exact ⟨.of_serves .delete rfl, fun _ => nofun⟩
      · exact loaded _

theorem impl_meets (withTTL : Bool) (op : PortOp) : (impl withTTL op).Meets (Enters op) (Tells op) [] := by
  cases op with
  | save s =>
    refine ⟨?_, fun _ => trivial⟩
    rintro _ ⟨⟩
    exact ⟨.save, fun _ _ => rfl⟩
  | get id => exact get_meets withTTL id
  | revoke id => exact ⟨.of_serves .revoke rfl, fun _ => trivial⟩
  | revokeIfActive id =>
    refine ⟨.of_serves .revokeIfActive rfl, fun outcome => ?_⟩
    rcases outcome with _ | _ | _
    · exact nofun
    · exact nofun
    · exact fun _ => List.mem_cons_self ..
  | revokeAllForUser userID =>
    exact ⟨.of_serves .revokeAll rfl, fun now => ⟨now, List.mem_cons_self ..⟩⟩
  | revokedBefore userID =>
    refine ⟨.of_serves .cutoff rfl, fun cutoff => ?_⟩
    rintro _ ⟨⟩
    exact List.mem_cons_self ..
  | _ => exact ⟨.of_port, fun _ => trivial⟩

def claims : (op : Op) → atoms.Ans op → Option Str
  | .revokeIfActive id, some true => some id
  | _, _ => none

def view (withTTL : Bool) : SessionView (backend withTTL) where
  record := Store.objects
  cutoff := Store.revokedBefore
  writes := writes
  claims := claims
  Sound _ _ := True
  plain := ⟨rfl, rfl⟩
  saves op := (impl_meets withTTL op).mono (fun trail next enters atom s same new => by
    obtain ⟨serves, alone⟩ := enters atom same
    cases serves with
    | save =>
      cases new
      exact ⟨⟨_, rfl, rfl⟩, fun earlier ans seen => by rw [alone _ rfl] at seen; cases seen⟩
    | _ => cases new) (fun _ _ _ => trivial)

variable {id : Str} {store : Store}

theorem objects_of_find (found : store.find id = some s) : store.objects id = some s := by
  unfold Store.find at found
  split at found
  · exact found
  · cases found

theorem put_revoked {other : Str} (found : store.find other = some s) (now : Time) (revokedBy id : Str) :
    (store.put other (revokedSession s now revokedBy)).objects id = store.objects id ∨
      other = id ∧ store.objects id = some s ∧
        (store.put other (revokedSession s now revokedBy)).objects id = some (revokedSession s now revokedBy) := by
  by_cases self : other = id
  · subst self
    exact .inr ⟨rfl, objects_of_find found, by simp [Store.put]⟩
  · exact .inl (by simp [Store.put, Ne.symm self])

variable {ans : atoms.Ans op} {later : Store}

theorem respond_objects (responded : respond now store op = some (ans, later)) (id : Str) :
    later.objects id = store.objects id ∨ (∃ s, op = .save s ∧ s.id = id ∧ later.objects id = some s) ∨
    ∃ s by_, store.objects id = some s ∧ later.objects id = some (revokedSession s now.time by_) ∧
      (op = .revoke id ∨ op = .revokeIfActive id ∨ op = .revokeAll s.userID) := by
  have same (unchanged : later = store) : later.objects id = store.objects id := by rw [unchanged]
  cases op with
  | save s =>
    obtain rfl := (Prod.mk.inj (Option.some.inj responded)).2
    by_cases self : s.id = id
    · subst self
      exact .inr (.inl ⟨s, rfl, rfl, by simp [Store.put]⟩)
    · exact .inl (by simp [Store.put, Ne.symm self])
  | lookup other => exact .inl (same (Prod.mk.inj (Option.some.inj responded)).2.symm)
  | load other =>
    obtain ⟨s, _, given⟩ := Option.map_eq_some_iff.mp responded
    exact .inl (same (Prod.mk.inj given).2.symm)
  | delete other =>
    obtain rfl := (Prod.mk.inj (Option.some.inj responded)).2
    exact .inl rfl
  | revoke other =>
    simp only [respond] at responded
    split at responded
    · exact .inl (same (Prod.mk.inj (Option.some.inj responded)).2.symm)
    · rename_i s found
      obtain rfl := (Prod.mk.inj (Option.some.inj responded)).2
      rcases put_revoked found now.time (ascii "user") id with kept | ⟨rfl, stored, put⟩
      · exact .inl kept
      · exact .inr (.inr ⟨s, _, stored, put, .inl rfl⟩)
  | revokeIfActive other =>
    simp only [respond] at responded
    split at responded
    · exact .inl (same (Prod.mk.inj (Option.some.inj responded)).2.symm)
    · rename_i s found
      split at responded
      · exact .inl (same (Prod.mk.inj (Option.some.inj responded)).2.symm)
      · obtain rfl := (Prod.mk.inj (Option.some.inj responded)).2
        rcases put_revoked found now.time (ascii "user") id with kept | ⟨rfl, stored, put⟩
        · exact .inl kept
        · exact .inr (.inr ⟨s, _, stored, put, .inr (.inl rfl)⟩)
  | revokeAll userID =>
    obtain rfl := (Prod.mk.inj (Option.some.inj responded)).2
    cases stored : store.objects id with
    | none => exact .inl (by simp [Store.revokeAll, stored])
    | some s =>
      by_cases hit : store.listed id ∧ s.userID = userID ∧ !s.revoked
      · exact .inr (.inr ⟨s, ascii "system", rfl, by simp only [Store.revokeAll, stored, Option.map_some, if_pos hit],
          .inr (.inr (by rw [hit.2.1]))⟩)
      · exact .inl (by simp only [Store.revokeAll, stored, Option.map_some, if_neg hit])
  | cutoff userID => exact .inl (same (Prod.mk.inj (Option.some.inj responded)).2.symm)

private theorem respond_claims (responded : respond now store op = some (ans, later))
    (claim : claims op ans = some id) :
    (∃ s, store.objects id = some s ∧ s.revoked = false) ∧ ∃ s, later.objects id = some s ∧ s.revoked = true := by
  cases op with
  | revokeIfActive other =>
    simp only [respond] at responded
    split at responded
    · obtain ⟨rfl, _⟩ := Prod.mk.inj (Option.some.inj responded)
      cases claim
    · rename_i s found
      split at responded
      · obtain ⟨rfl, _⟩ := Prod.mk.inj (Option.some.inj responded)
        cases claim
      · rename_i active
        obtain ⟨rfl, rfl⟩ := Prod.mk.inj (Option.some.inj responded)
        cases claim
        exact ⟨⟨s, objects_of_find found, by simpa using active⟩, revokedSession s now.time (ascii "user"),
          by simp [Store.put], rfl⟩
  | _ => cases claim

theorem respond_revokedBefore (responded : respond now store op = some (ans, later)) (userID : Str) :
    later.revokedBefore userID = store.revokedBefore userID ∨
      op = .revokeAll userID ∧ later.revokedBefore userID = now.time := by
  cases op with
  | revokeAll other =>
    obtain rfl := (Prod.mk.inj (Option.some.inj responded)).2
    by_cases self : userID = other
    · subst self
      exact .inr ⟨rfl, by simp [Store.revokeAll]⟩
    · exact .inl (by simp [Store.revokeAll, self])
  | load other =>
    obtain ⟨s, _, given⟩ := Option.map_eq_some_iff.mp responded
    exact .inl (by rw [← (Prod.mk.inj given).2])
  | revoke other =>
    simp only [respond] at responded
    split at responded
    all_goals
      obtain rfl := (Prod.mk.inj (Option.some.inj responded)).2
      exact .inl rfl
  | revokeIfActive other =>
    simp only [respond] at responded
    split at responded
    · obtain rfl := (Prod.mk.inj (Option.some.inj responded)).2
      exact .inl rfl
    · split at responded
      all_goals
        obtain rfl := (Prod.mk.inj (Option.some.inj responded)).2
        exact .inl rfl
  | _ =>
    obtain rfl := (Prod.mk.inj (Option.some.inj responded)).2
    exact .inl rfl

theorem chore_keeps (did : (backend withTTL).chore clock store work = some later) :
    later.objects = store.objects ∧ later.revokedBefore = store.revokedBefore := by
  replace did : (if withTTL then some (gc clock store) else none) = some later := did
  split at did <;> cases did
  exact ⟨rfl, rfl⟩

variable {withTTL : Bool} {a : LocalAuth} {first σ : State ((backend withTTL).system a)}

theorem genuine (run : Reach Guard.none first σ) :
    ∀ {id s}, (view withTTL).record σ.store id = some s → (view withTTL).Genuine first σ id s := by
  refine run.invariant (fun σ => ∀ {id s}, (view withTTL).record σ.store id = some s →
    (view withTTL).Genuine first σ id s) (fun stored => .initial stored rfl) ?_
  intro σ move after reached holds _ moved id s stored
  have kept {r : Session} (old : (view withTTL).record σ.store id = some r) (same : s.identity = r.identity) :
      (view withTTL).Genuine first after id s :=
    SessionView.Genuine.congr _ ((holds old).moved _ moved) same
  cases Backend.effect moved with
  | still same => exact kept (by rw [← stored, same]) rfl
  | chore did => exact kept ((congrFun (chore_keeps did).1 id).symm.trans stored) rfl
  | acted running waits responded _ _ arrived logged =>
    rcases respond_objects responded id with same | ⟨new, rfl, named, put⟩ | ⟨r, by_, old, put, _⟩
    · exact kept (same.symm.trans stored) rfl
    · obtain rfl := Option.some.inj (put.symm.trans stored)
      exact .written arrived logged rfl named rfl
    · obtain rfl := Option.some.inj (put.symm.trans stored)
      exact kept old rfl

theorem held (absent : first.threads name = none)
    (run : Reach Guard.none first σ) (found : σ.threads name = some thread)
    (read : Answered.get id (.ok (some s)) ∈ thread.past) : (view withTTL).Held first σ id s := by
  obtain ⟨trail, sound, inside⟩ := Thread.visited read
  have loaded := inside _ ((impl_meets withTTL (.get id)).along sound s rfl)
  refine run.facts (· = name) (fun σ _ _ event => ∀ id (s : Session),
    event = Script.did atoms (.load id) s → (view withTTL).Held first σ id s)
    (fun _ same => same ▸ absent) (fun _ _ _ _ _ _ fact => fact) ?_ ?_ found rfl _ _ loaded id s rfl
  · rintro σ other thread op trail choose event after reached - - moved - - answered id s rfl
    obtain ⟨store, responded, _⟩ := Backend.answer_inr _ answered
    obtain ⟨r, stored, given⟩ := Option.map_eq_some_iff.mp responded
    obtain rfl := (Prod.mk.inj given).1
    exact ⟨σ, reached, .next .refl trivial (State.step_of_moved moved), stored⟩
  · rintro σ move after thread op event - - moved fact id s rfl
    exact (fact id s rfl).moved _ moved

def sessionStore (withTTL : Bool) : SessionStore (backend withTTL) where
  toSessionView := view withTTL
  genuine start run := genuine run
  got start run found _ _ read := held (start.quiet _) run found read
  revises start run found waits responded id := by
    have serves := (Thread.waits_allowed (impl_meets withTTL _) waits _ rfl).1
    rcases respond_objects responded id with same | ⟨s, rfl, named, put⟩ | ⟨s, by_, old, put, asked⟩
    · exact .inl same
    · exact .inr (.inl ⟨s, rfl, named, put⟩)
    · refine .inr (.inr ⟨_, put, rfl, ?_⟩)
      have named : s.id = id := (genuine run old).named _ start
      rcases asked with rfl | rfl | rfl <;> cases serves
      · exact .inl (by rw [← named]; rfl)
      · exact .inr (.inl (by rw [← named]; rfl))
      · exact .inr (.inr rfl)
  flips _ _ _ _ responded claim := respond_claims responded claim
  claimed id := (impl_meets withTTL (.revokeIfActive id)).mono (fun _ _ _ => trivial)
    fun trail r tells ok => ⟨.revokeIfActive id, some true, tells ok, rfl⟩
  cutoffs start run found waits responded userID := by
    have serves := (Thread.waits_allowed (impl_meets withTTL _) waits _ rfl).1
    rcases respond_revokedBefore responded userID with same | ⟨rfl, _⟩
    · exact .inl same
    · cases serves
      exact .inr rfl
  keeps did := chore_keeps did

end Gofi.Iam.Memory
