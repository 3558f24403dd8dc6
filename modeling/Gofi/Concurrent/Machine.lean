import Mathlib.Algebra.GroupWithZero.Nat
import Mathlib.Data.List.Basic
import Mathlib.Data.List.Perm.Basic

/-! State machines driven by inputs: what a step keeps, a whole run keeps. -/

namespace Gofi.Concurrent

def feed (step : σ → ι → Option σ) (first : σ) : List ι → Option σ
  | [] => some first
  | input :: rest => (step first input).bind fun next => feed step next rest

variable {step : σ → ι → Option σ}

theorem feed_cons : feed step first (input :: rest) = some last ↔
    ∃ next, step first input = some next ∧ feed step next rest = some last := by
  simp [feed, Option.bind_eq_some_iff]

theorem feed_append (first : σ) (inputs later : List ι) :
    feed step first (inputs ++ later) = (feed step first inputs).bind fun next => feed step next later := by
  induction inputs generalizing first with
  | nil => rfl
  | cons input rest ih => simp [feed, ih, Option.bind_assoc]

def Along (step : σ → ι → Option σ) (condition : σ → ι → Prop) (first : σ) : List ι → Prop
  | [] => True
  | input :: rest => ∀ next, step first input = some next → condition first input ∧ Along step condition next rest

namespace Along

variable {step : σ → ι → Option σ} {condition : σ → ι → Prop}

/-- Along a given run the condition can be checked step by step. -/
instance decidable [checks : ∀ state input, Decidable (condition state input)] (first : σ) (inputs : List ι) :
    Decidable (Along step condition first inputs) :=
  match inputs with
  | [] => .isTrue trivial
  | input :: rest =>
    match stepped : step first input with
    | none => .isTrue fun next taken => by simp [stepped] at taken
    | some next =>
      have later := decidable next rest
      decidable_of_iff (condition first input ∧ Along step condition next rest) (by simp [Along, stepped])

theorem congr {other : σ → ι → Prop} (same : ∀ state input, condition state input ↔ other state input) :
    Along step condition first inputs ↔ Along step other first inputs := by
  have equal : condition = other := by
    funext state input
    exact propext (same state input)
  rw [equal]

theorem of_all (all : ∀ input ∈ inputs, ∀ state, condition state input) : Along step condition first inputs := by
  induction inputs generalizing first with
  | nil => trivial
  | cons input rest ih =>
    intro next _
    exact ⟨all input List.mem_cons_self first, ih fun later member => all later (List.mem_cons_of_mem _ member)⟩

/-- A run whose inputs meet a condition keeps what every step of that kind keeps. -/
theorem invariant (property : σ → Prop)
    (kept : ∀ state input next, property state → condition state input → step state input = some next → property next)
    (initial : property first) (meets : Along step condition first inputs)
    (run : feed step first inputs = some last) : property last := by
  induction inputs generalizing first with
  | nil => exact Option.some.inj run ▸ initial
  | cons input rest ih =>
    obtain ⟨next, stepped, onward⟩ := feed_cons.mp run
    obtain ⟨allowed, later⟩ := meets next stepped
    exact ih (kept first input next initial allowed stepped) later onward

theorem of_invariant (property : σ → Prop)
    (kept : ∀ state input next, property state → condition state input → step state input = some next → property next)
    (gives : ∀ state input next, property state → condition state input → step state input = some next →
      conclusion state input)
    (initial : property first) (meets : Along step condition first inputs) : Along step conclusion first inputs := by
  induction inputs generalizing first with
  | nil => trivial
  | cons input rest ih =>
    intro next stepped
    obtain ⟨allowed, later⟩ := meets next stepped
    exact ⟨gives first input next initial allowed stepped, ih (kept first input next initial allowed stepped) later⟩

/-- A run takes at most as many steps of a kind as its first state has rank, when
these lower the rank and no other step raises it. -/
theorem bounded (property : σ → Prop) (rank : σ → Nat) (counted : ι → Bool)
    (kept : ∀ state input next, property state → condition state input → step state input = some next →
      property next ∧ rank next + (if counted input then 1 else 0) ≤ rank state)
    (initial : property first) (meets : Along step condition first inputs)
    (run : feed step first inputs = some last) : property last ∧ rank last + inputs.countP counted ≤ rank first := by
  induction inputs generalizing first with
  | nil => cases run; exact ⟨initial, by simp⟩
  | cons input rest ih =>
    obtain ⟨next, stepped, onward⟩ := feed_cons.mp run
    obtain ⟨allowed, later⟩ := meets next stepped
    obtain ⟨held, lower⟩ := kept first input next initial allowed stepped
    obtain ⟨final, bound⟩ := ih held later onward
    refine ⟨final, ?_⟩
    rw [List.countP_cons]
    lia

end Along

/-- What the first state satisfies and every step keeps holds wherever a run leads. -/
theorem feed_invariant (property : σ → Prop)
    (kept : ∀ state input next, property state → step state input = some next → property next)
    (initial : property first) (run : feed step first inputs = some last) : property last :=
  have free : Along step (fun _ _ => True) first inputs := .of_all fun _ _ _ => trivial
  free.invariant property (fun state input next held _ => kept state input next held) initial run

variable {items : List α}

theorem eraseIdx_perm (placed : items[place]? = some item) : (item :: items.eraseIdx place).Perm items := by
  obtain ⟨inside, rfl⟩ := List.getElem?_eq_some_iff.mp placed
  exact List.getElem_cons_eraseIdx_perm inside

theorem count_flatMap [DecidableEq β] (placed : items[place]? = some item) (f : α → List β) (value : β) :
    (items.flatMap f).count value = (f item).count value + ((items.eraseIdx place).flatMap f).count value := by
  rw [← ((eraseIdx_perm placed).flatMap_right f).count_eq, List.flatMap_cons, List.count_append]

theorem mem_flatMap (placed : items[place]? = some item) (f : α → List β) (value : β) :
    value ∈ items.flatMap f ↔ value ∈ f item ∨ value ∈ (items.eraseIdx place).flatMap f := by
  rw [← ((eraseIdx_perm placed).flatMap_right f).mem_iff, List.flatMap_cons, List.mem_append]

theorem countP_eraseIdx (placed : items[place]? = some item) (p : α → Bool) :
    items.countP p = (if p item then 1 else 0) + (items.eraseIdx place).countP p := by
  rw [← (eraseIdx_perm placed).countP_eq, List.countP_cons, Nat.add_comm]

theorem sum_eraseIdx (placed : items[place]? = some item) (f : α → Nat) :
    (items.map f).sum = f item + ((items.eraseIdx place).map f).sum := by
  rw [← ((eraseIdx_perm placed).map f).sum_nat, List.map_cons, List.sum_cons]

theorem length_eraseIdx (placed : items[place]? = some item) :
    (items.eraseIdx place).length + 1 = items.length := (eraseIdx_perm placed).length_eq

theorem length_flatMap (placed : items[place]? = some item) (f : α → List β) :
    (items.flatMap f).length = (f item).length + ((items.eraseIdx place).flatMap f).length := by
  rw [← ((eraseIdx_perm placed).flatMap_right f).length_eq, List.flatMap_cons, List.length_append]

end Gofi.Concurrent
