import Gofi.Grpcx.Errors
import Mathlib.Data.List.Basic

/-! What `Status` says of an error tree. The searches of `errors.As` and `errors.Is`
stop at the first error they accept, in the order in which the tree is written; an
`AppError` that does not exist is accepted like any other. -/

namespace Gofi.Grpcx

open Gofi.Go

mutual

def Err.nodes (err : Err) : List Err :=
  err :: match err with
    | .appOver _ inner | .pointerOver _ inner | .wrap _ inner => Err.nodes inner
    | .join _ parts => Err.nodesAll parts
    | _ => []

def Err.nodesAll : List Err → List Err
  | [] => []
  | part :: rest => Err.nodes part ++ Err.nodesAll rest

end

def first (accepts : Err → Option α) : List Err → Found α
  | [] => .absent
  | err :: rest =>
    match accepts err, err with
    | some value, _ => .found value
    | none, .nilPointer => .panics
    | none, _ => first accepts rest

private theorem first_append (accepts : Err → Option α) (left right : List Err) : first accepts (left ++ right) =
      match first accepts left with
      | .absent => first accepts right
      | answer => answer := by
  induction left with
  | nil => rfl
  | cons err rest ih =>
    simp only [List.cons_append, first]
    split <;> first | rfl | exact ih

mutual

theorem Err.as_eq_first (accepts : Err → Option α) (err : Err) : err.as accepts = first accepts err.nodes := by
  cases accepted : accepts err with
  | some value => rw [Err.as.eq_def, Err.nodes.eq_def]; simp only [first, accepted]
  | none =>
    cases err with
    | appOver e inner | pointerOver e inner | wrap text inner =>
      simp only [Err.as, Err.nodes, first, accepted]
      exact Err.as_eq_first accepts inner
    | join text parts =>
      simp only [Err.as, Err.nodes, first, accepted]
      exact Err.asAny_eq_first accepts parts
    | _ => simp only [Err.as, Err.nodes, first, accepted]

theorem Err.asAny_eq_first (accepts : Err → Option α) (parts : List Err) :
    Err.asAny accepts parts = first accepts (Err.nodesAll parts) := by
  cases parts with
  | nil => rfl
  | cons part rest =>
    rw [Err.nodesAll, first_append, ← Err.as_eq_first accepts part, ← Err.asAny_eq_first accepts rest]
    cases answer : Err.as accepts part <;> simp only [Err.asAny, answer]

end

theorem mem_of_first (found : first accepts nodes = .found value) :
    ∃ node ∈ nodes, accepts node = some value := by
  induction nodes with
  | nil => cases found
  | cons err rest ih =>
    simp only [first] at found
    split at found
    · rename_i accepted
      cases found
      exact ⟨_, List.mem_cons_self, accepted⟩
    · cases found
    · obtain ⟨node, member, accepted⟩ := ih found
      exact ⟨node, List.mem_cons_of_mem _ member, accepted⟩

def Err.isLeaf : Err → Bool
  | appOver _ _ | pointerOver _ _ | wrap _ _ | join _ (_ :: _) => false
  | _ => true

def Err.leaves (err : Err) : List Err := err.nodes.filter Err.isLeaf

def Err.app? : Err → Option Hit
  | app e | pointer e => some ⟨e, false⟩
  | appOver e _ | pointerOver e _ => some ⟨e, true⟩
  | _ => none

def Err.Empty (err : Err) : Prop := ∃ hit, err.app? = some hit ∧ hit.exists = false

/-- The `AppError` that `Status` goes by: the first one that is a value, or else the
first pointer. -/
def Decides (err : Err) (hit : Hit) : Prop :=
  first Err.value? err.nodes = .found hit ∨
    first Err.value? err.nodes = .absent ∧ first Err.pointer? err.nodes = .found (some hit)

theorem Decides.mem (decides : Decides err hit) : ∃ node ∈ err.nodes, node.app? = some hit := by
  rcases decides with found | ⟨_, found⟩
  · obtain ⟨node, member, accepted⟩ := mem_of_first found
    exact ⟨node, member, by cases node <;> simp_all [Err.value?, Err.app?]⟩
  · obtain ⟨node, member, accepted⟩ := mem_of_first found
    exact ⟨node, member, by cases node <;> simp_all [Err.pointer?, Err.app?]⟩

section

variable (lib : StatusPackage)

private theorem foreignStatus_ne_nil (err : Err) : foreignStatus lib err ≠ .nil := by
  simp only [foreignStatus]
  (repeat' split) <;> simp

theorem status_cases (err : Err) : (∀ hit, ¬ Decides err hit) ∧ status lib (some err) = .panics ∨
      (∃ hit, Decides err hit ∧ status lib (some err) = if hit.exists then .made (appErrorStatus lib hit.e)
        else .nil) ∨
      (∀ hit, ¬ Decides err hit) ∧ status lib (some err) = foreignStatus lib err := by
  simp only [status, Decides, Err.as_eq_first]
  cases value : first Err.value? err.nodes with
  | panics => exact .inl ⟨by simp, rfl⟩
  | found hit => exact .inr (.inl ⟨hit, .inl rfl, rfl⟩)
  | absent =>
    cases pointer : first Err.pointer? err.nodes with
    | panics => exact .inl ⟨by simp, rfl⟩
    | absent => exact .inr (.inr ⟨by simp, rfl⟩)
    | found hit =>
      cases hit with
      | none => exact .inr (.inr ⟨by simp, rfl⟩)
      | some hit => exact .inr (.inl ⟨hit, .inr ⟨rfl, rfl⟩, rfl⟩)

theorem Decides.unique (decides : Decides err hit) (other : Decides err rival) : hit = rival := by
  rcases decides with found | ⟨absent, found⟩ <;> rcases other with same | ⟨missing, same⟩
  · exact Found.found.inj (found.symm.trans same)
  · cases found.symm.trans missing
  · cases absent.symm.trans same
  · exact Option.some.inj (Found.found.inj (found.symm.trans same))

theorem status_eq_nil_iff (err : Err) : status lib (some err) = .nil ↔ ∃ hit, Decides err hit ∧
    hit.exists = false := by
  rcases status_cases lib err with ⟨none, answer⟩ | ⟨hit, decides, answer⟩ | ⟨none, answer⟩
  · rw [answer]
    exact ⟨nofun, fun ⟨hit, decides, _⟩ => absurd decides (none hit)⟩
  · rw [answer]
    constructor
    · intro nil
      cases real : hit.exists with
      | true => simp [real] at nil
      | false => exact ⟨hit, decides, real⟩
    · rintro ⟨other, same, missing⟩
      rw [decides.unique same, missing]
      rfl
  · rw [answer]
    exact ⟨fun nil => absurd nil (foreignStatus_ne_nil lib err), fun ⟨hit, decides, _⟩ => absurd decides (none hit)⟩

/-- `Status` turns no failure into success: it is nil for nil, and for a tree all of whose
leaves are `AppError` values or pointers that do not exist. -/
def Reported (err : Option Err) : Prop :=
  status lib err = .nil → ∀ tree, err = some tree → ∀ leaf ∈ tree.leaves, leaf.Empty

def Converted.message (err : Err) : Converted → Option Str
  | panics | nil => none
  | same => err.text
  | made st => some st.message

/-- For a tree without a status error `Status` sends the message of one of its `AppError`s,
or a fixed one. -/
def Discreet (err : Option Err) : Prop :=
  ∀ tree, err = some tree → (∀ node ∈ tree.nodes, node.status? = none) →
    ∀ text, (status lib err).message tree = some text →
      text = internalMessage ∨ text = canceledMessage ∨ text = deadlineMessage ∨
        ∃ node ∈ tree.nodes, ∃ hit, node.app? = some hit ∧ text = hit.e.message

def Err.ofApp (e : App) : Option Err → Err
  | none => .app e
  | some cause => .appOver e cause

/-- An `AppError` comes back with its kind, code and message, unless its code is
registered under another kind. -/
def Returns (registry : Registry) (e : App) (cause : Option Err) : Prop :=
  e.code ≠ [] ∨ cause ≠ none → Utf8.valid e.kind = true → Utf8.valid e.code = true → e.kind ≠ [] →
    (∀ registered, registry.errorMap e.code = some registered → registered.kind = e.kind) →
    ∃ st back, status lib (some (.ofApp e cause)) = .made st ∧
      fromError lib registry (some (.status st)) = .found back ∧
      back.kind = e.kind ∧ back.code = e.code ∧ back.message = e.message

/-- The `AppError` that `Status` goes by exists, or all of them do not and there is
nothing else in the tree. -/
def Unmasked (err : Option Err) : Prop :=
  ∀ tree, err = some tree → ∀ hit, Decides tree hit → hit.exists = true ∨ ∀ leaf ∈ tree.leaves, leaf.Empty

private theorem reported_iff (err : Option Err) : Reported lib err ↔ Unmasked err := by
  constructor
  · rintro reported tree rfl hit decides
    cases real : hit.exists with
    | true => exact .inl rfl
    | false => exact .inr (reported ((status_eq_nil_iff lib tree).mpr ⟨hit, decides, real⟩) tree rfl)
  · rintro unmasked nil tree rfl
    obtain ⟨hit, decides, missing⟩ := (status_eq_nil_iff lib tree).mp nil
    rcases unmasked tree rfl hit decides with real | empty
    · cases real.symm.trans missing
    · exact empty

private theorem fromError_ne_found (none : ∀ node ∈ err.nodes, node.status? = none) (st : Status) :
    lib.fromError err ≠ .found st := by
  intro found
  obtain ⟨inner, held⟩ := lib.held found
  rw [Err.as_eq_first] at held
  obtain ⟨node, member, accepted⟩ := mem_of_first held
  cases (none node member).symm.trans accepted

private theorem foreignStatus_message (none : ∀ node ∈ err.nodes, node.status? = none)
    (sent : (foreignStatus lib err).message err = some text) :
    text = internalMessage ∨ text = canceledMessage ∨ text = deadlineMessage := by
  have absent := fromError_ne_found lib none
  simp only [foreignStatus] at sent
  (repeat' split at sent) <;> simp_all [Converted.message]

theorem appErrorStatus_message (e : App) : (appErrorStatus lib e).message = e.message := by
  simp only [appErrorStatus]
  cases made :
    lib.withDetails ⟨codeOf e.kind, e.message, []⟩ (.info e.code errorDomain [(kindMetadataKey, e.kind)]) with
  | none => rfl
  | some st => exact lib.kept made

private theorem codeOf_ne_ok (kind : Str) : codeOf kind ≠ .ok := by
  simp only [codeOf]
  (repeat' split) <;> simp

private theorem discreet (err : Option Err) : Discreet lib err := by
  rintro tree rfl none text sent
  rcases status_cases lib tree with ⟨_, answer⟩ | ⟨hit, decides, answer⟩ | ⟨_, answer⟩
  · simp [answer, Converted.message] at sent
  · rw [answer] at sent
    obtain ⟨node, member, app⟩ := decides.mem
    split at sent
    · simp only [Converted.message, appErrorStatus_message, Option.some.injEq] at sent
      exact .inr (.inr (.inr ⟨node, member, hit, app, sent.symm⟩))
    · simp [Converted.message] at sent
  · rw [answer] at sent
    rcases foreignStatus_message lib none sent with fixed | fixed | fixed
    · exact .inl fixed
    · exact .inr (.inl fixed)
    · exact .inr (.inr (.inl fixed))

private theorem status_ofApp (real : e.code ≠ [] ∨ cause ≠ none) :
    status lib (some (.ofApp e cause)) = .made (appErrorStatus lib e) := by
  cases cause with
  | none =>
    have named : e.code ≠ [] := by simpa using real
    simp [status, Err.ofApp, Err.as, Err.value?, Hit.exists, named]
  | some cause => simp [status, Err.ofApp, Err.as, Err.value?, Hit.exists]

theorem returns (registry : Registry) (e : App) (cause : Option Err) : Returns lib registry e cause := by
  intro real kind code named registered
  have details : (appErrorStatus lib e).details = [.info e.code errorDomain [(kindMetadataKey, e.kind)]] := by
    have key : Utf8.valid kindMetadataKey = true := Utf8.valid_of_lt (by decide)
    rw [appErrorStatus, lib.added (codeOf_ne_ok e.kind) code (Utf8.valid_of_lt (by decide)) (by simp [kind, key])]
    rfl
  have read : fromError lib registry (some (.status (appErrorStatus lib e))) =
      .found (fromDetails registry (appErrorStatus lib e) (appErrorStatus lib e).details) := by
    simp only [fromError, lib.own]
  refine ⟨appErrorStatus lib e, _, status_ofApp lib real, read, ?_⟩
  rw [details]
  simp only [fromDetails, appErrorStatus_message, ne_eq, not_true_eq_false, if_false, List.lookup_cons,
    beq_self_eq_true, Option.getD_some, named]
  split
  · rename_i entry found
    have same : entry.code = e.code := registry.keyed found
    split
    · exact ⟨registered entry found, same, rfl⟩
    · exact ⟨rfl, rfl, rfl⟩
  · exact ⟨rfl, rfl, rfl⟩

end

/-- `Status` reports every failure, sends no text but the message of an `AppError`, and
gives back an `AppError` to `FromError`, exactly if the `AppError` it goes by is not
an empty one that stands before something else. -/
theorem status_conversion_iff (lib : StatusPackage) (err : Option Err) (registry : Registry) (e : App)
    (cause : Option Err) : Reported lib err ∧ Discreet lib err ∧ Returns lib registry e cause ↔ Unmasked err := by
  rw [reported_iff]
  exact ⟨And.left, fun unmasked => ⟨unmasked, discreet lib err, returns lib registry e cause⟩⟩

namespace Sample

/-- A wrapped status gets the text of the whole error as its message. -/
def package : StatusPackage where
  fromError
    | .status st => .found st
    | err =>
      match err.as Err.status?, err.text with
      | .found st, some text => .found { st with message := text }
      | .found _, none | .panics, _ => .panics
      | .absent, _ => .absent
  withDetails st
    | .info reason domain metadata =>
      if st.code ≠ .ok ∧ Utf8.valid reason ∧ Utf8.valid domain ∧ ∀ entry ∈ metadata, Utf8.valid entry.1 ∧
        Utf8.valid entry.2
      then some { st with details := st.details ++ [.info reason domain metadata] } else none
    | .other => none
  own := rfl
  held {err st} found := by
    split at found
    · exact ⟨_, rfl⟩
    · split at found
      · exact ⟨_, by assumption⟩
      all_goals cases found
  kept {st detail made} added := by
    split at added
    · split at added <;> cases added
      rfl
    · cases added
  added := by
    intro st reason domain metadata failed known own valid
    exact if_pos ⟨failed, known, own, valid⟩

def missing : App := ⟨kindNotFound, ascii "ORDER_NOT_FOUND", ascii "no such order", none⟩

def loading : Err := .wrap (ascii "load order") (.app missing)

def unregistered : Registry := ⟨fun _ => none, nofun⟩

end Sample

/-- A missing order, wrapped on its way, comes to the caller as what it was. -/
theorem missing_order_is_reported : Unmasked (some Sample.loading) ∧ Reported Sample.package (some Sample.loading) ∧
    ∃ st back, status Sample.package (some (.app Sample.missing)) = .made st ∧
      fromError Sample.package Sample.unregistered (some (.status st)) = .found back ∧
        back.code = Sample.missing.code := by
  have unmasked : Unmasked (some Sample.loading) := by
    rintro tree same hit decides
    cases same
    refine .inl ?_
    rw [decides.unique (.inl rfl)]
    decide
  obtain ⟨reported, _, returns⟩ := (status_conversion_iff Sample.package (some Sample.loading) Sample.unregistered
    Sample.missing none).mpr unmasked
  obtain ⟨st, back, made, read, _, code, _⟩ := returns (.inl (by decide)) (Utf8.valid_of_lt (by decide))
    (Utf8.valid_of_lt (by decide)) (by decide) nofun
  exact ⟨unmasked, reported, st, back, made, read, code⟩

/-- An empty `AppError` joined with a failure: the call succeeds. -/
theorem joined_failure_is_hidden : ∃ err, .other (ascii "disk full") ∈ err.leaves ∧
    ∀ lib, status lib (some err) = .nil ∧ ¬ Reported lib (some err) := by
  let tree : Err := .join [] [.app ⟨[], [], [], none⟩, .other (ascii "disk full")]
  have failure : .other (ascii "disk full") ∈ tree.leaves := by
    simp [tree, Err.leaves, Err.nodes, Err.nodesAll, Err.isLeaf]
  refine ⟨tree, failure, fun lib => ?_⟩
  have nil : status lib (some tree) = .nil := by simp [tree, status, Err.as, Err.asAny, Err.value?, Hit.exists]
  refine ⟨nil, fun reported => ?_⟩
  obtain ⟨hit, app, _⟩ := reported nil tree rfl _ failure
  cases app

end Gofi.Grpcx
