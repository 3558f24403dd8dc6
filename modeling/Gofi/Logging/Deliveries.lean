import Gofi.Logging.Masking

/-! What the handlers of a logger are given, however it was made. -/

namespace Gofi.Logging

open Gofi.Go

theorem given_append (groups : List Str) (calls : List (Call α)) (last : Call α) :
    given groups (calls ++ [last]) = given groups calls ++ given (calls.foldl Call.opens groups) [last] := by
  induction calls generalizing groups with
  | nil => rfl
  | cons call rest ih => cases call <;> simp [given, Call.opens, ih]

theorem given_attrs (calls : List (Call α)) (attrs : List (Attr α)) :
    given [] (calls ++ [.attrs attrs]) = given [] calls ++ attrs.flatMap (leaves (opened calls)) := by
  rw [given_append, given, given, List.append_nil, opened]

theorem given_group (calls : List (Call α)) (name : Str) : given [] (calls ++ [.group name]) = given [] calls := by
  rw [given_append, given, given, List.append_nil]

theorem opened_attrs (calls : List (Call α)) (attrs : List (Attr α)) :
    opened (calls ++ [.attrs attrs]) = opened calls := by
  simp only [opened, List.foldl_append, List.foldl_cons, List.foldl_nil, Call.opens]

theorem opened_group (calls : List (Call α)) (name : Str) :
    opened (calls ++ [.group name]) = enter (opened calls) name := by
  simp only [opened, List.foldl_append, List.foldl_cons, List.foldl_nil, Call.opens]

theorem leaves_of_isEmptyGroup (empty : attr.2.isEmptyGroup = true) (groups : List Str) :
    leaves groups attr = [] := by
  obtain ⟨key, value⟩ := attr
  cases value with
  | group members =>
    cases members with
    | nil => simp only [leaves, Value.resolve, Value.resolveIn, resolveMembers, Tree.leaves, memberLeaves]
    | cons _ _ => cases empty
  | leaf _ | valuer _ | panicking => cases empty

private theorem leaves_addAttrs (groups : List Str) (attrs : List (Attr α)) :
    (addAttrs attrs).flatMap (leaves groups) = attrs.flatMap (leaves groups) := by
  induction attrs with
  | nil => rfl
  | cons attr rest ih =>
    cases empty : attr.2.isEmptyGroup with
    | true => simp [addAttrs, empty, leaves_of_isEmptyGroup empty, ← ih]
    | false => simp [addAttrs, empty, ← ih]

private theorem source_withGroup (handler : Handler α ω) (name : Str) :
    (handler.withGroup name).source = handler.source := by
  induction handler with
  | builtin | base => rfl
  | redacting inner r flag ih | levelled inner least ih => exact ih

section

variable [DecidableEq α] (r : Redactor)

structure Receives (calls received : List (Call α)) : Prop where
  opened : opened received = opened calls
  given : given [] received = (given [] calls).map (Entry.masked r)

/-- A handler of a logger after these calls: the console, or an attached one. -/
inductive Masks (calls : List (Call α)) : Handler α ω → Prop where
  | console (agree : groups = opened calls) (receives : Receives r calls received) :
    Masks calls (.builtin level r format groups received)
  | attached (agree : flag = (opened calls).any r.sensitive) (receives : Receives r calls received) :
    Masks calls (.levelled (.redacting (.base handler received) r flag) least)

variable {r} {calls : List (Call α)}

theorem Receives.with (receives : Receives r calls received) (attrs : List (Attr α)) (masking : Attr α → Attr α)
    (masks : ∀ attr, leaves (Logging.opened calls) (masking attr) =
      (leaves (Logging.opened calls) attr).map (Entry.masked r)) :
    Receives r (calls ++ [.attrs attrs]) (received ++ [.attrs (attrs.map masking)]) where
  opened := by rw [opened_attrs, opened_attrs, receives.opened]
  given := by
    rw [given_attrs, given_attrs, receives.given, receives.opened, List.flatMap_map, List.map_append, List.map_flatMap]
    simp only [masks]

theorem Receives.group (receives : Receives r calls received) (name : Str) :
    Receives r (calls ++ [.group name]) (received ++ [.group name]) where
  opened := by rw [opened_group, opened_group, receives.opened]
  given := by rw [given_group, given_group, receives.given]

theorem Receives.skip (receives : Receives r calls received)
    (same : Logging.opened (calls ++ [call]) = Logging.opened calls)
    (none : Logging.given [] (calls ++ [call]) = Logging.given [] calls) : Receives r (calls ++ [call]) received where
  opened := by rw [same, receives.opened]
  given := by rw [none, receives.given]

variable {handler : Handler α ω}

theorem Masks.skip (masks : Masks r calls handler)
    (same : opened (calls ++ [call]) = opened calls) (none : given [] (calls ++ [call]) = given [] calls) :
    Masks r (calls ++ [call]) handler := by
  cases masks with
  | console agree receives => exact .console (same ▸ agree) (receives.skip same none)
  | attached agree receives => exact .attached (same ▸ agree) (receives.skip same none)

theorem Masks.withAttrs (masks : Masks r calls handler) (attrs : List (Attr α)) :
    Masks r (calls ++ [.attrs attrs]) (handler.withAttrs attrs) := by
  have same := opened_attrs calls attrs
  cases masks with
  | console agree receives =>
    simp only [Handler.withAttrs]
    split
    · rename_i empty
      have none : attrs.flatMap (leaves (opened calls)) = [] :=
        List.flatMap_eq_nil_iff.mpr fun attr member => leaves_of_isEmptyGroup (List.all_eq_true.mp empty attr member) _
      exact .console (same ▸ agree) (receives.skip same (by rw [given_attrs, none, List.append_nil]))
    · exact .console (same ▸ agree) (receives.with attrs _ (agree ▸ leaves_replace r _))
  | attached agree receives =>
    exact .attached (same ▸ agree) (receives.with attrs _ (agree ▸ leaves_redact r _))

theorem Masks.withGroup (masks : Masks r calls handler) (named : name ≠ []) :
    Masks r (calls ++ [.group name]) (handler.withGroup name) := by
  have same := opened_group calls name
  cases masks with
  | console agree receives => exact .console (by rw [same, enter, if_neg named, agree]) (receives.group name)
  | attached agree receives => exact .attached (by rw [same, any_enter, agree]) (receives.group name)

theorem Masks.delivers (masks : Masks r calls handler) (record : Record α) :
    ∃ delivery, handler.handle record = [delivery] ∧
      delivery.entries = (entries calls record.attrs).map (Entry.masked r) := by
  cases masks with
  | console agree receives =>
    refine ⟨_, rfl, ?_⟩
    simp only [Delivery.entries, entries, receives.given, receives.opened, agree, List.flatMap_map, leaves_replace,
      List.map_append, List.map_flatMap]
  | attached agree receives =>
    refine ⟨_, rfl, ?_⟩
    simp only [Delivery.entries, entries, receives.given, receives.opened, agree, leaves_addAttrs, List.flatMap_map,
      leaves_redact, List.map_append, List.map_flatMap]

private theorem map_replace (groups : List Str) (attrs : List (Attr α)) : attrs.map (replace r groups) =
    memberValues (replaceMembers r groups (attrs.map fun attr => (attr.1, attr.2.resolve))) := by
  induction attrs with
  | nil => simp only [List.map_nil, replaceMembers, memberValues]
  | cons attr rest ih => simp only [List.map_cons, replaceMembers, memberValues, replace, ih]

private theorem map_redact (sensitive : Bool) (attrs : List (Attr α)) : attrs.map (redact r sensitive) =
    memberValues (redactMembers r sensitive (attrs.map fun attr => (attr.1, attr.2.resolve))) := by
  induction attrs with
  | nil => simp only [List.map_nil, redactMembers, memberValues]
  | cons attr rest ih => simp only [List.map_cons, redactMembers, memberValues, redact, ih]

theorem Masks.alike (masks : Masks r calls handler) {one other : Record α}
    (alike : one.Alike r (opened calls) other) : handler.handle one = handler.handle other := by
  cases masks with
  | console agree receives =>
    have attrs := replaceMembers_alike r _ _ _ alike.attrs
    simp only [Handler.handle, map_replace, agree, attrs, builtins, alike.time, alike.level, alike.message]
  | attached agree receives =>
    have attrs := redactMembers_alike r _ _ _ alike.attrs
    simp only [Handler.handle, map_redact, agree, attrs, alike.time, alike.level, alike.message, alike.pc]

/-! ### Whole loggers -/

/-- Every handler of the logger masks what the calls and the records give it. -/
def Output.Masks (r : Redactor) (calls : List (Call α)) (output : Output α ω) : Prop :=
  ∀ handler ∈ output.handlers, Logging.Masks r calls handler

variable {output : Output α ω}

theorem Output.Masks.call (masks : output.Masks r calls) (call : Call α) :
    (output.call call).Masks r (calls ++ [call]) := by
  intro handler member
  cases call with
  | attrs attrs =>
    simp only [Output.call] at member
    split at member
    · rename_i empty
      have nil : attrs = [] := List.isEmpty_iff.mp empty
      refine (masks handler member).skip (opened_attrs ..) ?_
      rw [given_attrs, nil, List.flatMap_nil, List.append_nil]
    · have mapped : (output.withAttrs attrs).handlers = output.handlers.map (·.withAttrs attrs) := by
        cases output <;> rfl
      obtain ⟨before, was, rfl⟩ := List.mem_map.mp (mapped ▸ member)
      exact (masks before was).withAttrs attrs
  | group name =>
    simp only [Output.call] at member
    split at member
    · rename_i empty
      have nil : name = [] := List.isEmpty_iff.mp empty
      refine (masks handler member).skip ?_ (given_group ..)
      rw [opened_group, enter, if_pos nil]
    · rename_i named
      have mapped : (output.withGroup name).handlers = output.handlers.map (·.withGroup name) := by
        cases output <;> rfl
      obtain ⟨before, was, rfl⟩ := List.mem_map.mp (mapped ▸ member)
      exact (masks before was).withGroup fun empty => named (List.isEmpty_iff.mpr empty)

theorem Output.Masks.all (masks : output.Masks r calls) (more : List (Call α)) :
    (more.foldl Output.call output).Masks r (calls ++ more) := by
  induction more generalizing output calls with
  | nil => rwa [List.append_nil]
  | cons call rest ih =>
    rw [List.foldl_cons, List.append_cons]
    exact ih (masks.call call)

private theorem source_withAttrs (handler : Handler α ω) (attrs : List (Attr α)) :
    (handler.withAttrs attrs).source = handler.source := by
  induction handler generalizing attrs with
  | builtin =>
    simp only [Handler.withAttrs]
    split <;> rfl
  | base => rfl
  | redacting inner r flag ih | levelled inner least ih => exact ih _

private theorem sources_call (output : Output α ω) (call : Call α) :
    (output.call call).handlers.map Handler.source = output.handlers.map Handler.source := by
  cases call <;> simp only [Output.call] <;> split <;> first
    | rfl
    | (cases output <;> simp [Output.withAttrs, Output.withGroup, Output.handlers, source_withAttrs, source_withGroup])

theorem sources_calls (output : Output α ω) (calls : List (Call α)) :
    (calls.foldl Output.call output).handlers.map Handler.source = output.handlers.map Handler.source := by
  induction calls generalizing output with
  | nil => rfl
  | cons call rest ih => rw [List.foldl_cons, ih, sources_call]

theorem Output.log_eq (output : Output α ω) (record : Record α) :
    output.log record = (output.handlers.filter (·.enabled record.level)).flatMap (·.handle record) := by
  cases output with
  | alone handler =>
    cases on : handler.enabled record.level <;>
      simp [Output.log, Output.enabled, Output.handle, Output.handlers, on]
  | tee handlers =>
    have each : (handlers.flatMap fun handler => if handler.enabled record.level then handler.handle record else []) =
        (handlers.filter (·.enabled record.level)).flatMap (·.handle record) := by
      induction handlers with
      | nil => rfl
      | cons handler rest ih => cases on : handler.enabled record.level <;> simp [on, ih]
    simp only [Output.log, Output.enabled, Output.handle, Output.handlers, each]
    split
    · rfl
    · rename_i off
      rw [Bool.not_eq_true, List.any_eq_false] at off
      rw [List.filter_eq_nil_iff.mpr off, List.flatMap_nil]

end

structure Built (l : Logger α ω) (cfg : Config α ω) (bases : List (Base α ω)) : Prop where
  redactor : l.redactor = Redactor.new cfg.letters cfg.redactKeys
  service : l.service = cfg.serviceName
  console : ∃ level format, l.console = .builtin level l.redactor format [] []
  handlers :
    ∀ handler ∈ l.attached, ∃ base least, handler = .levelled (.redacting (.base base []) l.redactor false) least
  sources : l.attached.map Handler.source = bases.map some

theorem Built.new (cfg : Config α ω) : Built (Logger.new cfg) cfg [] where
  redactor := by simp only [Logger.new]
  service := by simp only [Logger.new]
  console := by
    simp only [Logger.new]
    exact ⟨_, _, rfl⟩
  handlers := by simp [Logger.new]
  sources := by simp only [Logger.new, List.map_nil]

variable {l : Logger α ω}

theorem Built.attach (built : Built l cfg bases) (base : Base α ω) : Built (l.attach base) cfg (bases ++ [base]) where
  redactor := built.redactor
  service := built.service
  console := built.console
  handlers handler member := by
    rcases List.mem_append.mp member with old | new
    · exact built.handlers handler old
    · exact ⟨base, l.level, List.mem_singleton.mp new⟩
  sources := by
    rw [Logger.attach, List.map_append, List.map_append, built.sources]
    rfl

theorem Built.attachAll (built : Built l cfg bases) (more : List (Base α ω)) :
    Built (more.foldl Logger.attach l) cfg (bases ++ more) := by
  induction more generalizing l bases with
  | nil => rwa [List.append_nil]
  | cons base rest ih =>
    rw [List.foldl_cons, List.append_cons]
    exact ih (built.attach base)

theorem Built.masks [DecidableEq α] (built : Built l cfg bases) :
    Output.Masks l.redactor [] (if l.attached.isEmpty then .alone l.console else .tee (l.console :: l.attached)) := by
  have fresh : Receives l.redactor ([] : List (Call α)) [] := ⟨rfl, rfl⟩
  have all : ∀ handler ∈ l.console :: l.attached, Logging.Masks l.redactor [] handler := by
    intro handler member
    rcases List.mem_cons.mp member with rfl | attached
    · obtain ⟨level, format, console⟩ := built.console
      rw [console]
      exact .console rfl fresh
    · obtain ⟨base, least, rfl⟩ := built.handlers handler attached
      exact .attached rfl fresh
  intro handler member
  refine all handler ?_
  split at member
  · rw [Output.handlers, List.mem_singleton] at member
    exact member ▸ List.mem_cons_self
  · exact member

theorem Built.rebuilt [DecidableEq α] (built : Built l cfg bases) :
    l.rebuild.Masks (Redactor.new cfg.letters cfg.redactKeys) (Logger.serviceCalls cfg.serviceName) := by
  rw [← built.redactor, ← built.service]
  exact built.masks.all _

theorem Built.allSources [DecidableEq α] (built : Built l cfg bases) :
    l.rebuild.handlers.map Handler.source = none :: bases.map some := by
  obtain ⟨level, format, console⟩ := built.console
  rw [Logger.rebuild, sources_calls, ← built.sources]
  split
  · rename_i empty
    rw [List.isEmpty_iff] at empty
    simp [Output.handlers, console, Handler.source, empty]
  · simp [Output.handlers, console, Handler.source]

/-- The console and every attached handler are given a record with the same
attributes masked, those that are not an empty string and that a sensitive key or
group covers; and records that differ in nothing else are written alike. -/
theorem masked_values_do_not_show [DecidableEq α] (cfg : Config α ω) (attached : List (Base α ω))
    (calls : List (Call α)) :
    let output := logger cfg attached calls
    let r := Redactor.new cfg.letters cfg.redactKeys
    let made := Logger.serviceCalls cfg.serviceName ++ calls
    output.handlers.map Handler.source = none :: attached.map some ∧
    (∀ record, output.log record = (output.handlers.filter (·.enabled record.level)).flatMap (·.handle record)) ∧
    (∀ record, ∀ handler ∈ output.handlers, ∃ delivery, handler.handle record = [delivery] ∧
      delivery.entries = (entries made record.attrs).map (Entry.masked r)) ∧
    ∀ one other, one.Alike r (opened made) other → output.log one = output.log other := by
  intro output r made
  have built := (Built.new cfg).attachAll attached
  have masks : output.Masks r made := built.rebuilt.all calls
  refine ⟨?_, fun record => output.log_eq record, fun record handler member => (masks handler member).delivers record,
    fun one other alike => ?_⟩
  · have sources := built.allSources
    rw [List.nil_append] at sources
    rw [← sources]
    exact sources_calls _ calls
  · have each : ∀ handler ∈ output.handlers.filter (·.enabled one.level), handler.handle one = handler.handle other :=
      fun handler member => (masks handler (List.mem_of_mem_filter member)).alike alike
    rw [output.log_eq, output.log_eq, ← alike.level]
    exact List.flatMap_congr each

def asciiLetters : Letters where
  trimSpace text := text
  toLower text := text.map fun byte => if 65 ≤ byte ∧ byte ≤ 90 then byte + 32 else byte
  trimSpace_nil := rfl
  toLower_nil := rfl

def pinConfig : Config Unit (List (Attr Unit)) :=
  { serviceName := ascii "svc", environment := ascii "dev", enableDebug := false, level := 0,
    redactKeys := [ascii "pin"], letters := asciiLetters, text := fun _ _ attrs => attrs, json := fun _ _ attrs =>
      attrs }

def loginOf (user : Str) : Record Unit :=
  ⟨none, 0, ascii "login", 0, [(ascii "user", .valuer (.leaf (.string user)))]⟩

theorem user_in_secret_group_does_not_show : (loginOf (ascii "alice")).attrs ≠ (loginOf (ascii "bob")).attrs ∧
    (logger pinConfig [⟨fun _ _ => true, fun _ record => record.attrs⟩] [.group (ascii "Card-PIN")]).log
        (loginOf (ascii "alice")) =
      (logger pinConfig [⟨fun _ _ => true, fun _ record => record.attrs⟩] [.group (ascii "Card-PIN")]).log
        (loginOf (ascii "bob")) := by
  refine ⟨by simp [loginOf, ascii], (masked_values_do_not_show pinConfig _ _).2.2.2 _ _ ⟨rfl, rfl, rfl, rfl, ?_⟩⟩
  refine ⟨rfl, .inr ⟨?_, nofun, nofun⟩, trivial⟩
  decide

end Gofi.Logging
