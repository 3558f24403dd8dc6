import Gofi.Logging.Redact

/-! `obs/logging/logging.go`: the logger that writes to the console and to the
attached handlers. A handler that is attached may be any; it is known by what it does
with what it has been given. -/

namespace Gofi.Logging

open Gofi.Go

inductive Call (α : Type) where
  | attrs (attrs : List (Attr α))
  | group (name : Str)

structure Record (α : Type) where
  time : Option Int
  level : Int
  message : Str
  pc : Nat
  attrs : List (Attr α)

structure Base (α ω : Type) where
  enabled : List (Call α) → Int → Bool
  output : List (Call α) → Record α → ω

/-- How `slog`'s text or JSON handler writes the attributes of its own, those of the
calls of `WithAttrs`, and those of a record. -/
abbrev Format (α ω : Type) := List (Str × Leaf α) → List (Call α) → List (Attr α) → ω

structure Delivery (α ω : Type) where
  received : List (Call α)
  attrs : List (Attr α)
  output : ω

inductive Handler (α ω : Type) where
  | builtin (level : Int) (r : Redactor) (format : Format α ω) (groups : List Str) (received : List (Call α))
  | base (handler : Base α ω) (received : List (Call α))
  | redacting (inner : Handler α ω) (r : Redactor) (sensitiveGroup : Bool)
  | levelled (inner : Handler α ω) (min : Int)

/-- The attributes `slog`'s handlers add: they are in no group. -/
def builtins [DecidableEq α] (r : Redactor) (record : Record α) : List (Str × Leaf α) :=
  let attrs : List (Str × Leaf α) := (record.time.map fun time => (ascii "time", .time time)).toList ++
    [(ascii "level", .level record.level), (ascii "msg", .string record.message)]
  attrs.map fun (key, leaf) => (key, replaceAttr r [] key leaf)

def addAttrs (attrs : List (Attr α)) : List (Attr α) := attrs.filter (!·.2.isEmptyGroup)

namespace Handler

def enabled (level : Int) : Handler α ω → Bool
  | builtin min _ _ _ _ => min ≤ level
  | base handler received => handler.enabled received level
  | redacting inner _ _ => inner.enabled level
  | levelled inner min => min ≤ level && inner.enabled level

/-- The handler from outside that is given the records; none is `slog`'s own. -/
def source : Handler α ω → Option (Base α ω)
  | builtin _ _ _ _ _ => none
  | base handler _ => some handler
  | redacting inner _ _ => inner.source
  | levelled inner _ => inner.source

variable [DecidableEq α]

def withAttrs (attrs : List (Attr α)) : Handler α ω → Handler α ω
  | builtin level r format groups received =>
    if attrs.all (·.2.isEmptyGroup) then builtin level r format groups received
    else builtin level r format groups (received ++ [.attrs (attrs.map (replace r groups))])
  | base handler received => base handler (received ++ [.attrs attrs])
  | redacting inner r sensitiveGroup =>
    redacting (inner.withAttrs (attrs.map (redact r sensitiveGroup))) r sensitiveGroup
  | levelled inner min => levelled (inner.withAttrs attrs) min

def withGroup (name : Str) : Handler α ω → Handler α ω
  | builtin level r format groups received => builtin level r format (groups ++ [name]) (received ++ [.group name])
  | base handler received => base handler (received ++ [.group name])
  | redacting inner r sensitiveGroup => redacting (inner.withGroup name) r (sensitiveGroup || r.sensitive name)
  | levelled inner min => levelled (inner.withGroup name) min

def handle (record : Record α) : Handler α ω → List (Delivery α ω)
  | builtin _ r format groups received =>
    let attrs := record.attrs.map (replace r groups)
    [⟨received, attrs, format (builtins r record) received attrs⟩]
  | base handler received => [⟨received, record.attrs, handler.output received record⟩]
  | redacting inner r sensitiveGroup =>
    inner.handle { record with attrs := addAttrs (record.attrs.map (redact r sensitiveGroup)) }
  | levelled inner _ => inner.handle record

end Handler

inductive Output (α ω : Type) where
  | alone (handler : Handler α ω)
  | tee (handlers : List (Handler α ω))

namespace Output

def handlers : Output α ω → List (Handler α ω)
  | alone handler => [handler]
  | tee handlers => handlers

def enabled (level : Int) : Output α ω → Bool
  | alone handler => handler.enabled level
  | tee handlers => handlers.any (·.enabled level)

variable [DecidableEq α]

def withAttrs (attrs : List (Attr α)) : Output α ω → Output α ω
  | alone handler => alone (handler.withAttrs attrs)
  | tee handlers => tee (handlers.map (·.withAttrs attrs))

def withGroup (name : Str) : Output α ω → Output α ω
  | alone handler => alone (handler.withGroup name)
  | tee handlers => tee (handlers.map (·.withGroup name))

def handle (record : Record α) : Output α ω → List (Delivery α ω)
  | alone handler => handler.handle record
  | tee handlers => handlers.flatMap fun handler =>
    if handler.enabled record.level then handler.handle record else []

/-- `slog.Logger.With` and `WithGroup`: without attributes or with an empty name the
logger stays as it is. -/
def call (output : Output α ω) : Call α → Output α ω
  | .attrs attrs => if attrs.isEmpty then output else output.withAttrs attrs
  | .group name => if name.isEmpty then output else output.withGroup name

def log (output : Output α ω) (record : Record α) : List (Delivery α ω) :=
  if output.enabled record.level then output.handle record else []

end Output

/-- The part of `Config` a logger is made of, with `slog`'s two formats. -/
structure Config (α ω : Type) where
  serviceName : Str
  environment : Str
  enableDebug : Bool
  level : Int
  redactKeys : List Str
  letters : Letters
  text : Format α ω
  json : Format α ω

structure Logger (α ω : Type) where
  console : Handler α ω
  level : Int
  redactor : Redactor
  service : Str
  attached : List (Handler α ω)

namespace Logger

def new (cfg : Config α ω) : Logger α ω :=
  let level := if cfg.enableDebug then -4 else cfg.level
  let r := Redactor.new cfg.letters cfg.redactKeys
  let format := if cfg.environment = ascii "dev" then cfg.text else cfg.json
  { console := .builtin level r format [] [], level, redactor := r, service := cfg.serviceName, attached := [] }

def attach (l : Logger α ω) (handler : Base α ω) : Logger α ω :=
  { l with attached := l.attached ++ [.levelled (.redacting (.base handler []) l.redactor false) l.level] }

variable [DecidableEq α]

def serviceCalls (service : Str) : List (Call α) :=
  if service.isEmpty then [] else [.attrs [(ascii "service", .leaf (.string service))]]

def rebuild (l : Logger α ω) : Output α ω :=
  (serviceCalls l.service).foldl Output.call
    (if l.attached.isEmpty then .alone l.console else .tee (l.console :: l.attached))

end Logger

def logger [DecidableEq α] (cfg : Config α ω) (attached : List (Base α ω)) (calls : List (Call α)) : Output α ω :=
  calls.foldl Output.call (attached.foldl Logger.attach (Logger.new cfg)).rebuild

end Gofi.Logging
