import Gofi.Go.Utf8

/-! `grpcx/errors.go`: how the error a handler returns becomes a gRPC status, and how
a status becomes an `AppError` again. An error is the tree that `errors.Is` and
`errors.As` walk through. -/

namespace Gofi.Grpcx

open Gofi.Go

inductive Code where
  | ok | canceled | unknown | invalidArgument | deadlineExceeded | notFound | alreadyExists | permissionDenied
  | resourceExhausted | failedPrecondition | aborted | outOfRange | unimplemented | internal | unavailable | dataLoss
  | unauthenticated
  deriving DecidableEq

def Code.string : Code → Str
  | ok => ascii "OK"
  | canceled => ascii "Canceled"
  | unknown => ascii "Unknown"
  | invalidArgument => ascii "InvalidArgument"
  | deadlineExceeded => ascii "DeadlineExceeded"
  | notFound => ascii "NotFound"
  | alreadyExists => ascii "AlreadyExists"
  | permissionDenied => ascii "PermissionDenied"
  | resourceExhausted => ascii "ResourceExhausted"
  | failedPrecondition => ascii "FailedPrecondition"
  | aborted => ascii "Aborted"
  | outOfRange => ascii "OutOfRange"
  | unimplemented => ascii "Unimplemented"
  | internal => ascii "Internal"
  | unavailable => ascii "Unavailable"
  | dataLoss => ascii "DataLoss"
  | unauthenticated => ascii "Unauthenticated"

structure App where
  kind : Str
  code : Str
  message : Str
  details : Option Str
  deriving DecidableEq

inductive Detail where
  | info (reason domain : Str) (metadata : List (Str × Str))
  | other
  deriving DecidableEq

structure Status where
  code : Code
  message : Str
  details : List Detail
  deriving DecidableEq

/-- An error: an `AppError` or a non-nil pointer to one, alone or over the error it
wraps; a nil pointer to one; a status error; a context error; another error by its
text, or one over one or several errors. Errors with an `Is` or `As` method of their
own, other than `AppError`, are left out. -/
inductive Err where
  | app (e : App)
  | appOver (e : App) (cause : Err)
  | pointer (e : App)
  | pointerOver (e : App) (cause : Err)
  | nilPointer
  | status (st : Status)
  | canceled
  | deadlineExceeded
  | other (text : Str)
  | wrap (text : Str) (inner : Err)
  | join (text : Str) (parts : List Err)

def App.text (e : App) : Str :=
  let head := ascii "[" ++ e.kind ++ ascii ":" ++ e.code ++ ascii "] " ++ e.message
  match e.details with
  | some details => head ++ ascii ": " ++ details
  | none => head

def canceledMessage : Str := ascii "context canceled"

def deadlineMessage : Str := ascii "context deadline exceeded"

def Err.text : Err → Option Str
  | app e | appOver e _ | pointer e | pointerOver e _ => some e.text
  | nilPointer => none
  | status st => some (ascii "rpc error: code = " ++ st.code.string ++ ascii " desc = " ++ st.message)
  | canceled => some canceledMessage
  | deadlineExceeded => some deadlineMessage
  | other text | wrap text _ | join text _ => some text

inductive Found (α : Type) where
  | panics
  | absent
  | found (value : α)
  deriving DecidableEq

mutual

/-- `errors.As` and `errors.Is`: the first error, before those it wraps and from left to
right, that is accepted. `Unwrap` of a nil `*AppError` panics. -/
def Err.as (accepts : Err → Option α) (err : Err) : Found α :=
  match accepts err with
  | some value => .found value
  | none =>
    match err with
    | .nilPointer => .panics
    | .appOver _ inner | .pointerOver _ inner | .wrap _ inner => Err.as accepts inner
    | .join _ parts => Err.asAny accepts parts
    | _ => .absent

def Err.asAny (accepts : Err → Option α) : List Err → Found α
  | [] => .absent
  | part :: rest =>
    match Err.as accepts part with
    | .absent => Err.asAny accepts rest
    | answer => answer

end

structure Hit where
  e : App
  wraps : Bool
  deriving DecidableEq

def Hit.exists (hit : Hit) : Bool := hit.e.code ≠ [] || hit.wraps

def Err.value? : Err → Option Hit
  | app e => some ⟨e, false⟩
  | appOver e _ => some ⟨e, true⟩
  | _ => none

def Err.pointer? : Err → Option (Option Hit)
  | pointer e => some (some ⟨e, false⟩)
  | pointerOver e _ => some (some ⟨e, true⟩)
  | nilPointer => some none
  | _ => none

def Err.status? : Err → Option Status
  | status st => some st
  | _ => none

def Err.canceled? : Err → Option Unit
  | canceled => some ()
  | _ => none

def Err.deadline? : Err → Option Unit
  | deadlineExceeded => some ()
  | _ => none

def errorDomain : Str := ascii "gofi.errs"

def kindMetadataKey : Str := ascii "kind"

def internalMessage : Str := ascii "internal error"

def kindValidation : Str := ascii "VALIDATION"

def kindNotFound : Str := ascii "NOT_FOUND"

def kindConflict : Str := ascii "CONFLICT"

def kindOperation : Str := ascii "OPERATION"

def kindExternalError : Str := ascii "EXTERNAL_ERROR"

def kindUnauthorized : Str := ascii "UNAUTHORIZED"

def kindForbidden : Str := ascii "FORBIDDEN"

def kindUnprocessable : Str := ascii "UNPROCESSABLE"

def kindTooManyRequests : Str := ascii "TOO_MANY_REQUESTS"

def codeOf (kind : Str) : Code :=
  if kind = kindValidation then .invalidArgument
  else if kind = kindUnprocessable then .failedPrecondition
  else if kind = kindTooManyRequests then .resourceExhausted
  else if kind = kindNotFound then .notFound
  else if kind = kindConflict then .alreadyExists
  else if kind = kindUnauthorized then .unauthenticated
  else if kind = kindForbidden then .permissionDenied
  else if kind = kindExternalError then .unavailable
  else .internal

def kindOf : Code → Str
  | .invalidArgument | .outOfRange => kindValidation
  | .notFound => kindNotFound
  | .alreadyExists | .aborted | .failedPrecondition => kindConflict
  | .unauthenticated => kindUnauthorized
  | .permissionDenied => kindForbidden
  | .unavailable | .deadlineExceeded | .resourceExhausted => kindExternalError
  | _ => kindOperation

/-- The `status` package of gRPC. `FromError` finds the status of a status error, and
one in no tree that holds none; `WithDetails` keeps the message, and adds an `ErrorInfo`
whose texts are valid UTF-8 to a status that is not OK. -/
structure StatusPackage where
  fromError : Err → Found Status
  withDetails : Status → Detail → Option Status
  own : fromError (.status st) = .found st
  held : fromError err = .found st → ∃ inner, err.as Err.status? = .found inner
  kept : withDetails st detail = some made → made.message = st.message
  added : st.code ≠ .ok → Utf8.valid reason → Utf8.valid domain →
    (∀ entry ∈ metadata, Utf8.valid entry.1 ∧ Utf8.valid entry.2) →
    withDetails st (.info reason domain metadata) =
      some { st with details := st.details ++ [.info reason domain metadata] }

section

variable (lib : StatusPackage)

/-- The `ErrorInfo` is left out when `WithDetails` fails. -/
def appErrorStatus (e : App) : Status :=
  let st : Status := ⟨codeOf e.kind, e.message, []⟩
  (lib.withDetails st (.info e.code errorDomain [(kindMetadataKey, e.kind)])).getD st

inductive Converted where
  | panics
  | nil
  | same
  | made (st : Status)
  deriving DecidableEq

def foreignStatus (err : Err) : Converted :=
  match lib.fromError err with
  | .panics => .panics
  | .found _ => .same
  | .absent =>
    match err.as Err.canceled? with
    | .panics => .panics
    | .found () => .made ⟨.canceled, canceledMessage, []⟩
    | .absent =>
      match err.as Err.deadline? with
      | .panics => .panics
      | .found () => .made ⟨.deadlineExceeded, deadlineMessage, []⟩
      | .absent => .made ⟨.internal, internalMessage, []⟩

def status : Option Err → Converted
  | none => .nil
  | some err =>
    match err.as Err.value? with
    | .panics => .panics
    | .found hit => if hit.exists then .made (appErrorStatus lib hit.e) else .nil
    | .absent =>
      match err.as Err.pointer? with
      | .panics => .panics
      | .found (some hit) => if hit.exists then .made (appErrorStatus lib hit.e) else .nil
      | _ => foreignStatus lib err

/-- The errors registered in a process, each under its own code. -/
structure Registry where
  errorMap : Str → Option App
  keyed : errorMap code = some e → e.code = code

def fromDetails (registry : Registry) (st : Status) : List Detail → App
  | [] => ⟨kindOf st.code, st.code.string, st.message, none⟩
  | .other :: rest => fromDetails registry st rest
  | .info reason domain metadata :: rest =>
    if domain ≠ errorDomain then fromDetails registry st rest
    else
      let kind := (metadata.lookup kindMetadataKey).getD []
      let rebuilt : App := ⟨if kind = [] then kindOf st.code else kind, reason, st.message, none⟩
      match registry.errorMap reason with
      | some registered => if registered.code ≠ [] then { registered with message := st.message } else rebuilt
      | none => rebuilt

def fromError (registry : Registry) : Option Err → Found App
  | none => .absent
  | some err =>
    match lib.fromError err with
    | .panics => .panics
    | .absent =>
      match err.text with
      | some text => .found ⟨kindOperation, Code.unknown.string, text, none⟩
      | none => .panics
    | .found st => .found (fromDetails registry st st.details)

end

end Gofi.Grpcx
