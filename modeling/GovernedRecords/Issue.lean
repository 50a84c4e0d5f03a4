import GovernedRecords.Value.Basic

/-!
# Issues and refusals

An issue is one problem reported to a caller: a code, a message, the path of the place it
concerns, and a detail.  A refusal ends a request or an operation; it has a kind, which
fixes its code, its status and whose fault it is, and it reports one issue about itself
or the issues that it carries.
-/

set_option autoImplicit false

namespace GovernedRecords

/-- One reported problem; the detail is null when there is none. -/
structure Issue where
  code : Text
  message : Text
  path : Option Text
  detail : Value

namespace Issue

/-- An issue with a path and no detail. -/
def located (code message path : Text) : Issue := ⟨code, message, some path, .null⟩

/-- An issue with a path and a detail of named values. -/
def withDetail (code message path : Text) (detail : List (Text × Value)) : Issue :=
  ⟨code, message, some path, Value.ofFields detail⟩

/-- The object that reports an issue. -/
def toValue (issue : Issue) : Value :=
  .ofFields [("code", .text issue.code), ("message", .text issue.message),
    ("path", Value.ofText? issue.path), ("detail", issue.detail)]

end Issue

/-- The kinds of refusals that report themselves. -/
inductive RefusalKind where
  | engine
  | client
  | modelNotFound
  | corruptDefinition
  | insufficientPermission
  | ownershipUnknown
  | notOwner
  | resourceNotFound
  | uniqueViolation
  | requestCancelled
  | persistence
  deriving DecidableEq

namespace RefusalKind

/-- The code of a kind. -/
def code : RefusalKind → Text
  | .engine => "ENGINE_ERROR"
  | .client => "ENGINE_ERROR"
  | .modelNotFound => "MODEL_NOT_FOUND"
  | .corruptDefinition => "CORRUPT_DEFINITION"
  | .insufficientPermission => "INSUFFICIENT_PERMISSION"
  | .ownershipUnknown => "OWNERSHIP_UNKNOWN"
  | .notOwner => "NOT_OWNER"
  | .resourceNotFound => "RESOURCE_NOT_FOUND"
  | .uniqueViolation => "UNIQUE_VIOLATION"
  | .requestCancelled => "REQUEST_CANCELLED"
  | .persistence => "PERSISTENCE_ERROR"

/-- The response status of a kind. -/
def status : RefusalKind → Nat
  | .engine => 500
  | .client => 400
  | .modelNotFound => 404
  | .corruptDefinition => 500
  | .insufficientPermission => 403
  | .ownershipUnknown => 403
  | .notOwner => 403
  | .resourceNotFound => 404
  | .uniqueViolation => 409
  | .requestCancelled => 499
  | .persistence => 500

/-- Whether the fault lies with the server. -/
def isServerSide : RefusalKind → Bool
  | .engine => true
  | .corruptDefinition => true
  | .persistence => true
  | _ => false

/-- Whether the kind denies a permission. -/
def isDenial : RefusalKind → Bool
  | .insufficientPermission => true
  | .ownershipUnknown => true
  | .notOwner => true
  | _ => false

end RefusalKind

/-- Why an operation was refused. -/
inductive Refusal where
  /-- A refusal that reports itself. -/
  | plain (kind : RefusalKind) (message : Text) (path : Option Text) (detail : Value)
  /-- A definition that failed the check before it is saved. -/
  | invalidDefinition (message : Text) (problems : List Issue)
  /-- A payload that failed validation. -/
  | validationFailed (errors : List Issue)

namespace Refusal

/-- A refusal with a path and no detail. -/
def about (kind : RefusalKind) (message path : Text) : Refusal :=
  .plain kind message (some path) .null

/-- The code of a refusal. -/
def code : Refusal → Text
  | .plain kind _ _ _ => kind.code
  | .invalidDefinition _ _ => "INVALID_DEFINITION"
  | .validationFailed _ => "VALIDATION_FAILED"

/-- The response status of a refusal. -/
def status : Refusal → Nat
  | .plain kind _ _ _ => kind.status
  | .invalidDefinition _ _ => 400
  | .validationFailed _ => 400

/-- Whether the fault lies with the server. -/
def isServerSide : Refusal → Bool
  | .plain kind _ _ _ => kind.isServerSide
  | _ => false

/-- Whether the fault lies with the caller, as for every kind but the general one and
those of the server. -/
def isClientSide (refusal : Refusal) : Bool := !refusal.isServerSide

/-- Whether the refusal denies a permission. -/
def isDenial : Refusal → Bool
  | .plain kind _ _ _ => kind.isDenial
  | _ => false

/-- The words of a refusal. -/
def message : Refusal → Text
  | .plain _ message _ _ => message
  | .invalidDefinition message _ => message
  | .validationFailed _ => "Payload failed validation"

/-- The path of the place a refusal concerns. -/
def path : Refusal → Option Text
  | .plain _ _ path _ => path
  | .invalidDefinition _ _ => some "definition"
  | .validationFailed _ => some "record"

/-- The detail of a refusal. -/
def detail : Refusal → Value
  | .plain _ _ _ detail => detail
  | .invalidDefinition _ problems =>
    .ofFields [("problems", .list (problems.map Issue.toValue))]
  | .validationFailed errors => .ofFields [("errors", .list (errors.map Issue.toValue))]

/-- The issue that a refusal is. -/
def issue (refusal : Refusal) : Issue :=
  ⟨refusal.code, refusal.message, refusal.path, refusal.detail⟩

/-- The issues that a refusal reports: those it carries, or itself when a definition was
refused without any. -/
def issues : Refusal → List Issue
  | .plain kind message path detail => [(Refusal.plain kind message path detail).issue]
  | .invalidDefinition message problems =>
    if problems.isEmpty then [(Refusal.invalidDefinition message problems).issue] else problems
  | .validationFailed errors => errors

end Refusal

end GovernedRecords
