import GovernedRecords.Definition.Basic
import GovernedRecords.Value.Display
import GovernedRecords.Issue

/-!
# Permission by role and ownership

The grants of the role are checked first, so ownership never makes up for a missing
grant.  The owner of a record matters only for changing or removing one under a model with
an owner field, and not for administrators.  Owner and principal are compared as texts; there
is no decision where one of them has none.
-/

set_option autoImplicit false

namespace GovernedRecords

/-- Who makes a request. -/
structure Principal where
  id : Value
  role : Value

/-- Whether a principal has the role of administrator. -/
def Principal.isAdmin (principal : Principal) : Bool := Role.ofValue? principal.role = some .admin

/-- Why a permission is denied. -/
inductive Denial where
  | insufficientPermission
  | ownershipUnknown
  | notOwner
  deriving DecidableEq

namespace Denial

/-- The kind of refusal of a denial. -/
def kind : Denial → RefusalKind
  | .insufficientPermission => .insufficientPermission
  | .ownershipUnknown => .ownershipUnknown
  | .notOwner => .notOwner

/-- The code of a denial. -/
def code (denial : Denial) : Text := denial.kind.code

/-- The words of a denial. -/
def message : Denial → Text
  | .insufficientPermission => "Insufficient permissions for this action"
  | .ownershipUnknown => "Record ownership could not be determined"
  | .notOwner => "You can only modify your own records"

/-- The refusal of an action that is denied. -/
def refusal (denial : Denial) : Refusal := .about denial.kind denial.message "action"

end Denial

/-- Whether an action is allowed, and if not, why. -/
inductive Verdict where
  | allowed
  | denied (reason : Denial)
  /-- There is no decision: a text that it takes cannot be made. -/
  | failed (error : TextError)
  deriving DecidableEq

namespace Verdict

/-- Whether a verdict allows. -/
def isAllowed : Verdict → Bool
  | .allowed => true
  | .denied _ => false
  | .failed _ => false

/-- The reason of a denial. -/
def reason? : Verdict → Option Denial
  | .allowed => none
  | .denied reason => some reason
  | .failed _ => none

/-- The fields that show a verdict. -/
def fields (verdict : Verdict) : List (Text × Value) :=
  [("allowed", .bool verdict.isAllowed),
    ("reason", Value.ofText? (verdict.reason?.map Denial.code))]

end Verdict

namespace Definition

/-- Whether a principal may perform an action, given the owner of the record it concerns,
which is null when it is not known.  A value that names no action is never allowed. -/
def evaluate [Host] (definition : Definition) (principal : Principal) (action : Option Action)
    (owner : Value) : Verdict :=
  match action with
  | none => .denied .insufficientPermission
  | some action =>
    if !(definition.actionsFor principal.role).has action then .denied .insufficientPermission
    else if !action.isMutating then .allowed
    else if definition.owner?.isNone then .allowed
    else if principal.isAdmin then .allowed
    else if owner.isNull then .denied .ownershipUnknown
    else
      match owner.sameText principal.id with
      | .ok true => .allowed
      | .ok false => .denied .notOwner
      | .error error => .failed error

/-- Whether the verdict depends on the owner of the record. -/
def needsOwner (definition : Definition) (principal : Principal) (action : Option Action) : Bool :=
  match action with
  | none => false
  | some action => action.isMutating && definition.owner?.isSome && !principal.isAdmin

end Definition

end GovernedRecords
