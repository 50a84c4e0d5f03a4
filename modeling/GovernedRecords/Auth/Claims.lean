import GovernedRecords.Fault
import GovernedRecords.Text.Blank
import GovernedRecords.Text.LowerCase

/-!
# Tokens and claims

A request carries its token in a header, after the word for the scheme.  The claims of a
token that was accepted make a user: the role that the application gave comes before the
roles that stand among the claims themselves.
-/

set_option autoImplicit false

namespace GovernedRecords

/-- What stands before the token in its header. -/
def bearerMark : Text := "Bearer "

/-- The token of a header, if it carries one. -/
def bearerToken? (header : Text) : Option Text :=
  if bearerMark.isPrefixOf header then
    let token := Text.trim (header.drop bearerMark.length)
    if token.isEmpty then none else some token
  else none

/-- Whether a setting says yes. -/
def Text.isAffirmative (setting : Text) : Bool :=
  (["1", "true", "yes"] : List Text).contains setting.trim.lower

namespace Claims

/-- The role that the application gave, when it counts as present. -/
def applicationRole? (claims : Entries) : Option Value :=
  match Entries.get claims "app_metadata" with
  | .object entries =>
    let role := Entries.get entries "role"
    if role.isTruthy then some role else none
  | _ => none

/-- The role that claims give. -/
def role (claims : Entries) : Value :=
  match applicationRole? claims with
  | some role => role
  | none =>
    let role := Entries.get claims "user_role"
    if role.isTruthy then role else Entries.get claims "role"

/-- The user that claims describe. -/
def user (claims : Entries) : Value :=
  .ofFields [("id", Entries.get claims "sub"), ("email", Entries.get claims "email"),
    ("role", role claims), ("claims", .object claims)]

/-- The user that a value describes, which are claims only when it is an object. -/
def userOf (claims : Value) : Except Fault Value :=
  match claims with
  | .object entries => .ok (user entries)
  | _ => .error .missingOperation

end Claims

end GovernedRecords
