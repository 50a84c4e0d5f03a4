import GovernedRecords.Text.Blank
import GovernedRecords.Time.Instant
import GovernedRecords.Value.Basic

/-!
# Model definitions

A model has named fields with types and flags, a table of which role may do what, and
perhaps a table name, a field that holds the owner of a record, and two stamps.

Roles and actions are few, so the table of grants has one place for each role, and the
set of actions of a role is four truth values.  Two tables are equal exactly when they
grant the same, however they were written.
-/

set_option autoImplicit false

namespace GovernedRecords

/-! ## Names of the closed kinds -/

/-- The types of fields. -/
inductive FieldType where
  | string
  | number
  | boolean
  | date
  | text
  deriving DecidableEq

/-- What a request does with records. -/
inductive Action where
  | create
  | read
  | update
  | delete
  deriving DecidableEq

/-- The roles of principals. -/
inductive Role where
  | admin
  | manager
  | viewer
  deriving DecidableEq

namespace FieldType

/-- The types in their order. -/
def all : List FieldType := [.string, .number, .boolean, .date, .text]

/-- The word for a type. -/
def name : FieldType → Text
  | .string => "string"
  | .number => "number"
  | .boolean => "boolean"
  | .date => "date"
  | .text => "text"

/-- The type a value names. -/
def ofValue? (value : Value) : Option FieldType := all.find? fun each => value.isText each.name

end FieldType

namespace Action

/-- The actions in their order. -/
def all : List Action := [.create, .read, .update, .delete]

/-- The word for an action. -/
def name : Action → Text
  | .create => "create"
  | .read => "read"
  | .update => "update"
  | .delete => "delete"

/-- The action a value names. -/
def ofValue? (value : Value) : Option Action := all.find? fun each => value.isText each.name

/-- Whether an action changes or removes a record that is there. -/
def isMutating : Action → Bool
  | .update => true
  | .delete => true
  | _ => false

end Action

namespace Role

/-- The roles in their order. -/
def all : List Role := [.admin, .manager, .viewer]

/-- The word for a role. -/
def name : Role → Text
  | .admin => "Admin"
  | .manager => "Manager"
  | .viewer => "Viewer"

/-- The role a value names. -/
def ofValue? (value : Value) : Option Role := all.find? fun each => value.isText each.name

end Role

/-! ## Grants -/

/-- A set of actions. -/
structure ActionSet where
  create : Bool
  read : Bool
  update : Bool
  delete : Bool
  deriving DecidableEq

namespace ActionSet

/-- No action. -/
def empty : ActionSet := ⟨false, false, false, false⟩

/-- Whether an action is in a set. -/
def has (set : ActionSet) : Action → Bool
  | .create => set.create
  | .read => set.read
  | .update => set.update
  | .delete => set.delete

/-- A set with one more action. -/
def insert (action : Action) (set : ActionSet) : ActionSet :=
  match action with
  | .create => { set with create := true }
  | .read => { set with read := true }
  | .update => { set with update := true }
  | .delete => { set with delete := true }

/-- The set of some actions. -/
def ofList (actions : List Action) : ActionSet := actions.foldr insert empty

/-- The actions of a set in their order. -/
def toList (set : ActionSet) : List Action := Action.all.filter set.has

end ActionSet

/-- For each role the actions it may perform, none where the role is not listed. -/
structure Grants where
  admin : Option ActionSet
  manager : Option ActionSet
  viewer : Option ActionSet
  deriving DecidableEq

namespace Grants

/-- No role is listed. -/
def empty : Grants := ⟨none, none, none⟩

/-- The actions listed for a role. -/
def get? (grants : Grants) : Role → Option ActionSet
  | .admin => grants.admin
  | .manager => grants.manager
  | .viewer => grants.viewer

/-- Lists the actions of a role, in place of those listed before. -/
def put (role : Role) (actions : ActionSet) (grants : Grants) : Grants :=
  match role with
  | .admin => { grants with admin := some actions }
  | .manager => { grants with manager := some actions }
  | .viewer => { grants with viewer := some actions }

end Grants

/-! ## Definitions -/

/-- A declared field. -/
structure Field where
  name : Text
  type : FieldType
  required : Bool
  unique : Bool
  default : Option Text
  relation : Option Text
  deriving DecidableEq

/-- A model definition.  Table name, owner field and relations are never empty texts when
they were read from a document. -/
structure Definition where
  name : Text
  fields : List Field
  grants : Grants
  tableName : Option Text
  ownerField : Option Text
  createdAt : Option Instant
  updatedAt : Option Instant
  deriving DecidableEq

namespace Definition

/-- The first field with a name. -/
def field? (definition : Definition) (name : Text) : Option Field :=
  definition.fields.find? fun field => field.name == name

/-- The names of the fields in order. -/
def fieldNames (definition : Definition) : List Text := definition.fields.map Field.name

/-- The actions a role may perform; a value that names no role may perform none. -/
def actionsFor (definition : Definition) (role : Value) : ActionSet :=
  match Role.ofValue? role with
  | some member => (definition.grants.get? member).getD ActionSet.empty
  | none => ActionSet.empty

/-- The owner field, unless it is empty. -/
def owner? (definition : Definition) : Option Text :=
  definition.ownerField.filter fun name => !name.isEmpty

/-- The definition with other stamps. -/
def withStamps (definition : Definition) (createdAt updatedAt : Option Instant) : Definition :=
  { definition with createdAt := createdAt, updatedAt := updatedAt }

end Definition

/-! ## Names -/

/-- A letter of ASCII, a digit or an underscore. -/
def CodePoint.isNamePart (point : CodePoint) : Bool :=
  point.isUpperLetter || point.isLowerLetter || point.isDigit || point = CodePoint.ofChar '_'

/-- Whether a text is an identifier: it begins with a letter or an underscore, goes on
with letters, digits and underscores, and may end with one line feed. -/
def Text.isModelName : Text → Bool
  | [] => false
  | first :: rest =>
    (first.isNamePart && !first.isDigit) &&
      match rest.dropWhile CodePoint.isNamePart with
      | [] => true
      | [last] => last = CodePoint.ofChar '\n'
      | _ => false

/-- Whether a value is a text that is an identifier. -/
def Value.isModelName : Value → Bool
  | .text name => name.isModelName
  | _ => false

/-- The columns that may hold an owner without being declared. -/
def identityColumns : List Text := ["createdBy", "ownerId", "userId"]

/-- The keys of a record that the record store assigns. -/
def systemKeys : List Text := ["id", "createdAt", "updatedAt"]

end GovernedRecords
