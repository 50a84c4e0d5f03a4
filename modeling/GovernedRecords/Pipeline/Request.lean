import GovernedRecords.Access.Permission
import GovernedRecords.Fault

/-!
# Record requests and their outcomes

A request names a model, an action and perhaps a record, and may carry a payload.  It
passes through stages in a fixed order, and its outcome tells how far it came: a response,
or the refusal that ended it.

A response shows a record as its id, its two stamps and the rest of its values.
-/

set_option autoImplicit false

namespace GovernedRecords

/-- A request to work with the records of a model. -/
structure RecordRequest where
  model : Value
  action : Value
  principal : Principal
  payload : Value
  id : Value

/-- The stages of a request, in their order. -/
inductive Stage where
  | resolveModel
  | authorize
  | validatePayload
  | execute
  | respond
  deriving DecidableEq

/-- The word for a stage. -/
def Stage.name : Stage → Text
  | .resolveModel => "resolve_model"
  | .authorize => "authorize"
  | .validatePayload => "validate_payload"
  | .execute => "execute"
  | .respond => "respond"

/-- A record split into its id, its stamps and the rest. -/
def shapeRecord (record : Entries) : Value :=
  .ofFields [("id", Entries.get record "id"),
    ("record", .object (record.filter fun entry =>
      !systemKeys.any fun key => entry.1.isText key)),
    ("createdAt", Entries.get record "createdAt"),
    ("updatedAt", Entries.get record "updatedAt")]

/-- What a request that succeeds answers. -/
inductive Response where
  | record (record : Entries)
  | records (records : List Entries)
  | deleted (id : Value)

namespace Response

/-- The object that shows a response. -/
def toValue : Response → Value
  | .record entries => shapeRecord entries
  | .records all => .ofFields [("records", .list (all.map shapeRecord))]
  | .deleted id => .ofFields [("id", id), ("deleted", .bool true)]

/-- The entries of the record that a value shows; other values have no entries. -/
def entriesOf : Value → Except Fault Entries
  | .object entries => .ok entries
  | _ => .error .missingOperation

/-- The response to an action, made of what the record store answered.  A list is taken for
a list of records whatever the action was; a removal responds with the id. -/
def ofAnswer (action : Action) (answer : Value) : Except Fault Response :=
  match action, answer with
  | .delete, id => .ok (.deleted id)
  | _, .list items => (items.mapM entriesOf).map .records
  | _, other => (entriesOf other).map .record

end Response

/-- How a request ended, with the stages it entered. -/
structure Outcome where
  trail : List Stage
  result : Except Refusal Response

namespace Outcome

/-- The names of the stages. -/
def trailValue (outcome : Outcome) : Value := Value.ofTexts (outcome.trail.map Stage.name)

/-- The object that shows an outcome. -/
def toValue (outcome : Outcome) : Value :=
  match outcome.result with
  | .ok response =>
    .ofFields [("ok", .bool true), ("state", .text Stage.respond.name),
      ("trail", outcome.trailValue), ("failure", .null), ("errors", .list []),
      ("warnings", .list []), ("response", response.toValue)]
  | .error refusal =>
    .ofFields [("ok", .bool false), ("state", "failed"), ("trail", outcome.trailValue),
      ("failure", .text refusal.code), ("status", .int refusal.status),
      ("errors", .list (refusal.issues.map Issue.toValue)), ("warnings", .list []),
      ("response", .null)]

end Outcome

end GovernedRecords
