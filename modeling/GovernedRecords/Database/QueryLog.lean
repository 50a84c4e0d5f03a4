import GovernedRecords.Value.Arithmetic
import GovernedRecords.Value.Members

/-!
# The query log

A statement is logged when it has a name, when all statements are, and when it was slow.
Its parameters are logged redacted: long texts are cut and bytes are counted.  Only the
parameters themselves are redacted, not what they contain.
-/

set_option autoImplicit false

namespace GovernedRecords

namespace QueryLog

/-- The greatest length of a text that is logged whole. -/
def wholeText : Nat := 80

/-- A parameter as it is logged. -/
def redact : Value → Value
  | .bytes octets => .text (Text.concat ["<bytes:", Text.ofNat octets.length, ">"])
  | .text characters =>
    if wholeText < characters.length then
      .text (Text.concat
        [characters.take 40, "…", characters.drop (characters.length - 10)])
    else .text characters
  | other => other

/-- The parameters of a statement as they are logged; null stands for none. -/
def redacted (parameters : Value) : Except Fault Value :=
  if parameters.isNull then .ok .null
  else parameters.members.map fun items => .list (items.map redact)

/-- How urgent a line of the log is. -/
inductive Level where
  | info
  | warning
  deriving DecidableEq

/-- The name of a level. -/
def Level.name : Level → Text
  | .info => "info"
  | .warning => "warning"

/-- How a line of a level is written, with its message in the place of the mark. -/
def Level.format : Level → Text
  | .info => "db_query=%s"
  | .warning => "db_slow_query=%s"

/-- A line of the log. -/
structure Line where
  level : Level
  message : Value

/-- The milliseconds from which on a statement is slow. -/
def slowFrom : Value.Numeric := .integer 200

/-- A statement that was answered; a name that counts as absent is none. -/
structure Query where
  name : Value
  parameters : Value
  milliseconds : Value
  rowCount : Value

namespace Query

/-- Whether a statement is logged; a time that is no number is not a short one. -/
def isLogged (logAll : Bool) (query : Query) : Except Fault Bool :=
  if query.name.isTruthy || logAll then .ok true
  else query.milliseconds.toNumeric.map fun time => !time.lt slowFrom

/-- What is logged of a statement with its time, which is rounded to a hundredth of a
millisecond. -/
def message (query : Query) (time : Value.Numeric) : Except Fault Value :=
  (redacted query.parameters).map fun parameters =>
    .ofFields [("query", if query.name.isTruthy then query.name else "unnamed"),
      ("ms", (time.roundPlaces 2).toValue), ("rowcount", query.rowCount), ("params", parameters)]

/-- The level of a statement by its time. -/
def level (time : Value.Numeric) : Level := if time.atLeast slowFrom then .warning else .info

/-- The lines that a statement leaves in the log: one or none. -/
def lines (logAll : Bool) (query : Query) : Except Fault (List Line) := do
  if ← query.isLogged logAll then
    let time ← query.milliseconds.toNumeric
    return [⟨level time, ← query.message time⟩]
  else return []

end Query

end QueryLog

end GovernedRecords
