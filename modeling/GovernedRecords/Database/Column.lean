import GovernedRecords.Json.Reader
import GovernedRecords.Json.Writer
import GovernedRecords.Operation

/-!
# Columns

Documents are stored as JSON and may come back as text or as values; moments come back as
dates with times and are shown as stamps.
-/

set_option autoImplicit false

namespace GovernedRecords

variable [Host]

namespace Column

/-- The text of a document; kinds that JSON does not have are written as their text. -/
def encode (document : Value) : Except Fault Value :=
  match Json.write Json.Style.stored document with
  | .ok characters => .ok (.text characters)
  | .error error => .error (.ofWriting error)

/-- The document of a column, read when it is a text. -/
def decode (column : Value) : Except Fault Value :=
  match column with
  | .text characters =>
    (Json.read characters).mapError Fault.ofReading
  | other => .ok other

/-- A moment as its stamp, and any other column as it is. -/
def stamped (column : Value) : Except Fault Value :=
  match column with
  | .datetime moment => (Value.datetime moment).stamp.map .text
  | other => .ok other

/-- A column of a row. -/
def require (row : Entries) (name : Text) : Except Fault Value :=
  match Entries.get? row name with
  | some column => .ok column
  | none => .error .missingColumn

/-- The entries of a document that is an object, none for one that counts as absent. -/
def entries (document : Value) : Except Fault Entries :=
  if document.isTruthy then
    match document with
    | .object entries => .ok entries
    | _ => .error .unsupportedOperand
  else .ok []

end Column

end GovernedRecords
