import GovernedRecords.Definition.Check
import GovernedRecords.Json.Canonical
import GovernedRecords.Json.Reader
import GovernedRecords.Validation.Payload

/-!
# Faults

Everything that can end an operation without a result.  Refusals are answers to the
caller; the other faults say that a value, a stored document or a collaborator is not what
the operation needs.  Two groups of faults are caught inside the library: those that make
a stored document unreadable, and those that mean a record is not there.
-/

set_option autoImplicit false

namespace GovernedRecords

/-- What ended an operation. -/
inductive Fault where
  /-- The operation was refused. -/
  | refused (refusal : Refusal)
  /-- A document is no definition. -/
  | notDefinition (problems : List Issue)
  /-- A value is not of a field type. -/
  | coercion (error : CoercionError)
  /-- A quantity left its range. -/
  | outOfRange (cause : OutOfRange)
  /-- A document has no canonical text. -/
  | obstacle (cause : Canonical.Obstacle)
  /-- A text with a lone surrogate has no bytes. -/
  | unencodable
  /-- A value names no mode. -/
  | unknownMode (value : Value)
  /-- A value is no model name. -/
  | invalidName (name : Value)
  /-- A stored document is no object; the text says where it is stored. -/
  | notObject (place : Text)
  /-- A stored file is no JSON. -/
  | malformedFile
  /-- A text is no JSON. -/
  | malformedJson
  /-- An integer has more digits than are read or written; the number says how many were to be
  read. -/
  | tooManyDigits (count : Option Nat)
  /-- A value is nested too deeply to be read, copied or shown. -/
  | tooDeep
  /-- Bytes are no UTF-8. -/
  | undecodable
  /-- A value of a kind that JSON does not have. -/
  | unwritable
  /-- A list, set or object stands where a key is needed. -/
  | unhashable
  /-- A value does not have the operation it is used for. -/
  | missingOperation
  /-- A value does not take part in an operation it is used in. -/
  | unsupportedOperand
  /-- A member of a value that is to become an object is no pair: its place, and how many
  members it has. -/
  | notPair (place length : Nat)
  /-- No record has the given id. -/
  | noRecord
  /-- A row lacks a column. -/
  | missingColumn
  /-- The database refused a statement. -/
  | statement (message : Text)
  /-- A token is not accepted. -/
  | rejectedToken (message : Text)
  /-- The keys of the tokens cannot be fetched. -/
  | unreachableKeys (message : Text)
  /-- No database is configured. -/
  | unconfigured
  /-- A text is no integer. -/
  | notInteger (text : Text)
  /-- A text is no number. -/
  | notNumeral (text : Text)
  /-- A setting holds a zero character. -/
  | embeddedNull
  /-- A file has a longer name than files may have. -/
  | longName
  /-- There is no such file. -/
  | noFile

namespace Fault

/-- A refusal with a path and no detail. -/
def refuse (kind : RefusalKind) (message path : Text) : Fault := .refused (.about kind message path)

/-- The fault of a value without a text. -/
def ofText : TextError → Fault
  | .tooManyDigits => .tooManyDigits none
  | .tooDeep => .tooDeep

/-- The fault of a document that is no definition. -/
def ofDocument : DocumentError → Fault
  | .issues problems => .notDefinition problems
  | .outOfRange cause => .outOfRange cause
  | .text error => ofText error

/-- The fault of a value that is not of a field type. -/
def ofCoercion (error : CoercionError) : Fault :=
  match error.outOfRange? with
  | some cause => .outOfRange cause
  | none => .coercion error

/-- The fault of a document without a canonical text. -/
def ofObstacle : Canonical.Obstacle → Fault
  | .text error => ofText error
  | cause => .obstacle cause

/-- The fault of a document without a content hash. -/
def ofHash : HashError → Fault
  | .obstacle cause => ofObstacle cause
  | .unencodable => .unencodable

/-- The fault of a document that cannot be written. -/
def ofWriting : Json.WriteError → Fault
  | .unsupported => .unwritable
  | .nonFinite => .coercion .notFinite
  | .surrogate => .unencodable
  | .text error => ofText error

/-- The fault of a text that is not read as JSON. -/
def ofReading : Json.ReadError → Fault
  | .malformed => .malformedJson
  | .tooDeep => .tooDeep
  | .tooManyDigits count => .tooManyDigits (some count)

/-- Whether a fault means that a stored document cannot be read. -/
def isUnreadable : Fault → Bool
  | .notDefinition _ => true
  | .coercion _ => true
  | .obstacle (.nonFinite _ _) => true
  | .unencodable => true
  | .unknownMode _ => true
  | .invalidName _ => true
  | .notObject _ => true
  | .malformedFile => true
  | .malformedJson => true
  | .tooManyDigits _ => true
  | .notPair _ _ => true
  | .undecodable => true
  | _ => false

/-- Whether a fault means that something looked up is not there. -/
def isMissingKey : Fault → Bool
  | .noRecord => true
  | .missingColumn => true
  | _ => false

/-- The greatest length at which the text of a refused numeral is shown. -/
def shownNumeral : Nat := 200

/-- The words of a fault. -/
def message : Fault → Text
  | .refused refusal => refusal.message
  | .notDefinition problems =>
    Text.join "; " (problems.map fun problem =>
      Text.concat [(Value.ofText? problem.path).display, ": ", problem.message])
  | .coercion error => error.message
  | .outOfRange .instant => "date value out of range"
  | .outOfRange .number => "int too large to convert to float"
  | .obstacle cause => cause.message
  | .unencodable => "surrogates not allowed"
  | .unknownMode value => Text.concat [value.inspected, " is not a valid Mode"]
  | .invalidName name => Text.concat ["Invalid model name: ", name.inspected]
  | .notObject place => Text.concat [place, ": document must be an object"]
  | .malformedFile => "the file is no JSON"
  | .malformedJson => "the text is no JSON"
  | .tooManyDigits none => TextError.tooManyDigits.message
  | .tooManyDigits (some count) =>
    Text.concat ["Exceeds the limit (4300 digits) for integer string conversion: value has ",
      Text.ofNat count, " digits; use sys.set_int_max_str_digits() to increase the limit"]
  | .tooDeep => TextError.tooDeep.message
  | .undecodable => "the bytes are no UTF-8"
  | .unwritable => "the value is not JSON serializable"
  | .unhashable => "the value is not hashable"
  | .missingOperation => "the value does not have the operation"
  | .unsupportedOperand => "the operand is not supported"
  | .notPair place length =>
    Text.concat ["dictionary update sequence element #", Text.ofNat place, " has length ",
      Text.ofNat length, "; 2 is required"]
  | .noRecord => "'record not found'"
  | .missingColumn => "the row lacks the column"
  | .statement message => message
  | .rejectedToken message => message
  | .unreachableKeys message => message
  | .unconfigured => "SUPABASE_DB_URL or DATABASE_URL is required when USE_DB=1"
  | .notInteger text =>
    Text.concat ["invalid literal for int() with base 10: ", text.quoted.take shownNumeral]
  | .notNumeral text => Text.concat ["could not convert string to float: ", text.quoted]
  | .embeddedNull => "embedded null byte"
  | .longName => "the name is too long"
  | .noFile => "there is no such file"

end Fault

/-- A fault that shows a value, for which the value has to have a text. -/
def Fault.showing [Host] (value : Value) (fault : Fault) : Fault :=
  match value.toText with
  | .ok _ => fault
  | .error error => .ofText error

/-- The mode a value names. -/
def Mode.ofValue [Host] (value : Value) : Except Fault Mode :=
  match Mode.ofValue? value with
  | some mode => .ok mode
  | none => .error (.showing value (.unknownMode value))

namespace Definition

/-- The definition of a document. -/
def read [Host] (document : Value) : Except Fault Definition :=
  (ofDocument document).mapError Fault.ofDocument

/-- The content hash of the document of a definition. -/
def hash [Host] (definition : Definition) : Except Fault Text :=
  (contentHash definition.toDocument).mapError Fault.ofHash

/-- The document of a definition with its content hash. -/
def describe [Host] (definition : Definition) : Except Fault Value :=
  definition.hash.map fun hash =>
    .ofFields [("definition", definition.toDocument), ("definition_hash", .text hash)]

end Definition

end GovernedRecords
