import GovernedRecords.Definition.Document
import GovernedRecords.Number.Numeral
import GovernedRecords.Text.LowerCase

/-!
# Coercion of values to field types

Each field type has one way to take a value.  Strings and texts take any value as it is.
Numbers take integers, doubles, and decimal numerals with the digits of any script;
truth values are no numbers, and the result is finite.  Booleans take truth values and
the two words in any case.  Dates take timestamps and the word for the current instant,
and become stamps.
-/

set_option autoImplicit false

namespace GovernedRecords

/-- Why a value is not of a field type. -/
inductive CoercionError where
  /-- A text that is no decimal numeral, shown with its blanks. -/
  | notDecimal (text : Text)
  /-- A number beyond all finite doubles, or not a number. -/
  | notFinite
  /-- A truth value where a number is wanted. -/
  | truthNotNumber
  /-- A value of another kind where a number is wanted. -/
  | notNumber (kind : Text)
  | notBoolean
  | timestamp (cause : TimestampError)
  /-- An integer that no double can approximate. -/
  | integerTooLarge

namespace CoercionError

/-- The words for an error. -/
def message : CoercionError → Text
  | .notDecimal text => Text.concat ["not a decimal number: ", text.quoted]
  | .notFinite => "number must be finite"
  | .truthNotNumber => "boolean is not a number"
  | .notNumber kind => Text.concat ["cannot read a number from ", kind]
  | .notBoolean => "expected true or false"
  | .timestamp cause => cause.message
  | .integerTooLarge => "int too large to convert to float"

/-- The quantity that left its range, for the errors that are no refusal of the value. -/
def outOfRange? : CoercionError → Option OutOfRange
  | .timestamp .outOfRange => some .instant
  | .integerTooLarge => some .number
  | _ => none

end CoercionError

/-! ## The field types -/

namespace Coercion

/-- A finite number. -/
def finite (number : Double) : Except CoercionError Double :=
  if number.isFinite then .ok number else .error .notFinite

/-- The number of a value. -/
def number : Value → Except CoercionError Double
  | .bool _ => .error .truthNotNumber
  | .int integer =>
    match Double.ofInt? integer with
    | some double => finite double
    | none => .error .integerTooLarge
  | .float double => finite double
  | .text characters =>
    match Numeral.read? characters.trim with
    | some double => finite double
    | none => .error (.notDecimal characters)
  | other => .error (.notNumber other.kindName)

/-- The truth value of a value. -/
def boolean : Value → Except CoercionError Bool
  | .bool truth => .ok truth
  | .text characters =>
    let word := characters.trim.lower
    if word = ("true" : Text) then .ok true
    else if word = ("false" : Text) then .ok false
    else .error .notBoolean
  | _ => .error .notBoolean

/-- Whether a text is the word for the current instant, in any case. -/
def isNow (text : Text) : Bool := text.trim.lower == ("now" : Text)

/-- Whether a value is the word for the current instant. -/
def namesNow : Value → Bool
  | .text characters => isNow characters
  | _ => false

/-- The stamp of a value. -/
def date (now : Instant) (value : Value) : Except CoercionError Text :=
  if namesNow value then .ok now.stamp
  else
    match value.toInstant with
    | .ok instant => .ok instant.stamp
    | .error cause => .error (.timestamp cause)

end Coercion

/-- The value that a field type makes of a value, at an instant. -/
def FieldType.coerce (now : Instant) (type : FieldType) (value : Value) :
    Except CoercionError Value :=
  match type with
  | .string => .ok value
  | .text => .ok value
  | .number => (Coercion.number value).map .float
  | .boolean => (Coercion.boolean value).map .bool
  | .date => (Coercion.date now value).map .text

/-- What a field of a type expects. -/
def FieldType.expectation : FieldType → Text
  | .string => "a string"
  | .text => "a string"
  | .number => "a number"
  | .boolean => "true or false"
  | .date => "an ISO-8601 timestamp"

end GovernedRecords
