import GovernedRecords.Fault
import GovernedRecords.Number.Numeral
import GovernedRecords.Value.Equality

/-!
# Arithmetic on values

Integers are added, subtracted and compared exactly.  Where a double takes part in a sum
or a difference, an integer becomes the double nearest to it, which the greatest integers
do not have; a comparison of an integer with a double is exact all the same.

The sum of two texts, and that of two lists, is the one followed by the other.
-/

set_option autoImplicit false

namespace GovernedRecords

namespace Value

namespace Numeric

/-- The double of a number. -/
def toDouble : Numeric → Except Fault Double
  | .integer value =>
    match Double.ofInt? value with
    | some nearest => .ok nearest
    | none => .error (.outOfRange .number)
  | .double value => .ok value

/-- The sum of two numbers, an integer when both are. -/
def add : Numeric → Numeric → Except Fault Numeric
  | .integer first, .integer second => .ok (.integer (first + second))
  | first, second => do return .double ((← first.toDouble).add (← second.toDouble))

/-- The difference of two numbers, an integer when both are. -/
def subtract : Numeric → Numeric → Except Fault Numeric
  | .integer first, .integer second => .ok (.integer (first - second))
  | first, second => do return .double ((← first.toDouble).subtract (← second.toDouble))

/-- The number as a significand and an exponent, exactly, though perhaps with more bits
than a double has. -/
def exact : Numeric → Double
  | .integer value => .finite (value < 0) value.natAbs 0
  | .double value => value

/-- The exact order of numbers; not a number is not below anything, nor above. -/
def lt (first second : Numeric) : Bool := first.exact.lt second.exact

/-- Above, or the same. -/
def atLeast (first second : Numeric) : Bool := second.lt first || first.equals second

/-- The number rounded to a count of decimal places; an integer is round already. -/
def roundPlaces (places : Nat) : Numeric → Numeric
  | .integer value => .integer value
  | .double value => .double (value.roundPlaces places)

/-- The value that a number is. -/
def toValue : Numeric → Value
  | .integer value => .int value
  | .double value => .float value

end Numeric

/-- The number that a value counts as. -/
def toNumeric (value : Value) : Except Fault Numeric :=
  match value.numeric? with
  | some number => .ok number
  | none => .error .unsupportedOperand

/-- The sum of two values. -/
def add (first second : Value) : Except Fault Value :=
  match first, second with
  | .text characters, .text others => .ok (.text (characters ++ others))
  | .list items, .list others => .ok (.list (items ++ others))
  | .tuple items, .tuple others => .ok (.tuple (items ++ others))
  | .bytes octets, .bytes others => .ok (.bytes (octets ++ others))
  | first, second => do
    return ((← (← first.toNumeric).add (← second.toNumeric))).toValue

/-- The double of a value: of a number, or of a text that writes one. -/
def toDouble (value : Value) : Except Fault Double :=
  match value with
  | .text characters =>
    match Numeral.readNumber? characters with
    | some number => .ok number
    | none => .error (.notNumeral characters)
  | other => do (← other.toNumeric).toDouble

end Value

end GovernedRecords
