/-!
# Double precision numbers

A number is not a number, an infinity, or a sign with a significand times a power of two.
All arithmetic is exact on the significands and rounds once, to the nearest number, a
half going to the even neighbour.

Numbers that this module builds are canonical: the significand is below `2 ^ 53`, the
exponent is at least `-1074`, and it is exactly `-1074` unless the significand has all
53 bits.  Canonical numbers are equal as data exactly when they have the same bits.
-/

set_option autoImplicit false

namespace GovernedRecords

/-- A double precision number, by its sign, significand and binary exponent. -/
inductive Double where
  | nan
  | infinity (negative : Bool)
  | finite (negative : Bool) (significand : Nat) (exponent : Int)
  deriving DecidableEq

namespace Double

/-- The least binary exponent. -/
def leastExponent : Int := -1074

/-- The greatest binary exponent. -/
def greatestExponent : Int := 971

/-- Zero, with a sign. -/
def zero (negative : Bool) : Double := .finite negative 0 leastExponent

/-- The quotient rounded to nearest, a half to even. -/
def roundQuotient (numerator denominator : Nat) : Nat :=
  let quotient := numerator / denominator
  let twice := 2 * (numerator % denominator)
  if twice < denominator then quotient
  else if denominator < twice then quotient + 1
  else quotient + quotient % 2

/-- A quotient of naturals scaled by a power of two, as a quotient of naturals. -/
def scaled (numerator denominator : Nat) (power : Int) : Nat × Nat :=
  match power with
  | .ofNat up => (numerator * Nat.pow 2 up, denominator)
  | .negSucc down => (numerator, denominator * Nat.pow 2 (down + 1))

/-- The nearest number with a given exponent or the next one; overflow is infinite. -/
def nearestAt (negative : Bool) (numerator denominator : Nat) (exponent : Int) : Double :=
  let parts := scaled numerator denominator (-exponent)
  let significand := roundQuotient parts.1 parts.2
  let carried := significand = Nat.pow 2 53
  let exponent := if carried then exponent + 1 else exponent
  let significand := if carried then Nat.pow 2 52 else significand
  if greatestExponent < exponent then .infinity negative
  else .finite negative significand exponent

/-- The number nearest to a quotient of naturals. -/
def ofQuotient (negative : Bool) (numerator denominator : Nat) : Double :=
  if numerator = 0 then zero negative
  else
    let estimate : Int := (numerator.log2 : Int) - (denominator.log2 : Int) - 53
    let exponent := max estimate leastExponent
    let parts := scaled numerator denominator (-exponent)
    let whole := parts.1 / parts.2
    let exponent := if whole < Nat.pow 2 53 then exponent else exponent + 1
    nearestAt negative numerator denominator exponent

/-- The number nearest to an integer; none when that is beyond the greatest number. -/
def ofInt? (integer : Int) : Option Double :=
  match ofQuotient (integer < 0) integer.natAbs 1 with
  | .infinity _ => none
  | number => some number

/-- The number nearest to digits times a power of ten.  Beyond four hundred places on
either side the result no longer depends on the digits. -/
def ofDecimal (negative : Bool) (digits : Nat) (power : Int) : Double :=
  if digits = 0 then zero negative
  else
    let magnitude : Int := ((Nat.toDigits 10 digits).length : Int) + power
    if 400 < magnitude then .infinity negative
    else if magnitude < -400 then zero negative
    else match power with
      | .ofNat up => ofQuotient negative (digits * Nat.pow 10 up) 1
      | .negSucc down => ofQuotient negative digits (Nat.pow 10 (down + 1))

/-- Neither infinite nor not a number. -/
def isFinite : Double → Bool
  | .finite _ _ _ => true
  | _ => false

/-- A zero of either sign. -/
def isZero : Double → Bool
  | .finite _ significand _ => significand = 0
  | _ => false

/-- The signed significand over a given smaller exponent. -/
def alignedTo (least : Int) (negative : Bool) (significand : Nat) (exponent : Int) : Int :=
  let magnitude : Int := (significand * Nat.pow 2 (exponent - least).toNat : Nat)
  if negative then -magnitude else magnitude

/-- The sum, rounded to nearest.  A sum of zeros is negative only when both are. -/
def add : Double → Double → Double
  | .nan, _ => .nan
  | _, .nan => .nan
  | .infinity negative, .infinity other => if negative = other then .infinity negative else .nan
  | .infinity negative, .finite _ _ _ => .infinity negative
  | .finite _ _ _, .infinity negative => .infinity negative
  | .finite negative significand exponent, .finite negative' significand' exponent' =>
    let least := min exponent exponent'
    let total := alignedTo least negative significand exponent
      + alignedTo least negative' significand' exponent'
    if total = 0 then zero (negative && negative')
    else
      let parts := scaled total.natAbs 1 least
      ofQuotient (total < 0) parts.1 parts.2

/-- The number with the other sign. -/
def negate : Double → Double
  | .nan => .nan
  | .infinity negative => .infinity (!negative)
  | .finite negative significand exponent => .finite (!negative) significand exponent

/-- The difference, rounded to nearest. -/
def subtract (first second : Double) : Double := add first (negate second)

/-- The order of numbers; not a number is not below anything, nor above. -/
def lt : Double → Double → Bool
  | .nan, _ => false
  | _, .nan => false
  | .infinity negative, .infinity other => negative && !other
  | .infinity negative, .finite _ _ _ => negative
  | .finite _ _ _, .infinity negative => !negative
  | .finite negative significand exponent, .finite negative' significand' exponent' =>
    let least := min exponent exponent'
    alignedTo least negative significand exponent < alignedTo least negative' significand' exponent'

/-- Numeric equality: the zeros are equal, and not a number equals nothing. -/
def equals : Double → Double → Bool
  | .nan, _ => false
  | _, .nan => false
  | first, second => (first.isZero && second.isZero) || first = second

/-- The integer a number is, if it is one. -/
def toInt? : Double → Option Int
  | .finite negative significand exponent =>
    let parts := scaled significand 1 exponent
    if parts.1 % parts.2 = 0 then
      let magnitude : Int := (parts.1 / parts.2 : Nat)
      some (if negative then -magnitude else magnitude)
    else none
  | _ => none

/-- The integer nearest to a number with its decimal point moved to the right, a half going
to the even one; none when the number is not finite. -/
def roundShifted? (places : Nat) : Double → Option Int
  | .finite negative significand exponent =>
    let parts := scaled (significand * Nat.pow 10 places) 1 exponent
    let magnitude : Int := roundQuotient parts.1 parts.2
    some (if negative then -magnitude else magnitude)
  | _ => none

/-- The number rounded to a count of decimal places: the exact value goes to the nearest
decimal, a half to the even one, and that to the nearest number. -/
def roundPlaces (places : Nat) : Double → Double
  | .finite negative significand exponent =>
    let parts := scaled (significand * Nat.pow 10 places) 1 exponent
    ofQuotient negative (roundQuotient parts.1 parts.2) (Nat.pow 10 places)
  | other => other

end Double

end GovernedRecords
