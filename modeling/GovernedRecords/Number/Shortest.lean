import GovernedRecords.Number.Double
import GovernedRecords.Text.Basic

/-!
# The shortest numeral of a double

A finite number is written with the fewest significant digits that read back as the same
number, and among those with the digits nearest to it, an exact tie going to the even
digit.  Digits stand in place when the decimal exponent lies from `-4` to `15`, with at
least one digit after the point; otherwise one digit stands before the point and the
exponent follows with a sign and at least two digits.
-/

set_option autoImplicit false

namespace GovernedRecords.Double

/-- A decimal: digits times a power of ten. -/
structure Decimal where
  digits : Nat
  power : Int
  deriving DecidableEq

/-- A number in units of a power of ten, as a quotient of naturals. -/
def gridParts (significand : Nat) (exponent power : Int) : Nat × Nat :=
  let parts := scaled significand 1 exponent
  match power with
  | .ofNat up => (parts.1, parts.2 * Nat.pow 10 up)
  | .negSucc down => (parts.1 * Nat.pow 10 (down + 1), parts.2)

/-- The multiple of a power of ten nearest to a positive number among its two neighbours
that read back, if one of them does. -/
def nearestDecimal? (significand : Nat) (exponent power : Int) : Option Decimal :=
  let grid := gridParts significand exponent power
  let below := grid.1 / grid.2
  let twice := 2 * (grid.1 % grid.2)
  let readsBack (digits : Nat) : Bool :=
    ofDecimal false digits power = .finite false significand exponent
  match readsBack below, readsBack (below + 1) with
  | true, false => some ⟨below, power⟩
  | false, true => some ⟨below + 1, power⟩
  | false, false => none
  | true, true =>
    if twice < grid.2 || (twice = grid.2 && below % 2 = 0) then some ⟨below, power⟩
    else some ⟨below + 1, power⟩

/-- The first decimal found on ever finer grids, at most as many as the count. -/
def searchDecimal (significand : Nat) (exponent : Int) : Nat → Int → Decimal
  | 0, power => ⟨0, power⟩
  | count + 1, power =>
    match nearestDecimal? significand exponent power with
    | some decimal => decimal
    | none => searchDecimal significand exponent count (power - 1)

/-- Moves trailing zeros of the digits into the power; the count bounds how many. -/
def dropZeros : Nat → Decimal → Decimal
  | 0, decimal => decimal
  | count + 1, decimal =>
    if decimal.digits % 10 = 0 && decimal.digits != 0 then
      dropZeros count ⟨decimal.digits / 10, decimal.power + 1⟩
    else decimal

/-- The shortest decimal that reads back as a positive number.  The first grid is coarser
than the number itself, and eighteen further digits always suffice. -/
def shortest (significand : Nat) (exponent : Int) : Decimal :=
  let bits : Int := (significand.log2 : Int) + 1 + exponent
  let start := Int.fdiv (bits * 30103) 100000 + 1
  dropZeros 20 (searchDecimal significand exponent 21 start)

/-- The exponent of scientific writing, with a sign and at least two digits. -/
def exponentText (exponent : Int) : Text :=
  Text.concat ["e", if exponent < 0 then "-" else "+", Text.padded 2 exponent.natAbs]

/-- Digits laid out in place or in scientific writing. -/
def layOut (decimal : Decimal) : Text :=
  let digits := Text.ofNat decimal.digits
  let zero : CodePoint := '0'
  let exponent : Int := (digits.length : Int) + decimal.power - 1
  if exponent < -4 || 15 < exponent then
    match digits with
    | [] => []
    | [only] => only :: exponentText exponent
    | first :: rest => Text.concat [[first], ".", rest, exponentText exponent]
  else if 0 ≤ decimal.power then
    Text.concat [digits, List.replicate decimal.power.toNat zero, ".0"]
  else if exponent < 0 then
    Text.concat ["0.", List.replicate (-exponent - 1).toNat zero, digits]
  else
    let whole := (exponent + 1).toNat
    Text.concat [digits.take whole, ".", digits.drop whole]

/-- The numeral of a number. -/
def toText : Double → Text
  | .nan => "nan"
  | .infinity negative => if negative then "-inf" else "inf"
  | .finite negative significand exponent =>
    let magnitude :=
      if significand = 0 then ("0.0" : Text) else layOut (shortest significand exponent)
    if negative then '-' :: magnitude else magnitude

end GovernedRecords.Double
