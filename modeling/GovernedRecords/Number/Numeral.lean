import GovernedRecords.Number.Double
import GovernedRecords.Text.Blank
import GovernedRecords.Text.DecimalDigit
import GovernedRecords.Text.LowerCase

/-!
# Decimal numerals

A numeral has a sign, digits of any script with at most one point, and an exponent.  A
setting may have blanks around its numeral and single underscores between two digits, and
its integers have a bounded number of digits; payloads have neither underscores nor words
for numbers.
-/

set_option autoImplicit false

namespace GovernedRecords.Numeral

/-- The values of the leading decimal digits, and what follows them. -/
def spanDigits : Text → List Nat × Text
  | [] => ([], [])
  | first :: rest =>
    match first.decimal? with
    | some digit =>
      let (digits, others) := spanDigits rest
      (digit :: digits, others)
    | none => ([], first :: rest)

/-- Whether a sign is a minus, and what follows an optional sign. -/
def spanSign : Text → Bool × Text
  | [] => (false, [])
  | first :: rest =>
    if first = CodePoint.ofChar '-' then (true, rest)
    else if first = CodePoint.ofChar '+' then (false, rest)
    else (false, first :: rest)

/-- The exponent that makes up a whole text, zero for the empty text. -/
def readExponent? : Text → Option Int
  | [] => some 0
  | mark :: rest =>
    if mark = CodePoint.ofChar 'e' || mark = CodePoint.ofChar 'E' then
      let (negative, unsigned) := spanSign rest
      match spanDigits unsigned with
      | ([], _) => none
      | (digits, []) =>
        let magnitude : Int := Text.numeral digits
        some (if negative then -magnitude else magnitude)
      | _ => none
    else none

/-- The number a decimal numeral writes: a sign, digits with at most one point and at
least one digit, and an exponent.  Numerals beyond the greatest double are infinite. -/
def read? (text : Text) : Option Double :=
  let (negative, unsigned) := spanSign text
  let (whole, rest) := spanDigits unsigned
  let (fraction, rest) : List Nat × Text := match rest with
    | [] => ([], [])
    | point :: after => if point = CodePoint.ofChar '.' then spanDigits after else ([], rest)
  if whole.isEmpty && fraction.isEmpty then none
  else
    (readExponent? rest).map fun exponent =>
      Double.ofDecimal negative (Text.numeral (whole ++ fraction)) (exponent - fraction.length)

/-! ## Numerals of settings -/

/-- The blanks that may stand around a setting: all but the information separators. -/
def isPadding (point : CodePoint) : Bool :=
  point.isBlank && !(0x1C ≤ point.val && point.val ≤ 0x1F)

/-- A setting without the blanks around it. -/
def unpadded (text : Text) : Text := text.trimWhile isPadding

/-- The values of the leading digits, of which an underscore may stand between any two,
and what follows them; none when an underscore follows a digit without another after it. -/
def spanJoined? : Text → Option (List Nat × Text)
  | [] => some ([], [])
  | first :: rest =>
    match first.decimal?, rest with
    | none, _ => some ([], first :: rest)
    | some digit, [] => some ([digit], [])
    | some digit, mark :: others =>
      if mark = CodePoint.ofChar '_' then
        match others with
        | [] => none
        | next :: later =>
          if next.isDecimal then
            (spanJoined? (next :: later)).map fun parts => (digit :: parts.1, parts.2)
          else none
      else (spanJoined? (mark :: others)).map fun parts => (digit :: parts.1, parts.2)

/-- Why a setting is not read as an integer. -/
inductive IntegerError where
  /-- The setting writes no integer. -/
  | malformed
  /-- There are too many digits; the number says how many. -/
  | tooManyDigits (count : Nat)
  deriving DecidableEq

/-- The greatest number of digits of an integer. -/
def greatestDigits : Nat := 4300

/-- The integer that a setting writes.  Too many digits are told from what is no integer
before anything after them is looked at. -/
def readInteger (text : Text) : Except IntegerError Int :=
  let (negative, unsigned) := spanSign (unpadded text)
  match spanJoined? unsigned with
  | none => .error .malformed
  | some ([], _) => .error .malformed
  | some (digits, rest) =>
    if greatestDigits < digits.length then .error (.tooManyDigits digits.length)
    else if rest.isEmpty then
      let magnitude : Int := Text.numeral digits
      .ok (if negative then -magnitude else magnitude)
    else .error .malformed

/-- A text without its underscores, each of which stands between two digits; the first
argument says whether a digit precedes the text. -/
def joinDigits? (afterDigit : Bool) : Text → Option Text
  | [] => some []
  | first :: rest =>
    if first = CodePoint.ofChar '_' then
      match rest with
      | second :: _ =>
        if afterDigit && second.isDecimal then joinDigits? false rest else none
      | [] => none
    else (joinDigits? first.isDecimal rest).map (first :: ·)

/-- The words for numbers that are not finite, in lower case. -/
def words : List (Text × Double) :=
  [("inf", .infinity false), ("infinity", .infinity false), ("nan", .nan)]

/-- The number that a setting writes, by a decimal numeral or a word. -/
def readNumber? (text : Text) : Option Double :=
  let (negative, unsigned) := spanSign (unpadded text)
  match words.find? fun word => word.1 == unsigned.lower with
  | some word => some (if negative then word.2.negate else word.2)
  | none => (joinDigits? false (unpadded text)).bind read?

end GovernedRecords.Numeral
