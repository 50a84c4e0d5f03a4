/-!
# Texts of code points

A text is a list of Unicode code points.  Unlike a `Char`, a code point may be a
lone surrogate, because an escape inside a document can name one; such a text has
no encoding in UTF-8, and the places where that matters say so.

String literals denote texts through a coercion, so the rest of the library writes
its words in the ordinary way.
-/

set_option autoImplicit false

namespace GovernedRecords

/-- A Unicode code point, surrogates included. -/
abbrev CodePoint := Fin 0x110000

namespace CodePoint

/-- Every character is a code point. -/
def ofChar (character : Char) : CodePoint :=
  ⟨character.val.toNat, by
    have valid := character.valid
    rcases valid with low | high
    · exact Nat.lt_trans low (by decide)
    · exact high.2⟩

instance : Coe Char CodePoint := ⟨ofChar⟩

/-- The code point of a number, or the replacement character beyond the range. -/
def ofNat (number : Nat) : CodePoint :=
  if inRange : number < 0x110000 then ⟨number, inRange⟩ else ⟨0xFFFD, by decide⟩

/-- The halves of a surrogate pair; neither has an encoding of its own. -/
def isSurrogate (point : CodePoint) : Bool :=
  0xD800 ≤ point.val && point.val ≤ 0xDFFF

/-- Whether a number lies in one of the closed intervals of a table. -/
def inTable (table : List (Nat × Nat)) (point : CodePoint) : Bool :=
  table.any fun interval => interval.1 ≤ point.val && point.val ≤ interval.2

/-- `A` to `Z`. -/
def isUpperLetter (point : CodePoint) : Bool := 65 ≤ point.val && point.val ≤ 90

/-- `a` to `z`. -/
def isLowerLetter (point : CodePoint) : Bool := 97 ≤ point.val && point.val ≤ 122

/-- `0` to `9`. -/
def isDigit (point : CodePoint) : Bool := 48 ≤ point.val && point.val ≤ 57

/-- The value of a hexadecimal digit, in either case. -/
def hexDigit? (point : CodePoint) : Option Nat :=
  if point.isDigit then some (point.val - 48)
  else if 97 ≤ point.val && point.val ≤ 102 then some (point.val - 87)
  else if 65 ≤ point.val && point.val ≤ 70 then some (point.val - 55)
  else none

end CodePoint

/-- A sequence of code points. -/
abbrev Text := List CodePoint

namespace Text

/-- The text a string literal denotes. -/
def ofString (characters : String) : Text := characters.toList.map CodePoint.ofChar

instance : Coe String Text := ⟨ofString⟩

/-- The string with the same code points, when none is a surrogate. -/
def toString? (text : Text) : Option String :=
  let character? (point : CodePoint) : Option Char :=
    if point.isSurrogate then none else some (Char.ofNat point.val)
  (text.mapM character?).map String.ofList

/-- One text after another. -/
def concat (parts : List Text) : Text := parts.flatten

/-- Joins texts, with a separator between neighbours. -/
def join (separator : Text) : List Text → Text
  | [] => []
  | [only] => only
  | first :: second :: rest => first ++ separator ++ join separator (second :: rest)

/-- The order of texts: by code point, a proper beginning first. -/
def le : Text → Text → Bool
  | [], _ => true
  | _ :: _, [] => false
  | first :: rest, other :: others =>
    if first = other then le rest others else first.val < other.val

/-- Drops the longest end all of whose code points satisfy a test. -/
def dropEndWhile (test : CodePoint → Bool) (text : Text) : Text :=
  (text.reverse.dropWhile test).reverse

/-- Drops the longest beginning and the longest end that satisfy a test. -/
def trimWhile (test : CodePoint → Bool) (text : Text) : Text :=
  dropEndWhile test (text.dropWhile test)

/-- The part before the first occurrence of a code point and the part after it. -/
def splitFirst? (point : CodePoint) : Text → Option (Text × Text)
  | [] => none
  | first :: rest =>
    if first = point then some ([], rest)
    else (splitFirst? point rest).map fun parts => (first :: parts.1, parts.2)

/-- The pieces between the occurrences of a code point. -/
def splitOn (point : CodePoint) : Text → List Text
  | [] => [[]]
  | first :: rest =>
    if first = point then [] :: splitOn point rest
    else match splitOn point rest with
      | [] => [[first]]
      | piece :: pieces => (first :: piece) :: pieces

/-- Every occurrence of a code point becomes the given text. -/
def replace (text : Text) (point : CodePoint) (replacement : Text) : Text :=
  text.flatMap fun each => if each = point then replacement else [each]

/-! ## Numerals -/

/-- The decimal digit of a number below ten. -/
def digit (number : Nat) : CodePoint := CodePoint.ofNat (48 + number % 10)

/-- The decimal digits of a number, most significant first, with no leading zero. -/
def ofNat (number : Nat) : Text := (Nat.toDigits 10 number).map CodePoint.ofChar

/-- The decimal numeral of an integer, with a minus sign when negative. -/
def ofInt : Int → Text
  | .ofNat number => ofNat number
  | .negSucc number => '-' :: ofNat (number + 1)

/-- A numeral padded on the left with zeros to a least width. -/
def padded (width number : Nat) : Text :=
  let digits := ofNat number
  List.replicate (width - digits.length) (CodePoint.ofChar '0') ++ digits

/-- The lower-case hexadecimal digit of a number below sixteen. -/
def hexDigit (number : Nat) : CodePoint :=
  if number % 16 < 10 then CodePoint.ofNat (48 + number % 16)
  else CodePoint.ofNat (87 + number % 16)

/-- The last `width` hexadecimal digits of a number. -/
def hex : Nat → Nat → Text
  | 0, _ => []
  | width + 1, number => hex width (number / 16) ++ [hexDigit number]

/-- The number a run of digits writes, given the value of each. -/
def numeral (digits : List Nat) : Nat := digits.foldl (fun total each => 10 * total + each) 0

/-- The number that hexadecimal digits write; none when there is another code point. -/
def readHex? (digits : Text) : Option Nat :=
  (digits.mapM CodePoint.hexDigit?).map (List.foldl (fun total each => 16 * total + each) 0)

end Text

end GovernedRecords
