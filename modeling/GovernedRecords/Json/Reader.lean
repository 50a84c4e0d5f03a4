import GovernedRecords.Host
import GovernedRecords.Number.Numeral
import GovernedRecords.Text.WideUnits
import GovernedRecords.Value.Basic

/-!
# Reading JSON

A document is one value between blanks.  The words `NaN`, `Infinity` and `-Infinity` are
numbers.  A number without a point or an exponent is an integer of any size.  Of two
entries with one key the later value stays, in the place of the earlier.  An escape may
name half of a surrogate pair; two halves in a row make one code point.

Reading has limits: on the lists and objects around a value, and on the digits of an
integer; the usual ones are those of the host and of writing.  A limit that is passed before
the reader comes to a mistake in the text is what is reported.

The reader of values carries a bound on its steps; twice the length of the text is enough,
because every second step consumes a code point.
-/

set_option autoImplicit false

namespace GovernedRecords

namespace Json

/-- Space, tab, line feed and carriage return. -/
def isBlank (point : CodePoint) : Bool :=
  point.val = 32 || point.val = 9 || point.val = 10 || point.val = 13

/-- Drops the blanks at the beginning. -/
def skipBlanks (text : Text) : Text := text.dropWhile isBlank

/-- The code point that a letter after a backslash stands for. -/
def shortEscape? (letter : CodePoint) : Option CodePoint :=
  if letter = (CodePoint.ofChar '"') || letter = (CodePoint.ofChar '\\')
    || letter = (CodePoint.ofChar '/') then some letter
  else if letter = (CodePoint.ofChar 'b') then some 8
  else if letter = (CodePoint.ofChar 'f') then some 12
  else if letter = (CodePoint.ofChar 'n') then some 10
  else if letter = (CodePoint.ofChar 'r') then some 13
  else if letter = (CodePoint.ofChar 't') then some 9
  else none

/-- A piece of a string: a code point that stands for itself, or a sixteen-bit unit that
an escape names by its number. -/
inductive Piece where
  | plain (point : CodePoint)
  | unit (number : Nat)

/-- Puts a piece in front of those already read. -/
def consPiece (piece : Piece) (result : Option (List Piece × Text)) :
    Option (List Piece × Text) :=
  result.map fun read => (piece :: read.1, read.2)

/-- The pieces of a string up to its closing quote, and what follows the quote. -/
def readPieces : Text → Option (List Piece × Text)
  | [] => none
  | first :: rest =>
    if first = (CodePoint.ofChar '"') then some ([], rest)
    else if first = (CodePoint.ofChar '\\') then
      match rest with
      | [] => none
      | letter :: after =>
        if letter = (CodePoint.ofChar 'u') then
          match after with
          | a :: b :: c :: d :: others =>
            match Text.readHex? [a, b, c, d] with
            | some number => consPiece (.unit number) (readPieces others)
            | none => none
          | _ => none
        else
          match shortEscape? letter with
          | some point => consPiece (.plain point) (readPieces after)
          | none => none
    else if first.val < 32 then none
    else consPiece (.plain first) (readPieces rest)

/-- The code points of some pieces: a first half and a second half in a row are one. -/
def joinPieces : List Piece → Text
  | [] => []
  | .plain point :: rest => point :: joinPieces rest
  | .unit number :: .unit other :: rest =>
    if Utf16.isHighHalf number && Utf16.isLowHalf other then
      Utf16.joinHalves number other :: joinPieces rest
    else CodePoint.ofNat number :: joinPieces (.unit other :: rest)
  | .unit number :: rest => CodePoint.ofNat number :: joinPieces rest

/-- Why a text is not read. -/
inductive ReadError where
  /-- The text is no document. -/
  | malformed
  /-- Lists and objects are nested too deeply. -/
  | tooDeep
  /-- An integer has too many digits; the number says how many. -/
  | tooManyDigits (count : Nat)
  deriving DecidableEq

/-- How far reading goes: the greatest number of lists and objects around a value, and
the greatest number of digits of an integer. -/
structure Limits where
  depth : Nat
  digits : Nat

/-- The limits of documents and payloads. -/
def Limits.usual [Host] : Limits := ⟨Host.parsed, Numeral.greatestDigits⟩

/-- The limits that no text of a given length passes. -/
def Limits.ofLength (length : Nat) : Limits := ⟨length, length⟩

/-- A part of a text with what follows it, or why it is not read. -/
abbrev Reading (α : Type) := Except ReadError (α × Text)

/-- The text is no document. -/
def malformed {α : Type} : Except ReadError α := .error .malformed

/-- The rest of a string up to its closing quote, and what follows the quote. -/
def readString (text : Text) : Reading Text :=
  match readPieces text with
  | some (pieces, rest) => .ok (joinPieces pieces, rest)
  | none => malformed

/-- The value of ASCII digits. -/
def digitsValue (digits : Text) : Nat := Text.numeral (digits.map fun point => point.val - 48)

/-- The leading ASCII digits and what follows them. -/
def spanDigits (text : Text) : Text × Text :=
  (text.takeWhile CodePoint.isDigit, text.dropWhile CodePoint.isDigit)

/-- The digits of a whole part: a lone zero, or digits that begin with another. -/
def readWhole? (text : Text) : Option (Text × Text) :=
  match text with
  | first :: rest =>
    if first = (CodePoint.ofChar '0') then some ([first], rest)
    else if first.isDigit then some (spanDigits text)
    else none
  | [] => none

/-- The digits after a point, none when the point has no digits after it. -/
def readFraction (text : Text) : Text × Text :=
  match text with
  | first :: rest =>
    if first = (CodePoint.ofChar '.') && !(spanDigits rest).1.isEmpty then spanDigits rest
    else ([], text)
  | [] => ([], [])

/-- The digits of an exponent and its sign, if there is an exponent. -/
def readExponent (text : Text) : Option Int × Text :=
  match text with
  | mark :: rest =>
    if mark = (CodePoint.ofChar 'e') || mark = (CodePoint.ofChar 'E') then
      let (negative, digits) : Bool × Text := match rest with
        | sign :: others =>
          if sign = (CodePoint.ofChar '-') then (true, others)
          else if sign = (CodePoint.ofChar '+') then (false, others)
          else (false, rest)
        | [] => (false, rest)
      let split := spanDigits digits
      if split.1.isEmpty then (none, text)
      else
        let magnitude : Int := digitsValue split.1
        (some (if negative then -magnitude else magnitude), split.2)
    else (none, text)
  | [] => (none, text)

/-- A number after its sign. -/
def readNumber (limits : Limits) (negative : Bool) (text : Text) : Reading Value :=
  match readWhole? text with
  | none => malformed
  | some (whole, rest) =>
    let (fraction, rest) := readFraction rest
    let (exponent, rest) := readExponent rest
    if fraction.isEmpty && exponent.isNone then
      if limits.digits < whole.length then .error (.tooManyDigits whole.length)
      else
        let magnitude : Int := digitsValue whole
        .ok (.int (if negative then -magnitude else magnitude), rest)
    else
      .ok (.float (Double.ofDecimal negative (digitsValue (whole ++ fraction))
        (exponent.getD 0 - fraction.length)), rest)

/-- The words and what they mean. -/
def words : List (Text × Value) :=
  [("null", .null), ("true", .bool true), ("false", .bool false), ("NaN", .float .nan),
    ("Infinity", .float (.infinity false)), ("-Infinity", .float (.infinity true))]

/-- A word or a number. -/
def readScalar (limits : Limits) (text : Text) : Reading Value :=
  match words.find? fun word => word.1.isPrefixOf text with
  | some (word, value) => .ok (value, text.drop word.length)
  | none =>
    match text with
    | first :: rest =>
      if first = (CodePoint.ofChar '-') then readNumber limits true rest
      else readNumber limits false text
    | [] => malformed

/-- The limits inside a list or an object; none when it is nested too deeply. -/
def Limits.inside? (limits : Limits) : Option Limits :=
  match limits.depth with
  | 0 => none
  | depth + 1 => some { limits with depth := depth }

mutual
/-- A value at the beginning of a text, and what follows it. -/
def readValue : Nat → Limits → Text → Reading Value
  | 0, _, _ => malformed
  | _ + 1, _, [] => malformed
  | bound + 1, limits, first :: rest =>
    if first = (CodePoint.ofChar '"') then
      (readString rest).map fun read => (.text read.1, read.2)
    else if first = (CodePoint.ofChar '[') then
      match limits.inside?, skipBlanks rest with
      | none, _ => .error .tooDeep
      | some _, [] => malformed
      | some inside, second :: others =>
        if second = (CodePoint.ofChar ']') then .ok (.list [], others)
        else (readItems bound inside (second :: others)).map fun read => (.list read.1, read.2)
    else if first = (CodePoint.ofChar '\x7b') then
      match limits.inside?, skipBlanks rest with
      | none, _ => .error .tooDeep
      | some _, [] => malformed
      | some inside, second :: others =>
        if second = (CodePoint.ofChar '\x7d') then .ok (.object [], others)
        else
          (readEntries bound inside [] (second :: others)).map fun read =>
            (.object read.1, read.2)
    else readScalar limits (first :: rest)

/-- The items of a list up to its closing bracket. -/
def readItems : Nat → Limits → Text → Reading (List Value)
  | 0, _, _ => malformed
  | bound + 1, limits, text =>
    match readValue bound limits text with
    | .error cause => .error cause
    | .ok (item, rest) =>
      match skipBlanks rest with
      | [] => malformed
      | mark :: others =>
        if mark = (CodePoint.ofChar ']') then .ok ([item], others)
        else if mark = (CodePoint.ofChar ',') then
          (readItems bound limits (skipBlanks others)).map fun read => (item :: read.1, read.2)
        else malformed

/-- The entries of an object up to its closing brace, put after those already read. -/
def readEntries : Nat → Limits → Entries → Text → Reading Entries
  | 0, _, _, _ => malformed
  | _ + 1, _, _, [] => malformed
  | bound + 1, limits, entries, first :: rest =>
    if first = (CodePoint.ofChar '"') then
      match readString rest with
      | .error cause => .error cause
      | .ok (name, rest) =>
        match skipBlanks rest with
        | [] => malformed
        | colon :: rest =>
          if colon = (CodePoint.ofChar ':') then
            match readValue bound limits (skipBlanks rest) with
            | .error cause => .error cause
            | .ok (value, rest) =>
              match skipBlanks rest with
              | [] => malformed
              | mark :: others =>
                if mark = (CodePoint.ofChar '\x7d') then .ok (entries.put name value, others)
                else if mark = (CodePoint.ofChar ',') then
                  readEntries bound limits (entries.put name value) (skipBlanks others)
                else malformed
          else malformed
    else malformed
end

/-- The value of a document within some limits. -/
def readWithin (limits : Limits) (text : Text) : Except ReadError Value :=
  match readValue (2 * text.length + 2) limits (skipBlanks text) with
  | .ok (value, rest) => if (skipBlanks rest).isEmpty then .ok value else malformed
  | .error cause => .error cause

/-- The value of a document. -/
def read [Host] (text : Text) : Except ReadError Value := readWithin Limits.usual text

end Json

end GovernedRecords
