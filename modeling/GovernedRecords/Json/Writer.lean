import GovernedRecords.Value.Display

/-!
# Writing JSON

One writer serves every document the library produces; a style says where the blanks go,
whether code points beyond ASCII are escaped, whether numbers that are not finite are
written, and whether kinds that JSON lacks are written as their text.

Entries are written in their order.  Keys that are numbers, truth values or null are
written as the text of that literal.  An integer with more digits than are written ends the
document.
-/

set_option autoImplicit false

namespace GovernedRecords

namespace Json

/-- Why a value cannot be written. -/
inductive WriteError where
  /-- A kind that JSON does not have. -/
  | unsupported
  /-- A number that is not finite, where the style refuses them. -/
  | nonFinite
  /-- A string with a lone surrogate, where the style refuses them. -/
  | surrogate
  /-- A value that has no text. -/
  | text (error : TextError)
  deriving DecidableEq

/-- How a document is laid out. -/
structure Style where
  /-- What stands between items on one line. -/
  itemEnd : Text
  /-- What stands between a key and its value. -/
  keyEnd : Text
  /-- The blanks of one step of indentation, if every item has its own line. -/
  indent : Option Nat
  /-- Whether code points beyond ASCII are escaped. -/
  asciiOnly : Bool
  /-- Whether numbers that are not finite are written. -/
  nonFinite : Bool
  /-- Whether other kinds are written as their text. -/
  asText : Bool
  /-- Whether strings with a lone surrogate are written. -/
  surrogates : Bool

/-- No blanks, all code points as they are, finite numbers only. -/
def Style.compact : Style := ⟨",", ":", none, false, false, false, true⟩

/-- Two blanks a level, all code points as they are but no lone surrogates, as the document
becomes the bytes of a file. -/
def Style.indented : Style := ⟨",", ": ", some 2, false, true, false, false⟩

/-- One line with blanks, ASCII only, other kinds as their text. -/
def Style.stored : Style := ⟨", ", ": ", none, true, true, true, true⟩

/-- One line with blanks, ASCII only. -/
def Style.answer : Style := ⟨", ", ": ", none, true, true, false, true⟩

/-- The escape of a sixteen-bit unit. -/
def unitEscape (unit : Nat) : Text := '\\' :: 'u' :: Text.hex 4 unit

/-- A code point inside a string. -/
def writePoint (asciiOnly : Bool) (point : CodePoint) : Text :=
  if point = (CodePoint.ofChar '"') then ['\\', '"']
  else if point = (CodePoint.ofChar '\\') then ['\\', '\\']
  else if point = (CodePoint.ofChar '\n') then ['\\', 'n']
  else if point = (CodePoint.ofChar '\r') then ['\\', 'r']
  else if point = (CodePoint.ofChar '\t') then ['\\', 't']
  else if point.val = 8 then ['\\', 'b']
  else if point.val = 12 then ['\\', 'f']
  else if point.val < 32 then unitEscape point.val
  else if !asciiOnly || point.val < 127 then [point]
  else if point.val < 0x10000 then unitEscape point.val
  else
    unitEscape (0xD800 + (point.val - 0x10000) / 1024)
      ++ unitEscape (0xDC00 + (point.val - 0x10000) % 1024)

/-- A string with its quotes. -/
def writeString (asciiOnly : Bool) (text : Text) : Text :=
  ('"' : CodePoint) :: (text.flatMap (writePoint asciiOnly) ++ [CodePoint.ofChar '"'])

/-- A number, with the three words for those that are not finite. -/
def writeDouble : Double → Text
  | .nan => "NaN"
  | .infinity negative => if negative then "-Infinity" else "Infinity"
  | number => number.toText

/-- A string, unless the style refuses it. -/
def writeText (style : Style) (text : Text) : Except WriteError Text :=
  if style.surrogates || !text.any CodePoint.isSurrogate then .ok (writeString style.asciiOnly text)
  else .error .surrogate

/-- An integer, unless it has more digits than are written. -/
def writeInteger (integer : Int) : Except WriteError Text :=
  (Numeral.ofInt integer).mapError .text

/-- The text of a key. -/
def keyText (style : Style) : Value → Except WriteError Text
  | .text characters => .ok characters
  | .null => .ok "null"
  | .bool truth => .ok (if truth then "true" else "false")
  | .int integer => writeInteger integer
  | .float number =>
    if number.isFinite || style.nonFinite then .ok (writeDouble number) else .error .nonFinite
  | _ => .error .unsupported

/-- A value of a kind that JSON lacks, as its text. -/
def writeOther (style : Style) (value : Value) : Except WriteError Text :=
  match value.textError? value.nesting with
  | some error => .error (.text error)
  | none => writeText style value.display

/-- A line break and the indentation of a level, where the style has them. -/
def lineBreak (style : Style) (level : Nat) : Text :=
  match style.indent with
  | none => []
  | some width => '\n' :: List.replicate (level * width) (CodePoint.ofChar ' ')

/-- Written items between brackets. -/
def bracket (style : Style) (level : Nat) (opening closing : Text) : List Text → Text
  | [] => Text.concat [opening, closing]
  | items =>
    Text.concat [opening, lineBreak style (level + 1),
      Text.join (Text.concat [style.itemEnd, lineBreak style (level + 1)]) items,
      lineBreak style level, closing]

mutual
/-- A value at a level of indentation. -/
def writeAt (style : Style) (level : Nat) : Value → Except WriteError Text
  | .null => .ok "null"
  | .bool truth => .ok (if truth then "true" else "false")
  | .int integer => writeInteger integer
  | .float number =>
    if number.isFinite || style.nonFinite then .ok (writeDouble number) else .error .nonFinite
  | .text characters => writeText style characters
  | .list items => (writeItems style (level + 1) items).map (bracket style level "[" "]")
  | .tuple items => (writeItems style (level + 1) items).map (bracket style level "[" "]")
  | .object entries =>
    (writeEntries style (level + 1) entries).map (bracket style level "\x7b" "\x7d")
  | other =>
    if style.asText then writeOther style other else .error .unsupported

/-- The written items of a list. -/
def writeItems (style : Style) (level : Nat) : List Value → Except WriteError (List Text)
  | [] => .ok []
  | first :: rest => do
    let written ← writeAt style level first
    let others ← writeItems style level rest
    return written :: others

/-- The written entries of an object. -/
def writeEntries (style : Style) (level : Nat) :
    List (Value × Value) → Except WriteError (List Text)
  | [] => .ok []
  | (key, value) :: rest => do
    let name ← keyText style key
    let quoted ← writeText style name
    let written ← writeAt style level value
    let others ← writeEntries style level rest
    return Text.concat [quoted, style.keyEnd, written] :: others
end

/-- The document of a value. -/
def write (style : Style) (value : Value) : Except WriteError Text := writeAt style 0 value

end Json

end GovernedRecords
