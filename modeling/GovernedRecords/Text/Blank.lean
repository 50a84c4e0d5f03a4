import GovernedRecords.Text.Basic

/-!
# Blanks and lines

Blanks are the white-space characters of Unicode together with the four information
separators.  Trimming removes them at both ends; a line ends at a line feed, a
carriage return, the pair of them, or one of the other line boundaries.
-/

set_option autoImplicit false

namespace GovernedRecords

namespace CodePoint

/-- The blanks, as closed intervals. -/
def blanks : List (Nat × Nat) :=
  [(0x09, 0x0D), (0x1C, 0x20), (0x85, 0x85), (0xA0, 0xA0), (0x1680, 0x1680), (0x2000, 0x200A),
    (0x2028, 0x2029), (0x202F, 0x202F), (0x205F, 0x205F), (0x3000, 0x3000)]

/-- White space, and the information separators U+001C to U+001F. -/
def isBlank (point : CodePoint) : Bool := inTable blanks point

/-- The code points that end a line: line feed, vertical tab, form feed, carriage
return, three information separators, next line, and the two Unicode separators. -/
def endsLine (point : CodePoint) : Bool :=
  inTable [(0x0A, 0x0D), (0x1C, 0x1E), (0x85, 0x85), (0x2028, 0x2029)] point

end CodePoint

namespace Text

/-- Removes the blanks at both ends. -/
def trim (text : Text) : Text := text.trimWhile CodePoint.isBlank

/-- Whether a text has nothing but blanks. -/
def isBlank (text : Text) : Bool := text.all CodePoint.isBlank

/-- The parts of a text between its blanks; the first argument collects the current part,
most recent code point first. -/
def wordsFrom (current : Text) : Text → List Text
  | [] => if current.isEmpty then [] else [current.reverse]
  | first :: rest =>
    if first.isBlank then
      if current.isEmpty then wordsFrom [] rest else current.reverse :: wordsFrom [] rest
    else wordsFrom (first :: current) rest

/-- A text on one line: its words with one space between them. -/
def oneLine (text : Text) : Text := join " " (wordsFrom [] text)

/-- Line ends written as a carriage return, alone or before a line feed, become one
line feed. -/
def unifyLineEnds : Text → Text
  | [] => []
  | first :: rest =>
    if first = (CodePoint.ofChar '\r') then
      match rest with
      | second :: others =>
        if second = (CodePoint.ofChar '\n') then '\n' :: unifyLineEnds others
        else '\n' :: unifyLineEnds (second :: others)
      | [] => ['\n']
    else first :: unifyLineEnds rest

/-- The lines of a text without their ends; a text that ends a line opens no other.
A carriage return followed by a line feed is one line end. -/
def lines (text : Text) : List Text :=
  go [] (unifyLineEnds text)
where
  /-- Collects the current line, most recent code point first. -/
  go (current : Text) : Text → List Text
    | [] => if current.isEmpty then [] else [current.reverse]
    | first :: rest =>
      if first.endsLine then current.reverse :: go [] rest else go (first :: current) rest

end Text

end GovernedRecords
