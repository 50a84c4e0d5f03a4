import GovernedRecords.Text.Printable

/-!
# Quoted texts

A text shown inside a message stands between quotes: single ones, or double ones when it
holds a single quote and no double one.  The backslash, the quote in use, and every code
point without a printed form are escaped, the three common controls by a letter and the
rest by their number in hexadecimal.
-/

set_option autoImplicit false

namespace GovernedRecords

/-- An eight-bit byte. -/
abbrev Octet := Fin 256

namespace Text

/-- The quote for a text with these code points. -/
def quoteFor (hasSingle hasDouble : Bool) : CodePoint :=
  if hasSingle && !hasDouble then '"' else '\''

/-- The number of a code point after a letter that tells its width. -/
def numberedEscape (number : Nat) : Text :=
  if number < 0x100 then '\\' :: 'x' :: hex 2 number
  else if number < 0x10000 then '\\' :: 'u' :: hex 4 number
  else '\\' :: 'U' :: hex 8 number

/-- One code point inside quotes; the test says which are shown as themselves. -/
def escaped (shown : CodePoint → Bool) (quote point : CodePoint) : Text :=
  if point = quote || point = (CodePoint.ofChar '\\') then ['\\', point]
  else if point = (CodePoint.ofChar '\n') then ['\\', 'n']
  else if point = (CodePoint.ofChar '\r') then ['\\', 'r']
  else if point = (CodePoint.ofChar '\t') then ['\\', 't']
  else if shown point then [point]
  else numberedEscape point.val

/-- Code points between quotes, escaped where needed. -/
def quotedWith (shown : CodePoint → Bool) (text : Text) : Text :=
  let quote :=
    quoteFor (text.contains (CodePoint.ofChar '\'')) (text.contains (CodePoint.ofChar '"'))
  quote :: text.flatMap (escaped shown quote) ++ [quote]

/-- A text between quotes. -/
def quoted (text : Text) : Text := quotedWith CodePoint.isPrintable text

/-- Bytes between quotes after the letter `b`; those outside printable ASCII are
escaped. -/
def quotedOctets (octets : List Octet) : Text :=
  'b' :: quotedWith (fun point => 32 ≤ point.val && point.val < 127)
    (octets.map fun octet => CodePoint.ofNat octet.val)

end Text

end GovernedRecords
