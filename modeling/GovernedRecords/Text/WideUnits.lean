import GovernedRecords.Text.Utf8

/-!
# Texts in units of two and four bytes

UTF-16 writes a code point in one unit of two bytes or in a pair of them, UTF-32 writes it
in one unit of four; either byte of a unit may come first.  Reading lets halves of pairs
through that stand alone, as lenient reading of UTF-8 does.

A body does not say how it is encoded.  A mark at its beginning tells, and otherwise the
places of its zero bytes do, because a document begins with two characters of ASCII.
-/

set_option autoImplicit false

namespace GovernedRecords

/-- Which byte of a unit comes first. -/
inductive ByteOrder where
  | greatestFirst
  | leastFirst
  deriving DecidableEq

namespace ByteOrder

/-- The number that the bytes of a unit write. -/
def unit (order : ByteOrder) (octets : List Octet) : Nat :=
  match order with
  | .greatestFirst => octets.foldl (fun total octet => total * 256 + octet.val) 0
  | .leastFirst => octets.foldr (fun octet total => total * 256 + octet.val) 0

end ByteOrder

namespace Utf16

/-- Whether a unit is the first half of a surrogate pair. -/
def isHighHalf (unit : Nat) : Bool := 0xD800 ≤ unit && unit ≤ 0xDBFF

/-- Whether a unit is the second half of a surrogate pair. -/
def isLowHalf (unit : Nat) : Bool := 0xDC00 ≤ unit && unit ≤ 0xDFFF

/-- The code point of a surrogate pair. -/
def joinHalves (high low : Nat) : CodePoint :=
  CodePoint.ofNat (0x10000 + (high - 0xD800) * 1024 + (low - 0xDC00))

/-- The units of some bytes; none when a byte is left over. -/
def units? (order : ByteOrder) : List Octet → Option (List Nat)
  | [] => some []
  | first :: second :: rest => (units? order rest).map (order.unit [first, second] :: ·)
  | _ => none

/-- The code points of some units: a first half and a second half in a row are one. -/
def joinUnits : List Nat → Text
  | [] => []
  | unit :: other :: rest =>
    if isHighHalf unit && isLowHalf other then joinHalves unit other :: joinUnits rest
    else CodePoint.ofNat unit :: joinUnits (other :: rest)
  | [unit] => [CodePoint.ofNat unit]

/-- The text of some bytes. -/
def decodeLenient? (order : ByteOrder) (octets : List Octet) : Option Text :=
  (units? order octets).map joinUnits

end Utf16

namespace Utf32

/-- The text of some bytes; none when bytes are left over or a unit is beyond the last
code point. -/
def decodeLenient? (order : ByteOrder) : List Octet → Option Text
  | [] => some []
  | first :: second :: third :: fourth :: rest =>
    let number := order.unit [first, second, third, fourth]
    if inRange : number < 0x110000 then
      (decodeLenient? order rest).map ((⟨number, inRange⟩ : CodePoint) :: ·)
    else none
  | _ => none

end Utf32

/-- How the texts of bodies are encoded. -/
inductive Encoding where
  | utf8
  | utf16 (order : ByteOrder)
  | utf32 (order : ByteOrder)
  deriving DecidableEq

namespace Encoding

/-- The text of some bytes in an encoding. -/
def decodeLenient? : Encoding → List Octet → Option Text
  | .utf8 => Utf8.decodeLenient?
  | .utf16 order => Utf16.decodeLenient? order
  | .utf32 order => Utf32.decodeLenient? order

/-- The encoding that a mark at the beginning tells, and the bytes after the mark.  The
mark of UTF-32 with the least byte first begins like that of UTF-16. -/
def marked? (octets : List Octet) : Option (Encoding × List Octet) :=
  match octets.map Fin.val with
  | 0x00 :: 0x00 :: 0xFE :: 0xFF :: _ => some (.utf32 .greatestFirst, octets.drop 4)
  | 0xFF :: 0xFE :: 0x00 :: 0x00 :: _ => some (.utf32 .leastFirst, octets.drop 4)
  | 0xFE :: 0xFF :: _ => some (.utf16 .greatestFirst, octets.drop 2)
  | 0xFF :: 0xFE :: _ => some (.utf16 .leastFirst, octets.drop 2)
  | 0xEF :: 0xBB :: 0xBF :: _ => some (.utf8, octets.drop 3)
  | _ => none

/-- The encoding that the zero bytes at the beginning tell. -/
def guessed (octets : List Octet) : Encoding :=
  match octets.map fun octet => decide (octet.val = 0) with
  | true :: second :: _ :: _ :: _ => if second then .utf32 .greatestFirst else .utf16 .greatestFirst
  | false :: true :: third :: fourth :: _ =>
    if third && fourth then .utf32 .leastFirst else .utf16 .leastFirst
  | [true, _] => .utf16 .greatestFirst
  | [false, true] => .utf16 .leastFirst
  | _ => .utf8

/-- The text of a body, in the encoding that its beginning tells. -/
def readBody? (octets : List Octet) : Option Text :=
  match marked? octets with
  | some (encoding, rest) => encoding.decodeLenient? rest
  | none => (guessed octets).decodeLenient? octets

end Encoding

end GovernedRecords
