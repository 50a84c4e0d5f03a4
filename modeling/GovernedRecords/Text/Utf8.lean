import GovernedRecords.Text.Quoted

/-!
# UTF-8

A text has an encoding exactly when it holds no surrogate.  Reading accepts the shortest
encoding of each code point only, so every sequence of bytes is the encoding of at most
one text.

Senders that know no surrogate pairs write each half as if it were a code point of its
own.  Lenient reading takes such halves as they are; strict reading refuses them.
-/

set_option autoImplicit false

namespace GovernedRecords

namespace Utf8

/-- A number below 256 as a byte. -/
def octet (number : Nat) : Octet := ⟨number % 256, Nat.mod_lt _ (by decide)⟩

/-- The bytes of one code point; none for a surrogate. -/
def encodePoint? (point : CodePoint) : Option (List Octet) :=
  let number := point.val
  if number < 0x80 then some [octet number]
  else if number < 0x800 then
    some [octet (0xC0 + number / 64), octet (0x80 + number % 64)]
  else if number < 0x10000 then
    if point.isSurrogate then none
    else some [octet (0xE0 + number / 4096), octet (0x80 + number / 64 % 64),
      octet (0x80 + number % 64)]
  else
    some [octet (0xF0 + number / 262144), octet (0x80 + number / 4096 % 64),
      octet (0x80 + number / 64 % 64), octet (0x80 + number % 64)]

/-- The bytes of a text; none when it holds a surrogate. -/
def encode? : Text → Option (List Octet)
  | [] => some []
  | point :: rest =>
    match encodePoint? point, encode? rest with
    | some octets, some others => some (octets ++ others)
    | _, _ => none

/-- The six low bits of a continuation byte. -/
def tail? (octet : Octet) : Option Nat :=
  if octet.val / 64 = 2 then some (octet.val % 64) else none

/-- A code point put together from its bits, refused when fewer bytes would do, beyond the
last code point, and when it is a surrogate, unless those are let through. -/
def assemble? (lenient : Bool) (least number : Nat) : Option CodePoint :=
  if number < least then none
  else if inRange : number < 0x110000 then
    let point : CodePoint := ⟨number, inRange⟩
    if point.isSurrogate && !lenient then none else some point
  else none

/-- The text of some bytes, with surrogates in it only when those are let through. -/
def decodeWith? (lenient : Bool) : List Octet → Option Text
  | [] => some []
  | first :: rest =>
    if first.val < 0x80 then
      (decodeWith? lenient rest).map (CodePoint.ofNat first.val :: ·)
    else if first.val / 32 = 6 then
      match rest with
      | second :: others => do
        let low ← tail? second
        let point ← assemble? lenient 0x80 (first.val % 32 * 64 + low)
        (decodeWith? lenient others).map (point :: ·)
      | [] => none
    else if first.val / 16 = 14 then
      match rest with
      | second :: third :: others => do
        let middle ← tail? second
        let low ← tail? third
        let point ← assemble? lenient 0x800 (first.val % 16 * 4096 + middle * 64 + low)
        (decodeWith? lenient others).map (point :: ·)
      | _ => none
    else if first.val / 8 = 30 then
      match rest with
      | second :: third :: fourth :: others => do
        let high ← tail? second
        let middle ← tail? third
        let low ← tail? fourth
        let point ← assemble? lenient 0x10000
          (first.val % 8 * 262144 + high * 4096 + middle * 64 + low)
        (decodeWith? lenient others).map (point :: ·)
      | _ => none
    else none

/-- The text whose encoding the bytes are, if there is one. -/
def decode? (octets : List Octet) : Option Text := decodeWith? false octets

/-- The text of some bytes, surrogates let through. -/
def decodeLenient? (octets : List Octet) : Option Text := decodeWith? true octets

end Utf8

end GovernedRecords
