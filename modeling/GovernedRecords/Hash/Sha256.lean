import GovernedRecords.Text.Quoted

/-!
# SHA-256

The digest of a sequence of bytes: the message is padded to a multiple of 64 bytes, cut
into blocks of sixteen big-endian words, and folded through the compression function.
-/

set_option autoImplicit false

namespace GovernedRecords.Sha256

/-- The round constants: the fractional bits of the cube roots of the first 64 primes. -/
def roundConstants : List UInt32 :=
  [0x428a2f98, 0x71374491, 0xb5c0fbcf, 0xe9b5dba5, 0x3956c25b, 0x59f111f1, 0x923f82a4, 0xab1c5ed5,
    0xd807aa98, 0x12835b01, 0x243185be, 0x550c7dc3, 0x72be5d74, 0x80deb1fe, 0x9bdc06a7, 0xc19bf174,
    0xe49b69c1, 0xefbe4786, 0x0fc19dc6, 0x240ca1cc, 0x2de92c6f, 0x4a7484aa, 0x5cb0a9dc, 0x76f988da,
    0x983e5152, 0xa831c66d, 0xb00327c8, 0xbf597fc7, 0xc6e00bf3, 0xd5a79147, 0x06ca6351, 0x14292967,
    0x27b70a85, 0x2e1b2138, 0x4d2c6dfc, 0x53380d13, 0x650a7354, 0x766a0abb, 0x81c2c92e, 0x92722c85,
    0xa2bfe8a1, 0xa81a664b, 0xc24b8b70, 0xc76c51a3, 0xd192e819, 0xd6990624, 0xf40e3585, 0x106aa070,
    0x19a4c116, 0x1e376c08, 0x2748774c, 0x34b0bcb5, 0x391c0cb3, 0x4ed8aa4a, 0x5b9cca4f, 0x682e6ff3,
    0x748f82ee, 0x78a5636f, 0x84c87814, 0x8cc70208, 0x90befffa, 0xa4506ceb, 0xbef9a3f7, 0xc67178f2]

/-- The eight chaining words. -/
structure Chain where
  a : UInt32
  b : UInt32
  c : UInt32
  d : UInt32
  e : UInt32
  f : UInt32
  g : UInt32
  h : UInt32

/-- The initial words: the fractional bits of the square roots of the first 8 primes. -/
def Chain.initial : Chain :=
  ⟨0x6a09e667, 0xbb67ae85, 0x3c6ef372, 0xa54ff53a, 0x510e527f, 0x9b05688c, 0x1f83d9ab, 0x5be0cd19⟩

/-- Word by word sum. -/
def Chain.add (first second : Chain) : Chain :=
  ⟨first.a + second.a, first.b + second.b, first.c + second.c, first.d + second.d,
    first.e + second.e, first.f + second.f, first.g + second.g, first.h + second.h⟩

/-- The chaining words in order. -/
def Chain.words (chain : Chain) : List UInt32 :=
  [chain.a, chain.b, chain.c, chain.d, chain.e, chain.f, chain.g, chain.h]

/-- Rotation to the right. -/
def rotate (word : UInt32) (amount : UInt32) : UInt32 :=
  (word >>> amount) ||| (word <<< (32 - amount))

/-- One round, with its constant added to its message word. -/
def round (chain : Chain) (input : UInt32) : Chain :=
  let upper := rotate chain.e 6 ^^^ rotate chain.e 11 ^^^ rotate chain.e 25
  let choice := (chain.e &&& chain.f) ^^^ ((~~~ chain.e) &&& chain.g)
  let first := chain.h + upper + choice + input
  let lower := rotate chain.a 2 ^^^ rotate chain.a 13 ^^^ rotate chain.a 22
  let majority := (chain.a &&& chain.b) ^^^ (chain.a &&& chain.c) ^^^ (chain.b &&& chain.c)
  ⟨first + (lower + majority), chain.a, chain.b, chain.c, chain.d + first, chain.e, chain.f,
    chain.g⟩

/-- The next word of the message schedule, from the sixteen before it, latest first. -/
def nextWord (latest : List UInt32) : UInt32 :=
  let second := latest.getD 1 0
  let seventh := latest.getD 6 0
  let fifteenth := latest.getD 14 0
  let sixteenth := latest.getD 15 0
  let low := rotate fifteenth 7 ^^^ rotate fifteenth 18 ^^^ (fifteenth >>> 3)
  let high := rotate second 17 ^^^ rotate second 19 ^^^ (second >>> 10)
  sixteenth + low + seventh + high

/-- Prepends further words of the schedule to those before it, latest first. -/
def extend : Nat → List UInt32 → List UInt32
  | 0, latest => latest
  | count + 1, latest => extend count (nextWord latest :: latest)

/-- Folds one block of sixteen words into the chain. -/
def compress (chain : Chain) (block : List UInt32) : Chain :=
  let schedule := (extend 48 block.reverse).reverse
  let inputs := List.zipWith (· + ·) roundConstants schedule
  chain.add (inputs.foldl round chain)

/-- The message with its padding: a one bit, zeros, and its length in bits. -/
def padded (message : List Octet) : List Octet :=
  let length := message.length
  let zeros := (119 - length % 64) % 64
  message ++ (0x80 : Octet) :: List.replicate zeros 0 ++
    (List.range 8).reverse.map fun place =>
      ⟨8 * length / Nat.pow 256 place % 256, Nat.mod_lt _ (by decide)⟩

/-- Big-endian words. -/
def words : List Octet → List UInt32
  | first :: second :: third :: fourth :: rest =>
    UInt32.ofNat (first.val * 16777216 + second.val * 65536 + third.val * 256 + fourth.val)
      :: words rest
  | _ => []

/-- Folds the blocks of a message, at most as many as the count. -/
def digestBlocks : Nat → Chain → List UInt32 → Chain
  | 0, chain, _ => chain
  | count + 1, chain, rest =>
    digestBlocks count (compress chain (rest.take 16)) (rest.drop 16)

/-- The digest of a message, as hexadecimal digits. -/
def digest (message : List Octet) : Text :=
  let input := words (padded message)
  (digestBlocks (input.length / 16) Chain.initial input).words.flatMap fun word =>
    Text.hex 8 word.toNat

end GovernedRecords.Sha256
