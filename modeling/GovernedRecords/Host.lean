/-!
# What the machine allows

How deeply a value may be nested so that the library can still walk through it depends on how
much of the stack its caller has left, and each way of walking takes its own share.  How much of
the path of a file is taken before its name depends on where the directory lies.  The library
sets neither, so both are parameters of everything that runs into them.
-/

set_option autoImplicit false

namespace GovernedRecords

/-- What the machine leaves to the library: for each way of walking through a value, how many
lists and objects may stand inside one another, and how many bytes stand before the name of a
file in its path.  Every walk gets as far as a copy, which takes the most of the stack, and copies
get past the few levels of what the library itself makes. -/
class Host where
  /-- The greatest nesting of a value that is copied. -/
  copied : Nat
  /-- The greatest nesting of a value that is shown as text. -/
  shown : Nat
  /-- The greatest nesting of a document that is looked through before it is hashed. -/
  checked : Nat
  /-- The greatest nesting of a document that is written as JSON. -/
  written : Nat
  /-- The greatest nesting of a document that is read from JSON. -/
  parsed : Nat
  /-- The bytes of a file's path before its name. -/
  prefixLength : Nat
  room : 8 ≤ copied
  copied_le_checked : copied ≤ checked
  copied_le_written : copied ≤ written
  copied_le_parsed : copied ≤ parsed

/-- A host with a stack of common size, of which a caller has used some. -/
instance (priority := low) Host.usual : Host where
  copied := 490
  shown := 960
  checked := 960
  written := 960
  parsed := 960
  prefixLength := 64
  room := by decide
  copied_le_checked := by decide
  copied_le_written := by decide
  copied_le_parsed := by decide

end GovernedRecords
