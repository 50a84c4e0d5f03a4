import GovernedRecords.Json.Writer
import GovernedRecords.Hash.Sha256
import GovernedRecords.Text.Order
import GovernedRecords.Text.Utf8

/-!
# Canonical JSON

The canonical text of a document has the keys of every object in ascending order, no
blanks, and every code point as it is; documents that differ in the order of keys alone
have the same text.  A document with a kind JSON does not have, a key that is no text, or
a number that is not finite has no canonical text, and the first such place is named.

The document is looked through for such places before its keys are put in order and it is
written.  The host bounds how deeply both get, and writing ends at an integer that has no text.

The content hash of a document is the SHA-256 digest of the UTF-8 bytes of its canonical
text; a text with a lone surrogate has no bytes.
-/

set_option autoImplicit false

namespace GovernedRecords

namespace Canonical

/-- Why a document has no canonical text, with the path to the place. -/
inductive Obstacle where
  | key (path found : Text)
  | nonFinite (path : Text) (number : Double)
  | kind (path found : Text)
  /-- A part of the document has no text, wherever it is. -/
  | text (error : TextError)
  deriving DecidableEq

/-- The words for an obstacle. -/
def Obstacle.message : Obstacle → Text
  | .key path found => Text.concat ["Unsupported key type at ", path, ": ", found]
  | .nonFinite path number => Text.concat ["Non-finite float at ", path, ": ", number.toText]
  | .kind path found => Text.concat ["Unsupported type at ", path, ": ", found]
  | .text error => error.message

/-- The path of an entry. -/
def entryPath (path name : Text) : Text := Text.concat [path, ".", name]

/-- The path of an item. -/
def itemPath (path : Text) (index : Nat) : Text := Text.concat [path, "[", Text.ofNat index, "]"]

mutual
/-- The first obstacle of a value, which lies at a path, with room for so many lists and objects
inside one another. -/
def obstacle? (room : Nat) (path : Text) : Value → Option Obstacle
  | .object entries => match room with
    | 0 => some (.text .tooDeep)
    | room + 1 => entriesObstacle? room path entries
  | .list items => match room with
    | 0 => some (.text .tooDeep)
    | room + 1 => itemsObstacle? room path 0 items
  | .tuple items => match room with
    | 0 => some (.text .tooDeep)
    | room + 1 => itemsObstacle? room path 0 items
  | .null => none
  | .text _ => none
  | .int _ => none
  | .bool _ => none
  | .float number => if number.isFinite then none else some (.nonFinite path number)
  | other => some (.kind path other.kindName)

/-- The first obstacle of some items, the first of which has an index. -/
def itemsObstacle? (room : Nat) (path : Text) : Nat → List Value → Option Obstacle
  | _, [] => none
  | index, first :: rest =>
    match obstacle? room (itemPath path index) first with
    | some obstacle => some obstacle
    | none => itemsObstacle? room path (index + 1) rest

/-- The first obstacle of some entries. -/
def entriesObstacle? (room : Nat) (path : Text) : List (Value × Value) → Option Obstacle
  | [] => none
  | (key, value) :: rest =>
    match key.asText? with
    | none => some (.key path key.kindName)
    | some name =>
      match obstacle? room (entryPath path name) value with
      | some obstacle => some obstacle
      | none => entriesObstacle? room path rest
end

/-- Entries in ascending order of their keys. -/
def sortEntries (entries : List (Value × Value)) : List (Value × Value) :=
  arrange (fun first second => Text.le first.1.display second.1.display) entries

mutual
/-- The value with the entries of every object in ascending order. -/
def sortKeys : Value → Value
  | .object entries => .object (sortEntries (sortKeysEntries entries))
  | .list items => .list (sortKeysItems items)
  | .tuple items => .tuple (sortKeysItems items)
  | other => other

/-- Every item with its keys in order. -/
def sortKeysItems : List Value → List Value
  | [] => []
  | first :: rest => sortKeys first :: sortKeysItems rest

/-- Every entry with the keys of its value in order. -/
def sortKeysEntries : List (Value × Value) → List (Value × Value)
  | [] => []
  | (key, value) :: rest => (key, sortKeys value) :: sortKeysEntries rest
end

end Canonical

/-- Why a document has no content hash. -/
inductive HashError where
  | obstacle (cause : Canonical.Obstacle)
  /-- The canonical text holds a lone surrogate. -/
  | unencodable

/-- The canonical text of a document. -/
def canonicalText [Host] (document : Value) : Except Canonical.Obstacle Text :=
  match Canonical.obstacle? Host.checked "$" document with
  | some obstacle => .error obstacle
  | none =>
    match (Canonical.sortKeys document).textError? Host.written with
    | some error => .error (.text error)
    | none =>
      match Json.write Json.Style.compact (Canonical.sortKeys document) with
      | .ok text => .ok text
      | .error _ => .error (.kind "$" document.kindName)

/-- The content hash of a document. -/
def contentHash [Host] (document : Value) : Except HashError Text :=
  match canonicalText document with
  | .error obstacle => .error (.obstacle obstacle)
  | .ok text =>
    match Utf8.encode? text with
    | some octets => .ok (Text.concat ["sha256:", Sha256.digest octets])
    | none => .error .unencodable

end GovernedRecords
