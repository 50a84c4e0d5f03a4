import GovernedRecords.Number.Double
import GovernedRecords.Text.Quoted
import GovernedRecords.Time.Instant

/-!
# Dynamic values

Documents, payloads and database rows hold values of any kind.  A document in JSON has
only the first six kinds and objects whose keys are texts; the others come from stores
that are written directly and from database rows.

An object is a list of entries in insertion order, with no key twice.  `Entries.get?`,
`Entries.put` and `Entries.erase` read and change one entry by a text key; putting a key
that is there keeps its place.
-/

set_option autoImplicit false

namespace GovernedRecords

/-- A value of any kind. -/
inductive Value where
  | null
  | bool (truth : Bool)
  | int (integer : Int)
  | float (number : Double)
  | text (characters : Text)
  | list (items : List Value)
  | object (entries : List (Value × Value))
  | tuple (items : List Value)
  | set (items : List Value)
  | bytes (octets : List Octet)
  | date (date : Date)
  | datetime (moment : DateTime)

/-- The entries of an object, in insertion order. -/
abbrev Entries := List (Value × Value)

instance : Inhabited Value := ⟨.null⟩

instance : Coe Text Value := ⟨.text⟩

instance : Coe String Value := ⟨fun characters => .text characters⟩

namespace Value

/-- The word for the kind of a value. -/
def kindName : Value → Text
  | .null => "NoneType"
  | .bool _ => "bool"
  | .int _ => "int"
  | .float _ => "float"
  | .text _ => "str"
  | .list _ => "list"
  | .object _ => "dict"
  | .tuple _ => "tuple"
  | .set _ => "set"
  | .bytes _ => "bytes"
  | .date _ => "date"
  | .datetime _ => "datetime"

/-- Whether a value counts as present: neither null, false, zero, nor empty. -/
def isTruthy : Value → Bool
  | .null => false
  | .bool truth => truth
  | .int integer => integer != 0
  | .float number => !number.isZero
  | .text characters => !characters.isEmpty
  | .list items => !items.isEmpty
  | .object entries => !entries.isEmpty
  | .tuple items => !items.isEmpty
  | .set items => !items.isEmpty
  | .bytes octets => !octets.isEmpty
  | .date _ => true
  | .datetime _ => true

/-- Null, or the empty text. -/
def isMissing : Value → Bool
  | .null => true
  | .text characters => characters.isEmpty
  | _ => false

/-- Null. -/
def isNull : Value → Bool
  | .null => true
  | _ => false

/-- The text a value is, if it is one. -/
def asText? : Value → Option Text
  | .text characters => some characters
  | _ => none

/-- The entries of an object, if the value is one. -/
def asObject? : Value → Option Entries
  | .object entries => some entries
  | _ => none

/-- Whether a value is the given text. -/
def isText (characters : Text) : Value → Bool
  | .text other => other == characters
  | _ => false

/-- The text, or null for none. -/
def ofText? : Option Text → Value
  | some characters => .text characters
  | none => .null

/-- An object with text keys. -/
def ofFields (fields : List (Text × Value)) : Value :=
  .object (fields.map fun field => (.text field.1, field.2))

/-- A list of texts. -/
def ofTexts (texts : List Text) : Value := .list (texts.map .text)

mutual
/-- How many lists and objects stand inside one another in a value. -/
def nesting : Value → Nat
  | .list items => nestingOfItems items + 1
  | .tuple items => nestingOfItems items + 1
  | .set items => nestingOfItems items + 1
  | .object entries => nestingOfEntries entries + 1
  | _ => 0

/-- The greatest nesting among some values. -/
def nestingOfItems : List Value → Nat
  | [] => 0
  | first :: rest => max (nesting first) (nestingOfItems rest)

/-- The greatest nesting among the keys and values of some entries. -/
def nestingOfEntries : List (Value × Value) → Nat
  | [] => 0
  | (key, value) :: rest => max (max (nesting key) (nesting value)) (nestingOfEntries rest)
end

mutual
/-- Whether a value may be a key: every kind but lists, sets and objects, and tuples of
such values. -/
def isHashable : Value → Bool
  | .list _ => false
  | .set _ => false
  | .object _ => false
  | .tuple items => areHashable items
  | _ => true

/-- Whether all values of a list may be keys. -/
def areHashable : List Value → Bool
  | [] => true
  | first :: rest => isHashable first && areHashable rest
end

end Value

namespace Entries

/-- The value under a text key. -/
def get? (entries : Entries) (name : Text) : Option Value :=
  (entries.find? fun entry => entry.1.isText name).map (·.2)

/-- The value under a text key, null when there is none. -/
def get (entries : Entries) (name : Text) : Value := (get? entries name).getD .null

/-- Whether a text key is there. -/
def has (entries : Entries) (name : Text) : Bool := entries.any fun entry => entry.1.isText name

/-- Sets the value under a text key, in its place when it is there and last otherwise. -/
def put (name : Text) (value : Value) : Entries → Entries
  | [] => [(.text name, value)]
  | entry :: rest =>
    if entry.1.isText name then (entry.1, value) :: rest else entry :: put name value rest

/-- Removes a text key. -/
def erase (name : Text) (entries : Entries) : Entries :=
  entries.filter fun entry => !entry.1.isText name

/-- The entries of one object with those of another, under text keys, over them. -/
def merge (existing changes : Entries) : Entries :=
  changes.foldl (fun entries change =>
    match change.1.asText? with
    | some name => put name change.2 entries
    | none => entries) existing

/-- The entries whose key is a text, with that text. -/
def fields (entries : Entries) : List (Text × Value) :=
  entries.filterMap fun entry => entry.1.asText?.map fun name => (name, entry.2)

end Entries

end GovernedRecords
