import GovernedRecords.Value.Basic

/-!
# Equality of values

Numbers are equal across their kinds: truth values count as one and zero, and an integer
equals the double that is exactly it.  Lists and tuples are equal item by item, objects
entry by entry in any order, sets as sets.  Not a number is unequal to itself on its own
but equal to itself as an item or entry of a container.
-/

set_option autoImplicit false

namespace GovernedRecords

namespace Value

/-- The number that a value counts as, exactly. -/
inductive Numeric where
  | integer (value : Int)
  | double (value : Double)

/-- Truth values, integers and doubles count as numbers. -/
def numeric? : Value → Option Numeric
  | .bool truth => some (.integer (if truth then 1 else 0))
  | .int integer => some (.integer integer)
  | .float number => some (.double number)
  | _ => none

/-- Exact numeric equality. -/
def Numeric.equals : Numeric → Numeric → Bool
  | .integer first, .integer second => first = second
  | .integer first, .double second => second.toInt? = some first
  | .double first, .integer second => first.toInt? = some second
  | .double first, .double second => first.equals second

/-- Whether two dates with times are the same moment; one with an offset never equals
one without. -/
def sameMoment (first second : DateTime) : Bool :=
  match first.offset, second.offset with
  | none, none => first.clock = second.clock
  | some offset, some other =>
    (first.clock.microseconds : Int) - offset = (second.clock.microseconds : Int) - other
  | _, _ => false

/-- Not a number, which equals itself only inside a container. -/
def isNan : Value → Bool
  | .float .nan => true
  | _ => false

mutual
/-- Equality of values. -/
def equals : Value → Value → Bool
  | .null, other => other.isNull
  | .bool truth, other =>
    match other.numeric? with
    | some number => (Numeric.integer (if truth then 1 else 0)).equals number
    | none => false
  | .int integer, other =>
    match other.numeric? with
    | some number => (Numeric.integer integer).equals number
    | none => false
  | .float double, other =>
    match other.numeric? with
    | some number => (Numeric.double double).equals number
    | none => false
  | .text characters, other => other.isText characters
  | .list items, other =>
    match other with
    | .list others => equalItems items others
    | _ => false
  | .tuple items, other =>
    match other with
    | .tuple others => equalItems items others
    | _ => false
  | .set items, other =>
    match other with
    | .set others => items.length = others.length && subset items others
    | _ => false
  | .bytes octets, other =>
    match other with
    | .bytes others => octets = others
    | _ => false
  | .date day, other =>
    match other with
    | .date another => day = another
    | _ => false
  | .datetime moment, other =>
    match other with
    | .datetime instant => sameMoment moment instant
    | _ => false
  | .object entries, other =>
    match other with
    | .object others => entries.length = others.length && equalEntries entries others
    | _ => false

/-- Equality item by item. -/
def equalItems : List Value → List Value → Bool
  | [], [] => true
  | first :: rest, other :: others =>
    ((first.isNan && other.isNan) || equals first other) && equalItems rest others
  | _, _ => false

/-- Whether every item of a list equals one of another. -/
def subset : List Value → List Value → Bool
  | [], _ => true
  | first :: rest, others => others.any (fun other => equals first other) && subset rest others

/-- Whether every entry has an equal one in another list. -/
def equalEntries : List (Value × Value) → List (Value × Value) → Bool
  | [], _ => true
  | (key, value) :: rest, others =>
    (match others.find? (fun entry => equals key entry.1) with
      | some entry => (value.isNan && entry.2.isNan) || equals value entry.2
      | none => false)
      && equalEntries rest others
end

/-- Adds an entry under any key, replacing the value of an equal key in its place. -/
def putEntry (key value : Value) : Entries → Entries
  | [] => [(key, value)]
  | entry :: rest =>
    if key.equals entry.1 then (entry.1, value) :: rest else entry :: putEntry key value rest

/-- The object with the given keys and values, a later value of a key replacing an
earlier one. -/
def ofPairs (pairs : List (Value × Value)) : Value :=
  .object (pairs.foldl (fun entries pair => putEntry pair.1 pair.2 entries) [])

/-- The set of some values, each kept where it first occurs. -/
def ofMembers (members : List Value) : Value :=
  .set (members.foldl
    (fun items member => if items.any (member.equals ·) then items else items ++ [member]) [])

end Value

end GovernedRecords
