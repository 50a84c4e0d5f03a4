import GovernedRecords.Fault
import GovernedRecords.Value.Equality

/-!
# Members of values

Some values have members: the items of a list, tuple or set, the code points of a text,
the keys of an object, the numbers of some bytes.

A value becomes an object when it is one, or when each of its members has two members
itself, a key and what stands under it; a later value under a key takes the place of an
earlier one.
-/

set_option autoImplicit false

namespace GovernedRecords

namespace Value

/-- The members of a value that has some. -/
def members : Value → Except Fault (List Value)
  | .list items => .ok items
  | .tuple items => .ok items
  | .set items => .ok items
  | .text characters => .ok (characters.map fun point => .text [point])
  | .object entries => .ok (entries.map (·.1))
  | .bytes octets => .ok (octets.map fun octet => .int octet.val)
  | _ => .error .unsupportedOperand

/-- The members of a value, none for one that counts as absent. -/
def membersOrNone (value : Value) : Except Fault (List Value) :=
  if value.isTruthy then value.members else .ok []

/-- Puts the key and the value that a member at a place is. -/
def putPair (entries : Entries) (place : Nat) (member : Value) : Except Fault Entries := do
  match ← member.members with
  | [key, value] =>
    if key.isHashable then return putEntry key value entries else .error .unhashable
  | others => .error (.notPair place others.length)

/-- Puts the pairs that some members are, the first of them at a place. -/
def putPairs (entries : Entries) (place : Nat) : List Value → Except Fault Entries
  | [] => .ok entries
  | member :: rest => do putPairs (← putPair entries place member) (place + 1) rest

/-- The entries of the object that a value becomes. -/
def toEntries (value : Value) : Except Fault Entries :=
  match value with
  | .object entries => .ok entries
  | other => do putPairs [] 0 (← other.members)

end Value

end GovernedRecords
